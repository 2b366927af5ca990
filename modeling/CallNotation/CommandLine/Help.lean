/-!
# Notices of the command line

The texts that the program shows about itself.
-/

namespace CallNotation

/-- What is shown for the version. -/
def versionText : String := "tinyc, version 1.0.0"

/-- What is shown for help. -/
def helpText : String :=
  "Usage: tinyc [OPTIONS] [INPUT_FILE]

  Compile parenthesized-call source code to C-like call syntax.

  INPUT_FILE is the source file to compile; omit it or pass '-' to read from
  stdin.

  Examples:
      tinyc program.lisp                # Print result to stdout
      tinyc program.lisp -o program.c   # Write result to a file
      tinyc --tokens program.lisp       # Dump tokens
      tinyc --ast program.lisp          # Dump source syntax tree

  Supported language:
      - Calls: (name arg arg ...)
      - Numbers: 42
      - Strings: \"text\"

Options:
  -o, --output FILE  Output file (default: stdout)
  --tokens           Print tokens and exit (for debugging)
  --ast              Print the source syntax tree and exit (for debugging)
  -v, --verbose      Verbose output
  --version          Show the version and exit.
  --help             Show this message and exit."

/-- What is shown in front of most usage errors. -/
def usageReminder : String :=
  "Usage: tinyc [OPTIONS] [INPUT_FILE]
Try 'tinyc --help' for help.

"

end CallNotation
