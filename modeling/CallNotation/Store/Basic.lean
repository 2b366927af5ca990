import CallNotation.Store.Path
import CallNotation.Text.Newline
import CallNotation.Text.Utf8

/-!
# Stores

A store is a tree of directories and files, each with what may be done with it, and a working
directory. `Store.locate` follows a path part by part, from the root if the path starts there and
else from the working directory, so that paths that lead to one place are told to do so, and a
missing directory, a file in the place of a directory and a directory that may not be searched are
told apart. A name of more than 255 bytes can be looked up in no directory; a path of 4096 bytes or
more, or with a null character, is refused as a whole. Writing replaces the whole content of a file,
or adds the file; it never adds a directory.

Out of scope are links (an entry has one place), devices and pipes (all that is not a directory
holds bytes and keeps what is written to it), and any failure of a file that has been opened. Rights
are those of the one who runs the program, and a new file comes with all of them.
-/

namespace CallNotation

/-- The place of an entry: the names that lead to it from the root. -/
abbrev Location :=
  List Text

/-- What may be done with an entry. -/
structure Rights where
  /-- The content of a file, or the names in a directory, may be read. -/
  readable : Bool := true
  /-- The content of a file, or the names in a directory, may be changed. -/
  writable : Bool := true
  /-- Names may be looked up in a directory. -/
  searchable : Bool := true
deriving DecidableEq

/-- An entry of a store. -/
inductive Entry where
  /-- A directory. -/
  | directory (rights : Rights)
  /-- A file and the bytes it holds. -/
  | file (rights : Rights) (content : Bytes)
deriving DecidableEq

/-- Why a path does not lead to a file that can be read or written. -/
inductive FileFault where
  /-- There is nothing. -/
  | missing
  /-- It may not be done. -/
  | denied
  /-- There is a directory. -/
  | isDirectory
  /-- The path goes on behind a file. -/
  | notDirectory
  /-- The path, or a name in it, is too long. -/
  | nameTooLong
  /-- The path holds a null character. -/
  | nullCharacter
deriving DecidableEq

namespace FileFault

/-- The wording of the fault. -/
def message : FileFault → String
  | missing => "No such file or directory"
  | denied => "Permission denied"
  | isDirectory => "Is a directory"
  | notDirectory => "Not a directory"
  | nameTooLong => "File name too long"
  | nullCharacter => "embedded null byte"

/-- The number of the fault, if the system has one for it. -/
def number? : FileFault → Option Nat
  | missing => some 2
  | denied => some 13
  | isDirectory => some 21
  | notDirectory => some 20
  | nameTooLong => some 36
  | nullCharacter => none

/-- Whether the fault means that there is nothing at the path. -/
def isAbsence : FileFault → Bool
  | missing => true
  | denied => false
  | notDirectory => true
  | nullCharacter => true
  | isDirectory => false
  | nameTooLong => false

end FileFault

/-- Directories and files, by their place. -/
structure Store where
  /-- The entries below the root. -/
  entries : List (Location × Entry) := []
  /-- What may be done with the root. -/
  root : Rights := {}
  /-- The working directory. If there is no directory, it has been removed. -/
  working : Location := []

namespace Location

/-- The part that leads to the directory above. -/
def upward : Text := ['.', '.']

/-- Where a part of a path leads from a directory. Above the root is the root. -/
def step (l : Location) (part : Text) : Location :=
  if isIdlePart part then l
  else if part = upward then l.dropLast
  else l ++ [part]

end Location

namespace Store

/-- The entry at a location. -/
def entry? (s : Store) (l : Location) : Option Entry :=
  if l = [] then some (.directory s.root) else s.entries.lookup l

/-- The length of a text in bytes. -/
def byteLength (t : Text) : Nat :=
  (Utf8.encode t).length

/-- The greatest length of a name, in bytes. -/
def nameLimit : Nat := 255

/-- The greatest length of a path, in bytes. -/
def pathLimit : Nat := 4095

/-- The location that parts lead to from `l`; each part is looked up in a directory. An empty part
asks for a directory and looks nothing up. -/
def follow (s : Store) (l : Location) : List Text → Except FileFault Location
  | [] => .ok l
  | part :: parts =>
    match s.entry? l with
    | some (.directory rights) =>
      if part ≠ [] ∧ rights.searchable = false then .error .denied
      else if nameLimit < byteLength part then .error .nameTooLong
      else s.follow (l.step part) parts
    | some (.file _ _) => .error .notDirectory
    | none => .error .missing

/-- The location that a path leads to. There need not be an entry. -/
def locate (s : Store) (path : String) : Except FileFault Location :=
  if '\x00' ∈ path.toList then .error .nullCharacter
  else if pathLimit < byteLength path.toList then .error .nameTooLong
  else
    match splitSlash path.toList with
    | [[]] => .error .missing
    | [] :: parts => s.follow [] parts
    | parts => s.follow s.working parts

/-- The entry that a path leads to. -/
def find (s : Store) (path : String) : Except FileFault Entry :=
  match s.locate path with
  | .error fault => .error fault
  | .ok l =>
    match s.entry? l with
    | some e => .ok e
    | none => .error .missing

/-- Replaces or adds the entry at a location. -/
def put (s : Store) (l : Location) (e : Entry) : Store :=
  { s with entries := (l, e) :: s.entries.filter (·.1 ≠ l) }

/-- The content of a file. -/
def read (s : Store) (path : String) : Except FileFault Bytes :=
  match s.find path with
  | .error fault => .error fault
  | .ok (.directory rights) => .error (if rights.readable then .isDirectory else .denied)
  | .ok (.file rights content) => if rights.readable then .ok content else .error .denied

/-- What a file written at a location may be used for, if one can be written there: a file that is
there stays what it is, and a new one needs a directory that may be changed. -/
def placing (s : Store) (l : Location) : Except FileFault Rights :=
  match s.entry? l with
  | some (.directory _) => .error .isDirectory
  | some (.file rights _) => if rights.writable then .ok rights else .error .denied
  | none =>
    match s.entry? l.dropLast with
    | some (.directory rights) => if rights.writable then .ok {} else .error .denied
    | _ => .error .missing

/-- The store with a file of the given content. -/
def write (s : Store) (path : String) (content : Bytes) : Except FileFault Store :=
  match s.locate path with
  | .error fault => .error fault
  | .ok l =>
    match s.placing l with
    | .error fault => .error fault
    | .ok rights => .ok (s.put l (.file rights content))

end Store

/-- The text that a file of the given content holds. -/
def Text.ofFile (content : Bytes) : Except Utf8.DecodeError Text :=
  Text.unifyNewlines <$> Utf8.decode content

end CallNotation
