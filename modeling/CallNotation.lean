import CallNotation.Text.Blank
import CallNotation.Text.Quoted
import CallNotation.Text.Similar
import CallNotation.Text.Styling
import CallNotation.Text.Utf8
import CallNotation.Text.Newline
import CallNotation.Token.Reader
import CallNotation.Expr.Parse
import CallNotation.Expr.Descent
import CallNotation.Node.Describe
import CallNotation.Node.Outline
import CallNotation.Node.Rewrite
import CallNotation.Node.Render
import CallNotation.Compile
import CallNotation.Store.Compile
import CallNotation.CommandLine.Frontend
import CallNotation.CommandLine.Arguments
import CallNotation.CommandLine.Standard
import CallNotation.CommandLine.Run
import CallNotation.Main
import CallNotation.Proofs.Token.Lexeme
import CallNotation.Proofs.Token.Reading
import CallNotation.Proofs.Token.Layout
import CallNotation.Proofs.Token.Sharing
import CallNotation.Proofs.Token.Tokenization
import CallNotation.Proofs.Token.Stop
import CallNotation.Proofs.Expr.Lexemes
import CallNotation.Proofs.Expr.Partial
import CallNotation.Proofs.Expr.Grammar
import CallNotation.Proofs.Expr.Sequence
import CallNotation.Proofs.Expr.Attempts
import CallNotation.Proofs.Expr.Descent
import CallNotation.Proofs.Compile.Language
import CallNotation.Proofs.Compile.Rereading
import CallNotation.Proofs.Compile.Blame
import CallNotation.Proofs.Compile.Spacing
import CallNotation.Proofs.Compile.Concatenation
import CallNotation.Proofs.Compile.Stages
import CallNotation.Proofs.Store.Place
import CallNotation.Proofs.Store.Saving
import CallNotation.Proofs.Text.Stored
import CallNotation.Proofs.Compile.Characters
import CallNotation.Proofs.Store.Sources
import CallNotation.Proofs.Text.Styling
import CallNotation.Proofs.CommandLine.Grammar
import CallNotation.Proofs.CommandLine.Frontend
import CallNotation.Proofs.CommandLine.Course
import CallNotation.Proofs.CommandLine.Changes
import CallNotation.Proofs.CommandLine.Status
import CallNotation.Proofs.CommandLine.Agreement
import CallNotation.Proofs.Node.Preorder
import CallNotation.Proofs.Node.Visits
import CallNotation.Proofs.Node.Rewriting
import CallNotation.Proofs.Node.Image
import CallNotation.Proofs.Expr.Derivation
import CallNotation.Proofs.Expr.Counting
import CallNotation.Proofs.CommandLine.Verbose
import CallNotation.Proofs.Node.Outline
import CallNotation.Proofs.Node.Recording
import CallNotation.Proofs.Node.Rendering
import CallNotation.Proofs.Expr.Outline
import CallNotation.Proofs.CommandLine.Dump
