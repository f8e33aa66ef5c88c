import PixelJava.Command.Arguments
import PixelJava.Command.Run
import PixelJava.Command.Sandbox
import PixelJava.Command.World
import PixelJava.Fault
import PixelJava.Java.Layout
import PixelJava.Java.Library
import PixelJava.Java.Name
import PixelJava.Java.Operation
import PixelJava.Java.Printer
import PixelJava.Java.Syntax
import PixelJava.Json.Basic
import PixelJava.Json.Number
import PixelJava.Json.Parser
import PixelJava.Json.Printer
import PixelJava.Json.Record
import PixelJava.Json.Token
import PixelJava.Lowering.Basic
import PixelJava.Lowering.Expr
import PixelJava.Lowering.Program
import PixelJava.Lowering.Stmt
import PixelJava.Main
import PixelJava.Options.Basic
import PixelJava.Options.Codec
import PixelJava.Options.Toml
import PixelJava.Proofs.Command.Arguments
import PixelJava.Proofs.Command.Precedence
import PixelJava.Proofs.Command.Run
import PixelJava.Proofs.Java.Citation
import PixelJava.Proofs.Java.Code
import PixelJava.Proofs.Java.Declarator
import PixelJava.Proofs.Java.Header
import PixelJava.Proofs.Java.Identifier
import PixelJava.Proofs.Java.Indentation
import PixelJava.Proofs.Java.Literal
import PixelJava.Proofs.Java.Margin
import PixelJava.Proofs.Java.Nesting
import PixelJava.Proofs.Java.Occurrence
import PixelJava.Proofs.Java.Package
import PixelJava.Proofs.Java.Relayout
import PixelJava.Proofs.Java.Shape
import PixelJava.Proofs.Java.Sign
import PixelJava.Proofs.Java.Splice
import PixelJava.Proofs.Java.Visibility
import PixelJava.Proofs.Json.Record
import PixelJava.Proofs.Lowering.Emission
import PixelJava.Proofs.Lowering.Guards
import PixelJava.Proofs.Lowering.Imports
import PixelJava.Proofs.Lowering.InPlace
import PixelJava.Proofs.Lowering.Layout
import PixelJava.Proofs.Lowering.Mutation
import PixelJava.Proofs.Lowering.Negation
import PixelJava.Proofs.Lowering.Outcome
import PixelJava.Proofs.Lowering.Positions
import PixelJava.Proofs.Lowering.Pretty
import PixelJava.Proofs.Lowering.Reachable
import PixelJava.Proofs.Lowering.Reference
import PixelJava.Proofs.Lowering.Restoration
import PixelJava.Proofs.Lowering.Result
import PixelJava.Proofs.Lowering.Scoping
import PixelJava.Proofs.Lowering.Splicing
import PixelJava.Proofs.Lowering.Table
import PixelJava.Proofs.Lowering.Threshold
import PixelJava.Proofs.Lowering.Violation
import PixelJava.Proofs.Lowering.Wrapping
import PixelJava.Proofs.Scope.Coherence
import PixelJava.Proofs.Scope.Invariant
import PixelJava.Proofs.Scope.Name
import PixelJava.Proofs.Scope.Run
import PixelJava.Proofs.Text.Lines
import PixelJava.Proofs.Text.Scan
import PixelJava.Proofs.Toml.Pairs
import PixelJava.Proofs.Tree.Brackets
import PixelJava.Proofs.Tree.Form
import PixelJava.Proofs.Tree.Nodes
import PixelJava.Proofs.Tree.RoundTrip
import PixelJava.Proofs.Tree.Spelling
import PixelJava.Scope
import PixelJava.Scope.Encode
import PixelJava.Session
import PixelJava.Text.Lines
import PixelJava.Text.Printable
import PixelJava.Text.Quoted
import PixelJava.Text.Scan
import PixelJava.Toml.Number
import PixelJava.Toml.Parser
import PixelJava.Toml.Text
import PixelJava.Toml.Value
import PixelJava.Tree.Build
import PixelJava.Tree.Constant
import PixelJava.Tree.Decode
import PixelJava.Tree.Encode
import PixelJava.Tree.Expr
import PixelJava.Tree.Operator
import PixelJava.Tree.Read
import PixelJava.Tree.Span
import PixelJava.Tree.Stmt
import PixelJava.Tree.Ty
