import Scriptlet.Assembly
import Scriptlet.Json.Printer
import Scriptlet.Json.Reader
import Scriptlet.Lowering.Program
import Scriptlet.Script.Program
import Scriptlet.Session
import Scriptlet.Text.Word
import Scriptlet.Wire.Node
import Scriptlet.Wire.Deserializer
import Scriptlet.Wire.Program
import Scriptlet.Wire.Record
import Scriptlet.Proofs.Tree.Address
import Scriptlet.Proofs.Tree.Selection
import Scriptlet.Proofs.Session.Itinerary
import Scriptlet.Proofs.Reading.Basic
import Scriptlet.Proofs.Reading.Follows
import Scriptlet.Proofs.Reading.Simulation
import Scriptlet.Proofs.Reading.Tokens
import Scriptlet.Proofs.Reading.Frame
import Scriptlet.Proofs.Reading.Program
import Scriptlet.Proofs.Reading.Faithful
import Scriptlet.Proofs.Parsed.Agreement
import Scriptlet.Proofs.Reading.Bare
import Scriptlet.Proofs.Text.Slice
import Scriptlet.Proofs.Reading.Derivation
import Scriptlet.Proofs.Layout.Draft
import Scriptlet.Proofs.Layout.Lowering
import Scriptlet.Proofs.Reading.Coupling
import Scriptlet.Proofs.Reading.Erasure
import Scriptlet.Proofs.Reading.Shift
import Scriptlet.Proofs.Reading.Surplus
import Scriptlet.Proofs.Reading.Log
import Scriptlet.Proofs.Parsed.Log
import Scriptlet.Proofs.Reading.Sight
import Scriptlet.Proofs.Expr.Equality
import Scriptlet.Proofs.Parsed.Finite
import Scriptlet.Proofs.Json.Members
import Scriptlet.Proofs.Wire.Node
import Scriptlet.Proofs.Wire.Program
import Scriptlet.Proofs.Parsed.Guidance
import Scriptlet.Proofs.Reading.Arity
import Scriptlet.Proofs.Reading.Fault
import Scriptlet.Proofs.Number.Finite
import Scriptlet.Proofs.Reading.Literal
import Scriptlet.Proofs.Tree.Round
import Scriptlet.Proofs.Text.Boundary
import Scriptlet.Proofs.Reading.Snippet
import Scriptlet.Proofs.Json.Reader
import Scriptlet.Proofs.Json.Printer
import Scriptlet.Proofs.Wire.Record
import Scriptlet.Proofs.Script.Lexer
import Scriptlet.Proofs.Script.Program
import Scriptlet.Proofs.Assembly
