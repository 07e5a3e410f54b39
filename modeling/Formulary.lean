import Formulary.Checker
import Formulary.CommandLine
import Formulary.CommandLine.Console
import Formulary.CommandLine.Flags
import Formulary.CommandLine.History
import Formulary.CommandLine.Session
import Formulary.Declaration
import Formulary.Declaration.Groups
import Formulary.Error
import Formulary.Evaluation
import Formulary.Expr
import Formulary.Expr.Substitution
import Formulary.Fault
import Formulary.Inference
import Formulary.Inference.Call
import Formulary.Inference.Construction
import Formulary.Inference.Context
import Formulary.Inference.Declaration
import Formulary.Main
import Formulary.ParseError
import Formulary.Parser
import Formulary.Parser.Declaration
import Formulary.Parser.Expr
import Formulary.Parser.Step
import Formulary.Parser.TypeExpr
import Formulary.Pattern
import Formulary.Pattern.Exhaustive
import Formulary.Pattern.Matching
import Formulary.Pattern.Typing
import Formulary.Registry
import Formulary.Registry.Data
import Formulary.Registry.Resolution
import Formulary.Registry.Store
import Formulary.Registry.Validation
import Formulary.Signature
import Formulary.SortedMap
import Formulary.StandardLibrary
import Formulary.Tag
import Formulary.Text.Blank
import Formulary.Text.Canonical
import Formulary.Text.CodePointSet
import Formulary.Text.CombiningClass
import Formulary.Text.Decomposition
import Formulary.Text.Hangul
import Formulary.Text.HiddenMarks
import Formulary.Text.Integer
import Formulary.Text.Letter
import Formulary.Text.Lines
import Formulary.Text.NameMark
import Formulary.Text.Printable
import Formulary.Text.Quoted
import Formulary.Text.Suggestion
import Formulary.Text.Utf8
import Formulary.Token
import Formulary.Token.Lexer
import Formulary.Ty
import Formulary.Ty.Printing
import Formulary.Ty.Scheme
import Formulary.Ty.Substitution
import Formulary.Ty.Unification
import Formulary.TypeEnv
import Formulary.TypeExpr
import Formulary.Proofs.Monotypes
import Formulary.Proofs.Unification
import Formulary.Proofs.Steps
import Formulary.Proofs.Scoping
import Formulary.Proofs.Wholeness
import Formulary.Proofs.Parsing
import Formulary.Proofs.Resolution
import Formulary.Proofs.Retyping
import Formulary.Proofs.Signatures
import Formulary.Proofs.Inferring
import Formulary.Proofs.Declaring
import Formulary.Proofs.Sessions
import Formulary.Proofs.Solutions
import Formulary.Proofs.Typing
import Formulary.Proofs.Variants
import Formulary.Proofs.Invariant
import Formulary.Proofs.Principality
import Formulary.Proofs.PrincipalTypes
import Formulary.Proofs.Loading
import Formulary.Proofs.Refining
import Formulary.Proofs.Usefulness
import Formulary.Proofs.Exhaustiveness
import Formulary.Proofs.Renaming
import Formulary.Proofs.Mirroring
import Formulary.Proofs.MirroredCalls
import Formulary.Proofs.MirroredInference
import Formulary.Proofs.Schemes
import Formulary.Proofs.History
import Formulary.Proofs.Conservativity
import Formulary.Proofs.Registering
import Formulary.Proofs.Reachability
import Formulary.Proofs.Coverage
import Formulary.Proofs.Missing
import Formulary.Proofs.Separation
import Formulary.Proofs.Grouping
import Formulary.Proofs.Splitting
import Formulary.Proofs.Calling
import Formulary.Proofs.Capture
import Formulary.Proofs.Completeness
import Formulary.Proofs.Readings
import Formulary.Proofs.Following
import Formulary.Proofs.Filling
import Formulary.Proofs.Defining
import Formulary.Proofs.Growing
import Formulary.Proofs.Steadiness
import Formulary.Proofs.Lexing
import Formulary.Proofs.Arity
import Formulary.Proofs.Printing
import Formulary.Proofs.Spelling
import Formulary.Proofs.FormedInference
import Formulary.Proofs.WellFormed
import Formulary.Proofs.Distinguishing
import Formulary.Proofs.Templates
import Formulary.Proofs.Unifiers
import Formulary.Proofs.Symmetry
import Formulary.Proofs.Unquoting
import Formulary.Proofs.TypePrinting
import Formulary.Proofs.Foresight
import Formulary.Proofs.Lines
import Formulary.Proofs.Options
import Formulary.Proofs.Preservation
import Formulary.Proofs.Alike
import Formulary.Proofs.Covering
import Formulary.Proofs.Redundancy
import Formulary.Proofs.Denotation
import Formulary.Proofs.Implementations
import Formulary.Proofs.Interpretation
import Formulary.Proofs.CallUnification
import Formulary.Proofs.ExactMatching
import Formulary.Proofs.PrincipalPatterns
import Formulary.Proofs.Nameless
import Formulary.Proofs.LocalNames
import Formulary.Proofs.Instances
import Formulary.Proofs.NormalForms
import Formulary.Proofs.Depth
import Formulary.Proofs.Dependencies
import Formulary.Proofs.Framing
import Formulary.Proofs.Parameters
import Formulary.Proofs.CallArity
import Formulary.Proofs.Layout
import Formulary.Proofs.Extending
import Formulary.Proofs.Chains
import Formulary.Proofs.Rearranging
import Formulary.Proofs.Counting
import Formulary.Proofs.Shapes
import Formulary.Proofs.EditDistance
import Formulary.Proofs.Suggestions
import Formulary.Proofs.Procedures
import Formulary.Proofs.Unifying
import Formulary.Proofs.Specializing
import Formulary.Proofs.Substituting
import Formulary.Proofs.Composition
import Formulary.Proofs.Generalization
import Formulary.Proofs.CanonicalPrinting
import Formulary.Proofs.Cursor
import Formulary.Proofs.Tracking
import Formulary.Proofs.Halting
import Formulary.Proofs.Building
import Formulary.Proofs.Entries
import Formulary.Proofs.Storing
