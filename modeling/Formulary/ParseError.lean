import Formulary.Token

namespace Formulary

namespace ParseError

/-- What stands at the place where reading stopped: a token, or the end of the text. -/
inductive Found where
  | token (t : Token)
  | endOfInput

def Found.describe : Found → String
  | .token t => t.describe
  | .endOfInput => "end of input"

inductive Cause where
  | unterminatedComment
  | unterminatedString
  | invalidString (lexeme : String)
  | unexpectedCharacter (c : Char)
  | expected (kind : Token.Kind) (context : String) (found : Found)
  | expectedDeclaration (found : Found)
  | expectedMember (structureName : String) (found : Found)
  | expectedBody (structureName : String) (found : Found)
  | expectedQuantified (found : Found)
  | expectedType (found : Found)
  | expectedExpression (found : Found)
  | expectedPattern (found : Found)
  | expectedCaseEnd (found : Found)
  | notNatural (lexeme : String)
  | afterExpression (found : Found)
  | afterType (found : Found)

def Cause.message : Cause → String
  | .unterminatedComment => "unterminated block comment"
  | .unterminatedString => "unterminated string literal"
  | .invalidString lexeme => "invalid string literal " ++ lexeme
  | .unexpectedCharacter c => "unexpected character " ++ Text.quoteChar c
  | .expected kind context found =>
    "expected " ++ kind.name ++ " " ++ context ++ ", got " ++ found.describe
  | .expectedDeclaration found => "expected a declaration, got " ++ found.describe
  | .expectedMember name found =>
    "expected operation, element, or axiom in structure " ++ name ++ ", got " ++ found.describe
  | .expectedBody name found =>
    "expected operation or element in implements " ++ name ++ ", got " ++ found.describe
  | .expectedQuantified found => "expected quantified variable, got " ++ found.describe
  | .expectedType found => "expected a type, got " ++ found.describe
  | .expectedExpression found => "expected an expression, got " ++ found.describe
  | .expectedPattern found => "expected a pattern, got " ++ found.describe
  | .expectedCaseEnd found => "expected '|' or '\x7d' after match case, got " ++ found.describe
  | .notNatural lexeme => "dimension must be a natural number, got " ++ lexeme
  | .afterExpression found => "unexpected " ++ found.describe ++ " after expression"
  | .afterType found => "unexpected " ++ found.describe ++ " after type"

/-- What was found where reading stopped, if the cause names it. -/
def Cause.found? : Cause → Option Found
  | .unterminatedComment | .unterminatedString | .invalidString _ | .unexpectedCharacter _
  | .notNatural _ => none
  | .expected _ _ found | .expectedDeclaration found | .expectedMember _ found
  | .expectedBody _ found | .expectedQuantified found | .expectedType found
  | .expectedExpression found | .expectedPattern found | .expectedCaseEnd found
  | .afterExpression found | .afterType found => some found

/-- Whether more text could have mended the failure: the text ended inside a comment or where
something was still expected. A string never reaches over a line, so an open one is not mended. -/
def Cause.isIncomplete (cause : Cause) : Bool :=
  match cause, cause.found? with
  | .unterminatedComment, _ => true
  | _, some .endOfInput => true
  | _, _ => false

end ParseError

structure ParseError where
  position : Position
  cause : ParseError.Cause

namespace ParseError

def isIncomplete (e : ParseError) : Bool := e.cause.isIncomplete

def message (e : ParseError) : String :=
  toString e.position.line ++ ":" ++ toString e.position.column ++ ": " ++ e.cause.message

end ParseError

end Formulary
