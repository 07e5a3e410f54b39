import Formulary.Text.Quoted

namespace Formulary

/-- A place in a text. Lines and columns count from one, columns by characters. -/
structure Position where
  line : Nat
  column : Nat
deriving DecidableEq

namespace Position

def start : Position := ⟨1, 1⟩

/-- The place after a character. -/
def next (p : Position) (c : Char) : Position :=
  if c = '\n' then ⟨p.line + 1, 1⟩ else ⟨p.line, p.column + 1⟩

/-- The place after a piece of text. -/
def after (p : Position) (cs : List Char) : Position := cs.foldl next p

end Position

namespace Token

inductive Kind where
  | endOfInput
  | identifier
  | number
  | string
  | leftParen
  | rightParen
  | leftBrace
  | rightBrace
  | comma
  | colon
  | semicolon
  | period
  | bar
  | equals
  | arrow
  | fatArrow
  | underscore
  | plus
  | minus
  | times
  | divide
  | power
  | less
  | greater
  | doubleEquals
  | dataWord
  | structureWord
  | implementsWord
  | defineWord
  | operationWord
  | elementWord
  | axiomWord
  | matchWord
  | forallWord
deriving DecidableEq

/-- What a message calls a token of a kind. -/
def Kind.name : Kind → String
  | .endOfInput => "end of input"
  | .identifier => "identifier"
  | .number => "number"
  | .string => "string"
  | .leftParen => "'('"
  | .rightParen => "')'"
  | .leftBrace => "'\x7b'"
  | .rightBrace => "'\x7d'"
  | .comma => "','"
  | .colon => "':'"
  | .semicolon => "';'"
  | .period => "'.'"
  | .bar => "'|'"
  | .equals => "'='"
  | .arrow => "'→'"
  | .fatArrow => "'=>'"
  | .underscore => "'_'"
  | .plus => "'+'"
  | .minus => "'-'"
  | .times => "'*'"
  | .divide => "'/'"
  | .power => "'^'"
  | .less => "'<'"
  | .greater => "'>'"
  | .doubleEquals => "'=='"
  | .dataWord => "'data'"
  | .structureWord => "'structure'"
  | .implementsWord => "'implements'"
  | .defineWord => "'define'"
  | .operationWord => "'operation'"
  | .elementWord => "'element'"
  | .axiomWord => "'axiom'"
  | .matchWord => "'match'"
  | .forallWord => "'∀'"

/-- The words that are not names. -/
def keywords : List (String × Kind) :=
  [("data", .dataWord), ("structure", .structureWord), ("implements", .implementsWord),
    ("define", .defineWord), ("operation", .operationWord), ("element", .elementWord),
    ("axiom", .axiomWord), ("match", .matchWord), ("forall", .forallWord)]

/-- The kind of a word that starts like a name. -/
def wordKind (word : String) : Kind :=
  if word = "_" then .underscore else (keywords.lookup word).getD .identifier

end Token

structure Token where
  kind : Token.Kind
  lexeme : String
  position : Position
deriving DecidableEq

/-- What a message says about a token: names and literals are shown, other tokens are named. -/
def Token.describe (t : Token) : String :=
  match t.kind with
  | .identifier | .number | .string => Text.quote t.lexeme
  | kind => kind.name

end Formulary
