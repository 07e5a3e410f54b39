import Formulary.Parser
import Formulary.Proofs.Procedures

/-!
Reading with a cursor. All procedures of the reader share one cursor into a list of tokens that ends
with the end of input. They look at tokens at and behind the cursor, move it, and call one another;
each loop is a procedure that calls itself. Reading a token that the list does not have, and moving
past the end of input, are faults. The trees that are read are left out: the answer of a call is
where the cursor stands afterwards. What the cursor does is tied step by step to the steps of
reading on lists of tokens, which say how much is read or why reading fails.
-/

namespace Formulary.Parser

/-- Reads tokens that are one expression. -/
def wholeExpr (finish : Position) (ts : List Token) : Except ParseError Expr := do
  let ⟨(e, rest), _⟩ ← expr finish 0 ts
  if rest.isEmpty then return e else failAt finish .afterExpression rest

/-- Reads tokens that are one type. -/
def wholeType (finish : Position) (ts : List Token) : Except ParseError TypeExpr := do
  let ⟨(t, rest), _⟩ ← typeExpr finish ts
  if rest.isEmpty then return t else failAt finish .afterType rest

theorem parse_expr_eq (source : String) :
    Expr.parse source = inputOf source >>= fun input => wholeExpr input.2 input.1 := rfl

theorem parse_type_eq (source : String) :
    TypeExpr.parse source = inputOf source >>= fun input => wholeType input.2 input.1 := rfl

theorem parse_declarations_eq (source : String) :
    Declaration.parseAll source = inputOf source >>= fun input => declarations input.2 input.1 :=
  rfl

/-- The lists in parentheses. -/
inductive Listing where
  | typeParams
  | structureParams
  | definitionParams
  | bodyParams
  | fields
  | implementationArgs
  | typeArgs
  | args
  | subpatterns

/-- What a message says about the end of a list. -/
def Listing.context : Listing → String
  | .typeParams => "to close type parameters"
  | .structureParams => "to close structure parameters"
  | .definitionParams | .bodyParams => "to close parameters"
  | .fields => "to close variant fields"
  | .implementationArgs | .typeArgs => "to close type arguments"
  | .args => "to close arguments"
  | .subpatterns => "to close constructor pattern"

/-- The recursive procedures of the reader, its loops, and the three ways to start it. -/
inductive Routine where
  | operand
  | typeAtom
  | pattern
  | expr (bound : Nat)
  | typeExpr
  /-- The loop over the items of a list. -/
  | items (list : Listing)
  /-- The loop over the operators of a chain. -/
  | operators (bound : Nat)
  /-- The loop over the cases of a match. -/
  | cases
  /-- The loop over the names of a group of a quantifier. -/
  | names
  /-- The loop over the groups of a quantifier. -/
  | quantifiers
  /-- The loop over the variants of a data type. -/
  | variants
  /-- The loop over the members of a structure. -/
  | members (structureName : String)
  /-- The loop over the bodies of an implementation. -/
  | bodies (structureName : String)
  /-- The loop over the declarations of a source. -/
  | declarations
  | wholeExpr
  | wholeType

/-- Which procedure or loop it is. Where no token is read in between, one is called only from those
that come later. -/
def Routine.number : Routine → Nat
  | .operand => 0
  | .typeAtom => 1
  | .pattern => 2
  | .expr _ => 3
  | .typeExpr => 4
  | .items _ => 5
  | .operators _ => 6
  | .cases => 7
  | .names => 8
  | .quantifiers => 9
  | .variants => 10
  | .members _ => 11
  | .bodies _ => 12
  | .declarations => 13
  | .wholeExpr => 14
  | .wholeType => 15

/-- A procedure called, or a round of a loop begun, with the cursor at a token. -/
structure Visit where
  routine : Routine
  index : Nat

/-- Where the cursor stands afterwards, or why reading fails. -/
abbrev Reply := Except ParseError Nat

/-- What is done with the cursor. -/
abbrev Reader (α : Type) := StateT Nat (ExceptT ParseError (CallTree Visit Reply)) α

namespace Reader

section

variable (toks : List Token)

/-- The token some places behind the cursor. -/
def peekAhead (n : Nat) : Reader Token := fun i =>
  match toks[i + n]? with
  | some t => .done (.ok (t, i))
  | none => .fault

def peek : Reader Token := peekAhead toks 0

/-- The token before the cursor. -/
def prev : Reader Token := fun i =>
  match i with
  | 0 => .fault
  | i + 1 =>
    match toks[i]? with
    | some t => .done (.ok (t, i + 1))
    | none => .fault

/-- Moves the cursor to the next token. -/
def advance : Reader Unit := fun i =>
  if i + 1 < toks.length then .done (.ok ((), i + 1)) else .fault

/-- Moves past a token of a kind, if one is there. -/
def accept (kind : Token.Kind) : Reader Bool := do
  if (← peek toks).kind = .endOfInput then return false
  else if (← peek toks).kind = kind then
    advance toks
    return true
  else return false

/-- Fails at the token at the cursor. -/
def failHere {α : Type} (cause : ParseError.Found → ParseError.Cause) : Reader α := do
  let t ← peek toks
  throw ⟨t.position, cause (if t.kind = .endOfInput then .endOfInput else .token t)⟩

/-- Moves past a token of a kind, which must be there. -/
def need (kind : Token.Kind) (context : String) : Reader Token := do
  if ← accept toks kind then prev toks
  else failHere toks (.expected kind context)

/-- Calls a procedure, or goes on with a loop. -/
def call (routine : Routine) : Reader Unit := fun i =>
  .call ⟨routine, i⟩ fun
    | .ok j => .done (.ok ((), j))
    | .error e => .done (.error e)

/-- A list behind its opening parenthesis. -/
def commaList (list : Listing) : Reader Unit := do
  if ← accept toks .rightParen then return ()
  else call (.items list)

/-- A list in parentheses, if there is one. Tells whether there is. -/
def optionalParens (list : Listing) : Reader Bool := do
  if ← accept toks .leftParen then
    commaList toks list
    return true
  else return false

def annotated : Reader Unit := do
  if ← accept toks .colon then call .typeExpr

def binder (context : String) : Reader Unit := do
  let _ ← need toks .identifier context
  annotated toks

/-- A name is a label only if a colon follows it. -/
def field : Reader Unit := do
  if (← peek toks).kind = .identifier then
    if (← peekAhead toks 1).kind = .colon then
      advance toks
      advance toks
      call .typeExpr
    else call .typeExpr
  else call .typeExpr

/-- One item of a list. -/
def item : Listing → Reader Unit
  | .typeParams => binder toks "in type parameters"
  | .structureParams => binder toks "in structure parameters"
  | .definitionParams => binder toks "in parameters"
  | .bodyParams => do
    let _ ← need toks .identifier "in parameters"
    return ()
  | .fields => field toks
  | .implementationArgs | .typeArgs => call .typeExpr
  | .args => call (.expr 0)
  | .subpatterns => call .pattern

def items (list : Listing) : Reader Unit := do
  item toks list
  if ← accept toks .comma then call (.items list)
  else
    let _ ← need toks .rightParen list.context
    return ()

/-- A name and, if there are any, the arguments behind it. -/
def application (list : Listing) : Reader Unit := do
  advance toks
  if ← accept toks .leftParen then commaList toks list

def typeAtom : Reader Unit := do
  let t ← peek toks
  match t.kind with
  | .identifier => application toks .typeArgs
  | .number =>
    advance toks
    match natural? t.lexeme with
    | some _ => return ()
    | none => throw ⟨t.position, .notNatural t.lexeme⟩
  | .string => advance toks
  | .leftParen =>
    advance toks
    call .typeExpr
    let _ ← need toks .rightParen "to close type"
    return ()
  | _ => failHere toks .expectedType

def typeExpr : Reader Unit := do
  call .typeAtom
  if ← accept toks .arrow then call .typeExpr

def pattern : Reader Unit := do
  match (← peek toks).kind with
  | .underscore => advance toks
  | .number | .string => advance toks
  | .minus =>
    advance toks
    let _ ← need toks .number "after '-' in pattern"
    return ()
  | .identifier => application toks .subpatterns
  | _ => failHere toks .expectedPattern

def negation : Reader Unit := do
  advance toks
  if (← peek toks).kind = .number then
    if (← peekAhead toks 1).kind = .power then call (.expr negationStrength)
    else
      advance toks
      let _ ← prev toks
      return ()
  else call (.expr negationStrength)

def matching : Reader Unit := do
  advance toks
  call (.expr 0)
  let _ ← need toks .leftBrace "to open match cases"
  let _ ← accept toks .bar
  call .cases

def operand : Reader Unit := do
  match (← peek toks).kind with
  | .number | .string => advance toks
  | .minus => negation toks
  | .identifier => application toks .args
  | .leftParen =>
    advance toks
    call (.expr 0)
    let _ ← need toks .rightParen "to close parenthesized expression"
    return ()
  | .matchWord => matching toks
  | _ => failHere toks .expectedExpression

def expr (bound : Nat) : Reader Unit := do
  call .operand
  call (.operators bound)

def operators (bound : Nat) : Reader Unit := do
  match binaryOperator? (← peek toks).kind with
  | none => return ()
  | some op =>
    if op.strength ≤ bound then return ()
    else
      advance toks
      call (.expr op.bound)
      call (.operators bound)

def cases : Reader Unit := do
  if ← accept toks .rightBrace then return ()
  else
    call .pattern
    let _ ← need toks .fatArrow "after pattern"
    call (.expr 0)
    if ← accept toks .bar then call .cases
    else if ← accept toks .semicolon then call .cases
    else if (← peek toks).kind = .rightBrace then call .cases
    else failHere toks .expectedCaseEnd

def variant : Reader Unit := do
  let _ ← need toks .identifier "for variant name"
  let _ ← optionalParens toks .fields
  return ()

def variants : Reader Unit := do
  variant toks
  if ← accept toks .bar then call .variants

def dataType : Reader Unit := do
  advance toks
  let _ ← need toks .identifier "after 'data'"
  let _ ← optionalParens toks .typeParams
  let _ ← need toks .equals "after data type head"
  let _ ← accept toks .bar
  call .variants

def names : Reader Unit := do
  if (← peek toks).kind = .identifier then
    advance toks
    let _ ← accept toks .comma
    call .names

def quantifiers : Reader Unit := do
  if ← accept toks .leftParen then
    let first ← get
    call .names
    -- no name was read
    if (← get) = first then failHere toks .expectedQuantified
    else
      let _ ← need toks .colon "after quantified variables"
      call .typeExpr
      let _ ← need toks .rightParen "to close quantifier"
      call .quantifiers
  else
    let _ ← need toks .period "after quantifier"
    return ()

def operationMember : Reader Unit := do
  advance toks
  let _ ← need toks .identifier "for operation name"
  let _ ← need toks .colon "after operation name"
  call .typeExpr

def lawMember : Reader Unit := do
  advance toks
  let _ ← need toks .identifier "for axiom name"
  let _ ← need toks .colon "after axiom name"
  if ← accept toks .forallWord then
    call .quantifiers
    call (.expr 0)
  else call (.expr 0)

def members (structureName : String) : Reader Unit := do
  if ← accept toks .rightBrace then return ()
  else if ← accept toks .semicolon then call (.members structureName)
  else
    match (← peek toks).kind with
    | .operationWord | .elementWord =>
      operationMember toks
      call (.members structureName)
    | .axiomWord =>
      lawMember toks
      call (.members structureName)
    | _ => failHere toks (.expectedMember structureName)

def interface : Reader Unit := do
  advance toks
  let name ← need toks .identifier "after 'structure'"
  let _ ← optionalParens toks .structureParams
  let _ ← need toks .leftBrace "to open structure body"
  call (.members name.lexeme)

/-- Whether a body that is a name ends before a token. -/
def endsBody (kind : Token.Kind) : Bool :=
  kind ∈ [.semicolon, .rightBrace, .operationWord, .elementWord, .endOfInput]

def operationBody : Reader Unit := do
  advance toks
  let _ ← need toks .identifier "for operation name"
  let hasParams ← optionalParens toks .bodyParams
  let _ ← need toks .equals "before operation body"
  if hasParams then call (.expr 0)
  else if (← peek toks).kind = .identifier then
    if endsBody (← peekAhead toks 1).kind then advance toks else call (.expr 0)
  else call (.expr 0)

def bodies (structureName : String) : Reader Unit := do
  if ← accept toks .rightBrace then return ()
  else if ← accept toks .semicolon then call (.bodies structureName)
  else
    match (← peek toks).kind with
    | .operationWord | .elementWord =>
      operationBody toks
      call (.bodies structureName)
    | _ => failHere toks (.expectedBody structureName)

def implementation : Reader Unit := do
  advance toks
  let name ← need toks .identifier "after 'implements'"
  let _ ← optionalParens toks .implementationArgs
  if ← accept toks .leftBrace then call (.bodies name.lexeme)

def definition : Reader Unit := do
  advance toks
  let _ ← need toks .identifier "after 'define'"
  let _ ← optionalParens toks .definitionParams
  annotated toks
  let _ ← need toks .equals "before define body"
  call (.expr 0)

def declaration : Reader Unit := do
  match (← peek toks).kind with
  | .dataWord => dataType toks
  | .structureWord => interface toks
  | .implementsWord => implementation toks
  | .defineWord => definition toks
  | _ => failHere toks .expectedDeclaration

def declarations : Reader Unit := do
  if (← peek toks).kind = .endOfInput then return ()
  else if ← accept toks .semicolon then call .declarations
  else
    declaration toks
    call .declarations

/-- What is read must reach to the end of input. -/
def toTheEnd (routine : Routine) (cause : ParseError.Found → ParseError.Cause) : Reader Unit := do
  call routine
  if (← peek toks).kind = .endOfInput then return ()
  else failHere toks cause

end

end Reader

/-- What a procedure or a round of a loop does. -/
def Routine.body (toks : List Token) : Routine → Reader Unit
  | .operand => Reader.operand toks
  | .typeAtom => Reader.typeAtom toks
  | .pattern => Reader.pattern toks
  | .expr bound => Reader.expr bound
  | .typeExpr => Reader.typeExpr toks
  | .items list => Reader.items toks list
  | .operators bound => Reader.operators toks bound
  | .cases => Reader.cases toks
  | .names => Reader.names toks
  | .quantifiers => Reader.quantifiers toks
  | .variants => Reader.variants toks
  | .members structureName => Reader.members toks structureName
  | .bodies structureName => Reader.bodies toks structureName
  | .declarations => Reader.declarations toks
  | .wholeExpr => Reader.toTheEnd toks (.expr 0) .afterExpression
  | .wholeType => Reader.toTheEnd toks .typeExpr .afterType

/-- The reader on a list of tokens. -/
def reader (toks : List Token) : Procedure Visit Reply := fun v => do
  match ← ((v.routine.body toks).run v.index).run with
  | .ok (_, j) => return .ok j
  | .error e => return .error e

end Formulary.Parser
