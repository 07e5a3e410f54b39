import Formulary.Declaration
import Formulary.Parser.Expr
import Formulary.Parser.TypeExpr

namespace Formulary.Parser

/-- Reads a list in parentheses, if the next token opens one. -/
def optionalParens {α : Type} (finish : Position) (context : String) (ts : List Token)
    (item : (us : List Token) → Step α us) : OptionalStep (Option (List α)) ts := do
  let ⟨(opened, rest), hopened⟩ := skip .leftParen ts
  if opened then
    let ⟨(items, rest'), hitems⟩ ← commaList finish .rightParen context rest fun us _ => item us
    .ok ⟨(some items, rest'), Nat.le_trans (Nat.le_of_lt hitems) hopened⟩
  else
    .ok ⟨(none, rest), hopened⟩

/-- Reads a name. -/
def identifier (finish : Position) (context : String) (ts : List Token) : Step String ts := do
  let ⟨(t, rest), h⟩ ← need finish .identifier context ts
  .ok ⟨(t.lexeme, rest), h⟩

/-- Reads a type behind a colon, if there is a colon. -/
def colonType (finish : Position) (ts : List Token) : OptionalStep (Option TypeExpr) ts := do
  let ⟨(colon, rest), hcolon⟩ := skip .colon ts
  if colon then
    let ⟨(t, rest'), ht⟩ ← typeExpr finish rest
    .ok ⟨(some t, rest'), Nat.le_trans (Nat.le_of_lt ht) hcolon⟩
  else
    .ok ⟨(none, rest), hcolon⟩

def binder (finish : Position) (context : String) (ts : List Token) : Step Binder ts := do
  let ⟨(name, rest), hname⟩ ← identifier finish context ts
  let ⟨(type, rest'), htype⟩ ← colonType finish rest
  .ok ⟨(⟨name, type⟩, rest'), by grind⟩

def positionalField (finish : Position) (ts : List Token) : Step Field ts := do
  let ⟨(t, rest), h⟩ ← typeExpr finish ts
  .ok ⟨(⟨none, t⟩, rest), h⟩

/-- Reads a field. A name is a label only if a colon follows it. -/
def field (finish : Position) (ts : List Token) : Step Field ts :=
  match ts with
  | label :: colon :: rest =>
    if label.kind = .identifier ∧ colon.kind = .colon then do
      let ⟨(t, rest'), h⟩ ← typeExpr finish rest
      .ok ⟨(⟨some label.lexeme, t⟩, rest'), by simp only [List.length_cons] at *; omega⟩
    else positionalField finish (label :: colon :: rest)
  | ts => positionalField finish ts

def variant (finish : Position) (ts : List Token) : Step Variant ts := do
  let ⟨(name, rest), hname⟩ ← identifier finish "for variant name" ts
  let ⟨(fields, rest'), hfields⟩ ←
    optionalParens finish "to close variant fields" rest (field finish)
  .ok ⟨(⟨name, fields.getD []⟩, rest'), by grind⟩

/-- Reads variants with bars between them. -/
def variants (finish : Position) (ts : List Token) : Step (List Variant) ts := do
  let ⟨(v, rest), hv⟩ ← variant finish ts
  let ⟨(bar, rest'), hbar⟩ := skip .bar rest
  if bar then
    let ⟨(vs, rest''), hvs⟩ ← variants finish rest'
    .ok ⟨(v :: vs, rest''), by grind⟩
  else
    .ok ⟨([v], rest'), by grind⟩
termination_by ts.length
decreasing_by grind

/-- Reads a data type behind its keyword. Its parameters are always types, so a kind written behind
one is read and dropped. -/
def dataType (finish : Position) (ts : List Token) : Step DataType ts := do
  let ⟨(name, rest₁), hname⟩ ← identifier finish "after 'data'" ts
  let ⟨(params, rest₂), hparams⟩ ←
    optionalParens finish "to close type parameters" rest₁ (binder finish "in type parameters")
  let ⟨(_, rest₃), hequals⟩ ← need finish .equals "after data type head" rest₂
  let ⟨(_, rest₄), hbar⟩ := skip .bar rest₃
  let ⟨(vs, rest₅), hvs⟩ ← variants finish rest₄
  .ok ⟨(⟨name, (params.getD []).map (·.name), vs⟩, rest₅), by grind⟩

/-- Reads the names of a quantifier. Commas between them are optional. -/
def quantifiedNames (ts : List Token) : { r : List String × List Token // r.2.length ≤ ts.length } :=
  match ts with
  | [] => ⟨([], []), by simp⟩
  | t :: rest =>
    if t.kind = .identifier then
      let ⟨(_, rest'), hcomma⟩ := skip .comma rest
      let ⟨(names, rest''), hnames⟩ := quantifiedNames rest'
      ⟨(t.lexeme :: names, rest''), Nat.le_succ_of_le (Nat.le_trans hnames hcomma)⟩
    else ⟨([], t :: rest), by simp⟩
termination_by ts.length
decreasing_by grind

/-- Reads the groups of a quantifier up to the period behind them. -/
def quantifiers (finish : Position) (ts : List Token) : Step (List Binder) ts := do
  let ⟨(opened, rest₁), hopened⟩ := skip .leftParen ts
  if opened then
    let ⟨(names, rest₂), hnames⟩ := quantifiedNames rest₁
    if names.isEmpty then failAt finish .expectedQuantified rest₂
    else
      let ⟨(_, rest₃), hcolon⟩ ← need finish .colon "after quantified variables" rest₂
      let ⟨(t, rest₄), ht⟩ ← typeExpr finish rest₃
      let ⟨(_, rest₅), hclose⟩ ← need finish .rightParen "to close quantifier" rest₄
      let ⟨(binders, rest₆), hbinders⟩ ← quantifiers finish rest₅
      .ok ⟨(names.map (⟨·, some t⟩) ++ binders, rest₆), by grind⟩
  else
    let ⟨(_, rest₂), hperiod⟩ ← need finish .period "after quantifier" rest₁
    .ok ⟨([], rest₂), by grind⟩
termination_by ts.length
decreasing_by grind

/-- A member of a structure. -/
inductive Member where
  | operation (o : Operation)
  | law (a : Axiom)

def Member.operation? : Member → Option Operation
  | .operation o => some o
  | .law _ => none

def Member.law? : Member → Option Axiom
  | .operation _ => none
  | .law a => some a

/-- Reads an operation behind its keyword. -/
def operationMember (finish : Position) (isElement : Bool) (ts : List Token) :
    Step Member ts := do
  let ⟨(name, rest₁), hname⟩ ← identifier finish "for operation name" ts
  let ⟨(_, rest₂), hcolon⟩ ← need finish .colon "after operation name" rest₁
  let ⟨(signature, rest₃), hsignature⟩ ← typeExpr finish rest₂
  .ok ⟨(.operation ⟨name, signature, isElement⟩, rest₃), by grind⟩

/-- Reads an axiom behind its keyword. -/
def lawMember (finish : Position) (ts : List Token) : Step Member ts := do
  let ⟨(name, rest₁), hname⟩ ← identifier finish "for axiom name" ts
  let ⟨(_, rest₂), hcolon⟩ ← need finish .colon "after axiom name" rest₁
  let ⟨(quantified, rest₃), hquantified⟩ := skip .forallWord rest₂
  if quantified then
    let ⟨(vars, rest₄), hvars⟩ ← quantifiers finish rest₃
    let ⟨(body, rest₅), hbody⟩ ← expr finish 0 rest₄
    .ok ⟨(.law ⟨name, vars, body⟩, rest₅),
      Nat.lt_trans hbody (Nat.lt_trans hvars (Nat.lt_of_le_of_lt hquantified
        (Nat.lt_trans hcolon hname)))⟩
  else
    let ⟨(body, rest₄), hbody⟩ ← expr finish 0 rest₃
    .ok ⟨(.law ⟨name, [], body⟩, rest₄),
      Nat.lt_trans hbody (Nat.lt_of_le_of_lt hquantified (Nat.lt_trans hcolon hname))⟩

/-- Reads the members of a structure up to and with its closing brace. -/
def members (finish : Position) (structureName : String) (ts : List Token) :
    Step (List Member) ts :=
  match ts with
  | [] => failAt finish (.expectedMember structureName) []
  | t :: rest =>
    match t.kind with
    | .rightBrace => .ok ⟨([], rest), by simp⟩
    | .semicolon => do
      let ⟨(ms, rest'), hms⟩ ← members finish structureName rest
      .ok ⟨(ms, rest'), by grind⟩
    | .operationWord => do
      let ⟨(m, rest'), hm⟩ ← operationMember finish false rest
      let ⟨(ms, rest''), hms⟩ ← members finish structureName rest'
      .ok ⟨(m :: ms, rest''), by grind⟩
    | .elementWord => do
      let ⟨(m, rest'), hm⟩ ← operationMember finish true rest
      let ⟨(ms, rest''), hms⟩ ← members finish structureName rest'
      .ok ⟨(m :: ms, rest''), by grind⟩
    | .axiomWord => do
      let ⟨(m, rest'), hm⟩ ← lawMember finish rest
      let ⟨(ms, rest''), hms⟩ ← members finish structureName rest'
      .ok ⟨(m :: ms, rest''), by grind⟩
    | _ => failAt finish (.expectedMember structureName) (t :: rest)
termination_by ts.length
decreasing_by all_goals grind

/-- Reads a structure behind its keyword. -/
def interface (finish : Position) (ts : List Token) : Step Structure ts := do
  let ⟨(name, rest₁), hname⟩ ← identifier finish "after 'structure'" ts
  let ⟨(params, rest₂), hparams⟩ ←
    optionalParens finish "to close structure parameters" rest₁
      (binder finish "in structure parameters")
  let ⟨(_, rest₃), hopen⟩ ← need finish .leftBrace "to open structure body" rest₂
  let ⟨(ms, rest₄), hms⟩ ← members finish name rest₃
  .ok ⟨(⟨name, params.getD [], ms.filterMap Member.operation?, ms.filterMap Member.law?⟩, rest₄),
    by grind⟩

/-- Whether the tokens start with a name that is a whole body. Such a name stands for something
built in. -/
def startsWithBuiltin : List Token → Bool
  | t :: u :: _ =>
    t.kind = .identifier && u.kind ∈ [.semicolon, .rightBrace, .operationWord, .elementWord]
  | [t] => t.kind = .identifier
  | [] => false

/-- Reads the body of an operation behind its keyword. -/
def operationBody (finish : Position) (ts : List Token) : Step OperationBody ts := do
  let ⟨(name, rest₁), hname⟩ ← identifier finish "for operation name" ts
  let ⟨(params, rest₂), hparams⟩ ←
    optionalParens finish "to close parameters" rest₁ (identifier finish "in parameters")
  let ⟨(_, rest₃), hequals⟩ ← need finish .equals "before operation body" rest₂
  if params.isNone && startsWithBuiltin rest₃ then
    let ⟨(builtin, rest₄), hbuiltin⟩ ← identifier finish "for operation name" rest₃
    .ok ⟨(⟨name, [], some builtin, none⟩, rest₄), by grind⟩
  else
    let ⟨(body, rest₄), hbody⟩ ← expr finish 0 rest₃
    .ok ⟨(⟨name, params.getD [], none, some body⟩, rest₄), by grind⟩

/-- Reads the bodies of an implementation up to and with its closing brace. -/
def operationBodies (finish : Position) (structureName : String) (ts : List Token) :
    Step (List OperationBody) ts :=
  match ts with
  | [] => failAt finish (.expectedBody structureName) []
  | t :: rest =>
    match t.kind with
    | .rightBrace => .ok ⟨([], rest), by simp⟩
    | .semicolon => do
      let ⟨(bodies, rest'), hbodies⟩ ← operationBodies finish structureName rest
      .ok ⟨(bodies, rest'), by grind⟩
    | .operationWord | .elementWord => do
      let ⟨(body, rest'), hbody⟩ ← operationBody finish rest
      let ⟨(bodies, rest''), hbodies⟩ ← operationBodies finish structureName rest'
      .ok ⟨(body :: bodies, rest''), by grind⟩
    | _ => failAt finish (.expectedBody structureName) (t :: rest)
termination_by ts.length
decreasing_by all_goals grind

/-- Reads an implementation behind its keyword. The block of bodies may be missing. -/
def implementation (finish : Position) (ts : List Token) : Step Implementation ts := do
  let ⟨(name, rest₁), hname⟩ ← identifier finish "after 'implements'" ts
  let ⟨(args, rest₂), hargs⟩ ←
    optionalParens finish "to close type arguments" rest₁ (typeExpr finish)
  let ⟨(opened, rest₃), hopened⟩ := skip .leftBrace rest₂
  if opened then
    let ⟨(bodies, rest₄), hbodies⟩ ← operationBodies finish name rest₃
    .ok ⟨(⟨name, args.getD [], bodies⟩, rest₄), by grind⟩
  else
    .ok ⟨(⟨name, args.getD [], []⟩, rest₃), by grind⟩

/-- Reads a definition behind its keyword. -/
def definition (finish : Position) (ts : List Token) : Step Definition ts := do
  let ⟨(name, rest₁), hname⟩ ← identifier finish "after 'define'" ts
  let ⟨(params, rest₂), hparams⟩ ←
    optionalParens finish "to close parameters" rest₁ (binder finish "in parameters")
  let ⟨(result, rest₃), hresult⟩ ← colonType finish rest₂
  let ⟨(_, rest₄), hequals⟩ ← need finish .equals "before define body" rest₃
  let ⟨(body, rest₅), hbody⟩ ← expr finish 0 rest₄
  .ok ⟨(⟨name, params.getD [], result, body⟩, rest₅), by grind⟩

def declaration (finish : Position) (ts : List Token) : Step Declaration ts :=
  match ts with
  | [] => failAt finish .expectedDeclaration []
  | t :: rest =>
    match t.kind with
    | .dataWord => do
      let ⟨(d, rest'), h⟩ ← dataType finish rest
      .ok ⟨(.data d, rest'), by grind⟩
    | .structureWord => do
      let ⟨(s, rest'), h⟩ ← interface finish rest
      .ok ⟨(.interface s, rest'), by grind⟩
    | .implementsWord => do
      let ⟨(i, rest'), h⟩ ← implementation finish rest
      .ok ⟨(.implementation i, rest'), by grind⟩
    | .defineWord => do
      let ⟨(d, rest'), h⟩ ← definition finish rest
      .ok ⟨(.definition d, rest'), by grind⟩
    | _ => failAt finish .expectedDeclaration (t :: rest)

/-- Reads declarations up to the end of input. Semicolons between them are dropped. -/
def declarations (finish : Position) (ts : List Token) : Except ParseError (List Declaration) :=
  match ts with
  | [] => .ok []
  | t :: rest =>
    if t.kind = .semicolon then declarations finish rest
    else do
      let ⟨(d, rest'), _⟩ ← declaration finish (t :: rest)
      return d :: (← declarations finish rest')
termination_by ts.length
decreasing_by all_goals grind

end Formulary.Parser
