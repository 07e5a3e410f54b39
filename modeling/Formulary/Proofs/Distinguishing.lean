import Formulary.Proofs.Lexing
import Formulary.Proofs.Renaming
import Formulary.Proofs.Unquoting

namespace Formulary

/-- Whether a text may be a name: a letter or underscore, and characters that go on with it. -/
def Text.isNameText (s : String) : Bool :=
  match s.toList with
  | [] => false
  | c :: cs => Token.isNameStart c && cs.all Token.isNamePart

namespace Text

theorem append_inj_of_all {p : Char → Bool} {cs ds tail tail' : List Char}
    (hcs : ∀ c ∈ cs, p c = true) (hds : ∀ c ∈ ds, p c = true)
    (htail : ∀ c ∈ tail.head?, p c = false) (htail' : ∀ c ∈ tail'.head?, p c = false)
    (h : cs ++ tail = ds ++ tail') : cs = ds ∧ tail = tail' := by
  obtain ⟨htake, hdrop⟩ := Token.span_append_of_all tail hcs htail
  obtain ⟨htake', hdrop'⟩ := Token.span_append_of_all tail' hds htail'
  rw [h] at htake hdrop
  exact ⟨htake.symm.trans htake', hdrop.symm.trans hdrop'⟩

theorem isNameText_iff {s : String} : isNameText s = true ↔
    ∃ c cs, s.toList = c :: cs ∧ Token.isNameStart c = true ∧ ∀ d ∈ cs, Token.isNamePart d = true := by
  unfold isNameText
  cases s.toList with
  | nil => simp
  | cons c cs => simp [List.all_eq_true]

theorem isNamePart_of_isNameStart {c : Char} (h : Token.isNameStart c = true) :
    Token.isNamePart c = true := by
  simp only [Token.isNameStart, Token.isNamePart, Bool.or_eq_true] at h ⊢
  grind

theorem isNamePart_of_isNameText {s : String} (h : isNameText s = true) :
    ∀ c ∈ s.toList, Token.isNamePart c = true := by
  obtain ⟨c, cs, htext, hstart, hparts⟩ := isNameText_iff.1 h
  rw [htext]
  exact List.forall_mem_cons.2 ⟨isNamePart_of_isNameStart hstart, hparts⟩

/-- The characters of a number. -/
def isNumeral (c : Char) : Bool := Token.isDigit c || c = '-'

theorem isDigit_of_mem_repr {n : Nat} {c : Char} (h : c ∈ n.repr.toList) : Token.isDigit c = true := by
  rw [Nat.repr_eq_ofList_toDigits, String.toList_ofList] at h
  have hdigit := Nat.isDigit_of_mem_toDigits (by decide) (by decide) h
  simp only [Char.isDigit, Bool.and_eq_true, decide_eq_true_eq] at hdigit
  simp only [Token.isDigit, Bool.and_eq_true, decide_eq_true_eq]
  exact hdigit

theorem isNumeral_of_mem_toString {n : Int} {c : Char} (h : c ∈ (toString n).toList) :
    isNumeral c = true := by
  rw [Int.toString_eq_repr, Int.repr_eq_if] at h
  unfold isNumeral
  split at h
  · rw [isDigit_of_mem_repr h]
    rfl
  · rw [String.toList_append, List.mem_append] at h
    rcases h with h | h
    · simp_all
    · rw [isDigit_of_mem_repr h]
      rfl

theorem repr_ne_nil (n : Nat) : n.repr.toList ≠ [] := by
  rw [Nat.repr_eq_ofList_toDigits, String.toList_ofList]
  exact Nat.toDigits_ne_nil

theorem isNamePart_of_isDigit {c : Char} (h : Token.isDigit c = true) : Token.isNamePart c = true := by
  have hall : ∀ i : Fin 10, Token.isNamePart (Char.ofNat ('0'.toNat + i)) = true := by decide
  simp only [Token.isDigit, Bool.and_eq_true, decide_eq_true_eq] at h
  have hlow : '0'.toNat ≤ c.toNat := h.1
  have hhigh : c.toNat ≤ '9'.toNat := h.2
  have hdigits : '9'.toNat = '0'.toNat + 9 := rfl
  have hc := hall ⟨c.toNat - '0'.toNat, by omega⟩
  rwa [Nat.add_sub_cancel' hlow, Char.ofNat_toNat] at hc

end Text

namespace Ty

/-- How often the letters have been used up before a variable, unless they have not been. -/
def rounds (n : Nat) : List Char := if n < 26 then [] else (n / 26).repr.toList

theorem toList_varName (n : Nat) :
    (varName n).toList = '\'' :: Char.ofNat ('a'.toNat + n % 26) :: rounds n := by
  unfold varName rounds
  split
  · simp
  · simp

theorem isNamePart_of_mem_varName {n : Nat} {c : Char} (h : c ∈ (varName n).toList) :
    Token.isNamePart c = true := by
  have hletters : ∀ i : Fin 26, Token.isNamePart (Char.ofNat ('a'.toNat + i)) = true := by decide
  rw [toList_varName, List.mem_cons, List.mem_cons] at h
  rcases h with rfl | rfl | h
  · decide
  · exact hletters ⟨n % 26, Nat.mod_lt _ (by decide)⟩
  · unfold rounds at h
    split at h
    · cases h
    · exact Text.isNamePart_of_isDigit (Text.isDigit_of_mem_repr h)

theorem varName_injective : Function.Injective varName := by
  intro m n h
  have hletters : ∀ i j : Fin 26, Char.ofNat ('a'.toNat + i) = Char.ofNat ('a'.toNat + j) → i = j := by
    decide
  have hchars := congrArg String.toList h
  rw [toList_varName, toList_varName, List.cons.injEq, List.cons.injEq] at hchars
  obtain ⟨-, hletter, hrounds⟩ := hchars
  have hmod : m % 26 = n % 26 := Fin.mk.inj (hletters ⟨m % 26, Nat.mod_lt _ (by decide)⟩
    ⟨n % 26, Nat.mod_lt _ (by decide)⟩ hletter)
  unfold rounds at hrounds
  split at hrounds
  · split at hrounds
    · omega
    · exact absurd hrounds.symm (Text.repr_ne_nil _)
  · split at hrounds
    · exact absurd hrounds (Text.repr_ne_nil _)
    · have hdiv := Nat.repr_inj.1 (String.toList_inj.1 hrounds)
      omega

/-- What a name in a printed type stands for: a primitive kind, or an instance of a data type. -/
inductive Node where
  | prim (kind : PrimKind)
  | data (name constructor : String)

/-- How it is printed. -/
def Node.text : Node → String
  | .prim kind => kind.name
  | .data name constructor => if name = metaName then constructor else name

mutual

/-- A type that binds no variable and whose names stand, with their numbers of arguments, for things of
some kind. Its variables have numbers of some kind. -/
def Spelled (N : Node → Nat → Prop) (V : Int → Prop) : Ty → Prop
  | .blank | .poly _ _ => False
  | .nat _ | .tag _ => True
  | .var id => V id
  | .prim kind => N (.prim kind) 0
  | .data name constructor args => N (.data name constructor) args.length ∧ SpelledList N V args
  | .fn a b => a.Spelled N V ∧ b.Spelled N V

def SpelledList (N : Node → Nat → Prop) (V : Int → Prop) : List Ty → Prop
  | [] => True
  | t :: ts => t.Spelled N V ∧ SpelledList N V ts

end

/-- Names and numbers of arguments tell what they stand for. -/
structure Telling (N : Node → Nat → Prop) : Prop where
  isNameText : ∀ {node n}, N node n → Text.isNameText node.text = true
  unique : ∀ {node node' n}, N node n → N node' n → node.text = node'.text → node = node'

/-- What a text begins with. -/
inductive Lead where
  | name
  | number
  | literal
  | variable
  | parenthesis
deriving DecidableEq

def Lead.of (c : Char) : Lead :=
  if c = '(' then .parenthesis
  else if c = '"' then .literal
  else if c = '\'' then .variable
  else if Text.isNumeral c then .number
  else .name

/-- What the text of a type begins with. -/
def lead : Ty → Lead
  | .nat _ => .number
  | .tag _ => .literal
  | .var _ => .variable
  | .fn _ _ => .parenthesis
  | .blank | .prim _ | .data _ _ _ | .poly _ _ => .name

theorem Lead.of_isNameStart {c : Char} (h : Token.isNameStart c = true) : Lead.of c = .name := by
  have hne : ∀ d, Token.isNameStart d = false → c ≠ d := by
    rintro d hd rfl
    rw [h] at hd
    cases hd
  have hdigit : Token.isDigit c = false := by
    by_contra hdigit
    rw [Token.isNameStart_of_isDigit (Bool.not_eq_false _ ▸ hdigit)] at h
    cases h
  rw [of, if_neg (hne _ (by decide)), if_neg (hne _ (by decide)), if_neg (hne _ (by decide)),
    if_neg]
  simp [Text.isNumeral, hdigit, hne '-' (by decide)]

theorem Lead.of_isNumeral {c : Char} (h : Text.isNumeral c = true) : Lead.of c = .number := by
  have hne : ∀ d, Text.isNumeral d = false → c ≠ d := by
    rintro d hd rfl
    rw [h] at hd
    cases hd
  rw [of, if_neg (hne _ (by decide)), if_neg (hne _ (by decide)), if_neg (hne _ (by decide)),
    if_pos h]

/-- Variables named by their numbers. -/
def indexName (id : Int) : String := varName id.toNat

/-- The name that stands for a type that is neither a function nor a variable nor a literal, and its
arguments. -/
def form? : Ty → Option (Node × List Ty)
  | .prim kind => some (.prim kind, [])
  | .data name constructor args => some (.data name constructor, args)
  | .blank | .nat _ | .tag _ | .var _ | .fn _ _ | .poly _ _ => none

/-- The type that a name with arguments stands for. -/
def Node.fill : Node → List Ty → Ty
  | .prim kind, _ => .prim kind
  | .data name constructor, args => .data name constructor args

/-- Arguments in parentheses, unless there are none. -/
def argsText : List Ty → List Char
  | [] => []
  | t :: ts => '(' :: ((t.renderWith indexName .alone).toList ++ (renderRest indexName ts).toList) ++ [')']

section

variable {N : Node → Nat → Prop} {V : Int → Prop} {t u : Ty} {node : Node} {args : List Ty}

theorem eq_of_form? (ht : t.form? = some (node, args)) (hu : u.form? = some (node, args)) : t = u := by
  have hfill : ∀ {t : Ty}, t.form? = some (node, args) → t = node.fill args := by
    intro t h
    cases t with
    | prim | data =>
        cases h
        rfl
    | blank | nat | tag | var | fn | poly => cases h
  rw [hfill ht, hfill hu]

theorem toList_of_form? (h : t.form? = some (node, args)) :
    (t.renderWith indexName .domain).toList = node.text.toList ++ argsText args := by
  match t with
  | .prim kind =>
      cases h
      simp [renderWith, Place.plain, Node.text, argsText]
  | .data name constructor [] =>
      cases h
      simp [renderWith, Place.plain, Node.text, argsText]
  | .data name constructor (t :: ts) =>
      cases h
      simp [renderWith, Place.plain, Node.text, argsText]

theorem spelled_of_form? (ht : t.Spelled N V) (h : t.form? = some (node, args)) :
    N node args.length ∧ SpelledList N V args := by
  cases t with
  | prim kind =>
      cases h
      exact ⟨ht, trivial⟩
  | data name constructor args =>
      cases h
      exact ht
  | blank | nat | tag | var | fn | poly => cases h

theorem toList_arrow (a b : Ty) (tail : List Char) :
    ((Ty.fn a b).renderWith indexName .alone).toList ++ tail =
      (a.renderWith indexName .domain).toList ++
        (' ' :: '→' :: ' ' :: ((b.renderWith indexName .alone).toList ++ tail)) := by
  simp [renderWith, Place.arrow]

theorem toList_domain_arrow (a b : Ty) (tail : List Char) :
    ((Ty.fn a b).renderWith indexName .domain).toList ++ tail =
      '(' :: (((Ty.fn a b).renderWith indexName .alone).toList ++ ')' :: tail) := by
  simp [renderWith, Place.arrow]

theorem exists_lead (hN : Telling N) (ht : t.Spelled N V) :
    ∃ c cs, (t.renderWith indexName .domain).toList = c :: cs ∧ Lead.of c = t.lead := by
  have hform : ∀ {node args}, t.form? = some (node, args) →
      ∃ c cs, (t.renderWith indexName .domain).toList = c :: cs ∧ Lead.of c = .name := by
    intro node args h
    obtain ⟨c, cs, htext, hstart, -⟩ :=
      Text.isNameText_iff.1 (hN.isNameText (spelled_of_form? ht h).1)
    exact ⟨c, cs ++ argsText args, by rw [toList_of_form? h, htext]; rfl, Lead.of_isNameStart hstart⟩
  cases t with
  | blank | poly => exact ht.elim
  | prim | data => exact hform rfl
  | nat value =>
      have hne : (toString value).toList ≠ [] := by
        rw [Int.toString_eq_repr, Int.repr_eq_if]
        split
        · exact Text.repr_ne_nil _
        · simp
      obtain ⟨c, cs, heq⟩ := List.exists_cons_of_ne_nil hne
      refine ⟨c, cs, heq, Lead.of_isNumeral (Text.isNumeral_of_mem_toString (n := value) ?_)⟩
      rw [heq]
      exact List.mem_cons_self
  | tag value =>
      refine ⟨'"', (Text.units value).flatMap Text.escapeUnit ++ ['"'], ?_, rfl⟩
      simp [renderWith, Place.plain, Tag.literal, Text.quoteBytes]
  | var id => exact ⟨'\'', _, toList_varName _, rfl⟩
  | fn a b =>
      have htext := toList_domain_arrow a b []
      rw [List.append_nil] at htext
      exact ⟨'(', _, htext, rfl⟩

theorem lead_eq_of_append (hN : Telling N) (ht : t.Spelled N V) (hu : u.Spelled N V)
    {tail tail' : List Char} (h : (t.renderWith indexName .domain).toList ++ tail =
      (u.renderWith indexName .domain).toList ++ tail') : t.lead = u.lead := by
  obtain ⟨c, cs, htext, hlead⟩ := exists_lead hN ht
  obtain ⟨d, ds, htext', hlead'⟩ := exists_lead hN hu
  rw [htext, htext'] at h
  rw [← hlead, ← hlead', (List.cons.inj h).1]

/-- A text that is empty or starts with one of some characters. -/
def Follows (separators : List Char) (tail : List Char) : Prop := ∀ c ∈ tail.head?, c ∈ separators

theorem follows_cons {separators tail : List Char} {c : Char} :
    Follows separators (c :: tail) ↔ c ∈ separators := by
  simp [Follows]

theorem Follows.not_part {tail : List Char} (h : Follows [')', ',', ' '] tail) :
    ∀ c ∈ tail.head?, Token.isNamePart c = false ∧ Text.isNumeral c = false ∧ c ≠ '(' := by
  intro c hc
  have hc := h c hc
  have hseparator : Token.isSeparator c = true := by
    simp only [List.mem_cons, List.not_mem_nil, or_false] at hc
    simp only [Token.isSeparator, Bool.or_eq_true, decide_eq_true_eq]
    grind
  refine ⟨(Token.not_part_of_isSeparator hseparator).1, ?_, ?_⟩
  · simp only [Text.isNumeral, (Token.not_part_of_isSeparator hseparator).2.1, Bool.false_or,
      decide_eq_false_iff_not]
    rintro rfl
    simp at hc
  · rintro rfl
    simp at hc

theorem Follows.widen {tail : List Char} (h : Follows [')', ','] tail) :
    Follows [')', ',', ' '] tail := fun c hc => List.mem_append_left [' '] (h c hc)

/-- In front of an arrow, the text of a type tells the type and where it ends. -/
def TellsDomain (N : Node → Nat → Prop) (V : Int → Prop) (t : Ty) : Prop :=
  ∀ (u : Ty) (tail tail' : List Char), u.Spelled N V → Follows [')', ',', ' '] tail →
    Follows [')', ',', ' '] tail' →
    (t.renderWith indexName .domain).toList ++ tail =
      (u.renderWith indexName .domain).toList ++ tail' → t = u ∧ tail = tail'

/-- Elsewhere too, as long as no arrow follows. -/
def TellsAlone (N : Node → Nat → Prop) (V : Int → Prop) (t : Ty) : Prop :=
  ∀ (u : Ty) (tail tail' : List Char), u.Spelled N V → Follows [')', ','] tail →
    Follows [')', ','] tail' →
    (t.renderWith indexName .alone).toList ++ tail =
      (u.renderWith indexName .alone).toList ++ tail' → t = u ∧ tail = tail'

/-- A list of arguments tells its elements and where it ends. -/
def TellsRest (N : Node → Nat → Prop) (V : Int → Prop) (ts : List Ty) : Prop :=
  ∀ (us : List Ty) (tail tail' : List Char), SpelledList N V us →
    (renderRest indexName ts).toList ++ ')' :: tail =
      (renderRest indexName us).toList ++ ')' :: tail' → ts = us ∧ tail = tail'

theorem renderWith_alone_of_ne_fn (ht : t.Spelled N V) (hfn : t.lead ≠ .parenthesis) :
    t.renderWith indexName .alone = t.renderWith indexName .domain := by
  match t with
  | .blank => exact ht.elim
  | .poly _ _ => exact ht.elim
  | .fn _ _ => exact absurd rfl hfn
  | .prim _ => rfl
  | .nat _ => rfl
  | .tag _ => rfl
  | .var _ => rfl
  | .data _ _ [] => rfl
  | .data _ _ (_ :: _) => rfl

theorem form?_of_lead (ht : t.Spelled N V) (h : t.lead = .name) :
    ∃ node args, t.form? = some (node, args) := by
  cases t with
  | prim kind => exact ⟨_, _, rfl⟩
  | data name constructor args => exact ⟨_, _, rfl⟩
  | blank | poly => exact ht.elim
  | nat | tag | var | fn => cases h

theorem tellsDomain_of_form? (hN : Telling N) (ht : t.Spelled N V)
    (h : t.form? = some (node, args)) (hlead : t.lead = .name)
    (hargs : ∀ {others tail tail'}, SpelledList N V others → Follows [')', ',', ' '] tail →
      Follows [')', ',', ' '] tail' → argsText args ++ tail = argsText others ++ tail' →
        args = others ∧ tail = tail') : TellsDomain N V t := by
  intro u tail tail' hu htail htail' heq
  obtain ⟨node', others, h'⟩ := form?_of_lead hu (lead_eq_of_append hN ht hu heq ▸ hlead)
  obtain ⟨hnode, -⟩ := spelled_of_form? ht h
  obtain ⟨hnode', hothers⟩ := spelled_of_form? hu h'
  rw [toList_of_form? h, toList_of_form? h', List.append_assoc, List.append_assoc] at heq
  have hbehind : ∀ (args : List Ty) {tail : List Char}, Follows [')', ',', ' '] tail →
      ∀ c ∈ (argsText args ++ tail).head?, Token.isNamePart c = false := by
    intro args tail htail c hc
    cases args with
    | nil => exact (htail.not_part c hc).1
    | cons =>
        obtain rfl : '(' = c := Option.some.inj hc
        exact (Token.not_part_of_isSeparator (by decide)).1
  obtain ⟨htext, hrest⟩ := Text.append_inj_of_all (Text.isNamePart_of_isNameText (hN.isNameText hnode))
    (Text.isNamePart_of_isNameText (hN.isNameText hnode')) (hbehind args htail)
    (hbehind others htail') heq
  obtain ⟨rfl, htails⟩ := hargs hothers htail htail' hrest
  obtain rfl := hN.unique hnode hnode' (String.toList_inj.1 htext)
  exact ⟨eq_of_form? h h', htails⟩

theorem TellsDomain.alone (ht : t.Spelled N V) (hfn : t.lead ≠ .parenthesis)
    (h : TellsDomain N V t) : TellsAlone N V t := by
  intro u tail tail' hu htail htail' heq
  rw [renderWith_alone_of_ne_fn ht hfn] at heq
  cases u with
  | fn a b =>
      rw [toList_arrow] at heq
      obtain ⟨-, rfl⟩ := h _ _ _ hu.1 htail.widen (follows_cons.2 (by decide)) heq
      exact absurd (follows_cons.1 htail) (by decide)
  | blank | poly => exact hu.elim
  | prim | nat | tag | var | data =>
      rw [renderWith_alone_of_ne_fn hu (by simp [lead])] at heq
      exact h _ _ _ hu htail.widen htail'.widen heq

theorem TellsDomain.arrow {a b : Ty} (ha : TellsDomain N V a) (hb : TellsAlone N V b) :
    TellsAlone N V (.fn a b) := by
  intro u tail tail' hu htail htail' heq
  rw [toList_arrow] at heq
  cases u with
  | fn a' b' =>
      rw [toList_arrow] at heq
      obtain ⟨rfl, hrest⟩ := ha _ _ _ hu.1 (follows_cons.2 (by decide)) (follows_cons.2 (by decide)) heq
      simp only [List.cons.injEq, true_and] at hrest
      obtain ⟨rfl, htails⟩ := hb _ _ _ hu.2 htail htail' hrest
      exact ⟨rfl, htails⟩
  | blank | poly => exact hu.elim
  | prim | nat | tag | var | data =>
      rw [renderWith_alone_of_ne_fn hu (by simp [lead])] at heq
      obtain ⟨-, rfl⟩ := ha _ _ _ hu (follows_cons.2 (by decide)) htail'.widen heq
      exact absurd (follows_cons.1 htail') (by decide)

theorem TellsAlone.domain_arrow {a b : Ty} (hN : Telling N) (ht : (Ty.fn a b).Spelled N V)
    (h : TellsAlone N V (.fn a b)) : TellsDomain N V (.fn a b) := by
  intro u tail tail' hu htail htail' heq
  have hlead := lead_eq_of_append hN ht hu heq
  cases u with
  | fn a' b' =>
      rw [toList_domain_arrow, toList_domain_arrow] at heq
      obtain ⟨hfn, hrest⟩ := h _ _ _ hu (follows_cons.2 (by decide)) (follows_cons.2 (by decide))
        (List.cons.inj heq).2
      exact ⟨hfn, (List.cons.inj hrest).2⟩
  | blank | poly => exact hu.elim
  | prim | nat | tag | var | data => cases hlead

theorem tellsDomain_of_lead (hN : Telling N) (ht : t.Spelled N V)
    (h : ∀ {u tail tail'}, u.Spelled N V → t.lead = u.lead → Follows [')', ',', ' '] tail →
      Follows [')', ',', ' '] tail' → (t.renderWith indexName .domain).toList ++ tail =
        (u.renderWith indexName .domain).toList ++ tail' → t = u ∧ tail = tail') :
    TellsDomain N V t := fun _ _ _ hu htail htail' heq =>
  h hu (lead_eq_of_append hN ht hu heq) htail htail' heq

theorem tellsDomain_nat (hN : Telling N) (value : Int) : TellsDomain N V (.nat value) := by
  refine tellsDomain_of_lead hN (by trivial) fun {u} tail tail' hu hlead htail htail' heq => ?_
  cases u with
  | nat value' =>
      obtain ⟨hdigits, htails⟩ := Text.append_inj_of_all (p := Text.isNumeral)
        (fun _ => Text.isNumeral_of_mem_toString) (fun _ => Text.isNumeral_of_mem_toString)
        (fun c hc => (htail.not_part c hc).2.1) (fun c hc => (htail'.not_part c hc).2.1) heq
      rw [String.toList_inj, Int.toString_eq_repr, Int.toString_eq_repr, Int.repr_inj] at hdigits
      exact ⟨congrArg _ hdigits, htails⟩
  | blank | poly => exact hu.elim
  | prim | tag | var | data | fn => cases hlead

theorem tellsDomain_tag (hN : Telling N) (value : Tag) : TellsDomain N V (.tag value) := by
  refine tellsDomain_of_lead hN (by trivial) fun {u} tail tail' hu hlead _ _ heq => ?_
  cases u with
  | tag value' =>
      obtain ⟨rfl, htails⟩ := Token.quoteBytes_append_inj heq
      exact ⟨rfl, htails⟩
  | blank | poly => exact hu.elim
  | prim | nat | var | data | fn => cases hlead

theorem tellsDomain_var (hN : Telling N) (hV : ∀ x, V x → 0 ≤ x) {id : Int} (hid : V id) :
    TellsDomain N V (.var id) := by
  refine tellsDomain_of_lead hN (by exact hid) fun {u} tail tail' hu hlead htail htail' heq => ?_
  cases u with
  | var id' =>
      obtain ⟨hname, htails⟩ := Text.append_inj_of_all (p := Token.isNamePart)
        (fun _ => isNamePart_of_mem_varName) (fun _ => isNamePart_of_mem_varName)
        (fun c hc => (htail.not_part c hc).1) (fun c hc => (htail'.not_part c hc).1) heq
      have hindex := varName_injective (String.toList_inj.1 hname)
      have hpos := hV id hid
      have hpos' := hV id' hu
      exact ⟨congrArg _ (by omega), htails⟩
  | blank | poly => exact hu.elim
  | prim | nat | tag | data | fn => cases hlead

theorem tellsArgs_nil {others : List Ty} {tail tail' : List Char} (_ : SpelledList N V others)
    (htail : Follows [')', ',', ' '] tail) (_ : Follows [')', ',', ' '] tail')
    (h : argsText [] ++ tail = argsText others ++ tail') : [] = others ∧ tail = tail' := by
  cases others with
  | nil => exact ⟨rfl, h⟩
  | cons u us =>
      obtain rfl : tail = _ := h
      exact absurd rfl (htail.not_part '(' rfl).2.2

theorem follows_renderRest (ts : List Ty) (tail : List Char) :
    Follows [')', ','] ((renderRest indexName ts).toList ++ ')' :: tail) := by
  cases ts with
  | nil => exact follows_cons.2 (by decide)
  | cons t ts =>
      simp only [renderRest, String.toList_append, List.append_assoc]
      exact follows_cons.2 (by decide)

theorem tellsArgs_cons {t : Ty} {ts : List Ty} (ht : TellsAlone N V t) (hts : TellsRest N V ts)
    {others : List Ty} {tail tail' : List Char} (hothers : SpelledList N V others)
    (_ : Follows [')', ',', ' '] tail) (htail' : Follows [')', ',', ' '] tail')
    (h : argsText (t :: ts) ++ tail = argsText others ++ tail') : t :: ts = others ∧ tail = tail' := by
  cases others with
  | nil =>
      obtain rfl : _ = tail' := h
      exact absurd rfl (htail'.not_part '(' rfl).2.2
  | cons u us =>
      simp only [argsText, List.cons_append, List.append_assoc, List.cons.injEq, true_and,
        List.nil_append] at h
      obtain ⟨rfl, hrest⟩ := ht _ _ _ hothers.1 (follows_renderRest ts tail)
        (follows_renderRest us tail') h
      obtain ⟨rfl, htails⟩ := hts _ _ _ hothers.2 hrest
      exact ⟨rfl, htails⟩

theorem tellsRest_nil : TellsRest N V [] := by
  intro us tail tail' _ h
  cases us with
  | nil => exact ⟨rfl, (List.cons.inj h).2⟩
  | cons u us =>
      simp only [renderRest, String.toList_append, List.append_assoc] at h
      exact absurd (List.cons.inj h).1 (by decide)

theorem tellsRest_cons {t : Ty} {ts : List Ty} (ht : TellsAlone N V t) (hts : TellsRest N V ts) :
    TellsRest N V (t :: ts) := by
  intro us tail tail' hus h
  cases us with
  | nil =>
      simp only [renderRest, String.toList_append, List.append_assoc] at h
      exact absurd (List.cons.inj h).1 (by decide)
  | cons u us =>
      simp only [renderRest, String.toList_append, List.append_assoc, List.append_cancel_left_eq] at h
      obtain ⟨rfl, hrest⟩ := ht _ _ _ hus.1 (follows_renderRest ts tail) (follows_renderRest us tail') h
      obtain ⟨rfl, htails⟩ := hts _ _ _ hus.2 hrest
      exact ⟨rfl, htails⟩

mutual

theorem tells (hN : Telling N) (hV : ∀ x, V x → 0 ≤ x) (t : Ty) (ht : t.Spelled N V) :
    TellsDomain N V t ∧ TellsAlone N V t := by
  have hplain : ∀ {t : Ty}, t.Spelled N V → t.lead ≠ .parenthesis → TellsDomain N V t →
      TellsDomain N V t ∧ TellsAlone N V t := fun ht hfn h => ⟨h, h.alone ht hfn⟩
  match t with
  | .blank => exact ht.elim
  | .poly _ _ => exact ht.elim
  | .nat value => exact hplain ht (by simp [lead]) (tellsDomain_nat hN value)
  | .tag value => exact hplain ht (by simp [lead]) (tellsDomain_tag hN value)
  | .var id => exact hplain ht (by simp [lead]) (tellsDomain_var hN hV ht)
  | .fn a b =>
      have halone := (tells hN hV a ht.1).1.arrow (tells hN hV b ht.2).2
      exact ⟨halone.domain_arrow hN ht, halone⟩
  | .prim kind =>
      refine hplain ht (by simp [lead]) (tellsDomain_of_form? hN ht rfl rfl ?_)
      exact tellsArgs_nil
  | .data name constructor [] =>
      refine hplain ht (by simp [lead]) (tellsDomain_of_form? hN ht rfl rfl ?_)
      exact tellsArgs_nil
  | .data name constructor (t :: ts) =>
      refine hplain ht (by simp [lead]) (tellsDomain_of_form? hN ht rfl rfl ?_)
      exact tellsArgs_cons (tells hN hV t ht.2.1).2 (tellsRest hN hV ts ht.2.2)

theorem tellsRest (hN : Telling N) (hV : ∀ x, V x → 0 ≤ x) (ts : List Ty) (hts : SpelledList N V ts) :
    TellsRest N V ts := by
  match ts with
  | [] => exact tellsRest_nil
  | t :: ts => exact tellsRest_cons (tells hN hV t hts.1).2 (tellsRest hN hV ts hts.2)

end

theorem tellsArgs (hN : Telling N) (hV : ∀ x, V x → 0 ≤ x) {ts us : List Ty}
    (hts : SpelledList N V ts) (hus : SpelledList N V us) (h : argsText ts = argsText us) :
    ts = us := by
  have hnil : Follows [')', ',', ' '] [] := fun c hc => by cases hc
  have h : argsText ts ++ [] = argsText us ++ [] := congrArg (· ++ []) h
  cases ts with
  | nil => exact (tellsArgs_nil hus hnil hnil h).1
  | cons t ts =>
      exact (tellsArgs_cons (tells hN hV t hts.1).2 (tellsRest hN hV ts hts.2) hus hnil hnil h).1

end

mutual

theorem rename_rename (f g : Int → Int) (t : Ty) :
    (t.rename f).rename g = t.rename fun x => g (f x) := by
  cases t with
  | blank | prim | nat | tag | var => rfl
  | data name constructor args => simp only [rename, renameList_renameList f g args]
  | fn a b => simp only [rename, rename_rename f g a, rename_rename f g b]
  | poly id body => simp only [rename, rename_rename f g body]

theorem renameList_renameList (f g : Int → Int) (ts : List Ty) :
    renameList g (renameList f ts) = renameList (fun x => g (f x)) ts := by
  cases ts with
  | nil => rfl
  | cons t ts => simp only [renameList, rename_rename f g t, renameList_renameList f g ts]

end

mutual

theorem rename_congr {f g : Int → Int} (t : Ty) (h : ∀ x ∈ t.mentions, f x = g x) :
    t.rename f = t.rename g := by
  cases t with
  | blank | prim | nat | tag => rfl
  | var id => exact congrArg _ (h id List.mem_cons_self)
  | data name constructor args => simp only [rename, renameList_congr args h]
  | fn a b =>
      rw [mentions, List.forall_mem_append] at h
      simp only [rename, rename_congr a h.1, rename_congr b h.2]
  | poly id body =>
      rw [mentions, List.forall_mem_cons] at h
      simp only [rename, h.1, rename_congr body h.2]

theorem renameList_congr {f g : Int → Int} (ts : List Ty) (h : ∀ x ∈ mentionsList ts, f x = g x) :
    renameList f ts = renameList g ts := by
  cases ts with
  | nil => rfl
  | cons t ts =>
      rw [mentionsList, List.forall_mem_append] at h
      simp only [renameList, rename_congr t h.1, renameList_congr ts h.2]

end

mutual

theorem spelled_rename {N : Node → Nat → Prop} {V : Int → Prop} {f : Int → Int}
    (hf : ∀ x, V (f x)) {W : Int → Prop} (t : Ty) (h : t.Spelled N W) : (t.rename f).Spelled N V := by
  cases t with
  | blank | poly => exact h.elim
  | nat | tag => trivial
  | prim => exact h
  | var id => exact hf id
  | data name constructor args =>
      refine ⟨?_, spelledList_rename hf args h.2⟩
      rw [renameList_eq_map, List.length_map]
      exact h.1
  | fn a b => exact ⟨spelled_rename hf a h.1, spelled_rename hf b h.2⟩

theorem spelledList_rename {N : Node → Nat → Prop} {V : Int → Prop} {f : Int → Int}
    (hf : ∀ x, V (f x)) {W : Int → Prop} (ts : List Ty) (h : SpelledList N W ts) :
    SpelledList N V (renameList f ts) := by
  cases ts with
  | nil => trivial
  | cons t ts => exact ⟨spelled_rename hf t h.1, spelledList_rename hf ts h.2⟩

end

/-- Variables numbered by first appearance. -/
def index (ids : List Int) (x : Int) : Int := (ids.eraseDups.idxOf x : Nat)

theorem length_le_of_map_index {ids ids' : List Int}
    (h : ids.map (index ids) = ids'.map (index ids')) :
    ids'.eraseDups.length ≤ ids.eraseDups.length := by
  by_contra hlt
  rw [Nat.not_le] at hlt
  -- the variable that comes next on the one side would be numbered beyond the other
  have hmem : ids'.eraseDups[ids.eraseDups.length] ∈ ids' :=
    List.mem_eraseDups.1 (List.getElem_mem hlt)
  have himage : index ids' ids'.eraseDups[ids.eraseDups.length] ∈ ids.map (index ids) :=
    h ▸ List.mem_map_of_mem hmem
  obtain ⟨x, hx, heq⟩ := List.mem_map.1 himage
  rw [index, index, (nodup_eraseDups ids').idxOf_getElem, Nat.cast_inj] at heq
  have hbound := List.idxOf_lt_length_of_mem (List.mem_eraseDups.2 hx)
  omega

theorem exists_perm_of_nodup {xs ys : List Int} (hxs : xs.Nodup) (hys : ys.Nodup)
    (hlength : xs.length = ys.length) : ∃ ρ : Equiv.Perm Int, xs.map ρ = ys := by
  obtain ⟨ρ, hρ⟩ := MulAction.isMultiplyPretransitive_iff.1
    (Equiv.Perm.isMultiplyPretransitive Int xs.length)
    ⟨xs.get, List.nodup_iff_injective_get.1 hxs⟩
    ⟨fun i => ys.get (i.cast hlength), fun i j h => by
      simpa using List.nodup_iff_injective_get.1 hys h⟩
  refine ⟨ρ, List.ext_getElem (by rw [List.length_map, hlength]) fun i hi hi' => ?_⟩
  rw [List.length_map] at hi
  have heq := DFunLike.congr_fun hρ ⟨i, hi⟩
  rw [List.getElem_map]
  exact heq

/-- The variable that is the first of a number to appear. -/
def atIndex (ids : List Int) (n : Int) : Int := ids.eraseDups.getD n.toNat 0

theorem atIndex_index {ids : List Int} {x : Int} (hx : x ∈ ids) : atIndex ids (index ids x) = x := by
  have hbound := List.idxOf_lt_length_of_mem (List.mem_eraseDups.2 hx)
  rw [atIndex, index, Int.toNat_natCast, List.getD_eq_getElem _ _ hbound, List.getElem_idxOf]

theorem exists_perm_of_index {t u : Ty}
    (h : t.rename (index t.mentions) = u.rename (index u.mentions)) :
    ∃ ρ : Equiv.Perm Int, t.rename ρ = u := by
  have hmentions := congrArg mentions h
  rw [mentions_rename, mentions_rename] at hmentions
  have hlength := (length_le_of_map_index hmentions.symm).antisymm (length_le_of_map_index hmentions)
  obtain ⟨ρ, hρ⟩ := exists_perm_of_nodup (nodup_eraseDups _) (nodup_eraseDups _) hlength
  have hmoved : ∀ x ∈ t.mentions, ρ x = atIndex u.mentions (index t.mentions x) := by
    intro x hx
    have hbound := List.idxOf_lt_length_of_mem (List.mem_eraseDups.2 hx)
    rw [atIndex, index, Int.toNat_natCast, ← hρ, List.getD_eq_getElem _ _ (by rwa [List.length_map]),
      List.getElem_map, List.getElem_idxOf]
  refine ⟨ρ, ?_⟩
  calc t.rename ρ = t.rename fun x => atIndex u.mentions (index t.mentions x) := rename_congr t hmoved
    _ = (u.rename (index u.mentions)).rename (atIndex u.mentions) := by rw [← h, rename_rename]
    _ = u.rename id := by rw [rename_rename, rename_congr u fun _ => atIndex_index]; rfl
    _ = u := rename_refl u

theorem render_eq_renderWith_index (t : Ty) :
    t.render = (t.rename (index t.mentions)).renderWith indexName .alone := by
  rw [renderWith_rename]
  rfl

theorem render_instanceOf_eq_iff {N : Node → Nat → Prop} (hN : Telling N) {W : Int → Prop}
    (name : String) {ts us : List Ty} (hts : SpelledList N W ts) (hus : SpelledList N W us) :
    (instanceOf name ts).render = (instanceOf name us).render ↔
      ∃ ρ : Equiv.Perm Int, renameList ρ ts = us := by
  constructor
  · intro h
    have hindex : ∀ ids x, 0 ≤ index ids x := fun ids x => Int.natCast_nonneg _
    have hargs : ∀ ts : List Ty, ((instanceOf name ts).renderWith indexName .alone).toList =
        name.toList ++ argsText ts := by
      intro ts
      cases ts with
      | nil => simp [instanceOf, renderWith, Place.plain, argsText]
      | cons t ts => simp [instanceOf, renderWith, Place.plain, argsText]
    have hchars := congrArg String.toList h
    rw [render_eq_renderWith_index, render_eq_renderWith_index, instanceOf, instanceOf, rename,
      rename] at hchars
    change ((instanceOf name _).renderWith indexName .alone).toList =
      ((instanceOf name _).renderWith indexName .alone).toList at hchars
    rw [hargs, hargs, List.append_cancel_left_eq] at hchars
    have hlists := tellsArgs hN (V := (0 ≤ ·)) (fun _ h => h) (spelledList_rename (hindex _) ts hts)
      (spelledList_rename (hindex _) us hus) hchars
    obtain ⟨ρ, hρ⟩ := exists_perm_of_index (t := instanceOf name ts) (u := instanceOf name us)
      (congrArg (instanceOf name) hlists)
    exact ⟨ρ, (Ty.data.inj hρ).2.2⟩
  · rintro ⟨ρ, rfl⟩
    exact (render_rename (ρ := ρ) (instanceOf name ts)).symm

end Ty

end Formulary
