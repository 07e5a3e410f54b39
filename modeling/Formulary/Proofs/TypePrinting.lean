import Formulary.Proofs.Distinguishing
import Formulary.Proofs.Printing
import Formulary.Proofs.Unquoting

namespace Formulary

open Token Text

namespace TypeExpr

mutual

/-- Whether a type is one that can be written down: names are names, and numbers are such as may be
written in a type. Tags are any bytes. -/
def isWellFormed : TypeExpr → Bool
  | .blank => false
  | .named name => isName name
  | .app name args => isName name && isWellFormedList args
  | .arrow domain codomain => domain.isWellFormed && codomain.isWellFormed
  | .nat value => 0 ≤ value && value ≤ Parser.largestNatural
  | .tag _ => true

def isWellFormedList : List TypeExpr → Bool
  | [] => true
  | t :: ts => t.isWellFormed && isWellFormedList ts

end

mutual

def words : TypeExpr → List Word
  | .blank => []
  | .named name => [(.identifier, name)]
  | .app name [] => [(.identifier, name)] ++ [(.leftParen, "("), (.rightParen, ")")]
  | .app name (t :: ts) =>
    [(.identifier, name)] ++ [(.leftParen, "(")] ++ t.words ++ wordsRest ts ++ [(.rightParen, ")")]
  | .arrow domain codomain =>
    (if domain.isArrow then [(.leftParen, "(")] ++ domain.words ++ [(.rightParen, ")")]
      else domain.words) ++ [(.arrow, "→")] ++ codomain.words
  | .nat value => [(.number, toString value)]
  | .tag value => [(.string, value.literal)]

def wordsRest : List TypeExpr → List Word
  | [] => []
  | t :: ts => [(.comma, ",")] ++ t.words ++ wordsRest ts

end

theorem wordsRest_eq (ts : List TypeExpr) :
    wordsRest ts = ts.flatMap fun t => (.comma, ",") :: t.words := by
  induction ts with
  | nil => rfl
  | cons t ts ih => rw [wordsRest, ih, List.flatMap_cons, List.singleton_append]

end TypeExpr

namespace Token

theorem scans_arrow (tail : List Char) : Scans tail " → ".toList [(.arrow, "→")] :=
  scans_before_blank " →" (by decide) <| scans_after_blank "→" (by decide)
    (scans_symbol '→' [] (by decide) (by decide) (fun _ => rfl) _)

theorem scans_parens (tail : List Char) :
    Scans tail "()".toList [(.leftParen, "("), (.rightParen, ")")] := by
  have hscans := (scans_leftParen (")".toList ++ tail)).append (scans_rightParen tail)
  exact hscans

theorem isLexeme_number_repr (n : Nat) : isLexeme .number n.repr = true := by
  have hdigits : ∀ c ∈ n.repr.toList, isDigit c = true := fun c => isDigit_of_mem_repr
  obtain ⟨c, cs, htext⟩ := List.exists_cons_of_ne_nil (repr_ne_nil n)
  rw [htext] at hdigits
  have hspan : spanNumber (c :: cs) = (c :: cs, []) := by
    have hnone : ∀ c ∈ ([] : List Char).head?, isDigit c = false ∧ c ≠ '.' := by simp
    simpa using spanNumber_whole hdigits hnone
  refine isLexeme_iff.2 ⟨c, cs, htext, ?_⟩
  rw [scanLexeme_of_isDigit _ (hdigits c (List.mem_cons_self ..)), hspan]

theorem isLexeme_string_quoteBytes (bytes : List UInt8) :
    isLexeme .string (quoteBytes bytes) = true := by
  obtain ⟨text, htext, hscan⟩ := scanLexeme_quoteBytes bytes
  exact isLexeme_iff.2 ⟨_, _, htext, hscan⟩

end Token

namespace TypeExpr

theorem exists_natCast_of_isWellFormed {value : Int} (h : (TypeExpr.nat value).isWellFormed = true) :
    ∃ n : Nat, value = n ∧ n ≤ Parser.largestNatural := by
  simp only [isWellFormed, Bool.and_eq_true, decide_eq_true_eq] at h
  exact ⟨value.toNat, by omega, by omega⟩

theorem isApart_renderRest (ts : List TypeExpr) : isApart (renderRest ts).toList = true := by
  cases ts with
  | nil => rfl
  | cons t ts =>
      rw [renderRest, String.toList_append, String.toList_append]
      rfl

mutual

theorem scans : (t : TypeExpr) → t.isWellFormed = true → {tail : List Char} →
    isApart tail = true → Scans tail t.render.toList t.words
  | .blank, h, _, _ => absurd h (by decide)
  | .named name, h, _, htail => scans_string h rfl htail
  | .app name [], h, tail, htail => by
      simp only [isWellFormed, isWellFormedList, Bool.and_true] at h
      simp only [render, words, String.toList_append]
      exact Scans.append (scans_string h rfl rfl) (scans_parens tail)
  | .app name (t :: ts), h, tail, htail => by
      simp only [isWellFormed, isWellFormedList, Bool.and_eq_true] at h
      obtain ⟨hname, ht, hts⟩ := h
      simp only [render, words, String.toList_append]
      refine Scans.append (Scans.append (Scans.append (Scans.append ?_ (scans_leftParen _)) ?_) ?_)
        (scans_rightParen _)
      · exact scans_string hname rfl rfl
      · exact t.scans ht (isApart_append (isApart_renderRest ts) rfl)
      · exact scansRest ts hts rfl
  | .arrow domain codomain, h, tail, htail => by
      simp only [isWellFormed, Bool.and_eq_true] at h
      simp only [render, words, String.toList_append]
      refine Scans.append (Scans.append ?_ (scans_arrow _)) (codomain.scans h.2 htail)
      split
      · simp only [String.toList_append]
        exact Scans.append (Scans.append (scans_leftParen _) (domain.scans h.1 rfl))
          (scans_rightParen _)
      · exact domain.scans h.1 rfl
  | .nat value, h, _, htail => by
      obtain ⟨n, rfl, -⟩ := exists_natCast_of_isWellFormed h
      exact scans_string (isLexeme_number_repr n) rfl htail
  | .tag value, _, _, htail => scans_string (isLexeme_string_quoteBytes value) rfl htail

theorem scansRest : (ts : List TypeExpr) → isWellFormedList ts = true → {tail : List Char} →
    isApart tail = true → Scans tail (renderRest ts).toList (wordsRest ts)
  | [], _, tail, _ => Scans.nil tail
  | t :: ts, h, tail, htail => by
      simp only [isWellFormedList, Bool.and_eq_true] at h
      simp only [renderRest, wordsRest, String.toList_append]
      refine Scans.append (Scans.append (scans_comma _) ?_) (scansRest ts h.2 htail)
      exact t.scans h.1 (isApart_append (isApart_renderRest ts) htail)

end

end TypeExpr

namespace Parser

theorem digitsValue?_decimal (cs : List Char) :
    digitsValue? 10 (fun c => some (c.toNat - '0'.toNat)) cs = some (Nat.ofDigitChars 10 cs 0) := by
  have hstep : (fun (value : Nat) (c : Char) =>
      (some (c.toNat - '0'.toNat)).map (value * 10 + ·)) =
      fun value c => pure (10 * value + (c.toNat - '0'.toNat)) := by
    funext value c
    rw [Option.map_some, Nat.mul_comm]
    rfl
  rw [digitsValue?, hstep, List.foldlM_pure, Nat.ofDigitChars]
  rfl

theorem natural?_repr {n : Nat} (h : n ≤ largestNatural) : natural? n.repr = some n := by
  have hdigits : ∀ c ∈ n.repr.toList, isDigit c = true := fun c => isDigit_of_mem_repr
  have hvalue : digitsValue? 10 (fun c => some (c.toNat - '0'.toNat)) n.repr.toList = some n := by
    rw [digitsValue?_decimal, Nat.repr_eq_ofList_toDigits, String.toList_ofList,
      Nat.ofDigitChars_ten_toDigits]
  rw [natural?, if_pos (List.all_eq_true.2 hdigits), hvalue, Option.filter_some, if_pos]
  exact decide_eq_true h

/-- Whether what is left of the tokens does not go on with a type that is no arrow. -/
def stopsAtom (ts : List Token) : Bool := ts.head?.all fun t => t.kind ≠ .leftParen

/-- Whether what is left of the tokens does not go on with a type. -/
def stopsType (ts : List Token) : Bool :=
  ts.head?.all fun t => t.kind ≠ .leftParen && t.kind ≠ .arrow

theorem stopsType_iff {ts : List Token} :
    stopsType ts = true ↔ stopsAtom ts = true ∧ ∀ t ∈ ts.head?, t.kind ≠ .arrow := by
  cases ts <;> simp [stopsType, stopsAtom]

theorem stopsType_of_list {t : Token} (rest : List Token)
    (h : t.kind = .comma ∨ t.kind = .rightParen) : stopsType (t :: rest) = true := by
  rcases h with h | h <;> simp [stopsType, h]

variable {finish : Position} {words domainWords codomainWords : List Word}
  {t domain codomain : TypeExpr}

theorem typeExpr_takes (h : TakesBefore stopsAtom (typeAtom finish) words t) :
    TakesBefore stopsType (typeExpr finish) words t := by
  intro us rest hus hrest
  obtain ⟨hatom, harrow⟩ := stopsType_iff.1 hrest
  obtain ⟨hlt, hread⟩ := h us rest hus hatom
  refine ⟨hlt, ?_⟩
  rw [typeExpr, hread, ok_bind]
  dsimp only
  rw [skip_of_ne harrow]
  rfl

theorem typeExpr_takes_arrow (hdomain : TakesBefore stopsAtom (typeAtom finish) domainWords domain)
    (hcodomain : TakesBefore stopsType (typeExpr finish) codomainWords codomain) :
    TakesBefore stopsType (typeExpr finish) (domainWords ++ [(.arrow, "→")] ++ codomainWords)
      (.arrow domain codomain) := by
  intro us rest hus hrest
  obtain ⟨front, codomainTokens, rfl, hfront, hcodomainTokens⟩ := List.map_eq_append_iff.1 hus
  obtain ⟨domainTokens, arrow, rfl, hdomainTokens, harrow⟩ := List.map_eq_append_iff.1 hfront
  obtain ⟨p, none, rfl, hnone⟩ := exists_of_map_word harrow
  obtain rfl := List.map_eq_nil_iff.1 hnone
  obtain ⟨hlt, hread⟩ := hdomain domainTokens (⟨.arrow, "→", p⟩ :: (codomainTokens ++ rest))
    hdomainTokens rfl
  obtain ⟨hlt', hread'⟩ := hcodomain codomainTokens rest hcodomainTokens hrest
  have hts : domainTokens ++ [⟨.arrow, "→", p⟩] ++ codomainTokens ++ rest =
      domainTokens ++ ⟨.arrow, "→", p⟩ :: (codomainTokens ++ rest) := by simp
  rw [hts]
  refine ⟨by simp only [List.length_append, List.length_cons]; omega, ?_⟩
  rw [typeExpr, hread, ok_bind]
  dsimp only
  rw [skip_mk]
  dsimp only
  rw [if_pos rfl, hread', ok_bind]

theorem typeAtom_takes_parens (h : TakesBefore stopsType (typeExpr finish) words t) :
    TakesBefore stopsAtom (typeAtom finish) ([(.leftParen, "(")] ++ words ++ [(.rightParen, ")")])
      t := by
  intro us rest hus _
  obtain ⟨front, close, rfl, hfront, hclose⟩ := List.map_eq_append_iff.1 hus
  obtain ⟨q, none, rfl, hnone⟩ := exists_of_map_word hclose
  obtain rfl := List.map_eq_nil_iff.1 hnone
  obtain ⟨p, inner, rfl, hinner⟩ := exists_of_map_word hfront
  obtain ⟨hlt, hread⟩ := h inner (⟨.rightParen, ")", q⟩ :: rest) hinner rfl
  have hts : ⟨.leftParen, "(", p⟩ :: inner ++ [⟨.rightParen, ")", q⟩] ++ rest =
      (⟨.leftParen, "(", p⟩ : Token) :: (inner ++ ⟨.rightParen, ")", q⟩ :: rest) := by simp
  rw [hts]
  refine ⟨by simp only [List.length_append, List.length_cons]; omega, ?_⟩
  rw [typeAtom.eq_def]
  dsimp only
  rw [hread, ok_bind]
  dsimp only
  rw [need_mk, ok_bind]

theorem typeAtom_takes_name (finish : Position) (name : String) :
    TakesBefore stopsAtom (typeAtom finish) [(.identifier, name)] (.named name) := by
  intro us rest hus hrest
  obtain ⟨p, us', rfl, hnil⟩ := exists_of_map_word hus
  obtain rfl := List.map_eq_nil_iff.1 hnil
  refine ⟨by simp, ?_⟩
  rw [typeAtom.eq_def]
  cases rest with
  | nil => rfl
  | cons u rest =>
      simp only [stopsAtom, List.head?_cons, Option.all_some, decide_eq_true_eq] at hrest
      exact if_neg hrest

theorem typeAtom_takes_nat (finish : Position) {n : Nat} (h : n ≤ largestNatural) :
    TakesBefore stopsAtom (typeAtom finish) [(.number, n.repr)] (.nat n) := by
  intro us rest hus _
  obtain ⟨p, us', rfl, hnil⟩ := exists_of_map_word hus
  obtain rfl := List.map_eq_nil_iff.1 hnil
  refine ⟨by simp, ?_⟩
  change typeAtom finish (⟨.number, n.repr, p⟩ :: rest) = _
  rw [typeAtom.eq_def]
  dsimp only
  rw [natural?_repr h]

theorem typeAtom_takes_tag (finish : Position) (value : Tag) :
    TakesBefore stopsAtom (typeAtom finish) [(.string, value.literal)] (.tag value) := by
  intro us rest hus _
  obtain ⟨p, us', rfl, hnil⟩ := exists_of_map_word hus
  obtain rfl := List.map_eq_nil_iff.1 hnil
  have hvalue : Tag.ofLiteral? value.literal = some value := unquote?_quoteBytes value
  refine ⟨by simp, ?_⟩
  change typeAtom finish (⟨.string, value.literal, p⟩ :: rest) = _
  rw [typeAtom.eq_def]
  simp only [hvalue, Option.getD_some]

theorem typeAtom_takes_empty (finish : Position) (name : String) :
    TakesBefore stopsAtom (typeAtom finish)
      ([(.identifier, name)] ++ [(.leftParen, "("), (.rightParen, ")")]) (.app name []) := by
  intro us rest hus _
  obtain ⟨p, us₁, rfl, h₁⟩ := exists_of_map_word hus
  obtain ⟨q, us₂, rfl, h₂⟩ := exists_of_map_word h₁
  obtain ⟨r, us₃, rfl, h₃⟩ := exists_of_map_word h₂
  obtain rfl := List.map_eq_nil_iff.1 h₃
  refine ⟨by simp only [List.length_append, List.length_cons]; omega, ?_⟩
  rw [typeAtom.eq_def]
  rfl

theorem typeAtom_takes_application (finish : Position) (name : String) {t : TypeExpr}
    {ts : List TypeExpr}
    (hsteps : ∀ u ∈ t :: ts, TakesBefore stopsType (typeExpr finish) u.words u)
    (hstarts : Starts t.words) :
    TakesBefore stopsAtom (typeAtom finish) (TypeExpr.app name (t :: ts)).words
      (.app name (t :: ts)) := by
  intro us rest hus _
  rw [TypeExpr.words, TypeExpr.wordsRest_eq] at hus
  obtain ⟨p₁, p₂, p₃, inner, rfl, hinner⟩ := exists_of_call_words hus
  obtain ⟨hlt, hlist⟩ := commaList_takes finish "to close type arguments" p₃ rest hsteps
    (fun _ => stopsType_of_list) hstarts rfl hinner
  have hts : ⟨.identifier, name, p₁⟩ :: ⟨.leftParen, "(", p₂⟩ ::
      (inner ++ [⟨.rightParen, ")", p₃⟩]) ++ rest = (⟨.identifier, name, p₁⟩ : Token) ::
        ⟨.leftParen, "(", p₂⟩ :: (inner ++ ⟨.rightParen, ")", p₃⟩ :: rest) := by simp
  rw [hts]
  refine ⟨by simp only [List.length_append, List.length_cons]; omega, ?_⟩
  rw [typeAtom.eq_def]
  dsimp only
  rw [if_pos rfl, hlist, ok_bind]

end Parser

namespace TypeExpr

open Formulary.Parser

theorem words_starts : (t : TypeExpr) → t.isWellFormed = true → Starts t.words
  | .blank, h => absurd h (by decide)
  | .named _, _ => ⟨_, _, rfl, rfl⟩
  | .app _ [], _ => ⟨_, _, rfl, rfl⟩
  | .app _ (_ :: _), _ => ⟨_, _, rfl, rfl⟩
  | .arrow domain codomain, h => by
      simp only [isWellFormed, Bool.and_eq_true] at h
      rw [words]
      split
      · exact ⟨_, _, rfl, rfl⟩
      · obtain ⟨w, ws, hwords, hw⟩ := domain.words_starts h.1
        exact ⟨w, ws ++ [(.arrow, "→")] ++ codomain.words, by rw [hwords]; simp, hw⟩
  | .nat _, _ => ⟨_, _, rfl, rfl⟩
  | .tag _, _ => ⟨_, _, rfl, rfl⟩

/-- How a type is read: as a type, and in front of an arrow if it is none itself. -/
structure Readable (finish : Position) (t : TypeExpr) : Prop where
  type : TakesBefore stopsType (typeExpr finish) t.words t
  atom : t.isArrow = false → TakesBefore stopsAtom (typeAtom finish) t.words t

theorem readable_of_atom {finish : Position} {t : TypeExpr}
    (h : TakesBefore stopsAtom (typeAtom finish) t.words t) : t.Readable finish :=
  ⟨typeExpr_takes h, fun _ => h⟩

mutual

theorem readable (finish : Position) : (t : TypeExpr) → t.isWellFormed = true → t.Readable finish
  | .blank, h => absurd h (by decide)
  | .named name, _ => readable_of_atom (typeAtom_takes_name finish name)
  | .app name [], _ => readable_of_atom (typeAtom_takes_empty finish name)
  | .app name (t :: ts), h => by
      simp only [isWellFormed, isWellFormedList, Bool.and_eq_true] at h
      obtain ⟨-, ht, hts⟩ := h
      refine readable_of_atom (typeAtom_takes_application finish name ?_ (t.words_starts ht))
      exact List.forall_mem_cons.2 ⟨(t.readable finish ht).type, typeAll finish ts hts⟩
  | .arrow domain codomain, h => by
      simp only [isWellFormed, Bool.and_eq_true] at h
      obtain ⟨htype, hatom⟩ := domain.readable finish h.1
      refine ⟨?_, nofun⟩
      rw [words]
      refine typeExpr_takes_arrow ?_ (codomain.readable finish h.2).type
      split
      · exact typeAtom_takes_parens htype
      · rename_i harrow
        exact hatom (Bool.eq_false_iff.2 harrow)
  | .nat value, h => by
      obtain ⟨n, rfl, hn⟩ := exists_natCast_of_isWellFormed h
      exact readable_of_atom (typeAtom_takes_nat finish hn)
  | .tag value, _ => readable_of_atom (typeAtom_takes_tag finish value)

theorem typeAll (finish : Position) : (ts : List TypeExpr) → isWellFormedList ts = true →
    ∀ t ∈ ts, TakesBefore stopsType (typeExpr finish) t.words t
  | [], _ => by simp
  | t :: ts, h => by
      simp only [isWellFormedList, Bool.and_eq_true] at h
      exact List.forall_mem_cons.2 ⟨(t.readable finish h.1).type, typeAll finish ts h.2⟩

end

/-- Printing a type is undone by reading, as long as the printed text is in its canonical form. -/
theorem parse_render_type {t : TypeExpr} (h : t.isWellFormed = true)
    (hcanonical : canonical t.render.toList = t.render.toList) : parse t.render = .ok t := by
  obtain ⟨us, q, hus, hinput⟩ := inputOf_of_scans (t.scans h rfl) hcanonical
  have hread := (t.readable q h).type us [] hus rfl
  rw [List.append_nil] at hread
  obtain ⟨hlt, htype⟩ := hread
  rw [parse, hinput, ok_bind]
  dsimp only
  rw [htype, ok_bind]
  rfl

/-- Arrows on both sides of an arrow and in an argument, an application to no arguments, a number,
and a tag that is not the encoding of a text and holds what has to be escaped. -/
def nestedArrows : TypeExpr :=
  .arrow (.arrow (.named "A") (.app "Unit" []))
    (.arrow (.app "F" [.arrow (.nat 7) (.named "b"), .tag [0x22, 0x5c, 0x0a, 0xff]]) (.tag []))

theorem parse_render_type_nested :
    nestedArrows.render = "(A → Unit()) → F(7 → b, \"\\\"\\\\\\n\\xff\") → \"\"" ∧
    parse nestedArrows.render = .ok nestedArrows :=
  ⟨by decide +kernel, parse_render_type (by decide +kernel) (by decide +kernel)⟩

end TypeExpr

end Formulary
