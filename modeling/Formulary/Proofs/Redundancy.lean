import Formulary.Proofs.Covering

namespace Formulary

/-- A list without the elements at some places, counted from `index`. -/
def deleteFrom {α : Type} (places : List Nat) (index : Nat) : List α → List α
  | [] => []
  | a :: l =>
    if index ∈ places then deleteFrom places (index + 1) l
    else a :: deleteFrom places (index + 1) l

/-- A list without the elements at some places. -/
def deleteAt {α : Type} (places : List Nat) (l : List α) : List α := deleteFrom places 0 l

/-- The place that an element has once some places are deleted: how many before it stay. -/
def placeWithout (places : List Nat) (i : Nat) : Nat := ((List.range i).filter (· ∉ places)).length

theorem placeWithout_succ (places : List Nat) (i : Nat) :
    placeWithout places (i + 1) =
      if i ∈ places then placeWithout places i else placeWithout places i + 1 := by
  rw [placeWithout, List.range_succ, List.filter_append, List.length_append, placeWithout]
  split <;> rename_i h <;> simp [h]

theorem mem_deleteFrom {α : Type} {places : List Nat} {index : Nat} {l : List α} {a : α} :
    a ∈ deleteFrom places index l ↔ ∃ k, l[k]? = some a ∧ index + k ∉ places := by
  induction l generalizing index with
  | nil => simp [deleteFrom]
  | cons first l ih =>
      have hrest : (∃ k, (first :: l)[k]? = some a ∧ index + k ∉ places) ↔
          (first = a ∧ index ∉ places) ∨ a ∈ deleteFrom places (index + 1) l := by
        rw [ih]
        constructor
        · rintro ⟨_ | k, hk, hplace⟩
          · exact .inl ⟨by simpa using hk, hplace⟩
          · exact .inr ⟨k, by simpa using hk, by rwa [Nat.add_right_comm]⟩
        · rintro (⟨rfl, hplace⟩ | ⟨k, hk, hplace⟩)
          · exact ⟨0, rfl, hplace⟩
          · exact ⟨k + 1, by simpa using hk, by rwa [← Nat.add_right_comm] at hplace⟩
      rw [hrest, deleteFrom]
      split <;> rename_i h
      · simp [h]
      · simp [h, eq_comm]

namespace Pattern

variable {r : DataTypes}

/-- Every pattern of a list is subsumed by one of another list. -/
def SubsumesAll (qs ps : List Pattern) : Prop := ∀ p ∈ ps, ∃ q ∈ qs, q.subsumes p = true

theorem SubsumesAll.trans {ps qs ss : List Pattern} (h : SubsumesAll ps qs) (h' : SubsumesAll qs ss) :
    SubsumesAll ps ss := by
  intro s hs
  obtain ⟨q, hq, hqs⟩ := h' s hs
  obtain ⟨p, hp, hpq⟩ := h q hq
  exact ⟨p, hp, subsumes_trans hpq hqs⟩

theorem subsumesAll_refl (ps : List Pattern) : SubsumesAll ps ps := fun p hp =>
  ⟨p, hp, subsumes_refl p⟩

/-- The rows of a match, one for each case. -/
abbrev caseRows (ps : List Pattern) : List Row := ps.map fun p => [p]

theorem SubsumesAll.coversAll {qs ps : List Pattern} (h : SubsumesAll qs ps) (p : Pattern)
    (t t' : Ty) : CoversAll [.shared p t t'] (caseRows qs) (caseRows ps) := by
  intro a ha
  obtain ⟨p', hp', rfl⟩ := List.mem_map.1 ha
  obtain ⟨q, hq, hsubsumes⟩ := h p' hp'
  exact ⟨[q], List.mem_map_of_mem hq, .shared hsubsumes .nil⟩

/-- A query has turned out to be useful for patterns that match the same. -/
def TurnsOutUseful (r : DataTypes) (ps : List Pattern) (p : Pattern) (t : Ty) : Prop :=
  ∃ (qs : List Pattern) (u u' : Supply), SubsumesAll qs ps ∧ SubsumesAll ps qs ∧
    t.NumberedBelow u.next ∧ u'.Unwrapped ∧ (useful r (caseRows qs) [(p, t)]).run u = (true, u')

theorem useful_iff_turnsOutUseful {ps qs : List Pattern} (h : SubsumesAll qs ps)
    (h' : SubsumesAll ps qs) {p : Pattern} {t : Ty} {answer : Bool} {u u' : Supply}
    (ht : t.NumberedBelow u.next) (hrun : (useful r (caseRows qs) [(p, t)]).run u = (answer, u'))
    (hu : u'.Unwrapped) : answer = true ↔ TurnsOutUseful r ps p t := by
  constructor
  · rintro rfl
    exact ⟨qs, u, u', h, h', ht, hu, hrun⟩
  · rintro ⟨qs', u₁, u₁', hqs', -, ht₁, hu₁, hrun₁⟩
    cases answer with
    | true => rfl
    | false =>
        have hfits : ∀ l ∈ [Lane.shared p t t], l.Fits u.next u₁.next := fun l hl =>
          List.mem_singleton.1 hl ▸ ⟨.refl t, ht, ht₁⟩
        exact (follows_of_coversAll _ _ _ ((hqs'.trans h').coversAll p t t) u u₁ u' u₁' hfits hrun
          hrun₁ hu hu₁).elim

open Classical in
theorem missing_eq_of_subsumesAll {ps qs : List Pattern} (h : SubsumesAll qs ps)
    (h' : SubsumesAll ps qs) {t : Ty} {u u' : Supply} {names : List String}
    (ht : t.NumberedBelow u.next) (hrun : (missing r qs t).run u = (names, u')) (hu : u'.Unwrapped) :
    names = if constructorsOf r t = [] then
        if TurnsOutUseful r ps .wildcard t then ["_"] else []
      else (constructorsOf r t).filter fun name => TurnsOutUseful r ps
        (.constructor name (fit (((r.variant? name).map (·.2.fields.length)).getD 0) [])) t := by
  unfold missing at hrun
  dsimp only at hrun
  split at hrun
  · rename_i hnone
    rw [if_pos hnone]
    rw [StateT.run_bind] at hrun
    cases hanswer : (useful r (caseRows qs) [(.wildcard, t)]).run u with
    | mk answer s =>
        rw [hanswer] at hrun
        obtain ⟨rfl, rfl⟩ := Prod.mk.inj hrun
        exact if_congr (useful_iff_turnsOutUseful h h' ht hanswer hu) rfl rfl
  · rename_i hsome
    rw [if_neg hsome]
    refine run_filterM_eq (fun _ => useful_grows _ _ _) hrun fun name hname u₁ u₂ c hquery hle hle' => ?_
    have hu₂ := hu.of_le hle'
    have hu₁ := unwrapped_of_useful hquery hu₂
    have hiff := useful_iff_turnsOutUseful h h' (ht.mono (hu₁.next_le_next hle)) hquery hu₂
    rw [Bool.eq_iff_iff, hiff, decide_eq_true_iff]
    cases r.variant? name <;> rfl

theorem exists_reachable {ps : List Pattern} (i : Nat) {p : Pattern} (hp : ps[i]? = some p) :
    ∃ j q, ps[j]? = some q ∧ j ∉ unreachable ps ∧ q.subsumes p = true := by
  induction i using Nat.strong_induction_on generalizing p with
  | _ i ih =>
      by_cases hi : i ∈ unreachable ps
      · obtain ⟨p', hp', j, hj, q, hq, hall⟩ := mem_unreachable.1 hi
        obtain rfl : p = p' := Option.some.inj (hp.symm.trans hp')
        obtain ⟨k, s, hs, hk, hsubsumes⟩ := ih j hj hq
        exact ⟨k, s, hs, hk, subsumes_trans hsubsumes (subsumes_iff_accepts.2 hall)⟩
      · exact ⟨i, p, hp, hi, subsumes_refl p⟩

theorem subsumesAll_deleteAt (ps : List Pattern) :
    SubsumesAll (deleteAt (unreachable ps) ps) ps := by
  intro p hp
  obtain ⟨i, hi⟩ := List.getElem?_of_mem hp
  obtain ⟨j, q, hq, hj, hsubsumes⟩ := exists_reachable i hi
  exact ⟨q, mem_deleteFrom.2 ⟨j, hq, by rwa [Nat.zero_add]⟩, hsubsumes⟩

theorem deleteAt_subsumesAll (places : List Nat) (ps : List Pattern) :
    SubsumesAll ps (deleteAt places ps) := by
  intro p hp
  obtain ⟨i, hi, -⟩ := mem_deleteFrom.1 hp
  exact ⟨p, List.mem_of_getElem? hi, subsumes_refl p⟩

end Pattern

namespace Expr

theorem selectFrom?_deleteFrom {value : Expr} {places : List Nat} {index : Nat}
    {cases : List (Pattern × Expr)} (h : ∀ i bindings body,
      value.selectFrom? index cases = some (i, bindings, body) → i ∉ places) :
    value.selectFrom? (placeWithout places index) (deleteFrom places index cases) =
      (value.selectFrom? index cases).map fun s => (placeWithout places s.1, s.2) := by
  induction cases generalizing index with
  | nil => rfl
  | cons first rest ih =>
      obtain ⟨p, body⟩ := first
      have hsucc := placeWithout_succ places index
      cases hmatch : p.matches? value with
      | some bindings =>
          have hselect : value.selectFrom? index ((p, body) :: rest) = some (index, bindings, body) := by
            rw [selectFrom?, hmatch]
          rw [hselect, deleteFrom, if_neg (h _ _ _ hselect), selectFrom?, hmatch]
          rfl
      | none =>
          have hselect : value.selectFrom? index ((p, body) :: rest) =
              value.selectFrom? (index + 1) rest := by
            rw [selectFrom?, hmatch]
          rw [hselect] at h ⊢
          rw [← ih h, hsucc, deleteFrom]
          split
          · rfl
          · rw [selectFrom?, hmatch]

theorem select?_deleteAt_unreachable (value : Expr) (cases : List (Pattern × Expr)) :
    value.select? (deleteAt (Pattern.unreachable (cases.map (·.1))) cases) =
      (value.select? cases).map fun s =>
        (placeWithout (Pattern.unreachable (cases.map (·.1))) s.1, s.2) :=
  selectFrom?_deleteFrom fun _ bindings body hselect hi =>
    select?_ne_of_mem_unreachable hi value bindings body hselect

end Expr

namespace Pattern

/-- Deleting the cases that are reported as unreachable leaves what is reported as missing as it is,
provided that the variables of the type that is matched have been handed out before and that the
numbers of variables do not run over. The same case is selected, in the place that it has then. -/
theorem unreachable_redundant (r : DataTypes) :
    (∀ (ps : List Pattern) (t : Ty) (u u' u₁ u₁' : Supply) (names names' : List String),
      t.NumberedBelow u.next → t.NumberedBelow u'.next →
      (missing r ps t).run u = (names, u₁) →
      (missing r (deleteAt (unreachable ps) ps) t).run u' = (names', u₁') →
      u₁.Unwrapped → u₁'.Unwrapped → names' = names) ∧
    ∀ (cases : List (Pattern × Expr)) (value : Expr),
      value.select? (deleteAt (unreachable (cases.map (·.1))) cases) =
        (value.select? cases).map fun s => (placeWithout (unreachable (cases.map (·.1))) s.1, s.2) := by
  refine ⟨fun ps t u u' u₁ u₁' names names' ht ht' hrun hrun' hu hu' => ?_,
    fun cases value => value.select?_deleteAt_unreachable cases⟩
  rw [missing_eq_of_subsumesAll (subsumesAll_deleteAt ps) (deleteAt_subsumesAll _ ps) ht' hrun' hu',
    missing_eq_of_subsumesAll (subsumesAll_refl ps) (subsumesAll_refl ps) ht hrun hu]

/-- A data type with one constructor, and one whose two constructors have the same fields. -/
def sidedTypes : DataTypes :=
  ⟨[⟨"S", ["T"], [⟨"Z", []⟩]⟩,
    ⟨"D", ["A", "B"], [⟨"P", [⟨none, .named "A"⟩, ⟨none, .named "B"⟩]⟩,
      ⟨"Q", [⟨none, .named "A"⟩, ⟨none, .named "B"⟩]⟩]⟩]⟩

/-- The second of these cases is unreachable. -/
def sidedCases : List (Pattern × Expr) :=
  [(.constructor "P" [.wildcard, .wildcard], .const "0"),
    (.constructor "P" [.wildcard, .constructor "Z" []], .const "1"),
    (.constructor "Q" [.constructor "Z" [], .wildcard], .const "2")]

/-- A type with a free variable. -/
def sidedType : Ty := .instanceOf "D" [.var 4, .instanceOf "S" [.scalar]]

theorem unreachable_redundant_sided :
    let ps := sidedCases.map (·.1)
    let before := (missing sidedTypes ps sidedType).run (.startingAt 5)
    let after := (missing sidedTypes (deleteAt (unreachable ps) ps) sidedType).run (.startingAt 5)
    let value : Expr := .operation "Q" [.object "Z", .object "Z"]
    unreachable ps = [1] ∧ before.1 = ["Q"] ∧ after.1 = before.1 ∧
      value.select? sidedCases = some (2, [], .const "2") ∧
      value.select? (deleteAt (unreachable ps) sidedCases) = some (1, [], .const "2") := by
  intro ps before after value
  have hbelow : sidedType.NumberedBelow (Supply.startingAt 5).next := by decide
  have hbefore : (missing sidedTypes ps sidedType).run (.startingAt 5) = (["Q"], ⟨5, 5, 0⟩) := by cbv
  have hafter : (missing sidedTypes (deleteAt (unreachable ps) ps) sidedType).run (.startingAt 5) =
      (["Q"], ⟨5, 4, 0⟩) := by cbv
  have hselect : value.select? sidedCases = some (2, [], .const "2") := rfl
  refine ⟨by decide, congrArg Prod.fst hbefore, ?_, hselect, ?_⟩
  · exact (unreachable_redundant sidedTypes).1 ps sidedType _ _ before.2 after.2 _ _ hbelow hbelow
      rfl rfl (congrArg Prod.snd hbefore ▸ by decide) (congrArg Prod.snd hafter ▸ by decide)
  · rw [(unreachable_redundant sidedTypes).2 sidedCases value, hselect]
    rfl

/-- The number of the variable in the type is handed out again for a field that is looked at. With
the unreachable case, both fields of the missing constructor seem to have one type. -/
theorem missing_of_clash :
    let ps := sidedCases.map (·.1)
    unreachable ps = [1] ∧
      ((missing sidedTypes ps sidedType).run (.startingAt 0)).1 = [] ∧
      ((missing sidedTypes (deleteAt (unreachable ps) ps) sidedType).run (.startingAt 0)).1 = ["Q"] := by
  intro ps
  exact ⟨by decide, by cbv, by cbv⟩

end Pattern

end Formulary
