import Mathlib
import Formulary.Pattern.Exhaustive
import Formulary.Proofs.Procedures

namespace Formulary.Pattern

/-- Whether a query is useful beside the rows of a matrix. -/
structure Question where
  supply : Supply
  rows : List Row
  query : List Pattern
  types : List Ty

namespace Question

/-- There is one type for each pattern of the query, and one pattern for it in each row. -/
structure Aligned (p : Question) : Prop where
  types : p.types.length = p.query.length
  rows : ∀ row ∈ p.rows, row.length = p.query.length

/-- The number of constructors in the rows and in the query. -/
def weight (p : Question) : Nat := weightRows p.rows + weightList p.query

/-- A question with fewer constructors, or with as many and a shorter query. -/
def Smaller (q p : Question) : Prop :=
  q.weight < p.weight ∨ q.weight = p.weight ∧ q.query.length < p.query.length

theorem smaller_wellFounded : WellFounded Smaller :=
  Subrelation.wf (fun h => Ty.measure_lt (h.imp_right (And.imp_left Nat.le_of_eq)))
    (InvImage.wf (fun p : Question => (p.weight, p.query.length)) (Prod.lex
      ⟨(· < ·), Nat.lt_wfRel.wf⟩ ⟨(· < ·), Nat.lt_wfRel.wf⟩).wf)

/-- Whether the query is useful, and what is left of the supply of variables. -/
def answer (r : DataTypes) (p : Question) : Bool × Supply :=
  (useful r p.rows (p.query.zip p.types)).run p.supply

end Question

section

variable {α : Type}

/-- What is done to answer a question on the way to a value. -/
abbrev UsefulTree (α : Type) : Type := CallTree Question (Bool × Supply) α

/-- Reads the first pattern of every row and keeps what `step` makes of the rows. -/
def readRows (step : Row → Option α) : List Row → UsefulTree (List α)
  | [] => pure []
  | row :: rows => do
    let _ ← .uncons row
    let rest ← readRows step rows
    return (step row).toList ++ rest

/-- Asks about the values that are built with a constructor: `args` are the patterns for its fields, and
`query` and `types` the columns that follow. -/
def enter (r : DataTypes) (supply : Supply) (rows : List Row) (name : String) (args : List Pattern)
    (t : Ty) (query : List Pattern) (types : List Ty) : UsefulTree (Bool × Supply) := do
  let (fields, supply) := (fieldTypes r name t).run supply
  let rows ← readRows (specializeRow name fields.length) rows
  .ask ⟨supply, rows, fit fields.length args ++ query, fields ++ types⟩

/-- Asks about the values of one constructor after the other, until the query is useful for one. -/
def enterAny (r : DataTypes) (rows : List Row) (t : Ty) (query : List Pattern) (types : List Ty) :
    List String → Supply → UsefulTree (Bool × Supply)
  | [], supply => pure (false, supply)
  | name :: names, supply => do
    let (useful, supply) ← enter r supply rows name [] t query types
    if useful then return (true, supply) else enterAny r rows t query types names supply

/-- Reads whether every constructor is at the head of some row, and there are constructors. -/
def readCovers (rows : List Row) (constructors : List String) : UsefulTree Bool :=
  if constructors.isEmpty then pure false
  else do
    let heads ← readRows headConstructor? rows
    return constructors.all (· ∈ heads)

/-- The test for usefulness. -/
def usefulness (r : DataTypes) : Procedure Question (Bool × Supply)
  | ⟨supply, rows, [], _⟩ => pure (rows.isEmpty, supply)
  | ⟨supply, rows, .constructor name args :: query, types⟩ => do
    let (t, types) ← .uncons types
    enter r supply rows name args t query types
  | ⟨supply, rows, .const literal :: query, types⟩ => do
    let rows ← readRows (specializeConst literal) rows
    let (_, types) ← .uncons types
    .ask ⟨supply, rows, query, types⟩
  | ⟨supply, rows, .wildcard :: query, types⟩ | ⟨supply, rows, .var _ :: query, types⟩ => do
    let (t, types) ← .uncons types
    if ← readCovers rows (constructorsOf r t) then
      enterAny r rows t query types (constructorsOf r t) supply
    else
      let rows ← readRows defaultRow rows
      .ask ⟨supply, rows, query, types⟩

/-- The pattern of the values that are built with a constructor. -/
def builtWith (r : DataTypes) (name : String) : Pattern :=
  let arity := match r.variant? name with
    | some (_, v) => v.fields.length
    | none => 0
  .constructor name (fit arity [])

/-- Asks about one constructor after the other and adds those to `found` that are useful. -/
def lacking (r : DataTypes) (rows : List Row) (t : Ty) (found : List String) :
    List String → Supply → UsefulTree (List String × Supply)
  | [], supply => pure (found, supply)
  | name :: names, supply => do
    let (useful, supply) ← .ask ⟨supply, rows, [builtWith r name], [t]⟩
    lacking r rows t (if useful then found ++ [name] else found) names supply

/-- The check which constructors are missing. -/
def checking (r : DataTypes) (ps : List Pattern) (t : Ty) (supply : Supply) :
    UsefulTree (List String × Supply) :=
  let rows := ps.map fun p => [p]
  match constructorsOf r t with
  | [] => do
    let (useful, supply) ← .ask ⟨supply, rows, [.wildcard], [t]⟩
    return (if useful then ["_"] else [], supply)
  | constructors => lacking r rows t [] constructors supply

end

theorem length_of_specializeRow {name : String} {n width : Nat} {row row' : Row}
    (hrow : row.length = width + 1) (h : specializeRow name n row = some row') :
    row'.length = n + width := by
  match row with
  | .constructor other args :: rest =>
      rw [specializeRow] at h
      split at h
      · cases h
        simpa [length_fit] using hrow
      · cases h
  | .wildcard :: rest | .var _ :: rest =>
      cases h
      simpa [length_fit] using hrow
  | .const _ :: _ | [] => cases h

theorem length_of_specializeConst {literal : String} {width : Nat} {row row' : Row}
    (hrow : row.length = width + 1) (h : specializeConst literal row = some row') :
    row'.length = width := by
  match row with
  | .const value :: rest =>
      rw [specializeConst] at h
      split at h
      · cases h
        exact Nat.succ.inj hrow
      · cases h
  | .wildcard :: rest | .var _ :: rest =>
      cases h
      exact Nat.succ.inj hrow
  | .constructor _ _ :: _ | [] => cases h

theorem length_of_defaultRow {width : Nat} {row row' : Row} (hrow : row.length = width + 1)
    (h : defaultRow row = some row') : row'.length = width := by
  match row with
  | .wildcard :: rest | .var _ :: rest =>
      cases h
      exact Nat.succ.inj hrow
  | .const _ :: _ | .constructor _ _ :: _ | [] => cases h

theorem length_of_mem_filterMap {step : Row → Option Row} {rows : List Row} {width width' : Nat}
    (hstep : ∀ {row row'}, row.length = width → step row = some row' → row'.length = width')
    (hrows : ∀ row ∈ rows, row.length = width) :
    ∀ row ∈ rows.filterMap step, row.length = width' := by
  intro row' h
  obtain ⟨row, hrow, h⟩ := List.mem_filterMap.1 h
  exact hstep (hrows row hrow) h

section

variable {r : DataTypes} {α : Type} {p : Question}

/-- The specification of the calls that are made for the question `p`. -/
abbrev Answering (r : DataTypes) (p : Question) (Q : α → Prop) : UsefulTree α → Prop :=
  CallTree.Yields (fun q => q.Aligned ∧ q.Smaller p) (fun q out => out = q.answer r) Q

theorem answering_readRows {step : Row → Option α} {rows : List Row} {width : Nat}
    (hrows : ∀ row ∈ rows, row.length = width + 1) {Q : List α → Prop}
    (hQ : Q (rows.filterMap step)) : Answering r p Q (readRows step rows) := by
  induction rows generalizing Q with
  | nil => exact hQ
  | cons row rows ih =>
      obtain ⟨first, rest, rfl⟩ :=
        List.exists_cons_of_length_eq_add_one (hrows row (List.mem_cons_self ..))
      refine CallTree.yields_bind.2 (CallTree.yields_bind.2
        (ih (fun row h => hrows row (List.mem_cons_of_mem _ h)) (CallTree.yields_pure.2 ?_)))
      rw [List.filterMap_cons] at hQ
      cases hstep : step (first :: rest) <;> simpa [hstep] using hQ

theorem answering_readCovers {rows : List Row} {constructors : List String} {width : Nat}
    (hrows : ∀ row ∈ rows, row.length = width + 1) {Q : Bool → Prop}
    (hQ : Q (covers rows constructors)) : Answering r p Q (readCovers rows constructors) := by
  rw [covers] at hQ
  unfold readCovers
  split
  case isTrue h =>
    rw [h] at hQ
    exact hQ
  case isFalse h =>
    refine CallTree.yields_bind.2 (answering_readRows hrows (CallTree.yields_pure.2 ?_))
    simpa [h] using hQ

/-- What is asked about the values that are built with a constructor. -/
def entered (r : DataTypes) (rows : List Row) (name : String) (args : List Pattern) (t : Ty)
    (rest : Query) : StateM Supply Bool := do
  let fields ← fieldTypes r name t
  useful r (specialize name fields.length rows) (columns args fields ++ rest)

theorem answering_enter {supply : Supply} {rows : List Row} {name : String} {args query : List Pattern}
    {t : Ty} {types : List Ty} (hrows : ∀ row ∈ rows, row.length = query.length + 1)
    (htypes : types.length = query.length)
    (hweight : ∀ n, weightRows (specialize name n rows) + weightList (fit n args) +
      weightList query < p.weight) :
    Answering r p (· = (entered r rows name args t (query.zip types)).run supply)
      (enter r supply rows name args t query types) := by
  unfold enter entered
  rw [StateT.run_bind]
  cases (fieldTypes r name t).run supply with
  | mk fields supply =>
      refine CallTree.yields_bind.2 (answering_readRows hrows (CallTree.yields_ask.2 ⟨⟨⟨?_, ?_⟩, ?_⟩, ?_⟩))
      · simp [length_fit, htypes]
      · intro row hrow
        rw [List.length_append, length_fit]
        exact length_of_mem_filterMap length_of_specializeRow hrows row hrow
      · refine .inl ?_
        rw [Question.weight, weightList_append, ← Nat.add_assoc]
        exact hweight fields.length
      · rintro _ rfl
        rw [Question.answer, List.zip_append (length_fit ..)]
        rfl

theorem answering_enterAny {supply : Supply} {rows : List Row} {names : List String}
    {query : List Pattern} {t : Ty} {types : List Ty}
    (hrows : ∀ row ∈ rows, row.length = query.length + 1) (htypes : types.length = query.length)
    (hheads : ∃ row ∈ rows, (headConstructor? row).isSome)
    (hweight : weightRows rows + weightList query ≤ p.weight) :
    Answering r p
      (· = (names.anyM fun name => entered r rows name [] t (query.zip types)).run supply)
      (enterAny r rows t query types names supply) := by
  induction names generalizing supply with
  | nil => exact CallTree.yields_pure.2 rfl
  | cons name names ih =>
      refine (answering_enter hrows htypes fun n => ?_).bind ?_
      · have := @weightRows_specialize_lt name n rows hheads
        rw [weightList_fit_nil]
        omega
      · rintro _ rfl
        rw [List.anyM, StateT.run_bind]
        cases (entered r rows name [] t (query.zip types)).run supply with
        | mk useful supply =>
            cases useful with
            | true => exact CallTree.yields_pure.2 rfl
            | false => exact ih

theorem Question.smaller_rest {supply supply' : Supply} {rows rows' : List Row} {head : Pattern}
    {query : List Pattern} {types types' : List Ty} (h : weightRows rows' ≤ weightRows rows) :
    Smaller ⟨supply', rows', query, types'⟩ ⟨supply, rows, head :: query, types⟩ := by
  simp only [Smaller, weight, weightList, List.length_cons]
  omega

theorem usefulness_meets (r : DataTypes) : (usefulness r).Meets Question.Aligned
    (fun p out => out = p.answer r) Question.Smaller := by
  rintro ⟨supply, rows, query, types⟩ ⟨hlength, hrows⟩
  simp only at hlength hrows
  change Answering r _ (· = _) _
  cases query with
  | nil =>
      refine CallTree.yields_pure.2 ?_
      rw [Question.answer, List.zip_nil_left, useful]
      rfl
  | cons head query =>
      obtain ⟨t, types, rfl⟩ := List.exists_cons_of_length_eq_add_one hlength
      have htypes : types.length = query.length := Nat.succ.inj hlength
      rw [Question.answer, List.zip_cons_cons]
      cases head with
      | constructor name args =>
          rw [useful]
          refine answering_enter hrows htypes fun n => ?_
          have := weightRows_filterMap_le (@weightList_specializeRow_le name n) rows
          have := weightList_fit_le n args
          simp only [Question.weight, specialize, weightList, weight]
          omega
      | const literal =>
          rw [useful]
          refine CallTree.yields_bind.2 (answering_readRows hrows (CallTree.yields_ask.2
            ⟨⟨⟨htypes, ?_⟩, Question.smaller_rest ?_⟩, fun _ h => h⟩))
          · exact length_of_mem_filterMap length_of_specializeConst hrows
          · exact weightRows_filterMap_le weightList_specializeConst_le rows
      | wildcard | var name =>
          rw [useful]
          refine CallTree.yields_bind.2 (CallTree.yields_bind.2 (answering_readCovers hrows ?_))
          by_cases h : covers rows (constructorsOf r t)
          · rw [if_pos h, dif_pos h]
            refine answering_enterAny hrows htypes (exists_head_of_covers h) ?_
            simp only [Question.weight, weightList, weight]
            omega
          · rw [if_neg h, dif_neg h]
            refine CallTree.yields_bind.2 (answering_readRows hrows (CallTree.yields_ask.2
              ⟨⟨⟨htypes, ?_⟩, Question.smaller_rest ?_⟩, fun _ h => h⟩))
            · exact length_of_mem_filterMap length_of_defaultRow hrows
            · exact weightRows_filterMap_le weightList_defaultRow_le rows

theorem aligned_column {ps : List Pattern} {query : Pattern} {t : Ty} {supply : Supply} :
    Question.Aligned ⟨supply, ps.map fun p => [p], [query], [t]⟩ where
  types := rfl
  rows row h := by
    obtain ⟨p, -, rfl⟩ := List.mem_map.1 h
    rfl

theorem lacking_yields (ps : List Pattern) (t : Ty) (found names : List String) (supply : Supply) :
    (lacking r (ps.map fun p => [p]) t found names supply).Yields Question.Aligned
      (fun q out => out = q.answer r)
      (· = (do
        let kept ← names.filterAuxM
          (fun name => useful r (ps.map fun p => [p]) [(builtWith r name, t)]) found.reverse
        return kept.reverse : StateM Supply (List String)).run supply) := by
  induction names generalizing found supply with
  | nil =>
      refine CallTree.yields_pure.2 ?_
      rw [List.filterAuxM, pure_bind, List.reverse_reverse]
      rfl
  | cons name names ih =>
      refine CallTree.yields_bind.2 (CallTree.yields_ask.2 ⟨aligned_column, ?_⟩)
      rintro _ rfl
      rw [List.filterAuxM, bind_assoc, StateT.run_bind, Question.answer, List.zip_cons_cons,
        List.zip_nil_left]
      cases (useful r (ps.map fun p => [p]) [(builtWith r name, t)]).run supply with
      | mk useful supply =>
          cases useful with
          | true =>
              have hfound : (found ++ [name]).reverse = name :: found.reverse := by simp
              exact hfound ▸ ih (found ++ [name]) supply
          | false => exact ih found supply

theorem checking_yields (r : DataTypes) (ps : List Pattern) (t : Ty) (supply : Supply) :
    (checking r ps t supply).Yields Question.Aligned (fun q out => out = q.answer r)
      (· = (missing r ps t).run supply) := by
  unfold checking missing
  generalize constructorsOf r t = constructors
  cases constructors with
  | nil =>
      refine CallTree.yields_bind.2 (CallTree.yields_ask.2 ⟨aligned_column, ?_⟩)
      rintro _ rfl
      rfl
  | cons name names => exact lacking_yields ps t [] (name :: names) supply

/-- The check ends, for all data types and for patterns that need not fit them, and finds what `missing`
says. In each question that is asked on the way the rows, the query and the types have one length; the
recursion on it ends without a row being read that is empty, and every call is on fewer constructors,
or on as many and a shorter query. -/
theorem checking_terminates (r : DataTypes) (ps : List Pattern) (t : Ty) (supply : Supply) :
    (∀ p, (checking r ps t supply).LeadsTo (usefulness r) p →
      p.Aligned ∧ (usefulness r).Terminates p ∧
        (∀ out, (usefulness r).Returns p out ↔ out = p.answer r) ∧
        ∀ q, (usefulness r).Calls p q → q.Smaller p) ∧
    ∀ found, (checking r ps t supply).Ends (usefulness r).Returns found ↔
      found = (missing r ps t).run supply := by
  have hmeets := usefulness_meets r
  have hyields := checking_yields r ps t supply
  refine ⟨fun p hp => ?_, fun _ => hyields.ends_iff hmeets Question.smaller_wellFounded⟩
  have haligned := hyields.pre_of_leadsTo hmeets hp
  exact ⟨haligned, hmeets.terminates Question.smaller_wellFounded haligned,
    fun _ => hmeets.returns_iff Question.smaller_wellFounded haligned,
    fun _ hq => (hmeets.of_calls haligned hq).2⟩

/-- Numbers, as zero or the successor of a number. -/
def numbers : DataTypes :=
  ⟨[⟨"Number", [], [⟨"Succ", [⟨none, .named "Number"⟩]⟩, ⟨"Zero", []⟩]⟩]⟩

theorem checking_terminates_numbers :
    let t : Ty := .instanceOf "Number" []
    let p : Question := ⟨.startingAt 0, [[.constructor "Succ" [.wildcard]]], [.wildcard], [t]⟩
    (checking numbers [.constructor "Succ" [.constructor "Succ" [.wildcard], .wildcard]] t
        (.startingAt 0)).LeadsTo (usefulness numbers) p ∧
      p.Aligned ∧ (usefulness numbers).Terminates p ∧
      ∀ q, (usefulness numbers).Calls p q → q.Smaller p := by
  intro t p
  have hfields : (fieldTypes numbers "Succ" t).run (.startingAt 0) = ([t], .startingAt 0) := by cbv
  have hleads : (checking numbers [.constructor "Succ" [.constructor "Succ" [.wildcard], .wildcard]] t
      (.startingAt 0)).LeadsTo (usefulness numbers) p := by
    refine ⟨_, .inl rfl, .single ?_⟩
    change (enter numbers _ _ "Succ" _ t [] []).Asks _ p
    rw [enter, hfields]
    exact .inl rfl
  have h := (checking_terminates numbers _ t (.startingAt 0)).1 p hleads
  exact ⟨hleads, h.1, h.2.1, h.2.2.2⟩

end

end Formulary.Pattern
