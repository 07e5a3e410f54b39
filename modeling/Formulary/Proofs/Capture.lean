import Mathlib
import Formulary.Expr.Substitution

namespace Formulary.Expr

theorem exists_candidate (name : String) (used : List String) :
    ∃ i < used.length + 1, name ++ toString (i + 1) ∉ used := by
  by_contra hnone
  push Not at hnone
  let candidates := (List.range (used.length + 1)).map fun i => name ++ toString (i + 1)
  have hnodup : candidates.Nodup := List.Nodup.map (fun i j h => by
    simpa using Nat.repr_injective ((String.append_right_inj name).1 h)) List.nodup_range
  have hused : candidates ⊆ used := fun candidate h => by
    obtain ⟨i, hi, rfl⟩ := List.mem_map.1 h
    exact hnone i (List.mem_range.1 hi)
  have hlength := hnodup.length_le_of_subset hused
  simp only [candidates, List.length_map, List.length_range] at hlength
  omega

theorem freshName_notMem (name : String) (used : List String) : freshName name used ∉ used := by
  obtain ⟨i, hi, hfresh⟩ := exists_candidate name used
  unfold freshName
  cases hfind : ((List.range (used.length + 1)).map fun i => name ++ toString (i + 1)).find?
      fun candidate => candidate ∉ used with
  | some candidate =>
      dsimp only
      rw [hfind]
      simpa using List.find?_some hfind
  | none =>
      rw [List.find?_eq_none] at hfind
      exact absurd hfresh (by simpa using hfind _ (List.mem_map_of_mem (List.mem_range.2 hi)))

section

variable {used l : List String} {z z' y : String}

theorem isSome_lookup_freshNames :
    ((freshNames used l).lookup z).isSome = true ↔ z ∈ l := by
  induction l generalizing used with
  | nil => simp [freshNames]
  | cons name rest ih =>
      rw [freshNames]
      split
      · rename_i hname
        rw [ih, List.mem_cons, or_iff_right_of_imp]
        rintro rfl
        exact ih.1 hname
      · rw [List.lookup_cons, List.mem_cons]
        cases hbeq : z == name with
        | true => simp [eq_of_beq hbeq]
        | false => simp [ih, ne_of_beq_false hbeq]

theorem notMem_of_mem_freshNames {b : String × String} (h : b ∈ freshNames used l) :
    b.2 ∉ used := by
  induction l generalizing used with
  | nil => cases h
  | cons name rest ih =>
      rw [freshNames] at h
      split at h
      · exact fun hused => ih h (List.mem_cons_of_mem _ hused)
      · rcases List.mem_cons.1 h with rfl | h
        · exact freshName_notMem name used
        · exact fun hused => ih h (List.mem_cons_of_mem _ hused)

theorem notMem_of_lookup_freshNames (h : (freshNames used l).lookup z = some y) : y ∉ used := by
  obtain ⟨before, after, heq, -⟩ := List.lookup_eq_some_iff.1 h
  have hmem : (z, y) ∈ freshNames used l := by simp [heq]
  exact notMem_of_mem_freshNames hmem

theorem freshNames_injective (h : (freshNames used l).lookup z = some y)
    (h' : (freshNames used l).lookup z' = some y) : z = z' := by
  induction l generalizing used with
  | nil => cases h
  | cons name rest ih =>
      rw [freshNames] at h h'
      split at h
      · rename_i hname
        rw [if_pos hname] at h'
        exact ih h h'
      · rename_i hname
        rw [if_neg hname] at h'
        rw [List.lookup_cons] at h h'
        -- the name chosen for the first is used when the others are chosen
        have hother : ∀ {x}, (freshNames (freshName name used :: used) rest).lookup x ≠
            some (freshName name used) := fun hx =>
          notMem_of_lookup_freshNames hx (List.mem_cons_self ..)
        cases hbeq : z == name with
        | true =>
            cases hbeq' : z' == name with
            | true => rw [eq_of_beq hbeq, eq_of_beq hbeq']
            | false =>
                simp only [hbeq, hbeq', Option.some.injEq] at h h'
                exact absurd (h'.trans (congrArg some h.symm)) hother
        | false =>
            cases hbeq' : z' == name with
            | true =>
                simp only [hbeq, hbeq', Option.some.injEq] at h h'
                exact absurd (h.trans (congrArg some h'.symm)) hother
            | false =>
                simp only [hbeq, hbeq'] at h h'
                exact ih h h'

end

/-- What a name is renamed to. -/
def renamed (names : List (String × String)) (name : String) : String :=
  (names.lookup name).getD name

theorem renamed_nil (name : String) : renamed [] name = name := rfl

theorem renamed_filter_of_notMem {names : List (String × String)} {vars : List String} {z : String}
    (h : z ∉ vars) : renamed (names.filter fun (name, _) => name ∉ vars) z = renamed names z := by
  have hlookup : (names.filter fun (name, _) => name ∉ vars).lookup z = names.lookup z := by
    induction names with
    | nil => rfl
    | cons b names ih =>
        by_cases hb : b.1 ∈ vars
        · have hne : (z == b.1) = false := beq_false_of_ne fun heq => h (heq ▸ hb)
          rw [List.filter_cons_of_neg (by simpa using hb), ih, List.lookup_cons, hne]
        · rw [List.filter_cons_of_pos (by simpa using hb), List.lookup_cons, List.lookup_cons, ih]
  rw [renamed, hlookup, renamed]

theorem renamed_filter_of_mem {names : List (String × String)} {vars : List String} {z : String}
    (h : z ∈ vars) : renamed (names.filter fun (name, _) => name ∉ vars) z = z := by
  have hnone : (names.filter fun (name, _) => name ∉ vars).lookup z = none := by
    rw [List.lookup_eq_none_iff]
    intro b hb
    have hb := (List.mem_filter.1 hb).2
    simp only [decide_eq_true_eq] at hb
    rw [bne_iff_ne]
    rintro rfl
    exact hb h
  rw [renamed, hnone, Option.getD_none]

mutual

theorem rename_nil (e : Expr) : e.rename [] = e := by
  cases e with
  | blank | const | object => rfl
  | operation name args => rw [rename, renameList_nil]
  | matching scrutinee cases => rw [rename, rename_nil scrutinee, renameCases_nil]

theorem renameList_nil (es : List Expr) : renameList [] es = es := by
  cases es with
  | nil => rfl
  | cons e es => rw [renameList, rename_nil e, renameList_nil es]

theorem renameCases_nil (cases : List (Pattern × Expr)) : renameCases [] cases = cases := by
  match cases with
  | [] => rfl
  | (p, body) :: rest => rw [renameCases, List.filter_nil, rename_nil body, renameCases_nil rest]

end

end Formulary.Expr

namespace Formulary.Pattern

mutual

theorem rename_nil (p : Pattern) : p.rename [] = p := by
  cases p with
  | wildcard | var | const => rfl
  | constructor name args => rw [rename, renameList_nil]

theorem renameList_nil (ps : List Pattern) : renameList [] ps = ps := by
  cases ps with
  | nil => rfl
  | cons p ps => rw [renameList, rename_nil p, renameList_nil ps]

end

end Formulary.Pattern

namespace Formulary.Expr

/-- New names for the variables of a case into which bindings are substituted. -/
structure Avoids (bindings : Bindings) (p : Pattern) (body : Expr) (names : List (String × String)) :
    Prop where
  other : ∀ z, z ∉ p.vars → renamed names z = z
  fresh : ∀ z ∈ p.vars, renamed names z = z ∨
    renamed names z ∉ body.mentioned ∧ renamed names z ∉ p.vars
  injective : ∀ z ∈ p.vars, ∀ z' ∈ p.vars, renamed names z = renamed names z' → z = z'
  bound : ∀ z ∈ p.vars, renamed names z ∉ bindings.map (·.1)
  free : ∀ z ∈ p.vars, renamed names z ∉ bindings.freeNames

theorem avoidCapture_eq (bindings : Bindings) {p : Pattern} (body : Expr)
    (h : ∀ z ∈ p.vars, z ∉ bindings.map (·.1)) : ∃ names, Avoids bindings p body names ∧
      avoidCapture bindings p body = (p.rename names, body.rename names) := by
  by_cases hcaught : (p.vars.filter (· ∈ bindings.freeNames)).isEmpty = true
  · refine ⟨[], ⟨fun _ _ => rfl, fun _ _ => .inl rfl, fun _ _ _ _ => id, h, fun z hz hfree => ?_⟩, ?_⟩
    · have hz' : z ∈ p.vars.filter (· ∈ bindings.freeNames) :=
        List.mem_filter.2 ⟨hz, by simpa [renamed_nil] using hfree⟩
      rw [List.isEmpty_iff.1 hcaught] at hz'
      exact absurd hz' List.not_mem_nil
    · rw [p.rename_nil, rename_nil]
      simp only [avoidCapture, hcaught, if_true]
  · let used := body.mentioned ++ bindings.map (·.1) ++ bindings.freeNames ++ p.vars
    let caught := p.vars.filter (· ∈ bindings.freeNames)
    have hcases : ∀ z, z ∈ caught ∧ renamed (freshNames used caught) z ∉ used ∧
        (freshNames used caught).lookup z = some (renamed (freshNames used caught) z) ∨
          z ∉ caught ∧ renamed (freshNames used caught) z = z := by
      intro z
      cases hlookup : (freshNames used caught).lookup z with
      | some y =>
          refine .inl ⟨isSome_lookup_freshNames.1 (by rw [hlookup]; rfl), ?_⟩
          rw [renamed, hlookup]
          exact ⟨notMem_of_lookup_freshNames hlookup, rfl⟩
      | none =>
          refine .inr ⟨fun hz => ?_, by rw [renamed, hlookup]; rfl⟩
          have hsome : ((freshNames used caught).lookup z).isSome = true :=
            isSome_lookup_freshNames.2 hz
          rw [hlookup] at hsome
          cases hsome
    have hnot : ∀ {y}, y ∉ used → ((y ∉ body.mentioned ∧ y ∉ bindings.map (·.1)) ∧
        y ∉ bindings.freeNames) ∧ y ∉ p.vars := fun hy => by
      simpa only [used, List.mem_append, not_or] using hy
    refine ⟨freshNames used caught, ⟨fun z hz => ?_, fun z _ => ?_, fun z hz z' hz' heq => ?_,
      fun z hz => ?_, fun z hz => ?_⟩, ?_⟩
    · rcases hcases z with ⟨hz', -⟩ | ⟨-, hsame⟩
      · exact absurd (List.mem_filter.1 hz').1 hz
      · exact hsame
    · rcases hcases z with ⟨-, hfresh, -⟩ | ⟨-, hsame⟩
      · exact .inr ⟨(hnot hfresh).1.1.1, (hnot hfresh).2⟩
      · exact .inl hsame
    · rcases hcases z with ⟨-, hfresh, hlookup⟩ | ⟨-, hsame⟩
      · rcases hcases z' with ⟨-, -, hlookup'⟩ | ⟨-, hsame'⟩
        · exact freshNames_injective hlookup (heq ▸ hlookup')
        · rw [heq, hsame'] at hfresh
          exact absurd hz' (hnot hfresh).2
      · rcases hcases z' with ⟨-, hfresh', -⟩ | ⟨-, hsame'⟩
        · rw [← heq, hsame] at hfresh'
          exact absurd hz (hnot hfresh').2
        · rw [← hsame, heq, hsame']
    · rcases hcases z with ⟨-, hfresh, -⟩ | ⟨-, hsame⟩
      · exact (hnot hfresh).1.1.2
      · rw [hsame]
        exact h z hz
    · rcases hcases z with ⟨-, hfresh, -⟩ | ⟨hfree, hsame⟩
      · exact (hnot hfresh).1.2
      · rw [hsame]
        exact fun hmem => hfree (List.mem_filter.2 ⟨hz, by simpa using hmem⟩)
    · simp only [avoidCapture, hcaught]
      rfl

end Formulary.Expr
