import Formulary.Proofs.Usefulness

namespace Formulary

namespace Pattern

theorem isSome_matches? (p : Pattern) (value : Expr) : (p.matches? value).isSome = p.accepts value :=
  isSome_matchInto [] p value

mutual

/-- A value that a pattern matches. -/
def sample : Pattern → Expr
  | .wildcard | .var _ => .const ""
  | .const literal => .const literal
  | .constructor name args => .operation name (sampleList args)

def sampleList : List Pattern → List Expr
  | [] => []
  | p :: ps => p.sample :: sampleList ps

end

mutual

theorem accepts_sample (p : Pattern) : p.accepts p.sample = true := by
  cases p with
  | wildcard | var => rfl
  | const => simp [sample, accepts]
  | constructor name args => simp [sample, accepts, acceptsAll_sampleList args]

theorem acceptsAll_sampleList (ps : List Pattern) : acceptsAll ps (sampleList ps) = true := by
  match ps with
  | [] => rfl
  | p :: ps => simp [sampleList, acceptsAll, accepts_sample p, acceptsAll_sampleList ps]

end

mutual

theorem accepts_of_subsumes {a b : Pattern} (h : a.subsumes b = true) {value : Expr}
    (hb : b.accepts value = true) : a.accepts value = true := by
  match a, b with
  | .wildcard, _ | .var _, _ => simp [accepts]
  | .const literal, .const other =>
      obtain rfl : literal = other := by simpa [subsumes] using h
      exact hb
  | .constructor name as, .constructor other bs =>
      simp only [subsumes, Bool.and_eq_true, decide_eq_true_eq] at h
      obtain ⟨values, hbuilt, hvalues⟩ := accepts_constructor.1 hb
      exact accepts_constructor.2 ⟨values, h.1 ▸ hbuilt, acceptsAll_of_subsumesList h.2 hvalues⟩
  | .const _, .wildcard | .const _, .var _ | .const _, .constructor _ _ => cases h
  | .constructor _ _, .wildcard | .constructor _ _, .var _ | .constructor _ _, .const _ => cases h

theorem acceptsAll_of_subsumesList {as bs : List Pattern} (h : subsumesList as bs = true)
    {values : List Expr} (hbs : acceptsAll bs values = true) : acceptsAll as values = true := by
  match as, bs, values with
  | [], [], _ => exact hbs
  | a :: as, b :: bs, value :: values =>
      simp only [subsumesList, acceptsAll, Bool.and_eq_true] at h hbs ⊢
      exact ⟨accepts_of_subsumes h.1 hbs.1, acceptsAll_of_subsumesList h.2 hbs.2⟩
  | a :: as, b :: bs, [] => cases hbs
  | [], _ :: _, _ | _ :: _, [], _ => cases h

end

mutual

theorem exists_value_of_not_subsumes {a b : Pattern} (h : a.subsumes b = false) :
    ∃ value, b.accepts value = true ∧ a.accepts value = false := by
  match a, b with
  | .wildcard, _ | .var _, _ => simp [subsumes] at h
  | .const literal, .wildcard | .const literal, .var _ => exact ⟨.object "", rfl, rfl⟩
  | .const literal, .const other =>
      have hne : literal ≠ other := by simpa [subsumes] using h
      exact ⟨.const other, by simp [accepts], by simpa [accepts] using hne.symm⟩
  | .const literal, .constructor name args => exact ⟨_, accepts_sample _, rfl⟩
  | .constructor name as, .wildcard | .constructor name as, .var _ => exact ⟨.const "", rfl, rfl⟩
  | .constructor name as, .const literal => exact ⟨_, accepts_sample _, rfl⟩
  | .constructor name as, .constructor other bs =>
      by_cases hname : name = other
      · subst hname
        have hargs : subsumesList as bs = false := by simpa [subsumes] using h
        obtain ⟨values, hbs, has⟩ := exists_values_of_not_subsumesList hargs
        exact ⟨.operation name values, by simp [accepts, hbs], by simp [accepts, has]⟩
      · exact ⟨_, accepts_sample _, by simp [sample, accepts, Ne.symm hname]⟩

theorem exists_values_of_not_subsumesList {as bs : List Pattern} (h : subsumesList as bs = false) :
    ∃ values, acceptsAll bs values = true ∧ acceptsAll as values = false := by
  match as, bs with
  | [], [] => cases h
  | [], b :: bs => exact ⟨_, acceptsAll_sampleList _, rfl⟩
  | a :: as, [] => exact ⟨[], rfl, rfl⟩
  | a :: as, b :: bs =>
      cases hhead : a.subsumes b with
      | false =>
          obtain ⟨value, hb, ha⟩ := exists_value_of_not_subsumes hhead
          exact ⟨value :: sampleList bs, by simp [acceptsAll, hb, acceptsAll_sampleList],
            by simp [acceptsAll, ha]⟩
      | true =>
          have hrest : subsumesList as bs = false := by simpa [subsumesList, hhead] using h
          obtain ⟨values, hbs, has⟩ := exists_values_of_not_subsumesList hrest
          exact ⟨b.sample :: values, by simp [acceptsAll, hbs, accepts_sample],
            by simp [acceptsAll, has]⟩

end

theorem subsumes_iff_accepts {a b : Pattern} :
    a.subsumes b = true ↔ ∀ value, b.accepts value = true → a.accepts value = true := by
  refine ⟨fun h value => accepts_of_subsumes h, fun h => ?_⟩
  by_contra hnot
  obtain ⟨value, hb, ha⟩ := exists_value_of_not_subsumes (Bool.eq_false_iff.2 hnot)
  rw [h value hb] at ha
  cases ha

theorem mem_unreachableFrom {earlier ps : List Pattern} {index i : Nat} :
    i ∈ unreachableFrom earlier index ps ↔
      ∃ k p, i = index + k ∧ ps[k]? = some p ∧ ∃ q ∈ earlier ++ ps.take k, q.subsumes p = true := by
  induction ps generalizing earlier index with
  | nil => simp [unreachableFrom]
  | cons first ps ih =>
      have hmem : i ∈ unreachableFrom earlier index (first :: ps) ↔
          (i = index ∧ ∃ q ∈ earlier, q.subsumes first = true) ∨
            i ∈ unreachableFrom (earlier ++ [first]) (index + 1) ps := by
        rw [unreachableFrom]
        by_cases h : earlier.any (·.subsumes first) = true
        · have hsome : ∃ q ∈ earlier, q.subsumes first = true := by simpa using h
          simp [h, hsome]
        · have hnone : ¬∃ q ∈ earlier, q.subsumes first = true := by simpa using h
          simp [h, hnone]
      rw [hmem, ih]
      constructor
      · rintro (⟨rfl, hq⟩ | ⟨k, p, rfl, hp, hq⟩)
        · exact ⟨0, first, rfl, rfl, by simpa using hq⟩
        · exact ⟨k + 1, p, by omega, hp, by simpa [List.append_assoc] using hq⟩
      · rintro ⟨k, p, rfl, hp, hq⟩
        cases k with
        | zero =>
            obtain rfl : first = p := by simpa using hp
            exact .inl ⟨rfl, by simpa using hq⟩
        | succ k => exact .inr ⟨k, p, by omega, hp, by simpa [List.append_assoc] using hq⟩

theorem mem_unreachable {ps : List Pattern} {i : Nat} :
    i ∈ unreachable ps ↔ ∃ p, ps[i]? = some p ∧ ∃ j < i, ∃ q, ps[j]? = some q ∧
      ∀ value, p.accepts value = true → q.accepts value = true := by
  rw [unreachable, mem_unreachableFrom]
  simp only [List.nil_append, Nat.zero_add, List.mem_take_iff_getElem, ← subsumes_iff_accepts]
  constructor
  · rintro ⟨k, p, rfl, hp, q, ⟨j, hj, rfl⟩, hq⟩
    exact ⟨p, hp, j, by omega, ps[j], List.getElem?_eq_getElem _, hq⟩
  · rintro ⟨p, hp, j, hj, q, hq, hsubsumes⟩
    obtain ⟨hlength, rfl⟩ := List.getElem?_eq_some_iff.1 hq
    exact ⟨i, p, rfl, hp, _, ⟨j, by omega, rfl⟩, hsubsumes⟩

end Pattern

namespace Expr

theorem selectFrom?_eq_some {value body : Expr} {index i : Nat} {bindings : Bindings}
    {cases : List (Pattern × Expr)} (h : value.selectFrom? index cases = some (i, bindings, body)) :
    ∃ k p, i = index + k ∧ cases[k]? = some (p, body) ∧ p.accepts value = true ∧
      ∀ j < k, ∀ q, (cases.map (·.1))[j]? = some q → q.accepts value = false := by
  induction cases generalizing index with
  | nil => cases h
  | cons first rest ih =>
      rcases first with ⟨p, body'⟩
      have hp := Pattern.isSome_matches? p value
      rw [selectFrom?] at h
      cases hmatch : p.matches? value with
      | some found =>
          rw [hmatch] at h hp
          obtain ⟨rfl, rfl, rfl⟩ : index = i ∧ found = bindings ∧ body' = body := by simpa using h
          exact ⟨0, p, rfl, rfl, hp.symm, fun j hj => absurd hj (Nat.not_lt_zero j)⟩
      | none =>
          rw [hmatch] at h hp
          obtain ⟨k, q, rfl, hq, haccepts, hbefore⟩ := ih h
          refine ⟨k + 1, q, by omega, hq, haccepts, fun j hj q' hq' => ?_⟩
          cases j with
          | zero =>
              obtain rfl : p = q' := by simpa using hq'
              exact hp.symm
          | succ j => exact hbefore j (by omega) q' hq'

theorem select?_ne_of_mem_unreachable {cases : List (Pattern × Expr)} {i : Nat}
    (hi : i ∈ Pattern.unreachable (cases.map (·.1))) (value : Expr) (bindings : Bindings)
    (body : Expr) : value.select? cases ≠ some (i, bindings, body) := by
  intro hselect
  obtain ⟨k, p, hk, hp, haccepts, hbefore⟩ := selectFrom?_eq_some hselect
  obtain rfl : i = k := hk.trans (Nat.zero_add k)
  obtain ⟨p', hp', j, hj, q, hq, hall⟩ := Pattern.mem_unreachable.1 hi
  obtain rfl : p = p' := by simpa [hp] using hp'
  exact absurd (hall value haccepts) (by simp [hbefore j hj q hq])

end Expr

namespace Pattern

/-- Subsumption is exact: a pattern subsumes another just when it matches every value that the other
matches. So what is reported as unreachable is never selected, and a place is reported just when one
pattern before it matches all that is matched there. -/
theorem reachability_exact :
    (∀ a b : Pattern, a.subsumes b = true ↔
      ∀ value, (b.matches? value).isSome = true → (a.matches? value).isSome = true) ∧
    (∀ cases : List (Pattern × Expr), ∀ i ∈ unreachable (cases.map (·.1)), ∀ value bindings body,
      Expr.select? value cases ≠ some (i, bindings, body)) ∧
    ∀ (ps : List Pattern) (i : Nat), i ∈ unreachable ps ↔
      ∃ p, ps[i]? = some p ∧ ∃ j < i, ∃ q, ps[j]? = some q ∧
        ∀ value, (p.matches? value).isSome = true → (q.matches? value).isSome = true := by
  simp only [isSome_matches?]
  exact ⟨fun _ _ => subsumes_iff_accepts, fun _ _ => Expr.select?_ne_of_mem_unreachable,
    fun _ _ => mem_unreachable⟩

theorem reachability_exact_nil :
    1 ∈ unreachable (([(.constructor "Nil" [], .const "0"), (.constructor "Nil" [], .const "1"),
      (.var "rest", .const "2")] : List (Pattern × Expr)).map (·.1)) ∧
    (∀ value bindings body, Expr.select? value [(.constructor "Nil" [], .const "0"),
      (.constructor "Nil" [], .const "1"), (.var "rest", .const "2")] ≠ some (1, bindings, body)) ∧
    Expr.select? (.object "Nil") [(.constructor "Nil" [], .const "0"),
      (.constructor "Nil" [], .const "1"), (.var "rest", .const "2")] = some (0, [], .const "0") ∧
    ¬(Pattern.constructor "Nil" []).subsumes (.var "rest") = true := by
  have hmem : 1 ∈ unreachable (([(.constructor "Nil" [], .const "0"),
      (.constructor "Nil" [], .const "1"), (.var "rest", .const "2")] :
      List (Pattern × Expr)).map (·.1)) := by decide
  exact ⟨hmem, reachability_exact.2.1 _ 1 hmem, rfl, by decide⟩

end Pattern

end Formulary
