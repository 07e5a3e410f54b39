import Formulary.Inference.Construction
import Formulary.Proofs.Unquoting
import Mathlib.Data.Nat.Digits.Defs

namespace Formulary

/-- A literal of a natural number: some decimal digits, of any size. -/
def Expr.IsNumeral (e : Expr) (n : Nat) : Prop :=
  ∃ digits : List Nat, digits ≠ [] ∧ (∀ d ∈ digits, d < 10) ∧
    e = .const (String.ofList (digits.map Nat.digitChar)) ∧ n = Nat.ofDigits 10 digits.reverse

theorem Expr.isNumeral_digit (d : Nat) (h : d < 10) :
    IsNumeral (.const (String.ofList [Nat.digitChar d])) d :=
  ⟨[d], List.cons_ne_nil _ _, List.forall_mem_singleton.2 h, rfl, by simp⟩

namespace Text

theorem digitValue?_digitChar : ∀ d < 10, digitValue? (Nat.digitChar d) = some d := by decide

theorem splitSign_digits {digits : List Nat} (h : ∀ d ∈ digits, d < 10) :
    splitSign (digits.map Nat.digitChar) = (1, digits.map Nat.digitChar) := by
  have hsign : ∀ d < 10, Nat.digitChar d ≠ '-' ∧ Nat.digitChar d ≠ '+' := by decide
  cases digits with
  | nil => rfl
  | cons d digits =>
      obtain ⟨hminus, hplus⟩ := hsign d (h d (List.mem_cons_self ..))
      rw [List.map_cons, splitSign]
      · exact fun _ heq => hminus (List.cons.inj heq).1
      · exact fun _ heq => hplus (List.cons.inj heq).1

theorem digitsValue?_digits {digits : List Nat} (h : ∀ d ∈ digits, d < 10) :
    digitsValue? 10 (fun c => (digitValue? c).filter (· < 10)) (digits.map Nat.digitChar) =
      some (Nat.ofDigits 10 digits.reverse) := by
  induction digits using List.reverseRecOn with
  | nil => rfl
  | append_singleton digits d ih =>
      have hd : d < 10 := h d (by simp)
      rw [List.map_append, List.map_singleton, digitsValue?_append,
        ih fun x hx => h x (List.mem_append_left _ hx), List.reverse_append, List.reverse_singleton,
        List.singleton_append, Nat.ofDigits_cons, Option.bind_some, digitValue?_digitChar d hd]
      simp [hd, Nat.add_comm, Nat.mul_comm]

theorem integer?_digits {digits : List Nat} {n : Nat} (hne : digits ≠ [])
    (h : ∀ d ∈ digits, d < 10) (hn : n = Nat.ofDigits 10 digits.reverse) :
    integer? (digits.map Nat.digitChar) = if n < 2 ^ 63 then some (n : Int) else none := by
  have hsome : (digits.map Nat.digitChar).isEmpty = false := by simpa using hne
  have hword : isWord (n : Int) = decide (n < 2 ^ 63) := by
    rw [Bool.eq_iff_iff]
    simp only [isWord, Bool.and_eq_true, decide_eq_true_eq]
    omega
  rw [integer?, splitSign_digits h]
  simp only [hsome, Bool.false_eq_true, if_false]
  rw [digitsValue?_digits h, ← hn]
  show Option.filter isWord (some (1 * (n : Int))) = _
  rw [Int.one_mul, Option.filter_some, hword]
  simp only [decide_eq_true_eq]

end Text

namespace Inference

theorem dimension?_of_isNumeral {e : Expr} {n : Nat} (h : e.IsNumeral n) :
    dimension? e = if n < 2 ^ 63 then some n else none := by
  obtain ⟨digits, hne, hdigits, rfl, hn⟩ := h
  rw [dimension?, String.toList_ofList, Text.integer?_digits hne hdigits hn]
  split
  · rw [Option.filter_some, if_pos (decide_eq_true (Int.natCast_nonneg n)), Option.map_some,
      Int.toNat_natCast]
  · rfl

theorem mapM_dimension?_eq_some_iff {es : List Expr} {ns : List Nat}
    (h : List.Forall₂ Expr.IsNumeral es ns) {dims : List Nat} :
    es.mapM dimension? = some dims ↔ dims = ns ∧ ∀ n ∈ ns, n < 2 ^ 63 := by
  induction h generalizing dims with
  | nil => simp [eq_comm]
  | @cons e n es ns he _ ih =>
      rw [List.mapM_cons, dimension?_of_isNumeral he, List.forall_mem_cons]
      by_cases hn : n < 2 ^ 63
      · rw [if_pos hn]
        constructor
        · intro h
          obtain ⟨_, ⟨⟩, h⟩ := Option.bind_eq_some_iff.1 h
          obtain ⟨dims', hdims, heq⟩ := Option.bind_eq_some_iff.1 h
          cases heq
          obtain ⟨rfl, hns⟩ := ih.1 hdims
          exact ⟨rfl, hn, hns⟩
        · rintro ⟨rfl, -, hns⟩
          exact Option.bind_eq_some_iff.2
            ⟨n, rfl, Option.bind_eq_some_iff.2 ⟨ns, ih.2 ⟨rfl, hns⟩, rfl⟩⟩
      · rw [if_neg hn]
        exact iff_of_false (Option.some_ne_none _).symm fun h => hn h.2.1

/-- No dimension is above a bound, and no number of elements up to some dimension is. -/
def StaysWithin (bound : Nat) (dims : List Nat) : Prop :=
  (∀ d ∈ dims, d ≤ bound) ∧ ∀ front, front <+: dims → front.prod ≤ bound

theorem foldlM_count_eq_some_iff {bound n m : Nat} (dims : List Nat) (hn : n ≤ bound) :
    dims.foldlM (fun n d => if d ≤ bound ∧ n * d ≤ bound then some (n * d) else none) n = some m ↔
      m = n * dims.prod ∧ (∀ d ∈ dims, d ≤ bound) ∧
        ∀ front, front <+: dims → n * front.prod ≤ bound := by
  induction dims generalizing n with
  | nil => simp [hn, eq_comm]
  | cons d dims ih =>
      have hprefix : (∀ front, front <+: d :: dims → n * front.prod ≤ bound) ↔
          ∀ front, front <+: dims → n * d * front.prod ≤ bound := by
        constructor
        · intro h front hfront
          rw [Nat.mul_assoc, ← List.prod_cons]
          exact h _ ((List.prefix_cons_inj d).2 hfront)
        · intro h front hfront
          rcases List.prefix_cons_iff.1 hfront with rfl | ⟨rest, rfl, hrest⟩
          · simpa using hn
          · rw [List.prod_cons, ← Nat.mul_assoc]
            exact h rest hrest
      rw [List.foldlM_cons, hprefix, List.forall_mem_cons, List.prod_cons, ← Nat.mul_assoc]
      by_cases hd : d ≤ bound ∧ n * d ≤ bound
      · rw [if_pos hd]
        refine (ih hd.2).trans ?_
        simp only [hd.1, true_and]
      · rw [if_neg hd]
        refine iff_of_false (Option.some_ne_none _).symm fun h => hd ⟨h.2.1.1, ?_⟩
        simpa using h.2.2 [] List.nil_prefix

theorem elementCount?_eq_some_iff {bound m : Nat} {dims : List Nat} (hbound : 0 < bound) :
    elementCount? bound dims = some m ↔ m = dims.prod ∧ StaysWithin bound dims := by
  rw [elementCount?, foldlM_count_eq_some_iff dims hbound]
  simp only [Nat.one_mul]
  rfl

theorem staysWithin_of_prod_le {bound : Nat} {dims : List Nat} (h : 0 ∉ dims)
    (hle : dims.prod ≤ bound) : StaysWithin bound dims := by
  have hpos : 0 < dims.prod := Nat.pos_of_ne_zero fun h0 => h (List.prod_eq_zero_iff.1 h0)
  refine ⟨fun d hd => (Nat.le_of_dvd hpos (List.dvd_prod hd)).trans hle, ?_⟩
  rintro front ⟨rest, rfl⟩
  rw [List.prod_append] at hpos hle
  exact (Nat.le_of_dvd hpos (Nat.dvd_mul_right ..)).trans hle

/-- One more dimension, multiplied with numbers of sixty-four bits. -/
def wordStep? (bound : Nat) (n : Int) (d : Nat) : Option Int :=
  let m := (n * d).bmod 0x10000000000000000
  if d ≤ bound ∧ m ≤ bound then some m else none

/-- The number of elements of a shape, counted with numbers of sixty-four bits. -/
def wordCount? (bound : Nat) (dims : List Nat) : Option Int := dims.foldlM (wordStep? bound) 1

theorem wordStep?_eq {bound n : Nat} (hn : n ≤ bound) (hbound : bound * bound < 2 ^ 63) (d : Nat) :
    wordStep? bound n d =
      (if d ≤ bound ∧ n * d ≤ bound then some (n * d) else none).map fun m : Nat => (m : Int) := by
  unfold wordStep?
  dsimp only
  by_cases hd : d ≤ bound
  · have hlt : n * d < 2 ^ 63 := (Nat.mul_le_mul hn hd).trans_lt hbound
    have hmod : ((n : Int) * d).bmod 0x10000000000000000 = (n * d : Nat) := by
      rw [← Nat.cast_mul]
      exact Int.bmod_eq_of_le (by omega) (by omega)
    rw [hmod]
    by_cases hm : n * d ≤ bound
    · rw [if_pos ⟨hd, Int.ofNat_le.2 hm⟩, if_pos ⟨hd, hm⟩, Option.map_some]
    · rw [if_neg fun h => hm (Int.ofNat_le.1 h.2), if_neg fun h => hm h.2, Option.map_none]
  · rw [if_neg fun h => hd h.1, if_neg fun h => hd h.1, Option.map_none]

theorem wordCount?_eq {bound : Nat} (dims : List Nat) (hpos : 0 < bound)
    (hbound : bound * bound < 2 ^ 63) :
    wordCount? bound dims = (elementCount? bound dims).map fun m : Nat => (m : Int) := by
  have hfold : ∀ n : Nat, n ≤ bound → dims.foldlM (wordStep? bound) (n : Int) =
      (dims.foldlM (fun n d => if d ≤ bound ∧ n * d ≤ bound then some (n * d) else none) n).map
        fun m : Nat => (m : Int) := by
    induction dims with
    | nil => exact fun _ _ => rfl
    | cons d dims ih =>
        intro n hn
        rw [List.foldlM_cons, List.foldlM_cons, wordStep?_eq hn hbound]
        by_cases hstep : d ≤ bound ∧ n * d ≤ bound
        · rw [if_pos hstep]
          exact ih _ hstep.2
        · rw [if_neg hstep]
          rfl
  exact hfold 1 hpos

end Inference

end Formulary
