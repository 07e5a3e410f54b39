import Formulary.Text.Suggestion
import Mathlib.Order.Bounds.Basic

namespace Formulary.Text

/-- One text comes from another by inserting, deleting or replacing one character. -/
inductive Edit : List Char → List Char → Prop where
  | insertion (before : List Char) (c : Char) (rest : List Char) :
    Edit (before ++ rest) (before ++ c :: rest)
  | deletion (before : List Char) (c : Char) (rest : List Char) :
    Edit (before ++ c :: rest) (before ++ rest)
  | replacement (before : List Char) (c d : Char) (rest : List Char) :
    Edit (before ++ c :: rest) (before ++ d :: rest)

/-- One text comes from another by a number of edits, one after the other. -/
inductive Edits : Nat → List Char → List Char → Prop where
  | refl (s : List Char) : Edits 0 s s
  | step {n : Nat} {s t u : List Char} (first : Edit s t) (rest : Edits n t u) : Edits (n + 1) s u

theorem Edit.cons {s t : List Char} (h : Edit s t) (c : Char) : Edit (c :: s) (c :: t) := by
  cases h with
  | insertion before d rest => exact .insertion (c :: before) d rest
  | deletion before d rest => exact .deletion (c :: before) d rest
  | replacement before d e rest => exact .replacement (c :: before) d e rest

theorem Edit.reverse {s t : List Char} (h : Edit s t) : Edit s.reverse t.reverse := by
  cases h with
  | insertion before c rest => simpa using Edit.insertion rest.reverse c before.reverse
  | deletion before c rest => simpa using Edit.deletion rest.reverse c before.reverse
  | replacement before c d rest => simpa using Edit.replacement rest.reverse c d before.reverse

namespace Edits

theorem cons {n : Nat} {s t : List Char} (h : Edits n s t) (c : Char) :
    Edits n (c :: s) (c :: t) := by
  induction h with
  | refl s => exact .refl _
  | step first _ ih => exact .step (first.cons c) ih

theorem reverse {n : Nat} {s t : List Char} (h : Edits n s t) :
    Edits n s.reverse t.reverse := by
  induction h with
  | refl s => exact .refl _
  | step first _ ih => exact .step first.reverse ih

theorem reverse_iff {n : Nat} {s t : List Char} :
    Edits n s.reverse t.reverse ↔ Edits n s t :=
  ⟨fun h => by simpa using h.reverse, Edits.reverse⟩

theorem snoc {n : Nat} {s t u : List Char} (h : Edits n s t) (last : Edit t u) :
    Edits (n + 1) s u := by
  induction h with
  | refl s => exact .step last (.refl _)
  | step first _ ih => exact .step first (ih last)

theorem min {m n : Nat} {s t : List Char} (h : Edits m s t) (h' : Edits n s t) :
    Edits (min m n) s t := by
  rcases Nat.le_total m n with hle | hle
  · rwa [Nat.min_eq_left hle]
  · rwa [Nat.min_eq_right hle]

end Edits

/-- The Levenshtein distance: the first character is deleted, or that of the other text inserted, or
the one replaced by the other, whichever leaves the least to do. -/
def levenshtein : List Char → List Char → Nat
  | [], t => t.length
  | c :: s, [] => (c :: s).length
  | c :: s, d :: t =>
    min (min (levenshtein s (d :: t) + 1) (levenshtein (c :: s) t + 1))
      (levenshtein s t + if c = d then 0 else 1)

@[simp] theorem levenshtein_nil_right (s : List Char) : levenshtein s [] = s.length := by
  cases s <;> simp [levenshtein]

theorem levenshtein_self (s : List Char) : levenshtein s s = 0 := by
  induction s with
  | nil => simp
  | cons c s ih => simp [levenshtein, ih]

theorem levenshtein_le_left (c : Char) (s t : List Char) :
    levenshtein (c :: s) t ≤ levenshtein s t + 1 := by
  cases t with
  | nil => simp
  | cons d t =>
      simp only [levenshtein]
      omega

theorem levenshtein_le_right (s : List Char) (d : Char) (t : List Char) :
    levenshtein s (d :: t) ≤ levenshtein s t + 1 := by
  cases s with
  | nil => simp [levenshtein]
  | cons c s =>
      simp only [levenshtein]
      omega

theorem levenshtein_le_both (c : Char) (s : List Char) (d : Char) (t : List Char) :
    levenshtein (c :: s) (d :: t) ≤ levenshtein s t + 1 := by
  simp only [levenshtein]
  split <;> omega

theorem levenshtein_le_insertion (c : Char) (s t : List Char) :
    levenshtein s t ≤ levenshtein (c :: s) t + 1 := by
  induction t with
  | nil =>
      simp only [levenshtein_nil_right, List.length_cons]
      omega
  | cons d t ih =>
      have := levenshtein_le_right s d t
      simp only [levenshtein]
      omega

theorem levenshtein_le_replacement (c d : Char) (s t : List Char) :
    levenshtein (c :: s) t ≤ levenshtein (d :: s) t + 1 := by
  induction t with
  | nil => simp
  | cons e t ih =>
      have := levenshtein_le_left c s (e :: t)
      have := levenshtein_le_right (c :: s) e t
      have := levenshtein_le_both c s e t
      rw [levenshtein.eq_def (d :: s)]
      dsimp only
      omega

theorem levenshtein_cons_le {s s' : List Char}
    (h : ∀ t, levenshtein s t ≤ levenshtein s' t + 1) (c : Char) (t : List Char) :
    levenshtein (c :: s) t ≤ levenshtein (c :: s') t + 1 := by
  induction t with
  | nil => simpa using h []
  | cons d t ih =>
      have := h (d :: t)
      have := h t
      simp only [levenshtein]
      omega

theorem levenshtein_le_of_edit {s s' : List Char} (h : Edit s s') (t : List Char) :
    levenshtein s t ≤ levenshtein s' t + 1 := by
  have behind {r r' : List Char} (h : ∀ t, levenshtein r t ≤ levenshtein r' t + 1)
      (before t : List Char) : levenshtein (before ++ r) t ≤ levenshtein (before ++ r') t + 1 := by
    induction before generalizing t with
    | nil => exact h t
    | cons c before ih => exact levenshtein_cons_le ih c t
  cases h with
  | insertion before c rest => exact behind (levenshtein_le_insertion c rest) before t
  | deletion before c rest => exact behind (levenshtein_le_left c rest) before t
  | replacement before c d rest => exact behind (levenshtein_le_replacement c d rest) before t

theorem levenshtein_le_of_edits {n : Nat} {s t : List Char} (h : Edits n s t) :
    levenshtein s t ≤ n := by
  induction h with
  | refl s => exact (levenshtein_self s).le
  | @step n s t u first _ ih =>
      have := levenshtein_le_of_edit first u
      omega

/-- There is a way with that many edits. -/
theorem edits_levenshtein (s t : List Char) : Edits (levenshtein s t) s t := by
  match s, t with
  | [], [] => simpa using Edits.refl []
  | [], d :: t =>
      simpa [levenshtein] using (edits_levenshtein [] t).snoc (.insertion [] d t)
  | c :: s, [] =>
      simpa using Edits.step (.deletion [] c s) (edits_levenshtein s [])
  | c :: s, d :: t =>
      have hdelete : Edits (levenshtein s (d :: t) + 1) (c :: s) (d :: t) :=
        .step (.deletion [] c s) (edits_levenshtein s (d :: t))
      have hinsert : Edits (levenshtein (c :: s) t + 1) (c :: s) (d :: t) :=
        (edits_levenshtein (c :: s) t).snoc (.insertion [] d t)
      have hreplace : Edits (levenshtein s t + if c = d then 0 else 1) (c :: s) (d :: t) := by
        split
        · rename_i heq
          exact heq ▸ (edits_levenshtein s t).cons c
        · exact .step (.replacement [] c d s) ((edits_levenshtein s t).cons d)
      rw [levenshtein]
      exact (hdelete.min hinsert).min hreplace
termination_by s.length + t.length

theorem isLeast_levenshtein (s t : List Char) : IsLeast {n | Edits n s t} (levenshtein s t) :=
  ⟨edits_levenshtein s t, fun _ h => levenshtein_le_of_edits h⟩

theorem levenshtein_reverse (s t : List Char) :
    levenshtein s.reverse t.reverse = levenshtein s t := by
  refine (isLeast_levenshtein s.reverse t.reverse).unique ?_
  simpa only [Edits.reverse_iff] using isLeast_levenshtein s t

/-- The distances of a text from all beginnings of another one that are longer than `read`. Texts
that have been read stand with their last character first. -/
def distances (source read : List Char) : List Char → List Nat
  | [] => []
  | d :: rest => levenshtein source (d :: read) :: distances source (d :: read) rest

theorem distanceRow_eq (c : Char) (source read rest : List Char) :
    distanceRow c (levenshtein (c :: source) read) (levenshtein source read) rest
      (distances source read rest) = distances (c :: source) read rest := by
  induction rest generalizing read with
  | nil => rfl
  | cons d rest ih =>
      simp only [distances, distanceRow]
      rw [← ih (d :: read), levenshtein]

theorem distanceRows_eq (target source cs : List Char) :
    distanceRows target source.length (source.length :: distances source [] target) cs =
      (cs.reverseAux source).length :: distances (cs.reverseAux source) [] target := by
  induction cs generalizing source with
  | nil => rfl
  | cons c cs ih =>
      have hrow := distanceRow_eq c source [] target
      simp only [levenshtein_nil_right, List.length_cons] at hrow
      simp only [distanceRows, List.headD_cons, List.tail_cons, hrow]
      exact ih (c :: source)

theorem range'_eq_distances (read rest : List Char) :
    List.range' (read.length + 1) rest.length = distances [] read rest := by
  induction rest generalizing read with
  | nil => rfl
  | cons d rest ih =>
      simp only [List.length_cons, List.range'_succ, distances, levenshtein]
      exact congrArg _ (ih (d :: read))

theorem getLastD_distances (source read rest : List Char) :
    (distances source read rest).getLastD (levenshtein source read) =
      levenshtein source (rest.reverseAux read) := by
  induction rest generalizing read with
  | nil => rfl
  | cons d rest ih =>
      rw [distances, List.getLastD_cons]
      exact ih (d :: read)

theorem editDistance_eq_levenshtein (source target : String) :
    editDistance source target = levenshtein source.toList target.toList := by
  have hstart : List.range (target.toList.length + 1) =
      ([] : List Char).length :: distances [] [] target.toList := by
    rw [List.range_eq_range', List.range'_succ, ← range'_eq_distances]
    rfl
  rw [editDistance, hstart]
  calc (distanceRows target.toList ([] : List Char).length
        (([] : List Char).length :: distances [] [] target.toList) source.toList).getLastD 0
      = (distances source.toList.reverse [] target.toList).getLastD
          (levenshtein source.toList.reverse []) := by
        rw [distanceRows_eq, List.getLastD_cons, levenshtein_nil_right]
        rfl
    _ = levenshtein source.toList.reverse target.toList.reverse := getLastD_distances ..
    _ = levenshtein source.toList target.toList := levenshtein_reverse ..

end Formulary.Text
