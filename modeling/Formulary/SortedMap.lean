/-!
Finite maps as lists of entries in the order of their keys. A map has one list, so it can be shown,
compared and walked through without further choices.
-/

namespace Formulary

/-- Keys with a linear order. -/
class KeyOrder (κ : Type) extends LT κ where
  irrefl (a : κ) : ¬a < a
  trans {a b c : κ} : a < b → b < c → a < c
  trichotomy (a b : κ) : a < b ∨ a = b ∨ b < a

instance : KeyOrder Int where
  irrefl := Int.lt_irrefl
  trans := Int.lt_trans
  trichotomy := Int.lt_trichotomy

instance : KeyOrder String where
  irrefl := String.lt_irrefl
  trans := String.lt_trans
  trichotomy a b := by
    by_cases hab : a < b
    · exact .inl hab
    · by_cases hba : b < a
      · exact .inr (.inr hba)
      · exact .inr (.inl (String.le_antisymm (String.not_lt.1 hba) (String.not_lt.1 hab)))

structure SortedMap (κ α : Type) [KeyOrder κ] where
  entries : List (κ × α)
  sorted : entries.Pairwise (·.1 < ·.1)

namespace SortedMap

variable {κ α β : Type} [KeyOrder κ] [DecidableEq κ]

def empty : SortedMap κ α := ⟨[], .nil⟩

instance : EmptyCollection (SortedMap κ α) := ⟨empty⟩

def size (m : SortedMap κ α) : Nat := m.entries.length

def isEmpty (m : SortedMap κ α) : Bool := m.entries.isEmpty

def keys (m : SortedMap κ α) : List κ := m.entries.map (·.1)

def get? (m : SortedMap κ α) (k : κ) : Option α := (m.entries.find? (·.1 = k)).map (·.2)

def contains (m : SortedMap κ α) (k : κ) : Bool := (m.get? k).isSome

/-- Changes the values and keeps the keys. -/
def mapValues (m : SortedMap κ α) (f : α → β) : SortedMap κ β :=
  ⟨m.entries.map fun (k, v) => (k, f v), by
    rw [List.pairwise_map]
    exact m.sorted⟩

/-- Keeps the entries that pass a test. -/
def filter (m : SortedMap κ α) (p : κ → α → Bool) : SortedMap κ α :=
  ⟨m.entries.filter fun (k, v) => p k v, m.sorted.filter _⟩

@[simp] theorem get?_empty (k : κ) : (∅ : SortedMap κ α).get? k = none := rfl

theorem get?_mapValues (m : SortedMap κ α) (f : α → β) (k : κ) :
    (m.mapValues f).get? k = (m.get? k).map f := by
  simp only [get?, mapValues, List.find?_map, Option.map_map]
  rfl

theorem get?_eq_some_iff (m : SortedMap κ α) (k : κ) (v : α) :
    m.get? k = some v ↔ (k, v) ∈ m.entries := by
  obtain ⟨entries, sorted⟩ := m
  simp only [get?]
  induction entries with
  | nil => simp
  | cons e rest ih =>
    obtain ⟨k₀, v₀⟩ := e
    have hcons := List.pairwise_cons.1 sorted
    by_cases h : k₀ = k
    · subst h
      have hnot : (k₀, v) ∉ rest := fun hmem => KeyOrder.irrefl k₀ (hcons.1 _ hmem)
      simp [hnot, eq_comm]
    · have h' : k ≠ k₀ := fun heq => h heq.symm
      simp only [List.find?_cons, h, decide_false, List.mem_cons, Prod.mk.injEq, h', false_and,
        false_or]
      exact ih hcons.2

omit [DecidableEq κ] in
theorem distinct (m : SortedMap κ α) : m.entries.Pairwise (·.1 ≠ ·.1) :=
  m.sorted.imp fun hlt => fun heq => KeyOrder.irrefl _ (heq ▸ hlt)

theorem get?_eq_none_of_isEmpty {m : SortedMap κ α} (h : m.isEmpty = true) (k : κ) :
    m.get? k = none := by
  have : m.entries = [] := by simpa [isEmpty] using h
  simp [get?, this]

variable [DecidableLT κ]

/-- Puts an entry in its place, over the entry of the same key if there is one. -/
def insertEntry (k : κ) (v : α) : List (κ × α) → List (κ × α)
  | [] => [(k, v)]
  | (k', v') :: rest =>
    if k < k' then (k, v) :: (k', v') :: rest
    else if k = k' then (k, v) :: rest
    else (k', v') :: insertEntry k v rest

theorem key_mem_insertEntry {k : κ} {v : α} {l : List (κ × α)} {e : κ × α}
    (h : e ∈ insertEntry k v l) : e = (k, v) ∨ e ∈ l := by
  induction l with
  | nil => simpa [insertEntry] using h
  | cons head rest ih =>
    obtain ⟨k', v'⟩ := head
    simp only [insertEntry] at h
    split at h
    · simpa using h
    · split at h
      · rcases List.mem_cons.1 h with rfl | h
        · exact .inl rfl
        · exact .inr (List.mem_cons_of_mem _ h)
      · rcases List.mem_cons.1 h with rfl | h
        · exact .inr (List.mem_cons_self ..)
        · rcases ih h with rfl | h
          · exact .inl rfl
          · exact .inr (List.mem_cons_of_mem _ h)

theorem insertEntry_sorted {k : κ} {v : α} {l : List (κ × α)}
    (h : l.Pairwise (·.1 < ·.1)) : (insertEntry k v l).Pairwise (·.1 < ·.1) := by
  induction l with
  | nil => simp [insertEntry]
  | cons head rest ih =>
    obtain ⟨k', v'⟩ := head
    have hrest := List.pairwise_cons.1 h
    simp only [insertEntry]
    split
    · rename_i hlt
      refine List.pairwise_cons.2 ⟨fun e he => ?_, h⟩
      rcases List.mem_cons.1 he with rfl | he
      · exact hlt
      · exact KeyOrder.trans hlt (hrest.1 e he)
    · split
      · rename_i heq
        exact List.pairwise_cons.2 ⟨fun e he => heq ▸ hrest.1 e he, hrest.2⟩
      · rename_i hlt hne
        refine List.pairwise_cons.2 ⟨fun e he => ?_, ih hrest.2⟩
        rcases key_mem_insertEntry he with rfl | he
        · rcases KeyOrder.trichotomy k k' with h' | h' | h'
          · exact absurd h' hlt
          · exact absurd h' hne
          · exact h'
        · exact hrest.1 e he

def insert (m : SortedMap κ α) (k : κ) (v : α) : SortedMap κ α :=
  ⟨insertEntry k v m.entries, insertEntry_sorted m.sorted⟩

def insertAll (m : SortedMap κ α) (entries : List (κ × α)) : SortedMap κ α :=
  entries.foldl (fun m (k, v) => m.insert k v) m

def ofList (entries : List (κ × α)) : SortedMap κ α := insertAll ∅ entries

/-- Adds the entries of the other map whose keys are missing. -/
def union (m other : SortedMap κ α) : SortedMap κ α :=
  m.insertAll (other.entries.filter fun (k, _) => !m.contains k)

theorem find?_insertEntry (k k' : κ) (v : α) (l : List (κ × α)) :
    ((insertEntry k v l).find? (·.1 = k')).map (·.2) =
      if k = k' then some v else (l.find? (·.1 = k')).map (·.2) := by
  induction l with
  | nil => by_cases h : k = k' <;> simp [insertEntry, h]
  | cons head rest ih =>
    obtain ⟨k₀, v₀⟩ := head
    simp only [insertEntry]
    split
    · by_cases h : k = k' <;> simp [List.find?_cons, h]
    · split
      · rename_i heq
        subst heq
        by_cases h : k = k' <;> simp [h]
      · rename_i hne
        by_cases h₀ : k₀ = k'
        · have : k ≠ k' := fun h => hne (h.trans h₀.symm)
          simp [h₀, this]
        · simp only [List.find?_cons, h₀, decide_false]
          exact ih

theorem get?_insert (m : SortedMap κ α) (k k' : κ) (v : α) :
    (m.insert k v).get? k' = if k = k' then some v else m.get? k' :=
  find?_insertEntry k k' v m.entries

theorem get?_insertAll_of_notMem {entries : List (κ × α)} {k : κ}
    (h : ∀ e ∈ entries, e.1 ≠ k) (m : SortedMap κ α) :
    (m.insertAll entries).get? k = m.get? k := by
  induction entries generalizing m with
  | nil => rfl
  | cons e rest ih =>
    have hne : e.1 ≠ k := h e (List.mem_cons_self ..)
    have hrest := ih (fun e' he' => h e' (List.mem_cons_of_mem _ he')) (m.insert e.1 e.2)
    simp only [insertAll, List.foldl_cons] at hrest ⊢
    rw [hrest, get?_insert, if_neg hne]

theorem get?_insertAll_of_mem {entries : List (κ × α)} {k : κ} {v : α}
    (hdistinct : entries.Pairwise (·.1 ≠ ·.1)) (h : (k, v) ∈ entries) (m : SortedMap κ α) :
    (m.insertAll entries).get? k = some v := by
  induction entries generalizing m with
  | nil => simp at h
  | cons e rest ih =>
    have hcons := List.pairwise_cons.1 hdistinct
    simp only [insertAll, List.foldl_cons]
    rcases List.mem_cons.1 h with rfl | h
    · have hne : ∀ e' ∈ rest, e'.1 ≠ k := fun e' he' heq => hcons.1 e' he' heq.symm
      have := get?_insertAll_of_notMem hne (m.insert k v)
      simp only [insertAll] at this
      rw [this, get?_insert, if_pos rfl]
    · exact ih hcons.2 h (m.insert e.1 e.2)

theorem get?_union (m other : SortedMap κ α) (k : κ) :
    (m.union other).get? k = (m.get? k).or (other.get? k) := by
  unfold union
  cases hm : m.get? k with
  | some v =>
    rw [get?_insertAll_of_notMem, hm]
    · rfl
    · intro e he heq
      have := (List.mem_filter.1 he).2
      simp [contains, heq, hm] at this
  | none =>
    cases ho : other.get? k with
    | none =>
      rw [get?_insertAll_of_notMem, hm]
      · rfl
      · rintro ⟨k', v'⟩ he rfl
        have := (get?_eq_some_iff other k' v').2 (List.mem_filter.1 he).1
        simp [this] at ho
    | some v =>
      have hmem := (get?_eq_some_iff other k v).1 ho
      rw [get?_insertAll_of_mem (other.distinct.filter _) (List.mem_filter.2 ⟨hmem, ?_⟩)]
      · rfl
      · simp [contains, hm]

end SortedMap

end Formulary
