import Mathlib.Data.List.Sort
import Formulary.Proofs.Ordering

namespace Formulary.Definition

/-- Vertices that reach each other. -/
def Connected (next : Nat → List Nat) (v w : Nat) : Prop := Reaches next v w ∧ Reaches next w v

section

variable {next : Nat → List Nat} {u v w : Nat}

theorem Connected.refl (next : Nat → List Nat) (v : Nat) : Connected next v v := ⟨.refl, .refl⟩

theorem Connected.symm (h : Connected next v w) : Connected next w v := ⟨h.2, h.1⟩

theorem Connected.trans (h : Connected next u v) (h' : Connected next v w) : Connected next u w :=
  ⟨h.1.trans h'.1, h'.2.trans h.2⟩

/-- What lies on a way between connected vertices is connected to them. -/
theorem Connected.between (h : Reaches next u v) (h' : Reaches next v w) (hback : Reaches next w u) :
    Connected next u v :=
  ⟨h, h'.trans hback⟩

theorem exists_exit {p : Nat → Prop} (h : Reaches next v w) (hv : p v) (hw : ¬p w) :
    ∃ x y, Reaches next v x ∧ p x ∧ y ∈ next x ∧ ¬p y ∧ Reaches next y w := by
  induction h with
  | refl => exact absurd hv hw
  | @tail x y hpath hstep ih =>
      by_cases hx : p x
      · exact ⟨x, y, hpath, hx, hstep, hw, .refl⟩
      · obtain ⟨x', y', hpath', hx', hstep', hy', hrest⟩ := ih hx
        exact ⟨x', y', hpath', hx', hstep', hy', hrest.tail hstep⟩

theorem Walk.Orderly.exists_pending {pending : List Nat} {walk : Walk}
    (h : walk.Orderly next pending) (hv : v ∈ walk.entered) (hw : w ∉ walk.entered)
    (hreach : Reaches next v w) : ∃ u ∈ pending, Reaches next v u ∧ Reaches next u w := by
  obtain ⟨x, y, hx, hxentered, hstep, hyentered, hy⟩ := exists_exit hreach hv hw
  rcases (h.entered x).1 hxentered with hleft | hopen
  · exact absurd (h.followed x hleft y hstep) hyentered
  · exact ⟨x, hopen, hx, .head hstep hy⟩

end

theorem lastOccurrences_concat {f : Nat → List Nat} {l : List Nat} {v : Nat}
    (h : ∀ x ∈ l, ∀ y ∈ l, y ∈ f x → (v ∈ f x ↔ v ∈ f y)) :
    lastOccurrences f (l ++ [v]) = lastOccurrences f (l.filter (v ∉ f ·)) ++ [f v] := by
  induction l with
  | nil => rfl
  | cons x l ih =>
      have hrest := ih fun y hy z hz => h y (List.mem_cons_of_mem _ hy) z (List.mem_cons_of_mem _ hz)
      by_cases hx : v ∈ f x
      · rw [List.filter_cons_of_neg (by simpa using hx), ← hrest, List.cons_append, lastOccurrences,
          if_pos (by simp [hx])]
      · have hsame : (l ++ [v]).any (· ∈ f x) = (l.filter (v ∉ f ·)).any (· ∈ f x) := by
          rw [Bool.eq_iff_iff, List.any_eq_true, List.any_eq_true]
          constructor
          · rintro ⟨y, hy, hmem⟩
            have hmem := of_decide_eq_true hmem
            rcases List.mem_append.1 hy with hy | hy
            · have hy' : v ∉ f y := mt (h x (by simp) y (List.mem_cons_of_mem _ hy) hmem).2 hx
              exact ⟨y, List.mem_filter.2 ⟨hy, decide_eq_true hy'⟩, decide_eq_true hmem⟩
            · exact absurd (List.mem_singleton.1 hy ▸ hmem) hx
          · rintro ⟨y, hy, hmem⟩
            exact ⟨y, List.mem_append_left _ (List.mem_filter.1 hy).1, hmem⟩
        rw [List.filter_cons_of_pos (by simpa using hx), List.cons_append, lastOccurrences, hrest,
          hsame, lastOccurrences]
        split
        · rfl
        · rfl

theorem component_pairwise (n : Nat) (next : Nat → List Nat) (v : Nat) :
    (component n next v).Pairwise (· < ·) :=
  List.pairwise_lt_range.filter _

theorem mergeSort_eq_of_mem_iff {l l' : List Nat} (hl : l.Nodup) (hl' : l'.Pairwise (· < ·))
    (h : ∀ x, x ∈ l ↔ x ∈ l') : l.mergeSort = l' := by
  have hperm : l.mergeSort.Perm l' :=
    (List.mergeSort_perm l _).trans ((List.perm_ext_iff_of_nodup hl (hl'.imp Nat.ne_of_lt)).2 h)
  exact hperm.eq_of_pairwise (fun _ _ _ _ => Nat.le_antisymm) (List.pairwise_mergeSort' (· ≤ ·) l)
    (hl'.imp Nat.le_of_lt)

namespace Search

section

variable {α : Type} (f : Nat → α) (v : Nat) (x : α)

@[simp] theorem put_self : put f v x v = x := if_pos rfl

theorem put_of_ne {w : Nat} (h : w ≠ v) : put f v x w = f w := if_neg h

end

section

variable (s : Search) (v number : Nat)

theorem visited_enter_self : (s.enter v).visited v = s.count + 1 := put_self ..

theorem visited_enter_of_ne {w : Nat} (h : w ≠ v) : (s.enter v).visited w = s.visited w :=
  put_of_ne _ _ _ h

theorem low_enter_self : (s.enter v).low v = s.count + 1 := put_self ..

theorem low_enter_of_ne {w : Nat} (h : w ≠ v) : (s.enter v).low w = s.low w := put_of_ne _ _ _ h

theorem low_lower_self : (s.lower v number).low v = min (s.low v) number := put_self ..

theorem low_lower_of_ne {w : Nat} (h : w ≠ v) : (s.lower v number).low w = s.low w :=
  put_of_ne _ _ _ h

end

/-- A search that is as far as a walk. Of the vertices entered, those are on the stack whose component
has a vertex that is still open, and the components of the others are complete. -/
structure Follows (n : Nat) (next : Nat → List Nat) (pending : List Nat) (walk : Walk) (s : Search) :
    Prop where
  orderly : walk.Orderly next pending
  bounded : walk.Bounded n
  visited_ne_zero_iff : ∀ x, s.visited x ≠ 0 ↔ x ∈ walk.entered
  visited_le : ∀ x, s.visited x ≤ s.count
  ascending : s.stack.Pairwise (s.visited · < s.visited ·)
  onStack_iff : ∀ x, s.onStack x = true ↔ x ∈ s.stack
  mem_stack_iff : ∀ x, x ∈ s.stack ↔ x ∈ walk.entered ∧ ∃ u ∈ pending, Connected next x u
  groups_eq : s.groups = lastOccurrences (component n next) (walk.left.filter (· ∉ s.stack))

variable {n : Nat} {next : Nat → List Nat} {pending : List Nat} {walk : Walk} {s : Search} {v : Nat}

theorem follows_start (n : Nat) (next : Nat → List Nat) : Follows n next [] ⟨[], []⟩ start where
  orderly := ⟨List.nodup_nil, by simp, nofun, by simp⟩
  bounded := ⟨nofun, nofun⟩
  visited_ne_zero_iff x := by simp [start]
  visited_le _ := Nat.le_refl 0
  ascending := .nil
  onStack_iff x := by simp [start]
  mem_stack_iff x := by simp [start]
  groups_eq := rfl

theorem Follows.mem_entered (h : s.Follows n next pending walk) {x : Nat} (hx : x ∈ s.stack) :
    x ∈ walk.entered :=
  ((h.mem_stack_iff x).1 hx).1

theorem Follows.nodup_stack (h : s.Follows n next pending walk) : s.stack.Nodup :=
  h.ascending.imp fun {x y} hlt (heq : x = y) => absurd hlt (heq ▸ Nat.lt_irrefl _)

/-- The least numbers found are no part of how far a search is. -/
theorem Follows.lower (h : s.Follows n next pending walk) (v number : Nat) :
    (s.lower v number).Follows n next pending walk :=
  ⟨h.orderly, h.bounded, h.visited_ne_zero_iff, h.visited_le, h.ascending, h.onStack_iff,
    h.mem_stack_iff, h.groups_eq⟩

theorem Follows.enter (h : s.Follows n next pending walk) (hv : v < n) (hnew : v ∉ walk.entered) :
    (s.enter v).Follows n next (v :: pending) ⟨v :: walk.entered, walk.left⟩ where
  orderly := h.orderly.enter hnew
  bounded := ⟨List.forall_mem_cons.2 ⟨hv, h.bounded.1⟩, h.bounded.2⟩
  visited_ne_zero_iff x := by
    rw [List.mem_cons, ← h.visited_ne_zero_iff]
    by_cases hx : x = v
    · simp [hx, visited_enter_self]
    · simp [hx, visited_enter_of_ne]
  visited_le x := by
    by_cases hx : x = v
    · rw [hx, visited_enter_self]
      exact Nat.le_refl _
    · rw [visited_enter_of_ne s v hx]
      exact (h.visited_le x).trans (Nat.le_succ _)
  ascending := by
    have hold : ∀ x ∈ s.stack, (s.enter v).visited x = s.visited x := fun x hx =>
      visited_enter_of_ne s v fun heq => hnew (heq ▸ h.mem_entered hx)
    refine List.pairwise_append.2 ⟨?_, List.pairwise_singleton .., fun x hx y hy => ?_⟩
    · exact h.ascending.imp_of_mem fun hx hy hlt => by rwa [hold _ hx, hold _ hy]
    · obtain rfl := List.mem_singleton.1 hy
      rw [hold x hx, visited_enter_self]
      exact Nat.lt_succ_of_le (h.visited_le x)
  onStack_iff x := by
    rw [Search.enter, List.mem_append, List.mem_singleton, ← h.onStack_iff]
    by_cases hx : x = v
    · simp [hx]
    · simp [put_of_ne _ _ _ hx, hx]
  mem_stack_iff x := by
    rw [Search.enter, List.mem_append, List.mem_singleton, h.mem_stack_iff, List.mem_cons]
    constructor
    · rintro (⟨hx, u, hu, hconnected⟩ | rfl)
      · exact ⟨.inr hx, u, List.mem_cons_of_mem _ hu, hconnected⟩
      · exact ⟨.inl rfl, x, List.mem_cons_self .., .refl next x⟩
    · rintro ⟨hx, u, hu, hconnected⟩
      by_cases hxv : x = v
      · exact .inr hxv
      · replace hx := hx.resolve_left hxv
        refine .inl ⟨hx, ?_⟩
        rcases List.mem_cons.1 hu with rfl | hu
        · obtain ⟨u', hu', hreach, hreach'⟩ := h.orderly.exists_pending hx hnew hconnected.1
          exact ⟨u', hu', .between hreach hreach' hconnected.2⟩
        · exact ⟨u, hu, hconnected⟩
  groups_eq := by
    rw [Search.enter, h.groups_eq]
    refine congrArg _ (List.filter_congr fun x hx => ?_)
    have hne : x ≠ v := fun heq => hnew ((h.orderly.entered v).2 (.inl (heq ▸ hx)))
    simp [hne]

/-- How far the visit of a vertex has got that began at an earlier walk and search, when some of its
references have been followed. -/
structure Visits (next : Nat → List Nat) (walk₀ : Walk) (s₀ : Search) (v : Nat) (followed : List Nat)
    (walk : Walk) (s : Search) : Prop where
  entered : walk₀.entered ⊆ walk.entered
  mem_entered : v ∈ walk.entered
  visited_eq : ∀ x ∈ walk₀.entered, s.visited x = s₀.visited x
  low_eq : ∀ x ∈ walk₀.entered, s.low x = s₀.low x
  visited_self : s.visited v = s₀.count + 1
  reached : ∀ x ∈ walk.entered, x ∉ walk₀.entered → s₀.count < s.visited x ∧ Reaches next v x
  stack : ∃ more, s.stack = s₀.stack ++ more ∧ ∀ x ∈ more, x ∉ walk₀.entered
  low_attained : s.low v = s.visited v ∨ ∃ y ∈ s₀.stack, Reaches next v y ∧ s.low v = s₀.visited y
  low_le : ∀ x ∈ s.stack, x ∉ walk₀.entered → ∀ y ∈ next x, y ∈ s₀.stack → (x = v → y ∈ followed) →
    s.low v ≤ s₀.visited y

section

variable {walk₀ walk' : Walk} {s₀ s' : Search} {followed : List Nat} {w : Nat}

theorem Visits.enter (h : s.Follows n next pending walk) (hnew : v ∉ walk.entered) :
    Visits next walk s v [] ⟨v :: walk.entered, walk.left⟩ (s.enter v) where
  entered := List.subset_cons_self v _
  mem_entered := List.mem_cons_self ..
  visited_eq x hx := visited_enter_of_ne s v fun heq => hnew (heq ▸ hx)
  low_eq x hx := low_enter_of_ne s v fun heq => hnew (heq ▸ hx)
  visited_self := visited_enter_self s v
  reached x hx hx' := by
    obtain rfl := (List.mem_cons.1 hx).resolve_right hx'
    rw [visited_enter_self]
    exact ⟨Nat.lt_succ_self _, .refl⟩
  stack := ⟨[v], rfl, fun x hx => List.mem_singleton.1 hx ▸ hnew⟩
  low_attained := .inl ((low_enter_self s v).trans (visited_enter_self s v).symm)
  low_le x hx hx' y _ _ hfollowed := by
    have hx := (List.mem_append.1 hx).resolve_left fun hx => hx' (h.mem_entered hx)
    exact absurd (hfollowed (List.mem_singleton.1 hx)) List.not_mem_nil

theorem Visits.mem_stack (h : Visits next walk₀ s₀ v followed walk s) {x : Nat} (hx : x ∈ s₀.stack) :
    x ∈ s.stack := by
  obtain ⟨more, hmore, -⟩ := h.stack
  rw [hmore]
  exact List.mem_append_left _ hx

theorem Visits.mem_stack_or_le (h : Visits next walk₀ s₀ v followed walk s)
    (hs : s.Follows n next (v :: pending) walk) {x : Nat} (hx : x ∈ s.stack) :
    x ∈ s₀.stack ∨ s.visited v ≤ s.visited x := by
  obtain ⟨more, hmore, hnew⟩ := h.stack
  refine (List.mem_append.1 (hmore ▸ hx)).imp_right fun hmem => ?_
  rw [h.visited_self]
  exact (h.reached x (hs.mem_entered hx) (hnew x hmem)).1

theorem Visits.low_le_visited (h : Visits next walk₀ s₀ v followed walk s)
    (hstart : s₀.Follows n next pending walk₀) : s.low v ≤ s.visited v := by
  rcases h.low_attained with heq | ⟨y, -, -, heq⟩
  · exact heq.le
  · have hle := hstart.visited_le y
    rw [heq, h.visited_self]
    omega

theorem Visits.low_attained_min (h : Visits next walk₀ s₀ v followed walk s)
    (hstart : s₀.Follows n next pending walk₀) {number : Nat}
    (hnumber : s.visited v ≤ number ∨
      ∃ y ∈ s₀.stack, Reaches next v y ∧ number = s₀.visited y) :
    min (s.low v) number = s.visited v ∨
      ∃ y ∈ s₀.stack, Reaches next v y ∧ min (s.low v) number = s₀.visited y := by
  rcases hnumber with hle | hattained
  · rw [min_eq_left ((h.low_le_visited hstart).trans hle)]
    exact h.low_attained
  · rcases min_choice (s.low v) number with heq | heq
    · rw [heq]
      exact h.low_attained
    · rw [heq]
      exact .inr hattained

/-- A reference to a vertex that has not been visited before is followed. -/
theorem Visits.through (h : Visits next walk₀ s₀ v followed walk s)
    (hstart : s₀.Follows n next pending walk₀) (hs : s.Follows n next (v :: pending) walk)
    (hnew : v ∉ walk₀.entered) (hw : w ∈ next v) (hunvisited : w ∉ walk.entered)
    (hinner : Visits next walk s w (next w) walk' s') :
    Visits next walk₀ s₀ v (followed ++ [w]) walk' (s'.lower v (s'.low w)) where
  entered := List.Subset.trans h.entered hinner.entered
  mem_entered := hinner.entered h.mem_entered
  visited_eq x hx := (hinner.visited_eq x (h.entered hx)).trans (h.visited_eq x hx)
  low_eq x hx := by
    have hne : x ≠ v := fun heq => hnew (heq ▸ hx)
    rw [low_lower_of_ne s' v _ hne, hinner.low_eq x (h.entered hx), h.low_eq x hx]
  visited_self := (hinner.visited_eq v h.mem_entered).trans h.visited_self
  reached x hx hx' := by
    have hcount : s₀.count < s.count := by
      have := hs.visited_le v
      rw [h.visited_self] at this
      omega
    by_cases hmem : x ∈ walk.entered
    · have hkept : (s'.lower v (s'.low w)).visited x = s.visited x := hinner.visited_eq x hmem
      rw [hkept]
      exact h.reached x hmem hx'
    · obtain ⟨hlt, hreach⟩ := hinner.reached x hx hmem
      exact ⟨hcount.trans hlt, .head hw hreach⟩
  stack := by
    obtain ⟨more, hmore, hfresh⟩ := h.stack
    obtain ⟨more', hmore', hfresh'⟩ := hinner.stack
    refine ⟨more ++ more', ?_, List.forall_mem_append.2
      ⟨hfresh, fun x hx hx' => hfresh' x hx (h.entered hx')⟩⟩
    rw [Search.lower, hmore', hmore, List.append_assoc]
  low_attained := by
    have hkept : (s'.lower v (s'.low w)).visited v = s.visited v :=
      hinner.visited_eq v h.mem_entered
    rw [low_lower_self, hinner.low_eq v h.mem_entered, hkept]
    refine h.low_attained_min hstart ?_
    rcases hinner.low_attained with heq | ⟨y, hy, hreach, heq⟩
    · refine .inl ?_
      rw [heq, hinner.visited_self]
      exact (hs.visited_le v).trans (Nat.le_succ _)
    · rw [heq]
      rcases h.mem_stack_or_le hs hy with hold | hle
      · exact .inr ⟨y, hold, .head hw hreach, h.visited_eq y (hstart.mem_entered hold)⟩
      · exact .inl hle
  low_le x hx hx' y hy hold hfollowed := by
    rw [low_lower_self, hinner.low_eq v h.mem_entered]
    have hkept : s.visited y = s₀.visited y := h.visited_eq y (hstart.mem_entered hold)
    by_cases hmem : x ∈ walk.entered
    · obtain ⟨more, hmore, hfresh⟩ := hinner.stack
      have hxs : x ∈ s.stack :=
        (List.mem_append.1 (hmore ▸ hx : x ∈ s.stack ++ more)).resolve_right fun hx => hfresh x hx hmem
      refine (Nat.min_le_left _ _).trans (h.low_le x hxs hx' y hy hold fun heq => ?_)
      refine (List.mem_append.1 (hfollowed heq)).resolve_right fun hyw => hunvisited ?_
      exact List.mem_singleton.1 hyw ▸ h.entered (hstart.mem_entered hold)
    · rw [← hkept]
      exact (Nat.min_le_right _ _).trans
        (hinner.low_le x hx hmem y hy (h.mem_stack hold) fun heq => heq ▸ hy)

/-- A reference to a vertex on the stack is followed. -/
theorem Visits.back (h : Visits next walk₀ s₀ v followed walk s)
    (hstart : s₀.Follows n next pending walk₀) (hs : s.Follows n next (v :: pending) walk)
    (hnew : v ∉ walk₀.entered) (hw : w ∈ next v) (hstack : w ∈ s.stack) :
    Visits next walk₀ s₀ v (followed ++ [w]) walk (s.lower v (s.visited w)) where
  entered := h.entered
  mem_entered := h.mem_entered
  visited_eq := h.visited_eq
  low_eq x hx := by
    have hne : x ≠ v := fun heq => hnew (heq ▸ hx)
    rw [low_lower_of_ne s v _ hne, h.low_eq x hx]
  visited_self := h.visited_self
  reached := h.reached
  stack := h.stack
  low_attained := by
    rw [low_lower_self]
    refine h.low_attained_min hstart ?_
    rcases h.mem_stack_or_le hs hstack with hold | hle
    · exact .inr ⟨w, hold, .of_next hw, h.visited_eq w (hstart.mem_entered hold)⟩
    · exact .inl hle
  low_le x hx hx' y hy hold hfollowed := by
    rw [low_lower_self]
    by_cases hyw : y = w
    · rw [hyw, ← h.visited_eq w (hyw ▸ hstart.mem_entered hold)]
      exact Nat.min_le_right ..
    · refine (Nat.min_le_left _ _).trans (h.low_le x hx hx' y hy hold fun heq => ?_)
      exact (List.mem_append.1 (hfollowed heq)).resolve_right (mt List.mem_singleton.1 hyw)

/-- A reference to a vertex of a complete component changes nothing. -/
theorem Visits.past (h : Visits next walk₀ s₀ v followed walk s) (hstack : w ∉ s.stack) :
    Visits next walk₀ s₀ v (followed ++ [w]) walk s where
  __ := h
  low_le x hx hx' y hy hold hfollowed := by
    refine h.low_le x hx hx' y hy hold fun heq => ?_
    refine (List.mem_append.1 (hfollowed heq)).resolve_right fun hyw => hstack ?_
    exact List.mem_singleton.1 hyw ▸ h.mem_stack hold

end

section

variable {walk₀ : Walk} {s₀ : Search} {below more : List Nat}

theorem Visits.exists_stack_eq {followed : List Nat} (h : Visits next walk₀ s₀ v followed walk s)
    (hstart : s₀.Follows n next pending walk₀) (hs : s.Follows n next (v :: pending) walk)
    (hnew : v ∉ walk₀.entered) :
    ∃ more, s.stack = s₀.stack ++ v :: more ∧ ∀ x ∈ v :: more, x ∉ walk₀.entered := by
  have hv : v ∈ s.stack :=
    (hs.mem_stack_iff v).2 ⟨h.mem_entered, v, List.mem_cons_self .., .refl next v⟩
  obtain ⟨above, habove, hfresh⟩ := h.stack
  have hv' : v ∈ above :=
    (List.mem_append.1 (habove ▸ hv)).resolve_left fun hmem => hnew (hstart.mem_entered hmem)
  obtain ⟨front, more, rfl⟩ := List.append_of_mem hv'
  -- anything new in front of the vertex would have a number between its own and the ones before
  obtain rfl : front = [] := List.eq_nil_iff_forall_not_mem.2 fun x hx => by
    have hascending := hs.ascending
    rw [habove, List.pairwise_append, List.pairwise_append] at hascending
    have hlt := hascending.2.1.2.2 x hx v (List.mem_cons_self ..)
    have hentered : x ∈ walk.entered := hs.mem_entered (by rw [habove]; simp [hx])
    have hgt := (h.reached x hentered (hfresh x (List.mem_append_left _ hx))).1
    rw [h.visited_self] at hlt
    omega
  exact ⟨more, habove, hfresh⟩

theorem Visits.low_eq_visited_iff (h : Visits next walk₀ s₀ v (next v) walk s)
    (hstart : s₀.Follows n next pending walk₀) (hs : s.Follows n next (v :: pending) walk)
    (hnew : v ∉ walk₀.entered) (hnext : ∀ w ∈ next v, w ∈ walk.entered)
    (hpending : ∀ u ∈ pending, Reaches next u v) :
    s.low v = s.visited v ↔ ∀ u ∈ pending, ¬Connected next v u := by
  constructor
  · intro heq u hu hconnected
    have hold : ∀ x ∈ pending, x ∈ walk₀.entered := fun x hx => (hstart.orderly.entered x).2 (.inr hx)
    obtain ⟨x, y, hvx, ⟨hx, hx'⟩, hstep, hy, hyu⟩ :=
      exists_exit (p := fun x => x ∈ walk.entered ∧ x ∉ walk₀.entered) hconnected.1
        ⟨h.mem_entered, hnew⟩ (fun hinside => hinside.2 (hold u hu))
    have hyentered : y ∈ walk.entered := by
      rcases (hs.orderly.entered x).1 hx with hleft | hopen
      · exact hs.orderly.followed x hleft y hstep
      · rcases List.mem_cons.1 hopen with rfl | hopen
        · exact hnext y hstep
        · exact absurd (hold x hopen) hx'
    have hyold : y ∈ walk₀.entered := not_not.1 fun hnot => hy ⟨hyentered, hnot⟩
    have hxstack : x ∈ s.stack := (hs.mem_stack_iff x).2 ⟨hx, v, List.mem_cons_self ..,
      (Connected.between hvx (.head hstep hyu) hconnected.2).symm⟩
    have hystack : y ∈ s₀.stack := (hstart.mem_stack_iff y).2 ⟨hyold, u, hu, hyu,
      hconnected.2.trans (hvx.tail hstep)⟩
    have hle := h.low_le x hxstack hx' y hstep hystack fun hxv => hxv ▸ hstep
    have hcount := hstart.visited_le y
    rw [heq, h.visited_self] at hle
    omega
  · intro hnone
    refine h.low_attained.resolve_right ?_
    rintro ⟨y, hy, hvy, -⟩
    obtain ⟨-, u, hu, hyu, -⟩ := (hstart.mem_stack_iff y).1 hy
    exact hnone u hu ⟨hvy.trans hyu, hpending u hu⟩

/-- A vertex that is not the first of its component is left on the stack. -/
theorem Follows.leave (hs : s.Follows n next (v :: pending) walk)
    (hnext : ∀ w ∈ next v, w ∈ walk.entered) (hpending : ∀ u ∈ pending, Reaches next u v)
    (hconnected : ∃ u ∈ pending, Connected next v u) :
    s.Follows n next pending ⟨walk.entered, walk.left ++ [v]⟩ where
  orderly := hs.orderly.leave hnext hpending
  bounded := by
    have hv : v < n := hs.bounded.1 v ((hs.orderly.entered v).2 (.inr (List.mem_cons_self ..)))
    exact ⟨hs.bounded.1, List.forall_mem_append.2 ⟨hs.bounded.2, List.forall_mem_singleton.2 hv⟩⟩
  visited_ne_zero_iff := hs.visited_ne_zero_iff
  visited_le := hs.visited_le
  ascending := hs.ascending
  onStack_iff := hs.onStack_iff
  mem_stack_iff x := by
    rw [hs.mem_stack_iff]
    refine and_congr_right fun _ => ⟨?_, fun ⟨u, hu, hxu⟩ => ⟨u, List.mem_cons_of_mem _ hu, hxu⟩⟩
    rintro ⟨u, hu, hxu⟩
    rcases List.mem_cons.1 hu with rfl | hu
    · obtain ⟨u', hu', huu'⟩ := hconnected
      exact ⟨u', hu', hxu.trans huu'⟩
    · exact ⟨u, hu, hxu⟩
  groups_eq := by
    have hv : v ∈ s.stack := (hs.mem_stack_iff v).2
      ⟨(hs.orderly.entered v).2 (.inr (List.mem_cons_self ..)), v, List.mem_cons_self .., .refl next v⟩
    rw [hs.groups_eq, List.filter_append, List.filter_cons_of_neg (by simpa using hv),
      List.filter_nil, List.append_nil]

theorem close_eq (hstack : s.stack = below ++ v :: more) (hv : v ∉ below) :
    s.close v = { s with
      stack := below
      onStack := fun w => s.onStack w && w ∉ v :: more
      groups := s.groups ++ [(v :: more).mergeSort] } := by
  have hindex : s.stack.idxOf v = below.length := by
    rw [hstack, List.idxOf_append_of_notMem hv, List.idxOf_cons_self, Nat.add_zero]
  rw [close, hindex, hstack, List.take_left, List.drop_left]

theorem Follows.mem_above_iff (hs : s.Follows n next (v :: pending) walk)
    (hnext : ∀ w ∈ next v, w ∈ walk.entered) (hpending : ∀ u ∈ pending, Reaches next u v)
    (hroot : ∀ u ∈ pending, ¬Connected next v u) (hstack : s.stack = below ++ v :: more)
    (hbelow : ∀ x ∈ below, ∃ u ∈ pending, Connected next x u)
    (habove : ∀ x ∈ v :: more, Reaches next v x) {x : Nat} :
    x ∈ v :: more ↔ Connected next v x := by
  constructor
  · intro hx
    obtain ⟨-, u, hu, hxu⟩ := (hs.mem_stack_iff x).1 (hstack ▸ List.mem_append_right _ hx)
    rcases List.mem_cons.1 hu with rfl | hu
    · exact hxu.symm
    · exact absurd ⟨(habove x hx).trans hxu.1, hpending u hu⟩ (hroot u hu)
  · intro hconnected
    have hx : x ∈ walk.entered := by
      by_contra hnot
      have hv : v ∈ walk.entered := (hs.orderly.entered v).2 (.inr (List.mem_cons_self ..))
      obtain ⟨u, hu, hvu, -⟩ :=
        (hs.orderly.leave hnext hpending).exists_pending hv hnot hconnected.1
      exact hroot u hu ⟨hvu, hpending u hu⟩
    have hxstack : x ∈ s.stack := (hs.mem_stack_iff x).2 ⟨hx, v, List.mem_cons_self .., hconnected.symm⟩
    refine (List.mem_append.1 (hstack ▸ hxstack)).resolve_left fun hmem => ?_
    obtain ⟨u, hu, hxu⟩ := hbelow x hmem
    exact hroot u hu (hconnected.trans hxu)

/-- With the first vertex of a component the component is complete. -/
theorem Follows.close (hinside : Inside n next) (hs : s.Follows n next (v :: pending) walk)
    (hnext : ∀ w ∈ next v, w ∈ walk.entered) (hpending : ∀ u ∈ pending, Reaches next u v)
    (hroot : ∀ u ∈ pending, ¬Connected next v u) (hstack : s.stack = below ++ v :: more)
    (hbelow : ∀ x ∈ below, ∃ u ∈ pending, Connected next x u)
    (habove : ∀ x ∈ v :: more, Reaches next v x) :
    (s.close v).Follows n next pending ⟨walk.entered, walk.left ++ [v]⟩ := by
  have habove_iff := fun x => hs.mem_above_iff hnext hpending hroot hstack hbelow habove (x := x)
  have hnodup : (below ++ v :: more).Nodup := hstack ▸ hs.nodup_stack
  have hdisjoint : ∀ x ∈ below, x ∉ v :: more := fun x hx hx' =>
    (List.nodup_append.1 hnodup).2.2 x hx x hx' rfl
  have hv : v < n := hs.bounded.1 v ((hs.orderly.entered v).2 (.inr (List.mem_cons_self ..)))
  rw [close_eq hstack fun hmem => hdisjoint v hmem (List.mem_cons_self ..)]
  refine ⟨hs.orderly.leave hnext hpending,
    ⟨hs.bounded.1, List.forall_mem_append.2 ⟨hs.bounded.2, List.forall_mem_singleton.2 hv⟩⟩,
    hs.visited_ne_zero_iff, hs.visited_le, ?ascending, fun x => ?onStack, fun x => ?stack, ?groups⟩
  case ascending =>
    have hascending := hs.ascending
    rw [hstack] at hascending
    exact (List.pairwise_append.1 hascending).1
  case onStack =>
    rw [Bool.and_eq_true, hs.onStack_iff, hstack, List.mem_append, decide_eq_true_eq]
    exact ⟨fun ⟨hmem, hnot⟩ => hmem.resolve_right hnot, fun hmem => ⟨.inl hmem, hdisjoint x hmem⟩⟩
  case stack =>
    constructor
    · intro hx
      exact ⟨hs.mem_entered (hstack ▸ List.mem_append_left _ hx), hbelow x hx⟩
    · rintro ⟨hx, u, hu, hxu⟩
      have hxstack : x ∈ s.stack := (hs.mem_stack_iff x).2 ⟨hx, u, List.mem_cons_of_mem _ hu, hxu⟩
      refine (List.mem_append.1 (hstack ▸ hxstack)).resolve_right fun hmem => ?_
      exact hroot u hu (((habove_iff x).1 hmem).trans hxu)
  case groups =>
    have hcomponent : ∀ x, x ∈ component n next v ↔ Connected next v x := fun x =>
      (mem_component_iff hinside hv).trans
        ⟨And.right, fun hconnected => ⟨lt_of_reaches hinside hv hconnected.1, hconnected⟩⟩
    have hsorted : (v :: more).mergeSort = component n next v :=
      mergeSort_eq_of_mem_iff (List.nodup_append.1 hnodup).2.1 (component_pairwise n next v)
        fun x => (habove_iff x).trans (hcomponent x).symm
    have hremaining : walk.left.filter (· ∉ s.stack) =
        (walk.left.filter (· ∉ below)).filter (v ∉ component n next ·) := by
      rw [List.filter_filter]
      refine List.filter_congr fun x hx => ?_
      have hmem : x ∈ v :: more ↔ v ∈ component n next x := by
        rw [habove_iff, mem_component_iff hinside (hs.bounded.2 x hx)]
        exact ⟨fun hconnected => ⟨hv, hconnected.2, hconnected.1⟩, fun ⟨_, hxv, hvx⟩ => ⟨hvx, hxv⟩⟩
      rw [Bool.eq_iff_iff, Bool.and_eq_true, decide_eq_true_eq, decide_eq_true_eq, decide_eq_true_eq,
        hstack, List.mem_append, not_or, hmem, and_comm]
    have hlast : (walk.left ++ [v]).filter (· ∉ below) = walk.left.filter (· ∉ below) ++ [v] := by
      have hv' : v ∉ below := fun hmem => hdisjoint v hmem (List.mem_cons_self ..)
      rw [List.filter_append, List.filter_cons_of_pos (by simpa using hv'), List.filter_nil]
    dsimp only
    rw [hlast, lastOccurrences_concat, hs.groups_eq, hremaining, hsorted]
    intro x hx y hy hxy
    have hx := hs.bounded.2 x (List.mem_filter.1 hx).1
    have hy := hs.bounded.2 y (List.mem_filter.1 hy).1
    obtain ⟨-, hxy⟩ := (mem_component_iff hinside hx).1 hxy
    rw [mem_component_iff hinside hx, mem_component_iff hinside hy]
    exact and_congr_right fun _ =>
      ⟨Connected.trans (Connected.symm hxy), Connected.trans hxy⟩

end

section

variable {walk₀ : Walk} {s₀ : Search} {depth : Nat}

/-- The references of a vertex are followed one after the other, if each of them leads to a visit that
keeps to the walk. -/
theorem Visits.foldl (hstart : s₀.Follows n next pending walk₀) (hnew : v ∉ walk₀.entered)
    (hvisit : ∀ walk s w, s.Follows n next (v :: pending) walk → walk₀.entered ⊆ walk.entered →
      v ∈ walk.entered → w ∈ next v → w ∉ walk.entered →
      (visit next depth s w).Follows n next (v :: pending) (Walk.visit next depth walk w) ∧
        Visits next walk s w (next w) (Walk.visit next depth walk w) (visit next depth s w))
    {followed rest : List Nat} (hrest : rest ⊆ next v) (h : Visits next walk₀ s₀ v followed walk s)
    (hs : s.Follows n next (v :: pending) walk) :
    (rest.foldl (follow (visit next depth) v) s).Follows n next (v :: pending)
        (rest.foldl (Walk.visit next depth) walk) ∧
      Visits next walk₀ s₀ v (followed ++ rest) (rest.foldl (Walk.visit next depth) walk)
        (rest.foldl (follow (visit next depth) v) s) := by
  induction rest generalizing followed walk s with
  | nil => exact ⟨hs, (List.append_nil followed).symm ▸ h⟩
  | cons w rest ih =>
      obtain ⟨hw, hrest⟩ := List.cons_subset.1 hrest
      rw [List.foldl_cons, List.foldl_cons, List.append_cons]
      by_cases hentered : w ∈ walk.entered
      · have hvisited : s.visited w ≠ 0 := (hs.visited_ne_zero_iff w).2 hentered
        rw [Walk.visit_of_mem next depth hentered, follow, if_neg hvisited]
        split
        · rename_i hstack
          exact ih hrest (h.back hstart hs hnew hw ((hs.onStack_iff w).1 hstack)) (hs.lower ..)
        · rename_i hstack
          exact ih hrest (h.past fun hmem => hstack ((hs.onStack_iff w).2 hmem)) hs
      · have hunvisited : s.visited w = 0 := not_not.1 (mt (hs.visited_ne_zero_iff w).1 hentered)
        obtain ⟨hs', hinner⟩ := hvisit walk s w hs h.entered h.mem_entered hw hentered
        rw [follow, if_pos hunvisited]
        exact ih hrest (h.through hstart hs hnew hw hentered hinner) (hs'.lower ..)

/-- What is known when the references of a vertex have all been followed is known of its visit. -/
theorem Visits.finish (hinside : Inside n next) (hstart : s₀.Follows n next pending walk₀)
    (hnew : v ∉ walk₀.entered) (hs : s.Follows n next (v :: pending) walk)
    (h : Visits next walk₀ s₀ v (next v) walk s) (hnext : ∀ w ∈ next v, w ∈ walk.entered)
    (hpending : ∀ u ∈ pending, Reaches next u v) :
    let s' := if s.low v = s.visited v then s.close v else s
    s'.Follows n next pending ⟨walk.entered, walk.left ++ [v]⟩ ∧
      Visits next walk₀ s₀ v (next v) ⟨walk.entered, walk.left ++ [v]⟩ s' := by
  obtain ⟨more, hmore, hfresh⟩ := h.exists_stack_eq hstart hs hnew
  have hroot_iff := h.low_eq_visited_iff hstart hs hnew hnext hpending
  dsimp only
  split
  · rename_i hroot
    have hbelow : ∀ x ∈ s₀.stack, ∃ u ∈ pending, Connected next x u := fun x hx =>
      ((hstart.mem_stack_iff x).1 hx).2
    have habove : ∀ x ∈ v :: more, Reaches next v x := fun x hx =>
      (h.reached x (hs.mem_entered (hmore ▸ List.mem_append_right _ hx)) (hfresh x hx)).2
    refine ⟨hs.close hinside hnext hpending (hroot_iff.1 hroot) hmore hbelow habove, ?_⟩
    rw [close_eq hmore fun hmem => hnew (hstart.mem_entered hmem)]
    exact ⟨h.entered, h.mem_entered, h.visited_eq, h.low_eq, h.visited_self, h.reached,
      ⟨[], (List.append_nil _).symm, nofun⟩, h.low_attained,
      fun x hx hx' => absurd (hstart.mem_entered hx) hx'⟩
  · rename_i hroot
    refine ⟨hs.leave hnext hpending ?_, ⟨h.entered, h.mem_entered, h.visited_eq, h.low_eq,
      h.visited_self, h.reached, h.stack, h.low_attained, h.low_le⟩⟩
    by_contra hnone
    exact hroot (hroot_iff.2 fun u hu hconnected => hnone ⟨u, hu, hconnected⟩)

end

/-- The visit of a vertex keeps to the walk. -/
theorem Follows.visit (hinside : Inside n next) {depth : Nat} (h : s.Follows n next pending walk)
    (hv : v < n) (hnew : v ∉ walk.entered) (hdepth : unseen n walk.entered ≤ depth)
    (hpending : ∀ u ∈ pending, Reaches next u v) :
    (visit next depth s v).Follows n next pending (Walk.visit next depth walk v) ∧
      Visits next walk s v (next v) (Walk.visit next depth walk v) (visit next depth s v) := by
  induction depth generalizing walk s v pending with
  | zero => exact absurd (mem_of_unseen_eq_zero (Nat.le_zero.1 hdepth) hv) hnew
  | succ depth ih =>
      have hlt : unseen n (v :: walk.entered) < unseen n walk.entered :=
        unseen_lt (List.subset_cons_self v _) hv hnew (List.mem_cons_self ..)
      have hvisit : ∀ walk' s' w, Follows n next (v :: pending) walk' s' →
          walk.entered ⊆ walk'.entered → v ∈ walk'.entered → w ∈ next v → w ∉ walk'.entered →
          (Search.visit next depth s' w).Follows n next (v :: pending)
              (Walk.visit next depth walk' w) ∧
            Visits next walk' s' w (next w) (Walk.visit next depth walk' w)
              (Search.visit next depth s' w) := by
        intro walk' s' w hs' hgrown hv' hw hw'
        have hgrown' : v :: walk.entered ⊆ walk'.entered := List.cons_subset.2 ⟨hv', hgrown⟩
        have hdepth' : unseen n walk'.entered ≤ depth := by
          have := unseen_mono (n := n) hgrown'
          omega
        refine ih hs' (hinside v hv w hw) hw' hdepth' fun u hu => ?_
        rcases List.mem_cons.1 hu with rfl | hu
        · exact .of_next hw
        · exact (hpending u hu).tail hw
      obtain ⟨hs', hvisits⟩ := Visits.foldl h hnew hvisit (List.Subset.refl (next v))
        (Visits.enter h hnew) (h.enter hv hnew)
      rw [List.nil_append] at hvisits
      have hnext : ∀ w ∈ next v, w ∈ ((next v).foldl (Walk.visit next depth)
          ⟨v :: walk.entered, walk.left⟩).entered := fun w hw => by
        -- with no depth left, all vertices have been entered
        cases depth with
        | zero =>
            have hall := mem_of_unseen_eq_zero (show unseen n (v :: walk.entered) = 0 by omega)
              (hinside v hv w hw)
            exact Walk.entered_foldl (Walk.entered_visit next 0) _ _ hall
        | succ depth => exact Walk.mem_entered_foldl next depth _ hw
      rw [Walk.visit, if_neg hnew]
      exact Visits.finish hinside h hnew hs' hvisits hnext hpending

end Search

theorem search_eq_components {n : Nat} {next : Nat → List Nat} (hinside : Inside n next) :
    search n next = components n next := by
  have hfold : ∀ l : List Nat, (∀ v ∈ l, v < n) → ∀ walk s, Search.Follows n next [] walk s →
      Search.Follows n next [] (l.foldl (Walk.visit next n) walk)
        (l.foldl (fun s v => if s.visited v = 0 then .visit next n s v else s) s) := by
    intro l hl
    induction l with
    | nil => exact fun walk s hs => hs
    | cons v l ih =>
        intro walk s hs
        obtain ⟨hv, hl⟩ := List.forall_mem_cons.1 hl
        rw [List.foldl_cons, List.foldl_cons]
        by_cases hentered : v ∈ walk.entered
        · rw [Walk.visit_of_mem next n hentered, if_neg ((hs.visited_ne_zero_iff v).2 hentered)]
          exact ih hl walk s hs
        · rw [if_pos (not_not.1 (mt (hs.visited_ne_zero_iff v).1 hentered))]
          exact ih hl _ _ (hs.visit hinside hv hentered (unseen_le n _) nofun).1
  have hend := hfold (List.range n) (fun _ => List.mem_range.1) _ _ (Search.follows_start n next)
  rw [search, hend.groups_eq, components, walkThrough]
  refine congrArg _ (List.filter_eq_self.2 fun v _ => decide_eq_true fun hv => ?_)
  obtain ⟨-, u, hu, -⟩ := (hend.mem_stack_iff v).1 hv
  exact List.not_mem_nil hu

theorem groups_eq_components (defs : List Definition) :
    groups defs = components defs.length (referencesAt defs) :=
  search_eq_components (inside_referencesAt defs)

theorem groups_append {ds ds' : List Definition}
    (h : ∀ d ∈ ds, ∀ name ∈ d.referred, name ∉ ds'.map (·.name)) :
    groups (ds ++ ds') = groups ds ++ (groups ds').map (List.map (ds.length + ·)) := by
  have hjoins := (joins_referencesAt h).components
  rw [← List.length_append] at hjoins
  rw [groups_eq_components, groups_eq_components, groups_eq_components]
  exact hjoins

theorem exists_group_of_lt {defs : List Definition} {i : Nat} (hi : i < defs.length) :
    ∃ group ∈ groups defs, i ∈ group := by
  rw [groups_eq_components]
  exact exists_component_of_lt (inside_referencesAt defs) hi

theorem nodup_flatten_groups (defs : List Definition) : (groups defs).flatten.Nodup := by
  rw [groups_eq_components]
  exact nodup_flatten_components (inside_referencesAt defs)

theorem reaches_of_mem_group {defs : List Definition} {group : List Nat}
    (hgroup : group ∈ groups defs) {i j : Nat} (hi : i ∈ group) (hj : j ∈ group) :
    Reaches (referencesAt defs) i j :=
  reaches_of_mem_component (inside_referencesAt defs) (groups_eq_components defs ▸ hgroup) hi hj

theorem lt_of_mem_groups {defs : List Definition} {group : List Nat} (hgroup : group ∈ groups defs)
    {i : Nat} (hi : i ∈ group) : i < defs.length := by
  rw [groups_eq_components, components] at hgroup
  obtain ⟨v, -, rfl⟩ := exists_of_mem_lastOccurrences hgroup
  exact List.mem_range.1 (List.mem_filter.1 hi).1

theorem exists_group_of_reference {defs : List Definition} {pre post : List (List Nat)}
    {group : List Nat} (h : groups defs = pre ++ group :: post) {i j : Nat} (hi : i ∈ group)
    {d : Definition} (hd : defs[i]? = some d) (hj : j ∈ references defs d) :
    ∃ g ∈ pre ++ [group], j ∈ g :=
  exists_group_of_next (inside_referencesAt defs) (groups_eq_components defs ▸ h) hi
    (referencesAt_of_getElem? hd ▸ hj)

end Formulary.Definition
