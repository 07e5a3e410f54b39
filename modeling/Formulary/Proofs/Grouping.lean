import Mathlib.Data.Finset.Card
import Mathlib.Logic.Relation
import Formulary.Declaration.Groups
import Formulary.Proofs.Renaming

/-!
Components of a graph, and of a graph behind another. A component is a class of mutual reachability,
and stands where a walk through the graph leaves its last vertex; the walk never runs out of depth.
When the first vertices refer to none of the later ones, the walk deals with them as if they were
alone, and with the later ones as if the first were not there. So the components of both together
are those of the first and behind them those of the later ones. Definitions that refer to none of
some later ones are joined to these in that way.
-/

namespace Formulary.Definition

/-- No reference leads out of `0, …, n - 1`. -/
def Inside (n : Nat) (next : Nat → List Nat) : Prop := ∀ v < n, ∀ w ∈ next v, w < n

/-- The vertices that references lead to. -/
def Reaches (next : Nat → List Nat) : Nat → Nat → Prop :=
  Relation.ReflTransGen fun v w => w ∈ next v

/-- How many of `0, …, n - 1` are not among some vertices. -/
def unseen (n : Nat) (seen : List Nat) : Nat := ((Finset.range n).filter (· ∉ seen)).card

theorem unseen_le (n : Nat) (seen : List Nat) : unseen n seen ≤ n :=
  (Finset.card_filter_le _ _).trans_eq (Finset.card_range n)

theorem unseen_mono {n : Nat} {seen seen' : List Nat} (h : seen ⊆ seen') :
    unseen n seen' ≤ unseen n seen :=
  Finset.card_le_card (Finset.monotone_filter_right _ fun _ _ hnot hmem => hnot (h hmem))

theorem unseen_lt {n : Nat} {seen seen' : List Nat} (h : seen ⊆ seen') {v : Nat} (hv : v < n)
    (hnew : v ∉ seen) (hmem : v ∈ seen') : unseen n seen' < unseen n seen := by
  refine Finset.card_lt_card (Finset.ssubset_iff_of_subset ?_ |>.2 ⟨v, ?_, ?_⟩)
  · exact Finset.monotone_filter_right _ fun _ _ hnot hmem => hnot (h hmem)
  · exact Finset.mem_filter.2 ⟨Finset.mem_range.2 hv, hnew⟩
  · exact fun hfilter => (Finset.mem_filter.1 hfilter).2 hmem

theorem mem_of_unseen_eq_zero {n : Nat} {seen : List Nat} (h : unseen n seen = 0) {v : Nat}
    (hv : v < n) : v ∈ seen := by
  by_contra hnot
  have hmem : v ∈ (Finset.range n).filter (· ∉ seen) :=
    Finset.mem_filter.2 ⟨Finset.mem_range.2 hv, hnot⟩
  rw [Finset.card_eq_zero.1 h] at hmem
  exact Finset.notMem_empty v hmem

theorem mem_of_reaches {next : Nat → List Nat} {seen : List Nat}
    (hclosed : ∀ v ∈ seen, ∀ w ∈ next v, w ∈ seen) {v w : Nat} (hv : v ∈ seen)
    (h : Reaches next v w) : w ∈ seen := by
  induction h with
  | refl => exact hv
  | tail _ hstep ih => exact hclosed _ ih _ hstep

theorem lt_of_reaches {n : Nat} {next : Nat → List Nat} (hinside : Inside n next) {v w : Nat}
    (hv : v < n) (h : Reaches next v w) : w < n := by
  induction h with
  | refl => exact hv
  | tail _ hstep ih => exact hinside _ ih _ hstep

/-- The vertices reachable in at most `steps` steps, given those seen and those seen last. -/
def explore (next : Nat → List Nat) : Nat → List Nat → List Nat → List Nat
  | 0, seen, _ => seen
  | steps + 1, seen, frontier =>
    let new := ((frontier.flatMap next).eraseDups).filter (· ∉ seen)
    if new.isEmpty then seen else explore next steps (seen ++ new) new

theorem mem_explore_iff {n : Nat} {next : Nat → List Nat} (hinside : Inside n next) {steps : Nat}
    {seen frontier : List Nat} (hseen : ∀ v ∈ seen, v < n) (hfrontier : frontier ⊆ seen)
    (hdone : ∀ v ∈ seen, v ∉ frontier → ∀ w ∈ next v, w ∈ seen) (hsteps : unseen n seen ≤ steps)
    {w : Nat} : w ∈ explore next steps seen frontier ↔ ∃ v ∈ seen, Reaches next v w := by
  have hself : ∀ {seen : List Nat}, (∀ v ∈ seen, ∀ w ∈ next v, w ∈ seen) →
      (w ∈ seen ↔ ∃ v ∈ seen, Reaches next v w) := fun hclosed =>
    ⟨fun hw => ⟨w, hw, .refl⟩, fun ⟨v, hv, hreach⟩ => mem_of_reaches hclosed hv hreach⟩
  induction steps generalizing seen frontier with
  | zero =>
      refine hself fun v hv x hx => ?_
      exact mem_of_unseen_eq_zero (Nat.le_zero.1 hsteps) (hinside v (hseen v hv) x hx)
  | succ steps ih =>
      rw [explore]
      generalize hnew : ((frontier.flatMap next).eraseDups).filter (· ∉ seen) = new
      have hmem : ∀ x, x ∈ new ↔ (∃ v ∈ frontier, x ∈ next v) ∧ x ∉ seen := fun x => by
        rw [← hnew, List.mem_filter, List.mem_eraseDups, List.mem_flatMap, decide_eq_true_eq]
      have hnext : ∀ v ∈ seen, ∀ x ∈ next v, x ∈ seen ++ new := fun v hv x hx => by
        by_cases hx' : x ∈ seen
        · exact List.mem_append_left _ hx'
        · refine List.mem_append_right _ ((hmem x).2 ⟨⟨v, ?_, hx⟩, hx'⟩)
          by_contra hv'
          exact hx' (hdone v hv hv' x hx)
      cases new with
      | nil =>
          rw [List.append_nil] at hnext
          exact hself hnext
      | cons first rest =>
          obtain ⟨⟨v₀, hv₀, hfirst⟩, hfresh⟩ := (hmem first).1 (List.mem_cons_self ..)
          have hbound : ∀ v ∈ seen ++ first :: rest, v < n := fun v hv => by
            rcases List.mem_append.1 hv with hv | hv
            · exact hseen v hv
            · obtain ⟨⟨v', hv', hstep⟩, -⟩ := (hmem v).1 hv
              exact hinside v' (hseen v' (hfrontier hv')) v hstep
          have hlt : unseen n (seen ++ first :: rest) < unseen n seen :=
            unseen_lt (List.subset_append_left _ _) (hbound first (by simp)) hfresh (by simp)
          rw [if_neg (by simp)]
          refine (ih hbound (List.subset_append_right _ _) ?_ (by omega)).trans ?_
          · intro v hv hv' x hx
            exact hnext v ((List.mem_append.1 hv).resolve_right hv') x hx
          · constructor
            · rintro ⟨v, hv, hreach⟩
              rcases List.mem_append.1 hv with hv | hv
              · exact ⟨v, hv, hreach⟩
              · obtain ⟨⟨v', hv', hstep⟩, -⟩ := (hmem v).1 hv
                exact ⟨v', hfrontier hv', hreach.head hstep⟩
            · rintro ⟨v, hv, hreach⟩
              exact ⟨v, List.mem_append_left _ hv, hreach⟩

/-- Whether references lead from one vertex to another. -/
def reaches (n : Nat) (next : Nat → List Nat) (v w : Nat) : Bool := w ∈ explore next n [v] [v]

theorem reaches_iff {n : Nat} {next : Nat → List Nat} (hinside : Inside n next) {v w : Nat}
    (hv : v < n) : reaches n next v w = true ↔ Reaches next v w := by
  rw [reaches, decide_eq_true_eq, mem_explore_iff hinside (by simpa using hv) (fun _ => id)
    (fun x hx hx' => absurd hx hx') (unseen_le n [v])]
  simp

/-- The state of a walk: the vertices entered, and those left, in the order of leaving. -/
structure Walk where
  entered : List Nat
  left : List Nat

namespace Walk

/-- Walks through everything reachable from a vertex that has not been entered. The walk never goes
deeper than there are vertices. -/
def visit (next : Nat → List Nat) : Nat → Walk → Nat → Walk
  | 0, walk, _ => walk
  | depth + 1, walk, v =>
    if v ∈ walk.entered then walk
    else
      let inner := (next v).foldl (visit next depth) ⟨v :: walk.entered, walk.left⟩
      ⟨inner.entered, inner.left ++ [v]⟩

theorem visit_of_mem (next : Nat → List Nat) (depth : Nat) {walk : Walk} {v : Nat}
    (h : v ∈ walk.entered) : visit next depth walk v = walk := by
  cases depth with
  | zero => rfl
  | succ depth => rw [visit, if_pos h]

theorem entered_foldl {f : Walk → Nat → Walk} (h : ∀ walk v, walk.entered ⊆ (f walk v).entered)
    (l : List Nat) (walk : Walk) : walk.entered ⊆ (l.foldl f walk).entered := by
  induction l generalizing walk with
  | nil => exact fun _ => id
  | cons v l ih => exact List.Subset.trans (h walk v) (ih _)

theorem entered_visit (next : Nat → List Nat) (depth : Nat) (walk : Walk) (v : Nat) :
    walk.entered ⊆ (visit next depth walk v).entered := by
  induction depth generalizing walk v with
  | zero => exact fun _ => id
  | succ depth ih =>
      rw [visit]
      split
      · exact fun _ => id
      · exact List.Subset.trans (List.subset_cons_self v walk.entered)
          (entered_foldl ih (next v) ⟨v :: walk.entered, walk.left⟩)

theorem mem_entered_visit (next : Nat → List Nat) (depth : Nat) (walk : Walk) (v : Nat) :
    v ∈ (visit next (depth + 1) walk v).entered := by
  rw [visit]
  split
  · assumption
  · exact entered_foldl (entered_visit next depth) _ _ (List.mem_cons_self ..)

theorem mem_entered_foldl (next : Nat → List Nat) (depth : Nat) {l : List Nat} (walk : Walk)
    {v : Nat} (hv : v ∈ l) : v ∈ (l.foldl (visit next (depth + 1)) walk).entered := by
  induction l generalizing walk with
  | nil => exact absurd hv List.not_mem_nil
  | cons w l ih =>
      rcases List.mem_cons.1 hv with rfl | hv
      · exact entered_foldl (entered_visit next _) l _ (mem_entered_visit next depth walk v)
      · exact ih _ hv

/-- What is entered and left lies inside. -/
def Bounded (n : Nat) (walk : Walk) : Prop :=
  (∀ v ∈ walk.entered, v < n) ∧ ∀ v ∈ walk.left, v < n

theorem Bounded.foldl {n : Nat} {f : Walk → Nat → Walk}
    (h : ∀ walk, Bounded n walk → ∀ v < n, Bounded n (f walk v)) {l : List Nat}
    (hl : ∀ v ∈ l, v < n) {walk : Walk} (hwalk : Bounded n walk) : Bounded n (l.foldl f walk) := by
  induction l generalizing walk with
  | nil => exact hwalk
  | cons v l ih =>
      obtain ⟨hv, hl⟩ := List.forall_mem_cons.1 hl
      exact ih hl (h walk hwalk v hv)

theorem Bounded.visit {n : Nat} {next : Nat → List Nat} (hinside : Inside n next) (depth : Nat)
    {walk : Walk} (hwalk : Bounded n walk) {v : Nat} (hv : v < n) :
    Bounded n (visit next depth walk v) := by
  induction depth generalizing walk v with
  | zero => exact hwalk
  | succ depth ih =>
      rw [Walk.visit]
      split
      · exact hwalk
      · have hstart : Bounded n ⟨v :: walk.entered, walk.left⟩ :=
          ⟨List.forall_mem_cons.2 ⟨hv, hwalk.1⟩, hwalk.2⟩
        obtain ⟨hentered, hleft⟩ :=
          hstart.foldl (fun walk hwalk v hv => ih hwalk hv) (hinside v hv)
        exact ⟨hentered, List.forall_mem_append.2 ⟨hleft, List.forall_mem_singleton.2 hv⟩⟩

theorem foldl_eq_foldl {n m : Nat} {f g : Walk → Nat → Walk}
    (hgrows : ∀ walk v, walk.entered ⊆ (g walk v).entered)
    (h : ∀ walk v, v < n → unseen n walk.entered ≤ m → f walk v = g walk v) {l : List Nat}
    (hl : ∀ v ∈ l, v < n) {walk : Walk} (hm : unseen n walk.entered ≤ m) :
    l.foldl f walk = l.foldl g walk := by
  induction l generalizing walk with
  | nil => rfl
  | cons v l ih =>
      obtain ⟨hv, hl⟩ := List.forall_mem_cons.1 hl
      rw [List.foldl_cons, List.foldl_cons, h walk v hv hm]
      exact ih hl ((unseen_mono (hgrows walk v)).trans hm)

theorem visit_eq {n : Nat} {next next' : Nat → List Nat} (hinside : Inside n next)
    (hsame : ∀ v < n, next' v = next v) {depth depth' : Nat} {walk : Walk} {v : Nat} (hv : v < n)
    (hdepth : unseen n walk.entered ≤ depth) (hdepth' : unseen n walk.entered ≤ depth') :
    visit next' depth' walk v = visit next depth walk v := by
  induction depth generalizing depth' walk v with
  | zero =>
      have hmem := mem_of_unseen_eq_zero (Nat.le_zero.1 hdepth) hv
      rw [visit_of_mem next' depth' hmem, visit_of_mem next 0 hmem]
  | succ depth ih =>
      by_cases hmem : v ∈ walk.entered
      · rw [visit_of_mem next' depth' hmem, visit_of_mem next _ hmem]
      · have hlt : unseen n (v :: walk.entered) < unseen n walk.entered :=
          unseen_lt (List.subset_cons_self v _) hv hmem (List.mem_cons_self ..)
        cases depth' with
        | zero => exact absurd hlt (by omega)
        | succ depth' =>
            rw [visit, visit, if_neg hmem, if_neg hmem, hsame v hv]
            have hfold : (next v).foldl (visit next' depth') ⟨v :: walk.entered, walk.left⟩ =
                (next v).foldl (visit next depth) ⟨v :: walk.entered, walk.left⟩ :=
              foldl_eq_foldl (entered_visit next depth)
                (fun walk w hw hm => ih hw (hm.trans (Nat.min_le_left depth depth'))
                  (hm.trans (Nat.min_le_right depth depth')))
                (hinside v hv) (show unseen n (v :: walk.entered) ≤ min depth depth' by omega)
            rw [hfold]

/-- A walk behind another one, in a graph whose vertices are numbered on from `m`. -/
def behind (m : Nat) (first walk : Walk) : Walk :=
  ⟨walk.entered.map (m + ·) ++ first.entered, first.left ++ walk.left.map (m + ·)⟩

section Behind

variable {m n : Nat} {next later : Nat → List Nat} {first : Walk}

theorem foldl_behind (hall : ∀ v < m, v ∈ first.entered) {depth : Nat}
    (h : ∀ walk v, v < n →
      visit next depth (first.behind m walk) (m + v) = first.behind m (visit later depth walk v))
    {l l' : List Nat} (hl : l.filter (m ≤ ·) = l'.map (m + ·)) (hl' : ∀ v ∈ l', v < n)
    (walk : Walk) : l.foldl (visit next depth) (first.behind m walk) =
      first.behind m (l'.foldl (visit later depth) walk) := by
  induction l generalizing l' walk with
  | nil =>
      rw [List.filter_nil, eq_comm, List.map_eq_nil_iff] at hl
      rw [hl]
      rfl
  | cons w l ih =>
      rw [List.foldl_cons]
      by_cases hw : m ≤ w
      · rw [List.filter_cons_of_pos (by simpa using hw)] at hl
        cases l' with
        | nil => cases hl
        | cons v l' =>
            obtain ⟨hwv, hl⟩ := List.cons.inj hl
            obtain ⟨hv, hl'⟩ := List.forall_mem_cons.1 hl'
            rw [hwv, h walk v hv, ih hl hl']
            rfl
      · rw [List.filter_cons_of_neg (by simpa using hw)] at hl
        rw [visit_of_mem next depth (List.mem_append_right _ (hall w (by omega))), ih hl hl']

theorem visit_behind (hall : ∀ v, v < m ↔ v ∈ first.entered) (hinside : Inside n later)
    (hnext : ∀ v < n, (next (m + v)).filter (m ≤ ·) = (later v).map (m + ·)) (depth : Nat)
    (walk : Walk) {v : Nat} (hv : v < n) :
    visit next depth (first.behind m walk) (m + v) = first.behind m (visit later depth walk v) := by
  induction depth generalizing walk v with
  | zero => rfl
  | succ depth ih =>
      have hmem : m + v ∈ (first.behind m walk).entered ↔ v ∈ walk.entered := by
        have hnot : m + v ∉ first.entered := fun h => absurd ((hall _).2 h) (by omega)
        simp [behind, hnot]
      rw [visit, visit]
      split
      · rename_i h
        rw [if_pos (hmem.1 h)]
      · rename_i h
        rw [if_neg (mt hmem.2 h)]
        have hfold := foldl_behind (fun w => (hall w).1) (fun walk w hw => ih walk hw) (hnext v hv)
          (hinside v hv) ⟨v :: walk.entered, walk.left⟩
        have hstart : first.behind m ⟨v :: walk.entered, walk.left⟩ =
            ⟨(m + v) :: (first.behind m walk).entered, (first.behind m walk).left⟩ := rfl
        rw [hstart] at hfold
        rw [hfold]
        simp [behind]

end Behind

end Walk

/-- The vertices that are reachable from a vertex and from which it is reachable. -/
def component (n : Nat) (next : Nat → List Nat) (v : Nat) : List Nat :=
  (List.range n).filter fun w => reaches n next v w && reaches n next w v

/-- Puts a component where the last of its vertices is. -/
def lastOccurrences (component : Nat → List Nat) : List Nat → List (List Nat)
  | [] => []
  | v :: later =>
    let group := component v
    if later.any (· ∈ group) then lastOccurrences component later
    else group :: lastOccurrences component later

/-- A walk through a whole graph. -/
def walkThrough (n : Nat) (next : Nat → List Nat) : Walk :=
  (List.range n).foldl (Walk.visit next n) ⟨[], []⟩

theorem bounded_walkThrough {n : Nat} {next : Nat → List Nat} (hinside : Inside n next) :
    (walkThrough n next).Bounded n :=
  Walk.Bounded.foldl (fun _ hwalk _ hv => hwalk.visit hinside n hv)
    (fun _ => List.mem_range.1) ⟨nofun, nofun⟩

theorem mem_entered_walkThrough_iff {n : Nat} {next : Nat → List Nat} (hinside : Inside n next)
    (v : Nat) : v < n ↔ v ∈ (walkThrough n next).entered := by
  refine ⟨fun hv => ?_, (bounded_walkThrough hinside).1 v⟩
  obtain ⟨k, rfl⟩ := Nat.exists_eq_succ_of_ne_zero (Nat.ne_zero_of_lt hv)
  exact Walk.mem_entered_foldl next k _ (List.mem_range.2 hv)

theorem lastOccurrences_congr {f g : Nat → List Nat} {l : List Nat} (h : ∀ v ∈ l, f v = g v) :
    lastOccurrences f l = lastOccurrences g l := by
  induction l with
  | nil => rfl
  | cons v l ih =>
      obtain ⟨hv, hl⟩ := List.forall_mem_cons.1 h
      rw [lastOccurrences, lastOccurrences, hv, ih hl]

theorem lastOccurrences_append {f : Nat → List Nat} {l l' : List Nat}
    (h : ∀ v ∈ l, ∀ w ∈ l', w ∉ f v) :
    lastOccurrences f (l ++ l') = lastOccurrences f l ++ lastOccurrences f l' := by
  induction l with
  | nil => rfl
  | cons v l ih =>
      obtain ⟨hv, hl⟩ := List.forall_mem_cons.1 h
      have hnone : l'.any (· ∈ f v) = false := by simpa using hv
      rw [List.cons_append, lastOccurrences, lastOccurrences, ih hl, List.any_append, hnone,
        Bool.or_false]
      split
      · rfl
      · rfl

theorem lastOccurrences_map {f g : Nat → List Nat} {m : Nat} {l : List Nat}
    (h : ∀ v ∈ l, f (m + v) = (g v).map (m + ·)) :
    lastOccurrences f (l.map (m + ·)) = (lastOccurrences g l).map (List.map (m + ·)) := by
  induction l with
  | nil => rfl
  | cons v l ih =>
      obtain ⟨hv, hl⟩ := List.forall_mem_cons.1 h
      have hsame : (l.map (m + ·)).any (· ∈ f (m + v)) = l.any (· ∈ g v) := by
        simp [hv, List.any_map, Function.comp_def]
      rw [List.map_cons, lastOccurrences, lastOccurrences, hsame, ih hl, hv]
      split
      · rfl
      · rfl

theorem exists_of_mem_lastOccurrences {f : Nat → List Nat} {l group : List Nat}
    (h : group ∈ lastOccurrences f l) : ∃ v ∈ l, group = f v := by
  induction l with
  | nil => exact absurd h List.not_mem_nil
  | cons v l ih =>
      rw [lastOccurrences] at h
      split at h
      · exact (ih h).imp fun _ => .imp_left (List.mem_cons_of_mem _)
      · rcases List.mem_cons.1 h with rfl | h
        · exact ⟨v, List.mem_cons_self .., rfl⟩
        · exact (ih h).imp fun _ => .imp_left (List.mem_cons_of_mem _)

/-- The components of a graph, each where the last of its vertices is left. -/
def components (n : Nat) (next : Nat → List Nat) : List (List Nat) :=
  lastOccurrences (component n next) (walkThrough n next).left

section Joint

variable {m n : Nat} {next early later : Nat → List Nat}

/-- A graph that consists of one on `0, …, m - 1` and of one numbered on from `m`, and of references
from the second to the first. -/
structure Joins (m n : Nat) (next early later : Nat → List Nat) : Prop where
  insideEarly : Inside m early
  insideLater : Inside n later
  first : ∀ v < m, next v = early v
  second : ∀ v < n, (next (m + v)).filter (m ≤ ·) = (later v).map (m + ·)

theorem Joins.insideNext (h : Joins m n next early later) : Inside m next :=
  fun v hv w hw => h.insideEarly v hv w (h.first v hv ▸ hw)

theorem Joins.mem_next (h : Joins m n next early later) {v w : Nat} (hv : v < n) :
    m + w ∈ next (m + v) ↔ w ∈ later v := by
  have hmem : m + w ∈ (next (m + v)).filter (m ≤ ·) ↔ m + w ∈ (later v).map (m + ·) := by
    rw [h.second v hv]
  simpa using hmem

theorem Joins.inside (h : Joins m n next early later) : Inside (m + n) next := by
  intro v hv w hw
  by_cases hm : v < m
  · exact Nat.lt_add_right n (h.insideNext v hm w hw)
  · obtain ⟨v, rfl⟩ := Nat.exists_eq_add_of_le (Nat.le_of_not_lt hm)
    by_cases hw' : w < m
    · exact Nat.lt_add_right n hw'
    · obtain ⟨w, rfl⟩ := Nat.exists_eq_add_of_le (Nat.le_of_not_lt hw')
      have hlater := h.insideLater v (by omega) w ((h.mem_next (by omega)).1 hw)
      omega

theorem Joins.reaches_first (h : Joins m n next early later) {v w : Nat} (hv : v < m) :
    Reaches next v w ↔ Reaches early v w := by
  constructor
  · intro hreach
    induction hreach with
    | refl => exact .refl
    | @tail x y hpath hstep ih =>
        exact ih.tail (h.first x (lt_of_reaches h.insideNext hv hpath) ▸ hstep)
  · intro hreach
    induction hreach with
    | refl => exact .refl
    | @tail x y hpath hstep ih =>
        exact ih.tail ((h.first x (lt_of_reaches h.insideEarly hv hpath)).symm ▸ hstep)

theorem Joins.reaches_second (h : Joins m n next early later) {v w : Nat} (hv : v < n) :
    Reaches next (m + v) (m + w) ↔ Reaches later v w := by
  constructor
  · intro hreach
    have hpath : ∀ x, Reaches next (m + v) x → x < m ∨ ∃ y, x = m + y ∧ Reaches later v y := by
      intro x hx
      induction hx with
      | refl => exact .inr ⟨v, rfl, .refl⟩
      | @tail x y hpath hstep ih =>
          obtain hx | ⟨x, rfl, hx⟩ := ih
          · exact .inl (h.insideNext x hx y hstep)
          · by_cases hy : y < m
            · exact .inl hy
            · obtain ⟨y, rfl⟩ := Nat.exists_eq_add_of_le (Nat.le_of_not_lt hy)
              have hx' := lt_of_reaches h.insideLater hv hx
              exact .inr ⟨y, rfl, hx.tail ((h.mem_next hx').1 hstep)⟩
    obtain hw | ⟨y, heq, hy⟩ := hpath (m + w) hreach
    · omega
    · rwa [Nat.add_left_cancel heq]
  · intro hreach
    induction hreach with
    | refl => exact .refl
    | @tail x y hpath hstep ih =>
        exact ih.tail ((h.mem_next (lt_of_reaches h.insideLater hv hpath)).2 hstep)

theorem Joins.component_first (h : Joins m n next early later) {v : Nat} (hv : v < m) :
    component (m + n) next v = component m early v := by
  have hnone : ∀ w ∈ (List.range n).map (m + ·),
      ¬(reaches (m + n) next v w && reaches (m + n) next w v) = true := by
    intro w hw hboth
    obtain ⟨w, -, rfl⟩ := List.mem_map.1 hw
    have hreach := (reaches_iff h.inside (by omega)).1 (Bool.and_eq_true_iff.1 hboth).1
    have := lt_of_reaches h.insideNext hv hreach
    omega
  rw [component, List.range_add, List.filter_append, List.filter_eq_nil_iff.2 hnone,
    List.append_nil]
  refine List.filter_congr fun w hw => ?_
  have hw := List.mem_range.1 hw
  rw [Bool.eq_iff_iff, Bool.and_eq_true_iff, Bool.and_eq_true_iff, reaches_iff h.inside (by omega),
    reaches_iff h.inside (by omega), reaches_iff h.insideEarly hv, reaches_iff h.insideEarly hw,
    h.reaches_first hv, h.reaches_first hw]

theorem Joins.component_second (h : Joins m n next early later) {v : Nat} (hv : v < n) :
    component (m + n) next (m + v) = (component n later v).map (m + ·) := by
  have hnone : ∀ w ∈ List.range m,
      ¬(reaches (m + n) next (m + v) w && reaches (m + n) next w (m + v)) = true := by
    intro w hw hboth
    have hw := List.mem_range.1 hw
    have hreach := (reaches_iff h.inside (by omega)).1 (Bool.and_eq_true_iff.1 hboth).2
    have := lt_of_reaches h.insideNext hw hreach
    omega
  rw [component, List.range_add, List.filter_append, List.filter_eq_nil_iff.2 hnone,
    List.nil_append, List.filter_map, component]
  refine congrArg _ (List.filter_congr fun w hw => ?_)
  have hw := List.mem_range.1 hw
  rw [Function.comp_apply, Bool.eq_iff_iff, Bool.and_eq_true_iff, Bool.and_eq_true_iff,
    reaches_iff h.inside (by omega), reaches_iff h.inside (by omega), reaches_iff h.insideLater hv,
    reaches_iff h.insideLater hw, h.reaches_second hv, h.reaches_second hw]

theorem Joins.walkThrough (h : Joins m n next early later) :
    walkThrough (m + n) next = (walkThrough m early).behind m (walkThrough n later) := by
  have hfirst : (List.range m).foldl (Walk.visit next (m + n)) ⟨[], []⟩ =
      Definition.walkThrough m early :=
    Walk.foldl_eq_foldl (Walk.entered_visit early m)
      (fun walk v hv hm => Walk.visit_eq h.insideEarly h.first hv hm (by omega))
      (fun _ => List.mem_range.1) (unseen_le m [])
  have hsecond : (List.range n).foldl (Walk.visit later (m + n)) ⟨[], []⟩ =
      Definition.walkThrough n later :=
    Walk.foldl_eq_foldl (Walk.entered_visit later n)
      (fun walk v hv hm => Walk.visit_eq h.insideLater (fun _ _ => rfl) hv hm (by omega))
      (fun _ => List.mem_range.1) (unseen_le n [])
  have hstart : (Definition.walkThrough m early).behind m ⟨[], []⟩ =
      Definition.walkThrough m early := by simp [Walk.behind]
  have hfilter : ((List.range n).map (m + ·)).filter (m ≤ ·) = (List.range n).map (m + ·) :=
    List.filter_eq_self.2 fun w hw => by
      obtain ⟨w, -, rfl⟩ := List.mem_map.1 hw
      simp
  have hall := mem_entered_walkThrough_iff h.insideEarly
  have hfold := Walk.foldl_behind (fun v => (hall v).1)
    (fun walk v hv => Walk.visit_behind hall h.insideLater h.second (m + n) walk hv) hfilter
    (fun _ => List.mem_range.1) ⟨[], []⟩
  rw [hstart, hsecond] at hfold
  rw [Definition.walkThrough, List.range_add, List.foldl_append, hfirst, hfold]

/-- The components of the first graph, and behind them those of the second. -/
theorem Joins.components (h : Joins m n next early later) :
    components (m + n) next =
      components m early ++ (components n later).map (List.map (m + ·)) := by
  have hfirst := (bounded_walkThrough h.insideEarly).2
  have hsecond := (bounded_walkThrough h.insideLater).2
  rw [Definition.components, Definition.components, Definition.components, h.walkThrough, Walk.behind, lastOccurrences_append,
    lastOccurrences_congr fun v hv => h.component_first (hfirst v hv),
    lastOccurrences_map fun v hv => h.component_second (hsecond v hv)]
  intro v hv w hw hmem
  obtain ⟨w, -, rfl⟩ := List.mem_map.1 hw
  rw [h.component_first (hfirst v hv)] at hmem
  have := List.mem_range.1 (List.mem_filter.1 hmem).1
  omega

end Joint

theorem indexOf?_lt {defs : List Definition} {name : String} {i : Nat}
    (h : indexOf? defs name = some i) : i < defs.length :=
  List.mem_range.1 (List.mem_reverse.1 (List.mem_of_find?_eq_some h))

theorem indexOf?_eq_none {defs : List Definition} {name : String}
    (h : name ∉ defs.map (·.name)) : indexOf? defs name = none := by
  refine List.find?_eq_none.2 fun i hi hname => h ?_
  obtain ⟨d, hd, hname⟩ := (Option.any_eq_true _ _).1 hname
  exact of_decide_eq_true hname ▸ List.mem_map_of_mem (List.mem_of_getElem? hd)

theorem indexOf?_append (ds ds' : List Definition) (name : String) :
    indexOf? (ds ++ ds') name =
      ((indexOf? ds' name).map (ds.length + ·)).or (indexOf? ds name) := by
  have hlater : (List.range ds'.length).reverse.find?
        ((fun i => ((ds ++ ds')[i]?).any (·.name = name)) ∘ (ds.length + ·)) =
      indexOf? ds' name :=
    List.find?_congr fun i _ => by
      rw [Function.comp_apply, List.getElem?_append_right (Nat.le_add_right _ _),
        Nat.add_sub_cancel_left]
  have hfirst : (List.range ds.length).reverse.find?
        (fun i => ((ds ++ ds')[i]?).any (·.name = name)) = indexOf? ds name :=
    List.find?_congr fun i hi => by
      rw [List.getElem?_append_left (List.mem_range.1 (List.mem_reverse.1 hi))]
  rw [indexOf?, List.length_append, List.range_add, List.reverse_append, List.find?_append,
    ← List.map_reverse, List.find?_map, hlater, hfirst]

theorem filter_eraseDups (p : Nat → Bool) (l : List Nat) :
    l.eraseDups.filter p = (l.filter p).eraseDups := by
  match l with
  | [] => rfl
  | a :: l =>
      rw [List.eraseDups_cons, List.filter_cons, List.filter_cons,
        filter_eraseDups p (l.filter fun x => !x == a), List.filter_comm]
      by_cases ha : p a = true
      · rw [if_pos ha, if_pos ha, List.eraseDups_cons]
      · have hsame : (l.filter p).filter (fun x => !x == a) = l.filter p :=
          List.filter_eq_self.2 fun x hx => by
            have hpx := (List.mem_filter.1 hx).2
            simpa using fun hxa : x = a => ha (hxa ▸ hpx)
        rw [if_neg ha, if_neg ha, hsame]
termination_by l.length
decreasing_by
  have := List.length_filter_le (fun x => !x == a) l
  simp only [List.length_cons]
  omega

/-- The names that a definition refers to. A parameter hides a definition of the same name. -/
def referred (d : Definition) : List String := d.body.freeNames.filter (· ∉ d.paramNames)

theorem references_append_of_unreferred {ds ds' : List Definition} {d : Definition}
    (h : ∀ name ∈ d.referred, name ∉ ds'.map (·.name)) :
    references (ds ++ ds') d = references ds d := by
  refine congrArg List.eraseDups (List.filterMap_congr fun name hname => ?_)
  rw [indexOf?_append, indexOf?_eq_none (h name hname), Option.map_none, Option.none_or]

theorem filter_references_append (ds ds' : List Definition) (d : Definition) :
    (references (ds ++ ds') d).filter (ds.length ≤ ·) =
      (references ds' d).map (ds.length + ·) := by
  rw [references, filter_eraseDups, references,
    ← Ty.eraseDups_map (add_right_injective ds.length), List.map_filterMap, List.filter_filterMap]
  refine congrArg List.eraseDups (List.filterMap_congr fun name _ => ?_)
  rw [indexOf?_append]
  cases indexOf? ds' name with
  | some i => simp
  | none =>
      cases hindex : indexOf? ds name with
      | none => rfl
      | some i =>
          have := indexOf?_lt hindex
          simp
          omega

/-- The references of definitions, by their indexes. -/
def referencesAt (defs : List Definition) (v : Nat) : List Nat :=
  ((defs.map (references defs)).toArray[v]?).getD []

theorem inside_referencesAt (defs : List Definition) :
    Inside defs.length (referencesAt defs) := by
  intro v hv w hw
  have hmem : w ∈ references defs (defs.get ⟨v, hv⟩) := by
    simpa [referencesAt, hv] using hw
  obtain ⟨name, -, hname⟩ := List.mem_filterMap.1 (List.mem_eraseDups.1 hmem)
  exact indexOf?_lt hname

theorem joins_referencesAt {ds ds' : List Definition}
    (h : ∀ d ∈ ds, ∀ name ∈ d.referred, name ∉ ds'.map (·.name)) :
    Joins ds.length ds'.length (referencesAt (ds ++ ds')) (referencesAt ds) (referencesAt ds') where
  insideEarly := inside_referencesAt ds
  insideLater := inside_referencesAt ds'
  first v hv := by
    have hunreferred : references (ds ++ ds') ds[v] = references ds ds[v] :=
      references_append_of_unreferred (h ds[v] (List.getElem_mem hv))
    rw [referencesAt, referencesAt, List.getElem?_toArray, List.getElem?_toArray,
      List.getElem?_map, List.getElem?_map, List.getElem?_append_left hv,
      List.getElem?_eq_getElem hv, Option.map_some, Option.map_some, hunreferred]
  second v hv := by
    have hfilter := filter_references_append ds ds' ds'[v]
    rw [referencesAt, referencesAt, List.getElem?_toArray, List.getElem?_toArray,
      List.getElem?_map, List.getElem?_map, List.getElem?_append_right (Nat.le_add_right _ _),
      Nat.add_sub_cancel_left, List.getElem?_eq_getElem hv, Option.map_some, Option.map_some]
    exact hfilter

end Formulary.Definition
