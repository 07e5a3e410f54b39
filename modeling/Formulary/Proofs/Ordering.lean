import Formulary.Proofs.Grouping

namespace Formulary.Definition

theorem Reaches.of_next {next : Nat → List Nat} {v w : Nat} (h : w ∈ next v) : Reaches next v w :=
  .single h

/-- A walk with some vertices that have been entered and not left. What can be reached from a vertex
is left before it, unless there is another vertex of its group that is left later or still open. -/
structure Walk.Orderly (next : Nat → List Nat) (pending : List Nat) (walk : Walk) : Prop where
  nodup : (walk.left ++ pending).Nodup
  entered : ∀ v, v ∈ walk.entered ↔ v ∈ walk.left ∨ v ∈ pending
  followed : ∀ v ∈ walk.left, ∀ w ∈ next v, w ∈ walk.entered
  behind : ∀ front v back, walk.left = front ++ v :: back → ∀ w, Reaches next v w →
    w ∈ front ++ [v] ∨ ∃ u ∈ back ++ pending, Reaches next v u ∧ Reaches next u v

namespace Walk

variable {n : Nat} {next : Nat → List Nat} {pending : List Nat} {walk : Walk} {v : Nat}

theorem Orderly.enter (h : walk.Orderly next pending) (hv : v ∉ walk.entered) :
    Orderly next (v :: pending) ⟨v :: walk.entered, walk.left⟩ where
  nodup := by
    have hnew : v ∉ walk.left ++ pending := fun hmem => hv ((h.entered v).2 (List.mem_append.1 hmem))
    exact List.nodup_middle.2 (List.nodup_cons.2 ⟨hnew, h.nodup⟩)
  entered w := by
    rw [List.mem_cons, List.mem_cons, h.entered]
    tauto
  followed w hw x hx := List.mem_cons_of_mem _ (h.followed w hw x hx)
  behind front w back heq x hx := by
    refine (h.behind front w back heq x hx).imp_right ?_
    rintro ⟨u, hu, hreaches⟩
    refine ⟨u, ?_, hreaches⟩
    rw [List.mem_append, List.mem_cons] at *
    tauto

theorem Orderly.mem_or (h : walk.Orderly next (v :: pending)) (hnext : ∀ w ∈ next v, w ∈ walk.entered)
    (hpending : ∀ u ∈ pending, Reaches next u v) {w : Nat} (hw : Reaches next v w) :
    w ∈ walk.left ++ [v] ∨ ∃ u ∈ pending, Reaches next v u ∧ Reaches next u v := by
  induction hw with
  | refl => exact .inl (List.mem_append_right _ (List.mem_singleton_self v))
  | @tail x y hx hy ih =>
      rcases ih with ih | ih
      · have hentered : y ∈ walk.entered := by
          rcases List.mem_append.1 ih with hleft | hsame
          · exact h.followed x hleft y hy
          · exact hnext y (List.mem_singleton.1 hsame ▸ hy)
        rcases (h.entered y).1 hentered with hleft | hopen
        · exact .inl (List.mem_append_left _ hleft)
        · rcases List.mem_cons.1 hopen with rfl | hopen
          · exact .inl (List.mem_append_right _ (List.mem_singleton_self y))
          · exact .inr ⟨y, hopen, hx.tail hy, hpending y hopen⟩
      · exact .inr ih

theorem Orderly.leave (h : walk.Orderly next (v :: pending))
    (hnext : ∀ w ∈ next v, w ∈ walk.entered) (hpending : ∀ u ∈ pending, Reaches next u v) :
    Orderly next pending ⟨walk.entered, walk.left ++ [v]⟩ where
  nodup := by
    rw [List.append_assoc]
    exact h.nodup
  entered w := by
    rw [h.entered, List.mem_append, List.mem_singleton, List.mem_cons, or_assoc]
  followed w hw := by
    rcases List.mem_append.1 hw with hw | hw
    · exact h.followed w hw
    · exact List.mem_singleton.1 hw ▸ hnext
  behind front w back heq x hx := by
    rcases List.eq_nil_or_concat back with rfl | ⟨back, last, rfl⟩
    · obtain ⟨rfl, hlast⟩ := List.append_inj' heq rfl
      obtain rfl : v = w := by simpa using hlast
      exact h.mem_or hnext hpending hx
    · have heq' : walk.left ++ [v] = (front ++ w :: back) ++ [last] := by simpa using heq
      obtain ⟨hleft, hlast⟩ := List.append_inj' heq' rfl
      obtain rfl : v = last := by simpa using hlast
      simpa using h.behind front w back hleft x hx

theorem Orderly.foldl {f : Walk → Nat → Walk} {m : Nat}
    (hgrows : ∀ walk v, walk.entered ⊆ (f walk v).entered) {l : List Nat}
    (h : ∀ walk, walk.Orderly next pending → unseen n walk.entered ≤ m → ∀ v ∈ l,
      (f walk v).Orderly next pending)
    (hwalk : walk.Orderly next pending) (hm : unseen n walk.entered ≤ m) :
    (l.foldl f walk).Orderly next pending := by
  induction l generalizing walk with
  | nil => exact hwalk
  | cons v l ih =>
      refine ih (fun walk hwalk hm w hw => h walk hwalk hm w (List.mem_cons_of_mem _ hw))
        (h walk hwalk hm v (List.mem_cons_self ..)) ?_
      exact (unseen_mono (hgrows walk v)).trans hm

theorem Orderly.visit (hinside : Inside n next) {depth : Nat} (h : walk.Orderly next pending)
    (hv : v < n) (hdepth : unseen n walk.entered ≤ depth)
    (hpending : ∀ u ∈ pending, Reaches next u v) :
    (Walk.visit next depth walk v).Orderly next pending := by
  induction depth generalizing walk v pending with
  | zero => exact h
  | succ depth ih =>
      rw [Walk.visit]
      split
      · exact h
      · rename_i hnew
        have hlt : unseen n (v :: walk.entered) < unseen n walk.entered :=
          unseen_lt (List.subset_cons_self v _) hv hnew (List.mem_cons_self ..)
        have hpath : ∀ w ∈ next v, ∀ u ∈ v :: pending, Reaches next u w := fun w hw u hu => by
          rcases List.mem_cons.1 hu with rfl | hu
          · exact .of_next hw
          · exact (hpending u hu).tail hw
        refine Orderly.leave ((h.enter hnew).foldl (entered_visit next depth)
          (fun inner hinner hm w hw => ih hinner (hinside v hv w hw) hm (hpath w hw))
          (show unseen n (v :: walk.entered) ≤ depth by omega)) (fun w hw => ?_) hpending
        -- with no depth left, all vertices have been entered
        cases depth with
        | zero =>
            have hall := mem_of_unseen_eq_zero (show unseen n (v :: walk.entered) = 0 by omega)
              (hinside v hv w hw)
            exact entered_foldl (entered_visit next 0) _ _ hall
        | succ depth => exact mem_entered_foldl next depth _ hw

end Walk

theorem orderly_walkThrough {n : Nat} {next : Nat → List Nat} (hinside : Inside n next) :
    (walkThrough n next).Orderly next [] := by
  refine Walk.Orderly.foldl (n := n) (m := n) (Walk.entered_visit next n)
    (fun walk hwalk hm v hv => hwalk.visit hinside (List.mem_range.1 hv) hm nofun) ?_ (unseen_le n _)
  exact ⟨List.nodup_nil, by simp, nofun, by simp⟩

section

variable {n : Nat} {next : Nat → List Nat} (hinside : Inside n next)

include hinside

theorem mem_component_iff {v w : Nat} (hv : v < n) :
    w ∈ component n next v ↔ w < n ∧ Reaches next v w ∧ Reaches next w v := by
  rw [component, List.mem_filter, List.mem_range, Bool.and_eq_true, reaches_iff hinside hv]
  constructor
  · rintro ⟨hw, hvw, hwv⟩
    exact ⟨hw, hvw, (reaches_iff hinside hw).1 hwv⟩
  · rintro ⟨hw, hvw, hwv⟩
    exact ⟨hw, hvw, (reaches_iff hinside hw).2 hwv⟩

theorem mem_component_self {v : Nat} (hv : v < n) : v ∈ component n next v :=
  (mem_component_iff hinside hv).2 ⟨hv, .refl, .refl⟩

theorem mem_component_of_mem {v w u : Nat} (hv : v < n) (hw : w < n)
    (hu : u ∈ component n next v) (hu' : u ∈ component n next w) : v ∈ component n next w := by
  obtain ⟨-, hvu, huv⟩ := (mem_component_iff hinside hv).1 hu
  obtain ⟨-, hwu, huw⟩ := (mem_component_iff hinside hw).1 hu'
  exact (mem_component_iff hinside hw).2 ⟨hv, hwu.trans huv, hvu.trans huw⟩

theorem exists_group_of_mem {l : List Nat} (hl : ∀ v ∈ l, v < n) {v : Nat} (hv : v ∈ l) :
    ∃ group ∈ lastOccurrences (component n next) l, v ∈ group := by
  induction l generalizing v with
  | nil => exact absurd hv List.not_mem_nil
  | cons w l ih =>
      obtain ⟨hw, hrest⟩ := List.forall_mem_cons.1 hl
      rw [lastOccurrences]
      split
      · rename_i hlater
        rcases List.mem_cons.1 hv with heq | hv
        · obtain ⟨u, hu, hmem⟩ := List.any_eq_true.1 hlater
          obtain ⟨group, hgroup, hu'⟩ := ih hrest hu
          obtain ⟨x, hx, rfl⟩ := exists_of_mem_lastOccurrences hgroup
          refine ⟨_, hgroup, ?_⟩
          rw [heq]
          exact mem_component_of_mem hinside hw (hrest x hx) (of_decide_eq_true hmem) hu'
        · exact ih hrest hv
      · rcases List.mem_cons.1 hv with heq | hv
        · rw [heq]
          exact ⟨_, List.mem_cons_self .., mem_component_self hinside hw⟩
        · obtain ⟨group, hgroup, hmem⟩ := ih hrest hv
          exact ⟨group, List.mem_cons_of_mem _ hgroup, hmem⟩

theorem exists_last_of_lastOccurrences {l : List Nat} (hl : ∀ v ∈ l, v < n) {pre post : List (List Nat)}
    {group : List Nat} (h : lastOccurrences (component n next) l = pre ++ group :: post) :
    ∃ front v back, l = front ++ v :: back ∧ group = component n next v ∧
      (∀ u ∈ back, u ∉ component n next v) ∧
      ∀ x ∈ front, (∃ g ∈ pre, x ∈ g) ∨ ∃ u ∈ v :: back, u ∈ component n next x := by
  induction l generalizing pre with
  | nil => simp [lastOccurrences] at h
  | cons w l ih =>
      obtain ⟨hw, hrest⟩ := List.forall_mem_cons.1 hl
      rw [lastOccurrences] at h
      split at h
      · rename_i hlater
        obtain ⟨front, v, back, rfl, hgroup, hback, hfront⟩ := ih hrest h
        refine ⟨w :: front, v, back, rfl, hgroup, hback, List.forall_mem_cons.2 ⟨?_, hfront⟩⟩
        obtain ⟨u, hu, hmem⟩ := List.any_eq_true.1 hlater
        have hmem := of_decide_eq_true hmem
        obtain ⟨-, hwu, huw⟩ := (mem_component_iff hinside hw).1 hmem
        rcases List.mem_append.1 hu with hufront | huback
        · rcases hfront u hufront with ⟨g, hg, hug⟩ | ⟨x, hx, hxu⟩
          · refine .inl ⟨g, hg, ?_⟩
            obtain ⟨y, hy, rfl⟩ := exists_of_mem_lastOccurrences
              (h ▸ List.mem_append_left _ hg : g ∈ lastOccurrences (component n next) _)
            exact mem_component_of_mem hinside hw (hrest y hy) hmem hug
          · obtain ⟨hxn, hux, hxu⟩ := (mem_component_iff hinside (hrest u hu)).1 hxu
            exact .inr ⟨x, hx, (mem_component_iff hinside hw).2
              ⟨hxn, hwu.trans hux, hxu.trans huw⟩⟩
        · exact .inr ⟨u, huback, hmem⟩
      · rename_i hlast
        cases pre with
        | nil =>
            obtain ⟨hgroup, -⟩ := List.cons.inj h
            refine ⟨[], w, l, rfl, hgroup.symm, fun u hu hmem => hlast ?_,
              fun u hu => absurd hu List.not_mem_nil⟩
            exact List.any_eq_true.2 ⟨u, hu, decide_eq_true hmem⟩
        | cons g pre =>
            obtain ⟨hfirst, hothers⟩ := List.cons.inj h
            obtain ⟨front, v, back, rfl, hgroup, hback, hfront⟩ := ih hrest hothers
            refine ⟨w :: front, v, back, rfl, hgroup, hback, List.forall_mem_cons.2 ⟨.inl
              ⟨g, List.mem_cons_self .., hfirst ▸ mem_component_self hinside hw⟩, fun x hx => ?_⟩⟩
            rcases hfront x hx with ⟨g, hg, hxg⟩ | hafter
            · exact .inl ⟨g, List.mem_cons_of_mem _ hg, hxg⟩
            · exact .inr hafter

theorem exists_group_of_next {pre post : List (List Nat)} {group : List Nat}
    (h : components n next = pre ++ group :: post) {v w : Nat} (hv : v ∈ group) (hw : w ∈ next v) :
    ∃ g ∈ pre ++ [group], w ∈ g := by
  have hordered := orderly_walkThrough hinside
  have hbounded := (bounded_walkThrough hinside).2
  rw [components] at h
  obtain ⟨front, last, back, heq, rfl, hback, hfront⟩ :=
    exists_last_of_lastOccurrences hinside hbounded h
  have hlast : last < n := hbounded last (by rw [heq]; simp)
  obtain ⟨hvn, hreach, hreach'⟩ := (mem_component_iff hinside hlast).1 hv
  -- the last vertex of the group is left behind everything that can be reached from it
  have hleft : ∀ x, Reaches next last x → x ∈ front ++ [last] := fun x hx => by
    refine (hordered.behind front last back heq x hx).resolve_right ?_
    rintro ⟨u, hu, hlu, hul⟩
    rw [List.append_nil] at hu
    exact hback u hu ((mem_component_iff hinside hlast).2
      ⟨hbounded u (by rw [heq]; simp [hu]), hlu, hul⟩)
  have hlw : Reaches next last w := hreach.tail hw
  rcases List.mem_append.1 (hleft w hlw) with hmem | hmem
  · rcases hfront w hmem with ⟨g, hg, hwg⟩ | ⟨u, hu, huw⟩
    · exact ⟨g, List.mem_append_left _ hg, hwg⟩
    · obtain ⟨hun, hwu, huw⟩ :=
        (mem_component_iff hinside (hbounded w (by rw [heq]; simp [hmem]))).1 huw
      obtain rfl : u = last := by
        have hnodup := hordered.nodup
        rw [List.append_nil, heq] at hnodup
        have hfrontBack := (List.nodup_append.1 hnodup).2.2
        rcases List.mem_append.1 (hleft u (hlw.trans hwu)) with hmem' | hmem'
        · exact absurd rfl (hfrontBack u hmem' u hu)
        · exact List.mem_singleton.1 hmem'
      exact ⟨_, List.mem_append_right _ (List.mem_singleton_self _), (mem_component_iff hinside hun).2
        ⟨lt_of_reaches hinside hun hlw, hlw, hwu⟩⟩
  · obtain rfl := List.mem_singleton.1 hmem
    exact ⟨_, List.mem_append_right _ (List.mem_singleton_self _),
      mem_component_self hinside hlast⟩

theorem nodup_flatten_lastOccurrences {l : List Nat} (hl : ∀ v ∈ l, v < n) :
    (lastOccurrences (component n next) l).flatten.Nodup := by
  induction l with
  | nil => exact List.nodup_nil
  | cons w l ih =>
      obtain ⟨hw, hrest⟩ := List.forall_mem_cons.1 hl
      rw [lastOccurrences]
      split
      · exact ih hrest
      · rename_i hlast
        rw [List.flatten_cons, List.nodup_append]
        refine ⟨List.nodup_range.filter _, ih hrest, fun u hu u' hu' heq => hlast ?_⟩
        obtain ⟨group, hgroup, hmem⟩ := List.mem_flatten.1 hu'
        obtain ⟨v, hv, rfl⟩ := exists_of_mem_lastOccurrences hgroup
        exact List.any_eq_true.2 ⟨v, hv, decide_eq_true
          (mem_component_of_mem hinside (hrest v hv) hw (heq ▸ hmem) hu)⟩

theorem nodup_flatten_components : (components n next).flatten.Nodup := by
  rw [components]
  exact nodup_flatten_lastOccurrences hinside (bounded_walkThrough hinside).2

theorem reaches_of_mem_component {group : List Nat} (hgroup : group ∈ components n next) {v w : Nat}
    (hv : v ∈ group) (hw : w ∈ group) : Reaches next v w := by
  rw [components] at hgroup
  obtain ⟨u, hu, rfl⟩ := exists_of_mem_lastOccurrences hgroup
  have hun := (bounded_walkThrough hinside).2 u hu
  obtain ⟨-, -, hvu⟩ := (mem_component_iff hinside hun).1 hv
  obtain ⟨-, huw, -⟩ := (mem_component_iff hinside hun).1 hw
  exact hvu.trans huw

theorem exists_component_of_lt {v : Nat} (hv : v < n) : ∃ group ∈ components n next, v ∈ group := by
  have hentered := (mem_entered_walkThrough_iff hinside v).1 hv
  rw [components]
  refine exists_group_of_mem hinside (bounded_walkThrough hinside).2 ?_
  exact (((orderly_walkThrough hinside).entered v).1 hentered).resolve_right List.not_mem_nil

end

theorem referencesAt_of_getElem? {defs : List Definition} {i : Nat} {d : Definition}
    (h : defs[i]? = some d) : referencesAt defs i = references defs d := by
  rw [referencesAt, List.getElem?_toArray, List.getElem?_map, h]
  rfl

theorem name_of_indexOf? {defs : List Definition} {name : String} {i : Nat}
    (h : indexOf? defs name = some i) : ∃ d, defs[i]? = some d ∧ d.name = name := by
  unfold indexOf? at h
  have hfound := List.find?_some h
  obtain ⟨d, hd, hname⟩ := (Option.any_eq_true _ _).1 hfound
  exact ⟨d, hd, of_decide_eq_true hname⟩

theorem exists_indexOf? {defs : List Definition} {name : String}
    (h : name ∈ defs.map (·.name)) :
    ∃ i d, indexOf? defs name = some i ∧ defs[i]? = some d ∧ d.name = name := by
  obtain ⟨d, hd, rfl⟩ := List.mem_map.1 h
  obtain ⟨i, hi, rfl⟩ := List.mem_iff_getElem.1 hd
  cases hindex : indexOf? defs defs[i].name with
  | none =>
      have hnone := List.find?_eq_none.1 hindex i (by simpa using hi)
      simp [hi] at hnone
  | some j =>
      obtain ⟨d, hd, hname⟩ := name_of_indexOf? hindex
      exact ⟨j, d, rfl, hd, hname⟩

end Formulary.Definition
