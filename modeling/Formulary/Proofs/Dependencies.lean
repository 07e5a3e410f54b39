import Formulary.Proofs.Searching

namespace Formulary

/-- A name stands in an expression, as an object or applied, outside the cases that bind it. -/
inductive Expr.OccursFree (name : String) : Expr → Prop
  | object : OccursFree name (.object name)
  | applied {args : List Expr} : OccursFree name (.operation name args)
  | argument {f : String} {args : List Expr} {e : Expr} (he : e ∈ args) (h : OccursFree name e) :
      OccursFree name (.operation f args)
  | scrutinee {e : Expr} {cases : List (Pattern × Expr)} (h : OccursFree name e) :
      OccursFree name (.matching e cases)
  | case {e body : Expr} {cases : List (Pattern × Expr)} {p : Pattern} (hcase : (p, body) ∈ cases)
      (hp : name ∉ p.vars) (h : OccursFree name body) : OccursFree name (.matching e cases)

namespace Expr

variable {name : String}

mutual

theorem mem_freeOccurrences_iff {bound : List String} (e : Expr) :
    name ∈ e.freeOccurrences bound ↔ name ∉ bound ∧ e.OccursFree name := by
  match e with
  | .blank | .const _ =>
      rw [freeOccurrences]
      exact iff_of_false List.not_mem_nil fun h => nomatch h.2
  | .object other =>
      rw [freeOccurrences]
      constructor
      · intro h
        split at h
        · exact absurd h List.not_mem_nil
        · rename_i hbound
          obtain rfl := List.mem_singleton.1 h
          exact ⟨hbound, .object⟩
      · rintro ⟨hbound, ⟨⟩⟩
        rw [if_neg hbound]
        exact List.mem_singleton_self _
  | .operation f args =>
      rw [freeOccurrences, List.mem_append, mem_freeOccurrencesList_iff args]
      constructor
      · rintro (h | ⟨hbound, e, he, h⟩)
        · split at h
          · exact absurd h List.not_mem_nil
          · rename_i hbound
            obtain rfl := List.mem_singleton.1 h
            exact ⟨hbound, .applied⟩
        · exact ⟨hbound, .argument he h⟩
      · rintro ⟨hbound, h⟩
        cases h with
        | applied =>
            rw [if_neg hbound]
            exact .inl (List.mem_singleton_self _)
        | argument he h => exact .inr ⟨hbound, _, he, h⟩
  | .matching scrutinee cases =>
      rw [freeOccurrences, List.mem_append, mem_freeOccurrences_iff scrutinee,
        mem_freeOccurrencesCases_iff cases]
      constructor
      · rintro (⟨hbound, h⟩ | ⟨hbound, p, body, hcase, hp, h⟩)
        · exact ⟨hbound, .scrutinee h⟩
        · exact ⟨hbound, .case hcase hp h⟩
      · rintro ⟨hbound, h⟩
        cases h with
        | scrutinee h => exact .inl ⟨hbound, h⟩
        | case hcase hp h => exact .inr ⟨hbound, _, _, hcase, hp, h⟩

theorem mem_freeOccurrencesList_iff {bound : List String} (es : List Expr) :
    name ∈ freeOccurrencesList bound es ↔ name ∉ bound ∧ ∃ e ∈ es, e.OccursFree name := by
  match es with
  | [] => simp [freeOccurrencesList]
  | e :: es =>
      rw [freeOccurrencesList, List.mem_append, mem_freeOccurrences_iff e,
        mem_freeOccurrencesList_iff es, List.exists_mem_cons_iff, and_or_left]

theorem mem_freeOccurrencesCases_iff {bound : List String} (cases : List (Pattern × Expr)) :
    name ∈ freeOccurrencesCases bound cases ↔
      name ∉ bound ∧ ∃ p body, (p, body) ∈ cases ∧ name ∉ p.vars ∧ body.OccursFree name := by
  match cases with
  | [] => simp [freeOccurrencesCases]
  | (p, body) :: rest =>
      rw [freeOccurrencesCases, List.mem_append, mem_freeOccurrences_iff body,
        mem_freeOccurrencesCases_iff rest, List.mem_append, not_or]
      constructor
      · rintro (⟨⟨hp, hbound⟩, h⟩ | ⟨hbound, p', body', hcase, hp, h⟩)
        · exact ⟨hbound, p, body, List.mem_cons_self .., hp, h⟩
        · exact ⟨hbound, p', body', List.mem_cons_of_mem _ hcase, hp, h⟩
      · rintro ⟨hbound, p', body', hcase, hp, h⟩
        rcases List.mem_cons.1 hcase with heq | hcase
        · cases heq
          exact .inl ⟨⟨hp, hbound⟩, h⟩
        · exact .inr ⟨hbound, p', body', hcase, hp, h⟩

end

theorem mem_freeNames_iff {e : Expr} : name ∈ e.freeNames ↔ e.OccursFree name := by
  rw [freeNames, List.mem_eraseDups, mem_freeOccurrences_iff]
  exact and_iff_right List.not_mem_nil

end Expr

namespace Definition

/-- The body of one definition refers, free and outside its parameters, to the name of another. -/
def Mentions (defs : List Definition) (i j : Nat) : Prop :=
  ∃ d e, defs[i]? = some d ∧ defs[j]? = some e ∧ d.body.OccursFree e.name ∧ e.name ∉ d.paramNames

/-- No later definition has the name of the one at an index. -/
def IsLast (defs : List Definition) (j : Nat) : Prop :=
  ∀ k d e, j < k → defs[j]? = some d → defs[k]? = some e → e.name ≠ d.name

/-- A definition refers to another one, the last of its name. -/
def RefersTo (defs : List Definition) (i j : Nat) : Prop := Mentions defs i j ∧ IsLast defs j

theorem isLast_of_indexOf? {defs : List Definition} {name : String} {j : Nat}
    (h : indexOf? defs name = some j) : IsLast defs j := by
  intro k d e hlt hd he heq
  obtain ⟨d', hd', hname⟩ := name_of_indexOf? h
  obtain rfl := Option.some.inj (hd.symm.trans hd')
  obtain ⟨-, before, after, hsplit, hbefore⟩ := List.find?_eq_some_iff_append.1 h
  have hk : k < defs.length := (List.getElem?_eq_some_iff.1 he).1
  have hmem : k ∈ before ++ j :: after :=
    hsplit ▸ List.mem_reverse.2 (List.mem_range.2 hk)
  have hdescending : (before ++ j :: after).Pairwise (· > ·) :=
    hsplit ▸ List.pairwise_reverse.2 List.pairwise_lt_range
  rcases List.mem_append.1 hmem with hmem | hmem
  · have hnot := hbefore k hmem
    rw [he, Option.any_some, heq.trans hname] at hnot
    simp at hnot
  · rcases List.mem_cons.1 hmem with rfl | hmem
    · exact Nat.lt_irrefl k hlt
    · have hgt := List.rel_of_pairwise_cons (List.pairwise_append.1 hdescending).2.1 hmem
      exact Nat.lt_asymm hlt hgt

theorem indexOf?_eq_some_iff {defs : List Definition} {name : String} {j : Nat} :
    indexOf? defs name = some j ↔ (∃ d, defs[j]? = some d ∧ d.name = name) ∧ IsLast defs j := by
  constructor
  · exact fun h => ⟨name_of_indexOf? h, isLast_of_indexOf? h⟩
  · rintro ⟨⟨d, hd, rfl⟩, hlast⟩
    obtain ⟨i, e, hi, he, hname⟩ :=
      exists_indexOf? (List.mem_map_of_mem (List.mem_of_getElem? hd) : d.name ∈ defs.map (·.name))
    rcases Nat.lt_trichotomy i j with hlt | rfl | hlt
    · exact absurd hname.symm (isLast_of_indexOf? hi j e d hlt he hd)
    · exact hi
    · exact absurd hname (hlast i d e hlt hd he)

theorem mem_referencesAt_iff {defs : List Definition} {i j : Nat} :
    j ∈ referencesAt defs i ↔ RefersTo defs i j := by
  cases hd : defs[i]? with
  | none =>
      refine iff_of_false (fun h => ?_) fun ⟨⟨d, _, hd', _⟩, _⟩ => absurd (hd.symm.trans hd') nofun
      rw [referencesAt, List.getElem?_toArray, List.getElem?_map, hd] at h
      exact List.not_mem_nil h
  | some d =>
      rw [referencesAt_of_getElem? hd, references, List.mem_eraseDups, List.mem_filterMap]
      constructor
      · rintro ⟨name, hname, hindex⟩
        obtain ⟨hfree, hparam⟩ := List.mem_filter.1 hname
        obtain ⟨⟨e, he, rfl⟩, hlast⟩ := indexOf?_eq_some_iff.1 hindex
        exact ⟨⟨d, e, hd, he, Expr.mem_freeNames_iff.1 hfree, of_decide_eq_true hparam⟩, hlast⟩
      · rintro ⟨⟨d', e, hd', he, hfree, hparam⟩, hlast⟩
        obtain rfl := Option.some.inj (hd.symm.trans hd')
        exact ⟨e.name, List.mem_filter.2 ⟨Expr.mem_freeNames_iff.2 hfree, decide_eq_true hparam⟩,
          indexOf?_eq_some_iff.2 ⟨⟨e, he, rfl⟩, hlast⟩⟩

theorem refersTo_iff_mentions {defs : List Definition} (h : (defs.map (·.name)).Nodup) {i j : Nat} :
    RefersTo defs i j ↔ Mentions defs i j := by
  refine and_iff_left fun k d e hlt hd he heq => ?_
  have hj : (defs.map (·.name))[j]? = some d.name := by rw [List.getElem?_map, hd, Option.map_some]
  have hk : (defs.map (·.name))[k]? = some d.name := by
    rw [List.getElem?_map, he, Option.map_some, heq]
  have hlength : j < (defs.map (·.name)).length := (List.getElem?_eq_some_iff.1 hj).1
  exact Nat.ne_of_lt hlt ((List.getElem?_inj hlength h).1 (hj.trans hk.symm))

/-- Vertices `0, …, n - 1` are put into groups: those together that reach each other, every group
behind the ones that edges lead to from it, and each in increasing order. -/
structure IsGrouping (n : Nat) (edge : Nat → Nat → Prop) (groups : List (List Nat)) : Prop where
  partition : groups.flatten.Perm (List.range n)
  nonempty : ∀ group ∈ groups, group ≠ []
  together : ∀ i < n, ∀ j < n, (∃ group ∈ groups, i ∈ group ∧ j ∈ group) ↔
    Relation.ReflTransGen edge i j ∧ Relation.ReflTransGen edge j i
  ordered : ∀ i j, edge i j → ∀ pre group post, groups = pre ++ group :: post → i ∈ group →
    ∃ earlier ∈ pre ++ [group], j ∈ earlier
  increasing : ∀ group ∈ groups, group.Pairwise (· < ·)

theorem isGrouping_components {n : Nat} {next : Nat → List Nat} (hinside : Inside n next) :
    IsGrouping n (fun i j => j ∈ next i) (components n next) := by
  have hgroup : ∀ group ∈ components n next, ∃ v < n, group = component n next v := by
    intro group hmem
    obtain ⟨v, hv, rfl⟩ := exists_of_mem_lastOccurrences hmem
    exact ⟨v, (bounded_walkThrough hinside).2 v hv, rfl⟩
  refine ⟨?partition, ?nonempty, fun i hi j hj => ⟨?reach, ?meet⟩, ?ordered, ?increasing⟩
  case partition =>
    refine (List.perm_ext_iff_of_nodup (nodup_flatten_components hinside) List.nodup_range).2
      fun v => ?_
    rw [List.mem_flatten, List.mem_range]
    constructor
    · rintro ⟨group, hmem, hv⟩
      obtain ⟨u, -, rfl⟩ := hgroup group hmem
      exact List.mem_range.1 (List.mem_filter.1 hv).1
    · exact exists_component_of_lt hinside
  case nonempty =>
    intro group hmem
    obtain ⟨v, hv, rfl⟩ := hgroup group hmem
    exact List.ne_nil_of_mem (mem_component_self hinside hv)
  case reach =>
    rintro ⟨group, hmem, hi', hj'⟩
    exact ⟨reaches_of_mem_component hinside hmem hi' hj', reaches_of_mem_component hinside hmem hj' hi'⟩
  case meet =>
    rintro ⟨hij, hji⟩
    obtain ⟨group, hmem, hi'⟩ := exists_component_of_lt hinside hi
    refine ⟨group, hmem, hi', ?_⟩
    obtain ⟨v, hv, rfl⟩ := hgroup group hmem
    obtain ⟨-, hvi, hiv⟩ := (mem_component_iff hinside hv).1 hi'
    exact (mem_component_iff hinside hv).2 ⟨hj, hvi.trans hij, .trans hji hiv⟩
  case ordered =>
    exact fun i j hj pre group post heq hi => exists_group_of_next hinside heq hi hj
  case increasing =>
    intro group hmem
    obtain ⟨v, -, rfl⟩ := hgroup group hmem
    exact component_pairwise n next v

/-- The groups of definitions are the classes of those that reach each other through references, and
every group stands behind the ones that it refers to. Where no two definitions have one name, a
definition refers to all whose names stand free in its body. -/
theorem groups_are_grouping (defs : List Definition) :
    IsGrouping defs.length (RefersTo defs) (groups defs) ∧
      ((defs.map (·.name)).Nodup → IsGrouping defs.length (Mentions defs) (groups defs)) := by
  have hreferences : (fun i j => j ∈ referencesAt defs i) = RefersTo defs :=
    funext fun i => funext fun j => propext mem_referencesAt_iff
  have hgrouping := isGrouping_components (inside_referencesAt defs)
  rw [hreferences, ← groups_eq_components] at hgrouping
  refine ⟨hgrouping, fun hnames => ?_⟩
  have hmentions : RefersTo defs = Mentions defs :=
    funext fun i => funext fun j => propext (refersTo_iff_mentions hnames)
  exact hmentions ▸ hgrouping

/-- Two definitions that call each other, one that calls them, and one whose parameter hides a name. -/
def parities : List Definition :=
  [⟨"main", [], none, .operation "even" [.const "1"]⟩,
    ⟨"even", [⟨"n", none⟩], none, .operation "odd" [.object "n"]⟩,
    ⟨"odd", [⟨"n", none⟩], none, .operation "even" [.object "n"]⟩,
    ⟨"shadow", [⟨"even", none⟩], none, .object "even"⟩]

theorem groups_are_grouping_parities :
    groups parities = [[1, 2], [0], [3]] ∧
      IsGrouping 4 (Mentions parities) (groups parities) := by
  have hnames : (parities.map (·.name)).Nodup := by decide
  exact ⟨by cbv, (groups_are_grouping parities).2 hnames⟩

/-- Three definitions of two names. -/
def redefined : List Definition :=
  [⟨"f", [], none, .object "g"⟩, ⟨"g", [], none, .object "f"⟩, ⟨"f", [], none, .const "1"⟩]

/-- A name that is defined again later is that of the later definition alone, so the earlier one may
be in a group without those that mention it. -/
theorem not_isGrouping_redefined :
    ¬IsGrouping redefined.length (Mentions redefined) (groups redefined) := by
  intro h
  have hgroups : groups redefined = [[2], [1], [0]] := by cbv
  have hfg : Mentions redefined 0 1 := ⟨_, _, rfl, rfl, .object, List.not_mem_nil⟩
  have hgf : Mentions redefined 1 0 := ⟨_, _, rfl, rfl, .object, List.not_mem_nil⟩
  obtain ⟨group, hgroup, h0, h1⟩ :=
    (h.together 0 (by decide) 1 (by decide)).2 ⟨.single hfg, .single hgf⟩
  rw [hgroups] at hgroup
  have hdisjoint : ∀ group ∈ [[2], [1], [0]], ¬(0 ∈ group ∧ 1 ∈ group) := by decide
  exact hdisjoint group hgroup ⟨h0, h1⟩

end Definition

end Formulary
