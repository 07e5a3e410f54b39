import Formulary.Proofs.FirstOrder
import Formulary.Proofs.Nameless

namespace Formulary

namespace Expr

mutual

/-- The names of applied operations. -/
def heads : Expr → List String
  | .blank | .const _ | .object _ => []
  | .operation name args => name :: headsList args
  | .matching scrutinee cases => scrutinee.heads ++ headsCases cases

def headsList : List Expr → List String
  | [] => []
  | e :: es => e.heads ++ headsList es

def headsCases : List (Pattern × Expr) → List String
  | [] => []
  | (_, body) :: rest => body.heads ++ headsCases rest

end

mutual

/-- The names of applied operations that an enclosing case or `bound` binds. -/
def appliedLocals (bound : List String) : Expr → List String
  | .blank | .const _ | .object _ => []
  | .operation name args => (if name ∈ bound then [name] else []) ++ appliedLocalsList bound args
  | .matching scrutinee cases => scrutinee.appliedLocals bound ++ appliedLocalsCases bound cases

def appliedLocalsList (bound : List String) : List Expr → List String
  | [] => []
  | e :: es => e.appliedLocals bound ++ appliedLocalsList bound es

def appliedLocalsCases (bound : List String) : List (Pattern × Expr) → List String
  | [] => []
  | (p, body) :: rest => body.appliedLocals (p.vars ++ bound) ++ appliedLocalsCases bound rest

end

variable {name : String}

mutual

theorem mem_freeObjects_or_heads {e : Expr} {bound : List String}
    (h : name ∈ e.freeOccurrences bound) : name ∈ e.freeObjects bound ∨ name ∈ e.heads := by
  match e with
  | .blank | .const _ => exact absurd h List.not_mem_nil
  | .object other => exact .inl h
  | .operation op args =>
      rcases List.mem_append.1 h with h | h
      · split at h
        · exact absurd h List.not_mem_nil
        · exact .inr (List.mem_cons.2 (.inl (List.mem_singleton.1 h)))
      · exact (mem_freeObjectsList_or_heads h).imp_right (List.mem_cons_of_mem _)
  | .matching scrutinee cases =>
      rcases List.mem_append.1 h with h | h
      · exact (mem_freeObjects_or_heads h).imp (List.mem_append_left _) (List.mem_append_left _)
      · exact (mem_freeObjectsCases_or_heads h).imp (List.mem_append_right _)
          (List.mem_append_right _)

theorem mem_freeObjectsList_or_heads {es : List Expr} {bound : List String}
    (h : name ∈ freeOccurrencesList bound es) :
    name ∈ freeObjectsList bound es ∨ name ∈ headsList es := by
  match es with
  | [] => exact absurd h List.not_mem_nil
  | e :: es =>
      rcases List.mem_append.1 h with h | h
      · exact (mem_freeObjects_or_heads h).imp (List.mem_append_left _) (List.mem_append_left _)
      · exact (mem_freeObjectsList_or_heads h).imp (List.mem_append_right _)
          (List.mem_append_right _)

theorem mem_freeObjectsCases_or_heads {cases : List (Pattern × Expr)} {bound : List String}
    (h : name ∈ freeOccurrencesCases bound cases) :
    name ∈ freeObjectsCases bound cases ∨ name ∈ headsCases cases := by
  match cases with
  | [] => exact absurd h List.not_mem_nil
  | (p, body) :: rest =>
      rcases List.mem_append.1 h with h | h
      · exact (mem_freeObjects_or_heads h).imp (List.mem_append_left _) (List.mem_append_left _)
      · exact (mem_freeObjectsCases_or_heads h).imp (List.mem_append_right _)
          (List.mem_append_right _)

end

mutual

theorem mem_freeOccurrences_of_mem_freeObjects {e : Expr} {bound : List String}
    (h : name ∈ e.freeObjects bound) : name ∈ e.freeOccurrences bound := by
  match e with
  | .blank | .const _ => exact absurd h List.not_mem_nil
  | .object other => exact h
  | .operation op args =>
      exact List.mem_append_right _ (mem_freeOccurrencesList_of_mem_freeObjectsList h)
  | .matching scrutinee cases =>
      exact List.mem_append.2 ((List.mem_append.1 h).imp mem_freeOccurrences_of_mem_freeObjects
        mem_freeOccurrencesCases_of_mem_freeObjectsCases)

theorem mem_freeOccurrencesList_of_mem_freeObjectsList {es : List Expr} {bound : List String}
    (h : name ∈ freeObjectsList bound es) : name ∈ freeOccurrencesList bound es := by
  match es with
  | [] => exact absurd h List.not_mem_nil
  | e :: es =>
      exact List.mem_append.2 ((List.mem_append.1 h).imp mem_freeOccurrences_of_mem_freeObjects
        mem_freeOccurrencesList_of_mem_freeObjectsList)

theorem mem_freeOccurrencesCases_of_mem_freeObjectsCases {cases : List (Pattern × Expr)}
    {bound : List String} (h : name ∈ freeObjectsCases bound cases) :
    name ∈ freeOccurrencesCases bound cases := by
  match cases with
  | [] => exact absurd h List.not_mem_nil
  | (p, body) :: rest =>
      exact List.mem_append.2 ((List.mem_append.1 h).imp mem_freeOccurrences_of_mem_freeObjects
        mem_freeOccurrencesCases_of_mem_freeObjectsCases)

end

mutual

/-- What is applied is free, or applied where it is bound. -/
theorem mem_freeOccurrences_or_appliedLocals {e : Expr} (bound : List String)
    (h : name ∈ e.heads) : name ∈ e.freeOccurrences bound ∨ name ∈ e.appliedLocals bound := by
  match e with
  | .blank | .const _ | .object _ => exact absurd h List.not_mem_nil
  | .operation op args =>
      rcases List.mem_cons.1 h with rfl | h
      · by_cases hbound : name ∈ bound
        · exact .inr (List.mem_append_left _ (by simp [hbound]))
        · exact .inl (List.mem_append_left _ (by simp [hbound]))
      · exact (mem_freeOccurrences_or_appliedLocalsList bound h).imp (List.mem_append_right _)
          (List.mem_append_right _)
  | .matching scrutinee cases =>
      rcases List.mem_append.1 h with h | h
      · exact (mem_freeOccurrences_or_appliedLocals bound h).imp (List.mem_append_left _)
          (List.mem_append_left _)
      · exact (mem_freeOccurrences_or_appliedLocalsCases bound h).imp (List.mem_append_right _)
          (List.mem_append_right _)

theorem mem_freeOccurrences_or_appliedLocalsList {es : List Expr} (bound : List String)
    (h : name ∈ headsList es) :
    name ∈ freeOccurrencesList bound es ∨ name ∈ appliedLocalsList bound es := by
  match es with
  | [] => exact absurd h List.not_mem_nil
  | e :: es =>
      rcases List.mem_append.1 h with h | h
      · exact (mem_freeOccurrences_or_appliedLocals bound h).imp (List.mem_append_left _)
          (List.mem_append_left _)
      · exact (mem_freeOccurrences_or_appliedLocalsList bound h).imp (List.mem_append_right _)
          (List.mem_append_right _)

theorem mem_freeOccurrences_or_appliedLocalsCases {cases : List (Pattern × Expr)}
    (bound : List String) (h : name ∈ headsCases cases) :
    name ∈ freeOccurrencesCases bound cases ∨ name ∈ appliedLocalsCases bound cases := by
  match cases with
  | [] => exact absurd h List.not_mem_nil
  | (p, body) :: rest =>
      rcases List.mem_append.1 h with h | h
      · exact (mem_freeOccurrences_or_appliedLocals (p.vars ++ bound) h).imp
          (List.mem_append_left _) (List.mem_append_left _)
      · exact (mem_freeOccurrences_or_appliedLocalsCases bound h).imp (List.mem_append_right _)
          (List.mem_append_right _)

end

mutual

theorem mem_freeObjects_append (e : Expr) (bound more : List String) :
    name ∈ e.freeObjects (bound ++ more) ↔ name ∈ e.freeObjects bound ∧ name ∉ more := by
  match e with
  | .blank | .const _ => simp [freeObjects]
  | .object other =>
      simp only [freeObjects]
      grind
  | .operation op args => exact mem_freeObjectsList_append args bound more
  | .matching scrutinee cases =>
      simp only [freeObjects, List.mem_append, mem_freeObjects_append scrutinee bound more,
        mem_freeObjectsCases_append cases bound more]
      tauto

theorem mem_freeObjectsList_append (es : List Expr) (bound more : List String) :
    name ∈ freeObjectsList (bound ++ more) es ↔
      name ∈ freeObjectsList bound es ∧ name ∉ more := by
  match es with
  | [] => simp [freeObjectsList]
  | e :: es =>
      simp only [freeObjectsList, List.mem_append, mem_freeObjects_append e bound more,
        mem_freeObjectsList_append es bound more]
      tauto

theorem mem_freeObjectsCases_append (cases : List (Pattern × Expr)) (bound more : List String) :
    name ∈ freeObjectsCases (bound ++ more) cases ↔
      name ∈ freeObjectsCases bound cases ∧ name ∉ more := by
  match cases with
  | [] => simp [freeObjectsCases]
  | (p, body) :: rest =>
      simp only [freeObjectsCases, List.mem_append, ← List.append_assoc,
        mem_freeObjects_append body (p.vars ++ bound) more,
        mem_freeObjectsCases_append rest bound more]
      tauto

end

mutual

theorem heads_rename (names : List (String × String)) (e : Expr) :
    (e.rename names).heads = e.heads := by
  match e with
  | .blank | .const _ | .object _ => rfl
  | .operation op args => rw [rename, heads, heads, headsList_renameList]
  | .matching scrutinee cases => rw [rename, heads, heads, heads_rename, headsCases_renameCases]

theorem headsList_renameList (names : List (String × String)) (es : List Expr) :
    headsList (renameList names es) = headsList es := by
  match es with
  | [] => rfl
  | e :: es => rw [renameList, headsList, headsList, heads_rename, headsList_renameList]

theorem headsCases_renameCases (names : List (String × String)) (cases : List (Pattern × Expr)) :
    headsCases (renameCases names cases) = headsCases cases := by
  match cases with
  | [] => rfl
  | (p, body) :: rest =>
      rw [renameCases, headsCases, headsCases, heads_rename, headsCases_renameCases]

end

theorem heads_avoidCapture (bindings : Bindings) (p : Pattern) (body : Expr) :
    (avoidCapture bindings p body).2.heads = body.heads := by
  simp only [avoidCapture]
  split
  · rfl
  · exact heads_rename _ body

mutual

theorem mem_heads_substitute {e : Expr} {bindings : Bindings}
    (h : name ∈ (e.substitute bindings).heads) :
    name ∈ e.heads ∨ ∃ b ∈ bindings, name ∈ b.2.heads := by
  match e with
  | .blank | .const _ =>
      rw [substitute] at h
      exact .inl h
  | .object other =>
      rw [substitute] at h
      cases hlookup : bindings.lookup other with
      | none =>
          rw [hlookup] at h
          exact .inl h
      | some a =>
          rw [hlookup] at h
          obtain ⟨front, back, rfl, -⟩ := List.lookup_eq_some_iff.1 hlookup
          exact .inr ⟨(other, a), by simp, h⟩
  | .operation op args =>
      rw [substitute] at h
      rcases List.mem_cons.1 h with rfl | h
      · exact .inl (List.mem_cons_self ..)
      · exact (mem_headsList_substituteList h).imp_left (List.mem_cons_of_mem _)
  | .matching scrutinee cases =>
      rw [substitute] at h
      rcases List.mem_append.1 h with h | h
      · exact (mem_heads_substitute h).imp_left (List.mem_append_left _)
      · exact (mem_headsCases_substituteCases h).imp_left (List.mem_append_right _)
termination_by e.size
decreasing_by all_goals simp only [size]; omega

theorem mem_headsList_substituteList {es : List Expr} {bindings : Bindings}
    (h : name ∈ headsList (substituteList bindings es)) :
    name ∈ headsList es ∨ ∃ b ∈ bindings, name ∈ b.2.heads := by
  match es with
  | [] =>
      rw [substituteList] at h
      exact absurd h List.not_mem_nil
  | e :: es =>
      rw [substituteList] at h
      rcases List.mem_append.1 h with h | h
      · exact (mem_heads_substitute h).imp_left (List.mem_append_left _)
      · exact (mem_headsList_substituteList h).imp_left (List.mem_append_right _)
termination_by sizeList es
decreasing_by all_goals simp only [sizeList]; omega

theorem mem_headsCases_substituteCases {cases : List (Pattern × Expr)} {bindings : Bindings}
    (h : name ∈ headsCases (substituteCases bindings cases)) :
    name ∈ headsCases cases ∨ ∃ b ∈ bindings, name ∈ b.2.heads := by
  match cases with
  | [] =>
      rw [substituteCases] at h
      exact absurd h List.not_mem_nil
  | (p, body) :: rest =>
      rw [substituteCases] at h
      rcases List.mem_append.1 h with h | h
      · rcases mem_heads_substitute h with h | ⟨b, hb, h⟩
        · rw [heads_avoidCapture] at h
          exact .inl (List.mem_append_left _ h)
        · exact .inr ⟨b, (List.mem_filter.1 hb).1, h⟩
      · exact (mem_headsCases_substituteCases h).imp_left (List.mem_append_right _)
termination_by sizeCases cases
decreasing_by
  · simp only [sizeCases, size_avoidCapture]
    omega
  · simp only [sizeCases]
    omega

end

variable {N : String → Prop}

/-- Some names are all that an expression refers to or applies. -/
structure NamesWithin (N : String → Prop) (e : Expr) : Prop where
  objects : ∀ name ∈ e.freeObjects [], N name
  heads : ∀ name ∈ e.heads, N name

theorem NamesWithin.freeNames {e : Expr} (h : e.NamesWithin N) : ∀ name ∈ e.freeNames, N name := by
  intro name hname
  rcases mem_freeObjects_or_heads (List.mem_eraseDups.1 hname) with hname | hname
  · exact h.objects name hname
  · exact h.heads name hname

theorem namesWithin_list_iff {es : List Expr} : (∀ e ∈ es, e.NamesWithin N) ↔
    (∀ name ∈ freeObjectsList [] es, N name) ∧ ∀ name ∈ headsList es, N name := by
  induction es with
  | nil => simp [freeObjectsList, headsList]
  | cons e es ih =>
      simp only [List.forall_mem_cons, ih, freeObjectsList, headsList, List.forall_mem_append]
      constructor
      · rintro ⟨h, hobjects, hheads⟩
        exact ⟨⟨h.objects, hobjects⟩, h.heads, hheads⟩
      · rintro ⟨⟨hobjects, hobjects'⟩, hheads, hheads'⟩
        exact ⟨⟨hobjects, hheads⟩, hobjects', hheads'⟩

theorem namesWithin_operation_iff {op : String} {args : List Expr} :
    (operation op args).NamesWithin N ↔ N op ∧ ∀ e ∈ args, e.NamesWithin N := by
  rw [namesWithin_list_iff]
  constructor
  · rintro ⟨hobjects, hheads⟩
    obtain ⟨hop, hheads⟩ := List.forall_mem_cons.1 hheads
    exact ⟨hop, hobjects, hheads⟩
  · rintro ⟨hop, hobjects, hheads⟩
    exact ⟨hobjects, List.forall_mem_cons.2 ⟨hop, hheads⟩⟩

theorem namesWithin_object_iff {other : String} : (object other).NamesWithin N ↔ N other :=
  ⟨fun h => h.objects other (List.mem_singleton_self other), fun h =>
    ⟨fun _ hname => List.mem_singleton.1 hname ▸ h, fun _ hname => absurd hname List.not_mem_nil⟩⟩

/-- Some names are all that an expression refers to, apart from variables that are bound around it,
or applies. -/
structure BodyWithin (N : String → Prop) (body : Expr) (vars : List String) : Prop where
  objects : ∀ name ∈ body.freeObjects [], name ∉ vars → N name
  heads : ∀ name ∈ body.heads, N name

theorem NamesWithin.matching {scrutinee : Expr} {cases : List (Pattern × Expr)}
    (h : (matching scrutinee cases).NamesWithin N) :
    scrutinee.NamesWithin N ∧ ∀ c ∈ cases, c.2.BodyWithin N c.1.vars := by
  obtain ⟨hobjects, hobjects'⟩ := List.forall_mem_append.1 h.objects
  obtain ⟨hheads, hheads'⟩ := List.forall_mem_append.1 h.heads
  refine ⟨⟨hobjects, hheads⟩, ?_⟩
  clear h hobjects hheads
  induction cases with
  | nil => exact fun c hc => absurd hc List.not_mem_nil
  | cons c rest ih =>
      obtain ⟨p, body⟩ := c
      obtain ⟨hbody, hrest⟩ := List.forall_mem_append.1 hobjects'
      obtain ⟨hbody', hrest'⟩ := List.forall_mem_append.1 hheads'
      refine List.forall_mem_cons.2 ⟨⟨fun name hname hvar => hbody name ?_, hbody'⟩, ih hrest hrest'⟩
      rw [List.append_nil, ← List.nil_append p.vars]
      exact (mem_freeObjects_append body [] p.vars).2 ⟨hname, hvar⟩

/-- Once expressions are put for the variables that are bound around it. -/
theorem BodyWithin.substitute {vars : List String} {body : Expr} {bindings : Bindings}
    (h : body.BodyWithin N vars) (hvars : ∀ name, bindings.lookup name = none → name ∉ vars)
    (hbindings : ∀ b ∈ bindings, b.2.NamesWithin N) : (body.substitute bindings).NamesWithin N where
  objects name hfree := by
    rcases mem_freeObjects_substitute.1 hfree with ⟨hname, hnone⟩ | ⟨x, -, a, hlookup, hname⟩
    · exact h.objects name hname (hvars name hnone)
    · obtain ⟨front, back, rfl, -⟩ := List.lookup_eq_some_iff.1 hlookup
      exact (hbindings (x, a) (by simp)).objects name hname
  heads name hname := by
    rcases mem_heads_substitute hname with hname | ⟨b, hb, hname⟩
    · exact h.heads name hname
    · exact (hbindings b hb).heads name hname

end Expr

namespace Pattern

mutual

theorem notMem_vars_of_matchInto {p : Pattern} {value : Expr} {bindings bindings' : Expr.Bindings}
    (h : p.matchInto bindings value = some bindings') {name : String}
    (hname : bindings'.lookup name = none) : name ∉ p.vars ∧ bindings.lookup name = none := by
  match p with
  | .wildcard =>
      cases h
      exact ⟨List.not_mem_nil, hname⟩
  | .var other =>
      cases h
      rw [Expr.Bindings.lookup_bind] at hname
      split at hname
      · cases hname
      · rename_i hne
        exact ⟨fun hmem => hne (List.mem_singleton.1 hmem), hname⟩
  | .const literal =>
      rw [matchInto_const h] at hname
      exact ⟨List.not_mem_nil, hname⟩
  | .constructor constructorName args =>
      rcases matchInto_constructor h with ⟨rfl, rfl, rfl⟩ | ⟨values, rfl, hargs⟩
      · exact ⟨List.not_mem_nil, hname⟩
      · exact notMem_vars_of_matchListInto hargs hname

theorem notMem_vars_of_matchListInto {ps : List Pattern} {values : List Expr}
    {bindings bindings' : Expr.Bindings} (h : matchListInto bindings ps values = some bindings')
    {name : String} (hname : bindings'.lookup name = none) :
    name ∉ varsList ps ∧ bindings.lookup name = none := by
  match ps, values with
  | [], [] =>
      cases h
      exact ⟨List.not_mem_nil, hname⟩
  | [], _ :: _ => cases h
  | _ :: _, [] => cases h
  | p :: ps, value :: values =>
      rw [matchListInto] at h
      split at h
      · rename_i bindings₁ hfirst
        obtain ⟨hrest, hname⟩ := notMem_vars_of_matchListInto h hname
        obtain ⟨hvars, hname⟩ := notMem_vars_of_matchInto hfirst hname
        exact ⟨fun hmem => (List.mem_append.1 hmem).elim hvars hrest, hname⟩
      · cases h

end

variable {N : String → Prop}

theorem namesWithin_bind {bindings : Expr.Bindings} (h : ∀ b ∈ bindings, b.2.NamesWithin N)
    (name : String) {e : Expr} (he : e.NamesWithin N) :
    ∀ b ∈ bindings.bind name e, b.2.NamesWithin N :=
  List.forall_mem_cons.2 ⟨he, fun b hb => h b (List.mem_filter.1 hb).1⟩

mutual

theorem namesWithin_matchInto {p : Pattern} {value : Expr} {bindings bindings' : Expr.Bindings}
    (h : p.matchInto bindings value = some bindings') (hvalue : value.NamesWithin N)
    (hbindings : ∀ b ∈ bindings, b.2.NamesWithin N) : ∀ b ∈ bindings', b.2.NamesWithin N := by
  match p with
  | .wildcard =>
      cases h
      exact hbindings
  | .var other =>
      cases h
      exact namesWithin_bind hbindings other hvalue
  | .const literal =>
      rw [matchInto_const h]
      exact hbindings
  | .constructor constructorName args =>
      rcases matchInto_constructor h with ⟨rfl, rfl, rfl⟩ | ⟨values, rfl, hargs⟩
      · exact hbindings
      · exact namesWithin_matchListInto hargs (Expr.namesWithin_operation_iff.1 hvalue).2 hbindings

theorem namesWithin_matchListInto {ps : List Pattern} {values : List Expr}
    {bindings bindings' : Expr.Bindings} (h : matchListInto bindings ps values = some bindings')
    (hvalues : ∀ value ∈ values, value.NamesWithin N)
    (hbindings : ∀ b ∈ bindings, b.2.NamesWithin N) : ∀ b ∈ bindings', b.2.NamesWithin N := by
  match ps, values with
  | [], [] =>
      cases h
      exact hbindings
  | [], _ :: _ => cases h
  | _ :: _, [] => cases h
  | p :: ps, value :: values =>
      rw [matchListInto] at h
      obtain ⟨hvalue, hvalues⟩ := List.forall_mem_cons.1 hvalues
      split at h
      · rename_i bindings₁ hfirst
        exact namesWithin_matchListInto h hvalues (namesWithin_matchInto hfirst hvalue hbindings)
      · cases h

end

end Pattern

theorem Expr.namesWithin_selectFrom? {N : String → Prop} {value : Expr} {index i : Nat}
    {cases : List (Pattern × Expr)} {bindings : Bindings} {body : Expr}
    (h : value.selectFrom? index cases = some (i, bindings, body)) (hvalue : value.NamesWithin N)
    (hcases : ∀ c ∈ cases, c.2.BodyWithin N c.1.vars) :
    (body.substitute bindings).NamesWithin N := by
  induction cases generalizing index with
  | nil => cases h
  | cons c rest ih =>
      obtain ⟨p, body'⟩ := c
      obtain ⟨hfirst, hrest⟩ := List.forall_mem_cons.1 hcases
      rw [selectFrom?] at h
      split at h
      · rename_i bindings' hmatch
        cases h
        refine hfirst.substitute (fun name hnone => ?_) ?_
        · exact (Pattern.notMem_vars_of_matchInto hmatch hnone).1
        · exact Pattern.namesWithin_matchInto hmatch hvalue fun _ hb => absurd hb List.not_mem_nil
      · exact ih h hrest

namespace Evaluation

variable {N : String → Prop} {defs defs' : List Definition}

/-- Some names are all that the bodies of definitions refer to, apart from their parameters, or
apply. -/
def DefinesWithin (N : String → Prop) (defs : List Definition) : Prop :=
  ∀ name d, definition? defs name = some d → d.body.BodyWithin N d.paramNames

theorem notMem_of_lookup_bindAll {names : List String} {args : List Expr} {bindings : Expr.Bindings}
    (hlength : names.length = args.length) {name : String}
    (h : ((names.zip args).foldl (fun bindings (name, arg) => bindings.bind name arg)
      bindings).lookup name = none) : name ∉ names ∧ bindings.lookup name = none := by
  induction names generalizing args bindings with
  | nil => exact ⟨List.not_mem_nil, h⟩
  | cons other names ih =>
      cases args with
      | nil => cases hlength
      | cons arg args =>
          obtain ⟨hrest, h⟩ := ih (Nat.succ.inj hlength) h
          rw [Expr.Bindings.lookup_bind] at h
          split at h
          · cases h
          · rename_i hne
            exact ⟨fun hmem => (List.mem_cons.1 hmem).elim hne hrest, h⟩

theorem namesWithin_bindAll {pairs : List (String × Expr)} {bindings : Expr.Bindings}
    (hbindings : ∀ b ∈ bindings, b.2.NamesWithin N) (hpairs : ∀ b ∈ pairs, b.2.NamesWithin N) :
    ∀ b ∈ pairs.foldl (fun bindings (name, arg) => bindings.bind name arg) bindings,
      b.2.NamesWithin N := by
  induction pairs generalizing bindings with
  | nil => exact hbindings
  | cons b pairs ih =>
      obtain ⟨hfirst, hrest⟩ := List.forall_mem_cons.1 hpairs
      exact ih (Pattern.namesWithin_bind hbindings b.1 hfirst) hrest

theorem namesWithin_expand? (hdefs : DefinesWithin N defs)
    {name : String} {args : List Expr} {body : Expr} (hargs : ∀ arg ∈ args, arg.NamesWithin N)
    (h : expand? defs name args = some body) : body.NamesWithin N := by
  obtain ⟨d, hdefinition, hlength, rfl⟩ := expand?_eq_some_iff.1 h
  have hlength : d.paramNames.length = args.length := by
    rw [Definition.paramNames, List.length_map, hlength]
  refine (hdefs name d hdefinition).substitute (fun other hnone => ?_) ?_
  · exact (notMem_of_lookup_bindAll hlength hnone).1
  · exact namesWithin_bindAll (fun _ hb => absurd hb List.not_mem_nil) fun b hb =>
      hargs b.2 (List.of_mem_zip hb).2

section

variable {deeper deeper' : Expr → Except Fault Expr}

mutual

theorem evalWith_within (hdefs : DefinesWithin N defs)
    (hdeeper : ∀ e : Expr, e.NamesWithin N → Ends (Expr.NamesWithin N) (fun _ => True) (deeper e))
    {e : Expr} (he : e.NamesWithin N) :
    Ends (Expr.NamesWithin N) (fun _ => True) (evalWith defs deeper e) := by
  match e with
  | .blank => trivial
  | .const value => exact he
  | .object name =>
      rw [evalWith]
      split
      · rename_i body hbody
        exact hdeeper body (namesWithin_expand? hdefs (fun _ h => absurd h List.not_mem_nil) hbody)
      · exact he
  | .operation name args =>
      obtain ⟨hname, hargs⟩ := Expr.namesWithin_operation_iff.1 he
      rw [evalWith]
      refine (evalListWith_within hdefs hdeeper hargs).bind fun values hvalues => ?_
      split
      · rename_i body hbody
        exact hdeeper body (namesWithin_expand? hdefs hvalues hbody)
      · exact Expr.namesWithin_operation_iff.2 ⟨hname, hvalues⟩
  | .matching scrutinee cases =>
      obtain ⟨hscrutinee, hcases⟩ := he.matching
      rw [evalWith]
      refine (evalWith_within hdefs hdeeper hscrutinee).bind fun value hvalue => ?_
      split
      · rename_i i bindings body hselect
        exact hdeeper _ (Expr.namesWithin_selectFrom? hselect hvalue hcases)
      · trivial

theorem evalListWith_within (hdefs : DefinesWithin N defs)
    (hdeeper : ∀ e : Expr, e.NamesWithin N → Ends (Expr.NamesWithin N) (fun _ => True) (deeper e))
    {es : List Expr} (hes : ∀ e ∈ es, e.NamesWithin N) :
    Ends (fun values => ∀ value ∈ values, Expr.NamesWithin N value) (fun _ => True)
      (evalListWith defs deeper es) := by
  match es with
  | [] => exact fun _ h => absurd h List.not_mem_nil
  | e :: es =>
      obtain ⟨he, hes⟩ := List.forall_mem_cons.1 hes
      rw [evalListWith]
      refine (evalWith_within hdefs hdeeper he).bind fun value hvalue => ?_
      refine (evalListWith_within hdefs hdeeper hes).bind fun values hvalues => ?_
      exact List.forall_mem_cons.2 ⟨hvalue, hvalues⟩

end

mutual

theorem evalWith_congr (hdefs : DefinesWithin N defs)
    (hsame : ∀ name, N name → definition? defs' name = definition? defs name)
    (hdeeper : ∀ e : Expr, e.NamesWithin N → Ends (Expr.NamesWithin N) (fun _ => True) (deeper e))
    (hagree : ∀ e : Expr, e.NamesWithin N → deeper' e = deeper e) {e : Expr}
    (he : e.NamesWithin N) : evalWith defs' deeper' e = evalWith defs deeper e := by
  have hexpand : ∀ name args, N name → expand? defs' name args = expand? defs name args :=
    fun name args hname => by rw [expand?, expand?, hsame name hname]
  match e with
  | .blank => rfl
  | .const value => rfl
  | .object name =>
      rw [evalWith, evalWith, hexpand name [] (Expr.namesWithin_object_iff.1 he)]
      cases hbody : expand? defs name [] with
      | none => rfl
      | some body =>
          exact hagree body (namesWithin_expand? hdefs (fun _ h => absurd h List.not_mem_nil) hbody)
  | .operation name args =>
      obtain ⟨hname, hargs⟩ := Expr.namesWithin_operation_iff.1 he
      rw [evalWith, evalWith, evalListWith_congr hdefs hsame hdeeper hagree hargs]
      refine (evalListWith_within hdefs hdeeper hargs).bind_congr fun values hvalues => ?_
      rw [hexpand name values hname]
      cases hbody : expand? defs name values with
      | none => rfl
      | some body => exact hagree body (namesWithin_expand? hdefs hvalues hbody)
  | .matching scrutinee cases =>
      obtain ⟨hscrutinee, hcases⟩ := he.matching
      rw [evalWith, evalWith, evalWith_congr hdefs hsame hdeeper hagree hscrutinee]
      refine (evalWith_within hdefs hdeeper hscrutinee).bind_congr fun value hvalue => ?_
      cases hselect : value.select? cases with
      | none => rfl
      | some found => exact hagree _ (Expr.namesWithin_selectFrom? hselect hvalue hcases)

theorem evalListWith_congr (hdefs : DefinesWithin N defs)
    (hsame : ∀ name, N name → definition? defs' name = definition? defs name)
    (hdeeper : ∀ e : Expr, e.NamesWithin N → Ends (Expr.NamesWithin N) (fun _ => True) (deeper e))
    (hagree : ∀ e : Expr, e.NamesWithin N → deeper' e = deeper e) {es : List Expr}
    (hes : ∀ e ∈ es, e.NamesWithin N) :
    evalListWith defs' deeper' es = evalListWith defs deeper es := by
  match es with
  | [] => rfl
  | e :: es =>
      obtain ⟨he, hes⟩ := List.forall_mem_cons.1 hes
      rw [evalListWith, evalListWith, evalWith_congr hdefs hsame hdeeper hagree he,
        evalListWith_congr hdefs hsame hdeeper hagree hes]

end

end

theorem evalLevels_within (hdefs : DefinesWithin N defs) (bound levels : Nat) {e : Expr}
    (he : e.NamesWithin N) :
    Ends (Expr.NamesWithin N) (fun _ => True) (evalLevels defs bound levels e) := by
  induction levels generalizing e with
  | zero => trivial
  | succ levels ih => exact evalWith_within hdefs (fun _ => ih) he

theorem evalLevels_congr (hdefs : DefinesWithin N defs)
    (hsame : ∀ name, N name → definition? defs' name = definition? defs name) (bound levels : Nat)
    {e : Expr} (he : e.NamesWithin N) :
    evalLevels defs' bound levels e = evalLevels defs bound levels e := by
  induction levels generalizing e with
  | zero => rfl
  | succ levels ih =>
      exact evalWith_congr hdefs hsame (fun _ => evalLevels_within hdefs bound levels) (fun _ => ih)
        he

/-- A name that an expression refers to, or the body of a definition apart from its parameters. -/
def RefersTo (defs : List Definition) (e : Expr) (name : String) : Prop :=
  name ∈ e.freeNames ∨
    ∃ d, definition? defs d.name = some d ∧ name ∈ d.body.freeNames ∧ name ∉ d.paramNames

/-- A name that an expression applies where a case binds it, or the body of a definition where a case
binds it or a parameter does. -/
def AppliesLocal (defs : List Definition) (e : Expr) (name : String) : Prop :=
  name ∈ e.appliedLocals [] ∨
    ∃ d, definition? defs d.name = some d ∧ name ∈ d.body.appliedLocals d.paramNames

theorem namesWithin_self (defs : List Definition) (e : Expr) :
    e.NamesWithin fun name => RefersTo defs e name ∨ AppliesLocal defs e name where
  objects _ hname := .inl (.inl (List.mem_eraseDups.2
    (Expr.mem_freeOccurrences_of_mem_freeObjects hname)))
  heads _ hname := (Expr.mem_freeOccurrences_or_appliedLocals [] hname).imp
    (fun h => .inl (List.mem_eraseDups.2 h)) .inl

theorem definesWithin_self (defs : List Definition) (e : Expr) :
    DefinesWithin (fun name => RefersTo defs e name ∨ AppliesLocal defs e name) defs := by
  intro name d hd
  obtain ⟨-, rfl⟩ := mem_of_definition? hd
  refine ⟨fun other hother hparam => .inl (.inr ⟨d, hd, ?_, hparam⟩), fun other hother => ?_⟩
  · exact List.mem_eraseDups.2 (Expr.mem_freeOccurrences_of_mem_freeObjects hother)
  · rcases Expr.mem_freeOccurrences_or_appliedLocals d.paramNames hother with h | h
    · rw [← List.nil_append d.paramNames, Expr.mem_freeOccurrences_append] at h
      exact .inl (.inr ⟨d, hd, List.mem_eraseDups.2 h.1, h.2⟩)
    · exact .inr (.inr ⟨d, hd, h⟩)

/-- Evaluation leaves no local name in a value, and takes none for the name of a definition, but those
that are applied: a name in a value is one that the expression refers to or the body of a definition
apart from its parameters, or one that is applied where it is bound; and what goes by other names does
not matter. -/
theorem eval_refersTo (defs : List Definition) (depth : Int) (e : Expr) :
    (∀ v, eval defs depth e = .ok v → ∀ name ∈ v.freeNames,
      RefersTo defs e name ∨ AppliesLocal defs e name) ∧
    ∀ defs', (∀ name, RefersTo defs e name ∨ AppliesLocal defs e name →
      definition? defs' name = definition? defs name) → eval defs' depth e = eval defs depth e := by
  refine ⟨fun v hv => ?_, fun defs' hsame => ?_⟩
  · have hends := evalLevels_within (definesWithin_self defs e) (depthBound depth)
      (depthBound depth + 1) (namesWithin_self defs e)
    rw [show evalLevels defs _ _ e = _ from hv] at hends
    exact Expr.NamesWithin.freeNames hends
  · exact evalLevels_congr (definesWithin_self defs e) hsame _ _ (namesWithin_self defs e)

/-- Takes the parts of a pair in the other order. -/
def swap : Definition :=
  ⟨"swap", [⟨"p", none⟩], none, .matching (.object "p")
    [(.constructor "Pair" [.var "x", .var "y"], .operation "Pair" [.object "y", .object "x"])]⟩

theorem eval_refersTo_swap :
    (∀ name ∈ (Expr.operation "Pair" [.const "1", .object "y"]).freeNames,
      RefersTo [swap] (.operation "swap" [.operation "Pair" [.object "y", .const "1"]]) name ∨
      AppliesLocal [swap] (.operation "swap" [.operation "Pair" [.object "y", .const "1"]]) name) ∧
    eval [swap, ⟨"x", [], none, .const "0"⟩] 5
        (.operation "swap" [.operation "Pair" [.object "y", .const "1"]]) =
      eval [swap] 5 (.operation "swap" [.operation "Pair" [.object "y", .const "1"]]) := by
  have hrun : eval [swap] 5 (.operation "swap" [.operation "Pair" [.object "y", .const "1"]]) =
      .ok (.operation "Pair" [.const "1", .object "y"]) := by cbv
  obtain ⟨hnames, hsame⟩ := eval_refersTo [swap] 5
    (.operation "swap" [.operation "Pair" [.object "y", .const "1"]])
  refine ⟨hnames _ hrun, hsame _ fun name hname => ?_⟩
  have hx : name ≠ "x" := by
    rintro rfl
    rcases hname with (hname | ⟨d, hd, hname, -⟩) | hname | ⟨d, hd, hname⟩
    · revert hname
      decide
    · obtain rfl := List.mem_singleton.1 (mem_of_definition? hd).1
      revert hname
      decide
    · revert hname
      decide
    · obtain rfl := List.mem_singleton.1 (mem_of_definition? hd).1
      revert hname
      decide
  simp [definition?, hx.symm, List.filter_cons]

/-- Applies its first parameter to its second. -/
def applyTo : Definition :=
  ⟨"apply", [⟨"f", none⟩, ⟨"x", none⟩], none, .operation "f" [.object "x"]⟩

/-- A parameter that is applied stays in the value, though neither the expression nor a definition
refers to a name like it; and where something goes by that name it is called instead. -/
theorem eval_leaks_parameter :
    eval [applyTo, ⟨"g", [⟨"x", none⟩], none, .object "x"⟩] 5
        (.operation "apply" [.object "g", .const "1"]) = .ok (.operation "f" [.const "1"]) ∧
    "f" ∈ (Expr.operation "f" [.const "1"]).freeNames ∧
    ¬RefersTo [applyTo, ⟨"g", [⟨"x", none⟩], none, .object "x"⟩]
        (.operation "apply" [.object "g", .const "1"]) "f" ∧
    eval [applyTo, ⟨"g", [⟨"x", none⟩], none, .object "x"⟩, ⟨"f", [⟨"x", none⟩], none, .const "2"⟩] 5
        (.operation "apply" [.object "g", .const "1"]) = .ok (.const "2") := by
  refine ⟨by cbv, by decide, ?_, by cbv⟩
  rintro (hname | ⟨d, hd, hname, hparam⟩)
  · revert hname
    decide
  · obtain ⟨hmem, -⟩ := mem_of_definition? hd
    rcases List.mem_cons.1 hmem with rfl | hmem
    · exact hparam (by decide)
    · obtain rfl := List.mem_singleton.1 hmem
      revert hname
      decide

end Evaluation

end Formulary
