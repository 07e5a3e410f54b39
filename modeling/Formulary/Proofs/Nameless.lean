import Formulary.Proofs.Evaluating

namespace Formulary

/-- A pattern whose variables are known by where they first occur. -/
inductive Outline where
  | wildcard
  | var (index : Nat)
  | const (value : String)
  | constructor (name : String) (args : List Outline)

/-- An expression without the names of case variables. What a case binds is known by the number of
cases between, and by where it first occurs in the pattern. -/
inductive Nameless where
  | blank
  | const (value : String)
  | free (name : String)
  | bound (depth index : Nat)
  | operation (name : String) (args : List Nameless)
  | matching (scrutinee : Nameless) (cases : List (Outline × Nameless))

namespace Pattern

mutual

/-- A pattern, where its variables are known by their places in a list. -/
def outline (vars : List String) : Pattern → Outline
  | .wildcard => .wildcard
  | .var name => .var (vars.idxOf name)
  | .const value => .const value
  | .constructor name args => .constructor name (outlineList vars args)

def outlineList (vars : List String) : List Pattern → List Outline
  | [] => []
  | p :: ps => p.outline vars :: outlineList vars ps

end

end Pattern

/-- Where a name is bound, if it is: how many cases lie between, and the place among the variables.
The variables of the innermost case come first. -/
def position? : List (List String) → String → Option (Nat × Nat)
  | [], _ => none
  | vars :: scopes, name =>
    if name ∈ vars then some (0, vars.idxOf name)
    else (position? scopes name).map fun (depth, index) => (depth + 1, index)

namespace Expr

mutual

/-- The nameless form of an expression within some cases. -/
def nameless (scopes : List (List String)) : Expr → Nameless
  | .blank => .blank
  | .const value => .const value
  | .object name =>
    match position? scopes name with
    | some (depth, index) => .bound depth index
    | none => .free name
  | .operation name args => .operation name (namelessList scopes args)
  | .matching scrutinee cases => .matching (scrutinee.nameless scopes) (namelessCases scopes cases)

def namelessList (scopes : List (List String)) : List Expr → List Nameless
  | [] => []
  | e :: es => e.nameless scopes :: namelessList scopes es

def namelessCases (scopes : List (List String)) : List (Pattern × Expr) → List (Outline × Nameless)
  | [] => []
  | (p, body) :: rest =>
    (p.outline p.vars, body.nameless (p.vars :: scopes)) :: namelessCases scopes rest

end

/-- Two expressions differ at most in the names of case variables. -/
def AlphaEq (e e' : Expr) : Prop := e.nameless [] = e'.nameless []

/-- What the bindings put for a name, without the names of case variables. -/
def Bindings.nameless (bindings : Bindings) (name : String) : Option Nameless :=
  (bindings.lookup name).map (·.nameless [])

/-- Two bindings put the same for each name, up to the names of case variables. -/
def Bindings.AlphaEq (bindings bindings' : Bindings) : Prop := bindings.nameless = bindings'.nameless

mutual

/-- The free occurrences of names other than those of applied operations. -/
def freeObjects (bound : List String) : Expr → List String
  | .blank | .const _ => []
  | .object name => if name ∈ bound then [] else [name]
  | .operation _ args => freeObjectsList bound args
  | .matching scrutinee cases => scrutinee.freeObjects bound ++ freeObjectsCases bound cases

def freeObjectsList (bound : List String) : List Expr → List String
  | [] => []
  | e :: es => e.freeObjects bound ++ freeObjectsList bound es

def freeObjectsCases (bound : List String) : List (Pattern × Expr) → List String
  | [] => []
  | (p, body) :: rest => body.freeObjects (p.vars ++ bound) ++ freeObjectsCases bound rest

end

end Expr

namespace Nameless

mutual

/-- Puts nameless forms for free names, all at once. What is put has no bound names of its own that
are open, so nothing in it changes below further cases. -/
def substitute (f : String → Option Nameless) : Nameless → Nameless
  | .blank => .blank
  | .const value => .const value
  | .free name => (f name).getD (.free name)
  | .bound depth index => .bound depth index
  | .operation name args => .operation name (substituteList f args)
  | .matching scrutinee cases => .matching (scrutinee.substitute f) (substituteCases f cases)

def substituteList (f : String → Option Nameless) : List Nameless → List Nameless
  | [] => []
  | t :: ts => t.substitute f :: substituteList f ts

def substituteCases (f : String → Option Nameless) :
    List (Outline × Nameless) → List (Outline × Nameless)
  | [] => []
  | (p, body) :: rest => (p, body.substitute f) :: substituteCases f rest

end

mutual

def freeNames : Nameless → List String
  | .blank | .const _ | .bound _ _ => []
  | .free name => [name]
  | .operation _ args => freeNamesList args
  | .matching scrutinee cases => scrutinee.freeNames ++ freeNamesCases cases

def freeNamesList : List Nameless → List String
  | [] => []
  | t :: ts => t.freeNames ++ freeNamesList ts

def freeNamesCases : List (Outline × Nameless) → List String
  | [] => []
  | (_, body) :: rest => body.freeNames ++ freeNamesCases rest

end

variable {f g : String → Option Nameless}

mutual

theorem substitute_congr {t : Nameless} (h : ∀ name ∈ t.freeNames, f name = g name) :
    t.substitute f = t.substitute g := by
  match t with
  | .blank | .const _ | .bound _ _ => simp only [substitute]
  | .free name => rw [substitute, substitute, h name (List.mem_singleton_self name)]
  | .operation name args => rw [substitute, substitute, substituteList_congr h]
  | .matching scrutinee cases =>
      obtain ⟨hscrutinee, hcases⟩ := List.forall_mem_append.1 h
      rw [substitute, substitute, substitute_congr hscrutinee, substituteCases_congr hcases]

theorem substituteList_congr {ts : List Nameless} (h : ∀ name ∈ freeNamesList ts, f name = g name) :
    substituteList f ts = substituteList g ts := by
  match ts with
  | [] => rfl
  | t :: ts =>
      obtain ⟨hfirst, hrest⟩ := List.forall_mem_append.1 h
      rw [substituteList, substituteList, substitute_congr hfirst, substituteList_congr hrest]

theorem substituteCases_congr {cases : List (Outline × Nameless)}
    (h : ∀ name ∈ freeNamesCases cases, f name = g name) :
    substituteCases f cases = substituteCases g cases := by
  match cases with
  | [] => rfl
  | (p, body) :: rest =>
      obtain ⟨hfirst, hrest⟩ := List.forall_mem_append.1 h
      rw [substituteCases, substituteCases, substitute_congr hfirst, substituteCases_congr hrest]

end

/-- Whether a name is free once something has been put for names: it was free and nothing is put for
it, or it is free in what is put for a name. -/
def FreeAfter (f : String → Option Nameless) (names : List String) (name : String) : Prop :=
  (name ∈ names ∧ f name = none) ∨ ∃ x ∈ names, ∃ u, f x = some u ∧ name ∈ u.freeNames

theorem freeAfter_append {names names' : List String} {name : String} :
    FreeAfter f (names ++ names') name ↔ FreeAfter f names name ∨ FreeAfter f names' name := by
  simp only [FreeAfter, List.mem_append]
  grind

mutual

theorem mem_freeNames_substitute {t : Nameless} {name : String} :
    name ∈ (t.substitute f).freeNames ↔ FreeAfter f t.freeNames name := by
  match t with
  | .blank | .const _ | .bound _ _ => simp [substitute, freeNames, FreeAfter]
  | .free x =>
      rw [substitute]
      cases hf : f x with
      | none =>
          simp only [Option.getD_none, freeNames, FreeAfter, List.mem_singleton]
          grind
      | some u =>
          simp only [Option.getD_some, freeNames, FreeAfter, List.mem_singleton]
          grind
  | .operation op args =>
      rw [substitute, freeNames, freeNames]
      exact mem_freeNamesList_substitute
  | .matching scrutinee cases =>
      rw [substitute, freeNames, freeNames, List.mem_append, freeAfter_append,
        mem_freeNames_substitute, mem_freeNamesCases_substitute]

theorem mem_freeNamesList_substitute {ts : List Nameless} {name : String} :
    name ∈ freeNamesList (substituteList f ts) ↔ FreeAfter f (freeNamesList ts) name := by
  match ts with
  | [] => simp [substituteList, freeNamesList, FreeAfter]
  | t :: ts =>
      rw [substituteList, freeNamesList, freeNamesList, List.mem_append, freeAfter_append,
        mem_freeNames_substitute, mem_freeNamesList_substitute]

theorem mem_freeNamesCases_substitute {cases : List (Outline × Nameless)} {name : String} :
    name ∈ freeNamesCases (substituteCases f cases) ↔
      FreeAfter f (freeNamesCases cases) name := by
  match cases with
  | [] => simp [substituteCases, freeNamesCases, FreeAfter]
  | (p, body) :: rest =>
      rw [substituteCases, freeNamesCases, freeNamesCases, List.mem_append, freeAfter_append,
        mem_freeNames_substitute, mem_freeNamesCases_substitute]

end

end Nameless

section

variable {vars : List String} {scopes : List (List String)} {name : String}

theorem position?_of_mem (h : name ∈ vars) :
    position? (vars :: scopes) name = some (0, vars.idxOf name) := if_pos h

theorem position?_of_notMem (h : name ∉ vars) : position? (vars :: scopes) name =
    (position? scopes name).map fun (depth, index) => (depth + 1, index) := if_neg h

theorem position?_cons_eq_none_iff :
    position? (vars :: scopes) name = none ↔ name ∉ vars ∧ position? scopes name = none := by
  by_cases h : name ∈ vars
  · simp [position?_of_mem h, h]
  · simp [position?_of_notMem h, h]

theorem idxOf_map_of_injective {α β : Type} [DecidableEq α] [DecidableEq β] {f : α → β} {l : List α}
    {a : α} (h : ∀ b ∈ l, f b = f a → b = a) : (l.map f).idxOf (f a) = l.idxOf a := by
  induction l with
  | nil => rfl
  | cons b l ih =>
      have hrest := ih fun c hc => h c (List.mem_cons_of_mem _ hc)
      by_cases hb : b = a
      · simp [hb]
      · have hne : f b ≠ f a := fun heq => hb (h b (List.mem_cons_self ..) heq)
        rw [List.map_cons, List.idxOf_cons_ne _ hne, List.idxOf_cons_ne _ hb, hrest]

end

namespace Expr

mutual

theorem nameless_congr {e : Expr} {scopes scopes' : List (List String)} {bound : List String}
    (hfree : ∀ name ∈ e.freeOccurrences bound, position? scopes name = position? scopes' name)
    (hbound : ∀ name ∈ bound, position? scopes name = position? scopes' name) :
    e.nameless scopes = e.nameless scopes' := by
  match e with
  | .blank | .const _ => simp only [nameless]
  | .object name =>
      have hname : position? scopes name = position? scopes' name := by
        by_cases hmem : name ∈ bound
        · exact hbound name hmem
        · exact hfree name (by simp [freeOccurrences, hmem])
      rw [nameless, nameless, hname]
  | .operation name args =>
      obtain ⟨-, hargs⟩ := List.forall_mem_append.1 hfree
      rw [nameless, nameless, namelessList_congr hargs hbound]
  | .matching scrutinee cases =>
      obtain ⟨hscrutinee, hcases⟩ := List.forall_mem_append.1 hfree
      rw [nameless, nameless, nameless_congr hscrutinee hbound, namelessCases_congr hcases hbound]

theorem namelessList_congr {es : List Expr} {scopes scopes' : List (List String)}
    {bound : List String}
    (hfree : ∀ name ∈ freeOccurrencesList bound es, position? scopes name = position? scopes' name)
    (hbound : ∀ name ∈ bound, position? scopes name = position? scopes' name) :
    namelessList scopes es = namelessList scopes' es := by
  match es with
  | [] => rfl
  | e :: es =>
      obtain ⟨hfirst, hrest⟩ := List.forall_mem_append.1 hfree
      rw [namelessList, namelessList, nameless_congr hfirst hbound, namelessList_congr hrest hbound]

theorem namelessCases_congr {cases : List (Pattern × Expr)} {scopes scopes' : List (List String)}
    {bound : List String} (hfree : ∀ name ∈ freeOccurrencesCases bound cases,
      position? scopes name = position? scopes' name)
    (hbound : ∀ name ∈ bound, position? scopes name = position? scopes' name) :
    namelessCases scopes cases = namelessCases scopes' cases := by
  match cases with
  | [] => rfl
  | (p, body) :: rest =>
      obtain ⟨hfirst, hrest⟩ := List.forall_mem_append.1 hfree
      have hinner : ∀ name, position? scopes name = position? scopes' name →
          position? (p.vars :: scopes) name = position? (p.vars :: scopes') name := by
        intro name hname
        rw [position?, position?, hname]
      have hbody : body.nameless (p.vars :: scopes) = body.nameless (p.vars :: scopes') := by
        refine nameless_congr (fun name (hname : name ∈ body.freeOccurrences (p.vars ++ bound)) =>
          hinner name (hfirst name hname)) fun name hname => ?_
        by_cases hvar : name ∈ p.vars
        · rw [position?_of_mem hvar, position?_of_mem hvar]
        · exact hinner name (hbound name ((List.mem_append.1 hname).resolve_left hvar))
      rw [namelessCases, namelessCases, hbody, namelessCases_congr hrest hbound]

end

mutual

theorem freeNames_nameless {e : Expr} {scopes : List (List String)} {bound : List String}
    (hbound : ∀ name, position? scopes name = none ↔ name ∉ bound) :
    (e.nameless scopes).freeNames = e.freeObjects bound := by
  match e with
  | .blank | .const _ => simp only [nameless, Nameless.freeNames, freeObjects]
  | .object name =>
      rw [nameless, freeObjects]
      cases hposition : position? scopes name with
      | none => rw [if_neg ((hbound name).1 hposition), Nameless.freeNames]
      | some position =>
          have hmem : name ∈ bound := by
            by_contra hmem
            rw [(hbound name).2 hmem] at hposition
            cases hposition
          rw [if_pos hmem, Nameless.freeNames]
  | .operation name args =>
      rw [nameless, Nameless.freeNames, freeObjects, freeNamesList_nameless hbound]
  | .matching scrutinee cases =>
      rw [nameless, Nameless.freeNames, freeObjects, freeNames_nameless hbound,
        freeNamesCases_nameless hbound]

theorem freeNamesList_nameless {es : List Expr} {scopes : List (List String)} {bound : List String}
    (hbound : ∀ name, position? scopes name = none ↔ name ∉ bound) :
    Nameless.freeNamesList (namelessList scopes es) = freeObjectsList bound es := by
  match es with
  | [] => rfl
  | e :: es =>
      rw [namelessList, Nameless.freeNamesList, freeObjectsList, freeNames_nameless hbound,
        freeNamesList_nameless hbound]

theorem freeNamesCases_nameless {cases : List (Pattern × Expr)} {scopes : List (List String)}
    {bound : List String} (hbound : ∀ name, position? scopes name = none ↔ name ∉ bound) :
    Nameless.freeNamesCases (namelessCases scopes cases) = freeObjectsCases bound cases := by
  match cases with
  | [] => rfl
  | (p, body) :: rest =>
      have hinner : ∀ name, position? (p.vars :: scopes) name = none ↔ name ∉ p.vars ++ bound := by
        intro name
        rw [position?_cons_eq_none_iff, hbound name, List.mem_append, not_or]
      rw [namelessCases, Nameless.freeNamesCases, freeObjectsCases, freeNames_nameless hinner,
        freeNamesCases_nameless hbound]

end

mutual

theorem position?_of_mem_freeNames {e : Expr} {scopes : List (List String)} {name : String}
    (h : name ∈ (e.nameless scopes).freeNames) : position? scopes name = none := by
  match e with
  | .blank | .const _ => simp [nameless, Nameless.freeNames] at h
  | .object other =>
      rw [nameless] at h
      cases hposition : position? scopes other with
      | some position => simp [hposition, Nameless.freeNames] at h
      | none =>
          obtain rfl : name = other := by simpa [hposition, Nameless.freeNames] using h
          exact hposition
  | .operation op args => exact position?_of_mem_freeNamesList h
  | .matching scrutinee cases =>
      rcases List.mem_append.1 h with h | h
      · exact position?_of_mem_freeNames h
      · exact position?_of_mem_freeNamesCases h

theorem position?_of_mem_freeNamesList {es : List Expr} {scopes : List (List String)}
    {name : String} (h : name ∈ Nameless.freeNamesList (namelessList scopes es)) :
    position? scopes name = none := by
  match es with
  | [] => exact absurd h List.not_mem_nil
  | e :: es =>
      rcases List.mem_append.1 h with h | h
      · exact position?_of_mem_freeNames h
      · exact position?_of_mem_freeNamesList h

theorem position?_of_mem_freeNamesCases {cases : List (Pattern × Expr)}
    {scopes : List (List String)} {name : String}
    (h : name ∈ Nameless.freeNamesCases (namelessCases scopes cases)) :
    position? scopes name = none := by
  match cases with
  | [] => exact absurd h List.not_mem_nil
  | (p, body) :: rest =>
      rcases List.mem_append.1 h with h | h
      · exact (position?_cons_eq_none_iff.1 (position?_of_mem_freeNames h)).2
      · exact position?_of_mem_freeNamesCases h

end

end Expr

namespace Pattern

variable {names : List (String × String)} {vars : List String}

mutual

theorem vars_rename (names : List (String × String)) (p : Pattern) :
    (p.rename names).vars = p.vars.map (Expr.renamed names) := by
  match p with
  | .wildcard | .const _ | .var _ => rfl
  | .constructor name args => exact varsList_renameList names args

theorem varsList_renameList (names : List (String × String)) (ps : List Pattern) :
    varsList (renameList names ps) = (varsList ps).map (Expr.renamed names) := by
  match ps with
  | [] => rfl
  | p :: ps =>
      rw [renameList, varsList, varsList, List.map_append, vars_rename names p,
        varsList_renameList names ps]

end

mutual

theorem outline_rename {p : Pattern} (hvars : p.vars ⊆ vars)
    (hinjective : ∀ z ∈ vars, ∀ z' ∈ vars, Expr.renamed names z = Expr.renamed names z' → z = z') :
    (p.rename names).outline (vars.map (Expr.renamed names)) = p.outline vars := by
  match p with
  | .wildcard | .const _ => rfl
  | .var name =>
      have hname : name ∈ vars := hvars (List.mem_singleton_self name)
      have hindex : (vars.map (Expr.renamed names)).idxOf (Expr.renamed names name) =
          vars.idxOf name :=
        idxOf_map_of_injective fun z hz heq => hinjective z hz name hname heq
      exact congrArg Outline.var hindex
  | .constructor name args =>
      exact congrArg (Outline.constructor name) (outlineList_renameList hvars hinjective)

theorem outlineList_renameList {ps : List Pattern} (hvars : varsList ps ⊆ vars)
    (hinjective : ∀ z ∈ vars, ∀ z' ∈ vars, Expr.renamed names z = Expr.renamed names z' → z = z') :
    outlineList (vars.map (Expr.renamed names)) (renameList names ps) = outlineList vars ps := by
  match ps with
  | [] => rfl
  | p :: ps =>
      obtain ⟨hfirst, hrest⟩ := List.append_subset.1 hvars
      rw [renameList, outlineList, outlineList, outline_rename hfirst hinjective,
        outlineList_renameList hrest hinjective]

end

end Pattern

namespace Expr

/-- Names that are mentioned keep their positions when some are renamed: free names stay as they
are, and what they are renamed to is not mentioned. -/
structure KeepsPositions (names : List (String × String)) (scopes scopes' : List (List String))
    (mentioned : List String) : Prop where
  position : ∀ z ∈ mentioned, position? scopes' (renamed names z) = position? scopes z
  free : ∀ z ∈ mentioned, position? scopes z = none → renamed names z = z
  fresh : ∀ z ∈ mentioned, renamed names z = z ∨ renamed names z ∉ mentioned

namespace KeepsPositions

variable {names : List (String × String)} {scopes scopes' : List (List String)}
  {mentioned mentioned' : List String}

theorem of_subset (h : KeepsPositions names scopes scopes' mentioned)
    (hsubset : mentioned' ⊆ mentioned) : KeepsPositions names scopes scopes' mentioned' where
  position z hz := h.position z (hsubset hz)
  free z hz := h.free z (hsubset hz)
  fresh z hz := (h.fresh z (hsubset hz)).imp_right fun hnot hmem => hnot (hsubset hmem)

theorem left (h : KeepsPositions names scopes scopes' (mentioned ++ mentioned')) :
    KeepsPositions names scopes scopes' mentioned :=
  h.of_subset (List.subset_append_left ..)

theorem right (h : KeepsPositions names scopes scopes' (mentioned ++ mentioned')) :
    KeepsPositions names scopes scopes' mentioned' :=
  h.of_subset (List.subset_append_right ..)

/-- Within a case its own variables are not renamed. -/
theorem within {vars : List String}
    (h : KeepsPositions names scopes scopes' (vars ++ mentioned)) :
    KeepsPositions (names.filter fun (name, _) => name ∉ vars) (vars :: scopes) (vars :: scopes')
      mentioned where
  position z hz := by
    by_cases hvar : z ∈ vars
    · rw [renamed_filter_of_mem hvar, position?_of_mem hvar, position?_of_mem hvar]
    · have hnew : renamed names z ∉ vars := by
        intro hmem
        rcases h.fresh z (List.mem_append_right _ hz) with hsame | hnot
        · exact hvar (hsame ▸ hmem)
        · exact hnot (List.mem_append_left _ hmem)
      rw [renamed_filter_of_notMem hvar, position?_of_notMem hnew, position?_of_notMem hvar,
        h.position z (List.mem_append_right _ hz)]
  free z hz hnone := by
    obtain ⟨hvar, hnone⟩ := position?_cons_eq_none_iff.1 hnone
    rw [renamed_filter_of_notMem hvar]
    exact h.free z (List.mem_append_right _ hz) hnone
  fresh z hz := by
    by_cases hvar : z ∈ vars
    · exact .inl (renamed_filter_of_mem hvar)
    · rw [renamed_filter_of_notMem hvar]
      exact (h.fresh z (List.mem_append_right _ hz)).imp_right fun hnot hmem =>
        hnot (List.mem_append_right _ hmem)

end KeepsPositions

mutual

theorem nameless_rename {e : Expr} {names : List (String × String)}
    {scopes scopes' : List (List String)}
    (h : KeepsPositions names scopes scopes' e.mentioned) :
    (e.rename names).nameless scopes' = e.nameless scopes := by
  match e with
  | .blank | .const _ => simp only [rename, nameless]
  | .object name =>
      have hmem : name ∈ (Expr.object name).mentioned := List.mem_singleton_self name
      have hrename : (Expr.object name).rename names = .object (renamed names name) := rfl
      rw [hrename, nameless, nameless, h.position name hmem]
      cases hposition : position? scopes name with
      | none => rw [h.free name hmem hposition]
      | some position => rfl
  | .operation name args => rw [rename, nameless, nameless, namelessList_renameList h]
  | .matching scrutinee cases =>
      rw [rename, nameless, nameless, nameless_rename h.left, namelessCases_renameCases h.right]

theorem namelessList_renameList {es : List Expr} {names : List (String × String)}
    {scopes scopes' : List (List String)}
    (h : KeepsPositions names scopes scopes' (mentionedList es)) :
    namelessList scopes' (renameList names es) = namelessList scopes es := by
  match es with
  | [] => rfl
  | e :: es =>
      rw [renameList, namelessList, namelessList, nameless_rename h.left,
        namelessList_renameList h.right]

theorem namelessCases_renameCases {cases : List (Pattern × Expr)}
    {names : List (String × String)} {scopes scopes' : List (List String)}
    (h : KeepsPositions names scopes scopes' (mentionedCases cases)) :
    namelessCases scopes' (renameCases names cases) = namelessCases scopes cases := by
  match cases with
  | [] => rfl
  | (p, body) :: rest =>
      rw [renameCases, namelessCases, namelessCases, nameless_rename h.left.within,
        namelessCases_renameCases h.right]

end

/-- A case under new names for its variables has the same nameless form. -/
theorem Avoids.nameless {bindings : Bindings} {p : Pattern} {body : Expr}
    {names : List (String × String)} (h : Avoids bindings p body names)
    (scopes : List (List String)) :
    (p.rename names).outline (p.rename names).vars = p.outline p.vars ∧
      (body.rename names).nameless ((p.rename names).vars :: scopes) =
        body.nameless (p.vars :: scopes) := by
  rw [p.vars_rename]
  refine ⟨Pattern.outline_rename (fun _ => id) h.injective, nameless_rename ⟨?_, ?_, ?_⟩⟩
  · intro z hz
    by_cases hvar : z ∈ p.vars
    · rw [position?_of_mem (List.mem_map_of_mem hvar), position?_of_mem hvar,
        idxOf_map_of_injective fun z' hz' heq => h.injective z' hz' z hvar heq]
    · -- no variable of the case gets a name that its body mentions
      have hnew : z ∉ p.vars.map (renamed names) := by
        intro hmem
        obtain ⟨z', hz', heq⟩ := List.mem_map.1 hmem
        rcases h.fresh z' hz' with hsame | ⟨hnot, -⟩
        · exact hvar (heq ▸ hsame.symm ▸ hz')
        · exact hnot (heq ▸ hz)
      rw [h.other z hvar, position?_of_notMem hnew, position?_of_notMem hvar]
  · intro z hz hnone
    exact h.other z (position?_cons_eq_none_iff.1 hnone).1
  · intro z hz
    by_cases hvar : z ∈ p.vars
    · exact (h.fresh z hvar).imp_right (·.1)
    · exact .inl (h.other z hvar)

/-- No case binds a name that is bound or that a bound expression refers to. -/
def Bindings.Apart (bindings : Bindings) (scopes : List (List String)) : Prop :=
  ∀ name, position? scopes name ≠ none →
    name ∉ bindings.map (·.1) ∧ name ∉ bindings.freeNames

theorem Bindings.nameless_without {bindings : Bindings} {vars : List String} {name : String}
    (h : name ∉ vars) : (bindings.without vars).nameless name = bindings.nameless name := by
  rw [nameless, nameless, lookup_without, if_neg h]

theorem Bindings.Apart.without {bindings : Bindings} {scopes : List (List String)}
    (h : bindings.Apart scopes) (vars : List String) : (bindings.without vars).Apart scopes := by
  intro name hname
  obtain ⟨hbound, hfree⟩ := h name hname
  constructor
  · intro hmem
    obtain ⟨b, hb, rfl⟩ := List.mem_map.1 hmem
    exact hbound (List.mem_map_of_mem (List.mem_filter.1 hb).1)
  · intro hmem
    obtain ⟨b, hb, hmem⟩ := List.mem_flatMap.1 hmem
    exact hfree (List.mem_flatMap.2 ⟨b, (List.mem_filter.1 hb).1, hmem⟩)

theorem Bindings.Apart.nameless_eq {bindings : Bindings} {scopes : List (List String)}
    (h : bindings.Apart scopes) {name : String} {a : Expr} (hlookup : bindings.lookup name = some a) :
    a.nameless scopes = a.nameless [] := by
  refine nameless_congr (fun other (hother : other ∈ a.freeOccurrences []) => ?_) fun _ hmem =>
    absurd hmem List.not_mem_nil
  by_contra hne
  exact (h other hne).2 (Bindings.mem_freeNames_of_lookup hlookup hother)

mutual

/-- Substitution puts nameless forms for free names. -/
theorem nameless_substitute {e : Expr} {bindings : Bindings} {scopes : List (List String)}
    (h : bindings.Apart scopes) :
    (e.substitute bindings).nameless scopes = (e.nameless scopes).substitute bindings.nameless := by
  match e with
  | .blank | .const _ => simp only [substitute, nameless, Nameless.substitute]
  | .object name =>
      rw [substitute, nameless]
      cases hposition : position? scopes name with
      | some position =>
          have hname : position? scopes name ≠ none := by simp [hposition]
          rw [Bindings.lookup_eq_none (h name hname).1, Option.getD_none, nameless, hposition,
            Nameless.substitute]
      | none =>
          rw [Nameless.substitute, Bindings.nameless]
          cases hlookup : bindings.lookup name with
          | none => simp [nameless, hposition]
          | some a => simp [h.nameless_eq hlookup]
  | .operation name args =>
      rw [substitute, nameless, nameless, Nameless.substitute, namelessList_substituteList h]
  | .matching scrutinee cases =>
      rw [substitute, nameless, nameless, Nameless.substitute, nameless_substitute h,
        namelessCases_substituteCases h]
termination_by e.size
decreasing_by all_goals simp only [size]; omega

theorem namelessList_substituteList {es : List Expr} {bindings : Bindings}
    {scopes : List (List String)} (h : bindings.Apart scopes) :
    namelessList scopes (substituteList bindings es) =
      Nameless.substituteList bindings.nameless (namelessList scopes es) := by
  match es with
  | [] => rw [substituteList, namelessList, Nameless.substituteList]
  | e :: es =>
      rw [substituteList, namelessList, namelessList, Nameless.substituteList,
        nameless_substitute h, namelessList_substituteList h]
termination_by sizeList es
decreasing_by all_goals simp only [sizeList]; omega

theorem namelessCases_substituteCases {cases : List (Pattern × Expr)} {bindings : Bindings}
    {scopes : List (List String)} (h : bindings.Apart scopes) :
    namelessCases scopes (substituteCases bindings cases) =
      Nameless.substituteCases bindings.nameless (namelessCases scopes cases) := by
  match cases with
  | [] => rw [substituteCases, namelessCases, Nameless.substituteCases]
  | (p, body) :: rest =>
      obtain ⟨names, havoids, heq⟩ := avoidCapture_eq (bindings.without p.vars) body
        fun z hz => Bindings.notMem_of_mem_without hz
      obtain ⟨houtline, hrenamed⟩ := havoids.nameless scopes
      have happart : (bindings.without p.vars).Apart ((p.rename names).vars :: scopes) := by
        intro name hname
        by_cases hvar : name ∈ (p.rename names).vars
        · rw [p.vars_rename, List.mem_map] at hvar
          obtain ⟨z, hz, rfl⟩ := hvar
          exact ⟨havoids.bound z hz, havoids.free z hz⟩
        · exact h.without p.vars name fun hnone =>
            hname (position?_cons_eq_none_iff.2 ⟨hvar, hnone⟩)
      -- names that are free in the case are no variables of it
      have hsame : (body.nameless (p.vars :: scopes)).substitute (bindings.without p.vars).nameless =
          (body.nameless (p.vars :: scopes)).substitute bindings.nameless :=
        Nameless.substitute_congr fun name hname =>
          Bindings.nameless_without (position?_cons_eq_none_iff.1 (position?_of_mem_freeNames hname)).1
      have hbody := nameless_substitute (e := body.rename names) happart
      rw [hrenamed, hsame] at hbody
      rw [substituteCases, heq, namelessCases, namelessCases, Nameless.substituteCases, houtline,
        hbody, namelessCases_substituteCases h]
termination_by sizeCases cases
decreasing_by
  · rw [size_rename]
    simp only [sizeCases]
    omega
  · simp only [sizeCases]
    omega

end

theorem Bindings.apart_nil (bindings : Bindings) : bindings.Apart [] :=
  fun _ hname => absurd rfl hname

theorem mem_freeObjects_iff {e : Expr} {name : String} :
    name ∈ e.freeObjects [] ↔ name ∈ (e.nameless []).freeNames := by
  have hsame : (e.nameless []).freeNames = e.freeObjects [] :=
    freeNames_nameless fun name => by simp [position?]
  rw [hsame]

theorem mem_freeObjects_substitute {e : Expr} {bindings : Bindings} {name : String} :
    name ∈ (e.substitute bindings).freeObjects [] ↔
      (name ∈ e.freeObjects [] ∧ bindings.lookup name = none) ∨
        ∃ x ∈ e.freeObjects [], ∃ a, bindings.lookup x = some a ∧ name ∈ a.freeObjects [] := by
  simp only [mem_freeObjects_iff, nameless_substitute bindings.apart_nil,
    Nameless.mem_freeNames_substitute, Nameless.FreeAfter, Bindings.nameless,
    Option.map_eq_none_iff, Option.map_eq_some_iff]
  constructor
  · rintro (h | ⟨x, hx, u, ⟨a, ha, rfl⟩, hname⟩)
    · exact .inl h
    · exact .inr ⟨x, hx, a, ha, hname⟩
  · rintro (h | ⟨x, hx, a, ha, hname⟩)
    · exact .inl h
    · exact .inr ⟨x, hx, _, ⟨a, ha, rfl⟩, hname⟩

/-- Substitution is simultaneous and avoids capture: in nameless form it puts what the bindings say
for the free names. So it respects the choice of names for case variables, in the expression as in
what is put; and a name is free behind it if it was and nothing is put for it, or if it is free in
what is put for a name that was free. -/
theorem substitute_simultaneous :
    (∀ (e : Expr) (bindings : Bindings),
      (e.substitute bindings).nameless [] = (e.nameless []).substitute bindings.nameless) ∧
    (∀ (e e' : Expr) (bindings bindings' : Bindings), e.AlphaEq e' → bindings.AlphaEq bindings' →
      (e.substitute bindings).AlphaEq (e'.substitute bindings')) ∧
    ∀ (e : Expr) (bindings : Bindings) (name : String),
      name ∈ (e.substitute bindings).freeObjects [] ↔
        (name ∈ e.freeObjects [] ∧ bindings.lookup name = none) ∨
          ∃ x ∈ e.freeObjects [], ∃ a, bindings.lookup x = some a ∧ name ∈ a.freeObjects [] := by
  refine ⟨fun e bindings => nameless_substitute bindings.apart_nil,
    fun e e' bindings bindings' he hbindings => ?_, fun e bindings name => mem_freeObjects_substitute⟩
  have he : e.nameless [] = e'.nameless [] := he
  have hbindings : bindings.nameless = bindings'.nameless := hbindings
  calc (e.substitute bindings).nameless []
      = (e.nameless []).substitute bindings.nameless := nameless_substitute bindings.apart_nil
    _ = (e'.nameless []).substitute bindings'.nameless := by rw [he, hbindings]
    _ = (e'.substitute bindings').nameless [] := (nameless_substitute bindings'.apart_nil).symm

theorem substitute_simultaneous_pair :
    let inX := matching (.object "z") [(.constructor "Pair" [.var "x", .var "y"],
      .operation "f" [.object "x", .object "z"])]
    let inU := matching (.object "z") [(.constructor "Pair" [.var "u", .var "y"],
      .operation "f" [.object "u", .object "z"])]
    let bindings : Bindings := [("z", .object "x")]
    inX.AlphaEq inU ∧ bindings.AlphaEq bindings ∧
      (inX.substitute bindings = matching (.object "x")
        [(.constructor "Pair" [.var "x1", .var "y"], .operation "f" [.object "x1", .object "x"])]) ∧
      (inU.substitute bindings = matching (.object "x")
        [(.constructor "Pair" [.var "u", .var "y"], .operation "f" [.object "u", .object "x"])]) ∧
      (inX.substitute bindings).AlphaEq (inU.substitute bindings) :=
  ⟨rfl, rfl, by cbv, by cbv, substitute_simultaneous.2.1 _ _ _ _ rfl rfl⟩

end Expr

end Formulary
