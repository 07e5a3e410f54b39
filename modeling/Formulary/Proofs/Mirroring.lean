import Formulary.Inference.Call
import Formulary.Proofs.Renaming
import Formulary.Proofs.Resolution

/-!
Two runs side by side. The second run may number its variables differently, and may know more
declarations than the first. As long as every written name means the same to both, each step of one
is mirrored by the same step of the other: what comes out is the same but for the numbers.
-/

namespace Formulary

section Steps

variable {σ τ ε α β γ δ : Type}

/-- What is compared of two runs. -/
structure Likeness (σ ε : Type) where
  states : σ → σ → Prop
  faults : ε → ε → Prop
  /-- Whether the second run has to fail where the first one does. -/
  faithful : Prop

/-- The second outcome is like the first one. -/
def Likeness.Agrees (L : Likeness σ ε) (A : α → β → Prop) :
    Except ε α × σ → Except ε β × σ → Prop
  | (.ok a, s), (.ok b, s') => A a b ∧ L.states s s'
  | (.error e, s), (.error e', s') => L.faithful → L.faults e e' ∧ L.states s s'
  | (.error _, _), (.ok _, _) => ¬L.faithful
  | (.ok _, _), (.error _, _) => False

theorem Likeness.agrees_error {L : Likeness σ ε} (h : ¬L.faithful) (A : α → β → Prop) (e : ε) (s : σ)
    (r : Except ε β × σ) : L.Agrees A (.error e, s) r := by
  rcases r with ⟨e' | b, s'⟩
  · exact fun hL => absurd hL h
  · exact h

/-- From states that are alike, steps come to the same as other steps. -/
def Mirrors (L : Likeness σ ε) (m : Attempt σ ε α) (m' : Attempt σ ε β) (A : α → β → Prop) : Prop :=
  ∀ s s', L.states s s' → L.Agrees A (m.outcome s) (m'.outcome s')

namespace Mirrors

variable {L : Likeness σ ε} {A : α → β → Prop} {B : γ → δ → Prop}

theorem and_left {P : α → Prop} {m : Attempt σ ε α} {m' : Attempt σ ε β} (h : Mirrors L m m' A)
    (hP : ∀ s a s', m.Returns s a s' → P a) : Mirrors L m m' fun a b => A a b ∧ P a := by
  intro s s' hs
  have hout := h s s' hs
  have hleft := hP s
  revert hout hleft
  unfold Attempt.Returns
  rcases m.outcome s with ⟨e | a, s₁⟩ <;> rcases m'.outcome s' with ⟨e' | b, s₁'⟩
  · exact fun h _ => h
  · exact fun h _ => h
  · exact fun h _ => h
  · exact fun h hleft => ⟨⟨h.1, hleft a s₁ rfl⟩, h.2⟩

theorem pure {a : α} {b : β} (h : A a b) : Mirrors L (pure a) (pure b) A := fun _ _ hs => ⟨h, hs⟩

theorem throw_left {e : ε} {m' : Attempt σ ε β} (h : ¬L.faithful) :
    Mirrors L (throw e : Attempt σ ε α) m' A := fun _ _ _ => Likeness.agrees_error h _ _ _ _

theorem throw {e e' : ε} (h : L.faults e e') :
    Mirrors L (throw e : Attempt σ ε α) (throw e' : Attempt σ ε β) A := fun _ _ hs _ => ⟨h, hs⟩

theorem get : Mirrors L (get : Attempt σ ε σ) get L.states := fun _ _ hs => ⟨hs, hs⟩

theorem modify {f f' : σ → σ} (h : ∀ s s', L.states s s' → L.states (f s) (f' s')) :
    Mirrors L (modify f) (modify f') fun _ _ => True := fun s s' hs => ⟨trivial, h s s' hs⟩

theorem bind {m : Attempt σ ε α} {m' : Attempt σ ε β} {f : α → Attempt σ ε γ}
    {f' : β → Attempt σ ε δ} (hm : Mirrors L m m' A)
    (hf : ∀ a b, A a b → Mirrors L (f a) (f' b) B) : Mirrors L (m >>= f) (m' >>= f') B := by
  intro s s' hs
  have hout := hm s s' hs
  rw [Attempt.outcome_bind, Attempt.outcome_bind]
  revert hout
  rcases m.outcome s with ⟨e | a, s₁⟩ <;> rcases m'.outcome s' with ⟨e' | b, s₁'⟩
  · exact id
  · exact fun h => Likeness.agrees_error h _ _ _ _
  · exact False.elim
  · exact fun h => hf a b h.1 s₁ s₁' h.2

theorem orElseThrow {m : Attempt σ ε α} {m' : Attempt σ ε β} {f : ε → Attempt σ ε α}
    {f' : ε → Attempt σ ε β} (hm : Mirrors L m m' A)
    (hf : ∀ e e', L.faults e e' → Mirrors L (f e) (f' e') A)
    (hfails : ∀ e s, ∃ r, (f e).outcome s = (.error r, ((f e).outcome s).2)) :
    Mirrors L (tryCatch m f) (tryCatch m' f') A := by
  intro s s' hs
  have hout := hm s s' hs
  rw [Attempt.outcome_tryCatch, Attempt.outcome_tryCatch]
  revert hout
  rcases m.outcome s with ⟨e | a, s₁⟩ <;> rcases m'.outcome s' with ⟨e' | b, s₁'⟩
  · intro h
    by_cases hL : L.faithful
    · exact hf e e' (h hL).1 s₁ s₁' (h hL).2
    · obtain ⟨r, hr⟩ := hfails e s₁
      dsimp only
      rw [hr]
      exact Likeness.agrees_error hL _ _ _ _
  · intro h
    obtain ⟨r, hr⟩ := hfails e s₁
    dsimp only
    rw [hr]
    exact h
  · exact False.elim
  · exact id

theorem ite {c c' : Prop} [Decidable c] [Decidable c'] {m₁ m₂ : Attempt σ ε α}
    {m₁' m₂' : Attempt σ ε β} (hc : c' ↔ c) (hthen : c → Mirrors L m₁ m₁' A)
    (helse : ¬c → Mirrors L m₂ m₂' A) :
    Mirrors L (if c then m₁ else m₂) (if c' then m₁' else m₂') A := by
  by_cases h : c
  · rw [if_pos h, if_pos (hc.2 h)]
    exact hthen h
  · rw [if_neg h, if_neg (mt hc.1 h)]
    exact helse h

theorem mapM {R : α → β → Prop} {f : α → Attempt σ ε γ} {f' : β → Attempt σ ε δ} {l : List α}
    {l' : List β} (hl : List.Forall₂ R l l') (h : ∀ a ∈ l, ∀ b, R a b → Mirrors L (f a) (f' b) B) :
    Mirrors L (l.mapM f) (l'.mapM f') (List.Forall₂ B) := by
  induction hl with
  | nil => exact .pure .nil
  | @cons a b l l' hab _ ih =>
      rw [List.mapM_cons, List.mapM_cons]
      refine (h a (List.mem_cons_self ..) b hab).bind fun c d hcd => ?_
      refine (ih fun a' ha' => h a' (List.mem_cons_of_mem _ ha')).bind fun cs ds hcds => ?_
      exact .pure (.cons hcd hcds)

theorem forM {f f' : α → Attempt σ ε PUnit} {l : List α}
    (h : ∀ a ∈ l, Mirrors L (f a) (f' a) fun _ _ => True) :
    Mirrors L (l.forM f) (l.forM f') fun _ _ => True := by
  induction l with
  | nil => exact .pure trivial
  | cons a l ih =>
      exact (h a (List.mem_cons_self ..)).bind fun _ _ _ =>
        ih fun b hb => h b (List.mem_cons_of_mem _ hb)

theorem liftExcept {r : Except ε α} {r' : Except ε β}
    (h : (∃ a b, r = .ok a ∧ r' = .ok b ∧ A a b) ∨
      ∃ e e', r = .error e ∧ r' = .error e' ∧ L.faults e e') :
    Mirrors L (liftM r) (liftM r') A := by
  obtain ⟨a, b, rfl, rfl, hab⟩ | ⟨e, e', rfl, rfl, he⟩ := h
  · exact .pure hab
  · exact .throw he

theorem liftState {x : StateM σ α} {x' : StateM σ β}
    (h : ∀ s s', L.states s s' → A (x.run s).1 (x'.run s').1 ∧
      L.states (x.run s).2 (x'.run s').2) : Mirrors L (liftM x) (liftM x') A := h

/-- Steps on a part of the state. -/
theorem zoom {K : Likeness τ ε} {m : Attempt τ ε α} {m' : Attempt τ ε β} {get : σ → τ}
    {set : σ → τ → σ} (h : Mirrors K m m' A) (hK : L.faithful → K.faithful)
    (hget : ∀ s s', L.states s s' → K.states (get s) (get s'))
    (hset : ∀ s s' t t', L.states s s' → K.states t t' → L.states (set s t) (set s' t'))
    (hfaults : ∀ e e', K.faults e e' → L.faults e e') :
    Mirrors L (Attempt.zoom get set m) (Attempt.zoom get set m') A := by
  intro s s' hs
  have hout := h (get s) (get s') (hget s s' hs)
  rw [Attempt.outcome_zoom, Attempt.outcome_zoom]
  revert hout
  rcases m.outcome (get s) with ⟨e | a, t⟩ <;> rcases m'.outcome (get s') with ⟨e' | b, t'⟩
  · exact fun h hL => ⟨hfaults e e' (h (hK hL)).1, hset s s' t t' hs (h (hK hL)).2⟩
  · exact fun h => mt hK h
  · exact False.elim
  · exact fun h => ⟨h.1, hset s s' t t' hs h.2⟩

end Mirrors

end Steps

/-- Whether a fault tells that two values of the type level do not agree. -/
def Fault.isClash : Fault → Bool
  | .unify (.mismatch expected actual) =>
    Inference.isValue expected && Inference.isValue actual
  | _ => false

/-- Two faults of the same kind, also when they are told as a conflict of dimensions. -/
structure Fault.IsLike (f f' : Fault) : Prop where
  kind : f'.kind = f.kind
  isClash : f'.isClash = f.isClash

theorem Fault.IsLike.refl (f : Fault) : f.IsLike f := ⟨rfl, rfl⟩

/-- How the types of a second run come from those of the first one. -/
structure Mirror where
  /-- The numbers that the second run has for variables. -/
  ids : Equiv.Perm Int
  /-- The data types, with constructors, that occur in types. -/
  allowed : String → String → Prop
  /-- How many variables more than the first run the second one has handed out. -/
  ahead : Int

namespace Mirror

variable (M : Mirror)

/-- A type of the second run in the place of one of the first. -/
def ShowsTy (a b : Ty) : Prop := b = a.rename M.ids ∧ a.IsOver M.allowed

def ShowsSubst (s s' : Subst) : Prop := s.RenamedTo M.ids s' ∧ s.IsOver M.allowed

/-- Both runs hand out their next variables in step. -/
structure ShowsSupply (u u' : Supply) : Prop where
  nexts : ∀ n : Nat, Supply.next { u' with drawn := u'.drawn + n } =
    M.ids (Supply.next { u with drawn := u.drawn + n })
  drawn : (u'.drawn : Int) = u.drawn + M.ahead

def ShowsIds (vars vars' : List (String × Int)) : Prop :=
  vars' = vars.map fun v => (v.1, M.ids v.2)

def ShowsScope (scope scope' : Scope) : Prop :=
  List.Forall₂ (fun b b' => b'.1 = b.1 ∧ Option.Rel M.ShowsTy b.2 b'.2) scope scope'

/-- Steps that hand out variables. -/
def freshLike : Likeness Supply Fault := ⟨M.ShowsSupply, Fault.IsLike, True⟩

/-- Steps that hand out variables by name. -/
def namedLike : Likeness NamedVars Fault :=
  ⟨fun s s' => M.ShowsSupply s.supply s'.supply ∧ M.ShowsIds s.vars s'.vars, Fault.IsLike, True⟩

variable {M}

theorem showsTy_var (x : Int) : M.ShowsTy (.var x) (.var (M.ids x)) := ⟨rfl, trivial⟩

theorem forall₂_showsTy {ts ts' : List Ty} :
    List.Forall₂ M.ShowsTy ts ts' ↔
      ts' = Ty.renameList M.ids ts ∧ Ty.IsOverList M.allowed ts := by
  induction ts generalizing ts' with
  | nil =>
      rw [List.forall₂_nil_left_iff]
      simp [Ty.renameList, Ty.IsOverList]
  | cons t ts ih =>
      cases ts' with
      | nil => simp [Ty.renameList]
      | cons t' ts' =>
          rw [List.forall₂_cons, ih, Ty.renameList, Ty.IsOverList, List.cons.injEq]
          unfold ShowsTy
          tauto

theorem ShowsTy.data {name constructor : String} {ts ts' : List Ty}
    (h : List.Forall₂ M.ShowsTy ts ts') (hallowed : M.allowed name constructor) :
    M.ShowsTy (.data name constructor ts) (.data name constructor ts') := by
  obtain ⟨rfl, hover⟩ := forall₂_showsTy.1 h
  exact ⟨rfl, hallowed, hover⟩

theorem ShowsTy.fn {a a' b b' : Ty} (ha : M.ShowsTy a a') (hb : M.ShowsTy b b') :
    M.ShowsTy (.fn a b) (.fn a' b') := by
  obtain ⟨rfl, ha⟩ := ha
  obtain ⟨rfl, hb⟩ := hb
  exact ⟨rfl, ha, hb⟩

theorem ShowsTy.curry {ts ts' : List Ty} {t t' : Ty} (hts : List.Forall₂ M.ShowsTy ts ts')
    (ht : M.ShowsTy t t') : M.ShowsTy (Ty.curry ts t) (Ty.curry ts' t') := by
  induction hts with
  | nil => exact ht
  | cons h _ ih => exact h.fn ih

theorem ShowsSubst.apply {s s' : Subst} {t t' : Ty} (hs : M.ShowsSubst s s') (ht : M.ShowsTy t t') :
    M.ShowsTy (s.apply t) (s'.apply t') := by
  obtain ⟨rfl, ht⟩ := ht
  exact ⟨hs.1.apply_rename t, hs.2.apply ht⟩

theorem ShowsSubst.compose {s s' next next' : Subst} (hs : M.ShowsSubst s s')
    (hn : M.ShowsSubst next next') : M.ShowsSubst (s.compose next) (s'.compose next') :=
  ⟨hs.1.compose hn.1, hs.2.compose hn.2⟩

theorem showsSubst_empty : M.ShowsSubst ∅ ∅ := ⟨Subst.renamedTo_empty, Subst.isOver_empty⟩

/-- Two equations that are mirror images are solved alike. -/
theorem ShowsTy.unify {a a' b b' : Ty} (ha : M.ShowsTy a a') (hb : M.ShowsTy b b') :
    (∃ s s', Ty.unify a b = .ok s ∧ Ty.unify a' b' = .ok s' ∧ M.ShowsSubst s s') ∨
    ∃ e e', Ty.unify a b = .error e ∧ Ty.unify a' b' = .error e' ∧
      (Fault.unify e).IsLike (.unify e') := by
  obtain ⟨rfl, ha⟩ := ha
  obtain ⟨rfl, hb⟩ := hb
  obtain ⟨s, s', hs, hs', hshows⟩ | ⟨e, he, he'⟩ := Ty.unify_renamed (ρ := M.ids) ha hb
  · exact .inl ⟨s, s', hs, hs', hshows⟩
  · refine .inr ⟨e, e.rename M.ids, he, he', ?_⟩
    cases e with
    | mismatch expected actual => exact ⟨rfl, by cases expected <;> cases actual <;> rfl⟩
    | arity | occurs | quantified => exact ⟨rfl, rfl⟩

theorem ShowsSupply.next {u u' : Supply} (h : M.ShowsSupply u u') : u'.next = M.ids u.next :=
  h.nexts 0

theorem ShowsSupply.advance {u u' : Supply} (h : M.ShowsSupply u u') :
    M.ShowsSupply u.advance u'.advance where
  nexts n := by
    have hstep := h.nexts (n + 1)
    simpa only [Supply.advance, Nat.add_assoc, Nat.add_comm 1 n] using hstep
  drawn := by
    have hdrawn := h.drawn
    simp only [Supply.advance]
    omega

theorem ShowsSupply.resetCount {u u' : Supply} (h : M.ShowsSupply u u') :
    M.ShowsSupply u.resetCount u'.resetCount :=
  ⟨h.nexts, h.drawn⟩

theorem fresh_mirrors :
    Mirrors M.freshLike (liftM Supply.fresh : Fresh Int) (liftM Supply.fresh : Fresh Int)
      fun x y => y = M.ids x :=
  .liftState fun _ _ h => ⟨h.next, h.advance⟩

theorem ShowsIds.lookup {vars vars' : List (String × Int)} (h : M.ShowsIds vars vars')
    (name : String) : vars'.lookup name = (vars.lookup name).map M.ids := by
  rw [h]
  induction vars generalizing vars' with
  | nil => rfl
  | cons v vars ih =>
      rw [List.map_cons, List.lookup_cons, List.lookup_cons]
      cases name == v.1 with
      | true => rfl
      | false => exact ih rfl

theorem ShowsScope.lookup {scope scope' : Scope} (h : M.ShowsScope scope scope') (name : String) :
    (name ∉ scope.map (·.1) ∧ scope.lookup name = none ∧ scope'.lookup name = none) ∨
      ∃ b b', scope.lookup name = some b ∧ scope'.lookup name = some b' ∧
        Option.Rel M.ShowsTy b b' := by
  induction h with
  | nil => exact .inl ⟨List.not_mem_nil, rfl, rfl⟩
  | @cons b b' scope scope' hb _ ih =>
      rw [List.lookup_cons, List.lookup_cons, hb.1, List.map_cons, List.mem_cons]
      by_cases hname : name = b.1
      · rw [beq_iff_eq.2 hname]
        exact .inr ⟨_, _, rfl, rfl, hb.2⟩
      · rw [beq_eq_false_iff_ne.2 hname]
        simpa [hname] using ih

theorem showsScope_zip (names : List String) {ts ts' : List Ty}
    (h : List.Forall₂ M.ShowsTy ts ts') :
    M.ShowsScope (names.zip (ts.map some)) (names.zip (ts'.map some)) := by
  induction h generalizing names with
  | nil =>
      rw [List.map_nil, List.zip_nil_right]
      exact .nil
  | cons ht _ ih =>
      cases names with
      | nil => exact .nil
      | cons name names => exact .cons ⟨rfl, .some ht⟩ (ih names)

theorem map_fst_zip_some (names : List String) (ts : List Ty) :
    (names.zip (ts.map some)).map (·.1) = names.take ts.length := by
  induction ts generalizing names with
  | nil => simp
  | cons t ts ih =>
      cases names with
      | nil => rfl
      | cons name names => simp [← ih names]

theorem freeParam_mirrors (name : String) :
    Mirrors M.namedLike (DataTypes.freeParam name) (DataTypes.freeParam name) M.ShowsTy := by
  have hvar : Mirrors M.namedLike (liftM (NamedVars.varFor name) : FreshNamed Int)
      (liftM (NamedVars.varFor name) : FreshNamed Int) fun x y => y = M.ids x := by
    refine .liftState fun s s' hs => ?_
    rw [run_varFor, run_varFor, hs.2.lookup name]
    cases s.vars.lookup name with
    | some id => exact ⟨rfl, hs⟩
    | none =>
        refine ⟨hs.1.next, hs.1.advance, ?_⟩
        rw [hs.1.next, hs.2]
        rfl
  refine hvar.bind fun x y hxy => .pure ?_
  rw [hxy]
  exact showsTy_var x

end Mirror

/-- A name that stands for the same data type or variant of types in two lists of declarations. -/
structure DataTypes.MeansSame (r r' : DataTypes) (name : String) : Prop where
  find? : r'.find? name = r.find? name
  metaVariant? : r'.metaVariant? name = r.metaVariant? name

namespace TypeExpr

mutual

/-- Every name that is written in a type stands for the same, apart from those that are bound. -/
def MeansSame (r r' : DataTypes) (bound : List String) : TypeExpr → Prop
  | .named name => name ∉ bound → r.MeansSame r' name
  | .app name args => r.MeansSame r' name ∧ MeansSameList r r' bound args
  | .arrow domain codomain => domain.MeansSame r r' bound ∧ codomain.MeansSame r r' bound
  | .blank | .nat _ | .tag _ => True

def MeansSameList (r r' : DataTypes) (bound : List String) : List TypeExpr → Prop
  | [] => True
  | e :: es => e.MeansSame r r' bound ∧ MeansSameList r r' bound es

end

end TypeExpr

namespace DataTypes

theorem MeansSame.refl (r : DataTypes) (name : String) : r.MeansSame r name := ⟨rfl, rfl⟩

variable {r r' : DataTypes}

theorem MeansSame.lookupName? {name : String} (h : r.MeansSame r' name) :
    r'.lookupName? name = r.lookupName? name := by
  rw [DataTypes.lookupName?, DataTypes.lookupName?, h.find?, h.metaVariant?]

/-- What two lists of declarations have in common, so that the second can stand in for the first:
what the first one declares means the same in the second, and the types that occur are built with
the same constructors. -/
structure Agrees (M : Mirror) (r r' : DataTypes) : Prop where
  fields : ∀ name d v, r.variant? name = some (d, v) → ∀ f ∈ v.fields,
    f.type.MeansSame r r' (if d.name = Ty.metaName then [] else d.params)
  scalar : M.allowed Ty.metaName "Scalar"
  instances : ∀ name d, r.find? name = some d → M.allowed name name
  variants : ∀ name v, r.metaVariant? name = some v → M.allowed Ty.metaName name
  constructors : ∀ name constructor, M.allowed name constructor →
    Pattern.constructorsOf r' (.data name constructor []) =
        Pattern.constructorsOf r (.data name constructor []) ∧
      ∀ c ∈ Pattern.constructorsOf r (.data name constructor []), r'.variant? c = r.variant? c

variable {M : Mirror}

theorem Agrees.lookupName? (h : r.Agrees M r') {name : String} {t : Ty}
    (ht : r.lookupName? name = some t) : M.ShowsTy t t := by
  unfold DataTypes.lookupName? at ht
  split at ht
  · rename_i d variants hfind
    cases ht
    exact ⟨rfl, h.instances _ _ hfind, trivial⟩
  · split at ht
    · rename_i v hmeta
      cases ht
      exact ⟨rfl, h.variants _ _ hmeta, trivial⟩
    · rw [builtinNames, List.lookup_eq_some_iff] at ht
      obtain ⟨before, after, heq, -⟩ := ht
      have hmem : (name, t) ∈ builtinNames := by
        rw [builtinNames, heq]
        simp
      simp only [builtinNames, List.mem_cons, Prod.mk.injEq, List.not_mem_nil, or_false] at hmem
      rcases hmem with ⟨-, rfl⟩ | ⟨-, rfl⟩ | ⟨-, rfl⟩ | ⟨-, rfl⟩ | ⟨-, rfl⟩ | ⟨-, rfl⟩
      · exact ⟨rfl, h.scalar, trivial⟩
      · exact ⟨rfl, h.scalar, trivial⟩
      all_goals exact ⟨rfl, trivial⟩

theorem Agrees.applyName (h : r.Agrees M r') {name : String} (hname : r.MeansSame r' name)
    {args args' : List Ty} (hargs : List.Forall₂ M.ShowsTy args args') :
    (∃ t t', r.applyName name args = .ok t ∧ r'.applyName name args' = .ok t' ∧ M.ShowsTy t t') ∨
    ∃ f f', r.applyName name args = .error f ∧ r'.applyName name args' = .error f' ∧
      f.IsLike f' := by
  rw [DataTypes.applyName, DataTypes.applyName, hname.find?, hname.metaVariant?, ← hargs.length_eq]
  cases hfind : r.find? name with
  | some d =>
      dsimp only
      split
      · exact .inl ⟨_, _, rfl, rfl, .data hargs (h.instances _ _ hfind)⟩
      · exact .inr ⟨_, _, rfl, rfl, .refl _⟩
  | none =>
      cases hmeta : r.metaVariant? name with
      | some v =>
          dsimp only
          split
          · exact .inl ⟨_, _, rfl, rfl, .data hargs (h.variants _ _ hmeta)⟩
          · exact .inr ⟨_, _, rfl, rfl, .refl _⟩
      | none => exact .inr ⟨_, _, rfl, rfl, rfl, rfl⟩

section Resolving

variable {L : Likeness NamedVars Fault} {scope scope' : Scope} {free : Bool}

mutual

/-- What is written comes to the same, if the second run gives parameters that are not bound the
same variables. -/
theorem resolve_mirrors (hagree : r.Agrees M r') (hL : ∀ f f', f.IsLike f' → L.faults f f')
    (hfree : free = true → ∀ name, Mirrors L (freeParam name) (freeParam name) M.ShowsTy)
    (hscope : M.ShowsScope scope scope') {e : TypeExpr} (he : e.MeansSame r r' (scope.map (·.1))) :
    Mirrors L (r.resolve scope free e) (r'.resolve scope' free e) M.ShowsTy := by
  cases e with
  | blank => exact .throw (hL _ _ (.refl _))
  | named name =>
      rw [resolve, resolve]
      obtain ⟨hnew, hnone, hnone'⟩ | ⟨b, b', hb, hb', hrel⟩ := hscope.lookup name
      · rw [hnone, hnone']
        dsimp only
        rw [(he hnew).lookupName?]
        cases hlookup : r.lookupName? name with
        | some t => exact .pure (hagree.lookupName? hlookup)
        | none =>
            refine .ite Iff.rfl (fun h => ?_) fun _ => .throw (hL _ _ ⟨rfl, rfl⟩)
            exact hfree (Bool.and_eq_true_iff.1 h).1 name
      · rw [hb, hb']
        cases hrel with
        | some ht => exact .pure ht
        | none =>
            exact .ite Iff.rfl (fun h => hfree h name) fun _ => .throw (hL _ _ (.refl _))
  | app name args =>
      rw [resolve, resolve]
      refine (resolveList_mirrors hagree hL hfree hscope he.2).bind fun ts ts' hts => ?_
      refine .liftExcept ((hagree.applyName he.1 hts).imp id ?_)
      rintro ⟨f, f', hf, hf', hlike⟩
      exact ⟨f, f', hf, hf', hL _ _ hlike⟩
  | arrow domain codomain =>
      rw [resolve, resolve]
      refine (resolve_mirrors hagree hL hfree hscope he.1).bind fun a a' ha => ?_
      refine (resolve_mirrors hagree hL hfree hscope he.2).bind fun b b' hb => ?_
      exact .pure (ha.fn hb)
  | nat | tag => exact .pure ⟨rfl, trivial⟩

theorem resolveList_mirrors (hagree : r.Agrees M r') (hL : ∀ f f', f.IsLike f' → L.faults f f')
    (hfree : free = true → ∀ name, Mirrors L (freeParam name) (freeParam name) M.ShowsTy)
    (hscope : M.ShowsScope scope scope') {es : List TypeExpr}
    (hes : TypeExpr.MeansSameList r r' (scope.map (·.1)) es) :
    Mirrors L (r.resolveList scope free es) (r'.resolveList scope' free es)
      (List.Forall₂ M.ShowsTy) := by
  cases es with
  | nil => exact .pure .nil
  | cons e es =>
      rw [resolveList, resolveList]
      refine (resolve_mirrors hagree hL hfree hscope hes.1).bind fun t t' ht => ?_
      refine (resolveList_mirrors hagree hL hfree hscope hes.2).bind fun ts ts' hts => ?_
      exact .pure (.cons ht hts)

end

/-- Parameters that are not bound are refused by both runs, so that their supplies do not matter. -/
theorem resolveClosed_mirrors (hagree : r.Agrees M r') (hscope : M.ShowsScope scope scope')
    {e : TypeExpr} (he : e.MeansSame r r' (scope.map (·.1))) :
    (∃ t t', r.resolveClosed scope e = .ok t ∧ r'.resolveClosed scope' e = .ok t' ∧
      M.ShowsTy t t') ∨
    ∃ f f', r.resolveClosed scope e = .error f ∧ r'.resolveClosed scope' e = .error f' ∧
      f.IsLike f' := by
  have hmirrors : Mirrors ⟨fun _ _ => True, Fault.IsLike, True⟩ (r.resolve scope false e)
      (r'.resolve scope' false e) M.ShowsTy :=
    resolve_mirrors hagree (fun _ _ => id) (fun h => absurd h Bool.false_ne_true) hscope he
  have h := hmirrors ⟨.startingAt 0, []⟩ ⟨.startingAt 0, []⟩ trivial
  rw [resolveClosed, resolveClosed, FreshNamed.closed, FreshNamed.closed]
  revert h
  unfold Attempt.outcome
  rcases (r.resolve scope false e).run.run ⟨.startingAt 0, []⟩ with ⟨f | t, s⟩ <;>
    rcases (r'.resolve scope' false e).run.run ⟨.startingAt 0, []⟩ with ⟨f' | t', s'⟩
  · exact fun h => .inr ⟨f, f', rfl, rfl, (h trivial).1⟩
  · exact fun h => absurd trivial h
  · exact False.elim
  · exact fun h => .inl ⟨t, t', rfl, rfl, h.1⟩

end Resolving

theorem named_mirrors {α β : Type} {A : α → β → Prop} {steps : FreshNamed α}
    {steps' : FreshNamed β} (h : Mirrors M.namedLike steps steps' A) :
    Mirrors M.freshLike (Fresh.named steps) (Fresh.named steps') A := by
  intro u u' hu
  have hout := h ⟨u, []⟩ ⟨u', []⟩ ⟨hu, rfl⟩
  revert hout
  show M.namedLike.Agrees A (steps.run.run ⟨u, []⟩) (steps'.run.run ⟨u', []⟩) →
    M.freshLike.Agrees A ((steps.run.run ⟨u, []⟩).1, (steps.run.run ⟨u, []⟩).2.supply)
      ((steps'.run.run ⟨u', []⟩).1, (steps'.run.run ⟨u', []⟩).2.supply)
  rcases steps.run.run ⟨u, []⟩ with ⟨f | a, s⟩ <;> rcases steps'.run.run ⟨u', []⟩ with ⟨f' | b, s'⟩
  · exact fun h _ => ⟨(h trivial).1, (h trivial).2.1⟩
  · exact id
  · exact id
  · exact fun h => ⟨h.1, h.2.1⟩

end DataTypes

namespace Mirror

variable (M : Mirror)

structure ShowsField (f f' : FieldInstance) : Prop where
  label : f'.label = f.label
  type : M.ShowsTy f.type f'.type
  kind : f'.kind = f.kind

structure ShowsVariant (v v' : VariantInstance) : Prop where
  owner : v'.owner = v.owner
  name : v'.name = v.name
  result : M.ShowsTy v.result v'.result
  fields : List.Forall₂ M.ShowsField v.fields v'.fields

variable {M}

theorem forall₂_types {fields fields' : List FieldInstance}
    (h : List.Forall₂ M.ShowsField fields fields') :
    List.Forall₂ M.ShowsTy (fields.map (·.type)) (fields'.map (·.type)) := by
  rw [List.forall₂_map_left_iff, List.forall₂_map_right_iff]
  exact h.imp fun _ _ h => h.type

end Mirror

namespace DataTypes

variable {M : Mirror} {r r' : DataTypes}

theorem find?_of_variant? {name : String} {d : DataType} {v : Variant}
    (h : r.variant? name = some (d, v)) : ∃ d', r.find? d.name = some d' := by
  obtain ⟨d', hd', hv⟩ := List.exists_of_findSome?_eq_some h
  obtain ⟨v', -, heq⟩ := Option.map_eq_some_iff.1 hv
  cases heq
  exact Option.isSome_iff_exists.1 (List.find?_isSome.2 ⟨_, hd', by simp⟩)

theorem fst_of_params {names : List String} {params : List (String × Ty)} {u u' : Supply}
    (h : Attempt.Returns (names.mapM fun p => do
      return (p, Ty.var (← (liftM Supply.fresh : Fresh Int)))) u params u') :
    params.map (·.1) = names := by
  have hall := Attempt.returns_mapM h
  clear h
  induction hall with
  | nil => rfl
  | cons hfirst _ ih =>
      obtain ⟨u₁, u₂, hreturns⟩ := hfirst
      cases hreturns
      rw [List.map_cons, ih]

theorem metaField_mirrors (hagree : r.Agrees M r') {f : Field} (hf : f.type.MeansSame r r' []) :
    Mirrors M.freshLike (r.metaField f) (r'.metaField f) M.ShowsField := by
  unfold metaField
  have hdeclared : Mirrors M.freshLike (liftM (r.resolveClosed [] f.type) : Fresh Ty)
      (liftM (r'.resolveClosed [] f.type) : Fresh Ty) M.ShowsTy :=
    .liftExcept (resolveClosed_mirrors hagree .nil hf)
  refine hdeclared.bind fun t t' ht => ?_
  obtain ⟨rfl, hover⟩ := ht
  refine .ite ?_ (fun _ => ?_) fun _ => ?_
  · cases t <;> rfl
  · exact .pure ⟨rfl, ⟨rfl, hover⟩, t.paramKind_rename _⟩
  · refine Mirror.fresh_mirrors.bind fun x y hxy => .pure ⟨rfl, ?_, t.paramKind_rename _⟩
    rw [hxy]
    exact Mirror.showsTy_var x

theorem instantiate_mirrors (hagree : r.Agrees M r') {name : String}
    (hname : r'.variant? name = r.variant? name) :
    Mirrors M.freshLike (r.instantiate name) (r'.instantiate name) M.ShowsVariant := by
  unfold instantiate
  rw [hname]
  cases hvariant : r.variant? name with
  | none => exact .throw ⟨rfl, rfl⟩
  | some owner =>
      rcases owner with ⟨d, v⟩
      have hsame := hagree.fields name d v hvariant
      refine .ite Iff.rfl (fun hmeta => ?_) fun hmeta => ?_
      · rw [if_pos hmeta] at hsame
        have hfields : Mirrors M.freshLike (v.fields.mapM r.metaField) (v.fields.mapM r'.metaField)
            (List.Forall₂ M.ShowsField) := by
          refine .mapM (List.forall₂_same.2 fun f _ => rfl) fun f hf f' heq => ?_
          rw [← heq]
          exact metaField_mirrors hagree (hsame f hf)
        refine hfields.bind fun fields fields' h => .pure ⟨rfl, rfl, ?_, h⟩
        refine .data (Mirror.forall₂_types h) (hagree.variants name v ?_)
        rw [metaVariant?, hvariant]
        exact if_pos hmeta
      · rw [if_neg hmeta] at hsame
        have hparams : Mirrors M.freshLike
            (d.params.mapM fun p => do return (p, Ty.var (← (liftM Supply.fresh : Fresh Int))))
            (d.params.mapM fun p => do return (p, Ty.var (← (liftM Supply.fresh : Fresh Int))))
            (List.Forall₂ fun b b' => b'.1 = b.1 ∧ M.ShowsTy b.2 b'.2) := by
          refine .mapM (List.forall₂_same.2 fun p _ => rfl) fun p _ p' heq => ?_
          refine Mirror.fresh_mirrors.bind fun x y hxy => .pure ⟨heq.symm, ?_⟩
          rw [hxy]
          exact Mirror.showsTy_var x
        refine (hparams.and_left fun u params u' h => fst_of_params h).bind ?_
        rintro params params' ⟨hshows, hnames⟩
        have hscope : M.ShowsScope (params.map fun b => (b.1, some b.2))
            (params'.map fun b => (b.1, some b.2)) := by
          rw [Mirror.ShowsScope, List.forall₂_map_left_iff, List.forall₂_map_right_iff]
          exact hshows.imp fun b b' h => ⟨h.1, .some h.2⟩
        have hbound : (params.map fun b => (b.1, some b.2)).map (·.1) = d.params := by
          rw [List.map_map, ← hnames]
          rfl
        have hfields : Mirrors M.freshLike
            (v.fields.mapM fun f => do
              let t ← (liftM (r.resolveClosed (params.map fun b => (b.1, some b.2)) f.type) :
                Fresh Ty)
              return (⟨f.label, t, t.paramKind⟩ : FieldInstance))
            (v.fields.mapM fun f => do
              let t ← (liftM (r'.resolveClosed (params'.map fun b => (b.1, some b.2)) f.type) :
                Fresh Ty)
              return (⟨f.label, t, t.paramKind⟩ : FieldInstance))
            (List.Forall₂ M.ShowsField) := by
          refine .mapM (List.forall₂_same.2 fun f _ => rfl) fun f hf f' heq => ?_
          rw [← heq]
          have htype : Mirrors M.freshLike _ _ M.ShowsTy :=
            .liftExcept (resolveClosed_mirrors hagree hscope (hbound ▸ hsame f hf))
          refine htype.bind fun t t' ht => .pure ⟨rfl, ht, ?_⟩
          rw [ht.1]
          exact t.paramKind_rename _
        refine hfields.bind fun fields fields' h => .pure ⟨rfl, rfl, ?_, h⟩
        obtain ⟨d', hd'⟩ := find?_of_variant? hvariant
        refine .data ?_ (hagree.instances _ _ hd')
        rw [List.forall₂_map_left_iff, List.forall₂_map_right_iff]
        exact hshows.imp fun b b' h => h.2

theorem Agrees.constructorsOf (hagree : r.Agrees M r') {t t' : Ty} (ht : M.ShowsTy t t') :
    Pattern.constructorsOf r' t' = Pattern.constructorsOf r t ∧
      ∀ c ∈ Pattern.constructorsOf r t, r'.variant? c = r.variant? c := by
  obtain ⟨rfl, hover⟩ := ht
  cases t with
  | data name constructor args => exact hagree.constructors name constructor hover.1
  | _ => exact ⟨rfl, fun c hc => absurd hc List.not_mem_nil⟩

end DataTypes

namespace Mirror

variable {M : Mirror}

/-- The types of the variables of a pattern in the second run. -/
def ShowsBindings (M : Mirror) (env env' : TypeEnv) : Prop :=
  ∀ name, Option.Rel M.ShowsTy (env.get? name) (env'.get? name)

structure ShowsTyping (M : Mirror) (t t' : Pattern.Typing) : Prop where
  subst : M.ShowsSubst t.subst t'.subst
  bindings : M.ShowsBindings t.bindings t'.bindings

theorem showsTyping_start : M.ShowsTyping .start .start := ⟨showsSubst_empty, fun _ => .none⟩

theorem ShowsBindings.insert {env env' : TypeEnv} (h : M.ShowsBindings env env') (name : String)
    {t t' : Ty} (ht : M.ShowsTy t t') :
    M.ShowsBindings (SortedMap.insert env name t) (SortedMap.insert env' name t') := by
  intro other
  rw [SortedMap.get?_insert, SortedMap.get?_insert]
  split
  · exact .some ht
  · exact h other

theorem ShowsBindings.isSome_eq {env env' : TypeEnv} (h : M.ShowsBindings env env')
    (name : String) : (env'.get? name).isSome = (env.get? name).isSome := by
  have hname := h name
  generalize env.get? name = t at hname ⊢
  generalize env'.get? name = t' at hname ⊢
  cases hname <;> rfl

theorem ShowsBindings.mapValues {env env' : TypeEnv} (h : M.ShowsBindings env env')
    {s s' : Subst} (hs : M.ShowsSubst s s') :
    M.ShowsBindings (env.mapValues s.apply) (env'.mapValues s'.apply) := by
  intro name
  rw [SortedMap.get?_mapValues, SortedMap.get?_mapValues]
  have hname := h name
  generalize env.get? name = t at hname ⊢
  generalize env'.get? name = t' at hname ⊢
  cases hname with
  | none => exact .none
  | some ht => exact .some (hs.apply ht)

theorem ShowsTyping.require {t t' : Pattern.Typing} (h : M.ShowsTyping t t')
    {expected expected' actual actual' : Ty} (he : M.ShowsTy expected expected')
    (ha : M.ShowsTy actual actual') :
    Mirrors M.freshLike (liftM (t.require expected actual) : Fresh Pattern.Typing)
      (liftM (t'.require expected' actual') : Fresh Pattern.Typing) M.ShowsTyping := by
  unfold Pattern.Typing.require
  obtain ⟨s, s', hs, hs', hshows⟩ | ⟨e, e', he, he', hlike⟩ := (h.subst.apply he).unify ha
  · rw [hs, hs']
    exact .pure ⟨h.subst.compose hshows, h.bindings⟩
  · rw [he, he']
    exact .throw hlike

end Mirror

namespace Pattern

mutual

/-- The constructors in a pattern. -/
def heads : Pattern → List String
  | .wildcard | .var _ | .const _ => []
  | .constructor name args => name :: headsList args

def headsList : List Pattern → List String
  | [] => []
  | p :: ps => p.heads ++ headsList ps

end

variable {M : Mirror} {r r' : DataTypes}

mutual

theorem checkAfter_mirrors (hagree : r.Agrees M r') {p : Pattern}
    (hp : ∀ c ∈ p.heads, r'.variant? c = r.variant? c) {t t' : Typing} (ht : M.ShowsTyping t t')
    {expected expected' : Ty} (he : M.ShowsTy expected expected') :
    Mirrors M.freshLike (checkAfter r t p expected) (checkAfter r' t' p expected')
      M.ShowsTyping := by
  cases p with
  | wildcard => exact .pure ht
  | var name =>
      rw [checkAfter, checkAfter, ht.bindings.isSome_eq]
      exact .ite Iff.rfl (fun _ => .throw (.refl _))
        fun _ => .pure ⟨ht.subst, ht.bindings.insert name he⟩
  | const value =>
      rw [checkAfter, checkAfter]
      exact ht.require he ⟨rfl, hagree.scalar, trivial⟩
  | constructor name args =>
      rw [checkAfter, checkAfter]
      obtain ⟨hname, hargs⟩ := List.forall_mem_cons.1 hp
      refine (DataTypes.instantiate_mirrors hagree hname).bind fun v v' hv => ?_
      have hlength := hv.fields.length_eq
      refine .ite (by rw [hlength]) (fun _ => ?_) fun _ => ?_
      · rw [hlength]
        exact .throw (.refl _)
      · refine (ht.require he hv.result).bind fun u u' hu => ?_
        exact checkListAfter_mirrors hagree hargs hu (Mirror.forall₂_types hv.fields)

theorem checkListAfter_mirrors (hagree : r.Agrees M r') {ps : List Pattern}
    (hps : ∀ c ∈ headsList ps, r'.variant? c = r.variant? c) {t t' : Typing}
    (ht : M.ShowsTyping t t') {fields fields' : List Ty}
    (hfields : List.Forall₂ M.ShowsTy fields fields') :
    Mirrors M.freshLike (checkListAfter r t ps fields) (checkListAfter r' t' ps fields')
      M.ShowsTyping := by
  match ps, hfields with
  | [], _ =>
      rw [checkListAfter, checkListAfter]
      · exact .pure ht
      · simp
      · simp
  | p :: ps, .nil =>
      rw [checkListAfter, checkListAfter]
      · exact .pure ht
      · simp
      · simp
  | p :: ps, .cons hfield hfields =>
      rw [checkListAfter, checkListAfter]
      rw [headsList, List.forall_mem_append] at hps
      refine (checkAfter_mirrors hagree hps.1 ht (ht.subst.apply hfield)).bind fun u u' hu => ?_
      exact checkListAfter_mirrors hagree hps.2 hu hfields

end

theorem check_mirrors (hagree : r.Agrees M r') {p : Pattern}
    (hp : ∀ c ∈ p.heads, r'.variant? c = r.variant? c) {expected expected' : Ty}
    (he : M.ShowsTy expected expected') :
    Mirrors M.freshLike (p.check r expected) (p.check r' expected') M.ShowsTyping := by
  refine (checkAfter_mirrors hagree hp Mirror.showsTyping_start he).bind fun t t' ht => ?_
  exact .pure ⟨ht.subst, ht.bindings.mapValues ht.subst⟩

end Pattern

/-- Steps that hand out variables and do not fail, side by side. -/
def Mirror.InStep (M : Mirror) {α β : Type} (x : StateM Supply α) (x' : StateM Supply β)
    (A : α → β → Prop) : Prop :=
  ∀ u u', M.ShowsSupply u u' →
    A (x.run u).1 (x'.run u').1 ∧ M.ShowsSupply (x.run u).2 (x'.run u').2

namespace Mirror.InStep

variable {M : Mirror} {α β γ δ : Type} {A : α → β → Prop} {B : γ → δ → Prop}

theorem pure {a : α} {b : β} (h : A a b) : M.InStep (pure a) (pure b) A := fun _ _ hu => ⟨h, hu⟩

theorem bind {x : StateM Supply α} {x' : StateM Supply β} {f : α → StateM Supply γ}
    {f' : β → StateM Supply δ} (hx : M.InStep x x' A)
    (hf : ∀ a b, A a b → M.InStep (f a) (f' b) B) : M.InStep (x >>= f) (x' >>= f') B := by
  intro u u' hu
  obtain ⟨hA, hu₁⟩ := hx u u' hu
  exact hf _ _ hA _ _ hu₁

theorem anyM {f f' : α → StateM Supply Bool} {l : List α}
    (h : ∀ a ∈ l, M.InStep (f a) (f' a) Eq) : M.InStep (l.anyM f) (l.anyM f') Eq := by
  induction l with
  | nil => exact .pure rfl
  | cons a l ih =>
      refine (h a (List.mem_cons_self ..)).bind fun b b' hb => ?_
      cases hb
      cases b with
      | true => exact .pure rfl
      | false => exact ih fun a' ha' => h a' (List.mem_cons_of_mem _ ha')

theorem filterM {f f' : α → StateM Supply Bool} {l : List α}
    (h : ∀ a ∈ l, M.InStep (f a) (f' a) Eq) : M.InStep (l.filterM f) (l.filterM f') Eq := by
  have haux : ∀ acc, M.InStep (l.filterAuxM f acc) (l.filterAuxM f' acc) Eq := by
    induction l with
    | nil => exact fun acc => .pure rfl
    | cons a l ih =>
        intro acc
        refine (h a (List.mem_cons_self ..)).bind fun b b' hb => ?_
        cases hb
        exact ih (fun a' ha' => h a' (List.mem_cons_of_mem _ ha')) _
  refine (haux []).bind fun l l' hl => ?_
  cases hl
  exact .pure rfl

theorem of_mirrors {m : Fresh α} {m' : Fresh β} (h : Mirrors M.freshLike m m' A) :
    M.InStep m.run m'.run fun x x' =>
      (∃ a b, x = .ok a ∧ x' = .ok b ∧ A a b) ∨ ∃ f f', x = .error f ∧ x' = .error f' := by
  intro u u' hu
  have hout := h u u' hu
  revert hout
  show M.freshLike.Agrees A (m.run.run u) (m'.run.run u') → _
  rcases m.run.run u with ⟨f | a, u₁⟩ <;> rcases m'.run.run u' with ⟨f' | b, u₁'⟩
  · exact fun h => ⟨.inr ⟨f, f', rfl, rfl⟩, (h trivial).2⟩
  · exact fun h => absurd trivial h
  · exact False.elim
  · exact fun h => ⟨.inl ⟨a, b, rfl, rfl, h.1⟩, h.2⟩

end Mirror.InStep

namespace Pattern

variable {M : Mirror} {r r' : DataTypes}

theorem fieldTypes_inStep (hagree : r.Agrees M r') {c : String}
    (hc : r'.variant? c = r.variant? c) {t t' : Ty} (ht : M.ShowsTy t t') :
    M.InStep (fieldTypes r c t) (fieldTypes r' c t') (List.Forall₂ M.ShowsTy) := by
  unfold fieldTypes
  refine (Mirror.InStep.of_mirrors (DataTypes.instantiate_mirrors hagree hc)).bind ?_
  rintro x x' (⟨v, v', rfl, rfl, hv⟩ | ⟨f, f', rfl, rfl⟩)
  · have hfields := Mirror.forall₂_types hv.fields
    dsimp only
    obtain ⟨s, s', hs, hs', hshows⟩ | ⟨e, e', he, he', -⟩ := ht.unify hv.result
    · rw [hs, hs']
      refine .pure ?_
      rw [List.forall₂_map_left_iff, List.forall₂_map_right_iff]
      exact hfields.imp fun _ _ h => hshows.apply h
    · rw [he, he']
      exact .pure hfields
  · exact .pure .nil

/-- A query of the second run in the place of one of the first. -/
def ShowsQuery (M : Mirror) (q q' : Query) : Prop :=
  List.Forall₂ (fun c c' => c'.1 = c.1 ∧ M.ShowsTy c.2 c'.2) q q'

theorem ShowsQuery.of_cons {p : Pattern} {t : Ty} {rest q' : Query}
    (h : ShowsQuery M ((p, t) :: rest) q') :
    ∃ rest' t', q' = (p, t') :: rest' ∧ M.ShowsTy t t' ∧ ShowsQuery M rest rest' := by
  cases h with
  | @cons _ c' _ rest' hc hrest =>
      rcases c' with ⟨p', t'⟩
      obtain ⟨rfl, ht⟩ := hc
      exact ⟨rest', t', rfl, ht, hrest⟩

theorem headsList_fit_subset (n : Nat) (ps : List Pattern) : headsList (fit n ps) ⊆ headsList ps := by
  induction n generalizing ps with
  | zero => simp [fit, headsList]
  | succ n ih =>
      cases ps with
      | nil =>
          simp only [fit, headsList, heads, List.nil_append]
          exact ih []
      | cons p ps =>
          simp only [fit, headsList]
          exact List.append_subset.2 ⟨List.subset_append_left _ _,
            List.Subset.trans (ih ps) (List.subset_append_right _ _)⟩

theorem columns_shows {args : List Pattern} {fields fields' : List Ty}
    (h : List.Forall₂ M.ShowsTy fields fields') :
    ShowsQuery M (columns args fields) (columns args fields') := by
  unfold columns
  rw [← h.length_eq]
  generalize fields.length = n
  induction h generalizing n args with
  | nil => simp [ShowsQuery]
  | cons ht _ ih =>
      cases n with
      | zero => simp [fit, ShowsQuery]
      | succ n =>
          cases args with
          | nil => exact .cons ⟨rfl, ht⟩ (ih n)
          | cons p ps => exact .cons ⟨rfl, ht⟩ (ih n)

theorem map_fst_columns (args : List Pattern) (fields : List Ty) :
    (columns args fields).map (·.1) = fit fields.length args := by
  rw [columns, List.map_fst_zip]
  exact (length_fit _ _).le

theorem headsList_append (ps qs : List Pattern) : headsList (ps ++ qs) = headsList ps ++ headsList qs := by
  induction ps with
  | nil => rfl
  | cons p ps ih => rw [List.cons_append, headsList, headsList, ih, List.append_assoc]

theorem heads_columns_append {args : List Pattern} {fields : List Ty} {rest : Query}
    {P : String → Prop} (hargs : ∀ c ∈ headsList args, P c)
    (hrest : ∀ c ∈ headsList (rest.map (·.1)), P c) :
    ∀ c ∈ headsList ((columns args fields ++ rest).map (·.1)), P c := by
  intro c hc
  rw [List.map_append, headsList_append, map_fst_columns, List.mem_append] at hc
  rcases hc with hc | hc
  · exact hargs c (headsList_fit_subset _ _ hc)
  · exact hrest c hc

theorem useful_inStep (hagree : r.Agrees M r') (rows : List Row) {q q' : Query}
    (hq : ShowsQuery M q q')
    (hheads : ∀ c ∈ headsList (q.map (·.1)), r'.variant? c = r.variant? c) :
    M.InStep (useful r rows q) (useful r' rows q') Eq := by
  -- the fields of each constructor, for a column that takes every value
  have hwild : ∀ {rows : List Row} {t t' : Ty} {rest rest' : Query}, M.ShowsTy t t' →
      ShowsQuery M rest rest' →
      (∀ c fields q', ShowsQuery M (columns [] fields ++ rest) q' →
        M.InStep (useful r (specialize c fields.length rows) (columns [] fields ++ rest))
          (useful r' (specialize c fields.length rows) q') Eq) →
      M.InStep ((constructorsOf r t).anyM fun c => do
          let fields ← fieldTypes r c t
          useful r (specialize c fields.length rows) (columns [] fields ++ rest))
        ((constructorsOf r' t').anyM fun c => do
          let fields ← fieldTypes r' c t'
          useful r' (specialize c fields.length rows) (columns [] fields ++ rest')) Eq := by
    intro rows t t' rest rest' ht hrest hfields
    rw [(hagree.constructorsOf ht).1]
    refine .anyM fun c hc => ?_
    refine (fieldTypes_inStep hagree ((hagree.constructorsOf ht).2 c hc) ht).bind
      fun fields fields' h => ?_
    rw [← h.length_eq]
    exact hfields c fields _ (List.rel_append (columns_shows h) hrest)
  fun_induction useful r rows q generalizing q' with
  | case1 rows =>
      cases hq
      rw [useful]
      exact .pure rfl
  | case2 rows name args t rest ih =>
      obtain ⟨rest', t', rfl, ht, hrest⟩ := hq.of_cons
      rw [useful]
      obtain ⟨hname, hheads⟩ := List.forall_mem_cons.1 hheads
      obtain ⟨hargs, hheads⟩ := List.forall_mem_append.1 hheads
      refine (fieldTypes_inStep hagree hname ht).bind fun fields fields' hfields => ?_
      rw [← hfields.length_eq]
      exact ih fields (List.rel_append (columns_shows hfields) hrest)
        (heads_columns_append hargs hheads)
  | case3 rows literal t rest ih =>
      obtain ⟨rest', t', rfl, -, hrest⟩ := hq.of_cons
      rw [useful]
      exact ih hrest hheads
  | case4 rows t rest h ih =>
      obtain ⟨rest', t', rfl, ht, hrest⟩ := hq.of_cons
      rw [useful, dif_pos ((hagree.constructorsOf ht).1.symm ▸ h)]
      exact hwild ht hrest fun c fields q' hq' =>
        ih c fields hq' (heads_columns_append (by simp [headsList]) hheads)
  | case5 rows t rest h ih =>
      obtain ⟨rest', t', rfl, ht, hrest⟩ := hq.of_cons
      rw [useful, dif_neg ((hagree.constructorsOf ht).1.symm ▸ h)]
      exact ih hrest hheads
  | case6 rows name t rest h ih =>
      obtain ⟨rest', t', rfl, ht, hrest⟩ := hq.of_cons
      rw [useful, dif_pos ((hagree.constructorsOf ht).1.symm ▸ h)]
      exact hwild ht hrest fun c fields q' hq' =>
        ih c fields hq' (heads_columns_append (by simp [headsList]) hheads)
  | case7 rows name t rest h ih =>
      obtain ⟨rest', t', rfl, ht, hrest⟩ := hq.of_cons
      rw [useful, dif_neg ((hagree.constructorsOf ht).1.symm ▸ h)]
      exact ih hrest hheads

theorem missing_inStep (hagree : r.Agrees M r') (ps : List Pattern) {t t' : Ty}
    (ht : M.ShowsTy t t') : M.InStep (missing r ps t) (missing r' ps t') Eq := by
  obtain ⟨hconstructors, hvariants⟩ := hagree.constructorsOf ht
  unfold missing
  dsimp only
  rw [hconstructors]
  have hquery : ∀ p : Pattern, ShowsQuery M [(p, t)] [(p, t')] := fun p => .cons ⟨rfl, ht⟩ .nil
  cases hnames : constructorsOf r t with
  | nil =>
      refine (useful_inStep hagree _ (hquery _) (by simp [headsList, heads])).bind fun b b' hb => ?_
      cases hb
      exact .pure rfl
  | cons first rest =>
      refine .filterM fun c hc => ?_
      have hc := hvariants c (hnames ▸ hc)
      rw [hc]
      refine useful_inStep hagree _ (hquery _) fun c' hc' => ?_
      have hnone : ∀ n, headsList (fit n []) = [] := fun n =>
        List.subset_nil.1 (headsList_fit_subset n [])
      simp only [List.map_cons, List.map_nil, headsList, heads, hnone, List.append_nil,
        List.mem_singleton] at hc'
      rw [hc', hc]

end Pattern

end Formulary
