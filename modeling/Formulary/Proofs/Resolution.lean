import Formulary.Proofs.Scoping
import Formulary.Proofs.Wholeness

namespace Formulary

/-- A fault that tells of the source and not of the checker. -/
def Fault.IsOrdinary (f : Fault) : Prop := f.kind ≠ .internalError

/-- Steps that hand out variables. -/
def freshWatch : Watch Supply Fault := ⟨id, fun _ => True, Fault.IsOrdinary⟩

/-- Steps that hand out variables by name. -/
def namedWatch : Watch NamedVars Fault :=
  ⟨(·.supply), fun s => ∀ v ∈ s.vars, v.2 < s.supply.next, Fault.IsOrdinary⟩

/-- A variable smaller than a number. -/
def Before (id : Int) : Upward where
  holds n := id < n
  mono hle h := Int.lt_of_lt_of_le h hle

/-- What holds of the next number holds of the variable that is handed out. -/
theorem fresh_keeps {P : Upward} {F : Int → Prop} (hF : ∀ n, P n → F n) :
    Keeps freshWatch P (liftM Supply.fresh : Fresh Int) fun id => Before id ⊓ Known (F id) where
  grows s := s.le_advance
  keeps s hs _ hpre := by
    refine ⟨trivial, ?_, hF _ hpre⟩
    have hnext := Supply.Unwrapped.next_advance hs
    show s.next < s.advance.next
    omega

/-- Steps that do nothing to a supply but hand out variables. -/
def Supply.Grows {α : Type} (x : StateM Supply α) : Prop := ∀ s, s ≤ (x.run s).2

namespace Supply.Grows

variable {α β : Type}

theorem pure (a : α) : Grows (pure a) := fun _ => le_rfl

theorem bind {x : StateM Supply α} {f : α → StateM Supply β} (hx : Grows x)
    (hf : ∀ a, Grows (f a)) : Grows (x >>= f) := fun s =>
  (hx s).trans (hf _ _)

theorem anyM {f : α → StateM Supply Bool} {l : List α} (h : ∀ a ∈ l, Grows (f a)) :
    Grows (l.anyM f) := by
  induction l with
  | nil => exact Grows.pure false
  | cons a l ih =>
      refine (h a (List.mem_cons_self ..)).bind fun found => ?_
      cases found with
      | true => exact Grows.pure true
      | false => exact ih fun b hb => h b (List.mem_cons_of_mem _ hb)

theorem filterM {f : α → StateM Supply Bool} {l : List α} (h : ∀ a ∈ l, Grows (f a)) :
    Grows (l.filterM f) := by
  have haux : ∀ acc, Grows (l.filterAuxM f acc) := by
    induction l with
    | nil => exact fun acc => Grows.pure acc
    | cons a l ih =>
        intro acc
        refine (h a (List.mem_cons_self ..)).bind fun kept => ?_
        exact ih (fun b hb => h b (List.mem_cons_of_mem _ hb)) _
  exact (haux []).bind fun _ => Grows.pure _

theorem keeps {P : Upward} {x : StateM Supply α} (h : Grows x) :
    Keeps freshWatch P (liftM x : Fresh α) fun _ => ⊤ where
  grows := h
  keeps _ _ _ _ := ⟨trivial, trivial⟩

theorem of_keeps {m : Fresh α} {P : Upward} {A : α → Upward}
    (h : Keeps freshWatch P m A) : Grows m.run := h.grows

end Supply.Grows

theorem run_varFor (name : String) (s : NamedVars) : (NamedVars.varFor name).run s =
    match s.vars.lookup name with
    | some id => (id, s)
    | none => (s.supply.next, ⟨s.supply.advance, (name, s.supply.next) :: s.vars⟩) := by
  unfold NamedVars.varFor
  cases h : s.vars.lookup name with
  | some id =>
      simp [h]
      rfl
  | none =>
      simp [h]
      rfl

theorem varFor_keeps (name : String) {P : Upward} :
    Keeps namedWatch P (liftM (NamedVars.varFor name) : FreshNamed Int) Before where
  grows s := by
    rw [Attempt.outcome_liftState, run_varFor]
    cases h : s.vars.lookup name with
    | some id => exact le_rfl
    | none => exact s.supply.le_advance
  keeps s hs hsound _ := by
    rw [Attempt.outcome_liftState, run_varFor] at hs ⊢
    cases h : s.vars.lookup name with
    | some id =>
        obtain ⟨before, after, hvars, -⟩ := List.lookup_eq_some_iff.1 h
        exact ⟨hsound, hsound (name, id) (by simp [hvars])⟩
    | none =>
        simp only [h] at hs ⊢
        have hnext : s.supply.advance.next = s.supply.next + 1 := hs.next_advance
        refine ⟨List.forall_mem_cons.2 ⟨?_, fun v hv => ?_⟩, ?_⟩
        · show s.supply.next < s.supply.advance.next
          omega
        · have hlt := hsound v hv
          show v.2 < s.supply.advance.next
          omega
        · show s.supply.next < s.supply.advance.next
          omega

/-- What a scope binds is in scope. -/
def Scope.inScope (scope : Scope) : Upward where
  holds n := ∀ name t, (name, some t) ∈ scope → t.inScope n
  mono hle h name t hmem := (Ty.inScope t).mono hle (h name t hmem)

namespace DataTypes

variable {F : Int → Prop}

theorem within_of_lookupName? {r : DataTypes} {name : String} {t : Ty}
    (h : r.lookupName? name = some t) : t.Within F := by
  have hdata : ∀ dataName constructor : String, (Ty.data dataName constructor []).Within F :=
    fun _ _ => Ty.within_data.2 fun _ h => absurd h List.not_mem_nil
  unfold lookupName? at h
  split at h
  · cases h
    exact hdata _ _
  · split at h
    · cases h
      exact hdata _ _
    · obtain ⟨before, after, hnames, -⟩ := List.lookup_eq_some_iff.1 h
      have hmem : (name, t) ∈ builtinNames := by simp [hnames]
      simp only [builtinNames, List.mem_cons, Prod.mk.injEq, List.not_mem_nil, or_false] at hmem
      rcases hmem with ⟨-, rfl⟩ | ⟨-, rfl⟩ | ⟨-, rfl⟩ | ⟨-, rfl⟩ | ⟨-, rfl⟩ | ⟨-, rfl⟩
      · exact Ty.within_scalar
      · exact Ty.within_scalar
      · exact Ty.within_prim _
      · exact Ty.within_prim _
      · exact Ty.within_prim _
      · exact Ty.within_prim _

theorem applyName_ends {r : DataTypes} {name : String} {args : List Ty}
    (h : ∀ t ∈ args, t.Within F) :
    Ends (fun t => t.Within F) Fault.IsOrdinary (r.applyName name args) := by
  unfold applyName
  split
  · split
    · exact Ty.within_data.2 h
    · simp [Ends, Fault.IsOrdinary, Fault.kind]
  · split
    · split
      · exact Ty.within_data.2 h
      · simp [Ends, Fault.IsOrdinary, Fault.kind]
    · simp [Ends, Fault.IsOrdinary, Fault.kind, unknownType]

theorem freeParam_keeps (name : String) {P : Upward} :
    Keeps namedWatch P (freeParam name) Ty.inScope :=
  (varFor_keeps name).bind fun _ => Keeps.pure fun _ h => Ty.within_var h.2

mutual

theorem resolve_keeps (r : DataTypes) (scope : Scope) (free : Bool) (e : TypeExpr) :
    Keeps namedWatch (Known (e.isWhole = true) ⊓ scope.inScope) (r.resolve scope free e)
      Ty.inScope := by
  cases e with
  | blank => exact Keeps.throw fun _ h => absurd h.1 (by simp [Known, TypeExpr.isWhole])
  | named name =>
      rw [resolve]
      split
      · rename_i t hlookup
        obtain ⟨before, after, hscope, -⟩ := List.lookup_eq_some_iff.1 hlookup
        exact Keeps.pure fun _ h => h.2 name t (by simp [hscope])
      · split
        · exact freeParam_keeps name
        · exact Keeps.throw fun _ _ => by simp [namedWatch, Fault.IsOrdinary, Fault.kind]
      · split
        · rename_i t hlookup
          exact Keeps.pure fun n _ => within_of_lookupName? hlookup
        · split
          · exact freeParam_keeps name
          · exact Keeps.throw fun _ _ => by
              simp [namedWatch, Fault.IsOrdinary, Fault.kind, unknownType]
  | app name args =>
      rw [resolve]
      refine (resolveList_keeps r scope free args).followedBy (fun _ h => h) fun ts => ?_
      exact Keeps.ofExcept fun _ h => applyName_ends h.2
  | arrow domain codomain =>
      rw [resolve]
      have hwhole : ∀ n, (Known ((domain.arrow codomain).isWhole = true) ⊓ scope.inScope) n →
          domain.isWhole = true ∧ codomain.isWhole = true ∧ scope.inScope n := by
        rintro n ⟨h, hscope⟩
        have hboth : (domain.isWhole && codomain.isWhole) = true := h
        rw [Bool.and_eq_true] at hboth
        exact ⟨hboth.1, hboth.2, hscope⟩
      refine (resolve_keeps r scope free domain).followedBy
        (fun n h => ⟨(hwhole n h).1, (hwhole n h).2.2⟩) fun a => ?_
      refine (resolve_keeps r scope free codomain).followedBy
        (fun n h => ⟨(hwhole n h.1).2.1, (hwhole n h.1).2.2⟩) fun b => ?_
      exact Keeps.pure fun _ h => Ty.within_fn.2 ⟨h.1.2, h.2⟩
  | nat value => exact Keeps.pure fun _ _ => Ty.within_nat _
  | tag value => exact Keeps.pure fun _ _ => Ty.within_tag _

theorem resolveList_keeps (r : DataTypes) (scope : Scope) (free : Bool) (es : List TypeExpr) :
    Keeps namedWatch (Known (TypeExpr.isWholeList es = true) ⊓ scope.inScope)
      (r.resolveList scope free es) (Every Ty.inScope) := by
  cases es with
  | nil => exact Keeps.pure fun n _ => every_nil _ n
  | cons e es =>
      rw [resolveList]
      have hwhole : ∀ n, (Known (TypeExpr.isWholeList (e :: es) = true) ⊓ scope.inScope) n →
          e.isWhole = true ∧ TypeExpr.isWholeList es = true ∧ scope.inScope n := by
        rintro n ⟨h, hscope⟩
        have hboth : (e.isWhole && TypeExpr.isWholeList es) = true := h
        rw [Bool.and_eq_true] at hboth
        exact ⟨hboth.1, hboth.2, hscope⟩
      refine (resolve_keeps r scope free e).followedBy
        (fun n h => ⟨(hwhole n h).1, (hwhole n h).2.2⟩) fun t => ?_
      refine (resolveList_keeps r scope free es).followedBy
        (fun n h => ⟨(hwhole n h.1).2.1, (hwhole n h.1).2.2⟩) fun ts => ?_
      exact Keeps.pure fun _ h => every_cons.2 ⟨h.1.2, h.2⟩

end

mutual

theorem resolve_peeks (r : DataTypes) {scope : Scope} {e : TypeExpr}
    (he : e.isWhole = true) (hscope : ∀ b ∈ scope, ∀ t, b.2 = some t → t.Within F) :
    Attempt.Peeks (fun t => t.Within F) Fault.IsOrdinary (r.resolve scope false e) := by
  cases e with
  | blank => simp [TypeExpr.isWhole] at he
  | named name =>
      rw [resolve]
      split
      · rename_i t hlookup
        obtain ⟨before, after, hlist, -⟩ := List.lookup_eq_some_iff.1 hlookup
        exact fun s => ⟨rfl, hscope (name, some t) (by simp [hlist]) t rfl⟩
      · exact fun s => ⟨rfl, by simp [Ends, Fault.IsOrdinary, Fault.kind]⟩
      · split
        · rename_i t hlookup
          exact fun s => ⟨rfl, within_of_lookupName? hlookup⟩
        · exact fun s => ⟨rfl, by simp [Ends, Fault.IsOrdinary, Fault.kind, unknownType]⟩
  | app name args =>
      rw [resolve]
      rw [TypeExpr.isWhole] at he
      exact (resolveList_peeks r he hscope).bind fun ts hts s => ⟨rfl, applyName_ends hts⟩
  | arrow domain codomain =>
      rw [resolve]
      rw [TypeExpr.isWhole, Bool.and_eq_true] at he
      refine (resolve_peeks r he.1 hscope).bind fun a ha => ?_
      refine (resolve_peeks r he.2 hscope).bind fun b hb => ?_
      exact fun s => ⟨rfl, Ty.within_fn.2 ⟨ha, hb⟩⟩
  | nat value => exact fun s => ⟨rfl, Ty.within_nat _⟩
  | tag value => exact fun s => ⟨rfl, Ty.within_tag _⟩

theorem resolveList_peeks (r : DataTypes) {scope : Scope} {es : List TypeExpr}
    (hes : TypeExpr.isWholeList es = true) (hscope : ∀ b ∈ scope, ∀ t, b.2 = some t → t.Within F) :
    Attempt.Peeks (fun ts => ∀ t ∈ ts, t.Within F) Fault.IsOrdinary
      (r.resolveList scope false es) := by
  match es with
  | [] => exact fun s => ⟨rfl, fun _ h => absurd h List.not_mem_nil⟩
  | e :: es =>
      rw [resolveList]
      rw [TypeExpr.isWholeList, Bool.and_eq_true] at hes
      refine (resolve_peeks r hes.1 hscope).bind fun t ht => ?_
      refine (resolveList_peeks r hes.2 hscope).bind fun ts hts => ?_
      exact fun s => ⟨rfl, List.forall_mem_cons.2 ⟨ht, hts⟩⟩

end

theorem resolveClosed_ends (r : DataTypes) {scope : Scope} {e : TypeExpr}
    (he : e.isWhole = true) (hscope : ∀ b ∈ scope, ∀ t, b.2 = some t → t.Within F) :
    Ends (fun t => t.Within F) Fault.IsOrdinary (r.resolveClosed scope e) :=
  (resolve_peeks r he hscope _).2

end DataTypes

/-- Only the faults of steps are watched. -/
def faultWatch : Watch NamedVars Fault := ⟨fun _ => .startingAt 0, fun _ => True, Fault.IsOrdinary⟩

theorem freeParam_faults (name : String) {P : Upward} :
    Keeps faultWatch P (DataTypes.freeParam name) fun _ => ⊤ :=
  ⟨fun _ => le_rfl, fun _ _ _ _ => ⟨trivial, trivial⟩⟩

mutual

theorem DataTypes.resolve_faults (r : DataTypes) (scope : Scope) (free : Bool) (e : TypeExpr) :
    Keeps faultWatch (Known (e.isWhole = true)) (r.resolve scope free e) fun _ => ⊤ := by
  cases e with
  | blank => exact Keeps.throw fun _ h => absurd h (by simp [Known, TypeExpr.isWhole])
  | named name =>
      rw [resolve]
      split
      · exact Keeps.pure fun _ _ => trivial
      · refine Keeps.ite (freeParam_faults name) (Keeps.throw fun _ _ => ?_)
        simp [faultWatch, Fault.IsOrdinary, Fault.kind]
      · split
        · exact Keeps.pure fun _ _ => trivial
        · refine Keeps.ite (freeParam_faults name) (Keeps.throw fun _ _ => ?_)
          simp [faultWatch, Fault.IsOrdinary, Fault.kind, unknownType]
  | app name args =>
      rw [resolve]
      refine (resolveList_faults r scope free args).bind fun ts => Keeps.ofExcept fun _ _ => ?_
      unfold applyName
      split
      · split
        · trivial
        · simp [Ends, faultWatch, Fault.IsOrdinary, Fault.kind]
      · split
        · split
          · trivial
          · simp [Ends, faultWatch, Fault.IsOrdinary, Fault.kind]
        · simp [Ends, faultWatch, Fault.IsOrdinary, Fault.kind, unknownType]
  | arrow domain codomain =>
      rw [resolve]
      have hwhole : ∀ n, Known ((domain.arrow codomain).isWhole = true) n →
          domain.isWhole = true ∧ codomain.isWhole = true := fun n h =>
        Bool.and_eq_true_iff.1 h
      refine (resolve_faults r scope free domain).followedBy (fun n h => (hwhole n h).1)
        fun a => ?_
      refine (resolve_faults r scope free codomain).followedBy (fun n h => (hwhole n h.1).2)
        fun b => ?_
      exact Keeps.pure fun _ _ => trivial
  | nat value => exact Keeps.pure fun _ _ => trivial
  | tag value => exact Keeps.pure fun _ _ => trivial

theorem DataTypes.resolveList_faults (r : DataTypes) (scope : Scope) (free : Bool)
    (es : List TypeExpr) :
    Keeps faultWatch (Known (TypeExpr.isWholeList es = true)) (r.resolveList scope free es)
      fun _ => ⊤ := by
  cases es with
  | nil => exact Keeps.pure fun _ _ => trivial
  | cons e es =>
      rw [resolveList]
      have hwhole : ∀ n, Known (TypeExpr.isWholeList (e :: es) = true) n →
          e.isWhole = true ∧ TypeExpr.isWholeList es = true := fun n h =>
        Bool.and_eq_true_iff.1 h
      refine (resolve_faults r scope free e).followedBy (fun n h => (hwhole n h).1) fun t => ?_
      refine (resolveList_faults r scope free es).followedBy (fun n h => (hwhole n h.1).2)
        fun ts => ?_
      exact Keeps.pure fun _ _ => trivial

end

theorem named_keeps {α : Type} {P : Upward} {A : α → Upward} {steps : FreshNamed α}
    (h : Keeps namedWatch P steps A) : Keeps freshWatch P (Fresh.named steps) A where
  grows s := h.grows ⟨s, []⟩
  keeps s hs _ hpre := by
    obtain ⟨-, hout⟩ := h.keeps ⟨s, []⟩ hs (fun _ hv => absurd hv List.not_mem_nil) hpre
    exact ⟨trivial, hout⟩

/-- The types of a variant are monotypes whose variables have a property. -/
def VariantInstance.Within (F : Int → Prop) (v : VariantInstance) : Prop :=
  v.result.Within F ∧ ∀ f ∈ v.fields, f.type.Within F

def VariantInstance.inScope (v : VariantInstance) : Upward where
  holds n := v.Within (· < n)
  mono hle h :=
    ⟨(Ty.inScope _).mono hle h.1, fun f hf => (Ty.inScope _).mono hle (h.2 f hf)⟩

namespace DataTypes

variable {F : Int → Prop} {P : Upward}

theorem metaField_keeps (r : DataTypes) (f : Field) (hF : ∀ n, P n → F n) :
    Keeps freshWatch (Known (f.type.isWhole = true) ⊓ P) (r.metaField f)
      fun i => i.type.inScope ⊓ Known (i.type.Within F) := by
  unfold metaField
  have hdeclared : Keeps freshWatch (Known (f.type.isWhole = true) ⊓ P)
      (liftM (r.resolveClosed [] f.type) : Fresh Ty) fun t => Known (∀ G, t.Within G) := by
    refine Keeps.ofExcept fun n h => ?_
    have hends : ∀ G, Ends (fun t => t.Within G) Fault.IsOrdinary (r.resolveClosed [] f.type) :=
      fun G => r.resolveClosed_ends h.1 fun _ hb => absurd hb List.not_mem_nil
    cases hresult : r.resolveClosed [] f.type with
    | ok t => exact fun G => by simpa [hresult, Ends] using hends G
    | error e =>
        have hordinary := hends fun _ => True
        rw [hresult] at hordinary
        exact hordinary
  refine hdeclared.bind fun declared => ?_
  refine Keeps.ite ?_ ?_
  · exact Keeps.pure fun n h => ⟨h.2 _, h.2 _⟩
  · refine (fresh_keeps hF).followedBy (fun _ h => h.1.2) fun id => ?_
    exact Keeps.pure fun n h => ⟨Ty.within_var h.2.1, Ty.within_var h.2.2⟩

/-- Every field of a variant is written out. -/
def HasWholeFields (r : DataTypes) (name : String) : Prop :=
  ∀ d v, r.variant? name = some (d, v) → ∀ f ∈ v.fields, f.type.isWhole = true

theorem instantiate_keeps_of_hasWholeFields (r : DataTypes) (name : String) (hF : ∀ n, P n → F n) :
    Keeps freshWatch (Known (r.HasWholeFields name) ⊓ P) (r.instantiate name)
      fun v => v.inScope ⊓ Known (v.Within F) := by
  unfold instantiate
  split
  · exact Keeps.throw fun _ _ => by simp [freshWatch, Fault.IsOrdinary, Fault.kind]
  · rename_i d v hvariant
    have hwhole : ∀ n, (Known (r.HasWholeFields name) ⊓ P) n → ∀ f ∈ v.fields, f.type.isWhole = true :=
      fun n h => h.1 d v hvariant
    split
    · have hfields : Keeps freshWatch (Known (r.HasWholeFields name) ⊓ P) (v.fields.mapM r.metaField)
          (Every fun i => i.type.inScope ⊓ Known (i.type.Within F)) :=
        Keeps.mapM fun f hf => (r.metaField_keeps f hF).of_pre fun n h => ⟨hwhole n h f hf, h.2⟩
      refine hfields.bind fun fields => ?_
      refine Keeps.pure fun n h => ⟨⟨?_, fun i hi => (h.2 i hi).1⟩, ?_, fun i hi => (h.2 i hi).2⟩
      · refine Ty.within_data.2 fun t ht => ?_
        obtain ⟨i, hi, rfl⟩ := List.mem_map.1 ht
        exact (h.2 i hi).1
      · refine Ty.within_data.2 fun t ht => ?_
        obtain ⟨i, hi, rfl⟩ := List.mem_map.1 ht
        exact (h.2 i hi).2
    · have hparams : Keeps freshWatch (Known (r.HasWholeFields name) ⊓ P)
          (d.params.mapM fun p => do
            return (p, Ty.var (← (liftM Supply.fresh : Fresh Int))))
          (Every fun b => b.2.inScope ⊓ Known (b.2.Within F)) := by
        refine Keeps.mapM fun p _ => (fresh_keeps hF).followedBy (fun _ h => h.2) fun id => ?_
        exact Keeps.pure fun n h => ⟨Ty.within_var h.2.1, Ty.within_var h.2.2⟩
      refine hparams.bind fun params => ?_
      have hscope : ∀ (G : Int → Prop), (∀ b ∈ params, b.2.Within G) →
          ∀ b ∈ params.map (fun b => (b.1, some b.2)), ∀ t, b.2 = some t → t.Within G := by
        rintro G h b hb t ht
        obtain ⟨⟨p, u⟩, hp, rfl⟩ := List.mem_map.1 hb
        cases ht
        exact h _ hp
      have hfields : Keeps freshWatch (Known (r.HasWholeFields name) ⊓ P ⊓
            Every (fun b => b.2.inScope ⊓ Known (b.2.Within F)) params)
          (v.fields.mapM fun f => do
            let t ← (liftM (r.resolveClosed (params.map fun b => (b.1, some b.2)) f.type) :
              Fresh Ty)
            return (⟨f.label, t, t.paramKind⟩ : FieldInstance))
          (Every fun i => i.type.inScope ⊓ Known (i.type.Within F)) := by
        refine Keeps.mapM fun f hf => ?_
        refine Keeps.bind (A := fun t => t.inScope ⊓ Known (t.Within F))
          (Keeps.ofExcept fun n h => ?_) fun t => Keeps.pure fun n h => h.2
        have hf := hwhole n h.1 f hf
        have hlt := r.resolveClosed_ends hf (hscope (· < n) fun b hb => (h.2 b hb).1)
        have hwithin := r.resolveClosed_ends hf (hscope F fun b hb => (h.2 b hb).2)
        revert hlt hwithin
        cases r.resolveClosed (params.map fun b => (b.1, some b.2)) f.type with
        | ok t => exact fun hlt hwithin => ⟨hlt, hwithin⟩
        | error e => exact fun hlt _ => hlt
      refine hfields.bind fun fields => ?_
      refine Keeps.pure fun n h => ⟨⟨?_, fun i hi => (h.2 i hi).1⟩, ?_, fun i hi => (h.2 i hi).2⟩
      · refine Ty.within_data.2 fun t ht => ?_
        obtain ⟨b, hb, rfl⟩ := List.mem_map.1 ht
        exact (h.1.2 b hb).1
      · refine Ty.within_data.2 fun t ht => ?_
        obtain ⟨b, hb, rfl⟩ := List.mem_map.1 ht
        exact (h.1.2 b hb).2

theorem instantiate_keeps (r : DataTypes) (name : String) (hF : ∀ n, P n → F n) :
    Keeps freshWatch (Known (r.isWhole = true) ⊓ P) (r.instantiate name)
      fun v => v.inScope ⊓ Known (v.Within F) :=
  (r.instantiate_keeps_of_hasWholeFields name hF).of_pre fun _ h =>
    ⟨fun _ _ hvariant => isWhole_of_variant? h.1 hvariant, h.2⟩

section

variable {r : DataTypes}

mutual

theorem isWhole_of_resolve {scope : Scope} {free : Bool} {e : TypeExpr} {t : Ty} {s s' : NamedVars}
    (h : Attempt.Returns (r.resolve scope free e) s t s') : e.isWhole = true := by
  cases e with
  | blank => cases h
  | named | nat | tag => rfl
  | app name args =>
      rw [resolve] at h
      obtain ⟨ts, s₁, hargs, -⟩ := Attempt.returns_bind_iff.1 h
      exact isWholeList_of_resolveList hargs
  | arrow domain codomain =>
      rw [resolve] at h
      obtain ⟨a, s₁, ha, h⟩ := Attempt.returns_bind_iff.1 h
      obtain ⟨b, s₂, hb, -⟩ := Attempt.returns_bind_iff.1 h
      simp [TypeExpr.isWhole, isWhole_of_resolve ha, isWhole_of_resolve hb]

theorem isWholeList_of_resolveList {scope : Scope} {free : Bool} {es : List TypeExpr} {ts : List Ty}
    {s s' : NamedVars} (h : Attempt.Returns (r.resolveList scope free es) s ts s') :
    TypeExpr.isWholeList es = true := by
  match es with
  | [] => rfl
  | e :: es =>
      rw [resolveList] at h
      obtain ⟨t, s₁, ht, h⟩ := Attempt.returns_bind_iff.1 h
      obtain ⟨us, s₂, hus, -⟩ := Attempt.returns_bind_iff.1 h
      simp [TypeExpr.isWholeList, isWhole_of_resolve ht, isWholeList_of_resolveList hus]

end

theorem isWhole_of_resolveClosed {scope : Scope} {e : TypeExpr} {t : Ty}
    (h : r.resolveClosed scope e = .ok t) : e.isWhole = true := by
  have hrun : Attempt.Returns (r.resolve scope false e) ⟨.startingAt 0, []⟩ t _ := Prod.ext h rfl
  exact isWhole_of_resolve hrun

theorem hasWholeFields_of_returns {name : String} {u u' : Supply} {v : VariantInstance}
    (h : Attempt.Returns (r.instantiate name) u v u') : r.HasWholeFields name := by
  intro d variant hvariant f hf
  unfold instantiate at h
  rw [hvariant] at h
  dsimp only at h
  split at h
  · obtain ⟨fields, u₁, hfields, -⟩ := Attempt.returns_bind_iff.1 h
    obtain ⟨i, u₂, u₃, hfield⟩ := exists_of_forall₂_left (Attempt.returns_mapM hfields) hf
    obtain ⟨t, u₄, hdeclared, -⟩ := Attempt.returns_bind_iff.1 hfield
    rw [Attempt.Returns, Attempt.outcome_liftExcept, Prod.mk.injEq] at hdeclared
    exact isWhole_of_resolveClosed hdeclared.1
  · obtain ⟨params, u₁, -, h⟩ := Attempt.returns_bind_iff.1 h
    obtain ⟨fields, u₂, hfields, -⟩ := Attempt.returns_bind_iff.1 h
    obtain ⟨i, u₃, u₄, hfield⟩ := exists_of_forall₂_left (Attempt.returns_mapM hfields) hf
    obtain ⟨t, u₅, hdeclared, -⟩ := Attempt.returns_bind_iff.1 hfield
    rw [Attempt.Returns, Attempt.outcome_liftExcept, Prod.mk.injEq] at hdeclared
    exact isWhole_of_resolveClosed hdeclared.1

theorem le_of_returns_instantiate {name : String} {u u' : Supply} {v : VariantInstance}
    (h : Attempt.Returns (r.instantiate name) u v u') : u ≤ u' := by
  have hgrows := (r.instantiate_keeps (P := ⊤) (F := fun _ => True) name fun _ _ => trivial).grows u
  rwa [h] at hgrows

theorem within_of_returns_instantiate {name : String} {u u' : Supply} {v : VariantInstance}
    (h : Attempt.Returns (r.instantiate name) u v u') (hu : u'.Unwrapped) :
    v.Within fun x => u.next ≤ x ∧ x < u'.next := by
  have hkeeps := (r.instantiate_keeps_of_hasWholeFields (F := fun x => u.next ≤ x)
    (P := ⟨fun n => u.next ≤ n, fun hle hn => Int.le_trans hn hle⟩) name fun _ hn => hn).keeps u
    (h ▸ hu) trivial ⟨hasWholeFields_of_returns h, Int.le_refl _⟩
  rw [h] at hkeeps
  obtain ⟨-, hbelow, hfrom⟩ := hkeeps
  exact ⟨hfrom.1.and hbelow.1, fun f hf => (hfrom.2 f hf).and (hbelow.2 f hf)⟩

end

end DataTypes

theorem instantiate_keeps (t : Ty) :
    Keeps freshWatch t.schemeBelow (liftM t.instantiate : Fresh Ty) Ty.inScope where
  grows u := t.le_instantiate u
  keeps u hu _ hpre := by
    obtain ⟨ρ, hρ, hresult⟩ := t.instantiate_freshens u hu
    refine ⟨trivial, ?_⟩
    show (t.instantiate.run u).1.Within (· < (t.instantiate.run u).2.next)
    rw [hresult]
    refine Ty.within_bind hpre.1 fun x hx => ?_
    by_cases hids : x ∈ t.unquantify.1
    · obtain ⟨y, hy, -, hlt⟩ := hρ.fresh x hids
      exact hy ▸ Ty.within_var hlt
    · have hlt : x < u.next := hpre.2 x (Ty.mem_freeOccurrences_iff_unquantify.2 ⟨hx, hids⟩)
      exact hρ.other x hids ▸ Ty.within_var (Int.lt_of_lt_of_le hlt (hu.next_le_next (t.le_instantiate u)))

namespace Pattern

/-- What is known about a pattern speaks of variables with a property, and its substitution is
settled. -/
structure Typing.Sound (F : Int → Prop) (t : Typing) : Prop where
  settled : t.subst.Settled
  subst : t.subst.Within F
  bindings : ∀ name u, t.bindings.get? name = some u → u.Within F

def Typing.inScope (t : Typing) : Upward where
  holds n := t.Sound (· < n)
  mono hle h :=
    { h with
      subst := (Subst.inScope _).mono hle h.subst
      bindings := fun name u hu => (Ty.inScope u).mono hle (h.bindings name u hu) }

theorem Typing.start_sound (F : Int → Prop) : Typing.start.Sound F where
  settled := Subst.settled_empty
  subst := Subst.within_empty
  bindings _ _ h := by simp [start] at h

theorem Typing.require_ends {F : Int → Prop} {t : Typing} {expected actual : Ty}
    (ht : t.Sound F) (he : expected.Within F)
    (ha : actual.Within fun x => F x ∧ t.subst.get? x = none) :
    Ends (·.Sound F) Fault.IsOrdinary (t.require expected actual) := by
  have hexpected := (Subst.within_apply ht.subst he).and
    (ht.settled.apply_within ht.subst.monoRange he.1)
  have hvars : ∀ x ∈ Ty.pairVars (t.subst.apply expected) actual,
      F x ∧ t.subst.image x = .var x := by
    intro x hx
    rcases List.mem_append.1 hx with hx | hx
    · exact hexpected.2 x hx
    · exact ⟨(ha.2 x hx).1, Subst.image_of_get?_eq_none (ha.2 x hx).2⟩
  unfold require
  split
  · rename_i next hunify
    have hgeneral := Ty.unify_mostGeneral hexpected.1 ha.1 hunify
    exact
      { settled := Subst.settled_compose ht.settled hgeneral.settled
          (hgeneral.within fun x hx => (hvars x hx).2)
        subst := Subst.within_compose ht.subst (hgeneral.within fun x hx => (hvars x hx).1)
        bindings := ht.bindings }
  · rename_i e hunify
    have hne := Ty.ne_quantified_of_unify hexpected.1 ha.1 hunify
    cases e with
    | quantified => exact absurd rfl hne
    | _ => simp [Ends, Fault.IsOrdinary, Fault.kind, UnifyError.kind]

variable {F : Int → Prop} {P : Upward}

/-- What checking a pattern starts from and ends with. -/
def Typing.ready (F : Int → Prop) (t : Typing) : Upward := t.inScope ⊓ Known (t.Sound F)

/-- A type that a pattern is checked against. -/
def expecting (F : Int → Prop) (expected : Ty) : Upward :=
  expected.inScope ⊓ Known (expected.Within F)

theorem require_keeps (t : Typing) (expected actual : Ty) :
    Keeps freshWatch (t.ready F ⊓ expecting F expected ⊓
        expecting (fun x => F x ∧ t.subst.get? x = none) actual)
      (liftM (t.require expected actual) : Fresh Typing) (Typing.ready F) := by
  refine Keeps.ofExcept fun n h => ?_
  obtain ⟨⟨⟨hscope, hsound⟩, he, heF⟩, ha, haF⟩ := h
  have hlt := Typing.require_ends hscope he (Ty.Within.and ha (haF.imp fun _ hx => hx.2))
  have hF := Typing.require_ends hsound heF haF
  revert hlt hF
  cases t.require expected actual with
  | ok t' => exact fun hlt hF => ⟨hlt, hF⟩
  | error e => exact fun hlt _ => hlt

mutual

theorem checkAfter_keeps (r : DataTypes) (hF : ∀ n, P n → F n) (t : Typing) (p : Pattern)
    (expected : Ty) :
    Keeps freshWatch (Known (r.isWhole = true) ⊓ P ⊓ t.ready F ⊓ expecting F expected)
      (checkAfter r t p expected) (Typing.ready F) := by
  cases p with
  | wildcard => exact Keeps.pure fun _ h => h.1.2
  | var name =>
      rw [checkAfter]
      refine Keeps.ite (Keeps.throw fun _ _ => ?_) (Keeps.pure fun n h => ?_)
      · simp [freshWatch, Fault.IsOrdinary, Fault.kind]
      · have hbound : ∀ {G : Int → Prop}, t.Sound G → expected.Within G →
            Typing.Sound G { t with bindings := t.bindings.insert name expected } := by
          intro G ht he
          refine { ht with bindings := fun other u hu => ?_ }
          rw [SortedMap.get?_insert] at hu
          split at hu
          · cases hu
            exact he
          · exact ht.bindings other u hu
        exact ⟨hbound h.1.2.1 h.2.1, hbound h.1.2.2 h.2.2⟩
  | const value =>
      rw [checkAfter]
      exact (require_keeps t expected .scalar).of_pre fun n h =>
        ⟨⟨h.1.2, h.2⟩, Ty.within_scalar, Ty.within_scalar⟩
  | constructor name args =>
      rw [checkAfter]
      -- the variables of the variant are new to all that is known
      have hnew : ∀ n, (P ⊓ t.inScope) n → F n ∧ t.subst.get? n = none := by
        rintro n ⟨hP, ht⟩
        refine ⟨hF n hP, Option.eq_none_iff_forall_ne_some.2 fun u hu => ?_⟩
        exact Int.lt_irrefl n (ht.subst n u hu).1
      refine (r.instantiate_keeps name hnew).followedBy
        (fun n h => ⟨h.1.1.1, h.1.1.2, h.1.2.1⟩) fun v => ?_
      refine Keeps.ite (Keeps.throw fun _ _ => ?_) ?_
      · simp [freshWatch, Fault.IsOrdinary, Fault.kind]
      · refine (require_keeps t expected v.result).followedBy
          (fun n h => ⟨⟨h.1.1.2, h.1.2⟩, h.2.1.1, h.2.2.1⟩) fun t' => ?_
        refine (checkListAfter_keeps r hF t' args (v.fields.map (·.type))).of_pre fun n h => ?_
        refine ⟨⟨h.1.1.1.1, h.2⟩, fun u hu => ?_⟩
        obtain ⟨f, hf, rfl⟩ := List.mem_map.1 hu
        exact ⟨h.1.2.1.2 f hf, (h.1.2.2.2 f hf).imp fun _ hx => hx.1⟩

theorem checkListAfter_keeps (r : DataTypes) (hF : ∀ n, P n → F n) (t : Typing)
    (ps : List Pattern) (fields : List Ty) :
    Keeps freshWatch (Known (r.isWhole = true) ⊓ P ⊓ t.ready F ⊓ Every (expecting F) fields)
      (checkListAfter r t ps fields) (Typing.ready F) := by
  match ps, fields with
  | [], _ =>
      rw [checkListAfter]
      · exact Keeps.pure fun _ h => h.1.2
      · simp
  | p :: ps, [] =>
      rw [checkListAfter]
      · exact Keeps.pure fun _ h => h.1.2
      · simp
  | p :: ps, field :: fields =>
      rw [checkListAfter]
      refine (checkAfter_keeps r hF t p (t.subst.apply field)).followedBy (fun n h => ?_)
        fun t' => ?_
      · obtain ⟨hscope, hwithin⟩ := (every_cons.1 h.2).1
        exact ⟨h.1, Subst.within_apply h.1.2.1.subst hscope,
          Subst.within_apply h.1.2.2.subst hwithin⟩
      · exact (checkListAfter_keeps r hF t' ps fields).of_pre fun n h =>
          ⟨⟨h.1.1.1, h.2⟩, (every_cons.1 h.1.2).2⟩

end

theorem check_keeps (r : DataTypes) (hF : ∀ n, P n → F n) (p : Pattern) (expected : Ty) :
    Keeps freshWatch (Known (r.isWhole = true) ⊓ P ⊓ expecting F expected) (p.check r expected)
      (Typing.ready F) := by
  refine (checkAfter_keeps r hF .start p expected).followedBy (fun n h =>
    ⟨⟨h.1, Typing.start_sound _, Typing.start_sound _⟩, h.2⟩) fun t => Keeps.pure fun n h => ?_
  have hbound : ∀ {G : Int → Prop}, t.Sound G →
      Typing.Sound G { t with bindings := t.bindings.mapValues t.subst.apply } := by
    intro G ht
    refine { ht with bindings := fun name u hu => ?_ }
    rw [SortedMap.get?_mapValues, Option.map_eq_some_iff] at hu
    obtain ⟨u', hu', rfl⟩ := hu
    exact Subst.within_apply ht.subst (ht.bindings name u' hu')
  exact ⟨hbound h.2.1, hbound h.2.2⟩

theorem fieldTypes_grows (r : DataTypes) (constructor : String) (t : Ty) :
    Supply.Grows (fieldTypes r constructor t) := by
  refine (Supply.Grows.of_keeps (r.instantiate_keeps (P := ⊤) constructor
    fun _ _ => trivial)).bind fun v => ?_
  cases v with
  | error e => exact .pure _
  | ok v =>
      dsimp only
      split
      · exact .pure _
      · exact .pure _

theorem useful_grows (r : DataTypes) (rows : List Row) (q : Query) :
    Supply.Grows (useful r rows q) := by
  fun_induction useful r rows q with
  | case1 rows => exact .pure _
  | case2 rows name args t rest ih => exact (fieldTypes_grows r name t).bind ih
  | case3 rows literal t rest ih => exact ih
  | case4 rows t rest h ih =>
      exact .anyM fun name _ => (fieldTypes_grows r name t).bind (ih name)
  | case5 rows t rest h ih => exact ih
  | case6 rows name t rest h ih =>
      exact .anyM fun name _ => (fieldTypes_grows r name t).bind (ih name)
  | case7 rows name t rest h ih => exact ih

theorem missing_grows (r : DataTypes) (ps : List Pattern) (t : Ty) :
    Supply.Grows (missing r ps t) := by
  unfold missing
  dsimp only
  split
  · exact (useful_grows _ _ _).bind fun _ => .pure _
  · exact .filterM fun _ _ => useful_grows _ _ _

end Pattern

namespace Registry

theorem accepts_grows (r : Registry) (i : RegisteredImplementation) (params : List TypeExpr)
    (args : List Ty) : Supply.Grows (r.accepts i params args) := by
  unfold accepts
  refine (Supply.Grows.of_keeps (P := ⊥) (A := fun _ => ⊤) ?_).bind fun result => ?_
  · refine (named_keeps (r.data.resolveList_keeps [] true i.decl.args)).followedBy
      (fun _ h => h.elim) fun types => ?_
    refine (named_keeps (r.data.resolveList_keeps _ true params)).followedBy
      (fun _ h => h.1.elim) fun expected => ?_
    exact Keeps.pure fun _ _ => trivial
  · cases result with
    | ok accepted => exact .pure _
    | error e => exact .pure _

theorem acceptsSome_grows (r : Registry) (params : List TypeExpr) (args : List Ty)
    (is : List RegisteredImplementation) : Supply.Grows (r.acceptsSome params args is) := by
  induction is with
  | nil => exact .pure _
  | cons i is ih =>
      refine (r.accepts_grows i params args).bind fun accepted => ?_
      cases accepted with
      | true => exact .pure _
      | false => exact ih

theorem validate_keeps (r : Registry) (structureName operation : String) (args : List Ty)
    {P : Upward} :
    Keeps freshWatch P (r.validate structureName operation args) fun _ => ⊤ := by
  unfold validate
  split
  · split
    · refine Keeps.ite (Keeps.throw fun _ _ => ?_) ?_
      · simp [freshWatch, Fault.IsOrdinary, Fault.kind]
      · refine (Supply.Grows.keeps (r.acceptsSome_grows _ args _)).bind fun accepted => ?_
        refine Keeps.ite (Keeps.pure fun _ _ => trivial) (Keeps.throw fun _ _ => ?_)
        simp [freshWatch, Fault.IsOrdinary, Fault.kind]
    · exact Keeps.throw fun _ _ => by simp [freshWatch, Fault.IsOrdinary, Fault.kind]
  · exact Keeps.throw fun _ _ => by simp [freshWatch, Fault.IsOrdinary, Fault.kind]

end Registry

end Formulary
