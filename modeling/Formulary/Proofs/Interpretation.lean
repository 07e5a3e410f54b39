import Formulary.Proofs.Calling
import Formulary.Proofs.Denotation
import Formulary.Proofs.Forming
import Formulary.Proofs.Signatures
import Formulary.Proofs.Symmetry

/-!
Interpreting the call of an operation and unification. The walk through a signature binds parameters,
compares what is known and leaves the rest as constraints; taken together this is the one problem of
making the parameter types equal to the types of the arguments, with a variable for each parameter.
-/

namespace Formulary

namespace Ty

mutual

theorem eq_of_bind_eq_bind {f g : Int → Ty} {t : Ty} (ht : t.isMono = true)
    (h : t.bind f = t.bind g) : ∀ x ∈ t.freeOccurrences, f x = g x := by
  cases t with
  | blank | prim | nat | tag => exact fun _ hx => absurd hx List.not_mem_nil
  | var id =>
      intro x hx
      obtain rfl := List.mem_singleton.1 hx
      exact h
  | data name constructor args =>
      simp only [bind, data.injEq, true_and] at h
      exact eq_of_bindList_eq_bindList ht h
  | fn a b =>
      simp only [bind, fn.injEq] at h
      obtain ⟨ha, hb⟩ := Bool.and_eq_true_iff.1 ht
      intro x hx
      rcases List.mem_append.1 hx with hx | hx
      · exact eq_of_bind_eq_bind ha h.1 x hx
      · exact eq_of_bind_eq_bind hb h.2 x hx
  | poly id body => cases ht

theorem eq_of_bindList_eq_bindList {f g : Int → Ty} {ts : List Ty} (hts : isMonoList ts = true)
    (h : bindList f ts = bindList g ts) : ∀ x ∈ freeOccurrencesList ts, f x = g x := by
  match ts with
  | [] => exact fun _ hx => absurd hx List.not_mem_nil
  | t :: ts =>
      simp only [bindList, List.cons.injEq] at h
      obtain ⟨ht, hts⟩ := Bool.and_eq_true_iff.1 hts
      intro x hx
      rcases List.mem_append.1 hx with hx | hx
      · exact eq_of_bind_eq_bind ht h.1 x hx
      · exact eq_of_bindList_eq_bindList hts h.2 x hx

end

theorem exists_rename_of_instances {t u : Ty} {f g : Int → Ty} (ht : t.isMono = true)
    (hu : t.bind f = u) (hback : u.bind g = t) : ∃ ρ : Equiv.Perm Int, u = t.rename ρ := by
  have hthere : ∀ x ∈ t.freeOccurrences, (f x).bind g = .var x := by
    refine eq_of_bind_eq_bind (f := fun x => (f x).bind g) ht ?_
    rw [← bind_bind f g ht, hu, hback, bind_var]
  have hexists : ∀ x, ∃ y, x ∈ t.freeOccurrences → f x = .var y ∧ g y = .var x := by
    intro x
    by_cases hx : x ∈ t.freeOccurrences
    · obtain ⟨y, hy⟩ := eq_var_of_bind_eq_var (hthere x hx)
      exact ⟨y, fun _ => hy⟩
    · exact ⟨x, fun h => absurd h hx⟩
  choose p hp using hexists
  obtain ⟨ρ, hρ, -⟩ := exists_perm_extending
    (V := (t.freeOccurrences ++ u.freeOccurrences).toFinset)
    (p := fun x => x ∈ t.freeOccurrences) (f := p)
    (by
      intro x _ hx
      rw [List.mem_toFinset, List.mem_append, ← hu]
      refine .inr (mem_freeOccurrences_bind_of ht hx ?_)
      rw [(hp x hx).1]
      exact List.mem_singleton_self _)
    (by
      intro x _ hx y _ hy heq
      have hsame : Ty.var x = Ty.var y := by rw [← (hp x hx).2, heq, (hp y hy).2]
      exact Ty.var.inj hsame)
  refine ⟨ρ, ?_⟩
  calc u = t.bind f := hu.symm
    _ = t.bind fun x => (var x).rename ρ := bind_congr fun x hx => by
      rw [(hp x hx).1, rename, hρ x (List.mem_toFinset.2 (List.mem_append_left _ hx)) hx]
    _ = (t.bind var).rename ρ := (rename_bind_of_isOver ρ var (isOver_of_isMono ht)).symm
    _ = t.rename ρ := by rw [bind_var]

end Ty

theorem Keeps.of_allowed {σ ε α : Type} {w w' : Watch σ ε} {P : Upward} {m : Attempt σ ε α}
    {A : α → Upward} (h : Keeps w P m A) (hsupply : w'.supply = w.supply)
    (hsound : w'.sound = w.sound) (hallowed : ∀ e, w.allowed e → w'.allowed e) : Keeps w' P m A where
  grows s := by
    rw [hsupply]
    exact h.grows s
  keeps s hs hs₀ hpre := by
    rw [hsupply] at hs hpre ⊢
    rw [hsound] at hs₀ ⊢
    obtain ⟨hsound', hout⟩ := h.keeps s hs hs₀ hpre
    refine ⟨hsound', ?_⟩
    cases hr : (m.outcome s).1 with
    | ok a => simpa [hr, Ends] using hout
    | error e => exact hallowed e (by simpa [hr, Ends] using hout)

theorem DataTypes.resolveClosed_named (r : DataTypes) (name : String) :
    r.resolveClosed [] (.named name) =
      match r.lookupName? name with
      | some t => .ok t
      | none => .error (r.unknownType name) := by
  unfold resolveClosed
  rw [resolve]
  cases h : r.lookupName? name with
  | some t => rfl
  | none => rfl

namespace DataTypes

/-- No data type has the name of a variant of the type of types. -/
def NoClash (r : DataTypes) : Prop := ∀ name, (r.find? name).isSome → r.metaVariant? name = none

variable {r : DataTypes}

theorem noClash_iff : r.NoClash ↔ ∀ d ∈ r.types, r.metaVariant? d.name = none := by
  constructor
  · exact fun h d hd => h d.name (List.find?_isSome.2 ⟨d, hd, decide_eq_true rfl⟩)
  · intro h name hname
    obtain ⟨d, hd, hname⟩ := List.find?_isSome.1 hname
    exact of_decide_eq_true hname ▸ h d hd

theorem data_of_applyName {name : String} {ts : List Ty} {t : Ty} (h : r.applyName name ts = .ok t) :
    ∃ dataName constructor, t = .data dataName constructor ts ∧
      Signature.Call.sameConstructor name dataName constructor = true := by
  unfold applyName at h
  split at h
  · split at h
    · cases h
      exact ⟨_, _, rfl, by simp [Signature.Call.sameConstructor]⟩
    · cases h
  · split at h
    · split at h
      · cases h
        exact ⟨_, _, rfl, by simp [Signature.Call.sameConstructor]⟩
      · cases h
    · cases h

theorem args_of_applyName {name dataName constructor : String} {ts args : List Ty}
    (h : r.applyName name ts = .ok (.data dataName constructor args)) : ts = args := by
  obtain ⟨_, _, heq, -⟩ := data_of_applyName h
  cases heq
  rfl

theorem applyName_of_sameConstructor (hclash : r.NoClash) {name dataName constructor : String}
    {args : List Ty} (hformed : r.Declares ⟨dataName, constructor, args.length⟩)
    (hsame : Signature.Call.sameConstructor name dataName constructor = true) :
    r.applyName name args = .ok (.data dataName constructor args) := by
  unfold Signature.Call.sameConstructor at hsame
  unfold applyName
  rcases hformed with ⟨hconstructor, d, hd, hlength⟩ | ⟨hmeta, v, hv, hlength⟩
  · have hname : dataName = name := by
      split at hsame
      · exact hconstructor.symm.trans (of_decide_eq_true hsame)
      · exact of_decide_eq_true hsame
    subst hname
    have hconstructor : constructor = dataName := hconstructor
    have hd : r.find? dataName = some d := hd
    rw [hd]
    dsimp only
    rw [if_pos hlength, hconstructor, Ty.instanceOf]
  · have hmeta : dataName = Ty.metaName := hmeta
    rw [if_pos hmeta] at hsame
    have hname : constructor = name := of_decide_eq_true hsame
    subst hname
    have hv : r.metaVariant? constructor = some v := hv
    cases hfind : r.find? constructor with
    | some d =>
        rw [hclash constructor (by rw [hfind]; rfl)] at hv
        cases hv
    | none =>
        rw [hv]
        dsimp only
        rw [if_pos hlength, hmeta, Ty.variant]

end DataTypes

namespace Signature

namespace Call

/-- The parameters that the structure declares stand for nothing yet. -/
def scope (c : Call) : Scope := c.interface.params.map fun p => (p.name, none)

/-- What a part of the signature stands for under a naming of the parameters. -/
abbrev denote (c : Call) (D : Naming) (e : TypeExpr) : Option Ty := c.data.denote c.scope D e

abbrev denoteList (c : Call) (D : Naming) (es : List TypeExpr) : Option (List Ty) :=
  c.data.denoteList c.scope D es

theorem bind_scope (c : Call) (θ : Valuation) : c.scope.bind θ = c.scope := by
  simp [Scope.bind, scope]

theorem lookup_scope (c : Call) (name : String) :
    c.scope.lookup name = if c.interface.params.any (·.name = name) then some none else none := by
  unfold scope
  induction c.interface.params with
  | nil => rfl
  | cons p ps ih =>
      rw [List.map_cons, List.lookup_cons, List.any_cons, ih]
      by_cases h : p.name = name
      · simp [h]
      · rw [beq_false_of_ne (Ne.symm h)]
        simp [h]

theorem denote_named (c : Call) (D : Naming) (name : String) :
    c.denote D (.named name) = if c.isParam name then D name else c.data.lookupName? name := by
  rw [denote, DataTypes.denote, lookup_scope, isParam]
  cases c.interface.params.any (·.name = name) with
  | true => rfl
  | false =>
      cases c.data.lookupName? name with
      | some t => simp
      | none => simp

theorem denoteList_bind (c : Call) (D : Naming) (θ : Valuation) (es : List TypeExpr) :
    c.denoteList (fun name => (D name).map (·.bind θ)) es =
      (c.denoteList D es).map (·.map (·.bind θ)) := by
  have h := c.data.denoteList_bind c.scope D θ es
  rwa [bind_scope] at h

theorem denote_bind (c : Call) (D : Naming) (θ : Valuation) (e : TypeExpr) :
    c.denote (fun name => (D name).map (·.bind θ)) e = (c.denote D e).map (·.bind θ) := by
  have h := c.data.denote_bind c.scope D θ e
  rwa [bind_scope] at h

theorem denote_app_iff {c : Call} (hclash : c.data.NoClash) {name dataName constructor : String}
    {args : List Ty} (hformed : c.data.Declares ⟨dataName, constructor, args.length⟩)
    (hsame : sameConstructor name dataName constructor = true) {D : Naming}
    {params : List TypeExpr} :
    c.denote D (.app name params) = some (.data dataName constructor args) ↔
      c.denoteList D params = some args := by
  rw [DataTypes.denote_app_eq_some_iff]
  constructor
  · rintro ⟨ts, hts, hname⟩
    rwa [DataTypes.args_of_applyName hname] at hts
  · exact fun h => ⟨args, h, DataTypes.applyName_of_sameConstructor hclash hformed hsame⟩

end Call

/-- What has been found out about a call leaves valuations of the variables open, each with what the
parameters stand for. -/
structure Progress.Admits (p : Progress) (θ : Valuation) (D : Naming) : Prop where
  bindings : ∀ name b, p.bindings.get? name = some b → D name = some (b.type.bind θ)
  constraints : ∀ k ∈ p.constraints, k.expected.bind θ = k.actual.bind θ

def callView : View Progress Fault :=
  { callWatch fun _ => True with
    allowed := fun _ => True
    admits := Progress.Admits }

theorem Progress.admits_start (u : Supply) (θ : Valuation) (D : Naming) :
    Progress.Admits ⟨u, ∅, []⟩ θ D :=
  ⟨fun name b hb => by simp at hb, fun k hk => absurd hk List.not_mem_nil⟩

theorem Progress.Admits.of_agreesBelow {p : Progress} {θ θ' : Valuation} {D : Naming}
    (h : p.Admits θ D) (hp : (callWatch fun _ => True).sound p) (hagree : θ.AgreesBelow p.supply.next θ') :
    p.Admits θ' D where
  bindings name b hb := by
    rw [h.bindings name b hb, hagree.bind_eq (Ty.inScopeOf_iff.1 (hp.1 name b hb)).1]
  constraints k hk := by
    obtain ⟨⟨hexpected, -⟩, hactual, -⟩ := (hp.2 k hk).imp Ty.inScopeOf_iff.1 Ty.inScopeOf_iff.1
    rw [← hagree.bind_eq hexpected, ← hagree.bind_eq hactual, h.constraints k hk]

theorem keeps_callView {α : Type} {P : Upward} {m : Interpret α} {A : α → Upward}
    (h : Keeps (callWatch fun _ => True) P m A) : Keeps callView.toWatch P m A :=
  h.of_allowed rfl rfl fun _ _ => trivial

variable {P : Upward}

namespace Call

variable {c : Call}

theorem explains_condition {n : Int} {p p' : Progress} {C : Valuation → Naming → Prop}
    (h : ∀ θ D, p'.Admits θ D ↔ p.Admits θ D ∧ C θ D) :
    Explains n (callView.admits p) (callView.admits p') (fun _ => ()) fun θ D _ => C θ D where
  sound θ D hafter := (h θ D).1 hafter
  complete θ D _ hbefore hj := ⟨θ, .refl n θ, (h θ D).2 ⟨hbefore, hj⟩, rfl⟩

theorem admits_constrain (p : Progress) (k : Constraint) (θ : Valuation) (D : Naming) :
    Progress.Admits { p with constraints := p.constraints ++ [k] } θ D ↔
      p.Admits θ D ∧ k.expected.bind θ = k.actual.bind θ := by
  constructor
  · exact fun h => ⟨⟨h.bindings, fun k' hk' => h.constraints k' (List.mem_append_left _ hk')⟩,
      h.constraints k (List.mem_append_right _ (List.mem_singleton_self k))⟩
  · rintro ⟨h, hk⟩
    refine ⟨h.bindings, fun k' hk' => ?_⟩
    rcases List.mem_append.1 hk' with hk' | hk'
    · exact h.constraints k' hk'
    · obtain rfl := List.mem_singleton.1 hk'
      exact hk

theorem admits_bindTo {p : Progress} {name : String} (hname : p.bindings.get? name = none)
    (b : ParamBinding) (θ : Valuation) (D : Naming) :
    Progress.Admits { p with bindings := p.bindings.insert name b } θ D ↔
      p.Admits θ D ∧ D name = some (b.type.bind θ) := by
  constructor
  · refine fun h => ⟨⟨fun other b' hb' => h.bindings other b' ?_, h.constraints⟩,
      h.bindings name b ?_⟩
    · rw [SortedMap.get?_insert, if_neg, hb']
      rintro rfl
      rw [hname] at hb'
      cases hb'
    · rw [SortedMap.get?_insert, if_pos rfl]
  · rintro ⟨h, hD⟩
    refine ⟨fun other b' hb' => ?_, h.constraints⟩
    rw [SortedMap.get?_insert] at hb'
    split at hb'
    · rename_i heq
      cases hb'
      rw [← heq, hD]
    · exact h.bindings other b' hb'

theorem constrain_finds (expected actual : Ty) (arg : Nat) :
    Finds callView (expected.inScope ⊓ actual.inScope) (constrain expected actual arg)
      (fun _ => ⊤) (fun _ _ => ()) fun θ _ _ => expected.bind θ = actual.bind θ where
  toKeeps := keeps_callView (Ty.inScopeOf_true ▸ constrain_keeps expected actual arg)
  finds s a s' hrun _ _ _ := by
    cases hrun
    exact explains_condition (admits_constrain s ⟨expected, actual, arg⟩)

theorem bindParam_finds (c : Call) (name : String) (hint : ParamKind) (actual : Ty) (arg : Nat) :
    Finds callView actual.inScope (c.bindParam name hint actual arg) (fun _ => ⊤)
      (fun _ _ => ()) fun θ D _ => D name = some (actual.bind θ) where
  toKeeps := keeps_callView (Ty.inScopeOf_true ▸ c.bindParam_keeps name hint actual arg)
  finds s a s' hrun hs hs' hpre := by
    unfold bindParam at hrun
    obtain ⟨s₁, s₂, hget, hrun⟩ := Attempt.returns_bind_iff.1 hrun
    cases hget
    cases hname : s.bindings.get? name with
    | none =>
        simp only [hname] at hrun
        split at hrun
        · cases hrun
          exact explains_condition (admits_bindTo hname _)
        · cases hrun
    | some earlier =>
        have hbound : ∀ θ D, callView.admits s θ D → (D name = some (actual.bind θ) ↔
            earlier.type.bind θ = actual.bind θ) := fun θ D h => by
          rw [h.bindings name earlier hname, Option.some.injEq]
        simp only [hname] at hrun
        split at hrun
        · rename_i hsame
          cases hrun
          refine Explains.of_iff fun θ D _ h => ?_
          rw [hbound θ D h, Ty.eq_of_same hsame]
          simp
        · split at hrun
          · have hinScope := (Ty.inScopeOf_iff.1 (hs.1 name earlier hname)).1
            exact ((constrain_finds earlier.type actual arg).finds s a s' hrun hs hs'
              ⟨hinScope, hpre⟩).congr fun θ D _ h => (hbound θ D h).symm
          · split at hrun
            · cases hrun
            · cases hrun

theorem require_finds (c : Call) (expected actual : Ty) (arg : Nat) :
    Finds callView (expected.inScope ⊓ actual.inScope) (c.require expected actual arg)
      (fun _ => ⊤) (fun _ _ => ()) fun θ _ _ => expected.bind θ = actual.bind θ := by
  unfold require
  refine Finds.iteOf (fun _ => Finds.iteOf (fun hsame => ?_) fun _ => Finds.throw fun _ _ => trivial)
    fun _ => constrain_finds expected actual arg
  refine Finds.pure (fun _ _ => trivial) fun s _ _ θ D _ _ => ?_
  rw [Ty.eq_of_same hsame]
  simp

theorem param_finds {mode : Unbound} (hmode : mode = .fresh ∨ c.lenient = false) (arg : Nat)
    (hint : ParamKind) (name : String) :
    Finds callView P
      (do
        let bindings := (← get).bindings
        match bindings.get? name with
        | some b => return b.type
        | none => c.unboundParam mode name (c.kindOf bindings name hint) arg : Interpret Ty)
      Ty.inScope (fun t θ => t.bind θ) fun _ D t => D name = some t where
  toKeeps := by
    refine keeps_callView (get_keeps.bind fun p => ?_)
    dsimp only
    split
    · rename_i b hb
      exact Keeps.pure fun n h => (Ty.inScopeOf_iff.1 (inScope_of_get? h.2 hb)).1
    · exact Ty.inScopeOf_true ▸ unboundParam_keeps (fun _ _ => trivial) c _ _ _ _
  finds s t s' hrun hs hs' _ := by
    obtain ⟨s₁, s₂, hget, hrun⟩ := Attempt.returns_bind_iff.1 hrun
    cases hget
    cases hname : s.bindings.get? name with
    | some b =>
        simp only [hname] at hrun
        cases hrun
        refine Explains.of_iff fun θ D t h => ?_
        rw [h.bindings name b hname, Option.some.injEq, eq_comm]
    | none =>
        simp only [hname] at hrun
        cases mode with
        | fresh =>
            cases hrun
            have hnew := admits_bindTo (p := { s with supply := s.supply.advance }) hname
              ⟨c.kindOf s.bindings name hint, .var s.supply.next, arg⟩
            refine ⟨fun θ D h => ?_, fun θ D t h ht => ?_⟩
            · obtain ⟨hold, hD⟩ := (hnew θ D).1 h
              exact ⟨⟨hold.bindings, hold.constraints⟩, hD⟩
            · have hagree := θ.agreesBelow_set s.supply.next t
              have hvalue : (θ.set s.supply.next t) s.supply.next = t := if_pos rfl
              have hold := Progress.Admits.of_agreesBelow h hs hagree
              refine ⟨_, hagree, (hnew _ D).2 ⟨⟨hold.bindings, hold.constraints⟩, ?_⟩, hvalue⟩
              rw [ht, Ty.bind, hvalue]
        | refuse =>
            have hstrict : c.lenient = false := hmode.resolve_left fun h => by cases h
            rw [unboundParam, hstrict] at hrun
            cases hrun

theorem resolveNamed_finds {name : String} (hparam : ¬c.isParam name = true) :
    Finds callView P (liftM (c.data.resolveClosed [] (.named name)) : Interpret Ty) Ty.inScope
      (fun t θ => t.bind θ) fun _ D t => c.denote D (.named name) = some t := by
  have hnamed : ∀ D, c.denote D (.named name) = c.data.lookupName? name := fun D => by
    rw [denote_named, if_neg hparam]
  simp only [hnamed, DataTypes.resolveClosed_named]
  cases hname : c.data.lookupName? name with
  | none => exact Finds.ofExcept (fun _ _ => trivial) fun t ht => by cases ht
  | some u =>
      refine Finds.ofExcept (fun n _ => DataTypes.within_of_lookupName? hname)
        fun t ht θ D t' => ?_
      cases ht
      rw [DataTypes.bind_of_lookupName? hname, Option.some.injEq, eq_comm]

mutual

theorem build_finds {P : Upward} {mode : Unbound} (hmode : mode = .fresh ∨ c.lenient = false) (arg : Nat)
    (hint : ParamKind) (e : TypeExpr) :
    Finds callView P (c.build mode arg hint e) Ty.inScope (fun t θ => t.bind θ)
      fun _ D t => c.denote D e = some t := by
  cases e with
  | blank => exact Finds.throw fun _ _ => trivial
  | named name =>
      rw [build]
      refine Finds.iteOf (fun hparam => ?_) fun hparam => ?_
      · refine (param_finds hmode arg hint name).congr fun s _ _ θ D t _ => ?_
        rw [denote_named, if_pos hparam]
      · exact resolveNamed_finds hparam
  | app name args =>
      rw [build]
      refine ((buildList_finds hmode arg name 0 args).bind
        (K := fun _ ts _ t => c.data.applyName name ts = .ok t) (fun ts => ?_)
        fun _ _ _ _ _ => rfl).congr
          fun s _ _ θ D t _ => DataTypes.denote_app_eq_some_iff.symm
      refine Finds.ofExcept (fun n h => ?_) fun t ht θ D u => ?_
      · have hends : Ends (fun t => t.Within (· < n)) Fault.IsOrdinary
            (c.data.applyName name ts) := DataTypes.applyName_ends h.2
        cases hresult : c.data.applyName name ts with
        | ok t => rwa [hresult] at hends
        | error f => trivial
      · rw [DataTypes.applyName_bind ht, Except.ok.injEq, eq_comm]
  | arrow domain codomain =>
      rw [build]
      refine ((build_finds hmode arg .type domain).bind
        (K := fun _ a D t => ∃ b, c.denote D codomain = some b ∧ t = .fn a b)
        (fun a => ?_) fun _ _ _ _ _ => rfl).congr
          fun s _ _ θ D t _ => DataTypes.denote_arrow_eq_some_iff.symm
      refine (build_finds hmode arg .type codomain).bind
        (K := fun θ b _ t => t = Ty.fn (a.bind θ) b) (fun b => ?_) fun n hn θ θ' hagree => ?_
      · exact Finds.pure (fun n hn => Ty.within_fn.2 ⟨hn.1.2, hn.2⟩)
          fun s _ _ θ D t _ => Iff.rfl
      · rw [hagree.bind_eq hn.2]
  | nat value =>
      refine Finds.pure (fun _ _ => Ty.within_nat _) fun s _ _ θ D t _ => ?_
      simp [DataTypes.denote, Ty.bind, eq_comm]
  | tag value =>
      refine Finds.pure (fun _ _ => Ty.within_tag _) fun s _ _ θ D t _ => ?_
      simp [DataTypes.denote, Ty.bind, eq_comm]

theorem buildList_finds {P : Upward} {mode : Unbound}
    (hmode : mode = .fresh ∨ c.lenient = false) (arg : Nat) (name : String) (i : Nat) (es : List TypeExpr) :
    Finds callView P (c.buildList mode arg name i es) (Every Ty.inScope)
      (fun ts θ => ts.map (·.bind θ)) fun _ D ts => c.denoteList D es = some ts := by
  match es with
  | [] =>
      refine Finds.pure (fun n _ => every_nil _ n) fun s _ _ θ D ts _ => ?_
      simp [DataTypes.denoteList, eq_comm]
  | e :: es =>
      rw [buildList]
      refine ((build_finds hmode arg _ e).bind
        (K := fun _ t D ts => ∃ us, c.denoteList D es = some us ∧ ts = t :: us)
        (fun t => ?_) fun _ _ _ _ _ => rfl).congr
          fun s _ _ θ D t _ => DataTypes.denoteList_cons_eq_some_iff.symm
      refine (buildList_finds hmode arg name (i + 1) es).bind
        (K := fun θ us _ ts => ts = t.bind θ :: us) (fun us => ?_) fun n hn θ θ' hagree => ?_
      · exact Finds.pure (fun n hn => every_cons.2 ⟨hn.1.2, hn.2⟩)
          fun s _ _ θ D ts _ => Iff.rfl
      · rw [hagree.bind_eq hn.2]

end

theorem buildConstrain_finds (arg : Nat) (hint : ParamKind) (pattern : TypeExpr) (actual : Ty) :
    Finds callView actual.inScope
      (do
        let expected ← c.build .fresh arg hint pattern
        constrain expected actual arg : Interpret Unit)
      (fun _ => ⊤) (fun _ _ => ()) fun θ D _ => c.denote D pattern = some (actual.bind θ) := by
  refine ((build_finds (.inl rfl) arg hint pattern).bind
    (K := fun θ t _ _ => t = actual.bind θ) (fun expected => ?_)
    fun n hn θ θ' hagree => ?_).congr fun s _ _ θ D _ _ => ?_
  · exact (constrain_finds expected actual arg).of_pre fun n h => ⟨h.2, h.1⟩
  · rw [hagree.bind_eq hn]
  · simp

theorem mismatch_finds (arg : Nat) (hint : ParamKind) (pattern : TypeExpr) (actual : Ty)
    {J : Valuation → Naming → Unit → Prop} :
    Finds callView P (c.mismatch pattern hint actual arg) (fun _ => ⊤) (fun _ _ => ()) J where
  toKeeps := (build_finds (.inl rfl) arg hint pattern).toKeeps.bind fun _ =>
    Keeps.throw fun _ _ => trivial
  finds s a s' hrun := by
    obtain ⟨t, s₁, -, hthrow⟩ := Attempt.returns_bind_iff.1 hrun
    cases hthrow

/-- Types of arguments that are formed as declared. -/
def Actual (c : Call) (t : Ty) : Upward := t.inScope ⊓ Known (c.data.Forms t)

theorem denote_app_bind_iff (hclash : c.data.NoClash) {name dataName constructor : String}
    {args : List Ty} (hformed : c.data.Declares ⟨dataName, constructor, args.length⟩)
    (hsame : sameConstructor name dataName constructor = true) {D : Naming} {θ : Valuation}
    {params : List TypeExpr} :
    c.denote D (.app name params) = some ((Ty.data dataName constructor args).bind θ) ↔
      c.denoteList D params = some (args.map (·.bind θ)) := by
  rw [Ty.bind, Ty.bindList_eq_map]
  exact denote_app_iff hclash (by rwa [List.length_map]) hsame

theorem cons_finds {pattern : TypeExpr} {patterns : List TypeExpr} {actual : Ty}
    {actuals : List Ty} {first rest : Interpret Unit}
    (hfirst : Finds callView (c.Actual actual) first (fun _ => ⊤) (fun _ _ => ())
      fun θ D _ => c.denote D pattern = some (actual.bind θ))
    (hrest : Finds callView (Every c.Actual actuals) rest (fun _ => ⊤) (fun _ _ => ())
      fun θ D _ => c.denoteList D patterns = some (actuals.map (·.bind θ))) :
    Finds callView (Every c.Actual (actual :: actuals))
      (do
        first
        rest) (fun _ => ⊤) (fun _ _ => ())
      fun θ D _ => c.denoteList D (pattern :: patterns) =
        some ((actual :: actuals).map (·.bind θ)) := by
  refine (hfirst.before (K := fun θ D _ => c.denoteList D patterns = some (actuals.map (·.bind θ)))
    (fun n h => (every_cons.1 h).1) (fun _ => hrest.of_pre fun n h => (every_cons.1 h.1).2)
    fun n h θ θ' hagree => ?_).congr fun s _ _ θ D _ _ => ?_
  · have hscope : Every Ty.inScope actuals n := fun t ht => ((every_cons.1 h).2 t ht).1
    rw [hagree.map_bind_eq hscope]
  · rw [DataTypes.denoteList_cons_eq_some_iff]
    simp

mutual

/-- Matching a part of the signature finds out just what makes it stand for the type. -/
theorem matchType_finds (hclash : c.data.NoClash) (arg : Nat) (hint : ParamKind)
    (pattern : TypeExpr) (actual : Ty) :
    Finds callView (c.Actual actual) (c.matchType arg hint pattern actual) (fun _ => ⊤)
      (fun _ _ => ()) fun θ D _ => c.denote D pattern = some (actual.bind θ) := by
  have hnamed : ∀ {name : String}, c.isParam name = true → ∀ actual : Ty,
      Finds callView (c.Actual actual) (c.bindParam name hint actual arg) (fun _ => ⊤)
        (fun _ _ => ()) fun θ D _ => c.denote D (.named name) = some (actual.bind θ) :=
    fun hparam actual => ((c.bindParam_finds _ hint actual arg).of_pre
      fun n (h : c.Actual actual n) => h.1).congr
      fun s _ _ θ D _ _ => by rw [denote_named, if_pos hparam]
  have hbuild : ∀ (pattern : TypeExpr) (actual : Ty), Finds callView (c.Actual actual)
      (do
        let expected ← c.build .fresh arg hint pattern
        constrain expected actual arg) (fun _ => ⊤) (fun _ _ => ())
      fun θ D _ => c.denote D pattern = some (actual.bind θ) :=
    fun pattern actual => (buildConstrain_finds arg hint pattern actual).of_pre fun n h => h.1
  unfold matchType
  split
  · exact Finds.iteOf (fun hparam => hnamed hparam _) fun _ => hbuild _ _
  · exact hbuild _ _
  · rename_i name _
    refine Finds.iteOf (fun hparam => hnamed hparam _) fun hparam => ?_
    refine ((resolveNamed_finds hparam).bind (K := fun θ t _ _ => t = actual.bind θ)
      (fun expected => ?_) fun n hn θ θ' hagree => ?_).congr fun s _ _ θ D _ _ => ?_
    · exact (c.require_finds expected actual arg).of_pre fun n h => ⟨h.2, h.1.1⟩
    · rw [hagree.bind_eq hn.1]
    · simp
  · rename_i name params dataName constructor args
    refine Finds.iteOf (fun hsame => ?_) fun _ => mismatch_finds arg hint _ _
    rw [Bool.and_eq_true, decide_eq_true_eq] at hsame
    refine ((matchTypes_finds hclash arg name 0 params args hsame.2.symm).of_pre
      fun n h t ht => ?_).congr fun s _ hpre θ D _ _ => ?_
    · exact ⟨Ty.within_data.1 h.1 t ht, (Ty.formed_data_iff.1 h.2).2 t ht⟩
    · exact (denote_app_bind_iff hclash (Ty.formed_data_iff.1 hpre.2).1 hsame.1).symm
  · rename_i domain codomain a b
    refine ((matchType_finds hclash arg .type domain a).before
      (K := fun θ D _ => c.denote D codomain = some (b.bind θ)) (fun n h => ?_) (fun _ => ?_)
      fun n h θ θ' hagree => ?_).congr fun s _ _ θ D _ _ => ?_
    · exact ⟨(Ty.within_fn.1 h.1).1, (Ty.formed_fn_iff.1 h.2).1⟩
    · exact (matchType_finds hclash arg .type codomain b).of_pre fun n h =>
        ⟨(Ty.within_fn.1 h.1.1).2, (Ty.formed_fn_iff.1 h.1.2).2⟩
    · rw [hagree.bind_eq (Ty.within_fn.1 h.1).2]
    · rw [DataTypes.denote_arrow_eq_some_iff, Ty.bind]
      simp
  · rename_i value _
    refine ((c.require_finds (.nat value) actual arg).of_pre fun n (h : c.Actual actual n) =>
      ⟨Ty.within_nat _, h.1⟩).congr fun s _ _ θ D _ _ => ?_
    simp [DataTypes.denote, Ty.bind]
  · rename_i value _
    refine ((c.require_finds (.tag value) actual arg).of_pre fun n (h : c.Actual actual n) =>
      ⟨Ty.within_tag _, h.1⟩).congr fun s _ _ θ D _ _ => ?_
    simp [DataTypes.denote, Ty.bind]
  · exact Finds.throw fun _ _ => trivial
  · exact mismatch_finds arg hint _ _
termination_by sizeOf pattern

theorem matchTypes_finds (hclash : c.data.NoClash) (arg : Nat) (name : String) (i : Nat)
    (patterns : List TypeExpr) (actuals : List Ty) (hlength : patterns.length = actuals.length) :
    Finds callView (Every c.Actual actuals) (c.matchTypes arg name i patterns actuals)
      (fun _ => ⊤) (fun _ _ => ())
      fun θ D _ => c.denoteList D patterns = some (actuals.map (·.bind θ)) := by
  match patterns, actuals with
  | [], [] =>
      rw [matchTypes]
      · exact Finds.pure (fun _ _ => trivial) fun s _ _ θ D _ _ => by simp [DataTypes.denoteList]
      · simp
  | [], actual :: actuals => simp at hlength
  | pattern :: patterns, [] => simp at hlength
  | pattern :: patterns, actual :: actuals =>
      rw [matchTypes]
      exact cons_finds (matchType_finds hclash arg _ pattern actual)
        (matchTypes_finds hclash arg name (i + 1) patterns actuals (Nat.succ.inj hlength))
termination_by sizeOf patterns

end

theorem matchArgs_finds (hclash : c.data.NoClash) (i : Nat) {patterns : List TypeExpr}
    {actuals : List Ty} (hlength : patterns.length = actuals.length) :
    Finds callView (Every c.Actual actuals) (c.matchArgs i patterns actuals) (fun _ => ⊤)
      (fun _ _ => ()) fun θ D _ => c.denoteList D patterns = some (actuals.map (·.bind θ)) := by
  induction patterns generalizing i actuals with
  | nil =>
      cases actuals with
      | nil =>
          rw [matchArgs]
          · exact Finds.pure (fun _ _ => trivial) fun s _ _ θ D _ _ => by simp [DataTypes.denoteList]
          · simp
      | cons actual actuals => cases hlength
  | cons pattern patterns ih =>
      cases actuals with
      | nil => cases hlength
      | cons actual actuals =>
          rw [matchArgs]
          exact cons_finds (matchType_finds hclash i .type pattern actual)
            (ih (i + 1) (Nat.succ.inj hlength))

/-- The steps of interpreting a call up to the type of the result. -/
def reckon (c : Call) : Interpret Ty := do
  c.matchArgs 0 c.operation.signature.splitArrow.1 c.args
  c.build .refuse c.args.length .type c.operation.signature.splitArrow.2

/-- A call comes to what the steps come to, with the bindings and the constraints at the end. -/
theorem returns_walk_iff {c : Call} {s s' : Progress} {o : Outcome} :
    Attempt.Returns c.walk s o s' ↔
      ∃ t, Attempt.Returns c.reckon s t s' ∧ o = ⟨t, s'.bindings, s'.constraints⟩ := by
  unfold walk reckon
  constructor
  · intro h
    obtain ⟨a, s₁, hmatch, h⟩ := Attempt.returns_bind_iff.1 h
    obtain ⟨t, s₂, hbuild, h⟩ := Attempt.returns_bind_iff.1 h
    cases h
    exact ⟨t, Attempt.returns_bind_iff.2 ⟨a, s₁, hmatch, hbuild⟩, rfl⟩
  · rintro ⟨t, h, rfl⟩
    obtain ⟨a, s₁, hmatch, hbuild⟩ := Attempt.returns_bind_iff.1 h
    exact Attempt.returns_bind_iff.2
      ⟨a, s₁, hmatch, Attempt.returns_bind_iff.2 ⟨t, s', hbuild, rfl⟩⟩

theorem reckon_finds (hclash : c.data.NoClash) (hstrict : c.lenient = false)
    (hlength : c.operation.signature.splitArrow.1.length = c.args.length) :
    Finds callView (Every c.Actual c.args) c.reckon Ty.inScope (fun t θ => t.bind θ)
      fun θ D t => c.denoteList D c.operation.signature.splitArrow.1 =
          some (c.args.map (·.bind θ)) ∧
        c.denote D c.operation.signature.splitArrow.2 = some t :=
  (matchArgs_finds hclash 0 hlength).before
    (K := fun _ D t => c.denote D c.operation.signature.splitArrow.2 = some t) (fun _ h => h)
    (fun _ => build_finds (.inr hstrict) c.args.length .type _) fun _ _ _ _ _ => rfl

/-- What is known when a call has been interpreted. -/
theorem returns_interpret_iff {c : Call} {u u' : Supply} {o : Outcome} :
    Attempt.Returns c.interpret u o u' ↔
      c.operation.signature.splitArrow.1.length = c.args.length ∧
        ∃ s', Attempt.Returns c.walk ⟨u, ∅, []⟩ o s' ∧ s'.supply = u' := by
  unfold Attempt.Returns
  rw [outcome_interpret]
  split
  · rename_i hlength
    simp [hlength]
  · rename_i hlength
    rw [not_not] at hlength
    cases hwalk : Attempt.outcome c.walk ⟨u, ∅, []⟩ with
    | mk result s' => simp [hlength]

end Call

/-- What a call comes to leaves some valuations open. -/
def Outcome.Solved (o : Outcome) (θ : Valuation) : Prop :=
  ∀ k ∈ o.constraints, k.expected.bind θ = k.actual.bind θ

namespace Call

variable {c : Call} {o : Outcome} {u u' : Supply}

theorem sound_start (u : Supply) : (callWatch fun _ => True).sound ⟨u, ∅, []⟩ :=
  ⟨fun name b hb => by simp at hb, fun k hk => absurd hk List.not_mem_nil⟩

theorem inScope_of_interpret (hclash : c.data.NoClash) (hstrict : c.lenient = false)
    (hargs : Every c.Actual c.args u.next) (hrun : Attempt.Returns c.interpret u o u')
    (hu : u'.Unwrapped) : o.inScope u'.next := by
  obtain ⟨hlength, s', hwalk, rfl⟩ := returns_interpret_iff.1 hrun
  obtain ⟨t, hreckon, rfl⟩ := returns_walk_iff.1 hwalk
  obtain ⟨hsound, htype, -⟩ := (reckon_finds hclash hstrict hlength).toKeeps.of_returns hreckon hu
    (sound_start u) hargs
  refine ⟨htype, fun k hk => ?_⟩
  exact (hsound.2 k hk).imp (fun h => (Ty.inScopeOf_iff.1 h).1) fun h => (Ty.inScopeOf_iff.1 h).1

theorem interpret_explains (hclash : c.data.NoClash) (hstrict : c.lenient = false)
    (hargs : Every c.Actual c.args u.next) (hrun : Attempt.Returns c.interpret u o u')
    (hu : u'.Unwrapped) :
    (∀ θ, o.Solved θ → ∃ D, c.denoteList D c.operation.signature.splitArrow.1 =
        some (c.args.map (·.bind θ)) ∧
      c.denote D c.operation.signature.splitArrow.2 = some (o.type.bind θ)) ∧
    ∀ θ D t, c.denoteList D c.operation.signature.splitArrow.1 = some (c.args.map (·.bind θ)) →
      c.denote D c.operation.signature.splitArrow.2 = some t →
        ∃ θ', o.Solved θ' ∧ o.type.bind θ' = t := by
  obtain ⟨hlength, s', hwalk, rfl⟩ := returns_interpret_iff.1 hrun
  obtain ⟨t, hreckon, rfl⟩ := returns_walk_iff.1 hwalk
  have hexplains :=
    (reckon_finds hclash hstrict hlength).finds _ _ _ hreckon (sound_start u) hu hargs
  constructor
  · intro θ hθ
    refine ⟨fun name => (s'.bindings.get? name).map fun b => b.type.bind θ, ?_⟩
    exact (hexplains.sound θ _ ⟨fun name b hb => by rw [hb]; rfl, hθ⟩).2
  · intro θ D t' hparams hresult
    obtain ⟨θ', -, hθ', hvalue⟩ :=
      hexplains.complete θ D t' (Progress.admits_start u θ D) ⟨hparams, hresult⟩
    exact ⟨θ', hθ'.constraints, hvalue⟩

end Call

end Signature

end Formulary
