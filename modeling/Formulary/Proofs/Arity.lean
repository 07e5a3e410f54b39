import Formulary.Proofs.Exhaustiveness
import Formulary.Proofs.FirstOrder

namespace Formulary

/-- A use of a name that may be the name of a constructor. -/
inductive Use where
  /-- The name is applied in an expression. -/
  | call (name : String) (args : List Expr)
  /-- The name is applied in a pattern, to a number of patterns. -/
  | pattern (name : String) (arity : Nat)
  /-- The name stands alone. -/
  | alone (name : String)

namespace Expr

mutual

/-- The uses of names in an expression. A name on its own counts only where it is not bound. -/
def uses (bound : String → Bool) : Expr → List Use
  | .blank | .const _ => []
  | .object name => if bound name then [] else [.alone name]
  | .operation name args => .call name args :: usesList bound args
  | .matching scrutinee cases => scrutinee.uses bound ++ usesCases bound cases

def usesList (bound : String → Bool) : List Expr → List Use
  | [] => []
  | e :: es => e.uses bound ++ usesList bound es

def usesCases (bound : String → Bool) : List (Pattern × Expr) → List Use
  | [] => []
  | (p, body) :: rest =>
    p.applications.map (fun a => .pattern a.1 a.2) ++
      body.uses (fun name => p.vars.contains name || bound name) ++ usesCases bound rest

end

end Expr

namespace DataTypes

/-- A variant of the type of types that takes dimensions and then values of one type is given the
dimensions as literals, and as many values as they multiply to. -/
def TakesElements (r : DataTypes) (d : DataType) (v : Variant) (args : List Expr) : Prop :=
  d.name = Ty.metaName ∧ ∃ dims last, v.fields = dims ++ [last] ∧ dims ≠ [] ∧
    (∀ f ∈ dims, r.resolveClosed [] f.type = .ok (.prim .nat)) ∧
    (∃ t, r.resolveClosed [] last.type = .ok t ∧ t.paramKind = .type) ∧
    ∃ counts : List Nat, (args.take dims.length).map Inference.dimension? = counts.map some ∧
      args.length = dims.length + counts.prod

end DataTypes

/-- What a use of a constructor looks like, given the names that have been taken for names that nothing
declares. -/
def Use.Fits (r : Registry) (free : List (String × Int)) : Use → Prop
  | .call name args => ∀ d v, r.data.variant? name = some (d, v) →
      args.length = v.fields.length ∨ r.data.TakesElements d v args
  | .pattern name arity => r.data.HasArity (name, arity)
  | .alone name => ∀ d v, r.data.variant? name = some (d, v) → v.fields = [] ∨
      name ∈ free.map (·.1) ∨
      ∃ s op, r.operation? name = some (s, op) ∧ op.signature.splitArrow.1 = []

theorem Use.Fits.mono {r : Registry} {free free' : List (String × Int)} {u : Use} (h : u.Fits r free)
    (hfree : free <:+ free') : u.Fits r free' := by
  cases u with
  | call => exact h
  | pattern => exact h
  | alone name =>
      intro d v hvariant
      rcases h d v hvariant with hnone | hname | hop
      · exact .inl hnone
      · exact .inr (.inl (List.map_subset _ hfree.subset hname))
      · exact .inr (.inr hop)

namespace Pattern

variable {r : DataTypes}

mutual

theorem isSome_bindings_of_checkAfter {t t' : Typing} {p : Pattern} {expected : Ty} {u u' : Supply}
    (h : Attempt.Returns (checkAfter r t p expected) u t' u') (name : String) :
    (t'.bindings.get? name).isSome = true ↔ name ∈ p.vars ∨ (t.bindings.get? name).isSome = true := by
  cases p with
  | wildcard =>
      cases h
      simp [vars]
  | var x =>
      rw [checkAfter] at h
      split at h
      · cases h
      · cases h
        rw [vars, List.mem_singleton]
        dsimp only
        rw [SortedMap.get?_insert]
        split
        · rename_i heq
          simp [heq]
        · rename_i hne
          simp [Ne.symm hne]
  | const value =>
      have hrequire : t.require expected .scalar = .ok t' := by
        rw [checkAfter, Attempt.Returns, Attempt.outcome_liftExcept, Prod.mk.injEq] at h
        exact h.1
      rw [Typing.require_bindings hrequire]
      simp [vars]
  | constructor c args =>
      rw [checkAfter] at h
      obtain ⟨v, u₁, -, h⟩ := Attempt.returns_bind_iff.1 h
      split at h
      · cases h
      · rename_i hlength
        obtain ⟨t₁, u₂, hrequire, h⟩ := Attempt.returns_bind_iff.1 h
        rw [Attempt.Returns, Attempt.outcome_liftExcept, Prod.mk.injEq] at hrequire
        rw [isSome_bindings_of_checkListAfter (by simpa using hlength) h name,
          Typing.require_bindings hrequire.1, vars]

theorem isSome_bindings_of_checkListAfter {t t' : Typing} {ps : List Pattern} {fields : List Ty}
    {u u' : Supply} (hlength : ps.length = fields.length)
    (h : Attempt.Returns (checkListAfter r t ps fields) u t' u') (name : String) :
    (t'.bindings.get? name).isSome = true ↔
      name ∈ varsList ps ∨ (t.bindings.get? name).isSome = true := by
  match ps, fields, hlength with
  | [], [], _ =>
      cases h
      simp [varsList]
  | p :: ps, field :: fields, hlength =>
      rw [checkListAfter] at h
      obtain ⟨t₁, u₁, hfirst, hrest⟩ := Attempt.returns_bind_iff.1 h
      rw [isSome_bindings_of_checkListAfter (Nat.succ.inj hlength) hrest name,
        isSome_bindings_of_checkAfter hfirst name, varsList, List.mem_append]
      tauto

end

theorem isSome_bindings_of_check {t : Typing} {p : Pattern} {expected : Ty} {u u' : Supply}
    (h : Attempt.Returns (p.check r expected) u t u') (name : String) :
    (t.bindings.get? name).isSome = true ↔ name ∈ p.vars := by
  obtain ⟨t₁, u₁, hcheck, h⟩ := Attempt.returns_bind_iff.1 h
  cases h
  dsimp only
  rw [SortedMap.get?_mapValues, Option.isSome_map, isSome_bindings_of_checkAfter hcheck name]
  simp [Typing.start]

end Pattern

namespace DataTypes

variable {r : DataTypes} {name : String} {u u' : Supply}

theorem kind_of_metaField {f : Field} {g : FieldInstance}
    (h : Attempt.Returns (r.metaField f) u g u') :
    ∃ t, r.resolveClosed [] f.type = .ok t ∧ g.kind = t.paramKind := by
  obtain ⟨t, u₁, hresolve, h⟩ := Attempt.returns_bind_iff.1 h
  rw [Attempt.Returns, Attempt.outcome_liftExcept, Prod.mk.injEq] at hresolve
  have h : Attempt.Returns (if isDeclared t = true then _ else _) u₁ g u' := h
  refine ⟨t, hresolve.1, ?_⟩
  split at h
  · cases h
    rfl
  · cases h
    rfl

theorem kinds_of_instantiate {v : VariantInstance} (h : Attempt.Returns (r.instantiate name) u v u')
    (howner : v.owner = Ty.metaName) :
    ∃ d w, r.variant? name = some (d, w) ∧ d.name = Ty.metaName ∧
      List.Forall₂ (fun f g => ∃ t, r.resolveClosed [] f.type = .ok t ∧ g.kind = t.paramKind)
        w.fields v.fields := by
  unfold instantiate at h
  split at h
  · cases h
  · rename_i d w hvariant
    split at h
    · rename_i hmeta
      obtain ⟨fields, u₁, hfields, h⟩ := Attempt.returns_bind_iff.1 h
      cases h
      refine ⟨d, w, hvariant, hmeta, (Attempt.returns_mapM hfields).imp fun f g hfield => ?_⟩
      obtain ⟨u₁, u₂, hfield⟩ := hfield
      exact kind_of_metaField hfield
    · rename_i hmeta
      obtain ⟨params, u₁, -, h⟩ := Attempt.returns_bind_iff.1 h
      obtain ⟨fields, u₂, -, h⟩ := Attempt.returns_bind_iff.1 h
      cases h
      exact absurd howner hmeta

end DataTypes

namespace Inference

theorem eq_prod_of_elementCount? {bound n : Nat} {dims : List Nat}
    (h : elementCount? bound dims = some n) : n = dims.prod := by
  have hfold : ∀ (dims : List Nat) (k : Nat), dims.foldlM (fun n d =>
      if d ≤ bound ∧ n * d ≤ bound then some (n * d) else none) k = some n → n = k * dims.prod := by
    intro dims
    induction dims with
    | nil =>
        intro k hk
        cases hk
        simp
    | cons d dims ih =>
        intro k hk
        rw [List.foldlM_cons] at hk
        split at hk
        · rw [ih _ hk, List.prod_cons, Nat.mul_assoc]
        · cases hk
  rw [hfold dims 1 h, Nat.one_mul]

theorem eq_nat_of_paramKind {t : Ty} (h : t.paramKind = .dimension) : t = .prim .nat := by
  cases t with
  | prim kind =>
      cases kind with
      | nat => rfl
      | string | bool => cases h
  | _ => cases h

theorem exists_declared_of_forall₂ {α β : Type} {R : α → β → Prop} {l : List α} {front : List β}
    {last : β} (h : List.Forall₂ R l (front ++ [last])) :
    ∃ l' a, l = l' ++ [a] ∧ List.Forall₂ R l' front ∧ R a last := by
  have hfront := List.forall₂_take_append _ _ _ h
  have hlast := List.forall₂_drop_append _ _ _ h
  obtain ⟨a, rest, ha, hrest, heq⟩ := List.forall₂_cons_right_iff.1 hlast
  rw [List.forall₂_nil_right_iff.1 hrest] at heq
  exact ⟨l.take front.length, a, by rw [← heq, List.take_append_drop], hfront, ha⟩

theorem map_eq_of_mapM {α β : Type} {f : α → Option β} {l : List α} {bs : List β}
    (h : l.mapM f = some bs) : l.map f = bs.map some := by
  induction l generalizing bs with
  | nil =>
      cases h
      rfl
  | cons a l ih =>
      rw [List.mapM_cons] at h
      obtain ⟨b, hb, h⟩ := Option.bind_eq_some_iff.1 h
      obtain ⟨bs', hbs, h⟩ := Option.bind_eq_some_iff.1 h
      cases h
      rw [List.map_cons, hb, ih hbs, List.map_cons]

theorem takesElements_of_areElements {r : DataTypes} {name : String} {u u' : Supply}
    {v : VariantInstance} (h : Attempt.Returns (r.instantiate name) u v u') {args : List Expr}
    (helements : areElements v args = true) {d : DataType} {w : Variant}
    (hvariant : r.variant? name = some (d, w)) : r.TakesElements d w args := by
  simp only [areElements, VariantInstance.isShaped, Bool.and_eq_true, decide_eq_true_eq] at helements
  obtain ⟨⟨⟨⟨howner, htwo⟩, hkinds⟩, -⟩, hcount⟩ := helements
  obtain ⟨d', w', hvariant', hmeta, hfields⟩ := r.kinds_of_instantiate h howner
  cases hvariant.symm.trans hvariant'
  split at hkinds
  · cases hkinds
  · rename_i last dims hreverse
    rw [Bool.and_eq_true, List.all_eq_true, decide_eq_true_eq] at hkinds
    have hsplit : v.fields = dims.reverse ++ [last] := by
      rw [← List.reverse_reverse v.fields, hreverse, List.reverse_cons]
    rw [hsplit] at hfields
    obtain ⟨front, declared, hdeclared, hfront, t, ht, hkind⟩ := exists_declared_of_forall₂ hfields
    have hlength : front.length = dims.length := by
      rw [hfront.length_eq, List.length_reverse]
    rw [show v.fields.length - 1 = front.length by simp [hsplit, hlength]] at hcount
    split at hcount
    · rename_i count hbind
      obtain ⟨counts, hcounts, hcountOf⟩ := Option.bind_eq_some_iff.1 hbind
      refine ⟨hmeta, front, declared, hdeclared, ?_, ?_, ⟨t, ht, hkind ▸ hkinds.1⟩, counts, ?_, ?_⟩
      · rintro rfl
        simp [hsplit, ← hlength] at htwo
      · intro f hf
        obtain ⟨g, hg, t, ht, hkind⟩ := exists_of_forall₂ hfront.flip hf
        have hdimension := of_decide_eq_true (hkinds.2 g (List.mem_reverse.1 hg))
        rw [ht, eq_nat_of_paramKind (hkind.symm.trans hdimension)]
      · exact map_eq_of_mapM hcounts
      · rw [of_decide_eq_true hcount, eq_prod_of_elementCount? hcountOf]
    · cases hcount

theorem fits_of_inferConstruction {c : Context} {e : Expr} {name : String} {args : List (Expr × Ty)}
    {t : Ty} {s s' : State} (h : (inferConstruction c e name args).Returns s t s') {d : DataType}
    {w : Variant} (hvariant : c.data.variant? name = some (d, w)) :
    args.length = w.fields.length ∨ c.data.TakesElements d w (args.map (·.1)) := by
  obtain ⟨v, s₁, hfirst, h⟩ := Attempt.returns_bind_iff.1 h
  obtain ⟨supply, hinstance, rfl⟩ := returns_fresh (returns_blaming.1 hfirst)
  split at h
  · rename_i hlength
    obtain ⟨d', w', hvariant', hfields⟩ := DataTypes.variant_of_instantiate hinstance
    cases hvariant.symm.trans hvariant'
    exact .inl (hlength.trans hfields.symm)
  · split at h
    · rename_i helements
      exact .inr (takesElements_of_areElements hinstance helements hvariant)
    · cases h

/-- Names that have been taken for names that nothing declares stay so. -/
def State.Recorded (s s' : State) : Prop := s.free <:+ s'.free

instance : Lasting State.Recorded where
  trans h h' := List.IsSuffix.trans h h'
  quiet _ h := by rw [State.Recorded, h]
  refine _ _ := List.suffix_rfl
  record _ _ _ := List.suffix_cons _ _

theorem mem_free_of_freeName {name : String} {t : Ty} {s s' : State}
    (h : (freeName name).Returns s t s') : name ∈ s'.free.map (·.1) := by
  obtain ⟨_, _, hget, h⟩ := Attempt.returns_bind_iff.1 h
  cases hget
  split at h
  · rename_i id hid
    cases h
    obtain ⟨l₁, l₂, heq, -⟩ := List.lookup_eq_some_iff.1 hid
    simp [heq]
  · obtain ⟨id, s₁, -, h⟩ := Attempt.returns_bind_iff.1 h
    obtain ⟨_, s₂, hrecord, h⟩ := Attempt.returns_bind_iff.1 h
    cases hrecord
    cases h
    exact List.mem_cons_self ..

theorem fits_of_inferName {c : Context} {env : TypeEnv} {name : String} {t : Ty} {s s' : State}
    (h : (inferName c env name).Returns s t s') (hnew : knows env name = false) :
    (Use.alone name).Fits c.registry s'.free := by
  intro d v hvariant
  have hget : env.get? name = none := by simpa [knows] using hnew
  obtain ⟨vname, fields⟩ := v
  cases fields with
  | nil => exact .inl rfl
  | cons f fs =>
      refine .inr ?_
      rw [inferName, hget, show c.data.variant? name = some (d, ⟨vname, f :: fs⟩) from hvariant] at h
      cases hop : c.registry.operation? name with
      | none =>
          rw [hop] at h
          exact .inl (mem_free_of_freeName h)
      | some found =>
          rw [hop] at h
          dsimp only at h
          split at h
          · rename_i hempty
            exact .inr ⟨found.1, found.2, rfl, List.isEmpty_iff.1 hempty⟩
          · exact .inl (mem_free_of_freeName h)

mutual

theorem fits_of_infer {c : Context} {env : TypeEnv} {e : Expr} {t : Ty} {s s' : State}
    (h : (infer c env e).Returns s t s') :
    ∀ u ∈ e.uses (knows env), u.Fits c.registry s'.free := by
  cases e with
  | blank | const => exact fun u hu => absurd hu List.not_mem_nil
  | object name =>
      rw [Expr.uses]
      split
      · exact fun u hu => absurd hu List.not_mem_nil
      · rename_i hnew
        exact List.forall_mem_singleton.2 (fits_of_inferName h (by simpa using hnew))
  | operation name args =>
      rw [infer] at h
      obtain ⟨types, s₁, hargs, hcall⟩ := Attempt.returns_bind_iff.1 h
      have hlater := (inferCall_moves (R := State.Recorded) c env name args types).of_returns hcall
      refine List.forall_mem_cons.2
        ⟨fun d v hvariant => ?_, fun u hu => (fitsAll_of_inferList hargs u hu).mono hlater⟩
      rw [inferCall, if_pos (show (c.data.variant? name).isSome = true by
        rw [show c.data.variant? name = some (d, v) from hvariant]; rfl)] at hcall
      have hfits := fits_of_inferConstruction hcall hvariant
      have hlength := length_of_inferList hargs
      rwa [List.length_zip, hlength, Nat.min_self, List.map_fst_zip hlength.ge] at hfits
  | matching scrutinee cases =>
      rw [infer] at h
      split at h
      · cases h
      · obtain ⟨t₁, s₁, hscrutinee, h⟩ := Attempt.returns_bind_iff.1 h
        obtain ⟨result, s₂, hcases, h⟩ := Attempt.returns_bind_iff.1 h
        have hreview : Moves State.Recorded (do
            reviewCases c (.matching scrutinee cases) (← known t₁) (cases.map (·.1))
            known (result.getD .blank)) :=
          (known_moves t₁).bind fun t₂ => (reviewCases_quiet c _ t₂ _).moves.bind fun _ =>
            known_moves _
        have hlast := hreview.of_returns h
        have hlater := (inferCases_moves (R := State.Recorded) c env _ t₁ none cases).of_returns hcases
        rw [Expr.uses]
        intro u hu
        rcases List.mem_append.1 hu with hu | hu
        · exact ((fits_of_infer hscrutinee u hu).mono hlater).mono hlast
        · exact (fitsCases_of_inferCases hcases u hu).mono hlast

theorem fitsAll_of_inferList {c : Context} {env : TypeEnv} {es : List Expr} {ts : List Ty}
    {s s' : State} (h : (inferList c env es).Returns s ts s') :
    ∀ u ∈ Expr.usesList (knows env) es, u.Fits c.registry s'.free := by
  cases es with
  | nil => exact fun u hu => absurd hu List.not_mem_nil
  | cons e es =>
      rw [inferList] at h
      obtain ⟨t, s₁, hfirst, h⟩ := Attempt.returns_bind_iff.1 h
      obtain ⟨us, s₂, hrest, h⟩ := Attempt.returns_bind_iff.1 h
      cases h
      have hlater := (inferList_moves (R := State.Recorded) c env es).of_returns hrest
      rw [Expr.usesList]
      intro u hu
      rcases List.mem_append.1 hu with hu | hu
      · exact (fits_of_infer hfirst u hu).mono hlater
      · exact fitsAll_of_inferList hrest u hu

theorem fitsCases_of_inferCases {c : Context} {env : TypeEnv} {e : Expr} {scrutinee : Ty}
    {result result' : Option Ty} {cases : List (Pattern × Expr)} {s s' : State}
    (h : (inferCases c env e scrutinee result cases).Returns s result' s') :
    ∀ u ∈ Expr.usesCases (knows env) cases, u.Fits c.registry s'.free := by
  match cases with
  | [] => exact fun u hu => absurd hu List.not_mem_nil
  | (p, body) :: rest =>
      rw [inferCases_cons] at h
      obtain ⟨bindings, s₁, hpattern, h⟩ := Attempt.returns_bind_iff.1 h
      obtain ⟨t, s₂, hbody, h⟩ := Attempt.returns_bind_iff.1 h
      obtain ⟨_, s₃, hagree, hrest⟩ := Attempt.returns_bind_iff.1 h
      obtain ⟨typing, supply, hcheck, rfl, -⟩ := returns_bindPattern hpattern
      have hlater := (agree_moves (R := State.Recorded) c body result t).of_returns hagree
      have hlast := (inferCases_moves (R := State.Recorded) c env e scrutinee _ rest).of_returns hrest
      have hfits := fits_of_infer hbody
      rw [knows_extend (Pattern.isSome_bindings_of_check hcheck)] at hfits
      rw [Expr.usesCases]
      intro u hu
      rcases List.mem_append.1 hu with hu | hu
      · rcases List.mem_append.1 hu with hu | hu
        · obtain ⟨a, ha, rfl⟩ := List.mem_map.1 hu
          exact Pattern.hasArity_of_check hcheck a ha
        · exact ((hfits u hu).mono hlater).mono hlast
      · exact fitsCases_of_inferCases hrest u hu

end

end Inference

namespace Checker

/-- In an expression that passes, a constructor that is applied has one argument for each field, or it
takes its dimensions and its elements; one that stands alone has no fields, unless its name is taken
for one that nothing declares or for an operation. -/
theorem uses_fit {c c' : Checker} {e : Expr} {verdict : Verdict}
    (h : (check e).Returns c verdict c') :
    ∀ u ∈ e.uses (Inference.knows c.env), u.Fits c.registry c'.inference.free := by
  obtain ⟨t, s, hinfer, -, lines, hstate⟩ := Inference.returns_inferExpr (returns_check h)
  rw [hstate]
  exact Inference.fits_of_infer hinfer

/-- Something or nothing, and rows of a length. -/
def containers : List Declaration :=
  [.data ⟨"Option", ["T"], [⟨"None", []⟩, ⟨"Some", [⟨none, .named "T"⟩]⟩]⟩,
    .data ⟨"Type", [], [⟨"Vector", [⟨some "n", .named "Nat"⟩, ⟨some "T", .named "Type"⟩]⟩]⟩]

def containing : Checker := ((load containers).outcome bare).2

/-- A row of two that is given by its elements. -/
def unpacking : Expr :=
  .matching (.operation "Vector" [.const "2", .object "x", .const "1"])
    [(.constructor "Vector" [.var "n", .var "v"], .object "v")]

set_option maxRecDepth 4000 in
def unpackingPasses : containing.Passing := ⟨unpacking, ⟨.scalar, []⟩, by cbv⟩

theorem uses_fit_unpacking :
    ((check unpacking).outcome containing).1 = .ok ⟨.scalar, []⟩ ∧
      ∀ u ∈ unpacking.uses (Inference.knows containing.env),
        u.Fits containing.registry ((check unpacking).outcome containing).2.inference.free :=
  ⟨unpackingPasses.passes.1, uses_fit unpackingPasses.returns⟩

/-- The name of a constructor with a field passes on its own, with any type. -/
theorem check_constructor_alone :
    ((check (.object "Some")).outcome containing).1 = .ok ⟨.var 0, []⟩ ∧
      Use.alone "Some" ∈ (Expr.object "Some").uses (Inference.knows containing.env) ∧
      (containing.registry.data.variant? "Some").map (·.2.fields.length) = some 1 := by
  refine ⟨?_, ?_, ?_⟩
  · cbv
  · cbv
    exact List.mem_cons_self ..
  · cbv

end Checker

end Formulary
