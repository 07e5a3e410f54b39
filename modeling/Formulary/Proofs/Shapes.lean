import Formulary.Proofs.Arity
import Formulary.Proofs.CallArity
import Formulary.Proofs.Counting

namespace Formulary

/-- Numbers as dimensions. -/
def dimensionTypes (counts : List Nat) : List Ty := counts.map fun n : Nat => .nat n

@[simp] theorem dimensionTypes_nil : dimensionTypes [] = [] := rfl

@[simp] theorem dimensionTypes_cons (n : Nat) (counts : List Nat) :
    dimensionTypes (n :: counts) = .nat n :: dimensionTypes counts := rfl

@[simp] theorem length_dimensionTypes (counts : List Nat) :
    (dimensionTypes counts).length = counts.length := List.length_map _

namespace DataTypes

/-- A variant of the type of types that is declared with dimensions in front of one value. -/
structure HasShape (r : DataTypes) (name : String) (dims : List Field) (last : Field) : Prop where
  variant : ∃ d v, r.variant? name = some (d, v) ∧ d.name = Ty.metaName ∧ v.fields = dims ++ [last]
  nonempty : dims ≠ []
  dimension : ∀ f ∈ dims, r.resolveClosed [] f.type = .ok (.prim .nat)
  element : ∃ t, r.resolveClosed [] last.type = .ok t ∧ t.paramKind = .type

variable {r : DataTypes} {name : String} {dims : List Field} {last : Field} {u u' : Supply}

theorem returns_metaField_dimension {f : Field} {g : FieldInstance}
    (hf : r.resolveClosed [] f.type = .ok (.prim .nat))
    (h : Attempt.Returns (r.metaField f) u g u') : g.kind = .dimension ∧ ∃ x, g.type = .var x := by
  obtain ⟨t, u₁, hresolve, h⟩ := Attempt.returns_bind_iff.1 h
  rw [Attempt.Returns, Attempt.outcome_liftExcept, hf, Prod.mk.injEq] at hresolve
  cases hresolve.1
  cases h
  exact ⟨rfl, _, rfl⟩

theorem HasShape.of_instantiate (hshape : r.HasShape name dims last) {v : VariantInstance}
    (h : Attempt.Returns (r.instantiate name) u v u') :
    v.isShaped = true ∧ ∃ (front : List FieldInstance) (final : FieldInstance),
      v.fields = front ++ [final] ∧ front.length = dims.length ∧
        ∀ f ∈ front, f.kind = .dimension ∧ ∃ x : Int, f.type = .var x := by
  obtain ⟨d, w, hvariant, howner, hfields⟩ := hshape.variant
  unfold instantiate at h
  rw [hvariant] at h
  dsimp only at h
  rw [if_pos howner, hfields] at h
  obtain ⟨fields, u₁, hrun, h⟩ := Attempt.returns_bind_iff.1 h
  cases h
  obtain ⟨front, final, rfl, hfront, u₂, u₃, hfinal⟩ :=
    Inference.exists_declared_of_forall₂ (Attempt.returns_mapM hrun).flip
  have hdims : ∀ f ∈ front, f.kind = .dimension ∧ ∃ x, f.type = .var x := by
    intro g hg
    obtain ⟨f, hf, u₂, u₃, hfield⟩ := exists_of_forall₂ hfront.flip hg
    exact returns_metaField_dimension (hshape.dimension f hf) hfield
  obtain ⟨t, ht, hkind⟩ := hshape.element
  obtain ⟨t', ht', hfinal⟩ := kind_of_metaField hfinal
  cases ht.symm.trans ht'
  refine ⟨?_, front, final, rfl, hfront.length_eq, hdims⟩
  have htwo : 2 ≤ (front ++ [final]).length := by
    have hpos := List.length_pos_of_ne_nil hshape.nonempty
    have hsame := hfront.length_eq
    rw [List.length_append, List.length_singleton]
    omega
  simp only [VariantInstance.isShaped, howner, List.reverse_append, List.reverse_singleton,
    List.singleton_append, hfinal, hkind, htwo, decide_true, Bool.true_and, List.all_reverse]
  exact List.all_eq_true.2 fun f hf => decide_eq_true (hdims f hf).1

theorem fieldsOfMeta_dimensionTypes
    (hdims : ∀ f ∈ dims, r.resolveClosed [] f.type = .ok (.prim .nat)) {counts : List Nat}
    (hlength : counts.length = dims.length) :
    List.Forall₂ r.FieldOfMeta dims (dimensionTypes counts) := by
  induction dims generalizing counts with
  | nil =>
      obtain rfl : counts = [] := List.eq_nil_of_length_eq_zero hlength
      exact .nil
  | cons f dims ih =>
      cases counts with
      | nil => cases hlength
      | cons n counts =>
          obtain ⟨hf, hdims⟩ := List.forall_mem_cons.1 hdims
          refine .cons ⟨_, hf, ?_⟩ (ih hdims (Nat.succ.inj hlength))
          rw [if_neg (by decide)]
          rfl

/-- Natural numbers and a type that the last field takes make up a type. -/
theorem HasShape.builds (hshape : r.HasShape name dims last) {counts : List Nat}
    (hlength : counts.length = dims.length) {t : Ty} (ht : r.FieldOfMeta last t) :
    r.Builds name (dimensionTypes counts ++ [t])
      (.variant name (dimensionTypes counts ++ [t])) := by
  obtain ⟨d, v, hvariant, howner, hfields⟩ := hshape.variant
  refine .ofMeta hvariant howner ?_
  rw [hfields]
  exact List.rel_append (fieldsOfMeta_dimensionTypes hshape.dimension hlength) (.cons ht .nil)

theorem HasShape.exists_fieldOfMeta (hshape : r.HasShape name dims last) :
    ∃ t, r.FieldOfMeta last t := by
  obtain ⟨declared, hdeclared, -⟩ := hshape.element
  by_cases hown : isDeclared declared = true
  · exact ⟨declared, declared, hdeclared, by rw [if_pos hown]⟩
  · exact ⟨.scalar, declared, hdeclared, by rw [if_neg hown]; rfl⟩

end DataTypes

namespace Inference

theorem areElements_iff {v : VariantInstance} (hshaped : v.isShaped = true)
    {literals elements : List Expr} {counts : List Nat}
    (hfields : v.fields.length = literals.length + 1)
    (hliterals : List.Forall₂ Expr.IsNumeral literals counts)
    (hfew : (literals ++ elements).length < 2 ^ 63) :
    areElements v (literals ++ elements) = true ↔
      elements.length = counts.prod ∧ StaysWithin (literals ++ elements).length counts := by
  have hpos : 0 < (literals ++ elements).length := by
    have htwo : 2 ≤ v.fields.length := by
      simp only [VariantInstance.isShaped, Bool.and_eq_true, decide_eq_true_eq] at hshaped
      exact hshaped.1.2
    rw [List.length_append]
    omega
  have hcounted : ∀ count,
      (literals.mapM dimension? >>= elementCount? (literals ++ elements).length) = some count ↔
        count = counts.prod ∧ StaysWithin (literals ++ elements).length counts := by
    intro count
    rw [← elementCount?_eq_some_iff hpos, Option.bind_eq_bind, Option.bind_eq_some_iff]
    constructor
    · rintro ⟨dims, hdims, hcount⟩
      obtain ⟨rfl, -⟩ := (mapM_dimension?_eq_some_iff hliterals).1 hdims
      exact hcount
    · intro hcount
      obtain ⟨-, hle, -⟩ := (elementCount?_eq_some_iff hpos).1 hcount
      exact ⟨counts, (mapM_dimension?_eq_some_iff hliterals).2
        ⟨rfl, fun n hn => (hle n hn).trans_lt hfew⟩, hcount⟩
  rw [areElements, hfields, Nat.add_sub_cancel, List.take_left, hshaped, Bool.true_and,
    Bool.and_eq_true, decide_eq_true_eq]
  constructor
  · rintro ⟨-, h⟩
    split at h
    · rename_i count hcount
      obtain ⟨rfl, hwithin⟩ := (hcounted count).1 hcount
      have hlength := of_decide_eq_true h
      rw [List.length_append] at hlength
      exact ⟨Nat.add_left_cancel hlength, hwithin⟩
    · cases h
  · rintro ⟨hlength, hwithin⟩
    refine ⟨by simp, ?_⟩
    rw [(hcounted counts.prod).2 ⟨rfl, hwithin⟩]
    exact decide_eq_true (by rw [List.length_append, hlength])

/-- Steps that find out a condition on the types of variables, and succeed where it can be met. -/
structure Decides (P : Upward) (steps : Infer Unit) (C : Valuation → Prop) : Prop where
  finds : Finds inferView P steps (fun _ => ⊤) (fun _ _ => ()) fun θ _ _ => C θ
  succeeds : Succeeds inferView P steps fun θ _ (_ : Unit) => C θ

namespace Decides

variable {P P' : Upward} {steps next : Infer Unit} {C C' : Valuation → Prop}

theorem of_pre (h : Decides P steps C) (hP : ∀ n, P' n → P n) : Decides P' steps C :=
  ⟨h.finds.of_pre hP, h.succeeds.of_pre hP⟩

theorem congr (h : Decides P steps C) (hC : ∀ θ, C θ ↔ C' θ) : Decides P steps C' where
  finds := h.finds.congr fun _ _ _ θ _ _ _ => hC θ
  succeeds := h.succeeds.imp fun _ _ _ θ _ _ _ hc => ⟨(), (hC θ).2 hc⟩

theorem nothing : Decides P (pure ()) fun _ => True where
  finds := Finds.pure (fun _ _ => trivial) fun _ _ _ _ _ _ _ => by simp
  succeeds := .of_returns fun s => ⟨(), s, rfl⟩

theorem andThen (h : Decides P steps C) (h' : Decides P next C')
    (hlocal : ∀ n, P n → ∀ θ θ', Valuation.AgreesBelow n θ θ' → C' θ = C' θ') :
    Decides P (steps >>= fun _ => next) fun θ => C θ ∧ C' θ where
  finds := h.finds.before (fun _ => id) (fun _ => h'.finds.of_pre fun _ hn => hn.1)
    fun n hn θ θ' hagree => funext fun _ => funext fun _ => hlocal n hn θ θ' hagree
  succeeds := Succeeds.imp (h.succeeds.bind (K := fun θ _ _ (_ : Unit) => C' θ) h.finds
    (fun _ => h'.finds.grows) (fun _ => h'.succeeds.of_pre fun _ hn => hn.1)
    fun n hn θ θ' hagree => funext fun _ => funext fun _ => funext fun _ =>
      hlocal n hn θ θ' hagree) fun _ _ _ _ _ _ _ hc => ⟨(), (), hc⟩

end Decides

theorem unify_decides (c : Context) (a b : Ty) :
    Decides (a.inScope ⊓ b.inScope) (unify c a b) fun θ => a.bind θ = b.bind θ :=
  ⟨unify_finds c a b, unify_succeeds c a b⟩

theorem blaming_decides {P : Upward} {e : Expr} {steps : Infer Unit} {C : Valuation → Prop}
    (h : Decides P steps C) : Decides P (blaming e steps) C :=
  ⟨blaming_finds h.finds, blaming_succeeds h.succeeds⟩

theorem bindField_dimension (c : Context) (v : VariantInstance) (index : Nat) {f : FieldInstance}
    (hf : f.kind = .dimension ∧ ∃ x, f.type = .var x) {arg : Expr} {n : Nat}
    (hn : dimension? arg = some n) (t : Ty) :
    bindField c v index f arg t = unify c f.type (.nat n) := by
  obtain ⟨hkind, x, hx⟩ := hf
  have hliteral : literal? .dimension arg = some (.nat n) := by
    rw [literal?, hn]
    rfl
  unfold bindField
  rw [hkind, if_neg (by decide), hliteral]
  simp only [hx]

theorem bindFields_dimensions_decides (c : Context) (v : VariantInstance) (index : Nat)
    {fields : List FieldInstance}
    (hfields : ∀ f ∈ fields, f.kind = .dimension ∧ ∃ x, f.type = .var x)
    {args : List (Expr × Ty)} {counts : List Nat}
    (hargs : args.map (fun a => dimension? a.1) = counts.map some)
    (hlength : fields.length = counts.length) :
    Decides (fieldsInScope fields) (bindFields c v index fields args) fun θ =>
      fields.map (·.type.bind θ) = dimensionTypes counts := by
  induction fields generalizing index args counts with
  | nil =>
      obtain rfl : counts = [] := List.eq_nil_of_length_eq_zero hlength.symm
      obtain rfl : args = [] := List.map_eq_nil_iff.1 hargs
      rw [bindFields]
      · exact Decides.nothing.congr fun θ => by simp
      · simp
  | cons field fields ih =>
      cases counts with
      | nil => cases hlength
      | cons n counts =>
          cases args with
          | nil => cases hargs
          | cons arg args =>
              obtain ⟨hfield, hfields⟩ := List.forall_mem_cons.1 hfields
              obtain ⟨harg, hargs⟩ := List.cons.inj hargs
              rw [bindFields, bindField_dimension c v index hfield harg]
              have hfirst : Decides (fieldsInScope (field :: fields)) _ _ :=
                (unify_decides c field.type (.nat n)).of_pre fun m hm =>
                  ⟨(every_cons.1 hm).1, Ty.within_nat _⟩
              have hrest : Decides (fieldsInScope (field :: fields)) _ _ :=
                (ih (index + 1) hfields hargs (Nat.succ.inj hlength)).of_pre fun m hm =>
                  (every_cons.1 hm).2
              refine (hfirst.andThen hrest fun m hm θ θ' hagree => ?_).congr fun θ => ?_
              · rw [List.map_congr_left fun f hf =>
                  hagree.bind_eq (hm f (List.mem_cons_of_mem _ hf))]
              · rw [List.map_cons, dimensionTypes_cons, List.cons.injEq]
                exact Iff.rfl

theorem bindElements_decides (c : Context) (element : Ty) (args : List (Expr × Ty)) :
    Decides (element.inScope ⊓ argsInScope args) (bindElements c element args) fun θ =>
      ∀ a ∈ args, element.bind θ = a.2.bind θ := by
  induction args with
  | nil => exact Decides.nothing.congr fun θ => by simp
  | cons arg args ih =>
      rw [bindElements]
      have hfirst : Decides (element.inScope ⊓ argsInScope (arg :: args))
          (blaming arg.1 (unify c element arg.2)) _ :=
        blaming_decides ((unify_decides c element arg.2).of_pre fun n h =>
          ⟨h.1, (every_cons.1 h.2).1⟩)
      have hrest : Decides (element.inScope ⊓ argsInScope (arg :: args)) _ _ :=
        ih.of_pre fun n h => ⟨h.1, (every_cons.1 h.2).2⟩
      refine (hfirst.andThen hrest fun n h θ θ' hagree => ?_).congr fun θ => ?_
      · refine propext (forall₂_congr fun a ha => ?_)
        rw [hagree.bind_eq h.1, hagree.bind_eq (h.2 a (List.mem_cons_of_mem _ ha))]
      · rw [List.forall_mem_cons]

section Elements

variable {c : Context} {e : Expr} {name : String} {dims : List Field} {last : Field}
  {args : List (Expr × Ty)} {counts : List Nat}

theorem elements_succeeds {v : VariantInstance} {front : List FieldInstance} {final : FieldInstance}
    (hfields : v.fields = front ++ [final])
    (hopen : ∀ f ∈ front, f.kind = .dimension ∧ ∃ x, f.type = .var x)
    (hcounts : (args.take front.length).map (fun a => dimension? a.1) = counts.map some)
    (hlength : front.length = counts.length) :
    Succeeds inferView (v.inScope ⊓ argsInScope args) (do
      let dims := v.fields.length - 1
      blaming e (bindFields c v 0 (v.fields.take dims) (args.take dims))
      bindElements c ((v.fields.getLast?.map (·.type)).getD .blank) (args.drop dims)
      known v.result) fun θ _ (t : Ty) =>
        v.fields.map (·.type.bind θ) = dimensionTypes counts ++ [t] ∧
          ∀ a ∈ args.drop front.length, a.2.bind θ = t := by
  have hdims : v.fields.length - 1 = front.length := by simp [hfields]
  have hfinal : (v.fields.getLast?.map (·.type)).getD .blank = final.type := by
    rw [hfields, List.getLast?_concat]
    rfl
  dsimp only
  rw [hdims, hfinal, hfields, List.take_left]
  have hfirst : Decides (v.inScope ⊓ argsInScope args)
      (blaming e (bindFields c v 0 front (args.take front.length))) _ :=
    (blaming_decides (bindFields_dimensions_decides c v 0 hopen hcounts hlength)).of_pre
      fun n h f hf => h.1.2 f (by simp [hfields, hf])
  have hrest : Decides (v.inScope ⊓ argsInScope args)
      (bindElements c final.type (args.drop front.length)) _ :=
    (bindElements_decides c final.type _).of_pre fun n h =>
      ⟨h.1.2 final (by simp [hfields]), fun a ha => h.2 a (List.mem_of_mem_drop ha)⟩
  have hboth := hfirst.andThen hrest fun n h θ θ' hagree => propext (forall₂_congr fun a ha => by
    rw [hagree.bind_eq (h.1.2 final (by simp [hfields])),
      hagree.bind_eq (h.2 a (List.mem_of_mem_drop ha))])
  rw [← bind_assoc]
  refine Succeeds.imp (hboth.succeeds.bind_returns (fun _ s => (known_keeps v.result).grows s)
    fun _ s => returns_known v.result s) fun s _ _ θ D t _ hsame => ⟨(), ?_⟩
  rw [List.map_append, List.map_singleton] at hsame
  obtain ⟨⟨hfront, hlast⟩, helements⟩ :=
    And.imp_left (fun h => List.append_inj h (by simp [hlength])) hsame
  refine ⟨hfront, fun a ha => ?_⟩
  rw [helements a ha]
  exact List.singleton_inj.1 hlast

theorem inferConstruction_elements_succeeds (e : Expr) (hshape : c.data.HasShape name dims last)
    (hcounts : (args.take dims.length).map (fun a => dimension? a.1) = counts.map some)
    (hlength : counts.length = dims.length) (hnumber : args.length ≠ dims.length + 1)
    (helements : ∀ v : VariantInstance, v.isShaped = true → v.fields.length = dims.length + 1 →
      areElements v (args.map (·.1)) = true) :
    Succeeds inferView (Known (c.data.isWhole = true) ⊓ argsInScope args)
      (inferConstruction c e name args) fun θ _ (t : Ty) =>
        c.data.FieldOfMeta last t ∧ ∀ a ∈ args.drop dims.length, a.2.bind θ = t := by
  have hvariant := (c.data.instantiate_finds name).and_known
    fun s v s' hrun _ _ _ => hshape.of_instantiate hrun
  have hinstance : Succeeds freshView (Known (c.data.isWhole = true)) (c.data.instantiate name)
      fun _ _ (b : List Ty × Ty) => c.data.Builds name b.1 b.2 :=
    fun s _ _ _ _ _ b _ hbuilds => DataTypes.returns_instantiate_of_builds hbuilds s
  unfold inferConstruction
  refine Succeeds.imp ((blaming_succeeds (fresh_succeeds hinstance)).followedBy (K := fun θ b _ t =>
    b.1 = dimensionTypes counts ++ [t] ∧ ∀ a ∈ args.drop dims.length, a.2.bind θ = t)
    (blaming_finds (fresh_finds hvariant)) (fun n h => h.1)
    (fun v s => (arguments_keeps c e name args v).grows s) (fun v => ?_)
    fun n h θ θ' hagree => ?_) fun s _ _ θ D t _ hsame =>
      ⟨t, (_, _), hshape.builds hlength hsame.1, rfl, hsame.2⟩
  · refine Succeeds.of_known (fun n h => h.2.2) fun hv => ?_
    obtain ⟨hshaped, front, final, hfields, hfront, hopen⟩ := hv
    have hnumbered : v.fields.length = dims.length + 1 := by
      rw [hfields, List.length_append, hfront, List.length_singleton]
    rw [if_neg (hnumbered ▸ hnumber), if_pos (helements v hshaped hnumbered)]
    rw [← hfront] at hcounts hlength ⊢
    exact (elements_succeeds hfields hopen hcounts hlength.symm).of_pre fun n h => ⟨h.2.1, h.1.2⟩
  · have hargs : ∀ a ∈ args.drop dims.length, a.2.bind θ = a.2.bind θ' := fun a ha =>
      hagree.bind_eq (h.2 a (List.mem_of_mem_drop ha))
    funext b D t
    refine congrArg _ (propext (forall₂_congr fun a ha => ?_))
    rw [hargs a ha]

theorem inferConstruction_elements_refused (e : Expr) (hshape : c.data.HasShape name dims last)
    (hnumber : args.length ≠ dims.length + 1)
    (helements : ∀ v : VariantInstance, v.isShaped = true → v.fields.length = dims.length + 1 →
      areElements v (args.map (·.1)) = false) (s : State) :
    ∃ s', (inferConstruction c e name args).outcome s =
      (.error (.constructorArity name (dims.length + 1) args.length), s') := by
  obtain ⟨t, ht⟩ := hshape.exists_fieldOfMeta
  have hlength : (dims.map fun _ => 0).length = dims.length := List.length_map _
  have hbuilds := hshape.builds hlength ht
  obtain ⟨v, supply, hrun⟩ := DataTypes.returns_instantiate_of_builds hbuilds s.supply
  obtain ⟨hshaped, front, final, hfields, hfront, -⟩ := hshape.of_instantiate hrun
  have hnumbered : v.fields.length = dims.length + 1 := by
    rw [hfields, List.length_append, hfront, List.length_singleton]
  have hfirst : (blaming e (fresh (c.data.instantiate name))).Returns s v { s with supply } := by
    refine returns_blaming.2 ?_
    rw [Attempt.Returns, outcome_fresh, hrun]
  rw [inferConstruction, Attempt.outcome_bind, hfirst]
  dsimp only
  rw [if_neg (hnumbered ▸ hnumber), if_neg (by simp [helements v hshaped hnumbered]), failAt_bind,
    hnumbered]
  exact ⟨_, rfl⟩

end Elements

theorem returns_inferList_literals {c : Context} {env : TypeEnv} {literals elements : List Expr}
    {counts : List Nat} (hliterals : List.Forall₂ Expr.IsNumeral literals counts) {s s' : State}
    {ts : List Ty} (h : (inferList c env elements).Returns s ts s') :
    (inferList c env (literals ++ elements)).Returns s (literals.map (fun _ => Ty.scalar) ++ ts)
      s' := by
  induction hliterals with
  | nil => exact h
  | @cons e n es ns he _ ih =>
      obtain ⟨digits, -, -, rfl, -⟩ := he
      rw [List.cons_append, inferList]
      exact Attempt.returns_bind_iff.2
        ⟨.scalar, s, rfl, Attempt.returns_bind_iff.2 ⟨_, s', ih, rfl⟩⟩

/-- Dimensions and elements with their types. -/
def typedElements (literals elements : List Expr) (ts : List Ty) : List (Expr × Ty) :=
  literals.map (fun e => (e, Ty.scalar)) ++ elements.zip ts

theorem map_fst_typedElements {literals elements : List Expr} {ts : List Ty}
    (hlength : ts.length = elements.length) :
    (typedElements literals elements ts).map (·.1) = literals ++ elements := by
  rw [typedElements, List.map_append, List.map_fst_zip hlength.ge, List.map_map]
  exact congrArg (· ++ elements) (List.map_id literals)

theorem outcome_infer_elements {c : Context} {env : TypeEnv} {name : String} {dims : List Field}
    {last : Field} {literals elements : List Expr} {counts : List Nat}
    (hshape : c.data.HasShape name dims last)
    (hliterals : List.Forall₂ Expr.IsNumeral literals counts) {s s' : State} {ts : List Ty}
    (h : (inferList c env elements).Returns s ts s') :
    (infer c env (.operation name (literals ++ elements))).outcome s =
      (inferConstruction c (.operation name (literals ++ elements)) name
        (typedElements literals elements ts)).outcome s' := by
  obtain ⟨d, v, hvariant, -, -⟩ := hshape.variant
  have hsome : (c.data.variant? name).isSome = true := by rw [hvariant, Option.isSome_some]
  have hzip : (literals ++ elements).zip (literals.map (fun _ => Ty.scalar) ++ ts) =
      typedElements literals elements ts := by
    rw [List.zip_append (List.length_map _).symm, List.map_prod_left_eq_zip.symm, typedElements]
  rw [infer, Attempt.outcome_bind, returns_inferList_literals hliterals h]
  dsimp only
  rw [inferCall, if_pos hsome, hzip]

theorem admits_apply {s : State} (hs : s.Sound) {σ : Valuation} (hσ : σ.IsMono) :
    ∃ D, s.Admits (fun x => (s.subst.image x).bind σ) D := by
  have hmono : Valuation.IsMono fun x => (s.subst.image x).bind σ := fun x =>
    Ty.isMono_bind (hs.subst.2.monoRange x) fun y _ => hσ y
  refine ⟨fun name => (s.free.lookup name).map fun x => (s.subst.image x).bind σ, hmono, ?_, ?_, ?_⟩
  · intro name t ht
    obtain ⟨x, -, rfl⟩ := Option.map_eq_some_iff.1 ht
    exact hmono x
  · intro x
    rw [← Ty.bind_bind _ _ (hs.subst.2.monoRange x), hs.subst.1.bind_image]
  · intro name x hx
    rw [hx, Option.map_some]

section

variable {c : Context} {name : String} {dims : List Field} {last : Field}
  {literals elements : List Expr} {counts : List Nat} {ts : List Ty} {s : State}
  (hliterals : List.Forall₂ Expr.IsNumeral literals counts)
  (hlength : literals.length = dims.length) (hts : ts.length = elements.length)
  (hfew : (literals ++ elements).length < 2 ^ 63)

include hts in
theorem length_typedElements :
    (typedElements literals elements ts).length = literals.length + elements.length := by
  rw [← List.length_map (·.1), map_fst_typedElements hts, List.length_append]

include hliterals hlength hts hfew

theorem areElements_typedElements {v : VariantInstance} (hshaped : v.isShaped = true)
    (hfields : v.fields.length = dims.length + 1) :
    areElements v ((typedElements literals elements ts).map (·.1)) = true ↔
      elements.length = counts.prod ∧ StaysWithin (literals ++ elements).length counts := by
  rw [map_fst_typedElements hts]
  exact areElements_iff hshaped (hlength ▸ hfields) hliterals hfew

variable (hshape : c.data.HasShape name dims last) (hnumber : elements.length ≠ 1) (e : Expr)

include hshape hnumber

theorem returns_typedElements
    (hcount : elements.length = counts.prod ∧ StaysWithin (literals ++ elements).length counts)
    (hs : s.Sound) (hu : ((inferConstruction c e name
      (typedElements literals elements ts)).outcome s).2.supply.Unwrapped)
    (hwhole : c.data.isWhole = true) (hscope : Every Ty.inScope ts s.supply.next) {σ : Valuation}
    (hσ : σ.IsMono) {t : Ty} (ht : c.data.FieldOfMeta last t)
    (hsame : ∀ u ∈ ts, (s.subst.apply u).bind σ = t) :
    ∃ u s', (inferConstruction c e name (typedElements literals elements ts)).Returns s u s' := by
  have htyped : (literals.map fun e => (e, Ty.scalar)).length = dims.length := by
    rw [List.length_map, hlength]
  have hcounts : literals.mapM dimension? = some counts :=
    (mapM_dimension?_eq_some_iff hliterals).2 ⟨rfl, fun n hn => (hcount.2.1 n hn).trans_lt hfew⟩
  have hnumbers : ((typedElements literals elements ts).take dims.length).map
      (fun a => dimension? a.1) = counts.map some := by
    rw [← htyped, typedElements, List.take_left, List.map_map]
    exact map_eq_of_mapM hcounts
  have helements : (typedElements literals elements ts).drop dims.length = elements.zip ts := by
    rw [← htyped, typedElements, List.drop_left]
  obtain ⟨D, hadmits⟩ := admits_apply hs hσ
  refine inferConstruction_elements_succeeds e hshape hnumbers ?_ ?_ (fun v hshaped hfields =>
    (areElements_typedElements hliterals hlength hts hfew hshaped hfields).2 hcount) s hs hu
    ⟨hwhole, fun a ha => ?_⟩ _ D t hadmits ⟨ht, fun a ha => ?_⟩
  · rw [← hliterals.length_eq, hlength]
  · rw [length_typedElements hts, hlength]
    omega
  · rcases List.mem_append.1 ha with ha | ha
    · obtain ⟨e, -, rfl⟩ := List.mem_map.1 ha
      exact Ty.within_scalar
    · exact hscope a.2 (List.of_mem_zip ha).2
  · rw [helements] at ha
    have hmem := (List.of_mem_zip ha).2
    rw [← hsame a.2 hmem, Subst.apply_eq_bind, Ty.bind_bind _ _ (hscope a.2 hmem).1]

theorem refuses_typedElements
    (hcount : ¬(elements.length = counts.prod ∧ StaysWithin (literals ++ elements).length counts))
    (s : State) :
    ∃ s', (inferConstruction c e name (typedElements literals elements ts)).outcome s =
      (.error (.constructorArity name (dims.length + 1) (literals.length + elements.length)),
        s') := by
  rw [← length_typedElements hts]
  refine inferConstruction_elements_refused e hshape ?_ (fun v hshaped hfields => ?_) s
  · rw [length_typedElements hts, hlength]
    omega
  · exact Bool.eq_false_iff.2 fun h => hcount
      ((areElements_typedElements hliterals hlength hts hfew hshaped hfields).1 h)

end

end Inference

namespace Checker

/-- Expressions have types, and these can be one type that a field takes. -/
def OfOneType (c : Checker) (field : Field) (es : List Expr) : Prop :=
  ∃ ts s, (Inference.inferList c.context c.env es).Returns c.inference.reset ts s ∧
    ∃ (σ : Valuation) (t : Ty), σ.IsMono ∧ c.registry.data.FieldOfMeta field t ∧
      ∀ u ∈ ts, (s.subst.apply u).bind σ = t

theorem not_accepts_of_refuses {c : Checker} {e : Expr} {kind : FaultKind} (h : c.Refuses e kind) :
    ¬c.Accepts e := by
  rintro ⟨v, hv⟩
  obtain ⟨error, herror, -⟩ := h
  cases hv.symm.trans herror

theorem accepts_of_infer {c : Checker} {e : Expr} {t : Ty} {s : Inference.State} (hc : c.Sound)
    (he : e.isWhole = true) (hu : s.supply.Unwrapped)
    (h : (Inference.infer c.context c.env e).Returns c.inference.reset t s) : c.Accepts e := by
  have hne : e ≠ .blank := by
    rintro rfl
    cases he
  obtain ⟨hs, -, -⟩ := (Inference.infer_keeps c.context c.env e).of_returns h hu
    hc.inference.reset ⟨⟨hc.registry, hc.env.1.inScope _⟩, he⟩
  have hs : s.Sound := hs
  obtain ⟨lines, hsettle⟩ := Inference.outcome_settleType c.context e t
    (hs.subst.1.isIdempotent hs.subst.2.monoRange)
  have hexpr := Inference.outcome_inferExpr c.context c.env hne c.inference
  rw [Attempt.outcome_bind, h] at hexpr
  exact ⟨_, congrArg Prod.fst (outcome_check_of_ok (hexpr.trans hsettle))⟩

/-- A constructor with a shape that is given its dimensions as literals, and elements of one type,
is accepted with as many elements as the dimensions multiply to, and refused for the number of its
arguments otherwise. Only where a dimension is zero there is more to it: no dimension, and no number
of elements up to some dimension, may then be above the number of arguments. Numbers of sixty-four
bits are enough to count with, as long as the number of arguments has no more than half of them. -/
theorem shape_accepted_iff {c : Checker} (hc : c.Reachable) {name : String} {dims : List Field}
    {last : Field} (hshape : c.registry.data.HasShape name dims last)
    {literals elements : List Expr} {counts : List Nat}
    (hliterals : List.Forall₂ Expr.IsNumeral literals counts)
    (hlength : literals.length = dims.length) (helements : c.OfOneType last elements)
    (hnumber : elements.length ≠ 1) (hfew : (literals ++ elements).length < 2 ^ 63)
    (hu : ((check (.operation name (literals ++ elements))).outcome c).2.Unexhausted) :
    (c.Accepts (.operation name (literals ++ elements)) ↔ elements.length = counts.prod ∧
      (0 ∈ counts → Inference.StaysWithin (literals ++ elements).length counts)) ∧
    (¬c.Accepts (.operation name (literals ++ elements)) →
      c.Refuses (.operation name (literals ++ elements)) .arityMismatch) ∧
    ((literals ++ elements).length * (literals ++ elements).length < 2 ^ 63 →
      Inference.wordCount? (literals ++ elements).length counts =
        (Inference.elementCount? (literals ++ elements).length counts).map
          fun n : Nat => (n : Int)) := by
  have hu := hc.unwrapped_of_le ((check_keeps _).grows c) hu
  have hsound := hc.sound (hu.of_le ((check_keeps _).grows c))
  have hu := hu.of_le
    (supply_le_check c (e := .operation name (literals ++ elements)) Expr.noConfusion)
  obtain ⟨ts, s, hlist, σ, t, hσ, ht, hsame⟩ := helements
  have hshape : c.context.data.HasShape name dims last := hshape
  have hts := Inference.length_of_inferList hlist
  have hwhole : (Expr.operation name (literals ++ elements)).isWhole = true :=
    Inference.isWholeList_of_inferList (Inference.returns_inferList_literals hliterals hlist)
  have hcall := Inference.outcome_infer_elements hshape hliterals hlist
  have hu₁ := hcall ▸ hu
  have hus : s.supply.Unwrapped :=
    hu₁.of_le ((Inference.inferConstruction_keeps c.context _ name _).grows s)
  obtain ⟨hs, hscope, -⟩ := (Inference.inferList_keeps c.context c.env elements).of_returns hlist
    hus hsound.inference.reset
    ⟨⟨hsound.registry, hsound.env.1.inScope _⟩, Inference.isWholeList_of_inferList hlist⟩
  have hcount : (elements.length = counts.prod ∧
      (0 ∈ counts → Inference.StaysWithin (literals ++ elements).length counts)) ↔
      elements.length = counts.prod ∧
        Inference.StaysWithin (literals ++ elements).length counts := by
    refine and_congr_right fun hprod => ⟨fun h => ?_, fun h _ => h⟩
    by_cases hzero : 0 ∈ counts
    · exact h hzero
    · exact Inference.staysWithin_of_prod_le hzero (by rw [← hprod, List.length_append]; omega)
  have haccepts : elements.length = counts.prod ∧
      Inference.StaysWithin (literals ++ elements).length counts →
        c.Accepts (.operation name (literals ++ elements)) := by
    intro h
    obtain ⟨u, s', hrun⟩ := Inference.returns_typedElements hliterals hlength hts hfew hshape
      hnumber (.operation name (literals ++ elements)) h hs hu₁
      (Registry.isWhole_data hsound.registry) hscope hσ ht hsame
    exact accepts_of_infer hsound hwhole (by rwa [hrun] at hu₁) (hcall.trans hrun)
  have hrefuses : ¬(elements.length = counts.prod ∧
      Inference.StaysWithin (literals ++ elements).length counts) →
        c.Refuses (.operation name (literals ++ elements)) .arityMismatch := by
    intro h
    obtain ⟨s', hrun⟩ := Inference.refuses_typedElements hliterals hlength hts hfew hshape
      hnumber (.operation name (literals ++ elements)) h s
    exact (refuses_iff hsound hwhole hu).2 ⟨_, congrArg Prod.fst (hcall.trans hrun), rfl⟩
  have haccepts_iff := Iff.intro
    (fun h => by_contra fun hnot => not_accepts_of_refuses (hrefuses hnot) h) haccepts
  refine ⟨haccepts_iff.trans hcount.symm, fun h => hrefuses fun h' => h (haccepts h'), ?_⟩
  refine Inference.wordCount?_eq counts ?_
  rw [List.length_append, hlength]
  exact Nat.add_pos_left (List.length_pos_of_ne_nil hshape.nonempty) _

/-- A checker that knows the data types of the library. -/
def shaping : Checker := (create ⟨false, false, 0, true, false⟩).after [.load "library" libraryText]

theorem shaping_knowsLibrary : shaping.KnowsLibrary :=
  ⟨_, _, rfl, .inr ⟨_, _, _, rfl, parseAll_libraryText⟩⟩

theorem shaping_eq : shaping = ((load StandardLibrary.dataTypes).outcome bare).2 := by
  rw [shaping, after, after, state_load_request parseAll_libraryText]
  rfl

/-- The dimensions of a matrix. -/
def matrixDims : List Field := [⟨some "m", .named "Nat"⟩, ⟨some "n", .named "Nat"⟩]

/-- The type of what is in a matrix. -/
def matrixElement : Field := ⟨some "T", .named "Type"⟩

/-- A matrix of some numbers of rows and columns. -/
def matrix (rows columns : String) (elements : List Expr) : Expr :=
  .operation "Matrix" ([.const rows, .const columns] ++ elements)

/-- Four numbers, one of which is not known. -/
def entries : List Expr := [.object "x", .const "1", .const "2", .const "3"]

/-- What is known of matrices, and of some that are given by their entries. -/
theorem shaping_shows :
    shaping.registry.data.resolveClosed [] (.named "Nat") = .ok (.prim .nat) ∧
      shaping.registry.data.resolveClosed [] (.named "Type") = .ok (.data "Type" "Type" []) ∧
      (shaping.registry.data.variant? "Matrix").map
          (fun b : DataType × Variant => (b.1.name, b.2.fields)) =
        some (Ty.metaName, matrixDims ++ [matrixElement]) ∧
      ((Inference.inferList shaping.context shaping.env entries).outcome
        shaping.inference.reset).1 = .ok [.var 0, .scalar, .scalar, .scalar] ∧
      ((Inference.inferList shaping.context shaping.env entries).outcome
        shaping.inference.reset).2.subst.apply (.var 0) = .var 0 ∧
      ((check (matrix "2" "2" entries)).outcome shaping).2.inference.supply.drawn = 4 ∧
      told ((check (matrix "3" "0" [])).outcome shaping).1 = .error (some .arityMismatch) ∧
      ((check (matrix "2" "0" [])).outcome shaping).1 =
        .ok ⟨.variant "Matrix" [.nat 2, .nat 0, .var 2], []⟩ := by
  rw [shaping_eq]
  cbv
  exact ⟨rfl, rfl⟩

theorem shaping_matrix : shaping.registry.data.HasShape "Matrix" matrixDims matrixElement := by
  obtain ⟨hnat, htype, hvariant, -⟩ := shaping_shows
  obtain ⟨⟨d, v⟩, hvariant, heq⟩ := Option.map_eq_some_iff.1 hvariant
  obtain ⟨howner, hfields⟩ := Prod.mk.inj heq
  exact ⟨⟨d, v, hvariant, howner, hfields⟩, List.cons_ne_nil _ _,
    List.forall_mem_cons.2 ⟨hnat, List.forall_mem_singleton.2 hnat⟩, _, htype, rfl⟩

theorem shaping_scalar : shaping.registry.data.FieldOfMeta matrixElement .scalar := by
  obtain ⟨-, htype, -⟩ := shaping_shows
  refine ⟨_, htype, ?_⟩
  rw [if_neg (by decide)]
  rfl

theorem shaping_entries : shaping.OfOneType matrixElement entries := by
  obtain ⟨-, -, -, hlist, hopen, -⟩ := shaping_shows
  refine ⟨_, _, Attempt.returns_of_fst hlist, fun _ => .scalar, .scalar, fun _ => rfl,
    shaping_scalar, List.forall_mem_cons.2 ⟨?_, ?_⟩⟩
  · rw [hopen, Ty.bind]
  · simp [Ty.scalar, Ty.variant, Subst.apply, Ty.bind, Ty.bindList]

theorem shape_accepted_iff_square :
    shaping.Reachable ∧ shaping.registry.data.HasShape "Matrix" matrixDims matrixElement ∧
      shaping.OfOneType matrixElement entries ∧ shaping.Accepts (matrix "2" "2" entries) := by
  have hu : ((check (matrix "2" "2" entries)).outcome shaping).2.Unexhausted := by
    obtain ⟨-, -, -, -, -, hdrawn, -⟩ := shaping_shows
    unfold Unexhausted
    rw [hdrawn]
    decide
  have hiff := shape_accepted_iff shaping_knowsLibrary.reachable shaping_matrix
    (.cons (Expr.isNumeral_digit 2 (by decide)) (.cons (Expr.isNumeral_digit 2 (by decide)) .nil))
    rfl shaping_entries (by decide) (by decide) hu
  exact ⟨shaping_knowsLibrary.reachable, shaping_matrix, shaping_entries,
    hiff.1.2 ⟨rfl, fun h => absurd h (by decide)⟩⟩

/-- A dimension that is larger than the number of arguments is refused although another one is
zero, so that no element is missing. -/
theorem shape_refused_with_zero :
    shaping.KnowsLibrary ∧ shaping.registry.data.HasShape "Matrix" matrixDims matrixElement ∧
      List.Forall₂ Expr.IsNumeral [.const "3", .const "0"] [3, 0] ∧
      shaping.OfOneType matrixElement [] ∧ ([] : List Expr).length = [3, 0].prod ∧
      shaping.Refuses (matrix "3" "0" []) .arityMismatch ∧ shaping.Accepts (matrix "2" "0" []) := by
  obtain ⟨-, -, -, -, -, -, hrefused, haccepted⟩ := shaping_shows
  exact ⟨shaping_knowsLibrary, shaping_matrix,
    .cons (Expr.isNumeral_digit 3 (by decide)) (.cons (Expr.isNumeral_digit 0 (by decide)) .nil),
    ⟨[], _, rfl, fun _ => .scalar, .scalar, fun _ => rfl, shaping_scalar, List.forall_mem_nil _⟩,
    rfl, refuses_of_told hrefused, ⟨_, haccepted⟩⟩

end Checker

end Formulary
