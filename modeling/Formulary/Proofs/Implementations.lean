import Formulary.Proofs.Calling
import Formulary.Proofs.Completeness
import Formulary.Proofs.Denotation

namespace Formulary

/-- Handing out variables rules out no valuation, and any fault may come. -/
def supplyView : View Supply Fault :=
  { supply := id, sound := fun _ => True, allowed := fun _ => True, admits := fun _ _ _ => True }

theorem returns_named_iff {α : Type} {steps : FreshNamed α} {u u' : Supply} {a : α} :
    Attempt.Returns (Fresh.named steps) u a u' ↔
      ∃ vars, Attempt.Returns steps ⟨u, []⟩ a ⟨u', vars⟩ := by
  have hnamed : Attempt.outcome (Fresh.named steps) u =
      ((Attempt.outcome steps ⟨u, []⟩).1, (Attempt.outcome steps ⟨u, []⟩).2.supply) := rfl
  unfold Attempt.Returns
  rw [hnamed]
  rcases Attempt.outcome steps ⟨u, []⟩ with ⟨result, supply, vars⟩
  simp

section

variable {α β : Type} {P : Upward} {A : α → Upward} {steps : FreshNamed α}
  {read : α → Valuation → β} {J : Valuation → Naming → β → Prop}

theorem named_finds (h : Finds namedView P steps A read J) :
    Finds supplyView P (Fresh.named steps) A read
      fun θ _ b => ∃ names : String → Ty, J θ (fun name => some (names name)) b where
  grows s := h.grows ⟨s, []⟩
  keeps s hs _ hpre :=
    ⟨trivial, (h.keeps ⟨s, []⟩ hs (fun _ hv => absurd hv List.not_mem_nil) hpre).2⟩
  finds s a s' hrun _ hs' hpre := by
    obtain ⟨vars, hsteps⟩ := returns_named_iff.1 hrun
    have hexplains := h.finds ⟨s, []⟩ a ⟨s', vars⟩ hsteps
      (fun _ hv => absurd hv List.not_mem_nil) hs' hpre
    refine ⟨fun θ D _ => ⟨trivial, ?_⟩, fun θ D b _ hb => ?_⟩
    · -- A name that got no variable may stand for anything.
      refine ⟨fun name => ((vars.lookup name).map θ).getD .blank, ?_⟩
      refine (hexplains.sound θ _ fun name id hlookup => ?_).2
      have hlookup : vars.lookup name = some id := hlookup
      simp [hlookup]
    · obtain ⟨names, hj⟩ := hb
      obtain ⟨θ', hagree, -, hvalue⟩ :=
        hexplains.complete θ _ b (fun name id hlookup => by cases hlookup) hj
      exact ⟨θ', hagree, trivial, hvalue⟩

theorem named_succeeds
    (h : ∀ s θ (names : String → Ty) b, J θ (fun name => some (names name)) b →
      ∃ a s', Attempt.Returns steps s a s') :
    Succeeds supplyView P (Fresh.named steps)
      fun θ _ b => ∃ names : String → Ty, J θ (fun name => some (names name)) b := by
  intro s _ _ _ θ D b _ hb
  obtain ⟨names, hj⟩ := hb
  obtain ⟨a, ⟨s', vars⟩, hrun⟩ := h ⟨s, []⟩ θ names b hj
  exact ⟨a, s', returns_named_iff.2 ⟨vars, hrun⟩⟩

end

namespace Registry

variable {r : Registry} {i : RegisteredImplementation} {params : List TypeExpr} {args : List Ty}

/-- The parameter types of an operation for an implementation: the type arguments of the
implementation are put for the parameters of the structure. The lower case names of the
implementation and those of the signature are apart. -/
def expectedTypes? (r : Registry) (i : RegisteredImplementation) (params : List TypeExpr)
    (block signature : Naming) : Option (List Ty) := do
  let types ← r.data.denoteList [] block i.decl.args
  r.data.denoteList ((i.interface.params.map (·.name)).zip (types.map some)) signature params

theorem expectedTypes?_eq_some_iff {block signature : Naming} {ts : List Ty} :
    r.expectedTypes? i params block signature = some ts ↔
      ∃ types, r.data.denoteList [] block i.decl.args = some types ∧
        r.data.denoteList ((i.interface.params.map (·.name)).zip (types.map some)) signature
          params = some ts :=
  Option.bind_eq_some_iff

theorem bind_zip (names : List String) (types : List Ty) (θ : Valuation) :
    Scope.bind (names.zip (types.map some)) θ = names.zip ((types.map (·.bind θ)).map some) := by
  simp [Scope.bind, List.zip_map_right, Function.comp_def]

theorem inScope_zip {names : List String} {types : List Ty} {n : Int}
    (h : Every Ty.inScope types n) : Scope.inScope (names.zip (types.map some)) n := by
  intro name t hmem
  obtain ⟨u, hu, heq⟩ := List.mem_map.1 (List.of_mem_zip hmem).2
  cases heq
  exact h t hu

theorem expectedTypes?_bind (r : Registry) (i : RegisteredImplementation) (params : List TypeExpr)
    (block signature : Naming) (θ : Valuation) :
    r.expectedTypes? i params (fun name => (block name).map (·.bind θ))
        (fun name => (signature name).map (·.bind θ)) =
      (r.expectedTypes? i params block signature).map (·.map (·.bind θ)) := by
  have hblock : r.data.denoteList [] (fun name => (block name).map (·.bind θ)) i.decl.args =
      (r.data.denoteList [] block i.decl.args).map (·.map (·.bind θ)) :=
    r.data.denoteList_bind [] block θ i.decl.args
  rw [expectedTypes?, expectedTypes?, hblock]
  cases r.data.denoteList [] block i.decl.args with
  | none => rfl
  | some types =>
      have hsignature := r.data.denoteList_bind
        ((i.interface.params.map (·.name)).zip (types.map some)) signature θ params
      rwa [bind_zip] at hsignature

/-- The expected types of an implementation, with new variables for the lower case names. -/
def expect (r : Registry) (i : RegisteredImplementation) (params : List TypeExpr) :
    Fresh (List Ty) := do
  let types ← Fresh.named (r.data.resolveList [] true i.decl.args)
  Fresh.named (r.data.resolveList ((i.interface.params.map (·.name)).zip (types.map some)) true
    params)

/-- The second half of what is expected, once it is known what the parameters of the structure stand
for. -/
def Completes (r : Registry) (i : RegisteredImplementation) (params : List TypeExpr)
    (types ts : List Ty) : Prop :=
  ∃ signature : String → Ty, r.data.denoteList
    ((i.interface.params.map (·.name)).zip (types.map some)) (fun name => some (signature name))
      params = some ts

theorem exists_expectedTypes?_iff {ts : List Ty} :
    (∃ types, (∃ block : String → Ty,
        r.data.denoteList [] (fun name => some (block name)) i.decl.args = some types) ∧
          r.Completes i params types ts) ↔
      ∃ block signature : String → Ty, r.expectedTypes? i params (fun name => some (block name))
        (fun name => some (signature name)) = some ts := by
  constructor
  · rintro ⟨types, ⟨block, hblock⟩, signature, hsignature⟩
    exact ⟨block, signature, expectedTypes?_eq_some_iff.2 ⟨types, hblock, hsignature⟩⟩
  · rintro ⟨block, signature, h⟩
    obtain ⟨types, hblock, hsignature⟩ := expectedTypes?_eq_some_iff.1 h
    exact ⟨types, ⟨block, hblock⟩, signature, hsignature⟩

theorem typeArgs_finds (r : Registry) (i : RegisteredImplementation) :
    Finds supplyView ⊤ (Fresh.named (r.data.resolveList [] true i.decl.args))
      (Every Ty.inScope) (fun ts θ => ts.map (·.bind θ)) fun _ _ ts =>
        ∃ block : String → Ty,
          r.data.denoteList [] (fun name => some (block name)) i.decl.args = some ts :=
  named_finds ((r.data.resolveList_finds [] i.decl.args).of_pre
    fun _ _ _ _ hmem => absurd hmem List.not_mem_nil)

theorem params_finds (r : Registry) (i : RegisteredImplementation) (params : List TypeExpr)
    (types : List Ty) :
    Finds supplyView (⊤ ⊓ Every Ty.inScope types)
      (Fresh.named (r.data.resolveList
        ((i.interface.params.map (·.name)).zip (types.map some)) true params))
      (Every Ty.inScope) (fun ts θ => ts.map (·.bind θ))
      fun θ _ ts => r.Completes i params (types.map (·.bind θ)) ts := by
  refine (named_finds ((r.data.resolveList_finds _ params).of_pre
    fun n hn => inScope_zip (And.right hn))).congr fun s _ _ θ D ts _ => ?_
  rw [bind_zip]
  rfl

theorem expect_finds (r : Registry) (i : RegisteredImplementation) (params : List TypeExpr) :
    Finds supplyView ⊤ (r.expect i params) (Every Ty.inScope) (fun ts θ => ts.map (·.bind θ))
      fun _ _ ts => ∃ block signature : String → Ty,
        r.expectedTypes? i params (fun name => some (block name))
          (fun name => some (signature name)) = some ts :=
  ((r.typeArgs_finds i).bind (K := fun _ types _ ts => r.Completes i params types ts)
    (r.params_finds i params) fun _ _ _ _ _ => rfl).congr
      fun _ _ _ _ _ _ _ => exists_expectedTypes?_iff

theorem expect_succeeds (r : Registry) (i : RegisteredImplementation) (params : List TypeExpr) :
    Succeeds supplyView ⊤ (r.expect i params)
      fun _ _ ts => ∃ block signature : String → Ty,
        r.expectedTypes? i params (fun name => some (block name))
          (fun name => some (signature name)) = some ts := by
  have hfirst : Succeeds supplyView ⊤ (Fresh.named (r.data.resolveList [] true i.decl.args))
      fun _ _ ts => ∃ block : String → Ty,
        r.data.denoteList [] (fun name => some (block name)) i.decl.args = some ts :=
    named_succeeds (J := fun θ D ts => r.data.denoteList (Scope.bind [] θ) D i.decl.args = some ts)
      fun s _ _ _ h => DataTypes.returns_resolveList_of_denoteList h s
  refine (hfirst.bind (K := fun _ types _ ts => r.Completes i params types ts)
    (r.typeArgs_finds i) (fun types => (r.params_finds i params types).grows) (fun types => ?_)
      fun _ _ _ _ _ => rfl).imp fun _ _ _ _ _ ts _ h => ⟨ts, exists_expectedTypes?_iff.2 h⟩
  refine (named_succeeds (J := fun θ D ts => r.data.denoteList (Scope.bind
    ((i.interface.params.map (·.name)).zip (types.map some)) θ) D params = some ts)
      fun s θ names ts h => ?_).imp fun s _ _ θ D ts _ h => ⟨ts, ?_⟩
  · exact DataTypes.returns_resolveList_of_denoteList h s
  · rw [bind_zip]
    exact h

theorem run_accepts (r : Registry) (i : RegisteredImplementation) (params : List TypeExpr)
    (args : List Ty) (u : Supply) :
    (r.accepts i params args).run u =
      (((Attempt.outcome (r.expect i params) u).1.toOption.map fun expected =>
        (Ty.unifyList expected args).toBool).getD false,
        (Attempt.outcome (r.expect i params) u).2) := by
  have hsteps : Attempt.outcome (do
      let types ← Fresh.named (r.data.resolveList [] true i.decl.args)
      let scope : Scope := (i.interface.params.map (·.name)).zip (types.map some)
      let expected ← Fresh.named (r.data.resolveList scope true params)
      return (Ty.unifyList expected args).toBool : Fresh Bool) u =
      Attempt.outcome (r.expect i params >>= fun expected =>
        (pure (Ty.unifyList expected args).toBool : Fresh Bool)) u := by
    rw [expect, bind_assoc]
  unfold Attempt.outcome at hsteps
  unfold accepts
  rw [StateT.run_bind, hsteps]
  have hbind := Attempt.outcome_bind (r.expect i params)
    (fun expected => (pure (Ty.unifyList expected args).toBool : Fresh Bool)) u
  unfold Attempt.outcome at hbind ⊢
  rw [hbind]
  rcases (r.expect i params).run.run u with ⟨x | x, u'⟩
  · rfl
  · rfl

/-- Some types for the names of an implementation and of the signature make the parameter types of
an operation the types of the arguments under some valuation. -/
def CanTake (r : Registry) (i : RegisteredImplementation) (params : List TypeExpr)
    (args : List Ty) : Prop :=
  ∃ (block signature : String → Ty) (θ : Valuation),
    r.expectedTypes? i params (fun name => some (block name)) (fun name => some (signature name)) =
      some (args.map (·.bind θ))

theorem length_of_expectedTypes? {block signature : Naming} {ts : List Ty}
    (h : r.expectedTypes? i params block signature = some ts) : ts.length = params.length := by
  obtain ⟨types, -, hparams⟩ := expectedTypes?_eq_some_iff.1 h
  exact DataTypes.length_of_denoteList hparams

theorem accepts_iff_canTake {u u' : Supply} {accepted : Bool}
    (hrun : (r.accepts i params args).run u = (accepted, u')) (hu : u'.Unwrapped)
    (hargs : ∀ t ∈ args, t.inScope u.next) (hlength : params.length = args.length) :
    accepted = true ↔ r.CanTake i params args := by
  have hmono : Ty.isMonoList args = true := Ty.isMonoList_iff.2 fun t ht => (hargs t ht).1
  have hfinds := r.expect_finds i params
  rw [run_accepts] at hrun
  cases hexpect : Attempt.outcome (r.expect i params) u with
  | mk result u₁ =>
      cases result with
      | ok expected =>
          rw [hexpect] at hrun
          cases hrun
          show (Ty.unifyList expected args).toBool = true ↔ _
          have hkeeps := (hfinds.keeps u (hexpect ▸ hu) trivial trivial).2
          rw [hexpect] at hkeeps
          have hexpected : Ty.isMonoList expected = true :=
            Ty.isMonoList_iff.2 fun t ht => (hkeeps t ht).1
          have hexplains := hfinds.finds u expected u₁ hexpect trivial hu trivial
          constructor
          · intro haccepted
            cases hunify : Ty.unifyList expected args with
            | error e =>
                rw [hunify] at haccepted
                cases haccepted
            | ok σ =>
                obtain ⟨-, block, signature, h⟩ := hexplains.sound σ.image (fun _ => none) trivial
                have hlength' : expected.length = args.length := by
                  have hparams := length_of_expectedTypes? h
                  rw [List.length_map] at hparams
                  exact hparams.trans hlength
                have hsame := map_apply_of_unifyList hexpected hmono hlength' hunify
                rw [Subst.map_apply, Subst.map_apply] at hsame
                exact ⟨block, signature, σ.image, hsame ▸ h⟩
          · rintro ⟨block, signature, θ, h⟩
            obtain ⟨θ', hagree, -, hvalue⟩ :=
              hexplains.complete θ (fun _ => none) _ trivial ⟨block, signature, h⟩
            have hargs' : Every Ty.inScope args u.next := hargs
            rw [hagree.map_bind_eq hargs'] at hvalue
            obtain ⟨σ, hσ⟩ := Ty.exists_unifyList_eq_ok hexpected hmono hvalue
            rw [hσ]
            rfl
      | error f =>
          rw [hexpect] at hrun
          cases hrun
          refine ⟨fun h => (by cases h), ?_⟩
          rintro ⟨block, signature, θ, h⟩
          obtain ⟨expected, u₂, hreturns⟩ := r.expect_succeeds i params u trivial
            (by rw [hexpect]; exact hu) trivial θ (fun _ => none) _ trivial ⟨block, signature, h⟩
          rw [Attempt.Returns, hexpect] at hreturns
          cases hreturns

theorem acceptsSome_iff_canTake {is : List RegisteredImplementation} {u u' : Supply}
    {accepted : Bool} (hrun : (r.acceptsSome params args is).run u = (accepted, u'))
    (hu : u'.Unwrapped) (hargs : ∀ t ∈ args, t.inScope u.next)
    (hlength : params.length = args.length) :
    accepted = true ↔ ∃ i ∈ is, r.CanTake i params args := by
  induction is generalizing u with
  | nil =>
      cases hrun
      simp
  | cons i is ih =>
      rw [acceptsSome, StateT.run_bind] at hrun
      have hgrows := r.accepts_grows i params args u
      cases hone : (r.accepts i params args).run u with
      | mk b u₁ =>
          rw [hone] at hrun hgrows
          cases b with
          | true =>
              cases hrun
              have htake := (accepts_iff_canTake hone hu hargs hlength).1 rfl
              exact iff_of_true rfl ⟨i, List.mem_cons_self .., htake⟩
          | false =>
              have hrest : (r.acceptsSome params args is).run u₁ = (accepted, u') := hrun
              have hle := r.acceptsSome_grows params args is u₁
              rw [hrest] at hle
              have hu₁ : u₁.Unwrapped := hu.of_le hle
              have hnot : ¬r.CanTake i params args := fun h =>
                absurd ((accepts_iff_canTake hone hu₁ hargs hlength).2 h) Bool.false_ne_true
              have hnext := hu₁.next_le_next hgrows
              rw [ih hrest fun t ht => (Ty.inScope t).mono hnext (hargs t ht)]
              simp [hnot]

theorem accepts_iff_exists_canTake {structureName operation : String} {s : Structure}
    {op : Operation} (hs : r.structure? structureName = some s)
    (hop : s.operation? operation = some op) {u : Supply} (hargs : ∀ t ∈ args, t.inScope u.next)
    (hu : (Attempt.outcome (r.validate structureName operation args) u).2.Unwrapped) :
    r.Accepts structureName operation args u ↔
      op.signature.splitArrow.1.length = args.length ∧
        ∃ i ∈ r.implementationsOf structureName, r.CanTake i op.signature.splitArrow.1 args := by
  unfold Accepts
  unfold validate at hu ⊢
  simp only [hs, hop] at hu ⊢
  by_cases hlength : op.signature.splitArrow.1.length = args.length
  · rw [if_neg (not_not.2 hlength)] at hu ⊢
    rw [Attempt.outcome_bind, Attempt.outcome_liftState] at hu ⊢
    cases hrun : (r.acceptsSome op.signature.splitArrow.1 args
      (r.implementationsOf structureName)).run u with
    | mk accepted u' =>
        rw [hrun] at hu
        have hu' : u'.Unwrapped := by
          cases accepted with
          | true => exact hu
          | false => exact hu
        rw [← acceptsSome_iff_canTake hrun hu' hargs hlength]
        cases accepted with
        | true => exact iff_of_true rfl ⟨hlength, rfl⟩
        | false => exact iff_of_false (fun h => by cases h) fun h => absurd h.2 Bool.false_ne_true
  · rw [if_pos hlength]
    exact iff_of_false (fun h => by cases h) fun h => hlength h.1

/-- An implementation takes arguments if a substitution makes the parameter types of the operation
equal to the types of the arguments, where the type arguments of the implementation are put for the
parameters of the structure and each other lower case name is read as a variable: those of the
implementation on the left, those of the signature on the right. -/
def Takes (r : Registry) (v : String ⊕ String → Int) (i : RegisteredImplementation)
    (params : List TypeExpr) (args : List Ty) : Prop :=
  ∃ expected, r.expectedTypes? i params (fun name => some (.var (v (.inl name))))
      (fun name => some (.var (v (.inr name)))) = some expected ∧
    ∃ σ : Subst, expected.map σ.apply = args.map σ.apply

theorem within_of_expectedTypes? {F : Int → Prop} {block signature : Naming} {ts : List Ty}
    (h : r.expectedTypes? i params block signature = some ts)
    (hblock : ∀ name t, block name = some t → t.Within F)
    (hsignature : ∀ name t, signature name = some t → t.Within F) : ∀ t ∈ ts, t.Within F := by
  obtain ⟨types, htypes, hparams⟩ := expectedTypes?_eq_some_iff.1 h
  have hwithin := DataTypes.within_of_denoteList (fun _ _ hmem => absurd hmem List.not_mem_nil)
    hblock htypes
  refine DataTypes.within_of_denoteList (fun name t hmem => ?_) hsignature hparams
  obtain ⟨u, hu, heq⟩ := List.mem_map.1 (List.of_mem_zip hmem).2
  cases heq
  exact hwithin t hu

theorem takes_iff_canTake {v : String ⊕ String → Int} (hv : Apart v args)
    (hargs : Ty.isMonoList args = true) :
    r.Takes v i params args ↔ r.CanTake i params args := by
  constructor
  · rintro ⟨expected, hexpected, σ, hσ⟩
    refine ⟨fun name => σ.image (v (.inl name)), fun name => σ.image (v (.inr name)), σ.image, ?_⟩
    have hbind := r.expectedTypes?_bind i params
      (fun name => some (.var (v (.inl name)))) (fun name => some (.var (v (.inr name)))) σ.image
    rw [hexpected, Option.map_some, ← Subst.map_apply, hσ, Subst.map_apply] at hbind
    exact hbind
  · rintro ⟨block, signature, θ, h⟩
    -- The fresh variables stand for what the names stand for, all others for what they stood for.
    have hbind := r.expectedTypes?_bind i params
      (fun name => some (.var (v (.inl name)))) (fun name => some (.var (v (.inr name))))
      (Function.extend v (Sum.elim block signature) θ)
    simp only [Option.map_some, hv.bind_var_extend, Sum.elim_inl, Sum.elim_inr, h] at hbind
    obtain ⟨expected, hexpected, hsame⟩ := Option.map_eq_some_iff.1 hbind.symm
    refine ⟨expected, hexpected, ?_⟩
    have hold := hv.map_bind_extend (Sum.elim block signature) θ
    have hmono : Ty.isMonoList expected = true := Ty.isMonoList_iff.2 fun t ht =>
      (within_of_expectedTypes? (F := fun _ => True) hexpected
        (fun _ _ heq => Option.some.inj heq ▸ Ty.within_var trivial)
        (fun _ _ heq => Option.some.inj heq ▸ Ty.within_var trivial) t ht).1
    obtain ⟨σ, hσ⟩ := Ty.exists_unifyList_eq_ok hmono hargs (hsame.trans hold.symm)
    have hlength : expected.length = args.length := by
      simpa using congrArg List.length hsame
    exact ⟨σ, map_apply_of_unifyList hmono hargs hlength hσ⟩

theorem CanTake.of_map_apply {general : List Ty} {σ : Subst}
    (h : r.CanTake i params (general.map σ.apply)) (hmono : Ty.isMonoList general = true) :
    r.CanTake i params general := by
  obtain ⟨block, signature, θ, heq⟩ := h
  refine ⟨block, signature, fun x => (σ.image x).bind θ, heq.trans (congrArg some ?_)⟩
  rw [List.map_map]
  refine List.map_congr_left fun t ht => ?_
  rw [Function.comp_apply, Subst.apply_eq_bind,
    Ty.bind_bind _ _ (Ty.isMonoList_iff.1 hmono t ht)]

/-- Validation is a search for an implementation that takes the arguments. So it does not depend on
the order of the implementations, and arguments of which less is known are accepted as well. -/
theorem accepts_iff_exists_takes {structureName operation : String} {s : Structure}
    {op : Operation} (hs : r.structure? structureName = some s)
    (hop : s.operation? operation = some op) {u : Supply} (hargs : ∀ t ∈ args, t.inScope u.next)
    (hu : (Attempt.outcome (r.validate structureName operation args) u).2.Unwrapped) :
    ((∃ v : String ⊕ String → Int, Apart v args) ∧ ∀ v, Apart v args →
      (r.Accepts structureName operation args u ↔ op.signature.splitArrow.1.length = args.length ∧
        ∃ i ∈ r.implementationsOf structureName, r.Takes v i op.signature.splitArrow.1 args)) ∧
    (∀ r' : Registry, r'.data = r.data → r'.structures = r.structures →
      r'.implementations.Perm r.implementations →
      (Attempt.outcome (r'.validate structureName operation args) u).2.Unwrapped →
      (r'.Accepts structureName operation args u ↔ r.Accepts structureName operation args u)) ∧
    ∀ (general : List Ty) (σ : Subst) (u' : Supply), general.map σ.apply = args →
      (∀ t ∈ general, t.inScope u'.next) →
      (Attempt.outcome (r.validate structureName operation general) u').2.Unwrapped →
      r.Accepts structureName operation args u → r.Accepts structureName operation general u' := by
  have hmono : ∀ {ts : List Ty} {n : Int}, (∀ t ∈ ts, t.inScope n) → Ty.isMonoList ts = true :=
    fun h => Ty.isMonoList_iff.2 fun t ht => (h t ht).1
  have haccepts := accepts_iff_exists_canTake hs hop hargs hu
  have hcountable : Countable String := countable_string
  refine ⟨⟨exists_apart _ args, fun v hv => ?_⟩, fun r' hdata hstructures hperm hu' => ?_, ?_⟩
  · simp only [haccepts, takes_iff_canTake hv (hmono hargs)]
  · have hs' : r'.structure? structureName = some s := by
      rw [structure?, hstructures]
      exact hs
    have htakes : ∀ i, r'.CanTake i op.signature.splitArrow.1 args ↔
        r.CanTake i op.signature.splitArrow.1 args := fun i => by
      simp only [CanTake, expectedTypes?, hdata]
    have hmem : ∀ i, i ∈ r'.implementationsOf structureName ↔
        i ∈ r.implementationsOf structureName := fun i => (hperm.filter _).mem_iff
    simp only [haccepts, accepts_iff_exists_canTake hs' hop hargs hu', htakes, hmem]
  · rintro general σ u' rfl hgeneral hu' h
    rw [haccepts, List.length_map] at h
    obtain ⟨hlength, i, hi, htake⟩ := h
    exact (accepts_iff_exists_canTake hs hop hgeneral hu').2
      ⟨hlength, i, hi, htake.of_map_apply (hmono hgeneral)⟩

/-- A structure whose operation uses a lower case name that its second implementation uses too. -/
def mergeable : Structure :=
  ⟨"Mergeable", [⟨"C", none⟩],
    [⟨"merge", .arrow (.named "C") (.arrow (.app "Cell" [.named "a"]) (.named "C")), false⟩], []⟩

/-- The structure is implemented for scalars and for cells of anything. -/
def cells : Registry :=
  ⟨⟨[⟨"Cell", ["T"], [⟨"Full", [⟨none, .named "T"⟩]⟩]⟩]⟩, [mergeable],
    [⟨mergeable, ⟨"Mergeable", [.named "ℝ"], []⟩, "Mergeable(Scalar)"⟩,
      ⟨mergeable, ⟨"Mergeable", [.app "Cell" [.named "a"]], []⟩, "Mergeable(Cell(α0))"⟩]⟩

/-- The same, with the implementations the other way around. -/
def cellsReversed : Registry := { cells with implementations := cells.implementations.reverse }

/-- Cells of two different things: what the two lower case names stand for need not be the same. -/
def cellArgs : List Ty := [.instanceOf "Cell" [.scalar], .instanceOf "Cell" [.prim .nat]]

/-- A cell and something that is not known yet. -/
def cellAndUnknown : List Ty := [.instanceOf "Cell" [.scalar], .var 0]

set_option maxRecDepth 10000 in
theorem accepts_iff_exists_takes_cells :
    (∃ v, Apart v cellArgs ∧ ∃ i ∈ cells.implementationsOf "Mergeable",
      cells.Takes v i [.named "C", .app "Cell" [.named "a"]] cellArgs) ∧
    cellsReversed.Accepts "Mergeable" "merge" cellArgs (.startingAt 1) ∧
    cells.Accepts "Mergeable" "merge" cellAndUnknown (.startingAt 1) := by
  have hrun : Attempt.outcome (cells.validate "Mergeable" "merge" cellArgs) (.startingAt 1) =
      (.ok (), ⟨1, 3, 0⟩) := by cbv
  have hreversed : Attempt.outcome (cellsReversed.validate "Mergeable" "merge" cellArgs)
      (.startingAt 1) = (.ok (), ⟨1, 2, 0⟩) := by cbv
  have hgeneral : Attempt.outcome (cells.validate "Mergeable" "merge" cellAndUnknown)
      (.startingAt 1) = (.ok (), ⟨1, 3, 0⟩) := by cbv
  have hsingle : cellAndUnknown.map (Subst.singleton 0 (.instanceOf "Cell" [.prim .nat])).apply =
      cellArgs := by cbv
  have hbelow : ∀ t : Ty, t ∈ cellArgs ∨ t ∈ cellAndUnknown →
      t.inScope (Supply.startingAt 1).next := by
    simp only [cellArgs, cellAndUnknown, List.mem_cons, List.not_mem_nil, or_false]
    rintro t ((rfl | rfl) | rfl | rfl)
    all_goals exact ⟨rfl, by decide⟩
  have haccepts : cells.Accepts "Mergeable" "merge" cellArgs (.startingAt 1) :=
    congrArg Prod.fst hrun
  have hs : cells.structure? "Mergeable" = some mergeable := rfl
  have hop : mergeable.operation? "merge" = some ⟨"merge",
    .arrow (.named "C") (.arrow (.app "Cell" [.named "a"]) (.named "C")), false⟩ := rfl
  obtain ⟨⟨⟨v, hv⟩, htakes⟩, horder, hless⟩ := accepts_iff_exists_takes hs hop
    (u := .startingAt 1) (fun t ht => hbelow t (.inl ht)) (hrun ▸ by decide)
  refine ⟨⟨v, hv, ((htakes v hv).1 haccepts).2⟩, ?_, ?_⟩
  · exact (horder cellsReversed rfl rfl (List.reverse_perm _) (hreversed ▸ by decide)).2 haccepts
  · exact hless cellAndUnknown _ (.startingAt 1) hsingle (fun t ht => hbelow t (.inr ht))
      (hgeneral ▸ by decide) haccepts

/-- The largest number is handed out before the least, so that a lower case name of an implementation
may get a variable of the arguments. Then no implementation is found, though one takes them. -/
theorem accepts_overrun :
    let inner : Ty := .instanceOf "Cell" [.var (-2 ^ 63)]
    let args : List Ty := [.instanceOf "Cell" [inner], .instanceOf "Cell" [.scalar]]
    let u := Supply.startingAt (2 ^ 63 - 1)
    (∀ t ∈ args, t.inScope u.next) ∧ ∃ s op, cells.structure? "Mergeable" = some s ∧
      s.operation? "merge" = some op ∧ op.signature.splitArrow.1.length = args.length ∧
      ¬cells.Accepts "Mergeable" "merge" args u ∧
      ∃ v, Apart v args ∧ ∃ i ∈ cells.implementationsOf "Mergeable",
        cells.Takes v i op.signature.splitArrow.1 args := by
  intro inner args u
  have hrefused : Attempt.outcome (cells.validate "Mergeable" "merge" args) u =
      (.error (.notImplemented "Mergeable" "merge" args), ⟨2 ^ 63 - 1, 3, 0⟩) := by cbv
  have hcountable : Countable String := countable_string
  obtain ⟨v, hv⟩ := exists_apart (String ⊕ String) args
  refine ⟨?_, mergeable, _, rfl, rfl, rfl, ?_, v, hv, _, List.mem_cons_of_mem _ (.head _),
    (takes_iff_canTake hv rfl).2 ⟨fun _ => inner, fun _ => .scalar, .var, rfl⟩⟩
  · exact List.forall_mem_cons.2 ⟨⟨rfl, by decide⟩, List.forall_mem_singleton.2 ⟨rfl, by decide⟩⟩
  · intro haccepts
    rw [Accepts, hrefused] at haccepts
    cases haccepts

end Registry

end Formulary
