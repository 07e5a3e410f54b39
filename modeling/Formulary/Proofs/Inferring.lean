import Formulary.Inference
import Formulary.Proofs.Signatures

/-!
Inference keeps its substitution settled. Whatever a step of inference finds out is about variables
that are not bound yet, so that the substitution leaves alone what it puts; its types are monotypes
in scope, and no step fails in a way that is not the source's fault.
-/

namespace Formulary.Inference

/-- A substitution that leaves alone what it puts, of monotypes in scope. -/
def Proper (n : Int) (s : Subst) : Prop := s.Settled ∧ s.inScope n

theorem Proper.mono {m n : Int} {s : Subst} (h : Proper m s) (hle : m ≤ n) : Proper n s :=
  ⟨h.1, (Subst.inScope s).mono hle h.2⟩

/-- The invariant of inference. -/
structure State.Sound (s : State) : Prop where
  subst : Proper s.supply.next s.subst
  held : ∀ h ∈ s.held, Proper h.2 h.1
  free : ∀ v ∈ s.free, v.2 < s.supply.next

/-- The state at the start, with variables from a number on. -/
def State.startingAt (first : Int) : State := { initial with supply := .startingAt first }

theorem State.sound_startingAt (first : Int) : (State.startingAt first).Sound where
  subst := ⟨Subst.settled_empty, Subst.within_empty⟩
  held := List.forall_mem_singleton.2 ⟨Subst.settled_empty, Subst.within_empty⟩
  free _ hv := absurd hv List.not_mem_nil

def inferWatch : Watch State Fault := ⟨(·.supply), State.Sound, Fault.IsOrdinary⟩

variable {α : Type} {P : Upward} {A : α → Upward}

/-- A supply that has moved on changes nothing. -/
theorem State.Sound.advance {s : State} {supply : Supply} (h : s.Sound) (hle : s.supply ≤ supply)
    (hs : supply.Unwrapped) : State.Sound { s with supply } where
  subst := h.subst.mono (hs.next_le_next hle)
  held := h.held
  free v hv := Int.lt_of_lt_of_le (h.free v hv) (hs.next_le_next hle)

theorem State.Sound.hold {s : State} {subst : Subst} (h : s.Sound)
    (hsubst : Proper s.supply.next subst) : (s.hold subst).Sound where
  subst := hsubst
  held := List.forall_mem_cons.2 ⟨hsubst, h.held⟩
  free := h.free

theorem failAt_keeps {e : Expr} {f : Fault} (h : ∀ n, P n → f.IsOrdinary) :
    Keeps inferWatch P (failAt e f : Infer α) A := by
  refine Keeps.bind (A := fun _ => ⊤) (Keeps.modify (fun s => le_rfl) fun s hs _ _ => ?_)
    fun _ => Keeps.throw fun n hn => h n hn.1
  exact ⟨hs.subst, hs.held, hs.free⟩

/-- What comes behind a failure does not matter. -/
theorem failAt_bind {β : Type} {e : Expr} {f : Fault} {g : α → Infer β} :
    (failAt e f >>= g) = failAt e f := rfl

theorem blaming_keeps {e : Expr} {steps : Infer α} (h : Keeps inferWatch P steps A) :
    Keeps inferWatch P (blaming e steps) A :=
  h.tryCatch fun _ => failAt_keeps fun _ hf => hf

theorem warn_keeps (f : Fault) : Keeps inferWatch P (warn f) fun _ => ⊤ :=
  Keeps.modify (fun _ => le_rfl) fun _ hs _ _ => ⟨hs.subst, hs.held, hs.free⟩

theorem log_keeps (line : String) : Keeps inferWatch P (log line) fun _ => ⊤ :=
  Keeps.modify (fun _ => le_rfl) fun _ hs _ _ => ⟨hs.subst, hs.held, hs.free⟩

theorem fresh_keeps {steps : Fresh α} (h : Keeps freshWatch P steps A) :
    Keeps inferWatch P (fresh steps) A :=
  h.zoom (fun _ => rfl) (fun _ _ => rfl) (fun _ _ => trivial)
    (fun _ _ hs _ hle hu => hs.advance hle hu) fun _ he => he

theorem freshVar_keeps : Keeps inferWatch P freshVar Ty.inScope :=
  (fresh_keeps (Formulary.fresh_keeps fun _ _ => trivial)).bind fun _ =>
    Keeps.pure fun _ h => Ty.within_var h.2.1

theorem instantiate_keeps (t : Ty) : Keeps inferWatch t.schemeBelow (instantiate t) Ty.inScope :=
  fresh_keeps (Formulary.instantiate_keeps t)

theorem known_keeps (t : Ty) : Keeps inferWatch t.inScope (known t) Ty.inScope := by
  refine Keeps.bind (A := fun s => (s.subst.apply t).inScope) (Keeps.get fun s hs ht => ?_)
    fun s => Keeps.pure fun n h => h.2
  exact Subst.within_apply hs.subst.2 ht

theorem freeName_keeps (name : String) : Keeps inferWatch P (freeName name) Ty.inScope := by
  refine Keeps.bind (A := fun s : State => Every (fun v : String × Int => Before v.2) s.free)
    (Keeps.get fun s hs _ => hs.free) fun s => ?_
  split
  · rename_i id hlookup
    obtain ⟨before, after, hfree, -⟩ := List.lookup_eq_some_iff.1 hlookup
    exact Keeps.pure fun n h => Ty.within_var (h.2 (name, id) (by simp [hfree]))
  · refine (fresh_keeps (Formulary.fresh_keeps fun _ _ => trivial)).bind fun id => ?_
    refine Keeps.bind (A := fun _ => ⊤) (Keeps.modify (fun s => le_rfl) fun s hs h _ => ?_)
      fun _ => Keeps.pure fun n h => Ty.within_var h.1.2.1
    exact ⟨hs.subst, hs.held, List.forall_mem_cons.2 ⟨h.2.1, hs.free⟩⟩

/-- What unifies two types, as far as they are known, is about variables that are not bound. -/
theorem State.Sound.refine {s : State} {found : Subst} (h : s.Sound) (hfound : found.Settled)
    (hscope : found.inScope s.supply.next)
    (hnew : found.Within fun x => s.subst.image x = .var x) : (s.refine found).Sound :=
  h.hold ⟨Subst.settled_compose h.subst.1 hfound hnew, Subst.within_compose h.subst.2 hscope⟩

theorem ordinary_of_unify {a b : Ty} {e : UnifyError} (ha : a.isMono = true)
    (hb : b.isMono = true) (h : Ty.unify a b = .error e) : (Fault.unify e).IsOrdinary := by
  have hne := Ty.ne_quantified_of_unify ha hb h
  cases e with
  | quantified => exact absurd rfl hne
  | _ => simp [Fault.IsOrdinary, Fault.kind, UnifyError.kind]

/-- The state with a line in its log, where unifications are logged. -/
def State.logged (s : State) (c : Context) (line : String) : State :=
  if c.trace then { s with log := s.log.push line } else s

@[simp] theorem State.logged_supply (s : State) (c : Context) (line : String) :
    (s.logged c line).supply = s.supply := by
  unfold logged
  split <;> rfl

@[simp] theorem State.logged_subst (s : State) (c : Context) (line : String) :
    (s.logged c line).subst = s.subst := by
  unfold logged
  split <;> rfl

@[simp] theorem State.logged_free (s : State) (c : Context) (line : String) :
    (s.logged c line).free = s.free := by
  unfold logged
  split <;> rfl

theorem State.Sound.logged {s : State} (h : s.Sound) (c : Context) (line : String) :
    (s.logged c line).Sound := by
  unfold State.logged
  split
  · exact ⟨h.subst, h.held, h.free⟩
  · exact h

theorem outcome_unify (c : Context) (a b : Ty) (s : State) :
    ∃ line, (unify c a b).outcome s =
      match Ty.unify (s.subst.apply a) (s.subst.apply b) with
      | .ok found => (.ok (), (s.logged c line).refine found)
      | .error e => (.error (.unify e), s.logged c line) := by
  refine ⟨"unify " ++ (s.subst.apply a).renderRaw ++ " ~ " ++ (s.subst.apply b).renderRaw, ?_⟩
  unfold unify known State.logged log
  cases htrace : c.trace with
  | false =>
      simp only [Attempt.outcome_bind, Attempt.outcome_get, Attempt.outcome_pure]
      cases Ty.unify (s.subst.apply a) (s.subst.apply b) with
      | ok found => rfl
      | error e => rfl
  | true =>
      simp only [Attempt.outcome_bind, Attempt.outcome_get, Attempt.outcome_pure, if_true,
        Attempt.outcome_modify]
      cases Ty.unify (s.subst.apply a) (s.subst.apply b) with
      | ok found => rfl
      | error e => rfl

theorem unify_keeps (c : Context) (a b : Ty) :
    Keeps inferWatch (a.inScope ⊓ b.inScope) (unify c a b) fun _ => ⊤ where
  grows s := by
    obtain ⟨line, hrun⟩ := outcome_unify c a b s
    rw [hrun]
    cases Ty.unify (s.subst.apply a) (s.subst.apply b) with
    | ok found => exact le_of_eq (s.logged_supply c line).symm
    | error e => exact le_of_eq (s.logged_supply c line).symm
  keeps s _ hs hpre := by
    obtain ⟨line, hrun⟩ := outcome_unify c a b s
    have ha := Subst.within_apply hs.subst.2 hpre.1
    have hb := Subst.within_apply hs.subst.2 hpre.2
    rw [hrun]
    cases hunify : Ty.unify (s.subst.apply a) (s.subst.apply b) with
    | error e => exact ⟨hs.logged c line, ordinary_of_unify ha.1 hb.1 hunify⟩
    | ok found =>
        have hgeneral := Ty.unify_mostGeneral ha.1 hb.1 hunify
        have hfixed := hs.subst.1.apply_within hs.subst.2.monoRange hpre.1.1
        have hfixed' := hs.subst.1.apply_within hs.subst.2.monoRange hpre.2.1
        refine ⟨(hs.logged c line).refine hgeneral.settled ?_ ?_, trivial⟩
        · refine hgeneral.within fun x hx => ?_
          rw [s.logged_supply]
          rcases List.mem_append.1 hx with hx | hx
          · exact ha.2 x hx
          · exact hb.2 x hx
        · refine hgeneral.within fun x hx => ?_
          rw [s.logged_subst]
          rcases List.mem_append.1 hx with hx | hx
          · exact hfixed.2 x hx
          · exact hfixed'.2 x hx

theorem requireIdempotent_keeps : Keeps inferWatch P requireIdempotent fun _ => ⊤ := by
  refine Keeps.bind (A := fun s : State => Known (s.subst.isIdempotent = true))
    (Keeps.get fun s hs _ => hs.subst.1.isIdempotent hs.subst.2.monoRange) fun s => ?_
  dsimp only
  split
  · exact Keeps.pure fun _ _ => trivial
  · rename_i hnot
    exact Keeps.throw fun _ h => absurd h.2 hnot

/-- The variables of annotated names. -/
def annotationsBefore (names : Annotations) : Upward :=
  Every (fun v : String × Int => Before v.2) names

theorem annotated_keeps (c : Context) (scope : Scope) (names : Annotations) (e : TypeExpr) :
    Keeps inferWatch (Known (e.isWhole = true) ⊓ scope.inScope ⊓ annotationsBefore names)
      (annotated c scope names e) fun r => r.1.inScope ⊓ annotationsBefore r.2 := by
  have hresolve := c.data.resolve_keeps scope true e
  refine fresh_keeps ⟨fun s => hresolve.grows ⟨s, names⟩, fun s hs _ hpre => ⟨trivial, ?_⟩⟩
  obtain ⟨hnames, hout⟩ := hresolve.keeps ⟨s, names⟩ hs hpre.2 hpre.1
  show Ends _ _ (((Attempt.outcome (c.data.resolve scope true e) ⟨s, names⟩).1).map
    (·, (Attempt.outcome (c.data.resolve scope true e) ⟨s, names⟩).2.vars))
  cases hresult : (Attempt.outcome (c.data.resolve scope true e) ⟨s, names⟩).1 with
  | ok t =>
      rw [hresult] at hout
      exact ⟨hout, hnames⟩
  | error f =>
      rw [hresult] at hout
      exact hout

theorem annotatedList_keeps (c : Context) (scope : Scope) (names : Annotations)
    (es : List TypeExpr) :
    Keeps inferWatch
      (Known (TypeExpr.isWholeList es = true) ⊓ scope.inScope ⊓ annotationsBefore names)
      (annotatedList c scope names es) fun r => Every Ty.inScope r.1 ⊓ annotationsBefore r.2 := by
  induction es generalizing names with
  | nil => exact Keeps.pure fun n h => ⟨every_nil _ n, h.2⟩
  | cons e es ih =>
      rw [annotatedList]
      have hwhole : ∀ n, Known (TypeExpr.isWholeList (e :: es) = true) n →
          e.isWhole = true ∧ TypeExpr.isWholeList es = true := fun n h =>
        Bool.and_eq_true_iff.1 h
      refine (annotated_keeps c scope names e).followedBy
        (fun n h => ⟨⟨(hwhole n h.1.1).1, h.1.2⟩, h.2⟩) fun r => ?_
      refine (ih r.2).followedBy (fun n h => ⟨⟨(hwhole n h.1.1.1).2, h.1.1.2⟩, h.2.2⟩)
        fun rs => ?_
      exact Keeps.pure fun n h => ⟨every_cons.2 ⟨h.1.2.1, h.2.1⟩, h.2.2⟩

theorem outcome_fresh (steps : Fresh α) (s : State) :
    (fresh steps).outcome s =
      ((Attempt.outcome steps s.supply).1,
        { s with supply := (Attempt.outcome steps s.supply).2 }) := rfl

theorem outcome_blaming (e : Expr) (steps : Infer α) (s : State) :
    (blaming e steps).outcome s =
      match steps.outcome s with
      | (.ok a, s') => (.ok a, s')
      | (.error f, s') => (.error f, { s' with failure := s'.failure.or (some (f, e)) }) := by
  rw [blaming, Attempt.outcome_tryCatch]
  cases steps.outcome s with
  | mk r s' =>
      cases r with
      | ok a => rfl
      | error f => rfl

theorem outcome_bindPattern (c : Context) (e : Expr) (p : Pattern) (scrutinee : Ty) (s : State) :
    (bindPattern c e p scrutinee).outcome s =
      match Attempt.outcome (p.check c.data (s.subst.apply scrutinee)) s.supply with
      | (.ok typing, supply) => (.ok typing.bindings, State.refine { s with supply } typing.subst)
      | (.error f, supply) =>
        (.error f, { s with supply, failure := s.failure.or (some (f, e)) }) := by
  unfold bindPattern known
  simp only [Attempt.outcome_bind, Attempt.outcome_get, Attempt.outcome_pure, outcome_blaming,
    outcome_fresh]
  cases Attempt.outcome (p.check c.data (s.subst.apply scrutinee)) s.supply with
  | mk r supply =>
      cases r with
      | ok typing => rfl
      | error f => rfl

/-- The bindings of a pattern are monotypes in scope. -/
def monoEnv (env : TypeEnv) : Upward :=
  Every (fun b : String × Ty => b.2.inScope) env.entries

theorem bindPattern_keeps (c : Context) (e : Expr) (p : Pattern) (scrutinee : Ty) :
    Keeps inferWatch (Known (c.data.isWhole = true) ⊓ scrutinee.inScope)
      (bindPattern c e p scrutinee) monoEnv where
  grows s := by
    have hgrows := (Pattern.check_keeps (P := ⊤) (F := fun _ => True) c.data (fun _ _ => trivial) p
      (s.subst.apply scrutinee)).grows s.supply
    rw [outcome_bindPattern]
    revert hgrows
    cases Attempt.outcome (p.check c.data (s.subst.apply scrutinee)) s.supply with
    | mk r supply =>
        intro hgrows
        cases r with
        | ok typing => exact hgrows
        | error f => exact hgrows
  keeps s hs hsound hpre := by
    have hnew : ∀ n, s.subst.inScope n → s.subst.image n = .var n := fun n hn =>
      Subst.image_of_get?_eq_none (Option.eq_none_iff_forall_ne_some.2 fun u hu =>
        Int.lt_irrefl n (hn n u hu).1)
    have hcheck := Pattern.check_keeps c.data hnew p (s.subst.apply scrutinee)
    have hgrows := hcheck.grows s.supply
    have hkeeps := hcheck.keeps s.supply
    have hfixed := hsound.subst.1.apply_within hsound.subst.2.monoRange hpre.2.1
    rw [outcome_bindPattern] at hs ⊢
    revert hs hgrows hkeeps
    cases Attempt.outcome (p.check c.data (s.subst.apply scrutinee)) s.supply with
    | mk r supply =>
        intro hs hgrows hkeeps
        have hkept := fun hu : supply.Unwrapped => (hkeeps hu trivial
          ⟨⟨hpre.1, hsound.subst.2⟩, Subst.within_apply hsound.subst.2 hpre.2, hfixed⟩).2
        cases r with
        | error f => exact ⟨⟨(hsound.advance hgrows hs).subst, (hsound.advance hgrows hs).held,
            (hsound.advance hgrows hs).free⟩, hkept hs⟩
        | ok typing =>
            obtain ⟨hscope, hbound⟩ := hkept hs
            refine ⟨(hsound.advance hgrows hs).refine hbound.settled hscope.subst hbound.subst, ?_⟩
            intro b hb
            exact hscope.bindings b.1 b.2 ((SortedMap.get?_eq_some_iff _ _ _).2 hb)

theorem reviewCases_keeps (c : Context) (e : Expr) (scrutinee : Ty) (ps : List Pattern) :
    Keeps inferWatch P (reviewCases c e scrutinee ps) fun _ => ⊤ := by
  have hunreachable : ∀ {P : Upward}, Keeps inferWatch P
      ((Pattern.unreachable ps).forM fun i => warn (.unreachable (ps[i]?.getD .wildcard) i))
      fun _ => ⊤ := Keeps.forM fun _ _ => warn_keeps _
  refine (fresh_keeps (Pattern.missing_grows c.data ps scrutinee).keeps).bind fun missing => ?_
  refine Keeps.ite hunreachable (Keeps.ite ?_ ?_)
  · rw [failAt_bind]
    refine failAt_keeps fun _ _ => ?_
    simp [Fault.IsOrdinary, Fault.kind]
  · exact (warn_keeps _).bind fun _ => hunreachable

theorem takeValue_keeps (c : Context) (field actual : Ty) :
    Keeps inferWatch (field.inScope ⊓ actual.inScope)
      (match field with
        | .var _ => unify c field actual
        | _ => return ()) fun _ => ⊤ := by
  split
  · exact unify_keeps c _ actual
  · exact Keeps.pure fun _ _ => trivial

theorem bindValue_keeps (c : Context) (kind : ParamKind) (field : Ty) (refusal : Fault)
    (actual : Ty) :
    Keeps inferWatch (field.inScope ⊓ actual.inScope ⊓ Known refusal.IsOrdinary)
      (bindValue c kind field refusal actual) fun _ => ⊤ := by
  have htake : Keeps inferWatch (field.inScope ⊓ actual.inScope ⊓ Known refusal.IsOrdinary) _
      fun _ => ⊤ := (takeValue_keeps c field actual).of_pre fun n h => h.1
  have hrefuse : Keeps inferWatch (field.inScope ⊓ actual.inScope ⊓ Known refusal.IsOrdinary)
      (throw refusal : Infer Unit) fun _ => ⊤ := Keeps.throw fun n h => h.2
  have hpass : Keeps inferWatch (field.inScope ⊓ actual.inScope ⊓ Known refusal.IsOrdinary)
      (pure () : Infer Unit) fun _ => ⊤ := Keeps.pure fun _ _ => trivial
  cases actual with
  | var => exact hpass
  | prim => exact Keeps.ite hpass hrefuse
  | nat => exact Keeps.ite htake hrefuse
  | tag => exact Keeps.ite htake hrefuse
  | blank | data | fn | poly => exact hrefuse

theorem within_literal? {F : Int → Prop} {kind : ParamKind} {arg : Expr} {t : Ty}
    (h : literal? kind arg = some t) : t.Within F := by
  unfold literal? at h
  split at h
  · obtain ⟨n, -, rfl⟩ := Option.map_eq_some_iff.1 h
    exact Ty.within_nat _
  · obtain ⟨value, -, rfl⟩ := Option.map_eq_some_iff.1 h
    exact Ty.within_tag _
  · cases h

theorem bindField_keeps (c : Context) (v : VariantInstance) (index : Nat) (field : FieldInstance)
    (arg : Expr) (argType : Ty) :
    Keeps inferWatch (field.type.inScope ⊓ argType.inScope)
      (bindField c v index field arg argType) fun _ => ⊤ := by
  have hrefusal : ∀ actual, (Fault.notLiteral v.name field.kind
      (field.label.getD (toString (index + 1))) arg actual).IsOrdinary := fun _ => by
    simp [Fault.IsOrdinary, Fault.kind]
  unfold bindField
  refine Keeps.ite (unify_keeps c field.type argType) ?_
  split
  · rename_i value hvalue
    split
    · rename_i id htype
      exact (unify_keeps c _ value).of_pre fun n h => ⟨htype ▸ h.1, within_literal? hvalue⟩
    · exact Keeps.pure fun _ _ => trivial
  · exact Keeps.throw fun _ _ => hrefusal _
  · refine (known_keeps argType).followedBy (fun n h => h.2) fun actual => ?_
    exact (bindValue_keeps c _ _ _ actual).of_pre fun n h => ⟨⟨h.1.1, h.2⟩, hrefusal _⟩

/-- The fields of a variant. -/
def fieldsInScope (fields : List FieldInstance) : Upward :=
  Every (fun f : FieldInstance => f.type.inScope) fields

/-- The types of arguments. -/
def argsInScope (args : List (Expr × Ty)) : Upward :=
  Every (fun a : Expr × Ty => a.2.inScope) args

theorem bindFields_keeps (c : Context) (v : VariantInstance) (index : Nat)
    (fields : List FieldInstance) (args : List (Expr × Ty)) :
    Keeps inferWatch (fieldsInScope fields ⊓ argsInScope args) (bindFields c v index fields args)
      fun _ => ⊤ := by
  induction fields generalizing index args with
  | nil =>
      rw [bindFields]
      · exact Keeps.pure fun _ _ => trivial
      · simp
  | cons field fields ih =>
      cases args with
      | nil =>
          rw [bindFields]
          · exact Keeps.pure fun _ _ => trivial
          · simp
      | cons arg args =>
          rw [bindFields]
          refine (bindField_keeps c v index field arg.1 arg.2).followedBy
            (fun n h => ⟨(every_cons.1 h.1).1, (every_cons.1 h.2).1⟩) fun _ => ?_
          exact (ih (index + 1) args).of_pre fun n h =>
            ⟨(every_cons.1 h.1.1).2, (every_cons.1 h.1.2).2⟩

theorem bindElements_keeps (c : Context) (element : Ty) (args : List (Expr × Ty)) :
    Keeps inferWatch (element.inScope ⊓ argsInScope args) (bindElements c element args)
      fun _ => ⊤ := by
  induction args with
  | nil => exact Keeps.pure fun _ _ => trivial
  | cons arg args ih =>
      rw [bindElements]
      refine (blaming_keeps (unify_keeps c element arg.2)).followedBy
        (fun n h => ⟨h.1, (every_cons.1 h.2).1⟩) fun _ => ?_
      exact ih.of_pre fun n h => ⟨h.1.1, (every_cons.1 h.1.2).2⟩

theorem exists_last_of_areElements {v : VariantInstance} {args : List Expr}
    (h : areElements v args = true) : ∃ last, v.fields.getLast? = some last := by
  have htwo : 2 ≤ v.fields.length := by
    simp only [areElements, VariantInstance.isShaped, Bool.and_eq_true, decide_eq_true_eq] at h
    exact h.1.1.1.2
  refine Option.isSome_iff_exists.1 ?_
  rw [List.getLast?_isSome]
  rintro hnil
  simp [hnil] at htwo

theorem arguments_keeps (c : Context) (e : Expr) (name : String) (args : List (Expr × Ty))
    (v : VariantInstance) :
    Keeps inferWatch (v.inScope ⊓ argsInScope args) (do
      if args.length = v.fields.length then blaming e (bindFields c v 0 v.fields args)
      else if areElements v (args.map (·.1)) then
        let dims := v.fields.length - 1
        blaming e (bindFields c v 0 (v.fields.take dims) (args.take dims))
        bindElements c ((v.fields.getLast?.map (·.type)).getD .blank) (args.drop dims)
      else failAt e (.constructorArity name v.fields.length args.length)
      known v.result) Ty.inScope := by
  have hresult : ∀ {Q : Upward}, (∀ n, Q n → v.inScope n) →
      Keeps inferWatch Q (known v.result) Ty.inScope := fun hQ =>
    (known_keeps v.result).of_pre fun n h => (hQ n h).1
  refine Keeps.ite ?_ (Keeps.iteOf (fun hshaped => ?_) fun _ => ?_)
  · refine (blaming_keeps (bindFields_keeps c v 0 v.fields args)).followedBy
      (fun n h => ⟨h.1.2, h.2⟩) fun _ => ?_
    exact hresult fun n h => h.1.1
  · obtain ⟨last, hlast⟩ := exists_last_of_areElements hshaped
    refine (blaming_keeps (bindFields_keeps c v 0 _ _)).followedBy (fun n h =>
      ⟨fun f hf => h.1.2 f (List.mem_of_mem_take hf),
        fun a ha => h.2 a (List.mem_of_mem_take ha)⟩) fun _ => ?_
    refine (bindElements_keeps c _ _).followedBy (fun n h => ?_) fun _ => ?_
    · rw [hlast]
      exact ⟨h.1.1.2 last (List.mem_of_getLast? hlast),
        fun a ha => h.1.2 a (List.mem_of_mem_drop ha)⟩
    · exact hresult fun n h => h.1.1.1
  · rw [failAt_bind]
    exact failAt_keeps fun _ _ => by simp [Fault.IsOrdinary, Fault.kind]

theorem inferConstruction_keeps (c : Context) (e : Expr) (name : String)
    (args : List (Expr × Ty)) :
    Keeps inferWatch (Known (c.data.isWhole = true) ⊓ argsInScope args)
      (inferConstruction c e name args) Ty.inScope := by
  have hvariant := c.data.instantiate_keeps (P := ⊤) (F := fun _ => True) name fun _ _ => trivial
  refine (blaming_keeps (fresh_keeps hvariant)).followedBy (fun n h => ⟨h.1, trivial⟩) fun v => ?_
  exact (arguments_keeps c e name args v).of_pre fun n h => ⟨h.2.1, h.1.2⟩

theorem unifyFor_keeps (c : Context) (requirer : Requirer) (e : Expr) (a b : Ty) :
    Keeps inferWatch (a.inScope ⊓ b.inScope) (unifyFor c requirer e a b) fun _ => ⊤ := by
  refine (unify_keeps c a b).tryCatch fun f => failAt_keeps fun n hf => ?_
  have hordinary : f.IsOrdinary := hf
  unfold asDimensions
  split
  · split
    · simp [Fault.IsOrdinary, Fault.kind]
    · exact hordinary
  · exact hordinary

theorem inferApplication_keeps (c : Context) (e : Expr) (name : String) (t : Ty)
    (args : List Ty) :
    Keeps inferWatch (t.schemeBelow ⊓ Every Ty.inScope args) (inferApplication c e name t args)
      Ty.inScope := by
  unfold inferApplication
  refine (instantiate_keeps t).followedBy (fun n h => h.1) fun fn => ?_
  refine (known_keeps fn).followedBy (fun n h => h.2) fun fn' => ?_
  have hrest : ∀ {Q : Upward}, (∀ n, Q n → fn.inScope n ∧ Every Ty.inScope args n) →
      Keeps inferWatch Q (do
        let result ← freshVar
        unifyFor c (.function name) e fn (Ty.curry args result)
        known result) Ty.inScope := by
    intro Q hQ
    refine freshVar_keeps.bind fun result => ?_
    refine (unifyFor_keeps c _ e fn _).followedBy (fun n h =>
      ⟨(hQ n h.1).1, Ty.within_curry.2 ⟨(hQ n h.1).2, h.2⟩⟩) fun _ => ?_
    exact (known_keeps result).of_pre fun n h => h.1.2
  split
  · refine Keeps.ite ?_ (hrest fun n h => ⟨h.1.2, h.1.1.2⟩)
    rw [failAt_bind]
    exact failAt_keeps fun _ _ => by simp [Fault.IsOrdinary, Fault.kind]
  · exact hrest fun n h => ⟨h.1.2, h.1.1.2⟩

theorem meetConstraints_keeps (c : Context) (requirer : Requirer) (e : Expr)
    (constraints : List Signature.Constraint) :
    Keeps inferWatch (Every (fun k => k.expected.inScope ⊓ k.actual.inScope) constraints)
      (meetConstraints c requirer e constraints) fun _ => ⊤ := by
  induction constraints with
  | nil => exact Keeps.pure fun _ _ => trivial
  | cons k rest ih =>
      rw [meetConstraints]
      refine (unifyFor_keeps c requirer e _ _).followedBy (fun n h => (every_cons.1 h).1)
        fun _ => ?_
      exact ih.of_pre fun n h => (every_cons.1 h.1).2

theorem inferOperation_keeps (c : Context) (e : Expr) (s : Structure) (op : Operation)
    (args : List Ty) :
    Keeps inferWatch (Known (op.signature.isWhole = true) ⊓ Every Ty.inScope args)
      (inferOperation c e s op args) Ty.inScope := by
  have hargs : Keeps inferWatch (Every Ty.inScope args) (args.mapM known) (Every Ty.inScope) :=
    Keeps.mapM fun a ha => (known_keeps a).of_pre fun n h => h a ha
  unfold inferOperation
  refine hargs.followedBy (fun n h => h.2) fun before => ?_
  refine (blaming_keeps (fresh_keeps (Signature.Call.interpret_keeps _))).followedBy
    (fun n h => ⟨h.1.1, h.2⟩) fun o => ?_
  refine (meetConstraints_keeps c _ e o.constraints).followedBy (fun n h => h.2.2) fun _ => ?_
  refine Keeps.ite ?_ ((known_keeps o.type).of_pre fun n h => h.1.2.1)
  refine hargs.followedBy (fun n h => h.1.1.1.2) fun after => ?_
  refine (blaming_keeps (fresh_keeps (c.registry.validate_keeps s.name op.name after))).bind
    fun _ => ?_
  exact (known_keeps o.type).of_pre fun n h => h.1.1.1.2.1

theorem inferName_keeps (c : Context) (env : TypeEnv) (name : String) :
    Keeps inferWatch (Known (c.registry.isWhole = true) ⊓ env.inScope) (inferName c env name)
      Ty.inScope := by
  unfold inferName
  split
  · rename_i t ht
    exact (instantiate_keeps t).of_pre fun n h => h.2 name t ht
  · split
    · exact (inferConstruction_keeps c _ name []).of_pre fun n h =>
        ⟨Registry.isWhole_data h.1, every_nil _ n⟩
    · rename_i s op hop _
      refine Keeps.ite ?_ (freeName_keeps name)
      exact (inferOperation_keeps c _ s op []).of_pre fun n h =>
        ⟨(Registry.isWhole_of_operation? h.1 hop).2, every_nil _ n⟩
    · exact freeName_keeps name

theorem inferCall_keeps (c : Context) (env : TypeEnv) (name : String) (args : List Expr)
    (types : List Ty) :
    Keeps inferWatch (Known (c.registry.isWhole = true) ⊓ env.inScope ⊓ Every Ty.inScope types)
      (inferCall c env name args types) Ty.inScope := by
  unfold inferCall
  refine Keeps.ite ?_ ?_
  · refine (inferConstruction_keeps c _ name (args.zip types)).of_pre fun n h =>
      ⟨Registry.isWhole_data h.1.1, fun a ha => h.2 a.2 (List.of_mem_zip ha).2⟩
  · split
    · rename_i t ht
      exact (inferApplication_keeps c _ name t types).of_pre fun n h => ⟨h.1.2 name t ht, h.2⟩
    · rename_i s op _ hop
      exact (inferOperation_keeps c _ s op types).of_pre fun n h =>
        ⟨(Registry.isWhole_of_operation? h.1.1 hop).2, h.2⟩
    · exact failAt_keeps fun _ _ => by simp [Fault.IsOrdinary, Fault.kind]

/-- What inference starts from: whole declarations and an environment in scope. -/
def ready (c : Context) (env : TypeEnv) : Upward :=
  Known (c.registry.isWhole = true) ⊓ env.inScope

mutual

theorem infer_keeps (c : Context) (env : TypeEnv) (e : Expr) :
    Keeps inferWatch (ready c env ⊓ Known (e.isWhole = true)) (infer c env e) Ty.inScope := by
  cases e with
  | blank => exact Keeps.throw fun _ h => absurd h.2 (by simp [Known, Expr.isWhole])
  | const value => exact Keeps.pure fun _ _ => Ty.within_scalar
  | object name => exact (inferName_keeps c env name).of_pre fun n h => h.1
  | operation name args =>
      rw [infer]
      refine (inferList_keeps c env args).bind fun types => ?_
      exact (inferCall_keeps c env name args types).of_pre fun n h => ⟨h.1.1, h.2⟩
  | matching scrutinee cases =>
      rw [infer]
      have hwhole : ∀ n, Known ((Expr.matching scrutinee cases).isWhole = true) n →
          scrutinee.isWhole = true ∧ Expr.isWholeCases cases = true := fun n h =>
        Bool.and_eq_true_iff.1 h
      have hrest : ∀ {Q : Upward}, (∀ n, Q n → (ready c env n ∧ cases ≠ []) ∧
          scrutinee.isWhole = true ∧ Expr.isWholeCases cases = true) →
          Keeps inferWatch Q (do
            let t ← infer c env scrutinee
            let result ← inferCases c env (.matching scrutinee cases) t none cases
            reviewCases c (.matching scrutinee cases) (← known t) (cases.map (·.1))
            known (result.getD .blank)) Ty.inScope := by
        intro Q hQ
        refine (infer_keeps c env scrutinee).followedBy
          (fun n h => ⟨(hQ n h).1.1, (hQ n h).2.1⟩) fun t => ?_
        refine (inferCases_keeps c env (.matching scrutinee cases) t none cases).followedBy
          (fun n h => ⟨⟨(hQ n h.1).1.1, (hQ n h.1).2.2⟩, h.2, every_nil _ n⟩) fun result => ?_
        refine (known_keeps t).followedBy (fun n h => h.1.2) fun t' => ?_
        refine (reviewCases_keeps c _ t' _).bind fun _ => ?_
        refine (known_keeps _).of_pre fun n h => ?_
        obtain ⟨t, rfl⟩ := Option.isSome_iff_exists.1 (h.1.1.2.2 (.inr (hQ n h.1.1.1.1).1.2))
        exact h.1.1.2.1 t (by simp)
      refine Keeps.iteOf (fun _ => ?_) fun hnonempty => ?_
      · rw [failAt_bind]
        exact failAt_keeps fun _ _ => by simp [Fault.IsOrdinary, Fault.kind]
      · exact hrest fun n h => ⟨⟨h.1, by simpa using hnonempty⟩, hwhole n h.2⟩

theorem inferList_keeps (c : Context) (env : TypeEnv) (es : List Expr) :
    Keeps inferWatch (ready c env ⊓ Known (Expr.isWholeList es = true)) (inferList c env es)
      (Every Ty.inScope) := by
  cases es with
  | nil => exact Keeps.pure fun n _ => every_nil _ n
  | cons e es =>
      rw [inferList]
      have hwhole : ∀ n, Known (Expr.isWholeList (e :: es) = true) n →
          e.isWhole = true ∧ Expr.isWholeList es = true := fun n h =>
        Bool.and_eq_true_iff.1 h
      refine (infer_keeps c env e).followedBy (fun n h => ⟨h.1, (hwhole n h.2).1⟩) fun t => ?_
      refine (inferList_keeps c env es).followedBy (fun n h => ⟨h.1.1, (hwhole n h.1.2).2⟩)
        fun ts => ?_
      exact Keeps.pure fun n h => every_cons.2 ⟨h.1.2, h.2⟩

/-- The type of the cases before is in scope, and a match with a case has a type. -/
theorem inferCases_keeps (c : Context) (env : TypeEnv) (e : Expr) (scrutinee : Ty)
    (result : Option Ty) (cases : List (Pattern × Expr)) :
    Keeps inferWatch (ready c env ⊓ Known (Expr.isWholeCases cases = true) ⊓
        (scrutinee.inScope ⊓ Every Ty.inScope result.toList))
      (inferCases c env e scrutinee result cases)
      fun r => Every Ty.inScope r.toList ⊓ Known (result.isSome ∨ cases ≠ [] → r.isSome) := by
  match cases with
  | [] =>
      rw [inferCases]
      exact Keeps.pure fun n h => ⟨h.2.2, fun hsome => by simpa using hsome⟩
  | (p, body) :: rest =>
      rw [inferCases]
      have hwhole : ∀ n, Known (Expr.isWholeCases ((p, body) :: rest) = true) n →
          body.isWhole = true ∧ Expr.isWholeCases rest = true := fun n h =>
        Bool.and_eq_true_iff.1 h
      refine (bindPattern_keeps c e p scrutinee).followedBy
        (fun n h => ⟨Registry.isWhole_data h.1.1.1, h.2.1⟩) fun bindings => ?_
      refine (infer_keeps c (env.extend bindings.entries) body).followedBy (fun n h =>
        ⟨⟨h.1.1.1.1, TypeEnv.inScope_extend h.1.1.1.2 fun b hb =>
          Ty.schemeBelow_of_inScope (h.2 b hb)⟩, (hwhole n h.1.1.2).1⟩) fun t => ?_
      cases result with
      | none =>
          refine (inferCases_keeps c env e scrutinee (some t) rest).weaken (fun n h =>
            ⟨⟨h.1.1.1.1, (hwhole n h.1.1.1.2).2⟩, h.1.1.2.1, ?_⟩) fun r n h =>
              ⟨h.1, fun _ => h.2 (.inl rfl)⟩
          exact every_cons.2 ⟨h.2, every_nil _ n⟩
      | some result =>
          refine (blaming_keeps (unify_keeps c result t)).followedBy
            (fun n h => ⟨h.1.1.2.2 result (by simp), h.2⟩) fun _ => ?_
          refine (inferCases_keeps c env e scrutinee (some result) rest).weaken (fun n h =>
            ⟨⟨h.1.1.1.1.1, (hwhole n h.1.1.1.1.2).2⟩, h.1.1.1.2⟩) fun r n h =>
              ⟨h.1, fun _ => h.2 (.inl rfl)⟩

end

theorem State.Sound.reset {s : State} (h : s.Sound) : s.reset.Sound := by
  have hempty : Proper s.supply.next ∅ := ⟨Subst.settled_empty, Subst.within_empty⟩
  exact ⟨(h.hold hempty).subst, (h.hold hempty).held, fun v hv => absurd hv List.not_mem_nil⟩

theorem reset_keeps : Keeps inferWatch P (modify State.reset : Infer PUnit) fun _ => ⊤ :=
  Keeps.modify (fun s => s.supply.le_resetCount) fun _ hs _ _ => hs.reset

theorem inferExpr_keeps (c : Context) (env : TypeEnv) (e : Expr) :
    Keeps inferWatch (ready c env ⊓ Known (e.isWhole = true)) (inferExpr c env e)
      Ty.inScope := by
  have hrest : Keeps inferWatch (ready c env ⊓ Known (e.isWhole = true)) (do
      modify State.reset
      let t ← infer c env e
      blaming e requireIdempotent
      let t ← known t
      if c.trace then
        log ("infer " ++ e.render ++ " : " ++ t.render ++ " (" ++ toString (← get).supply.count ++
          " type-variables)")
      return t) Ty.inScope := by
    refine reset_keeps.bind fun _ => ?_
    refine (infer_keeps c env e).followedBy (fun n h => h.1) fun t => ?_
    refine (blaming_keeps requireIdempotent_keeps).bind fun _ => ?_
    refine (known_keeps t).followedBy (fun n h => h.1.2) fun t' => ?_
    refine Keeps.ite ?_ (Keeps.pure fun n h => h.2)
    refine Keeps.bind (A := fun _ => ⊤) (Keeps.get fun _ _ _ => trivial) fun s => ?_
    exact (log_keeps _).bind fun _ => Keeps.pure fun n h => h.1.1.2
  unfold inferExpr
  cases e with
  | blank =>
      refine Keeps.bind (A := fun _ => ⊥) (Keeps.throw fun _ h => ?_) fun _ =>
        hrest.of_pre fun n h => h.2.elim
      exact absurd h.2 (by simp [Known, Expr.isWhole])
  | const | object | operation | matching => exact hrest

end Formulary.Inference
