import Formulary.Proofs.Exhaustiveness
import Formulary.Proofs.History

namespace Formulary

theorem Attempt.returns_of_fst {σ ε α : Type} {m : Attempt σ ε α} {s : σ} {a : α}
    (h : (m.outcome s).1 = .ok a) : m.Returns s a (m.outcome s).2 := by
  rw [Returns, ← h]

namespace Ty

mutual

theorem freeOccurrences_of_isGround {t : Ty} (h : t.isGround = true) : t.freeOccurrences = [] := by
  cases t with
  | blank | prim | nat | tag => rfl
  | var | poly => cases h
  | data name constructor args => exact freeOccurrencesList_of_isGroundList h
  | fn a b =>
      obtain ⟨ha, hb⟩ := Bool.and_eq_true_iff.1 h
      rw [freeOccurrences, freeOccurrences_of_isGround ha, freeOccurrences_of_isGround hb,
        List.append_nil]

theorem freeOccurrencesList_of_isGroundList {ts : List Ty} (h : isGroundList ts = true) :
    freeOccurrencesList ts = [] := by
  cases ts with
  | nil => rfl
  | cons t ts =>
      obtain ⟨ht, hts⟩ := Bool.and_eq_true_iff.1 h
      rw [freeOccurrencesList, freeOccurrences_of_isGround ht,
        freeOccurrencesList_of_isGroundList hts, List.append_nil]

end

theorem bind_of_isGround {t : Ty} (h : t.isGround = true) (f : Int → Ty) : t.bind f = t := by
  refine bind_eq_self fun x hx => ?_
  rw [freeOccurrences_of_isGround h] at hx
  exact absurd hx List.not_mem_nil

mutual

theorem bind_bind_of_isGround {t : Ty} {f : Int → Ty} (g : Int → Ty)
    (h : (t.bind f).isGround = true) : (t.bind fun x => (f x).bind g) = t.bind f := by
  cases t with
  | blank | prim | nat | tag => rfl
  | var id => exact bind_of_isGround h g
  | data name constructor args => exact congrArg _ (bindList_bindList_of_isGroundList g h)
  | fn a b =>
      obtain ⟨ha, hb⟩ := Bool.and_eq_true_iff.1 h
      exact congrArg₂ Ty.fn (bind_bind_of_isGround g ha) (bind_bind_of_isGround g hb)
  | poly id body => cases h

theorem bindList_bindList_of_isGroundList {ts : List Ty} {f : Int → Ty} (g : Int → Ty)
    (h : isGroundList (bindList f ts) = true) :
    (bindList (fun x => (f x).bind g) ts) = bindList f ts := by
  cases ts with
  | nil => rfl
  | cons t ts =>
      obtain ⟨ht, hts⟩ := Bool.and_eq_true_iff.1 h
      exact congrArg₂ List.cons (bind_bind_of_isGround g ht)
        (bindList_bindList_of_isGroundList g hts)

end

mutual

theorem shows_of_isGround (f : Int → Int) {t : Ty} (h : t.isGround = true) :
    t.rename f = t ∧ t.IsOver fun _ _ => True := by
  cases t with
  | blank | prim | nat | tag => exact ⟨rfl, trivial⟩
  | var | poly => cases h
  | data name constructor args =>
      obtain ⟨hrename, hover⟩ := showsList_of_isGroundList f h
      exact ⟨congrArg _ hrename, trivial, hover⟩
  | fn a b =>
      obtain ⟨ha, hb⟩ := Bool.and_eq_true_iff.1 h
      obtain ⟨hrename, hover⟩ := shows_of_isGround f ha
      obtain ⟨hrename', hover'⟩ := shows_of_isGround f hb
      exact ⟨congrArg₂ _ hrename hrename', hover, hover'⟩

theorem showsList_of_isGroundList (f : Int → Int) {ts : List Ty} (h : isGroundList ts = true) :
    renameList f ts = ts ∧ IsOverList (fun _ _ => True) ts := by
  cases ts with
  | nil => exact ⟨rfl, trivial⟩
  | cons t ts =>
      obtain ⟨ht, hts⟩ := Bool.and_eq_true_iff.1 h
      obtain ⟨hrename, hover⟩ := shows_of_isGround f ht
      obtain ⟨hrename', hover'⟩ := showsList_of_isGroundList f hts
      exact ⟨congrArg₂ _ hrename hrename', hover, hover'⟩

end

end Ty

theorem Subst.RefinedTo.apply_of_isGround {s s' : Subst} (h : s.RefinedTo s') {t : Ty}
    (ht : (s.apply t).isGround = true) : s'.apply t = s.apply t := by
  induction h with
  | refl => rfl
  | @tail s₁ s₂ _ hstep ih =>
      obtain ⟨found, rfl⟩ := hstep
      rw [← ih, apply_eq_bind] at ht
      rw [← ih, apply_eq_bind, apply_eq_bind, ← Ty.bind_bind_of_isGround found.image ht]
      exact Ty.bind_congr fun x _ => by rw [image_compose, apply_eq_bind]

namespace Registry

/-- Some implementation of a structure takes arguments of some types, when new variables are
numbered on from some point. -/
def Accepts (r : Registry) (structureName operation : String) (args : List Ty) (u : Supply) :
    Prop :=
  (Attempt.outcome (r.validate structureName operation args) u).1 = .ok ()

theorem Accepts.of_isGround {r : Registry} {structureName operation : String} {args : List Ty}
    {u : Supply} (h : r.Accepts structureName operation args u)
    (hground : ∀ t ∈ args, t.isGround = true) (u' : Supply) :
    r.Accepts structureName operation args u' := by
  obtain ⟨ids, ahead, hsupply⟩ := exists_showsSupply (fun _ _ => True) u u'
  have hagree : r.Agrees ⟨ids, fun _ _ => True, ahead⟩ r :=
    agrees_self trivial (fun _ _ _ => trivial) fun _ _ _ => trivial
  have hargs : List.Forall₂ (Mirror.ShowsTy ⟨ids, fun _ _ => True, ahead⟩) args args :=
    List.forall₂_same.2 fun t ht => by
      obtain ⟨hrename, hover⟩ := Ty.shows_of_isGround ids (hground t ht)
      exact ⟨hrename.symm, hover⟩
  have hmirrors := validate_mirrors hagree structureName operation hargs u u' hsupply
  unfold Accepts at h ⊢
  revert hmirrors h
  rcases Attempt.outcome (r.validate structureName operation args) u with ⟨e | a, u₁⟩ <;>
    rcases Attempt.outcome (r.validate structureName operation args) u' with ⟨e' | b, u₁'⟩
  · exact fun h => nomatch h
  · exact fun h => nomatch h
  · exact fun _ => False.elim
  · exact fun _ _ => rfl

end Registry

namespace Inference

/-- The operation that an expression calls, if a structure declares it. Names that are known and
constructors come first. -/
def called? (c : Context) (known : String → Bool) : Expr → Option (Structure × Operation)
  | .object name =>
    if known name || (c.data.variant? name).any (·.2.fields.isEmpty) then none
    else (c.registry.operation? name).filter (·.2.signature.splitArrow.1.isEmpty)
  | .operation name _ =>
    if known name || (c.data.variant? name).isSome then none else c.registry.operation? name
  | .blank | .const _ | .matching _ _ => none

/-- What is said of a call, of the structure and the operation, of the types of the arguments, and
of the state in which inference comes to the call. -/
abbrev OfCall := Expr → Structure → Operation → List Ty → State → Prop

/-- Lets the type of a case agree with the type of the cases before it. -/
def agree (c : Context) (body : Expr) (result : Option Ty) (t : Ty) : Infer Unit :=
  match result with
  | none => return ()
  | some result => blaming body (unify c result t)

theorem inferCases_cons (c : Context) (env : TypeEnv) (e : Expr) (scrutinee : Ty)
    (result : Option Ty) (p : Pattern) (body : Expr) (rest : List (Pattern × Expr)) :
    inferCases c env e scrutinee result ((p, body) :: rest) = (do
      let bindings ← bindPattern c e p scrutinee
      let t ← infer c (env.extend bindings.entries) body
      agree c body result t
      inferCases c env e scrutinee (some (result.getD t)) rest) := by
  rw [inferCases]
  cases result with
  | none => rfl
  | some result => rfl

section

variable (c : Context) (P : OfCall)

def AtCall (env : TypeEnv) (e : Expr) (args : List Ty) (s : State) : Prop :=
  ∀ i op, called? c (knows env) e = some (i, op) → P e i op args s

mutual

/-- Something holds at every call in an expression of an operation that a structure declares, as
inference comes to the calls from some state. -/
def AtCalls (env : TypeEnv) : Expr → State → Prop
  | .blank, _ | .const _, _ => True
  | .object name, s => AtCall c P env (.object name) [] s
  | .operation name args, s =>
    AtCallsList env args s ∧ ∃ types s', (inferList c env args).Returns s types s' ∧
      AtCall c P env (.operation name args) types s'
  | .matching scrutinee cases, s =>
    AtCalls env scrutinee s ∧ ∃ t s', (infer c env scrutinee).Returns s t s' ∧
      AtCallsCases env (.matching scrutinee cases) t none cases s'

def AtCallsList (env : TypeEnv) : List Expr → State → Prop
  | [], _ => True
  | e :: es, s =>
    AtCalls env e s ∧ ∃ t s', (infer c env e).Returns s t s' ∧ AtCallsList env es s'

def AtCallsCases (env : TypeEnv) (e : Expr) (scrutinee : Ty) (result : Option Ty) :
    List (Pattern × Expr) → State → Prop
  | [], _ => True
  | (p, body) :: rest, s => ∃ bindings s₁, (bindPattern c e p scrutinee).Returns s bindings s₁ ∧
    AtCalls (env.extend bindings.entries) body s₁ ∧
      ∃ t s₂ s₃, (infer c (env.extend bindings.entries) body).Returns s₁ t s₂ ∧
        (agree c body result t).Returns s₂ () s₃ ∧
          AtCallsCases env e scrutinee (some (result.getD t)) rest s₃

end

end

/-- What inference does about a call before it looks for an implementation. -/
def readCall (c : Context) (e : Expr) (i : Structure) (op : Operation) (args : List Ty) :
    Infer Signature.Outcome := do
  let before ← args.mapM known
  let outcome ← blaming e (fresh (Signature.Call.interpret ⟨c.registry, i, op, before, c.lenient⟩))
  meetConstraints c (.operation i.name op.name) e outcome.constraints
  return outcome

/-- A call has an implementation for the types of its arguments as they are known when inference has
come to it and the call itself has been read. If these are known in full then, they are what is
known in the end. -/
def Implemented (c : Context) (final : Subst) : OfCall := fun e i op args s =>
  ∃ outcome s', (readCall c e i op args).Returns s outcome s' ∧
    c.registry.Accepts i.name op.name (args.map s'.subst.apply) s'.supply ∧
    ((∀ t ∈ args, (s'.subst.apply t).isGround = true) →
      args.map final.apply = args.map s'.subst.apply ∧
        ∀ u, c.registry.Accepts i.name op.name (args.map final.apply) u)

theorem inferOperation_eq (c : Context) (e : Expr) (i : Structure) (op : Operation)
    (args : List Ty) : inferOperation c e i op args = (do
      let outcome ← readCall c e i op args
      if c.implemented then
        let after ← args.mapM known
        blaming e (fresh (c.registry.validate i.name op.name after))
      known outcome.type) := by
  simp only [inferOperation, readCall, bind_assoc, pure_bind]

theorem returns_mapM_known (ts : List Ty) (s : State) :
    (ts.mapM known).Returns s (ts.map s.subst.apply) s := by
  induction ts with
  | nil => rfl
  | cons t ts ih =>
      rw [List.mapM_cons]
      exact Attempt.returns_bind_iff.2 ⟨_, s, rfl, Attempt.returns_bind_iff.2 ⟨_, s, ih, rfl⟩⟩

theorem implemented_of_inferOperation {c : Context} (hc : c.implemented = true) {e : Expr}
    {i : Structure} {op : Operation} {args : List Ty} {t : Ty} {s s' : State} {final : Subst}
    (h : (inferOperation c e i op args).Returns s t s') (hfinal : s'.subst.RefinedTo final) :
    Implemented c final e i op args s := by
  rw [inferOperation_eq] at h
  obtain ⟨outcome, s₁, hread, h⟩ := Attempt.returns_bind_iff.1 h
  rw [if_pos hc] at h
  obtain ⟨after, s₂, hafter, h⟩ := Attempt.returns_bind_iff.1 h
  cases hafter.symm.trans (returns_mapM_known args s₁)
  obtain ⟨_, s₃, hvalidate, hknown⟩ := Attempt.returns_bind_iff.1 h
  obtain ⟨supply, haccepts, rfl⟩ := returns_fresh (returns_blaming.1 hvalidate)
  cases hknown
  have haccepts : c.registry.Accepts i.name op.name (args.map s₁.subst.apply) s₁.supply :=
    congrArg Prod.fst haccepts
  refine ⟨outcome, s₁, hread, haccepts, fun hground => ?_⟩
  have hsame : args.map final.apply = args.map s₁.subst.apply :=
    List.map_congr_left fun t ht => hfinal.apply_of_isGround (hground t ht)
  rw [hsame]
  exact ⟨rfl, haccepts.of_isGround (by simpa using hground)⟩

section

variable {c : Context} {final : Subst}

theorem get?_of_knows {env : TypeEnv} {name : String} (h : knows env name = false) :
    env.get? name = none :=
  Option.isNone_iff_eq_none.1 (by simpa [knows] using h)

theorem inferName_of_called? {env : TypeEnv} {name : String} {i : Structure} {op : Operation}
    (h : called? c (knows env) (.object name) = some (i, op)) :
    inferName c env name = inferOperation c (.object name) i op [] := by
  rw [called?] at h
  split at h
  · cases h
  · rename_i hnot
    obtain ⟨hknows, hvariant⟩ := Bool.or_eq_false_iff.1 (Bool.not_eq_true _ ▸ hnot)
    obtain ⟨hoperation, hempty⟩ := Option.filter_eq_some_iff.1 h
    unfold inferName
    rw [get?_of_knows hknows, hoperation]
    dsimp only
    split
    · rename_i heq
      rw [heq] at hvariant
      cases hvariant
    · rename_i heq _
      cases heq
      rw [if_pos hempty]
    · rename_i heq _
      cases heq

theorem inferCall_of_called? {env : TypeEnv} {name : String} {args : List Expr} {types : List Ty}
    {i : Structure} {op : Operation}
    (h : called? c (knows env) (.operation name args) = some (i, op)) :
    inferCall c env name args types = inferOperation c (.operation name args) i op types := by
  rw [called?] at h
  split at h
  · cases h
  · rename_i hnot
    obtain ⟨hknows, hvariant⟩ := Bool.or_eq_false_iff.1 (Bool.not_eq_true _ ▸ hnot)
    unfold inferCall
    dsimp only
    rw [hvariant, get?_of_knows hknows, h]
    rfl

theorem Refines.of_returns {α : Type} {m : Infer α} (hm : Refines m) {s s' : State} {a : α}
    (h : m.Returns s a s') : s.subst.RefinedTo s'.subst := by
  have hrefines := hm s
  rwa [h] at hrefines

theorem agree_moves {R : State → State → Prop} [Lasting R] (c : Context) (body : Expr)
    (result : Option Ty) (t : Ty) : Moves R (agree c body result t) := by
  cases result with
  | none => exact .pure ()
  | some result => exact blaming_moves (unify_moves c result t)

theorem reviewCases_refines (c : Context) (e : Expr) (scrutinee : Ty) (ps : List Pattern) :
    Refines (reviewCases c e scrutinee ps) :=
  (reviewCases_quiet c e scrutinee ps).refines

mutual

theorem infer_atCalls (hc : c.implemented = true) {env : TypeEnv} {e : Expr} {t : Ty} {s s' : State}
    (h : (infer c env e).Returns s t s') (hfinal : s'.subst.RefinedTo final) :
    AtCalls c (Implemented c final) env e s := by
  cases e with
  | blank => cases h
  | const value => trivial
  | object name =>
      intro i op hcalled
      rw [infer, inferName_of_called? hcalled] at h
      exact implemented_of_inferOperation hc h hfinal
  | operation name args =>
      rw [infer] at h
      obtain ⟨types, s₁, hargs, hcall⟩ := Attempt.returns_bind_iff.1 h
      have hlater := (inferCall_refines c env name args types).of_returns hcall
      refine ⟨inferList_atCalls hc hargs (hlater.trans hfinal), types, s₁, hargs, ?_⟩
      intro i op hcalled
      rw [inferCall_of_called? hcalled] at hcall
      exact implemented_of_inferOperation hc hcall hfinal
  | matching scrutinee cases =>
      rw [infer] at h
      split at h
      · obtain ⟨_, _, hfail, -⟩ := Attempt.returns_bind_iff.1 h
        cases hfail
      · obtain ⟨t₁, s₁, hscrutinee, h⟩ := Attempt.returns_bind_iff.1 h
        obtain ⟨result, s₂, hcases, h⟩ := Attempt.returns_bind_iff.1 h
        have hreview := (Refines.bind (known_refines t₁) fun t₂ =>
          (reviewCases_refines c _ t₂ _).bind fun _ => known_refines _).of_returns h
        have hlater := (inferCases_refines c env _ t₁ none cases).of_returns hcases
        exact ⟨infer_atCalls hc hscrutinee (hlater.trans (hreview.trans hfinal)), t₁, s₁,
          hscrutinee, inferCases_atCalls hc hcases (hreview.trans hfinal)⟩

theorem inferList_atCalls (hc : c.implemented = true) {env : TypeEnv} {es : List Expr}
    {ts : List Ty} {s s' : State} (h : (inferList c env es).Returns s ts s')
    (hfinal : s'.subst.RefinedTo final) : AtCallsList c (Implemented c final) env es s := by
  cases es with
  | nil => trivial
  | cons e es =>
      rw [inferList] at h
      obtain ⟨t, s₁, hfirst, h⟩ := Attempt.returns_bind_iff.1 h
      obtain ⟨ts, s₂, hrest, hpure⟩ := Attempt.returns_bind_iff.1 h
      cases hpure
      have hlater := (inferList_refines c env es).of_returns hrest
      exact ⟨infer_atCalls hc hfirst (hlater.trans hfinal), t, s₁, hfirst,
        inferList_atCalls hc hrest hfinal⟩

theorem inferCases_atCalls (hc : c.implemented = true) {env : TypeEnv} {e : Expr} {scrutinee : Ty}
    {result result' : Option Ty} {cases : List (Pattern × Expr)} {s s' : State}
    (h : (inferCases c env e scrutinee result cases).Returns s result' s')
    (hfinal : s'.subst.RefinedTo final) :
    AtCallsCases c (Implemented c final) env e scrutinee result cases s := by
  match cases with
  | [] => trivial
  | (p, body) :: rest =>
      rw [inferCases_cons] at h
      obtain ⟨bindings, s₁, hpattern, h⟩ := Attempt.returns_bind_iff.1 h
      obtain ⟨t, s₂, hbody, h⟩ := Attempt.returns_bind_iff.1 h
      obtain ⟨_, s₃, hagree, hrest⟩ := Attempt.returns_bind_iff.1 h
      have hlater := (inferCases_refines c env e scrutinee _ rest).of_returns hrest
      have hagrees := Refines.of_returns (agree_moves (R := State.Refined) c body result t) hagree
      exact ⟨bindings, s₁, hpattern, infer_atCalls hc hbody (hagrees.trans (hlater.trans hfinal)),
        t, s₂, s₃, hbody, hagree, inferCases_atCalls hc hrest hfinal⟩

end

end

end Inference

namespace Checker

/-- Whenever an expression is accepted, every call in it of an operation that a structure declares
had an implementation for the types of its arguments, as they were known when inference came to the
call. Types that were known in full then are what is known of the arguments in the end, so that in
the end there is an implementation for them too. -/
theorem check_implemented {c c' : Checker} {e : Expr} {v : Verdict}
    (h : (check e).Returns c v c') :
    Inference.AtCalls c.context (Inference.Implemented c.context c'.inference.subst) c.env e
      c.inference.reset := by
  obtain ⟨u, s₁, hinfer, -, lines, hstate⟩ := Inference.returns_inferExpr (returns_check h)
  rw [hstate]
  exact Inference.infer_atCalls rfl hinfer .refl

/-- A data type with two values, and a structure that is implemented for scalars only. -/
def negation : List Declaration :=
  [.data ⟨"B", [], [⟨"T", []⟩, ⟨"F", []⟩]⟩,
    .interface ⟨"N", [⟨"A", none⟩], [⟨"neg", .arrow (.named "A") (.named "A"), false⟩], []⟩,
    .implementation ⟨"N", [.named "ℝ"], [⟨"neg", [], some "builtin_neg", none⟩]⟩]

def negating : Checker := ((load negation).outcome bare).2

/-- A call whose argument turns out to be a truth value, when the call has been dealt with. -/
def late : Expr :=
  .matching (.operation "neg" [.object "x"])
    [(.constructor "T" [], .const "1"), (.constructor "F" [], .const "0")]

set_option maxRecDepth 4000 in
def latePasses : negating.Passing := ⟨late, ⟨.scalar, []⟩, by cbv⟩

theorem check_implemented_late :
    ((check late).outcome negating).1 = .ok ⟨.scalar, []⟩ ∧
      Inference.AtCalls negating.context
        (Inference.Implemented negating.context ((check late).outcome negating).2.inference.subst)
        negating.env late negating.inference.reset :=
  ⟨latePasses.passes.1, check_implemented latePasses.returns⟩

set_option maxRecDepth 4000 in
/-- There is no implementation for what is known in the end of the argument of the call. -/
theorem implementation_missing_in_the_end :
    ((check late).outcome negating).1 = .ok ⟨.scalar, []⟩ ∧
      ¬Inference.AtCalls negating.context
        (fun _ i op args _ => ∃ u, negating.registry.Accepts i.name op.name
          (args.map ((check late).outcome negating).2.inference.subst.apply) u)
        negating.env late negating.inference.reset := by
  have hcalled : Inference.called? negating.context (Inference.knows negating.env)
      (.operation "neg" [.object "x"]) =
        some (⟨"N", [⟨"A", none⟩], [⟨"neg", .arrow (.named "A") (.named "A"), false⟩], []⟩,
          ⟨"neg", .arrow (.named "A") (.named "A"), false⟩) := by
    cbv
  have hargs : ((Inference.inferList negating.context negating.env [.object "x"]).outcome
      negating.inference.reset).1 = .ok [.var 0] := by
    cbv
  have hrefused : ∀ u, (Attempt.outcome (negating.registry.validate "N" "neg" [.data "B" "B" []])
      u).1 = .error (.notImplemented "N" "neg" [.data "B" "B" []]) := fun u => by
    cbv
  have hend : ((check late).outcome negating).2.inference.subst.apply (.var 0) =
      .data "B" "B" [] := by
    cbv
  refine ⟨latePasses.passes.1, fun h => ?_⟩
  obtain ⟨⟨-, types, s', htypes, hcall⟩, -⟩ := h
  rw [htypes] at hargs
  cases hargs
  obtain ⟨u, haccepts⟩ := hcall _ _ hcalled
  rw [List.map_singleton, hend] at haccepts
  cases haccepts.symm.trans (hrefused u)

end Checker

end Formulary
