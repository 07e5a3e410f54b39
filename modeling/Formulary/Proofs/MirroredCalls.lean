import Formulary.Proofs.Mirroring
import Formulary.Proofs.Signatures

namespace Formulary

namespace Mirror

variable (M : Mirror)

structure ShowsParam (b b' : Signature.ParamBinding) : Prop where
  kind : b'.kind = b.kind
  type : M.ShowsTy b.type b'.type
  arg : b'.arg = b.arg

structure ShowsConstraint (k k' : Signature.Constraint) : Prop where
  expected : M.ShowsTy k.expected k'.expected
  actual : M.ShowsTy k.actual k'.actual

def ShowsParams (bs bs' : SortedMap String Signature.ParamBinding) : Prop :=
  ∀ name, Option.Rel M.ShowsParam (bs.get? name) (bs'.get? name)

structure ShowsProgress (p p' : Signature.Progress) : Prop where
  supply : M.ShowsSupply p.supply p'.supply
  bindings : M.ShowsParams p.bindings p'.bindings
  constraints : List.Forall₂ M.ShowsConstraint p.constraints p'.constraints

/-- Steps of interpreting a call. -/
def callLike : Likeness Signature.Progress Fault := ⟨M.ShowsProgress, Fault.IsLike, True⟩

/-- A call of the second run in the place of one of the first. -/
structure ShowsCall (c c' : Signature.Call) : Prop where
  data : c.data.Agrees M c'.data
  interface : c'.interface = c.interface
  operation : c'.operation = c.operation
  args : List.Forall₂ M.ShowsTy c.args c'.args
  lenient : c'.lenient = c.lenient
  kinds : ∀ p ∈ c.interface.params, ∀ kind, p.type = some kind → kind.MeansSame c.data c'.data []
  signature :
    c.operation.signature.MeansSame c.data c'.data (c.interface.params.map (·.name))

/-- What a call comes to in the second run. -/
structure ShowsOutcome (o o' : Signature.Outcome) : Prop where
  type : M.ShowsTy o.type o'.type
  constraints : List.Forall₂ M.ShowsConstraint o.constraints o'.constraints

end Mirror

/-- What an argument of an applied name stands for is the same where the name means the same. -/
theorem DataTypes.Agrees.fieldKind {M : Mirror} {r r' : DataTypes} (hagree : r.Agrees M r')
    {name : String} (hname : r.MeansSame r' name) (i : Nat) :
    r'.fieldKind name i = r.fieldKind name i := by
  rw [DataTypes.fieldKind, DataTypes.fieldKind, fieldKinds?, fieldKinds?, hname.find?,
    hname.metaVariant?]
  cases r.find? name with
  | some d => rfl
  | none =>
      dsimp only
      cases hmeta : r.metaVariant? name with
      | none => rfl
      | some v =>
          obtain ⟨d, hvariant, hd⟩ : ∃ d, r.variant? name = some (d, v) ∧ d.name = Ty.metaName := by
            unfold metaVariant? at hmeta
            split at hmeta
            · rename_i d v' hvariant
              split at hmeta
              · rename_i hd
                cases hmeta
                exact ⟨d, hvariant, hd⟩
              · cases hmeta
            · cases hmeta
          have hfields := hagree.fields name d v hvariant
          rw [if_pos hd] at hfields
          rw [Option.map_some, Option.map_some, List.map_congr_left fun f hf => ?_]
          obtain ⟨t, t', ht, ht', hshows⟩ | ⟨f₁, f₂, hf₁, hf₂, -⟩ :=
            resolveClosed_mirrors hagree (.nil : M.ShowsScope [] []) (hfields f hf)
          · rw [ht, ht', hshows.1]
            exact t.paramKind_rename _
          · rw [hf₁, hf₂]

namespace Signature.Call

variable {M : Mirror} {c c' : Call}

/-- A part of the signature, whose names mean the same but for the declared parameters. -/
abbrev Reads (c c' : Call) (e : TypeExpr) : Prop :=
  e.MeansSame c.data c'.data (c.interface.params.map (·.name))

theorem isParam_eq (h : M.ShowsCall c c') {name : String} (hname : Reads c c' (.named name)) :
    c'.isParam name = c.isParam name := by
  rw [isParam, isParam, h.interface]
  by_cases hdeclared : name ∈ c.interface.params.map (·.name)
  · have hany : (c.interface.params.any fun p => decide (p.name = name)) = true := by
      obtain ⟨p, hp, hname⟩ := List.mem_map.1 hdeclared
      exact List.any_eq_true.2 ⟨p, hp, by simpa using hname⟩
    rw [hany, Bool.true_or, Bool.true_or]
  · rw [(hname hdeclared).lookupName?]

theorem paramKinds_eq (h : M.ShowsCall c c') :
    c'.registry.paramKinds c'.interface = c.registry.paramKinds c.interface := by
  rw [Registry.paramKinds, Registry.paramKinds, h.interface]
  refine List.map_congr_left fun p hp => ?_
  cases htype : p.type with
  | none => rfl
  | some kind =>
      rw [Option.map_some, Option.map_some]
      obtain ⟨t, t', ht, ht', hshows⟩ | ⟨f, f', hf, hf', -⟩ :=
        DataTypes.resolveClosed_mirrors h.data (.nil : M.ShowsScope [] [])
          (h.kinds p hp kind htype)
      · rw [show c.registry.data.resolveClosed [] kind = .ok t from ht,
          show c'.registry.data.resolveClosed [] kind = .ok t' from ht', hshows.1]
        exact congrArg _ (t.paramKind_rename _)
      · rw [show c.registry.data.resolveClosed [] kind = .error f from hf,
          show c'.registry.data.resolveClosed [] kind = .error f' from hf']

theorem kindOf_eq (h : M.ShowsCall c c') {bs bs' : SortedMap String ParamBinding}
    (hbs : M.ShowsParams bs bs') (name : String) (hint : ParamKind) :
    c'.kindOf bs' name hint = c.kindOf bs name hint := by
  rw [kindOf, kindOf, paramKinds_eq h]
  have hname := hbs name
  generalize bs.get? name = b at hname ⊢
  generalize bs'.get? name = b' at hname ⊢
  cases hname with
  | none => rfl
  | some hb => rw [Option.map_some, Option.map_some, hb.kind]

theorem bindTo_mirrors (name : String) {b b' : ParamBinding} (hb : M.ShowsParam b b') :
    Mirrors M.callLike (bindTo name b) (bindTo name b') fun _ _ => True := by
  refine .modify fun p p' hp => ⟨hp.supply, fun other => ?_, hp.constraints⟩
  rw [SortedMap.get?_insert, SortedMap.get?_insert]
  split
  · exact .some hb
  · exact hp.bindings other

theorem freshVar_mirrors : Mirrors M.callLike freshVar freshVar M.ShowsTy := by
  intro p p' hp
  refine ⟨?_, hp.supply.advance, hp.bindings, hp.constraints⟩
  show M.ShowsTy (.var p.supply.next) (.var p'.supply.next)
  rw [hp.supply.next]
  exact Mirror.showsTy_var _

theorem constrain_mirrors {expected expected' actual actual' : Ty}
    (he : M.ShowsTy expected expected') (ha : M.ShowsTy actual actual') (arg : Nat) :
    Mirrors M.callLike (constrain expected actual arg) (constrain expected' actual' arg)
      fun _ _ => True :=
  .modify fun _ _ hp => ⟨hp.supply, hp.bindings,
    List.rel_append hp.constraints (.cons ⟨he, ha⟩ .nil)⟩

theorem unboundParam_mirrors (h : M.ShowsCall c c') (mode : Unbound) (name : String)
    (kind : ParamKind) (arg : Nat) :
    Mirrors M.callLike (c.unboundParam mode name kind arg) (c'.unboundParam mode name kind arg)
      M.ShowsTy := by
  cases mode with
  | fresh =>
      refine freshVar_mirrors.bind fun t t' ht => ?_
      have hparam : M.ShowsParam ⟨kind, t, arg⟩ ⟨kind, t', arg⟩ := ⟨rfl, ht, rfl⟩
      exact (bindTo_mirrors name hparam).bind fun _ _ _ => .pure ht
  | refuse =>
      have hscalar : M.ShowsTy .scalar .scalar := ⟨rfl, h.data.scalar, trivial⟩
      rw [unboundParam, unboundParam, h.lenient, h.interface, h.operation]
      refine .ite Iff.rfl (fun _ => ?_) fun _ => .throw (.refl _)
      exact (bindTo_mirrors name ⟨rfl, hscalar, rfl⟩).bind fun _ _ _ => .pure hscalar

theorem resolveClosed_mirrors (h : M.ShowsCall c c') {name : String}
    (hname : Reads c c' (.named name)) (hparam : c.isParam name = false) :
    Mirrors M.callLike (liftM (c.data.resolveClosed [] (.named name)) : Interpret Ty)
      (liftM (c'.data.resolveClosed [] (.named name)) : Interpret Ty) M.ShowsTy := by
  refine .liftExcept (DataTypes.resolveClosed_mirrors h.data (.nil : M.ShowsScope [] []) ?_)
  intro _
  refine hname fun hdeclared => ?_
  obtain ⟨p, hp, heq⟩ := List.mem_map.1 hdeclared
  rw [isParam, Bool.or_eq_false_iff, List.any_eq_false] at hparam
  exact hparam.1 p hp (by simpa using heq)

mutual

theorem build_mirrors (h : M.ShowsCall c c') (mode : Unbound) (arg : Nat) (hint : ParamKind)
    {e : TypeExpr} (he : Reads c c' e) :
    Mirrors M.callLike (c.build mode arg hint e) (c'.build mode arg hint e) M.ShowsTy := by
  cases e with
  | blank => exact .throw ⟨rfl, rfl⟩
  | named name =>
      rw [build, build, isParam_eq h he]
      refine .ite Iff.rfl (fun _ => ?_) fun hparam => resolveClosed_mirrors h he (by simpa using hparam)
      refine Mirrors.get.bind fun p p' hp => ?_
      dsimp only
      rw [kindOf_eq h hp.bindings]
      generalize c.kindOf p.bindings name hint = kind
      have hname := hp.bindings name
      generalize p.bindings.get? name = b at hname ⊢
      generalize p'.bindings.get? name = b' at hname ⊢
      cases hname with
      | some hb => exact .pure hb.type
      | none => exact unboundParam_mirrors h mode name kind arg
  | app name args =>
      rw [build, build]
      refine (buildList_mirrors h mode arg he.1 0 he.2).bind fun ts ts' hts => ?_
      exact .liftExcept (h.data.applyName he.1 hts)
  | arrow domain codomain =>
      rw [build, build]
      refine (build_mirrors h mode arg .type he.1).bind fun a a' ha => ?_
      exact (build_mirrors h mode arg .type he.2).bind fun b b' hb => .pure (ha.fn hb)
  | nat | tag => exact .pure ⟨rfl, trivial⟩

theorem buildList_mirrors (h : M.ShowsCall c c') (mode : Unbound) (arg : Nat) {name : String}
    (hname : c.data.MeansSame c'.data name) (i : Nat) {es : List TypeExpr}
    (hes : TypeExpr.MeansSameList c.data c'.data (c.interface.params.map (·.name)) es) :
    Mirrors M.callLike (c.buildList mode arg name i es) (c'.buildList mode arg name i es)
      (List.Forall₂ M.ShowsTy) := by
  cases es with
  | nil => exact .pure .nil
  | cons e es =>
      rw [buildList, buildList, h.data.fieldKind hname]
      refine (build_mirrors h mode arg _ hes.1).bind fun t t' ht => ?_
      refine (buildList_mirrors h mode arg hname (i + 1) hes.2).bind fun ts ts' hts => ?_
      exact .pure (.cons ht hts)

end

theorem bindParam_mirrors (h : M.ShowsCall c c') (name : String) (hint : ParamKind) (arg : Nat)
    {actual actual' : Ty} (ha : M.ShowsTy actual actual') :
    Mirrors M.callLike (c.bindParam name hint actual arg) (c'.bindParam name hint actual' arg)
      fun _ _ => True := by
  unfold bindParam
  refine Mirrors.get.bind fun p p' hp => ?_
  dsimp only
  rw [kindOf_eq h hp.bindings, h.interface, h.operation]
  generalize c.kindOf p.bindings name hint = kind
  have hname := hp.bindings name
  generalize p.bindings.get? name = b at hname ⊢
  generalize p'.bindings.get? name = b' at hname ⊢
  obtain ⟨rfl, hover⟩ := ha
  cases hname with
  | none =>
      refine .ite ?_ (fun _ => bindTo_mirrors name ⟨rfl, ⟨rfl, hover⟩, rfl⟩) fun _ => .throw ⟨rfl, rfl⟩
      cases actual <;> rfl
  | @some b b' hb =>
      have hsame : Ty.same b'.type (actual.rename M.ids) = Ty.same b.type actual := by
        rw [hb.type.1, Ty.same_rename]
      have hground : (!b'.type.isGround || !(actual.rename M.ids).isGround) =
          (!b.type.isGround || !actual.isGround) := by
        rw [hb.type.1, Ty.isGround_rename, Ty.isGround_rename]
      dsimp only
      rw [hsame, hground]
      refine .ite Iff.rfl (fun _ => .pure trivial) fun _ => .ite Iff.rfl (fun _ => ?_) fun _ => ?_
      · exact constrain_mirrors hb.type ⟨rfl, hover⟩ arg
      · exact .ite Iff.rfl (fun _ => .throw ⟨rfl, rfl⟩) fun _ => .throw ⟨rfl, rfl⟩

theorem require_mirrors (h : M.ShowsCall c c') {expected expected' actual actual' : Ty}
    (he : M.ShowsTy expected expected') (ha : M.ShowsTy actual actual') (arg : Nat) :
    Mirrors M.callLike (c.require expected actual arg) (c'.require expected' actual' arg)
      fun _ _ => True := by
  have hconstrain := constrain_mirrors he ha arg
  obtain ⟨rfl, -⟩ := he
  obtain ⟨rfl, -⟩ := ha
  unfold require
  rw [Ty.isGround_rename, Ty.isGround_rename, Ty.same_rename, h.operation]
  exact .ite Iff.rfl (fun _ => .ite Iff.rfl (fun _ => .pure trivial) fun _ => .throw ⟨rfl, rfl⟩)
    fun _ => hconstrain

theorem mismatch_mirrors (h : M.ShowsCall c c') {pattern : TypeExpr} (hp : Reads c c' pattern)
    (hint : ParamKind) (actual actual' : Ty) (arg : Nat) :
    Mirrors M.callLike (c.mismatch pattern hint actual arg) (c'.mismatch pattern hint actual' arg)
      fun _ _ => True :=
  (build_mirrors h .fresh arg hint hp).bind fun _ _ _ => .throw ⟨rfl, rfl⟩

mutual

theorem matchType_mirrors (h : M.ShowsCall c c') (arg : Nat) (hint : ParamKind)
    {pattern : TypeExpr} (hp : Reads c c' pattern) {actual actual' : Ty}
    (ha : M.ShowsTy actual actual') :
    Mirrors M.callLike (c.matchType arg hint pattern actual) (c'.matchType arg hint pattern actual')
      fun _ _ => True := by
  have hvar : Mirrors M.callLike
      (do
        let expected ← c.build .fresh arg hint pattern
        constrain expected actual arg)
      (do
        let expected ← c'.build .fresh arg hint pattern
        constrain expected actual' arg) fun _ _ => True :=
    (build_mirrors h .fresh arg hint hp).bind fun t t' ht => constrain_mirrors ht ha arg
  have hmismatch := mismatch_mirrors h hp hint actual actual' arg
  have hbind := fun name => bindParam_mirrors h name hint arg ha
  have hrequire : ∀ {t t' : Ty}, M.ShowsTy t t' → Mirrors M.callLike (c.require t actual arg)
      (c'.require t' actual' arg) fun _ _ => True := fun ht => require_mirrors h ht ha arg
  obtain ⟨rfl, hover⟩ := ha
  cases pattern with
  | blank =>
      cases actual with
      | var id => exact hvar
      | _ =>
          simp only [Ty.rename, matchType]
          exact .throw ⟨rfl, rfl⟩
  | named name =>
      cases actual with
      | var id =>
          rw [Ty.rename, matchType, matchType, isParam_eq h hp]
          exact .ite Iff.rfl (fun _ => hbind name) fun _ => hvar
      | _ =>
          simp only [Ty.rename, matchType, isParam_eq h hp]
          refine .ite Iff.rfl (fun _ => hbind name) fun hparam => ?_
          exact (resolveClosed_mirrors h hp (by simpa using hparam)).bind fun t t' ht => hrequire ht
  | app name params =>
      cases actual with
      | var id => exact hvar
      | data dataName constructor args =>
          have hargs : List.Forall₂ M.ShowsTy args (Ty.renameList M.ids args) :=
            Mirror.forall₂_showsTy.2 ⟨rfl, hover.2⟩
          rw [Ty.rename, matchType, matchType, ← hargs.length_eq]
          exact .ite Iff.rfl (fun _ => matchTypes_mirrors h arg hp.1 0 hp.2 hargs)
            fun _ => hmismatch
      | _ =>
          simp only [Ty.rename, matchType]
          exact hmismatch
  | arrow domain codomain =>
      cases actual with
      | var id => exact hvar
      | fn a b =>
          simp only [Ty.rename, matchType]
          exact (matchType_mirrors h arg .type hp.1 ⟨rfl, hover.1⟩).bind fun _ _ _ =>
            matchType_mirrors h arg .type hp.2 ⟨rfl, hover.2⟩
      | _ =>
          simp only [Ty.rename, matchType]
          exact hmismatch
  | nat value =>
      cases actual with
      | var id => exact hvar
      | _ =>
          simp only [Ty.rename, matchType]
          exact hrequire (t := .nat value) ⟨rfl, trivial⟩
  | tag value =>
      cases actual with
      | var id => exact hvar
      | _ =>
          simp only [Ty.rename, matchType]
          exact hrequire (t := .tag value) ⟨rfl, trivial⟩

theorem matchTypes_mirrors (h : M.ShowsCall c c') (arg : Nat) {name : String}
    (hname : c.data.MeansSame c'.data name) (i : Nat) {patterns : List TypeExpr}
    (hps : TypeExpr.MeansSameList c.data c'.data (c.interface.params.map (·.name)) patterns)
    {actuals actuals' : List Ty} (has : List.Forall₂ M.ShowsTy actuals actuals') :
    Mirrors M.callLike (c.matchTypes arg name i patterns actuals)
      (c'.matchTypes arg name i patterns actuals') fun _ _ => True := by
  match patterns, has with
  | [], _ =>
      rw [matchTypes, matchTypes]
      · exact .pure trivial
      · simp
      · simp
  | pattern :: patterns, .nil =>
      rw [matchTypes, matchTypes]
      · exact .pure trivial
      · simp
      · simp
  | pattern :: patterns, .cons ha has =>
      rw [matchTypes, matchTypes, h.data.fieldKind hname]
      exact (matchType_mirrors h arg _ hps.1 ha).bind fun _ _ _ =>
        matchTypes_mirrors h arg hname (i + 1) hps.2 has

end

theorem matchArgs_mirrors (h : M.ShowsCall c c') (i : Nat) {patterns : List TypeExpr}
    (hps : TypeExpr.MeansSameList c.data c'.data (c.interface.params.map (·.name)) patterns)
    {actuals actuals' : List Ty} (has : List.Forall₂ M.ShowsTy actuals actuals') :
    Mirrors M.callLike (c.matchArgs i patterns actuals) (c'.matchArgs i patterns actuals')
      fun _ _ => True := by
  induction patterns generalizing i actuals actuals' with
  | nil =>
      rw [matchArgs, matchArgs]
      · exact .pure trivial
      · simp
      · simp
  | cons pattern patterns ih =>
      cases has with
      | nil =>
          rw [matchArgs, matchArgs]
          · exact .pure trivial
          · simp
          · simp
      | cons ha has =>
          rw [matchArgs, matchArgs]
          exact (matchType_mirrors h i .type hps.1 ha).bind fun _ _ _ => ih (i + 1) hps.2 has

theorem meansSame_splitArrow {r r' : DataTypes} {bound : List String} {e : TypeExpr}
    (h : e.MeansSame r r' bound) :
    TypeExpr.MeansSameList r r' bound e.splitArrow.1 ∧ e.splitArrow.2.MeansSame r r' bound := by
  match e with
  | .arrow domain codomain =>
      have hrest := meansSame_splitArrow h.2
      exact ⟨⟨h.1, hrest.1⟩, hrest.2⟩
  | .blank | .named _ | .app _ _ | .nat _ | .tag _ => exact ⟨trivial, h⟩

theorem walk_mirrors (h : M.ShowsCall c c') :
    Mirrors M.callLike c.walk c'.walk M.ShowsOutcome := by
  obtain ⟨hparams, hresult⟩ := meansSame_splitArrow h.signature
  unfold walk
  rw [h.operation, ← h.args.length_eq]
  refine (matchArgs_mirrors h 0 hparams h.args).bind fun _ _ _ => ?_
  refine (build_mirrors h .refuse _ .type hresult).bind fun t t' ht => ?_
  exact Mirrors.get.bind fun p p' hp => .pure ⟨ht, hp.constraints⟩

theorem interpret_mirrors (h : M.ShowsCall c c') :
    Mirrors M.freshLike c.interpret c'.interpret M.ShowsOutcome := by
  intro u u' hu
  rw [outcome_interpret, outcome_interpret, h.operation, ← h.args.length_eq]
  split
  · exact fun _ => ⟨.refl _, hu⟩
  · have hstart : M.ShowsProgress ⟨u, ∅, []⟩ ⟨u', ∅, []⟩ := ⟨hu, fun _ => .none, .nil⟩
    have hout := walk_mirrors h _ _ hstart
    revert hout
    rcases Attempt.outcome c.walk ⟨u, ∅, []⟩ with ⟨f | o, p⟩ <;>
      rcases Attempt.outcome c'.walk ⟨u', ∅, []⟩ with ⟨f' | o', p'⟩
    · exact fun h _ => ⟨(h trivial).1, (h trivial).2.supply⟩
    · exact id
    · exact id
    · exact fun h => ⟨h.1, h.2.supply⟩

end Signature.Call

theorem DataTypes.length_of_resolveList {r : DataTypes} {scope : Scope} {free : Bool}
    {es : List TypeExpr} {ts : List Ty} {s s' : NamedVars}
    (h : Attempt.Returns (r.resolveList scope free es) s ts s') : ts.length = es.length := by
  induction es generalizing s ts with
  | nil =>
      cases h
      rfl
  | cons e es ih =>
      rw [resolveList] at h
      obtain ⟨t, s₁, -, h⟩ := Attempt.returns_bind_iff.1 h
      obtain ⟨us, s₂, hrest, h⟩ := Attempt.returns_bind_iff.1 h
      cases h
      rw [List.length_cons, List.length_cons, ih hrest]

/-- What two lists of declarations have in common with their structures and implementations. What
the second one adds comes behind what the first one has. -/
structure Registry.Agrees (M : Mirror) (r r' : Registry) : Prop where
  data : r.data.Agrees M r'.data
  operations : ∀ name s op, r.operation? name = some (s, op) →
    (∀ p ∈ s.params, ∀ kind, p.type = some kind → kind.MeansSame r.data r'.data []) ∧
      op.signature.MeansSame r.data r'.data (s.params.map (·.name))
  structures : ∀ name s, r.structure? name = some s → r'.structure? name = some s
  implementations : ∀ name, r.implementationsOf name <+: r'.implementationsOf name
  arguments : ∀ name s operation op, r.structure? name = some s →
    s.operation? operation = some op → ∀ i ∈ r.implementationsOf name,
      TypeExpr.MeansSameList r.data r'.data [] i.decl.args ∧
      op.signature.MeansSame r.data r'.data
        ((i.interface.params.map (·.name)).take i.decl.args.length)

namespace Registry

variable {M : Mirror} {r r' : Registry}

theorem accepts_inStep (hagree : r.data.Agrees M r'.data) {i : RegisteredImplementation}
    (hi : TypeExpr.MeansSameList r.data r'.data [] i.decl.args) {params : List TypeExpr}
    (hparams : TypeExpr.MeansSameList r.data r'.data
      ((i.interface.params.map (·.name)).take i.decl.args.length) params)
    {args args' : List Ty} (hargs : List.Forall₂ M.ShowsTy args args') :
    M.InStep (r.accepts i params args) (r'.accepts i params args') Eq := by
  have hresolve : ∀ {scope scope' : Scope} {es : List TypeExpr}, M.ShowsScope scope scope' →
      TypeExpr.MeansSameList r.data r'.data (scope.map (·.1)) es →
      Mirrors M.freshLike (Fresh.named (r.data.resolveList scope true es))
        (Fresh.named (r'.data.resolveList scope' true es)) fun ts ts' =>
          List.Forall₂ M.ShowsTy ts ts' ∧ ts.length = es.length :=
    fun hscope hes => DataTypes.named_mirrors ((DataTypes.resolveList_mirrors hagree
      (fun _ _ => id) (fun _ => Mirror.freeParam_mirrors) hscope hes).and_left
        fun _ _ _ => DataTypes.length_of_resolveList)
  unfold accepts
  refine (Mirror.InStep.of_mirrors (A := Eq) ?_).bind ?_
  · refine (hresolve .nil hi).bind ?_
    rintro types types' ⟨htypes, hlength⟩
    dsimp only
    have hbound : ((i.interface.params.map (·.name)).zip (types.map some)).map (·.1) =
        (i.interface.params.map (·.name)).take i.decl.args.length := by
      rw [Mirror.map_fst_zip_some, hlength]
    refine (hresolve (Mirror.showsScope_zip _ htypes) (hbound ▸ hparams)).bind ?_
    rintro expected expected' ⟨hexpected, -⟩
    obtain ⟨rfl, hover⟩ := Mirror.forall₂_showsTy.1 hexpected
    obtain ⟨rfl, hover'⟩ := Mirror.forall₂_showsTy.1 hargs
    exact .pure (Ty.toBool_unifyList_renamed hover hover').symm
  · rintro x x' (⟨b, b', rfl, rfl, rfl⟩ | ⟨f, f', rfl, rfl⟩)
    · exact .pure rfl
    · exact .pure rfl

theorem acceptsSome_inStep (hagree : r.data.Agrees M r'.data) {params : List TypeExpr}
    {args args' : List Ty} (hargs : List.Forall₂ M.ShowsTy args args')
    {is : List RegisteredImplementation}
    (his : ∀ i ∈ is, TypeExpr.MeansSameList r.data r'.data [] i.decl.args ∧
      TypeExpr.MeansSameList r.data r'.data
        ((i.interface.params.map (·.name)).take i.decl.args.length) params) :
    M.InStep (r.acceptsSome params args is) (r'.acceptsSome params args' is) Eq := by
  induction is with
  | nil => exact .pure rfl
  | cons i is ih =>
      obtain ⟨hfirst, hrest⟩ := List.forall_mem_cons.1 his
      refine (accepts_inStep hagree hfirst.1 hfirst.2 hargs).bind fun b b' hb => ?_
      cases hb
      cases b with
      | true => exact .pure rfl
      | false => exact ih hrest

theorem run_acceptsSome_append {params : List TypeExpr} {args : List Ty}
    {is more : List RegisteredImplementation} {u u₁ : Supply}
    (h : (r.acceptsSome params args is).run u = (true, u₁)) :
    (r.acceptsSome params args (is ++ more)).run u = (true, u₁) := by
  induction is generalizing u with
  | nil => cases h
  | cons i is ih =>
      rw [acceptsSome, StateT.run_bind] at h
      rw [List.cons_append, acceptsSome, StateT.run_bind]
      cases hfirst : (r.accepts i params args).run u with
      | mk b u₂ =>
          rw [hfirst] at h
          cases b with
          | true => exact h
          | false => exact ih h

/-- Steps that hand out variables, and fail alike if nothing has been added. -/
def validateLike (M : Mirror) (r r' : Registry) : Likeness Supply Fault :=
  ⟨M.ShowsSupply, Fault.IsLike, r' = r⟩

theorem validate_mirrors (hagree : r.Agrees M r') (structureName operation : String)
    {args args' : List Ty} (hargs : List.Forall₂ M.ShowsTy args args') :
    Mirrors (validateLike M r r') (r.validate structureName operation args)
      (r'.validate structureName operation args') fun _ _ => True := by
  unfold validate
  cases hstructure : r.structure? structureName with
  | none =>
      by_cases hsame : r' = r
      · rw [hsame, hstructure]
        exact .throw (.refl _)
      · exact .throw_left hsame
  | some s =>
      rw [hagree.structures _ _ hstructure]
      dsimp only
      cases hop : s.operation? operation with
      | none => exact .throw (.refl _)
      | some op =>
          dsimp only
          rw [← hargs.length_eq]
          refine .ite Iff.rfl (fun _ => .throw (.refl _)) fun _ => ?_
          intro u u' hu
          have his : ∀ i ∈ r.implementationsOf structureName, _ := fun i hi =>
            (hagree.arguments _ _ _ _ hstructure hop i hi).imp_right fun h =>
              (Signature.Call.meansSame_splitArrow h).1
          obtain ⟨heq, hu₁⟩ := acceptsSome_inStep hagree.data hargs his u u' hu
          obtain ⟨more, hmore⟩ := hagree.implementations structureName
          rw [Attempt.outcome_bind, Attempt.outcome_bind, Attempt.outcome_liftState,
            Attempt.outcome_liftState, ← hmore]
          revert heq hu₁
          cases haccepted : (r.acceptsSome op.signature.splitArrow.1 args
            (r.implementationsOf structureName)).run u with
          | mk b u₁ =>
              cases haccepted' : (r'.acceptsSome op.signature.splitArrow.1 args'
                (r.implementationsOf structureName)).run u' with
              | mk b' u₁' =>
                  rintro rfl hu₁
                  cases b with
                  | true =>
                      rw [run_acceptsSome_append haccepted']
                      exact ⟨trivial, hu₁⟩
                  | false =>
                      by_cases hsame : r' = r
                      · have hnil : more = [] := by
                          rw [hsame] at hmore
                          simpa using hmore
                        rw [hnil, List.append_nil, haccepted']
                        exact fun _ => ⟨⟨rfl, rfl⟩, hu₁⟩
                      · exact Likeness.agrees_error hsame _ _ _ _

end Registry

end Formulary
