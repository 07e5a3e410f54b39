import Formulary.Proofs.Coverage

namespace Formulary

namespace DataTypes

variable {r : DataTypes}

theorem forM_eq_ok_iff {ε α : Type} {f : α → Except ε PUnit} {l : List α} :
    l.forM f = .ok () ↔ ∀ a ∈ l, f a = .ok () := by
  induction l with
  | nil => simp [List.forM, pure, Except.pure]
  | cons a l ih =>
      rw [List.forall_mem_cons, ← ih]
      exact Except.check_eq_ok_iff

theorem isWhole_of_checkFields (hr : r.Coherent) (h : ∀ d ∈ r.types, r.checkFields d.name = .ok ()) :
    r.isWhole = true := by
  refine List.all_eq_true.2 fun d hd => List.all_eq_true.2 fun v hv => List.all_eq_true.2 fun f hf => ?_
  have hfields := h d hd
  rw [checkFields, hr.find?_eq_some_iff.2 ⟨hd, rfl⟩] at hfields
  obtain ⟨t, ht, -⟩ := Except.bind_eq_ok_iff.1 (forM_eq_ok_iff.1 (forM_eq_ok_iff.1 hfields v hv) f hf)
  exact isWhole_of_resolveClosed ht

theorem Coherent.of_foldlM {r' : DataTypes} {ds : List DataType} (hr : r.Coherent)
    (h : ds.foldlM DataTypes.register r = .ok r') : r'.Coherent := by
  induction ds generalizing r with
  | nil =>
      cases h
      exact hr
  | cons d ds ih =>
      rw [List.foldlM_cons] at h
      obtain ⟨r₁, hfirst, hrest⟩ := Except.bind_eq_ok_iff.1 h
      exact ih (hr.register hfirst) hrest

end DataTypes

namespace Pattern

variable {r : DataTypes} {other : Ty → Expr → Prop}

theorem rowFits_of_check (hr : r.isWhole = true) {p : Pattern} {t : Ty} {u u' : Supply}
    {typing : Typing} (hrun : Attempt.Returns (p.check r t) u typing u') (hu : u'.Unwrapped)
    (ht : t.Within fun _ => False) (hmeta : ∀ a ∈ p.applications, r.metaVariant? a.1 = none) :
    RowFits r [p] [t] := by
  have hscope : t.inScope u.next := ht.imp fun _ h => h.elim
  have hready := ((check_keeps (P := ⊤) (F := fun _ => True) r (fun _ _ => trivial) p t).keeps u
    (hrun ▸ hu) trivial ⟨⟨hr, trivial⟩, hscope, hscope.imp fun _ _ => trivial⟩).2
  rw [hrun] at hready
  -- what the check has put for variables is one way to make the pattern fit
  have hsolves : Valuation.Solves typing.subst.image typing.subst := fun x =>
    hready.1.settled.bind_image x
  obtain ⟨-, hfits⟩ := (check_explains hrun hu hscope).sound typing.subst.image (fun _ => none)
    ⟨hready.1.subst.monoRange, hsolves⟩
  rw [Ty.bind_eq_self fun x hx => (ht.2 x hx).elim] at hfits
  refine ⟨⟨_, _, .cons hfits .nil⟩, fun a ha => hmeta a ?_⟩
  simpa [applicationsList] using ha

theorem run_filterAuxM_eq {α : Type} {f : α → StateM Supply Bool} {p : α → Bool} {l acc kept : List α}
    {u u' : Supply} (hf : ∀ a, Supply.Grows (f a)) (h : (l.filterAuxM f acc).run u = (kept, u'))
    (hp : ∀ a ∈ l, ∀ u₁ u₂ c, (f a).run u₁ = (c, u₂) → u ≤ u₁ → u₂ ≤ u' → c = p a) :
    u ≤ u' ∧ kept = (l.filter p).reverse ++ acc := by
  induction l generalizing acc u with
  | nil =>
      cases h
      exact ⟨le_rfl, rfl⟩
  | cons first rest ih =>
      rw [List.filterAuxM, StateT.run_bind] at h
      cases hfirst : (f first).run u with
      | mk c u₁ =>
          have hle : u ≤ u₁ := by simpa [hfirst] using hf first u
          rw [hfirst] at h
          obtain ⟨hle', hkept⟩ := ih h fun a ha u₂ u₃ c hrun hle'' =>
            hp a (List.mem_cons_of_mem _ ha) u₂ u₃ c hrun (hle.trans hle'')
          obtain rfl := hp first (List.mem_cons_self ..) u u₁ c hfirst le_rfl hle'
          refine ⟨hle.trans hle', hkept.trans ?_⟩
          cases hkeep : p first <;> simp [hkeep]

theorem run_filterM_eq {α : Type} {f : α → StateM Supply Bool} {p : α → Bool} {l kept : List α}
    {u u' : Supply} (hf : ∀ a, Supply.Grows (f a)) (h : (l.filterM f).run u = (kept, u'))
    (hp : ∀ a ∈ l, ∀ u₁ u₂ c, (f a).run u₁ = (c, u₂) → u ≤ u₁ → u₂ ≤ u' → c = p a) :
    kept = l.filter p := by
  rw [List.filterM, StateT.run_bind] at h
  cases hkept : (l.filterAuxM f []).run u with
  | mk reversed u₁ =>
      rw [hkept] at h
      obtain ⟨rfl, rfl⟩ : reversed.reverse = kept ∧ u₁ = u' := Prod.mk.inj h
      rw [(run_filterAuxM_eq hf hkept hp).2, List.append_nil, List.reverse_reverse]

/-- Some value that is built with a constructor is matched by no pattern. -/
def Misses (r : DataTypes) (other : Ty → Expr → Prop) (ps : List Pattern) (t : Ty) (name : String) :
    Prop :=
  ∃ value args, value.built? = some (name, args) ∧ ValueOf r other value t ∧
    ∀ p ∈ ps, p.matches? value = none

theorem posed_constructor (hpop : Populated r other) {ps : List Pattern} {t : Ty} {name : String}
    {fields : List Ty} (ht : t.Within fun _ => False) (hinstance : r.IsInstance t)
    (hbuilds : r.Builds name fields t) (hps : ∀ p ∈ ps, RowFits r [p] [t]) :
    Posed r other (ps.map fun p => [p]) [(.constructor name (fit fields.length []), t)] := by
  have hname : r.metaVariant? name = none := by
    cases hbuilds with
    | ofMeta =>
        obtain ⟨d, -, howner, _, -, heq⟩ := hinstance
        exact absurd (Ty.data.inj heq).1.symm howner
    | ofData hvariant howner => simp [DataTypes.metaVariant?, hvariant, howner]
  obtain ⟨args, hargs⟩ := hpop.exists_args hinstance hbuilds ht
  refine ⟨by simpa using ht, ?_, ⟨⟨.empty, .empty, .cons (.constructor hbuilds
    (fitsList_wildcards _ _)) .nil⟩, fun a ha => ?_⟩, ?_⟩
  · simpa using ⟨.operation name args, .built rfl hinstance hbuilds hargs⟩
  · have hwild := applicationsList_fit_subset fields.length []
    simp only [List.map_cons, List.map_nil, applicationsList, applications, List.append_nil,
      List.mem_cons] at ha
    rcases ha with rfl | ha
    · exact hname
    · exact absurd (hwild ha) List.not_mem_nil
  · intro row hrow
    obtain ⟨p, hp, rfl⟩ := List.mem_map.1 hrow
    exact hps p hp

theorem unmatched_constructor_iff {ps : List Pattern} {t : Ty} {name : String} {fields : List Ty}
    (hinstance : r.IsInstance t) (hbuilds : r.Builds name fields t) :
    Unmatched r other (ps.map fun p => [p]) [(.constructor name (fit fields.length []), t)] ↔
      Misses r other ps t name := by
  have hrows : ∀ value, (∀ row ∈ ps.map fun p => [p], acceptsAll row [value] = false) ↔
      ∀ p ∈ ps, p.matches? value = none := by
    intro value
    simp [acceptsAll, ← isSome_matches?]
  constructor
  · rintro ⟨values, hvalues, haccepts, hunmatched⟩
    cases hvalues with
    | @cons value _ _ _ hvalue hnil =>
        cases hnil
        simp only [List.map_cons, List.map_nil, acceptsAll, Bool.and_true] at haccepts
        obtain ⟨args, hbuilt, -⟩ := accepts_constructor.1 haccepts
        exact ⟨value, args, hbuilt, hvalue, (hrows value).1 hunmatched⟩
  · rintro ⟨value, args, hbuilt, hvalue, hunmatched⟩
    have hlength := (hvalue.valuesOf_args hinstance hbuilt hbuilds).length_eq
    refine ⟨[value], .cons hvalue .nil, ?_, (hrows value).2 hunmatched⟩
    simp only [List.map_cons, List.map_nil, acceptsAll, Bool.and_true]
    exact accepts_constructor.2 ⟨args, hbuilt, hlength ▸ acceptsAll_fit_nil args⟩

theorem missing_of_constructors (hr : r.isWhole = true) (hcoherent : r.Coherent)
    (hpop : Populated r other) {ps : List Pattern} {t : Ty} (ht : t.Within fun _ => False)
    (hinstance : r.IsInstance t) (hps : ∀ p ∈ ps, RowFits r [p] [t]) {names : List String}
    {u u' : Supply} (hrun : (missing r ps t).run u = (names, u')) (hu : u'.Unwrapped)
    (hsome : constructorsOf r t ≠ []) {p : String → Bool}
    (hp : ∀ name, p name = true ↔ Misses r other ps t name) :
    names = (constructorsOf r t).filter p := by
  unfold missing at hrun
  dsimp only at hrun
  split at hrun
  · rename_i hnone
    exact absurd hnone hsome
  refine run_filterM_eq (fun _ => useful_grows _ _ _) hrun fun name hname u₁ u₂ c hquery _ hle => ?_
  obtain ⟨fields, hbuilds⟩ := (mem_constructorsOf_iff hcoherent hpop ht hinstance).1 hname
  obtain ⟨⟨d, v⟩, hvariant⟩ : ∃ owner, r.variant? name = some owner :=
    Option.ne_none_iff_exists'.1 hbuilds.ne_none
  rw [hvariant] at hquery
  dsimp only at hquery
  rw [length_of_builds hbuilds hvariant] at hquery
  rw [Bool.eq_iff_iff, hp, ← unmatched_constructor_iff hinstance hbuilds]
  exact decided_useful hr hcoherent hpop _ _ hquery (hu.of_le hle)
    (posed_constructor hpop ht hinstance hbuilds hps)

theorem missing_of_no_constructors (hcoherent : r.Coherent) (hpop : Populated r other)
    {ps : List Pattern} {t : Ty} (ht : t.Within fun _ => False) (hinstance : r.IsInstance t)
    (hps : ∀ p ∈ ps, RowFits r [p] [t]) (hnone : constructorsOf r t = []) (u : Supply) :
    (missing r ps t).run u = (if ps = [] then ["_"] else [], u) := by
  have hdefault : (defaultRows (ps.map fun p => [p])).isEmpty = decide (ps = []) := by
    cases ps with
    | nil => rfl
    | cons p ps =>
        have hp := hps p (List.mem_cons_self ..)
        cases p with
        | wildcard | var => rfl
        | const => exact absurd (hp.of_const ▸ hinstance) DataTypes.not_isInstance_scalar
        | constructor name args =>
            obtain ⟨-, fields, hbuilds, -⟩ := hp.of_constructor
            have hmem := (mem_constructorsOf_iff hcoherent hpop ht hinstance).2 ⟨fields, hbuilds⟩
            rw [hnone] at hmem
            exact absurd hmem List.not_mem_nil
  have huseful : useful r (ps.map fun p => [p]) [(.wildcard, t)] = pure (decide (ps = [])) := by
    rw [useful, dif_neg (by simp [hnone, covers]), useful, hdefault]
  unfold missing
  dsimp only
  rw [hnone]
  dsimp only
  rw [huseful]
  by_cases h : ps = [] <;> simp [h, StateT.run, StateT.bind, bind, pure, StateT.pure]

open Classical in
/-- Exhaustiveness is exact on data types. Where every constructor builds some value of each ground
instance of its type, what is missing from patterns that are accepted for such an instance are, in the
order of declaration, just the constructors that build a value which no pattern matches. A data type
without constructors of which there is no pattern at all is reported by a wildcard. -/
theorem missing_exact {ds : List DataType} {r : DataTypes} {other : Ty → Expr → Prop}
    (hds : ds.foldlM DataTypes.register .empty = .ok r)
    (hfields : ∀ d ∈ r.types, r.checkFields d.name = .ok ()) (hpop : Populated r other)
    {d : DataType} (hd : d ∈ r.types) (howner : d.name ≠ Ty.metaName) {params : List Ty}
    (hlength : params.length = d.params.length) (hground : ∀ t ∈ params, t.Within fun _ => False)
    {ps : List Pattern}
    (hps : ∀ p ∈ ps, ∃ w typing w',
      Attempt.Returns (p.check r (.instanceOf d.name params)) w typing w' ∧ w'.Unwrapped)
    (hmeta : ∀ p ∈ ps, ∀ a ∈ p.applications, r.metaVariant? a.1 = none) {names : List String}
    {u u' : Supply} (hrun : (missing r ps (.instanceOf d.name params)).run u = (names, u'))
    (hu : u'.Unwrapped) :
    names = if d.variants = [] ∧ ps = [] then ["_"]
      else (d.variants.map (·.name)).filter fun name =>
        decide (Misses r other ps (.instanceOf d.name params) name) := by
  have hcoherent : r.Coherent := DataTypes.coherent_empty.of_foldlM hds
  have hr := DataTypes.isWhole_of_checkFields hcoherent hfields
  have ht : (Ty.instanceOf d.name params).Within fun _ => False := Ty.within_data.2 hground
  have hinstance : r.IsInstance (.instanceOf d.name params) :=
    ⟨d, hd, howner, params, hlength, rfl⟩
  have hrows : ∀ p ∈ ps, RowFits r [p] [.instanceOf d.name params] := by
    intro p hp
    obtain ⟨w, typing, w', hcheck, hw'⟩ := hps p hp
    exact rowFits_of_check hr hcheck hw' ht (hmeta p hp)
  have hconstructors : constructorsOf r (.instanceOf d.name params) = d.variants.map (·.name) := by
    rw [Ty.instanceOf, constructorsOf, if_neg howner, DataTypes.variantsOf,
      hcoherent.find?_eq_some_iff.2 ⟨hd, rfl⟩]
  by_cases hvariants : d.variants = []
  · have hnone : constructorsOf r (.instanceOf d.name params) = [] := by
      rw [hconstructors, hvariants, List.map_nil]
    rw [missing_of_no_constructors hcoherent hpop ht hinstance hrows hnone] at hrun
    obtain ⟨rfl, -⟩ := Prod.mk.inj hrun
    simp [hvariants]
  · rw [if_neg fun h => hvariants h.1, ← hconstructors]
    exact missing_of_constructors hr hcoherent hpop ht hinstance hrows hrun hu
      (by simpa [hconstructors] using hvariants) fun name => by rw [decide_eq_true_iff]

/-- A type of what may be there. -/
def maybeType : DataType :=
  ⟨"Maybe", ["A"], [⟨"Nothing", []⟩, ⟨"Just", [⟨none, .named "A"⟩]⟩]⟩

theorem isInstance_maybe (t : Ty) : DataTypes.IsInstance ⟨[maybeType]⟩ (.instanceOf "Maybe" [t]) :=
  ⟨maybeType, List.mem_cons_self .., by decide, [t], rfl, rfl⟩

theorem populated_maybe : Populated ⟨[maybeType]⟩ fun _ _ => True := by
  have hnothing : ∀ t : Ty, t.isMono = true →
      ValueOf ⟨[maybeType]⟩ (fun _ _ => True) (.object "Nothing") (.instanceOf "Maybe" [t]) :=
    fun t ht => .built rfl (isInstance_maybe t) (.ofData (d := maybeType) rfl (by decide) rfl
      (by simpa using ht) .nil) .nil
  have hvalue : ∀ t : Ty, t.isMono = true →
      ∃ value, ValueOf ⟨[maybeType]⟩ (fun _ _ => True) value t := by
    intro t ht
    by_cases hscalar : t = .scalar
    · exact ⟨.const "0", hscalar ▸ .scalar⟩
    by_cases hinstance : DataTypes.IsInstance ⟨[maybeType]⟩ t
    · obtain ⟨d, hd, -, params, hlength, rfl⟩ := hinstance
      obtain rfl := List.mem_singleton.1 hd
      obtain ⟨a, rfl⟩ := List.length_eq_one_iff.1 hlength
      exact ⟨_, hnothing a (by simpa [Ty.instanceOf, Ty.isMono, Ty.isMonoList] using ht)⟩
    · exact ⟨.blank, .other hscalar hinstance trivial⟩
  refine ⟨fun d hd _ v hv params hlength hground => ?_, fun _ _ _ _ => ⟨.blank, trivial⟩⟩
  obtain rfl := List.mem_singleton.1 hd
  obtain ⟨a, rfl⟩ := List.length_eq_one_iff.1 hlength
  have ha : a.isMono = true := (hground a (List.mem_singleton.2 rfl)).1
  obtain ⟨value, hvalue⟩ := hvalue a ha
  rcases List.mem_pair.1 hv with rfl | rfl
  · exact ⟨.object "Nothing", [], rfl, hnothing a ha⟩
  · exact ⟨.operation "Just" [value], [value], rfl, .built rfl (isInstance_maybe a)
      (.ofData (d := maybeType) rfl (by decide) rfl (by simpa using ha) (.cons (by cbv) .nil))
      (.cons hvalue .nil)⟩

open Classical in
theorem missing_exact_maybe :
    let r : DataTypes := ⟨[maybeType]⟩
    let t : Ty := .instanceOf "Maybe" [.scalar]
    let ps : List Pattern := [.constructor "Nothing" [], .constructor "Just" [.const "1"]]
    ((missing r ps t).run (.startingAt 0)).1 = ["Just"] ∧
      ["Just"] = if maybeType.variants = [] ∧ ps = [] then ["_"]
        else (maybeType.variants.map (·.name)).filter fun name =>
          decide (Misses r (fun _ _ => True) ps t name) := by
  intro r t ps
  have hrun : (missing r ps t).run (.startingAt 0) = (["Just"], ⟨0, 2, 0⟩) := by cbv
  have haccepted : ∀ p : Pattern, (Attempt.outcome (p.check r t) (.startingAt 0)).1.toBool = true →
      (Attempt.outcome (p.check r t) (.startingAt 0)).2 = ⟨0, 1, 0⟩ →
      ∃ w typing w', Attempt.Returns (p.check r t) w typing w' ∧ w'.Unwrapped := by
    intro p hresult hdrawn
    cases htyping : (Attempt.outcome (p.check r t) (.startingAt 0)).1 with
    | error e =>
        rw [htyping] at hresult
        cases hresult
    | ok typing => exact ⟨.startingAt 0, typing, ⟨0, 1, 0⟩, Prod.ext htyping hdrawn, by decide⟩
  have hregister : [maybeType].foldlM DataTypes.register .empty = .ok r := rfl
  exact ⟨congrArg Prod.fst hrun, missing_exact hregister
    (List.forall_mem_singleton.2 rfl) populated_maybe (List.mem_singleton.2 rfl) (by decide) rfl
    (List.forall_mem_singleton.2 Ty.within_scalar)
    (List.forall_mem_cons.2 ⟨haccepted _ (by cbv) (by cbv),
      List.forall_mem_singleton.2 (haccepted _ (by cbv) (by cbv))⟩)
    (by decide) hrun (by decide)⟩

/-- A data type without constructors has no values, but without patterns the wildcard is reported. -/
theorem missing_of_void :
    let d : DataType := ⟨"Void", [], []⟩
    let r : DataTypes := ⟨[d]⟩
    DataTypes.empty.register d = .ok r ∧ r.checkFields "Void" = .ok () ∧
      Populated r (fun _ _ => True) ∧
      ((missing r [] (.instanceOf "Void" [])).run (.startingAt 0)).1 = ["_"] ∧
      ∀ keep : String → Bool, (d.variants.map (·.name)).filter keep = [] := by
  intro d r
  refine ⟨rfl, rfl, ⟨fun d' hd' _ v hv => ?_, fun _ _ _ _ => ⟨.blank, trivial⟩⟩, by cbv, fun _ => rfl⟩
  obtain rfl := List.mem_singleton.1 hd'
  exact absurd hv List.not_mem_nil

end Pattern

end Formulary
