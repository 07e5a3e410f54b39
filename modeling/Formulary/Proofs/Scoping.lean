import Formulary.Pattern.Exhaustive
import Formulary.Pattern.Typing
import Formulary.Proofs.Steps
import Formulary.Proofs.Unification
import Formulary.Registry.Validation

/-!
Variables in scope. A type is in scope below a number when it is a monotype and its variables are
smaller; steps that hand out variables return what is in scope below the next variable.
-/

namespace Formulary

namespace Ty

/-- A monotype all of whose variables have a property. -/
def Within (F : Int → Prop) (t : Ty) : Prop :=
  t.isMono = true ∧ ∀ x ∈ t.freeOccurrences, F x

variable {F G : Int → Prop}

theorem Within.imp {t : Ty} (h : t.Within F) (hFG : ∀ x, F x → G x) : t.Within G :=
  ⟨h.1, fun x hx => hFG x (h.2 x hx)⟩

theorem Within.and {t : Ty} (hF : t.Within F) (hG : t.Within G) : t.Within fun x => F x ∧ G x :=
  ⟨hF.1, fun x hx => ⟨hF.2 x hx, hG.2 x hx⟩⟩

theorem within_var {x : Int} (h : F x) : (Ty.var x).Within F :=
  ⟨rfl, by simpa [freeOccurrences] using h⟩

theorem within_prim (kind : PrimKind) : (Ty.prim kind).Within F :=
  ⟨rfl, by simp [freeOccurrences]⟩

theorem within_nat (value : Int) : (Ty.nat value).Within F :=
  ⟨rfl, by simp [freeOccurrences]⟩

theorem within_tag (value : Tag) : (Ty.tag value).Within F :=
  ⟨rfl, by simp [freeOccurrences]⟩

theorem within_fn {a b : Ty} : (Ty.fn a b).Within F ↔ a.Within F ∧ b.Within F := by
  simp only [Within, isMono, freeOccurrences, Bool.and_eq_true, List.mem_append]
  constructor
  · rintro ⟨⟨ha, hb⟩, h⟩
    exact ⟨⟨ha, fun x hx => h x (.inl hx)⟩, hb, fun x hx => h x (.inr hx)⟩
  · rintro ⟨⟨ha, hax⟩, hb, hbx⟩
    refine ⟨⟨ha, hb⟩, ?_⟩
    rintro x (hx | hx)
    · exact hax x hx
    · exact hbx x hx

theorem within_data {name constructor : String} {args : List Ty} :
    (Ty.data name constructor args).Within F ↔ ∀ t ∈ args, t.Within F := by
  simp only [Within, isMono, freeOccurrences, isMonoList_iff, mem_freeOccurrencesList]
  constructor
  · rintro ⟨hmono, h⟩ t ht
    exact ⟨hmono t ht, fun x hx => h x ⟨t, ht, hx⟩⟩
  · intro h
    refine ⟨fun t ht => (h t ht).1, ?_⟩
    rintro x ⟨t, ht, hx⟩
    exact (h t ht).2 x hx

theorem within_scalar : Ty.scalar.Within F :=
  within_data.2 fun _ h => absurd h List.not_mem_nil

theorem within_bind {t : Ty} {f : Int → Ty} (ht : t.isMono = true)
    (hf : ∀ x ∈ t.freeOccurrences, (f x).Within F) : (t.bind f).Within F := by
  refine ⟨isMono_bind ht fun x hx => (hf x hx).1, fun y hy => ?_⟩
  obtain ⟨x, hx, hy⟩ := mem_freeOccurrences_bind hy
  exact (hf x hx).2 y hy

theorem within_curry {ts : List Ty} {t : Ty} :
    (curry ts t).Within F ↔ (∀ a ∈ ts, a.Within F) ∧ t.Within F := by
  induction ts with
  | nil => simp [curry]
  | cons a ts ih =>
      have hcons : curry (a :: ts) t = .fn a (curry ts t) := rfl
      rw [hcons, within_fn, ih, List.forall_mem_cons, and_assoc]

theorem within_uncurry {t : Ty} (h : t.Within F) :
    (∀ a ∈ t.uncurry.1, a.Within F) ∧ t.uncurry.2.Within F := by
  match t with
  | .fn a b =>
      obtain ⟨ha, hb⟩ := within_fn.1 h
      obtain ⟨hparams, hresult⟩ := within_uncurry hb
      exact ⟨List.forall_mem_cons.2 ⟨ha, hparams⟩, hresult⟩
  | .blank | .prim _ | .nat _ | .tag _ | .var _ | .data _ _ _ | .poly _ _ =>
      exact ⟨fun _ h => absurd h List.not_mem_nil, h⟩

/-- A monotype whose variables are smaller than a number. -/
def inScope (t : Ty) : Upward where
  holds n := t.Within (· < n)
  mono hle h := h.imp fun _ hx => Int.lt_of_lt_of_le hx hle

/-- A monotype whose variables are smaller than a number and have a property. -/
def inScopeOf (F : Int → Prop) (t : Ty) : Upward where
  holds n := t.Within fun x => x < n ∧ F x
  mono hle h := h.imp fun _ hx => ⟨Int.lt_of_lt_of_le hx.1 hle, hx.2⟩

theorem inScopeOf_iff {F : Int → Prop} {t : Ty} {n : Int} :
    t.inScopeOf F n ↔ t.inScope n ∧ t.Within F :=
  ⟨fun h => ⟨h.imp fun _ hx => hx.1, h.imp fun _ hx => hx.2⟩, fun h => h.1.and h.2⟩

theorem inScopeOf_true : inScopeOf (fun _ => True) = inScope := by
  funext t
  simp [inScopeOf, inScope]

/-- Quantifiers in front of a monotype, all free variables smaller than a number. -/
def schemeBelow (t : Ty) : Upward where
  holds n := t.unquantify.2.isMono = true ∧ ∀ x ∈ t.freeOccurrences, x < n
  mono hle h := ⟨h.1, fun x hx => Int.lt_of_lt_of_le (h.2 x hx) hle⟩

theorem unquantify_of_isQuantifierFree {t : Ty} (h : t.isQuantifierFree = true) :
    t.unquantify = ([], t) := by
  cases t with
  | poly id body => cases h
  | _ => rfl

theorem unquantify_of_isMono {t : Ty} (h : t.isMono = true) : t.unquantify = ([], t) :=
  unquantify_of_isQuantifierFree (isQuantifierFree_of_isMono h)

theorem schemeBelow_of_inScope {t : Ty} {n : Int} (h : t.inScope n) : t.schemeBelow n := by
  refine ⟨?_, h.2⟩
  rw [unquantify_of_isMono h.1]
  exact h.1

theorem unquantify_quantify {ids : List Int} {t : Ty} (h : t.unquantify = ([], t)) :
    (quantify ids t).unquantify = (ids, t) := by
  induction ids with
  | nil => exact h
  | cons id ids ih =>
      have hcons : quantify (id :: ids) t = .poly id (quantify ids t) := rfl
      rw [hcons, unquantify, ih]

theorem mem_freeOccurrences_iff_unquantify {t : Ty} {x : Int} :
    x ∈ t.freeOccurrences ↔ x ∈ t.unquantify.2.freeOccurrences ∧ x ∉ t.unquantify.1 := by
  match t with
  | .poly id body =>
      simp only [freeOccurrences, unquantify, List.mem_filter, decide_eq_true_eq, List.mem_cons,
        mem_freeOccurrences_iff_unquantify (t := body)]
      constructor
      · rintro ⟨⟨hx, hids⟩, hid⟩
        exact ⟨hx, by simp [hid, hids]⟩
      · rintro ⟨hx, hnot⟩
        exact ⟨⟨hx, fun h => hnot (.inr h)⟩, fun h => hnot (.inl h)⟩
  | .blank | .prim _ | .nat _ | .tag _ | .var _ | .data _ _ _ | .fn _ _ => simp [unquantify]

/-- Whether a type is closed and has its quantifiers in front of a monotype. -/
def isClosedScheme (t : Ty) : Bool := t.unquantify.2.isMono && t.freeOccurrences.isEmpty

theorem mem_unquantify_of_isClosedScheme {t : Ty} (h : t.isClosedScheme = true) {x : Int}
    (hx : x ∈ t.unquantify.2.freeOccurrences) : x ∈ t.unquantify.1 := by
  by_contra hnot
  simp only [isClosedScheme, Bool.and_eq_true, List.isEmpty_iff] at h
  have hfree := mem_freeOccurrences_iff_unquantify.2 ⟨hx, hnot⟩
  simp [h.2] at hfree

theorem unquantify_generalize {t : Ty} (h : t.isMono = true) (keep : Int → Bool) :
    (t.generalize keep).unquantify = (t.freeVars.filter fun id => !keep id, t) :=
  unquantify_quantify (unquantify_of_isMono h)

theorem isClosedScheme_generalize {t : Ty} (h : t.isMono = true) :
    (t.generalize fun _ => false).isClosedScheme = true := by
  have hfree : (t.generalize fun _ => false).freeOccurrences = [] := by
    refine List.eq_nil_iff_forall_not_mem.2 fun x hx => ?_
    rw [mem_freeOccurrences_iff_unquantify, unquantify_generalize h] at hx
    exact hx.2 (by simpa [freeVars, List.mem_eraseDups] using hx.1)
  simp [isClosedScheme, unquantify_generalize h, h, hfree]

theorem schemeBelow_of_isClosedScheme {t : Ty} (h : t.isClosedScheme = true) (n : Int) :
    t.schemeBelow n := by
  simp only [isClosedScheme, Bool.and_eq_true, List.isEmpty_iff] at h
  refine ⟨h.1, fun x hx => ?_⟩
  rw [h.2] at hx
  exact absurd hx List.not_mem_nil

theorem lt_of_mem_unquantify_generalize {t : Ty} {n : Int} (h : t.inScope n) {keep : Int → Bool}
    {x : Int} (hx : x ∈ (t.generalize keep).unquantify.1) : x < n := by
  rw [unquantify_generalize h.1] at hx
  have hmem := (List.mem_filter.1 hx).1
  exact h.2 x (by simpa [freeVars, List.mem_eraseDups] using hmem)

/-- Puts fresh variables for some variables, one for each. -/
def freshen (ids : List Int) (s : Subst) : StateM Supply Subst :=
  ids.foldlM (fun (s : Subst) id => do return s.insert id (.var (← Supply.fresh))) s

/-- Different variables from `low` up to `high` are put for some variables. -/
structure Freshens (ids : List Int) (low high : Int) (ρ : Int → Ty) : Prop where
  other : ∀ x, x ∉ ids → ρ x = .var x
  fresh : ∀ x ∈ ids, ∃ y, ρ x = .var y ∧ low ≤ y ∧ y < high
  injective : ∀ x ∈ ids, ∀ y ∈ ids, ρ x = ρ y → x = y

theorem run_freshen_cons (id : Int) (ids : List Int) (s : Subst) (u : Supply) :
    (freshen (id :: ids) s).run u = (freshen ids (s.insert id (.var u.next))).run u.advance := rfl

theorem le_freshen (ids : List Int) (s : Subst) (u : Supply) : u ≤ ((freshen ids s).run u).2 := by
  induction ids generalizing s u with
  | nil => exact le_rfl
  | cons id ids ih =>
      rw [run_freshen_cons]
      exact u.le_advance.trans (ih _ _)

theorem freshen_get? (ids : List Int) (s : Subst) (u : Supply) {x : Int} (hx : x ∉ ids) :
    ((freshen ids s).run u).1.get? x = s.get? x := by
  induction ids generalizing s u with
  | nil => rfl
  | cons id ids ih =>
      simp only [List.mem_cons, not_or] at hx
      rw [run_freshen_cons, ih _ _ hx.2, SortedMap.get?_insert, if_neg (Ne.symm hx.1)]

theorem freshen_distinct (ids : List Int) (s : Subst) (u : Supply)
    (hu : ((freshen ids s).run u).2.Unwrapped) :
    (∀ x ∈ ids, ∃ y, ((freshen ids s).run u).1.image x = .var y ∧ u.next ≤ y ∧
        y < ((freshen ids s).run u).2.next) ∧
      ∀ x ∈ ids, ∀ y ∈ ids, ((freshen ids s).run u).1.image x =
        ((freshen ids s).run u).1.image y → x = y := by
  induction ids generalizing s u with
  | nil => simp
  | cons id ids ih =>
      rw [run_freshen_cons] at hu ⊢
      have hadvance := hu.of_le (le_freshen ids (s.insert id (.var u.next)) u.advance)
      have hnext := hadvance.next_advance
      have hle := hu.next_le_next (le_freshen ids (s.insert id (.var u.next)) u.advance)
      obtain ⟨hfresh, hinjective⟩ := ih _ _ hu
      have hhead : id ∉ ids → ((freshen ids (s.insert id (.var u.next))).run u.advance).1.image id
          = .var u.next := fun hid => by
        refine Subst.image_of_get?_eq_some ?_
        rw [freshen_get? ids _ _ hid, SortedMap.get?_insert, if_pos rfl]
      -- a variable that comes again later gets its variable there
      have hlater : ∀ x ∈ ids, ∃ y,
          ((freshen ids (s.insert id (.var u.next))).run u.advance).1.image x = .var y ∧
            u.next < y ∧
            y < ((freshen ids (s.insert id (.var u.next))).run u.advance).2.next := by
        intro x hx
        obtain ⟨y, hy, hlow, hhigh⟩ := hfresh x hx
        exact ⟨y, hy, by omega, hhigh⟩
      refine ⟨fun x hx => ?_, fun x hx y hy heq => ?_⟩
      · by_cases hids : x ∈ ids
        · obtain ⟨y, hy, hlow, hhigh⟩ := hlater x hids
          exact ⟨y, hy, by omega, hhigh⟩
        · obtain rfl : x = id := by simpa [hids] using hx
          exact ⟨u.next, hhead hids, by omega, by omega⟩
      · by_cases hxs : x ∈ ids
        · by_cases hys : y ∈ ids
          · exact hinjective x hxs y hys heq
          · obtain rfl : y = id := by simpa [hys] using hy
            obtain ⟨z, hz, hlow, -⟩ := hlater x hxs
            rw [hhead hys, hz, Ty.var.injEq] at heq
            omega
        · obtain rfl : x = id := by simpa [hxs] using hx
          by_cases hys : y ∈ ids
          · obtain ⟨z, hz, hlow, -⟩ := hlater y hys
            rw [hhead hxs, hz, Ty.var.injEq] at heq
            omega
          · obtain rfl : y = x := by simpa [hys] using hy
            rfl

theorem freshen_freshens (ids : List Int) (u : Supply)
    (hu : ((freshen ids ∅).run u).2.Unwrapped) :
    Freshens ids u.next ((freshen ids ∅).run u).2.next ((freshen ids ∅).run u).1.image := by
  obtain ⟨hfresh, hinjective⟩ := freshen_distinct ids ∅ u hu
  refine ⟨fun x hx => Subst.image_of_get?_eq_none ?_, hfresh, hinjective⟩
  rw [freshen_get? ids ∅ u hx]
  rfl

theorem run_instantiate (t : Ty) (u : Supply) :
    t.instantiate.run u =
      if t.unquantify.1.isEmpty then (t, u)
      else (((freshen t.unquantify.1 ∅).run u).1.apply t.unquantify.2,
        ((freshen t.unquantify.1 ∅).run u).2) := by
  unfold instantiate
  dsimp only
  split <;> rfl

theorem le_instantiate (t : Ty) (u : Supply) : u ≤ (t.instantiate.run u).2 := by
  rw [run_instantiate]
  split
  · exact le_rfl
  · exact le_freshen _ _ _

theorem unquantify_of_isEmpty {t : Ty} (h : t.unquantify.1.isEmpty = true) : t.unquantify.2 = t := by
  cases t with
  | poly id body => simp [unquantify] at h
  | _ => rfl

theorem instantiate_freshens (t : Ty) (u : Supply) (hu : (t.instantiate.run u).2.Unwrapped) :
    ∃ ρ, Freshens t.unquantify.1 u.next (t.instantiate.run u).2.next ρ ∧
      (t.instantiate.run u).1 = t.unquantify.2.bind ρ := by
  rw [run_instantiate] at hu ⊢
  split
  · rename_i hempty
    have hnil : t.unquantify.1 = [] := by simpa using hempty
    refine ⟨.var, ⟨fun _ _ => rfl, by simp [hnil], by simp [hnil]⟩, ?_⟩
    rw [bind_var, unquantify_of_isEmpty hempty]
  · rename_i hempty
    simp only [hempty] at hu
    exact ⟨_, freshen_freshens _ u hu, Subst.apply_eq_bind _ _⟩

end Ty

/-- The types of an environment are schemes in scope. -/
def TypeEnv.inScope (env : TypeEnv) : Upward where
  holds n := ∀ x t, env.get? x = some t → t.schemeBelow n
  mono hle h x t hx := (Ty.schemeBelow t).mono hle (h x t hx)

/-- The types of an environment are closed schemes. -/
def TypeEnv.IsClosed (env : TypeEnv) : Prop :=
  ∀ x t, env.get? x = some t → t.isClosedScheme = true

theorem TypeEnv.IsClosed.inScope {env : TypeEnv} (h : env.IsClosed) (n : Int) :
    TypeEnv.inScope env n :=
  fun x t hx => Ty.schemeBelow_of_isClosedScheme (h x t hx) n

theorem TypeEnv.inScope_insert {env : TypeEnv} {x : String} {t : Ty} {n : Int} (h : env.inScope n)
    (ht : t.schemeBelow n) : TypeEnv.inScope (env.insert x t) n := by
  intro y u hy
  rw [SortedMap.get?_insert] at hy
  split at hy
  · cases hy
    exact ht
  · exact h y u hy

theorem TypeEnv.inScope_extend {env : TypeEnv} {bindings : List (String × Ty)} {n : Int}
    (h : env.inScope n) (hb : ∀ b ∈ bindings, b.2.schemeBelow n) :
    (env.extend bindings).inScope n := by
  induction bindings generalizing env with
  | nil => exact h
  | cons b rest ih =>
      exact ih (inScope_insert h (hb b (List.mem_cons_self ..))) fun b' hb' =>
        hb b' (List.mem_cons_of_mem _ hb')

/-- All variables of a substitution have a property, and it puts monotypes. -/
def Subst.Within (F : Int → Prop) (s : Subst) : Prop :=
  ∀ x t, s.get? x = some t → F x ∧ t.Within F

def Subst.inScope (s : Subst) : Upward where
  holds n := s.Within (· < n)
  mono hle h x t hx :=
    ⟨Int.lt_of_lt_of_le (h x t hx).1 hle, (Ty.inScope t).mono hle (h x t hx).2⟩

namespace Subst

variable {F : Int → Prop} {s next : Subst}

theorem within_empty : (∅ : Subst).Within F := fun x t h => by simp at h

theorem within_image {x : Int} (h : s.Within F) (hx : F x) : (s.image x).Within F := by
  cases hget : s.get? x with
  | none => exact image_of_get?_eq_none hget ▸ Ty.within_var hx
  | some t => exact image_of_get?_eq_some hget ▸ (h x t hget).2

theorem within_apply {t : Ty} (h : s.Within F) (ht : t.Within F) : (s.apply t).Within F := by
  rw [apply_eq_bind]
  exact Ty.within_bind ht.1 fun x hx => within_image h (ht.2 x hx)

theorem Within.monoRange (h : s.Within F) : s.MonoRange := by
  intro x
  cases hget : s.get? x with
  | none => simp [image_of_get?_eq_none hget, Ty.isMono]
  | some t => exact image_of_get?_eq_some hget ▸ (h x t hget).2.1

theorem MostGeneral.within {vs : List Int} {eqs : List (Ty × Ty)} (h : MostGeneral vs eqs s)
    (hvs : ∀ x ∈ vs, F x) : s.Within F := by
  intro x t hx
  have hmem := h.domain x t hx
  have himage := image_of_get?_eq_some hx
  exact ⟨hvs x hmem, himage ▸ h.mono x,
    fun y hy => hvs y (h.confined.inside x hmem y (himage ▸ hy))⟩

theorem within_compose (hs : s.Within F) (hn : next.Within F) : (s.compose next).Within F := by
  intro x t hx
  have hFx : F x := by
    rcases bound_of_bound_compose hx with ⟨u, hu⟩ | ⟨u, hu⟩
    · exact (hs x u hu).1
    · exact (hn x u hu).1
  have himage := image_of_get?_eq_some hx
  rw [image_compose] at himage
  exact ⟨hFx, himage ▸ within_apply hn (within_image hs hFx)⟩

theorem settled_empty : (∅ : Subst).Settled := fun _ _ _ => rfl

theorem settled_compose (hs : s.Settled) (hn : next.Settled)
    (hnew : next.Within fun x => s.image x = .var x) : (s.compose next).Settled := by
  intro x y hy
  rw [image_compose, apply_eq_bind] at hy
  obtain ⟨z, hz, hy⟩ := Ty.mem_freeOccurrences_bind hy
  rw [image_compose]
  cases hget : next.get? z with
  | none =>
      have himage := image_of_get?_eq_none hget
      obtain rfl : y = z := by simpa [himage, Ty.freeOccurrences] using hy
      rw [hs x y hz, apply_var, himage]
  | some t =>
      have hfixed := (hnew z t hget).2.2 y (image_of_get?_eq_some hget ▸ hy)
      rw [hfixed, apply_var, hn z y hy]

/-- What a settled substitution leaves of a type, it leaves alone. -/
theorem Settled.apply_within {t : Ty} (h : s.Settled) (hmono : s.MonoRange)
    (ht : t.isMono = true) : (s.apply t).Within fun x => s.image x = .var x := by
  rw [apply_eq_bind]
  exact Ty.within_bind ht fun x _ => ⟨hmono x, h x⟩

end Subst

end Formulary
