import Formulary.Proofs.Monotypes
import Formulary.Ty.Unification

namespace Formulary

/-- Whether a replacement of variables makes the sides of every equation equal. -/
def Unifies (θ : Int → Ty) (eqs : List (Ty × Ty)) : Prop := ∀ p ∈ eqs, p.1.bind θ = p.2.bind θ

theorem unifies_append {θ : Int → Ty} {eqs eqs' : List (Ty × Ty)} :
    Unifies θ (eqs ++ eqs') ↔ Unifies θ eqs ∧ Unifies θ eqs' := by
  simp only [Unifies, List.mem_append]
  constructor
  · intro h
    exact ⟨fun p hp => h p (.inl hp), fun p hp => h p (.inr hp)⟩
  · rintro ⟨h, h'⟩ p (hp | hp)
    · exact h p hp
    · exact h' p hp

theorem unifies_cons {θ : Int → Ty} {a b : Ty} {eqs : List (Ty × Ty)} :
    Unifies θ ((a, b) :: eqs) ↔ a.bind θ = b.bind θ ∧ Unifies θ eqs := by
  simp [Unifies]

theorem unifies_nil (θ : Int → Ty) : Unifies θ [] := by
  simp [Unifies]

/-- Whether both sides of every equation are monotypes. -/
def MonoEquations (eqs : List (Ty × Ty)) : Prop :=
  ∀ p ∈ eqs, p.1.isMono = true ∧ p.2.isMono = true

theorem Unifies.bind {θ ρ : Int → Ty} {eqs : List (Ty × Ty)} (hmono : MonoEquations eqs)
    (h : Unifies θ eqs) : Unifies (fun x => (θ x).bind ρ) eqs := by
  intro p hp
  rw [← Ty.bind_bind θ ρ (hmono p hp).1, ← Ty.bind_bind θ ρ (hmono p hp).2, h p hp]

theorem unifies_zip {θ : Int → Ty} {as bs : List Ty} (h : as.length = bs.length) :
    Unifies θ (as.zip bs) ↔ Ty.bindList θ as = Ty.bindList θ bs := by
  induction as generalizing bs with
  | nil =>
      cases bs with
      | nil => simp [Unifies]
      | cons b bs => simp at h
  | cons a as ih =>
      cases bs with
      | nil => simp at h
      | cons b bs =>
          rw [List.zip_cons_cons, unifies_cons, ih (by simpa using h)]
          simp [Ty.bindList]

theorem Ty.eq_var_of_bind_eq_var {f : Int → Ty} {t : Ty} {x : Int} (h : t.bind f = .var x) :
    ∃ y, t = .var y ∧ f y = .var x := by
  cases t with
  | var y => exact ⟨y, rfl, h⟩
  | blank | prim | nat | tag | data | fn | poly => simp [bind] at h

namespace Subst

theorem get?_compose_eq_some {s next : Subst} {x : Int} {t : Ty}
    (h : (s.compose next).get? x = some t) :
    (∃ u, s.get? x = some u ∧ next.apply u = t) ∨ next.get? x = some t := by
  unfold compose at h
  split at h
  · rename_i hnext
    exact .inl ⟨t, h, by rw [apply, if_pos hnext]⟩
  · split at h
    · exact .inr h
    · rw [SortedMap.get?_union, SortedMap.get?_mapValues] at h
      cases hs : s.get? x with
      | some u => exact .inl ⟨u, rfl, by simpa [hs] using h⟩
      | none => exact .inr (by simpa [hs] using h)

theorem bound_of_bound_compose {s next : Subst} {x : Int} {t : Ty}
    (h : (s.compose next).get? x = some t) :
    (∃ u, s.get? x = some u) ∨ ∃ u, next.get? x = some u := by
  rcases get?_compose_eq_some h with ⟨u, hu, -⟩ | h
  · exact .inl ⟨u, hu⟩
  · exact .inr ⟨t, h⟩

theorem image_of_get?_eq_none {s : Subst} {x : Int} (h : s.get? x = none) : s.image x = .var x := by
  simp [image, h]

theorem image_of_get?_eq_some {s : Subst} {x : Int} {t : Ty} (h : s.get? x = some t) :
    s.image x = t := by
  simp [image, h]

@[simp] theorem image_empty (x : Int) : (∅ : Subst).image x = .var x := rfl

/-- What a substitution puts is left alone by it. -/
def Settled (s : Subst) : Prop :=
  ∀ x, ∀ y ∈ (s.image x).freeOccurrences, s.image y = .var y

/-- Every entry of a substitution is a monotype. -/
def MonoRange (s : Subst) : Prop := ∀ x, (s.image x).isMono = true

theorem Settled.bind_image {s : Subst} (h : s.Settled) (x : Int) :
    (s.image x).bind s.image = s.image x :=
  Ty.bind_eq_self (h x)

theorem Settled.apply_apply {s : Subst} (h : s.Settled) {t : Ty} (ht : t.isMono = true) :
    s.apply (s.apply t) = s.apply t := by
  rw [apply_eq_bind, apply_eq_bind, Ty.bind_bind _ _ ht]
  exact Ty.bind_congr fun x _ => h.bind_image x

theorem Settled.isIdempotent {s : Subst} (h : s.Settled) (hmono : s.MonoRange) :
    s.isIdempotent = true := by
  refine List.all_eq_true.2 ?_
  rintro ⟨x, t⟩ hmem
  have himage := image_of_get?_eq_some ((SortedMap.get?_eq_some_iff s x t).2 hmem)
  have hfixed : s.apply t = t := by
    rw [apply_eq_bind, ← himage]
    exact h.bind_image x
  show Ty.same (s.apply t) t = true
  rw [hfixed]
  exact Ty.same_self (himage ▸ hmono x)

theorem isMono_apply {s : Subst} (h : s.MonoRange) {t : Ty} (ht : t.isMono = true) :
    (s.apply t).isMono = true := by
  rw [apply_eq_bind]
  exact Ty.isMono_bind ht fun x _ => h x

/-- A substitution that solves equations with nothing to spare: it stays within the variables `vs`,
puts no variable for itself, and every solution factors through it. -/
structure MostGeneral (vs : List Int) (eqs : List (Ty × Ty)) (s : Subst) : Prop where
  domain : ∀ x t, s.get? x = some t → x ∈ vs
  proper : ∀ x, s.get? x ≠ some (.var x)
  confined : s.Confined vs
  mono : s.MonoRange
  settled : s.Settled
  unifies : Unifies s.image eqs
  general : ∀ θ, Unifies θ eqs → ∀ x, (s.image x).bind θ = θ x

theorem mostGeneral_empty (vs : List Int) : MostGeneral vs [] ∅ where
  domain x t h := by simp at h
  proper x := by simp
  confined := confined_empty vs
  mono x := by simp [Ty.isMono]
  settled x y hy := by simp
  unifies := unifies_nil _
  general θ _ x := by simp [Ty.bind]

theorem mostGeneral_singleton {vs : List Int} {id : Int} {t : Ty} (hid : id ∈ vs)
    (ht : ∀ y ∈ t.freeOccurrences, y ∈ vs) (hmono : t.isMono = true)
    (hoccurs : t.occurs id = false) : MostGeneral vs [(.var id, t)] (singleton id t) := by
  have hnot : id ∉ t.freeOccurrences := by
    rw [← Ty.occurs_iff_mem, hoccurs]
    simp
  have hfixed : t.bind (singleton id t).image = t := by
    refine Ty.bind_eq_self fun x hx => ?_
    rw [image_singleton, if_neg]
    rintro rfl
    exact hnot hx
  refine ⟨?_, ?_, confined_singleton hid ht hoccurs, ?_, ?_, ?_, ?_⟩
  · intro x u h
    rw [singleton, SortedMap.get?_insert] at h
    split at h
    · rename_i heq
      exact heq ▸ hid
    · simp at h
  · intro x h
    rw [singleton, SortedMap.get?_insert] at h
    split at h
    · rename_i heq
      obtain rfl := Option.some.inj h
      exact hnot (by simp [Ty.freeOccurrences, heq])
    · simp at h
  · intro x
    rw [image_singleton]
    split
    · exact hmono
    · rfl
  · intro x y hy
    rw [image_singleton] at hy ⊢
    have hne : id ≠ y := by
      rintro rfl
      split at hy
      · exact hnot hy
      · rename_i hne
        exact hne (by simpa [Ty.freeOccurrences] using hy)
    rw [if_neg hne]
  · rw [unifies_cons]
    refine ⟨?_, unifies_nil _⟩
    rw [hfixed, Ty.bind, image_singleton, if_pos rfl]
  · intro θ hθ x
    rw [image_singleton]
    split
    · rename_i heq
      subst heq
      exact (unifies_cons.1 hθ).1.symm
    · rfl

namespace MostGeneral

variable {vs ws : List Int} {eqs eqs' : List (Ty × Ty)} {s next : Subst} {a b : Ty}

/-- Only the solutions of the equations matter. -/
theorem congr (h : MostGeneral vs eqs s) (heqs : ∀ θ, Unifies θ eqs ↔ Unifies θ eqs') :
    MostGeneral vs eqs' s :=
  { h with
    unifies := (heqs _).1 h.unifies
    general := fun θ hθ => h.general θ ((heqs θ).2 hθ) }

theorem mono_vars (h : MostGeneral vs eqs s) (hsub : ∀ x ∈ vs, x ∈ ws) : MostGeneral ws eqs s :=
  { h with
    domain := fun x t hx => hsub x (h.domain x t hx)
    confined := h.confined.mono hsub }

/-- A solution of the equations so far solves a further equation just when it solves what the
substitution makes of it. -/
theorem bind_apply (h : MostGeneral vs eqs s) {θ : Int → Ty} (hθ : Unifies θ eqs) {t : Ty}
    (ht : t.isMono = true) : (s.apply t).bind θ = t.bind θ := by
  rw [apply_eq_bind, Ty.bind_bind _ _ ht]
  exact Ty.bind_congr fun x _ => h.general θ hθ x

/-- A further equation is solved on top of what has been found. -/
theorem compose (hs : MostGeneral vs eqs s) (heqs : MonoEquations eqs) (ha : a.isMono = true)
    (hb : b.isMono = true) (hvars : ∀ x ∈ Ty.pairVars a b, x ∈ vs)
    (hn : MostGeneral (Ty.pairVars (s.apply a) (s.apply b)) [(s.apply a, s.apply b)] next) :
    MostGeneral vs (eqs ++ [(a, b)]) (s.compose next) := by
  have hleft : ∀ w ∈ Ty.pairVars (s.apply a) (s.apply b),
      ∃ x ∈ vs, w ∈ (s.image x).freeOccurrences := fun w hw =>
    Confined.mem_image_of_mem_apply (fun x hx => hvars x (by simp [hx]))
      (fun x hx => hvars x (by simp [hx])) hw
  refine ⟨?_, ?_, hs.confined.compose hn.confined hleft, ?_, ?_, ?_, ?_⟩
  · intro x t h
    rcases bound_of_bound_compose h with ⟨u, hu⟩ | ⟨u, hu⟩
    · exact hs.domain x u hu
    · obtain ⟨y, hy, hmem⟩ := hleft x (hn.domain x u hu)
      exact hs.confined.inside y hy x hmem
  · -- If the second step led back from what the first put for a variable to that variable, it would
    -- look at a variable that the first step has removed.
    intro x h
    rcases get?_compose_eq_some h with ⟨u, hu, hback⟩ | h
    · obtain ⟨y, rfl, hy⟩ := Ty.eq_var_of_bind_eq_var (by rwa [apply_eq_bind] at hback)
      have hne : y ≠ x := fun heq => hs.proper x (heq ▸ hu)
      have hyw : y ∈ Ty.pairVars (s.apply a) (s.apply b) := by
        by_contra hyw
        rw [hn.confined.outside y hyw] at hy
        exact hne (Ty.var.inj hy)
      obtain ⟨x', -, hmem⟩ := hleft x (hn.confined.inside y hyw x (by simp [hy, Ty.freeOccurrences]))
      have hfixed := hs.settled x' x hmem
      rw [image_of_get?_eq_some hu] at hfixed
      exact hne (Ty.var.inj hfixed)
    · exact hn.proper x h
  · intro x
    rw [image_compose]
    exact isMono_apply hn.mono (hs.mono x)
  · -- What is left of a variable after both steps was brought in by the first step, or stands in
    -- the range of the second, whose variables the first step does not bind.
    intro x z hz
    rw [image_compose, apply_eq_bind] at hz
    obtain ⟨y, hy, hz⟩ := Ty.mem_freeOccurrences_bind hz
    have hfixed : s.image z = .var z := by
      by_cases hyw : y ∈ Ty.pairVars (s.apply a) (s.apply b)
      · obtain ⟨x', -, hmem⟩ := hleft z (hn.confined.inside y hyw z hz)
        exact hs.settled x' z hmem
      · have : z = y := by simpa [hn.confined.outside y hyw, Ty.freeOccurrences] using hz
        exact this ▸ hs.settled x y hy
    rw [image_compose, hfixed, apply_var]
    exact hn.settled y z hz
  · have himage : (s.compose next).image = fun x => (s.image x).bind next.image := by
      funext x
      rw [image_compose, apply_eq_bind]
    rw [himage, unifies_append]
    refine ⟨hs.unifies.bind heqs, unifies_cons.2 ⟨?_, unifies_nil _⟩⟩
    have hlast := (unifies_cons.1 hn.unifies).1
    rwa [apply_eq_bind, apply_eq_bind, Ty.bind_bind _ _ ha, Ty.bind_bind _ _ hb] at hlast
  · intro θ hθ x
    obtain ⟨hold, hnew⟩ := unifies_append.1 hθ
    have hpair : Unifies θ [(s.apply a, s.apply b)] := by
      refine unifies_cons.2 ⟨?_, unifies_nil _⟩
      rw [hs.bind_apply hold ha, hs.bind_apply hold hb]
      exact (unifies_cons.1 hnew).1
    rw [image_compose, apply_eq_bind, Ty.bind_bind _ _ (hs.mono x),
      Ty.bind_congr fun y _ => hn.general θ hpair y]
    exact hs.general θ hold x

end MostGeneral

end Subst

namespace Ty

mutual

/-- What is put for a variable is no larger than the result. -/
theorem size_le_size_bind {θ : Int → Ty} {t : Ty} (h : t.isMono = true) {x : Int}
    (hx : x ∈ t.freeOccurrences) : (θ x).size ≤ (t.bind θ).size := by
  cases t with
  | blank | poly => simp [isMono] at h
  | prim | nat | tag => simp [freeOccurrences] at hx
  | var id =>
      have : x = id := by simpa [freeOccurrences] using hx
      simp [this, bind]
  | data name constructor args =>
      rw [isMono] at h
      have := sizeList_le_sizeList_bindList (θ := θ) h hx
      simp only [bind, size]
      omega
  | fn a b =>
      simp only [isMono, Bool.and_eq_true] at h
      simp only [freeOccurrences, List.mem_append] at hx
      simp only [bind, size]
      rcases hx with hx | hx
      · have := size_le_size_bind (θ := θ) h.1 hx
        omega
      · have := size_le_size_bind (θ := θ) h.2 hx
        omega

theorem sizeList_le_sizeList_bindList {θ : Int → Ty} {ts : List Ty} (h : isMonoList ts = true)
    {x : Int} (hx : x ∈ freeOccurrencesList ts) : (θ x).size ≤ sizeList (bindList θ ts) := by
  match ts with
  | [] => simp [freeOccurrencesList] at hx
  | t :: ts =>
      simp only [isMonoList, Bool.and_eq_true] at h
      simp only [freeOccurrencesList, List.mem_append] at hx
      simp only [bindList, sizeList]
      rcases hx with hx | hx
      · have := size_le_size_bind (θ := θ) h.1 hx
        omega
      · have := sizeList_le_sizeList_bindList (θ := θ) h.2 hx
        omega

end

theorem bind_ne_of_occurs {θ : Int → Ty} {t : Ty} {id : Int} (h : t.isMono = true)
    (hoccurs : t.occurs id = true) (hvar : ∀ x, t ≠ .var x) : (Ty.var id).bind θ ≠ t.bind θ := by
  have hmem := (occurs_iff_mem id t).1 hoccurs
  intro heq
  have hsize : (θ id).size < (t.bind θ).size := by
    cases t with
    | blank | poly => simp [isMono] at h
    | prim | nat | tag => simp [freeOccurrences] at hmem
    | var x => exact absurd rfl (hvar x)
    | data name constructor args =>
        rw [isMono] at h
        have := sizeList_le_sizeList_bindList (θ := θ) h hmem
        simp only [bind, size]
        omega
    | fn a b =>
        simp only [isMono, Bool.and_eq_true] at h
        simp only [freeOccurrences, List.mem_append] at hmem
        simp only [bind, size]
        rcases hmem with hmem | hmem
        · have := size_le_size_bind (θ := θ) h.1 hmem
          omega
        · have := size_le_size_bind (θ := θ) h.2 hmem
          omega
  rw [← heq, bind] at hsize
  exact Nat.lt_irrefl _ hsize

/-- What unification of some equations comes to: a most general solution, or a fault that shows
that there is none. -/
def Decides (vs : List Int) (eqs : List (Ty × Ty)) : Except UnifyError (Unifier vs) → Prop
  | .ok s => s.1.MostGeneral vs eqs
  | .error e => e ≠ .quantified ∧ ∀ θ, ¬Unifies θ eqs

theorem Decides.congr {vs : List Int} {eqs eqs' : List (Ty × Ty)}
    {result : Except UnifyError (Unifier vs)} (h : Decides vs eqs result)
    (heqs : ∀ θ, Unifies θ eqs ↔ Unifies θ eqs') : Decides vs eqs' result := by
  cases result with
  | ok s => exact Subst.MostGeneral.congr h heqs
  | error e => exact ⟨h.1, fun θ hθ => h.2 θ ((heqs θ).2 hθ)⟩

theorem bindVar_decides {vs : List Int} {id : Int} {t : Ty} (hid : id ∈ vs)
    (ht : ∀ y ∈ t.freeOccurrences, y ∈ vs) (hmono : t.isMono = true) :
    Decides vs [(.var id, t)] (bindVar vs id t hid ht) := by
  have hother : (∀ x, t ≠ .var x) → Decides vs [(.var id, t)]
      (if h : t.occurs id = true then .error (.occurs id t)
      else .ok ⟨Subst.singleton id t,
        Subst.confined_singleton hid ht (by simpa using h)⟩) := by
    intro hvar
    split
    · rename_i hoccurs
      refine ⟨by simp, fun θ hθ => ?_⟩
      exact bind_ne_of_occurs hmono hoccurs hvar (unifies_cons.1 hθ).1
    · rename_i hoccurs
      exact Subst.mostGeneral_singleton hid ht hmono (by simpa using hoccurs)
  cases t with
  | var id' =>
      unfold bindVar
      by_cases heq : id' = id
      · subst heq
        simp only [dif_pos]
        refine (Subst.mostGeneral_empty vs).congr fun θ => ?_
        simp [Unifies]
      · simp only [heq, dif_neg, not_false_eq_true]
        exact Subst.mostGeneral_singleton hid ht hmono (by simpa [occurs] using heq)
  | _ => exact hother (by simp)

theorem unifyAtoms_decides {vs : List Int} {a b : Ty} {equal : Bool}
    (hequal : ∀ θ, a.bind θ = b.bind θ ↔ equal = true) :
    Decides vs [(a, b)] (unifyAtoms vs a b equal) := by
  unfold unifyAtoms
  split
  · rename_i h
    refine (Subst.mostGeneral_empty vs).congr fun θ => ?_
    simp [Unifies, hequal θ, h]
  · rename_i h
    refine ⟨by simp, fun θ hθ => h ?_⟩
    exact (hequal θ).1 (unifies_cons.1 hθ).1

theorem decides_mismatch {vs : List Int} {a b : Ty} {e : UnifyError} (he : e ≠ .quantified)
    (h : ∀ θ, a.bind θ ≠ b.bind θ) : Decides vs [(a, b)] (.error e) :=
  ⟨he, fun θ hθ => h θ (unifies_cons.1 hθ).1⟩

theorem unifies_data {θ : Int → Ty} {n c : String} {as bs : List Ty} (h : as.length = bs.length) :
    Unifies θ (as.zip bs) ↔ Unifies θ [(.data n c as, .data n c bs)] := by
  rw [unifies_zip h, unifies_cons]
  simp [bind, unifies_nil]

theorem unifies_fn {θ : Int → Ty} {a₁ a₂ b₁ b₂ : Ty} :
    Unifies θ [(a₁, b₁), (a₂, b₂)] ↔ Unifies θ [(.fn a₁ a₂, .fn b₁ b₂)] := by
  simp [unifies_cons, unifies_nil, bind]

theorem length_bindList (θ : Int → Ty) (ts : List Ty) : (bindList θ ts).length = ts.length := by
  rw [bindList_eq_map, List.length_map]

theorem unifyWithin_decides_both :
    (∀ a b : Ty, a.isMono = true → b.isMono = true →
      Decides (pairVars a b) [(a, b)] (unifyWithin a b)) ∧
    ∀ (vs : List Int) (s : Unifier vs) (as bs : List Ty)
      (has : ∀ x ∈ freeOccurrencesList as, x ∈ vs) (hbs : ∀ x ∈ freeOccurrencesList bs, x ∈ vs),
      isMonoList as = true → isMonoList bs = true → as.length = bs.length →
      ∀ eqs, MonoEquations eqs → s.1.MostGeneral vs eqs →
        Decides vs (eqs ++ as.zip bs) (unifyListWithin vs s as bs has hbs) := by
  refine unifyWithin.mutual_induct
    (fun a b => a.isMono = true → b.isMono = true →
      Decides (pairVars a b) [(a, b)] (unifyWithin a b))
    (fun vs s as bs has hbs => isMonoList as = true → isMonoList bs = true →
      as.length = bs.length → ∀ eqs, MonoEquations eqs → s.1.MostGeneral vs eqs →
        Decides vs (eqs ++ as.zip bs) (unifyListWithin vs s as bs has hbs))
    ?blank ?varLeft ?varRight ?polyLeft ?polyRight ?prim ?nat ?tag ?heads ?lengths ?data
    ?fnDomain ?fnCodomain ?fn ?other ?listError ?listCons ?listEnd
  case blank => simp [isMono]
  case varLeft =>
    intro id b _ hb
    rw [unifyWithin]
    exact bindVar_decides _ _ hb
  case varRight =>
    intro a id hvar ha _
    rw [unifyWithin]
    · refine (bindVar_decides _ _ ha).congr fun θ => ?_
      simp only [unifies_cons, unifies_nil, and_true]
      exact eq_comm
    · exact hvar
  case polyLeft => simp [isMono]
  case polyRight => simp [isMono]
  case prim =>
    intro k k' _ _
    rw [unifyWithin]
    exact unifyAtoms_decides fun θ => by simp [bind]
  case nat =>
    intro n n' _ _
    rw [unifyWithin]
    exact unifyAtoms_decides fun θ => by simp [bind]
  case tag =>
    intro t t' _ _
    rw [unifyWithin]
    exact unifyAtoms_decides fun θ => by simp [bind]
  case heads =>
    intro n c as n' c' bs hne _ _
    rw [unifyWithin, if_pos hne]
    refine decides_mismatch (by simp) fun θ heq => ?_
    simp only [bind, data.injEq] at heq
    rcases hne with hne | hne
    · exact hne heq.1
    · exact hne heq.2.1
  case lengths =>
    intro n c as n' c' bs heads hlen _ _
    rw [unifyWithin, if_neg heads, if_pos hlen]
    refine decides_mismatch (by simp) fun θ heq => hlen ?_
    simp only [bind, data.injEq] at heq
    rw [← length_bindList θ as, heq.2.2, length_bindList]
  case data =>
    intro n c as n' c' bs heads hlen ih ha hb
    rw [unifyWithin, if_neg heads, if_neg hlen]
    have hlen : as.length = bs.length := Decidable.of_not_not hlen
    obtain ⟨rfl, rfl⟩ : n = n' ∧ c = c' := by
      simpa [not_or] using heads
    refine (ih ha hb hlen [] (by simp [MonoEquations]) (Subst.mostGeneral_empty _)).congr
      fun θ => ?_
    rw [List.nil_append]
    exact unifies_data hlen
  case fnDomain =>
    intro a₁ a₂ b₁ b₂ e he ih ha hb
    simp only [isMono, Bool.and_eq_true] at ha hb
    have h := ih ha.1 hb.1
    rw [unifyWithin, he]
    rw [he] at h
    refine ⟨h.1, fun θ hθ => h.2 θ ?_⟩
    have := unifies_fn.2 hθ
    exact unifies_cons.2 ⟨(unifies_cons.1 this).1, unifies_nil θ⟩
  case fnCodomain =>
    intro a₁ a₂ b₁ b₂ s₁ hs₁ _ e he ih₁ ih₂ ha hb
    simp only [isMono, Bool.and_eq_true] at ha hb
    have h₁ := ih₁ ha.1 hb.1
    rw [hs₁] at h₁
    have h₂ := ih₂ (Subst.isMono_apply h₁.mono ha.2) (Subst.isMono_apply h₁.mono hb.2)
    rw [he] at h₂
    simp only [unifyWithin, hs₁, he]
    refine ⟨h₂.1, fun θ hθ => h₂.2 θ ?_⟩
    obtain ⟨hdomain, hcodomain⟩ := unifies_cons.1 (unifies_fn.2 hθ)
    have hθ₁ : Unifies θ [(a₁, b₁)] := unifies_cons.2 ⟨hdomain, unifies_nil θ⟩
    refine unifies_cons.2 ⟨?_, unifies_nil θ⟩
    rw [h₁.bind_apply hθ₁ ha.2, h₁.bind_apply hθ₁ hb.2]
    exact (unifies_cons.1 hcodomain).1
  case fn =>
    intro a₁ a₂ b₁ b₂ s₁ hs₁ _ s₂ hs₂ ih₁ ih₂ ha hb
    simp only [isMono, Bool.and_eq_true] at ha hb
    have h₁ := ih₁ ha.1 hb.1
    rw [hs₁] at h₁
    have h₂ := ih₂ (Subst.isMono_apply h₁.mono ha.2) (Subst.isMono_apply h₁.mono hb.2)
    rw [hs₂] at h₂
    simp only [unifyWithin, hs₁, hs₂]
    have hwide : s₁.1.MostGeneral (pairVars (.fn a₁ a₂) (.fn b₁ b₂)) [(a₁, b₁)] := by
      refine h₁.mono_vars fun x hx => ?_
      simp only [pairVars, freeOccurrences, List.mem_append] at hx ⊢
      rcases hx with hx | hx
      · exact .inl (.inl hx)
      · exact .inr (.inl hx)
    have hboth := hwide.compose (by simp [MonoEquations, ha.1, hb.1]) ha.2 hb.2
      (by simp +contextual [pairVars, freeOccurrences, or_imp]) h₂
    exact hboth.congr fun θ => unifies_fn
  case other =>
    intro a b hblank hvar hvar' hpoly hpoly' hprim hnat htag hdata hfn ha hb
    rw [unifyWithin]
    · refine decides_mismatch (by simp) fun θ heq => ?_
      cases a with
      | data n c as =>
          cases b with
          | data n' c' bs => exact hdata n c as n' c' bs rfl rfl
          | _ => simp_all [bind, isMono]
      | fn a₁ a₂ =>
          cases b with
          | fn b₁ b₂ => exact hfn a₁ a₂ b₁ b₂ rfl rfl
          | _ => simp_all [bind, isMono]
      | _ => cases b <;> simp_all [bind, isMono]
    all_goals assumption
  case listError =>
    intro vs s a as b bs has hbs ha hb e he _ _ ih hmono hmono' hlen eqs heqs hs
    simp only [isMonoList, Bool.and_eq_true] at hmono hmono'
    have h := ih (Subst.isMono_apply hs.mono hmono.1) (Subst.isMono_apply hs.mono hmono'.1)
    rw [he] at h
    simp only [unifyListWithin, he]
    refine ⟨h.1, fun θ hθ => h.2 θ ?_⟩
    rw [List.zip_cons_cons] at hθ
    obtain ⟨hold, hnew⟩ := unifies_append.1 hθ
    refine unifies_cons.2 ⟨?_, unifies_nil θ⟩
    rw [hs.bind_apply hold hmono.1, hs.bind_apply hold hmono'.1]
    exact (unifies_cons.1 hnew).1
  case listCons =>
    intro vs s a as b bs has hbs ha hb next hnext _ _ ih ihs hmono hmono' hlen eqs heqs hs
    simp only [isMonoList, Bool.and_eq_true] at hmono hmono'
    have h := ih (Subst.isMono_apply hs.mono hmono.1) (Subst.isMono_apply hs.mono hmono'.1)
    rw [hnext] at h
    simp only [unifyListWithin, hnext]
    have hboth := hs.compose heqs hmono.1 hmono'.1
      (by simp +contextual [pairVars, or_imp, ha, hb]) h
    have hmonoBoth : MonoEquations (eqs ++ [(a, b)]) := by
      intro p hp
      rcases List.mem_append.1 hp with hp | hp
      · exact heqs p hp
      · rw [List.mem_singleton] at hp
        exact hp ▸ ⟨hmono.1, hmono'.1⟩
    refine (ihs hmono.2 hmono'.2 (by simpa using hlen) _ hmonoBoth hboth).congr fun θ => ?_
    rw [List.append_assoc, List.singleton_append, List.zip_cons_cons]
  case listEnd =>
    intro vs s as bs has hbs _ _ hends hmono hmono' hlen eqs heqs hs
    cases as with
    | nil =>
        cases bs with
        | nil =>
            rw [unifyListWithin]
            · simpa [Decides] using hs
            · simp
        | cons b bs => simp at hlen
    | cons a as =>
        cases bs with
        | nil => simp at hlen
        | cons b bs => exact (hends a as b bs has hbs rfl rfl HEq.rfl HEq.rfl).elim

theorem unifyWithin_decides {a b : Ty} (ha : a.isMono = true) (hb : b.isMono = true) :
    Decides (pairVars a b) [(a, b)] (unifyWithin a b) :=
  unifyWithin_decides_both.1 a b ha hb

theorem unify_mostGeneral {a b : Ty} {s : Subst} (ha : a.isMono = true) (hb : b.isMono = true)
    (h : unify a b = .ok s) : s.MostGeneral (pairVars a b) [(a, b)] := by
  have hdecides := unifyWithin_decides ha hb
  unfold unify at h
  cases hresult : unifyWithin a b with
  | error e => simp [hresult, Except.map] at h
  | ok s' =>
      simp only [hresult, Except.map, Except.ok.injEq] at h
      rw [hresult] at hdecides
      exact h ▸ hdecides

theorem unifyList_mostGeneral {as bs : List Ty} {s : Subst} (has : isMonoList as = true)
    (hbs : isMonoList bs = true) (hlength : as.length = bs.length) (h : unifyList as bs = .ok s) :
    s.MostGeneral (freeOccurrencesList as ++ freeOccurrencesList bs) (as.zip bs) := by
  have hdecides := unifyWithin_decides_both.2 _ ⟨∅, Subst.confined_empty _⟩ as bs
    (by simp +contextual) (by simp +contextual) has hbs hlength [] (by simp [MonoEquations])
    (Subst.mostGeneral_empty (freeOccurrencesList as ++ freeOccurrencesList bs))
  unfold unifyList at h
  generalize unifyListWithin _ _ as bs _ _ = result at h hdecides
  cases result with
  | error e => simp [Except.map] at h
  | ok s' =>
      simp only [Except.map, Except.ok.injEq] at h
      exact h ▸ hdecides

theorem ne_quantified_of_unify {a b : Ty} {e : UnifyError} (ha : a.isMono = true)
    (hb : b.isMono = true) (h : unify a b = .error e) : e ≠ .quantified := by
  have hdecides := unifyWithin_decides ha hb
  unfold unify at h
  cases hresult : unifyWithin a b with
  | error e' =>
      simp only [hresult, Except.map, Except.error.injEq] at h
      rw [hresult] at hdecides
      exact h ▸ hdecides.1
  | ok s => simp [hresult, Except.map] at h

theorem exists_unify_eq_ok {a b : Ty} {θ : Int → Ty} (ha : a.isMono = true) (hb : b.isMono = true)
    (h : a.bind θ = b.bind θ) : ∃ s, unify a b = .ok s := by
  have hdecides := unifyWithin_decides ha hb
  unfold unify
  cases hresult : unifyWithin a b with
  | error e =>
      rw [hresult] at hdecides
      exact absurd (unifies_cons.2 ⟨h, unifies_nil θ⟩) (hdecides.2 θ)
  | ok s => exact ⟨s.1, rfl⟩

theorem exists_unifyList_eq_ok {as bs : List Ty} {θ : Int → Ty} (has : isMonoList as = true)
    (hbs : isMonoList bs = true) (h : as.map (·.bind θ) = bs.map (·.bind θ)) :
    ∃ s, unifyList as bs = .ok s := by
  have hlength : as.length = bs.length := by
    simpa using congrArg List.length h
  have hdecides := unifyWithin_decides_both.2 _ ⟨∅, Subst.confined_empty _⟩ as bs
    (by simp +contextual) (by simp +contextual) has hbs hlength [] (by simp [MonoEquations])
    (Subst.mostGeneral_empty (freeOccurrencesList as ++ freeOccurrencesList bs))
  unfold unifyList
  generalize unifyListWithin _ _ as bs _ _ = result at hdecides ⊢
  cases result with
  | error e =>
      refine absurd ?_ (hdecides.2 θ)
      rwa [List.nil_append, unifies_zip hlength, bindList_eq_map, bindList_eq_map]
  | ok s => exact ⟨s.1, rfl⟩

end Ty

end Formulary
