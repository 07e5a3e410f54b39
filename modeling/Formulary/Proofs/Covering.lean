import Formulary.Proofs.Alike

namespace Formulary

namespace Pattern

theorem subsumes_refl (p : Pattern) : p.subsumes p = true := subsumes_iff_accepts.2 fun _ => id

theorem subsumes_trans {p q s : Pattern} (hpq : p.subsumes q = true) (hqs : q.subsumes s = true) :
    p.subsumes s = true :=
  subsumes_iff_accepts.2 fun value h =>
    subsumes_iff_accepts.1 hpq value (subsumes_iff_accepts.1 hqs value h)

theorem isIrrefutable_of_subsumes {p q : Pattern} (h : p.subsumes q = true)
    (hq : q.isIrrefutable = true) : p.isIrrefutable = true := by
  cases q with
  | const | constructor => cases hq
  | wildcard | var => cases p <;> first | rfl | cases h

theorem subsumesList_fit_nil (n : Nat) (ps : List Pattern) :
    subsumesList (fit n []) (fit n ps) = true := by
  induction n generalizing ps with
  | zero => rfl
  | succ n ih => cases ps <;> simp [fit, subsumesList, subsumes, ih]

theorem subsumesList_fit {qs ps : List Pattern} (h : subsumesList qs ps = true) (n : Nat) :
    subsumesList (fit n qs) (fit n ps) = true := by
  induction n generalizing qs ps with
  | zero => rfl
  | succ n ih =>
      match qs, ps with
      | [], [] => exact subsumesList_fit_nil (n + 1) []
      | q :: qs, p :: ps =>
          rw [subsumesList, Bool.and_eq_true] at h
          rw [fit, fit, subsumesList, h.1, ih h.2]
          rfl
      | [], _ :: _ | _ :: _, [] => cases h

/-- A column of two matrices that are compared: both have it, with types that are alike, or only one
of them has it, and nothing is asked of it. -/
inductive Lane where
  | shared (p : Pattern) (t t' : Ty)
  | lower (t : Ty)
  | upper (t' : Ty)

namespace Lane

def lower? : Lane → Option (Pattern × Ty)
  | .shared p t _ => some (p, t)
  | .lower t => some (.wildcard, t)
  | .upper _ => none

def upper? : Lane → Option (Pattern × Ty)
  | .shared p _ t' => some (p, t')
  | .lower _ => none
  | .upper t' => some (.wildcard, t')

/-- The types of a shared column are alike, and their variables have been handed out before. -/
def Fits (n n' : Int) : Lane → Prop
  | .shared _ t t' => t.Alike t' ∧ t.NumberedBelow n ∧ t'.NumberedBelow n'
  | .lower _ | .upper _ => True

theorem Fits.mono {m m' n n' : Int} {l : Lane} (h : l.Fits m m') (hle : m ≤ n) (hle' : m' ≤ n') :
    l.Fits n n' := by
  cases l with
  | shared p t t' => exact ⟨h.1, h.2.1.mono hle, h.2.2.mono hle'⟩
  | lower | upper => trivial

end Lane

def lowerQuery (lanes : List Lane) : Query := lanes.filterMap Lane.lower?

def upperQuery (lanes : List Lane) : Query := lanes.filterMap Lane.upper?

/-- The columns for the fields of a constructor, in a shared column. -/
def sharedLanes : List Pattern → List Ty → List Ty → List Lane
  | p :: ps, t :: ts, t' :: ts' => .shared p t t' :: sharedLanes ps ts ts'
  | _, _, _ => []

theorem lowerQuery_append (lanes others : List Lane) :
    lowerQuery (lanes ++ others) = lowerQuery lanes ++ lowerQuery others := List.filterMap_append

theorem upperQuery_append (lanes others : List Lane) :
    upperQuery (lanes ++ others) = upperQuery lanes ++ upperQuery others := List.filterMap_append

theorem lowerQuery_sharedLanes {ps : List Pattern} {ts ts' : List Ty} (h : ts.length = ts'.length) :
    lowerQuery (sharedLanes ps ts ts') = ps.zip ts := by
  induction ps generalizing ts ts' with
  | nil => rfl
  | cons p ps ih =>
      match ts, ts' with
      | [], [] => rfl
      | t :: ts, t' :: ts' => exact congrArg (_ :: ·) (ih (Nat.succ.inj h))

theorem upperQuery_sharedLanes {ps : List Pattern} {ts ts' : List Ty} (h : ts.length = ts'.length) :
    upperQuery (sharedLanes ps ts ts') = ps.zip ts' := by
  induction ps generalizing ts ts' with
  | nil => rfl
  | cons p ps ih =>
      match ts, ts' with
      | [], [] => rfl
      | t :: ts, t' :: ts' => exact congrArg (_ :: ·) (ih (Nat.succ.inj h))

theorem zip_fit_nil (ts : List Ty) : (fit ts.length []).zip ts = ts.map (.wildcard, ·) := by
  induction ts with
  | nil => rfl
  | cons t ts ih => exact congrArg (_ :: ·) ih

theorem lowerQuery_lower (ts : List Ty) : lowerQuery (ts.map .lower) = columns [] ts := by
  rw [columns, zip_fit_nil, lowerQuery, List.filterMap_map]
  exact congrFun List.filterMap_eq_map ts

theorem upperQuery_upper (ts : List Ty) : upperQuery (ts.map .upper) = columns [] ts := by
  rw [columns, zip_fit_nil, upperQuery, List.filterMap_map]
  exact congrFun List.filterMap_eq_map ts

theorem lowerQuery_upper (ts : List Ty) : lowerQuery (ts.map .upper) = [] := by
  rw [lowerQuery, List.filterMap_map]
  exact List.filterMap_eq_nil_iff.2 fun _ _ => rfl

theorem upperQuery_lower (ts : List Ty) : upperQuery (ts.map .lower) = [] := by
  rw [upperQuery, List.filterMap_map]
  exact List.filterMap_eq_nil_iff.2 fun _ _ => rfl

/-- A row covers another, as far as the columns go that both have. In a column of its own it matches
everything. -/
inductive Covers : List Lane → Row → Row → Prop
  | nil : Covers [] [] []
  | shared {lanes : List Lane} {p q₁ q₂ : Pattern} {t t' : Ty} {b a : Row}
      (hhead : q₁.subsumes q₂ = true) (hrest : Covers lanes b a) :
      Covers (.shared p t t' :: lanes) (q₁ :: b) (q₂ :: a)
  | lower {lanes : List Lane} {q : Pattern} {t : Ty} {b a : Row} (hrest : Covers lanes b a) :
      Covers (.lower t :: lanes) b (q :: a)
  | upper {lanes : List Lane} {q : Pattern} {t : Ty} {b a : Row} (hhead : q.isIrrefutable = true)
      (hrest : Covers lanes b a) : Covers (.upper t :: lanes) (q :: b) a

namespace Covers

variable {lanes : List Lane} {a a' b : Row} {name : String}

theorem append_shared {args qs ps : List Pattern} {ts ts' : List Ty} (hlength : ts.length = ts'.length)
    (hargs : args.length = ts.length) (hps : ps.length = ts.length)
    (hsubsumes : subsumesList qs ps = true) (h : Covers lanes b a) :
    Covers (sharedLanes args ts ts' ++ lanes) (qs ++ b) (ps ++ a) := by
  induction args generalizing qs ps ts ts' with
  | nil =>
      obtain rfl : ts = [] := List.eq_nil_of_length_eq_zero hargs.symm
      obtain rfl : ps = [] := List.eq_nil_of_length_eq_zero hps
      cases qs with
      | nil => exact h
      | cons => cases hsubsumes
  | cons arg args ih =>
      match ts, ts', ps, qs with
      | t :: ts, t' :: ts', p :: ps, q :: qs =>
          rw [subsumesList, Bool.and_eq_true] at hsubsumes
          exact .shared hsubsumes.1
            (ih (Nat.succ.inj hlength) (Nat.succ.inj hargs) (Nat.succ.inj hps) hsubsumes.2)
      | _ :: _, _ :: _, _ :: _, [] => cases hsubsumes

theorem append_lower {ps : List Pattern} {ts : List Ty} (hps : ps.length = ts.length)
    (h : Covers lanes b a) : Covers (ts.map .lower ++ lanes) b (ps ++ a) := by
  induction ts generalizing ps with
  | nil =>
      obtain rfl : ps = [] := List.eq_nil_of_length_eq_zero hps
      exact h
  | cons t ts ih =>
      match ps with
      | p :: ps => exact .lower (ih (Nat.succ.inj hps))

theorem append_upper (ts : List Ty) (h : Covers lanes b a) :
    Covers (ts.map .upper ++ lanes) (fit ts.length [] ++ b) a := by
  induction ts with
  | nil => exact h
  | cons t ts ih => exact .upper rfl ih

theorem specialize {p : Pattern} {t t' : Ty} {args : List Pattern} {ts ts' : List Ty}
    (hlength : ts.length = ts'.length) (h : Covers (.shared p t t' :: lanes) b a)
    (ha : specializeRow name ts.length a = some a') :
    ∃ b', specializeRow name ts'.length b = some b' ∧
      Covers (sharedLanes (fit ts.length args) ts ts' ++ lanes) b' a' := by
  cases h with
  | @shared _ _ q₁ q₂ _ _ b a hhead hrest =>
      rw [← hlength]
      have happend : ∀ {qs ps : List Pattern}, ps.length = ts.length → subsumesList qs ps = true →
          Covers (sharedLanes (fit ts.length args) ts ts' ++ lanes) (qs ++ b) (ps ++ a) :=
        fun hps hsubsumes => append_shared hlength (length_fit _ _) hps hsubsumes hrest
      match q₁, q₂ with
      | .wildcard, q₂ | .var _, q₂ =>
          refine ⟨_, rfl, ?_⟩
          cases q₂ with
          | wildcard | var =>
              cases ha
              exact happend (length_fit _ _) (subsumesList_fit_nil _ [])
          | constructor other ps =>
              rw [specializeRow] at ha
              split at ha
              · cases ha
                exact happend (length_fit _ _) (subsumesList_fit_nil _ ps)
              · cases ha
          | const => cases ha
      | .constructor other qs, .constructor other' ps =>
          simp only [subsumes, Bool.and_eq_true, decide_eq_true_eq] at hhead
          obtain ⟨rfl, hargs⟩ := hhead
          rw [specializeRow] at ha ⊢
          split at ha
          · rename_i hname
            cases ha
            exact ⟨_, if_pos hname, happend (length_fit _ _) (subsumesList_fit hargs _)⟩
          · cases ha
      | .const _, .const _ => cases ha
      | .const _, .wildcard | .const _, .var _ | .const _, .constructor _ _ => cases hhead
      | .constructor _ _, .wildcard | .constructor _ _, .var _ | .constructor _ _, .const _ =>
          cases hhead

theorem specializeConst {p : Pattern} {t t' : Ty} {literal : String}
    (h : Covers (.shared p t t' :: lanes) b a) (ha : specializeConst literal a = some a') :
    ∃ b', Pattern.specializeConst literal b = some b' ∧ Covers lanes b' a' := by
  cases h with
  | @shared _ _ q₁ q₂ _ _ b a hhead hrest =>
      match q₁, q₂ with
      | .wildcard, q₂ | .var _, q₂ =>
          refine ⟨b, rfl, ?_⟩
          cases q₂ with
          | wildcard | var =>
              cases ha
              exact hrest
          | const value =>
              rw [Pattern.specializeConst] at ha
              split at ha
              · cases ha
                exact hrest
              · cases ha
          | constructor => cases ha
      | .const value, .const value' =>
          obtain rfl : value = value' := of_decide_eq_true hhead
          rw [Pattern.specializeConst] at ha ⊢
          split at ha
          · rename_i hvalue
            cases ha
            exact ⟨b, if_pos hvalue, hrest⟩
          · cases ha
      | .constructor _ _, .constructor _ _ => cases ha
      | .const _, .wildcard | .const _, .var _ | .const _, .constructor _ _ => cases hhead
      | .constructor _ _, .wildcard | .constructor _ _, .var _ | .constructor _ _, .const _ =>
          cases hhead

theorem exists_of_defaultRow (ha : defaultRow a = some a') :
    ∃ q : Pattern, q.isIrrefutable = true ∧ a = q :: a' := by
  match a with
  | .wildcard :: rest | .var _ :: rest =>
      cases ha
      exact ⟨_, rfl, rfl⟩
  | .const _ :: _ | .constructor _ _ :: _ | [] => cases ha

theorem defaultRow_of_isIrrefutable {q : Pattern} (hq : q.isIrrefutable = true) (rest : Row) :
    defaultRow (q :: rest) = some rest := by
  cases q with
  | wildcard | var => rfl
  | const | constructor => cases hq

theorem specializeRow_of_isIrrefutable {q : Pattern} (hq : q.isIrrefutable = true) (n : Nat)
    (rest : Row) : specializeRow name n (q :: rest) = some (fit n [] ++ rest) := by
  cases q with
  | wildcard | var => rfl
  | const | constructor => cases hq

theorem exists_of_specializeRow {n : Nat} (ha : specializeRow name n a = some a') :
    ∃ (q : Pattern) (ps : List Pattern) (rest : Row), a = q :: rest ∧ ps.length = n ∧
      a' = ps ++ rest ∧ (q.isIrrefutable = true ∨ headConstructor? a = some name) := by
  match a with
  | .wildcard :: rest | .var _ :: rest =>
      cases ha
      exact ⟨_, _, rest, rfl, length_fit _ _, rfl, .inl rfl⟩
  | .constructor other args :: rest =>
      rw [specializeRow] at ha
      split at ha
      · rename_i hname
        cases ha
        exact ⟨_, _, rest, rfl, length_fit _ _, rfl, .inr (congrArg some hname)⟩
      · cases ha
  | .const _ :: _ | [] => cases ha

theorem default {p : Pattern} {t t' : Ty} (h : Covers (.shared p t t' :: lanes) b a)
    (ha : defaultRow a = some a') : ∃ b', defaultRow b = some b' ∧ Covers lanes b' a' := by
  obtain ⟨q, hq, rfl⟩ := exists_of_defaultRow ha
  cases h with
  | shared hhead hrest =>
      exact ⟨_, defaultRow_of_isIrrefutable (isIrrefutable_of_subsumes hhead hq) _, hrest⟩

theorem default_specialize {p : Pattern} {t t' : Ty} (ts : List Ty)
    (h : Covers (.shared p t t' :: lanes) b a) (ha : defaultRow a = some a') :
    ∃ b', specializeRow name ts.length b = some b' ∧ Covers (ts.map .upper ++ lanes) b' a' := by
  obtain ⟨q, hq, rfl⟩ := exists_of_defaultRow ha
  cases h with
  | shared hhead hrest =>
      exact ⟨_, specializeRow_of_isIrrefutable (isIrrefutable_of_subsumes hhead hq) _ _,
        hrest.append_upper ts⟩

theorem specialize_default {p : Pattern} {t t' : Ty} {ts : List Ty}
    (h : Covers (.shared p t t' :: lanes) b a) (hb : headConstructor? b ≠ some name)
    (ha : specializeRow name ts.length a = some a') :
    ∃ b', defaultRow b = some b' ∧ Covers (ts.map .lower ++ lanes) b' a' := by
  obtain ⟨q, ps, rest, rfl, hlength, rfl, hq⟩ := exists_of_specializeRow ha
  cases h with
  | @shared _ _ q₁ _ _ _ b _ hhead hrest =>
      refine ⟨b, defaultRow_of_isIrrefutable ?_ b, hrest.append_lower hlength⟩
      rcases hq with hq | hq
      · exact isIrrefutable_of_subsumes hhead hq
      · cases q with
        | constructor other args =>
            obtain rfl : other = name := Option.some.inj hq
            match q₁ with
            | .wildcard | .var _ => rfl
            | .constructor other' qs =>
                rw [subsumes, Bool.and_eq_true, decide_eq_true_eq] at hhead
                exact (hb (congrArg some hhead.1)).elim
            | .const _ => cases hhead
        | wildcard | var | const => cases hq

theorem specialize_lower {t : Ty} {ts : List Ty} (h : Covers (.lower t :: lanes) b a)
    (ha : specializeRow name ts.length a = some a') : Covers (ts.map .lower ++ lanes) b a' := by
  obtain ⟨q, ps, rest, rfl, hlength, rfl, -⟩ := exists_of_specializeRow ha
  cases h with
  | lower hrest => exact hrest.append_lower hlength

theorem default_lower {t : Ty} (h : Covers (.lower t :: lanes) b a) (ha : defaultRow a = some a') :
    Covers lanes b a' := by
  obtain ⟨q, -, rfl⟩ := exists_of_defaultRow ha
  cases h with
  | lower hrest => exact hrest

theorem specialize_upper {t : Ty} (name : String) (ts : List Ty) (h : Covers (.upper t :: lanes) b a) :
    ∃ b', specializeRow name ts.length b = some b' ∧ Covers (ts.map .upper ++ lanes) b' a := by
  cases h with
  | upper hhead hrest =>
      exact ⟨_, specializeRow_of_isIrrefutable hhead _ _, hrest.append_upper ts⟩

theorem default_upper {t : Ty} (h : Covers (.upper t :: lanes) b a) :
    ∃ b', defaultRow b = some b' ∧ Covers lanes b' a := by
  cases h with
  | upper hhead hrest => exact ⟨_, defaultRow_of_isIrrefutable hhead _, hrest⟩

end Covers

/-- Every row of a matrix is covered by a row of another. -/
def CoversAll (lanes : List Lane) (upper lower : List Row) : Prop :=
  ∀ a ∈ lower, ∃ b ∈ upper, Covers lanes b a

/-- What is done to the rows of both matrices, row by row. -/
theorem CoversAll.filterMap {lanes lanes' : List Lane} {upper lower : List Row}
    {f g : Row → Option Row} (h : CoversAll lanes upper lower)
    (hstep : ∀ a a', ∀ b ∈ upper, Covers lanes b a → f a = some a' →
      ∃ b', g b = some b' ∧ Covers lanes' b' a') :
    CoversAll lanes' (upper.filterMap g) (lower.filterMap f) := by
  intro a' ha'
  obtain ⟨a, ha, hf⟩ := List.mem_filterMap.1 ha'
  obtain ⟨b, hb, hcovers⟩ := h a ha
  obtain ⟨b', hg, hcovers'⟩ := hstep a a' b hb hcovers hf
  exact ⟨b', List.mem_filterMap.2 ⟨b, hb, hg⟩, hcovers'⟩

theorem exists_of_not_covers {rows : List Row} {constructors : List String}
    (hsome : constructors ≠ []) (h : ¬covers rows constructors = true) :
    ∃ name ∈ constructors, ∀ row ∈ rows, headConstructor? row ≠ some name := by
  have hempty : constructors.isEmpty = false := List.isEmpty_eq_false_iff.2 hsome
  simp only [covers, hempty, Bool.not_false, Bool.true_and, List.all_eq_true, decide_eq_true_eq,
    List.mem_filterMap, not_forall] at h
  obtain ⟨name, hname, hnone⟩ := h
  exact ⟨name, hname, fun row hrow hhead => hnone ⟨row, hrow, hhead⟩⟩

theorem ne_nil_of_covers {rows : List Row} {constructors : List String}
    (h : covers rows constructors = true) : constructors ≠ [] := by
  rintro rfl
  cases h

variable {r : DataTypes}

theorem useful_of_isIrrefutable {p : Pattern} (hp : p.isIrrefutable = true) (rows : List Row) (t : Ty)
    (rest : Query) :
    useful r rows ((p, t) :: rest) =
      if covers rows (constructorsOf r t) then
        (constructorsOf r t).anyM fun name => do
          let fields ← fieldTypes r name t
          useful r (specialize name fields.length rows) (columns [] fields ++ rest)
      else useful r (defaultRows rows) rest := by
  cases p with
  | wildcard | var =>
      rw [useful]
      rfl
  | const | constructor => cases hp

theorem unwrapped_of_useful {rows : List Row} {q : Query} {answer : Bool} {u u' : Supply}
    (hrun : (useful r rows q).run u = (answer, u')) (hu : u'.Unwrapped) : u.Unwrapped := by
  have hgrows := useful_grows r rows q u
  rw [hrun] at hgrows
  exact hu.of_le hgrows

theorem next_le_next_of_fieldTypes {name : String} {t : Ty} {u u' : Supply} {ts : List Ty}
    (hrun : (fieldTypes r name t).run u = (ts, u')) (hu : u'.Unwrapped) : u.next ≤ u'.next := by
  have hgrows := fieldTypes_grows r name t u
  rw [hrun] at hgrows
  exact hu.next_le_next hgrows

/-- What is found out about the fields of a constructor in a column of which nothing is asked, with
variables that are not below a number. -/
def FindsOut (r : DataTypes) (rows : List Row) (t : Ty) (rest : Query) (n : Int) (answer : Bool)
    (name : String) : Prop :=
  ∃ (ts : List Ty) (u u₁ u₂ : Supply), n ≤ u.next ∧ (fieldTypes r name t).run u = (ts, u₁) ∧
    (useful r (specialize name ts.length rows) (columns [] ts ++ rest)).run u₁ = (answer, u₂) ∧
    u₂.Unwrapped

theorem findsOut_of_run {rows : List Row} {t : Ty} {rest : Query} {name : String} {answer : Bool}
    {u u₁ u₂ : Supply} (hle : u ≤ u₁)
    (hrun : (do
      let fields ← fieldTypes r name t
      useful r (specialize name fields.length rows) (columns [] fields ++ rest) :
        StateM Supply Bool).run u₁ = (answer, u₂)) (hu : u₂.Unwrapped) :
    FindsOut r rows t rest u.next answer name := by
  rw [StateT.run_bind] at hrun
  cases hfields : (fieldTypes r name t).run u₁ with
  | mk ts s =>
      rw [hfields] at hrun
      have hgrows := fieldTypes_grows r name t u₁
      rw [hfields] at hgrows
      have hu₁ := (unwrapped_of_useful hrun hu).of_le hgrows
      exact ⟨ts, u₁, s, u₂, hu₁.next_le_next hle, hfields, hrun, hu⟩

theorem useful_true_cases {p : Pattern} (hp : p.isIrrefutable = true) {rows : List Row} {t : Ty}
    {rest : Query} {u u' : Supply} (hrun : (useful r rows ((p, t) :: rest)).run u = (true, u'))
    (hu : u'.Unwrapped) :
    (covers rows (constructorsOf r t) = true ∧
      ∃ name ∈ constructorsOf r t, FindsOut r rows t rest u.next true name) ∨
    (¬covers rows (constructorsOf r t) = true ∧
      (useful r (defaultRows rows) rest).run u = (true, u')) := by
  rw [useful_of_isIrrefutable hp] at hrun
  split at hrun
  · rename_i hcovers
    obtain ⟨name, hname, u₁, hle, hrun⟩ := run_anyM_eq_true (fun name =>
      (fieldTypes_grows r name t).bind fun _ => useful_grows r _ _) hrun
    exact .inl ⟨hcovers, name, hname, findsOut_of_run hle hrun hu⟩
  · rename_i hcovers
    exact .inr ⟨hcovers, hrun⟩

theorem useful_false_cases {p : Pattern} (hp : p.isIrrefutable = true) {rows : List Row} {t : Ty}
    {rest : Query} {u u' : Supply} (hrun : (useful r rows ((p, t) :: rest)).run u = (false, u'))
    (hu : u'.Unwrapped) :
    (covers rows (constructorsOf r t) = true ∧
      ∀ name ∈ constructorsOf r t, FindsOut r rows t rest u.next false name) ∨
    (¬covers rows (constructorsOf r t) = true ∧
      (useful r (defaultRows rows) rest).run u = (false, u')) := by
  rw [useful_of_isIrrefutable hp] at hrun
  split at hrun
  · rename_i hcovers
    refine .inl ⟨hcovers, fun name hname => ?_⟩
    obtain ⟨u₁, u₂, hle, hrun, hle'⟩ := run_anyM_eq_false (fun name =>
      (fieldTypes_grows r name t).bind fun _ => useful_grows r _ _) hrun hname
    exact findsOut_of_run hle hrun (hu.of_le hle')
  · rename_i hcovers
    exact .inr ⟨hcovers, hrun⟩

/-- If the query is useful for the upper matrix, it is useful for the lower one. -/
def Follows (r : DataTypes) (lanes : List Lane) (upper lower : List Row) : Prop :=
  ∀ u u' u₁ u₁' : Supply, (∀ l ∈ lanes, l.Fits u.next u'.next) →
    (useful r lower (lowerQuery lanes)).run u = (false, u₁) →
    (useful r upper (upperQuery lanes)).run u' = (true, u₁') → u₁.Unwrapped → u₁'.Unwrapped → False

theorem fits_sharedLanes {p : Pattern} {t t' : Ty} {name : String} {u u' u₁ u₁' : Supply}
    {ts ts' : List Ty} (hfits : (Lane.shared p t t').Fits u.next u'.next)
    (hrun : (fieldTypes r name t).run u = (ts, u₁))
    (hrun' : (fieldTypes r name t').run u' = (ts', u₁')) (hu : u₁.Unwrapped) (hu' : u₁'.Unwrapped)
    (args : List Pattern) :
    ts.length = ts'.length ∧ ∀ l ∈ sharedLanes args ts ts', l.Fits u₁.next u₁'.next := by
  obtain ⟨halike, ht, ht'⟩ := hfits
  have hall := fieldTypes_alike halike ht ht' hrun hrun' hu hu'
  have hbelow := fieldTypes_numberedBelow ht hrun hu
  have hbelow' := fieldTypes_numberedBelow ht' hrun' hu'
  refine ⟨hall.length_eq, ?_⟩
  clear hrun hrun'
  induction hall generalizing args with
  | nil => cases args <;> exact fun _ h => absurd h List.not_mem_nil
  | cons h _ ih =>
      rw [List.forall_mem_cons] at hbelow hbelow'
      cases args with
      | nil => exact fun _ h => absurd h List.not_mem_nil
      | cons arg args =>
          rw [sharedLanes, List.forall_mem_cons]
          exact ⟨⟨h, hbelow.1, hbelow'.1⟩, ih args hbelow.2 hbelow'.2⟩

section Steps

variable {lanes : List Lane} {upper lower : List Row} {p : Pattern} {t t' : Ty}

theorem false_of_fields {name : String} {args : List Pattern} {ts ts' : List Ty}
    {u u' u₁ u₁' u₂ u₂' : Supply}
    (hfollows : ts.length = ts'.length → Follows r (sharedLanes (fit ts.length args) ts ts' ++ lanes)
      (specialize name ts'.length upper) (specialize name ts.length lower))
    (hfits : ∀ l ∈ Lane.shared p t t' :: lanes, l.Fits u.next u'.next)
    (hfields : (fieldTypes r name t).run u = (ts, u₁))
    (hfields' : (fieldTypes r name t').run u' = (ts', u₁'))
    (hrun : (useful r (specialize name ts.length lower)
      (columns args ts ++ lowerQuery lanes)).run u₁ = (false, u₂))
    (hrun' : (useful r (specialize name ts'.length upper)
      (columns args ts' ++ upperQuery lanes)).run u₁' = (true, u₂'))
    (hu : u₂.Unwrapped) (hu' : u₂'.Unwrapped) : False := by
  rw [List.forall_mem_cons] at hfits
  have hu₁ := unwrapped_of_useful hrun hu
  have hu₁' := unwrapped_of_useful hrun' hu'
  obtain ⟨hlength, hshared⟩ :=
    fits_sharedLanes hfits.1 hfields hfields' hu₁ hu₁' (fit ts.length args)
  refine hfollows hlength u₁ u₁' u₂ u₂' ?_ ?_ ?_ hu hu'
  · rw [List.forall_mem_append]
    exact ⟨hshared, fun l hl => (hfits.2 l hl).mono (next_le_next_of_fieldTypes hfields hu₁)
      (next_le_next_of_fieldTypes hfields' hu₁')⟩
  · rw [lowerQuery_append, lowerQuery_sharedLanes hlength]
    exact hrun
  · rw [upperQuery_append, upperQuery_sharedLanes hlength, hlength]
    exact hrun'

theorem false_of_lowerFields {name : String} {upper' : List Row} {u u' u₁' : Supply}
    (hfollows : ∀ ts : List Ty,
      Follows r (ts.map .lower ++ lanes) upper' (specialize name ts.length lower))
    (hfits : ∀ l ∈ lanes, l.Fits u.next u'.next)
    (hfinds : FindsOut r lower t (lowerQuery lanes) u.next false name)
    (hrun' : (useful r upper' (upperQuery lanes)).run u' = (true, u₁')) (hu' : u₁'.Unwrapped) :
    False := by
  obtain ⟨ts, s, s₁, s₂, hle, hfields, hfalse, hs⟩ := hfinds
  have hnext := hle.trans (next_le_next_of_fieldTypes hfields (unwrapped_of_useful hfalse hs))
  refine hfollows ts s₁ u' s₂ u₁' ?_ ?_ ?_ hs hu'
  · rw [List.forall_mem_append, List.forall_mem_map]
    exact ⟨fun _ _ => trivial, fun l hl => (hfits l hl).mono hnext (Int.le_refl _)⟩
  · rw [lowerQuery_append, lowerQuery_lower]
    exact hfalse
  · rw [upperQuery_append, upperQuery_lower]
    exact hrun'

theorem false_of_upperFields {name : String} {lower' : List Row} {u u' u₁ : Supply}
    (hfollows : ∀ ts : List Ty,
      Follows r (ts.map .upper ++ lanes) (specialize name ts.length upper) lower')
    (hfits : ∀ l ∈ lanes, l.Fits u.next u'.next)
    (hrun : (useful r lower' (lowerQuery lanes)).run u = (false, u₁)) (hu : u₁.Unwrapped)
    (hfinds : FindsOut r upper t' (upperQuery lanes) u'.next true name) : False := by
  obtain ⟨ts, s, s₁, s₂, hle, hfields, htrue, hs⟩ := hfinds
  have hnext := hle.trans (next_le_next_of_fieldTypes hfields (unwrapped_of_useful htrue hs))
  refine hfollows ts u s₁ u₁ s₂ ?_ ?_ ?_ hu hs
  · rw [List.forall_mem_append, List.forall_mem_map]
    exact ⟨fun _ _ => trivial, fun l hl => (hfits l hl).mono (Int.le_refl _) hnext⟩
  · rw [lowerQuery_append, lowerQuery_upper]
    exact hrun
  · rw [upperQuery_append, upperQuery_upper]
    exact htrue

theorem follows_constructor {name : String} {args : List Pattern}
    (h : ∀ ts ts' : List Ty, ts.length = ts'.length →
      Follows r (sharedLanes (fit ts.length args) ts ts' ++ lanes)
        (specialize name ts'.length upper) (specialize name ts.length lower)) :
    Follows r (.shared (.constructor name args) t t' :: lanes) upper lower := by
  intro u u' u₁ u₁' hfits hrun hrun' hu hu'
  change (useful r lower ((.constructor name args, t) :: lowerQuery lanes)).run u = _ at hrun
  change (useful r upper ((.constructor name args, t') :: upperQuery lanes)).run u' = _ at hrun'
  rw [useful, StateT.run_bind] at hrun hrun'
  cases hfields : (fieldTypes r name t).run u with
  | mk ts s =>
      cases hfields' : (fieldTypes r name t').run u' with
      | mk ts' s' =>
          rw [hfields] at hrun
          rw [hfields'] at hrun'
          exact false_of_fields (h ts ts') hfits hfields hfields' hrun hrun' hu hu'

theorem follows_const {literal : String}
    (h : Follows r lanes (specializeToConst literal upper) (specializeToConst literal lower)) :
    Follows r (.shared (.const literal) t t' :: lanes) upper lower := by
  intro u u' u₁ u₁' hfits hrun hrun' hu hu'
  change (useful r lower ((.const literal, t) :: lowerQuery lanes)).run u = _ at hrun
  change (useful r upper ((.const literal, t') :: upperQuery lanes)).run u' = _ at hrun'
  rw [useful] at hrun hrun'
  exact h u u' u₁ u₁' (List.forall_mem_cons.1 hfits).2 hrun hrun' hu hu'

theorem constructorsOf_rename (f : Int → Int) (t : Ty) :
    constructorsOf r (t.rename f) = constructorsOf r t := by
  cases t <;> rfl

theorem follows_irrefutable (hp : p.isIrrefutable = true)
    (hboth : covers upper (constructorsOf r t) = true → covers lower (constructorsOf r t) = true →
      ∀ (name : String) (ts ts' : List Ty), ts.length = ts'.length →
        Follows r (sharedLanes (fit ts.length []) ts ts' ++ lanes)
          (specialize name ts'.length upper) (specialize name ts.length lower))
    (hupper : covers upper (constructorsOf r t) = true → ∀ (name : String) (ts : List Ty),
      Follows r (ts.map .upper ++ lanes) (specialize name ts.length upper) (defaultRows lower))
    (hlower : covers lower (constructorsOf r t) = true → ∀ name : String,
      (∀ row ∈ upper, headConstructor? row ≠ some name) → ∀ ts : List Ty,
        Follows r (ts.map .lower ++ lanes) (defaultRows upper) (specialize name ts.length lower))
    (hneither : Follows r lanes (defaultRows upper) (defaultRows lower)) :
    Follows r (.shared p t t' :: lanes) upper lower := by
  intro u u' u₁ u₁' hfits hrun hrun' hu hu'
  have hsame : constructorsOf r t' = constructorsOf r t := by
    obtain ⟨⟨ρ, rfl⟩, -⟩ := (List.forall_mem_cons.1 hfits).1
    exact constructorsOf_rename _ _
  have hrest := (List.forall_mem_cons.1 hfits).2
  rcases useful_false_cases hp hrun hu with ⟨hcovers, hfalse⟩ | ⟨hcovers, hfalse⟩ <;>
    rcases useful_true_cases hp hrun' hu' with ⟨hcovers', htrue⟩ | ⟨hcovers', htrue⟩ <;>
    rw [hsame] at hcovers'
  · -- both name all constructors: the one that shows the query useful is looked at in both
    obtain ⟨name, hname, ts', s', s₁', s₂', hle', hfields', htrue, hs'⟩ := htrue
    obtain ⟨ts, s, s₁, s₂, hle, hfields, hfalse, hs⟩ := hfalse name (hsame ▸ hname)
    exact false_of_fields (hboth hcovers' hcovers name ts ts')
      (fun l hl => (hfits l hl).mono hle hle') hfields hfields' hfalse htrue hs hs'
  · -- only the lower one does: a constructor that the upper one does not name
    obtain ⟨name, hname, hnone⟩ := exists_of_not_covers (ne_nil_of_covers hcovers) hcovers'
    exact false_of_lowerFields (hlower hcovers name hnone) hrest (hfalse name hname) htrue hu'
  · -- only the upper one does
    obtain ⟨name, -, htrue⟩ := htrue
    exact false_of_upperFields (hupper hcovers' name) hrest hfalse hu htrue
  · exact hneither u u' u₁ u₁' hrest hfalse htrue hu hu'

theorem follows_lower
    (hcovered : covers lower (constructorsOf r t) = true → ∀ (name : String) (ts : List Ty),
      Follows r (ts.map .lower ++ lanes) upper (specialize name ts.length lower))
    (hdefault : Follows r lanes upper (defaultRows lower)) :
    Follows r (.lower t :: lanes) upper lower := by
  intro u u' u₁ u₁' hfits hrun hrun' hu hu'
  have hrest := (List.forall_mem_cons.1 hfits).2
  rcases useful_false_cases (p := .wildcard) rfl hrun hu with ⟨hcovers, hfalse⟩ | ⟨-, hfalse⟩
  · obtain ⟨name, names, hnames⟩ := List.exists_cons_of_ne_nil (ne_nil_of_covers hcovers)
    exact false_of_lowerFields (hcovered hcovers name) hrest
      (hfalse name (hnames ▸ List.mem_cons_self)) hrun' hu'
  · exact hdefault u u' u₁ u₁' hrest hfalse hrun' hu hu'

theorem follows_upper
    (hcovered : covers upper (constructorsOf r t) = true → ∀ (name : String) (ts : List Ty),
      Follows r (ts.map .upper ++ lanes) (specialize name ts.length upper) lower)
    (hdefault : Follows r lanes (defaultRows upper) lower) :
    Follows r (.upper t :: lanes) upper lower := by
  intro u u' u₁ u₁' hfits hrun hrun' hu hu'
  have hrest := (List.forall_mem_cons.1 hfits).2
  rcases useful_true_cases (p := .wildcard) rfl hrun' hu' with ⟨hcovers, htrue⟩ | ⟨-, htrue⟩
  · obtain ⟨name, -, htrue⟩ := htrue
    exact false_of_upperFields (hcovered hcovers name) hrest hrun hu htrue
  · exact hdefault u u' u₁ u₁' hrest hrun htrue hu hu'

end Steps

/-- The constructors that the query asks for in a column. -/
def Lane.weight : Lane → Nat
  | .shared p _ _ => p.weight
  | .lower _ | .upper _ => 0

/-- The constructors in both matrices and in the query. -/
def weightBoth (lanes : List Lane) (upper lower : List Row) : Nat :=
  weightRows upper + weightRows lower + (lanes.map Lane.weight).sum

theorem sum_weight_sharedLanes (args : List Pattern) (ts ts' : List Ty) :
    ((sharedLanes args ts ts').map Lane.weight).sum ≤ weightList args := by
  induction args generalizing ts ts' with
  | nil => simp [sharedLanes]
  | cons arg args ih =>
      match ts, ts' with
      | t :: ts, t' :: ts' =>
          rw [sharedLanes, List.map_cons, List.sum_cons, weightList]
          exact Nat.add_le_add_left (ih ts ts') _
      | [], _ | _ :: _, [] => simp [sharedLanes]

theorem sum_weight_wildcards (n : Nat) (ts ts' : List Ty) :
    ((sharedLanes (fit n []) ts ts').map Lane.weight).sum = 0 :=
  Nat.le_zero.1 (weightList_fit_nil n ▸ sum_weight_sharedLanes (fit n []) ts ts')

theorem sum_weight_lower (ts : List Ty) : ((ts.map Lane.lower).map Lane.weight).sum = 0 := by
  simp [Function.comp_def, Lane.weight]

theorem sum_weight_upper (ts : List Ty) : ((ts.map Lane.upper).map Lane.weight).sum = 0 := by
  simp [Function.comp_def, Lane.weight]

theorem weightRows_specialize_le (name : String) (n : Nat) (rows : List Row) :
    weightRows (specialize name n rows) ≤ weightRows rows :=
  weightRows_filterMap_le weightList_specializeRow_le rows

theorem weightRows_defaultRows_le (rows : List Row) : weightRows (defaultRows rows) ≤ weightRows rows :=
  weightRows_filterMap_le weightList_defaultRow_le rows

theorem weightRows_specializeToConst_le (literal : String) (rows : List Row) :
    weightRows (specializeToConst literal rows) ≤ weightRows rows :=
  weightRows_filterMap_le weightList_specializeConst_le rows

section Measure

variable {lanes : List Lane} {upper upper' lower lower' : List Row} {l : Lane}

/-- Columns that take the place of another, with fewer constructors. -/
theorem replaced_lt {fields : List Lane} (h : weightRows upper' + weightRows lower' +
      (fields.map Lane.weight).sum < weightRows upper + weightRows lower + l.weight) :
    Prod.Lex (· < ·) (· < ·)
      (weightBoth (fields ++ lanes) upper' lower', (fields ++ lanes).length)
      (weightBoth (l :: lanes) upper lower, (l :: lanes).length) := by
  refine Ty.measure_lt (.inl ?_)
  simp only [weightBoth, List.map_append, List.sum_append, List.map_cons, List.sum_cons]
  omega

/-- A column that is left out. -/
theorem dropped_lt (hupper : weightRows upper' ≤ weightRows upper)
    (hlower : weightRows lower' ≤ weightRows lower) :
    Prod.Lex (· < ·) (· < ·) (weightBoth lanes upper' lower', lanes.length)
      (weightBoth (l :: lanes) upper lower, (l :: lanes).length) := by
  refine Ty.measure_lt (.inr ⟨?_, Nat.lt_succ_self _⟩)
  simp only [weightBoth, List.map_cons, List.sum_cons]
  omega

theorem constructor_lt {name : String} {args : List Pattern} {t t' : Ty} (ts ts' : List Ty) :
    weightRows (specialize name ts'.length upper) + weightRows (specialize name ts.length lower) +
        ((sharedLanes (fit ts.length args) ts ts').map Lane.weight).sum <
      weightRows upper + weightRows lower + (Lane.shared (.constructor name args) t t').weight := by
  have hupper := weightRows_specialize_le name ts'.length upper
  have hlower := weightRows_specialize_le name ts.length lower
  have hargs := (sum_weight_sharedLanes (fit ts.length args) ts ts').trans (weightList_fit_le _ _)
  simp only [Lane.weight, weight]
  omega

/-- Where a matrix names all constructors, looking at fields takes one of them away. -/
theorem upper_lt {constructors : List String} (hcovers : covers upper constructors = true)
    {fields : List Lane} (hfields : (fields.map Lane.weight).sum = 0) (name : String) (n : Nat)
    (hlower : weightRows lower' ≤ weightRows lower) :
    weightRows (specialize name n upper) + weightRows lower' + (fields.map Lane.weight).sum <
      weightRows upper + weightRows lower + l.weight := by
  have hlt := @weightRows_specialize_lt name n upper (exists_head_of_covers hcovers)
  omega

theorem lower_lt {constructors : List String} (hcovers : covers lower constructors = true)
    {fields : List Lane} (hfields : (fields.map Lane.weight).sum = 0) (name : String) (n : Nat)
    (hupper : weightRows upper' ≤ weightRows upper) :
    weightRows upper' + weightRows (specialize name n lower) + (fields.map Lane.weight).sum <
      weightRows upper + weightRows lower + l.weight := by
  have hlt := @weightRows_specialize_lt name n lower (exists_head_of_covers hcovers)
  omega

end Measure

/-- A query that is useful for rows that cover others is useful for these. -/
theorem follows_of_coversAll (lanes : List Lane) (upper lower : List Row)
    (h : CoversAll lanes upper lower) : Follows r lanes upper lower := by
  match lanes with
  | [] =>
      intro u u' u₁ u₁' _ hrun hrun' _ _
      rw [lowerQuery, List.filterMap_nil, useful] at hrun
      rw [upperQuery, List.filterMap_nil, useful] at hrun'
      have hlower : lower.isEmpty = false := congrArg Prod.fst hrun
      have hupper : upper.isEmpty = true := congrArg Prod.fst hrun'
      obtain rfl := List.isEmpty_iff.1 hupper
      obtain ⟨a, rest, rfl⟩ := List.exists_cons_of_ne_nil (List.isEmpty_eq_false_iff.1 hlower)
      obtain ⟨b, hb, -⟩ := h a (List.mem_cons_self ..)
      exact absurd hb List.not_mem_nil
  | .shared (.constructor name args) t t' :: lanes =>
      exact follows_constructor fun ts ts' hlength => follows_of_coversAll _ _ _
        (h.filterMap fun a a' b _ hcovers ha => hcovers.specialize hlength ha)
  | .shared (.const literal) t t' :: lanes =>
      exact follows_const (follows_of_coversAll _ _ _
        (h.filterMap fun a a' b _ hcovers ha => hcovers.specializeConst ha))
  | .shared .wildcard t t' :: lanes | .shared (.var _) t t' :: lanes =>
      exact follows_irrefutable rfl
        (fun hupper hlower name ts ts' hlength => follows_of_coversAll _ _ _
          (h.filterMap fun a a' b _ hcovers ha => hcovers.specialize hlength ha))
        (fun hupper name ts => follows_of_coversAll _ _ _
          (h.filterMap fun a a' b _ hcovers ha => hcovers.default_specialize ts ha))
        (fun hlower name hnone ts => follows_of_coversAll _ _ _
          (h.filterMap fun a a' b hb hcovers ha => hcovers.specialize_default (hnone b hb) ha))
        (follows_of_coversAll _ _ _ (h.filterMap fun a a' b _ hcovers ha => hcovers.default ha))
  | .lower t :: lanes =>
      exact follows_lower
        (fun hlower name ts => follows_of_coversAll _ _ _ fun a' ha' => by
          obtain ⟨a, ha, hspecialized⟩ := List.mem_filterMap.1 ha'
          obtain ⟨b, hb, hcovers⟩ := h a ha
          exact ⟨b, hb, hcovers.specialize_lower hspecialized⟩)
        (follows_of_coversAll _ _ _ fun a' ha' => by
          obtain ⟨a, ha, hdefault⟩ := List.mem_filterMap.1 ha'
          obtain ⟨b, hb, hcovers⟩ := h a ha
          exact ⟨b, hb, hcovers.default_lower hdefault⟩)
  | .upper t :: lanes =>
      exact follows_upper
        (fun hupper name ts => follows_of_coversAll _ _ _ fun a ha => by
          obtain ⟨b, hb, hcovers⟩ := h a ha
          obtain ⟨b', hspecialized, hcovers'⟩ := hcovers.specialize_upper name ts
          exact ⟨b', List.mem_filterMap.2 ⟨b, hb, hspecialized⟩, hcovers'⟩)
        (follows_of_coversAll _ _ _ fun a ha => by
          obtain ⟨b, hb, hcovers⟩ := h a ha
          obtain ⟨b', hdefault, hcovers'⟩ := hcovers.default_upper
          exact ⟨b', List.mem_filterMap.2 ⟨b, hb, hdefault⟩, hcovers'⟩)
termination_by (weightBoth lanes upper lower, lanes.length)
decreasing_by
  · exact replaced_lt (constructor_lt ts ts')
  · exact dropped_lt (weightRows_specializeToConst_le _ _) (weightRows_specializeToConst_le _ _)
  · exact replaced_lt (upper_lt hupper (sum_weight_wildcards _ ts ts') _ _
      (weightRows_specialize_le _ _ _))
  · exact replaced_lt (upper_lt hupper (sum_weight_upper ts) _ _ (weightRows_defaultRows_le _))
  · exact replaced_lt (lower_lt hlower (sum_weight_lower ts) _ _ (weightRows_defaultRows_le _))
  · exact dropped_lt (weightRows_defaultRows_le _) (weightRows_defaultRows_le _)
  · exact replaced_lt (upper_lt hupper (sum_weight_wildcards _ ts ts') _ _
      (weightRows_specialize_le _ _ _))
  · exact replaced_lt (upper_lt hupper (sum_weight_upper ts) _ _ (weightRows_defaultRows_le _))
  · exact replaced_lt (lower_lt hlower (sum_weight_lower ts) _ _ (weightRows_defaultRows_le _))
  · exact dropped_lt (weightRows_defaultRows_le _) (weightRows_defaultRows_le _)
  · exact replaced_lt (lower_lt hlower (sum_weight_lower ts) _ _ (Nat.le_refl _))
  · exact dropped_lt (Nat.le_refl _) (weightRows_defaultRows_le _)
  · exact replaced_lt (upper_lt hupper (sum_weight_upper ts) _ _ (Nat.le_refl _))
  · exact dropped_lt (weightRows_defaultRows_le _) (Nat.le_refl _)

end Pattern

end Formulary
