import Mathlib.Logic.Relation

/-!
Recursive procedures, with the calls left open. A call tree says what is done for one problem: which
problems the procedure is called on, what is done with the answers, and where something is read that
is not there. From this alone it is defined what a procedure returns, which calls it
makes and whether every run ends. A procedure that meets a specification along a well-founded order
ends on every problem that satisfies the precondition.
-/

namespace Formulary

variable {P R α β : Type}

/-- What is done for one problem on the way to a value. -/
inductive CallTree (P R α : Type) where
  | done (value : α)
  /-- Something is read that is not there, such as an element behind the end of a list. -/
  | fault
  /-- It is left open which way to go on. -/
  | choice (first second : CallTree P R α)
  | call (problem : P) (next : R → CallTree P R α)

namespace CallTree

def bind (t : CallTree P R α) (k : α → CallTree P R β) : CallTree P R β :=
  match t with
  | .done value => k value
  | .fault => .fault
  | .choice first second => .choice (first.bind k) (second.bind k)
  | .call problem next => .call problem fun answer => (next answer).bind k

instance : Monad (CallTree P R) where
  pure := .done
  bind := bind

/-- Calls the procedure itself. -/
def ask (problem : P) : CallTree P R R := .call problem .done

/-- Goes on with what is there. -/
def orFault : Option α → CallTree P R α
  | some a => .done a
  | none => .fault

/-- Reads the first element of a list, and the rest. -/
def uncons : List α → CallTree P R (α × List α)
  | [] => .fault
  | a :: as => .done (a, as)

section

variable (A : P → R → Prop)

/-- Some run ends with a value. -/
def Ends : CallTree P R α → α → Prop
  | .done value, a => a = value
  | .fault, _ => False
  | .choice first second, a => first.Ends a ∨ second.Ends a
  | .call problem next, a => ∃ answer, A problem answer ∧ (next answer).Ends a

/-- Some run calls the procedure on a problem. -/
def Asks : CallTree P R α → P → Prop
  | .done _, _ => False
  | .fault, _ => False
  | .choice first second, q => first.Asks q ∨ second.Asks q
  | .call problem next, q => q = problem ∨ ∃ answer, A problem answer ∧ (next answer).Asks q

/-- Some run reads what is not there. -/
def Faults : CallTree P R α → Prop
  | .done _ => False
  | .fault => True
  | .choice first second => first.Faults ∨ second.Faults
  | .call problem next => ∃ answer, A problem answer ∧ (next answer).Faults

end

theorem Ends.mono {A A' : P → R → Prop} (hA : ∀ q r, A q r → A' q r) {t : CallTree P R α} {a : α}
    (h : t.Ends A a) : t.Ends A' a := by
  induction t with
  | done value => exact h
  | fault => exact h
  | choice first second ih₁ ih₂ => exact h.imp ih₁ ih₂
  | call problem next ih =>
      obtain ⟨answer, hanswer, hnext⟩ := h
      exact ⟨answer, hA _ _ hanswer, ih answer hnext⟩

theorem Ends.exists_index {A : Nat → P → R → Prop} (hA : ∀ n q r, A n q r → A (n + 1) q r)
    {t : CallTree P R α} {a : α} (h : t.Ends (fun q r => ∃ n, A n q r) a) :
    ∃ n, t.Ends (A n) a := by
  have hle {m n : Nat} (hmn : m ≤ n) (q : P) (r : R) (h : A m q r) : A n q r := by
    induction hmn with
    | refl => exact h
    | step _ ih => exact hA _ q r ih
  induction t with
  | done value => exact ⟨0, h⟩
  | fault => exact h.elim
  | choice first second ih₁ ih₂ =>
      rcases h with h | h
      · exact (ih₁ h).imp fun _ => .inl
      · exact (ih₂ h).imp fun _ => .inr
  | call problem next ih =>
      obtain ⟨answer, ⟨m, hanswer⟩, hnext⟩ := h
      obtain ⟨n, hn⟩ := ih answer hnext
      exact ⟨max m n, answer, hle (Nat.le_max_left m n) _ _ hanswer,
        hn.mono (hle (Nat.le_max_right m n))⟩

theorem exists_ends {A : P → R → Prop} {t : CallTree P R α} (hsafe : ¬ t.Faults A)
    (hanswers : ∀ q, t.Asks A q → ∃ r, A q r) : ∃ a, t.Ends A a := by
  induction t with
  | done value => exact ⟨value, rfl⟩
  | fault => exact absurd trivial hsafe
  | choice first second ih₁ ih₂ =>
      exact (ih₁ (hsafe ∘ .inl) fun q hq => hanswers q (.inl hq)).imp fun _ => .inl
  | call problem next ih =>
      obtain ⟨answer, hanswer⟩ := hanswers problem (.inl rfl)
      obtain ⟨a, ha⟩ := ih answer (fun h => hsafe ⟨answer, hanswer, h⟩)
        fun q hq => hanswers q (.inr ⟨answer, hanswer, hq⟩)
      exact ⟨a, answer, hanswer, ha⟩

/-- Every run calls the procedure only where `pre` holds, and ends with a value that satisfies `Q`,
provided that `post` holds of the answers. Only where `faulty` holds may it read what is not there. -/
def YieldsOr (faulty : Prop) (pre : P → Prop) (post : P → R → Prop) (Q : α → Prop) :
    CallTree P R α → Prop
  | .done value => Q value
  | .fault => faulty
  | .choice first second =>
    first.YieldsOr faulty pre post Q ∧ second.YieldsOr faulty pre post Q
  | .call problem next =>
    pre problem ∧ ∀ answer, post problem answer → (next answer).YieldsOr faulty pre post Q

/-- The same of runs that read only what is there. -/
abbrev Yields (pre : P → Prop) (post : P → R → Prop) (Q : α → Prop) : CallTree P R α → Prop :=
  YieldsOr False pre post Q

section

variable {faulty : Prop} {pre : P → Prop} {post : P → R → Prop} {Q Q' : α → Prop} {A : P → R → Prop}
  {t : CallTree P R α}

theorem yields_pure {a : α} : (pure a : CallTree P R α).YieldsOr faulty pre post Q ↔ Q a := Iff.rfl

theorem yields_ask {p : P} {Q : R → Prop} : (ask p : CallTree P R R).YieldsOr faulty pre post Q ↔
    pre p ∧ ∀ answer, post p answer → Q answer := Iff.rfl

theorem yields_bind {k : α → CallTree P R β} {Q : β → Prop} :
    (t >>= k).YieldsOr faulty pre post Q ↔
      t.YieldsOr faulty pre post fun a => (k a).YieldsOr faulty pre post Q := by
  induction t with
  | done value => rfl
  | fault => rfl
  | choice first second ih₁ ih₂ => exact and_congr ih₁ ih₂
  | call problem next ih => exact and_congr_right fun _ => forall₂_congr fun answer _ => ih answer

namespace YieldsOr

theorem mono (h : t.YieldsOr faulty pre post Q) (hQ : ∀ a, Q a → Q' a) :
    t.YieldsOr faulty pre post Q' := by
  induction t with
  | done value => exact hQ _ h
  | fault => exact h
  | choice first second ih₁ ih₂ => exact h.imp ih₁ ih₂
  | call problem next ih => exact ⟨h.1, fun answer hanswer => ih answer (h.2 answer hanswer)⟩

theorem bind {k : α → CallTree P R β} {Q' : β → Prop} (h : t.YieldsOr faulty pre post Q)
    (hk : ∀ a, Q a → (k a).YieldsOr faulty pre post Q') :
    (t >>= k).YieldsOr faulty pre post Q' :=
  yields_bind.2 (h.mono hk)

theorem of_ends (h : t.YieldsOr faulty pre post Q) (hA : ∀ q r, pre q → A q r → post q r) {a : α}
    (hends : t.Ends A a) : Q a := by
  induction t with
  | done value => exact hends ▸ h
  | fault => exact hends.elim
  | choice first second ih₁ ih₂ => exact hends.elim (ih₁ h.1) (ih₂ h.2)
  | call problem next ih =>
      obtain ⟨answer, hanswer, hnext⟩ := hends
      exact ih answer (h.2 answer (hA _ _ h.1 hanswer)) hnext

theorem pre_of_asks (h : t.YieldsOr faulty pre post Q) (hA : ∀ q r, pre q → A q r → post q r)
    {q : P} (hasks : t.Asks A q) : pre q := by
  induction t with
  | done value => exact hasks.elim
  | fault => exact hasks.elim
  | choice first second ih₁ ih₂ => exact hasks.elim (ih₁ h.1) (ih₂ h.2)
  | call problem next ih =>
      rcases hasks with rfl | ⟨answer, hanswer, hnext⟩
      · exact h.1
      · exact ih answer (h.2 answer (hA _ _ h.1 hanswer)) hnext

end YieldsOr

theorem YieldsOr.forall {ι : Type} [Nonempty ι] {Q : ι → α → Prop}
    (h : ∀ i, t.YieldsOr faulty pre post (Q i)) :
    t.YieldsOr faulty pre post fun a => ∀ i, Q i a := by
  obtain ⟨i₀⟩ := ‹Nonempty ι›
  induction t with
  | done value => exact h
  | fault => exact h i₀
  | choice first second ih₁ ih₂ => exact ⟨ih₁ fun i => (h i).1, ih₂ fun i => (h i).2⟩
  | call problem next ih =>
      exact ⟨(h i₀).1, fun answer hanswer => ih answer fun i => (h i).2 answer hanswer⟩

theorem Yields.not_faults (h : t.Yields pre post Q) (hA : ∀ q r, pre q → A q r → post q r) :
    ¬ t.Faults A := by
  induction t with
  | done value => exact id
  | fault => exact h.elim
  | choice first second ih₁ ih₂ => exact not_or.2 ⟨ih₁ h.1, ih₂ h.2⟩
  | call problem next ih =>
      rintro ⟨answer, hanswer, hnext⟩
      exact ih answer (h.2 answer (hA _ _ h.1 hanswer)) hnext

end

end CallTree

/-- What is done for each problem. -/
abbrev Procedure (P R : Type) : Type := P → CallTree P R R

namespace Procedure

variable (f : Procedure P R)

/-- What comes back for a problem from calls that are nested at most `depth` deep. -/
def ReturnsWithin : Nat → P → R → Prop
  | 0, _, _ => False
  | depth + 1, p, r => (f p).Ends (ReturnsWithin depth) r

/-- What comes back for a problem. -/
def Returns (p : P) (r : R) : Prop := ∃ depth, f.ReturnsWithin depth p r

/-- For the first problem the procedure is called on the second. -/
def Calls (p q : P) : Prop := (f p).Asks f.Returns q

/-- On the way from the first problem the procedure is called on the second, at any depth. -/
def Reaches : P → P → Prop := Relation.ReflTransGen f.Calls

/-- For a problem something is read that is not there, calls within apart. -/
def Faults (p : P) : Prop := (f p).Faults f.Returns

/-- Every run for a problem ends with an answer: no chain of calls goes on for ever, and in none of
them is anything read that is not there. -/
structure Terminates (p : P) : Prop where
  acc : Acc (fun q p => f.Calls p q) p
  safe : ∀ q, f.Reaches p q → ¬ f.Faults q

/-- Of the problems that satisfy `pre` all answers satisfy `post`, and for them the procedure is called
on smaller ones of the kind only. Only where `faulty` holds may it read what is not there. -/
def MeetsOr (faulty : Prop) (pre : P → Prop) (post : P → R → Prop) (smaller : P → P → Prop) :
    Prop :=
  ∀ p, pre p → (f p).YieldsOr faulty (fun q => pre q ∧ smaller q p) post (post p)

/-- The same of a procedure that reads only what is there. -/
abbrev Meets (pre : P → Prop) (post : P → R → Prop) (smaller : P → P → Prop) : Prop :=
  f.MeetsOr False pre post smaller

variable {f}

theorem returnsWithin_succ {depth : Nat} {p : P} {r : R} (h : f.ReturnsWithin depth p r) :
    f.ReturnsWithin (depth + 1) p r := by
  induction depth generalizing p r with
  | zero => exact h.elim
  | succ depth ih => exact CallTree.Ends.mono (fun _ _ => ih) h

theorem returns_of_ends {p : P} {r : R} (h : (f p).Ends f.Returns r) : f.Returns p r := by
  obtain ⟨depth, hdepth⟩ := h.exists_index fun _ _ _ => returnsWithin_succ
  exact ⟨depth + 1, hdepth⟩

theorem Terminates.of_calls {p q : P} (h : f.Terminates p) (hq : f.Calls p q) : f.Terminates q :=
  ⟨h.acc.inv hq, fun q' hq' => h.safe q' (.head hq hq')⟩

/-- Where every run ends, there is an answer. -/
theorem Terminates.exists_returns {p : P} (h : f.Terminates p) : ∃ r, f.Returns p r := by
  induction h.acc with
  | intro p _ ih =>
      obtain ⟨r, hr⟩ := CallTree.exists_ends (h.safe p .refl) fun q hq => ih q hq (h.of_calls hq)
      exact ⟨r, returns_of_ends hr⟩

section

variable {faulty : Prop} {pre : P → Prop} {post : P → R → Prop} {smaller : P → P → Prop} {p q : P}
  {r : R}

namespace MeetsOr

theorem post_of_returns (h : f.MeetsOr faulty pre post smaller) (hp : pre p) (hr : f.Returns p r) :
    post p r := by
  obtain ⟨depth, hr⟩ := hr
  induction depth generalizing p r with
  | zero => exact hr.elim
  | succ depth ih => exact (h p hp).of_ends (fun q s hq hs => ih hq.1 hs) hr

theorem of_calls (h : f.MeetsOr faulty pre post smaller) (hp : pre p) (hq : f.Calls p q) :
    pre q ∧ smaller q p :=
  (h p hp).pre_of_asks (fun _ _ hq hs => h.post_of_returns hq.1 hs) hq

theorem of_reaches (h : f.MeetsOr faulty pre post smaller) (hp : pre p) (hq : f.Reaches p q) :
    pre q := by
  induction hq with
  | refl => exact hp
  | tail _ hcall ih => exact (h.of_calls ih hcall).1

theorem smaller_of_transGen (h : f.MeetsOr faulty pre post smaller)
    (htrans : ∀ {a b c}, smaller a b → smaller b c → smaller a c) (hp : pre p)
    (hq : Relation.TransGen f.Calls p q) : smaller q p := by
  induction hq with
  | single hcall => exact (h.of_calls hp hcall).2
  | tail hpath hcall ih => exact htrans (h.of_calls (h.of_reaches hp hpath.to_reflTransGen) hcall).2 ih

theorem acc (h : f.MeetsOr faulty pre post smaller) (hwf : WellFounded smaller) (hp : pre p) :
    Acc (fun q p => f.Calls p q) p := by
  induction p using hwf.induction with
  | _ p ih =>
      refine .intro p fun q hq => ?_
      obtain ⟨hpre, hlt⟩ := h.of_calls hp hq
      exact ih q hlt hpre

end MeetsOr

namespace Meets

theorem not_faults (h : f.Meets pre post smaller) (hp : pre p) : ¬ f.Faults p :=
  CallTree.Yields.not_faults (h p hp) fun _ _ hq hs => h.post_of_returns hq.1 hs

theorem terminates (h : f.Meets pre post smaller) (hwf : WellFounded smaller) (hp : pre p) :
    f.Terminates p where
  acc := h.acc hwf hp
  safe _ hq := not_faults h (h.of_reaches hp hq)

/-- A procedure that can only return one answer returns it. -/
theorem returns_iff {answer : P → R} (h : f.Meets pre (fun p r => r = answer p) smaller)
    (hwf : WellFounded smaller) (hp : pre p) : f.Returns p r ↔ r = answer p := by
  refine ⟨h.post_of_returns hp, fun hr => hr ▸ ?_⟩
  obtain ⟨r, hr⟩ := (terminates h hwf hp).exists_returns
  exact h.post_of_returns hp hr ▸ hr

end Meets

end

end Procedure

namespace CallTree

variable {f : Procedure P R} {t : CallTree P R α}

/-- On the way to a value the procedure is called on a problem, at any depth. -/
def LeadsTo (f : Procedure P R) (t : CallTree P R α) (q : P) : Prop :=
  ∃ p, t.Asks f.Returns p ∧ f.Reaches p q

section

variable {pre : P → Prop} {answer : P → R} {smaller : P → P → Prop} {a : α}

theorem Yields.pre_of_leadsTo {post : P → R → Prop} {Q : α → Prop} (h : t.Yields pre post Q)
    (hf : f.Meets pre post smaller) {q : P} (hq : t.LeadsTo f q) : pre q := by
  obtain ⟨p, hp, hreaches⟩ := hq
  exact hf.of_reaches (h.pre_of_asks (fun _ _ hpre hr => hf.post_of_returns hpre hr) hp) hreaches

theorem Yields.ends_iff (h : t.Yields pre (fun p r => r = answer p) (· = a))
    (hf : f.Meets pre (fun p r => r = answer p) smaller) (hwf : WellFounded smaller) {b : α} :
    t.Ends f.Returns b ↔ b = a := by
  have hA : ∀ q r, pre q → f.Returns q r → r = answer q := fun _ _ hp hr =>
    hf.post_of_returns hp hr
  refine ⟨fun hb => h.of_ends hA hb, fun hb => hb ▸ ?_⟩
  obtain ⟨b, hb⟩ := exists_ends (h.not_faults hA) fun q hq =>
    ⟨_, (hf.returns_iff hwf (h.pre_of_asks hA hq)).2 rfl⟩
  exact h.of_ends hA hb ▸ hb

end

end CallTree

end Formulary
