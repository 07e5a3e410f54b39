import Formulary.Proofs.Cursor

namespace Formulary

namespace Parser

/-- The tokens that are left where the cursor stands. -/
structure At (ts : List Token) (i : Nat) (us : List Token) : Prop where
  le : i ≤ ts.length
  drop_eq : ts.drop i = us

section

variable {ts us : List Token} {t last : Token} {i : Nat}

theorem at_drop (h : i ≤ ts.length) : At ts i (ts.drop i) := ⟨h, rfl⟩

@[grind →]
theorem At.add_length (h : At ts i us) : i + us.length = ts.length := by
  have hle := h.le
  rw [← h.drop_eq, List.length_drop]
  omega

theorem At.next (h : At ts i (t :: us)) : At ts (i + 1) us := by
  have hlength := h.add_length
  rw [List.length_cons] at hlength
  exact ⟨by omega, by rw [← List.drop_drop, h.drop_eq]; rfl⟩

theorem At.getElem? (h : At ts i (t :: us)) : (ts ++ [last])[i]? = some t := by
  have hlength := h.add_length
  rw [List.length_cons] at hlength
  rw [List.getElem?_append_left (by omega), ← List.head?_drop, h.drop_eq]
  rfl

theorem At.getElem?_last (h : At ts i []) : (ts ++ [last])[i]? = some last := by
  have hlength := h.add_length
  rw [List.length_nil] at hlength
  rw [List.getElem?_append_right (by omega), show i - ts.length = 0 by omega]
  rfl

theorem At.mem (h : At ts i (t :: us)) : t ∈ ts :=
  List.mem_of_mem_drop (h.drop_eq ▸ List.mem_cons_self)

end

/-- A token marks the end of input, and no other does. -/
structure EndsOnce (ts : List Token) (last : Token) : Prop where
  last : last.kind = .endOfInput
  others : ∀ t ∈ ts, t.kind ≠ .endOfInput

/-- The cursor stands where a step of reading gets to, or reading fails in the same way. -/
def Arrives {α : Type} {p : α × List Token → Prop} (ts : List Token) (reply : Reply)
    (step : Except ParseError { r // p r }) : Prop :=
  match reply, step with
  | .ok j, .ok r => At ts j r.1.2
  | .error e, .error e' => e = e'
  | _, _ => False

/-- What an item of a list is read as. -/
def Listing.Item : Listing → Type
  | .typeParams | .structureParams | .definitionParams => Binder
  | .bodyParams => String
  | .fields => Field
  | .implementationArgs | .typeArgs => TypeExpr
  | .args => Expr
  | .subpatterns => Pattern

def Listing.read (finish : Position) : (list : Listing) → (us : List Token) → Step list.Item us
  | .typeParams, us => binder finish "in type parameters" us
  | .structureParams, us => binder finish "in structure parameters" us
  | .definitionParams, us => binder finish "in parameters" us
  | .bodyParams, us => identifier finish "in parameters" us
  | .fields, us => field finish us
  | .implementationArgs, us | .typeArgs, us => typeExpr finish us
  | .args, us => expr finish 0 us
  | .subpatterns, us => pattern finish us

/-- All tokens are read. -/
def consumed {α : Type} (a : Except ParseError α) :
    Except ParseError { r : α × List Token // r.2 = [] } :=
  a.map fun a => ⟨(a, []), rfl⟩

/-- The answer to a call with some tokens left. -/
def Answered (ts : List Token) (finish : Position) (routine : Routine) (us : List Token)
    (reply : Reply) : Prop :=
  match routine with
  | .operand => Arrives ts reply (operand finish us)
  | .typeAtom => Arrives ts reply (typeAtom finish us)
  | .pattern => Arrives ts reply (pattern finish us)
  | .expr bound => Arrives ts reply (expr finish bound us)
  | .typeExpr => Arrives ts reply (typeExpr finish us)
  | .items list => ∀ n : { n // us.length ≤ n }, Arrives ts reply
      (commaItems finish .rightParen list.context (fun vs _ => list.read finish vs) us n.2)
  | .operators bound => ∀ left, Arrives ts reply (operators finish bound left us)
  | .cases => Arrives ts reply (matchCases finish us)
  | .names => Arrives ts reply (.ok (quantifiedNames us))
  | .quantifiers => Arrives ts reply (quantifiers finish us)
  | .variants => Arrives ts reply (variants finish us)
  | .members structureName => Arrives ts reply (members finish structureName us)
  | .bodies structureName => Arrives ts reply (operationBodies finish structureName us)
  | .declarations => Arrives ts reply (consumed (declarations finish us))
  | .wholeExpr => Arrives ts reply (consumed (wholeExpr finish us))
  | .wholeType => Arrives ts reply (consumed (wholeType finish us))

def Visit.Answers (ts : List Token) (finish : Position) (v : Visit) (reply : Reply) : Prop :=
  Answered ts finish v.routine (ts.drop v.index) reply

/-- A call is made behind the place of another one, or there and for an earlier procedure. -/
def Visit.Behind (ts : List Token) (w v : Visit) : Prop :=
  w.index ≤ ts.length ∧
    (v.index < w.index ∨ v.index = w.index ∧ w.routine.number < v.routine.number)

theorem Visit.Behind.trans {ts : List Token} {v w w' : Visit} (h : w'.Behind ts w)
    (h' : w.Behind ts v) : w'.Behind ts v := by
  obtain ⟨hle, hbehind⟩ := h
  obtain ⟨-, hbehind'⟩ := h'
  exact ⟨hle, by omega⟩

theorem behind_wellFounded (ts : List Token) : WellFounded (Visit.Behind ts) := by
  refine Subrelation.wf (fun {w v} h => ?_)
    (InvImage.wf (fun v : Visit => (ts.length + 1 - v.index, v.routine.number))
      (Prod.lex Nat.lt_wfRel Nat.lt_wfRel).wf)
  obtain ⟨hle, hlt | ⟨heq, hlt⟩⟩ := h
  · exact Prod.Lex.left _ _ (by change _ < _; omega)
  · change Prod.Lex _ _ (_, _) (_, _)
    rw [heq]
    exact Prod.Lex.right _ hlt

section

variable {ts : List Token} {last : Token} {v : Visit} {α β γ δ : Type} {R : β → α → Prop}
  {S : δ → γ → Prop} {p : α × List Token → Prop} {q : γ × List Token → Prop} {i : Nat}
  {us : List Token}

/-- A reader ends where a step of reading gets to, with what it reads, or fails in the same way. -/
def Outcome (ts : List Token) (R : β → α → Prop) (step : Except ParseError { r // p r })
    (reply : Except ParseError (β × Nat)) : Prop :=
  match reply, step with
  | .ok (b, j), .ok r => R b r.1.1 ∧ At ts j r.1.2
  | .error e, .error e' => e = e'
  | _, _ => False

/-- On the way of a visit a reader reaches what a step of reading does, with calls of smaller
visits. -/
def Tracks (ts : List Token) (last : Token) (v : Visit) (R : β → α → Prop) (m : Reader β) (i : Nat)
    (step : Except ParseError { r // p r }) : Prop :=
  (m.run i).run.Yields (fun w => w.index ≤ ts.length ∧ w.Behind ts v)
    (Visit.Answers ts last.position) (Outcome ts R step)

/-- Nothing is asked of what is read. -/
def anything (_ : β) (_ : α) : Prop := True

theorem Tracks.bind {m : Reader β} {k : β → Reader δ} {step : Except ParseError { r // p r }}
    {f : { r // p r } → Except ParseError { r // q r }} (h : Tracks ts last v R m i step)
    (hk : ∀ b j a rest hp, R b a → At ts j rest → Tracks ts last v S (k b) j (f ⟨(a, rest), hp⟩)) :
    Tracks ts last v S (m >>= k) i (step >>= f) := by
  unfold Tracks at *
  rw [StateT.run_bind, ExceptT.run_bind]
  refine h.bind fun reply hreply => ?_
  obtain e | ⟨b, j⟩ := reply <;> obtain e' | ⟨⟨a, rest⟩, hp⟩ := step
  · exact hreply
  · exact hreply.elim
  · exact hreply.elim
  · exact hk b j a rest hp hreply.1 hreply.2

theorem Tracks.bind_ok {m : Reader β} {k : β → Reader δ} {a : α} {rest : List Token}
    {hp : p (a, rest)} {step : Except ParseError { r // q r }}
    (h : Tracks ts last v R m i (.ok ⟨(a, rest), hp⟩))
    (hk : ∀ b j, R b a → At ts j rest → Tracks ts last v S (k b) j step) :
    Tracks ts last v S (m >>= k) i step := by
  unfold Tracks at *
  rw [StateT.run_bind, ExceptT.run_bind]
  refine h.bind fun reply hreply => ?_
  obtain e | ⟨b, j⟩ := reply
  · exact hreply.elim
  · exact hk b j hreply.1 hreply.2

/-- What is built of what was read last does not matter for where the cursor stands. -/
theorem Tracks.end_with {m : Reader β} {step : Except ParseError { r // p r }}
    {f : { r // p r } → Except ParseError { r // q r }} {S : β → γ → Prop}
    (h : Tracks ts last v R m i step)
    (hf : ∀ r b, R b r.1.1 → ∃ c hq, f r = .ok ⟨(c, r.1.2), hq⟩ ∧ S b c) :
    Tracks ts last v S m i (step >>= f) := by
  unfold Tracks at *
  refine h.mono fun reply hreply => ?_
  obtain e | ⟨b, j⟩ := reply <;> obtain e' | r := step
  · exact hreply
  · exact hreply.elim
  · exact hreply.elim
  · obtain ⟨c, hq, heq, hS⟩ := hf r b hreply.1
    change Outcome ts S (f r) _
    rw [heq]
    exact ⟨hS, hreply.2⟩

/-- What fails is not followed by anything. -/
theorem Tracks.error {m : Reader β} {e : ParseError} {S : β → γ → Prop}
    (h : Tracks ts last v R m i (.error e : Except ParseError { r // p r })) :
    Tracks ts last v S m i (.error e : Except ParseError { r // q r }) := by
  unfold Tracks at *
  refine h.mono fun reply hreply => ?_
  obtain e' | ⟨b, j⟩ := reply
  · exact hreply
  · exact hreply.elim

theorem Tracks.bind_error {m : Reader β} {k : β → Reader δ} {e : ParseError}
    (h : Tracks ts last v R m i (.error e : Except ParseError { r // p r })) :
    Tracks ts last v S (m >>= k) i (.error e : Except ParseError { r // q r }) := by
  unfold Tracks at *
  rw [StateT.run_bind, ExceptT.run_bind]
  refine h.bind fun reply hreply => ?_
  obtain e' | ⟨b, j⟩ := reply
  · exact hreply
  · exact hreply.elim

theorem Tracks.pure {b : β} {a : α} {hp : p (a, us)} (hR : R b a) (h : At ts i us) :
    Tracks ts last v R (Pure.pure b) i (.ok ⟨(a, us), hp⟩) := ⟨hR, h⟩

theorem Tracks.ite {c : Prop} [Decidable c] {m m' : Reader β}
    {step step' : Except ParseError { r // p r }} (h : c → Tracks ts last v R m i step)
    (h' : ¬c → Tracks ts last v R m' i step') :
    Tracks ts last v R (if c then m else m') i (if c then step else step') := by
  split
  · exact h ‹_›
  · exact h' ‹_›

theorem tracks_call {routine : Routine} {step : Except ParseError { r // p r }}
    (h : At ts i us)
    (hstep : ∀ reply, Answered ts last.position routine us reply → Arrives ts reply step)
    (hbehind : v.index < i ∨ v.index = i ∧ routine.number < v.routine.number) :
    Tracks ts last v anything (Reader.call routine) i step := by
  unfold Tracks
  refine ⟨⟨h.le, h.le, hbehind⟩, fun reply hreply => ?_⟩
  have harrives := hstep reply (h.drop_eq ▸ hreply)
  obtain e | j := reply <;> obtain e' | r := step
  · exact harrives
  · exact harrives.elim
  · exact harrives.elim
  · exact ⟨trivial, harrives⟩

/-- A call is followed by what comes after, where the cursor stands then. -/
theorem Tracks.call {routine : Routine} {k : Unit → Reader δ}
    {step : Except ParseError { r // p r }} {f : { r // p r } → Except ParseError { r // q r }}
    (h : At ts i us)
    (hstep : ∀ reply, Answered ts last.position routine us reply → Arrives ts reply step)
    (hbehind : v.index < i ∨ v.index = i ∧ routine.number < v.routine.number)
    (hk : ∀ j a rest hp, At ts j rest → Tracks ts last v S (k ()) j (f ⟨(a, rest), hp⟩)) :
    Tracks ts last v S (Reader.call routine >>= k) i (step >>= f) :=
  .bind (tracks_call h hstep hbehind) fun _ j a rest hp _ hj => hk j a rest hp hj

/-- A call comes last. -/
theorem Tracks.call_last {routine : Routine} {step : Except ParseError { r // p r }}
    {f : { r // p r } → Except ParseError { r // q r }} (h : At ts i us)
    (hstep : ∀ reply, Answered ts last.position routine us reply → Arrives ts reply step)
    (hbehind : v.index < i ∨ v.index = i ∧ routine.number < v.routine.number)
    (hf : ∀ r, ∃ c hq, f r = .ok ⟨(c, r.1.2), hq⟩) :
    Tracks ts last v anything (Reader.call routine) i (step >>= f) :=
  .end_with (tracks_call h hstep hbehind) fun r _ _ =>
    (hf r).imp fun _ ⟨hq, heq⟩ => ⟨hq, heq, trivial⟩

/-- What happens without a call is followed by what comes after. -/
theorem run_go {m : Reader β} {k : β → Reader δ} {b : β} {j : Nat}
    (hm : (m.run i).run = .done (.ok (b, j))) :
    ((m >>= k).run i).run = ((k b).run j).run := by
  rw [StateT.run_bind, ExceptT.run_bind, hm]
  rfl

theorem Tracks.go {m : Reader β} {k : β → Reader δ} {b : β} {j : Nat}
    {step : Except ParseError { r // p r }} {S : δ → α → Prop}
    (hm : (m.run i).run = .done (.ok (b, j))) (hk : Tracks ts last v S (k b) j step) :
    Tracks ts last v S (m >>= k) i step := by
  rwa [Tracks, run_go hm]

theorem Tracks.done {m : Reader β} {b : β} {j : Nat} {a : α} {hp : p (a, us)}
    (hm : (m.run i).run = .done (.ok (b, j))) (hR : R b a) (h : At ts j us) :
    Tracks ts last v R m i (.ok ⟨(a, us), hp⟩) := by
  unfold Tracks
  rw [hm]
  exact ⟨hR, h⟩

theorem run_peekAhead {n : Nat} {t : Token} (h : (ts ++ [last])[i + n]? = some t) :
    ((Reader.peekAhead (ts ++ [last]) n).run i).run = .done (.ok (t, i)) := by
  simp only [Reader.peekAhead, StateT.run, ExceptT.run, h]

theorem run_peek {t : Token} (h : At ts i (t :: us)) :
    ((Reader.peek (ts ++ [last])).run i).run = .done (.ok (t, i)) := run_peekAhead h.getElem?

theorem run_peek_last (h : At ts i []) :
    ((Reader.peek (ts ++ [last])).run i).run = .done (.ok (last, i)) :=
  run_peekAhead h.getElem?_last

theorem run_advance {t : Token} (h : At ts i (t :: us)) :
    ((Reader.advance (ts ++ [last])).run i).run = .done (.ok ((), i + 1)) := by
  have hlength := h.add_length
  rw [List.length_cons] at hlength
  change (if _ then _ else _) = _
  rw [if_pos (by simp only [List.length_append, List.length_singleton]; omega)]

theorem run_prev {t : Token} (h : At ts i (t :: us)) :
    ((Reader.prev (ts ++ [last])).run (i + 1)).run = .done (.ok (t, i + 1)) := by
  simp only [Reader.prev, StateT.run, ExceptT.run, h.getElem?]

section

variable (hend : EndsOnce ts last) {kind : Token.Kind}

include hend

theorem run_accept_of_eq {t : Token} (h : At ts i (t :: us)) (hkind : t.kind = kind) :
    ((Reader.accept (ts ++ [last]) kind).run i).run = .done (.ok (true, i + 1)) := by
  rw [Reader.accept, run_go (run_peek h), if_neg (hend.others t h.mem), run_go (run_peek h),
    if_pos hkind, run_go (run_advance h)]
  rfl

theorem run_accept_of_ne {t : Token} (h : At ts i (t :: us)) (hkind : t.kind ≠ kind) :
    ((Reader.accept (ts ++ [last]) kind).run i).run = .done (.ok (false, i)) := by
  rw [Reader.accept, run_go (run_peek h), if_neg (hend.others t h.mem), run_go (run_peek h),
    if_neg hkind]
  rfl

theorem run_accept_last (h : At ts i []) :
    ((Reader.accept (ts ++ [last]) kind).run i).run = .done (.ok (false, i)) := by
  rw [Reader.accept, run_go (run_peek_last h), if_pos hend.last]
  rfl

theorem Tracks.accept_cons {k : Bool → Reader δ} {step : Except ParseError { r // q r }} {t : Token}
    (h : At ts i (t :: us))
    (heq : t.kind = kind → At ts (i + 1) us → Tracks ts last v S (k true) (i + 1) step)
    (hne : t.kind ≠ kind → Tracks ts last v S (k false) i step) :
    Tracks ts last v S (Reader.accept (ts ++ [last]) kind >>= k) i step := by
  by_cases hkind : t.kind = kind
  · exact .go (run_accept_of_eq hend h hkind) (heq hkind h.next)
  · exact .go (run_accept_of_ne hend h hkind) (hne hkind)

/-- A token that may be missing is moved past just if it is dropped. -/
theorem Tracks.accept {k : Bool → Reader δ} {step : Except ParseError { r // q r }}
    {r : { r : Bool × List Token // r.2.length ≤ us.length }} (h : At ts i us)
    (hskip : skip kind us = r) (hk : ∀ j, At ts j r.1.2 → Tracks ts last v S (k r.1.1) j step) :
    Tracks ts last v S (Reader.accept (ts ++ [last]) kind >>= k) i step := by
  subst hskip
  match us with
  | [] => exact .go (run_accept_last hend h) (hk i h)
  | t :: us =>
      refine .accept_cons hend h (fun hkind hnext => ?_) fun hkind => ?_
      · rw [skip, if_pos hkind] at hk
        exact hk (i + 1) hnext
      · rw [skip, if_neg hkind] at hk
        exact hk i h

theorem tracks_failHere {cause : ParseError.Found → ParseError.Cause} (h : At ts i us) :
    Tracks ts last v R (Reader.failHere (ts ++ [last]) cause) i
      (failAt last.position cause us : Except ParseError { r // p r }) := by
  match us with
  | [] =>
      refine .go (run_peek_last h) ?_
      rw [if_pos hend.last]
      exact rfl
  | t :: us =>
      refine .go (run_peek h) ?_
      rw [if_neg (hend.others t h.mem)]
      exact rfl

theorem tracks_need {context : String} (h : At ts i us) :
    Tracks ts last v Eq (Reader.need (ts ++ [last]) kind context) i
      (need last.position kind context us) := by
  match us with
  | [] =>
      refine .go (run_accept_last hend h) ?_
      exact tracks_failHere hend h
  | t :: us =>
      rw [need]
      refine .accept_cons hend h (fun hkind hnext => ?_) fun hkind => ?_
      · rw [if_pos hkind]
        exact .done (run_prev h) rfl hnext
      · rw [if_neg hkind]
        exact tracks_failHere hend h

theorem tracks_identifier {context : String} (h : At ts i us) :
    Tracks ts last v (fun t name => t.lexeme = name)
      (Reader.need (ts ++ [last]) .identifier context) i (identifier last.position context us) :=
  (tracks_need hend h).end_with fun _ _ heq => ⟨_, _, rfl, congrArg Token.lexeme heq⟩

end

end

end Parser

end Formulary
