import Formulary.Proofs.Lines

namespace Formulary

namespace Position

/-- The place behind a piece of text: one line more than have ended in it, and one column more than
there are characters since the last of these ends. -/
def behind (before : List Char) : Position :=
  ⟨1 + before.count '\n', 1 + (before.reverse.takeWhile (· ≠ '\n')).length⟩

theorem behind_concat (before : List Char) (c : Char) :
    behind (before ++ [c]) = (behind before).next c := by
  unfold behind next
  rw [List.reverse_concat, List.count_append, List.takeWhile_cons, List.count_singleton]
  by_cases hc : c = '\n'
  · simp [hc, Nat.add_assoc]
  · simp [hc, Nat.add_assoc]

theorem behind_append (before cs : List Char) :
    behind (before ++ cs) = (behind before).after cs := by
  induction cs generalizing before with
  | nil => rw [List.append_nil]; rfl
  | cons c cs ih =>
      rw [List.append_cons, ih, behind_concat]
      rfl

theorem after_start (cs : List Char) : start.after cs = behind cs := (behind_append [] cs).symm

theorem after_append (p : Position) (cs cs' : List Char) :
    p.after (cs ++ cs') = (p.after cs).after cs' := List.foldl_append

/-- Places are passed line by line and from left to right. -/
def Precedes (p q : Position) : Prop := p.line < q.line ∨ p.line = q.line ∧ p.column < q.column

theorem Precedes.trans {p q r : Position} (h : p.Precedes q) (h' : q.Precedes r) :
    p.Precedes r := by
  unfold Precedes at *
  omega

theorem not_precedes_self (p : Position) : ¬ p.Precedes p := by
  unfold Precedes
  omega

theorem precedes_next (p : Position) (c : Char) : p.Precedes (p.next c) := by
  unfold Precedes next
  split
  · exact .inl (Nat.lt_succ_self _)
  · exact .inr ⟨rfl, Nat.lt_succ_self _⟩

theorem precedes_after {p : Position} {cs : List Char} (h : cs ≠ []) :
    p.Precedes (p.after cs) := by
  induction cs generalizing p with
  | nil => exact absurd rfl h
  | cons c cs ih =>
      cases cs with
      | nil => exact precedes_next p c
      | cons c' cs => exact (precedes_next p c).trans (ih (List.cons_ne_nil c' cs))

theorem eq_nil_of_behind_append {before cs : List Char}
    (h : behind (before ++ cs) = behind before) : cs = [] := by
  by_contra hcs
  have hprecedes := precedes_after (p := behind before) hcs
  rw [← behind_append, h] at hprecedes
  exact not_precedes_self _ hprecedes

theorem eq_of_behind {text before before' : List Char} (h : before <+: text) (h' : before' <+: text)
    (heq : behind before = behind before') : before = before' := by
  obtain ⟨cs, rfl⟩ | ⟨cs, rfl⟩ := List.prefix_or_prefix_of_prefix h h'
  · rw [eq_nil_of_behind_append heq.symm, List.append_nil]
  · rw [eq_nil_of_behind_append heq, List.append_nil]

end Position

namespace Token

open Formulary.Text

/-- What may stand between two tokens: blanks, comments that end with their line, and comments that
end with the first mark that closes them. Only at the end of a text may a line that is a comment be
left without an end. -/
inductive IsTrivia (atEnd : Prop) : List Char → Prop
  | nil : IsTrivia atEnd []
  | blank {c : Char} {cs : List Char} (hblank : isBlank c = true) (hcs : IsTrivia atEnd cs) :
      IsTrivia atEnd (c :: cs)
  | lineComment {body cs : List Char} (hbody : '\n' ∉ body) (hcs : IsTrivia atEnd cs) :
      IsTrivia atEnd ('/' :: '/' :: (body ++ '\n' :: cs))
  | blockComment {body cs : List Char} (hbody : ¬ ['*', '/'] <:+: body)
      (hcs : IsTrivia atEnd cs) : IsTrivia atEnd ('/' :: '*' :: (body ++ '*' :: '/' :: cs))
  | lastLine {body : List Char} (hend : atEnd) (hbody : '\n' ∉ body) :
      IsTrivia atEnd ('/' :: '/' :: body)

/-- What a scan over blanks and comments passes from where it stands. -/
inductive Passes (atEnd : Prop) : TriviaMode → List Char → Prop
  | between {cs : List Char} (hcs : IsTrivia atEnd cs) : Passes atEnd .between cs
  | lineEnd {body cs : List Char} (hbody : '\n' ∉ body) (hcs : IsTrivia atEnd cs) :
      Passes atEnd .lineComment (body ++ '\n' :: cs)
  | lastLine {body : List Char} (hend : atEnd) (hbody : '\n' ∉ body) :
      Passes atEnd .lineComment body
  | blockEnd {start : Position} {body cs : List Char} (hbody : ¬ ['*', '/'] <:+: body)
      (hcs : IsTrivia atEnd cs) : Passes atEnd (.blockComment start) (body ++ '*' :: '/' :: cs)

namespace Passes

variable {atEnd : Prop} {cs : List Char}

theorem openLine (h : Passes atEnd .lineComment cs) :
    Passes atEnd .between ('/' :: '/' :: cs) := by
  cases h with
  | lineEnd hbody hcs => exact .between (.lineComment hbody hcs)
  | lastLine hend hbody => exact .between (.lastLine hend hbody)

theorem openBlock {start : Position} (h : Passes atEnd (.blockComment start) cs) :
    Passes atEnd .between ('/' :: '*' :: cs) := by
  cases h with
  | blockEnd hbody hcs => exact .between (.blockComment hbody hcs)

theorem blank {c : Char} (hblank : isBlank c = true) (h : Passes atEnd .between cs) :
    Passes atEnd .between (c :: cs) := by
  cases h with
  | between hcs => exact .between (.blank hblank hcs)

theorem closeLine (h : Passes atEnd .between cs) : Passes atEnd .lineComment ('\n' :: cs) := by
  cases h with
  | between hcs =>
      rw [← List.nil_append ('\n' :: cs)]
      exact .lineEnd List.not_mem_nil hcs

theorem inLine {c : Char} (hc : c ≠ '\n') (h : Passes atEnd .lineComment cs) :
    Passes atEnd .lineComment (c :: cs) := by
  cases h with
  | lineEnd hbody hcs =>
      rw [← List.cons_append]
      exact .lineEnd (List.not_mem_cons_of_ne_of_not_mem hc.symm hbody) hcs
  | lastLine hend hbody =>
      exact .lastLine hend (List.not_mem_cons_of_ne_of_not_mem hc.symm hbody)

theorem closeBlock {start : Position} (h : Passes atEnd .between cs) :
    Passes atEnd (.blockComment start) ('*' :: '/' :: cs) := by
  cases h with
  | between hcs =>
      rw [← List.nil_append ('*' :: '/' :: cs)]
      exact .blockEnd (by simp) hcs

theorem inBlock {start : Position} {c : Char} (h : Passes atEnd (.blockComment start) cs)
    (hc : ∀ tail, c = '*' → cs = '/' :: tail → False) :
    Passes atEnd (.blockComment start) (c :: cs) := by
  cases h with
  | blockEnd hbody hcs =>
      rw [← List.cons_append]
      refine .blockEnd (fun hinfix => ?_) hcs
      rcases List.infix_cons_iff.1 hinfix with ⟨tail, heq⟩ | hinfix
      · obtain ⟨rfl, rfl⟩ := List.cons.inj heq
        exact hc _ rfl rfl
      · exact hbody hinfix

end Passes

theorem passes_of_skipTrivia {mode : TriviaMode} {p q : Position} {cs rest : List Char}
    (h : skipTrivia mode p cs = .ok (q, rest)) :
    ∃ gap, cs = gap ++ rest ∧ q = p.after gap ∧ Passes (rest = []) mode gap := by
  fun_induction skipTrivia mode p cs with
  | case1 p =>
      cases h
      exact ⟨[], rfl, rfl, .between .nil⟩
  | case2 p cs ih =>
      obtain ⟨gap, rfl, rfl, hgap⟩ := ih h
      exact ⟨'/' :: '/' :: gap, rfl, rfl, hgap.openLine⟩
  | case3 p cs ih =>
      obtain ⟨gap, rfl, rfl, hgap⟩ := ih h
      exact ⟨'/' :: '*' :: gap, rfl, rfl, hgap.openBlock⟩
  | case4 p c cs _ _ hblank ih =>
      obtain ⟨gap, rfl, rfl, hgap⟩ := ih h
      exact ⟨c :: gap, rfl, rfl, hgap.blank hblank⟩
  | case5 p c cs =>
      cases h
      exact ⟨[], rfl, rfl, .between .nil⟩
  | case6 p =>
      cases h
      exact ⟨[], rfl, rfl, .lastLine rfl List.not_mem_nil⟩
  | case7 p c cs ih =>
      obtain ⟨gap, rfl, rfl, hgap⟩ := ih h
      refine ⟨c :: gap, rfl, rfl, ?_⟩
      split at hgap
      · rename_i hc
        rw [hc]
        exact hgap.closeLine
      · rename_i hc
        exact hgap.inLine hc
  | case8 => cases h
  | case9 start p cs ih =>
      obtain ⟨gap, rfl, rfl, hgap⟩ := ih h
      exact ⟨'*' :: '/' :: gap, rfl, rfl, hgap.closeBlock⟩
  | case10 start p c cs hopen ih =>
      obtain ⟨gap, rfl, rfl, hgap⟩ := ih h
      refine ⟨c :: gap, rfl, rfl, hgap.inBlock fun tail hc hgap => hopen (tail ++ rest) hc ?_⟩
      rw [hgap]
      rfl

theorem trivia_of_skipTrivia {p q : Position} {cs rest : List Char}
    (h : skipTrivia .between p cs = .ok (q, rest)) :
    ∃ gap, cs = gap ++ rest ∧ q = p.after gap ∧ IsTrivia (rest = []) gap := by
  obtain ⟨gap, hcs, hq, hgap⟩ := passes_of_skipTrivia h
  cases hgap with
  | between hgap => exact ⟨gap, hcs, hq, hgap⟩

theorem ne_endOfInput_of_mem_keywords : ∀ entry ∈ keywords, entry.2 ≠ .endOfInput := by decide

theorem wordKind_ne_endOfInput (word : String) : wordKind word ≠ .endOfInput := by
  intro h
  unfold wordKind at h
  split at h
  · cases h
  · cases hkind : keywords.lookup word with
    | none =>
        rw [hkind] at h
        cases h
    | some kind =>
        rw [hkind, Option.getD_some] at h
        obtain ⟨front, back, hkeywords, -⟩ := List.lookup_eq_some_iff.1 hkind
        exact ne_endOfInput_of_mem_keywords (word, kind) (by simp [hkeywords]) h

theorem symbolKind?_ne_endOfInput {c : Char} {kind : Kind} (h : symbolKind? c = some kind) :
    kind ≠ .endOfInput := by
  unfold symbolKind? at h
  split at h
  all_goals first
    | cases h; decide
    | cases h

theorem ne_endOfInput_of_scanLexeme {c : Char} {cs text rest : List Char} {kind : Kind}
    (h : scanLexeme c cs = .ok (kind, text, rest)) : kind ≠ .endOfInput := by
  unfold scanLexeme at h
  split at h
  · cases h
    decide
  · cases h
    decide
  · cases h
    decide
  · split at h
    · cases h
    · split at h
      · cases h
        decide
      · cases h
  · split at h
    · rename_i hsymbol
      cases h
      exact symbolKind?_ne_endOfInput hsymbol
    · split at h
      · cases h
        decide
      · split at h
        · cases h
          exact wordKind_ne_endOfInput _
        · cases h

theorem ne_nil_of_scanLexeme {c : Char} {cs text rest : List Char} {kind : Kind}
    (h : scanLexeme c cs = .ok (kind, text, rest)) : text ≠ [] := by
  rintro rfl
  have hlength := scanLexeme_length_lt h
  rw [← scanLexeme_append h] at hlength
  exact Nat.lt_irrefl _ hlength

/-- A token and the blanks and comments in front of it. -/
structure Piece where
  gap : List Char
  token : Token

namespace Piece

/-- A piece as it is written. -/
def text (piece : Piece) : List Char := piece.gap ++ piece.token.lexeme.toList

/-- A piece behind a text that ends at a position. -/
structure StandsAt (piece : Piece) (p : Position) : Prop where
  isTrivia : IsTrivia False piece.gap
  kind_ne : piece.token.kind ≠ .endOfInput
  lexeme_ne : piece.token.lexeme ≠ ""
  position_eq : piece.token.position = p.after piece.gap

end Piece

/-- What is written up to the last of some pieces. -/
def written (pieces : List Piece) : List Char := pieces.flatMap Piece.text

theorem standsAt_of_scanLexeme {p : Position} {gap : List Char} {c : Char}
    {cs text rest : List Char} {kind : Kind} (hgap : IsTrivia False gap)
    (h : scanLexeme c cs = .ok (kind, text, rest)) :
    (Piece.mk gap ⟨kind, String.ofList text, p.after gap⟩).StandsAt p where
  isTrivia := hgap
  kind_ne := ne_endOfInput_of_scanLexeme h
  lexeme_ne := fun heq => ne_nil_of_scanLexeme h (String.ofList_eq_empty_iff.1 heq)
  position_eq := rfl

theorem exists_pieces_of_tokensFrom {p : Position} {cs : List Char} {tokens : List Token}
    (h : tokensFrom p cs = .ok tokens) :
    ∃ (pieces : List Piece) (tail : List Char),
      cs = written pieces ++ tail ∧ IsTrivia True tail ∧
      tokens = pieces.map Piece.token ++ [⟨.endOfInput, "", p.after cs⟩] ∧
      ∀ (front : List Piece) (piece : Piece) (back : List Piece),
        pieces = front ++ piece :: back → piece.StandsAt (p.after (written front)) := by
  fun_induction tokensFrom p cs generalizing tokens with
  | case1 => cases h
  | case2 p cs q htrivia =>
      obtain ⟨gap, hcs, rfl, hgap⟩ := trivia_of_skipTrivia htrivia
      rw [List.append_nil] at hcs
      cases h
      refine ⟨[], gap, hcs, ?_, ?_, ?_⟩
      · rwa [eq_true rfl] at hgap
      · rw [hcs]
        rfl
      · intro front piece back heq
        simp at heq
  | case3 => cases h
  | case4 p cs q c rest htrivia kind text rest' hlexeme ih =>
      obtain ⟨gap, hcs, rfl, hgap⟩ := trivia_of_skipTrivia htrivia
      rw [eq_false (List.cons_ne_nil c rest)] at hgap
      obtain ⟨others, hothers, rfl⟩ := exists_of_map_ok h
      obtain ⟨pieces, tail, hrest', htail, htokens, hpieces⟩ := ih hothers
      have hpiece := standsAt_of_scanLexeme (p := p) hgap hlexeme
      have hcs' : cs = gap ++ text ++ rest' := by
        rw [hcs, ← scanLexeme_append hlexeme, List.append_assoc]
      refine ⟨⟨gap, kind, String.ofList text, p.after gap⟩ :: pieces, tail, ?_, htail, ?_, ?_⟩
      · rw [hcs', hrest']
        simp [written, Piece.text]
      · rw [htokens, hcs', Position.after_append, Position.after_append]
        rfl
      · intro front piece back heq
        cases front with
        | nil =>
            cases heq
            exact hpiece
        | cons first front =>
            obtain ⟨rfl, hpieces'⟩ := List.cons.inj heq
            have hstands := hpieces front piece back hpieces'
            rw [← Position.after_append, ← Position.after_append] at hstands
            simpa [written, Piece.text] using hstands

end Token

open Token Text

/-- Nothing is lost when a text is split into tokens, and positions are exact. The text is the gaps
and lexemes of the tokens one after the other, and blanks and comments behind the last of them; the
end of input stands last and only there. A gap is blanks and comments only, and the position of a
token is one line more than have ended in front of its lexeme, and one column more than there are
characters since the last of these ends: no other place of the text has it. -/
theorem exists_layout_of_tokenize {source : String} {tokens : List Token}
    (h : tokenize source = .ok tokens) :
    ∃ (pieces : List Piece) (tail : List Char),
      canonical source.toList = written pieces ++ tail ∧ IsTrivia True tail ∧
      tokens = pieces.map Piece.token ++
        [⟨.endOfInput, "", .behind (canonical source.toList)⟩] ∧
      ∀ (front : List Piece) (piece : Piece) (back : List Piece),
        pieces = front ++ piece :: back →
          IsTrivia False piece.gap ∧ piece.token.kind ≠ .endOfInput ∧ piece.token.lexeme ≠ "" ∧
          piece.token.position = .behind (written front ++ piece.gap) ∧
          ∀ before : List Char, before <+: canonical source.toList →
            piece.token.position = .behind before → before = written front ++ piece.gap := by
  obtain ⟨pieces, tail, htext, htail, htokens, hpieces⟩ := exists_pieces_of_tokensFrom h
  rw [Position.after_start] at htokens
  refine ⟨pieces, tail, htext, htail, htokens, fun front piece back heq => ?_⟩
  obtain ⟨hgap, hkind, hlexeme, hposition⟩ := hpieces front piece back heq
  rw [← Position.after_append, Position.after_start] at hposition
  refine ⟨hgap, hkind, hlexeme, hposition, fun before hbefore hplace => ?_⟩
  refine Position.eq_of_behind hbefore ?_ (hplace.symm.trans hposition)
  rw [htext, heq]
  exact ⟨piece.token.lexeme.toList ++ (written back ++ tail), by simp [written, Piece.text]⟩

theorem exists_layout_of_tokenize_comments :
    tokenize "/* a\n */ x-> // b\n 1.5 //" =
      .ok [⟨.identifier, "x", ⟨2, 5⟩⟩, ⟨.arrow, "->", ⟨2, 6⟩⟩, ⟨.number, "1.5", ⟨3, 2⟩⟩,
        ⟨.endOfInput, "", ⟨3, 8⟩⟩] ∧
    ∃ (pieces : List Piece) (tail : List Char),
      canonical "/* a\n */ x-> // b\n 1.5 //".toList =
        written pieces ++ tail ∧ IsTrivia True tail ∧ pieces.length = 3 := by
  have htokens : tokenize "/* a\n */ x-> // b\n 1.5 //" =
      .ok [⟨.identifier, "x", ⟨2, 5⟩⟩, ⟨.arrow, "->", ⟨2, 6⟩⟩, ⟨.number, "1.5", ⟨3, 2⟩⟩,
        ⟨.endOfInput, "", ⟨3, 8⟩⟩] := by cbv
  obtain ⟨pieces, tail, htext, htail, hpieces, -⟩ := exists_layout_of_tokenize htokens
  refine ⟨htokens, pieces, tail, htext, htail, ?_⟩
  simpa using congrArg List.length hpieces

end Formulary
