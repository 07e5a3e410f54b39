import Formulary.CommandLine.Session
import Formulary.Proofs.Lines

/-!
Entries of several lines in a session. A session decides with each line whether it waits for more,
and it decides by the first word, up to a space, what it reads the lines as.
-/

namespace Formulary.Text

theorem isBlank_of_mem_takeWhile {cs : List Char} {c : Char} (h : c ∈ cs.takeWhile isBlank) :
    isBlank c = true := by
  simpa using List.mem_takeWhile_imp h

theorem trimBlanks_line {cs : List Char} (h : trimBlanks cs ≠ []) (ds : List Char) :
    ∃ more, trimBlanks (cs ++ '\n' :: ds) = trimBlanks cs ++ more ∧
      ∀ c ∈ more.head?, isBlank c = true := by
  have hfront : cs.dropWhile isBlank ≠ [] := by
    intro hnil
    rw [trimBlanks, hnil] at h
    exact h rfl
  have hsplit : cs.dropWhile isBlank =
      trimBlanks cs ++ ((cs.dropWhile isBlank).reverse.takeWhile isBlank).reverse := by
    rw [trimBlanks, ← List.reverse_append, List.takeWhile_append_dropWhile, List.reverse_reverse]
  have hblanks : ∀ c ∈ ((cs.dropWhile isBlank).reverse.takeWhile isBlank).reverse,
      isBlank c = true := fun c hc => isBlank_of_mem_takeWhile (List.mem_reverse.1 hc)
  generalize ((cs.dropWhile isBlank).reverse.takeWhile isBlank).reverse = blanks at hsplit hblanks
  -- what is trimmed off behind the line is behind the text before it
  have hlast : (trimBlanks cs).reverse.dropWhile isBlank = (trimBlanks cs).reverse := by
    rw [trimBlanks, List.reverse_reverse, List.dropWhile_idempotent]
  refine ⟨((blanks ++ '\n' :: ds).reverse.dropWhile isBlank).reverse, ?_, fun c hc => ?_⟩
  · have hdrop :
        (cs ++ '\n' :: ds).dropWhile isBlank = trimBlanks cs ++ (blanks ++ '\n' :: ds) := by
      rw [List.dropWhile_append, if_neg (by simpa using hfront), hsplit, List.append_assoc]
    rw [trimBlanks, hdrop, List.reverse_append, List.dropWhile_append]
    split
    · rename_i hempty
      rw [List.isEmpty_iff.1 hempty, hlast]
      simp
    · rw [List.reverse_append, List.reverse_reverse]
  · have hprefix : ((blanks ++ '\n' :: ds).reverse.dropWhile isBlank).reverse <+:
        blanks ++ '\n' :: ds := by
      rw [← List.reverse_suffix, List.reverse_reverse]
      exact List.dropWhile_suffix _
    obtain ⟨rest, hrest⟩ := hprefix
    have hhead : (blanks ++ '\n' :: ds).head? = some c := by
      rw [← hrest, List.head?_append, Option.mem_def.1 hc]
      rfl
    cases blanks with
    | nil =>
        cases hhead
        decide
    | cons b blanks =>
        cases hhead
        exact hblanks c List.mem_cons_self

end Formulary.Text

namespace Formulary.CommandLine

/-- The words that a declaration starts with. -/
def declarationWords : List String := ["data", "structure", "implements", "define"]

theorem isDeclaration_eq (input : String) :
    isDeclaration input = ((cutAtSpace input).1 ∈ declarationWords : Bool) := rfl

/-- Why an input cannot be read as what it is taken for. -/
def readError? (declarations : Bool) (input : String) : Option ParseError :=
  if declarations then
    match Declaration.parseAll input with
    | .error e => some e
    | .ok _ => none
  else
    match Expr.parse input with
    | .error e => some e
    | .ok _ => none

theorem isComplete_eq (input : String) : isComplete input = (isCommand (trimmed input) ||
    !(readError? (isDeclaration (trimmed input)) input).any (·.isIncomplete)) := rfl

/-- Whether an input can be read as declarations, or as an expression. -/
def Reads (declarations : Bool) (input : String) : Prop := readError? declarations input = none

theorem reads_true_iff {input : String} :
    Reads true input ↔ ∃ ds, Declaration.parseAll input = .ok ds := by
  rw [Reads, readError?, if_pos rfl]
  cases Declaration.parseAll input with
  | ok ds => simp
  | error e => simp

theorem reads_false_iff {input : String} : Reads false input ↔ ∃ e, Expr.parse input = .ok e := by
  rw [Reads, readError?, if_neg Bool.false_ne_true]
  cases Expr.parse input with
  | ok e => simp
  | error e => simp

/-- A session that has taken an input does not wait for more of it, but gives it back as one that
cannot be read. -/
def Refuses (input : String) : Prop :=
  isCommand (trimmed input) = false ∧
    ∃ e, readError? (isDeclaration (trimmed input)) input = some e ∧ e.isIncomplete = false

theorem reads_or_isIncomplete {declarations : Bool} {front back : String}
    (hsplits : SplitsAtLine front back) (h : Reads declarations (front ++ "\n" ++ back)) :
    Reads declarations front ∨
      ∃ e, readError? declarations front = some e ∧ e.isIncomplete = true := by
  cases declarations with
  | true =>
      obtain ⟨ds, h⟩ := reads_true_iff.1 h
      refine (Declaration.continuable_of_parseAll hsplits h).imp reads_true_iff.2
        fun ⟨e, herror, hmore⟩ => ⟨e, ?_, hmore⟩
      rw [readError?, if_pos rfl, herror]
  | false =>
      obtain ⟨e, h⟩ := reads_false_iff.1 h
      refine (Expr.continuable_of_parse hsplits h).imp reads_false_iff.2
        fun ⟨e, herror, hmore⟩ => ⟨e, ?_, hmore⟩
      rw [readError?, if_neg Bool.false_ne_true, herror]

theorem not_refuses {front back : String} (hsplits : SplitsAtLine front back)
    (h : Reads (isDeclaration (trimmed front)) (front ++ "\n" ++ back)) : ¬Refuses front := by
  rintro ⟨-, e, herror, hfinal⟩
  rcases reads_or_isIncomplete hsplits h with hreads | ⟨e', herror', hmore⟩
  · cases herror.symm.trans hreads
  · cases herror.symm.trans herror'
    cases hfinal.symm.trans hmore

theorem isComplete_of_isIncomplete {input : String} {e : ParseError}
    (hcommand : isCommand (trimmed input) = false)
    (herror : readError? (isDeclaration (trimmed input)) input = some e)
    (hmore : e.isIncomplete = true) : isComplete input = false := by
  rw [isComplete_eq, hcommand, herror, Option.any_some, hmore]
  rfl

theorem toList_trimmed (s : String) : (trimmed s).toList = Text.trimBlanks s.toList :=
  String.toList_ofList

theorem toList_ne_nil_of_trimmed {s : String} (h : trimmed s ≠ "") :
    Text.trimBlanks s.toList ≠ [] := by
  rw [← toList_trimmed]
  intro hnil
  exact h (String.toList_inj.1 hnil)

theorem isBlank_of_mem_declarationWords {word : String} (h : word ∈ declarationWords) {c : Char}
    (hc : c ∈ word.toList) : Text.isBlank c = false := by
  have hall :
      declarationWords.all (fun word => word.toList.all fun c => !Text.isBlank c) = true := by
    cbv
  simpa using List.all_eq_true.1 (List.all_eq_true.1 hall word h) c hc

theorem isDeclaration_line {front : String} (hfront : trimmed front ≠ "")
    (hword : trimmed front ∉ declarationWords) (back : String) :
    isDeclaration (trimmed (front ++ "\n" ++ back)) = isDeclaration (trimmed front) := by
  obtain ⟨more, hmore, hblank⟩ :=
    Text.trimBlanks_line (toList_ne_nil_of_trimmed hfront) back.toList
  have hlines : (trimmed (front ++ "\n" ++ back)).toList = (trimmed front).toList ++ more := by
    rw [toList_trimmed, toList_trimmed, ← hmore, String.toList_append, String.toList_append,
      List.append_assoc]
    rfl
  rw [isDeclaration_eq, isDeclaration_eq, cutAtSpace, cutAtSpace, hlines]
  by_cases hspace : (trimmed front).toList.all (· ≠ ' ') = true
  · have htake : (trimmed front).toList.takeWhile (· ≠ ' ') = (trimmed front).toList :=
      List.takeWhile_eq_self_iff.2 (List.all_eq_true.1 hspace)
    rw [List.takeWhile_append, if_pos (by rw [htake]), htake, String.ofList_toList,
      decide_eq_false hword, decide_eq_false_iff_not]
    cases more with
    | nil => simpa using hword
    | cons c more =>
        have hc : Text.isBlank c = true := hblank c rfl
        by_cases hcspace : c = ' '
        · subst hcspace
          simpa using hword
        · intro hmem
          have hnot := isBlank_of_mem_declarationWords hmem (c := c) (by simp [hcspace])
          cases hc.symm.trans hnot
  · have hlength : ¬((trimmed front).toList.takeWhile (· ≠ ' ')).length =
        (trimmed front).toList.length := by
      intro hlength
      refine hspace (List.all_eq_true.2 (List.takeWhile_eq_self_iff.1 ?_))
      exact (List.takeWhile_prefix _).eq_of_length hlength
    rw [List.takeWhile_append, if_neg hlength]

theorem isCommand_line {front : String} (hfront : trimmed front ≠ "") (back : String) :
    isCommand (trimmed (front ++ "\n" ++ back)) = isCommand (trimmed front) := by
  have hnil := toList_ne_nil_of_trimmed hfront
  obtain ⟨more, hmore, -⟩ := Text.trimBlanks_line hnil back.toList
  have hlines : (front ++ "\n" ++ back).toList = front.toList ++ '\n' :: back.toList := by
    rw [String.toList_append, String.toList_append, List.append_assoc]
    rfl
  rw [isCommand, isCommand, toList_trimmed, toList_trimmed, hlines, hmore,
    List.head?_append_of_ne_nil _ hnil]

/-- What has been entered with some more lines. -/
def lines (first : String) (rest : List String) : String :=
  rest.foldl (fun input line => input ++ "\n" ++ line) first

theorem lines_line (input line : String) (back : List String) :
    lines (input ++ "\n" ++ line) back = input ++ "\n" ++ lines line back := by
  induction back generalizing line with
  | nil => rfl
  | cons next back ih =>
      have hnext := ih (line ++ "\n" ++ next)
      simp only [String.append_assoc] at hnext
      simpa only [lines, List.foldl_cons, String.append_assoc] using hnext

theorem lines_append (first : String) (front : List String) (line : String) (back : List String) :
    lines first (front ++ line :: back) = lines first front ++ "\n" ++ lines line back := by
  rw [← lines_line, lines, List.foldl_append]
  rfl

theorem isDeclaration_lines {first : String} (hfirst : trimmed first ≠ "")
    (hword : trimmed first ∉ declarationWords) (rest : List String) :
    isDeclaration (trimmed (lines first rest)) = isDeclaration (trimmed first) := by
  cases rest with
  | nil => rfl
  | cons line back =>
      rw [show line :: back = [] ++ line :: back from rfl, lines_append]
      exact isDeclaration_line hfirst hword _

theorem isCommand_lines {first : String} (hfirst : trimmed first ≠ "") (rest : List String) :
    isCommand (trimmed (lines first rest)) = isCommand (trimmed first) := by
  cases rest with
  | nil => rfl
  | cons line back =>
      rw [show line :: back = [] ++ line :: back from rfl, lines_append]
      exact isCommand_line hfirst _

theorem lines_ne_empty {first : String} (hfirst : first ≠ "") (rest : List String) :
    lines first rest ≠ "" := by
  cases rest with
  | nil => exact hfirst
  | cons line back =>
      rw [show line :: back = [] ++ line :: back from rfl, lines_append]
      simp

namespace Session

/-- What is entered with one more line. -/
def entered (s : Session) (line : String) : String :=
  if s.pending.isEmpty then line else s.pending ++ "\n" ++ line

theorem feed_of_not_isComplete (s : Session) (line : String)
    (h : isComplete (s.entered line) = false) :
    (feed line).run s = (.line, { s with pending := s.entered line }) := by
  rw [feed, StateT.run_bind, StateT.run_get]
  change StateT.run (if isComplete (s.entered line) = true then _ else _) s = _
  rw [h]
  rfl

theorem feed_of_refuses {s : Session} {line : String} (h : Refuses (s.entered line)) :
    (feed line).run s = (respond (trimmed (s.entered line))).run { s with pending := "" } := by
  obtain ⟨hcommand, e, herror, hfinal⟩ := h
  have hcomplete : isComplete (s.entered line) = true := by
    rw [isComplete_eq, hcommand, herror, Option.any_some, hfinal]
    rfl
  rw [feed, StateT.run_bind, StateT.run_get]
  change StateT.run (if isComplete (s.entered line) = true then _ else _) s = _
  rw [hcomplete, if_pos rfl, StateT.run_bind, StateT.run_set]
  rfl

/-- A session after some lines. -/
def after (s : Session) (ls : List String) : Session :=
  ls.foldl (fun s line => ((feed line).run s).2) s

theorem after_append (s : Session) (ls ls' : List String) :
    s.after (ls ++ ls') = (s.after ls).after ls' := List.foldl_append

theorem after_lines {s : Session} (hs : s.pending = "") {first : String} {rest : List String}
    (hfirst : trimmed first ≠ "") (hword : trimmed first ∉ declarationWords)
    (hcommand : isCommand (trimmed first) = false)
    (hreads : Reads (isDeclaration (trimmed first)) (lines first rest))
    (hsplits : ∀ front line back, rest = front ++ line :: back →
      SplitsAtLine (lines first front) (lines line back))
    {front back : List String} {line : String} (hrest : rest = front ++ line :: back) :
    (∃ front', front' <+: front ∧ Reads (isDeclaration (trimmed first)) (lines first front')) ∨
      s.after (first :: front) = { s with pending := lines first front } := by
  -- a front that cannot be read is waited for
  have hwaits {front back : List String} {line : String} (hrest : rest = front ++ line :: back) :
      Reads (isDeclaration (trimmed first)) (lines first front) ∨
        isComplete (lines first front) = false := by
    rw [hrest, lines_append] at hreads
    refine (reads_or_isIncomplete (hsplits _ _ _ hrest) hreads).imp_right ?_
    rintro ⟨e, herror, hmore⟩
    refine isComplete_of_isIncomplete ?_ ?_ hmore
    · rw [isCommand_lines hfirst, hcommand]
    · rw [isDeclaration_lines hfirst hword, herror]
  have hne : first ≠ "" := by
    rintro rfl
    exact hfirst rfl
  induction front using List.reverseRecOn generalizing line back with
  | nil =>
      refine (hwaits hrest).imp (fun h => ⟨[], List.prefix_rfl, h⟩) fun h => ?_
      have hentered : s.entered first = first := by rw [entered, hs]; rfl
      have hfeed := feed_of_not_isComplete s first (by rw [hentered]; exact h)
      rw [after, List.foldl_cons, List.foldl_nil, hfeed, hentered]
      rfl
  | append_singleton front l ih =>
      have hrest' : rest = front ++ l :: line :: back := by
        rw [hrest, List.append_assoc, List.singleton_append]
      rcases ih hrest' with ⟨front', hprefix, h⟩ | hafter
      · exact .inl ⟨front', hprefix.trans (List.prefix_append _ _), h⟩
      refine (hwaits hrest).imp (fun h => ⟨_, List.prefix_rfl, h⟩) fun h => ?_
      have hentered : entered { s with pending := lines first front } l =
          lines first (front ++ [l]) := by
        rw [entered, if_neg (by simpa using lines_ne_empty hne front), lines_append]
        rfl
      have hfeed := feed_of_not_isComplete { s with pending := lines first front } l
        (by rw [hentered]; exact h)
      rw [← List.cons_append, after_append, hafter, after, List.foldl_cons, List.foldl_nil, hfeed,
        hentered]

end Session

/-- What has been entered of an expression, or of declarations, up to the end of a line can be read
itself, or more is expected. A session does not refuse it if the whole can be read as what the session
takes the front for. -/
theorem continuable_of_lines {front back : String} (hsplits : SplitsAtLine front back) :
    ((∃ e, Expr.parse (front ++ "\n" ++ back) = .ok e) → Continuable (Expr.parse front)) ∧
    ((∃ ds, Declaration.parseAll (front ++ "\n" ++ back) = .ok ds) →
      Continuable (Declaration.parseAll front)) ∧
    (Reads (isDeclaration (trimmed front)) (front ++ "\n" ++ back) → ¬Refuses front) :=
  ⟨fun ⟨_, h⟩ => Expr.continuable_of_parse hsplits h,
    fun ⟨_, h⟩ => Declaration.continuable_of_parseAll hsplits h, not_refuses hsplits⟩

set_option maxRecDepth 4000 in
theorem continuable_of_lines_broken :
    Continuable (Expr.parse "f(x,") ∧ Continuable (Declaration.parseAll "data B = T /* or") ∧
      ¬Refuses "data B = T /* or" := by
  have hcall : SplitsAtLine "f(x," "y)" := splitsAtLine_of_all_lt (by decide) (by decide)
  have hdata : SplitsAtLine "data B = T /* or" "*/ | F" :=
    splitsAtLine_of_all_lt (by decide) (by decide)
  have hreads : ∃ ds, Declaration.parseAll "data B = T /* or\n*/ | F" = .ok ds :=
    ⟨[.data ⟨"B", [], [⟨"T", []⟩, ⟨"F", []⟩]⟩], by cbv⟩
  have hkind : isDeclaration (trimmed "data B = T /* or") = true := by cbv
  refine ⟨(continuable_of_lines hcall).1 ⟨.operation "f" [.object "x", .object "y"], by cbv⟩,
    (continuable_of_lines hdata).2.1 hreads, (continuable_of_lines hdata).2.2 ?_⟩
  rw [hkind]
  exact reads_true_iff.2 hreads

set_option maxRecDepth 4000 in
theorem refuses_after_lone_word :
    let s := Session.start ⟨.empty ⟨false, false, 0, true, false⟩, false, "", ""⟩ []
    (∃ ds, Declaration.parseAll "data\nB = T |\nF" = .ok ds) ∧
      SplitsAtLine "data\nB = T |" "F" ∧ s.after ["data"] = { s with pending := "data" } ∧
      (s.after ["data"]).entered "B = T |" = "data\nB = T |" ∧ Refuses "data\nB = T |" := by
  intro s
  have hafter : s.after ["data"] = { s with pending := "data" } := by
    have hwaits : isComplete "data" = false := by cbv
    exact congrArg (·.2) (Session.feed_of_not_isComplete s "data" hwaits)
  have hkind : isDeclaration (trimmed "data\nB = T |") = false := by cbv
  have herror : readError? false "data\nB = T |" =
      some ⟨.start, .expectedExpression (.token ⟨.dataWord, "data", .start⟩)⟩ := by cbv
  refine ⟨⟨[.data ⟨"B", [], [⟨"T", []⟩, ⟨"F", []⟩]⟩], by cbv⟩,
    splitsAtLine_of_all_lt (by decide) (by decide), hafter, by rw [hafter]; rfl, by cbv, ?_⟩
  rw [hkind]
  exact ⟨_, herror, rfl⟩

end Formulary.CommandLine
