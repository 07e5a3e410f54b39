import Formulary.CommandLine.Console
import Formulary.CommandLine.History
import Formulary.Text.Blank

/-!
An interactive session. Lines are collected until they can be read, or cannot be read for another
reason than that they end too early. An input is a command, declarations or an expression.
-/

namespace Formulary.CommandLine

/-- The prompt for a new input. -/
def mainPrompt : String := "kleis> "

/-- The prompt for more of an input. -/
def continuationPrompt : String := "  ...> "

def greeting : String := "Kleis REPL. Ctrl+D exits. Type :help for commands."

def helpText : String :=
  "REPL commands:
  :type <expr>        Show the type of an expression without evaluating it
  :axioms <structure> List the axioms of a structure
  :defines            List loaded definitions and their types
  :load <file>        Load declarations from a file
  :quit               Exit the REPL
Lines starting with data, structure, implements or define are loaded as declarations.
"

/-- What is before the first space of a text, and what is behind it. -/
def cutAtSpace (s : String) : String × String :=
  let cs := s.toList
  (String.ofList (cs.takeWhile (· ≠ ' ')), String.ofList ((cs.dropWhile (· ≠ ' ')).drop 1))

def trimmed (s : String) : String := String.ofList (Text.trimBlanks s.toList)

/-- An input for the session itself. -/
def isCommand (input : String) : Bool := input.toList.head? = some ':'

/-- An input whose first word starts a declaration. -/
def isDeclaration (input : String) : Bool :=
  (cutAtSpace input).1 ∈ ["data", "structure", "implements", "define"]

/-- Whether no further line is needed to respond to an input. -/
def isComplete (input : String) : Bool :=
  let error? := if isDeclaration (trimmed input) then
      (match Declaration.parseAll input with
        | .error e => some e
        | .ok _ => none)
    else
      match Expr.parse input with
      | .error e => some e
      | .ok _ => none
  isCommand (trimmed input) || !error?.any (·.isIncomplete)

structure Session where
  console : Console
  /-- The lines of an input that is not complete. -/
  pending : String
  history : History

namespace Session

/-- What a session waits for. -/
inductive Wait where
  | line
  /-- The contents of a file. -/
  | file (name : String)
  /-- Nothing: it is over. -/
  | over

/-- Steps of a session. -/
abbrev Act := StateM Session

def atConsole {α : Type} (steps : Console.Act α) : Act α := do
  let s ← get
  let (result, console) := steps.run s.console
  set { s with console }
  return result

/-- Prints the axioms of a structure. -/
def listAxioms (name : String) : Console.Act Unit := do
  let axioms := (← get).checker.axioms name
  if axioms.isEmpty then Console.printLine (name ++ " declares no axioms")
  axioms.forM fun ax => Console.printLine (ax.name ++ " : " ++ ax.body.render)

/-- Does what a command asks for. -/
def command (input : String) : Act Wait := do
  let (name, rest) := cutAtSpace input
  let arg := trimmed rest
  match name with
  | ":quit" | ":q" => return .over
  | ":help" => atConsole (Console.print helpText)
  | ":type" | ":t" => let _ ← atConsole (Console.checkExpr arg)
  | ":axioms" => atConsole (listAxioms arg)
  | ":defines" => atConsole Console.listDefinitions
  | ":load" => return .file arg
  | _ =>
    atConsole (Console.printLine ("unknown command " ++ name ++ ". Type :help for commands."))
  return .line

/-- Responds to an input. -/
def respond (input : String) : Act Wait := do
  if input.isEmpty then return .line
  modify fun s => { s with
    history := s.history.add (String.ofList (input.toList.map fun c => if c = '\n' then ' ' else c)) }
  if isCommand input then command input
  else if isDeclaration input then
    let result ← atConsole (Console.run (Checker.loadSource "repl" input))
    let _ ← atConsole (result |> Console.orComplain fun () => return 0)
    return .line
  else
    let _ ← atConsole (Console.evalExpr input)
    return .line

/-- Takes a line. -/
def feed (line : String) : Act Wait := do
  let s ← get
  let input := if s.pending.isEmpty then line else s.pending ++ "\n" ++ line
  if isComplete input then
    set { s with pending := "" }
    respond (trimmed input)
  else
    set { s with pending := input }
    return .line

/-- Takes the contents of a file. -/
def feedFile (name : String) (contents : Except FileError String) : Act Unit := do
  let _ ← atConsole (Console.loadFile name contents)

/-- Prints the prompt for the next line. -/
def prompt : Act Unit := do
  let s ← get
  atConsole (Console.print (if s.pending.isEmpty then mainPrompt else continuationPrompt))

/-- Ends the session where the input ends. -/
def finish : Act Unit := atConsole (Console.printLine "")

/-- Begins a session. -/
def start (console : Console) (history : History) : Session :=
  ((atConsole (Console.printLine greeting)).run ⟨console, "", history⟩).2

/-- Takes all lines of an input, with the files that commands may ask for. -/
def feedAll (files : String → Except FileError String) : List String → Act Unit
  | [] => do
    prompt
    finish
  | line :: rest => do
    prompt
    match ← feed line with
    | .line => feedAll files rest
    | .file name =>
      feedFile name (files name)
      feedAll files rest
    | .over => return ()

end Session

end Formulary.CommandLine
