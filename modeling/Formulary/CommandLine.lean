import Formulary.CommandLine.Flags
import Formulary.CommandLine.Session

namespace Formulary.CommandLine

/-- How a run ends. -/
structure Outcome where
  code : Nat
  stdout : String
  stderr : String

/-- What a run is about. -/
inductive Task where
  /-- Print the type of an expression, or of all definitions. -/
  | check (expr : Option String)
  | eval (expr : String)
  | repl

/-- What a command line asks for. -/
structure Request where
  flags : Flags
  /-- The file to load first, or nothing. -/
  file : String
  task : Task

inductive Command where
  | check
  | eval
  | repl

namespace Command

def name : Command → String
  | .check => "check"
  | .eval => "eval"
  | .repl => "repl"

/-- How the arguments of a command are written. -/
def synopsis : Command → String
  | .check => "check [flags] <file.kleis> [expr]"
  | .eval => "eval [flags] <file.kleis> <expr>"
  | .repl => "repl [flags] [file.kleis]"

/-- What a command is asked for with the arguments after the flags. -/
def request? (command : Command) (flags : Flags) (args : List String) : Option Request :=
  match command, args with
  | .check, [file] => some ⟨flags, file, .check none⟩
  | .check, [file, expr] => some ⟨flags, file, .check (some expr)⟩
  | .check, _ => none
  | .eval, [file, expr] => some ⟨flags, file, .eval expr⟩
  | .eval, _ => none
  | .repl, args => some ⟨flags, args.head?.getD "", .repl⟩

/-- What a command is asked for, or how the run ends if it cannot be told. -/
def request (command : Command) (args : List String) : Except Outcome Request :=
  match parseFlags .default args with
  | .error e =>
    let complaint := match e.message? with
      | some message => message ++ "\n"
      | none => ""
    .error ⟨2, "", complaint ++ describeFlags command.name⟩
  | .ok (flags, args) =>
    match command.request? flags args with
    | some request => .ok request
    | none => .error ⟨2, "", "usage: " ++ programName ++ " " ++ command.synopsis ++ "\n"⟩

end Command

def usage : String :=
  "Usage:
  kleis check [flags] <file.kleis> [expr]   Load a file and type-check an expression
  kleis eval [flags] <file.kleis> <expr>    Load a file, then check and evaluate an expression
  kleis repl [flags] [file.kleis]           Start the REPL

Flags:
  -strict      report non-exhaustive matches as errors
  -lenient     resolve unbound type parameters of operation results to ℝ
  -depth N     maximum evaluation depth
  -no-stdlib   do not load the standard library
  -v           log loaded declarations to stderr
  -trace       log every unification (implies -v)
  -dump        dump checked expressions and types
"

/-- What the program is asked for. -/
def request : List String → Except Outcome Request
  | [] => .error ⟨2, usage, ""⟩
  | "check" :: args => Command.check.request args
  | "eval" :: args => Command.eval.request args
  | "repl" :: args => Command.repl.request args
  | "-h" :: _ | "--help" :: _ | "help" :: _ => .error ⟨0, usage, ""⟩
  | name :: _ =>
    .error ⟨2, usage, programName ++ ": unknown command " ++ Text.quote name ++ "\n"⟩

namespace Request

/-- A console for a request, before its file is loaded. -/
def console (r : Request) : Console :=
  let console : Console := ⟨.create r.flags.options, r.flags.showsLog, "", ""⟩
  (Console.flushLog.run console).2

/-- Whether a file is to be loaded first. -/
def loads (r : Request) : Bool := !r.file.isEmpty

/-- Does what is asked for, a session apart. -/
def answer (r : Request) : Console.Act Nat :=
  match r.task with
  | .check none => do
    Console.listDefinitions
    return 0
  | .check (some expr) => Console.checkExpr expr
  | .eval expr => Console.evalExpr expr
  | .repl => return 0

/-- Loads the file and answers, up to a session. -/
def perform (r : Request) (files : String → Except FileError String) : Console.Act Nat := do
  let code ← if r.loads then Console.loadFile r.file (files r.file) else pure 0
  if code = 0 then r.answer else return code

/-- Runs a request on a whole input. A session leaves a history. -/
def run (r : Request) (files : String → Except FileError String) (input : String)
    (history : History) : Outcome × Option History :=
  let (code, console) := (r.perform files).run r.console
  match r.task, code with
  | .repl, 0 =>
    let lines := (Text.lines (Text.encodeUtf8 input)).map fun line =>
      String.ofList (Text.decodeLossy line.bytes)
    let (_, session) := (Session.feedAll files lines).run (.start console history)
    (⟨0, session.console.stdout, session.console.stderr⟩, some session.history)
  | _, _ => (⟨code, console.stdout, console.stderr⟩, none)

end Request

end Formulary.CommandLine
