import Formulary.CommandLine

/-!
The program: the commands with the files, the input and the output of the machine.
-/

namespace Formulary.Main

open CommandLine

/-- Reads a file. A file of the wrong type that could be opened is a directory. -/
def readFile (name : String) : IO (Except FileError String) := do
  if '\x00' ∈ name.toList then return .error .badName
  try
    return .ok (← IO.FS.readFile name)
  catch
    | .noFileOrDirectory .. => return .error .missing
    | .inappropriateType (some _) .. => return .error .notDirectory
    | .inappropriateType none .. => return .error .isDirectory
    | .invalidArgument .. => return .error .nameTooLong
    | e => return .error (.other (toString e))

/-- Prints what a console holds, and empties it. -/
def drain (c : Console) : IO Console := do
  let out ← IO.getStdout
  out.putStr c.stdout
  out.flush
  let err ← IO.getStderr
  err.putStr c.stderr
  err.flush
  return { c with stdout := "", stderr := "" }

/-- Runs steps of a session and prints what they say. -/
def advance {α : Type} (s : Session) (steps : Session.Act α) : IO (α × Session) := do
  let (result, s) := steps.run s
  return (result, { s with console := ← drain s.console })

/-- Takes the pieces of a line, and reads the files that commands ask for. The session goes on unless
a command ended it. -/
def take (s : Session) : List String → IO (Bool × Session)
  | [] => return (true, s)
  | piece :: rest => do
    let (wait, s) ← advance s (Session.feed piece)
    match wait with
    | .over => return (false, s)
    | .line => if rest.isEmpty then return (true, s) else take (← advance s Session.prompt).2 rest
    | .file name =>
      let contents ← readFile name
      let (_, s) ← advance s (Session.feedFile name contents)
      if rest.isEmpty then return (true, s) else take (← advance s Session.prompt).2 rest

/-- Takes lines until the input or the session ends. -/
partial def converse (s : Session) : IO Session := do
  let (_, s) ← advance s Session.prompt
  let line ← (← IO.getStdin).getLine
  if line.isEmpty then return (← advance s Session.finish).2
  let pieces := (Text.lines (Text.encodeUtf8 line)).map fun piece =>
    String.ofList (Text.decodeLossy piece.bytes)
  let (goesOn, s) ← take s pieces
  if goesOn then converse s else return s

/-- The file that keeps the history of sessions. -/
def historyFile : IO String := do
  match ← IO.getEnv "HOME" with
  | some home => return home ++ "/.kleis_history"
  | none => return ".kleis_history"

/-- Holds a session, with the history before it and after it. -/
def hold (c : Console) : IO Unit := do
  let file ← historyFile
  let history := match ← readFile file with
    | .ok text => History.parse text
    | .error _ => []
  let (_, s) ← advance (.start c history) (pure ())
  let s ← converse s
  try IO.FS.writeFile file s.history.render
  catch _ => return ()

/-- Does what is asked for. -/
def perform (r : Request) : IO UInt32 := do
  let contents ← if r.loads then readFile r.file else pure (.error .missing)
  let (code, c) := (r.perform fun _ => contents).run r.console
  let c ← drain c
  if code = 0 then
    if let .repl := r.task then hold c
  return code.toUInt32

end Formulary.Main

def main (args : List String) : IO UInt32 := do
  match Formulary.CommandLine.request args with
  | .ok r => Formulary.Main.perform r
  | .error o => do
    (← IO.getStdout).putStr o.stdout
    (← IO.getStderr).putStr o.stderr
    return o.code.toUInt32
