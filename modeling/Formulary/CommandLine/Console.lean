import Formulary.Checker

namespace Formulary.CommandLine

/-- The name under which the program speaks. -/
def programName : String := "kleis"

/-- A text in a colour of the terminal. -/
def coloured (code : String) (s : String) : String := "\x1b[" ++ code ++ "m" ++ s ++ "\x1b[0m"

def red : String → String := coloured "31"

def yellow : String → String := coloured "33"

def blue : String → String := coloured "94"

/-- Why a file could not be read. -/
inductive FileError where
  | missing
  /-- A part of the path that is not the last is no directory. -/
  | notDirectory
  | nameTooLong
  /-- The name has a character that no name may have. -/
  | badName
  | isDirectory
  | other (reason : String)

def FileError.message (name : String) : FileError → String
  | .missing => "open " ++ name ++ ": no such file or directory"
  | .notDirectory => "open " ++ name ++ ": not a directory"
  | .nameTooLong => "open " ++ name ++ ": file name too long"
  | .badName => "open " ++ name ++ ": invalid argument"
  | .isDirectory => "read " ++ name ++ ": is a directory"
  | .other reason => "read " ++ name ++ ": " ++ reason

/-- The last part of a path. -/
def baseName (path : String) : String :=
  let trimmed := path.toList.reverse.dropWhile (· = '/')
  if path.isEmpty then "."
  else if trimmed.isEmpty then "/"
  else String.ofList (trimmed.takeWhile (· ≠ '/')).reverse

structure Console where
  checker : Checker
  /-- Whether the log is printed. -/
  showsLog : Bool
  stdout : String
  stderr : String

namespace Console

/-- Steps at a console. -/
abbrev Act := StateM Console

def print (s : String) : Act Unit := modify fun c => { c with stdout := c.stdout ++ s }

def printLine (s : String) : Act Unit := print (s ++ "\n")

def complain (s : String) : Act Unit := modify fun c => { c with stderr := c.stderr ++ s ++ "\n" }

def complainError (message : String) : Act Unit := complain (red message)

/-- Prints what has been logged. -/
def flushLog : Act Unit := do
  let c ← get
  set { c with checker.inference.log := #[] }
  if c.showsLog then
    c.checker.inference.log.toList.forM fun line => complain (programName ++ ": " ++ line)

/-- Runs steps of the checker. -/
def run {α : Type} (steps : Checker.Run α) : Act (Except Error α) := do
  let c ← get
  let (result, checker) := steps.run.run c.checker
  set { c with checker }
  flushLog
  return result

/-- Goes on with the result of some steps, or prints their error. The exit status is that of what is
done last. -/
def orComplain {α : Type} (next : α → Act Nat) : Except Error α → Act Nat
  | .ok a => next a
  | .error e => do
    complainError e.message
    return 1

/-- Loads a file that has been read. -/
def loadFile (name : String) : Except FileError String → Act Nat
  | .error e => do
    complainError ("read: " ++ e.message name)
    return 1
  | .ok source => do
    (← run (Checker.loadSource (baseName name) source)) |> orComplain fun () => return 0

/-- Prints the definitions with their types. -/
def listDefinitions : Act Unit := do
  let c := (← get).checker
  c.definitionNames.forM fun name =>
    printLine (name ++ " : " ++ ((c.typeOf? name).getD .blank).render)

/-- Reads and checks an expression and goes on with it and its type. -/
def checkThen (source : String) (next : Expr → Ty → Act Nat) : Act Nat :=
  match Expr.parse source with
  | .error e => do
    complainError e.message
    return 1
  | .ok e => do
    (← run (Checker.check e)) |> orComplain fun verdict => do
      verdict.warnings.forM fun w => complain (yellow ("warning: " ++ w.message))
      next e verdict.type

/-- Prints the type of an expression. -/
def checkExpr (source : String) : Act Nat :=
  checkThen source fun _ t => do
    printLine (blue t.render)
    return 0

/-- Prints the value of an expression and its type. -/
def evalExpr (source : String) : Act Nat :=
  checkThen source fun e t => do
    (← run (Checker.evaluate e)) |> orComplain fun value => do
      printLine (blue value.render ++ " : " ++ t.render)
      return 0

end Console

end Formulary.CommandLine
