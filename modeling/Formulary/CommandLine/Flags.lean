import Formulary.Checker
import Formulary.Text.Integer

namespace Formulary.CommandLine

/-- What the flags choose. -/
structure Flags where
  options : Checker.Options
  /-- Show the log. -/
  verbose : Bool
  /-- Show the inner form of what is checked. -/
  dump : Bool

/-- What holds without flags. -/
def Flags.default : Flags := ⟨⟨false, false, Evaluation.defaultDepth, false, false⟩, false, false⟩

/-- Whether the log is shown. A trace is no use without it. -/
def Flags.showsLog (f : Flags) : Bool := f.verbose || f.options.trace

/-- How a flag is given, and what it changes. -/
inductive Flag.Form where
  /-- On its own, or with a truth value behind an equals sign. -/
  | switch (set : Bool → Flags → Flags)
  /-- With a number behind an equals sign or as the next argument. -/
  | number (initial : Nat) (set : Int → Flags → Flags)

structure Flag where
  name : String
  purpose : String
  form : Flag.Form

/-- A flag that changes an option of the checker. -/
def optionSwitch (set : Bool → Checker.Options → Checker.Options) : Flag.Form :=
  .switch fun b f => { f with options := set b f.options }

/-- All flags, sorted by name. -/
def flagTable : List Flag := [
  ⟨"depth", "maximum evaluation depth", .number Evaluation.defaultDepth fun n f =>
    { f with options := { f.options with depth := n } }⟩,
  ⟨"dump", "dump expressions and types", .switch fun b f => { f with dump := b }⟩,
  ⟨"lenient", "resolve unbound type parameters to ℝ",
    optionSwitch fun b o => { o with lenient := b }⟩,
  ⟨"no-stdlib", "do not load the standard library", optionSwitch fun b o => { o with bare := b }⟩,
  ⟨"strict", "report non-exhaustive matches as errors",
    optionSwitch fun b o => { o with strict := b }⟩,
  ⟨"trace", "log unifications", optionSwitch fun b o => { o with trace := b }⟩,
  ⟨"v", "log loaded declarations", .switch fun b f => { f with verbose := b }⟩]

/-- How the flag of a name is given. -/
def formOf? (name : String) : Option Flag.Form :=
  (flagTable.find? (·.name = name)).map fun flag => flag.form

/-- A flag in the list of flags. Its purpose is on the same line if its name is one letter. -/
def Flag.describe (flag : Flag) : String :=
  let head := "  -" ++ flag.name ++ match flag.form with
    | .switch _ => ""
    | .number _ _ => " int"
  let default := match flag.form with
    | .switch _ => ""
    | .number initial _ => " (default " ++ toString initial ++ ")"
  let gap := if head.utf8ByteSize ≤ 4 then "\t" else "\n    \t"
  head ++ gap ++ flag.purpose ++ default ++ "\n"

/-- The list of flags of a command. -/
def describeFlags (command : String) : String :=
  "Usage of " ++ command ++ ":\n" ++ String.join (flagTable.map Flag.describe)

inductive FlagError where
  | malformed (arg : String)
  | undefined (name : String)
  | missingValue (name : String)
  | notBool (value name : String)
  | notNumber (value name : String) (e : Text.NumberError)
  /-- The list of flags is asked for. -/
  | help

/-- What is wrong, if something is. -/
def FlagError.message? : FlagError → Option String
  | .malformed arg => some ("bad flag syntax: " ++ arg)
  | .undefined name => some ("flag provided but not defined: -" ++ name)
  | .missingValue name => some ("flag needs an argument: -" ++ name)
  | .notBool value name =>
    some ("invalid boolean value " ++ Text.quote value ++ " for -" ++ name ++ ": parse error")
  | .notNumber value name e =>
    some ("invalid value " ++ Text.quote value ++ " for flag -" ++ name ++ ": " ++ e.message)
  | .help => none

/-- What an argument is before the flags have ended. -/
inductive Argument where
  | positional
  /-- The end of the flags. -/
  | terminator
  | flag (name : String) (value : Option String)
  | malformed

/-- Splits a flag from the value behind its first equals sign. A name has at least one character. -/
def splitFlag : List Char → Argument
  | [] | '-' :: _ | '=' :: _ => .malformed
  | c :: rest =>
    let name := String.ofList (c :: rest.takeWhile (· ≠ '='))
    match rest.dropWhile (· ≠ '=') with
    | [] => .flag name none
    | _ :: value => .flag name (some (String.ofList value))

def classify (arg : String) : Argument :=
  match arg.toList with
  | ['-', '-'] => .terminator
  | '-' :: '-' :: rest => splitFlag rest
  | '-' :: c :: rest => splitFlag (c :: rest)
  | _ => .positional

def readBool? (s : String) : Option Bool :=
  if s ∈ ["1", "t", "T", "true", "TRUE", "True"] then some true
  else if s ∈ ["0", "f", "F", "false", "FALSE", "False"] then some false
  else none

/-- The value of a number flag. -/
def readNumber (name value : String) : Except FlagError Int :=
  (Text.prefixedInteger value.toList).mapError (.notNumber value name)

/-- Reads flags up to the first argument that is none. -/
def parseFlags (flags : Flags) : List String → Except FlagError (Flags × List String)
  | [] => .ok (flags, [])
  | arg :: rest =>
    match classify arg with
    | .positional => .ok (flags, arg :: rest)
    | .terminator => .ok (flags, rest)
    | .malformed => .error (.malformed arg)
    | .flag name value =>
      match formOf? name, value with
      | none, _ => if name = "help" || name = "h" then .error .help else .error (.undefined name)
      | some (.switch set), none => parseFlags (set true flags) rest
      | some (.switch set), some value =>
        match readBool? value with
        | some b => parseFlags (set b flags) rest
        | none => .error (.notBool value name)
      | some (.number _ set), some value => do
        parseFlags (set (← readNumber name value) flags) rest
      | some (.number _ set), none =>
        match rest with
        | [] => .error (.missingValue name)
        | value :: rest => do parseFlags (set (← readNumber name value) flags) rest

end Formulary.CommandLine
