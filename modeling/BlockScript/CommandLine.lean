import BlockScript.ProgramFile.Reader
import BlockScript.Report.Format

/-!
# The command line

Two commands: `run` runs a program file, `evaluate` a single expression. Arguments are read into a
command first; what a command answers then depends on nothing but the contents of the file it names.
-/

set_option autoImplicit false

namespace BlockScript.CommandLine

/-- What the arguments ask for. -/
inductive Command where
  | run (path : String) (format : Format) (ceiling : Option Nat)
  | evaluate (text : String) (format : ValueFormat)
  | version
  | help
deriving DecidableEq

/-- Why arguments make no command of their own. -/
inductive Refusal where
  | usage
  | help
deriving DecidableEq

/-! ## Arguments -/

/-- How a command takes its arguments: what an option with its value, or an operand, does to the
arguments taken so far. There is no result when it cannot be taken. -/
structure Intake (σ : Type) where
  option? : String → String → σ → Option σ
  operand? : String → σ → Option σ

/-- A value that has to be there. -/
def orUsage {α : Type} : Option α → Except Refusal α
  | some a => .ok a
  | none => .error .usage

/-- An argument that looks like an option. A lone hyphen does not. -/
def isOption (arg : String) : Bool :=
  match arg.toList with
  | '-' :: _ :: _ => true
  | _ => false

/-- The name of a long option, and the value if it is given with an equals sign. -/
def longOption? (arg : String) : Option (String × Option String) :=
  match arg.toList with
  | '-' :: '-' :: cs =>
    let name := String.ofList (cs.takeWhile (· != '='))
    match cs.dropWhile (· != '=') with
    | [] => some (name, none)
    | _ :: value => some (name, some (String.ofList value))
  | _ => none

/-- Takes arguments one by one, from left to right, and stops at the first that cannot be taken or
that asks for help. After two hyphens everything is an operand. -/
def Intake.takeAll {σ : Type} (k : Intake σ) (a : σ) : List String → Except Refusal σ
  | [] => .ok a
  | arg :: rest =>
    if arg = "--" then rest.foldlM (fun a operand => orUsage (k.operand? operand a)) a
    else if arg = "--help" || arg.startsWith "-h" then .error .help
    else if isOption arg then
      match longOption? arg with
      | none => .error .usage
      | some (name, some value) => do
        k.takeAll (← orUsage (k.option? name value a)) rest
      | some (name, none) =>
        match rest with
        | [] => .error .usage
        | value :: rest =>
          if isOption value then .error .usage
          else do k.takeAll (← orUsage (k.option? name value a)) rest
    else do k.takeAll (← orUsage (k.operand? arg a)) rest

/-- Fills a place that is still empty. -/
def fill? {α : Type} : Option α → Option α → Option (Option α)
  | none, some value => some (some value)
  | _, _ => none

/-- An unsigned 64-bit number in decimal, with or without a plus sign. -/
def number? (text : String) : Option Nat :=
  let digits := match text.toList with
    | '+' :: cs => cs
    | cs => cs
  let value := Text.ofDigits digits
  if digits != [] && digits.all Char.isDigit && value < UInt64.size then some value else none

/-- The format of a report by its name. -/
def format? : String → Option Format
  | "basic" => some .basic
  | "debug" => some .debug
  | "pretty" => some (.snippet .terminal)
  | "json" => some .document
  | _ => none

/-- The format of a value by its name. -/
def valueFormat? : String → Option ValueFormat
  | "basic" => some .basic
  | "debug" => some .debug
  | "pretty" => some (.snippet .terminal)
  | _ => none

/-- The arguments of `run`. -/
structure RunArguments where
  path : Option String := none
  format : Option Format := none
  ceiling : Option Nat := none

/-- Takes one path, which is not empty, and each option at most once. -/
def RunArguments.intake : Intake RunArguments where
  option?
    | "format", text, a =>
      (fill? a.format (format? text)).map fun format => { a with format }
    | "max-iterations", text, a =>
      (fill? a.ceiling (number? text)).map fun ceiling => { a with ceiling }
    | _, _, _ => none
  operand? text a :=
    if text = "" then none else (fill? a.path (some text)).map fun path => { a with path }

/-- The arguments of `evaluate`. -/
structure EvaluateArguments where
  text : Option String := none
  format : Option ValueFormat := none

/-- Takes one expression and the format at most once. -/
def EvaluateArguments.intake : Intake EvaluateArguments where
  option?
    | "format", text, a =>
      (fill? a.format (valueFormat? text)).map fun format => { a with format }
    | _, _, _ => none
  operand? text a := (fill? a.text (some text)).map fun text => { a with text }

/-- Reads the arguments of `run`. The ceiling of the environment counts when there is no option, and
is read last. -/
def readRun (environment : Option String) (args : List String) : Except Refusal Command := do
  let a ← RunArguments.intake.takeAll {} args
  let path ← orUsage a.path
  let ceiling ← match a.ceiling, environment with
    | none, some text => (orUsage (number? text)).map some
    | ceiling, _ => .ok ceiling
  .ok (.run path (a.format.getD .basic) ceiling)

/-- Reads the arguments of `evaluate`. -/
def readEvaluate (args : List String) : Except Refusal Command := do
  let a ← EvaluateArguments.intake.takeAll {} args
  let text ← orUsage a.text
  .ok (.evaluate text (a.format.getD .basic))

/-- Reads all arguments. -/
def read (environment : Option String) : List String → Except Refusal Command
  | "run" :: args => readRun environment args
  | "evaluate" :: args => readEvaluate args
  | ["help"] => .ok .help
  | ["help", topic] =>
    if ["run", "evaluate", "help"].contains topic then .ok .help else .error .usage
  | arg :: _ =>
    if arg = "--version" || arg.startsWith "-V" then .ok .version
    else if arg = "--help" || arg.startsWith "-h" then .ok .help
    else .error .usage
  | [] => .error .usage

/-! ## Answers -/

/-- What is written and the code at the end. -/
structure Response where
  code : Nat
  stdout : String
  stderr : String
deriving DecidableEq

/-- A line of its own. -/
def line (text : String) : String :=
  text ++ "\n"

/-- How the program is used. -/
def usage : String :=
  line "Usage: blockrun run <PATH> [--format basic|debug|pretty|json] [--max-iterations N]" ++
    line "       blockrun evaluate <EXPRESSION> [--format basic|debug|pretty]"

/-- Shows the report of a run. A document goes out whole; otherwise the failure goes to the error
stream, if it can be shown, and nothing at all is written for an empty state. -/
def showReport (format : Format) (r : Report) : String × Option String :=
  match format with
  | .document => (line (format.body r), some "")
  | _ =>
    let body := format.body r
    (if body = "" then "" else line body,
      match r.failure with
      | none => some ""
      | some f => (format.failure f).map line)

/-- Runs the program file at `path` with these contents; there are none if it cannot be read. -/
def respondRun (path : String) (format : Format) (ceiling : Option Nat)
    (contents : Option String) : Response :=
  let announcement := line ("Running " ++ Text.quote path ++ "...")
  match contents with
  | none => ⟨101, "", announcement ++ line ("Failed to read program file " ++ Text.quote path)⟩
  | some text =>
    match ProgramFile.decode? text with
    | none => ⟨65, "", announcement ++ line "Malformed program"⟩
    | some file =>
      let report := file.program.run (ceiling.getD file.ceiling)
      match showReport format report with
      | (stdout, some stderr) =>
        ⟨if report.failure.isNone then 0 else 70, stdout, announcement ++ stderr⟩
      | (stdout, none) => ⟨101, stdout, announcement⟩

/-- Evaluates an expression in the empty state. -/
def respondEvaluate (text : String) (format : ValueFormat) : Response :=
  let result := evaluate text .empty
  match result, format.result "expression" result with
  | .ok _, some shown => ⟨0, line shown, ""⟩
  | .error _, some shown => ⟨70, "", line shown⟩
  | _, none => ⟨101, "", ""⟩

/-- The file that has to be read before the arguments can be answered. -/
def requiredFile? (environment : Option String) (args : List String) : Option String :=
  match read environment args with
  | .ok (.run path _ _) => some path
  | _ => none

/-- Answers the arguments, given the contents of the required file. -/
def respond (environment : Option String) (args : List String) (contents : Option String) :
    Response :=
  match read environment args with
  | .ok (.run path format ceiling) => respondRun path format ceiling contents
  | .ok (.evaluate text format) => respondEvaluate text format
  | .ok .version => ⟨0, line "blockrun 1.0.0", ""⟩
  | .ok .help => ⟨0, usage, ""⟩
  | .error .help => ⟨0, usage, ""⟩
  | .error .usage => ⟨2, "", usage⟩

end BlockScript.CommandLine
