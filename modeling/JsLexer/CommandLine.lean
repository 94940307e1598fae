import JsLexer.CommandLine.Arguments
import JsLexer.Report
import JsLexer.Session

/-!
The program as a whole: what it prints and how it exits, given its arguments, the files it can read
and its input.

The names of categories are checked before anything else is done. Then source text from the command
line is scanned, or else the files, or else a session reads the input.
-/

namespace JsLexer.CommandLine

/-- What a run prints and how it exits. -/
structure Outcome where
  code : Nat
  output : Output
deriving DecidableEq

namespace Outcome

/-- The exit code of a run that did or did not succeed. -/
def ofSuccess (success : Bool) (output : Output) : Outcome := ⟨if success then 0 else 1, output⟩

end Outcome

/-- The name and version of the program. -/
def versionLine : String := "spacey-lex " ++ Session.Screen.version ++ "\n"

/-- How the program is called. -/
def usageLine : String := "Usage: spacey-lex [OPTIONS] [FILES]...\n"

/-- The outcome when there is nothing to do. -/
def refused : Refusal → Outcome
  | .version => ⟨0, .ofOut versionLine⟩
  | .help => ⟨0, .ofOut usageLine⟩
  | .usage => ⟨2, .ofErr usageLine⟩

/-- The categories that are asked for. -/
def categories (a : Arguments) : Except String (List Builtin) :=
  match a.matchers with
  | none => .ok Builtin.standard
  | some names => Builtin.ofNames names

/-- The output for a category that does not exist. -/
def unknownCategory (name : String) : Output :=
  let known := String.intercalate ", " (Builtin.standard.map (·.name))
  .ofErr (Display.plainErrorLine (Builtin.unknownName name) ++
    "Known matchers: " ++ Display.Style.cyan.apply known ++ "\n")

/-- The format that is asked for. -/
def format (a : Arguments) : Display.Format := ⟨a.json, !a.noTrivia⟩

/-- The outcome for source text. -/
def runSource (f : Display.Format) (matchers : List Matcher) (source : String) : Outcome :=
  let result := tokenizeBy matchers source
  .ofSuccess result.isOk (Display.scan f result)

/-- The tokens of files, scanned one by one or by several workers. -/
def scanFiles (jobs : Option Nat) (matchers : List Matcher) (reads : List FileRead) :
    List (Except SourceError (List Token)) :=
  match jobs with
  | none => Source.ofFiles matchers reads
  | some workers => Source.ofFilesBy workers matchers reads

/-- The outcome for files. -/
def runFiles (f : Display.Format) (jobs : Option Nat) (matchers : List Matcher)
    (reads : List FileRead) : Outcome :=
  let entries := (reads.map (·.path)).zip (scanFiles jobs matchers reads)
  .ofSuccess (Report.succeeded entries) (Report.output f entries)

/-- What is to be run once arguments are settled. -/
inductive Plan
  | done (outcome : Outcome)
  | source (f : Display.Format) (matchers : List Matcher) (text : String)
  | files (f : Display.Format) (jobs : Option Nat) (matchers : List Matcher) (paths : List String)
  | session (start : Session)

/-- What arguments ask for. -/
def plan (args : List String) : Plan :=
  match Arguments.parse args with
  | .error r => .done (refused r)
  | .ok a =>
    match categories a with
    | .error name => .done ⟨1, unknownCategory name⟩
    | .ok set =>
      let matchers := set.map (·.matcher)
      match a.eval, a.files with
      | some text, _ => .source (format a) matchers text
      | none, [] => .session (.start set (format a))
      | none, paths => .files (format a) a.jobs matchers paths

/-- What a run finds around it. -/
structure Surroundings where
  /-- Reads files one after the other. -/
  readAll : List String → List FileRead
  /-- The files that are there while a session takes the input. -/
  files : Files
  input : List UInt8

/-- The outcome of the program. -/
def run (args : List String) (around : Surroundings) : Outcome :=
  match plan args with
  | .done outcome => outcome
  | .source f matchers text => runSource f matchers text
  | .files f jobs matchers paths => runFiles f jobs matchers (around.readAll paths)
  | .session start =>
    ⟨0, start.run around.files ((InputLine.split around.input).map InputLine.ofBytes)⟩

end JsLexer.CommandLine
