import JsLexer.Display.Output
import JsLexer.Session.Editor
import JsLexer.Session.Screen
import JsLexer.Source

/-!
A session: lines of input, each executed as it comes.

An input is a command or source text. Source that stops inside a string or comment is not executed
yet but goes on with the next line, line end included. Commands switch the format, replace the
categories or load a file; a command that fails leaves everything as it was.
-/

namespace JsLexer

/-- A line of input: its text and its line end, which the last line may lack. -/
inductive InputLine
  | text (body lineEnd : String)
  /-- A line whose bytes are no text. -/
  | invalid
deriving DecidableEq

namespace InputLine

/-- Bytes in lines, each with its line feed. -/
def split : List UInt8 → List (List UInt8)
  | [] => []
  | b :: bytes =>
    if b = 10 then [b] :: split bytes
    else match split bytes with
      | [] => [[b]]
      | line :: lines => (b :: line) :: lines

/-- A text without the line end that it has, and that line end. -/
def cut (line : List Char) : List Char × List Char :=
  match line.reverse with
  | '\n' :: '\r' :: body => (body.reverse, ['\r', '\n'])
  | '\n' :: body => (body.reverse, ['\n'])
  | _ => (line, [])

/-- The line that bytes spell. -/
def ofBytes (bytes : List UInt8) : InputLine :=
  match String.fromUTF8? ⟨bytes.toArray⟩ with
  | none => .invalid
  | some line =>
    let (body, lineEnd) := cut line.toList
    .text (String.ofList body) (String.ofList lineEnd)

end InputLine

/-- A session between two lines. -/
structure Session where
  format : Display.Format
  /-- The categories that inputs are scanned by. -/
  categories : List Builtin
  editor : Session.Editor
  /-- The text of an input that is not complete yet. -/
  pending : String
  /-- Whether the session is over. -/
  ended : Bool

namespace Session

/-- A session before its first line. -/
def start (categories : List Builtin) (format : Display.Format) : Session :=
  ⟨format, categories, ⟨categories⟩, "", false⟩

/-- The matchers that inputs are scanned by. -/
def matchers (s : Session) : List Matcher := s.categories.map (·.matcher)

/-- The output for source text. -/
def scan (s : Session) (source : String) : Output :=
  Display.scan s.format (tokenizeBy s.matchers source)

/-- The output for a file. -/
def load (s : Session) (files : Files) (path : String) : Output :=
  match files path with
  | .ok source => s.scan source
  | .error problem =>
    .ofErr (Display.plainErrorLine (Display.Style.cyan.apply path ++ ": " ++ problem.message))

/-- The names in a list between commas; blank ones do not count. -/
def names (list : String) : List String :=
  ((Text.splitWhere (· == ',') list.toList).map Text.trim |>.filter (!·.isEmpty)).map String.ofList

/-- Replaces the categories, of the session and of its editor, if all names are known. -/
def setCategories (s : Session) (list : String) : Session × Output :=
  match Builtin.ofNames (names list) with
  | .ok categories => ({ s with categories, editor := ⟨categories⟩ }, .empty)
  | .error name => (s, .ofErr (Display.plainErrorLine (Builtin.unknownName name)))

/-- The names of the categories, in order. -/
def listing (s : Session) : String :=
  Display.Style.cyan.apply (String.intercalate ", " (s.categories.map (·.name))) ++ "\n"

/-- The error for a file that is not named. -/
def noPath : Output :=
  .ofErr (Display.plainErrorLine (Display.Style.cyan.apply ".load" ++ " " ++
    Display.Style.dimmed.apply "requires a file path"))

/-- Switches between table and JSON. -/
def toggleJson (s : Session) : Session × Output :=
  let on := !s.format.json
  ({ s with format := { s.format with json := on } },
    .ofOut ("JSON output " ++ Screen.onOff on ++ "\n"))

/-- Switches trivia on or off. -/
def toggleTrivia (s : Session) : Session × Output :=
  let on := !s.format.trivia
  ({ s with format := { s.format with trivia := on } },
    .ofOut ("Trivia tokens " ++ Screen.onOff on ++ "\n"))

/-- Executes a command. -/
def command (s : Session) (files : Files) : Command → Option String → Session × Output
  | .help, _ => (s, .ofOut Screen.help)
  | .exit, _ => ({ s with ended := true }, .empty)
  | .clear, _ => (s, .ofOut Screen.clear)
  | .version, _ => (s, .ofOut Screen.about)
  | .load, some path => (s, s.load files path)
  | .load, none => (s, noPath)
  | .json, _ => s.toggleJson
  | .trivia, _ => s.toggleTrivia
  | .matchers, some list => s.setCategories list
  | .matchers, none => (s, .ofOut s.listing)

/-- Executes an input; a blank one does nothing. -/
def execute (s : Session) (files : Files) (input : String) : Session × Output :=
  if (Text.trim input.toList).isEmpty then (s, .empty)
  else match Command.parse? input with
    | some (c, argument) => s.command files c argument
    | none => (s, s.scan input)

/-- The error that ends a session on a line that is no text. -/
def invalidLine : Output :=
  .ofErr (Display.plainErrorLine ("Io(Error \x7b kind: InvalidData, message: " ++
    Text.quoted invalidTextMessage ++ " \x7d)"))

/-- The input that a line completes or goes on with. -/
def inputWith (s : Session) (body : String) : String := s.pending ++ body

/-- The file that the next line asks for. -/
def fileWanted? (s : Session) : InputLine → Option String
  | .invalid => none
  | .text body _ =>
    match Command.parse? (s.inputWith body) with
    | some (.load, path) => path
    | _ => none

/-- Takes one line of input. -/
def feed (s : Session) (files : Files) (line : InputLine) : Session × Output :=
  if s.ended then (s, .empty)
  else match line with
    | .invalid => ({ s with ended := true }, invalidLine)
    | .text body lineEnd =>
      let input := s.inputWith body
      if s.editor.isComplete input then { s with pending := "" }.execute files input
      else ({ s with pending := input ++ lineEnd }, .empty)

/-- Takes lines of input in order. -/
def feedAll (s : Session) (files : Files) : List InputLine → Session × Output
  | [] => (s, .empty)
  | line :: lines =>
    let (s, first) := s.feed files line
    let (s, others) := feedAll s files lines
    (s, first ++ others)

/-- The last output of a session. One that was not ended meets the end of its input. -/
def close (s : Session) : Output :=
  .ofOut ((if s.ended then "" else Screen.endOfInput) ++ Screen.goodbye)

/-- The output of a whole session. -/
def run (s : Session) (files : Files) (lines : List InputLine) : Output :=
  let (last, output) := s.feedAll files lines
  .ofOut Screen.banner ++ output ++ last.close

end Session

end JsLexer
