import JsLexer.Display.Ansi
import JsLexer.Session.Command

/-!
The fixed texts of a session.
-/

namespace JsLexer.Session.Screen

open Display

/-- The version of the program. -/
def version : String := "0.1.0"

/-- Lines, each ended by a line feed. -/
def lines (texts : List String) : String := String.join (texts.map (· ++ "\n"))

/-- The greeting. -/
def banner : String :=
  lines ["",
    "  " ++ Style.bold.apply (Style.white.apply "Spacey Lexer") ++ " " ++ Style.dimmed.apply "v" ++
      " " ++ Style.brightYellow.apply version,
    "  " ++ Style.dimmed.apply "Every code point, accounted for",
    "",
    "  " ++ Style.dimmed.apply "Type" ++ " " ++ Style.cyan.apply ".help" ++ " " ++
      Style.dimmed.apply "for available commands",
    ""]

/-- The end of a session. -/
def goodbye : String := lines ["", Style.brightCyan.apply "Goodbye!", ""]

/-- What stands for the end of input. -/
def endOfInput : String := lines [Style.dimmed.apply "^D"]

/-- Clears the screen and goes to its first place. -/
def clear : String := "\x1b[2J\x1b[H"

/-- One line of help: what to type, in a column of its own, and what it does. -/
def helpLine (style : Style) (typed meaning : String) : String :=
  "  " ++ style.apply (padRight 20 typed) ++ " " ++ Style.dimmed.apply meaning

/-- The heading of a part of the help. -/
def helpHeading (text : String) : String := Style.bold.apply (Style.white.apply text)

/-- The keys that work in the editor. -/
def shortcuts : List (String × String) :=
  [("Ctrl+C", "Cancel current input"), ("Ctrl+D", "Exit REPL"), ("Tab", "Complete a command"),
    ("↑/↓", "Navigate history")]

/-- The help. -/
def help : String :=
  lines (["", helpHeading "REPL Commands:", ""] ++
    Command.listed.map (fun (usage, meaning) => helpLine .cyan usage meaning) ++
    ["", helpHeading "Keyboard Shortcuts:", ""] ++
    shortcuts.map (fun (key, meaning) => helpLine .yellow key meaning) ++
    ["", "  " ++
      Style.dimmed.apply "An unterminated string or comment continues on the next line.", ""])

/-- The name and version of the program. -/
def about : String :=
  lines ["", Style.bold.apply (Style.brightCyan.apply "spacey-lex") ++ ": " ++
    Style.yellow.apply version, ""]

/-- The state of a switch. -/
def onOff (on : Bool) : String := if on then Style.green.apply "on" else Style.red.apply "off"

end JsLexer.Session.Screen
