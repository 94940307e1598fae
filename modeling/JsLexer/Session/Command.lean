import JsLexer.Text.Blank

/-!
The commands of a session.

A command is a point and a word, in any case, and perhaps an argument behind a blank. Blanks around
the input and around the argument do not count, and a point before any other word is no command.
-/

namespace JsLexer.Session

/-- What a session can be told to do. -/
inductive Command
  | help | exit | clear | version | load | json | trivia | matchers
deriving DecidableEq

namespace Command

/-- The command of a word in lower case. -/
def ofWord? (word : String) : Option Command :=
  if ["help", "h", "?"].contains word then some .help
  else if ["exit", "quit", "q"].contains word then some .exit
  else if ["clear", "cls"].contains word then some .clear
  else if ["version", "v"].contains word then some .version
  else if ["load", "l"].contains word then some .load
  else if word = "json" then some .json
  else if word = "trivia" then some .trivia
  else if word = "matchers" then some .matchers
  else none

/-- The argument in the text behind the word of a command. -/
def argument? (cs : List Char) : Option String :=
  match Text.trim cs with
  | [] => none
  | trimmed => some (String.ofList trimmed)

/-- The command and the argument that an input spells. -/
def parse? (input : String) : Option (Command × Option String) :=
  match Text.trim input.toList with
  | '.' :: cs =>
    let word := (cs.takeWhile (!Text.isBlank ·)).map Char.toLower
    (ofWord? (String.ofList word)).map fun command =>
      (command, argument? (cs.dropWhile (!Text.isBlank ·)))
  | _ => none

/-- Every command as it is shown to a reader, with what it does. -/
def listed : List (String × String) :=
  [(".help", "Show this help message"),
    (".exit", "Exit the REPL"),
    (".clear", "Clear the screen"),
    (".version", "Show version information"),
    (".load <file>", "Tokenize a JavaScript file"),
    (".json", "Toggle JSON output"),
    (".trivia", "Toggle white space and comment tokens"),
    (".matchers [a,b,..]", "Show or replace the matcher order")]

/-- The words of the commands, with the point. -/
def words : List (List Char) := listed.map fun (usage, _) => usage.toList.takeWhile (· != ' ')

/-! ### Completion -/

/-- What is missing from the words that start with `typed`. -/
def completions (typed : List Char) : List (List Char × List Char) :=
  if typed.head? = some '.' then
    (words.filter fun word => typed.isPrefixOf word && typed.length < word.length).map
      fun word => (word, word.drop typed.length)
  else []

end Command

end JsLexer.Session
