import JsLexer.Display.Highlight
import JsLexer.Session.Command

/-!
What an editor does with the line that is being typed: it colours it, completes it, hints at its end
and tells whether more lines are needed. It has categories of its own to scan the line by.
-/

namespace JsLexer.Session

/-- The part of a session that deals with input before it is executed. -/
structure Editor where
  categories : List Builtin

namespace Editor

/-- The matchers that lines are scanned by. -/
def matchers (e : Editor) : List Matcher := e.categories.map (·.matcher)

/-- Whether an input can be executed as it is: a command always can, and source unless it stops
inside a string or comment. -/
def isComplete (e : Editor) (input : String) : Bool :=
  (Command.parse? input).isSome || !Display.isUnterminated e.matchers input

/-- The line in colours. -/
def highlight (e : Editor) (line : String) : String := Display.editorLine e.matchers line

/-- The code points of a text that lie in its first `bytes` bytes. -/
def leading : (bytes : Nat) → List Char → List Char
  | _, [] => []
  | bytes, c :: cs =>
    if c.utf8Size ≤ bytes then c :: leading (bytes - c.utf8Size) cs else []

/-- The words that complete what stands before a byte of the line, with what each of them adds. -/
def complete (line : String) (bytes : Nat) : List (String × String) :=
  (Command.completions (leading bytes line.toList)).map fun (word, missing) =>
    (String.ofList word, String.ofList missing)

/-- What the first word that completes the line adds to it, shown behind its end. -/
def hint? (line : String) (bytes : Nat) : Option String :=
  if bytes < line.utf8ByteSize ∨ line.utf8ByteSize < 2 then none
  else (Command.completions line.toList).head?.map fun (_, missing) =>
    Display.Style.dimmed.apply (String.ofList missing)

end Editor

end JsLexer.Session
