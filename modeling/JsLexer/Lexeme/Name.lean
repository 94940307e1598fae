import JsLexer.Lexeme.Escape
import JsLexer.Lexeme.Reading

/-!
Names of variables, properties and the like, reserved words included.

A name is one unit that can start it and any number of units that can continue it. A unit is a code
point of the right class or a backslash, `u` and an escape by number, whatever it stands for. A
backslash with anything but `u` behind it ends the name; a bad escape spoils the name as a whole.
-/

namespace JsLexer.Lexeme

/-- Whether a backslash and `u` are ahead. -/
def escapeAhead : List Char → Bool
  | '\\' :: 'u' :: _ => true
  | _ => false

/-- Whether a name starts ahead. -/
def nameAhead (cs : List Char) : Bool := cs.head?.any isNameStart || escapeAhead cs

/-- Reads one unit; `unescaped` is the class of a unit without a backslash. -/
def nameUnit (unescaped : Char → Bool) : List Char → EscapeReading
  | [] => .malformed 0
  | '\\' :: 'u' :: cs => (unicodeEscape cs).after 2
  | '\\' :: _ => .malformed 1
  | c :: _ => if unescaped c then .complete 1 else .malformed 1

/-- Reads on through the units that continue a name. The first `claimed` code points belong to a
unit that was read already. -/
def nameRest : (claimed : Nat) → List Char → Reading
  | _, [] => .token .identifierName 0
  | claimed + 1, _ :: cs => (nameRest claimed cs).after 1
  | 0, c :: cs =>
    if escapeAhead (c :: cs) || isNamePart c then
      match nameUnit isNamePart (c :: cs) with
      | .complete length => (nameRest (length - 1) cs).after 1
      | .malformed length | .cutShort length => .malformed length
    else .token .identifierName 0

/-- Reads a name. -/
def name (cs : List Char) : Reading :=
  match nameUnit isNameStart cs with
  | .complete length => nameRest length cs
  | .malformed length | .cutShort length => .malformed length

end JsLexer.Lexeme
