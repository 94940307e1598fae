import JsLexer.CharClass
import JsLexer.Json.Error
import JsLexer.Text.Bytes

/-!
The lexical elements of JSON but for numbers: blanks, words and strings.

An escape by number names a UTF-16 unit by four hexadecimal digits, so a code point beyond those
takes two escapes in a row, a leading and a trailing surrogate. A string whose value is of no use is
only checked to be well formed, and then surrogates may stand alone.
-/

namespace JsLexer.Json

/-- White space between lexical elements. -/
def isBlank (c : Char) : Bool := c == ' ' || c == '\t' || c == '\n' || c == '\r'

/-- A text without the blanks it starts with. -/
def skipBlanks (cs : List Char) : List Char := cs.dropWhile isBlank

/-- Passes exactly `word`. -/
def expectWord : (word : List Char) → List Char → Except Error (List Char)
  | [], cs => .ok cs
  | _ :: _, [] => .error .truncated
  | w :: word, c :: cs => if c = w then expectWord word cs else .error .malformed

/-! ### Strings -/

/-- The value of the four hexadecimal digits ahead. A text of less than four bytes is too short
before it is anything else. -/
def fourHex (cs : List Char) : Except Error Nat :=
  match (cs.take 4).mapM hexValue? with
  | some [a, b, c, d] => .ok (((a * 16 + b) * 16 + c) * 16 + d)
  | _ => .error (if Text.byteLength (cs.take 4) < 4 then .truncated else .malformed)

/-- Whether a UTF-16 unit is the first of a pair. -/
def isLeading (unit : Nat) : Bool := 0xd800 ≤ unit && unit ≤ 0xdbff

/-- Whether a UTF-16 unit is the second of a pair. -/
def isTrailing (unit : Nat) : Bool := 0xdc00 ≤ unit && unit ≤ 0xdfff

/-- The code point of a pair of UTF-16 units. -/
def ofPair (leading trailing : Nat) : Char :=
  Char.ofNat (0x10000 + (leading - 0xd800) * 0x400 + (trailing - 0xdc00))

/-- The second half of a pair: the unit of the escape ahead. -/
def trailingUnit : List Char → Except Error Nat
  | [] | ['\\'] => .error .truncated
  | '\\' :: 'u' :: cs =>
    match fourHex cs with
    | .error e => .error e
    | .ok unit => if isTrailing unit then .ok unit else .error .malformed
  | _ => .error .malformed

/-- What an escape by number means and how long it is, behind the `u`. -/
def numberEscape (cs : List Char) : Except Error (Char × Nat) :=
  match fourHex cs with
  | .error e => .error e
  | .ok unit =>
    if isTrailing unit then .error .malformed
    else if isLeading unit then
      match trailingUnit (cs.drop 4) with
      | .error e => .error e
      | .ok second => .ok (ofPair unit second, 10)
    else .ok (Char.ofNat unit, 4)

/-- What a letter or sign stands for behind a backslash. -/
def shortEscape? : Char → Option Char
  | '"' => some '"'
  | '\\' => some '\\'
  | '/' => some '/'
  | 'b' => some '\x08'
  | 'f' => some '\x0c'
  | 'n' => some '\n'
  | 'r' => some '\r'
  | 't' => some '\t'
  | _ => none

/-- What an escape means and how long it is, behind the backslash. -/
def escapeAhead : List Char → Except Error (Char × Nat)
  | [] => .error .truncated
  | c :: cs =>
    if c = 'u' then (numberEscape cs).map fun (meant, length) => (meant, length + 1)
    else match shortEscape? c with
      | some meant => .ok (meant, 1)
      | none => .error .malformed

/-- The value of a string behind its opening quote. The first `claimed` code points belong to an
escape that was read already. -/
def stringRest : (claimed : Nat) → List Char → Parsed (List Char)
  | _, [] => .error .truncated
  | claimed + 1, _ :: cs => stringRest claimed cs
  | 0, c :: cs =>
    if c = '"' then .ok ([], cs)
    else if c = '\\' then
      match escapeAhead cs with
      | .error e => .error e
      | .ok (meant, length) => (stringRest length cs).map fun (s, rest) => (meant :: s, rest)
    else if c.toNat < 0x20 then .error .malformed
    else (stringRest 0 cs).map fun (s, rest) => (c :: s, rest)

/-- The value of a string behind its opening quote. -/
def stringAhead (cs : List Char) : Parsed String :=
  (stringRest 0 cs).map fun (s, rest) => (String.ofList s, rest)

/-! ### Strings that are passed over -/

/-- The length of an escape that is only checked, behind the backslash. -/
def escapeLength : List Char → Except Error Nat
  | [] => .error .truncated
  | c :: cs =>
    if c = 'u' then (fourHex cs).map fun _ => 5
    else if (shortEscape? c).isSome then .ok 1
    else .error .malformed

/-- The length of a string that is only checked, behind its opening quote. The first `claimed` code
points belong to an escape. -/
def stringLength : (claimed : Nat) → List Char → Except Error Nat
  | _, [] => .error .truncated
  | claimed + 1, _ :: cs => (stringLength claimed cs).map (· + 1)
  | 0, c :: cs =>
    if c = '"' then .ok 1
    else if c = '\\' then
      match escapeLength cs with
      | .error e => .error e
      | .ok length => (stringLength length cs).map (· + 1)
    else if c.toNat < 0x20 then .error .malformed
    else (stringLength 0 cs).map (· + 1)

end JsLexer.Json
