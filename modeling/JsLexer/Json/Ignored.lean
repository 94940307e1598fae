import JsLexer.Json.Number

/-!
Values that are passed over.

Such a value is only checked to be JSON. The check walks through the text with a stack of the
brackets that are open and knows what may come next, so nesting has no limit. Words, strings and
numbers are measured where they start and then passed as a whole.
-/

namespace JsLexer.Json

/-- A bracket that is open. -/
inductive Bracket
  | array | object
deriving DecidableEq

/-- What may come next, blanks apart. -/
inductive Expected
  /-- A value. -/
  | value
  /-- A value, or the end of the array that was just opened. -/
  | firstElement
  /-- A key, or the end of the object that was just opened. -/
  | firstKey
  /-- A key. -/
  | key
  /-- The colon behind a key. -/
  | colon
  /-- A comma or the end of what is open. -/
  | separator
deriving DecidableEq

/-- How the walk goes on behind a code point that starts or ends something. -/
structure Step where
  stack : List Bracket
  expected : Expected
  /-- How many code points ahead belong to a word, string or number that was checked. -/
  claimed : Nat

/-- The length of a word whose first letter is passed. -/
def wordLength (word cs : List Char) : Except Error Nat :=
  (expectWord word cs).map fun _ => word.length

/-- The step behind the first code point of a value. -/
def openValue (stack : List Bracket) (c : Char) (cs : List Char) : Except Error Step :=
  let atom (length : Except Error Nat) : Except Error Step :=
    length.map fun claimed => ⟨stack, .separator, claimed⟩
  match c with
  | '[' => .ok ⟨.array :: stack, .firstElement, 0⟩
  | '\x7b' => .ok ⟨.object :: stack, .firstKey, 0⟩
  | '"' => atom (stringLength 0 cs)
  | '-' => atom (numberLength cs)
  | 'n' => atom (wordLength ['u', 'l', 'l'] cs)
  | 't' => atom (wordLength ['r', 'u', 'e'] cs)
  | 'f' => atom (wordLength ['a', 'l', 's', 'e'] cs)
  | _ =>
    if isDecimalDigit c then atom ((numberLength (c :: cs)).map (· - 1)) else .error .malformed

/-- The step behind the first code point of a key. -/
def openKey (stack : List Bracket) (c : Char) (cs : List Char) : Except Error Step :=
  if c = '"' then (stringLength 0 cs).map fun claimed => ⟨stack, .colon, claimed⟩
  else .error .malformed

/-- The step behind what follows a value inside an array or object. -/
def closeValue (stack : List Bracket) (c : Char) : Except Error Step :=
  match stack, c with
  | .array :: _, ',' => .ok ⟨stack, .value, 0⟩
  | .array :: outer, ']' => .ok ⟨outer, .separator, 0⟩
  | .object :: _, ',' => .ok ⟨stack, .key, 0⟩
  | .object :: outer, '\x7d' => .ok ⟨outer, .separator, 0⟩
  | _, _ => .error .malformed

/-- The step behind a code point that is not blank. -/
def walkStep (stack : List Bracket) (expected : Expected) (c : Char) (cs : List Char) :
    Except Error Step :=
  match expected with
  | .value => openValue stack c cs
  | .firstElement => if c = ']' then .ok ⟨stack.tail, .separator, 0⟩ else openValue stack c cs
  | .firstKey => if c = '\x7d' then .ok ⟨stack.tail, .separator, 0⟩ else openKey stack c cs
  | .key => openKey stack c cs
  | .colon => if c = ':' then .ok ⟨stack, .value, 0⟩ else .error .malformed
  | .separator => closeValue stack c

/-- Walks to the end of the value and gives the text behind it. -/
def walk (stack : List Bracket) (expected : Expected) : (claimed : Nat) → List Char →
    Except Error (List Char)
  | 0, [] => if stack.isEmpty ∧ expected = .separator then .ok [] else .error .truncated
  | _ + 1, [] => .error .truncated
  | claimed + 1, _ :: cs => walk stack expected claimed cs
  | 0, c :: cs =>
    if stack.isEmpty ∧ expected = .separator then .ok (c :: cs)
    else if isBlank c then walk stack expected 0 cs
    else match walkStep stack expected c cs with
      | .error e => .error e
      | .ok step => walk step.stack step.expected step.claimed cs

/-- Passes over one value and the blanks before it. -/
def skipValue (cs : List Char) : Except Error (List Char) := walk [] .value 0 cs

end JsLexer.Json
