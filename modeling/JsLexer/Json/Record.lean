import JsLexer.Json.Ignored

/-!
Values of a wanted type.

A value that is not of the wanted type is rejected by naming what was found, as soon as its first
bracket is seen or, if it has none, once it was read. A record is either an object, with its fields in
any order and among other members, or a list of its fields in order.
-/

namespace JsLexer.Json

/-- What the value ahead is, as far as a rejection tells. -/
def foundAhead : List Char → Except Error Found
  | [] => .error .truncated
  | c :: cs =>
    match c with
    | '[' => .ok .sequence
    | '\x7b' => .ok .map
    | '"' => (stringAhead cs).map fun (s, _) => .string s
    | 'n' => (expectWord ['u', 'l', 'l'] cs).map fun _ => .null
    | 't' => (expectWord ['r', 'u', 'e'] cs).map fun _ => .boolean true
    | 'f' => (expectWord ['a', 'l', 's', 'e'] cs).map fun _ => .boolean false
    | '-' => (numberAhead true cs).map fun (n, _) => ofNumber n
    | _ =>
      if isDecimalDigit c then (numberAhead false (c :: cs)).map fun (n, _) => ofNumber n
      else .error .malformed
where
  ofNumber : Number → Found
    | .natural n => .integer n
    | .negative n => .integer n
    | .real x => .real (realText x)

/-- The error for a value ahead that is not of the wanted type. -/
def reject (wanted : String) (cs : List Char) : Error :=
  match foundAhead cs with
  | .error e => e
  | .ok found => .rejected (.wrongType found wanted)

/-! ### Single values -/

/-- Reads a string. -/
def readString (wanted : String) (cs : List Char) : Parsed String :=
  match skipBlanks cs with
  | '"' :: rest => stringAhead rest
  | rest => .error (reject wanted rest)

/-- The wording for an unsigned integer. -/
def countWanted : String := "usize"

/-- Takes a number that is an unsigned integer. -/
def countOf : Parsed Number → Parsed Nat
  | .error e => .error e
  | .ok (.natural n, rest) => .ok (n, rest)
  | .ok (.negative n, _) => .error (.rejected (.wrongValue (.integer n) countWanted))
  | .ok (.real x, _) => .error (.rejected (.wrongType (.real (realText x)) countWanted))

/-- Reads an unsigned integer. -/
def readCount (cs : List Char) : Parsed Nat :=
  match skipBlanks cs with
  | '-' :: rest => countOf (numberAhead true rest)
  | rest => if digitAhead rest then countOf (numberAhead false rest)
    else .error (reject countWanted rest)

/-! ### Lists -/

/-- Comes to the next element of a list, or to its closing bracket. -/
def nextElement (first : Bool) (cs : List Char) : Except Error (Option (List Char)) :=
  match skipBlanks cs with
  | [] => .error .truncated
  | ']' :: _ => .ok none
  | c :: rest =>
    if first then .ok (some (c :: rest))
    else if c = ',' then
      match skipBlanks rest with
      | [] => .error .truncated
      | ']' :: _ => .error .malformed
      | element => .ok (some element)
    else .error .malformed

/-- Passes the closing bracket of a list. -/
def closeList (cs : List Char) : Except Error (List Char) :=
  match skipBlanks cs with
  | [] => .error .truncated
  | ']' :: rest => .ok rest
  | _ => .error .malformed

/-- Reads at most `limit` elements up to the closing bracket. -/
def elementsAhead {α : Type} (read : List Char → Parsed α) :
    (limit : Nat) → (first : Bool) → List Char → Parsed (List α)
  | 0, _, _ => .error .truncated
  | limit + 1, first, cs =>
    match nextElement first cs with
    | .error e => .error e
    | .ok none => (closeList cs).map fun rest => ([], rest)
    | .ok (some element) =>
      match read element with
      | .error e => .error e
      | .ok (a, rest) =>
        (elementsAhead read limit false rest).map fun (as, rest) => (a :: as, rest)

/-- Reads a list. Every element takes at least one code point, so the length of the text is limit
enough. -/
def readList {α : Type} (read : List Char → Parsed α) (cs : List Char) : Parsed (List α) :=
  match skipBlanks cs with
  | '[' :: rest => elementsAhead read (rest.length + 1) true rest
  | rest => .error (reject "a sequence" rest)

/-! ### Records -/

/-- A field of a record that is read into a draft. -/
structure Field (Draft : Type) where
  key : String
  /-- Whether the draft has this field already. -/
  isSet : Draft → Bool
  /-- Reads the field into the draft. -/
  read : Draft → List Char → Parsed Draft

/-- How a record is read. -/
structure Record (Draft α : Type) where
  name : String
  fields : List (Field Draft)
  /-- The draft before any field was read. -/
  blank : Draft
  /-- The record, once the draft has every field. -/
  complete : Draft → Option α

namespace Record

variable {Draft α : Type}

/-- The wording for the record. -/
def wanted (r : Record Draft α) : String := "struct " ++ r.name

/-- The wording for the list of its fields. -/
def wantedLength (r : Record Draft α) : String :=
  r.wanted ++ " with " ++ toString r.fields.length ++ " elements"

/-- Finishes a draft, or names the first field that it lacks. -/
def finish (r : Record Draft α) (draft : Draft) : Except Error α :=
  match r.fields.find? (!·.isSet draft) with
  | some field => .error (.rejected (.missingField field.key))
  | none =>
    match r.complete draft with
    | some a => .ok a
    | none => .error .malformed

/-- Reads the fields from a list, in order. -/
def fromList (r : Record Draft α) : (first : Bool) → List (Field Draft) → Draft → List Char →
    Parsed Draft
  | _, [], draft, cs => (closeList cs).map fun rest => (draft, rest)
  | first, field :: fields, draft, cs =>
    match nextElement first cs with
    | .error e => .error e
    | .ok none =>
      .error (.rejected (.tooShort (r.fields.length - (fields.length + 1)) r.wantedLength))
    | .ok (some element) =>
      match field.read draft element with
      | .error e => .error e
      | .ok (draft, rest) => fromList r false fields draft rest

/-- Comes to the next key of an object and reads it, or passes the closing brace. -/
def nextKey (first : Bool) (cs : List Char) : Parsed (Option String) :=
  match skipBlanks cs with
  | [] => .error .truncated
  | c :: rest =>
    if c = '\x7d' then .ok (none, rest)
    else if first then keyAhead (c :: rest)
    else if c = ',' then keyAhead (skipBlanks rest)
    else .error .malformed
where
  keyAhead : List Char → Parsed (Option String)
    | [] => .error .truncated
    | '"' :: rest => (stringAhead rest).map fun (key, rest) => (some key, rest)
    | _ => .error .malformed

/-- Passes the colon behind a key. -/
def passColon (cs : List Char) : Except Error (List Char) :=
  match skipBlanks cs with
  | [] => .error .truncated
  | ':' :: rest => .ok rest
  | _ => .error .malformed

/-- Reads the value of a member into the draft, or passes over it if its key is no field. -/
def readMember (r : Record Draft α) (key : String) (draft : Draft) (cs : List Char) :
    Parsed Draft :=
  match r.fields.find? (·.key == key) with
  | some field =>
    if field.isSet draft then .error (.rejected (.duplicateField key))
    else (passColon cs).bind (field.read draft)
  | none => ((passColon cs).bind skipValue).map fun rest => (draft, rest)

/-- Reads at most `limit` members up to the closing brace. -/
def fromObject (r : Record Draft α) : (limit : Nat) → (first : Bool) → Draft → List Char →
    Parsed Draft
  | 0, _, _, _ => .error .truncated
  | limit + 1, first, draft, cs =>
    match nextKey first cs with
    | .error e => .error e
    | .ok (none, rest) => .ok (draft, rest)
    | .ok (some key, rest) =>
      match r.readMember key draft rest with
      | .error e => .error e
      | .ok (draft, rest) => fromObject r limit false draft rest

/-- Reads a record. Every member takes at least one code point, so the length of the text is limit
enough. -/
def read (r : Record Draft α) (cs : List Char) : Parsed α :=
  let draft := match skipBlanks cs with
    | '[' :: rest => r.fromList true r.fields r.blank rest
    | '\x7b' :: rest => r.fromObject (rest.length + 1) true r.blank rest
    | rest => .error (reject r.wanted rest)
  match draft with
  | .error e => .error e
  | .ok (draft, rest) => (r.finish draft).map fun a => (a, rest)

end Record

/-! ### Whole texts -/

/-- Reads a text that is one value, with blanks around it. -/
def decode {α : Type} (read : List Char → Parsed α) (s : String) : Except Error α :=
  match read s.toList with
  | .error e => .error e
  | .ok (a, rest) => if (skipBlanks rest).isEmpty then .ok a else .error .malformed

end JsLexer.Json
