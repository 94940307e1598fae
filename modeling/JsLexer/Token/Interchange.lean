import JsLexer.Json.Layout
import JsLexer.Json.Record
import JsLexer.Token

/-!
Tokens as JSON.

A token is written as an object of its text, the name of its kind and the places where it starts and
ends. Reading takes that and every other JSON spelling of the same fields.
-/

namespace JsLexer

/-! ### Writing -/

/-- A position as an object. -/
def Position.written (p : Position) : Json.Written :=
  Json.object [("Line", Json.natural p.line), ("Column", Json.natural p.column)]

/-- A token as an object. -/
def Token.written (t : Token) : Json.Written :=
  Json.object [("Text", Json.text t.text), ("Kind", Json.text t.kind.name),
    ("Start", t.start.written), ("End", t.stop.written)]

/-- The text of a token. -/
def Token.toJson (t : Token) : String := Json.render t.written

/-- The text of a list of tokens. -/
def Token.listToJson (ts : List Token) : String := Json.render (Json.array (ts.map (·.written)))

/-! ### Reading -/

/-- The fields of a position that were read so far. -/
structure Position.Draft where
  line : Option Nat
  column : Option Nat

/-- How a position is read. -/
def Position.record : Json.Record Position.Draft Position where
  name := "Position"
  fields := [
    ⟨"Line", (·.line.isSome), fun draft cs =>
      (Json.readCount cs).map fun (n, rest) => ({ draft with line := some n }, rest)⟩,
    ⟨"Column", (·.column.isSome), fun draft cs =>
      (Json.readCount cs).map fun (n, rest) => ({ draft with column := some n }, rest)⟩]
  blank := ⟨none, none⟩
  complete draft := return ⟨← draft.line, ← draft.column⟩

/-- Reads the name of a kind. -/
def TokenKind.readName (cs : List Char) : Json.Parsed TokenKind :=
  match Json.readString "a token kind name such as \"IDENTIFIER_NAME\"" cs with
  | .error e => .error e
  | .ok (name, rest) =>
    match TokenKind.ofName? name with
    | some kind => .ok (kind, rest)
    | none => .error (.rejected (.unknownKind name))

/-- The fields of a token that were read so far. -/
structure Token.Draft where
  text : Option String
  kind : Option TokenKind
  start : Option Position
  stop : Option Position

/-- How a token is read. -/
def Token.record : Json.Record Token.Draft Token where
  name := "Token"
  fields := [
    ⟨"Text", (·.text.isSome), fun draft cs =>
      (Json.readString "a string" cs).map fun (s, rest) => ({ draft with text := some s }, rest)⟩,
    ⟨"Kind", (·.kind.isSome), fun draft cs =>
      (TokenKind.readName cs).map fun (k, rest) => ({ draft with kind := some k }, rest)⟩,
    ⟨"Start", (·.start.isSome), fun draft cs =>
      (Position.record.read cs).map fun (p, rest) => ({ draft with start := some p }, rest)⟩,
    ⟨"End", (·.stop.isSome), fun draft cs =>
      (Position.record.read cs).map fun (p, rest) => ({ draft with stop := some p }, rest)⟩]
  blank := ⟨none, none, none, none⟩
  complete draft :=
    return ⟨← draft.kind, ← draft.text, ← draft.start, ← draft.stop⟩

/-- The token that a text spells. -/
def Token.ofJson (s : String) : Except Json.Error Token := Json.decode Token.record.read s

/-- The list of tokens that a text spells. -/
def Token.listOfJson (s : String) : Except Json.Error (List Token) :=
  Json.decode (Json.readList Token.record.read) s

end JsLexer
