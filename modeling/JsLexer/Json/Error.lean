import JsLexer.Text.Quoted

/-!
Why a JSON text is not taken.

Texts are read from left to right and the first error counts: the text breaks the grammar, or it
ends too early, or what it says is not what was wanted.
-/

namespace JsLexer.Json

/-- What stands in place of the wanted value. -/
inductive Found
  | null
  | boolean (value : Bool)
  | integer (value : Int)
  /-- A number that is no integer of 64 bits, as its shortest decimal text. -/
  | real (digits : String)
  | string (value : String)
  | sequence
  | map
deriving DecidableEq

/-- The wording of what was found. -/
def Found.describe : Found → String
  | .null => "null"
  | .boolean true => "boolean `true`"
  | .boolean false => "boolean `false`"
  | .integer n => "integer `" ++ toString n ++ "`"
  | .real digits => "floating point `" ++ digits ++ "`"
  | .string s => "string " ++ Text.quoted s
  | .sequence => "sequence"
  | .map => "map"

/-- Why a value that is good JSON is not the wanted one. -/
inductive Rejection
  | wrongType (found : Found) (wanted : String)
  | wrongValue (found : Found) (wanted : String)
  | tooShort (length : Nat) (wanted : String)
  | unknownKind (name : String)
  | duplicateField (key : String)
  | missingField (key : String)
deriving DecidableEq

/-- The wording of a rejection. -/
def Rejection.message : Rejection → String
  | .wrongType found wanted => "invalid type: " ++ found.describe ++ ", expected " ++ wanted
  | .wrongValue found wanted => "invalid value: " ++ found.describe ++ ", expected " ++ wanted
  | .tooShort length wanted => "invalid length " ++ toString length ++ ", expected " ++ wanted
  | .unknownKind name => "unknown token kind `" ++ name ++ "`"
  | .duplicateField key => "duplicate field `" ++ key ++ "`"
  | .missingField key => "missing field `" ++ key ++ "`"

/-- The first error of a text. -/
inductive Error
  /-- The text breaks the grammar. -/
  | malformed
  /-- The text ends before its value does. -/
  | truncated
  /-- The text says something else than what was wanted. -/
  | rejected (cause : Rejection)
deriving DecidableEq

/-- A value read from the start of a text and the text after it. -/
abbrev Parsed (α : Type) := Except Error (α × List Char)

end JsLexer.Json
