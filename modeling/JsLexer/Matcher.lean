import JsLexer.Cursor
import JsLexer.LexError

/-!
Matchers: how one category of tokens is recognized and produced.

A matcher sees the text through a cursor and may consult the token before. It builds its token from
a mark set on entry, so tokens are contiguous: a token starts where the one before it ended, and its
text is all that the cursor passed since.
-/

namespace JsLexer

/-- What a scan has produced so far, as far as matchers may know. -/
structure Context where
  lastToken : Option Token
deriving DecidableEq

namespace Context

/-- Before the first token. -/
def initial : Context := ⟨none⟩

/-- Where the next token starts: at the end of the last one, or at the origin. -/
def start (ctx : Context) : Position := (ctx.lastToken.map (·.stop)).getD .origin

end Context

/-- Where a token under construction begins. -/
structure Mark where
  offset : Nat
  position : Position

namespace Mark

/-- Marks the start of a token at the cursor. -/
def here (ctx : Context) (s : Cursor) : Mark := ⟨s.offset, ctx.start⟩

/-- The token of all that the cursor has passed since the mark. -/
def token (m : Mark) (kind : TokenKind) (s : Cursor) : Token :=
  ⟨kind, String.ofList ((s.consumedSince m.offset).getD []), m.position, s.position⟩

end Mark

/-- One category of tokens. -/
structure Matcher where
  name : String
  /-- Whether the category starts at the cursor. -/
  recognize : Cursor → Bool
  /-- Produces a token, or an error, and tells where the cursor is left. -/
  produce : Context → Cursor → Except LexError Token × Cursor

end JsLexer
