/-!
Colours and styles for terminals.

A text is set between an escape sequence that turns a style on and one that turns it off again.
Styles can be nested, and an empty text is set between the sequences all the same.
-/

namespace JsLexer.Display

/-- Colours and other styles of text. -/
inductive Style
  | red | green | yellow | blue | magenta | cyan | white
  | brightBlack | brightGreen | brightYellow | brightCyan
  | bold | dimmed | italic
deriving DecidableEq

namespace Style

/-- The number that turns a style on. -/
def code : Style → Nat
  | .bold => 1
  | .dimmed => 2
  | .italic => 3
  | .red => 31
  | .green => 32
  | .yellow => 33
  | .blue => 34
  | .magenta => 35
  | .cyan => 36
  | .white => 37
  | .brightBlack => 90
  | .brightGreen => 92
  | .brightYellow => 93
  | .brightCyan => 96

/-- The number that turns a style off: the default colour, or no style at all. -/
def resetCode : Style → Nat
  | .bold | .dimmed | .italic => 0
  | _ => 39

/-- The escape sequence of a number. -/
def sequence (n : Nat) : String := "\x1b[" ++ toString n ++ "m"

/-- A text in a style. -/
def apply (s : Style) (text : String) : String :=
  sequence s.code ++ text ++ sequence s.resetCode

end Style

/-! ### Padding -/

/-- Spaces that fill `width` characters together with `text`. -/
def filler (width : Nat) (text : String) : String :=
  String.ofList (List.replicate (width - text.length) ' ')

/-- A text at the right of `width` characters. -/
def padLeft (width : Nat) (text : String) : String := filler width text ++ text

/-- A text at the left of `width` characters. -/
def padRight (width : Nat) (text : String) : String := text ++ filler width text

end JsLexer.Display
