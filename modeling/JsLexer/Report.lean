import JsLexer.Display.Output
import JsLexer.Source

/-!
The report on several files.

As a table, every file has its heading, unless it is the only one, and its rows. As JSON, the files
that could be scanned make up one document. Errors go to the other channel, and one error is enough
for the run to fail; the other files are reported as if nothing had happened.
-/

namespace JsLexer.Report

/-- A file and the outcome for it. -/
abbrev Entry := String × Except SourceError (List Token)

/-- The heading of a file. -/
def heading (path : String) : String :=
  Display.Style.bold.apply (Display.Style.white.apply path) ++ "\n"

/-- The errors of a file, and the rows of the tokens before them. -/
def failed (f : Display.Format) (path : String) : SourceError → Output
  | .scan x => .ofErr (Display.Style.cyan.apply path ++ ": ") ++ Display.failure f x
  | e => .ofErr (Display.plainErrorLine e.message)

/-- The output for one file; in JSON its tokens are left for the document. -/
def entry (f : Display.Format) (path : String) : Except SourceError (List Token) → Output
  | .ok ts => if f.json then .empty else .ofOut (Display.tokens f ts)
  | .error e => failed f path e

/-- The output for one of several files. -/
def headed (f : Display.Format) (several : Bool) (x : Entry) : Output :=
  (if several && !f.json then .ofOut (heading x.1) else .empty) ++ entry f x.1 x.2

/-- A file with its tokens, as an element of the document. -/
def written (path : String) (ts : List Token) : Json.Written :=
  Json.object [("File", Json.text path), ("Tokens", Json.array (ts.map (·.written)))]

/-- The element of a file, if it could be scanned. -/
def element? (f : Display.Format) (x : Entry) : Option Json.Written :=
  match x.2 with
  | .ok ts => some (written x.1 (Display.visible f.trivia ts))
  | .error _ => none

/-- The document of all files that could be scanned. -/
def document (f : Display.Format) (xs : List Entry) : String :=
  Json.render (Json.array (xs.filterMap (element? f)))

/-- The report on files, in order. -/
def output (f : Display.Format) (xs : List Entry) : Output :=
  .join (xs.map (headed f (1 < xs.length))) ++
    (if f.json then .ofOut (document f xs ++ "\n") else .empty)

/-- Whether every file could be scanned. -/
def succeeded (xs : List Entry) : Bool := xs.all fun x => x.2.isOk

end JsLexer.Report
