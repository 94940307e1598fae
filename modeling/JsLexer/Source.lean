import JsLexer.Lexer

/-!
Tokens of whole sources: texts, bytes, files and batches of them.

A source may fail before it is scanned, because its bytes are no text or its file cannot be read.
Such a failure concerns one source only: the answers for a list of sources stand in the order of the
list, one for each.
-/

namespace JsLexer

/-- Why a file gives no text. -/
inductive ReadProblem
  | notFound
  | noDevice
  | notPermitted
  | notDirectory
  | isDirectory
  | nameTooLong
  /-- The path has a NUL in it, so it cannot be the path of a file. -/
  | nulInPath
  | invalidText
  | other (description : String)
deriving DecidableEq

/-- The wording for bytes that are not UTF-8. -/
def invalidTextMessage : String := "stream did not contain valid UTF-8"

namespace ReadProblem

/-- The problem of a given number. -/
def ofNumber? : Nat → Option ReadProblem
  | 2 => some .notFound
  | 6 => some .noDevice
  | 13 => some .notPermitted
  | 20 => some .notDirectory
  | 21 => some .isDirectory
  | 36 => some .nameTooLong
  | _ => none

/-- The wording of a problem, with its number where the system has one for it. -/
def message : ReadProblem → String
  | .notFound => "No such file or directory (os error 2)"
  | .noDevice => "No such device or address (os error 6)"
  | .notPermitted => "Permission denied (os error 13)"
  | .notDirectory => "Not a directory (os error 20)"
  | .isDirectory => "Is a directory (os error 21)"
  | .nameTooLong => "File name too long (os error 36)"
  | .nulInPath => "file name contained an unexpected NUL byte"
  | .invalidText => invalidTextMessage
  | .other description => description

end ReadProblem

/-- A file that a run was told to read, and what came of it. A file that is read twice need not give
the same text twice, because it may be a stream. -/
structure FileRead where
  path : String
  text : Except ReadProblem String

/-- Why a source gives no tokens. -/
inductive SourceError
  | scan (failure : ScanFailure)
  | invalidText
  | unreadable (path : String) (problem : ReadProblem)
deriving DecidableEq

/-- The wording of the failure of a source. -/
def SourceError.message : SourceError → String
  | .scan failure => failure.message
  | .invalidText => "IO error: " ++ invalidTextMessage
  | .unreadable path problem => "failed to read " ++ path ++ ": " ++ problem.message

/-- The texts of files by their paths, at one moment. -/
abbrev Files := String → Except ReadProblem String

namespace Source

/-- The tokens of a text. -/
def ofText (matchers : List Matcher) (source : String) : Except SourceError (List Token) :=
  (tokenizeBy matchers source).mapError .scan

/-- The tokens of a text in UTF-8. -/
def ofBytes (matchers : List Matcher) (bytes : ByteArray) : Except SourceError (List Token) :=
  match String.fromUTF8? bytes with
  | none => .error .invalidText
  | some source => ofText matchers source

/-- The text of a file, or the failure of the source that it is. -/
def textOf (r : FileRead) : Except SourceError String := r.text.mapError (.unreadable r.path)

/-- The tokens of a file. -/
def ofFile (matchers : List Matcher) (r : FileRead) : Except SourceError (List Token) :=
  match textOf r with
  | .error problem => .error problem
  | .ok source => ofText matchers source

/-- The tokens of each file. -/
def ofFiles (matchers : List Matcher) (reads : List FileRead) :
    List (Except SourceError (List Token)) :=
  reads.map (ofFile matchers)

/-! ### Batches for several workers -/

/-- A list in `workers` shares of `size` elements each and one more share of what is left. -/
def shares {α : Type} (size : Nat) : (workers : Nat) → List α → List (List α)
  | 0, xs => [xs]
  | workers + 1, xs => xs.take size :: shares size workers (xs.drop size)

/-- The tokens of each text. The texts are dealt out in shares, one task to a share. -/
def ofTexts (workers : Nat) (matchers : List Matcher) (sources : List String) :
    List (Except ScanFailure (List Token)) :=
  let busy := min workers sources.length
  let size := (sources.length + busy - 1) / busy
  let tasks := (shares size busy sources).map fun share =>
    Task.spawn fun _ => share.map (tokenizeBy matchers)
  (tasks.map Task.get).flatten

/-- The tokens of each file, scanned by several workers. A file that could not be read keeps its
place in the batch, with no text. -/
def ofFilesBy (workers : Nat) (matchers : List Matcher) (reads : List FileRead) :
    List (Except SourceError (List Token)) :=
  let scans := ofTexts workers matchers (reads.map fun r => r.text.toOption.getD "")
  reads.zipWith (fun r scan => (textOf r).bind fun _ => scan.mapError .scan) scans

end Source

end JsLexer
