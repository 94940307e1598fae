import JsLexer.CommandLine

/-!
The program. It reads files and standard input, prints, and exits; what it prints is decided in
`CommandLine` and `Session`.
-/

namespace JsLexer.Main

/-- The number of a problem, from a code that may be its negative in 32 bits. -/
def numberOf (code : UInt32) : Nat := min code.toNat (-code).toNat

/-- Why a file could not be read. -/
def problemOf (e : IO.Error) : ReadProblem :=
  let number? := match e with
    | .noFileOrDirectory _ code _ | .noSuchThing _ code _ | .permissionDenied _ code _
    | .inappropriateType _ code _ | .invalidArgument _ code _ => some (numberOf code)
    | _ => none
  (number?.bind ReadProblem.ofNumber?).getD (.other (toString e))

/-- Reads a file. -/
def readText (path : String) : IO FileRead := do
  if path.contains '\x00' then return ⟨path, .error .nulInPath⟩
  try
    let bytes ← IO.FS.readBinFile path
    return ⟨path, (String.fromUTF8? bytes).elim (.error .invalidText) .ok⟩
  catch e => return ⟨path, .error (problemOf e)⟩

/-- The one file that a session may load next. -/
def filesOf (path? : Option String) : IO Files := do
  match path? with
  | none => return fun _ => .error .notFound
  | some path =>
    let read ← readText path
    return fun p => if p = path then read.text else .error .notFound

/-- Prints on both channels. -/
def print (output : Output) : IO Unit := do
  (← IO.getStdout).putStr output.out
  (← IO.getStderr).putStr output.err
  (← IO.getStdout).flush

/-- Prints and gives the exit code. -/
def finish (outcome : CommandLine.Outcome) : IO UInt32 := do
  print outcome.output
  return outcome.code.toUInt32

/-- The bytes of standard input up to a line feed, or up to the end. -/
partial def readLine (input : IO.FS.Stream) (line : List UInt8) : IO (List UInt8) := do
  match (← input.read 1).toList with
  | b :: _ => if b = 10 then return (b :: line).reverse else readLine input (b :: line)
  | [] => return line.reverse

/-- Feeds lines of standard input to a session. -/
partial def converse (s : Session) (input : IO.FS.Stream) : IO Unit := do
  let bytes ← readLine input []
  if s.ended || bytes.isEmpty then print s.close
  else
    let line := InputLine.ofBytes bytes
    let files ← filesOf (s.fileWanted? line)
    let (s, output) := s.feed files line
    print output
    if s.ended then print s.close else converse s input

end JsLexer.Main

open JsLexer in
/-- Runs the program. -/
def main (args : List String) : IO UInt32 := do
  match CommandLine.plan args with
  | .done outcome => Main.finish outcome
  | .source f matchers text => Main.finish (CommandLine.runSource f matchers text)
  | .files f jobs matchers paths =>
    Main.finish (CommandLine.runFiles f jobs matchers (← paths.mapM Main.readText))
  | .session start =>
    Main.print (.ofOut Session.Screen.banner)
    Main.converse start (← IO.getStdin)
    return 0
