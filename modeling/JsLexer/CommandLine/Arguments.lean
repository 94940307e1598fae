import JsLexer.CharClass

/-!
The arguments of the program.

Options and files can be mixed in any order, and behind `--` everything is a file. A value is either
attached to its option or the next argument, which must not look like an option then. Arguments are
taken from left to right and the first one that is wrong, or asks for the version or for help,
settles the matter.
-/

namespace JsLexer.CommandLine

/-- What the program is told to do. -/
structure Arguments where
  files : List String
  /-- Source text to scan instead of files. -/
  eval : Option String
  json : Bool
  noTrivia : Bool
  verbose : Bool
  /-- Names of categories, as they were given. -/
  matchers : Option (List String)
  /-- How many workers scan the files. -/
  jobs : Option Nat
deriving DecidableEq

/-- Why there is nothing to do. -/
inductive Refusal
  | version
  | help
  | usage
deriving DecidableEq

/-- The options without a value. -/
inductive Switch
  | json | noTrivia | verbose
deriving DecidableEq

/-- The options with a value. -/
inductive Valued
  | eval | jobs | matchers
deriving DecidableEq

/-- What a letter or word behind dashes stands for. -/
inductive Meaning
  | switch (s : Switch)
  | valued (v : Valued)
  | refusal (r : Refusal)

namespace Arguments

/-- What is done without arguments. -/
def initial : Arguments := ⟨[], none, false, false, false, none, none⟩

/-- The option of a letter. -/
def short? : Char → Option Meaning
  | 'e' => some (.valued .eval)
  | 'j' => some (.valued .jobs)
  | 'v' => some (.switch .verbose)
  | 'V' => some (.refusal .version)
  | 'h' => some (.refusal .help)
  | _ => none

/-- The option of a word. -/
def long? (word : String) : Option Meaning :=
  if word = "eval" then some (.valued .eval)
  else if word = "jobs" then some (.valued .jobs)
  else if word = "matchers" then some (.valued .matchers)
  else if word = "json" then some (.switch .json)
  else if word = "no-trivia" then some (.switch .noTrivia)
  else if word = "verbose" then some (.switch .verbose)
  else if word = "version" then some (.refusal .version)
  else if word = "help" then some (.refusal .help)
  else none

/-- The largest number of workers that can be written. -/
def maxJobs : Nat := 0xffffffffffffffff

/-- A number of workers: decimal digits, perhaps behind a plus sign. -/
def jobsOf? (value : List Char) : Option Nat :=
  let digits := match value with
    | '+' :: rest => rest
    | _ => value
  let jobs := Nat.ofDigitChars 10 digits 0
  if digits.isEmpty || !digits.all isDecimalDigit || maxJobs < jobs then none else some jobs

/-- Turns a switch on, unless it is on already. -/
def turnOn (a : Arguments) : Switch → Except Refusal Arguments
  | .json => if a.json then .error .usage else .ok { a with json := true }
  | .noTrivia => if a.noTrivia then .error .usage else .ok { a with noTrivia := true }
  | .verbose => if a.verbose then .error .usage else .ok { a with verbose := true }

/-- Gives a value to an option. Names of categories add up, and the others can be given once. -/
def give (a : Arguments) (v : Valued) (value : List Char) : Except Refusal Arguments :=
  match v with
  | .eval =>
    if a.eval.isSome then .error .usage else .ok { a with eval := some (String.ofList value) }
  | .jobs =>
    match a.jobs, jobsOf? value with
    | none, some jobs => .ok { a with jobs := some jobs }
    | _, _ => .error .usage
  | .matchers =>
    let names := (Text.splitWhere (· == ',') value).map String.ofList
    .ok { a with matchers := some (a.matchers.getD [] ++ names) }

/-- Adds files, none of which may have an empty name. -/
def addFiles (a : Arguments) (paths : List String) : Except Refusal Arguments :=
  if paths.contains "" then .error .usage else .ok { a with files := a.files ++ paths }

/-! ### Reading -/

/-- Arguments so far, and the option whose value is to come. -/
abbrev State := Arguments × Option Valued

/-- Takes the letters behind a dash. The first option with a value takes what is left of them. -/
def takeLetters (a : Arguments) : List Char → Except Refusal State
  | [] => .ok (a, none)
  | c :: cs =>
    match short? c with
    | none => .error .usage
    | some (.refusal r) => .error r
    | some (.switch s) =>
      match a.turnOn s with
      | .error r => .error r
      | .ok a => takeLetters a cs
    | some (.valued v) =>
      match cs with
      | [] => .ok (a, some v)
      | '=' :: value => (a.give v value).map (·, none)
      | value => (a.give v value).map (·, none)

/-- Takes the word behind two dashes, with the value that may be attached to it. -/
def takeWord (a : Arguments) (cs : List Char) : Except Refusal State :=
  let word := cs.takeWhile (· != '=')
  let attached := cs.drop word.length
  match long? (String.ofList word), attached with
  | some (.refusal r), [] => .error r
  | some (.switch s), [] => (a.turnOn s).map (·, none)
  | some (.valued v), [] => .ok (a, some v)
  | some (.valued v), _ :: value => (a.give v value).map (·, none)
  | _, _ => .error .usage

/-- Takes one argument in front of `--`. -/
def takeArgument (a : Arguments) (waiting : Option Valued) (arg : String) : Except Refusal State :=
  match arg.toList, waiting with
  | '-' :: _ :: _, some _ => .error .usage
  | '-' :: '-' :: word, none => a.takeWord word
  | '-' :: c :: letters, none => a.takeLetters (c :: letters)
  | value, some v => (a.give v value).map (·, none)
  | _, none => (a.addFiles [arg]).map (·, none)

/-- Takes arguments in order. -/
def takeAll (a : Arguments) (waiting : Option Valued) : List String → Except Refusal Arguments
  | [] => if waiting.isSome then .error .usage else .ok a
  | arg :: args =>
    if arg = "--" then
      if waiting.isSome then .error .usage else a.addFiles args
    else match a.takeArgument waiting arg with
      | .error r => .error r
      | .ok (a, waiting) => takeAll a waiting args

/-- What arguments tell to do. Source text and files exclude each other. -/
def parse (args : List String) : Except Refusal Arguments :=
  match initial.takeAll none args with
  | .error r => .error r
  | .ok a => if a.eval.isSome && !a.files.isEmpty then .error .usage else .ok a

end Arguments

end JsLexer.CommandLine
