import JsLexer.Proofs.Failure

/-!
Tokens on demand.

A lexer that is asked for one token after another gives what scanning the whole text gives at once:
the tokens in order, then the error if there is one, then nothing for ever. So the outcome of the
scan and the number of tokens asked for decide every answer, and questions in between that only look
at the lexer make no difference.
-/

namespace JsLexer

/-! ### What an outcome promises -/

/-- The error of an outcome, unless the scan succeeded. -/
def errorOf : Except ScanFailure (List Token) → Option LexError
  | .ok _ => none
  | .error failure => some failure.error

/-- The outcome of a scan that gives these tokens and then ends, with an error or without. -/
def outcomeOf (tokens : List Token) : Option LexError → Except ScanFailure (List Token)
  | none => .ok tokens
  | some e => .error ⟨tokens, e⟩

/-- What a scan gives, item by item: its tokens and then its error. -/
def items (x : Except ScanFailure (List Token)) : List (Except LexError Token) :=
  (Display.produced x).map .ok ++ (errorOf x).toList.map .error

/-- Whether the end of the outcome was given by the time that `n` items were asked for. -/
def isOver (x : Except ScanFailure (List Token)) (n : Nat) : Bool :=
  (Display.produced x).length < n

/-- The context when `n` items were asked for. -/
def contextAt (x : Except ScanFailure (List Token)) (n : Nat) : Context :=
  ⟨((Display.produced x).take n).getLast?⟩

/-- Where the scan stands when `n` items were asked for: behind the last token, or where it failed
if the error was given. -/
def positionAt (x : Except ScanFailure (List Token)) (n : Nat) : Position :=
  match errorOf x with
  | some e => if isOver x n then e.position else (contextAt x n).start
  | none => (contextAt x n).start

/-- What is left to be collected when `n` items were asked for. -/
def leftAt (x : Except ScanFailure (List Token)) (n : Nat) : Except ScanFailure (List Token) :=
  if isOver x n then .ok [] else outcomeOf ((Display.produced x).drop n) (errorOf x)

/-! ### Questions -/

/-- What a lexer can be asked. -/
inductive Question
  | next | position | isFinished | lastToken | start
  /-- What a copy of the lexer collects up to its end. -/
  | remaining
deriving DecidableEq

/-- The answer to a question. -/
inductive Answer
  | item (item : Option (Except LexError Token))
  | position (p : Position)
  | flag (on : Bool)
  | token (t : Option Token)
  | outcome (x : Except ScanFailure (List Token))

namespace Lexer

/-- Answers a question. Only the question for the next token moves the lexer. -/
def answer (l : Lexer) : Question → Answer × Lexer
  | .next => (.item l.next.1, l.next.2)
  | .position => (.position l.position, l)
  | .isFinished => (.flag l.isFinished, l)
  | .lastToken => (.token l.context.lastToken, l)
  | .start => (.position l.context.start, l)
  | .remaining => (.outcome l.remaining, l)

/-- Answers questions in order. -/
def answers : Lexer → List Question → List Answer × Lexer
  | l, [] => ([], l)
  | l, q :: qs => ((l.answer q).1 :: ((l.answer q).2.answers qs).1, ((l.answer q).2.answers qs).2)

end Lexer

/-- The answer that an outcome promises when `n` items were asked for before. -/
def promised (x : Except ScanFailure (List Token)) (n : Nat) : Question → Answer
  | .next => .item (items x)[n]?
  | .position => .position (positionAt x n)
  | .isFinished => .flag (isOver x n)
  | .lastToken => .token (contextAt x n).lastToken
  | .start => .position (contextAt x n).start
  | .remaining => .outcome (leftAt x n)

/-- The answers that an outcome promises, when `n` items were asked for before. -/
def allPromised (x : Except ScanFailure (List Token)) : Nat → List Question → List Answer
  | _, [] => []
  | n, .next :: qs => promised x n .next :: allPromised x (n + 1) qs
  | n, q :: qs => promised x n q :: allPromised x n qs

namespace Lexer

/-! ### The end of a scan -/

theorem advance_succ (n : Nat) (l : Lexer) : l.advance (n + 1) = (l.advance n).next.2 := by
  induction n generalizing l with
  | zero => rfl
  | succ n ih => exact ih l.next.2

theorem advance_add (m n : Nat) (l : Lexer) : l.advance (m + n) = (l.advance m).advance n := by
  induction m generalizing l with
  | zero => rw [Nat.zero_add, advance]
  | succ m ih => rw [Nat.succ_add]; exact ih l.next.2

/-- Once a lexer is finished it gives nothing, and collects nothing. -/
theorem next_of_isFinished {l : Lexer} (h : l.isFinished = true) : l.next = (none, l) := by
  unfold next
  split <;> simp_all [isFinished]

theorem remaining_of_isFinished {l : Lexer} (h : l.isFinished = true) : l.remaining = .ok [] := by
  rw [remaining, enough, collect, next_of_isFinished h]

/-- A step gives a token, or the lexer is finished behind it. One that gives nothing leaves the lexer
where it was. -/
theorem next_ends (l : Lexer) : (∃ t, l.next.1 = some (.ok t)) ∨ l.next.2.isFinished = true ∧
    (l.next.1 = none → l.next.2.cursor = l.cursor ∧ l.next.2.context = l.context) := by
  unfold next
  split
  · next hstatus => exact .inr ⟨by simp [isFinished, hstatus], fun _ => ⟨rfl, rfl⟩⟩
  · next hstatus => exact .inr ⟨by simp [isFinished, hstatus], fun _ => ⟨rfl, rfl⟩⟩
  · split
    · split
      · exact .inr ⟨rfl, fun _ => ⟨rfl, rfl⟩⟩
      · exact .inr ⟨rfl, fun h => by cases h⟩
    · split
      · exact .inr ⟨rfl, fun h => by cases h⟩
      · split
        · exact .inr ⟨rfl, fun h => by cases h⟩
        · exact .inl ⟨_, rfl⟩

/-- A step that gives no token finishes the lexer and keeps its context. -/
theorem next_of_end {l : Lexer} {e : Option LexError} (h : l.next.1 = e.map .error) :
    l.next.2.isFinished = true ∧ l.next.2.context = l.context ∧
      (e = none → l.next.2.cursor = l.cursor) := by
  obtain ⟨hfinished, hstill⟩ := l.next_ends.resolve_left (by
    rintro ⟨t, ht⟩
    rw [h] at ht
    cases e <;> simp at ht)
  cases e with
  | none => exact ⟨hfinished, (hstill h).2, fun _ => (hstill h).1⟩
  | some e => exact ⟨hfinished, (next_error (Prod.ext h rfl)).1, fun he => by cases he⟩

/-- A run can be interrupted after any number of its tokens. -/
theorem Yields.split {l l' : Lexer} {tokens : List Token} (h : l.Yields tokens l') {n : Nat}
    (hn : n ≤ tokens.length) :
    l.Yields (tokens.take n) (l.advance n) ∧ (l.advance n).Yields (tokens.drop n) l' := by
  induction h generalizing n with
  | none l =>
    obtain rfl := Nat.le_zero.1 hn
    exact ⟨.none l, .none l⟩
  | @token l l₁ l' t tokens hnext hrun ih =>
    cases n with
    | zero => exact ⟨.none l, .token hnext hrun⟩
    | succ n =>
      obtain ⟨hbefore, hbehind⟩ := ih (Nat.le_of_succ_le_succ hn)
      have hadvance : l.advance (n + 1) = l₁.advance n := by rw [advance, hnext]
      rw [hadvance]
      exact ⟨.token hnext hbefore, hbehind⟩

/-- A run to the end of a scan is what is collected, if there are steps enough for one more. -/
theorem Yields.collect {l l' : Lexer} {tokens : List Token} {e : Option LexError}
    (h : l.Yields tokens l') (hend : l'.next.1 = e.map .error) {steps : Nat}
    (hsteps : tokens.length < steps) : l.collect steps = outcomeOf tokens e := by
  induction h generalizing steps with
  | none l =>
    obtain ⟨steps, rfl⟩ := Nat.exists_eq_add_one_of_ne_zero (Nat.ne_of_gt hsteps)
    have hnext : l.next = (e.map .error, l.next.2) := Prod.ext hend rfl
    rw [Lexer.collect, hnext]
    cases e <;> rfl
  | token hnext _ ih =>
    obtain ⟨steps, rfl⟩ := Nat.exists_eq_add_one_of_ne_zero (Nat.ne_zero_of_lt hsteps)
    rw [Lexer.collect, hnext]
    dsimp only
    rw [ih hend (Nat.lt_of_succ_lt_succ hsteps)]
    cases e <;> rfl

end Lexer

/-- A scan runs through the tokens of its outcome to a lexer that gives the end of it. -/
theorem exists_yields (bs : List Builtin) (source : String) :
    ∃ l, (Lexer.start (bs.map (·.matcher)) source.toList).Yields
        (Display.produced (tokenizeWith bs source)) l ∧ l.status = .scanning ∧
      l.next.1 = (errorOf (tokenizeWith bs source)).map .error := by
  have hforward := (Lexer.reached_start bs source.toList).forward
  cases hresult : tokenizeWith bs source with
  | error failure =>
    obtain ⟨l, hrun, herror⟩ := Lexer.yields_of_collect_error hresult
    exact ⟨l, hrun, (hrun.consumes hforward).status, herror⟩
  | ok tokens =>
    obtain ⟨l, hrun, hend⟩ := Lexer.yields_of_collect_ok hresult
    have hconsumes := hrun.consumes hforward
    have hlength : tokens.length ≤ source.toList.length := hconsumes.length_le
    refine ⟨l, hrun, hconsumes.status, hend.resolve_right ?_⟩
    change tokens.length ≠ source.toList.length + 1
    omega

/-! ### A lexer keeps the promise of its outcome -/

/-- A lexer that was asked for `n` items of an outcome. -/
structure Lexer.Keeps (x : Except ScanFailure (List Token)) (n : Nat) (l : Lexer) : Prop where
  next : l.next.1 = (items x)[n]?
  position : l.position = positionAt x n
  finished : l.isFinished = isOver x n
  context : l.context = contextAt x n
  remaining : l.remaining = leftAt x n

theorem getElem?_items {x : Except ScanFailure (List Token)} {n : Nat}
    (h : (Display.produced x).length ≤ n) :
    (items x)[n]? = if isOver x n then none else (errorOf x).map .error := by
  rw [items, List.getElem?_append_right (by simpa using h), List.length_map]
  rcases Nat.eq_or_lt_of_le h with rfl | hlt
  · cases errorOf x <;> simp [isOver]
  · have hpos : n - (Display.produced x).length ≠ 0 := by omega
    cases errorOf x <;> simp [isOver, hlt, hpos]

section
variable {bs : List Builtin} {source : String} {n : Nat}

/-- As long as there is a token or an error to come, the lexer is at the end of the last token. -/
theorem Lexer.keeps_running (h : n ≤ (Display.produced (tokenizeWith bs source)).length) :
    ((Lexer.start (bs.map (·.matcher)) source.toList).advance n).Keeps
      (tokenizeWith bs source) n := by
  obtain ⟨l, hrun, hstatus, hend⟩ := exists_yields bs source
  generalize tokenizeWith bs source = x at *
  obtain ⟨hbefore, hbehind⟩ := hrun.split h
  have hreached := (Lexer.reached_start bs source.toList).yields hbefore
  have hconsumes := hbehind.consumes hreached.forward
  rw [List.nil_append] at hreached
  have hover : isOver x n = false := by simpa [isOver] using h
  refine ⟨?_, ?_, ?_, hreached.context, ?_⟩
  · rcases Nat.eq_or_lt_of_le h with heq | hlt
    · rw [getElem?_items (Nat.le_of_eq heq.symm), hover, heq, ← hrun.eq_advance]
      exact hend
    · rw [List.drop_eq_getElem_cons hlt] at hbehind
      cases hbehind with
      | token hnext _ => rw [hnext, items, List.getElem?_append_left (by simpa using hlt)]; simp [hlt]
  · rw [hreached.start, hreached.context, positionAt, hover]
    cases errorOf x <;> rfl
  · rw [hover, Lexer.isFinished, ← hconsumes.status, hstatus]
    rfl
  · rw [leftAt, hover]
    exact hbehind.collect hend (Nat.lt_succ_of_le hconsumes.length_le)

/-- Once the end was given, nothing changes any more. -/
theorem Lexer.keeps_over (h : (Display.produced (tokenizeWith bs source)).length < n) :
    ((Lexer.start (bs.map (·.matcher)) source.toList).advance n).Keeps
      (tokenizeWith bs source) n := by
  obtain ⟨l, hrun, hstatus, hend⟩ := exists_yields bs source
  generalize tokenizeWith bs source = x at *
  obtain ⟨m, rfl⟩ := Nat.exists_eq_add_of_lt h
  obtain ⟨hfinished, hsame, hstill⟩ := Lexer.next_of_end hend
  have hreached := (Lexer.reached_start bs source.toList).yields hrun
  rw [List.nil_append] at hreached
  have hadvance : (Lexer.start (bs.map (·.matcher)) source.toList).advance
      ((Display.produced x).length + m + 1) = l.next.2 := by
    rw [Nat.add_right_comm, Lexer.advance_add, Lexer.advance_succ, ← hrun.eq_advance,
      Lexer.advance_of_isFinished hfinished]
  have hover : isOver x ((Display.produced x).length + m + 1) = true := decide_eq_true h
  have hcontext : contextAt x ((Display.produced x).length + m + 1) = l.context := by
    rw [contextAt, List.take_of_length_le (Nat.le_of_lt h), hreached.context]
  rw [hadvance]
  refine ⟨?_, ?_, by rw [hfinished, hover], ?_, ?_⟩
  · rw [getElem?_items (Nat.le_of_lt h), hover, Lexer.next_of_isFinished hfinished]
    rfl
  · rw [positionAt, hover, hcontext]
    cases herror : errorOf x with
    | none =>
      rw [Lexer.position, hstill herror]
      exact hreached.start
    | some e =>
      rw [herror] at hend
      exact (hreached.describes (Prod.ext hend rfl)).2.1
  · rw [hcontext, hsame]
  · rw [leftAt, hover]
    exact Lexer.remaining_of_isFinished hfinished

end

/-- However many items it was asked for, a lexer keeps the promise of the outcome. -/
theorem Lexer.keeps_advance (bs : List Builtin) (source : String) (n : Nat) :
    ((Lexer.start (bs.map (·.matcher)) source.toList).advance n).Keeps
      (tokenizeWith bs source) n := by
  rcases Nat.lt_or_ge (Display.produced (tokenizeWith bs source)).length n with h | h
  · exact Lexer.keeps_over h
  · exact Lexer.keeps_running h

theorem Lexer.Keeps.answer {x : Except ScanFailure (List Token)} {n : Nat} {l : Lexer}
    (h : l.Keeps x n) (q : Question) : (l.answer q).1 = promised x n q := by
  cases q with
  | next => exact congrArg Answer.item h.next
  | position => exact congrArg Answer.position h.position
  | isFinished => exact congrArg Answer.flag h.finished
  | lastToken => exact congrArg (Answer.token ·.lastToken) h.context
  | start => exact congrArg (Answer.position ·.start) h.context
  | remaining => exact congrArg Answer.outcome h.remaining

/-- Only the questions for the next token count: questions lead to the lexer that has taken as many
steps. -/
theorem Lexer.answers_snd (l : Lexer) (qs : List Question) :
    (l.answers qs).2 = l.advance (qs.count .next) := by
  induction qs generalizing l with
  | nil => rfl
  | cons q qs ih =>
    rw [Lexer.answers, ih]
    cases q <;> simp [Lexer.answer, Lexer.advance]

theorem Lexer.answers_advance (bs : List Builtin) (source : String) (n : Nat)
    (qs : List Question) :
    (((Lexer.start (bs.map (·.matcher)) source.toList).advance n).answers qs).1 =
      allPromised (tokenizeWith bs source) n qs := by
  induction qs generalizing n with
  | nil => rfl
  | cons q qs ih =>
    have hkeeps := Lexer.keeps_advance bs source n
    rw [Lexer.answers]
    cases q with
    | next =>
      rw [allPromised, hkeeps.answer .next, Lexer.answer, ← Lexer.advance_succ, ih]
    | position | isFinished | lastToken | start | remaining =>
      rw [allPromised, hkeeps.answer, Lexer.answer, ih]
      nofun

/-- Asking for tokens one by one agrees with scanning the whole text. Whatever is asked of a lexer
and in whatever order, all answers are those that the outcome of the scan promises. While the lexer
is scanning, it stands where the next token starts, behind the last token that it gave; once it is
finished, no question changes it. -/
theorem answers_eq_promised (bs : List Builtin) (source : String) (qs : List Question) :
    let asked := (Lexer.start (bs.map (·.matcher)) source.toList).answers qs
    let n := qs.count .next
    asked.1 = allPromised (tokenizeWith bs source) 0 qs ∧
      (asked.2.isFinished = true ↔ (Display.produced (tokenizeWith bs source)).length < n) ∧
      (asked.2.isFinished = false → asked.2.position = asked.2.context.start ∧
        asked.2.context.lastToken = ((Display.produced (tokenizeWith bs source)).take n).getLast?) ∧
      (asked.2.isFinished = true → ∀ more, (asked.2.answers more).2 = asked.2) ∧
      asked.2.remaining = leftAt (tokenizeWith bs source) n := by
  intro asked n
  have hkeeps : asked.2.Keeps (tokenizeWith bs source) n := by
    rw [Lexer.answers_snd]
    exact Lexer.keeps_advance bs source n
  refine ⟨Lexer.answers_advance bs source 0 qs, ?_, ?_, ?_, hkeeps.remaining⟩
  · rw [hkeeps.finished, isOver, decide_eq_true_iff]
  · intro hscanning
    rw [hkeeps.finished] at hscanning
    rw [hkeeps.context, hkeeps.position, positionAt, hscanning]
    cases errorOf (tokenizeWith bs source) <;> exact ⟨rfl, rfl⟩
  · intro hfinished more
    rw [Lexer.answers_snd, Lexer.advance_of_isFinished hfinished]

/-- A token, an error, and nothing any more. -/
example : ((Lexer.start [Builtin.identifierName.matcher] "a@".toList).answers
    [.next, .isFinished, .remaining, .next, .isFinished, .next, .position]).1 =
    [.item (some (.ok ⟨.identifierName, "a", ⟨0, 0⟩, ⟨0, 1⟩⟩)), .flag false,
      .outcome (.error ⟨[], .unexpectedCharacter '@' ⟨0, 1⟩⟩),
      .item (some (.error (.unexpectedCharacter '@' ⟨0, 1⟩))), .flag true, .item none,
      .position ⟨0, 1⟩] := rfl

end JsLexer
