import JsLexer.Proofs.Session.FirstLine

/-!
How the lines of a session are grouped into inputs.

A session takes lines until they make up a complete input, executes it, and starts anew. So the
inputs that it executes are the shortest runs of lines that are complete when their turn comes; what
is complete depends on the categories of that moment, which the editor and the session share. What
has not been executed when the input ends is one run of lines that has not been complete yet.
-/

namespace JsLexer

/-! ### Outputs -/

namespace Output

@[simp] theorem empty_append (a : Output) : empty ++ a = a := by
  change (⟨"" ++ a.out, "" ++ a.err⟩ : Output) = a
  simp

@[simp] theorem append_empty (a : Output) : a ++ empty = a := by
  change (⟨a.out ++ "", a.err ++ ""⟩ : Output) = a
  simp

theorem append_assoc (a b c : Output) : a ++ b ++ c = a ++ (b ++ c) := by
  change (⟨_, _⟩ : Output) = ⟨_, _⟩
  exact congrArg₂ Output.mk (String.append_assoc ..) (String.append_assoc ..)

end Output

namespace Session

/-! ### Inputs -/

/-- A line of text: what is on it, and its line end. -/
abbrev TextLine := String × String

/-- The line as it comes in. -/
def TextLine.line (l : TextLine) : InputLine := .text l.1 l.2

/-- The text of lines with their line ends. -/
def typed : List TextLine → String
  | [] => ""
  | (body, lineEnd) :: lines => body ++ lineEnd ++ typed lines

/-- The input that lines make up: the text of the lines, without the last line end. -/
def inputOf : List TextLine → String
  | [] => ""
  | [(body, _)] => body
  | (body, lineEnd) :: lines => body ++ lineEnd ++ inputOf lines

/-- An input that can be executed as it is: a command, or source that a scan does not find
unterminated. -/
def Complete (bs : List Builtin) (input : String) : Prop :=
  (Command.parse? input).isSome = true ∨
    ∀ failure, tokenizeWith bs input = .error failure → failure.error.isUnterminated = false

/-- Lines that make up a complete input, and fewer of them do not. -/
def Shortest (bs : List Builtin) (lines : List TextLine) : Prop :=
  lines ≠ [] ∧ Complete bs (inputOf lines) ∧
    ∀ first, first <+: lines → first ≠ [] → first ≠ lines → ¬ Complete bs (inputOf first)

/-- Lines that do not make up a complete input, however many of them are taken. -/
def Unfinished (bs : List Builtin) (lines : List TextLine) : Prop :=
  ∀ first, first <+: lines → first ≠ [] → ¬ Complete bs (inputOf first)

theorem inputOf_cons (l : TextLine) {lines : List TextLine} (h : lines ≠ []) :
    inputOf (l :: lines) = l.1 ++ l.2 ++ inputOf lines := by
  cases lines with
  | nil => exact absurd rfl h
  | cons m lines => rfl

theorem inputOf_concat (lines : List TextLine) (body lineEnd : String) :
    inputOf (lines ++ [(body, lineEnd)]) = typed lines ++ body := by
  induction lines with
  | nil => simp [inputOf, typed]
  | cons l lines ih =>
    rw [List.cons_append, inputOf_cons l (by simp), ih, typed]
    exact (String.append_assoc ..).symm

theorem typed_concat (lines : List TextLine) (body lineEnd : String) :
    typed (lines ++ [(body, lineEnd)]) = typed lines ++ body ++ lineEnd := by
  induction lines with
  | nil => simp [typed]
  | cons l lines ih => simp [typed, ih, String.append_assoc]

theorem Editor.isComplete_iff (e : Editor) (input : String) :
    e.isComplete input = true ↔ Complete e.categories input := by
  have hscan : tokenizeBy e.matchers input = tokenizeWith e.categories input := rfl
  rw [Editor.isComplete, Bool.or_eq_true, Complete, Display.isUnterminated, hscan]
  refine or_congr_right ?_
  cases tokenizeWith e.categories input <;> simp

theorem unfinished_nil (bs : List Builtin) : Unfinished bs [] := by
  intro first hprefix hne
  exact absurd (List.prefix_nil.1 hprefix) hne

/-- One line more completes a shortest input, or the input is still unfinished. -/
theorem Unfinished.shortest {bs : List Builtin} {lines : List TextLine} (h : Unfinished bs lines)
    {l : TextLine} (hcomplete : Complete bs (inputOf (lines ++ [l]))) :
    Shortest bs (lines ++ [l]) := by
  refine ⟨by simp, hcomplete, ?_⟩
  intro first hprefix hne hshort
  exact h first ((List.prefix_concat_iff.1 hprefix).resolve_left hshort) hne

theorem Unfinished.concat {bs : List Builtin} {lines : List TextLine} (h : Unfinished bs lines)
    {l : TextLine} (hopen : ¬ Complete bs (inputOf (lines ++ [l]))) :
    Unfinished bs (lines ++ [l]) := by
  intro first hprefix hne
  rcases List.prefix_concat_iff.1 hprefix with rfl | hprefix
  · exact hopen
  · exact h first hprefix hne

/-! ### What is executed -/

/-- An input when it is executed, and the session that executes it. -/
structure Execution where
  session : Session
  input : String

namespace Execution

/-- What the session prints for the input. -/
def output (files : Files) (x : Execution) : Output := (x.session.execute files x.input).2

/-- Whether the input is the command that ends the session. -/
def IsExit (x : Execution) : Prop := (Command.parse? x.input).map Prod.fst = some .exit

end Execution

/-- What a session executes while it takes lines, in order. -/
def executed (s : Session) (files : Files) : List InputLine → List Execution
  | [] => []
  | line :: lines =>
    let later := executed (s.feed files line).1 files lines
    match line with
    | .invalid => later
    | .text body _ =>
      if !s.ended && s.editor.isComplete (s.inputWith body) then
        ⟨{ s with pending := "" }, s.inputWith body⟩ :: later
      else later

/-! ### Between two inputs -/

/-- A session that is between two inputs, with an editor that scans as it does. -/
structure Ready (s : Session) : Prop where
  pending : s.pending = ""
  ended : s.ended = false
  editor : s.editor.categories = s.categories

theorem ready_start (categories : List Builtin) (format : Display.Format) :
    (start categories format).Ready := ⟨rfl, rfl, rfl⟩

theorem Ready.setCategories {s : Session} (hs : s.Ready) (list : String) :
    (s.setCategories list).1.Ready := by
  rw [Session.setCategories]
  split
  · exact ⟨hs.pending, hs.ended, rfl⟩
  · exact hs

/-- Every command but one leaves the session ready for the next input. -/
theorem Ready.command {s : Session} (hs : s.Ready) (files : Files) {c : Command}
    (hc : c ≠ .exit) (argument : Option String) : (s.command files c argument).1.Ready := by
  cases c with
  | exit => exact absurd rfl hc
  | help | clear | version => exact hs
  | load => cases argument <;> exact hs
  | json | trivia => exact ⟨hs.pending, hs.ended, hs.editor⟩
  | matchers =>
    cases argument with
    | none => exact hs
    | some list => exact hs.setCategories list

theorem parse?_of_blank {input : String} (h : (Text.trim input.toList).isEmpty = true) :
    Command.parse? input = none := by
  rw [Command.parse?, List.isEmpty_iff.1 h]

/-- An input that is no command leaves the session as it is. -/
theorem execute_source {input : String} (h : Command.parse? input = none) (s : Session)
    (files : Files) : s.execute files input =
      (s, if (Text.trim input.toList).isEmpty then .empty else s.scan input) := by
  rw [execute, h]
  split <;> rfl

theorem execute_command {input : String} {c : Command} {argument : Option String}
    (h : Command.parse? input = some (c, argument)) (s : Session) (files : Files) :
    s.execute files input = s.command files c argument := by
  have hblank : ¬ (Text.trim input.toList).isEmpty = true := by
    intro hblank
    rw [parse?_of_blank hblank] at h
    cases h
  rw [execute, if_neg hblank, h]

/-- After an input the session is ready for the next one, or the input was the one that ends it. -/
theorem Ready.execute {s : Session} (hs : s.Ready) (files : Files) (input : String) :
    ((s.execute files input).1.ended = true ∧ Execution.IsExit ⟨s, input⟩) ∨
      ((s.execute files input).1.Ready ∧ ¬ Execution.IsExit ⟨s, input⟩) := by
  rw [Execution.IsExit]
  cases hparse : Command.parse? input with
  | none =>
    rw [execute_source hparse]
    exact .inr ⟨hs, by simp⟩
  | some command =>
    obtain ⟨c, argument⟩ := command
    rw [execute_command hparse]
    by_cases hc : c = .exit
    · subst hc
      exact .inl ⟨rfl, by simp⟩
    · exact .inr ⟨hs.command files hc argument, by simp [hc]⟩

/-! ### Taking a line -/

/-- A session that holds lines of an unfinished input. -/
def holding (s : Session) (held : List TextLine) : Session := { s with pending := typed held }

section Steps

variable {s : Session} {held : List TextLine} {body lineEnd : String}

theorem Ready.holding_nil (hs : s.Ready) : s.holding [] = s := by
  cases s
  cases hs.pending
  rfl

theorem Ready.isComplete_iff (hs : s.Ready) :
    (s.holding held).editor.isComplete ((s.holding held).inputWith body) = true ↔
      Complete s.categories (inputOf (held ++ [(body, lineEnd)])) := by
  rw [Editor.isComplete_iff, inputOf_concat, ← hs.editor]
  rfl

theorem Ready.feed_complete (hs : s.Ready) (files : Files)
    (h : Complete s.categories (inputOf (held ++ [(body, lineEnd)]))) :
    (s.holding held).feed files (.text body lineEnd) =
      s.execute files (inputOf (held ++ [(body, lineEnd)])) := by
  rw [feed, if_neg (by simp [holding, hs.ended])]
  dsimp only
  rw [if_pos (hs.isComplete_iff.2 h), inputOf_concat]
  exact congrArg (fun t : Session => t.execute files (typed held ++ body)) hs.holding_nil

theorem Ready.feed_unfinished (hs : s.Ready) (files : Files)
    (h : ¬ Complete s.categories (inputOf (held ++ [(body, lineEnd)]))) :
    (s.holding held).feed files (.text body lineEnd) =
      (s.holding (held ++ [(body, lineEnd)]), .empty) := by
  rw [feed, if_neg (by simp [holding, hs.ended])]
  dsimp only
  rw [if_neg (mt hs.isComplete_iff.1 h)]
  exact congrArg (fun text => ({ s with pending := text }, Output.empty))
    (typed_concat held body lineEnd).symm

theorem Ready.executed_complete (hs : s.Ready) (files : Files) (lines : List InputLine)
    (h : Complete s.categories (inputOf (held ++ [(body, lineEnd)]))) :
    (s.holding held).executed files (.text body lineEnd :: lines) =
      ⟨s, inputOf (held ++ [(body, lineEnd)])⟩ ::
        (s.execute files (inputOf (held ++ [(body, lineEnd)]))).1.executed files lines := by
  have hended : (s.holding held).ended = false := hs.ended
  rw [executed, hs.feed_complete files h, if_pos (by rw [hended, hs.isComplete_iff.2 h]; rfl),
    inputOf_concat]
  exact congrArg (fun t => (⟨t, typed held ++ body⟩ : Execution) :: _) hs.holding_nil

theorem Ready.executed_unfinished (hs : s.Ready) (files : Files) (lines : List InputLine)
    (h : ¬ Complete s.categories (inputOf (held ++ [(body, lineEnd)]))) :
    (s.holding held).executed files (.text body lineEnd :: lines) =
      (s.holding (held ++ [(body, lineEnd)])).executed files lines := by
  rw [executed, hs.feed_unfinished files h, if_neg]
  intro hboth
  exact h (hs.isComplete_iff.1 (Bool.and_eq_true_iff.1 hboth).2)

theorem feed_of_ended (h : s.ended = true) (files : Files) (line : InputLine) :
    s.feed files line = (s, .empty) := by
  unfold feed
  rw [if_pos h]

theorem feedAll_of_ended (h : s.ended = true) (files : Files) (lines : List InputLine) :
    s.feedAll files lines = (s, .empty) := by
  induction lines with
  | nil => rfl
  | cons line lines ih => simp [feedAll, feed_of_ended h, ih]

theorem executed_of_ended (h : s.ended = true) (files : Files) (lines : List InputLine) :
    s.executed files lines = [] := by
  induction lines with
  | nil => rfl
  | cons line lines ih => cases line <;> simp [executed, feed_of_ended h, h, ih]

end Steps

/-! ### A whole session -/

/-- Why a session stops: the command for it, the end of its input, or a line that is no text. -/
inductive Stop
  | exit | endOfInput | invalidLine

namespace Stop

/-- What is printed last. -/
def output : Stop → Output
  | .exit => .ofOut Screen.goodbye
  | .endOfInput => .ofOut (Screen.endOfInput ++ Screen.goodbye)
  | .invalidLine => Session.invalidLine ++ .ofOut Screen.goodbye

/-- What has been executed, what is pending and which lines are left when a session stops so. -/
def Applies (xs : List Execution) (pending : List TextLine) (rest : List InputLine) : Stop → Prop
  | .exit => pending = [] ∧
    ∃ earlier last, xs = earlier ++ [last] ∧ last.IsExit ∧ ∀ x ∈ earlier, ¬ x.IsExit
  | .endOfInput => rest = [] ∧ ∀ x ∈ xs, ¬ x.IsExit
  | .invalidLine => rest.head? = some .invalid ∧ ∀ x ∈ xs, ¬ x.IsExit

theorem Applies.cons {xs : List Execution} {pending : List TextLine} {rest : List InputLine}
    {stop : Stop} (h : stop.Applies xs pending rest) {x : Execution} (hx : ¬ x.IsExit) :
    stop.Applies (x :: xs) pending rest := by
  have hall : (∀ y ∈ xs, ¬ y.IsExit) → ∀ y ∈ x :: xs, ¬ y.IsExit := fun hxs =>
    List.forall_mem_cons.2 ⟨hx, hxs⟩
  cases stop with
  | exit =>
    obtain ⟨hpending, earlier, last, rfl, hlast, hearlier⟩ := h
    exact ⟨hpending, x :: earlier, last, rfl, hlast, List.forall_mem_cons.2 ⟨hx, hearlier⟩⟩
  | endOfInput | invalidLine => exact ⟨h.1, hall h.2⟩

end Stop

/-- Lines that make up an input, and the session that executes it. -/
structure Group where
  session : Session
  lines : List TextLine

/-- The execution of a group. -/
def Group.execution (g : Group) : Execution := ⟨g.session, inputOf g.lines⟩

/-- The groups that a session which holds some lines makes of them and of the lines to come, the
lines that are pending when it stops, and the lines that it does not take. -/
structure Grouping (s : Session) (files : Files) (held : List TextLine) (lines : List InputLine)
    (groups : List Group) (pending : List TextLine) (rest : List InputLine) (stop : Stop) :
    Prop where
  /-- The groups are what is executed, in order. -/
  executed : s.executed files lines = groups.map Group.execution
  /-- Every line is in one group, or pending, or is not taken. -/
  partition : held.map TextLine.line ++ lines =
    ((groups.map Group.lines).flatten ++ pending).map TextLine.line ++ rest
  /-- A group is complete with its last line and not before. -/
  shortest : ∀ g ∈ groups, Shortest g.session.categories g.lines
  /-- The pending lines have not been complete. -/
  unfinished : Unfinished (s.feedAll files lines).1.categories pending
  /-- Nothing is printed but for the groups and for the end. -/
  output : (s.feedAll files lines).2 ++ (s.feedAll files lines).1.close =
    .join (groups.map fun g => g.execution.output files) ++ stop.output

section Step

variable {s : Session} {files : Files} {held : List TextLine} {l : TextLine}
  {lines rest : List InputLine} {groups : List Group} {pending : List TextLine} {stop : Stop}

/-- The lines are at their end. -/
theorem Grouping.of_nil (hs : s.Ready) (hheld : Unfinished s.categories held) :
    Grouping (s.holding held) files held [] [] held [] .endOfInput := by
  refine ⟨rfl, rfl, by simp, hheld, ?_⟩
  rw [feedAll, close, show (s.holding held).ended = false from hs.ended]
  rfl

/-- A session that is over takes no more lines. -/
theorem Grouping.of_ended (h : s.ended = true) :
    Grouping s files [] lines [] [] lines .exit := by
  refine ⟨executed_of_ended h files lines, rfl, by simp, unfinished_nil _, ?_⟩
  rw [feedAll_of_ended h, close, h]
  rfl

/-- A line that is no text. -/
theorem Grouping.of_invalid (hs : s.Ready) (hheld : Unfinished s.categories held) :
    Grouping (s.holding held) files held (.invalid :: lines) [] held (.invalid :: lines)
      .invalidLine := by
  have hfeed : (s.holding held).feed files .invalid =
      ({ s.holding held with ended := true }, invalidLine) := by
    rw [feed, if_neg (by simp [holding, hs.ended])]
  have hall : (s.holding held).feedAll files (.invalid :: lines) =
      ({ s.holding held with ended := true }, invalidLine) := by
    rw [feedAll, hfeed]
    dsimp only
    rw [feedAll_of_ended rfl]
    simp only [Output.append_empty]
  refine ⟨?_, rfl, by simp, ?_, ?_⟩
  · rw [Session.executed, hfeed]
    exact executed_of_ended rfl files lines
  · rw [hall]
    exact hheld
  · rw [hall]
    rfl

/-- A line that leaves the input unfinished. -/
theorem Grouping.of_unfinished (hs : s.Ready)
    (hopen : ¬ Complete s.categories (inputOf (held ++ [l])))
    (h : Grouping (s.holding (held ++ [l])) files (held ++ [l]) lines groups pending rest stop) :
    Grouping (s.holding held) files held (l.line :: lines) groups pending rest stop := by
  have hall : (s.holding held).feedAll files (l.line :: lines) =
      (s.holding (held ++ [l])).feedAll files lines := by
    rw [feedAll, TextLine.line, hs.feed_unfinished files hopen]
    simp only [Output.empty_append]
  refine ⟨?_, ?_, h.shortest, ?_, ?_⟩
  · rw [TextLine.line, hs.executed_unfinished files lines hopen, h.executed]
  · rw [← h.partition]
    simp
  · rw [hall]
    exact h.unfinished
  · rw [hall, h.output]

/-- A line that completes the input. -/
theorem Grouping.of_complete (hs : s.Ready) (hheld : Unfinished s.categories held)
    (hcomplete : Complete s.categories (inputOf (held ++ [l])))
    (h : Grouping (s.execute files (inputOf (held ++ [l]))).1 files [] lines groups pending rest
      stop) :
    Grouping (s.holding held) files held (l.line :: lines) (⟨s, held ++ [l]⟩ :: groups) pending rest
      stop := by
  have hfeed := hs.feed_complete files hcomplete
  refine ⟨?_, ?_, ?_, ?_, ?_⟩
  · rw [TextLine.line, hs.executed_complete files lines hcomplete, h.executed]
    rfl
  · have hlines := h.partition
    rw [List.map_nil, List.nil_append] at hlines
    rw [hlines]
    simp
  · exact List.forall_mem_cons.2 ⟨hheld.shortest hcomplete, h.shortest⟩
  · rw [feedAll, TextLine.line, hfeed]
    exact h.unfinished
  · rw [feedAll, TextLine.line, hfeed]
    dsimp only
    rw [Output.append_assoc, h.output, ← Output.append_assoc]
    rfl

end Step

/-- Whatever lines a session takes, it groups them. -/
theorem exists_grouping (files : Files) (lines : List InputLine) :
    ∀ {s : Session} {held : List TextLine}, s.Ready → Unfinished s.categories held →
      ∃ groups pending rest stop,
        Grouping (s.holding held) files held lines groups pending rest stop ∧
          stop.Applies (groups.map Group.execution) pending rest := by
  induction lines with
  | nil =>
    intro s held hs hheld
    exact ⟨_, _, _, _, .of_nil hs hheld, rfl, by simp⟩
  | cons line lines ih =>
    intro s held hs hheld
    cases line with
    | invalid => exact ⟨_, _, _, _, .of_invalid hs hheld, rfl, by simp⟩
    | text body lineEnd =>
      by_cases hcomplete : Complete s.categories (inputOf (held ++ [(body, lineEnd)]))
      · rcases hs.execute files (inputOf (held ++ [(body, lineEnd)])) with
          ⟨hended, hexit⟩ | ⟨hready, hexit⟩
        · exact ⟨_, _, _, _, .of_complete hs hheld hcomplete (.of_ended hended), rfl, [], _, rfl,
            hexit, by simp⟩
        · obtain ⟨groups, pending, rest, stop, h, hstop⟩ := ih hready (unfinished_nil _)
          rw [hready.holding_nil] at h
          exact ⟨_, _, _, _, .of_complete hs hheld hcomplete h, hstop.cons hexit⟩
      · obtain ⟨groups, pending, rest, stop, h, hstop⟩ := ih hs (hheld.concat hcomplete)
        exact ⟨_, _, _, _, .of_unfinished hs hcomplete h, hstop⟩

end Session

end JsLexer
