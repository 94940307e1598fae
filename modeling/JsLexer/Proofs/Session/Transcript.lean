import JsLexer.Proofs.Session.Grouping

/-!
What the groups of a session say about its transcript.

The first line of a group tells whether it is a command, and no group that is typed in is reported to
be unterminated: it would have gone on with the next line instead. So such a report is about a file.
-/

namespace JsLexer

/-! ### Reports -/

namespace Output

/-- Whether the errors start with the report on an unterminated construct. -/
def IsUnterminated (o : Output) : Prop :=
  (Display.errorLabel "Unterminated").toList <+: o.err.toList

/-- No other label starts like the one for unterminated constructs. -/
theorem not_labelled {label : String} (hlabel : label = "SyntaxError" ∨ label = "Error")
    (more : String) :
    ¬ (Display.errorLabel "Unterminated").toList <+: (Display.errorLabel label ++ more).toList := by
  intro hprefix
  rw [String.toList_append] at hprefix
  -- the labels differ within their first ten code points
  have htake := congrArg (List.take 10) (List.prefix_iff_eq_take.1 hprefix)
  rcases hlabel with rfl | rfl
  · rw [List.take_take, List.take_append_of_le_length (by decide +kernel)] at htake
    exact absurd htake (by decide +kernel)
  · rw [List.take_take, List.take_append_of_le_length (by decide +kernel)] at htake
    exact absurd htake (by decide +kernel)

theorem not_isUnterminated_of_silent {o : Output} (h : o.err = "") : ¬ o.IsUnterminated := by
  rw [IsUnterminated, h]
  decide +kernel

theorem not_isUnterminated_plain (message : String) :
    ¬ (ofErr (Display.plainErrorLine message)).IsUnterminated := by
  change ¬ _ <+: (Display.errorLabel "Error" ++ ": " ++ message ++ "\n").toList
  rw [String.append_assoc, String.append_assoc]
  exact not_labelled (.inr rfl) _

/-- A scan reports an unterminated construct only if it fails with one. -/
theorem not_isUnterminated_scan (f : Display.Format) {result : Except ScanFailure (List Token)}
    (h : ∀ failure, result = .error failure → failure.error.isUnterminated = false) :
    ¬ (Display.scan f result).IsUnterminated := by
  cases result with
  | ok ts => exact not_isUnterminated_of_silent rfl
  | error failure =>
    change ¬ _ <+: (Display.errorLine failure.error).toList
    rw [Display.errorLine, h failure rfl, String.append_assoc, String.append_assoc]
    exact not_labelled (.inl rfl) _

end Output

namespace Session

theorem not_isUnterminated_command (s : Session) (files : Files) {c : Command}
    {argument : Option String} (h : ∀ path, ¬ (c = .load ∧ argument = some path)) :
    ¬ (s.command files c argument).2.IsUnterminated := by
  cases c with
  | help | exit | clear | version | json | trivia => exact Output.not_isUnterminated_of_silent rfl
  | load =>
    cases argument with
    | none => exact Output.not_isUnterminated_plain _
    | some path => exact absurd ⟨rfl, rfl⟩ (h path)
  | matchers =>
    cases argument with
    | none => exact Output.not_isUnterminated_of_silent rfl
    | some list =>
      change ¬ (s.setCategories list).2.IsUnterminated
      rw [setCategories]
      split
      · exact Output.not_isUnterminated_of_silent rfl
      · exact Output.not_isUnterminated_plain _

/-- Executing a complete input reports an unterminated construct only if it loads a file. -/
theorem Execution.loads_of_isUnterminated {x : Execution} {files : Files}
    (hcomplete : Complete x.session.categories x.input)
    (h : (x.output files).IsUnterminated) :
    ∃ path, Command.parse? x.input = some (.load, some path) := by
  rw [output] at h
  cases hparse : Command.parse? x.input with
  | some command =>
    obtain ⟨c, argument⟩ := command
    rw [execute_command hparse] at h
    refine Classical.byContradiction fun hload => not_isUnterminated_command _ files ?_ h
    rintro path ⟨rfl, rfl⟩
    exact hload ⟨path, rfl⟩
  | none =>
    rw [execute_source hparse] at h
    split at h
    · exact absurd h (Output.not_isUnterminated_of_silent rfl)
    · have hscan := hcomplete.resolve_left (by simp [hparse])
      exact absurd h (Output.not_isUnterminated_scan _ hscan)

/-! ### The first line -/

/-- The first line of a group tells whether the input is a command, and which, if that line has its
line end as soon as another one follows. -/
theorem Shortest.parse?_fst {bs : List Builtin} {l : TextLine} {more : List TextLine}
    (h : Shortest bs (l :: more)) (hended : more ≠ [] → l.line.Ended) :
    (Command.parse? (inputOf (l :: more))).map Prod.fst = (Command.parse? l.1).map Prod.fst := by
  cases more with
  | nil => rfl
  | cons m more =>
    by_cases hline : ∃ c ∈ l.1.toList, Text.isBlank c = false
    · rw [inputOf_cons l (by simp), String.append_assoc]
      refine Command.parse?_append hline ?_
      rcases hended (by simp) with hend | hend <;> rw [hend, String.toList_append] <;> rfl
    · -- a line with nothing on it would have been an input of its own
      have hblank : ∀ c ∈ l.1.toList, Text.isBlank c = true := by
        intro c hc
        cases hb : Text.isBlank c with
        | true => rfl
        | false => exact absurd ⟨c, hc, hb⟩ hline
      have hcomplete : Complete bs (inputOf [l]) :=
        .inr fun _ hfailed => isUnterminated_of_blank hblank hfailed
      exact absurd hcomplete (h.2.2 [l] (by simp) (by simp) (by simp))

/-- Only the last line of a group can be the last one of all. -/
theorem Grouping.mem_dropLast {s : Session} {files : Files} {lines rest : List InputLine}
    {groups : List Group} {pending : List TextLine} {stop : Stop}
    (h : Grouping s files [] lines groups pending rest stop) {g : Group} (hg : g ∈ groups)
    {l : TextLine} {more : List TextLine} (hlines : g.lines = l :: more) (hmore : more ≠ []) :
    l.line ∈ lines.dropLast := by
  obtain ⟨m, more, rfl⟩ := List.exists_cons_of_ne_nil hmore
  obtain ⟨before, after, hflat⟩ := List.infix_of_mem_flatten (List.mem_map_of_mem hg)
  have hpartition := h.partition
  rw [← hflat, hlines] at hpartition
  simp only [List.map_nil, List.nil_append, List.map_append, List.map_cons, List.append_assoc,
    List.cons_append] at hpartition
  rw [hpartition, List.dropLast_append_of_ne_nil (by simp), List.dropLast_cons_cons]
  simp

/-! ### The result -/

/-- A session groups the lines of its input. The groups are executed one after the other, and each
is the shortest run of lines from there on that is a command or source that the categories of that
moment do not find unterminated. All lines are in a group up to the command that ends the session, or
to the end of the input, where one unfinished input may be pending. The first line of a group
tells whether it is a command, and nothing but a file is reported to be unterminated. -/
theorem start_groups (categories : List Builtin) (format : Display.Format) (files : Files)
    (bytes : List UInt8) :
    let lines := (InputLine.split bytes).map InputLine.ofBytes
    let s := start categories format
    ∃ groups pending rest stop,
      Grouping s files [] lines groups pending rest stop ∧
      stop.Applies (groups.map Group.execution) pending rest ∧
      s.run files lines = .ofOut Screen.banner ++
        .join (groups.map fun g => g.execution.output files) ++ stop.output ∧
      (∀ g ∈ groups, ∀ l, g.lines.head? = some l →
        (Command.parse? g.execution.input).map Prod.fst = (Command.parse? l.1).map Prod.fst) ∧
      ∀ g ∈ groups, (g.execution.output files).IsUnterminated →
        ∃ path, Command.parse? g.execution.input = some (.load, some path) := by
  intro lines s
  have hs : s.Ready := ready_start categories format
  obtain ⟨groups, pending, rest, stop, h, hstop⟩ :=
    exists_grouping files lines hs (unfinished_nil _)
  rw [hs.holding_nil] at h
  refine ⟨groups, pending, rest, stop, h, hstop, ?_, ?_, ?_⟩
  · rw [run]
    dsimp only
    rw [Output.append_assoc, h.output, ← Output.append_assoc]
  · intro g hg l hl
    obtain ⟨more, hlines⟩ := List.head?_eq_some_iff.1 hl
    have hshortest := h.shortest g hg
    rw [hlines] at hshortest
    rw [Group.execution, hlines]
    exact hshortest.parse?_fst fun hmore =>
      InputLine.ended_of_split bytes _ (h.mem_dropLast hg hlines hmore)
  · intro g hg
    exact Execution.loads_of_isUnterminated (h.shortest g hg).2.1

end Session

end JsLexer
