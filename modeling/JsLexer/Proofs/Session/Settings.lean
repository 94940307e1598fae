import JsLexer.Proofs.Session.Grouping
import Mathlib.Data.List.DropRight
import Mathlib.Logic.Function.Iterate

/-!
The settings of a session.

A session has two switches and its categories, and its editor has categories of its own. Two
commands flip a switch each, and one replaces the categories on both sides, provided that all names
in its list are known. Nothing else that is executed changes any of them, whatever it prints. So the
settings follow from the inputs that were executed, and source text is printed by them alone.
-/

namespace JsLexer

/-! ### Names in a list -/

namespace Text

theorem trim_trim (cs : List Char) : trim (trim cs) = trim cs := by
  -- what is left of a text that is not blank starts with a code point that stays
  have hstart : trimStart (trimEnd (trimStart cs)) = trimEnd (trimStart cs) := by
    cases hcs : trimStart cs with
    | nil => rfl
    | cons c rest =>
      have hc : isBlank c = false := by
        have hhead := List.head?_dropWhile_not isBlank cs
        rw [← trimStart, hcs] at hhead
        simpa using hhead
      rw [trimEnd_cons hc, trimStart, List.dropWhile_cons, if_neg (by simp [hc])]
  calc trim (trim cs)
    _ = trimEnd (trimEnd (trimStart cs)) := congrArg trimEnd hstart
    _ = trim cs := List.rdropWhile_idempotent isBlank (trimStart cs)

end Text

theorem Session.trim_of_mem_names {list name : String} (h : name ∈ Session.names list) :
    String.ofList (Text.trim name.toList) = name := by
  simp only [Session.names, List.mem_map, List.mem_filter] at h
  obtain ⟨_, ⟨⟨cs, -, rfl⟩, -⟩, rfl⟩ := h
  rw [String.toList_ofList, Text.trim_trim]

/-- Trimmed names are found exactly if they are the names of categories. -/
theorem Builtin.ofNames_eq_ok_iff {names : List String}
    (h : ∀ s ∈ names, String.ofList (Text.trim s.toList) = s) {bs : List Builtin} :
    ofNames names = .ok bs ↔ names = bs.map (·.name) := by
  constructor
  · intro hok
    induction names generalizing bs with
    | nil =>
      obtain rfl := Except.ok.inj hok
      rfl
    | cons s names ih =>
      obtain ⟨hs, hnames⟩ := List.forall_mem_cons.1 h
      simp only [ofNames, hs] at hok
      split at hok
      · cases hok
      · next b hb =>
        have hname : b.name = s := by simpa using List.find?_some hb
        cases hrest : ofNames names with
        | error s' => simp [hrest, Except.map] at hok
        | ok bs' =>
          obtain rfl : b :: bs' = bs := by simpa [hrest, Except.map] using hok
          rw [ih hnames hrest, List.map_cons, hname]
  · rintro rfl
    obtain ⟨bs', hsame, hok⟩ := @exists_ofNames (bs.map (·.name)) (by simp [mem_standard])
    rw [hok, List.map_injective_iff.2 name_injective hsame]

namespace Session

/-! ### What an input does to the settings -/

/-- What a session is set to: the format of its output, its categories and those of its editor. -/
structure Settings where
  format : Display.Format
  categories : List Builtin
  editor : List Builtin

/-- The settings of a session. -/
def settings (s : Session) : Settings := ⟨s.format, s.categories, s.editor.categories⟩

/-- Whether an input is a command of some sort. -/
def IsCommand (c : Command) (input : String) : Prop :=
  (Command.parse? input).map Prod.fst = some c

instance (c : Command) (input : String) : Decidable (IsCommand c input) :=
  inferInstanceAs (Decidable (_ = _))

/-- The command that replaces the categories, with the names of these, all of them known. -/
def Selects (input : String) (bs : List Builtin) : Prop :=
  ∃ list, Command.parse? input = some (.matchers, some list) ∧ names list = bs.map (·.name)

/-- An input is a command of one sort at most. -/
theorem IsCommand.iff_eq {c : Command} {input : String} (h : IsCommand c input) {c' : Command} :
    IsCommand c' input ↔ c = c' := by
  rw [IsCommand, show _ = some c from h, Option.some_inj]

theorem Selects.isCommand {input : String} {bs : List Builtin} (h : Selects input bs) :
    IsCommand .matchers input := by
  obtain ⟨list, hparse, -⟩ := h
  rw [IsCommand, hparse]
  rfl

/-- What an input makes of the settings: it flips a switch, or replaces the categories of the
session and of its editor, or leaves everything as it was. -/
inductive Changes (input : String) (x : Settings) : Settings → Prop
  | json : IsCommand .json input →
      Changes input x { x with format := { x.format with json := !x.format.json } }
  | trivia : IsCommand .trivia input →
      Changes input x { x with format := { x.format with trivia := !x.format.trivia } }
  | select {bs : List Builtin} : Selects input bs → Changes input x ⟨x.format, bs, bs⟩
  | keep : ¬ IsCommand .json input → ¬ IsCommand .trivia input → (∀ bs, ¬ Selects input bs) →
      Changes input x x

/-- Only three commands are about settings. -/
theorem Changes.other {input : String} {x : Settings}
    (h : ∀ c ∈ [Command.json, .trivia, .matchers], ¬ IsCommand c input) : Changes input x x := by
  refine .keep (h .json (by simp)) (h .trivia (by simp)) ?_
  rintro bs ⟨list, hparse, -⟩
  exact h .matchers (by simp) (by rw [IsCommand, hparse]; rfl)

theorem setCategories_changes {s : Session} {input list : String}
    (hparse : Command.parse? input = some (.matchers, some list)) :
    Changes input s.settings (s.setCategories list).1.settings := by
  have hknown : ∀ {bs}, Builtin.ofNames (names list) = .ok bs ↔ names list = bs.map (·.name) :=
    Builtin.ofNames_eq_ok_iff fun _ hname => trim_of_mem_names hname
  rw [setCategories]
  cases hnames : Builtin.ofNames (names list) with
  | ok bs => exact .select ⟨list, hparse, hknown.1 hnames⟩
  | error name =>
    refine .keep (by simp [IsCommand, hparse]) (by simp [IsCommand, hparse]) ?_
    rintro bs ⟨list', hparse', hbs⟩
    obtain rfl : list = list' := by simpa [hparse] using hparse'
    rw [hknown.2 hbs] at hnames
    cases hnames

/-- Every input changes the settings in one of these ways. -/
theorem execute_changes (s : Session) (files : Files) (input : String) :
    Changes input s.settings (s.execute files input).1.settings := by
  cases hparse : Command.parse? input with
  | none =>
    rw [execute_source hparse]
    exact .other (by simp [IsCommand, hparse])
  | some command =>
    obtain ⟨c, argument⟩ := command
    rw [execute_command hparse]
    cases c with
    | json => exact .json (by rw [IsCommand, hparse]; rfl)
    | trivia => exact .trivia (by rw [IsCommand, hparse]; rfl)
    | help | exit | clear | version => exact .other (by simp [IsCommand, hparse])
    | load => cases argument <;> exact .other (by simp [IsCommand, hparse])
    | matchers =>
      cases argument with
      | some list => exact setCategories_changes hparse
      | none =>
        refine .keep ?_ ?_ ?_
        · simp [IsCommand, hparse]
        · simp [IsCommand, hparse]
        · simp [Selects, hparse]

/-- A list with an unknown name anywhere in it selects nothing. -/
theorem not_selects {input : String}
    (h : ∀ list, Command.parse? input = some (.matchers, some list) →
      ∃ name ∈ names list, ∀ b : Builtin, b.name ≠ name) (bs : List Builtin) :
    ¬ Selects input bs := by
  rintro ⟨list, hparse, hnames⟩
  obtain ⟨name, hname, hunknown⟩ := h list hparse
  rw [hnames] at hname
  obtain ⟨b, -, hb⟩ := List.mem_map.1 hname
  exact hunknown b hb

section Changes

variable {input : String} {x y : Settings}

/-- Whatever is no command for a setting keeps all settings. -/
theorem Changes.eq_of_keeps (h : Changes input x y) (hjson : ¬ IsCommand .json input)
    (htrivia : ¬ IsCommand .trivia input) (hselects : ∀ bs, ¬ Selects input bs) : y = x := by
  cases h with
  | json hc => exact absurd hc hjson
  | trivia hc => exact absurd hc htrivia
  | select hbs => exact absurd hbs (hselects _)
  | keep => rfl

theorem Changes.json_eq (h : Changes input x y) :
    y.format.json = if IsCommand .json input then !x.format.json else x.format.json := by
  cases h with
  | json hc => rw [if_pos hc]
  | trivia hc => rw [if_neg (mt hc.iff_eq.1 (by simp))]
  | select hbs => rw [if_neg (mt hbs.isCommand.iff_eq.1 (by simp))]
  | keep hjson => rw [if_neg hjson]

theorem Changes.trivia_eq (h : Changes input x y) :
    y.format.trivia = if IsCommand .trivia input then !x.format.trivia else x.format.trivia := by
  cases h with
  | json hc => rw [if_neg (mt hc.iff_eq.1 (by simp))]
  | trivia hc => rw [if_pos hc]
  | select hbs => rw [if_neg (mt hbs.isCommand.iff_eq.1 (by simp))]
  | keep _ htrivia => rw [if_neg htrivia]

/-- Both sides get the categories that an input selects, or keep theirs. -/
theorem Changes.categories_cases (h : Changes input x y) :
    (∃ bs, Selects input bs ∧ y.categories = bs ∧ y.editor = bs) ∨
      (∀ bs, ¬ Selects input bs) ∧ y.categories = x.categories ∧ y.editor = x.editor := by
  have hother : ∀ {c}, IsCommand c input → c ≠ .matchers → ∀ bs, ¬ Selects input bs :=
    fun hc hne _ hbs => hne (hc.iff_eq.1 hbs.isCommand)
  cases h with
  | json hc => exact .inr ⟨hother hc (by simp), rfl, rfl⟩
  | trivia hc => exact .inr ⟨hother hc (by simp), rfl, rfl⟩
  | select hbs => exact .inl ⟨_, hbs, rfl, rfl⟩
  | keep _ _ hselects => exact .inr ⟨hselects, rfl, rfl⟩

end Changes

/-! ### Sessions that are under way -/

/-- What a session becomes that takes lines, with the inputs that are executed meanwhile. Files may
change from line to line. -/
inductive Reaches (s : Session) : List String → Session → Prop
  | start : Reaches s [] s
  | line {inputs : List String} {s' : Session} (files : Files) (line : InputLine) :
      Reaches s inputs s' →
      Reaches s (inputs ++ (s'.executed files [line]).map (·.input)) (s'.feed files line).1

theorem Reaches.feedAll {s s' : Session} {inputs : List String} (h : Reaches s inputs s')
    (files : Files) (lines : List InputLine) :
    Reaches s (inputs ++ (s'.executed files lines).map (·.input)) (s'.feedAll files lines).1 := by
  induction lines generalizing inputs s' with
  | nil => simpa [executed, Session.feedAll] using h
  | cons line lines ih =>
    have hsplit : s'.executed files (line :: lines) =
        s'.executed files [line] ++ (s'.feed files line).1.executed files lines := by
      cases line with
      | invalid => simp [executed]
      | text body lineEnd =>
        simp only [executed]
        split <;> rfl
    have hlater := ih (h.line files line)
    rw [List.append_assoc, ← List.map_append, ← hsplit] at hlater
    exact hlater

/-- A line executes nothing and changes no setting, or it executes one input with the settings that
the session has. -/
theorem feed_cases (s : Session) (files : Files) (line : InputLine) :
    (s.executed files [line] = [] ∧ (s.feed files line).1.settings = s.settings) ∨
      ∃ input, (s.executed files [line]).map (·.input) = [input] ∧
        (s.feed files line).1 = ({ s with pending := "" }.execute files input).1 := by
  by_cases hended : s.ended = true
  · rw [executed_of_ended hended, feed_of_ended hended]
    exact .inl ⟨rfl, rfl⟩
  · cases line with
    | invalid =>
      refine .inl ⟨rfl, ?_⟩
      rw [feed, if_neg hended]
      rfl
    | text body lineEnd =>
      by_cases hcomplete : s.editor.isComplete (s.inputWith body) = true
      · refine .inr ⟨s.inputWith body, ?_, ?_⟩
        · simp [executed, hended, hcomplete]
        · simp [feed, hended, hcomplete]
      · refine .inl ⟨?_, ?_⟩
        · simp [executed, hcomplete]
        · simp [feed, hended, hcomplete, settings]

/-- How many of the inputs are a command of some sort. -/
def times (c : Command) (inputs : List String) : Nat := inputs.countP (IsCommand c ·)

/-- The categories of the last input that selects any, or `first` if none does. -/
def LastSelected (first : List Builtin) (inputs : List String) (bs : List Builtin) : Prop :=
  (∃ before input after, inputs = before ++ input :: after ∧ Selects input bs ∧
    ∀ later ∈ after, ∀ bs, ¬ Selects later bs) ∨
  bs = first ∧ ∀ input ∈ inputs, ∀ bs, ¬ Selects input bs

/-- The settings that follow from the inputs, and from those at first. -/
structure Follows (first : Settings) (inputs : List String) (x : Settings) : Prop where
  json : x.format.json = not^[times .json inputs] first.format.json
  trivia : x.format.trivia = not^[times .trivia inputs] first.format.trivia
  categories : LastSelected first.categories inputs x.categories
  editor : x.editor = x.categories

theorem flip_times (c : Command) (inputs : List String) (input : String) (on : Bool) :
    not^[times c (inputs ++ [input])] on =
      if IsCommand c input then !not^[times c inputs] on else not^[times c inputs] on := by
  rw [times, List.countP_append, List.countP_singleton]
  split
  · next hc =>
    rw [if_pos (of_decide_eq_true hc), Function.iterate_succ_apply']
    rfl
  · next hc =>
    rw [if_neg (by simpa using hc)]
    rfl

theorem LastSelected.concat_keep {first bs : List Builtin} {inputs : List String} {input : String}
    (h : LastSelected first inputs bs) (hinput : ∀ bs, ¬ Selects input bs) :
    LastSelected first (inputs ++ [input]) bs := by
  rcases h with ⟨before, selecting, after, rfl, hselects, hafter⟩ | ⟨rfl, hnone⟩
  · refine .inl ⟨before, selecting, after ++ [input], by simp, hselects, ?_⟩
    exact List.forall_mem_append.2 ⟨hafter, List.forall_mem_singleton.2 hinput⟩
  · exact .inr ⟨rfl, List.forall_mem_append.2 ⟨hnone, List.forall_mem_singleton.2 hinput⟩⟩

/-- One input more keeps the settings in step. -/
theorem Follows.concat {first x y : Settings} {inputs : List String} {input : String}
    (h : Follows first inputs x) (hchanges : Changes input x y) :
    Follows first (inputs ++ [input]) y := by
  refine ⟨?_, ?_, ?_, ?_⟩
  · rw [flip_times, ← h.json, hchanges.json_eq]
  · rw [flip_times, ← h.trivia, hchanges.trivia_eq]
  · rcases hchanges.categories_cases with ⟨bs, hbs, hcategories, -⟩ | ⟨hnone, hcategories, -⟩
    · exact .inl ⟨inputs, input, [], rfl, hcategories ▸ hbs, by simp⟩
    · exact hcategories ▸ h.categories.concat_keep hnone
  · rcases hchanges.categories_cases with ⟨bs, -, rfl, heditor⟩ | ⟨-, hcategories, heditor⟩
    · exact heditor
    · rw [heditor, hcategories, h.editor]

/-- However a session got where it is, its settings follow from what it executed. -/
theorem Reaches.follows {s s' : Session} {inputs : List String} (h : Reaches s inputs s')
    (hs : s.editor.categories = s.categories) : Follows s.settings inputs s'.settings := by
  induction h with
  | start => exact ⟨rfl, rfl, .inr ⟨rfl, by simp⟩, hs⟩
  | @line inputs s' files line _ ih =>
    rcases feed_cases s' files line with ⟨hexecuted, hsettings⟩ | ⟨input, hexecuted, hfeed⟩
    · rw [hexecuted, hsettings, List.map_nil, List.append_nil]
      exact ih
    · rw [hexecuted, hfeed]
      exact ih.concat (execute_changes { s' with pending := "" } files input)

/-- What is printed for source text depends on the text and on the settings. -/
theorem execute_source_congr {s s' : Session} (hformat : s'.format = s.format)
    (hcategories : s'.categories = s.categories) {input : String}
    (hsource : Command.parse? input = none) (files files' : Files) :
    (s'.execute files' input).2 = (s.execute files input).2 := by
  have hscan : s'.scan input = s.scan input := by
    rw [scan, scan, matchers, matchers, hformat, hcategories]
  rw [execute_source hsource, execute_source hsource, hscan]

/-- Whatever a session has executed, each of its switches was flipped as often as there was a
command for it, and its categories are those of the last list whose names are all known, the same
for the editor as for what is printed. Lists with an unknown name, loading a file, scans and all
other inputs leave the settings as they were, and what is printed for source text depends on nothing
but them. -/
theorem settings_of_reaches {categories : List Builtin} {format : Display.Format}
    {inputs : List String} {s : Session} (h : Reaches (start categories format) inputs s) :
    (s.format.json = not^[times .json inputs] format.json ∧
      s.format.trivia = not^[times .trivia inputs] format.trivia ∧
      LastSelected categories inputs s.categories ∧ s.editor.matchers = s.matchers) ∧
    (∀ files input, ¬ IsCommand .json input → ¬ IsCommand .trivia input →
      (∀ list, Command.parse? input = some (.matchers, some list) →
        ∃ name ∈ names list, ∀ b : Builtin, b.name ≠ name) →
      (s.execute files input).1.settings = s.settings) ∧
    ∀ files files' input (s' : Session), Command.parse? input = none → s'.format = s.format →
      s'.categories = s.categories → (s'.execute files' input).2 = (s.execute files input).2 := by
  have hfollows := h.follows rfl
  refine ⟨⟨hfollows.json, hfollows.trivia, hfollows.categories, ?_⟩, ?_, ?_⟩
  · exact congrArg (List.map (·.matcher)) hfollows.editor
  · intro files input hjson htrivia hunknown
    exact (execute_changes s files input).eq_of_keeps hjson htrivia (not_selects hunknown)
  · intro files files' input s' hsource hformat hcategories
    exact execute_source_congr hformat hcategories hsource files files'

/-- A list with an unknown name comes to nothing, another one counts, and an input goes over two
lines. -/
theorem settings_of_reaches_lines :
    let lines : List InputLine := [.text " .JSON" "\n", .text ".matchers string,  , null" "\r\n",
      .text ".matchers numeral, nul" "\n", .text "'a" "\n", .text "b' null" "\n",
      .text ".trivia on" "\n", .text ".load x" "\n", .text ".json" "\n", .text "'c" "\n"]
    let files : Files := fun _ => .error .notFound
    let s := ((start Builtin.standard ⟨false, false⟩).feedAll files lines).1
    let inputs := [" .JSON", ".matchers string,  , null", ".matchers numeral, nul", "'a\nb' null",
      ".trivia on", ".load x", ".json"]
    ((start Builtin.standard ⟨false, false⟩).executed files lines).map (·.input) = inputs ∧
      s.pending = "'c\n" ∧ s.format.json = not^[2] false ∧ s.format.trivia = not^[1] false ∧
      s.categories = [.string, .null] ∧ LastSelected Builtin.standard inputs s.categories ∧
      s.editor.matchers = s.matchers ∧
      (s.execute files ".matchers string, nul, null").1.settings = s.settings := by
  intro lines files s inputs
  have hexecuted : ((start Builtin.standard ⟨false, false⟩).executed files lines).map (·.input) =
      inputs := by decide +kernel
  have hreaches : Reaches (start Builtin.standard ⟨false, false⟩) inputs s :=
    hexecuted ▸ Reaches.start.feedAll files lines
  obtain ⟨⟨hjson, htrivia, hcategories, heditor⟩, hkeeps, -⟩ := settings_of_reaches hreaches
  have hjsons : times .json inputs = 2 := by decide +kernel
  have htrivias : times .trivia inputs = 1 := by decide +kernel
  refine ⟨hexecuted, by decide +kernel, hjsons ▸ hjson, htrivias ▸ htrivia, by decide +kernel,
    hcategories, heditor, hkeeps files _ (by decide +kernel) (by decide +kernel) ?_⟩
  intro list hlist
  have hparse : Command.parse? ".matchers string, nul, null" =
      some (.matchers, some "string, nul, null") := by decide +kernel
  obtain rfl : "string, nul, null" = list := by simpa [hparse] using hlist
  exact ⟨"nul", by decide +kernel, fun b => by cases b <;> decide⟩

end Session

end JsLexer
