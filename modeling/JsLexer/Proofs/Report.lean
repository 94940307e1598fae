import JsLexer.CommandLine
import JsLexer.Proofs.Interchange

/-!
What a report on several files says.

Each file has its own part in the report, which depends on nothing but the file, its result and
whether it is the only one. In a table the parts stand one after another. In JSON they are the
elements of one list, which can be read back, and files that failed have no part in it.
-/

namespace JsLexer

/-! ### Outputs one after another -/

theorem Output.out_append (a b : Output) : (a ++ b).out = a.out ++ b.out := rfl

theorem Output.out_join (outputs : List Output) :
    (Output.join outputs).out = String.join (outputs.map (·.out)) := by
  induction outputs with
  | nil => rfl
  | cons a outputs ih => simp [join, out_append, ih]

/-- A line feed behind a written value does not matter. -/
theorem Json.ReadsBack.decode_line {α : Type} {read : List Char → Json.Parsed α}
    {written : Json.Written} {a : α} (h : Json.ReadsBack read written a) :
    Json.decode read (Json.render written ++ "\n") = .ok a := by
  have hread : read (written 0 ++ ['\n']) = .ok (a, ['\n']) :=
    h.reads 0 (.inr rfl) (h.skipBlanks_written 0 ['\n'])
  simp [Json.decode, Json.render, hread, Json.skipBlanks, Json.isBlank]

namespace Report

open Json (ReadsBack Fills)

/-! ### Elements of the document -/

/-- The fields of an element that were read so far. -/
structure Draft where
  file : Option String
  tokens : Option (List Token)

/-- How an element of the document can be read: a path with the tokens of the file. -/
def record : Json.Record Draft (String × List Token) where
  name := "FileTokens"
  fields := [
    ⟨"File", (·.file.isSome), fun draft cs =>
      (Json.readString "a string" cs).map fun (s, rest) => ({ draft with file := some s }, rest)⟩,
    ⟨"Tokens", (·.tokens.isSome), fun draft cs =>
      (Json.readList Token.record.read cs).map fun (ts, rest) =>
        ({ draft with tokens := some ts }, rest)⟩]
  blank := ⟨none, none⟩
  complete draft := return (← draft.file, ← draft.tokens)

theorem readsBack_written {path : String} {ts : List Token} (h : ∀ t ∈ ts, t.Fits) :
    ReadsBack record.read (written path ts) (path, ts) := by
  have hpath := (Json.readsBack_text "a string" path).map fun s => Draft.mk (some s) none
  have htokens := (Json.readsBack_array fun t ht => Token.readsBack (h t ht)).map fun ts =>
    Draft.mk (some path) (some ts)
  have hfills : Fills record ⟨none, none⟩
      [("File", Json.text path), ("Tokens", Json.array (ts.map (·.written)))]
      ⟨some path, some ts⟩ := by
    refine .field rfl rfl hpath ?_
    refine .field rfl rfl htokens ?_
    exact .done _
  exact hfills.readsBack rfl

/-! ### What the report shows of files -/

/-- The tokens that came of a file, those before a failure included. -/
def produced : Except SourceError (List Token) → List Token
  | .ok ts => ts
  | .error (.scan failure) => failure.tokens
  | .error _ => []

/-- The tokens that are shown, in order: all of them, or all but trivia. -/
def shown (f : Display.Format) (ts : List Token) : List Token :=
  ts.filter fun t => f.trivia || !t.kind.isTrivia

/-- The rows of tokens in order, each on a line of its own. -/
def rows (ts : List Token) : String := String.join (ts.map fun t => Display.row t ++ "\n")

/-- The part of a file in a table, with its heading if there are several files. -/
def part (f : Display.Format) (several : Bool) (x : Entry) : String :=
  (if several then heading x.1 else "") ++ rows (shown f (produced x.2))

/-- The files that could be scanned, each with the tokens that are shown of it. -/
def scanned (f : Display.Format) (xs : List Entry) : List (String × List Token) :=
  xs.filterMap fun x => x.2.toOption.map fun ts => (x.1, shown f ts)

/-! ### On standard output -/

/-- What a table holds is the rows of the tokens that are shown. -/
theorem table_visible (f : Display.Format) (ts : List Token) :
    Display.table (Display.visible f.trivia ts) = rows (shown f ts) := rfl

theorem out_entry (f : Display.Format) (path : String) (r : Except SourceError (List Token)) :
    (entry f path r).out = if f.json then "" else rows (shown f (produced r)) := by
  cases r with
  | ok ts =>
    cases hf : f.json <;>
      simp [entry, hf, Output.ofOut, Output.empty, Display.tokens, produced, table_visible]
  | error e =>
    cases e with
    | scan failure =>
      simp [entry, failed, Output.out_append, Output.ofErr, Display.failure, produced,
        table_visible]
    | invalidText => exact (ite_self "").symm
    | unreadable path' problem => exact (ite_self "").symm

theorem out_headed (f : Display.Format) (several : Bool) (x : Entry) :
    (headed f several x).out = if f.json then "" else part f several x := by
  rw [headed, Output.out_append, out_entry, part]
  cases hf : f.json <;> cases several <;> simp [Output.ofOut, Output.empty]

/-- A table is made up of the parts of the files. -/
theorem out_table {f : Display.Format} (hf : f.json = false) (xs : List Entry) :
    (output f xs).out = String.join (xs.map (part f (1 < xs.length))) := by
  simp [output, Output.out_append, Output.out_join, Function.comp_def, out_headed, hf, Output.empty]

theorem join_map_empty {α : Type} (xs : List α) : String.join (xs.map fun _ => "") = "" := by
  induction xs with
  | nil => rfl
  | cons x xs ih => rw [List.map_cons, String.join_cons, ih, String.append_empty]

/-- The document holds the files that could be scanned and nothing else. -/
theorem document_eq (f : Display.Format) (xs : List Entry) : document f xs =
    Json.render (Json.array ((scanned f xs).map fun y => written y.1 y.2)) := by
  have helement : element? f = fun x : Entry =>
      (x.2.toOption.map fun ts => (x.1, shown f ts)).map fun y => written y.1 y.2 := by
    funext x
    rcases x with ⟨path, _ | ts⟩ <;> rfl
  rw [document, scanned, List.map_filterMap, helement]

theorem out_json {f : Display.Format} (hf : f.json = true) (xs : List Entry) :
    (output f xs).out = document f xs ++ "\n" := by
  have hempty : String.join ((xs.map (headed f (1 < xs.length))).map (·.out)) = "" := by
    simp only [List.map_map, Function.comp_def, out_headed, hf, if_true, join_map_empty]
  rw [output, Output.out_append, Output.out_join, hempty, if_pos hf, String.empty_append]
  rfl

/-- A file that failed does not show in the document. -/
theorem scanned_failed (f : Display.Format) (before after : List Entry) (path : String)
    (e : SourceError) : scanned f (before ++ (path, .error e) :: after) =
      scanned f (before ++ after) := by
  simp [scanned, Except.toOption]

theorem succeeded_iff (xs : List Entry) :
    succeeded xs = true ↔ ∀ x ∈ xs, ∃ ts, x.2 = .ok ts := by
  have hok : ∀ r : Except SourceError (List Token), r.isOk = true ↔ ∃ ts, r = .ok ts := by
    rintro (e | ts) <;> simp [Except.isOk, Except.toBool]
  simp only [succeeded, List.all_eq_true, hok]

theorem not_succeeded_iff (xs : List Entry) :
    succeeded xs = false ↔ ∃ x ∈ xs, ∃ e, x.2 = .error e := by
  have herror : ∀ r : Except SourceError (List Token), ¬ r.isOk = true ↔ ∃ e, r = .error e := by
    rintro (e | ts) <;> simp [Except.isOk, Except.toBool]
  simp only [succeeded, List.all_eq_false, herror]

/-- What is read back from the document. -/
theorem decode_document {f : Display.Format} {xs : List Entry}
    (h : ∀ y ∈ scanned f xs, ∀ t ∈ y.2, t.Fits) :
    Json.decode (Json.readList record.read) (document f xs ++ "\n") = .ok (scanned f xs) := by
  rw [document_eq]
  exact (Json.readsBack_array fun y hy => readsBack_written (h y hy)).decode_line

/-- A file is one of several if there is another before or behind it. -/
theorem several_eq (before after : List Entry) (x : Entry) :
    decide (1 < (before ++ x :: after).length) = !(before ++ after).isEmpty := by
  have hlength : (before ++ x :: after).length = (before ++ after).length + 1 := by
    simp only [List.length_append, List.length_cons]
    omega
  rw [hlength]
  cases before ++ after with
  | nil => rfl
  | cons y others =>
    refine decide_eq_true ?_
    rw [List.length_cons]
    omega

/-- The report on several files. The run succeeds if and only if every result is good. As JSON,
standard output is one document and a line feed, and it is read back as the list of the files that
could be scanned, in order, each with the tokens that are shown of it. As a table, it is made up of
the parts of the files in order. A file that failed leaves the rest as it is: without it the
document is the same, and in a table the parts before and behind do not depend on its result. -/
theorem output_faithful (f : Display.Format) :
    (∀ xs : List Entry,
      let outcome := CommandLine.Outcome.ofSuccess (succeeded xs) (output f xs)
      (outcome.code = 0 ↔ ∀ x ∈ xs, ∃ ts, x.2 = .ok ts) ∧
      (outcome.code = 1 ↔ ∃ x ∈ xs, ∃ e, x.2 = .error e) ∧
      (f.json = true → outcome.output.out =
          Json.render (Json.array ((scanned f xs).map fun y => written y.1 y.2)) ++ "\n" ∧
        ((∀ y ∈ scanned f xs, ∀ t ∈ y.2, t.Fits) →
          Json.decode (Json.readList record.read) outcome.output.out = .ok (scanned f xs))) ∧
      (f.json = false →
        outcome.output.out = String.join (xs.map (part f (1 < xs.length))))) ∧
    ∀ (before after : List Entry) (path : String) (e : SourceError),
      let several := !(before ++ after).isEmpty
      (f.json = true →
        (output f (before ++ (path, .error e) :: after)).out = (output f (before ++ after)).out) ∧
      (f.json = false → ∀ r, (output f (before ++ (path, r) :: after)).out =
        String.join (before.map (part f several)) ++ part f several (path, r) ++
          String.join (after.map (part f several))) := by
  refine ⟨fun xs => ⟨?_, ?_, fun hf => ?_, fun hf => out_table hf xs⟩,
    fun before after path e => ⟨fun hf => ?_, fun hf r => ?_⟩⟩
  · rw [← succeeded_iff]
    cases succeeded xs <;> simp [CommandLine.Outcome.ofSuccess]
  · rw [← not_succeeded_iff]
    cases succeeded xs <;> simp [CommandLine.Outcome.ofSuccess]
  · rw [← document_eq]
    refine ⟨out_json hf xs, fun hfits => ?_⟩
    change Json.decode _ (output f xs).out = _
    rw [out_json hf, decode_document hfits]
  · rw [out_json hf, out_json hf, document_eq, document_eq, scanned_failed]
  · rw [out_table hf, several_eq]
    simp [String.append_assoc]

/-- One file with a blank at its end, one that could be scanned in part, and one that is missing. -/
theorem output_faithful_mixed :
    let t : Token := ⟨.identifierName, "a", ⟨0, 0⟩, ⟨0, 1⟩⟩
    let blank : Token := ⟨.space, " ", ⟨0, 1⟩, ⟨0, 2⟩⟩
    let xs : List Entry := [("good", .ok [t, blank]),
      ("bad", .error (.scan ⟨[t], .unexpectedCharacter '@' ⟨0, 1⟩⟩)),
      ("none", .error (.unreadable "none" .notFound))]
    (CommandLine.Outcome.ofSuccess (succeeded xs) (output ⟨true, false⟩ xs)).code = 1 ∧
    Json.decode (Json.readList record.read) (output ⟨true, false⟩ xs).out = .ok [("good", [t])] ∧
    (output ⟨false, false⟩ xs).out =
      "\x1b[1m\x1b[37mgood\x1b[39m\x1b[0m\n" ++
      "\x1b[2m       0:0-0:1\x1b[0m  IDENTIFIER_NAME                 \"a\"\n" ++
      "\x1b[1m\x1b[37mbad\x1b[39m\x1b[0m\n" ++
      "\x1b[2m       0:0-0:1\x1b[0m  IDENTIFIER_NAME                 \"a\"\n" ++
      "\x1b[1m\x1b[37mnone\x1b[39m\x1b[0m\n" := by
  intro t blank xs
  have hscanned : scanned ⟨true, false⟩ xs = [("good", [t])] := rfl
  have hfits : t.Fits := by simp [t, Token.Fits, Position.Fits, Json.maxUnsigned]
  obtain ⟨-, hfailed, hjson, -⟩ := (output_faithful ⟨true, false⟩).1 xs
  obtain ⟨-, -, -, htable⟩ := (output_faithful ⟨false, false⟩).1 xs
  refine ⟨hfailed.2 ⟨_, .tail _ (.head _), _, rfl⟩, ?_, (htable rfl).trans ?_⟩
  · rw [← hscanned]
    refine (hjson rfl).2 ?_
    rw [hscanned]
    simpa using hfits
  · decide +kernel

end Report

end JsLexer
