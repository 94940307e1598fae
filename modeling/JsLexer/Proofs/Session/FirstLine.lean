import JsLexer.Proofs.Failure
import JsLexer.Proofs.Priority
import JsLexer.Session

/-!
What the first line of an input decides.

A line keeps its line end as long as another line follows, and a line end is blank. So the word that
an input starts with ends on the first line, if there is anything on it, and no later line makes a
command of an input or takes one back. If there is nothing on the first line it is an input of its
own, since no blank opens a string or a comment.
-/

namespace JsLexer

/-! ### Line ends -/

namespace InputLine

/-- A line that has its line end, or is no text. -/
def Ended : InputLine → Prop
  | .text _ lineEnd => lineEnd = "\n" ∨ lineEnd = "\r\n"
  | .invalid => True

/-- Every line but the last ends with a line feed. -/
theorem getLast?_of_mem_split {bytes line : List UInt8} (h : line ∈ (split bytes).dropLast) :
    line.getLast? = some 10 := by
  induction bytes generalizing line with
  | nil => simp [split] at h
  | cons b bytes ih =>
    rw [split] at h
    split at h
    · next hb =>
      subst hb
      cases hsplit : split bytes with
      | nil => simp [hsplit] at h
      | cons first lines =>
        rw [hsplit, List.dropLast_cons_cons, List.mem_cons, ← hsplit] at h
        rcases h with rfl | h
        · rfl
        · exact ih h
    · split at h
      · simp at h
      · next first lines hsplit =>
        cases lines with
        | nil => simp at h
        | cons second lines =>
          rw [List.dropLast_cons_cons, List.mem_cons] at h
          rw [hsplit, List.dropLast_cons_cons] at ih
          rcases h with rfl | h
          · have hfirst := ih List.mem_cons_self
            rw [List.getLast?_cons, hfirst]
            rfl
          · exact ih (List.mem_cons_of_mem _ h)

/-- Only the line feed is written with its number as the last byte. -/
theorem eq_feed_of_getLast? {c : Char} (h : (String.utf8EncodeChar c).getLast? = some 10) :
    c = '\n' := by
  have hlast : ∀ n : Nat, UInt8.ofNat (n % 64 + 128) ≠ 10 := by
    intro n heq
    have hnat := congrArg UInt8.toNat heq
    simp only [UInt8.toNat_ofNat', UInt8.reduceToNat] at hnat
    omega
  simp only [String.utf8EncodeChar] at h
  split at h
  · next hle =>
    have hbyte : UInt8.ofNat c.val.toNat = 10 := Option.some.inj h
    have hnat := congrArg UInt8.toNat hbyte
    simp only [UInt8.toNat_ofNat', UInt8.reduceToNat] at hnat
    have hval : c.val.toNat = 10 := by omega
    exact Char.ext (UInt32.toNat_inj.1 hval)
  · split at h
    · exact absurd (Option.some.inj h) (hlast _)
    · split at h
      · exact absurd (Option.some.inj h) (hlast _)
      · exact absurd (Option.some.inj h) (hlast _)

/-- The bytes of a text are the bytes of its code points. -/
theorem eq_flatMap_of_fromUTF8? {bytes : List UInt8} {line : String}
    (h : String.fromUTF8? ⟨bytes.toArray⟩ = some line) :
    bytes = line.toList.flatMap String.utf8EncodeChar := by
  unfold String.fromUTF8? at h
  split at h
  · next hvalid =>
    have hbytes : line.toByteArray = ⟨bytes.toArray⟩ := by
      rw [← Option.some.inj h]
      rfl
    have hencode : (String.ofList line.toList).toByteArray = line.toList.utf8Encode :=
      String.toByteArray_ofList
    rw [String.ofList_toList, hbytes, List.utf8Encode] at hencode
    simpa using congrArg (fun b : ByteArray => b.data.toList) hencode
  · simp at h

/-- A line whose last byte is a line feed has its line end. -/
theorem ended_ofBytes {bytes : List UInt8} (h : bytes.getLast? = some 10) :
    (ofBytes bytes).Ended := by
  unfold ofBytes
  split
  · exact trivial
  · next line hline =>
    rw [eq_flatMap_of_fromUTF8? hline] at h
    rcases List.eq_nil_or_concat line.toList with hnil | ⟨body, c, hcs⟩
    · simp [hnil] at h
    · rw [List.concat_eq_append] at hcs
      obtain rfl : c = '\n' := by
        refine eq_feed_of_getLast? ?_
        have hc : (String.utf8EncodeChar c).getLast?.isSome = true := by simp
        rwa [hcs, List.flatMap_append, List.flatMap_singleton, List.getLast?_append,
          Option.or_of_isSome hc] at h
      change String.ofList (cut line.toList).2 = "\n" ∨ String.ofList (cut line.toList).2 = "\r\n"
      rw [cut, show line.toList.reverse = '\n' :: body.reverse by simp [hcs]]
      cases body.reverse with
      | nil => exact .inl rfl
      | cons d body' =>
        by_cases hd : d = '\r'
        · subst hd
          exact .inr rfl
        · refine .inl ?_
          simp [hd]

theorem ended_of_split (bytes : List UInt8) :
    ∀ line ∈ ((split bytes).map ofBytes).dropLast, line.Ended := by
  intro line hline
  rw [← List.map_dropLast] at hline
  obtain ⟨w, hw, rfl⟩ := List.mem_map.1 hline
  exact ended_ofBytes (getLast?_of_mem_split hw)

end InputLine

/-! ### Blanks -/

namespace Text

theorem trimStart_append {cs : List Char} (h : ∃ c ∈ cs, isBlank c = false) (ds : List Char) :
    trimStart (cs ++ ds) = trimStart cs ++ ds := by
  induction cs with
  | nil => simp at h
  | cons c cs ih =>
    cases hc : isBlank c with
    | false => simp [trimStart, hc]
    | true =>
      have hcs : ∃ d ∈ cs, isBlank d = false := by simpa [hc] using h
      simpa [trimStart, hc] using ih hcs

theorem trimEnd_cons {c : Char} (h : isBlank c = false) (cs : List Char) :
    trimEnd (c :: cs) = c :: trimEnd cs := by
  rw [trimEnd, List.reverse_cons, List.dropWhile_append]
  split
  · next hnil =>
    rw [List.isEmpty_iff] at hnil
    simp [trimEnd, hnil, h]
  · simp [trimEnd]

/-- What is cut off at the end is blank. -/
theorem exists_trimEnd_append (cs : List Char) :
    ∃ blanks, cs = trimEnd cs ++ blanks ∧ ∀ c ∈ blanks, isBlank c = true := by
  refine ⟨(cs.reverse.takeWhile isBlank).reverse, ?_, fun c hc => ?_⟩
  · rw [trimEnd, ← List.reverse_append, List.takeWhile_append_dropWhile, List.reverse_reverse]
  · exact List.all_eq_true.1 List.all_takeWhile c (List.mem_reverse.1 hc)

/-- A word ends before blanks as it does at the end of the text. -/
theorem takeWhile_append_blank (cs : List Char) {ds : List Char}
    (h : ds.head?.all isBlank = true) :
    (cs ++ ds).takeWhile (!isBlank ·) = cs.takeWhile (!isBlank ·) := by
  induction cs with
  | nil =>
    cases ds with
    | nil => rfl
    | cons d ds =>
      have hd : isBlank d = true := by simpa using h
      simp [hd]
  | cons c cs ih => simp only [List.cons_append, List.takeWhile_cons, ih]

theorem takeWhile_trimEnd (cs : List Char) :
    (trimEnd cs).takeWhile (!isBlank ·) = cs.takeWhile (!isBlank ·) := by
  obtain ⟨blanks, hcs, hblanks⟩ := exists_trimEnd_append cs
  have hhead : blanks.head?.all isBlank = true := by
    cases blanks with
    | nil => rfl
    | cons b blanks => simpa using hblanks b List.mem_cons_self
  rw [← takeWhile_append_blank (trimEnd cs) hhead, ← hcs]

end Text

namespace Session

/-! ### The word of a command -/

/-- The command that a text without blanks before it starts with. -/
def Command.ahead? : List Char → Option Command
  | '.' :: cs => ofWord? (String.ofList ((cs.takeWhile (!Text.isBlank ·)).map Char.toLower))
  | _ => none

theorem Command.ahead?_of_ne {c : Char} (h : c ≠ '.') (cs : List Char) : ahead? (c :: cs) = none := by
  unfold ahead?
  split
  · next heq => exact absurd (List.cons.inj heq).1 h
  · rfl

/-- Only the first word tells whether an input is a command, and which. -/
theorem Command.parse?_fst (input : String) :
    (parse? input).map Prod.fst = ahead? (Text.trimStart input.toList) := by
  rw [parse?, Text.trim]
  generalize htext : Text.trimStart input.toList = cs
  cases cs with
  | nil => rfl
  | cons c cs =>
    have hc : Text.isBlank c = false := by
      have hhead := List.head?_dropWhile_not Text.isBlank input.toList
      rw [← Text.trimStart, htext] at hhead
      simpa using hhead
    rw [Text.trimEnd_cons hc]
    by_cases hpoint : c = '.'
    · subst hpoint
      simp [ahead?, Text.takeWhile_trimEnd, Function.comp_def]
    · rw [ahead?_of_ne hpoint]
      split
      · next heq => exact absurd (List.cons.inj heq).1 hpoint
      · rfl

theorem Command.ahead?_append (cs : List Char) {ds : List Char}
    (h : ds.head?.all Text.isBlank = true) : ahead? (cs ++ ds) = ahead? cs := by
  match cs, ds with
  | [], [] => rfl
  | [], d :: ds =>
    have hd : d ≠ '.' := by
      rintro rfl
      simp [show Text.isBlank '.' = false from by decide] at h
    exact ahead?_of_ne hd ds
  | c :: cs, ds =>
    by_cases hpoint : c = '.'
    · subst hpoint
      simp only [List.cons_append, ahead?, Text.takeWhile_append_blank cs h]
    · rw [List.cons_append, ahead?_of_ne hpoint, ahead?_of_ne hpoint]

/-- Text behind a line with something on it makes no command and changes none, if it starts with a
blank. -/
theorem Command.parse?_append {line more : String}
    (hline : ∃ c ∈ line.toList, Text.isBlank c = false)
    (hmore : more.toList.head?.all Text.isBlank = true) :
    (parse? (line ++ more)).map Prod.fst = (parse? line).map Prod.fst := by
  rw [parse?_fst, parse?_fst, String.toList_append, Text.trimStart_append hline,
    ahead?_append _ hmore]

/-! ### Lines with nothing on them -/

/-- No string and no comment starts with a blank. -/
theorem claimant_of_blank {bs : List Builtin} {cs : List Char}
    (hblank : ∀ c ∈ cs, Text.isBlank c = true) {b : Builtin} (hb : Builtin.claimant bs cs = some b) :
    b ≠ .string ∧ b ≠ .multiLineComment := by
  have hahead : b.recognizes cs = true := by simpa using List.find?_some hb
  obtain ⟨c, r, rfl, hc⟩ := Builtin.startsWith_of_recognizes hahead
  have hcblank := hblank c List.mem_cons_self
  constructor
  · rintro rfl
    simp only [Builtin.startsWith, Bool.or_eq_true, beq_iff_eq] at hc
    rcases hc with rfl | rfl <;> exact absurd hcblank (by decide)
  · rintro rfl
    simp only [Builtin.startsWith, beq_iff_eq] at hc
    subst hc
    exact absurd hcblank (by decide)

/-- Blanks may be refused, but they leave nothing open. -/
theorem isUnterminated_of_blank {bs : List Builtin} {source : String} {failure : ScanFailure}
    (hblank : ∀ c ∈ source.toList, Text.isBlank c = true)
    (hfailed : tokenizeWith bs source = .error failure) :
    failure.error.isUnterminated = false := by
  obtain ⟨l, hrun, herror⟩ := Lexer.yields_of_collect_error hfailed
  have hreached := (Lexer.reached_start bs source.toList).yields hrun
  rw [List.nil_append] at hreached
  have hdescribes := (hreached.describes (Prod.ext herror rfl)).1
  have hrest : ∀ c ∈ l.cursor.rest, Text.isBlank c = true := by
    intro c hc
    refine hblank c ?_
    rw [hreached.rest]
    exact List.mem_append_right _ hc
  cases herr : failure.error with
  | unexpectedToken | unexpectedCharacter => rfl
  | unterminatedString start p =>
    rw [herr] at hdescribes
    exact absurd rfl (claimant_of_blank hrest hdescribes.1).1
  | unterminatedComment start p =>
    rw [herr] at hdescribes
    exact absurd rfl (claimant_of_blank hrest hdescribes.1).2

end Session

end JsLexer
