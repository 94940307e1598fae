import JsLexer.Proofs.Json.Brackets
import JsLexer.Proofs.Json.Sound

/-!
Written values that are cut short.

A layout closes what it opens, so wherever it is cut something is missing: the rest of a word, a
closing quote, a value behind its key, a bracket. A reader that comes to the cut asks for more. A
number is the exception, since its first digits are a number, too; but then nothing is left behind
it, and the record around it asks for more.
-/

namespace JsLexer.Json

variable {α β Draft : Type}

/-! ### Texts that are cut short -/

/-- `p` is a start of `w`, but not all of it. -/
def IsCut (p w : List Char) : Prop := p <+: w ∧ p ≠ w

variable {p w v : List Char} {c : Char}

theorem not_isCut_nil : ¬ IsCut p [] := fun h => h.2 (List.prefix_nil.1 h.1)

theorem isCut_nil (hw : w ≠ []) : IsCut [] w := ⟨List.nil_prefix, hw.symm⟩

/-- What is cut short before its last code point may be all that stands before it. -/
theorem isCut_concat : IsCut p (w ++ [c]) ↔ p <+: w := by
  constructor
  · rintro ⟨hp, hne⟩
    exact (List.prefix_concat_iff.1 hp).resolve_left hne
  · intro h
    refine ⟨h.trans (List.prefix_append w [c]), ?_⟩
    rintro rfl
    have hlength := h.length_le
    rw [List.length_append, List.length_singleton] at hlength
    omega

/-- A text with a first code point is cut short before or behind it. -/
theorem IsCut.of_cons (h : IsCut p (c :: w)) : p = [] ∨ ∃ q, p = c :: q ∧ IsCut q w := by
  obtain ⟨hp, hne⟩ := h
  rcases List.prefix_cons_iff.1 hp with rfl | ⟨q, rfl, hq⟩
  · exact .inl rfl
  · exact .inr ⟨q, rfl, hq, fun heq => hne (by rw [heq])⟩

/-- A start of two texts in a row is the first one cut short, or it has all of it. -/
theorem cut_or_append (h : p <+: v ++ w) : IsCut p v ∨ ∃ q, p = v ++ q ∧ q <+: w := by
  rcases List.prefix_or_prefix_of_prefix h (List.prefix_append v w) with hp | ⟨q, rfl⟩
  · by_cases heq : p = v
    · exact .inr ⟨[], by rw [heq, List.append_nil], List.nil_prefix⟩
    · exact .inl ⟨hp, heq⟩
  · exact .inr ⟨q, rfl, (List.prefix_append_right_inj v).1 h⟩

theorem IsCut.byteLength_lt (h : IsCut p w) : Text.byteLength p < Text.byteLength w := by
  obtain ⟨⟨q, rfl⟩, hne⟩ := h
  have hq : Text.byteLength q ≠ 0 := fun hzero => hne (by simp [Text.byteLength_eq_zero.1 hzero])
  rw [Text.byteLength_append]
  omega

/-! ### What readers make of them -/

/-- The text ended before the value did, or the value took the text to its end. -/
def Spent (x : Parsed α) : Prop := x = .error .truncated ∨ ∃ a, x = .ok (a, [])

/-- A reader that asks for more wherever the written value is cut. -/
def Truncates (read : List Char → Parsed α) (written : Written) : Prop :=
  ∀ depth {p cs : List Char}, IsCut p (written depth) → skipBlanks cs = p →
    read cs = .error .truncated

/-- A reader that leaves nothing behind wherever the written value is cut. -/
def Exhausts (read : List Char → Parsed α) (written : Written) : Prop :=
  ∀ depth {p cs : List Char}, IsCut p (written depth) → skipBlanks cs = p → Spent (read cs)

variable {read : List Char → Parsed α} {written : Written}

theorem Truncates.exhausts (h : Truncates read written) : Exhausts read written :=
  fun depth _ _ hp hcs => .inl (h depth hp hcs)

/-- A reader that goes on to use the value leaves as much behind. -/
theorem Exhausts.map (h : Exhausts read written) (f : α → β) :
    Exhausts (fun cs => (read cs).map fun (a, rest) => (f a, rest)) written := by
  intro depth p cs hp hcs
  dsimp only
  rcases h depth hp hcs with herror | ⟨a, hok⟩
  · rw [herror]
    exact .inl rfl
  · rw [hok]
    exact .inr ⟨f a, rfl⟩

/-- A start of a written value does not start with a blank. -/
theorem ReadsBack.skipBlanks_prefix {a : α} (h : ReadsBack read written a) {depth : Nat}
    (hp : p <+: written depth) : skipBlanks p = p := by
  obtain ⟨c, cs, hwritten, hblank, -⟩ := h.starts depth
  rw [hwritten] at hp
  rcases List.prefix_cons_iff.1 hp with rfl | ⟨q, rfl, -⟩
  · rfl
  · exact skipBlanks_cons hblank q

/-! ### Strings -/

/-- Every code point takes a byte at least. -/
theorem length_le_byteLength (cs : List Char) : cs.length ≤ Text.byteLength cs := by
  induction cs with
  | nil => simp
  | cons c cs ih =>
    have hpos := c.utf8Size_pos
    rw [List.length_cons, Text.byteLength_cons]
    omega

/-- Less than four bytes are too short for four digits, whatever they are. -/
theorem fourHex_short {cs : List Char} (h : Text.byteLength cs < 4) :
    fourHex cs = .error .truncated := by
  have hlength := length_le_byteLength cs
  have htake : cs.take 4 = cs := List.take_of_length_le (by omega)
  cases hread : fourHex cs with
  | ok n =>
    obtain ⟨w, rest, rfl, hw⟩ := fourHex_sound hread
    have hfour := hw.length_eq
    rw [List.length_append] at hlength
    omega
  | error e =>
    rw [fourHex, htake, if_pos h] at hread
    split at hread
    · simp at hread
    · exact hread.symm

theorem utf8Size_digitChar : ∀ n < 16, (Nat.digitChar n).utf8Size = 1 := by decide

/-- An escape that is cut short. -/
theorem stringRest_escape_cut (h : IsCut p (escape c)) : stringRest 0 p = .error .truncated := by
  have hshort {e : Char} (h : IsCut p ['\\', e]) : stringRest 0 p = .error .truncated := by
    rcases h.of_cons with rfl | ⟨q, rfl, hq⟩
    · rfl
    · rcases hq.of_cons with rfl | ⟨q', rfl, hq'⟩
      · rfl
      · exact absurd hq' not_isCut_nil
  unfold escape at h
  -- the seven that have an escape of their own
  iterate 7
    split at h
    · exact hshort h
  split at h
  · next hcontrol =>
    rcases h.of_cons with rfl | ⟨q, rfl, hq⟩
    · rfl
    · rcases hq.of_cons with rfl | ⟨q', rfl, hq'⟩
      · rfl
      · have hbytes := hq'.byteLength_lt
        simp only [Text.byteLength_cons, Text.byteLength_nil,
          utf8Size_digitChar _ (show c.toNat / 16 < 16 by omega),
          utf8Size_digitChar _ (show c.toNat % 16 < 16 by omega)] at hbytes
        have hfour : fourHex q' = .error .truncated := fourHex_short hbytes
        simp [stringRest, escapeAhead, numberEscape, hfour, Except.map]
  · rcases h.of_cons with rfl | ⟨q, rfl, hq⟩
    · rfl
    · exact absurd hq not_isCut_nil

/-- A string without its closing quote. -/
theorem stringRest_cut {s : List Char} (h : p <+: s.flatMap escape) :
    stringRest 0 p = .error .truncated := by
  induction s generalizing p with
  | nil =>
    obtain rfl := List.prefix_nil.1 h
    rfl
  | cons c s ih =>
    rw [List.flatMap_cons] at h
    rcases cut_or_append h with hcut | ⟨q, rfl, hq⟩
    · exact stringRest_escape_cut hcut
    · rw [stringRest_escape, ih hq]
      rfl

/-- A string that is cut short has no closing quote, and perhaps no opening one. -/
theorem isCut_string {s : String} (h : IsCut p (string s)) :
    p = [] ∨ ∃ q, p = '"' :: q ∧ stringAhead q = .error .truncated := by
  rcases IsCut.of_cons h with rfl | ⟨q, rfl, hq⟩
  · exact .inl rfl
  · refine .inr ⟨q, rfl, ?_⟩
    rw [stringAhead, stringRest_cut (isCut_concat.1 hq)]
    rfl

theorem truncates_text (wanted s : String) : Truncates (readString wanted) (text s) := by
  intro depth p cs hp hcs
  rw [readString, hcs]
  rcases isCut_string hp with rfl | ⟨q, rfl, hq⟩
  · rfl
  · exact hq

/-! ### Numbers -/

/-- The first digits of a number are a smaller number. -/
theorem exists_of_prefix_toDigits {n : Nat} (h : p <+: Nat.toDigits 10 n) (hne : p ≠ []) :
    ∃ m ≤ n, p = Nat.toDigits 10 m := by
  induction n using Nat.strongRecOn with
  | ind n ih =>
    by_cases hwhole : p = Nat.toDigits 10 n
    · exact ⟨n, Nat.le_refl n, hwhole⟩
    · rw [Nat.toDigits_eq_if (by decide)] at h hwhole
      split at h
      · next hsmall =>
        rw [if_pos hsmall] at hwhole
        rcases List.prefix_cons_iff.1 h with rfl | ⟨q, rfl, hq⟩
        · exact absurd rfl hne
        · exact absurd (by rw [List.prefix_nil.1 hq]) hwhole
      · next hlarge =>
        rw [if_neg hlarge] at hwhole
        obtain ⟨m, hm, rfl⟩ := ih (n / 10) (by omega) (isCut_concat.1 ⟨h, hwhole⟩)
        exact ⟨m, by omega, rfl⟩

theorem exhausts_natural {n : Nat} (hn : n ≤ maxUnsigned) : Exhausts readCount (natural n) := by
  intro depth p cs hp hcs
  by_cases hnil : p = []
  · subst hnil
    exact .inl (by rw [readCount, hcs]; rfl)
  · obtain ⟨m, hm, rfl⟩ := exists_of_prefix_toDigits hp.1 hnil
    refine .inr ⟨m, readCount_toDigits (Nat.le_trans hm hn) (by simp [Delimited]) ?_⟩
    rw [hcs, List.append_nil]

/-! ### Items between brackets -/

theorem skipBlanks_of_prefix_newline {depth : Nat} (h : p <+: newline depth) :
    skipBlanks p = [] := by
  have hblanks : ∀ c ∈ newline depth, isBlank c = true := by simp [newline, isBlank]
  simpa [skipBlanks] using skipBlanks_append (fun c hc => hblanks c (h.subset hc)) []

/-- Behind the last item there is nothing but blanks. -/
theorem skipBlanks_of_prefix_items {first : Bool} {depth : Nat}
    (h : p <+: itemsAhead first depth []) : skipBlanks p = [] := by
  cases first with
  | true =>
    obtain rfl := List.prefix_nil.1 h
    rfl
  | false => exact skipBlanks_of_prefix_newline h

/-- In front of an item there are blanks, and perhaps a comma. -/
theorem lead_prefix_cases {first : Bool} {depth : Nat} (h : p <+: lead first depth) :
    skipBlanks p = [] ∨ first = false ∧ ∃ q, p = ',' :: q ∧ skipBlanks q = [] := by
  cases first with
  | true => exact .inl (skipBlanks_of_prefix_newline h)
  | false =>
    rcases List.prefix_cons_iff.1 h with rfl | ⟨q, rfl, hq⟩
    · exact .inl rfl
    · exact .inr ⟨rfl, q, rfl, skipBlanks_of_prefix_newline hq⟩

theorem behind_of_prefix_items {depth : Nat} {items : List Written}
    (h : p <+: itemsAhead false depth items) : Behind p := by
  have hitems := behind_itemsAhead depth items []
  cases p with
  | nil => exact trivial
  | cons c p =>
    obtain ⟨q, hq⟩ := h
    rw [← hq, List.append_nil] at hitems
    exact hitems

/-! ### Lists -/

theorem nextElement_blank (first : Bool) (h : skipBlanks p = []) :
    nextElement first p = .error .truncated := by
  rw [nextElement, h]

theorem nextElement_lead {first : Bool} {depth : Nat} (h : p <+: lead first depth) :
    nextElement first p = .error .truncated := by
  rcases lead_prefix_cases h with hblank | ⟨rfl, q, rfl, hq⟩
  · exact nextElement_blank first hblank
  · simp [nextElement, skipBlanks_comma, hq]

theorem elementsAhead_error {limit : Nat} {first : Bool}
    (h : nextElement first p = .error .truncated) :
    elementsAhead read limit first p = .error .truncated := by
  cases limit with
  | zero => rfl
  | succ limit => rw [elementsAhead, h]

/-- An element that takes the text to its end is not the last one. -/
theorem elementsAhead_spent {limit : Nat} {first : Bool} {q : List Char}
    (hnext : nextElement first p = .ok (some q)) (h : Spent (read q)) :
    elementsAhead read limit first p = .error .truncated := by
  cases limit with
  | zero => rfl
  | succ limit =>
    rw [elementsAhead, hnext]
    rcases h with herror | ⟨a, hok⟩
    · simp only [herror]
    · have hmore : elementsAhead read limit false [] = .error .truncated :=
        elementsAhead_error (nextElement_blank false rfl)
      simp only [hok, hmore, Except.map]

/-- A list without its closing bracket. -/
theorem elementsAhead_cut {write : α → Written} {as : List α}
    (h : ∀ a ∈ as, ReadsBack read (write a) a ∧ Exhausts read (write a))
    {first : Bool} {depth : Nat} (hp : p <+: itemsAhead first depth (as.map write)) (limit : Nat) :
    elementsAhead read limit first p = .error .truncated := by
  induction as generalizing first p limit with
  | nil => exact elementsAhead_error (nextElement_blank first (skipBlanks_of_prefix_items hp))
  | cons a as ih =>
    obtain ⟨⟨ha, hcut⟩, has⟩ := List.forall_mem_cons.1 h
    rw [List.map_cons, itemsAhead, List.append_assoc] at hp
    rcases cut_or_append hp with hlead | ⟨q, rfl, hq⟩
    · exact elementsAhead_error (nextElement_lead hlead.1)
    · rcases cut_or_append hq with hitem | ⟨q', rfl, hq'⟩
      · -- inside the element, or still in front of it
        obtain ⟨c, cs, hwritten, hblank, hclosing⟩ := ha.starts (depth + 1)
        rcases List.prefix_cons_iff.1 (hwritten ▸ hitem.1) with rfl | ⟨q, rfl, -⟩
        · rw [List.append_nil]
          exact elementsAhead_error (nextElement_lead (List.prefix_refl _))
        · exact elementsAhead_spent (nextElement_start hblank hclosing first (depth + 1) q)
            (hcut (depth + 1) hitem (skipBlanks_cons hblank q))
      · -- behind the element
        have hread := ha.reads (depth + 1) (behind_of_prefix_items hq')
          (ha.skipBlanks_written (depth + 1) q')
        cases limit with
        | zero => rfl
        | succ limit =>
          rw [elementsAhead, nextElement_item ha]
          simp only [hread, ih has hq' limit, Except.map]

theorem truncates_array {write : α → Written} {as : List α}
    (h : ∀ a ∈ as, ReadsBack read (write a) a ∧ Exhausts read (write a)) :
    Truncates (readList read) (array (as.map write)) := by
  intro depth p cs hp hcs
  rw [array, bracketed_eq] at hp
  rw [readList, hcs]
  rcases hp.of_cons with rfl | ⟨q, rfl, hq⟩
  · rfl
  · exact elementsAhead_cut h (isCut_concat.1 hq) (q.length + 1)

/-! ### Records -/

namespace Record

variable {r : Record Draft α}

theorem nextKey_blank (first : Bool) (h : skipBlanks p = []) :
    nextKey first p = .error .truncated := by
  rw [nextKey, h]

theorem nextKey_lead {first : Bool} {depth : Nat} (h : p <+: lead first depth) :
    nextKey first p = .error .truncated := by
  rcases lead_prefix_cases h with hblank | ⟨rfl, q, rfl, hq⟩
  · exact nextKey_blank first hblank
  · simp [nextKey, nextKey.keyAhead, skipBlanks_comma, hq]

/-- A key that is cut short. -/
theorem nextKey_cut {key : String} (h : IsCut p (string key)) (first : Bool) (depth : Nat) :
    nextKey first (lead first depth ++ p) = .error .truncated := by
  rcases isCut_string h with rfl | ⟨q, rfl, hq⟩
  · rw [List.append_nil]
    exact nextKey_lead (List.prefix_refl _)
  · have hquote := skipBlanks_cons (c := '"') rfl q
    cases first with
    | true => simp [nextKey, nextKey.keyAhead, lead, skipBlanks_newline, hquote, hq, Except.map]
    | false =>
      simp [nextKey, nextKey.keyAhead, lead, skipBlanks_comma, skipBlanks_newline, hquote, hq,
        Except.map]

/-- A member that is cut short behind its key. -/
theorem readMember_cut {draft next : Draft} {key : String} {field : Field Draft} {value : Written}
    (hfield : r.fields.find? (·.key == key) = some field) (hset : field.isSet draft = false)
    (hvalue : ReadsBack (field.read draft) value next) (hcut : Exhausts (field.read draft) value)
    {depth : Nat} (hp : IsCut p ([':', ' '] ++ value depth)) :
    Spent (r.readMember key draft p) := by
  obtain ⟨c, cs, hwritten, -⟩ := hvalue.starts depth
  have hnil : IsCut [] (value depth) := isCut_nil (by simp [hwritten])
  rw [readMember, hfield]
  simp only [hset, Bool.false_eq_true, if_false]
  rcases hp.of_cons with rfl | ⟨q, rfl, hq⟩
  · exact .inl rfl
  · rcases hq.of_cons with rfl | ⟨q', rfl, hq'⟩
    · exact hcut depth hnil rfl
    · exact hcut depth hq' (hvalue.skipBlanks_prefix hq'.1)

theorem fromObject_error {limit : Nat} {first : Bool} {draft : Draft}
    (h : nextKey first p = .error .truncated) :
    r.fromObject limit first draft p = .error .truncated := by
  cases limit with
  | zero => rfl
  | succ limit => rw [fromObject, h]

/-- A member that takes the text to its end is not the last one. -/
theorem fromObject_spent {limit : Nat} {first : Bool} {draft : Draft} {key : String} {q : List Char}
    (hkey : nextKey first p = .ok (some key, q)) (h : Spent (r.readMember key draft q)) :
    r.fromObject limit first draft p = .error .truncated := by
  cases limit with
  | zero => rfl
  | succ limit =>
    rw [fromObject, hkey]
    rcases h with herror | ⟨next, hok⟩
    · simp only [herror]
    · have hmore : r.fromObject limit false next [] = .error .truncated :=
        fromObject_error (nextKey_blank false rfl)
      simp only [hok, hmore]

/-- An object without its closing brace. -/
theorem fromObject_cut {draft last : Draft} {members : List (String × Written)}
    (h : Fills r draft members last)
    (hcut : ∀ m ∈ members, ∀ field, r.fields.find? (·.key == m.1) = some field →
      ∀ draft, Exhausts (field.read draft) m.2)
    {first : Bool} {depth : Nat}
    (hp : p <+: itemsAhead first depth (members.map fun (key, value) => member key value))
    (limit : Nat) : r.fromObject limit first draft p = .error .truncated := by
  induction h generalizing first p limit with
  | done draft => exact fromObject_error (nextKey_blank first (skipBlanks_of_prefix_items hp))
  | @field draft next last key field value members hfield hset hvalue _ ih =>
    obtain ⟨hcut, hcuts⟩ := List.forall_mem_cons.1 hcut
    have hvalueCut := hcut field hfield draft
    simp only [List.map_cons, itemsAhead, member, List.append_assoc] at hp
    rcases cut_or_append hp with hlead | ⟨q, rfl, hq⟩
    · exact fromObject_error (nextKey_lead hlead.1)
    · rcases cut_or_append hq with hkey | ⟨q', rfl, hq'⟩
      · exact fromObject_error (nextKey_cut hkey first (depth + 1))
      · have hkey := nextKey_member first (depth + 1) key q'
        rw [← List.append_assoc] at hq'
        rcases cut_or_append hq' with hmember | ⟨q'', rfl, hq''⟩
        · exact fromObject_spent hkey (readMember_cut hfield hset hvalue hvalueCut hmember)
        · -- behind the member
          have hread :=
            readMember_field hfield hset hvalue (depth + 1) (behind_of_prefix_items hq'')
          rw [List.append_assoc] at hkey ⊢
          cases limit with
          | zero => rfl
          | succ limit =>
            rw [fromObject, hkey]
            simp only [hread, ih hcuts hq'' limit]

end Record

theorem Fills.truncates {r : Record Draft α} {members : List (String × Written)} {last : Draft}
    (h : Fills r r.blank members last)
    (hcut : ∀ m ∈ members, ∀ field, r.fields.find? (·.key == m.1) = some field →
      ∀ draft, Exhausts (field.read draft) m.2) :
    Truncates r.read (object members) := by
  intro depth p cs hp hcs
  rw [object, bracketed_eq] at hp
  rw [Record.read, hcs]
  rcases hp.of_cons with rfl | ⟨q, rfl, hq⟩
  · rfl
  · simp only [Record.fromObject_cut h hcut (isCut_concat.1 hq) (q.length + 1)]

/-! ### Whole texts -/

/-- A text is not decoded before its last code point is there. -/
theorem Truncates.decode {a : α} (h : Truncates read written) (hback : ReadsBack read written a)
    {s : String} (hs : IsCut s.toList (written 0)) : Json.decode read s = .error .truncated := by
  rw [Json.decode, h 0 hs (hback.skipBlanks_prefix hs.1)]

end JsLexer.Json
