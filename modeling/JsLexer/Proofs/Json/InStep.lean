import JsLexer.Proofs.Json.Skipping
import JsLexer.Proofs.Json.Sound

/-!
Readers keep in step with the walk over values that are of no use.

Every value has two parsers, the reader for its type and the walk that only checks it. On any text at
all, a reader that gives a value stops where the walk would have stopped. So a value is never longer
or shorter for the one than for the other, and what stands behind it is found by either.
-/

namespace JsLexer.Json

variable {α β Draft : Type}

/-- A reader that stops where a value ends. -/
def InStep (read : List Char → Parsed α) : Prop :=
  ∀ cs a rest, read cs = .ok (a, rest) → skipValue cs = .ok rest

theorem InStep.map {read : List Char → Parsed α} (h : InStep read) (f : α → β) :
    InStep fun cs => (read cs).map fun (a, rest) => (f a, rest) := by
  intro cs b rest hread
  obtain ⟨a, ha, -⟩ := Parsed.of_map hread
  exact h cs a rest ha

theorem skipValue_skipBlanks (cs : List Char) : skipValue (skipBlanks cs) = skipValue cs :=
  walk_skipBlanks underway_value cs

/-! ### Strings and numbers -/

theorem inStep_readString (wanted : String) : InStep (readString wanted) := by
  intro cs s rest h
  rw [readString] at h
  split at h
  · next body hcs =>
    obtain ⟨w, rfl, hw⟩ := stringAhead_sound h
    rw [← skipValue_skipBlanks, hcs, skipValue, hw.walk_value, walk_finished]
  · simp at h

theorem inStep_readCount : InStep readCount := by
  intro cs n rest h
  rw [readCount] at h
  split at h
  · obtain ⟨hminus, -⟩ := numberAhead_sound (countOf_sound h)
    cases hminus
  · split at h
    · obtain ⟨-, w, hw, hunsigned, hends⟩ := numberAhead_sound (countOf_sound h)
      rw [← skipValue_skipBlanks, hw, skipValue, hunsigned.walk_value hends, walk_finished]
    · simp at h

/-! ### Records -/

namespace Record

variable {r : Record Draft α} {cs rest : List Char} {stack : List Bracket}

/-- What the walk expects of the items between brackets: before the first one, or behind another. -/
def expectedIn (bracket : Bracket) (first : Bool) : Expected :=
  if first then bracket.first else .separator

/-- Inside of brackets the walk may leave blanks out. -/
theorem walk_items (bracket : Bracket) {first : Bool} {c : Char} {more : List Char}
    (hcs : skipBlanks cs = c :: more) :
    walk (bracket :: stack) (expectedIn bracket first) 0 cs =
      walk (bracket :: stack) (expectedIn bracket first) 0 (c :: more) := by
  rw [← hcs, walk_skipBlanks (underway_cons bracket)]

theorem isBlank_of_skipBlanks {c : Char} {more : List Char} (hcs : skipBlanks cs = c :: more) :
    isBlank c = false := by
  have hhead := List.head?_dropWhile_not isBlank cs
  rw [← skipBlanks, hcs] at hhead
  simpa using hhead

theorem walk_closing (bracket : Bracket) (first : Bool)
    (hcs : skipBlanks cs = bracket.closing :: rest) :
    walk (bracket :: stack) (expectedIn bracket first) 0 cs = walk stack .separator 0 rest := by
  have hstep : walkStep (bracket :: stack) (expectedIn bracket first) bracket.closing rest =
      .ok ⟨stack, .separator, 0⟩ := by
    cases first with
    | false => exact bracket.walkStep_closing stack rest
    | true => exact (bracket.walkStep_first stack _ rest).trans (if_pos rfl)
  rw [walk_items bracket hcs, walk_step (underway_cons bracket) bracket.isBlank_closing hstep]

theorem walk_comma (bracket : Bracket) (hcs : skipBlanks cs = ',' :: rest) :
    walk (bracket :: stack) (expectedIn bracket false) 0 cs =
      walk (bracket :: stack) bracket.item 0 rest := by
  rw [walk_items bracket hcs]
  exact walk_step (underway_cons bracket) rfl (bracket.walkStep_comma stack rest)

theorem walk_first (bracket : Bracket) {c : Char} (hcs : skipBlanks cs = c :: rest)
    (hc : c ≠ bracket.closing) :
    walk (bracket :: stack) (expectedIn bracket true) 0 cs =
      walk (bracket :: stack) bracket.item 0 (c :: rest) := by
  rw [walk_items bracket hcs]
  refine walk_congr (underway_cons bracket) (underway_cons bracket) (isBlank_of_skipBlanks hcs) ?_
  exact (bracket.walkStep_first stack c rest).trans (if_neg hc)

/-! #### From a list -/

theorem closeList_sound (h : closeList cs = .ok rest) : skipBlanks cs = ']' :: rest := by
  unfold closeList at h
  split at h
  · simp at h
  · next heq => rw [heq, Except.ok.inj h]
  · simp at h

theorem nextElement_inStep {first : Bool} {element : List Char}
    (h : nextElement first cs = .ok (some element)) :
    walk (.array :: stack) (expectedIn .array first) 0 cs =
      walk (.array :: stack) .value 0 element := by
  unfold nextElement at h
  split at h
  · simp at h
  · simp at h
  · next c more hclosing hcs =>
    split at h
    · next hfirst =>
      subst hfirst
      cases h
      exact walk_first .array hcs hclosing
    · next hfirst =>
      split at h
      · next hcomma =>
        subst hcomma
        split at h
        · simp at h
        · simp at h
        · cases h
          rw [Bool.eq_false_iff.2 hfirst, walk_comma .array hcs]
          exact (walk_skipBlanks underway_value more).symm
      · simp at h

theorem fromList_inStep (hfields : ∀ f ∈ r.fields, ∀ draft, InStep (f.read draft))
    {fields : List (Field Draft)} (hsub : ∀ f ∈ fields, f ∈ r.fields) {first : Bool}
    {draft last : Draft} (h : r.fromList first fields draft cs = .ok (last, rest))
    (stack : List Bracket) :
    walk (.array :: stack) (expectedIn .array first) 0 cs = walk stack .separator 0 rest := by
  induction fields generalizing first draft cs with
  | nil =>
    rw [fromList] at h
    cases hclose : closeList cs with
    | error e => simp [hclose, Except.map] at h
    | ok rest' =>
      simp only [hclose, Except.map, Except.ok.injEq, Prod.mk.injEq] at h
      rw [← h.2]
      exact walk_closing .array first (closeList_sound hclose)
  | cons field fields ih =>
    obtain ⟨hfield, hothers⟩ := List.forall_mem_cons.1 hsub
    rw [fromList] at h
    split at h
    · simp at h
    · simp at h
    · next element helement =>
      split at h
      · simp at h
      · next next rest' hread =>
        have hvalue := hfields field hfield draft element next rest' hread
        rw [nextElement_inStep helement, walk_of_skipValue hvalue]
        exact ih hothers h

/-! #### From an object -/

theorem keyAhead_sound {key : Option String} (h : nextKey.keyAhead cs = .ok (key, rest)) :
    ∃ body, cs = '"' :: (body ++ '"' :: rest) ∧ IsCharacters body := by
  unfold nextKey.keyAhead at h
  split at h
  · simp at h
  · obtain ⟨s, hs, -⟩ := Parsed.of_map h
    obtain ⟨body, rfl, hbody⟩ := stringAhead_sound hs
    exact ⟨body, rfl, hbody⟩
  · simp at h

theorem nextKey_none {first : Bool} (h : nextKey first cs = .ok (none, rest)) :
    skipBlanks cs = '\x7d' :: rest := by
  have hkey : ∀ more, nextKey.keyAhead more ≠ .ok (none, rest) := by
    intro more hmore
    unfold nextKey.keyAhead at hmore
    split at hmore
    · simp at hmore
    · next body =>
      cases hbody : stringAhead body <;> simp [hbody, Except.map] at hmore
    · simp at hmore
  unfold nextKey at h
  split at h
  · simp at h
  · next c more hcs =>
    split at h
    · next hclosing => rw [hcs, hclosing, (Prod.mk.inj (Except.ok.inj h)).2]
    · split at h
      · exact absurd h (hkey _)
      · split at h
        · exact absurd h (hkey _)
        · simp at h

theorem nextKey_inStep {first : Bool} {key : String} (h : nextKey first cs = .ok (some key, rest)) :
    walk (.object :: stack) (expectedIn .object first) 0 cs =
      walk (.object :: stack) .colon 0 rest := by
  unfold nextKey at h
  split at h
  · simp at h
  · next c more hcs =>
    split at h
    · simp at h
    · next hclosing =>
      split at h
      · next hfirst =>
        subst hfirst
        obtain ⟨body, hbody, hcharacters⟩ := keyAhead_sound h
        rw [walk_first .object hcs hclosing, hbody]
        exact hcharacters.walk_key (.object :: stack) rest
      · next hfirst =>
        split at h
        · next hcomma =>
          subst hcomma
          obtain ⟨body, hbody, hcharacters⟩ := keyAhead_sound h
          rw [Bool.eq_false_iff.2 hfirst, walk_comma .object hcs,
            ← walk_skipBlanks (underway_cons .object), hbody]
          exact hcharacters.walk_key (.object :: stack) rest
        · simp at h

theorem passColon_sound (h : passColon cs = .ok rest) : skipBlanks cs = ':' :: rest := by
  unfold passColon at h
  split at h
  · simp at h
  · next heq => rw [heq, Except.ok.inj h]
  · simp at h

/-- A member is either a field that was not set and is read into the draft, or it is passed over. -/
theorem readMember_sound {key : String} {draft next : Draft}
    (h : r.readMember key draft cs = .ok (next, rest)) :
    ∃ value, skipBlanks cs = ':' :: value ∧
      ((∃ f, r.fields.find? (·.key == key) = some f ∧ f.isSet draft = false ∧
          f.read draft value = .ok (next, rest)) ∨
        (r.fields.find? (·.key == key) = none ∧ next = draft ∧ skipValue value = .ok rest)) := by
  unfold readMember at h
  split at h
  · next f hf =>
    split at h
    · simp at h
    · next hset =>
      obtain ⟨value, hcolon, hread⟩ := Except.bind_eq_ok h
      exact ⟨value, passColon_sound hcolon, .inl ⟨f, hf, by simpa using hset, hread⟩⟩
  · next hnone =>
    cases hskip : (passColon cs).bind skipValue with
    | error e => simp [hskip, Except.map] at h
    | ok rest' =>
      simp only [hskip, Except.map, Except.ok.injEq, Prod.mk.injEq] at h
      obtain ⟨rfl, rfl⟩ := h
      obtain ⟨value, hcolon, hvalue⟩ := Except.bind_eq_ok hskip
      exact ⟨value, passColon_sound hcolon, .inr ⟨hnone, rfl, hvalue⟩⟩

theorem readMember_inStep (hfields : ∀ f ∈ r.fields, ∀ draft, InStep (f.read draft)) {key : String}
    {draft next : Draft} (h : r.readMember key draft cs = .ok (next, rest)) :
    walk (.object :: stack) .colon 0 cs = walk (.object :: stack) .separator 0 rest := by
  obtain ⟨value, hcolon, hvalue⟩ := readMember_sound h
  have hskip : skipValue value = .ok rest := by
    rcases hvalue with ⟨f, hf, -, hread⟩ | ⟨-, -, hskip⟩
    · exact hfields f (List.mem_of_find?_eq_some hf) draft value next rest hread
    · exact hskip
  have hstep : walkStep (.object :: stack) .colon ':' value = .ok ⟨.object :: stack, .value, 0⟩ :=
    rfl
  rw [← walk_skipBlanks underway_colon, hcolon, walk_step underway_colon rfl hstep]
  exact walk_of_skipValue hskip _

theorem fromObject_inStep (hfields : ∀ f ∈ r.fields, ∀ draft, InStep (f.read draft)) {limit : Nat}
    {first : Bool} {draft last : Draft} (h : r.fromObject limit first draft cs = .ok (last, rest))
    (stack : List Bracket) :
    walk (.object :: stack) (expectedIn .object first) 0 cs = walk stack .separator 0 rest := by
  induction limit generalizing first draft cs with
  | zero => simp [fromObject] at h
  | succ limit ih =>
    rw [fromObject] at h
    split at h
    · simp at h
    · next hkey =>
      cases h
      exact walk_closing .object first (nextKey_none hkey)
    · next key behind hkey =>
      split at h
      · simp at h
      · next next more hmember =>
        rw [nextKey_inStep hkey, readMember_inStep hfields hmember]
        exact ih h

/-- What is read was a list or an object of fields. -/
theorem read_sound {a : α} (h : r.read cs = .ok (a, rest)) :
    ∃ draft, r.finish draft = .ok a ∧
      ((∃ items, skipBlanks cs = '[' :: items ∧
          r.fromList true r.fields r.blank items = .ok (draft, rest)) ∨
        ∃ items, skipBlanks cs = '\x7b' :: items ∧
          r.fromObject (items.length + 1) true r.blank items = .ok (draft, rest)) := by
  rw [read] at h
  split at h
  · simp at h
  · next draft behind hdraft =>
    obtain ⟨b, hfinish, hb⟩ := Except.map_eq_ok h
    obtain ⟨rfl, rfl⟩ := Prod.mk.inj hb
    refine ⟨draft, hfinish, ?_⟩
    split at hdraft
    · next items hcs => exact .inl ⟨items, hcs, hdraft⟩
    · next items hcs => exact .inr ⟨items, hcs, hdraft⟩
    · simp at hdraft

/-- A record keeps in step if its fields do. -/
theorem inStep_read (hfields : ∀ f ∈ r.fields, ∀ draft, InStep (f.read draft)) :
    InStep r.read := by
  intro cs a rest h
  rw [← skipValue_skipBlanks, skipValue]
  obtain ⟨draft, -, ⟨items, hcs, hread⟩ | ⟨items, hcs, hread⟩⟩ := read_sound h
  · have hstep : walkStep [] .value '[' items = .ok ⟨[.array], .firstElement, 0⟩ := rfl
    rw [hcs, walk_step underway_value rfl hstep, ← walk_finished rest]
    exact fromList_inStep hfields (fun _ hf => hf) hread []
  · have hstep : walkStep [] .value '\x7b' items = .ok ⟨[.object], .firstKey, 0⟩ := rfl
    rw [hcs, walk_step underway_value rfl hstep, ← walk_finished rest]
    exact fromObject_inStep hfields hread []

end Record

end JsLexer.Json
