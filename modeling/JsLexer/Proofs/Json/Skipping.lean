import JsLexer.Proofs.Json.Length

/-!
Values are passed over.

The walk over a value that is of no use has a stack of open brackets and knows what may come next. It
gets through everything that is JSON, up to the last code point of the value: words, strings and
numbers are passed as a whole, and what is inside of brackets is passed item by item, by induction on
how deep the value is nested. What is open around the value makes no difference.
-/

namespace JsLexer.Json

/-! ### The walk -/

section Walk

variable {stack : List Bracket} {expected : Expected}

/-- Whether a walk is not at the end of its value. -/
def Underway (stack : List Bracket) (expected : Expected) : Prop :=
  ¬ (stack.isEmpty = true ∧ expected = .separator)

theorem underway_value : Underway stack .value := nofun

theorem underway_key : Underway stack .key := nofun

theorem underway_colon : Underway stack .colon := nofun

theorem underway_cons (bracket : Bracket) : Underway (bracket :: stack) expected := by
  simp [Underway]

theorem walk_claimed (w cs : List Char) :
    walk stack expected w.length (w ++ cs) = walk stack expected 0 cs := by
  induction w with
  | nil => rfl
  | cons c w ih => exact ih

theorem walk_skipBlanks (h : Underway stack expected) (cs : List Char) :
    walk stack expected 0 (skipBlanks cs) = walk stack expected 0 cs := by
  induction cs with
  | nil => rfl
  | cons c cs ih =>
    cases hc : isBlank c with
    | false => rw [skipBlanks_cons hc]
    | true =>
      have hskip : skipBlanks (c :: cs) = skipBlanks cs := by simp [skipBlanks, hc]
      rw [hskip, ih, walk, if_neg h, if_pos hc]

theorem walk_blanks (h : Underway stack expected) {b : List Char} (hb : Blank b) (cs : List Char) :
    walk stack expected 0 (b ++ cs) = walk stack expected 0 cs := by
  rw [← walk_skipBlanks h, skipBlanks_append hb.isBlank, walk_skipBlanks h]

theorem walk_step (h : Underway stack expected) {c : Char} (hc : isBlank c = false)
    {cs : List Char} {step : Step} (hstep : walkStep stack expected c cs = .ok step) :
    walk stack expected 0 (c :: cs) = walk step.stack step.expected step.claimed cs := by
  rw [walk, if_neg h, if_neg (by simp [hc]), hstep]

/-- What the walk says at a code point depends on what it does there. -/
theorem walk_congr {other : Expected} (h : Underway stack expected) (hother : Underway stack other)
    {c : Char} (hc : isBlank c = false) {cs : List Char}
    (hstep : walkStep stack expected c cs = walkStep stack other c cs) :
    walk stack expected 0 (c :: cs) = walk stack other 0 (c :: cs) := by
  have hnot : ¬ isBlank c = true := by simp [hc]
  rw [walk, walk, if_neg h, if_neg hother, if_neg hnot, if_neg hnot, hstep]

/-- A value without brackets is passed as a whole. -/
theorem walk_atom {c : Char} (hc : isBlank c = false) {v rest : List Char}
    (h : openValue stack c (v ++ rest) = .ok ⟨stack, .separator, v.length⟩) :
    walk stack .value 0 (c :: (v ++ rest)) = walk stack .separator 0 rest := by
  have hstep : walkStep stack .value c (v ++ rest) = .ok ⟨stack, .separator, v.length⟩ := h
  rw [walk_step underway_value hc hstep, walk_claimed]

end Walk

/-! ### Values without brackets -/

/-- A text that the walk gets through where it expects it, and then it expects a separator. -/
def PassedAs (expected : Expected) (v : List Char) : Prop :=
  ∀ stack rest, Delimited rest →
    walk stack expected 0 (v ++ rest) = walk stack .separator 0 rest

theorem passedAs_word {w : List Char} (h : w ∈ words) : Starts w ∧ PassedAs .value w := by
  simp only [words, List.mem_cons, List.not_mem_nil, or_false] at h
  rcases h with rfl | rfl | rfl
  all_goals exact ⟨⟨_, _, rfl, by decide, by decide, by decide⟩, fun _ _ _ => walk_atom rfl rfl⟩

section Strings

variable {w : List Char}

theorem IsString.starts (h : IsString w) : Starts w := by
  obtain ⟨body, -, rfl⟩ := h
  exact ⟨_, _, rfl, by decide, by decide, by decide⟩

/-- A string is passed as a whole by a step that measures it. -/
theorem IsCharacters.walk_quoted (h : IsCharacters w) {stack : List Bracket}
    {expected next : Expected} (hunder : Underway stack expected)
    (hstep : ∀ cs, walkStep stack expected '"' cs =
      (Json.stringLength 0 cs).map (Step.mk stack next)) (rest : List Char) :
    walk stack expected 0 ('"' :: (w ++ '"' :: rest)) = walk stack next 0 rest := by
  have hlength : walkStep stack expected '"' (w ++ '"' :: rest) =
      .ok ⟨stack, next, (w ++ ['"']).length⟩ := by
    rw [hstep, h.stringLength_quote]
    simp [Except.map]
  rw [List.append_cons] at hlength ⊢
  rw [walk_step hunder rfl hlength, walk_claimed]

theorem IsCharacters.walk_value (h : IsCharacters w) (stack : List Bracket) (rest : List Char) :
    walk stack .value 0 ('"' :: (w ++ '"' :: rest)) = walk stack .separator 0 rest :=
  h.walk_quoted underway_value (fun _ => rfl) rest

theorem IsCharacters.walk_key (h : IsCharacters w) (stack : List Bracket) (rest : List Char) :
    walk stack .key 0 ('"' :: (w ++ '"' :: rest)) = walk stack .colon 0 rest :=
  h.walk_quoted underway_key (fun _ => rfl) rest

theorem passedAs_string (h : IsString w) : PassedAs .value w := by
  obtain ⟨body, hbody, rfl⟩ := h
  intro stack rest _
  rw [List.append_assoc, List.cons_append, List.singleton_append]
  exact hbody.walk_value stack rest

end Strings

section Numbers

variable {w rest : List Char} {stack : List Bracket}

theorem openValue_digit {c : Char} (h : isDecimalDigit c = true) (cs : List Char) :
    openValue stack c cs =
      ((numberLength (c :: cs)).map (· - 1)).map (Step.mk stack .separator) := by
  unfold openValue
  split
  -- no sign or letter that starts another value is a digit
  iterate 7 exact absurd h (by decide)
  rw [if_pos h]

theorem IsUnsigned.walk_value (h : IsUnsigned w) (hrest : NumberEnds rest) :
    walk stack .value 0 (w ++ rest) = walk stack .separator 0 rest := by
  obtain ⟨d, ds, rfl, hd⟩ := h.head
  refine walk_atom (isBlank_of_isDecimalDigit hd) ?_
  rw [openValue_digit hd, ← List.cons_append, h.numberLength hrest]
  rfl

theorem IsNumber.starts (h : IsNumber w) : Starts w := by
  rcases h with h | ⟨v, -, rfl⟩
  · obtain ⟨d, ds, rfl, hd⟩ := h.head
    exact ⟨d, ds, rfl, isBlank_of_isDecimalDigit hd, ne_of_isDecimalDigit hd (by decide),
      ne_of_isDecimalDigit hd (by decide)⟩
  · exact ⟨_, _, rfl, by decide, by decide, by decide⟩

theorem passedAs_number (h : IsNumber w) : PassedAs .value w := by
  intro stack rest hrest
  rcases h with h | ⟨v, h, rfl⟩
  · exact h.walk_value hrest.numberEnds
  · refine walk_atom rfl ?_
    change (numberLength (v ++ rest)).map (Step.mk stack .separator) = _
    rw [h.numberLength hrest.numberEnds]
    rfl

end Numbers

/-! ### Items between brackets -/

namespace Bracket

/-- The sign that closes a bracket. -/
def closing : Bracket → Char
  | array => ']'
  | object => '\x7d'

/-- What comes behind a comma. -/
def item : Bracket → Expected
  | array => .value
  | object => .key

/-- What may come behind the opening bracket. -/
def first : Bracket → Expected
  | array => .firstElement
  | object => .firstKey

variable (b : Bracket)

theorem isBlank_closing : isBlank b.closing = false := by cases b <;> rfl

theorem closing_ne_comma : b.closing ≠ ',' := by cases b <;> decide

theorem delimited_closing (rest : List Char) : Delimited (b.closing :: rest) := by
  cases b <;> exact delimited_cons (by simp [closing]) rest

theorem head_ne_closing {w : List Char} (h : Starts w) :
    ∃ c cs, w = c :: cs ∧ isBlank c = false ∧ c ≠ b.closing := by
  obtain ⟨c, cs, rfl, hc, hsquare, hcurly⟩ := h
  cases b
  · exact ⟨c, cs, rfl, hc, hsquare⟩
  · exact ⟨c, cs, rfl, hc, hcurly⟩

theorem underway_item (stack : List Bracket) : Underway stack b.item := by
  cases b
  · exact underway_value
  · exact underway_key

theorem closeValue_cons (stack : List Bracket) (c : Char) :
    closeValue (b :: stack) c =
      if c = ',' then .ok ⟨b :: stack, b.item, 0⟩
      else if c = b.closing then .ok ⟨stack, .separator, 0⟩ else .error .malformed := by
  cases b
  all_goals
    unfold closeValue
    split <;> simp_all [item, closing]

theorem walkStep_comma (stack : List Bracket) (cs : List Char) :
    walkStep (b :: stack) .separator ',' cs = .ok ⟨b :: stack, b.item, 0⟩ := by
  rw [walkStep, closeValue_cons, if_pos rfl]

theorem walkStep_closing (stack : List Bracket) (cs : List Char) :
    walkStep (b :: stack) .separator b.closing cs = .ok ⟨stack, .separator, 0⟩ := by
  rw [walkStep, closeValue_cons, if_neg b.closing_ne_comma, if_pos rfl]

theorem walkStep_first (stack : List Bracket) (c : Char) (cs : List Char) :
    walkStep (b :: stack) b.first c cs =
      if c = b.closing then .ok ⟨stack, .separator, 0⟩ else walkStep (b :: stack) b.item c cs := by
  cases b <;> rfl

end Bracket

section Items

variable {bracket : Bracket} {items : List (List Char)} {w : List Char}

/-- What stands between brackets starts with blanks and the first item. -/
theorem Separated.head (h : Separated items w) :
    ∃ b v w', w = b ++ (v ++ w') ∧ Blank b ∧ v ∈ items := by
  cases h with
  | @one b v b' hb _ => exact ⟨b, v, b', rfl, hb, List.mem_cons_self⟩
  | @cons b v b' w vs hb _ _ => exact ⟨b, v, b' ++ ',' :: w, rfl, hb, List.mem_cons_self⟩

/-- Items are passed up to the sign that closes the bracket. -/
theorem walk_separated (h : Separated items w) (hitems : ∀ v ∈ items, PassedAs bracket.item v)
    (stack : List Bracket) (rest : List Char) :
    walk (bracket :: stack) bracket.item 0 (w ++ bracket.closing :: rest) =
      walk stack .separator 0 rest := by
  induction h with
  | @one b v b' hb hb' =>
    have hrest := (bracket.delimited_closing rest).of_blank hb'
    rw [List.append_assoc, List.append_assoc, walk_blanks (bracket.underway_item _) hb,
      hitems v List.mem_cons_self _ _ hrest, walk_blanks (underway_cons bracket) hb',
      walk_step (underway_cons bracket) bracket.isBlank_closing (bracket.walkStep_closing stack rest)]
  | @cons b v b' w vs hb hb' _ ih =>
    obtain ⟨hv, hvs⟩ := List.forall_mem_cons.1 hitems
    have hrest := (delimited_cons (c := ',') (by simp) (w ++ bracket.closing :: rest)).of_blank hb'
    rw [List.append_assoc, List.append_assoc, List.append_assoc, List.cons_append,
      walk_blanks (bracket.underway_item _) hb, hv _ _ hrest, walk_blanks (underway_cons bracket) hb',
      walk_step (underway_cons bracket) rfl (bracket.walkStep_comma stack _), ih hvs]

/-- Behind the opening bracket, the first item or the closing bracket may come next. -/
theorem walk_bracketed (bracket : Bracket) {opening : Char} (h : Bracketed opening bracket.closing items w)
    (hitems : ∀ v ∈ items, Starts v ∧ PassedAs bracket.item v) :
    ∃ inner, w = opening :: inner ∧ ∀ stack rest,
      walk (bracket :: stack) bracket.first 0 (inner ++ rest) = walk stack .separator 0 rest := by
  obtain ⟨inner, rfl, hinner⟩ := h
  refine ⟨_, rfl, fun stack rest => ?_⟩
  rw [List.append_assoc, List.singleton_append]
  rcases hinner with ⟨-, hinner⟩ | hinner
  · have hstep : walkStep (bracket :: stack) bracket.first bracket.closing rest =
        .ok ⟨stack, .separator, 0⟩ := by rw [bracket.walkStep_first, if_pos rfl]
    rw [walk_blanks (underway_cons bracket) hinner,
      walk_step (underway_cons bracket) bracket.isBlank_closing hstep]
  · rw [← walk_separated hinner fun v hv => (hitems v hv).2]
    -- an item is no closing bracket, so both walks take the same step at the first one
    obtain ⟨b, v, w', rfl, hb, hv⟩ := hinner.head
    obtain ⟨c, cs, rfl, hc, hne⟩ := bracket.head_ne_closing (hitems v hv).1
    rw [List.append_assoc, List.append_assoc, walk_blanks (underway_cons bracket) hb,
      walk_blanks (underway_cons bracket) hb]
    refine walk_congr (underway_cons bracket) (underway_cons bracket) hc ?_
    rw [bracket.walkStep_first, if_neg hne]

end Items

theorem passedAs_array {values : List (List Char)} {w : List Char} (h : ArrayOf values w)
    (hvalues : ∀ v ∈ values, Starts v ∧ PassedAs .value v) : Starts w ∧ PassedAs .value w := by
  obtain ⟨inner, rfl, hwalk⟩ := walk_bracketed .array h hvalues
  refine ⟨⟨_, _, rfl, by decide, by decide, by decide⟩, fun stack rest _ => ?_⟩
  have hstep : walkStep stack .value '[' (inner ++ rest) =
      .ok ⟨.array :: stack, .firstElement, 0⟩ := rfl
  rw [List.cons_append, walk_step underway_value rfl hstep]
  exact hwalk stack rest

theorem passedAs_object {members : List Member} {w : List Char} (h : ObjectOf members w)
    (hmembers : ∀ m ∈ members, Starts m.text ∧ PassedAs .key m.text) :
    Starts w ∧ PassedAs .value w := by
  obtain ⟨inner, rfl, hwalk⟩ := walk_bracketed .object h
    (List.forall_mem_map.2 hmembers)
  refine ⟨⟨_, _, rfl, by decide, by decide, by decide⟩, fun stack rest _ => ?_⟩
  have hstep : walkStep stack .value '\x7b' (inner ++ rest) =
      .ok ⟨.object :: stack, .firstKey, 0⟩ := rfl
  rw [List.cons_append, walk_step underway_value rfl hstep]
  exact hwalk stack rest

/-- A member is passed as a key, a colon and a value. -/
theorem passedAs_member {m : Member} (hname : IsString m.name) (hvalue : PassedAs .value m.value) :
    Starts m.text ∧ PassedAs .key m.text := by
  obtain ⟨body, hbody, hm⟩ := hname
  refine ⟨⟨'"', _, by rw [Member.text, hm]; rfl, by decide, by decide, by decide⟩, ?_⟩
  intro stack rest hrest
  have htext : m.text ++ rest =
      '"' :: (body ++ '"' :: (m.before ++ ':' :: (m.after ++ (m.value ++ rest)))) := by
    simp [Member.text, hm]
  have hcolon (cs : List Char) : walkStep stack .colon ':' cs = .ok ⟨stack, .value, 0⟩ := rfl
  rw [htext, hbody.walk_key, walk_blanks underway_colon m.blank_before,
    walk_step underway_colon rfl (hcolon _), walk_blanks underway_value m.blank_after,
    hvalue stack rest hrest]

/-! ### All values -/

theorem IsValue.passedAs {w : List Char} (h : IsValue w) : Starts w ∧ PassedAs .value w := by
  induction h with
  | word h => exact passedAs_word h
  | number h => exact ⟨h.starts, passedAs_number h⟩
  | string h => exact ⟨h.starts, passedAs_string h⟩
  | array h _ ih => exact passedAs_array h ih
  | object h hnames _ ih =>
    exact passedAs_object h fun m hm => passedAs_member (hnames m hm) (ih m hm).2

/-! ### What is open around a value -/

/-- Whether an opening bracket was just passed. -/
def Opened (expected : Expected) : Prop := expected = .firstElement ∨ expected = .firstKey

/-- A step with more brackets open around it. -/
def Step.within (step : Step) (outer : List Bracket) : Step :=
  ⟨step.stack ++ outer, step.expected, step.claimed⟩

/-- A step is the same with more brackets open around it, and an opening bracket that was just passed
is one of its own. -/
def Within (outer : List Bracket) (x wider : Except Error Step) : Prop :=
  ∀ step, x = .ok step → wider = .ok (step.within outer) ∧ (Opened step.expected → step.stack ≠ [])

section Within

variable {stack outer : List Bracket} {expected : Expected} {x x' y y' : Except Error Step}

theorem within_error (e : Error) (wider : Except Error Step) : Within outer (.error e) wider := by
  intro step h
  cases h

theorem within_ok (h : Opened expected → stack ≠ []) (claimed : Nat) :
    Within outer (.ok ⟨stack, expected, claimed⟩) (.ok ⟨stack ++ outer, expected, claimed⟩) := by
  intro step hstep
  cases hstep
  exact ⟨rfl, h⟩

theorem within_map (h : Opened expected → stack ≠ []) (lengths : Except Error Nat) :
    Within outer (lengths.map (Step.mk stack expected))
      (lengths.map (Step.mk (stack ++ outer) expected)) := by
  cases lengths with
  | error e => exact within_error e _
  | ok length => exact within_ok h length

theorem within_ite {p : Prop} [Decidable p] (hx : Within outer x x') (hy : Within outer y y') :
    Within outer (if p then x else y) (if p then x' else y') := by
  split
  · exact hx
  · exact hy

theorem not_opened_separator : ¬ Opened .separator := by simp [Opened]

theorem openValue_within (stack : List Bracket) (c : Char) (cs : List Char) :
    Within outer (openValue stack c cs) (openValue (stack ++ outer) c cs) := by
  have hatom : Opened .separator → stack ≠ [] := fun h => absurd h not_opened_separator
  unfold openValue
  split
  · exact within_ok (fun _ => List.cons_ne_nil _ _) 0
  · exact within_ok (fun _ => List.cons_ne_nil _ _) 0
  iterate 5 exact within_map hatom _
  · exact within_ite (within_map hatom _) (within_error _ _)

theorem openKey_within (stack : List Bracket) (c : Char) (cs : List Char) :
    Within outer (openKey stack c cs) (openKey (stack ++ outer) c cs) :=
  within_ite (within_map (by simp [Opened]) _) (within_error _ _)

theorem closeValue_within (bracket : Bracket) (stack : List Bracket) (c : Char) :
    Within outer (closeValue (bracket :: stack) c) (closeValue (bracket :: stack ++ outer) c) := by
  rw [List.cons_append, bracket.closeValue_cons, bracket.closeValue_cons]
  exact within_ite (within_ok (fun _ => List.cons_ne_nil _ _) 0)
    (within_ite (within_ok (fun h => absurd h not_opened_separator) 0) (within_error _ _))

/-- A step does not look at the brackets around the value. -/
theorem walkStep_within (hunder : Underway stack expected) (hopened : Opened expected → stack ≠ [])
    (c : Char) (cs : List Char) :
    Within outer (walkStep stack expected c cs) (walkStep (stack ++ outer) expected c cs) := by
  cases expected with
  | value => exact openValue_within stack c cs
  | key => exact openKey_within stack c cs
  | firstElement =>
    obtain ⟨bracket, stack, rfl⟩ := List.exists_cons_of_ne_nil (hopened (.inl rfl))
    exact within_ite (within_ok (fun h => absurd h not_opened_separator) 0)
      (openValue_within (bracket :: stack) c cs)
  | firstKey =>
    obtain ⟨bracket, stack, rfl⟩ := List.exists_cons_of_ne_nil (hopened (.inr rfl))
    exact within_ite (within_ok (fun h => absurd h not_opened_separator) 0)
      (openKey_within (bracket :: stack) c cs)
  | colon => exact within_ite (within_ok (by simp [Opened]) 0) (within_error _ _)
  | separator =>
    cases stack with
    | nil => exact absurd ⟨rfl, rfl⟩ hunder
    | cons bracket stack => exact closeValue_within bracket stack c

end Within

/-- The walk over a value does not depend on what is open around it. -/
theorem walk_within {stack : List Bracket} {expected : Expected} {claimed : Nat}
    {cs rest : List Char} (h : walk stack expected claimed cs = .ok rest)
    (hopened : Opened expected → stack ≠ []) (outer : List Bracket) :
    walk (stack ++ outer) expected claimed cs = walk outer .separator 0 rest := by
  induction cs generalizing stack expected claimed with
  | nil =>
    cases claimed with
    | succ claimed => simp [walk] at h
    | zero =>
      rw [walk] at h
      split at h
      · next hend =>
        obtain ⟨hstack, rfl⟩ := hend
        rw [List.isEmpty_iff.1 hstack, List.nil_append, Except.ok.inj h]
      · simp at h
  | cons c cs ih =>
    cases claimed with
    | succ claimed => exact ih h hopened
    | zero =>
      rw [walk] at h
      split at h
      · next hend =>
        obtain ⟨hstack, rfl⟩ := hend
        rw [List.isEmpty_iff.1 hstack, List.nil_append, Except.ok.inj h]
      · next hunder =>
        have hwider : Underway (stack ++ outer) expected := by
          rintro ⟨hstack, rfl⟩
          have hnil := List.append_eq_nil_iff.1 (List.isEmpty_iff.1 hstack)
          exact hunder ⟨List.isEmpty_iff.2 hnil.1, rfl⟩
        split at h
        · next hblank => rw [walk, if_neg hwider, if_pos hblank, ih h hopened]
        · next hblank =>
          split at h
          · simp at h
          · next step hstep =>
            obtain ⟨hwithin, hnext⟩ := walkStep_within hunder hopened c cs step hstep
            rw [walk, if_neg hwider, if_neg hblank, hwithin]
            exact ih h hnext

theorem walk_finished (rest : List Char) : walk [] .separator 0 rest = .ok rest := by
  cases rest <;> rfl

/-- A value is passed over with the blanks before it, whatever it is. -/
theorem IsValue.skipValue {w : List Char} (h : IsValue w) {b rest : List Char} (hb : Blank b)
    (hrest : Delimited rest) : skipValue (b ++ (w ++ rest)) = .ok rest := by
  rw [Json.skipValue, walk_blanks underway_value hb, h.passedAs.2 _ _ hrest, walk_finished]

/-- What was passed over on its own is also passed inside of brackets. -/
theorem walk_of_skipValue {cs rest : List Char} (h : skipValue cs = .ok rest)
    (stack : List Bracket) : walk stack .value 0 cs = walk stack .separator 0 rest :=
  walk_within h (by simp [Opened]) stack

end JsLexer.Json
