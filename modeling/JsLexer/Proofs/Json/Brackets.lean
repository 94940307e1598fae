import JsLexer.Proofs.Json.Value

/-!
Lists and records are read back.

The items between two brackets are laid out one after another. All but the first are set off by a
comma, so a reader that goes on behind an item and one that starts at the bracket differ by that
comma only, and one induction over the items serves for both. An object is followed field by field:
its members fill the draft of a record one after another.
-/

namespace JsLexer.Json

variable {α Draft : Type}

/-! ### Items between brackets -/

/-- What sets an item off: a comma, unless it is the first, and a new line. -/
def lead (first : Bool) (depth : Nat) : List Char :=
  if first then newline depth else ',' :: newline depth

/-- The items that are left, up to the closing bracket. -/
def itemsAhead (first : Bool) (depth : Nat) : List Written → List Char
  | [] => if first then [] else newline depth
  | item :: items => lead first (depth + 1) ++ item (depth + 1) ++ itemsAhead false depth items

theorem itemsAhead_false (depth : Nat) (items : List Written) :
    itemsAhead false depth items =
      items.flatMap (fun item => ',' :: newline (depth + 1) ++ item (depth + 1)) ++
        newline depth := by
  induction items with
  | nil => rfl
  | cons item items ih => simp [itemsAhead, lead, ih]

theorem bracketed_eq (opening closing : Char) (items : List Written) (depth : Nat) :
    bracketed opening closing items depth =
      opening :: (itemsAhead true depth items ++ [closing]) := by
  cases items with
  | nil => rfl
  | cons item items => simp [bracketed, itemsAhead, lead, itemsAhead_false]

/-- A text has more code points than there are items in it. -/
theorem length_lt_itemsAhead (first : Bool) (depth : Nat) (items : List Written)
    (rest : List Char) : items.length < (itemsAhead first depth items ++ rest).length + 1 := by
  induction items generalizing first with
  | nil => exact Nat.succ_pos _
  | cons item items ih =>
    have hlead : 0 < (lead first (depth + 1)).length := by cases first <;> simp [lead, newline]
    have := ih false
    simp only [itemsAhead, List.length_append, List.length_cons] at this ⊢
    omega

theorem behind_itemsAhead (depth : Nat) (items : List Written) (rest : List Char) :
    Behind (itemsAhead false depth items ++ rest) := by
  cases items with
  | nil => exact .inr rfl
  | cons item items => exact .inl rfl

theorem skipBlanks_newline (depth : Nat) (cs : List Char) :
    skipBlanks (newline depth ++ cs) = skipBlanks cs :=
  skipBlanks_append (by simp [newline, isBlank]) cs

/-- Behind the last item there is nothing but blanks before the closing bracket. -/
theorem skipBlanks_itemsAhead_nil (first : Bool) (depth : Nat) {closing : Char}
    (h : isBlank closing = false) (rest : List Char) :
    skipBlanks (itemsAhead first depth [] ++ closing :: rest) = closing :: rest := by
  cases first with
  | true => exact skipBlanks_cons h rest
  | false => exact (skipBlanks_newline depth _).trans (skipBlanks_cons h rest)

theorem skipBlanks_comma (cs : List Char) : skipBlanks (',' :: cs) = ',' :: cs := rfl

/-! ### Lists -/

section Lists

variable {read : List Char → Parsed α}

/-- An element is found at its first code point. -/
theorem nextElement_start {c : Char} (hblank : isBlank c = false) (hclosing : c ≠ ']') (first : Bool)
    (depth : Nat) (cs : List Char) :
    nextElement first (lead first depth ++ c :: cs) = .ok (some (c :: cs)) := by
  cases first with
  | true => simp [nextElement, lead, skipBlanks_newline, skipBlanks_cons hblank]
  | false =>
    simp [nextElement, lead, skipBlanks_comma, skipBlanks_newline, skipBlanks_cons hblank,
      hclosing]

theorem nextElement_item {item : Written} {a : α} (h : ReadsBack read item a) (first : Bool)
    (depth : Nat) (rest : List Char) :
    nextElement first (lead first depth ++ (item depth ++ rest)) =
      .ok (some (item depth ++ rest)) := by
  obtain ⟨c, cs, hitem, hblank, hclosing⟩ := h.starts depth
  rw [hitem]
  exact nextElement_start hblank hclosing first depth (cs ++ rest)

theorem elementsAhead_items {write : α → Written} {as : List α}
    (h : ∀ a ∈ as, ReadsBack read (write a) a) (first : Bool) (depth : Nat) (rest : List Char)
    {limit : Nat} (hlimit : as.length < limit) :
    elementsAhead read limit first (itemsAhead first depth (as.map write) ++ ']' :: rest) =
      .ok (as, rest) := by
  induction as generalizing first limit with
  | nil =>
    have hclosing := skipBlanks_itemsAhead_nil first depth (show isBlank ']' = false from rfl) rest
    cases limit with
    | zero => simp at hlimit
    | succ limit => simp [elementsAhead, nextElement, closeList, hclosing, Except.map]
  | cons a as ih =>
    obtain ⟨ha, has⟩ := List.forall_mem_cons.1 h
    cases limit with
    | zero => simp at hlimit
    | succ limit =>
      have helement := ha.reads (depth + 1) (behind_itemsAhead depth (as.map write) (']' :: rest))
        (ha.skipBlanks_written (depth + 1) _)
      have hothers := ih has false (Nat.lt_of_succ_lt_succ hlimit)
      simp only [List.map_cons, itemsAhead, List.append_assoc]
      rw [elementsAhead, nextElement_item ha]
      simp only [helement, hothers, Except.map]

theorem readsBack_array {write : α → Written} {as : List α}
    (h : ∀ a ∈ as, ReadsBack read (write a) a) :
    ReadsBack (readList read) (array (as.map write)) as where
  starts depth := ⟨'[', _, bracketed_eq '[' ']' _ depth, rfl, by decide⟩
  reads depth cs rest _ hcs := by
    simp only [array, bracketed_eq, List.cons_append, List.append_assoc, List.nil_append] at hcs
    have hlimit := length_lt_itemsAhead true depth (as.map write) (']' :: rest)
    rw [List.length_map] at hlimit
    rw [readList, hcs]
    exact elementsAhead_items h true depth rest hlimit

end Lists

/-! ### Records -/

/-- Members that bring the draft of a record from one state to another, each by a field that was
not set. -/
inductive Fills (r : Record Draft α) : Draft → List (String × Written) → Draft → Prop
  | done (draft : Draft) : Fills r draft [] draft
  | field {draft next last : Draft} {key : String} {field : Field Draft} {value : Written}
      {members : List (String × Written)} :
      r.fields.find? (·.key == key) = some field → field.isSet draft = false →
      ReadsBack (field.read draft) value next → Fills r next members last →
      Fills r draft ((key, value) :: members) last

namespace Record

variable {r : Record Draft α}

theorem nextKey_member (first : Bool) (depth : Nat) (key : String) (rest : List Char) :
    nextKey first (lead first depth ++ (string key ++ rest)) = .ok (some key, rest) := by
  rw [string_append]
  have hquote := skipBlanks_cons (c := '"') rfl (key.toList.flatMap escape ++ '"' :: rest)
  cases first with
  | true =>
    simp [nextKey, nextKey.keyAhead, lead, skipBlanks_newline, hquote, stringAhead_string,
      Except.map]
  | false =>
    simp [nextKey, nextKey.keyAhead, lead, skipBlanks_comma, skipBlanks_newline, hquote,
      stringAhead_string, Except.map]

theorem readMember_field {draft next : Draft} {key : String} {field : Field Draft}
    {value : Written} (hfield : r.fields.find? (·.key == key) = some field)
    (hset : field.isSet draft = false) (hvalue : ReadsBack (field.read draft) value next)
    (depth : Nat) {rest : List Char} (hrest : Behind rest) :
    r.readMember key draft ([':', ' '] ++ (value depth ++ rest)) = .ok (next, rest) := by
  have hcolon : passColon ([':', ' '] ++ (value depth ++ rest)) =
      .ok (' ' :: (value depth ++ rest)) := rfl
  have hread : field.read draft (' ' :: (value depth ++ rest)) = .ok (next, rest) :=
    hvalue.reads depth hrest (hvalue.skipBlanks_written depth rest)
  rw [readMember, hfield, hcolon]
  simpa [hset, Except.bind] using hread

theorem fromObject_members {draft last : Draft} {members : List (String × Written)}
    (h : Fills r draft members last) (first : Bool) (depth : Nat) (rest : List Char) {limit : Nat}
    (hlimit : members.length < limit) :
    r.fromObject limit first draft (itemsAhead first depth
      (members.map fun (key, value) => member key value) ++ '\x7d' :: rest) = .ok (last, rest) := by
  induction h generalizing first limit with
  | done draft =>
    have hclosing := skipBlanks_itemsAhead_nil first depth (show isBlank '\x7d' = false from rfl)
      rest
    cases limit with
    | zero => simp at hlimit
    | succ limit => simp [fromObject, nextKey, hclosing]
  | @field draft next last key field value members hfield hset hvalue _ ih =>
    cases limit with
    | zero => simp at hlimit
    | succ limit =>
      have hbehind := behind_itemsAhead depth (members.map fun (key, value) => member key value)
        ('\x7d' :: rest)
      have hread := readMember_field hfield hset hvalue (depth + 1) hbehind
      have hothers := ih false (Nat.lt_of_succ_lt_succ hlimit)
      simp only [List.map_cons, itemsAhead, member, List.append_assoc]
      rw [fromObject, nextKey_member]
      simp only [hread, hothers]

end Record

theorem Fills.readsBack {r : Record Draft α} {members : List (String × Written)} {last : Draft}
    {a : α} (h : Fills r r.blank members last) (hfinish : r.finish last = .ok a) :
    ReadsBack r.read (object members) a where
  starts depth := ⟨'\x7b', _, bracketed_eq '\x7b' '\x7d' _ depth, rfl, by decide⟩
  reads depth cs rest _ hcs := by
    simp only [object, bracketed_eq, List.cons_append, List.append_assoc, List.nil_append] at hcs
    have hlimit := length_lt_itemsAhead true depth
      (members.map fun (key, value) => member key value) ('\x7d' :: rest)
    rw [List.length_map] at hlimit
    simp only [Record.read, hcs, Record.fromObject_members h true depth rest hlimit, hfinish,
      Except.map]

end JsLexer.Json
