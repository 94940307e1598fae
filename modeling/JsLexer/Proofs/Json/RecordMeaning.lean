import JsLexer.Proofs.Json.Items

/-!
Records are understood.

While a record is read it goes through drafts, and which one it is in depends on nothing but the keys
that were read: not on their order, and not on members that are no fields. So the members of an object
can be followed one by one, in whatever order they come, and a list of values is the case in which
the keys come in their own order.
-/

namespace JsLexer.Json

variable {α Draft : Type}

/-- Fields with the spellings of their values, the drafts that a record is in when some keys were
read, and the record that it is when all of them were. -/
structure Fill (r : Record Draft α) (fields : List (Field Draft × Spelling))
    (draft : List String → Draft) (a : α) : Prop where
  listed : r.fields = fields.map Prod.fst
  blank : r.blank = draft []
  unknown : ∀ {read key}, (∀ x ∈ fields, x.1.key ≠ key) → draft (read ++ [key]) = draft read
  isSet : ∀ x ∈ fields, ∀ {read}, x.1.key ∉ read → x.1.isSet (draft read) = false
  reads : ∀ x ∈ fields, ∀ read, Means x.2 (x.1.read (draft read)) (draft (read ++ [x.1.key]))
  finish : ∀ {read}, (∀ x ∈ fields, x.1.key ∈ read) → r.finish (draft read) = .ok a

/-- The keys of fields with the spellings of their values. -/
def spellings (fields : List (Field Draft × Spelling)) : List (String × Spelling) :=
  fields.map fun x => (x.1.key, x.2)

namespace Fill

variable {r : Record Draft α} {fields : List (Field Draft × Spelling)}
  {draft : List String → Draft} {a : α} {w rest : List Char}

/-! ### From a list -/

/-- A value that is ahead is read into the draft. -/
theorem read_value (h : Fill r fields draft a) {x : Field Draft × Spelling} (hx : x ∈ fields)
    {v : List Char} (hv : x.2 v) (read : List String) {b : List Char} (hb : Blank b)
    (hrest : Delimited rest) :
    x.1.read (draft read) (b ++ (v ++ rest)) = .ok (draft (read ++ [x.1.key]), rest) := by
  obtain ⟨hvalue, hread⟩ := h.reads x hx read v hv
  exact hread _ rest hrest (hb.skipBlanks_starts hvalue.passedAs.1 rest)

theorem isValue (h : Fill r fields draft a) {x : Field Draft × Spelling} (hx : x ∈ fields)
    {v : List Char} (hv : x.2 v) : IsValue v :=
  (h.reads x hx [] v hv).1

theorem isValue_all (h : Fill r fields draft a) {todo : List (Field Draft × Spelling)}
    (htodo : ∀ x ∈ todo, x ∈ fields) {values : List (List Char)}
    (hvalues : List.Forall₂ (fun x v => x.2 v) todo values) : ∀ v ∈ values, IsValue v := by
  induction hvalues with
  | nil => simp
  | cons hv _ ih =>
    obtain ⟨hx, htodo⟩ := List.forall_mem_cons.1 htodo
    exact List.forall_mem_cons.2 ⟨h.isValue hx hv, ih htodo⟩

theorem fromList_separated (h : Fill r fields draft a) {values : List (List Char)}
    (hw : Separated values w) {todo : List (Field Draft × Spelling)} (htodo : ∀ x ∈ todo, x ∈ fields)
    (hvalues : List.Forall₂ (fun x v => x.2 v) todo values) {first : Bool} {cs : List Char}
    (hcs : nextElement first cs = nextElement true (w ++ ']' :: rest)) (read : List String) :
    r.fromList first (todo.map Prod.fst) (draft read) cs =
      .ok (draft (read ++ todo.map (·.1.key)), rest) := by
  induction hw generalizing todo first cs read with
  | @one b v b' hb hb' =>
    cases hvalues with
    | @cons x _ todo _ hv hvalues =>
      cases hvalues
      have hx := htodo x List.mem_cons_self
      have hrest := (delimited_cons (c := ']') (by simp) rest).of_blank hb'
      have hread := h.read_value hx hv read blank_nil hrest
      rw [List.append_assoc, List.append_assoc, nextElement_first hb (h.isValue hx hv).passedAs.1] at hcs
      rw [List.nil_append] at hread
      rw [List.map_cons, Record.fromList, hcs]
      simp only [hread, Record.fromList, List.map_nil, closeList_blank hb', Except.map]
      rfl
  | @cons b v b' w vs hb hb' hw ih =>
    cases hvalues with
    | @cons x _ todo _ hv hvalues =>
      obtain ⟨hx, htodo⟩ := List.forall_mem_cons.1 htodo
      have hrest := (delimited_cons (c := ',') (by simp) (w ++ ']' :: rest)).of_blank hb'
      have hread := h.read_value hx hv read blank_nil hrest
      have hstarts : ∀ u ∈ vs, Starts u := fun u hu =>
        (h.isValue_all htodo hvalues u hu).passedAs.1
      have hothers := ih htodo hvalues (nextElement_separated hw hstarts hb' _)
        (read ++ [x.1.key])
      rw [List.append_assoc, List.append_assoc, List.append_assoc, List.cons_append,
        nextElement_first hb (h.isValue hx hv).passedAs.1] at hcs
      rw [List.nil_append] at hread
      rw [List.map_cons, Record.fromList, hcs]
      simp only [hread, hothers]
      simp

theorem fromList_array (h : Fill r fields draft a) {values : List (List Char)}
    (hw : ArrayOf values w) (hvalues : List.Forall₂ (fun x v => x.2 v) fields values)
    (rest : List Char) :
    ∃ inner, w ++ rest = '[' :: inner ∧
      r.fromList true r.fields r.blank inner = .ok (draft (fields.map (·.1.key)), rest) := by
  obtain ⟨inner, rfl, hinner⟩ := hw
  refine ⟨inner ++ ']' :: rest, by simp, ?_⟩
  rw [h.listed, h.blank]
  rcases hinner with ⟨rfl, hinner⟩ | hinner
  · cases hvalues
    simp [Record.fromList, closeList_blank hinner, Except.map]
  · exact h.fromList_separated hinner (fun _ hx => hx) hvalues rfl []

/-! ### From an object -/

/-- What a member says: a field has one of its spellings, and no other member matters. -/
def Suits (fields : List (Field Draft × Spelling)) (m : KeyedMember) : Prop :=
  (∀ x ∈ fields, m.key = x.1.key → x.2 m.value) ∧
    ((∀ x ∈ fields, x.1.key ≠ m.key) → IsValue m.value)

theorem readMember_keyed (h : Fill r fields draft a) {m : KeyedMember} (hm : Suits fields m)
    {read : List String} (hnew : ∀ x ∈ fields, x.1.key = m.key → m.key ∉ read)
    (hrest : Delimited rest) :
    r.readMember m.key (draft read) (m.before ++ ':' :: (m.after ++ (m.value ++ rest))) =
      .ok (draft (read ++ [m.key]), rest) := by
  rw [Record.readMember, Record.passColon_blank m.blank_before]
  cases hfind : r.fields.find? (·.key == m.key) with
  | some f =>
    have hkey : f.key = m.key := by simpa using List.find?_some hfind
    have hmem := List.mem_of_find?_eq_some hfind
    rw [h.listed] at hmem
    obtain ⟨x, hx, rfl⟩ := List.mem_map.1 hmem
    have hset : x.1.isSet (draft read) = false := h.isSet x hx (hkey ▸ hnew x hx hkey)
    have hread := h.read_value hx (hm.1 x hx hkey.symm) read m.blank_after hrest
    simp only [hset, Bool.false_eq_true, if_false, Except.bind, hread, hkey]
  | none =>
    have hunknown : ∀ x ∈ fields, x.1.key ≠ m.key := by
      intro x hx
      have hmem : x.1 ∈ r.fields := h.listed ▸ List.mem_map_of_mem hx
      simpa using List.find?_eq_none.1 hfind x.1 hmem
    have hskip := (hm.2 hunknown).skipValue m.blank_after hrest
    simp [Except.bind, hskip, Except.map, h.unknown hunknown]

theorem notMem_of_count {read later : List String} {key : String}
    (h : (read ++ key :: later).count key = 1) : key ∉ read := by
  rw [List.count_append, List.count_cons_self] at h
  exact List.count_eq_zero.1 (by omega)

theorem fromObject_separated (h : Fill r fields draft a) {members : List KeyedMember}
    (hw : Separated (members.map (·.text)) w) (hmembers : ∀ m ∈ members, Suits fields m)
    {read : List String} (honce : ∀ x ∈ fields, (read ++ keys members).count x.1.key = 1)
    {first : Bool} {cs : List Char}
    (hcs : Record.nextKey first cs = Record.nextKey true (w ++ '\x7d' :: rest)) {limit : Nat}
    (hlimit : members.length < limit) :
    r.fromObject limit first (draft read) cs = .ok (draft (read ++ keys members), rest) := by
  generalize hitems : members.map (·.text) = items at hw
  induction hw generalizing members read first cs limit with
  | @one b v b' hb hb' =>
    obtain ⟨m, others, rfl, rfl, hothers⟩ := List.map_eq_cons_iff.1 hitems
    obtain rfl := List.map_eq_nil_iff.1 hothers
    match limit, hlimit with
    | limit + 2, _ =>
      have hnew : ∀ x ∈ fields, x.1.key = m.key → m.key ∉ read := fun x hx hkey =>
        notMem_of_count (hkey ▸ honce x hx)
      have hrest := (delimited_cons (c := '\x7d') (by simp) rest).of_blank hb'
      have hread := h.readMember_keyed (hmembers m List.mem_cons_self) hnew hrest
      rw [List.append_assoc, List.append_assoc, Record.nextKey_first hb] at hcs
      rw [Record.fromObject, hcs]
      simp only [hread, Record.fromObject, Record.nextKey_close false hb']
      rfl
  | @cons b v b' w vs hb hb' hw ih =>
    obtain ⟨m, others, rfl, rfl, rfl⟩ := List.map_eq_cons_iff.1 hitems
    obtain ⟨hm, hmembers⟩ := List.forall_mem_cons.1 hmembers
    match limit, hlimit with
    | limit + 1, hlimit =>
      have hnew : ∀ x ∈ fields, x.1.key = m.key → m.key ∉ read := fun x hx hkey =>
        notMem_of_count (hkey ▸ honce x hx)
      have hrest := (delimited_cons (c := ',') (by simp) (w ++ '\x7d' :: rest)).of_blank hb'
      have hread := h.readMember_keyed hm hnew hrest
      have honce' : ∀ x ∈ fields, (read ++ [m.key] ++ keys others).count x.1.key = 1 := by
        simpa [keys] using honce
      have hothers := ih hmembers honce' (Record.nextKey_separated hw hb' _)
        (Nat.lt_of_succ_lt_succ hlimit) rfl
      rw [List.append_assoc, List.append_assoc, List.append_assoc, List.cons_append,
        Record.nextKey_first hb] at hcs
      rw [Record.fromObject, hcs]
      simp only [hread, hothers]
      simp [keys]

/-- A text between brackets has room for its items. -/
theorem Separated.length_le {items : List (List Char)} (h : Separated items w) :
    items.length ≤ w.length + 1 := by
  induction h with
  | one => simp
  | cons _ _ _ ih =>
    simp only [List.length_cons, List.length_append]
    omega

theorem fromObject_keyed (h : Fill r fields draft a) {members : List KeyedMember}
    (hw : KeyedObjectOf members w) (hmembers : ∀ m ∈ members, Suits fields m)
    (honce : ∀ x ∈ fields, (keys members).count x.1.key = 1) (rest : List Char) :
    ∃ inner, w ++ rest = '\x7b' :: inner ∧
      r.fromObject (inner.length + 1) true r.blank inner = .ok (draft (keys members), rest) := by
  obtain ⟨inner, rfl, hinner⟩ := hw
  refine ⟨inner ++ '\x7d' :: rest, by simp, ?_⟩
  rw [h.blank]
  rw [List.map_map] at hinner
  rcases hinner with ⟨hnone, hinner⟩ | hinner
  · obtain rfl := List.map_eq_nil_iff.1 hnone
    simp [Record.fromObject, Record.nextKey_close true hinner, keys]
  · have hlength := Separated.length_le hinner
    have honce' : ∀ x ∈ fields, ([] ++ keys members).count x.1.key = 1 := honce
    refine h.fromObject_separated hinner hmembers honce' rfl ?_
    simp only [List.length_map, List.length_append, List.length_cons] at hlength ⊢
    omega

end Fill

/-- A record is read from every spelling of it. -/
theorem Fill.means {r : Record Draft α} {fields : List (Field Draft × Spelling)}
    {draft : List String → Draft} {a : α} (h : Fill r fields draft a) :
    Means (RecordOf (spellings fields)) r.read a := by
  intro w hw
  rcases hw with ⟨values, hvalues, hw⟩ | ⟨members, hw, hfields, hothers⟩
  · have hvalues' : List.Forall₂ (fun x v => x.2 v) fields values := by
      simpa [spellings, List.forall₂_map_left_iff] using hvalues
    refine ⟨.array hw (h.isValue_all (fun _ hx => hx) hvalues'), fun cs rest _ hcs => ?_⟩
    obtain ⟨inner, hinner, hread⟩ := h.fromList_array hw hvalues' rest
    have hfinish : r.finish (draft (fields.map (·.1.key))) = .ok a :=
      h.finish fun x hx => List.mem_map_of_mem hx
    rw [Record.read, hcs, hinner]
    simp only [hread, hfinish, Except.map]
  · have hkeys : ∀ x ∈ fields, (x.1.key, x.2) ∈ spellings fields := fun x hx =>
      List.mem_map_of_mem hx
    have honce : ∀ x ∈ fields, (keys members).count x.1.key = 1 := fun x hx =>
      (hfields _ (hkeys x hx)).1
    have hsuits : ∀ m ∈ members, Suits fields m := by
      intro m hm
      refine ⟨fun x hx => (hfields _ (hkeys x hx)).2 m hm, fun hunknown => hothers m hm ?_⟩
      simpa [spellings] using fun f s hx => hunknown (f, s) hx
    have hvalues : ∀ m ∈ members, IsValue m.value := by
      intro m hm
      by_cases hknown : ∃ x ∈ fields, x.1.key = m.key
      · obtain ⟨x, hx, hkey⟩ := hknown
        exact h.isValue hx ((hsuits m hm).1 x hx hkey.symm)
      · exact (hsuits m hm).2 fun x hx hkey => hknown ⟨x, hx, hkey⟩
    refine ⟨hw.isValue hvalues, fun cs rest _ hcs => ?_⟩
    obtain ⟨inner, hinner, hread⟩ := h.fromObject_keyed hw hsuits honce rest
    have hfinish : r.finish (draft (keys members)) = .ok a := h.finish fun x hx =>
      List.count_pos_iff.1 (by rw [honce x hx]; exact Nat.one_pos)
    rw [Record.read, hcs, hinner]
    simp only [hread, hfinish, Except.map]

/-- A text that is a spelling, with blanks around it, is decoded. -/
theorem Means.decode {read : List Char → Parsed α} {spelling : Spelling} {a : α}
    (h : Means spelling read a) {s : String} (hs : WholeText spelling s) :
    Json.decode read s = .ok a := by
  obtain ⟨b, w, b', hb, hb', hw, hs⟩ := hs
  obtain ⟨hvalue, hread⟩ := h w hw
  have hread' : read s.toList = .ok (a, b') := hread s.toList b' hb'.delimited
    (by rw [hs, hb.skipBlanks_starts hvalue.passedAs.1])
  have hend : skipBlanks b' = [] := by simpa [skipBlanks] using skipBlanks_append hb'.isBlank []
  simp [Json.decode, hread', hend]

end JsLexer.Json
