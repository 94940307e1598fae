import JsLexer.Proofs.Json.InStep
import JsLexer.Proofs.Json.Items
import Mathlib.Data.List.Nodup

/-!
Objects that are no records.

Readers keep in step with the grammar, so whatever an object says, its members are found one by one,
up to the first one that is refused. A field is set by its own member and by no other, and it is set
once at most; in the end all fields have to be set. So an object that is read has the key of each
field exactly once, and each of its fields has a value that is read.
-/

namespace JsLexer.Json

variable {α Draft : Type}

/-- A value that a reader does not take, whatever stands around it. -/
def Refuses (read : List Char → Parsed α) (v : List Char) : Prop :=
  ∀ cs rest, Delimited rest → skipBlanks cs = v ++ rest → ∃ e, read cs = .error e

section Readers

variable {read : List Char → Parsed α} {v b rest rest' : List Char} {a : α}

/-- What is behind a value that was read is what is behind the value. -/
theorem InStep.rest_eq (h : InStep read) (hv : IsValue v) (hb : Blank b) (hrest : Delimited rest)
    (hread : read (b ++ (v ++ rest)) = .ok (a, rest')) : rest' = rest := by
  have hskip := h _ a rest' hread
  rw [hv.skipValue hb hrest] at hskip
  exact (Except.ok.inj hskip).symm

theorem not_refuses (hv : IsValue v) (hb : Blank b) (hrest : Delimited rest)
    (hread : read (b ++ (v ++ rest)) = .ok (a, rest')) : ¬ Refuses read v := by
  intro hrefuses
  obtain ⟨e, he⟩ := hrefuses _ rest hrest (hb.skipBlanks_starts hv.passedAs.1 rest)
  rw [hread] at he
  cases he

end Readers

namespace Record

/-- A record whose fields keep in step and set themselves, and no other field. -/
structure Lawful (r : Record Draft α) : Prop where
  nodup : (r.fields.map (·.key)).Nodup
  inStep : ∀ f ∈ r.fields, ∀ draft, InStep (f.read draft)
  blank : ∀ f ∈ r.fields, f.isSet r.blank = false
  sets : ∀ f ∈ r.fields, ∀ {draft cs next rest}, f.read draft cs = .ok (next, rest) →
    ∀ g ∈ r.fields, g.isSet next = (g.isSet draft || g.key == f.key)

variable {r : Record Draft α} {w rest rest' : List Char} {draft next last : Draft}

/-! ### Objects -/

/-- How often a field was set by members: the field is set if its key was among them. -/
def Counts (r : Record Draft α) (draft last : Draft) (keys : List String) : Prop :=
  ∀ f ∈ r.fields, (f.isSet last).toNat = (f.isSet draft).toNat + keys.count f.key

theorem Counts.cons {key : String} {keys : List String} (h : r.Counts draft next [key])
    (hothers : r.Counts next last keys) : r.Counts draft last (key :: keys) := by
  intro f hf
  have hone := h f hf
  have hmore := hothers f hf
  rw [← List.singleton_append, List.count_append]
  omega

/-- Whether the value of a member is read, if it is a field. -/
def Takes (r : Record Draft α) (m : KeyedMember) : Prop :=
  ∀ f ∈ r.fields, f.key = m.key → ∃ draft, ¬ Refuses (f.read draft) m.value

theorem readMember_counts (hr : r.Lawful) {m : KeyedMember} (hvalue : IsValue m.value)
    (hrest : Delimited rest)
    (h : r.readMember m.key draft (m.before ++ ':' :: (m.after ++ (m.value ++ rest))) =
      .ok (next, rest')) :
    rest' = rest ∧ r.Counts draft next [m.key] ∧ r.Takes m := by
  obtain ⟨value, hcolon, hvalue'⟩ := readMember_sound h
  rw [m.blank_before.skipBlanks_cons rfl] at hcolon
  obtain rfl := (List.cons.inj hcolon).2
  rcases hvalue' with ⟨f, hfind, hset, hread⟩ | ⟨hnone, rfl, hskip⟩
  · have hf := List.mem_of_find?_eq_some hfind
    have hkey : f.key = m.key := by simpa using List.find?_some hfind
    -- keys are different, so the field of the key is this one
    have hsame : ∀ g ∈ r.fields, g.key = m.key → g = f := fun g hg hgkey =>
      List.inj_on_of_nodup_map hr.nodup hg hf (hgkey.trans hkey.symm)
    refine ⟨(hr.inStep f hf draft).rest_eq hvalue m.blank_after hrest hread, ?_, ?_⟩
    · intro g hg
      rw [hr.sets f hf hread g hg, List.count_singleton, hkey]
      by_cases hgkey : g.key = m.key
      · obtain rfl := hsame g hg hgkey
        simp [hset, hgkey]
      · have hne : (g.key == m.key) = false := by simpa using hgkey
        simp [hne, Ne.symm hgkey]
    · intro g hg hgkey
      obtain rfl := hsame g hg hgkey
      exact ⟨draft, not_refuses hvalue m.blank_after hrest hread⟩
  · have hunknown : ∀ g ∈ r.fields, g.key ≠ m.key := fun g hg => by
      simpa using List.find?_eq_none.1 hnone g hg
    refine ⟨?_, ?_, fun g hg hgkey => absurd hgkey (hunknown g hg)⟩
    · rw [hvalue.skipValue m.blank_after hrest] at hskip
      exact (Except.ok.inj hskip).symm
    · intro g hg
      rw [List.count_singleton]
      simp [Ne.symm (hunknown g hg)]

theorem fromObject_counts (hr : r.Lawful) {members : List KeyedMember}
    (hw : Separated (members.map (·.text)) w) (hvalues : ∀ m ∈ members, IsValue m.value)
    {first : Bool} {cs : List Char}
    (hcs : nextKey first cs = nextKey true (w ++ '\x7d' :: rest)) {limit : Nat}
    (h : r.fromObject limit first draft cs = .ok (last, rest')) :
    r.Counts draft last (keys members) ∧ ∀ m ∈ members, r.Takes m := by
  generalize hitems : members.map (·.text) = items at hw
  induction hw generalizing members draft first cs limit with
  | @one b v b' hb hb' =>
    obtain ⟨m, others, rfl, rfl, hothers⟩ := List.map_eq_cons_iff.1 hitems
    obtain rfl := List.map_eq_nil_iff.1 hothers
    have hrest := (delimited_cons (c := '\x7d') (by simp) rest).of_blank hb'
    rw [List.append_assoc, List.append_assoc, nextKey_first hb] at hcs
    cases limit with
    | zero => simp [fromObject] at h
    | succ limit =>
      rw [fromObject, hcs] at h
      dsimp only at h
      split at h
      · simp at h
      · next next behind hmember =>
        obtain ⟨rfl, hcounts, htakes⟩ :=
          readMember_counts hr (hvalues m List.mem_cons_self) hrest hmember
        cases limit with
        | zero => simp [fromObject] at h
        | succ limit =>
          rw [fromObject, nextKey_close false hb'] at h
          cases h
          exact ⟨hcounts, by simpa using htakes⟩
  | @cons b v b' w vs hb hb' hw ih =>
    obtain ⟨m, others, rfl, rfl, rfl⟩ := List.map_eq_cons_iff.1 hitems
    obtain ⟨hm, hvalues⟩ := List.forall_mem_cons.1 hvalues
    have hrest := (delimited_cons (c := ',') (by simp) (w ++ '\x7d' :: rest)).of_blank hb'
    rw [List.append_assoc, List.append_assoc, List.append_assoc, List.cons_append,
      nextKey_first hb] at hcs
    cases limit with
    | zero => simp [fromObject] at h
    | succ limit =>
      rw [fromObject, hcs] at h
      dsimp only at h
      split at h
      · simp at h
      · next next behind hmember =>
        obtain ⟨rfl, hcounts, htakes⟩ := readMember_counts hr hm hrest hmember
        obtain ⟨hothers, htakes'⟩ := ih hvalues (nextKey_separated hw hb' _) h rfl
        exact ⟨hcounts.cons hothers, List.forall_mem_cons.2 ⟨htakes, htakes'⟩⟩

/-- What is finished has all its fields. -/
theorem finish_sound {a : α} (h : r.finish draft = .ok a) : ∀ f ∈ r.fields, f.isSet draft = true := by
  intro f hf
  rw [finish] at h
  split at h
  · simp at h
  · next hnone => simpa using List.find?_eq_none.1 hnone f hf

/-- An object that is read has the key of each field once, and the values of its fields are
read. -/
theorem read_object (hr : r.Lawful) {members : List KeyedMember} (hw : KeyedObjectOf members w)
    (hvalues : ∀ m ∈ members, IsValue m.value) {cs : List Char} (hcs : skipBlanks cs = w ++ rest)
    {a : α} (h : r.read cs = .ok (a, rest')) :
    (∀ f ∈ r.fields, (keys members).count f.key = 1) ∧ ∀ m ∈ members, r.Takes m := by
  obtain ⟨inner, rfl, hinner⟩ := hw
  rw [List.map_map] at hinner
  obtain ⟨draft, hfinish, ⟨items, hitems, hread⟩ | ⟨items, hitems, hread⟩⟩ := read_sound h
  · rw [hitems] at hcs
    simp at hcs
  · have hset := finish_sound hfinish
    rw [hitems, List.cons_append, List.append_assoc, List.singleton_append] at hcs
    obtain rfl := (List.cons.inj hcs).2
    rcases hinner with ⟨hnone, hinner⟩ | hinner
    · obtain rfl := List.map_eq_nil_iff.1 hnone
      rw [fromObject, nextKey_close true hinner] at hread
      cases hread
      refine ⟨fun f hf => ?_, by simp⟩
      have hblank := hr.blank f hf
      rw [hset f hf] at hblank
      cases hblank
    · obtain ⟨hcounts, htakes⟩ := fromObject_counts hr hinner hvalues rfl hread
      refine ⟨fun f hf => ?_, htakes⟩
      have hcount := hcounts f hf
      rw [hset f hf, hr.blank f hf] at hcount
      simpa using hcount.symm

/-! ### Lists -/

/-- A list that is closed has no element ahead. -/
theorem nextElement_of_closeList {cs : List Char} (h : closeList cs = .ok rest) (first : Bool) :
    nextElement first cs = .ok none := by
  rw [nextElement, closeList_sound h]
  rfl

/-- An element that is ahead is read by some field. -/
theorem fromList_element {first : Bool} {todo : List (Field Draft)} {cs element : List Char}
    (hcs : nextElement first cs = .ok (some element))
    (h : r.fromList first todo draft cs = .ok (last, rest)) :
    ∃ f others next behind, todo = f :: others ∧ f.read draft element = .ok (next, behind) ∧
      r.fromList false others next behind = .ok (last, rest) := by
  cases todo with
  | nil =>
    rw [fromList] at h
    obtain ⟨behind, hclose, -⟩ := Except.map_eq_ok h
    rw [nextElement_of_closeList hclose first] at hcs
    cases hcs
  | cons f others =>
    rw [fromList, hcs] at h
    dsimp only at h
    split at h
    · simp at h
    · next next behind hread => exact ⟨f, others, next, behind, rfl, hread, h⟩

theorem fromList_takes (hr : r.Lawful) {values : List (List Char)} (hw : Separated values w)
    (hvalues : ∀ v ∈ values, IsValue v) {todo : List (Field Draft)}
    (htodo : ∀ f ∈ todo, f ∈ r.fields) {first : Bool} {cs : List Char}
    (hcs : nextElement first cs = nextElement true (w ++ ']' :: rest))
    (h : r.fromList first todo draft cs = .ok (last, rest')) :
    ∀ v ∈ values, ∃ f ∈ r.fields, ∃ draft, ¬ Refuses (f.read draft) v := by
  induction hw generalizing todo first cs draft with
  | @one b v b' hb hb' =>
    have hv := hvalues v List.mem_cons_self
    have hrest := (delimited_cons (c := ']') (by simp) rest).of_blank hb'
    rw [List.append_assoc, List.append_assoc, nextElement_first hb hv.passedAs.1] at hcs
    obtain ⟨f, others, next, behind, rfl, hread, -⟩ := fromList_element hcs h
    intro u hu
    obtain rfl := List.mem_singleton.1 hu
    exact ⟨f, htodo f List.mem_cons_self, draft, not_refuses hv blank_nil hrest hread⟩
  | @cons b v b' w vs hb hb' hw ih =>
    obtain ⟨hv, hvs⟩ := List.forall_mem_cons.1 hvalues
    have hrest := (delimited_cons (c := ',') (by simp) (w ++ ']' :: rest)).of_blank hb'
    rw [List.append_assoc, List.append_assoc, List.append_assoc, List.cons_append,
      nextElement_first hb hv.passedAs.1] at hcs
    obtain ⟨f, others, next, behind, rfl, hread, hothers⟩ := fromList_element hcs h
    obtain ⟨hf, hmore⟩ := List.forall_mem_cons.1 htodo
    obtain rfl := (hr.inStep f hf draft).rest_eq hv blank_nil hrest hread
    have hnext := nextElement_separated hw (fun u hu => (hvs u hu).passedAs.1) hb' (']' :: rest)
    exact List.forall_mem_cons.2
      ⟨⟨f, hf, draft, not_refuses hv blank_nil hrest hread⟩, ih hvs hmore hnext hothers⟩

/-- Every element of a list that is read is read by some field. -/
theorem read_list (hr : r.Lawful) {values : List (List Char)} (hw : ArrayOf values w)
    (hvalues : ∀ v ∈ values, IsValue v) {cs : List Char} (hcs : skipBlanks cs = w ++ rest)
    {a : α} (h : r.read cs = .ok (a, rest')) :
    ∀ v ∈ values, ∃ f ∈ r.fields, ∃ draft, ¬ Refuses (f.read draft) v := by
  obtain ⟨inner, rfl, hinner⟩ := hw
  obtain ⟨draft, -, ⟨items, hitems, hread⟩ | ⟨items, hitems, hread⟩⟩ := read_sound h
  · rw [hitems, List.cons_append, List.append_assoc, List.singleton_append] at hcs
    obtain rfl := (List.cons.inj hcs).2
    rcases hinner with ⟨rfl, -⟩ | hinner
    · simp
    · exact fromList_takes hr hinner hvalues (fun _ hf => hf) rfl hread
  · rw [hitems] at hcs
    simp at hcs

/-! ### Refusals -/

/-- An object in which the key of a field is missing or repeated is refused. -/
theorem refuses_miscounted (hr : r.Lawful) (hw : Miscounted (r.fields.map (·.key)) w) :
    Refuses r.read w := by
  obtain ⟨members, hw, hvalues, key, hkey, hcount⟩ := hw
  obtain ⟨f, hf, rfl⟩ := List.mem_map.1 hkey
  intro cs rest _ hcs
  cases h : r.read cs with
  | error e => exact ⟨e, rfl⟩
  | ok x => exact absurd ((read_object hr hw hvalues hcs h).1 f hf) hcount

/-- An object is refused if the field of a member refuses its value. -/
theorem refuses_of_member (hr : r.Lawful) {members : List KeyedMember}
    (hw : KeyedObjectOf members w) (hvalues : ∀ m ∈ members, IsValue m.value) {m : KeyedMember}
    (hm : m ∈ members) {f : Field Draft} (hf : f ∈ r.fields) (hkey : f.key = m.key)
    (hrefuses : ∀ draft, Refuses (f.read draft) m.value) : Refuses r.read w := by
  intro cs rest _ hcs
  cases h : r.read cs with
  | error e => exact ⟨e, rfl⟩
  | ok x =>
    obtain ⟨draft, hdraft⟩ := (read_object hr hw hvalues hcs h).2 m hm f hf hkey
    exact absurd (hrefuses draft) hdraft

/-- A list is refused if all fields refuse one of its elements. -/
theorem refuses_of_element (hr : r.Lawful) {values : List (List Char)} (hw : ArrayOf values w)
    (hvalues : ∀ v ∈ values, IsValue v) {v : List Char} (hv : v ∈ values)
    (hrefuses : ∀ f ∈ r.fields, ∀ draft, Refuses (f.read draft) v) : Refuses r.read w := by
  intro cs rest _ hcs
  cases h : r.read cs with
  | error e => exact ⟨e, rfl⟩
  | ok x =>
    obtain ⟨f, hf, draft, hdraft⟩ := read_list hr hw hvalues hcs h v hv
    exact absurd (hrefuses f hf draft) hdraft

end Record

theorem Refuses.map {β : Type} {read : List Char → Parsed α} {v : List Char} (h : Refuses read v)
    (f : α → β) : Refuses (fun cs => (read cs).map fun (a, rest) => (f a, rest)) v := by
  intro cs rest hrest hcs
  obtain ⟨e, he⟩ := h cs rest hrest hcs
  exact ⟨e, by simp [he, Except.map]⟩

/-- A reader of strings refuses an object. -/
theorem refuses_readString (wanted : String) {members : List KeyedMember} {w : List Char}
    (hw : KeyedObjectOf members w) : Refuses (readString wanted) w := by
  obtain ⟨inner, rfl, -⟩ := hw
  intro cs rest _ hcs
  exact ⟨_, by rw [readString, hcs]; rfl⟩

theorem Refuses.decode {read : List Char → Parsed α} {spelling : Spelling} {s : String}
    (h : ∀ w, spelling w → IsValue w ∧ Refuses read w) (hs : WholeText spelling s) :
    ∃ e, Json.decode read s = .error e := by
  obtain ⟨b, w, b', hb, hb', hw, hs⟩ := hs
  obtain ⟨hvalue, hrefuses⟩ := h w hw
  obtain ⟨e, he⟩ := hrefuses s.toList b' hb'.delimited
    (by rw [hs, hb.skipBlanks_starts hvalue.passedAs.1])
  exact ⟨e, by rw [Json.decode, he]⟩

end JsLexer.Json
