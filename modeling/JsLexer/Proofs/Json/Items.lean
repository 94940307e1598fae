import JsLexer.Proofs.Json.Meaning
import JsLexer.Proofs.Json.Skipping

/-!
Items between brackets are found.

The reader of a record comes from one item to the next over blanks and a comma, and it finds each
element and each key at its first code point. Behind a comma it finds what it would have found behind
the opening bracket, since an item is neither a blank nor a closing bracket.
-/

namespace JsLexer.Json

variable {b v w rest : List Char}

theorem Starts.skipBlanks (h : Starts v) (rest : List Char) :
    skipBlanks (v ++ rest) = v ++ rest := by
  obtain ⟨c, cs, rfl, hc, -⟩ := h
  exact skipBlanks_cons hc _

theorem Blank.skipBlanks_starts (hb : Blank b) (hv : Starts v) (rest : List Char) :
    skipBlanks (b ++ (v ++ rest)) = v ++ rest := by
  rw [skipBlanks_append hb.isBlank, hv.skipBlanks]

theorem Blank.skipBlanks_cons (hb : Blank b) {c : Char} (hc : Json.isBlank c = false)
    (cs : List Char) : skipBlanks (b ++ c :: cs) = c :: cs := by
  rw [skipBlanks_append hb.isBlank, Json.skipBlanks_cons hc]

/-! ### Elements -/

theorem nextElement_first (hb : Blank b) (hv : Starts v) (rest : List Char) :
    nextElement true (b ++ (v ++ rest)) = .ok (some (v ++ rest)) := by
  have hskip := hb.skipBlanks_starts hv rest
  obtain ⟨c, cs, rfl, -, hclosing, -⟩ := hv
  rw [List.cons_append] at hskip ⊢
  simp [nextElement, hskip]

/-- Behind a comma there is an element as behind the opening bracket. -/
theorem nextElement_comma {b' : List Char} (hb' : Blank b') (hb : Blank b) (hv : Starts v)
    (rest : List Char) :
    nextElement false (b' ++ ',' :: (b ++ (v ++ rest))) = .ok (some (v ++ rest)) := by
  have hcomma := hb'.skipBlanks_cons (c := ',') rfl (b ++ (v ++ rest))
  have hskip := hb.skipBlanks_starts hv rest
  obtain ⟨c, cs, rfl, -, hclosing, -⟩ := hv
  rw [List.cons_append] at hskip hcomma ⊢
  simp [nextElement, hcomma, hskip, hclosing]

theorem nextElement_separated {values : List (List Char)} (h : Separated values w)
    (hvalues : ∀ v ∈ values, Starts v) (hb : Blank b) (rest : List Char) :
    nextElement false (b ++ ',' :: (w ++ rest)) = nextElement true (w ++ rest) := by
  obtain ⟨b', v, w', rfl, hb', hv⟩ := h.head
  rw [List.append_assoc, List.append_assoc, nextElement_first hb' (hvalues v hv),
    nextElement_comma hb hb' (hvalues v hv)]

theorem closeList_blank (hb : Blank b) (rest : List Char) :
    closeList (b ++ ']' :: rest) = .ok rest := by
  rw [closeList, hb.skipBlanks_cons rfl]
  rfl

/-! ### Members -/

namespace Record

theorem nextKey_close (first : Bool) (hb : Blank b) (rest : List Char) :
    nextKey first (b ++ '\x7d' :: rest) = .ok (none, rest) := by
  rw [nextKey, hb.skipBlanks_cons rfl]
  rfl

theorem KeyedMember.text_append (m : KeyedMember) (rest : List Char) :
    ∃ body, m.text ++ rest = '"' :: body ∧
      stringAhead body = .ok (m.key, m.before ++ ':' :: (m.after ++ (m.value ++ rest))) := by
  obtain ⟨body, hbody, hahead⟩ :=
    m.spelled.stringAhead (m.before ++ ':' :: (m.after ++ (m.value ++ rest)))
  refine ⟨body, ?_, hahead⟩
  rw [← hbody, Member.text]
  simp

theorem nextKey_first (hb : Blank b) (m : KeyedMember) (rest : List Char) :
    nextKey true (b ++ (m.text ++ rest)) =
      .ok (some m.key, m.before ++ ':' :: (m.after ++ (m.value ++ rest))) := by
  obtain ⟨body, hbody, hahead⟩ := KeyedMember.text_append m rest
  rw [hbody, nextKey, hb.skipBlanks_cons rfl]
  dsimp only
  rw [if_neg (by decide), if_pos rfl, nextKey.keyAhead, hahead]
  rfl

/-- Behind a comma there is a key as behind the opening bracket. -/
theorem nextKey_comma {b' : List Char} (hb' : Blank b') (hb : Blank b) (m : KeyedMember)
    (rest : List Char) :
    nextKey false (b' ++ ',' :: (b ++ (m.text ++ rest))) =
      .ok (some m.key, m.before ++ ':' :: (m.after ++ (m.value ++ rest))) := by
  obtain ⟨body, hbody, hahead⟩ := KeyedMember.text_append m rest
  rw [hbody, nextKey, hb'.skipBlanks_cons rfl]
  dsimp only
  rw [if_neg (by decide), if_neg (by decide), if_pos rfl, hb.skipBlanks_cons rfl, nextKey.keyAhead,
    hahead]
  rfl

theorem nextKey_separated {members : List KeyedMember}
    (h : Separated (members.map (·.text)) w) (hb : Blank b) (rest : List Char) :
    nextKey false (b ++ ',' :: (w ++ rest)) = nextKey true (w ++ rest) := by
  obtain ⟨b', v, w', rfl, hb', hv⟩ := h.head
  obtain ⟨m, -, rfl⟩ := List.mem_map.1 hv
  rw [List.append_assoc, List.append_assoc, nextKey_first hb', nextKey_comma hb hb']

theorem passColon_blank (hb : Blank b) (cs : List Char) : passColon (b ++ ':' :: cs) = .ok cs := by
  rw [passColon, hb.skipBlanks_cons rfl]
  rfl

end Record

end JsLexer.Json
