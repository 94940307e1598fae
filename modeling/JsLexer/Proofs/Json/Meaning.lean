import JsLexer.Json.Record
import JsLexer.Proofs.Json.Length

/-!
Every spelling is understood.

A spelling means a value to a reader if the reader makes that value of each of its texts, whatever
blanks stand before it and whatever may follow a value stands behind it. Strings and natural numbers
are understood in all their spellings.
-/

namespace JsLexer.Json

variable {α β : Type}

/-- Every text of a spelling is good JSON and is read as `a`, up to its last code point. -/
def Means (spelling : Spelling) (read : List Char → Parsed α) (a : α) : Prop :=
  ∀ w, spelling w → IsValue w ∧
    ∀ cs rest, Delimited rest → skipBlanks cs = w ++ rest → read cs = .ok (a, rest)

theorem Means.map {spelling : Spelling} {read : List Char → Parsed α} {a : α}
    (h : Means spelling read a) (f : α → β) :
    Means spelling (fun cs => (read cs).map fun (a, rest) => (f a, rest)) (f a) := by
  intro w hw
  obtain ⟨hvalue, hread⟩ := h w hw
  exact ⟨hvalue, fun cs rest hrest hcs => by simp [hread cs rest hrest hcs, Except.map]⟩

/-! ### Strings -/

theorem stringRest_claimed (w cs : List Char) :
    stringRest w.length (w ++ cs) = stringRest 0 cs := by
  induction w with
  | nil => rfl
  | cons c w ih => exact ih

/-- An escape is followed by the rest of the string. -/
theorem stringRest_backslash {w cs : List Char} {c : Char}
    (h : escapeAhead (w ++ cs) = .ok (c, w.length)) :
    stringRest 0 ('\\' :: (w ++ cs)) = (stringRest 0 cs).map fun (s, rest) => (c :: s, rest) := by
  have hbackslash : ¬ '\\' = '"' := by decide
  rw [stringRest, if_neg hbackslash, if_pos rfl, h]
  dsimp only
  rw [stringRest_claimed]

/-- Code points are below or beyond the surrogates. -/
theorem toNat_range (c : Char) : c.toNat < 0xd800 ∨ 0xdfff < c.toNat ∧ c.toNat < 0x110000 := c.valid

theorem not_surrogate (c : Char) : isLeading c.toNat = false ∧ isTrailing c.toNat = false := by
  have hrange := toNat_range c
  constructor
  · simp [isLeading]
    omega
  · simp [isTrailing]
    omega

theorem numberEscape_unit {c : Char} {w : List Char} (hhex : FourHex c.toNat w) (cs : List Char) :
    numberEscape (w ++ cs) = .ok (c, 4) := by
  simp [numberEscape, hhex.fourHex, not_surrogate c]

theorem numberEscape_pair {c : Char} {w v : List Char} (hc : 0x10000 ≤ c.toNat)
    (hw : FourHex (0xd800 + (c.toNat - 0x10000) / 0x400) w)
    (hv : FourHex (0xdc00 + (c.toNat - 0x10000) % 0x400) v) (cs : List Char) :
    numberEscape (w ++ ('\\' :: 'u' :: (v ++ cs))) = .ok (c, 10) := by
  have hrange := toNat_range c
  have hleading : isLeading (0xd800 + (c.toNat - 0x10000) / 0x400) = true := by
    simp [isLeading]
    omega
  have hnot : isTrailing (0xd800 + (c.toNat - 0x10000) / 0x400) = false := by
    simp [isTrailing]
    omega
  have htrailing : isTrailing (0xdc00 + (c.toNat - 0x10000) % 0x400) = true := by
    simp [isTrailing]
    omega
  have hpair : ofPair (0xd800 + (c.toNat - 0x10000) / 0x400)
      (0xdc00 + (c.toNat - 0x10000) % 0x400) = c := by
    have hsum : 0x10000 + (0xd800 + (c.toNat - 0x10000) / 0x400 - 0xd800) * 0x400 +
        (0xdc00 + (c.toNat - 0x10000) % 0x400 - 0xdc00) = c.toNat := by omega
    rw [ofPair, hsum, Char.ofNat_toNat]
  have hsecond : trailingUnit ('\\' :: 'u' :: (v ++ cs)) =
      .ok (0xdc00 + (c.toNat - 0x10000) % 0x400) := by
    rw [trailingUnit, hv.fourHex]
    simp [htrailing]
  rw [numberEscape, hw.fourHex]
  dsimp only
  rw [if_neg (by simp [hnot]), if_pos hleading, List.drop_left' hw.length_eq, hsecond]
  dsimp only
  rw [hpair]

theorem CharacterOf.stringRest {c : Char} {w : List Char} (h : CharacterOf c w) (cs : List Char) :
    stringRest 0 (w ++ cs) = (stringRest 0 cs).map fun (s, rest) => (c :: s, rest) := by
  cases h with
  | plain hcontrol hquote hbackslash =>
    have hplain : ¬ c.toNat < 0x20 := Nat.not_lt.2 hcontrol
    simp [Json.stringRest, hquote, hbackslash, hplain]
  | @short e _ hmem =>
    obtain ⟨hescape, hu⟩ := shortEscape?_of_mem _ hmem
    exact stringRest_backslash (w := [e]) (by simp [escapeAhead, hescape, hu])
  | @unit _ w _ hhex =>
    refine stringRest_backslash (w := 'u' :: w) ?_
    simp [escapeAhead, numberEscape_unit hhex, hhex.length_eq, Except.map]
  | @pair _ w v hc hw hv =>
    have hescape : escapeAhead ('u' :: (w ++ '\\' :: 'u' :: v) ++ cs) = .ok (c, 11) := by
      simp [escapeAhead, numberEscape_pair hc hw hv, Except.map]
    have hlength : 11 = ('u' :: (w ++ '\\' :: 'u' :: v)).length := by
      simp [hw.length_eq, hv.length_eq]
    rw [hlength] at hescape
    exact stringRest_backslash hescape

theorem CharactersOf.stringRest {s w : List Char} (h : CharactersOf s w) (rest : List Char) :
    stringRest 0 (w ++ '"' :: rest) = .ok (s, rest) := by
  induction h with
  | nil => rfl
  | cons hc _ ih =>
    rw [List.append_assoc, hc.stringRest, ih]
    rfl

theorem CharacterOf.isCharacters {c : Char} {w : List Char} (h : CharacterOf c w) :
    IsCharacters w := by
  have hone {v : List Char} (hv : IsCharacter v) : IsCharacters v := by
    simpa using IsCharacters.cons hv .nil
  cases h with
  | plain hcontrol hquote hbackslash => exact hone (.plain hcontrol hquote hbackslash)
  | short hmem => exact hone (.short hmem)
  | unit _ hhex => exact hone (.unit hhex)
  | pair _ hw hv => exact .cons (.unit hw) (hone (.unit hv))

/-- A string that stands for something is good JSON. -/
theorem StringOf.isString {s : String} {w : List Char} (h : StringOf s w) : IsString w := by
  obtain ⟨body, hbody, rfl⟩ := h
  refine ⟨body, ?_, rfl⟩
  generalize s.toList = cs at hbody
  induction hbody with
  | nil => exact .nil
  | cons hc _ ih => exact hc.isCharacters.append ih

theorem KeyedObjectOf.isValue {members : List KeyedMember} {w : List Char}
    (hw : KeyedObjectOf members w) (hvalues : ∀ m ∈ members, IsValue m.value) : IsValue w :=
  .object hw (List.forall_mem_map.2 fun m _ => m.spelled.isString) (List.forall_mem_map.2 hvalues)

theorem StringOf.stringAhead {s : String} {w : List Char} (h : StringOf s w) (rest : List Char) :
    ∃ body, w ++ rest = '"' :: body ∧ stringAhead body = .ok (s, rest) := by
  obtain ⟨body, hbody, rfl⟩ := h
  refine ⟨body ++ '"' :: rest, by simp, ?_⟩
  rw [Json.stringAhead, hbody.stringRest]
  simp [Except.map]

theorem means_string (wanted s : String) : Means (StringOf s) (readString wanted) s := by
  intro w hw
  refine ⟨.string hw.isString, fun cs rest _ hcs => ?_⟩
  obtain ⟨body, hbody, hahead⟩ := hw.stringAhead rest
  rw [readString, hcs, hbody]
  exact hahead

/-! ### Numbers -/

theorem CountOf.isUnsigned {n : Nat} {w : List Char} (h : CountOf n w) : IsUnsigned w := by
  rw [h]
  exact isUnsigned_of_digits Nat.toDigits_ne_nil (fun _ => isDecimalDigit_of_mem_toDigits)
    (not_zero_toDigits n)

theorem means_count {n : Nat} (hn : n ≤ maxUnsigned) : Means (CountOf n) readCount n := by
  intro w hw
  refine ⟨.number (.inl hw.isUnsigned), fun cs rest hrest hcs => ?_⟩
  rw [show w = Nat.toDigits 10 n from hw] at hcs
  exact readCount_toDigits hn hrest hcs

end JsLexer.Json
