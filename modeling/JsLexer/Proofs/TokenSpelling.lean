import JsLexer.Proofs.Interchange
import JsLexer.Proofs.Json.RecordMeaning
import JsLexer.Proofs.Json.RecordRefusal

/-!
Every JSON spelling of a token is decoded.

A token may be written as an object or as a list, and so may its ends; members may come in any order
and among others that are no fields; strings may be escaped in any way. All of that is the same token
to the decoder. But a key of a field that is missing or comes twice makes it no token at all.
-/

namespace JsLexer

open Json (Spelling Means Fill Refuses InStep IsValue KeyedMember KeyedObjectOf ArrayOf keys
  blank_nil blank_space arrayOf_intercalate keyedObjectOf_intercalate)

/-! ### Spellings -/

/-- How a position is spelled. -/
def Position.spelling (p : Position) : Spelling :=
  Json.RecordOf [("Line", Json.CountOf p.line), ("Column", Json.CountOf p.column)]

/-- How a token is spelled. -/
def Token.spelling (t : Token) : Spelling :=
  Json.RecordOf [("Text", Json.StringOf t.text), ("Kind", Json.StringOf t.kind.name),
    ("Start", t.start.spelling), ("End", t.stop.spelling)]

/-! ### Positions -/

namespace Position

/-- The draft of a position when some keys were read. -/
def draftOf (p : Position) (read : List String) : Draft :=
  ⟨if "Line" ∈ read then some p.line else none, if "Column" ∈ read then some p.column else none⟩

theorem fill {p : Position} (h : p.Fits) :
    Fill record (record.fields.zip [Json.CountOf p.line, Json.CountOf p.column]) p.draftOf p where
  listed := rfl
  blank := rfl
  unknown := by
    intro read key hkey
    obtain ⟨hline, hcolumn⟩ : "Line" ≠ key ∧ "Column" ≠ key := by simpa [record] using hkey
    simp [draftOf, hline, hcolumn]
  isSet := by
    refine forall_mem_two ?_ ?_
    · intro read hread
      simpa [draftOf] using hread
    · intro read hread
      simpa [draftOf] using hread
  reads := by
    refine forall_mem_two ?_ ?_
    · intro read
      have hdraft : p.draftOf (read ++ ["Line"]) =
          { p.draftOf read with line := some p.line } := by simp [draftOf]
      exact hdraft ▸ (Json.means_count h.1).map fun n => { p.draftOf read with line := some n }
    · intro read
      have hdraft : p.draftOf (read ++ ["Column"]) =
          { p.draftOf read with column := some p.column } := by simp [draftOf]
      exact hdraft ▸ (Json.means_count h.2).map fun n => { p.draftOf read with column := some n }
  finish := by
    intro read hread
    obtain ⟨hline, hcolumn⟩ : "Line" ∈ read ∧ "Column" ∈ read := by simpa [record] using hread
    have hdraft : p.draftOf read = ⟨some p.line, some p.column⟩ := by
      simp [draftOf, hline, hcolumn]
    rw [hdraft]
    rfl

theorem means {p : Position} (h : p.Fits) : Means p.spelling record.read p := (fill h).means

/-- A field of a position is set by the number that is read for it. -/
theorem lawful : record.Lawful where
  nodup := by decide
  inStep := by
    refine forall_mem_two ?_ ?_
    · exact fun draft => Json.inStep_readCount.map fun n => { draft with line := some n }
    · exact fun draft => Json.inStep_readCount.map fun n => { draft with column := some n }
  blank := by simp [record]
  sets := by
    refine forall_mem_two ?_ ?_
    all_goals
      intro draft cs next rest h
      obtain ⟨x, -, hx⟩ := Json.Except.map_eq_ok h
      obtain ⟨rfl, -⟩ := Prod.mk.inj hx
      simp [record]

end Position

/-! ### Kinds -/

theorem TokenKind.readName_eq_ok {cs rest : List Char} {k : TokenKind}
    (h : readName cs = .ok (k, rest)) :
    ∃ name, Json.readString "a token kind name such as \"IDENTIFIER_NAME\"" cs = .ok (name, rest) := by
  unfold readName at h
  split at h
  · simp at h
  · next name behind hname =>
    split at h
    · obtain ⟨-, rfl⟩ := Prod.mk.inj (Except.ok.inj h)
      exact ⟨name, hname⟩
    · simp at h

theorem TokenKind.inStep_readName : InStep readName := by
  intro cs k rest h
  obtain ⟨name, hname⟩ := readName_eq_ok h
  exact Json.inStep_readString _ cs name rest hname

theorem TokenKind.means (k : TokenKind) : Means (Json.StringOf k.name) readName k := by
  intro w hw
  obtain ⟨hvalue, hread⟩ := Json.means_string _ k.name w hw
  refine ⟨hvalue, fun cs rest hrest hcs => ?_⟩
  rw [readName, hread cs rest hrest hcs]
  simp [ofName?_name]

theorem TokenKind.refuses_readName {members : List KeyedMember} {w : List Char}
    (hw : KeyedObjectOf members w) : Refuses readName w := by
  intro cs rest hrest hcs
  obtain ⟨e, he⟩ := Json.refuses_readString "a token kind name such as \"IDENTIFIER_NAME\"" hw
    cs rest hrest hcs
  exact ⟨e, by rw [readName, he]⟩

/-! ### Tokens -/

namespace Token

/-- The draft of a token when some keys were read. -/
def draftOf (t : Token) (read : List String) : Draft :=
  ⟨if "Text" ∈ read then some t.text else none, if "Kind" ∈ read then some t.kind else none,
    if "Start" ∈ read then some t.start else none, if "End" ∈ read then some t.stop else none⟩

theorem fill {t : Token} (h : t.Fits) :
    Fill record (record.fields.zip [Json.StringOf t.text, Json.StringOf t.kind.name,
      t.start.spelling, t.stop.spelling]) t.draftOf t where
  listed := rfl
  blank := rfl
  unknown := by
    intro read key hkey
    obtain ⟨htext, hkind, hstart, hstop⟩ :
        "Text" ≠ key ∧ "Kind" ≠ key ∧ "Start" ≠ key ∧ "End" ≠ key := by simpa [record] using hkey
    simp [draftOf, htext, hkind, hstart, hstop]
  isSet := by
    refine forall_mem_four ?_ ?_ ?_ ?_
    all_goals
      intro read hread
      simpa [draftOf] using hread
  reads := by
    refine forall_mem_four ?_ ?_ ?_ ?_
    · intro read
      have hdraft : t.draftOf (read ++ ["Text"]) =
          { t.draftOf read with text := some t.text } := by simp [draftOf]
      exact hdraft ▸ (Json.means_string _ t.text).map fun s =>
        { t.draftOf read with text := some s }
    · intro read
      have hdraft : t.draftOf (read ++ ["Kind"]) =
          { t.draftOf read with kind := some t.kind } := by simp [draftOf]
      exact hdraft ▸ t.kind.means.map fun k => { t.draftOf read with kind := some k }
    · intro read
      have hdraft : t.draftOf (read ++ ["Start"]) =
          { t.draftOf read with start := some t.start } := by simp [draftOf]
      exact hdraft ▸ (Position.means h.1).map fun p => { t.draftOf read with start := some p }
    · intro read
      have hdraft : t.draftOf (read ++ ["End"]) =
          { t.draftOf read with stop := some t.stop } := by simp [draftOf]
      exact hdraft ▸ (Position.means h.2).map fun p => { t.draftOf read with stop := some p }
  finish := by
    intro read hread
    obtain ⟨htext, hkind, hstart, hstop⟩ :
        "Text" ∈ read ∧ "Kind" ∈ read ∧ "Start" ∈ read ∧ "End" ∈ read := by
      simpa [record] using hread
    have hdraft : t.draftOf read = ⟨some t.text, some t.kind, some t.start, some t.stop⟩ := by
      simp [draftOf, htext, hkind, hstart, hstop]
    rw [hdraft]
    rfl

theorem means {t : Token} (h : t.Fits) : Means t.spelling record.read t := (fill h).means

theorem lawful : record.Lawful where
  nodup := by decide
  inStep := by
    refine forall_mem_four ?_ ?_ ?_ ?_
    · exact fun draft => (Json.inStep_readString _).map fun s => { draft with text := some s }
    · exact fun draft => TokenKind.inStep_readName.map fun k => { draft with kind := some k }
    · exact fun draft => (Json.Record.inStep_read Position.lawful.inStep).map fun p =>
        { draft with start := some p }
    · exact fun draft => (Json.Record.inStep_read Position.lawful.inStep).map fun p =>
        { draft with stop := some p }
  blank := by simp [record]
  sets := by
    refine forall_mem_four ?_ ?_ ?_ ?_
    all_goals
      intro draft cs next rest h
      obtain ⟨x, -, hx⟩ := Json.Except.map_eq_ok h
      obtain ⟨rfl, -⟩ := Prod.mk.inj hx
      simp [record]

end Token

/-! ### Miscounted keys -/

/-- Spellings of a position with a key that is missing or repeated. -/
def Position.Miscounted : Spelling := Json.Miscounted ["Line", "Column"]

/-- Spellings of a token with a key that is missing or repeated, be it a key of the token or of one
of its ends. -/
inductive Token.Miscounted : Spelling
  | own {w : List Char} : Json.Miscounted ["Text", "Kind", "Start", "End"] w → Miscounted w
  | member {members : List KeyedMember} {w : List Char} {m : KeyedMember} :
      KeyedObjectOf members w → (∀ m ∈ members, IsValue m.value) → m ∈ members →
      m.key ∈ ["Start", "End"] → Position.Miscounted m.value → Miscounted w
  | element {values : List (List Char)} {w v : List Char} : ArrayOf values w →
      (∀ v ∈ values, IsValue v) → v ∈ values → Position.Miscounted v → Miscounted w

theorem Position.Miscounted.refuses {w : List Char} (h : Position.Miscounted w) :
    Refuses Position.record.read w :=
  Json.Record.refuses_miscounted Position.lawful h

/-- No field of a token takes an end with a key missing or repeated. -/
theorem Token.refuses_position {w : List Char} (h : Position.Miscounted w) :
    ∀ f ∈ Token.record.fields, ∀ draft, Refuses (f.read draft) w := by
  have hposition := h.refuses
  obtain ⟨members, hw, -⟩ := h
  refine forall_mem_four ?_ ?_ ?_ ?_
  · exact fun draft => (Json.refuses_readString _ hw).map fun s => { draft with text := some s }
  · exact fun draft => (TokenKind.refuses_readName hw).map fun k => { draft with kind := some k }
  · exact fun draft => hposition.map fun p => { draft with start := some p }
  · exact fun draft => hposition.map fun p => { draft with stop := some p }

theorem Token.Miscounted.refuses {w : List Char} (h : Token.Miscounted w) :
    IsValue w ∧ Refuses Token.record.read w := by
  cases h with
  | own h =>
    obtain ⟨members, hw, hvalues, -⟩ := id h
    exact ⟨hw.isValue hvalues, Json.Record.refuses_miscounted Token.lawful h⟩
  | @member members _ m hw hvalues hm hkey h =>
    have hfield : ∃ f ∈ Token.record.fields, f.key = m.key := by
      simpa [Token.record, eq_comm] using Or.inr (Or.inr hkey)
    obtain ⟨f, hf, hkey⟩ := hfield
    exact ⟨hw.isValue hvalues, Json.Record.refuses_of_member Token.lawful hw hvalues hm hf hkey
      (Token.refuses_position h f hf)⟩
  | element hw hvalues hv h =>
    exact ⟨.array hw hvalues, Json.Record.refuses_of_element Token.lawful hw hvalues hv
      (Token.refuses_position h)⟩

/-! ### Whole texts -/

namespace Token

/-- Decodes a token and encodes it again, as often as wanted. -/
def recode : Nat → String → Except Json.Error String
  | 0, json => .ok json
  | n + 1, json =>
    match ofJson json with
    | .error e => .error e
    | .ok t => recode n t.toJson

theorem recode_toJson {t : Token} (h : t.Fits) (n : Nat) : recode n t.toJson = .ok t.toJson := by
  have hself : ofJson t.toJson = .ok t := (readsBack h).decode
  induction n with
  | zero => rfl
  | succ n ih =>
    rw [recode, hself]
    exact ih

/-- Every text that spells a token is decoded as that token. Encoding it gives the token's own text,
which decoding and encoding, however often, do not change. A text in which a known key is missing or
repeated is never decoded. -/
theorem ofJson_spelled :
    (∀ t : Token, t.Fits → ∀ json, Json.WholeText t.spelling json →
      ofJson json = .ok t ∧ (ofJson json).map toJson = .ok t.toJson ∧
      ∀ n, recode (n + 1) json = .ok t.toJson) ∧
    ∀ json, Json.WholeText Token.Miscounted json → ∃ e, ofJson json = .error e := by
  constructor
  · intro t ht json hjson
    have hdecode : ofJson json = .ok t := (means ht).decode hjson
    refine ⟨hdecode, by rw [hdecode]; rfl, fun n => ?_⟩
    rw [recode, hdecode]
    exact recode_toJson ht n
  · exact fun json hjson => Json.Refuses.decode (fun w hw => hw.refuses) hjson

/-- A token with its keys in another order and among others, one of them with an escape, its text
as a surrogate pair and its end as a list; and a list of a place with a line that comes twice. -/
theorem ofJson_spelled_pair :
    let t : Token := ⟨.string, "😀", ⟨0, 7⟩, ⟨0, 8⟩⟩
    let json := " \x7b\"\\u0045nd\": [0,8],\"Note\": [null],\"Text\": \"\\uD83d\\ude00\"," ++
      "\"Start\": \x7b\"Column\": 7,\"Line\": 0\x7d,\"Kind\": \"STRING\"\x7d"
    (ofJson json = .ok t ∧ recode 2 json = .ok t.toJson) ∧
    ∃ e, ofJson "[\x7b\"Line\": null,\"Line\": null\x7d]" = .error e := by
  intro t json
  have hnull : IsValue "null".toList := .word (by decide)
  constructor
  · have hfits : t.Fits := by simp [t, Fits, Position.Fits, Json.maxUnsigned]
    have hseven : Nat.toDigits 10 7 = ['7'] := by decide
    have height : Nat.toDigits 10 8 = ['8'] := by decide
    have hstart : Position.spelling ⟨0, 7⟩ "\x7b\"Column\": 7,\"Line\": 0\x7d".toList := by
      refine .inr ⟨[.plain "Column" rfl ['7'], .plain "Line" rfl ['0']],
        keyedObjectOf_intercalate _, ?_, ?_⟩
      · simp [keys, KeyedMember.plain, Json.CountOf, hseven]
      · simp [KeyedMember.plain]
    have hstop : Position.spelling ⟨0, 8⟩ "[0,8]".toList := by
      refine .inl ⟨[['0'], ['8']], ?_, arrayOf_intercalate [['0'], ['8']]⟩
      simp [Json.CountOf, height]
    have hpair : Json.CharacterOf '😀'
        ('\\' :: 'u' :: "D83d".toList ++ '\\' :: 'u' :: "de00".toList) :=
      .pair (by decide) ⟨13, 8, 3, 13, by decide, by decide⟩ ⟨13, 14, 0, 0, by decide, by decide⟩
    have htext : Json.StringOf "😀" "\"\\uD83d\\ude00\"".toList :=
      ⟨_, .cons hpair .nil, by decide +kernel⟩
    have hescape : Json.CharacterOf 'E' ('\\' :: 'u' :: "0045".toList) :=
      .unit (by decide) ⟨0, 0, 4, 5, by decide, by decide⟩
    have hbehind : Json.CharactersOf "nd".toList "nd".toList := Json.charactersOf_plain rfl
    have hend : Json.StringOf "End" "\"\\u0045nd\"".toList :=
      ⟨_, .cons hescape hbehind, by decide +kernel⟩
    have hkind : Json.StringOf "STRING" "\"STRING\"".toList :=
      Json.stringOf_plain (s := "STRING") rfl
    have hnote : IsValue "[null]".toList :=
      .array (arrayOf_intercalate ["null".toList]) (List.forall_mem_singleton.2 hnull)
    have hjson : Json.WholeText t.spelling json := by
      refine ⟨[' '], _, [], blank_space, blank_nil, .inr
        ⟨[⟨⟨"\"\\u0045nd\"".toList, [], [' '], "[0,8]".toList, blank_nil, blank_space⟩, "End", hend⟩,
          .plain "Note" rfl "[null]".toList, .plain "Text" rfl "\"\\uD83d\\ude00\"".toList,
          .plain "Start" rfl "\x7b\"Column\": 7,\"Line\": 0\x7d".toList,
          .plain "Kind" rfl "\"STRING\"".toList],
        keyedObjectOf_intercalate _, ?_, ?_⟩, ?_⟩
      · simpa [keys, KeyedMember.plain] using ⟨htext, hkind, hstart, hstop⟩
      · simpa [KeyedMember.plain] using hnote
      · simp [json, Json.Member.text, KeyedMember.plain]
    obtain ⟨hdecode, -, hrecode⟩ := ofJson_spelled.1 t hfits json hjson
    exact ⟨hdecode, hrecode 1⟩
  · have hplace : Position.Miscounted "\x7b\"Line\": null,\"Line\": null\x7d".toList := by
      refine ⟨[.plain "Line" rfl "null".toList, .plain "Line" rfl "null".toList],
        keyedObjectOf_intercalate _, ?_, "Line", by decide, by decide⟩
      simpa [KeyedMember.plain] using hnull
    obtain ⟨members, hmembers, hvalues, -⟩ := id hplace
    have hlist : Token.Miscounted "[\x7b\"Line\": null,\"Line\": null\x7d]".toList :=
      .element (arrayOf_intercalate ["\x7b\"Line\": null,\"Line\": null\x7d".toList])
        (List.forall_mem_singleton.2 (hmembers.isValue hvalues)) List.mem_cons_self hplace
    exact ofJson_spelled.2 _ ⟨[], _, [], blank_nil, blank_nil, hlist, by simp⟩

end Token

end JsLexer
