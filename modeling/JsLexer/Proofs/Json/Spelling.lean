import JsLexer.Json.Text
import Mathlib.Data.List.Forall2

/-!
What JSON texts are.

A spelling is the set of texts that stand for something. One value has many: a code point of a string
may be written as it is, by a letter or by its number in UTF-16, there may be blanks around everything
that is not inside of a string or a number, and the members of an object have no order. Some texts are
good JSON and still stand for nothing, such as a string with half of a surrogate pair.
-/

namespace JsLexer.Json

/-- The texts that stand for something. -/
abbrev Spelling := List Char → Prop

/-- White space between lexical elements. -/
def Blank : Spelling := fun w => ∀ c ∈ w, c ∈ [' ', '\t', '\n', '\r']

/-- What may follow a value: the end of the text, a blank, a comma or a closing bracket. -/
def Delimited (rest : List Char) : Prop :=
  ∀ c, rest.head? = some c → c ∈ [' ', '\t', '\n', '\r', ',', ']', '\x7d']

/-! ### Strings -/

/-- Four hexadecimal digits of either case, with their value. -/
def FourHex (n : Nat) : Spelling := fun w =>
  ∃ a b c d, w.map hexValue? = [some a, some b, some c, some d] ∧
    n = ((a * 16 + b) * 16 + c) * 16 + d

/-- The code points that a letter or sign behind a backslash stands for. -/
def shortEscapes : List (Char × Char) :=
  [('"', '"'), ('\\', '\\'), ('/', '/'), ('b', '\x08'), ('f', '\x0c'), ('n', '\n'), ('r', '\r'),
    ('t', '\t')]

/-- A code point inside a string: as it is, unless it is a quote, a backslash or a control
character, or as an escape. Beyond 16 bits there are two escapes by number, one for each UTF-16
unit. -/
inductive CharacterOf : Char → Spelling
  | plain {c : Char} : 0x20 ≤ c.toNat → c ≠ '"' → c ≠ '\\' → CharacterOf c [c]
  | short {e c : Char} : (e, c) ∈ shortEscapes → CharacterOf c ['\\', e]
  | unit {c : Char} {w : List Char} : c.toNat < 0x10000 → FourHex c.toNat w →
      CharacterOf c ('\\' :: 'u' :: w)
  | pair {c : Char} {w v : List Char} : 0x10000 ≤ c.toNat →
      FourHex (0xd800 + (c.toNat - 0x10000) / 0x400) w →
      FourHex (0xdc00 + (c.toNat - 0x10000) % 0x400) v →
      CharacterOf c ('\\' :: 'u' :: w ++ '\\' :: 'u' :: v)

/-- The code points of a string one after another. -/
inductive CharactersOf : List Char → Spelling
  | nil : CharactersOf [] []
  | cons {c : Char} {w : List Char} {cs v : List Char} : CharacterOf c w → CharactersOf cs v →
      CharactersOf (c :: cs) (w ++ v)

/-- A string between its quotes. -/
def StringOf (s : String) : Spelling := fun w =>
  ∃ body, CharactersOf s.toList body ∧ w = '"' :: body ++ ['"']

/-- A code point or an escape that is good JSON. An escape by number may be any UTF-16 unit. -/
inductive IsCharacter : Spelling
  | plain {c : Char} : 0x20 ≤ c.toNat → c ≠ '"' → c ≠ '\\' → IsCharacter [c]
  | short {e c : Char} : (e, c) ∈ shortEscapes → IsCharacter ['\\', e]
  | unit {n : Nat} {w : List Char} : FourHex n w → IsCharacter ('\\' :: 'u' :: w)

/-- Code points and escapes one after another. -/
inductive IsCharacters : Spelling
  | nil : IsCharacters []
  | cons {w v : List Char} : IsCharacter w → IsCharacters v → IsCharacters (w ++ v)

/-- A string that is good JSON, whether or not it stands for one. -/
def IsString : Spelling := fun w => ∃ body, IsCharacters body ∧ w = '"' :: body ++ ['"']

/-! ### Numbers -/

/-- Decimal digits, one at least. -/
def Digits : Spelling := fun w => w ≠ [] ∧ ∀ c ∈ w, isDecimalDigit c = true

/-- The digits before the point, with no zero in front of others. -/
def Whole : Spelling := fun w => Digits w ∧ (w.head? = some '0' → w = ['0'])

/-- A fraction, or none. -/
def Fraction : Spelling := fun w => w = [] ∨ ∃ places, Digits places ∧ w = '.' :: places

/-- An exponent, or none. -/
def Exponent : Spelling := fun w => w = [] ∨
  ∃ e sign digits, e ∈ ['e', 'E'] ∧ sign ∈ [[], ['+'], ['-']] ∧ Digits digits ∧
    w = e :: (sign ++ digits)

/-- A number without its sign. -/
def IsUnsigned : Spelling := fun w =>
  ∃ whole fraction exponent, Whole whole ∧ Fraction fraction ∧ Exponent exponent ∧
    w = whole ++ (fraction ++ exponent)

/-- A number. -/
def IsNumber : Spelling := fun w => IsUnsigned w ∨ ∃ v, IsUnsigned v ∧ w = '-' :: v

/-- A natural number as a plain decimal integer. -/
def CountOf (n : Nat) : Spelling := fun w => w = Nat.toDigits 10 n

/-! ### Arrays and objects -/

/-- Items between commas, with blanks around each of them. -/
inductive Separated : List (List Char) → Spelling
  | one {b v b' : List Char} : Blank b → Blank b' → Separated [v] (b ++ (v ++ b'))
  | cons {b v b' w : List Char} {vs : List (List Char)} : Blank b → Blank b' → Separated vs w →
      Separated (v :: vs) (b ++ (v ++ (b' ++ ',' :: w)))

/-- Items between two brackets. -/
def Bracketed (opening closing : Char) (items : List (List Char)) : Spelling := fun w =>
  ∃ inner, w = opening :: (inner ++ [closing]) ∧ (items = [] ∧ Blank inner ∨ Separated items inner)

/-- An array of values. -/
def ArrayOf (values : List (List Char)) : Spelling := Bracketed '[' ']' values

/-- A member of an object: the text of its key and that of its value, with blanks around the
colon. -/
structure Member where
  name : List Char
  before : List Char
  after : List Char
  value : List Char
  blank_before : Blank before
  blank_after : Blank after

/-- The text of a member. -/
def Member.text (m : Member) : List Char := m.name ++ (m.before ++ ':' :: (m.after ++ m.value))

/-- An object of members. -/
def ObjectOf (members : List Member) : Spelling := Bracketed '\x7b' '\x7d' (members.map Member.text)

/-- The words that are values. -/
def words : List (List Char) :=
  [['n', 'u', 'l', 'l'], ['t', 'r', 'u', 'e'], ['f', 'a', 'l', 's', 'e']]

/-- A value of any sort. -/
inductive IsValue : Spelling
  | word {w : List Char} : w ∈ words → IsValue w
  | number {w : List Char} : IsNumber w → IsValue w
  | string {w : List Char} : IsString w → IsValue w
  | array {values : List (List Char)} {w : List Char} : ArrayOf values w →
      (∀ v ∈ values, IsValue v) → IsValue w
  | object {members : List Member} {w : List Char} : ObjectOf members w →
      (∀ m ∈ members, IsString m.name) → (∀ m ∈ members, IsValue m.value) → IsValue w

/-! ### Records -/

/-- A member whose key is a string. -/
structure KeyedMember extends Member where
  key : String
  spelled : StringOf key name

/-- The keys of members, in order. -/
def keys (members : List KeyedMember) : List String := members.map (·.key)

/-- An object of members with keys. -/
def KeyedObjectOf (members : List KeyedMember) : Spelling := ObjectOf (members.map (·.toMember))

/-- A record of fields: the array of their values in order, or an object that has each of their keys
once and may have other members. -/
def RecordOf (fields : List (String × Spelling)) : Spelling := fun w =>
  (∃ values, List.Forall₂ (fun field v => field.2 v) fields values ∧ ArrayOf values w) ∨
  ∃ members, KeyedObjectOf members w ∧
    (∀ field ∈ fields, (keys members).count field.1 = 1 ∧
      ∀ m ∈ members, m.key = field.1 → field.2 m.value) ∧
    ∀ m ∈ members, m.key ∉ fields.map Prod.fst → IsValue m.value

/-- An object of good values in which one of some keys is missing or comes more than once. -/
def Miscounted (known : List String) : Spelling := fun w =>
  ∃ members, KeyedObjectOf members w ∧ (∀ m ∈ members, IsValue m.value) ∧
    ∃ key ∈ known, (keys members).count key ≠ 1

/-! ### Whole texts -/

/-- A text that has one spelling of something and blanks around it. -/
def WholeText (spelling : Spelling) (s : String) : Prop :=
  ∃ b w b', Blank b ∧ Blank b' ∧ spelling w ∧ s.toList = b ++ (w ++ b')

/-! ### First facts -/

theorem blank_nil : Blank [] := by simp [Blank]

theorem blank_space : Blank [' '] := by simp [Blank]

theorem Blank.isBlank {w : List Char} (h : Blank w) : ∀ c ∈ w, isBlank c = true := by
  intro c hc
  have hmem := h c hc
  simp only [List.mem_cons, List.not_mem_nil, or_false] at hmem
  rcases hmem with rfl | rfl | rfl | rfl <;> rfl

theorem Delimited.of_blank {b : List Char} (hb : Blank b) {rest : List Char} (h : Delimited rest) :
    Delimited (b ++ rest) := by
  cases b with
  | nil => exact h
  | cons c b =>
    rintro _ ⟨⟩
    have hmem := hb c List.mem_cons_self
    simp only [List.mem_cons, List.not_mem_nil, or_false] at hmem
    rcases hmem with rfl | rfl | rfl | rfl <;> decide

theorem Blank.delimited {b : List Char} (hb : Blank b) : Delimited b := by
  have hnil : Delimited [] := by simp [Delimited]
  simpa using hnil.of_blank hb

theorem delimited_cons {c : Char} (h : c ∈ [',', ']', '\x7d']) (rest : List Char) :
    Delimited (c :: rest) := by
  rintro _ ⟨⟩
  simp only [List.mem_cons, List.not_mem_nil, or_false] at h ⊢
  tauto

/-- A text that starts with neither a blank nor a closing bracket. -/
def Starts (w : List Char) : Prop :=
  ∃ c cs, w = c :: cs ∧ isBlank c = false ∧ c ≠ ']' ∧ c ≠ '\x7d'

/-- Whether a code point stands in a string as it is. -/
def isPlain (c : Char) : Bool := 0x20 ≤ c.toNat && c != '"' && c != '\\'

theorem charactersOf_plain {cs : List Char} (h : cs.all isPlain = true) : CharactersOf cs cs := by
  induction cs with
  | nil => exact .nil
  | cons c cs ih =>
    simp only [List.all_cons, isPlain, Bool.and_eq_true, decide_eq_true_eq, bne_iff_ne] at h
    obtain ⟨⟨⟨hcontrol, hquote⟩, hbackslash⟩, hcs⟩ := h
    exact .cons (.plain hcontrol hquote hbackslash) (ih hcs)

/-- A string of such code points, as it is. -/
theorem stringOf_plain {s : String} (h : s.toList.all isPlain = true) :
    StringOf s ('"' :: s.toList ++ ['"']) :=
  ⟨s.toList, charactersOf_plain h, rfl⟩

/-- A member with its key as it is. -/
def KeyedMember.plain (key : String) (h : key.toList.all isPlain = true) (value : List Char) :
    KeyedMember where
  name := '"' :: key.toList ++ ['"']
  before := []
  after := [' ']
  value := value
  blank_before := blank_nil
  blank_after := blank_space
  key := key
  spelled := stringOf_plain h

theorem separated_intercalate (v : List Char) (vs : List (List Char)) :
    Separated (v :: vs) ([','].intercalate (v :: vs)) := by
  induction vs generalizing v with
  | nil => simpa using Separated.one (v := v) blank_nil blank_nil
  | cons u vs ih => simpa using Separated.cons (v := v) blank_nil blank_nil (ih u)

/-- Items with nothing but commas between them. -/
theorem bracketed_intercalate (opening closing : Char) (items : List (List Char)) :
    Bracketed opening closing items (opening :: ([','].intercalate items ++ [closing])) := by
  refine ⟨_, rfl, ?_⟩
  cases items with
  | nil => exact .inl ⟨rfl, blank_nil⟩
  | cons v vs => exact .inr (separated_intercalate v vs)

theorem arrayOf_intercalate (values : List (List Char)) :
    ArrayOf values ('[' :: ([','].intercalate values ++ [']'])) :=
  bracketed_intercalate '[' ']' values

theorem keyedObjectOf_intercalate (members : List KeyedMember) :
    KeyedObjectOf members
      ('\x7b' :: ([','].intercalate (members.map (·.text)) ++ ['\x7d'])) := by
  rw [KeyedObjectOf, ObjectOf, List.map_map]
  exact bracketed_intercalate '\x7b' '\x7d' _

theorem IsCharacters.append {w v : List Char} (hw : IsCharacters w) (hv : IsCharacters v) :
    IsCharacters (w ++ v) := by
  induction hw with
  | nil => exact hv
  | cons hc _ ih =>
    rw [List.append_assoc]
    exact .cons hc ih

theorem isUnsigned_of_digits {w : List Char} (hne : w ≠ []) (hw : ∀ c ∈ w, isDecimalDigit c = true)
    (hzero : ¬ (w.head? = some '0' ∧ 1 < w.length)) : IsUnsigned w := by
  refine ⟨w, [], [], ⟨⟨hne, hw⟩, fun hhead => ?_⟩, .inl rfl, .inl rfl, by simp⟩
  obtain ⟨more, rfl⟩ := List.head?_eq_some_iff.1 hhead
  cases more with
  | nil => rfl
  | cons d more => exact absurd ⟨rfl, by simp⟩ hzero

theorem IsUnsigned.head {w : List Char} (h : IsUnsigned w) :
    ∃ d ds, w = d :: ds ∧ isDecimalDigit d = true := by
  obtain ⟨whole, fraction, exponent, ⟨⟨hne, hwhole⟩, -⟩, -, -, rfl⟩ := h
  obtain ⟨d, ds, rfl⟩ := List.exists_cons_of_ne_nil hne
  exact ⟨d, ds ++ (fraction ++ exponent), rfl, hwhole d List.mem_cons_self⟩

end JsLexer.Json
