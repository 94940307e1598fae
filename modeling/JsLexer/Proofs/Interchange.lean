import JsLexer.Proofs.Json.Brackets
import JsLexer.Token.Interchange

/-!
Tokens survive the interchange.

What is written for a token is read as that token again, whatever its text, its kind and the order
of its ends, as long as its places count in 64 bits; and so is a list of any length. The text that
is written is therefore the only one that decoding and encoding again can lead to.
-/

namespace JsLexer

open Json (ReadsBack Fills)

section Fields

variable {α : Type} {P : α → Prop} {a b c d : α}

theorem forall_mem_two (ha : P a) (hb : P b) : ∀ x ∈ [a, b], P x :=
  List.forall_mem_cons.2 ⟨ha, List.forall_mem_singleton.2 hb⟩

theorem forall_mem_four (ha : P a) (hb : P b) (hc : P c) (hd : P d) : ∀ x ∈ [a, b, c, d], P x :=
  List.forall_mem_cons.2 ⟨ha, List.forall_mem_cons.2 ⟨hb, forall_mem_two hc hd⟩⟩

end Fields

/-- Whether lines and columns of a position count in 64 bits. -/
def Position.Fits (p : Position) : Prop := p.line ≤ Json.maxUnsigned ∧ p.column ≤ Json.maxUnsigned

/-- Whether both ends of a token count in 64 bits. -/
def Token.Fits (t : Token) : Prop := t.start.Fits ∧ t.stop.Fits

/-- The members of a position in the order in which they are written. -/
def Position.members (p : Position) : List (String × Json.Written) :=
  [("Line", Json.natural p.line), ("Column", Json.natural p.column)]

theorem Position.fills {p : Position} (h : p.Fits) :
    Fills Position.record ⟨none, none⟩ p.members ⟨some p.line, some p.column⟩ := by
  have hline := (Json.readsBack_natural h.1).map fun n => Position.Draft.mk (some n) none
  have hcolumn := (Json.readsBack_natural h.2).map fun n => Position.Draft.mk (some p.line) (some n)
  refine .field rfl rfl hline ?_
  refine .field rfl rfl hcolumn ?_
  exact .done _

theorem Position.readsBack {p : Position} (h : p.Fits) :
    ReadsBack Position.record.read p.written p :=
  (Position.fills h).readsBack rfl

theorem TokenKind.readsBack (k : TokenKind) :
    ReadsBack TokenKind.readName (Json.text k.name) k where
  starts := (Json.readsBack_text "" k.name).starts
  reads depth _ _ hrest hcs := by
    simp only [TokenKind.readName, (Json.readsBack_text _ k.name).reads depth hrest hcs,
      ofName?_name]

/-- The members of a token in the order in which they are written. -/
def Token.members (t : Token) : List (String × Json.Written) :=
  [("Text", Json.text t.text), ("Kind", Json.text t.kind.name), ("Start", t.start.written),
    ("End", t.stop.written)]

theorem Token.fills {t : Token} (h : t.Fits) :
    Fills Token.record ⟨none, none, none, none⟩ t.members
      ⟨some t.text, some t.kind, some t.start, some t.stop⟩ := by
  have htext := (Json.readsBack_text "a string" t.text).map fun s =>
    Token.Draft.mk (some s) none none none
  have hkind := (TokenKind.readsBack t.kind).map fun k =>
    Token.Draft.mk (some t.text) (some k) none none
  have hstart := (Position.readsBack h.1).map fun p =>
    Token.Draft.mk (some t.text) (some t.kind) (some p) none
  have hstop := (Position.readsBack h.2).map fun p =>
    Token.Draft.mk (some t.text) (some t.kind) (some t.start) (some p)
  refine .field rfl rfl htext ?_
  refine .field rfl rfl hkind ?_
  refine .field rfl rfl hstart ?_
  refine .field rfl rfl hstop ?_
  exact .done _

theorem Token.readsBack {t : Token} (h : t.Fits) : ReadsBack Token.record.read t.written t :=
  (Token.fills h).readsBack rfl

/-- A token, and a list of tokens, is decoded from its text, and encoding again what was decoded
gives the same text. -/
theorem Token.json_roundtrip :
    (∀ t : Token, t.Fits →
      Token.ofJson t.toJson = .ok t ∧ (Token.ofJson t.toJson).map Token.toJson = .ok t.toJson) ∧
    (∀ ts : List Token, (∀ t ∈ ts, t.Fits) →
      Token.listOfJson (Token.listToJson ts) = .ok ts ∧
      (Token.listOfJson (Token.listToJson ts)).map Token.listToJson =
        .ok (Token.listToJson ts)) := by
  constructor
  · intro t h
    have hdecode : Token.ofJson t.toJson = .ok t := (Token.readsBack h).decode
    exact ⟨hdecode, by rw [hdecode]; rfl⟩
  · intro ts h
    have hdecode : Token.listOfJson (Token.listToJson ts) = .ok ts :=
      (Json.readsBack_array fun t ht => Token.readsBack (h t ht)).decode
    exact ⟨hdecode, by rw [hdecode]; rfl⟩

/-- A token whose text needs every sort of escape, at the last places that count, its end before
its start. -/
theorem Token.json_roundtrip_escapes :
    let t : Token := ⟨.string, "'\"\\\t\x01😀'", ⟨Json.maxUnsigned, 7⟩, ⟨0, Json.maxUnsigned⟩⟩
    t.toJson = "\x7b\n\t\"Text\": \"'\\\"\\\\\\t\\u0001😀'\",\n\t\"Kind\": \"STRING\",\n" ++
      "\t\"Start\": \x7b\n\t\t\"Line\": 18446744073709551615,\n\t\t\"Column\": 7\n\t\x7d,\n" ++
      "\t\"End\": \x7b\n\t\t\"Line\": 0,\n\t\t\"Column\": 18446744073709551615\n\t\x7d\n\x7d" ∧
    Token.ofJson t.toJson = .ok t ∧ Token.listOfJson (Token.listToJson [t, t]) = .ok [t, t] := by
  intro t
  have h : t.Fits := by simp [t, Token.Fits, Position.Fits, Json.maxUnsigned]
  refine ⟨by decide +kernel, (Token.json_roundtrip.1 t h).1, (Token.json_roundtrip.2 [t, t] ?_).1⟩
  simp [h]

end JsLexer
