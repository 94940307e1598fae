import JsLexer.Proofs.Interchange
import JsLexer.Proofs.Json.Truncation

/-!
Tokens that are cut short.

The text of a token, or of a list of tokens, is never taken for another one when its end is missing,
wherever it is cut: not inside a number, of which a shorter one is left, not inside the name of a
kind that starts with the name of another, and not behind a whole token of a list. It is never taken
for bad JSON, either, or for a token with a wrong field; decoding always asks for more.
-/

namespace JsLexer

open Json (IsCut Truncates)

theorem Position.truncates {p : Position} (h : p.Fits) :
    Truncates Position.record.read p.written := by
  refine (Position.fills h).truncates (forall_mem_two ?_ ?_)
  · rintro _ ⟨⟩ draft
    exact (Json.exhausts_natural h.1).map fun n => { draft with line := some n }
  · rintro _ ⟨⟩ draft
    exact (Json.exhausts_natural h.2).map fun n => { draft with column := some n }

theorem TokenKind.truncates (k : TokenKind) :
    Truncates TokenKind.readName (Json.text k.name) := by
  intro depth p cs hp hcs
  rw [readName, Json.truncates_text _ k.name depth hp hcs]

theorem Token.truncates {t : Token} (h : t.Fits) : Truncates Token.record.read t.written := by
  refine (Token.fills h).truncates (forall_mem_four ?_ ?_ ?_ ?_)
  · rintro _ ⟨⟩ draft
    have htext := (Json.truncates_text "a string" t.text).exhausts
    exact htext.map fun s => { draft with text := some s }
  · rintro _ ⟨⟩ draft
    exact (TokenKind.truncates t.kind).exhausts.map fun k => { draft with kind := some k }
  · rintro _ ⟨⟩ draft
    exact (Position.truncates h.1).exhausts.map fun p => { draft with start := some p }
  · rintro _ ⟨⟩ draft
    exact (Position.truncates h.2).exhausts.map fun p => { draft with stop := some p }

/-- Whatever is missing at the end of the text of a token, or of a list of tokens, what is left is
not decoded, and the error is always that the text ends too early. -/
theorem Token.json_cut_short :
    (∀ (t : Token) (s : String), t.Fits → IsCut s.toList t.toJson.toList →
      Token.ofJson s = .error .truncated) ∧
    ∀ (ts : List Token) (s : String), (∀ t ∈ ts, t.Fits) →
      IsCut s.toList (Token.listToJson ts).toList →
      Token.listOfJson s = .error .truncated := by
  constructor
  · intro t s h hs
    rw [toJson, Json.render, String.toList_ofList] at hs
    exact (Token.truncates h).decode (Token.readsBack h) hs
  · intro ts s h hs
    have hback : ∀ t ∈ ts, Json.ReadsBack Token.record.read t.written t := fun t ht =>
      Token.readsBack (h t ht)
    have hcut : ∀ t ∈ ts, Json.Exhausts Token.record.read t.written := fun t ht =>
      (Token.truncates (h t ht)).exhausts
    rw [listToJson, Json.render, String.toList_ofList] at hs
    exact (Json.truncates_array fun t ht => ⟨hback t ht, hcut t ht⟩).decode
      (Json.readsBack_array hback) hs

/-- A token that is cut inside a number, where a shorter number is left, and a list of two tokens
that is cut inside the name of a kind, where the name of another kind is left. -/
theorem Token.json_cut_short_digit_and_name :
    let t : Token := ⟨.orAssign, "|=", ⟨12, 0⟩, ⟨12, 2⟩⟩
    let digit := "\x7b\n\t\"Text\": \"|=\",\n\t\"Kind\": \"OR_ASSIGN\",\n\t\"Start\": \x7b\n" ++
      "\t\t\"Line\": 1"
    let name := "[\n\t\x7b\n\t\t\"Text\": \"|=\",\n\t\t\"Kind\": \"OR"
    t.Fits ∧ IsCut digit.toList t.toJson.toList ∧ Token.ofJson digit = .error .truncated ∧
      (∀ u ∈ [t, t], u.Fits) ∧ IsCut name.toList (Token.listToJson [t, t]).toList ∧
      Token.listOfJson name = .error .truncated := by
  intro t digit name
  have hfits : t.Fits := by simp [t, Token.Fits, Position.Fits, Json.maxUnsigned]
  have hboth : ∀ u ∈ [t, t], u.Fits := forall_mem_two hfits hfits
  have hdigit : IsCut digit.toList t.toJson.toList := by
    rw [Token.toJson, Json.render, String.toList_ofList]
    exact ⟨by decide +kernel, by decide +kernel⟩
  have hname : IsCut name.toList (Token.listToJson [t, t]).toList := by
    rw [Token.listToJson, Json.render, String.toList_ofList, String.toList_ofList]
    exact ⟨by decide +kernel, by decide +kernel⟩
  exact ⟨hfits, hdigit, Token.json_cut_short.1 t digit hfits hdigit, hboth, hname,
    Token.json_cut_short.2 [t, t] name hboth hname⟩

end JsLexer
