import JsLexer.Proofs.Settled

/-!
Changes of a text that its scan goes along with.

A change of texts may leave every decision of a scan as it was: the same categories get the text at
the same places, each takes what has become of the piece that it took before, and the scan comes to
the same end. Then the scan of the changed text gives the same tokens with their texts changed, at
the same positions, and fails with the same error if it fails.
-/

namespace JsLexer

/-- The outcome of a scan with `f` applied to every token. -/
def mapTokens (f : Token → Token) :
    Except ScanFailure (List Token) → Except ScanFailure (List Token)
  | .ok tokens => .ok (tokens.map f)
  | .error failure => .error ⟨failure.tokens.map f, failure.error⟩

/-- The categories decide on a text changed by `f` as on the text itself, and take pieces changed by
`g` there. -/
structure Builtin.Respects (bs : List Builtin) (f : List Char → List Char) (g : Piece → Piece) :
    Prop where
  nil : f [] = []
  claimant (cs : List Char) : claimant bs (f cs) = claimant bs cs
  failure (cs : List Char) : failure bs (f cs) = failure bs cs
  /-- A changed piece stands before what follows it, both by themselves. -/
  append {b : Builtin} {p : Piece} {r : List Char} : b.Accepts p.kind p.text →
    p.kind.endsBefore p.text r = true → f (p.text ++ r) = (g p).text ++ f r
  accepts {b : Builtin} {p : Piece} {r : List Char} : b.Accepts p.kind p.text →
    p.kind.endsBefore p.text r = true →
    b.Accepts (g p).kind (g p).text ∧ (g p).kind.endsBefore (g p).text (f r) = true
  after (q : Position) (p : Piece) : q.after (g p).text = q.after p.text

section
variable {bs : List Builtin} {f : List Char → List Char} {g : Piece → Piece}

/-- The changed text is divided into the changed pieces. -/
theorem Builtin.Divides.respects {ps : List Piece} {r : List Char} (h : Divides bs ps r)
    (hf : Respects bs f g) : Divides bs (ps.map g) (f r) ∧
      f (Piece.concat ps ++ r) = Piece.concat (ps.map g) ++ f r := by
  induction h with
  | nil r => exact ⟨.nil _, rfl⟩
  | @cons b p ps r hb hp hr _ ih =>
    obtain ⟨hdivides, hconcat⟩ := ih
    have hsplit := hf.append hp hr
    obtain ⟨hp', hr'⟩ := hf.accepts hp hr
    rw [← hf.claimant, hsplit, hconcat] at hb
    rw [hconcat] at hr' hsplit
    refine ⟨.cons hb hp' hr' hdivides, ?_⟩
    rw [List.map_cons, Piece.concat_cons, Piece.concat_cons, List.append_assoc, hsplit,
      List.append_assoc]

theorem Builtin.Respects.endOf (h : Respects bs f g) (q : Position) (ps : List Piece) :
    Piece.endOf q (ps.map g) = Piece.endOf q ps := by
  induction ps generalizing q with
  | nil => rfl
  | cons p ps ih => rw [List.map_cons, Piece.endOf, Piece.endOf, h.after, ih]

theorem Builtin.Respects.layOut (h : Respects bs f g) {t : Token → Token}
    (ht : ∀ q p, (g p).token q = t (p.token q)) (q : Position) (ps : List Piece) :
    Piece.layOut q (ps.map g) = (Piece.layOut q ps).map t := by
  induction ps generalizing q with
  | nil => rfl
  | cons p ps ih =>
    rw [List.map_cons, Piece.layOut, Piece.layOut, h.after, ih, ht, List.map_cons]

theorem Builtin.Respects.report (h : Respects bs f g) {t : Token → Token}
    (ht : ∀ q p, (g p).token q = t (p.token q)) (q : Position) (ps : List Piece) (r : List Char) :
    Piece.report bs q (ps.map g) (f r) = mapTokens t (Piece.report bs q ps r) := by
  rw [Piece.report, Piece.report, h.failure, h.layOut ht, h.endOf]
  cases Builtin.failure bs r <;> rfl

/-- The scan of the changed text gives the changed tokens, and ends alike. -/
theorem Builtin.Respects.tokenizeWith (h : Respects bs f g) {t : Token → Token}
    (ht : ∀ q p, (g p).token q = t (p.token q)) (source : String) :
    tokenizeWith bs (String.ofList (f source.toList)) = mapTokens t (tokenizeWith bs source) := by
  obtain ⟨ps, r, hsource, hdivides, hend⟩ := exists_divides bs source.toList
  obtain ⟨hdivides', hconcat⟩ := hdivides.respects h
  have hend' : Halts bs (f r) := by
    refine hend.imp (fun hr => by rw [hr, h.nil]) fun hfailure => ?_
    rwa [h.failure]
  rw [tokenizeWith_of_divides hsource hdivides hend, ← h.report ht]
  exact tokenizeWith_of_divides (by rw [String.toList_ofList, hsource, hconcat]) hdivides' hend'

end

end JsLexer
