import JsLexer.Proofs.Counting

/-!
Texts in which every line break of carriage returns is a line feed.

A carriage return becomes a line feed and takes the line feed after it along, as it does where lines
are counted. So a text and its normal form count alike, the first code points of one become the
first code points of the other, and two texts can be normalized one after the other unless a line
break is divided between them.
-/

namespace JsLexer

/-- A text with a line feed for every carriage return, alone or with a line feed after it. -/
def normalize : List Char → List Char
  | [] => []
  | '\r' :: '\n' :: cs => '\n' :: normalize cs
  | '\r' :: cs => '\n' :: normalize cs
  | c :: cs => c :: normalize cs

/-- How many code points the first `n` of a text become. -/
def normalizedLength : List Char → Nat → Nat
  | [], n => n
  | _, 0 => 0
  | '\r' :: '\n' :: _, 1 => 1
  | '\r' :: '\n' :: cs, n + 2 => normalizedLength cs n + 1
  | _ :: cs, n + 1 => normalizedLength cs n + 1

@[simp]
theorem normalizedLength_zero (cs : List Char) : normalizedLength cs 0 = 0 := by
  unfold normalizedLength
  split <;> first | rfl | contradiction

/-! ### One code point -/

/-- A carriage return without a line feed after it. -/
theorem normalize_return {cs : List Char} (h : cs.head? ≠ some '\n') :
    normalize ('\r' :: cs) = '\n' :: normalize cs := by
  cases cs with
  | nil => rfl
  | cons c cs =>
    have hc : c ≠ '\n' := by simpa using h
    simp [normalize, hc]

/-- Other code points stay. -/
theorem normalize_cons {c : Char} (hc : c ≠ '\r') (cs : List Char) :
    normalize (c :: cs) = c :: normalize cs := by
  simp [normalize, hc]

/-- Either way it becomes a line feed. -/
theorem exists_normalize_return (cs : List Char) : ∃ cs', normalize ('\r' :: cs) = '\n' :: cs' := by
  by_cases h : cs.head? = some '\n'
  · obtain ⟨r, rfl⟩ := List.head?_eq_some_iff.1 h
    exact ⟨normalize r, rfl⟩
  · exact ⟨_, normalize_return h⟩

/-- A text and its normal form are both empty, or start with the halves of a line break, or start
with the same code point. -/
theorem normalize_start (cs : List Char) :
    cs = [] ∨ (∃ r r', cs = '\r' :: r ∧ normalize cs = '\n' :: r') ∨
      ∃ c r, c ≠ '\r' ∧ cs = c :: r ∧ normalize cs = c :: normalize r := by
  cases cs with
  | nil => exact .inl rfl
  | cons c cs =>
    by_cases hc : c = '\r'
    · subst hc
      obtain ⟨cs', hcs⟩ := exists_normalize_return cs
      exact .inr (.inl ⟨cs, cs', rfl, hcs⟩)
    · exact .inr (.inr ⟨c, cs, hc, rfl, normalize_cons hc cs⟩)

theorem head?_normalize (cs : List Char) :
    (normalize cs).head? = cs.head?.map fun c => if c = '\r' then '\n' else c := by
  rcases normalize_start cs with rfl | ⟨r, r', rfl, hcs⟩ | ⟨c, r, hc, rfl, hcs⟩
  · rfl
  · rw [hcs]
    rfl
  · simp [hcs, hc]

theorem head?_normalize_eq_some {c : Char} (hfeed : c ≠ '\n') (hreturn : c ≠ '\r')
    {cs : List Char} : (normalize cs).head? = some c ↔ cs.head? = some c := by
  rw [head?_normalize]
  cases cs with
  | nil => simp
  | cons d cs =>
    by_cases hd : d = '\r'
    · simp [hd, Ne.symm hfeed, Ne.symm hreturn]
    · simp [hd]

/-- What a normal form starts with, other than line feeds, the text starts with. -/
theorem normalize_eq_append {w cs r : List Char} (hw : '\n' ∉ w ∧ '\r' ∉ w)
    (h : normalize cs = w ++ r) : ∃ r', cs = w ++ r' ∧ r = normalize r' := by
  induction w generalizing cs with
  | nil => exact ⟨cs, rfl, h.symm⟩
  | cons c w ih =>
    simp only [List.mem_cons, not_or] at hw
    have hhead : (normalize cs).head? = some c := by rw [h]; rfl
    rw [head?_normalize_eq_some (Ne.symm hw.1.1) (Ne.symm hw.2.1)] at hhead
    obtain ⟨cs, rfl⟩ := List.head?_eq_some_iff.1 hhead
    rw [normalize_cons (Ne.symm hw.2.1)] at h
    obtain ⟨r', rfl, hr⟩ := ih ⟨hw.1.2, hw.2.2⟩ (List.cons.inj h).2
    exact ⟨r', rfl, hr⟩

/-- A test that does not tell the two halves of a line break apart comes out alike. -/
theorem any_head?_normalize {p : Char → Bool} (h : p '\n' = p '\r') (cs : List Char) :
    (normalize cs).head?.any p = cs.head?.any p := by
  rw [head?_normalize]
  cases cs with
  | nil => rfl
  | cons c cs => by_cases hc : c = '\r' <;> simp [hc, h]

theorem all_head?_normalize {p : Char → Bool} (h : p '\n' = p '\r') (cs : List Char) :
    (normalize cs).head?.all p = cs.head?.all p := by
  rw [head?_normalize]
  cases cs with
  | nil => rfl
  | cons c cs => by_cases hc : c = '\r' <;> simp [hc, h]

theorem normalizedLength_return {cs : List Char} (h : cs.head? ≠ some '\n') (n : Nat) :
    normalizedLength ('\r' :: cs) (n + 1) = normalizedLength cs n + 1 := by
  cases cs with
  | nil => simp [normalizedLength]
  | cons c cs =>
    have hc : c ≠ '\n' := by simpa using h
    simp [normalizedLength, hc]

theorem normalizedLength_cons {c : Char} (hc : c ≠ '\r') (cs : List Char) (n : Nat) :
    normalizedLength (c :: cs) (n + 1) = normalizedLength cs n + 1 := by
  simp [normalizedLength, hc]

/-- Induction along the line breaks of a text. -/
@[elab_as_elim]
theorem normalize_induction {P : List Char → Prop} (nil : P [])
    (pair : ∀ cs, P cs → P ('\r' :: '\n' :: cs))
    (alone : ∀ cs, cs.head? ≠ some '\n' → P cs → P ('\r' :: cs))
    (other : ∀ c cs, c ≠ '\r' → P cs → P (c :: cs)) (cs : List Char) : P cs := by
  induction cs using normalize.induct with
  | case1 => exact nil
  | case2 cs ih => exact pair cs ih
  | case3 cs hcs ih =>
    refine alone cs (fun hhead => ?_) ih
    obtain ⟨r, rfl⟩ := List.head?_eq_some_iff.1 hhead
    exact hcs r rfl
  | case4 c cs _ hc ih => exact other c cs hc ih

/-- No carriage return is left. -/
theorem notMem_normalize (cs : List Char) : '\r' ∉ normalize cs := by
  induction cs using normalize_induction with
  | nil => simp [normalize]
  | pair cs ih => simpa [normalize] using ih
  | alone cs hcs ih => simpa [normalize_return hcs] using ih
  | other c cs hc ih => simpa [normalize_cons hc, Ne.symm hc] using ih

/-! ### Parts of a text -/

/-- The first code points of a normal form are the normal form of the first code points. -/
theorem take_normalize (cs : List Char) (n : Nat) :
    (normalize cs).take (normalizedLength cs n) = normalize (cs.take n) := by
  induction cs using normalize_induction generalizing n with
  | nil => simp [normalize]
  | pair cs ih =>
    rcases n with _ | _ | n
    · simp [normalize]
    · rfl
    · rw [normalizedLength, normalize, List.take_succ_cons, ih]
      rfl
  | alone cs hcs ih =>
    cases n with
    | zero => simp [normalize]
    | succ n =>
      have htake : (cs.take n).head? ≠ some '\n' := by cases n <;> simp_all [List.head?_take]
      rw [normalizedLength_return hcs, normalize_return hcs, List.take_succ_cons,
        List.take_succ_cons, normalize_return htake, ih]
  | other c cs hc ih =>
    cases n with
    | zero => simp [normalize]
    | succ n =>
      rw [normalizedLength_cons hc, normalize_cons hc, List.take_succ_cons, List.take_succ_cons,
        normalize_cons hc, ih]

/-- Nothing changes without a carriage return. -/
theorem normalize_append_of_notMem {u : List Char} (hu : '\r' ∉ u) (v : List Char) :
    normalize (u ++ v) = u ++ normalize v := by
  induction u with
  | nil => rfl
  | cons c u ih =>
    rw [List.mem_cons, not_or] at hu
    rw [List.cons_append, normalize_cons (Ne.symm hu.1), ih hu.2, List.cons_append]

theorem normalizedLength_of_notMem {cs : List Char} {n : Nat} (h : '\r' ∉ cs.take n) :
    normalizedLength cs n = n := by
  induction cs generalizing n with
  | nil => rfl
  | cons c cs ih =>
    cases n with
    | zero => simp
    | succ n =>
      rw [List.take_succ_cons, List.mem_cons, not_or] at h
      rw [normalizedLength_cons (Ne.symm h.1), ih h.2]

/-- Two texts are normalized one after the other, unless a line break is divided between them. -/
theorem normalize_append {u v : List Char} (h : u.getLast? = some '\r' → v.head? ≠ some '\n') :
    normalize (u ++ v) = normalize u ++ normalize v := by
  induction u using normalize_induction with
  | nil => rfl
  | pair u ih =>
    have hlast : u.getLast? = some '\r' → v.head? ≠ some '\n' := fun hu =>
      h (by simp [List.getLast?_cons, hu])
    rw [List.cons_append, List.cons_append, normalize, normalize, ih hlast, List.cons_append]
  | alone u hu ih =>
    cases u with
    | nil => rw [List.singleton_append, normalize_return (h rfl)]; rfl
    | cons d u =>
      rw [List.getLast?_cons_cons] at h
      rw [List.cons_append, normalize_return (by simpa using hu), normalize_return hu, ih h,
        List.cons_append]
  | other c u hc ih =>
    have hlast : u.getLast? = some '\r' → v.head? ≠ some '\n' := fun hu =>
      h (by simp [List.getLast?_cons, hu])
    rw [List.cons_append, normalize_cons hc, normalize_cons hc, ih hlast, List.cons_append]

/-! ### Counting -/

/-- A text and its normal form count alike. -/
theorem Caret.position_normalize (p : Position) (cs : List Char) :
    (Caret.across ⟨p, false⟩ (normalize cs)).position = (Caret.across ⟨p, false⟩ cs).position := by
  induction cs using normalize_induction generalizing p with
  | nil => rfl
  | pair cs ih => exact ih ⟨p.line + 1, 0⟩
  | alone cs hcs ih =>
    rw [normalize_return hcs]
    exact (ih ⟨p.line + 1, 0⟩).trans (position_across ⟨⟨p.line + 1, 0⟩, true⟩ cs fun _ => hcs).symm
  | other c cs hc ih =>
    rw [normalize_cons hc, across_cons, across_cons]
    have hkeeps : (step ⟨p, false⟩ c).afterReturn = false := by
      rw [afterReturn_step, beq_false_of_ne hc]
    rcases hnext : step ⟨p, false⟩ c with ⟨q, a⟩
    rw [hnext] at hkeeps
    obtain rfl : a = false := hkeeps
    exact ih q

/-- A text and its normal form end at the same position. -/
theorem Position.after_normalize (p : Position) (cs : List Char) :
    p.after (normalize cs) = p.after cs := Caret.position_normalize p cs

end JsLexer
