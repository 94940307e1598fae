/-!
The longest and the shortest start of a text that has a property.

Maximal munch is a statement about all starts of a text: the one that is taken has the property, and
no longer one has it. Two starts of the same text differ only if their lengths do, so there is at
most one longest start. A start is the longest if what follows it cannot make it go on.
-/

namespace JsLexer

/-- The text starts with `w`, which has the property, and with nothing longer that has it. -/
structure IsLongestPrefix (p : List Char → Prop) (w cs : List Char) : Prop where
  starts : w <+: cs
  holds : p w
  longest : ∀ v, v <+: cs → p v → v.length ≤ w.length

/-- The text starts with `w`, which has the property, and with nothing shorter that has it. -/
structure IsShortestPrefix (p : List Char → Prop) (w cs : List Char) : Prop where
  starts : w <+: cs
  holds : p w
  shortest : ∀ v, v <+: cs → p v → w.length ≤ v.length

variable {p : List Char → Prop} {v w cs : List Char}

theorem IsLongestPrefix.eq (hv : IsLongestPrefix p v cs) (hw : IsLongestPrefix p w cs) : v = w := by
  have hlength : v.length = w.length :=
    Nat.le_antisymm (hw.longest v hv.starts hv.holds) (hv.longest w hw.starts hw.holds)
  have hprefix := List.prefix_of_prefix_length_le hv.starts hw.starts (Nat.le_of_eq hlength)
  exact hprefix.eq_of_length hlength

/-- A start with the property is the longest one, or there is a longer one to look at next. -/
theorem exists_isLongestPrefix (hw : w <+: cs) (hp : p w) : ∃ v, IsLongestPrefix p v cs := by
  induction hleft : cs.length - w.length using Nat.strongRecOn generalizing w with
  | ind left ih =>
    by_cases hlonger : ∃ v, v <+: cs ∧ p v ∧ w.length < v.length
    · obtain ⟨v, hv, hpv, hlength⟩ := hlonger
      have hle := hv.length_le
      exact ih (cs.length - v.length) (by omega) hv hpv rfl
    · exact ⟨w, hw, hp, fun v hv hpv => Nat.le_of_not_lt fun hlength =>
        hlonger ⟨v, hv, hpv, hlength⟩⟩

/-- A start with the property is the shortest one, or there is a shorter one to look at next. -/
theorem exists_isShortestPrefix (hw : w <+: cs) (hp : p w) : ∃ v, IsShortestPrefix p v cs := by
  induction hlength : w.length using Nat.strongRecOn generalizing w with
  | ind length ih =>
    by_cases hshorter : ∃ v, v <+: cs ∧ p v ∧ v.length < w.length
    · obtain ⟨v, hv, hpv, hlt⟩ := hshorter
      exact ih v.length (hlength ▸ hlt) hv hpv rfl
    · exact ⟨w, hw, hp, fun v hv hpv => Nat.le_of_not_lt fun hlt => hshorter ⟨v, hv, hpv, hlt⟩⟩

/-- A start that cannot go on is the longest one. -/
theorem isLongestPrefix_append {r : List Char} (hw : p w)
    (hends : ∀ u, u <+: r → p (w ++ u) → u = []) : IsLongestPrefix p w (w ++ r) := by
  refine ⟨List.prefix_append w r, hw, fun v hv hpv => Nat.le_of_not_lt fun hlonger => ?_⟩
  obtain ⟨u, rfl⟩ := List.prefix_of_prefix_length_le (List.prefix_append w r) hv
    (Nat.le_of_lt hlonger)
  obtain rfl := hends u ((List.prefix_append_right_inj w).1 hv) hpv
  simp at hlonger

/-- The longest start that is made of certain code points ends before the first of another sort. -/
theorem isLongestPrefix_forall {q : Char → Bool} {w r : List Char} (hw : ∀ c ∈ w, q c = true)
    (hr : r.head?.all (!q ·) = true) :
    IsLongestPrefix (fun w => ∀ c ∈ w, q c = true) w (w ++ r) := by
  refine isLongestPrefix_append hw fun u hu hq => ?_
  cases u with
  | nil => rfl
  | cons c u =>
    obtain ⟨r, rfl⟩ := hu
    have hc : q c = true := hq c (by simp)
    simp [hc] at hr

end JsLexer
