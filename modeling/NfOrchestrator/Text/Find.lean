import NfOrchestrator.Text.Lines

/-!
# NfOrchestrator.Text.Find

Python's `str.find`: the first place, from `start` on, where a text occurs in another one
(`find_eq_some_iff`, `find_eq_none_iff`).
-/

namespace NfOrchestrator.Str

/-- `s.find(sub, start)`, or none for -1; `sub` is not empty. -/
def find (sub cs : List Char) (start : ℕ) : Option ℕ :=
  ((cs.drop start).tails.findIdx? fun rest => decide (sub <+: rest)).map (start + ·)

section find

variable {sub cs : List Char} {start found : ℕ}

theorem find_eq_some_iff : find sub cs start = some found ↔
    start ≤ found ∧ found ≤ max start cs.length ∧ sub <+: cs.drop found ∧
      ∀ k, start ≤ k → k < found → ¬sub <+: cs.drop k := by
  simp only [find, Option.map_eq_some_iff, List.findIdx?_eq_some_iff_getElem, List.length_tails,
    List.length_drop, List.getElem_tails, List.drop_drop, decide_eq_true_eq]
  constructor
  · intro h
    obtain ⟨i, ⟨hi, hhere, hbefore⟩, rfl⟩ := h
    refine ⟨Nat.le_add_right _ _, by omega, hhere, fun k hstart hk => ?_⟩
    have hnot := hbefore (k - start) (by omega)
    rwa [Nat.add_sub_cancel' hstart] at hnot
  · intro ⟨hstart, hlength, hhere, hbefore⟩
    refine ⟨found - start, ⟨by omega, ?_, fun j hj => ?_⟩, by omega⟩
    · rwa [Nat.add_sub_cancel' hstart]
    · exact hbefore (start + j) (by omega) (by omega)

theorem find_eq_none_iff :
    find sub cs start = none ↔ ∀ k, start ≤ k → ¬sub <+: cs.drop k := by
  simp only [find, Option.map_eq_none_iff, List.findIdx?_eq_none_iff, List.mem_tails,
    decide_eq_false_iff_not]
  constructor
  · intro h k hk hhere
    refine h (cs.drop k) ?_ hhere
    rw [← Nat.add_sub_cancel' hk, ← List.drop_drop]
    exact List.drop_suffix _ _
  · intro h rest hrest hhere
    obtain ⟨before, hsplit⟩ := hrest
    refine h (start + before.length) (Nat.le_add_right _ _) ?_
    rwa [← List.drop_drop, ← hsplit, List.drop_left]

end find

/-- A text occurs in another one where it begins at some place in it. -/
theorem infix_iff_prefix_drop {α : Type} {sub cs : List α} :
    sub <:+: cs ↔ ∃ k, sub <+: cs.drop k := by
  constructor
  · intro ⟨before, after, hsplit⟩
    exact ⟨before.length, after, by rw [← hsplit, List.append_assoc, List.drop_left]⟩
  · intro ⟨k, hk⟩
    exact hk.isInfix.trans (List.drop_suffix k cs).isInfix

/-- What begins before `c` and does not hold `c` ends before it. -/
theorem prefix_of_prefix_append_cons {α : Type} {t a b : List α} {c : α} (hc : c ∉ t)
    (h : t <+: a ++ c :: b) : t <+: a := by
  obtain hta | hat := List.prefix_or_prefix_of_prefix h (List.prefix_append a (c :: b))
  · exact hta
  · obtain ⟨more, rfl⟩ := hat
    rw [List.prefix_append_right_inj] at h
    cases more with
    | nil => simp
    | cons d more =>
        obtain ⟨rfl, -⟩ := List.cons_prefix_cons.mp h
        simp at hc

end NfOrchestrator.Str
