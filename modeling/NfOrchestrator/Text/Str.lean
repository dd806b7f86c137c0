import Mathlib.Data.List.Infix
import Mathlib.Data.List.TakeWhile
import Mathlib.Data.String.Basic
import NfOrchestrator.Text.Unicode

/-!
# NfOrchestrator.Text.Str

Python's `str` methods on Lean strings: `in`, `lower`, `strip`, `splitlines`,
`split(sep)[0]` and `join`, with the facts about substring tests that the
classification of error texts rests on.
-/

namespace NfOrchestrator.Str

open NfOrchestrator.Unicode

/-! ### Substrings -/

/-- `needle in hay`. -/
def contains (needle hay : String) : Bool := decide (needle.toList <:+: hay.toList)

theorem contains_iff {needle hay : String} :
    contains needle hay = true ↔ needle.toList <:+: hay.toList := decide_eq_true_iff

theorem contains_trans {a b c : String} (hab : contains a b = true)
    (hbc : contains b c = true) : contains a c = true :=
  contains_iff.mpr ((contains_iff.mp hab).trans (contains_iff.mp hbc))

/-- A text that lacks one character of the needle lacks the needle. -/
theorem not_contains_of_notMem {needle hay : String} {c : Char} (hc : c ∈ needle.toList)
    (hhay : c ∉ hay.toList) : contains needle hay = false := by
  rw [Bool.eq_false_iff]
  intro h
  exact hhay ((contains_iff.mp h).subset hc)

/-- `sep.join(parts)`. -/
def join (sep : String) (parts : List String) : String := String.intercalate sep parts

theorem contains_append_right {s a b : String} (h : contains s b = true) :
    contains s (a ++ b) = true := by
  rw [contains_iff] at h ⊢
  rw [String.toList_append]
  exact h.trans (List.suffix_append _ _).isInfix

/-- What is joined is in the result. -/
theorem contains_join {s sep : String} {parts : List String} (h : s ∈ parts) :
    contains s (join sep parts) = true := by
  rw [contains_iff, join, String.toList_intercalate]
  induction parts with
  | nil => cases h
  | cons part rest ih =>
      cases rest with
      | nil =>
          obtain rfl := List.mem_singleton.mp h
          simp
      | cons next rest =>
          rw [List.map_cons, List.map_cons, List.intercalate_cons_cons, List.append_assoc]
          rcases List.mem_cons.mp h with rfl | h
          · exact (List.prefix_append _ _).isInfix
          · exact ((ih h).trans (List.suffix_append _ _).isInfix).trans
              (List.suffix_append _ _).isInfix

/-- The characters before the first occurrence of `sep`. -/
def beforeChars (sep : List Char) : List Char → List Char
  | [] => []
  | c :: rest => if sep <+: c :: rest then [] else c :: beforeChars sep rest

/-- `s.split(sep)[0]`. -/
def before (sep s : String) : String := String.ofList (beforeChars sep.toList s.toList)

/-! ### `strip` and `splitlines` -/

/-- The characters between the spaces at both ends. -/
def trimChars (space : Char → Bool) (cs : List Char) : List Char :=
  ((cs.dropWhile space).reverse.dropWhile space).reverse

def stripChars (cs : List Char) : List Char := trimChars isSpace cs

/-- `s.strip()`. -/
def strip (s : String) : String := String.ofList (stripChars s.toList)

/-- A text with a character that is not a space is not blank. -/
theorem strip_ne_of_mem {s : String} {c : Char} (hc : c ∈ s.toList) (hspace : isSpace c = false) :
    strip s ≠ "" := by
  intro h
  have hnil : stripChars s.toList = [] := by
    rw [← String.toList_ofList (l := stripChars s.toList)]
    exact congrArg String.toList h
  rw [stripChars, trimChars, List.reverse_eq_nil_iff, List.dropWhile_eq_nil_iff] at hnil
  rw [← List.takeWhile_append_dropWhile (p := isSpace) (l := s.toList), List.mem_append] at hc
  rcases hc with hc | hc
  · exact absurd (List.mem_takeWhile_imp hc) (by simp [hspace])
  · exact absurd (hnil c (List.mem_reverse.mpr hc)) (by simp [hspace])

/-- The lines of a text; `line` holds the characters of the current one, last
first. `\r\n` ends one line, not two. -/
def splitlinesChars (line : List Char) : List Char → List (List Char)
  | [] => if line.isEmpty then [] else [line.reverse]
  | '\r' :: '\n' :: rest => line.reverse :: splitlinesChars [] rest
  | c :: rest =>
      if isLineBreak c then line.reverse :: splitlinesChars [] rest
      else splitlinesChars (c :: line) rest

/-- `s.splitlines()`. -/
def splitlines (s : String) : List String := (splitlinesChars [] s.toList).map String.ofList

/-! ### `lower` -/

/-- Is a `Σ` between these characters (those before it last first) the last
letter of a word? The nearest character that is not case-ignorable must be cased
before it and must not be cased after it. -/
def finalSigma (beforeRev after : List Char) : Bool :=
  match beforeRev.dropWhile caseIgnorable with
  | [] => false
  | b :: _ =>
      cased b &&
        match after.dropWhile caseIgnorable with
        | [] => true
        | a :: _ => !cased a

def lowerChars (beforeRev : List Char) : List Char → List Char
  | [] => []
  | c :: after =>
      (if c = 'Σ' then [if finalSigma beforeRev after then 'ς' else 'σ'] else lowerChar c) ++
        lowerChars (c :: beforeRev) after

/-- `s.lower()`. -/
def lower (s : String) : String := String.ofList (lowerChars [] s.toList)

/-- `c` cannot come out of lowercasing this character: it is an ASCII character
other than `c` in either case. -/
def LowersApart (c d : Char) : Prop := d.toNat < 0x80 ∧ d.toLower ≠ c

instance (c d : Char) : Decidable (LowersApart c d) := inferInstanceAs (Decidable (_ ∧ _))

theorem notMem_lowerChars {c : Char} {beforeRev cs : List Char}
    (h : ∀ d ∈ cs, LowersApart c d) : c ∉ lowerChars beforeRev cs := by
  induction cs generalizing beforeRev with
  | nil => simp [lowerChars]
  | cons d rest ih =>
      obtain ⟨hascii, hne⟩ := h d (by simp)
      have hsigma : d ≠ 'Σ' := by
        rintro rfl
        exact absurd hascii (by decide)
      have hlower : lowerChar d = [d.toLower] := by rw [lowerChar, if_pos hascii]
      rw [lowerChars, if_neg hsigma, hlower, List.mem_append, not_or, List.mem_singleton]
      exact ⟨Ne.symm hne, ih fun e he => h e (List.mem_cons_of_mem d he)⟩

/-- A text whose characters all lowercase apart from `c` does not say, in either
case, a needle that `c` is in. -/
theorem not_contains_lower {needle s : String} {c : Char} (hc : c ∈ needle.toList)
    (hs : ∀ d ∈ s.toList, LowersApart c d) : contains needle (lower s) = false := by
  refine not_contains_of_notMem hc ?_
  rw [lower, String.toList_ofList]
  exact notMem_lowerChars hs

end NfOrchestrator.Str
