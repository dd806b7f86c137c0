import Mathlib.Tactic.SplitIfs
import NfOrchestrator.Text.Str

/-!
# NfOrchestrator.Text.Lines

**A text line by line.** `splitlines` cuts a text at ten kinds of line break; lowercasing
changes none of them and looks past none of them. So a text that holds no line break
occurs in a lowercased text exactly where it occurs in one of the lowercased lines
(`infix_lowerChars_iff`), and translating line endings changes no line
(`splitlinesChars_universalNewlines`).
-/

namespace NfOrchestrator.Str

open NfOrchestrator.Unicode

/-- No line ends within these characters. -/
def Unbroken (cs : List Char) : Prop := ∀ c ∈ cs, isLineBreak c = false

/-- `brk`, followed by `rest`, is one end of a line. -/
def EndsLine (brk rest : List Char) : Prop :=
  brk = ['\r', '\n'] ∨
    ∃ c, brk = [c] ∧ isLineBreak c = true ∧ (c = '\r' → ∀ after, rest ≠ '\n' :: after)

theorem EndsLine.isLineBreak {brk rest : List Char} (h : EndsLine brk rest) {c : Char}
    (hc : c ∈ brk) : isLineBreak c = true := by
  obtain rfl | ⟨d, rfl, hd, -⟩ := h
  · rcases List.mem_cons.mp hc with rfl | hc
    · decide
    · obtain rfl := List.mem_singleton.mp hc
      decide
  · exact List.mem_singleton.mp hc ▸ hd

/-! ### Cutting a text into lines -/

theorem splitlinesChars_cons {line rest : List Char} {c : Char}
    (h : c = '\r' → ∀ after, rest ≠ '\n' :: after) :
    splitlinesChars line (c :: rest) =
      if isLineBreak c then line.reverse :: splitlinesChars [] rest
      else splitlinesChars (c :: line) rest := by
  rw [splitlinesChars]
  exact fun after hc hrest => h hc after hrest

theorem splitlinesChars_unbroken {line cs rest : List Char} (h : Unbroken cs) :
    splitlinesChars line (cs ++ rest) = splitlinesChars (cs.reverse ++ line) rest := by
  induction cs generalizing line with
  | nil => rfl
  | cons c cs ih =>
      have hc := h c List.mem_cons_self
      have hreturn : c ≠ '\r' := by
        rintro rfl
        exact absurd hc (by decide)
      rw [List.cons_append, splitlinesChars_cons fun h => absurd h hreturn, if_neg (by simp [hc]),
        ih fun d hd => h d (List.mem_cons_of_mem c hd)]
      simp

/-- A text without a line break is a line, unless it is empty. -/
theorem splitlinesChars_last {line : List Char} (h : Unbroken line) :
    splitlinesChars [] line = if line.isEmpty then [] else [line] := by
  have hcut : splitlinesChars [] (line ++ []) = splitlinesChars (line.reverse ++ []) [] :=
    splitlinesChars_unbroken h
  rw [List.append_nil, List.append_nil] at hcut
  rw [hcut, splitlinesChars]
  simp

theorem splitlinesChars_break {line brk rest : List Char} (h : EndsLine brk rest) :
    splitlinesChars line (brk ++ rest) = line.reverse :: splitlinesChars [] rest := by
  obtain rfl | ⟨c, rfl, hc, hreturn⟩ := h
  · rfl
  · rw [List.singleton_append, splitlinesChars_cons hreturn, if_pos hc]

/-- The first line of a text ends at its first line break. -/
theorem splitlinesChars_more {line brk rest : List Char} (h : Unbroken line)
    (hbrk : EndsLine brk rest) :
    splitlinesChars [] (line ++ brk ++ rest) = line :: splitlinesChars [] rest := by
  rw [List.append_assoc, splitlinesChars_unbroken h, splitlinesChars_break hbrk]
  simp

/-- Every text is a line without an end, or a line, its end and a text. -/
theorem lines_induction {motive : List Char → Prop} (last : ∀ line, Unbroken line → motive line)
    (more : ∀ line brk rest, Unbroken line → EndsLine brk rest → motive rest →
      motive (line ++ brk ++ rest)) (cs : List Char) : motive cs := by
  induction hlength : cs.length using Nat.strong_induction_on generalizing cs with
  | _ n ih =>
      subst hlength
      cases hdrop : cs.dropWhile fun c => !isLineBreak c with
      | nil =>
          rw [List.dropWhile_eq_nil_iff] at hdrop
          exact last cs fun c hc => by simpa using hdrop c hc
      | cons c rest =>
          have hsplit : cs = cs.takeWhile (fun c => !isLineBreak c) ++ c :: rest := by
            rw [← hdrop, List.takeWhile_append_dropWhile]
          have hline : Unbroken (cs.takeWhile fun c => !isLineBreak c) :=
            fun d hd => by simpa using List.mem_takeWhile_imp hd
          have hc : isLineBreak c = true := by
            have hhead := List.head?_dropWhile_not (fun c => !isLineBreak c) cs
            simpa [hdrop] using hhead
          generalize cs.takeWhile (fun c => !isLineBreak c) = line at hsplit hline
          subst hsplit
          by_cases hpair : c = '\r' ∧ ∃ after, rest = '\n' :: after
          · obtain ⟨rfl, after, rfl⟩ := hpair
            have hmore := more line ['\r', '\n'] after hline (.inl rfl)
              (ih _ (by simp; omega) after rfl)
            simpa using hmore
          · have hends : EndsLine [c] rest :=
              .inr ⟨c, rfl, hc, fun hcr after hafter => hpair ⟨hcr, after, hafter⟩⟩
            have hmore := more line [c] rest hline hends (ih _ (by simp; omega) rest rfl)
            simpa using hmore

/-- A line holds no line break. -/
theorem unbroken_of_mem {cs line : List Char} (h : line ∈ splitlinesChars [] cs) :
    Unbroken line := by
  induction cs using lines_induction with
  | last l hl =>
      rw [splitlinesChars_last hl] at h
      split_ifs at h
      · cases h
      · exact List.mem_singleton.mp h ▸ hl
  | more l brk rest hl hbrk ih =>
      rw [splitlinesChars_more hl hbrk] at h
      rcases List.mem_cons.mp h with rfl | h
      · exact hl
      · exact ih h

/-- Lines that each end in a line feed are cut at these line feeds. -/
theorem splitlinesChars_flatMap {lines : List (List Char)} (h : ∀ line ∈ lines, Unbroken line) :
    splitlinesChars [] (lines.flatMap fun line => line ++ ['\n']) = lines := by
  induction lines with
  | nil => rfl
  | cons line rest ih =>
      rw [List.flatMap_cons, splitlinesChars_more (h line List.mem_cons_self)
        (.inr ⟨'\n', rfl, by decide, fun hreturn => absurd hreturn (by decide)⟩),
        ih fun l hl => h l (List.mem_cons_of_mem line hl)]

/-! ### Line endings -/

def universalNewlinesChars : List Char → List Char
  | [] => []
  | '\r' :: '\n' :: rest => '\n' :: universalNewlinesChars rest
  | c :: rest => (if c = '\r' then '\n' else c) :: universalNewlinesChars rest

/-- The translation of line endings that `open` makes in text mode. -/
def universalNewlines (s : String) : String := String.ofList (universalNewlinesChars s.toList)

theorem universalNewlinesChars_cons {c : Char} {rest : List Char}
    (h : c = '\r' → ∀ after, rest ≠ '\n' :: after) :
    universalNewlinesChars (c :: rest) =
      (if c = '\r' then '\n' else c) :: universalNewlinesChars rest := by
  rw [universalNewlinesChars]
  exact fun after hc hrest => h hc after hrest

theorem universalNewlinesChars_unbroken {cs rest : List Char} (h : Unbroken cs) :
    universalNewlinesChars (cs ++ rest) = cs ++ universalNewlinesChars rest := by
  induction cs with
  | nil => rfl
  | cons c cs ih =>
      have hreturn : c ≠ '\r' := by
        rintro rfl
        exact absurd (h _ List.mem_cons_self) (by decide)
      rw [List.cons_append, universalNewlinesChars_cons fun h => absurd h hreturn, if_neg hreturn,
        ih fun d hd => h d (List.mem_cons_of_mem c hd)]
      rfl

theorem universalNewlinesChars_break {brk rest : List Char} (h : EndsLine brk rest) :
    ∃ brk', universalNewlinesChars (brk ++ rest) = brk' ++ universalNewlinesChars rest ∧
      EndsLine brk' (universalNewlinesChars rest) := by
  obtain rfl | ⟨c, rfl, hc, hreturn⟩ := h
  · exact ⟨['\n'], rfl, .inr ⟨'\n', rfl, by decide, fun h => absurd h (by decide)⟩⟩
  · refine ⟨[if c = '\r' then '\n' else c], universalNewlinesChars_cons hreturn, .inr ⟨_, rfl, ?_⟩⟩
    by_cases hcr : c = '\r'
    · rw [if_pos hcr]
      exact ⟨by decide, fun h => absurd h (by decide)⟩
    · rw [if_neg hcr]
      exact ⟨hc, fun h => absurd h hcr⟩

/-- A text has the same lines after its line endings are translated. -/
theorem splitlinesChars_universalNewlines (cs : List Char) :
    splitlinesChars [] (universalNewlinesChars cs) = splitlinesChars [] cs := by
  induction cs using lines_induction with
  | last line h =>
      have hsame : universalNewlinesChars (line ++ []) = line ++ universalNewlinesChars [] :=
        universalNewlinesChars_unbroken h
      rw [List.append_nil, universalNewlinesChars, List.append_nil] at hsame
      rw [hsame]
  | more line brk rest hline hbrk ih =>
      obtain ⟨brk', htranslated, hbrk'⟩ := universalNewlinesChars_break hbrk
      rw [splitlinesChars_more hline hbrk, List.append_assoc, universalNewlinesChars_unbroken hline,
        htranslated, ← List.append_assoc, splitlinesChars_more hline hbrk', ih]

theorem splitlines_universalNewlines (s : String) :
    splitlines (universalNewlines s) = splitlines s := by
  rw [splitlines, universalNewlines, String.toList_ofList, splitlinesChars_universalNewlines,
    splitlines]

/-! ### Lowercasing -/

/-- The code points of the line breaks. -/
def lineBreaks : List ℕ := [0xa, 0xb, 0xc, 0xd, 0x1c, 0x1d, 0x1e, 0x85, 0x2028, 0x2029]

theorem isLineBreak_iff {c : Char} : isLineBreak c = true ↔ c.toNat ∈ lineBreaks := by
  simp only [isLineBreak, inRanges, List.any_cons, List.any_nil, Bool.or_false, Bool.or_eq_true,
    Bool.and_eq_true, decide_eq_true_eq, lineBreaks, List.mem_cons, List.not_mem_nil, or_false]
  omega

theorem toNat_ofNat_or (n : ℕ) : (Char.ofNat n).toNat = n ∨ (Char.ofNat n).toNat = 0 := by
  by_cases h : n.isValidChar
  · rw [Char.ofNat, dif_pos h]
    exact .inl rfl
  · rw [Char.ofNat, dif_neg h]
    exact .inr rfl

/-- Lowercasing leads into none of these ranges from outside, where that is so for ASCII and for
the ranges of the table. -/
theorem lowerChar_outside {ranges : List (ℕ × ℕ)} {c : Char} (hzero : inRanges ranges 0 = false)
    (hascii : ∀ n < 0x80, inRanges ranges (Char.ofNat n).toNat = false →
      inRanges ranges (Char.ofNat n).toLower.toNat = false)
    (hdotted : inRanges ranges 0x69 = false ∧ inRanges ranges 0x307 = false)
    (htable : ∀ r ∈ caseRanges, ∀ b ∈ ranges,
      (r.hi : ℤ) + r.delta < b.1 ∨ (b.2 : ℤ) < r.lo + r.delta)
    (h : inRanges ranges c.toNat = false) : ∀ d ∈ lowerChar c, inRanges ranges d.toNat = false := by
  rw [lowerChar]
  split_ifs with hsmall
  · have hc := hascii c.toNat hsmall
    rw [Char.ofNat_toNat] at hc
    simpa using hc h
  · simpa using hdotted
  · split
    · rename_i r hr
      have hmem := List.mem_of_find?_eq_some hr
      have hrange := List.find?_some hr
      simp only [Bool.and_eq_true, decide_eq_true_eq] at hrange
      obtain ⟨⟨hlo, hhi⟩, -⟩ := hrange
      simp only [List.mem_singleton, forall_eq]
      obtain hcode | hcode := toNat_ofNat_or ((c.toNat : ℤ) + r.delta).toNat
      · rw [hcode, inRanges, List.any_eq_false]
        intro b hb hin
        simp only [Bool.and_eq_true, decide_eq_true_eq] at hin
        have hoff := htable r hmem b hb
        -- a code point below zero would be zero, and that is in no range
        have hnot : ¬b.1 = 0 := by
          intro hfirst
          rw [inRanges, List.any_eq_false] at hzero
          exact hzero b hb (by simp [hfirst])
        omega
      · rw [hcode]
        exact hzero
    · simpa using h

/-- No lowercase is a line break, but that of a line break. -/
theorem unbroken_lowerChar {c : Char} (h : isLineBreak c = false) : Unbroken (lowerChar c) :=
  lowerChar_outside (by decide) (by decide +kernel) (by decide) (by decide +kernel) h

theorem unbroken_lowerChars {beforeRev cs : List Char} (h : Unbroken cs) :
    Unbroken (lowerChars beforeRev cs) := by
  induction cs generalizing beforeRev with
  | nil => simp [Unbroken, lowerChars]
  | cons c rest ih =>
      intro d hd
      rw [lowerChars, List.mem_append] at hd
      rcases hd with hd | hd
      · split_ifs at hd
        · obtain rfl := List.mem_singleton.mp hd
          decide
        · obtain rfl := List.mem_singleton.mp hd
          decide
        · exact unbroken_lowerChar (h c List.mem_cons_self) d hd
      · exact ih (fun e he => h e (List.mem_cons_of_mem c he)) d hd

theorem dropWhile_append_cons {p : Char → Bool} {xs ys : List Char} {c : Char} (hc : p c = false) :
    (xs ++ c :: ys).dropWhile p = xs.dropWhile p ++ c :: ys := by
  rw [List.dropWhile_append]
  cases hxs : xs.dropWhile p with
  | nil => simp [hc]
  | cons d rest => simp

/-- `c` is no letter, and none that a word goes on past. -/
def Separates (c : Char) : Prop :=
  caseIgnorable c = false ∧ cased c = false ∧ c ≠ 'Σ' ∧ lowerChar c = [c]

instance (c : Char) : Decidable (Separates c) := inferInstanceAs (Decidable (_ ∧ _))

/-- A line break is no letter, and none that a word goes on past. -/
theorem separates_of_isLineBreak {c : Char} (h : isLineBreak c = true) : Separates c := by
  have hall : ∀ n ∈ lineBreaks, Separates (Char.ofNat n) := by decide +kernel
  have hc := hall c.toNat (isLineBreak_iff.mp h)
  rwa [Char.ofNat_toNat] at hc

section sigma

variable {beforeRev after xs ys : List Char} {c : Char}

/-- A word ends at a separator. -/
theorem finalSigma_separator_after (hc : Separates c) :
    finalSigma beforeRev (xs ++ c :: ys) = finalSigma beforeRev xs := by
  obtain ⟨hignorable, hcased, -, -⟩ := hc
  rw [finalSigma, finalSigma, dropWhile_append_cons hignorable]
  cases xs.dropWhile caseIgnorable with
  | nil => simp [hcased]
  | cons d rest => rfl

/-- A word begins after a separator. -/
theorem finalSigma_separator_before (hc : Separates c) :
    finalSigma (xs ++ c :: ys) after = finalSigma xs after := by
  obtain ⟨hignorable, hcased, -, -⟩ := hc
  rw [finalSigma, finalSigma, dropWhile_append_cons hignorable]
  cases xs.dropWhile caseIgnorable with
  | nil => simp [hcased]
  | cons d rest => rfl

theorem lowerChars_separator_before (hc : Separates c) (cs : List Char) :
    lowerChars (xs ++ c :: ys) cs = lowerChars xs cs := by
  induction cs generalizing xs with
  | nil => rfl
  | cons d rest ih =>
      have hrest : lowerChars (d :: xs ++ c :: ys) rest = lowerChars (d :: xs) rest := ih
      rw [List.cons_append] at hrest
      rw [lowerChars, lowerChars, finalSigma_separator_before hc, hrest]

theorem lowerChars_separator_after (hc : Separates c) :
    lowerChars beforeRev (xs ++ c :: ys) = lowerChars beforeRev xs ++ c :: lowerChars [] ys := by
  induction xs generalizing beforeRev with
  | nil =>
      obtain ⟨-, -, hsigma, hlower⟩ := id hc
      show lowerChars beforeRev (c :: ys) = c :: lowerChars [] ys
      rw [lowerChars, if_neg hsigma, hlower, ← List.nil_append (c :: beforeRev),
        lowerChars_separator_before hc]
      rfl
  | cons d rest ih =>
      rw [List.cons_append, lowerChars, lowerChars, ih, finalSigma_separator_after hc,
        List.append_assoc]

end sigma

/-- A text is lowercased line by line. -/
theorem lowerChars_more {line brk rest : List Char} (h : EndsLine brk rest) :
    lowerChars [] (line ++ brk ++ rest) = lowerChars [] line ++ brk ++ lowerChars [] rest := by
  obtain rfl | ⟨c, rfl, hc, -⟩ := h
  · have hfeed :
        lowerChars [] ([] ++ '\n' :: rest) = lowerChars [] [] ++ '\n' :: lowerChars [] rest :=
      lowerChars_separator_after (separates_of_isLineBreak (by decide))
    rw [List.nil_append, lowerChars, List.nil_append] at hfeed
    rw [List.append_assoc, List.cons_append, List.singleton_append,
      lowerChars_separator_after (separates_of_isLineBreak (by decide)), hfeed, List.append_assoc]
    rfl
  · rw [List.append_assoc, List.singleton_append,
      lowerChars_separator_after (separates_of_isLineBreak hc), List.append_assoc]
    rfl

/-! ### Where a term occurs -/

theorem infix_append_cons_iff {α : Type} {t a b : List α} {c : α} (h : c ∉ t) :
    t <:+: a ++ c :: b ↔ t <:+: a ∨ t <:+: b := by
  constructor
  · intro hx
    obtain ⟨s, u, hsplit⟩ := hx
    rw [List.append_assoc, List.append_eq_append_iff] at hsplit
    obtain ⟨a', rfl, hrest⟩ | ⟨s', rfl, hrest⟩ := hsplit
    · -- the occurrence begins before `c`, so it ends there too
      refine .inl (List.IsInfix.trans ?_ (List.suffix_append _ _).isInfix)
      obtain ⟨a'', rfl, -⟩ | ⟨t', rfl, hc⟩ := List.append_eq_append_iff.mp hrest
      · exact (List.prefix_append _ _).isInfix
      · cases t' with
        | nil => simp
        | cons d t' =>
            obtain ⟨rfl, -⟩ := List.cons.inj hc
            simp at h
    · cases s' with
      | cons d s' =>
          obtain ⟨-, rfl⟩ := List.cons.inj hrest
          exact .inr (by simp)
      | nil =>
          cases t with
          | nil => exact .inl (List.nil_infix)
          | cons d t =>
              obtain ⟨rfl, -⟩ := List.cons.inj hrest
              simp at h
  · intro hx
    rcases hx with h | h
    · exact h.trans (List.prefix_append _ _).isInfix
    · exact h.trans ((List.suffix_cons _ _).trans (List.suffix_append _ _)).isInfix

theorem infix_ended_iff {t a b brk rest : List Char} (ht : Unbroken t) (hbrk : EndsLine brk rest) :
    t <:+: a ++ brk ++ b ↔ t <:+: a ∨ t <:+: b := by
  have hnot : ∀ c, isLineBreak c = true → c ∉ t := by
    intro c hc hmem
    rw [ht c hmem] at hc
    cases hc
  obtain rfl | ⟨c, rfl, hc, -⟩ := hbrk
  · have hfeed := infix_append_cons_iff (a := []) (b := b) (hnot '\n' (by decide))
    rw [List.append_assoc, List.cons_append, List.singleton_append,
      infix_append_cons_iff (hnot '\r' (by decide)), ← List.nil_append ('\n' :: b), hfeed]
    refine or_congr_right (or_iff_right_of_imp fun hnil => ?_)
    exact List.eq_nil_of_infix_nil hnil ▸ List.nil_infix
  · rw [List.append_assoc, List.singleton_append, infix_append_cons_iff (hnot c hc)]

/-- A text without a line break occurs in a lowercased text where it occurs in one of the
lowercased lines. -/
theorem infix_lowerChars_iff {t : List Char} (hne : t ≠ []) (ht : Unbroken t) (cs : List Char) :
    t <:+: lowerChars [] cs ↔ ∃ line ∈ splitlinesChars [] cs, t <:+: lowerChars [] line := by
  induction cs using lines_induction with
  | last line h =>
      rw [splitlinesChars_last h]
      cases line with
      | nil => simpa [lowerChars] using hne
      | cons c rest => simp
  | more line brk rest hline hbrk ih =>
      rw [splitlinesChars_more hline hbrk, lowerChars_more hbrk, infix_ended_iff ht hbrk, ih,
        List.exists_mem_cons_iff]

theorem contains_lower_iff {needle hay : String} (hne : needle ≠ "")
    (hneedle : Unbroken needle.toList) :
    contains needle (lower hay) = true ↔
      ∃ line ∈ splitlines hay, contains needle (lower line) = true := by
  have hlower : ∀ s : String, (lower s).toList = lowerChars [] s.toList :=
    fun s => String.toList_ofList
  simp only [contains_iff, hlower, splitlines, List.mem_map, exists_exists_and_eq_and,
    String.toList_ofList]
  exact infix_lowerChars_iff (by simpa using hne) hneedle hay.toList

end NfOrchestrator.Str
