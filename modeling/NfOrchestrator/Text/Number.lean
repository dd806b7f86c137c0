import Mathlib.Data.Rat.Floor
import NfOrchestrator.Text.Str

/-!
# NfOrchestrator.Text.Number

Python's `format` on a number of seconds: the fixed-point presentations `.0f` and
`.2f`, and the general presentation `g`. Seconds are exact rationals, so the
digits are those of the rational, rounded half to even as `format` rounds the
exact value of a float.

What the proofs need of a formatted number is which characters it is made of
(`Numeral`), so that a message around it can be searched for a word.
-/

namespace NfOrchestrator.Str

/-- The characters a formatted number is made of. -/
def Numeral (c : Char) : Prop := c.isDigit = true ∨ c ∈ ['-', '+', '.', 'e']

instance (c : Char) : Decidable (Numeral c) := inferInstanceAs (Decidable (_ ∨ _))

/-- The decimal digits of a natural number. -/
def decimal (n : ℕ) : List Char := Nat.toDigits 10 n

theorem decimal_numeral {n : ℕ} {c : Char} (h : c ∈ decimal n) : Numeral c :=
  .inl (Nat.isDigit_of_mem_toDigits (by decide) (by decide) h)

/-- The nearest natural number to a nonnegative rational, ties to even. -/
def roundHalfEven (q : ℚ) : ℕ :=
  let down := q.floor.toNat
  let rest := q - down
  if rest < 1 / 2 ∨ (rest = 1 / 2 ∧ down % 2 = 0) then down else down + 1

/-- Zeros on the left up to `width` digits. -/
def padZeros (width : ℕ) (cs : List Char) : List Char :=
  List.replicate (width - cs.length) '0' ++ cs

/-- No zeros on the right. -/
def stripZeros (cs : List Char) : List Char := (cs.reverse.dropWhile (· == '0')).reverse

/-- A fractional part with its point, or nothing for an empty one. -/
def withPoint (frac : List Char) : List Char := if frac.isEmpty then [] else '.' :: frac

def signChars (q : ℚ) : List Char := if q < 0 then ['-'] else []

def fixedChars (places : ℕ) (q : ℚ) : List Char :=
  let scaled := roundHalfEven (|q| * 10 ^ places)
  signChars q ++ decimal (scaled / 10 ^ places) ++
    withPoint (if places = 0 then [] else padZeros places (decimal (scaled % 10 ^ places)))

/-- `format(q, ".{places}f")`. -/
def fixed (places : ℕ) (q : ℚ) : String := String.ofList (fixedChars places q)

/-- The exponent of the leading decimal digit of a positive rational. -/
def exponent10 (q : ℚ) : ℤ :=
  if 1 ≤ q then (decimal q.floor.toNat).length - 1
  else
    let k := (decimal (q.den / q.num.toNat)).length - 1
    if q.den ≤ q.num.toNat * 10 ^ k then -k else -(k + 1)

/-- The general presentation of a positive rational from its exponent and its six
significant digits. -/
def generalDigits (e : ℤ) (digits : List Char) : List Char :=
  if -4 ≤ e ∧ e < 6 then
    if 0 ≤ e then
      digits.take (e.toNat + 1) ++ withPoint (stripZeros (digits.drop (e.toNat + 1)))
    else
      '0' :: withPoint (List.replicate ((-e).toNat - 1) '0' ++ stripZeros digits)
  else
    digits.take 1 ++ withPoint (stripZeros (digits.drop 1)) ++
      ['e', if e < 0 then '-' else '+'] ++ padZeros 2 (decimal e.natAbs)

def generalChars (q : ℚ) : List Char :=
  if q = 0 then ['0']
  else
    let e := exponent10 |q|
    let digits := roundHalfEven (|q| * 10 ^ (5 - e))
    signChars q ++
      if digits < 10 ^ 6 then generalDigits e (decimal digits)
      else generalDigits (e + 1) (decimal (digits / 10))

/-- `format(q, "g")`. -/
def general (q : ℚ) : String := String.ofList (generalChars q)

/-! ### The characters of a formatted number -/

/-- A list made of numeral characters. -/
def Numerals (cs : List Char) : Prop := ∀ c ∈ cs, Numeral c

theorem Numerals.append {cs ds : List Char} (hc : Numerals cs) (hd : Numerals ds) :
    Numerals (cs ++ ds) := by
  intro c h
  rcases List.mem_append.mp h with h | h
  · exact hc c h
  · exact hd c h

theorem Numerals.cons {c : Char} {cs : List Char} (hc : Numeral c) (h : Numerals cs) :
    Numerals (c :: cs) := by
  intro d hd
  rcases List.mem_cons.mp hd with rfl | hd
  · exact hc
  · exact h d hd

theorem Numerals.sublist {cs ds : List Char} (h : Numerals ds) (hs : cs.Sublist ds) :
    Numerals cs := fun c hc => h c (hs.subset hc)

theorem numerals_nil : Numerals [] := by simp [Numerals]

theorem numerals_decimal (n : ℕ) : Numerals (decimal n) := fun _ h => decimal_numeral h

theorem numerals_replicate (n : ℕ) : Numerals (List.replicate n '0') := by
  intro c h
  rw [List.eq_of_mem_replicate h]
  decide

theorem numerals_stripZeros {cs : List Char} (h : Numerals cs) : Numerals (stripZeros cs) := by
  intro c hc
  have hmem : c ∈ cs.reverse := by
    exact (List.dropWhile_sublist _).subset (List.mem_reverse.mp hc)
  exact h c (List.mem_reverse.mp hmem)

theorem numerals_withPoint {cs : List Char} (h : Numerals cs) : Numerals (withPoint cs) := by
  unfold withPoint
  split
  · exact numerals_nil
  · exact h.cons (by decide)

theorem numerals_sign (q : ℚ) : Numerals (signChars q) := by
  unfold signChars
  split
  · exact numerals_nil.cons (by decide)
  · exact numerals_nil

theorem numerals_fixed (places : ℕ) (q : ℚ) : Numerals (fixedChars places q) := by
  refine ((numerals_sign q).append (numerals_decimal _)).append (numerals_withPoint ?_)
  split
  · exact numerals_nil
  · exact (numerals_replicate _).append (numerals_decimal _)

theorem numerals_generalDigits (e : ℤ) {ds : List Char} (h : Numerals ds) :
    Numerals (generalDigits e ds) := by
  have htail : ∀ n, Numerals (withPoint (stripZeros (ds.drop n))) := fun n =>
    numerals_withPoint (numerals_stripZeros (h.sublist (List.drop_sublist n ds)))
  have htake : ∀ n, Numerals (ds.take n) := fun n => h.sublist (List.take_sublist n ds)
  unfold generalDigits
  split_ifs
  · exact (htake _).append (htail _)
  · exact (numerals_withPoint ((numerals_replicate _).append (numerals_stripZeros h))).cons
      (by decide)
  · refine (((htake 1).append (htail 1)).append ?_).append
      ((numerals_replicate _).append (numerals_decimal _))
    exact (numerals_nil.cons (by decide)).cons (by decide)
  · refine (((htake 1).append (htail 1)).append ?_).append
      ((numerals_replicate _).append (numerals_decimal _))
    exact (numerals_nil.cons (by decide)).cons (by decide)

theorem numerals_general (q : ℚ) : Numerals (generalChars q) := by
  unfold generalChars
  split
  · exact numerals_nil.cons (by decide)
  · refine (numerals_sign q).append ?_
    split
    · exact numerals_generalDigits _ (numerals_decimal _)
    · exact numerals_generalDigits _ (numerals_decimal _)

/-- A numeral character is an ASCII character with no other case. -/
theorem LowersApart.of_numeral {c d : Char} (hd : Numeral d) (hc : ¬ Numeral c) :
    LowersApart c d := by
  have hne : d ≠ c := by
    rintro rfl
    exact hc hd
  have hplain : d.toNat < 0x80 ∧ d.toLower = d := by
    rcases hd with hd | hd
    · have hrange : 48 ≤ d.val ∧ d.val ≤ 57 := by
        simpa [Char.isDigit, and_comm] using hd
      have hmax : d.val.toNat ≤ 57 := hrange.2
      have hupper : ¬ (d.val ≥ 'A'.val ∧ d.val ≤ 'Z'.val) := by
        intro h
        obtain ⟨hlo, -⟩ := h
        have hmin : 65 ≤ d.val.toNat := hlo
        omega
      refine ⟨?_, ?_⟩
      · show d.val.toNat < 128
        omega
      · exact dif_neg hupper
    · simp only [List.mem_cons, List.not_mem_nil, or_false] at hd
      rcases hd with rfl | rfl | rfl | rfl <;> decide
  exact ⟨hplain.1, by rw [hplain.2]; exact hne⟩

example : fixed 0 (81 / 2) = "40" := by decide +kernel
example : general (3 / 4) = "0.75" := by decide +kernel
example : general (1234567 / 1) = "1.23457e+06" := by decide +kernel

end NfOrchestrator.Str
