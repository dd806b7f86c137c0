import NfOrchestrator.Scripts.Completeness
import NfOrchestrator.Text.Find

/-!
# NfOrchestrator.Scripts.Redaction

**Blanking the terms out of a path.** `redact` looks for a term in the lowercased text and
cuts the text itself at the offset it found. It always ends (`redactTerm_total`), and it
leaves no term behind where each cut of the text is the same cut of its lowercase
(`Fits`). A character that lowercases to two moves the offsets, and a `Σ` lowercases
by what is around it: then a term can stay. A text with the first, `İ`, always keeps the dot
that it lowercases to (`redact_leaves_dot`).
-/

namespace NfOrchestrator.Scripts

open Str Unicode

/-! ### The loops -/

/-- What stands for a term. -/
def blank : List Char := ['*', '*', '*']

/-- `text[:found] + "***" + text[found + length:]`. -/
def cut (text : List Char) (found length : ℕ) : List Char :=
  text.take found ++ blank ++ text.drop (found + length)

/-- The loop over the occurrences of one term, or none if `fuel` rounds do not end it. -/
def redactTerm (term : List Char) : ℕ → List Char → ℕ → Option (List Char)
  | 0, _, _ => none
  | fuel + 1, text, start =>
      match find term (lowerChars [] text) start with
      | some found => redactTerm term fuel (cut text found term.length) (found + 3)
      | none => some text

/-- The loop over the terms. -/
def redactTerms (fuel : ℕ) (terms : List (List Char)) (text : List Char) : Option (List Char) :=
  terms.foldlM (fun text term => redactTerm term fuel text 0) text

def redact (fuel : ℕ) (text : String) (terms : List String) : Option String :=
  (redactTerms fuel (terms.map String.toList) text.toList).map String.ofList

/-- `redact(text, terms)` returns `result`. -/
def Redacts (text : String) (terms : List String) (result : String) : Prop :=
  ∃ fuel, redact fuel text terms = some result

section round

variable {term text : List Char} {fuel start found : ℕ}

theorem redactTerm_some (h : find term (lowerChars [] text) start = some found) :
    redactTerm term (fuel + 1) text start =
      redactTerm term fuel (cut text found term.length) (found + 3) := by
  rw [redactTerm, h]

theorem redactTerm_none (h : find term (lowerChars [] text) start = none) :
    redactTerm term (fuel + 1) text start = some text := by
  rw [redactTerm, h]

end round

/-! ### More fuel -/

theorem redactTerm_mono {term text result : List Char} {fuel more start : ℕ} (h : fuel ≤ more)
    (hresult : redactTerm term fuel text start = some result) :
    redactTerm term more text start = some result := by
  induction fuel generalizing more text start with
  | zero => cases hresult
  | succ fuel ih =>
      cases more with
      | zero => omega
      | succ more =>
          cases hfind : find term (lowerChars [] text) start with
          | none => rwa [redactTerm_none hfind] at hresult ⊢
          | some found =>
              rw [redactTerm_some hfind] at hresult ⊢
              exact ih (Nat.le_of_succ_le_succ h) hresult

theorem redactTerms_cons {fuel : ℕ} {term : List Char} {terms : List (List Char)}
    {text result : List Char} : redactTerms fuel (term :: terms) text = some result ↔
      ∃ between, redactTerm term fuel text 0 = some between ∧
        redactTerms fuel terms between = some result := by
  rw [redactTerms, List.foldlM_cons]
  exact Option.bind_eq_some_iff

theorem redactTerms_mono {terms : List (List Char)} {text result : List Char} {fuel more : ℕ}
    (h : fuel ≤ more) (hresult : redactTerms fuel terms text = some result) :
    redactTerms more terms text = some result := by
  induction terms generalizing text with
  | nil => exact hresult
  | cons term terms ih =>
      obtain ⟨between, hterm, hrest⟩ := redactTerms_cons.mp hresult
      exact redactTerms_cons.mpr ⟨between, redactTerm_mono h hterm, ih hrest⟩

/-- `redact` returns one text at most. -/
theorem Redacts.unique {text result result' : String} {terms : List String}
    (h : Redacts text terms result) (h' : Redacts text terms result') : result = result' := by
  obtain ⟨fuel, hresult⟩ := h
  obtain ⟨fuel', hresult'⟩ := h'
  obtain ⟨chars, hchars, rfl⟩ := Option.map_eq_some_iff.mp hresult
  obtain ⟨chars', hchars', rfl⟩ := Option.map_eq_some_iff.mp hresult'
  have hsame := redactTerms_mono (le_max_left fuel fuel') hchars
  rw [redactTerms_mono (le_max_right fuel fuel') hchars'] at hsame
  rw [Option.some.inj hsame]

/-! ### The loops end -/

/-- Which characters of the lowercase of a text are no stars. -/
def shape (text : List Char) : List Bool := text.flatMap fun c => (lowerChar c).map (· != '*')

theorem shape_append (text more : List Char) : shape (text ++ more) = shape text ++ shape more :=
  List.flatMap_append

/-- The final-sigma rule makes no stars. -/
theorem map_lowerChars (beforeRev text : List Char) :
    (lowerChars beforeRev text).map (· != '*') = shape text := by
  induction text generalizing beforeRev with
  | nil => rfl
  | cons c rest ih =>
      rw [lowerChars, List.map_append, ih, shape, shape, List.flatMap_cons]
      congr 1
      by_cases hsigma : c = 'Σ'
      · subst hsigma
        rw [if_pos rfl]
        cases finalSigma beforeRev rest <;> decide
      · rw [if_neg hsigma]

theorem length_le_shape (text : List Char) : text.length ≤ (shape text).length := by
  induction text with
  | nil => simp
  | cons c rest ih =>
      have hone : 0 < (lowerChar c).length := List.length_pos_iff.mpr (lowerChar_ne_nil c)
      rw [shape, List.flatMap_cons, List.length_append, List.length_map]
      rw [shape] at ih
      simp only [List.length_cons]
      omega

/-- The characters of the lowercase from `start` on that are no stars. -/
def unstarred (text : List Char) (start : ℕ) : ℕ := ((shape text).drop start).count true

theorem unstarred_antitone (text : List Char) {start found : ℕ} (h : start ≤ found) :
    unstarred text found ≤ unstarred text start := by
  rw [unstarred, ← Nat.add_sub_cancel' h, ← List.drop_drop]
  exact (List.drop_sublist _ _).count_le true

/-- An occurrence of a term without stars. -/
theorem shape_at {term text : List Char} {found : ℕ} (hstar : '*' ∉ term)
    (hhere : term <+: (lowerChars [] text).drop found) :
    List.replicate term.length true <+: (shape text).drop found := by
  have hmap : term.map (· != '*') = List.replicate term.length true := by
    rw [List.map_eq_replicate_iff]
    intro c hc
    rw [bne_iff_ne]
    rintro rfl
    exact hstar hc
  rw [← hmap, ← map_lowerChars [] text, ← List.map_drop]
  exact hhere.map _

/-- The first of these bits is set; it is among those that the three clear ones take the
place of, or that `start` goes past. -/
theorem count_lt {before cutOut rest after : List Bool} {n : ℕ}
    (h : List.replicate (n + 1) true ++ after = before ++ (cutOut ++ rest))
    (hrest : cutOut = [] → rest = []) :
    ((before ++ ([false, false, false] ++ rest)).drop 3).count true <
      (before ++ (cutOut ++ rest)).count true := by
  rw [List.replicate_succ, List.cons_append] at h
  cases before with
  | nil =>
      cases cutOut with
      | nil =>
          rw [hrest rfl] at h
          cases h
      | cons b bits =>
          obtain ⟨rfl, -⟩ := List.cons.inj h
          simp only [List.nil_append, List.cons_append, List.drop_succ_cons, List.drop_zero,
            List.count_cons_self, List.count_append]
          omega
  | cons b bits =>
      obtain ⟨rfl, -⟩ := List.cons.inj h
      have hdrop := (List.drop_sublist 2 (bits ++ ([false, false, false] ++ rest))).count_le true
      simp at hdrop ⊢
      omega

/-- Wherever the cut falls, the loop comes nearer to its end. -/
theorem unstarred_cut {term text : List Char} {found : ℕ} (hne : term ≠ []) (hstar : '*' ∉ term)
    (hhere : term <+: (lowerChars [] text).drop found) :
    unstarred (cut text found term.length) (found + 3) < unstarred text found := by
  have hpos : 0 < term.length := List.length_pos_iff.mpr hne
  obtain ⟨after, hafter⟩ := shape_at hstar hhere
  obtain ⟨n, hn⟩ := Nat.exists_eq_add_of_lt hpos
  rw [Nat.zero_add] at hn
  rw [hn] at hafter ⊢
  -- the shape of the text up to the cut, of what is cut out, and of the rest
  have hsplit : text = text.take found ++ ((text.drop found).take (n + 1) ++
      text.drop (found + (n + 1))) := by
    rw [← List.drop_drop, List.take_append_drop, List.take_append_drop]
  have hshape := congrArg shape hsplit
  rw [shape_append, shape_append] at hshape
  have hlength : found ≤ (shape (text.take found)).length := by
    have hle := length_le_shape (text.take found)
    rw [List.length_take] at hle
    by_cases hfound : found ≤ text.length
    · omega
    · rw [List.take_of_length_le (by omega)]
      have hlong := congrArg List.length hafter
      simp at hlong
      omega
  rw [unstarred, unstarred, cut, shape_append, shape_append,
    show shape blank = [false, false, false] by decide]
  rw [hshape] at hafter ⊢
  rw [List.drop_append_of_le_length hlength] at hafter ⊢
  rw [List.append_assoc, ← List.drop_drop, List.drop_append_of_le_length hlength]
  refine count_lt hafter fun hcut => ?_
  have hempty : ((text.drop found).take (n + 1)).length = 0 := by
    have hle := length_le_shape ((text.drop found).take (n + 1))
    rw [hcut] at hle
    simpa using hle
  have hend : text.drop found = [] := by
    rw [List.length_take, List.length_drop] at hempty
    exact List.drop_eq_nil_of_le (by omega)
  rw [← List.drop_drop, hend]
  rfl

/-- The loop over one term ends. -/
theorem redactTerm_total {term : List Char} (hne : term ≠ []) (hstar : '*' ∉ term) {fuel : ℕ}
    {text : List Char} {start : ℕ} (h : unstarred text start < fuel) :
    ∃ result, redactTerm term fuel text start = some result := by
  induction fuel generalizing text start with
  | zero => omega
  | succ fuel ih =>
      cases hfind : find term (lowerChars [] text) start with
      | none => exact ⟨text, redactTerm_none hfind⟩
      | some found =>
          obtain ⟨hstart, -, hhere, -⟩ := find_eq_some_iff.mp hfind
          have hless := unstarred_cut hne hstar hhere
          have hmore := unstarred_antitone text hstart
          rw [redactTerm_some hfind]
          exact ih (by omega)

theorem redactTerms_total {terms : List (List Char)} (hne : ∀ term ∈ terms, term ≠ [])
    (hstar : ∀ term ∈ terms, '*' ∉ term) (text : List Char) :
    ∃ fuel result, redactTerms fuel terms text = some result := by
  induction terms generalizing text with
  | nil => exact ⟨0, text, rfl⟩
  | cons term terms ih =>
      obtain ⟨between, hterm⟩ := redactTerm_total (hne term List.mem_cons_self)
        (hstar term List.mem_cons_self) (Nat.lt_succ_self (unstarred text 0))
      obtain ⟨fuel, result, hrest⟩ := ih (fun t ht => hne t (List.mem_cons_of_mem term ht))
        (fun t ht => hstar t (List.mem_cons_of_mem term ht)) between
      refine ⟨max (unstarred text 0 + 1) fuel, result, redactTerms_cons.mpr ⟨between, ?_, ?_⟩⟩
      · exact redactTerm_mono (le_max_left _ _) hterm
      · exact redactTerms_mono (le_max_right _ _) hrest

/-! ### What stays -/

/-- The rounds of the loop over a term: the text and the start of each. -/
inductive Round (term text : List Char) : List Char → ℕ → Prop
  | first : Round term text text 0
  | next {now : List Char} {start found : ℕ} : Round term text now start →
      find term (lowerChars [] now) start = some found →
      Round term text (cut now found term.length) (found + 3)

/-- What `redactTerm` returns is the text of its last round. -/
theorem redactTerm_round {term text now result : List Char} {fuel start : ℕ}
    (hround : Round term text now start) (h : redactTerm term fuel now start = some result) :
    ∃ last, Round term text result last ∧ find term (lowerChars [] result) last = none := by
  induction fuel generalizing now start with
  | zero => cases h
  | succ fuel ih =>
      cases hfind : find term (lowerChars [] now) start with
      | none =>
          rw [redactTerm_none hfind] at h
          obtain rfl := Option.some.inj h
          exact ⟨start, hround, hfind⟩
      | some found =>
          rw [redactTerm_some hfind] at h
          exact ih (hround.next hfind) h

/-- The cut of the text is the same cut of its lowercase. -/
def Fits (text : List Char) (found length : ℕ) : Prop :=
  lowerChars [] (cut text found length) = cut (lowerChars [] text) found length

instance (text : List Char) (found length : ℕ) : Decidable (Fits text found length) :=
  inferInstanceAs (Decidable (_ = _))

/-- Every cut that `redact` makes fits. -/
def CutsFit : List (List Char) → List Char → Prop
  | [], _ => True
  | term :: terms, text => ∀ now start, Round term text now start →
      match find term (lowerChars [] now) start with
      | some found => Fits now found term.length
      | none => CutsFit terms now

/-- No occurrence of the term begins before `start`. -/
def ClearTo (term lowered : List Char) (start : ℕ) : Prop :=
  ∀ k < start, ¬term <+: lowered.drop k

theorem infix_cut {term text : List Char} {found length : ℕ} (hstar : '*' ∉ term)
    (h : term <:+: cut text found length) : term <:+: text := by
  have hcut : cut text found length =
      text.take found ++ '*' :: ([] ++ '*' :: ([] ++ '*' :: text.drop (found + length))) := by
    simp [cut, blank]
  rw [hcut, infix_append_cons_iff hstar, infix_append_cons_iff hstar,
    infix_append_cons_iff hstar] at h
  obtain h | h | h | h := h
  · exact h.trans (List.take_prefix _ _).isInfix
  · exact h.trans List.nil_infix
  · exact h.trans List.nil_infix
  · exact h.trans (List.drop_suffix _ _).isInfix

theorem clearTo_cut {term lowered : List Char} {start found : ℕ} (hne : term ≠ [])
    (hstar : '*' ∉ term) (hclear : ClearTo term lowered start)
    (hfind : find term lowered start = some found) :
    ClearTo term (cut lowered found term.length) (found + 3) := by
  obtain ⟨-, -, hhere, hbefore⟩ := find_eq_some_iff.mp hfind
  -- before the place that was found there is no occurrence, as far as the cut goes
  have hfirst : ∀ k < found, ¬term <+: lowered.drop k := fun k hk =>
    if hstart : k < start then hclear k hstart else hbefore k (Nat.le_of_not_lt hstart) hk
  have hlength : (lowered.take found).length = found := by
    have hle := hhere.length_le
    rw [List.length_drop] at hle
    have hpos : 0 < term.length := List.length_pos_iff.mpr hne
    rw [List.length_take]
    omega
  intro k hk hcut
  -- it would end before the last of the three stars, and so before the first
  have hmarked : k ≤ (lowered.take found ++ ['*', '*']).length := by
    rw [List.length_append, hlength]
    exact Nat.le_of_lt_succ hk
  have hends : term <+: (lowered.take found ++ ['*', '*']).drop k := by
    refine prefix_of_prefix_append_cons (b := lowered.drop (found + term.length)) hstar ?_
    rw [← List.drop_append_of_le_length hmarked]
    simpa [cut, blank] using hcut
  have hinfix : term <:+: lowered.take found ++ '*' :: ([] ++ ['*']) :=
    infix_iff_prefix_drop.mpr ⟨k, hends⟩
  rw [infix_append_cons_iff hstar, infix_append_cons_iff hstar] at hinfix
  have htake : term <:+: lowered.take found := by
    obtain h | h | h := hinfix
    · exact h
    · exact h.trans List.nil_infix
    · exact h.trans List.nil_infix
  obtain ⟨j, hj⟩ := infix_iff_prefix_drop.mp htake
  have hpos : 0 < term.length := List.length_pos_iff.mpr hne
  have hroom := hj.length_le
  rw [List.length_drop, hlength] at hroom
  rw [List.drop_take] at hj
  exact hfirst j (by omega) (hj.trans (List.take_prefix _ _))

/-- A term that occurs nowhere before `start` and is not found from there on is gone. -/
theorem not_infix_of_clearTo {term lowered : List Char} {start : ℕ}
    (hclear : ClearTo term lowered start) (hfind : find term lowered start = none) :
    ¬term <:+: lowered := by
  rw [infix_iff_prefix_drop, not_exists]
  intro k
  by_cases hk : k < start
  · exact hclear k hk
  · exact find_eq_none_iff.mp hfind k (Nat.le_of_not_lt hk)

/-- A round clears the text up to where the next one starts, and brings back no term. -/
theorem Round.clears {term text now : List Char} {start : ℕ} {terms : List (List Char)}
    (hne : term ≠ []) (hstar : '*' ∉ term) (hfits : CutsFit (term :: terms) text)
    (hround : Round term text now start) :
    ClearTo term (lowerChars [] now) start ∧
      ∀ gone, '*' ∉ gone → gone <:+: lowerChars [] now → gone <:+: lowerChars [] text := by
  induction hround with
  | first => exact ⟨fun k hk => absurd hk (Nat.not_lt_zero k), fun _ _ h => h⟩
  | @next now start found hround hfind ih =>
      have hcut := hfits now start hround
      rw [hfind] at hcut
      rw [show lowerChars [] (cut now found term.length) = _ from hcut]
      refine ⟨clearTo_cut hne hstar ih.1 hfind, fun gone hgone h => ?_⟩
      exact ih.2 gone hgone (infix_cut hgone h)

/-- No term is left where each cut fits, and no other one is made. -/
theorem redactTerms_clears {terms : List (List Char)} {text result : List Char} {fuel : ℕ}
    (hne : ∀ term ∈ terms, term ≠ []) (hstar : ∀ term ∈ terms, '*' ∉ term)
    (hfits : CutsFit terms text) (h : redactTerms fuel terms text = some result) :
    (∀ term ∈ terms, ¬term <:+: lowerChars [] result) ∧
      ∀ gone, '*' ∉ gone → gone <:+: lowerChars [] result → gone <:+: lowerChars [] text := by
  induction terms generalizing text with
  | nil =>
      obtain rfl : text = result := Option.some.inj h
      exact ⟨fun term hterm => absurd hterm List.not_mem_nil, fun _ _ h => h⟩
  | cons term terms ih =>
      obtain ⟨between, hterm, hrest⟩ := redactTerms_cons.mp h
      obtain ⟨last, hround, hlast⟩ := redactTerm_round .first hterm
      have hone := hne term List.mem_cons_self
      have hplain := hstar term List.mem_cons_self
      obtain ⟨hclear, hback⟩ := hround.clears hone hplain hfits
      have hfitsRest := hfits between last hround
      rw [hlast] at hfitsRest
      obtain ⟨hgone, hbackRest⟩ := ih (fun t ht => hne t (List.mem_cons_of_mem term ht))
        (fun t ht => hstar t (List.mem_cons_of_mem term ht)) hfitsRest hrest
      refine ⟨?_, fun gone hg h => hback gone hg (hbackRest gone hg h)⟩
      intro t ht
      rcases List.mem_cons.mp ht with rfl | ht
      · intro hstays
        exact not_infix_of_clearTo hclear hlast (hbackRest t hplain hstays)
      · exact hgone t ht

/-! ### Where every cut fits -/

/-- Neither the character that lowercases to two, nor the one that lowercases by what is
around it. -/
def Steady (text : List Char) : Prop := ∀ c ∈ text, c ≠ 'İ' ∧ c ≠ 'Σ'

instance (text : List Char) : Decidable (Steady text) :=
  List.decidableBAll (fun c => c ≠ 'İ' ∧ c ≠ 'Σ') text

theorem lowerChar_eq_singleton {c : Char} (h : c ≠ 'İ') :
    lowerChar c = [(lowerChar c).headD c] := by
  have hcode : c.toNat ≠ 0x130 := by
    intro hcode
    rw [← Char.ofNat_toNat c, hcode] at h
    exact h rfl
  rw [lowerChar, if_neg hcode]
  split_ifs
  · rfl
  · split <;> rfl

theorem Steady.lowerChars_eq_map {text : List Char} (h : Steady text) (beforeRev : List Char) :
    lowerChars beforeRev text = text.map fun c => (lowerChar c).headD c := by
  induction text generalizing beforeRev with
  | nil => rfl
  | cons c rest ih =>
      obtain ⟨hdotted, hsigma⟩ := h c List.mem_cons_self
      rw [lowerChars, if_neg hsigma, ih fun d hd => h d (List.mem_cons_of_mem c hd),
        lowerChar_eq_singleton hdotted]
      rfl

theorem Steady.after_cut {text : List Char} (h : Steady text) (found length : ℕ) :
    Steady (cut text found length) := by
  intro c hc
  rw [cut, List.mem_append, List.mem_append] at hc
  obtain (hc | hc) | hc := hc
  · exact h c (List.mem_of_mem_take hc)
  · obtain rfl : c = '*' := by simpa [blank] using hc
    decide
  · exact h c (List.mem_of_mem_drop hc)

theorem Steady.fits {text : List Char} (h : Steady text) (found length : ℕ) :
    Fits text found length := by
  rw [Fits, (h.after_cut found length).lowerChars_eq_map, h.lowerChars_eq_map, cut, cut,
    List.map_append, List.map_append, List.map_take, List.map_drop]
  rfl

theorem Steady.round {term text now : List Char} {start : ℕ} (h : Steady text)
    (hround : Round term text now start) : Steady now := by
  induction hround with
  | first => exact h
  | next _ _ ih => exact ih.after_cut _ _

theorem Steady.cutsFit {terms : List (List Char)} {text : List Char} (h : Steady text) :
    CutsFit terms text := by
  induction terms generalizing text with
  | nil => trivial
  | cons term terms ih =>
      intro now start hround
      cases find term (lowerChars [] now) start with
      | none => exact ih (h.round hround)
      | some found => exact (h.round hround).fits found term.length

/-! ### The dotted capital -/

theorem drop_lowerChars_dotted {before : List Char} (h : 'İ' ∉ before)
    (beforeRev after : List Char) : ∃ rest,
      (lowerChars beforeRev (before ++ 'İ' :: after)).drop before.length =
        'i' :: '\u0307' :: rest := by
  induction before generalizing beforeRev with
  | nil => exact ⟨_, rfl⟩
  | cons c before ih =>
      rw [List.mem_cons, not_or] at h
      obtain ⟨hc, hbefore⟩ := h
      obtain ⟨rest, hrest⟩ := ih hbefore (c :: beforeRev)
      refine ⟨rest, ?_⟩
      rw [List.cons_append, lowerChars, List.length_cons]
      by_cases hsigma : c = 'Σ'
      · rw [if_pos hsigma]
        exact hrest
      · rw [if_neg hsigma, lowerChar_eq_singleton (Ne.symm hc)]
        exact hrest

/-- The dot is found behind the first dotted capital, or elsewhere: never in its place. -/
theorem dotted_cut {text : List Char} {start found : ℕ} (h : 'İ' ∈ text)
    (hfind : find ['\u0307'] (lowerChars [] text) start = some found) :
    'İ' ∈ cut text found 1 := by
  obtain ⟨before, after, rfl, hbefore⟩ := List.eq_append_cons_of_mem h
  obtain ⟨-, -, hhere, -⟩ := find_eq_some_iff.mp hfind
  obtain ⟨rest, hrest⟩ := drop_lowerChars_dotted hbefore [] after
  rw [cut, List.mem_append, List.mem_append]
  obtain hlt | rfl | hgt := lt_trichotomy found before.length
  · refine .inr ?_
    rw [List.drop_append_of_le_length hlt]
    simp
  · rw [hrest] at hhere
    obtain ⟨hdot, -⟩ := List.cons_prefix_cons.mp hhere
    exact absurd hdot (by decide)
  · refine .inl (.inl ?_)
    obtain ⟨more, rfl⟩ := Nat.exists_eq_add_of_lt hgt
    rw [Nat.add_assoc, List.take_length_add_append]
    simp

theorem dotted_round {text now : List Char} {start : ℕ} (h : 'İ' ∈ text)
    (hround : Round ['\u0307'] text now start) : 'İ' ∈ now := by
  induction hround with
  | first => exact h
  | next _ hfind ih => exact dotted_cut ih hfind

/-! ### Redaction -/

/-- A text without a term goes through unchanged. -/
theorem redactTerms_absent {terms : List (List Char)} {text : List Char}
    (h : ∀ term ∈ terms, ¬term <:+: lowerChars [] text) : redactTerms 1 terms text = some text := by
  induction terms with
  | nil => rfl
  | cons term terms ih =>
      have hfind : find term (lowerChars [] text) 0 = none := by
        rw [find_eq_none_iff]
        intro k _ hk
        exact h term List.mem_cons_self (infix_iff_prefix_drop.mpr ⟨k, hk⟩)
      exact redactTerms_cons.mpr ⟨text, redactTerm_none hfind,
        ih fun t ht => h t (List.mem_cons_of_mem term ht)⟩

theorem mentions_iff {terms : List String} {text : String} :
    Mentions terms text ↔
      ∃ term ∈ terms.map String.toList, term <:+: lowerChars [] text.toList := by
  simp only [Mentions, contains_iff, lower, String.toList_ofList, List.mem_map,
    exists_exists_and_eq_and]

theorem ne_nil_of_parsed {raw : String} :
    ∀ term ∈ (parseTerms raw).map String.toList, term ≠ [] := by
  rw [List.forall_mem_map]
  intro term hterm
  simpa using (isTerm_of_mem hterm).ne_empty

theorem Redacts.clears {raw text result : String}
    (hstar : ∀ term ∈ parseTerms raw, '*' ∉ term.toList)
    (hfits : CutsFit ((parseTerms raw).map String.toList) text.toList)
    (h : Redacts text (parseTerms raw) result) : ¬Mentions (parseTerms raw) result := by
  obtain ⟨fuel, hfuel⟩ := h
  obtain ⟨chars, hchars, rfl⟩ := Option.map_eq_some_iff.mp hfuel
  rw [mentions_iff, String.toList_ofList]
  intro ⟨term, hterm, hstays⟩
  exact (redactTerms_clears ne_nil_of_parsed (List.forall_mem_map.mpr hstar) hfits hchars).1
    term hterm hstays

/-- `redact` always ends, and leaves alone a text without a term; it leaves no term behind where
each cut fits. -/
theorem redact_blanks {raw : String} (hstar : ∀ term ∈ parseTerms raw, '*' ∉ term.toList)
    (text : String) :
    (∃ result, Redacts text (parseTerms raw) result) ∧
      (¬Mentions (parseTerms raw) text → Redacts text (parseTerms raw) text) ∧
      (CutsFit ((parseTerms raw).map String.toList) text.toList →
        ∀ result, Redacts text (parseTerms raw) result → ¬Mentions (parseTerms raw) result) := by
  refine ⟨?_, fun habsent => ?_, fun hfits result hresult => hresult.clears hstar hfits⟩
  · obtain ⟨fuel, chars, hchars⟩ :=
      redactTerms_total ne_nil_of_parsed (List.forall_mem_map.mpr hstar) text.toList
    exact ⟨String.ofList chars, fuel, Option.map_eq_some_iff.mpr ⟨chars, hchars, rfl⟩⟩
  · rw [mentions_iff] at habsent
    push Not at habsent
    exact ⟨1, Option.map_eq_some_iff.mpr ⟨text.toList, redactTerms_absent habsent,
      String.ofList_toList⟩⟩

/-- A path that names a private term twice. -/
theorem redact_blanks_path :
    Redacts "docs/Acme-Corp/acme-corp.md" (parseTerms "acme-corp") "docs/***/***.md" ∧
      ¬Mentions (parseTerms "acme-corp") "docs/***/***.md" := by
  have hterms : parseTerms "acme-corp" = ["acme-corp"] := by decide +kernel
  have hstar : ∀ term ∈ parseTerms "acme-corp", '*' ∉ term.toList := by
    rw [hterms]
    decide
  have hsteady : Steady "docs/Acme-Corp/acme-corp.md".toList := by decide +kernel
  have hredacts : Redacts "docs/Acme-Corp/acme-corp.md" (parseTerms "acme-corp")
      "docs/***/***.md" := ⟨3, by decide +kernel⟩
  exact ⟨hredacts, (redact_blanks hstar _).2.2 hsteady.cutsFit _ hredacts⟩

/-- A letter that lowercases to two characters puts the offset one too far: after four of
them the cut misses the term. -/
theorem redact_leaves_term :
    (∀ term ∈ parseTerms "acme", '*' ∉ term.toList) ∧
      ¬∃ result, Redacts "İİİİacme" (parseTerms "acme") result ∧
        ¬Mentions (parseTerms "acme") result := by
  have hterms : parseTerms "acme" = ["acme"] := by decide +kernel
  rw [hterms]
  have hredacts : Redacts "İİİİacme" ["acme"] "İİİİacme***" := ⟨2, by decide +kernel⟩
  refine ⟨by decide, fun ⟨result, hresult, habsent⟩ => habsent ?_⟩
  rw [hresult.unique hredacts]
  exact ⟨"acme", List.mem_singleton_self _, by decide +kernel⟩

theorem parseTerms_dot : parseTerms "\u0307" = ["\u0307"] := by decide +kernel

/-- With a dotted capital in it, no text is rid of the dot that it lowercases to. -/
theorem redact_leaves_dot {text : String} (h : 'İ' ∈ text.toList) :
    ∃ result, Redacts text (parseTerms "\u0307") result ∧
      Mentions (parseTerms "\u0307") result := by
  rw [parseTerms_dot]
  obtain ⟨result, hresult⟩ := redactTerm_total (List.cons_ne_nil '\u0307' []) (by decide)
    (Nat.lt_succ_self (unstarred text.toList 0))
  refine ⟨String.ofList result, ⟨unstarred text.toList 0 + 1, ?_⟩, mentions_iff.mpr ⟨['\u0307'],
    by simp, ?_⟩⟩
  · rw [redact, Option.map_eq_some_iff]
    exact ⟨result, redactTerms_cons.mpr ⟨result, hresult, rfl⟩, rfl⟩
  · obtain ⟨last, hround, -⟩ := redactTerm_round .first hresult
    obtain ⟨before, after, rfl, hbefore⟩ :=
      List.eq_append_cons_of_mem (dotted_round h hround)
    obtain ⟨rest, hrest⟩ := drop_lowerChars_dotted hbefore [] after
    rw [String.toList_ofList, infix_iff_prefix_drop]
    refine ⟨before.length + 1, rest, ?_⟩
    rw [← List.drop_drop, hrest]
    rfl

/-- Without a capital sigma in it, a text is rid of every list of terms exactly if it has no
dotted capital. -/
theorem always_blanked_iff {text : String} (hsigma : 'Σ' ∉ text.toList) :
    (∀ raw, (∀ term ∈ parseTerms raw, '*' ∉ term.toList) → ∀ result,
        Redacts text (parseTerms raw) result → ¬Mentions (parseTerms raw) result) ↔
      'İ' ∉ text.toList := by
  constructor
  · intro hblanked hdotted
    obtain ⟨result, hresult, hstays⟩ := redact_leaves_dot hdotted
    refine hblanked "\u0307" ?_ result hresult hstays
    rw [parseTerms_dot]
    decide
  · intro hdotted raw hstar result hresult
    refine hresult.clears hstar (Steady.cutsFit fun c hc => ⟨?_, ?_⟩)
    · exact fun hc' => hdotted (hc' ▸ hc)
    · exact fun hc' => hsigma (hc' ▸ hc)

/-- What is blanked ends a word: the second term makes the first one. -/
example : redact 3 "ΑΣb" ["ας", "b"] = some "ΑΣ***" ∧
    contains "ας" (lower "ΑΣb") = false ∧ contains "ας" (lower "ΑΣ***") = true := by decide +kernel

end NfOrchestrator.Scripts
