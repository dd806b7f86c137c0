import Mathlib.Data.List.Nodup
import NfOrchestrator.Scripts.Completeness

/-!
# NfOrchestrator.Scripts.Hits

**Scanning line by line loses no match.** A hit is reported once for each line that holds a
term and for no other line, and a term of the list that is in the text is in one of its
lines (`scanText_hits`).
-/

namespace NfOrchestrator.Scripts

open Str

/-- The line with this number; the first line has number 1. -/
def lineAt (text : String) (number : ℕ) : Option String :=
  if number = 0 then none else (splitlines text)[number - 1]?

/-- The term occurs in the line with this number, in any case. -/
def occursAt (term text : String) (number : ℕ) : Bool :=
  (lineAt text number).any fun line => contains term (lower line)

theorem occursAt_iff {term text : String} {number : ℕ} : occursAt term text number = true ↔
    ∃ line, lineAt text number = some line ∧ contains term (lower line) = true := by
  rw [occursAt]
  cases lineAt text number <;> simp

theorem mem_zipIdx_one {text line : String} {number : ℕ} :
    (line, number) ∈ (splitlines text).zipIdx 1 ↔ lineAt text number = some line := by
  rw [List.mk_mem_zipIdx_iff_le_and_getElem?_sub, lineAt]
  split_ifs with hzero
  · simp [hzero]
  · simp [Nat.one_le_iff_ne_zero, hzero]

theorem mem_scanLine {path line : String} {terms : List String} {number : ℕ} {hit : Hit} :
    hit ∈ scanLine path terms number line ↔ hit.path = path ∧ hit.number = number ∧
      ∃ term, terms[hit.index]? = some term ∧ contains term (lower line) = true := by
  rw [scanLine, List.mem_filterMap]
  constructor
  · intro h
    obtain ⟨⟨term, index⟩, hterm, hhit⟩ := h
    dsimp only at hhit
    split_ifs at hhit with hfound
    obtain rfl := Option.some.inj hhit
    exact ⟨rfl, rfl, term, List.mk_mem_zipIdx_iff_getElem?.mp hterm, hfound⟩
  · intro h
    obtain ⟨hpath, hnumber, term, hterm, hfound⟩ := h
    refine ⟨(term, hit.index), List.mk_mem_zipIdx_iff_getElem?.mpr hterm, ?_⟩
    dsimp only
    rw [if_pos hfound, ← hpath, ← hnumber]

/-- What is reported: a line that holds a term. -/
theorem mem_scanText {path text : String} {terms : List String} {hit : Hit} :
    hit ∈ scanText path text terms ↔ hit.path = path ∧
      ∃ term, terms[hit.index]? = some term ∧ occursAt term text hit.number = true := by
  simp only [scanText, List.mem_flatMap, Prod.exists, mem_scanLine, mem_zipIdx_one,
    occursAt_iff]
  constructor
  · intro h
    obtain ⟨line, number, hline, hpath, rfl, term, hterm, hfound⟩ := h
    exact ⟨hpath, term, hterm, line, hline, hfound⟩
  · intro h
    obtain ⟨hpath, term, hterm, line, hline, hfound⟩ := h
    exact ⟨line, hit.number, hline, hpath, rfl, term, hterm, hfound⟩

/-! ### Each hit once -/

theorem nodup_scanLine (path line : String) (terms : List String) (number : ℕ) :
    (scanLine path terms number line).Nodup := by
  have hindices : (terms.zipIdx.map Prod.snd).Nodup := by
    rw [List.zipIdx_map_snd]
    exact List.nodup_range'
  refine List.Nodup.of_map Hit.index ?_
  -- the indices of the hits are among those of the terms
  refine hindices.sublist ?_
  rw [scanLine, List.map_filterMap]
  induction terms.zipIdx with
  | nil => exact List.Sublist.refl _
  | cons pair rest ih =>
      rw [List.filterMap_cons, List.map_cons]
      by_cases hfound : contains pair.1 (lower line) = true
      · simpa [hfound] using ih
      · simpa [hfound] using ih.cons _

theorem nodup_scanText (path text : String) (terms : List String) :
    (scanText path text terms).Nodup := by
  rw [scanText, List.nodup_flatMap]
  refine ⟨fun pair _ => nodup_scanLine path pair.1 terms pair.2, ?_⟩
  have hnumbers : (((splitlines text).zipIdx 1).map Prod.snd).Pairwise (· ≠ ·) := by
    rw [List.zipIdx_map_snd]
    exact List.nodup_range'
  refine (List.pairwise_map.mp hnumbers).imp fun {a b} hne => ?_
  show List.Disjoint _ _
  rw [List.disjoint_left]
  intro hit ha hb
  exact hne ((mem_scanLine.mp ha).2.1.symm.trans (mem_scanLine.mp hb).2.1)

/-! ### No match is lost -/

/-- A term that is in the text is in one of its lines. -/
theorem IsTerm.occurs_iff {term : String} (h : IsTerm term) (text : String) :
    contains term (lower text) = true ↔ ∃ number, occursAt term text number = true := by
  rw [contains_lower_iff h.ne_empty h.unbroken]
  simp only [occursAt_iff, ← mem_zipIdx_one]
  constructor
  · intro ⟨line, hline, hfound⟩
    obtain ⟨i, hi⟩ := List.mem_iff_getElem?.mp hline
    refine ⟨i + 1, line, ?_, hfound⟩
    rw [List.mk_mem_zipIdx_iff_le_and_getElem?_sub]
    simpa using hi
  · intro ⟨number, line, hline, hfound⟩
    exact ⟨line, List.fst_mem_of_mem_zipIdx hline, hfound⟩

/-- A term is reported where it is in the text, and once for each line that it is in; and where
it is in the text, it is in a line. -/
theorem scanText_hits {raw : String} (path text : String) {i : ℕ}
    (hi : i < (parseTerms raw).length) :
    ((∃ hit ∈ scanText path text (parseTerms raw), hit.index = i) ↔
        contains (parseTerms raw)[i] (lower text) = true) ∧
      (∀ number, (scanText path text (parseTerms raw)).count ⟨path, number, i⟩ =
        if occursAt (parseTerms raw)[i] text number then 1 else 0) ∧
      (contains (parseTerms raw)[i] (lower text) = true →
        ∃ number, occursAt (parseTerms raw)[i] text number = true) ∧
      ∀ hit ∈ scanText path text (parseTerms raw), hit.path = path := by
  have hoccurs := (isTerm_of_mem (List.getElem_mem hi)).occurs_iff text
  have hget := List.getElem?_eq_getElem hi
  refine ⟨?_, fun number => ?_, hoccurs.mp, fun hit hhit => (mem_scanText.mp hhit).1⟩
  · rw [hoccurs]
    constructor
    · intro h
      obtain ⟨hit, hhit, rfl⟩ := h
      obtain ⟨-, term, hsome, hfound⟩ := mem_scanText.mp hhit
      obtain rfl := Option.some.inj (hget.symm.trans hsome)
      exact ⟨hit.number, hfound⟩
    · intro ⟨number, hfound⟩
      exact ⟨⟨path, number, i⟩, mem_scanText.mpr ⟨rfl, _, hget, hfound⟩, rfl⟩
  · rw [(nodup_scanText path text _).count]
    refine if_congr ?_ rfl rfl
    rw [mem_scanText]
    simp only [hget, Option.some.injEq, exists_eq_left', true_and]

/-- Two terms, and a text of three lines that end in unusual ways. -/
theorem scanText_hits_three :
    parseTerms "# ours\nAcme-Corp, initech" = ["acme-corp", "initech"] ∧
      (scanText "a.md" "ACME-CORP\u2028ok\x1cacme-corp"
        (parseTerms "# ours\nAcme-Corp, initech")).count ⟨"a.md", 3, 0⟩ = 1 := by
  have hterms : parseTerms "# ours\nAcme-Corp, initech" = ["acme-corp", "initech"] := by
    decide +kernel
  have hi : 0 < (parseTerms "# ours\nAcme-Corp, initech").length := by
    rw [hterms]
    decide
  have hfirst : (parseTerms "# ours\nAcme-Corp, initech")[0] = "acme-corp" := by
    simp only [hterms, List.getElem_cons_zero]
  have hoccurs : occursAt "acme-corp" "ACME-CORP\u2028ok\x1cacme-corp" 3 = true := by
    decide +kernel
  have hcount := (scanText_hits "a.md" "ACME-CORP\u2028ok\x1cacme-corp" hi).2.1 3
  rw [hfirst, if_pos hoccurs] at hcount
  exact ⟨hterms, hcount⟩

end NfOrchestrator.Scripts
