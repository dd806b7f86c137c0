import NfOrchestrator.Scripts.BannedTerms

/-!
# NfOrchestrator.Scripts.Completeness

**What a clean gate has looked at.** The scan of a text misses no term
(`scanText_eq_nil_iff`), but git quotes an unusual path, and the quoted path names no
file of the working tree, or another one. So exit code 0 says nothing about the files
behind quoted paths (`complete_iff`).
-/

namespace NfOrchestrator.Scripts

open Str

/-! ### The scan of a text -/

/-- A term of the list: not empty, and on one line. -/
structure IsTerm (term : String) : Prop where
  ne_empty : term ≠ ""
  unbroken : Unbroken term.toList

theorem unbroken_strip {s : String} (h : Unbroken s.toList) : Unbroken (strip s).toList := by
  intro c hc
  rw [strip, String.toList_ofList, stripChars, trimChars, List.mem_reverse] at hc
  have hmem := (List.dropWhile_suffix _).subset hc
  exact h c ((List.dropWhile_suffix _).subset (List.mem_reverse.mp hmem))

theorem isTerm_of_mem {raw term : String} (h : term ∈ parseTerms raw) : IsTerm term := by
  obtain ⟨chunk, hchunk, hterm⟩ := List.mem_filterMap.mp h
  dsimp only at hterm
  split_ifs at hterm with hkept
  obtain rfl := Option.some.inj hterm
  refine ⟨hkept.1, ?_⟩
  obtain ⟨line, hline, rfl⟩ := List.mem_map.mp hchunk
  rw [lower, String.toList_ofList]
  refine unbroken_lowerChars (unbroken_strip ?_)
  rw [String.toList_ofList]
  exact unbroken_of_mem hline

/-- One of the terms occurs in the text, in any case. -/
def Mentions (terms : List String) (text : String) : Prop :=
  ∃ term ∈ terms, contains term (lower text) = true

theorem forall_zipIdx_iff {α : Type} {P : α → Prop} {l : List α} {k : ℕ} :
    (∀ x ∈ l.zipIdx k, P x.1) ↔ ∀ a ∈ l, P a := by
  rw [← List.forall_mem_map (f := Prod.fst), List.zipIdx_map_fst]

theorem scanLine_eq_nil_iff {path line : String} {terms : List String} {number : ℕ} :
    scanLine path terms number line = [] ↔ ∀ term ∈ terms, contains term (lower line) = false := by
  rw [scanLine, List.filterMap_eq_nil_iff,
    ← forall_zipIdx_iff (P := fun term => contains term (lower line) = false)]
  refine forall_congr' fun x => imp_congr_right fun _ => ?_
  dsimp only
  split_ifs with hfound
  · simp [hfound]
  · simpa using hfound

/-- The scan of a text finds nothing exactly where no term occurs in it. -/
theorem scanText_eq_nil_iff {path text : String} {terms : List String}
    (hterms : ∀ term ∈ terms, IsTerm term) :
    scanText path text terms = [] ↔ ¬Mentions terms text := by
  rw [scanText, List.flatMap_eq_nil_iff]
  simp only [scanLine_eq_nil_iff]
  rw [forall_zipIdx_iff (P := fun line => ∀ term ∈ terms, contains term (lower line) = false)]
  constructor
  · intro h hx
    obtain ⟨term, hterm, hfound⟩ := hx
    obtain ⟨line, hline, hfound⟩ :=
      (contains_lower_iff (hterms term hterm).ne_empty (hterms term hterm).unbroken).mp hfound
    rw [h line hline term hterm] at hfound
    cases hfound
  · intro h line hline term hterm
    rw [Bool.eq_false_iff]
    intro hfound
    exact h ⟨term, hterm, (contains_lower_iff (hterms term hterm).ne_empty
      (hterms term hterm).unbroken).mpr ⟨line, hline, hfound⟩⟩

theorem mentions_universalNewlines {terms : List String} {text : String}
    (hterms : ∀ term ∈ terms, IsTerm term) :
    Mentions terms (universalNewlines text) ↔ Mentions terms text := by
  refine exists_congr fun term => and_congr_right fun hterm => ?_
  have hone := hterms term hterm
  rw [contains_lower_iff hone.ne_empty hone.unbroken,
    contains_lower_iff hone.ne_empty hone.unbroken, splitlines_universalNewlines]

/-! ### The scan of the files -/

/-- The file is readable as UTF-8, and one of the terms occurs in its text. -/
def FileMentions (terms : List String) (files : Files) (path : List UInt8) : Prop :=
  ∃ decoded, files path = .text decoded ∧ Mentions terms decoded

theorem scan_eq_nil_iff {files : Files} {paths terms : List String}
    (hterms : ∀ term ∈ terms, IsTerm term) :
    scan files paths terms = [] ↔ ∀ path ∈ paths, ¬FileMentions terms files (fsencode path) := by
  rw [scan, List.flatMap_eq_nil_iff]
  refine forall_congr' fun path => imp_congr_right fun _ => ?_
  rw [readText, FileMentions]
  cases files (fsencode path) with
  | text decoded =>
      simp only [scanText_eq_nil_iff hterms, mentions_universalNewlines hterms,
        Contents.text.injEq, exists_eq_left']
  | binary => simp
  | unreadable => simp

theorem main_eq_zero_iff {bannedTerms : Option String} {output : String} {files : Files} :
    main bannedTerms (.ok output) files = .ok 0 ↔
      parseTerms (bannedTerms.getD "") ≠ [] ∧ ∀ path ∈ trackedFiles output,
        ¬FileMentions (parseTerms (bannedTerms.getD "")) files (fsencode path) := by
  rw [← scan_eq_nil_iff fun _ => isTerm_of_mem, main]
  simp only [bind, Except.bind, List.isEmpty_iff, notConfigured]
  split_ifs with hterms hhits
  · simp [hterms, pure, Except.pure]
  · simp [hterms, hhits, pure, Except.pure]
  · simp [hhits, pure, Except.pure]

/-! ### What git prints -/

/-- Printable ASCII, and neither a double quote nor a backslash. -/
def PlainByte (b : UInt8) : Prop :=
  0x20 ≤ b.toNat ∧ b.toNat < 0x7f ∧ b.toNat ≠ 0x22 ∧ b.toNat ≠ 0x5c

instance (b : UInt8) : Decidable (PlainByte b) := inferInstanceAs (Decidable (_ ∧ _))

/-- git prints such a path as it is. -/
def Plain (path : List UInt8) : Prop := ∀ b ∈ path, PlainByte b

instance (path : List UInt8) : Decidable (Plain path) := List.decidableBAll PlainByte path

/-- The text of ASCII bytes. -/
def ascii (path : List UInt8) : String := String.ofList (path.map fun b => Char.ofNat b.toNat)

/-- A path of the index. -/
structure Path where
  bytes : List UInt8
  nonempty : bytes ≠ []

/-- git prints a path as it is, or, when it is unusual, in double quotes and escaped to
printable ASCII. -/
structure GitPrints (printed : List UInt8 → String) : Prop where
  plain : ∀ path, Plain path → printed path = ascii path
  quoted : ∀ path, ¬Plain path → ∃ body : String, printed path = "\"" ++ body ++ "\"" ∧
    ∀ c ∈ body.toList, 0x20 ≤ c.toNat ∧ c.toNat < 0x7f

/-- What `git ls-files` prints. -/
def lsFiles (printed : List UInt8 → String) (tracked : List Path) : String :=
  String.join (tracked.map fun path => printed path.bytes ++ "\n")

theorem isLineBreak_of_printable {c : Char} (h : 0x20 ≤ c.toNat) (h' : c.toNat < 0x7f) :
    Unicode.isLineBreak c = false := by
  rw [Bool.eq_false_iff, Ne, isLineBreak_iff, lineBreaks]
  simp only [List.mem_cons, List.not_mem_nil, or_false]
  omega

theorem toNat_ofNat_byte (b : UInt8) : (Char.ofNat b.toNat).toNat = b.toNat := by
  have hall : ∀ n < 256, (Char.ofNat n).toNat = n := by decide +kernel
  exact hall _ b.toNat_lt

theorem utf8EncodeChar_byte {b : UInt8} (h : b.toNat < 0x80) :
    String.utf8EncodeChar (Char.ofNat b.toNat) = [b] := by
  have hall : ∀ n < 0x80, String.utf8EncodeChar (Char.ofNat n) = [UInt8.ofNat n] := by
    decide +kernel
  rw [hall _ h, UInt8.ofNat_toNat]

/-- `open` finds a plain path under the text that git prints. -/
theorem fsencode_ascii {path : List UInt8} (h : Plain path) : fsencode (ascii path) = path := by
  rw [fsencode, ascii, String.toList_ofList, List.flatMap_map]
  induction path with
  | nil => rfl
  | cons b rest ih =>
      have hb : b.toNat < 0x80 := lt_trans (h b List.mem_cons_self).2.1 (by decide)
      rw [List.flatMap_cons, utf8EncodeChar_byte hb, ih fun c hc => h c (List.mem_cons_of_mem b hc)]
      rfl

section printed

variable {printed : List UInt8 → String} (hgit : GitPrints printed)
include hgit

theorem GitPrints.unbroken (path : List UInt8) : Unbroken (printed path).toList := by
  by_cases hplain : Plain path
  · intro c hc
    rw [hgit.plain path hplain, ascii, String.toList_ofList] at hc
    obtain ⟨b, hb, rfl⟩ := List.mem_map.mp hc
    obtain ⟨hlow, hhigh, -⟩ := hplain b hb
    exact isLineBreak_of_printable ((toNat_ofNat_byte b).symm ▸ hlow)
      ((toNat_ofNat_byte b).symm ▸ hhigh)
  · obtain ⟨body, hbody, hprintable⟩ := hgit.quoted path hplain
    intro c hc
    rw [hbody, String.toList_append, String.toList_append, List.mem_append, List.mem_append] at hc
    obtain (hc | hc) | hc := hc
    · obtain rfl := List.mem_singleton.mp hc
      decide
    · exact isLineBreak_of_printable (hprintable c hc).1 (hprintable c hc).2
    · obtain rfl := List.mem_singleton.mp hc
      decide

theorem GitPrints.ne_empty {path : List UInt8} (h : path ≠ []) : printed path ≠ "" := by
  by_cases hplain : Plain path
  · rw [hgit.plain path hplain, ascii]
    simpa using h
  · obtain ⟨body, hbody, -⟩ := hgit.quoted path hplain
    rw [hbody]
    intro hempty
    have hlist := congrArg String.toList hempty
    simp at hlist

/-- Each line of what git prints is one path. -/
theorem trackedFiles_lsFiles (tracked : List Path) :
    trackedFiles (lsFiles printed tracked) = tracked.map fun path => printed path.bytes := by
  have hlines : splitlines (lsFiles printed tracked) =
      tracked.map fun path => printed path.bytes := by
    have htext : (lsFiles printed tracked).toList =
        (tracked.map fun path => (printed path.bytes).toList).flatMap
          fun line => line ++ ['\n'] := by
      rw [lsFiles, String.toList_join, List.flatMap_map, List.flatMap_map]
      simp
    rw [splitlines, htext, splitlinesChars_flatMap, List.map_map]
    · simp
    · intro line hline
      obtain ⟨path, -, rfl⟩ := List.mem_map.mp hline
      exact hgit.unbroken path.bytes
  rw [trackedFiles, hlines, List.filter_eq_self]
  intro line hline
  obtain ⟨path, -, rfl⟩ := List.mem_map.mp hline
  simpa using hgit.ne_empty path.nonempty

end printed

/-! ### Completeness -/

/-- Exit code 0 means that no term occurs in a tracked file that is readable as UTF-8. -/
def Complete (bannedTerms : Option String) (printed : List UInt8 → String) (tracked : List Path)
    (files : Files) : Prop :=
  main bannedTerms (.ok (lsFiles printed tracked)) files = .ok 0 →
    ∀ path ∈ tracked, ¬FileMentions (parseTerms (bannedTerms.getD "")) files path.bytes

/-- No term occurs in a tracked file whose path git quotes; or one occurs in a file that
the printed lines name, so that the gate does not pass. -/
def QuotedClean (terms : List String) (printed : List UInt8 → String) (tracked : List Path)
    (files : Files) : Prop :=
  (∀ path ∈ tracked, ¬Plain path.bytes → ¬FileMentions terms files path.bytes) ∨
    (∃ path ∈ tracked, Plain path.bytes ∧ FileMentions terms files path.bytes) ∨
    ∃ path ∈ tracked, ¬Plain path.bytes ∧ FileMentions terms files (fsencode (printed path.bytes))

/-- A clean gate has missed nothing exactly where no term is behind a quoted path, unless
it fails anyway. -/
theorem complete_iff {printed : List UInt8 → String} (hgit : GitPrints printed)
    (bannedTerms : Option String) (tracked : List Path) (files : Files) :
    Complete bannedTerms printed tracked files ↔
      QuotedClean (parseTerms (bannedTerms.getD "")) printed tracked files := by
  have hplain : ∀ path : Path, Plain path.bytes → fsencode (printed path.bytes) = path.bytes :=
    fun path h => by rw [hgit.plain _ h, fsencode_ascii h]
  rw [Complete, main_eq_zero_iff, trackedFiles_lsFiles hgit, List.forall_mem_map]
  constructor
  · intro h
    -- the gate fails if a file with a term is among the printed names
    by_cases hseen : ∃ path ∈ tracked, FileMentions (parseTerms (bannedTerms.getD "")) files
        (fsencode (printed path.bytes))
    · obtain ⟨path, hpath, hmentions⟩ := hseen
      by_cases hquoted : Plain path.bytes
      · exact .inr (.inl ⟨path, hpath, hquoted, hplain path hquoted ▸ hmentions⟩)
      · exact .inr (.inr ⟨path, hpath, hquoted, hmentions⟩)
    · refine .inl fun path hpath _ hmentions => ?_
      have hterms : parseTerms (bannedTerms.getD "") ≠ [] := by
        obtain ⟨decoded, -, term, hterm, -⟩ := hmentions
        exact List.ne_nil_of_mem hterm
      exact h ⟨hterms, fun p hp hm => hseen ⟨p, hp, hm⟩⟩ path hpath hmentions
  · rintro (hclean | ⟨p, hp, hplainPath, hmentions⟩ | ⟨p, hp, -, hmentions⟩) ⟨-, hnone⟩ path hpath
    · by_cases hquoted : Plain path.bytes
      · exact hplain path hquoted ▸ hnone path hpath
      · exact hclean path hpath hquoted
    · have hseen := hnone p hp
      rw [hplain p hplainPath] at hseen
      exact absurd hmentions hseen
    · exact absurd hmentions (hnone p hp)

/-! ### The quoting of C -/

/-- A byte in a C string literal. -/
def escapeByte (b : UInt8) : List Char :=
  match b.toNat with
  | 0x07 => ['\\', 'a']
  | 0x08 => ['\\', 'b']
  | 0x09 => ['\\', 't']
  | 0x0a => ['\\', 'n']
  | 0x0b => ['\\', 'v']
  | 0x0c => ['\\', 'f']
  | 0x0d => ['\\', 'r']
  | 0x22 => ['\\', '"']
  | 0x5c => ['\\', '\\']
  | n =>
      if 0x20 ≤ n ∧ n < 0x7f then [Char.ofNat n]
      else '\\' :: [n / 64, n / 8 % 8, n % 8].map Nat.digitChar

/-- What git prints of a path. -/
def cQuoted (path : List UInt8) : String :=
  if Plain path then ascii path else "\"" ++ String.ofList (path.flatMap escapeByte) ++ "\""

theorem printable_escapeByte (b : UInt8) : ∀ c ∈ escapeByte b, 0x20 ≤ c.toNat ∧ c.toNat < 0x7f := by
  have hall : ∀ n < 256, (escapeByte (UInt8.ofNat n)).all
      (fun c => decide (0x20 ≤ c.toNat ∧ c.toNat < 0x7f)) = true := by decide +kernel
  have hb := hall b.toNat b.toNat_lt
  rw [UInt8.ofNat_toNat, List.all_eq_true] at hb
  exact fun c hc => of_decide_eq_true (hb c hc)

theorem gitPrints_cQuoted : GitPrints cQuoted where
  plain path h := if_pos h
  quoted path h := by
    refine ⟨_, if_neg h, fun c hc => ?_⟩
    rw [String.toList_ofList] at hc
    obtain ⟨b, -, hc⟩ := List.mem_flatMap.mp hc
    exact printable_escapeByte b c hc

/-- The bytes of a path. -/
def pathOf (name : String) (h : fsencode name ≠ []) : Path := ⟨fsencode name, h⟩

/-- A working tree of two files; the text of the second names a private term. -/
def cafe (path : List UInt8) : Contents :=
  if path = fsencode "README.md" then .text "Hello"
  else if path = fsencode "café.md" then .text "by Acme-Corp"
  else .unreadable

def cafePaths : List Path := [pathOf "README.md" (by decide), pathOf "café.md" (by decide)]

/-- With a term that neither file holds, the gate passes and is right to. -/
theorem complete_absent :
    main (some "initech") (.ok (lsFiles cQuoted cafePaths)) cafe = .ok 0 ∧
      Complete (some "initech") cQuoted cafePaths cafe := by
  have hterms : parseTerms "initech" = ["initech"] := by decide +kernel
  have habsent : contains "initech" (lower "by Acme-Corp") = false := by decide +kernel
  refine ⟨by decide +kernel, (complete_iff gitPrints_cQuoted _ _ _).mpr (.inl ?_)⟩
  intro path hpath hquoted hmentions
  have hpaths : path = pathOf "README.md" (by decide) ∨ path = pathOf "café.md" (by decide) := by
    simpa [cafePaths] using hpath
  rcases hpaths with rfl | rfl
  · exact hquoted (by decide)
  · obtain ⟨decoded, hdecoded, term, hterm, hfound⟩ := hmentions
    have htext : cafe (fsencode "café.md") = .text "by Acme-Corp" := by rfl
    obtain rfl : "by Acme-Corp" = decoded := Contents.text.inj (htext.symm.trans hdecoded)
    rw [show (some "initech").getD "" = "initech" from rfl, hterms] at hterm
    obtain rfl := List.mem_singleton.mp hterm
    rw [habsent] at hfound
    cases hfound

/-- A file with a letter outside ASCII in its name is not looked at. -/
theorem quoted_path_missed :
    GitPrints cQuoted ∧ main (some "acme-corp") (.ok (lsFiles cQuoted cafePaths)) cafe = .ok 0 ∧
      ¬Complete (some "acme-corp") cQuoted cafePaths cafe := by
  have hzero : main (some "acme-corp") (.ok (lsFiles cQuoted cafePaths)) cafe = .ok 0 := by
    decide +kernel
  refine ⟨gitPrints_cQuoted, hzero, fun h => ?_⟩
  refine h hzero (pathOf "café.md" (by decide)) (by simp [cafePaths]) ⟨_, rfl, "acme-corp", ?_, ?_⟩
  · decide +kernel
  · decide +kernel

end NfOrchestrator.Scripts
