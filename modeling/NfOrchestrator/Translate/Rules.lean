import Mathlib.Data.List.Dedup
import NfOrchestrator.Text.Words
import NfOrchestrator.Translate.Boundary

/-!
# NfOrchestrator.Translate.Rules

The **rule translator**, the deterministic keyword parser behind `translate`. Each field is
searched for in the whole text by expressions of its own: the environments and the number words
as whole words, the digits of a count as a whole word of at most three, and the name behind
`called`, `named` or `name`, or else as the first text with a hyphen in it.

What the expressions find is said in words of the text (`mem_mentioned`, `mem_counts`).
-/

namespace NfOrchestrator.Translate

open Unicode

def environments : List Environment := [.dev, .staging, .prod]

/-- `NUMBER_WORDS`. -/
def numberWords : List (String × ℕ) :=
  [("one", 1), ("two", 2), ("three", 3), ("four", 4), ("five", 5), ("six", 6), ("seven", 7),
    ("eight", 8), ("nine", 9), ("ten", 10)]

/-- `int(ds)`, for decimal digits of any script. -/
def intOf (ds : List Char) : ℕ := Json.ofDigits (ds.filterMap decimalValue?)

/-! ### The expressions -/

/-- A literal of ASCII letters, in either case. -/
def litIgnoreCase : List Char → Regex
  | [] => .eps
  | c :: rest => .seq (.char fun x => x.toLower == c) (litIgnoreCase rest)

/-- `[a-z0-9]` under `re.IGNORECASE`, which is also true of four letters outside ASCII: `İ`, `ı`,
`ſ` and the Kelvin sign. -/
def hintEdge (c : Char) : Bool :=
  c.isAlphanum || c.toNat == 0x130 || c.toNat == 0x131 || c.toNat == 0x17f || c.toNat == 0x212a

/-- `[-a-z0-9]` under `re.IGNORECASE`. -/
def hintInner (c : Char) : Bool := hintEdge c || c == '-'

/-- `NAME_HINT`. -/
def nameHint : Regex :=
  .seq .wordBoundary <|
    .seq (.alt (litIgnoreCase "called".toList)
      (.alt (litIgnoreCase "named".toList) (litIgnoreCase "name".toList))) <|
      .seq (.plus (.char isSpace)) (.group 1 (.seq (.char hintEdge) (.star (.char hintInner))))

/-- `NAME_TOKEN`. -/
def nameToken : Regex :=
  .seq .wordBoundary <|
    .seq (.group 1 (.seq (.plus (.char hintEdge))
      (.plus (.seq (.lit ['-']) (.plus (.char hintEdge))))))
      .wordBoundary

/-- `COUNT`. -/
def count : Regex :=
  .seq .wordBoundary (.seq (.group 1 (.seq .digit (.upTo .digit 2))) .wordBoundary)

/-! ### The translator -/

/-- The dict the translator returns. -/
structure Candidate where
  name : String
  replicas : ℕ
  environment : String
  deriving DecidableEq

def Candidate.proposal {Obj : Type} (c : Candidate) : Proposal Obj :=
  .dict [(.str "name", .str c.name), (.str "replicas", .int c.replicas),
    (.str "environment", .str c.environment)] (by simp)

/-- The environments mentioned in a text. -/
def mentioned (lowered : String) : List Environment :=
  environments.filter fun e => ((Regex.word e.value.toList).search lowered).isSome

/-- The counts mentioned in a text, each once. -/
def counts (lowered : String) : List ℕ :=
  ((count.findAll lowered).map (fun found => intOf ((found.captured 1).getD [])) ++
    (numberWords.filter fun w => ((Regex.word w.1.toList).search lowered).isSome).map
      Prod.snd).dedup

/-- The name found in a text, as it is written there. -/
def nameIn (text : String) : Option String :=
  match nameHint.search text with
  | some hint => some (String.ofList ((hint.captured 1).getD []))
  | none => (nameToken.search text).map fun token => String.ofList ((token.captured 1).getD [])

namespace RuleTranslator

def name : String := "rules"

def noEnvironment : String :=
  "no environment found in the text; expected one of " ++
    Str.join ", " (environments.map Environment.value)

def manyEnvironments (found : List Environment) : String :=
  "text mentions more than one environment (" ++ Str.join ", " (found.map Environment.value) ++
    "); say which one, it will not be guessed"

def noCount : String := "no replica count found in the text"

def manyCounts (found : List ℕ) : String :=
  "text mentions more than one replica count (" ++
    Str.join ", " ((found.insertionSort (· ≤ ·)).map toString) ++
    "); say which one, it will not be guessed"

def noName : String :=
  "no network function name found in the text; name it explicitly, for example 'called edge-nf'"

/-- The one thing found, where there is one. -/
def single {α : Type} (none : String) (many : List α → String) : List α → Except Raised α
  | [] => .error (.translationError none)
  | [x] => .ok x
  | found => .error (.translationError (many found))

/-- Every mention of a field, not the first one found: a text with two of them is refused. -/
def propose (text : String) : Except Raised Candidate := do
  let lowered := Str.lower text
  let environment ← single noEnvironment manyEnvironments (mentioned lowered)
  let replicas ← single noCount manyCounts (counts lowered)
  match nameIn text with
  | none => throw (.translationError noName)
  | some name =>
      return { name := Str.lower name, replicas := replicas, environment := environment.value }

theorem single_cases {α : Type} (none : String) (many : List α → String) (xs : List α) :
    (∃ x, xs = [x] ∧ single none many xs = .ok x) ∨
      (∀ x, xs ≠ [x]) ∧ ∃ message, single none many xs = .error (.translationError message) := by
  match xs with
  | [] => exact .inr ⟨by simp, _, rfl⟩
  | [x] => exact .inl ⟨x, rfl, rfl⟩
  | x :: y :: rest => exact .inr ⟨by simp, _, rfl⟩

/-- The translator returns what it found of each field, if it found one thing of each, and
refuses the text otherwise. -/
theorem propose_cases (text : String) :
    (∃ e n name, mentioned (Str.lower text) = [e] ∧ counts (Str.lower text) = [n] ∧
      nameIn text = some name ∧
      propose text = .ok { name := Str.lower name, replicas := n, environment := e.value }) ∨
    (∀ e n name, ¬(mentioned (Str.lower text) = [e] ∧ counts (Str.lower text) = [n] ∧
      nameIn text = some name)) ∧ ∃ message, propose text = .error (.translationError message) := by
  rw [propose]
  rcases single_cases noEnvironment manyEnvironments (mentioned (Str.lower text)) with
    ⟨e, he, hsingle⟩ | ⟨he, message, hsingle⟩
  · rw [hsingle]
    rcases single_cases noCount manyCounts (counts (Str.lower text)) with
      ⟨n, hn, hsingle⟩ | ⟨hn, message, hsingle⟩
    · rw [hsingle]
      cases hname : nameIn text with
      | some name => exact .inl ⟨e, n, name, he, hn, rfl, rfl⟩
      | none => exact .inr ⟨by simp, noName, rfl⟩
    · rw [hsingle]
      exact .inr ⟨fun _ n _ h => hn n h.2.1, message, rfl⟩
  · rw [hsingle]
    exact .inr ⟨fun e _ _ h => he e h.1, message, rfl⟩

end RuleTranslator

/-! ### What is found -/

theorem eq_singleton_of_nodup {α : Type} {xs : List α} (hxs : xs.Nodup) {x : α} :
    xs = [x] ↔ ∀ y, y ∈ xs ↔ y = x := by
  constructor
  · rintro rfl y
    exact List.mem_singleton
  · intro h
    refine List.perm_singleton.mp ((List.perm_ext_iff_of_nodup hxs (List.nodup_singleton x)).mpr ?_)
    exact fun y => (h y).trans List.mem_singleton.symm

theorem isWord_value (e : Environment) : ∀ c ∈ e.value.toList, isWord c = true :=
  List.all_eq_true.mp (by cases e <;> decide +kernel)

theorem isWord_numberWord : ∀ w ∈ numberWords, w.1.toList ≠ [] ∧
    ∀ c ∈ w.1.toList, isWord c = true := by
  have hall : ∀ w ∈ numberWords, w.1.toList ≠ [] ∧ w.1.toList.all isWord = true := by
    decide +kernel
  exact fun w hw => ⟨(hall w hw).1, List.all_eq_true.mp (hall w hw).2⟩

/-- An environment is mentioned where it is a word of the text. -/
theorem mem_mentioned {lowered : String} {e : Environment} :
    e ∈ mentioned lowered ↔ e.value.toList ∈ runs isWord lowered.toList := by
  have hne : e.value.toList ≠ [] := by cases e <;> decide
  rw [mentioned, List.mem_filter, Regex.search_word hne (isWord_value e)]
  refine and_iff_right_of_imp fun _ => ?_
  cases e <;> decide

/-- What `COUNT` matches is a word of one to three digits. -/
theorem match_count_iff {before cs : List Char} {d : Cursor} :
    count.Match ⟨before, cs, []⟩ d ↔ ∃ ds rest, cs = ds ++ rest ∧ ds ≠ [] ∧ ds.length ≤ 3 ∧
      (∀ c ∈ ds, isDecimal c = true) ∧ (∀ c ∈ before.head?, isWord c = false) ∧
      (∀ c ∈ rest.head?, isWord c = false) ∧ d = ⟨ds.reverse ++ before, rest, [(1, ds)]⟩ := by
  simp only [count, Regex.wordBoundary, Regex.digit, Regex.match_seq_iff, Regex.match_assert_iff,
    Regex.match_group_iff]
  constructor
  · intro h
    obtain ⟨_, ⟨hleft, rfl⟩, _, ⟨_, ⟨_, hfirst, hmore⟩, rfl⟩, hright, rfl⟩ := h
    obtain ⟨x, cs, rfl, hx, rfl⟩ := Regex.match_char_iff.mp hfirst
    obtain ⟨xs, rest, rfl, hlength, hxs, rfl⟩ := Regex.match_upTo_char_iff.mp hmore
    have hds : ∀ c ∈ x :: xs, isDecimal c = true := List.forall_mem_cons.mpr ⟨hx, hxs⟩
    -- digits are word characters, so both boundaries are where the word ends
    obtain ⟨hbefore, hrest⟩ := (Regex.boundaries_iff (List.cons_ne_nil x xs)
      fun c hc => isWord_of_isDecimal (hds c hc)).mp ⟨hleft, by simpa using hright⟩
    have hread := Regex.upTo_append (x :: xs) before (xs.reverse ++ x :: before) rest [] []
    refine ⟨x :: xs, rest, rfl, List.cons_ne_nil x xs, ?_, hds, hbefore, hrest, ?_⟩
    · exact Nat.succ_le_succ hlength
    · rw [List.cons_append] at hread
      simp [hread]
  · intro h
    obtain ⟨ds, rest, rfl, hne, hlength, hds, hbefore, hrest, rfl⟩ := h
    obtain ⟨x, xs, rfl⟩ := List.exists_cons_of_ne_nil hne
    obtain ⟨hx, hxs⟩ := List.forall_mem_cons.mp hds
    obtain ⟨hleft, hright⟩ := (Regex.boundaries_iff (List.cons_ne_nil x xs)
      fun c hc => isWord_of_isDecimal (hds c hc)).mpr ⟨hbefore, hrest⟩
    refine ⟨_, ⟨hleft, rfl⟩, _, ⟨_, ⟨_, Regex.match_char_iff.mpr ⟨x, xs ++ rest, rfl, hx, rfl⟩,
      Regex.match_upTo_char_iff.mpr ⟨xs, rest, rfl, ?_, hxs, rfl⟩⟩, rfl⟩, ?_, ?_⟩
    · exact Nat.le_of_succ_le_succ hlength
    · simpa using hright
    · have hread := Regex.upTo_append (x :: xs) before (xs.reverse ++ x :: before) rest [] []
      rw [List.cons_append] at hread
      simp [hread]

/-- Words keep apart. -/
theorem count_apart : count.Apart := by
  intro before pre post d e hd he
  obtain ⟨ds, rest, hcs, hne, -, hds, -, hrest, rfl⟩ := match_count_iff.mp hd
  obtain ⟨ds', rest', rfl, hne', -, hds', hbefore', hrest', rfl⟩ := match_count_iff.mp he
  rcases List.eq_nil_or_concat pre with rfl | ⟨pre, c, rfl⟩
  · rw [List.nil_append] at hcs
    obtain ⟨hsame, hsame'⟩ := eq_of_append_eq hcs (fun c hc => isWord_of_isDecimal (hds' c hc))
      hrest' (fun c hc => isWord_of_isDecimal (hds c hc)) hrest
    exact .inl ⟨rfl, by rw [hsame, hsame']; rfl⟩
  · -- the character before the second word is none of the first one's
    have hc : isWord c = false := hbefore' c (by simp)
    have hlonger : ds.length < (pre.concat c).length := by
      by_contra hle
      have hhead : pre.concat c <+: ds :=
        List.prefix_of_prefix_length_le (List.prefix_append _ (ds' ++ rest'))
          (hcs ▸ List.prefix_append ds rest) (not_lt.mp hle)
      have hword := isWord_of_isDecimal (hds c (hhead.subset (by simp)))
      rw [hc] at hword
      cases hword
    have hlength := congrArg List.length hcs
    have hpos := List.length_pos_iff.mpr hne
    simp only [List.length_append] at hlength ⊢
    exact .inr ⟨by omega, by omega⟩

theorem not_match_count_nil (before : List Char) (d : Cursor) :
    ¬count.Match ⟨before, [], []⟩ d := by
  intro h
  obtain ⟨ds, rest, hcs, hne, -⟩ := match_count_iff.mp h
  exact hne (List.append_eq_nil_iff.mp hcs.symm).1

/-- A word that counts: up to three digits, or a number word. -/
inductive Counts : List Char → ℕ → Prop
  | digits {ds : List Char} (hds : ∀ c ∈ ds, isDecimal c = true) (hlength : ds.length ≤ 3) :
      Counts ds (intOf ds)
  | word {w : String} {n : ℕ} (hw : (w, n) ∈ numberWords) : Counts w.toList n

/-- A count is mentioned where it is a word of the text. -/
theorem mem_counts {lowered : String} {n : ℕ} :
    n ∈ counts lowered ↔ ∃ w ∈ runs isWord lowered.toList, Counts w n := by
  simp only [counts, List.mem_dedup, List.mem_append, List.mem_map, List.mem_filter,
    Regex.mem_findAll count_apart not_match_count_nil]
  constructor
  · intro h
    rcases h with ⟨d, ⟨pre, post, heq, hd⟩, rfl⟩ | ⟨⟨w, n⟩, ⟨hw, hsearch⟩, rfl⟩
    · obtain ⟨ds, rest, rfl, hne, hlength, hds, hbefore, hrest, rfl⟩ := match_count_iff.mp hd
      refine ⟨ds, mem_runs.mpr ⟨pre, rest, by rw [heq, List.append_assoc], hne,
        fun c hc => isWord_of_isDecimal (hds c hc), by simpa using hbefore, hrest⟩, ?_⟩
      exact .digits hds hlength
    · obtain ⟨hne, hall⟩ := isWord_numberWord _ hw
      exact ⟨w.toList, (Regex.search_word hne hall lowered).mp hsearch, .word hw⟩
  · intro h
    obtain ⟨ds, hrun, hcounts⟩ := h
    cases hcounts with
    | digits hds hlength =>
        obtain ⟨pre, post, heq, hisrun⟩ := mem_runs.mp hrun
        refine .inl ⟨⟨ds.reverse ++ pre.reverse, post, [(1, ds)]⟩, ⟨pre, ds ++ post, ?_, ?_⟩, rfl⟩
        · rw [heq, List.append_assoc]
        · exact match_count_iff.mpr ⟨ds, post, rfl, hisrun.ne_nil, hlength, hds,
            by simpa using hisrun.left, hisrun.right, rfl⟩
    | @word w n hw =>
        obtain ⟨hne, hall⟩ := isWord_numberWord _ hw
        exact .inr ⟨(w, n), ⟨hw, (Regex.search_word hne hall lowered).mpr hrun⟩, rfl⟩

/-- Where one thing is found of a field, nothing else is. -/
theorem mentioned_eq_singleton {lowered : String} {e : Environment} :
    mentioned lowered = [e] ↔ ∀ e', e' ∈ mentioned lowered ↔ e' = e :=
  eq_singleton_of_nodup (List.Nodup.filter _ (by decide))

theorem counts_eq_singleton {lowered : String} {n : ℕ} :
    counts lowered = [n] ↔ ∀ n', n' ∈ counts lowered ↔ n' = n :=
  eq_singleton_of_nodup (List.nodup_dedup _)

end NfOrchestrator.Translate
