import NfOrchestrator.Text.Str

/-!
# NfOrchestrator.Text.Regex

A **backtracking regular-expression matcher** with the semantics of Python's
`re`: alternatives are tried left to right, repetition is greedy, and `search`
returns the leftmost position at which anything matches. `Regex.results` lists
every way to match at a position, most preferred first, so the match Python
returns is the head of that list.

`Regex.Match` is the same thing as a relation, with no order and no bound on
repetition; `mem_results` says the list enumerates it exactly. Statements about
which texts match are proved on the relation and moved to the matcher by that
theorem.
-/

namespace NfOrchestrator

open NfOrchestrator.Unicode

/-- A regular expression. -/
inductive Regex where
  | eps
  /-- One character of a class. -/
  | char (p : Char → Bool)
  | seq (a b : Regex)
  | alt (a b : Regex)
  /-- Greedy repetition. -/
  | star (a : Regex)
  /-- A capturing group. -/
  | group (n : ℕ) (a : Regex)
  /-- A zero-width assertion on the characters on both sides of the position. -/
  | assert (p : Option Char → Option Char → Bool)

/-- A position in a text, with what the groups have captured so far. `before` is
reversed, so its head is the character just passed. -/
structure Cursor where
  before : List Char
  after : List Char
  groups : List (ℕ × List Char)

namespace Cursor

/-- The text captured by group `n`. -/
def captured (c : Cursor) (n : ℕ) : Option (List Char) := c.groups.lookup n

/-- What was read between `c` and the later position `d`. -/
def upTo (c d : Cursor) : List Char := c.after.take (c.after.length - d.after.length)

end Cursor

namespace Regex

/-! ### Building expressions -/

/-- A literal text. -/
def lit : List Char → Regex
  | [] => .eps
  | c :: rest => .seq (.char (· == c)) (lit rest)

/-- `r+`. -/
def plus (r : Regex) : Regex := .seq r (.star r)

/-- `r{n}`. -/
def times (r : Regex) : ℕ → Regex
  | 0 => .eps
  | n + 1 => .seq r (times r n)

/-- `\d`. -/
def digit : Regex := .char isDecimal

/-- `^` under `re.MULTILINE`: the start of the text, or just after a newline. -/
def lineStart : Regex :=
  .assert fun before _ => match before with
    | none => true
    | some c => c == '\n'

/-! ### The matcher -/

/-- Repeat a step as often as it goes on reading, the longest repetition first. -/
def repeatStep (step : Cursor → List Cursor) : ℕ → Cursor → List Cursor
  | 0, c => [c]
  | n + 1, c =>
      ((step c).filter fun d => d.after.length < c.after.length).flatMap (repeatStep step n)
        ++ [c]

/-- Every way to match at a position, most preferred first. -/
def results : Regex → Cursor → List Cursor
  | .eps, c => [c]
  | .char p, c =>
      match c.after with
      | [] => []
      | x :: rest => if p x then [⟨x :: c.before, rest, c.groups⟩] else []
  | .seq a b, c => (a.results c).flatMap b.results
  | .alt a b, c => a.results c ++ b.results c
  | .star a, c => repeatStep a.results c.after.length c
  | .group n a, c =>
      (a.results c).map fun d => ⟨d.before, d.after, (n, c.upTo d) :: d.groups⟩
  | .assert p, c => if p c.before.head? c.after.head? then [c] else []

/-- The preferred match at the start of a text: `re.match`. -/
def matchAt (r : Regex) (cs : List Char) : Option Cursor := (r.results ⟨[], cs, []⟩).head?

/-- The leftmost match at or after a position. -/
def searchFrom (r : Regex) (before : List Char) : List Char → Option Cursor
  | [] => (r.results ⟨before, [], []⟩).head?
  | c :: rest =>
      match (r.results ⟨before, c :: rest, []⟩).head? with
      | some d => some d
      | none => searchFrom r (c :: before) rest

/-- `re.search`. -/
def search (r : Regex) (s : String) : Option Cursor := r.searchFrom [] s.toList

/-! ### The relation the matcher enumerates -/

/-- `r.Match c d`: read from `c`, the expression can end at `d`. -/
inductive Match : Regex → Cursor → Cursor → Prop
  | eps {c : Cursor} : Match .eps c c
  | char {p : Char → Bool} {x : Char} {before rest : List Char} {groups : List (ℕ × List Char)}
      (h : p x = true) : Match (.char p) ⟨before, x :: rest, groups⟩ ⟨x :: before, rest, groups⟩
  | seq {a b : Regex} {c d e : Cursor} (ha : Match a c d) (hb : Match b d e) :
      Match (.seq a b) c e
  | altLeft {a b : Regex} {c d : Cursor} (h : Match a c d) : Match (.alt a b) c d
  | altRight {a b : Regex} {c d : Cursor} (h : Match b c d) : Match (.alt a b) c d
  | starNil {a : Regex} {c : Cursor} : Match (.star a) c c
  | starCons {a : Regex} {c d e : Cursor} (ha : Match a c d)
      (hlt : d.after.length < c.after.length) (hs : Match (.star a) d e) : Match (.star a) c e
  | group {n : ℕ} {a : Regex} {c d : Cursor} (h : Match a c d) :
      Match (.group n a) c ⟨d.before, d.after, (n, c.upTo d) :: d.groups⟩
  | assert {p : Option Char → Option Char → Bool} {c : Cursor}
      (h : p c.before.head? c.after.head? = true) : Match (.assert p) c c

/-- Enough repetitions are allowed for every repetition that goes on reading. -/
theorem mem_repeatStep {a : Regex} (ih : ∀ c d, d ∈ a.results c ↔ a.Match c d) :
    ∀ {n : ℕ} {c d : Cursor}, c.after.length ≤ n →
      (d ∈ repeatStep a.results n c ↔ (Regex.star a).Match c d) := by
  intro n
  induction n with
  | zero =>
      intro c d hn
      rw [repeatStep, List.mem_singleton]
      constructor
      · rintro rfl
        exact .starNil
      · intro h
        cases h with
        | starNil => rfl
        | starCons _ hlt _ => omega
  | succ n ihn =>
      intro c d hn
      simp only [repeatStep, List.mem_append, List.mem_flatMap, List.mem_filter,
        decide_eq_true_eq, List.mem_singleton]
      constructor
      · intro hx
        rcases hx with ⟨e, ⟨he, hlt⟩, hd⟩ | rfl
        · exact .starCons ((ih c e).mp he) hlt ((ihn (by omega)).mp hd)
        · exact .starNil
      · intro h
        cases h with
        | starNil => exact .inr rfl
        | starCons ha hlt hs =>
            exact .inl ⟨_, ⟨(ih _ _).mpr ha, hlt⟩, (ihn (by omega)).mpr hs⟩

/-- The matcher enumerates exactly the matches. -/
theorem mem_results {r : Regex} {c d : Cursor} : d ∈ r.results c ↔ r.Match c d := by
  induction r generalizing c d with
  | eps =>
      rw [results, List.mem_singleton]
      exact ⟨fun h => h ▸ .eps, fun h => by cases h; rfl⟩
  | char p =>
      obtain ⟨before, after, groups⟩ := c
      cases after with
      | nil => simp only [results, List.not_mem_nil, false_iff]; intro h; cases h
      | cons x rest =>
          by_cases hp : p x = true
          · simp only [results, hp, if_true, List.mem_singleton]
            exact ⟨fun h => h ▸ .char hp, fun h => by cases h; rfl⟩
          · simp only [results, hp, Bool.false_eq_true, if_false, List.not_mem_nil, false_iff]
            intro h
            cases h with
            | char h => exact hp h
  | seq a b iha ihb =>
      simp only [results, List.mem_flatMap, iha, ihb]
      exact ⟨fun ⟨_, ha, hb⟩ => .seq ha hb,
        fun h => by cases h with | seq ha hb => exact ⟨_, ha, hb⟩⟩
  | alt a b iha ihb =>
      simp only [results, List.mem_append, iha, ihb]
      constructor
      · intro hx
        rcases hx with h | h
        · exact .altLeft h
        · exact .altRight h
      · intro h
        cases h with
        | altLeft h => exact .inl h
        | altRight h => exact .inr h
  | star a ih =>
      rw [results]
      -- every round of a star reads a character, so as many rounds as characters suffice
      exact mem_repeatStep (fun c d => ih) le_rfl
  | group n a ih =>
      simp only [results, List.mem_map, ih]
      exact ⟨fun ⟨_, h, he⟩ => he ▸ .group h,
        fun h => by cases h with | group h => exact ⟨_, h, rfl⟩⟩
  | assert p =>
      by_cases hp : p c.before.head? c.after.head? = true
      · simp only [results, hp, if_true, List.mem_singleton]
        exact ⟨fun h => by rw [h]; exact .assert hp, fun h => by cases h; rfl⟩
      · simp only [results, hp, Bool.false_eq_true, if_false, List.not_mem_nil, false_iff]
        intro h
        cases h with
        | assert h => exact hp h

/-! ### Searching -/

theorem head?_isSome_of_match {r : Regex} {c d : Cursor} (h : r.Match c d) :
    (r.results c).head?.isSome = true := by
  have hmem : d ∈ r.results c := mem_results.mpr h
  cases hl : r.results c with
  | nil => rw [hl] at hmem; exact absurd hmem List.not_mem_nil
  | cons e es => rfl

/-- A search finds something as soon as one position of the text matches. -/
theorem searchFrom_isSome {r : Regex} {before pre cs : List Char} {d : Cursor}
    (h : r.Match ⟨pre.reverse ++ before, cs, []⟩ d) :
    (r.searchFrom before (pre ++ cs)).isSome = true := by
  induction pre generalizing before with
  | nil =>
      have hs := head?_isSome_of_match h
      cases cs with
      | nil => exact hs
      | cons c rest =>
          simp only [List.nil_append, List.reverse_nil] at hs ⊢
          rw [searchFrom]
          cases hh : (r.results ⟨before, c :: rest, []⟩).head? with
          | some e => rfl
          | none => rw [hh] at hs; exact absurd hs (by simp)
  | cons c pre ih =>
      rw [List.cons_append, searchFrom]
      cases (r.results ⟨before, c :: (pre ++ cs), []⟩).head? with
      | some e => rfl
      | none =>
          refine @ih (c :: before) ?_
          simpa using h

/-- A search that finds something found a match at some position. -/
theorem searchFrom_some {r : Regex} {before cs : List Char} {d : Cursor}
    (h : r.searchFrom before cs = some d) :
    ∃ pre post, cs = pre ++ post ∧ r.Match ⟨pre.reverse ++ before, post, []⟩ d := by
  induction cs generalizing before with
  | nil => exact ⟨[], [], rfl, mem_results.mp (List.mem_of_head? h)⟩
  | cons c rest ih =>
      rw [searchFrom] at h
      cases hh : (r.results ⟨before, c :: rest, []⟩).head? with
      | some e =>
          rw [hh] at h
          obtain rfl := Option.some.inj h
          exact ⟨[], c :: rest, rfl, mem_results.mp (List.mem_of_head? hh)⟩
      | none =>
          rw [hh] at h
          obtain ⟨pre, post, rfl, hm⟩ := ih h
          exact ⟨c :: pre, post, rfl, by simpa using hm⟩

/-! ### Matching the expressions built above -/

theorem match_lit (cs before rest : List Char) (groups : List (ℕ × List Char)) :
    (lit cs).Match ⟨before, cs ++ rest, groups⟩ ⟨cs.reverse ++ before, rest, groups⟩ := by
  induction cs generalizing before with
  | nil => exact .eps
  | cons c cs ih =>
      refine .seq (.char (by simp)) ?_
      have h := ih (c :: before)
      simpa using h

/-- A run of characters of a class is a repetition of that class. -/
theorem match_star_char {p : Char → Bool} {cs : List Char} (h : ∀ c ∈ cs, p c = true)
    (before rest : List Char) (groups : List (ℕ × List Char)) :
    (Regex.star (.char p)).Match ⟨before, cs ++ rest, groups⟩
      ⟨cs.reverse ++ before, rest, groups⟩ := by
  induction cs generalizing before with
  | nil => exact .starNil
  | cons c cs ih =>
      refine .starCons (.char (h c (by simp))) (by simp) ?_
      have hs := ih (fun d hd => h d (by simp [hd])) (c :: before)
      simpa using hs

/-- A nonempty run of characters of a class. -/
theorem match_plus_char {p : Char → Bool} {c : Char} {cs : List Char} (hc : p c = true)
    (h : ∀ d ∈ cs, p d = true) (before rest : List Char) (groups : List (ℕ × List Char)) :
    (plus (.char p)).Match ⟨before, c :: cs ++ rest, groups⟩
      ⟨(c :: cs).reverse ++ before, rest, groups⟩ := by
  refine .seq (.char hc) ?_
  have hs := match_star_char h (c :: before) rest groups
  simpa using hs

/-! ### What a match reads -/

theorem upTo_append (xs before before' rest : List Char) (groups groups' : List (ℕ × List Char)) :
    Cursor.upTo ⟨before, xs ++ rest, groups⟩ ⟨before', rest, groups'⟩ = xs := by
  simp [Cursor.upTo]

/-- A match reads on from its position. -/
theorem Match.reads {r : Regex} {c d : Cursor} (h : r.Match c d) :
    ∃ read, c.after = read ++ d.after ∧ d.before = read.reverse ++ c.before := by
  induction h with
  | eps | assert _ | starNil => exact ⟨[], rfl, rfl⟩
  | @char p x before rest groups _ => exact ⟨[x], rfl, rfl⟩
  | seq _ _ iha ihb | starCons _ _ _ iha ihb =>
      obtain ⟨x, hx, hx'⟩ := iha
      obtain ⟨y, hy, hy'⟩ := ihb
      exact ⟨x ++ y, by rw [hx, hy, List.append_assoc], by rw [hy', hx']; simp⟩
  | altLeft _ ih | altRight _ ih | group _ ih => exact ih

theorem match_char_iff {p : Char → Bool} {before cs : List Char} {groups : List (ℕ × List Char)}
    {d : Cursor} : (Regex.char p).Match ⟨before, cs, groups⟩ d ↔
      ∃ x rest, cs = x :: rest ∧ p x = true ∧ d = ⟨x :: before, rest, groups⟩ := by
  constructor
  · intro h
    cases h with
    | char h => exact ⟨_, _, rfl, h, rfl⟩
  · intro hex
    obtain ⟨x, rest, rfl, hx, rfl⟩ := hex
    exact .char hx

theorem match_seq_iff {a b : Regex} {c e : Cursor} :
    (Regex.seq a b).Match c e ↔ ∃ d, a.Match c d ∧ b.Match d e := by
  constructor
  · intro h
    cases h with
    | seq ha hb => exact ⟨_, ha, hb⟩
  · intro hx
    obtain ⟨d, ha, hb⟩ := hx
    exact .seq ha hb

theorem match_group_iff {a : Regex} {n : ℕ} {c e : Cursor} :
    (Regex.group n a).Match c e ↔
      ∃ d, a.Match c d ∧ e = ⟨d.before, d.after, (n, c.upTo d) :: d.groups⟩ := by
  constructor
  · intro h
    cases h with
    | group h => exact ⟨_, h, rfl⟩
  · intro hx
    obtain ⟨d, h, rfl⟩ := hx
    exact .group h

theorem match_assert_iff {p : Option Char → Option Char → Bool} {c d : Cursor} :
    (Regex.assert p).Match c d ↔ p c.before.head? c.after.head? = true ∧ d = c := by
  constructor
  · intro h
    cases h with
    | assert h => exact ⟨h, rfl⟩
  · intro hx
    obtain ⟨h, rfl⟩ := hx
    exact .assert h

/-- A literal matches at its own text and nowhere else. -/
theorem match_lit_iff {w before cs : List Char} {groups : List (ℕ × List Char)} {d : Cursor} :
    (lit w).Match ⟨before, cs, groups⟩ d ↔
      ∃ rest, cs = w ++ rest ∧ d = ⟨w.reverse ++ before, rest, groups⟩ := by
  constructor
  · intro h
    induction w generalizing before cs with
    | nil =>
        cases h with
        | eps => exact ⟨cs, rfl, rfl⟩
    | cons c w ih =>
        obtain ⟨e, hc, hw⟩ := match_seq_iff.mp h
        obtain ⟨x, rest, rfl, hx, rfl⟩ := match_char_iff.mp hc
        obtain rfl : x = c := by simpa using hx
        obtain ⟨rest', rfl, rfl⟩ := ih hw
        exact ⟨rest', rfl, by simp⟩
  · intro hex
    obtain ⟨rest, rfl, rfl⟩ := hex
    exact match_lit w before rest groups

theorem match_times_char_iff {p : Char → Bool} {n : ℕ} {before cs : List Char}
    {groups : List (ℕ × List Char)} {d : Cursor} :
    ((Regex.char p).times n).Match ⟨before, cs, groups⟩ d ↔
      ∃ xs rest, cs = xs ++ rest ∧ xs.length = n ∧ (∀ x ∈ xs, p x = true) ∧
        d = ⟨xs.reverse ++ before, rest, groups⟩ := by
  induction n generalizing before cs with
  | zero =>
      constructor
      · intro h
        cases h with
        | eps => exact ⟨[], cs, rfl, rfl, by simp, rfl⟩
      · intro hex
        obtain ⟨xs, rest, rfl, hn, -, rfl⟩ := hex
        obtain rfl := List.length_eq_zero_iff.mp hn
        exact .eps
  | succ n ih =>
      constructor
      · intro h
        obtain ⟨e, hc, hrest⟩ := match_seq_iff.mp h
        obtain ⟨x, rest, rfl, hx, rfl⟩ := match_char_iff.mp hc
        obtain ⟨xs, rest', rfl, hn, hxs, rfl⟩ := ih.mp hrest
        exact ⟨x :: xs, rest', rfl, congrArg (· + 1) hn, List.forall_mem_cons.mpr ⟨hx, hxs⟩,
          by simp⟩
      · intro hex
        obtain ⟨xs, rest, rfl, hn, hxs, rfl⟩ := hex
        obtain ⟨x, xs, rfl⟩ := List.exists_cons_of_length_eq_add_one hn
        obtain ⟨hx, hxs⟩ := List.forall_mem_cons.mp hxs
        refine .seq (.char hx) (ih.mpr ⟨xs, rest, rfl, ?_, hxs, by simp⟩)
        simpa using hn

/-! ### Searching past what does not match -/

theorem head?_eq_none_of_not_match {r : Regex} {c : Cursor} (h : ∀ d, ¬r.Match c d) :
    (r.results c).head? = none := by
  rw [List.head?_eq_none_iff, List.eq_nil_iff_forall_not_mem]
  exact fun d hd => h d (mem_results.mp hd)

/-- A search goes on from where nothing before matches. -/
theorem searchFrom_skip {r : Regex} {before pre post : List Char}
    (h : ∀ pre' c x, pre = pre' ++ c :: x → ∀ d,
      ¬r.Match ⟨pre'.reverse ++ before, c :: x ++ post, []⟩ d) :
    r.searchFrom before (pre ++ post) = r.searchFrom (pre.reverse ++ before) post := by
  induction pre generalizing before with
  | nil => rfl
  | cons c pre ih =>
      have hhere : (r.results ⟨before, c :: (pre ++ post), []⟩).head? = none :=
        head?_eq_none_of_not_match (h [] c pre rfl)
      rw [List.cons_append, searchFrom, hhere]
      have hrest : r.searchFrom (c :: before) (pre ++ post) =
          r.searchFrom (pre.reverse ++ c :: before) post := by
        refine ih fun pre' c' x heq d => ?_
        have hlater := h (c :: pre') c' x (by rw [heq, List.cons_append]) d
        simpa using hlater
      simpa using hrest

/-- A search stops where there is one match. -/
theorem searchFrom_here {r : Regex} {before cs : List Char} {d : Cursor}
    (h : ∀ e, r.Match ⟨before, cs, []⟩ e ↔ e = d) : r.searchFrom before cs = some d := by
  obtain ⟨e, he⟩ := Option.isSome_iff_exists.mp (head?_isSome_of_match ((h d).mpr rfl))
  obtain rfl := (h e).mp (mem_results.mp (List.mem_of_head? he))
  cases cs with
  | nil => exact he
  | cons c rest => rw [searchFrom, he]

/-- An expression for the start of a line is searched for line by line. -/
theorem searchFrom_lines {r : Regex} {lines : List (List Char)} {before post : List Char}
    (h : ∀ line ∈ lines, '\n' ∉ line ∧ ∀ before rest d,
      ¬(Regex.seq lineStart r).Match ⟨before, line ++ '\n' :: rest, []⟩ d) :
    (Regex.seq lineStart r).searchFrom before (lines.flatMap (· ++ ['\n']) ++ post) =
      (Regex.seq lineStart r).searchFrom
        ((lines.flatMap (· ++ ['\n'])).reverse ++ before) post := by
  induction lines generalizing before with
  | nil => rfl
  | cons line lines ih =>
      obtain ⟨⟨hline, hstart⟩, hlines⟩ := List.forall_mem_cons.mp h
      have hskip : (Regex.seq lineStart r).searchFrom before
          ((line ++ ['\n']) ++ (lines.flatMap (· ++ ['\n']) ++ post)) =
          (Regex.seq lineStart r).searchFrom ((line ++ ['\n']).reverse ++ before)
            (lines.flatMap (· ++ ['\n']) ++ post) := by
        refine searchFrom_skip fun pre' c x heq d hmatch => ?_
        cases pre' using List.reverseRecOn with
        | nil =>
            rw [List.nil_append] at heq
            refine hstart before (lines.flatMap (· ++ ['\n']) ++ post) d ?_
            rw [← heq] at hmatch
            simpa using hmatch
        | append_singleton pre' b =>
            -- the position is behind a character of the line
            obtain ⟨e, hassert, -⟩ := match_seq_iff.mp hmatch
            obtain ⟨hb, -⟩ := match_assert_iff.mp hassert
            have hmem : b ∈ line := by
              have hprefix : pre' ++ [b] <+: line := by
                have hinit := congrArg List.dropLast heq
                rw [List.dropLast_concat, List.dropLast_append_of_ne_nil (List.cons_ne_nil c x)]
                  at hinit
                exact ⟨_, hinit.symm⟩
              exact hprefix.subset (by simp)
            have hnewline : b = '\n' := by simpa using hb
            exact hline (hnewline ▸ hmem)
      rw [List.flatMap_cons, List.append_assoc, hskip, ih hlines]
      simp

end Regex

end NfOrchestrator
