import NfOrchestrator.Translate.Rules

/-!
# NfOrchestrator.Translate.Ambiguity

**A text that says two things.** The rule translator is to refuse a text with two environments,
two counts or two names, and not to choose. What a text says (`Named`, `Written`,
`explicitNames`) is compared with what the expressions of the translator find in it: they find
every environment, but not every number, and of the names they look at the first.
-/

namespace NfOrchestrator.Translate

open Unicode

/-! ### What a text says -/

/-- The environment is a word of the text, in either case. -/
def Named (text : String) (e : Environment) : Prop :=
  e.value.toList ∈ runs isWord (Str.lower text).toList

/-- The number is written in the text: as decimal digits, however many stand in a row, or as a
number word, in either case. -/
inductive Written (text : String) : ℕ → Prop
  | digits {ds : List Char} (h : ds ∈ runs isDecimal text.toList) : Written text (intOf ds)
  | word {w : String} {n : ℕ} (hw : (w, n) ∈ numberWords)
      (h : w.toList ∈ runs isWord (Str.lower text).toList) : Written text n

/-- The names given with `called`, `named` or `name`, at any position of the text. -/
def explicitNames (text : String) : List String :=
  (nameHint.everywhere text).map fun hint => String.ofList ((hint.captured 1).getD [])

/-- Everything the text says of a field is what the candidate has there. -/
structure Settles (text : String) (c : Candidate) : Prop where
  environment : ∀ e, Named text e → e.value = c.environment
  replicas : ∀ n, Written text n → n = c.replicas
  name : ∀ x ∈ explicitNames text, Str.lower x = c.name

/-- The text says two different things of one field. -/
inductive SaysTwo (text : String) : Prop
  | environment {e e' : Environment} (h : Named text e) (h' : Named text e') (hne : e ≠ e')
  | replicas {n n' : ℕ} (h : Written text n) (h' : Written text n') (hne : n ≠ n')
  | name {x y : String} (hx : x ∈ explicitNames text) (hy : y ∈ explicitNames text)
      (hne : Str.lower x ≠ Str.lower y)

/-- The translator does not choose between alternatives in the text. -/
structure NeverPicks (text : String) : Prop where
  settled : ∀ c, RuleTranslator.propose text = .ok c → Settles text c
  refused : SaysTwo text →
    ∃ message, RuleTranslator.propose text = .error (.translationError message)

/-! ### What the translator sees of it -/

/-- Digits that `COUNT` does not see: more than three, or part of a longer word. -/
def Unseen (text : String) (ds : List Char) : Prop :=
  ds ∈ runs isDecimal text.toList ∧
    ¬(ds ∈ runs isWord (Str.lower text).toList ∧ ds.length ≤ 3)

/-- One environment, one count and a name are found in the text. -/
def Readable (text : String) : Prop :=
  (∃ e, mentioned (Str.lower text) = [e]) ∧ (∃ n, counts (Str.lower text) = [n]) ∧
    (nameIn text).isSome

/-- The numbers that `COUNT` does not see are the one it sees, and all explicit names are the
same. -/
structure NothingElse (text : String) : Prop where
  numbers : ∀ n ∈ counts (Str.lower text), ∀ ds, Unseen text ds → intOf ds = n
  names : ∀ x ∈ explicitNames text, ∀ y ∈ explicitNames text, Str.lower x = Str.lower y

/-- The name found is the first of the explicit ones, if there is one. -/
theorem nameIn_of_explicitNames {text x : String} {rest : List String}
    (h : explicitNames text = x :: rest) : nameIn text = some x := by
  rw [explicitNames] at h
  rw [nameIn, Regex.search_eq_head?]
  cases hhints : nameHint.everywhere text with
  | nil => rw [hhints] at h; cases h
  | cons hint hints =>
      rw [hhints] at h
      exact congrArg some (List.cons.inj h).1

theorem Settles.not_saysTwo {text : String} {c : Candidate} (h : Settles text c) :
    ¬SaysTwo text := by
  intro htwo
  cases htwo with
  | @environment e e' he he' hne =>
      have hvalue := (h.environment e he).trans (h.environment e' he').symm
      cases e <;> cases e' <;> first | exact hne rfl | exact absurd hvalue (by decide)
  | replicas hn hn' hne => exact hne ((h.replicas _ hn).trans (h.replicas _ hn').symm)
  | name hx hy hne => exact hne ((h.name _ hx).trans (h.name _ hy).symm)

/-- What is found of a field is all there is, where the rest says the same. -/
theorem settles_of_nothingElse {text name : String} {e : Environment} {n : ℕ}
    (he : mentioned (Str.lower text) = [e]) (hn : counts (Str.lower text) = [n])
    (hname : nameIn text = some name) (h : NothingElse text) :
    Settles text { name := Str.lower name, replicas := n, environment := e.value } where
  environment := by
    intro e' hnamed
    rw [(mentioned_eq_singleton.mp he e').mp (mem_mentioned.mpr hnamed)]
  replicas := by
    intro n' hwritten
    have hseen : ∀ m, m ∈ counts (Str.lower text) → m = n :=
      fun m => (counts_eq_singleton.mp hn m).mp
    cases hwritten with
    | @digits ds hds =>
        by_cases hunseen : Unseen text ds
        · exact h.numbers n (by rw [hn]; exact List.mem_singleton_self n) ds hunseen
        · obtain ⟨hrun, hlength⟩ := not_not.mp (not_and.mp hunseen hds)
          obtain ⟨pre, post, -, hisrun⟩ := mem_runs.mp hds
          exact hseen _ (mem_counts.mpr ⟨ds, hrun, .digits hisrun.all hlength⟩)
    | word hw hrun => exact hseen _ (mem_counts.mpr ⟨_, hrun, .word hw⟩)
  name := by
    intro x hx
    cases hexplicit : explicitNames text with
    | nil => rw [hexplicit] at hx; cases hx
    | cons y rest =>
        rw [nameIn_of_explicitNames hexplicit] at hname
        obtain rfl := Option.some.inj hname
        exact h.names x hx y (by rw [hexplicit]; exact List.mem_cons_self)

/-- The translator does not choose exactly where what it overlooks says nothing else. -/
theorem never_picks_iff (text : String) :
    NeverPicks text ↔ (Readable text → NothingElse text) := by
  rcases RuleTranslator.propose_cases text with
    ⟨e, n, name, he, hn, hname, hok⟩ | ⟨hnone, message, herror⟩
  · constructor
    · intro h _
      have hsettles := h.settled _ hok
      refine ⟨fun m hm ds hunseen => ?_, fun x hx y hy => ?_⟩
      · rw [(counts_eq_singleton.mp hn m).mp hm]
        exact hsettles.replicas _ (.digits hunseen.1)
      · exact (hsettles.name x hx).trans (hsettles.name y hy).symm
    · intro h
      have hsettles := settles_of_nothingElse he hn hname
        (h ⟨⟨e, he⟩, ⟨n, hn⟩, by rw [hname]; rfl⟩)
      refine ⟨fun c hc => ?_, fun htwo => absurd htwo hsettles.not_saysTwo⟩
      obtain rfl := Except.ok.inj (hok.symm.trans hc)
      exact hsettles
  · have hunreadable : ¬Readable text := by
      intro hex
      obtain ⟨⟨e, he⟩, ⟨n, hn⟩, hname⟩ := hex
      obtain ⟨name, hname⟩ := Option.isSome_iff_exists.mp hname
      exact hnone e n name ⟨he, hn, hname⟩
    refine iff_of_true ⟨fun c hc => ?_, fun _ => ⟨message, herror⟩⟩
      fun h => absurd h hunreadable
    rw [herror] at hc
    cases hc

/-- A text with two numbers, of which `COUNT` sees one. -/
def twoNumbers : String := "deploy 2 replicas called edge-nf in dev, not 5000"

/-- The translator picks the one it sees. -/
theorem picks_a_count :
    RuleTranslator.propose twoNumbers =
        .ok { name := "edge-nf", replicas := 2, environment := "dev" } ∧
      Written twoNumbers 5000 ∧ ¬NeverPicks twoNumbers := by
  have hok : RuleTranslator.propose twoNumbers =
      .ok { name := "edge-nf", replicas := 2, environment := "dev" } := by decide +kernel
  have hwritten : Written twoNumbers 5000 :=
    .digits (show "5000".toList ∈ runs isDecimal twoNumbers.toList by decide +kernel)
  refine ⟨hok, hwritten, fun h => ?_⟩
  exact absurd ((h.settled _ hok).replicas 5000 hwritten) (by decide)

end NfOrchestrator.Translate
