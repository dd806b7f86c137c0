import NfOrchestrator.Translate.Rules

/-!
# NfOrchestrator.Translate.Fragments

**The name among the words of a sentence.** To the rule translator a hyphen ends a word, so
the parts of a hyphenated name are words of the text like any others. What a sentence says of
the replicas and the environment is what its words say, those of the name included
(`words_sentence`), and so the name has a say in both exactly where it adds a word that counts
(`same_fields_iff`).
-/

namespace NfOrchestrator.Translate

open Unicode

/-- A name that an intent may have. -/
def ValidName (name : String) : Prop :=
  namePattern name.toList = true ∧ name.toList.length ≤ nameMaxLength

instance (name : String) : Decidable (ValidName name) := inferInstanceAs (Decidable (_ ∧ _))

/-- A sentence that gives the name with `called`. -/
def sentence (before name after : String) : String :=
  before ++ " called " ++ name ++ " " ++ after

/-! ### Its words -/

/-- The words of a text, in lower case. -/
def wordsOf (text : String) : List (List Char) := runs isWord (Str.lower text).toList

/-- The parts of a name between its hyphens. -/
def fragments (name : String) : List (List Char) := runs (· != '-') name.toList

theorem nameInner_ascii {c : Char} (h : nameInner c = true) : c.toNat < 0x80 := by
  simp only [nameInner, nameEdge, Bool.or_eq_true, Bool.and_eq_true, decide_eq_true_eq,
    beq_iff_eq, Char.le_def, UInt32.le_iff_toNat_le] at h
  rcases h with (⟨-, hz⟩ | ⟨-, hnine⟩) | rfl
  · exact lt_of_le_of_lt hz (by decide)
  · exact lt_of_le_of_lt hnine (by decide)
  · decide

/-- A character of a name is its own lowercase, and one of a word unless it is a hyphen. -/
theorem nameInner_word {c : Char} (h : nameInner c = true) :
    c.toLower = c ∧ isWord c = (c != '-') ∧ (nameEdge c = true → hintEdge c = true) := by
  have hall : ∀ n < 0x80, nameInner (Char.ofNat n) = true →
      (Char.ofNat n).toLower = Char.ofNat n ∧
        isWord (Char.ofNat n) = (Char.ofNat n != '-') ∧
          (nameEdge (Char.ofNat n) = true → hintEdge (Char.ofNat n) = true) := by decide +kernel
  have hc := hall c.toNat (nameInner_ascii h)
  rw [Char.ofNat_toNat] at hc
  exact hc h

theorem nameInner_of_validName {name : String} (h : ValidName name) :
    ∃ c rest, name.toList = c :: rest ∧ nameEdge c = true ∧
      ∀ d ∈ name.toList, nameInner d = true := by
  obtain ⟨hpattern, -⟩ := h
  cases hname : name.toList with
  | nil => rw [hname] at hpattern; cases hpattern
  | cons c rest =>
      rw [hname, namePattern, Bool.and_eq_true, Bool.and_eq_true] at hpattern
      obtain ⟨⟨hc, hrest⟩, -⟩ := hpattern
      refine ⟨c, rest, rfl, hc, List.forall_mem_cons.mpr ⟨?_, List.all_eq_true.mp hrest⟩⟩
      rw [nameInner, hc, Bool.true_or]

theorem lowerChars_of_lower {cs : List Char} (h : ∀ c ∈ cs, c.toNat < 0x80 ∧ c.toLower = c)
    (beforeRev : List Char) : Str.lowerChars beforeRev cs = cs := by
  induction cs generalizing beforeRev with
  | nil => rfl
  | cons c cs ih =>
      obtain ⟨hascii, hlower⟩ := h c List.mem_cons_self
      have hsigma : c ≠ 'Σ' := by
        rintro rfl
        exact absurd hascii (by decide)
      rw [Str.lowerChars, if_neg hsigma, lowerChar, if_pos hascii, hlower,
        ih fun d hd => h d (List.mem_cons_of_mem c hd)]
      rfl

theorem runs_name {name : String} (h : ValidName name) :
    runs isWord (Str.lowerChars [] name.toList) = fragments name := by
  obtain ⟨-, -, -, -, hinner⟩ := nameInner_of_validName h
  rw [lowerChars_of_lower fun c hc => ⟨nameInner_ascii (hinner c hc),
    (nameInner_word (hinner c hc)).1⟩]
  exact runs_congr fun c hc => (nameInner_word (hinner c hc)).2.1

/-- The words of the sentence are those before the name, `called`, the parts of the name, and
those after it. -/
theorem words_sentence {before name after : String} (h : ValidName name) :
    wordsOf (sentence before name after) =
      wordsOf before ++ "called".toList :: (fragments name ++ wordsOf after) := by
  have hspace : Str.Separates ' ' := by decide +kernel
  have hnot : isWord ' ' = false := by decide
  have htext : (sentence before name after).toList =
      before.toList ++ ' ' :: ("called".toList ++ ' ' :: (name.toList ++ ' ' :: after.toList)) := by
    simp [sentence, String.toList_append]
  have hcalled : runs isWord (Str.lowerChars [] "called".toList) = ["called".toList] := by
    decide +kernel
  simp only [wordsOf, Str.lower, String.toList_ofList, htext, Str.lowerChars_separator_after hspace,
    runs_append_cons hnot, hcalled, runs_name h, List.singleton_append]

/-! ### What it says -/

/-- The words of the sentence apart from the name. -/
def around (before after : String) : List (List Char) := wordsOf before ++ wordsOf after

/-- An environment that is a part of the name, and no word around it. -/
def AddsEnvironment (before name after : String) (e : Environment) : Prop :=
  e.value.toList ∈ fragments name ∧ e.value.toList ∉ around before after

/-- A count that is a part of the name, and no word around it. -/
def AddsCount (before name after : String) (n : ℕ) : Prop :=
  (∃ w ∈ fragments name, Counts w n) ∧ ¬∃ w ∈ around before after, Counts w n

/-- Both names add the same. -/
structure AddSame (before after name name' : String) : Prop where
  environments : ∀ e, AddsEnvironment before name after e ↔ AddsEnvironment before name' after e
  counts : ∀ n, AddsCount before name after n ↔ AddsCount before name' after n

/-- The words around the name and the parts of the name make one environment. -/
def OneEnvironment (before name after : String) (e : Environment) : Prop :=
  ∀ e', e'.value.toList ∈ around before after ++ fragments name ↔ e' = e

/-- The words around the name and the parts of the name make one count. -/
def OneCount (before name after : String) (n : ℕ) : Prop :=
  ∀ n', (∃ w ∈ around before after ++ fragments name, Counts w n') ↔ n' = n

/-- They make one of each. -/
def Decided (before name after : String) : Prop :=
  (∃ e, OneEnvironment before name after e) ∧ ∃ n, OneCount before name after n

/-- Both texts are refused, or both candidates have the same replicas and environment. -/
def SameFields (text text' : String) : Prop :=
  (∃ message message', RuleTranslator.propose text = .error (.translationError message) ∧
      RuleTranslator.propose text' = .error (.translationError message')) ∨
    ∃ c c', RuleTranslator.propose text = .ok c ∧ RuleTranslator.propose text' = .ok c' ∧
      c.replicas = c'.replicas ∧ c.environment = c'.environment

theorem not_counts {w : List Char} {n : ℕ} (hdigit : w.all isDecimal = false)
    (hword : ∀ x ∈ numberWords, x.1.toList ≠ w) : ¬Counts w n := by
  intro h
  cases h with
  | digits hds _ =>
      rw [List.all_eq_true.mpr hds] at hdigit
      cases hdigit
  | word hw => exact hword _ hw rfl

theorem not_counts_called {n : ℕ} : ¬Counts "called".toList n :=
  not_counts (by decide) (by decide)

theorem mem_words_iff {before name after : String} (h : ValidName name) (w : List Char) :
    w ∈ wordsOf (sentence before name after) ↔
      w = "called".toList ∨ w ∈ around before after ++ fragments name := by
  have hcomm : ∀ a b c f : Prop, (a ∨ c ∨ f ∨ b ↔ c ∨ (a ∨ b) ∨ f) := by tauto
  rw [words_sentence h, around]
  simp only [List.mem_append, List.mem_cons]
  exact hcomm _ _ _ _

theorem mentioned_sentence {before name after : String} (h : ValidName name) {e : Environment} :
    mentioned (Str.lower (sentence before name after)) = [e] ↔
      OneEnvironment before name after e := by
  rw [mentioned_eq_singleton]
  refine forall_congr' fun e' => iff_congr ?_ Iff.rfl
  have hcalled : e'.value.toList ≠ "called".toList := by cases e' <;> decide
  rw [mem_mentioned]
  exact (mem_words_iff h _).trans (or_iff_right hcalled)

theorem counts_sentence {before name after : String} (h : ValidName name) {n : ℕ} :
    counts (Str.lower (sentence before name after)) = [n] ↔ OneCount before name after n := by
  rw [counts_eq_singleton]
  refine forall_congr' fun n' => iff_congr ?_ Iff.rfl
  rw [mem_counts]
  constructor
  · intro hx
    obtain ⟨w, hw, hcounts⟩ := hx
    rcases (mem_words_iff h w).mp hw with rfl | hw
    · exact absurd hcounts not_counts_called
    · exact ⟨w, hw, hcounts⟩
  · intro hx
    obtain ⟨w, hw, hcounts⟩ := hx
    exact ⟨w, (mem_words_iff h w).mpr (.inr hw), hcounts⟩

theorem match_litIgnoreCase {cs : List Char} (h : cs.all (fun c => c.toLower == c) = true)
    (before rest : List Char) (groups : List (ℕ × List Char)) :
    (litIgnoreCase cs).Match ⟨before, cs ++ rest, groups⟩ ⟨cs.reverse ++ before, rest, groups⟩ := by
  induction cs generalizing before with
  | nil => exact .eps
  | cons c cs ih =>
      rw [List.all_cons, Bool.and_eq_true] at h
      obtain ⟨hc, hcs⟩ := h
      refine .seq (.char (by simpa using hc)) ?_
      have hrest := ih hcs (c :: before)
      simpa using hrest

/-- There is always a name to find: `NAME_HINT` matches where the sentence says `called`. -/
theorem nameIn_sentence {before name after : String} (h : ValidName name) :
    ∃ found, nameIn (sentence before name after) = some found := by
  obtain ⟨c, rest, hname, hedge, hinner⟩ := nameInner_of_validName h
  rw [hname] at hinner
  obtain ⟨hc, hrest⟩ := List.forall_mem_cons.mp hinner
  have hstar : ∀ d ∈ rest, hintInner d = true := by
    intro d hd
    have hd' := hrest d hd
    rw [nameInner, Bool.or_eq_true] at hd'
    rw [hintInner, Bool.or_eq_true]
    exact hd'.imp_left (nameInner_word (hrest d hd)).2.2
  have htext : (sentence before name after).toList =
      (before.toList ++ [' ']) ++
        ("called".toList ++ ' ' :: (c :: rest ++ ' ' :: after.toList)) := by
    simp [sentence, String.toList_append, hname]
  have hmatch : ∃ d, nameHint.Match ⟨(before.toList ++ [' ']).reverse ++ [],
      "called".toList ++ ' ' :: (c :: rest ++ ' ' :: after.toList), []⟩ d := by
    rw [List.reverse_append, List.append_nil]
    refine ⟨_, .seq (.assert rfl) (.seq (.altLeft (match_litIgnoreCase (by decide) _ _ _))
      (.seq (@Regex.match_plus_char _ _ [] (by decide) (by simp) _ _ _)
        (.group (.seq (.char ((nameInner_word hc).2.2 hedge))
          (Regex.match_star_char hstar _ _ _)))))⟩
  obtain ⟨d, hd⟩ := hmatch
  have hsome := Regex.searchFrom_isSome hd
  rw [← htext] at hsome
  obtain ⟨hint, hhint⟩ := Option.isSome_iff_exists.mp hsome
  exact ⟨String.ofList ((hint.captured 1).getD []), by rw [nameIn, Regex.search, hhint]⟩

/-- What the sentence is translated to depends on what its words decide. -/
theorem propose_sentence {before name after : String} (h : ValidName name) :
    (∃ e n c, OneEnvironment before name after e ∧ OneCount before name after n ∧
      RuleTranslator.propose (sentence before name after) = .ok c ∧ c.replicas = n ∧
        c.environment = e.value) ∨
    (¬Decided before name after ∧ ∃ message, RuleTranslator.propose (sentence before name after) =
      .error (.translationError message)) := by
  rcases RuleTranslator.propose_cases (sentence before name after) with
    ⟨e, n, found, he, hn, -, hok⟩ | ⟨hnone, message, herror⟩
  · exact .inl ⟨e, n, _, (mentioned_sentence h).mp he, (counts_sentence h).mp hn, hok, rfl, rfl⟩
  · refine .inr ⟨?_, message, herror⟩
    intro hx
    obtain ⟨⟨e, he⟩, ⟨n, hn⟩⟩ := hx
    obtain ⟨found, hfound⟩ := @nameIn_sentence before _ after h
    exact hnone e n found ⟨(mentioned_sentence h).mpr he, (counts_sentence h).mpr hn, hfound⟩

/-- To add the same to `a` is to make the same of it. -/
theorem or_iff_or_iff (a f f' : Prop) : (a ∨ f ↔ a ∨ f') ↔ (f ∧ ¬a ↔ f' ∧ ¬a) := by tauto

theorem environment_iff {before after name name' : String} (e : Environment) :
    (e.value.toList ∈ around before after ++ fragments name ↔
        e.value.toList ∈ around before after ++ fragments name') ↔
      (AddsEnvironment before name after e ↔ AddsEnvironment before name' after e) := by
  simp only [List.mem_append]
  exact or_iff_or_iff _ _ _

theorem count_iff {before after name name' : String} (n : ℕ) :
    ((∃ w ∈ around before after ++ fragments name, Counts w n) ↔
        ∃ w ∈ around before after ++ fragments name', Counts w n) ↔
      (AddsCount before name after n ↔ AddsCount before name' after n) := by
  simp only [List.mem_append, or_and_right, exists_or]
  exact or_iff_or_iff _ _ _

/-- Names that add the same decide the same. -/
theorem AddSame.oneEnvironment {before after name name' : String}
    (h : AddSame before after name name') (e : Environment) :
    OneEnvironment before name after e ↔ OneEnvironment before name' after e :=
  forall_congr' fun e' => iff_congr ((environment_iff e').mpr (h.environments e')) Iff.rfl

theorem AddSame.oneCount {before after name name' : String}
    (h : AddSame before after name name') (n : ℕ) :
    OneCount before name after n ↔ OneCount before name' after n :=
  forall_congr' fun n' => iff_congr ((count_iff n').mpr (h.counts n')) Iff.rfl

theorem AddSame.decided {before after name name' : String}
    (h : AddSame before after name name') :
    Decided before name after ↔ Decided before name' after :=
  and_congr (exists_congr h.oneEnvironment) (exists_congr h.oneCount)

theorem addSame_of_one {before after name name' : String} {e : Environment} {n : ℕ}
    (he : OneEnvironment before name after e) (hn : OneCount before name after n)
    (he' : OneEnvironment before name' after e) (hn' : OneCount before name' after n) :
    AddSame before after name name' where
  environments := fun e' => (environment_iff e').mp ((he e').trans (he' e').symm)
  counts := fun n' => (count_iff n').mp ((hn n').trans (hn' n').symm)

theorem value_injective {e e' : Environment} (h : e.value = e'.value) : e = e' := by
  cases e <;> cases e' <;> first | rfl | exact absurd h (by decide)

theorem not_sameFields {text text' message : String} {c : Candidate}
    (hok : RuleTranslator.propose text = .ok c)
    (herror : RuleTranslator.propose text' = .error (.translationError message)) :
    ¬SameFields text text' ∧ ¬SameFields text' text := by
  constructor
  · intro hx
    rcases hx with ⟨m, m', h, -⟩ | ⟨c, c', -, h, -⟩
    · rw [hok] at h; cases h
    · rw [herror] at h; cases h
  · intro hx
    rcases hx with ⟨m, m', -, h⟩ | ⟨c, c', h, -⟩
    · rw [hok] at h; cases h
    · rw [herror] at h; cases h

/-- Two names lead to the same replicas and environment exactly where they add the same words
that count, or where the words decide nothing with either of them. -/
theorem same_fields_iff {before after name name' : String} (h : ValidName name)
    (h' : ValidName name') :
    SameFields (sentence before name after) (sentence before name' after) ↔
      AddSame before after name name' ∨
        (¬Decided before name after ∧ ¬Decided before name' after) := by
  rcases @propose_sentence before _ after h with
    ⟨e, n, c, he, hn, hok, hreplicas, henvironment⟩ | ⟨hnot, message, herror⟩
  · -- both sentences can be refused, one of them, or neither
    have hdecided : Decided before name after := ⟨⟨e, he⟩, ⟨n, hn⟩⟩
    rcases @propose_sentence before _ after h' with
      ⟨e', n', c', he', hn', hok', hreplicas', henvironment'⟩ | ⟨hnot', message', herror'⟩
    · constructor
      · intro hx
        rcases hx with ⟨m, m', herror, -⟩ | ⟨d, d', hd, hd', hsame, hsame'⟩
        · rw [hok] at herror
          cases herror
        · obtain rfl := Except.ok.inj (hok.symm.trans hd)
          obtain rfl := Except.ok.inj (hok'.symm.trans hd')
          obtain rfl : n = n' := by rw [← hreplicas, ← hreplicas', hsame]
          obtain rfl : e = e' := value_injective (by rw [← henvironment, ← henvironment', hsame'])
          exact .inl (addSame_of_one he hn he' hn')
      · intro hx
        rcases hx with hadd | ⟨hnot, -⟩
        · obtain rfl : e = e' := (he' e).mp (((hadd.oneEnvironment e).mp he e).mpr rfl)
          obtain rfl : n = n' := (hn' n).mp (((hadd.oneCount n).mp hn n).mpr rfl)
          exact .inr ⟨c, c', hok, hok', hreplicas.trans hreplicas'.symm,
            henvironment.trans henvironment'.symm⟩
        · exact absurd hdecided hnot
    · refine iff_of_false (not_sameFields hok herror').1 ?_
      intro hx
      rcases hx with hadd | ⟨hnot, -⟩
      · exact hnot' (hadd.decided.mp hdecided)
      · exact hnot hdecided
  · rcases @propose_sentence before _ after h' with
      ⟨e', n', c', he', hn', hok', -⟩ | ⟨hnot', message', herror'⟩
    · have hdecided' : Decided before name' after := ⟨⟨e', he'⟩, ⟨n', hn'⟩⟩
      refine iff_of_false (not_sameFields hok' herror).2 ?_
      intro hx
      rcases hx with hadd | ⟨-, hnot'⟩
      · exact hnot (hadd.decided.mpr hdecided')
      · exact hnot' hdecided'
    · exact iff_of_true (.inl ⟨message, message', herror, herror'⟩) (.inr ⟨hnot, hnot'⟩)

/-- Names without a word that counts. -/
theorem same_fields_iff_plain :
    SameFields (sentence "deploy 2 replicas" "edge-nf" "in dev")
      (sentence "deploy 2 replicas" "core-nf" "in dev") := by
  have hadds : ∀ name : String, (∀ e : Environment, e.value.toList ∉ fragments name) →
      (∀ w ∈ fragments name, ∀ n, ¬Counts w n) →
      (∀ e, ¬AddsEnvironment "deploy 2 replicas" name "in dev" e) ∧
        ∀ n, ¬AddsCount "deploy 2 replicas" name "in dev" n :=
    fun name he hn => ⟨fun e h => he e h.1, fun n h => h.1.elim fun w hw => hn w hw.1 n hw.2⟩
  have hplain : ∀ w ∈ [['e', 'd', 'g', 'e'], ['n', 'f'], ['c', 'o', 'r', 'e']], ∀ n,
      ¬Counts w n := by
    have hwords : ∀ w ∈ [['e', 'd', 'g', 'e'], ['n', 'f'], ['c', 'o', 'r', 'e']],
        w.all isDecimal = false ∧ ∀ x ∈ numberWords, x.1.toList ≠ w := by decide
    exact fun w hw n => not_counts (hwords w hw).1 (hwords w hw).2
  have hedge := hadds "edge-nf" (by rintro (_ | _) <;> decide)
    (fun w hw => hplain w (by revert w; decide))
  have hcore := hadds "core-nf" (by rintro (_ | _) <;> decide)
    (fun w hw => hplain w (by revert w; decide))
  exact (same_fields_iff (by decide) (by decide)).mpr (.inl
    ⟨fun e => iff_of_false (hedge.1 e) (hcore.1 e), fun n => iff_of_false (hedge.2 n) (hcore.2 n)⟩)

/-- A number in the name is taken for the replicas. -/
theorem count_from_name :
    ValidName "amf" ∧ ValidName "amf-3" ∧
      RuleTranslator.propose (sentence "deploy" "amf" "in dev") =
        .error (.translationError RuleTranslator.noCount) ∧
      RuleTranslator.propose (sentence "deploy" "amf-3" "in dev") =
        .ok { name := "amf-3", replicas := 3, environment := "dev" } ∧
      ¬SameFields (sentence "deploy" "amf" "in dev") (sentence "deploy" "amf-3" "in dev") := by
  have herror : RuleTranslator.propose (sentence "deploy" "amf" "in dev") =
      .error (.translationError RuleTranslator.noCount) := by decide +kernel
  have hok : RuleTranslator.propose (sentence "deploy" "amf-3" "in dev") =
      .ok { name := "amf-3", replicas := 3, environment := "dev" } := by decide +kernel
  exact ⟨by decide, by decide, herror, hok, (not_sameFields hok herror).2⟩

end NfOrchestrator.Translate
