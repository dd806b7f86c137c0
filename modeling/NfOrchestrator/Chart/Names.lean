import NfOrchestrator.Chart.Deployment

/-!
# NfOrchestrator.Chart.Names

**Which names survive the chart.** The template puts the release name into the manifest
without quotes, so a YAML reader resolves it by the core rules. Some names that an intent may
have look like a number, a boolean or a null (`Misread`), and they come back as one
(`survives_iff`).
-/

namespace NfOrchestrator.Chart

open Yaml
open Json (asciiDigit)

/-- A name that is no string to a YAML reader. -/
inductive Misread : List Char → Prop
  | null : Misread "null".toList
  | true : Misread "true".toList
  | false : Misread "false".toList
  | decimal {ds : List Char} (h : digits ds = .true) : Misread ds
  | octal {ds : List Char} (hne : ds ≠ []) (h : ds.all octalDigit = .true) :
      Misread ('0' :: 'o' :: ds)
  | hex {ds : List Char} (hne : ds ≠ []) (h : ds.all hexDigit = .true) : Misread ('0' :: 'x' :: ds)
  /-- `1e5` -/
  | exponent {ds es : List Char} (hds : digits ds = .true) (hes : digits es = .true) :
      Misread (ds ++ 'e' :: es)
  /-- `1e-5` -/
  | negative {ds es : List Char} (hds : digits ds = .true) (hes : digits es = .true) :
      Misread (ds ++ 'e' :: '-' :: es)

theorem based_eq_true {mark : Char} {digit : Char → Bool} {cs : List Char}
    (h : based mark digit cs = true) :
    ∃ ds, cs = '0' :: mark :: ds ∧ ds ≠ [] ∧ ds.all digit = true := by
  unfold based at h
  split at h
  · simp only [Bool.and_eq_true, beq_iff_eq, Bool.not_eq_true', List.isEmpty_eq_false_iff] at h
    obtain ⟨⟨rfl, hne⟩, hds⟩ := h
    exact ⟨_, rfl, hne, hds⟩
  · cases h

theorem fraction_append {ds es : List Char} (hds : digits ds = .true) :
    fraction (ds ++ 'e' :: es) = exponent ('e' :: es) := by
  rw [digits, Bool.and_eq_true, List.all_eq_true] at hds
  obtain ⟨hne, hall⟩ := hds
  have hdrop : (ds ++ 'e' :: es).dropWhile asciiDigit = 'e' :: es := by
    rw [List.dropWhile_append_of_pos hall]
    rfl
  cases ds with
  | nil => cases hne
  | cons d ds =>
      have hd : asciiDigit d = true := hall d List.mem_cons_self
      rw [fraction, hdrop]
      simp [hd]

theorem unsigned_digits {ds : List Char} (hds : digits ds = .true) : unsigned ds = ds := by
  rw [digits, Bool.and_eq_true, List.all_eq_true] at hds
  unfold unsigned
  split
  · exact absurd (hds.2 '-' List.mem_cons_self) (by decide)
  · exact absurd (hds.2 '+' List.mem_cons_self) (by decide)
  · rfl

/-! ### The characters of a name -/

/-- What `NAME_PATTERN` allows. -/
structure Name (cs : List Char) : Prop where
  edge : ∃ c rest, cs = c :: rest ∧ nameEdge c = true
  inner : ∀ c ∈ cs, nameInner c = true

theorem name_of_pattern {cs : List Char} (h : namePattern cs = true) : Name cs := by
  cases cs with
  | nil => cases h
  | cons c rest =>
      simp only [namePattern, Bool.and_eq_true, List.all_eq_true] at h
      obtain ⟨⟨hedge, hrest⟩, -⟩ := h
      refine ⟨⟨c, rest, rfl, hedge⟩, List.forall_mem_cons.mpr ⟨?_, hrest⟩⟩
      rw [nameInner, hedge, Bool.true_or]

section name

variable {cs : List Char} (h : Name cs)
include h

theorem Name.notMem {c : Char} (hc : nameInner c = false) : c ∉ cs := by
  intro hmem
  rw [h.inner c hmem] at hc
  cases hc

/-- A name is one unquoted scalar. -/
theorem Name.word : Word cs := by
  obtain ⟨c, rest, rfl, hedge⟩ := h.edge
  have hall : (indicators ++ ['-', '?', ':']).all (fun d => !nameEdge d) = true := by
    decide +kernel
  have hplain : c ∉ indicators ++ ['-', '?', ':'] := by
    intro hc
    have hnot := List.all_eq_true.mp hall c hc
    rw [hedge] at hnot
    cases hnot
  rw [List.mem_append, not_or] at hplain
  refine ⟨?_, h.notMem (by decide), h.notMem (by decide), h.notMem (by decide)⟩
  simp only [plainStart, Bool.and_eq_true, Bool.not_eq_true', Bool.or_eq_true,
    List.contains_eq_mem, decide_eq_false_iff_not]
  exact ⟨hplain.1, .inl hplain.2⟩

theorem Name.unsigned : unsigned cs = cs := by
  obtain ⟨c, rest, rfl, hedge⟩ := h.edge
  unfold Yaml.unsigned
  split
  · cases List.cons.inj (by assumption) |>.1
    exact absurd hedge (by decide)
  · cases List.cons.inj (by assumption) |>.1
    exact absurd hedge (by decide)
  · rfl

/-- Of the texts that the core rules list, one may be a name. -/
theorem Name.mem_iff {listed : List (List Char)} {allowed : List Char}
    (hlisted : ∀ l ∈ listed, l = allowed ∨ l = [] ∨ l.all nameInner = false)
    (hallowed : allowed ∈ listed) : cs ∈ listed ↔ cs = allowed := by
  constructor
  · intro hmem
    obtain heq | rfl | hnot := hlisted cs hmem
    · exact heq
    · obtain ⟨c, rest, hcons, -⟩ := h.edge
      cases hcons
    · rw [List.all_eq_true.mpr h.inner] at hnot
      cases hnot
  · rintro rfl
    exact hallowed

theorem Name.notMem_listed {listed : List (List Char)}
    (hlisted : ∀ l ∈ listed, l.all nameInner = false) : cs ∉ listed := by
  intro hmem
  have hnot := hlisted cs hmem
  rw [List.all_eq_true.mpr h.inner] at hnot
  cases hnot

theorem Name.isFloat_eq : isFloat cs = fraction cs := by
  have hinf : cs ∉ infinities := h.notMem_listed (by decide)
  have hnan : cs ∉ nans := h.notMem_listed (by decide)
  rw [isFloat, h.unsigned, decide_eq_false hinf, decide_eq_false hnan, Bool.or_false, Bool.or_false]

/-- A name that is a float is digits, or digits and an exponent: it has no point. -/
theorem Name.misread_of_fraction (hfloat : fraction cs = true) : Misread cs := by
  have hsplit : cs.takeWhile asciiDigit ++ cs.dropWhile asciiDigit = cs :=
    List.takeWhile_append_dropWhile
  have hrest : ∀ c ∈ cs.dropWhile asciiDigit, nameInner c = true :=
    fun c hc => h.inner c ((List.dropWhile_suffix _).subset hc)
  have hwhole : asciiDigit (cs.headD '.') = true → digits (cs.takeWhile asciiDigit) = true := by
    obtain ⟨c, rest, rfl, -⟩ := h.edge
    intro hc
    have hall : ((c :: rest).takeWhile asciiDigit).all asciiDigit = true :=
      List.all_eq_true.mpr fun d hd => List.mem_takeWhile_imp hd
    have hfirst : asciiDigit c = true := hc
    rw [digits, hall, List.takeWhile_cons_of_pos hfirst]
    rfl
  unfold fraction at hfloat
  generalize cs.dropWhile asciiDigit = rest at hsplit hrest hfloat
  cases rest with
  | nil =>
      rw [List.append_nil] at hsplit
      rw [Bool.and_eq_true] at hfloat
      exact .decimal (hsplit ▸ hwhole hfloat.1)
  | cons c rest =>
      obtain ⟨hc, hrest⟩ := List.forall_mem_cons.mp hrest
      have hpoint : c ≠ '.' := by
        rintro rfl
        exact absurd hc (by decide)
      have hdigits : asciiDigit (cs.headD '.') = true ∧ exponent (c :: rest) = true := by
        split at hfloat
        · rename_i heq
          exact absurd (List.cons.inj heq).1 hpoint
        · simpa using hfloat
      have hds := hwhole hdigits.1
      -- a name has no point and no capital, so what follows the digits is an exponent
      obtain ⟨he, hexponent⟩ : (c = 'e' ∨ c = 'E') ∧ digits (Yaml.unsigned rest) = true := by
        simpa [exponent] using hdigits.2
      have hcapital : c ≠ 'E' := by
        rintro rfl
        exact absurd hc (by decide)
      obtain rfl := he.resolve_right hcapital
      rw [← hsplit]
      unfold Yaml.unsigned at hexponent
      split at hexponent
      · exact .negative hds hexponent
      · rename_i hplus
        exact absurd (hrest '+' (by simp)) (by decide)
      · exact .exponent hds hexponent

theorem Name.resolve_iff : resolve cs = .str (String.ofList cs) ↔ ¬Misread cs := by
  rw [resolve_eq_str_iff, h.isFloat_eq, h.unsigned]
  have hnulls : cs ∈ nulls ↔ cs = "null".toList := h.mem_iff (by decide) (by decide)
  have htrues : cs ∈ trues ↔ cs = "true".toList := h.mem_iff (by decide) (by decide)
  have hfalses : cs ∈ falses ↔ cs = "false".toList := h.mem_iff (by decide) (by decide)
  rw [hnulls, htrues, hfalses]
  constructor
  · -- each way to misread a name is one of the core rules
    intro ⟨hnull, htrue, hfalse, hdigits, hoctal, hhex, hfloat⟩ hmisread
    cases hmisread with
    | null => exact hnull rfl
    | true => exact htrue rfl
    | false => exact hfalse rfl
    | decimal hds =>
        rw [hds] at hdigits
        cases hdigits
    | octal hne hds =>
        simp [based, hne, hds] at hoctal
    | hex hne hds =>
        simp [based, hne, hds] at hhex
    | exponent hds hes =>
        rw [fraction_append hds, exponent, unsigned_digits hes, hes] at hfloat
        cases hfloat
    | negative hds hes =>
        rw [fraction_append hds, exponent] at hfloat
        simp [Yaml.unsigned, hes] at hfloat
  · intro hnot
    refine ⟨?_, ?_, ?_, ?_, ?_, ?_, ?_⟩
    · rintro rfl
      exact hnot .null
    · rintro rfl
      exact hnot .true
    · rintro rfl
      exact hnot .false
    · rw [Bool.eq_false_iff]
      exact fun hds => hnot (.decimal hds)
    · rw [Bool.eq_false_iff]
      intro hbased
      obtain ⟨ds, rfl, hne, hds⟩ := based_eq_true hbased
      exact hnot (.octal hne hds)
    · rw [Bool.eq_false_iff]
      intro hbased
      obtain ⟨ds, rfl, hne, hds⟩ := based_eq_true hbased
      exact hnot (.hex hne hds)
    · rw [Bool.eq_false_iff]
      exact fun hfloat => hnot (h.misread_of_fraction hfloat)

end name

/-! ### The manifest -/

/-- The name is at the four places of the manifest, as the string that it is, so that the pods
are those that `app=<name>` selects. -/
structure Survives (name : String) (manifest : Yaml) : Prop where
  release : manifest.follow ["metadata", "name"] = some (.str name)
  label : manifest.follow ["metadata", "labels", "app"] = some (.str name)
  selector : manifest.follow ["spec", "selector", "matchLabels", "app"] = some (.str name)
  pods : manifest.follow ["spec", "template", "metadata", "labels", "app"] = some (.str name)

/-- `kubectl get pods -l key=value` lists the pods with these labels. -/
def Selects (selector : String) (labels : Yaml) : Prop :=
  ∃ key value, selector = key ++ "=" ++ value ∧ labels.get key = some (.str value)

theorem Survives.selected {name : String} {manifest : Yaml} (h : Survives name manifest) :
    ∃ labels, manifest.follow ["spec", "template", "metadata", "labels"] = some labels ∧
      Selects ("app=" ++ name) labels := by
  have hpods := h.pods
  have hsplit := follow_append manifest ["spec", "template", "metadata", "labels"] ["app"]
  rw [show ["spec", "template", "metadata", "labels"] ++ ["app"] =
    ["spec", "template", "metadata", "labels", "app"] from rfl] at hsplit
  rw [hsplit] at hpods
  obtain ⟨labels, hlabels, happ⟩ := Option.bind_eq_some_iff.mp hpods
  refine ⟨labels, hlabels, "app", name, rfl, ?_⟩
  simpa [Yaml.follow] using happ

theorem resolve_keys : ∀ key ∈ ["apiVersion", "kind", "metadata", "name", "labels", "app", "spec",
    "replicas", "selector", "matchLabels", "template"], resolve key.toList = .str key := by
  have hall : ∀ key ∈ ["apiVersion", "kind", "metadata", "name", "labels", "app", "spec",
      "replicas", "selector", "matchLabels", "template"],
      key.toList ∉ nulls ∧ key.toList ∉ trues ∧ key.toList ∉ falses ∧
        digits (unsigned key.toList) = false ∧ based 'o' octalDigit key.toList = false ∧
        based 'x' hexDigit key.toList = false ∧ isFloat key.toList = false := by decide +kernel
  intro key hkey
  have hstr := resolve_eq_str_iff.mpr (hall key hkey)
  rwa [String.ofList_toList] at hstr

theorem follow_manifest (release environment replicas : List Char) (spec : Yaml) :
    (manifest release environment replicas spec).follow ["metadata", "name"] =
        some (resolve release) ∧
      (manifest release environment replicas spec).follow ["metadata", "labels", "app"] =
        some (resolve release) ∧
      (manifest release environment replicas spec).follow
        ["spec", "selector", "matchLabels", "app"] = some (resolve release) ∧
      (manifest release environment replicas spec).follow
        ["spec", "template", "metadata", "labels", "app"] = some (resolve release) := by
  have hkeys := resolve_keys
  simp only [List.forall_mem_cons] at hkeys
  obtain ⟨hversion, hkind, hmetadata, hname, hlabels, happ, hspec, hreplicas, hselector, hmatch,
    htemplate, -⟩ := hkeys
  rw [manifest, hversion, hkind, hmetadata, hname, hlabels, happ, hspec, hreplicas, hselector,
    hmatch, htemplate]
  exact ⟨rfl, rfl, rfl, rfl⟩

theorem survives_iff_resolve (intent : Intent) :
    (∃ manifest, read (deployment (Deploy.releaseName intent) (valuesFor intent)) = some manifest ∧
      Survives intent.name manifest) ↔ resolve intent.name.toList = .str intent.name := by
  obtain ⟨spec, hread⟩ := deployment_read intent (name_of_pattern intent.name_ok.1).word
  obtain ⟨hrelease, hlabel, hselector, hpods⟩ := follow_manifest intent.name.toList
    intent.environment.value.toList (toString intent.replicas).toList spec
  simp only [hread, Option.some.injEq, exists_eq_left']
  constructor
  · intro hsurvives
    have hsome := hsurvives.release
    rw [hrelease] at hsome
    exact Option.some.inj hsome
  · intro hstr
    rw [hstr] at hrelease hlabel hselector hpods
    exact ⟨hrelease, hlabel, hselector, hpods⟩

/-- A name survives the chart unless it is misread. -/
theorem survives_iff (intent : Intent) :
    (∃ manifest, read (deployment (Deploy.releaseName intent) (valuesFor intent)) = some manifest ∧
      Survives intent.name manifest) ↔ ¬Misread intent.name.toList := by
  have hresolve := (name_of_pattern intent.name_ok.1).resolve_iff
  rw [String.ofList_toList] at hresolve
  rw [survives_iff_resolve, hresolve]

theorem numeral_ok : namePattern "123".toList = true ∧ "123".toList.length ≤ nameMaxLength := by
  decide +kernel

theorem two_ok : (1 : ℤ) ≤ 2 ∧ (2 : ℤ) ≤ 10 := by
  decide

def numeral : Intent where
  name := "123"
  replicas := 2
  environment := .dev
  name_ok := numeral_ok
  replicas_ok := two_ok

/-- The name `123` is read back as a number. -/
theorem numeral_lost : ¬∃ manifest,
    read (deployment (Deploy.releaseName numeral) (valuesFor numeral)) = some manifest ∧
      Survives numeral.name manifest := by
  rw [survives_iff_resolve]
  have hint : resolve numeral.name.toList = .int 123 := by rfl
  rw [hint]
  exact fun h => by cases h

end NfOrchestrator.Chart
