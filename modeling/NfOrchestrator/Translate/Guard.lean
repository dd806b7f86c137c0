import NfOrchestrator.Translate.Boundary

/-!
# NfOrchestrator.Translate.Guard

**What the boundary promises of any proposal.** Every proposal is refused with
`TranslationError`, or gives an intent made of its own three values, with a warning that
names what was dropped. The one way out besides these two is the warning itself: it cannot
be written when a dropped key is not a text (`guarded_iff`).
-/

namespace NfOrchestrator.Translate

variable {Obj : Type}

/-! ### The warnings -/

theorem mapM_text?_eq_some {keys : List (Value Obj)} {texts : List String} :
    keys.mapM Value.text? = some texts ↔ keys = texts.map .str := by
  induction keys generalizing texts with
  | nil => cases texts <;> simp
  | cons key rest ih =>
      cases key <;> cases texts <;> simp [List.mapM_cons, Value.text?, ih, Option.bind_eq_some_iff,
        and_comm]

/-- Keys that are all texts are each in the sorted list, and others cannot be sorted and
joined. -/
theorem joinSorted_spec (keys : List (Value Obj)) :
    (∃ joined, joinSorted keys = .ok joined ∧
      ∀ key ∈ keys, ∃ s, key = .str s ∧ Str.contains s joined = true) ∨
    ((∃ key ∈ keys, ∀ s, key ≠ .str s) ∧ joinSorted keys = .error (.py .typeError)) := by
  rw [joinSorted]
  cases htexts : keys.mapM Value.text? with
  | some texts =>
      refine .inl ⟨_, rfl, fun key hkey => ?_⟩
      obtain rfl := mapM_text?_eq_some.mp htexts
      obtain ⟨s, hs, rfl⟩ := List.mem_map.mp hkey
      exact ⟨s, rfl, Str.contains_join ((List.mem_insertionSort _).mpr hs)⟩
  | none =>
      refine .inr ⟨?_, rfl⟩
      by_contra hall
      push Not at hall
      have hmap : keys = (keys.filterMap Value.text?).map .str := by
        clear htexts
        induction keys with
        | nil => rfl
        | cons key rest ih =>
            obtain ⟨s, rfl⟩ := hall key List.mem_cons_self
            have hrest := ih fun k hk => hall k (List.mem_cons_of_mem _ hk)
            simpa [Value.text?] using hrest
      rw [mapM_text?_eq_some.mpr hmap] at htexts
      cases htexts

theorem droppedNote_ne_prodNote (s : String) : droppedNote ++ s ≠ prodNote := by
  intro h
  have hfirst := congrArg (fun t => t.toList.take 2) h
  simp only [String.toList_append] at hfirst
  rw [List.take_append_of_le_length (by decide)] at hfirst
  exact absurd hfirst (by decide)

/-- The warnings name every dropped key and flag an intent for prod, unless a dropped key
is not a text. -/
theorem warningsFor_spec (intent : Intent) (dropped : List (Value Obj)) :
    (∃ warnings, warningsFor intent dropped = .ok warnings ∧
      (∀ key ∈ dropped, ∃ s, key = .str s ∧
        ∃ warning ∈ warnings, Str.contains s warning = true) ∧
      (prodNote ∈ warnings ↔ intent.environment = .prod)) ∨
    ((∃ key ∈ dropped, ∀ s, key ≠ .str s) ∧
      warningsFor intent dropped = .error (.py .typeError)) := by
  have hnotes : prodNote ∈ (if intent.environment = .prod then [prodNote] else []) ↔
      intent.environment = .prod := by
    split_ifs with h <;> simp [h]
  rw [warningsFor]
  cases hdropped : dropped.isEmpty with
  | true =>
      obtain rfl := List.isEmpty_iff.mp hdropped
      exact .inl ⟨_, rfl, by simp, hnotes⟩
  | false =>
      rcases joinSorted_spec dropped with ⟨joined, hjoined, hnamed⟩ | ⟨hkey, hjoined⟩
      · refine .inl ⟨_, by rw [hjoined]; rfl, fun key hkey => ?_, ?_⟩
        · obtain ⟨s, rfl, hs⟩ := hnamed key hkey
          exact ⟨s, rfl, _, List.mem_append_right _ (List.mem_singleton_self _),
            Str.contains_append_right hs⟩
        · rw [List.mem_append, List.mem_singleton, hnotes, or_iff_left]
          exact (droppedNote_ne_prodNote joined).symm
      · exact .inr ⟨hkey, by rw [hjoined]; rfl⟩

variable [DecidableEq Obj]

/-! ### The promise -/

/-- The result is a valid intent with the proposal's values, and its warnings name all that
was dropped and say whether the intent is for prod. -/
structure Answers (items : List (Value Obj × Value Obj)) (result : Translated Obj) : Prop where
  valid : ∃ intent : Intent, result.intent = modelDump intent
  own : ∀ field ∈ intentFields, result.intent.lookup field = items.lookup (.str field)
  named : ∀ key ∈ items.map Prod.fst, Foreign key →
    ∃ s, key = .str s ∧ ∃ warning ∈ result.warnings, Str.contains s warning = true
  prod : prodNote ∈ result.warnings ↔ result.intent.lookup "environment" = some (.str "prod")

/-- Only `TranslationError` and an answer leave the boundary, and a text that is blank or too
long does not reach the translator. -/
structure Guarded (text : String) (proposal : Proposal Obj) (tr : List (Event (sig Obj)))
    (x : Except Raised (Translated Obj)) : Prop where
  bounded : Str.strip text = "" ∨ maxTextLength < text.toList.length →
    tr = [] ∧ ∃ message, x = .error (.translationError message)
  ends : (∃ message, x = .error (.translationError message)) ∨
    ∃ items nodup result, proposal = .dict items nodup ∧ x = .ok result ∧ Answers items result

/-- A strict model takes each field as it is given, and asks for all of them. -/
def Strict (modelValidate : List (String × Value Obj) → Except String Intent) : Prop :=
  ∀ fields intent, modelValidate fields = .ok intent →
    ∀ field ∈ intentFields, fields.lookup field = (modelDump intent).lookup field

/-- The text is refused, the proposal is refused, or its other keys are texts. -/
def Tame (modelValidate : List (String × Value Obj) → Except String Intent) (text : String)
    (proposal : Proposal Obj) : Prop :=
  Str.strip text = "" ∨ maxTextLength < text.toList.length ∨
    (∀ fields intent, pickFields proposal = .ok fields → modelValidate fields ≠ .ok intent) ∨
    ∀ key ∈ droppedKeys proposal, ∃ s, key = .str s

/-- A translator that returns this proposal, whatever it is asked. -/
def proposing (proposal : Proposal Obj) : Env (sig Obj) Unit :=
  replying fun _ (r : Except Raised (Proposal Obj)) => r = .ok proposal

/-! ### A run of the boundary -/

variable {modelValidate : List (String × Value Obj) → Except String Intent}
  {translator text : String} {proposal : Proposal Obj} {tr : List (Event (sig Obj))}
  {x : Except Raised (Translated Obj)}

/-- A refused text reaches no translator; any other is asked about, and the rest is computed. -/
theorem runs_translate
    (h : (translate modelValidate translator text).Runs (proposing proposal).logged ((), []) x
      ((), tr)) :
    ((Str.strip text = "" ∨ maxTextLength < text.toList.length) ∧ tr = [] ∧
      ∃ message, x = .error (.translationError message)) ∨
    (¬(Str.strip text = "" ∨ maxTextLength < text.toList.length) ∧
      x = fromProposal modelValidate translator proposal) := by
  rw [translate] at h
  split_ifs at h with hblank hlong
  · obtain ⟨rfl, htr⟩ := h
    exact .inl ⟨.inl hblank, congrArg Prod.snd htr, _, rfl⟩
  · obtain ⟨rfl, htr⟩ := h
    exact .inl ⟨.inr hlong, congrArg Prod.snd htr, _, rfl⟩
  · obtain ⟨_, w₁, ⟨rfl, -⟩, h⟩ := h
    exact .inr ⟨by simp [hblank, hlong], (Prog.runs_ofExcept.mp h).1⟩

theorem value_eq_prod_iff (environment : Environment) :
    environment.value = "prod" ↔ environment = .prod := by
  cases environment <;> decide

theorem lookup_filterMap_fields (items : List (Value Obj × Value Obj)) {field : String}
    (hfield : field ∈ intentFields) :
    (intentFields.filterMap fun key =>
      (items.lookup (.str key)).map fun v => (key, v)).lookup field =
        items.lookup (.str field) := by
  have hcases : field = "name" ∨ field = "replicas" ∨ field = "environment" := by
    simpa [intentFields] using hfield
  simp only [intentFields, List.filterMap_cons, List.filterMap_nil]
  rcases hcases with rfl | rfl | rfl <;>
    cases items.lookup (.str "name") <;> cases items.lookup (.str "replicas") <;>
      cases items.lookup (.str "environment") <;> simp [List.lookup_cons]

/-- A proposal is refused, or gives an answer, unless a dropped key is not a text. -/
theorem fromProposal_spec (hstrict : Strict modelValidate) (translator : String)
    (proposal : Proposal Obj) :
    (∃ message,
        fromProposal modelValidate translator proposal = .error (.translationError message)) ∧
        (∀ fields intent, pickFields proposal = .ok fields → modelValidate fields ≠ .ok intent) ∨
    ((∃ items nodup result, proposal = .dict items nodup ∧
        fromProposal modelValidate translator proposal = .ok result ∧ Answers items result) ∧
      ∀ key ∈ droppedKeys proposal, ∃ s, key = .str s) ∨
    fromProposal modelValidate translator proposal = .error (.py .typeError) ∧
      (∃ fields intent, pickFields proposal = .ok fields ∧ modelValidate fields = .ok intent) ∧
      ∃ key ∈ droppedKeys proposal, ∀ s, key ≠ .str s := by
  cases proposal with
  | notDict typeName => exact .inl ⟨⟨_, rfl⟩, by simp [pickFields]⟩
  | dict items nodup =>
      cases hvalid : modelValidate (intentFields.filterMap fun key =>
          (items.lookup (.str key)).map fun v => (key, v)) with
      | error exc =>
          refine .inl ⟨⟨"candidate failed intent validation: " ++ exc, ?_⟩, ?_⟩
          · simp only [fromProposal, pickFields, bind, Except.bind, hvalid]
            rfl
          · intro fields intent hfields hok
            obtain rfl := Except.ok.inj hfields
            rw [hvalid] at hok
            cases hok
      | ok intent =>
          have hfrom : fromProposal modelValidate translator (.dict items nodup) = do
              let warnings ← warningsFor intent (droppedKeys (.dict items nodup))
              return { intent := modelDump intent, translator := translator,
                       warnings := warnings } := by
            simp only [fromProposal, pickFields, bind, Except.bind, hvalid]
          rw [hfrom]
          rcases warningsFor_spec intent (droppedKeys (.dict items nodup)) with
            ⟨warnings, hwarnings, hnamed, hprod⟩ | ⟨hkey, hwarnings⟩
          · refine .inr (.inl ⟨⟨items, nodup, _, rfl, by rw [hwarnings]; rfl, ?_⟩, ?_⟩)
            · refine ⟨⟨intent, rfl⟩, fun field hfield => ?_, fun key hkey hforeign => ?_, ?_⟩
              · rw [← hstrict _ _ hvalid field hfield, lookup_filterMap_fields items hfield]
              · exact hnamed key (List.mem_filter.mpr ⟨hkey, decide_eq_true hforeign⟩)
              · change _ ↔ some (Value.str intent.environment.value) = some (.str "prod")
                rw [hprod, Option.some.injEq, Value.str.injEq, value_eq_prod_iff]
            · intro key hkey
              obtain ⟨s, hs, -⟩ := hnamed key hkey
              exact ⟨s, hs⟩
          · refine .inr (.inr ⟨by rw [hwarnings]; rfl, ⟨_, intent, rfl, hvalid⟩, hkey⟩)

/-- The boundary keeps its promise of a proposal exactly when it is tame: the one exception
that leaves it besides `TranslationError` is raised for an accepted proposal with a further
key that is not a text. -/
theorem guarded_iff (hstrict : Strict modelValidate)
    (h : (translate modelValidate translator text).Runs (proposing proposal).logged ((), []) x
      ((), tr)) : Guarded text proposal tr x ↔ Tame modelValidate text proposal := by
  rcases runs_translate h with ⟨hbounded, rfl, message, rfl⟩ | ⟨hbounded, rfl⟩
  · refine iff_of_true ⟨fun _ => ⟨rfl, message, rfl⟩, .inl ⟨message, rfl⟩⟩ ?_
    exact hbounded.elim .inl fun hlong => .inr (.inl hlong)
  · have htame : Tame modelValidate text proposal ↔
        (∀ fields intent, pickFields proposal = .ok fields → modelValidate fields ≠ .ok intent) ∨
        ∀ key ∈ droppedKeys proposal, ∃ s, key = .str s := by
      rw [Tame, ← or_assoc, or_iff_right hbounded]
    rw [htame]
    rcases fromProposal_spec hstrict translator proposal with
      ⟨⟨message, hfrom⟩, hinvalid⟩ | ⟨⟨items, nodup, result, rfl, hfrom, hanswers⟩, htexts⟩ |
      ⟨hfrom, ⟨fields, intent, hfields, hvalid⟩, key, hkey, htext⟩
    · exact iff_of_true ⟨fun h => absurd h hbounded, .inl ⟨message, hfrom⟩⟩ (.inl hinvalid)
    · refine iff_of_true ⟨fun h => absurd h hbounded, .inr ?_⟩ (.inr htexts)
      exact ⟨items, nodup, result, rfl, hfrom, hanswers⟩
    · refine iff_of_false (fun hguarded => ?_) ?_
      · rw [hfrom] at hguarded
        rcases hguarded.ends with ⟨message, hx⟩ | ⟨items, nodup, result, -, hx, -⟩
        · cases Except.error.inj hx
        · cases hx
      · intro hex
        rcases hex with hinvalid | htexts
        · exact hinvalid fields intent hfields hvalid
        · obtain ⟨s, hs⟩ := htexts key hkey
          exact htext s hs

/-! ### A key that is not a text -/

/-- A strict model that accepts one intent. -/
def accepting (intent : Intent) (fields : List (String × Value Obj)) : Except String Intent :=
  if fields = modelDump intent then .ok intent else .error "1 validation error for Intent"

theorem strict_accepting (intent : Intent) :
    Strict (accepting intent : List (String × Value Obj) → Except String Intent) := by
  intro fields accepted h field _
  unfold accepting at h
  split_ifs at h with hfields
  obtain rfl := Except.ok.inj h
  rw [hfields]

def edgeNf : Intent := ⟨"edge-nf", 2, .dev, by decide, by decide⟩

def edgeFields : List (Value Empty × Value Empty) :=
  [(.str "name", .str "edge-nf"), (.str "replicas", .int 2), (.str "environment", .str "dev")]

/-- The proposal of that intent, with a region, which an intent does not have. -/
def regionProposal : Proposal Empty :=
  .dict (edgeFields ++ [(.str "region", .str "eu-west")]) (by decide)

/-- The proposal of that intent, with the number 1 as a further key. -/
def numberedProposal : Proposal Empty := .dict (edgeFields ++ [(.int 1, .str "x")]) (by decide)

/-- A translator that proposes this is asked once. -/
theorem runs_proposing (modelValidate : List (String × Value Empty) → Except String Intent)
    (proposal : Proposal Empty) :
    ∃ tr, (translate modelValidate "fake" "anything").Runs (proposing proposal).logged ((), [])
      (fromProposal modelValidate "fake" proposal) ((), tr) := by
  have hblank : ¬Str.strip "anything" = "" := by decide +kernel
  have hshort : ¬maxTextLength < "anything".toList.length := by decide
  rw [translate, if_neg hblank, if_neg hshort]
  refine ⟨[⟨"anything", .ok proposal⟩], _, ((), _), ⟨rfl, rfl⟩, ?_⟩
  exact Prog.runs_ofExcept.mpr ⟨rfl, rfl⟩

theorem guarded_iff_region :
    ∃ tr, (translate (accepting edgeNf) "fake" "anything").Runs (proposing regionProposal).logged
        ((), []) (fromProposal (accepting edgeNf) "fake" regionProposal) ((), tr) ∧
      droppedKeys regionProposal = [.str "region"] ∧
        Guarded "anything" regionProposal tr
          (fromProposal (accepting edgeNf) "fake" regionProposal) := by
  have hdropped : droppedKeys regionProposal = [.str "region"] := by decide
  obtain ⟨tr, h⟩ := runs_proposing (accepting edgeNf) regionProposal
  refine ⟨tr, h, hdropped, (guarded_iff (strict_accepting edgeNf) h).mpr (.inr (.inr (.inr ?_)))⟩
  intro key hkey
  rw [hdropped, List.mem_singleton] at hkey
  exact ⟨"region", hkey⟩

/-- A proposal with a number for a further key ends the boundary with `TypeError`. -/
theorem number_key_escapes :
    ∃ tr, (translate (accepting edgeNf) "fake" "anything").Runs (proposing numberedProposal).logged
        ((), []) (.error (.py .typeError)) ((), tr) ∧
      ¬Guarded "anything" numberedProposal tr (.error (.py .typeError)) := by
  have hends :
      fromProposal (accepting edgeNf) "fake" numberedProposal = .error (.py .typeError) := by
    decide
  obtain ⟨tr, h⟩ := runs_proposing (accepting edgeNf) numberedProposal
  rw [hends] at h
  refine ⟨tr, h, fun hguarded => ?_⟩
  rcases hguarded.ends with ⟨message, hx⟩ | ⟨items, nodup, result, -, hx, -⟩
  · cases Except.error.inj hx
  · cases hx

end NfOrchestrator.Translate
