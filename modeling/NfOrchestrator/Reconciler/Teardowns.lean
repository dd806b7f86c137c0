import NfOrchestrator.Effects.Protocol
import NfOrchestrator.Reconciler.Printed

/-!
# NfOrchestrator.Reconciler.Teardowns

**Teardowns of one release, interleaved.** A teardown asks whether the release is there and
then uninstalls it, in two processes with nothing that holds the release in between. So two
teardowns may both find it; one of them uninstalls it and the other is refused
(`teardowns_idempotent_iff`).
-/

namespace NfOrchestrator.Reconciler

open Deploy

variable (cfg : Settings) (name : String)

/-! ### A reachable cluster -/

/-- helm exited 0 and printed a status. -/
def PrintsStatus (outcome : Outcome) : Prop :=
  ∃ stdout stderr status, outcome = .completed 0 stdout stderr ∧
    readStatus stdout = .ok status ∧ status ≠ .null

/-- helm exited 0. -/
def ExitsZero (outcome : Outcome) : Prop := ∃ stdout stderr, outcome = .completed 0 stdout stderr

/-- What a helm call finds and does to the release, all at once: `present` is whether the
release is there, before and after. -/
def helming : Env sig Bool := fun o present r present' =>
  match o, r with
  | .spawn _, failure => failure = none ∧ present' = present
  | .finish command _, outcome =>
      if command = "helm" :: statusArgs cfg name then
        (if present then PrintsStatus outcome else Absent outcome) ∧ present' = present
      else if command = "helm" :: uninstallArgs cfg name then
        (if present then ExitsZero outcome else Absent outcome) ∧ present' = false
      else present' = present
  | _, _ => present' = present

variable {ι : Type} [DecidableEq ι]

/-- Teardowns in progress. -/
abbrev Tearing (ι : Type) := Pool sig Exc (fun _ : ι => TornDown) Bool

/-- `P` is reached by some interleaving of the calls, from a cluster with or without the
release. -/
abbrev TornBy (present : Bool) (P : Tearing ι) : Prop :=
  Pool.Reachable (helming cfg name) (Pool.start (fun _ => teardown cfg name) present) P

/-- The calls that ended returned normally, and once all have ended one of them reports to
have uninstalled the release, if it was there. -/
structure Idempotent (present : Bool) (P : Tearing ι) : Prop where
  returns : ∀ i e, (P.thread i).result ≠ some (.error e)
  state : ∀ i r, (P.thread i).result = some (.ok r) → r.release = name ∧ r.state = .notInstantiated
  uninstalled : P.AllEnded → present = true →
    ∃! i, ∃ r, (P.thread i).result = some (.ok r) ∧ r.uninstalled = true
  absent : present = false → ∀ i r, (P.thread i).result = some (.ok r) → r.uninstalled = false

/-- The call's own `helm status` found the release. -/
def Finds (tr : List (Event sig)) : Prop :=
  ∃ timeout outcome, (⟨.finish ("helm" :: statusArgs cfg name) timeout, outcome⟩ : Event sig) ∈ tr ∧
    PrintsStatus outcome

/-- At most one of the calls found the release: a call that did uninstalled it before any
other asked. -/
def FoundOnce (P : Tearing ι) : Prop :=
  ∀ i j, Finds cfg name (P.localTrace i) → Finds cfg name (P.localTrace j) → i = j

/-! ### The protocol of a teardown -/

inductive Stage where
  | asking
  | found
  /-- The release was not there. -/
  | gone
  | uninstalled
  /-- The release was not there any more. -/
  | refused
  deriving DecidableEq

inductive Tears : Protocol sig Stage
  | other {c : Stage} {e : Event sig} (h : ∀ command timeout, e.op ≠ .finish command timeout) :
      Tears c e c
  | finds {timeout : ℚ} {outcome : Outcome} (h : PrintsStatus outcome) :
      Tears .asking ⟨.finish ("helm" :: statusArgs cfg name) timeout, outcome⟩ .found
  | misses {timeout : ℚ} {outcome : Outcome} (h : Absent outcome) :
      Tears .asking ⟨.finish ("helm" :: statusArgs cfg name) timeout, outcome⟩ .gone
  | uninstalls {timeout : ℚ} {outcome : Outcome} (h : ExitsZero outcome) :
      Tears .found ⟨.finish ("helm" :: uninstallArgs cfg name) timeout, outcome⟩ .uninstalled
  | refused {timeout : ℚ} {outcome : Outcome} (h : Absent outcome) :
      Tears .found ⟨.finish ("helm" :: uninstallArgs cfg name) timeout, outcome⟩ .refused

/-- What helm may reply, whether the release is there or not. -/
def Told (e : Event sig) : Prop :=
  match e with
  | ⟨.spawn _, failure⟩ => failure = none
  | ⟨.finish command _, outcome⟩ =>
      (command = "helm" :: statusArgs cfg name → PrintsStatus outcome ∨ Absent outcome) ∧
        (command = "helm" :: uninstallArgs cfg name → ExitsZero outcome ∨ Absent outcome)
  | _ => True

/-- How a teardown has ended, at each stage at which it can. -/
def EndsAt (x : Except Exc TornDown) : Stage → Prop
  | .gone => x = .ok { release := name, state := .notInstantiated, uninstalled := false }
  | .uninstalled => x = .ok { release := name, state := .notInstantiated, uninstalled := true }
  | .refused => ∃ e, x = .error (.deploy e)
  | .asking | .found => False

section calls

variable {cfg} {name}

theorem wp_noteSuccess_tears {c : Stage} {Q : Except Exc Unit → Stage → Prop} (h : Q (.ok ()) c) :
    noteSuccess.wp ((Tears cfg name).spec fun _ => Told cfg name) Q c := by
  rw [noteSuccess, Prog.wp_bind, wp_monotonic]
  refine Protocol.spec_of_still (fun now => .other (by simp)) fun now => ?_
  rw [Prog.bindPost_ok, wp_setLastSuccess]
  exact Protocol.spec_of_still (fun r => .other (by simp)) fun _ => h

theorem wp_afterExit_tears {c : Stage} (returncode : ℤ) (stdout stderr : String) :
    (afterExit returncode stdout stderr).wp ((Tears cfg name).spec fun _ => Told cfg name)
      (fun x c' => c' = c ∧ x = exitResult returncode stdout stderr) c := by
  by_cases hrc : returncode ≠ 0
  · rw [afterExit, if_pos hrc, exitResult, if_pos hrc]
    generalize classifyError (complaint stdout stderr) = error
    unfold refuse
    split_ifs
    · rw [Prog.wp_bind]
      exact wp_noteSuccess_tears ⟨rfl, rfl⟩
    · exact ⟨rfl, rfl⟩
  · rw [afterExit, if_neg hrc, exitResult, if_neg hrc, Prog.wp_bind]
    exact wp_noteSuccess_tears ⟨rfl, rfl⟩

/-- A helm call makes one step of the protocol, and is reported by its exit. -/
theorem wp_runHelm_tears {c : Stage} {args : List String} {Q : Except Exc String → Stage → Prop}
    (h : ∀ outcome, Told cfg name ⟨.finish ("helm" :: args) (timeoutFor cfg args), outcome⟩ →
      ∃ c' returncode stdout stderr, outcome = .completed returncode stdout stderr ∧
        Tears cfg name c ⟨.finish ("helm" :: args) (timeoutFor cfg args), outcome⟩ c' ∧
        Q (exitResult returncode stdout stderr) c') :
    (runHelm cfg args).wp ((Tears cfg name).spec fun _ => Told cfg name) Q c := by
  rw [runHelm, runBounded, runBoundedWith, Prog.wp_bind, wp_subprocessRun]
  intro failure hfailure
  refine ⟨c, .other (by simp), ?_⟩
  obtain rfl : failure = none := hfailure
  intro outcome houtcome
  obtain ⟨c', returncode, stdout, stderr, rfl, htears, hQ⟩ := h outcome houtcome
  refine ⟨c', htears, ?_⟩
  refine Prog.wp_mono Protocol.spec_mono ?_ (wp_afterExit_tears returncode stdout stderr)
  intro x c'' hx
  obtain ⟨rfl, rfl⟩ := hx
  exact hQ

end calls

theorem statusArgs_ne_uninstallArgs : statusArgs cfg name ≠ uninstallArgs cfg name := by
  simp [statusArgs, uninstallArgs]

/-- A teardown keeps to the protocol. -/
theorem wp_teardown :
    (teardown cfg name).wp ((Tears cfg name).spec fun _ => Told cfg name) (EndsAt name)
      .asking := by
  rw [teardown, Prog.wp_bind, helmReleaseStatus, Prog.wp_bind, wp_unlessNotFound]
  refine wp_runHelm_tears fun status hstatus => ?_
  obtain ⟨stdout, stderr, document, rfl, hread, hdocument⟩ | habsent := hstatus.1 rfl
  · refine ⟨.found, 0, stdout, stderr, rfl,
      .finds ⟨stdout, stderr, document, rfl, hread, hdocument⟩, ?_⟩
    rw [exitResult, if_neg (by simp), unlessAbsent, Prog.bindPost_ok, wp_ofPy, hread]
    show (if document = .null then _ else _ : Eff TornDown).wp _ _ _
    rw [if_neg hdocument, Prog.wp_bind]
    refine wp_runHelm_tears fun outcome houtcome => ?_
    obtain ⟨stdout, stderr, rfl⟩ | habsent := houtcome.2 rfl
    · exact ⟨.uninstalled, 0, stdout, stderr, rfl, .uninstalls ⟨stdout, stderr, rfl⟩, rfl⟩
    · cases outcome with
      | completed returncode stdout stderr =>
          refine ⟨.refused, returncode, stdout, stderr, rfl, .refused habsent, ?_⟩
          rw [exitResult, if_pos habsent.1]
          exact ⟨_, rfl⟩
      | timedOut stderr => exact habsent.elim
      | osError exc => exact habsent.elim
  · cases status with
    | completed returncode stdout stderr =>
        refine ⟨.gone, returncode, stdout, stderr, rfl, .misses habsent, ?_⟩
        rw [exitResult, if_pos habsent.1, unlessAbsent, if_pos habsent.taken]
        rfl
    | timedOut stderr => exact habsent.elim
    | osError exc => exact habsent.elim

/-! ### The release and the teardowns of it -/

/-- What one event of a teardown does to its stage and to the release. -/
inductive Turn : Stage → Bool → Stage → Bool → Prop
  | still {c : Stage} {present : Bool} : Turn c present c present
  | finds : Turn .asking true .found true
  | misses : Turn .asking false .gone false
  | uninstalls : Turn .found true .uninstalled false
  | refused : Turn .found false .refused false

theorem not_absent_of_prints {outcome : Outcome} (h : PrintsStatus outcome) : ¬ Absent outcome := by
  obtain ⟨stdout, stderr, status, rfl, -⟩ := h
  exact fun habsent => habsent.1 rfl

theorem not_absent_of_exits {outcome : Outcome} (h : ExitsZero outcome) : ¬ Absent outcome := by
  obtain ⟨stdout, stderr, rfl⟩ := h
  exact fun habsent => habsent.1 rfl

variable {cfg} {name}

/-- helm says of the release what is so, and uninstalls it once. -/
theorem turn_of_tears {c c' : Stage} {o : Op} {r : Resp o} {present present' : Bool}
    (hE : helming cfg name o present r present') (h : Tears cfg name c ⟨o, r⟩ c') :
    Turn c present c' present' := by
  have hargs := statusArgs_ne_uninstallArgs cfg name
  generalize he : (⟨o, r⟩ : Event sig) = e at h
  cases h with
  | other hop =>
      subst he
      have hpresent : present' = present := by
        cases o with
        | spawn command => exact hE.2
        | finish command timeout => exact absurd rfl (hop command timeout)
        | _ => exact hE
      exact hpresent ▸ .still
  | finds hprints =>
      cases he
      simp only [helming, if_pos] at hE
      obtain ⟨hanswer, rfl⟩ := hE
      cases present' with
      | true => exact .finds
      | false => exact absurd hanswer (not_absent_of_prints hprints)
  | misses habsent =>
      cases he
      simp only [helming, if_pos] at hE
      obtain ⟨hanswer, rfl⟩ := hE
      cases present' with
      | true => exact absurd habsent (not_absent_of_prints hanswer)
      | false => exact .misses
  | uninstalls hexits =>
      cases he
      simp only [helming, List.cons.injEq, true_and, if_neg hargs.symm, if_pos] at hE
      obtain ⟨hanswer, rfl⟩ := hE
      cases present with
      | true => exact .uninstalls
      | false => exact absurd hanswer (not_absent_of_exits hexits)
  | refused habsent =>
      cases he
      simp only [helming, List.cons.injEq, true_and, if_neg hargs.symm, if_pos] at hE
      obtain ⟨hanswer, rfl⟩ := hE
      cases present with
      | true => exact absurd habsent (not_absent_of_exits hanswer)
      | false => exact .refused

/-- A teardown whose status call found the release. -/
def Stage.Found (stage : Stage) : Prop :=
  stage = .found ∨ stage = .uninstalled ∨ stage = .refused

/-- What is so at any moment of the release and of the teardowns of it. -/
structure Tidy (present₀ present : Bool) (g : ι → Stage) : Prop where
  present_iff : present = true ↔ present₀ = true ∧ ∀ i, g i ≠ .uninstalled
  one : ∀ i j, g i = .uninstalled → g j = .uninstalled → i = j
  found : ∀ i, (g i).Found → present₀ = true
  gone : ∀ i, g i = .gone ∨ g i = .refused → present = false

variable {present₀ present present' : Bool} {g : ι → Stage} {i : ι} {c : Stage}

omit [DecidableEq ι] in
theorem tidy_start : Tidy present₀ present₀ fun _ : ι => .asking where
  present_iff := by simp
  one := by simp
  found := by simp [Stage.Found]
  gone := by simp

/-- A turn that uninstalls nothing, and is true to the release. -/
theorem Tidy.update (h : Tidy present₀ present g) (hi : g i ≠ .uninstalled) (hc : c ≠ .uninstalled)
    (hfound : c.Found → present₀ = true) (hgone : c = .gone ∨ c = .refused → present = false) :
    Tidy present₀ present (Function.update g i c) where
  present_iff := by
    rw [h.present_iff]
    refine and_congr_right fun _ => forall_congr' fun j => ?_
    by_cases hji : j = i
    · subst hji
      simp [hi, hc]
    · rw [Function.update_of_ne hji]
  one := by
    intro j k hj hk
    have hne : ∀ n, Function.update g i c n = .uninstalled → g n = .uninstalled := by
      intro n hn
      by_cases hni : n = i
      · subst hni
        exact absurd (by simpa using hn) hc
      · rwa [Function.update_of_ne hni] at hn
    exact h.one j k (hne j hj) (hne k hk)
  found := by
    intro j hj
    by_cases hji : j = i
    · subst hji
      exact hfound (by simpa using hj)
    · exact h.found j (by rwa [Function.update_of_ne hji] at hj)
  gone := by
    intro j hj
    by_cases hji : j = i
    · subst hji
      exact hgone (by simpa using hj)
    · exact h.gone j (by rwa [Function.update_of_ne hji] at hj)

/-- The turn that uninstalls the release. -/
theorem Tidy.uninstall (h : Tidy present₀ true g) (hi : g i = .found) :
    Tidy present₀ false (Function.update g i .uninstalled) where
  present_iff := by
    simp only [Bool.false_eq_true, false_iff, not_and, not_forall, not_not]
    exact fun _ => ⟨i, Function.update_self ..⟩
  one := by
    have hnone : ∀ j, Function.update g i .uninstalled j = .uninstalled → j = i := by
      intro j hj
      by_contra hji
      rw [Function.update_of_ne hji] at hj
      exact (h.present_iff.mp rfl).2 j hj
    intro j k hj hk
    rw [hnone j hj, hnone k hk]
  found := by
    intro j hj
    by_cases hji : j = i
    · exact h.found i (.inl hi)
    · exact h.found j (by rwa [Function.update_of_ne hji] at hj)
  gone := fun _ _ => rfl

theorem Tidy.turn (h : Tidy present₀ present g) (ht : Turn (g i) present c present') :
    Tidy present₀ present' (Function.update g i c) := by
  generalize hi : g i = stage at ht
  cases ht with
  | still => rwa [← hi, Function.update_eq_self]
  | finds =>
      refine h.update (by simp [hi]) (by simp) (fun _ => (h.present_iff.mp rfl).1) ?_
      simp
  | misses => exact h.update (by simp [hi]) (by simp) (by simp [Stage.Found]) fun _ => rfl
  | uninstalls => exact h.uninstall hi
  | refused =>
      exact h.update (by simp [hi]) (by simp) (fun _ => h.found i (.inl hi)) fun _ => rfl

/-! ### Each thread's own events -/

theorem not_finds_nil : ¬ Finds cfg name [] := by simp [Finds]

theorem finds_snoc {tr : List (Event sig)} {e : Event sig} :
    Finds cfg name (tr ++ [e]) ↔ Finds cfg name tr ∨ Finds cfg name [e] := by
  simp only [Finds, List.mem_append, or_and_right, exists_or]

/-- The stage of a teardown says whether its status call found the release. -/
theorem finds_iff {tr : List (Event sig)} {c : Stage}
    (h : (Tears cfg name).Leads .asking tr c) : Finds cfg name tr ↔ c.Found := by
  refine h.invariant (I := fun tr c => Finds cfg name tr ↔ c.Found) ?_ ?_
  · simp [not_finds_nil, Stage.Found]
  · intro tr c e c' he ih
    rw [finds_snoc, ih]
    cases he with
    | other hop =>
        refine or_iff_left ?_
        intro hx
        obtain ⟨timeout, outcome, hmem, -⟩ := hx
        exact hop _ timeout (congrArg Event.op (List.mem_singleton.mp hmem).symm)
    | @finds timeout outcome hprints =>
        refine iff_of_true (.inr ⟨timeout, outcome, List.mem_singleton.mpr rfl, hprints⟩) ?_
        simp [Stage.Found]
    | misses habsent =>
        refine iff_of_false ?_ (by simp [Stage.Found])
        intro hx
        rcases hx with hfound | ⟨timeout, outcome, hmem, hprints⟩
        · simp [Stage.Found] at hfound
        · cases List.mem_singleton.mp hmem
          exact not_absent_of_prints hprints habsent
    | uninstalls => simp [Stage.Found]
    | refused => simp [Stage.Found]

/-- helm replies as it may, whether the release is there or not. -/
theorem told_of_helming {o : Op} {r : Resp o} (h : helming cfg name o present r present') :
    Told cfg name ⟨o, r⟩ := by
  cases o with
  | spawn command => exact h.1
  | finish command timeout =>
      constructor
      · rintro rfl
        simp only [helming, if_pos] at h
        obtain ⟨hanswer, rfl⟩ := h
        cases present' with
        | true => exact .inl hanswer
        | false => exact .inr hanswer
      · rintro rfl
        have hargs := statusArgs_ne_uninstallArgs cfg name
        simp only [helming, List.cons.injEq, true_and, if_neg hargs.symm, if_pos] at h
        cases present with
        | true => exact .inl h.1
        | false => exact .inr h.1
  | _ => trivial

theorem told_of_tornBy {P : Tearing ι} (hr : TornBy cfg name present₀ P) {i : ι} {e : Event sig}
    (he : e ∈ P.localTrace i) : Told cfg name e := by
  have hall : ∀ x ∈ P.trace, Told cfg name x.2 := by
    refine hr.invariant (I := fun _ tr => ∀ x ∈ tr, Told cfg name x.2) ?_ (by simp [Pool.start])
    intro j o w r w' tr hE htr x hx
    rcases List.mem_append.mp hx with hx | hx
    · exact htr x hx
    · obtain rfl := List.mem_singleton.mp hx
      exact told_of_helming hE
  exact hall _ (Pool.mem_localTrace.mp he)

/-- How the teardowns stand after any part of their interleaving. -/
structure Standing (cfg : Settings) (name : String) (present₀ : Bool) (P : Tearing ι)
    (g : ι → Stage) : Prop where
  tidy : Tidy present₀ P.world g
  finds : ∀ i, Finds cfg name (P.localTrace i) ↔ (g i).Found
  ended : ∀ i x, (P.thread i).result = some x → EndsAt name x (g i)

theorem exists_standing {P : Tearing ι} (hr : TornBy cfg name present₀ P) :
    ∃ g : ι → Stage, Standing cfg name present₀ P g := by
  obtain ⟨g, hleads, hwp, htidy⟩ := Pool.follows (A := fun _ => Told cfg name)
    (I := fun present _ g => Tidy present₀ present g) (fun _ => wp_teardown cfg name) tidy_start
    (fun _ _ _ _ _ _ _ _ hE hstep h => h.turn (turn_of_tears hE hstep)) hr
    (fun i tr e post _ hsplit _ => told_of_tornBy hr (by rw [hsplit]; simp))
  exact ⟨g, htidy, fun i => finds_iff (hleads i), fun i x hx => (Prog.wp_of_result hx).mp (hwp i)⟩

/-- A teardown that raised was refused by helm. -/
theorem Standing.refused {P : Tearing ι} (h : Standing cfg name present₀ P g) {e : Exc}
    (hi : (P.thread i).result = some (.error e)) : g i = .refused := by
  have hends := h.ended i _ hi
  cases hg : g i with
  | refused => rfl
  | gone | uninstalled => rw [hg] at hends; cases hends
  | asking | found => rw [hg] at hends; exact hends.elim

/-- A teardown that returned says what it did. -/
theorem Standing.returned {P : Tearing ι} (h : Standing cfg name present₀ P g) {r : TornDown}
    (hi : (P.thread i).result = some (.ok r)) :
    r.release = name ∧ r.state = .notInstantiated ∧
      (g i = .uninstalled ∧ r.uninstalled = true ∨ g i = .gone ∧ r.uninstalled = false) := by
  have hends := h.ended i _ hi
  cases hg : g i with
  | gone =>
      rw [hg] at hends
      obtain rfl := Except.ok.inj hends
      exact ⟨rfl, rfl, .inr ⟨rfl, rfl⟩⟩
  | uninstalled =>
      rw [hg] at hends
      obtain rfl := Except.ok.inj hends
      exact ⟨rfl, rfl, .inl ⟨rfl, rfl⟩⟩
  | refused => rw [hg] at hends; obtain ⟨e, he⟩ := hends; cases he
  | asking | found => rw [hg] at hends; exact hends.elim

/-- Where one call at most found the release, none was refused. -/
theorem Standing.not_refused {P : Tearing ι} (h : Standing cfg name present₀ P g)
    (honce : FoundOnce cfg name P) (i : ι) : g i ≠ .refused := by
  intro hi
  have hpresent₀ : present₀ = true := h.tidy.found i (.inr (.inr hi))
  have hgone : P.world = false := h.tidy.gone i (.inr hi)
  -- some other call uninstalled what this one found
  obtain ⟨j, hj⟩ : ∃ j, g j = .uninstalled := by
    by_contra hnone
    have hpresent := h.tidy.present_iff.mpr ⟨hpresent₀, fun j hj => hnone ⟨j, hj⟩⟩
    rw [hgone] at hpresent
    cases hpresent
  have hij : i = j :=
    honce i j ((h.finds i).mpr (.inr (.inr hi))) ((h.finds j).mpr (.inr (.inl hj)))
  rw [hij, hj] at hi
  cases hi

theorem Standing.idempotent [Nonempty ι] {P : Tearing ι} (h : Standing cfg name present₀ P g)
    (honce : FoundOnce cfg name P) : Idempotent name present₀ P where
  returns i e hi := h.not_refused honce i (h.refused hi)
  state i r hi := ⟨(h.returned hi).1, (h.returned hi).2.1⟩
  uninstalled := by
    intro hall hpresent₀
    have hreturned : ∀ i, ∃ r, (P.thread i).result = some (.ok r) := by
      intro i
      obtain ⟨x, hx⟩ := Option.isSome_iff_exists.mp (hall i)
      cases x with
      | ok r => exact ⟨r, hx⟩
      | error e => exact absurd (h.refused hx) (h.not_refused honce i)
    -- the release was there and is asked for by somebody, so one of the calls removed it
    obtain ⟨i, hi⟩ : ∃ i, g i = .uninstalled := by
      by_contra hnone
      have hpresent := h.tidy.present_iff.mpr ⟨hpresent₀, fun i hi => hnone ⟨i, hi⟩⟩
      obtain ⟨i⟩ := ‹Nonempty ι›
      obtain ⟨r, hr⟩ := hreturned i
      obtain ⟨hi, -⟩ | ⟨hi, -⟩ := (h.returned hr).2.2
      · exact hnone ⟨i, hi⟩
      · rw [h.tidy.gone i (.inl hi)] at hpresent
        cases hpresent
    obtain ⟨r, hr⟩ := hreturned i
    refine ⟨i, ⟨r, hr, ?_⟩, ?_⟩
    · obtain ⟨-, hr⟩ | ⟨hgone, -⟩ := (h.returned hr).2.2
      · exact hr
      · rw [hi] at hgone
        cases hgone
    · intro j hex
      obtain ⟨r', hr', huninstalled⟩ := hex
      obtain ⟨hj, -⟩ | ⟨-, hfalse⟩ := (h.returned hr').2.2
      · exact h.tidy.one j i hj hi
      · rw [hfalse] at huninstalled
        cases huninstalled
  absent := by
    intro hpresent₀ i r hr
    obtain ⟨hi, -⟩ | ⟨-, hfalse⟩ := (h.returned hr).2.2
    · have hpresent := h.tidy.found i (.inr (.inl hi))
      rw [hpresent₀] at hpresent
      cases hpresent
    · exact hfalse

/-- Where all calls returned, the one that uninstalled the release is the one that found it. -/
theorem Standing.foundOnce {P : Tearing ι} (h : Standing cfg name present₀ P g)
    (hall : P.AllEnded) (hidem : Idempotent name present₀ P) : FoundOnce cfg name P := by
  have huninstalled : ∀ i, Finds cfg name (P.localTrace i) → g i = .uninstalled := by
    intro i hfinds
    obtain ⟨x, hx⟩ := Option.isSome_iff_exists.mp (hall i)
    cases x with
    | error e => exact absurd hx (hidem.returns i e)
    | ok r =>
        obtain ⟨hi, -⟩ | ⟨hi, -⟩ := (h.returned hx).2.2
        · exact hi
        · have hfound := (h.finds i).mp hfinds
          simp [hi, Stage.Found] at hfound
  exact fun i j hi hj => h.tidy.one i j (huninstalled i hi) (huninstalled j hj)

/-! ### A cluster that answers -/

def refusal : Outcome :=
  .completed 1 "" "Error: uninstall: Release not loaded: nf: release: not found"

/-- helm's answer to each call, and what it leaves of the release. -/
def helmAnswer (cfg : Settings) (name : String) (o : Op) (present : Bool) : Resp o × Bool :=
  match o with
  | .finish command _ =>
      if command = "helm" :: statusArgs cfg name then
        (if present then .completed 0 "\x7b\"info\": \x7b\"status\": \"deployed\"\x7d\x7d" ""
          else refusal, present)
      else if command = "helm" :: uninstallArgs cfg name then
        (if present then .completed 0 "release uninstalled" "" else refusal, false)
      else (.completed 0 "" "", present)
  | o => (blankReply o, present)

theorem helming_helmAnswer (o : Op) (present : Bool) :
    helming cfg name o present (helmAnswer cfg name o present).1
      (helmAnswer cfg name o present).2 := by
  have hrefusal : Absent refusal := ⟨by decide, by decide +kernel, by decide +kernel⟩
  have hstatus : PrintsStatus
      (.completed 0 "\x7b\"info\": \x7b\"status\": \"deployed\"\x7d\x7d" "") :=
    ⟨_, _, .str "deployed", rfl, by decide +kernel, by simp⟩
  cases o with
  | spawn command => exact ⟨rfl, rfl⟩
  | finish command timeout =>
      simp only [helming, helmAnswer]
      split_ifs
      · exact ⟨hstatus, rfl⟩
      · exact ⟨hrefusal, rfl⟩
      · exact ⟨⟨_, _, rfl⟩, rfl⟩
      · exact ⟨hrefusal, rfl⟩
      · rfl
  | _ => rfl

theorem helming_total (cfg : Settings) (name : String) : (helming cfg name).Total :=
  fun o present => ⟨_, _, helming_helmAnswer o present⟩

/-- Teardowns of one release in any order of their steps are idempotent where at most one
of them found the release, and, once they have all ended, only there. Any part of an
interleaving may be run to that end. -/
theorem teardowns_idempotent_iff [Finite ι] [Nonempty ι] {P : Tearing ι}
    (hr : TornBy cfg name present P) :
    (FoundOnce cfg name P → Idempotent name present P) ∧
      (P.AllEnded → (Idempotent name present P ↔ FoundOnce cfg name P)) ∧
      ∃ P', Pool.Reachable (helming cfg name) P P' ∧ P'.AllEnded := by
  obtain ⟨g, hg⟩ := exists_standing hr
  exact ⟨hg.idempotent, fun hall => ⟨hg.foundOnce hall, hg.idempotent⟩,
    Pool.exists_allEnded (helming_total cfg name) P⟩

/-- Two teardowns of a release, where they take their turns as the schedule says. -/
def twoTeardowns (schedule : List Bool) : Tearing Bool :=
  Pool.exec (fun o present => some (helmAnswer defaultSettings "nf" o present)) schedule
    (Pool.start (fun _ => teardown defaultSettings "nf") true)

theorem twoTeardowns_tornBy (schedule : List Bool) :
    TornBy defaultSettings "nf" true (twoTeardowns schedule) := by
  refine Pool.exec_reachable ?_ schedule _
  intro o present x hx
  obtain rfl := Option.some.inj hx
  exact helming_helmAnswer o present

/-- One after the other. -/
def oneByOne : List Bool := List.replicate 8 false ++ List.replicate 4 true

/-- Both ask before either uninstalls. -/
def overlapping : List Bool :=
  List.replicate 4 false ++ List.replicate 8 true ++ List.replicate 4 false

theorem teardowns_idempotent_oneByOne : Idempotent "nf" true (twoTeardowns oneByOne) := by
  have hsecond : ((twoTeardowns oneByOne).thread true).result =
      some (.ok ⟨"nf", .notInstantiated, false⟩) := by decide +kernel
  have hr := twoTeardowns_tornBy oneByOne
  obtain ⟨g, hg⟩ := exists_standing hr
  have hgone : g true = .gone := by
    obtain ⟨-, h⟩ | ⟨h, -⟩ := (hg.returned hsecond).2.2
    · cases h
    · exact h
  have hnot : ¬ Finds defaultSettings "nf" ((twoTeardowns oneByOne).localTrace true) := by
    rw [hg.finds]
    simp [hgone, Stage.Found]
  have hfirst : ∀ i, Finds defaultSettings "nf" ((twoTeardowns oneByOne).localTrace i) →
      i = false := by
    intro i hi
    cases i with
    | false => rfl
    | true => exact absurd hi hnot
  exact (teardowns_idempotent_iff hr).1 fun i j hi hj => (hfirst i hi).trans (hfirst j hj).symm

/-- The second uninstall is refused. -/
theorem second_uninstall_refused :
    TornBy defaultSettings "nf" true (twoTeardowns overlapping) ∧
      ((twoTeardowns overlapping).thread false).result = some (.error (.deploy ⟨.deployError,
        "Error: uninstall: Release not loaded: nf: release: not found"⟩)) ∧
      ¬ Idempotent "nf" true (twoTeardowns overlapping) := by
  have hrefused : ((twoTeardowns overlapping).thread false).result = some (.error (.deploy
      ⟨.deployError, "Error: uninstall: Release not loaded: nf: release: not found"⟩)) := by
    decide +kernel
  exact ⟨twoTeardowns_tornBy _, hrefused, fun h => h.returns false _ hrefused⟩

end NfOrchestrator.Reconciler
