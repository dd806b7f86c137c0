import NfOrchestrator.Api.Routes
import NfOrchestrator.Deploy.Escapes

/-!
# NfOrchestrator.Api.Counted

**Every submitted intent is counted.** A route increments its counter after the deployment
returned and in its one `except` clause, so a deployment that leaves by another exception is
not counted at all (`counted_iff`).
-/

namespace NfOrchestrator.Api

open Deploy Reconciler Metrics Translate

/-! ### Submissions -/

/-- The request that submits an intent to the route of a counter. -/
def submission : Counter → Intent → Request
  | .deploymentsTotal, intent => .createDeployment intent
  | .repairsTotal, intent => .repairDeployment intent.name intent

/-- Does the counter's route take ownership of fields? -/
def forces : Counter → Bool
  | .deploymentsTotal => false
  | .repairsTotal => true

/-- The status code of the counter's route when the deployment succeeded. -/
def successStatus : Counter → ℕ
  | .deploymentsTotal => 201
  | .repairsTotal => 200

variable (cfg : Settings) (out : Outside) (pages : ℕ) (counter : Counter)

/-- A submitted intent and how its request was served. -/
structure Submission where
  intent : Intent
  tr : List (Event sig)
  answer : Except Exc Response
  traces : (handle cfg out pages (submission counter intent)).Traces tr answer

variable {cfg out pages counter}

/-- The increments among these calls. -/
def counts (tr : List (Event sig)) : List Count :=
  tr.filterMap fun e =>
    match e.op with
    | .inl _ => none
    | .inr c => some c

/-- The calls of the engine among these. -/
def calls (tr : List (Event sig)) : List (Event Deploy.sig) :=
  tr.filterMap fun e =>
    match e with
    | ⟨.inl (.inl o), r⟩ => some ⟨o, r⟩
    | _ => none

/-- The answer is the counter's success. -/
def Succeeded (counter : Counter) (answer : Except Exc Response) : Prop :=
  ∃ body, answer = .ok (.ok (successStatus counter) body)

/-- The request is counted once, under its environment and with its result. -/
def Counted (s : Submission cfg out pages counter) : Prop :=
  ∃ result, counts s.tr = [⟨counter, result, s.intent.environment⟩] ∧
    (result = "success" ↔ Succeeded counter s.answer) ∧
    (result = "failed" ↔ ¬Succeeded counter s.answer)

/-- How often a counter was incremented with a result, in whatever environment. -/
def total (counter : Counter) (result : String) (runs : List (Submission cfg out pages counter)) :
    ℕ :=
  (runs.flatMap fun s => counts s.tr).countP fun c => c.counter = counter ∧ c.result = result

/-- Every request is counted, and the results add up to the number of requests. -/
structure Accounts (runs : List (Submission cfg out pages counter)) : Prop where
  counted : ∀ s ∈ runs, Counted s
  sum : total counter "success" runs + total counter "failed" runs = runs.length

/-! ### What a submission does -/

theorem counts_ofEngine (tr₁ : List (Event Deploy.sig)) (tr₂ : List (Event sig)) :
    counts (tr₁.map ofEngine ++ tr₂) = counts tr₂ := by
  simp [counts, List.filterMap_append, List.filterMap_map]

theorem calls_ofEngine (tr₁ : List (Event Deploy.sig)) (tr₂ : List (Event sig)) :
    calls (tr₁.map ofEngine ++ tr₂) = tr₁ ++ calls tr₂ := by
  simp [calls, List.filterMap_append, List.filterMap_map]

theorem calls_counted (tr : List (Event Deploy.sig)) (c : Count) :
    calls (tr.map ofEngine ++ [⟨.inr c, ()⟩]) = tr :=
  (calls_ofEngine tr _).trans (List.append_nil tr)

/-- A submission deploys, and counts the result or the `DeployError`. -/
theorem handle_submission (cfg : Settings) (out : Outside) (pages : ℕ) (counter : Counter)
    (intent : Intent) :
    ∃ body : Deployed → Body, handle cfg out pages (submission counter intent) =
      answering (deploy cfg intent (forces counter))
        (increment ⟨counter, "failed", intent.environment⟩) fun result => do
          increment ⟨counter, "success", intent.environment⟩
          return .ok (successStatus counter) (body result) := by
  cases counter with
  | deploymentsTotal => exact ⟨.deployed, rfl⟩
  | repairsTotal => exact ⟨.repaired, if_neg (not_not.mpr rfl)⟩

/-- A request is counted exactly when its deployment ends with a result or a `DeployError`. -/
theorem counted_iff (s : Submission cfg out pages counter) :
    Counted s ↔ ¬Escapes cfg s.intent (forces counter) (calls s.tr) := by
  obtain ⟨intent, tr, answer, htraces⟩ := s
  obtain ⟨body, hhandle⟩ := handle_submission cfg out pages counter intent
  rw [hhandle] at htraces
  rcases traces_answering.mp htraces with ⟨result, tr₁, _, rfl, hdeploy, ⟨⟩, _, rfl, rfl, rfl⟩ |
    ⟨e, tr₁, _, rfl, hdeploy, ⟨⟩, _, rfl, rfl, rfl⟩ | ⟨exc, tr₁, hexc, rfl, hdeploy, rfl⟩
  · -- the deployment returned
    refine iff_of_true ⟨"success", ?_, ?_, ?_⟩ ?_
    · exact counts_ofEngine tr₁ _
    · exact iff_of_true rfl ⟨body result, rfl⟩
    · exact iff_of_false (by decide) (not_not.mpr ⟨body result, rfl⟩)
    · intro hescapes
      change Escapes cfg intent _ (calls (tr₁.map ofEngine ++
        [⟨.inr ⟨counter, "success", intent.environment⟩, ()⟩])) at hescapes
      rw [calls_counted, ← deploy_escapes_iff hdeploy] at hescapes
      obtain ⟨exc, heq, -⟩ := hescapes
      cases heq
  · -- it raised a `DeployError`
    have hfailed : ¬Succeeded counter (.ok (.http (httpError e))) := by
      intro h
      obtain ⟨body, heq⟩ := h
      cases heq
    refine iff_of_true ⟨"failed", ?_, ?_, ?_⟩ ?_
    · exact counts_ofEngine tr₁ _
    · exact iff_of_false (by decide) hfailed
    · exact iff_of_true rfl hfailed
    · intro hescapes
      change Escapes cfg intent _ (calls (tr₁.map ofEngine ++
        [⟨.inr ⟨counter, "failed", intent.environment⟩, ()⟩])) at hescapes
      rw [calls_counted, ← deploy_escapes_iff hdeploy] at hescapes
      obtain ⟨exc, heq, hexc⟩ := hescapes
      exact hexc e (Except.error.inj heq).symm
  · -- it raised something else, which passes both increments by
    refine iff_of_false ?_ (not_not.mpr ?_)
    · intro h
      obtain ⟨result, hcounts, -⟩ := h
      have hnone : counts (tr₁.map ofEngine) = [] := by
        simp [counts]
      cases hnone.symm.trans hcounts
    · have htr : calls (tr₁.map ofEngine) = tr₁ := by simp [calls]
      dsimp only
      rw [htr, ← deploy_escapes_iff hdeploy]
      exact ⟨exc, rfl, hexc⟩

/-! ### Any number of submissions -/

theorem total_cons (result : String) (s : Submission cfg out pages counter)
    (runs : List (Submission cfg out pages counter)) :
    total counter result (s :: runs) = total counter result [s] + total counter result runs := by
  simp [total]

/-- A counted request adds one to one of the two results. -/
theorem total_counted {s : Submission cfg out pages counter} (h : Counted s) :
    total counter "success" [s] + total counter "failed" [s] = 1 := by
  obtain ⟨result, hcounts, hsuccess, hfailed⟩ := h
  have hresult : result = "success" ∨ result = "failed" := by
    by_cases hanswer : Succeeded counter s.answer
    · exact .inl (hsuccess.mpr hanswer)
    · exact .inr (hfailed.mpr hanswer)
  rcases hresult with rfl | rfl <;> simp [total, hcounts]

/-- The counter accounts for a sequence of submissions when each deployment ends with a
result or a `DeployError`, and not otherwise. -/
theorem accounts_iff (runs : List (Submission cfg out pages counter)) :
    Accounts runs ↔ ∀ s ∈ runs, ¬Escapes cfg s.intent (forces counter) (calls s.tr) := by
  constructor
  · intro h s hs
    exact (counted_iff s).mp (h.counted s hs)
  · intro h
    have hcounted : ∀ s ∈ runs, Counted s := fun s hs => (counted_iff s).mpr (h s hs)
    refine ⟨hcounted, ?_⟩
    clear h
    induction runs with
    | nil => rfl
    | cons s rest ih =>
        have hone := total_counted (hcounted s List.mem_cons_self)
        have hrest := ih fun s' hs' => hcounted s' (List.mem_cons_of_mem s hs')
        rw [total_cons, total_cons "failed", List.length_cons]
        omega

/-! ### A deployment that is not counted -/

/-- The tools are in place and their version was asked a second ago. -/
theorem tools_in_place :
    (requireTools cfg).Traces
      [⟨.which "helm", true⟩, ⟨.which "kubectl", true⟩, ⟨.monotonic, (1 : ℚ)⟩,
        ⟨.getVersions, some ((0 : ℚ), [])⟩] (.ok ()) := by
  have hversions : (versionProblems cfg).Traces
      [⟨.monotonic, (1 : ℚ)⟩, ⟨.getVersions, some ((0 : ℚ), [])⟩] (.ok []) := by
    refine ⟨(1 : ℚ), _, rfl, some ((0 : ℚ), []), _, rfl, ?_⟩
    have hfresh : (1 : ℚ) - 0 < versionTtl := by norm_num [versionTtl]
    change (if (1 : ℚ) - 0 < versionTtl then .ret [] else askVersion cfg 1 :
      Eff (List String)).Traces [] (.ok [])
    rw [if_pos hfresh]
    exact ⟨rfl, rfl⟩
  have hproblems : (toolProblems cfg).Traces
      [⟨.which "helm", true⟩, ⟨.which "kubectl", true⟩, ⟨.monotonic, (1 : ℚ)⟩,
        ⟨.getVersions, some ((0 : ℚ), [])⟩] (.ok []) := by
    refine Prog.traces_bind.mpr (.inl ⟨[], [_, _], _, rfl, ?_, ?_⟩)
    · exact ⟨true, _, rfl, true, _, rfl, rfl, rfl⟩
    · rw [if_neg List.not_mem_nil]
      exact hversions.bind_nil ⟨rfl, rfl⟩
  exact hproblems.bind_nil ⟨rfl, rfl⟩

/-- `helm upgrade` may succeed and print what is not the expected document. -/
theorem deploy_unread {intent : Intent} {output : String} {e : PyError}
    (hread : readDeployed output = .error e) :
    (deploy cfg intent false).Traces
      ([⟨.which "helm", true⟩, ⟨.which "kubectl", true⟩, ⟨.monotonic, (1 : ℚ)⟩,
        ⟨.getVersions, some ((0 : ℚ), [])⟩] ++
       [⟨.spawn (upgradeCommand cfg intent false), none⟩,
        ⟨.finish (upgradeCommand cfg intent false) (timeoutFor cfg (deployArgs cfg intent false)),
          .completed 0 output ""⟩,
        ⟨.monotonic, (2 : ℚ)⟩, ⟨.setLastSuccess 2, ()⟩])
      (.error (.py e)) := by
  rw [deploy_eq]
  refine tools_in_place.bind (Prog.Traces.bind_nil (a := output) ?_ ?_)
  · exact ⟨none, _, rfl, .completed 0 output "", _, rfl, (2 : ℚ), _, rfl, (), _, rfl, rfl, rfl⟩
  · rw [hread]
    exact ⟨rfl, rfl⟩

theorem amf_ok : namePattern "amf".toList = true ∧ "amf".toList.length ≤ nameMaxLength := by
  decide +kernel

theorem one_ok : (1 : ℤ) ≤ 1 ∧ (1 : ℤ) ≤ 10 := by
  decide

def oneReplica : Intent where
  name := "amf"
  replicas := 1
  environment := .prod
  name_ok := amf_ok
  replicas_ok := one_ok

/-- An upgrade that helm reports in another form has changed the cluster, is answered with a
bare 500 and is not counted. -/
theorem success_uncounted :
    ∃ (out : Outside) (s : Submission {} out 1 .deploymentsTotal),
      s.intent = oneReplica ∧
      ofEngine ⟨.finish (upgradeCommand {} oneReplica false) 60, .completed 0 "" ""⟩ ∈ s.tr ∧
      s.answer = .error (.py .valueError) ∧ ¬Accounts [s] := by
  have hread : readDeployed "" = .error .valueError := by decide +kernel
  have hdeploy : (deploy {} oneReplica false).Traces _ _ := deploy_unread hread
  let out : Outside := ⟨fun _ => .error "", fun _ => .error (.py .typeError), id⟩
  have hserved : (handle {} out 1 (submission .deploymentsTotal oneReplica)).Traces _ _ :=
    traces_answering.mpr (.inr (.inr ⟨_, _, uncaught_py _, rfl, hdeploy, rfl⟩))
  refine ⟨out, ⟨oneReplica, _, _, hserved⟩, rfl, ?_, rfl, fun h => ?_⟩
  · have hmem : ∀ timeout, timeoutFor {} (deployArgs {} oneReplica false) = timeout →
        ofEngine ⟨.finish (upgradeCommand {} oneReplica false) timeout, .completed 0 "" ""⟩ ∈
          (⟨oneReplica, _, _, hserved⟩ : Submission {} out 1 .deploymentsTotal).tr := by
      intro _ hx
      subst hx
      simp
    exact hmem 60 (by simp [timeoutFor, deployArgs, writeVerbs])
  · obtain ⟨result, hcounts, -⟩ := h.counted _ List.mem_cons_self
    cases hcounts

end NfOrchestrator.Api
