import NfOrchestrator.Api.Sessions
import NfOrchestrator.Effects.Protocol

/-!
# NfOrchestrator.Api.Counters

**The counters at any moment.** A request increments a counter at most once, and as the last
thing it does. So whatever the interleaving of the requests, and whatever the environment, the
counter with some labels stands at the number of requests answered so far that these labels
describe (`counters_account`).
-/

namespace NfOrchestrator.Api

open Deploy Reconciler

variable {cfg : Settings} {out : Outside} {pages : ℕ}

/-! ### One thread -/

/-- The labels that describe how a submission to the counter's route was answered. Flask's own 500,
for an exception that no handler is for, has none: no counter sees it. -/
def labelsOf (counter : Counter) (environment : Environment) : Except Exc Response → Option Count
  | .ok (.ok _ _) => some ⟨counter, "success", environment⟩
  | .ok (.http _) => some ⟨counter, "failed", environment⟩
  | .error _ => none

/-- The labels that describe how a thread ended, if any do. -/
def countOf : (t : Thread) → Except Exc t.Answer → Option Count
  | .request (.createDeployment intent), x => labelsOf .deploymentsTotal intent.environment x
  | .request (.repairDeployment name intent), x =>
      if intent.name ≠ name then none else labelsOf .repairsTotal intent.environment x
  | _, _ => none

/-- What a call increments. -/
def incremented : sig.Op → List Count
  | .inl _ => []
  | .inr c => [c]

/-- No call comes after an increment. The state is what the thread has incremented. -/
def Closing : Protocol sig (List Count) := fun g e g' => g = [] ∧ g' = incremented e.op

abbrev closing : Spec sig (List Count) := Closing.spec fun _ _ => True

theorem closing_mono : closing.Mono := Protocol.spec_mono

/-- The operations that increment nothing. -/
def Uncounted : sig.Op → Prop := Sum.elim (fun _ => True) fun _ => False

theorem wp_uncounted {α : Type} {p : Serving α} (hp : p.Within Uncounted) :
    p.wp closing (fun _ g => g = []) [] := by
  refine Protocol.wp_within (fun o r ho => ⟨rfl, ?_⟩) hp
  cases o with
  | inl o => rfl
  | inr c => exact ho.elim

theorem within_scrape {α : Type} (p : Metrics.Scrape α) : (scrape p).Within Uncounted := by
  have hany : p.Within fun _ => True := by
    induction p with
    | ret | raise => trivial
    | call o k ih => exact ⟨trivial, ih⟩
  exact hany.inl

theorem within_uncounted {α : Type} (p : Eff α) : (serve p).Within Uncounted := within_scrape _

/-- A submission is counted by how it was answered. -/
theorem wp_submission_closing {α : Type} {p : Eff α} {c : Counter} {environment : Environment}
    {statusCode : ℕ} {body : α → Body} :
    (answering p (increment ⟨c, "failed", environment⟩) fun result => do
        increment ⟨c, "success", environment⟩
        return .ok statusCode (body result)).wp closing
      (fun x g => g = (labelsOf c environment x).toList) [] := by
  rw [answering, Prog.wp_bind]
  refine Prog.wp_mono closing_mono ?_ (wp_uncounted (within_uncounted (caught p)))
  rintro (exc | e | a) g rfl
  · rfl
  · exact fun r _ => ⟨_, ⟨rfl, rfl⟩, rfl⟩
  · exact fun r _ => ⟨_, ⟨rfl, rfl⟩, rfl⟩

/-- Every thread increments what describes how it ended, and nothing else. -/
theorem wp_closing (t : Thread) :
    (t.prog cfg out pages).wp closing (fun x g => g = (countOf t x).toList) [] := by
  have hnone : ∀ {t : Thread}, (∀ x, countOf t x = none) → (t.prog cfg out pages).Within Uncounted →
      (t.prog cfg out pages).wp closing (fun x g => g = (countOf t x).toList) [] := by
    intro t ht hp
    refine Prog.wp_mono closing_mono ?_ (wp_uncounted hp)
    rintro x g rfl
    rw [ht x]
    rfl
  have hanswering : ∀ {α : Type} {p : Eff α} {returned : α → Response},
      (answering p (return ()) fun a => return returned a).Within Uncounted := by
    intro α p returned
    refine (within_uncounted _).bind fun result => ?_
    cases result <;> trivial
  cases t with
  | worker name pods => exact hnone (fun _ => rfl) (within_uncounted _)
  | prober => exact hnone (fun _ => rfl) (within_uncounted _)
  | request r =>
      cases r with
      | healthz | intentSchema | validateIntent => exact hnone (fun _ => rfl) trivial
      | readyz | getDeployment | deleteDeployment => exact hnone (fun _ => rfl) hanswering
      | prometheusMetrics =>
          exact hnone (fun _ => rfl) ((within_scrape _).bind fun _ => trivial)
      | translateIntent text =>
          refine hnone (fun _ => rfl) ?_
          rw [Thread.prog, handle, translateIntent]
          split <;> trivial
      | createDeployment intent => exact wp_submission_closing
      | repairDeployment name intent =>
          by_cases hname : intent.name ≠ name
          · refine hnone (fun _ => if_pos hname) ?_
            rw [Thread.prog, handle, repairDeployment, if_pos hname]
            trivial
          · rw [Thread.prog, handle, repairDeployment, if_neg hname]
            have hcount : ∀ x, countOf (.request (.repairDeployment name intent)) x =
                labelsOf .repairsTotal intent.environment x := fun _ => if_neg hname
            simp only [hcount]
            exact wp_submission_closing

/-- Some reply to each operation. -/
def anyReply (o : sig.Op) : sig.Resp o :=
  match o with
  | .inl (.inl o) => blankReply o
  | .inl (.inr (.submit _ _)) | .inl (.inr (.done _ _)) | .inl (.inr .startProber) => false
  | .inl (.inr (.poll _ _)) => none
  | .inl (.inr .measured) => none
  | .inl (.inr (.wait _ _)) | .inl (.inr .shutdown) | .inl (.inr (.joinProber _)) => ()
  | .inr _ => ()

/-- A thread that has not ended has incremented nothing. -/
theorem wp_closing_running {α : Type} {p : Serving α} {Q : Except Exc α → List Count → Prop}
    {g : List Count} (h : p.wp closing Q g) (hp : p.result = none) : g = [] := by
  cases p with
  | ret | raise => cases hp
  | call o k =>
      obtain ⟨g', ⟨hg, -⟩, -⟩ := h (anyReply o) trivial
      exact hg

/-! ### All threads -/

section pool

variable {ι : Type} [DecidableEq ι]

/-- The counter with these labels, after the calls of this trace. -/
def standing (c : Count) (tr : List (ι × Event sig)) : ℕ :=
  (tr.flatMap fun e => incremented e.2.op).count c

/-- The counter stands at what the threads have incremented. -/
theorem standing_eq_sum [Fintype ι] {threads : ι → Thread} {W : Type} {E : Env sig W} {w : W}
    {P : Pool sig Exc (fun i => (threads i).Answer) W}
    (hr : Pool.Reachable E (Pool.start (fun i => (threads i).prog cfg out pages) w) P) :
    ∃ g : ι → List Count,
      (∀ i, (P.thread i).wp closing (fun x g => g = (countOf (threads i) x).toList) (g i)) ∧
      ∀ c, standing c P.trace = ∑ i, (g i).count c := by
  suffices hstep : _ by
    obtain ⟨g, -, hwp, hsum⟩ := Pool.follows (δ := fun _ => Closing) (A := fun _ _ => True)
      (I := fun _ tr g => ∀ c, standing c tr = ∑ i, (g i).count c)
      (fun i => wp_closing (threads i)) (by simp [standing]) hstep hr
      (fun _ _ _ _ _ _ _ => trivial)
    exact ⟨g, hwp, hsum⟩
  rintro i o w r w' tr g _ - ⟨hi, rfl⟩ hsum c
  have hnew : standing c (tr ++ [(i, (⟨o, r⟩ : Event sig))]) =
      standing c tr + (incremented o).count c := by
    simp [standing]
  have hothers : ∀ j ∈ Finset.univ.erase i,
      (Function.update g i (incremented o) j).count c = (g j).count c := by
    intro j hj
    rw [Function.update_of_ne (Finset.ne_of_mem_erase hj)]
  rw [hnew, hsum c, ← Finset.add_sum_erase _ _ (Finset.mem_univ i),
    ← Finset.add_sum_erase _ (fun j => (Function.update g i _ j).count c) (Finset.mem_univ i),
    Finset.sum_congr rfl hothers, Function.update_self, hi, List.count_nil]
  dsimp only
  omega

/-- The thread has ended so that these labels describe it. -/
def Described {threads : ι → Thread} {W : Type}
    (P : Pool sig Exc (fun i => (threads i).Answer) W) (c : Count) (i : ι) : Prop :=
  ((P.thread i).result.bind (countOf (threads i))) = some c

instance {threads : ι → Thread} {W : Type} (P : Pool sig Exc (fun i => (threads i).Answer) W)
    (c : Count) (i : ι) : Decidable (Described P c i) :=
  inferInstanceAs (Decidable (_ = _))

omit [DecidableEq ι] in
theorem count_toList (o : Option Count) (c : Count) :
    o.toList.count c = if o = some c then 1 else 0 := by
  cases o <;> simp [List.count_singleton]

/-- Whatever the environment and the interleaving, at any moment a counter stands at the
number of requests answered so far that its labels describe. -/
theorem counters_account [Fintype ι] {threads : ι → Thread} {W : Type} {E : Env sig W} {w : W}
    {P : Pool sig Exc (fun i => (threads i).Answer) W}
    (hr : Pool.Reachable E (Pool.start (fun i => (threads i).prog cfg out pages) w) P)
    (c : Count) : standing c P.trace = (Finset.univ.filter (Described P c)).card := by
  obtain ⟨g, hwp, hsum⟩ := standing_eq_sum hr
  rw [hsum c, Finset.card_filter]
  refine Finset.sum_congr rfl fun i _ => ?_
  have hbooks : g i = ((P.thread i).result.bind (countOf (threads i))).toList := by
    have hi := hwp i
    cases hresult : (P.thread i).result with
    | some x => exact (Prog.wp_of_result hresult).mp hi
    | none => exact wp_closing_running hi hresult
  rw [hbooks]
  exact count_toList _ c

theorem counters_account_between :
    standing ⟨.deploymentsTotal, "success", .dev⟩ (served twoDeployments between).trace = 2 :=
  (counters_account (served_serves twoDeployments between) _).trans (by decide +kernel)

end pool

end NfOrchestrator.Api
