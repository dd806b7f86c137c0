import NfOrchestrator.Api.Routes
import NfOrchestrator.Metrics.Commands

/-!
# NfOrchestrator.Api.Gate

**Writes and the check of the tools.** The deploy engine checks the tools before it calls
helm, so a deployment and a repair start no write on a host whose tools are wrong
(`gated_of_requireTools`). A teardown does not check them: it starts `helm uninstall` as
soon as it finds the release (`writes_gated_iff`).
-/

namespace NfOrchestrator.Api

open Deploy Reconciler Metrics Translate

/-! ### Requests with their threads -/

/-- A helm process with a verb that changes the cluster was started. -/
def StartsWrite (e : Event sig) : Prop :=
  ∃ verb ∈ writeVerbs, ∃ args, e = ofEngine ⟨.spawn ("helm" :: verb :: args), none⟩

variable (cfg : Settings) (out : Outside) (pages : ℕ)

/-- What a thread that a scrape starts may call: a worker reconciles one release, and the
prober measures. -/
inductive Beside : Request → List (Event sig) → Prop
  | worker {name : String} {pods : Option (List PodState)} {tr : List (Event sig)}
      {y : Except Exc Snapshot} (h : (serve (snapshot cfg name pods)).Traces tr y) :
      Beside .prometheusMetrics tr
  | prober {tr : List (Event sig)} {y : Except Exc Probe} (h : (serve (prober cfg)).Traces tr y) :
      Beside .prometheusMetrics tr

/-- A request that was served: the calls of its own thread, and those of the threads it
started, as far as these came. -/
structure Served (request : Request) where
  tr : List (Event sig)
  answer : Except Exc Response
  traces : (handle cfg out pages request).Traces tr answer
  threads : List (List (Event sig))
  threads_begun : ∀ t ∈ threads, ∃ t', t <+: t' ∧ Beside cfg request t'

/-- Among these calls the tools were checked, and nothing was wrong with them. -/
def Checked (tr : List (Event sig)) : Prop :=
  ∃ tr₁ tr₂ tr₃, tr = tr₁ ++ tr₂ ++ tr₃ ∧ (serve (requireTools cfg)).Traces tr₂ (.ok ())

variable {cfg out pages} {request : Request}

/-- Every write comes after a check that found nothing, and after one that found something
the request fails and there is no write. -/
structure WritesGated (s : Served cfg out pages request) : Prop where
  checked : Along (fun pre e => StartsWrite e → Checked cfg pre) s.tr
  refused : ∀ tr e, tr <+: s.tr → (serve (requireTools cfg)).Traces tr (.error (.deploy e)) →
    e.cls = .hostMisconfigured ∧ s.answer = .ok (.http (httpError e)) ∧
      ∀ e ∈ s.tr, ¬StartsWrite e
  threads : ∀ t ∈ s.threads, ∀ e ∈ t, ¬StartsWrite e

/-- The request deletes a release that helm says is there, and `helm uninstall` could be
started. -/
def UninstallsFound (s : Served cfg out pages request) : Prop :=
  ∃ name tr status rest, request = .deleteDeployment name ∧
    (serve (helmReleaseStatus cfg name)).Traces tr (.ok status) ∧ status ≠ .null ∧
    s.tr = tr ++ ofEngine ⟨.spawn ("helm" :: uninstallArgs cfg name), none⟩ :: rest

/-! ### Programs that only read -/

/-- Not a helm command that changes the cluster. -/
def Reading (command : List String) : Prop :=
  ∀ verb ∈ writeVerbs, ∀ args, command ≠ "helm" :: verb :: args

theorem reading_helm {verb : String} (h : verb ∉ writeVerbs) (args : List String) :
    Reading ("helm" :: verb :: args) := by
  intro verb' hverb' args' heq
  have hverb : verb = verb' := (List.cons.inj (List.cons.inj heq).2).1
  exact h (hverb ▸ hverb')

theorem reading_kubectl (args : List String) : Reading ("kubectl" :: args) := by
  intro verb _ args' heq
  simp at heq

theorem reading_probe : Reading (probeCommand cfg) := reading_kubectl _

theorem reading_version : Reading ["helm", "version", "--short"] :=
  reading_helm (by decide) _

variable {L : Prop} {α : Type} {tr : List (Event sig)} {Q : List String → Prop}

theorem ofEngine_injective : Function.Injective ofEngine := by
  rintro ⟨o, r⟩ ⟨o', r'⟩ h
  cases h
  rfl

/-- A program that only reads starts no write. -/
theorem quiet {p : Eff α} (hp : p.Within (Calls Reading L)) {y : Except Exc α}
    (h : (serve p).Traces tr y) : ∀ e ∈ tr, ¬StartsWrite e := by
  obtain ⟨tr', rfl, hp'⟩ := traces_serve.mp h
  intro e he hx
  obtain ⟨verb, hverb, args, rfl⟩ := hx
  obtain ⟨e', he', heq⟩ := List.mem_map.mp he
  obtain rfl := ofEngine_injective heq
  exact (hp.traces hp' _ he').1 _ (.inl rfl) verb hverb args rfl

/-- A program that looks no tool up. -/
theorem unlooked {p : Eff α} (hp : p.Within (Calls Q False)) {y : Except Exc α}
    (h : (serve p).Traces tr y) (tool : String) (r : Bool) :
    ofEngine ⟨.which tool, r⟩ ∉ tr := by
  obtain ⟨tr', rfl, hp'⟩ := traces_serve.mp h
  intro he
  obtain ⟨e', he', heq⟩ := List.mem_map.mp he
  obtain rfl := ofEngine_injective heq
  exact (hp.traces hp' _ he').2 tool rfl

/-- Only the counters. -/
abbrev Counting : sig.Op → Prop := Sum.elim (fun _ => False) fun _ => True

theorem counting_quiet {p : Serving α} (hp : p.Within Counting) {y : Except Exc α}
    (h : p.Traces tr y) : ∀ e ∈ tr, ¬StartsWrite e := by
  intro e he hx
  obtain ⟨verb, _, args, rfl⟩ := hx
  exact hp.traces h _ he

/-! ### The check of the tools -/

/-- A check of the tools starts by looking helm up. -/
theorem looked_of_requireTools {y : Except Exc Unit}
    (h : (serve (requireTools cfg)).Traces tr y) :
    ∃ r rest, tr = ofEngine ⟨.which "helm", r⟩ :: rest := by
  obtain ⟨r, rest, rfl, -⟩ := h
  exact ⟨r, rest, rfl⟩

theorem quiet_requireTools {y : Except Exc Unit}
    (h : (serve (requireTools cfg)).Traces tr y) : ∀ e ∈ tr, ¬StartsWrite e :=
  quiet (within_requireTools (L := True) cfg trivial reading_version) h

/-- Looking for problems raises none of the engine's own exceptions. -/
theorem raising_toolProblems : (toolProblems cfg).Raising fun exc => ∀ e, exc ≠ .deploy e := by
  have hlookup : ∀ names, (missingTools names).Raising fun exc => ∀ e, exc ≠ .deploy e := by
    intro names
    induction names with
    | nil => trivial
    | cons tool rest ih => exact (Prog.raising_op _).bind fun _ => ih.bind fun _ => trivial
  have hask : ∀ now, (askVersion cfg now).Raising fun exc => ∀ e, exc ≠ .deploy e := by
    intro now
    refine Prog.Raising.bind ?_ fun outcome => ?_
    · refine (Prog.raising_op _).bind fun failure => ?_
      cases failure with
      | some exc => trivial
      | none => exact Prog.raising_op _
    · refine Prog.Raising.bind (Prog.raising_ofExcept fun exc hexc e he => ?_) fun problems =>
        (Prog.raising_op _).bind fun _ => trivial
      subst he
      generalize problemsOfVersion _ = x at hexc
      cases x <;> cases hexc
  have hversion : (versionProblems cfg).Raising fun exc => ∀ e, exc ≠ .deploy e := by
    refine (Prog.raising_op _).bind fun now => (Prog.raising_op _).bind fun cached => ?_
    cases cached with
    | none => exact hask now
    | some c =>
        dsimp only
        split_ifs
        · trivial
        · exact hask now
  refine (hlookup tools).bind fun missing => ?_
  by_cases hhelm : "helm" ∈ missing
  · rw [if_pos hhelm]
    trivial
  · rw [if_neg hhelm]
    exact hversion.bind fun _ => trivial

/-- What the check raises about the tools says that the host is misconfigured. -/
theorem cls_of_requireTools {e : DeployError}
    (h : (serve (requireTools cfg)).Traces tr (.error (.deploy e))) :
    e.cls = .hostMisconfigured := by
  obtain ⟨tr', -, hp⟩ := traces_serve.mp h
  rcases Prog.traces_bind.mp hp with ⟨problems, tr₁, tr₂, -, -, hraise⟩ | ⟨exc, hexc, heq⟩
  · split_ifs at hraise
    · cases hraise.2
    · obtain rfl := Exc.deploy.inj (Except.error.inj hraise.2)
      rfl
  · obtain rfl := Except.error.inj heq
    exact absurd rfl (raising_toolProblems.traces hexc e)

/-- Writes after a check that found nothing are checked. -/
theorem checked_after {t rest : List (Event sig)}
    (h : (serve (requireTools cfg)).Traces t (.ok ())) :
    Along (fun pre e => StartsWrite e → Checked cfg pre) (t ++ rest) := by
  intro pre e post heq hwrite
  rcases List.append_eq_append_iff.mp heq with ⟨pre', rfl, -⟩ | ⟨post', rfl, hpost⟩
  · exact ⟨[], t, pre', rfl, h⟩
  · cases post' with
    | nil => exact ⟨[], pre, [], by simp, by simpa using h⟩
    | cons e' rest' =>
        obtain ⟨rfl, -⟩ := List.cons.inj hpost
        exact absurd hwrite (quiet_requireTools h e (by simp))

/-! ### Routes that check the tools first -/

/-- A route that checks the tools first either goes on after a check that found nothing, or
starts no write, and answers with what the check found. -/
theorem gated_of_requireTools {α : Type} {f : Unit → Eff α} {failed : Serving Unit}
    {returned : α → Serving Response} {x : Except Exc Response}
    (hfailed : failed.Within Counting) (hreturns : failed.Raising fun _ => False)
    (h : (answering (requireTools cfg >>= f) failed returned).Traces tr x) :
    (∃ t rest, tr = t ++ rest ∧ (serve (requireTools cfg)).Traces t (.ok ())) ∨
    (∃ exc t rest, tr = t ++ rest ∧ (serve (requireTools cfg)).Traces t (.error exc) ∧
      (∀ e ∈ tr, ¬StartsWrite e) ∧ ∀ e, exc = .deploy e → x = .ok (.http (httpError e))) := by
  have hsplit : ∀ {tr₁ : List (Event Deploy.sig)} {y : Except Exc α} (tr₂ : List (Event sig)),
      (requireTools cfg >>= f).Traces tr₁ y →
      (∃ t rest, tr₁.map ofEngine ++ tr₂ = t ++ rest ∧
        (serve (requireTools cfg)).Traces t (.ok ())) ∨
      ∃ exc, (serve (requireTools cfg)).Traces (tr₁.map ofEngine) (.error exc) ∧
        y = .error exc := by
    intro tr₁ y tr₂ hp
    rcases Prog.traces_bind.mp hp with ⟨⟨⟩, t, t', rfl, ht, -⟩ | ⟨exc, ht, rfl⟩
    · exact .inl ⟨t.map ofEngine, t'.map ofEngine ++ tr₂, by simp, traces_serve.mpr ⟨t, rfl, ht⟩⟩
    · exact .inr ⟨exc, traces_serve.mpr ⟨tr₁, rfl, ht⟩, rfl⟩
  rcases traces_answering.mp h with ⟨a, tr₁, tr₂, rfl, hp, hrest⟩ | ⟨e, tr₁, tr₂, rfl, hp, hrest⟩ |
    ⟨exc, tr₁, hexc, rfl, hp, rfl⟩
  · rcases hsplit tr₂ hp with hok | ⟨exc, -, heq⟩
    · exact .inl hok
    · cases heq
  · rcases hsplit tr₂ hp with hok | ⟨exc, ht, heq⟩
    · exact .inl hok
    · obtain rfl := Except.error.inj heq
      -- the check raised, and after it there is only the increment
      have hthen : (failed >>= fun _ => (.ret (.http (httpError e)) : Serving Response)).Within
          Counting := hfailed.bind fun _ => trivial
      refine .inr ⟨_, _, tr₂, rfl, ht, fun e' he' => ?_, ?_⟩
      · rcases List.mem_append.mp he' with he' | he'
        · exact quiet_requireTools ht e' he'
        · exact counting_quiet hthen hrest e' he'
      · rintro e' heq
        obtain rfl := Exc.deploy.inj heq
        rcases Prog.traces_bind.mp hrest with ⟨_, _, _, -, -, -, rfl⟩ | ⟨exc, hexc, -⟩
        · rfl
        · exact (hreturns.traces hexc).elim
  · rcases hsplit [] hp with hok | ⟨exc', ht, heq⟩
    · exact .inl (by simpa using hok)
    · obtain rfl := Except.error.inj heq
      exact .inr ⟨_, _, [], (List.append_nil _).symm, ht, quiet_requireTools ht, fun e he =>
        absurd he (hexc e)⟩

/-- A route that checks the tools first gates its writes. -/
theorem writesGated_of_requireTools {α : Type} {f : Unit → Eff α} {failed : Serving Unit}
    {returned : α → Serving Response} (s : Served cfg out pages request)
    (hfailed : failed.Within Counting) (hreturns : failed.Raising fun _ => False)
    (h : (answering (requireTools cfg >>= f) failed returned).Traces s.tr s.answer)
    (hthreads : ∀ t ∈ s.threads, ∀ e ∈ t, ¬StartsWrite e) : WritesGated s := by
  rcases gated_of_requireTools hfailed hreturns h with ⟨t, rest, htr, ht⟩ |
    ⟨exc, t, rest, htr, ht, hquiet, hanswer⟩
  · refine ⟨htr ▸ checked_after ht, fun tr e hpre hraise => ?_, hthreads⟩
    obtain ⟨-, heq⟩ := ht.eq_of_prefix hraise ⟨rest, htr.symm⟩ hpre
    cases heq
  · refine ⟨fun pre e post heq hwrite => absurd hwrite (hquiet e (by simp [heq])),
      fun tr e hpre hraise => ?_, hthreads⟩
    obtain ⟨-, heq⟩ := ht.eq_of_prefix hraise ⟨rest, htr.symm⟩ hpre
    obtain rfl := Except.error.inj heq
    exact ⟨cls_of_requireTools hraise, hanswer e rfl, hquiet⟩

/-- A request that starts no write, and whose first call is not the lookup of helm, gates
its writes. -/
theorem writesGated_of_quiet (s : Served cfg out pages request)
    (hquiet : ∀ e ∈ s.tr, ¬StartsWrite e)
    (hfirst : ∀ r rest, s.tr ≠ ofEngine ⟨.which "helm", r⟩ :: rest)
    (hthreads : ∀ t ∈ s.threads, ∀ e ∈ t, ¬StartsWrite e) : WritesGated s := by
  refine ⟨fun pre e post heq hwrite => absurd hwrite (hquiet e (by simp [heq])),
    fun tr e hpre hraise => ?_, hthreads⟩
  obtain ⟨r, rest, rfl⟩ := looked_of_requireTools hraise
  obtain ⟨post, hpost⟩ := hpre
  exact absurd hpost.symm (hfirst r _)

/-! ### The threads of a scrape -/

theorem reading_history {name : String} : Reading ("helm" :: historyArgs cfg name) :=
  reading_helm (by decide) _

theorem reading_values {name : String} (revision : Json) :
    Reading ("helm" :: valuesArgs cfg name revision) := reading_helm (by decide) _

/-- The workers and the prober of a scrape start no write. -/
theorem threads_quiet (s : Served cfg out pages request) :
    ∀ t ∈ s.threads, ∀ e ∈ t, ¬StartsWrite e := by
  intro t ht e he
  obtain ⟨t', hpre, hbeside⟩ := s.threads_begun t ht
  have he' := hpre.subset he
  cases hbeside with
  | worker h =>
      exact quiet (within_snapshot (L := True) cfg reading_probe reading_history reading_values
        (reading_kubectl _) _) h e he'
  | prober h => exact quiet (within_prober (L := True) cfg reading_probe) h e he'

/-- The main thread of a scrape starts no write. -/
theorem scrape_quiet {tr : List (Event sig)} {x : Except Exc Response}
    (h : (prometheusMetrics cfg pages).Traces tr x) : ∀ e ∈ tr, ¬StartsWrite e := by
  have hcollect := within_collect (L := True) cfg trivial reading_probe reading_version
    (reading_kubectl _) (within_releaseNames cfg reading_probe
      (fun _ => reading_helm (by decide) _) pages)
  have hscrape : (prometheusMetrics cfg pages).Within
      (Sum.elim (Scraping (Calls Reading True)) fun _ => True) :=
    hcollect.inl.bind fun _ => trivial
  intro e he hx
  obtain ⟨verb, hverb, args, rfl⟩ := hx
  exact (hscrape.traces h _ he).1 _ (.inl rfl) verb hverb args rfl

/-! ### Deleting -/

/-- A teardown looks no tool up, and before it uninstalls it only reads. -/
theorem within_status (name : String) :
    (helmReleaseStatus cfg name).Within (Calls Reading False) :=
  within_helmReleaseStatus cfg reading_probe (reading_helm (by decide) _)

theorem within_teardown_any (name : String) :
    (teardown cfg name).Within (Calls (fun _ => True) False) :=
  within_teardown cfg trivial trivial trivial

/-- A teardown starts a write when it finds the release and `helm uninstall` can be
started, and only then. -/
theorem teardown_writes {name : String} {tr : List (Event Deploy.sig)} {y : Except Exc TornDown}
    (h : (teardown cfg name).Traces tr y) {e : Event sig} (he : e ∈ tr.map ofEngine)
    (hwrite : StartsWrite e) :
    ∃ tr₁ status rest, (serve (helmReleaseStatus cfg name)).Traces tr₁ (.ok status) ∧
      status ≠ .null ∧
      tr.map ofEngine =
        tr₁ ++ ofEngine ⟨.spawn ("helm" :: uninstallArgs cfg name), none⟩ :: rest := by
  rcases Prog.traces_bind.mp h with ⟨status, tr₁, tr₂, rfl, hstatus, hrest⟩ | ⟨exc, hexc, rfl⟩
  · have hserved : (serve (helmReleaseStatus cfg name)).Traces (tr₁.map ofEngine) (.ok status) :=
      traces_serve.mpr ⟨tr₁, rfl, hstatus⟩
    rw [List.map_append, List.mem_append] at he
    have he₂ : e ∈ tr₂.map ofEngine :=
      he.resolve_left fun h₁ => quiet (within_status name) hserved e h₁ hwrite
    by_cases hnull : status = .null
    · rw [if_pos hnull] at hrest
      obtain ⟨rfl, -⟩ := hrest
      cases he₂
    · rw [if_neg hnull] at hrest
      obtain ⟨failure, tr₃, rfl, hrun⟩ := hrest
      cases failure with
      | none => exact ⟨tr₁.map ofEngine, status, tr₃.map ofEngine, hserved, hnull, by simp⟩
      | some exc =>
          -- a process that could not be started is the last thing the teardown tries
          have hlast : tr₃ = [] := by
            change (afterOSError "helm" exc >>= fun _ => _).Traces tr₃ y at hrun
            rw [afterOSError] at hrun
            cases hfailure : spawnFailure "helm" exc with
            | none =>
                rw [hfailure] at hrun
                exact hrun.1
            | some failure =>
                rw [hfailure] at hrun
                exact hrun.1
          subst hlast
          obtain ⟨verb, -, args, rfl⟩ := hwrite
          cases ofEngine_injective (List.mem_singleton.mp he₂)
  · exact absurd hwrite
      (quiet (within_status name) (traces_serve.mpr ⟨tr, rfl, hexc⟩) e he)

/-! ### Every request -/

/-- A route without a counter makes the calls of the engine's program and no others. -/
theorem traces_of_uncounted {p : Eff α} {body : α → Body} {x : Except Exc Response}
    (h : (answering p (return ()) fun a => return .ok 200 (body a)).Traces tr x) :
    ∃ tr' y, tr = tr'.map ofEngine ∧ p.Traces tr' y := by
  rcases traces_answering.mp h with ⟨a, tr₁, _, htr, hp, rfl, -⟩ |
    ⟨e, tr₁, _, htr, hp, rfl, -⟩ | ⟨exc, tr₁, -, htr, hp, -⟩
  · exact ⟨tr₁, _, by simpa using htr, hp⟩
  · exact ⟨tr₁, _, by simpa using htr, hp⟩
  · exact ⟨tr₁, _, htr, hp⟩

/-- Between finding the release and uninstalling it nobody looks at the tools. -/
theorem not_writesGated {s : Served cfg out pages request} (h : UninstallsFound s) :
    ¬WritesGated s := by
  obtain ⟨name, tr, status, rest, -, hstatus, -, htr⟩ := h
  intro hgated
  have hwrite : StartsWrite (ofEngine ⟨.spawn ("helm" :: uninstallArgs cfg name), none⟩) :=
    ⟨"uninstall", by decide, _, rfl⟩
  obtain ⟨tr₁, tr₂, tr₃, hpre, hcheck⟩ := hgated.checked tr _ rest htr hwrite
  obtain ⟨r, rest', rfl⟩ := looked_of_requireTools hcheck
  exact unlooked (within_status name) hstatus "helm" r (by simp [hpre])

/-- Serving a request gates its writes, unless the request deletes a release that is there. -/
theorem writes_gated_iff (s : Served cfg out pages request) :
    WritesGated s ↔ ¬UninstallsFound s := by
  have hthreads := threads_quiet s
  have htraces := s.traces
  constructor
  · intro hgated hfound
    exact not_writesGated hfound hgated
  · intro hnone
    cases request with
    | readyz =>
        refine writesGated_of_requireTools s ?_ ?_ htraces hthreads
        · trivial
        · trivial
    | createDeployment intent =>
        exact writesGated_of_requireTools s (Prog.within_op trivial) (Prog.raising_op _) htraces
          hthreads
    | repairDeployment name intent =>
        change (repairDeployment cfg out name intent).Traces s.tr s.answer at htraces
        rw [repairDeployment] at htraces
        split_ifs at htraces
        · exact writesGated_of_quiet s (by simp [htraces.1]) (by simp [htraces.1]) hthreads
        · exact writesGated_of_requireTools s (Prog.within_op trivial) (Prog.raising_op _) htraces
            hthreads
    | deleteDeployment name =>
        obtain ⟨tr, y, htr, hp⟩ := traces_of_uncounted htraces
        have hserved := traces_serve.mpr ⟨tr, htr, hp⟩
        refine writesGated_of_quiet s (fun e he hwrite => ?_) (fun r rest heq => ?_) hthreads
        · obtain ⟨tr₁, status, rest, hstatus, hnull, huninstall⟩ :=
            teardown_writes hp (htr ▸ he) hwrite
          exact hnone ⟨name, tr₁, status, rest, rfl, hstatus, hnull, htr.trans huninstall⟩
        · exact unlooked (within_teardown_any name) hserved "helm" r (by simp [heq])
    | getDeployment name =>
        obtain ⟨tr, y, htr, hp⟩ := traces_of_uncounted htraces
        have hserved := traces_serve.mpr ⟨tr, htr, hp⟩
        have hreads : (reconcile cfg name none).Within (Calls Reading False) :=
          within_reconcile cfg reading_probe reading_history reading_values (reading_kubectl _) none
        refine writesGated_of_quiet s (quiet hreads hserved) (fun r rest heq => ?_) hthreads
        exact unlooked hreads hserved "helm" r (by simp [heq])
    | prometheusMetrics =>
        refine writesGated_of_quiet s (scrape_quiet htraces) (fun r rest heq => ?_) hthreads
        obtain ⟨now, rest', htr, -⟩ := htraces
        rw [heq] at htr
        cases (List.cons.inj htr).1
    | translateIntent text =>
        have htr : s.tr = [] := by
          change (translateIntent out text).Traces s.tr s.answer at htraces
          rw [translateIntent] at htraces
          split at htraces <;> exact htraces.1
        exact writesGated_of_quiet s (by simp [htr]) (by simp [htr]) hthreads
    | healthz | intentSchema | validateIntent intent =>
        refine writesGated_of_quiet s ?_ ?_ hthreads <;> simp [htraces.1]

/-- A status that `helm status` printed. -/
theorem status_found {name output : String} {status : Json}
    (hstatus : readStatus output = .ok status) :
    (helmReleaseStatus cfg name).Traces
      [⟨.spawn ("helm" :: statusArgs cfg name), none⟩,
        ⟨.finish ("helm" :: statusArgs cfg name) (timeoutFor cfg (statusArgs cfg name)),
          .completed 0 output ""⟩,
        ⟨.monotonic, (1 : ℚ)⟩, ⟨.setLastSuccess 1, ()⟩]
      (.ok status) := by
  refine Prog.Traces.bind_nil (a := some output) ?_ ?_
  · refine Prog.traces_tryCatch.mpr (.inl ⟨some output, ?_, rfl⟩)
    refine Prog.traces_map.mpr ⟨.ok output, ?_, rfl⟩
    exact ⟨none, _, rfl, .completed 0 output "", _, rfl, (1 : ℚ), _, rfl, (), _, rfl, rfl, rfl⟩
  · exact Prog.traces_ofExcept.mpr ⟨rfl, by rw [hstatus]; rfl⟩

/-- A teardown that finds the release, and whose `helm uninstall` succeeds. -/
theorem teardown_found {name : String} {status : Json} {tr : List (Event Deploy.sig)}
    (hstatus : (helmReleaseStatus cfg name).Traces tr (.ok status)) (hfound : status ≠ .null) :
    (teardown cfg name).Traces
      (tr ++ [⟨.spawn ("helm" :: uninstallArgs cfg name), none⟩,
        ⟨.finish ("helm" :: uninstallArgs cfg name) (timeoutFor cfg (uninstallArgs cfg name)),
          .completed 0 "" ""⟩,
        ⟨.monotonic, (2 : ℚ)⟩, ⟨.setLastSuccess 2, ()⟩])
      (.ok { release := name, state := .notInstantiated, uninstalled := true }) := by
  refine hstatus.bind ?_
  rw [if_neg hfound]
  exact ⟨none, _, rfl, .completed 0 "" "", _, rfl, (2 : ℚ), _, rfl, (), _, rfl, rfl, rfl⟩

/-- A release that `helm status` finds is uninstalled by a helm nobody asked the version of. -/
theorem teardown_unchecked :
    ∃ (out : Outside) (s : Served {} out 1 (.deleteDeployment "amf")),
      s.tr.map Event.op =
        ([.spawn ["helm", "status", "amf", "--kube-context", "kind-nf-orchestrator", "--output",
            "json"],
          .finish ["helm", "status", "amf", "--kube-context", "kind-nf-orchestrator", "--output",
            "json"] 3,
          .monotonic, .setLastSuccess 1,
          .spawn ["helm", "uninstall", "amf", "--kube-context", "kind-nf-orchestrator"],
          .finish ["helm", "uninstall", "amf", "--kube-context", "kind-nf-orchestrator"] 60,
          .monotonic, .setLastSuccess 2] : List Deploy.Op).map (Sum.inl ∘ Sum.inl) ∧
      ¬WritesGated s := by
  have hstatus : readStatus "\x7b\"info\": \x7b\"status\": \"deployed\"\x7d\x7d" =
      .ok (.str "deployed") := by decide +kernel
  have hfound : Json.str "deployed" ≠ .null := by simp
  have hasked : (helmReleaseStatus {} "amf").Traces _ _ := status_found hstatus
  have hrun := teardown_found hasked hfound
  let out : Outside := ⟨fun _ => .error "", fun _ => .error (.py .typeError), id⟩
  have hserved : (handle {} out 1 (.deleteDeployment "amf")).Traces _ _ :=
    traces_answering.mpr (.inl ⟨_, _, [], (List.append_nil _).symm, hrun, rfl, rfl⟩)
  refine ⟨out, ⟨_, _, hserved, [], by simp⟩, rfl, not_writesGated ?_⟩
  exact ⟨"amf", _, .str "deployed", _, rfl, traces_serve.mpr ⟨_, rfl, hasked⟩, hfound,
    List.map_append⟩

end NfOrchestrator.Api
