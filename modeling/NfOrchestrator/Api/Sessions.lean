import NfOrchestrator.Api.Serial

/-!
# NfOrchestrator.Api.Sessions

**What a client can rely on.** As long as nobody deletes a release, no two deployments of it
are answered the same revision, and one that was sent after another was answered gets a
higher one (`revisions_serial`); a status read that was sent after a deployment was answered
shows that deployment or a later operation (`status_reads_deployment`); and the intent in
effect is that of the deployment answered the highest revision, unless the outcome of one of
them is not known (`last_deployment_wins`). A status read that was sent after a deletion was
answered says that there is no release, if nobody deploys it meanwhile
(`status_reads_deletion`).
-/

namespace NfOrchestrator.Api

open Deploy Reconciler

/-! ### Answers -/

/-- The response of a thread that serves a request. -/
def Thread.response : (t : Thread) → Except Exc t.Answer → Option Response
  | .request _, .ok r => some r
  | _, _ => none

/-- The intent was deployed, under this revision. -/
def SaysDeployed (r : Response) (revision : ℤ) : Prop :=
  ∃ result : Deployed, result.revision = .int revision ∧
    (r = .ok 201 (.deployed result) ∨ r = .ok 200 (.repaired result))

/-- The cluster turned the deployment down. -/
def SaysRefused (r : Response) : Prop :=
  ∃ exc : HTTPException, r = .http exc ∧ exc.statusCode ∈ [409, 502]

variable {truthful : Prop} {torn : String → Prop} {c c' d d' : Cluster} {t : Thread}
  {intent : Intent} {name : String} {moves : List (Cluster × Cluster)}

theorem refusal_of_statusCode {e : DeployError} (h : (httpError e).statusCode ∈ [409, 502]) :
    Refusal e := by
  obtain ⟨cls, message⟩ := e
  cases cls <;> simp [httpError, DeployError.isHostOverloaded, Refusal] at *

/-- What a submission does is a deployment's doing. -/
theorem deploys_of_does (ht : Submits t intent) {x : Except Exc t.Answer}
    (h : Does truthful torn t x moves) :
    ∃ y, Deploys intent y moves ∧
      (∀ r m, t.response x = some r → SaysDeployed r m → ∃ d, y = .ok d ∧ d.revision = .int m) ∧
      ∀ r, t.response x = some r → SaysRefused r → ∃ e, y = .error (.deploy e) ∧ Refusal e := by
  obtain ⟨counter, rfl⟩ := ht
  obtain ⟨statusCode, body, hbody, y, rfl, hy⟩ : ∃ (statusCode : ℕ) (body : Deployed → Body),
      (body = .deployed ∨ body = .repaired) ∧
        ∃ y, x = answerOf statusCode body y ∧ Deploys intent y moves := by
    cases counter with
    | deploymentsTotal => exact ⟨201, _, .inl rfl, h⟩
    | repairsTotal =>
        have hsame : ¬intent.name ≠ intent.name := not_not.mpr rfl
        exact ⟨200, _, .inr rfl, by simpa only [submission, Does, if_neg hsame] using h⟩
  refine ⟨y, hy, fun r m hr hsays => ?_, fun r hr hsays => ?_⟩
  · obtain ⟨result, hrevision, hdeployed⟩ := hsays
    rcases y with (e | e | e) | d
    · obtain rfl : .http (httpError e) = r := Option.some.inj hr
      simp at hdeployed
    · cases hr
    · cases hr
    · obtain rfl : .ok statusCode (body d) = r := Option.some.inj hr
      refine ⟨d, rfl, ?_⟩
      have hresult : d = result := by
        rcases hbody with rfl | rfl
        · exact (by simpa using hdeployed : _ ∧ _).2
        · exact (by simpa using hdeployed : _ ∧ _).2
      exact hresult ▸ hrevision
  · obtain ⟨exc, rfl, hcode⟩ := hsays
    rcases y with (e | e | e) | d
    · obtain rfl : httpError e = exc := Response.http.inj (Option.some.inj hr)
      exact ⟨e, rfl, refusal_of_statusCode hcode⟩
    · cases hr
    · cases hr
    · cases hr

/-! ### The server's deployments -/

section pool

variable {ι : Type} {threads : ι → Thread} (P : Server threads)

/-- The request of this thread was answered so. -/
def Answered (i : ι) (r : Response) : Prop :=
  ∃ x, (P.thread i).result = some x ∧ (threads i).response x = some r

/-- The thread was answered that its intent for the release is deployed, under this revision. -/
def DeployedAs (name : String) (i : ι) (intent : Intent) (revision : ℤ) : Prop :=
  Submits (threads i) intent ∧ releaseName intent = name ∧
    ∃ r, Answered P i r ∧ SaysDeployed r revision

/-- Every deployment of the release was answered that it is deployed, or refused. -/
def Conclusive (name : String) : Prop :=
  ∀ i intent, Submits (threads i) intent → releaseName intent = name →
    ∃ r, Answered P i r ∧ ((∃ revision, SaysDeployed r revision) ∨ SaysRefused r)

/-- The revisions labelled `deployed` are there, and were made from this intent. -/
def InEffect (s : Store) (intent : Intent) : Prop :=
  (∃ r ∈ s.records, r.status = "deployed") ∧
    ∀ r ∈ s.records, r.status = "deployed" → r.values = renderValues intent

end pool

/-! ### Two clients -/

/-- The revision a response names as deployed. -/
def Response.deployedRevision : Response → Option ℤ
  | .ok 201 (.deployed ⟨_, _, .int revision, _⟩) => some revision
  | .ok 200 (.repaired ⟨_, _, .int revision, _⟩) => some revision
  | _ => none

theorem saysDeployed_iff {r : Response} {revision : ℤ} :
    SaysDeployed r revision ↔ r.deployedRevision = some revision := by
  constructor
  · rintro ⟨⟨release, status, _, values⟩, rfl, rfl | rfl⟩ <;> rfl
  · intro h
    unfold Response.deployedRevision at h
    split at h
    · exact ⟨_, congrArg Json.int (Option.some.inj h), .inl rfl⟩
    · exact ⟨_, congrArg Json.int (Option.some.inj h), .inr rfl⟩
    · cases h

def Response.reported : Response → Option Report
  | .ok 200 (.report report) => some report
  | _ => none

theorem eq_of_reported {r : Response} {report : Report} (h : r.reported = some report) :
    r = .ok 200 (.report report) := by
  unfold Response.reported at h
  split at h
  · rw [Option.some.inj h]
  · cases h

def Response.removed : Response → Option TornDown
  | .ok 200 (.tornDown result) => some result
  | _ => none

theorem eq_of_removed {r : Response} {result : TornDown} (h : r.removed = some result) :
    r = .ok 200 (.tornDown result) := by
  unfold Response.removed at h
  split at h
  · rw [Option.some.inj h]
  · cases h

theorem precedes_of_split {ι : Type} {tr : List (ι × Event sig)} (n : ℕ) {i j : ι}
    (hpre : ∀ k ∈ (tr.take n).map Prod.fst, k ≠ j) (hpost : ∀ k ∈ (tr.drop n).map Prod.fst, k ≠ i) :
    Pool.Precedes tr i j :=
  ⟨_, _, (List.take_append_drop n tr).symm, fun _ he => hpre _ (List.mem_map_of_mem he),
    fun _ he => hpost _ (List.mem_map_of_mem he)⟩

/-- The same intent, deployed twice. -/
def twoDeployments (_ : Bool) : Thread := .request (.createDeployment threeReplicas)

/-- The second deployment comes between the calls of the first. -/
def between : List Bool :=
  List.replicate 6 false ++ List.replicate 12 true ++ List.replicate 6 false

/-- The deployment is answered before the status read is sent. -/
def inTurn : List Bool := List.replicate 12 false ++ List.replicate 17 true

theorem answered_of_result {ι β : Type} {threads : ι → Thread} {P : Server threads} {i : ι}
    {f : Response → Option β} {b : β}
    (h : ((P.thread i).result.bind (threads i).response).bind f = some b) :
    ∃ r, Answered P i r ∧ f r = some b := by
  simpa only [Option.bind_eq_some_iff, Answered] using h

/-- A deployment that was answered so, as its thread ended. -/
theorem deployedAs_of_result {ι : Type} {threads : ι → Thread} {P : Server threads} {i : ι}
    {intent : Intent} {revision : ℤ} (hi : threads i = .request (.createDeployment intent))
    (h : ((P.thread i).result.bind (threads i).response).bind Response.deployedRevision =
      some revision) : DeployedAs P (releaseName intent) i intent revision := by
  obtain ⟨r, hr, hrevision⟩ := answered_of_result h
  exact ⟨⟨.deploymentsTotal, hi⟩, rfl, r, hr, saysDeployed_iff.mpr hrevision⟩

/-- What a thread was answered, it was answered once. -/
theorem DeployedAs.unique {ι : Type} {threads : ι → Thread} {P : Server threads} {i : ι}
    {a b : Intent} {m n : ℤ} (h : DeployedAs P name i a m) (h' : DeployedAs P name i b n) :
    m = n := by
  obtain ⟨-, -, r, ⟨x, hx, hr⟩, hsays⟩ := h
  obtain ⟨-, -, r', ⟨x', hx', hr'⟩, hsays'⟩ := h'
  obtain rfl := Option.some.inj (hx.symm.trans hx')
  obtain rfl := Option.some.inj (hr.symm.trans hr')
  exact Option.some.inj ((saysDeployed_iff.mp hsays).symm.trans (saysDeployed_iff.mp hsays'))

theorem deployedAs_between :
    DeployedAs (served twoDeployments between) "amf" false threeReplicas 2 ∧
    DeployedAs (served twoDeployments between) "amf" true threeReplicas 1 :=
  ⟨deployedAs_of_result rfl (by decide +kernel), deployedAs_of_result rfl (by decide +kernel)⟩

/-! ### Revisions -/

section pool

variable {ι : Type} [DecidableEq ι] {threads : ι → Thread} {stores : String → Store}
  {P : Server threads} {history : List (ι × Cluster × Cluster)} {i j : ι} {m n : ℤ}
  {a b : Intent}

/-- Moves of the server's threads, one after another. -/
abbrev LeadsTo (threads : ι → Thread) : Cluster → List (ι × Cluster × Cluster) → Cluster → Prop :=
  Serial fun e c c' => e.2 = (c, c') ∧ Acts (threads e.1).Upgrades (threads e.1).Deletes c c'

omit [DecidableEq ι] in
theorem keeps_along {made : List (ι × Cluster × Cluster)} (h : LeadsTo threads c made c') :
    Keeps (Deleted threads) c c' :=
  h.invariant (I := Keeps (Deleted threads) c)
    (fun e _ _ _ hmove hc => hc.trans (hmove.2.keeps fun _ he => ⟨e.1, he⟩)) (keeps_refl c)

/-- Of two moves of different threads the one was made after the other. -/
theorem keeps_or_keeps (hturns : Turns truthful threads stores P history) (hij : i ≠ j)
    (hi : (c, d) ∈ movesOf i history) (hj : (c', d') ∈ movesOf j history) :
    Keeps (Deleted threads) d c' ∨ Keeps (Deleted threads) d' c := by
  obtain ⟨before, after, rfl, hbefore, -, hafter⟩ := hturns.move hi
  rcases List.mem_append.mp (mem_movesOf.mp hj) with hmem | hmem
  · obtain ⟨_, _, w, w', -, -, ⟨hw, -⟩, hbetween⟩ := hbefore.turn hmem
    obtain ⟨rfl, rfl⟩ := Prod.mk.inj hw
    exact .inr (keeps_along hbetween)
  · have hlater : (j, c', d') ∈ after :=
      (List.mem_cons.mp hmem).resolve_left fun h => hij (Prod.mk.inj h).1.symm
    obtain ⟨_, _, w, w', -, hbetween, ⟨hw, -⟩, -⟩ := hafter.turn hlater
    obtain ⟨rfl, rfl⟩ := Prod.mk.inj hw
    exact .inl (keeps_along hbetween)

/-- A deployment that was answered so installed its intent when its upgrade ended. -/
theorem DeployedAs.installs (h : DeployedAs P name i a m)
    (hturns : Turns truthful threads stores P history) :
    ∃ c d : Cluster, (c, d) ∈ movesOf i history ∧
      (c name).Installs (some a) (renderValues a) (d name).toStore ∧
      m = nextRevision (c name).records := by
  obtain ⟨hsubmits, rfl, r, ⟨x, hx, hr⟩, hsays⟩ := h
  obtain ⟨y, hy, hdeployed, -⟩ := deploys_of_does hsubmits (hturns.does i x hx)
  obtain ⟨result, rfl, hrevision⟩ := hdeployed r m hr hsays
  obtain ⟨s, s', ⟨a₀, c, rfl, hmoves⟩, hinstalls, rfl⟩ := hy
  refine ⟨c, _, by rw [hmoves]; exact List.mem_cons_of_mem _ (List.mem_singleton_self _), ?_,
    (Json.int.inj hrevision).symm⟩
  rwa [Function.update_self]

/-- The revision an upgrade makes is below all that are made later. -/
theorem nextRevision_lt (hname : ¬torn name)
    (hinstalls : (c name).Installs (some a) (renderValues a) (d name).toStore)
    (hkeeps : Keeps torn d c') :
    nextRevision (c name).records < nextRevision (c' name).records := by
  obtain ⟨description, hd⟩ := hinstalls
  refine (hkeeps.grows name hname).lt_nextRevision
    (r := ⟨⟨nextRevision (c name).records, "deployed", description⟩, renderValues a⟩) ?_
  rw [hd]
  exact List.mem_append_right _ (List.mem_singleton_self _)

variable {cfg : Settings} {out : Outside} {pages : ℕ} {defaults : List (String × Json)}

/-- Two deployments of a release that nobody deletes are answered different revisions, and in
the order in which they were sent, if the one was answered before the other was sent. -/
theorem revisions_serial (hr : Serves cfg out pages defaults truthful threads stores P)
    (hname : ¬Deleted threads name) (hij : i ≠ j) (hi : DeployedAs P name i a m)
    (hj : DeployedAs P name j b n) : m ≠ n ∧ (Pool.Precedes P.trace i j → m < n) := by
  obtain ⟨history, hturns⟩ := exists_turns hr
  obtain ⟨c, d, hmove, hinstalls, rfl⟩ := hi.installs hturns
  obtain ⟨c', d', hmove', hinstalls', rfl⟩ := hj.installs hturns
  refine ⟨?_, fun hprecedes => ?_⟩
  · rcases keeps_or_keeps hturns hij hmove hmove' with hkeeps | hkeeps
    · exact (nextRevision_lt hname hinstalls hkeeps).ne
    · exact (nextRevision_lt hname hinstalls' hkeeps).ne'
  · obtain ⟨_, between, _, -, -, hbetween⟩ := hturns.between hprecedes hmove hmove'
    exact nextRevision_lt hname hinstalls (keeps_along hbetween)

/-- The deployment that was sent second is upgraded first. -/
theorem revisions_serial_between :
    (2 : ℤ) ≠ 1 ∧ (Pool.Precedes (served twoDeployments between).trace false true → (2 : ℤ) < 1) :=
  revisions_serial (served_serves twoDeployments between)
    (by rintro ⟨i, hi⟩; cases hi) Bool.false_ne_true deployedAs_between.1 deployedAs_between.2

/-! ### Reading one's own writes -/

theorem HelmRelease.Lists.of_rest {k : HelmRelease} {entries : List Entry} (h : k.Shows entries)
    (hrest : k.uninstalling = 0) : ∃ listed, k.Lists listed ∧ entries.Perm listed := by
  obtain ⟨listed, hlists, hperm | ⟨huninstalling, -⟩⟩ := h
  · exact ⟨listed, hlists, hperm⟩
  · omega

omit [DecidableEq ι] in
/-- Right after a deployment its revision is the newest, and the only one that is deployed. -/
theorem newest_of_installed {records : List Record} {made : Record}
    (hrevision : made.revision = nextRevision records) (hstatus : made.status = "deployed")
    {entries : List Entry}
    (hperm : entries.Perm ((records.map Record.supersede ++ [made]).map Record.toEntry))
    {e : Entry} (hnewest : newest entries = some e) :
    e = made.toEntry ∧ lastDeployed entries = some made.revision := by
  have hentries : ∀ e' ∈ entries, e' = made.toEntry ∨
      e'.revision < made.revision ∧ e'.status ≠ "deployed" := by
    intro e' he'
    obtain ⟨r, hr, rfl⟩ := List.mem_map.mp (hperm.mem_iff.mp he')
    rcases List.mem_append.mp hr with hold | hnew
    · rw [hrevision]
      refine .inr ⟨Store.nextRevision_supersede _ r hold, ?_⟩
      obtain ⟨r', -, rfl⟩ := List.mem_map.mp hold
      exact r'.supersede_status
    · exact .inl (congrArg Record.toEntry (List.mem_singleton.mp hnew))
  have hmade : made.toEntry ∈ entries :=
    hperm.mem_iff.mpr
      (List.mem_map_of_mem (List.mem_append_right _ (List.mem_singleton_self _)))
  constructor
  · obtain heq | ⟨hlt, -⟩ := hentries e (List.argmax_mem hnewest)
    · exact heq
    · exact absurd (List.le_of_mem_argmax hmade hnewest) (not_le.mpr hlt)
  · obtain ⟨revision, hlast⟩ := Option.isSome_iff_exists.mp
      (lastDeployed_isSome.mpr ⟨made.toEntry, hmade, hstatus⟩)
    obtain ⟨e', he', hdeployed, rfl⟩ := lastDeployed_mem hlast
    obtain rfl | ⟨-, hnot⟩ := hentries e' he'
    · exact hlast
    · exact absurd hdeployed hnot

/-- What is shown of a release some time after a deployment of it: that deployment, or what was
done to the release since. -/
theorem shows_deployment {k : HelmRelease}
    (hinstalls : (c name).Installs (some a) (renderValues a) (d name).toStore)
    (hgrows : Grows (d name).toStore k.toStore) (hrest : k.uninstalling = 0)
    {entries : List Entry} (hshows : k.Shows entries) {e : Entry}
    (hnewest : newest entries = some e) :
    nextRevision (c name).records < e.revision ∨
      e.revision = nextRevision (c name).records ∧ e.status = "deployed" ∧
        ∀ n, Wanted k n (lastDeployed entries) → n = a.replicas := by
  obtain ⟨description, hd⟩ := hinstalls
  set made : Record :=
    ⟨⟨nextRevision (c name).records, "deployed", description⟩, renderValues a⟩ with hmade
  have hmem : made ∈ (d name).records := by
    rw [hd]
    exact List.mem_append_right _ (List.mem_singleton_self _)
  obtain ⟨listed, hlists, hperm⟩ := HelmRelease.Lists.of_rest hshows hrest
  have hle : ∀ e' ∈ entries, e'.revision ≤ e.revision :=
    fun e' he' => List.le_of_mem_argmax he' hnewest
  cases hlists with
  | @upgrading records status description' hupgrading hrecords hstatus =>
      -- the pending revision is above all that are kept
      have hlt := hgrows.lt_nextRevision hmem
      have hpending := hle _ (hperm.mem_iff.mpr
        (List.mem_append_right _ (List.mem_singleton_self _)))
      exact .inl (lt_of_lt_of_le hlt hpending)
  | kept =>
      rcases hgrows.newer with hsame | ⟨last, hlast, hnewer⟩
      · have hrecords : k.records = (c name).records.map Record.supersede ++ [made] := by
          rw [show k.records = (d name).records from congrArg Store.records hsame, hd]
        rw [Store.entries, hrecords] at hperm
        obtain ⟨rfl, hlast⟩ := newest_of_installed rfl rfl hperm hnewest
        refine .inr ⟨rfl, rfl, fun n hn => ?_⟩
        rw [hlast] at hn
        refine hn made ?_ rfl a rfl
        rw [hrecords]
        exact List.mem_append_right _ (List.mem_singleton_self _)
      · refine .inl (lt_of_lt_of_le (hnewer _ hmem) (hle last.toEntry ?_))
        exact hperm.mem_iff.mpr (List.mem_map_of_mem hlast)

omit [DecidableEq ι] in
/-- What a status read returned is true of the moment it was read at. -/
theorem trueOf_of_does (ht : t = .request (.getDeployment name)) {x : Except Exc t.Answer}
    {report : Report} (hx : t.response x = some (.ok 200 (.report report)))
    (h : Does truthful torn t x moves) :
    ∃ c : Cluster, moves = [(c, c)] ∧ TrueOf truthful (torn name) name none (c name) report := by
  subst ht
  obtain ⟨y, rfl, hreads⟩ := h
  rcases y with (e | e | e) | d
  · cases hx
  · cases hx
  · cases hx
  · obtain ⟨-, hbody⟩ := Response.ok.inj (Option.some.inj hx)
    obtain rfl := Body.report.inj hbody
    exact hreads d rfl

/-- A status read sent after a deployment was answered shows that deployment, or a later
operation. -/
theorem status_reads_deployment (htruthful : truthful)
    (hr : Serves cfg out pages defaults truthful threads stores P) (hname : ¬Deleted threads name)
    (hi : DeployedAs P name i a m) {report : Report}
    (hj : threads j = .request (.getDeployment name))
    (hreport : Answered P j (.ok 200 (.report report))) (hij : Pool.Precedes P.trace i j) :
    report.state ≠ .notInstantiated ∧ ∃ n, report.lastOperation.revision = .int n ∧
      (n = m ∧ report.helmStatus = .str "deployed" ∧ report.desiredReplicas = a.replicas ∨
        m < n) := by
  obtain ⟨history, hturns⟩ := exists_turns hr
  obtain ⟨c, d, hmove, hinstalls, rfl⟩ := hi.installs hturns
  obtain ⟨x, hx, hbody⟩ := hreport
  obtain ⟨c', hread, htrue⟩ := trueOf_of_does hj hbody (hturns.does j x hx)
  obtain ⟨_, between, _, -, hupto, hbetween⟩ :=
    hturns.between hij hmove (n := (c', c')) (by rw [hread]; exact List.mem_singleton_self _)
  have hgrows := (keeps_along hbetween).grows name hname
  have hrest : (c' name).uninstalling = 0 := (keeps_along hupto).uninstalling name hname
  rcases htrue with ⟨-, hnil⟩ | ⟨entries, e, hdescribes⟩
  · -- the revision of the deployment is still there, so the release is not absent
    obtain ⟨description, hd⟩ := hinstalls
    have hmade := (hgrows.kept ⟨⟨nextRevision (c name).records, "deployed", description⟩,
      renderValues a⟩ (by rw [hd]; exact List.mem_append_right _ (List.mem_singleton_self _)))
    rw [hnil htruthful] at hmade
    obtain ⟨_, hnone, -⟩ := hmade
    cases hnone
  · refine ⟨fun habsent => ?_, e.revision, by rw [hdescribes.lastOperation]; rfl, ?_⟩
    · have hstate := hdescribes.state
      rw [habsent, hdescribes.helmStatus] at hstate
      cases deriveState_absent hstate
    · rcases shows_deployment hinstalls hgrows hrest hdescribes.shown hdescribes.newest with
        hlater | ⟨hrevision, hdeployed, hwanted⟩
      · exact .inr hlater
      · exact .inl ⟨hrevision, by rw [hdescribes.helmStatus, hdeployed],
          hwanted _ (hdescribes.desired hname)⟩

theorem status_reads_deployment_inTurn :
    ∃ report, Answered (served twoRequests inTurn) true (.ok 200 (.report report)) ∧
      report.state ≠ .notInstantiated ∧ ∃ n, report.lastOperation.revision = .int n ∧
        (n = 1 ∧ report.helmStatus = .str "deployed" ∧ report.desiredReplicas = 3 ∨ 1 < n) := by
  have hreported : (((((served twoRequests inTurn).thread true).result.bind
      (twoRequests true).response).bind Response.reported).isSome) = true := by decide +kernel
  obtain ⟨report, hreport⟩ := Option.isSome_iff_exists.mp hreported
  obtain ⟨r, hr, hsays⟩ := answered_of_result hreport
  obtain rfl := eq_of_reported hsays
  have hprecedes : Pool.Precedes (served twoRequests inTurn).trace false true :=
    precedes_of_split 12 (by decide +kernel) (by decide +kernel)
  exact ⟨report, hr, status_reads_deployment (a := threeReplicas) trivial
    (served_serves twoRequests inTurn) (by rintro ⟨_ | _, hi⟩ <;> cases hi)
    (deployedAs_of_result rfl (by decide +kernel)) rfl hr hprecedes⟩

/-! ### Deleting -/

/-- What an upgrade changes in the number of upgrades at work: nothing, once it has ended. -/
theorem Upgrade.balanced {s s' : Store} (h : Upgrade name s s' moves) :
    (moves.map fun m => (m.2 name).upgrading - (m.1 name).upgrading).sum = 0 := by
  obtain ⟨b, c, -, rfl⟩ := h
  simp [HelmRelease.upgradeStarted, HelmRelease.upgradeEnded]

/-- A move of an upgrade leaves the store, or is the one that makes the other of it. -/
theorem Upgrade.cases {s s' : Store} (h : Upgrade name s s' moves) (hmem : (c, c') ∈ moves) :
    (c' name).toStore = (c name).toStore ∨ (c name).toStore = s ∧ (c' name).toStore = s' := by
  obtain ⟨a, b, rfl, rfl⟩ := h
  rcases List.mem_pair.mp hmem with hstart | hend
  · obtain ⟨rfl, rfl⟩ := Prod.mk.inj hstart
    rw [Function.update_self]
    exact .inl rfl
  · obtain ⟨rfl, rfl⟩ := Prod.mk.inj hend
    rw [Function.update_self]
    exact .inr ⟨rfl, rfl⟩

/-- Once a deployment has ended, none of its upgrades is at work. -/
theorem Deploys.balanced {x : Except Exc Deployed} (h : Deploys intent x moves) :
    (moves.map fun m =>
      (m.2 (releaseName intent)).upgrading - (m.1 (releaseName intent)).upgrading).sum = 0 := by
  cases x with
  | ok result =>
      obtain ⟨s, s', hupgrade, -⟩ := h
      exact hupgrade.balanced
  | error exc =>
      obtain rfl | ⟨s, s', hupgrade, -⟩ := h
      · rfl
      · exact hupgrade.balanced

/-- A deletion that was answered made a move that left no revision. -/
theorem empty_of_deletes (htruthful : truthful) (ht : t.Deletes name) {x : Except Exc t.Answer}
    {result : TornDown} (hx : t.response x = some (.ok 200 (.tornDown result)))
    (h : Does truthful torn t x moves) : ∃ m ∈ moves, (m.2 name).records = [] := by
  subst ht
  obtain ⟨y, rfl, hy⟩ := h
  rcases y with (e | e | e) | d
  · cases hx
  · cases hx
  · cases hx
  · obtain ⟨-, c, rfl, hnil⟩ | ⟨-, k, ⟨b, c, -, rfl⟩, -⟩ := hy
    · exact ⟨(c, c), List.mem_singleton_self _, hnil htruthful⟩
    · refine ⟨_, List.mem_cons_of_mem _ (List.mem_singleton_self _), ?_⟩
      change (Function.update c name _ name).records = []
      rw [Function.update_self]
      rfl

/-- A release without a revision stays so, unless it is deployed. -/
theorem empty_of_acts (h : Acts t.Upgrades t.Deletes c c') (ht : ¬t.Upgrades name)
    (hempty : (c name).records = []) : (c' name).records = [] := by
  rcases h name with hsame | ⟨hupgrades, -⟩ | ⟨-, -, hkept⟩
  · rw [hsame, hempty]
  · exact absurd hupgrades ht
  · refine List.eq_nil_iff_forall_not_mem.mpr fun r hr => ?_
    have hnone := hkept r hr
    rw [hempty] at hnone
    cases hnone

/-- Only a deployment of the release changes the number of upgrades at work on it. -/
theorem upgrading_of_acts (h : Acts t.Upgrades t.Deletes c c') (ht : ¬t.Upgrades name) :
    (c' name).upgrading = (c name).upgrading := by
  rcases h name with hsame | ⟨hupgrades, -⟩ | ⟨-, hupgrading, -⟩
  · rw [hsame]
  · exact absurd hupgrades ht
  · exact hupgrading

omit [DecidableEq ι] in
/-- Of a release that has no revision, and that nobody deploys, no history shows one. -/
theorem HelmRelease.Shows.eq_nil {k : HelmRelease} {entries : List Entry} (h : k.Shows entries)
    (hempty : k.records = []) (hrest : k.upgrading = 0) : entries = [] := by
  obtain ⟨listed, hlists, hperm⟩ := h
  have hnil : listed = [] := by
    cases hlists with
    | kept => exact List.map_eq_nil_iff.mpr hempty
    | upgrading hupgrading => omega
  subst hnil
  rcases hperm with hperm | ⟨-, older, e, hlisted, -⟩
  · exact hperm.eq_nil
  · exact absurd hlisted (by simp)

/-- Where each deployment of the release has made all its moves or none, no upgrade of it is at
work. -/
theorem upgrading_along (hturns : Turns truthful threads stores P history)
    {before after : List (ι × Cluster × Cluster)} (hsplit : history = before ++ after)
    (halong : LeadsTo threads (atRest stores) before c)
    (hquiet : ∀ k intent, Submits (threads k) intent → releaseName intent = name →
      ((P.thread k).result.isSome = true ∧ ∀ e ∈ after, e.1 ≠ k) ∨ ∀ e ∈ before, e.1 ≠ k) :
    (c name).upgrading = 0 := by
  refine halong.eq_of_balanced (f := fun c => (c name).upgrading) (fun e a b h => h.1) fun k => ?_
  by_cases hk : (threads k).Upgrades name
  · obtain ⟨intent, hsubmits, rfl⟩ := hk
    rcases hquiet k intent hsubmits rfl with ⟨hended, hdone⟩ | hunbegun
    · obtain ⟨x, hx⟩ := Option.isSome_iff_exists.mp hended
      obtain ⟨y, hdeploys, -⟩ := deploys_of_does hsubmits (hturns.does k x hx)
      rw [hsplit, movesOf_append, movesOf_eq_nil hdone, List.append_nil] at hdeploys
      exact hdeploys.balanced
    · rw [movesOf_eq_nil hunbegun]
      rfl
  · refine List.sum_eq_zero fun n hn => ?_
    obtain ⟨m, hm, rfl⟩ := List.mem_map.mp hn
    obtain ⟨_, _, a, b, -, -, ⟨hab, hacts⟩, -⟩ := halong.turn (mem_movesOf.mp hm)
    obtain rfl : m = (a, b) := hab
    rw [upgrading_of_acts hacts hk, sub_self]

/-- A status read sent after a deletion was answered says that there is no release, if each
deployment of it was answered before the deletion was sent, or sent after the status read was
answered. -/
theorem status_reads_deletion (htruthful : truthful)
    (hr : Serves cfg out pages defaults truthful threads stores P)
    (hi : threads i = .request (.deleteDeployment name)) {result : TornDown}
    (hdeleted : Answered P i (.ok 200 (.tornDown result)))
    (hj : threads j = .request (.getDeployment name)) {report : Report}
    (hreport : Answered P j (.ok 200 (.report report))) (hij : Pool.Precedes P.trace i j)
    (hquiet : ∀ k intent, Submits (threads k) intent → releaseName intent = name →
      ((P.thread k).result.isSome = true ∧ Pool.Precedes P.trace k i) ∨
        Pool.Precedes P.trace j k) :
    report.state = .notInstantiated := by
  obtain ⟨history, hturns⟩ := exists_turns hr
  obtain ⟨x, hx, hdeleted⟩ := hdeleted
  obtain ⟨y, hy, hreport⟩ := hreport
  obtain ⟨m, hm, hempty⟩ := empty_of_deletes htruthful hi hdeleted (hturns.does i x hx)
  obtain ⟨c, hread, htrue⟩ := trueOf_of_does hj hreport (hturns.does j y hy)
  obtain ⟨before, between, after, hsplit, hupto, hbetween⟩ :=
    hturns.between hij hm (n := (c, c)) (by rw [hread]; exact List.mem_singleton_self _)
  have hdone : ∀ k, Pool.Precedes P.trace k i →
      (∀ e ∈ between, e.1 ≠ k) ∧ ∀ e ∈ (j, c, c) :: after, e.1 ≠ k := by
    intro k hki
    have hafter := hturns.done hki (show history = before ++ (i, m) ::
      (between ++ (j, c, c) :: after) by simp [hsplit])
    exact ⟨fun e he => hafter e (List.mem_append_left _ he),
      fun e he => hafter e (List.mem_append_right _ he)⟩
  have hunbegun : ∀ k, Pool.Precedes P.trace j k →
      ∀ e ∈ before ++ (i, m) :: between, e.1 ≠ k :=
    fun k hjk => hturns.unbegun hjk hsplit
  rcases htrue with ⟨rfl, -⟩ | ⟨entries, e, hdescribes⟩
  · rfl
  -- nobody deployed the release between the deletion and the status read
  have hnone : (c name).records = [] := by
    refine hbetween.invariant (I := fun c => (c name).records = []) ?_ hempty
    intro e he a b hmove
    refine empty_of_acts hmove.2 fun hupgrades => ?_
    obtain ⟨intent, hsubmits, hname⟩ := hupgrades
    rcases hquiet e.1 intent hsubmits hname with ⟨-, hki⟩ | hjk
    · exact (hdone e.1 hki).1 e he rfl
    · exact hunbegun e.1 hjk e (List.mem_append_right _ (List.mem_cons_of_mem _ he)) rfl
  have hrest : (c name).upgrading = 0 :=
    upgrading_along hturns hsplit hupto fun k intent hsubmits hname =>
      (hquiet k intent hsubmits hname).imp (And.imp_right fun hki => (hdone k hki).2)
        (hunbegun k)
  obtain rfl := hdescribes.shown.eq_nil hnone hrest
  cases hdescribes.newest

/-- A deployment, a deletion and a status read. -/
def threeRequests : Fin 3 → Thread
  | 0 => .request (.createDeployment threeReplicas)
  | 1 => .request (.deleteDeployment "amf")
  | 2 => .request (.getDeployment "amf")

/-- Each is answered before the next is sent. -/
def oneByOne : List (Fin 3) :=
  List.replicate 12 0 ++ List.replicate 8 1 ++ List.replicate 8 2

theorem status_reads_deletion_oneByOne :
    ∃ report, Answered (served threeRequests oneByOne) 2 (.ok 200 (.report report)) ∧
      report.state = .notInstantiated := by
  have hremoved : (((((served threeRequests oneByOne).thread 1).result.bind
      (threeRequests 1).response).bind Response.removed).isSome) = true := by decide +kernel
  have hreported : (((((served threeRequests oneByOne).thread 2).result.bind
      (threeRequests 2).response).bind Response.reported).isSome) = true := by decide +kernel
  obtain ⟨result, hresult⟩ := Option.isSome_iff_exists.mp hremoved
  obtain ⟨report, hreport⟩ := Option.isSome_iff_exists.mp hreported
  obtain ⟨r, hr, hresult⟩ := answered_of_result hresult
  obtain ⟨r', hr', hreport⟩ := answered_of_result hreport
  obtain rfl := eq_of_removed hresult
  obtain rfl := eq_of_reported hreport
  refine ⟨report, hr', status_reads_deletion trivial (served_serves threeRequests oneByOne) rfl hr
    rfl hr' (precedes_of_split 20 (by decide +kernel) (by decide +kernel)) ?_⟩
  intro k intent hsubmits _
  obtain ⟨counter, h⟩ := hsubmits
  match k with
  | 0 => exact .inl ⟨by decide +kernel,
      precedes_of_split 12 (by decide +kernel) (by decide +kernel)⟩
  | 1 | 2 => cases counter <;> cases h

/-! ### The last deployment -/

/-- What a deployment puts into effect. -/
theorem inEffect_of_installs {s s' : Store} (h : s.Installs (some a) (renderValues a) s') :
    InEffect s' a := by
  obtain ⟨description, rfl⟩ := h
  refine ⟨⟨_, List.mem_append_right _ (List.mem_singleton_self _), rfl⟩, fun r hr hstatus => ?_⟩
  rcases List.mem_append.mp hr with hr | hr
  · obtain ⟨r', -, rfl⟩ := List.mem_map.mp hr
    exact absurd hstatus r'.supersede_status
  · rw [List.mem_singleton.mp hr]

/-- An operation that did not succeed leaves in effect what was. -/
theorem inEffect_of_attempts {s s' : Store} (h : s.Attempts s') (ha : InEffect s a) :
    InEffect s' a := by
  obtain rfl | ⟨status, hstatus, description, values, rfl⟩ := h
  · exact ha
  · obtain ⟨⟨r, hr, hdeployed⟩, hvalues⟩ := ha
    refine ⟨⟨r, List.mem_append_left _ hr, hdeployed⟩, fun r hr hdeployed => ?_⟩
    rcases List.mem_append.mp hr with hr | hr
    · exact hvalues r hr hdeployed
    · obtain rfl := List.mem_singleton.mp hr
      obtain rfl : status = "deployed" := hdeployed
      simp [unfinishedStatuses] at hstatus

/-- Once every deployment of a release that nobody deletes was answered deployed or refused,
the intent in effect is that of the highest revision answered. -/
theorem last_deployment_wins (hr : Serves cfg out pages defaults truthful threads stores P)
    (hname : ¬Deleted threads name) (hconclusive : Conclusive P name)
    (hi : DeployedAs P name i a m) (hlast : ∀ j b n, DeployedAs P name j b n → n ≤ m) :
    InEffect (P.world name).toStore a := by
  obtain ⟨history, hturns⟩ := exists_turns hr
  obtain ⟨c, d, hmove, hinstalls, rfl⟩ := hi.installs hturns
  obtain ⟨before, after, rfl, -, -, hafter⟩ := hturns.move hmove
  have hsince : Keeps (Deleted threads) d P.world ∧ InEffect (P.world name).toStore a := by
    refine hafter.invariant
      (I := fun c => Keeps (Deleted threads) d c ∧ InEffect (c name).toStore a) ?_
      ⟨keeps_refl d, inEffect_of_installs hinstalls⟩
    rintro ⟨j, m⟩ hj w w' ⟨hm, hacts⟩ ⟨hkeeps, heffect⟩
    obtain rfl : m = (w, w') := hm
    refine ⟨hkeeps.trans (hacts.keeps fun _ hdeletes => ⟨j, hdeletes⟩), ?_⟩
    rcases hacts name with hsame | ⟨⟨b, hsubmits, hb⟩, -⟩ | ⟨hdeletes, -⟩
    · rwa [hsame]
    · -- a deployment of the release after this one: it was refused, or got a higher revision
      have hmem : (w, w') ∈ movesOf j (before ++ (i, c, d) :: after) :=
        mem_movesOf.mpr (List.mem_append_right _ (List.mem_cons_of_mem _ hj))
      obtain ⟨r, hanswered, hsays⟩ := hconclusive j b hsubmits hb
      obtain ⟨x, hx, hr'⟩ := hanswered
      obtain ⟨y, hdeploys, hdeployed, hturnedDown⟩ := deploys_of_does hsubmits (hturns.does j x hx)
      subst hb
      rcases hsays with ⟨n, hsays⟩ | hrefused
      · have hle := hlast j b n ⟨hsubmits, rfl, r, ⟨x, hx, hr'⟩, hsays⟩
        obtain ⟨result, rfl, hrevision⟩ := hdeployed r n hr' hsays
        obtain ⟨s, s', hupgrade, -, rfl⟩ := hdeploys
        obtain rfl := Json.int.inj hrevision
        rcases hupgrade.cases hmem with hsame | ⟨rfl, -⟩
        · rwa [hsame]
        · have hlt := nextRevision_lt hname hinstalls hkeeps
          omega
      · obtain ⟨e, rfl, hrefusal⟩ := hturnedDown r hr' hrefused
        rcases hdeploys with hnil | ⟨s, s', hupgrade, hattempts | ⟨hinconclusive, -⟩⟩
        · rw [hnil] at hmem
          cases hmem
        · rcases hupgrade.cases hmem with hsame | ⟨rfl, rfl⟩
          · rwa [hsame]
          · exact inEffect_of_attempts hattempts heffect
        · exact absurd hrefusal (hinconclusive e rfl)
    · exact absurd ⟨j, hdeletes⟩ hname
  exact hsince.2

theorem last_deployment_wins_between :
    InEffect ((served twoDeployments between).world "amf").toStore threeReplicas := by
  obtain ⟨hfirst, hsecond⟩ := deployedAs_between
  refine last_deployment_wins (served_serves twoDeployments between)
    (by rintro ⟨i, hi⟩; cases hi) ?_ hfirst ?_
  · rintro (_ | _) intent - -
    · obtain ⟨-, -, r, hr, hsays⟩ := hfirst
      exact ⟨r, hr, .inl ⟨2, hsays⟩⟩
    · obtain ⟨-, -, r, hr, hsays⟩ := hsecond
      exact ⟨r, hr, .inl ⟨1, hsays⟩⟩
  · rintro (_ | _) b n hn
    · exact (hn.unique hfirst).le
    · rw [hn.unique hsecond]
      decide

end pool

end NfOrchestrator.Api
