import NfOrchestrator.Api.Blocks
import NfOrchestrator.Api.Counters
import NfOrchestrator.Deploy.Evidence
import NfOrchestrator.Deploy.Versions

/-!
# NfOrchestrator.Api.Versions

**Upgrades and helm's version.** The threads of the server share one finding about helm's
version, which each of them may read and replace at any time. Still no upgrade starts unless
helm was asked its version, by some thread, after the clock showed a time less than a minute
before the upgrade's own request looked at it, and nothing was wrong (`upgrades_vouched`).
-/

namespace NfOrchestrator.Api

open Deploy Reconciler

variable {cfg : Settings} {out : Outside} {pages : ℕ} {α : Type}

/-! ### One thread -/

/-- What a thread of the server guarantees of its findings and of its upgrades. -/
abbrev servingVouched : Spec sig (List (Event sig)) :=
  recorded (fun _ _ => True) fun tr e => ∀ e', e = ofEngine e' → Vouches (calls tr) e'

theorem calls_snoc (tr : List (Event sig)) (e : Event Deploy.sig) :
    calls (tr ++ [ofEngine e]) = calls tr ++ [e] := by
  simp [calls]

/-- What the engine's programs guarantee, they guarantee when they serve a request. -/
theorem wp_serve_vouching {p : Eff α} {Q : Except Exc α → List (Event Deploy.sig) → Prop}
    {tr : List (Event sig)} (h : p.wp vouching Q (calls tr)) :
    (serve p).wp servingVouched (fun x tr' => Q x (calls tr')) tr := by
  induction p generalizing tr with
  | ret a => exact h
  | raise e => exact h
  | call o k ih =>
      intro r _
      obtain ⟨hok, hrest⟩ := h r trivial
      refine ⟨fun e' he => ?_, ih r ?_⟩
      · have heq : (⟨o, r⟩ : Event Deploy.sig) = e' := ofEngine_injective he
        obtain rfl := heq
        exact hok
      · rw [calls_snoc tr ⟨o, r⟩]
        exact hrest

/-- Not an upgrade. -/
def Downstream (command : List String) : Prop := ∀ args, command ≠ "helm" :: "upgrade" :: args

theorem blocks_serving : Blocks cfg Downstream fun _ p =>
    ∀ tr : List (Event sig), True → p.wp servingVouched (fun _ _ => True) tr := by
  have hserve : ∀ {α : Type} {p : Eff α},
      (∀ tr : List (Event Deploy.sig), True → p.wp vouching (fun _ _ => True) tr) →
        ∀ tr : List (Event sig), True → (serve p).wp servingVouched (fun _ _ => True) tr :=
    fun hp tr _ => wp_serve_vouching (hp (calls tr) trivial)
  have hengine : Deploy.Blocks cfg Downstream fun _ p =>
      ∀ tr : List (Event Deploy.sig), True → p.wp vouching (fun _ _ => True) tr :=
    blocks_vouching (fun _ _ _ => trivial) fun command h args heq => absurd heq (h args)
  have hclosed : Closed fun _ (p : Serving _) =>
      ∀ tr : List (Event sig), True → p.wp servingVouched (fun _ _ => True) tr :=
    closed_wp (recorded_mono _ _) fun _ => True
  exact
    { closed := hclosed
      engine :=
        { toClosed := hclosed.inl.inl
          single := fun ho => hserve (hengine.single ho)
          process := fun h timeout => hserve (hengine.process h timeout)
          probe := fun maxAge timeout => hserve (hengine.probe maxAge timeout)
          versions := hserve hengine.versions }
      perform := fun _ _ _ _ _ =>
        ⟨fun _ he => absurd (Sum.inl.inj (congrArg Event.op he)) Sum.inr_ne_inl, trivial⟩
      increment := fun _ _ _ _ _ =>
        ⟨fun _ he => absurd (congrArg Event.op he) Sum.inr_ne_inl, trivial⟩ }

theorem wp_thread_vouching (t : Thread) (tr : List (Event sig)) :
    (t.prog cfg out pages).wp servingVouched (fun _ _ => True) tr := by
  by_cases ht : ∃ counter intent, t = .request (submission counter intent)
  · obtain ⟨counter, intent, rfl⟩ := ht
    obtain ⟨body, hhandle⟩ := handle_submission cfg out pages counter intent
    rw [Thread.prog, hhandle]
    have hblocks : Blocks cfg Downstream _ := blocks_serving
    exact hblocks.submitted
      (fun tr _ => wp_serve_vouching (wp_deploy_vouching intent _ (calls tr))) tr trivial
  · refine blocks_serving.thread t ?_ ?_ ?_ tr trivial
    · exact fun command h args => h "upgrade" (by decide) args
    · exact fun counter intent h => absurd ⟨counter, intent, h⟩ ht
    · simp [Downstream, uninstallArgs]

/-! ### All threads -/

section pool

variable {ι : Type} [DecidableEq ι]

/-- The engine's operations on what the threads of the server share. -/
def hosting : Env sig Shared := fun o w r w' =>
  match o, r with
  | .inl (.inl o), r => shared o w r w'
  | .inl (.inr _), _ | .inr _, _ => w' = w

/-- The clock showed this thread `t`, and then it asked helm its version, which came to these
problems. -/
def FoundBy (tr : List (ι × Event sig)) (j : ι) (t : ℚ) (problems : List String) : Prop :=
  ∃ e, [(j, ofEngine ⟨.monotonic, t⟩), (j, ofEngine e)].Sublist tr ∧ Says e problems

variable {threads : ι → Thread} {w : Shared}
  {P : Pool sig Exc (fun i => (threads i).Answer) Shared} {tr : List (ι × Event sig)}

omit [DecidableEq ι] in
theorem FoundBy.snoc {j : ι} {t : ℚ} {problems : List String} (h : FoundBy tr j t problems)
    (x : ι × Event sig) : FoundBy (tr ++ [x]) j t problems := by
  obtain ⟨e, hsub, hsays⟩ := h
  exact ⟨e, hsub.trans (List.sublist_append_left tr _), hsays⟩

/-- The calls of the engine by one thread, in the trace. -/
theorem calls_sublist (P : Pool sig Exc (fun i => (threads i).Answer) Shared) (j : ι) :
    ((calls (P.localTrace j)).map fun e => (j, ofEngine e)).Sublist P.trace := by
  have hcalls : ((calls (P.localTrace j)).map ofEngine).Sublist (P.localTrace j) := by
    refine Pool.map_filterMap_sublist ?_ _
    rintro ⟨(o | o) | o, r⟩ e' he
    · exact (Option.some.inj he) ▸ rfl
    · cases he
    · cases he
  have hlocal : ((P.localTrace j).map fun e => (j, e)).Sublist P.trace := by
    refine Pool.map_filterMap_sublist ?_ _
    rintro ⟨i, e⟩ e' he
    dsimp only at he
    split_ifs at he with hi
    subst hi
    exact (Option.some.inj he) ▸ rfl
  have hboth := (hcalls.map fun e => (j, e)).trans hlocal
  rwa [List.map_map] at hboth

/-- What a thread found is found. -/
theorem foundBy_of_local {j : ι} {t : ℚ} {problems : List String}
    (h : FoundAt (calls (P.localTrace j)) t problems) : FoundBy P.trace j t problems := by
  obtain ⟨e, hsub, hsays⟩ := h
  exact ⟨e, (hsub.map _).trans (calls_sublist P j), hsays⟩

/-- The finding that the threads share, and every one that a thread read, was found. -/
structure Findings (w : Shared) (tr : List (ι × Event sig)) : Prop where
  kept : ∀ t problems, w.versions = some (t, problems) → ∃ j, FoundBy tr j t problems
  read : ∀ i t problems, (i, ofEngine ⟨.getVersions, some (t, problems)⟩) ∈ tr →
    ∃ j, FoundBy tr j t problems

omit [DecidableEq ι] in
/-- A step that keeps the finding and does not read it. -/
theorem Findings.keep {w' : Shared} (h : Findings w tr) (hw : w'.versions = w.versions)
    {x : ι × Event sig} (hx : x.2.op ≠ .inl (.inl .getVersions)) :
    Findings w' (tr ++ [x]) where
  kept := by
    intro t problems ht
    obtain ⟨j, hj⟩ := h.kept t problems (hw ▸ ht)
    exact ⟨j, hj.snoc x⟩
  read := by
    intro i t problems hi
    rcases List.mem_append.mp hi with hi | hi
    · obtain ⟨j, hj⟩ := h.read i t problems hi
      exact ⟨j, hj.snoc x⟩
    · rw [← List.mem_singleton.mp hi] at hx
      exact absurd rfl hx

omit [DecidableEq ι] in
theorem Findings.step {w' : Shared} {i : ι} {o : sig.Op} {r : sig.Resp o} (h : Findings w tr)
    (hE : hosting o w r w')
    (hstored : ∀ t problems, (⟨o, r⟩ : Event sig) = ofEngine ⟨.setVersions t problems, ()⟩ →
      ∃ j, FoundBy tr j t problems) : Findings w' (tr ++ [(i, ⟨o, r⟩)]) := by
  rcases o with (o | o) | o
  · cases o with
    | setVersions t problems =>
        obtain rfl : w' = { w with versions := some (t, problems) } := hE
        refine ⟨fun t' problems' ht => ?_, fun k t' problems' hk => ?_⟩
        · cases ht
          obtain ⟨j, hj⟩ := hstored t problems rfl
          exact ⟨j, hj.snoc _⟩
        · rcases List.mem_append.mp hk with hk | hk
          · obtain ⟨j, hj⟩ := h.read k t' problems' hk
            exact ⟨j, hj.snoc _⟩
          · cases List.mem_singleton.mp hk
    | getVersions =>
        obtain ⟨hread, rfl⟩ := hE
        refine ⟨fun t problems ht => ?_, fun k t problems hk => ?_⟩
        · obtain ⟨j, hj⟩ := h.kept t problems ht
          exact ⟨j, hj.snoc _⟩
        · have hfound : ∃ j, FoundBy tr j t problems := by
            rcases List.mem_append.mp hk with hk | hk
            · exact h.read k t problems hk
            · obtain rfl : r = some (t, problems) := by
                cases List.mem_singleton.mp hk
                rfl
              exact h.kept t problems hread.symm
          obtain ⟨j, hj⟩ := hfound
          exact ⟨j, hj.snoc _⟩
    | monotonic | acquireProbeLock | getProbe | getLastSuccess =>
        obtain ⟨-, rfl⟩ := hE
        refine h.keep ?_ ?_
        · rfl
        · exact fun ho => by cases ho
    | _ =>
        obtain rfl : w' = _ := hE
        refine h.keep ?_ ?_
        · rfl
        · exact fun ho => by cases ho
  · obtain rfl : w' = w := hE
    exact h.keep rfl fun ho => by cases ho
  · obtain rfl : w' = w := hE
    exact h.keep rfl fun ho => by cases ho

/-- What each thread guarantees in a run. -/
theorem vouches_of_reachable
    (hr : Pool.Reachable hosting (Pool.start (fun i => (threads i).prog cfg out pages) w) P)
    (i : ι) : Along (fun tr e => ∀ e', e = ofEngine e' → Vouches (calls tr) e') (P.localTrace i) :=
  (Pool.recorded_sound (fun i => wp_thread_vouching (threads i) []) hr
    (fun _ _ _ _ _ => trivial) i).1

theorem findings_of_reachable (hw : w.versions = none)
    (hr : Pool.Reachable hosting (Pool.start (fun i => (threads i).prog cfg out pages) w) P) :
    Findings P.world P.trace := by
  induction hr with
  | refl =>
      refine ⟨fun t problems ht => ?_, fun i t problems hi => by cases hi⟩
      rw [show (Pool.start _ w).world = w from rfl, hw] at ht
      cases ht
  | @tail P P' hr hs ih =>
      obtain @⟨i, o, k, r, w', hi, hE⟩ := hs
      refine ih.step hE fun t problems he => ?_
      have halong := vouches_of_reachable (hr.tail (.call hi hE)) i
      rw [Pool.localTrace_snoc_self, along_snoc] at halong
      exact ⟨i, foundBy_of_local ((halong.2 _ he).1 t problems rfl)⟩

/-- An upgrade starts only after helm's version was asked and nothing was wrong with it, where
the clock had shown a time less than a minute before one that the upgrade's request read. -/
theorem upgrades_vouched (hw : w.versions = none)
    (hr : Pool.Reachable hosting (Pool.start (fun i => (threads i).prog cfg out pages) w) P)
    {i : ι} {pre post : List (ι × Event sig)} {args : List String} {r : Option OSError}
    (hsplit : P.trace = pre ++ (i, ofEngine ⟨.spawn ("helm" :: "upgrade" :: args), r⟩) :: post) :
    ∃ m t : ℚ, (i, ofEngine ⟨.monotonic, m⟩) ∈ pre ∧ m - t < versionTtl ∧
      ∃ j, FoundBy pre j t [] := by
  have hpre : pre <+: P.trace := ⟨_, hsplit.symm⟩
  obtain ⟨P₀, hr₀, htrace₀⟩ := hr.before rfl hpre
  have hlocal : P.localTrace i = P₀.localTrace i ++
      ofEngine ⟨.spawn ("helm" :: "upgrade" :: args), r⟩ ::
        (Pool.mk (S := sig) P.thread P.world post).localTrace i := by
    simp [Pool.localTrace, hsplit, htrace₀]
  obtain ⟨m, t, hm, hfresh, hvouched⟩ :=
    ((vouches_of_reachable hr i) _ _ _ hlocal _ rfl).2 ⟨args, r, rfl⟩
  have hmem : ∀ e ∈ calls (P₀.localTrace i), (i, ofEngine e) ∈ pre := fun e he =>
    htrace₀ ▸ (calls_sublist P₀ i).subset (List.mem_map_of_mem he)
  refine ⟨m, t, hmem _ hm, hfresh, ?_⟩
  rcases hvouched with hread | hfound
  · exact (htrace₀ ▸ findings_of_reachable hw hr₀).read i t [] (hmem _ hread)
  · exact ⟨i, htrace₀ ▸ foundBy_of_local hfound⟩

end pool

/-! ### Two upgrades on one finding -/

/-- The reply to each call, from what the threads share. -/
def hostReply (o : sig.Op) (w : Shared) : Option (sig.Resp o × Shared) :=
  match o with
  | .inl (.inl .monotonic) => some (w.clock, w)
  | .inl (.inl .acquireProbeLock) => if w.locked then none else some ((), { w with locked := true })
  | .inl (.inl .releaseProbeLock) => some ((), { w with locked := false })
  | .inl (.inl .getProbe) => some (w.probe, w)
  | .inl (.inl (.setProbe t p)) => some ((), { w with probe := some (t, p) })
  | .inl (.inl .getLastSuccess) => some (w.lastSuccess, w)
  | .inl (.inl (.setLastSuccess t)) => some ((), { w with lastSuccess := some t })
  | .inl (.inl .getVersions) => some (w.versions, w)
  | .inl (.inl (.setVersions t problems)) => some ((), { w with versions := some (t, problems) })
  | .inl (.inl .time) | .inl (.inl (.localtime _)) | .inl (.inl (.which _))
  | .inl (.inl (.spawn _)) | .inl (.inl (.finish _ _)) | .inl (.inr _) | .inr _ =>
      some (anyReply _, w)

theorem hosting_hostReply (o : sig.Op) (w : Shared) (x : sig.Resp o × Shared)
    (h : hostReply o w = some x) : hosting o w x.1 x.2 := by
  rcases o with (o | o) | o
  · cases o with
    | acquireProbeLock =>
        dsimp only [hostReply] at h
        split_ifs at h with hlocked
        obtain rfl := Option.some.inj h
        exact ⟨Bool.eq_false_iff.mpr hlocked, rfl⟩
    | monotonic | getProbe | getLastSuccess | getVersions =>
        obtain rfl := Option.some.inj h
        exact ⟨by rfl, rfl⟩
    | _ =>
        obtain rfl := Option.some.inj h
        rfl
  · obtain rfl := Option.some.inj h
    rfl
  · obtain rfl := Option.some.inj h
    rfl

/-- The second of two deployments finds what the first one found. -/
def vouchedTwice : Pool sig Exc (fun _ : Bool => Response) Shared :=
  Pool.exec hostReply (List.replicate 7 false ++ List.replicate 5 true)
    (Pool.start (fun _ => handle defaultSettings inert 1 (.createDeployment threeReplicas))
      { clock := 0 })

def isUpgrade (e : Event sig) : Bool :=
  match e.op with
  | .inl (.inl (.spawn ("helm" :: "upgrade" :: _))) => true
  | _ => false

theorem upgrade_of_isUpgrade {e : Event sig} (h : isUpgrade e = true) :
    ∃ args r, e = ofEngine ⟨.spawn ("helm" :: "upgrade" :: args), r⟩ := by
  obtain ⟨o, r⟩ := e
  unfold isUpgrade at h
  split at h
  · rename_i args ho
    dsimp only at ho
    subst ho
    exact ⟨args, r, rfl⟩
  · cases h

theorem upgrades_vouched_twice :
    ∃ m t : ℚ, (true, ofEngine ⟨.monotonic, m⟩) ∈ vouchedTwice.trace.take 11 ∧
      m - t < versionTtl ∧ ∃ j, FoundBy (vouchedTwice.trace.take 11) j t [] := by
  have hupgrade : ((vouchedTwice.trace.drop 11).head?.any fun x => x.1 && isUpgrade x.2) =
      true := by decide +kernel
  obtain ⟨⟨i, e⟩, hhead, hx⟩ := (Option.any_eq_true _ _).mp hupgrade
  obtain ⟨rfl, he⟩ := Bool.and_eq_true_iff.mp hx
  obtain ⟨args, r, rfl⟩ := upgrade_of_isUpgrade he
  obtain ⟨post, hpost⟩ := List.head?_eq_some_iff.mp hhead
  have hsplit := (List.take_append_drop 11 vouchedTwice.trace).symm
  rw [hpost] at hsplit
  exact upgrades_vouched rfl (@Pool.exec_reachable _ _ _ _ _ _ hosting hostReply hosting_hostReply _
    (Pool.start (fun i => ((fun _ => .request (.createDeployment threeReplicas)) i : Thread).prog
      defaultSettings inert 1) { clock := 0 })) hsplit

end NfOrchestrator.Api
