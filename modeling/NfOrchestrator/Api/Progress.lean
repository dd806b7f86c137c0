import NfOrchestrator.Api.Blocks
import NfOrchestrator.Api.Counters
import NfOrchestrator.Effects.Mutex

/-!
# NfOrchestrator.Api.Progress

**No deadlock on the probe's lock.** Every thread of the server takes the lock for one
look at the probe cache at a time and releases it whatever the measurement raises. So
whatever the interleaving, a server in which no thread can go on is one that has answered
every request, and its lock is free (`server_never_stuck`).
-/

namespace NfOrchestrator.Api

open Deploy Reconciler

/-- The two operations on the lock, as calls of the server's threads. -/
abbrev acquireLock : sig.Op := .inl (.inl .acquireProbeLock)
abbrev releaseLock : sig.Op := .inl (.inl .releaseProbeLock)

/-- The other operations of the engine. -/
def Unlocking (o : Op) : Prop := o ≠ .acquireProbeLock ∧ o ≠ .releaseProbeLock

variable {cfg : Settings} {out : Outside} {pages : ℕ} {α : Type}

theorem unlocking_serve {p : Eff α} (hp : p.Within Unlocking) :
    (serve p).Within fun o => o ≠ acquireLock ∧ o ≠ releaseLock := by
  refine Prog.Within.mono ?_ (hp.inl.inl : (serve p).Within
    (Sum.elim (Sum.elim Unlocking fun _ => True) fun _ => True))
  rintro ((o | o) | o) ho
  · exact ⟨fun h => ho.1 (Sum.inl.inj (Sum.inl.inj h)), fun h => ho.2 (Sum.inl.inj (Sum.inl.inj h))⟩
  · exact ⟨Sum.inr_ne_inl ∘ Sum.inl.inj, Sum.inr_ne_inl ∘ Sum.inl.inj⟩
  · exact ⟨Sum.inr_ne_inl, Sum.inr_ne_inl⟩

theorem disciplined_serve {p : Eff α} (hp : p.Within Unlocking) :
    Disciplined acquireLock releaseLock (serve p) := disciplined_of_within (unlocking_serve hp)

theorem unlocking_subprocessRun (command : List String) (timeout : ℚ) :
    (subprocessRun command timeout).Within Unlocking := by
  refine (Prog.within_op (by simp [Unlocking])).bind fun failure => ?_
  cases failure with
  | some exc => trivial
  | none => exact Prog.within_op (by simp [Unlocking])

/-- The probe is asked between taking the lock and releasing it. -/
theorem disciplined_probe (maxAge : ℚ) (timeout : Option ℚ) :
    Disciplined acquireLock releaseLock (serve (apiServerProbe cfg maxAge timeout)) := by
  have hserve : serve (apiServerProbe cfg maxAge timeout) =
      (Prog.op acquireLock >>= fun _ =>
        (tryCatch (serve (cachedProbe cfg maxAge (timeout.getD cfg.probeTimeout))) fun exc =>
          Prog.op releaseLock >>= fun _ => throw exc) >>= fun probe =>
            Prog.op releaseLock >>= fun _ => pure probe) := by
    simp only [serve, scrape, Metrics.engine, apiServerProbe, Prog.inl_bind, Prog.inl_tryCatch]
    rfl
  rw [hserve]
  exact disciplined_under (unlocking_serve ((probing_cachedProbe cfg maxAge _).mono fun _ ho => by
    cases ho <;> simp [Unlocking]))

theorem blocks_disciplined :
    Blocks cfg (fun _ => True) (Disciplined acquireLock releaseLock) where
  closed := closed_disciplined
  engine :=
    { toClosed := closed_disciplined.inl.inl
      single := fun ho => disciplined_serve (Prog.within_op (by cases ho <;> simp [Unlocking]))
      process := fun _ timeout => disciplined_serve (unlocking_subprocessRun _ timeout)
      probe := disciplined_probe
      versions := disciplined_serve ((versioning_versionProblems cfg).mono fun _ ho => by
        cases ho <;> simp [Unlocking]) }
  perform := fun _ => disciplined_of_within (Prog.within_op (by simp))
  increment := fun _ => disciplined_of_within (Prog.within_op (by simp))

/-- Every thread of the server is disciplined. -/
theorem disciplined_thread (t : Thread) :
    Disciplined acquireLock releaseLock (t.prog cfg out pages) :=
  blocks_disciplined.thread t (fun _ _ => trivial) (fun _ _ _ => trivial) fun _ _ => trivial

section pool

variable {ι W : Type} [DecidableEq ι] {threads : ι → Thread} {E : Env sig W} {locked : W → Prop}
  {w : W} {P : Pool sig Exc (fun i => (threads i).Answer) W}

/-- Wherever the lock works and every other call gets a reply, some thread of the server can
go on, or all have ended and the lock is free. -/
theorem server_never_stuck (hlock : Lock acquireLock releaseLock E locked) (hw : ¬locked w)
    (hr : Pool.Reachable E (Pool.start (fun i => (threads i).prog cfg out pages) w) P) :
    (∃ P', Pool.Step E P P') ∨ P.AllEnded ∧ ¬locked P.world :=
  Pool.moves_or_done hlock (fun i => disciplined_thread (threads i)) hw hr

/-- The lock, with any reply to anything else. -/
def mutexOnly : Env sig Bool := fun o locked _ locked' =>
  match o with
  | .inl (.inl .acquireProbeLock) => locked = false ∧ locked' = true
  | .inl (.inl .releaseProbeLock) => locked' = false
  | _ => locked' = locked

theorem lock_mutexOnly : Lock acquireLock releaseLock mutexOnly (· = true) where
  ne := by simp [acquireLock, releaseLock]
  free := fun w hw => ⟨(), true, Bool.eq_false_iff.mpr hw, rfl⟩
  taken := fun w r w' h => ⟨Bool.eq_false_iff.mp h.1, h.2⟩
  released := fun w r w' h => Bool.eq_false_iff.mp h
  kept := by
    intro o w r w' hacquire hrelease h
    have hsame : w' = w := by
      unfold mutexOnly at h
      split at h
      · exact absurd rfl hacquire
      · exact absurd rfl hrelease
      · exact h
    rw [hsame]
  answered := by
    intro o w hacquire
    by_cases hrelease : o = releaseLock
    · subst hrelease
      exact ⟨(), false, rfl⟩
    · refine ⟨anyReply o, w, ?_⟩
      unfold mutexOnly
      split
      · exact absurd rfl hacquire
      · exact absurd rfl hrelease
      · rfl

def mutexReply (o : sig.Op) (locked : Bool) : Option (sig.Resp o × Bool) :=
  match o with
  | .inl (.inl .acquireProbeLock) => if locked then none else some ((), true)
  | .inl (.inl .releaseProbeLock) => some ((), false)
  | o => some (anyReply o, locked)

theorem mutexOnly_mutexReply (o : sig.Op) (locked : Bool) (x : sig.Resp o × Bool)
    (h : mutexReply o locked = some x) : mutexOnly o locked x.1 x.2 := by
  unfold mutexReply at h
  split at h
  · split_ifs at h with hlocked
    obtain rfl := Option.some.inj h
    exact ⟨Bool.eq_false_iff.mpr hlocked, rfl⟩
  · obtain rfl := Option.some.inj h
    rfl
  · obtain rfl := Option.some.inj h
    unfold mutexOnly
    split
    · contradiction
    · contradiction
    · rfl

/-- Two readiness checks, of which one has the lock and the other waits for it. -/
def waiting : Pool sig Exc (fun _ : Bool => Response) Bool :=
  Pool.exec mutexReply (List.replicate 8 false ++ List.replicate 9 true)
    (Pool.start (fun _ => handle defaultSettings inert 1 .readyz) false)

theorem server_never_stuck_waiting :
    waiting.world = true ∧
      ((∃ P', Pool.Step mutexOnly waiting P') ∨ waiting.AllEnded ∧ ¬waiting.world = true) :=
  ⟨by decide +kernel, @server_never_stuck defaultSettings inert 1 Bool Bool _
    (fun _ => .request .readyz)
    mutexOnly (· = true) false waiting lock_mutexOnly Bool.false_ne_true
    (Pool.exec_reachable mutexOnly_mutexReply _ _)⟩

end pool

end NfOrchestrator.Api
