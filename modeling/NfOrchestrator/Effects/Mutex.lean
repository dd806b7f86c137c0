import NfOrchestrator.Effects.Closed
import NfOrchestrator.Effects.Protocol

/-!
# NfOrchestrator.Effects.Mutex

**A lock that threads take and release.** A thread is disciplined when it takes the lock only
without it, releases it only with it, and ends without it, however it ends (`Locks`). Then at
most one thread has the lock, whatever the interleaving, and a pool in which no thread can make
a call is one in which all have ended, with the lock free (`Pool.moves_or_done`).
-/

namespace NfOrchestrator

variable {S : Signature} {ε ι W : Type} {α : ι → Type}

/-- The state is whether the thread has the lock. -/
inductive Locks (acquire release : S.Op) : Protocol S Bool
  | acquire {r : S.Resp acquire} : Locks acquire release false ⟨acquire, r⟩ true
  | release {r : S.Resp release} : Locks acquire release true ⟨release, r⟩ false
  | other {b : Bool} {e : Event S} (hacquire : e.op ≠ acquire) (hrelease : e.op ≠ release) :
      Locks acquire release b e b

/-- The calls that the discipline allows. -/
abbrev locking (acquire release : S.Op) : Spec S Bool :=
  (Locks acquire release).spec fun _ _ => True

/-- The lock can be taken whenever it is free, and any other call can be made at any time. -/
structure Lock (acquire release : S.Op) (E : Env S W) (locked : W → Prop) : Prop where
  ne : acquire ≠ release
  free : ∀ w, ¬locked w → ∃ r w', E acquire w r w'
  taken : ∀ w r w', E acquire w r w' → ¬locked w ∧ locked w'
  released : ∀ w r w', E release w r w' → ¬locked w'
  kept : ∀ o w r w', o ≠ acquire → o ≠ release → E o w r w' → (locked w' ↔ locked w)
  answered : ∀ o w, o ≠ acquire → ∃ r w', E o w r w'

variable {acquire release : S.Op} {E : Env S W} {locked : W → Prop}

theorem locking_mono : (locking acquire release).Mono := Protocol.spec_mono

/-- A program that has nothing to do with the lock. -/
theorem wp_unlocking {β : Type} {p : Prog S ε β}
    (hp : p.Within fun o => o ≠ acquire ∧ o ≠ release) (b : Bool) :
    p.wp (locking acquire release) (fun _ b' => b' = b) b :=
  Protocol.wp_within (fun _ _ ho => .other ho.1 ho.2) hp

/-- Programs that start and end without the lock. -/
abbrev Disciplined (acquire release : S.Op) ⦃β : Type⦄ (p : Prog S ε β) : Prop :=
  ∀ b, b = false → p.wp (locking acquire release) (fun _ b => b = false) b

theorem closed_disciplined :
    Closed (Disciplined acquire release : ∀ ⦃β : Type⦄, Prog S ε β → Prop) :=
  closed_wp locking_mono _

theorem disciplined_of_within {β : Type} {p : Prog S ε β}
    (hp : p.Within fun o => o ≠ acquire ∧ o ≠ release) : Disciplined acquire release p := by
  rintro b rfl
  exact wp_unlocking hp false

/-- Between taking the lock and releasing it, which it does in any case, a program has nothing
to do with it. -/
theorem disciplined_under {β : Type} {p : Prog S ε β}
    (hp : p.Within fun o => o ≠ acquire ∧ o ≠ release) :
    Disciplined acquire release (Prog.op acquire >>= fun _ =>
      (tryCatch p fun e => Prog.op release >>= fun _ => throw e) >>= fun a =>
        Prog.op release >>= fun _ => pure a) := by
  rintro b rfl
  rw [Prog.wp_bind]
  refine fun r _ => ⟨true, .acquire, ?_⟩
  simp only [Prog.wp_ret, Prog.bindPost_ok, Prog.wp_bind, Prog.wp_tryCatch]
  refine Prog.wp_mono locking_mono ?_ (wp_unlocking hp true)
  rintro (e | a) b rfl
  · exact fun r _ => ⟨false, .release, rfl⟩
  · exact fun r _ => ⟨false, .release, rfl⟩

namespace Pool

variable [DecidableEq ι]

/-- The lock is taken while some thread has it, and no two threads have it. -/
structure Holding (locked : W → Prop) (w : W) (g : ι → Bool) : Prop where
  locked_iff : locked w ↔ ∃ i, g i = true
  unique : ∀ i j, g i = true → g j = true → i = j

theorem Holding.step (hlock : Lock acquire release E locked) {g : ι → Bool} {i : ι} {o : S.Op}
    {w w' : W} {r : S.Resp o} {b : Bool} (hE : E o w r w')
    (hmove : Locks acquire release (g i) ⟨o, r⟩ b) (h : Holding locked w g) :
    Holding locked w' (Function.update g i b) := by
  generalize hg : g i = a at hmove
  cases hmove with
  | acquire =>
      obtain ⟨hfree, htaken⟩ := hlock.taken w _ w' hE
      have hnone : ∀ j, g j = false := fun j =>
        Bool.eq_false_iff.mpr fun hj => hfree (h.locked_iff.mpr ⟨j, hj⟩)
      have honly : ∀ j, Function.update g i true j = true → j = i := by
        intro j hj
        by_contra hji
        rw [Function.update_of_ne hji, hnone j] at hj
        cases hj
      exact ⟨iff_of_true htaken ⟨i, Function.update_self ..⟩, fun j k hj hk =>
        (honly j hj).trans (honly k hk).symm⟩
  | release =>
      have hnone : ∀ j, Function.update g i false j = false := by
        intro j
        by_cases hji : j = i
        · rw [hji, Function.update_self]
        · rw [Function.update_of_ne hji, Bool.eq_false_iff]
          exact fun hj => hji (h.unique j i hj hg)
      exact ⟨iff_of_false (hlock.released w _ w' hE) (by simp [hnone]), by simp [hnone]⟩
  | other hacquire hrelease =>
      rw [← hg, Function.update_eq_self]
      exact ⟨(hlock.kept o w r w' hacquire hrelease hE).trans h.locked_iff, h.unique⟩

/-- Disciplined threads do not block each other for good. -/
theorem moves_or_done (hlock : Lock acquire release E locked) {progs : (i : ι) → Prog S ε (α i)}
    {w : W} (hprogs : ∀ i, Disciplined acquire release (progs i)) (hw : ¬locked w)
    {P : Pool S ε α W} (hr : Reachable E (start progs w) P) :
    (∃ P', Step E P P') ∨ P.AllEnded ∧ ¬locked P.world := by
  obtain ⟨g, -, hwp, hholding⟩ := follows (δ := fun _ => Locks acquire release)
    (A := fun _ _ => True) (I := fun w _ g => Holding locked w g) (fun i => hprogs i false rfl)
    ⟨iff_of_false hw (by simp), by simp⟩ (fun i o w r w' tr g b hE hmove h => h.step hlock hE hmove)
    hr (fun _ _ _ _ _ _ _ => trivial)
  -- a thread that has the lock has not ended, and does not wait for it
  have hmoves : ∀ i, (P.thread i).result = none → (g i = true ∨ ∀ j, g j = false) →
      ∃ P', Step E P P' := by
    intro i hi hfree
    cases hthread : P.thread i with
    | ret a => rw [hthread] at hi; cases hi
    | raise e => rw [hthread] at hi; cases hi
    | call o k =>
        have hanswered : ∃ r w', E o P.world r w' := by
          by_cases hacquire : o = acquire
          · subst hacquire
            refine hlock.free _ fun htaken => ?_
            rcases hfree with hi | hnone
            · obtain ⟨r, -, -⟩ := hlock.free w hw
              have hcall := hwp i
              rw [hthread, hi] at hcall
              obtain ⟨b, hmove, -⟩ := hcall r trivial
              cases hmove with
              | release => exact hlock.ne rfl
              | other hacquire => exact hacquire rfl
            · obtain ⟨j, hj⟩ := hholding.locked_iff.mp htaken
              rw [hnone j] at hj
              cases hj
          · exact hlock.answered o _ hacquire
        obtain ⟨r, w', hE⟩ := hanswered
        exact ⟨_, .call hthread hE⟩
  have hheld : ∀ i, g i = true → (P.thread i).result = none := by
    intro i hi
    cases hresult : (P.thread i).result with
    | none => rfl
    | some x =>
        have hfalse := (Prog.wp_of_result hresult).mp (hwp i)
        rw [hi] at hfalse
        cases hfalse
  by_cases hsome : ∃ i, g i = true
  · obtain ⟨i, hi⟩ := hsome
    exact .inl (hmoves i (hheld i hi) (.inl hi))
  · have hnone : ∀ j, g j = false := fun j => Bool.eq_false_iff.mpr fun hj => hsome ⟨j, hj⟩
    by_cases hended : P.AllEnded
    · exact .inr ⟨hended, fun hlocked => hsome (hholding.locked_iff.mp hlocked)⟩
    · obtain ⟨i, hi⟩ := not_forall.mp hended
      exact .inl (hmoves i (Option.not_isSome_iff_eq_none.mp hi) (.inr hnone))

end Pool

end NfOrchestrator
