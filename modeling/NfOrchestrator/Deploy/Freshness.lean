import NfOrchestrator.Deploy.Sharing
import NfOrchestrator.Effects.Trace

/-!
# NfOrchestrator.Deploy.Freshness

**How old an answer of the probe cache may be.** Any number of callers of
`api_server_probe`, each with a `max_age` of its own, run interleaved on the shared world.
A caller is given an answer it measured itself, or the last one stored if that is young
enough, and it measures only if there is none.

**Key idea.** The lock is held from the look at the cache to the answer, so what a caller
saw there is still the last answer stored when it reads the clock, and when it begins to
measure. `Turns` are the turns of one caller, and `Keeping` is what the turns of all of them
keep.
-/

namespace NfOrchestrator.Deploy

variable (cfg : Settings)

/-! ### A caller -/

/-- What a caller asks for. -/
structure Ask where
  maxAge : ℚ
  timeout : Option ℚ

namespace Ask

abbrev prog (a : Ask) : Eff Probe := apiServerProbe cfg a.maxAge a.timeout

/-- The bound of its measurement. -/
def bound (a : Ask) : ℚ := a.timeout.getD cfg.probeTimeout

end Ask

/-- How a caller came to its answer. -/
inductive Got where
  | reused (p : Probe)
  /-- It made these calls to measure one, and the measurement ended so. -/
  | own (m : List (Event sig)) (x : Except Exc Probe)

def Got.result : Got → Except Exc Probe
  | .reused p => .ok p
  | .own _ x => x

/-- A caller's place in `api_server_probe`. -/
inductive Place where
  | outside
  | locked
  /-- It found an answer it may reuse, and has yet to see how old it is. -/
  | found (t : ℚ) (p : Probe)
  /-- It is about to measure. -/
  | due
  /-- It measures, and has made these calls so far. -/
  | measuring (m : List (Event sig))
  /-- It has yet to store what it measured. -/
  | stamped (m : List (Event sig)) (t : ℚ) (p : Probe)
  | got (how : Got)
  | left (how : Got)

/-- The caller holds the lock. -/
def Place.Inside : Place → Prop
  | .outside | .left _ => False
  | _ => True

/-- The operations of a measurement after its first one, which reads the wall clock. -/
def Inner (o : Op) : Prop :=
  match o with
  | .monotonic | .localtime _ | .spawn _ | .finish _ _ | .setLastSuccess _ => True
  | _ => False

inductive Turns (a : Ask) : Protocol sig Place
  | enter : Turns a .outside ⟨.acquireProbeLock, ()⟩ .locked
  | pass {r : Option (ℚ × Probe)} (h : r = none ∨ ¬0 < a.maxAge) :
      Turns a .locked ⟨.getProbe, r⟩ .due
  | find {t : ℚ} {p : Probe} (h : 0 < a.maxAge) :
      Turns a .locked ⟨.getProbe, some (t, p)⟩ (.found t p)
  | reuse {t now : ℚ} {p : Probe} (h : now - t ≤ a.maxAge) :
      Turns a (.found t p) ⟨.monotonic, now⟩ (.got (.reused p))
  | stale {t now : ℚ} {p : Probe} (h : ¬now - t ≤ a.maxAge) :
      Turns a (.found t p) ⟨.monotonic, now⟩ .due
  | begin {s : ℚ} : Turns a .due ⟨.time, s⟩ (.measuring [⟨.time, s⟩])
  | go {m : List (Event sig)} {e : Event sig} (h : Inner e.op) :
      Turns a (.measuring m) e (.measuring (m ++ [e]))
  | stamp {m : List (Event sig)} {t : ℚ} {p : Probe}
      (h : (measureProbe cfg (a.bound cfg)).Traces m (.ok p)) :
      Turns a (.measuring m) ⟨.monotonic, t⟩ (.stamped m t p)
  | store {m : List (Event sig)} {t : ℚ} {p : Probe} :
      Turns a (.stamped m t p) ⟨.setProbe t p, ()⟩ (.got (.own m (.ok p)))
  /-- The measurement raised. -/
  | giveUp {m : List (Event sig)} {exc : Exc}
      (h : (measureProbe cfg (a.bound cfg)).Traces m (.error exc)) :
      Turns a (.measuring m) ⟨.releaseProbeLock, ()⟩ (.left (.own m (.error exc)))
  | leave {how : Got} : Turns a (.got how) ⟨.releaseProbeLock, ()⟩ (.left how)

/-! ### A call keeps to its turns -/

abbrev asking (a : Ask) : Spec sig Place := (Turns cfg a).spec fun _ _ => True

/-- A call has ended when it has left the lock, with what it got. -/
def Leaves (x : Except Exc Probe) (c : Place) : Prop := ∃ how, c = .left how ∧ how.result = x

variable {cfg} {a : Ask} {α β : Type}

theorem asking_mono : (asking cfg a).Mono := Protocol.spec_mono

theorem wp_turn {c : Place} {o : Op} {f : Resp o → Eff β} {Q : Except Exc β → Place → Prop}
    (h : ∀ r, ∃ c', Turns cfg a c ⟨o, r⟩ c' ∧ (f r).wp (asking cfg a) Q c') :
    (perform o >>= f).wp (asking cfg a) Q c := fun r _ => h r

theorem wp_inner {p : Eff α} (hp : p.Within Inner) (m : List (Event sig)) :
    p.wp (asking cfg a) (fun x c => ∃ tr, c = .measuring (m ++ tr) ∧ p.Traces tr x)
      (.measuring m) := by
  induction p generalizing m with
  | ret b => exact ⟨[], by simp, rfl, rfl⟩
  | raise exc => exact ⟨[], by simp, rfl, rfl⟩
  | call o k ih =>
      intro r _
      refine ⟨_, .go hp.1, Prog.wp_mono asking_mono ?_ (ih r (hp.2 r) (m ++ [⟨o, r⟩]))⟩
      intro x _ h
      obtain ⟨tr, rfl, hk⟩ := h
      exact ⟨⟨o, r⟩ :: tr, by simp, r, tr, rfl, hk⟩

theorem inner_startupDelay (log : String) (spawned : ℚ) :
    (startupDelay log spawned).Within Inner := by
  unfold startupDelay
  cases firstStamp log with
  | none => trivial
  | some first => exact (Prog.within_op trivial).bind fun _ => trivial

theorem inner_noteSuccess : noteSuccess.Within Inner :=
  (Prog.within_op trivial).bind fun _ => Prog.within_op trivial

theorem inner_exitedProbe (answered : Bool) (log : String) (spawned started : ℚ) :
    (exitedProbe answered log spawned started).Within Inner :=
  (Prog.within_op trivial).bind fun _ => (Prog.within_ofExcept _).bind fun _ =>
    (inner_startupDelay log spawned).bind fun _ => trivial

/-- A measurement reads the wall clock, and then does nothing but measure. -/
theorem measureProbe_eq_call (timeout : ℚ) :
    ∃ k, measureProbe cfg timeout = .call Op.time k ∧ ∀ s, (k s).Within Inner := by
  refine ⟨_, rfl, fun spawned => (Prog.within_op trivial).bind fun started =>
    Prog.Within.bind ?_ fun outcome => ?_⟩
  · refine (Prog.within_op trivial).bind fun failure => ?_
    cases failure with
    | some exc => trivial
    | none => exact Prog.within_op trivial
  · cases outcome with
    | timedOut stderr =>
        exact (Prog.within_op trivial).bind fun _ => (Prog.within_ofExcept _).bind fun _ =>
          (inner_startupDelay _ spawned).bind fun _ => trivial
    | osError exc => exact (Prog.within_op trivial).bind fun _ => trivial
    | completed returncode stdout stderr =>
        dsimp only
        split_ifs
        · exact inner_noteSuccess.bind fun _ => inner_exitedProbe _ stderr spawned started
        · exact inner_exitedProbe _ stderr spawned started

theorem wp_measureProbe_asking (timeout : ℚ) :
    (measureProbe cfg timeout).wp (asking cfg a)
      (fun x c => ∃ m, c = .measuring m ∧ (measureProbe cfg timeout).Traces m x) .due := by
  obtain ⟨k, hk, hinner⟩ := @measureProbe_eq_call cfg timeout
  rw [hk]
  refine fun s _ => ⟨_, .begin, Prog.wp_mono asking_mono ?_ (wp_inner (hinner s) _)⟩
  intro x _ h
  obtain ⟨tr, rfl, htr⟩ := h
  exact ⟨⟨.time, s⟩ :: tr, rfl, s, tr, rfl, htr⟩

/-- What holds where the lock is about to be released. -/
def Answering (cfg : Settings) (a : Ask) : Except Exc Probe → Place → Prop
  | .ok p, c => ∃ how, c = .got how ∧ how.result = .ok p
  | .error exc, c => ∃ m, c = .measuring m ∧
      (measureProbe cfg (a.bound cfg)).Traces m (.error exc)

theorem wp_freshProbe_asking :
    (freshProbe cfg (a.bound cfg)).wp (asking cfg a) (Answering cfg a) .due := by
  rw [freshProbe, Prog.wp_bind]
  refine Prog.wp_mono asking_mono ?_ (wp_measureProbe_asking _)
  intro x _ h
  obtain ⟨m, rfl, hm⟩ := h
  cases x with
  | error exc => exact ⟨m, rfl, hm⟩
  | ok measured =>
      rw [Prog.bindPost_ok]
      refine wp_turn fun now => ⟨_, .stamp hm, ?_⟩
      exact wp_turn fun _ => ⟨_, .store, _, rfl, rfl⟩

theorem wp_cachedProbe_asking :
    (cachedProbe cfg a.maxAge (a.bound cfg)).wp (asking cfg a) (Answering cfg a) .locked := by
  refine wp_turn fun cached => ?_
  cases cached with
  | none => exact ⟨_, .pass (.inl rfl), wp_freshProbe_asking⟩
  | some found =>
      obtain ⟨measuredAt, probe⟩ := found
      dsimp only
      by_cases hage : 0 < a.maxAge
      · rw [if_pos hage]
        refine ⟨_, .find hage, wp_turn fun now => ?_⟩
        by_cases hfresh : now - measuredAt ≤ a.maxAge
        · rw [if_pos hfresh]
          exact ⟨_, .reuse hfresh, _, rfl, rfl⟩
        · rw [if_neg hfresh]
          exact ⟨_, .stale hfresh, wp_freshProbe_asking⟩
      · rw [if_neg hage]
        exact ⟨_, .pass (.inr hage), wp_freshProbe_asking⟩

theorem wp_prog_asking (a : Ask) :
    (a.prog cfg).wp (asking cfg a) (fun x c => Leaves x c) .outside := by
  refine wp_turn fun _ => ⟨_, .enter, ?_⟩
  rw [Prog.wp_bind, Prog.wp_tryCatch]
  refine Prog.wp_mono asking_mono ?_ wp_cachedProbe_asking
  intro x c hc
  cases x with
  | error exc =>
      obtain ⟨m, rfl, hm⟩ := hc
      exact wp_turn fun _ => ⟨_, .giveUp hm, _, rfl, rfl⟩
  | ok probe =>
      obtain ⟨how, rfl, hhow⟩ := hc
      exact wp_turn fun _ => ⟨_, .leave, _, rfl, hhow⟩

/-! ### What the turns keep -/

variable {ι : Type}

/-- What an operation does to the answer in the cache. -/
def storing (c : Option (ℚ × Probe)) : Op → Option (ℚ × Probe)
  | .setProbe t p => some (t, p)
  | _ => c

/-- What an event says the time is. -/
def ticking (now : ℚ) (e : Event sig) : ℚ :=
  match e with
  | ⟨.monotonic, t⟩ => t
  | _ => now

/-- The answer last stored when these calls have been made, after `c` before them. -/
def stored (c : Option (ℚ × Probe)) (tr : List (ι × Event sig)) : Option (ℚ × Probe) :=
  tr.foldl (fun c x => storing c x.2.op) c

/-- The last time read when these calls have been made. -/
def timeAfter (now : ℚ) (tr : List (ι × Event sig)) : ℚ :=
  tr.foldl (fun now x => ticking now x.2) now

/-- The caller took `p` from the cache: when it read the clock, `p` was still the answer last
stored, and no older than the caller's `max_age`. -/
structure Reuses (w₀ : Shared) (tr : List (ι × Event sig)) (i : ι) (a : Ask) (p : Probe) :
    Prop where
  positive : 0 < a.maxAge
  young : ∃ pre now post t, tr = pre ++ (i, ⟨.monotonic, now⟩) :: post ∧
    (i, ⟨.getProbe, some (t, p)⟩) ∈ pre ∧ stored w₀.probe pre = some (t, p) ∧
    now - t ≤ a.maxAge

/-- What a caller's place says of the world and of the calls made so far. -/
def At (w₀ w : Shared) (tr : List (ι × Event sig)) (i : ι) (a : Ask) : Place → Prop
  | .found t p => 0 < a.maxAge ∧ w.probe = some (t, p) ∧ (i, ⟨.getProbe, some (t, p)⟩) ∈ tr
  | .due => 0 < a.maxAge → ∀ t p, w.probe = some (t, p) → a.maxAge < w.clock - t
  | .stamped _ now _ => now ≤ w.clock ∧ ∀ j t p, (j, ⟨.setProbe t p, ()⟩) ∈ tr → t ≤ now
  | .got (.reused p) | .left (.reused p) => Reuses w₀ tr i a p
  | _ => True

/-- A caller that begins to measure after these calls found the answer last stored too old, and
so are all those stored before. -/
def Needed (w₀ : Shared) (pre : List (ι × Event sig)) (a : Ask) : Prop :=
  0 < a.maxAge →
    (∀ t p, stored w₀.probe pre = some (t, p) → a.maxAge < timeAfter w₀.clock pre - t) ∧
    ∀ j t p, (j, ⟨.setProbe t p, ()⟩) ∈ pre → a.maxAge < timeAfter w₀.clock pre - t

/-- What holds after every turn of any of the callers. -/
structure Keeping (asks : ι → Ask) (w₀ w : Shared) (tr : List (ι × Event sig))
    (g : ι → Place) : Prop where
  probe : w.probe = stored w₀.probe tr
  clock : w.clock = timeAfter w₀.clock tr
  locked : w.locked = true ↔ ∃ i, (g i).Inside
  alone : ∀ i j, (g i).Inside → (g j).Inside → i = j
  stores : ∀ i t p, (i, ⟨.setProbe t p, ()⟩) ∈ tr →
    t ≤ w.clock ∧ ∃ t' p', w.probe = some (t', p') ∧ t ≤ t'
  places : ∀ i, At w₀ w tr i (asks i) (g i)
  begun : ∀ pre i s post, tr = pre ++ (i, ⟨.time, s⟩) :: post → Needed w₀ pre (asks i)

theorem keeping_start (asks : ι → Ask) {w₀ : Shared} (hfree : w₀.locked = false) :
    Keeping asks w₀ w₀ [] fun _ => .outside where
  probe := rfl
  clock := rfl
  locked := by simp [hfree, Place.Inside]
  alone := fun _ _ h => h.elim
  stores := fun _ _ _ h => by cases h
  places := fun _ => trivial
  begun := fun pre i s post h => by simp at h

/-! ### One turn -/

section turn

variable {o : Op} {r : Resp o} {w₀ w w' : Shared} {tr : List (ι × Event sig)} {i j : ι}
  {c c' : Place}

theorem shared_storing (h : shared o w r w') : w'.probe = storing w.probe o := by
  rw [shared_probe h]
  cases o <;> rfl

theorem shared_ticking (h : shared o w r w') : w'.clock = ticking w.clock ⟨o, r⟩ := by
  cases o with
  | monotonic | acquireProbeLock | getProbe | getLastSuccess | getVersions => rw [h.2]; rfl
  | _ => rw [show w' = _ from h]; rfl

theorem shared_clock_le (h : shared o w r w') : w.clock ≤ w'.clock := by
  cases o with
  | monotonic => rw [h.2]; exact h.1
  | acquireProbeLock | getProbe | getLastSuccess | getVersions => rw [h.2]
  | _ => rw [show w' = _ from h]

theorem shared_locked (h : shared o w r w') (hacquire : o ≠ .acquireProbeLock)
    (hrelease : o ≠ .releaseProbeLock) : w'.locked = w.locked := by
  cases o with
  | acquireProbeLock => exact absurd rfl hacquire
  | releaseProbeLock => exact absurd rfl hrelease
  | monotonic | getProbe | getLastSuccess | getVersions => rw [h.2]
  | _ => rw [show w' = _ from h]

theorem storing_of_ne {o : Op} (h : ∀ t p, o ≠ .setProbe t p) (c : Option (ℚ × Probe)) :
    storing c o = c := by
  cases o with
  | setProbe t p => exact absurd rfl (h t p)
  | _ => rfl

/-- A turn takes the caller into the lock, out of it, or leaves it inside. -/
theorem Turns.inside {e : Event sig} (h : Turns cfg a c e c') :
    (e.op = .acquireProbeLock ∧ ¬c.Inside ∧ c'.Inside) ∨
      (e.op = .releaseProbeLock ∧ c.Inside ∧ ¬c'.Inside) ∨
      (e.op ≠ .acquireProbeLock ∧ e.op ≠ .releaseProbeLock ∧ c.Inside ∧ c'.Inside) := by
  cases h with
  | enter => exact .inl ⟨rfl, id, trivial⟩
  | giveUp | leave => exact .inr (.inl ⟨rfl, trivial, id⟩)
  | go h =>
      refine .inr (.inr ⟨fun he => ?_, fun he => ?_, trivial, trivial⟩)
      · rw [he] at h
        exact h
      · rw [he] at h
        exact h
  | _ => exact .inr (.inr ⟨by simp, by simp, trivial, trivial⟩)

theorem Turns.of_time {s : ℚ} (h : Turns cfg a c ⟨.time, s⟩ c') : c = .due := by
  cases h with
  | begin => rfl
  | go h => exact h.elim

theorem Turns.of_setProbe {t : ℚ} {p : Probe} (h : Turns cfg a c ⟨.setProbe t p, ()⟩ c') :
    ∃ m, c = .stamped m t p := by
  cases h with
  | store => exact ⟨_, rfl⟩
  | go h => exact h.elim

theorem Reuses.snoc {p : Probe} (h : Reuses w₀ tr i a p) (x : ι × Event sig) :
    Reuses w₀ (tr ++ [x]) i a p := by
  obtain ⟨hpos, pre, now, post, t, rfl, hread, hlast, hage⟩ := h
  exact ⟨hpos, pre, now, post ++ [x], t, by simp, hread, hlast, hage⟩

/-- Of a caller that is not inside, other callers' turns change nothing. -/
theorem At.keep_outside (h : At w₀ w tr i a c) (hc : ¬c.Inside) (x : ι × Event sig) :
    At w₀ w' (tr ++ [x]) i a c := by
  cases c with
  | outside => trivial
  | left how =>
      cases how with
      | reused p => exact Reuses.snoc h x
      | own m y => trivial
  | _ => exact absurd trivial hc

/-- Of any caller, a turn that stores nothing changes nothing. -/
theorem At.keep (h : At w₀ w tr i a c) (hprobe : w'.probe = w.probe) (hclock : w.clock ≤ w'.clock)
    {x : ι × Event sig} (hx : ∀ t p, x.2.op ≠ .setProbe t p) : At w₀ w' (tr ++ [x]) i a c := by
  cases c with
  | found t p =>
      obtain ⟨hpos, hfound, hread⟩ := h
      exact ⟨hpos, hprobe ▸ hfound, List.mem_append_left _ hread⟩
  | due =>
      intro hpos t p hcached
      have hold := h hpos t p (hprobe ▸ hcached)
      linarith
  | stamped m now p =>
      refine ⟨le_trans h.1 hclock, fun j t q hstore => ?_⟩
      rcases List.mem_append.mp hstore with hstore | hstore
      · exact h.2 j t q hstore
      · exact absurd (congrArg (fun y => y.2.op) (List.mem_singleton.mp hstore)).symm (hx t q)
  | got how | left how =>
      cases how with
      | reused p => exact Reuses.snoc h x
      | own m y => trivial
  | _ => trivial

theorem snoc_split {β : Type} {xs pre post : List β} {x y : β}
    (h : xs ++ [x] = pre ++ y :: post) :
    (pre = xs ∧ y = x) ∨ ∃ post', xs = pre ++ y :: post' := by
  rcases List.eq_nil_or_concat post with rfl | ⟨post', z, rfl⟩
  · obtain ⟨rfl, hxy⟩ := List.append_inj' h rfl
    exact .inl ⟨rfl, (List.singleton_inj.mp hxy).symm⟩
  · rw [List.concat_eq_append, ← List.cons_append, ← List.append_assoc] at h
    exact .inr ⟨post', (List.append_inj' h rfl).1⟩

variable {asks : ι → Ask} {g : ι → Place}

/-- The caller whose turn it is. -/
theorem Keeping.own_place (hE : shared o w r w') (hturn : Turns cfg (asks i) (g i) ⟨o, r⟩ c)
    (h : Keeping asks w₀ w tr g) : At w₀ w' (tr ++ [(i, ⟨o, r⟩)]) i (asks i) c := by
  have hplace := h.places i
  generalize g i = before at hturn hplace
  cases hturn with
  | enter | begin | go | giveUp => trivial
  | pass hpass =>
      obtain ⟨rfl, rfl⟩ := hE
      intro hpos t p hcached
      rcases hpass with hnone | hnot
      · rw [hnone] at hcached
        cases hcached
      · exact absurd hpos hnot
  | @find t p hpos =>
      obtain ⟨hcached, rfl⟩ := hE
      exact ⟨hpos, hcached.symm, by simp⟩
  | @reuse t now p hage =>
      obtain ⟨hpos, hfound, hread⟩ := hplace
      exact ⟨hpos, tr, now, [], t, rfl, hread, h.probe ▸ hfound, hage⟩
  | @stale t now p hage =>
      obtain ⟨-, hfound, -⟩ := hplace
      obtain ⟨-, rfl⟩ := hE
      intro _ t' p' hcached
      obtain ⟨rfl, rfl⟩ : t = t' ∧ p = p' := by simpa [hfound] using hcached
      exact not_le.mp hage
  | @stamp m t p hm =>
      obtain ⟨hclock, rfl⟩ := hE
      refine ⟨le_rfl, fun j t' p' hstore => ?_⟩
      have hmem : (j, (⟨.setProbe t' p', ()⟩ : Event sig)) ∈ tr := by simpa using hstore
      exact le_trans (h.stores j t' p' hmem).1 hclock
  | store => trivial
  | @leave how =>
      cases how with
      | reused p => exact Reuses.snoc hplace _
      | own m x => trivial

/-- The other callers. -/
theorem Keeping.other_place (hE : shared o w r w') (hturn : Turns cfg (asks i) (g i) ⟨o, r⟩ c)
    (h : Keeping asks w₀ w tr g) (hji : j ≠ i) :
    At w₀ w' (tr ++ [(i, ⟨o, r⟩)]) j (asks j) (g j) := by
  by_cases hj : (g j).Inside
  · -- it holds the lock, so the turn is one that can be made without it
    have hnot : ∀ t p, o ≠ .setProbe t p := by
      intro t p hx
      subst hx
      obtain ⟨m, hm⟩ := hturn.of_setProbe
      exact hji (h.alone j i hj (by rw [hm]; trivial))
    exact (h.places j).keep ((shared_storing hE).trans (storing_of_ne hnot _))
      (shared_clock_le hE) hnot
  · exact (h.places j).keep_outside hj _

/-- What is stored is stamped no earlier than anything stored before. -/
theorem Keeping.later_stores (hE : shared o w r w') (hturn : Turns cfg (asks i) (g i) ⟨o, r⟩ c)
    (h : Keeping asks w₀ w tr g) {t : ℚ} {p : Probe}
    (hmem : (j, ⟨.setProbe t p, ()⟩) ∈ tr ++ [(i, (⟨o, r⟩ : Event sig))]) :
    t ≤ w'.clock ∧ ∃ t' p', w'.probe = some (t', p') ∧ t ≤ t' := by
  by_cases hstore : ∃ now q, o = .setProbe now q
  · obtain ⟨now, q, rfl⟩ := hstore
    obtain ⟨m, hm⟩ := hturn.of_setProbe
    have hplace := h.places i
    rw [hm] at hplace
    obtain ⟨hnow, hle⟩ := hplace
    have hlater : t ≤ now := by
      rcases List.mem_append.mp hmem with hold | hnew
      · exact hle j t p hold
      · cases List.mem_singleton.mp hnew
        exact le_rfl
    obtain rfl : w' = { w with probe := some (now, q) } := hE
    exact ⟨le_trans hlater hnow, now, q, rfl, hlater⟩
  · have hnot : ∀ t p, o ≠ .setProbe t p := fun t p ho => hstore ⟨t, p, ho⟩
    have hold : (j, (⟨.setProbe t p, ()⟩ : Event sig)) ∈ tr := by
      refine (List.mem_append.mp hmem).resolve_right fun hnew => ?_
      exact hnot t p (congrArg (fun y => y.2.op) (List.mem_singleton.mp hnew)).symm
    obtain ⟨hclock, t', p', hcached, hlater⟩ := h.stores j t p hold
    refine ⟨le_trans hclock (shared_clock_le hE), t', p', ?_, hlater⟩
    rw [shared_storing hE, storing_of_ne hnot, hcached]

/-- A caller that begins to measure needs to. -/
theorem Keeping.needed (h : Keeping asks w₀ w tr g) (hdue : g i = .due) :
    Needed w₀ tr (asks i) := by
  have hplace := h.places i
  rw [hdue] at hplace
  intro hpos
  have hold := hplace hpos
  rw [← h.probe, ← h.clock]
  refine ⟨hold, fun j t p hstore => ?_⟩
  obtain ⟨-, t', p', hcached, hlater⟩ := h.stores j t p hstore
  have := hold t' p' hcached
  linarith

variable [DecidableEq ι]

/-- Who is inside after the turn. -/
theorem inside_update (j : ι) : (Function.update g i c j).Inside ↔
    if j = i then c.Inside else (g j).Inside := by
  by_cases hji : j = i
  · subst hji
    simp
  · simp [hji]

theorem Keeping.lock (hE : shared o w r w') (hturn : Turns cfg (asks i) (g i) ⟨o, r⟩ c)
    (h : Keeping asks w₀ w tr g) :
    (w'.locked = true ↔ ∃ j, (Function.update g i c j).Inside) ∧
      ∀ j k, (Function.update g i c j).Inside → (Function.update g i c k).Inside → j = k := by
  simp only [inside_update]
  rcases hturn.inside with ⟨ho, hout, hin⟩ | ⟨ho, hin, hout⟩ | ⟨hacquire, hrelease, hbefore, hin⟩
  · -- the lock was free, so nobody else is inside
    obtain rfl : o = .acquireProbeLock := ho
    obtain ⟨hfree, rfl⟩ := hE
    have hnobody : ∀ j, ¬(g j).Inside := by
      intro j hj
      have := h.locked.mpr ⟨j, hj⟩
      rw [hfree] at this
      cases this
    have honly : ∀ j, (if j = i then c.Inside else (g j).Inside) → j = i := by
      intro j hj
      by_contra hji
      rw [if_neg hji] at hj
      exact hnobody j hj
    exact ⟨⟨fun _ => ⟨i, by simpa using hin⟩, fun _ => rfl⟩,
      fun j k hj hk => (honly j hj).trans (honly k hk).symm⟩
  · -- the caller was the one inside, and leaves
    obtain rfl : o = .releaseProbeLock := ho
    obtain rfl : w' = { w with locked := false } := hE
    have hnobody : ∀ j, ¬if j = i then c.Inside else (g j).Inside := by
      intro j
      by_cases hji : j = i
      · simpa [hji] using hout
      · rw [if_neg hji]
        exact fun hj => hji (h.alone j i hj hin)
    exact ⟨⟨fun hlocked => (by cases hlocked), fun ⟨j, hj⟩ => absurd hj (hnobody j)⟩,
      fun j k hj _ => absurd hj (hnobody j)⟩
  · -- nobody comes or goes
    have hsame : ∀ j, (if j = i then c.Inside else (g j).Inside) ↔ (g j).Inside := by
      intro j
      by_cases hji : j = i
      · subst hji
        simp [hin, hbefore]
      · rw [if_neg hji]
    simp only [hsame, shared_locked hE hacquire hrelease]
    exact ⟨h.locked, h.alone⟩

theorem Keeping.turn (hE : shared o w r w') (hturn : Turns cfg (asks i) (g i) ⟨o, r⟩ c)
    (h : Keeping asks w₀ w tr g) :
    Keeping asks w₀ w' (tr ++ [(i, ⟨o, r⟩)]) (Function.update g i c) where
  probe := by rw [shared_storing hE, h.probe]; simp [stored]
  clock := by rw [shared_ticking hE, h.clock]; simp [timeAfter]
  locked := (h.lock hE hturn).1
  alone := (h.lock hE hturn).2
  stores := fun _ _ _ hmem => h.later_stores hE hturn hmem
  places := by
    intro j
    by_cases hji : j = i
    · subst hji
      rw [Function.update_self]
      exact h.own_place hE hturn
    · rw [Function.update_of_ne hji]
      exact h.other_place hE hturn hji
  begun := by
    intro pre j s post hsplit
    rcases snoc_split hsplit with ⟨rfl, he⟩ | ⟨post', hold⟩
    · cases he
      exact h.needed hturn.of_time
    · exact h.begun pre j s post' hold

end turn

/-! ### Runs of the callers -/

variable [DecidableEq ι]

/-- The callers of a run. -/
abbrev Asking (ι : Type) := Pool sig Exc (fun _ : ι => Probe) Shared

/-- `P` is reached by some interleaving of the callers, from a world in which nobody holds the
lock. -/
def AskedBy (cfg : Settings) (asks : ι → Ask) (w₀ : Shared) (P : Asking ι) : Prop :=
  w₀.locked = false ∧ Pool.Reachable shared (Pool.start (fun i => (asks i).prog cfg) w₀) P

/-- Among the calls of the caller are those of a whole measurement, which ended so. -/
def MeasuredItself (cfg : Settings) (a : Ask) (tr : List (Event sig)) (x : Except Exc Probe) :
    Prop :=
  ∃ pre m post, tr = pre ++ m ++ post ∧ (measureProbe cfg (a.bound cfg)).Traces m x

/-- The caller has begun to measure, and has yet to release the lock. -/
def Measuring (P : Asking ι) (i : ι) : Prop :=
  (∃ s, ⟨.time, s⟩ ∈ P.localTrace i) ∧ ⟨.releaseProbeLock, ()⟩ ∉ P.localTrace i

/-- What the cache promises its callers. A measurement begins with the first call of
`_measure_probe`, and is complete when its answer is stamped. -/
structure FreshAnswers (cfg : Settings) (asks : ι → Ask) (w₀ : Shared) (P : Asking ι) :
    Prop where
  answered : ∀ i x, (P.thread i).result = some x →
    MeasuredItself cfg (asks i) (P.localTrace i) x ∨
      ∃ p, x = .ok p ∧ Reuses w₀ P.trace i (asks i) p
  eager : ∀ i x, (P.thread i).result = some x → (asks i).maxAge ≤ 0 →
    MeasuredItself cfg (asks i) (P.localTrace i) x
  alone : ∀ i j, Measuring P i → Measuring P j → i = j
  needed : ∀ pre i s post, P.trace = pre ++ (i, ⟨.time, s⟩) :: post → 0 < (asks i).maxAge →
    ∀ t p, stored w₀.probe pre = some (t, p) →
      (asks i).maxAge < timeAfter w₀.clock pre - t
  apart : ∀ pre i t p mid j s post,
    P.trace = pre ++ (i, ⟨.setProbe t p, ()⟩) :: mid ++ (j, ⟨.time, s⟩) :: post →
    0 < (asks j).maxAge →
    t + (asks j).maxAge < timeAfter w₀.clock (pre ++ (i, ⟨.setProbe t p, ()⟩) :: mid)
  /-- Nobody waits for a lock that is never released. -/
  goesOn : ¬P.AllEnded → ∃ P', Pool.Step shared P P'

/-- What a caller's place says of its own calls. -/
def Told (cfg : Settings) (a : Ask) (tr : List (Event sig)) : Place → Prop
  | .outside => tr = []
  | .measuring m => ∃ pre, tr = pre ++ m
  | .stamped m _ p => (∃ pre post, tr = pre ++ m ++ post) ∧
      (measureProbe cfg (a.bound cfg)).Traces m (.ok p)
  | .got (.own _ x) => MeasuredItself cfg a tr x
  | .left (.own _ x) => MeasuredItself cfg a tr x ∧ ⟨.releaseProbeLock, ()⟩ ∈ tr
  | .left (.reused _) => ⟨.releaseProbeLock, ()⟩ ∈ tr
  | _ => True

omit [DecidableEq ι] in
theorem told_of_leads {tr : List (Event sig)} {c : Place}
    (h : (Turns cfg a).Leads .outside tr c) : Told cfg a tr c := by
  refine h.invariant (I := Told cfg a) (show Told cfg a [] .outside from rfl) ?_
  intro tr c e c' hturn htold
  cases hturn with
  | enter | pass | find | reuse | stale => trivial
  | begin => exact ⟨tr, rfl⟩
  | go hinner =>
      obtain ⟨pre, rfl⟩ := htold
      exact ⟨pre, by simp⟩
  | stamp hm =>
      obtain ⟨pre, rfl⟩ := htold
      exact ⟨⟨pre, _, rfl⟩, hm⟩
  | store =>
      obtain ⟨⟨pre, post, rfl⟩, hm⟩ := htold
      exact ⟨pre, _, post ++ [_], List.append_assoc _ _ _, hm⟩
  | giveUp hm =>
      obtain ⟨pre, rfl⟩ := htold
      exact ⟨⟨pre, _, [_], rfl, hm⟩, by simp⟩
  | @leave how =>
      cases how with
      | reused p => exact List.mem_append_right _ (List.mem_singleton.mpr rfl)
      | own m x =>
          obtain ⟨pre, m', post, rfl, hm⟩ := htold
          exact ⟨⟨pre, m', post ++ [_], List.append_assoc _ _ _, hm⟩, by simp⟩

theorem inside_of_measuring {P : Asking ι} {i : ι} {c : Place}
    (h : (Turns cfg a).Leads .outside (P.localTrace i) c) (hm : Measuring P i) : c.Inside := by
  obtain ⟨⟨s, hbegun⟩, hheld⟩ := hm
  have htold := told_of_leads h
  cases c with
  | outside =>
      rw [show P.localTrace i = [] from htold] at hbegun
      cases hbegun
  | left how =>
      cases how with
      | reused p => exact absurd htold hheld
      | own m x => exact absurd htold.2 hheld
  | _ => trivial

theorem shared_answers {w : Shared} {o : Op} (h : o = .acquireProbeLock → w.locked = false) :
    ∃ r w', shared o w r w' := by
  cases o with
  | monotonic => exact ⟨w.clock, _, le_rfl, rfl⟩
  | acquireProbeLock => exact ⟨(), _, h rfl, rfl⟩
  | getProbe | getLastSuccess | getVersions => exact ⟨_, w, rfl, rfl⟩
  | time => exact ⟨(0 : ℚ), w, rfl⟩
  | localtime t => exact ⟨⟨0, 0, 0⟩, w, rfl⟩
  | which tool => exact ⟨true, w, rfl⟩
  | spawn command => exact ⟨none, w, rfl⟩
  | finish command timeout => exact ⟨.timedOut none, w, rfl⟩
  | releaseProbeLock | setProbe _ _ | setLastSuccess _ | setVersions _ _ => exact ⟨(), _, rfl⟩

omit [DecidableEq ι] in
/-- A caller that is inside does not wait for the lock. -/
theorem Turns.not_waiting {e : Event sig} {c c' : Place} (h : Turns cfg a c e c')
    (hc : c.Inside) : e.op ≠ .acquireProbeLock := by
  rcases h.inside with ⟨-, hout, -⟩ | ⟨ho, -, -⟩ | ⟨ho, -, -, -⟩
  · exact absurd hc hout
  · simp [ho]
  · exact ho

/-- Whoever holds the lock can go on, and if nobody does, all others can. -/
theorem Keeping.goesOn {asks : ι → Ask} {w₀ : Shared} {P : Asking ι} {g : ι → Place}
    (h : Keeping asks w₀ P.world P.trace g)
    (hwp : ∀ i, (P.thread i).wp (asking cfg (asks i)) (fun x c => Leaves x c) (g i))
    (hend : ¬P.AllEnded) : ∃ P', Pool.Step shared P P' := by
  have hcall : ∀ i, (P.thread i).result = none → (P.world.locked = true → (g i).Inside) →
      ∃ P', Pool.Step shared P P' := by
    intro i hi hlock
    have hi' := hwp i
    cases hthread : P.thread i with
    | ret p => rw [hthread] at hi; cases hi
    | raise exc => rw [hthread] at hi; cases hi
    | call o k =>
        rw [hthread] at hi'
        have hanswer : o = .acquireProbeLock → P.world.locked = false := by
          rintro rfl
          obtain ⟨c, hturn, -⟩ := hi' () trivial
          by_contra hlocked
          exact hturn.not_waiting (hlock (by simpa using hlocked)) rfl
        obtain ⟨r, w', hE⟩ := shared_answers hanswer
        exact ⟨_, .call hthread hE⟩
  cases hlocked : P.world.locked with
  | true =>
      -- the holder cannot wait for the lock, so its next call is answered
      obtain ⟨i, hi⟩ := h.locked.mp hlocked
      refine hcall i ?_ fun _ => hi
      by_contra hdone
      obtain ⟨x, hx⟩ := Option.ne_none_iff_exists'.mp hdone
      obtain ⟨how, hleft, -⟩ := (Prog.wp_of_result hx).mp (hwp i)
      rw [hleft] at hi
      exact hi
  | false =>
      obtain ⟨i, hi⟩ := not_forall.mp hend
      exact hcall i (by simpa using hi) fun hlock => by rw [hlocked] at hlock; cases hlock

/-- Whatever the order in which callers of the probe cache take their turns, and whatever
`max_age` each has: each is given its own measurement or the last answer stored, if that is
young enough, measurements do not overlap, and none is begun that an answer young enough would
have spared. -/
theorem probe_cache {asks : ι → Ask} {w₀ : Shared} {P : Asking ι}
    (hr : AskedBy cfg asks w₀ P) : FreshAnswers cfg asks w₀ P := by
  obtain ⟨hfree, hreach⟩ := hr
  obtain ⟨g, hleads, hwp, hkeep⟩ := Pool.follows (δ := fun i => Turns cfg (asks i))
    (A := fun _ _ => True) (I := Keeping asks w₀) (fun i => wp_prog_asking (asks i))
    (keeping_start asks hfree) (fun i o w r w' tr g c hE hturn h => h.turn hE hturn) hreach
    (fun _ _ _ _ _ _ _ => trivial)
  have hanswered : ∀ i x, (P.thread i).result = some x →
      MeasuredItself cfg (asks i) (P.localTrace i) x ∨
        ∃ p, x = .ok p ∧ Reuses w₀ P.trace i (asks i) p := by
    intro i x hx
    obtain ⟨how, hleft, hresult⟩ := (Prog.wp_of_result hx).mp (hwp i)
    have htold := told_of_leads (hleads i)
    have hplace := hkeep.places i
    rw [hleft] at htold hplace
    cases how with
    | reused p => exact .inr ⟨p, hresult.symm, hplace⟩
    | own m y =>
        obtain rfl : y = x := hresult
        exact .inl htold.1
  refine ⟨hanswered, ?_, ?_, ?_, ?_, hkeep.goesOn hwp⟩
  · intro i x hx hzero
    rcases hanswered i x hx with hown | ⟨p, -, hreuse⟩
    · exact hown
    · exact absurd hreuse.positive (not_lt.mpr hzero)
  · intro i j hi hj
    exact hkeep.alone i j (inside_of_measuring (hleads i) hi) (inside_of_measuring (hleads j) hj)
  · intro pre i s post hsplit hpos
    exact (hkeep.begun pre i s post hsplit hpos).1
  · intro pre i t p mid j s post hsplit hpos
    have hold := (hkeep.begun _ j s post hsplit hpos).2 i t p (by simp)
    linarith

/-! ### Two callers -/

/-- Two callers that share a `max_age`. -/
def twoAsks (_ : Bool) : Ask where
  maxAge := 2
  timeout := none

/-- The second one comes to the lock while the first one measures. -/
def twoProbes : Asking Bool :=
  Pool.exec (starved defaultSettings (some "I"))
    (List.replicate 6 false ++ List.replicate 3 true ++ List.replicate 10 false ++
      List.replicate 10 true)
    (Pool.start (fun b => (twoAsks b).prog defaultSettings) { clock := 0 })

/-- On a clock that stands still the second caller reuses what the first one measured. -/
theorem probe_cache_two :
    (∀ b, (twoProbes.thread b).result.isSome = true) ∧
      emptyLooks (twoProbes.localTrace true) = 0 ∧
      FreshAnswers defaultSettings twoAsks { clock := 0 } twoProbes :=
  ⟨by decide +kernel, by decide +kernel,
    probe_cache ⟨rfl, Pool.exec_reachable (starved_shared _) _ _⟩⟩

end NfOrchestrator.Deploy
