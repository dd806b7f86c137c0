import Mathlib.Algebra.Order.BigOperators.Group.Finset
import Mathlib.Data.Bool.Count
import NfOrchestrator.Deploy.Caller
import NfOrchestrator.Deploy.Evidence

/-!
# NfOrchestrator.Deploy.Tally

The callers' **books against the trace**. `Books` says that what a caller keeps is what
its own trace says; `Tally` sums the books over all callers, and they are what the trace
of the whole run says. An answer that never got kubectl started is in the cache only
after somebody measured one.
-/

namespace NfOrchestrator.Deploy

variable (cfg : Settings)

/-! ### Figures of a trace -/

def isProbeStart (e : Event sig) : Bool :=
  match e with
  | ⟨.spawn command, _⟩ => command == probeCommand cfg
  | _ => false

/-- How many probe processes are started. -/
def probeStarts (tr : List (Event sig)) : ℕ := tr.countP (isProbeStart cfg)

def probeBound? (e : Event sig) : Option ℚ :=
  match e with
  | ⟨.finish command timeout, _⟩ => if command = probeCommand cfg then some timeout else none
  | _ => none

/-- The bounds of the probe processes that were waited for. -/
def probeBounds (tr : List (Event sig)) : List ℚ := tr.filterMap (probeBound? cfg)

def answer? (e : Event sig) : Option Probe :=
  match e with
  | ⟨.setProbe _ p, _⟩ => some p
  | _ => none

/-- The answers put in the cache. -/
def answers (tr : List (Event sig)) : List Probe := tr.filterMap answer?

def isEmptyLook (e : Event sig) : Bool :=
  match e with
  | ⟨.getProbe, none⟩ => true
  | _ => false

/-- How often the cache was found empty. -/
def emptyLooks (tr : List (Event sig)) : ℕ := tr.countP isEmptyLook

/-- A caller that reads the cache and then the clock takes the answer it found, if it is
fresh: its age, and the answer. -/
def taking (e e' : Event sig) : Option (ℚ × Probe) :=
  match e, e' with
  | ⟨.getProbe, some (t, p)⟩, ⟨.monotonic, m⟩ => some (m - t, p)
  | _, _ => none

/-- The answers the caller with this trace took from the cache, with their ages. -/
def takes : List (Event sig) → List (ℚ × Probe)
  | e :: e' :: rest => (taking e e').toList ++ takes (e' :: rest)
  | _ => []

theorem takes_snoc_snoc (tr : List (Event sig)) (e e' : Event sig) :
    takes (tr ++ [e, e']) = takes (tr ++ [e]) ++ (taking e e').toList := by
  induction tr with
  | nil => simp [takes]
  | cons a rest ih =>
      cases rest with
      | nil => simp [takes]
      | cons b rest =>
          simp only [List.cons_append] at ih
          simp only [List.cons_append, takes, ih, List.append_assoc]

variable {ι : Type} [DecidableEq ι] {cfg}

/-! ### A caller's trace and its books -/

/-- One, while a probe has been started and its answer is not in the cache. -/
def Phase.underway : Phase → ℕ
  | .running _ | .ended _ => 1
  | _ => 0

/-- The probe a caller waits for. -/
def Phase.waiting : Phase → List Bool
  | .running b => [b]
  | _ => []

/-- The books a caller keeps are what its trace says. -/
structure Books (cfg : Settings) (tr : List (Event sig)) (c : Caller) : Prop where
  found : ∀ t p, c.phase = .found t p → ∃ pre, tr = pre ++ [⟨.getProbe, some (t, p)⟩]
  last : ∀ pre t p, tr = pre ++ [⟨.getProbe, some (t, p)⟩] →
    c.phase = .found t p ∨ c.phase = .missed true
  taken : c.taken = (takes tr).countP fun x => !x.2.started
  bounds : ∃ ended, c.spawned = ended ++ c.phase.waiting ∧
    (probeBounds cfg tr).Sublist (ended.map (probeBound cfg))
  answers : (answers tr).length + c.phase.underway ≤ c.spawned.length
  underway : Underway c
  unstarted : ∀ p ∈ Deploy.answers tr, p.started = false → 1 ≤ c.failed ∨ true ∈ c.spawned
  first : c.empty ≤ 1 → c.taken = 0 → 1 ≤ c.failed →
    ∃ p rest, Deploy.answers tr = p :: rest ∧ p.started = false

theorem mem_takes (pre : List (Event sig)) (t m : ℚ) (p : Probe) (post : List (Event sig)) :
    (m - t, p) ∈ takes (pre ++ [⟨.getProbe, some (t, p)⟩] ++ ⟨.monotonic, m⟩ :: post) := by
  induction pre with
  | nil => simp [takes, taking]
  | cons a rest ih =>
      cases rest with
      | nil => exact List.mem_append_right _ ih
      | cons b rest => exact List.mem_append_right _ ih

theorem takes_snoc_eq {tr : List (Event sig)} {e : Event sig}
    (h : ∀ pre a, tr = pre ++ [a] → taking a e = none) : takes (tr ++ [e]) = takes tr := by
  rcases List.eq_nil_or_concat tr with rfl | ⟨pre, a, rfl⟩
  · rfl
  · rw [List.concat_eq_append] at h ⊢
    rw [List.append_assoc, List.singleton_append, takes_snoc_snoc, h pre a rfl]
    simp

theorem takes_snoc_of_op {tr : List (Event sig)} {e : Event sig} (h : e.op ≠ .monotonic) :
    takes (tr ++ [e]) = takes tr := by
  refine takes_snoc_eq fun pre a _ => ?_
  unfold taking
  split
  · exact absurd rfl h
  · rfl

theorem books_start : Books cfg [] {} where
  found := fun t p h => by cases h
  last := fun pre t p h => by simp at h
  taken := rfl
  bounds := ⟨[], rfl, .slnil⟩
  answers := Nat.le_refl _
  underway := fun b h => by rcases h with h | h <;> cases h
  unstarted := fun p hp => by cases hp
  first := fun _ _ h => absurd h (by decide)

variable {tr : List (Event sig)} {c c' : Caller} {e : Event sig}

/-- Only a read of the cache leads to one of the two phases that remember it. -/
theorem Books.takes_eq (hc : Books cfg tr c) (hfound : ∀ t p, c.phase ≠ .found t p)
    (hmissed : c.phase ≠ .missed true) : takes (tr ++ [e]) = takes tr := by
  refine takes_snoc_eq fun pre a htr => ?_
  unfold taking
  split
  · rename_i t p m
    rcases hc.last pre t p htr with h | h
    · exact absurd h (hfound t p)
    · exact absurd h hmissed
  · rfl

/-- An event that is not in the figures leaves the books as they are. -/
theorem Books.quiet (hc : Books cfg tr c) (phase : Phase) (empty : ℕ)
    (hstarted : Underway { c with phase := phase, empty := empty })
    (hbound : probeBound? cfg e = none) (hanswer : answer? e = none)
    (htakes : takes (tr ++ [e]) = takes tr) (hwaiting : c.phase.waiting = [])
    (hwaiting' : phase.waiting = []) (hunderway : phase.underway ≤ c.phase.underway)
    (hempty : c.empty ≤ empty)
    (hfound : ∀ t p, phase = .found t p → e = ⟨.getProbe, some (t, p)⟩)
    (hlast : ∀ t p, e = ⟨.getProbe, some (t, p)⟩ → phase = .found t p ∨ phase = .missed true) :
    Books cfg (tr ++ [e]) { c with phase := phase, empty := empty } := by
  have hbounds : probeBounds cfg (tr ++ [e]) = probeBounds cfg tr := by
    simp [probeBounds, hbound]
  have hanswers : Deploy.answers (tr ++ [e]) = Deploy.answers tr := by
    simp [Deploy.answers, hanswer]
  constructor
  · intro t p h
    exact ⟨tr, by rw [hfound t p h]⟩
  · intro pre t p h
    obtain ⟨-, he⟩ := List.append_inj' h rfl
    exact hlast t p (List.singleton_inj.mp he)
  · rw [htakes]
    exact hc.taken
  · obtain ⟨ended, hspawned, hsub⟩ := hc.bounds
    refine ⟨ended, ?_, by rw [hbounds]; exact hsub⟩
    rw [hwaiting] at hspawned
    rw [hwaiting']
    exact hspawned
  · rw [hanswers]
    have := hc.answers
    dsimp only
    omega
  · exact hstarted
  · rw [hanswers]
    exact hc.unstarted
  · rw [hanswers]
    exact fun h => hc.first (le_trans hempty h)

/-- The last event of a trace. -/
theorem snoc_inj {pre : List (Event sig)} {e' : Event sig} (h : tr ++ [e] = pre ++ [e']) :
    e = e' :=
  List.singleton_inj.mp (List.append_inj' h rfl).2

/-- Taking an answer that is found counts it, if it never got kubectl started. -/
theorem Books.take {t m : ℚ} {p : Probe} (hc : Books cfg tr c) (h : c.phase = .found t p)
    (hunderway : Underway
      { c with phase := .holding false p, taken := c.taken + Deploy.unstarted p }) :
    Books cfg (tr ++ [⟨.monotonic, m⟩])
      { c with phase := .holding false p, taken := c.taken + Deploy.unstarted p } := by
  obtain ⟨pre, htr⟩ := hc.found t p h
  have htakes : takes (tr ++ [⟨.monotonic, m⟩]) = takes tr ++ [(m - t, p)] := by
    rw [htr, List.append_assoc]
    exact takes_snoc_snoc pre _ _
  have hbounds : probeBounds cfg (tr ++ [⟨.monotonic, m⟩]) = probeBounds cfg tr := by
    simp [probeBounds, probeBound?]
  have hanswers : Deploy.answers (tr ++ [⟨.monotonic, m⟩]) = Deploy.answers tr := by
    simp [Deploy.answers, answer?]
  constructor
  · intro t p h
    cases h
  · intro pre t p htr
    cases snoc_inj htr
  · rw [htakes, List.countP_append, ← hc.taken]
    cases hs : p.started <;> simp [Deploy.unstarted, hs]
  · obtain ⟨ended, hspawned, hsub⟩ := hc.bounds
    rw [h] at hspawned
    exact ⟨ended, hspawned, by rw [hbounds]; exact hsub⟩
  · rw [hanswers]
    have := hc.answers
    rw [h] at this
    exact this
  · exact hunderway
  · rw [hanswers]
    exact hc.unstarted
  · rw [hanswers]
    intro hempty htaken
    refine hc.first hempty ?_
    dsimp only at htaken
    omega

/-- A probe that is started is waited for, unless kubectl could not be spawned. -/
theorem Books.spawn {b : Bool} {r : Option OSError} (hc : Books cfg tr c)
    (h : c.phase = .measuring b)
    (hunderway : Underway { c with phase := if r.isSome then .ended b else .running b,
                                   spawned := c.spawned ++ [b] }) :
    Books cfg (tr ++ [⟨.spawn (probeCommand cfg), r⟩])
      { c with phase := if r.isSome then .ended b else .running b,
               spawned := c.spawned ++ [b] } := by
  have hbounds : probeBounds cfg (tr ++ [⟨.spawn (probeCommand cfg), r⟩]) =
      probeBounds cfg tr := by
    simp [probeBounds, probeBound?]
  have hanswers : Deploy.answers (tr ++ [⟨.spawn (probeCommand cfg), r⟩]) =
      Deploy.answers tr := by
    simp [Deploy.answers, answer?]
  obtain ⟨ended, hspawned, hsub⟩ := hc.bounds
  rw [h] at hspawned
  obtain rfl : ended = c.spawned := by simpa [Phase.waiting] using hspawned.symm
  constructor
  · intro t p hp
    cases r <;> cases hp
  · intro pre t p htr
    cases snoc_inj htr
  · rw [takes_snoc_of_op (by simp)]
    exact hc.taken
  · rw [hbounds]
    cases r with
    | none => exact ⟨c.spawned, rfl, hsub⟩
    | some exc =>
        refine ⟨c.spawned ++ [b], by simp [Phase.waiting], hsub.trans ?_⟩
        rw [List.map_append]
        exact List.sublist_append_left _ _
  · rw [hanswers]
    have := hc.answers
    rw [h] at this
    cases r <;> simpa [Phase.underway] using this
  · exact hunderway
  · rw [hanswers]
    intro p hp hstarted
    rcases hc.unstarted p hp hstarted with hfailed | hspawn
    · exact .inl hfailed
    · exact .inr (List.mem_append_left _ hspawn)
  · rw [hanswers]
    exact hc.first

/-- The bound of a probe that ends is one that was waited for. -/
theorem Books.finish {b : Bool} {r : Outcome} (hc : Books cfg tr c) (h : c.phase = .running b)
    (hunderway : Underway { c with phase := .ended b }) :
    Books cfg (tr ++ [⟨.finish (probeCommand cfg) (probeBound cfg b), r⟩])
      { c with phase := .ended b } := by
  have hbounds : probeBounds cfg (tr ++ [⟨.finish (probeCommand cfg) (probeBound cfg b), r⟩]) =
      probeBounds cfg tr ++ [probeBound cfg b] := by
    simp [probeBounds, probeBound?]
  have hanswers : Deploy.answers
      (tr ++ [⟨.finish (probeCommand cfg) (probeBound cfg b), r⟩]) = Deploy.answers tr := by
    simp [Deploy.answers, answer?]
  constructor
  · intro t p hp
    cases hp
  · intro pre t p htr
    cases snoc_inj htr
  · rw [takes_snoc_of_op (by simp)]
    exact hc.taken
  · obtain ⟨ended, hspawned, hsub⟩ := hc.bounds
    rw [h] at hspawned
    refine ⟨ended ++ [b], by simpa [Phase.waiting] using hspawned, ?_⟩
    rw [hbounds, List.map_append]
    exact hsub.append (List.Sublist.refl _)
  · rw [hanswers]
    have := hc.answers
    rw [h] at this
    exact this
  · exact hunderway
  · rw [hanswers]
    exact hc.unstarted
  · rw [hanswers]
    exact hc.first

/-- An answer that is the only one its caller measured, and never got kubectl started, is
the first of its answers. -/
theorem Books.first_answer {b : Bool} {p : Probe} (hc : Books cfg tr c) (hb : Balanced c)
    (h : c.phase = .ended b) (hempty : c.empty ≤ 1) (htaken : c.taken = 0)
    (hfailed : 1 ≤ c.failed + if b then 0 else Deploy.unstarted p) :
    ∃ q rest, Deploy.answers tr ++ [p] = q :: rest ∧ q.started = false := by
  by_cases hbefore : 1 ≤ c.failed
  · obtain ⟨q, rest, hq, hstarted⟩ := hc.first hempty htaken hbefore
    exact ⟨q, rest ++ [p], by rw [hq]; rfl, hstarted⟩
  · -- it is the only probe this caller has started, so its answer is the first
    have hnone : c.failed = 0 := by omega
    obtain ⟨hfirst, hsecond, -, -⟩ := hb
    have hlength := List.count_false_add_count_true c.spawned
    have hanswered := hc.answers
    cases b with
    | true => exact absurd hfailed (by simp [hnone])
    | false =>
        rw [h] at hfirst hsecond hanswered
        simp only [Phase.missing, Phase.owing, Phase.underway] at hfirst hsecond hanswered
        have hnil : Deploy.answers tr = [] := by
          refine List.length_eq_zero_iff.mp ?_
          omega
        refine ⟨p, [], by rw [hnil]; rfl, ?_⟩
        cases hs : p.started with
        | false => rfl
        | true => exact absurd hfailed (by simp [hnone, Deploy.unstarted, hs])

/-- An answer that is stored is the last of the caller's answers. -/
theorem Books.answer {b : Bool} {t : ℚ} {p : Probe} (hc : Books cfg tr c) (hb : Balanced c)
    (h : c.phase = .ended b)
    (hunderway : Underway { c with phase := .holding b p,
                                   failed := c.failed + if b then 0 else Deploy.unstarted p }) :
    Books cfg (tr ++ [⟨.setProbe t p, ()⟩])
      { c with phase := .holding b p,
               failed := c.failed + if b then 0 else Deploy.unstarted p } := by
  have hbounds : probeBounds cfg (tr ++ [⟨.setProbe t p, ()⟩]) = probeBounds cfg tr := by
    simp [probeBounds, probeBound?]
  have hanswers : Deploy.answers (tr ++ [⟨.setProbe t p, ()⟩]) = Deploy.answers tr ++ [p] := by
    simp [Deploy.answers, answer?]
  constructor
  · intro t p hp
    cases hp
  · intro pre t p htr
    cases snoc_inj htr
  · rw [takes_snoc_of_op (by simp)]
    exact hc.taken
  · obtain ⟨ended, hspawned, hsub⟩ := hc.bounds
    rw [h] at hspawned
    exact ⟨ended, hspawned, by rw [hbounds]; exact hsub⟩
  · rw [hanswers, List.length_append]
    have := hc.answers
    rw [h] at this
    exact this
  · exact hunderway
  · rw [hanswers]
    intro q hq hstarted
    rcases List.mem_append.mp hq with hq | hq
    · rcases hc.unstarted q hq hstarted with hfailed | hspawn
      · exact .inl (le_trans hfailed (Nat.le_add_right _ _))
      · exact .inr hspawn
    · obtain rfl := List.mem_singleton.mp hq
      cases b with
      | false => exact .inl (by simp [Deploy.unstarted, hstarted])
      | true => exact .inr (hc.underway true (.inr h))
  · rw [hanswers]
    exact hc.first_answer hb h

/-- What a caller does with other things leaves the books as they are. -/
theorem Books.outside {b : Bool} (hc : Books cfg tr c) (h : c.phase = .free b ∨ c.phase = .ended b)
    (he : Outside cfg e.op) : Books cfg (tr ++ [e]) c := by
  have hfree : c.phase.waiting = [] ∧ (∀ t p, c.phase ≠ .found t p) ∧
      c.phase ≠ .missed true := by
    rcases h with h | h <;> rw [h] <;> simp [Phase.waiting]
  obtain ⟨hwaiting, hfound, hmissed⟩ := hfree
  have hquiet : probeBound? cfg e = none ∧ answer? e = none ∧
      ∀ t p, e ≠ ⟨.getProbe, some (t, p)⟩ := by
    obtain ⟨o, r⟩ := e
    cases o with
    | getProbe => exact he.elim
    | setProbe t p => exact he.elim
    | finish command timeout => exact ⟨if_neg he, rfl, by simp⟩
    | _ => exact ⟨rfl, rfl, by simp⟩
  obtain ⟨hbound, hanswer, hlook⟩ := hquiet
  exact hc.quiet c.phase c.empty hc.underway hbound hanswer
    (hc.takes_eq hfound hmissed) hwaiting hwaiting le_rfl le_rfl
    (fun t p hp => absurd hp (hfound t p)) fun t p h => absurd h (hlook t p)

/-- A move that neither reads the cache nor the clock, and leads to no probe, leaves the books
as they are. -/
theorem Books.still (hc : Books cfg tr c) (phase : Phase)
    (hstarted : Underway { c with phase := phase }) (hbound : probeBound? cfg e = none)
    (hanswer : answer? e = none) (hclock : e.op ≠ .monotonic)
    (hlook : ∀ t p, e ≠ ⟨.getProbe, some (t, p)⟩) (hwaiting : c.phase.waiting = [])
    (hphase : phase.waiting = [] ∧ phase.underway = 0 ∧ ∀ t p, phase ≠ .found t p) :
    Books cfg (tr ++ [e]) { c with phase := phase } := by
  obtain ⟨hwaiting', hunderway, hfound⟩ := hphase
  exact hc.quiet phase c.empty hstarted hbound hanswer (takes_snoc_of_op hclock) hwaiting
    hwaiting' (hunderway ▸ Nat.zero_le _) le_rfl (fun t p hp => absurd hp (hfound t p))
    fun t p he => absurd he (hlook t p)

theorem Moves.books (h : Moves cfg c e c') (hb : Balanced c) (hc : Books cfg tr c) :
    Books cfg (tr ++ [e]) c' := by
  have hunderway : Underway c' := h.underway hc.underway
  cases h with
  | acquire h | begin h | giveUp h | release h =>
      refine hc.still _ hunderway rfl rfl (by simp) (by simp) (by rw [h]; rfl) ⟨rfl, rfl, ?_⟩
      intro t p hp
      cases hp
  | find h =>
      refine hc.quiet _ _ hunderway rfl rfl (takes_snoc_of_op (by simp)) (by rw [h]; rfl) rfl
        (by rw [h]; rfl) le_rfl (fun _ _ h => by cases h; rfl) fun _ _ h => ?_
      cases h
      exact .inl rfl
  | miss h =>
      exact hc.quiet _ _ hunderway rfl rfl (takes_snoc_of_op (by simp)) (by rw [h]; rfl) rfl
        (by rw [h]; rfl) (Nat.le_succ _) (fun _ _ h => by cases h) fun _ _ h => by cases h
  | ignore h =>
      exact hc.quiet _ _ hunderway rfl rfl (takes_snoc_of_op (by simp)) (by rw [h]; rfl) rfl
        (by rw [h]; rfl) le_rfl (fun _ _ h => by cases h) fun _ _ _ => .inr rfl
  | @clock _ b m h =>
      refine hc.quiet c.phase c.empty hunderway rfl rfl
        (hc.takes_eq (by simp [h]) (by simp [h])) (by rw [h]; rfl) (by rw [h]; rfl) le_rfl le_rfl
        (fun t p hp => ?_) fun _ _ h => by cases h
      rw [h] at hp
      cases hp
  | outside h he => exact hc.outside h he
  | take h => exact hc.take h hunderway
  | spawn h => exact hc.spawn h hunderway
  | finish h => exact hc.finish h hunderway
  | answer h => exact hc.answer hb h hunderway

/-! ### All callers together -/

/-- The caller has an answer: it found it, measured it, or is owed a second one for it. -/
def Phase.answered : Phase → Bool
  | .found _ _ | .holding _ _ | .free true | .asking true => true
  | _ => false

/-- Some caller measured, on an empty cache, an answer that never got kubectl started. -/
def AnyFailed (g : ι → Caller) : Prop := ∃ j, 1 ≤ (g j).failed

/-- The books of the callers, summed, are what the trace of the whole run says, and an
answer that never got kubectl started is one that somebody measured. -/
structure Tally [Fintype ι] (cfg : Settings) (w : Shared) (tr : List (ι × Event sig))
    (g : ι → Caller) : Prop where
  balanced : ∀ i, Balanced (g i)
  underway : ∀ i, Underway (g i)
  empty : emptyLooks (tr.map Prod.snd) = ∑ i, (g i).empty
  starts : probeStarts cfg (tr.map Prod.snd) = ∑ i, (g i).spawned.length
  cached : ∀ i, (g i).phase.answered = true → w.probe ≠ none
  unstarted : ∀ t p, w.probe = some (t, p) → p.started = false → AnyFailed g
  found : ∀ i t p, (g i).phase = .found t p → p.started = false → AnyFailed g
  taken : ∀ i, 1 ≤ (g i).taken → AnyFailed g

omit [DecidableEq ι] in
theorem tally_start [Fintype ι] {w : Shared} (hw : w.probe = none) :
    Tally cfg w [] (fun _ : ι => {}) where
  balanced := fun _ => balanced_start
  underway := fun _ b h => by rcases h with h | h <;> cases h
  empty := by simp [emptyLooks]
  starts := by simp [probeStarts]
  cached := fun _ h => by cases h
  unstarted := fun t p h => by rw [hw] at h; cases h
  found := fun _ _ _ h => by cases h
  taken := fun _ h => absurd h (by decide)

theorem AnyFailed.update {g : ι → Caller} (h : AnyFailed g) {i : ι} {c : Caller}
    (hc : (g i).failed ≤ c.failed) : AnyFailed (Function.update g i c) := by
  obtain ⟨j, hj⟩ := h
  by_cases hij : j = i
  · subst hij
    exact ⟨j, by simpa using le_trans hj hc⟩
  · exact ⟨j, by simpa [hij] using hj⟩

theorem sum_update [Fintype ι] {g : ι → Caller} (f : Caller → ℕ) {i : ι} {c : Caller} {n : ℕ}
    (h : f c = f (g i) + n) : ∑ j, f (Function.update g i c j) = ∑ j, f (g j) + n := by
  rw [← Finset.add_sum_erase _ _ (Finset.mem_univ i),
    ← Finset.add_sum_erase _ (fun j => f (g j)) (Finset.mem_univ i), Function.update_self, h]
  have hrest : ∑ j ∈ Finset.univ.erase i, f (Function.update g i c j) =
      ∑ j ∈ Finset.univ.erase i, f (g j) := by
    refine Finset.sum_congr rfl fun j hj => ?_
    rw [Function.update_of_ne (Finset.ne_of_mem_erase hj)]
  omega

theorem Moves.empty_eq (h : Moves cfg c e c')
    (hcached : c.phase.answered = true → e ≠ ⟨.getProbe, none⟩) :
    c'.empty = c.empty + if isEmptyLook e then 1 else 0 := by
  cases h with
  | miss h => rfl
  | @ignore _ r h =>
      cases r with
      | none => exact absurd rfl (hcached (by rw [h]; rfl))
      | some found => rfl
  | @outside _ b e h he =>
      obtain ⟨o, r⟩ := e
      cases o with
      | getProbe => exact he.elim
      | _ => rfl
  | _ => rfl

theorem Moves.spawned_eq (h : Moves cfg c e c') :
    c'.spawned.length = c.spawned.length + if isProbeStart cfg e then 1 else 0 := by
  cases h with
  | @spawn _ b r h => simp [isProbeStart]
  | @outside _ b e h he =>
      obtain ⟨o, r⟩ := e
      cases o with
      | spawn command =>
          have hne : command ≠ probeCommand cfg := he
          simp [isProbeStart, hne]
      | _ => rfl
  | _ => rfl

theorem Moves.failed_le (h : Moves cfg c e c') : c.failed ≤ c'.failed := by
  cases h with
  | answer h => exact Nat.le_add_right _ _
  | _ => exact le_rfl

theorem Moves.taken_eq (h : Moves cfg c e c') :
    c'.taken = c.taken ∨ ∃ t p, c.phase = .found t p ∧ p.started = false := by
  cases h with
  | @take _ t m p h =>
      cases hs : p.started with
      | true => exact .inl (by simp [unstarted, hs])
      | false => exact .inr ⟨t, p, h, hs⟩
  | _ => exact .inl rfl

/-- A caller that comes to have an answer has found or cached it, or had it already. -/
theorem Moves.answered_eq (h : Moves cfg c e c') (hanswered : c'.phase.answered = true) :
    c.phase.answered = true ∨ (∃ t p, e = ⟨.getProbe, some (t, p)⟩) ∨
      ∃ t p, e = ⟨.setProbe t p, ()⟩ := by
  cases h with
  | @acquire _ b h =>
      rw [h]
      cases b with
      | false => cases hanswered
      | true => exact .inl rfl
  | @find _ t p h => exact .inr (.inl ⟨t, p, rfl⟩)
  | take h => exact .inl (by rw [h]; rfl)
  | @answer _ b t p h => exact .inr (.inr ⟨t, p, rfl⟩)
  | release h => exact .inl (by rw [h]; rfl)
  | clock h => exact .inl hanswered
  | outside h he => exact .inl hanswered
  | @spawn _ b r h => cases r <;> cases hanswered
  | _ => cases hanswered

theorem Moves.found_eq (h : Moves cfg c e c') {t : ℚ} {p : Probe} (hfound : c'.phase = .found t p) :
    c.phase = .found t p ∨ e = ⟨.getProbe, some (t, p)⟩ := by
  cases h with
  | find h =>
      cases hfound
      exact .inr rfl
  | clock h => exact .inl hfound
  | outside h he => exact .inl hfound
  | @spawn _ b r h => cases r <;> cases hfound
  | _ => cases hfound

/-- Only a measurement is put in the cache. -/
theorem Moves.of_setProbe {t : ℚ} {p : Probe} (h : Moves cfg c ⟨.setProbe t p, ()⟩ c') :
    ∃ b, c.phase = .ended b ∧ c'.failed = c.failed + if b then 0 else unstarted p := by
  cases h with
  | answer h => exact ⟨_, h, rfl⟩
  | outside h he => exact he.elim

/-- What an operation does to the cache. -/
def cacheAfter (w : Shared) : Op → Option (ℚ × Probe)
  | .setProbe t p => some (t, p)
  | _ => w.probe

theorem shared_probe {o : Op} {w w' : Shared} {r : Resp o} (h : shared o w r w') :
    w'.probe = cacheAfter w o := by
  cases o with
  | setProbe t p => rw [show w' = _ from h]; rfl
  | monotonic | acquireProbeLock | getProbe | getLastSuccess | getVersions => rw [h.2]; rfl
  | _ => rw [show w' = _ from h]; rfl

theorem cacheAfter_eq (w : Shared) (o : Op) :
    cacheAfter w o = w.probe ∨ ∃ t p, o = .setProbe t p ∧ cacheAfter w o = some (t, p) := by
  cases o with
  | setProbe t p => exact .inr ⟨t, p, rfl, rfl⟩
  | _ => exact .inl rfl

/-- An answer that never got kubectl started is counted as failed when it is stored, if no
caller had one before. -/
theorem Tally.anyFailed_of_setProbe [Fintype ι] {i : ι} {w : Shared} {tr : List (ι × Event sig)}
    {g : ι → Caller} {c : Caller} {t : ℚ} {p : Probe} (h : Tally cfg w tr g)
    (hmove : Moves cfg (g i) ⟨.setProbe t p, ()⟩ c) (hstarted : p.started = false) :
    AnyFailed (Function.update g i c) := by
  have hself : 1 ≤ c.failed → AnyFailed (Function.update g i c) :=
    fun hfailed => ⟨i, by simpa using hfailed⟩
  obtain ⟨b, hended, hfailed⟩ := hmove.of_setProbe
  cases b with
  | false => exact hself (by simp [hfailed, Deploy.unstarted, hstarted])
  | true =>
      -- a probe with more time was owed for an answer taken or measured before
      have hspawned : 1 ≤ (g i).spawned.count true :=
        List.count_pos_iff.mpr (h.underway i true (.inr hended))
      have hsecond := (h.balanced i).second
      rw [hended] at hsecond
      by_cases htaken : 1 ≤ (g i).taken
      · exact (h.taken i htaken).update hmove.failed_le
      · refine hself ?_
        simp only [Phase.owing] at hsecond
        omega

theorem Tally.step [Fintype ι] {i : ι} {o : Op} {w w' : Shared} {r : Resp o}
    {tr : List (ι × Event sig)} {g : ι → Caller} {c : Caller} (hE : shared o w r w')
    (hmove : Moves cfg (g i) ⟨o, r⟩ c) (h : Tally cfg w tr g) :
    Tally cfg w' (tr ++ [(i, ⟨o, r⟩)]) (Function.update g i c) := by
  have hlook : (g i).phase.answered = true → (⟨o, r⟩ : Event sig) ≠ ⟨.getProbe, none⟩ := by
    intro hanswered he
    cases he
    exact h.cached i hanswered hE.1.symm
  have hfind : ∀ t p, (⟨o, r⟩ : Event sig) = ⟨.getProbe, some (t, p)⟩ →
      w.probe = some (t, p) := by
    intro t p he
    cases he
    exact hE.1.symm
  have hprobe := shared_probe hE
  have hkept : w.probe ≠ none → w'.probe ≠ none := by
    intro hne
    rw [hprobe]
    rcases cacheAfter_eq w o with heq | ⟨t, p, -, heq⟩ <;> rw [heq]
    · exact hne
    · simp
  have hkeep : AnyFailed g → AnyFailed (Function.update g i c) :=
    fun hany => hany.update hmove.failed_le
  have hbalanced : Balanced c := hmove.balanced (h.balanced i)
  constructor
  · intro j
    by_cases hij : j = i
    · subst hij
      simpa using hbalanced
    · simpa [hij] using h.balanced j
  · intro j
    by_cases hij : j = i
    · subst hij
      simpa using hmove.underway (h.underway j)
    · simpa [hij] using h.underway j
  · rw [sum_update Caller.empty (hmove.empty_eq hlook), ← h.empty]
    simp [emptyLooks]
  · rw [sum_update (fun c => c.spawned.length) hmove.spawned_eq, ← h.starts]
    simp [probeStarts]
  · intro j hanswered
    by_cases hij : j = i
    · subst hij
      rw [Function.update_self] at hanswered
      rcases hmove.answered_eq hanswered with hold | ⟨t, p, he⟩ | ⟨t, p, he⟩
      · exact hkept (h.cached j hold)
      · exact hkept (by simp [hfind t p he])
      · cases he
        simp [hprobe, cacheAfter]
    · rw [Function.update_of_ne hij] at hanswered
      exact hkept (h.cached j hanswered)
  · intro t p hcache hstarted
    rcases cacheAfter_eq w o with heq | ⟨t', p', rfl, heq⟩
    · -- the cache is as it was
      exact hkeep (h.unstarted t p (by rw [← heq, ← hprobe, hcache]) hstarted)
    · obtain ⟨rfl, rfl⟩ : t' = t ∧ p' = p := by
        rw [hprobe, heq] at hcache
        simpa using hcache
      exact h.anyFailed_of_setProbe hmove hstarted
  · intro j t p hfound hstarted
    by_cases hij : j = i
    · subst hij
      rw [Function.update_self] at hfound
      rcases hmove.found_eq hfound with hold | he
      · exact hkeep (h.found j t p hold hstarted)
      · exact hkeep (h.unstarted t p (hfind t p he) hstarted)
    · rw [Function.update_of_ne hij] at hfound
      exact hkeep (h.found j t p hfound hstarted)
  · intro j htaken
    by_cases hij : j = i
    · subst hij
      rw [Function.update_self] at htaken
      rcases hmove.taken_eq with heq | ⟨t, p, hfound, hstarted⟩
      · exact hkeep (h.taken j (heq ▸ htaken))
      · exact hkeep (h.found j t p hfound hstarted)
    · rw [Function.update_of_ne hij] at htaken
      exact hkeep (h.taken j htaken)

end NfOrchestrator.Deploy
