import Mathlib.Tactic.IntervalCases
import Mathlib.Tactic.NormNum
import NfOrchestrator.Effects.Trace
import NfOrchestrator.Metrics.Admission

/-!
# NfOrchestrator.Metrics.Waves

**How the waves go.** The calls `waves` makes are those of some waves, one after the other
(`Wave.events`), with the readings of the clock it goes by. `Waved` says which waves these
can be, and `traces_waves` that there are no others. What the admission promises follows
from it (`Admission`): the size of each wave, what a wave waits for before it is started,
that no more than `SCRAPE_WORKERS` reconciles are under way at once, and that none is
refused without one of these reasons.
-/

namespace NfOrchestrator.Metrics

open Deploy Reconciler

/-! ### One wave -/

/-- The pods a release is reconciled with. -/
def given (pods : Option PodsByRelease) (name : String) : Option (List PodState) :=
  pods.map fun p => podsFor p name

/-- One wave: its members, the readings of the clock around it, and of how many of its
futures, in their order, it was found that they are done. -/
structure Wave where
  members : List String
  checked : ℚ
  began : ℚ
  submitted : ℚ
  ended : ℚ
  found : ℕ

/-- The time a wave took. -/
def Wave.cost (w : Wave) : ℚ := w.ended - w.began

/-- Every future of the wave was found to be done. -/
def Wave.Complete (w : Wave) : Prop := w.found = w.members.length

def clockEvent (now : ℚ) : Event sig := ⟨.inl .monotonic, now⟩

def submitEvent (pods : Option PodsByRelease) (name : String) : Event sig :=
  ⟨.inr (.submit name (given pods name)), true⟩

def doneEvent (pods : Option PodsByRelease) (done : Bool) (name : String) : Event sig :=
  ⟨.inr (.done name (given pods name)), done⟩

def waitEvent (names : List String) (timeout : ℚ) : Event sig := ⟨.inr (.wait names timeout), ()⟩

/-- Asking for each of the futures, up to the first that is not done. -/
def doneEvents (pods : Option PodsByRelease) : List String → ℕ → List (Event sig)
  | [], _ => []
  | name :: _, 0 => [doneEvent pods false name]
  | name :: rest, found + 1 => doneEvent pods true name :: doneEvents pods rest found

/-- The calls of one wave. -/
def Wave.events (pods : Option PodsByRelease) (deadline : ℚ) (w : Wave) : List (Event sig) :=
  [clockEvent w.checked, clockEvent w.began] ++ w.members.map (submitEvent pods) ++
    [clockEvent w.submitted, waitEvent w.members (max 0 (deadline - w.submitted)),
      clockEvent w.ended] ++ doneEvents pods w.members w.found

/-- The budget is spent, or shorter than the last wave took. -/
def Spent (deadline cost now : ℚ) : Prop :=
  deadline - now ≤ 0 ∨ (cost ≠ 0 ∧ deadline - now < cost)

/-- The waves for a queue, from a wave of this size on and after one that took this long, and
what is left of the queue. -/
inductive Waved (cfg : Settings) (pods : Option PodsByRelease) (deadline : ℚ) :
    ℕ+ → ℚ → List String → List (Event sig) → List Wave → List String → Prop
  | emptied {size : ℕ+} {cost : ℚ} : Waved cfg pods deadline size cost [] [] [] []
  | spent {size : ℕ+} {cost now : ℚ} {queue : List String} (hqueue : queue ≠ [])
      (hspent : Spent deadline cost now) :
      Waved cfg pods deadline size cost queue [clockEvent now] [] queue
  | unfinished {size : ℕ+} {cost : ℚ} {queue : List String} {w : Wave} (hqueue : queue ≠ [])
      (hroom : ¬Spent deadline cost w.checked) (hmembers : w.members = queue.take size)
      (hfound : w.found < w.members.length) :
      Waved cfg pods deadline size cost queue (w.events pods deadline) [w] (queue.drop size)
  | next {size : ℕ+} {cost : ℚ} {queue left : List String} {tr : List (Event sig)} {w : Wave}
      {ws : List Wave} (hqueue : queue ≠ []) (hroom : ¬Spent deadline cost w.checked)
      (hmembers : w.members = queue.take size) (hfound : w.Complete)
      (hrest : Waved cfg pods deadline (min (size * 2) (scrapeWorkers cfg)) w.cost
        (queue.drop size) tr ws left) :
      Waved cfg pods deadline size cost queue (w.events pods deadline ++ tr) (w :: ws) left

/-! ### The traces of the waves -/

/-- Every thread that was wanted could be started. -/
def Submits (tr : List (Event sig)) : Prop :=
  ∀ name pods, (⟨.inr (.submit name pods), false⟩ : Event sig) ∉ tr

theorem Submits.append {tr tr' : List (Event sig)} :
    Submits (tr ++ tr') ↔ Submits tr ∧ Submits tr' := by
  constructor
  · intro h
    refine ⟨fun name pods hmem => h name pods ?_, fun name pods hmem => h name pods ?_⟩
    · exact List.mem_append_left _ hmem
    · exact List.mem_append_right _ hmem
  · rintro ⟨h, h'⟩ name pods hmem
    rcases List.mem_append.mp hmem with hmem | hmem
    · exact h name pods hmem
    · exact h' name pods hmem

theorem traces_clock_bind {β : Type} {f : ℚ → Scrape β} {tr : List (Event sig)}
    {x : Except Exc β} :
    (engine monotonic >>= f).Traces tr x ↔
      ∃ now tr', tr = clockEvent now :: tr' ∧ (f now).Traces tr' x := Iff.rfl

theorem traces_perform_bind {β : Type} {o : Op} {f : Resp o → Scrape β} {tr : List (Event sig)}
    {x : Except Exc β} :
    (perform o >>= f).Traces tr x ↔
      ∃ r tr', tr = ⟨.inr o, r⟩ :: tr' ∧ (f r).Traces tr' x := Iff.rfl

/-- The futures of a wave all of whose threads could be started. -/
def waveFutures (pods : Option PodsByRelease) (names : List String) : List (String × Future) :=
  names.map fun name => (name, .started name (given pods name))

theorem traces_submitAll {pods : Option PodsByRelease} {names : List String}
    {batch : List (String × Future)} {tr : List (Event sig)}
    {x : Except Exc (List (String × Future))} (hnodup : (batch.map Prod.fst ++ names).Nodup)
    (h : (submitAll pods batch names).Traces tr x) (hsubmits : Submits tr) :
    tr = names.map (submitEvent pods) ∧ x = .ok (batch ++ waveFutures pods names) := by
  induction names generalizing batch tr with
  | nil =>
      obtain ⟨rfl, rfl⟩ := h
      exact ⟨rfl, by simp [waveFutures]⟩
  | cons name rest ih =>
      have hname : name ∉ batch.map Prod.fst := by
        intro hmem
        exact (List.nodup_append.mp hnodup).2.2 _ hmem _ (by simp) rfl
      obtain ⟨started, tr', rfl, h⟩ := h
      cases started with
      | false => exact absurd List.mem_cons_self (hsubmits name (given pods name))
      | true =>
          have hnext : (submitAll pods (setItem batch name (.started name (given pods name)))
              rest).Traces tr' x := h
          rw [setItem_fresh hname] at hnext
          obtain ⟨rfl, rfl⟩ := ih (by simpa using hnodup) hnext
            fun name pods hmem => hsubmits name pods (List.mem_cons_of_mem _ hmem)
          exact ⟨rfl, by simp [waveFutures]⟩

theorem traces_allDone {pods : Option PodsByRelease} {names : List String}
    {tr : List (Event sig)} {x : Except Exc Bool}
    (h : (allDone ((waveFutures pods names).map Prod.snd)).Traces tr x) :
    ∃ found, tr = doneEvents pods names found ∧
      (found = names.length ∧ x = .ok true ∨ found < names.length ∧ x = .ok false) := by
  induction names generalizing tr with
  | nil =>
      obtain ⟨rfl, rfl⟩ := h
      exact ⟨0, rfl, .inl ⟨rfl, rfl⟩⟩
  | cons name rest ih =>
      obtain ⟨done, tr', rfl, h⟩ := h
      cases done with
      | false =>
          obtain ⟨rfl, rfl⟩ := h
          exact ⟨0, rfl, .inr ⟨Nat.succ_pos _, rfl⟩⟩
      | true =>
          obtain ⟨found, rfl, hfound⟩ := ih h
          refine ⟨found + 1, rfl, ?_⟩
          simpa using hfound

variable {cfg : Settings} {pods : Option PodsByRelease} {deadline : ℚ}

theorem keys_waveFutures (pods : Option PodsByRelease) (names : List String) :
    (waveFutures pods names).map Prod.fst = names := by
  rw [waveFutures, List.map_map]
  exact List.map_id names

/-- The calls of one turn of the loop are those of a wave, and the calls that follow it. -/
theorem traces_wave {β : Type} {names : List String} {checked : ℚ} {tr : List (Event sig)}
    {x : Except Exc β} {f : List (String × Future) → ℚ → ℚ → Bool → Scrape β}
    (hnodup : names.Nodup)
    (h : (do
      let started ← engine monotonic
      let batch ← submitAll pods [] names
      let now ← engine monotonic
      let _ ← perform (.wait (batch.map Prod.fst) (max 0 (deadline - now)))
      let ended ← engine monotonic
      let done ← allDone (batch.map Prod.snd)
      f batch started ended done : Scrape β).Traces tr x) (hsubmits : Submits tr) :
    ∃ (w : Wave) (tr' : List (Event sig)),
      clockEvent checked :: tr = w.events pods deadline ++ tr' ∧ w.members = names ∧
        w.checked = checked ∧
        (w.Complete ∧ (f (waveFutures pods names) w.began w.ended true).Traces tr' x ∨
          w.found < w.members.length ∧
            (f (waveFutures pods names) w.began w.ended false).Traces tr' x) := by
  -- the calls in their order: clock, submits, clock, wait, clock, and who is done
  obtain ⟨began, tr, rfl, hsubmit⟩ := traces_clock_bind.mp h
  have hsubmits : Submits tr := (@Submits.append [clockEvent began] _).mp hsubmits |>.2
  obtain ⟨batch, tr₁, tr, rfl, hsubmit, hsubmitted⟩ | ⟨e, hsubmit, -⟩ :=
    Prog.traces_bind.mp hsubmit
  · obtain ⟨rfl, hok⟩ := traces_submitAll (by simpa using hnodup) hsubmit
      (Submits.append.mp hsubmits).1
    obtain rfl := Except.ok.inj hok
    obtain ⟨submitted, tr, rfl, hwait⟩ := traces_clock_bind.mp hsubmitted
    obtain ⟨⟨⟩, tr, rfl, hwaited⟩ := traces_perform_bind.mp hwait
    obtain ⟨ended, tr, rfl, hended⟩ := traces_clock_bind.mp hwaited
    obtain ⟨done, tr₂, tr, rfl, hdone, hrest⟩ | ⟨e, hdone, -⟩ := Prog.traces_bind.mp hended
    · obtain ⟨found, rfl, hfound⟩ := traces_allDone hdone
      refine ⟨⟨names, checked, began, submitted, ended, found⟩, tr, ?_, rfl, rfl, ?_⟩
      · have hwaited : ∀ timeout, waitEvent ((waveFutures pods names).map Prod.fst) timeout =
            waitEvent names timeout := fun timeout =>
          congrArg (waitEvent · timeout) (keys_waveFutures pods names)
        simp only [Wave.events, ← hwaited]
        simp [waitEvent]
      · rcases hfound with ⟨hfound, hok⟩ | ⟨hfound, hok⟩
        · obtain rfl := Except.ok.inj hok
          exact .inl ⟨hfound, hrest⟩
        · obtain rfl := Except.ok.inj hok
          exact .inr ⟨hfound, hrest⟩
    · obtain ⟨found, -, ⟨-, hok⟩ | ⟨-, hok⟩⟩ := traces_allDone hdone
      · cases hok
      · cases hok
  · obtain ⟨-, hok⟩ := traces_submitAll (by simpa using hnodup) hsubmit hsubmits
    cases hok

/-- What the loop calls are waves, and its futures are those of their members. -/
theorem traces_waves {size : ℕ+} {cost : ℚ} {futures : List (String × Future)}
    {queue : List String} {tr : List (Event sig)}
    {x : Except Exc (List (String × Future) × List String)}
    (hnodup : (futures.map Prod.fst ++ queue).Nodup)
    (h : (waves cfg pods deadline size cost futures queue).Traces tr x) (hsubmits : Submits tr) :
    ∃ ws left, Waved cfg pods deadline size cost queue tr ws left ∧
      x = .ok (futures ++ waveFutures pods (ws.flatMap Wave.members), left) := by
  -- by the recursion of the loop; the names of a wave are new among the futures
  induction size, cost, futures, queue using (waves.induct cfg) generalizing tr with
  | case1 size cost futures =>
      rw [waves] at h
      obtain ⟨rfl, rfl⟩ := h
      exact ⟨[], [], .emptied, by simp [waveFutures]⟩
  | case2 size cost futures name rest queue =>
      rename_i ih
      rw [waves] at h
      obtain ⟨checked, tr, rfl, hloop⟩ := traces_clock_bind.mp h
      dsimp only at hloop
      split_ifs at hloop with hspent
      · obtain ⟨rfl, rfl⟩ := hloop
        exact ⟨[], name :: rest, .spent (by simp) hspent, by simp [waveFutures]⟩
      have hfresh : (futures.map Prod.fst ++
          (waveFutures pods (queue.take size)).map Prod.fst).Nodup := by
        rw [keys_waveFutures]
        exact hnodup.sublist ((List.take_sublist _ _).append_left _)
      have hmembers : (queue.take size).Nodup :=
        (hnodup.sublist (List.sublist_append_right _ _)).sublist (List.take_sublist _ _)
      have hafter := (@Submits.append [clockEvent checked] _).mp hsubmits |>.2
      obtain ⟨w, tr', htr, hw, rfl, ⟨hfound, hnext⟩ | ⟨hfound, hnext⟩⟩ :=
        @traces_wave pods deadline _ _ checked _ _ _ hmembers hloop hafter
      · rw [if_pos rfl] at hnext
        rw [htr] at hsubmits ⊢
        have hrest : ((update futures (waveFutures pods (queue.take size))).map Prod.fst ++
            queue.drop size).Nodup := by
          rw [update_fresh hfresh, List.map_append, keys_waveFutures, List.append_assoc,
            List.take_append_drop]
          exact hnodup
        obtain ⟨ws, left, hwaved, rfl⟩ := ih _ _ _ hrest hnext (Submits.append.mp hsubmits).2
        refine ⟨w :: ws, left, .next (by simp) hspent hw hfound hwaved, ?_⟩
        rw [update_fresh hfresh, List.flatMap_cons, hw]
        simp [waveFutures, queue]
      · obtain ⟨rfl, rfl⟩ := hnext
        rw [htr, List.append_nil, update_fresh hfresh]
        refine ⟨[w], _, .unfinished (by simp) hspent hw hfound, by simp [hw]⟩

/-! ### What follows for the waves -/

section waved

variable {size : ℕ+} {cost : ℚ} {queue left : List String} {tr : List (Event sig)}
  {ws : List Wave}

/-- The waves are a beginning of the queue, in its order. -/
theorem Waved.names_eq (h : Waved cfg pods deadline size cost queue tr ws left) :
    ws.flatMap Wave.members ++ left = queue := by
  induction h with
  | emptied => rfl
  | spent => rfl
  | unfinished hqueue hroom hmembers hfound => simp [hmembers]
  | next hqueue hroom hmembers hfound hrest ih =>
      rw [List.flatMap_cons, List.append_assoc, ih, hmembers, List.take_append_drop]

theorem Waved.eq_nil (h : Waved cfg pods deadline size cost [] tr ws left) : ws = [] := by
  cases h with
  | emptied => rfl
  | spent => rfl
  | unfinished hqueue => exact absurd rfl hqueue
  | next hqueue => exact absurd rfl hqueue

/-- The most members a wave may have after these. -/
def capacity (W size : ℕ) (before : List Wave) : ℕ :=
  match before.getLast? with
  | none => size
  | some v => min (2 * v.members.length) W

theorem coe_min_pnat (a b : ℕ+) : ((min a b : ℕ+) : ℕ) = min (a : ℕ) b := by
  rcases le_total a b with h | h
  · rw [min_eq_left h, min_eq_left (PNat.coe_le_coe a b |>.mpr h)]
  · rw [min_eq_right h, min_eq_right (PNat.coe_le_coe b a |>.mpr h)]

/-- The size the loop goes on with. -/
theorem nextSize_eq (size : ℕ+) :
    ((min (size * 2) (scrapeWorkers cfg) : ℕ+) : ℕ) = min (2 * (size : ℕ)) cfg.scrapeWorkers := by
  rw [coe_min_pnat, PNat.mul_coe, mul_comm]
  rfl

/-- A wave is as large as it may be, unless the queue ends. -/
theorem Waved.size_eq (h : Waved cfg pods deadline size cost queue tr ws left)
    {before after : List Wave} {w : Wave} (hws : ws = before ++ w :: after) :
    w.members.length =
      min (capacity cfg.scrapeWorkers size before)
        (queue.length - (before.flatMap Wave.members).length) := by
  induction h generalizing before with
  | emptied => simp at hws
  | spent => simp at hws
  | unfinished hqueue hroom hmembers hfound =>
      cases before with
      | nil =>
          obtain ⟨rfl, rfl⟩ := List.cons.inj hws
          simp [hmembers, capacity]
      | cons v before => simp at hws
  | @next size cost queue left tr v ws hqueue hroom hmembers hfound hrest ih =>
      cases before with
      | nil =>
          obtain ⟨rfl, rfl⟩ := List.cons.inj hws
          simp [hmembers, capacity]
      | cons v' before =>
          obtain ⟨rfl, hafter⟩ := List.cons.inj hws
          -- There is a further wave, so this one was not cut short by the end of the queue.
          have hmore : (size : ℕ) < queue.length := by
            by_contra hle
            rw [List.drop_eq_nil_of_le (by omega)] at hrest
            rw [hrest.eq_nil] at hafter
            simp at hafter
          have hfull : v.members.length = size := by
            rw [hmembers, List.length_take]
            omega
          have hcapacity : capacity cfg.scrapeWorkers (min (size * 2) (scrapeWorkers cfg) : ℕ+)
              before = capacity cfg.scrapeWorkers size (v :: before) := by
            cases hlast : before.getLast? with
            | none => simp [capacity, List.getLast?_cons, hlast, hfull, nextSize_eq]
            | some u => simp [capacity, List.getLast?_cons, hlast]
          rw [ih hafter, hcapacity, List.flatMap_cons, List.length_append, List.length_drop, hfull,
            Nat.sub_sub]

/-- What the last of these waves took, or else what was known before them. -/
def costAfter (cost : ℚ) (before : List Wave) : ℚ := (before.getLast?.map Wave.cost).getD cost

theorem costAfter_cons (cost : ℚ) (w : Wave) (ws : List Wave) :
    costAfter cost (w :: ws) = costAfter w.cost ws := by
  cases h : ws.getLast? with
  | none => simp [costAfter, List.getLast?_cons, h]
  | some v => simp [costAfter, List.getLast?_cons, h]

/-- Each wave was started with the budget not spent, and after complete waves only. -/
theorem Waved.gate (h : Waved cfg pods deadline size cost queue tr ws left)
    {before after : List Wave} {w : Wave} (hws : ws = before ++ w :: after) :
    ¬Spent deadline (costAfter cost before) w.checked ∧ ∀ v ∈ before, v.Complete := by
  induction h generalizing before with
  | emptied => simp at hws
  | spent => simp at hws
  | unfinished hqueue hroom hmembers hfound =>
      cases before with
      | nil =>
          obtain ⟨rfl, rfl⟩ := List.cons.inj hws
          exact ⟨hroom, by simp⟩
      | cons v before => simp at hws
  | @next size cost queue left tr v ws hqueue hroom hmembers hfound hrest ih =>
      cases before with
      | nil =>
          obtain ⟨rfl, rfl⟩ := List.cons.inj hws
          exact ⟨hroom, by simp⟩
      | cons v' before =>
          obtain ⟨rfl, hafter⟩ := List.cons.inj hws
          obtain ⟨hspent, hcomplete⟩ := ih hafter
          rw [costAfter_cons]
          exact ⟨hspent, List.forall_mem_cons.mpr ⟨hfound, hcomplete⟩⟩

/-- The calls are those of the waves, and then one look at the budget when it was spent. If
that did not leave the rest of the queue, the last wave did, being unfinished. -/
theorem Waved.trace_eq (h : Waved cfg pods deadline size cost queue tr ws left) :
    ∃ last : Option ℚ,
      tr = ws.flatMap (Wave.events pods deadline) ++ last.toList.map clockEvent ∧
        (left ≠ [] → (∃ w, ws.getLast? = some w ∧ w.found < w.members.length) ∨
          ∃ now, last = some now ∧ Spent deadline (costAfter cost ws) now) := by
  induction h with
  | emptied => exact ⟨none, rfl, fun hleft => absurd rfl hleft⟩
  | @spent size cost now queue hqueue hspent =>
      exact ⟨some now, rfl, fun _ => .inr ⟨now, rfl, hspent⟩⟩
  | @unfinished size cost queue w hqueue hroom hmembers hfound =>
      exact ⟨none, by simp, fun _ => .inl ⟨w, rfl, hfound⟩⟩
  | @next size cost queue left tr w ws hqueue hroom hmembers hfound hrest ih =>
      obtain ⟨last, rfl, hleft⟩ := ih
      refine ⟨last, by simp, fun hne => ?_⟩
      rcases hleft hne with ⟨v, hlast, hv⟩ | ⟨now, rfl, hspent⟩
      · exact .inl ⟨v, by simp [List.getLast?_cons, hlast], hv⟩
      · exact .inr ⟨now, rfl, costAfter_cons cost w ws ▸ hspent⟩

theorem length_doneEvents (pods : Option PodsByRelease) (names : List String) (found : ℕ) :
    (doneEvents pods names found).length ≤ names.length := by
  induction names generalizing found with
  | nil => simp [doneEvents]
  | cons name rest ih =>
      cases found with
      | zero => simp [doneEvents]
      | succ found =>
          have hrest := ih found
          simp only [doneEvents, List.length_cons]
          omega

theorem Wave.length_events (pods : Option PodsByRelease) (deadline : ℚ) (w : Wave) :
    (w.events pods deadline).length ≤ 2 * w.members.length + 5 := by
  have hdone := length_doneEvents pods w.members w.found
  simp only [Wave.events, List.length_append, List.length_cons, List.length_nil, List.length_map]
  omega

/-- Each wave starts something, so there are no more calls than this. -/
theorem Waved.length_le (h : Waved cfg pods deadline size cost queue tr ws left) :
    tr.length ≤ 7 * queue.length + 1 := by
  induction h with
  | emptied => simp
  | spent => simp
  | @unfinished size cost queue w hqueue hroom hmembers hfound =>
      have hevents := w.length_events pods deadline
      have hlength : w.members.length ≤ queue.length := by
        rw [hmembers, List.length_take]
        omega
      have hpos := List.length_pos_iff.mpr hqueue
      omega
  | @next size cost queue left tr w ws hqueue hroom hmembers hfound hrest ih =>
      have hevents := w.length_events pods deadline
      have hpos := List.length_pos_iff.mpr hqueue
      have hsize := size.pos
      rw [List.length_drop] at ih
      have hlength : w.members.length = min (size : ℕ) queue.length := by
        rw [hmembers, List.length_take]
      rw [List.length_append]
      omega

end waved

/-! ### Reconciles under way -/

/-- The reconciles that calls have started, in their order. -/
def startedIn (tr : List (Event sig)) : List Job :=
  tr.filterMap fun e =>
    match e with
    | ⟨.inr (.submit name pods), true⟩ => some (name, pods)
    | _ => none

/-- Which reconciles have finished when the calls so far have been made: none stops being
finished, and a future says that it is done when its reconcile has. -/
structure Completes (tr : List (Event sig)) (finished : ℕ → Job → Bool) : Prop where
  keep : ∀ i j job, i ≤ j → finished i job = true → finished j job = true
  done : ∀ i name pods r, tr[i]? = some ⟨.inr (.done name pods), r⟩ → finished i (name, pods) = r

/-- The reconciles that are under way after so many calls. -/
def underway (tr : List (Event sig)) (finished : ℕ → Job → Bool) (i : ℕ) : List Job :=
  (startedIn (tr.take i)).filter fun job => !finished i job

theorem startedIn_append (tr tr' : List (Event sig)) :
    startedIn (tr ++ tr') = startedIn tr ++ startedIn tr' := List.filterMap_append

theorem startedIn_doneEvents (pods : Option PodsByRelease) (names : List String) (found : ℕ) :
    startedIn (doneEvents pods names found) = [] := by
  induction names generalizing found with
  | nil => rfl
  | cons name rest ih =>
      cases found with
      | zero => rfl
      | succ found => exact ih found

theorem startedIn_submitEvents (pods : Option PodsByRelease) (names : List String) :
    startedIn (names.map (submitEvent pods)) = names.map fun name => (name, given pods name) := by
  induction names with
  | nil => rfl
  | cons name rest ih => exact congrArg ((name, given pods name) :: ·) ih

/-- A wave starts its members. -/
theorem startedIn_events (w : Wave) :
    startedIn (w.events pods deadline) = w.members.map fun name => (name, given pods name) := by
  have hbefore : startedIn [clockEvent w.checked, clockEvent w.began] = [] := rfl
  have hafter : startedIn [clockEvent w.submitted,
      waitEvent w.members (max 0 (deadline - w.submitted)), clockEvent w.ended] = [] := rfl
  simp only [Wave.events, startedIn_append, startedIn_submitEvents, startedIn_doneEvents, hbefore,
    hafter, List.nil_append, List.append_nil]

theorem Completes.append {tr tr' : List (Event sig)} {finished : ℕ → Job → Bool}
    (h : Completes (tr ++ tr') finished) :
    Completes tr finished ∧ Completes tr' fun i => finished (tr.length + i) := by
  refine ⟨⟨h.keep, fun i name pods r hi => h.done i name pods r ?_⟩,
    ⟨fun i j job hij => h.keep _ _ job (by omega), fun i name pods r hi => ?_⟩⟩
  · exact List.getElem?_append_left (List.getElem?_eq_some_iff.mp hi).1 ▸ hi
  · refine h.done _ name pods r ?_
    rw [List.getElem?_append_right (by omega)]
    simpa using hi

/-- What was once found to be done is finished from then on. -/
theorem Completes.of_mem {tr : List (Event sig)} {finished : ℕ → Job → Bool}
    (h : Completes tr finished) {name : String} (hmem : doneEvent pods true name ∈ tr) :
    finished tr.length (name, given pods name) = true := by
  obtain ⟨i, hi, htr⟩ := List.mem_iff_getElem.mp hmem
  refine h.keep i _ _ hi.le (h.done i name (given pods name) true ?_)
  rw [List.getElem?_eq_getElem hi, htr]
  rfl

theorem doneEvents_complete (pods : Option PodsByRelease) (names : List String) :
    doneEvents pods names names.length = names.map (doneEvent pods true) := by
  induction names with
  | nil => rfl
  | cons name rest ih => exact congrArg (doneEvent pods true name :: ·) ih

/-- The members of a complete wave have finished when its last call has been made. -/
theorem Completes.of_complete {w : Wave} {finished : ℕ → Job → Bool}
    (h : Completes (w.events pods deadline) finished) (hw : w.Complete) {name : String}
    (hname : name ∈ w.members) :
    finished (w.events pods deadline).length (name, given pods name) = true := by
  refine h.of_mem (List.mem_append_right _ ?_)
  rw [show w.found = w.members.length from hw, doneEvents_complete]
  exact List.mem_map_of_mem hname

/-- Within a wave only its members are under way. -/
theorem underway_events_le (w : Wave) (finished : ℕ → Job → Bool) (i : ℕ) :
    (underway (w.events pods deadline) finished i).length ≤ w.members.length := by
  have hearlier : (startedIn ((w.events pods deadline).take i)).length ≤
      (startedIn (w.events pods deadline)).length :=
    ((List.take_sublist i _).filterMap _).length_le
  rw [startedIn_events, List.length_map] at hearlier
  exact (List.length_filter_le _ _).trans hearlier

/-- After a complete wave, what is under way has been started since. -/
theorem underway_after {w : Wave} {tr : List (Event sig)} {finished : ℕ → Job → Bool}
    (hfinished : Completes (w.events pods deadline ++ tr) finished) (hw : w.Complete) (i : ℕ) :
    underway (w.events pods deadline ++ tr) finished ((w.events pods deadline).length + i) =
      underway tr (fun i => finished ((w.events pods deadline).length + i)) i := by
  have hdone : (startedIn (w.events pods deadline)).filter
      (fun job => !finished ((w.events pods deadline).length + i) job) = [] := by
    rw [startedIn_events, List.filter_eq_nil_iff]
    intro job hjob
    obtain ⟨name, hname, rfl⟩ := List.mem_map.mp hjob
    have hfirst := hfinished.append.1.of_complete hw hname
    simpa using hfinished.keep _ ((w.events pods deadline).length + i) _ (by omega) hfirst
  rw [underway, List.take_length_add_append, startedIn_append, List.filter_append, hdone]
  rfl

/-- No more reconciles are under way than a wave may have members. -/
theorem Waved.underway_le {size : ℕ+} {cost : ℚ} {queue left : List String}
    {tr : List (Event sig)} {ws : List Wave} {finished : ℕ → Job → Bool}
    (h : Waved cfg pods deadline size cost queue tr ws left)
    (hsize : (size : ℕ) ≤ cfg.scrapeWorkers) (hfinished : Completes tr finished) (i : ℕ) :
    (underway tr finished i).length ≤ cfg.scrapeWorkers := by
  induction h generalizing finished i with
  | emptied => simp [underway, startedIn]
  | @spent size cost now queue hqueue hspent =>
      have hnone : startedIn ([clockEvent now].take i) = [] := by
        cases i with
        | zero => rfl
        | succ i => simp [startedIn, clockEvent]
      simp [underway, hnone]
  | @unfinished size cost queue w hqueue hroom hmembers hfound =>
      have hwave := @underway_events_le pods deadline w finished i
      rw [hmembers, List.length_take] at hwave
      omega
  | @next size cost queue left tr w ws hqueue hroom hmembers hfound hrest ih =>
      rcases Nat.lt_or_ge i (w.events pods deadline).length with hi | hi
      · have hwave := @underway_events_le pods deadline w finished i
        rw [hmembers, List.length_take] at hwave
        rw [underway, List.take_append_of_le_length hi.le]
        exact hwave.trans (by omega)
      · obtain ⟨j, rfl⟩ := Nat.exists_eq_add_of_le hi
        rw [underway_after hfinished hfound]
        refine ih ?_ hfinished.append.2 j
        rw [nextSize_eq]
        exact min_le_right _ _

/-! ### What the admission promises -/

def shutdownEvent : Event sig := ⟨.inr .shutdown, ()⟩

/-- The calls are those of these waves, which are a beginning of the listed names. -/
structure Admission (cfg : Settings) (pods : Option PodsByRelease) (deadline : ℚ)
    (names : List String) (finished : ℕ → Job → Bool) (tr : List (Event sig)) (ws : List Wave)
    (last : Option ℚ) (left : List String) : Prop where
  names_eq : ws.flatMap Wave.members ++ left = names
  started : startedIn tr = (ws.flatMap Wave.members).map fun name => (name, given pods name)
  /-- The readings kept of a wave are those the calls got. -/
  trace_eq : tr = ws.flatMap (Wave.events pods deadline) ++ last.toList.map clockEvent ++
    [shutdownEvent]
  size : ∀ before w after, ws = before ++ w :: after →
    w.members.length = min (capacity cfg.scrapeWorkers (min 2 cfg.scrapeWorkers) before)
      (names.length - (before.flatMap Wave.members).length)
  /-- A wave begins with some of the budget left, when the one before it has finished, and
  with no less of the budget than that one took. -/
  gate : ∀ before w after, ws = before ++ w :: after → 0 < deadline - w.checked ∧
    ∀ v, before.getLast? = some v → v.cost ≤ deadline - w.checked ∧
      ∀ name ∈ v.members, finished (before.flatMap (Wave.events pods deadline)).length
        (name, given pods name) = true
  inFlight : ∀ i, (underway tr finished i).length ≤ cfg.scrapeWorkers
  /-- What is left was left for one of these reasons. -/
  refused : left ≠ [] →
    (∃ w, ws.getLast? = some w ∧ ∃ name ∈ w.members, ∃ i,
      tr[i]? = some (doneEvent pods false name) ∧ finished i (name, given pods name) = false) ∨
    ∃ now, last = some now ∧
      (deadline - now ≤ 0 ∨ ∃ w, ws.getLast? = some w ∧ deadline - now < w.cost)
  calls : tr.length ≤ 7 * names.length + 2

theorem foldl_setDefault_fresh {α : Type} {d : List (String × α)} {names : List String}
    (hnodup : (d.map Prod.fst ++ names).Nodup) (value : α) :
    names.foldl (fun d name => setDefault d name value) d =
      d ++ names.map fun name => (name, value) := by
  induction names generalizing d with
  | nil => simp
  | cons name rest ih =>
      have hname : name ∉ d.map Prod.fst := by
        intro hmem
        exact (List.nodup_append.mp hnodup).2.2 _ hmem _ (by simp) rfl
      rw [List.foldl_cons, setDefault_fresh hname, ih (by simpa using hnodup)]
      simp

/-- The futures of the waves, and one that is never started for each name left. -/
def futuresOf (pods : Option PodsByRelease) (ws : List Wave) (left : List String) :
    List (String × Future) :=
  waveFutures pods (ws.flatMap Wave.members) ++ left.map fun name => (name, .neverStarted)

theorem traces_reconcileWithin {names : List String} {tr : List (Event sig)}
    {x : Except Exc (List (String × Future))} (hnodup : names.Nodup)
    (h : (reconcileWithin cfg names pods deadline).Traces tr x) (hsubmits : Submits tr) :
    ∃ tr' ws left, tr = tr' ++ [shutdownEvent] ∧ x = .ok (futuresOf pods ws left) ∧
      Waved cfg pods deadline (min 2 (scrapeWorkers cfg)) 0 names tr' ws left := by
  have hnames : (([] : List (String × Future)).map Prod.fst ++ names).Nodup := hnodup
  rw [reconcileWithin] at h
  obtain ⟨⟨futures, queue⟩, tr', tr₂, rfl, hwaves, hshutdown⟩ | ⟨e, hwaves, -⟩ :=
    Prog.traces_bind.mp h
  · obtain ⟨ws, left, hwaved, hok⟩ := traces_waves hnames hwaves (Submits.append.mp hsubmits).1
    obtain ⟨rfl, rfl⟩ := Prod.mk.inj (Except.ok.inj hok)
    obtain ⟨⟨⟩, tr₃, rfl, rfl, hx⟩ := traces_perform_bind.mp hshutdown
    refine ⟨tr', ws, queue, rfl, ?_, hwaved⟩
    rw [hx, foldl_setDefault_fresh]
    · rfl
    · rw [List.nil_append, keys_waveFutures, hwaved.names_eq]
      exact hnodup
  · obtain ⟨ws, left, -, hx⟩ := traces_waves hnames hwaves hsubmits
    cases hx

theorem mem_doneEvents {names : List String} {found : ℕ} (h : found < names.length) :
    ∃ name ∈ names, doneEvent pods false name ∈ doneEvents pods names found := by
  induction names generalizing found with
  | nil => simp at h
  | cons name rest ih =>
      cases found with
      | zero => exact ⟨name, List.mem_cons_self, List.mem_cons_self⟩
      | succ found =>
          obtain ⟨other, hother, hmem⟩ := ih (Nat.lt_of_succ_lt_succ h)
          exact ⟨other, List.mem_cons_of_mem _ hother, List.mem_cons_of_mem _ hmem⟩

theorem startedIn_flatMap (ws : List Wave) :
    startedIn (ws.flatMap (Wave.events pods deadline)) =
      (ws.flatMap Wave.members).map fun name => (name, given pods name) := by
  induction ws with
  | nil => rfl
  | cons w ws ih =>
      rw [List.flatMap_cons, startedIn_append, startedIn_events, ih, List.flatMap_cons,
        List.map_append]

theorem startedIn_clock (last : Option ℚ) : startedIn (last.toList.map clockEvent) = [] := by
  cases last <;> rfl

theorem startedIn_shutdown (i : ℕ) : startedIn ([shutdownEvent].take i) = [] := by
  cases i with
  | zero => rfl
  | succ i => simp [startedIn, shutdownEvent]

/-- Shutting the pool down starts nothing. -/
theorem underway_shutdown (tr : List (Event sig)) (finished : ℕ → Job → Bool) (i : ℕ) :
    underway (tr ++ [shutdownEvent]) finished i = underway tr finished i := by
  rw [underway, List.take_append, startedIn_append, startedIn_shutdown, List.append_nil]
  rfl

theorem room_of_not_spent {cost now : ℚ} (h : ¬Spent deadline cost now) :
    0 < deadline - now ∧ cost ≤ deadline - now := by
  rw [Spent, not_or, not_le, not_and] at h
  refine ⟨h.1, ?_⟩
  by_cases hcost : cost = 0
  · exact hcost ▸ h.1.le
  · exact not_lt.mp (h.2 hcost)

theorem spent_cases {ws : List Wave} {now : ℚ} (h : Spent deadline (costAfter 0 ws) now) :
    deadline - now ≤ 0 ∨ ∃ w, ws.getLast? = some w ∧ deadline - now < w.cost := by
  rcases h with h | ⟨hcost, h⟩
  · exact .inl h
  · cases hlast : ws.getLast? with
    | none => exact absurd (by simp [costAfter, hlast]) hcost
    | some w => exact .inr ⟨w, rfl, by simpa [costAfter, hlast] using h⟩

/-- The members of complete waves have finished after them. -/
theorem Completes.of_waves {before : List Wave} {finished : ℕ → Job → Bool}
    (h : Completes (before.flatMap (Wave.events pods deadline)) finished) {v : Wave}
    (hv : v ∈ before) (hcomplete : v.Complete) {name : String} (hname : name ∈ v.members) :
    finished (before.flatMap (Wave.events pods deadline)).length (name, given pods name) =
      true := by
  refine h.of_mem (List.mem_flatMap.mpr ⟨v, hv, List.mem_append_right _ ?_⟩)
  rw [show v.found = v.members.length from hcomplete, doneEvents_complete]
  exact List.mem_map_of_mem hname

/-- What the calls of the loop say of its admission. -/
theorem admission_of_traces {names : List String} {tr : List (Event sig)}
    {x : Except Exc (List (String × Future))} {finished : ℕ → Job → Bool} (hnodup : names.Nodup)
    (h : (reconcileWithin cfg names pods deadline).Traces tr x) (hsubmits : Submits tr)
    (hfinished : Completes tr finished) :
    ∃ ws last left, x = .ok (futuresOf pods ws left) ∧
      Admission cfg pods deadline names finished tr ws last left := by
  obtain ⟨tr', ws, left, rfl, hx, hwaved⟩ := traces_reconcileWithin hnodup h hsubmits
  obtain ⟨last, rfl, hleft⟩ := hwaved.trace_eq
  have hwaves := hfinished.append.1
  refine ⟨ws, last, left, hx, hwaved.names_eq, ?_, rfl, ?_, ?_, ?_, ?_, ?_⟩
  · rw [startedIn_append, startedIn_append, startedIn_flatMap, startedIn_clock]
    exact (List.append_nil _).trans (List.append_nil _)
  · intro before w after hws
    have hsize := hwaved.size_eq hws
    rw [coe_min_pnat] at hsize
    exact hsize
  · intro before w after hws
    -- the wave passed the gate, and found each wave before it complete
    obtain ⟨hspent, hcomplete⟩ := hwaved.gate hws
    obtain ⟨hroom, hcost⟩ := room_of_not_spent hspent
    refine ⟨hroom, fun v hlast => ⟨?_, fun name hname => ?_⟩⟩
    · simpa [costAfter, hlast] using hcost
    · have hv := List.mem_of_getLast? hlast
      have hbefore := hwaves.append.1
      rw [hws, List.flatMap_append] at hbefore
      exact hbefore.append.1.of_waves hv (hcomplete v hv) hname
  · intro i
    rw [underway_shutdown]
    refine hwaved.underway_le ?_ hwaves i
    rw [coe_min_pnat]
    exact min_le_right _ _
  · intro hne
    rcases hleft hne with ⟨w, hlast, hfound⟩ | ⟨now, rfl, hspent⟩
    · obtain ⟨name, hname, hdone⟩ := @mem_doneEvents pods _ _ hfound
      have hmem : doneEvent pods false name ∈ ws.flatMap (Wave.events pods deadline) ++
          last.toList.map clockEvent ++ [shutdownEvent] := by
        refine List.mem_append_left _ (List.mem_append_left _ (List.mem_flatMap.mpr
          ⟨w, List.mem_of_getLast? hlast, List.mem_append_right _ hdone⟩))
      obtain ⟨i, hi, htr⟩ := List.mem_iff_getElem.mp hmem
      have hat := htr ▸ List.getElem?_eq_getElem hi
      exact .inl ⟨w, hlast, name, hname, i, hat, hfinished.done i name (given pods name) false hat⟩
    · exact .inr ⟨now, rfl, spent_cases hspent⟩
  · have hlength := hwaved.length_le
    rw [List.length_append, List.length_singleton]
    omega

/-- **Wave admission.** It ends wherever its calls are answered. Whatever the clock reads and
whenever the reconciles finish, the waves of a scrape are admitted safely, and none is refused
without a reason. The names are distinct, as those that `release_names` returns are. -/
theorem waves_admitted {names : List String} {tr : List (Event sig)}
    {x : Except Exc (List (String × Future))} {finished : ℕ → Job → Bool} (hnodup : names.Nodup)
    (h : (reconcileWithin cfg names pods deadline).Traces tr x) (hsubmits : Submits tr)
    (hfinished : Completes tr finished) :
    (∀ (W : Type) (E : Env sig W) (w : W), E.Total →
      ∃ x, (reconcileWithin cfg names pods deadline).Ends E w x) ∧
    ∃ ws last left, x = .ok (futuresOf pods ws left) ∧
      Admission cfg pods deadline names finished tr ws last left :=
  ⟨fun _ _ w hE => Prog.exists_ends hE _ w, admission_of_traces hnodup h hsubmits hfinished⟩

/-- Two releases, reconciled in one wave. -/
def twoReleases : Wave where
  members := ["amf", "smf"]
  checked := 0
  began := 0
  submitted := 0
  ended := 1
  found := 2

/-- The calls they take. -/
def oneWave : List (Event sig) := twoReleases.events none 4 ++ [shutdownEvent]

theorem oneWave_traces : (reconcileWithin defaultSettings twoReleases.members none 4).Traces oneWave
    (.ok (futuresOf none [twoReleases] [])) := by
  have hwaves : (waves defaultSettings none 4 (min 2 (scrapeWorkers defaultSettings)) 0 []
      twoReleases.members).Traces (twoReleases.events none 4)
        (.ok (futuresOf none [twoReleases] [], [])) := by
    have hroom : ¬((4 : ℚ) - 0 ≤ 0 ∨ (0 : ℚ) ≠ 0 ∧ (4 : ℚ) - 0 < 0) := by norm_num
    have hlast : (waves defaultSettings none 4 (min (min 2 (scrapeWorkers defaultSettings) * 2)
        (scrapeWorkers defaultSettings)) (1 - 0) (futuresOf none [twoReleases] []) []).Traces []
        (.ok (futuresOf none [twoReleases] [], [])) := by
      rw [waves]
      exact ⟨rfl, rfl⟩
    rw [twoReleases, waves]
    refine traces_clock_bind.mpr ⟨0, _, rfl, ?_⟩
    dsimp only
    rw [if_neg hroom]
    refine traces_clock_bind.mpr ⟨0, _, rfl, true, _, rfl, true, _, rfl, ?_⟩
    refine traces_clock_bind.mpr ⟨0, _, rfl, (), _, rfl, ?_⟩
    refine traces_clock_bind.mpr ⟨1, _, rfl, true, _, rfl, true, _, rfl, ?_⟩
    exact hlast
  exact hwaves.bind ⟨(), _, rfl, rfl, rfl⟩

theorem oneWave_submits : Submits oneWave := by
  intro name pods hmem
  obtain ⟨i, h⟩ := List.mem_iff_getElem?.mp hmem
  have hi : i < 10 := (List.getElem?_eq_some_iff.mp h).1
  interval_cases i <;> cases Option.some.inj h

theorem oneWave_completes : Completes oneWave fun i _ => decide (6 < i) := by
  refine ⟨fun i j _ hij h => ?_, fun i name pods r h => ?_⟩
  · simp only [decide_eq_true_eq] at h ⊢
    omega
  · have hi : i < 10 := (List.getElem?_eq_some_iff.mp h).1
    -- Only the seventh and the eighth call ask whether a future is done.
    interval_cases i <;>
      · have hevent := Option.some.inj h
        cases hevent <;> rfl

theorem waves_admitted_two :
    (∀ (W : Type) (E : Env sig W) (w : W), E.Total →
      ∃ x, (reconcileWithin defaultSettings twoReleases.members none 4).Ends E w x) ∧
    ∃ ws last left, (.ok (futuresOf none [twoReleases] []) : Except Exc _) =
        .ok (futuresOf none ws left) ∧
      Admission defaultSettings none 4 twoReleases.members (fun i _ => decide (6 < i)) oneWave ws
        last left := by
  exact waves_admitted (by decide) oneWave_traces oneWave_submits oneWave_completes

end NfOrchestrator.Metrics
