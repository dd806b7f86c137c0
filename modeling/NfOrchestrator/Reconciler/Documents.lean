import Mathlib.Data.List.Forall2
import Mathlib.Data.List.MinMax
import Mathlib.Data.List.ReduceOption
import NfOrchestrator.Reconciler.Reconcile

/-!
# NfOrchestrator.Reconciler.Documents

The **documents** helm and kubectl print, as what they say: a history is a list of
revisions (`Entry`), a listing a list of pods with their containers (`Pod`). A document
*reads as* such a list when the accessors the code uses find it there, whatever else
the document holds.

On documents that read, the untyped code of `Reconcile` never raises, and its results
are those of the typed functions here: the newest revision is an `argmax`, and the
state is `stateOf`.
-/

namespace NfOrchestrator

/-! ### Readings of lists -/

namespace Json

theorem getD_of_subscript {v w : Json} {key : String} (h : v.subscript key = .ok w)
    (default : Json) : v.getD key default = .ok w := by
  cases v with
  | obj fields =>
      rw [subscript] at h
      rw [getD]
      cases hlookup : fields.lookup key with
      | none => rw [hlookup] at h; cases h
      | some x =>
          rw [hlookup] at h
          exact h
  | _ => cases h

theorem pyGt_int (m n : ℤ) : pyGt (.int m) (.int n) = .ok (decide (n < m)) := by
  simp [pyGt, number?, Num.gt]

variable {α : Type} {R : Json → α → Prop} {key : Json → Except PyError Json} {f : α → ℤ}

/-- The first item of the greatest integer key, in the computable order of the integers. -/
abbrev argmaxInt (f : α → ℤ) (l : List α) : Option α :=
  @List.argmax α ℤ Int.instLinearOrder.toPartialOrder.toPreorder Int.decLt f l

theorem argmaxInt_cons_cons (f : α → ℤ) (a b : α) (l : List α) :
    argmaxInt f (a :: b :: l) = argmaxInt f ((if f a < f b then b else a) :: l) := by
  by_cases h : f a < f b
  · simp [List.argmax, List.argAux, h]
  · simp [List.argmax, List.argAux, h]

theorem maxByFrom_argmax (hkey : ∀ x a, R x a → key x = .ok (.int (f a))) {x : Json} {a : α}
    {xs : List Json} {as : List α} (hx : R x a) (h : List.Forall₂ R xs as) :
    ∃ y b, maxByFrom key x (.int (f a)) xs = .ok y ∧ argmaxInt f (a :: as) = some b ∧ R y b := by
  induction h generalizing x a with
  | nil => exact ⟨x, a, rfl, rfl, hx⟩
  | @cons y b xs as hy _ ih =>
      rw [maxByFrom, hkey y b hy, argmaxInt_cons_cons]
      simp only [bind, Except.bind, pyGt_int, decide_eq_true_eq]
      split_ifs
      · exact ih hy
      · exact ih hx

/-- `max` over items that read as integers' owners picks the first of the greatest. -/
theorem maxBy_argmax (hkey : ∀ x a, R x a → key x = .ok (.int (f a))) {xs : List Json}
    {as : List α} (h : List.Forall₂ R xs as) (hne : as ≠ []) :
    ∃ y b, maxBy key xs = .ok y ∧ argmaxInt f as = some b ∧ R y b := by
  cases h with
  | nil => exact absurd rfl hne
  | @cons x a xs as hx hxs =>
      rw [maxBy, hkey x a hx]
      exact maxByFrom_argmax hkey hx hxs

end Json

section lists

variable {α β : Type} {f : α → Except PyError β}

theorem mapM_forall₂ {xs : List α} {ys : List β}
    (h : List.Forall₂ (fun x y => f x = .ok y) xs ys) : xs.mapM f = .ok ys := by
  induction h with
  | nil => rfl
  | cons hx _ ih =>
      rw [List.mapM_cons, hx, ih]
      rfl

theorem filterAuxM_map {g : β → α} {p : α → Except PyError Bool} {q : β → Bool}
    (h : ∀ y, p (g y) = .ok (q y)) (ys : List β) (kept : List α) :
    (ys.map g).filterAuxM p kept = .ok (((ys.filter q).map g).reverse ++ kept) := by
  induction ys generalizing kept with
  | nil => rfl
  | cons y rest ih =>
      rw [List.map_cons, List.filterAuxM, h]
      simp only [bind, Except.bind]
      rw [ih]
      cases hq : q y with
      | true => simp [hq]
      | false => simp [hq]

/-- Filtering by a test that does not raise. -/
theorem filterM_map {g : β → α} {p : α → Except PyError Bool} {q : β → Bool}
    (h : ∀ y, p (g y) = .ok (q y)) (ys : List β) :
    (ys.map g).filterM p = .ok ((ys.filter q).map g) := by
  rw [List.filterM, filterAuxM_map h]
  simp [bind, Except.bind, pure, Except.pure]

end lists

namespace Reconciler

/-! ### Histories -/

/-- One revision of a release. -/
structure Entry where
  revision : ℤ
  status : String
  description : Json
  deriving DecidableEq

/-- The item of a history says this of its revision. -/
structure Entry.Reads (item : Json) (e : Entry) : Prop where
  revision : item.subscript "revision" = .ok (.int e.revision)
  status : item.subscript "status" = .ok (.str e.status)
  description : item.get "description" = .ok e.description

/-- The document lists these revisions, in this order. -/
def ReadsHistory (history : Json) (entries : List Entry) : Prop :=
  ∃ items, history = .arr items ∧ List.Forall₂ Entry.Reads items entries

/-- What happened to the operation that made the revision. -/
def Entry.operation (e : Entry) : OperationState := (operationStatus.lookup e.status).getD .unknown

def newest (entries : List Entry) : Option Entry := Json.argmaxInt Entry.revision entries

/-- The highest revision labelled `deployed`. -/
def lastDeployed (entries : List Entry) : Option ℤ :=
  Json.argmaxInt id ((entries.filter fun e => e.status == "deployed").map Entry.revision)

theorem lastDeployed_isSome {entries : List Entry} :
    (lastDeployed entries).isSome = true ↔ ∃ e ∈ entries, e.status = "deployed" := by
  rw [Option.isSome_iff_ne_none, ne_eq, lastDeployed, List.argmax_eq_none]
  simp

theorem lastDeployed_mem {entries : List Entry} {revision : ℤ}
    (h : lastDeployed entries = some revision) :
    ∃ e ∈ entries, e.status = "deployed" ∧ e.revision = revision := by
  have hmem := List.argmax_mem (show revision ∈ lastDeployed entries from h)
  simpa [and_assoc] using hmem

/-- An optional string, as the document holds it. -/
def orNull : Option String → Json
  | none => .null
  | some s => .str s

def revisionOrNull : Option ℤ → Json
  | none => .null
  | some r => .int r

theorem deployedRevisions_reads {items : List Json} {entries : List Entry}
    (h : List.Forall₂ Entry.Reads items entries) :
    deployedRevisions items = .ok
      (((entries.filter fun e => e.status == "deployed").map Entry.revision).map .int) := by
  induction h with
  | nil => rfl
  | @cons item e items entries he _ ih =>
      rw [deployedRevisions, Json.get, Json.getD_of_subscript he.status, ih, he.revision]
      by_cases hs : e.status = "deployed"
      · simp [bind, Except.bind, Json.isStr, hs, pure, Except.pure]
      · simp [bind, Except.bind, Json.isStr, hs]

theorem deployedRevision_reads {history : Json} {entries : List Entry}
    (h : ReadsHistory history entries) :
    deployedRevision history = .ok (revisionOrNull (lastDeployed entries)) := by
  obtain ⟨items, rfl, hitems⟩ := h
  rw [deployedRevision, Json.iter, lastDeployed]
  simp only [bind, Except.bind, deployedRevisions_reads hitems]
  generalize ((entries.filter fun e => e.status == "deployed").map Entry.revision) = revisions
  by_cases hnil : revisions = []
  · subst hnil
    rfl
  · have hints : List.Forall₂ (fun x n => x = Json.int n) (revisions.map .int) revisions := by
      rw [List.forall₂_map_left_iff]
      exact List.forall₂_same.mpr fun _ _ => rfl
    have hkey : ∀ (x : Json) (n : ℤ), x = .int n → (.ok x : Except PyError Json) = .ok (.int n) :=
      fun x n hx => by rw [hx]
    obtain ⟨y, n, hmax, hargmax, rfl⟩ := Json.maxBy_argmax (f := id) hkey hints hnil
    rw [if_neg (by simpa using hnil), hmax, hargmax]
    rfl

theorem everDeployed_reads {history : Json} {entries : List Entry}
    (h : ReadsHistory history entries) :
    everDeployed history = .ok (lastDeployed entries).isSome := by
  rw [everDeployed, deployedRevision_reads h]
  cases lastDeployed entries with
  | none => rfl
  | some r => exact congrArg Except.ok (by simp [revisionOrNull])

theorem ne_nil_of_newest {entries : List Entry} {e : Entry} (he : newest entries = some e) :
    entries ≠ [] := by
  intro hnil
  rw [hnil] at he
  cases he

theorem newestEntry_reads {history : Json} {entries : List Entry} {e : Entry}
    (h : ReadsHistory history entries) (he : newest entries = some e) :
    ∃ item, newestEntry history = .ok item ∧ e.Reads item := by
  obtain ⟨items, rfl, hitems⟩ := h
  obtain ⟨item, e', hitem, he', hreads⟩ :=
    Json.maxBy_argmax (fun _ e he => he.revision) hitems (ne_nil_of_newest he)
  obtain rfl : e' = e := Option.some.inj (he'.symm.trans he)
  exact ⟨item, hitem, hreads⟩

theorem newestStatus_reads {history : Json} {entries : List Entry} {e : Entry}
    (h : ReadsHistory history entries) (he : newest entries = some e) :
    newestStatus history = .ok (.str e.status) := by
  obtain ⟨item, hitem, hreads⟩ := newestEntry_reads h he
  rw [newestStatus, hitem]
  exact hreads.status

theorem ReadsHistory.truthy {history : Json} {entries : List Entry}
    (h : ReadsHistory history entries) : history.truthy = !entries.isEmpty := by
  obtain ⟨items, rfl, hitems⟩ := h
  cases hitems with
  | nil => rfl
  | cons _ _ => rfl

theorem lastOperation_reads {history : Json} {entries : List Entry} {e : Entry}
    (h : ReadsHistory history entries) (he : newest entries = some e) :
    lastOperation history = .ok ⟨.int e.revision, e.operation, e.description⟩ := by
  obtain ⟨item, hitem, hreads⟩ := newestEntry_reads h he
  have htruthy : ¬ (!history.truthy) = true := by simp [h.truthy, ne_nil_of_newest he]
  rw [lastOperation, if_neg htruthy, hitem]
  simp only [bind, Except.bind]
  rw [Json.get, Json.getD_of_subscript hreads.status, hreads.revision, hreads.description]
  rfl

/-! ### Pod listings -/

/-- One container of a pod. -/
structure Container where
  /-- Whether it is waiting, and for what reason, if it says. -/
  waiting : Option (Option String)
  ready : Bool
  deriving DecidableEq

structure Pod where
  terminating : Bool
  phase : Option String
  reason : Option String
  containers : List Container
  deriving DecidableEq

/-- What a container's `waiting` says. -/
def ReadsWaiting (v : Json) : Option (Option String) → Prop
  | none => v.truthy = false
  | some reason => v.truthy = true ∧ v.get "reason" = .ok (orNull reason)

structure Container.Reads (item : Json) (c : Container) : Prop where
  waiting : ∃ state v, item.getD "state" (.obj []) = .ok state ∧ state.get "waiting" = .ok v ∧
    ReadsWaiting v c.waiting
  ready : ∃ v, item.get "ready" = .ok v ∧ v.truthy = c.ready

/-- The item of a listing says this of its pod. -/
structure Pod.Reads (item : Json) (p : Pod) : Prop where
  metadata : ∃ metadata deletion, item.subscript "metadata" = .ok metadata ∧
    metadata.get "deletionTimestamp" = .ok deletion ∧ deletion.truthy = p.terminating
  status : ∃ status containers, item.subscript "status" = .ok status ∧
    status.getD "containerStatuses" (.arr []) = .ok (.arr containers) ∧
    List.Forall₂ Container.Reads containers p.containers ∧
    status.get "reason" = .ok (orNull p.reason) ∧ status.get "phase" = .ok (orNull p.phase)

/-- The document lists these pods, in this order. -/
def ReadsListing (listing : Json) (pods : List Pod) : Prop :=
  ∃ items, listing.subscript "items" = .ok (.arr items) ∧ List.Forall₂ Pod.Reads items pods

/-! Every list of pods is listed by some document. -/

def Container.toItem (c : Container) : Json :=
  .obj [("ready", .bool c.ready), ("state", .obj (match c.waiting with
    | none => []
    | some reason => [("waiting", .obj [("reason", orNull reason)])]))]

def Pod.toItem (p : Pod) : Json :=
  .obj [("metadata", .obj (if p.terminating then [("deletionTimestamp", .str "now")] else [])),
    ("status", .obj [("phase", orNull p.phase), ("reason", orNull p.reason),
      ("containerStatuses", .arr (p.containers.map Container.toItem))])]

theorem Container.reads_toItem (c : Container) : c.Reads c.toItem := by
  obtain ⟨waiting, ready⟩ := c
  refine ⟨?_, .bool ready, rfl, rfl⟩
  cases waiting with
  | none => exact ⟨.obj [], .null, rfl, rfl, rfl⟩
  | some reason => exact ⟨.obj [("waiting", .obj [("reason", orNull reason)])],
      .obj [("reason", orNull reason)], rfl, rfl, rfl, rfl⟩

theorem Pod.reads_toItem (p : Pod) : p.Reads p.toItem := by
  obtain ⟨terminating, phase, reason, containers⟩ := p
  refine ⟨?_, _, containers.map Container.toItem, rfl, rfl, ?_, rfl, rfl⟩
  · cases terminating with
    | true => exact ⟨_, .str "now", rfl, rfl, by simp [Json.truthy]⟩
    | false => exact ⟨_, .null, rfl, rfl, rfl⟩
  · rw [List.forall₂_map_left_iff]
    exact List.forall₂_same.mpr fun c _ => c.reads_toItem

theorem forall₂_toItem (pods : List Pod) : List.Forall₂ Pod.Reads (pods.map Pod.toItem) pods := by
  rw [List.forall₂_map_left_iff]
  exact List.forall₂_same.mpr fun p _ => p.reads_toItem

namespace Pod

/-- The reason of the first container that is waiting. -/
def waitingReason (p : Pod) : Option String := (p.containers.findSome? Container.waiting).join

/-- The reason reported for the pod. -/
def shownReason (p : Pod) : Option String := p.waitingReason <|> p.reason

/-- At least one container, and all of them ready. -/
def ready (p : Pod) : Bool := !p.containers.isEmpty && p.containers.all Container.ready

/-- The pod as `parse_pods` reports it. -/
def shown (p : Pod) : PodState := ⟨orNull p.phase, orNull p.shownReason, p.ready⟩

end Pod

theorem waitingReason_reads {items : List Json} {containers : List Container}
    (h : List.Forall₂ Container.Reads items containers) :
    waitingReason items = .ok (orNull (containers.findSome? Container.waiting).join) := by
  induction h with
  | nil => rfl
  | @cons item c items containers hc _ ih =>
      obtain ⟨state, v, hstate, hv, hwaiting⟩ := hc.waiting
      rw [waitingReason, hstate]
      simp only [bind, Except.bind, hv]
      cases hw : c.waiting with
      | none =>
          rw [hw] at hwaiting
          rw [if_neg (by simp [show v.truthy = false from hwaiting]), ih, List.findSome?_cons, hw]
      | some reason =>
          rw [hw] at hwaiting
          rw [if_pos hwaiting.1, hwaiting.2, List.findSome?_cons, hw]
          rfl

theorem allReady_reads {items : List Json} {containers : List Container}
    (h : List.Forall₂ Container.Reads items containers) :
    allReady items = .ok (containers.all Container.ready) := by
  induction h with
  | nil => rfl
  | @cons item c items containers hc _ ih =>
      obtain ⟨v, hv, hready⟩ := hc.ready
      rw [allReady, hv, ih, List.all_cons]
      simp only [bind, Except.bind, hready]
      cases c.ready with
      | true => rfl
      | false => rfl

theorem truthy_arr_reads {items : List Json} {containers : List Container}
    (h : List.Forall₂ Container.Reads items containers) :
    (Json.arr items).truthy = !containers.isEmpty := by
  cases h with
  | nil => rfl
  | cons _ _ => rfl

theorem parsePod_reads {item : Json} {p : Pod} (h : p.Reads item) :
    parsePod item = .ok (if p.terminating then none else some p.shown) := by
  obtain ⟨metadata, deletion, hmetadata, hdeletion, hterminating⟩ := h.metadata
  obtain ⟨status, containers, hstatus, hcontainers, hreads, hreason, hphase⟩ := h.status
  rw [parsePod, hmetadata, Pod.shown, Pod.shownReason, Pod.waitingReason, Pod.ready]
  simp only [bind, Except.bind, hdeletion, hterminating, hstatus, hcontainers, Json.iter,
    waitingReason_reads hreads, hreason, hphase, truthy_arr_reads hreads, allReady_reads hreads]
  generalize (p.containers.findSome? Container.waiting).join = waiting
  cases p.terminating with
  | true => rfl
  | false =>
      cases waiting with
      | none => cases p.containers.isEmpty <;> rfl
      | some reason => cases p.containers.isEmpty <;> rfl

/-- The pods that `parse_pods` reports. -/
def shownPods (pods : List Pod) : List PodState :=
  (pods.filter fun p => !p.terminating).map Pod.shown

theorem parsePods_reads {items : List Json} {pods : List Pod}
    (h : List.Forall₂ Pod.Reads items pods) :
    parsePods (.arr items) = .ok (shownPods pods) := by
  have hmap : items.mapM parsePod =
      .ok (pods.map fun p => if p.terminating then none else some p.shown) := by
    refine mapM_forall₂ (List.forall₂_map_right_iff.mpr ?_)
    exact h.imp fun _ _ hp => parsePod_reads hp
  rw [parsePods, Json.iter]
  simp only [bind, Except.bind, hmap]
  refine congrArg Except.ok ?_
  rw [shownPods]
  clear hmap h
  induction pods with
  | nil => rfl
  | cons p rest ih =>
      cases ht : p.terminating with
      | true => simpa [ht, List.reduceOption_cons_of_none] using ih
      | false => simpa [ht, List.reduceOption_cons_of_some] using ih

/-! ### The state -/

/-- Is the optional string in the set? -/
def isAmong (set : List String) : Option String → Bool
  | none => false
  | some s => set.contains s

theorem isIn_orNull (set : List String) (s : Option String) :
    isIn set (orNull s) = .ok (isAmong set s) := by
  cases s with
  | none => simp [isIn, orNull, Json.hashable, Json.isStr, isAmong]
  | some s =>
      refine congrArg Except.ok ?_
      rw [isAmong, orNull, Bool.eq_iff_iff, List.any_eq_true, List.contains_iff_mem]
      simp [Json.isStr]

namespace Pod

/-- The pod has stopped: it is history, not current state. -/
def terminal (p : Pod) : Bool := isAmong terminalPodPhases p.phase

/-- The pod is neither on its way out nor stopped. -/
def live (p : Pod) : Bool := !p.terminating && !p.terminal

/-- The reason reported for the pod is a failure. -/
def failing (p : Pod) : Bool := isAmong failedPodReasons p.shownReason

end Pod

def livePods (pods : List Pod) : List Pod := pods.filter Pod.live

/-- Exactly the wanted pods are there, and all of them are ready. -/
def Satisfied (pods : List Pod) (desired : ℤ) : Prop :=
  0 < desired ∧ ((livePods pods).length : ℤ) = desired ∧ ∀ p ∈ livePods pods, p.ready = true

instance (pods : List Pod) (desired : ℤ) : Decidable (Satisfied pods desired) :=
  inferInstanceAs (Decidable (_ ∧ _))

/-- The workload stopped and nothing replaced it, or never started and will not. -/
def Stopped (pods : List Pod) (operation : OperationState) (everDeployed : Bool) : Prop :=
  (∃ p ∈ pods, p.terminating = false ∧ p.terminal = true) ∨
    everDeployed = false ∧ operation = .failed

instance (pods : List Pod) (operation : OperationState) (everDeployed : Bool) :
    Decidable (Stopped pods operation everDeployed) :=
  inferInstanceAs (Decidable (_ ∨ _))

/-- The state of a release that exists. -/
def stateOf (pods : List Pod) (desired : ℤ) (operation : OperationState) (everDeployed : Bool) :
    State :=
  if ∃ p ∈ livePods pods, p.failing = true then .failed
  else if Satisfied pods desired then .instantiated
  else if Stopped pods operation everDeployed then .failed
  else .instantiating

theorem filterM_shownPods {p : PodState → Except PyError Bool} {q : Pod → Bool}
    (h : ∀ pod, p pod.shown = .ok (q pod)) (pods : List Pod) :
    (shownPods pods).filterM p =
      .ok ((pods.filter fun pod => !pod.terminating && q pod).map Pod.shown) := by
  rw [shownPods, filterM_map h, List.filter_filter]
  simp only [Bool.and_comm]

theorem deriveState_reads (status : String) (pods : List Pod) (desired : ℤ)
    (operation : OperationState) (everDeployed : Bool) :
    deriveState (.str status) (shownPods pods) desired operation everDeployed =
      .ok (stateOf pods desired operation everDeployed) := by
  have hisTerminal : ∀ pod : Pod, isTerminal pod.shown = .ok pod.terminal :=
    fun pod => isIn_orNull _ _
  have hlive : (shownPods pods).filterM (fun pod => not <$> isTerminal pod) =
      .ok ((livePods pods).map Pod.shown) := by
    refine filterM_shownPods (q := fun pod => !pod.terminal) (fun pod => ?_) pods
    rw [hisTerminal]
    rfl
  have hterminal := filterM_shownPods hisTerminal pods
  have hfailing : ((livePods pods).map Pod.shown).mapM isFailing =
      .ok ((livePods pods).map Pod.failing) := by
    rw [List.mapM_map]
    refine mapM_forall₂ (List.forall₂_map_right_iff.mpr (List.forall₂_same.mpr fun pod _ => ?_))
    exact isIn_orNull _ _
  -- the tests of the code, as the conditions of `stateOf`
  have hany : ((livePods pods).map Pod.failing).any id = true ↔
      ∃ p ∈ livePods pods, p.failing = true := by simp
  have hsatisfied : (0 < desired ∧ ((((livePods pods).map Pod.shown).length : ℕ) : ℤ) = desired ∧
      ((livePods pods).map Pod.shown).all PodState.ready = true) ↔ Satisfied pods desired := by
    simp [Satisfied, Pod.shown]
  have hcorpse : (!((pods.filter fun p => !p.terminating && p.terminal).map Pod.shown).isEmpty) =
      true ↔ ∃ p ∈ pods, p.terminating = false ∧ p.terminal = true := by
    simp
  rw [deriveState, if_neg (by simp), hlive, hterminal]
  simp only [bind, Except.bind, hfailing, hany, hsatisfied, hcorpse, Bool.not_eq_true']
  rw [stateOf]
  by_cases hfails : ∃ p ∈ livePods pods, p.failing = true
  · rw [if_pos hfails, if_pos hfails]
    rfl
  rw [if_neg hfails, if_neg hfails]
  by_cases hsat : Satisfied pods desired
  · rw [if_pos hsat, if_pos hsat]
    rfl
  rw [if_neg hsat, if_neg hsat]
  by_cases hstopped : ∃ p ∈ pods, p.terminating = false ∧ p.terminal = true
  · rw [if_pos hstopped, if_pos (show Stopped pods operation everDeployed from .inl hstopped)]
    rfl
  rw [if_neg hstopped]
  by_cases hnever : everDeployed = false ∧ operation = .failed
  · rw [if_pos hnever, if_pos (show Stopped pods operation everDeployed from .inr hnever)]
    rfl
  · rw [if_neg hnever, if_neg (show ¬ Stopped pods operation everDeployed from
      not_or.mpr ⟨hstopped, hnever⟩)]
    rfl

/-- The operation that made the revision, as the report describes it. -/
def Entry.asOperation (e : Entry) : LastOperation := ⟨.int e.revision, e.operation, e.description⟩

/-- The report on a release whose newest revision is `e`. -/
def reported (name : String) (entries : List Entry) (e : Entry) (pods : List Pod) (desired : ℤ) :
    Report :=
  { release := name, state := stateOf pods desired e.operation (lastDeployed entries).isSome,
    helmStatus := .str e.status, desiredReplicas := desired,
    readyReplicas := (shownPods pods).countP PodState.ready, lastOperation := e.asOperation,
    pods := shownPods pods }

theorem reportOn_reads {history : Json} {entries : List Entry} (h : ReadsHistory history entries)
    (name : String) (e : Entry) (pods : List Pod) (desired : ℤ) :
    reportOn name history (.str e.status) e.asOperation desired (shownPods pods) =
      .ok (reported name entries e pods desired) := by
  rw [reportOn, everDeployed_reads h]
  simp only [bind, Except.bind, deriveState_reads, Entry.asOperation]
  rfl

end Reconciler

end NfOrchestrator
