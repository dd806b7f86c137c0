import NfOrchestrator.Data.Groups
import NfOrchestrator.Metrics.Isolation

/-!
# NfOrchestrator.Metrics.Batched

**One listing for all releases.** A scrape lists every pod in one call, groups the items
by their `app` label and hands each release its share; `GET /deployments` lists the pods
of one release. On one snapshot of the cluster both reconcile a release to the same
result (`batched_agrees`).
-/

namespace NfOrchestrator.Metrics

open Deploy Reconciler

/-! ### A snapshot of the cluster -/

/-- A pod of the cluster, as kubectl prints it. -/
structure KubePod where
  item : Json
  /-- The value of the `app` label, if the pod carries it. -/
  app : Option String
  pod : Pod
  reads : pod.Reads item
  labelled : ∀ name, app = some name → ∃ metadata labels,
    item.subscript "metadata" = .ok metadata ∧ metadata.subscript "labels" = .ok labels ∧
      labels.subscript "app" = .ok (.str name)

/-- kubectl prints a listing of these pods, in this order. -/
def Lists (text : String) (pods : List KubePod) : Prop :=
  ∃ listing, Json.loads text = .ok listing ∧
    listing.subscript "items" = .ok (.arr (pods.map KubePod.item))

/-- The pods that `-l app` selects. -/
def carrying (snapshot : List KubePod) : List KubePod := snapshot.filter fun p => p.app.isSome

/-- The pods that `-l app=<name>` selects. -/
def labelledWith (name : String) (snapshot : List KubePod) : List KubePod :=
  snapshot.filter fun p => decide (p.app = some name)

/-! ### Grouping the items -/

/-- Pods grouped by label, as `pods_by_release` keeps their items. -/
def itemsOf (groups : List (Option String × List KubePod)) : List (Json × List Json) :=
  groups.map fun group => (orNull group.1, group.2.map KubePod.item)

theorem pyEq_orNull (app : Option String) (name : String) :
    Json.pyEq (orNull app) (.str name) = decide (app = some name) := by
  cases app with
  | none => rfl
  | some a =>
      rw [orNull, Json.pyEq, Json.isStr]
      by_cases h : a = name
      · simp [h]
      · simp [h, Ne.symm h]

theorem addUnder_itemsOf (name : String) (p : KubePod)
    (groups : List (Option String × List KubePod)) :
    addUnder (.str name) p.item (itemsOf groups) = itemsOf (Groups.add (some name) p groups) := by
  induction groups with
  | nil => rfl
  | cons group rest ih =>
      obtain ⟨app, pods⟩ := group
      rw [itemsOf, List.map_cons, addUnder, pyEq_orNull, Groups.add]
      by_cases happ : app = some name
      · rw [if_pos (decide_eq_true happ), if_pos happ]
        simp [itemsOf]
      · rw [if_neg (by simpa using happ), if_neg happ, itemsOf, List.map_cons, ← itemsOf, ih]
        rfl

theorem groupByApp_itemsOf {pods : List KubePod} (hpods : ∀ p ∈ pods, p.app.isSome)
    (groups : List (Option String × List KubePod)) :
    groupByApp (itemsOf groups) (pods.map KubePod.item) =
      .ok (itemsOf (Groups.addAll KubePod.app groups pods)) := by
  induction pods generalizing groups with
  | nil => rfl
  | cons p rest ih =>
      obtain ⟨name, hname⟩ := Option.isSome_iff_exists.mp (hpods p List.mem_cons_self)
      obtain ⟨metadata, labels, hmetadata, hlabels, happ⟩ := p.labelled name hname
      rw [List.map_cons, groupByApp, hmetadata]
      simp only [bind, Except.bind, hlabels, happ]
      rw [if_pos (by rfl), addUnder_itemsOf, ih fun q hq => hpods q (List.mem_cons_of_mem _ hq),
        Groups.addAll, hname]

/-- What a scrape has of these groups. -/
def shownOf (groups : List (Option String × List KubePod)) : PodsByRelease :=
  groups.map fun group => (orNull group.1, shownPods (group.2.map KubePod.pod))

theorem parsePods_items (pods : List KubePod) :
    parsePods (.arr (pods.map KubePod.item)) = .ok (shownPods (pods.map KubePod.pod)) := by
  refine parsePods_reads ?_
  rw [List.forall₂_map_left_iff, List.forall₂_map_right_iff]
  exact List.forall₂_same.mpr fun p _ => p.reads

theorem readPodsByRelease_lists {text : String} {pods : List KubePod} (h : Lists text pods)
    (hpods : ∀ p ∈ pods, p.app.isSome) :
    readPodsByRelease text = .ok (shownOf (Groups.addAll KubePod.app [] pods)) := by
  obtain ⟨listing, hloads, hitems⟩ := h
  rw [readPodsByRelease, hloads]
  simp only [bind, Except.bind, hitems, Json.iter]
  rw [show ([] : List (Json × List Json)) = itemsOf [] from rfl, groupByApp_itemsOf hpods]
  refine mapM_forall₂ ?_
  rw [itemsOf, shownOf, List.forall₂_map_left_iff, List.forall₂_map_right_iff]
  refine List.forall₂_same.mpr fun group _ => ?_
  simp only [parsePods_items]
  rfl

theorem isStr_orNull (app : Option String) (name : String) :
    (orNull app).isStr name = decide (app = some name) := by
  cases app with
  | none => rfl
  | some a => simp [orNull, Json.isStr, beq_eq_decide]

theorem podsFor_shownOf (groups : List (Option String × List KubePod)) (name : String) :
    podsFor (shownOf groups) name =
      shownPods ((Groups.under groups (some name)).map KubePod.pod) := by
  rw [podsFor, shownOf, Groups.under, List.find?_map]
  simp only [Function.comp_def, isStr_orNull]
  cases groups.find? fun group => decide (group.1 = some name) with
  | none => rfl
  | some group => rfl

variable {name : String} {snapshot : List KubePod} {all own : String}

/-- The share of a release in the listing of all pods is what its own listing gives. -/
theorem exists_podsFor (hall : Lists all (carrying snapshot))
    (hown : Lists own (labelledWith name snapshot)) :
    ∃ pods, readPodsByRelease all = .ok pods ∧ podsFrom none own = .ok (podsFor pods name) := by
  refine ⟨_, readPodsByRelease_lists hall fun p hp => (List.mem_filter.mp hp).2, ?_⟩
  have hsame : (carrying snapshot).filter (fun p => decide (p.app = some name)) =
      labelledWith name snapshot := by
    rw [carrying, List.filter_filter, labelledWith]
    refine List.filter_congr fun p _ => ?_
    cases p.app with
    | none => simp
    | some app => simp
  obtain ⟨listing, hloads, hitems⟩ := hown
  rw [podsFor_shownOf, Groups.under_group, hsame, podsFrom]
  simp only [bind, Except.bind, hloads, hitems, parsePods_items]

/-! ### Both reads of one cluster -/

variable (cfg : Settings)

/-- kubectl prints this listing of every pod. -/
def allReplies (all : String) (o : Deploy.Op) (r : Deploy.Resp o) : Prop :=
  match o, r with
  | .spawn _, failure => failure = none
  | .finish command _, outcome => command = allPodsCommand cfg → Prints outcome all
  | _, _ => True

/-- A cluster of which helm and kubectl print these texts. -/
abbrev showing (name : String) (d : Printed) (all : String) : Env Deploy.sig Unit :=
  replying fun (o : Deploy.Op) (r : Deploy.Resp o) =>
    printReplies cfg name d o r ∧ allReplies cfg all o r

/-- `reconcile(name, pods_by_release().get(name, []))`. -/
def reconcileBatched (name : String) : Eff Report := do
  let pods ← podsByRelease cfg
  reconcile cfg name (some (podsFor pods name))

theorem allPodsCommand_ne_podsCommand (name : String) :
    allPodsCommand cfg ≠ podsCommand cfg name := by
  have happ : "app" ≠ "app=" ++ name := by
    intro h
    have hshort : "app".length < ("app=" ++ name).length := by
      rw [String.length_append]
      exact Nat.lt_add_right _ (by decide)
    rw [← h] at hshort
    exact absurd hshort (lt_irrefl _)
  simp [allPodsCommand, podsCommand, allPodsArgs, podsArgs, happ]

theorem showing_total (name : String) (d : Printed) (all : String) :
    (showing cfg name d all).Total := by
  intro o w
  obtain ⟨r, w', hr⟩ := printing_total cfg name d o w
  cases o with
  | spawn command => exact ⟨r, w', hr, hr⟩
  | finish command timeout =>
      by_cases hall : command = allPodsCommand cfg
      · subst hall
        refine ⟨.completed 0 all "", w', ⟨?_, ?_, ?_⟩, fun _ => ⟨"", rfl⟩⟩
        · intro h
          simp [allPodsCommand] at h
        · intro revision h
          simp [allPodsCommand] at h
        · exact fun h => absurd h (allPodsCommand_ne_podsCommand cfg name)
      · exact ⟨r, w', hr, fun h => absurd h hall⟩
  | _ => exact ⟨r, w', hr, trivial⟩

variable {cfg} {d : Printed}

/-- What is proved of `reconcile` where helm and kubectl print the release's texts holds
where kubectl prints the listing of all pods as well. -/
theorem wp_reconcile_showing (given : Option (List PodState)) (w : Unit) :
    (reconcile cfg name given).wp (showing cfg name d all).spec
      (fun x _ => x = reading name d given) w := by
  rw [Prog.wp_iff_runs]
  intro x w' hr
  have hprinting : (reconcile cfg name given).Runs (printing cfg name d) w x w' :=
    hr.mono fun _ _ _ _ h => h.1
  exact hprinting.post wp_reconcile

theorem wp_podsByRelease :
    (podsByRelease cfg).wp (showing cfg name d all).spec
      (fun x _ => x = (readPodsByRelease all).mapError .py) () := by
  rw [podsByRelease, Prog.wp_bind, runKubectl]
  refine Prog.wp_mono (Env.spec_mono _) ?_ (wp_runBounded_exits cfg (Env.still_unit _)
    (T := fun returncode stdout _ => returncode = 0 ∧ stdout = all) (fun _ _ h => h.1) ?_)
  · intro x w hx
    obtain ⟨-, returncode, stdout, stderr, ⟨rfl, rfl⟩, rfl⟩ := hx
    exact wp_ofPy_eq _
  · intro r w hx
    obtain ⟨-, hr⟩ := hx
    obtain ⟨stderr, rfl⟩ := hr rfl
    exact ⟨0, all, stderr, rfl, rfl, rfl⟩

/-- The batched read gives a release the result that its own read gives, and each read
has no other: for every snapshot of the cluster, a release without pods or with
terminating ones only among them. -/
theorem batched_agrees (cfg : Settings) (name : String) (snapshot : List KubePod) (d : Printed)
    (all : String) (hall : Lists all (carrying snapshot))
    (hown : Lists d.pods (labelledWith name snapshot)) :
    ∃ result : Except Exc Report,
      (∀ x, (reconcileBatched cfg name).Ends (showing cfg name d all) () x ↔ x = result) ∧
        ∀ x, (reconcile cfg name none).Ends (showing cfg name d all) () x ↔ x = result := by
  have htotal := showing_total cfg name d all
  obtain ⟨pods, hpods, hshare⟩ := exists_podsFor hall hown
  have hsame : reading name d (some (podsFor pods name)) = reading name d none := by
    have hfrom : podsFrom (some (podsFor pods name)) d.pods = podsFrom none d.pods := hshare.symm
    simp only [reading, readingOf, hfrom]
  have hbatched : (reconcileBatched cfg name).wp (showing cfg name d all).spec
      (fun x _ => x = reading name d none) () := by
    rw [reconcileBatched, Prog.wp_bind]
    refine Prog.wp_mono (Env.spec_mono _) ?_ wp_podsByRelease
    intro x w h
    subst h
    rw [hpods]
    exact hsame ▸ wp_reconcile_showing (some (podsFor pods name)) w
  exact ⟨reading name d none, fun x => Prog.ends_iff_eq htotal hbatched,
    fun x => Prog.ends_iff_eq htotal (wp_reconcile_showing none ())⟩

/-- A pod of `amf`, and one of `smf` that is on its way out. -/
def twoPods : List KubePod :=
  [{ item := .obj [("metadata", .obj [("labels", .obj [("app", .str "amf")])]),
        ("status", .obj [("phase", .str "Running")])]
     app := some "amf"
     pod := ⟨false, some "Running", none, []⟩
     reads := ⟨⟨_, _, rfl, rfl, rfl⟩, ⟨_, _, rfl, rfl, .nil, rfl, rfl⟩⟩
     labelled := fun name h => Option.some.inj h ▸ ⟨_, _, rfl, rfl, rfl⟩ },
    { item := .obj [("metadata", .obj [("deletionTimestamp", .str "now"),
        ("labels", .obj [("app", .str "smf")])]), ("status", .obj [])]
      app := some "smf"
      pod := ⟨true, none, none, []⟩
      reads := ⟨⟨_, _, rfl, rfl, by decide⟩, ⟨_, _, rfl, rfl, .nil, rfl, rfl⟩⟩
      labelled := fun name h => Option.some.inj h ▸ ⟨_, _, rfl, rfl, rfl⟩ }]

/-- A listing of these pods. -/
def listingOf (pods : List KubePod) : String :=
  Json.dumps (.obj [("items", .arr (pods.map KubePod.item))])

/-- The texts about `smf`, with one revision that asks for one replica. -/
def printedSmf : Printed where
  history := some "[\x7b\"revision\": 1, \"status\": \"deployed\"\x7d]"
  values := fun _ => "\x7b\"replicaCount\": 1\x7d"
  pods := listingOf (labelledWith "smf" twoPods)

theorem batched_agrees_terminating :
    ∃ result : Except Exc Report,
      (∀ x, (reconcileBatched defaultSettings "smf").Ends
        (showing defaultSettings "smf" printedSmf (listingOf (carrying twoPods))) () x ↔
          x = result) ∧
      ∀ x, (reconcile defaultSettings "smf" none).Ends
        (showing defaultSettings "smf" printedSmf (listingOf (carrying twoPods))) () x ↔
          x = result := by
  have hall : Json.loads (listingOf (carrying twoPods)) =
      .ok (.obj [("items", .arr ((carrying twoPods).map KubePod.item))]) := by decide +kernel
  have hown : Json.loads printedSmf.pods =
      .ok (.obj [("items", .arr ((labelledWith "smf" twoPods).map KubePod.item))]) := by
    decide +kernel
  exact batched_agrees defaultSettings "smf" twoPods printedSmf _ ⟨_, hall, rfl⟩ ⟨_, hown, rfl⟩

end NfOrchestrator.Metrics
