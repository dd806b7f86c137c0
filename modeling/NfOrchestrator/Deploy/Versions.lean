import Mathlib.Data.List.Infix
import NfOrchestrator.Deploy.Blocks
import NfOrchestrator.Effects.Pool

/-!
# NfOrchestrator.Deploy.Versions

**Findings about helm's version**, in one thread. A thread stores a finding only after it
asked helm, with a reading of the clock from before it asked (`NotesFinding`), and it starts
an upgrade only if it found nothing wrong, itself or in a finding less than a minute old
(`Vouched`).
-/

namespace NfOrchestrator.Deploy

/-- What helm said of its version. -/
def reported : Outcome → String
  | .completed _ stdout _ => Str.strip stdout
  | _ => ""

/-- What became of asking helm its version comes to these problems. A helm that cannot be run
says nothing. -/
def Says (e : Event sig) (problems : List String) : Prop :=
  (∃ exc, e = ⟨.spawn ["helm", "version", "--short"], some exc⟩ ∧ problems = []) ∨
    ∃ timeout outcome, e = ⟨.finish ["helm", "version", "--short"] timeout, outcome⟩ ∧
      problemsOfVersion (reported outcome) = .ok problems

/-- The clock showed `t`, and then helm was asked its version, which came to these problems. -/
def FoundAt (tr : List (Event sig)) (t : ℚ) (problems : List String) : Prop :=
  ∃ e, [⟨.monotonic, t⟩, e].Sublist tr ∧ Says e problems

/-- A finding is stored when helm was asked, under a time from before. -/
def NotesFinding (tr : List (Event sig)) (e : Event sig) : Prop :=
  ∀ t problems, e = ⟨.setVersions t problems, ()⟩ → FoundAt tr t problems

/-- Nothing was wrong with helm's version less than a minute before some reading of the
clock. -/
def Vouched (tr : List (Event sig)) : Prop :=
  ∃ m t : ℚ, ⟨.monotonic, m⟩ ∈ tr ∧ m - t < versionTtl ∧
    ((⟨.getVersions, some (t, [])⟩ : Event sig) ∈ tr ∨ FoundAt tr t [])

def StartsUpgrade (e : Event sig) : Prop :=
  ∃ args r, e = ⟨.spawn ("helm" :: "upgrade" :: args), r⟩

/-- What a thread guarantees of its findings and of its upgrades. -/
def Vouches (tr : List (Event sig)) (e : Event sig) : Prop :=
  NotesFinding tr e ∧ (StartsUpgrade e → Vouched tr)

abbrev vouching : Spec sig (List (Event sig)) := recorded (fun _ _ => True) Vouches

theorem vouching_mono : vouching.Mono := recorded_mono _ _

variable {cfg : Settings} {tr : List (Event sig)} {α : Type}

theorem FoundAt.append {t : ℚ} {problems : List String} (h : FoundAt tr t problems)
    (more : List (Event sig)) : FoundAt (tr ++ more) t problems := by
  obtain ⟨e, hsub, hsays⟩ := h
  exact ⟨e, hsub.trans (List.sublist_append_left tr more), hsays⟩

theorem Vouched.append (h : Vouched tr) (more : List (Event sig)) : Vouched (tr ++ more) := by
  obtain ⟨m, t, hm, hfresh, hvouched⟩ := h
  refine ⟨m, t, List.mem_append_left _ hm, hfresh, hvouched.imp ?_ fun hfound => hfound.append more⟩
  exact List.mem_append_left _

/-- Operations that neither store a finding nor start an upgrade. -/
def Unvouched (o : Op) : Prop :=
  (∀ t problems, o ≠ .setVersions t problems) ∧ ∀ args, o ≠ .spawn ("helm" :: "upgrade" :: args)

theorem Unvouched.vouches {o : Op} (ho : Unvouched o) (r : Resp o) : Vouches tr ⟨o, r⟩ := by
  refine ⟨fun t problems he => absurd (congrArg Event.op he) (ho.1 t problems), ?_⟩
  rintro ⟨args, r', he⟩
  exact absurd (congrArg Event.op he) (ho.2 args)

section kept

variable {I : List (Event sig) → Prop} (hI : ∀ tr more, I tr → I (tr ++ more))

include hI

/-- A program of such operations keeps what more events keep. -/
theorem wp_unvouched {p : Eff α} (hp : p.Within Unvouched) (htr : I tr) :
    p.wp vouching (fun _ => I) tr := by
  induction p generalizing tr with
  | ret | raise => exact htr
  | call o k ih => exact fun r _ => ⟨hp.1.vouches r, ih r (hp.2 r) (hI _ _ htr)⟩

/-! ### A look at the version -/

theorem wp_askVersion {now : ℚ} (hnow : ⟨.monotonic, now⟩ ∈ tr) (htr : I tr) :
    (askVersion cfg now).wp vouching (fun x tr' => I tr' ∧ (x = .ok [] → Vouched tr')) tr := by
  have hstores : ∀ (tr' : List (Event sig)) (e : Event sig) (outcome : Outcome),
      tr' = tr ++ [e] ∨ (∃ e', tr' = tr ++ [e'] ++ [e]) →
      (∀ problems, problemsOfVersion (reported outcome) = .ok problems → Says e problems) →
      (ofPy (problemsOfVersion (reported outcome)) >>= fun problems =>
        setVersions now problems >>= fun _ => pure problems).wp vouching
          (fun x tr' => I tr' ∧ (x = .ok [] → Vouched tr')) tr' := by
    intro tr' e outcome htr' hsays
    have hafter : ∃ more, tr' = tr ++ more ∧ [(⟨.monotonic, now⟩ : Event sig), e].Sublist tr' := by
      rcases htr' with rfl | ⟨e', rfl⟩
      · exact ⟨_, rfl, (List.singleton_sublist.mpr hnow).append (List.Sublist.refl [e])⟩
      · have hbefore := List.singleton_sublist.mpr (List.mem_append_left [e'] hnow)
        exact ⟨[e', e], by simp, hbefore.append (List.Sublist.refl [e])⟩
    obtain ⟨more, hmore, hsub⟩ := hafter
    have hkept : I tr' := hmore ▸ hI tr more htr
    rw [Prog.wp_bind, wp_ofPy]
    cases hproblems : problemsOfVersion (reported outcome) with
    | error exc => exact ⟨hkept, by simp⟩
    | ok problems =>
        have hfound : FoundAt tr' now problems := ⟨e, hsub, hsays problems hproblems⟩
        intro r _
        refine ⟨⟨fun t problems' he => ?_, ?_⟩, hI _ _ hkept, fun hx => ?_⟩
        · cases he
          exact hfound
        · rintro ⟨args, r', he⟩
          cases he
        · obtain rfl := Except.ok.inj hx
          refine ⟨now, now, ?_, ?_, .inr (hfound.append _)⟩
          · exact List.mem_append_left _ (hmore ▸ List.mem_append_left _ hnow)
          · rw [sub_self]
            norm_num [versionTtl]
  have hsilent : problemsOfVersion "" = .ok [] := by decide +kernel
  rw [askVersion, Prog.wp_bind, wp_subprocessRun]
  have hspawn : Unvouched (.spawn ["helm", "version", "--short"]) := by simp [Unvouched]
  refine fun r _ => ⟨hspawn.vouches r, ?_⟩
  cases r with
  | some exc =>
      refine hstores _ _ (.osError exc) (.inl rfl) fun problems h => .inl ⟨exc, rfl, ?_⟩
      exact (Except.ok.inj (hsilent.symm.trans h)).symm
  | none =>
      refine fun outcome _ =>
        ⟨Unvouched.vouches (o := .finish _ _) (by simp [Unvouched]) outcome, ?_⟩
      exact hstores _ _ outcome (.inr ⟨_, rfl⟩) fun problems h => .inr ⟨_, outcome, rfl, h⟩

theorem wp_versionProblems (htr : I tr) :
    (versionProblems cfg).wp vouching (fun x tr' => I tr' ∧ (x = .ok [] → Vouched tr')) tr := by
  simp only [versionProblems, Prog.wp_bind, wp_monotonic, Prog.bindPost_ok, wp_getVersions]
  refine fun now _ =>
    ⟨Unvouched.vouches (o := .monotonic) (by simp [Unvouched]) now, fun cached _ =>
    ⟨Unvouched.vouches (o := .getVersions) (by simp [Unvouched]) cached, ?_⟩⟩
  have hkept := hI _ [⟨.getVersions, cached⟩] (hI tr [⟨.monotonic, now⟩] htr)
  have hnow : (⟨.monotonic, now⟩ : Event sig) ∈ tr ++ [⟨.monotonic, now⟩] ++
      [⟨.getVersions, cached⟩] := by simp
  cases cached with
  | none => exact wp_askVersion hI hnow hkept
  | some c =>
      obtain ⟨t, problems⟩ := c
      dsimp only
      split_ifs with hfresh
      · refine ⟨hkept, fun hx => ?_⟩
        obtain rfl := Except.ok.inj hx
        exact ⟨now, t, hnow, hfresh, .inl (by simp)⟩
      · exact wp_askVersion hI hnow hkept

theorem wp_requireTools_vouched (htr : I tr) :
    (requireTools cfg).wp vouching (fun x tr' => I tr' ∧ (x = .ok () → Vouched tr')) tr := by
  have hmissing : ∀ names, (missingTools names).Within Unvouched := by
    intro names
    induction names with
    | nil => trivial
    | cons tool rest ih =>
        exact (Prog.within_op (by simp [Unvouched])).bind fun _ => ih.bind fun _ => trivial
  have hproblems : (toolProblems cfg).wp vouching
      (fun x tr' => I tr' ∧ (x = .ok [] → Vouched tr')) tr := by
    rw [toolProblems, Prog.wp_bind]
    refine Prog.wp_mono vouching_mono ?_ (wp_unvouched hI (hmissing tools) htr)
    rintro (exc | missing) tr' htr'
    · exact ⟨htr', fun hx => by cases hx⟩
    rw [Prog.bindPost_ok]
    dsimp only
    split_ifs with hhelm hnone hnone
    · rw [List.isEmpty_iff.mp hnone] at hhelm
      cases hhelm
    · exact ⟨htr', by simp⟩
    · rw [Prog.wp_bind]
      refine Prog.wp_mono vouching_mono ?_ (wp_versionProblems hI htr')
      rintro (exc | problems) tr'' h
      · exact ⟨h.1, fun hx => by cases hx⟩
      · exact ⟨h.1, fun hx => h.2 (by simpa using hx)⟩
    · rw [Prog.wp_bind]
      refine Prog.wp_mono vouching_mono ?_ (wp_versionProblems hI htr')
      rintro (exc | problems) tr'' h
      · exact ⟨h.1, fun hx => by cases hx⟩
      · exact ⟨h.1, by simp⟩
  rw [requireTools, Prog.wp_bind]
  refine Prog.wp_mono vouching_mono ?_ hproblems
  rintro (exc | problems) tr' h
  · exact ⟨h.1, fun hx => by cases hx⟩
  rw [Prog.bindPost_ok]
  split_ifs with hnone
  · exact ⟨h.1, fun _ => h.2 (by rw [List.isEmpty_iff.mp hnone])⟩
  · exact ⟨h.1, fun hx => by cases hx⟩

/-! ### Whole programs -/

/-- The engine's programs vouch for what they store and start, where an upgrade may only be
started if that is vouched for already. -/
theorem blocks_vouching {Q : List String → Prop}
    (hQ : ∀ command, Q command → ∀ args, command = "helm" :: "upgrade" :: args →
      ∀ tr, I tr → Vouched tr) :
    Blocks cfg Q fun _ p => ∀ tr, I tr → p.wp vouching (fun _ => I) tr where
  toClosed := closed_wp vouching_mono I
  single := fun ho _ htr =>
    wp_unvouched hI (Prog.within_op (by cases ho <;> exact (by simp [Unvouched]))) htr
  process := by
    intro command hcommand timeout tr htr
    rw [wp_subprocessRun]
    refine fun r _ => ⟨⟨fun t problems he => (by cases he), ?_⟩, ?_⟩
    · rintro ⟨args, r', he⟩
      exact hQ command hcommand args (Op.spawn.inj (congrArg Event.op he)) tr htr
    · cases r with
      | some exc => exact hI _ _ htr
      | none =>
          exact fun outcome _ =>
            ⟨Unvouched.vouches (o := .finish _ _) (by simp [Unvouched]) outcome,
              hI _ _ (hI _ _ htr)⟩
  probe := by
    intro maxAge timeout tr htr
    have hprobing : (cachedProbe cfg maxAge (timeout.getD cfg.probeTimeout)).Within Unvouched := by
      refine (probing_cachedProbe cfg maxAge _).mono fun o ho => ?_
      cases ho <;> exact ⟨by simp, by simp [probeCommand]⟩
    refine wp_unvouched hI ?_ htr
    refine (Prog.within_op (by simp [Unvouched])).bind fun _ => Prog.Within.bind ?_ fun _ =>
      (Prog.within_op (by simp [Unvouched])).bind fun _ => trivial
    exact hprobing.tryCatch fun _ => (Prog.within_op (by simp [Unvouched])).bind fun _ => trivial
  versions := fun _ htr =>
    Prog.wp_mono vouching_mono (fun _ _ h => h.1) (wp_versionProblems hI htr)

end kept

/-- A deployment upgrades only once helm's version is vouched for. -/
theorem wp_deploy_vouching (intent : Intent) (forceConflicts : Bool) (tr : List (Event sig)) :
    (deploy cfg intent forceConflicts).wp vouching (fun _ _ => True) tr := by
  rw [deploy, Prog.wp_bind]
  refine Prog.wp_mono vouching_mono ?_
    (wp_requireTools_vouched (I := fun _ => True) (fun _ _ _ => trivial) trivial)
  rintro (exc | ⟨⟩) tr' ⟨-, h⟩
  · trivial
  have hblocks : Blocks cfg (fun _ => True) fun _ p => ∀ tr, Vouched tr →
      p.wp vouching (fun _ => Vouched) tr :=
    blocks_vouching (fun _ more htr => htr.append more) fun _ _ _ _ _ htr => htr
  exact Prog.wp_mono vouching_mono (fun _ _ _ => trivial) (hblocks.upgrade trivial tr' (h rfl))

end NfOrchestrator.Deploy
