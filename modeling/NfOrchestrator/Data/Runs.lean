import Mathlib.Data.List.Basic
import Mathlib.Tactic.SplitIfs

/-!
# NfOrchestrator.Data.Runs

**Maximal runs of a list**: the stretches of elements with a property, each as long as it
can be (`runs`). `mem_runs` says what a run is. An element without the property separates the
runs before it from those behind it (`runs_append_cons`), so the runs of a text put together
from parts are those of the parts.
-/

namespace NfOrchestrator

variable {α : Type} {p : α → Bool}

/-- An unfinished run, its elements last first, is one when it ends, unless it is empty. -/
def flush (cur : List α) : List (List α) := if cur.isEmpty then [] else [cur.reverse]

/-- The runs of a list behind an unfinished one. -/
def runsFrom (p : α → Bool) : List α → List α → List (List α)
  | cur, [] => flush cur
  | cur, c :: rest =>
      if p c then runsFrom p (c :: cur) rest else flush cur ++ runsFrom p [] rest

/-- The maximal runs of elements that `p` holds of, from left to right. -/
def runs (p : α → Bool) (cs : List α) : List (List α) := runsFrom p [] cs

/-- `run` is a stretch of the list, and cannot be longer. -/
structure IsRun (p : α → Bool) (pre run post : List α) : Prop where
  ne_nil : run ≠ []
  all : ∀ c ∈ run, p c = true
  left : ∀ c ∈ pre.getLast?, p c = false
  right : ∀ c ∈ post.head?, p c = false

theorem runsFrom_all {xs : List α} (h : ∀ c ∈ xs, p c = true) (cur rest : List α) :
    runsFrom p cur (xs ++ rest) = runsFrom p (xs.reverse ++ cur) rest := by
  induction xs generalizing cur with
  | nil => rfl
  | cons c xs ih =>
      rw [List.cons_append, runsFrom, if_pos (h c List.mem_cons_self),
        ih fun d hd => h d (List.mem_cons_of_mem c hd)]
      simp

theorem runsFrom_append_cons {c : α} (hc : p c = false) (cur xs ys : List α) :
    runsFrom p cur (xs ++ c :: ys) = runsFrom p cur xs ++ runs p ys := by
  induction xs generalizing cur with
  | nil => simp [runsFrom, runs, hc]
  | cons d xs ih =>
      simp only [List.cons_append, runsFrom]
      split_ifs <;> simp [ih]

theorem takeWhile_of_all {xs rest : List α} (h : ∀ c ∈ xs, p c = true)
    (hrest : ∀ c ∈ rest.head?, p c = false) : (xs ++ rest).takeWhile p = xs := by
  rw [List.takeWhile_append_of_pos h]
  cases rest with
  | nil => simp
  | cons c rest => simp [hrest c rfl]

/-- Two runs that begin at the same place are the same. -/
theorem eq_of_append_eq {xs ys rest rest' : List α} (h : xs ++ rest = ys ++ rest')
    (hxs : ∀ c ∈ xs, p c = true) (hrest : ∀ c ∈ rest.head?, p c = false)
    (hys : ∀ c ∈ ys, p c = true) (hrest' : ∀ c ∈ rest'.head?, p c = false) :
    xs = ys ∧ rest = rest' := by
  have hsame : xs = ys := by
    rw [← takeWhile_of_all hxs hrest, ← takeWhile_of_all hys hrest', h]
  subst hsame
  exact ⟨rfl, List.append_cancel_left h⟩

theorem runs_congr {q : α → Bool} {cs : List α} (h : ∀ c ∈ cs, p c = q c) :
    runs p cs = runs q cs := by
  have hfrom : ∀ cur, runsFrom p cur cs = runsFrom q cur cs := by
    induction cs with
    | nil => exact fun _ => rfl
    | cons c cs ih =>
        intro cur
        have hrest := ih fun d hd => h d (List.mem_cons_of_mem c hd)
        rw [runsFrom, runsFrom, h c List.mem_cons_self, hrest, hrest]
  exact hfrom []

/-- An element without the property separates the runs. -/
theorem runs_append_cons {c : α} (hc : p c = false) (xs ys : List α) :
    runs p (xs ++ c :: ys) = runs p xs ++ runs p ys := runsFrom_append_cons hc [] xs ys

/-- A list with the property throughout is its only run. -/
theorem runs_of_all {xs : List α} (hne : xs ≠ []) (h : ∀ c ∈ xs, p c = true) :
    runs p xs = [xs] := by
  have hall := runsFrom_all h [] []
  rw [List.append_nil, List.append_nil] at hall
  rw [runs, hall, runsFrom]
  simp [flush, hne]

theorem mem_runs_of_isRun {pre run post : List α} (h : IsRun p pre run post) :
    run ∈ runs p (pre ++ run ++ post) := by
  have hhere : run ∈ runs p (run ++ post) := by
    cases post with
    | nil => rw [List.append_nil, runs_of_all h.ne_nil h.all]; exact List.mem_singleton_self run
    | cons c post =>
        rw [runs_append_cons (h.right c rfl), runs_of_all h.ne_nil h.all]
        exact List.mem_cons_self
  rcases List.eq_nil_or_concat pre with rfl | ⟨pre', c, rfl⟩
  · exact hhere
  · have hc : p c = false := h.left c (by simp)
    rw [List.concat_eq_append, List.append_assoc, List.append_assoc, List.singleton_append,
      runs_append_cons hc]
    exact List.mem_append_right _ hhere

theorem mem_flush {cur run : List α} : run ∈ flush cur ↔ run = cur.reverse ∧ run ≠ [] := by
  unfold flush
  split_ifs with hempty
  · simp [List.isEmpty_iff.mp hempty]
  · rw [List.mem_singleton]
    refine ⟨fun h => ⟨h, ?_⟩, And.left⟩
    rw [h]
    simpa using hempty

theorem isRun_of_mem_runsFrom {cur cs run : List α} (hcur : ∀ c ∈ cur, p c = true)
    (h : run ∈ runsFrom p cur cs) :
    ∃ pre post, cur.reverse ++ cs = pre ++ run ++ post ∧ IsRun p pre run post := by
  induction cs generalizing cur with
  | nil =>
      obtain ⟨rfl, hne⟩ := mem_flush.mp h
      exact ⟨[], [], rfl, hne, fun c hc => hcur c (List.mem_reverse.mp hc), by simp, by simp⟩
  | cons c cs ih =>
      rw [runsFrom] at h
      by_cases hc : p c = true
      · rw [if_pos hc] at h
        obtain ⟨pre, post, heq, hrun⟩ := ih (List.forall_mem_cons.mpr ⟨hc, hcur⟩) h
        exact ⟨pre, post, by simpa using heq, hrun⟩
      · have hc' : p c = false := by simpa using hc
        rw [if_neg hc, List.mem_append] at h
        rcases h with h | h
        · obtain ⟨rfl, hne⟩ := mem_flush.mp h
          refine ⟨[], c :: cs, rfl, hne, fun d hd => hcur d (List.mem_reverse.mp hd), by simp, ?_⟩
          simpa using hc'
        · obtain ⟨pre, post, heq, hrun⟩ := ih (by simp) h
          rw [List.reverse_nil, List.nil_append] at heq
          refine ⟨cur.reverse ++ c :: pre, post, by simp [heq], hrun.ne_nil, hrun.all, ?_,
            hrun.right⟩
          rcases List.eq_nil_or_concat pre with rfl | ⟨pre', d, rfl⟩
          · simpa using hc'
          · have hd : p d = false := hrun.left d (by simp)
            rw [List.concat_eq_append, ← List.cons_append, ← List.append_assoc,
              List.getLast?_concat]
            exact fun e he => Option.some.inj he ▸ hd

/-- The runs of a list are its stretches that cannot be longer. -/
theorem mem_runs {cs run : List α} :
    run ∈ runs p cs ↔ ∃ pre post, cs = pre ++ run ++ post ∧ IsRun p pre run post := by
  constructor
  · exact fun h => @isRun_of_mem_runsFrom α p [] _ _ (by simp) h
  · intro hx
    obtain ⟨pre, post, rfl, h⟩ := hx
    exact mem_runs_of_isRun h

end NfOrchestrator
