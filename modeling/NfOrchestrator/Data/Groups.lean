import Mathlib.Data.List.Basic

/-!
# NfOrchestrator.Data.Groups

**Items grouped by a key**, as a dict of lists groups them: keys in the order in which
they were first seen, and under each key its items in the order of the input. So what is
under a key is the input filtered by it (`under_group`).
-/

namespace NfOrchestrator.Groups

variable {K α : Type} [DecidableEq K]

/-- Put an item under its key. -/
def add (key : K) (item : α) : List (K × List α) → List (K × List α)
  | [] => [(key, [item])]
  | (k, items) :: rest =>
      if k = key then (k, items ++ [item]) :: rest else (k, items) :: add key item rest

/-- The items under a key. -/
def under (groups : List (K × List α)) (key : K) : List α :=
  ((groups.find? fun group => decide (group.1 = key)).map Prod.snd).getD []

@[simp] theorem under_nil (key : K) : under ([] : List (K × List α)) key = [] := rfl

theorem under_cons_self (key : K) (items : List α) (rest : List (K × List α)) :
    under ((key, items) :: rest) key = items := by
  simp [under]

theorem under_cons_of_ne {k key : K} (h : k ≠ key) (items : List α) (rest : List (K × List α)) :
    under ((k, items) :: rest) key = under rest key := by
  simp [under, h]

theorem under_add_self (key : K) (item : α) (groups : List (K × List α)) :
    under (add key item groups) key = under groups key ++ [item] := by
  induction groups with
  | nil => simp [add, under]
  | cons group rest ih =>
      obtain ⟨k, items⟩ := group
      rw [add]
      by_cases hk : k = key
      · subst hk
        rw [if_pos rfl, under_cons_self, under_cons_self]
      · rw [if_neg hk, under_cons_of_ne hk, under_cons_of_ne hk, ih]

theorem under_add_of_ne {key key' : K} (h : key ≠ key') (item : α) (groups : List (K × List α)) :
    under (add key item groups) key' = under groups key' := by
  induction groups with
  | nil => simp [add, under, h]
  | cons group rest ih =>
      obtain ⟨k, items⟩ := group
      rw [add]
      by_cases hk : k = key
      · subst hk
        rw [if_pos rfl, under_cons_of_ne h, under_cons_of_ne h]
      · rw [if_neg hk]
        by_cases hk' : k = key'
        · subst hk'
          rw [under_cons_self, under_cons_self]
        · rw [under_cons_of_ne hk', under_cons_of_ne hk', ih]

/-- Group the items, after those grouped already. -/
def addAll (key : α → K) (groups : List (K × List α)) : List α → List (K × List α)
  | [] => groups
  | item :: rest => addAll key (add (key item) item groups) rest

theorem under_addAll (key : α → K) (groups : List (K × List α)) (items : List α) (k : K) :
    under (addAll key groups items) k =
      under groups k ++ items.filter fun item => decide (key item = k) := by
  induction items generalizing groups with
  | nil => simp [addAll]
  | cons item rest ih =>
      rw [addAll, ih]
      by_cases hk : key item = k
      · subst hk
        rw [under_add_self, List.filter_cons_of_pos (by simp), List.append_assoc]
        rfl
      · rw [under_add_of_ne hk, List.filter_cons_of_neg (by simpa using hk)]

/-- Under a key are the items that have it, in their order. -/
theorem under_group (key : α → K) (items : List α) (k : K) :
    under (addAll key [] items) k = items.filter fun item => decide (key item = k) := by
  rw [under_addAll, under_nil, List.nil_append]

end NfOrchestrator.Groups
