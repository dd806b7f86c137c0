import Mathlib.Data.Finset.Sort

/-!
# NfOrchestrator.Data.Pages

**A sorted set read page by page, while it grows.** A page at an offset is a piece of the
set in its order. A member at or behind an offset stays behind it when others are added
(`behind_mono`), so it is on the page or behind the next offset (`behind_page`); and a page
that is not full leaves nothing behind it (`behind_short`).

What is read is collected without repetition, in the order in which it is first seen
(`collect`).
-/

namespace NfOrchestrator.Pages

variable {α : Type} [LinearOrder α]

/-! ### Pages -/

/-- The members at and behind an offset, in their order. -/
def behind (members : Finset α) (offset : ℕ) : List α := members.sort.drop offset

/-- The page of this size at an offset. -/
def page (size offset : ℕ) (members : Finset α) : List α := (behind members offset).take size

theorem sort_sublist {members members' : Finset α} (h : members ⊆ members') :
    members.sort.Sublist members'.sort := by
  refine List.sublist_of_subperm_of_pairwise ?_ (members.pairwise_sort _) (members'.pairwise_sort _)
  refine (members.sort_nodup _).subperm fun x hx => ?_
  rw [Finset.mem_sort] at hx ⊢
  exact h hx

/-- What is behind an offset stays behind it. -/
theorem behind_mono {members members' : Finset α} (h : members ⊆ members') {offset : ℕ} {x : α}
    (hx : x ∈ behind members offset) : x ∈ behind members' offset :=
  ((sort_sublist h).drop offset).subset hx

theorem page_append_behind (size offset : ℕ) (members : Finset α) :
    page size offset members ++ behind members (offset + size) = behind members offset := by
  rw [page, behind, behind, ← List.drop_drop, List.take_append_drop]

/-- What is behind an offset is on the page there or behind the next one. -/
theorem behind_page {members : Finset α} {size offset : ℕ} {x : α}
    (hx : x ∈ behind members offset) :
    x ∈ page size offset members ∨ x ∈ behind members (offset + size) := by
  rw [← page_append_behind size] at hx
  exact List.mem_append.mp hx

theorem mem_of_mem_page {members : Finset α} {size offset : ℕ} {x : α}
    (hx : x ∈ page size offset members) : x ∈ members := by
  have hsort := (((List.take_sublist _ _).trans (List.drop_sublist _ _)).subset hx)
  exact (Finset.mem_sort _).mp hsort

theorem length_page (size offset : ℕ) (members : Finset α) :
    (page size offset members).length = min size (members.card - offset) := by
  simp [page, behind]

/-- Behind a page that is not full there is nothing. -/
theorem behind_short {members : Finset α} {size offset : ℕ}
    (h : (page size offset members).length < size) : behind members (offset + size) = [] := by
  rw [length_page] at h
  refine List.drop_eq_nil_of_le ?_
  rw [Finset.length_sort]
  omega

/-! ### What was read -/

/-- Add one more, unless it is there. -/
def insert (seen : List α) (x : α) : List α := if x ∈ seen then seen else seen ++ [x]

/-- Add what was read, in its order. -/
def collect (seen read : List α) : List α := read.foldl insert seen

theorem mem_insert {seen : List α} {x y : α} : y ∈ insert seen x ↔ y ∈ seen ∨ y = x := by
  rw [insert]
  split_ifs with h
  · constructor
    · exact .inl
    · intro hx
      rcases hx with hy | rfl
      · exact hy
      · exact h
  · simp

theorem mem_collect {seen read : List α} {y : α} :
    y ∈ collect seen read ↔ y ∈ seen ∨ y ∈ read := by
  induction read generalizing seen with
  | nil => simp [collect]
  | cons x rest ih =>
      rw [collect, List.foldl_cons, ← collect, ih, mem_insert, List.mem_cons, or_assoc]

theorem nodup_insert {seen : List α} (h : seen.Nodup) (x : α) : (insert seen x).Nodup := by
  rw [insert]
  split_ifs with hx
  · exact h
  · exact List.nodup_append.mpr ⟨h, List.nodup_singleton x, by
      intro a ha _ hb hex
      subst hex
      exact hx (List.mem_singleton.mp hb ▸ ha)⟩

theorem nodup_collect {seen : List α} (h : seen.Nodup) (read : List α) :
    (collect seen read).Nodup := by
  induction read generalizing seen with
  | nil => exact h
  | cons x rest ih => exact ih (nodup_insert h x)

/-- What has not been seen before is added as it is read. -/
theorem collect_fresh {seen read : List α} (h : (seen ++ read).Nodup) :
    collect seen read = seen ++ read := by
  induction read generalizing seen with
  | nil => simp [collect]
  | cons x rest ih =>
      have hx : x ∉ seen := by
        intro hmem
        exact (List.nodup_append.mp h).2.2 _ hmem _ List.mem_cons_self rfl
      rw [collect, List.foldl_cons, insert, if_neg hx, ← collect, ih (by simpa using h)]
      simp

end NfOrchestrator.Pages
