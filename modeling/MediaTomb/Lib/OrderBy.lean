/-
  `ORDER BY`, and one page after the other, on lists.

  A list that comes in some order of its own is sorted by a comparison with ties; the sort is
  STABLE, so that ties keep the order they came in.  When that order tells any two elements apart,
  the sorted list is the only one of its kind.

  The pages of a list, put together, are the list.
-/
import Mathlib

namespace MediaTomb.Lib

namespace OrderBy

variable {α : Type} {cmp : α → α → Ordering} {lt : α → α → Prop} {a b : α} {l l' : List α}

/-- The list, sorted. -/
def sorted (cmp : α → α → Ordering) (l : List α) : List α := l.mergeSort fun a b => (cmp a b).isLE

theorem perm_sorted : (sorted cmp l).Perm l := List.mergeSort_perm l _

/-! ## A stable sort -/

/-- In order, and ties as they came. -/
def Stable (cmp : α → α → Ordering) (lt : α → α → Prop) (a b : α) : Prop :=
  (cmp a b).isLE = true ∧ (cmp a b = .eq → lt a b)

variable [Std.TransCmp cmp]

theorem isLE_of_not (h : ¬ (cmp a b).isLE = true) : cmp b a = .lt := by
  have hswap : cmp b a = (cmp a b).swap := Std.OrientedCmp.eq_swap
  rw [hswap]
  cases hab : cmp a b with
  | lt => exact absurd (by rw [hab]; rfl) h
  | eq => exact absurd (by rw [hab]; rfl) h
  | gt => rfl

/-- An element that came before all of them goes in front of its ties. -/
theorem pairwise_orderedInsert (hl : l.Pairwise (Stable cmp lt)) (ha : ∀ b ∈ l, lt a b) :
    (l.orderedInsert (fun a b => (cmp a b).isLE = true) a).Pairwise (Stable cmp lt) := by
  induction l with
  | nil => exact List.pairwise_singleton _ a
  | cons b l ih =>
    obtain ⟨hb, hl⟩ := List.pairwise_cons.1 hl
    by_cases hle : (cmp a b).isLE = true
    · rw [List.orderedInsert, if_pos hle]
      refine List.pairwise_cons.2 ⟨?_, List.pairwise_cons.2 ⟨hb, hl⟩⟩
      intro c hc
      refine ⟨?_, fun _ => ha c hc⟩
      rcases List.mem_cons.1 hc with rfl | hin
      · exact hle
      · exact Std.TransCmp.isLE_trans hle (hb c hin).1
    · rw [List.orderedInsert, if_neg hle]
      refine List.pairwise_cons.2 ⟨?_, ih hl fun c hc => ha c (List.mem_cons_of_mem b hc)⟩
      intro c hc
      rcases List.mem_cons.1 ((List.perm_orderedInsert _ a l).mem_iff.1 hc) with rfl | hin
      · have hlt := isLE_of_not hle
        rw [Stable, hlt]
        exact ⟨rfl, fun h => by cases h⟩
      · exact hb c hin

theorem pairwise_insertionSort (hl : l.Pairwise lt) :
    (l.insertionSort fun a b => (cmp a b).isLE = true).Pairwise (Stable cmp lt) := by
  induction l with
  | nil => exact List.Pairwise.nil
  | cons a l ih =>
    obtain ⟨ha, hl⟩ := List.pairwise_cons.1 hl
    apply pairwise_orderedInsert (ih hl)
    intro b hb
    exact ha b ((List.perm_insertionSort _ l).mem_iff.1 hb)

/-! ## The sorted list -/

theorem pairwise_sorted : (sorted cmp l).Pairwise fun a b => (cmp a b).isLE = true := by
  apply List.pairwise_mergeSort
  · intro a b c hab hbc
    exact Std.TransCmp.isLE_trans hab hbc
  · intro a b
    by_cases hle : (cmp a b).isLE = true
    · rw [hle]
      rfl
    · rw [isLE_of_not hle, Bool.or_comm]
      rfl

/-- **There is one sorted list** where the comparison tells the elements apart. -/
theorem eq_sorted (hperm : l'.Perm l) (hl' : l'.Pairwise fun a b => (cmp a b).isLE = true)
    (hapart : ∀ a ∈ l, ∀ b ∈ l, cmp a b = .eq → a = b) : l' = sorted cmp l := by
  refine List.Perm.eq_of_pairwise ?_ hl' pairwise_sorted (hperm.trans perm_sorted.symm)
  intro a b ha hb hab hba
  apply hapart a (hperm.mem_iff.1 ha) b (perm_sorted.mem_iff.1 hb)
  have hswap : cmp b a = (cmp a b).swap := Std.OrientedCmp.eq_swap
  rw [hswap] at hba
  revert hab hba
  cases cmp a b with
  | lt => exact fun _ h => by cases h
  | eq => exact fun _ _ => rfl
  | gt => exact fun h => by cases h

/-! ## Pages -/

/-- The elements from the index `start` on, as many as `count`; all of them where that is 0. -/
def window (start count : Int) (l : List α) : List α :=
  if count = 0 then l.drop start.toNat else (l.take (start + count).toNat).drop start.toNat

theorem window_eq_take {start count : Int} (hcount : count ≠ 0) :
    window start count l = (l.drop start.toNat).take ((start + count).toNat - start.toNat) := by
  rw [window, if_neg hcount, List.drop_take]

theorem map_window {β : Type} (f : α → β) (start count : Int) :
    (window start count l).map f = window start count (l.map f) := by
  unfold window
  split
  · rw [List.map_drop]
  · rw [List.map_drop, List.map_take]

/-- A page, and what the pages behind it give. -/
theorem window_append_take (start size more : Nat) (hsize : size ≠ 0) :
    window start size l ++ (l.drop (start + size)).take more
      = (l.drop start).take (size + more) := by
  rw [window_eq_take (by omega), List.take_add, List.drop_drop]
  congr 2
  omega

end OrderBy

end MediaTomb.Lib
