/-
  `ArrayBase` (`zmmf/array.cc`), the array of all reference lists.

  An array is a list here.  Beside the usual it has `removeUnordered`, which puts the LAST element
  into the place that becomes free: no element moves but that one, and whoever goes through the
  array while removing has to look at the place once more.
-/
import Mathlib

namespace MediaTomb.ArrayBase

section

variable {α : Type*} {xs ys zs : List α} {x y : α} {index : Nat}

/-- `arr[index] = arr[--siz]`; nothing happens for an index outside. -/
def removeUnordered (xs : List α) (index : Nat) : List α :=
  match xs.getLast? with
  | none => xs
  | some last => if index < xs.length then (xs.set index last).dropLast else xs

theorem removeUnordered_outside (h : xs.length ≤ index) : removeUnordered xs index = xs := by
  unfold removeUnordered
  cases xs.getLast? with
  | none => rfl
  | some last => exact if_neg (Nat.not_lt.mpr h)

/-- The last element goes, and that is all. -/
theorem removeUnordered_last : removeUnordered (xs ++ [x]) xs.length = xs := by
  unfold removeUnordered
  rw [List.getLast?_append_of_ne_nil _ (List.cons_ne_nil x []), List.getLast?_singleton]
  simp only
  rw [if_pos (by rw [List.length_append, List.length_singleton]; omega),
    List.set_append_right _ _ (Nat.le_refl _), Nat.sub_self, List.set_cons_zero,
    List.dropLast_concat]

/-- Any other is replaced by the last. -/
theorem removeUnordered_middle :
    removeUnordered (xs ++ x :: (ys ++ [y])) xs.length = xs ++ y :: ys := by
  have hassoc : xs ++ x :: (ys ++ [y]) = (xs ++ x :: ys) ++ [y] := by
    rw [List.append_assoc, List.cons_append]
  unfold removeUnordered
  rw [hassoc, List.getLast?_append_of_ne_nil _ (List.cons_ne_nil y []), List.getLast?_singleton]
  simp only
  rw [if_pos (by rw [List.length_append, List.length_append, List.length_cons]; omega),
    List.set_append_left _ _ (by rw [List.length_append, List.length_cons]; omega),
    List.set_append_right _ _ (Nat.le_refl _), Nat.sub_self, List.set_cons_zero,
    List.dropLast_concat]

/-- **Only the element at the index goes.** -/
theorem removeUnordered_perm : (x :: removeUnordered (xs ++ x :: ys) xs.length).Perm
    (xs ++ x :: ys) := by
  rcases List.eq_nil_or_concat ys with rfl | ⟨init, last, rfl⟩
  · rw [removeUnordered_last]
    exact (List.perm_append_singleton x xs).symm
  · rw [List.concat_eq_append, removeUnordered_middle]
    refine List.Perm.trans ?_ List.perm_middle.symm
    apply List.Perm.cons
    rw [← List.append_assoc]
    refine List.perm_middle.trans ?_
    exact (List.perm_append_singleton last (xs ++ init)).symm

/-- The same for an index that is given as a number. -/
theorem removeUnordered_perm_of_get (h : xs[index]? = some x) :
    (x :: removeUnordered xs index).Perm xs := by
  obtain ⟨hlt, rfl⟩ := List.getElem?_eq_some_iff.mp h
  have hsplit : xs.take index ++ xs[index] :: xs.drop (index + 1) = xs := by
    rw [List.cons_getElem_drop_succ, List.take_append_drop]
  have hlength : (xs.take index).length = index := by
    rw [List.length_take]
    omega
  have hperm := @removeUnordered_perm _ (xs.take index) (xs.drop (index + 1)) xs[index]
  rw [hlength, hsplit] at hperm
  exact hperm

/-- What stands at a place afterwards stood there before, or it was the last and has come to the
    index. -/
theorem getElem?_removeUnordered {j : Nat} (hlt : index < xs.length)
    (h : (removeUnordered xs index)[j]? = some x) :
    j + 1 < xs.length ∧
      ((j ≠ index ∧ xs[j]? = some x) ∨ (j = index ∧ xs[xs.length - 1]? = some x)) := by
  have hlast : xs.getLast? = xs[xs.length - 1]? := List.getLast?_eq_getElem?
  unfold removeUnordered at h
  cases hl : xs.getLast? with
  | none =>
    rw [List.getLast?_eq_none_iff] at hl
    rw [hl] at hlt
    exact absurd hlt (Nat.not_lt_zero _)
  | some last =>
    rw [hl] at h
    simp only at h
    rw [if_pos hlt, List.getElem?_dropLast, List.length_set] at h
    split at h
    · next hj =>
      refine ⟨by omega, ?_⟩
      by_cases hidx : j = index
      · subst hidx
        rw [List.getElem?_set_self hlt] at h
        exact Or.inr ⟨rfl, by rw [← hlast, hl]; exact h⟩
      · rw [List.getElem?_set_ne (by omega)] at h
        exact Or.inl ⟨hidx, h⟩
    · cases h

/-- One goes or none. -/
theorem removeUnordered_cases (xs : List α) (index : Nat) :
    removeUnordered xs index = xs ∨
      ∃ x, xs[index]? = some x ∧ (x :: removeUnordered xs index).Perm xs := by
  by_cases hlt : index < xs.length
  · have hget := List.getElem?_eq_getElem hlt
    exact Or.inr ⟨xs[index], hget, removeUnordered_perm_of_get hget⟩
  · exact Or.inl (removeUnordered_outside (Nat.not_lt.1 hlt))

theorem mem_of_mem_removeUnordered (h : x ∈ removeUnordered xs index) : x ∈ xs := by
  rcases removeUnordered_cases xs index with heq | ⟨y, _, hperm⟩
  · rwa [heq] at h
  · exact hperm.subset (List.mem_cons_of_mem y h)

theorem nodup_map_removeUnordered {β : Type*} {f : α → β} (h : (xs.map f).Nodup) :
    ((removeUnordered xs index).map f).Nodup := by
  rcases removeUnordered_cases xs index with heq | ⟨y, _, hperm⟩
  · rwa [heq]
  · have hcons := (hperm.map f).nodup_iff.2 h
    rw [List.map_cons] at hcons
    exact hcons.of_cons

end

end MediaTomb.ArrayBase
