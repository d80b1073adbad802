/-
  A queue in a memory that is used round and round.

  `size` cells of a memory are a ring.  The queue begins at the cell `a` and has `n` elements: its
  WINDOW.  Indices wrap ONCE (`slot`), since no window is longer than the ring, so that all facts
  about them are linear arithmetic.

    * appending: store behind the window, then the window is longer (`window_append`);
    * taking:    read from the front, then the window begins later (`window_take`, `window_drop`);
    * both ends do not meet as long as the elements fit (`window_store_behind`).
-/
import Mathlib

namespace MediaTomb.Lib.Ring

section

variable {α : Type*} {mem mem' : Nat → α} {size a n k off : Nat} {xs ys : List α}

/-! ## The memory -/

/-- `n` cells from `off` on. -/
def slice (mem : Nat → α) (off n : Nat) : List α := (List.range n).map fun i => mem (off + i)

/-- `xs` stored from `off` on. -/
def store (mem : Nat → α) (off : Nat) (xs : List α) : Nat → α := fun i =>
  if off ≤ i then xs.getD (i - off) (mem i) else mem i

theorem length_slice : (slice mem off n).length = n := by
  unfold slice
  rw [List.length_map, List.length_range]

theorem getElem_slice {i : Nat} (h : i < (slice mem off n).length) :
    (slice mem off n)[i] = mem (off + i) := by
  simp only [slice, List.getElem_map, List.getElem_range]

theorem slice_append : slice mem off (n + k) = slice mem off n ++ slice mem (off + n) k := by
  unfold slice
  rw [List.range_add, List.map_append, List.map_map]
  congr 1
  refine List.map_congr_left fun i _ => ?_
  show mem (off + (n + i)) = mem (off + n + i)
  rw [Nat.add_assoc]

theorem store_outside {i : Nat} (h : i < off ∨ off + xs.length ≤ i) : store mem off xs i = mem i := by
  unfold store
  split_ifs with hle
  · rw [List.getD_eq_default _ _ (by omega)]
  · rfl

theorem store_inside {i : Nat} (h : i < xs.length) : store mem off xs (off + i) = xs[i] := by
  unfold store
  rw [if_pos (by omega), Nat.add_sub_cancel_left]
  exact List.getD_eq_getElem _ _ h

theorem slice_store : slice (store mem off xs) off xs.length = xs := by
  refine List.ext_getElem length_slice fun i h₁ h₂ => ?_
  rw [getElem_slice]
  exact store_inside h₂

theorem slice_congr (h : ∀ i, i < n → mem' (off + i) = mem (off + i)) :
    slice mem' off n = slice mem off n :=
  List.map_congr_left fun i hi => h i (List.mem_range.mp hi)

/-! ## Windows -/

/-- The cell that is `i` cells behind `a`. -/
def slot (size a i : Nat) : Nat := if a + i < size then a + i else a + i - size

def window (mem : Nat → α) (size a n : Nat) : List α :=
  (List.range n).map fun i => mem (slot size a i)

theorem slot_zero (ha : a < size) : slot size a 0 = a := by
  unfold slot
  rw [if_pos (by omega)]
  omega

theorem slot_lt (ha : a < size) (hn : n ≤ size) : slot size a n < size := by
  unfold slot
  split_ifs with h
  · exact h
  · omega

theorem slot_slot (ha : a < size) (hk : n + k ≤ size) :
    slot size (slot size a n) k = slot size a (n + k) := by
  unfold slot
  split_ifs <;> omega

@[simp] theorem length_window : (window mem size a n).length = n := by
  unfold window
  rw [List.length_map, List.length_range]

theorem window_zero : window mem size a 0 = [] := rfl

theorem window_congr (h : ∀ i, i < n → mem' (slot size a i) = mem (slot size a i)) :
    window mem' size a n = window mem size a n :=
  List.map_congr_left fun i hi => h i (List.mem_range.mp hi)

theorem window_append (ha : a < size) (hk : n + k ≤ size) :
    window mem size a (n + k) = window mem size a n ++ window mem size (slot size a n) k := by
  unfold window
  rw [List.range_add, List.map_append, List.map_map]
  congr 1
  refine List.map_congr_left fun i hi => ?_
  have hi' := List.mem_range.mp hi
  show mem (slot size a (n + i)) = mem (slot size (slot size a n) i)
  rw [slot_slot ha (by omega)]

theorem window_take (hk : k ≤ n) : (window mem size a n).take k = window mem size a k := by
  unfold window
  rw [← List.map_take, List.take_range, Nat.min_eq_left hk]

theorem window_drop (ha : a < size) (hn : n ≤ size) (hk : k ≤ n) :
    (window mem size a n).drop k = window mem size (slot size a k) (n - k) := by
  have happ : window mem size a (k + (n - k)) =
      window mem size a k ++ window mem size (slot size a k) (n - k) :=
    window_append ha (by omega)
  rw [Nat.add_sub_cancel' hk] at happ
  rw [happ]
  exact List.drop_left' length_window

/-- A window that does not reach the end of the ring is a piece of the memory. -/
theorem window_linear (h : a + n ≤ size) : window mem size a n = slice mem a n := by
  refine List.map_congr_left fun i hi => ?_
  have hi' := List.mem_range.mp hi
  unfold slot
  rw [if_pos (by omega)]

/-- Any other is two pieces. -/
theorem window_wrapped (ha : a < size) (hn : n ≤ size) (h : size ≤ a + n) :
    window mem size a n = slice mem a (size - a) ++ slice mem 0 (n - (size - a)) := by
  have hsplit : n = (size - a) + (n - (size - a)) := by omega
  have hend : slot size a (size - a) = 0 := by
    unfold slot
    rw [if_neg (by omega)]
    omega
  rw [hsplit, window_append ha (by omega), window_linear (by omega), hend,
    window_linear (by omega), ← hsplit]

/-! ## Storing behind a window -/

/-- What is stored behind the window does not touch it. -/
theorem window_store_behind (hfits : n + xs.length ≤ size)
    (hoff : off = slot size a n) (hlinear : off + xs.length ≤ size) :
    window (store mem off xs) size a n = window mem size a n := by
  refine window_congr fun i hi => store_outside ?_
  rw [hoff] at hlinear ⊢
  revert hlinear
  unfold slot
  split_ifs <;> omega

theorem window_store (hlinear : off + xs.length ≤ size) :
    window (store mem off xs) size off xs.length = xs := by
  rw [window_linear hlinear]
  exact slice_store

/-- What does not fit before the end of the ring goes to its beginning. -/
def storeRound (mem : Nat → α) (off : Nat) (xs ys : List α) : Nat → α :=
  store (store mem off xs) 0 ys

theorem window_storeRound_behind (hfits : n + (xs.length + ys.length) ≤ size)
    (hoff : off = slot size a n) (hxs : off + xs.length ≤ size)
    (hys : ys = [] ∨ off + xs.length = size) :
    window (storeRound mem off xs ys) size a n = window mem size a n := by
  have hfirst : window (store mem off xs) size a n = window mem size a n :=
    window_store_behind (by omega) hoff hxs
  rcases hys with rfl | hend
  · rw [← hfirst]
    refine window_congr fun i _ => store_outside (Or.inr ?_)
    exact Nat.zero_le _
  · rw [← hfirst]
    refine window_congr fun i hi => store_outside (Or.inr ?_)
    -- the window begins behind the cells at the beginning of the ring, and ends at `off`
    rw [hoff] at hend hxs
    revert hend
    unfold slot
    split_ifs <;> omega

theorem window_storeRound (hoff : off < size) (hfits : xs.length + ys.length ≤ size)
    (hxs : off + xs.length ≤ size) (hys : ys = [] ∨ off + xs.length = size) :
    window (storeRound mem off xs ys) size off (xs.length + ys.length) = xs ++ ys := by
  rcases hys with rfl | hend
  · have hsame : storeRound mem off xs [] = store mem off xs := by
      funext i
      exact store_outside (Or.inr (Nat.zero_le _))
    rw [hsame, List.append_nil]
    exact window_store hxs
  · rw [window_wrapped hoff hfits (by omega)]
    have hlen : size - off = xs.length := by omega
    have hrest : xs.length + ys.length - xs.length = ys.length := by omega
    rw [hlen, hrest]
    refine congrArg₂ (· ++ ·) ?_ slice_store
    have hkept : slice (storeRound mem off xs ys) off xs.length =
        slice (store mem off xs) off xs.length :=
      slice_congr fun i hi => store_outside (Or.inr (by omega))
    rw [hkept]
    exact slice_store

end

end MediaTomb.Lib.Ring
