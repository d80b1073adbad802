/-
  `BaseQueue` with the `int`s it is written with, and any sequence of calls on it.

    * DATA     the queue of `BaseQueue.lean`; sizes and indices are below 2^31, but a SUM of two of
               them need not be.
    * PROGRAM  three sums are taken: `size() + 1` and `count + (count / 2)` where the queue grows, and
               `queueBegin + index` where an element is looked at.
    * RESULT   the second one may overflow and does no harm.  The first one must not, and then the
               queue is a list whatever the calls, but for `get`: that finds all elements exactly as
               long as `queueBegin + size() ≤ 2^31` (`queue_fifo_iff`).
-/
import MediaTomb.BaseQueue
import MediaTomb.Tools

namespace MediaTomb

namespace BaseQueue

open Lib.Ring

variable {α : Type}

/-! ## The calls -/

namespace Ints

/-- `data[index]`, where that is an element of the array. -/
def cell (q : BaseQueue α) (index : Int) : Option α :=
  if 0 ≤ index ∧ index < q.capacity then q.data index.toNat else none

/-- `get(index)`; `%` leaves the sign of the sum. -/
def get (q : BaseQueue α) (index : Int) : Option α :=
  cell q ((sumInt q.queueBegin index).tmod q.capacity)

def resize (q : BaseQueue α) (requiredSize : Int) : BaseQueue α :=
  if (q.capacity : Int) < requiredSize then
    let count : Int := q.size
    let capacity := sumInt count (count / 2)
    let capacity := if capacity < requiredSize then requiredSize else capacity
    q.growTo capacity.toNat
  else q

def enqueue (q : BaseQueue α) (element : α) : BaseQueue α :=
  (if q.overlap then resize q (sumInt q.size 1) else q).put element

end Ints

inductive Call (α : Type) where
  | enqueue (element : α)
  | dequeue

/-- What the `dequeue` calls return, and the queue after all of them. -/
def calls (q : BaseQueue α) : List (Call α) → List (Option α) × BaseQueue α
  | [] => ([], q)
  | .enqueue element :: cs => (Ints.enqueue q element).calls cs
  | .dequeue :: cs => (q.dequeue.1 :: (q.dequeue.2.calls cs).1, (q.dequeue.2.calls cs).2)

/-! ## The list -/

/-- The same calls on a list: the oldest element is its first. -/
def fifo (xs : List α) : List (Call α) → List (Option α) × List α
  | [] => ([], xs)
  | .enqueue element :: cs => fifo (xs ++ [element]) cs
  | .dequeue :: cs => (xs.head? :: (fifo xs.tail cs).1, (fifo xs.tail cs).2)

/-- Each `enqueue` finds a number of elements that an `int` can count one further. -/
def Counted (xs : List α) : List (Call α) → Prop
  | [] => True
  | .enqueue element :: cs => xs.length + 1 < 2 ^ 31 ∧ Counted (xs ++ [element]) cs
  | .dequeue :: cs => Counted xs.tail cs

/-- A new queue behaves as a list in these calls, and looks like it after them. -/
structure LikeList (initialCapacity : Nat) (cs : List (Call α)) : Prop where
  answers : ((create initialCapacity).calls cs).1 = (fifo [] cs).1
  size : ((create initialCapacity).calls cs).2.size = (fifo [] cs).2.length
  get : ∀ i < (fifo [] cs).2.length,
    Ints.get ((create initialCapacity).calls cs).2 i = (fifo [] cs).2[i]?

section

variable {q : BaseQueue α} {xs : List α} {x : α} {i : Nat}

/-! ## Growing -/

theorem sumInt_lt (x y : Int) : sumInt x y < 2 ^ 31 := by
  unfold sumInt
  rw [Int.bmod_def]
  split <;> omega

/-- A full queue that can be counted one further grows to a capacity that is an `int`. -/
theorem Holds.resizeInt (h : q.Holds xs) (hoverlap : q.overlap = true)
    (hcount : xs.length + 1 < 2 ^ 31) :
    ∃ capacity, q.capacity < capacity ∧ capacity < 2 ^ 31 ∧
      Ints.resize q (sumInt q.size 1) = q.growTo capacity := by
  have hlen := h.full.mp hoverlap
  have hsize := h.size_eq
  have hone : sumInt (q.size : Int) 1 = q.size + 1 := sumInt_small (by omega) (by omega)
  have hgrown := sumInt_lt (q.size : Int) ((q.size : Int) / 2)
  refine ⟨(if sumInt (q.size : Int) ((q.size : Int) / 2) < q.size + 1 then (q.size : Int) + 1
    else sumInt (q.size : Int) ((q.size : Int) / 2)).toNat, ?_, ?_, ?_⟩
  · split <;> omega
  · split <;> omega
  · unfold Ints.resize
    rw [hone, if_pos (by omega)]

/-- **One more element.** -/
theorem Holds.enqueueInt (h : q.Holds xs) (hint : q.capacity < 2 ^ 31)
    (hcount : xs.length + 1 < 2 ^ 31) :
    (Ints.enqueue q x).Holds (xs ++ [x]) ∧ (Ints.enqueue q x).capacity < 2 ^ 31 := by
  unfold Ints.enqueue
  by_cases hoverlap : q.overlap = true
  · rw [if_pos hoverlap]
    obtain ⟨capacity, hlarger, hfits, hgrown⟩ := h.resizeInt hoverlap hcount
    obtain ⟨hcap, hroom⟩ := capacity_growTo q capacity
    rw [hgrown]
    refine ⟨(h.growTo hoverlap hlarger).put hroom, ?_⟩
    show (q.growTo capacity).capacity < 2 ^ 31
    rw [hcap]
    exact hfits
  · rw [if_neg hoverlap]
    rw [Bool.not_eq_true] at hoverlap
    exact ⟨h.put hoverlap, hint⟩

theorem capacity_dequeue (q : BaseQueue α) : q.dequeue.2.capacity = q.capacity := by
  unfold dequeue
  split
  · rfl
  · rfl

/-- **One element less**, or none. -/
theorem Holds.dequeue (h : q.Holds xs) : q.dequeue.1 = xs.head? ∧ q.dequeue.2.Holds xs.tail := by
  cases xs with
  | nil =>
    rw [h.dequeue_nil]
    exact ⟨rfl, h⟩
  | cons x xs => exact h.dequeue_cons

/-- **Any calls.** -/
theorem Holds.calls (cs : List (Call α)) : ∀ {q : BaseQueue α} {xs : List α}, q.Holds xs →
    q.capacity < 2 ^ 31 → Counted xs cs → (q.calls cs).1 = (fifo xs cs).1 ∧
      (q.calls cs).2.Holds (fifo xs cs).2 ∧ (q.calls cs).2.capacity < 2 ^ 31 := by
  induction cs with
  | nil =>
    intro q xs h hint _
    exact ⟨rfl, h, hint⟩
  | cons c cs ih =>
    intro q xs h hint hcount
    cases c with
    | enqueue element =>
      obtain ⟨hgrown, hint'⟩ := h.enqueueInt hint hcount.1
      exact ih hgrown hint' hcount.2
    | dequeue =>
      obtain ⟨hanswer, hrest⟩ := h.dequeue
      have hint' : q.dequeue.2.capacity < 2 ^ 31 := by
        rw [capacity_dequeue]
        exact hint
      obtain ⟨hanswers, hholds, hfits⟩ := ih hrest hint' hcount
      refine ⟨?_, hholds, hfits⟩
      show q.dequeue.1 :: (q.dequeue.2.calls cs).1 = xs.head? :: (fifo xs.tail cs).1
      rw [hanswer, hanswers]

/-! ## Looking at an element -/

theorem Holds.get_eq (h : q.Holds xs) (hi : i < xs.length) : q.get i = xs[i]? := by
  have hall := congrArg (fun ys => ys[i]?) h.get
  simp only [List.getElem?_map, List.getElem?_range hi, Option.map_some] at hall
  rw [List.getElem?_eq_getElem hi] at hall ⊢
  exact Option.some.inj hall

/-- The sum is an `int`: the element is found. -/
theorem Holds.getInt (h : q.Holds xs) (hi : i < xs.length) (hsum : q.queueBegin + i < 2 ^ 31) :
    Ints.get q i = xs[i]? := by
  have hbegins := h.begins
  have hsmall : sumInt (q.queueBegin : Int) i = ((q.queueBegin + i : Nat) : Int) := by
    rw [sumInt_small (by omega) (by omega)]
    exact (Int.natCast_add _ _).symm
  have hlt : (q.queueBegin + i) % q.capacity < q.capacity := Nat.mod_lt _ (by omega)
  have hrest : ((q.queueBegin + i : Nat) : Int).tmod q.capacity =
      (((q.queueBegin + i) % q.capacity : Nat) : Int) := by
    rw [Int.tmod_eq_emod_of_nonneg (by omega), Int.natCast_mod]
  unfold Ints.get Ints.cell
  rw [hsmall, hrest, if_pos ⟨by omega, by omega⟩, Int.toNat_natCast, ← h.get_eq hi]
  rfl

/-- The sum is 2^31: it comes out negative, and nothing is found at a negative index. -/
theorem getInt_overflow (hbegins : q.queueBegin < q.capacity) (hi : i < q.capacity)
    (hint : q.capacity < 2 ^ 31) (hsum : q.queueBegin + i = 2 ^ 31) : Ints.get q i = none := by
  have hlarge : sumInt (q.queueBegin : Int) i = -(2 ^ 31) := by
    rw [sumInt_large (by omega) (by omega)]
    omega
  have hround : (2 ^ 31 : Int) % q.capacity = 2 ^ 31 - q.capacity := by
    rw [Int.emod_eq_sub_self_emod]
    exact Int.emod_eq_of_lt (by omega) (by omega)
  have hneg : (-(2 ^ 31) : Int).tmod q.capacity < 0 := by
    rw [Int.neg_tmod, Int.tmod_eq_emod_of_nonneg (by decide), hround]
    omega
  unfold Ints.get Ints.cell
  rw [hlarge, if_neg]
  omega

/-- All elements are found exactly if no sum overflows. -/
theorem Holds.getInt_iff (h : q.Holds xs) (hint : q.capacity < 2 ^ 31) :
    (∀ i < xs.length, Ints.get q i = xs[i]?) ↔ q.queueBegin + xs.length ≤ 2 ^ 31 := by
  have hbegins := h.begins
  have hfits := h.fits
  constructor
  · intro hall
    by_contra hlarge
    have hi : 2 ^ 31 - q.queueBegin < xs.length := by omega
    have hfound := hall (2 ^ 31 - q.queueBegin) hi
    rw [getInt_overflow hbegins (by omega) hint (by omega), List.getElem?_eq_getElem hi] at hfound
    cases hfound
  · intro hsmall i hi
    exact h.getInt hi (by omega)

/-! ## The whole -/

/-- **A queue is a list**: the answers and the size always, and `get` exactly as long as its sum
    does not overflow. -/
theorem queue_fifo_iff {initialCapacity : Nat} (hpos : 1 ≤ initialCapacity)
    (hint : initialCapacity < 2 ^ 31) {cs : List (Call α)} (hcount : Counted [] cs) :
    LikeList initialCapacity cs ↔
      ((create initialCapacity).calls cs).2.queueBegin +
        ((create initialCapacity).calls cs).2.size ≤ 2 ^ 31 := by
  obtain ⟨hanswers, hholds, hfits⟩ := (holds_create hpos).calls cs hint hcount
  have hsize := hholds.size_eq
  rw [hsize]
  constructor
  · intro hlike
    exact (hholds.getInt_iff hfits).mp hlike.get
  · intro hsmall
    exact ⟨hanswers, hsize, (hholds.getInt_iff hfits).mpr hsmall⟩

/-- Two places, and a third element: the queue grows while it is wrapped. -/
def wrappedCalls : List (Call Nat) :=
  [.enqueue 1, .enqueue 2, .dequeue, .enqueue 3, .enqueue 4, .dequeue]

theorem queue_fifo_iff_wrapped : LikeList 2 wrappedCalls :=
  (queue_fifo_iff (by decide) (by decide) (by simp [wrappedCalls, Counted])).mpr
    (by decide +kernel)

/-! ## A queue that is too large -/

/-- An element comes and goes, `n` times. -/
def turns : Nat → List (Call Unit)
  | 0 => []
  | n + 1 => .enqueue () :: .dequeue :: turns n

/-- `m` elements come. -/
def fill (m : Nat) : List (Call Unit) := List.replicate m (.enqueue ())

theorem fifo_turns (n : Nat) (cs : List (Call Unit)) :
    (fifo [] (turns n ++ cs)).2 = (fifo [] cs).2 := by
  induction n with
  | zero => rfl
  | succ n ih => exact ih

theorem fifo_fill (m : Nat) (xs : List Unit) :
    (fifo xs (fill m)).2 = xs ++ List.replicate m () := by
  induction m generalizing xs with
  | zero => exact (List.append_nil xs).symm
  | succ m ih =>
    show (fifo (xs ++ [()]) (fill m)).2 = xs ++ () :: List.replicate m ()
    rw [ih, List.append_assoc]
    rfl

/-- While there is room, an element that comes leaves the beginning where it is. -/
theorem Holds.enqueue_room {q : BaseQueue Unit} {xs : List Unit} (h : q.Holds xs)
    (hroom : xs.length < q.capacity) : (Ints.enqueue q ()).Holds (xs ++ [()]) ∧
      (Ints.enqueue q ()).queueBegin = q.queueBegin ∧
        (Ints.enqueue q ()).capacity = q.capacity := by
  have hoverlap : q.overlap = false := by
    rw [← Bool.not_eq_true]
    intro hfull
    have hlen := h.full.mp hfull
    omega
  have hput : Ints.enqueue q () = q.put () := by
    unfold Ints.enqueue
    rw [hoverlap]
    rfl
  rw [hput]
  exact ⟨h.put hoverlap, rfl, rfl⟩

theorem begin_fill (m : Nat) : ∀ (q : BaseQueue Unit) (xs : List Unit), q.Holds xs →
    xs.length + m ≤ q.capacity → (q.calls (fill m)).2.queueBegin = q.queueBegin := by
  induction m with
  | zero => exact fun q xs _ _ => rfl
  | succ m ih =>
    intro q xs h hroom
    obtain ⟨hholds, hbegin, hcap⟩ := h.enqueue_room (by omega)
    have hlength : (xs ++ [()]).length = xs.length + 1 := List.length_append
    exact (ih _ _ hholds (by omega)).trans hbegin

/-- Each turn moves the beginning one place on. -/
theorem begin_turns (n m : Nat) : ∀ q : BaseQueue Unit, q.Holds [] →
    q.queueBegin + n < q.capacity → m ≤ q.capacity →
    (q.calls (turns n ++ fill m)).2.queueBegin = q.queueBegin + n := by
  induction n with
  | zero => exact fun q h _ hm => begin_fill m q [] h (by simpa using hm)
  | succ n ih =>
    intro q h hroom hm
    obtain ⟨hholds, hbegin, hcap⟩ := h.enqueue_room (by simp; omega)
    obtain ⟨-, hrest⟩ := hholds.dequeue
    have hempty : ¬ (Ints.enqueue q ()).isEmpty = true :=
      fun hempty => absurd (hholds.isEmpty_iff.mp hempty) (by simp)
    have hnext : (Ints.enqueue q ()).dequeue.2.queueBegin = q.queueBegin + 1 := by
      unfold BaseQueue.dequeue
      rw [if_neg hempty]
      show (if (Ints.enqueue q ()).queueBegin + 1 = (Ints.enqueue q ()).capacity then 0
        else (Ints.enqueue q ()).queueBegin + 1) = _
      rw [hbegin, hcap, if_neg (by omega)]
    have hcap' := (capacity_dequeue (Ints.enqueue q ())).trans hcap
    have hrun := ih _ hrest (by omega) (by omega)
    show ((Ints.enqueue q ()).dequeue.2.calls (turns n ++ fill m)).2.queueBegin = _
    rw [hrun, hnext]
    omega

theorem counted_turns (n : Nat) (cs : List (Call Unit)) (h : Counted [] cs) :
    Counted [] (turns n ++ cs) := by
  induction n with
  | zero => exact h
  | succ n ih => exact ⟨by decide, ih⟩

theorem counted_fill (m : Nat) (xs : List Unit) (h : xs.length + m < 2 ^ 31) :
    Counted xs (fill m) := by
  induction m generalizing xs with
  | zero => trivial
  | succ m ih =>
    have hlength : (xs ++ [()]).length = xs.length + 1 := List.length_append
    exact ⟨by omega, ih _ (by omega)⟩

/-- **A queue of 2^30 elements** that begins behind the place 2^30: `get` does not find the last
    of them. -/
theorem queue_not_fifo : ¬ LikeList (2 ^ 30 + 2) (turns (2 ^ 30 + 1) ++ fill (2 ^ 30)) := by
  intro hlike
  have hcount : Counted [] (turns (2 ^ 30 + 1) ++ fill (2 ^ 30)) :=
    counted_turns _ _ (counted_fill _ _ (by simp))
  have hnew : (create (2 ^ 30 + 2) : BaseQueue Unit).Holds [] := holds_create (by decide)
  obtain ⟨-, hholds, hfits⟩ := hnew.calls _ (show 2 ^ 30 + 2 < 2 ^ 31 by decide) hcount
  have hbegin := begin_turns (2 ^ 30 + 1) (2 ^ 30) _ hnew (show 0 + (2 ^ 30 + 1) < 2 ^ 30 + 2 by decide)
    (show 2 ^ 30 ≤ 2 ^ 30 + 2 by decide)
  have hsmall := (hholds.getInt_iff hfits).mp hlike.get
  rw [hbegin, fifo_turns, fifo_fill, List.nil_append, List.length_replicate] at hsmall
  exact absurd hsmall (by decide)

end

end BaseQueue

end MediaTomb
