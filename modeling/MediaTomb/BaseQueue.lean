/-
  `BaseQueue` (`zmmf/base_queue.h`), the queue of all task lists: an array that is used round and
  round, and grows when it is full.

  `Holds` connects it to the list it stands for, so that users need not look inside: `enqueue` puts
  an element at the end, `dequeue` takes the first, and growing LOSES NOTHING.
-/
import MediaTomb.Lib.Ring

namespace MediaTomb

open Lib.Ring

/-- `emptyType`, which `dequeue` returns when there is nothing, is `none`. -/
structure BaseQueue (α : Type) where
  data : Nat → Option α
  capacity : Nat
  queueBegin : Nat := 0
  queueEnd : Nat := 0
  /-- `queueEnd` has caught up with `queueBegin`: the queue is full -/
  overlap : Bool := false

namespace BaseQueue

variable {α : Type}

def create (initialCapacity : Nat) : BaseQueue α :=
  ⟨fun _ => none, initialCapacity, 0, 0, false⟩

def size (q : BaseQueue α) : Nat :=
  if q.overlap then q.capacity
  else if q.queueBegin ≤ q.queueEnd then q.queueEnd - q.queueBegin
  else q.capacity - q.queueBegin + q.queueEnd

def isEmpty (q : BaseQueue α) : Bool := !q.overlap && q.queueEnd == q.queueBegin

/-- `memmove(data + dst, data + src, n * sizeof(T))` -/
def memmove (data : Nat → Option α) (dst src n : Nat) : Nat → Option α := fun i =>
  if dst ≤ i ∧ i < dst + n then data (src + (i - dst)) else data i

def resize (q : BaseQueue α) (requiredSize : Nat) : BaseQueue α :=
  if q.capacity < requiredSize then
    let count := q.size
    let grown := count + count / 2
    let capacity := if grown < requiredSize then requiredSize else grown
    if (q.overlap && q.queueEnd != 0) || q.queueEnd < q.queueBegin then
      let moveAmount := q.capacity - q.queueBegin
      let newQueueBegin := capacity - moveAmount
      { q with
        data := memmove q.data newQueueBegin q.queueBegin moveAmount
        capacity := capacity
        queueBegin := newQueueBegin
        overlap := false }
    else
      { q with
        capacity := capacity
        queueEnd := if q.queueEnd = 0 then q.capacity else q.queueEnd
        overlap := false }
  else q

/-- The end of `enqueue`, where there is room. -/
def put (q : BaseQueue α) (element : α) : BaseQueue α :=
  let queueEnd := if q.queueEnd + 1 = q.capacity then 0 else q.queueEnd + 1
  { q with
    data := store q.data q.queueEnd [some element]
    queueEnd := queueEnd
    overlap := if queueEnd = q.queueBegin then true else q.overlap }

def enqueue (q : BaseQueue α) (element : α) : BaseQueue α :=
  (if q.overlap then q.resize (q.size + 1) else q).put element

def dequeue (q : BaseQueue α) : Option α × BaseQueue α :=
  if q.isEmpty then (none, q)
  else (q.data q.queueBegin,
    { q with
      queueBegin := if q.queueBegin + 1 = q.capacity then 0 else q.queueBegin + 1
      overlap := false })

/-- `get(index)`: nothing is taken. -/
def get (q : BaseQueue α) (index : Nat) : Option α :=
  q.data ((q.queueBegin + index) % q.capacity)

/-- `for (i = 0; i < q->size(); i++)` with a body that dereferences `q->get(i)`; `none` where that is
    nil. -/
def forEach {β : Type} (q : BaseQueue α) (body : β → α → β) (init : β) : Option β :=
  (List.range q.size).foldlM (fun acc i => (q.get i).map (body acc)) init

/-! ## The list it stands for -/

structure Holds (q : BaseQueue α) (xs : List α) : Prop where
  begins : q.queueBegin < q.capacity
  fits : xs.length ≤ q.capacity
  ends : q.queueEnd = slot q.capacity q.queueBegin xs.length
  full : q.overlap = true ↔ xs.length = q.capacity
  cells : window q.data q.capacity q.queueBegin xs.length = xs.map some

/-- The elements, the oldest first. -/
def toList (q : BaseQueue α) : List α :=
  (window q.data q.capacity q.queueBegin q.size).filterMap id

section

variable {q : BaseQueue α} {xs : List α} {x : α}

theorem holds_create {initialCapacity : Nat} (h : 0 < initialCapacity) :
    (create initialCapacity : BaseQueue α).Holds [] := by
  refine ⟨h, Nat.zero_le _, (slot_zero h).symm, ?_, rfl⟩
  constructor
  · intro hfull
    cases hfull
  · intro hzero
    have hpos : (0 : Nat) = initialCapacity := hzero
    omega

theorem Holds.size_eq (h : q.Holds xs) : q.size = xs.length := by
  have hends := h.ends
  have hbegins := h.begins
  have hfits := h.fits
  unfold size
  split_ifs with hoverlap hle
  · exact (h.full.mp hoverlap).symm
  · have hne : xs.length ≠ q.capacity := fun heq => hoverlap (h.full.mpr heq)
    unfold slot at hends
    split_ifs at hends <;> omega
  · unfold slot at hends
    split_ifs at hends <;> omega

theorem Holds.toList_eq (h : q.Holds xs) : q.toList = xs := by
  unfold toList
  rw [h.size_eq, h.cells, List.filterMap_map]
  exact List.filterMap_some

theorem Holds.isEmpty_iff (h : q.Holds xs) : q.isEmpty = true ↔ xs = [] := by
  have hends := h.ends
  have hbegins := h.begins
  have hfits := h.fits
  unfold isEmpty
  rw [Bool.and_eq_true, Bool.not_eq_true', beq_iff_eq]
  constructor
  · rintro ⟨hoverlap, heq⟩
    have hne : xs.length ≠ q.capacity := by
      intro hlen
      rw [h.full.mpr hlen] at hoverlap
      cases hoverlap
    apply List.eq_nil_of_length_eq_zero
    unfold slot at hends
    split_ifs at hends <;> omega
  · rintro rfl
    refine ⟨?_, hends.trans (slot_zero hbegins)⟩
    rw [← Bool.not_eq_true]
    intro hoverlap
    have hzero : 0 = q.capacity := h.full.mp hoverlap
    omega

/-- The array has got another capacity, and what stands at its old end is moved to the new one. -/
def growTo (q : BaseQueue α) (capacity : Nat) : BaseQueue α :=
  if (q.overlap && q.queueEnd != 0) || q.queueEnd < q.queueBegin then
    { q with
      data := memmove q.data (capacity - (q.capacity - q.queueBegin)) q.queueBegin
        (q.capacity - q.queueBegin)
      capacity := capacity
      queueBegin := capacity - (q.capacity - q.queueBegin)
      overlap := false }
  else
    { q with
      capacity := capacity
      queueEnd := if q.queueEnd = 0 then q.capacity else q.queueEnd
      overlap := false }

theorem capacity_growTo (q : BaseQueue α) (capacity : Nat) :
    (q.growTo capacity).capacity = capacity ∧ (q.growTo capacity).overlap = false := by
  unfold growTo
  split
  · exact ⟨rfl, rfl⟩
  · exact ⟨rfl, rfl⟩

/-- **Growing** a full queue loses nothing, whatever the new capacity. -/
theorem Holds.growTo {capacity : Nat} (h : q.Holds xs) (hoverlap : q.overlap = true)
    (hlarger : q.capacity < capacity) : (q.growTo capacity).Holds xs := by
  have hlen := h.full.mp hoverlap
  have hbegins := h.begins
  have hends : q.queueEnd = q.queueBegin := by
    rw [h.ends, hlen]
    unfold slot
    split_ifs <;> omega
  unfold BaseQueue.growTo
  split_ifs with hmove hzero
  · -- the elements up to the end of the old array move to the end of the new one
    have hpos : 0 < q.queueBegin := by
      by_contra hnot
      have hzero : q.queueBegin = 0 := by omega
      simp [hends, hzero] at hmove
    refine ⟨?_, ?_, ?_, ?_, ?_⟩
    · show capacity - (q.capacity - q.queueBegin) < capacity
      omega
    · show xs.length ≤ capacity
      omega
    · show q.queueEnd = slot capacity (capacity - (q.capacity - q.queueBegin)) xs.length
      unfold slot
      split_ifs <;> omega
    · show false = true ↔ xs.length = capacity
      constructor
      · intro hfalse
        cases hfalse
      · intro heq
        omega
    · rw [← h.cells]
      refine List.map_congr_left fun i hi => ?_
      have hi' := List.mem_range.mp hi
      show memmove q.data (capacity - (q.capacity - q.queueBegin)) q.queueBegin
        (q.capacity - q.queueBegin) (slot capacity (capacity - (q.capacity - q.queueBegin)) i) =
          q.data (slot q.capacity q.queueBegin i)
      unfold memmove slot
      split_ifs <;> first | omega | (congr 1; omega)
  · refine ⟨?_, ?_, ?_, ?_, ?_⟩
    · show q.queueBegin < capacity
      omega
    · show xs.length ≤ capacity
      omega
    · show q.capacity = slot capacity q.queueBegin xs.length
      unfold slot
      split_ifs <;> omega
    · show false = true ↔ xs.length = capacity
      constructor
      · intro hfalse
        cases hfalse
      · intro heq
        omega
    · rw [← h.cells]
      refine List.map_congr_left fun i hi => ?_
      have hi' := List.mem_range.mp hi
      show q.data (slot capacity q.queueBegin i) = q.data (slot q.capacity q.queueBegin i)
      unfold slot
      split_ifs <;> first | omega | rfl
  · exact absurd (by simp [hoverlap, hzero]) hmove

/-- A full queue that is asked for one place more. -/
theorem Holds.resize (h : q.Holds xs) (hoverlap : q.overlap = true) :
    (q.resize (q.size + 1)).Holds xs ∧ (q.resize (q.size + 1)).overlap = false := by
  have hlen := h.full.mp hoverlap
  have hsize := h.size_eq
  have hgrown : ∃ capacity, q.capacity < capacity ∧ q.resize (q.size + 1) = q.growTo capacity := by
    refine ⟨if q.size + q.size / 2 < q.size + 1 then q.size + 1 else q.size + q.size / 2, ?_, ?_⟩
    · split_ifs <;> omega
    · unfold BaseQueue.resize
      rw [if_pos (by omega)]
      rfl
  obtain ⟨capacity, hlarger, heq⟩ := hgrown
  rw [heq]
  exact ⟨h.growTo hoverlap hlarger, (capacity_growTo q capacity).2⟩

theorem Holds.put (h : q.Holds xs) (hroom : q.overlap = false) : (q.put x).Holds (xs ++ [x]) := by
  have hbegins := h.begins
  have hends := h.ends
  have hlt : xs.length < q.capacity := by
    have hfits := h.fits
    have hne : xs.length ≠ q.capacity := by
      intro hlen
      rw [h.full.mpr hlen] at hroom
      cases hroom
    omega
  have hin : q.queueEnd < q.capacity := by
    rw [hends]
    exact slot_lt hbegins (by omega)
  have hnext : (if q.queueEnd + 1 = q.capacity then 0 else q.queueEnd + 1) =
      slot q.capacity q.queueBegin (xs.length + 1) := by
    rw [hends]
    unfold slot
    split_ifs <;> omega
  have hlength : (xs ++ [x]).length = xs.length + 1 := List.length_append
  refine ⟨hbegins, by rw [hlength]; exact hlt, ?_, ?_, ?_⟩
  · rw [hlength]
    exact hnext
  · show (if (if q.queueEnd + 1 = q.capacity then 0 else q.queueEnd + 1) = q.queueBegin then true
      else q.overlap) = true ↔ (xs ++ [x]).length = q.capacity
    rw [hnext, hlength, hroom]
    have hround : slot q.capacity q.queueBegin (xs.length + 1) = q.queueBegin ↔
        xs.length + 1 = q.capacity := by
      unfold slot
      split_ifs <;> omega
    rw [← hround]
    split_ifs with heq
    · exact ⟨fun _ => heq, fun _ => rfl⟩
    · exact ⟨fun hfalse => (nomatch hfalse), fun hsame => absurd hsame heq⟩
  · show window (store q.data q.queueEnd [some x]) q.capacity q.queueBegin (xs ++ [x]).length = _
    rw [hlength, window_append hbegins (by omega), List.map_append, ← h.cells, ← hends]
    congr 1
    · exact window_store_behind (show xs.length + 1 ≤ q.capacity by omega) hends
        (show q.queueEnd + 1 ≤ q.capacity by omega)
    · exact window_store (show q.queueEnd + 1 ≤ q.capacity by omega)

/-- **The element comes to the end.** -/
theorem Holds.enqueue (h : q.Holds xs) : (q.enqueue x).Holds (xs ++ [x]) := by
  unfold BaseQueue.enqueue
  by_cases hoverlap : q.overlap = true
  · rw [if_pos hoverlap]
    obtain ⟨hgrown, hroom⟩ := h.resize hoverlap
    exact hgrown.put hroom
  · rw [if_neg hoverlap]
    rw [Bool.not_eq_true] at hoverlap
    exact h.put hoverlap

theorem Holds.dequeue_nil (h : q.Holds []) : q.dequeue = (none, q) := by
  unfold BaseQueue.dequeue
  rw [if_pos (h.isEmpty_iff.mpr rfl)]

/-- **The first element comes out.** -/
theorem Holds.dequeue_cons (h : q.Holds (x :: xs)) :
    q.dequeue.1 = some x ∧ q.dequeue.2.Holds xs := by
  have hbegins := h.begins
  have hends := h.ends
  have hfits := h.fits
  rw [List.length_cons] at hends hfits
  have hne : ¬ q.isEmpty = true := fun hempty => (nomatch h.isEmpty_iff.mp hempty)
  have hnext : (if q.queueBegin + 1 = q.capacity then 0 else q.queueBegin + 1) =
      slot q.capacity q.queueBegin 1 := by
    unfold slot
    split_ifs <;> omega
  have hcells := h.cells
  rw [List.length_cons, Nat.add_comm, window_append hbegins (by omega)] at hcells
  have hone : window q.data q.capacity q.queueBegin 1 = [q.data q.queueBegin] := by
    rw [window_linear (by omega)]
    rfl
  rw [hone, List.singleton_append, List.map_cons] at hcells
  obtain ⟨hfirst, hrest⟩ := List.cons.inj hcells
  unfold BaseQueue.dequeue
  rw [if_neg hne]
  refine ⟨hfirst, ⟨?_, ?_, ?_, ?_, ?_⟩⟩
  · show (if q.queueBegin + 1 = q.capacity then 0 else q.queueBegin + 1) < q.capacity
    split_ifs <;> omega
  · show xs.length ≤ q.capacity
    omega
  · show q.queueEnd = slot q.capacity (if q.queueBegin + 1 = q.capacity then 0
      else q.queueBegin + 1) xs.length
    rw [hnext, slot_slot hbegins (by omega), hends, Nat.add_comm]
  · show false = true ↔ xs.length = q.capacity
    constructor
    · intro hfalse
      cases hfalse
    · intro heq
      omega
  · show window q.data q.capacity (if q.queueBegin + 1 = q.capacity then 0
      else q.queueBegin + 1) xs.length = xs.map some
    rw [hnext]
    exact hrest

/-! ## Looking through it -/

theorem Holds.get (h : q.Holds xs) : (List.range xs.length).map q.get = xs.map some := by
  rw [← h.cells]
  refine List.map_congr_left fun i hi => ?_
  have hlt := List.mem_range.mp hi
  have hbegins := h.begins
  have hfits := h.fits
  show q.data ((q.queueBegin + i) % q.capacity) = q.data (slot q.capacity q.queueBegin i)
  congr 1
  unfold slot
  split_ifs with hin
  · exact Nat.mod_eq_of_lt hin
  · rw [Nat.mod_eq_sub_mod (by omega)]
    exact Nat.mod_eq_of_lt (by omega)

/-- **Every element is met once, in the order of the queue.** -/
theorem Holds.forEach {β : Type} (h : q.Holds xs) (body : β → α → β) (init : β) :
    q.forEach body init = some (xs.foldl body init) := by
  have hmap : ∀ (is : List Nat) (ys : List α) (acc : β), is.map q.get = ys.map some →
      is.foldlM (fun acc i => (q.get i).map (body acc)) acc = some (ys.foldl body acc) := by
    intro is
    induction is with
    | nil =>
      intro ys acc hsame
      have hnil : ys = [] := List.map_eq_nil_iff.mp hsame.symm
      rw [hnil]
      rfl
    | cons i is ih =>
      intro ys acc hsame
      cases ys with
      | nil => cases hsame
      | cons y ys =>
        rw [List.map_cons, List.map_cons] at hsame
        obtain ⟨hfirst, hrest⟩ := List.cons.inj hsame
        rw [List.foldlM_cons, hfirst]
        exact ih ys (body acc y) hrest
  unfold BaseQueue.forEach
  rw [h.size_eq]
  exact hmap _ _ _ h.get

end

end BaseQueue

end MediaTomb
