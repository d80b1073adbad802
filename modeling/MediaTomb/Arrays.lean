/-
  `BaseArray` and `ArrayBase` in their memory (`zmmf/base_array.h`, `zmmf/array.cc`).

    * DATA     a block of `capacity` cells, of which the first `siz` hold the elements.  What stands
               in the others is garbage.  The cells of an `ArrayBase` are pointers to objects that are
               counted, and may be NULL.
    * PROGRAM  elements are moved with `memmove`; an index or a size is an `int`, and a sum of two of
               them wraps around.  A call that leaves the block, or follows a NULL, has no result.
    * RESULT   each call does what it is called, with exactly these exceptions (`arrays_refine_iff`):
               a block that is removed must not reach beyond the end, where `remove` clips `max` but
               not `count`; the size after `append` and `insert` must be an `int`; and `ArrayBase`
               cannot take in, or remove unordered, a NULL.
-/
import MediaTomb.ArrayBase
import MediaTomb.Tools

namespace MediaTomb.Memory

/-! ## Blocks -/

/-- The members of both classes.  `none` is garbage, and `capacity` the length of the block. -/
structure Block (α : Type) where
  arr : List (Option α)
  siz : Int

namespace Block

variable {α : Type}

def capacity (a : Block α) : Int := a.arr.length

/-- `arr[index]`, read. -/
def read (arr : List (Option α)) (index : Int) : Option α :=
  if 0 ≤ index then arr[index.toNat]?.join else none

/-- `arr[index] = el` -/
def write (arr : List (Option α)) (index : Int) (el : α) : Option (List (Option α)) :=
  if 0 ≤ index ∧ index < arr.length then some (arr.set index.toNat (some el)) else none

/-- `memmove(arr + dst, arr + src, n * sizeof(T))` -/
def memmove (arr : List (Option α)) (dst src n : Int) : Option (List (Option α)) :=
  if (0 ≤ dst ∧ dst + n ≤ arr.length) ∧ (0 ≤ src ∧ src + n ≤ arr.length) ∧ 0 ≤ n then
    some (arr.take dst.toNat ++ ((arr.drop src.toNat).take n.toNat ++ arr.drop (dst + n).toNat))
  else none

/-- `if (move)` there is anything to shift, over the `count` elements at `index`; the same in both
    versions of `remove`. -/
def shift (arr : List (Option α)) (index count move : Int) : Option (List (Option α)) :=
  if move ≠ 0 then memmove arr index (index + count) move else some arr

/-- `resize`, the same in both classes. -/
def resize (a : Block α) (requiredSize : Int) : Block α :=
  if a.capacity < requiredSize then
    let newCapacity := sumInt a.siz (a.siz.tdiv 2)
    let newCapacity := if newCapacity < requiredSize then requiredSize else newCapacity
    { a with arr := a.arr ++ List.replicate (newCapacity - a.capacity).toNat none }
  else a

/-- The block holds these elements, and its capacity is an `int`. -/
structure Holds (a : Block α) (xs : List α) : Prop where
  siz : a.siz = xs.length
  cells : ∃ rest, a.arr = xs.map some ++ rest
  int : a.arr.length < 2 ^ 31

end Block

/-! ## `BaseArray` -/

namespace BaseArray

open Block

variable {α : Type}

def append (a : Block α) (el : α) : Option (Block α) := do
  let a := a.resize (sumInt a.siz 1)
  let arr ← write a.arr a.siz el
  some { arr, siz := sumInt a.siz 1 }

def insert (a : Block α) (index : Int) (el : α) : Option (Block α) := do
  let a := a.resize (sumInt a.siz 1)
  let arr ← memmove a.arr (sumInt index 1) index (a.siz - index)
  let arr ← write arr index el
  some { arr, siz := sumInt a.siz 1 }

def remove (a : Block α) (index count : Int) : Option (Block α) :=
  if index < 0 ∨ a.siz ≤ index then some a
  else
    let max := sumInt index count
    let max := if a.siz < max then a.siz else max
    if max ≤ index then some a
    else do
      let move := a.siz - max
      let arr ← shift a.arr index count move
      some { arr, siz := sumInt a.siz (-count) }

def removeUnordered (a : Block α) (index : Int) : Option (Block α) :=
  if index < 0 ∨ a.siz ≤ index then some a
  else do
    let last ← read a.arr (sumInt a.siz (-1))
    let arr ← write a.arr index last
    some { arr, siz := sumInt a.siz (-1) }

end BaseArray

/-! ## `ArrayBase` -/

namespace ArrayBase

open Block

variable {O : Type}

def append (a : Block (Option O)) (obj : Option O) : Option (Block (Option O)) := do
  let _ ← obj -- obj->retain()
  BaseArray.append a obj

/-- The loop of `remove`: the objects it releases, and the cells, now NULL. -/
def releaseCells : Nat → Int → List (Option (Option O)) →
    Option (List O × List (Option (Option O)))
  | 0, _, arr => some ([], arr)
  | n + 1, i, arr => do
    let obj ← read arr i
    let arr ← write arr i none
    let (released, arr) ← releaseCells n (i + 1) arr
    some (obj.toList ++ released, arr)

/-- `remove`; the objects that are released come with the result. -/
def remove (a : Block (Option O)) (index count : Int) : Option (List O × Block (Option O)) :=
  if index < 0 ∨ a.siz ≤ index then some ([], a)
  else
    let max := sumInt index count
    let max := if a.siz < max then a.siz else max
    if max ≤ index then some ([], a)
    else do
      let (released, arr) ← releaseCells (max - index).toNat index a.arr
      let move := a.siz - max
      let arr ← shift arr index count move
      some (released, { arr, siz := sumInt a.siz (-count) })

def removeUnordered (a : Block (Option O)) (index : Int) :
    Option (List O × Block (Option O)) :=
  if index < 0 ∨ a.siz ≤ index then some ([], a)
  else do
    let cell ← read a.arr index
    let obj ← cell -- obj->release()
    let last ← read a.arr (sumInt a.siz (-1))
    let arr ← write a.arr index last
    let arr ← write arr (sumInt a.siz (-1)) none
    some ([obj], { arr, siz := sumInt a.siz (-1) })

def insert (a : Block (Option O)) (index : Int) (obj : Option O) :
    Option (Block (Option O)) := do
  let a := a.resize (sumInt a.siz 1)
  let arr ← memmove a.arr (sumInt index 1) index (a.siz - index)
  let _ ← obj -- obj->retain()
  let arr ← write arr index obj
  some { arr, siz := sumInt a.siz 1 }

end ArrayBase

/-! ## What the calls mean -/

inductive Call (α : Type) where
  | append (el : α)
  | insert (index : Int) (el : α)
  | remove (index count : Int)
  | removeUnordered (index : Int)

namespace Call

variable {α O : Type}

/-- The call on a `BaseArray`. -/
def onBase (a : Block α) : Call α → Option (Block α)
  | append el => BaseArray.append a el
  | insert index el => BaseArray.insert a index el
  | remove index count => BaseArray.remove a index count
  | removeUnordered index => BaseArray.removeUnordered a index

/-- The call on an `ArrayBase`. -/
def onArray (a : Block (Option O)) : Call (Option O) → Option (Block (Option O))
  | append obj => ArrayBase.append a obj
  | insert index obj => ArrayBase.insert a index obj
  | remove index count => (ArrayBase.remove a index count).map Prod.snd
  | removeUnordered index => (ArrayBase.removeUnordered a index).map Prod.snd

/-- The elements but for those from `index` on, `count` of them or as many as there are. -/
def deleted (xs : List α) (index count : Int) : List α :=
  if 0 ≤ index ∧ index < xs.length then
    xs.take index.toNat ++ xs.drop (max index (min (index + count) xs.length)).toNat
  else xs

/-- **What a call makes of a list.**  `removeUnordered` may leave the others in any order. -/
def Means (xs ys : List α) : Call α → Prop
  | append el => ys = xs ++ [el]
  | insert index el => ys = xs.take index.toNat ++ el :: xs.drop index.toNat
  | remove index count => ys = deleted xs index count
  | removeUnordered index =>
    if h : 0 ≤ index ∧ index < xs.length then
      (xs.get ⟨index.toNat, by omega⟩ :: ys).Perm xs
    else ys = xs

/-- Indices and counts are `int`s, and an element is inserted at a place of the list. -/
def Legal (xs : List α) : Call α → Prop
  | append _ => True
  | insert index _ => 0 ≤ index ∧ index ≤ xs.length
  | remove index count => (-(2 ^ 31) ≤ index ∧ index < 2 ^ 31) ∧ -(2 ^ 31) ≤ count ∧ count < 2 ^ 31
  | removeUnordered index => -(2 ^ 31) ≤ index ∧ index < 2 ^ 31

/-- Where both classes do it: one more element is still an `int`, and what is removed ends within
    the list. -/
def Fits (xs : List α) : Call α → Prop
  | append _ | insert _ _ => (xs.length : Int) + 1 < 2 ^ 31
  | remove index count => index < 0 ∨ xs.length ≤ index ∨ index + count ≤ xs.length
  | removeUnordered _ => True

/-- Where no NULL is followed. -/
def NotNull (xs : List (Option O)) : Call (Option O) → Prop
  | append obj | insert _ obj => obj ≠ none
  | remove _ _ => True
  | removeUnordered index => 0 ≤ index → xs[index.toNat]? ≠ some none

end Call

namespace Block

section

variable {α : Type} {a : Block α} {xs p m s : List α} {arr rest : List (Option α)} {c : Option α}
  {el : α} {index count : Int}

theorem Holds.length_lt (h : a.Holds xs) : xs.length < 2 ^ 31 := by
  obtain ⟨rest, hrest⟩ := h.cells
  have hint := h.int
  rw [hrest, List.length_append, List.length_map] at hint
  omega

theorem holds_of {a : Block α} (hsiz : a.siz = xs.length) (harr : a.arr = xs.map some ++ rest)
    (hint : a.arr.length < 2 ^ 31) : a.Holds xs := ⟨hsiz, ⟨rest, harr⟩, hint⟩

/-! ## Cells -/

theorem write_at (hindex : index = (p.length : Int)) :
    write (p.map some ++ c :: rest) index el = some ((p ++ [el]).map some ++ rest) := by
  unfold write
  have hlength : (p.map some).length = p.length := List.length_map _
  rw [if_pos ⟨by omega, by rw [List.length_append, List.length_cons, hlength]; omega⟩, hindex,
    Int.toNat_natCast, ← hlength, List.set_append_right _ _ (Nat.le_refl _), Nat.sub_self,
    List.set_cons_zero, List.map_append]
  exact congrArg some (List.append_assoc _ [some el] rest).symm

theorem write_outside (h : arr.length ≤ index) : write arr index el = none := by
  unfold write
  rw [if_neg]
  omega

theorem read_at (hindex : index = (p.length : Int)) :
    read (p.map some ++ some el :: rest) index = some el := by
  unfold read
  have hlength : (p.map some).length = p.length := List.length_map _
  rw [if_pos (by omega), hindex, Int.toNat_natCast, ← hlength,
    List.getElem?_append_right (Nat.le_refl _), Nat.sub_self]
  rfl

/-- Elements move one place up. -/
theorem memmove_up (hindex : index = (p.length : Int)) :
    ∃ c', memmove (p.map some ++ (s.map some ++ c :: rest)) (index + 1) index s.length =
      some (p.map some ++ c' :: (s.map some ++ rest)) := by
  have hp : (p.map some).length = p.length := List.length_map _
  have hs : (s.map some).length = s.length := List.length_map _
  obtain ⟨c', cells, hcells⟩ : ∃ c' cells, s.map some ++ c :: rest = c' :: cells := by
    cases s with
    | nil => exact ⟨c, rest, rfl⟩
    | cons x s => exact ⟨some x, s.map some ++ c :: rest, rfl⟩
  refine ⟨c', ?_⟩
  have hlong : (s.map some ++ c :: rest).length = s.length + 1 + rest.length := by
    rw [List.length_append, List.length_cons, hs]
    omega
  unfold memmove
  rw [if_pos (by rw [List.length_append, hp, hlong]; omega)]
  have htake : (p.map some ++ (s.map some ++ c :: rest)).take (index + 1).toNat =
      p.map some ++ [c'] := by
    have hnat : (index + 1).toNat = (p.map some).length + 1 := by omega
    rw [hnat, List.take_length_add_append, hcells]
    rfl
  have hmoved : ((p.map some ++ (s.map some ++ c :: rest)).drop index.toNat).take
      (s.length : Int).toNat = s.map some := by
    have hnat : index.toNat = (p.map some).length := by omega
    rw [hnat, List.drop_left, Int.toNat_natCast, ← hs, List.take_left]
  have hdrop : (p.map some ++ (s.map some ++ c :: rest)).drop (index + 1 + (s.length : Int)).toNat =
      rest := by
    have hnat : (index + 1 + (s.length : Int)).toNat =
        (p.map some ++ (s.map some ++ [c])).length := by
      rw [List.length_append, List.length_append, hp, hs, List.length_singleton]
      omega
    have hassoc : p.map some ++ (s.map some ++ c :: rest) =
        (p.map some ++ (s.map some ++ [c])) ++ rest := by
      rw [List.append_assoc, List.append_assoc, List.singleton_append]
    rw [hnat, hassoc, List.drop_left]
  rw [htake, hmoved, hdrop, List.append_assoc]
  rfl

/-- Elements move down over a gap. -/
theorem memmove_down {gap : List (Option α)} (hindex : index = (p.length : Int))
    (hcount : count = (gap.length : Int)) :
    ∃ rest', memmove (p.map some ++ (gap ++ (s.map some ++ rest))) index (index + count) s.length =
      some (p.map some ++ (s.map some ++ rest')) ∧ rest'.length = gap.length + rest.length := by
  have hp : (p.map some).length = p.length := List.length_map _
  have hs : (s.map some).length = s.length := List.length_map _
  have hlong : (p.map some ++ (gap ++ (s.map some ++ rest))).length =
      p.length + (gap.length + (s.length + rest.length)) := by
    rw [List.length_append, List.length_append, List.length_append, hp, hs]
  refine ⟨(p.map some ++ (gap ++ (s.map some ++ rest))).drop (index + (s.length : Int)).toNat,
    ?_, ?_⟩
  · have htake : (p.map some ++ (gap ++ (s.map some ++ rest))).take index.toNat = p.map some := by
      have hnat : index.toNat = (p.map some).length := by omega
      rw [hnat, List.take_left]
    have hmoved : ((p.map some ++ (gap ++ (s.map some ++ rest))).drop (index + count).toNat).take
        (s.length : Int).toNat = s.map some := by
      have hnat : (index + count).toNat = (p.map some ++ gap).length := by
        rw [List.length_append]
        omega
      rw [hnat, ← List.append_assoc, List.drop_left, Int.toNat_natCast, ← hs, List.take_left]
    unfold memmove
    rw [if_pos (by rw [hlong]; omega), htake, hmoved]
  · rw [List.length_drop, hlong]
    omega

/-! ## Growing -/

/-- After `resize` there is a cell behind the elements. -/
theorem Holds.resize (h : a.Holds xs) (hcount : (xs.length : Int) + 1 < 2 ^ 31) :
    (a.resize (sumInt a.siz 1)).siz = a.siz ∧ (a.resize (sumInt a.siz 1)).arr.length < 2 ^ 31 ∧
      ∃ c rest, (a.resize (sumInt a.siz 1)).arr = xs.map some ++ c :: rest := by
  obtain ⟨rest, hrest⟩ := h.cells
  have hint := h.int
  have hlength : a.arr.length = xs.length + rest.length := by
    rw [hrest, List.length_append, List.length_map]
  have hone : sumInt a.siz 1 = xs.length + 1 := by
    rw [h.siz]
    exact sumInt_small (by omega) (by omega)
  unfold Block.resize capacity
  rw [hone]
  split
  · next hfull =>
    have hnil : rest = [] := List.length_eq_zero_iff.mp (by omega)
    have hgrown : sumInt a.siz (a.siz.tdiv 2) < 2 ^ 31 := by
      unfold sumInt
      rw [Int.bmod_def]
      split <;> omega
    -- the new capacity is what is asked for, or more
    simp only
    generalize hcap : (if sumInt a.siz (a.siz.tdiv 2) < (xs.length : Int) + 1 then
      (xs.length : Int) + 1 else sumInt a.siz (a.siz.tdiv 2)) = newCapacity
    have hlarge : (xs.length : Int) + 1 ≤ newCapacity ∧ newCapacity < 2 ^ 31 := by
      rw [← hcap]
      split <;> omega
    obtain ⟨n, hn⟩ : ∃ n, (newCapacity - (a.arr.length : Int)).toNat = n + 1 :=
      ⟨(newCapacity - (a.arr.length : Int)).toNat - 1, by omega⟩
    refine ⟨trivial, ?_, none, List.replicate n none, ?_⟩
    · show (a.arr ++ List.replicate (newCapacity - (a.arr.length : Int)).toNat none).length < 2 ^ 31
      rw [List.length_append, List.length_replicate]
      omega
    · show a.arr ++ List.replicate (newCapacity - (a.arr.length : Int)).toNat none = _
      rw [hn, hrest, hnil, List.append_nil]
      rfl
  · next hroom =>
    refine ⟨rfl, hint, ?_⟩
    cases rest with
    | nil =>
      rw [List.length_nil] at hlength
      omega
    | cons c rest => exact ⟨c, rest, hrest⟩

/-- An array of `2^31 - 1` elements is full, and `resize` does not notice. -/
theorem Holds.resize_full (h : a.Holds xs) (hcount : 2 ^ 31 ≤ (xs.length : Int) + 1) :
    a.resize (sumInt a.siz 1) = a ∧ a.siz = 2 ^ 31 - 1 ∧ a.arr.length = 2 ^ 31 - 1 := by
  have hlt := h.length_lt
  have hint := h.int
  have hsiz := h.siz
  obtain ⟨rest, hrest⟩ := h.cells
  have hlength : a.arr.length = xs.length + rest.length := by
    rw [hrest, List.length_append, List.length_map]
  have hone : sumInt a.siz 1 = a.siz + 1 - 2 ^ 32 := sumInt_large (by omega) (by omega)
  refine ⟨?_, by omega, by omega⟩
  unfold Block.resize capacity
  rw [if_neg]
  omega

end

end Block

/-! ## `append` and `insert` -/

section

variable {α : Type} {a : Block α} {xs : List α} {rest : List (Option α)} {el : α}
  {index count : Int}

open Block

theorem BaseArray.append_holds (h : a.Holds xs) (hcount : (xs.length : Int) + 1 < 2 ^ 31) :
    ∃ a', BaseArray.append a el = some a' ∧ a'.Holds (xs ++ [el]) := by
  obtain ⟨hsiz, hint, c, rest, harr⟩ := h.resize hcount
  have hindex : (a.resize (sumInt a.siz 1)).siz = (xs.length : Int) := by
    rw [hsiz]
    exact h.siz
  have hone : sumInt (a.resize (sumInt a.siz 1)).siz 1 = ((xs ++ [el]).length : Int) := by
    rw [hindex, sumInt_small (by omega) (by omega), List.length_append, List.length_singleton]
    omega
  refine ⟨{ arr := (xs ++ [el]).map some ++ rest, siz := ((xs ++ [el]).length : Int) }, ?_, ?_⟩
  · unfold BaseArray.append
    simp only
    rw [harr, write_at hindex, hone]
    rfl
  · refine holds_of rfl rfl ?_
    rw [harr, List.length_append, List.length_map, List.length_cons] at hint
    show ((xs ++ [el]).map some ++ rest).length < 2 ^ 31
    rw [List.length_append, List.length_map, List.length_append, List.length_singleton]
    omega

theorem BaseArray.append_full (h : a.Holds xs) (hcount : 2 ^ 31 ≤ (xs.length : Int) + 1) :
    BaseArray.append a el = none := by
  obtain ⟨hsame, hsiz, hlength⟩ := h.resize_full hcount
  unfold BaseArray.append
  simp only
  rw [hsame, write_outside (by omega)]
  rfl

/-- The elements before the index, the new one, and those that have moved up. -/
theorem BaseArray.insert_holds (h : a.Holds xs) (hcount : (xs.length : Int) + 1 < 2 ^ 31)
    (hindex : 0 ≤ index ∧ index ≤ xs.length) :
    ∃ a', BaseArray.insert a index el = some a' ∧
      a'.Holds (xs.take index.toNat ++ el :: xs.drop index.toNat) := by
  obtain ⟨hsiz, hint, c, rest, harr⟩ := h.resize hcount
  have hplace : index = ((xs.take index.toNat).length : Int) := by
    rw [List.length_take]
    omega
  have hbehind : (a.resize (sumInt a.siz 1)).siz - index = ((xs.drop index.toNat).length : Int) := by
    rw [hsiz, h.siz, List.length_drop]
    omega
  have hcells : xs.map some ++ c :: rest =
      (xs.take index.toNat).map some ++ ((xs.drop index.toNat).map some ++ c :: rest) := by
    rw [← List.append_assoc, ← List.map_append, List.take_append_drop]
  obtain ⟨c', hmoved⟩ := @memmove_up _ (xs.take index.toNat) (xs.drop index.toNat) rest c index hplace
  have hnew : (xs.take index.toNat ++ [el]).map some ++ ((xs.drop index.toNat).map some ++ rest) =
      (xs.take index.toNat ++ el :: xs.drop index.toNat).map some ++ rest := by
    rw [List.map_append, List.map_append, List.append_assoc, List.append_assoc]
    rfl
  have hlength : (xs.take index.toNat ++ el :: xs.drop index.toNat).length = xs.length + 1 := by
    rw [List.length_append, List.length_cons, List.length_take, List.length_drop]
    omega
  have hone : sumInt (a.resize (sumInt a.siz 1)).siz 1 =
      ((xs.take index.toNat ++ el :: xs.drop index.toNat).length : Int) := by
    rw [hsiz, h.siz, sumInt_small (by omega) (by omega), hlength]
    omega
  refine ⟨{ arr := (xs.take index.toNat ++ el :: xs.drop index.toNat).map some ++ rest,
            siz := ((xs.take index.toNat ++ el :: xs.drop index.toNat).length : Int) }, ?_, ?_⟩
  · unfold BaseArray.insert
    simp only
    rw [@sumInt_small index 1 (by omega) (by omega), harr, hbehind, hcells, hmoved]
    show (write ((xs.take index.toNat).map some ++ c' :: ((xs.drop index.toNat).map some ++ rest))
      index el).bind _ = _
    rw [write_at hplace, hnew, hone]
    rfl
  · refine holds_of rfl rfl ?_
    rw [harr, List.length_append, List.length_map, List.length_cons] at hint
    show ((xs.take index.toNat ++ el :: xs.drop index.toNat).map some ++ rest).length < 2 ^ 31
    rw [List.length_append, List.length_map, hlength]
    omega

theorem BaseArray.insert_full (h : a.Holds xs) (hcount : 2 ^ 31 ≤ (xs.length : Int) + 1)
    (hindex : 0 ≤ index ∧ index ≤ xs.length) : BaseArray.insert a index el = none := by
  obtain ⟨hsame, hsiz, hlength⟩ := h.resize_full hcount
  have hlt := h.length_lt
  have hmoved : memmove a.arr (sumInt index 1) index (a.siz - index) = none := by
    unfold memmove
    rw [if_neg]
    -- behind the last element there is no room, and the index after it is negative
    by_cases hlast : index = 2 ^ 31 - 1
    · rw [sumInt_large (by omega) (by omega)]
      omega
    · rw [sumInt_small (by omega) (by omega)]
      omega
  unfold BaseArray.insert
  simp only
  rw [hsame, hmoved]
  rfl

/-! ## `remove` -/

/-- What `remove` is asked to delete, when it has something to do and does not reach beyond the
    end. -/
structure Within (xs : List α) (index count : Int) : Prop where
  first : 0 ≤ index
  some : 0 < count
  last : index + count ≤ xs.length

/-- The elements before the block, in it, and behind it. -/
theorem Within.split (h : Within xs index count) :
    xs = xs.take index.toNat ++ ((xs.drop index.toNat).take count.toNat ++
        xs.drop (index + count).toNat) ∧
      index = ((xs.take index.toNat).length : Int) ∧
      count = (((xs.drop index.toNat).take count.toNat).length : Int) ∧
      (xs.length : Int) - (index + count) = ((xs.drop (index + count).toNat).length : Int) := by
  obtain ⟨hfirst, hsome, hlast⟩ := h
  refine ⟨?_, ?_, ?_, ?_⟩
  · have hsum : (index + count).toNat = count.toNat + index.toNat := by omega
    rw [hsum, Nat.add_comm, ← List.drop_drop, List.take_append_drop, List.take_append_drop]
  · rw [List.length_take]
    omega
  · rw [List.length_take, List.length_drop]
    omega
  · rw [List.length_drop]
    omega

theorem Within.deleted (h : Within xs index count) :
    Call.deleted xs index count = xs.take index.toNat ++ xs.drop (index + count).toNat := by
  obtain ⟨hfirst, hsome, hlast⟩ := h
  unfold Call.deleted
  rw [if_pos (by omega), min_eq_left hlast, max_eq_right (by omega)]

theorem deleted_nothing (h : index < 0 ∨ (xs.length : Int) ≤ index ∨ count ≤ 0) :
    Call.deleted xs index count = xs := by
  unfold Call.deleted
  split
  · rw [max_eq_left (by omega), List.take_append_drop]
  · rfl

/-- The last part of both versions: what is behind the block moves over it. -/
theorem shift_cells {p gap s : List α} {cells rest : List (Option α)}
    (hgap : cells.length = gap.length) (hindex : index = (p.length : Int))
    (hcount : count = (gap.length : Int)) :
    ∃ rest', shift (p.map some ++ (cells ++ (s.map some ++ rest))) index count s.length =
      some ((p ++ s).map some ++ rest') ∧ rest'.length = gap.length + rest.length := by
  unfold shift
  by_cases hs : (s.length : Int) ≠ 0
  · rw [if_pos hs]
    obtain ⟨rest', hmoved, hlength⟩ := @memmove_down _ p s rest index count cells hindex (by omega)
    refine ⟨rest', ?_, by omega⟩
    rw [hmoved, List.map_append, List.append_assoc]
  · have hnil : s = [] := List.length_eq_zero_iff.mp (by omega)
    rw [if_neg hs, hnil, List.append_nil]
    exact ⟨cells ++ rest, rfl, by rw [List.length_append, hgap]⟩

theorem BaseArray.remove_nothing (hint : 0 ≤ index ∧ index + count < 2 ^ 31 ∧ -(2 ^ 31) ≤ count)
    (hcount : count ≤ 0) : BaseArray.remove a index count = some a := by
  unfold BaseArray.remove
  split
  · rfl
  · next hindex =>
    simp only
    rw [sumInt_small (by omega) (by omega), if_neg (by omega : ¬ a.siz < index + count),
      if_pos (by omega)]

theorem shift_nothing {arr : List (Option α)} {move : Int} (h : move = 0) :
    shift arr index count move = some arr := if_neg (not_not.mpr h)

/-- The size a call of `remove` leaves behind if the block reaches beyond the end. -/
theorem overshoot_siz (hsiz : a.siz = xs.length) (hindex : 0 ≤ index ∧ index < xs.length)
    (hint : (xs.length : Int) < 2 ^ 31 ∧ count < 2 ^ 31) (hlast : xs.length < index + count) :
    sumInt a.siz (-count) < index := by
  rw [sumInt_small (by omega) (by omega)]
  omega

/-- `max`, after it has been clipped: the end of the array, or an overflow. -/
theorem overshoot_max (hsiz : a.siz = xs.length) (hindex : 0 ≤ index ∧ index < xs.length)
    (hint : (xs.length : Int) < 2 ^ 31 ∧ count < 2 ^ 31) (hlast : xs.length < index + count) :
    (if a.siz < sumInt index count then a.siz else sumInt index count) ≤ index ∨
      (if a.siz < sumInt index count then a.siz else sumInt index count) = a.siz := by
  by_cases hsum : index + count < 2 ^ 31
  · rw [sumInt_small (by omega) hsum, if_pos (by omega)]
    exact Or.inr rfl
  · rw [sumInt_large (by omega) (by omega), if_neg (by omega)]
    left
    omega

theorem BaseArray.remove_overshoot {a' : Block α} (hsiz : a.siz = xs.length)
    (hindex : 0 ≤ index ∧ index < xs.length)
    (hint : (xs.length : Int) < 2 ^ 31 ∧ count < 2 ^ 31) (hlast : xs.length < index + count)
    (hremove : BaseArray.remove a index count = some a') : a'.siz ≠ index := by
  unfold BaseArray.remove at hremove
  rw [if_neg (by omega)] at hremove
  simp only at hremove
  have hshort := overshoot_siz hsiz hindex hint hlast
  rcases overshoot_max hsiz hindex hint hlast with hmax | hmax
  · rw [if_pos hmax] at hremove
    cases hremove
    omega
  · rw [hmax, if_neg (by omega), shift_nothing (by omega)] at hremove
    cases hremove
    exact ne_of_lt hshort

theorem BaseArray.remove_holds (h : a.Holds xs) (hwithin : Within xs index count) :
    ∃ a', BaseArray.remove a index count = some a' ∧
      a'.Holds (Call.deleted xs index count) := by
  have hlt := h.length_lt
  have hint := h.int
  obtain ⟨rest, harr⟩ := h.cells
  obtain ⟨hxs, hindex, hcount, hbehind⟩ := hwithin.split
  rw [hwithin.deleted]
  generalize xs.take index.toNat = p at *
  generalize (xs.drop index.toNat).take count.toNat = gap at *
  generalize xs.drop (index + count).toNat = s at *
  have hlength : xs.length = p.length + (gap.length + s.length) := by
    rw [hxs, List.length_append, List.length_append]
  have hcells : a.arr = p.map some ++ (gap.map some ++ (s.map some ++ rest)) := by
    rw [harr, hxs, List.map_append, List.map_append, List.append_assoc, List.append_assoc]
  obtain ⟨rest', hmoved, hrest'⟩ := @shift_cells _ index count p gap s (gap.map some) rest
    (List.length_map _) hindex hcount
  have hsize : sumInt a.siz (-count) = ((p ++ s).length : Int) := by
    rw [h.siz, sumInt_small (by omega) (by omega), List.length_append]
    omega
  obtain ⟨hfirst, hsome, hlast⟩ := hwithin
  refine ⟨{ arr := (p ++ s).map some ++ rest', siz := ((p ++ s).length : Int) }, ?_, ?_⟩
  · unfold BaseArray.remove
    have hsiz := h.siz
    rw [if_neg (by omega)]
    simp only
    rw [@sumInt_small index count (by omega) (by omega), if_neg (by omega : ¬ a.siz < index + count),
      if_neg (by omega), hsiz, hbehind, hcells, hmoved, ← hsiz, hsize]
    rfl
  · refine holds_of rfl rfl ?_
    rw [hcells] at hint
    simp only [List.length_append, List.length_map] at hint
    simp only [List.length_append, List.length_map]
    omega

/-! ## `removeUnordered` -/

/-- The last element is written over the one at the index, as on a list
    (`MediaTomb.ArrayBase.removeUnordered`). -/
theorem unordered_cells (hindex : 0 ≤ index ∧ index < xs.length) :
    ∃ last l, read (xs.map some ++ rest) ((xs.length : Int) - 1) = some last ∧
      write (xs.map some ++ rest) index last =
        some ((MediaTomb.ArrayBase.removeUnordered xs index.toNat).map some ++ some l :: rest) ∧
      (MediaTomb.ArrayBase.removeUnordered xs index.toNat).length + 1 = xs.length := by
  obtain ⟨n, hn⟩ : ∃ n : Nat, index = n := ⟨index.toNat, by omega⟩
  subst hn
  rw [Int.toNat_natCast]
  rcases List.eq_nil_or_concat' xs with hnil | ⟨init, last, hxs⟩
  · rw [hnil, List.length_nil] at hindex
    omega
  · have hlength : xs.length = init.length + 1 := by
      rw [hxs, List.length_append, List.length_singleton]
    have hremoved : MediaTomb.ArrayBase.removeUnordered xs n = (xs.set n last).dropLast := by
      unfold MediaTomb.ArrayBase.removeUnordered
      have hlast : xs.getLast? = some last := by
        rw [hxs, List.getLast?_append_of_ne_nil _ (List.cons_ne_nil last []),
          List.getLast?_singleton]
      rw [hlast]
      exact if_pos (by omega)
    have hne : xs.set n last ≠ [] := by
      rw [← List.length_pos_iff, List.length_set]
      omega
    refine ⟨last, (xs.set n last).getLast hne, ?_, ?_, ?_⟩
    · rw [hxs, List.map_append, List.append_assoc]
      apply read_at
      rw [List.length_append, List.length_singleton]
      omega
    · have hcells : (xs.map some ++ rest).set n (some last) =
          (xs.set n last).map some ++ rest := by
        rw [List.set_append_left _ _ (by rw [List.length_map]; omega), List.map_set]
      have hsplit := congrArg (List.map some) (List.dropLast_append_getLast hne)
      unfold write
      rw [if_pos (by rw [List.length_append, List.length_map]; omega), Int.toNat_natCast, hcells,
        ← hsplit, List.map_append, List.append_assoc, hremoved]
      rfl
    · rw [hremoved, List.length_dropLast, List.length_set]
      omega

theorem BaseArray.removeUnordered_outside (hindex : ¬ (0 ≤ index ∧ index < a.siz)) :
    BaseArray.removeUnordered a index = some a := if_pos (by omega)

theorem BaseArray.removeUnordered_holds (h : a.Holds xs) (hindex : 0 ≤ index ∧ index < xs.length) :
    ∃ a', BaseArray.removeUnordered a index = some a' ∧
      a'.Holds (MediaTomb.ArrayBase.removeUnordered xs index.toNat) := by
  have hlt := h.length_lt
  have hint := h.int
  have hsiz := h.siz
  obtain ⟨rest, harr⟩ := h.cells
  obtain ⟨last, l, hread, hwrite, hlength⟩ := @unordered_cells _ xs rest index hindex
  have hone : sumInt a.siz (-1) = (xs.length : Int) - 1 := by
    rw [hsiz]
    exact sumInt_small (by omega) (by omega)
  refine ⟨{ arr := (MediaTomb.ArrayBase.removeUnordered xs index.toNat).map some ++ some l :: rest,
            siz := (xs.length : Int) - 1 }, ?_, ?_⟩
  · unfold BaseArray.removeUnordered
    rw [if_neg (by omega), hone, harr, hread]
    show (write (xs.map some ++ rest) index last).bind _ = _
    rw [hwrite]
    rfl
  · refine holds_of ?_ rfl ?_
    · show (xs.length : Int) - 1 = _
      omega
    · rw [harr, List.length_append, List.length_map] at hint
      show (_ ++ some l :: rest).length < 2 ^ 31
      rw [List.length_append, List.length_map, List.length_cons]
      omega

end

/-! ## The same with objects -/

section

variable {O : Type} {a : Block (Option O)} {xs : List (Option O)} {obj : O} {index count : Int}

open Block

theorem ArrayBase.append_object : ArrayBase.append a (some obj) = BaseArray.append a (some obj) := rfl

theorem ArrayBase.append_null : ArrayBase.append a none = none := rfl

/-- `retain` comes between the two moves, and changes neither. -/
theorem ArrayBase.insert_object :
    ArrayBase.insert a index (some obj) = BaseArray.insert a index (some obj) := rfl

theorem ArrayBase.insert_null : ArrayBase.insert a index none = none := by
  unfold ArrayBase.insert
  simp only
  cases memmove (a.resize (sumInt a.siz 1)).arr (sumInt index 1) index
    ((a.resize (sumInt a.siz 1)).siz - index) with
  | none => rfl
  | some arr => rfl

/-- The loop of `remove` releases the objects it meets, and leaves NULLs. -/
theorem ArrayBase.releaseCells_at {tail : List (Option (Option O))} :
    ∀ (gap p : List (Option O)) (index : Int), index = (p.length : Int) →
      ArrayBase.releaseCells gap.length index (p.map some ++ (gap.map some ++ tail)) =
        some (gap.reduceOption, p.map some ++ (List.replicate gap.length (some none) ++ tail)) := by
  intro gap
  induction gap with
  | nil =>
    intro p index hindex
    rfl
  | cons obj gap ih =>
    intro p index hindex
    have hread : read (p.map some ++ some obj :: (gap.map some ++ tail)) index = some obj :=
      read_at hindex
    have hwrite : write (p.map some ++ some obj :: (gap.map some ++ tail)) index none =
        some ((p ++ [none]).map some ++ (gap.map some ++ tail)) := write_at hindex
    have hnext := ih (p ++ [none]) (index + 1) (by
      rw [List.length_append, List.length_singleton]
      omega)
    rw [List.length_cons, List.map_cons, List.cons_append]
    unfold ArrayBase.releaseCells
    rw [hread]
    show (write (p.map some ++ some obj :: (gap.map some ++ tail)) index none).bind _ = _
    rw [hwrite]
    show (ArrayBase.releaseCells gap.length (index + 1) _).bind _ = _
    rw [hnext, List.replicate_succ, List.map_append, List.append_assoc]
    cases obj with
    | none => rfl
    | some obj => rfl

theorem ArrayBase.remove_nothing (hint : 0 ≤ index ∧ index + count < 2 ^ 31 ∧ -(2 ^ 31) ≤ count)
    (hcount : count ≤ 0) : ArrayBase.remove a index count = some ([], a) := by
  unfold ArrayBase.remove
  split
  · rfl
  · next hindex =>
    simp only
    rw [sumInt_small (by omega) (by omega), if_neg (by omega : ¬ a.siz < index + count),
      if_pos (by omega)]

theorem ArrayBase.remove_overshoot {released : List O} {a' : Block (Option O)}
    (hsiz : a.siz = xs.length) (hindex : 0 ≤ index ∧ index < xs.length)
    (hint : (xs.length : Int) < 2 ^ 31 ∧ count < 2 ^ 31) (hlast : xs.length < index + count)
    (hremove : ArrayBase.remove a index count = some (released, a')) : a'.siz ≠ index := by
  unfold ArrayBase.remove at hremove
  rw [if_neg (by omega)] at hremove
  simp only at hremove
  have hshort := overshoot_siz hsiz hindex hint hlast
  rcases overshoot_max hsiz hindex hint hlast with hmax | hmax
  · rw [if_pos hmax] at hremove
    cases hremove
    omega
  · rw [hmax, if_neg (by omega)] at hremove
    -- whatever the loop releases, the size is the same
    cases hloop : ArrayBase.releaseCells (a.siz - index).toNat index a.arr with
    | none =>
      rw [hloop] at hremove
      cases hremove
    | some state =>
      rw [hloop] at hremove
      have hshift : (shift state.2 index count (a.siz - a.siz)).bind (fun arr =>
          some (state.1, { arr, siz := sumInt a.siz (-count) })) = some (released, a') := hremove
      rw [shift_nothing (by omega)] at hshift
      cases hshift
      exact ne_of_lt hshort

/-- **The objects that are released are those deleted.** -/
theorem ArrayBase.remove_holds (h : a.Holds xs) (hwithin : Within xs index count) :
    ∃ a', ArrayBase.remove a index count =
        some (((xs.drop index.toNat).take count.toNat).reduceOption, a') ∧
      a'.Holds (Call.deleted xs index count) := by
  have hlt := h.length_lt
  have hint := h.int
  obtain ⟨rest, harr⟩ := h.cells
  obtain ⟨hxs, hindex, hcount, hbehind⟩ := hwithin.split
  rw [hwithin.deleted]
  generalize xs.take index.toNat = p at *
  generalize (xs.drop index.toNat).take count.toNat = gap at *
  generalize xs.drop (index + count).toNat = s at *
  have hlength : xs.length = p.length + (gap.length + s.length) := by
    rw [hxs, List.length_append, List.length_append]
  have hcells : a.arr = p.map some ++ (gap.map some ++ (s.map some ++ rest)) := by
    rw [harr, hxs, List.map_append, List.map_append, List.append_assoc, List.append_assoc]
  have hloop : ArrayBase.releaseCells (index + count - index).toNat index a.arr =
      some (gap.reduceOption,
        p.map some ++ (List.replicate gap.length (some none) ++ (s.map some ++ rest))) := by
    have hcount' : (index + count - index).toNat = gap.length := by omega
    rw [hcount', hcells]
    exact ArrayBase.releaseCells_at gap p index hindex
  obtain ⟨rest', hmoved, hrest'⟩ := @shift_cells _ index count p gap s
    (List.replicate gap.length (some none)) rest List.length_replicate hindex hcount
  have hsize : sumInt a.siz (-count) = ((p ++ s).length : Int) := by
    rw [h.siz, sumInt_small (by omega) (by omega), List.length_append]
    omega
  obtain ⟨hfirst, hsome, hlast⟩ := hwithin
  refine ⟨{ arr := (p ++ s).map some ++ rest', siz := ((p ++ s).length : Int) }, ?_, ?_⟩
  · unfold ArrayBase.remove
    have hsiz := h.siz
    rw [if_neg (by omega)]
    simp only
    rw [@sumInt_small index count (by omega) (by omega), if_neg (by omega : ¬ a.siz < index + count),
      if_neg (by omega), hloop, hsiz, hbehind]
    show (shift (p.map some ++ (List.replicate gap.length (some none) ++ (s.map some ++ rest)))
      index count s.length).bind _ = _
    rw [hmoved, ← hsiz, hsize]
    rfl
  · refine holds_of rfl rfl ?_
    rw [hcells] at hint
    simp only [List.length_append, List.length_map] at hint
    simp only [List.length_append, List.length_map]
    omega

theorem ArrayBase.removeUnordered_outside (hindex : ¬ (0 ≤ index ∧ index < a.siz)) :
    ArrayBase.removeUnordered a index = some ([], a) := if_pos (by omega)

theorem ArrayBase.removeUnordered_null (h : a.Holds xs) (hindex : 0 ≤ index ∧ index < xs.length)
    (hnull : xs[index.toNat]? = some none) : ArrayBase.removeUnordered a index = none := by
  have hsiz := h.siz
  obtain ⟨rest, harr⟩ := h.cells
  have hread : read a.arr index = some none := by
    unfold Block.read
    rw [if_pos hindex.1, harr, List.getElem?_append_left (by rw [List.length_map]; omega),
      List.getElem?_map, hnull]
    rfl
  unfold ArrayBase.removeUnordered
  rw [if_neg (by omega), hread]
  rfl

theorem ArrayBase.removeUnordered_holds (h : a.Holds xs) (hindex : 0 ≤ index ∧ index < xs.length)
    (hobj : xs[index.toNat]? = some (some obj)) :
    ∃ a', ArrayBase.removeUnordered a index = some ([obj], a') ∧
      a'.Holds (MediaTomb.ArrayBase.removeUnordered xs index.toNat) := by
  have hlt := h.length_lt
  have hint := h.int
  have hsiz := h.siz
  obtain ⟨rest, harr⟩ := h.cells
  obtain ⟨last, l, hread, hwrite, hlength⟩ := @unordered_cells _ xs rest index hindex
  have hcell : read a.arr index = some (some obj) := by
    unfold Block.read
    rw [if_pos hindex.1, harr, List.getElem?_append_left (by rw [List.length_map]; omega),
      List.getElem?_map, hobj]
    rfl
  have hone : sumInt a.siz (-1) = (xs.length : Int) - 1 := by
    rw [hsiz]
    exact sumInt_small (by omega) (by omega)
  have hnull : write ((MediaTomb.ArrayBase.removeUnordered xs index.toNat).map some ++ some l :: rest)
      ((xs.length : Int) - 1) none =
        some ((MediaTomb.ArrayBase.removeUnordered xs index.toNat ++ [none]).map some ++ rest) :=
    write_at (by omega)
  refine ⟨{ arr := (MediaTomb.ArrayBase.removeUnordered xs index.toNat ++ [none]).map some ++ rest,
            siz := (xs.length : Int) - 1 }, ?_, ?_⟩
  · unfold ArrayBase.removeUnordered
    rw [if_neg (by omega), hcell, hone]
    show (read a.arr ((xs.length : Int) - 1)).bind _ = _
    rw [harr, hread]
    show (write (xs.map some ++ rest) index last).bind _ = _
    rw [hwrite]
    show (write _ ((xs.length : Int) - 1) none).bind _ = _
    rw [hnull]
    rfl
  · refine ⟨?_, ⟨some none :: rest, ?_⟩, ?_⟩
    · show (xs.length : Int) - 1 = _
      omega
    · show (_ ++ [none]).map some ++ rest = _
      rw [List.map_append, List.append_assoc]
      rfl
    · rw [harr, List.length_append, List.length_map] at hint
      show ((_ ++ [none]).map some ++ rest).length < 2 ^ 31
      rw [List.length_append, List.length_map, List.length_append, List.length_singleton]
      omega

end

/-! ## Every call -/

section

variable {α : Type} {xs ys : List α} {index count : Int}

open Block

/-- A list has no other length than the array that holds it. -/
theorem Block.Holds.not_of_siz {a : Block α} (hsiz : a.siz ≠ ys.length) : ¬ a.Holds ys :=
  fun h => hsiz h.siz

/-- Only what stands before the index is left. -/
theorem overshoot_length (hindex : 0 ≤ index ∧ index < xs.length)
    (hlast : (xs.length : Int) < index + count) :
    ((Call.deleted xs index count).length : Int) = index := by
  unfold Call.deleted
  rw [if_pos hindex, List.length_append, List.length_take, List.length_drop]
  omega

theorem means_removeUnordered (hindex : 0 ≤ index ∧ index < xs.length) :
    (Call.removeUnordered index).Means xs (MediaTomb.ArrayBase.removeUnordered xs index.toNat) := by
  show (if h : _ then _ else _)
  rw [dif_pos hindex]
  exact MediaTomb.ArrayBase.removeUnordered_perm_of_get (List.getElem?_eq_getElem (by omega))

theorem means_removeUnordered_outside (hindex : ¬ (0 ≤ index ∧ index < xs.length)) :
    (Call.removeUnordered index).Means xs xs := by
  show (if h : _ then _ else _)
  rw [dif_neg hindex]

/-- Where `remove` has something to do, where it has not, and where it goes wrong. -/
theorem remove_cases (xs : List α) (index count : Int) :
    ((index < 0 ∨ (xs.length : Int) ≤ index) ∨ (0 ≤ index ∧ index < xs.length) ∧
      (count ≤ 0 ∨ Within xs index count ∨ (xs.length : Int) < index + count)) := by
  by_cases hindex : 0 ≤ index ∧ index < xs.length
  · refine Or.inr ⟨hindex, ?_⟩
    by_cases hcount : count ≤ 0
    · exact Or.inl hcount
    · by_cases hlast : index + count ≤ xs.length
      · exact Or.inr (Or.inl ⟨hindex.1, by omega, hlast⟩)
      · exact Or.inr (Or.inr (by omega))
  · left
    omega

theorem Block.Holds.remove_iff {a : Block α} (h : a.Holds xs)
    (hlegal : (Call.remove index count).Legal xs) :
    (∃ a', BaseArray.remove a index count = some a' ∧ a'.Holds (Call.deleted xs index count)) ↔
      (Call.remove index count).Fits xs := by
  have hsiz := h.siz
  have hlt := h.length_lt
  obtain ⟨⟨hlow, hhigh⟩, hcountLow, hcountHigh⟩ := hlegal
  rcases remove_cases xs index count with houtside | ⟨hindex, hcount | hwithin | hlast⟩
  · refine iff_of_true ⟨a, if_pos (by omega), ?_⟩ (by unfold Call.Fits; omega)
    rw [deleted_nothing (by omega)]
    exact h
  · refine iff_of_true ⟨a, BaseArray.remove_nothing (by omega) hcount, ?_⟩
      (by unfold Call.Fits; omega)
    rw [deleted_nothing (by omega)]
    exact h
  · exact iff_of_true (BaseArray.remove_holds h hwithin) (Or.inr (Or.inr hwithin.last))
  · refine iff_of_false ?_ (by unfold Call.Fits; omega)
    rintro ⟨a', hremove, hholds⟩
    have hshort := BaseArray.remove_overshoot hsiz hindex (by omega) hlast hremove
    rw [hholds.siz] at hshort
    exact hshort (overshoot_length hindex hlast)

/-- **A call on a `BaseArray` does to the list what it is called, exactly if it fits.** -/
theorem BaseArray.call_iff {a : Block α} (h : a.Holds xs) (call : Call α)
    (hlegal : call.Legal xs) :
    (∃ a', call.onBase a = some a' ∧ ∃ ys, a'.Holds ys ∧ call.Means xs ys) ↔ call.Fits xs := by
  cases call with
  | append el =>
    by_cases hcount : (xs.length : Int) + 1 < 2 ^ 31
    · obtain ⟨a', happend, hholds⟩ := @BaseArray.append_holds _ a xs el h hcount
      exact iff_of_true ⟨a', happend, _, hholds, rfl⟩ hcount
    · refine iff_of_false ?_ hcount
      rintro ⟨a', happend, -⟩
      rw [Call.onBase, BaseArray.append_full h (by omega)] at happend
      cases happend
  | insert index el =>
    by_cases hcount : (xs.length : Int) + 1 < 2 ^ 31
    · obtain ⟨a', hinsert, hholds⟩ := @BaseArray.insert_holds _ a xs el index h hcount hlegal
      exact iff_of_true ⟨a', hinsert, _, hholds, rfl⟩ hcount
    · refine iff_of_false ?_ hcount
      rintro ⟨a', hinsert, -⟩
      rw [Call.onBase, BaseArray.insert_full h (by omega) hlegal] at hinsert
      cases hinsert
  | remove index count =>
    rw [← h.remove_iff hlegal]
    constructor
    · rintro ⟨a', hremove, ys, hholds, rfl⟩
      exact ⟨a', hremove, hholds⟩
    · rintro ⟨a', hremove, hholds⟩
      exact ⟨a', hremove, _, hholds, rfl⟩
  | removeUnordered index =>
    refine iff_of_true ?_ trivial
    by_cases hindex : 0 ≤ index ∧ index < xs.length
    · obtain ⟨a', hremoved, hholds⟩ := BaseArray.removeUnordered_holds h hindex
      exact ⟨a', hremoved, _, hholds, means_removeUnordered hindex⟩
    · refine ⟨a, BaseArray.removeUnordered_outside ?_, xs, h, means_removeUnordered_outside hindex⟩
      rw [h.siz]
      exact hindex

end

section

variable {O : Type} {a : Block (Option O)} {xs : List (Option O)} {index count : Int}

open Block

theorem Block.Holds.removeObjects_iff (h : a.Holds xs)
    (hlegal : (Call.remove index count).Legal xs) :
    (∃ a', (Call.remove index count).onArray a = some a' ∧
      a'.Holds (Call.deleted xs index count)) ↔ (Call.remove index count).Fits xs := by
  have hsiz := h.siz
  have hlt := h.length_lt
  obtain ⟨⟨hlow, hhigh⟩, hcountLow, hcountHigh⟩ := hlegal
  rcases remove_cases xs index count with houtside | ⟨hindex, hcount | hwithin | hlast⟩
  · refine iff_of_true ⟨a, ?_, ?_⟩ (by unfold Call.Fits; omega)
    · have hnothing : ArrayBase.remove a index count = some ([], a) := if_pos (by omega)
      rw [Call.onArray, hnothing]
      rfl
    · rw [deleted_nothing (by omega)]
      exact h
  · refine iff_of_true ⟨a, ?_, ?_⟩ (by unfold Call.Fits; omega)
    · rw [Call.onArray, ArrayBase.remove_nothing (by omega) hcount]
      rfl
    · rw [deleted_nothing (by omega)]
      exact h
  · refine iff_of_true ?_ (Or.inr (Or.inr hwithin.last))
    obtain ⟨a', hremove, hholds⟩ := ArrayBase.remove_holds h hwithin
    refine ⟨a', ?_, hholds⟩
    rw [Call.onArray, hremove]
    rfl
  · refine iff_of_false ?_ (by unfold Call.Fits; omega)
    rintro ⟨a', hcall, hholds⟩
    obtain ⟨⟨released, b⟩, hremove, hb⟩ := Option.map_eq_some_iff.mp hcall
    have hshort := ArrayBase.remove_overshoot hsiz hindex (by omega) hlast hremove
    have hsame : b = a' := hb
    rw [hsame, hholds.siz] at hshort
    exact hshort (overshoot_length hindex hlast)

/-- **The same on an `ArrayBase`, with no NULL followed.** -/
theorem ArrayBase.call_iff (h : a.Holds xs) (call : Call (Option O)) (hlegal : call.Legal xs) :
    (∃ a', call.onArray a = some a' ∧ ∃ ys, a'.Holds ys ∧ call.Means xs ys) ↔
      call.Fits xs ∧ call.NotNull xs := by
  cases call with
  | append el =>
    cases el with
    | none =>
      refine iff_of_false ?_ (fun hfits => hfits.2 rfl)
      rintro ⟨a', happend, -⟩
      cases happend
    | some obj =>
      have hbase := BaseArray.call_iff h (Call.append (some obj)) hlegal
      exact hbase.trans ⟨fun hfits => ⟨hfits, Option.some_ne_none obj⟩, And.left⟩
  | insert index el =>
    cases el with
    | none =>
      refine iff_of_false ?_ (fun hfits => hfits.2 rfl)
      rintro ⟨a', hinsert, -⟩
      rw [Call.onArray, ArrayBase.insert_null] at hinsert
      cases hinsert
    | some obj =>
      have hbase := BaseArray.call_iff h (Call.insert index (some obj)) hlegal
      exact hbase.trans ⟨fun hfits => ⟨hfits, Option.some_ne_none obj⟩, And.left⟩
  | remove index count =>
    refine Iff.trans ?_ (h.removeObjects_iff hlegal |>.trans ⟨fun hfits => ⟨hfits, trivial⟩, And.left⟩)
    constructor
    · rintro ⟨a', hremove, ys, hholds, rfl⟩
      exact ⟨a', hremove, hholds⟩
    · rintro ⟨a', hremove, hholds⟩
      exact ⟨a', hremove, _, hholds, rfl⟩
  | removeUnordered index =>
    by_cases hindex : 0 ≤ index ∧ index < xs.length
    · have hget : xs[index.toNat]? = some xs[index.toNat] := List.getElem?_eq_getElem (by omega)
      cases hcell : xs[index.toNat] with
      | none =>
        rw [hcell] at hget
        refine iff_of_false ?_ (fun hfits => hfits.2 hindex.1 hget)
        rintro ⟨a', hremoved, -⟩
        rw [Call.onArray, ArrayBase.removeUnordered_null h hindex hget] at hremoved
        cases hremoved
      | some obj =>
        rw [hcell] at hget
        refine iff_of_true ?_ ⟨trivial, fun _ hnull => ?_⟩
        · obtain ⟨a', hremoved, hholds⟩ := ArrayBase.removeUnordered_holds h hindex hget
          refine ⟨a', ?_, _, hholds, means_removeUnordered hindex⟩
          rw [Call.onArray, hremoved]
          rfl
        · rw [hget] at hnull
          cases hnull
    · refine iff_of_true ?_ ⟨trivial, fun hfirst hnull => ?_⟩
      · refine ⟨a, ?_, xs, h, means_removeUnordered_outside hindex⟩
        rw [Call.onArray, ArrayBase.removeUnordered_outside (by rw [h.siz]; exact hindex)]
        rfl
      · obtain ⟨hlt, -⟩ := List.getElem?_eq_some_iff.mp hnull
        omega

end

/-- **Both arrays refine lists, with exactly these exceptions.**  A call has a result, and an array
    that holds what the call makes of the list, if and only if the call fits; for an `ArrayBase` it
    must follow no NULL besides. -/
theorem arrays_refine_iff {α O : Type} :
    (∀ (a : Block α) (xs : List α) (call : Call α), a.Holds xs → call.Legal xs →
      ((∃ a', call.onBase a = some a' ∧ ∃ ys, a'.Holds ys ∧ call.Means xs ys) ↔ call.Fits xs)) ∧
    (∀ (a : Block (Option O)) (xs : List (Option O)) (call : Call (Option O)), a.Holds xs →
      call.Legal xs →
      ((∃ a', call.onArray a = some a' ∧ ∃ ys, a'.Holds ys ∧ call.Means xs ys) ↔
        call.Fits xs ∧ call.NotNull xs)) :=
  ⟨fun _ _ call h hlegal => BaseArray.call_iff h call hlegal,
    fun _ _ call h hlegal => ArrayBase.call_iff h call hlegal⟩

/-- Three elements in four cells. -/
def three : Block Nat := { arr := [some 1, some 2, some 3, none], siz := 3 }

theorem three_holds : three.Holds [1, 2, 3] := ⟨rfl, ⟨[none], rfl⟩, by decide⟩

def threeObjects : Block (Option Nat) :=
  { arr := [some (some 1), some (some 2), some none, none], siz := 3 }

theorem threeObjects_holds : threeObjects.Holds [some 1, some 2, none] :=
  ⟨rfl, ⟨[none], rfl⟩, by decide⟩

/-- The middle of three is removed; and the NULL cannot be removed unordered. -/
theorem arrays_refine_three :
    (∃ a', (Call.remove 1 1).onBase three = some a' ∧
      ∃ ys, a'.Holds ys ∧ (Call.remove 1 1).Means [1, 2, 3] ys) ∧
    ¬ ∃ a', (Call.removeUnordered 2).onArray threeObjects = some a' ∧
      ∃ ys, a'.Holds ys ∧ (Call.removeUnordered 2).Means [some 1, some 2, none] ys :=
  ⟨((@arrays_refine_iff Nat Nat).1 three [1, 2, 3] (Call.remove 1 1) three_holds
      ⟨⟨by decide, by decide⟩, by decide, by decide⟩).mpr (Or.inr (Or.inr (by decide))),
    fun h => (((@arrays_refine_iff Nat Nat).2 threeObjects _ (Call.removeUnordered 2)
      threeObjects_holds ⟨by decide, by decide⟩).mp h).2 (by decide) rfl⟩

/-- **Removing five elements from the second on leaves the size `-2`.**  The block is cut at the end
    of the array, and then all five are subtracted. -/
theorem remove_overshoots :
    three.Holds [1, 2, 3] ∧ (Call.remove 1 5).Legal [1, 2, 3] ∧
      ((Call.remove 1 5).onBase three).map Block.siz = some (-2) ∧
      ¬ ∃ a', (Call.remove 1 5).onBase three = some a' ∧
        ∃ ys, a'.Holds ys ∧ (Call.remove 1 5).Means [1, 2, 3] ys := by
  have hsiz : ((Call.remove 1 5).onBase three).map Block.siz = some (-2) := by decide +kernel
  refine ⟨three_holds, ⟨⟨by decide, by decide⟩, by decide, by decide⟩, hsiz, ?_⟩
  rintro ⟨a', hcall, ys, hholds, -⟩
  rw [hcall] at hsiz
  have hnegative : a'.siz = -2 := Option.some.inj hsiz
  have hlength := hholds.siz
  omega

end MediaTomb.Memory
