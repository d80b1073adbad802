/-
  `quicksort` (`tools.cc`).

  DATA.     an array, and a comparator that tells by the sign of an `int`.
  PROGRAM.  in place: the element in the middle is the PIVOT and goes to the end; two indices run
            towards each other and swap what is on the wrong side; the pivot goes to where they
            meet, and both sides are sorted.  Two elements are a case of their own.
  RESULT.   every array of `n` elements becomes a sorted permutation of itself, EXACTLY when `n` is
            at most 2^30 + 1 (`quicksort_sorts_iff`).

  In a larger array the middle of a range is looked for at `(lo + hi) / 2` where `lo + hi` is no
  `int` any more; the index is negative then.

  The two indices meet because the element at `hi` is not below the pivot whenever the loop begins
  anew: it is the parked pivot, or what has been swapped there.  So `hi` moves in every round.
-/
import MediaTomb.Tools

namespace MediaTomb

/-! ## The program -/

section

variable {α : Type}

/-- `a[i]`; `none` outside. -/
def readAt (a : List α) (i : Int) : Option α := if i < 0 then none else a[i.toNat]?

/-- `a[i] = x` -/
def writeAt (a : List α) (i : Int) (x : α) : Option (List α) :=
  if 0 ≤ i ∧ i < a.length then some (a.set i.toNat x) else none

/-- `T = a[i]; a[i] = a[j]; a[j] = T;` -/
def swapAt (a : List α) (i j : Int) : Option (List α) := do
  let t ← readAt a i
  let x ← readAt a j
  let a ← writeAt a i x
  writeAt a j t

/-- `while (comparator(a[lo], pivot) <= 0 && lo < hi) lo++;` -/
def searchForward (comparator : α → α → Int) (a : List α) (pivot : α) (lo hi : Int) : Option Int :=
  match readAt a lo with
  | none => none
  | some x =>
    if comparator x pivot ≤ 0 ∧ lo < hi then searchForward comparator a pivot (lo + 1) hi
    else some lo
termination_by (hi - lo).toNat

/-- `while (comparator(pivot, a[hi]) <= 0 && lo < hi) hi--;` -/
def searchBackward (comparator : α → α → Int) (a : List α) (pivot : α) (lo hi : Int) :
    Option Int :=
  match readAt a hi with
  | none => none
  | some x =>
    if comparator pivot x ≤ 0 ∧ lo < hi then searchBackward comparator a pivot lo (hi - 1)
    else some hi
termination_by (hi - lo).toNat

/-- `while (lo < hi)`, for so many rounds. -/
def partitionLoop (comparator : α → α → Int) (pivot : α) :
    Nat → List α → Int → Int → Option (List α × Int × Int)
  | 0, _, _, _ => none
  | fuel + 1, a, lo, hi =>
    if lo < hi then do
      let lo ← searchForward comparator a pivot lo hi
      let hi ← searchBackward comparator a pivot lo hi
      let a ← if lo < hi then swapAt a lo hi else some a
      partitionLoop comparator pivot fuel a lo hi
    else some (a, lo, hi)

/-- `quicksort_impl`, for so many calls within each other. -/
def quicksortImpl (comparator : α → α → Int) : Nat → List α → Int → Int → Option (List α)
  | 0, _, _, _ => none
  | fuel + 1, a, lo0, hi0 =>
    if lo0 ≥ hi0 then some a
    else if lo0 = hi0 - 1 then do
      let x ← readAt a lo0
      let y ← readAt a hi0
      if comparator x y > 0 then swapAt a lo0 hi0 else some a
    else do
      let middle := (sumInt lo0 hi0).tdiv 2
      let pivot ← readAt a middle
      let a ← swapAt a middle hi0
      let (a, lo, hi) ← partitionLoop comparator pivot fuel a lo0 hi0
      let x ← readAt a hi
      let a ← writeAt a hi0 x
      let a ← writeAt a hi pivot
      let a ← quicksortImpl comparator fuel a lo0 (lo - 1)
      quicksortImpl comparator fuel a (hi + 1) hi0

/-- `quicksort` -/
def quicksort (comparator : α → α → Int) (fuel : Nat) (arr : List α) : Option (List α) :=
  quicksortImpl comparator fuel arr 0 (arr.length - 1)

/-! ## What it is for -/

/-- A comparator that orders the elements, with ties. -/
structure TotalPreorder (comparator : α → α → Int) : Prop where
  refl : ∀ x, comparator x x = 0
  total : ∀ x y, comparator x y ≤ 0 ∨ comparator y x ≤ 0
  trans : ∀ x y z, comparator x y ≤ 0 → comparator y z ≤ 0 → comparator x z ≤ 0

def Sorted (comparator : α → α → Int) (a : List α) : Prop :=
  a.Pairwise fun x y => comparator x y ≤ 0

/-- **The array is sorted**: `quicksort` returns, without an index outside, and leaves a permutation
    of the array in order. -/
def Sorts (comparator : α → α → Int) (a : List α) : Prop :=
  ∃ r, (∀ fuel > a.length, quicksort comparator fuel a = some r) ∧ r.Perm a ∧ Sorted comparator r

/-! ## Places in an array -/

variable {a before between behind : List α} {x y : α} {i j : Int}

theorem readAt_append (hi : i = before.length) : readAt (before ++ x :: behind) i = some x := by
  subst hi
  rw [readAt, if_neg (by omega), Int.toNat_natCast, List.getElem?_append_right le_rfl,
    Nat.sub_self]
  rfl

theorem readAt_negative (hi : i < 0) : readAt a i = none := if_pos hi

theorem writeAt_append (hi : i = before.length) :
    writeAt (before ++ x :: behind) i y = some (before ++ y :: behind) := by
  subst hi
  rw [writeAt, if_pos ⟨by omega, by rw [List.length_append, List.length_cons]; omega⟩,
    Int.toNat_natCast, List.set_append_right _ _ le_rfl, Nat.sub_self]
  rfl

theorem swapAt_append (hi : i = before.length) (hj : j = before.length + 1 + between.length) :
    swapAt (before ++ x :: (between ++ y :: behind)) i j
      = some (before ++ y :: (between ++ x :: behind)) := by
  have hassoc : ∀ z w, before ++ z :: (between ++ w :: behind)
      = (before ++ z :: between) ++ w :: behind := by
    intro z w
    rw [List.append_assoc, List.cons_append]
  have hj' : ∀ z, j = ((before ++ z :: between).length : Nat) := by
    intro z
    rw [List.length_append, List.length_cons]
    omega
  have hread : readAt (before ++ x :: (between ++ y :: behind)) j = some y := by
    rw [hassoc]
    exact readAt_append (hj' x)
  rw [swapAt, readAt_append hi]
  simp only [Option.bind_eq_bind, Option.bind_some, hread]
  rw [writeAt_append hi, Option.bind_some, hassoc, writeAt_append (hj' y), hassoc]

theorem perm_swap_ends : (y :: (between ++ [x])).Perm (x :: (between ++ [y])) :=
  calc (y :: (between ++ [x])).Perm (y :: x :: between) :=
        (List.perm_append_singleton x between).cons y
    List.Perm _ (x :: y :: between) := List.Perm.swap x y between
    List.Perm _ (x :: (between ++ [y])) := (List.perm_append_singleton y between).symm.cons x

/-! ## The two indices -/

variable {comparator : α → α → Int} {pivot : α} {middle after : List α} {lo hi : Int}

/-- **Forward**: over elements that are not above the pivot, to one that is or to the last. -/
theorem searchForward_append (comparator : α → α → Int) (pivot : α) (behind : List α)
    (hmiddle : middle ≠ []) (hlo : lo = before.length)
    (hhi : hi = before.length + middle.length - 1) :
    ∃ passed rest, middle = passed ++ rest ∧ rest ≠ [] ∧ (∀ x ∈ passed, comparator x pivot ≤ 0) ∧
      searchForward comparator (before ++ middle ++ behind) pivot lo hi
        = some ((before.length : Int) + passed.length) ∧
      (rest.length = 1 ∨ ∃ x more, rest = x :: more ∧ 0 < comparator x pivot) := by
  induction middle generalizing before lo with
  | nil => exact absurd rfl hmiddle
  | cons x middle ih =>
    have hread : readAt (before ++ x :: middle ++ behind) lo = some x := by
      rw [List.append_assoc, List.cons_append]
      exact readAt_append hlo
    rw [List.length_cons] at hhi
    by_cases hstop : 0 < comparator x pivot ∨ middle = []
    · refine ⟨[], x :: middle, rfl, List.cons_ne_nil _ _, ?_, ?_, ?_⟩
      · exact fun y hy => absurd hy List.not_mem_nil
      · rw [searchForward, hread]
        simp only
        rw [if_neg ?_]
        · rw [hlo]
          simp
        · rintro ⟨hle, hlt⟩
          rcases hstop with hgt | hnil
          · omega
          · rw [hnil, List.length_nil] at hhi
            omega
      · rcases hstop with hgt | hnil
        · exact Or.inr ⟨x, middle, rfl, hgt⟩
        · rw [hnil]
          exact Or.inl rfl
    · push Not at hstop
      obtain ⟨hle, hne⟩ := hstop
      have hpos := List.length_pos_iff.2 hne
      have hassoc : before ++ x :: middle ++ behind = (before ++ [x]) ++ middle ++ behind := by
        simp
      obtain ⟨passed, rest, hsplit, hrest, hpassed, hforward, hend⟩ :=
        @ih (before ++ [x]) (lo + 1) hne (by
          rw [List.length_append, List.length_singleton]
          omega) (by
          rw [List.length_append, List.length_singleton]
          omega)
      refine ⟨x :: passed, rest, by rw [hsplit, List.cons_append], hrest, ?_, ?_, hend⟩
      · intro y hy
        rcases List.mem_cons.1 hy with rfl | hin
        · exact hle
        · exact hpassed y hin
      · have hlt : lo < hi := by omega
        rw [searchForward, hread]
        simp only
        rw [if_pos ⟨hle, hlt⟩, hassoc, hforward, List.length_append, List.length_singleton,
          List.length_cons]
        congr 1
        omega

/-- **Backward**: over elements that are not below the pivot, to one that is or to the first. -/
theorem searchBackward_append (comparator : α → α → Int) (pivot : α) (behind : List α)
    (hmiddle : middle ≠ []) (hlo : lo = before.length)
    (hhi : hi = before.length + middle.length - 1) :
    ∃ rest passed, middle = rest ++ passed ∧ rest ≠ [] ∧ (∀ x ∈ passed, comparator pivot x ≤ 0) ∧
      searchBackward comparator (before ++ middle ++ behind) pivot lo hi
        = some ((before.length : Int) + rest.length - 1) ∧
      (rest.length = 1 ∨ ∃ more x, rest = more ++ [x] ∧ 0 < comparator pivot x) := by
  induction middle using List.reverseRecOn generalizing behind hi with
  | nil => exact absurd rfl hmiddle
  | append_singleton middle x ih =>
    have hassoc : before ++ (middle ++ [x]) ++ behind = before ++ middle ++ (x :: behind) := by simp
    rw [List.length_append, List.length_singleton] at hhi
    have hread : readAt (before ++ (middle ++ [x]) ++ behind) hi = some x := by
      rw [hassoc]
      apply readAt_append
      rw [List.length_append]
      omega
    by_cases hstop : 0 < comparator pivot x ∨ middle = []
    · refine ⟨middle ++ [x], [], by simp, by simp, ?_, ?_, ?_⟩
      · exact fun y hy => absurd hy List.not_mem_nil
      · rw [searchBackward, hread]
        simp only
        rw [if_neg ?_]
        · rw [hhi, List.length_append, List.length_singleton]
        · rintro ⟨hle, hlt⟩
          rcases hstop with hgt | hnil
          · omega
          · rw [hnil, List.length_nil] at hhi
            omega
      · rcases hstop with hgt | hnil
        · exact Or.inr ⟨middle, x, rfl, hgt⟩
        · rw [hnil]
          exact Or.inl rfl
    · push Not at hstop
      obtain ⟨hle, hne⟩ := hstop
      have hpos := List.length_pos_iff.2 hne
      obtain ⟨rest, passed, hsplit, hrest, hpassed, hbackward, hend⟩ :=
        ih (x :: behind) hne (by omega : hi - 1 = _)
      refine ⟨rest, passed ++ [x], by rw [hsplit, List.append_assoc], hrest, ?_, ?_, hend⟩
      · intro y hy
        rcases List.mem_append.1 hy with hin | hone
        · exact hpassed y hin
        · rw [List.mem_singleton.1 hone]
          exact hle
      · have hlt : lo < hi := by omega
        rw [searchBackward, hread]
        simp only
        rw [if_pos ⟨hle, hlt⟩, hassoc, hbackward]

/-! ## The partition -/

/-- The part between the indices ends with an element that is not below the pivot. -/
def EndsHigh (comparator : α → α → Int) (pivot : α) (middle : List α) : Prop :=
  ∃ init z, middle = init ++ [z] ∧ comparator pivot z ≤ 0

theorem partitionLoop_round (fuel : Nat) {lo' hi' : Int} (hlt : lo < hi)
    (hforward : searchForward comparator a pivot lo hi = some lo')
    (hbackward : searchBackward comparator a pivot lo' hi = some hi') :
    partitionLoop comparator pivot (fuel + 1) a lo hi =
      (if lo' < hi' then swapAt a lo' hi' else some a).bind fun a =>
        partitionLoop comparator pivot fuel a lo' hi' := by
  rw [partitionLoop, if_pos hlt, hforward]
  simp only [Option.bind_eq_bind, Option.bind_some, hbackward]
  by_cases h : lo' < hi'
  · rw [if_pos h, if_pos h]
  · rw [if_neg h, if_neg h]
    rfl

/-- **One round**: what is passed on both sides is on the right side, less is left between, and the
    last element stays where it is unless the indices are still around it. -/
theorem partitionLoop_step (horder : TotalPreorder comparator) (fuel : Nat) (behind : List α)
    (hmany : 2 ≤ middle.length) (hlast : EndsHigh comparator pivot middle)
    (hlo : lo = before.length) (hhi : hi = before.length + middle.length - 1) :
    ∃ left inner right, (left ++ inner ++ right).Perm middle ∧
      (∀ y ∈ left, comparator y pivot ≤ 0) ∧ (∀ y ∈ right, comparator pivot y ≤ 0) ∧
      EndsHigh comparator pivot inner ∧ inner.length < middle.length ∧
      (inner ++ right).getLast? = middle.getLast? ∧
      partitionLoop comparator pivot (fuel + 1) (before ++ middle ++ behind) lo hi =
        partitionLoop comparator pivot fuel ((before ++ left) ++ inner ++ (right ++ behind))
          (before ++ left).length ((before ++ left).length + inner.length - 1) := by
  have hlt : lo < hi := by omega
  obtain ⟨init, z, hz, hhigh⟩ := hlast
  obtain ⟨left, rest, hsplit, hrest, hleft, hforward, hstop⟩ :=
    searchForward_append comparator pivot behind
      (List.ne_nil_of_length_pos (by omega)) hlo hhi
  have hlength : middle.length = left.length + rest.length := by rw [hsplit, List.length_append]
  have hbefore : (before ++ left).length = before.length + left.length := List.length_append
  have harray : before ++ middle ++ behind = (before ++ left) ++ rest ++ behind := by
    rw [hsplit]
    simp only [List.append_assoc]
  obtain ⟨inner, right, hsplit', hinner, hright, hbackward, hstop'⟩ :=
    searchBackward_append comparator pivot behind hrest
      (by omega : (before.length : Int) + left.length = (before ++ left).length)
      (by omega : hi = _)
  rw [← harray, hbefore] at hbackward
  have hround := partitionLoop_round fuel hlt hforward hbackward
  have hpos := List.length_pos_iff.2 hinner
  have hlength' : rest.length = inner.length + right.length := by
    rw [hsplit', List.length_append]
  have hperm : (left ++ inner ++ right).Perm middle := by
    rw [hsplit, hsplit', List.append_assoc]
  by_cases hone : inner.length = 1
  · -- the indices have met
    rw [if_neg (by push_cast; omega)] at hround
    refine ⟨left, inner, right, hperm, hleft, hright, ?_, by omega, ?_, ?_⟩
    · obtain ⟨x, rfl⟩ := List.length_eq_one_iff.1 hone
      refine ⟨[], x, rfl, ?_⟩
      rcases hstop with hsingle | ⟨x', more, hx', habove⟩
      · -- it is the last one
        have hnil : right = [] := List.length_eq_zero_iff.1 (by rw [hone] at hlength'; omega)
        rw [hnil] at hsplit'
        rw [hsplit, hsplit'] at hz
        have hxz : x = z := by
          have := congrArg List.getLast? hz
          simpa using this
        rw [hxz]
        exact hhigh
      · have hxx : x = x' := by
          rw [hx'] at hsplit'
          exact (List.cons.inj hsplit').1.symm
        rw [hxx]
        rcases horder.total x' pivot with hle | hle
        · omega
        · exact hle
    · rw [hsplit, ← hsplit', List.getLast?_append_of_ne_nil _ hrest]
    · rw [hround, Option.bind_some, harray, hsplit', hbefore]
      simp only [List.append_assoc]
      push_cast
      rfl
  · -- one above the pivot and one below it are swapped
    obtain ⟨x, more, hx, habove⟩ : ∃ x more, rest = x :: more ∧ 0 < comparator x pivot := by
      rcases hstop with hsingle | h
      · omega
      · exact h
    obtain ⟨more', y, hy, hbelow⟩ : ∃ more' y, inner = more' ++ [y] ∧ 0 < comparator pivot y := by
      rcases hstop' with hsingle | h
      · exact absurd hsingle hone
      · exact h
    obtain ⟨between, hbetween⟩ : ∃ between, inner = x :: (between ++ [y]) := by
      cases more' with
      | nil =>
        rw [hy] at hone
        exact absurd rfl hone
      | cons x' between =>
        refine ⟨between, ?_⟩
        rw [hx, hy, List.cons_append, List.cons_append] at hsplit'
        rw [hy, (List.cons.inj hsplit').1]
        rfl
    have hright' : right ≠ [] := by
      rintro rfl
      rw [hsplit, hsplit', hy] at hz
      have hyz : y = z := by
        have := congrArg List.getLast? hz
        simpa using this
      rw [hyz] at hbelow
      omega
    have hpos' := List.length_pos_iff.2 hright'
    have hinnerLength : inner.length = between.length + 2 := by
      rw [hbetween]
      simp
    have hpermInner : (y :: (between ++ [x])).Perm inner := by
      rw [hbetween]
      exact perm_swap_ends
    have hhigh' : comparator pivot x ≤ 0 := by
      rcases horder.total x pivot with hle | hle
      · omega
      · exact hle
    rw [if_pos (by push_cast; omega)] at hround
    have hswap : swapAt (before ++ middle ++ behind) ((before.length : Int) + left.length)
        (((before.length + left.length : Nat) : Int) + inner.length - 1)
          = some ((before ++ left) ++ y :: (between ++ x :: (right ++ behind))) := by
      have harray' : before ++ middle ++ behind
          = (before ++ left) ++ x :: (between ++ y :: (right ++ behind)) := by
        rw [harray, hsplit', hbetween]
        simp
      rw [harray']
      apply swapAt_append
      · rw [hbefore]
        push_cast
        rfl
      · rw [hbefore]
        push_cast
        omega
    rw [hswap, Option.bind_some] at hround
    refine ⟨left, y :: (between ++ [x]), right, ?_, hleft, hright, ⟨y :: between, x, rfl, hhigh'⟩,
      ?_, ?_, ?_⟩
    · exact (((List.Perm.refl left).append hpermInner).append_right right).trans hperm
    · rw [hpermInner.length_eq]
      omega
    · rw [hsplit, hsplit', ← List.append_assoc, List.getLast?_append_of_ne_nil _ hright',
        List.getLast?_append_of_ne_nil _ hright']
    · rw [hround, hpermInner.length_eq, hbefore]
      simp only [List.append_assoc, List.cons_append, List.nil_append]
      push_cast
      rfl

/-- **The loop**: the indices meet at an element that is not below the pivot. -/
theorem partitionLoop_append (horder : TotalPreorder comparator) (fuel : Nat) (behind : List α)
    (hfuel : middle.length ≤ fuel) (hlast : EndsHigh comparator pivot middle)
    (hlo : lo = before.length) (hhi : hi = before.length + middle.length - 1) :
    ∃ left x right, (left ++ x :: right).Perm middle ∧ (∀ y ∈ left, comparator y pivot ≤ 0) ∧
      comparator pivot x ≤ 0 ∧ (∀ y ∈ right, comparator pivot y ≤ 0) ∧
      (x :: right).getLast? = middle.getLast? ∧
      partitionLoop comparator pivot fuel (before ++ middle ++ behind) lo hi
        = some (before ++ left ++ x :: (right ++ behind), ((before ++ left).length : Int),
          ((before ++ left).length : Int)) := by
  induction fuel generalizing before middle behind lo hi with
  | zero =>
    obtain ⟨init, z, hz, _⟩ := hlast
    rw [hz, List.length_append, List.length_singleton] at hfuel
    omega
  | succ fuel ih =>
    by_cases hmany : 2 ≤ middle.length
    · obtain ⟨left, inner, right, hperm, hleft, hright, hlast', hless, hstay, hround⟩ :=
        partitionLoop_step horder fuel behind hmany hlast hlo hhi
      obtain ⟨left', x, right', hperm', hleft', hx, hright'', hstay', hrest⟩ :=
        ih (right ++ behind) (by omega) hlast' rfl rfl
      refine ⟨left ++ left', x, right' ++ right, ?_, ?_, hx, ?_, ?_, ?_⟩
      · have hassoc : left ++ left' ++ x :: (right' ++ right)
            = left ++ (left' ++ x :: right') ++ right := by simp
        rw [hassoc]
        exact (((List.Perm.refl left).append hperm').append_right right).trans hperm
      · intro y hy
        rcases List.mem_append.1 hy with hin | hin
        · exact hleft y hin
        · exact hleft' y hin
      · intro y hy
        rcases List.mem_append.1 hy with hin | hin
        · exact hright'' y hin
        · exact hright y hin
      · rw [← List.cons_append, List.getLast?_append, hstay', ← List.getLast?_append, hstay]
      · rw [hround, hrest]
        simp only [List.append_assoc]
    · obtain ⟨init, z, rfl, hz⟩ := hlast
      have hnil : init = [] := by
        rw [List.length_append, List.length_singleton] at hmany
        exact List.length_eq_zero_iff.1 (by omega)
      subst hnil
      rw [List.nil_append, List.length_singleton] at hhi
      refine ⟨[], z, [], List.Perm.refl _, ?_, hz, ?_, rfl, ?_⟩
      · exact fun y hy => absurd hy List.not_mem_nil
      · exact fun y hy => absurd hy List.not_mem_nil
      · rw [partitionLoop, if_neg (by omega), hlo]
        have hmeet : hi = before.length := by omega
        rw [hmeet]
        simp

/-! ## A range of the array -/

theorem quicksortImpl_round {fuel : Nat} {parked met moved done : List α} {p : Int}
    (hmany : lo + 1 < hi) (hread : readAt a ((sumInt lo hi).tdiv 2) = some pivot)
    (hpark : swapAt a ((sumInt lo hi).tdiv 2) hi = some parked)
    (hloop : partitionLoop comparator pivot fuel parked lo hi = some (met, p, p))
    (hmet : readAt met p = some x) (hmove : writeAt met hi x = some moved)
    (hdone : writeAt moved p pivot = some done) :
    quicksortImpl comparator (fuel + 1) a lo hi =
      (quicksortImpl comparator fuel done lo (p - 1)).bind fun a =>
        quicksortImpl comparator fuel a (p + 1) hi := by
  rw [quicksortImpl, if_neg (by omega), if_neg (by omega)]
  simp only [Option.bind_eq_bind, Option.bind_some, hread, hpark, hloop, hmet, hmove, hdone]

/-- What the indices have met at goes to the end, where the pivot is, and the pivot comes here. -/
theorem exists_pivot_home (before behind left : List α) {right : List α}
    (hlast : (x :: right).getLast? = some pivot)
    (hhi : hi = before.length + left.length + right.length) :
    ∃ right' moved, (pivot :: right').Perm (x :: right) ∧
      writeAt (before ++ left ++ x :: (right ++ behind)) hi x = some moved ∧
      writeAt moved ((before ++ left).length : Int) pivot
        = some (before ++ left ++ pivot :: right' ++ behind) := by
  have hplace : (before ++ left).length = before.length + left.length := List.length_append
  rcases List.eq_nil_or_concat' right with rfl | ⟨inner, z, rfl⟩
  · have hx : x = pivot := by simpa using hlast
    rw [hx]
    refine ⟨[], before ++ left ++ pivot :: ([] ++ behind), List.Perm.refl _, ?_, ?_⟩
    · apply writeAt_append
      rw [List.length_nil] at hhi
      omega
    · rw [writeAt_append rfl]
      simp
  · have hz : z = pivot := by
      rw [← List.cons_append, List.getLast?_concat] at hlast
      exact Option.some.inj hlast
    rw [hz]
    refine ⟨inner ++ [x], before ++ left ++ x :: (inner ++ x :: behind), ?_, ?_, ?_⟩
    · exact perm_swap_ends
    · have harray : ∀ w, before ++ left ++ x :: (inner ++ w :: behind)
          = (before ++ left ++ x :: inner) ++ w :: behind := by
        intro w
        simp
      have harray' : before ++ left ++ x :: (inner ++ [pivot] ++ behind)
          = (before ++ left ++ x :: inner) ++ pivot :: behind := by simp
      rw [harray', harray]
      apply writeAt_append
      rw [List.length_append, List.length_singleton] at hhi
      rw [List.length_append, List.length_cons]
      omega
    · rw [writeAt_append rfl]
      simp

/-- **The partition**: the pivot has its place, with nothing above it to the left and nothing below
    it to the right; the two sides are still to be sorted. -/
theorem quicksortImpl_partition (horder : TotalPreorder comparator) (fuel : Nat)
    (ahead between behind : List α) (pivot z : α)
    (hmany : 1 ≤ ahead.length + between.length) (hlo : lo = before.length)
    (hhi : hi = lo + ahead.length + between.length + 1)
    (hmiddle : (sumInt lo hi).tdiv 2 = lo + ahead.length)
    (hfuel : ahead.length + between.length + 2 ≤ fuel) :
    ∃ left right, (left ++ pivot :: right).Perm (ahead ++ pivot :: (between ++ [z])) ∧
      (∀ y ∈ left, comparator y pivot ≤ 0) ∧ (∀ y ∈ right, comparator pivot y ≤ 0) ∧
      quicksortImpl comparator (fuel + 1) (before ++ (ahead ++ pivot :: (between ++ [z])) ++ behind)
          lo hi =
        (quicksortImpl comparator fuel (before ++ left ++ pivot :: right ++ behind) lo
          (lo + left.length - 1)).bind fun a =>
            quicksortImpl comparator fuel a (lo + left.length + 1) hi := by
  have hahead : ((before ++ ahead).length : Int) = lo + ahead.length := by
    rw [List.length_append]
    omega
  have hread : readAt (before ++ (ahead ++ pivot :: (between ++ [z])) ++ behind)
      ((sumInt lo hi).tdiv 2) = some pivot := by
    have harray : before ++ (ahead ++ pivot :: (between ++ [z])) ++ behind
        = (before ++ ahead) ++ pivot :: (between ++ [z] ++ behind) := by simp
    rw [harray, hmiddle]
    exact readAt_append hahead.symm
  have hpark : swapAt (before ++ (ahead ++ pivot :: (between ++ [z])) ++ behind)
      ((sumInt lo hi).tdiv 2) hi
        = some (before ++ (ahead ++ z :: between ++ [pivot]) ++ behind) := by
    have harray : before ++ (ahead ++ pivot :: (between ++ [z])) ++ behind
        = (before ++ ahead) ++ pivot :: (between ++ z :: behind) := by simp
    have harray' : before ++ (ahead ++ z :: between ++ [pivot]) ++ behind
        = (before ++ ahead) ++ z :: (between ++ pivot :: behind) := by simp
    rw [harray, harray', hmiddle]
    apply swapAt_append hahead.symm
    omega
  have hparked : EndsHigh comparator pivot (ahead ++ z :: between ++ [pivot]) :=
    ⟨ahead ++ z :: between, pivot, rfl, (horder.refl pivot).le⟩
  have hsize : (ahead ++ z :: between ++ [pivot]).length = ahead.length + between.length + 2 := by
    simp only [List.length_append, List.length_cons, List.length_nil]
    omega
  obtain ⟨left, x, right, hperm, hleft, hx, hright, hstay, hloop⟩ :=
    partitionLoop_append horder fuel behind (by omega) hparked hlo (by omega : hi = _)
  have hlength : left.length + (right.length + 1) = ahead.length + between.length + 2 := by
    rw [← hsize, ← hperm.length_eq, List.length_append, List.length_cons]
  rw [List.getLast?_concat] at hstay
  obtain ⟨right', moved, hpermRight, hmove, hdone⟩ :=
    exists_pivot_home before behind left hstay (by omega : hi = _)
  have hround := quicksortImpl_round (by omega) hread hpark hloop (readAt_append rfl) hmove hdone
  have hplace : ((before ++ left).length : Int) = lo + left.length := by
    rw [List.length_append]
    omega
  rw [hplace] at hround
  refine ⟨left, right', ?_, hleft, ?_, hround⟩
  · have hpermParked : (ahead ++ z :: between ++ [pivot]).Perm
        (ahead ++ pivot :: (between ++ [z])) := by
      rw [List.append_assoc]
      apply List.Perm.append_left
      exact perm_swap_ends
    exact ((hpermRight.append_left left).trans hperm).trans hpermParked
  · intro y hy
    rcases List.mem_cons.1 (hpermRight.subset (List.mem_cons_of_mem pivot hy)) with rfl | hin
    · exact hx
    · exact hright y hin

/-! ## The sort -/

theorem sorted_around {left right : List α} (horder : TotalPreorder comparator)
    (hleft : Sorted comparator left) (hright : Sorted comparator right)
    (hbelow : ∀ y ∈ left, comparator y pivot ≤ 0) (habove : ∀ y ∈ right, comparator pivot y ≤ 0) :
    Sorted comparator (left ++ pivot :: right) := by
  apply List.pairwise_append.2
  refine ⟨hleft, List.pairwise_cons.2 ⟨habove, hright⟩, ?_⟩
  intro x hx y hy
  rcases List.mem_cons.1 hy with rfl | hin
  · exact hbelow x hx
  · exact horder.trans x pivot y (hbelow x hx) (habove y hin)

/-- The middle of a range of three elements or more lies in it, before the last. -/
theorem exists_middle (hmany : 3 ≤ middle.length) (hlo : 0 ≤ lo)
    (hhi : hi = lo + middle.length - 1) (hsmall : lo + hi < 2 ^ 31) :
    ∃ ahead pivot between z, middle = ahead ++ pivot :: (between ++ [z]) ∧
      (sumInt lo hi).tdiv 2 = lo + ahead.length := by
  rcases List.eq_nil_or_concat' middle with rfl | ⟨init, z, rfl⟩
  · exact absurd hmany (by rw [List.length_nil]; omega)
  · rw [List.length_append, List.length_singleton] at hmany hhi
    have hinside : (init.length) / 2 < init.length := by omega
    refine ⟨init.take (init.length / 2), init[init.length / 2], init.drop (init.length / 2 + 1), z,
      ?_, ?_⟩
    · rw [← List.cons_append, ← List.append_assoc, List.cons_getElem_drop_succ,
        List.take_append_drop]
    · rw [sumInt_small (by omega) hsmall, List.length_take, Nat.min_eq_left hinside.le,
        Int.tdiv_eq_ediv_of_nonneg (by omega)]
      omega

/-- **Each range is sorted** where the sum of its ends is an `int`. -/
theorem quicksortImpl_sorts (horder : TotalPreorder comparator) {fuel : Nat}
    (hfuel : middle.length < fuel) (hlo : lo = before.length)
    (hhi : hi = lo + middle.length - 1) (hsmall : hi ≤ 2 ^ 30) :
    ∃ sorted, sorted.Perm middle ∧ Sorted comparator sorted ∧
      quicksortImpl comparator fuel (before ++ middle ++ behind) lo hi
        = some (before ++ sorted ++ behind) := by
  induction fuel generalizing before middle behind lo hi with
  | zero => exact absurd hfuel (Nat.not_lt_zero _)
  | succ fuel ih =>
    by_cases hfew : middle.length ≤ 1
    · refine ⟨middle, List.Perm.refl _, ?_, ?_⟩
      · match middle, hfew with
        | [], _ => exact List.Pairwise.nil
        | [x], _ => exact List.pairwise_singleton _ x
      · rw [quicksortImpl, if_pos (by omega)]
    · by_cases htwo : middle.length = 2
      · obtain ⟨x, y, rfl⟩ := List.length_eq_two.1 htwo
        rw [htwo] at hhi
        have hreadLo : readAt (before ++ [x, y] ++ behind) lo = some x := by
          rw [List.append_assoc]
          exact readAt_append hlo
        have hassoc : before ++ [x, y] ++ behind = (before ++ [x]) ++ y :: behind := by simp
        have hreadHi : readAt (before ++ [x, y] ++ behind) hi = some y := by
          rw [hassoc]
          apply readAt_append
          rw [List.length_append, List.length_singleton]
          omega
        rw [quicksortImpl, if_neg (by omega), if_pos (by omega), hreadLo]
        simp only [Option.bind_eq_bind, Option.bind_some, hreadHi]
        by_cases hswap : comparator x y > 0
        · refine ⟨[y, x], List.Perm.swap x y [], ?_, ?_⟩
          · apply List.pairwise_pair.2
            rcases horder.total x y with hle | hle
            · omega
            · exact hle
          · rw [if_pos hswap, List.append_assoc]
            have hpair : swapAt (before ++ x :: ([] ++ y :: behind)) lo hi
                = some (before ++ y :: ([] ++ x :: behind)) :=
              swapAt_append hlo (by rw [List.length_nil]; omega)
            exact hpair.trans (by rw [List.append_assoc]; rfl)
        · refine ⟨[x, y], List.Perm.refl _, List.pairwise_pair.2 (by omega), ?_⟩
          rw [if_neg hswap]
      · obtain ⟨ahead, pivot, between, z, hmiddle, hplace⟩ :=
          exists_middle (by omega : 3 ≤ middle.length) (by omega) hhi (by omega)
        have hlength : middle.length = ahead.length + between.length + 2 := by
          rw [hmiddle]
          simp only [List.length_append, List.length_cons, List.length_nil]
          omega
        obtain ⟨left, right, hperm, hbelow, habove, hpartition⟩ :=
          quicksortImpl_partition horder fuel ahead between behind pivot z (by omega) hlo
            (by omega) hplace (by omega)
        have hsides : left.length + (right.length + 1) = middle.length := by
          rw [hmiddle, ← hperm.length_eq, List.length_append, List.length_cons]
        obtain ⟨left', hpermLeft, hsortedLeft, hleft⟩ :=
          @ih before (pivot :: right ++ behind) left lo (lo + left.length - 1) (by omega) hlo rfl
            (by omega)
        obtain ⟨right', hpermRight, hsortedRight, hright⟩ :=
          @ih (before ++ left' ++ [pivot]) behind right (lo + left.length + 1) hi (by omega) (by
            simp only [List.length_append, List.length_singleton, hpermLeft.length_eq]
            omega) (by omega) hsmall
        refine ⟨left' ++ pivot :: right', ?_, ?_, ?_⟩
        · rw [hmiddle]
          exact (hpermLeft.append (hpermRight.cons pivot)).trans hperm
        · apply sorted_around horder hsortedLeft hsortedRight
          · exact fun y hy => hbelow y (hpermLeft.subset hy)
          · exact fun y hy => habove y (hpermRight.subset hy)
        · have harray : before ++ left ++ pivot :: right ++ behind
              = before ++ left ++ (pivot :: right ++ behind) := by simp
          have harray' : before ++ left' ++ (pivot :: right ++ behind)
              = before ++ left' ++ [pivot] ++ right ++ behind := by simp
          rw [hmiddle, hpartition, harray, hleft, Option.bind_some, harray', hright]
          simp

/-! ## Enough rounds -/

theorem partitionLoop_succ {fuel : Nat} {r : List α × Int × Int}
    (hloop : partitionLoop comparator pivot fuel a lo hi = some r) :
    partitionLoop comparator pivot (fuel + 1) a lo hi = some r := by
  induction fuel generalizing a lo hi with
  | zero => exact nomatch hloop
  | succ fuel ih =>
    by_cases hlt : lo < hi
    · have hround := hloop
      rw [partitionLoop, if_pos hlt] at hround
      obtain ⟨lo', hforward, hround⟩ := Option.bind_eq_some_iff.1 hround
      obtain ⟨hi', hbackward, _⟩ := Option.bind_eq_some_iff.1 hround
      rw [partitionLoop_round _ hlt hforward hbackward] at hloop ⊢
      obtain ⟨a', hswap, hrest⟩ := Option.bind_eq_some_iff.1 hloop
      rw [hswap, Option.bind_some]
      exact ih hrest
    · rw [partitionLoop, if_neg hlt] at hloop ⊢
      exact hloop

/-- A call that has returned returns the same where more calls are allowed within each other. -/
theorem quicksortImpl_succ {fuel : Nat} {r : List α}
    (hsort : quicksortImpl comparator fuel a lo hi = some r) :
    quicksortImpl comparator (fuel + 1) a lo hi = some r := by
  induction fuel generalizing a lo hi r with
  | zero => exact nomatch hsort
  | succ fuel ih =>
    rw [quicksortImpl] at hsort ⊢
    by_cases hnone : lo ≥ hi
    · rw [if_pos hnone] at hsort ⊢
      exact hsort
    · rw [if_neg hnone] at hsort ⊢
      by_cases htwo : lo = hi - 1
      · rw [if_pos htwo] at hsort ⊢
        exact hsort
      · rw [if_neg htwo] at hsort ⊢
        obtain ⟨pivot, hpivot, hsort⟩ := Option.bind_eq_some_iff.1 hsort
        obtain ⟨parked, hpark, hsort⟩ := Option.bind_eq_some_iff.1 hsort
        obtain ⟨⟨met, lo', hi'⟩, hloop, hsort⟩ := Option.bind_eq_some_iff.1 hsort
        obtain ⟨x, hx, hsort⟩ := Option.bind_eq_some_iff.1 hsort
        obtain ⟨moved, hmove, hsort⟩ := Option.bind_eq_some_iff.1 hsort
        obtain ⟨done, hdone, hsort⟩ := Option.bind_eq_some_iff.1 hsort
        obtain ⟨left, hleft, hright⟩ := Option.bind_eq_some_iff.1 hsort
        simp only [Option.bind_eq_bind, hpivot, Option.bind_some, hpark, partitionLoop_succ hloop,
          hx, hmove, hdone, ih hleft]
        exact ih hright

theorem quicksort_mono {fuel more : Nat} {r : List α} (hle : fuel ≤ more)
    (hsort : quicksort comparator fuel a = some r) : quicksort comparator more a = some r := by
  induction hle with
  | refl => exact hsort
  | step _ ih => exact quicksortImpl_succ ih

/-- Sufficient: up to 2^30 + 1 elements. -/
theorem sorts_of_length_le (horder : TotalPreorder comparator) (hsmall : a.length ≤ 2 ^ 30 + 1) :
    Sorts comparator a := by
  obtain ⟨r, hperm, hsorted, hsort⟩ :=
    @quicksortImpl_sorts α [] [] comparator a 0 (a.length - 1) horder (a.length + 1)
      (Nat.lt_succ_self _) rfl (by omega) (by omega)
  rw [List.nil_append, List.append_nil, List.nil_append, List.append_nil] at hsort
  refine ⟨r, ?_, hperm, hsorted⟩
  intro fuel hfuel
  exact quicksort_mono hfuel hsort

end

/-! ## Larger arrays -/

/-- The comparator of a field of the elements. -/
def compareKeys (x y : Nat) : Int := x - y

theorem compareKeys_totalPreorder : TotalPreorder compareKeys := by
  refine ⟨?_, ?_, ?_⟩
  · intro x
    exact Int.sub_self _
  · intro x y
    unfold compareKeys
    omega
  · intro x y z
    unfold compareKeys
    omega

/-- So many elements of which the one in the middle is above all but the last three. -/
def lastThreeAbove (n : Nat) : List Nat :=
  List.replicate ((n - 1) / 2) 0 ++
    1 :: ((List.replicate (n - 4 - (n - 1) / 2) 0 ++ [2, 2]) ++ [2])

theorem length_lastThreeAbove {n : Nat} (hn : 8 ≤ n) : (lastThreeAbove n).length = n := by
  simp only [lastThreeAbove, List.length_append, List.length_cons, List.length_replicate,
    List.length_nil]
  omega

/-- The middle of the last three is looked for at a negative index. -/
theorem quicksortImpl_overflow {α : Type} {comparator : α → α → Int} {lo hi : Int} (a : List α)
    (fuel : Nat) (hthree : lo + 2 = hi) (hhi : hi < 2 ^ 31 - 1) (hlarge : 2 ^ 31 ≤ lo + hi) :
    quicksortImpl comparator fuel a lo hi = none := by
  cases fuel with
  | zero => rfl
  | succ fuel =>
    have hnegative : (sumInt lo hi).tdiv 2 < 0 := by
      have hneg : lo + hi - 2 ^ 32 = -(2 ^ 32 - (lo + hi)) := by omega
      rw [sumInt_large hlarge (by omega), hneg, Int.neg_tdiv,
        Int.tdiv_eq_ediv_of_nonneg (by omega)]
      omega
    rw [quicksortImpl, if_neg (by omega), if_neg (by omega)]
    simp only [readAt_negative hnegative]
    rfl

/-- The last three elements are what is above the pivot. -/
theorem length_right_of_perm {n : Nat} {left right : List Nat}
    (hperm : (left ++ 1 :: right).Perm (lastThreeAbove n))
    (hleft : ∀ y ∈ left, compareKeys y 1 ≤ 0) (hright : ∀ y ∈ right, compareKeys 1 y ≤ 0) :
    right.length = 3 := by
  have hones : left.count 1 + right.count 1 = 0 := by
    have hcount : left.count 1 + (right.count 1 + 1) = 1 := by
      simpa [lastThreeAbove, List.count_append, List.count_replicate] using hperm.count_eq 1
    omega
  have htwos : left.count 2 + right.count 2 = 3 := by
    have hcount := hperm.count_eq 2
    simpa [lastThreeAbove, List.count_append, List.count_replicate] using hcount
  have hall : ∀ y ∈ right, 2 = y := by
    intro y hy
    have hvalue : y ∈ lastThreeAbove n :=
      hperm.subset (List.mem_append_right left (List.mem_cons_of_mem 1 hy))
    have hle : y ≤ 2 := by
      simp only [lastThreeAbove, List.mem_append, List.mem_cons, List.mem_replicate,
        List.not_mem_nil, or_false] at hvalue
      omega
    have hge := hright y hy
    have hne : y ≠ 1 := by
      rintro rfl
      have hpos := List.count_pos_iff.2 hy
      omega
    unfold compareKeys at hge
    omega
  have hnone : left.count 2 = 0 := by
    apply List.count_eq_zero.2
    intro hin
    have hle := hleft 2 hin
    unfold compareKeys at hle
    omega
  rw [← List.count_eq_length.2 hall]
  omega

theorem not_sorts_lastThreeAbove {n : Nat} (hlarge : 2 ^ 30 + 2 ≤ n) (hn : n < 2 ^ 31) :
    ¬ Sorts compareKeys (lastThreeAbove n) := by
  rintro ⟨r, hsort, _⟩
  have hlength := length_lastThreeAbove (n := n) (by omega)
  have hreturns := hsort (n + 1 + 1) (by omega)
  have hmiddle : (sumInt 0 ((n : Int) - 1)).tdiv 2
      = 0 + ((List.replicate ((n - 1) / 2) 0).length : Int) := by
    rw [sumInt_small (by omega) (by omega), Int.tdiv_eq_ediv_of_nonneg (by omega),
      List.length_replicate]
    omega
  have hsize : (List.replicate ((n - 1) / 2) 0).length
      + (List.replicate (n - 4 - (n - 1) / 2) 0 ++ [2, 2]).length + 2 = n := by
    rw [List.length_append, List.length_replicate, List.length_replicate]
    show _ + (_ + 2) + 2 = _
    omega
  obtain ⟨left, right, hperm, hleft, hright, hpartition⟩ :=
    @quicksortImpl_partition Nat [] compareKeys 0 (n - 1) compareKeys_totalPreorder (n + 1)
      (List.replicate ((n - 1) / 2) 0) (List.replicate (n - 4 - (n - 1) / 2) 0 ++ [2, 2]) [] 1 2
      (by omega) rfl (by omega) hmiddle (by omega)
  have hthree : right.length = 3 := length_right_of_perm hperm hleft hright
  have hsides : left.length + (right.length + 1) = n := by
    rw [← hlength, lastThreeAbove, ← hperm.length_eq, List.length_append, List.length_cons]
  rw [List.nil_append, List.append_nil] at hpartition
  rw [quicksort, hlength, lastThreeAbove, hpartition] at hreturns
  obtain ⟨a, _, hreturns⟩ := Option.bind_eq_some_iff.1 hreturns
  rw [quicksortImpl_overflow a (n + 1) (by omega) (by omega) (by omega)] at hreturns
  exact nomatch hreturns

/-- **`quicksort`.**  Every array of `n` elements is sorted, EXACTLY when `n` is at most
    2^30 + 1. -/
theorem quicksort_sorts_iff (n : Nat) (hn : n < 2 ^ 31) :
    (∀ (α : Type) (comparator : α → α → Int), TotalPreorder comparator →
      ∀ a : List α, a.length = n → Sorts comparator a) ↔ n ≤ 2 ^ 30 + 1 := by
  constructor
  · intro hall
    by_contra hlarge
    push Not at hlarge
    apply not_sorts_lastThreeAbove hlarge hn
    exact hall Nat compareKeys compareKeys_totalPreorder _ (length_lastThreeAbove (by omega))
  · intro hsmall α comparator horder a hlength
    exact sorts_of_length_le horder (by omega)

theorem quicksort_sorts_iff_three :
    (∀ (α : Type) (comparator : α → α → Int), TotalPreorder comparator →
      ∀ a : List α, a.length = 3 → Sorts comparator a) ↔ 3 ≤ 2 ^ 30 + 1 :=
  quicksort_sorts_iff 3 (by norm_num)

/-- 2^30 + 2 elements of which the one in the middle is above all but the last three. -/
theorem not_sorts_large :
    TotalPreorder compareKeys ∧ (lastThreeAbove (2 ^ 30 + 2)).length = 2 ^ 30 + 2 ∧
      ¬ Sorts compareKeys (lastThreeAbove (2 ^ 30 + 2)) := by
  refine ⟨compareKeys_totalPreorder, ?_, ?_⟩
  · exact length_lastThreeAbove (by norm_num)
  · exact not_sorts_lastThreeAbove le_rfl (by norm_num)

end MediaTomb
