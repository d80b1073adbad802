/-
  The loop of `_recursiveRemove`, as a step on the tables and the buffers.

  `removeRound` is one round of the loop as a FUNCTION; everything proved about the loop is proved
  about it and lifted by `recursiveRemoveLoop_rule`, whichever way the loop ends.

  The loop may delete rows in the middle, so a round queries a table from which some of the rows it
  has already decided on are gone.  `Doomed` says "in the `remove` buffer or no longer in the table",
  which an early deletion does not change.
-/
import Mathlib.Data.List.Dedup
import MediaTomb.Storage.RemoveObjects

namespace MediaTomb

open Lib.Prog

/-! ## One child -/

/-- What a child that is not a container redirects the removal to: with `all`, what it refers to. -/
def redirect (all : Bool) (r : ObjectRow) : Option Int :=
  if isCdsContainer r.objectType then none
  else match all, r.refID with
    | true, some refID => some refID
    | _, _ => none

section

variable {all : Bool} {rows : List ObjectRow} {b : RemoveBuffers} {i : Int}

theorem removeChild_container {r : ObjectRow} (h : isCdsContainer r.objectType = true) :
    removeChild all b r =
      { b with recurseContainers := b.recurseContainers ++ [r.id], remove := b.remove ++ [r.id] } := by
  unfold removeChild
  rw [if_pos h]

theorem removeChild_redirect {r : ObjectRow} (h : isCdsContainer r.objectType = false) {x : Int}
    (hx : redirect all r = some x) :
    removeChild all b r =
      { b with
        removeAddParents := b.removeAddParents ++ [x], recurseItems := b.recurseItems ++ [x] } := by
  unfold redirect at hx
  unfold removeChild
  rw [h] at hx ⊢
  rcases all with _ | _
  · cases hx
  · rcases hr : r.refID with _ | y
    · rw [hr] at hx
      cases hx
    · rw [hr] at hx
      cases hx
      rfl

theorem removeChild_item {r : ObjectRow} (h : isCdsContainer r.objectType = false)
    (hx : redirect all r = none) :
    removeChild all b r =
      { b with remove := b.remove ++ [r.id], recurseItems := b.recurseItems ++ [r.id] } := by
  unfold redirect at hx
  unfold removeChild
  rw [h] at hx ⊢
  rcases all with _ | _
  · rfl
  · rcases hr : r.refID with _ | y
    · rfl
    · rw [hr] at hx
      cases hx

theorem redirect_container {r : ObjectRow} (h : isCdsContainer r.objectType = true) :
    redirect all r = none := by
  unfold redirect
  rw [if_pos h]

/-- What a child redirects to is what it refers to. -/
theorem refID_of_redirect {r : ObjectRow} {x : Int} (h : redirect all r = some x) :
    r.refID = some x := by
  unfold redirect at h
  split at h
  · cases h
  · rcases all with _ | _
    · cases h
    · rcases hr : r.refID with _ | y
      · rw [hr] at h
        cases h
      · rw [hr] at h
        exact h

/-! ## All children of a round -/

theorem mem_foldl_recurseContainers :
    i ∈ (rows.foldl (removeChild all) b).recurseContainers ↔
      i ∈ b.recurseContainers ∨ ∃ r ∈ rows, isCdsContainer r.objectType = true ∧ r.id = i := by
  induction rows generalizing b with
  | nil => simp
  | cons r rows ih =>
    rw [List.foldl_cons, ih]
    rcases hc : isCdsContainer r.objectType with _ | _
    · rcases hx : redirect all r with _ | x
      · rw [removeChild_item hc hx]
        simp [hc]
      · rw [removeChild_redirect hc hx]
        simp [hc]
    · rw [removeChild_container hc]
      simp [hc, or_assoc, eq_comm (a := i)]

theorem mem_foldl_remove :
    i ∈ (rows.foldl (removeChild all) b).remove ↔
      i ∈ b.remove ∨ ∃ r ∈ rows, redirect all r = none ∧ r.id = i := by
  induction rows generalizing b with
  | nil => simp
  | cons r rows ih =>
    rw [List.foldl_cons, ih]
    rcases hc : isCdsContainer r.objectType with _ | _
    · rcases hx : redirect all r with _ | x
      · rw [removeChild_item hc hx]
        simp [hx, or_assoc, eq_comm (a := i)]
      · rw [removeChild_redirect hc hx]
        simp [hx]
    · rw [removeChild_container hc]
      simp [redirect_container hc, or_assoc, eq_comm (a := i)]

theorem mem_foldl_removeAddParents :
    i ∈ (rows.foldl (removeChild all) b).removeAddParents ↔
      i ∈ b.removeAddParents ∨ ∃ r ∈ rows, redirect all r = some i := by
  induction rows generalizing b with
  | nil => simp
  | cons r rows ih =>
    rw [List.foldl_cons, ih]
    rcases hc : isCdsContainer r.objectType with _ | _
    · rcases hx : redirect all r with _ | x
      · rw [removeChild_item hc hx]
        simp [hx]
      · rw [removeChild_redirect hc hx]
        simp [hx, or_assoc, eq_comm (a := i)]
    · rw [removeChild_container hc]
      simp [redirect_container hc]

theorem mem_foldl_recurseItems :
    i ∈ (rows.foldl (removeChild all) b).recurseItems ↔
      i ∈ b.recurseItems ∨
        ∃ r ∈ rows, isCdsContainer r.objectType = false ∧ (redirect all r).getD r.id = i := by
  induction rows generalizing b with
  | nil => simp
  | cons r rows ih =>
    rw [List.foldl_cons, ih]
    rcases hc : isCdsContainer r.objectType with _ | _
    · rcases hx : redirect all r with _ | x
      · rw [removeChild_item hc hx]
        simp [hc, hx, or_assoc, eq_comm (a := i)]
      · rw [removeChild_redirect hc hx]
        simp [hc, hx, or_assoc, eq_comm (a := i)]
    · rw [removeChild_container hc]
      simp [hc]

end

/-! ## One round -/

/-- The buffers after the three passes of a round. -/
def afterPasses (all : Bool) (db : Database) (b : RemoveBuffers) : RemoveBuffers :=
  (selectChildren b.recurseContainers db).foldl (removeChild all)
    { remove := b.remove ++ b.removeAddParents ++
        (selectReferences b.recurseItems db).map ObjectRow.id }

/-- The changed containers after the three passes of a round. -/
def afterPassesChanged (db : Database) (b : RemoveBuffers) (ch : ChangedContainers) :
    ChangedContainers :=
  { ch with
    upnp := ch.upnp ++ selectParents b.removeAddParents db ++
      (selectReferences b.recurseItems db).map ObjectRow.parentID }

/-- One round: the passes, and the deletion when there is much to delete. -/
def removeRound (all : Bool) (db : Database) (b : RemoveBuffers) : Database × RemoveBuffers :=
  let b := afterPasses all db b
  if maxRemoveSize < idsLength b.remove then (db.removeObjects b.remove, { b with remove := [] })
  else (db, b)

section

variable {all : Bool} {db : Database} {b : RemoveBuffers}

/-- The deletion at the end of a round empties `remove` and leaves the other buffers. -/
theorem removeRound_recurseItems :
    (removeRound all db b).2.recurseItems = (afterPasses all db b).recurseItems := by
  unfold removeRound
  simp only
  split <;> rfl

theorem removeRound_recurseContainers :
    (removeRound all db b).2.recurseContainers = (afterPasses all db b).recurseContainers := by
  unfold removeRound
  simp only
  split <;> rfl

theorem removeRound_removeAddParents :
    (removeRound all db b).2.removeAddParents = (afterPasses all db b).removeAddParents := by
  unfold removeRound
  simp only
  split <;> rfl

end

@[simp] theorem selectParents_nil (db : Database) : selectParents [] db = [] := by
  simp [selectParents, Database.selectObjects]

@[simp] theorem selectReferences_nil (db : Database) : selectReferences [] db = [] := by
  refine List.filter_eq_nil_iff.mpr fun r _ => ?_
  rcases r.refID with _ | i <;> simp

@[simp] theorem selectChildren_nil (db : Database) : selectChildren [] db = [] := by
  simp [selectChildren, Database.selectObjects]

section

variable {db : Database} {ids : List Int} {r : ObjectRow} {i : Int}

theorem mem_selectParents :
    i ∈ selectParents ids db ↔ ∃ r ∈ db.objects.rows, r.id ∈ ids ∧ r.parentID = i := by
  simp [selectParents, Database.selectObjects, and_assoc]

theorem mem_selectReferences :
    r ∈ selectReferences ids db ↔ r ∈ db.objects.rows ∧ ∃ i ∈ ids, r.refID = some i := by
  unfold selectReferences Database.selectObjects
  rw [List.mem_filter]
  rcases r.refID with _ | j <;> simp

theorem mem_selectChildren :
    r ∈ selectChildren ids db ↔ r ∈ db.objects.rows ∧ r.parentID ∈ ids := by
  simp [selectChildren, Database.selectObjects]

end

theorem run_removeParentsPass (b : RemoveBuffers) (ch : ChangedContainers) (s : StorageState) :
    (removeParentsPass b ch).run s =
      (.ok ({ b with remove := b.remove ++ b.removeAddParents, removeAddParents := [] },
        { ch with upnp := ch.upnp ++ selectParents b.removeAddParents s.db }), s) := by
  unfold removeParentsPass
  split
  · next h =>
    rcases b with ⟨ri, rc, rap, rm⟩
    rcases ch with ⟨upnp, ui⟩
    simp only at h
    simp [h]
  · rfl

theorem run_recurseItemsPass (b : RemoveBuffers) (ch : ChangedContainers) (s : StorageState) :
    (recurseItemsPass b ch).run s =
      (.ok ({ b with
          remove := b.remove ++ (selectReferences b.recurseItems s.db).map ObjectRow.id
          recurseItems := [] },
        { ch with
          upnp := ch.upnp ++ (selectReferences b.recurseItems s.db).map ObjectRow.parentID }),
        s) := by
  unfold recurseItemsPass
  split
  · next h =>
    rcases b with ⟨ri, rc, rap, rm⟩
    rcases ch with ⟨upnp, ui⟩
    simp only at h
    simp [h]
  · rfl

theorem run_recurseContainersPass (all : Bool) (b : RemoveBuffers) (s : StorageState) :
    (recurseContainersPass all b).run s =
      (.ok ((selectChildren b.recurseContainers s.db).foldl (removeChild all)
        { b with recurseContainers := [] }), s) := by
  unfold recurseContainersPass
  split
  · next h =>
    rcases b with ⟨ri, rc, rap, rm⟩
    simp only at h
    simp [h]
  · rfl

theorem run_flushRemove (b : RemoveBuffers) (s : StorageState) :
    (flushRemove b).run s =
      if maxRemoveSize < idsLength b.remove then
        (.ok { b with remove := [] }, { s with db := s.db.removeObjects b.remove })
      else (.ok b, s) := by
  unfold flushRemove
  split
  · rw [run_bind_of_ok (run_removeObjects_ b.remove s)]
    rfl
  · rfl

/-- **One round of the loop.** -/
theorem run_recursiveRemoveRound (all : Bool) (b : RemoveBuffers) (ch : ChangedContainers)
    (s : StorageState) :
    (recursiveRemoveRound all b ch).run s =
      (.ok ((removeRound all s.db b).2, afterPassesChanged s.db b ch),
        { s with db := (removeRound all s.db b).1 }) := by
  have hflush := run_flushRemove (afterPasses all s.db b) s
  unfold recursiveRemoveRound
  rw [run_bind_of_ok (run_removeParentsPass b ch s)]
  simp only
  rw [run_bind_of_ok (run_recurseItemsPass _ _ s)]
  simp only
  rw [run_bind_of_ok (run_recurseContainersPass all _ s)]
  show (flushRemove (afterPasses all s.db b) >>= fun b' =>
    pure (b', afterPassesChanged s.db b ch)).run s = _
  unfold removeRound
  split at hflush
  · next h =>
    rw [run_bind_of_ok hflush]
    simp only [if_pos h]
    rfl
  · next h =>
    rw [run_bind_of_ok hflush]
    simp only [if_neg h]
    rfl

/-! ## The loop -/

/-- **Loop rule.**  What every round preserves holds where the loop ends: with empty buffers when it
    returns, and somewhere when it gives up.  Nothing but the tables changes. -/
theorem recursiveRemoveLoop_rule {all : Bool}
    {I : Database → RemoveBuffers → ChangedContainers → Prop}
    (hround : ∀ db b ch, I db b ch →
      I (removeRound all db b).1 (removeRound all db b).2 (afterPassesChanged db b ch)) :
    ∀ left b ch s, I s.db b ch →
      match (recursiveRemoveLoop all left b ch).run s with
      | (.ok (b', ch'), s') =>
        I s'.db b' ch' ∧ b'.done = true ∧ s' = { s with db := s'.db }
      | (.error _, s') => (∃ b' ch', I s'.db b' ch') ∧ s' = { s with db := s'.db } := by
  intro left
  induction left with
  | zero =>
    intro b ch s hI
    rw [recursiveRemoveLoop]
    by_cases hb : b.done = true
    · rw [if_pos hb]
      exact ⟨hI, hb, rfl⟩
    · rw [if_neg hb, run_bind_of_ok (run_recursiveRemoveRound all b ch s)]
      exact ⟨⟨_, _, hround _ _ _ hI⟩, rfl⟩
  | succ left ih =>
    intro b ch s hI
    rw [recursiveRemoveLoop]
    by_cases hb : b.done = true
    · rw [if_pos hb]
      exact ⟨hI, hb, rfl⟩
    · rw [if_neg hb, run_bind_of_ok (run_recursiveRemoveRound all b ch s)]
      have h := ih _ _ { s with db := (removeRound all s.db b).1 } (hround _ _ _ hI)
      simp only
      rcases hr : (recursiveRemoveLoop all left (removeRound all s.db b).2
        (afterPassesChanged s.db b ch)).run { s with db := (removeRound all s.db b).1 }
        with ⟨e | ⟨b', ch'⟩, s'⟩
      · rw [hr] at h
        exact h
      · rw [hr] at h
        exact h

/-! ## The whole call -/

/-- The containers whose parents the ui is told before the loop. -/
def initialUI (items containers : List Int) (db : Database) : List Int :=
  if containers = [] then [] else selectParents (items ++ containers) db

/-- **Rule for `_recursiveRemove`.**  A call that returns ends with what the loop left, and what is
    still in `remove` deleted; a call that gives up ends inside the loop. -/
theorem recursiveRemove_rule {all : Bool}
    {I : Database → RemoveBuffers → ChangedContainers → Prop}
    (hround : ∀ db b ch, I db b ch →
      I (removeRound all db b).1 (removeRound all db b).2 (afterPassesChanged db b ch))
    {items containers : List Int} {s : StorageState}
    (hinit : I s.db (initialBuffers items containers) { ui := initialUI items containers s.db }) :
    match (recursiveRemove_ items containers all).run s with
    | (.ok ch, s') => (∃ db b, I db b ch ∧ b.done = true ∧ s'.db = db.removeObjects b.remove) ∧
        s' = { s with db := s'.db }
    | (.error _, s') => (∃ b ch, I s'.db b ch) ∧ s' = { s with db := s'.db } := by
  have hstart : (recursiveRemove_ items containers all).run s =
      ((recursiveRemoveLoop all (maxRemoveRecursion + 1) (initialBuffers items containers)
        { ui := initialUI items containers s.db }) >>= fun p => do
          if p.1.remove ≠ [] then
            removeObjects_ p.1.remove
          pure p.2).run s := by
    unfold recursiveRemove_ initialUI
    split <;> rfl
  have hloop := recursiveRemoveLoop_rule hround (maxRemoveRecursion + 1)
    (initialBuffers items containers) { ui := initialUI items containers s.db } s hinit
  rw [hstart, run_bind]
  rcases hr : (recursiveRemoveLoop all (maxRemoveRecursion + 1) (initialBuffers items containers)
    { ui := initialUI items containers s.db }).run s with ⟨e | ⟨b, ch⟩, s'⟩
  · rw [hr] at hloop
    exact hloop
  · rw [hr] at hloop
    obtain ⟨hI, hdone, hs'⟩ := hloop
    simp only
    by_cases hrem : b.remove = []
    · -- nothing is left in the buffer, and deleting nothing is what the statement would do
      rw [if_neg (not_not.mpr hrem), run_pure]
      refine ⟨⟨s'.db, b, hI, hdone, ?_⟩, hs'⟩
      rw [hrem, Database.removeObjects_nil]
    · rw [if_pos hrem, run_bind_of_ok (run_removeObjects_ b.remove s'), run_pure]
      refine ⟨⟨s'.db, b, hI, hdone, rfl⟩, ?_⟩
      rw [hs']

end MediaTomb
