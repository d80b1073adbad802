/-
  Cached numbers of children.

  The cache may know how many children a container has.  An INSERT and the increment of that number
  are two sections; between them the number OWES one.  `Counting objs items owed rows s` says that a
  known number, together with what is owed for its container, is the number of rows with that
  parent.  The lemmas below follow each section under the cache lock.  Two of them write a number
  down, and may do so only where it is right:
    * `publishNumChildren`, after counting;
    * `informCache`, which writes 0 for a container that was just made.
-/
import Mathlib.Data.Multiset.Count
import MediaTomb.Storage.Browse
import MediaTomb.Storage.FreshKeys

namespace MediaTomb

open Lib.Prog

/-! ## Numbers in the cache -/

namespace StorageCache

/-- The number of children the cache knows for a container. -/
def numChildren (c : StorageCache) (i : Int) : Option Int :=
  (c.getObject i).bind CacheObject.numChildren

/-- `c'` knows no number that `c` does not know. -/
def CountsWithin (c' c : StorageCache) : Prop :=
  ∀ i n, c'.numChildren i = some n → c.numChildren i = some n

variable {c : StorageCache} {id i : Int} {n : Int}

theorem CountsWithin.trans {c' c'' : StorageCache} (h : c''.CountsWithin c')
    (h' : c'.CountsWithin c) : c''.CountsWithin c := fun i n hi => h' i n (h i n hi)

theorem numChildren_congr {c' : StorageCache} (h : c'.getObject i = c.getObject i) :
    c'.numChildren i = c.numChildren i := by
  unfold numChildren
  rw [h]

theorem numChildren_store_self {cObj : CacheObject} (h : isMarkerID id = false) :
    (c.store id cObj).numChildren id = cObj.numChildren := by
  unfold numChildren
  rw [getObject_store_self h]
  rfl

theorem store_marker {cObj : CacheObject} (h : isMarkerID id = true) : c.store id cObj = c := by
  unfold store
  rw [if_pos h]

/-- Writing to a cache object, its number as before. -/
theorem countsWithin_store {cObj : CacheObject}
    (h : ∀ n, cObj.numChildren = some n → c.numChildren id = some n) :
    (c.store id cObj).CountsWithin c := by
  intro i n hi
  rcases hmark : isMarkerID id with _ | _
  · by_cases heq : i = id
    · subst heq
      rw [numChildren_store_self hmark] at hi
      exact h n hi
    · rwa [numChildren_congr (getObject_store_ne heq)] at hi
  · rwa [store_marker hmark] at hi

/-- Something the cache objects know, by id. -/
def field {β : Type} (knows : CacheObject → Option β) (c : StorageCache) (i : Int) : Option β :=
  (c.getObject i).bind knows

/-- Making a cache object, and emptying the cache for it, adds nothing to what is known. -/
theorem field_getObjectDefinitely {β : Type} {knows : CacheObject → Option β} {v : β}
    (hfresh : knows {} = none) (h : (c.getObjectDefinitely id).2.field knows i = some v) :
    c.field knows i = some v := by
  unfold getObjectDefinitely at h
  rcases hget : c.getObject id with _ | cObj
  · rw [hget] at h
    simp only at h
    by_cases heq : i = id
    · -- the cache object has just been made
      subst heq
      unfold put field getObject at h
      split at h
      · rcases getObject_ensureFillLevelOk (c := c) with hnone | hsame
        · have hnone' : c.ensureFillLevelOk.idHash.lookup i = none := hnone i
          rw [hnone'] at h
          cases h
        · rw [hsame] at h
          exact h
      · rw [AList.lookup_insert, Option.bind_some, hfresh] at h
        cases h
    · unfold field at h
      rw [getObject_put_ne heq] at h
      rcases getObject_ensureFillLevelOk (c := c) with hnone | hsame
      · rw [hnone] at h
        cases h
      · rw [hsame] at h
        exact h
  · rw [hget] at h
    exact h

/-- What is known after a cache object was written. -/
theorem field_modifyObject {β : Type} {knows : CacheObject → Option β} {v : β}
    {f : CacheObject → CacheObject} (h : (c.modifyObject id f).field knows i = some v) :
    (i = id ∧ knows (f ((c.getObject id).getD {})) = some v) ∨ c.field knows i = some v := by
  unfold modifyObject at h
  rcases hmark : isMarkerID id with _ | _
  · by_cases heq : i = id
    · subst heq
      unfold field at h
      rw [getObject_store_self hmark] at h
      exact Or.inl ⟨rfl, h⟩
    · unfold field at h
      rw [getObject_store_ne heq] at h
      exact Or.inr h
  · rw [store_marker hmark] at h
    exact Or.inr h

theorem countsWithin_getObjectDefinitely (id : Int) :
    (c.getObjectDefinitely id).2.CountsWithin c := fun _ _ hi => field_getObjectDefinitely rfl hi

theorem countsWithin_modifyObject {f : CacheObject → CacheObject}
    (h : ∀ cObj, (f cObj).numChildren = cObj.numChildren) : (c.modifyObject id f).CountsWithin c := by
  refine countsWithin_store fun n hn => ?_
  rw [h] at hn
  unfold numChildren
  rcases hget : c.getObject id with _ | cObj
  · rw [hget] at hn
    cases hn
  · rw [hget] at hn
    exact hn

/-- What is known after a number was written. -/
theorem numChildren_modifyObject {f : CacheObject → CacheObject} {m : Int}
    (h : ∀ cObj, (f cObj).numChildren = some m) (hi : (c.modifyObject id f).numChildren i = some n) :
    (i = id ∧ isMarkerID id = false ∧ n = m) ∨ (i ≠ id ∧ c.numChildren i = some n) ∨
      (isMarkerID id = true ∧ c.numChildren i = some n) := by
  rcases hmark : isMarkerID id with _ | _
  · by_cases heq : i = id
    · subst heq
      rw [modifyObject, numChildren_store_self hmark, h] at hi
      cases hi
      exact Or.inl ⟨rfl, rfl, rfl⟩
    · rw [modifyObject, numChildren_congr (getObject_store_ne heq)] at hi
      exact Or.inr (Or.inl ⟨heq, hi⟩)
  · rw [modifyObject, store_marker hmark] at hi
    exact Or.inr (Or.inr ⟨rfl, hi⟩)

theorem countsWithin_setObject (obj : CdsObject) : ((c.store obj.id
    (((c.getObject obj.id).getD {}).setObject obj)).checkLocation obj.id
      (((c.getObject obj.id).getD {}).setObject obj)).CountsWithin c := by
  intro i n hi
  rw [numChildren_congr getObject_checkLocation] at hi
  have hwithin : (c.modifyObject obj.id fun cObj => cObj.setObject obj).CountsWithin c :=
    countsWithin_modifyObject fun _ => rfl
  exact hwithin i n hi

/-- `addChild` adds one where a number is known. -/
theorem numChildren_addChild (hmarker : isMarkerID id = true → c.numChildren id = none)
    (h : (c.addChild id).numChildren i = some n) :
    (i = id ∧ c.numChildren i = some (n - 1)) ∨ (i ≠ id ∧ c.numChildren i = some n) := by
  by_cases heq : i = id
  · subst heq
    refine Or.inl ⟨rfl, ?_⟩
    unfold addChild at h
    rcases hget : c.getObject i with _ | cObj
    · simp only [hget] at h
      unfold numChildren at h
      rw [hget] at h
      cases h
    · simp only [hget] at h
      rcases hnum : cObj.numChildren with _ | m
      · simp only [hnum] at h
        unfold numChildren at h
        rw [hget, Option.bind_some, hnum] at h
        cases h
      · simp only [hnum] at h
        have hknown : c.numChildren i = some m := by
          unfold numChildren
          rw [hget, Option.bind_some, hnum]
        rcases hmark : isMarkerID i with _ | _
        · rw [numChildren_store_self hmark] at h
          rw [hknown, ← Option.some.inj h, Int.add_sub_cancel]
        · rw [hmarker hmark] at hknown
          cases hknown
  · refine Or.inr ⟨heq, ?_⟩
    unfold addChild at h
    split at h
    · exact h
    · split at h
      · exact h
      · rwa [numChildren_congr (getObject_store_ne heq)] at h

end StorageCache

/-! ## Numbers and rows -/

/-- How many of the rows have this parent. -/
def childCount (rows : Multiset ObjectRow) (c : Int) : Nat := rows.countP fun r => r.parentID = c

/-- No row takes a reserved id or that of another row, and a known number of children is that of the
    rows, less what is owed. -/
structure Counting (objs items owed : Multiset Int) (rows : Multiset ObjectRow)
    (s : StorageState) : Prop where
  keys : FreshKeys objs items s
  owedTo : (s.uncounted : Multiset Int) = owed
  allRows : (s.rows : Multiset ObjectRow) = rows
  counts : ∀ c n, cachedNumChildren s c = some n → n + owed.count c = childCount rows c
  marker : ∀ c, isMarkerID c = true → cachedNumChildren s c = none

section

variable {objs items owed : Multiset Int} {rows : Multiset ObjectRow} {s s' : StorageState}
  {E : StorageState → Prop}

theorem cachedNumChildren_eq {c : StorageCache} (h : s.cache = some c) (i : Int) :
    cachedNumChildren s i = c.numChildren i := by
  unfold cachedNumChildren
  rw [h]
  rfl

/-- A cache that knows no more numbers. -/
theorem Counting.within (h : Counting objs items owed rows s) {cache : Option StorageCache}
    (hcache : ∀ c', cache = some c' → ∃ c, s.cache = some c ∧ c'.CountsWithin c) :
    Counting objs items owed rows { s with cache := cache } := by
  have hless : ∀ i n, cachedNumChildren { s with cache := cache } i = some n →
      cachedNumChildren s i = some n := by
    intro i n hi
    rcases cache with _ | c'
    · cases hi
    · obtain ⟨c, hc, hwithin⟩ := hcache c' rfl
      rw [cachedNumChildren_eq hc]
      exact hwithin i n hi
  refine ⟨⟨h.keys.objects, h.keys.activeItems⟩, h.owedTo, h.allRows,
    fun c n hc => h.counts c n (hless c n hc), fun c hc => ?_⟩
  rcases hnum : cachedNumChildren { s with cache := cache } c with _ | n
  · rfl
  · have hnone := h.marker c hc
    rw [hless c n hnum] at hnone
    cases hnone

theorem counting_modifyCache {f : StorageCache → StorageCache} (hf : ∀ c, (f c).CountsWithin c) :
    Triple (Counting objs items owed rows) (modifyCache f)
      (fun _ => Counting objs items owed rows) E := by
  refine triple_modify fun s hs => hs.within fun c' hc' => ?_
  obtain ⟨c, hc, rfl⟩ := Option.map_eq_some_iff.mp hc'
  exact ⟨c, hc, hf c⟩

theorem Counting.flushed (h : Counting objs items owed rows s) (hf : Flushed s s') :
    Counting objs items owed rows s' := by
  have hsame : ∀ i, cachedNumChildren s' i = cachedNumChildren s i := by
    intro i
    unfold cachedNumChildren
    rw [hf.cache]
  refine ⟨h.keys.flushed hf, by rw [hf.uncounted]; exact h.owedTo, by rw [hf.rows]; exact h.allRows,
    fun c n hc => ?_, fun c hc => ?_⟩
  · rw [hsame] at hc
    exact h.counts c n hc
  · rw [hsame]
    exact h.marker c hc

theorem counting_flush : Triple (Counting objs items owed rows) flushInsertBuffer
    (fun _ => Counting objs items owed rows) E := by
  intro s hs
  obtain ⟨s', hrun, hf⟩ := hs.keys.run_flush
  rw [hrun]
  exact hs.flushed hf

theorem counting_flushIfFlushed : Triple (Counting objs items owed rows) flushIfFlushed
    (fun _ => Counting objs items owed rows) E := by
  refine triple_get_bind fun s hs => ?_
  rcases s.cache with _ | c
  · exact triple_pure fun s' hs' => hs' ▸ hs
  · refine triple_bind (triple_conseq (counting_modifyCache (f := fun c => c.flushed.2)
      fun _ _ _ h => h) (fun s' hs' => hs' ▸ hs) (fun _ _ h => h) fun _ h => h) fun _ => ?_
    show Triple _ (if c.flushed.1 then flushInsertBuffer else pure ()) _ _
    split
    · exact counting_flush
    · exact triple_pure fun _ h => h

/-- A section that makes a cache object, and the flush after it. -/
theorem counting_writeCache {f : StorageCache → StorageCache} (hf : ∀ c, (f c).CountsWithin c) :
    Triple (Counting objs items owed rows) (do modifyCache f; flushIfFlushed)
      (fun _ => Counting objs items owed rows) E :=
  triple_bind (counting_modifyCache hf) fun _ => counting_flushIfFlushed

theorem counting_addObjectToCacheLocked (obj : CdsObject) :
    Triple (Counting objs items owed rows) (addObjectToCacheLocked obj)
      (fun _ => Counting objs items owed rows) E :=
  triple_bind (counting_modifyCache fun _ =>
      StorageCache.countsWithin_getObjectDefinitely _) fun _ =>
    triple_bind counting_flushIfFlushed fun _ =>
      counting_modifyCache fun _ => StorageCache.countsWithin_setObject obj

/-- **What is owed is added.** -/
theorem counting_addChild (parentID : Int) (hin : parentID ∈ owed) :
    Triple (Counting objs items owed rows) (addChild parentID)
      (fun _ => Counting objs items (owed.erase parentID) rows) E := by
  refine triple_modify fun s hs => ⟨⟨hs.keys.objects, hs.keys.activeItems⟩, ?_, hs.allRows,
    fun i n hi => ?_, fun i hi => ?_⟩
  · show ((s.uncounted.erase parentID : List Int) : Multiset Int) = _
    rw [← hs.owedTo, Multiset.coe_erase]
  · rcases hcache : s.cache with _ | c
    · simp only [cachedNumChildren, hcache] at hi
      cases hi
    · have hi' : (c.addChild parentID).numChildren i = some n :=
        (cachedNumChildren_eq (by simp only [hcache, Option.map_some]) i).symm.trans hi
      have hmark := fun hm => cachedNumChildren_eq hcache parentID ▸ hs.marker parentID hm
      rcases StorageCache.numChildren_addChild hmark hi' with ⟨rfl, hold⟩ | ⟨hne, hold⟩
      · have hcount := hs.counts i _ ((cachedNumChildren_eq hcache i).trans hold)
        have herase := Multiset.count_erase_self i owed
        have hpos := Multiset.count_pos.mpr hin
        omega
      · rw [Multiset.count_erase_of_ne hne]
        exact hs.counts i n ((cachedNumChildren_eq hcache i).trans hold)
  · rcases hcache : s.cache with _ | c
    · rfl
    · rcases hnum : (c.addChild parentID).numChildren i with _ | n
      · exact hnum
      · have hmark := fun hm => cachedNumChildren_eq hcache parentID ▸ hs.marker parentID hm
        have hnone := cachedNumChildren_eq hcache i ▸ hs.marker i hi
        rcases StorageCache.numChildren_addChild hmark hnum with ⟨-, hold⟩ | ⟨-, hold⟩
        · rw [hnone] at hold
          cases hold
        · rw [hnone] at hold
          cases hold

/-- **A number is written** where it is right. -/
theorem Counting.write (h : Counting objs items owed rows s) {i m : Int}
    {f : CacheObject → CacheObject} (hf : ∀ cObj, (f cObj).numChildren = some m)
    (hright : m + owed.count i = childCount rows i) {g : StorageCache → StorageCache}
    (hg : ∀ c, (g c).CountsWithin c) :
    Counting objs items owed rows
      { s with cache := s.cache.map fun c => (g c).modifyObject i f } := by
  have hnums : ∀ j n, cachedNumChildren
      { s with cache := s.cache.map fun c => (g c).modifyObject i f } j = some n →
      (j = i ∧ isMarkerID i = false ∧ n = m) ∨ cachedNumChildren s j = some n := by
    intro j n hj
    rcases hcache : s.cache with _ | c
    · simp only [cachedNumChildren, hcache] at hj
      cases hj
    · have hj' : ((g c).modifyObject i f).numChildren j = some n :=
        (cachedNumChildren_eq (by simp only [hcache, Option.map_some]) j).symm.trans hj
      rw [cachedNumChildren_eq hcache]
      rcases StorageCache.numChildren_modifyObject hf hj' with hnew | ⟨-, hold⟩ | ⟨-, hold⟩
      · exact Or.inl hnew
      · exact Or.inr (hg c j n hold)
      · exact Or.inr (hg c j n hold)
  refine ⟨⟨h.keys.objects, h.keys.activeItems⟩, h.owedTo, h.allRows, fun j n hj => ?_, fun j hj => ?_⟩
  · rcases hnums j n hj with ⟨rfl, -, rfl⟩ | hold
    · exact hright
    · exact h.counts j n hold
  · rcases hnum : cachedNumChildren
        { s with cache := s.cache.map fun c => (g c).modifyObject i f } j with _ | n
    · rfl
    · rcases hnums j n hnum with ⟨rfl, hmark, -⟩ | hold
      · rw [hj] at hmark
        cases hmark
      · have hnone := h.marker j hj
        rw [hold] at hnone
        cases hnone

theorem counting_publishNumChildren {contId m : Int}
    (hright : m + owed.count contId = childCount rows contId) :
    Triple (Counting objs items owed rows) (publishNumChildren contId m)
      (fun _ => Counting objs items owed rows) E :=
  triple_bind (triple_modify fun _ hs => hs.write (fun _ => rfl) hright
    fun _ => StorageCache.countsWithin_getObjectDefinitely _) fun _ => counting_flushIfFlushed

/-- **A container has been made**: its parent gets a child, and it has none itself. -/
theorem counting_informCache {newID parentID : Int} {path : Str} (hin : parentID ∈ owed)
    (hright : (owed.erase parentID).count newID = childCount rows newID) :
    Triple (Counting objs items owed rows) (informCache newID parentID path)
      (fun _ => Counting objs items (owed.erase parentID) rows) E := by
  refine triple_bind (counting_addChild parentID hin) fun _ =>
    triple_bind counting_flushIfFlushed fun _ =>
    triple_bind (counting_modifyCache fun _ =>
      StorageCache.countsWithin_getObjectDefinitely _) fun _ =>
    triple_bind counting_flushIfFlushed fun _ => triple_modify fun s hs => ?_
  exact hs.write (m := 0) (g := id) (fun _ => rfl) (by rw [hright, Int.zero_add]) fun _ _ _ h => h

theorem counting_addToCacheAsChild (obj : CdsObject) (hin : obj.parentID ∈ owed) :
    Triple (Counting objs items owed rows) (addToCacheAsChild obj)
      (fun _ => Counting objs items (owed.erase obj.parentID) rows) E :=
  triple_bind (counting_addChild obj.parentID hin) fun _ =>
    triple_bind counting_flushIfFlushed fun _ => counting_addObjectToCacheLocked obj

/-! ## Rows that are inserted -/

/-- A row comes, and its parent is owed one. -/
theorem Counting.insert (h : Counting objs items owed rows s) {objs' items' : Multiset Int}
    {row : ObjectRow} (hkeys : FreshKeys objs' items' s')
    (howed : s'.uncounted = s.uncounted ++ [row.parentID])
    (hrows : s'.rows.Perm (row :: s.rows)) (hcache : s'.cache = s.cache) :
    Counting objs' items' (row.parentID ::ₘ owed) (row ::ₘ rows) s' := by
  have hsame : ∀ i, cachedNumChildren s' i = cachedNumChildren s i := by
    intro i
    unfold cachedNumChildren
    rw [hcache]
  refine ⟨hkeys, ?_, ?_, fun c n hc => ?_, fun c hc => ?_⟩
  · rw [howed, ← Multiset.coe_add, h.owedTo, add_comm]
    rfl
  · rw [Multiset.coe_eq_coe.mpr hrows, ← Multiset.cons_coe, h.allRows]
  · rw [hsame] at hc
    have hold := h.counts c n hc
    unfold childCount at hold ⊢
    by_cases heq : row.parentID = c
    · rw [Multiset.countP_cons_of_pos (p := fun r : ObjectRow => r.parentID = c) _ heq, heq, Multiset.count_cons_self]
      push_cast
      omega
    · rw [Multiset.countP_cons_of_neg (p := fun r : ObjectRow => r.parentID = c) _ heq, Multiset.count_cons_of_ne (Ne.symm heq)]
      exact hold
  · rw [hsame]
    exact h.marker c hc

/-- The buffer takes the INSERT of a row. -/
theorem Counting.buffer_object {text : Str} {row : ObjectRow}
    (h : Counting (row.id ::ₘ objs) items owed rows s) :
    Counting objs items (row.parentID ::ₘ owed) (row ::ₘ rows)
      (bufferedState (.insertObject text row) s) := by
  refine h.insert h.keys.buffer_object rfl ?_ rfl
  rw [bufferedState_rows]
  exact List.perm_append_singleton row s.rows

/-- The buffer takes the INSERT of an active item. -/
theorem Counting.buffer_activeItem {text : Str} {row : ActiveItemRow}
    (h : Counting objs (row.id ::ₘ items) owed rows s) :
    Counting objs items owed rows (bufferedState (.insertActiveItem text row) s) := by
  refine ⟨h.keys.buffer_activeItem, ?_, ?_, h.counts, h.marker⟩
  · exact (congrArg _ (List.append_nil _)).trans h.owedTo
  · rw [bufferedState_rows]
    exact (congrArg _ (List.append_nil _)).trans h.allRows

/-- A row goes into the table at once. -/
theorem counting_execInsertObject {row : ObjectRow} :
    Triple (Counting (row.id ::ₘ objs) items owed rows) (execInsertObject row)
      (fun _ => Counting objs items (row.parentID ::ₘ owed) (row ::ₘ rows)) E := by
  intro s hs
  obtain ⟨db, -, hrun, hperm, hkeys⟩ := hs.keys.run_execInsertObject
  rw [hrun]
  exact hs.insert hkeys rfl hperm rfl

theorem Counting.mono (h : Counting objs items owed rows s) {objs' items' : Multiset Int}
    (hobjs : objs' ≤ objs) (hitems : items' ≤ items) : Counting objs' items' owed rows s :=
  ⟨h.keys.mono hobjs hitems, h.owedTo, h.allRows, h.counts, h.marker⟩

end

end MediaTomb
