/-
  `CacheObject` (`cache_object.cc`) and `StorageCache` (`storage_cache.cc`).

  A cache object KNOWS some facts about a stored object and not others; each fact it may not know
  is an `Option`.  The cache finds cache objects by id and, by location, lists of them.  Cache
  objects are shared by reference in the source, so a list under a location holds ids here, and what
  an id stands for is read from the id hash at that moment.

  The two hash tables are finite maps.  Two ids are markers of the id hash for empty and deleted
  slots: a `put` under a marker is counted but never found again.
-/
import Mathlib.Data.List.AList
import MediaTomb.Storage.Database

namespace MediaTomb

/-! ## `cache_object.cc` -/

structure CacheObject where
  parentID : Int := invalidObjectID
  refID : Option Int := none
  obj : Option CdsObject := none
  numChildren : Option Int := none
  objectType : Option UInt32 := none
  virt : Option Bool := none
  location : Option Str := none

namespace CacheObject

/-- The location `setObject` files an object under; `none` leaves the one it has. -/
def locationKey (obj : CdsObject) : Option Str :=
  if isCdsContainer obj.objectType then
    some (addLocationPrefix (if obj.virt then locVirtPrefix else locFilePrefix) obj.location)
  else if isCdsItem obj.objectType then
    if isCdsPureItem obj.objectType then some (addLocationPrefix locFilePrefix obj.location)
    else none
  else none

def setObject (c : CacheObject) (obj : CdsObject) : CacheObject :=
  { c with
    obj := some obj.copy
    parentID := obj.parentID
    refID := some obj.refID
    objectType := some obj.objectType
    virt := some obj.virt
    location := match locationKey obj with
      | some key => some key
      | none => c.location }

@[simp] theorem setObject_obj (c : CacheObject) (obj : CdsObject) :
    (c.setObject obj).obj = some obj.copy := rfl

@[simp] theorem setObject_numChildren (c : CacheObject) (obj : CdsObject) :
    (c.setObject obj).numChildren = c.numChildren := rfl

@[simp] theorem setObject_virt (c : CacheObject) (obj : CdsObject) :
    (c.setObject obj).virt = some obj.virt := rfl

end CacheObject

/-! ## `storage_cache.cc` -/

def storageCacheMaxfill : Nat := 9973

/-- The two ids the id hash marks its slots with. -/
def isMarkerID (id : Int) : Bool := id = invalidObjectID || id = invalidObjectID2

structure StorageCache where
  idHash : AList fun _ : Int => CacheObject
  /-- How many puts went under a marker id. -/
  lostPuts : Nat
  locationHash : AList fun _ : Str => List Int
  hasBeenFlushed : Bool

namespace StorageCache

def empty : StorageCache := ⟨∅, 0, ∅, false⟩

/-- `idHash->clear()` and `locationHash->clear()`. -/
def clear (c : StorageCache) : StorageCache :=
  { c with idHash := ∅, lostPuts := 0, locationHash := ∅ }

def getObject (c : StorageCache) (id : Int) : Option CacheObject := c.idHash.lookup id

def ensureFillLevelOk (c : StorageCache) : StorageCache :=
  if storageCacheMaxfill ≤ c.idHash.entries.length + c.lostPuts ∨
      storageCacheMaxfill ≤ c.locationHash.entries.length then
    { c.clear with hasBeenFlushed := true }
  else c

/-- `idHash->put`. -/
def put (c : StorageCache) (id : Int) (cObj : CacheObject) : StorageCache :=
  if isMarkerID id then { c with lostPuts := c.lostPuts + 1 }
  else { c with idHash := c.idHash.insert id cObj }

/-- `getObjectDefinitely`: the cache object of `id`, made when there is none. -/
def getObjectDefinitely (c : StorageCache) (id : Int) : CacheObject × StorageCache :=
  match c.getObject id with
  | some cObj => (cObj, c)
  | none => ({}, c.ensureFillLevelOk.put id {})

/-- Writing to the cache object `getObjectDefinitely` returned for `id`. -/
def store (c : StorageCache) (id : Int) (cObj : CacheObject) : StorageCache :=
  if isMarkerID id then c else { c with idHash := c.idHash.insert id cObj }

def addChild (c : StorageCache) (id : Int) : StorageCache :=
  match c.getObject id with
  | none => c
  | some cObj =>
    match cObj.numChildren with
    | none => c
    | some n => c.store id { cObj with numChildren := some (n + 1) }

/-- `getObjects`: the ids filed under a location. -/
def getObjects (c : StorageCache) (location : Str) : Option (List Int) :=
  c.locationHash.lookup location

/-- `checkLocation`: file `id` under the location its cache object knows. -/
def checkLocation (c : StorageCache) (id : Int) (cObj : CacheObject) : StorageCache :=
  match cObj.location with
  | none => c
  | some location =>
    match c.getObjects location with
    | none => { c with locationHash := c.locationHash.insert location [id] }
    | some ids =>
      if id ∈ ids then c
      else { c with locationHash := c.locationHash.insert location (ids ++ [id]) }

/-- `flushed`: was the cache emptied for space since the last call? -/
def flushed (c : StorageCache) : Bool × StorageCache :=
  (c.hasBeenFlushed, { c with hasBeenFlushed := false })

/-! ## What a lookup finds after each operation -/

variable {c : StorageCache} {id j : Int} {cObj : CacheObject}

@[simp] theorem getObject_empty : empty.getObject id = none := AList.lookup_empty id

@[simp] theorem getObject_clear : c.clear.getObject id = none := AList.lookup_empty id

@[simp] theorem getObject_flushed : c.flushed.2.getObject id = c.getObject id := rfl

theorem getObject_store_self (h : isMarkerID id = false) :
    (c.store id cObj).getObject id = some cObj := by
  unfold store getObject
  rw [h]
  exact AList.lookup_insert _

theorem getObject_store_ne (h : j ≠ id) : (c.store id cObj).getObject j = c.getObject j := by
  unfold store getObject
  split
  · rfl
  · exact AList.lookup_insert_ne h

theorem getObject_put_ne (h : j ≠ id) : (c.put id cObj).getObject j = c.getObject j := by
  unfold put getObject
  split
  · rfl
  · exact AList.lookup_insert_ne h

/-- Emptying the cache for space forgets everything or nothing. -/
theorem getObject_ensureFillLevelOk :
    (∀ j, c.ensureFillLevelOk.getObject j = none) ∨ c.ensureFillLevelOk = c := by
  unfold ensureFillLevelOk
  split
  · exact Or.inl fun j => AList.lookup_empty j
  · exact Or.inr rfl

/-- A fact known after `getObjectDefinitely` was known before it. -/
theorem getObject_getObjectDefinitely_ne (h : j ≠ id) :
    (c.getObjectDefinitely id).2.getObject j = none ∨
      (c.getObjectDefinitely id).2.getObject j = c.getObject j := by
  unfold getObjectDefinitely
  rcases hg : c.getObject id with _ | cObj
  · rcases getObject_ensureFillLevelOk (c := c) with hc | hc
    · exact Or.inl ((getObject_put_ne h).trans (hc j))
    · refine Or.inr ((getObject_put_ne h).trans ?_)
      rw [hc]
  · exact Or.inr rfl

theorem getObject_checkLocation : (c.checkLocation id cObj).getObject j = c.getObject j := by
  unfold checkLocation
  split
  · rfl
  · split
    · rfl
    · split <;> rfl

end StorageCache

end MediaTomb
