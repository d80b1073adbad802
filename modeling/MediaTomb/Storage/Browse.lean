/-
  `getChildCount`, `browse` and the queries around them.

  `getChildCount` answers from the cache when the count of all children is known there, and
  otherwise counts rows and tells the cache.  All these methods flush the insert buffer before
  they query.
-/
import Mathlib.Data.List.Sort
import MediaTomb.Storage.AddUpdate

namespace MediaTomb

open Lib.Prog

/-! ## `getChildCount` -/

/-- The rows `getChildCount` counts. -/
def isCountedChild (contId : Int) (containers items hideFsRoot : Bool) (r : ObjectRow) : Bool :=
  r.parentID = contId &&
    (if containers && !items then r.objectType = objectTypeContainer
      else if items && !containers then r.objectType &&& objectTypeItem = objectTypeItem
      else true) &&
    !(contId = cdsIdRoot && hideFsRoot && r.id = cdsIdFsRoot)

/-- Does the cache keep this count? -/
def isCachedCount (contId : Int) (containers items hideFsRoot : Bool) : Bool :=
  containers && items && !(contId = cdsIdRoot && hideFsRoot)

/-- The number of children the cache knows. -/
def cachedNumChildren (s : StorageState) (contId : Int) : Option Int :=
  s.cache.bind fun c => (c.getObject contId).bind CacheObject.numChildren

/-- `cache->getObjectDefinitely(contId)->setNumChildren(childCount)`, and the flush after it. -/
def publishNumChildren (contId childCount : Int) : Storage Unit := do
  modifyCache fun c => (c.getObjectDefinitely contId).2.modifyObject contId fun cObj =>
    { cObj with numChildren := some childCount }
  flushIfFlushed

def getChildCount (contId : Int) (containers items hideFsRoot : Bool) : Storage Int :=
  if !containers && !items then pure 0
  else do
    let known ← if isCachedCount contId containers items hideFsRoot then
        read fun s => cachedNumChildren s contId
      else pure none
    match known with
    | some numChildren => pure numChildren
    | none => do
      flushInsertBuffer
      let rows ← select fun db =>
        db.selectObjects (isCountedChild contId containers items hideFsRoot)
      let childCount : Int := rows.length
      if isCachedCount contId containers items hideFsRoot then
        if ← cacheOn then
          locked (publishNumChildren contId childCount)
      pure childCount

/-! ## `browse` -/

structure BrowseParam where
  objectID : Int
  directChildren : Bool
  containers : Bool
  items : Bool
  hideFsRoot : Bool
  trackSort : Bool
  startingIndex : Int
  requestedCount : Int

/-- The object type the cache knows. -/
def cachedObjectType (s : StorageState) (objectID : Int) : Option UInt32 :=
  s.cache.bind fun c => (c.getObject objectID).bind CacheObject.objectType

/-- `cache->getObjectDefinitely(objectID)->setObjectType(objectType)`, and the flush after it. -/
def publishObjectType (objectID : Int) (objectType : UInt32) : Storage Unit := do
  modifyCache fun c => (c.getObjectDefinitely objectID).2.modifyObject objectID fun cObj =>
    { cObj with objectType := some objectType }
  flushIfFlushed

/-- The type of an object, from the cache or from its row. -/
def browseObjectType (objectID : Int) : Storage UInt32 := do
  match ← read fun s => cachedObjectType s objectID with
  | some objectType => pure objectType
  | none =>
    match ← select fun db => db.selectObjects fun r => r.id = objectID with
    | row :: _ => do
      if ← cacheOn then
        locked (publishObjectType objectID row.objectType)
      pure row.objectType
    | [] => throw (objectNotFound objectID)

/-- Lexicographic order on columns, NULL first. -/
def columnLE {α : Type} [LE α] [DecidableLE α] : Option α → Option α → Bool
  | none, _ => true
  | some _, none => false
  | some a, some b => a ≤ b

/-- `ORDER BY`: containers first where both kinds are shown, then by track, then by title. -/
def browseLE (param : BrowseParam) (a b : Database.JoinedRow) : Bool :=
  let isContainer (r : Database.JoinedRow) : Bool := r.f.objectType = objectTypeContainer
  let title := columnLE a.f.dcTitle b.f.dcTitle
  let track := if param.trackSort ∧ a.f.trackNumber ≠ b.f.trackNumber then
      columnLE a.f.trackNumber b.f.trackNumber
    else title
  if param.containers && param.items then
    if isContainer a = isContainer b then track else isContainer a
  else track

def intMax : Int := 2 ^ 31 - 1

/-- `LIMIT count OFFSET offset`; a negative limit is none, and a negative offset is 0. -/
def limitOffset {α : Type} (count offset : Int) (rows : List α) : List α :=
  if count < 0 then rows.drop offset.toNat else (rows.drop offset.toNat).take count.toNat

/-- What `browse` limits its query to. -/
def browseLimit {α : Type} (param : BrowseParam) (rows : List α) : List α :=
  if param.requestedCount = 0 then
    if param.startingIndex = 0 then rows else limitOffset intMax param.startingIndex rows
  else limitOffset param.requestedCount param.startingIndex rows

/-- The rows of the main query of `browse`. -/
def browseRows (param : BrowseParam) (children : Bool) (db : Database) :
    List Database.JoinedRow :=
  if children then
    let rows := db.sqlQuery fun f =>
      isCountedChild param.objectID param.containers param.items param.hideFsRoot f &&
        (param.containers || param.items)
    browseLimit param (rows.insertionSort fun a b => browseLE param a b)
  else (db.sqlQuery fun f => f.id = param.objectID).take 1

/-- "update childCount fields". -/
def updateChildCounts (param : BrowseParam) : List CdsObject → Storage (List CdsObject)
  | [] => pure []
  | obj :: objs => do
    let obj ← match obj.kind with
      | .container updateID _ autoscanType => do
        let childCount ← getChildCount obj.id param.containers param.items param.hideFsRoot
        pure { obj with kind := .container updateID childCount autoscanType }
      | _ => pure obj
    let objs ← updateChildCounts param objs
    pure (obj :: objs)

/-- `browse`: the objects, and `totalMatches`. -/
def browse (param : BrowseParam) : Storage (List CdsObject × Int) := do
  flushInsertBuffer
  let objectType ← browseObjectType param.objectID
  let children := param.directChildren && isCdsContainer objectType
  let totalMatches ← if children then
      getChildCount param.objectID param.containers param.items param.hideFsRoot
    else pure 1
  let rows ← select (browseRows param children)
  let arr ← createObjectsFromRows rows
  let arr ← updateChildCounts param arr
  pure (arr, totalMatches)

/-! ## Other queries -/

/-- The letter without its case, which LIKE ignores. -/
def lowerLetter (c : UInt8) : UInt8 :=
  if 'A'.toUInt8 ≤ c ∧ c ≤ 'Z'.toUInt8 then c + 32 else c

/-- `getServiceObjectIDs`: `service_id LIKE 'p%'`. -/
def getServiceObjectIDs (servicePrefix : UInt8) : Storage (List Int) := do
  flushInsertBuffer
  select fun db => (db.selectObjects fun r =>
    match r.serviceID with
    | some (c :: _) => lowerLetter c == lowerLetter servicePrefix
    | _ => false).map ObjectRow.id

/-- `getObjects`; `none` when there are none. -/
def getObjects (parentID : Int) (withoutContainer : Bool) : Storage (Option (List Int)) := do
  flushInsertBuffer
  let ids ← select fun db => (db.selectObjects fun r =>
    (!withoutContainer || r.objectType ≠ objectTypeContainer) && r.parentID = parentID).map
      ObjectRow.id
  pure (if ids = [] then none else some ids)

def getTotalFiles : Storage Int := do
  flushInsertBuffer
  select fun db => ((db.selectObjects fun r => r.objectType ≠ objectTypeContainer).length : Int)

/-- `getMimeTypes`: each once, in order. -/
def getMimeTypes : Storage (List Str) := do
  flushInsertBuffer
  select fun db =>
    ((db.objects.rows.filterMap ObjectRow.mimeType).dedup).insertionSort fun a b => a ≤ b

/-- `incrementUpdateIDs`: ids and new update ids, joined by commas; nil when there are none. -/
def incrementUpdateIDs (ids : List Int) : Storage (Option Str) :=
  if ids = [] then pure none
  else do
    exec fun db => db.updateObjects
      (fun r => if r.id ∈ ids then { r with updateID := r.updateID + 1 } else r) fun r => by
        split <;> rfl
    let rows ← select fun db => db.selectObjects fun r => r.id ∈ ids
    if rows = [] then pure none
    else pure (some ([','.toUInt8].intercalate
      (rows.flatMap fun r => [fromInt r.id, fromInt r.updateID])))

/-- `clearFlagInDB`. -/
def clearFlagInDB (flag : UInt32) : Storage Unit :=
  exec fun db => db.updateObjects
    (fun r => if r.flags &&& flag ≠ 0 then { r with flags := r.flags &&& ~~~flag } else r)
    fun r => by split <;> rfl

/-- `shutdown`, without stopping the driver's thread. -/
def shutdown : Storage Unit := flushInsertBuffer

end MediaTomb
