/-
  Autoscans: `addAutoscanDirectory`, `updateAutoscanDirectory`, `updateAutoscanPersistentList`,
  the two removals, and the check for overlapping autoscans.

  An autoscan row stores the object it scans (`obj_id`) and, in `path_ids`, the ids from that
  object up to the root, as the text `,7,3,1,`.  A query for autoscans below an object looks for
  its id between commas in that text.  Each of these methods is a sequence of statements without a
  transaction: where a later one fails, the earlier ones stay.
-/
import Mathlib.Data.List.Infix
import MediaTomb.Storage.Remove

namespace MediaTomb

open Lib.Prog

/-- `AutoscanDirectory`, as far as the storage reads it. -/
structure AutoscanDirectory where
  location : Str
  mode : ScanMode
  level : ScanLevel
  recursive : Bool
  hidden : Bool
  persistent : Bool
  interval : UInt32
  previousLMT : Int := 0
  objectID : Int := invalidObjectID
  storageID : Int := invalidObjectID

/-! ## Helpers -/

/-- `IntArray::toCSV`. -/
def toCSV (ids : List Int) : Str := [','.toUInt8].intercalate (ids.map fromInt)

/-- The text of `path_ids`. -/
def pathIDsText (ids : List Int) : Str := ','.toUInt8 :: toCSV ids ++ [','.toUInt8]

/-- `path_ids LIKE '%,id,%'`. -/
def hasPathID (id : Int) (a : AutoscanRow) : Bool :=
  match a.pathIDs with
  | none => false
  | some text => ','.toUInt8 :: fromInt id ++ [','.toUInt8] <:+: text

/-- The loop of `getPathIDs`: the ids from an object up to the root, or up to an id that is not in
    the table.  The loop visits no row twice unless the parent links have a cycle, and then the
    source never leaves it. -/
def pathIDsFrom : Nat → Int → Storage (List Int)
  | 0, _ => throw outOfFuel
  | fuel + 1, objectID =>
    if objectID = cdsIdRoot then pure []
    else do
      match ← select fun db => db.objects.find? objectID with
      | none => pure [objectID]
      | some row => do
        let ids ← pathIDsFrom fuel row.parentID
        pure (objectID :: ids)

/-- `getPathIDs`. -/
def getPathIDs (objectID : Int) : Storage (Option (List Int)) := do
  flushInsertBuffer
  if objectID = invalidObjectID then pure none
  else do
    let count ← select fun db => db.objects.rows.length
    let ids ← pathIDsFrom (count + 1) objectID
    pure (some ids)

/-- `_getAutoscanObjectID`. -/
def getAutoscanObjectID_ (autoscanID : Int) : Storage Int := do
  match ← select fun db => db.autoscans.find? autoscanID with
  | some row => pure (row.objID.getD invalidObjectID)
  | none => pure invalidObjectID

/-- The row `_autoscanChangePersistentFlag` writes. -/
def changePersistentFlag (persistent : Bool) (r : ObjectRow) : ObjectRow :=
  { r with
    flags := if persistent then r.flags ||| objectFlagPersistentContainer
      else r.flags &&& ~~~objectFlagPersistentContainer }

def Database.changePersistentFlag (db : Database) (objectID : Int) (persistent : Bool) :
    Database :=
  db.updateObjects
    (fun r => if r.id = objectID then MediaTomb.changePersistentFlag persistent r else r) fun r => by
      split <;> rfl

/-- `_autoscanChangePersistentFlag`.  Its test for an invalid id compares with two different
    constants at once and never holds. -/
def autoscanChangePersistentFlag_ (objectID : Int) (persistent : Bool) : Storage Unit :=
  exec fun db => db.changePersistentFlag objectID persistent

/-! ## Overlapping autoscans -/

def alreadySet (location : Option Str) : Exception :=
  .exception (str "There is already an Autoscan set on " ++ location.getD [])

def overlapping (location : Option Str) : Exception :=
  .exception (str "Overlapping Autoscans are not allowed. There is already an Autoscan set on " ++
    location.getD [])

def overlappingRecursive (location : Option Str) : Exception :=
  .exception (str ("Overlapping Autoscans are not allowed. There is already a recursive " ++
    "Autoscan set on ") ++ location.getD [])

/-- `id != storageID`, tested only when there is a storage id. -/
def isOtherAutoscan (storageID : Int) (a : AutoscanRow) : Bool :=
  !(0 ≤ storageID) || a.id ≠ storageID

/-- Throw with the location of the object another autoscan is set on. -/
def throwOverlap {α : Type} (objectID : Int) (e : Option Str → Exception) : Storage α := do
  let obj ← loadObject objectID
  throw (e obj.location)

/-- The last part of the check: a recursive autoscan on the path up from the object. -/
def checkAbove (objectID storageID : Int) : Storage (Option (List Int)) := do
  match ← getPathIDs objectID with
  | none => throw (.exception (str "getPathIDs returned nil"))
  | some pathIDs => do
    match ← select fun db => db.selectAutoscans fun a =>
        (match a.objID with
          | none => false
          | some objID => objID ∈ pathIDs) && a.recursive && isOtherAutoscan storageID a with
    | [] => pure (some pathIDs)
    | row :: _ => throwOverlap (row.objID.getD 0) overlappingRecursive

/-- The second part of the check: where the new autoscan is recursive, an autoscan below the
    object. -/
def checkBelow (objectID storageID : Int) (recursive : Bool) : Storage (Option (List Int)) :=
  if recursive then do
    match ← select fun db => db.selectAutoscans fun a =>
        hasPathID objectID a && isOtherAutoscan storageID a with
    | row :: _ => throwOverlap (row.objID.getD 0) overlapping
    | [] => checkAbove objectID storageID
  else checkAbove objectID storageID

/-- `_checkOverlappingAutoscans`: the path ids of the object, or nil when the argument carries no
    object id. -/
def checkOverlappingAutoscans_ (adir : AutoscanDirectory) : Storage (Option (List Int)) :=
  let checkObjectID := adir.objectID
  let storageID := adir.storageID
  if checkObjectID = invalidObjectID then pure none
  else do
    match ← select fun db => db.selectAutoscans fun a =>
        a.objID = some checkObjectID && isOtherAutoscan storageID a with
    | _ :: _ => throwOverlap checkObjectID alreadySet
    | [] => checkBelow checkObjectID storageID adir.recursive

/-! ## Adding, updating, removing -/

/-- The `obj_id` column of an object id. -/
def objIDColumn (objectID : Int) : Option Int := if 0 ≤ objectID then some objectID else none

/-- Execute `INSERT INTO mt_autoscan` and return the generated id. -/
def execInsertAutoscan (row : Int → AutoscanRow) : Storage Int := locked do
  let s ← get
  let id := s.db.nextAutoscanID
  match s.db.insertAutoscan? (row id) with
  | some db => do
    modify fun s => { s with db := db }
    pure id
  | none => throw Statement.constraintError

/-- The row `addAutoscanDirectory` inserts. -/
def newAutoscan (adir : AutoscanDirectory) (objectID : Int) (pathIds : Option (List Int))
    (id : Int) : AutoscanRow where
  id := id
  objID := objIDColumn objectID
  scanLevel := adir.level
  scanMode := adir.mode
  recursive := adir.recursive
  hidden := adir.hidden
  interval := adir.interval
  lastModified := adir.previousLMT
  persistent := adir.persistent
  location := if 0 ≤ objectID then none else some adir.location
  pathIDs := pathIds.map pathIDsText

/-- The object the location of an autoscan directory names. -/
def locationObjectID (adir : AutoscanDirectory) : Storage Int :=
  if adir.location = [dirSeparator] then pure cdsIdFsRoot
  else findObjectIDByPath (adir.location ++ [dirSeparator])

/-- `addAutoscanDirectory`; the storage id it sets. -/
def addAutoscanDirectory (adir : AutoscanDirectory) : Storage Int :=
  if 0 ≤ adir.storageID then
    throw (.exception (str "tried to add autoscan directory with a storage id set"))
  else do
    let objectID ← locationObjectID adir
    if !adir.persistent && objectID < 0 then
      throw (.exception (str ("tried to add non-persistent autoscan directory with an illegal " ++
        "objectID or location")))
    else do
      let pathIds ← checkOverlappingAutoscans_ adir
      autoscanChangePersistentFlag_ objectID true
      execInsertAutoscan (newAutoscan adir objectID pathIds)

/-- The row `updateAutoscanDirectory` writes. -/
def updatedAutoscan (adir : AutoscanDirectory) (pathIds : Option (List Int)) (a : AutoscanRow) :
    AutoscanRow :=
  { a with
    objID := objIDColumn adir.objectID
    scanLevel := adir.level
    scanMode := adir.mode
    recursive := adir.recursive
    hidden := adir.hidden
    interval := adir.interval
    lastModified := if 0 < adir.previousLMT then adir.previousLMT else a.lastModified
    persistent := adir.persistent
    location := if 0 ≤ adir.objectID then none else some adir.location
    pathIDs := pathIds.map pathIDsText
    touched := true }

/-- The UPDATE of `updateAutoscanDirectory`; `none` when it would break the UNIQUE index. -/
def Database.updateAutoscan? (adir : AutoscanDirectory) (pathIds : Option (List Int))
    (db : Database) : Option Database :=
  db.updateAutoscans?
    (fun a => if a.id = adir.storageID then updatedAutoscan adir pathIds a else a) fun a => by
      split <;> rfl

def updateAutoscanDirectory (adir : AutoscanDirectory) : Storage Unit := do
  let pathIds ← checkOverlappingAutoscans_ adir
  let objectIDold ← getAutoscanObjectID_ adir.storageID
  if objectIDold ≠ adir.objectID then
    autoscanChangePersistentFlag_ objectIDold false
    autoscanChangePersistentFlag_ adir.objectID true
  exec? (Database.updateAutoscan? adir pathIds)

def removeAutoscanDirectoryByObjectID (objectID : Int) : Storage Unit :=
  if objectID = invalidObjectID then pure ()
  else do
    exec fun db => db.deleteAutoscans fun a => a.objID = some objectID
    autoscanChangePersistentFlag_ objectID false

def removeAutoscanDirectory (autoscanID : Int) : Storage Unit :=
  if autoscanID = invalidObjectID then pure ()
  else do
    let objectID ← getAutoscanObjectID_ autoscanID
    exec fun db => db.deleteAutoscans fun a => a.id = autoscanID
    if objectID ≠ invalidObjectID then
      autoscanChangePersistentFlag_ objectID false

/-! ## The persistent list -/

/-- The autoscan an element of the list stands for: by its object, or by its location where that
    names none. -/
def autoscanOf (ad : AutoscanDirectory) (objectID : Int) (db : Database) : List AutoscanRow :=
  db.selectAutoscans fun a =>
    if objectID = invalidObjectID then a.location = some ad.location else a.objID = some objectID

/-- One element of the list `updateAutoscanPersistentList` gets. -/
def updatePersistentAutoscan (ad : AutoscanDirectory) : Storage Unit :=
  if ad.location = [] then
    throw (.exception (str ("AutoscanDirectoy with illegal location given to " ++
      "SQLStorage::updateAutoscanPersistentList")))
  else do
    let objectID ← findObjectIDByPath (ad.location ++ [dirSeparator])
    match ← select (autoscanOf ad objectID) with
    | row :: _ => updateAutoscanDirectory { ad with storageID := row.id }
    | [] => do
      let _ ← addAutoscanDirectory ad

def updatePersistentAutoscans : List AutoscanDirectory → Storage Unit
  | [] => pure ()
  | ad :: list => do
    updatePersistentAutoscan ad
    updatePersistentAutoscans list

/-- Mark the persistent autoscans of a scan mode. -/
def untouchAutoscans (scanmode : ScanMode) : Storage Unit :=
  exec? fun db => db.updateAutoscans?
    (fun a => if a.persistent && a.scanMode = scanmode then { a with touched := false } else a)
    fun a => by split <;> rfl

def updateAutoscanPersistentList (scanmode : ScanMode) (list : List AutoscanDirectory) :
    Storage Unit := do
  untouchAutoscans scanmode
  updatePersistentAutoscans list
  exec fun db => db.deleteAutoscans fun a => !a.touched && a.scanMode = scanmode

/-! ## Reading autoscans -/

/-- `_fillAutoscanDirectory`, on the row and the location of its object. -/
def fillAutoscanDirectory_ (a : AutoscanRow) (objectLocation : Option Str) :
    Option AutoscanDirectory :=
  let dir (location : Option Str) : AutoscanDirectory :=
    { location := location.getD []
      mode := a.scanMode
      level := a.scanLevel
      recursive := a.recursive
      hidden := a.hidden
      persistent := a.persistent
      interval := if a.scanMode = .timed then a.interval else 0
      previousLMT := max 0 a.lastModified
      objectID := a.objID.getD invalidObjectID
      storageID := a.id }
  match a.objID with
  | none => some (dir a.location)
  | some _ =>
    let (locationPrefix, location) := stripLocationPrefix objectLocation
    if locationPrefix ≠ locDirPrefix then none else some (dir location)

/-- The location of the object an autoscan is on (`LEFT JOIN`). -/
def autoscanObjectLocation (db : Database) (a : AutoscanRow) : Option Str :=
  (a.objID.bind db.objects.find?).bind ObjectRow.location

/-- The autoscans of a result; those on something that is no directory are removed. -/
def fillAutoscanList : List (AutoscanRow × Option Str) → Storage (List AutoscanDirectory)
  | [] => pure []
  | (a, location) :: rows =>
    match fillAutoscanDirectory_ a location with
    | none => do
      removeAutoscanDirectory a.id
      fillAutoscanList rows
    | some dir => do
      let dirs ← fillAutoscanList rows
      pure (dir :: dirs)

def getAutoscanList (scanmode : ScanMode) : Storage (List AutoscanDirectory) := do
  let rows ← select fun db => (db.selectAutoscans fun a => a.scanMode = scanmode).map fun a =>
    (a, autoscanObjectLocation db a)
  fillAutoscanList rows

def getAutoscanDirectory (objectID : Int) : Storage (Option AutoscanDirectory) := do
  let rows ← select fun db => (db.selectAutoscans fun a =>
    a.objID = some objectID && (db.objects.find? objectID).isSome).map fun a =>
      (a, autoscanObjectLocation db a)
  match rows with
  | [] => pure none
  | (a, location) :: _ => pure (fillAutoscanDirectory_ a location)

/-- `_getAutoscanDirectoryInfo`: 0 without an autoscan, 2 where the column is set, else 1. -/
def getAutoscanDirectoryInfo_ (objectID : Int) (field : AutoscanRow → Bool) : Storage Int :=
  if objectID = invalidObjectID then pure 0
  else do
    match ← select fun db => db.selectAutoscans fun a => a.objID = some objectID with
    | [] => pure 0
    | a :: _ => pure (if field a then 2 else 1)

def getAutoscanDirectoryType (objectID : Int) : Storage Int :=
  getAutoscanDirectoryInfo_ objectID AutoscanRow.persistent

def isAutoscanDirectoryRecursive (objectID : Int) : Storage Int :=
  getAutoscanDirectoryInfo_ objectID AutoscanRow.recursive

/-- The first of the ids with a recursive autoscan. -/
def firstRecursive : List Int → Storage Int
  | [] => pure invalidObjectID
  | id :: ids => do
    let recursive ← isAutoscanDirectoryRecursive id
    if recursive = 2 then pure id else firstRecursive ids

def isAutoscanChild (objectID : Int) : Storage Int := do
  match ← getPathIDs objectID with
  | none => pure invalidObjectID
  | some pathIDs => firstRecursive pathIDs

def autoscanUpdateLM (adir : AutoscanDirectory) : Storage Unit :=
  exec? fun db => db.updateAutoscans?
    (fun a => if a.id = adir.storageID then { a with lastModified := adir.previousLMT } else a)
    fun a => by split <;> rfl

end MediaTomb
