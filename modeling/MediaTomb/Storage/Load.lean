/-
  Reading objects: `createObjectFromRow`, `loadObject`, `findObjectByPath` and their kin.

  `createObjectFromRow` puts what it reads into the cache; `loadObject` and `findObjectByPath` look
  into the cache first and do NOT flush the insert buffer before they fall back to a query.
-/
import MediaTomb.Storage.State

namespace MediaTomb

open Lib.Prog

/-! ## From a row to an object -/

def resourceSep : UInt8 := '|'.toUInt8

/-- `CdsResource::decode` on each part of the `resources` column. -/
def decodeResources : List Str → Except Exception (List CdsResource)
  | [] => .ok []
  | part :: parts => do
    let r ← CdsResource.decode part
    let rs ← decodeResources parts
    .ok (r :: rs)

namespace Database.JoinedRow

/-- A column of the row itself, or of the row it refers to where that is NULL. -/
def fallback (row : JoinedRow) (col : ObjectRow → Option Str) : Option Str :=
  fallbackString (col row.f) (row.rf.bind col)

/-- The members a container reads from its row. -/
def containerFields (row : JoinedRow) (obj : CdsObject) : CdsObject :=
  let (locationPrefix, location) := stripLocationPrefix row.f.location
  { obj with
    location := location
    virt := obj.virt || locationPrefix == locVirtPrefix
    kind := match obj.kind with
      | .container _ childCount _ =>
        .container row.f.updateID childCount (match row.asPersistent with
          | some true => objectAutoscanCfg
          | some false => objectAutoscanUI
          | none => objectAutoscanNone)
      | k => k }

/-- The location of an item: a virtual pure item has none of its own. -/
def itemLocation (row : JoinedRow) (virt : Bool) : Option Str :=
  if isCdsPureItem row.f.objectType then
    if !virt then (stripLocationPrefix row.f.location).2
    else (stripLocationPrefix (row.rf.bind ObjectRow.location)).2
  else row.fallback ObjectRow.location

/-- The members an item reads from its row. -/
def itemFields (row : JoinedRow) (obj : CdsObject) : CdsObject :=
  { obj with
    location := row.itemLocation obj.virt
    kind := obj.kind.mapItem fun _ =>
      { mimeType := row.fallback ObjectRow.mimeType
        trackNumber := row.f.trackNumber.getD 0
        serviceID :=
          let refServiceID := row.rf.bind ObjectRow.serviceID
          if stringOk refServiceID then refServiceID else row.f.serviceID } }

/-- The members every object reads from its row. -/
def commonFields (row : JoinedRow) (resources : List CdsResource) (obj : CdsObject) :
    CdsObject :=
  let type := row.f.objectType
  let refID := row.f.refID.getD 0
  { obj with
    id := row.f.id
    refID := refID
    parentID := row.f.parentID
    title := row.f.dcTitle
    upnpClass := row.fallback ObjectRow.upnpClass
    objectFlags := row.f.flags
    metadata := Dictionary.decode .empty (row.fallback ObjectRow.metadata)
    auxdata := Dictionary.decode .empty (row.fallback ObjectRow.auxdata)
    resources := obj.resources ++ resources
    virt := (refID ≠ 0 && isCdsPureItem type) || (isCdsItem type && !isCdsPureItem type) }

/-- `createObjectFromRow` without its query for active items. -/
def toObject (row : JoinedRow) : Except Exception CdsObject := do
  let type := row.f.objectType
  let obj ← CdsObject.createObject type
  let resources ← decodeResources (splitString (row.fallback ObjectRow.resources) resourceSep false)
  let obj := row.commonFields resources obj
  let obj := if isCdsContainer type then row.containerFields obj else obj
  if isCdsItem type then
    if resources.isEmpty then
      .error (.exception (str "tried to create object without at least one resource"))
    else .ok (row.itemFields obj)
  else if isCdsContainer type || isCdsActiveItem type then .ok obj
  else .error (.storage (str "unknown object type: " ++ fromInt type.toNat))

end Database.JoinedRow

/-- The action and the state of an active item, read from their own table. -/
def loadActiveItem (obj : CdsObject) : Storage CdsObject := do
  match ← select fun db => db.activeItems.find? obj.id with
  | some row =>
    pure { obj with
      kind := match obj.kind with
        | .activeItem data _ _ => .activeItem data (some row.action) (some row.state)
        | k => k }
  | none => throw (.exception (str "Active Item in cds_objects, but not in cds_active_item"))

def createObjectFromRow (row : Database.JoinedRow) : Storage CdsObject := do
  let obj ← ofExcept row.toObject
  let obj ← if isCdsActiveItem row.f.objectType then loadActiveItem obj else pure obj
  addObjectToCache obj
  pure obj

/-- `createObjectFromRow` on each row of a result. -/
def createObjectsFromRows : List Database.JoinedRow → Storage (List CdsObject)
  | [] => pure []
  | row :: rows => do
    let obj ← createObjectFromRow row
    let objs ← createObjectsFromRows rows
    pure (obj :: objs)

/-! ## `loadObject` -/

def objectNotFound (objectID : Int) : Exception :=
  .objectNotFound (str "Object not found: " ++ fromInt objectID)

/-- The object the cache knows under an id. -/
def cachedObject (s : StorageState) (objectID : Int) : Option CdsObject :=
  s.cache.bind fun c => (c.getObject objectID).bind CacheObject.obj

def loadObject (objectID : Int) : Storage CdsObject := do
  match ← read fun s => cachedObject s objectID with
  | some obj => pure obj
  | none =>
    match ← select fun db => db.sqlQuery fun f => f.id = objectID with
    | row :: _ => createObjectFromRow row
    | [] => throw (objectNotFound objectID)

def loadObjectByServiceID (serviceID : Str) : Storage (Option CdsObject) := do
  flushInsertBuffer
  match ← select fun db => db.sqlQuery fun f => f.serviceID = some serviceID with
  | row :: _ => do
    let obj ← createObjectFromRow row
    pure (some obj)
  | [] => pure none

/-! ## `findObjectByPath` -/

/-- What `split_path` throws. -/
def splitPathException (s : Str) : SplitPathError → Exception
  | .invalid => .exception (str "invalid path given to split_path")
  | .relative => .exception (str "relative path given to split_path: " ++ s)

def splitPathOrThrow (s : Str) : Except Exception (Str × Str) :=
  match splitPath s with
  | .ok r => .ok r
  | .error e => .error (splitPathException s e)

/-- The location a path is stored under: a path with a file name denotes a file. -/
def pathLocation (fullpath : Str) : Except Exception Str := do
  let fullpath := reduce dirSeparator fullpath
  let (path, filename) ← splitPathOrThrow fullpath
  if filename ≠ [] then .ok (addLocationPrefix locFilePrefix (some fullpath))
  else .ok (addLocationPrefix locDirPrefix (some path))

/-- The first object filed under a location that the cache knows as not virtual. -/
def cachedObjectAt (s : StorageState) (dbLocation : Str) : Option CdsObject :=
  s.cache.bind fun c => (c.getObjects dbLocation).bind fun ids =>
    ids.findSome? fun id => (c.getObject id).bind fun cObj =>
      if cObj.virt = some false then cObj.obj else none

/-- The row test of `_findObjectByPath`. -/
def matchesLocation (dbLocation : Str) (f : ObjectRow) : Bool :=
  f.locationHash = some (stringHash dbLocation) && f.location = some dbLocation &&
    f.refID = none

def findObjectByPath (fullpath : Str) : Storage (Option CdsObject) := do
  let dbLocation ← ofExcept (pathLocation fullpath)
  match ← read fun s => cachedObjectAt s dbLocation with
  | some obj => pure (some obj)
  | none =>
    match ← select fun db => db.sqlQuery (matchesLocation dbLocation) with
    | row :: _ => do
      let obj ← createObjectFromRow row
      pure (some obj)
    | [] => pure none

def findObjectIDByPath (fullpath : Str) : Storage Int := do
  match ← findObjectByPath fullpath with
  | none => pure invalidObjectID
  | some obj => pure obj.id

/-! ## `checkRefID` -/

/-- The object a virtual item refers to: the one `refID` names when the location agrees, else the
    one stored at the location. -/
def checkRefID (obj : CdsObject) : Storage (Option CdsObject) :=
  if !obj.virt then throw (.exception (str "checkRefID called for a non-virtual object"))
  else match obj.location with
    | none | some [] => throw (.exception (str "tried to check refID without a location set"))
    | some location =>
      if 0 < obj.refID then do
        let refObj ← (loadObject obj.refID).tryCatch fun _ =>
          throw (.exception (str "illegal refID was set"))
        if refObj.location = some location then pure (some refObj)
        else findObjectByPath location
      else findObjectByPath location

/-! ## The root of the file system -/

/-- `setFsRootName`. -/
def setFsRootName (rootName : Option Str) : Storage Unit :=
  if stringOk rootName then modify fun s => { s with fsRootName := rootName }
  else do
    let fsRootObj ← loadObject cdsIdFsRoot
    modify fun s => { s with fsRootName := fsRootObj.title }

def getFsRootName : Storage (Option Str) := do
  let name ← read StorageState.fsRootName
  if stringOk name then pure name
  else do
    setFsRootName none
    read StorageState.fsRootName

end MediaTomb
