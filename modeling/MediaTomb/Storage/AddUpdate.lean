/-
  `addObject` and `updateObject`.

  Both go through `_addUpdateObject`, which resolves the reference of a virtual object, makes the
  directory a file lies in, and lists the columns to write.  A column that is not listed keeps its
  value in an UPDATE and gets its default in an INSERT.
-/
import MediaTomb.Storage.Container

namespace MediaTomb

open Lib.Prog

/-! ## Columns and their text -/

/-- The columns a statement writes: `none` where it does not mention one. -/
structure ObjectColumns where
  objectType : Option UInt32 := none
  refID : Option (Option Int) := none
  upnpClass : Option (Option Str) := none
  dcTitle : Option Str := none
  metadata : Option (Option Str) := none
  auxdata : Option (Option Str) := none
  resources : Option (Option Str) := none
  flags : Option UInt32 := none
  location : Option (Option Str) := none
  locationHash : Option (Option UInt32) := none
  trackNumber : Option (Option Int) := none
  serviceID : Option (Option Str) := none
  mimeType : Option Str := none
  parentID : Option Int := none

def apostrophe : UInt8 := 39

/-- `Sqlite3Storage::quote`: apostrophes are doubled. -/
def quote (s : Str) : Str :=
  apostrophe :: (s.flatMap fun c => if c == apostrophe then [c, c] else [c]) ++ [apostrophe]

def sqlNull : Str := str "NULL"

/-- A value that may be NULL. -/
def quoteOrNull {α : Type} (q : α → Str) : Option α → Str
  | none => sqlNull
  | some a => q a

def quoteUInt (n : UInt32) : Str := fromInt n.toNat

/-- `TQ`. -/
def tableQuote (name : Str) : Str := '"'.toUInt8 :: name ++ ['"'.toUInt8]

namespace ObjectColumns

/-- Name and text of each column that is mentioned. -/
def elements (c : ObjectColumns) : List (Str × Str) :=
  [ (str "object_type", c.objectType.map quoteUInt),
    (str "ref_id", c.refID.map (quoteOrNull fromInt)),
    (str "upnp_class", c.upnpClass.map (quoteOrNull quote)),
    (str "dc_title", c.dcTitle.map quote),
    (str "metadata", c.metadata.map (quoteOrNull quote)),
    (str "auxdata", c.auxdata.map (quoteOrNull quote)),
    (str "resources", c.resources.map (quoteOrNull quote)),
    (str "flags", c.flags.map quoteUInt),
    (str "location", c.location.map (quoteOrNull quote)),
    (str "location_hash", c.locationHash.map (quoteOrNull quoteUInt)),
    (str "track_number", c.trackNumber.map (quoteOrNull fromInt)),
    (str "service_id", c.serviceID.map (quoteOrNull quote)),
    (str "mime_type", c.mimeType.map quote),
    (str "parent_id", c.parentID.map fromInt) ].filterMap fun (name, value) =>
      value.map fun v => (name, v)

/-- What the statement makes of a row. -/
def apply (c : ObjectColumns) (r : ObjectRow) : ObjectRow :=
  { r with
    objectType := c.objectType.getD r.objectType
    refID := c.refID.getD r.refID
    upnpClass := c.upnpClass.getD r.upnpClass
    dcTitle := c.dcTitle <|> r.dcTitle
    metadata := c.metadata.getD r.metadata
    auxdata := c.auxdata.getD r.auxdata
    resources := c.resources.getD r.resources
    flags := c.flags.getD r.flags
    location := c.location.getD r.location
    locationHash := c.locationHash.getD r.locationHash
    trackNumber := c.trackNumber.getD r.trackNumber
    serviceID := c.serviceID.getD r.serviceID
    mimeType := c.mimeType <|> r.mimeType
    parentID := c.parentID.getD r.parentID }

@[simp] theorem apply_id (c : ObjectColumns) (r : ObjectRow) : (c.apply r).id = r.id := rfl

/-- The row an INSERT with these columns writes. -/
def insertRow (c : ObjectColumns) (id : {id : Int // cdsIdFsRoot < id}) : ObjectRow :=
  c.apply
    { id := id
      id_ge := blackhole_le_new id
      objectType := 0 }

@[simp] theorem insertRow_id (c : ObjectColumns) (id : {id : Int // cdsIdFsRoot < id}) :
    (c.insertRow id).id = id := rfl

/-- `UPDATE mt_cds_object SET … WHERE id = …`. -/
def update (c : ObjectColumns) (id : Int) (db : Database) : Database :=
  db.updateObjects (fun r => if r.id = id then c.apply r else r) fun r => by
    split <;> rfl

end ObjectColumns

/-- The text of an INSERT. -/
def insertText (table : Str) (elements : List (Str × Str)) : Str :=
  str "INSERT INTO " ++ tableQuote table ++ str " (" ++
    [','.toUInt8].intercalate (elements.map fun el => tableQuote el.1) ++ str ") VALUES (" ++
    [','.toUInt8].intercalate (elements.map Prod.snd) ++ str ")"

/-! ## References -/

/-- What `_addUpdateObject` found out about the object's reference. -/
inductive ObjectReference where
  | none
  | playlist (refObj : CdsObject)
  | reference (refObj : CdsObject)

namespace ObjectReference

/-- The referenced object where `hasReference` is set. -/
def hasReference : ObjectReference → Option CdsObject
  | reference refObj => some refObj
  | _ => Option.none

def refObj : ObjectReference → Option CdsObject
  | none => Option.none
  | playlist refObj => some refObj
  | reference refObj => some refObj

end ObjectReference

/-- The first part of `_addUpdateObject`. -/
def resolveReference (obj : CdsObject) : Storage ObjectReference :=
  if obj.getFlag objectFlagPlaylistRef then
    if isCdsPureItem obj.objectType then
      throw (.exception (str "tried to add pure item with PLAYLIST_REF flag set"))
    else if obj.refID ≤ 0 then
      throw (.exception (str "PLAYLIST_REF flag set but refId is <=0"))
    else do
      let refObj ← loadObject obj.refID
      pure (.playlist refObj)
  else if obj.virt && isCdsPureItem obj.objectType then do
    match ← checkRefID obj with
    | some refObj => pure (.reference refObj)
    | none => throw (.exception (str ("tried to add or update a virtual object with illegal " ++
        "reference id and an illegal location")))
  else if 0 < obj.refID then
    if obj.getFlag objectFlagOnlineService then do
      let refObj ← loadObject obj.refID
      pure (.reference refObj)
    else if isCdsContainer obj.objectType then pure .none
    else throw (.exception (str "refId set, but it makes no sense"))
  else pure .none

/-! ## The columns of an object -/

/-- A column that is written as NULL in an UPDATE and left out of an INSERT. -/
def nullOnUpdate {α : Type} (isUpdate : Bool) : Option (Option α) :=
  if isUpdate then some none else none

/-- The `metadata` or `auxdata` column: the dictionary, unless it is empty or equal to that of the
    referenced object. -/
def dictionaryColumn (isUpdate : Bool) (dict : Dictionary) (refDict : Option Dictionary) :
    Option (Option Str) :=
  if dict.size = 0 then nullOnUpdate isUpdate
  else match refDict with
    | some d => if d.equals dict then nullOnUpdate isUpdate else some (some dict.encode)
    | none => some (some dict.encode)

/-- The resources as text; NULL when there are none. -/
def encodeResources (resources : List CdsResource) : Option Str :=
  let resStr := [resourceSep].intercalate (resources.map CdsResource.encode)
  if resStr = [] then none else some resStr

/-- The `resources` column: left to the referenced object where the object asks for that or has
    the same resources. -/
def resourcesColumn (isUpdate : Bool) (obj : CdsObject) (hasReference : Option CdsObject) :
    Option (Option Str) :=
  match hasReference with
  | none => some (encodeResources obj.resources)
  | some refObj =>
    if !obj.getFlag objectFlagUseResourceRef && !refObj.resourcesEqual obj then
      some (encodeResources obj.resources)
    else nullOnUpdate isUpdate

/-- The columns all objects have, in `_addUpdateObject`'s order. -/
def commonColumns (isUpdate : Bool) (obj : CdsObject) (ref : ObjectReference) : ObjectColumns where
  objectType := some obj.objectType
  refID := match ref.refObj with
    | some refObj => some (some refObj.id)
    | none => nullOnUpdate isUpdate
  upnpClass := match ref.hasReference with
    | some refObj =>
      if refObj.upnpClass = obj.upnpClass then nullOnUpdate isUpdate
      else some (some (obj.upnpClass.getD []))
    | none => some (some (obj.upnpClass.getD []))
  dcTitle := some (obj.title.getD [])
  metadata := dictionaryColumn isUpdate obj.metadata (ref.hasReference.map CdsObject.metadata)
  auxdata := dictionaryColumn isUpdate obj.auxdata (ref.hasReference.map CdsObject.auxdata)
  resources := resourcesColumn isUpdate obj ref.hasReference
  flags := some (obj.clearFlag objectFlagUseResourceRef).objectFlags

/-- The columns an item adds, its location apart. -/
def itemColumns (isUpdate : Bool) (item : CdsItemData) (hasReference : Option CdsObject)
    (cols : ObjectColumns) : ObjectColumns :=
  { cols with
    trackNumber := if 0 < item.trackNumber then some (some item.trackNumber)
      else nullOnUpdate isUpdate
    serviceID :=
      if stringOk item.serviceID then
        match hasReference with
        | some refObj =>
          if refObj.kind.itemData?.bind CdsItemData.serviceID = item.serviceID then some none
          else some item.serviceID
        | none => some item.serviceID
      else nullOnUpdate isUpdate
    mimeType := some (item.mimeType.getD []) }

/-- What `_addUpdateObject` leaves: the columns (`none` for a duplicate that is ignored), the
    object as it changed it, and the container that got a new directory. -/
structure AddUpdate where
  data : Option ObjectColumns
  obj : CdsObject
  changedContainer : Option Int

/-- The location of an item, and its directory where it is a file. -/
def placeItem (isUpdate : Bool) (obj : CdsObject) (hasReference : Option CdsObject)
    (cols : ObjectColumns) : Storage (ObjectColumns × CdsObject × Option Int) :=
  match hasReference with
  | some _ =>
    pure ({ cols with
      location := nullOnUpdate isUpdate, locationHash := nullOnUpdate isUpdate }, obj, none)
  | none =>
    match obj.location with
    | none | some [] =>
      throw (.exception (str "tried to create or update a non-referenced item without a location set"))
    | some loc =>
      if isCdsPureItem obj.objectType then do
        let (path, _) ← ofExcept (splitPathOrThrow loc)
        let (parentID, changedContainer) ← ensurePathExistence path
        let dbLocation := addLocationPrefix locFilePrefix (some loc)
        pure ({ cols with
          location := some (some dbLocation), locationHash := some (some (stringHash dbLocation)) },
          { obj with parentID := parentID }, some changedContainer)
      else
        pure ({ cols with location := some (some loc), locationHash := some none }, obj, none)

/-- The columns that depend on where the object is. -/
def placeObject (isUpdate : Bool) (obj : CdsObject) (hasReference : Option CdsObject)
    (cols : ObjectColumns) : Storage (ObjectColumns × CdsObject × Option Int) :=
  match obj.kind.itemData? with
  | none =>
    if !(isUpdate && obj.virt) then
      throw (.exception (str ("tried to add a container or tried to update a non-virtual " ++
        "container via _addUpdateObject; is this correct?")))
    else
      let dbLocation := addLocationPrefix locVirtPrefix obj.location
      pure ({ cols with
        location := some (some dbLocation), locationHash := some (some (stringHash dbLocation)) },
        obj, none)
  | some item => do
    let (cols, obj, changedContainer) ← placeItem isUpdate obj hasReference cols
    pure (itemColumns isUpdate item hasReference cols, obj, changedContainer)

/-- The row test of the check for a duplicate virtual object. -/
def isDuplicate (obj refObj : CdsObject) (r : ObjectRow) : Bool :=
  r.parentID = obj.parentID && r.refID = some refObj.id && r.dcTitle = some (obj.title.getD [])

/-- The rows a new virtual object would be a duplicate of. -/
def selectDuplicates (isUpdate : Bool) (obj : CdsObject) (hasReference : Option CdsObject) :
    Storage (List ObjectRow) :=
  match hasReference, isUpdate with
  | some refObj, false => select fun db => db.selectObjects (isDuplicate obj refObj)
  | _, _ => pure []

/-- `_addUpdateObject`. -/
def addUpdateObject_ (obj : CdsObject) (isUpdate : Bool) : Storage AddUpdate := do
  let ref ← resolveReference obj
  let (cols, obj, changedContainer) ← placeObject isUpdate (obj.clearFlag objectFlagUseResourceRef)
    ref.hasReference (commonColumns isUpdate obj ref)
  let duplicates ← selectDuplicates isUpdate obj ref.hasReference
  if duplicates ≠ [] then pure ⟨none, obj, changedContainer⟩
  else if obj.parentID = invalidObjectID then
    throw (.exception (str "tried to create or update an object with an illegal parent id"))
  else pure ⟨some { cols with parentID := some obj.parentID }, obj, changedContainer⟩

/-- The `mt_cds_active_item` values of an active item: its action and its state. -/
def activeItemValues : CdsKind → Option (Str × Str)
  | .activeItem _ action state => some (action.getD [], state.getD [])
  | _ => none

/-! ## `addObject` -/

def cdsObjectTable : Str := str "mt_cds_object"

def cdsActiveItemTable : Str := str "mt_cds_active_item"

def insertObjectStatement (cols : ObjectColumns) (id : {id : Int // cdsIdFsRoot < id}) :
    Statement :=
  .insertObject
    (insertText cdsObjectTable (cols.elements ++ [(str "id", fromInt id)])) (cols.insertRow id)

def insertActiveItemStatement (id : Int) (action state : Str) : Statement :=
  .insertActiveItem
    (insertText cdsActiveItemTable
      [(str "id", fromInt id), (str "action", quote action), (str "state", quote state)])
    { id := id, action := action, state := state }

/-- `if (! doInsertBuffering()) exec(qb); else addToInsertBuffer(qb);` -/
def insertOrBuffer (q : Statement) : Storage Unit := do
  if ← read StorageState.insertBufferOn then addToInsertBuffer q
  else match q with
    | .insertObject _ row => execInsertObject row
    | .insertActiveItem _ row => exec? fun db => db.insertActiveItem? row

/-- The cache section at the end of `addObject`. -/
def addToCacheAsChild (obj : CdsObject) : Storage Unit := do
  addChild obj.parentID
  flushIfFlushed
  addObjectToCacheLocked obj

/-- The INSERTs of `addObject`, for the columns `_addUpdateObject` listed, and what they tell the
    cache. -/
def insertNewObject (cols : ObjectColumns) (obj : CdsObject) : Storage CdsObject := do
  let lastInsertID ← getNextID
  let obj := { obj with id := lastInsertID }
  insertOrBuffer (insertObjectStatement cols lastInsertID)
  match activeItemValues obj.kind with
  | some (action, state) => insertOrBuffer (insertActiveItemStatement lastInsertID action state)
  | none => pure ()
  if ← cacheOn then
    locked (addToCacheAsChild obj)
  pure obj

/-- `addObject`: the object with its new id, or with none where it was dropped as a duplicate; and
    the container that got a new directory. -/
def addObject (obj : CdsObject) : Storage (CdsObject × Option Int) :=
  if obj.id ≠ invalidObjectID then
    throw (.exception (str "tried to add an object with an object ID set"))
  else do
    let r ← addUpdateObject_ obj false
    match r.data with
    | none => pure (r.obj, r.changedContainer)
    | some cols => do
      let obj ← insertNewObject cols r.obj
      pure (obj, r.changedContainer)

/-! ## `updateObject` -/

/-- The columns an update of the PC directory writes. -/
def fsRootColumns (obj : CdsObject) : ObjectColumns where
  dcTitle := some (obj.title.getD [])
  upnpClass := some (some (obj.upnpClass.getD []))

/-- The UPDATEs of `updateObject`, for the columns `_addUpdateObject` listed, and what they tell
    the cache. -/
def writeObject (cols : ObjectColumns) (obj : CdsObject) : Storage Unit := do
  exec (cols.update obj.id)
  match activeItemValues obj.kind with
  | some (action, state) =>
    exec fun db => db.updateActiveItem { id := obj.id, action := action, state := state }
  | none => pure ()
  addObjectToCache obj

/-- `updateObject`; the container that got a new directory. -/
def updateObject (obj : CdsObject) : Storage (Option Int) := do
  flushInsertBuffer
  if obj.id = cdsIdFsRoot then do
    setFsRootName obj.title
    exec ((fsRootColumns obj).update obj.id)
    addObjectToCache obj
    pure none
  else if isForbiddenCdsID obj.id then
    throw (.exception
      (str "tried to update an object with a forbidden ID (" ++ fromInt obj.id ++ str ")!"))
  else do
    let r ← addUpdateObject_ obj true
    match r.data with
    | none => pure r.changedContainer
    | some cols => do
      writeObject cols r.obj
      pure r.changedContainer

end MediaTomb
