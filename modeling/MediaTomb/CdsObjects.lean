/-
  `CdsObject` and its subclasses (`cds_objects.h`, `cds_objects.cc`).

  A class of the source is a constructor of `CdsKind`, which carries the members that class adds;
  `objectType` is the bit set its constructor leaves in the member of that name.  So an object with
  a type its class does not have cannot be built.  Tables keep the bit set itself, because the
  queries test its bits.
-/
import MediaTomb.Dictionary

namespace MediaTomb

/-! ## Object types and flags -/

def objectTypeContainer : UInt32 := 0x01
def objectTypeItem : UInt32 := 0x02
def objectTypeActiveItem : UInt32 := 0x04
def objectTypeItemExternalURL : UInt32 := 0x08
def objectTypeItemInternalURL : UInt32 := 0x10

/-- `IS_CDS_CONTAINER`. -/
def isCdsContainer (type : UInt32) : Bool := type &&& objectTypeContainer != 0

/-- `IS_CDS_ITEM`. -/
def isCdsItem (type : UInt32) : Bool := type &&& objectTypeItem != 0

/-- `IS_CDS_ACTIVE_ITEM`. -/
def isCdsActiveItem (type : UInt32) : Bool := type &&& objectTypeActiveItem != 0

/-- `IS_CDS_ITEM_EXTERNAL_URL`. -/
def isCdsItemExternalURL (type : UInt32) : Bool := type &&& objectTypeItemExternalURL != 0

/-- `IS_CDS_ITEM_INTERNAL_URL`. -/
def isCdsItemInternalURL (type : UInt32) : Bool := type &&& objectTypeItemInternalURL != 0

/-- `IS_CDS_PURE_ITEM`. -/
def isCdsPureItem (type : UInt32) : Bool := type == objectTypeItem

def objectFlagRestricted : UInt32 := 0x01
def objectFlagUseResourceRef : UInt32 := 0x04
def objectFlagPersistentContainer : UInt32 := 0x08
def objectFlagPlaylistRef : UInt32 := 0x10
def objectFlagOnlineService : UInt32 := 0x40

def objectAutoscanNone : Int := 0
def objectAutoscanUI : Int := 1
def objectAutoscanCfg : Int := 2

/-! ## The classes -/

/-- What `CdsItem` adds to `CdsObject`. -/
structure CdsItemData where
  mimeType : Option Str := some (str "application/octet-stream")
  trackNumber : Int := 0
  serviceID : Option Str := none

/-- The concrete class of an object. -/
inductive CdsKind where
  | container (updateID childCount autoscanType : Int)
  | item (data : CdsItemData)
  | activeItem (data : CdsItemData) (action state : Option Str)
  | itemExternalURL (data : CdsItemData)
  | itemInternalURL (data : CdsItemData)

namespace CdsKind

def objectType : CdsKind → UInt32
  | container .. => objectTypeContainer
  | item _ => objectTypeItem
  | activeItem .. => objectTypeItem ||| objectTypeActiveItem
  | itemExternalURL _ => objectTypeItem ||| objectTypeItemExternalURL
  | itemInternalURL _ =>
    objectTypeItem ||| objectTypeItemExternalURL ||| objectTypeItemInternalURL

/-- The members of `CdsItem`, in the classes that have them. -/
def itemData? : CdsKind → Option CdsItemData
  | container .. => none
  | item d => some d
  | activeItem d _ _ => some d
  | itemExternalURL d => some d
  | itemInternalURL d => some d

/-- Rewrite the members of `CdsItem`. -/
def mapItem (f : CdsItemData → CdsItemData) : CdsKind → CdsKind
  | container u c a => container u c a
  | item d => item (f d)
  | activeItem d a s => activeItem (f d) a s
  | itemExternalURL d => itemExternalURL (f d)
  | itemInternalURL d => itemInternalURL (f d)

@[simp] theorem objectType_mapItem (f : CdsItemData → CdsItemData) (k : CdsKind) :
    (k.mapItem f).objectType = k.objectType := by
  cases k <;> rfl

end CdsKind

structure CdsObject where
  id : Int := invalidObjectID
  refID : Int := invalidObjectID
  parentID : Int := invalidObjectID
  title : Option Str := none
  upnpClass : Option Str
  location : Option Str := none
  virt : Bool := false
  sortPriority : Int := 0
  objectFlags : UInt32 := objectFlagRestricted
  metadata : Dictionary := .empty
  auxdata : Dictionary := .empty
  resources : List CdsResource := []
  kind : CdsKind

namespace CdsObject

def objectType (obj : CdsObject) : UInt32 := obj.kind.objectType

/-- `getFlag`, read as a condition. -/
def getFlag (obj : CdsObject) (mask : UInt32) : Bool := obj.objectFlags &&& mask != 0

def clearFlag (obj : CdsObject) (mask : UInt32) : CdsObject :=
  { obj with objectFlags := obj.objectFlags &&& ~~~mask }

def resourcesEqual (obj other : CdsObject) : Bool :=
  obj.resources.length = other.resources.length &&
    (obj.resources.zip other.resources).all fun (r, o) => r.equals o

def upnpDefaultClassContainer : Str := str "object.container"

/-- `createObject`: a fresh object of the class the type's bits name, tested in this order. -/
def createObject (type : UInt32) : Except Exception CdsObject :=
  if isCdsContainer type then
    .ok { upnpClass := some upnpDefaultClassContainer
          kind := .container 0 (-1) objectAutoscanNone }
  else if isCdsItemInternalURL type then
    .ok { upnpClass := some (str "object.item"), kind := .itemInternalURL {} }
  else if isCdsItemExternalURL type then
    .ok { upnpClass := some (str "object.item"), kind := .itemExternalURL {} }
  else if isCdsActiveItem type then
    .ok { upnpClass := some (str "object.item.activeItem"), kind := .activeItem {} none none }
  else if isCdsItem type then
    .ok { upnpClass := some (str "object.item"), kind := .item {} }
  else
    .error (.exception (str "invalid object type: " ++ fromInt type.toNat))

/-- The result of `copyTo` on a fresh object of the same class: what a container counts and which
    autoscan it carries is not copied. -/
def copy (obj : CdsObject) : CdsObject :=
  { obj with
    kind := match obj.kind with
      | .container updateID _ _ => .container updateID (-1) objectAutoscanNone
      | k => k }

@[simp] theorem copy_id (obj : CdsObject) : obj.copy.id = obj.id := rfl
@[simp] theorem copy_refID (obj : CdsObject) : obj.copy.refID = obj.refID := rfl
@[simp] theorem copy_parentID (obj : CdsObject) : obj.copy.parentID = obj.parentID := rfl
@[simp] theorem copy_location (obj : CdsObject) : obj.copy.location = obj.location := rfl
@[simp] theorem copy_virt (obj : CdsObject) : obj.copy.virt = obj.virt := rfl

@[simp] theorem copy_objectType (obj : CdsObject) : obj.copy.objectType = obj.objectType := by
  unfold copy objectType
  cases obj.kind <;> rfl

end CdsObject

end MediaTomb
