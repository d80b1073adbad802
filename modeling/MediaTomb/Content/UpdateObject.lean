/-
  `ContentManager::updateObject` (`content_manager.cc`): the edit page of the web UI.

  The object is loaded; each BRANCH makes a clone, puts the parameters into it, and stores it if it
  differs from the loaded object.  There are three:
    * the branch of items;
    * the branch of active items, which an active item enters AFTER that of items;
    * the branch of containers.

  Every branch starts from the loaded object.  So of two that store, the second is what remains:
  what only the first put in is gone.
-/
import MediaTomb.Storage.BufferedObjects

namespace MediaTomb

open Lib.Prog

/-! ## `cds_objects.cc` -/

namespace CdsObject

/-- `equals(obj, true)`; the classes are the same, since one is a clone of the other. -/
def equalsExactly (obj other : CdsObject) : Bool :=
  obj.id = other.id && obj.parentID = other.parentID &&
    obj.getFlag objectFlagRestricted = other.getFlag objectFlagRestricted &&
    obj.title = other.title && obj.upnpClass = other.upnpClass &&
    obj.sortPriority = other.sortPriority && obj.resourcesEqual other &&
    obj.metadata.equals other.metadata &&
    (obj.location = other.location && obj.virt = other.virt && obj.auxdata.equals other.auxdata &&
      obj.objectFlags = other.objectFlags) &&
    kindEquals obj.kind other.kind
where
  /-- What the subclasses add. -/
  kindEquals : CdsKind → CdsKind → Bool
    | .container .., .container .. => true
    | .activeItem item action state, .activeItem item' action' state' =>
      itemEquals item item' && action = action' && state = state'
    | .item item, .item item' => itemEquals item item'
    | .itemExternalURL item, .itemExternalURL item' => itemEquals item item'
    | .itemInternalURL item, .itemInternalURL item' => itemEquals item item'
    | _, _ => false
  itemEquals (item item' : CdsItemData) : Bool :=
    item.mimeType = item'.mimeType && item.trackNumber = item'.trackNumber &&
      item.serviceID = item'.serviceID

def invalid (message : String) : Except Exception Unit := .error (.exception (str message))

/-- `CdsObject::validate`. -/
def validateObject (obj : CdsObject) : Except Exception Unit :=
  if !stringOk obj.title then invalid "Object validation failed: missing title!\n"
  else if !stringOk obj.upnpClass then invalid "Object validation failed: missing upnp class\n"
  else .ok ()

/-- `CdsItem::validate`; `checkPath` tells whether a path is a file. -/
def validateItem (checkPath : Str → Bool) (obj : CdsObject) (item : CdsItemData) :
    Except Exception Unit := do
  obj.validateObject
  if !stringOk item.mimeType then invalid "Item validation failed: missing mimetype"
  else if !stringOk obj.location then invalid "Item validation failed: missing location"
  else if !checkPath (obj.location.getD []) then
    .error (.exception
      (str "Item validation failed: file " ++ obj.location.getD [] ++ str " not found"))
  else .ok ()

/-- `CdsItemExternalURL::validate`. -/
def validateURL (obj : CdsObject) (item : CdsItemData) : Except Exception Unit := do
  obj.validateObject
  if !stringOk item.mimeType then invalid "URL Item validation failed: missing mimetype\n"
  else if !stringOk obj.location then invalid "URL Item validation failed: missing URL\n"
  else .ok ()

def validate (checkPath : Str → Bool) (obj : CdsObject) : Except Exception Unit :=
  match obj.kind with
  | .container .. => obj.validateObject
  | .item item => obj.validateItem checkPath item
  | .activeItem item action _ => do
    obj.validateItem checkPath item
    if !stringOk action then invalid "Active Item validation failed: missing action\n"
    else if !checkPath (action.getD []) then
      .error (.exception
        (str "ctive Item validation failed: action script " ++ action.getD [] ++
          str " not found\n"))
    else .ok ()
  | .itemExternalURL item => obj.validateURL item
  | .itemInternalURL item => do
    obj.validateURL item
    if (str "http://").isPrefixOf (obj.location.getD []) then
      invalid "Internal URL item validation failed: only realative URLs allowd\n"
    else .ok ()

end CdsObject

/-! ## Parameters -/

/-- `if (string_ok(value)) set…(value);` -/
def supplied (value old : Option Str) : Option Str := if stringOk value then value else old

/-- `renderProtocolInfo(mimetype, protocol)` -/
def renderProtocolInfo (mimetype protocol : Option Str) : Str :=
  if stringOk mimetype && stringOk protocol then
    protocol.getD [] ++ str ":*:" ++ mimetype.getD [] ++ str ":*"
  else str "http-get:*:*:*"

def protocolInfo : Str := str "protocolInfo"

/-- `MetadataHandler::getMetaFieldName(M_DESCRIPTION)` -/
def metaDescription : Str := str "dc:description"

namespace ContentManager

/-- An access beyond the end of an array: what it gives is not known, and not followed further. -/
def outOfBounds {α : Type} : Except Exception α := .error (.exception (str "out of bounds"))

/-- The protocol of `split_string(protocolInfo, ':')`. -/
def oldProtocol (resource : CdsResource) : Except Exception Str :=
  match splitString (resource.attributes.get protocolInfo) ':'.toUInt8 false with
  | protocol :: _ => .ok protocol
  | [] => outOfBounds

/-- `protocolInfo` for the parameters; `old` is the mime type of the loaded item. -/
def newProtocolInfo (mimetype protocol old : Option Str) (resource : CdsResource) :
    Except Exception Str :=
  if stringOk mimetype && stringOk protocol then .ok (renderProtocolInfo mimetype protocol)
  else if stringOk protocol then .ok (renderProtocolInfo old protocol)
  else (oldProtocol resource).map fun protocol => renderProtocolInfo mimetype (some protocol)

/-- The resources, with `protocolInfo` of the first one rewritten. -/
def newResources (parameters : Dictionary) (old : Option Str) (resources : List CdsResource) :
    Except Exception (List CdsResource) :=
  let mimetype := parameters.get (str "mime-type")
  let protocol := parameters.get (str "protocol")
  if stringOk mimetype || stringOk protocol then
    match resources with
    | [] => outOfBounds
    | resource :: rest =>
      (newProtocolInfo mimetype protocol old resource).map fun info =>
        { resource with attributes := resource.attributes.put protocolInfo info } :: rest
  else .ok resources

/-- The description is set, or removed. -/
def newMetadata (parameters metadata : Dictionary) : Dictionary :=
  match parameters.get (str "description") with
  | none | some [] => metadata.remove metaDescription
  | some description => metadata.put metaDescription description

/-- The clone of the branch of items. -/
def itemClone (parameters : Dictionary) (obj : CdsObject) (item : CdsItemData) :
    Except Exception CdsObject := do
  let resources ← newResources parameters item.mimeType obj.resources
  .ok { obj.copy with
    title := supplied (parameters.get (str "title")) obj.title
    upnpClass := supplied (parameters.get (str "class")) obj.upnpClass
    location := supplied (parameters.get (str "location")) obj.location
    metadata := newMetadata parameters obj.metadata
    resources := resources
    kind := obj.copy.kind.mapItem fun item =>
      { item with mimeType := supplied (parameters.get (str "mime-type")) item.mimeType } }

/-- `if (state != nil) cloned_item->setState(state);` -/
def newState (parameters : Dictionary) (state : Option Str) : Option Str :=
  match parameters.get (str "state") with
  | none => state
  | some state => some state

/-- The clone of the branch of active items. -/
def activeItemClone (parameters : Dictionary) (obj : CdsObject) (item : CdsItemData)
    (action state : Option Str) : CdsObject :=
  { obj.copy with
    title := supplied (parameters.get (str "title")) obj.title
    upnpClass := supplied (parameters.get (str "class")) obj.upnpClass
    metadata := newMetadata parameters obj.metadata
    kind := .activeItem
      { item with mimeType := supplied (parameters.get (str "mime-type")) item.mimeType }
      (supplied (parameters.get (str "action")) action) (newState parameters state) }

/-- The clone of the branch of containers. -/
def containerClone (parameters : Dictionary) (obj : CdsObject) : CdsObject :=
  { obj.copy with
    title := supplied (parameters.get (str "title")) obj.title
    upnpClass := supplied (parameters.get (str "class")) obj.upnpClass }

/-! ## `updateObject` -/

/-- What was passed on: the objects to the storage, and the ids of changed containers to the update
    manager and the UI. -/
structure Updates where
  stored : List CdsObject := []
  containersChanged : List Int := []
  containersChangedUI : List Int := []

def Updates.append (u u' : Updates) : Updates :=
  ⟨u.stored ++ u'.stored, u.containersChanged ++ u'.containersChanged,
    u.containersChangedUI ++ u'.containersChangedUI⟩

/-- The end of each branch. -/
def storeClone (checkPath : Str → Bool) (obj clone : CdsObject) (parentUI : Bool) :
    Storage Updates :=
  if obj.equalsExactly clone then pure {}
  else do
    ofExcept (clone.validate checkPath)
    let changedContainer ← MediaTomb.updateObject clone
    let containerChanged := changedContainer.getD invalidObjectID
    pure
      { stored := [clone]
        containersChanged := [containerChanged, obj.parentID]
        containersChangedUI := containerChanged :: if parentUI then [obj.parentID] else [] }

def updateObject (checkPath : Str → Bool) (objectID : Int) (parameters : Dictionary) :
    Storage Updates := do
  let obj ← loadObject objectID
  match obj.kind with
  | .container .. => storeClone checkPath obj (containerClone parameters obj) true
  | .activeItem item action state => do
    let clone ← ofExcept (itemClone parameters obj item)
    let first ← storeClone checkPath obj clone false
    let second ← storeClone checkPath obj (activeItemClone parameters obj item action state) false
    pure (first.append second)
  | .item item | .itemExternalURL item | .itemInternalURL item => do
    let clone ← ofExcept (itemClone parameters obj item)
    storeClone checkPath obj clone false

/-! ## What the parameters ask for -/

/-- The protocol that a resource has now. -/
def protocolOf (resource : CdsResource) : Option Str :=
  (splitString (resource.attributes.get protocolInfo) ':'.toUInt8 false).head?

/-- `protocolInfo` of the first resource from mime type and protocol, the supplied ones or those
    that the item has. -/
def requestedResources (parameters : Dictionary) (mimeType : Option Str) :
    List CdsResource → List CdsResource
  | [] => []
  | resource :: rest =>
    let mimetype := parameters.get (str "mime-type")
    let protocol := parameters.get (str "protocol")
    if stringOk mimetype || stringOk protocol then
      { resource with
        attributes := resource.attributes.put protocolInfo
          (renderProtocolInfo (supplied mimetype mimeType)
            (supplied protocol (protocolOf resource))) } :: rest
    else resource :: rest

def requestedKind (parameters : Dictionary) : CdsKind → CdsKind
  | .activeItem item action state =>
    .activeItem { item with mimeType := supplied (parameters.get (str "mime-type")) item.mimeType }
      (supplied (parameters.get (str "action")) action) (newState parameters state)
  | kind =>
    kind.mapItem fun item =>
      { item with mimeType := supplied (parameters.get (str "mime-type")) item.mimeType }

/-- The members that all objects have are those of `obj`, with the parameters applied. -/
structure MembersRequested (parameters : Dictionary) (obj o : CdsObject) : Prop where
  id : o.id = obj.id
  refID : o.refID = obj.refID
  parentID : o.parentID = obj.parentID
  virt : o.virt = obj.virt
  sortPriority : o.sortPriority = obj.sortPriority
  objectFlags : o.objectFlags = obj.objectFlags
  title : o.title = supplied (parameters.get (str "title")) obj.title
  upnpClass : o.upnpClass = supplied (parameters.get (str "class")) obj.upnpClass
  location : o.location =
    if obj.kind.itemData?.isSome then supplied (parameters.get (str "location")) obj.location
    else obj.location
  metadata : ∀ key, o.metadata.get key =
    if obj.kind.itemData?.isSome ∧ key = metaDescription then
      supplied (parameters.get (str "description")) none
    else obj.metadata.get key
  auxdata : ∀ key, o.auxdata.get key = obj.auxdata.get key
  resources : ∀ item, obj.kind.itemData? = some item → o.resourcesEqual
    { obj with resources := requestedResources parameters item.mimeType obj.resources } = true
  otherResources : obj.kind.itemData? = none → o.resourcesEqual obj = true

/-- `o` is the object with the parameters applied to it, and nothing else changed.  What a container
    counts and which autoscan it carries are not stored with it. -/
structure AsRequested (parameters : Dictionary) (obj o : CdsObject) : Prop
    extends MembersRequested parameters obj o where
  kind : o.copy.kind = requestedKind parameters obj.copy.kind

/-- The branch of active items has nothing to store, or is not entered. -/
def secondIdle (parameters : Dictionary) (obj : CdsObject) : Bool :=
  match obj.kind with
  | .activeItem item action state =>
    obj.equalsExactly (activeItemClone parameters obj item action state)
  | _ => true

/-- Location and `protocolInfo` are not to change. -/
def KeepsPlace (parameters : Dictionary) (obj : CdsObject) : Prop :=
  supplied (parameters.get (str "location")) obj.location = obj.location ∧
    ∀ item, obj.kind.itemData? = some item → obj.resourcesEqual
      { obj with resources := requestedResources parameters item.mimeType obj.resources } = true

/-- The branch of active items does not undo that of items: it stores nothing, or what it would
    put back is not to change. -/
def EditKept (parameters : Dictionary) (obj : CdsObject) : Prop :=
  secondIdle parameters obj = true ∨ KeepsPlace parameters obj

section

variable {parameters : Dictionary} {obj o o' clone : CdsObject} {item : CdsItemData}
  {action state : Option Str}

/-! ## Equality of objects -/

theorem resource_equals_iff {r r' : CdsResource} : r.equals r' = true ↔
    r.handlerType = r'.handlerType ∧ (∀ key, r.attributes.get key = r'.attributes.get key) ∧
      (∀ key, r.parameters.get key = r'.parameters.get key) ∧
        ∀ key, r.options.get key = r'.options.get key := by
  unfold CdsResource.equals
  rw [Bool.and_eq_true, Bool.and_eq_true, Bool.and_eq_true, decide_eq_true_eq,
    Dictionary.equals_iff, Dictionary.equals_iff, Dictionary.equals_iff, and_assoc, and_assoc]

theorem resourcesEqual_iff : o.resourcesEqual o' = true ↔
    List.Forall₂ (fun r r' => CdsResource.equals r r' = true) o.resources o'.resources := by
  unfold CdsObject.resourcesEqual
  rw [List.forall₂_iff_zip, Bool.and_eq_true, decide_eq_true_eq, List.all_eq_true]
  refine and_congr_right fun _ => ⟨fun h r r' hr => h (r, r') hr, fun h p hp => ?_⟩
  exact h hp

theorem resourcesEqual_self : o.resourcesEqual o = true :=
  resourcesEqual_iff.mpr (List.forall₂_same.mpr fun _ _ =>
    resource_equals_iff.mpr ⟨rfl, fun _ => rfl, fun _ => rfl, fun _ => rfl⟩)

theorem resource_equals_trans {r r' r'' : CdsResource} (h : r.equals r' = true)
    (h' : r'.equals r'' = true) : r.equals r'' = true := by
  rw [resource_equals_iff] at h h' ⊢
  obtain ⟨htype, hattributes, hparameters, hoptions⟩ := h
  obtain ⟨htype', hattributes', hparameters', hoptions'⟩ := h'
  exact ⟨htype.trans htype', fun key => (hattributes key).trans (hattributes' key),
    fun key => (hparameters key).trans (hparameters' key),
    fun key => (hoptions key).trans (hoptions' key)⟩

theorem resourcesEqual_trans {o'' : CdsObject} (h : o.resourcesEqual o' = true)
    (h' : o'.resourcesEqual o'' = true) : o.resourcesEqual o'' = true := by
  rw [resourcesEqual_iff] at h h' ⊢
  obtain ⟨hlen, hget⟩ := List.forall₂_iff_get.mp h
  obtain ⟨hlen', hget'⟩ := List.forall₂_iff_get.mp h'
  refine List.forall₂_iff_get.mpr ⟨hlen.trans hlen', fun i hi hi'' => ?_⟩
  exact resource_equals_trans (hget i hi (hlen ▸ hi)) (hget' i (hlen ▸ hi) hi'')

/-- What `equals(obj, true)` compares. -/
structure SameMembers (o o' : CdsObject) : Prop where
  id : o.id = o'.id
  parentID : o.parentID = o'.parentID
  title : o.title = o'.title
  upnpClass : o.upnpClass = o'.upnpClass
  sortPriority : o.sortPriority = o'.sortPriority
  resources : o.resourcesEqual o' = true
  metadata : ∀ key, o.metadata.get key = o'.metadata.get key
  location : o.location = o'.location
  virt : o.virt = o'.virt
  auxdata : ∀ key, o.auxdata.get key = o'.auxdata.get key
  objectFlags : o.objectFlags = o'.objectFlags
  kind : CdsObject.equalsExactly.kindEquals o.kind o'.kind = true

theorem equalsExactly_iff : o.equalsExactly o' = true ↔ SameMembers o o' := by
  unfold CdsObject.equalsExactly
  simp only [Bool.and_eq_true, decide_eq_true_eq, Dictionary.equals_iff]
  constructor
  · rintro ⟨⟨⟨⟨⟨⟨⟨⟨⟨hid, hparent⟩, -⟩, htitle⟩, hclass⟩, hsort⟩, hres⟩, hmeta⟩,
      ⟨⟨hloc, hvirt⟩, haux⟩, hflags⟩, hkind⟩
    exact ⟨hid, hparent, htitle, hclass, hsort, hres, hmeta, hloc, hvirt, haux, hflags, hkind⟩
  · intro h
    have hrestricted : o.getFlag objectFlagRestricted = o'.getFlag objectFlagRestricted := by
      unfold CdsObject.getFlag
      rw [h.objectFlags]
    exact ⟨⟨⟨⟨⟨⟨⟨⟨⟨h.id, h.parentID⟩, hrestricted⟩, h.title⟩, h.upnpClass⟩, h.sortPriority⟩,
      h.resources⟩, h.metadata⟩, ⟨⟨h.location, h.virt⟩, h.auxdata⟩, h.objectFlags⟩, h.kind⟩

/-- Items that are equal have the same members of their classes. -/
theorem kind_eq_of_equals {kind kind' : CdsKind} (hitem : kind.itemData? ≠ none)
    (h : CdsObject.equalsExactly.kindEquals kind kind' = true) : kind = kind' := by
  have hdata : ∀ item item' : CdsItemData,
      CdsObject.equalsExactly.itemEquals item item' = true → item = item' := by
    rintro ⟨mimeType, trackNumber, serviceID⟩ ⟨mimeType', trackNumber', serviceID'⟩ heq
    unfold CdsObject.equalsExactly.itemEquals at heq
    simp only [Bool.and_eq_true, decide_eq_true_eq] at heq
    rw [heq.1.1, heq.1.2, heq.2]
  unfold CdsObject.equalsExactly.kindEquals at h
  split at h
  · exact absurd rfl hitem
  · simp only [Bool.and_eq_true, decide_eq_true_eq] at h
    rw [hdata _ _ h.1.1, h.1.2, h.2]
  · rw [hdata _ _ h]
  · rw [hdata _ _ h]
  · rw [hdata _ _ h]
  · cases h

theorem copy_kind_of_item (h : obj.kind.itemData? ≠ none) : obj.copy.kind = obj.kind := by
  unfold CdsObject.copy
  rcases hkind : obj.kind with _ | _ | _ | _ | _
  · rw [hkind] at h
    exact absurd rfl h
  all_goals rfl

/-! ## The clones -/

/-- The new description, or none. -/
theorem get_newMetadata (parameters metadata : Dictionary) (key : Str) :
    (newMetadata parameters metadata).get key =
      if key = metaDescription then supplied (parameters.get (str "description")) none
      else metadata.get key := by
  unfold newMetadata supplied
  rcases parameters.get (str "description") with _ | _ | ⟨c, r⟩
  · exact Dictionary.get_remove
  · exact Dictionary.get_remove
  · exact Dictionary.get_put

theorem newProtocolInfo_eq {mimetype protocol old : Option Str} {resource : CdsResource} {info : Str}
    (h : newProtocolInfo mimetype protocol old resource = .ok info)
    (hsome : stringOk mimetype = true ∨ stringOk protocol = true) :
    info = renderProtocolInfo (supplied mimetype old) (supplied protocol (protocolOf resource)) := by
  unfold newProtocolInfo at h
  unfold supplied
  by_cases hprotocol : stringOk protocol = true
  · rw [if_pos hprotocol]
    by_cases hmime : stringOk mimetype = true
    · rw [if_pos (by rw [hmime, hprotocol]; rfl)] at h
      rw [if_pos hmime]
      cases h
      rfl
    · rw [if_neg (by simp [hmime]), if_pos hprotocol] at h
      rw [if_neg hmime]
      cases h
      rfl
  · have hmime : stringOk mimetype = true := hsome.resolve_right hprotocol
    rw [if_neg (by simp [hprotocol]), if_neg hprotocol] at h
    rw [if_neg hprotocol, if_pos hmime]
    unfold oldProtocol at h
    unfold protocolOf
    rcases hsplit : splitString (resource.attributes.get protocolInfo) ':'.toUInt8 false with _ | ⟨q, _⟩
    · rw [hsplit] at h
      cases h
    · rw [hsplit] at h
      cases h
      rfl

theorem newResources_eq {mimeType : Option Str} {resources resources' : List CdsResource}
    (h : newResources parameters mimeType resources = .ok resources') :
    resources' = requestedResources parameters mimeType resources := by
  unfold newResources at h
  unfold requestedResources
  simp only at h ⊢
  split at h
  · next hsome =>
    rcases resources with _ | ⟨resource, rest⟩
    · cases h
    · simp only at h ⊢
      rcases hinfo : newProtocolInfo (parameters.get (str "mime-type"))
        (parameters.get (str "protocol")) mimeType resource with e | info
      · rw [hinfo] at h
        cases h
      · rw [hinfo] at h
        cases h
        rw [if_pos hsome, newProtocolInfo_eq hinfo (by simpa using hsome)]
  · next hnone =>
    cases h
    rcases resources with _ | ⟨resource, rest⟩
    · rfl
    · exact (if_neg hnone).symm

theorem itemClone_members (h : itemClone parameters obj item = .ok clone)
    (hitem : obj.kind.itemData? = some item) :
    MembersRequested parameters obj clone ∧ clone.kind = obj.kind.mapItem fun item =>
      { item with mimeType := supplied (parameters.get (str "mime-type")) item.mimeType } := by
  have hsome : obj.kind.itemData?.isSome = true := by rw [hitem]; rfl
  have hkind : obj.copy.kind = obj.kind := copy_kind_of_item (by rw [hitem]; exact nofun)
  unfold itemClone at h
  rcases hres : newResources parameters item.mimeType obj.resources with e | resources
  · rw [hres] at h
    cases h
  · rw [hres] at h
    cases h
    refine ⟨⟨rfl, rfl, rfl, rfl, rfl, rfl, rfl, rfl, ?_, fun key => ?_, fun _ => rfl,
      fun item' hitem' => ?_, fun hnone => ?_⟩, ?_⟩
    · rw [if_pos hsome]
    · rw [get_newMetadata]
      simp only [hsome, true_and]
    · rw [hitem] at hitem'
      cases hitem'
      rw [newResources_eq hres]
      exact resourcesEqual_self
    · rw [hitem] at hnone
      cases hnone
    · show obj.copy.kind.mapItem _ = _
      rw [hkind]

/-- The clone of an item that is not an active item is what was asked for. -/
theorem itemClone_requested (h : itemClone parameters obj item = .ok clone)
    (hitem : obj.kind.itemData? = some item)
    (hnot : ∀ item action state, obj.kind ≠ .activeItem item action state) :
    AsRequested parameters obj clone := by
  obtain ⟨hmembers, hkind⟩ := itemClone_members h hitem
  refine ⟨hmembers, ?_⟩
  unfold CdsObject.copy
  rw [hkind]
  rcases hobj : obj.kind with _ | _ | ⟨data, action, state⟩ | _ | _
  · rfl
  · rfl
  · exact absurd hobj (hnot data action state)
  · rfl
  · rfl

/-- **The first clone of an active item** has everything but the new action and state. -/
theorem itemClone_requested_active (h : itemClone parameters obj item = .ok clone)
    (hkind : obj.kind = .activeItem item action state)
    (hsame : obj.equalsExactly (activeItemClone parameters obj item action state) = true) :
    AsRequested parameters obj clone := by
  have hitem : obj.kind.itemData? = some item := by rw [hkind]; rfl
  obtain ⟨hmembers, hclone⟩ := itemClone_members h hitem
  -- the second clone says that action and state are not to change
  have hkinds : obj.kind = (activeItemClone parameters obj item action state).kind :=
    kind_eq_of_equals (by rw [hitem]; exact nofun) (equalsExactly_iff.mp hsame).kind
  refine ⟨hmembers, ?_⟩
  have hcopy : obj.copy.kind = obj.kind := copy_kind_of_item (by rw [hitem]; exact nofun)
  rw [hkind] at hclone hkinds
  have hclone' : clone.copy.kind = clone.kind := copy_kind_of_item (by rw [hclone]; exact nofun)
  obtain ⟨-, haction, hstate⟩ := CdsKind.activeItem.inj hkinds
  rw [hclone', hclone, hcopy, hkind]
  show CdsKind.activeItem _ action state = CdsKind.activeItem _
    (supplied (parameters.get (str "action")) action) (newState parameters state)
  rw [← haction, ← hstate]

theorem containerClone_requested (hnone : obj.kind.itemData? = none) :
    AsRequested parameters obj (containerClone parameters obj) := by
  refine ⟨⟨rfl, rfl, rfl, rfl, rfl, rfl, rfl, rfl, ?_, fun key => ?_, fun _ => rfl,
    fun item hitem => ?_, fun _ => resourcesEqual_self⟩, ?_⟩
  · rw [hnone]
    rfl
  · rw [hnone]
    exact (if_neg fun h => (nomatch h.1)).symm
  · rw [hnone] at hitem
    cases hitem
  · unfold containerClone CdsObject.copy
    rcases hkind : obj.kind with _ | _ | _ | _ | _
    · rfl
    all_goals
      rw [hkind] at hnone
      cases hnone

/-- **The second clone of an active item** has the old location and the old resources. -/
theorem activeItemClone_requested_iff (hkind : obj.kind = .activeItem item action state) :
    AsRequested parameters obj (activeItemClone parameters obj item action state) ↔
      KeepsPlace parameters obj := by
  have hitem : obj.kind.itemData? = some item := by rw [hkind]; rfl
  have hsome : obj.kind.itemData?.isSome = true := by rw [hitem]; rfl
  have hcopy : obj.copy.kind = obj.kind := copy_kind_of_item (by rw [hitem]; exact nofun)
  constructor
  · intro h
    have hlocation := h.location
    rw [if_pos hsome] at hlocation
    exact ⟨hlocation.symm, fun item' hitem' => h.resources item' hitem'⟩
  · rintro ⟨hlocation, hresources⟩
    refine ⟨⟨rfl, rfl, rfl, rfl, rfl, rfl, rfl, rfl, ?_, fun key => ?_, fun _ => rfl,
      fun item' hitem' => ?_, fun hnone => ?_⟩, ?_⟩
    · rw [if_pos hsome]
      exact hlocation.symm
    · show (newMetadata parameters obj.metadata).get key = _
      rw [get_newMetadata]
      simp only [hsome, true_and]
    · exact hresources item' hitem'
    · rw [hitem] at hnone
      cases hnone
    · rw [hcopy, hkind]
      rfl

/-- An object that equals what was asked for is what was asked for. -/
theorem requested_of_same (h : AsRequested parameters obj clone) (hsame : SameMembers obj clone) :
    AsRequested parameters obj obj := by
  refine ⟨⟨rfl, rfl, rfl, rfl, rfl, rfl, hsame.title.trans h.title,
    hsame.upnpClass.trans h.upnpClass, hsame.location.trans h.location,
    fun key => (hsame.metadata key).trans (h.metadata key), fun _ => rfl,
    fun item hitem => resourcesEqual_trans hsame.resources (h.resources item hitem),
    fun _ => resourcesEqual_self⟩, ?_⟩
  by_cases hitem : obj.kind.itemData? = none
  · unfold CdsObject.copy
    rcases hkind : obj.kind with _ | _ | _ | _ | _
    · rfl
    all_goals
      rw [hkind] at hitem
      cases hitem
  · have hkinds : obj.kind = clone.kind := kind_eq_of_equals hitem hsame.kind
    have hclone : clone.copy.kind = clone.kind := copy_kind_of_item (hkinds ▸ hitem)
    have hrequested := h.kind
    rw [hclone, ← hkinds] at hrequested
    rw [copy_kind_of_item hitem] at hrequested ⊢
    exact hrequested

/-! ## Storing -/

variable {checkPath : Str → Bool} {parentUI : Bool} {u : Updates} {s s' s₁ : StorageState}
  {objectID : Int} {changedContainer : Option Int}

/-- A branch stores its clone if it differs from the loaded object. -/
theorem storeClone_ok (h : (storeClone checkPath obj clone parentUI).run s = (.ok u, s')) :
    (obj.equalsExactly clone = true ∧ u.stored = [] ∧ s' = s) ∨
      (obj.equalsExactly clone = false ∧ u.stored = [clone] ∧ ∃ changedContainer,
        (MediaTomb.updateObject clone).run s = (.ok changedContainer, s')) := by
  unfold storeClone at h
  by_cases hsame : obj.equalsExactly clone = true
  · rw [if_pos hsame] at h
    cases h
    exact Or.inl ⟨hsame, rfl, rfl⟩
  · rw [if_neg hsame] at h
    obtain ⟨_, s₁, hvalid, hstore⟩ := bind_ok h
    rw [run_ofExcept] at hvalid
    obtain rfl : s = s₁ := (Prod.ext_iff.mp hvalid).2
    obtain ⟨changedContainer, s₂, hupdate, hreport⟩ := bind_ok hstore
    cases hreport
    exact Or.inr ⟨by simpa using hsame, rfl, changedContainer, hupdate⟩

/-- The object that is stored when the call is over. -/
def Updates.final (u : Updates) (obj : CdsObject) : CdsObject := u.stored.getLast?.getD obj

/-- One branch leaves what it was to make, if its clone is that. -/
theorem storeClone_requested (h : (storeClone checkPath obj clone parentUI).run s = (.ok u, s'))
    (hclone : AsRequested parameters obj clone) : AsRequested parameters obj (u.final obj) := by
  unfold Updates.final
  rcases storeClone_ok h with ⟨hsame, hnone, -⟩ | ⟨-, hone, -⟩
  · rw [hnone]
    exact requested_of_same hclone (equalsExactly_iff.mp hsame)
  · rw [hone]
    exact hclone

/-! ## What the cache has after storing -/

/-- `o` is what the storage makes of `obj` when it stores it: it may find a file another directory,
    and it drops a flag. -/
def StoredAs (obj o : CdsObject) : Prop :=
  ∃ parentID objectFlags,
    o = { obj with parentID := parentID, objectFlags := objectFlags }.copy ∧
      (isCdsPureItem obj.objectType = false → parentID = obj.parentID) ∧
      (objectFlags = obj.objectFlags ∨
        objectFlags = (obj.clearFlag objectFlagUseResourceRef).objectFlags)

/-- What has been put into the cache is there. -/
theorem addObjectToCache_cached (hid : isMarkerID obj.id = false)
    (h : (addObjectToCache obj).run s = (.ok (), s')) (hcache : s'.cache ≠ none) :
    cachedObject s' obj.id = some obj.copy := by
  unfold addObjectToCache cacheOn at h
  rw [run_read_bind] at h
  by_cases hon : s.cache.isSome = true
  · rw [if_pos hon, run_locked] at h
    unfold addObjectToCacheLocked at h
    obtain ⟨_, s₁, -, h₁⟩ := bind_ok h
    obtain ⟨_, s₂, -, h₂⟩ := bind_ok h₁
    cases h₂
    unfold cachedObject
    rcases hc : s₂.cache with _ | c
    · simp only [hc] at hcache
      exact absurd rfl hcache
    · simp only [hc, Option.map_some, Option.bind_some]
      rw [StorageCache.getObject_checkLocation, StorageCache.getObject_store_self hid]
      rfl
  · rw [if_neg hon] at h
    cases h
    rw [Option.isSome_iff_ne_none] at hon
    exact absurd hcache hon

/-- `_addUpdateObject` changes no member but these. -/
theorem addUpdateObject_obj {r : AddUpdate}
    (h : (addUpdateObject_ obj true).run s = (.ok r, s')) :
    (∃ parentID, r.obj = { obj.clearFlag objectFlagUseResourceRef with parentID := parentID } ∧
      (isCdsPureItem obj.objectType = false → parentID = obj.parentID)) ∧ r.data ≠ none := by
  unfold addUpdateObject_ at h
  obtain ⟨ref, s₁, -, h₁⟩ := bind_ok h
  obtain ⟨⟨cols, placed, changed⟩, s₂, hplace, h₂⟩ := bind_ok h₁
  obtain ⟨duplicates, s₃, hdup, h₃⟩ := bind_ok h₂
  -- an update looks for no duplicates
  have hnone : duplicates = [] := by
    unfold selectDuplicates at hdup
    split at hdup
    · next heq => cases heq
    · cases hdup
      rfl
  have hplaced : ∃ parentID,
      placed = { obj.clearFlag objectFlagUseResourceRef with parentID := parentID } ∧
        (isCdsPureItem obj.objectType = false → parentID = obj.parentID) := by
    unfold placeObject at hplace
    split at hplace
    · split_ifs at hplace
      · cases hplace
      · cases hplace
        exact ⟨_, rfl, fun _ => rfl⟩
    · obtain ⟨⟨itemCols, itemPlaced, itemChanged⟩, s₄, hitem, hpair⟩ := bind_ok hplace
      cases hpair
      unfold placeItem at hitem
      split at hitem
      · cases hitem
        exact ⟨_, rfl, fun _ => rfl⟩
      · split at hitem
        · cases hitem
        · cases hitem
        · split_ifs at hitem with hpure
          · obtain ⟨⟨path, filename⟩, s₅, -, h₅⟩ := bind_ok hitem
            obtain ⟨⟨parentID, container⟩, s₆, -, h₆⟩ := bind_ok h₅
            cases h₆
            refine ⟨parentID, rfl, fun hnot => ?_⟩
            have htype : isCdsPureItem obj.objectType = true := hpure
            rw [hnot] at htype
            cases htype
          · cases hitem
            exact ⟨_, rfl, fun _ => rfl⟩
  rw [if_neg (fun hne => hne hnone)] at h₃
  split_ifs at h₃
  · cases h₃
  · cases h₃
    exact ⟨hplaced, nofun⟩

/-- **What has been stored is what is loaded**, when there is a cache. -/
theorem updateObject_cached
    (h : (MediaTomb.updateObject obj).run s = (.ok changedContainer, s'))
    (hcache : s'.cache ≠ none) :
    ∃ o, (loadObject obj.id).run s' = (.ok o, s') ∧ StoredAs obj o := by
  have hload : ∀ o, cachedObject s' obj.id = some o → (loadObject obj.id).run s' = (.ok o, s') := by
    intro o hcached
    unfold loadObject
    rw [run_read_bind, hcached]
    rfl
  unfold MediaTomb.updateObject at h
  obtain ⟨_, s₁, -, h₁⟩ := bind_ok h
  by_cases hroot : obj.id = cdsIdFsRoot
  · rw [if_pos hroot] at h₁
    obtain ⟨_, s₂, -, h₂⟩ := bind_ok h₁
    obtain ⟨_, s₃, -, h₃⟩ := bind_ok h₂
    obtain ⟨_, s₄, hput, h₄⟩ := bind_ok h₃
    cases h₄
    have hid : isMarkerID obj.id = false := by rw [hroot]; rfl
    exact ⟨_, hload _ (addObjectToCache_cached hid hput hcache), obj.parentID, obj.objectFlags, rfl,
      fun _ => rfl, Or.inl rfl⟩
  · rw [if_neg hroot] at h₁
    by_cases hforbidden : isForbiddenCdsID obj.id = true
    · rw [if_pos hforbidden] at h₁
      cases h₁
    · rw [if_neg hforbidden] at h₁
      obtain ⟨r, s₂, hrow, h₂⟩ := bind_ok h₁
      obtain ⟨⟨parentID, hobj, hparent⟩, hdata⟩ := addUpdateObject_obj hrow
      obtain ⟨cols, hcols⟩ := Option.ne_none_iff_exists'.mp hdata
      rw [hcols] at h₂
      obtain ⟨_, s₃, hwrite, h₃⟩ := bind_ok h₂
      cases h₃
      unfold writeObject at hwrite
      obtain ⟨_, s₄, -, h₄⟩ := bind_ok hwrite
      obtain ⟨s₅, hput⟩ : ∃ s₅, (addObjectToCache r.obj).run s₅ = (.ok (), s') := by
        simp only at h₄
        split at h₄
        · obtain ⟨_, s₅, -, h₅⟩ := bind_ok h₄
          exact ⟨s₅, h₅⟩
        · exact ⟨s₄, h₄⟩
      have hid : isMarkerID r.obj.id = false := by
        have hlarge : ¬ obj.id ≤ cdsIdFsRoot := by
          unfold isForbiddenCdsID at hforbidden
          simpa using hforbidden
        rw [hobj]
        show isMarkerID obj.id = false
        unfold isMarkerID
        unfold cdsIdFsRoot at hlarge
        unfold invalidObjectID invalidObjectID2
        simp only [Bool.or_eq_false_iff, decide_eq_false_iff_not]
        omega
      have hcached := addObjectToCache_cached hid hput hcache
      rw [hobj] at hcached
      exact ⟨_, hload _ hcached, parentID, _, rfl, hparent, Or.inr rfl⟩

end

end ContentManager

open ContentManager

def lampResource : CdsResource :=
  ⟨0, ⟨[(protocolInfo, str "http-get:*:text/plain:*")], by decide⟩, .empty, .empty⟩

theorem lampRow_id_ge : cdsIdBlackhole ≤ 2 := by decide

def lampRow : ObjectRow where
  id := 2
  id_ge := lampRow_id_ge
  parentID := 0
  objectType := objectTypeItem ||| objectTypeActiveItem
  upnpClass := some (str "object.item")
  dcTitle := some (str "lamp")
  location := some (str "/lamp")
  resources := some lampResource.encode
  mimeType := some (str "text/plain")

def lampDatabase : Database where
  objects := ⟨[lampRow], by decide⟩
  activeItems := ⟨[{ id := 2, action := str "/switch", state := str "off" }], by decide⟩
  autoscans := .empty
  autoscan_obj_id := List.nodup_nil

def lampState : StorageState := .started lampDatabase false fun s => .ok s

/-- The lamp as it is loaded. -/
def lamp : CdsObject :=
  ((loadObject 2).run lampState).1.toOption.getD { upnpClass := none, kind := .item {} }

/-- The parameters of an edit: a new location, and a new title as well or not. -/
def lampEdit (renamed : Bool) : Dictionary :=
  if renamed then ⟨[(str "title", str "light"), (str "location", str "/light")], by decide⟩
  else ⟨[(str "location", str "/light")], by decide⟩

/-- What the edits store. -/
def lampUpdates (renamed : Bool) : Updates :=
  ((ContentManager.updateObject (fun _ => true) 2 (lampEdit renamed)).run
    lampState).1.toOption.getD {}

theorem load_lamp : ∃ s₁, (loadObject 2).run lampState = (.ok lamp, s₁) :=
  run_ok_value _ (by decide +kernel)

theorem run_lampEdit (renamed : Bool) : ∃ s',
    (ContentManager.updateObject (fun _ => true) 2 (lampEdit renamed)).run lampState =
      (.ok (lampUpdates renamed), s') := by
  refine run_ok_value _ ?_
  cases renamed with
  | false => decide +kernel
  | true => decide +kernel

end MediaTomb
