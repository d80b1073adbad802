/-
  An item, its row, and the item that is made of the row again.

  `_addUpdateObject` leaves columns NULL where the referenced object has the same value, and
  `createObjectFromRow` takes them from the row of the referenced object.  A column survives that if
  it is written, or if the referenced row has the value ITSELF.

  What makes the difference, column by column:
    * empty metadata is never written, so that the referenced object's shows through;
    * the service id of the referenced row comes FIRST, whatever the object's own;
    * location, resources and class are left to a row that may be a reference again, with NULL there;
    * nil texts come back empty, and a track number below zero as zero.
-/
import MediaTomb.Encodings
import MediaTomb.Storage.BufferedObjects

namespace MediaTomb

open Lib.Prog

/-! ## The row -/

/-- The row that the statement of `addObject` or `updateObject` writes. -/
def WritesRow (cols : ObjectColumns) (isUpdate : Bool) (row : ObjectRow) : Prop :=
  if isUpdate then ∃ old, row = cols.apply old else ∃ id, row = cols.insertRow id

/-- A column that is NULL where it is left to the referenced object. -/
def Column {α : Type} (left : Prop) (col value : Option α) : Prop :=
  (left → col = none) ∧ (¬ left → col = value)

/-- The statement lists a column with this value where it is not left out. -/
def Lists {α : Type} (isUpdate : Bool) (left : Prop) (col : Option (Option α)) (value : Option α) :
    Prop :=
  (left → col = nullOnUpdate isUpdate ∨ col = some none) ∧ (¬ left → col = some value)

/-- An UPDATE writes NULL into a column that is left out, and an INSERT finds it there. -/
theorem Lists.column {α : Type} {left : Prop} {col : Option (Option α)} {old value : Option α}
    {isUpdate : Bool} (h : Lists isUpdate left col value)
    (hold : isUpdate = false → old = none) : Column left (col.getD old) value := by
  refine ⟨fun hl => ?_, fun hl => ?_⟩
  · rcases h.1 hl with hnull | hnull
    · rw [hnull]
      cases isUpdate with
      | false => exact hold rfl
      | true => rfl
    · rw [hnull]
      rfl
  · rw [h.2 hl]
    rfl

section

variable {obj refObj : CdsObject} {item : CdsItemData} {ref : ObjectReference} {row : ObjectRow}
  {rf : Option ObjectRow} {cols : ObjectColumns} {isUpdate : Bool} {r : AddUpdate}
  {s s' s₁ : StorageState}

/-! ## What is left to the referenced object -/

/-- The object has the class of the referenced object. -/
def LeavesClass (obj : CdsObject) (ref : ObjectReference) : Prop :=
  ∃ refObj, ref.hasReference = some refObj ∧ refObj.upnpClass = obj.upnpClass

/-- The dictionary is empty, or the referenced object has the same. -/
def LeavesDictionary (dict : CdsObject → Dictionary) (obj : CdsObject) (ref : ObjectReference) :
    Prop :=
  (dict obj).size = 0 ∨
    ∃ refObj, ref.hasReference = some refObj ∧ (dict refObj).equals (dict obj) = true

/-- The object asks for the resources of the referenced object, or has the same. -/
def LeavesResources (obj : CdsObject) (ref : ObjectReference) : Prop :=
  ∃ refObj, ref.hasReference = some refObj ∧
    (obj.getFlag objectFlagUseResourceRef = true ∨ refObj.resourcesEqual obj = true)

/-- There is no service id, or the referenced object has the same. -/
def LeavesServiceID (item : CdsItemData) (ref : ObjectReference) : Prop :=
  stringOk item.serviceID = false ∨ ∃ refObj, ref.hasReference = some refObj ∧
    refObj.kind.itemData?.bind CdsItemData.serviceID = item.serviceID

/-- The location of an item as it is stored. -/
def storedLocation (obj : CdsObject) : Option Str :=
  if isCdsPureItem obj.objectType then some (addLocationPrefix locFilePrefix obj.location)
  else obj.location

/-- **The row of an item**, column by column. -/
structure RowOf (obj : CdsObject) (item : CdsItemData) (ref : ObjectReference) (row : ObjectRow) :
    Prop where
  objectType : row.objectType = obj.objectType
  refID : row.refID = ref.refObj.map CdsObject.id
  dcTitle : row.dcTitle = some (obj.title.getD [])
  upnpClass : Column (LeavesClass obj ref) row.upnpClass (some (obj.upnpClass.getD []))
  metadata : Column (LeavesDictionary CdsObject.metadata obj ref) row.metadata
    (some obj.metadata.encode)
  auxdata : Column (LeavesDictionary CdsObject.auxdata obj ref) row.auxdata
    (some obj.auxdata.encode)
  resources : Column (LeavesResources obj ref) row.resources (encodeResources obj.resources)
  location : Column (ref.hasReference.isSome = true) row.location (storedLocation obj)
  trackNumber : Column (item.trackNumber ≤ 0) row.trackNumber (some item.trackNumber)
  serviceID : Column (LeavesServiceID item ref) row.serviceID item.serviceID
  mimeType : row.mimeType = some (item.mimeType.getD [])

/-! ## The columns of an item -/

/-- Columns of an item come from three places. -/
structure ColumnsOf (obj : CdsObject) (item : CdsItemData) (ref : ObjectReference) (isUpdate : Bool)
    (cols : ObjectColumns) : Prop where
  objectType : cols.objectType = some obj.objectType
  refID : cols.refID = (commonColumns isUpdate obj ref).refID
  upnpClass : cols.upnpClass = (commonColumns isUpdate obj ref).upnpClass
  dcTitle : cols.dcTitle = some (obj.title.getD [])
  metadata : cols.metadata = (commonColumns isUpdate obj ref).metadata
  auxdata : cols.auxdata = (commonColumns isUpdate obj ref).auxdata
  resources : cols.resources = (commonColumns isUpdate obj ref).resources
  location : cols.location =
    if ref.hasReference.isSome then nullOnUpdate isUpdate else some (storedLocation obj)
  trackNumber : cols.trackNumber = (itemColumns isUpdate item ref.hasReference {}).trackNumber
  serviceID : cols.serviceID = (itemColumns isUpdate item ref.hasReference {}).serviceID
  mimeType : cols.mimeType = some (item.mimeType.getD [])

/-- What `placeItem` adds is the location. -/
theorem placeItem_columns {hasReference : Option CdsObject} {placed : CdsObject}
    {changedContainer : Option Int} {cols' : ObjectColumns}
    (h : (placeItem isUpdate obj hasReference cols).run s =
      (.ok (cols', placed, changedContainer), s')) :
    ∃ hash, cols' = { cols with
      location := if hasReference.isSome then nullOnUpdate isUpdate else some (storedLocation obj)
      locationHash := hash } := by
  unfold placeItem at h
  split at h
  · cases h
    exact ⟨_, rfl⟩
  · split at h
    · cases h
    · cases h
    · next loc hnonempty hloc =>
      unfold storedLocation
      by_cases hpure : isCdsPureItem obj.objectType = true
      · rw [if_pos hpure] at h ⊢
        obtain ⟨⟨path, filename⟩, s₁, hsplit, h⟩ := bind_ok h
        obtain ⟨⟨parentID, changed⟩, s₂, hensure, h⟩ := bind_ok h
        cases h
        exact ⟨_, by rw [hloc]; rfl⟩
      · rw [if_neg hpure] at h ⊢
        cases h
        exact ⟨_, by rw [hloc]; rfl⟩

theorem columns_of_item (hitem : obj.kind.itemData? = some item)
    (href : (resolveReference obj).run s = (.ok ref, s₁))
    (hrun : (addUpdateObject_ obj isUpdate).run s = (.ok r, s')) (hcols : r.data = some cols) :
    ColumnsOf obj item ref isUpdate cols := by
  unfold addUpdateObject_ at hrun
  obtain ⟨ref', s₂, href', hrun⟩ := bind_ok hrun
  rw [href] at href'
  cases href'
  obtain ⟨⟨placedCols, placed, changed⟩, s₃, hplace, hrun⟩ := bind_ok hrun
  obtain ⟨duplicates, s₄, -, hrun⟩ := bind_ok hrun
  -- a duplicate leaves no columns
  have hfinal : cols = { placedCols with parentID := some placed.parentID } := by
    split_ifs at hrun with hdup hparent
    · cases hrun
      cases hcols
    · cases hrun
    · cases hrun
      cases hcols
      rfl
  unfold placeObject at hplace
  have hitem' : (obj.clearFlag objectFlagUseResourceRef).kind.itemData? = some item := hitem
  rw [hitem'] at hplace
  simp only at hplace
  obtain ⟨⟨itemCols, itemPlaced, itemChanged⟩, s₅, hitemPlace, hplace⟩ := bind_ok hplace
  cases hplace
  obtain ⟨hash, hcolumns⟩ := placeItem_columns hitemPlace
  rw [hcolumns] at hfinal
  rw [hfinal]
  exact ⟨rfl, rfl, rfl, rfl, rfl, rfl, rfl, rfl, rfl, rfl, rfl⟩

theorem lists_upnpClass : Lists isUpdate (LeavesClass obj ref)
    (commonColumns isUpdate obj ref).upnpClass (some (obj.upnpClass.getD [])) := by
  unfold commonColumns
  simp only
  constructor
  · rintro ⟨refObj, href, hclass⟩
    rw [href]
    exact Or.inl (if_pos hclass)
  · intro hleft
    split
    · next refObj href => exact if_neg fun hclass => hleft ⟨refObj, href, hclass⟩
    · rfl

theorem lists_dictionary (dict : CdsObject → Dictionary) :
    Lists isUpdate (LeavesDictionary dict obj ref)
      (dictionaryColumn isUpdate (dict obj) (ref.hasReference.map dict))
      (some (dict obj).encode) := by
  unfold dictionaryColumn
  by_cases hempty : (dict obj).size = 0
  · rw [if_pos hempty]
    exact ⟨fun _ => Or.inl rfl, fun h => absurd (Or.inl hempty) h⟩
  · rw [if_neg hempty]
    constructor
    · rintro (h | ⟨refObj, href, hequal⟩)
      · exact absurd h hempty
      · rw [href]
        simp only [Option.map_some]
        exact Or.inl (if_pos hequal)
    · intro h
      rcases href : ref.hasReference with _ | refObj
      · rfl
      · simp only [Option.map_some]
        exact if_neg fun hequal => h (Or.inr ⟨refObj, href, hequal⟩)

theorem lists_resources : Lists isUpdate (LeavesResources obj ref)
    (resourcesColumn isUpdate obj ref.hasReference) (encodeResources obj.resources) := by
  unfold resourcesColumn
  constructor
  · rintro ⟨refObj, href, hsame⟩
    rw [href]
    refine Or.inl (if_neg ?_)
    rcases hsame with h | h
    · rw [h]
      simp
    · rw [h]
      simp
  · intro hleft
    rcases href : ref.hasReference with _ | refObj
    · rfl
    · refine if_pos ?_
      rw [Bool.and_eq_true, Bool.not_eq_true', Bool.not_eq_true']
      constructor
      · exact Bool.eq_false_iff.mpr fun hflag => hleft ⟨refObj, href, Or.inl hflag⟩
      · exact Bool.eq_false_iff.mpr fun hequal => hleft ⟨refObj, href, Or.inr hequal⟩

theorem lists_location : Lists isUpdate (ref.hasReference.isSome = true)
    (if ref.hasReference.isSome then nullOnUpdate isUpdate else some (storedLocation obj))
    (storedLocation obj) :=
  ⟨fun h => Or.inl (if_pos h), fun h => if_neg h⟩

theorem lists_trackNumber : Lists isUpdate (item.trackNumber ≤ 0)
    (itemColumns isUpdate item ref.hasReference {}).trackNumber (some item.trackNumber) :=
  ⟨fun h => Or.inl (if_neg (not_lt.mpr h)), fun h => if_pos (not_le.mp h)⟩

/-- A service id that is left out is written as NULL even by an INSERT. -/
theorem lists_serviceID : Lists isUpdate (LeavesServiceID item ref)
    (itemColumns isUpdate item ref.hasReference {}).serviceID item.serviceID := by
  unfold itemColumns
  simp only
  by_cases hok : stringOk item.serviceID = true
  · rw [if_pos hok]
    constructor
    · rintro (h | ⟨refObj, href, hsame⟩)
      · rw [hok] at h
        cases h
      · rw [href]
        exact Or.inr (if_pos hsame)
    · intro hleft
      rcases href : ref.hasReference with _ | refObj
      · rfl
      · exact if_neg fun hsame => hleft (Or.inr ⟨refObj, href, hsame⟩)
  · rw [if_neg hok]
    exact ⟨fun _ => Or.inl rfl, fun h => absurd (Or.inl (Bool.eq_false_iff.mpr hok)) h⟩

/-- **What `_addUpdateObject` writes of an item.** -/
theorem rowOf_columns (hc : ColumnsOf obj item ref isUpdate cols)
    (hrow : WritesRow cols isUpdate row) : RowOf obj item ref row := by
  -- an INSERT starts from NULLs
  obtain ⟨old, rfl, hold⟩ : ∃ old, row = cols.apply old ∧ (isUpdate = false →
      old.refID = none ∧ old.upnpClass = none ∧ old.metadata = none ∧ old.auxdata = none ∧
        old.resources = none ∧ old.location = none ∧ old.trackNumber = none ∧
        old.serviceID = none) := by
    unfold WritesRow at hrow
    split_ifs at hrow with hupdate
    · obtain ⟨old, rfl⟩ := hrow
      refine ⟨old, rfl, fun hinsert => ?_⟩
      rw [hupdate] at hinsert
      cases hinsert
    · obtain ⟨id, rfl⟩ := hrow
      exact ⟨_, rfl, fun _ => ⟨rfl, rfl, rfl, rfl, rfl, rfl, rfl, rfl⟩⟩
  refine ⟨?_, ?_, ?_, ?_, ?_, ?_, ?_, ?_, ?_, ?_, ?_⟩
  · show cols.objectType.getD old.objectType = obj.objectType
    rw [hc.objectType]
    rfl
  · show cols.refID.getD old.refID = ref.refObj.map CdsObject.id
    rw [hc.refID]
    unfold commonColumns
    simp only
    rcases ref.refObj with _ | refObj
    · have hnull : Lists isUpdate True (nullOnUpdate isUpdate) (none : Option Int) :=
        ⟨fun _ => Or.inl rfl, fun h => absurd trivial h⟩
      exact (hnull.column fun h => (hold h).1).1 trivial
    · rfl
  · show (cols.dcTitle <|> old.dcTitle) = some (obj.title.getD [])
    rw [hc.dcTitle]
    rfl
  · show Column _ (cols.upnpClass.getD old.upnpClass) _
    rw [hc.upnpClass]
    exact lists_upnpClass.column fun h => (hold h).2.1
  · show Column _ (cols.metadata.getD old.metadata) _
    rw [hc.metadata]
    exact (lists_dictionary _).column fun h => (hold h).2.2.1
  · show Column _ (cols.auxdata.getD old.auxdata) _
    rw [hc.auxdata]
    exact (lists_dictionary _).column fun h => (hold h).2.2.2.1
  · show Column _ (cols.resources.getD old.resources) _
    rw [hc.resources]
    exact lists_resources.column fun h => (hold h).2.2.2.2.1
  · show Column _ (cols.location.getD old.location) _
    rw [hc.location]
    exact lists_location.column fun h => (hold h).2.2.2.2.2.1
  · show Column _ (cols.trackNumber.getD old.trackNumber) _
    rw [hc.trackNumber]
    exact lists_trackNumber.column fun h => (hold h).2.2.2.2.2.2.1
  · show Column _ (cols.serviceID.getD old.serviceID) _
    rw [hc.serviceID]
    exact lists_serviceID.column fun h => (hold h).2.2.2.2.2.2.2
  · show (cols.mimeType <|> old.mimeType) = some (item.mimeType.getD [])
    rw [hc.mimeType]
    rfl

/-! ## What is read again -/

/-- `o` is the item that was stored, as far as the columns go. -/
structure SameItem (o obj : CdsObject) : Prop where
  title : o.title = obj.title
  upnpClass : o.upnpClass = obj.upnpClass
  location : o.location = obj.location
  metadata : o.metadata.equals obj.metadata = true
  auxdata : o.auxdata.equals obj.auxdata = true
  resources : o.resourcesEqual obj = true
  /-- Mime type, track number and service id. -/
  itemData : o.kind.itemData? = obj.kind.itemData?

/-- A dictionary that was left to the row of the referenced object is there. -/
def RestoresDictionary (dict : CdsObject → Dictionary) (col : ObjectRow → Option Str)
    (obj : CdsObject) (ref : ObjectReference) (rf : Option ObjectRow) : Prop :=
  LeavesDictionary dict obj ref →
    (Dictionary.decode .empty (rf.bind col)).equals (dict obj) = true

/-- What a reference finds for a location in the row of the referenced object. -/
def referencedLocation (obj refObj : CdsObject) (rf : Option ObjectRow) : Option Str :=
  if isCdsPureItem obj.objectType then
    if refObj.id = 0 then none else (stripLocationPrefix (rf.bind ObjectRow.location)).2
  else rf.bind ObjectRow.location

/-- **When an item comes back from its row**, joined with the row `rf`: each column that is left out
    is in `rf`, and the service id of `rf`, if it has one, is the item's. -/
structure Restorable (obj : CdsObject) (item : CdsItemData) (ref : ObjectReference)
    (rf : Option ObjectRow) : Prop where
  title : obj.title ≠ none
  upnpClass : LeavesClass obj ref → rf.bind ObjectRow.upnpClass = obj.upnpClass
  someClass : ¬ LeavesClass obj ref → obj.upnpClass ≠ none
  metadata : RestoresDictionary CdsObject.metadata ObjectRow.metadata obj ref rf
  auxdata : RestoresDictionary CdsObject.auxdata ObjectRow.auxdata obj ref rf
  resources : LeavesResources obj ref → ∃ rs,
    decodeResources (splitString (rf.bind ObjectRow.resources) resourceSep false) = .ok rs ∧
      CdsObject.resourcesEqual { obj with resources := rs } obj = true
  location : ∀ refObj, ref.hasReference = some refObj →
    referencedLocation obj refObj rf = obj.location
  mimeType : item.mimeType ≠ none
  trackNumber : 0 ≤ item.trackNumber
  serviceID : if stringOk (rf.bind ObjectRow.serviceID) then
      rf.bind ObjectRow.serviceID = item.serviceID
    else LeavesServiceID item ref → item.serviceID = none

theorem Dictionary.equals_refl (d : Dictionary) : d.equals d = true := by
  have hsubset : d.isSubsetOf d = true := by
    refine List.all_eq_true.mpr fun el hel => decide_eq_true ?_
    have hfind : d.find? el.1 = some el := Lib.Table.find?_eq_some.mpr ⟨hel, rfl⟩
    unfold Dictionary.get
    rw [hfind]
    rfl
  unfold equals
  rw [hsubset]
  rfl

theorem CdsResource.equals_refl (r : CdsResource) : r.equals r = true := by
  unfold equals
  rw [Dictionary.equals_refl, Dictionary.equals_refl, Dictionary.equals_refl]
  simp

theorem resourcesEqual_refl (obj : CdsObject) : obj.resourcesEqual obj = true := by
  unfold CdsObject.resourcesEqual
  rw [Bool.and_eq_true]
  refine ⟨decide_eq_true rfl, List.all_eq_true.mpr ?_⟩
  rintro ⟨r, r'⟩ hr
  obtain rfl : r = r' := by
    rw [List.zip_eq_zipWith, List.zipWith_self] at hr
    obtain ⟨a, -, ha⟩ := List.mem_map.mp hr
    cases ha
    rfl
  exact r.equals_refl

/-- The text of a resource fits into an `int`. -/
def FitsInt (r : CdsResource) : Prop := -2 ^ 31 ≤ r.handlerType ∧ r.handlerType < 2 ^ 31

theorem decodeResources_encode {rs : List CdsResource} (h : ∀ r ∈ rs, FitsInt r) :
    decodeResources (rs.map CdsResource.encode) = .ok rs := by
  induction rs with
  | nil => rfl
  | cons r rs ih =>
    obtain ⟨hlow, hhigh⟩ := h r List.mem_cons_self
    have ih := ih fun r hr => h r (List.mem_cons_of_mem _ hr)
    rw [List.map_cons, decodeResources, CdsResource.decode_encode hlow hhigh, ih]
    rfl

/-- **The `resources` column comes apart** into the resources it was made of. -/
theorem resources_roundtrip {rs : List CdsResource} (hne : rs ≠ []) (h : ∀ r ∈ rs, FitsInt r) :
    ∃ text, encodeResources rs = some text ∧
      decodeResources (splitString (some text) resourceSep false) = .ok rs := by
  have hno : ∀ p ∈ rs.map CdsResource.encode, resourceSep ∉ p := by
    intro p hp
    obtain ⟨r, -, rfl⟩ := List.mem_map.mp hp
    exact CdsResource.not_mem_encode_resource (by decide) (by decide) (by decide) (by decide)
      (by decide)
  have hparts : ∀ p ∈ rs.map CdsResource.encode, p ≠ [] := by
    intro p hp
    obtain ⟨r, -, rfl⟩ := List.mem_map.mp hp
    exact r.encode_ne_nil
  have hsplit := splitString_join hno hparts
  refine ⟨_, if_neg ?_, by rw [hsplit]; exact decodeResources_encode h⟩
  intro hnil
  rw [hnil] at hsplit
  exact hne (List.map_eq_nil_iff.mp hsplit.symm)

/-- **Every list of resources is restored** from the `resources` column, in its order. -/
theorem resources_column_restored (rs : List CdsResource) (h : ∀ r ∈ rs, FitsInt r) :
    decodeResources (splitString (encodeResources rs) resourceSep false) = .ok rs := by
  rcases Decidable.em (rs.length = 0) with hlen | hlen
  · rw [List.length_eq_zero_iff.mp hlen]
    rfl
  · obtain ⟨text, htext, hdecode⟩ := resources_roundtrip (List.ne_nil_of_length_pos
      (Nat.pos_of_ne_zero hlen)) h
    rw [htext]
    exact hdecode

/-- Separators inside a value, and no parameter and no option at the end. -/
theorem resources_column_restored_separators :
    let r : CdsResource :=
      ⟨-7, Dictionary.put .empty (str "|~&=") (str "%|é"), .empty, .empty⟩
    decodeResources (splitString (encodeResources [r, r]) resourceSep false) = .ok [r, r] := by
  intro r
  refine resources_column_restored [r, r] fun r' hr' => ?_
  have heq : r' = r := by simpa using hr'
  rw [heq]
  exact ⟨by decide, by decide⟩

/-! ## The item that is made of a row -/

/-- The bits of an item's type. -/
theorem item_type {kind : CdsKind} (hitem : kind.itemData? = some item) :
    isCdsItem kind.objectType = true ∧ isCdsContainer kind.objectType = false := by
  cases kind with
  | container updateID childCount autoscanType => cases hitem
  | item data =>
    show isCdsItem objectTypeItem = true ∧ isCdsContainer objectTypeItem = false
    decide
  | activeItem data action state =>
    show isCdsItem (objectTypeItem ||| objectTypeActiveItem) = true ∧
      isCdsContainer (objectTypeItem ||| objectTypeActiveItem) = false
    decide
  | itemExternalURL data =>
    show isCdsItem (objectTypeItem ||| objectTypeItemExternalURL) = true ∧
      isCdsContainer (objectTypeItem ||| objectTypeItemExternalURL) = false
    decide
  | itemInternalURL data =>
    show isCdsItem
        (objectTypeItem ||| objectTypeItemExternalURL ||| objectTypeItemInternalURL) = true ∧
      isCdsContainer
        (objectTypeItem ||| objectTypeItemExternalURL ||| objectTypeItemInternalURL) = false
    decide

/-- The fresh object of the class an item's type names. -/
theorem createObject_item {kind : CdsKind} (hitem : kind.itemData? = some item) :
    ∃ fresh item', CdsObject.createObject kind.objectType = .ok fresh ∧
      fresh.kind.itemData? = some item' ∧ fresh.resources = [] := by
  obtain ⟨hisItem, hnoContainer⟩ := item_type hitem
  unfold CdsObject.createObject
  rw [if_neg (Bool.eq_false_iff.mp hnoContainer)]
  by_cases hinternal : isCdsItemInternalURL kind.objectType = true
  · rw [if_pos hinternal]
    exact ⟨_, _, rfl, rfl, rfl⟩
  rw [if_neg hinternal]
  by_cases hexternal : isCdsItemExternalURL kind.objectType = true
  · rw [if_pos hexternal]
    exact ⟨_, _, rfl, rfl, rfl⟩
  rw [if_neg hexternal]
  by_cases hactive : isCdsActiveItem kind.objectType = true
  · rw [if_pos hactive]
    exact ⟨_, _, rfl, rfl, rfl⟩
  rw [if_neg hactive, if_pos hisItem]
  exact ⟨_, _, rfl, rfl, rfl⟩

theorem itemData_mapItem {kind : CdsKind} {f : CdsItemData → CdsItemData}
    (hitem : kind.itemData? = some item) : (kind.mapItem f).itemData? = some (f item) := by
  cases kind with
  | container updateID childCount autoscanType => cases hitem
  | item data => cases hitem; rfl
  | activeItem data action state => cases hitem; rfl
  | itemExternalURL data => cases hitem; rfl
  | itemInternalURL data => cases hitem; rfl

/-- The service id an item reads. -/
def readServiceID (row : Database.JoinedRow) : Option Str :=
  if stringOk (row.rf.bind ObjectRow.serviceID) then row.rf.bind ObjectRow.serviceID
  else row.f.serviceID

/-- Is the object of a row of an item virtual? -/
def readVirt (row : Database.JoinedRow) : Bool :=
  (row.f.refID.getD 0 ≠ 0 && isCdsPureItem row.f.objectType) ||
    (isCdsItem row.f.objectType && !isCdsPureItem row.f.objectType)

/-- What `toObject` makes of the row of an item. -/
structure ReadOf (row : Database.JoinedRow) (o : CdsObject) : Prop where
  id : o.id = row.f.id
  title : o.title = row.f.dcTitle
  upnpClass : o.upnpClass = row.fallback ObjectRow.upnpClass
  location : o.location = row.itemLocation (readVirt row)
  metadata : o.metadata = Dictionary.decode .empty (row.fallback ObjectRow.metadata)
  auxdata : o.auxdata = Dictionary.decode .empty (row.fallback ObjectRow.auxdata)
  resources : decodeResources
    (splitString (row.fallback ObjectRow.resources) resourceSep false) = .ok o.resources
  itemData : o.kind.itemData? = some
    { mimeType := row.fallback ObjectRow.mimeType
      trackNumber := row.f.trackNumber.getD 0
      serviceID := readServiceID row }

/-- An object comes out where the resources do, and there is one. -/
theorem toObject_item {joined : Database.JoinedRow} {kind : CdsKind}
    (htype : joined.f.objectType = kind.objectType) (hitem : kind.itemData? = some item) :
    (∀ o, joined.toObject = .ok o → ReadOf joined o) ∧
      (∀ rs, decodeResources
        (splitString (joined.fallback ObjectRow.resources) resourceSep false) = .ok rs →
        rs ≠ [] → ∃ o, joined.toObject = .ok o) := by
  obtain ⟨fresh, item', hcreate, hdata, hnone⟩ := createObject_item hitem
  obtain ⟨hisItem, hnoContainer⟩ := item_type hitem
  have hrun : joined.toObject = (decodeResources
      (splitString (joined.fallback ObjectRow.resources) resourceSep false)).bind fun rs =>
        if rs.isEmpty then
          .error (.exception (str "tried to create object without at least one resource"))
        else .ok (joined.itemFields (joined.commonFields rs fresh)) := by
    simp only [Database.JoinedRow.toObject, htype, hcreate, hisItem, hnoContainer]
    rfl
  constructor
  · intro o ho
    rw [hrun] at ho
    rcases hdecode : decodeResources
      (splitString (joined.fallback ObjectRow.resources) resourceSep false) with e | rs
    · rw [hdecode] at ho
      cases ho
    · rw [hdecode] at ho
      have hres : (joined.itemFields (joined.commonFields rs fresh)).resources = rs := by
        show fresh.resources ++ rs = rs
        rw [hnone, List.nil_append]
      replace ho : (if rs.isEmpty = true then _ else
        Except.ok (joined.itemFields (joined.commonFields rs fresh))) = Except.ok o := ho
      split_ifs at ho with hempty
      cases ho
      exact ⟨rfl, rfl, rfl, rfl, rfl, rfl, by rw [hdecode, hres], itemData_mapItem hdata⟩
  · intro rs hdecode hne
    rw [hrun, hdecode]
    refine ⟨_, if_neg ?_⟩
    rw [List.isEmpty_iff]
    exact hne

/-! ## Column by column -/

section

variable {joined : Database.JoinedRow} {o : CdsObject}

/-- A reference that is no playlist's, for a pure item. -/
theorem pure_reference (href : (resolveReference obj).run s = (.ok ref, s₁))
    (hpure : isCdsPureItem obj.objectType = true) : ref.refObj = ref.hasReference := by
  cases ref with
  | none => rfl
  | reference refObj => rfl
  | playlist refObj =>
    exfalso
    unfold resolveReference at href
    rw [if_pos hpure] at href
    split_ifs at href
    · cases href
    · obtain ⟨found, s₂, -, hrest⟩ := bind_ok href
      cases found <;> cases hrest
    · obtain ⟨found, s₂, -, hrest⟩ := bind_ok href
      cases hrest
    · cases href
    · cases href
    · cases href

/-- An item without a reference is stored only with a location. -/
theorem own_location (hitem : obj.kind.itemData? = some item)
    (href : (resolveReference obj).run s = (.ok ref, s₁))
    (hrun : (addUpdateObject_ obj isUpdate).run s = (.ok r, s'))
    (hnone : ref.hasReference = none) : obj.location ≠ none := by
  intro hlocation
  unfold addUpdateObject_ at hrun
  obtain ⟨ref', s₂, href', hrun⟩ := bind_ok hrun
  rw [href] at href'
  cases href'
  obtain ⟨⟨placedCols, placed, changed⟩, s₃, hplace, -⟩ := bind_ok hrun
  unfold placeObject at hplace
  have hitem' : (obj.clearFlag objectFlagUseResourceRef).kind.itemData? = some item := hitem
  rw [hitem'] at hplace
  simp only at hplace
  obtain ⟨⟨itemCols, itemPlaced, itemChanged⟩, s₄, hitemPlace, -⟩ := bind_ok hplace
  have hlocation' : (obj.clearFlag objectFlagUseResourceRef).location = none := hlocation
  rw [hnone, placeItem, hlocation'] at hitemPlace
  cases hitemPlace

theorem same_title (hread : ReadOf joined o) (hrow : RowOf obj item ref joined.f) :
    o.title = obj.title ↔ obj.title ≠ none := by
  rw [hread.title, hrow.dcTitle]
  cases obj.title <;> simp

theorem same_class (hread : ReadOf joined o) (hrow : RowOf obj item ref joined.f) :
    o.upnpClass = obj.upnpClass ↔
      (LeavesClass obj ref → joined.rf.bind ObjectRow.upnpClass = obj.upnpClass) ∧
        (¬ LeavesClass obj ref → obj.upnpClass ≠ none) := by
  rw [hread.upnpClass, Database.JoinedRow.fallback]
  by_cases hleft : LeavesClass obj ref
  · rw [hrow.upnpClass.1 hleft]
    exact ⟨fun h => ⟨fun _ => h, fun hno => absurd hleft hno⟩, fun h => h.1 hleft⟩
  · rw [hrow.upnpClass.2 hleft]
    refine Iff.trans ?_ ⟨fun h => ⟨fun hl => absurd hl hleft, fun _ => h⟩, fun h => h.2 hleft⟩
    show some (obj.upnpClass.getD []) = obj.upnpClass ↔ _
    cases obj.upnpClass <;> simp

/-- A dictionary that is written is decoded as it was. -/
theorem same_dictionary {dict : CdsObject → Dictionary} {col : ObjectRow → Option Str}
    (hcol : Column (LeavesDictionary dict obj ref) (col joined.f) (some (dict obj).encode)) :
    (Dictionary.decode .empty (joined.fallback col)).equals (dict obj) = true ↔
      RestoresDictionary dict col obj ref joined.rf := by
  rw [Database.JoinedRow.fallback]
  by_cases hleft : LeavesDictionary dict obj ref
  · rw [hcol.1 hleft]
    exact ⟨fun h _ => h, fun h => h hleft⟩
  · rw [hcol.2 hleft]
    show (Dictionary.decode .empty (some (dict obj).encode)).equals (dict obj) = true ↔ _
    rw [Dictionary.decode_encode]
    exact ⟨fun _ h => absurd h hleft, fun _ => Dictionary.equals_refl _⟩

theorem same_location (hread : ReadOf joined o) (hrow : RowOf obj item ref joined.f)
    (hitem : obj.kind.itemData? = some item)
    (hpure : isCdsPureItem obj.objectType = true → ref.refObj = ref.hasReference)
    (hown : ref.hasReference = none → obj.location ≠ none) :
    o.location = obj.location ↔ ∀ refObj, ref.hasReference = some refObj →
      referencedLocation obj refObj joined.rf = obj.location := by
  rw [hread.location, Database.JoinedRow.itemLocation, readVirt, hrow.objectType, hrow.refID]
  have hisItem : isCdsItem obj.objectType = true := (item_type hitem).1
  rcases href : ref.hasReference with _ | refObj
  · have hlocation : joined.f.location = storedLocation obj :=
      hrow.location.2 (by rw [href]; simp)
    refine ⟨fun _ refObj h => (nomatch h), fun _ => ?_⟩
    obtain ⟨location, hsome⟩ := Option.ne_none_iff_exists'.mp (hown href)
    unfold storedLocation at hlocation
    by_cases hp : isCdsPureItem obj.objectType = true
    · rw [if_pos hp] at hlocation
      rw [if_pos hp, hpure hp, href, hp, hlocation, hsome]
      simp [addLocationPrefix, stripLocationPrefix]
    · rw [if_neg hp] at hlocation
      rw [if_neg hp, Database.JoinedRow.fallback, hlocation, hsome]
      rfl
  · have hlocation : joined.f.location = none := hrow.location.1 (by rw [href]; rfl)
    refine Iff.trans ?_ ⟨fun h refObj' h' => Option.some.inj h' ▸ h, fun h => h refObj rfl⟩
    unfold referencedLocation
    by_cases hp : isCdsPureItem obj.objectType = true
    · rw [if_pos hp, if_pos hp, hpure hp, href, hp, hlocation]
      by_cases hzero : refObj.id = 0
      · simp [hzero, stripLocationPrefix]
      · simp [hzero]
    · rw [if_neg hp, if_neg hp, Database.JoinedRow.fallback, hlocation]
      exact Iff.rfl

theorem same_itemData (hread : ReadOf joined o) (hrow : RowOf obj item ref joined.f)
    (hitem : obj.kind.itemData? = some item) :
    o.kind.itemData? = obj.kind.itemData? ↔ item.mimeType ≠ none ∧ 0 ≤ item.trackNumber ∧
      (if stringOk (joined.rf.bind ObjectRow.serviceID) then
        joined.rf.bind ObjectRow.serviceID = item.serviceID
      else LeavesServiceID item ref → item.serviceID = none) := by
  have hmime : joined.fallback ObjectRow.mimeType = some (item.mimeType.getD []) := by
    rw [Database.JoinedRow.fallback, hrow.mimeType]
    rfl
  have htrack : joined.f.trackNumber.getD 0 = item.trackNumber ↔ 0 ≤ item.trackNumber := by
    by_cases hleft : item.trackNumber ≤ 0
    · rw [hrow.trackNumber.1 hleft]
      show 0 = item.trackNumber ↔ _
      omega
    · rw [hrow.trackNumber.2 hleft]
      show item.trackNumber = item.trackNumber ↔ _
      omega
  have hservice : readServiceID joined = item.serviceID ↔
      (if stringOk (joined.rf.bind ObjectRow.serviceID) then
        joined.rf.bind ObjectRow.serviceID = item.serviceID
      else LeavesServiceID item ref → item.serviceID = none) := by
    unfold readServiceID
    by_cases hok : stringOk (joined.rf.bind ObjectRow.serviceID) = true
    · rw [if_pos hok, if_pos hok]
    · rw [if_neg hok, if_neg hok]
      by_cases hleft : LeavesServiceID item ref
      · rw [hrow.serviceID.1 hleft]
        exact ⟨fun h _ => h.symm, fun h => (h hleft).symm⟩
      · rw [hrow.serviceID.2 hleft]
        exact ⟨fun _ h => absurd h hleft, fun _ => rfl⟩
  rw [hread.itemData, hitem, Option.some.injEq, ← htrack, ← hservice, hmime]
  obtain ⟨mimeType, trackNumber, serviceID⟩ := item
  rw [CdsItemData.mk.injEq]
  refine and_congr_left fun _ => ?_
  cases mimeType <;> simp

/-- What the `resources` column, or that of the referenced row, comes apart into. -/
theorem read_resources (hrow : RowOf obj item ref joined.f) (hne : obj.resources ≠ [])
    (hint : ∀ r ∈ obj.resources, FitsInt r) :
    (LeavesResources obj ref → joined.fallback ObjectRow.resources =
      joined.rf.bind ObjectRow.resources) ∧
    (¬ LeavesResources obj ref → decodeResources
      (splitString (joined.fallback ObjectRow.resources) resourceSep false) =
        .ok obj.resources) := by
  rw [Database.JoinedRow.fallback]
  refine ⟨fun hleft => ?_, fun hleft => ?_⟩
  · rw [hrow.resources.1 hleft]
    rfl
  · obtain ⟨text, htext, hdecode⟩ := resources_roundtrip hne hint
    rw [hrow.resources.2 hleft, htext]
    exact hdecode

/-- **The item of a row**, and when it is the one that was stored. -/
theorem toObject_same (hrow : RowOf obj item ref joined.f) (hitem : obj.kind.itemData? = some item)
    (hpure : isCdsPureItem obj.objectType = true → ref.refObj = ref.hasReference)
    (hown : ref.hasReference = none → obj.location ≠ none)
    (hne : obj.resources ≠ []) (hint : ∀ r ∈ obj.resources, FitsInt r) :
    (∃ o, joined.toObject = .ok o ∧ SameItem o obj) ↔ Restorable obj item ref joined.rf := by
  obtain ⟨hread, hcomes⟩ := toObject_item hrow.objectType hitem
  obtain ⟨hleft, hkept⟩ := read_resources hrow hne hint
  constructor
  · rintro ⟨o, ho, hsame⟩
    have hread := hread o ho
    obtain ⟨hclass, hsomeClass⟩ := (same_class hread hrow).mp hsame.upnpClass
    obtain ⟨hmime, htrack, hservice⟩ := (same_itemData hread hrow hitem).mp hsame.itemData
    refine ⟨(same_title hread hrow).mp hsame.title, hclass, hsomeClass, ?_, ?_, ?_,
      (same_location hread hrow hitem hpure hown).mp hsame.location, hmime, htrack, hservice⟩
    · exact (same_dictionary hrow.metadata).mp (hread.metadata ▸ hsame.metadata)
    · exact (same_dictionary hrow.auxdata).mp (hread.auxdata ▸ hsame.auxdata)
    · intro hres
      exact ⟨o.resources, hleft hres ▸ hread.resources, hsame.resources⟩
  · intro h
    obtain ⟨rs, hdecode, hequal⟩ : ∃ rs, decodeResources
        (splitString (joined.fallback ObjectRow.resources) resourceSep false) = .ok rs ∧
          CdsObject.resourcesEqual { obj with resources := rs } obj = true := by
      by_cases hres : LeavesResources obj ref
      · obtain ⟨rs, hdecode, hequal⟩ := h.resources hres
        exact ⟨rs, by rw [hleft hres]; exact hdecode, hequal⟩
      · exact ⟨obj.resources, hkept hres, resourcesEqual_refl obj⟩
    have hlength : rs.length = obj.resources.length := by
      rw [CdsObject.resourcesEqual, Bool.and_eq_true] at hequal
      exact of_decide_eq_true hequal.1
    obtain ⟨o, ho⟩ := hcomes rs hdecode fun hnil => by
      rw [hnil] at hlength
      exact hne (List.length_eq_zero_iff.mp hlength.symm)
    have hread := hread o ho
    have hresources : o.resources = rs := by
      have hboth := hread.resources
      rw [hdecode] at hboth
      cases hboth
      rfl
    refine ⟨o, ho, (same_title hread hrow).mpr h.title,
      (same_class hread hrow).mpr ⟨h.upnpClass, h.someClass⟩,
      (same_location hread hrow hitem hpure hown).mpr h.location, ?_, ?_, ?_,
      (same_itemData hread hrow hitem).mpr ⟨h.mimeType, h.trackNumber, h.serviceID⟩⟩
    · exact hread.metadata ▸ (same_dictionary hrow.metadata).mpr h.metadata
    · exact hread.auxdata ▸ (same_dictionary hrow.auxdata).mpr h.auxdata
    · unfold CdsObject.resourcesEqual at hequal ⊢
      rw [hresources]
      exact hequal

/-! ## `createObjectFromRow` -/

variable {t : StorageState}

/-- The cache can be told of an object: it is off, or the buffer is as it should be. -/
def CacheReady (s : StorageState) : Prop := s.cache = none ∨ BufferInv s

theorem CacheReady.run_addObjectToCache (h : CacheReady t) (o : CdsObject) :
    ∃ t', (addObjectToCache o).run t = (.ok (), t') := by
  rcases h with hnone | hready
  · refine ⟨t, ?_⟩
    unfold addObjectToCache cacheOn
    rw [run_read_bind, hnone]
    rfl
  · obtain ⟨c, hc, -⟩ := hready.cached
    have htold := ready_addObjectToCacheLocked (E := fun _ => False) o t hready
    unfold addObjectToCache cacheOn
    rw [run_read_bind, hc]
    show ∃ t', (locked (addObjectToCacheLocked o)).run t = _
    rw [run_locked]
    rcases hrun : (addObjectToCacheLocked o).run t with ⟨e | u, t'⟩
    · rw [hrun] at htold
      exact absurd htold id
    · exact ⟨t', rfl⟩

/-- What the query for active items adds is the action and the state. -/
theorem SameItem.congr {o' : CdsObject} (h : SameItem o obj) {kind : CdsKind}
    (ho' : o' = { o with kind := kind }) (hdata : kind.itemData? = o.kind.itemData?) :
    SameItem o' obj := by
  rw [ho']
  exact ⟨h.title, h.upnpClass, h.location, h.metadata, h.auxdata, h.resources,
    hdata.trans h.itemData⟩

theorem run_loadActiveItem {row : ActiveItemRow} (hrow : t.db.activeItems.find? o.id = some row) :
    ∃ kind, (loadActiveItem o).run t = (.ok { o with kind := kind }, t) ∧
      kind.itemData? = o.kind.itemData? := by
  unfold loadActiveItem select
  rw [run_read_bind]
  simp only [hrow]
  refine ⟨_, rfl, ?_⟩
  cases o.kind <;> rfl

/-- **`createObjectFromRow` adds nothing else** to what is in the row. -/
theorem createObjectFromRow_same (hread : ∀ o, joined.toObject = .ok o → ReadOf joined o)
    (hready : CacheReady t)
    (hactive : isCdsActiveItem joined.f.objectType = true →
      t.db.activeItems.find? joined.f.id ≠ none) :
    (∃ o t', (createObjectFromRow joined).run t = (.ok o, t') ∧ SameItem o obj) ↔
      ∃ o, joined.toObject = .ok o ∧ SameItem o obj := by
  -- the row's object, and the object the query makes of it
  have hquery : ∀ o, joined.toObject = .ok o → ∃ kind t',
      (createObjectFromRow joined).run t = (.ok { o with kind := kind }, t') ∧
        kind.itemData? = o.kind.itemData? := by
    intro o ho
    unfold createObjectFromRow
    rw [ho, ofExcept_ok_bind]
    by_cases htype : isCdsActiveItem joined.f.objectType = true
    · obtain ⟨row, hrow⟩ := Option.ne_none_iff_exists'.mp (hactive htype)
      rw [← (hread o ho).id] at hrow
      obtain ⟨kind, hload, hdata⟩ := run_loadActiveItem hrow
      obtain ⟨t', hcache⟩ := hready.run_addObjectToCache { o with kind := kind }
      rw [if_pos htype, run_bind_of_ok hload, run_bind_of_ok hcache]
      exact ⟨kind, t', rfl, hdata⟩
    · obtain ⟨t', hcache⟩ := hready.run_addObjectToCache o
      rw [if_neg htype, run_pure_bind, run_bind_of_ok hcache]
      exact ⟨o.kind, t', rfl, rfl⟩
  constructor
  · rintro ⟨o, t', hrun, hsame⟩
    rcases hobject : joined.toObject with e | o'
    · unfold createObjectFromRow at hrun
      rw [hobject] at hrun
      cases hrun
    · obtain ⟨kind, t'', hrun', hdata⟩ := hquery o' hobject
      rw [hrun] at hrun'
      cases hrun'
      have hback : o' = { ({ o' with kind := kind } : CdsObject) with kind := o'.kind } := rfl
      exact ⟨o', rfl, hsame.congr hback hdata.symm⟩
  · rintro ⟨o, ho, hsame⟩
    obtain ⟨kind, t', hrun, hdata⟩ := hquery o ho
    exact ⟨_, t', hrun, hsame.congr rfl hdata⟩

/-- **An item is restored from its row**, joined with any row `rf`, exactly when what is left out of
    its row is in `rf`, and the service id of `rf` is none or its own. -/
theorem stored_restored (hitem : obj.kind.itemData? = some item) (hne : obj.resources ≠ [])
    (hint : ∀ r ∈ obj.resources, FitsInt r)
    (href : (resolveReference obj).run s = (.ok ref, s₁))
    (hrun : (addUpdateObject_ obj isUpdate).run s = (.ok r, s')) (hcols : r.data = some cols)
    (hrow : WritesRow cols isUpdate joined.f) (hready : CacheReady t)
    (hactive : isCdsActiveItem joined.f.objectType = true →
      t.db.activeItems.find? joined.f.id ≠ none) :
    (∃ o t', (createObjectFromRow joined).run t = (.ok o, t') ∧ SameItem o obj) ↔
      Restorable obj item ref joined.rf := by
  have hrowOf := rowOf_columns (columns_of_item hitem href hrun hcols) hrow
  have hread := (toObject_item hrowOf.objectType hitem).1
  rw [createObjectFromRow_same hread hready hactive]
  exact toObject_same hrowOf hitem (pure_reference href) (own_location hitem href hrun) hne hint

end

end

/-! ## A copy without metadata -/

def pictureResource : CdsResource := ⟨0, .empty, .empty, .empty⟩

/-- A picture with a description. -/
def pictureRow : ObjectRow where
  id := 2
  parentID := 1
  objectType := objectTypeItem
  upnpClass := some (str "object.item")
  dcTitle := some (str "p")
  location := some (str "F/p")
  locationHash := some (stringHash (str "F/p"))
  metadata := some (str "dc=Sea")
  resources := some pictureResource.encode
  mimeType := some (str "image/jpeg")

def pictureDatabase : Database where
  objects := ⟨[pictureRow], by decide⟩
  activeItems := .empty
  autoscans := .empty
  autoscan_obj_id := List.nodup_nil

/-- The storage with the picture, nothing cached. -/
def pictureState : StorageState := .started pictureDatabase false fun s => .ok s

/-- The picture in another container, with its description or without. -/
def pictureCopy (described : Bool) : CdsObject where
  refID := 2
  parentID := 0
  title := some (str "p")
  upnpClass := some (str "object.item")
  location := some (str "/p")
  virt := true
  metadata := if described then .decode .empty (some (str "dc=Sea")) else .empty
  resources := [pictureResource]
  kind := .item { mimeType := some (str "image/jpeg") }

/-- The picture as it is loaded. -/
def picture : CdsObject where
  id := 2
  refID := 0
  parentID := 1
  title := some (str "p")
  upnpClass := some (str "object.item")
  location := some (str "/p")
  metadata := .decode .empty (some (str "dc=Sea"))
  resources := [pictureResource]
  kind := .item { mimeType := some (str "image/jpeg") }

/-- What `addObject` writes of the copy. -/
def copyColumns (described : Bool) : ObjectColumns :=
  match ((addUpdateObject_ (pictureCopy described) false).run pictureState).1 with
  | .ok r => r.data.getD {}
  | .error _ => {}

/-- The row of the copy, joined with the picture's. -/
def copyRow (described : Bool) : Database.JoinedRow :=
  pictureDatabase.join ((copyColumns described).insertRow ⟨3, by decide⟩)

theorem pictureCopy_reference (described : Bool) :
    (resolveReference (pictureCopy described)).run pictureState =
      (.ok (.reference picture), pictureState) := by
  cases described with
  | false => rfl
  | true => rfl

theorem run_pictureCopy (described : Bool) : ∃ r s',
    (addUpdateObject_ (pictureCopy described) false).run pictureState = (.ok r, s') ∧
      r.data = some (copyColumns described) := by
  cases described with
  | false => exact ⟨_, _, rfl, by rfl⟩
  | true => exact ⟨_, _, rfl, by rfl⟩

/-- A copy with the description of the picture comes back with it. -/
theorem stored_restored_copy : ∃ o t',
    (createObjectFromRow (copyRow true)).run pictureState = (.ok o, t') ∧
      SameItem o (pictureCopy true) := by
  obtain ⟨r, s', hrun, hcols⟩ := run_pictureCopy true
  have hrow : WritesRow (copyColumns true) false (copyRow true).f := ⟨_, rfl⟩
  have hclass : LeavesClass (pictureCopy true) (.reference picture) := ⟨picture, rfl, rfl⟩
  refine (stored_restored rfl (List.cons_ne_nil _ _) ?_ (pictureCopy_reference true) hrun hcols
    hrow (Or.inl rfl) (by decide)).mpr ⟨?_, ?_, ?_, ?_, ?_, ?_, ?_, ?_, ?_, ?_⟩
  · intro r hr
    rw [List.mem_singleton.mp hr]
    unfold FitsInt
    decide
  · exact Option.some_ne_none _
  · exact fun _ => rfl
  · exact fun h => absurd hclass h
  · exact fun _ => by decide +kernel
  · exact fun _ => rfl
  · exact fun _ => ⟨[pictureResource], rfl, rfl⟩
  · rintro refObj ⟨⟩
    rfl
  · exact Option.some_ne_none _
  · decide
  · exact fun _ => rfl

/-- **The description of the picture shows through**: a copy without metadata comes back with it. -/
theorem cleared_metadata_returns : ∃ o t',
    (addUpdateObject_ (pictureCopy false) false).run pictureState =
      (.ok ⟨some (copyColumns false), pictureCopy false, none⟩, pictureState) ∧
    (createObjectFromRow (copyRow false)).run pictureState = (.ok o, t') ∧
      ¬ SameItem o (pictureCopy false) := by
  refine ⟨_, _, rfl, rfl, fun hsame => ?_⟩
  have hmetadata : (Dictionary.decode .empty (some (str "dc=Sea"))).equals Lib.Table.empty = true :=
    hsame.metadata
  revert hmetadata
  decide

end MediaTomb
