/-
  A logic of programs, method by method.

  A method is built from a few sections and a few larger blocks that only make sense as a whole (an
  INSERT with what the cache is told of it).  `Sections L` says that the logic `L` allows each of
  them.  The lemmas below then give `L.Holds m` for every method `m` but the removals, which delete
  rows and are treated on their own.

  Who wants an invariant of all runs proves the fields of `Sections` and is done with the methods.
-/
import MediaTomb.Storage.Ops

namespace MediaTomb

open Lib.Prog

/-! ## Statements that leave the shape of the objects alone -/

/-- A row without the two columns that statements rewrite in bulk. -/
def ObjectRow.shape (r : ObjectRow) : ObjectRow := { r with flags := 0, updateID := 0 }

section

variable {r r' : ObjectRow} (h : r.shape = r'.shape)

include h

theorem ObjectRow.id_of_shape : r.id = r'.id := by
  have hid := congrArg ObjectRow.id h
  exact hid

theorem ObjectRow.refID_of_shape : r.refID = r'.refID := by
  have href := congrArg ObjectRow.refID h
  exact href

theorem ObjectRow.parentID_of_shape : r.parentID = r'.parentID := by
  have hpar := congrArg ObjectRow.parentID h
  exact hpar

end

/-- `db'` differs from `db` in flags, update ids and autoscans only. -/
structure SameObjects (db db' : Database) : Prop where
  objects : db'.objects.rows.map ObjectRow.shape = db.objects.rows.map ObjectRow.shape
  activeItems : db'.activeItems = db.activeItems

/-- A fact that does not look at flags and update ids. -/
theorem SameObjects.exists_row {db db' : Database} (h : SameObjects db db') {r' : ObjectRow}
    (hr : r' ∈ db'.objects.rows) : ∃ r ∈ db.objects.rows, r.shape = r'.shape := by
  have hm : r'.shape ∈ db'.objects.rows.map ObjectRow.shape := List.mem_map_of_mem hr
  rw [h.objects] at hm
  exact List.mem_map.mp hm

theorem SameObjects.refl (db : Database) : SameObjects db db := ⟨rfl, rfl⟩

theorem SameObjects.symm {db db' : Database} (h : SameObjects db db') : SameObjects db' db :=
  ⟨h.objects.symm, h.activeItems.symm⟩

theorem sameObjects_updateObjects {db : Database} {f : ObjectRow → ObjectRow}
    {hf : ∀ r, (f r).id = r.id} (h : ∀ r, (f r).shape = r.shape) :
    SameObjects db (db.updateObjects f hf) := by
  refine ⟨?_, rfl⟩
  show (db.objects.rows.map f).map ObjectRow.shape = _
  rw [List.map_map]
  exact List.map_congr_left fun r _ => h r

theorem sameObjects_updateAutoscans {db db' : Database} {f : AutoscanRow → AutoscanRow}
    {hf : ∀ r, (f r).id = r.id} (h : db.updateAutoscans? f hf = some db') : SameObjects db db' := by
  obtain ⟨-, hobj, hact⟩ := Database.withAutoscans?_eq_some h
  exact ⟨by rw [hobj], hact⟩

theorem sameObjects_insertAutoscan {db db' : Database} {a : AutoscanRow}
    (h : db.insertAutoscan? a = some db') : SameObjects db db' := by
  obtain ⟨-, hobj, hact⟩ := Database.insertAutoscan?_eq_some h
  exact ⟨by rw [hobj], hact⟩

/-! ## What `_addUpdateObject` leaves of the object -/

theorem placeItem_obj {isUpdate : Bool} {obj : CdsObject} {hasReference : Option CdsObject}
    {cols : ObjectColumns} {r : ObjectColumns × CdsObject × Option Int}
    (h : Returns (placeItem isUpdate obj hasReference cols) r) :
    r.2.1 = { obj with parentID := r.2.1.parentID } := by
  unfold placeItem at h
  split at h
  · cases h
    rfl
  · split at h
    · cases h
    · cases h
    · split at h
      · obtain ⟨⟨path, name⟩, -, h⟩ := returns_bind h
        obtain ⟨⟨parentID, changed⟩, -, h⟩ := returns_bind h
        cases h
        rfl
      · cases h
        rfl

theorem placeObject_obj {isUpdate : Bool} {obj : CdsObject} {hasReference : Option CdsObject}
    {cols : ObjectColumns} {r : ObjectColumns × CdsObject × Option Int}
    (h : Returns (placeObject isUpdate obj hasReference cols) r) :
    r.2.1 = { obj with parentID := r.2.1.parentID } := by
  unfold placeObject at h
  split at h
  · split at h
    · cases h
    · cases h
      rfl
  · obtain ⟨⟨cols', obj', changed⟩, hplace, h⟩ := returns_bind h
    have hobj := placeItem_obj hplace
    cases h
    exact hobj

/-- It sets the parent, and clears one flag. -/
theorem addUpdateObject_obj {obj : CdsObject} {isUpdate : Bool} {r : AddUpdate}
    (h : Returns (addUpdateObject_ obj isUpdate) r) :
    r.obj = { obj.clearFlag objectFlagUseResourceRef with parentID := r.obj.parentID } := by
  obtain ⟨ref, -, h⟩ := returns_bind h
  obtain ⟨⟨cols, obj', changed⟩, hplace, h⟩ := returns_bind h
  obtain ⟨duplicates, -, h⟩ := returns_bind h
  have hobj := placeObject_obj hplace
  split at h
  · cases h
    exact hobj
  · split at h
    · cases h
    · cases h
      exact hobj

theorem addUpdateObject_id {obj : CdsObject} {isUpdate : Bool} {r : AddUpdate}
    (h : Returns (addUpdateObject_ obj isUpdate) r) : r.obj.id = obj.id := by
  rw [addUpdateObject_obj h]
  rfl

/-- `_addUpdateObject` may list these columns for the object, as it leaves it. -/
def AddUpdated (isUpdate : Bool) (cols : ObjectColumns) (obj : CdsObject) : Prop :=
  ∃ orig r, Returns (addUpdateObject_ orig isUpdate) r ∧ r.data = some cols ∧ r.obj = obj

/-- The columns put the object where it is. -/
theorem AddUpdated.parentID {isUpdate : Bool} {cols : ObjectColumns} {obj : CdsObject}
    (h : AddUpdated isUpdate cols obj) : cols.parentID = some obj.parentID := by
  obtain ⟨orig, r, hreturns, hdata, rfl⟩ := h
  obtain ⟨ref, -, hreturns⟩ := returns_bind hreturns
  obtain ⟨⟨cols', obj', changed⟩, -, hreturns⟩ := returns_bind hreturns
  obtain ⟨duplicates, -, hreturns⟩ := returns_bind hreturns
  split at hreturns
  · cases hreturns
    cases hdata
  · split at hreturns
    · cases hreturns
    · cases hreturns
      cases hdata
      rfl

/-! ## What a logic has to allow -/

variable {L : Logic StorageState Exception}

/-- The sections of the methods that write nothing but the cache. -/
structure QuerySections (L : Logic StorageState Exception) : Prop where
  flush : L.Holds flushInsertBuffer
  toCache : ∀ obj, L.Holds (addObjectToCache obj)

/-- ... and that make directories on the way. -/
structure DirectorySections (L : Logic StorageState Exception) : Prop extends QuerySections L where
  directory : ∀ parentID name path,
    L.Holds (createContainer parentID name path false none invalidObjectID)

/-- ... and of those that write no object of their own. -/
structure ReadSections (L : Logic StorageState Exception) : Prop extends QuerySections L where
  fsRootName : ∀ name, L.Holds (modify fun s => { s with fsRootName := name })
  objectType : ∀ id t, L.Holds (locked (publishObjectType id t))
  shape : ∀ f, (∀ db, SameObjects db (f db)) → L.Holds (exec f)
  shapeLocked : ∀ {α : Type} (m : Storage α),
    (∀ s, ∃ db, SameObjects s.db db ∧ (m.run s).2 = { s with db := db }) → L.Holds (locked m)

/-- ... and the blocks that insert, update or count. -/
structure Sections (L : Logic StorageState Exception) : Prop extends ReadSections L where
  createContainer : ∀ parentID name path isVirtual upnpClass refID,
    L.Holds (createContainer parentID name path isVirtual upnpClass refID)
  insertNewObject : ∀ cols obj, AddUpdated false cols obj → L.Holds (insertNewObject cols obj)
  writeObject : ∀ cols obj, AddUpdated true cols obj → isForbiddenCdsID obj.id = false →
    L.Holds (writeObject cols obj)
  fsRootRow : ∀ obj, L.Holds (exec ((fsRootColumns obj).update cdsIdFsRoot))
  childCount : ∀ contId containers items hideFsRoot,
    L.Holds (getChildCount contId containers items hideFsRoot)

theorem holds_ignore {α : Type} {m : Storage α} (h : L.Holds m) : L.Holds (Op.ignore m) :=
  L.holds_bind h fun _ => L.holds_pure _

/-! ## Methods that only ask -/

theorem holds_loadActiveItem (obj : CdsObject) : L.Holds (loadActiveItem obj) := by
  refine L.holds_bind (L.holds_read _) fun found => ?_
  rcases found with _ | row
  · exact L.holds_throw _
  · exact L.holds_pure _

theorem holds_pathIDsFrom :
    ∀ (fuel : Nat) (objectID : Int), L.Holds (pathIDsFrom fuel objectID) := by
  intro fuel
  induction fuel with
  | zero => exact fun objectID => L.holds_throw _
  | succ fuel ih =>
    intro objectID
    refine L.holds_ite (fun _ => L.holds_pure _) fun _ => L.holds_bind (L.holds_read _) fun found => ?_
    rcases found with _ | row
    · exact L.holds_pure _
    · exact L.holds_bind (ih _) fun _ => L.holds_pure _

theorem holds_getAutoscanObjectID (autoscanID : Int) :
    L.Holds (getAutoscanObjectID_ autoscanID) := by
  refine L.holds_bind (L.holds_read _) fun found => ?_
  rcases found with _ | row
  · exact L.holds_pure _
  · exact L.holds_pure _

theorem holds_getAutoscanDirectory (objectID : Int) : L.Holds (getAutoscanDirectory objectID) := by
  refine L.holds_bind (L.holds_read _) fun rows => ?_
  rcases rows with _ | ⟨row, rows⟩
  · exact L.holds_pure _
  · exact L.holds_pure _

theorem holds_getAutoscanDirectoryInfo (objectID : Int) (field : AutoscanRow → Bool) :
    L.Holds (getAutoscanDirectoryInfo_ objectID field) := by
  refine L.holds_ite (fun _ => L.holds_pure _) fun _ => L.holds_bind (L.holds_read _) fun rows => ?_
  rcases rows with _ | ⟨row, rows⟩
  · exact L.holds_pure _
  · exact L.holds_pure _

theorem holds_firstRecursive (ids : List Int) : L.Holds (firstRecursive ids) := by
  induction ids with
  | nil => exact L.holds_pure _
  | cons id ids ih =>
    refine L.holds_bind (holds_getAutoscanDirectoryInfo _ _) fun _ => ?_
    exact L.holds_ite (fun _ => L.holds_pure _) fun _ => ih

theorem holds_selectDuplicates (isUpdate : Bool) (obj : CdsObject)
    (hasReference : Option CdsObject) : L.Holds (selectDuplicates isUpdate obj hasReference) := by
  unfold selectDuplicates
  split
  · exact L.holds_read _
  · exact L.holds_pure _

/-- What is done under the cache lock, where there is a cache. -/
theorem holds_ifCache {α : Type} {m : Storage Unit} {n : Storage α} (hm : L.Holds (locked m))
    (hn : L.Holds n) :
    L.Holds (cacheOn >>= fun on => if on then locked m >>= fun _ => n else n) :=
  L.holds_bind (L.holds_read _) fun _ => L.holds_ite
    (fun _ => L.holds_bind hm fun _ => hn) fun _ => hn

/-! ## Methods that query -/

section

variable (h : QuerySections L)

include h

theorem holds_createObjectFromRow (row : Database.JoinedRow) :
    L.Holds (createObjectFromRow row) := by
  refine L.holds_bind (L.holds_ofExcept _) fun obj => ?_
  have hrest : ∀ obj, L.Holds (addObjectToCache obj >>= fun _ => (pure obj : Storage _)) :=
    fun obj => L.holds_bind (h.toCache obj) fun _ => L.holds_pure _
  split
  · exact L.holds_bind (holds_loadActiveItem obj) hrest
  · exact L.holds_bind (L.holds_pure _) hrest

theorem holds_createObjectsFromRows (rows : List Database.JoinedRow) :
    L.Holds (createObjectsFromRows rows) := by
  induction rows with
  | nil => exact L.holds_pure _
  | cons row rows ih =>
    exact L.holds_bind (holds_createObjectFromRow h row) fun _ => L.holds_bind ih fun _ => L.holds_pure _

theorem holds_loadObject (objectID : Int) : L.Holds (loadObject objectID) := by
  refine L.holds_bind (L.holds_read _) fun cached => ?_
  rcases cached with _ | obj
  · refine L.holds_bind (L.holds_read _) fun rows => ?_
    rcases rows with _ | ⟨row, rows⟩
    · exact L.holds_throw _
    · exact holds_createObjectFromRow h row
  · exact L.holds_pure _

theorem holds_loadObjectByServiceID (serviceID : Str) :
    L.Holds (loadObjectByServiceID serviceID) := by
  refine L.holds_bind h.flush fun _ => L.holds_bind (L.holds_read _) fun rows => ?_
  rcases rows with _ | ⟨row, rows⟩
  · exact L.holds_pure _
  · exact L.holds_bind (holds_createObjectFromRow h row) fun _ => L.holds_pure _

theorem holds_findObjectByPath (fullpath : Str) : L.Holds (findObjectByPath fullpath) := by
  refine L.holds_bind (L.holds_ofExcept _) fun dbLocation => L.holds_bind (L.holds_read _) fun cached => ?_
  rcases cached with _ | obj
  · refine L.holds_bind (L.holds_read _) fun rows => ?_
    rcases rows with _ | ⟨row, rows⟩
    · exact L.holds_pure _
    · exact L.holds_bind (holds_createObjectFromRow h row) fun _ => L.holds_pure _
  · exact L.holds_pure _

theorem holds_findObjectIDByPath (fullpath : Str) : L.Holds (findObjectIDByPath fullpath) := by
  refine L.holds_bind (holds_findObjectByPath h fullpath) fun found => ?_
  rcases found with _ | obj
  · exact L.holds_pure _
  · exact L.holds_pure _

theorem holds_locationObjectID (adir : AutoscanDirectory) : L.Holds (locationObjectID adir) :=
  L.holds_ite (fun _ => L.holds_pure _) fun _ => holds_findObjectIDByPath h _

theorem holds_checkRefID (obj : CdsObject) : L.Holds (checkRefID obj) := by
  unfold checkRefID
  refine L.holds_ite (fun _ => L.holds_throw _) fun _ => ?_
  split
  · exact L.holds_throw _
  · exact L.holds_throw _
  · refine L.holds_ite (fun _ => ?_) fun _ => holds_findObjectByPath h _
    refine L.holds_bind (L.holds_tryCatch (holds_loadObject h _) fun _ => L.holds_throw _) fun refObj => ?_
    exact L.holds_ite (fun _ => L.holds_pure _) fun _ => holds_findObjectByPath h _

theorem holds_resolveReference (obj : CdsObject) : L.Holds (resolveReference obj) := by
  unfold resolveReference
  refine L.holds_ite (fun _ => ?_) fun _ => L.holds_ite (fun _ => ?_) fun _ =>
    L.holds_ite (fun _ => ?_) fun _ => L.holds_pure _
  · refine L.holds_ite (fun _ => L.holds_throw _) fun _ => L.holds_ite (fun _ => L.holds_throw _) fun _ => ?_
    exact L.holds_bind (holds_loadObject h _) fun _ => L.holds_pure _
  · refine L.holds_bind (holds_checkRefID h obj) fun found => ?_
    rcases found with _ | refObj
    · exact L.holds_throw _
    · exact L.holds_pure _
  · refine L.holds_ite (fun _ => ?_) fun _ => L.holds_ite (fun _ => L.holds_pure _) fun _ => L.holds_throw _
    exact L.holds_bind (holds_loadObject h _) fun _ => L.holds_pure _

/-- A method that flushes and then asks one question. -/
theorem holds_flush_select {α : Type} (query : Database → α) :
    L.Holds (flushInsertBuffer >>= fun _ => select query) :=
  L.holds_bind h.flush fun _ => L.holds_read _

theorem holds_getObjects (parentID : Int) (withoutContainer : Bool) :
    L.Holds (getObjects parentID withoutContainer) :=
  L.holds_bind h.flush fun _ => L.holds_bind (L.holds_read _) fun _ => L.holds_pure _

theorem holds_getPathIDs (objectID : Int) : L.Holds (getPathIDs objectID) := by
  refine L.holds_bind h.flush fun _ => L.holds_ite (fun _ => L.holds_pure _) fun _ => ?_
  exact L.holds_bind (L.holds_read _) fun _ => L.holds_bind (holds_pathIDsFrom _ _) fun _ => L.holds_pure _

theorem holds_throwOverlap {α : Type} (objectID : Int) (e : Option Str → Exception) :
    L.Holds (throwOverlap objectID e : Storage α) :=
  L.holds_bind (holds_loadObject h objectID) fun _ => L.holds_throw _

theorem holds_checkAbove (objectID storageID : Int) : L.Holds (checkAbove objectID storageID) := by
  refine L.holds_bind (holds_getPathIDs h _) fun found => ?_
  rcases found with _ | pathIDs
  · exact L.holds_throw _
  · refine L.holds_bind (L.holds_read _) fun rows => ?_
    rcases rows with _ | ⟨row, rows⟩
    · exact L.holds_pure _
    · exact holds_throwOverlap h _ _

theorem holds_checkBelow (objectID storageID : Int) (recursive : Bool) :
    L.Holds (checkBelow objectID storageID recursive) := by
  refine L.holds_ite (fun _ => L.holds_bind (L.holds_read _) fun rows => ?_) fun _ => holds_checkAbove h _ _
  rcases rows with _ | ⟨row, rows⟩
  · exact holds_checkAbove h _ _
  · exact holds_throwOverlap h _ _

theorem holds_checkOverlappingAutoscans (adir : AutoscanDirectory) :
    L.Holds (checkOverlappingAutoscans_ adir) := by
  refine L.holds_ite (fun _ => L.holds_pure _) fun _ => L.holds_bind (L.holds_read _) fun rows => ?_
  rcases rows with _ | ⟨row, rows⟩
  · exact holds_checkBelow h _ _ _
  · exact holds_throwOverlap h _ _

theorem holds_isAutoscanChild (objectID : Int) : L.Holds (isAutoscanChild objectID) := by
  refine L.holds_bind (holds_getPathIDs h _) fun found => ?_
  rcases found with _ | ids
  · exact L.holds_pure _
  · exact holds_firstRecursive ids

/-- `getChildCount` after the look into the cache. -/
theorem holds_countChildren (hpublish : ∀ {contId : Int} (n : Int),
    L.Holds (locked (publishNumChildren contId n))) (contId : Int)
    (containers items hideFsRoot : Bool) (known : Option Int) : L.Holds (match known with
      | some numChildren => pure numChildren
      | none => do
        flushInsertBuffer
        let rows ← select fun db =>
          db.selectObjects (isCountedChild contId containers items hideFsRoot)
        let childCount : Int := rows.length
        if isCachedCount contId containers items hideFsRoot then
          if ← cacheOn then
            locked (publishNumChildren contId childCount)
        pure childCount) := by
  split
  · exact L.holds_pure _
  · refine L.holds_bind h.flush fun _ => L.holds_bind (L.holds_read _) fun rows => ?_
    refine L.holds_ite (fun _ => ?_) fun _ => L.holds_pure _
    exact holds_ifCache (hpublish _) (L.holds_pure _)

/-- `getChildCount`, where publishing a count is allowed. -/
theorem holds_getChildCount (hpublish : ∀ {contId : Int} (n : Int),
    L.Holds (locked (publishNumChildren contId n))) (contId : Int)
    (containers items hideFsRoot : Bool) :
    L.Holds (getChildCount contId containers items hideFsRoot) := by
  have hmiss := holds_countChildren h hpublish contId containers items hideFsRoot
  refine L.holds_ite (fun _ => L.holds_pure _) fun _ => ?_
  exact L.holds_ite (fun _ => L.holds_bind (L.holds_read _) hmiss)
    fun _ => L.holds_bind (L.holds_pure _) hmiss

/-- `createContainer`, where making a container is allowed. -/
theorem holds_createContainer {parentID : Int} {name path : Str} {isVirtual : Bool}
    {upnpClass : Option Str} {refID : Int} (hnew : L.Holds (do
      let newID ← getNextID
      execInsertObject (containerRow newID parentID name path isVirtual upnpClass refID)
      if ← cacheOn then
        locked (informCache newID parentID path)
      pure (newID : Int))) :
    L.Holds (createContainer parentID name path isVirtual upnpClass refID) :=
  L.holds_ite (fun _ => L.holds_bind (holds_loadObject h _) fun _ => hnew) fun _ => hnew

/-- `writeObject`, where its statements are allowed. -/
theorem holds_writeObject {cols : ObjectColumns} {obj : CdsObject}
    (hupdate : L.Holds (exec (cols.update obj.id)))
    (hactive : ∀ row : ActiveItemRow, row.id = obj.id →
      L.Holds (exec fun db => db.updateActiveItem row)) : L.Holds (writeObject cols obj) := by
  refine L.holds_bind hupdate fun _ => ?_
  split
  · exact L.holds_bind (hactive _ rfl) fun _ => h.toCache obj
  · exact h.toCache obj

end

/-! ## Methods that write no object of their own -/

section

variable (h : ReadSections L)

include h

theorem holds_setFsRootName (rootName : Option Str) : L.Holds (setFsRootName rootName) := by
  unfold setFsRootName
  refine L.holds_ite (fun _ => h.fsRootName _) fun _ => ?_
  exact L.holds_bind (holds_loadObject h.toQuerySections _) fun obj => h.fsRootName _

theorem holds_getFsRootName : L.Holds getFsRootName := by
  refine L.holds_bind (L.holds_read _) fun name => L.holds_ite (fun _ => L.holds_pure _) fun _ => ?_
  exact L.holds_bind (holds_setFsRootName h none) fun _ => L.holds_read _

theorem holds_browseObjectType (objectID : Int) : L.Holds (browseObjectType objectID) := by
  refine L.holds_bind (L.holds_read _) fun known => ?_
  rcases known with _ | t
  · refine L.holds_bind (L.holds_read _) fun rows => ?_
    rcases rows with _ | ⟨row, rows⟩
    · exact L.holds_throw _
    · refine L.holds_bind (L.holds_read _) fun on => ?_
      exact L.holds_ite (fun _ => L.holds_bind (h.objectType _ _) fun _ => L.holds_pure _)
        fun _ => L.holds_bind (L.holds_pure _) fun _ => L.holds_pure _
  · exact L.holds_pure _

theorem holds_exec? {f : Database → Option Database}
    (hf : ∀ db db', f db = some db' → SameObjects db db') : L.Holds (exec? f) := by
  refine h.shapeLocked _ fun s => ?_
  rw [run_get_bind]
  rcases hs : f s.db with _ | db
  · exact ⟨s.db, .refl _, rfl⟩
  · exact ⟨db, hf _ _ hs, rfl⟩

theorem holds_incrementUpdateIDs (ids : List Int) : L.Holds (incrementUpdateIDs ids) := by
  unfold incrementUpdateIDs
  refine L.holds_ite (fun _ => L.holds_pure _) fun _ => L.holds_bind (h.shape _ fun db => ?_) fun _ => ?_
  · refine sameObjects_updateObjects fun r => ?_
    split <;> rfl
  · exact L.holds_bind (L.holds_read _) fun rows =>
      L.holds_ite (fun _ => L.holds_pure _) fun _ => L.holds_pure _

theorem holds_clearFlagInDB (flag : UInt32) : L.Holds (clearFlagInDB flag) := by
  refine h.shape _ fun db => sameObjects_updateObjects fun r => ?_
  split <;> rfl

/-! ## Autoscans -/

theorem holds_autoscanChangePersistentFlag (objectID : Int) (persistent : Bool) :
    L.Holds (autoscanChangePersistentFlag_ objectID persistent) := by
  refine h.shape _ fun db => sameObjects_updateObjects fun r => ?_
  split <;> rfl

theorem holds_deleteAutoscans (p : AutoscanRow → Bool) :
    L.Holds (exec fun db => db.deleteAutoscans p) :=
  h.shape _ fun _ => ⟨rfl, rfl⟩

theorem holds_updateAutoscans {f : AutoscanRow → AutoscanRow} {hf : ∀ r, (f r).id = r.id} :
    L.Holds (exec? fun db => db.updateAutoscans? f hf) :=
  holds_exec? h fun _ _ hs => sameObjects_updateAutoscans hs

theorem holds_execInsertAutoscan (row : Int → AutoscanRow) : L.Holds (execInsertAutoscan row) := by
  refine h.shapeLocked _ fun s => ?_
  rw [run_get_bind]
  rcases hs : s.db.insertAutoscan? (row s.db.nextAutoscanID) with _ | db
  · simp only [hs]
    exact ⟨s.db, .refl _, rfl⟩
  · simp only [hs]
    exact ⟨db, sameObjects_insertAutoscan hs, rfl⟩

theorem holds_addAutoscanDirectory (adir : AutoscanDirectory) :
    L.Holds (addAutoscanDirectory adir) := by
  refine L.holds_ite (fun _ => L.holds_throw _) fun _ => ?_
  refine L.holds_bind (holds_locationObjectID h.toQuerySections adir) fun objectID => ?_
  refine L.holds_ite (fun _ => L.holds_throw _) fun _ => ?_
  refine L.holds_bind (holds_checkOverlappingAutoscans h.toQuerySections adir) fun _ => ?_
  exact L.holds_bind (holds_autoscanChangePersistentFlag h _ _) fun _ =>
    holds_execInsertAutoscan h _

theorem holds_updateAutoscanDirectory (adir : AutoscanDirectory) :
    L.Holds (updateAutoscanDirectory adir) := by
  refine L.holds_bind (holds_checkOverlappingAutoscans h.toQuerySections adir) fun _ => ?_
  refine L.holds_bind (holds_getAutoscanObjectID _) fun _ => ?_
  refine L.holds_ite (fun _ => ?_) fun _ => ?_
  · refine L.holds_bind (holds_autoscanChangePersistentFlag h _ _) fun _ => ?_
    exact L.holds_bind (holds_autoscanChangePersistentFlag h _ _) fun _ => holds_updateAutoscans h
  · exact holds_updateAutoscans h

theorem holds_removeAutoscanDirectoryByObjectID (objectID : Int) :
    L.Holds (removeAutoscanDirectoryByObjectID objectID) := by
  refine L.holds_ite (fun _ => L.holds_pure _) fun _ => ?_
  exact L.holds_bind (holds_deleteAutoscans h _) fun _ => holds_autoscanChangePersistentFlag h _ _

theorem holds_removeAutoscanDirectory (autoscanID : Int) :
    L.Holds (removeAutoscanDirectory autoscanID) := by
  refine L.holds_ite (fun _ => L.holds_pure _) fun _ => ?_
  refine L.holds_bind (holds_getAutoscanObjectID _) fun _ => ?_
  refine L.holds_bind (holds_deleteAutoscans h _) fun _ => ?_
  exact L.holds_ite (fun _ => holds_autoscanChangePersistentFlag h _ _) fun _ => L.holds_pure _

theorem holds_updatePersistentAutoscan (ad : AutoscanDirectory) :
    L.Holds (updatePersistentAutoscan ad) := by
  refine L.holds_ite (fun _ => L.holds_throw _) fun _ => ?_
  refine L.holds_bind (holds_findObjectIDByPath h.toQuerySections _) fun _ => L.holds_bind (L.holds_read _) fun rows => ?_
  rcases rows with _ | ⟨row, rows⟩
  · exact L.holds_bind (holds_addAutoscanDirectory h ad) fun _ => L.holds_pure _
  · exact holds_updateAutoscanDirectory h _

theorem holds_updatePersistentAutoscans (list : List AutoscanDirectory) :
    L.Holds (updatePersistentAutoscans list) := by
  induction list with
  | nil => exact L.holds_pure _
  | cons ad list ih => exact L.holds_bind (holds_updatePersistentAutoscan h ad) fun _ => ih

theorem holds_updateAutoscanPersistentList (scanmode : ScanMode) (list : List AutoscanDirectory) :
    L.Holds (updateAutoscanPersistentList scanmode list) := by
  refine L.holds_bind (holds_updateAutoscans h) fun _ => ?_
  exact L.holds_bind (holds_updatePersistentAutoscans h list) fun _ => holds_deleteAutoscans h _

theorem holds_fillAutoscanList (rows : List (AutoscanRow × Option Str)) :
    L.Holds (fillAutoscanList rows) := by
  induction rows with
  | nil => exact L.holds_pure _
  | cons row rows ih =>
    unfold fillAutoscanList
    split
    · exact L.holds_bind (holds_removeAutoscanDirectory h _) fun _ => ih
    · exact L.holds_bind ih fun _ => L.holds_pure _

end

/-! ## Methods that make directories -/

section

variable (h : DirectorySections L)

include h

theorem holds_ensurePathExistenceFrom :
    ∀ (fuel : Nat) (path : Str), L.Holds (ensurePathExistenceFrom fuel path) := by
  intro fuel
  induction fuel with
  | zero => exact fun path => L.holds_throw _
  | succ fuel ih =>
    intro path
    refine L.holds_ite (fun _ => L.holds_pure _) fun _ => L.holds_ite (fun _ => L.holds_pure _) fun _ => ?_
    refine L.holds_bind (holds_findObjectByPath h.toQuerySections _) fun found => ?_
    rcases found with _ | obj
    · refine L.holds_bind (L.holds_ofExcept _) fun _ => L.holds_bind (ih _) fun _ => ?_
      refine L.holds_bind (L.holds_read _) fun _ => L.holds_bind (L.holds_ofExcept _) fun _ => ?_
      exact L.holds_bind (h.directory _ _ _) fun _ => L.holds_pure _
    · exact L.holds_pure _

theorem holds_ensurePathExistence (path : Str) : L.Holds (ensurePathExistence path) :=
  holds_ensurePathExistenceFrom h _ path

theorem holds_placeItem (isUpdate : Bool) (obj : CdsObject) (hasReference : Option CdsObject)
    (cols : ObjectColumns) : L.Holds (placeItem isUpdate obj hasReference cols) := by
  unfold placeItem
  split
  · exact L.holds_pure _
  · split
    · exact L.holds_throw _
    · exact L.holds_throw _
    · refine L.holds_ite (fun _ => ?_) fun _ => L.holds_pure _
      refine L.holds_bind (L.holds_ofExcept _) fun _ => ?_
      exact L.holds_bind (holds_ensurePathExistence h _) fun _ => L.holds_pure _

theorem holds_placeObject (isUpdate : Bool) (obj : CdsObject) (hasReference : Option CdsObject)
    (cols : ObjectColumns) : L.Holds (placeObject isUpdate obj hasReference cols) := by
  unfold placeObject
  split
  · exact L.holds_ite (fun _ => L.holds_throw _) fun _ => L.holds_pure _
  · exact L.holds_bind (holds_placeItem h _ _ _ _) fun _ => L.holds_pure _

theorem holds_addUpdateObject (obj : CdsObject) (isUpdate : Bool) :
    L.Holds (addUpdateObject_ obj isUpdate) := by
  refine L.holds_bind (holds_resolveReference h.toQuerySections obj) fun ref => ?_
  refine L.holds_bind (holds_placeObject h _ _ _ _) fun placed => ?_
  refine L.holds_bind (holds_selectDuplicates _ _ _) fun rows => ?_
  exact L.holds_ite (fun _ => L.holds_pure _) fun _ => L.holds_ite (fun _ => L.holds_throw _) fun _ =>
    L.holds_pure _

end

/-! ## Writing methods -/

section

variable (h : Sections L)

include h

theorem Sections.toDirectories : DirectorySections L where
  toQuerySections := h.toQuerySections
  directory _ _ _ := h.createContainer _ _ _ _ _ _

theorem holds_addContainerChainFrom :
    ∀ (fuel : Nat) (path : Str) (lastClass : Option Str) (lastRefID : Int) (updateID : Option Int),
      L.Holds (addContainerChainFrom fuel path lastClass lastRefID updateID) := by
  intro fuel
  induction fuel with
  | zero => exact fun _ _ _ _ => L.holds_throw _
  | succ fuel ih =>
    intro path lastClass lastRefID updateID
    refine L.holds_ite (fun _ => L.holds_pure _) fun _ => L.holds_bind (L.holds_read _) fun rows => ?_
    rcases rows with _ | ⟨row, rows⟩
    · refine L.holds_bind (L.holds_ofExcept _) fun _ => L.holds_bind (ih _ _ _ _) fun _ => ?_
      exact L.holds_bind (h.createContainer _ _ _ _ _ _) fun _ => L.holds_pure _
    · exact L.holds_pure _

theorem holds_addContainerChain (path : Str) (lastClass : Option Str) (lastRefID : Int)
    (updateID : Option Int) : L.Holds (addContainerChain path lastClass lastRefID updateID) :=
  holds_addContainerChainFrom h _ path lastClass lastRefID updateID

theorem holds_addObject (obj : CdsObject) : L.Holds (addObject obj) := by
  refine L.holds_ite (fun _ => L.holds_throw _) fun _ => ?_
  refine L.holds_bind' (holds_addUpdateObject h.toDirectories obj false) fun r hr => ?_
  split
  · exact L.holds_pure _
  · next cols hcols =>
    exact L.holds_bind (h.insertNewObject _ _ ⟨obj, r, hr, hcols, rfl⟩) fun _ => L.holds_pure _

theorem holds_updateObject (obj : CdsObject) : L.Holds (updateObject obj) := by
  refine L.holds_bind h.flush fun _ => L.holds_ite (fun hroot => ?_) fun _ =>
    L.holds_ite (fun _ => L.holds_throw _) fun hforb => ?_
  · refine L.holds_bind (holds_setFsRootName h.toReadSections _) fun _ => ?_
    rw [hroot]
    refine L.holds_bind (h.fsRootRow obj) fun _ => ?_
    exact L.holds_bind (h.toCache obj) fun _ => L.holds_pure _
  · refine L.holds_bind' (holds_addUpdateObject h.toDirectories obj true) fun r hr => ?_
    split
    · exact L.holds_pure _
    · next cols hcols =>
      -- the object keeps its id on the way through `_addUpdateObject`
      refine L.holds_bind (h.writeObject _ _ ⟨obj, r, hr, hcols, rfl⟩ ?_) fun _ => L.holds_pure _
      rw [addUpdateObject_id hr]
      exact Bool.not_eq_true _ ▸ hforb

theorem holds_updateChildCounts (param : BrowseParam) (objs : List CdsObject) :
    L.Holds (updateChildCounts param objs) := by
  induction objs with
  | nil => exact L.holds_pure _
  | cons obj objs ih =>
    unfold updateChildCounts
    have hrest : ∀ obj, L.Holds (updateChildCounts param objs >>= fun objs =>
        (pure (obj :: objs) : Storage _)) := fun obj => L.holds_bind ih fun _ => L.holds_pure _
    split
    · exact L.holds_bind (h.childCount _ _ _ _) fun _ => L.holds_bind (L.holds_pure _) hrest
    · exact L.holds_bind (L.holds_pure _) hrest

theorem holds_browse (param : BrowseParam) : L.Holds (browse param) := by
  refine L.holds_bind h.flush fun _ => ?_
  refine L.holds_bind (holds_browseObjectType h.toReadSections _) fun t => ?_
  have hrest : ∀ totalMatches : Int, L.Holds (do
      let rows ← select (browseRows param (param.directChildren && isCdsContainer t))
      let arr ← createObjectsFromRows rows
      let arr ← updateChildCounts param arr
      pure (arr, totalMatches)) := fun _ =>
    L.holds_bind (L.holds_read _) fun _ =>
      L.holds_bind (holds_createObjectsFromRows h.toQuerySections _) fun _ =>
        L.holds_bind (holds_updateChildCounts h param _) fun _ => L.holds_pure _
  exact L.holds_ite (fun _ => L.holds_bind (h.childCount _ _ _ _) hrest)
    fun _ => L.holds_bind (L.holds_pure _) hrest

/-- **What holds of the sections holds of every call that removes nothing.** -/
theorem holds_op {op : Op} (hop : op.isRemoval = false) : L.Holds op.prog := by
  have hr := h.toReadSections
  cases op with
  | addObject obj => exact holds_ignore (holds_addObject h obj)
  | updateObject obj => exact holds_ignore (holds_updateObject h obj)
  | loadObject objectID => exact holds_ignore (holds_loadObject hr.toQuerySections objectID)
  | loadObjectByServiceID serviceID => exact holds_ignore (holds_loadObjectByServiceID hr.toQuerySections serviceID)
  | getServiceObjectIDs servicePrefix => exact holds_ignore (holds_flush_select hr.toQuerySections _)
  | browse param => exact holds_ignore (holds_browse h param)
  | getChildCount contId containers items hideFsRoot =>
    exact holds_ignore (h.childCount contId containers items hideFsRoot)
  | getMimeTypes => exact holds_ignore (holds_flush_select hr.toQuerySections _)
  | findObjectByPath fullpath => exact holds_ignore (holds_findObjectByPath hr.toQuerySections fullpath)
  | ensurePathExistence path => exact holds_ignore (holds_ensurePathExistence h.toDirectories path)
  | addContainerChain path lastClass lastRefID updateID =>
    exact holds_ignore (holds_addContainerChain h path lastClass lastRefID updateID)
  | getTotalFiles => exact holds_ignore (holds_flush_select hr.toQuerySections _)
  | incrementUpdateIDs ids => exact holds_ignore (holds_incrementUpdateIDs hr ids)
  | getObjects parentID withoutContainer =>
    exact holds_ignore (holds_getObjects hr.toQuerySections parentID withoutContainer)
  | removeObject objectID all => cases hop
  | removeObjects list all => cases hop
  | updateAutoscanPersistentList scanmode list =>
    exact holds_ignore (holds_updateAutoscanPersistentList hr scanmode list)
  | getAutoscanList scanmode =>
    exact holds_ignore (L.holds_bind (L.holds_read _) fun _ => holds_fillAutoscanList hr _)
  | getAutoscanDirectory objectID => exact holds_ignore (holds_getAutoscanDirectory objectID)
  | addAutoscanDirectory adir => exact holds_ignore (holds_addAutoscanDirectory hr adir)
  | updateAutoscanDirectory adir => exact holds_ignore (holds_updateAutoscanDirectory hr adir)
  | removeAutoscanDirectoryByObjectID objectID =>
    exact holds_ignore (holds_removeAutoscanDirectoryByObjectID hr objectID)
  | removeAutoscanDirectory autoscanID =>
    exact holds_ignore (holds_removeAutoscanDirectory hr autoscanID)
  | getAutoscanDirectoryType objectID =>
    exact holds_ignore (holds_getAutoscanDirectoryInfo objectID _)
  | isAutoscanDirectoryRecursive objectID =>
    exact holds_ignore (holds_getAutoscanDirectoryInfo objectID _)
  | isAutoscanChild objectID => exact holds_ignore (holds_isAutoscanChild hr.toQuerySections objectID)
  | autoscanUpdateLM adir => exact holds_ignore (holds_updateAutoscans hr)
  | checkOverlappingAutoscans adir => exact holds_ignore (holds_checkOverlappingAutoscans hr.toQuerySections adir)
  | getFsRootName => exact holds_ignore (holds_getFsRootName hr)
  | clearFlagInDB flag => exact holds_ignore (holds_clearFlagInDB hr flag)
  | shutdown => exact holds_ignore hr.flush

end

/-! ## The two loops of a removal -/

/-- The sections of a removal that write. -/
structure RemovalSections (L : Logic StorageState Exception) : Prop where
  delete : ∀ objectIDs, L.Holds (removeObjects_ objectIDs)
  clear : L.Holds (modifyCache StorageCache.clear)

section

variable (h : RemovalSections L)

include h

theorem holds_recursiveRemoveRound (all : Bool) (b : RemoveBuffers) (ch : ChangedContainers) :
    L.Holds (recursiveRemoveRound all b ch) := by
  refine L.holds_bind (L.holds_ite (fun _ => L.holds_pure _) fun _ =>
    L.holds_bind (L.holds_read _) fun _ => L.holds_pure _) fun p => ?_
  refine L.holds_bind (L.holds_ite (fun _ => L.holds_pure _) fun _ =>
    L.holds_bind (L.holds_read _) fun _ => L.holds_pure _) fun p => ?_
  refine L.holds_bind (L.holds_ite (fun _ => L.holds_pure _) fun _ =>
    L.holds_bind (L.holds_read _) fun _ => L.holds_pure _) fun b => ?_
  refine L.holds_bind (L.holds_ite (fun _ => ?_) fun _ => L.holds_pure _) fun _ => L.holds_pure _
  exact L.holds_bind (h.delete _) fun _ => L.holds_pure _

theorem holds_recursiveRemoveLoop (all : Bool) : ∀ (left : Nat) (b : RemoveBuffers)
    (ch : ChangedContainers), L.Holds (recursiveRemoveLoop all left b ch) := by
  intro left
  induction left with
  | zero =>
    intro b ch
    unfold recursiveRemoveLoop
    exact L.holds_ite (fun _ => L.holds_pure _) fun _ =>
      L.holds_bind (holds_recursiveRemoveRound h all b ch) fun _ => L.holds_throw _
  | succ left ih =>
    intro b ch
    unfold recursiveRemoveLoop
    exact L.holds_ite (fun _ => L.holds_pure _) fun _ =>
      L.holds_bind (holds_recursiveRemoveRound h all b ch) fun _ => ih _ _

/-- `_recursiveRemove` once it knows the containers it reports to the UI. -/
theorem holds_recursiveRemoveFrom (items containers : List Int) (all : Bool) (ui : List Int) :
    L.Holds (do
      let (b, ch) ← recursiveRemoveLoop all (maxRemoveRecursion + 1)
        (initialBuffers items containers) { ui := ui }
      if b.remove ≠ [] then
        removeObjects_ b.remove
      pure ch) := by
  refine L.holds_bind (holds_recursiveRemoveLoop h all _ _ _) fun p => ?_
  refine L.holds_ite (fun _ => ?_) fun _ => L.holds_pure _
  exact L.holds_bind (h.delete _) fun _ => L.holds_pure _

theorem holds_recursiveRemove (items containers : List Int) (all : Bool) :
    L.Holds (recursiveRemove_ items containers all) := by
  have hrest := holds_recursiveRemoveFrom h items containers all
  exact L.holds_ite (fun _ => L.holds_bind (L.holds_pure _) hrest) fun _ =>
    L.holds_bind (L.holds_read _) hrest

theorem holds_purgeRound (b : PurgeBuffers) (ch : ChangedContainers) :
    L.Holds (purgeRound b ch) := by
  refine L.holds_bind (L.holds_ite (fun _ => L.holds_pure _) fun _ =>
    L.holds_bind (L.holds_read _) fun _ => L.holds_pure _) fun p => ?_
  refine L.holds_bind (L.holds_ite (fun _ => L.holds_pure _) fun _ =>
    L.holds_bind (L.holds_read _) fun _ => L.holds_pure _) fun p => ?_
  refine L.holds_bind (L.holds_ite (fun _ => L.holds_pure _) fun _ => ?_) fun _ => L.holds_pure _
  exact L.holds_bind (h.delete _) fun _ => L.holds_pure _

theorem holds_purgeLoop : ∀ (left : Nat) (b : PurgeBuffers) (ch : ChangedContainers),
    L.Holds (purgeLoop left b ch) := by
  intro left
  induction left with
  | zero =>
    intro b ch
    unfold purgeLoop
    exact L.holds_bind (holds_purgeRound h b ch) fun _ => L.holds_throw _
  | succ left ih =>
    intro b ch
    unfold purgeLoop
    exact L.holds_bind (holds_purgeRound h b ch) fun _ =>
      L.holds_ite (fun _ => ih _ _) fun _ => L.holds_pure _

theorem holds_purgeEmptyContainers (ch : ChangedContainers) :
    L.Holds (purgeEmptyContainers_ ch) := by
  refine L.holds_ite (fun _ => L.holds_pure _) fun _ => ?_
  refine L.holds_bind (holds_purgeLoop h _ _ _) fun _ => ?_
  exact L.holds_bind h.clear fun _ => L.holds_pure _

end

/-! ## Frames on what is stored -/

variable {F : Frame StorageState}

/-- A frame that does not look at the cache and the counters. -/
structure HiddenSections (F : Frame StorageState) : Prop where
  hidden : ∀ s cache uncounted lastID fsRootName empty n bytes, F.rel s
    { s with
      cache := cache, uncounted := uncounted, lastID := lastID, fsRootName := fsRootName
      insertBufferEmpty := empty, insertBufferStatementCount := n, insertBufferByteCount := bytes }
  flush : Keeps F flushInsertBuffer

/-- A frame on the tables and the buffer: its sections are single statements. -/
structure StoredSections (F : Frame StorageState) : Prop extends HiddenSections F where
  shape : ∀ s db, SameObjects s.db db → F.rel s { s with db := db }
  insertObject : ∀ s row db, cdsIdFsRoot < row.id → s.db.insertObject? row = some db →
    F.rel s { s with db := db }
  activeItems : ∀ s t, F.rel s { s with db := { s.db with activeItems := t } }
  buffer : ∀ s q, (∀ row, q.objectRow? = some row → cdsIdFsRoot < row.id) →
    F.rel s { s with insertBuffer := s.insertBuffer ++ [q], buffered := s.buffered ++ [q] }
  update : ∀ s cols id, isForbiddenCdsID id = false →
    F.rel s { s with db := ObjectColumns.update cols id s.db }
  fsRootRow : ∀ obj s, F.rel s { s with db := (fsRootColumns obj).update cdsIdFsRoot s.db }

theorem keeps_ifCache {α : Type} {m : Storage Unit} {n : Storage α} (hm : Keeps F m)
    (hn : Keeps F n) :
    Keeps F (cacheOn >>= fun on => if on then locked m >>= fun _ => n else n) :=
  holds_ifCache (L := F.logic) (keeps_locked hm) hn

section

variable (h : HiddenSections F)

include h

theorem keeps_modifyCache (f : StorageCache → StorageCache) : Keeps F (modifyCache f) :=
  keeps_modify fun s => h.hidden s _ _ _ _ _ _ _

theorem keeps_addChild (parentID : Int) : Keeps F (addChild parentID) :=
  keeps_modify fun s => h.hidden s _ _ _ _ _ _ _

theorem keeps_flushIfFlushed : Keeps F flushIfFlushed := by
  refine keeps_bind (keeps_read _) fun s => ?_
  split
  · exact keeps_pure _
  · exact keeps_bind (keeps_modifyCache h _) fun _ =>
      keeps_ite (fun _ => h.flush) fun _ => keeps_pure _

theorem keeps_addObjectToCacheLocked (obj : CdsObject) : Keeps F (addObjectToCacheLocked obj) :=
  keeps_bind (keeps_modifyCache h _) fun _ => keeps_bind (keeps_flushIfFlushed h) fun _ =>
    keeps_modifyCache h _

theorem keeps_addObjectToCache (obj : CdsObject) : Keeps F (addObjectToCache obj) :=
  keeps_bind (keeps_read _) fun _ => keeps_ite
    (fun _ => keeps_locked (keeps_addObjectToCacheLocked h obj)) fun _ => keeps_pure _

theorem querySections_of_hidden : QuerySections F.logic where
  flush := h.flush
  toCache := keeps_addObjectToCache h

end

section

variable (h : StoredSections F)

include h

theorem readSections_of_stored : ReadSections F.logic where
  toQuerySections := querySections_of_hidden h.toHiddenSections
  fsRootName _ := keeps_modify fun s => h.hidden s _ _ _ _ _ _ _
  objectType _ _ := keeps_locked (keeps_bind (keeps_modifyCache h.toHiddenSections _) fun _ =>
    keeps_flushIfFlushed h.toHiddenSections)
  shape _ hf := keeps_modify fun s => h.shape s _ (hf s.db)
  shapeLocked m hm := keeps_locked fun s => by
    obtain ⟨db, hdb, hrun⟩ := hm s
    rw [hrun]
    exact h.shape s db hdb

theorem keeps_getNextID : Keeps F getNextID := by
  refine keeps_locked fun s => ?_
  rw [run_get_bind]
  split
  · exact F.refl s
  · exact h.hidden s _ _ _ _ _ _ _

theorem keeps_execInsertObject {row : ObjectRow} (hrow : cdsIdFsRoot < row.id) :
    Keeps F (execInsertObject row) := by
  refine keeps_locked fun s => ?_
  rw [run_get_bind]
  rcases hi : s.db.insertObject? row with _ | db
  · exact F.refl s
  · exact F.trans (h.insertObject s row db hrow hi) (h.hidden _ _ _ _ _ _ _ _)

theorem keeps_addToInsertBuffer {q : Statement}
    (hq : ∀ row, q.objectRow? = some row → cdsIdFsRoot < row.id) :
    Keeps F (addToInsertBuffer q) := by
  refine keeps_bind (keeps_modify fun s => F.trans (h.buffer s q hq) (h.hidden _ _ _ _ _ _ _ _))
    fun _ => keeps_locked ?_
  refine keeps_bind (keeps_modify fun s => h.hidden s _ _ _ _ _ _ _) fun _ => ?_
  exact keeps_bind (keeps_read _) fun _ => keeps_ite (fun _ => h.flush) fun _ => keeps_pure _

theorem keeps_insertOrBuffer {q : Statement}
    (hq : ∀ row, q.objectRow? = some row → cdsIdFsRoot < row.id) :
    Keeps F (insertOrBuffer q) := by
  refine keeps_bind (keeps_read _) fun _ => keeps_ite (fun _ => keeps_addToInsertBuffer h hq)
    fun _ => ?_
  cases q with
  | insertObject text row => exact keeps_execInsertObject h (hq row rfl)
  | insertActiveItem text row =>
    intro s
    rw [run_exec?]
    rcases hi : s.db.insertActiveItem? row with _ | db
    · exact F.refl s
    · unfold Database.insertActiveItem? at hi
      obtain ⟨t, -, rfl⟩ := Option.map_eq_some_iff.mp hi
      exact h.activeItems s t

theorem keeps_insertNewObject (cols : ObjectColumns) (obj : CdsObject) :
    Keeps F (insertNewObject cols obj) := by
  refine keeps_bind (keeps_getNextID h) fun id => ?_
  refine keeps_bind (keeps_insertOrBuffer h fun row hrow => ?_) fun _ => ?_
  · cases hrow
    exact id.property
  · have hcache : ∀ obj : CdsObject, Keeps F
        (cacheOn >>= fun on => if on then locked (addToCacheAsChild obj) >>= fun _ => pure obj
          else pure obj) := fun obj =>
      keeps_ifCache (keeps_bind (keeps_addChild h.toHiddenSections _) fun _ =>
        keeps_bind (keeps_flushIfFlushed h.toHiddenSections) fun _ => keeps_addObjectToCacheLocked h.toHiddenSections obj)
        (keeps_pure _)
    simp only
    split
    · exact keeps_bind (keeps_insertOrBuffer h fun row hrow => nomatch hrow) fun _ => hcache _
    · exact hcache _

theorem keeps_writeObject (cols : ObjectColumns) (obj : CdsObject)
    (hforb : isForbiddenCdsID obj.id = false) : Keeps F (writeObject cols obj) :=
  holds_writeObject (querySections_of_hidden h.toHiddenSections)
    (keeps_modify fun s => h.update s cols obj.id hforb)
    fun _ _ => keeps_modify fun s => h.activeItems s _

theorem keeps_createContainer (parentID : Int) (name path : Str) (isVirtual : Bool)
    (upnpClass : Option Str) (refID : Int) :
    Keeps F (createContainer parentID name path isVirtual upnpClass refID) := by
  have hhidden := h.toHiddenSections
  refine holds_createContainer (L := F.logic) (querySections_of_hidden hhidden) ?_
  refine keeps_bind (keeps_getNextID h) fun newID => ?_
  refine keeps_bind (keeps_execInsertObject h newID.property) fun _ => ?_
  refine keeps_ifCache (keeps_bind (keeps_addChild hhidden _) fun _ =>
    keeps_bind (keeps_flushIfFlushed hhidden) fun _ => keeps_bind (keeps_modifyCache hhidden _)
      fun _ => keeps_bind (keeps_flushIfFlushed hhidden) fun _ => keeps_modifyCache hhidden _)
      (keeps_pure _)

theorem keeps_getChildCount (contId : Int) (containers items hideFsRoot : Bool) :
    Keeps F (getChildCount contId containers items hideFsRoot) :=
  holds_getChildCount (querySections_of_hidden h.toHiddenSections)
    (fun _ => keeps_locked (keeps_bind (keeps_modifyCache h.toHiddenSections _) fun _ =>
      keeps_flushIfFlushed h.toHiddenSections)) _ _ _ _

/-- **A frame on what is stored allows every method.** -/
theorem sections_of_stored : Sections F.logic where
  toReadSections := readSections_of_stored h
  createContainer := keeps_createContainer h
  insertNewObject cols obj _ := keeps_insertNewObject h cols obj
  writeObject cols obj _ := keeps_writeObject h cols obj
  fsRootRow obj := keeps_modify fun s => h.fsRootRow obj s
  childCount := keeps_getChildCount h

end

end MediaTomb
