/-
  What holds of a storage between two calls, with a cache or without one.

    * KEYS are fresh, so that no INSERT is refused;
    * the last id has been LOADED, so that `getNextID` answers;
    * what the insert buffer holds are ITEMS: a container is inserted at once, and `addObject` takes
      no container.  So a query for a container by its location sees all there are, buffer or not.

  No call breaks any of it (`sound_runOps`), and a call that makes a container then returns
  (`createContainer_returns`).
-/
import MediaTomb.Storage.Deletes

namespace MediaTomb

open Lib.Prog

/-! ## The invariant -/

/-- A row of an item: it is no container, and what a look-up by location finds is a file. -/
structure IsItemRow (r : ObjectRow) : Prop where
  item : isCdsContainer r.objectType = false
  file : r.locationHash ≠ none → ∃ path, r.location = some (addLocationPrefix locFilePrefix path)

/-- What the insert buffer holds are items. -/
def ItemsBuffered (s : StorageState) : Prop := ∀ r ∈ s.bufferedRows, IsItemRow r

/-- The keys are fresh but for the reserved ones, ids can be given out, and items are buffered. -/
structure SoundWith (objs items : Multiset Int) (s : StorageState) : Prop where
  keys : FreshKeys objs items s
  loaded : cdsIdFsRoot ≤ s.lastID
  items : ItemsBuffered s

/-- **A storage between two calls**: no id is reserved. -/
abbrev Sound : StorageState → Prop := SoundWith 0 0

section

variable {objs items objs' items' : Multiset Int} {s s' : StorageState} {E : StorageState → Prop}

theorem Flushed.mem_bufferedRows (h : Flushed s s') : ∀ r ∈ s'.bufferedRows, r ∈ s.bufferedRows := by
  cases h with
  | same => exact fun r hr => hr
  | executed db h => exact fun r hr => nomatch hr

theorem SoundWith.flushed (h : SoundWith objs items s) (hf : Flushed s s') :
    SoundWith objs items s' := by
  refine ⟨h.keys.flushed hf, ?_, fun r hr => h.items r (hf.mem_bufferedRows r hr)⟩
  rw [hf.lastID]
  exact h.loaded

theorem SoundWith.mono (h : SoundWith objs items s) (hobjs : objs' ≤ objs)
    (hitems : items' ≤ items) : SoundWith objs' items' s :=
  ⟨h.keys.mono hobjs hitems, h.loaded, h.items⟩

/-- The cache, and what is owed to it, are not looked at. -/
theorem SoundWith.told (h : SoundWith objs items s) (cache : Option StorageCache)
    (uncounted : List Int) :
    SoundWith objs items { s with cache := cache, uncounted := uncounted } :=
  ⟨⟨h.keys.objects, h.keys.activeItems⟩, h.loaded, h.items⟩

/-- Other tables, with rows of the same ids. -/
theorem SoundWith.withDB (h : SoundWith objs items s) {db : Database}
    (hobj : db.objects.rows.map ObjectRow.id = s.db.objects.rows.map ObjectRow.id)
    (hact : db.activeItems.rows.map ActiveItemRow.id = s.db.activeItems.rows.map ActiveItemRow.id) :
    SoundWith objs items { s with db := db } := by
  refine ⟨h.keys.congr ?_ ?_ rfl, h.loaded, h.items⟩
  · unfold StorageState.objectIDs StorageState.rows StorageState.bufferedRows
    rw [List.map_append, List.map_append]
    simp only [hobj]
  · unfold StorageState.activeItemIDs StorageState.activeItemRows
    rw [List.map_append, List.map_append]
    simp only [hact]

/-! ## Sections under the cache lock

  None of them can throw: the flush meets fresh keys. -/

theorem sound_modifyCache (f : StorageCache → StorageCache) :
    Triple (SoundWith objs items) (modifyCache f) (fun _ => SoundWith objs items) E :=
  triple_modify fun _ hs => hs.told _ _

theorem sound_addChild (parentID : Int) :
    Triple (SoundWith objs items) (addChild parentID) (fun _ => SoundWith objs items) E :=
  triple_modify fun _ hs => hs.told _ _

theorem sound_flush :
    Triple (SoundWith objs items) flushInsertBuffer (fun _ => SoundWith objs items) E := by
  intro s hs
  obtain ⟨s', hrun, hf⟩ := hs.keys.run_flush
  rw [hrun]
  exact hs.flushed hf

theorem sound_flushIfFlushed :
    Triple (SoundWith objs items) flushIfFlushed (fun _ => SoundWith objs items) E := by
  apply triple_get_bind
  intro s hs
  rcases s.cache with _ | c
  · exact triple_pure fun s' hs' => hs' ▸ hs
  · refine triple_bind (triple_conseq (sound_modifyCache fun c => c.flushed.2)
      (fun s' hs' => hs' ▸ hs) (fun _ _ h => h) fun _ h => h) fun _ => ?_
    show Triple _ (if c.flushed.1 then flushInsertBuffer else pure ()) _ _
    split
    · exact sound_flush
    · exact triple_pure fun _ h => h

theorem sound_addObjectToCacheLocked (obj : CdsObject) :
    Triple (SoundWith objs items) (addObjectToCacheLocked obj)
      (fun _ => SoundWith objs items) E :=
  triple_bind (sound_modifyCache _) fun _ =>
    triple_bind sound_flushIfFlushed fun _ => sound_modifyCache _

theorem sound_addToCacheAsChild (obj : CdsObject) :
    Triple (SoundWith objs items) (addToCacheAsChild obj) (fun _ => SoundWith objs items) E :=
  triple_bind (sound_addChild _) fun _ =>
    triple_bind sound_flushIfFlushed fun _ => sound_addObjectToCacheLocked obj

theorem sound_informCache (newID parentID : Int) (path : Str) :
    Triple (SoundWith objs items) (informCache newID parentID path)
      (fun _ => SoundWith objs items) E :=
  triple_bind (sound_addChild _) fun _ => triple_bind sound_flushIfFlushed fun _ =>
    triple_bind (sound_modifyCache _) fun _ => triple_bind sound_flushIfFlushed fun _ =>
      sound_modifyCache _

/-- What is done under the cache lock, where there is a cache. -/
theorem sound_ifCache {α : Type} {m : Storage Unit} {n : Storage α} {Q : α → StorageState → Prop}
    (hm : Triple (SoundWith objs items) m (fun _ => SoundWith objs items) E)
    (hn : Triple (SoundWith objs items) n Q E) :
    Triple (SoundWith objs items)
      (cacheOn >>= fun on => if on then locked m >>= fun _ => n else n) Q E := by
  refine triple_bind (M := fun _ => SoundWith objs items) (triple_read fun _ h => h) fun on => ?_
  split
  · exact triple_bind (triple_locked hm) fun _ => hn
  · exact hn

/-! ## Rows that come -/

/-- An id is reserved; this is where the last id has to be loaded. -/
theorem SoundWith.getNextID (h : SoundWith objs items s) :
    ∃ id : {id : Int // cdsIdFsRoot < id},
      getNextID.run s = (.ok id, { s with lastID := s.lastID + 1 }) ∧
        SoundWith ((id : Int) ::ₘ objs) ((id : Int) ::ₘ items)
          { s with lastID := s.lastID + 1 } := by
  rcases h.keys.getNextID with ⟨e, hrun⟩ | ⟨id, -, hrun, hkeys⟩
  · unfold MediaTomb.getNextID at hrun
    rw [run_locked, run_get_bind, dif_neg (Int.not_lt.mpr h.loaded)] at hrun
    cases hrun
  · refine ⟨id, hrun, hkeys, ?_, h.items⟩
    have hloaded := h.loaded
    show cdsIdFsRoot ≤ s.lastID + 1
    omega

theorem sound_execInsertObject {row : ObjectRow} :
    Triple (SoundWith (row.id ::ₘ objs) items) (execInsertObject row)
      (fun _ => SoundWith objs items) E := by
  intro s hs
  obtain ⟨db, -, hrun, -, hkeys⟩ := hs.keys.run_execInsertObject
  rw [hrun]
  exact ⟨hkeys, hs.loaded, hs.items⟩

/-- The INSERT of an item, at once or buffered. -/
theorem sound_insertObject {text : Str} {row : ObjectRow} (hrow : IsItemRow row) :
    Triple (SoundWith (row.id ::ₘ objs) items) (insertOrBuffer (.insertObject text row))
      (fun _ => SoundWith objs items) E := by
  refine triple_bind (M := fun _ => SoundWith (row.id ::ₘ objs) items) (triple_read fun _ h => h)
    fun on => ?_
  split
  · intro s hs
    have hbuffered : SoundWith objs items (bufferedState (.insertObject text row) s) := by
      refine ⟨hs.keys.buffer_object, hs.loaded, fun r hr => ?_⟩
      have hin : r ∈ (s.insertBuffer ++ [Statement.insertObject text row]).filterMap
        Statement.objectRow? := hr
      rw [List.filterMap_append] at hin
      rcases List.mem_append.mp hin with hin | hin
      · exact hs.items r hin
      · rw [List.mem_singleton.mp (show r ∈ [row] from hin)]
        exact hrow
    obtain ⟨s', hrun, hf⟩ := hbuffered.keys.run_addToInsertBuffer
    rw [hrun]
    exact hbuffered.flushed hf
  · exact sound_execInsertObject

/-- The INSERT of an active item. -/
theorem sound_insertActiveItem {text : Str} {row : ActiveItemRow} :
    Triple (SoundWith objs (row.id ::ₘ items)) (insertOrBuffer (.insertActiveItem text row))
      (fun _ => SoundWith objs items) E := by
  refine triple_bind (M := fun _ => SoundWith objs (row.id ::ₘ items)) (triple_read fun _ h => h)
    fun on => ?_
  split
  · intro s hs
    have hbuffered : SoundWith objs items (bufferedState (.insertActiveItem text row) s) := by
      refine ⟨hs.keys.buffer_activeItem, hs.loaded, fun r hr => ?_⟩
      have hin : r ∈ (s.insertBuffer ++ [Statement.insertActiveItem text row]).filterMap
        Statement.objectRow? := hr
      rw [List.filterMap_append] at hin
      rcases List.mem_append.mp hin with hin | hin
      · exact hs.items r hin
      · cases hin
    obtain ⟨s', hrun, hf⟩ := hbuffered.keys.run_addToInsertBuffer
    rw [hrun]
    exact hbuffered.flushed hf
  · intro s hs
    obtain ⟨t, hins, hkeys⟩ := hs.keys.insertActiveItem?
    rw [run_exec?, hins]
    exact ⟨hkeys, hs.loaded, hs.items⟩

/-! ## What `addObject` buffers -/

theorem itemData_objectType {kind : CdsKind} {item : CdsItemData} (h : kind.itemData? = some item) :
    isCdsContainer kind.objectType = false := by
  cases kind with
  | container u c a => cases h
  | item d =>
    show isCdsContainer objectTypeItem = false
    decide
  | activeItem d a s =>
    show isCdsContainer (objectTypeItem ||| objectTypeActiveItem) = false
    decide
  | itemExternalURL d =>
    show isCdsContainer (objectTypeItem ||| objectTypeItemExternalURL) = false
    decide
  | itemInternalURL d =>
    show isCdsContainer
      (objectTypeItem ||| objectTypeItemExternalURL ||| objectTypeItemInternalURL) = false
    decide

/-- The columns of a new item: a location with a hash is that of a file. -/
theorem placeItem_location {obj : CdsObject} {hasReference : Option CdsObject}
    {cols : ObjectColumns} {r : ObjectColumns × CdsObject × Option Int}
    (h : Returns (placeItem false obj hasReference cols) r) :
    r.1.objectType = cols.objectType ∧ (r.1.locationHash.getD none ≠ none →
      ∃ path, r.1.location = some (some (addLocationPrefix locFilePrefix path))) := by
  unfold placeItem at h
  split at h
  · cases h
    exact ⟨rfl, fun hhash => absurd rfl hhash⟩
  · split at h
    · cases h
    · cases h
    · next loc _ _ =>
      split at h
      · obtain ⟨⟨path, name⟩, -, h⟩ := returns_bind h
        obtain ⟨⟨parentID, changed⟩, -, h⟩ := returns_bind h
        cases h
        exact ⟨rfl, fun _ => ⟨some loc, rfl⟩⟩
      · cases h
        exact ⟨rfl, fun hhash => absurd rfl hhash⟩

/-- **The row `addObject` inserts** is one of an item. -/
theorem isItemRow_of_addUpdated {cols : ObjectColumns} {obj : CdsObject}
    (h : AddUpdated false cols obj) (id : {id : Int // cdsIdFsRoot < id}) :
    IsItemRow (cols.insertRow id) := by
  obtain ⟨orig, r, hreturns, hdata, -⟩ := h
  obtain ⟨ref, -, hreturns⟩ := returns_bind hreturns
  obtain ⟨⟨cols', obj', changed⟩, hplace, hreturns⟩ := returns_bind hreturns
  obtain ⟨duplicates, -, hreturns⟩ := returns_bind hreturns
  have hcols : cols = { cols' with parentID := some obj'.parentID } := by
    split at hreturns
    · cases hreturns
      cases hdata
    · split at hreturns
      · cases hreturns
      · cases hreturns
        cases hdata
        rfl
  have hplaced : (∃ item, orig.kind.itemData? = some item) ∧
      cols'.objectType = some orig.objectType ∧ (cols'.locationHash.getD none ≠ none →
        ∃ path, cols'.location = some (some (addLocationPrefix locFilePrefix path))) := by
    unfold placeObject at hplace
    split at hplace
    · cases hplace
    · next item hitem =>
      obtain ⟨⟨cols₀, obj₀, changed₀⟩, hitemPlace, hplace⟩ := returns_bind hplace
      obtain ⟨htype, hlocation⟩ := placeItem_location hitemPlace
      cases hplace
      exact ⟨⟨item, hitem⟩, htype, hlocation⟩
  obtain ⟨⟨item, hitem⟩, htype, hlocation⟩ := hplaced
  subst hcols
  constructor
  · show isCdsContainer (cols'.objectType.getD 0) = false
    rw [htype]
    exact itemData_objectType hitem
  · intro hhash
    obtain ⟨path, hpath⟩ := hlocation hhash
    refine ⟨path, ?_⟩
    show cols'.location.getD none = _
    rw [hpath]
    rfl

theorem sound_insertNewObject {cols : ObjectColumns} {obj : CdsObject}
    (hcols : AddUpdated false cols obj) :
    Triple Sound (insertNewObject cols obj) (fun _ => Sound) Sound := by
  intro s hs
  unfold insertNewObject
  obtain ⟨id, hrun, hs'⟩ := hs.getNextID
  rw [run_bind_of_ok hrun]
  have hobject : Triple (SoundWith ((cols.insertRow id).id ::ₘ 0) ((id : Int) ::ₘ 0))
      (insertOrBuffer (insertObjectStatement cols id)) (fun _ => SoundWith 0 ((id : Int) ::ₘ 0))
      Sound := sound_insertObject (isItemRow_of_addUpdated hcols id)
  have hcache : Triple Sound
      (cacheOn >>= fun on => if on then locked (addToCacheAsChild { obj with id := id }) >>= fun _ =>
        (pure { obj with id := (id : Int) } : Storage CdsObject) else pure { obj with id := id })
      (fun _ => Sound) Sound :=
    sound_ifCache (sound_addToCacheAsChild _) (triple_pure fun _ h => h)
  refine triple_bind hobject (fun _ => ?_) _ hs'
  simp only
  split
  · next action state _ =>
    let item : ActiveItemRow := { id := id, action := action, state := state }
    have hitem : Triple (SoundWith 0 (item.id ::ₘ 0))
        (insertOrBuffer (insertActiveItemStatement id action state)) (fun _ => Sound) Sound :=
      sound_insertActiveItem
    exact triple_bind hitem fun _ => hcache
  · exact triple_conseq hcache (fun s h => h.mono (le_refl _) (Multiset.zero_le _))
      (fun _ _ h => h) fun _ h => h

/-! ## Containers -/

/-- Making a container, once its reference has been seen, cannot fail. -/
theorem sound_newContainer (parentID : Int) (name path : Str) (isVirtual : Bool)
    (upnpClass : Option Str) (refID : Int) :
    Triple Sound (do
      let newID ← getNextID
      execInsertObject (containerRow newID parentID name path isVirtual upnpClass refID)
      if ← cacheOn then
        locked (informCache newID parentID path)
      pure (newID : Int)) (fun _ => Sound) E := by
  intro s hs
  obtain ⟨id, hrun, hs'⟩ := hs.getNextID
  rw [run_bind_of_ok hrun]
  let row := containerRow id parentID name path isVirtual upnpClass refID
  have hreserved : SoundWith (row.id ::ₘ 0) 0 { s with lastID := s.lastID + 1 } :=
    hs'.mono (le_refl _) (Multiset.zero_le _)
  have hinsert : Triple (SoundWith (row.id ::ₘ 0) 0) (execInsertObject row) (fun _ => Sound) E :=
    sound_execInsertObject
  have hcache : Triple Sound (cacheOn >>= fun on => if on then
      locked (informCache id parentID path) >>= fun _ => (pure (id : Int) : Storage Int)
      else pure (id : Int)) (fun _ => Sound) E :=
    sound_ifCache (sound_informCache _ _ _) (triple_pure fun _ h => h)
  exact triple_bind hinsert (fun _ => hcache) _ hreserved

/-- **A container without a reference is made**, whatever its path. -/
theorem createContainer_returns (parentID : Int) (name path : Str) (isVirtual : Bool)
    (upnpClass : Option Str) {refID : Int} (h : Sound s) (href : refID ≤ 0) :
    ∃ id s', (createContainer parentID name path isVirtual upnpClass refID).run s = (.ok id, s') ∧
      Sound s' := by
  have hmade := sound_newContainer (E := fun _ => False) parentID name path isVirtual upnpClass refID
    s h
  unfold createContainer
  rw [if_neg (Int.not_lt.mpr href)]
  revert hmade
  split
  · next id s' hrun => exact fun hs' => ⟨id, s', hrun, hs'⟩
  · exact fun hfalse => hfalse.elim

/-! ## Every method -/

theorem sound_addObjectToCache (obj : CdsObject) :
    Keeps (Frame.inv Sound) (addObjectToCache obj) :=
  keeps_bind (keeps_read _) fun _ => keeps_ite
    (fun _ => keeps_locked (Triple.keeps (sound_addObjectToCacheLocked obj))) fun _ => keeps_pure _

/-- A write to the cache, and the flush where it was emptied. -/
theorem sound_writeCache (f : StorageCache → StorageCache) :
    Keeps (Frame.inv Sound) (do modifyCache f; flushIfFlushed) :=
  Triple.keeps (triple_bind (sound_modifyCache f) fun _ => sound_flushIfFlushed)

theorem sound_sameObjects (h : Sound s) {db : Database} (hdb : SameObjects s.db db) :
    Sound { s with db := db } := by
  refine h.withDB ?_ (by rw [hdb.activeItems])
  have hids := congrArg (List.map ObjectRow.id) hdb.objects
  rwa [List.map_map, List.map_map] at hids

theorem sound_updateObjects (h : Sound s) {f : ObjectRow → ObjectRow}
    {hf : ∀ r, (f r).id = r.id} : Sound { s with db := s.db.updateObjects f hf } := by
  refine h.withDB ?_ rfl
  show (s.db.objects.rows.map f).map ObjectRow.id = _
  rw [List.map_map]
  exact List.map_congr_left fun r _ => hf r

theorem querySections_sound : QuerySections (Frame.inv Sound).logic where
  flush := Triple.keeps sound_flush
  toCache := sound_addObjectToCache

theorem readSections_sound : ReadSections (Frame.inv Sound).logic where
  toQuerySections := querySections_sound
  fsRootName _ := keeps_modify fun _ hs =>
    ⟨⟨hs.keys.objects, hs.keys.activeItems⟩, hs.loaded, hs.items⟩
  objectType _ _ := keeps_locked (sound_writeCache _)
  shape _ hf := keeps_modify fun s hs => sound_sameObjects hs (hf s.db)
  shapeLocked m hm := keeps_locked fun s hs => by
    obtain ⟨db, hdb, hrun⟩ := hm s
    rw [hrun]
    exact sound_sameObjects hs hdb

theorem sections_sound : Sections (Frame.inv Sound).logic where
  toReadSections := readSections_sound
  createContainer _ _ _ _ _ _ := holds_createContainer querySections_sound
    (Triple.keeps (sound_newContainer _ _ _ _ _ _))
  insertNewObject _ _ hcols := Triple.keeps (sound_insertNewObject hcols)
  writeObject _ _ _ _ := holds_writeObject querySections_sound
    (keeps_modify fun _ hs => sound_updateObjects hs)
    fun row _ => keeps_modify fun s hs => hs.withDB rfl (by
      show (s.db.activeItems.rows.map _).map ActiveItemRow.id = _
      rw [List.map_map]
      refine List.map_congr_left fun r _ => ?_
      simp only [Function.comp]
      split
      · next heq => exact heq.symm
      · rfl)
  fsRootRow _ := keeps_modify fun _ hs => sound_updateObjects hs
  childCount := holds_getChildCount querySections_sound fun _ => keeps_locked (sound_writeCache _)

/-! ## Runs -/

theorem sound_removal (call : RemovalCall) (h : Sound s) : Sound (call.prog.run s).2 := by
  have hdel := call.deletes s
  have hflushed : Sound (flushInsertBuffer.run s).2 := Triple.final sound_flush h
  refine ⟨hflushed.keys.deletes hdel, ?_, ?_⟩
  · rw [hdel.lastID]
    exact hflushed.loaded
  · intro r hr
    rw [StorageState.bufferedRows, hdel.insertBuffer] at hr
    exact hflushed.items r hr

theorem sound_step (op : Op) (h : Sound s) : Sound (op.step s) := by
  rcases hrem : op.isRemoval with _ | _
  · exact holds_op sections_sound hrem s h
  · cases op with
    | removeObject objectID all =>
      have hstep := sound_removal (.removeObject objectID all) h
      unfold Op.step Op.prog
      rwa [run_ignore]
    | removeObjects list all =>
      have hstep := sound_removal (.removeObjects list all) h
      unfold Op.step Op.prog
      rwa [run_ignore]
    | _ => cases hrem

/-- **Every call leaves the storage sound.** -/
theorem sound_runOps (ops : List Op) (h : Sound s) : Sound (runOps ops s) := by
  induction ops generalizing s with
  | nil => exact h
  | cons op ops ih => exact ih (sound_step op h)

/-- `init` refuses a table without the PC directory. -/
theorem sound_started {db : Database} (howned : ActiveItemsOwned db)
    (hloaded : cdsIdFsRoot ≤ db.maxID) (cachingEnabled : Bool)
    (f2i : Str → Except Exception Str) : Sound (.started db cachingEnabled f2i) :=
  ⟨freshKeys_started howned cachingEnabled f2i, hloaded, fun _ hr => nomatch hr⟩

end

end MediaTomb
