/-
  `browse` of the direct children of a container.

  DATA.     the rows of the container's children; a client that asks for so many of them from some
            index on.
  PROGRAM.  the listing is one query, with ORDER BY and LIMIT; `totalMatches` is another, or the
            number of children that the cache knows.
  RESULT.   what comes back is the window of the listing that was asked for, and `totalMatches` is
            the length of the listing, EXACTLY when the indices are in order and the cache counts
            right (`browse_lists_iff`).  The pages, put together, are the listing.

  The indices are `int`s and go into the query as they are.  Sqlite takes a negative OFFSET for 0
  and a negative LIMIT for none.
-/
import MediaTomb.Storage.ChildCountCalls
import MediaTomb.Storage.KnownResources
import MediaTomb.Storage.Listing

namespace MediaTomb

open Lib.Prog

/-! ## A storage with nothing buffered -/

/-- The tables are these, a flush finds nothing to do, and the cache does not know the container
    that is browsed as anything else. -/
structure Idle (db : Database) (browsed : Int) (s : StorageState) : Prop where
  db : s.db = db
  nothing : s.insertBufferOn = false ∨ s.insertBufferEmpty = true
  container : ∀ t, cachedObjectType s browsed = some t → isCdsContainer t = true

/-- A write to the cache after which it knows the container as one, or as it did. -/
def TellsContainer (browsed : Int) (f : StorageCache → StorageCache) : Prop :=
  ∀ c t, (f c).field CacheObject.objectType browsed = some t →
    c.field CacheObject.objectType browsed = some t ∨ isCdsContainer t = true

section

variable {browsed : Int} {f g : StorageCache → StorageCache}

theorem TellsContainer.comp (hf : TellsContainer browsed f) (hg : TellsContainer browsed g) :
    TellsContainer browsed fun c => g (f c) := by
  intro c t h
  rcases hg (f c) t h with hold | hcontainer
  · exact hf c t hold
  · exact Or.inr hcontainer

theorem tellsContainer_flushed : TellsContainer browsed fun c => c.flushed.2 :=
  fun _ _ h => Or.inl h

theorem tellsContainer_getObjectDefinitely (browsed id : Int) :
    TellsContainer browsed fun c => (c.getObjectDefinitely id).2 :=
  fun _ _ h => Or.inl (StorageCache.field_getObjectDefinitely rfl h)

theorem tellsContainer_modifyObject {id : Int} {f : CacheObject → CacheObject}
    (hf : id = browsed → ∀ cObj t, (f cObj).objectType = some t →
      cObj.objectType = some t ∨ isCdsContainer t = true) :
    TellsContainer browsed fun c => c.modifyObject id f := by
  intro c t h
  rcases StorageCache.field_modifyObject h with ⟨heq, hnew⟩ | hold
  · rcases hf heq.symm _ t hnew with hold | hcontainer
    · unfold StorageCache.field
      rw [heq]
      cases hget : c.getObject id with
      | none =>
        rw [hget] at hold
        cases hold
      | some cObj =>
        rw [hget] at hold
        exact Or.inl hold
    · exact Or.inr hcontainer
  · exact Or.inl hold

end

section

variable {db : Database} {browsed : Int} {s s' : StorageState} {f : StorageCache → StorageCache}

theorem Idle.run_flush (h : Idle db browsed s) : flushInsertBuffer.run s = (.ok (), s) := by
  unfold flushInsertBuffer
  rw [run_locked, run_get_bind]
  rcases h.nothing with hoff | hempty
  · rw [hoff]
    rfl
  · rw [hempty]
    cases s.insertBufferOn with
    | false => rfl
    | true => rfl

/-- A flush that returns leaves the buffer empty, and the cache as it is. -/
theorem flush_ok (hrun : flushInsertBuffer.run s = (.ok (), s')) :
    (s'.insertBufferOn = false ∨ s'.insertBufferEmpty = true) ∧ s'.cache = s.cache := by
  rcases run_flushInsertBuffer s with ⟨hnothing, hsame⟩ | ⟨db, -, -, hdone⟩ |
    ⟨e, db, done, rest, -, -, -, herr⟩
  · rw [hsame] at hrun
    cases hrun
    exact ⟨hnothing, rfl⟩
  · rw [hdone] at hrun
    cases hrun
    exact ⟨Or.inr rfl, rfl⟩
  · rw [herr] at hrun
    cases hrun

theorem cachedObjectType_eq {c : StorageCache} (h : s.cache = some c) (i : Int) :
    cachedObjectType s i = c.field CacheObject.objectType i := by
  unfold cachedObjectType
  rw [h]
  rfl

theorem Idle.told (h : Idle db browsed s) (hf : TellsContainer browsed f) :
    Idle db browsed { s with cache := s.cache.map f } := by
  refine ⟨h.db, h.nothing, ?_⟩
  intro t ht
  cases hcache : s.cache with
  | none =>
    simp only [cachedObjectType, hcache] at ht
    cases ht
  | some c =>
    have htold : (f c).field CacheObject.objectType browsed = some t :=
      (cachedObjectType_eq (by simp only [hcache, Option.map_some]) browsed).symm.trans ht
    rcases hf c t htold with hold | hcontainer
    · exact h.container t ((cachedObjectType_eq hcache browsed).trans hold)
    · exact hcontainer

theorem Idle.run_flushIfFlushed (h : Idle db browsed s) :
    flushIfFlushed.run s = (.ok (), { s with cache := s.cache.map fun c => c.flushed.2 }) := by
  unfold flushIfFlushed
  rw [run_get_bind]
  cases hcache : s.cache with
  | none =>
    have hsame : { s with cache := none } = s := by rw [← hcache]
    exact congrArg (Prod.mk _) hsame.symm
  | some c =>
    have hwritten : (modifyCache fun c => c.flushed.2).run s
        = (.ok (), { s with cache := s.cache.map fun c => c.flushed.2 }) := rfl
    show (modifyCache _ >>= fun _ => if c.flushed.1 then flushInsertBuffer else pure ()).run s = _
    rw [run_bind_of_ok hwritten, ← hcache]
    split
    · exact (h.told tellsContainer_flushed).run_flush
    · rfl

/-- A write to the cache, and the flush after it. -/
theorem Idle.run_writeCache (h : Idle db browsed s) (f : StorageCache → StorageCache)
    (hf : TellsContainer browsed f) :
    (do modifyCache f; flushIfFlushed : Storage Unit).run s =
      (.ok (), { s with cache := s.cache.map fun c => (f c).flushed.2 }) := by
  have hwritten : (modifyCache f).run s = (.ok (), { s with cache := s.cache.map f }) := rfl
  rw [run_bind_of_ok hwritten, (h.told hf).run_flushIfFlushed]
  simp only [Option.map_map]
  rfl

theorem Idle.run_addObjectToCache (h : Idle db browsed s) {obj : CdsObject}
    (hobj : obj.id = browsed → isCdsContainer obj.objectType = true) :
    ∃ s', (addObjectToCache obj).run s = (.ok (), s') ∧ Idle db browsed s' := by
  have hmade := tellsContainer_getObjectDefinitely browsed obj.id
  have hset : TellsContainer browsed fun c =>
      c.modifyObject obj.id fun cObj => cObj.setObject obj :=
    tellsContainer_modifyObject fun heq cObj t ht => Or.inr (by
      rw [← Option.some.inj ht]
      exact hobj heq)
  have hfiled : TellsContainer browsed fun c =>
      (c.store obj.id (((c.getObject obj.id).getD {}).setObject obj)).checkLocation obj.id
        (((c.getObject obj.id).getD {}).setObject obj) := by
    intro c t ht
    unfold StorageCache.field at ht
    rw [StorageCache.getObject_checkLocation] at ht
    exact hset c t ht
  unfold addObjectToCache cacheOn
  rw [run_read_bind]
  split
  · have hwritten := h.told hmade
    have hrun : (modifyCache fun c => (c.getObjectDefinitely obj.id).2).run s
        = (.ok (), { s with cache := s.cache.map fun c => (c.getObjectDefinitely obj.id).2 }) := rfl
    refine ⟨_, ?_, (hwritten.told tellsContainer_flushed).told hfiled⟩
    rw [run_locked]
    unfold addObjectToCacheLocked
    rw [run_bind_of_ok hrun, run_bind_of_ok hwritten.run_flushIfFlushed]
    rfl
  · exact ⟨s, rfl, h⟩

/-! ## The two counts -/

/-- The number of children that `getChildCount` finds in the cache. -/
def knownCount (s : StorageState) (contId : Int) (containers items hideFsRoot : Bool) :
    Option Int :=
  if isCachedCount contId containers items hideFsRoot then cachedNumChildren s contId else none

/-- What `getChildCount` says: what the cache knows, or how many rows there are. -/
def countSaid (s : StorageState) (contId : Int) (containers items hideFsRoot : Bool) : Int :=
  (knownCount s contId containers items hideFsRoot).getD
    (countedChildren s.db.objects.rows contId containers items hideFsRoot)

theorem Idle.run_getChildCount (h : Idle db browsed s) (contId : Int)
    (containers items hideFsRoot : Bool) :
    ∃ s', (getChildCount contId containers items hideFsRoot).run s =
      (.ok (countSaid s contId containers items hideFsRoot), s') ∧ Idle db browsed s' := by
  unfold getChildCount countSaid countedChildren knownCount
  by_cases hnone : (!containers && !items) = true
  · rw [if_pos hnone, if_pos hnone]
    refine ⟨s, ?_, h⟩
    have hcached : isCachedCount contId containers items hideFsRoot = false := by
      unfold isCachedCount
      revert hnone
      cases containers <;> cases items <;> simp
    rw [hcached]
    rfl
  · rw [if_neg hnone, if_neg hnone]
    by_cases hcached : isCachedCount contId containers items hideFsRoot = true
    · simp only [hcached, if_true]
      rw [run_read_bind]
      rcases hknown : cachedNumChildren s contId with _ | n
      · simp only [run_bind_of_ok h.run_flush, select, cacheOn, run_read_bind,
          Database.selectObjects]
        split
        · have hnumber : TellsContainer browsed fun c => c.modifyObject contId fun cObj =>
              { cObj with numChildren := some ((s.db.objects.rows.filter
                (isCountedChild contId containers items hideFsRoot)).length : Int) } :=
            tellsContainer_modifyObject fun _ _ _ ht => Or.inl ht
          have hf := (tellsContainer_getObjectDefinitely browsed contId).comp hnumber
          have hwrite := (run_locked _ s).trans (h.run_writeCache _ hf)
          exact ⟨_, run_bind_of_ok hwrite, h.told (hf.comp tellsContainer_flushed)⟩
        · exact ⟨s, rfl, h⟩
      · exact ⟨s, rfl, h⟩
    · simp only [hcached, Bool.false_eq_true, if_false]
      simp only [run_pure_bind, run_bind_of_ok h.run_flush, select, run_read_bind,
        Database.selectObjects]
      exact ⟨s, rfl, h⟩

/-! ## The type of the object -/

/-- The table has the row of a container. -/
def ContainerRow (db : Database) (id : Int) : Prop :=
  ∃ r ∈ db.objects.rows, r.id = id ∧ isCdsContainer r.objectType = true

theorem ContainerRow.of_id_eq {r : ObjectRow} {id : Int} (h : ContainerRow db id)
    (hr : r ∈ db.objects.rows) (hid : r.id = id) : isCdsContainer r.objectType = true := by
  obtain ⟨r', hr', hid', htype⟩ := h
  rw [db.objects.eq_of_key_eq hr hr' (hid.trans hid'.symm)]
  exact htype

/-- Writing the type down leaves the number of children as it was. -/
theorem numChildren_writeType {c : StorageCache} (id : Int) (t : UInt32) :
    ((c.getObjectDefinitely id).2.modifyObject id fun cObj =>
      { cObj with objectType := some t }).numChildren id = c.numChildren id := by
  have hwithin : ((c.getObjectDefinitely id).2.modifyObject id fun cObj =>
      { cObj with objectType := some t }).CountsWithin c :=
    StorageCache.CountsWithin.trans (StorageCache.countsWithin_modifyObject fun _ => rfl)
      (StorageCache.countsWithin_getObjectDefinitely _)
  cases hnew : ((c.getObjectDefinitely id).2.modifyObject id fun cObj =>
      { cObj with objectType := some t }).numChildren id with
  | some n => exact (hwithin id n hnew).symm
  | none =>
    cases hold : c.numChildren id with
    | none => rfl
    | some n =>
      -- the cache object is there already
      unfold StorageCache.numChildren at hold
      obtain ⟨cObj, hget, hnum⟩ := Option.bind_eq_some_iff.mp hold
      have hsame : (c.getObjectDefinitely id).2 = c := by
        unfold StorageCache.getObjectDefinitely
        rw [hget]
      rw [hsame] at hnew
      unfold StorageCache.modifyObject at hnew
      cases hmark : isMarkerID id with
      | true =>
        rw [StorageCache.store_marker hmark] at hnew
        unfold StorageCache.numChildren at hnew
        rw [hget] at hnew
        exact hnew.symm.trans hnum
      | false =>
        rw [StorageCache.numChildren_store_self hmark, hget] at hnew
        exact hnew.symm.trans hnum

/-- The type is a container's, and the count that is known stays known. -/
theorem Idle.run_browseObjectType (h : Idle db browsed s) (hrow : ContainerRow db browsed) :
    ∃ t s', (browseObjectType browsed).run s = (.ok t, s') ∧ isCdsContainer t = true ∧
      Idle db browsed s' ∧ cachedNumChildren s' browsed = cachedNumChildren s browsed := by
  unfold browseObjectType
  rw [run_read_bind]
  cases hknown : cachedObjectType s browsed with
  | some t => exact ⟨t, s, rfl, h.container t hknown, h, rfl⟩
  | none =>
    simp only [select, run_read_bind, cacheOn, h.db]
    cases hrows : db.selectObjects fun r => r.id = browsed with
    | nil =>
      obtain ⟨r, hr, hid, -⟩ := hrow
      have hin : r ∈ db.selectObjects fun r => r.id = browsed :=
        List.mem_filter.mpr ⟨hr, decide_eq_true hid⟩
      rw [hrows] at hin
      cases hin
    | cons row rest =>
      have hin : row ∈ db.selectObjects fun r => r.id = browsed := by
        rw [hrows]
        exact List.mem_cons_self
      obtain ⟨hin, hid⟩ := List.mem_filter.mp hin
      have htype := hrow.of_id_eq hin (of_decide_eq_true hid)
      simp only [run_read_bind]
      cases hcache : s.cache with
      | none => exact ⟨row.objectType, s, rfl, htype, h, rfl⟩
      | some c =>
        simp only [Option.isSome_some, if_true]
        have hwrite : TellsContainer browsed fun c => c.modifyObject browsed fun cObj =>
            { cObj with objectType := some row.objectType } :=
          tellsContainer_modifyObject fun _ _ t ht => Or.inr (by
            rw [← Option.some.inj ht]
            exact htype)
        have hf := (tellsContainer_getObjectDefinitely browsed browsed).comp hwrite
        have hrun := (run_locked _ s).trans (h.run_writeCache _ hf)
        refine ⟨row.objectType, _, run_bind_of_ok hrun, htype,
          h.told (hf.comp tellsContainer_flushed), ?_⟩
        rw [cachedNumChildren_eq hcache, ← numChildren_writeType browsed row.objectType]
        simp only [hcache]
        rfl

/-! ## The objects -/

/-- What is read of a container's row is a container. -/
theorem toObject_container {joined : Database.JoinedRow} {obj : CdsObject}
    (h : joined.toObject = .ok obj) (htype : isCdsContainer joined.f.objectType = true) :
    ∃ updateID childCount autoscanType,
      obj.kind = .container updateID childCount autoscanType := by
  have hcreate : CdsObject.createObject joined.f.objectType = .ok
      { upnpClass := some CdsObject.upnpDefaultClassContainer
        kind := .container 0 (-1) objectAutoscanNone } := if_pos htype
  unfold Database.JoinedRow.toObject at h
  simp only [hcreate, bind, Except.bind] at h
  rcases hdecode : decodeResources
      (splitString (joined.fallback ObjectRow.resources) resourceSep false) with e | resources
  · rw [hdecode] at h
    cases h
  · simp only [hdecode, htype, if_true] at h
    split_ifs at h
    · cases h
      exact ⟨_, _, _, rfl⟩
    · cases h
      exact ⟨_, _, _, rfl⟩

theorem isCdsContainer_container (updateID childCount autoscanType : Int) :
    isCdsContainer (CdsKind.container updateID childCount autoscanType).objectType = true := by
  show isCdsContainer objectTypeContainer = true
  decide

/-- **A readable row** becomes an object with its id. -/
theorem Idle.run_createObjectFromRow (h : Idle db browsed s) (hrow : ContainerRow db browsed)
    {r : ObjectRow} {obj : CdsObject} (hr : r ∈ db.objects.rows)
    (hread : (db.join r).toObject = .ok obj)
    (hactive : isCdsActiveItem r.objectType = true → ∃ a, db.activeItems.find? r.id = some a) :
    ∃ obj' s', (createObjectFromRow (db.join r)).run s = (.ok obj', s') ∧ obj'.id = r.id ∧
      Idle db browsed s' := by
  have hid : obj.id = r.id := (toObject_resources hread).1
  have hcontainer : obj.id = browsed → isCdsContainer obj.objectType = true := by
    intro heq
    obtain ⟨u, n, a, hkind⟩ := toObject_container hread (hrow.of_id_eq hr (hid.symm.trans heq))
    unfold CdsObject.objectType
    rw [hkind]
    exact isCdsContainer_container u n a
  have hcached : ∀ o : CdsObject, o.id = r.id →
      (o.id = browsed → isCdsContainer o.objectType = true) → ∃ o' s',
      (addObjectToCache o >>= fun _ => (pure o : Storage CdsObject)).run s = (.ok o', s') ∧
        o'.id = r.id ∧ Idle db browsed s' := by
    intro o ho hcontainer
    obtain ⟨s', hrun, h'⟩ := h.run_addObjectToCache hcontainer
    rw [run_bind_of_ok hrun]
    exact ⟨o, s', rfl, ho, h'⟩
  unfold createObjectFromRow
  rw [hread, ofExcept_ok_bind]
  have hwhere : (db.join r).f.objectType = r.objectType := rfl
  by_cases htype : isCdsActiveItem r.objectType = true
  · obtain ⟨a, ha⟩ := hactive htype
    simp only [hwhere, htype, if_true]
    have hload : ∃ o, (loadActiveItem obj).run s = (.ok o, s) ∧ o.id = obj.id ∧
        (o.kind = obj.kind ∨ ∀ u n t, obj.kind ≠ .container u n t) := by
      unfold loadActiveItem select
      rw [run_read_bind, h.db]
      simp only [hid, ha]
      refine ⟨_, rfl, rfl, ?_⟩
      cases obj.kind with
      | activeItem data action state => exact Or.inr fun u n t => CdsKind.noConfusion
      | _ => exact Or.inl rfl
    obtain ⟨o, hload, hoid, hkinds⟩ := hload
    rw [run_bind_of_ok hload]
    refine hcached o (hoid.trans hid) fun heq => ?_
    obtain ⟨u, n, t, hkind⟩ :=
      toObject_container hread (hrow.of_id_eq hr ((hoid.trans hid).symm.trans heq))
    rcases hkinds with hsame | hother
    · unfold CdsObject.objectType
      rw [hsame, hkind]
      exact isCdsContainer_container u n t
    · exact absurd hkind (hother u n t)
  · simp only [hwhere, htype, Bool.false_eq_true, if_false]
    rw [run_pure_bind]
    exact hcached obj hid hcontainer

theorem Idle.run_createObjectsFromRows (h : Idle db browsed s) (hrow : ContainerRow db browsed)
    (hlist : Listable db browsed) (rows : List ObjectRow)
    (hrows : ∀ r ∈ rows, r ∈ db.objects.rows ∧ r.parentID = browsed) :
    ∃ objs s', (createObjectsFromRows (rows.map db.join)).run s = (.ok objs, s') ∧
      objs.map CdsObject.id = rows.map ObjectRow.id ∧ Idle db browsed s' := by
  induction rows generalizing s with
  | nil => exact ⟨[], s, rfl, rfl, h⟩
  | cons r rows ih =>
    obtain ⟨hr, hparent⟩ := hrows r List.mem_cons_self
    obtain ⟨obj, hobj⟩ := hlist.readable r hr hparent
    obtain ⟨obj', s', hrun, hid, h'⟩ :=
      h.run_createObjectFromRow hrow hr hobj (hlist.active r hr hparent)
    obtain ⟨objs, s'', hrest, hids, h''⟩ :=
      ih h' fun r' hr' => hrows r' (List.mem_cons_of_mem r hr')
    refine ⟨obj' :: objs, s'', ?_, ?_, h''⟩
    · rw [List.map_cons, createObjectsFromRows, run_bind_of_ok hrun, run_bind_of_ok hrest]
      rfl
    · rw [List.map_cons, List.map_cons, hid, hids]

/-- The counts of the children are written into the objects; nothing else. -/
theorem Idle.run_updateChildCounts (h : Idle db browsed s) (param : BrowseParam)
    (objs : List CdsObject) :
    ∃ objs' s', (updateChildCounts param objs).run s = (.ok objs', s') ∧
      objs'.map CdsObject.id = objs.map CdsObject.id ∧ Idle db browsed s' := by
  induction objs generalizing s with
  | nil => exact ⟨[], s, rfl, rfl, h⟩
  | cons obj objs ih =>
    have hrest : ∀ (obj' : CdsObject) (s' : StorageState), obj'.id = obj.id → Idle db browsed s' →
        ∃ objs' s'', (updateChildCounts param objs >>= fun objs =>
          (pure (obj' :: objs) : Storage (List CdsObject))).run s' = (.ok objs', s'') ∧
            objs'.map CdsObject.id = (obj :: objs).map CdsObject.id ∧ Idle db browsed s'' := by
      intro obj' s' hid h'
      obtain ⟨objs', s'', hrest, hids, h''⟩ := ih h'
      refine ⟨obj' :: objs', s'', ?_, ?_, h''⟩
      · rw [run_bind_of_ok hrest]
        rfl
      · rw [List.map_cons, List.map_cons, hid, hids]
    unfold updateChildCounts
    split
    · obtain ⟨s', hrun, h'⟩ :=
        h.run_getChildCount obj.id param.containers param.items param.hideFsRoot
      rw [run_bind_of_ok hrun, run_pure_bind]
      exact hrest _ s' rfl h'
    · rw [run_pure_bind]
      exact hrest obj s rfl h

end

/-! ## The call -/

section

variable {param : BrowseParam} {db : Database} {s s₀ : StorageState} {l : List ObjectRow}

theorem map_browseLimit {α β : Type} (f : α → β) (rows : List α) :
    browseLimit param (rows.map f) = (browseLimit param rows).map f := by
  unfold browseLimit limitOffset
  split_ifs <;> simp only [List.map_drop, List.map_take]

theorem mem_of_mem_browseLimit {α : Type} {rows : List α} {x : α} (h : x ∈ browseLimit param rows) :
    x ∈ rows := by
  unfold browseLimit limitOffset at h
  split_ifs at h
  · exact h
  · exact List.mem_of_mem_drop h
  · exact List.mem_of_mem_drop (List.mem_of_mem_take h)
  · exact List.mem_of_mem_drop h
  · exact List.mem_of_mem_drop (List.mem_of_mem_take h)

theorem mem_listing {r : ObjectRow} (h : r ∈ listing param db.objects.rows) :
    r ∈ db.objects.rows ∧ r.parentID = param.objectID := by
  obtain ⟨hr, hlisted⟩ := List.mem_filter.mp (Lib.OrderBy.perm_sorted.mem_iff.mp h)
  unfold isListed at hlisted
  rw [Bool.and_eq_true, Bool.and_eq_true] at hlisted
  exact ⟨hr, of_decide_eq_true hlisted.1.1⟩

/-- The count of the rows is the length of the listing. -/
theorem countedChildren_eq (h : Listable db param.objectID) :
    countedChildren db.objects.rows param.objectID param.containers param.items param.hideFsRoot
      = (listing param db.objects.rows).length := by
  have hlength : (listing param db.objects.rows).length
      = (db.objects.rows.filter (isListed param)).length := Lib.OrderBy.perm_sorted.length_eq
  have hfilter : db.objects.rows.filter (isListed param) = db.objects.rows.filter fun r =>
      isCountedChild param.objectID param.containers param.items param.hideFsRoot r &&
        (param.containers || param.items) :=
    List.filter_congr fun r hr => (isListed_eq h hr).symm
  rw [hlength, hfilter]
  unfold countedChildren
  cases param.containers <;> cases param.items <;> simp

/-- **The call, part by part**: its rows are cut out of the listing, and the total is what
    `getChildCount` says. -/
theorem Idle.run_browse (h : Idle db param.objectID s) (hrow : ContainerRow db param.objectID)
    (hlist : Listable db param.objectID) (hdirect : param.directChildren = true) :
    ∃ objs s', (browse param).run s = (.ok (objs, countSaid s param.objectID param.containers
        param.items param.hideFsRoot), s') ∧
      objs.map CdsObject.id
        = (browseLimit param (listing param db.objects.rows)).map ObjectRow.id ∧
      Idle db param.objectID s' := by
  obtain ⟨t, s₁, htype, hcontainer, h₁, hknown⟩ := h.run_browseObjectType hrow
  obtain ⟨s₂, hcount, h₂⟩ := h₁.run_getChildCount param.objectID param.containers param.items
    param.hideFsRoot
  have hsaid : countSaid s₁ param.objectID param.containers param.items param.hideFsRoot
      = countSaid s param.objectID param.containers param.items param.hideFsRoot := by
    unfold countSaid knownCount
    rw [hknown, h₁.db, h.db]
  obtain ⟨objs, s₃, hobjs, hids, h₃⟩ := h₂.run_createObjectsFromRows hrow hlist
    (browseLimit param (listing param db.objects.rows))
    fun r hr => mem_listing (mem_of_mem_browseLimit hr)
  obtain ⟨objs', s₄, hcounts, hids', h₄⟩ := h₃.run_updateChildCounts param objs
  have hrows : browseRows param true db
      = (browseLimit param (listing param db.objects.rows)).map db.join := by
    show browseLimit param (List.insertionSort _ _) = _
    rw [sqlQuery_listing hlist, map_browseLimit]
  refine ⟨objs', s₄, ?_, hids'.trans hids, h₄⟩
  unfold browse
  rw [run_bind_of_ok h.run_flush, run_bind_of_ok htype]
  simp only [hdirect, hcontainer, Bool.and_true, if_true]
  rw [run_bind_of_ok hcount]
  unfold select
  rw [run_read_bind, h₂.db, hrows, run_bind_of_ok hobjs, run_bind_of_ok hcounts, hsaid]
  rfl

end

/-! ## The window -/

/-- The indices are in order, for a listing of so many rows: nothing is negative, or it does not
    show. -/
def IndicesRight (startingIndex requestedCount : Int) (length : Nat) : Prop :=
  if requestedCount = 0 then startingIndex = 0 ∨ length ≤ max startingIndex 0 + intMax
  else if 0 < requestedCount then
    0 ≤ startingIndex ∨ (length : Int) ≤ max (startingIndex + requestedCount) 0
  else (length : Int) ≤ max startingIndex 0

theorem map_take_eq_iff {α β : Type} (f : α → β) (rows : List α) (m n : Nat) :
    (rows.take m).map f = (rows.take n).map f ↔ min m rows.length = min n rows.length := by
  constructor
  · intro h
    have hlength := congrArg List.length h
    rwa [List.length_map, List.length_map, List.length_take, List.length_take] at hlength
  · intro h
    rw [List.take_eq_take_iff.mpr h]

/-- **What is cut out is the window**, exactly for indices in order. -/
theorem browseLimit_eq_window_iff {α β : Type} (f : α → β) (param : BrowseParam) (rows : List α) :
    (browseLimit param rows).map f
        = (Lib.OrderBy.window param.startingIndex param.requestedCount rows).map f ↔
      IndicesRight param.startingIndex param.requestedCount rows.length := by
  have hrest : (rows.drop param.startingIndex.toNat).length
      = rows.length - param.startingIndex.toNat := List.length_drop
  have hwhole : (rows.drop param.startingIndex.toNat).take rows.length
      = rows.drop param.startingIndex.toNat := List.take_of_length_le (by omega)
  have hmax : intMax = 2147483647 := by
    unfold intMax
    norm_num
  unfold browseLimit limitOffset IndicesRight
  by_cases hall : param.requestedCount = 0
  · rw [if_pos hall, if_pos hall, Lib.OrderBy.window, if_pos hall]
    by_cases hstart : param.startingIndex = 0
    · rw [if_pos hstart, hstart]
      exact iff_of_true rfl (Or.inl rfl)
    · have htake := map_take_eq_iff f (rows.drop param.startingIndex.toNat) intMax.toNat rows.length
      rw [hwhole, hrest] at htake
      rw [if_neg hstart, if_neg (by omega), htake]
      omega
  · rw [if_neg hall, if_neg hall, Lib.OrderBy.window_eq_take hall]
    by_cases hneg : param.requestedCount < 0
    · have htake := map_take_eq_iff f (rows.drop param.startingIndex.toNat) rows.length
        ((param.startingIndex + param.requestedCount).toNat - param.startingIndex.toNat)
      rw [hwhole, hrest] at htake
      rw [if_pos hneg, if_neg (by omega), htake]
      omega
    · rw [if_neg hneg, if_pos (by omega), map_take_eq_iff, hrest]
      omega

/-! ## The result -/

/-- **The call lists the children**: it returns the window of the listing that is asked for, and the
    length of the listing. -/
def ListsChildren (param : BrowseParam) (s : StorageState) (l : List ObjectRow) : Prop :=
  ∃ objs s', (browse param).run s = (.ok (objs, (l.length : Int)), s') ∧
    objs.map CdsObject.id =
      (Lib.OrderBy.window param.startingIndex param.requestedCount l).map ObjectRow.id

/-- A client that asks for one page after the other. -/
def browsePages (param : BrowseParam) (size : Nat) : Nat → Nat → Storage (List CdsObject)
  | 0, _ => pure []
  | pages + 1, start => do
    let (objs, _) ← browse { param with startingIndex := start, requestedCount := size }
    let rest ← browsePages param size pages (start + size)
    pure (objs ++ rest)

/-- **The pages are the listing**, put together, when there are enough of them. -/
def PagesFit (param : BrowseParam) (s : StorageState) (l : List ObjectRow) : Prop :=
  ∀ size pages : Nat, 0 < size → l.length ≤ size * pages → ∃ objs s',
    (browsePages param size pages 0).run s = (.ok objs, s') ∧
      objs.map CdsObject.id = l.map ObjectRow.id

section

variable {param : BrowseParam} {db : Database} {s s₀ : StorageState}

theorem countSaid_eq_iff (h : s.db = db) (hlist : Listable db param.objectID) :
    countSaid s param.objectID param.containers param.items param.hideFsRoot
        = (listing param db.objects.rows).length ↔
      ∀ n, knownCount s param.objectID param.containers param.items param.hideFsRoot = some n →
        n = (listing param db.objects.rows).length := by
  unfold countSaid
  rw [h, countedChildren_eq hlist]
  cases knownCount s param.objectID param.containers param.items param.hideFsRoot with
  | none => exact iff_of_true rfl fun n hn => by cases hn
  | some m => exact ⟨fun hm n hn => Option.some.inj hn ▸ hm, fun hall => hall m rfl⟩

theorem Idle.lists_iff (h : Idle db param.objectID s) (hrow : ContainerRow db param.objectID)
    (hlist : Listable db param.objectID) (hdirect : param.directChildren = true) :
    ListsChildren param s (listing param db.objects.rows) ↔
      IndicesRight param.startingIndex param.requestedCount (listing param db.objects.rows).length ∧
        ∀ n, knownCount s param.objectID param.containers param.items param.hideFsRoot = some n →
          n = (listing param db.objects.rows).length := by
  obtain ⟨objs, s', hrun, hids, -⟩ := h.run_browse hrow hlist hdirect
  rw [← browseLimit_eq_window_iff ObjectRow.id param, ← countSaid_eq_iff h.db hlist, ← hids]
  unfold ListsChildren
  rw [hrun]
  constructor
  · rintro ⟨objs', s'', hsame, hwindow⟩
    obtain ⟨hout, -⟩ := Prod.mk.inj hsame
    obtain ⟨hobjs, hcount⟩ := Prod.mk.inj (Except.ok.inj hout)
    rw [hobjs]
    exact ⟨hwindow, hcount⟩
  · rintro ⟨hwindow, hcount⟩
    rw [hcount]
    exact ⟨objs, s', rfl, hwindow⟩

theorem Idle.run_browsePages (h : Idle db param.objectID s) (hrow : ContainerRow db param.objectID)
    (hlist : Listable db param.objectID) (hdirect : param.directChildren = true) {size : Nat}
    (hsize : 0 < size) (pages start : Nat) :
    ∃ objs s', (browsePages param size pages start).run s = (.ok objs, s') ∧
      objs.map CdsObject.id
        = (((listing param db.objects.rows).drop start).take (size * pages)).map ObjectRow.id := by
  induction pages generalizing s start with
  | zero => exact ⟨[], s, rfl, by rw [Nat.mul_zero, List.take_zero]; rfl⟩
  | succ pages ih =>
    let page : BrowseParam := { param with startingIndex := start, requestedCount := size }
    obtain ⟨objs, s', hrun, hids, h'⟩ :=
      @Idle.run_browse page db s h hrow hlist hdirect
    obtain ⟨rest, s'', hrest, hids'⟩ := ih h' (start + size)
    refine ⟨objs ++ rest, s'', ?_, ?_⟩
    · rw [browsePages, run_bind_of_ok hrun]
      simp only
      rw [run_bind_of_ok hrest]
      rfl
    · have hindices : IndicesRight page.startingIndex page.requestedCount
          (listing param db.objects.rows).length := by
        show IndicesRight (start : Int) (size : Int) _
        unfold IndicesRight
        rw [if_neg (by omega), if_pos (by omega)]
        exact Or.inl (Int.natCast_nonneg start)
      have hpage : objs.map CdsObject.id = (Lib.OrderBy.window (start : Int) (size : Int)
          (listing param db.objects.rows)).map ObjectRow.id :=
        hids.trans ((browseLimit_eq_window_iff ObjectRow.id page _).mpr hindices)
      rw [List.map_append, hpage, hids', ← List.map_append,
        Lib.OrderBy.window_append_take start size _ (by omega), Nat.mul_succ, Nat.add_comm size]

/-- The call begins with a flush. -/
theorem run_browse_flushed (param : BrowseParam) (hflush : flushInsertBuffer.run s = (.ok (), s₀))
    (hagain : flushInsertBuffer.run s₀ = (.ok (), s₀)) :
    (browse param).run s = (browse param).run s₀ := by
  unfold browse
  rw [run_bind_of_ok hflush, run_bind_of_ok hagain]

/-- **`browse` of the direct children.**  Each call returns the window of the listing that is asked
    for and the length of the listing, EXACTLY when the indices are in order and the number of
    children, where the cache knows it, is right.  The pages fit together in any case. -/
theorem browse_lists_iff (hflush : flushInsertBuffer.run s = (.ok (), s₀))
    (hlist : Listable s₀.db param.objectID) (hrow : ContainerRow s₀.db param.objectID)
    (hknown : ∀ t, cachedObjectType s param.objectID = some t → isCdsContainer t = true)
    (hdirect : param.directChildren = true) :
    (ListsChildren param s (listing param s₀.db.objects.rows) ↔
      IndicesRight param.startingIndex param.requestedCount
          (listing param s₀.db.objects.rows).length ∧
        ∀ n, knownCount s param.objectID param.containers param.items param.hideFsRoot = some n →
          n = (listing param s₀.db.objects.rows).length) ∧
      PagesFit param s (listing param s₀.db.objects.rows) := by
  obtain ⟨hnothing, hcache⟩ := flush_ok hflush
  have hidle : Idle s₀.db param.objectID s₀ := by
    refine ⟨rfl, hnothing, ?_⟩
    unfold cachedObjectType at hknown ⊢
    rw [hcache]
    exact hknown
  have hcounts : knownCount s param.objectID param.containers param.items param.hideFsRoot
      = knownCount s₀ param.objectID param.containers param.items param.hideFsRoot := by
    unfold knownCount cachedNumChildren
    rw [hcache]
  constructor
  · rw [hcounts, ← hidle.lists_iff hrow hlist hdirect]
    unfold ListsChildren
    rw [run_browse_flushed param hflush hidle.run_flush]
  · intro size pages hsize henough
    obtain ⟨objs, s', hrun, hids⟩ := hidle.run_browsePages hrow hlist hdirect hsize pages 0
    rw [List.drop_zero, List.take_of_length_le henough] at hids
    cases pages with
    | zero =>
      cases hrun
      exact ⟨[], s, rfl, hids⟩
    | succ pages =>
      refine ⟨objs, s', ?_, hids⟩
      rw [← hrun]
      unfold browsePages
      rw [run_bind, run_bind, run_browse_flushed _ hflush hidle.run_flush]

end

/-! ## The database the schema creates -/

/-- What a client asks of the root. -/
def browseRoot (startingIndex requestedCount : Int) : BrowseParam where
  objectID := cdsIdRoot
  directChildren := true
  containers := true
  items := true
  hideFsRoot := false
  trackSort := false
  startingIndex := startingIndex
  requestedCount := requestedCount

/-- The storage on a fresh database, without a cache. -/
def freshStorage : StorageState := .started Database.fresh false .ok

/-- The PC directory is the one child of the root. -/
theorem fresh_children : ∀ r ∈ Database.fresh.objects.rows, r.parentID = cdsIdRoot →
    Database.fresh.objects.find? cdsIdFsRoot = some r := by decide

theorem listable_fresh : Listable Database.fresh cdsIdRoot := by
  refine ⟨by decide, ?_, ?_, ?_⟩
  · intro r hr hparent
    cases fresh_children r hr hparent
    exact ⟨.container 0 0 0, rfl⟩
  · intro r hr hparent
    cases fresh_children r hr hparent
    exact ⟨_, rfl⟩
  · intro r hr hparent hactive
    cases fresh_children r hr hparent
    exact absurd hactive (by decide)

theorem containerRow_fresh : ContainerRow Database.fresh cdsIdRoot := by
  unfold ContainerRow
  decide

theorem length_listing_fresh (startingIndex requestedCount : Int) :
    (listing (browseRoot startingIndex requestedCount) Database.fresh.objects.rows).length = 1 :=
  Lib.OrderBy.perm_sorted.length_eq

theorem browse_lists_iff_fresh :
    (ListsChildren (browseRoot 0 0) freshStorage
        (listing (browseRoot 0 0) Database.fresh.objects.rows) ↔
      IndicesRight 0 0 (listing (browseRoot 0 0) Database.fresh.objects.rows).length ∧
        ∀ n, knownCount freshStorage cdsIdRoot true true false = some n →
          n = (listing (browseRoot 0 0) Database.fresh.objects.rows).length) ∧
      PagesFit (browseRoot 0 0) freshStorage
        (listing (browseRoot 0 0) Database.fresh.objects.rows) :=
  @browse_lists_iff (browseRoot 0 0) freshStorage freshStorage rfl listable_fresh containerRow_fresh
    (fun t ht => by cases ht) rfl

/-- One object from the index -1 on: the first one comes, of a window that is empty. -/
theorem browse_before_start :
    ¬ ListsChildren (browseRoot (-1) 1) freshStorage
      (listing (browseRoot (-1) 1) Database.fresh.objects.rows) := by
  have hidle : Idle Database.fresh cdsIdRoot freshStorage :=
    ⟨rfl, Or.inl rfl, fun t ht => by cases ht⟩
  intro h
  have hindices := ((@Idle.lists_iff (browseRoot (-1) 1) _ _ hidle containerRow_fresh listable_fresh
    rfl).mp h).1
  rw [length_listing_fresh] at hindices
  revert hindices
  unfold IndicesRight
  decide

end MediaTomb
