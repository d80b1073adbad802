/-
  A storage that is only read.

  Nothing waits in the insert buffer, so no flush writes anything, and the tables stay as they are.
  The cache changes with every read, is emptied when it is full, and fills again; but what it knows
  of an object is what was read of its row (`Told`).

    * `browse` and `loadObject` keep that, whether they return or throw (`onlyRead_browse`,
      `onlyRead_loadObject`);
    * an object that `browse` returns has been read of a row (`ReadFrom`), and the class of an object
      that `loadObject` returns is the one its row has, from the cache or not.
-/
import MediaTomb.Storage.BrowsePages

namespace MediaTomb

open Lib.Prog

/-! ## What has been read -/

/-- Without what is found out after the row is read: how many children a container has, and what an
    active item does. -/
def CdsKind.asRead : CdsKind → CdsKind
  | .container updateID _ autoscanType => .container updateID 0 autoscanType
  | .activeItem data _ _ => .activeItem data none none
  | kind => kind

theorem CdsKind.objectType_asRead (kind : CdsKind) : kind.asRead.objectType = kind.objectType := by
  cases kind <;> rfl

/-- The object was read of the row; the number of its children, or what it does, was found out
    afterwards. -/
def ReadFrom (db : Database) (r : ObjectRow) (obj : CdsObject) : Prop :=
  ∃ o, (db.join r).toObject = .ok o ∧ obj = { o with kind := obj.kind } ∧
    obj.kind.asRead = o.kind.asRead

/-- The class is the one that is read of the row with this id. -/
def ClassOf (db : Database) (id : Int) (obj : CdsObject) : Prop :=
  ∃ r ∈ db.objects.rows, r.id = id ∧ ∃ o, (db.join r).toObject = .ok o ∧
    obj.upnpClass = o.upnpClass

/-- What the cache knows, as it is in the table. -/
structure Told (db : Database) (c : StorageCache) : Prop where
  classes : ∀ id obj, c.field CacheObject.obj id = some obj → ClassOf db id obj
  types : ∀ id t, c.field CacheObject.objectType id = some t → ContainerRow db id →
    isCdsContainer t = true

/-- **A storage that is only read.** -/
structure OnlyRead (db : Database) (s : StorageState) : Prop where
  same : s.db = db
  nothing : s.insertBufferOn = false ∨ s.insertBufferEmpty = true
  told : ∀ c, s.cache = some c → Told db c

section

variable {db : Database} {s : StorageState} {r : ObjectRow} {obj o : CdsObject} {c : StorageCache}
  {f : StorageCache → StorageCache} {objectID : Int}

theorem ReadFrom.id (h : ReadFrom db r obj) : obj.id = r.id := by
  obtain ⟨o, hread, hsame, -⟩ := h
  rw [hsame]
  exact (toObject_resources hread).1

theorem ReadFrom.upnpClass (h : ReadFrom db r obj) (hr : r ∈ db.objects.rows) :
    ClassOf db r.id obj := by
  obtain ⟨o, hread, hsame, -⟩ := h
  refine ⟨r, hr, rfl, o, hread, ?_⟩
  rw [hsame]

/-- More is found out. -/
theorem ReadFrom.withKind (h : ReadFrom db r obj) {kind : CdsKind}
    (hkind : kind.asRead = obj.kind.asRead) : ReadFrom db r { obj with kind := kind } := by
  obtain ⟨o, hread, hsame, hsameKind⟩ := h
  refine ⟨o, hread, ?_, hkind.trans hsameKind⟩
  rw [hsame]

/-- A container's row makes a container. -/
theorem ReadFrom.container (h : ReadFrom db r obj) (hr : isCdsContainer r.objectType = true) :
    isCdsContainer obj.objectType = true := by
  obtain ⟨o, hread, -, hsameKind⟩ := h
  obtain ⟨u, n, a, hkind⟩ := toObject_container hread hr
  unfold CdsObject.objectType
  rw [← CdsKind.objectType_asRead, hsameKind, CdsKind.objectType_asRead, hkind]
  exact isCdsContainer_container u n a

/-- **No two rows answer for one id**, so the class is one. -/
theorem ClassOf.unique (h : ClassOf db objectID obj) (h' : ClassOf db objectID o) :
    obj.upnpClass = o.upnpClass := by
  obtain ⟨r, hr, hid, x, hread, hclass⟩ := h
  obtain ⟨r', hr', hid', x', hread', hclass'⟩ := h'
  rw [db.objects.eq_of_key_eq hr hr' (hid.trans hid'.symm), hread'] at hread
  cases hread
  rw [hclass, hclass']

/-! ## The cache -/

theorem Told.flushed (h : Told db c) : Told db c.flushed.2 := ⟨h.classes, h.types⟩

theorem Told.getObjectDefinitely (h : Told db c) (objectID : Int) :
    Told db (c.getObjectDefinitely objectID).2 where
  classes _ _ hobj := h.classes _ _ (StorageCache.field_getObjectDefinitely rfl hobj)
  types _ _ ht := h.types _ _ (StorageCache.field_getObjectDefinitely rfl ht)

/-- One cache object is written. -/
theorem Told.modifyObject (h : Told db c) {g : CacheObject → CacheObject}
    (hobj : ∀ cObj obj, (g cObj).obj = some obj → cObj.obj = some obj ∨ ClassOf db objectID obj)
    (htype : ∀ cObj t, (g cObj).objectType = some t → cObj.objectType = some t ∨
      (ContainerRow db objectID → isCdsContainer t = true)) :
    Told db (c.modifyObject objectID g) := by
  have hold : ∀ {β : Type} {knows : CacheObject → Option β} {v : β}, knows {} = none →
      knows ((c.getObject objectID).getD {}) = some v → c.field knows objectID = some v := by
    intro β knows v hfresh hv
    unfold StorageCache.field
    rcases hget : c.getObject objectID with _ | cObj
    · rw [hget, Option.getD_none, hfresh] at hv
      cases hv
    · rw [hget] at hv
      exact hv
  refine ⟨fun i obj hi => ?_, fun i t hi => ?_⟩
  · rcases StorageCache.field_modifyObject hi with ⟨rfl, hnew⟩ | hbefore
    · rcases hobj _ _ hnew with hsame | hclass
      · exact h.classes _ _ (hold rfl hsame)
      · exact hclass
    · exact h.classes _ _ hbefore
  · rcases StorageCache.field_modifyObject hi with ⟨rfl, hnew⟩ | hbefore
    · rcases htype _ _ hnew with hsame | hcontainer
      · exact h.types _ _ (hold rfl hsame)
      · exact hcontainer
    · exact h.types _ _ hbefore

/-- **The cache is told of an object that was read.** -/
theorem Told.setObject (h : Told db c) (hr : r ∈ db.objects.rows) (hobj : ReadFrom db r obj) :
    Told db ((c.store obj.id (((c.getObject obj.id).getD {}).setObject obj)).checkLocation obj.id
      (((c.getObject obj.id).getD {}).setObject obj)) := by
  have hset : Told db (c.modifyObject obj.id fun cObj => cObj.setObject obj) := by
    refine h.modifyObject (fun cObj o ho => Or.inr ?_) fun cObj t ht => Or.inr fun hrow => ?_
    · rw [CacheObject.setObject_obj] at ho
      rw [hobj.id, ← Option.some.inj ho]
      exact hobj.upnpClass hr
    · rw [← Option.some.inj ht]
      rw [hobj.id] at hrow
      exact hobj.container (hrow.of_id_eq hr rfl)
  refine ⟨fun i o hi => hset.classes i o ?_, fun i t hi => hset.types i t ?_⟩
  · unfold StorageCache.field at hi
    rw [StorageCache.getObject_checkLocation] at hi
    exact hi
  · unfold StorageCache.field at hi
    rw [StorageCache.getObject_checkLocation] at hi
    exact hi

theorem onlyRead_modifyCache {E : StorageState → Prop} (hf : ∀ c, Told db c → Told db (f c)) :
    Triple (OnlyRead db) (modifyCache f) (fun _ => OnlyRead db) E := by
  refine triple_modify fun s hs => ⟨hs.same, hs.nothing, fun c' hc' => ?_⟩
  obtain ⟨c, hc, rfl⟩ := Option.map_eq_some_iff.mp hc'
  exact hf c (hs.told c hc)

theorem onlyRead_flush {E : StorageState → Prop} :
    Triple (OnlyRead db) flushInsertBuffer (fun _ => OnlyRead db) E := by
  intro s hs
  have hrun : flushInsertBuffer.run s = (.ok (), s) := by
    unfold flushInsertBuffer
    rw [run_locked, run_get_bind]
    rcases hs.nothing with hoff | hempty
    · rw [hoff]
      rfl
    · rw [hempty]
      cases s.insertBufferOn with
      | false => rfl
      | true => rfl
  rw [hrun]
  exact hs

theorem onlyRead_flushIfFlushed {E : StorageState → Prop} :
    Triple (OnlyRead db) flushIfFlushed (fun _ => OnlyRead db) E := by
  refine triple_get_bind fun s hs => ?_
  rcases hc : s.cache with _ | c
  · exact triple_pure fun t ht => ht ▸ hs
  · refine triple_conseq (triple_bind (onlyRead_modifyCache fun c h => h.flushed) fun _ => ?_)
      (fun t ht => ht ▸ hs) (fun _ _ h => h) fun _ h => h
    split
    · exact onlyRead_flush
    · exact triple_pure fun _ h => h

theorem onlyRead_addObjectToCache {E : StorageState → Prop} (hr : r ∈ db.objects.rows)
    (hobj : ReadFrom db r obj) :
    Triple (OnlyRead db) (addObjectToCache obj) (fun _ => OnlyRead db) E := by
  refine triple_bind (M := fun _ => OnlyRead db) (triple_read fun _ h => h) fun on => ?_
  split
  · refine triple_locked (triple_bind
      (onlyRead_modifyCache fun c h => h.getObjectDefinitely _) fun _ =>
        triple_bind onlyRead_flushIfFlushed fun _ =>
          onlyRead_modifyCache fun c h => h.setObject hr hobj)
  · exact triple_pure fun _ h => h

/-! ## Reading rows -/

/-- **A row is read.** -/
theorem onlyRead_createObjectFromRow (hr : r ∈ db.objects.rows) :
    Triple (OnlyRead db) (createObjectFromRow (db.join r))
      (fun obj s => OnlyRead db s ∧ ReadFrom db r obj) (OnlyRead db) := by
  refine triple_bind (M := fun obj s => OnlyRead db s ∧ ReadFrom db r obj)
    (triple_ofExcept (fun o ho s hs => ⟨hs, o, ho, rfl, rfl⟩) fun _ _ _ hs => hs) fun obj => ?_
  have htell : ∀ o, Triple (fun s => OnlyRead db s ∧ ReadFrom db r o)
      (addObjectToCache o >>= fun _ => (pure o : Storage CdsObject))
      (fun obj s => OnlyRead db s ∧ ReadFrom db r obj) (OnlyRead db) := by
    rintro o s ⟨hs, ho⟩
    exact triple_bind (M := fun _ => OnlyRead db) (onlyRead_addObjectToCache hr ho)
      (fun _ => triple_pure fun _ h => ⟨h, ho⟩) s hs
  split
  · refine triple_bind (M := fun obj s => OnlyRead db s ∧ ReadFrom db r obj) ?_ htell
    refine triple_bind (M := fun _ s => OnlyRead db s ∧ ReadFrom db r obj)
      (triple_read fun _ h => h) fun found => ?_
    split
    · refine triple_pure fun s h => ⟨h.1, h.2.withKind ?_⟩
      cases obj.kind <;> rfl
    · exact triple_throw fun s h => h.1
  · exact triple_bind (M := fun obj s => OnlyRead db s ∧ ReadFrom db r obj)
      (triple_pure fun _ h => h) htell

/-- Each object has been read of a row. -/
def AllRead (db : Database) (objs : List CdsObject) : Prop :=
  ∀ obj ∈ objs, ∃ r ∈ db.objects.rows, ReadFrom db r obj

theorem AllRead.cons (hobj : ∃ r ∈ db.objects.rows, ReadFrom db r obj) {objs : List CdsObject}
    (h : AllRead db objs) : AllRead db (obj :: objs) := by
  intro o ho
  rcases List.mem_cons.mp ho with rfl | ho
  · exact hobj
  · exact h o ho

theorem onlyRead_createObjectsFromRows {rows : List Database.JoinedRow}
    (hrows : ∀ j ∈ rows, ∃ r ∈ db.objects.rows, j = db.join r) :
    Triple (OnlyRead db) (createObjectsFromRows rows) (fun objs s => OnlyRead db s ∧ AllRead db objs)
      (OnlyRead db) := by
  induction rows with
  | nil => exact triple_pure fun _ h => ⟨h, fun _ ho => nomatch ho⟩
  | cons j rows ih =>
    obtain ⟨⟨r, hr, rfl⟩, hrest⟩ := List.forall_mem_cons.mp hrows
    refine triple_bind (onlyRead_createObjectFromRow hr) fun obj => ?_
    rintro s ⟨hs, hobj⟩
    exact triple_bind (ih hrest) (fun objs => triple_pure fun _ h =>
      ⟨h.1, h.2.cons ⟨r, hr, hobj⟩⟩) s hs

/-! ## `getChildCount` and `browse` -/

theorem onlyRead_getChildCount (contId : Int) (containers items hideFsRoot : Bool) :
    Triple (OnlyRead db) (getChildCount contId containers items hideFsRoot) (fun _ => OnlyRead db)
      (OnlyRead db) := by
  have hdone : ∀ n : Int, Triple (OnlyRead db) (pure n : Storage Int) (fun _ => OnlyRead db)
      (OnlyRead db) := fun n => triple_pure fun _ h => h
  -- the rows are counted, and something is done with their number
  have hcount : ∀ (f : List ObjectRow → Storage Int), (∀ rows, Triple (OnlyRead db) (f rows)
      (fun _ => OnlyRead db) (OnlyRead db)) → Triple (OnlyRead db) (flushInsertBuffer >>= fun _ =>
        select (fun db => db.selectObjects (isCountedChild contId containers items hideFsRoot)) >>=
          f) (fun _ => OnlyRead db) (OnlyRead db) := fun f hf =>
    triple_bind (M := fun _ => OnlyRead db) onlyRead_flush fun _ =>
      triple_bind (M := fun _ => OnlyRead db) (triple_read fun _ h => h) hf
  have htell : ∀ n : Int, Triple (OnlyRead db) (publishNumChildren contId n) (fun _ => OnlyRead db)
      (OnlyRead db) := by
    intro n
    refine triple_bind (M := fun _ => OnlyRead db) (onlyRead_modifyCache fun c h => ?_) fun _ =>
      onlyRead_flushIfFlushed
    exact (h.getObjectDefinitely contId).modifyObject (fun _ _ ho => Or.inl ho)
      fun _ _ ht => Or.inl ht
  unfold getChildCount
  split
  · exact triple_pure fun _ h => h
  · simp only
    split
    · refine triple_bind (M := fun _ => OnlyRead db) (triple_read fun _ h => h) fun known => ?_
      rcases known with _ | n
      · refine hcount _ fun rows => triple_bind (M := fun _ => OnlyRead db)
          (triple_read fun _ h => h) fun on => ?_
        split
        · exact triple_bind (M := fun _ => OnlyRead db) (triple_locked (htell _)) fun _ => hdone _
        · exact hdone _
      · exact hdone n
    · exact hcount _ fun rows => hdone rows.length

theorem onlyRead_browseObjectType (objectID : Int) :
    Triple (OnlyRead db) (browseObjectType objectID) (fun _ => OnlyRead db) (OnlyRead db) := by
  refine triple_bind (M := fun _ => OnlyRead db) (triple_read fun _ h => h) fun known => ?_
  rcases known with _ | t
  · -- the row that is read is one of the table
    refine triple_bind (M := fun rows s => OnlyRead db s ∧
      ∀ r ∈ rows, r ∈ db.objects.rows ∧ r.id = objectID) (triple_read fun s h => ⟨h, ?_⟩)
      fun rows => ?_
    · intro r hr
      rw [h.same] at hr
      obtain ⟨hin, hid⟩ := List.mem_filter.mp hr
      exact ⟨hin, of_decide_eq_true hid⟩
    · rcases rows with _ | ⟨row, rows⟩
      · exact triple_throw fun s h => h.1
      · rintro s ⟨hs, hrows⟩
        obtain ⟨hrow, hid⟩ := hrows row List.mem_cons_self
        refine triple_bind (M := fun _ => OnlyRead db) (triple_read fun _ h => h) (fun on => ?_) s hs
        split
        · refine triple_bind (M := fun _ => OnlyRead db) (triple_locked (triple_bind
            (M := fun _ => OnlyRead db) (onlyRead_modifyCache fun c h => ?_) fun _ =>
              onlyRead_flushIfFlushed)) fun _ => triple_pure fun _ h => h
          refine (h.getObjectDefinitely objectID).modifyObject (fun _ _ ho => Or.inl ho)
            fun _ t ht => Or.inr fun hcontainer => ?_
          rw [← Option.some.inj ht]
          exact hcontainer.of_id_eq hrow hid
        · exact triple_pure fun _ h => h
  · exact triple_pure fun _ h => h

theorem onlyRead_updateChildCounts (param : BrowseParam) {objs : List CdsObject}
    (hobjs : AllRead db objs) :
    Triple (OnlyRead db) (updateChildCounts param objs)
      (fun objs s => OnlyRead db s ∧ AllRead db objs)
      (OnlyRead db) := by
  induction objs with
  | nil => exact triple_pure fun _ h => ⟨h, fun _ ho => nomatch ho⟩
  | cons obj objs ih =>
    obtain ⟨⟨r, hr, hobj⟩, hothers⟩ := List.forall_mem_cons.mp hobjs
    -- what is counted is written into the object, and the others follow
    have hrest : ∀ (m : Storage CdsObject), Triple (OnlyRead db) m (fun o s => OnlyRead db s ∧
        ReadFrom db r o) (OnlyRead db) → Triple (OnlyRead db) (m >>= fun o =>
          updateChildCounts param objs >>= fun objs => (pure (o :: objs) : Storage (List CdsObject)))
        (fun objs s => OnlyRead db s ∧ AllRead db objs) (OnlyRead db) := by
      intro m hm
      refine triple_bind hm fun o => ?_
      rintro s ⟨hs, ho⟩
      exact triple_bind (ih hothers) (fun objs => triple_pure fun _ h =>
        ⟨h.1, h.2.cons ⟨r, hr, ho⟩⟩) s hs
    unfold updateChildCounts
    split
    · next updateID n autoscanType hkind =>
      simp only
      refine triple_bind (onlyRead_getChildCount _ _ _ _) fun childCount =>
        hrest (pure _) (triple_pure fun s h => ⟨h, hobj.withKind ?_⟩)
      rw [hkind]
      rfl
    · exact hrest (pure obj) (triple_pure fun s h => ⟨h, hobj⟩)

theorem joined_browseRows (param : BrowseParam) (children : Bool) :
    ∀ j ∈ browseRows param children db, ∃ r ∈ db.objects.rows, j = db.join r := by
  have hquery : ∀ (p : ObjectRow → Bool), ∀ j ∈ db.sqlQuery p, ∃ r ∈ db.objects.rows,
      j = db.join r := by
    intro p j hj
    obtain ⟨r, hr, rfl⟩ := List.mem_map.mp hj
    exact ⟨r, (List.mem_filter.mp hr).1, rfl⟩
  intro j hj
  unfold browseRows at hj
  split at hj
  · exact hquery _ j ((List.perm_insertionSort _ _).mem_iff.mp (mem_of_mem_browseLimit hj))
  · exact hquery _ j (List.mem_of_mem_take hj)

/-- **`browse`**: what it returns has been read of rows. -/
theorem onlyRead_browse (param : BrowseParam) :
    Triple (OnlyRead db) (browse param) (fun found s => OnlyRead db s ∧ AllRead db found.1)
      (OnlyRead db) := by
  have hrows : ∀ (children : Bool) (totalMatches : Int), Triple (OnlyRead db) (do
        let rows ← select (browseRows param children)
        let arr ← createObjectsFromRows rows
        let arr ← updateChildCounts param arr
        pure (arr, totalMatches) : Storage (List CdsObject × Int))
      (fun found s => OnlyRead db s ∧ AllRead db found.1) (OnlyRead db) := by
    intro children totalMatches
    refine triple_bind (M := fun rows s => OnlyRead db s ∧
      ∀ j ∈ rows, ∃ r ∈ db.objects.rows, j = db.join r) (triple_read fun s h => ⟨h, ?_⟩)
      fun rows => ?_
    · rw [h.same]
      exact joined_browseRows param children
    · rintro s ⟨hs, hrows⟩
      refine triple_bind (onlyRead_createObjectsFromRows hrows) (fun objs => ?_) s hs
      rintro t ⟨ht, hobjs⟩
      exact triple_bind (onlyRead_updateChildCounts param hobjs) (fun objs => triple_pure fun _ h => h)
        t ht
  refine triple_bind (M := fun _ => OnlyRead db) onlyRead_flush fun _ =>
    triple_bind (onlyRead_browseObjectType _) fun objectType => ?_
  simp only
  split
  · exact triple_bind (onlyRead_getChildCount _ _ _ _) (hrows _)
  · exact triple_bind (M := fun _ => OnlyRead db) (triple_pure fun _ h => h) (hrows _)

/-! ## `loadObject` -/

/-- **`loadObject`**: the class is the one of the row, from the cache or not. -/
theorem onlyRead_loadObject (objectID : Int) :
    Triple (OnlyRead db) (loadObject objectID) (fun obj s => OnlyRead db s ∧ ClassOf db objectID obj)
      (OnlyRead db) := by
  refine triple_bind (M := fun cached s => OnlyRead db s ∧
    ∀ obj, cached = some obj → ClassOf db objectID obj) (triple_read fun s h => ⟨h, ?_⟩)
    fun cached => ?_
  · intro obj hobj
    obtain ⟨c, hc, hfield⟩ := Option.bind_eq_some_iff.mp hobj
    exact (h.told c hc).classes objectID obj hfield
  · rcases cached with _ | obj
    · refine triple_bind (M := fun rows s => OnlyRead db s ∧
        ∀ j ∈ rows, ∃ r ∈ db.objects.rows, r.id = objectID ∧ j = db.join r)
        (triple_read fun s h => ⟨h.1, ?_⟩) fun rows => ?_
      · intro j hj
        rw [h.1.same] at hj
        obtain ⟨r, hr, rfl⟩ := List.mem_map.mp hj
        obtain ⟨hin, hid⟩ := List.mem_filter.mp hr
        exact ⟨r, hin, of_decide_eq_true hid, rfl⟩
      · rcases rows with _ | ⟨j, rows⟩
        · exact triple_throw fun s h => h.1
        · rintro s ⟨hs, hrows⟩
          obtain ⟨r, hr, hid, rfl⟩ := hrows j List.mem_cons_self
          refine triple_conseq (onlyRead_createObjectFromRow hr) (fun _ h => h) (fun obj t h => ?_)
            (fun _ h => h) s hs
          exact ⟨h.1, hid ▸ h.2.upnpClass hr⟩
    · exact triple_pure fun s h => ⟨h.1, h.2 obj rfl⟩

/-! ## A call that returns -/

/-- What one container is browsed for, the storage is idle for. -/
theorem OnlyRead.idle (h : OnlyRead db s) {browsed : Int} (hrow : ContainerRow db browsed) :
    Idle db browsed s := by
  refine ⟨h.same, h.nothing, fun t ht => ?_⟩
  obtain ⟨c, hc, hfield⟩ := Option.bind_eq_some_iff.mp ht
  exact (h.told c hc).types browsed t hfield hrow

theorem onlyRead_started (cachingEnabled : Bool) (f2i : Str → Except Exception Str) :
    OnlyRead db (.started db cachingEnabled f2i) := by
  refine ⟨rfl, Or.inr rfl, fun c hc => ?_⟩
  rcases cachingEnabled with _ | _
  · cases hc
  · cases hc
    refine ⟨fun id obj hobj => ?_, fun id t ht => ?_⟩
    · unfold StorageCache.field at hobj
      rw [StorageCache.getObject_empty] at hobj
      cases hobj
    · unfold StorageCache.field at ht
      rw [StorageCache.getObject_empty] at ht
      cases ht

/-- The row of a container, which can be read. -/
structure LoadableContainer (db : Database) (objectID : Int) : Prop where
  row : ContainerRow db objectID
  readable : ∀ r ∈ db.objects.rows, r.id = objectID → ∃ o, (db.join r).toObject = .ok o
  active : ∀ r ∈ db.objects.rows, r.id = objectID → isCdsActiveItem r.objectType = true →
    ∃ a, db.activeItems.find? r.id = some a

/-- **A container that can be read is loaded.** -/
theorem OnlyRead.run_loadObject (h : OnlyRead db s) (hload : LoadableContainer db objectID) :
    ∃ obj s', (loadObject objectID).run s = (.ok obj, s') ∧ OnlyRead db s' ∧
      ClassOf db objectID obj := by
  have hspec := onlyRead_loadObject objectID s h
  suffices hok : ∃ obj s', (loadObject objectID).run s = (.ok obj, s') by
    obtain ⟨obj, s', hrun⟩ := hok
    rw [hrun] at hspec
    exact ⟨obj, s', hrun, hspec⟩
  unfold loadObject
  rw [run_read_bind]
  rcases cachedObject s objectID with _ | obj
  · simp only [select]
    rw [run_read_bind, h.same]
    obtain ⟨r, hr, hid, -⟩ := hload.row
    have hin : r ∈ db.selectObjects fun f => f.id = objectID :=
      List.mem_filter.mpr ⟨hr, decide_eq_true hid⟩
    unfold Database.sqlQuery
    rcases hrows : db.selectObjects fun f => f.id = objectID with _ | ⟨row, rows⟩
    · rw [hrows] at hin
      cases hin
    · have hrow : row ∈ db.selectObjects fun f => f.id = objectID := by
        rw [hrows]
        exact List.mem_cons_self
      obtain ⟨hdb, hrowid⟩ := List.mem_filter.mp hrow
      obtain ⟨o, ho⟩ := hload.readable row hdb (of_decide_eq_true hrowid)
      obtain ⟨obj, s', hrun, -⟩ := (h.idle hload.row).run_createObjectFromRow hload.row hdb ho
        (hload.active row hdb (of_decide_eq_true hrowid))
      exact ⟨obj, s', hrun⟩
  · exact ⟨obj, s, rfl⟩

end

end MediaTomb
