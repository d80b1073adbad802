/-
  `getChildCount`, over whole runs.

  A number of children is written down in two places and then only ever INCREMENTED.  So it stays the
  number of rows as long as rows come one at a time, with their parent told.  Two sections break that:
    * the UPDATE of `updateObject`, which moves a row to another parent and tells neither;
    * `informCache`, which writes 0 for a new container that rows may name as their parent already.
  A removal empties the cache, but only at its END: one that gives up half way has deleted rows whose
  parents are still counted.
-/
import MediaTomb.Storage.BufferedObjects
import MediaTomb.Storage.ChildCounts

namespace MediaTomb

open Lib.Prog

/-! ## The condition -/

/-- A section that leaves a number of children wrong. -/
inductive LosesCount : {β : Type} → (StorageState → β × StorageState) → StorageState → Prop
  /-- The container that was given the last id is not empty. -/
  | container {s : StorageState} {parentID : Int} {path : Str}
      (h : ∃ r ∈ s.rows, r.parentID = s.lastID) :
      LosesCount (informCache s.lastID parentID path).run s
  /-- A row moves, and the number of children of its old or new parent is known. -/
  | move {s : StorageState} {cols : ObjectColumns} {id : Int} {r : ObjectRow}
      (hr : r ∈ s.db.objects.rows) (hid : r.id = id) (hmoves : (cols.apply r).parentID ≠ r.parentID)
      (hknown : cachedNumChildren s r.parentID ≠ none ∨
        cachedNumChildren s (cols.apply r).parentID ≠ none) :
      LosesCount (fun s => ((), { s with db := cols.update id s.db })) s

/-- **The call keeps the counts**: none of its sections loses one; a removal returns, or it has
    deleted nothing. -/
def CountsKept (op : Op) (s : StorageState) : Prop :=
  if op.isRemoval then
    (∃ s', op.prog.run s = (.ok (), s')) ∨ (op.step s).rows = s.rows
  else Along (fun f s => ¬ LosesCount f s) op.prog s

/-! ## Both invariants -/

/-- Every known number is the number of rows, and the insert buffer is in order. -/
structure CountsRight (s : StorageState) : Prop where
  buffer : BufferInv s
  counts : ∃ rows, Counting 0 0 0 rows s

section

variable {objs items owed : Multiset Int} {rows : Multiset ObjectRow} {s s' : StorageState}

/-- A block that leaves the rows as they are. -/
theorem countsRight_of {α : Type} {m : Storage α} (hbuffer : Keeps (Frame.inv BufferInv) m)
    (hcounts : ∀ rows, Triple (Counting 0 0 0 rows) m (fun _ => Counting 0 0 0 rows)
      (Counting 0 0 0 rows)) : Keeps (Frame.inv CountsRight) m := by
  rintro s ⟨hb, rows, hc⟩
  exact ⟨hbuffer s hb, rows, (hcounts rows).final hc⟩

/-- Only keys, parents and the cached numbers matter. -/
theorem Counting.congr (h : Counting objs items owed rows s) (hkeys : FreshKeys objs items s')
    (hparents : s'.rows.map ObjectRow.parentID = s.rows.map ObjectRow.parentID)
    (howed : s'.uncounted = s.uncounted) (hcache : s'.cache = s.cache) :
    Counting objs items owed s'.rows s' := by
  have hsame : ∀ i, cachedNumChildren s' i = cachedNumChildren s i := by
    intro i
    unfold cachedNumChildren
    rw [hcache]
  have hcount : ∀ i, childCount (s'.rows : Multiset ObjectRow) i = childCount rows i := by
    intro i
    have hmap : ∀ l : List ObjectRow, childCount (l : Multiset ObjectRow) i =
        (l.map ObjectRow.parentID).countP fun p => p = i := by
      intro l
      unfold childCount
      rw [Multiset.coe_countP, List.countP_map]
      rfl
    rw [hmap, hparents, ← hmap, h.allRows]
  refine ⟨hkeys, by rw [howed]; exact h.owedTo, rfl, fun c n hc => ?_, fun c hc => ?_⟩
  · rw [hsame] at hc
    rw [hcount]
    exact h.counts c n hc
  · rw [hsame]
    exact h.marker c hc

/-- Statements that move no row. -/
theorem countsRight_sameParents (h : CountsRight s) {db : Database}
    (hbuffer : BufferInv { s with db := db })
    (hparents : db.objects.rows.map ObjectRow.parentID =
      s.db.objects.rows.map ObjectRow.parentID) : CountsRight { s with db := db } := by
  obtain ⟨rows, hc⟩ := h.counts
  refine ⟨hbuffer, _, hc.congr hbuffer.keys ?_ rfl rfl⟩
  unfold StorageState.rows StorageState.bufferedRows
  rw [List.map_append, List.map_append]
  simp only [hparents]

end

/-! ## Blocks that count nothing wrong -/

section

variable {s : StorageState}

theorem CountsRight.cacheIsSome (h : CountsRight s) : s.cache.isSome = true := by
  obtain ⟨c, hc, -⟩ := h.buffer.cached
  rw [hc]
  rfl

theorem countsRight_flush : Keeps (Frame.inv CountsRight) flushInsertBuffer :=
  countsRight_of querySections_bufferInv.flush fun _ => counting_flush

theorem countsRight_addObjectToCache (obj : CdsObject) :
    Keeps (Frame.inv CountsRight) (addObjectToCache obj) := by
  refine countsRight_of (bufferInv_addObjectToCache obj) fun rows => ?_
  refine triple_bind (M := fun _ => Counting 0 0 0 rows) (triple_read fun _ h => h) fun on => ?_
  split
  · exact triple_locked (counting_addObjectToCacheLocked obj)
  · exact triple_pure fun _ h => h

theorem countsRight_publishObjectType (id : Int) (t : UInt32) :
    Keeps (Frame.inv CountsRight) (locked (publishObjectType id t)) :=
  countsRight_of (readSections_bufferInv.objectType id t) fun _ =>
    triple_locked (counting_writeCache fun _ => StorageCache.CountsWithin.trans
      (StorageCache.countsWithin_modifyObject fun _ => rfl)
      (StorageCache.countsWithin_getObjectDefinitely _))

theorem SameObjects.parents {db db' : Database} (h : SameObjects db db') :
    db'.objects.rows.map ObjectRow.parentID = db.objects.rows.map ObjectRow.parentID := by
  have hshape := congrArg (List.map ObjectRow.parentID) h.objects
  rwa [List.map_map, List.map_map] at hshape

theorem countsRight_sameObjects (h : CountsRight s) {db : Database} (hdb : SameObjects s.db db) :
    CountsRight { s with db := db } :=
  countsRight_sameParents h (bufferInv_sameObjects h.buffer hdb) hdb.parents

theorem querySections_countsRight : QuerySections (Frame.inv CountsRight).logic where
  flush := countsRight_flush
  toCache := countsRight_addObjectToCache

theorem readSections_countsRight : ReadSections (Frame.inv CountsRight).logic where
  toQuerySections := querySections_countsRight
  fsRootName name := countsRight_of (readSections_bufferInv.fsRootName name) fun _ =>
    triple_modify fun s hs =>
      ⟨⟨hs.keys.objects, hs.keys.activeItems⟩, hs.owedTo, hs.allRows, hs.counts, hs.marker⟩
  objectType := countsRight_publishObjectType
  shape f hf := keeps_modify fun s hs => countsRight_sameObjects hs (hf s.db)
  shapeLocked m hm := keeps_locked fun s hs => by
    obtain ⟨db, hdb, hrun⟩ := hm s
    rw [hrun]
    exact countsRight_sameObjects hs hdb

/-! ## Inserting an object -/

variable {objs items owed : Multiset Int} {rows : Multiset ObjectRow} {E : StorageState → Prop}

/-- An INSERT, at once or buffered: the parent is owed one. -/
theorem counting_insertObject {text : Str} {row : ObjectRow} :
    Triple (Counting (row.id ::ₘ objs) items owed rows) (insertOrBuffer (.insertObject text row))
      (fun _ => Counting objs items (row.parentID ::ₘ owed) (row ::ₘ rows)) E := by
  refine triple_bind (M := fun _ => Counting (row.id ::ₘ objs) items owed rows)
    (triple_read fun _ h => h) fun on => ?_
  split
  · intro s hs
    have hbuffered : Counting objs items (row.parentID ::ₘ owed) (row ::ₘ rows)
        (bufferedState (.insertObject text row) s) := hs.buffer_object
    obtain ⟨s', hrun, hf⟩ := hbuffered.keys.run_addToInsertBuffer
    rw [hrun]
    exact hbuffered.flushed hf
  · exact counting_execInsertObject

/-- ... of an active item: nothing is owed. -/
theorem counting_insertActiveItem {text : Str} {row : ActiveItemRow} :
    Triple (fun s => Counting objs (row.id ::ₘ items) owed rows s ∧ s.insertBufferOn = true)
      (insertOrBuffer (.insertActiveItem text row))
      (fun _ => Counting objs items owed rows) E := by
  rintro s ⟨hs, hon⟩
  unfold insertOrBuffer
  rw [run_read_bind, if_pos hon]
  have hbuffered : Counting objs items owed rows (bufferedState (.insertActiveItem text row) s) :=
    hs.buffer_activeItem
  obtain ⟨s', hrun, hf⟩ := hbuffered.keys.run_addToInsertBuffer
  rw [hrun]
  exact hbuffered.flushed hf

/-- What is done under the cache lock; there is a cache. -/
theorem counting_ifCache {α : Type} {m : Storage Unit} {n : Storage α} {P : StorageState → Prop}
    {M : StorageState → Prop} {Q : α → StorageState → Prop} (hP : ∀ s, P s → s.cache.isSome = true)
    (hm : Triple P m (fun _ => M) E) (hn : Triple M n Q E) :
    Triple P (cacheOn >>= fun on => if on then locked m >>= fun _ => n else n) Q E := by
  intro s hs
  unfold cacheOn
  rw [run_read_bind, if_pos (hP s hs)]
  exact triple_bind (triple_locked hm) (fun _ => hn) s hs

/-- **`insertNewObject`**: the parent is owed one, and is told. -/
theorem countsRight_insertNewObject {cols : ObjectColumns} {obj : CdsObject}
    (hparent : cols.parentID = some obj.parentID) :
    Keeps (Frame.inv CountsRight) (insertNewObject cols obj) := by
  rintro s ⟨hb, rows, hc⟩
  refine ⟨Triple.keeps (bufferInv_insertNewObject cols obj) s hb, ?_⟩
  unfold insertNewObject
  rcases hc.keys.getNextID with ⟨e, hrun⟩ | ⟨id, -, hrun, hkeys⟩
  · rw [run_bind_of_error hrun]
    exact ⟨rows, hc⟩
  · rw [run_bind_of_ok hrun]
    obtain ⟨c, hcache, hflag, hknows⟩ := hb.cached
    let row := cols.insertRow id
    let rows' := row ::ₘ rows
    have hrow : row.parentID = obj.parentID := by
      show cols.parentID.getD _ = _
      rw [hparent]
      rfl
    -- both invariants at once: the first says that there are a buffer and a cache
    let Mid (items : Multiset Int) (s : StorageState) : Prop :=
      Ready 0 items (some (id : Int)) s ∧ Counting 0 items (row.parentID ::ₘ 0) rows' s
    let Right (s : StorageState) : Prop := ∃ rows, Counting 0 0 0 rows s
    have hstart : Ready ((id : Int) ::ₘ 0) ((id : Int) ::ₘ 0) none { s with lastID := s.lastID + 1 } ∧
        Counting ((id : Int) ::ₘ 0) ((id : Int) ::ₘ 0) 0 rows { s with lastID := s.lastID + 1 } :=
      ⟨⟨⟨hkeys, hb.on, hb.settled, hb.order⟩, c, hcache, hflag, hknows⟩,
        hkeys, hc.owedTo, hc.allRows, hc.counts, hc.marker⟩
    have hobject : Triple (fun s => Ready ((id : Int) ::ₘ 0) ((id : Int) ::ₘ 0) none s ∧
        Counting (row.id ::ₘ 0) ((id : Int) ::ₘ 0) 0 rows s)
        (insertOrBuffer (insertObjectStatement cols id)) (fun _ => Mid ((id : Int) ::ₘ 0)) Right :=
      triple_and (ready_insertOrBuffer
        (fun s (h : FreshKeys (row.id ::ₘ 0) _ s) => h.buffer_object)
        (fun r hr => by cases hr; rfl) fun i _ h => nomatch h) counting_insertObject
    have hfinish : Triple (Mid 0)
        (cacheOn >>= fun on => if on then locked (addToCacheAsChild { obj with id := id }) >>= fun _ =>
          (pure { obj with id := (id : Int) } : Storage CdsObject) else pure { obj with id := id })
        (fun _ => Right) Right := by
      refine counting_ifCache (M := Right) (fun s hs => ?_) ?_ (triple_pure fun _ h => h)
      · obtain ⟨c, hc, -⟩ := hs.1.cached
        rw [hc]
        rfl
      · have htold : Triple (Counting 0 0 (row.parentID ::ₘ 0) rows')
            (addToCacheAsChild { obj with id := (id : Int) })
            (fun _ => Counting 0 0 ((row.parentID ::ₘ 0).erase obj.parentID) rows') Right :=
          counting_addToCacheAsChild { obj with id := (id : Int) }
            (hrow ▸ Multiset.mem_cons_self _ _)
        refine triple_conseq htold (fun s hs => hs.2) (fun _ s hs => ⟨rows', ?_⟩) fun _ h => h
        rw [hrow, Multiset.erase_cons_head] at hs
        exact hs
    refine Triple.final (triple_bind hobject fun _ => ?_) hstart
    simp only
    split
    · next action state _ =>
      let item : ActiveItemRow := { id := id, action := action, state := state }
      refine triple_bind (M := fun _ => Mid 0) ?_ fun _ => hfinish
      refine triple_conseq (triple_and (ready_insertOrBuffer
        (fun s (h : FreshKeys 0 (item.id ::ₘ 0) s) => h.buffer_activeItem)
        (fun r hr => nomatch hr) fun i h => h) counting_insertActiveItem)
        (fun s hs => ⟨hs.1, hs.2, hs.1.on⟩) (fun _ _ h => h) fun _ h => h
    · exact triple_conseq hfinish (fun s h => ⟨h.1.mono (le_refl _) (Multiset.zero_le _),
        h.2.mono (le_refl _) (Multiset.zero_le _)⟩) (fun _ _ h => h) fun _ h => h

/-! ## Making a container -/

/-- No row has `i` as its parent. -/
theorem childCount_none {i : Int} (h : ¬ ∃ r ∈ rows, r.parentID = i) : childCount rows i = 0 :=
  Multiset.countP_eq_zero.mpr fun r hr hi => h ⟨r, hr, hi⟩

/-- **`createContainer`**, where no row names the new container as its parent. -/
theorem guarded_newContainer (parentID : Int) (name path : Str) (isVirtual : Bool)
    (upnpClass : Option Str) (refID : Int) :
    (guarded (fun f s => ¬ LosesCount f s) CountsRight).Holds (do
      let newID ← getNextID
      execInsertObject (containerRow newID parentID name path isVirtual upnpClass refID)
      if ← cacheOn then
        locked (informCache newID parentID path)
      pure (newID : Int)) := by
  rintro s hP ⟨hb, rows, hc⟩
  refine ⟨Triple.keeps (bufferInv_newContainer _ _ _ _ _ _) s hb, ?_⟩
  rcases hc.keys.getNextID with ⟨e, hrun⟩ | ⟨id, hid, hrun, hkeys⟩
  · rw [run_bind_of_error hrun]
    exact ⟨rows, hc⟩
  · rw [run_bind_of_ok hrun]
    replace hP := (along_bind hP).2 _ _ hrun
    let row := containerRow id parentID name path isVirtual upnpClass refID
    have hreserved : FreshKeys (row.id ::ₘ 0) 0 { s with lastID := s.lastID + 1 } :=
      hkeys.mono (le_refl _) (Multiset.zero_le ((id : Int) ::ₘ 0))
    obtain ⟨db, -, hins, hperm, hkeys'⟩ := hreserved.run_execInsertObject
    rw [run_bind_of_ok hins]
    replace hP := (along_bind hP).2 _ _ hins
    have hc' : Counting 0 0 (parentID ::ₘ 0) (row ::ₘ rows)
        (insertedState row db { s with lastID := s.lastID + 1 }) :=
      Counting.insert (s := { s with lastID := s.lastID + 1 })
        ⟨hreserved, hc.owedTo, hc.allRows, hc.counts, hc.marker⟩ hkeys' rfl hperm rfl
    have hisSome : s.cache.isSome = true := CountsRight.cacheIsSome ⟨hb, rows, hc⟩
    have hon : (insertedState row db { s with lastID := s.lastID + 1 }).cache.isSome = true :=
      hisSome
    unfold cacheOn at hP ⊢
    rw [run_read_bind, if_pos hon]
    replace hP := (along_bind hP).2 _ _ (run_read _ _)
    rw [if_pos hon] at hP
    have hempty := (along_bind hP).1.1
    -- the container has the last id
    have hnone : ¬ ∃ r ∈ (insertedState row db { s with lastID := s.lastID + 1 }).rows,
        r.parentID = (id : Int) := by
      intro h
      have hlast : (insertedState row db { s with lastID := s.lastID + 1 }).lastID = id := hid.symm
      rw [← hlast] at h hempty
      exact hempty (.container h)
    have hzero : ((parentID ::ₘ (0 : Multiset Int)).erase parentID).count (id : Int) =
        childCount (row ::ₘ rows) id := by
      rw [Multiset.erase_cons_head, Multiset.count_zero, childCount_none]
      rintro ⟨r, hr, hri⟩
      rw [← hc'.allRows] at hr
      exact hnone ⟨r, hr, hri⟩
    have htold : Triple (Counting 0 0 (parentID ::ₘ 0) (row ::ₘ rows))
        (informCache id parentID path)
        (fun _ => Counting 0 0 ((parentID ::ₘ 0).erase parentID) (row ::ₘ rows))
        fun s => ∃ rows, Counting 0 0 0 rows s :=
      counting_informCache (Multiset.mem_cons_self parentID 0) hzero
    refine Triple.final (triple_bind (triple_locked htold) fun _ => ?_) hc'
    refine triple_pure fun t ht => ⟨row ::ₘ rows, ?_⟩
    rw [Multiset.erase_cons_head] at ht
    exact ht

/-! ## Updating an object -/

theorem map_parents_update (db : Database) (cols : ObjectColumns) (id : Int)
    (h : ∀ r ∈ db.objects.rows, r.id = id → (cols.apply r).parentID = r.parentID) :
    (cols.update id db).objects.rows.map ObjectRow.parentID =
      db.objects.rows.map ObjectRow.parentID := by
  show (db.objects.rows.map _).map ObjectRow.parentID = _
  rw [List.map_map]
  refine List.map_congr_left fun r hr => ?_
  show (if r.id = id then cols.apply r else r).parentID = r.parentID
  split
  · next hid => exact h r hr hid
  · rfl

/-- The PC directory stays where it is. -/
theorem countsRight_fsRootRow (obj : CdsObject) :
    Keeps (Frame.inv CountsRight) (exec ((fsRootColumns obj).update cdsIdFsRoot)) :=
  keeps_modify fun s hs => countsRight_sameParents hs (bufferInv_updateObjects hs.buffer)
    (map_parents_update s.db _ _ fun _ _ _ => rfl)

/-- How many children a row that moves takes along. -/
theorem childCount_update {db : Database} {cols : ObjectColumns} {id i : Int}
    (h : ∀ r ∈ db.objects.rows, r.id = id → (cols.apply r).parentID ≠ r.parentID →
      r.parentID ≠ i ∧ (cols.apply r).parentID ≠ i) (buffered : List ObjectRow) :
    childCount ((cols.update id db).objects.rows ++ buffered : List ObjectRow) i =
      childCount (db.objects.rows ++ buffered : List ObjectRow) i := by
  have hrows : (cols.update id db).objects.rows =
      db.objects.rows.map fun r => if r.id = id then cols.apply r else r := rfl
  unfold childCount
  rw [Multiset.coe_countP, Multiset.coe_countP, List.countP_append, List.countP_append, hrows,
    List.countP_map]
  congr 1
  refine List.countP_congr fun r hr => ?_
  simp only [Function.comp, decide_eq_true_eq]
  split
  · next hid =>
    by_cases hmoves : (cols.apply r).parentID = r.parentID
    · rw [hmoves]
    · obtain ⟨hold, hnew⟩ := h r hr hid hmoves
      exact ⟨fun heq => absurd heq hnew, fun heq => absurd heq hold⟩
  · exact Iff.rfl

/-- **The UPDATE**, where it moves no row whose parents are counted. -/
theorem guarded_update (cols : ObjectColumns) (id : Int) :
    (guarded (fun f s => ¬ LosesCount f s) CountsRight).Holds (exec (cols.update id)) := by
  rintro s ⟨hP, -⟩ ⟨hb, rows, hc⟩
  have hbuffer : BufferInv { s with db := cols.update id s.db } := bufferInv_updateObjects hb
  refine ⟨hbuffer, _, hbuffer.keys, hc.owedTo, rfl, fun c n hn => ?_, hc.marker⟩
  have hn' : cachedNumChildren s c = some n := hn
  rw [hc.counts c n hn', ← hc.allRows]
  refine congrArg Nat.cast (childCount_update (fun r hr hid hmoves => ?_) s.bufferedRows).symm
  constructor
  · rintro rfl
    exact hP (.move hr hid hmoves (Or.inl fun hnone => by rw [hnone] at hn'; cases hn'))
  · rintro rfl
    exact hP (.move hr hid hmoves (Or.inr fun hnone => by rw [hnone] at hn'; cases hn'))

theorem guarded_writeObject (cols : ObjectColumns) (obj : CdsObject) :
    (guarded (fun f s => ¬ LosesCount f s) CountsRight).Holds (writeObject cols obj) := by
  refine holds_writeObject ⟨guarded_of_keeps countsRight_flush, fun obj =>
    guarded_of_keeps (countsRight_addObjectToCache obj)⟩ (guarded_update cols obj.id) fun row _ => ?_
  refine guarded_of_keeps (keeps_modify fun s hs => countsRight_sameParents hs ?_ rfl)
  refine hs.buffer.withDB rfl ?_
  show (s.db.activeItems.rows.map _).map ActiveItemRow.id = _
  rw [List.map_map]
  refine List.map_congr_left fun r _ => ?_
  simp only [Function.comp]
  split
  · next heq => exact heq.symm
  · rfl

/-! ## Asking for a count -/

/-- What `getChildCount` is to answer: how many of the rows match the filter. -/
def countedChildren (rows : List ObjectRow) (contId : Int) (containers items hideFsRoot : Bool) :
    Nat :=
  if !containers && !items then 0
  else (rows.filter (isCountedChild contId containers items hideFsRoot)).length

/-- A count the cache keeps is that of all children. -/
theorem isCountedChild_cached {contId : Int} {containers items hideFsRoot : Bool}
    (h : isCachedCount contId containers items hideFsRoot = true) (r : ObjectRow) :
    isCountedChild contId containers items hideFsRoot r = decide (r.parentID = contId) := by
  unfold isCachedCount at h
  rw [Bool.and_eq_true, Bool.and_eq_true, Bool.not_eq_true'] at h
  obtain ⟨⟨hcontainers, hitems⟩, hshown⟩ := h
  unfold isCountedChild
  rw [hcontainers, hitems, hshown]
  simp

theorem countedChildren_cached {contId : Int} {containers items hideFsRoot : Bool}
    (h : isCachedCount contId containers items hideFsRoot = true) (l : List ObjectRow) :
    (l.filter (isCountedChild contId containers items hideFsRoot)).length =
      childCount (l : Multiset ObjectRow) contId := by
  rw [funext (isCountedChild_cached h), ← List.countP_eq_length_filter]
  unfold childCount
  rw [Multiset.coe_countP]

/-- **A count is right**, from the cache or from the rows, and so is what is written down. -/
theorem run_getChildCount (h : CountsRight s) (contId : Int) (containers items hideFsRoot : Bool) :
    ∃ s', (getChildCount contId containers items hideFsRoot).run s =
      (.ok (countedChildren s.rows contId containers items hideFsRoot), s') ∧ CountsRight s' := by
  unfold getChildCount countedChildren
  by_cases hnone : (!containers && !items) = true
  · rw [if_pos hnone, if_pos hnone]
    exact ⟨s, rfl, h⟩
  rw [if_neg hnone, if_neg hnone]
  obtain ⟨rows, hc⟩ := h.counts
  -- the look into the database, and what it tells the cache
  obtain ⟨s₀, hflush, hf, hempty⟩ := h.buffer.toBuffering.run_flush
  have h₀ : CountsRight s₀ := by
    have hkept := countsRight_flush s h
    rwa [hflush] at hkept
  have hrows : s₀.db.objects.rows = s.rows := by
    rw [← hf.rows, StorageState.rows_of_flushed hempty]
  by_cases hcached : isCachedCount contId containers items hideFsRoot = true
  · simp only [hcached, if_true]
    rw [run_read_bind]
    rcases hknown : cachedNumChildren s contId with _ | n
    · simp only [run_bind_of_ok hflush, select, cacheOn, run_read_bind, Database.selectObjects,
        hrows, h₀.cacheIsSome, if_true]
      obtain ⟨rows₀, hc₀⟩ := h₀.counts
      have hright : ((s.rows.filter (isCountedChild contId containers items hideFsRoot)).length : Int) +
          (0 : Multiset Int).count contId = childCount rows₀ contId := by
        rw [Multiset.count_zero, countedChildren_cached hcached, ← hc₀.allRows, ← hf.rows]
        omega
      have hpublish : Keeps (Frame.inv BufferInv) (locked (publishNumChildren contId
          (s.rows.filter (isCountedChild contId containers items hideFsRoot)).length)) :=
        keeps_locked (Triple.keeps (ready_modifyCache fun c =>
          (StorageCache.remembers_getObjectDefinitely _).trans
            (StorageCache.remembers_modifyObject fun _ => rfl)))
      have htriple : Triple (Counting 0 0 0 rows₀) (publishNumChildren contId
          (s.rows.filter (isCountedChild contId containers items hideFsRoot)).length)
          (fun _ => Counting 0 0 0 rows₀) fun _ => False := counting_publishNumChildren hright
      have htold := triple_locked htriple s₀ hc₀
      rcases hrun : (locked (publishNumChildren contId
        (s.rows.filter (isCountedChild contId containers items hideFsRoot)).length)).run s₀
        with ⟨e | u, s₁⟩
      · rw [hrun] at htold
        exact htold.elim
      · rw [hrun] at htold
        rw [run_bind_of_ok hrun]
        have hb₁ := hpublish s₀ h₀.buffer
        rw [hrun] at hb₁
        exact ⟨s₁, rfl, hb₁, rows₀, htold⟩
    · refine ⟨s, ?_, h⟩
      have hn := hc.counts contId n hknown
      rw [Multiset.count_zero, ← hc.allRows] at hn
      rw [countedChildren_cached hcached, ← hn]
      simp
  · simp only [hcached, Bool.false_eq_true, if_false]
    simp only [run_pure_bind, run_bind_of_ok hflush, select, run_read_bind, Database.selectObjects,
      hrows]
    exact ⟨s₀, rfl, h₀⟩

theorem countsRight_getChildCount (contId : Int) (containers items hideFsRoot : Bool) :
    Keeps (Frame.inv CountsRight) (getChildCount contId containers items hideFsRoot) := by
  intro s h
  obtain ⟨s', hrun, h'⟩ := run_getChildCount h contId containers items hideFsRoot
  rw [hrun]
  exact h'

/-- **Every method but the removals** keeps the counts, where none of its sections loses one. -/
theorem sections_countsRight : Sections (guarded (fun f s => ¬ LosesCount f s) CountsRight) where
  flush := guarded_of_keeps countsRight_flush
  toCache obj := guarded_of_keeps (countsRight_addObjectToCache obj)
  fsRootName name := guarded_of_keeps (readSections_countsRight.fsRootName name)
  objectType id t := guarded_of_keeps (countsRight_publishObjectType id t)
  shape f hf := guarded_of_keeps (readSections_countsRight.shape f hf)
  shapeLocked m hm := guarded_of_keeps (readSections_countsRight.shapeLocked m hm)
  createContainer _ _ _ _ _ _ := holds_createContainer ⟨guarded_of_keeps countsRight_flush,
    fun obj => guarded_of_keeps (countsRight_addObjectToCache obj)⟩
    (guarded_newContainer _ _ _ _ _ _)
  insertNewObject _ _ h := guarded_of_keeps (countsRight_insertNewObject h.parentID)
  writeObject cols obj _ _ := guarded_writeObject cols obj
  fsRootRow obj := guarded_of_keeps (countsRight_fsRootRow obj)
  childCount contId containers items hideFsRoot :=
    guarded_of_keeps (countsRight_getChildCount contId containers items hideFsRoot)

end

/-! ## A removal tells of what it deletes -/

/-- Where a row is decided on or gone, some container is reported. -/
structure ToldInv (db₀ db : Database) (b : RemoveBuffers) (ch : ChangedContainers) : Prop where
  rows : ∀ r ∈ db.objects.rows, r ∈ db₀.objects.rows
  containers : b.recurseContainers ≠ [] → ch.ui ≠ []
  told : ∀ r ∈ db₀.objects.rows, Doomed db b r.id → ch.upnp ≠ [] ∨ ch.ui ≠ []

section

variable {db₀ db : Database} {items containers : List Int} {all : Bool} {b : RemoveBuffers}
  {ch : ChangedContainers}

theorem ToldInv.round (h : ToldInv db₀ db b ch) :
    ToldInv db₀ (removeRound all db b).1 (removeRound all db b).2 (afterPassesChanged db b ch) := by
  refine ⟨fun r hr => h.rows r (mem_removeRound hr), ?_, ?_⟩
  · rw [removeRound_recurseContainers]
    intro hne
    obtain ⟨i, hi⟩ := List.exists_mem_of_ne_nil _ hne
    obtain ⟨r, -, hp, -, -⟩ := mem_afterPasses_recurseContainers.mp hi
    exact h.containers (List.ne_nil_of_mem hp)
  · intro r hr hdoom
    have htold_before : Doomed db b r.id →
        (afterPassesChanged db b ch).upnp ≠ [] ∨ (afterPassesChanged db b ch).ui ≠ [] := by
      intro hold
      rcases h.told r hr hold with hup | hui
      · refine Or.inl ?_
        unfold afterPassesChanged
        simp [hup]
      · exact Or.inr hui
    rcases doomed_removeRound.mp hdoom with hin | hgone
    · rcases mem_afterPasses_remove.mp hin with hin | hin | ⟨r', hr', href, -⟩ | ⟨r', -, hp, -⟩
      · exact htold_before (Or.inl hin)
      · by_cases hthere : r ∈ db.objects.rows
        · refine Or.inl ?_
          have hparent : r.parentID ∈ selectParents b.removeAddParents db :=
            mem_selectParents.mpr ⟨r, hthere, hin, rfl⟩
          unfold afterPassesChanged
          simp [List.ne_nil_of_mem hparent]
        · refine htold_before (Or.inr fun r' hr' hid => hthere ?_)
          rwa [← eq_of_id_eq h.rows hr hr' hid]
      · refine Or.inl ?_
        have hreference : r' ∈ selectReferences b.recurseItems db :=
          mem_selectReferences.mpr ⟨hr', href⟩
        unfold afterPassesChanged
        simp [List.ne_nil_of_mem hreference]
      · exact Or.inr (h.containers (List.ne_nil_of_mem hp))
    · exact htold_before (Or.inr hgone)

theorem toldInv_initial (h : ∀ i ∈ containers, ∃ r ∈ db₀.objects.rows, r.id = i) :
    ToldInv db₀ db₀ (initialBuffers items containers)
      { ui := initialUI items containers db₀ } := by
  have hui : ∀ i ∈ containers, initialUI items containers db₀ ≠ [] := by
    intro i hi
    obtain ⟨r, hr, rfl⟩ := h i hi
    unfold initialUI
    rw [if_neg (List.ne_nil_of_mem hi)]
    exact List.ne_nil_of_mem (mem_selectParents.mpr ⟨r, hr, List.mem_append_right _ hi, rfl⟩)
  refine ⟨fun _ hr => hr, fun hne => ?_, fun r hr hdoom => ?_⟩
  · obtain ⟨i, hi⟩ := List.exists_mem_of_ne_nil _ hne
    exact hui i hi
  · rcases hdoom with hin | hgone
    · exact Or.inr (hui r.id hin)
    · exact absurd rfl (hgone r hr)

/-- **`_recursiveRemove` reports a container**, or it has deleted nothing. -/
theorem recursiveRemove_told {s s' : StorageState}
    (h : ∀ i ∈ containers, ∃ r ∈ s.db.objects.rows, r.id = i)
    (hrun : (recursiveRemove_ items containers all).run s = (.ok ch, s'))
    (hnil : ch.upnp = [] ∧ ch.ui = []) : ∀ r ∈ s.db.objects.rows, r ∈ s'.db.objects.rows := by
  have hinitial : ToldInv s.db s.db (initialBuffers items containers)
      { ui := initialUI items containers s.db } := toldInv_initial h
  have hround : ∀ db b ch, ToldInv s.db db b ch → ToldInv s.db (removeRound all db b).1
      (removeRound all db b).2 (afterPassesChanged db b ch) := fun _ _ _ h => h.round
  have hrule := recursiveRemove_rule hround hinitial
  rw [hrun] at hrule
  obtain ⟨⟨db, b, hinv, -, hdb⟩, -⟩ := hrule
  intro r hr
  by_contra hnot
  have hdoom : Doomed db b r.id := by
    rw [hdb, Database.mem_removeObjects, not_and, not_not] at hnot
    by_cases hin : r ∈ db.objects.rows
    · exact Or.inl (hnot hin)
    · refine Or.inr fun r' hr' hid => hin ?_
      rwa [← eq_of_id_eq hinv.rows hr hr' hid]
  rcases hinv.told r hr hdoom with hup | hui
  · exact hup hnil.1
  · exact hui hnil.2

/-- The containers a caller removes are there. -/
theorem RemovalCall.containers_stored (call : RemovalCall) :
    ∀ i ∈ call.containers db, ∃ r ∈ db.objects.rows, r.id = i := by
  intro i hi
  cases call with
  | removeObject objectID all =>
    unfold containers at hi
    rcases hrow : db.objects.find? objectID with _ | row
    · simp only [hrow] at hi
      cases hi
    · simp only [hrow] at hi
      split at hi
      · next hcontainer =>
        rw [List.mem_singleton.mp hi]
        refine ⟨row, (Lib.Table.find?_eq_some.mp hrow).1, ?_⟩
        unfold removedID
        rw [hcontainer]
        simp
      · cases hi
  | removeObjects list all =>
    obtain ⟨r, hr, rfl⟩ := List.mem_map.mp hi
    exact ⟨r, (List.mem_filter.mp (List.mem_filter.mp hr).1).1, rfl⟩

end

section

variable {s s₀ s' : StorageState}

/-- Rows have gone and the cache is empty, or no row has gone. -/
theorem countsRight_deleted (h₀ : CountsRight s₀) (hbuffer : BufferInv s')
    (hdel : Deletes s₀ s')
    (h : s'.cache = s₀.cache.map StorageCache.clear ∨ s'.rows.Perm s₀.rows) : CountsRight s' := by
  obtain ⟨rows, hc⟩ := h₀.counts
  have howed : s'.uncounted = s₀.uncounted := by rw [hdel.rest]
  have hcached : ∀ i n, cachedNumChildren s' i = some n → s'.cache = s₀.cache := by
    intro i n hn
    rcases hdel.cache with heq | heq
    · exact heq
    · unfold cachedNumChildren at hn
      rw [heq] at hn
      rcases hs : s₀.cache with _ | c
      · rw [hs] at hn
        cases hn
      · rw [hs] at hn
        simp at hn
  have hmarker : ∀ i, isMarkerID i = true → cachedNumChildren s' i = none := by
    intro i hi
    rcases hnum : cachedNumChildren s' i with _ | n
    · rfl
    · have hnone := hc.marker i hi
      unfold cachedNumChildren at hnone hnum
      rw [hcached i n hnum, hnone] at hnum
      cases hnum
  refine ⟨hbuffer, _, hbuffer.keys, by rw [howed]; exact hc.owedTo, rfl, fun i n hn => ?_, hmarker⟩
  have hsame := hcached i n hn
  have hn₀ : cachedNumChildren s₀ i = some n := by
    unfold cachedNumChildren at hn ⊢
    rwa [← hsame]
  rcases h with hclear | hperm
  · -- nothing is known after the cache was emptied
    exfalso
    unfold cachedNumChildren at hn
    rcases hs : s₀.cache with _ | c
    · rw [hclear, hs] at hn
      cases hn
    · rw [hclear, hs] at hn
      simp at hn
  · rw [hc.counts i n hn₀, ← hc.allRows, Multiset.coe_eq_coe.mpr hperm]

/-- **A removal** that returns, or has deleted nothing, keeps the counts. -/
theorem countsRight_removal (call : RemovalCall) (h : CountsRight s)
    (hkept : (∃ res s', call.prog.run s = (.ok res, s')) ∨ (call.prog.run s).2.rows = s.rows) :
    CountsRight (call.prog.run s).2 := by
  have hbuffer := bufferInv_removal call h.buffer
  have hdel := call.deletes s
  obtain ⟨s₀, hflush, hf, hempty⟩ := h.buffer.toBuffering.run_flush
  have h₀ : CountsRight s₀ := by
    have hk := countsRight_flush s h
    rwa [hflush] at hk
  rw [hflush] at hdel
  refine countsRight_deleted h₀ hbuffer hdel ?_
  rcases hkept with ⟨res, s', hrun⟩ | hsame
  · rw [hrun] at hdel ⊢
    obtain ⟨s₀', hflush', hcases⟩ := removal_changedContainers call s s' res hrun
    rw [hflush] at hflush'
    cases hflush'
    rcases res with _ | ch
    · rw [show s' = s₀ from hcases]
      exact Or.inr (List.Perm.refl _)
    · obtain ⟨told, s₁, hremove, hpurge, -⟩ := hcases
      obtain ⟨hremoved, hs₁⟩ := recursiveRemove_ok hremove
      rcases (purgeEmptyContainers_ok hremoved hpurge).2 with ⟨rfl, hnil⟩ | hcleared
      · -- nothing was reported, so nothing has gone
        have hkept := recursiveRemove_told call.containers_stored hremove hnil
        rw [StorageState.rows_of_flushed (hdel.insertBuffer.trans hempty),
          StorageState.rows_of_flushed hempty]
        exact Or.inr ((List.perm_ext_iff_of_nodup (List.Nodup.of_map _ s'.db.objects.nodup)
          (List.Nodup.of_map _ s₀.db.objects.nodup)).mpr fun r => ⟨hdel.objects r, hkept r⟩)
      · rw [hcleared, hs₁]
        exact Or.inl rfl
  · rw [hsame, ← hf.rows]
    exact Or.inr (List.Perm.refl _)

theorem countsRight_step (op : Op) (hkept : CountsKept op s) (h : CountsRight s) :
    CountsRight (op.step s) := by
  unfold CountsKept at hkept
  rcases hrem : op.isRemoval with _ | _
  · rw [hrem, if_neg Bool.false_ne_true] at hkept
    exact holds_op sections_countsRight hrem s hkept h
  · rw [hrem, if_pos rfl] at hkept
    have hcall : ∀ call : RemovalCall, op.prog = Op.ignore call.prog → CountsRight (op.step s) := by
      intro call hprog
      unfold Op.step at hkept ⊢
      rw [hprog, run_ignore] at hkept ⊢
      refine countsRight_removal call h ?_
      rcases hkept with ⟨s', hrun⟩ | hsame
      · obtain ⟨res, s₁, hres, -⟩ := bind_ok hrun
        exact Or.inl ⟨res, s₁, hres⟩
      · exact Or.inr hsame
    cases op with
    | removeObject objectID all => exact hcall (.removeObject objectID all) rfl
    | removeObjects list all => exact hcall (.removeObjects list all) rfl
    | _ => cases hrem

theorem countsRight_started {db : Database} (h : ActiveItemsOwned db)
    (f2i : Str → Except Exception Str) : CountsRight (.started db true f2i) := by
  refine ⟨bufferInv_started h f2i, _, freshKeys_started h true f2i, rfl, rfl, fun c n hn => ?_,
    fun c _ => ?_⟩
  · simp [cachedNumChildren, StorageState.started] at hn
  · simp [cachedNumChildren, StorageState.started]

/-- The same tables without a cache, nothing buffered. -/
def StorageState.uncached (s : StorageState) : StorageState :=
  { (flushInsertBuffer.run s).2 with cache := none, insertBufferOn := false }

theorem run_getChildCount_uncached (h : CountsRight s) (contId : Int)
    (containers items hideFsRoot : Bool) :
    (getChildCount contId containers items hideFsRoot).run s.uncached =
      (.ok (countedChildren s.rows contId containers items hideFsRoot), s.uncached) := by
  obtain ⟨s₀, hflush, hf, hempty⟩ := h.buffer.toBuffering.run_flush
  have hrows : s.uncached.db.objects.rows = s.rows := by
    unfold StorageState.uncached
    rw [hflush, ← hf.rows, StorageState.rows_of_flushed hempty]
  have hoff : flushInsertBuffer.run s.uncached = (.ok (), s.uncached) := by
    unfold flushInsertBuffer
    rw [run_locked, run_get_bind]
    exact rfl
  unfold getChildCount countedChildren
  by_cases hnone : (!containers && !items) = true
  · rw [if_pos hnone, if_pos hnone]
    rfl
  rw [if_neg hnone, if_neg hnone]
  have hunknown : cachedNumChildren s.uncached contId = none := rfl
  have hcacheOff : s.uncached.cache.isSome = false := rfl
  by_cases hcached : isCachedCount contId containers items hideFsRoot = true
  · simp only [hcached, if_true, run_read_bind, hunknown, run_bind_of_ok hoff, select, cacheOn,
      Database.selectObjects, hrows, hcacheOff, Bool.false_eq_true, if_false]
    rfl
  · simp only [hcached, Bool.false_eq_true, if_false, run_pure_bind, run_bind_of_ok hoff, select,
      run_read_bind, Database.selectObjects, hrows]
    rfl

/-- **`getChildCount` counts rows.**  After every run whose calls keep the counts, it answers with the
    number of rows, stored or buffered, that match: the answer there is without a cache. -/
theorem getChildCount_counts_rows (db : Database) (f2i : Str → Except Exception Str)
    (ops : List Op) (howned : ActiveItemsOwned db)
    (hkept : EveryStep CountsKept ops (.started db true f2i)) (contId : Int)
    (containers items hideFsRoot : Bool) :
    let s := runOps ops (.started db true f2i)
    let n : Int := countedChildren s.rows contId containers items hideFsRoot
    (∃ s', (getChildCount contId containers items hideFsRoot).run s = (.ok n, s')) ∧
      (getChildCount contId containers items hideFsRoot).run s.uncached = (.ok n, s.uncached) := by
  intro s n
  have h : CountsRight s := runOps_inv (fun op s hop => countsRight_step op hop) ops _ hkept
    (countsRight_started howned f2i)
  obtain ⟨s', hrun, -⟩ := run_getChildCount h contId containers items hideFsRoot
  exact ⟨⟨s', hrun⟩, run_getChildCount_uncached h contId containers items hideFsRoot⟩

/-! ### Two containers -/

/-- Between the two states no row moves, and no row has the last id as its parent. -/
def isQuiet (s s' : StorageState) : Bool :=
  (s.rows.all fun r => r.parentID ≠ s.lastID) &&
    s.db.objects.rows.all fun r => s'.db.objects.rows.all fun r' =>
      r'.id ≠ r.id || r'.parentID = r.parentID

theorem not_losesCount_of_quiet {β : Type} {f : StorageState → β × StorageState}
    (h : isQuiet s (f s).2 = true) : ¬ LosesCount f s := by
  unfold isQuiet at h
  rw [Bool.and_eq_true] at h
  obtain ⟨hempty, hstay⟩ := h
  intro hloses
  cases hloses with
  | container h =>
    obtain ⟨r, hr, hparent⟩ := h
    have hne := List.all_eq_true.mp hempty r hr
    exact of_decide_eq_true hne hparent
  | move hr hid hmoves hknown =>
    next cols id r =>
    have hrow : cols.apply r ∈ (cols.update id s.db).objects.rows :=
      List.mem_map.mpr ⟨r, hr, if_pos hid⟩
    have hsame := List.all_eq_true.mp (List.all_eq_true.mp hstay r hr) _ hrow
    simp [hmoves] at hsame

/-- A call that can be seen to keep the counts. -/
theorem countsKept_of_quiet {op : Op} (hrem : op.isRemoval = false)
    (h : ((op.prog.steps s).all fun p => isQuiet p.1 p.2) = true) : CountsKept op s := by
  unfold CountsKept
  rw [hrem, if_neg Bool.false_ne_true]
  refine along_of_steps fun p hp β f hf => ?_
  refine not_losesCount_of_quiet ?_
  rw [hf]
  exact List.all_eq_true.mp h p hp

/-- A stream, in the container `parentID`. -/
def plainStream (parentID : Int) : CdsObject where
  parentID := parentID
  title := some (str "s")
  upnpClass := some (str "object.item")
  location := some (str "http://s/")
  kind := .itemExternalURL {}
  resources := [plainResource]

/-- The containers `/A` (2) and `/B` (3), and a stream in the first (4). -/
def twoContainers : List Op :=
  [.addContainerChain (str "/A") none invalidObjectID none,
   .addContainerChain (str "/B") none invalidObjectID none,
   .addObject (plainStream 2)]

/-- One stream is in the first container. -/
theorem getChildCount_counts_one : ∃ s', (getChildCount 2 true true false).run
    (runOps twoContainers (.started .fresh true .ok)) = (.ok 1, s') := by
  have hkept : EveryStep CountsKept twoContainers (.started .fresh true .ok) :=
    ⟨countsKept_of_quiet rfl (by decide +kernel), countsKept_of_quiet rfl (by decide +kernel),
      countsKept_of_quiet rfl (by decide +kernel), trivial⟩
  have hcount := (getChildCount_counts_rows .fresh .ok twoContainers (by decide) hkept 2 true true
    false).1
  have hone : countedChildren (runOps twoContainers (.started .fresh true .ok)).rows 2 true true
      false = 1 := by
    decide +kernel
  rw [hone] at hcount
  exact hcount

/-- **A stream that moves is counted twice**: once its parent is changed, its old container is
    reported to have one child, and no row has it as its parent. -/
theorem moved_stream_counted :
    let s := runOps (twoContainers ++ [.updateObject { plainStream 3 with id := 4 }])
      (.started .fresh true .ok)
    ((getChildCount 2 true true false).run s).1 = .ok 1 ∧
      countedChildren s.rows 2 true true false = 0 := by
  decide +kernel

end

end MediaTomb
