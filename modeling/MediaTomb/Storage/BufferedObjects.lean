/-
  The insert buffer and the cache.

  `loadObject` does not flush, so an object whose INSERT is still buffered must be known to the cache.
  A lookup that makes a cache object may EMPTY the cache for space; the one-shot flag `flushed` then
  makes the caller flush the buffer.  Between these two sections the invariant is broken: it is
  `Pending`, and it is `Ready` again once the flag has been seen.
-/
import MediaTomb.Storage.Deletes

namespace MediaTomb

open Lib.Prog

/-! ## What the cache remembers -/

namespace StorageCache

/-- The cache knows the object with this id. -/
def Knows (c : StorageCache) (i : Int) : Prop :=
  ∃ cObj obj, c.getObject i = some cObj ∧ cObj.obj = some obj ∧ obj.id = i

/-- `c'` knows every object that `c` knows, or it has been emptied and the flag is up. -/
def Remembers (c c' : StorageCache) : Prop :=
  c'.hasBeenFlushed = true ∨
    (c'.hasBeenFlushed = c.hasBeenFlushed ∧ ∀ i, c.Knows i → c'.Knows i)

variable {c : StorageCache} {id : Int}

theorem Remembers.trans {c' c'' : StorageCache} (h : c.Remembers c') (h' : c'.Remembers c'') :
    c.Remembers c'' := by
  rcases h' with hflag | ⟨hflag, hknows'⟩
  · exact Or.inl hflag
  · rcases h with hflag' | ⟨hflag', hknows⟩
    · exact Or.inl (hflag.trans hflag')
    · exact Or.inr ⟨hflag.trans hflag', fun i hi => hknows' i (hknows i hi)⟩

theorem Knows.of_getObject_eq {c' : StorageCache} {i : Int} (h : c.Knows i)
    (heq : c'.getObject i = c.getObject i) : c'.Knows i := by
  unfold Knows
  rw [heq]
  exact h

theorem knows_put {cObj : CacheObject} {i : Int} (h : c.Knows i) (hnone : c.getObject id = none) :
    (c.put id cObj).Knows i := by
  refine h.of_getObject_eq (getObject_put_ne ?_)
  rintro rfl
  obtain ⟨cObj', obj, hget, -⟩ := h
  rw [hnone] at hget
  cases hget

@[simp] theorem hasBeenFlushed_put (cObj : CacheObject) :
    (c.put id cObj).hasBeenFlushed = c.hasBeenFlushed := by
  unfold put
  split <;> rfl

@[simp] theorem hasBeenFlushed_store (cObj : CacheObject) :
    (c.store id cObj).hasBeenFlushed = c.hasBeenFlushed := by
  unfold store
  split <;> rfl

@[simp] theorem hasBeenFlushed_checkLocation (cObj : CacheObject) :
    (c.checkLocation id cObj).hasBeenFlushed = c.hasBeenFlushed := by
  unfold checkLocation
  split
  · rfl
  · split
    · rfl
    · split <;> rfl

/-- **Making a cache object** forgets nothing, or raises the flag. -/
theorem remembers_getObjectDefinitely (id : Int) : c.Remembers (c.getObjectDefinitely id).2 := by
  unfold getObjectDefinitely
  rcases hget : c.getObject id with _ | cObj
  · simp only
    unfold ensureFillLevelOk
    split
    · exact Or.inl (hasBeenFlushed_put _)
    · exact Or.inr ⟨hasBeenFlushed_put _, fun i hi => knows_put hi hget⟩
  · exact Or.inr ⟨rfl, fun i hi => hi⟩

/-- Writing to a cache object, its object as before. -/
theorem remembers_store {cObj : CacheObject}
    (h : ∀ cObj₀ obj, c.getObject id = some cObj₀ → cObj₀.obj = some obj → cObj.obj = some obj) :
    c.Remembers (c.store id cObj) := by
  refine Or.inr ⟨hasBeenFlushed_store _, fun i hi => ?_⟩
  by_cases heq : i = id
  · subst heq
    by_cases hmark : isMarkerID i = true
    · unfold store
      rw [if_pos hmark]
      exact hi
    · obtain ⟨cObj₀, obj, hget, hobj, hid⟩ := hi
      exact ⟨cObj, obj, getObject_store_self (Bool.not_eq_true _ ▸ hmark), h _ _ hget hobj, hid⟩
  · exact hi.of_getObject_eq (getObject_store_ne heq)

theorem remembers_modifyObject {f : CacheObject → CacheObject} (h : ∀ cObj, (f cObj).obj = cObj.obj) :
    c.Remembers (c.modifyObject id f) := by
  refine remembers_store fun cObj₀ obj hget hobj => ?_
  rw [hget, h]
  exact hobj

theorem remembers_addChild (id : Int) : c.Remembers (c.addChild id) := by
  unfold addChild
  split
  · exact Or.inr ⟨rfl, fun i hi => hi⟩
  · next cObj hget =>
    split
    · exact Or.inr ⟨rfl, fun i hi => hi⟩
    · refine remembers_store fun cObj₀ obj hget₀ hobj => ?_
      rw [hget] at hget₀
      cases hget₀
      exact hobj

/-- **The cache after it was told of an object.** -/
theorem remembers_setObject (obj : CdsObject) (cObj : CacheObject) :
    let c' := (c.store obj.id (cObj.setObject obj)).checkLocation obj.id (cObj.setObject obj)
    c'.hasBeenFlushed = c.hasBeenFlushed ∧ (∀ i, c.Knows i → c'.Knows i) ∧
      (isMarkerID obj.id = false → c'.Knows obj.id) := by
  have hself : isMarkerID obj.id = false → ((c.store obj.id (cObj.setObject obj)).checkLocation
      obj.id (cObj.setObject obj)).Knows obj.id := by
    intro hmark
    exact ⟨cObj.setObject obj, obj.copy, getObject_checkLocation.trans (getObject_store_self hmark),
      rfl, rfl⟩
  refine ⟨?_, fun i hi => ?_, hself⟩
  · rw [hasBeenFlushed_checkLocation, hasBeenFlushed_store]
  · by_cases hmark : isMarkerID obj.id = true
    · refine hi.of_getObject_eq (getObject_checkLocation.trans ?_)
      unfold store
      rw [if_pos hmark]
    · by_cases heq : i = obj.id
      · rw [heq]
        exact hself (Bool.not_eq_true _ ▸ hmark)
      · exact hi.of_getObject_eq (getObject_checkLocation.trans (getObject_store_ne heq))

end StorageCache

/-! ## The buffer -/

/-- The bookkeeping of the buffer: keys are fresh, an empty one is known to be, and what was executed
    followed by what is buffered is all that ever was. -/
structure Buffering (objs items : Multiset Int) (s : StorageState) : Prop where
  keys : FreshKeys objs items s
  on : s.insertBufferOn = true
  settled : s.insertBufferEmpty = true → s.insertBuffer = []
  order : s.executed ++ s.insertBuffer = s.buffered

section

variable {objs items : Multiset Int} {s s' : StorageState}

theorem Buffering.flushed (h : Buffering objs items s) (hf : Flushed s s') :
    Buffering objs items s' := by
  refine ⟨h.keys.flushed hf, hf.insertBufferOn.trans h.on, ?_, ?_⟩
  · cases hf with
    | same => exact h.settled
    | executed db hdb => exact fun _ => rfl
  · cases hf with
    | same => exact h.order
    | executed db hdb => exact (List.append_nil _).trans h.order

/-- **A flush empties the buffer.** -/
theorem Buffering.run_flush (h : Buffering objs items s) :
    ∃ s', flushInsertBuffer.run s = (.ok (), s') ∧ Flushed s s' ∧ s'.insertBuffer = [] := by
  rcases run_flushInsertBuffer s with ⟨hskip, hrun⟩ | ⟨db, -, hdone, hrun⟩ | ⟨e, db, _, _, -, -, -, hrun⟩
  · refine ⟨s, hrun, .same, h.settled ?_⟩
    rcases hskip with hoff | hempty
    · rw [h.on] at hoff
      cases hoff
    · exact hempty
  · exact ⟨_, hrun, .executed db hdone, rfl⟩
  · obtain ⟨s', hok, -⟩ := h.keys.run_flush
    rw [hrun] at hok
    cases hok

/-- The bookkeeping looks at rows, counters and the buffer. -/
theorem Buffering.congr (h : Buffering objs items s) (hkeys : FreshKeys objs items s')
    (hon : s'.insertBufferOn = s.insertBufferOn) (hempty : s'.insertBufferEmpty = s.insertBufferEmpty)
    (hbuf : s'.insertBuffer = s.insertBuffer) (hexec : s'.executed = s.executed)
    (hbuffered : s'.buffered = s.buffered) : Buffering objs items s' := by
  refine ⟨hkeys, hon.trans h.on, ?_, ?_⟩
  · rw [hempty, hbuf]
    exact h.settled
  · rw [hexec, hbuf, hbuffered]
    exact h.order

theorem Buffering.told (h : Buffering objs items s) (cache : Option StorageCache)
    (uncounted : List Int) :
    Buffering objs items { s with cache := cache, uncounted := uncounted } :=
  ⟨⟨h.keys.objects, h.keys.activeItems⟩, h.on, h.settled, h.order⟩

end

/-! ## The buffer and the cache -/

/-- The cache knows the objects of the buffered rows, that of `but` apart. -/
def KnowsBuffered (c : StorageCache) (but : Option Int) (s : StorageState) : Prop :=
  ∀ r ∈ s.bufferedRows, but ≠ some r.id → c.Knows r.id

/-- The cache knows what is buffered, or the flag is up. -/
structure Pending (objs items : Multiset Int) (but : Option Int) (s : StorageState) : Prop
    extends Buffering objs items s where
  cached : ∃ c, s.cache = some c ∧ (c.hasBeenFlushed = true ∨ KnowsBuffered c but s)

/-- The cache knows what is buffered. -/
structure Ready (objs items : Multiset Int) (but : Option Int) (s : StorageState) : Prop
    extends Buffering objs items s where
  cached : ∃ c, s.cache = some c ∧ c.hasBeenFlushed = false ∧ KnowsBuffered c but s

section

variable {objs items : Multiset Int} {but : Option Int} {s s' : StorageState}

theorem Ready.pending (h : Ready objs items but s) : Pending objs items but s := by
  obtain ⟨c, hc, -, hknows⟩ := h.cached
  exact ⟨h.toBuffering, c, hc, Or.inr hknows⟩

theorem Flushed.bufferedRows (h : Flushed s s') : ∀ r ∈ s'.bufferedRows, r ∈ s.bufferedRows := by
  cases h with
  | same => exact fun r hr => hr
  | executed db h => exact fun r hr => nomatch hr

theorem Ready.flushed (h : Ready objs items but s) (hf : Flushed s s') : Ready objs items but s' := by
  obtain ⟨c, hc, hflag, hknows⟩ := h.cached
  exact ⟨h.toBuffering.flushed hf, c, hf.cache.trans hc, hflag,
    fun r hr hbut => hknows r (hf.bufferedRows r hr) hbut⟩

theorem Ready.run_flush (h : Ready objs items but s) :
    ∃ s', flushInsertBuffer.run s = (.ok (), s') ∧ s'.insertBuffer = [] ∧ Ready objs items but s' := by
  obtain ⟨s', hrun, hf, hempty⟩ := h.toBuffering.run_flush
  exact ⟨s', hrun, hempty, h.flushed hf⟩

/-- The reservations of an object that is done. -/
theorem Ready.mono (h : Ready objs items but s) {objs' items' : Multiset Int} (hobjs : objs' ≤ objs)
    (hitems : items' ≤ items) : Ready objs' items' but s :=
  ⟨⟨h.keys.mono hobjs hitems, h.on, h.settled, h.order⟩, h.cached⟩

/-- Other tables, with rows of the same ids. -/
theorem Ready.withDB (h : Ready objs items but s) {db : Database}
    (hobj : db.objects.rows.map ObjectRow.id = s.db.objects.rows.map ObjectRow.id)
    (hact : db.activeItems.rows.map ActiveItemRow.id = s.db.activeItems.rows.map ActiveItemRow.id) :
    Ready objs items but { s with db := db } := by
  refine ⟨h.toBuffering.congr (h.keys.congr ?_ ?_ rfl) rfl rfl rfl rfl rfl, h.cached⟩
  · unfold StorageState.objectIDs StorageState.rows StorageState.bufferedRows
    rw [List.map_append, List.map_append]
    simp only [hobj]
  · unfold StorageState.activeItemIDs StorageState.activeItemRows
    rw [List.map_append, List.map_append]
    simp only [hact]

end

/-! ## Sections under the cache lock -/

section

variable {objs items : Multiset Int} {but : Option Int} {E : StorageState → Prop}

theorem pending_modifyCache {f : StorageCache → StorageCache} (hf : ∀ c, StorageCache.Remembers c (f c)) :
    Triple (Pending objs items but) (modifyCache f) (fun _ => Pending objs items but) E := by
  refine triple_modify fun s hs => ?_
  obtain ⟨c, hc, hcases⟩ := hs.cached
  refine ⟨hs.toBuffering.told _ _, f c, by rw [hc]; rfl, ?_⟩
  rcases hf c with hflag | ⟨hflag, hknows⟩
  · exact Or.inl hflag
  · rcases hcases with hup | hall
    · exact Or.inl (hflag.trans hup)
    · exact Or.inr fun r hr hbut => hknows r.id (hall r hr hbut)

theorem pending_addChild (parentID : Int) :
    Triple (Pending objs items but) (addChild parentID) (fun _ => Pending objs items but) E := by
  refine triple_modify fun s hs => ?_
  obtain ⟨c, hc, hcases⟩ := hs.cached
  refine ⟨hs.toBuffering.told _ _,
    c.addChild parentID, by rw [hc]; rfl, ?_⟩
  rcases StorageCache.remembers_addChild (c := c) parentID with hflag | ⟨hflag, hknows⟩
  · exact Or.inl hflag
  · rcases hcases with hup | hall
    · exact Or.inl (hflag.trans hup)
    · exact Or.inr fun r hr hbut => hknows r.id (hall r hr hbut)

/-- **The flag is seen**: the buffer is flushed where the cache was emptied. -/
theorem ready_flushIfFlushed :
    Triple (Pending objs items but) flushIfFlushed (fun _ => Ready objs items but) E := by
  intro s hs
  obtain ⟨c, hc, hcases⟩ := hs.cached
  unfold flushIfFlushed
  rw [run_get_bind, hc]
  simp only [modifyCache, run_modify_bind, hc, Option.map_some]
  have hbuf : Buffering objs items { s with cache := some c.flushed.2 } :=
    hs.toBuffering.told _ _
  by_cases hflag : c.hasBeenFlushed = true
  · rw [if_pos (show c.flushed.1 = true from hflag)]
    obtain ⟨s', hrun, hf, hempty⟩ := hbuf.run_flush
    rw [hrun]
    refine ⟨hbuf.flushed hf, c.flushed.2, hf.cache, rfl, fun r hr => ?_⟩
    rw [StorageState.bufferedRows, hempty] at hr
    cases hr
  · rw [if_neg (show ¬ c.flushed.1 = true from hflag)]
    exact ⟨hbuf, c.flushed.2, rfl, rfl, hcases.resolve_left hflag⟩

/-- **The cache is told of an object**, and knows it from then on. -/
theorem ready_addObjectToCacheLocked (obj : CdsObject) :
    Triple (Ready objs items but) (addObjectToCacheLocked obj)
      (fun _ s => Ready objs items but s ∧
        (isMarkerID obj.id = false → ∃ c, s.cache = some c ∧ c.Knows obj.id)) E := by
  refine triple_bind (M := fun _ => Pending objs items but) ?_ fun _ =>
    triple_bind (M := fun _ => Ready objs items but) ready_flushIfFlushed fun _ => ?_
  · exact triple_conseq (pending_modifyCache fun c => StorageCache.remembers_getObjectDefinitely _)
      (fun s hs => hs.pending) (fun _ _ h => h) fun _ h => h
  · refine triple_modify fun s hs => ?_
    obtain ⟨c, hc, hflag, hknows⟩ := hs.cached
    obtain ⟨hflag', hknows', hself⟩ :=
      StorageCache.remembers_setObject (c := c) obj ((c.getObject obj.id).getD {})
    refine ⟨⟨hs.toBuffering.told _ _, _,
      by rw [hc]; rfl, hflag'.trans hflag, fun r hr hbut => hknows' r.id (hknows r hr hbut)⟩,
      fun hmark => ⟨_, by rw [hc]; rfl, hself hmark⟩⟩

/-- A section that writes to the cache, and the flush after it. -/
theorem ready_modifyCache {f : StorageCache → StorageCache}
    (hf : ∀ c, StorageCache.Remembers c (f c)) :
    Triple (Ready objs items but) (do modifyCache f; flushIfFlushed)
      (fun _ => Ready objs items but) E :=
  triple_bind (triple_conseq (pending_modifyCache hf) (fun _ h => h.pending) (fun _ _ h => h)
    fun _ h => h) fun _ => ready_flushIfFlushed

theorem ready_addToCacheAsChild (obj : CdsObject) (hmark : isMarkerID obj.id = false) :
    Triple (Ready objs items (some obj.id)) (addToCacheAsChild obj)
      (fun _ => Ready objs items none) E := by
  refine triple_bind (M := fun _ => Pending objs items (some obj.id)) ?_ fun _ =>
    triple_bind (M := fun _ => Ready objs items (some obj.id)) ready_flushIfFlushed fun _ => ?_
  · exact triple_conseq (pending_addChild _) (fun s hs => hs.pending) (fun _ _ h => h) fun _ h => h
  · refine triple_conseq (ready_addObjectToCacheLocked obj) (fun _ h => h) ?_ fun _ h => h
    rintro _ s ⟨hs, hself⟩
    obtain ⟨c, hc, hflag, hknows⟩ := hs.cached
    obtain ⟨c', hc', hobj⟩ := hself hmark
    rw [hc] at hc'
    cases hc'
    refine ⟨hs.toBuffering, c, hc, hflag, fun r hr _ => ?_⟩
    by_cases heq : some obj.id = some r.id
    · rw [← Option.some.inj heq]
      exact hobj
    · exact hknows r hr heq

/-- What `createContainer` tells the cache. -/
theorem ready_informCache (newID parentID : Int) (path : Str) :
    Triple (Ready objs items but) (informCache newID parentID path)
      (fun _ => Ready objs items but) E := by
  refine triple_bind (M := fun _ => Pending objs items but) ?_ fun _ =>
    triple_bind (M := fun _ => Ready objs items but) ready_flushIfFlushed fun _ =>
    triple_bind (M := fun _ => Pending objs items but) ?_ fun _ =>
    triple_bind (M := fun _ => Ready objs items but) ready_flushIfFlushed fun _ => ?_
  · exact triple_conseq (pending_addChild _) (fun s hs => hs.pending) (fun _ _ h => h) fun _ h => h
  · exact triple_conseq (pending_modifyCache fun c => StorageCache.remembers_getObjectDefinitely _)
      (fun s hs => hs.pending) (fun _ _ h => h) fun _ h => h
  · -- nothing is forgotten by the last write, and the flag stays down
    refine triple_modify fun s hs => ?_
    obtain ⟨c, hc, hflag, hknows⟩ := hs.cached
    refine ⟨hs.toBuffering.told _ _, _, by rw [hc]; rfl, ?_, ?_⟩
    · exact (StorageCache.hasBeenFlushed_store _).trans hflag
    · have hrem : c.Remembers (c.modifyObject newID fun cObj =>
          { cObj with
            parentID := parentID
            numChildren := some 0
            objectType := some objectTypeContainer
            location := some path }) := StorageCache.remembers_modifyObject fun _ => rfl
      rcases hrem with hup | ⟨-, hall⟩
      · rw [StorageCache.modifyObject, StorageCache.hasBeenFlushed_store, hflag] at hup
        cases hup
      · exact fun r hr hbut => hall r.id (hknows r hr hbut)

end

/-! ## The blocks -/

section

variable {objs items : Multiset Int} {but : Option Int} {E : StorageState → Prop}

/-- A row that was appended to the buffer. -/
theorem mem_bufferedRows_bufferedState {query : Statement} {s : StorageState} {r : ObjectRow}
    (h : r ∈ (bufferedState query s).bufferedRows) :
    r ∈ s.bufferedRows ∨ query.objectRow? = some r := by
  have hin : r ∈ (s.insertBuffer ++ [query]).filterMap Statement.objectRow? := h
  rw [List.filterMap_append] at hin
  rcases List.mem_append.mp hin with hin | hin
  · exact Or.inl hin
  · obtain ⟨q, hq, hrow⟩ := List.mem_filterMap.mp hin
    rw [List.mem_singleton.mp hq] at hrow
    exact Or.inr hrow

/-- The buffer takes a statement; its object may be unknown to the cache for now. -/
theorem Ready.buffered {objs' items' : Multiset Int} {but' : Option Int} {query : Statement}
    {s : StorageState} (h : Ready objs items but s)
    (hkeys : FreshKeys objs' items' (bufferedState query s))
    (hbut : ∀ r, query.objectRow? = some r → but' = some r.id)
    (hold : ∀ i, but' ≠ some i → but ≠ some i) :
    Ready objs' items' but' (bufferedState query s) := by
  obtain ⟨c, hc, hflag, hknows⟩ := h.cached
  refine ⟨⟨hkeys, h.on, (fun hf => nomatch hf), ?_⟩, c, hc, hflag, fun r hr hne => ?_⟩
  · show s.executed ++ (s.insertBuffer ++ [query]) = s.buffered ++ [query]
    rw [← List.append_assoc, h.order]
  · rcases mem_bufferedRows_bufferedState hr with hr | hq
    · exact hknows r hr (hold r.id hne)
    · exact absurd (hbut r hq) hne

theorem ready_insertOrBuffer {objs' items' : Multiset Int} {but' : Option Int} {query : Statement}
    (hkeys : ∀ s, FreshKeys objs items s → FreshKeys objs' items' (bufferedState query s))
    (hbut : ∀ r, query.objectRow? = some r → but' = some r.id)
    (hold : ∀ i, but' ≠ some i → but ≠ some i) :
    Triple (Ready objs items but) (insertOrBuffer query) (fun _ => Ready objs' items' but') E := by
  intro s hs
  unfold insertOrBuffer
  rw [run_read_bind, if_pos hs.on]
  have hready := hs.buffered (hkeys s hs.keys) hbut hold
  obtain ⟨s', hrun, hf⟩ := hready.keys.run_addToInsertBuffer
  rw [hrun]
  exact hready.flushed hf

/-- What is done under the cache lock; there is a cache. -/
theorem ready_ifCache {α : Type} {m : Storage Unit} {n : Storage α} {but' : Option Int}
    {Q : α → StorageState → Prop}
    (hm : Triple (Ready objs items but) m (fun _ => Ready objs items but') E)
    (hn : Triple (Ready objs items but') n Q E) :
    Triple (Ready objs items but)
      (cacheOn >>= fun on => if on then locked m >>= fun _ => n else n) Q E := by
  intro s hs
  obtain ⟨c, hc, -⟩ := hs.cached
  unfold cacheOn
  rw [run_read_bind, hc, Option.isSome_some, if_pos rfl]
  exact triple_bind (triple_locked hm) (fun _ => hn) s hs

end

/-- Everything is known, and no id is reserved: between two sections that matter. -/
abbrev BufferInv : StorageState → Prop := Ready 0 0 none

theorem isMarkerID_of_given {id : Int} (h : cdsIdFsRoot < id) : isMarkerID id = false := by
  unfold isMarkerID invalidObjectID invalidObjectID2
  unfold cdsIdFsRoot at h
  simp only [Bool.or_eq_false_iff, decide_eq_false_iff_not]
  omega

/-- **`insertNewObject`**: the id is reserved, used, and then known. -/
theorem bufferInv_insertNewObject (cols : ObjectColumns) (obj : CdsObject) :
    Triple BufferInv (insertNewObject cols obj) (fun _ => BufferInv) BufferInv := by
  intro s hs
  unfold insertNewObject
  rcases hs.keys.getNextID with ⟨e, hrun⟩ | ⟨id, -, hrun, hkeys⟩
  · rw [run_bind_of_error hrun]
    exact hs
  · rw [run_bind_of_ok hrun]
    obtain ⟨c, hc, hflag, hknows⟩ := hs.cached
    have hs' : Ready ((id : Int) ::ₘ 0) ((id : Int) ::ₘ 0) none { s with lastID := s.lastID + 1 } :=
      ⟨⟨hkeys, hs.on, hs.settled, hs.order⟩, c, hc, hflag, hknows⟩
    have hobject : Triple (Ready ((id : Int) ::ₘ 0) ((id : Int) ::ₘ 0) none)
        (insertOrBuffer (insertObjectStatement cols id))
        (fun _ => Ready 0 ((id : Int) ::ₘ 0) (some id)) BufferInv :=
      ready_insertOrBuffer (fun s (h : FreshKeys ((cols.insertRow id).id ::ₘ 0) _ s) =>
        h.buffer_object) (fun r hr => by cases hr; rfl) fun i _ h => nomatch h
    have hcache : Triple (Ready 0 0 (some (id : Int)))
        (cacheOn >>= fun on => if on then locked (addToCacheAsChild { obj with id := id }) >>= fun _ =>
          (pure { obj with id := (id : Int) } : Storage CdsObject) else pure { obj with id := id })
        (fun _ => BufferInv) BufferInv :=
      ready_ifCache (ready_addToCacheAsChild { obj with id := id } (isMarkerID_of_given id.property))
        (triple_pure fun _ h => h)
    refine triple_bind hobject (fun _ => ?_) _ hs'
    simp only
    split
    · next action state _ =>
      refine triple_bind (M := fun _ => Ready 0 0 (some (id : Int))) ?_ fun _ => hcache
      let row : ActiveItemRow := { id := id, action := action, state := state }
      exact ready_insertOrBuffer (fun s (h : FreshKeys 0 (row.id ::ₘ 0) s) => h.buffer_activeItem)
        (fun r hr => nomatch hr) fun i h => h
    · exact triple_conseq hcache (fun s h => h.mono (le_refl _) (Multiset.zero_le _))
        (fun _ _ h => h) fun _ h => h

/-- **`createContainer`** inserts at once and tells the cache. -/
theorem bufferInv_newContainer (parentID : Int) (name path : Str) (isVirtual : Bool)
    (upnpClass : Option Str) (refID : Int) :
    Triple BufferInv (do
      let newID ← getNextID
      execInsertObject (containerRow newID parentID name path isVirtual upnpClass refID)
      if ← cacheOn then
        locked (informCache newID parentID path)
      pure (newID : Int)) (fun _ => BufferInv) BufferInv := by
  intro s hs
  rcases hs.keys.getNextID with ⟨e, hrun⟩ | ⟨id, -, hrun, hkeys⟩
  · rw [run_bind_of_error hrun]
    exact hs
  · rw [run_bind_of_ok hrun]
    obtain ⟨c, hc, hflag, hknows⟩ := hs.cached
    have hreserved : FreshKeys ((containerRow id parentID name path isVirtual upnpClass refID).id
        ::ₘ 0) 0 { s with lastID := s.lastID + 1 } :=
      hkeys.mono (le_refl _) (Multiset.zero_le ((id : Int) ::ₘ 0))
    obtain ⟨db, -, hins, -, hkeys'⟩ := hreserved.run_execInsertObject
    have hcache : Triple BufferInv (cacheOn >>= fun on => if on then
        locked (informCache id parentID path) >>= fun _ => (pure (id : Int) : Storage Int)
        else pure (id : Int)) (fun _ => BufferInv) BufferInv :=
      ready_ifCache (ready_informCache _ _ _) (triple_pure fun _ h => h)
    rw [run_bind_of_ok hins]
    exact hcache _ ⟨⟨hkeys', hs.on, hs.settled, hs.order⟩, c, hc, hflag, hknows⟩

/-! ## Every method -/

theorem bufferInv_addObjectToCache (obj : CdsObject) :
    Keeps (Frame.inv BufferInv) (addObjectToCache obj) := by
  have hlocked : Keeps (Frame.inv BufferInv) (addObjectToCacheLocked obj) :=
    Triple.keeps (triple_conseq (ready_addObjectToCacheLocked obj) (fun _ h => h)
      (fun _ _ h => h.1) fun _ h => h)
  exact keeps_bind (keeps_read _) fun _ => keeps_ite (fun _ => keeps_locked hlocked) fun _ =>
    keeps_pure _

/-- Statements that keep the ids of the rows. -/
theorem bufferInv_sameObjects {s : StorageState} {db : Database} (h : BufferInv s)
    (hdb : SameObjects s.db db) : BufferInv { s with db := db } := by
  refine h.withDB ?_ (by rw [hdb.activeItems])
  have hids := congrArg (List.map ObjectRow.id) hdb.objects
  rwa [List.map_map, List.map_map] at hids

theorem bufferInv_updateObjects {s : StorageState} (h : BufferInv s) {f : ObjectRow → ObjectRow}
    {hf : ∀ r, (f r).id = r.id} : BufferInv { s with db := s.db.updateObjects f hf } := by
  refine h.withDB ?_ rfl
  show (s.db.objects.rows.map f).map ObjectRow.id = _
  rw [List.map_map]
  exact List.map_congr_left fun r _ => hf r

theorem querySections_bufferInv : QuerySections (Frame.inv BufferInv).logic where
  flush := by
    intro s hs
    obtain ⟨s', hrun, -, hs'⟩ := hs.run_flush
    rw [hrun]
    exact hs'
  toCache := bufferInv_addObjectToCache

theorem readSections_bufferInv : ReadSections (Frame.inv BufferInv).logic where
  toQuerySections := querySections_bufferInv
  fsRootName name := keeps_modify fun s hs =>
    ⟨hs.toBuffering.congr ⟨hs.keys.objects, hs.keys.activeItems⟩ rfl rfl rfl rfl rfl, hs.cached⟩
  objectType id t := keeps_locked (Triple.keeps (ready_modifyCache fun c =>
    (StorageCache.remembers_getObjectDefinitely id).trans
      (StorageCache.remembers_modifyObject fun _ => rfl)))
  shape f hf := keeps_modify fun s hs => bufferInv_sameObjects hs (hf s.db)
  shapeLocked m hm := keeps_locked fun s hs => by
    obtain ⟨db, hdb, hrun⟩ := hm s
    rw [hrun]
    exact bufferInv_sameObjects hs hdb

theorem sections_bufferInv : Sections (Frame.inv BufferInv).logic where
  toReadSections := readSections_bufferInv
  createContainer _ _ _ _ _ _ := holds_createContainer querySections_bufferInv
    (Triple.keeps (bufferInv_newContainer _ _ _ _ _ _))
  insertNewObject cols obj _ := Triple.keeps (bufferInv_insertNewObject cols obj)
  writeObject cols obj _ _ := holds_writeObject querySections_bufferInv
    (keeps_modify fun s hs => bufferInv_updateObjects hs)
    fun row _ => keeps_modify fun s hs => hs.withDB rfl (by
      show (s.db.activeItems.rows.map _).map ActiveItemRow.id = _
      rw [List.map_map]
      refine List.map_congr_left fun r _ => ?_
      simp only [Function.comp]
      split
      · next heq => exact heq.symm
      · rfl)
  fsRootRow obj := keeps_modify fun s hs => bufferInv_updateObjects hs
  childCount := holds_getChildCount querySections_bufferInv fun n => keeps_locked
    (Triple.keeps (ready_modifyCache fun c => (StorageCache.remembers_getObjectDefinitely _).trans
      (StorageCache.remembers_modifyObject fun _ => rfl)))

/-- **A removal** flushes first: what it does to the cache afterwards concerns no buffered row. -/
theorem bufferInv_removal (call : RemovalCall) {s : StorageState} (h : BufferInv s) :
    BufferInv (call.prog.run s).2 := by
  have hdel := call.deletes s
  obtain ⟨s₀, hflush, hempty, hs₀⟩ := h.run_flush
  rw [hflush] at hdel
  obtain ⟨c, hc, hflag, -⟩ := hs₀.cached
  have hbuf : Buffering 0 0 (call.prog.run s).2 := by
    refine hs₀.toBuffering.congr (hs₀.keys.deletes hdel) ?_ ?_ hdel.insertBuffer ?_ ?_
    all_goals rw [hdel.rest]
  have hnone : (call.prog.run s).2.bufferedRows = [] := by
    rw [StorageState.bufferedRows, hdel.insertBuffer, hempty]
    rfl
  rcases hdel.cache with heq | heq
  · exact ⟨hbuf, c, heq.trans hc, hflag, fun r hr => by rw [hnone] at hr; cases hr⟩
  · exact ⟨hbuf, c.clear, by rw [heq, hc]; rfl, hflag, fun r hr => by rw [hnone] at hr; cases hr⟩

theorem bufferInv_step (op : Op) {s : StorageState} (h : BufferInv s) : BufferInv (op.step s) := by
  rcases hrem : op.isRemoval with _ | _
  · exact holds_op sections_bufferInv hrem s h
  · cases op with
    | removeObject objectID all =>
      have hstep := bufferInv_removal (.removeObject objectID all) h
      unfold Op.step Op.prog
      rwa [run_ignore]
    | removeObjects list all =>
      have hstep := bufferInv_removal (.removeObjects list all) h
      unfold Op.step Op.prog
      rwa [run_ignore]
    | _ => cases hrem

theorem bufferInv_runOps (ops : List Op) {s : StorageState} (h : BufferInv s) :
    BufferInv (runOps ops s) := by
  induction ops generalizing s with
  | nil => exact h
  | cons op ops ih => exact ih (bufferInv_step op h)

theorem bufferInv_started {db : Database} (h : ActiveItemsOwned db)
    (f2i : Str → Except Exception Str) : BufferInv (.started db true f2i) :=
  ⟨⟨freshKeys_started h true f2i, rfl, fun _ => rfl, rfl⟩, .empty, rfl, rfl, fun _ hr => nomatch hr⟩

/-! ## Loading -/

/-- What `loadObject` answers for the row `r`: the object the cache knows, or what
    `createObjectFromRow` makes of the stored row. -/
def Loads (s : StorageState) (r : ObjectRow) : Prop :=
  (∃ obj, cachedObject s r.id = some obj ∧ (loadObject r.id).run s = (.ok obj, s)) ∨
    (r ∈ s.db.objects.rows ∧ (loadObject r.id).run s = (createObjectFromRow (s.db.join r)).run s)

/-- A stored row is the only one with its id. -/
theorem sqlQuery_id {db : Database} {r : ObjectRow} (h : r ∈ db.objects.rows) :
    db.sqlQuery (fun f => f.id = r.id) = [db.join r] := by
  have hfilter : db.objects.rows.filter (fun f => f.id = r.id) = [r] := by
    have hnodup := (List.Nodup.of_map _ db.objects.nodup).filter fun f : ObjectRow => f.id = r.id
    have hall : ∀ f ∈ db.objects.rows.filter (fun f => f.id = r.id), f = r := by
      intro f hf
      rw [List.mem_filter, decide_eq_true_eq] at hf
      exact db.objects.eq_of_key_eq hf.1 h hf.2
    have hin : r ∈ db.objects.rows.filter (fun f => f.id = r.id) :=
      List.mem_filter.mpr ⟨h, decide_eq_true rfl⟩
    rcases hrows : db.objects.rows.filter (fun f => f.id = r.id) with _ | ⟨a, rest⟩
    · rw [hrows] at hin
      cases hin
    · rw [hrows] at hall hnodup
      rcases rest with _ | ⟨b, rest⟩
      · rw [hrows, hall a List.mem_cons_self]
      · have ha := hall a List.mem_cons_self
        have hb := hall b (List.mem_cons_of_mem a List.mem_cons_self)
        rw [ha, hb] at hnodup
        exact absurd List.mem_cons_self (List.nodup_cons.mp hnodup).1
  unfold Database.sqlQuery Database.selectObjects
  rw [hfilter]
  rfl

theorem loads_of_bufferInv {s : StorageState} (h : BufferInv s) {r : ObjectRow} (hr : r ∈ s.rows) :
    Loads s r := by
  rcases hcached : cachedObject s r.id with _ | obj
  · have hstored : r ∈ s.db.objects.rows := by
      rcases List.mem_append.mp hr with hr | hr
      · exact hr
      · obtain ⟨c, hc, -, hknows⟩ := h.cached
        obtain ⟨cObj, obj, hget, hobj, -⟩ := hknows r hr fun h => nomatch h
        rw [cachedObject, hc] at hcached
        simp [hget, hobj] at hcached
    refine Or.inr ⟨hstored, ?_⟩
    unfold loadObject
    rw [run_read_bind, hcached]
    simp only [select, run_read_bind, sqlQuery_id hstored]
  · refine Or.inl ⟨obj, hcached, ?_⟩
    unfold loadObject
    rw [run_read_bind, hcached]
    rfl

/-- **The buffer and the cache belong together.**  In every reachable state: an object whose INSERT
    is buffered is known to the cache; no object that has a row, stored or buffered, is reported
    missing by `loadObject`; what was executed and then what is buffered is what was ever buffered,
    each statement once and in order; and a flush executes the rest. -/
theorem buffered_objects_known (db : Database) (f2i : Str → Except Exception Str) (ops : List Op)
    (howned : ActiveItemsOwned db) :
    let s := runOps ops (.started db true f2i)
    (∀ r ∈ s.bufferedRows, ∃ obj, cachedObject s r.id = some obj ∧ obj.id = r.id) ∧
      (∀ r ∈ s.rows, Loads s r) ∧
      s.executed ++ s.insertBuffer = s.buffered ∧
      ∃ s', flushInsertBuffer.run s = (.ok (), s') ∧ s'.executed = s.buffered ∧
        s'.insertBuffer = [] := by
  intro s
  have h : BufferInv s := bufferInv_runOps ops (bufferInv_started howned f2i)
  refine ⟨fun r hr => ?_, fun r hr => loads_of_bufferInv h hr, h.order, ?_⟩
  · obtain ⟨c, hc, -, hknows⟩ := h.cached
    obtain ⟨cObj, obj, hget, hobj, hid⟩ := hknows r hr fun h => nomatch h
    refine ⟨obj, ?_, hid⟩
    rw [cachedObject, hc]
    simp [hget, hobj]
  · obtain ⟨s', hrun, hf, hempty⟩ := h.toBuffering.run_flush
    refine ⟨s', hrun, ?_, hempty⟩
    have horder := (h.toBuffering.flushed hf).order
    rw [hempty, List.append_nil] at horder
    rw [horder]
    cases hf <;> rfl

theorem buffered_objects_known_fresh :
    let s := runOps [.addObject (plainFile (str "/a/x"))] (.started .fresh true .ok)
    s.executed ++ s.insertBuffer = s.buffered := by
  exact (buffered_objects_known .fresh .ok [.addObject (plainFile (str "/a/x"))] (by decide)).2.2.1

/-! ### An object without a resource -/

/-- A file without a resource (3), and another file (4) that is removed again: the cache is emptied,
    and the first object cannot be made from its row. -/
def bareStorage : StorageState :=
  runOps
    [.addObject { plainFile (str "/a/x") with resources := [] },
     .addObject (plainFile (str "/a/y")),
     .removeObject 4 false]
    (.started .fresh true .ok)

/-- The object has a row, and `loadObject` throws. -/
theorem bare_object_not_loaded :
    (∃ r ∈ bareStorage.rows, r.id = 3) ∧
      ¬ ∃ obj s', (loadObject 3).run bareStorage = (.ok obj, s') := by
  refine ⟨by decide +kernel, ?_⟩
  rintro ⟨obj, s', hrun⟩
  have herr : (match ((loadObject 3).run bareStorage).1 with
      | .ok _ => true
      | .error _ => false) = false := by
    decide +kernel
  rw [hrun] at herr
  cases herr

end MediaTomb
