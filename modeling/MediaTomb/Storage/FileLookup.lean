/-
  Looking a file up: the cache knows every file whose INSERT is still buffered.

  `findObjectByPath` does not flush.  So a file is found only if its row is in the table, or if the
  cache has filed its object under its location.  A lookup that makes a cache object may EMPTY the
  cache for space; the flag then makes the caller flush the buffer, and between the two the
  invariant is `FilesPending`.

    * each section keeps it, or repairs it (`filesReady_flushIfFlushed`);
    * a file that is not found is not stored, neither in the table nor in the buffer
      (`Finds.missing`).
-/
import MediaTomb.Storage.BufferedObjects
import MediaTomb.Storage.PathExistence

namespace MediaTomb

open Lib.Prog

/-! ## What the cache has filed under files -/

/-- The location of the file at a path. -/
def fileLocation (path : Str) : Str := addLocationPrefix locFilePrefix (some path)

/-- The rows of files at a path, those in the insert buffer included. -/
def StorageState.filesAt (s : StorageState) (path : Str) : List ObjectRow :=
  s.rows.filter (matchesLocation (fileLocation path))

namespace StorageCache

/-- The object is filed under the path, and the cache knows it as one that is not virtual. -/
structure HasFile (c : StorageCache) (id : Int) (path : Str) : Prop where
  filed : ∃ ids, c.getObjects (fileLocation path) = some ids ∧ id ∈ ids
  known : ∃ cObj obj, c.getObject id = some cObj ∧ cObj.virt = some false ∧ cObj.obj = some obj

/-- `c'` has every file that `c` has, that of `but` apart, or it has been emptied and the flag is
    up. -/
def HoldsFiles (but : Option Int) (c c' : StorageCache) : Prop :=
  c'.hasBeenFlushed = true ∨ (c'.hasBeenFlushed = c.hasBeenFlushed ∧
    ∀ i path, but ≠ some i → c.HasFile i path → c'.HasFile i path)

/-- Between the caches nothing more is filed, and no object has come. -/
structure Plain (c c' : StorageCache) : Prop where
  filed : ∀ location ids, c'.getObjects location = some ids → c.getObjects location = some ids
  objects : ∀ id cObj' obj, c'.getObject id = some cObj' → cObj'.obj = some obj →
    ∃ cObj, c.getObject id = some cObj ∧ cObj.obj = some obj

/-- What a write to the cache does that is not told of an object. -/
structure Tells (but : Option Int) (c c' : StorageCache) : Prop where
  plain : Plain c c'
  holds : HoldsFiles but c c'

variable {c c' c'' : StorageCache} {id i : Int} {path : Str} {but : Option Int}

theorem Plain.refl (c : StorageCache) : Plain c c :=
  ⟨fun _ _ h => h, fun _ cObj _ hget hobj => ⟨cObj, hget, hobj⟩⟩

theorem Plain.trans (h : Plain c c') (h' : Plain c' c'') : Plain c c'' := by
  refine ⟨fun location ids hids => h.filed location ids (h'.filed location ids hids),
    fun id cObj obj hget hobj => ?_⟩
  obtain ⟨cObj', hget', hobj'⟩ := h'.objects id cObj obj hget hobj
  exact h.objects id cObj' obj hget' hobj'

theorem HoldsFiles.trans (h : HoldsFiles but c c') (h' : HoldsFiles but c' c'') :
    HoldsFiles but c c'' := by
  rcases h' with hflag | ⟨hflag, hfiles'⟩
  · exact Or.inl hflag
  · rcases h with hflag' | ⟨hflag', hfiles⟩
    · exact Or.inl (hflag.trans hflag')
    · exact Or.inr ⟨hflag.trans hflag', fun i path hbut hi =>
        hfiles' i path hbut (hfiles i path hbut hi)⟩

/-- What is filed stays where it is, and the object with it. -/
theorem HasFile.congr (h : c.HasFile i path) (hobjects : c'.getObjects = c.getObjects)
    (hobject : c'.getObject i = c.getObject i) : c'.HasFile i path := by
  obtain ⟨hfiled, hknown⟩ := h
  refine ⟨?_, ?_⟩
  · rw [hobjects]
    exact hfiled
  · rw [hobject]
    exact hknown

theorem getObjects_store (cObj : CacheObject) : (c.store id cObj).getObjects = c.getObjects := by
  unfold store
  split
  · rfl
  · rfl

theorem getObjects_put (cObj : CacheObject) : (c.put id cObj).getObjects = c.getObjects := by
  unfold put
  split
  · rfl
  · rfl

theorem Tells.trans (h : Tells but c c') (h' : Tells but c' c'') : Tells but c c'' :=
  ⟨h.plain.trans h'.plain, h.holds.trans h'.holds⟩

theorem plain_ensureFillLevelOk (c : StorageCache) : Plain c c.ensureFillLevelOk := by
  unfold ensureFillLevelOk
  split
  · refine ⟨fun location ids hids => ?_, fun id cObj obj hget hobj => ?_⟩
    · have hnone : c.clear.getObjects location = none := AList.lookup_empty _
      exact absurd (hnone.symm.trans hids) (Option.some_ne_none _).symm
    · have hnone : c.clear.getObject id = none := getObject_clear
      exact absurd (hnone.symm.trans hget) (Option.some_ne_none _).symm
  · exact .refl c

/-- A cache object is written that has its old object, or none. -/
theorem plain_store {cObj : CacheObject} (h : ∀ obj, cObj.obj = some obj →
    ∃ cObj₀, c.getObject id = some cObj₀ ∧ cObj₀.obj = some obj) : Plain c (c.store id cObj) := by
  refine ⟨fun location ids hids => by rwa [getObjects_store] at hids,
    fun j cObj' obj hget hobj => ?_⟩
  by_cases hmark : isMarkerID id = true
  · have hsame : c.store id cObj = c := if_pos hmark
    rw [hsame] at hget
    exact ⟨cObj', hget, hobj⟩
  · by_cases heq : j = id
    · rw [heq, getObject_store_self (Bool.not_eq_true _ ▸ hmark)] at hget
      cases hget
      rw [heq]
      exact h obj hobj
    · rw [getObject_store_ne heq] at hget
      exact ⟨cObj', hget, hobj⟩

/-- A cache object that knows nothing is put into the hash. -/
theorem plain_put (c : StorageCache) (id : Int) : Plain c (c.put id {}) := by
  by_cases hmark : isMarkerID id = true
  · have hput : c.put id {} = { c with lostPuts := c.lostPuts + 1 } := if_pos hmark
    rw [hput]
    exact ⟨fun _ _ h => h, fun _ cObj _ hget hobj => ⟨cObj, hget, hobj⟩⟩
  · have hput : c.put id {} = c.store id {} := by
      unfold put store
      rw [if_neg hmark, if_neg hmark]
    rw [hput]
    exact plain_store fun obj hobj => nomatch hobj

theorem plain_getObjectDefinitely (c : StorageCache) (id : Int) :
    Plain c (c.getObjectDefinitely id).2 := by
  unfold getObjectDefinitely
  rcases c.getObject id with _ | cObj
  · exact (plain_ensureFillLevelOk c).trans (plain_put _ id)
  · exact .refl c

/-- **Making a cache object** forgets nothing, or raises the flag. -/
theorem holdsFiles_getObjectDefinitely (id : Int) :
    HoldsFiles but c (c.getObjectDefinitely id).2 := by
  unfold getObjectDefinitely
  rcases hget : c.getObject id with _ | cObj
  · simp only
    unfold ensureFillLevelOk
    split
    · exact Or.inl (hasBeenFlushed_put _)
    · refine Or.inr ⟨hasBeenFlushed_put _, fun i path _ hi => ?_⟩
      refine hi.congr (getObjects_put _) (getObject_put_ne ?_)
      rintro rfl
      obtain ⟨cObj, obj, hsome, -⟩ := hi.known
      rw [hget] at hsome
      cases hsome
  · exact Or.inr ⟨rfl, fun i path _ hi => hi⟩

theorem tells_getObjectDefinitely (id : Int) : Tells but c (c.getObjectDefinitely id).2 :=
  ⟨plain_getObjectDefinitely c id, holdsFiles_getObjectDefinitely id⟩

/-- Writing to a cache object, what matters of it as before. -/
theorem holdsFiles_store {cObj : CacheObject}
    (h : ∀ cObj₀, c.getObject id = some cObj₀ → cObj.virt = cObj₀.virt ∧ cObj.obj = cObj₀.obj) :
    HoldsFiles but c (c.store id cObj) := by
  refine Or.inr ⟨hasBeenFlushed_store _, fun i path _ hi => ?_⟩
  by_cases hmark : isMarkerID id = true
  · have hsame : c.store id cObj = c := if_pos hmark
    rw [hsame]
    exact hi
  · by_cases heq : i = id
    · obtain ⟨cObj₀, obj, hget, hvirt, hobj⟩ := hi.known
      obtain ⟨hsame, hsameObj⟩ := h cObj₀ (heq ▸ hget)
      refine ⟨by rw [getObjects_store]; exact hi.filed, cObj, obj, ?_, hsame.trans hvirt,
        hsameObj.trans hobj⟩
      rw [heq]
      exact getObject_store_self (Bool.not_eq_true _ ▸ hmark)
    · exact hi.congr (getObjects_store _) (getObject_store_ne heq)

theorem Tells.refl (c : StorageCache) : Tells but c c :=
  ⟨.refl c, Or.inr ⟨rfl, fun _ _ _ hi => hi⟩⟩

theorem tells_addChild (id : Int) : Tells but c (c.addChild id) := by
  unfold addChild
  split
  · exact .refl c
  · next cObj hget =>
    split
    · exact .refl c
    · refine ⟨plain_store fun obj hobj => ⟨cObj, hget, hobj⟩, holdsFiles_store fun cObj₀ hget₀ => ?_⟩
      rw [hget] at hget₀
      cases hget₀
      exact ⟨rfl, rfl⟩

theorem tells_modifyObject {f : CacheObject → CacheObject}
    (hvirt : ∀ cObj, (f cObj).virt = cObj.virt) (hobj : ∀ cObj, (f cObj).obj = cObj.obj) :
    Tells but c (c.modifyObject id f) := by
  refine ⟨plain_store fun obj hsome => ?_, holdsFiles_store fun cObj₀ hget => ?_⟩
  · rw [hobj] at hsome
    rcases hget : c.getObject id with _ | cObj₀
    · rw [hget] at hsome
      cases hsome
    · rw [hget] at hsome
      exact ⟨cObj₀, rfl, hsome⟩
  · rw [hget]
    exact ⟨hvirt cObj₀, hobj cObj₀⟩

/-- A list under a location only grows. -/
theorem getObjects_checkLocation {cObj : CacheObject} {location : Str} {ids : List Int}
    (h : c.getObjects location = some ids) (hin : i ∈ ids) :
    ∃ ids', (c.checkLocation id cObj).getObjects location = some ids' ∧ i ∈ ids' := by
  unfold checkLocation
  split
  · exact ⟨ids, h, hin⟩
  · next location' _ =>
    by_cases heq : location = location'
    · rw [heq] at h
      rw [h, heq]
      simp only
      split
      · exact ⟨ids, h, hin⟩
      · exact ⟨ids ++ [id], AList.lookup_insert _, List.mem_append_left _ hin⟩
    · split
      · exact ⟨ids, (AList.lookup_insert_ne heq).trans h, hin⟩
      · split
        · exact ⟨ids, h, hin⟩
        · exact ⟨ids, (AList.lookup_insert_ne heq).trans h, hin⟩

/-- Nothing else is filed. -/
theorem filed_checkLocation {cObj : CacheObject} {location : Str} {ids : List Int}
    (h : (c.checkLocation id cObj).getObjects location = some ids) (hin : i ∈ ids) :
    (∃ ids', c.getObjects location = some ids' ∧ i ∈ ids') ∨
      i = id ∧ cObj.location = some location := by
  unfold checkLocation at h
  split at h
  · exact Or.inl ⟨ids, h, hin⟩
  · next location' hlocation =>
    by_cases heq : location = location'
    · rw [← heq] at h hlocation
      split at h
      · have hnew : (c.locationHash.insert location [id]).lookup location = some ids := h
        have hlist := (AList.lookup_insert c.locationHash).symm.trans hnew
        rw [← Option.some.inj hlist] at hin
        exact Or.inr ⟨List.mem_singleton.mp hin, hlocation⟩
      · next ids' hids' =>
        split at h
        · exact Or.inl ⟨ids, h, hin⟩
        · have hnew : (c.locationHash.insert location (ids' ++ [id])).lookup location = some ids := h
          have hlist := (AList.lookup_insert c.locationHash).symm.trans hnew
          rw [← Option.some.inj hlist] at hin
          rcases List.mem_append.mp hin with hin | hin
          · exact Or.inl ⟨ids', hids', hin⟩
          · exact Or.inr ⟨List.mem_singleton.mp hin, hlocation⟩
    · split at h
      · exact Or.inl ⟨ids, (AList.lookup_insert_ne heq).symm.trans h, hin⟩
      · split at h
        · exact Or.inl ⟨ids, h, hin⟩
        · exact Or.inl ⟨ids, (AList.lookup_insert_ne heq).symm.trans h, hin⟩

/-- An object is filed under the location that its cache object knows. -/
theorem mem_checkLocation {cObj : CacheObject} {location : Str}
    (h : cObj.location = some location) :
    ∃ ids, (c.checkLocation id cObj).getObjects location = some ids ∧ id ∈ ids := by
  unfold checkLocation
  rw [h]
  simp only
  split
  · exact ⟨[id], AList.lookup_insert _, List.mem_singleton_self _⟩
  · next ids hids =>
    split
    · next hin => exact ⟨ids, hids, hin⟩
    · exact ⟨ids ++ [id], AList.lookup_insert _, List.mem_append_right _ (List.mem_singleton_self _)⟩

/-- **The cache is told of an object**: the files of the others stay, and a file is filed. -/
theorem holdsFiles_setObject (obj : CdsObject) (cObj : CacheObject) :
    let c' := (c.store obj.id (cObj.setObject obj)).checkLocation obj.id (cObj.setObject obj)
    c'.hasBeenFlushed = c.hasBeenFlushed ∧
      (∀ i path, some obj.id ≠ some i → c.HasFile i path → c'.HasFile i path) ∧
      (isMarkerID obj.id = false → isCdsPureItem obj.objectType = true → obj.virt = false →
        ∀ path, obj.location = some path → c'.HasFile obj.id path) := by
  refine ⟨?_, fun i path hne hi => ?_, fun hmark hpure hvirt path hpath => ?_⟩
  · rw [hasBeenFlushed_checkLocation, hasBeenFlushed_store]
  · obtain ⟨ids, hids, hin⟩ := hi.filed
    obtain ⟨cObj₀, o, hget, hknown⟩ := hi.known
    refine ⟨getObjects_checkLocation (by rw [getObjects_store]; exact hids) hin, cObj₀, o, ?_, hknown⟩
    rw [getObject_checkLocation, getObject_store_ne fun heq => hne (congrArg some heq.symm)]
    exact hget
  · have hnot : isCdsContainer obj.objectType = false ∧ isCdsItem obj.objectType = true := by
      unfold isCdsPureItem at hpure
      rw [eq_of_beq hpure]
      exact ⟨by decide, by decide⟩
    have hlocation : (cObj.setObject obj).location = some (fileLocation path) := by
      unfold CacheObject.setObject CacheObject.locationKey
      rw [hnot.1, hnot.2, hpure, hpath]
      rfl
    refine ⟨mem_checkLocation hlocation, cObj.setObject obj, obj.copy, ?_, ?_, rfl⟩
    · rw [getObject_checkLocation, getObject_store_self hmark]
    · rw [CacheObject.setObject_virt, hvirt]

/-- A file the cache has is found under its location. -/
theorem HasFile.found {s : StorageState} (h : c.HasFile i path) (hc : s.cache = some c) :
    ∃ obj, cachedObjectAt s (fileLocation path) = some obj := by
  obtain ⟨ids, hids, hin⟩ := h.filed
  obtain ⟨cObj, obj, hget, hvirt, hobj⟩ := h.known
  rcases hfound : cachedObjectAt s (fileLocation path) with _ | o
  · exfalso
    unfold cachedObjectAt at hfound
    rw [hc, Option.bind_some, hids, Option.bind_some, List.findSome?_eq_none_iff] at hfound
    have hnone := hfound i hin
    rw [hget, Option.bind_some, if_pos hvirt, hobj] at hnone
    cases hnone
  · exact ⟨o, rfl⟩

end StorageCache

/-! ## What the cache knows is stored -/

/-- A row of a file or of a directory, by its type. -/
def IsFiled (row : ObjectRow) : Prop :=
  row.objectType = objectTypeContainer ∨
    row.objectType = objectTypeItem ∧ ∃ path, matchesLocation (fileLocation path) row = true

/-- The object is the one of a row. -/
def IsObjectOf (R : List ObjectRow) (obj : CdsObject) : Prop :=
  ∃ r ∈ R, r.id = obj.id ∧ obj.objectType = r.objectType ∧
    (r.objectType = objectTypeContainer ∨ r.objectType = objectTypeItem ∧
      ∃ path, matchesLocation (fileLocation path) r = true ∧ obj.location = some path)

/-- **What the cache knows is stored**: the objects are those of rows, and what is filed under the
    location of a file is the file there, or a directory. -/
structure CacheOf (R : List ObjectRow) (c : StorageCache) : Prop where
  filed : ∀ path ids, c.getObjects (fileLocation path) = some ids → ∀ id ∈ ids, ∃ r ∈ R, r.id = id ∧
    (r.objectType = objectTypeContainer ∨ matchesLocation (fileLocation path) r = true)
  objects : ∀ id cObj obj, c.getObject id = some cObj → cObj.obj = some obj →
    ∃ r ∈ R, r.id = id ∧ obj.objectType = r.objectType

section

variable {R : List ObjectRow} {c c' : StorageCache} {obj : CdsObject} {path p : Str}

theorem CacheOf.plain (h : CacheOf R c) (hplain : StorageCache.Plain c c') : CacheOf R c' := by
  refine ⟨fun path ids hids => h.filed path ids (hplain.filed _ ids hids),
    fun id cObj obj hget hobj => ?_⟩
  obtain ⟨cObj', hget', hobj'⟩ := hplain.objects id cObj obj hget hobj
  exact h.objects id cObj' obj hget' hobj'

theorem CacheOf.more (h : CacheOf R c) (new : List ObjectRow) : CacheOf (R ++ new) c := by
  refine ⟨fun path ids hids id hid => ?_, fun id cObj obj hget hobj => ?_⟩
  · obtain ⟨r, hr, hrest⟩ := h.filed path ids hids id hid
    exact ⟨r, List.mem_append_left _ hr, hrest⟩
  · obtain ⟨r, hr, hrest⟩ := h.objects id cObj obj hget hobj
    exact ⟨r, List.mem_append_left _ hr, hrest⟩

/-- The key of the object of a row. -/
theorem IsObjectOf.key (h : IsObjectOf R obj) : ∃ key, CacheObject.locationKey obj = some key ∧
    (∀ path, key ≠ dirLocation path) ∧
    ∀ path, key = fileLocation path → ∃ r ∈ R, r.id = obj.id ∧
      (r.objectType = objectTypeContainer ∨ matchesLocation (fileLocation path) r = true) := by
  obtain ⟨r, hr, hid, htype, hcontainer | ⟨hitem, p, hmatch, hlocation⟩⟩ := h
  · rw [hcontainer] at htype
    refine ⟨addLocationPrefix (if obj.virt then locVirtPrefix else locFilePrefix) obj.location, ?_,
      fun path heq => ?_, fun path _ => ⟨r, hr, hid, Or.inl hcontainer⟩⟩
    · unfold CacheObject.locationKey
      rw [htype]
      rfl
    · have hhead := (List.cons.inj heq).1
      split at hhead
      · exact absurd hhead (by decide)
      · exact absurd hhead (by decide)
  · rw [hitem] at htype
    refine ⟨fileLocation p, ?_, fun path heq => absurd (List.cons.inj heq).1 (by decide),
      fun path heq => ⟨r, hr, hid, Or.inr (heq ▸ hmatch)⟩⟩
    unfold CacheObject.locationKey
    rw [htype, hlocation]
    rfl

/-- **The cache is told of the object of a row.** -/
theorem CacheOf.setObject (h : CacheOf R c) (hobj : IsObjectOf R obj) (cObj : CacheObject) :
    CacheOf R ((c.store obj.id (cObj.setObject obj)).checkLocation obj.id (cObj.setObject obj)) := by
  obtain ⟨key, hkey, -, hfile⟩ := hobj.key
  have hlocation : (cObj.setObject obj).location = some key := by
    unfold CacheObject.setObject
    rw [hkey]
  refine ⟨fun path ids hids id hid => ?_, fun id cObj' o hget ho => ?_⟩
  · rcases StorageCache.filed_checkLocation hids hid with ⟨ids', hids', hid'⟩ | ⟨rfl, hloc⟩
    · rw [StorageCache.getObjects_store] at hids'
      exact h.filed path ids' hids' id hid'
    · rw [hlocation] at hloc
      exact hfile path (Option.some.inj hloc)
  · rw [StorageCache.getObject_checkLocation] at hget
    by_cases hmark : isMarkerID obj.id = true
    · have hsame : c.store obj.id (cObj.setObject obj) = c := if_pos hmark
      rw [hsame] at hget
      exact h.objects id cObj' o hget ho
    · by_cases heq : id = obj.id
      · rw [heq, StorageCache.getObject_store_self (Bool.not_eq_true _ ▸ hmark)] at hget
        cases hget
        rw [CacheObject.setObject_obj] at ho
        cases ho
        obtain ⟨r, hr, hid, htype, -⟩ := hobj
        exact ⟨r, hr, hid.trans heq.symm, (CdsObject.copy_objectType obj).trans htype⟩
      · rw [StorageCache.getObject_store_ne heq] at hget
        exact h.objects id cObj' o hget ho

end

/-! ## The buffer and the cache -/

/-- The bookkeeping of the buffer, with a cache or without one; `R` are the rows there are. -/
structure FileBuffer (R : List ObjectRow) (objs items : Multiset Int) (s : StorageState) : Prop where
  sound : SoundWith objs items s
  cached : s.insertBufferOn = true → s.cache ≠ none
  off : s.insertBufferOn = false → s.insertBuffer = []
  settled : s.insertBufferEmpty = true → s.insertBuffer = []
  rows : s.rows.Perm R

/-- The cache has the files of the buffered rows, that of `but` apart. -/
def HasBuffered (c : StorageCache) (but : Option Int) (s : StorageState) : Prop :=
  ∀ r ∈ s.bufferedRows, ∀ path, matchesLocation (fileLocation path) r = true → but ≠ some r.id →
    c.HasFile r.id path

/-- The cache has the files that are buffered, or the flag is up. -/
structure FilesPending (R : List ObjectRow) (objs items : Multiset Int) (but : Option Int)
    (s : StorageState) : Prop extends FileBuffer R objs items s where
  known : ∀ c, s.cache = some c → CacheOf R c
  files : ∀ c, s.cache = some c → c.hasBeenFlushed = true ∨ HasBuffered c but s

/-- The cache has the files that are buffered. -/
structure FilesReady (R : List ObjectRow) (objs items : Multiset Int) (but : Option Int)
    (s : StorageState) : Prop extends FileBuffer R objs items s where
  known : ∀ c, s.cache = some c → CacheOf R c
  files : ∀ c, s.cache = some c → c.hasBeenFlushed = false ∧ HasBuffered c but s

section

variable {R : List ObjectRow} {objs items objs' items' : Multiset Int} {but : Option Int}
  {s s' : StorageState}

theorem FilesReady.pending (h : FilesReady R objs items but s) : FilesPending R objs items but s :=
  ⟨h.toFileBuffer, h.known, fun c hc => Or.inr (h.files c hc).2⟩

theorem FileBuffer.flushed (h : FileBuffer R objs items s) (hf : Flushed s s') :
    FileBuffer R objs items s' := by
  refine ⟨h.sound.flushed hf, fun hon => ?_, fun hoff => ?_, ?_, hf.rows ▸ h.rows⟩
  · rw [hf.cache]
    exact h.cached (hf.insertBufferOn ▸ hon)
  · cases hf with
    | same => exact h.off hoff
    | executed db hdb => rfl
  · cases hf with
    | same => exact h.settled
    | executed db hdb => exact fun _ => rfl

/-- **A flush empties the buffer.** -/
theorem FileBuffer.run_flush (h : FileBuffer R objs items s) :
    ∃ s', flushInsertBuffer.run s = (.ok (), s') ∧ Flushed s s' ∧ s'.insertBuffer = [] := by
  rcases run_flushInsertBuffer s with ⟨hskip, hrun⟩ | ⟨db, -, hdone, hrun⟩ |
    ⟨e, db, _, _, -, -, -, hrun⟩
  · refine ⟨s, hrun, .same, ?_⟩
    rcases hskip with hoff | hempty
    · exact h.off hoff
    · exact h.settled hempty
  · exact ⟨_, hrun, .executed db hdone, rfl⟩
  · obtain ⟨s', hok, -⟩ := h.sound.keys.run_flush
    rw [hrun] at hok
    cases hok

/-- The cache, and what is owed to it, are not looked at. -/
theorem FileBuffer.told (h : FileBuffer R objs items s) (f : StorageCache → StorageCache)
    (uncounted : List Int) :
    FileBuffer R objs items { s with cache := s.cache.map f, uncounted := uncounted } :=
  ⟨h.sound.told _ _, fun hon hnone => h.cached hon (Option.map_eq_none_iff.mp hnone), h.off,
    h.settled, h.rows⟩

theorem FilesReady.flushed (h : FilesReady R objs items but s) (hf : Flushed s s') :
    FilesReady R objs items but s' := by
  refine ⟨h.toFileBuffer.flushed hf, fun c hc => h.known c (hf.cache ▸ hc), fun c hc => ?_⟩
  obtain ⟨hflag, hfiles⟩ := h.files c (hf.cache ▸ hc)
  exact ⟨hflag, fun r hr => hfiles r (hf.bufferedRows r hr)⟩

theorem FilesReady.mono (h : FilesReady R objs items but s) (hobjs : objs' ≤ objs)
    (hitems : items' ≤ items) : FilesReady R objs' items' but s :=
  ⟨⟨h.sound.mono hobjs hitems, h.cached, h.off, h.settled, h.rows⟩, h.known, h.files⟩

/-- One more object need not be known. -/
theorem FilesReady.weaken (h : FilesReady R objs items none s) (id : Int) :
    FilesReady R objs items (some id) s :=
  ⟨h.toFileBuffer, h.known, fun c hc => ⟨(h.files c hc).1,
    fun r hr path hpath _ => (h.files c hc).2 r hr path hpath fun hnone => nomatch hnone⟩⟩

/-- Nothing that is buffered has the id. -/
theorem FilesReady.strengthen {id : Int} (h : FilesReady R objs items (some id) s)
    (hid : ∀ r ∈ s.bufferedRows, r.id ≠ id) : FilesReady R objs items none s :=
  ⟨h.toFileBuffer, h.known, fun c hc => ⟨(h.files c hc).1,
    fun r hr path hpath _ => (h.files c hc).2 r hr path hpath
      fun heq => hid r hr (Option.some.inj heq).symm⟩⟩

end

/-! ## Sections under the cache lock -/

section

variable {R : List ObjectRow} {objs items : Multiset Int} {but : Option Int} {E : StorageState → Prop}

/-- Cache objects are written, and what is buffered stays. -/
theorem FilesPending.told {s : StorageState} (h : FilesPending R objs items but s)
    {f : StorageCache → StorageCache} (hf : ∀ c, StorageCache.Tells but c (f c))
    (uncounted : List Int) :
    FilesPending R objs items but { s with cache := s.cache.map f, uncounted := uncounted } := by
  refine ⟨h.toFileBuffer.told f uncounted, fun c' hc' => ?_, fun c' hc' => ?_⟩
  · obtain ⟨c, hc, rfl⟩ := Option.map_eq_some_iff.mp hc'
    exact (h.known c hc).plain (hf c).plain
  obtain ⟨c, hc, rfl⟩ := Option.map_eq_some_iff.mp hc'
  rcases (hf c).holds with hflag | ⟨hflag, hfiles⟩
  · exact Or.inl hflag
  · rcases h.files c hc with hup | hall
    · exact Or.inl (hflag.trans hup)
    · exact Or.inr fun r hr path hpath hbut => hfiles r.id path hbut (hall r hr path hpath hbut)

theorem filesPending_modifyCache {f : StorageCache → StorageCache}
    (hf : ∀ c, StorageCache.Tells but c (f c)) :
    Triple (FilesPending R objs items but) (modifyCache f)
      (fun _ => FilesPending R objs items but) E :=
  triple_modify fun s hs => hs.told hf s.uncounted

theorem filesPending_addChild (parentID : Int) :
    Triple (FilesPending R objs items but) (addChild parentID)
      (fun _ => FilesPending R objs items but) E :=
  triple_modify fun _ hs => hs.told (fun _ => StorageCache.tells_addChild parentID) _

/-- **The flag is seen**: the buffer is flushed where the cache was emptied. -/
theorem filesReady_flushIfFlushed :
    Triple (FilesPending R objs items but) flushIfFlushed
      (fun _ => FilesReady R objs items but) E := by
  intro s hs
  unfold flushIfFlushed
  rw [run_get_bind]
  rcases hc : s.cache with _ | c
  · exact ⟨hs.toFileBuffer, hs.known, fun c hsome => by rw [hc] at hsome; cases hsome⟩
  · have hknown : CacheOf R c.flushed.2 := (hs.known c hc).plain ⟨fun _ _ h => h,
      fun _ cObj _ hget hobj => ⟨cObj, hget, hobj⟩⟩
    have hbuf := hs.toFileBuffer.told (fun c => c.flushed.2) s.uncounted
    rw [hc] at hbuf
    simp only [modifyCache, run_modify_bind, hc]
    by_cases hflag : c.hasBeenFlushed = true
    · rw [if_pos (show c.flushed.1 = true from hflag)]
      obtain ⟨s', hrun, hf, hempty⟩ := hbuf.run_flush
      rw [hrun]
      refine ⟨hbuf.flushed hf, fun c' hc' => ?_, fun c' hc' => ?_⟩
      · rw [hf.cache] at hc'
        cases hc'
        exact hknown
      rw [hf.cache] at hc'
      cases hc'
      refine ⟨rfl, fun r hr => ?_⟩
      rw [StorageState.bufferedRows, hempty] at hr
      cases hr
    · rw [if_neg (show ¬ c.flushed.1 = true from hflag)]
      refine ⟨hbuf, fun c' hc' => by cases hc'; exact hknown, fun c' hc' => ?_⟩
      cases hc'
      exact ⟨rfl, fun r hr path hpath hbut =>
        ((hs.files c hc).resolve_left hflag r hr path hpath hbut).congr rfl rfl⟩

/-- The cache has the file of the object, if it is one. -/
def HasFileOf (obj : CdsObject) (s : StorageState) : Prop :=
  isMarkerID obj.id = false → isCdsPureItem obj.objectType = true → obj.virt = false →
    ∀ path, obj.location = some path → ∀ c, s.cache = some c → c.HasFile obj.id path

/-- **The cache is told of an object**, and has its file from then on. -/
theorem filesReady_addObjectToCacheLocked {obj : CdsObject} (hobj : IsObjectOf R obj) :
    Triple (FilesReady R objs items (some obj.id)) (addObjectToCacheLocked obj)
      (fun _ s => FilesReady R objs items (some obj.id) s ∧ HasFileOf obj s) E := by
  refine triple_bind (M := fun _ => FilesPending R objs items (some obj.id)) ?_ fun _ =>
    triple_bind (M := fun _ => FilesReady R objs items (some obj.id)) filesReady_flushIfFlushed
      fun _ => ?_
  · exact triple_conseq
      (filesPending_modifyCache fun c => StorageCache.tells_getObjectDefinitely _)
      (fun s hs => hs.pending) (fun _ _ h => h) fun _ h => h
  · refine triple_modify fun s hs => ?_
    refine ⟨⟨hs.toFileBuffer.told _ _, fun c' hc' => ?_, fun c' hc' => ?_⟩, ?_⟩
    · obtain ⟨c, hc, rfl⟩ := Option.map_eq_some_iff.mp hc'
      exact (hs.known c hc).setObject hobj _
    · obtain ⟨c, hc, rfl⟩ := Option.map_eq_some_iff.mp hc'
      obtain ⟨hflag, hkeeps, -⟩ :=
        StorageCache.holdsFiles_setObject (c := c) obj ((c.getObject obj.id).getD {})
      obtain ⟨hdown, hfiles⟩ := hs.files c hc
      exact ⟨hflag.trans hdown, fun r hr path hpath hbut =>
        hkeeps r.id path hbut (hfiles r hr path hpath hbut)⟩
    · intro hmark hpure hvirt path hpath c' hc'
      obtain ⟨c, -, rfl⟩ := Option.map_eq_some_iff.mp hc'
      exact (StorageCache.holdsFiles_setObject (c := c) obj ((c.getObject obj.id).getD {})).2.2
        hmark hpure hvirt path hpath

end

/-! ## Rows of files and of directories -/

/-- **What is stored where** among rows: files and directories are what they are called, and no
    place holds two files. -/
structure WellFiled (R : List ObjectRow) : Prop where
  files : ∀ r ∈ R, ∀ path, matchesLocation (fileLocation path) r = true →
    r.objectType = objectTypeItem
  directories : ∀ r ∈ R, ∀ path, matchesLocation (dirLocation path) r = true →
    r.objectType = objectTypeContainer ∧ 0 < r.id
  /-- each file lies in a directory that is there, or in the root -/
  home : ∀ r ∈ R, ∀ path, matchesLocation (fileLocation path) r = true →
    ∃ dir name, splitPath path = .ok (dir, name) ∧
      (dir = [dirSeparator] ∨ ∃ d ∈ R, matchesLocation (dirLocation dir) d = true)
  once : ∀ path, (R.filter (matchesLocation (fileLocation path))).length ≤ 1
  root : ∀ r ∈ R, r.id = cdsIdFsRoot → r.objectType = objectTypeContainer

/-- **A storage that files are imported into**, between two calls. -/
structure Importing (R : List ObjectRow) (s : StorageState) : Prop where
  ready : FilesReady R 0 0 none s
  directories : DirectoriesFiled s
  filed : WellFiled R

section

variable {R : List ObjectRow} {s s' : StorageState} {row r : ObjectRow} {obj : CdsObject}
  {path p q loc fullpath : Str}

theorem matchesFile_iff : matchesLocation (fileLocation path) r = true ↔
    r.locationHash = some (stringHash (fileLocation path)) ∧
      r.location = some (fileLocation path) ∧ r.refID = none := by
  unfold matchesLocation
  rw [Bool.and_eq_true, Bool.and_eq_true, decide_eq_true_iff, decide_eq_true_iff,
    decide_eq_true_iff]
  exact and_assoc

theorem matchesFile_inj (hp : matchesLocation (fileLocation p) r = true)
    (hq : matchesLocation (fileLocation q) r = true) : p = q := by
  have heq := (matchesFile_iff.mp hp).2.1.symm.trans (matchesFile_iff.mp hq).2.1
  exact (List.cons.inj (Option.some.inj heq)).2

theorem fileLocation_ne_dirLocation (p q : Str) : fileLocation p ≠ dirLocation q := by
  intro h
  exact absurd (List.cons.inj h).1 (by decide)

theorem matchesFile_not_directory (hp : matchesLocation (fileLocation p) r = true) :
    matchesLocation (dirLocation q) r = false := by
  rw [Bool.eq_false_iff]
  intro hq
  have heq := (matchesFile_iff.mp hp).2.1.symm.trans (matchesDirectory_iff.mp hq).2.1
  exact fileLocation_ne_dirLocation p q (Option.some.inj heq)

/-- The rows in the table and those in the buffer. -/
theorem FileBuffer.mem_iff {objs items : Multiset Int} (h : FileBuffer R objs items s) :
    r ∈ R ↔ r ∈ s.db.objects.rows ∨ r ∈ s.bufferedRows := by
  rw [← h.rows.mem_iff]
  exact List.mem_append

/-- What is in the table is not buffered. -/
theorem FileBuffer.not_buffered {objs items : Multiset Int} (h : FileBuffer R objs items s)
    (hrow : row ∈ s.db.objects.rows) : ∀ r ∈ s.bufferedRows, r.id ≠ row.id := by
  intro r hr heq
  have hnodup : (s.rows.map ObjectRow.id).Nodup :=
    Multiset.coe_nodup.mp (Multiset.nodup_of_le (Multiset.le_add_right _ _)
      h.sound.keys.objects.nodup)
  unfold StorageState.rows at hnodup
  rw [List.map_append, List.nodup_append] at hnodup
  exact hnodup.2.2 _ (List.mem_map_of_mem hrow) _ (List.mem_map_of_mem hr) heq.symm

/-- No two rows have one id. -/
theorem FileBuffer.eq_of_id {objs items : Multiset Int} (h : FileBuffer R objs items s)
    (hr : r ∈ R) (hrow : row ∈ R) (hid : r.id = row.id) : r = row := by
  have hnodup : (s.rows.map ObjectRow.id).Nodup :=
    Multiset.coe_nodup.mp (Multiset.nodup_of_le (Multiset.le_add_right _ _)
      h.sound.keys.objects.nodup)
  exact List.inj_on_of_nodup_map hnodup (h.rows.mem_iff.mpr hr) (h.rows.mem_iff.mpr hrow) hid

/-! ## Reading a row -/

/-- An object whose cache location is not that of a directory. -/
theorem files_addObjectToCacheLocked {key : Str} (hkey : CacheObject.locationKey obj = some key)
    (hne : ∀ path, key ≠ dirLocation path) : Keeps filing (addObjectToCacheLocked obj) := by
  refine keeps_bind (files_modifyCache fun c => Files.getObjectDefinitely c _) fun _ =>
    keeps_bind files_flushIfFlushed fun _ => files_modifyCache fun c => ?_
  have hlocation : (((c.getObject obj.id).getD {}).setObject obj).location = some key := by
    unfold CacheObject.setObject
    rw [hkey]
  refine (Files.store fun _ o ho => ?_).trans (Files.checkLocation fun path heq => ?_)
  · rw [CacheObject.setObject_obj] at ho
    rw [← Option.some.inj ho]
    rfl
  · rw [hlocation] at heq
    exact hne path (Option.some.inj heq)

theorem files_addObjectToCache_key {key : Str} (hkey : CacheObject.locationKey obj = some key)
    (hne : ∀ path, key ≠ dirLocation path) : Keeps filing (addObjectToCache obj) :=
  keeps_bind (keeps_read _) fun _ => keeps_ite
    (fun _ => keeps_locked (files_addObjectToCacheLocked hkey hne)) fun _ => keeps_pure _

/-- **The object that is made of a row** is that of the row. -/
theorem isObjectOf_toObject (hrow : row ∈ R) (hfiled : IsFiled row)
    (h : (s.db.join row).toObject = .ok obj) : IsObjectOf R obj := by
  have hid : obj.id = row.id := (toObject_resources h).1
  rcases hfiled with htype | ⟨htype, path, hmatch⟩
  · obtain ⟨u, c, a, hkind⟩ := toObject_container h (by
      show isCdsContainer row.objectType = true
      rw [htype]
      decide)
    refine ⟨row, hrow, hid.symm, ?_, Or.inl htype⟩
    unfold CdsObject.objectType
    rw [hkind, htype]
    rfl
  · obtain ⟨-, hlocation, href⟩ := matchesFile_iff.mp hmatch
    have hwhere : (s.db.join row).f = row := rfl
    unfold Database.JoinedRow.toObject at h
    rw [hwhere, htype] at h
    have hcreate : CdsObject.createObject objectTypeItem =
        .ok { upnpClass := some (str "object.item"), kind := .item {} } := rfl
    have hcontainer : isCdsContainer objectTypeItem = false := by decide
    have hitem : isCdsItem objectTypeItem = true := by decide
    have hpure : isCdsPureItem objectTypeItem = true := by decide
    simp only [hcreate, bind, Except.bind] at h
    rcases hdecode : decodeResources (splitString ((s.db.join row).fallback ObjectRow.resources)
      resourceSep false) with e | resources
    · rw [hdecode] at h
      cases h
    · rw [hdecode] at h
      simp only [hcontainer, hitem, if_true, Bool.false_eq_true, if_false] at h
      split_ifs at h
      cases h
      have hvirt : ((s.db.join row).commonFields resources
          { upnpClass := some (str "object.item"), kind := .item {} }).virt = false := by
        unfold Database.JoinedRow.commonFields
        simp only [hwhere, htype, href, hitem, hpure]
        rfl
      refine ⟨row, hrow, hid.symm, htype.symm, Or.inr ⟨htype, path, hmatch, ?_⟩⟩
      show (s.db.join row).itemLocation _ = _
      rw [hvirt]
      unfold Database.JoinedRow.itemLocation
      rw [hwhere, htype, hpure, hlocation]
      rfl

/-- The cache takes an object of a row that is in the table. -/
theorem importing_addObjectToCache (h : Importing R s) (hrow : row ∈ s.db.objects.rows)
    (hid : obj.id = row.id) (hobj : IsObjectOf R obj) :
    ∃ s', (addObjectToCache obj).run s = (.ok (), s') ∧ Importing R s' ∧ Settles s s' ∧
      FilesKept s s' := by
  obtain ⟨key, hkey, hne, -⟩ := hobj.key
  have hcached : Triple (FilesReady R 0 0 (some obj.id)) (addObjectToCache obj)
      (fun _ => FilesReady R 0 0 (some obj.id)) (fun _ => False) :=
    triple_bind (M := fun _ => FilesReady R 0 0 (some obj.id)) (triple_read fun _ h => h)
      fun on => by
        split
        · exact triple_locked (triple_conseq (filesReady_addObjectToCacheLocked hobj)
            (fun _ h => h) (fun _ _ h => h.1) fun _ h => h)
        · exact triple_pure fun _ h => h
  have hdone := hcached s (h.ready.weaken obj.id)
  have hkept := files_addObjectToCache_key hkey hne s
  have hset : Settles s ((addObjectToCache obj).run s).2 := querySections_settling.toCache obj s
  rcases hrun : (addObjectToCache obj).run s with ⟨e | ⟨⟩, s'⟩
  · rw [hrun] at hdone
    exact hdone.elim
  · rw [hrun] at hdone hkept hset
    obtain ⟨moved, hrows, -⟩ := hset.objects
    have hmono : ∀ r ∈ s.db.objects.rows, r ∈ s'.db.objects.rows := fun r hr => by
      rw [hrows]
      exact List.mem_append_left _ hr
    refine ⟨s', rfl, ⟨hdone.strengthen fun r hr => ?_, h.directories.kept hkept hmono, h.filed⟩,
      hset, hkept⟩
    rw [hid]
    exact hdone.toFileBuffer.not_buffered (hmono row hrow) r hr

/-- **Reading a row** of a file or of a directory. -/
theorem importing_createObjectFromRow (h : Importing R s) (hrow : row ∈ s.db.objects.rows)
    (hfiled : IsFiled row) :
    ∃ s', ((createObjectFromRow (s.db.join row)).run s).2 = s' ∧ Importing R s' ∧ Settles s s' ∧
      FilesKept s s' ∧
      ∀ o, ((createObjectFromRow (s.db.join row)).run s).1 = .ok o → o.id = row.id ∧
        o.objectType = row.objectType := by
  have hactive : isCdsActiveItem (s.db.join row).f.objectType = false := by
    show isCdsActiveItem row.objectType = false
    rcases hfiled with htype | ⟨htype, -⟩
    · rw [htype]
      decide
    · rw [htype]
      decide
  unfold createObjectFromRow
  rcases htoObject : (s.db.join row).toObject with e | obj
  · exact ⟨s, rfl, h, .refl s, .refl s, fun o ho => nomatch ho⟩
  · have hR : row ∈ R := h.ready.toFileBuffer.mem_iff.mpr (Or.inl hrow)
    have hid : obj.id = row.id := (toObject_resources htoObject).1
    rw [ofExcept_ok_bind]
    simp only [hactive, Bool.false_eq_true, if_false]
    rw [run_pure_bind]
    have hobj := isObjectOf_toObject hR hfiled htoObject
    obtain ⟨s', hrun, himporting, hset, hkept⟩ := importing_addObjectToCache h hrow hid hobj
    rw [run_bind_of_ok hrun]
    refine ⟨s', rfl, himporting, hset, hkept, fun o ho => ?_⟩
    cases ho
    obtain ⟨r, hr, hrid, htype, -⟩ := hobj
    rw [htype, h.ready.toFileBuffer.eq_of_id hr hR (hrid.trans hid)]
    exact ⟨hid, rfl⟩

/-! ## `findObjectByPath` -/

/-- The location of a file or of a directory. -/
def IsPlace (loc : Str) : Prop := ∃ path, loc = fileLocation path ∨ loc = dirLocation path

theorem WellFiled.isFiled (h : WellFiled R) (hr : r ∈ R) (hloc : IsPlace loc)
    (hmatch : matchesLocation loc r = true) : IsFiled r := by
  obtain ⟨path, rfl | rfl⟩ := hloc
  · exact Or.inr ⟨h.files r hr path hmatch, path, hmatch⟩
  · exact Or.inl (h.directories r hr path hmatch).1

theorem isPlace_pathLocation (h : pathLocation fullpath = .ok loc) : IsPlace loc := by
  unfold pathLocation at h
  simp only [bind, Except.bind] at h
  generalize splitPathOrThrow (reduce dirSeparator fullpath) = parts at h
  rcases parts with e | ⟨path, filename⟩
  · cases h
  · simp only at h
    split at h
    · cases h
      exact ⟨_, Or.inl rfl⟩
    · cases h
      exact ⟨_, Or.inr rfl⟩

/-- What a look-up leaves, and what its answer says. -/
structure Finds (R : List ObjectRow) (loc : Str) (s : StorageState)
    (answer : Except Exception (Option CdsObject)) (s' : StorageState) : Prop where
  importing : Importing R s'
  settles : Settles s s'
  kept : FilesKept s s'
  missing : answer = .ok none → ∀ r ∈ R, matchesLocation loc r = false
  directory : ∀ obj path, answer = .ok (some obj) → loc = dirLocation path →
    isCdsContainer obj.objectType = true ∧ ∃ r ∈ R, matchesLocation loc r = true ∧ obj.id = r.id
  file : ∀ obj path, answer = .ok (some obj) → loc = fileLocation path →
    isCdsContainer obj.objectType = true ∨ ∃ r ∈ R, matchesLocation loc r = true

/-- What the cache finds at the path of a file is a file that is stored there, or a directory. -/
theorem FilesReady.cached_file {objs items : Multiset Int} {but : Option Int}
    (h : FilesReady R objs items but s) (hobj : cachedObjectAt s (fileLocation path) = some obj) :
    isCdsContainer obj.objectType = true ∨
      ∃ r ∈ R, matchesLocation (fileLocation path) r = true := by
  unfold cachedObjectAt at hobj
  obtain ⟨c, hc, hobj⟩ := Option.bind_eq_some_iff.mp hobj
  obtain ⟨ids, hids, hobj⟩ := Option.bind_eq_some_iff.mp hobj
  obtain ⟨id, hid, hobj⟩ := List.exists_of_findSome?_eq_some hobj
  obtain ⟨cObj, hget, hobj⟩ := Option.bind_eq_some_iff.mp hobj
  have hknown : cObj.obj = some obj := by
    split at hobj
    · exact hobj
    · cases hobj
  have hcache := h.known c hc
  obtain ⟨r, hr, hrid, hcontainer | hmatch⟩ := hcache.filed path ids hids id hid
  · obtain ⟨row, hrow, hrowid, htype⟩ := hcache.objects id cObj obj hget hknown
    rw [h.toFileBuffer.eq_of_id hrow hr (hrowid.trans hrid.symm), hcontainer] at htype
    rw [htype]
    exact Or.inl (by decide)
  · exact Or.inr ⟨r, hr, hmatch⟩

/-- What the cache finds at the path of a directory is a container. -/
theorem Importing.cached_directory (h : Importing R s)
    (hobj : cachedObjectAt s (dirLocation path) = some obj) (hrow : row ∈ R)
    (hmatch : matchesLocation (dirLocation path) row = true) (hid : row.id = obj.id) :
    isCdsContainer obj.objectType = true := by
  unfold cachedObjectAt at hobj
  obtain ⟨c, hc, hobj⟩ := Option.bind_eq_some_iff.mp hobj
  obtain ⟨ids, hids, hobj⟩ := Option.bind_eq_some_iff.mp hobj
  obtain ⟨id, -, hobj⟩ := List.exists_of_findSome?_eq_some hobj
  obtain ⟨cObj, hget, hobj⟩ := Option.bind_eq_some_iff.mp hobj
  have hknown : cObj.obj = some obj := by
    split at hobj
    · exact hobj
    · cases hobj
  have hown : obj.id = id := by
    apply h.directories.ids
    unfold cachedObject
    rw [hc, Option.bind_some, hget, Option.bind_some, hknown]
  obtain ⟨r, hr, hrid, htype⟩ := (h.ready.known c hc).objects id cObj obj hget hknown
  have hsame : r = row :=
    h.ready.toFileBuffer.eq_of_id hr hrow (hrid.trans (hown.symm.trans hid.symm))
  rw [htype, hsame, (h.filed.directories row hrow path hmatch).1]
  decide

/-- What is neither in the table nor in the cache is not buffered. -/
theorem Importing.not_buffered (h : Importing R s) (hplace : IsPlace loc)
    (hcached : cachedObjectAt s loc = none) (hr : r ∈ s.bufferedRows) :
    matchesLocation loc r = false := by
  rw [Bool.eq_false_iff]
  intro hmatch
  obtain ⟨path, rfl | rfl⟩ := hplace
  · have hon : s.insertBufferOn = true := by
      by_contra hoff
      rw [Bool.not_eq_true] at hoff
      unfold StorageState.bufferedRows at hr
      rw [h.ready.off hoff] at hr
      cases hr
    rcases hc : s.cache with _ | c
    · exact h.ready.cached hon hc
    · have hfile := (h.ready.files c hc).2 r hr path hmatch fun hnone => nomatch hnone
      obtain ⟨obj, hfound⟩ := hfile.found hc
      rw [hcached] at hfound
      cases hfound
  · rw [(h.ready.sound.items r hr).not_matchesDirectory path] at hmatch
    cases hmatch

/-- What the cache has at the path is the answer. -/
theorem run_findObjectByPath_cached (hloc : pathLocation fullpath = .ok loc)
    (hcached : cachedObjectAt s loc = some obj) :
    (findObjectByPath fullpath).run s = (.ok (some obj), s) := by
  unfold findObjectByPath
  rw [hloc, ofExcept_ok_bind, run_read_bind, hcached]
  rfl

theorem run_findObjectByPath_none (hloc : pathLocation fullpath = .ok loc)
    (hcached : cachedObjectAt s loc = none) (hrows : s.db.selectObjects (matchesLocation loc) = []) :
    (findObjectByPath fullpath).run s = (.ok none, s) := by
  have hquery : s.db.sqlQuery (matchesLocation loc) = [] := congrArg (List.map s.db.join) hrows
  unfold findObjectByPath
  rw [hloc, ofExcept_ok_bind, run_read_bind, hcached]
  simp only [select]
  rw [run_read_bind, hquery]
  rfl

/-- Otherwise the first row is read. -/
theorem run_findObjectByPath_row {rows : List ObjectRow} (hloc : pathLocation fullpath = .ok loc)
    (hcached : cachedObjectAt s loc = none)
    (hrows : s.db.selectObjects (matchesLocation loc) = row :: rows) :
    (findObjectByPath fullpath).run s =
      (createObjectFromRow (s.db.join row) >>= fun obj => pure (some obj)).run s := by
  have hquery : s.db.sqlQuery (matchesLocation loc) = s.db.join row :: rows.map s.db.join :=
    congrArg (List.map s.db.join) hrows
  unfold findObjectByPath
  rw [hloc, ofExcept_ok_bind, run_read_bind, hcached]
  simp only [select]
  rw [run_read_bind, hquery]

/-- **A look-up by path**, whatever it ends with. -/
theorem importing_findObjectByPath (h : Importing R s) (hloc : pathLocation fullpath = .ok loc) :
    ∃ answer s', (findObjectByPath fullpath).run s = (answer, s') ∧ Finds R loc s answer s' := by
  have hplace := isPlace_pathLocation hloc
  rcases hcached : cachedObjectAt s loc with _ | obj
  · rcases hrows : s.db.selectObjects (matchesLocation loc) with _ | ⟨row, rows⟩
    · refine ⟨.ok none, s, run_findObjectByPath_none hloc hcached hrows, h, .refl s, .refl s,
        fun _ r hr => ?_, fun obj path hsome => ?_, fun obj path hsome => nomatch hsome⟩
      · rcases h.ready.toFileBuffer.mem_iff.mp hr with hdb | hbuffered
        · rw [Bool.eq_false_iff]
          intro hmatch
          have hin : r ∈ s.db.selectObjects (matchesLocation loc) :=
            List.mem_filter.mpr ⟨hdb, hmatch⟩
          rw [hrows] at hin
          cases hin
        · exact h.not_buffered hplace hcached hbuffered
      · cases hsome
    · have hin : row ∈ s.db.selectObjects (matchesLocation loc) := by
        rw [hrows]
        exact List.mem_cons_self
      obtain ⟨hdb, hmatch⟩ := List.mem_filter.mp hin
      have hR : row ∈ R := h.ready.toFileBuffer.mem_iff.mpr (Or.inl hdb)
      obtain ⟨s', hstate, himporting, hset, hkept, hobj⟩ :=
        importing_createObjectFromRow h hdb (h.filed.isFiled hR hplace hmatch)
      rw [run_findObjectByPath_row hloc hcached hrows]
      rcases hrun : (createObjectFromRow (s.db.join row)).run s with ⟨e | obj, s₁⟩
      · rw [hrun] at hstate
        rw [run_bind_of_error hrun]
        cases hstate
        exact ⟨.error e, s₁, rfl, himporting, hset, hkept, fun hnone => (nomatch hnone),
          fun obj path hsome => (nomatch hsome), fun obj path hsome => nomatch hsome⟩
      · rw [hrun] at hstate hobj
        rw [run_bind_of_ok hrun]
        cases hstate
        refine ⟨.ok (some obj), s₁, rfl, himporting, hset, hkept, fun hnone => (nomatch hnone),
          fun o path hsome hdir => ?_, fun o path _ _ => Or.inr ⟨row, hR, hmatch⟩⟩
        cases hsome
        obtain ⟨hid, htype⟩ := hobj obj rfl
        rw [hdir] at hmatch
        rw [htype, (h.filed.directories row hR path hmatch).1, hdir]
        exact ⟨by decide, row, hR, hmatch, hid⟩
  · refine ⟨.ok (some obj), s, run_findObjectByPath_cached hloc hcached, h, .refl s, .refl s,
      fun hnone => (nomatch hnone), fun o path hsome hdir => ?_, fun o path hsome hfile => ?_⟩
    · cases hsome
      rw [hdir] at hcached ⊢
      obtain ⟨row, hrow, hid⟩ := h.directories.cached hcached
      obtain ⟨hdb, hmatch⟩ := List.mem_filter.mp hrow
      have hR := h.ready.toFileBuffer.mem_iff.mpr (Or.inl hdb)
      exact ⟨h.cached_directory hcached hR hmatch hid, row, hR, hmatch, hid.symm⟩
    · cases hsome
      rw [hfile] at hcached ⊢
      exact h.ready.cached_file hcached

end

end MediaTomb
