/-
  Looking a directory up: its path, the cache, and the row it is read from.

  `findObjectByPath` looks under the location of the directory, in the cache first.  A container goes
  into the cache under another location, so what is filed under those of directories only gets less
  (`Files`), and a cache that agrees with the table (`DirectoriesFiled`) goes on to.
-/
import MediaTomb.Storage.BrowsePages
import MediaTomb.Storage.ContainerChain
import MediaTomb.Storage.DirectoryPaths

namespace MediaTomb

open Lib.Prog

/-! ## Directories -/

/-- The location of the directory at a path. -/
def dirLocation (path : Str) : Str := addLocationPrefix locDirPrefix (some path)

/-- The rows of directories at a path. -/
def Database.dirsAt (db : Database) (path : Str) : List ObjectRow :=
  db.selectObjects (matchesLocation (dirLocation path))

/-- `createObjectFromRow` makes an object of the row. -/
structure ReadableRow (db : Database) (row : ObjectRow) : Prop where
  object : ∃ obj, (db.join row).toObject = .ok obj
  active : isCdsActiveItem row.objectType = true → ∃ item, db.activeItems.find? row.id = some item

/-- The ids the cache has filed under a location. -/
def filedAt (s : StorageState) (dbLocation : Str) : List Int :=
  ((s.cache.bind fun c => c.getObjects dbLocation)).getD []

/-- **The cache agrees with the table** where directories are concerned: what is filed under the
    location of one is stored there, and a cached object has the id it is cached under. -/
structure DirectoriesFiled (s : StorageState) : Prop where
  ids : ∀ id obj, cachedObject s id = some obj → obj.id = id
  filed : ∀ path, ∀ id ∈ filedAt s (dirLocation path), ∃ row ∈ s.db.dirsAt path, row.id = id

/-! ## Paths -/

/-- A path that is that of the names, the last one first. -/
def PathOf (path : Str) (ns : List Str) : Prop :=
  if ns = [] then reduce dirSeparator path = [dirSeparator]
  else reduce dirSeparator path ≠ [dirSeparator] ∧ cleanPath path = pathText ns

section

variable {n path : Str} {ns names : List Str}

theorem pathText_ne_nil (n : Str) (ns : List Str) : pathText (n :: ns) ≠ [] := by
  intro h
  have hhead := head?_pathText n ns
  rw [h] at hhead
  cases hhead

theorem pathText_ne_root (hn : FileName n) : pathText (n :: ns) ≠ [dirSeparator] :=
  pathText_ne_separator hn.ne_nil

/-- A path is split at its last separator. -/
theorem splitPath_at {pre w : Str} (hw : dirSeparator ∉ w) (hpre : pre ≠ []) :
    splitPath (pre ++ dirSeparator :: w) = .ok (pre, w) := by
  have hne : pre ++ dirSeparator :: w ≠ [] := List.append_ne_nil_of_left_ne_nil hpre _
  have htake : (pre ++ dirSeparator :: w).take pre.length = pre := List.take_left
  have hdrop : (pre ++ dirSeparator :: w).drop (pre.length + 1) = w := by
    rw [← List.drop_drop, List.drop_left]
    rfl
  have hpos := List.length_pos_of_ne_nil hpre
  unfold splitPath
  rw [if_neg hne, rindex_concat hw]
  rcases hlen : pre.length with _ | k
  · omega
  · simp only
    rw [← hlen, htake, hdrop]

/-- The parent of a directory, and its name. -/
theorem splitPath_pathText (hn : FileName n) :
    splitPath (pathText (n :: ns)) = .ok (chainPath ns, n) := by
  rcases ns with _ | ⟨m, ns⟩
  · have hne : pathText [n] ≠ [] := pathText_ne_nil n []
    have hrindex : rindex dirSeparator (pathText [n]) = some 0 :=
      @rindex_concat [] n hn.no_separator
    unfold splitPath
    rw [if_neg hne, hrindex]
    rfl
  · exact splitPath_at hn.no_separator (pathText_ne_nil m ns)

/-- The location that is looked for. -/
theorem pathLocation_directory (hns : ∀ m ∈ n :: ns, FileName m) :
    pathLocation (pathText (n :: ns) ++ [dirSeparator]) =
      .ok (dirLocation (pathText (n :: ns))) := by
  have hdouble : NoDouble dirSeparator (pathText (n :: ns) ++ [dirSeparator]) := by
    obtain ⟨hchain, hend⟩ := noDouble_pathText (n :: ns) hns
    have hlast : (pathText (n :: ns)).getLast? ≠ some dirSeparator :=
      hend (List.cons_ne_nil _ _)
    unfold NoDouble
    rw [List.isChain_append]
    refine ⟨hchain, List.IsChain.singleton _, ?_⟩
    intro a ha b _ h
    rw [h.1] at ha
    exact hlast ha
  have hsplit : splitPathOrThrow (pathText (n :: ns) ++ [dirSeparator]) =
      .ok (pathText (n :: ns), []) := by
    unfold splitPathOrThrow
    rw [splitPath_at List.not_mem_nil (pathText_ne_nil n ns)]
  unfold pathLocation
  simp only
  rw [reduce_eq_self hdouble, hsplit]
  rfl

theorem pathOf_chainPath (hns : ∀ m ∈ ns, FileName m) : PathOf (chainPath ns) ns := by
  rcases ns with _ | ⟨m, ns⟩
  · rfl
  · have hreduce : reduce dirSeparator (pathText (m :: ns)) = pathText (m :: ns) :=
      reduce_pathText hns
    have hlast := (noDouble_pathText (m :: ns) hns).2 (List.cons_ne_nil _ _)
    have hroot : pathText (m :: ns) ≠ [dirSeparator] := pathText_ne_root (hns m List.mem_cons_self)
    show PathOf (pathText (m :: ns)) (m :: ns)
    unfold PathOf
    rw [if_neg (List.cons_ne_nil _ _)]
    refine ⟨by rw [hreduce]; exact hroot, ?_⟩
    unfold cleanPath
    simp only
    rw [hreduce, if_neg]
    exact fun h => hlast h.2

/-- **Every absolute path is that of its names.** -/
theorem pathOf_pathNames (h : path.head? = some dirSeparator) :
    PathOf path (pathNames path).reverse := by
  obtain ⟨hnames, hreduced⟩ := directoriesOf_pathNames h
  have htext : pathText (pathNames path).reverse = filePath (pathNames path) :=
    pathText_reverse (pathNames path)
  have hlong : pathNames path ≠ [] → 1 < (filePath (pathNames path)).length := by
    intro hne
    obtain ⟨m, ms, hms⟩ := List.exists_cons_of_ne_nil hne
    rw [hms] at hnames ⊢
    have hpos := List.length_pos_of_ne_nil (hnames m List.mem_cons_self).ne_nil
    show 1 < (dirSeparator :: m ++ filePath ms).length
    rw [List.length_append, List.length_cons]
    omega
  unfold PathOf
  by_cases hnil : pathNames path = []
  · rw [if_pos (List.reverse_eq_nil_iff.mpr hnil)]
    rcases hreduced with ⟨-, hne⟩ | hreduced
    · exact absurd hnil hne
    · rw [hreduced, hnil]
      rfl
  · rw [if_neg (mt List.reverse_eq_nil_iff.mp hnil), htext]
    have hlen := hlong hnil
    have hne : filePath (pathNames path) ≠ [dirSeparator] := by
      intro hsingle
      rw [hsingle] at hlen
      exact absurd hlen (Nat.lt_irrefl 1)
    unfold cleanPath
    simp only
    rcases hreduced with ⟨hreduced, -⟩ | hreduced
    · have hlast : (filePath (pathNames path)).getLast? ≠ some dirSeparator := by
        rw [← htext]
        exact (noDouble_pathText _ fun m hm => hnames m (List.mem_reverse.mp hm)).2
          fun hrev => hnil (List.reverse_eq_nil_iff.mp hrev)
      rw [hreduced, if_neg fun h => hlast h.2]
      exact ⟨hne, rfl⟩
    · have hne' : filePath (pathNames path) ++ [dirSeparator] ≠ [dirSeparator] := by
        intro hsingle
        have hlen' := congrArg List.length hsingle
        rw [List.length_append, List.length_singleton] at hlen'
        omega
      have hlast : (filePath (pathNames path) ++ [dirSeparator]).getLast? = some dirSeparator :=
        getLast?_snoc _ _
      rw [hreduced, if_pos ⟨hne', hlast⟩, List.dropLast_concat]
      exact ⟨hne', rfl⟩

end

/-! ## What the cache has filed under directories -/

/-- The cache object of each id is that of the object with the id. -/
def OwnIDs (c : StorageCache) : Prop :=
  ∀ id cObj obj, c.getObject id = some cObj → cObj.obj = some obj → obj.id = id

/-- Nothing more is filed under the locations of directories. -/
structure Files (c c' : StorageCache) : Prop where
  ids : OwnIDs c → OwnIDs c'
  filed : ∀ path ids', c'.getObjects (dirLocation path) = some ids' →
    c.getObjects (dirLocation path) = some ids'

namespace Files

variable {c c' c'' : StorageCache}

theorem refl (c : StorageCache) : Files c c := ⟨fun h => h, fun _ _ h => h⟩

theorem trans (h : Files c c') (h' : Files c' c'') : Files c c'' :=
  ⟨fun hc => h'.ids (h.ids hc), fun path ids hids => h.filed path ids (h'.filed path ids hids)⟩

theorem ensureFillLevelOk (c : StorageCache) : Files c c.ensureFillLevelOk := by
  unfold StorageCache.ensureFillLevelOk
  split
  · refine ⟨fun _ id cObj obj hc => ?_, fun path ids hids => ?_⟩
    · have hnone : c.clear.getObject id = none := StorageCache.getObject_clear
      exact absurd (hnone.symm.trans hc) (Option.some_ne_none _).symm
    · have hnone : c.clear.getObjects (dirLocation path) = none := AList.lookup_empty _
      exact absurd (hnone.symm.trans hids) (Option.some_ne_none _).symm
  · exact refl c

/-- A cache object is written under its id. -/
theorem store {id : Int} {cObj : CacheObject}
    (h : OwnIDs c → ∀ obj, cObj.obj = some obj → obj.id = id) : Files c (c.store id cObj) := by
  refine ⟨fun hc j cObj' obj hj hobj => ?_, fun path ids hids => ?_⟩
  · by_cases hmarker : isMarkerID id = true
    · have hsame : c.store id cObj = c := if_pos hmarker
      rw [hsame] at hj
      exact hc j cObj' obj hj hobj
    · rw [Bool.not_eq_true] at hmarker
      by_cases heq : j = id
      · rw [heq, StorageCache.getObject_store_self hmarker] at hj
        rw [heq]
        refine h hc obj ?_
        rw [Option.some.inj hj]
        exact hobj
      · rw [StorageCache.getObject_store_ne heq] at hj
        exact hc j cObj' obj hj hobj
  · unfold StorageCache.store at hids
    split at hids
    · exact hids
    · exact hids

/-- A cache object that knows nothing is put into the hash. -/
theorem put (c : StorageCache) (id : Int) : Files c (c.put id {}) := by
  by_cases hmarker : isMarkerID id = true
  · have hput : c.put id {} = { c with lostPuts := c.lostPuts + 1 } := if_pos hmarker
    rw [hput]
    exact ⟨fun h => h, fun _ _ h => h⟩
  · have hput : c.put id {} = c.store id {} := by
      unfold StorageCache.put StorageCache.store
      rw [if_neg hmarker, if_neg hmarker]
    rw [hput]
    exact store fun _ obj hobj => nomatch hobj

theorem getObjectDefinitely (c : StorageCache) (id : Int) :
    Files c (c.getObjectDefinitely id).2 := by
  unfold StorageCache.getObjectDefinitely
  rcases c.getObject id with _ | cObj
  · exact (ensureFillLevelOk c).trans (put _ id)
  · exact refl c

theorem flushed (c : StorageCache) : Files c c.flushed.2 := ⟨fun h => h, fun _ _ h => h⟩

theorem addChild (c : StorageCache) (id : Int) : Files c (c.addChild id) := by
  unfold StorageCache.addChild
  rcases hget : c.getObject id with _ | cObj
  · exact refl c
  · rcases hcount : cObj.numChildren with _ | n
    · simp only [hcount]
      exact refl c
    · simp only [hcount]
      exact store fun hc obj hobj => hc id cObj obj hget hobj

theorem modifyObject (c : StorageCache) {id : Int} {f : CacheObject → CacheObject}
    (hf : ∀ cObj, (f cObj).obj = cObj.obj) : Files c (c.modifyObject id f) := by
  refine store fun hc obj hobj => ?_
  rw [hf] at hobj
  rcases hget : c.getObject id with _ | cObj
  · rw [hget] at hobj
    cases hobj
  · rw [hget] at hobj
    exact hc id cObj obj hget hobj

/-- Filed under another location than that of a directory. -/
theorem checkLocation {id : Int} {cObj : CacheObject}
    (h : ∀ path, cObj.location ≠ some (dirLocation path)) :
    Files c (c.checkLocation id cObj) := by
  refine ⟨fun hc j cObj' obj hj => ?_, fun path ids hids => ?_⟩
  · rw [StorageCache.getObject_checkLocation] at hj
    exact hc j cObj' obj hj
  · unfold StorageCache.checkLocation at hids
    rcases hloc : cObj.location with _ | location
    · rw [hloc] at hids
      exact hids
    · have hne : dirLocation path ≠ location := fun heq => h path (by rw [hloc, heq])
      rw [hloc] at hids
      simp only at hids
      rcases hget : c.getObjects location with _ | ids'
      · rw [hget] at hids
        exact (AList.lookup_insert_ne hne).symm.trans hids
      · rw [hget] at hids
        simp only at hids
        split at hids
        · exact hids
        · exact (AList.lookup_insert_ne hne).symm.trans hids

end Files

/-- Between the states nothing more has been filed, names are converted as before, and no active item
    has been lost. -/
structure FilesKept (s s' : StorageState) : Prop where
  f2i : s'.f2i = s.f2i
  active : ∀ id item, s.db.activeItems.find? id = some item →
    s'.db.activeItems.find? id = some item
  cache : s.cache = none ∧ s'.cache = none ∨ ∃ c c', s.cache = some c ∧ s'.cache = some c' ∧ Files c c'

theorem FilesKept.refl (s : StorageState) : FilesKept s s := by
  refine ⟨rfl, fun _ _ h => h, ?_⟩
  rcases hc : s.cache with _ | c
  · exact .inl ⟨rfl, rfl⟩
  · exact .inr ⟨c, c, rfl, rfl, .refl c⟩

theorem FilesKept.trans {s s' s'' : StorageState} (h : FilesKept s s') (h' : FilesKept s' s'') :
    FilesKept s s'' := by
  refine ⟨h'.f2i.trans h.f2i, fun id item hitem => h'.active id item (h.active id item hitem), ?_⟩
  rcases h.cache with ⟨hs, hs'⟩ | ⟨c, c', hs, hs', hfiles⟩
  · rcases h'.cache with ⟨-, hs''⟩ | ⟨c, c', hc, -⟩
    · exact .inl ⟨hs, hs''⟩
    · rw [hs'] at hc
      cases hc
  · rcases h'.cache with ⟨hc, -⟩ | ⟨d, c'', hd, hs'', hfiles'⟩
    · rw [hs'] at hc
      cases hc
    · rw [hs'] at hd
      obtain rfl := Option.some.inj hd
      exact .inr ⟨c, c'', hs, hs'', hfiles.trans hfiles'⟩

def filing : Frame StorageState where
  rel := FilesKept
  refl := FilesKept.refl
  trans := FilesKept.trans

theorem FilesKept.of_cache {s s' : StorageState} (hf2i : s'.f2i = s.f2i)
    (hactive : ∃ more, s'.db.activeItems.rows = s.db.activeItems.rows ++ more)
    (hcache : s'.cache = s.cache) : FilesKept s s' := by
  refine ⟨hf2i, fun id item hitem => ?_, ?_⟩
  · obtain ⟨more, hrows⟩ := hactive
    obtain ⟨hin, hid⟩ := Lib.Table.find?_eq_some.mp hitem
    refine Lib.Table.find?_eq_some.mpr ⟨?_, hid⟩
    rw [hrows]
    exact List.mem_append_left _ hin
  rw [hcache]
  rcases s.cache with _ | c
  · exact .inl ⟨rfl, rfl⟩
  · exact .inr ⟨c, c, rfl, rfl, .refl c⟩

theorem FilesKept.of_cache_eq {s s' : StorageState} (hf2i : s'.f2i = s.f2i)
    (hactive : s'.db.activeItems = s.db.activeItems) (hcache : s'.cache = s.cache) :
    FilesKept s s' :=
  .of_cache hf2i ⟨[], by rw [hactive, List.append_nil]⟩ hcache

theorem files_modifyCache {f : StorageCache → StorageCache} (hf : ∀ c, Files c (f c)) :
    Keeps filing (modifyCache f) := by
  apply keeps_modify
  intro s
  refine ⟨rfl, fun _ _ h => h, ?_⟩
  rcases hc : s.cache with _ | c
  · exact .inl ⟨rfl, rfl⟩
  · exact .inr ⟨c, f c, rfl, rfl, hf c⟩

theorem files_flush : Keeps filing flushInsertBuffer := by
  intro s
  rcases run_flushInsertBuffer s with ⟨-, hrun⟩ | ⟨db, -, hdone, hrun⟩ |
    ⟨e, db, done, rest, -, -, hdone, hrun⟩
  · rw [hrun]
    exact .refl s
  · rw [hrun]
    exact .of_cache rfl ⟨_, hdone.activeItems⟩ rfl
  · rw [hrun]
    exact .of_cache rfl ⟨_, hdone.activeItems⟩ rfl

theorem files_flushIfFlushed : Keeps filing flushIfFlushed := by
  refine keeps_bind (keeps_read _) fun s => ?_
  split
  · exact keeps_pure _
  · exact keeps_bind (files_modifyCache Files.flushed) fun _ =>
      keeps_ite (fun _ => files_flush) fun _ => keeps_pure _

/-- A container is filed under another location. -/
theorem files_addObjectToCache {obj : CdsObject} (h : isCdsContainer obj.objectType = true) :
    Keeps filing (addObjectToCache obj) := by
  have hset : ∀ c : StorageCache, Files c
      (((c.store obj.id (((c.getObject obj.id).getD {}).setObject obj)).checkLocation obj.id
        (((c.getObject obj.id).getD {}).setObject obj))) := by
    intro c
    have hkey : CacheObject.locationKey obj =
        some (addLocationPrefix (if obj.virt then locVirtPrefix else locFilePrefix) obj.location) :=
      if_pos h
    have hlocation : (((c.getObject obj.id).getD {}).setObject obj).location =
        some (addLocationPrefix (if obj.virt then locVirtPrefix else locFilePrefix) obj.location) := by
      unfold CacheObject.setObject
      rw [hkey]
    refine (Files.store fun _ o ho => ?_).trans (Files.checkLocation fun path heq => ?_)
    · rw [CacheObject.setObject_obj] at ho
      rw [← Option.some.inj ho]
      rfl
    · rw [hlocation] at heq
      have hhead := (List.cons.inj (Option.some.inj heq)).1
      split at hhead
      · exact absurd hhead (by decide)
      · exact absurd hhead (by decide)
  have hlocked : Keeps filing (addObjectToCacheLocked obj) :=
    keeps_bind (files_modifyCache fun c => Files.getObjectDefinitely c _) fun _ =>
      keeps_bind files_flushIfFlushed fun _ => files_modifyCache hset
  exact keeps_bind (keeps_read _) fun _ => keeps_ite (fun _ => keeps_locked hlocked)
    fun _ => keeps_pure _

theorem files_informCache (newID parentID : Int) (path : Str) :
    Keeps filing (informCache newID parentID path) := by
  have hchild : Keeps filing (addChild parentID) := by
    apply keeps_modify
    intro s
    refine ⟨rfl, fun _ _ h => h, ?_⟩
    rcases hc : s.cache with _ | c
    · exact .inl ⟨rfl, rfl⟩
    · exact .inr ⟨c, c.addChild parentID, rfl, rfl, Files.addChild c parentID⟩
  exact keeps_bind hchild fun _ => keeps_bind files_flushIfFlushed fun _ =>
    keeps_bind (files_modifyCache fun c => Files.getObjectDefinitely c _) fun _ =>
      keeps_bind files_flushIfFlushed fun _ =>
        files_modifyCache fun c => Files.modifyObject c fun _ => rfl

theorem files_createContainer (parentID : Int) (name path : Str) :
    Keeps filing (createContainer parentID name path false none invalidObjectID) := by
  have hnext : Keeps filing getNextID := by
    intro s
    unfold getNextID
    rw [run_locked, run_get_bind]
    split
    · exact .refl s
    · exact .of_cache_eq rfl rfl rfl
  have hinsert : ∀ row, Keeps filing (execInsertObject row) := by
    intro row s
    unfold execInsertObject
    rw [run_locked, run_get_bind]
    rcases hins : s.db.insertObject? row with _ | db
    · exact .refl s
    · exact .of_cache_eq rfl (Database.insertObject?_eq_some hins).2.1 rfl
  unfold createContainer
  rw [if_neg (by decide)]
  exact keeps_bind hnext fun newID => keeps_bind (hinsert _) fun _ =>
    keeps_ifCache (files_informCache newID parentID path) (keeps_pure _)

/-! ## Looking a directory up -/

section

variable {s s' : StorageState} {n path : Str} {ns : List Str} {row : ObjectRow} {obj : CdsObject}
  {id : Int}

theorem DirectoriesFiled.kept (h : DirectoriesFiled s) (hfiles : FilesKept s s')
    (hmono : ∀ r ∈ s.db.objects.rows, r ∈ s'.db.objects.rows) : DirectoriesFiled s' := by
  rcases hfiles.cache with ⟨-, hnone⟩ | ⟨c, c', hc, hc', hkept⟩
  · refine ⟨fun id obj hobj => ?_, fun path id hid => ?_⟩
    · unfold cachedObject at hobj
      rw [hnone] at hobj
      cases hobj
    · unfold filedAt at hid
      rw [hnone] at hid
      cases hid
  · have hown : OwnIDs c := by
      intro id cObj obj hget hobj
      apply h.ids
      unfold cachedObject
      rw [hc, Option.bind_some, hget, Option.bind_some, hobj]
    refine ⟨fun id obj hobj => ?_, fun path id hid => ?_⟩
    · unfold cachedObject at hobj
      rw [hc', Option.bind_some] at hobj
      obtain ⟨cObj, hget, hobj⟩ := Option.bind_eq_some_iff.mp hobj
      exact hkept.ids hown id cObj obj hget hobj
    · unfold filedAt at hid
      rw [hc', Option.bind_some] at hid
      rcases hget : c'.getObjects (dirLocation path) with _ | ids
      · rw [hget] at hid
        cases hid
      · rw [hget] at hid
        have hold : id ∈ filedAt s (dirLocation path) := by
          unfold filedAt
          rw [hc, Option.bind_some, hkept.filed path ids hget]
          exact hid
        obtain ⟨row, hrow, hrowID⟩ := h.filed path id hold
        obtain ⟨hin, hmatch⟩ := List.mem_filter.mp hrow
        exact ⟨row, List.mem_filter.mpr ⟨hmono row hin, hmatch⟩, hrowID⟩

/-- What the cache finds is a directory that is stored there. -/
theorem DirectoriesFiled.cached (h : DirectoriesFiled s)
    (hobj : cachedObjectAt s (dirLocation path) = some obj) :
    ∃ row ∈ s.db.dirsAt path, row.id = obj.id := by
  unfold cachedObjectAt at hobj
  obtain ⟨c, hc, hobj⟩ := Option.bind_eq_some_iff.mp hobj
  obtain ⟨ids, hids, hobj⟩ := Option.bind_eq_some_iff.mp hobj
  obtain ⟨id, hid, hobj⟩ := List.exists_of_findSome?_eq_some hobj
  obtain ⟨cObj, hget, hobj⟩ := Option.bind_eq_some_iff.mp hobj
  have hknown : cObj.obj = some obj := by
    split at hobj
    · exact hobj
    · cases hobj
  have hfiled : id ∈ filedAt s (dirLocation path) := by
    unfold filedAt
    rw [hc, Option.bind_some, hids]
    exact hid
  have hown : obj.id = id := by
    apply h.ids
    unfold cachedObject
    rw [hc, Option.bind_some, hget, Option.bind_some, hknown]
  obtain ⟨row, hrow, hrowID⟩ := h.filed path id hfiled
  exact ⟨row, hrow, hrowID.trans hown.symm⟩

theorem findDirectory_cached (hns : ∀ m ∈ n :: ns, FileName m)
    (h : cachedObjectAt s (dirLocation (pathText (n :: ns))) = some obj) :
    (findObjectByPath (pathText (n :: ns) ++ [dirSeparator])).run s = (.ok (some obj), s) := by
  unfold findObjectByPath
  rw [pathLocation_directory hns, ofExcept_ok_bind, run_read_bind, h]
  rfl

theorem findDirectory_row (hns : ∀ m ∈ n :: ns, FileName m)
    (hnone : cachedObjectAt s (dirLocation (pathText (n :: ns))) = none) {rows : List ObjectRow}
    (h : s.db.dirsAt (pathText (n :: ns)) = row :: rows) :
    (findObjectByPath (pathText (n :: ns) ++ [dirSeparator])).run s =
      (createObjectFromRow (s.db.join row) >>= fun obj => pure (some obj)).run s := by
  have hquery : s.db.sqlQuery (matchesLocation (dirLocation (pathText (n :: ns)))) =
      s.db.join row :: rows.map s.db.join := congrArg (List.map s.db.join) h
  unfold findObjectByPath
  rw [pathLocation_directory hns, ofExcept_ok_bind, run_read_bind, hnone]
  simp only
  rw [select, run_read_bind, hquery]

theorem findDirectory_missing (hns : ∀ m ∈ n :: ns, FileName m)
    (hnone : cachedObjectAt s (dirLocation (pathText (n :: ns))) = none)
    (h : s.db.dirsAt (pathText (n :: ns)) = []) :
    (findObjectByPath (pathText (n :: ns) ++ [dirSeparator])).run s = (.ok none, s) := by
  have hquery : s.db.sqlQuery (matchesLocation (dirLocation (pathText (n :: ns)))) = [] :=
    congrArg (List.map s.db.join) h
  unfold findObjectByPath
  rw [pathLocation_directory hns, ofExcept_ok_bind, run_read_bind, hnone]
  simp only
  rw [select, run_read_bind, hquery]
  rfl

/-- **Reading a row**: an object with its id goes into the cache. -/
theorem ReadableRow.run (h : ReadableRow s.db row) :
    ∃ obj : CdsObject, obj.id = row.id ∧
      (isCdsContainer row.objectType = true → isCdsContainer obj.objectType = true) ∧
      (createObjectFromRow (s.db.join row)).run s =
        (addObjectToCache obj >>= fun _ => (pure obj : Storage CdsObject)).run s := by
  obtain ⟨obj, hobj⟩ := h.object
  have hid : obj.id = row.id := (toObject_resources hobj).1
  have hcontainer : isCdsContainer row.objectType = true →
      ∃ u c a, obj.kind = .container u c a := fun htype => toObject_container hobj htype
  have hwhere : (s.db.join row).f.objectType = row.objectType := rfl
  unfold createObjectFromRow
  rw [hobj, ofExcept_ok_bind]
  by_cases hactive : isCdsActiveItem row.objectType = true
  · obtain ⟨item, hitem⟩ := h.active hactive
    have hload : ∃ o : CdsObject, (loadActiveItem obj).run s = (.ok o, s) ∧ o.id = obj.id ∧
        ((∃ u c a, obj.kind = .container u c a) → o.kind = obj.kind) := by
      unfold loadActiveItem select
      rw [run_read_bind]
      simp only [hid, hitem]
      refine ⟨_, rfl, rfl, ?_⟩
      rintro ⟨u, c, a, hkind⟩
      simp only [hkind]
    obtain ⟨o, hrun, hoid, hkind⟩ := hload
    refine ⟨o, hoid.trans hid, ?_, ?_⟩
    · intro htype
      obtain ⟨u, c, a, hobjKind⟩ := hcontainer htype
      unfold CdsObject.objectType
      rw [hkind ⟨u, c, a, hobjKind⟩, hobjKind]
      exact isCdsContainer_container u c a
    · simp only [hwhere, hactive, if_true]
      rw [run_bind_of_ok hrun]
  · refine ⟨obj, hid, ?_, ?_⟩
    · intro htype
      obtain ⟨u, c, a, hobjKind⟩ := hcontainer htype
      unfold CdsObject.objectType
      rw [hobjKind]
      exact isCdsContainer_container u c a
    · simp only [hwhere, hactive]
      rfl

/-- A row that has been read can be read. -/
theorem readable_of_run (h : (createObjectFromRow (s.db.join row)).run s = (.ok obj, s')) :
    ReadableRow s.db row ∧ obj.id = row.id := by
  have hreadable : ReadableRow s.db row := by
    unfold createObjectFromRow at h
    obtain ⟨o, s₁, hread, h⟩ := bind_ok h
    rw [run_ofExcept] at hread
    obtain ⟨hobj, rfl⟩ := Prod.mk.inj hread
    refine ⟨⟨o, hobj⟩, fun hactive => ?_⟩
    have hwhere : (s.db.join row).f.objectType = row.objectType := rfl
    simp only [hwhere, hactive, if_true] at h
    obtain ⟨o', s₂, hload, -⟩ := bind_ok h
    unfold loadActiveItem select at hload
    rw [run_read_bind, (toObject_resources hobj).1] at hload
    rcases hitem : s.db.activeItems.find? row.id with _ | item
    · have hfind : s.db.activeItems.find? (s.db.join row).f.id = none := hitem
      simp only [hfind] at hload
      cases hload
    · exact ⟨item, rfl⟩
  refine ⟨hreadable, ?_⟩
  obtain ⟨o, hid, -, hrun⟩ := hreadable.run
  rw [hrun] at h
  obtain ⟨⟨⟩, s₁, -, h⟩ := bind_ok h
  cases h
  exact hid

/-- The object of a directory goes into the cache, and nothing else happens. -/
theorem createObjectFromRow_directory (hs : Sound s) (hread : ReadableRow s.db row)
    (hcontainer : isCdsContainer row.objectType = true) :
    ∃ obj s', (createObjectFromRow (s.db.join row)).run s = (.ok obj, s') ∧ obj.id = row.id ∧
      Sound s' ∧ Settles s s' ∧ FilesKept s s' := by
  obtain ⟨obj, hid, htype, hrun⟩ := hread.run
  have hcached : Triple Sound (addObjectToCache obj) (fun _ => Sound) (fun _ => False) :=
    triple_bind (M := fun _ => Sound) (triple_read fun _ h => h) fun on => by
      split
      · exact triple_locked (sound_addObjectToCacheLocked obj)
      · exact triple_pure fun _ h => h
  have hdone := hcached s hs
  have hsettles := holds_createObjectFromRow querySections_settling (s.db.join row) s
  have hfiles := files_addObjectToCache (htype hcontainer) s
  rw [hrun] at hsettles ⊢
  rcases hadd : (addObjectToCache obj).run s with ⟨e | ⟨⟩, s'⟩
  · rw [hadd] at hdone
    exact hdone.elim
  · rw [hadd] at hdone hfiles
    have hwhole : (addObjectToCache obj >>= fun _ => (pure obj : Storage CdsObject)).run s =
        (.ok obj, s') := by
      rw [run_bind_of_ok hadd]
      rfl
    rw [hwhole] at hsettles ⊢
    exact ⟨obj, s', rfl, hid, hdone, hsettles, hfiles⟩

end

end MediaTomb
