/-
  `addObject` for a file: its directories, then its row.

  DATA     The rows of a storage, in the table and in the buffer (`Importing R`).
  PROGRAM  `_addUpdateObject` makes the directories that are missing, `insertNewObject` writes the row
           of the file, at once or into the buffer, and tells the cache of it.
  RESULT   `importing_addObject`: however the call ends, what there was is still there; rows of
           directories came, and the row of the file if it returned; and no place holds two files, if
           none was stored at its path before.
-/
import MediaTomb.Storage.FileLookup
import MediaTomb.Storage.StoredObject

namespace MediaTomb

open Lib.Prog

/-! ## What comes into the table stays there -/

/-- Rows of the table stay. -/
def storing : Frame StorageState where
  rel s s' := ∀ r ∈ s.db.objects.rows, r ∈ s'.db.objects.rows
  refl _ _ h := h
  trans h h' r hr := h' r (h r hr)

theorem hiddenSections_storing : HiddenSections storing where
  hidden _ _ _ _ _ _ _ _ := fun _ h => h
  flush := by
    intro s r hr
    rcases run_flushInsertBuffer s with ⟨-, hrun⟩ | ⟨db, -, hdone, hrun⟩ |
      ⟨e, db, done, rest, -, -, hdone, hrun⟩
    · rw [hrun]
      exact hr
    · rw [hrun]
      show r ∈ db.objects.rows
      rw [hdone.objects]
      exact List.mem_append_left _ hr
    · rw [hrun]
      show r ∈ db.objects.rows
      rw [hdone.objects]
      exact List.mem_append_left _ hr

theorem storing_execInsertObject (row : ObjectRow) : Keeps storing (execInsertObject row) := by
  intro s r hr
  unfold execInsertObject
  rw [run_locked, run_get_bind]
  rcases hins : s.db.insertObject? row with _ | db
  · exact hr
  · show r ∈ db.objects.rows
    rw [(Database.insertObject?_eq_some hins).1]
    exact List.mem_append_left _ hr

theorem storing_getNextID : Keeps storing getNextID := by
  intro s r hr
  unfold getNextID
  rw [run_locked, run_get_bind]
  split
  · exact hr
  · exact hr

theorem storing_addToInsertBuffer (q : Statement) : Keeps storing (addToInsertBuffer q) :=
  keeps_bind (keeps_modify fun _ _ h => h) fun _ => keeps_locked
    (keeps_bind (keeps_modify fun _ _ h => h) fun _ => keeps_bind (keeps_read _) fun _ =>
      keeps_ite (fun _ => hiddenSections_storing.flush) fun _ => keeps_pure _)

theorem storing_insertObject (text : Str) (row : ObjectRow) :
    Keeps storing (insertOrBuffer (.insertObject text row)) :=
  keeps_bind (keeps_read _) fun _ => keeps_ite (fun _ => storing_addToInsertBuffer _)
    fun _ => storing_execInsertObject row

theorem storing_createContainer (parentID : Int) (name path : Str) :
    Keeps storing (createContainer parentID name path false none invalidObjectID) := by
  unfold createContainer
  rw [if_neg (by decide)]
  exact keeps_bind storing_getNextID fun newID => keeps_bind (storing_execInsertObject _) fun _ =>
    keeps_ifCache (keeps_bind (keeps_addChild hiddenSections_storing _) fun _ =>
      keeps_bind (keeps_flushIfFlushed hiddenSections_storing) fun _ =>
        keeps_bind (keeps_modifyCache hiddenSections_storing _) fun _ =>
          keeps_bind (keeps_flushIfFlushed hiddenSections_storing) fun _ =>
            keeps_modifyCache hiddenSections_storing _) (keeps_pure _)

/-! ## What the sections do to the cache -/

theorem files_insertObject (text : Str) (row : ObjectRow) :
    Keeps filing (insertOrBuffer (.insertObject text row)) := by
  have hbuffer : Keeps filing (addToInsertBuffer (.insertObject text row)) :=
    keeps_bind (keeps_modify fun s => .of_cache_eq rfl rfl rfl) fun _ => keeps_locked
      (keeps_bind (keeps_modify fun s => .of_cache_eq rfl rfl rfl) fun _ =>
        keeps_bind (keeps_read _) fun _ => keeps_ite (fun _ => files_flush) fun _ => keeps_pure _)
  have hexec : Keeps filing (execInsertObject row) := by
    intro s
    unfold execInsertObject
    rw [run_locked, run_get_bind]
    rcases hins : s.db.insertObject? row with _ | db
    · exact .refl s
    · exact .of_cache_eq rfl (Database.insertObject?_eq_some hins).2.1 rfl
  exact keeps_bind (keeps_read _) fun _ => keeps_ite (fun _ => hbuffer) fun _ => hexec

theorem files_addToCacheAsChild {obj : CdsObject} {key : Str}
    (hkey : CacheObject.locationKey obj = some key) (hne : ∀ path, key ≠ dirLocation path) :
    Keeps filing (addToCacheAsChild obj) := by
  have hchild : Keeps filing (addChild obj.parentID) := by
    apply keeps_modify
    intro s
    refine ⟨rfl, fun _ _ h => h, ?_⟩
    rcases hc : s.cache with _ | c
    · exact .inl ⟨rfl, rfl⟩
    · exact .inr ⟨c, c.addChild obj.parentID, rfl, rfl, Files.addChild c obj.parentID⟩
  exact keeps_bind hchild fun _ => keeps_bind files_flushIfFlushed fun _ =>
    files_addObjectToCacheLocked hkey hne

/-! ## A directory is made -/

section

variable {R : List ObjectRow} {objs items : Multiset Int} {but : Option Int}
  {E : StorageState → Prop} {s s' : StorageState}

theorem filesReady_informCache (newID parentID : Int) (path : Str) :
    Triple (FilesReady R objs items but) (informCache newID parentID path)
      (fun _ => FilesReady R objs items but) E := by
  have hpending : ∀ {m : Storage Unit},
      Triple (FilesPending R objs items but) m (fun _ => FilesPending R objs items but) E →
      Triple (FilesReady R objs items but) m (fun _ => FilesPending R objs items but) E :=
    fun hm => triple_conseq hm (fun s hs => hs.pending) (fun _ _ h => h) fun _ h => h
  refine triple_bind (hpending (filesPending_addChild _)) fun _ =>
    triple_bind filesReady_flushIfFlushed fun _ =>
      triple_bind (hpending (filesPending_modifyCache fun c =>
        StorageCache.tells_getObjectDefinitely _)) fun _ =>
        triple_bind filesReady_flushIfFlushed fun _ => ?_
  have htells : ∀ c : StorageCache, c.Tells but (c.modifyObject newID fun cObj =>
      { cObj with
        parentID := parentID
        numChildren := some 0
        objectType := some objectTypeContainer
        location := some path }) :=
    fun _ => StorageCache.tells_modifyObject (fun _ => rfl) fun _ => rfl
  -- nothing is forgotten by the last write, and the flag stays down
  refine triple_modify fun s hs => ⟨hs.toFileBuffer.told _ _, fun c' hc' => ?_, fun c' hc' => ?_⟩
  · obtain ⟨c, hc, rfl⟩ := Option.map_eq_some_iff.mp hc'
    exact (hs.known c hc).plain (htells c).plain
  obtain ⟨c, hc, rfl⟩ := Option.map_eq_some_iff.mp hc'
  obtain ⟨hflag, hfiles⟩ := hs.files c hc
  have hdown : (c.modifyObject newID fun cObj =>
      { cObj with
        parentID := parentID
        numChildren := some 0
        objectType := some objectTypeContainer
        location := some path }).hasBeenFlushed = false :=
    (StorageCache.hasBeenFlushed_store _).trans hflag
  rcases (htells c).holds with hup | ⟨-, hall⟩
  · rw [hdown] at hup
    cases hup
  · exact ⟨hdown, fun r hr path hpath hbut => hall r.id path hbut (hfiles r hr path hpath hbut)⟩

/-- What is done under the cache lock, where there is a cache. -/
theorem filesReady_ifCache {α : Type} {m : Storage Unit} {n : Storage α}
    {P : StorageState → Prop} {Q : α → StorageState → Prop}
    (hm : Triple (FilesReady R objs items but) m (fun _ => P) E)
    (hn : Triple P n Q E) (hno : ∀ s, s.cache = none → FilesReady R objs items but s → P s) :
    Triple (FilesReady R objs items but)
      (cacheOn >>= fun on => if on then locked m >>= fun _ => n else n) Q E := by
  intro s hs
  unfold cacheOn
  rw [run_read_bind]
  by_cases hon : s.cache.isSome = true
  · rw [if_pos hon]
    exact triple_bind (triple_locked hm) (fun _ => hn) s hs
  · rw [if_neg hon]
    refine hn s (hno s ?_ hs)
    rwa [Option.not_isSome_iff_eq_none] at hon

theorem FilesReady.getNextID (h : FilesReady R objs items but s) :
    ∃ id : {id : Int // cdsIdFsRoot < id},
      getNextID.run s = (.ok id, { s with lastID := s.lastID + 1 }) ∧
        FilesReady R ((id : Int) ::ₘ objs) ((id : Int) ::ₘ items) but
          { s with lastID := s.lastID + 1 } := by
  obtain ⟨id, hrun, hsound⟩ := h.sound.getNextID
  exact ⟨id, hrun, ⟨hsound, h.cached, h.off, h.settled, h.rows⟩, h.known, h.files⟩

/-- A row is inserted at once. -/
theorem FilesReady.insert {row : ObjectRow} (h : FilesReady R (row.id ::ₘ objs) items but s) :
    ∃ s', (execInsertObject row).run s = (.ok (), s') ∧
      FilesReady (R ++ [row]) objs items but s' := by
  obtain ⟨db, -, hrun, hperm, hkeys⟩ := h.sound.keys.run_execInsertObject
  refine ⟨_, hrun, ⟨⟨hkeys, h.sound.loaded, h.sound.items⟩, h.cached, h.off, h.settled, ?_⟩,
    fun c hc => (h.known c hc).more [row], h.files⟩
  exact hperm.trans ((h.rows.cons row).trans (List.perm_append_singleton row R).symm)

/-- **A directory is made**, and there is one more row. -/
theorem filesReady_createContainer (h : FilesReady R 0 0 none s) (parentID : Int)
    (name path : Str) :
    ∃ (newID : {id : Int // cdsIdFsRoot < id}) (s' : StorageState),
      (createContainer parentID name path false none invalidObjectID).run s =
        (.ok (newID : Int), s') ∧
      FilesReady (R ++ [containerRow newID parentID name path false none invalidObjectID]) 0 0 none
        s' := by
  unfold createContainer
  rw [if_neg (by decide)]
  obtain ⟨newID, hrun, hready⟩ := h.getNextID
  rw [run_bind_of_ok hrun]
  let row := containerRow newID parentID name path false none invalidObjectID
  have hreserved : FilesReady R (row.id ::ₘ 0) 0 none { s with lastID := s.lastID + 1 } :=
    hready.mono (le_refl _) (Multiset.zero_le _)
  obtain ⟨s₁, hinsert, hready₁⟩ := hreserved.insert
  rw [run_bind_of_ok hinsert]
  have hcache : Triple (FilesReady (R ++ [row]) 0 0 none) (cacheOn >>= fun on => if on then
      locked (informCache newID parentID path) >>= fun _ => (pure (newID : Int) : Storage Int)
      else pure (newID : Int)) (fun id s => id = newID ∧ FilesReady (R ++ [row]) 0 0 none s)
      (fun _ => False) :=
    filesReady_ifCache (filesReady_informCache _ _ _) (triple_pure fun _ h => ⟨rfl, h⟩)
      fun _ _ h => h
  have hdone := hcache s₁ hready₁
  rcases hlast : (cacheOn >>= fun on => if on then
      locked (informCache newID parentID path) >>= fun _ => (pure (newID : Int) : Storage Int)
      else pure (newID : Int)).run s₁ with ⟨e | id, s'⟩
  · rw [hlast] at hdone
    exact hdone.elim
  · rw [hlast] at hdone
    obtain ⟨rfl, hdone⟩ := hdone
    exact ⟨newID, s', rfl, hdone⟩

end

/-! ## The directories of a file -/

/-- The row of a directory. -/
def IsDirectoryRow (r : ObjectRow) : Prop :=
  ∃ path, matchesLocation (dirLocation path) r = true ∧ r.objectType = objectTypeContainer ∧ 0 < r.id

section

variable {R new : List ObjectRow} {s s' : StorageState} {n path p : Str} {ns : List Str}
  {row r : ObjectRow}

theorem IsDirectoryRow.not_file (h : IsDirectoryRow r) :
    matchesLocation (fileLocation p) r = false := by
  obtain ⟨path, hmatch, -⟩ := h
  rw [Bool.eq_false_iff]
  intro hfile
  rw [matchesFile_not_directory hfile] at hmatch
  cases hmatch

/-- Rows of directories do not matter to files. -/
theorem WellFiled.directories_added (h : WellFiled R) (hnew : ∀ r ∈ new, IsDirectoryRow r) :
    WellFiled (R ++ new) := by
  have hfile : ∀ p, ∀ r ∈ R ++ new, matchesLocation (fileLocation p) r = true → r ∈ R := by
    intro p r hr hmatch
    rcases List.mem_append.mp hr with hr | hr
    · exact hr
    · rw [(hnew r hr).not_file] at hmatch
      cases hmatch
  refine ⟨fun r hr path hmatch => h.files r (hfile path r hr hmatch) path hmatch,
    fun r hr path hmatch => ?_, fun r hr path hmatch => ?_, fun path => ?_, fun r hr hid => ?_⟩
  · rcases List.mem_append.mp hr with hr | hr
    · exact h.directories r hr path hmatch
    · obtain ⟨q, -, htype⟩ := hnew r hr
      exact htype
  · obtain ⟨dir, name, hsplit, hdir⟩ := h.home r (hfile path r hr hmatch) path hmatch
    refine ⟨dir, name, hsplit, hdir.imp_right ?_⟩
    rintro ⟨d, hd, hmatch'⟩
    exact ⟨d, List.mem_append_left _ hd, hmatch'⟩
  · have hnone : new.filter (matchesLocation (fileLocation path)) = [] := by
      apply List.filter_eq_nil_iff.mpr
      intro r hr
      rw [(hnew r hr).not_file]
      exact Bool.false_ne_true
    rw [List.filter_append, hnone, List.append_nil]
    exact h.once path
  · rcases List.mem_append.mp hr with hr | hr
    · exact h.root r hr hid
    · obtain ⟨q, -, htype, -⟩ := hnew r hr
      exact htype

/-- What a call adds: `new` rows, and nothing that was there is lost. -/
structure Adds (R new : List ObjectRow) (s s' : StorageState) : Prop where
  importing : Importing (R ++ new) s'
  kept : FilesKept s s'
  stored : ∀ r ∈ s.db.objects.rows, r ∈ s'.db.objects.rows

theorem Adds.trans {new' : List ObjectRow} {s'' : StorageState} (h : Adds R new s s')
    (h' : Adds (R ++ new) new' s' s'') : Adds R (new ++ new') s s'' := by
  refine ⟨?_, h.kept.trans h'.kept, fun r hr => h'.stored r (h.stored r hr)⟩
  rw [← List.append_assoc]
  exact h'.importing

theorem Adds.nothing (h : Importing R s') (hkept : FilesKept s s') (hset : Settles s s') :
    Adds R [] s s' := by
  refine ⟨by rwa [List.append_nil], hkept, fun r hr => ?_⟩
  obtain ⟨moved, hrows, -⟩ := hset.objects
  rw [hrows]
  exact List.mem_append_left _ hr

theorem Adds.refl (h : Importing R s) : Adds R [] s s := .nothing h (.refl s) (.refl s)

/-- A directory row comes. -/
theorem importing_createContainer (h : Importing R s) (parentID : Int) (name path : Str) :
    ∃ (newID : {id : Int // cdsIdFsRoot < id}) (s' : StorageState),
      (createContainer parentID name path false none invalidObjectID).run s =
        (.ok (newID : Int), s') ∧
      Adds R [containerRow newID parentID name path false none invalidObjectID] s s' := by
  obtain ⟨newID, s', hrun, hready⟩ := filesReady_createContainer h.ready parentID name path
  have hkept := files_createContainer parentID name path s
  have hstored := storing_createContainer parentID name path s
  rw [hrun] at hkept hstored
  refine ⟨newID, s', hrun, ⟨hready, h.directories.kept hkept hstored, ?_⟩, hkept, hstored⟩
  apply h.filed.directories_added
  intro r hr
  rw [List.mem_singleton.mp hr]
  have hid : (0 : Int) < cdsIdFsRoot := by decide
  exact ⟨path, matchesDirectory_containerRow, rfl, Int.lt_trans hid newID.property⟩

/-- The id of the directory of these names, the last one first. -/
def IsDirectory (R : List ObjectRow) (ns : List Str) (id : Int) : Prop :=
  if ns = [] then id = cdsIdFsRoot
  else ∃ d ∈ R, matchesLocation (dirLocation (pathText ns)) d = true ∧ d.id = id

theorem IsDirectory.pos {id : Int} (h : WellFiled R) (hid : IsDirectory R ns id) : 0 < id := by
  unfold IsDirectory at hid
  split at hid
  · rw [hid]
    decide
  · obtain ⟨d, hd, hmatch, rfl⟩ := hid
    exact (h.directories d hd _ hmatch).2

theorem IsDirectory.more {id : Int} (hid : IsDirectory R ns id) (new : List ObjectRow) :
    IsDirectory (R ++ new) ns id := by
  unfold IsDirectory at hid ⊢
  split at hid
  · next hnil => rwa [if_pos hnil]
  · next hne =>
    rw [if_neg hne]
    obtain ⟨d, hd, hmatch⟩ := hid
    exact ⟨d, List.mem_append_left _ hd, hmatch⟩

theorem isDirectory_nil {id : Int} : IsDirectory R [] id ↔ id = cdsIdFsRoot := by
  unfold IsDirectory
  rw [if_pos rfl]

theorem isDirectory_cons {id : Int} : IsDirectory R (n :: ns) id ↔
    ∃ d ∈ R, matchesLocation (dirLocation (pathText (n :: ns))) d = true ∧ d.id = id := by
  unfold IsDirectory
  rw [if_neg (List.cons_ne_nil n ns)]

/-- **`ensurePathExistence`**, however it ends: rows of directories come, and the answer is the id of
    the directory at the path. -/
theorem importing_ensurePathExistenceFrom : ∀ (fuel : Nat) (ns : List Str) (path : Str)
    (R : List ObjectRow) (s : StorageState), Importing R s → (∀ m ∈ ns, FileName m) →
    PathOf path ns →
    ∃ answer s' new, (ensurePathExistenceFrom fuel path).run s = (answer, s') ∧ Adds R new s s' ∧
      (∀ r ∈ new, IsDirectoryRow r) ∧
      ∀ id changed, answer = .ok (id, changed) → IsDirectory (R ++ new) ns id := by
  intro fuel
  induction fuel with
  | zero =>
    intro ns path R s h _ _
    exact ⟨.error outOfFuel, s, [], rfl, .refl h, fun r hr => (nomatch hr),
      fun id changed hok => nomatch hok⟩
  | succ fuel ih =>
    intro ns path R s h hns hpath
    rcases ns with _ | ⟨n, ns⟩
    · refine ⟨_, s, [], ensureFrom_nil hpath fuel, .refl h, fun r hr => (nomatch hr),
        fun id changed hok => ?_⟩
      cases hok
      exact isDirectory_nil.mpr rfl
    · have hns' : ∀ m ∈ ns, FileName m := fun m hm => hns m (List.mem_cons_of_mem n hm)
      rw [ensureFrom_cons hpath]
      unfold ensurePathExistence_
      rw [if_neg (pathText_ne_root (hns n List.mem_cons_self))]
      obtain ⟨found, s₁, hfind, hfinds⟩ :=
        importing_findObjectByPath h (pathLocation_directory hns)
      have hadds₁ := Adds.nothing hfinds.importing hfinds.kept hfinds.settles
      rcases found with e | _ | obj
      · exact ⟨.error e, s₁, [], run_bind_of_error hfind, hadds₁, fun r hr => (nomatch hr),
          fun id changed hok => nomatch hok⟩
      · rw [run_bind_of_ok hfind]
        have hsplit : splitPathOrThrow (pathText (n :: ns)) = .ok (chainPath ns, n) := by
          unfold splitPathOrThrow
          rw [splitPath_pathText (hns n List.mem_cons_self)]
        simp only
        rw [hsplit, ofExcept_ok_bind]
        simp only
        obtain ⟨inner, s₂, new₂, hinner, hadds₂, hdirs₂, -⟩ :=
          ih ns (chainPath ns) R s₁ hfinds.importing hns' (pathOf_chainPath hns')
        have hadds := hadds₁.trans (by rw [List.append_nil]; exact hadds₂)
        rcases inner with e | ⟨parentID, changed₁⟩
        · exact ⟨.error e, s₂, new₂, run_bind_of_error hinner, hadds, hdirs₂,
            fun id changed hok => nomatch hok⟩
        · rw [run_bind_of_ok hinner]
          simp only
          rw [run_get_bind]
          rcases hname : s₂.f2i n with e | name
          · exact ⟨.error e, s₂, new₂, rfl, hadds, hdirs₂, fun id changed hok => nomatch hok⟩
          · rw [ofExcept_ok_bind]
            obtain ⟨newID, s', hcreate, hadds'⟩ := importing_createContainer hadds.importing
              parentID name (pathText (n :: ns))
            rw [run_bind_of_ok hcreate]
            have hid : (0 : Int) < newID :=
              Int.lt_trans (by decide : (0 : Int) < cdsIdFsRoot) newID.property
            refine ⟨_, s', _, rfl, hadds.trans hadds', fun r hr => ?_, fun id changed hok => ?_⟩
            · rcases List.mem_append.mp hr with hr | hr
              · exact hdirs₂ r hr
              · rw [List.mem_singleton.mp hr]
                exact ⟨_, matchesDirectory_containerRow, rfl, hid⟩
            · cases hok
              refine isDirectory_cons.mpr ⟨containerRow newID parentID name (pathText (n :: ns)) false
                none invalidObjectID, ?_, matchesDirectory_containerRow, rfl⟩
              exact List.mem_append_right _ (List.mem_append_right _ (List.mem_singleton_self _))
      · rw [run_bind_of_ok hfind]
        refine ⟨_, s₁, [], rfl, hadds₁, fun r hr => (nomatch hr), fun id changed hok => ?_⟩
        cases hok
        obtain ⟨-, d, hd, hmatch, hid⟩ := hfinds.directory obj (pathText (n :: ns)) rfl rfl
        exact isDirectory_cons.mpr ⟨d, List.mem_append_left _ hd, hmatch, hid.symm⟩

/-! ## The row of a file -/

/-- One more row, of a file where there was none. -/
theorem WellFiled.file_added (h : WellFiled R) (hmatch : matchesLocation (fileLocation p) row = true)
    (htype : row.objectType = objectTypeItem) (hid : row.id ≠ cdsIdFsRoot)
    (hhome : ∃ dir name, splitPath p = .ok (dir, name) ∧
      (dir = [dirSeparator] ∨ ∃ d ∈ R, matchesLocation (dirLocation dir) d = true))
    (hnone : ∀ r ∈ R, matchesLocation (fileLocation p) r = false) : WellFiled (R ++ [row]) := by
  have hmem : ∀ r ∈ R ++ [row], r ∈ R ∨ r = row := by
    intro r hr
    rcases List.mem_append.mp hr with hr | hr
    · exact Or.inl hr
    · exact Or.inr (List.mem_singleton.mp hr)
  have hstay : ∀ dir : Str,
      (dir = [dirSeparator] ∨ ∃ d ∈ R, matchesLocation (dirLocation dir) d = true) →
      dir = [dirSeparator] ∨ ∃ d ∈ R ++ [row], matchesLocation (dirLocation dir) d = true := by
    rintro dir (hroot | ⟨d, hd, hdir⟩)
    · exact Or.inl hroot
    · exact Or.inr ⟨d, List.mem_append_left _ hd, hdir⟩
  refine ⟨fun r hr path hpath => ?_, fun r hr path hpath => ?_, fun r hr path hpath => ?_,
    fun path => ?_, fun r hr hroot => ?_⟩
  · rcases hmem r hr with hr | rfl
    · exact h.files r hr path hpath
    · exact htype
  · rcases hmem r hr with hr | rfl
    · exact h.directories r hr path hpath
    · rw [matchesFile_not_directory hmatch] at hpath
      cases hpath
  · rcases hmem r hr with hr | rfl
    · obtain ⟨dir, name, hsplit, hdir⟩ := h.home r hr path hpath
      exact ⟨dir, name, hsplit, hstay dir hdir⟩
    · obtain ⟨dir, name, hsplit, hdir⟩ := hhome
      rw [← matchesFile_inj hmatch hpath]
      exact ⟨dir, name, hsplit, hstay dir hdir⟩
  · rw [List.filter_append]
    by_cases heq : path = p
    · have hempty : R.filter (matchesLocation (fileLocation path)) = [] := by
        apply List.filter_eq_nil_iff.mpr
        intro r hr
        rw [heq, hnone r hr]
        exact Bool.false_ne_true
      rw [hempty, List.nil_append]
      exact List.length_filter_le _ _
    · have hempty : [row].filter (matchesLocation (fileLocation path)) = [] := by
        apply List.filter_eq_nil_iff.mpr
        intro r hr hpath
        rw [List.mem_singleton.mp hr] at hpath
        exact heq (matchesFile_inj hpath hmatch)
      rw [hempty, List.append_nil]
      exact h.once path
  · rcases hmem r hr with hr | rfl
    · exact h.root r hr hroot
    · exact absurd hroot hid

/-- Nothing is buffered that the cache does not know of, once it knows of the last row. -/
theorem FilesReady.all_known {objs items : Multiset Int} (h : FilesReady R objs items (some row.id) s)
    (hrow : row ∈ R) (hfile : ∀ path, matchesLocation (fileLocation path) row = true →
      ∀ c, s.cache = some c → c.HasFile row.id path) : FilesReady R objs items none s := by
  refine ⟨h.toFileBuffer, h.known, fun c hc => ⟨(h.files c hc).1, fun r hr path hpath _ => ?_⟩⟩
  by_cases heq : r.id = row.id
  · have hR : r ∈ R := h.toFileBuffer.mem_iff.mpr (Or.inr hr)
    have hsame : r = row := h.toFileBuffer.eq_of_id hR hrow heq
    rw [hsame] at hpath ⊢
    exact hfile path hpath c hc
  · exact (h.files c hc).2 r hr path hpath fun hsome => heq (Option.some.inj hsome).symm

/-- **The INSERT of an item**, at once or buffered. -/
theorem filesReady_insertObject {objs items : Multiset Int} {text : Str} (hrow : IsItemRow row)
    (h : FilesReady R (row.id ::ₘ objs) items none s) :
    ∃ s', (insertOrBuffer (.insertObject text row)).run s = (.ok (), s') ∧
      FilesReady (R ++ [row]) objs items (some row.id) s' := by
  unfold insertOrBuffer
  rw [run_read_bind]
  by_cases hon : s.insertBufferOn = true
  · rw [if_pos hon]
    have hbuffered : ∀ r ∈ (bufferedState (.insertObject text row) s).bufferedRows,
        r ∈ s.bufferedRows ∨ r = row := by
      intro r hr
      have hin : r ∈ (s.insertBuffer ++ [Statement.insertObject text row]).filterMap
        Statement.objectRow? := hr
      rw [List.filterMap_append] at hin
      rcases List.mem_append.mp hin with hin | hin
      · exact Or.inl hin
      · exact Or.inr (List.mem_singleton.mp hin)
    have hsound : SoundWith objs items (bufferedState (.insertObject text row) s) := by
      refine ⟨h.sound.keys.buffer_object, h.sound.loaded, fun r hr => ?_⟩
      rcases hbuffered r hr with hold | rfl
      · exact h.sound.items r hold
      · exact hrow
    obtain ⟨s', hrun, hflushed⟩ := hsound.keys.run_addToInsertBuffer
    refine ⟨s', hrun, FilesReady.flushed ⟨⟨hsound, h.cached, ?_, ?_, ?_⟩,
      fun c hc => (h.known c hc).more [row], ?_⟩ hflushed⟩
    · intro hoff
      exact absurd (show s.insertBufferOn = false from hoff) (by rw [hon]; exact Bool.noConfusion)
    · exact fun hempty => nomatch hempty
    · rw [bufferedState_rows]
      exact h.rows.append_right [row]
    · intro c hc
      obtain ⟨hflag, hfiles⟩ := h.files c hc
      refine ⟨hflag, fun r hr path hpath hbut => ?_⟩
      rcases hbuffered r hr with hold | rfl
      · exact hfiles r hold path hpath fun hnone => nomatch hnone
      · exact absurd rfl hbut
  · rw [if_neg hon]
    obtain ⟨s', hrun, hready⟩ := h.insert
    exact ⟨s', hrun, hready.weaken row.id⟩

theorem filesReady_addToCacheAsChild {objs items : Multiset Int} {E : StorageState → Prop}
    {obj : CdsObject} (hobj : IsObjectOf R obj) :
    Triple (FilesReady R objs items (some obj.id)) (addToCacheAsChild obj)
      (fun _ s => FilesReady R objs items (some obj.id) s ∧ HasFileOf obj s) E := by
  refine triple_bind (M := fun _ => FilesPending R objs items (some obj.id)) ?_ fun _ =>
    triple_bind filesReady_flushIfFlushed fun _ => filesReady_addObjectToCacheLocked hobj
  exact triple_conseq (filesPending_addChild _) (fun s hs => hs.pending) (fun _ _ h => h) fun _ h => h

/-- The object of a file that is new. -/
structure IsFileObject (obj : CdsObject) (path : Str) : Prop where
  new : obj.id = invalidObjectID
  item : ∃ data, obj.kind = .item data
  real : obj.virt = false
  alone : obj.refID ≤ 0
  noPlaylist : obj.getFlag objectFlagPlaylistRef = false
  location : obj.location = some path

theorem IsFileObject.pure_item {obj : CdsObject} (h : IsFileObject obj path) :
    obj.objectType = objectTypeItem := by
  obtain ⟨data, hkind⟩ := h.item
  unfold CdsObject.objectType
  rw [hkind]
  rfl

/-- The columns of a file. -/
structure AreFileColumns (cols : ObjectColumns) (path : Str) : Prop where
  objectType : cols.objectType = some objectTypeItem
  refID : cols.refID.getD none = none
  location : cols.location = some (some (fileLocation path))
  locationHash : cols.locationHash = some (some (stringHash (fileLocation path)))

theorem AreFileColumns.matches_path {cols : ObjectColumns} (h : AreFileColumns cols path)
    (id : {id : Int // cdsIdFsRoot < id}) :
    matchesLocation (fileLocation path) (cols.insertRow id) = true := by
  refine matchesFile_iff.mpr ⟨?_, ?_, h.refID⟩
  · show cols.locationHash.getD none = _
    rw [h.locationHash]
    rfl
  · show cols.location.getD none = _
    rw [h.location]
    rfl

theorem AreFileColumns.isItemRow {cols : ObjectColumns} (h : AreFileColumns cols path)
    (id : {id : Int // cdsIdFsRoot < id}) : IsItemRow (cols.insertRow id) := by
  refine ⟨?_, fun _ => ⟨some path, (matchesFile_iff.mp (h.matches_path id)).2.1⟩⟩
  show isCdsContainer (cols.objectType.getD 0) = false
  rw [h.objectType]
  decide

/-- **The row of a file is written**, and the cache is told. -/
theorem importing_insertNewObject {cols : ObjectColumns} {obj : CdsObject} (h : Importing R s)
    (hcols : AreFileColumns cols path) (hitem : ∃ data, obj.kind = .item data)
    (hreal : obj.virt = false) (hlocation : obj.location = some path)
    (hhome : ∃ dir name, splitPath path = .ok (dir, name) ∧
      (dir = [dirSeparator] ∨ ∃ d ∈ R, matchesLocation (dirLocation dir) d = true))
    (hnone : ∀ r ∈ R, matchesLocation (fileLocation path) r = false) :
    ∃ (newID : {id : Int // cdsIdFsRoot < id}) (s' : StorageState),
      (insertNewObject cols obj).run s = (.ok { obj with id := newID }, s') ∧
      Adds R [cols.insertRow newID] s s' := by
  obtain ⟨data, hkind⟩ := hitem
  have htype : obj.objectType = objectTypeItem := by
    unfold CdsObject.objectType
    rw [hkind]
    rfl
  unfold insertNewObject
  obtain ⟨newID, hnext, hready⟩ := h.ready.getNextID
  rw [run_bind_of_ok hnext]
  let row := cols.insertRow newID
  let new : CdsObject := { obj with id := newID }
  have hreserved : FilesReady R (row.id ::ₘ 0) 0 none { s with lastID := s.lastID + 1 } :=
    hready.mono (le_refl _) (Multiset.zero_le _)
  obtain ⟨s₁, hinsert, hready₁⟩ :=
    @filesReady_insertObject _ _ row 0 0 (insertText cdsObjectTable
      (cols.elements ++ [(str "id", fromInt newID)])) (hcols.isItemRow newID) hreserved
  have hactive : activeItemValues obj.kind = none := by
    rw [hkind]
    rfl
  simp only [hactive]
  have hstatement : (insertOrBuffer (insertObjectStatement cols newID)).run
      { s with lastID := s.lastID + 1 } = (.ok (), s₁) := hinsert
  rw [run_bind_of_ok hstatement]
  -- the id is no marker, so that the cache keeps the object
  have hmark : isMarkerID new.id = false := by
    have hid : cdsIdFsRoot < new.id := newID.property
    have hroot : (0 : Int) < cdsIdFsRoot := by decide
    unfold isMarkerID
    rw [Bool.or_eq_false_iff, decide_eq_false_iff_not, decide_eq_false_iff_not]
    have hinvalid : invalidObjectID < 0 ∧ invalidObjectID2 < 0 := by decide
    omega
  have hpure : isCdsPureItem new.objectType = true := by
    show isCdsPureItem obj.objectType = true
    rw [htype]
    decide
  have hmatch := hcols.matches_path newID
  have htypeRow : row.objectType = objectTypeItem := by
    show cols.objectType.getD 0 = _
    rw [hcols.objectType]
    rfl
  have hobjectOf : IsObjectOf (R ++ [row]) new :=
    ⟨row, List.mem_append_right _ (List.mem_singleton_self row), rfl, htype.trans htypeRow.symm,
      Or.inr ⟨htypeRow, path, hmatch, hlocation⟩⟩
  have hcache : Triple (FilesReady (R ++ [row]) 0 0 (some row.id))
      (cacheOn >>= fun on => if on then locked (addToCacheAsChild new) >>= fun _ =>
        (pure new : Storage CdsObject) else pure new)
      (fun o s' => o = new ∧ FilesReady (R ++ [row]) 0 0 (some row.id) s' ∧ HasFileOf new s')
      (fun _ => False) :=
    filesReady_ifCache (filesReady_addToCacheAsChild hobjectOf)
      (triple_pure fun _ h => ⟨rfl, h⟩)
      fun s hoff hready => ⟨hready, fun _ _ _ _ _ c hc => by rw [hoff] at hc; cases hc⟩
  have hkey : CacheObject.locationKey new = some (fileLocation path) := by
    unfold CacheObject.locationKey
    have hnot : isCdsContainer objectTypeItem = false ∧ isCdsItem objectTypeItem = true := by decide
    have hnew : new.objectType = objectTypeItem := htype
    have hwhere : new.location = some path := hlocation
    rw [hpure, hnew, hnot.1, hnot.2, hwhere]
    rfl
  have hkept : Keeps filing (cacheOn >>= fun on => if on then locked (addToCacheAsChild new) >>=
      fun _ => (pure new : Storage CdsObject) else pure new) :=
    keeps_ifCache (files_addToCacheAsChild hkey fun q => fileLocation_ne_dirLocation path q)
      (keeps_pure _)
  have hstored : Keeps storing (cacheOn >>= fun on => if on then locked (addToCacheAsChild new) >>=
      fun _ => (pure new : Storage CdsObject) else pure new) :=
    keeps_ifCache (keeps_bind (keeps_addChild hiddenSections_storing _) fun _ =>
      keeps_bind (keeps_flushIfFlushed hiddenSections_storing) fun _ =>
        keeps_addObjectToCacheLocked hiddenSections_storing _) (keeps_pure _)
  have hdone := hcache s₁ hready₁
  have hkept₁ := hkept s₁
  have hstored₁ := hstored s₁
  rcases hlast : (cacheOn >>= fun on => if on then locked (addToCacheAsChild new) >>= fun _ =>
      (pure new : Storage CdsObject) else pure new).run s₁ with ⟨e | o, s'⟩
  · rw [hlast] at hdone
    exact hdone.elim
  · rw [hlast] at hdone hkept₁ hstored₁
    obtain ⟨rfl, hready', hfile⟩ := hdone
    have hkept₀ := files_insertObject (insertText cdsObjectTable
      (cols.elements ++ [(str "id", fromInt newID)])) row { s with lastID := s.lastID + 1 }
    have hstored₀ := storing_insertObject (insertText cdsObjectTable
      (cols.elements ++ [(str "id", fromInt newID)])) row { s with lastID := s.lastID + 1 }
    rw [hinsert] at hkept₀ hstored₀
    have hnumbered : FilesKept s { s with lastID := s.lastID + 1 } := .of_cache_eq rfl rfl rfl
    have hfiles : FilesKept s s' := (hnumbered.trans hkept₀).trans hkept₁
    have hrows : ∀ r ∈ s.db.objects.rows, r ∈ s'.db.objects.rows :=
      fun r hr => hstored₁ r (hstored₀ r hr)
    have hnewready : FilesReady (R ++ [row]) 0 0 none s' := by
      refine hready'.all_known (List.mem_append_right _ (List.mem_singleton_self row)) ?_
      intro q hq c hc
      rw [matchesFile_inj hq hmatch]
      exact hfile hmark hpure hreal path hlocation c hc
    exact ⟨newID, s', rfl, ⟨hnewready, h.directories.kept hfiles hrows,
      h.filed.file_added hmatch htypeRow (ne_of_gt newID.property) hhome hnone⟩, hfiles, hrows⟩

/-! ## `addObject` -/

theorem IsFileObject.resolve {obj : CdsObject} (h : IsFileObject obj path) :
    resolveReference obj = pure ObjectReference.none := by
  unfold resolveReference
  rw [h.noPlaylist, h.real, if_neg Bool.false_ne_true, Bool.false_and, if_neg Bool.false_ne_true,
    if_neg (Int.not_lt.mpr h.alone)]

/-- **The place of a file**: its directory is made, if need be. -/
theorem run_placeFile {obj : CdsObject} {data : CdsItemData} {cols : ObjectColumns}
    {answer : Except Exception (Int × Int)} (hkind : obj.kind = .item data)
    (hlocation : obj.location = some (pathText (n :: ns))) (hn : FileName n)
    (hrun : (ensurePathExistence (chainPath ns)).run s = (answer, s')) :
    (placeObject false obj none cols).run s = (answer.map fun found =>
      (itemColumns false data none { cols with
        location := some (some (fileLocation (pathText (n :: ns))))
        locationHash := some (some (stringHash (fileLocation (pathText (n :: ns))))) },
        { obj with parentID := found.1 }, some found.2), s') := by
  have hsplit : splitPathOrThrow (pathText (n :: ns)) = .ok (chainPath ns, n) := by
    unfold splitPathOrThrow
    rw [splitPath_pathText hn]
  have hpure : isCdsPureItem obj.objectType = true := by
    unfold CdsObject.objectType
    rw [hkind]
    rfl
  have hitem : obj.kind.itemData? = some data := by
    rw [hkind]
    rfl
  have hplace : (placeItem false obj none cols).run s = (answer.map fun found =>
      ({ cols with
        location := some (some (fileLocation (pathText (n :: ns))))
        locationHash := some (some (stringHash (fileLocation (pathText (n :: ns))))) },
        { obj with parentID := found.1 }, some found.2), s') := by
    unfold placeItem
    simp only [hlocation]
    split
    · next hnone => cases hnone
    · next hnil => exact absurd (Option.some.inj hnil) (pathText_ne_nil n ns)
    · next loc _ hloc =>
      rw [← Option.some.inj hloc, if_pos hpure, hsplit, ofExcept_ok_bind]
      simp only
      rcases answer with e | found
      · exact run_bind_of_error hrun
      · rw [run_bind_of_ok hrun]
        rfl
  unfold placeObject
  simp only [hitem]
  rcases answer with e | found
  · exact run_bind_of_error hplace
  · rw [run_bind_of_ok hplace]
    rfl

/-- What `_addUpdateObject` does with a file. -/
theorem importing_addUpdateObject {obj : CdsObject} (h : Importing R s)
    (hobj : IsFileObject obj (pathText (n :: ns))) (hns : ∀ m ∈ n :: ns, FileName m) :
    ∃ answer s' new, (addUpdateObject_ obj false).run s = (answer, s') ∧ Adds R new s s' ∧
      (∀ r ∈ new, IsDirectoryRow r) ∧
      ∀ r, answer = .ok r → IsDirectory (R ++ new) ns r.obj.parentID ∧
        r.obj = { obj.clearFlag objectFlagUseResourceRef with parentID := r.obj.parentID } ∧
        ∃ cols, r.data = some cols ∧ AreFileColumns cols (pathText (n :: ns)) := by
  have hns' : ∀ m ∈ ns, FileName m := fun m hm => hns m (List.mem_cons_of_mem n hm)
  obtain ⟨data, hkind⟩ := hobj.item
  obtain ⟨answer, s', new, hensure, hadds, hdirs, hid⟩ := importing_ensurePathExistenceFrom
    ((chainPath ns).length + 1) ns (chainPath ns) R s h hns' (pathOf_chainPath hns')
  have hplace := @run_placeFile s s' n ns (obj.clearFlag objectFlagUseResourceRef) data
    (commonColumns false obj .none) answer hkind hobj.location (hns n List.mem_cons_self) hensure
  have hnoref : ObjectReference.none.hasReference = none := rfl
  unfold addUpdateObject_
  rw [hobj.resolve, run_pure_bind, hnoref]
  rcases answer with e | ⟨parentID, changed⟩
  · exact ⟨.error e, s', new, run_bind_of_error hplace, hadds, hdirs, fun r hr => nomatch hr⟩
  · rw [run_bind_of_ok hplace]
    have hdir := hid parentID changed rfl
    have hpos := hdir.pos hadds.importing.filed
    have hvalid : parentID ≠ invalidObjectID := by
      have hinvalid : invalidObjectID < 0 := by decide
      omega
    have hnew : selectDuplicates false { obj.clearFlag objectFlagUseResourceRef with
        parentID := parentID } none = pure [] := rfl
    simp only [hnew]
    rw [run_pure_bind, if_neg (not_not_intro rfl), if_neg hvalid]
    refine ⟨_, s', new, rfl, hadds, hdirs, fun r hr => ?_⟩
    cases hr
    refine ⟨hdir, rfl, _, rfl, ?_⟩
    constructor
    · show some obj.objectType = _
      rw [hobj.pure_item]
    · rfl
    · rfl
    · rfl

/-- **`addObject` of a file** that is not stored yet: however the call ends, what there was is still
    there, and rows of directories came.  If it returned, the row of the file came too. -/
theorem importing_addObject {obj : CdsObject} (h : Importing R s)
    (hobj : IsFileObject obj (pathText (n :: ns))) (hns : ∀ m ∈ n :: ns, FileName m)
    (hnone : ∀ r ∈ R, matchesLocation (fileLocation (pathText (n :: ns))) r = false) :
    ∃ answer s' new, (addObject obj).run s = (answer, s') ∧ Adds R new s s' ∧
      (∀ r ∈ new, IsDirectoryRow r ∨
        matchesLocation (fileLocation (pathText (n :: ns))) r = true) ∧
      ∀ o changed, answer = .ok (o, changed) → IsDirectory (R ++ new) ns o.parentID ∧
        o.objectType = objectTypeItem ∧
        ∃ r ∈ new, matchesLocation (fileLocation (pathText (n :: ns))) r = true := by
  have hn := hns n List.mem_cons_self
  obtain ⟨answer, s₁, new, hupdate, hadds, hdirs, hr⟩ := importing_addUpdateObject h hobj hns
  unfold addObject
  rw [if_neg (not_not_intro hobj.new)]
  rcases answer with e | r
  · exact ⟨.error e, s₁, new, run_bind_of_error hupdate, hadds, fun r hr => .inl (hdirs r hr),
      fun o changed ho => nomatch ho⟩
  · obtain ⟨hdir, hsame, cols, hdata, hcols⟩ := hr r rfl
    rw [run_bind_of_ok hupdate]
    simp only [hdata]
    have hkind : ∃ data, r.obj.kind = .item data := by
      rw [hsame]
      exact hobj.item
    have hreal : r.obj.virt = false := by
      rw [hsame]
      exact hobj.real
    have hlocation : r.obj.location = some (pathText (n :: ns)) := by
      rw [hsame]
      exact hobj.location
    have htype : r.obj.objectType = objectTypeItem := by
      rw [hsame]
      exact hobj.pure_item
    have hhome : ∃ dir name, splitPath (pathText (n :: ns)) = .ok (dir, name) ∧
        (dir = [dirSeparator] ∨
          ∃ d ∈ R ++ new, matchesLocation (dirLocation dir) d = true) := by
      refine ⟨chainPath ns, n, splitPath_pathText hn, ?_⟩
      rcases ns with _ | ⟨m, ns⟩
      · exact Or.inl rfl
      · obtain ⟨d, hd, hmatch, -⟩ := isDirectory_cons.mp hdir
        exact Or.inr ⟨d, hd, hmatch⟩
    have hnone' : ∀ r ∈ R ++ new, matchesLocation (fileLocation (pathText (n :: ns))) r = false := by
      intro r hr
      rcases List.mem_append.mp hr with hr | hr
      · exact hnone r hr
      · exact (hdirs r hr).not_file
    obtain ⟨newID, s', hinsert, hadds'⟩ :=
      importing_insertNewObject hadds.importing hcols hkind hreal hlocation hhome hnone'
    rw [run_bind_of_ok hinsert]
    refine ⟨_, s', _, rfl, hadds.trans hadds', fun row hrow => ?_, fun o changed ho => ?_⟩
    · rcases List.mem_append.mp hrow with hrow | hrow
      · exact Or.inl (hdirs row hrow)
      · rw [List.mem_singleton.mp hrow]
        exact Or.inr (hcols.matches_path newID)
    · cases ho
      refine ⟨?_, htype, _, List.mem_append_right _ (List.mem_singleton_self _),
        hcols.matches_path newID⟩
      rw [← List.append_assoc]
      exact hdir.more _

/-! ## Calls that add nothing -/

theorem Adds.trans_nothing {s'' : StorageState} (h : Adds R [] s s') (h' : Adds R [] s' s'') :
    Adds R [] s s'' :=
  ⟨h'.importing, h.kept.trans h'.kept, fun r hr => h'.stored r (h.stored r hr)⟩

/-- Nothing that is filed changes, and the buffer is in order. -/
theorem Adds.of_ready (h : Importing R s) (hready : FilesReady R 0 0 none s')
    (hkept : FilesKept s s') (hstored : ∀ r ∈ s.db.objects.rows, r ∈ s'.db.objects.rows) :
    Adds R [] s s' := by
  refine ⟨?_, hkept, hstored⟩
  rw [List.append_nil]
  exact ⟨hready, h.directories.kept hkept hstored, h.filed⟩

theorem importing_flushInsertBuffer (h : Importing R s) :
    ∃ s', flushInsertBuffer.run s = (.ok (), s') ∧ Adds R [] s s' := by
  obtain ⟨s', hrun, hflushed⟩ := h.ready.sound.keys.run_flush
  have hkept := files_flush s
  have hstored := hiddenSections_storing.flush s
  rw [hrun] at hkept hstored
  exact ⟨s', hrun, .of_ready h (h.ready.flushed hflushed) hkept hstored⟩

theorem importing_publishNumChildren (h : Importing R s) (contId childCount : Int) :
    ∃ s', (locked (publishNumChildren contId childCount)).run s = (.ok (), s') ∧
      Adds R [] s s' := by
  have hready : Triple (FilesReady R 0 0 none) (publishNumChildren contId childCount)
      (fun _ => FilesReady R 0 0 none) (fun _ => False) := by
    refine triple_bind (M := fun _ => FilesPending R 0 0 none) ?_ fun _ =>
      filesReady_flushIfFlushed
    refine triple_conseq (filesPending_modifyCache fun c => ?_) (fun s hs => hs.pending)
      (fun _ _ h => h) fun _ h => h
    exact (StorageCache.tells_getObjectDefinitely contId).trans
      (StorageCache.tells_modifyObject (fun _ => rfl) fun _ => rfl)
  have hkept : Keeps filing (publishNumChildren contId childCount) :=
    keeps_bind (files_modifyCache fun c => (Files.getObjectDefinitely c contId).trans
      (Files.modifyObject _ fun _ => rfl)) fun _ => files_flushIfFlushed
  have hstored : Keeps storing (publishNumChildren contId childCount) :=
    keeps_bind (keeps_modifyCache hiddenSections_storing _) fun _ =>
      keeps_flushIfFlushed hiddenSections_storing
  have hdone := triple_locked hready s h.ready
  have hkept' := keeps_locked hkept s
  have hstored' := keeps_locked hstored s
  rcases hrun : (locked (publishNumChildren contId childCount)).run s with ⟨e | ⟨⟩, s'⟩
  · rw [hrun] at hdone
    exact hdone.elim
  · rw [hrun] at hdone hkept' hstored'
    exact ⟨s', rfl, .of_ready h hdone hkept' hstored'⟩

/-- **`getChildCount`** of all children. -/
theorem importing_getChildCount (h : Importing R s) (contId : Int) :
    ∃ childCount s', (getChildCount contId true true false).run s = (.ok childCount, s') ∧
      Adds R [] s s' := by
  have hcached : isCachedCount contId true true false = true := by
    unfold isCachedCount
    rw [Bool.and_false]
    rfl
  unfold getChildCount
  rw [if_neg (by decide), hcached]
  simp only [if_true]
  rw [run_read_bind]
  rcases cachedNumChildren s contId with _ | n
  · simp only
    obtain ⟨s₁, hflush, hadds⟩ := importing_flushInsertBuffer h
    rw [run_bind_of_ok hflush]
    have himporting : Importing R s₁ := by
      have himporting := hadds.importing
      rwa [List.append_nil] at himporting
    unfold select cacheOn
    rw [run_read_bind, run_read_bind]
    by_cases hon : s₁.cache.isSome = true
    · rw [if_pos hon]
      obtain ⟨s', hpublish, hadds'⟩ := importing_publishNumChildren himporting contId
        (s₁.db.selectObjects (isCountedChild contId true true false)).length
      rw [run_bind_of_ok hpublish]
      exact ⟨_, s', rfl, hadds.trans_nothing hadds'⟩
    · rw [if_neg hon]
      exact ⟨_, s₁, rfl, hadds⟩
  · exact ⟨n, s, rfl, .refl h⟩

/-- The row of a directory is that of a container. -/
theorem Importing.isFiled_directory (h : Importing R s) {id : Int} (hid : IsDirectory R ns id)
    (hr : r ∈ R) (hrow : r.id = id) : IsFiled r := by
  refine Or.inl ?_
  rcases ns with _ | ⟨n, ns⟩
  · exact h.filed.root r hr (hrow.trans (isDirectory_nil.mp hid))
  · obtain ⟨d, hd, hmatch, hdid⟩ := isDirectory_cons.mp hid
    rw [h.ready.toFileBuffer.eq_of_id hr hd (hrow.trans hdid.symm)]
    exact (h.filed.directories d hd _ hmatch).1

/-- **`loadObject`** of a directory. -/
theorem importing_loadObject (h : Importing R s) {id : Int} (hid : IsDirectory R ns id) :
    ∃ answer s', (loadObject id).run s = (answer, s') ∧ Adds R [] s s' := by
  unfold loadObject
  rw [run_read_bind]
  rcases cachedObject s id with _ | obj
  · simp only
    unfold select Database.sqlQuery
    rw [run_read_bind]
    simp only
    rcases hrows : s.db.selectObjects (fun f => f.id = id) with _ | ⟨row, rows⟩
    · exact ⟨.error (objectNotFound id), s, rfl, .refl h⟩
    · have hin : row ∈ s.db.selectObjects (fun f => f.id = id) := by
        rw [hrows]
        exact List.mem_cons_self
      obtain ⟨hdb, hrow⟩ := List.mem_filter.mp hin
      have hR : row ∈ R := h.ready.toFileBuffer.mem_iff.mpr (Or.inl hdb)
      obtain ⟨s', hstate, himporting, hset, hkept, -⟩ := importing_createObjectFromRow h hdb
        (h.isFiled_directory hid hR (of_decide_eq_true hrow))
      refine ⟨((createObjectFromRow (s.db.join row)).run s).1, s', ?_, .nothing himporting hkept hset⟩
      rw [← hstate]
      rfl
  · exact ⟨_, s, rfl, .refl h⟩

end

end MediaTomb
