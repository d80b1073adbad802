/-
  The directory of an autoscan: which object it is, and which calls find it.

  DATA     `storedAt`, the object stored at the path of a directory.
  PROGRAM  `findObjectIDByPath`, and the two calls that write an autoscan, where they return.
  RESULT   the lookup gives that object, whatever the cache holds (`findDirectoryID_ok`), and no
           object is stored elsewhere afterwards (`DirectoriesReady`, `SameDirectories`).
-/
import MediaTomb.Storage.AutoscanFlag
import MediaTomb.Storage.PathExistence

namespace MediaTomb

open Lib.Prog

/-! ## The path that is looked for -/

theorem getLast?_reduce (ch : UInt8) : ∀ s : Str, (reduce ch s).getLast? = s.getLast?
  | [] => rfl
  | [_] => rfl
  | c :: d :: r => by
    have ih := getLast?_reduce ch (d :: r)
    have hne : reduce ch (d :: r) ≠ [] := by
      intro hnil
      have hhead := head?_reduce ch (d :: r)
      rw [hnil] at hhead
      cases hhead
    rw [reduce]
    split
    · rw [ih, List.getLast?_cons_cons]
    · obtain ⟨e, t, ht⟩ := List.exists_cons_of_ne_nil hne
      rw [ht] at ih ⊢
      rw [List.getLast?_cons_cons, List.getLast?_cons_cons, ih]

/-- The path a location with a separator behind it is stored under. -/
def directoryPath (location : Str) : Str :=
  let path := reduce dirSeparator (location ++ [dirSeparator])
  if path = [dirSeparator] then [dirSeparator] else path.dropLast

theorem pathLocation_directoryPath (location : Str) :
    pathLocation (location ++ [dirSeparator]) = .ok (dirLocation (directoryPath location)) := by
  have hlast : (reduce dirSeparator (location ++ [dirSeparator])).getLast? = some dirSeparator := by
    rw [getLast?_reduce]
    exact List.getLast?_concat
  obtain ⟨pre, hpre⟩ := List.getLast?_eq_some_iff.mp hlast
  have hsplit : splitPathOrThrow (reduce dirSeparator (location ++ [dirSeparator])) =
      .ok (directoryPath location, []) := by
    unfold splitPathOrThrow directoryPath
    simp only
    rw [hpre]
    rcases pre with _ | ⟨c, pre⟩
    · rfl
    · have hlong : c :: pre ++ [dirSeparator] ≠ [dirSeparator] := by
        intro h
        have hlength := congrArg List.length h
        rw [List.length_append, List.length_cons, List.length_singleton] at hlength
        omega
      rw [splitPath_at List.not_mem_nil (List.cons_ne_nil c pre), if_neg hlong,
        List.dropLast_concat]
  unfold pathLocation
  simp only
  rw [hsplit]
  rfl

/-! ## What is stored there -/

/-- The object stored at the path of a directory. -/
def storedAt (db : Database) (location : Str) : Option Int :=
  (db.dirsAt (directoryPath location)).head?.map ObjectRow.id

/-- The same objects are stored at the paths of directories. -/
def SameDirectories (db db' : Database) : Prop :=
  ∀ path, (db'.dirsAt path).map ObjectRow.shape = (db.dirsAt path).map ObjectRow.shape

/-- **The directories can be looked up**: the cache agrees with the table, what is buffered are
    items, and at the path of a directory there is one container at most. -/
structure DirectoriesReady (s : StorageState) : Prop where
  items : ItemsBuffered s
  filed : DirectoriesFiled s
  container : ∀ path, ∀ row ∈ s.db.dirsAt path, isCdsContainer row.objectType = true
  single : ∀ path, ∀ row ∈ s.db.dirsAt path, ∀ row' ∈ s.db.dirsAt path, row.id = row'.id

section

variable {db db' db'' : Database} {s s' : StorageState} {location : Str} {id : Int}

theorem SameDirectories.storedAt_eq (h : SameDirectories db db') (location : Str) :
    storedAt db' location = storedAt db location := by
  have hids : ∀ rows : List ObjectRow,
      rows.head?.map ObjectRow.id = (rows.map ObjectRow.shape).head?.map ObjectRow.id := by
    intro rows
    rcases rows with _ | ⟨row, rows⟩
    · rfl
    · rfl
  unfold storedAt
  rw [hids, h, ← hids]

theorem SameDirectories.trans (h : SameDirectories db db') (h' : SameDirectories db' db'') :
    SameDirectories db db'' := fun path => (h' path).trans (h path)

/-- A row that is stored there now was stored there before. -/
theorem SameDirectories.row (h : SameDirectories db db') {path : Str} {row : ObjectRow}
    (hrow : row ∈ db'.dirsAt path) : ∃ row₀ ∈ db.dirsAt path, row₀.shape = row.shape := by
  have hshape : row.shape ∈ (db'.dirsAt path).map ObjectRow.shape := List.mem_map_of_mem hrow
  rw [h path] at hshape
  exact List.mem_map.mp hshape

/-- Flags and update ids do not say where a directory is stored. -/
theorem SameObjects.directories (h : SameObjects db db') : SameDirectories db db' := by
  intro path
  have hshape : ∀ d : Database, (d.dirsAt path).map ObjectRow.shape =
      (d.objects.rows.map ObjectRow.shape).filter (matchesLocation (dirLocation path)) := by
    intro d
    rw [List.filter_map]
    rfl
  rw [hshape, hshape, h.objects]

theorem SameDirectories.ready (h : SameDirectories s.db s'.db) (hready : DirectoriesReady s)
    (hitems : ItemsBuffered s') (hfiled : DirectoriesFiled s') : DirectoriesReady s' := by
  refine ⟨hitems, hfiled, fun path row hrow => ?_, fun path row hrow row' hrow' => ?_⟩
  · obtain ⟨row₀, hrow₀, hshape⟩ := h.row hrow
    have htype := congrArg ObjectRow.objectType hshape
    have hsame : row₀.objectType = row.objectType := htype
    rw [← hsame]
    exact hready.container path row₀ hrow₀
  · obtain ⟨row₀, hrow₀, hshape⟩ := h.row hrow
    obtain ⟨row₀', hrow₀', hshape'⟩ := h.row hrow'
    rw [← ObjectRow.id_of_shape hshape, ← ObjectRow.id_of_shape hshape']
    exact hready.single path row₀ hrow₀ row₀' hrow₀'

/-- Asking leaves the directories where they are. -/
theorem DirectoriesReady.settles (h : DirectoriesReady s) (hset : Settles s s')
    (hkept : FilesKept s s') : DirectoriesReady s' ∧ SameDirectories s.db s'.db := by
  have hsame : SameDirectories s.db s'.db := fun path => by rw [dirsAt_of_settles hset h.items]
  obtain ⟨moved, hrows, -⟩ := hset.objects
  refine ⟨hsame.ready h (fun r hr => h.items r (hset.buffered r hr))
    (h.filed.kept hkept fun r hr => ?_), hsame⟩
  rw [hrows]
  exact List.mem_append_left moved hr

/-- So does a statement that sets flags or writes autoscans. -/
theorem DirectoriesReady.sameObjects (h : DirectoriesReady s) (hsame : SameObjects s.db db) :
    DirectoriesReady { s with db := db } := by
  have hdirs : SameDirectories s.db ({ s with db := db } : StorageState).db := hsame.directories
  refine hdirs.ready h h.items ⟨h.filed.ids, fun path id hid => ?_⟩
  obtain ⟨row, hrow, hrowID⟩ := h.filed.filed path id hid
  have hback : SameDirectories db s.db := fun p => (hdirs p).symm
  obtain ⟨row', hrow', hshape⟩ := hback.row hrow
  exact ⟨row', hrow', (ObjectRow.id_of_shape hshape).trans hrowID⟩

/-! ## The lookup -/

/-- Reading a container from its row files it nowhere else. -/
theorem files_createObjectFromRow {row : ObjectRow} {obj : CdsObject}
    (hcontainer : isCdsContainer row.objectType = true)
    (hrun : (createObjectFromRow (s.db.join row)).run s = (.ok obj, s')) : FilesKept s s' := by
  obtain ⟨o, -, htype, hread⟩ := (readable_of_run hrun).1.run
  rw [hread] at hrun
  obtain ⟨⟨⟩, s₁, hadd, hret⟩ := bind_ok hrun
  cases hret
  have hkeeps := files_addObjectToCache (htype hcontainer) s
  rwa [hadd] at hkeeps

/-- **A lookup that returns gives what is stored there.** -/
theorem findDirectoryID_ok (h : DirectoriesReady s)
    (hrun : (findObjectIDByPath (location ++ [dirSeparator])).run s = (.ok id, s')) :
    id = (storedAt s.db location).getD invalidObjectID ∧ FilesKept s s' := by
  unfold findObjectIDByPath at hrun
  obtain ⟨found, s₁, hfind, hid⟩ := bind_ok hrun
  unfold findObjectByPath at hfind
  rw [pathLocation_directoryPath, ofExcept_ok_bind, run_read_bind] at hfind
  unfold storedAt
  rcases hcached : cachedObjectAt s (dirLocation (directoryPath location)) with _ | obj
  · rw [hcached] at hfind
    simp only at hfind
    rw [select, run_read_bind] at hfind
    rcases hrows : s.db.dirsAt (directoryPath location) with _ | ⟨row, rows⟩
    · have hquery : s.db.sqlQuery (matchesLocation (dirLocation (directoryPath location))) = [] :=
        congrArg (List.map s.db.join) hrows
      rw [hquery] at hfind
      cases hfind
      cases hid
      exact ⟨rfl, .refl s⟩
    · have hquery : s.db.sqlQuery (matchesLocation (dirLocation (directoryPath location))) =
          s.db.join row :: rows.map s.db.join := congrArg (List.map s.db.join) hrows
      rw [hquery] at hfind
      obtain ⟨obj, s₂, hread, hret⟩ := bind_ok hfind
      cases hret
      cases hid
      have hmem : row ∈ s.db.dirsAt (directoryPath location) := by
        rw [hrows]
        exact List.mem_cons_self
      exact ⟨(readable_of_run hread).2,
        files_createObjectFromRow (h.container _ row hmem) hread⟩
  · rw [hcached] at hfind
    cases hfind
    cases hid
    -- what the cache has filed is stored there, and nothing else is
    obtain ⟨row, hrow, hrowID⟩ := h.filed.cached hcached
    obtain ⟨row', rows, hrows⟩ := List.exists_cons_of_ne_nil (List.ne_nil_of_mem hrow)
    have hmem : row' ∈ s.db.dirsAt (directoryPath location) := by
      rw [hrows]
      exact List.mem_cons_self
    refine ⟨?_, .refl s⟩
    rw [hrows, ← hrowID]
    exact h.single _ row hrow row' hmem

/-- No object has the id of no object. -/
theorem storedAt_ne_invalid : storedAt db location ≠ some invalidObjectID := by
  intro h
  obtain ⟨row, -, hid⟩ := Option.map_eq_some_iff.mp h
  have hge := row.id_ge
  rw [hid] at hge
  exact absurd hge (by decide)

/-! ## The check for overlapping autoscans -/

theorem files_getPathIDs {res : Option (List Int)} (h : (getPathIDs id).run s = (.ok res, s')) :
    FilesKept s s' := by
  obtain ⟨⟨⟩, s₁, hflush, h⟩ := bind_ok h
  have hkeeps := files_flush s
  rw [hflush] at hkeeps
  split at h
  · cases h
    exact hkeeps
  · simp only [select, run_read_bind] at h
    obtain ⟨ids, s₂, hids, hret⟩ := bind_ok h
    obtain ⟨rfl, -⟩ := pathIDsFrom_ok _ _ _ _ _ hids
    cases hret
    exact hkeeps

/-- A check that passes files nothing. -/
theorem files_checkOverlapping {adir : AutoscanDirectory} {res : Option (List Int)}
    (h : (checkOverlappingAutoscans_ adir).run s = (.ok res, s')) : FilesKept s s' := by
  unfold checkOverlappingAutoscans_ at h
  simp only at h
  split at h
  · cases h
    exact .refl s
  · simp only [select, run_read_bind] at h
    split at h
    · exact absurd h throwOverlap_not_ok
    · obtain ⟨found, s₁, hpath, h⟩ := bind_ok (checkBelow_ok h).1
      have hkeeps := files_getPathIDs hpath
      rcases found with _ | ids
      · cases h
      · simp only [select, run_read_bind] at h
        split at h
        · cases h
          exact hkeeps
        · exact absurd h throwOverlap_not_ok

theorem DirectoriesReady.check (h : DirectoriesReady s) {adir : AutoscanDirectory}
    {res : Option (List Int)} (hcheck : (checkOverlappingAutoscans_ adir).run s = (.ok res, s')) :
    DirectoriesReady s' ∧ SameDirectories s.db s'.db :=
  h.settles (checkOverlapping_ok hcheck).1 (files_checkOverlapping hcheck)

/-- The lookup leaves the directories where they are. -/
theorem DirectoriesReady.lookup (h : DirectoriesReady s)
    (hrun : (findObjectIDByPath (location ++ [dirSeparator])).run s = (.ok id, s')) :
    DirectoriesReady s' ∧ SameDirectories s.db s'.db :=
  h.settles (.of_run (holds_findObjectIDByPath querySections_settling _) hrun)
    (findDirectoryID_ok h hrun).2

/-! ## The two calls that write -/

variable {ad : AutoscanDirectory}

/-- **`updateAutoscanDirectory`**, where it returns. -/
theorem DirectoriesReady.update (h : DirectoriesReady s)
    (hrun : (updateAutoscanDirectory ad).run s = (.ok (), s')) :
    (DirectoriesReady s' ∧ SameDirectories s.db s'.db) ∧ ∃ pathIds,
      s'.db.autoscans.rows = s.db.autoscans.rows.map fun a =>
        if a.id = ad.storageID then updatedAutoscan ad pathIds a else a := by
  obtain ⟨pathIds, s₁, db, hcheck, hupd, rfl⟩ := updateAutoscanDirectory_ok hrun
  obtain ⟨h₁, hsame₁⟩ := h.check hcheck
  have hflag : SameObjects s₁.db db := by
    have hmove := sameObjects_movePersistentFlag ad s₁.db
    have hwrite := sameObjects_updateAutoscans hupd
    exact ⟨hwrite.objects.trans hmove.objects, hwrite.activeItems.trans hmove.activeItems⟩
  refine ⟨⟨h₁.sameObjects hflag, hsame₁.trans hflag.directories⟩, pathIds, ?_⟩
  have hrows := (Database.updateAutoscans?_eq_some hupd).1
  rw [movePersistentFlag_autoscans, (checkOverlapping_ok hcheck).1.autoscans] at hrows
  exact hrows

/-- The object of the directory at a location, as `addAutoscanDirectory` looks it up. -/
def directoryAt (db : Database) (location : Str) : Option Int :=
  if location = [dirSeparator] then some cdsIdFsRoot else storedAt db location

theorem locationObjectID_ok (h : DirectoriesReady s)
    (hrun : (locationObjectID ad).run s = (.ok id, s')) :
    id = (directoryAt s.db ad.location).getD invalidObjectID ∧ DirectoriesReady s' ∧
      SameDirectories s.db s'.db ∧ s'.db.autoscans = s.db.autoscans := by
  have hset := Settles.of_run (holds_locationObjectID querySections_settling ad) hrun
  unfold locationObjectID at hrun
  unfold directoryAt
  split at hrun
  · next hroot =>
    cases hrun
    rw [if_pos hroot]
    exact ⟨rfl, h, fun _ => rfl, rfl⟩
  · next hroot =>
    rw [if_neg hroot]
    obtain ⟨h', hsame⟩ := h.lookup hrun
    exact ⟨(findDirectoryID_ok h hrun).1, h', hsame, hset.autoscans⟩

/-- **`addAutoscanDirectory`**, where it returns. -/
theorem DirectoriesReady.add (h : DirectoriesReady s)
    (hrun : (addAutoscanDirectory ad).run s = (.ok id, s')) :
    (DirectoriesReady s' ∧ SameDirectories s.db s'.db) ∧ ∃ pathIds storageID,
      s'.db.autoscans.rows = s.db.autoscans.rows ++
        [newAutoscan ad ((directoryAt s.db ad.location).getD invalidObjectID) pathIds storageID] := by
  unfold addAutoscanDirectory at hrun
  split at hrun
  · cases hrun
  obtain ⟨objectID, s₁, hloc, hrun⟩ := bind_ok hrun
  obtain ⟨rfl, h₁, hsame₁, haut₁⟩ := locationObjectID_ok h hloc
  split at hrun
  · cases hrun
  obtain ⟨pathIds, s₂, hcheck, hrun⟩ := bind_ok hrun
  obtain ⟨h₂, hsame₂⟩ := h₁.check hcheck
  have haut₂ := (checkOverlapping_ok hcheck).1.autoscans
  simp only [autoscanChangePersistentFlag_, exec, run_modify_bind, execInsertAutoscan, run_locked,
    run_get_bind] at hrun
  split at hrun
  · next db hins =>
    rw [run_modify_bind, run_pure] at hrun
    cases hrun
    have hflag : SameObjects s₂.db db := by
      have hset := sameObjects_changePersistentFlag s₂.db
        ((directoryAt s.db ad.location).getD invalidObjectID) true
      have hwrite := sameObjects_insertAutoscan hins
      exact ⟨hwrite.objects.trans hset.objects, hwrite.activeItems.trans hset.activeItems⟩
    have hdirs : SameDirectories s.db db := (hsame₁.trans hsame₂).trans hflag.directories
    have hrows := (Database.insertAutoscan?_eq_some hins).1
    have hbefore : (s₂.db.changePersistentFlag
        ((directoryAt s.db ad.location).getD invalidObjectID) true).autoscans =
          s.db.autoscans := haut₂.trans haut₁
    rw [hbefore] at hrows
    exact ⟨⟨h₂.sameObjects hflag, hdirs⟩, pathIds, _, hrows⟩
  · cases hrun

end

end MediaTomb
