/-
  `ensurePathExistence`: the directories of a path.

  The call looks for the directory by its whole path, in the cache and then in the table, and goes to
  the parent only where there is none; what is missing is made from there on downwards.  It leaves the
  directories of the path, each one once and below the one before it, EXACTLY if

    * the directories that are there already are such a chain (`Rooted`): the code finds the deepest
      one and believes what is above it;
    * a directory that is not in the cache can be read from its row.

  The cache may know anything else: it is only asked that what it has filed under the location of a
  directory is a directory stored there (`DirectoriesFiled`).
-/
import MediaTomb.Storage.DirectoryLookup

namespace MediaTomb

open Lib.Prog

/-! ## Directories -/

/-- **The directories of a path**, the last name first: one for each name, and no second one, below
    the one before it.  They end at `id`. -/
def HasDirs (db : Database) : List Str → Int → Prop
  | [], id => id = cdsIdFsRoot
  | n :: ns, id => ∃ row, db.dirsAt (pathText (n :: ns)) = [row] ∧ row.id = id ∧
      isCdsContainer row.objectType = true ∧ HasDirs db ns row.parentID

/-- The deepest directory that is there. -/
def deepestDir (db : Database) : List Str → Int
  | [] => cdsIdFsRoot
  | n :: ns => match db.dirsAt (pathText (n :: ns)) with
    | row :: _ => row.id
    | [] => deepestDir db ns

/-- The container that gets a new child; none when all are there. -/
def changedDir (db : Database) : List Str → Int
  | [] => invalidObjectID
  | n :: ns => if db.dirsAt (pathText (n :: ns)) = [] then deepestDir db ns else invalidObjectID

/-- **What the table has to be like**: the directories that are there are those of their path, and a
    directory that the cache does not know can be read. -/
def Rooted (s : StorageState) : List Str → Prop
  | [] => True
  | n :: ns =>
    if s.db.dirsAt (pathText (n :: ns)) = [] then Rooted s ns
    else (∃ id, HasDirs s.db (n :: ns) id) ∧
      (cachedObjectAt s (dirLocation (pathText (n :: ns))) = none →
        ∀ row ∈ s.db.dirsAt (pathText (n :: ns)), ReadableRow s.db row)

/-- A row of a directory that the call makes: it is one of the path, with its name for a title. -/
def MadeOf (ns : List Str) (row : ObjectRow) : Prop :=
  ∃ n ms, (n :: ms) <:+ ns ∧ matchesLocation (dirLocation (pathText (n :: ms))) row = true ∧
    isCdsContainer row.objectType = true ∧ row.dcTitle = some n

/-- **What `ensurePathExistence` is to leave**: the directories of the path, no row but theirs, the
    container that changed, and a call that can be repeated. -/
structure DirectoriesEnsured (path : Str) (s : StorageState) (id changed : Int)
    (s' : StorageState) : Prop where
  directories : HasDirs s'.db (pathNames path).reverse id
  added : ∀ r ∈ s'.rows, r ∈ s.rows ∨ MadeOf (pathNames path).reverse r
  changed : changed = changedDir s.db (pathNames path).reverse
  again : ∃ s'', (ensurePathExistence path).run s' = (.ok (id, invalidObjectID), s'') ∧
    ∀ r ∈ s''.rows, r ∈ s'.rows

/-! ## Directories that are made -/

section

variable {db db' : Database} {s s' s₁ : StorageState} {n path : Str} {ns : List Str} {id : Int}
  {created : List ObjectRow} {r : ObjectRow}

theorem matchesDirectory_iff {r : ObjectRow} : matchesLocation (dirLocation path) r = true ↔
    r.locationHash = some (stringHash (dirLocation path)) ∧ r.location = some (dirLocation path) ∧
      r.refID = none := by
  unfold matchesLocation
  rw [Bool.and_eq_true, Bool.and_eq_true, decide_eq_true_eq, decide_eq_true_eq, decide_eq_true_eq,
    and_assoc]

theorem matchesDirectory_inj {p q : Str} (hp : matchesLocation (dirLocation p) r = true)
    (hq : matchesLocation (dirLocation q) r = true) : p = q := by
  have hlocs := (matchesDirectory_iff.mp hp).2.1.symm.trans (matchesDirectory_iff.mp hq).2.1
  exact (List.cons.inj (Option.some.inj hlocs)).2

/-- The row of a new directory is stored at its path. -/
theorem matchesDirectory_containerRow {newID : {id : Int // cdsIdFsRoot < id}} {parentID : Int}
    {name : Str} : matchesLocation (dirLocation path)
      (containerRow newID parentID name path false none invalidObjectID) = true :=
  matchesDirectory_iff.mpr ⟨rfl, rfl, rfl⟩

/-- The row of an item is stored at the path of no directory. -/
theorem IsItemRow.not_matchesDirectory (h : IsItemRow r) (path : Str) :
    matchesLocation (dirLocation path) r = false := by
  rcases hmatch : matchesLocation (dirLocation path) r with _ | _
  · rfl
  · obtain ⟨hhash, hloc, -⟩ := matchesDirectory_iff.mp hmatch
    obtain ⟨file, hfile⟩ := h.file (by rw [hhash]; exact Option.some_ne_none _)
    rw [hloc] at hfile
    have hhead := (List.cons.inj (Option.some.inj hfile)).1
    exact absurd hhead (by decide)

theorem dirsAt_of_creates (h : Creates created s s') (hs : ItemsBuffered s) (path : Str) :
    s'.db.dirsAt path =
      s.db.dirsAt path ++ created.filter (matchesLocation (dirLocation path)) :=
  h.select _ fun r hr => (hs r hr).not_matchesDirectory path

theorem dirsAt_of_settles (h : Settles s s') (hs : ItemsBuffered s) (path : Str) :
    s'.db.dirsAt path = s.db.dirsAt path := by
  rw [dirsAt_of_creates (.of_settles h) hs, List.filter_nil, List.append_nil]

/-- The directories of a path are seen in the rows at it and above it alone. -/
theorem hasDirs_congr (ns : List Str) : ∀ id : Int,
    (∀ q : Str, q.length ≤ (pathText ns).length → db'.dirsAt q = db.dirsAt q) →
      (HasDirs db' ns id ↔ HasDirs db ns id) := by
  induction ns with
  | nil =>
    intro id _
    exact Iff.rfl
  | cons n ns ih =>
    intro id h
    have hshort : (pathText ns).length ≤ (pathText (n :: ns)).length := by
      rw [pathText, List.length_append]
      exact Nat.le_add_right _ _
    have hrest : ∀ i, HasDirs db' ns i ↔ HasDirs db ns i :=
      fun i => ih i fun q hq => h q (Nat.le_trans hq hshort)
    unfold HasDirs
    rw [h _ (Nat.le_refl _)]
    simp only [hrest]

theorem pathText_length_lt (n : Str) (ns : List Str) :
    (pathText ns).length < (pathText (n :: ns)).length := by
  rw [pathText, List.length_append, List.length_cons]
  omega

/-- What is made for a path is no longer than it. -/
theorem MadeOf.length_le (h : MadeOf ns r) :
    ∃ q : Str, q.length ≤ (pathText ns).length ∧ matchesLocation (dirLocation q) r = true := by
  obtain ⟨m, ms, ⟨pre, rfl⟩, hmatch, -⟩ := h
  refine ⟨_, ?_, hmatch⟩
  clear hmatch
  induction pre with
  | nil => exact Nat.le_refl _
  | cons p pre ih => exact Nat.le_trans ih (Nat.le_of_lt (pathText_length_lt p _))

theorem MadeOf.cons (h : MadeOf ns r) : MadeOf (n :: ns) r := by
  obtain ⟨m, ms, hsuffix, hrest⟩ := h
  exact ⟨m, ms, hsuffix.trans (List.suffix_cons n ns), hrest⟩

/-- Nothing that is made for the parent lies at the path itself. -/
theorem filter_madeOf (h : ∀ r ∈ created, MadeOf ns r) :
    created.filter (matchesLocation (dirLocation (pathText (n :: ns)))) = [] := by
  apply List.filter_eq_nil_iff.mpr
  intro r hr hmatch
  obtain ⟨q, hq, hmatch'⟩ := (h r hr).length_le
  rw [matchesDirectory_inj hmatch' hmatch] at hq
  have hlt := pathText_length_lt n ns
  omega

/-- Above a directory that is made nothing changes. -/
theorem hasDirs_above {newID : {id : Int // cdsIdFsRoot < id}} {parentID : Int} {name : Str}
    (hs : ItemsBuffered s) (hnew : Creates [containerRow newID parentID name (pathText (n :: ns))
      false none invalidObjectID] s s') : HasDirs s'.db ns id ↔ HasDirs s.db ns id := by
  apply hasDirs_congr
  intro q hq
  rw [dirsAt_of_creates hnew hs, List.filter_cons, if_neg]
  · exact List.append_nil _
  · intro hmatch
    rw [matchesDirectory_inj hmatch matchesDirectory_containerRow] at hq
    have hlt := pathText_length_lt n ns
    omega

/-- **A directory that is made** is the only one at its path, and nothing above it changes. -/
theorem dirsAt_made {newID : {id : Int // cdsIdFsRoot < id}} {parentID : Int} {name : Str}
    (hs : ItemsBuffered s) (hcreates : Creates created s s₁) (hmade : ∀ r ∈ created, MadeOf ns r)
    (hnew : Creates [containerRow newID parentID name (pathText (n :: ns)) false none
      invalidObjectID] s₁ s')
    (hnone : s.db.dirsAt (pathText (n :: ns)) = []) :
    s'.db.dirsAt (pathText (n :: ns)) =
        [containerRow newID parentID name (pathText (n :: ns)) false none invalidObjectID] ∧
      (HasDirs s'.db ns parentID ↔ HasDirs s₁.db ns parentID) := by
  have hs₁ := itemsBuffered_of_creates hcreates hs
  constructor
  · rw [dirsAt_of_creates hnew hs₁, dirsAt_of_creates hcreates hs, hnone, filter_madeOf hmade,
      List.filter_cons, if_pos matchesDirectory_containerRow]
    rfl
  · exact hasDirs_above hs₁ hnew

/-- Below a directory that has just been made, the others go on. -/
theorem hasDirs_made_iff {newID : {id : Int // cdsIdFsRoot < id}} {parentID : Int} {name : Str}
    (hrows : s'.db.dirsAt (pathText (n :: ns)) =
      [containerRow newID parentID name (pathText (n :: ns)) false none invalidObjectID]) :
    HasDirs s'.db (n :: ns) newID ↔ HasDirs s'.db ns parentID := by
  constructor
  · rintro ⟨row, hrow, -, -, hrest⟩
    obtain ⟨rfl, -⟩ := List.cons.inj (hrows.symm.trans hrow)
    exact hrest
  · intro hrest
    exact ⟨_, hrows, rfl, isContainer_containerRow, hrest⟩

/-! ## One call, step by step -/

/-- At a path with a name, the directory is looked for. -/
theorem ensureFrom_cons (hpath : PathOf path (n :: ns)) (fuel : Nat) :
    ensurePathExistenceFrom (fuel + 1) path =
      ensurePathExistence_ (ensurePathExistenceFrom fuel) (pathText (n :: ns)) := by
  unfold PathOf at hpath
  rw [if_neg (List.cons_ne_nil _ _)] at hpath
  rw [ensurePathExistenceFrom, if_neg hpath.1, hpath.2]

theorem ensureFrom_nil (hpath : PathOf path []) (fuel : Nat) :
    (ensurePathExistenceFrom (fuel + 1) path).run s = (.ok (cdsIdFsRoot, invalidObjectID), s) := by
  have hroot : reduce dirSeparator path = [dirSeparator] := by
    unfold PathOf at hpath
    rwa [if_pos rfl] at hpath
  rw [ensurePathExistenceFrom, if_pos hroot]
  rfl

section

variable {fuel : Nat} {obj : CdsObject} {changed changed₁ parentID : Int} {name : Str}
  (hns : ∀ m ∈ n :: ns, FileName m) (hpath : PathOf path (n :: ns))

include hns hpath

/-- A directory that is found is the result. -/
theorem ensureFrom_found
    (h : (findObjectByPath (pathText (n :: ns) ++ [dirSeparator])).run s = (.ok (some obj), s')) :
    (ensurePathExistenceFrom (fuel + 1) path).run s = (.ok (obj.id, invalidObjectID), s') := by
  rw [ensureFrom_cons hpath]
  unfold ensurePathExistence_
  rw [if_neg (pathText_ne_root (hns n List.mem_cons_self)), run_bind_of_ok h]
  rfl

/-- A directory that is missing is made below that of the parent's path. -/
theorem ensureFrom_missing
    (h : (findObjectByPath (pathText (n :: ns) ++ [dirSeparator])).run s = (.ok none, s))
    (hinner : (ensurePathExistenceFrom fuel (chainPath ns)).run s =
      (.ok (parentID, changed₁), s₁))
    (hname : s₁.f2i n = .ok name)
    (hcreate : (createContainer parentID name (pathText (n :: ns)) false none
      invalidObjectID).run s₁ = (.ok id, s')) :
    (ensurePathExistenceFrom (fuel + 1) path).run s =
      (.ok (id, if changed₁ = invalidObjectID then parentID else changed₁), s') := by
  have hsplit : splitPathOrThrow (pathText (n :: ns)) = .ok (chainPath ns, n) := by
    unfold splitPathOrThrow
    rw [splitPath_pathText (hns n List.mem_cons_self)]
  rw [ensureFrom_cons hpath]
  unfold ensurePathExistence_
  rw [if_neg (pathText_ne_root (hns n List.mem_cons_self)), run_bind_of_ok h]
  simp only
  rw [hsplit, ofExcept_ok_bind]
  simp only
  rw [run_bind_of_ok hinner]
  simp only
  rw [run_get_bind, hname, ofExcept_ok_bind, run_bind_of_ok hcreate]
  rfl

/-- And in no other way. -/
theorem ensureFrom_missing_ok
    (h : (findObjectByPath (pathText (n :: ns) ++ [dirSeparator])).run s = (.ok none, s))
    (hrun : (ensurePathExistenceFrom (fuel + 1) path).run s = (.ok (id, changed), s')) :
    ∃ parentID changed₁ s₁ name,
      (ensurePathExistenceFrom fuel (chainPath ns)).run s = (.ok (parentID, changed₁), s₁) ∧
      (createContainer parentID name (pathText (n :: ns)) false none invalidObjectID).run s₁ =
        (.ok id, s') := by
  have hsplit : splitPathOrThrow (pathText (n :: ns)) = .ok (chainPath ns, n) := by
    unfold splitPathOrThrow
    rw [splitPath_pathText (hns n List.mem_cons_self)]
  rw [ensureFrom_cons hpath] at hrun
  unfold ensurePathExistence_ at hrun
  rw [if_neg (pathText_ne_root (hns n List.mem_cons_self)), run_bind_of_ok h] at hrun
  simp only at hrun
  rw [hsplit, ofExcept_ok_bind] at hrun
  simp only at hrun
  obtain ⟨⟨parentID, changed₁⟩, s₁, hinner, hrun⟩ := bind_ok hrun
  simp only at hrun
  rw [run_get_bind] at hrun
  obtain ⟨name, s₂, hname, hrun⟩ := bind_ok hrun
  rw [run_ofExcept] at hname
  obtain ⟨-, rfl⟩ := Prod.mk.inj hname
  obtain ⟨newID, s₃, hcreate, hrun⟩ := bind_ok hrun
  cases hrun
  exact ⟨parentID, changed₁, s₁, name, hinner, hcreate⟩

end

end

/-! ## The whole call -/

/-- The directory at the end of the names is in the cache, or can be read. -/
def Known (s : StorageState) (ns : List Str) : Prop :=
  ns ≠ [] → cachedObjectAt s (dirLocation (pathText ns)) = none →
    ∀ row ∈ s.db.dirsAt (pathText ns), ReadableRow s.db row

/-- What a call for these names leaves. -/
structure Leaves (ns : List Str) (s : StorageState) (id : Int) (s' : StorageState) : Prop where
  sound : Sound s'
  kept : FilesKept s s'
  directories : HasDirs s'.db ns id
  known : Known s' ns
  created : ∃ created, Creates created s s' ∧ ∀ r ∈ created, MadeOf ns r

section

variable {s s' s₁ : StorageState} {n path : Str} {ns : List Str} {id changed : Int}
  {row : ObjectRow}

/-- A row that can be read stays readable. -/
theorem ReadableRow.settles (h : ReadableRow s.db row) (href : row.refID = none)
    (hset : Settles s s') (hkept : FilesKept s s') : ReadableRow s'.db row := by
  have hjoin : s'.db.join row = s.db.join row := by
    unfold Database.join
    rw [href, hset.autoscans]
    rfl
  refine ⟨?_, fun hactive => ?_⟩
  · rw [hjoin]
    exact h.object
  · obtain ⟨item, hitem⟩ := h.active hactive
    exact ⟨item, hkept.active row.id item hitem⟩

/-- A container that has no resources can be read. -/
theorem readable_container (db : Database) (htype : row.objectType = objectTypeContainer)
    (hresources : row.resources = none) (href : row.refID = none) : ReadableRow db row := by
  have hcreate : CdsObject.createObject row.objectType = .ok
      { upnpClass := some CdsObject.upnpDefaultClassContainer
        kind := .container 0 (-1) objectAutoscanNone } := by
    rw [htype]
    exact if_pos (by decide)
  have hnone : (db.join row).fallback ObjectRow.resources = none := by
    unfold Database.join Database.JoinedRow.fallback
    simp only [href, hresources]
    rfl
  have hcontainer : isCdsContainer row.objectType = true := by
    rw [htype]
    decide
  have hitem : isCdsItem row.objectType = false := by
    rw [htype]
    decide
  have hactive : isCdsActiveItem row.objectType = false := by
    rw [htype]
    decide
  have hwhere : (db.join row).f.objectType = row.objectType := rfl
  have hdecode : decodeResources (splitString none resourceSep false) = .ok [] := rfl
  refine ⟨?_, fun h => ?_⟩
  · unfold Database.JoinedRow.toObject
    simp only [hwhere, hcreate, hnone, hdecode, hitem, hcontainer]
    exact ⟨_, rfl⟩
  · rw [hactive] at h
    cases h

/-- **The directory is there**: the call finds it, and nothing is made. -/
theorem ensureFrom_there (hs : Sound s) (hfiled : DirectoriesFiled s)
    (hns : ∀ m ∈ ns, FileName m) (hpath : PathOf path ns) (hdirs : HasDirs s.db ns id)
    (hknown : Known s ns) (fuel : Nat) :
    ∃ s', (ensurePathExistenceFrom (fuel + 1) path).run s = (.ok (id, invalidObjectID), s') ∧
      Sound s' ∧ FilesKept s s' ∧ Known s' ns ∧ Settles s s' := by
  rcases ns with _ | ⟨n, ns⟩
  · rw [HasDirs] at hdirs
    rw [hdirs]
    exact ⟨s, ensureFrom_nil hpath fuel, hs, .refl s, hknown, .refl s⟩
  · obtain ⟨row, hrows, rfl, hcontainer, -⟩ := hdirs
    rcases hcached : cachedObjectAt s (dirLocation (pathText (n :: ns))) with _ | obj
    · -- it is read from its row
      have hmem : row ∈ s.db.dirsAt (pathText (n :: ns)) := by
        rw [hrows]
        exact List.mem_singleton_self row
      have hread := hknown (List.cons_ne_nil _ _) hcached row hmem
      have href := (matchesDirectory_iff.mp (List.mem_filter.mp hmem).2).2.2
      obtain ⟨obj, s', hrun, hid, hs', hset, hkept⟩ :=
        createObjectFromRow_directory hs hread hcontainer
      have hfind : (findObjectByPath (pathText (n :: ns) ++ [dirSeparator])).run s =
          (.ok (some obj), s') := by
        rw [findDirectory_row hns hcached hrows, run_bind_of_ok hrun]
        rfl
      have hresult := @ensureFrom_found s s' n path ns fuel obj hns hpath hfind
      rw [hid] at hresult
      refine ⟨s', hresult, hs', hkept, fun _ _ r hr => ?_, hset⟩
      rw [dirsAt_of_settles hset hs.items, hrows] at hr
      rw [List.mem_singleton.mp hr]
      exact hread.settles href hset hkept
    · -- the cache has it
      obtain ⟨row', hrow', hid⟩ := hfiled.cached hcached
      rw [hrows] at hrow'
      rw [List.mem_singleton.mp hrow'] at hid
      have hresult := @ensureFrom_found s s n path ns fuel obj hns hpath
        (findDirectory_cached hns hcached)
      rw [← hid] at hresult
      exact ⟨s, hresult, hs, .refl s, hknown, .refl s⟩

/-- Where nothing is stored the cache finds nothing. -/
theorem DirectoriesFiled.cached_eq_none (h : DirectoriesFiled s) (hnone : s.db.dirsAt path = []) :
    cachedObjectAt s (dirLocation path) = none := by
  rcases hcached : cachedObjectAt s (dirLocation path) with _ | obj
  · rfl
  · obtain ⟨row, hrow, -⟩ := h.cached hcached
    rw [hnone] at hrow
    cases hrow

theorem chainPath_length_lt (hn : FileName n) (hpath : PathOf path (n :: ns)) :
    (chainPath ns).length < path.length := by
  unfold PathOf at hpath
  rw [if_neg (List.cons_ne_nil _ _)] at hpath
  have hlt := splitPath_dir_lt (@splitPath_pathText n ns hn) (pathText_ne_root hn)
  have hle := cleanPath_length_le path
  rw [hpath.2] at hle
  omega

/-- The id of a directory is never that of no object. -/
theorem deepestDir_ne_invalid (db : Database) : ∀ ns, deepestDir db ns ≠ invalidObjectID := by
  intro ns
  induction ns with
  | nil =>
    rw [deepestDir]
    decide
  | cons n ns ih =>
    unfold deepestDir
    split
    · next row rows _ =>
      intro hid
      have hge := row.id_ge
      rw [hid] at hge
      exact absurd hge (by decide)
    · exact ih

/-- The directory of the parent, where it was there before. -/
theorem HasDirs.deepest {created : List ObjectRow} (h : HasDirs s'.db (n :: ns) id)
    (hcreates : Creates created s s') (hs : ItemsBuffered s)
    (hthere : s.db.dirsAt (pathText (n :: ns)) ≠ []) : id = deepestDir s.db (n :: ns) := by
  obtain ⟨row, hrow, rfl, -⟩ := h
  obtain ⟨row', rows, hrows⟩ := List.exists_cons_of_ne_nil hthere
  rw [dirsAt_of_creates hcreates hs, hrows] at hrow
  obtain ⟨rfl, -⟩ := List.cons.inj hrow
  rw [deepestDir, hrows]

/-- **On a table that is rooted the call makes what is missing**, from the deepest directory that
    is there on downwards. -/
theorem ensureFrom_rooted : ∀ (ns : List Str) (fuel : Nat) (path : Str) (s : StorageState),
    Sound s → DirectoriesFiled s → (∀ m, s.f2i m = .ok m) → (∀ m ∈ ns, FileName m) →
    PathOf path ns → path.length < fuel → Rooted s ns →
    ∃ id s', (ensurePathExistenceFrom fuel path).run s = (.ok (id, changedDir s.db ns), s') ∧
      Leaves ns s id s' := by
  intro ns
  induction ns with
  | nil =>
    intro fuel path s hs hfiled hf2i hns hpath hfuel hrooted
    obtain ⟨fuel, rfl⟩ := Nat.exists_eq_succ_of_ne_zero (Nat.ne_zero_of_lt hfuel)
    exact ⟨_, s, ensureFrom_nil hpath fuel, hs, .refl s, rfl, fun h => absurd rfl h, [], .refl s,
      fun r hr => nomatch hr⟩
  | cons n ns ih =>
    intro fuel path s hs hfiled hf2i hns hpath hfuel hrooted
    obtain ⟨fuel, rfl⟩ := Nat.exists_eq_succ_of_ne_zero (Nat.ne_zero_of_lt hfuel)
    unfold Rooted at hrooted
    rw [changedDir]
    by_cases hnone : s.db.dirsAt (pathText (n :: ns)) = []
    · rw [if_pos hnone] at hrooted ⊢
      have hn := hns n List.mem_cons_self
      have hns' : ∀ m ∈ ns, FileName m := fun m hm => hns m (List.mem_cons_of_mem n hm)
      have hshort := chainPath_length_lt hn hpath
      have hcached := hfiled.cached_eq_none hnone
      -- the parent first
      obtain ⟨parentID, s₁, hinner, hleaves⟩ := ih fuel (chainPath ns) s hs hfiled hf2i hns'
        (pathOf_chainPath hns') (by omega) hrooted
      obtain ⟨created, hcreates, hmade⟩ := hleaves.created
      have hname : s₁.f2i n = .ok n := by rw [hleaves.kept.f2i, hf2i]
      have hrefID : invalidObjectID ≤ 0 := by decide
      obtain ⟨id, s', hcreate, hs'⟩ := createContainer_returns parentID n (pathText (n :: ns)) false
        none hleaves.sound hrefID
      have hkept : FilesKept s₁ s' := by
        have hkeeps := files_createContainer parentID n (pathText (n :: ns)) s₁
        rwa [hcreate] at hkeeps
      have hrun := ensureFrom_missing hns hpath (findDirectory_missing hns hcached hnone) hinner
        hname hcreate
      obtain ⟨newID, rfl, hnew⟩ := createContainer_ok hcreate
      obtain ⟨hrows, habove⟩ := dirsAt_made hs.items hcreates hmade hnew hnone
      refine ⟨newID, s', ?_, hs', hleaves.kept.trans hkept, ?_, ?_, _, hcreates.trans hnew, ?_⟩
      · -- the container that changed: the parent, unless one above it did
        have hchanged : (if changedDir s.db ns = invalidObjectID then parentID
            else changedDir s.db ns) = deepestDir s.db ns := by
          rcases ns with _ | ⟨m, ms⟩
          · have hroot : parentID = cdsIdFsRoot := hleaves.directories
            rw [changedDir, if_pos rfl, hroot]
            rfl
          · rw [changedDir]
            by_cases hparent : s.db.dirsAt (pathText (m :: ms)) = []
            · rw [if_pos hparent, if_neg (deepestDir_ne_invalid s.db ms), deepestDir, hparent]
            · rw [if_neg hparent, if_pos rfl]
              exact hleaves.directories.deepest hcreates hs.items hparent
        rw [hchanged] at hrun
        exact hrun
      · exact (hasDirs_made_iff hrows).mpr (habove.mpr hleaves.directories)
      · intro _ _ r hr
        rw [hrows] at hr
        rw [List.mem_singleton.mp hr]
        exact readable_container s'.db rfl rfl rfl
      · intro r hr
        rcases List.mem_append.mp hr with hr | hr
        · exact (hmade r hr).cons
        · rw [List.mem_singleton.mp hr]
          exact ⟨n, ns, List.suffix_refl _, matchesDirectory_containerRow,
            isContainer_containerRow, rfl⟩
    · rw [if_neg hnone] at hrooted ⊢
      obtain ⟨⟨id, hdirs⟩, hread⟩ := hrooted
      obtain ⟨s', hrun, hs', hkept, hknown, hset⟩ := ensureFrom_there hs hfiled hns hpath hdirs
        (fun _ => hread) fuel
      refine ⟨id, s', hrun, hs', hkept, ?_, hknown, [], .of_settles hset, fun r hr => nomatch hr⟩
      refine (hasDirs_congr (n :: ns) id fun q _ => ?_).mpr hdirs
      exact dirsAt_of_settles hset hs.items q

/-- **Only on a table that is rooted** does the call leave the directories of the path. -/
theorem rooted_of_ensureFrom : ∀ (ns : List Str) (fuel : Nat) (path : Str) (s s' : StorageState)
    (id changed : Int), Sound s → DirectoriesFiled s → (∀ m ∈ ns, FileName m) → PathOf path ns →
    (ensurePathExistenceFrom fuel path).run s = (.ok (id, changed), s') → HasDirs s'.db ns id →
    Rooted s ns := by
  intro ns
  induction ns with
  | nil =>
    intro fuel path s s' id changed _ _ _ _ _ _
    trivial
  | cons n ns ih =>
    intro fuel path s s' id changed hs hfiled hns hpath hrun hdirs
    rcases fuel with _ | fuel
    · cases hrun
    unfold Rooted
    by_cases hnone : s.db.dirsAt (pathText (n :: ns)) = []
    · rw [if_pos hnone]
      have hns' : ∀ m ∈ ns, FileName m := fun m hm => hns m (List.mem_cons_of_mem n hm)
      have hcached := hfiled.cached_eq_none hnone
      obtain ⟨parentID, changed₁, s₁, name, hinner, hcreate⟩ :=
        ensureFrom_missing_ok hns hpath (findDirectory_missing hns hcached hnone) hrun
      have hs₁ : Sound s₁ := by
        have hkeeps := holds_ensurePathExistenceFrom sections_sound.toDirectories fuel
          (chainPath ns) s hs
        rwa [hinner] at hkeeps
      obtain ⟨newID, rfl, hnew⟩ := createContainer_ok hcreate
      obtain ⟨row, hrow, -, -, habove⟩ := hdirs
      have hmade : containerRow newID parentID name (pathText (n :: ns)) false none
          invalidObjectID ∈ s'.db.dirsAt (pathText (n :: ns)) :=
        List.mem_filter.mpr ⟨hnew.mem _ (List.mem_singleton_self _), matchesDirectory_containerRow⟩
      rw [hrow] at hmade
      rw [← List.mem_singleton.mp hmade] at habove
      refine ih fuel (chainPath ns) s s₁ parentID changed₁ hs hfiled hns' (pathOf_chainPath hns')
        hinner ?_
      exact (hasDirs_above hs₁.items hnew).mp habove
    · rw [if_neg hnone]
      rcases hcached : cachedObjectAt s (dirLocation (pathText (n :: ns))) with _ | obj
      · -- it is read from its row, which stays where it is
        obtain ⟨row, rows, hrows⟩ := List.exists_cons_of_ne_nil hnone
        have hrow := findDirectory_row hns hcached hrows
        rcases hread : (createObjectFromRow (s.db.join row)).run s with ⟨e | obj, s₁⟩
        · rw [run_bind_of_error hread] at hrow
          rw [ensureFrom_cons hpath] at hrun
          unfold ensurePathExistence_ at hrun
          rw [if_neg (pathText_ne_root (hns n List.mem_cons_self)), run_bind_of_error hrow] at hrun
          cases hrun
        · rw [run_bind_of_ok hread] at hrow
          rw [ensureFrom_found hns hpath hrow] at hrun
          cases hrun
          have hset : Settles s s' :=
            .of_run (holds_createObjectFromRow querySections_settling (s.db.join row)) hread
          have hthere := (hasDirs_congr (n :: ns) obj.id fun q _ =>
            dirsAt_of_settles hset hs.items q).mp hdirs
          refine ⟨⟨_, hthere⟩, fun _ r hr => ?_⟩
          obtain ⟨row', hrow', -⟩ := hthere
          rw [hrows] at hrow' hr
          rw [hrow', ← (List.cons.inj hrow').1] at hr
          rw [List.mem_singleton.mp hr]
          exact (readable_of_run hread).1
      · rw [ensureFrom_found hns hpath (findDirectory_cached hns hcached)] at hrun
        cases hrun
        exact ⟨⟨_, hdirs⟩, fun hnone' => by cases hnone'⟩

/-- **Headline.** The call returns the directory of the path and leaves what it is for, exactly on a
    table that is rooted. -/
theorem ensurePathExistence_iff (hs : Sound s) (hfiled : DirectoriesFiled s)
    (hf2i : ∀ name, s.f2i name = .ok name) (hpath : path.head? = some dirSeparator) :
    (∃ id changed s', (ensurePathExistence path).run s = (.ok (id, changed), s') ∧
        DirectoriesEnsured path s id changed s') ↔ Rooted s (pathNames path).reverse := by
  have hns : ∀ m ∈ (pathNames path).reverse, FileName m :=
    fun m hm => (directoriesOf_pathNames hpath).fileNames m (List.mem_reverse.mp hm)
  have hof := pathOf_pathNames hpath
  constructor
  · rintro ⟨id, changed, s', hrun, hensured⟩
    exact rooted_of_ensureFrom _ _ path s s' id changed hs hfiled hns hof hrun hensured.directories
  · intro hrooted
    obtain ⟨id, s', hrun, hleaves⟩ := ensureFrom_rooted _ _ path s hs hfiled hf2i hns hof
      (Nat.lt_succ_self path.length) hrooted
    obtain ⟨created, hcreates, hmade⟩ := hleaves.created
    refine ⟨id, _, s', hrun, hleaves.directories, fun r hr => ?_, rfl, ?_⟩
    · rcases List.mem_append.mp hr with hr | hr
      · rcases hcreates.added r hr with hr | hr | hr
        · exact .inl (List.mem_append_left _ hr)
        · exact .inr (hmade r hr)
        · exact .inl (List.mem_append_right _ hr)
      · exact .inl (List.mem_append_right _ (hcreates.buffered r hr))
    · obtain ⟨s'', hagain, -, -, -, hset⟩ := ensureFrom_there hleaves.sound
        (hfiled.kept hleaves.kept hcreates.mono) hns hof hleaves.directories hleaves.known
        path.length
      refine ⟨s'', hagain, fun r hr => ?_⟩
      obtain ⟨moved, hrows, hmoved⟩ := hset.objects
      rcases List.mem_append.mp hr with hr | hr
      · rw [hrows] at hr
        rcases List.mem_append.mp hr with hr | hr
        · exact List.mem_append_left _ hr
        · exact List.mem_append_right _ (hmoved r hr)
      · exact List.mem_append_right _ (hset.buffered r hr)

/-- The cache of a storage that has just been started is empty. -/
theorem directoriesFiled_started (db : Database) (cachingEnabled : Bool)
    (f2i : Str → Except Exception Str) : DirectoriesFiled (.started db cachingEnabled f2i) := by
  rcases cachingEnabled with _ | _
  · refine ⟨fun id obj hobj => ?_, fun path id hid => ?_⟩
    · cases hobj
    · cases hid
  · have hcache : (StorageState.started db true f2i).cache = some .empty := rfl
    refine ⟨fun id obj hobj => ?_, fun path id hid => ?_⟩
    · have hnone : StorageCache.empty.getObject id = none := StorageCache.getObject_empty
      unfold cachedObject at hobj
      rw [hcache, Option.bind_some, hnone] at hobj
      cases hobj
    · have hnone : StorageCache.empty.getObjects (dirLocation path) = none := AList.lookup_empty _
      unfold filedAt at hid
      rw [hcache, Option.bind_some, hnone] at hid
      cases hid

/-- Two directories on a table as the schema leaves it. -/
theorem ensurePathExistence_music : ∃ id changed s',
    (ensurePathExistence (str "/srv//music/")).run (.started .fresh true .ok) =
        (.ok (id, changed), s') ∧
      DirectoriesEnsured (str "/srv//music/") (.started .fresh true .ok) id changed s' := by
  have hnames : (pathNames (str "/srv//music/")).reverse = [str "music", str "srv"] := by decide
  refine (ensurePathExistence_iff (sound_started (by decide) (by decide) true .ok)
    (directoriesFiled_started .fresh true .ok) (fun _ => rfl) (by decide)).mpr ?_
  rw [hnames, Rooted, if_pos (by decide), Rooted, if_pos (by decide)]
  trivial

/-- A table with a directory, and nothing stored at the path of its parent. -/
def orphaned : Database :=
  (Database.fresh.insertObject? (containerRow ⟨2, by decide⟩ cdsIdFsRoot (str "music")
    (str "/srv/music") false none invalidObjectID)).getD .fresh

/-- What the call leaves on it. -/
def orphanedRows : List ObjectRow :=
  ((ensurePathExistence (str "/srv/music")).run (.started orphaned false .ok)).2.db.objects.rows

/-- **A directory is found without its parent.** -/
theorem ensurePathExistence_orphaned : ¬ ∀ (s : StorageState) (path : Str), Sound s →
    DirectoriesFiled s → (∀ name, s.f2i name = .ok name) → path.head? = some dirSeparator →
    ∃ id changed s', (ensurePathExistence path).run s = (.ok (id, changed), s') ∧
      DirectoriesEnsured path s id changed s' := by
  intro hclaim
  obtain ⟨id, changed, s', hrun, hensured⟩ := hclaim (.started orphaned false .ok)
    (str "/srv/music") (sound_started (by decide +kernel) (by decide +kernel) false .ok)
    (directoriesFiled_started orphaned false .ok) (fun _ => rfl) (by decide)
  have hrows : s'.db.objects.rows = orphanedRows := by
    unfold orphanedRows
    rw [hrun]
  have hnames : (pathNames (str "/srv/music")).reverse = [str "music", str "srv"] := by decide
  have hdirs := hensured.directories
  rw [hnames] at hdirs
  obtain ⟨row, -, -, -, row', hrow', -⟩ := hdirs
  have hnone : orphanedRows.filter (matchesLocation (dirLocation (pathText [str "srv"]))) = [] := by
    decide +kernel
  rw [← hrows] at hnone
  rw [Database.dirsAt, Database.selectObjects, hnone] at hrow'
  cases hrow'

end

end MediaTomb
