/-
  The root (id 0) and the PC directory (id 1).

  The schema creates both with the persistent flag, and no call that removes nothing deletes a row.
  A removal refuses both as targets.  It can reach the PC directory all the same:
    * an autoscan on the PC directory sets its flag and, when it is removed, CLEARS it; after that a
      removal that takes its last child makes the purge delete it;
    * with `all`, an item in a removed container redirects the removal to whatever its `ref_id`
      names, and that id is not checked again.
-/
import MediaTomb.Storage.Dangling
import MediaTomb.Storage.Flush
import MediaTomb.Storage.Sections

namespace MediaTomb

open Lib.Prog

/-! ## The invariant -/

/-- The references and parents the schema gave the first rows. -/
def IsSchemaRow (r : ObjectRow) : Prop :=
  r.refID = none ∧ (r.id = cdsIdFsRoot → r.parentID = cdsIdRoot) ∧
    (r.id ≠ cdsIdFsRoot → r.parentID = cdsIdBlackhole)

structure RootsInv (s : StorageState) : Prop where
  root : ∃ r ∈ s.db.objects.rows, r.id = cdsIdRoot
  fsRoot : ∃ r ∈ s.db.objects.rows, r.id = cdsIdFsRoot
  schema : ∀ r ∈ s.db.objects.rows, r.id ≤ cdsIdFsRoot → IsSchemaRow r
  buffer : ∀ row ∈ s.insertBuffer.filterMap Statement.objectRow?, cdsIdFsRoot < row.id

section

variable {s : StorageState}

/-- Rows that are appended have new ids. -/
theorem RootsInv.append (h : RootsInv s) {db : Database} {rows : List ObjectRow}
    (hdb : db.objects.rows = s.db.objects.rows ++ rows) (hrows : ∀ row ∈ rows, cdsIdFsRoot < row.id)
    {s' : StorageState} (hs' : s'.db = db)
    (hbuf : ∀ row ∈ s'.insertBuffer.filterMap Statement.objectRow?, cdsIdFsRoot < row.id) :
    RootsInv s' := by
  subst hs'
  obtain ⟨r₀, hr₀, hid₀⟩ := h.root
  obtain ⟨r₁, hr₁, hid₁⟩ := h.fsRoot
  refine ⟨⟨r₀, ?_, hid₀⟩, ⟨r₁, ?_, hid₁⟩, fun r hr hle => ?_, hbuf⟩
  · rw [hdb]
    exact List.mem_append_left _ hr₀
  · rw [hdb]
    exact List.mem_append_left _ hr₁
  · rw [hdb] at hr
    rcases List.mem_append.mp hr with hr | hr
    · exact h.schema r hr hle
    · exact absurd (hrows r hr) (Int.not_lt.mpr hle)

/-- Rows that are rewritten keep their ids, and the first ones what the schema gave them. -/
theorem RootsInv.update (h : RootsInv s) {f : ObjectRow → ObjectRow}
    {hf : ∀ r, (f r).id = r.id} (hsame : ∀ r, r.id ≤ cdsIdFsRoot →
      (f r).refID = r.refID ∧ (f r).parentID = r.parentID) :
    RootsInv { s with db := s.db.updateObjects f hf } := by
  obtain ⟨r₀, hr₀, hid₀⟩ := h.root
  obtain ⟨r₁, hr₁, hid₁⟩ := h.fsRoot
  refine ⟨⟨f r₀, List.mem_map_of_mem hr₀, (hf r₀).trans hid₀⟩,
    ⟨f r₁, List.mem_map_of_mem hr₁, (hf r₁).trans hid₁⟩, fun r hr hle => ?_, h.buffer⟩
  obtain ⟨r', hr', rfl⟩ := List.mem_map.mp hr
  rw [hf] at hle
  obtain ⟨href, hpar⟩ := hsame r' hle
  have hschema := h.schema r' hr' hle
  unfold IsSchemaRow
  rw [href, hpar, hf]
  exact hschema

/-- Statements that keep the shape of the objects keep all of it. -/
theorem RootsInv.sameObjects (h : RootsInv s) {db : Database} (hdb : SameObjects s.db db) :
    RootsInv { s with db := db } := by
  have there : ∀ i, (∃ r ∈ s.db.objects.rows, r.id = i) → ∃ r ∈ db.objects.rows, r.id = i := by
    rintro i ⟨r, hr, rfl⟩
    obtain ⟨r', hr', hshape⟩ := hdb.symm.exists_row hr
    exact ⟨r', hr', ObjectRow.id_of_shape hshape⟩
  refine ⟨there _ h.root, there _ h.fsRoot, fun r hr hle => ?_, h.buffer⟩
  obtain ⟨r', hr', hshape⟩ := hdb.exists_row hr
  have hid : r'.id = r.id := ObjectRow.id_of_shape hshape
  have href : r'.refID = r.refID := ObjectRow.refID_of_shape hshape
  have hpar : r'.parentID = r.parentID := ObjectRow.parentID_of_shape hshape
  have hschema := h.schema r' hr' (hid ▸ hle)
  unfold IsSchemaRow at hschema ⊢
  rwa [hid, href, hpar] at hschema

theorem RootsInv.flush (h : RootsInv s) : RootsInv (flushInsertBuffer.run s).2 := by
  rcases run_flushInsertBuffer s with ⟨-, hrun⟩ | ⟨db, -, hdone, hrun⟩ |
    ⟨e, db, done, rest, -, hqs, hdone, hrun⟩
  · rw [hrun]
    exact h
  · rw [hrun]
    exact h.append hdone.objects h.buffer rfl fun row hrow => nomatch hrow
  · rw [hrun]
    refine h.append hdone.objects (fun row hrow => h.buffer row ?_) rfl h.buffer
    rw [hqs, List.filterMap_append]
    exact List.mem_append_left _ hrow

theorem storedSections_rootsInv : StoredSections (Frame.inv RootsInv) where
  hidden _ _ _ _ _ _ _ _ h := ⟨h.root, h.fsRoot, h.schema, h.buffer⟩
  flush _ h := h.flush
  shape _ _ hdb h := h.sameObjects hdb
  insertObject s row db hrow hi h := by
    refine h.append (Database.insertObject?_eq_some hi).1 (fun row' hrow' => ?_) rfl h.buffer
    rw [List.mem_singleton] at hrow'
    rwa [hrow']
  activeItems _ _ h := ⟨h.root, h.fsRoot, h.schema, h.buffer⟩
  buffer s q hq h := by
    refine ⟨h.root, h.fsRoot, h.schema, fun row hrow => ?_⟩
    rw [List.filterMap_append, List.mem_append] at hrow
    rcases hrow with hrow | hrow
    · exact h.buffer row hrow
    · obtain ⟨q', hq', hrow'⟩ := List.mem_filterMap.mp hrow
      rw [List.mem_singleton] at hq'
      subst hq'
      exact hq row hrow'
  update s cols id hforb h := by
    refine h.update fun r hle => ?_
    -- a forbidden id is never the target
    have hne : r.id ≠ id := by
      rintro rfl
      unfold isForbiddenCdsID at hforb
      rw [decide_eq_false_iff_not] at hforb
      exact hforb hle
    rw [if_neg hne]
    exact ⟨rfl, rfl⟩
  fsRootRow obj s h := by
    refine h.update fun r _ => ?_
    split
    · exact ⟨rfl, rfl⟩
    · exact ⟨rfl, rfl⟩

theorem RootsInv.started (cachingEnabled : Bool) (f2i : Str → Except Exception Str) :
    RootsInv (.started .fresh cachingEnabled f2i) where
  root := ⟨Database.fresh.objects.rows.get ⟨1, by decide⟩, List.get_mem _ _, rfl⟩
  fsRoot := ⟨Database.fresh.objects.rows.get ⟨2, by decide⟩, List.get_mem _ _, rfl⟩
  schema := by
    show ∀ r ∈ Database.fresh.objects.rows, r.id ≤ cdsIdFsRoot → IsSchemaRow r
    unfold IsSchemaRow
    decide
  buffer _ hrow := nomatch hrow

end

/-! ## Removals -/

/-- A removal that leaves both roots alone: none of the items it fetches redirects it to one of
    them, and the PC directory still carries the flag or keeps a child. -/
structure RemovalCall.SparesRoots (call : RemovalCall) (db : Database) : Prop where
  no_redirect : ∀ r ∈ db.objects.rows, Walked db (call.containers db) r.parentID →
    ∀ x, redirect call.all r = some x → cdsIdFsRoot < x
  stays : ∀ r ∈ db.objects.rows, r.id = cdsIdFsRoot → isPersistentContainer r = true ∨
    ∃ child ∈ db.objects.rows, child.parentID = cdsIdFsRoot ∧ ¬ call.MayVanish db child.id

section

variable {call : RemovalCall} {s : StorageState}

theorem RootsInv.not_walked (h : RootsInv s) {containers : List Int}
    (hids : ∀ i ∈ containers, isForbiddenCdsID i = false) {i : Int}
    (hi : Walked s.db containers i) : cdsIdFsRoot < i := by
  induction hi with
  | given hi =>
    have hforb := hids _ hi
    unfold isForbiddenCdsID at hforb
    rwa [decide_eq_false_iff_not, Int.not_le] at hforb
  | @child r hr _ _ ih =>
    by_contra hle
    have hschema := h.schema r hr (Int.not_lt.mp hle)
    by_cases hid : r.id = cdsIdFsRoot
    · rw [hschema.2.1 hid] at ih
      exact absurd ih (by decide)
    · rw [hschema.2.2 hid] at ih
      exact absurd ih (by decide)

theorem RootsInv.not_goes (h : RootsInv s)
    (hids : ∀ i ∈ call.items s.db ++ call.containers s.db, isForbiddenCdsID i = false)
    (hspares : call.SparesRoots s.db) {i : Int}
    (hi : Goes s.db (call.items s.db) (call.containers s.db) call.all i)
    (hrow : ∃ r ∈ s.db.objects.rows, r.id = i) : cdsIdFsRoot < i := by
  have hconts : ∀ i ∈ call.containers s.db, isForbiddenCdsID i = false := fun i hi =>
    hids i (List.mem_append_right _ hi)
  -- a row of the schema has a parent that is not walked
  have schema_parent : ∀ r ∈ s.db.objects.rows, Walked s.db (call.containers s.db) r.parentID →
      cdsIdFsRoot < r.id := by
    intro r hr hw
    by_contra hle
    have hschema := h.schema r hr (Int.not_lt.mp hle)
    have hlt := h.not_walked hconts hw
    by_cases hid : r.id = cdsIdFsRoot
    · rw [hschema.2.1 hid] at hlt
      exact absurd hlt (by decide)
    · rw [hschema.2.2 hid] at hlt
      exact absurd hlt (by decide)
  cases hi with
  | container hw => exact h.not_walked hconts hw
  | item _ hi =>
    have hforb := hids _ (List.mem_append_left _ hi)
    unfold isForbiddenCdsID at hforb
    rwa [decide_eq_false_iff_not, Int.not_le] at hforb
  | @child r hr _ hw =>
    rcases hx : redirect call.all r with _ | x
    · exact schema_parent r hr hw
    · exact hspares.no_redirect r hr hw x hx
  | @reference r j hr href _ =>
    by_contra hle
    have hschema := h.schema r hr (Int.not_lt.mp hle)
    rw [hschema.1] at href
    cases href

/-- Neither root vanishes. -/
theorem RootsInv.not_mayVanish (h : RootsInv s)
    (hids : ∀ i ∈ call.items s.db ++ call.containers s.db, isForbiddenCdsID i = false)
    (hspares : call.SparesRoots s.db) :
    ¬ call.MayVanish s.db cdsIdFsRoot ∧ ¬ call.MayVanish s.db cdsIdRoot := by
  have hfs : ¬ call.MayVanish s.db cdsIdFsRoot := by
    intro hv
    generalize hi : cdsIdFsRoot = i at hv
    cases hv with
    | goes hg =>
      have hlt := h.not_goes hids hspares hg (hi ▸ h.fsRoot)
      rw [hi] at hlt
      exact Int.lt_irrefl i hlt
    | @emptied c hc _ hp _ hall =>
      rcases hspares.stays c hc hi.symm with hflag | ⟨child, hchild, hpar, hnot⟩
      · rw [hp] at hflag
        cases hflag
      · exact hnot (hall child hchild (hpar.trans hi))
  refine ⟨hfs, fun hv => ?_⟩
  generalize hi : cdsIdRoot = i at hv
  cases hv with
  | goes hg =>
    have hlt := h.not_goes hids hspares hg (hi ▸ h.root)
    rw [← hi] at hlt
    exact absurd hlt (by decide)
  | @emptied c _ _ _ _ hall =>
    -- the PC directory is a child of the root
    obtain ⟨r, hr, hid⟩ := h.fsRoot
    have hpar := (h.schema r hr (Int.le_of_eq hid)).2.1 hid
    have hv := hall r hr (hpar.trans hi)
    rw [hid] at hv
    exact hfs hv

/-- **A removal that spares the roots keeps the invariant.** -/
theorem RootsInv.removal (h : RootsInv s)
    (hspares : call.SparesRoots (flushInsertBuffer.run s).2.db) :
    RootsInv (call.prog.run s).2 := by
  have h₀ := h.flush
  rcases call.leaves s with heq | ⟨hids, hleaves⟩
  · rw [heq]
    exact h₀
  · obtain ⟨hfs, hroot⟩ := h₀.not_mayVanish hids hspares
    have there : ∀ i, ¬ call.MayVanish (flushInsertBuffer.run s).2.db i →
        (∃ r ∈ (flushInsertBuffer.run s).2.db.objects.rows, r.id = i) →
        ∃ r ∈ (call.prog.run s).2.db.objects.rows, r.id = i := by
      rintro i hnot ⟨r, hr, rfl⟩
      refine ⟨r, ?_, rfl⟩
      by_contra hgone
      exact hnot (hleaves.gone r hr hgone)
    refine ⟨there _ hroot h₀.root, there _ hfs h₀.fsRoot,
      fun r hr hle => h₀.schema r (hleaves.rows r hr) hle, ?_⟩
    rw [hleaves.rest]
    exact h₀.buffer

end

/-! ## Runs -/

/-- The removal a call makes. -/
def Op.removalCall? : Op → Option RemovalCall
  | .removeObject objectID all => some (.removeObject objectID all)
  | .removeObjects list all => some (.removeObjects list all)
  | _ => none

theorem Op.step_removal {op : Op} {call : RemovalCall} (h : op.removalCall? = some call)
    (s : StorageState) : op.step s = (call.prog.run s).2 := by
  unfold Op.step
  cases op <;> cases h
  · exact run_ignore _ s
  · exact run_ignore _ s

theorem Op.isRemoval_of_none {op : Op} (h : op.removalCall? = none) : op.isRemoval = false := by
  cases op <;> first | rfl | cases h

/-- The call, if it is a removal, spares the roots in the state it is made in. -/
def SparesRoots (op : Op) (s : StorageState) : Prop :=
  ∀ call, op.removalCall? = some call → call.SparesRoots (flushInsertBuffer.run s).2.db

theorem RootsInv.step {op : Op} {s : StorageState} (hspares : SparesRoots op s) (h : RootsInv s) :
    RootsInv (op.step s) := by
  rcases hcall : op.removalCall? with _ | call
  · exact holds_op (sections_of_stored storedSections_rootsInv) (Op.isRemoval_of_none hcall) s h
  · rw [Op.step_removal hcall]
    exact h.removal (hspares call hcall)

/-- **The roots stay**, in every run whose removals spare them. -/
theorem roots_present (cachingEnabled : Bool) (f2i : Str → Except Exception Str) (ops : List Op)
    (hops : EveryStep SparesRoots ops (.started .fresh cachingEnabled f2i)) :
    (∃ r ∈ (runOps ops (.started .fresh cachingEnabled f2i)).db.objects.rows,
        r.id = cdsIdRoot) ∧
      ∃ r ∈ (runOps ops (.started .fresh cachingEnabled f2i)).db.objects.rows,
        r.id = cdsIdFsRoot := by
  have h := runOps_inv (I := RootsInv) (fun op s hspares h => h.step hspares) ops _ hops
    (.started cachingEnabled f2i)
  exact ⟨h.root, h.fsRoot⟩

/-- Without `all` nothing is redirected, and a flagged PC directory stays. -/
theorem RemovalCall.sparesRoots_of_flagged {call : RemovalCall} {db : Database}
    (hall : call.all = false)
    (hflag : ∀ r ∈ db.objects.rows, r.id = cdsIdFsRoot → isPersistentContainer r = true) :
    call.SparesRoots db := by
  refine ⟨fun r _ _ x hx => ?_, fun r hr hid => Or.inl (hflag r hr hid)⟩
  unfold redirect at hx
  rw [hall] at hx
  split at hx
  · cases hx
  · cases hx

theorem roots_present_oneFile :
    (∃ r ∈ (runOps [.addObject (plainFile (str "/a/x")), .removeObject 3 false]
        (.started .fresh true .ok)).db.objects.rows, r.id = cdsIdRoot) ∧
      ∃ r ∈ (runOps [.addObject (plainFile (str "/a/x")), .removeObject 3 false]
        (.started .fresh true .ok)).db.objects.rows, r.id = cdsIdFsRoot := by
  refine roots_present true .ok _ ⟨fun _ hcall => (nomatch hcall), fun call hcall => ?_, trivial⟩
  cases hcall
  refine RemovalCall.sparesRoots_of_flagged rfl ?_
  decide +kernel

/-! ### An autoscan on the PC directory -/

/-- A file is added; an autoscan on the PC directory is added and removed; the directory of the file
    is removed. -/
def fsRootAutoscanRun : List Op :=
  [.addObject (plainFile (str "/a/x")),
   .addAutoscanDirectory
    { location := str "/", mode := .timed, level := .full, recursive := false, hidden := false,
      persistent := false, interval := 3600, objectID := 1 },
   .removeAutoscanDirectoryByObjectID 1,
   .removeObject 2 false]

/-- The PC directory is gone after it. -/
theorem fsRoot_purged :
    ¬ ∃ r ∈ (runOps fsRootAutoscanRun (.started .fresh true .ok)).db.objects.rows,
      r.id = cdsIdFsRoot := by
  decide +kernel

end MediaTomb
