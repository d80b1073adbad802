/-
  Autoscans in the tree of objects.

  No two autoscans may be on one object, and nothing may be scanned below a recursive autoscan.  The
  first is the UNIQUE index of the table.  The second rests on `_checkOverlappingAutoscans` and on
  `path_ids`, which must be the walk from the object up to the root.  Two things break it:
    * the check takes the object id from its argument, but `addAutoscanDirectory` stores the id its
      LOCATION names; where the argument carries none the check is skipped and no path is stored;
    * the walk leaves the root out, so a recursive autoscan on id 0 is above everything and is
      never found.
-/
import MediaTomb.Storage.AutoscanCalls

namespace MediaTomb

open Lib.Prog

/-! ## The path as text -/

theorem pathIDsText_cons {i j : Int} {ids : List Int} :
    pathIDsText (i :: j :: ids) = ','.toUInt8 :: fromInt i ++ pathIDsText (j :: ids) := by
  simp [pathIDsText, toCSV, List.intercalate]

theorem pathIDsText_singleton (i : Int) :
    pathIDsText [i] = ','.toUInt8 :: fromInt i ++ [','.toUInt8] := by
  simp [pathIDsText, toCSV, List.intercalate]

/-- The text of a path starts with a comma. -/
theorem pathIDsText_eq (ids : List Int) : ∃ text, pathIDsText ids = ','.toUInt8 :: text := ⟨_, rfl⟩

/-- An id of a path is found in its text. -/
theorem mem_pathIDsText {i : Int} {ids : List Int} (h : i ∈ ids) :
    ','.toUInt8 :: fromInt i ++ [','.toUInt8] <:+: pathIDsText ids := by
  induction ids with
  | nil => cases h
  | cons j ids ih =>
    rcases ids with _ | ⟨k, ids⟩
    · rw [List.mem_singleton.mp h, pathIDsText_singleton]
    · rw [pathIDsText_cons]
      rcases List.mem_cons.mp h with rfl | h
      · obtain ⟨text, htext⟩ := pathIDsText_eq (k :: ids)
        rw [htext]
        exact ⟨[], text, by simp⟩
      · exact (ih h).trans (List.suffix_append _ _).isInfix

theorem hasPathID_of_mem {i : Int} {ids : List Int} {a : AutoscanRow} (h : i ∈ ids)
    (ha : a.pathIDs = some (pathIDsText ids)) : hasPathID i a = true := by
  unfold hasPathID
  rw [ha]
  exact decide_eq_true (mem_pathIDsText h)

/-! ## Parent links -/

section

variable {db db' : Database}

theorem parentOf_eq_some {i p : Int} :
    db.parentOf i = some p ↔ ∃ r ∈ db.objects.rows, r.id = i ∧ r.parentID = p := by
  unfold Database.parentOf
  rw [Option.map_eq_some_iff]
  constructor
  · rintro ⟨r, hr, hp⟩
    exact ⟨r, (Lib.Table.find?_eq_some.mp hr).1, (Lib.Table.find?_eq_some.mp hr).2, hp⟩
  · rintro ⟨r, hr, hid, hp⟩
    exact ⟨r, Lib.Table.find?_eq_some.mpr ⟨hr, hid⟩, hp⟩

theorem SameObjects.parentOf_eq (h : SameObjects db db') : db'.parentOf = db.parentOf := by
  have half : ∀ {db db' : Database}, SameObjects db db' → ∀ i p,
      db'.parentOf i = some p → db.parentOf i = some p := by
    intro db db' h i p hp
    obtain ⟨r', hr', hid, hpar⟩ := parentOf_eq_some.mp hp
    obtain ⟨r, hr, hshape⟩ := h.exists_row hr'
    exact parentOf_eq_some.mpr ⟨r, hr, (ObjectRow.id_of_shape hshape).trans hid,
      (ObjectRow.parentID_of_shape hshape).trans hpar⟩
  funext i
  exact Option.ext fun p => ⟨half h i p, half h.symm i p⟩

/-- The root and the black hole hang from the black hole. -/
def RootedTree (db : Database) : Prop :=
  ∀ r ∈ db.objects.rows, r.id ≤ cdsIdRoot → r.parentID = cdsIdBlackhole

instance (db : Database) : Decidable (RootedTree db) := by
  unfold RootedTree
  infer_instance

theorem RootedTree.sameObjects (h : RootedTree db) (hdb : SameObjects db db') : RootedTree db' := by
  intro r' hr' hle
  obtain ⟨r, hr, hshape⟩ := hdb.exists_row hr'
  rw [← ObjectRow.parentID_of_shape hshape]
  exact h r hr ((ObjectRow.id_of_shape hshape).symm ▸ hle)

/-- Only the black hole is above the root. -/
theorem RootedTree.above_root (h : RootedTree db) {a i : Int} (ha : Lib.Ancestor db.parentOf a i)
    (hi : i ≤ cdsIdRoot) : a = cdsIdBlackhole := by
  induction ha with
  | single hp =>
    obtain ⟨r, hr, rfl, hpar⟩ := parentOf_eq_some.mp hp
    rw [← hpar, h r hr hi]
  | tail _ hp ih =>
    obtain ⟨r, hr, rfl, hpar⟩ := parentOf_eq_some.mp hp
    refine ih ?_
    rw [← hpar, h r hr hi]
    decide

/-- A walk up from an object meets everything above it but the root. -/
theorem RootedTree.mem_path (h : RootedTree db) {a i : Int} {ids : List Int}
    (hclimb : Lib.Climb db.parentOf cdsIdRoot i ids) (ha : Lib.Ancestor db.parentOf a i)
    (hpos : 0 ≤ a) (hne : a ≠ cdsIdRoot) : a ∈ ids := by
  refine hclimb.mem_of_ancestor ha hne fun habove => ?_
  rw [h.above_root habove (Int.le_refl _)] at hpos
  exact absurd hpos (by decide)

end

/-! ## The invariant -/

/-- Nothing is scanned below a recursive autoscan, and every path is stored. -/
structure AutoscanTree (db : Database) : Prop where
  path : ∀ a ∈ db.autoscans.rows, ∀ i ∈ a.objID, 0 ≤ i ∧
    ∃ ids, Lib.Climb db.parentOf cdsIdRoot i ids ∧ a.pathIDs = some (pathIDsText ids)
  not_root : ∀ a ∈ db.autoscans.rows, a.recursive = true → a.objID ≠ some cdsIdRoot
  apart : ∀ a ∈ db.autoscans.rows, ∀ b ∈ db.autoscans.rows, a.id ≠ b.id → a.recursive = true →
    ∀ i ∈ a.objID, ∀ j ∈ b.objID, ¬ Lib.Ancestor db.parentOf i j

/-- A row that was checked as `adir`: what it names is what was checked. -/
structure CheckedRow (adir : AutoscanDirectory) (db : Database) (a : AutoscanRow) : Prop where
  recursive : a.recursive = adir.recursive
  object : ∀ i ∈ a.objID, i = adir.objectID ∧ 0 ≤ i ∧
    ∃ ids, NoOverlap adir ids db ∧ a.pathIDs = some (pathIDsText ids)
  not_root : a.recursive = true → a.objID ≠ some cdsIdRoot

section

variable {db db' : Database}

/-- Deleting autoscans, and rewriting what no other autoscan depends on. -/
theorem AutoscanTree.mono (h : AutoscanTree db) (hpar : db'.parentOf = db.parentOf)
    (hsub : ∀ a' ∈ db'.autoscans.rows, ∃ a ∈ db.autoscans.rows, a.id = a'.id ∧
      a.objID = a'.objID ∧ a.recursive = a'.recursive ∧ a.pathIDs = a'.pathIDs) :
    AutoscanTree db' := by
  refine ⟨fun a' ha' i hi => ?_, fun a' ha' hrec => ?_, fun a' ha' b' hb' hne hrec i hi j hj => ?_⟩
  · obtain ⟨a, ha, -, hobj, -, hpath⟩ := hsub a' ha'
    rw [hpar, ← hpath]
    exact h.path a ha i (hobj ▸ hi)
  · obtain ⟨a, ha, -, hobj, hr, -⟩ := hsub a' ha'
    rw [← hobj]
    exact h.not_root a ha (hr.trans hrec)
  · obtain ⟨a, ha, hida, hobja, hr, -⟩ := hsub a' ha'
    obtain ⟨b, hb, hidb, hobjb, -, -⟩ := hsub b' hb'
    rw [hpar]
    exact h.apart a ha b hb (by rwa [hida, hidb]) (hr.trans hrec) i (hobja ▸ hi) j (hobjb ▸ hj)

/-- **A checked row can be put in**, beside the autoscans it was checked against. -/
theorem AutoscanTree.install (adir : AutoscanDirectory) (newID : Int) (h : AutoscanTree db)
    (hroot : RootedTree db) (hpar : db'.parentOf = db.parentOf)
    (hmem : ∀ a ∈ db'.autoscans.rows,
      (a.id = newID ∧ CheckedRow adir db a) ∨ OtherAutoscan adir db a) : AutoscanTree db' := by
  refine ⟨fun a ha i hi => ?_, fun a ha hrec => ?_, fun a ha b hb hne hrec i hi j hj habove => ?_⟩
  · rw [hpar]
    rcases hmem a ha with ⟨-, hnew⟩ | hother
    · obtain ⟨rfl, hpos, ids, hno, hpath⟩ := hnew.object i hi
      exact ⟨hpos, ids, hno.path, hpath⟩
    · exact h.path a hother.1 i hi
  · rcases hmem a ha with ⟨-, hnew⟩ | hother
    · exact hnew.not_root hrec
    · exact h.not_root a hother.1 hrec
  · rw [hpar] at habove
    rcases hmem a ha with ⟨hida, hnewa⟩ | hothera
    · obtain ⟨rfl, hpos, ids, hno, -⟩ := hnewa.object i hi
      rcases hmem b hb with ⟨hidb, -⟩ | hotherb
      · exact hne (hida.trans hidb.symm)
      · -- an autoscan below the new one: its stored path holds the new one's object
        obtain ⟨-, ids', hclimb, hpath⟩ := h.path b hotherb.1 j hj
        have hin := hroot.mem_path hclimb habove hpos fun heq => hnewa.not_root hrec (heq ▸ hi)
        have hnot := hno.below (hnewa.recursive ▸ hrec) b hotherb
        rw [hasPathID_of_mem hin hpath] at hnot
        cases hnot
    · have hpos := (h.path a hothera.1 i hi).1
      have hnz : i ≠ cdsIdRoot := fun heq => h.not_root a hothera.1 hrec (heq ▸ hi)
      rcases hmem b hb with ⟨-, hnewb⟩ | hotherb
      · -- the new one below an autoscan: that one's object is on the new one's path
        obtain ⟨rfl, -, ids, hno, -⟩ := hnewb.object j hj
        exact hno.above a hothera hrec i hi (hroot.mem_path hno.path habove hpos hnz)
      · exact h.apart a hothera.1 b hotherb.1 hne hrec i hi j hj habove

end

/-- The tables of a fixed tree: nothing waits to be inserted. -/
structure TreeInv (s : StorageState) : Prop where
  buffered : s.bufferedRows = []
  rooted : RootedTree s.db
  tree : AutoscanTree s.db

section

variable {s s' : StorageState}

theorem TreeInv.settles (h : TreeInv s) (hset : Settles s s') : TreeInv s' := by
  obtain ⟨hobj, hbuf⟩ := hset.objects_eq h.buffered
  have hpar : s'.db.parentOf = s.db.parentOf := by
    funext i
    rw [Database.parentOf, Database.parentOf, hobj]
  refine ⟨hbuf, ?_, h.tree.mono hpar fun a ha => ?_⟩
  · unfold RootedTree
    rw [hobj]
    exact h.rooted
  · rw [hset.autoscans] at ha
    exact ⟨a, ha, rfl, rfl, rfl, rfl⟩

/-- Other tables with the same tree. -/
theorem TreeInv.withDB (h : TreeInv s) {db : Database} (hsame : SameObjects s.db db)
    (htree : AutoscanTree db) : TreeInv { s with db := db } :=
  ⟨h.buffered, h.rooted.sameObjects hsame, htree⟩

end

/-! ## The calls -/

/-- A call that adds `adir` checks the object it stores, and does not scan the root recursively. -/
structure ChecksItsObject (adir : AutoscanDirectory) (s : StorageState) : Prop where
  same : ∀ objectID s₁, (locationObjectID adir).run s = (.ok objectID, s₁) →
    objectID < 0 ∨ objectID = adir.objectID
  not_root : adir.recursive = true → adir.objectID ≠ cdsIdRoot

/-- An element of the persistent list that finds no autoscan is added, and is then checked. -/
structure ElementChecked (ad : AutoscanDirectory) (s : StorageState) : Prop where
  not_root : ad.recursive = true → ad.objectID ≠ cdsIdRoot
  added : ∀ objectID s₁,
    (findObjectIDByPath (ad.location ++ [dirSeparator])).run s = (.ok objectID, s₁) →
    autoscanOf ad objectID s₁.db = [] → ChecksItsObject ad s₁

/-- The call checks every object it adds an autoscan to. -/
def ChecksObjects (op : Op) (s : StorageState) : Prop :=
  match op with
  | .addAutoscanDirectory adir => ChecksItsObject adir s
  | .updateAutoscanDirectory adir => adir.recursive = true → adir.objectID ≠ cdsIdRoot
  | .updateAutoscanPersistentList scanmode list =>
    EachMeets ElementChecked list ((untouchAutoscans scanmode).run s).2
  | .removeAutoscanDirectoryByObjectID _ => True
  | .removeAutoscanDirectory _ => True
  | _ => False

section

variable {s : StorageState} {adir : AutoscanDirectory}

theorem TreeInv.add (h : TreeInv s) (hcheck : ChecksItsObject adir s) :
    TreeInv ((addAutoscanDirectory adir).run s).2 := by
  rcases addAutoscanDirectory_cases adir s with hset | ⟨objectID, pathIds, s₁, s₂, hstorage, hloc,
    hset, hover, hrun⟩
  · exact h.settles hset
  · obtain ⟨hset', hres⟩ := checkOverlapping_ok hover
    have h₂ := h.settles (hset.trans hset')
    rw [hrun]
    have hflag := sameObjects_changePersistentFlag s₂.db objectID true
    unfold Database.withAutoscan
    rcases hins : (s₂.db.changePersistentFlag objectID true).insertAutoscan? (newAutoscan adir
      objectID pathIds (s₂.db.changePersistentFlag objectID true).nextAutoscanID) with _ | db
    · refine h₂.withDB hflag (h₂.tree.mono hflag.parentOf_eq fun a ha => ?_)
      exact ⟨a, ha, rfl, rfl, rfl, rfl⟩
    · obtain ⟨hrows, hobj, hact⟩ := Database.insertAutoscan?_eq_some hins
      have hsame : SameObjects s₂.db db :=
        ⟨by rw [hobj]; exact hflag.objects, hact.trans hflag.activeItems⟩
      refine h₂.withDB hsame (.install adir
        (s₂.db.changePersistentFlag objectID true).nextAutoscanID h₂.tree h₂.rooted
        hsame.parentOf_eq fun a ha => ?_)
      rw [Option.getD_some, hrows] at ha
      rcases List.mem_append.mp ha with ha | ha
      · exact Or.inr ⟨ha, isOtherAutoscan_of_neg hstorage⟩
      · rw [List.mem_singleton] at ha
        subst ha
        refine Or.inl ⟨rfl, rfl, fun i hi => ?_, fun hrec hzero => ?_⟩
        · obtain ⟨hpos, rfl⟩ : 0 ≤ objectID ∧ objectID = i := by
            simpa [newAutoscan, objIDColumn] using hi
          have heq := (hcheck.same _ _ hloc).resolve_left (Int.not_lt.mpr hpos)
          refine ⟨heq, hpos, ?_⟩
          rcases hres with ⟨hinv, -⟩ | ⟨ids, rfl, hno⟩
          · rw [heq, hinv] at hpos
            exact absurd hpos (by decide)
          · exact ⟨ids, hno, rfl⟩
        · obtain ⟨hpos, hobj0⟩ : 0 ≤ objectID ∧ objectID = cdsIdRoot := by
            simpa [newAutoscan, objIDColumn] using hzero
          have heq := (hcheck.same _ _ hloc).resolve_left (Int.not_lt.mpr hpos)
          exact hcheck.not_root hrec (heq.symm.trans hobj0)

theorem TreeInv.update (h : TreeInv s)
    (hroot : adir.recursive = true → adir.objectID ≠ cdsIdRoot) :
    TreeInv ((updateAutoscanDirectory adir).run s).2 := by
  rcases updateAutoscanDirectory_cases adir s with hset | ⟨pathIds, s₁, hover, hrun⟩
  · exact h.settles hset
  · obtain ⟨hset, hres⟩ := checkOverlapping_ok hover
    have h₁ := h.settles hset
    rw [hrun]
    have hflag := sameObjects_movePersistentFlag adir s₁.db
    have haut := movePersistentFlag_autoscans adir s₁.db
    unfold Database.withUpdate
    rcases hupd : (s₁.db.movePersistentFlag adir).updateAutoscan? adir pathIds with _ | db
    · refine h₁.withDB hflag (h₁.tree.mono hflag.parentOf_eq fun a ha => ?_)
      rw [Option.getD_none, haut] at ha
      exact ⟨a, ha, rfl, rfl, rfl, rfl⟩
    · obtain ⟨hrows, hobj, hact⟩ := Database.updateAutoscans?_eq_some hupd
      have hsame : SameObjects s₁.db db :=
        ⟨by rw [hobj]; exact hflag.objects, hact.trans hflag.activeItems⟩
      refine h₁.withDB hsame (.install adir adir.storageID h₁.tree h₁.rooted hsame.parentOf_eq
        fun a ha => ?_)
      rw [Option.getD_some, hrows, haut] at ha
      obtain ⟨a₀, ha₀, rfl⟩ := List.mem_map.mp ha
      by_cases hid : a₀.id = adir.storageID
      · rw [if_pos hid]
        refine Or.inl ⟨hid, rfl, fun i hi => ?_, fun hrec hzero => ?_⟩
        · obtain ⟨hpos, rfl⟩ : 0 ≤ adir.objectID ∧ adir.objectID = i := by
            simpa [updatedAutoscan, objIDColumn] using hi
          refine ⟨rfl, hpos, ?_⟩
          rcases hres with ⟨hinv, -⟩ | ⟨ids, rfl, hno⟩
          · rw [hinv] at hpos
            exact absurd hpos (by decide)
          · exact ⟨ids, hno, rfl⟩
        · obtain ⟨-, hzero'⟩ : 0 ≤ adir.objectID ∧ adir.objectID = cdsIdRoot := by
            simpa [updatedAutoscan, objIDColumn] using hzero
          exact hroot hrec hzero'
      · rw [if_neg hid]
        exact Or.inr ⟨ha₀, isOtherAutoscan_of_ne hid⟩

theorem TreeInv.delete (h : TreeInv s) (p : AutoscanRow → Bool) :
    TreeInv { s with db := s.db.deleteAutoscans p } :=
  h.withDB ⟨rfl, rfl⟩ (h.tree.mono rfl fun a ha =>
    ⟨a, (List.mem_filter.mp ha).1, rfl, rfl, rfl, rfl⟩)

theorem TreeInv.changeFlag (h : TreeInv s) (objectID : Int) (persistent : Bool) :
    TreeInv { s with db := s.db.changePersistentFlag objectID persistent } := by
  have hflag := sameObjects_changePersistentFlag s.db objectID persistent
  exact h.withDB hflag (h.tree.mono hflag.parentOf_eq fun a ha => ⟨a, ha, rfl, rfl, rfl, rfl⟩)

theorem TreeInv.element (h : TreeInv s) (hcheck : ElementChecked adir s) :
    TreeInv ((updatePersistentAutoscan adir).run s).2 := by
  rcases updatePersistentAutoscan_cases adir s with hset | ⟨objectID, s₁, hloc, hset, hupd | hadd⟩
  · exact h.settles hset
  · obtain ⟨row, -, -, hrun⟩ := hupd
    rw [hrun]
    exact (h.settles hset).update hcheck.not_root
  · obtain ⟨hnil, hrun⟩ := hadd
    rw [hrun]
    exact (h.settles hset).add (hcheck.added objectID s₁ hloc hnil)

theorem TreeInv.untouch (h : TreeInv s) (scanmode : ScanMode) :
    TreeInv ((untouchAutoscans scanmode).run s).2 := by
  obtain ⟨db, hrun, hrows, hobj, hact⟩ := run_untouchAutoscans scanmode s
  rw [hrun]
  have hsame : SameObjects s.db db := ⟨by rw [hobj], hact⟩
  refine h.withDB hsame (h.tree.mono hsame.parentOf_eq fun a ha => ?_)
  rw [hrows] at ha
  obtain ⟨a₀, ha₀, rfl⟩ := List.mem_map.mp ha
  refine ⟨a₀, ha₀, ?_⟩
  split
  · exact ⟨rfl, rfl, rfl, rfl⟩
  · exact ⟨rfl, rfl, rfl, rfl⟩

/-- **Every call that checks its objects keeps the invariant.** -/
theorem TreeInv.step {op : Op} (hop : ChecksObjects op s) (h : TreeInv s) : TreeInv (op.step s) := by
  cases op with
  | addAutoscanDirectory adir =>
    rw [Op.step_addAutoscanDirectory]
    exact h.add hop
  | updateAutoscanDirectory adir =>
    rw [Op.step_updateAutoscanDirectory]
    exact h.update hop
  | removeAutoscanDirectoryByObjectID objectID =>
    rw [Op.step_removeAutoscanDirectoryByObjectID]
    rcases run_removeAutoscanDirectoryByObjectID s objectID with hrun | hrun
    · rwa [hrun]
    · rw [hrun]
      exact (h.delete _).changeFlag objectID false
  | removeAutoscanDirectory autoscanID =>
    rw [Op.step_removeAutoscanDirectory]
    rcases run_removeAutoscanDirectory s autoscanID with hrun | hrun
    · rwa [hrun]
    · rw [hrun]
      simp only
      split
      · exact (h.delete _).changeFlag _ false
      · exact h.delete _
  | updateAutoscanPersistentList scanmode list =>
    rw [Op.step_updateAutoscanPersistentList]
    have hlist := updatePersistentAutoscans_inv (fun ad s hP hI => TreeInv.element hI hP) list _ hop
      (h.untouch scanmode)
    obtain ⟨db, hrun, -⟩ := run_untouchAutoscans scanmode s
    unfold updateAutoscanPersistentList
    rw [hrun] at hlist
    rw [run_bind_of_ok hrun]
    rcases hupd : (updatePersistentAutoscans list).run { s with db := db } with ⟨e | ⟨⟩, s'⟩
    · rw [run_bind_of_error hupd]
      rwa [hupd] at hlist
    · rw [run_bind_of_ok hupd]
      rw [hupd] at hlist
      exact hlist.delete _
  | _ => exact hop.elim

end

/-! ## Runs -/

/-- No two autoscans are on one object, and none is below a recursive one. -/
def AutoscansApart (db : Database) : Prop :=
  ∀ a ∈ db.autoscans.rows, ∀ b ∈ db.autoscans.rows, a.id ≠ b.id → ∀ i ∈ a.objID, ∀ j ∈ b.objID,
    i ≠ j ∧ (a.recursive = true → ¬ Lib.Ancestor db.parentOf i j)

/-- **Autoscans stay apart**, in every run whose calls check the objects they add. -/
theorem autoscans_apart (s₀ : StorageState) (ops : List Op) (htree : RootedTree s₀.db)
    (hfixed : s₀.bufferedRows = []) (hempty : s₀.db.autoscans.rows = [])
    (hops : EveryStep ChecksObjects ops s₀) : AutoscansApart (runOps ops s₀).db := by
  have h₀ : TreeInv s₀ := by
    refine ⟨hfixed, htree, ?_, ?_, ?_⟩
    · simp [hempty]
    · simp [hempty]
    · simp [hempty]
  have h := runOps_inv (I := TreeInv) (fun op s hP hI => hI.step hP) ops s₀ hops h₀
  intro a ha b hb hne i hi j hj
  refine ⟨fun heq => hne ?_, fun hrec => h.tree.apart a ha b hb hne hrec i hi j hj⟩
  rw [Database.autoscan_eq_of_objID_eq ha hb (Option.mem_def.mp hi)
    (heq ▸ Option.mem_def.mp hj)]

/-! ### Two directories -/

/-- The directories `/a` (2) and `/a/b` (3). -/
def twoDirStorage : StorageState :=
  runOps [.ensurePathExistence (str "/a/b")] (.started .fresh true .ok)

/-- A recursive autoscan on a directory. -/
def recursiveAutoscan (location : Str) (objectID : Int) : AutoscanDirectory where
  location := location
  mode := .timed
  level := .full
  recursive := true
  hidden := false
  persistent := false
  interval := 3600
  objectID := objectID

theorem twoDirStorage_fixed : RootedTree twoDirStorage.db ∧ twoDirStorage.bufferedRows = [] ∧
    twoDirStorage.db.autoscans.rows = [] := by
  decide +kernel

theorem autoscans_apart_twoDir :
    AutoscansApart (runOps [.addAutoscanDirectory (recursiveAutoscan (str "/a/b") 3)]
      twoDirStorage).db := by
  obtain ⟨htree, hfixed, hempty⟩ := twoDirStorage_fixed
  refine autoscans_apart twoDirStorage _ htree hfixed hempty
    ⟨⟨fun objectID s₁ hloc => Or.inr ?_, fun _ => by decide⟩, trivial⟩
  have hrun : ((locationObjectID (recursiveAutoscan (str "/a/b") 3)).run twoDirStorage).1 =
      .ok 3 := by
    decide +kernel
  rw [hloc] at hrun
  cases hrun
  rfl

/-- The second directory is added without its object id: it is not checked. -/
theorem autoscans_overlap :
    RootedTree twoDirStorage.db ∧ twoDirStorage.bufferedRows = [] ∧
      twoDirStorage.db.autoscans.rows = [] ∧
      ¬ AutoscansApart (runOps
        [.addAutoscanDirectory (recursiveAutoscan (str "/a") 2),
         .addAutoscanDirectory (recursiveAutoscan (str "/a/b") invalidObjectID)]
        twoDirStorage).db := by
  refine ⟨twoDirStorage_fixed.1, twoDirStorage_fixed.2.1, twoDirStorage_fixed.2.2, fun h => ?_⟩
  have hrows : ∃ a ∈ (runOps
        [.addAutoscanDirectory (recursiveAutoscan (str "/a") 2),
         .addAutoscanDirectory (recursiveAutoscan (str "/a/b") invalidObjectID)]
        twoDirStorage).db.autoscans.rows,
      ∃ b ∈ (runOps
        [.addAutoscanDirectory (recursiveAutoscan (str "/a") 2),
         .addAutoscanDirectory (recursiveAutoscan (str "/a/b") invalidObjectID)]
        twoDirStorage).db.autoscans.rows,
      a.id ≠ b.id ∧ a.recursive = true ∧ a.objID = some 2 ∧ b.objID = some 3 ∧
        (runOps
          [.addAutoscanDirectory (recursiveAutoscan (str "/a") 2),
           .addAutoscanDirectory (recursiveAutoscan (str "/a/b") invalidObjectID)]
          twoDirStorage).db.parentOf 3 = some 2 := by
    decide +kernel
  obtain ⟨a, ha, b, hb, hne, hrec, hobja, hobjb, hpar⟩ := hrows
  exact (h a ha b hb hne 2 hobja 3 hobjb).2 hrec (Relation.TransGen.single hpar)

end MediaTomb
