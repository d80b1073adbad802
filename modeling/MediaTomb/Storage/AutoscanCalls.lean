/-
  What a call about autoscans does to the tables.

  Each of these calls asks first (a path is looked up, overlapping autoscans are searched) and writes
  afterwards.  The asking moves buffered rows into the table and no more (`Settles`); the lemmas
  named `_cases` say once what can be written after it, and in which state that happens.
-/
import MediaTomb.Lib.Ancestry
import MediaTomb.Storage.Flush
import MediaTomb.Storage.Sections

namespace MediaTomb

open Lib.Prog

/-! ## Asking -/

/-- Between `s` and `s'` buffered rows have moved into the table. -/
structure Settles (s s' : StorageState) : Prop where
  objects : ∃ moved, s'.db.objects.rows = s.db.objects.rows ++ moved ∧
    ∀ r ∈ moved, r ∈ s.bufferedRows
  buffered : ∀ r ∈ s'.bufferedRows, r ∈ s.bufferedRows
  autoscans : s'.db.autoscans = s.db.autoscans

theorem Settles.refl (s : StorageState) : Settles s s :=
  ⟨⟨[], (List.append_nil _).symm, fun _ h => (nomatch h)⟩, fun _ h => h, rfl⟩

theorem Settles.trans {s s' s'' : StorageState} (h : Settles s s') (h' : Settles s' s'') :
    Settles s s'' := by
  obtain ⟨moved, hrows, hmoved⟩ := h.objects
  obtain ⟨moved', hrows', hmoved'⟩ := h'.objects
  refine ⟨⟨moved ++ moved', by rw [hrows', hrows, List.append_assoc], fun r hr => ?_⟩,
    fun r hr => h.buffered r (h'.buffered r hr), h'.autoscans.trans h.autoscans⟩
  rcases List.mem_append.mp hr with hr | hr
  · exact hmoved r hr
  · exact h.buffered r (hmoved' r hr)

def settling : Frame StorageState where
  rel := Settles
  refl := Settles.refl
  trans := Settles.trans

theorem settles_flush (s : StorageState) : Settles s (flushInsertBuffer.run s).2 := by
  rcases run_flushInsertBuffer s with ⟨-, hrun⟩ | ⟨db, -, hdone, hrun⟩ |
    ⟨e, db, done, rest, -, hqs, hdone, hrun⟩
  · rw [hrun]
    exact .refl s
  · rw [hrun]
    exact ⟨⟨_, hdone.objects, fun _ h => h⟩, fun _ h => (nomatch h), hdone.autoscans⟩
  · rw [hrun]
    refine ⟨⟨_, hdone.objects, fun r hr => ?_⟩, fun _ h => h, hdone.autoscans⟩
    unfold StorageState.bufferedRows
    rw [hqs, List.filterMap_append]
    exact List.mem_append_left _ hr

theorem querySections_settling : QuerySections settling.logic :=
  querySections_of_hidden
    { hidden := fun _ _ _ _ _ _ _ _ =>
        ⟨⟨[], (List.append_nil _).symm, fun _ h => (nomatch h)⟩, fun _ h => h, rfl⟩
      flush := settles_flush }

/-- A method in the frame, run. -/
theorem Settles.of_run {α : Type} {m : Storage α} (hm : Keeps settling m) {s s' : StorageState}
    {r : Except Exception α} (h : m.run s = (r, s')) : Settles s s' := by
  have hs := hm s
  rwa [h] at hs

section

variable {s s' : StorageState}

/-- With nothing buffered the table stays as it is. -/
theorem Settles.objects_eq (h : Settles s s') (hbuf : s.bufferedRows = []) :
    s'.db.objects = s.db.objects ∧ s'.bufferedRows = [] := by
  obtain ⟨moved, hrows, hmoved⟩ := h.objects
  rw [hbuf] at hmoved
  have hnil : moved = [] := List.eq_nil_iff_forall_not_mem.mpr fun r hr => nomatch hmoved r hr
  refine ⟨Lib.Table.ext ?_, List.eq_nil_iff_forall_not_mem.mpr fun r hr => ?_⟩
  · rw [hrows, hnil, List.append_nil]
  · have hin := h.buffered r hr
    rw [hbuf] at hin
    cases hin

end

/-! ## The check for overlapping autoscans -/

/-- The parent link of an object. -/
def Database.parentOf (db : Database) (i : Int) : Option Int :=
  (db.objects.find? i).map ObjectRow.parentID

/-- `getPathIDs` walks up to the root. -/
theorem pathIDsFrom_ok : ∀ (fuel : Nat) (i : Int) (s s' : StorageState) (ids : List Int),
    (pathIDsFrom fuel i).run s = (.ok ids, s') →
      s' = s ∧ Lib.Climb s.db.parentOf cdsIdRoot i ids := by
  intro fuel
  induction fuel with
  | zero =>
    intro i s s' ids h
    cases h
  | succ fuel ih =>
    intro i s s' ids h
    rw [pathIDsFrom] at h
    split at h
    · next hroot =>
      cases h
      rw [hroot]
      exact ⟨rfl, .root⟩
    · next hroot =>
      simp only [select, run_read_bind] at h
      rcases hrow : s.db.objects.find? i with _ | row
      · rw [hrow] at h
        cases h
        exact ⟨rfl, .missing hroot (by rw [Database.parentOf, hrow]; rfl)⟩
      · rw [hrow] at h
        obtain ⟨ids', s₁, hrec, hret⟩ := bind_ok h
        cases hret
        obtain ⟨rfl, hclimb⟩ := ih _ _ _ _ hrec
        exact ⟨rfl, .up hroot (by rw [Database.parentOf, hrow]; rfl) hclimb⟩

/-- An autoscan the check looks at. -/
def OtherAutoscan (adir : AutoscanDirectory) (db : Database) (a : AutoscanRow) : Prop :=
  a ∈ db.autoscans.rows ∧ isOtherAutoscan adir.storageID a = true

theorem isOtherAutoscan_of_ne {storageID : Int} {a : AutoscanRow} (h : a.id ≠ storageID) :
    isOtherAutoscan storageID a = true := by
  simp [isOtherAutoscan, h]

theorem isOtherAutoscan_of_neg {storageID : Int} {a : AutoscanRow} (h : storageID < 0) :
    isOtherAutoscan storageID a = true := by
  simp [isOtherAutoscan, h]

/-- What the check has found out when it lets `adir` pass with the path `ids`. -/
structure NoOverlap (adir : AutoscanDirectory) (ids : List Int) (db : Database) : Prop where
  path : Lib.Climb db.parentOf cdsIdRoot adir.objectID ids
  same : ∀ a, OtherAutoscan adir db a → a.objID ≠ some adir.objectID
  below : adir.recursive = true → ∀ a, OtherAutoscan adir db a →
    hasPathID adir.objectID a = false
  above : ∀ a, OtherAutoscan adir db a → a.recursive = true → ∀ i ∈ a.objID, i ∉ ids

theorem selectAutoscans_eq_nil {db : Database} {p : AutoscanRow → Bool}
    (h : db.selectAutoscans p = []) : ∀ a ∈ db.autoscans.rows, p a = false := by
  intro a ha
  have hnot := List.filter_eq_nil_iff.mp h a ha
  rwa [Bool.not_eq_true] at hnot

theorem throwOverlap_not_ok {α : Type} {objectID : Int} {e : Option Str → Exception}
    {s s' : StorageState} {a : α} : (throwOverlap objectID e).run s ≠ (.ok a, s') := by
  intro h
  obtain ⟨obj, s₁, -, h⟩ := bind_ok h
  cases h

theorem getPathIDs_ok {i : Int} {s s' : StorageState} {ids : List Int}
    (h : (getPathIDs i).run s = (.ok (some ids), s')) :
    Lib.Climb s'.db.parentOf cdsIdRoot i ids := by
  obtain ⟨-, s₁, -, h⟩ := bind_ok h
  split at h
  · cases h
  · simp only [select, run_read_bind] at h
    obtain ⟨ids', s₂, hids, hret⟩ := bind_ok h
    obtain ⟨rfl, hclimb⟩ := pathIDsFrom_ok _ _ _ _ _ hids
    cases hret
    exact hclimb

theorem checkAbove_ok {objectID storageID : Int} {s s' : StorageState} {res : Option (List Int)}
    (h : (checkAbove objectID storageID).run s = (.ok res, s')) :
    ∃ ids, res = some ids ∧ Lib.Climb s'.db.parentOf cdsIdRoot objectID ids ∧
      ∀ a ∈ s'.db.autoscans.rows, isOtherAutoscan storageID a = true → a.recursive = true →
        ∀ i ∈ a.objID, i ∉ ids := by
  obtain ⟨found, s₁, hpath, h⟩ := bind_ok h
  rcases found with _ | ids
  · cases h
  · have hclimb := getPathIDs_ok hpath
    simp only [select, run_read_bind] at h
    split at h
    · next hnil =>
      cases h
      refine ⟨ids, rfl, hclimb, fun a ha hother hrec i hi hin => ?_⟩
      have hnot := selectAutoscans_eq_nil hnil a ha
      rw [Option.mem_def.mp hi] at hnot
      simp [hin, hrec, hother] at hnot
    · exact absurd h throwOverlap_not_ok

theorem checkBelow_ok {objectID storageID : Int} {recursive : Bool} {s s' : StorageState}
    {res : Option (List Int)}
    (h : (checkBelow objectID storageID recursive).run s = (.ok res, s')) :
    (checkAbove objectID storageID).run s = (.ok res, s') ∧
      (recursive = true → ∀ a ∈ s.db.autoscans.rows, isOtherAutoscan storageID a = true →
        hasPathID objectID a = false) := by
  unfold checkBelow at h
  split at h
  · simp only [select, run_read_bind] at h
    split at h
    · exact absurd h throwOverlap_not_ok
    · next hnil =>
      refine ⟨h, fun _ a ha hother => ?_⟩
      have hnot := selectAutoscans_eq_nil hnil a ha
      rwa [hother, Bool.and_true] at hnot
  · next hrec => exact ⟨h, fun hr => absurd hr hrec⟩

/-- **What a check that passes has found out.** -/
theorem checkOverlapping_ok {adir : AutoscanDirectory} {s s' : StorageState}
    {res : Option (List Int)} (h : (checkOverlappingAutoscans_ adir).run s = (.ok res, s')) :
    Settles s s' ∧ (adir.objectID = invalidObjectID ∧ res = none ∨
      ∃ ids, res = some ids ∧ NoOverlap adir ids s'.db) := by
  have hset := Settles.of_run (holds_checkOverlappingAutoscans querySections_settling adir) h
  refine ⟨hset, ?_⟩
  unfold checkOverlappingAutoscans_ at h
  simp only at h
  split at h
  · next hinv =>
    cases h
    exact Or.inl ⟨hinv, rfl⟩
  · refine Or.inr ?_
    simp only [select, run_read_bind] at h
    split at h
    · exact absurd h throwOverlap_not_ok
    · next hnil =>
      obtain ⟨habove, hbelow⟩ := checkBelow_ok h
      obtain ⟨ids, hres, hclimb, hrec⟩ := checkAbove_ok habove
      refine ⟨ids, hres, hclimb, ?_, ?_, fun a ha => hrec a ha.1 ha.2⟩
      · rintro a ⟨ha, hother⟩ hobj
        rw [hset.autoscans] at ha
        have hnot := selectAutoscans_eq_nil hnil a ha
        simp [hobj, hother] at hnot
      · rintro hr a ⟨ha, hother⟩
        rw [hset.autoscans] at ha
        exact hbelow hr a ha hother

/-! ## What is written -/

/-- The tables after the INSERT of `addAutoscanDirectory`, or before it where it fails. -/
def Database.withAutoscan (adir : AutoscanDirectory) (objectID : Int) (pathIds : Option (List Int))
    (db : Database) : Database :=
  (db.insertAutoscan? (newAutoscan adir objectID pathIds db.nextAutoscanID)).getD db

/-- The object of a stored autoscan. -/
def Database.autoscanObjectID (autoscanID : Int) (db : Database) : Int :=
  match db.autoscans.find? autoscanID with
  | some row => row.objID.getD invalidObjectID
  | none => invalidObjectID

/-- The UPDATE fails only where another autoscan is on the object. -/
theorem Database.updateAutoscan?_isSome {adir : AutoscanDirectory} {pathIds : Option (List Int)}
    {db : Database} (h : ∀ b ∈ db.autoscans.rows, b.id ≠ adir.storageID →
      ∀ i ∈ objIDColumn adir.objectID, b.objID ≠ some i) :
    ∃ db', db.updateAutoscan? adir pathIds = some db' := by
  have hids := List.pairwise_map.mp db.autoscans.nodup
  have hobjs := List.pairwise_filterMap.mp db.autoscan_obj_id
  unfold Database.updateAutoscan? Database.updateAutoscans? Database.withAutoscans?
  refine ⟨_, dif_pos ?_⟩
  show ((db.autoscans.rows.map _).filterMap AutoscanRow.objID).Nodup
  rw [List.filterMap_map]
  refine List.pairwise_filterMap.mpr ((hids.and hobjs).imp_of_mem ?_)
  rintro a b ha hb ⟨hid, hobj⟩ i hi j hj heq
  simp only [Function.comp] at hi hj
  -- at most one of the two rows is rewritten
  by_cases ha' : a.id = adir.storageID
  · rw [if_pos ha'] at hi
    rw [if_neg fun hb' => hid (ha'.trans hb'.symm)] at hj
    exact h b hb (fun hb' => hid (ha'.trans hb'.symm)) i hi (heq ▸ hj)
  · rw [if_neg ha'] at hi
    by_cases hb' : b.id = adir.storageID
    · rw [if_pos hb'] at hj
      exact h a ha ha' j hj (heq ▸ hi)
    · rw [if_neg hb'] at hj
      exact hobj i hi j hj heq

theorem run_getAutoscanObjectID (autoscanID : Int) (s : StorageState) :
    (getAutoscanObjectID_ autoscanID).run s = (.ok (s.db.autoscanObjectID autoscanID), s) := by
  unfold getAutoscanObjectID_ Database.autoscanObjectID
  rw [select, run_read_bind]
  rcases s.db.autoscans.find? autoscanID with _ | row
  · rfl
  · rfl

/-- The tables once `updateAutoscanDirectory` has moved the flag. -/
def Database.movePersistentFlag (adir : AutoscanDirectory) (db : Database) : Database :=
  if db.autoscanObjectID adir.storageID ≠ adir.objectID then
    (db.changePersistentFlag (db.autoscanObjectID adir.storageID) false).changePersistentFlag
      adir.objectID true
  else db

theorem sameObjects_changePersistentFlag (db : Database) (objectID : Int) (persistent : Bool) :
    SameObjects db (db.changePersistentFlag objectID persistent) := by
  refine sameObjects_updateObjects fun r => ?_
  split <;> rfl

theorem sameObjects_movePersistentFlag (adir : AutoscanDirectory) (db : Database) :
    SameObjects db (db.movePersistentFlag adir) := by
  unfold Database.movePersistentFlag
  split
  · have h₁ := sameObjects_changePersistentFlag db (db.autoscanObjectID adir.storageID) false
    have h₂ := sameObjects_changePersistentFlag (db.changePersistentFlag
      (db.autoscanObjectID adir.storageID) false) adir.objectID true
    exact ⟨h₂.objects.trans h₁.objects, h₂.activeItems.trans h₁.activeItems⟩
  · exact ⟨rfl, rfl⟩

theorem movePersistentFlag_autoscans (adir : AutoscanDirectory) (db : Database) :
    (db.movePersistentFlag adir).autoscans = db.autoscans := by
  unfold Database.movePersistentFlag
  split <;> rfl

/-- The tables after the UPDATE, or before it where it fails. -/
def Database.withUpdate (adir : AutoscanDirectory) (pathIds : Option (List Int)) (db : Database) :
    Database :=
  (db.updateAutoscan? adir pathIds).getD db

section

variable (adir : AutoscanDirectory) (s : StorageState)

/-- **`addAutoscanDirectory`** writes nothing, or it sets the flag and inserts a row. -/
theorem addAutoscanDirectory_cases :
    Settles s ((addAutoscanDirectory adir).run s).2 ∨
    ∃ objectID pathIds s₁ s₂, adir.storageID < 0 ∧
      (locationObjectID adir).run s = (.ok objectID, s₁) ∧ Settles s s₁ ∧
      (checkOverlappingAutoscans_ adir).run s₁ = (.ok pathIds, s₂) ∧
      ((addAutoscanDirectory adir).run s).2 = { s₂ with
        db := (s₂.db.changePersistentFlag objectID true).withAutoscan adir objectID pathIds } := by
  unfold addAutoscanDirectory
  split
  · exact Or.inl (.refl s)
  · next hstorage =>
    rcases hloc : (locationObjectID adir).run s with ⟨e | objectID, s₁⟩
    · rw [run_bind_of_error hloc]
      exact Or.inl (.of_run (holds_locationObjectID querySections_settling adir) hloc)
    · rw [run_bind_of_ok hloc]
      have hset := Settles.of_run (holds_locationObjectID querySections_settling adir) hloc
      split
      · exact Or.inl hset
      · rcases hcheck : (checkOverlappingAutoscans_ adir).run s₁ with ⟨e | pathIds, s₂⟩
        · rw [run_bind_of_error hcheck]
          exact Or.inl (hset.trans
            (.of_run (holds_checkOverlappingAutoscans querySections_settling adir) hcheck))
        · refine Or.inr ⟨objectID, pathIds, s₁, s₂, Int.not_le.mp hstorage, rfl, hset, hcheck, ?_⟩
          rw [run_bind_of_ok hcheck]
          simp only [autoscanChangePersistentFlag_, exec, run_modify_bind, execInsertAutoscan,
            run_locked, run_get_bind, Database.withAutoscan]
          split
          · next db hins =>
            rw [run_modify_bind, run_pure, hins]
            rfl
          · next hins =>
            rw [run_throw, hins]
            rfl

/-- **`updateAutoscanDirectory`** writes nothing, or it moves the flag and updates a row. -/
theorem updateAutoscanDirectory_cases :
    Settles s ((updateAutoscanDirectory adir).run s).2 ∨
    ∃ pathIds s₁, (checkOverlappingAutoscans_ adir).run s = (.ok pathIds, s₁) ∧
      ((updateAutoscanDirectory adir).run s).2 =
        { s₁ with db := (s₁.db.movePersistentFlag adir).withUpdate adir pathIds } := by
  unfold updateAutoscanDirectory
  rcases hcheck : (checkOverlappingAutoscans_ adir).run s with ⟨e | pathIds, s₁⟩
  · rw [run_bind_of_error hcheck]
    exact Or.inl (.of_run (holds_checkOverlappingAutoscans querySections_settling adir) hcheck)
  · refine Or.inr ⟨pathIds, s₁, rfl, ?_⟩
    have hexec : ∀ s : StorageState,
        ((exec? (Database.updateAutoscan? adir pathIds)).run s).2 =
          { s with db := s.db.withUpdate adir pathIds } := by
      intro s
      rw [run_exec?, Database.withUpdate]
      split
      · next db hupd =>
        rw [hupd]
        rfl
      · next hupd =>
        rw [hupd]
        rfl
    rw [run_bind_of_ok hcheck, run_bind_of_ok (run_getAutoscanObjectID adir.storageID s₁)]
    unfold Database.movePersistentFlag
    split
    · simp only [autoscanChangePersistentFlag_, exec, run_modify_bind, hexec]
    · simp only [hexec]

theorem run_removeAutoscanDirectoryByObjectID (objectID : Int) :
    ((removeAutoscanDirectoryByObjectID objectID).run s).2 = s ∨
      ((removeAutoscanDirectoryByObjectID objectID).run s).2 =
        { s with
          db := (s.db.deleteAutoscans fun a => a.objID = some objectID).changePersistentFlag
            objectID false } := by
  unfold removeAutoscanDirectoryByObjectID
  split
  · exact Or.inl rfl
  · exact Or.inr rfl

theorem run_removeAutoscanDirectory (autoscanID : Int) :
    ((removeAutoscanDirectory autoscanID).run s).2 = s ∨
    ((removeAutoscanDirectory autoscanID).run s).2 =
      let db := s.db.deleteAutoscans fun a => a.id = autoscanID
      let objectID := s.db.autoscanObjectID autoscanID
      { s with
        db := if objectID ≠ invalidObjectID then db.changePersistentFlag objectID false else db } := by
  unfold removeAutoscanDirectory
  split
  · exact Or.inl rfl
  · refine Or.inr ?_
    rw [run_bind_of_ok (run_getAutoscanObjectID autoscanID s)]
    simp only [exec, run_modify_bind]
    split
    · rfl
    · rfl

/-- **An element of the persistent list** is ignored, updates the autoscan it stands for, or adds
    one. -/
theorem updatePersistentAutoscan_cases :
    Settles s ((updatePersistentAutoscan adir).run s).2 ∨
    ∃ objectID s₁, (findObjectIDByPath (adir.location ++ [dirSeparator])).run s = (.ok objectID, s₁) ∧
      Settles s s₁ ∧
      ((∃ row ∈ s₁.db.autoscans.rows, row ∈ autoscanOf adir objectID s₁.db ∧
          (updatePersistentAutoscan adir).run s =
            (updateAutoscanDirectory { adir with storageID := row.id }).run s₁) ∨
        autoscanOf adir objectID s₁.db = [] ∧
          ((updatePersistentAutoscan adir).run s).2 = ((addAutoscanDirectory adir).run s₁).2) := by
  unfold updatePersistentAutoscan
  split
  · exact Or.inl (.refl s)
  · rcases hloc : (findObjectIDByPath (adir.location ++ [dirSeparator])).run s with ⟨e | objectID, s₁⟩
    · rw [run_bind_of_error hloc]
      exact Or.inl (.of_run (holds_findObjectIDByPath querySections_settling _) hloc)
    · rw [run_bind_of_ok hloc]
      refine Or.inr ⟨objectID, s₁, rfl,
        .of_run (holds_findObjectIDByPath querySections_settling _) hloc, ?_⟩
      simp only [select, run_read_bind]
      split
      · next row rows hrows =>
        have hin : row ∈ autoscanOf adir objectID s₁.db := hrows ▸ List.mem_cons_self
        exact Or.inl ⟨row, (List.mem_filter.mp hin).1, hin, rfl⟩
      · next hrows => exact Or.inr ⟨hrows, run_ignore _ s₁⟩

end

/-! ## The persistent list -/

/-- Every element of the list meets `P` in the state in which its turn comes. -/
def EachMeets (P : AutoscanDirectory → StorageState → Prop) :
    List AutoscanDirectory → StorageState → Prop
  | [], _ => True
  | ad :: list, s => P ad s ∧
    ∀ s', (updatePersistentAutoscan ad).run s = (.ok (), s') → EachMeets P list s'

/-- **List rule.** -/
theorem updatePersistentAutoscans_inv {I : StorageState → Prop}
    {P : AutoscanDirectory → StorageState → Prop}
    (hstep : ∀ ad s, P ad s → I s → I ((updatePersistentAutoscan ad).run s).2) :
    ∀ list s, EachMeets P list s → I s → I ((updatePersistentAutoscans list).run s).2 := by
  intro list
  induction list with
  | nil => exact fun s _ hI => hI
  | cons ad list ih =>
    rintro s ⟨hP, hrest⟩ hI
    have hI' := hstep ad s hP hI
    unfold updatePersistentAutoscans
    rcases hrun : (updatePersistentAutoscan ad).run s with ⟨e | ⟨⟩, s'⟩
    · rw [run_bind_of_error hrun]
      rw [hrun] at hI'
      exact hI'
    · rw [run_bind_of_ok hrun]
      rw [hrun] at hI'
      exact ih s' (hrest s' hrun) hI'

/-- The statement at the start of `updateAutoscanPersistentList` cannot fail. -/
theorem run_untouchAutoscans (scanmode : ScanMode) (s : StorageState) :
    ∃ db, (untouchAutoscans scanmode).run s = (.ok (), { s with db := db }) ∧
      db.autoscans.rows = s.db.autoscans.rows.map (fun a =>
        if a.persistent && a.scanMode = scanmode then { a with touched := false } else a) ∧
      db.objects = s.db.objects ∧ db.activeItems = s.db.activeItems := by
  unfold untouchAutoscans
  rw [run_exec?]
  split
  · next db hupd => exact ⟨db, rfl, Database.updateAutoscans?_eq_some hupd⟩
  · next hupd =>
    -- the objects are untouched, so the UNIQUE index is
    exfalso
    unfold Database.updateAutoscans? Database.withAutoscans? at hupd
    split at hupd
    · cases hupd
    · next hdup =>
      refine hdup ?_
      show ((s.db.autoscans.rows.map _).filterMap AutoscanRow.objID).Nodup
      rw [List.filterMap_map]
      have hsame : ∀ a ∈ s.db.autoscans.rows, (AutoscanRow.objID ∘ fun a : AutoscanRow =>
          if a.persistent && a.scanMode = scanmode then { a with touched := false } else a) a =
            a.objID := by
        intro a _
        simp only [Function.comp]
        split <;> rfl
      rw [List.filterMap_congr hsame]
      exact s.db.autoscan_obj_id

/-! ## The five calls as steps -/

namespace Op

variable (s : StorageState)

theorem step_addAutoscanDirectory (adir : AutoscanDirectory) :
    (addAutoscanDirectory adir).step s = ((MediaTomb.addAutoscanDirectory adir).run s).2 :=
  run_ignore _ s

theorem step_updateAutoscanDirectory (adir : AutoscanDirectory) :
    (updateAutoscanDirectory adir).step s = ((MediaTomb.updateAutoscanDirectory adir).run s).2 :=
  run_ignore _ s

theorem step_updateAutoscanPersistentList (scanmode : ScanMode) (list : List AutoscanDirectory) :
    (updateAutoscanPersistentList scanmode list).step s =
      ((MediaTomb.updateAutoscanPersistentList scanmode list).run s).2 := run_ignore _ s

theorem step_removeAutoscanDirectoryByObjectID (objectID : Int) :
    (removeAutoscanDirectoryByObjectID objectID).step s =
      ((MediaTomb.removeAutoscanDirectoryByObjectID objectID).run s).2 := run_ignore _ s

theorem step_removeAutoscanDirectory (autoscanID : Int) :
    (removeAutoscanDirectory autoscanID).step s =
      ((MediaTomb.removeAutoscanDirectory autoscanID).run s).2 := run_ignore _ s

end Op

end MediaTomb
