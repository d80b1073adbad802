/-
  The persistent flag of a container follows the autoscans.

  The flag is a derived bit: a container carries it exactly when an autoscan is on it.  Adding,
  moving and removing a single autoscan keep the bit in step.  Two calls do not:
    * `updateAutoscanPersistentList` ends with a bulk DELETE of the autoscans that no element of the
      list has touched, and leaves the flags of their containers SET;
    * `updateAutoscanDirectory` with a storage id that names no row sets the flag of a container
      on which no autoscan is.
-/
import MediaTomb.Storage.AutoscanCalls

namespace MediaTomb

open Lib.Prog

/-! ## The bit -/

@[simp] theorem isPersistentContainer_set (r : ObjectRow) :
    isPersistentContainer (changePersistentFlag true r) = true := by
  unfold isPersistentContainer changePersistentFlag
  rw [if_pos rfl]
  refine decide_eq_true fun h => ?_
  have hbit := congrArg (fun flags : UInt32 => flags.toBitVec.getLsbD 3) h
  simp [objectFlagPersistentContainer] at hbit

@[simp] theorem isPersistentContainer_cleared (r : ObjectRow) :
    isPersistentContainer (changePersistentFlag false r) = false := by
  have hmask : ~~~objectFlagPersistentContainer &&& objectFlagPersistentContainer = 0 := by decide
  unfold isPersistentContainer changePersistentFlag
  rw [if_neg Bool.false_ne_true]
  refine decide_eq_false (not_not.mpr ?_)
  show r.flags &&& ~~~objectFlagPersistentContainer &&& objectFlagPersistentContainer = 0
  rw [UInt32.and_assoc, hmask, UInt32.and_zero]

/-! ## Containers and their autoscans -/

/-- A container whose flag is not set by the schema. -/
structure IsOrdinaryContainer (db : Database) (r : ObjectRow) : Prop where
  mem : r ∈ db.objects.rows
  container : r.objectType = objectTypeContainer
  not_root : r.id ≠ cdsIdRoot
  not_fsRoot : r.id ≠ cdsIdFsRoot

/-- Is an autoscan on the object? -/
def HasAutoscan (db : Database) (i : Int) : Prop := ∃ a ∈ db.autoscans.rows, a.objID = some i

/-- The flag follows the autoscans. -/
def FlagsFollow (db : Database) : Prop :=
  ∀ r, IsOrdinaryContainer db r → (isPersistentContainer r = true ↔ HasAutoscan db r.id)

/-- The black hole is no container. -/
def ContainersKnown (db : Database) : Prop :=
  ∀ r ∈ db.objects.rows, r.objectType = objectTypeContainer → 0 ≤ r.id

section

variable {db db' : Database}

/-- Rows that changed in nothing but the flag of one object. -/
theorem mem_changePersistentFlag {i : Int} {persistent : Bool} {r : ObjectRow} :
    r ∈ (db.changePersistentFlag i persistent).objects.rows ↔ ∃ r₀ ∈ db.objects.rows,
      (if r₀.id = i then changePersistentFlag persistent r₀ else r₀) = r := by
  exact List.mem_map

/-- A container of the rewritten table is one of the table, with its flag rewritten. -/
theorem IsOrdinaryContainer.of_changeFlag {i : Int} {persistent : Bool} {r : ObjectRow}
    (h : IsOrdinaryContainer (db.changePersistentFlag i persistent) r) :
    ∃ r₀, IsOrdinaryContainer db r₀ ∧ r₀.id = r.id ∧ isPersistentContainer r =
      if r.id = i then persistent else isPersistentContainer r₀ := by
  obtain ⟨r₀, hr₀, rfl⟩ := mem_changePersistentFlag.mp h.mem
  have hc := h.container
  have hroot := h.not_root
  have hfs := h.not_fsRoot
  by_cases hid : r₀.id = i
  · rw [if_pos hid] at hc hroot hfs ⊢
    refine ⟨r₀, ⟨hr₀, hc, hroot, hfs⟩, rfl, ?_⟩
    rw [if_pos (show (changePersistentFlag persistent r₀).id = i from hid)]
    cases persistent
    · exact isPersistentContainer_cleared r₀
    · exact isPersistentContainer_set r₀
  · rw [if_neg hid] at hc hroot hfs ⊢
    exact ⟨r₀, ⟨hr₀, hc, hroot, hfs⟩, rfl, (if_neg hid).symm⟩

theorem ContainersKnown.changeFlag (h : ContainersKnown db) (i : Int) (persistent : Bool) :
    ContainersKnown (db.changePersistentFlag i persistent) := by
  intro r hr hc
  obtain ⟨r₀, hr₀, rfl⟩ := mem_changePersistentFlag.mp hr
  split
  · next hid =>
    rw [if_pos hid] at hc
    exact h r₀ hr₀ hc
  · next hid =>
    rw [if_neg hid] at hc
    exact h r₀ hr₀ hc

/-- **The flag of one object changes together with its autoscans.** -/
theorem FlagsFollow.change (h : FlagsFollow db) {i : Int} {persistent : Bool}
    (hobj : db'.objects = (db.changePersistentFlag i persistent).objects)
    (hself : (∃ r, IsOrdinaryContainer db r ∧ r.id = i) →
      (persistent = true ↔ HasAutoscan db' i))
    (hothers : ∀ j, 0 ≤ j → j ≠ i → (HasAutoscan db' j ↔ HasAutoscan db j))
    (hknown : ContainersKnown db) : FlagsFollow db' := by
  intro r hr
  have hr' : IsOrdinaryContainer (db.changePersistentFlag i persistent) r :=
    ⟨hobj ▸ hr.mem, hr.container, hr.not_root, hr.not_fsRoot⟩
  obtain ⟨r₀, hr₀, hid, hflag⟩ := hr'.of_changeFlag
  rw [hflag]
  by_cases heq : r.id = i
  · rw [if_pos heq, heq]
    exact hself ⟨r₀, hr₀, hid.trans heq⟩
  · rw [if_neg heq, hothers r.id (hid ▸ hknown r₀ hr₀.mem hr₀.container) heq, ← hid]
    exact h r₀ hr₀

/-- Objects as before, and autoscans on the same objects. -/
theorem FlagsFollow.same (h : FlagsFollow db) (hobj : db'.objects = db.objects)
    (haut : ∀ r, IsOrdinaryContainer db r → (HasAutoscan db' r.id ↔ HasAutoscan db r.id)) :
    FlagsFollow db' := by
  intro r hr
  have hr' : IsOrdinaryContainer db r := ⟨hobj ▸ hr.mem, hr.container, hr.not_root, hr.not_fsRoot⟩
  rw [haut r hr']
  exact h r hr'

end

/-! ## The invariant -/

structure FlagInv (s : StorageState) : Prop where
  follow : FlagsFollow s.db
  known : ContainersKnown s.db
  /-- A container is inserted at once, never buffered. -/
  stored : ∀ r ∈ s.bufferedRows, r.objectType ≠ objectTypeContainer

section

variable {s s' : StorageState} {adir : AutoscanDirectory}

theorem hasAutoscan_congr {db db' : Database} (h : db'.autoscans = db.autoscans) (i : Int) :
    HasAutoscan db' i ↔ HasAutoscan db i := by
  unfold HasAutoscan
  rw [h]

/-- No container moves into the table. -/
theorem FlagInv.container_of_settles (h : FlagInv s) (hset : Settles s s') {r : ObjectRow}
    (hr : r ∈ s'.db.objects.rows) (hc : r.objectType = objectTypeContainer) :
    r ∈ s.db.objects.rows := by
  obtain ⟨moved, hrows, hmoved⟩ := hset.objects
  rw [hrows] at hr
  rcases List.mem_append.mp hr with hr | hr
  · exact hr
  · exact absurd hc (h.stored r (hmoved r hr))

theorem FlagInv.ordinary_of_settles (h : FlagInv s) (hset : Settles s s') {r : ObjectRow}
    (hr : IsOrdinaryContainer s'.db r) : IsOrdinaryContainer s.db r :=
  ⟨h.container_of_settles hset hr.mem hr.container, hr.container, hr.not_root, hr.not_fsRoot⟩

theorem FlagInv.settles (h : FlagInv s) (hset : Settles s s') : FlagInv s' := by
  refine ⟨fun r hr => ?_, fun r hr hc => h.known r (h.container_of_settles hset hr hc) hc,
    fun r hr => h.stored r (hset.buffered r hr)⟩
  rw [hasAutoscan_congr hset.autoscans]
  exact h.follow r (h.ordinary_of_settles hset hr)

/-- `addAutoscanDirectory` sets the flag of what it puts an autoscan on. -/
theorem FlagInv.add (h : FlagInv s) : FlagInv ((addAutoscanDirectory adir).run s).2 := by
  rcases addAutoscanDirectory_cases adir s with hset | ⟨objectID, pathIds, s₁, s₂, -, -, hset,
    hover, hrun⟩
  · exact h.settles hset
  · have h₂ := h.settles (hset.trans (checkOverlapping_ok hover).1)
    rw [hrun]
    have hknown := h₂.known.changeFlag objectID true
    unfold Database.withAutoscan
    rcases hins : (s₂.db.changePersistentFlag objectID true).insertAutoscan? (newAutoscan adir
      objectID pathIds (s₂.db.changePersistentFlag objectID true).nextAutoscanID) with _ | db
    · -- the object had an autoscan, and the flag, before
      obtain ⟨b, hb, hobj, hne⟩ := Database.insertAutoscan?_eq_none rfl hins
      have hpos : 0 ≤ objectID ∧ b.objID = some objectID := by
        unfold newAutoscan objIDColumn at hobj hne
        simp only at hobj hne
        split at hobj
        · next hpos => exact ⟨hpos, hobj⟩
        · next hneg =>
          rw [if_neg hneg] at hne
          exact absurd rfl hne
      refine ⟨h₂.follow.change rfl (fun _ => ?_) (fun j _ _ => Iff.rfl) h₂.known, hknown, h₂.stored⟩
      exact ⟨fun _ => ⟨b, hb, hpos.2⟩, fun _ => rfl⟩
    · obtain ⟨hrows, hobj, -⟩ := Database.insertAutoscan?_eq_some hins
      refine ⟨h₂.follow.change hobj ?_ ?_ h₂.known, fun r hr => hknown r (hobj ▸ hr), h₂.stored⟩
      · rintro ⟨r, hr, rfl⟩
        have hpos := h₂.known r hr.mem hr.container
        refine ⟨fun _ => ⟨_, hrows ▸ List.mem_append_right _ (List.mem_singleton_self _), ?_⟩,
          fun _ => rfl⟩
        exact if_pos hpos
      · intro j hpos hne
        unfold HasAutoscan
        rw [Option.getD_some, hrows]
        constructor
        · rintro ⟨a, ha, haj⟩
          rcases List.mem_append.mp ha with ha | ha
          · exact ⟨a, ha, haj⟩
          · rw [List.mem_singleton] at ha
            subst ha
            obtain ⟨-, heq⟩ : 0 ≤ objectID ∧ objectID = j := by
              simpa [newAutoscan, objIDColumn] using haj
            exact absurd heq.symm hne
        · rintro ⟨a, ha, haj⟩
          exact ⟨a, List.mem_append_left _ ha, haj⟩

/-! ## Updating one autoscan -/

/-- The autoscan that `updateAutoscanDirectory` updates is there, or the object it would put it on
    is no ordinary container. -/
def UpdatesRow (adir : AutoscanDirectory) (db : Database) : Prop :=
  (∃ a ∈ db.autoscans.rows, a.id = adir.storageID) ∨
    ∀ r, IsOrdinaryContainer db r → r.id ≠ adir.objectID

/-- The object of a stored autoscan is what its row says. -/
theorem autoscanObjectID_of_mem {db : Database} {a : AutoscanRow} {autoscanID : Int}
    (ha : a ∈ db.autoscans.rows) (hid : a.id = autoscanID) :
    db.autoscanObjectID autoscanID = a.objID.getD invalidObjectID := by
  unfold Database.autoscanObjectID
  rw [Lib.Table.find?_eq_some.mpr ⟨ha, hid⟩]

theorem autoscanObjectID_of_absent {db : Database} {autoscanID : Int}
    (h : ∀ a ∈ db.autoscans.rows, a.id ≠ autoscanID) :
    db.autoscanObjectID autoscanID = invalidObjectID := by
  unfold Database.autoscanObjectID
  rw [Lib.Table.find?_eq_none.mpr h]

/-- An object with a stored autoscan is the one that autoscan is on. -/
theorem objID_eq_iff {db : Database} {a : AutoscanRow} {autoscanID i : Int}
    (ha : a ∈ db.autoscans.rows) (hid : a.id = autoscanID) (hpos : 0 ≤ i) :
    a.objID = some i ↔ db.autoscanObjectID autoscanID = i := by
  rw [autoscanObjectID_of_mem ha hid]
  rcases a.objID with _ | j
  · simp only [Option.getD_none, reduceCtorEq, false_iff]
    rintro rfl
    exact absurd hpos (by decide)
  · simp

/-- On which objects there are autoscans after the UPDATE. -/
theorem hasAutoscan_update {db db' : Database} {pathIds : Option (List Int)}
    (hupd : db.updateAutoscan? adir pathIds = some db') {i : Int} (hpos : 0 ≤ i) :
    HasAutoscan db' i ↔
      (i = adir.objectID ∧ ∃ a ∈ db.autoscans.rows, a.id = adir.storageID) ∨
        (HasAutoscan db i ∧ db.autoscanObjectID adir.storageID ≠ i) := by
  obtain ⟨hrows, -, -⟩ := Database.updateAutoscans?_eq_some hupd
  unfold HasAutoscan
  rw [hrows]
  constructor
  · rintro ⟨a', ha', hobj⟩
    obtain ⟨a, ha, rfl⟩ := List.mem_map.mp ha'
    by_cases hid : a.id = adir.storageID
    · rw [if_pos hid] at hobj
      obtain ⟨-, heq⟩ : 0 ≤ adir.objectID ∧ adir.objectID = i := by
        simpa [updatedAutoscan, objIDColumn] using hobj
      exact Or.inl ⟨heq.symm, a, ha, hid⟩
    · rw [if_neg hid] at hobj
      refine Or.inr ⟨⟨a, ha, hobj⟩, fun hold => ?_⟩
      -- the updated row would be on the same object
      by_cases hex : ∃ b ∈ db.autoscans.rows, b.id = adir.storageID
      · obtain ⟨b, hb, hbid⟩ := hex
        have hbobj := (objID_eq_iff hb hbid hpos).mpr hold
        exact hid ((Database.autoscan_eq_of_objID_eq ha hb hobj hbobj) ▸ hbid)
      · have habs : ∀ b ∈ db.autoscans.rows, b.id ≠ adir.storageID :=
          fun b hb hbid => hex ⟨b, hb, hbid⟩
        rw [autoscanObjectID_of_absent habs] at hold
        rw [← hold] at hpos
        exact absurd hpos (by decide)
  · rintro (⟨rfl, a, ha, hid⟩ | ⟨⟨a, ha, hobj⟩, hold⟩)
    · refine ⟨_, List.mem_map_of_mem ha, ?_⟩
      rw [if_pos hid]
      exact if_pos hpos
    · refine ⟨_, List.mem_map_of_mem ha, ?_⟩
      rw [if_neg fun hid => hold ((objID_eq_iff ha hid hpos).mp hobj)]
      exact hobj

/-- The flag of a container once `updateAutoscanDirectory` has moved it. -/
theorem IsOrdinaryContainer.of_moveFlag {db : Database} {r : ObjectRow}
    (h : IsOrdinaryContainer (db.movePersistentFlag adir) r) :
    ∃ r₀, IsOrdinaryContainer db r₀ ∧ r₀.id = r.id ∧ isPersistentContainer r =
      if db.autoscanObjectID adir.storageID = adir.objectID then isPersistentContainer r₀
      else if r.id = adir.objectID then true
      else if r.id = db.autoscanObjectID adir.storageID then false else isPersistentContainer r₀ := by
  unfold Database.movePersistentFlag at h
  split at h
  · next hne =>
    obtain ⟨r₁, hr₁, hid₁, hflag₁⟩ := h.of_changeFlag
    obtain ⟨r₀, hr₀, hid₀, hflag₀⟩ := hr₁.of_changeFlag
    refine ⟨r₀, hr₀, hid₀.trans hid₁, ?_⟩
    rw [hflag₁, hflag₀, if_neg hne, hid₁]
  · next heq => exact ⟨r, h, rfl, (if_pos (not_not.mp heq)).symm⟩

theorem ContainersKnown.moveFlag {db : Database} (h : ContainersKnown db) :
    ContainersKnown (db.movePersistentFlag adir) := by
  unfold Database.movePersistentFlag
  split
  · exact (h.changeFlag _ false).changeFlag _ true
  · exact h

/-- `updateAutoscanDirectory` moves the flag with the autoscan. -/
theorem FlagInv.update (h : FlagInv s) (hrow : UpdatesRow adir s.db) :
    FlagInv ((updateAutoscanDirectory adir).run s).2 := by
  rcases updateAutoscanDirectory_cases adir s with hset | ⟨pathIds, s₁, hover, hrun⟩
  · exact h.settles hset
  · obtain ⟨hset, hres⟩ := checkOverlapping_ok hover
    have h₁ := h.settles hset
    have haut := movePersistentFlag_autoscans adir s₁.db
    have hold : (s₁.db.movePersistentFlag adir).autoscanObjectID adir.storageID =
        s₁.db.autoscanObjectID adir.storageID := by
      unfold Database.autoscanObjectID
      rw [haut]
    -- the UPDATE does not fail: the check has found no other autoscan on the object
    obtain ⟨db, hupd⟩ : ∃ db, (s₁.db.movePersistentFlag adir).updateAutoscan? adir pathIds =
        some db := by
      refine Database.updateAutoscan?_isSome fun b hb hid i hi hobj => ?_
      obtain ⟨hpos, rfl⟩ : 0 ≤ adir.objectID ∧ adir.objectID = i := by
        simpa [objIDColumn] using hi
      rcases hres with ⟨hinv, -⟩ | ⟨ids, -, hno⟩
      · rw [hinv] at hpos
        exact absurd hpos (by decide)
      · rw [haut] at hb
        exact hno.same b ⟨hb, isOtherAutoscan_of_ne hid⟩ hobj
    obtain ⟨hrows, hobj, -⟩ := Database.updateAutoscans?_eq_some hupd
    rw [hrun]
    unfold Database.withUpdate
    rw [hupd, Option.getD_some]
    refine ⟨fun r hr => ?_, fun r hr => h₁.known.moveFlag r (hobj ▸ hr), h₁.stored⟩
    have hr' : IsOrdinaryContainer (s₁.db.movePersistentFlag adir) r :=
      ⟨hobj ▸ hr.mem, hr.container, hr.not_root, hr.not_fsRoot⟩
    obtain ⟨r₀, hr₀, hid, hflag⟩ := hr'.of_moveFlag
    have hpos := h₁.known r₀ hr₀.mem hr₀.container
    rw [hid] at hpos
    have hfollow := h₁.follow r₀ hr₀
    rw [hid] at hfollow
    rw [hasAutoscan_update hupd hpos, hasAutoscan_congr haut, haut, hold, hflag]
    by_cases hnew : r.id = adir.objectID
    · -- the row that is updated is there
      have hex : ∃ a ∈ s₁.db.autoscans.rows, a.id = adir.storageID := by
        rcases hrow with hex | hno
        · rwa [hset.autoscans]
        · exact absurd (hid.trans hnew) (hno r₀ (h.ordinary_of_settles hset hr₀))
      by_cases heq : s₁.db.autoscanObjectID adir.storageID = adir.objectID
      · obtain ⟨a, ha, haid⟩ := hex
        have haobj := (objID_eq_iff ha haid hpos).mpr (heq.trans hnew.symm)
        rw [if_pos heq, hfollow]
        exact ⟨fun _ => Or.inl ⟨hnew, a, ha, haid⟩, fun _ => ⟨a, ha, haobj⟩⟩
      · rw [if_neg heq, if_pos hnew]
        exact ⟨fun _ => Or.inl ⟨hnew, hex⟩, fun _ => rfl⟩
    · rw [if_neg hnew]
      by_cases hr_old : r.id = s₁.db.autoscanObjectID adir.storageID
      · rw [if_neg fun heq => hnew (hr_old.trans heq), if_pos hr_old]
        refine ⟨fun hf => (nomatch hf), ?_⟩
        rintro (⟨hn, -⟩ | ⟨-, hne⟩)
        · exact absurd hn hnew
        · exact absurd hr_old.symm hne
      · rw [if_neg hr_old, ite_self, hfollow]
        constructor
        · exact fun hhas => Or.inr ⟨hhas, fun heq => hr_old heq.symm⟩
        · rintro (⟨hn, -⟩ | ⟨hhas, -⟩)
          · exact absurd hn hnew
          · exact hhas

/-! ## Removing autoscans -/

theorem hasAutoscan_delete {db : Database} {p : AutoscanRow → Bool} {i : Int} :
    HasAutoscan (db.deleteAutoscans p) i ↔ ∃ a ∈ db.autoscans.rows, p a = false ∧ a.objID = some i := by
  unfold HasAutoscan Database.deleteAutoscans
  simp only [Lib.Table.mem_delete, and_assoc]

theorem FlagInv.removeByObjectID (h : FlagInv s) (objectID : Int) :
    FlagInv ((removeAutoscanDirectoryByObjectID objectID).run s).2 := by
  rcases run_removeAutoscanDirectoryByObjectID s objectID with hrun | hrun
  · rwa [hrun]
  · rw [hrun]
    refine ⟨h.follow.change rfl (fun _ => ?_) (fun j _ hne => ?_) h.known,
      h.known.changeFlag objectID false, h.stored⟩
    · show false = true ↔ HasAutoscan (s.db.deleteAutoscans _) objectID
      rw [hasAutoscan_delete]
      refine ⟨fun hf => (nomatch hf), ?_⟩
      rintro ⟨a, -, hnot, hobj⟩
      exact absurd hobj (of_decide_eq_false hnot)
    · show HasAutoscan (s.db.deleteAutoscans _) j ↔ HasAutoscan s.db j
      rw [hasAutoscan_delete]
      constructor
      · rintro ⟨a, ha, -, hobj⟩
        exact ⟨a, ha, hobj⟩
      · rintro ⟨a, ha, hobj⟩
        refine ⟨a, ha, decide_eq_false ?_, hobj⟩
        rw [hobj]
        exact fun heq => hne (Option.some.inj heq)

/-- On which objects there are autoscans once one has been deleted. -/
theorem hasAutoscan_deleteID {db : Database} {autoscanID i : Int} (hpos : 0 ≤ i) :
    HasAutoscan (db.deleteAutoscans fun a => a.id = autoscanID) i ↔
      HasAutoscan db i ∧ db.autoscanObjectID autoscanID ≠ i := by
  rw [hasAutoscan_delete]
  constructor
  · rintro ⟨a, ha, hnot, hobj⟩
    refine ⟨⟨a, ha, hobj⟩, fun hold => ?_⟩
    by_cases hex : ∃ b ∈ db.autoscans.rows, b.id = autoscanID
    · obtain ⟨b, hb, hbid⟩ := hex
      have hbobj := (objID_eq_iff hb hbid hpos).mpr hold
      have heq := Database.autoscan_eq_of_objID_eq ha hb hobj hbobj
      exact of_decide_eq_false hnot (heq ▸ hbid)
    · have habs : ∀ b ∈ db.autoscans.rows, b.id ≠ autoscanID := fun b hb hbid => hex ⟨b, hb, hbid⟩
      rw [autoscanObjectID_of_absent habs] at hold
      rw [← hold] at hpos
      exact absurd hpos (by decide)
  · rintro ⟨⟨a, ha, hobj⟩, hold⟩
    refine ⟨a, ha, decide_eq_false fun hid => hold ?_, hobj⟩
    exact (objID_eq_iff ha hid hpos).mp hobj

theorem FlagInv.remove (h : FlagInv s) (autoscanID : Int) :
    FlagInv ((removeAutoscanDirectory autoscanID).run s).2 := by
  rcases run_removeAutoscanDirectory s autoscanID with hrun | hrun
  · rwa [hrun]
  · rw [hrun]
    simp only
    split
    · refine ⟨h.follow.change rfl ?_ (fun j hpos hne => ?_) h.known,
        h.known.changeFlag _ false, h.stored⟩
      · rintro ⟨r, hr, hid⟩
        have hpos := h.known r hr.mem hr.container
        show false = true ↔ HasAutoscan (s.db.deleteAutoscans _) (s.db.autoscanObjectID autoscanID)
        rw [← hid, hasAutoscan_deleteID hpos]
        exact ⟨fun hf => (nomatch hf), fun hno => absurd hid.symm hno.2⟩
      · show HasAutoscan (s.db.deleteAutoscans _) j ↔ HasAutoscan s.db j
        rw [hasAutoscan_deleteID hpos]
        exact ⟨And.left, fun hhas => ⟨hhas, fun heq => hne heq.symm⟩⟩
    · next hinv =>
      refine ⟨h.follow.same rfl fun r hr => ?_, h.known, h.stored⟩
      have hpos := h.known r hr.mem hr.container
      rw [hasAutoscan_deleteID hpos]
      refine ⟨And.left, fun hhas => ⟨hhas, fun heq => ?_⟩⟩
      rw [← heq, not_not.mp hinv] at hpos
      exact absurd hpos (by decide)

end

/-! ## The persistent list -/

/-- The ids of the ordinary containers. -/
def OrdinaryID (db : Database) (i : Int) : Prop := ∃ r, IsOrdinaryContainer db r ∧ r.id = i

/-- How far a call about one autoscan goes: the autoscans it leaves untouched were there before, and
    so were the containers. -/
structure Onward (s s' : StorageState) : Prop where
  untouched : ∀ a ∈ s'.db.autoscans.rows, a.touched = false → a ∈ s.db.autoscans.rows
  ordinary : ∀ i, OrdinaryID s'.db i → OrdinaryID s.db i

section

variable {s s' : StorageState} {ad : AutoscanDirectory}

theorem Onward.refl (s : StorageState) : Onward s s := ⟨fun _ h _ => h, fun _ h => h⟩

theorem Onward.trans {s'' : StorageState} (h : Onward s s') (h' : Onward s' s'') : Onward s s'' :=
  ⟨fun a ha ht => h.untouched a (h'.untouched a ha ht) ht, fun i hi => h.ordinary i (h'.ordinary i hi)⟩

theorem OrdinaryID.of_changeFlag {db : Database} {i j : Int} {persistent : Bool}
    (h : OrdinaryID (db.changePersistentFlag i persistent) j) : OrdinaryID db j := by
  obtain ⟨r, hr, rfl⟩ := h
  obtain ⟨r₀, hr₀, hid, -⟩ := hr.of_changeFlag
  exact ⟨r₀, hr₀, hid⟩

theorem OrdinaryID.of_moveFlag {db : Database} {j : Int}
    (h : OrdinaryID (db.movePersistentFlag ad) j) : OrdinaryID db j := by
  obtain ⟨r, hr, rfl⟩ := h
  obtain ⟨r₀, hr₀, hid, -⟩ := hr.of_moveFlag
  exact ⟨r₀, hr₀, hid⟩

theorem ordinaryID_congr {db db' : Database} (h : db'.objects = db.objects) {j : Int}
    (hj : OrdinaryID db' j) : OrdinaryID db j := by
  obtain ⟨r, hr, rfl⟩ := hj
  exact ⟨r, ⟨h ▸ hr.mem, hr.container, hr.not_root, hr.not_fsRoot⟩, rfl⟩

theorem FlagInv.onward_settles (h : FlagInv s) (hset : Settles s s') : Onward s s' := by
  refine ⟨fun a ha _ => hset.autoscans ▸ ha, ?_⟩
  rintro i ⟨r, hr, rfl⟩
  exact ⟨r, h.ordinary_of_settles hset hr, rfl⟩

/-- A new autoscan is touched. -/
theorem untouched_of_add {a : AutoscanRow}
    (ha : a ∈ ((addAutoscanDirectory ad).run s).2.db.autoscans.rows) (ht : a.touched = false) :
    a ∈ s.db.autoscans.rows := by
  rcases addAutoscanDirectory_cases ad s with hset | ⟨objectID, pathIds, s₁, s₂, -, -, hset, hover,
    hrun⟩
  · rwa [hset.autoscans] at ha
  · rw [hrun] at ha
    have hset₂ := hset.trans (checkOverlapping_ok hover).1
    rw [← hset₂.autoscans]
    unfold Database.withAutoscan at ha
    rcases hins : (s₂.db.changePersistentFlag objectID true).insertAutoscan? (newAutoscan ad objectID
      pathIds (s₂.db.changePersistentFlag objectID true).nextAutoscanID) with _ | db
    · rw [hins] at ha
      exact ha
    · obtain ⟨hrows, -, -⟩ := Database.insertAutoscan?_eq_some hins
      rw [hins, Option.getD_some, hrows] at ha
      rcases List.mem_append.mp ha with ha | ha
      · exact ha
      · rw [List.mem_singleton.mp ha] at ht
        cases ht

theorem FlagInv.onward_add (h : FlagInv s) (ad : AutoscanDirectory) :
    Onward s ((addAutoscanDirectory ad).run s).2 := by
  refine ⟨fun a ha ht => untouched_of_add ha ht, fun i hi => ?_⟩
  rcases addAutoscanDirectory_cases ad s with hset | ⟨objectID, pathIds, s₁, s₂, -, -, hset, hover,
    hrun⟩
  · exact (h.onward_settles hset).ordinary i hi
  · rw [hrun] at hi
    refine (h.onward_settles (hset.trans (checkOverlapping_ok hover).1)).ordinary i ?_
    unfold Database.withAutoscan at hi
    rcases hins : (s₂.db.changePersistentFlag objectID true).insertAutoscan? (newAutoscan ad objectID
      pathIds (s₂.db.changePersistentFlag objectID true).nextAutoscanID) with _ | db
    · rw [hins] at hi
      exact hi.of_changeFlag
    · obtain ⟨-, hobj, -⟩ := Database.insertAutoscan?_eq_some hins
      rw [hins] at hi
      exact (ordinaryID_congr hobj hi).of_changeFlag

/-- An autoscan the UPDATE leaves untouched is another one, as it was. -/
theorem untouched_of_update {db db' : Database} {pathIds : Option (List Int)}
    (hupd : db.updateAutoscan? ad pathIds = some db') {a : AutoscanRow}
    (ha : a ∈ db'.autoscans.rows) (ht : a.touched = false) :
    a ∈ db.autoscans.rows ∧ a.id ≠ ad.storageID := by
  obtain ⟨hrows, -, -⟩ := Database.updateAutoscans?_eq_some hupd
  rw [hrows] at ha
  obtain ⟨a₀, ha₀, rfl⟩ := List.mem_map.mp ha
  by_cases hid : a₀.id = ad.storageID
  · rw [if_pos hid] at ht
    cases ht
  · rw [if_neg hid]
    exact ⟨ha₀, hid⟩

theorem FlagInv.onward_update (h : FlagInv s) (ad : AutoscanDirectory) :
    Onward s ((updateAutoscanDirectory ad).run s).2 := by
  rcases updateAutoscanDirectory_cases ad s with hset | ⟨pathIds, s₁, hover, hrun⟩
  · exact h.onward_settles hset
  · rw [hrun]
    refine (h.onward_settles (checkOverlapping_ok hover).1).trans ?_
    have haut := movePersistentFlag_autoscans ad s₁.db
    unfold Database.withUpdate
    rcases hupd : (s₁.db.movePersistentFlag ad).updateAutoscan? ad pathIds with _ | db
    · refine ⟨fun a ha _ => ?_, fun i hi => OrdinaryID.of_moveFlag hi⟩
      rwa [Option.getD_none, haut] at ha
    · obtain ⟨-, hobj, -⟩ := Database.updateAutoscans?_eq_some hupd
      refine ⟨fun a ha ht => ?_, fun i hi => (ordinaryID_congr hobj hi).of_moveFlag⟩
      have hin := (untouched_of_update hupd ha ht).1
      rwa [haut] at hin

/-- An update that returns has checked, and has written. -/
theorem updateAutoscanDirectory_ok (h : (updateAutoscanDirectory ad).run s = (.ok (), s')) :
    ∃ pathIds s₁ db, (checkOverlappingAutoscans_ ad).run s = (.ok pathIds, s₁) ∧
      (s₁.db.movePersistentFlag ad).updateAutoscan? ad pathIds = some db ∧
      s' = { s₁ with db := db } := by
  unfold updateAutoscanDirectory at h
  obtain ⟨pathIds, s₁, hcheck, h⟩ := bind_ok h
  refine ⟨pathIds, s₁, ?_⟩
  rw [run_bind_of_ok (run_getAutoscanObjectID ad.storageID s₁)] at h
  have hexec : (exec? (Database.updateAutoscan? ad pathIds)).run
      { s₁ with db := s₁.db.movePersistentFlag ad } = (.ok (), s') := by
    unfold Database.movePersistentFlag
    split at h
    · next hne =>
      rw [if_pos hne]
      exact h
    · next heq =>
      rw [if_neg heq]
      exact h
  rw [run_exec?] at hexec
  simp only at hexec
  split at hexec
  · next db hupd =>
    cases hexec
    exact ⟨db, hcheck, hupd, rfl⟩
  · cases hexec

/-- **An element that stands for the autoscan of an object** leaves none untouched there. -/
theorem updatePersistentAutoscan_touches {i : Int} {s₁ : StorageState} (hpos : 0 ≤ i)
    (hloc : (findObjectIDByPath (ad.location ++ [dirSeparator])).run s = (.ok i, s₁))
    (h : (updatePersistentAutoscan ad).run s = (.ok (), s')) :
    ∀ a ∈ s'.db.autoscans.rows, a.touched = false → a.objID ≠ some i := by
  intro a ha ht hobj
  unfold updatePersistentAutoscan at h
  split at h
  · cases h
  rw [run_bind_of_ok hloc] at h
  simp only [select, run_read_bind] at h
  have hne : i ≠ invalidObjectID := by
    rintro rfl
    exact absurd hpos (by decide)
  have hof : ∀ b, b ∈ autoscanOf ad i s₁.db ↔ b ∈ s₁.db.autoscans.rows ∧ b.objID = some i := by
    intro b
    unfold autoscanOf Database.selectAutoscans
    simp only [List.mem_filter, if_neg hne, decide_eq_true_eq]
  split at h
  · next row rows hrows =>
    obtain ⟨pathIds, s₂, db, hcheck, hupd, rfl⟩ := updateAutoscanDirectory_ok h
    obtain ⟨hin, hother⟩ := untouched_of_update hupd ha ht
    rw [movePersistentFlag_autoscans, (checkOverlapping_ok hcheck).1.autoscans] at hin
    -- two autoscans on one object
    obtain ⟨hrow, hrowobj⟩ := (hof row).mp (hrows ▸ List.mem_cons_self)
    exact hother (congrArg AutoscanRow.id (Database.autoscan_eq_of_objID_eq hin hrow hobj hrowobj))
  · next hnil =>
    have hs' : ((addAutoscanDirectory ad).run s₁).2 = s' := by
      rw [← run_ignore, Op.ignore, h]
    have hin : a ∈ s₁.db.autoscans.rows := by
      rw [← hs'] at ha
      exact untouched_of_add ha ht
    have hmem := (hof a).mpr ⟨hin, hobj⟩
    rw [hnil] at hmem
    cases hmem

/-- An element of the list goes on from where the call is. -/
theorem FlagInv.element (h : FlagInv s) (ad : AutoscanDirectory) :
    FlagInv ((updatePersistentAutoscan ad).run s).2 ∧
      Onward s ((updatePersistentAutoscan ad).run s).2 := by
  rcases updatePersistentAutoscan_cases ad s with hset | ⟨objectID, s₁, hloc, hset, hupd | hadd⟩
  · exact ⟨h.settles hset, h.onward_settles hset⟩
  · obtain ⟨row, hrow, -, hrun⟩ := hupd
    rw [hrun]
    exact ⟨(h.settles hset).update (Or.inl ⟨row, hrow, rfl⟩),
      (h.onward_settles hset).trans ((h.settles hset).onward_update _)⟩
  · rw [hadd.2]
    exact ⟨(h.settles hset).add, (h.onward_settles hset).trans ((h.settles hset).onward_add ad)⟩

theorem FlagInv.elements : ∀ (list : List AutoscanDirectory) {s : StorageState}, FlagInv s →
    FlagInv ((updatePersistentAutoscans list).run s).2 ∧
      Onward s ((updatePersistentAutoscans list).run s).2 := by
  intro list
  induction list with
  | nil => exact fun h => ⟨h, .refl _⟩
  | cons ad list ih =>
    intro s h
    obtain ⟨hinv, honward⟩ := h.element ad
    unfold updatePersistentAutoscans
    rcases hrun : (updatePersistentAutoscan ad).run s with ⟨e | ⟨⟩, s'⟩
    · rw [run_bind_of_error hrun]
      rw [hrun] at hinv honward
      exact ⟨hinv, honward⟩
    · rw [run_bind_of_ok hrun]
      rw [hrun] at hinv honward
      exact ⟨(ih hinv).1, honward.trans (ih hinv).2⟩

/-- Some element of the list stands, at its turn, for the autoscan on the object `i`. -/
def StandsFor (i : Int) : List AutoscanDirectory → StorageState → Prop
  | [], _ => False
  | ad :: list, s =>
    (∃ s₁, (findObjectIDByPath (ad.location ++ [dirSeparator])).run s = (.ok i, s₁)) ∨
      ∀ s', (updatePersistentAutoscan ad).run s = (.ok (), s') → StandsFor i list s'

/-- A list that stands for the autoscan of an object leaves none untouched there. -/
theorem StandsFor.touches {i : Int} (hpos : 0 ≤ i) :
    ∀ {list : List AutoscanDirectory} {s s' : StorageState}, FlagInv s → StandsFor i list s →
      (updatePersistentAutoscans list).run s = (.ok (), s') →
        ∀ a ∈ s'.db.autoscans.rows, a.touched = false → a.objID ≠ some i := by
  intro list
  induction list with
  | nil => exact fun _ hstands => hstands.elim
  | cons ad list ih =>
    intro s s' h hstands hrun a ha ht
    unfold updatePersistentAutoscans at hrun
    obtain ⟨⟨⟩, s₁, hel, hrest⟩ := bind_ok hrun
    have h₁ := (h.element ad).1
    rw [hel] at h₁
    rcases hstands with ⟨s₂, hloc⟩ | hlater
    · have honward := (FlagInv.elements list h₁).2
      rw [hrest] at honward
      exact updatePersistentAutoscan_touches hpos hloc hel a (honward.untouched a ha ht) ht
    · exact ih h₁ (hlater s₁ hel) hrest a ha ht

/-- Every autoscan the call marks, or finds unmarked, on an ordinary container is in the list. -/
def ListsAutoscans (scanmode : ScanMode) (list : List AutoscanDirectory) (s : StorageState) : Prop :=
  ∀ a ∈ s.db.autoscans.rows, a.scanMode = scanmode → (a.persistent = true ∨ a.touched = false) →
    ∀ i ∈ a.objID, OrdinaryID s.db i → StandsFor i list ((untouchAutoscans scanmode).run s).2

/-- What the mark at the start of the call leaves. -/
structure Marked (scanmode : ScanMode) (s s₀ : StorageState) : Prop where
  inv : FlagInv s₀
  objects : s₀.db.objects = s.db.objects
  /-- An autoscan without the mark was marked now, or had been without it before. -/
  untouched : ∀ a ∈ s₀.db.autoscans.rows, a.touched = false → a.scanMode = scanmode →
    ∃ a₀ ∈ s.db.autoscans.rows, a₀.scanMode = scanmode ∧
      (a₀.persistent = true ∨ a₀.touched = false) ∧ a₀.objID = a.objID

theorem FlagInv.marked (h : FlagInv s) (scanmode : ScanMode) :
    Marked scanmode s ((untouchAutoscans scanmode).run s).2 := by
  obtain ⟨db, hrun, hrows, hobj, -⟩ := run_untouchAutoscans scanmode s
  rw [hrun]
  refine ⟨⟨h.follow.same hobj fun r _ => ?_, fun r hr => h.known r (hobj ▸ hr), h.stored⟩, hobj, ?_⟩
  · show HasAutoscan db r.id ↔ HasAutoscan s.db r.id
    unfold HasAutoscan
    rw [hrows]
    constructor
    · rintro ⟨a', ha', hi⟩
      obtain ⟨a, ha, rfl⟩ := List.mem_map.mp ha'
      refine ⟨a, ha, ?_⟩
      split at hi <;> exact hi
    · rintro ⟨a, ha, hi⟩
      refine ⟨_, List.mem_map_of_mem ha, ?_⟩
      split <;> exact hi
  · intro a ha ht hmode
    simp only [hrows] at ha
    obtain ⟨a₀, ha₀, rfl⟩ := List.mem_map.mp ha
    refine ⟨a₀, ha₀, ?_⟩
    split at ht
    · next hmarked =>
      rw [if_pos hmarked]
      rw [Bool.and_eq_true, decide_eq_true_eq] at hmarked
      exact ⟨hmarked.2, Or.inl hmarked.1, rfl⟩
    · next hnot =>
      rw [if_neg hnot] at hmode ⊢
      exact ⟨hmode, Or.inr ht, rfl⟩

/-- `updateAutoscanPersistentList` deletes no autoscan of an ordinary container. -/
theorem FlagInv.persistentList (h : FlagInv s) {scanmode : ScanMode} {list : List AutoscanDirectory}
    (hlists : ListsAutoscans scanmode list s) :
    FlagInv ((updateAutoscanPersistentList scanmode list).run s).2 := by
  obtain ⟨db, hrun, -⟩ := run_untouchAutoscans scanmode s
  have hmark := h.marked scanmode
  unfold ListsAutoscans at hlists
  unfold updateAutoscanPersistentList
  rw [run_bind_of_ok hrun]
  rw [hrun] at hmark hlists
  obtain ⟨hinv, honward⟩ := FlagInv.elements list hmark.inv
  rcases hupd : (updatePersistentAutoscans list).run { s with db := db } with ⟨e | ⟨⟩, s'⟩
  · rw [run_bind_of_error hupd]
    rwa [hupd] at hinv
  · rw [run_bind_of_ok hupd]
    rw [hupd] at hinv honward
    refine ⟨hinv.follow.same rfl fun r hr => ?_, hinv.known, hinv.stored⟩
    show HasAutoscan (s'.db.deleteAutoscans _) r.id ↔ HasAutoscan s'.db r.id
    rw [hasAutoscan_delete]
    constructor
    · rintro ⟨a, ha, -, hi⟩
      exact ⟨a, ha, hi⟩
    · rintro ⟨a, ha, hi⟩
      refine ⟨a, ha, ?_, hi⟩
      by_contra hdel
      obtain ⟨ht, hmode⟩ : a.touched = false ∧ a.scanMode = scanmode := by
        simpa using hdel
      obtain ⟨a₀, ha₀, hmode₀, hold, hobj₀⟩ :=
        hmark.untouched a (honward.untouched a ha ht) ht hmode
      have hord := ordinaryID_congr hmark.objects (honward.ordinary r.id ⟨r, hr, rfl⟩)
      have hstands := hlists a₀ ha₀ hmode₀ hold r.id (hobj₀.trans hi) hord
      exact hstands.touches (hinv.known r hr.mem hr.container) hmark.inv hupd a ha ht hi

end

/-! ## Runs -/

/-- The calls about autoscans that keep flags and autoscans together. -/
def KeepsTogether (op : Op) (s : StorageState) : Prop :=
  match op with
  | .addAutoscanDirectory _ => True
  | .updateAutoscanDirectory adir => UpdatesRow adir s.db
  | .updateAutoscanPersistentList scanmode list => ListsAutoscans scanmode list s
  | .removeAutoscanDirectoryByObjectID _ => True
  | .removeAutoscanDirectory _ => True
  | _ => False

theorem FlagInv.step {s : StorageState} {op : Op} (hop : KeepsTogether op s) (h : FlagInv s) :
    FlagInv (op.step s) := by
  cases op with
  | addAutoscanDirectory adir =>
    rw [Op.step_addAutoscanDirectory]
    exact h.add
  | updateAutoscanDirectory adir =>
    rw [Op.step_updateAutoscanDirectory]
    exact h.update hop
  | updateAutoscanPersistentList scanmode list =>
    rw [Op.step_updateAutoscanPersistentList]
    exact h.persistentList hop
  | removeAutoscanDirectoryByObjectID objectID =>
    rw [Op.step_removeAutoscanDirectoryByObjectID]
    exact h.removeByObjectID objectID
  | removeAutoscanDirectory autoscanID =>
    rw [Op.step_removeAutoscanDirectory]
    exact h.remove autoscanID
  | _ => exact hop.elim

/-- A storage without autoscans, and without the flags they set. -/
structure NoAutoscans (s : StorageState) : Prop where
  empty : s.db.autoscans.rows = []
  unset : ∀ r, IsOrdinaryContainer s.db r → isPersistentContainer r = false
  known : ContainersKnown s.db
  stored : ∀ r ∈ s.bufferedRows, r.objectType ≠ objectTypeContainer

/-- **The flags follow the autoscans**, in every run whose updates find their row and whose lists
    name the autoscans they keep. -/
theorem flags_follow_autoscans (s₀ : StorageState) (ops : List Op) (hstart : NoAutoscans s₀)
    (hops : EveryStep KeepsTogether ops s₀) : FlagsFollow (runOps ops s₀).db := by
  have h₀ : FlagInv s₀ := by
    refine ⟨fun r hr => ?_, hstart.known, hstart.stored⟩
    rw [hstart.unset r hr]
    refine ⟨fun hf => (nomatch hf), ?_⟩
    rintro ⟨a, ha, -⟩
    rw [hstart.empty] at ha
    cases ha
  exact (runOps_inv (fun op s hP hI => FlagInv.step hP hI) ops s₀ hops h₀).follow

/-! ### One persistent autoscan -/

/-- The directory `/a` (2). -/
def oneDirStorage : StorageState :=
  runOps [.ensurePathExistence (str "/a")] (.started .fresh true .ok)

/-- An autoscan of `/a` from the configuration file. -/
def persistentAutoscan : AutoscanDirectory where
  location := str "/a"
  mode := .timed
  level := .full
  recursive := false
  hidden := false
  persistent := true
  interval := 3600
  objectID := 2

theorem oneDirStorage_noAutoscans : NoAutoscans oneDirStorage := by
  have hempty : oneDirStorage.db.autoscans.rows = [] := by decide +kernel
  have hunset : ∀ r ∈ oneDirStorage.db.objects.rows, r.objectType = objectTypeContainer →
      r.id ≠ cdsIdRoot → r.id ≠ cdsIdFsRoot → isPersistentContainer r = false := by
    decide +kernel
  have hknown : ∀ r ∈ oneDirStorage.db.objects.rows, r.objectType = objectTypeContainer →
      0 ≤ r.id := by
    decide +kernel
  have hstored : ∀ r ∈ oneDirStorage.bufferedRows, r.objectType ≠ objectTypeContainer := by
    decide +kernel
  exact ⟨hempty, fun r hr => hunset r hr.mem hr.container hr.not_root hr.not_fsRoot, hknown, hstored⟩

/-- The autoscan is added, and kept by a list that names it. -/
theorem flags_follow_autoscans_listed :
    FlagsFollow (runOps [.addAutoscanDirectory persistentAutoscan,
      .updateAutoscanPersistentList .timed [persistentAutoscan]] oneDirStorage).db := by
  refine flags_follow_autoscans oneDirStorage _ oneDirStorage_noAutoscans ⟨trivial, ?_, trivial⟩
  have hobj : ∀ a ∈ ((Op.addAutoscanDirectory persistentAutoscan).step oneDirStorage).db.autoscans.rows,
      ∀ i ∈ a.objID, i = 2 := by
    decide +kernel
  have hloc : ((findObjectIDByPath (persistentAutoscan.location ++ [dirSeparator])).run
      ((untouchAutoscans .timed).run
        ((Op.addAutoscanDirectory persistentAutoscan).step oneDirStorage)).2).1 = .ok 2 := by
    decide +kernel
  intro a ha _ _ i hi _
  rw [hobj a ha i hi]
  exact Or.inl ⟨_, run_eq_of_fst hloc⟩

/-- A list without the autoscan deletes it and leaves the flag. -/
theorem flag_without_autoscan :
    NoAutoscans oneDirStorage ∧
      ¬ FlagsFollow (runOps [.addAutoscanDirectory persistentAutoscan,
        .updateAutoscanPersistentList .timed []] oneDirStorage).db := by
  refine ⟨oneDirStorage_noAutoscans, fun h => ?_⟩
  have hrow : ∃ r ∈ (runOps [.addAutoscanDirectory persistentAutoscan,
        .updateAutoscanPersistentList .timed []] oneDirStorage).db.objects.rows,
      r.objectType = objectTypeContainer ∧ r.id ≠ cdsIdRoot ∧ r.id ≠ cdsIdFsRoot ∧
        isPersistentContainer r = true := by
    decide +kernel
  have hnone : (runOps [.addAutoscanDirectory persistentAutoscan,
      .updateAutoscanPersistentList .timed []] oneDirStorage).db.autoscans.rows = [] := by
    decide +kernel
  obtain ⟨r, hr, hc, hroot, hfs, hflag⟩ := hrow
  obtain ⟨a, ha, -⟩ := (h r ⟨hr, hc, hroot, hfs⟩).mp hflag
  rw [hnone] at ha
  cases ha

end MediaTomb
