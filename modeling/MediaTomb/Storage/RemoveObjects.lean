/-
  What `_removeObjects` does to the three tables.

  One call is one relational step (`Database.removeObjects`): the objects with the given ids go, the
  active items of them, and the autoscans on them that are NOT persistent.  A persistent autoscan on
  a removed object was meant to survive without its object and with the object's location; the
  statement that would do it never reaches the database, so the autoscan keeps naming an object that
  is gone.
-/
import MediaTomb.Storage.Ops

namespace MediaTomb

open Lib.Prog

/-! ## One relational step -/

/-- Is `a` an autoscan that goes with the objects `ids`? -/
def autoscanGoes (ids : List Int) (db : Database) (a : AutoscanRow) : Bool :=
  !a.persistent && match a.objID with
    | none => false
    | some objID => objID ∈ ids && (db.objects.find? objID).isSome

/-- The tables after `_removeObjects(ids)`. -/
def Database.removeObjects (ids : List Int) (db : Database) : Database :=
  ((db.deleteAutoscans (autoscanGoes ids db)).deleteActiveItems fun r => r.id ∈ ids).deleteObjects
    fun r => r.id ∈ ids

section

variable {ids : List Int} {db : Database}

@[simp] theorem Database.mem_removeObjects {r : ObjectRow} :
    r ∈ (db.removeObjects ids).objects.rows ↔ r ∈ db.objects.rows ∧ r.id ∉ ids := by
  simp [Database.removeObjects, Database.deleteObjects, Database.deleteActiveItems,
    Database.deleteAutoscans]

@[simp] theorem Database.mem_removeObjects_autoscans {a : AutoscanRow} :
    a ∈ (db.removeObjects ids).autoscans.rows ↔
      a ∈ db.autoscans.rows ∧ autoscanGoes ids db a = false := by
  simp [Database.removeObjects, Database.deleteObjects, Database.deleteActiveItems,
    Database.deleteAutoscans]

theorem Database.mem_removeObjects_activeItems {r : ActiveItemRow} :
    r ∈ (db.removeObjects ids).activeItems.rows ↔ r ∈ db.activeItems.rows ∧ r.id ∉ ids := by
  simp [Database.removeObjects, Database.deleteObjects, Database.deleteActiveItems,
    Database.deleteAutoscans]

@[simp] theorem Database.removeObjects_nil : db.removeObjects [] = db := by
  refine Database.ext ?_ ?_ ?_
  · exact Lib.Table.delete_eq_self fun r _ => decide_eq_false (List.not_mem_nil)
  · exact Lib.Table.delete_eq_self fun r _ => decide_eq_false (List.not_mem_nil)
  · refine Lib.Table.delete_eq_self fun a _ => ?_
    unfold autoscanGoes
    rcases a.objID with _ | i <;> simp

/-- The ids the source collects are those of the autoscans that go. -/
theorem mem_deleteAs {a : AutoscanRow} (ha : a ∈ db.autoscans.rows) :
    a.id ∈ ((relevantAutoscans ids db).filter fun a => !a.persistent).map AutoscanRow.id ↔
      autoscanGoes ids db a = true := by
  rw [List.mem_map]
  constructor
  · rintro ⟨a', ha', hid⟩
    have hmem := List.mem_filter.mp ha'
    have hrel := List.mem_filter.mp hmem.1
    have heq := db.autoscans.eq_of_key_eq hrel.1 ha hid
    subst heq
    unfold autoscanGoes
    rw [Bool.and_eq_true]
    exact ⟨hmem.2, hrel.2⟩
  · intro h
    unfold autoscanGoes at h
    rw [Bool.and_eq_true] at h
    exact ⟨a, List.mem_filter.mpr ⟨List.mem_filter.mpr ⟨ha, h.2⟩, h.1⟩, rfl⟩

end

/-- **`_removeObjects` is one relational step**, and it always returns. -/
theorem run_removeObjects_ (ids : List Int) (s : StorageState) :
    (removeObjects_ ids).run s = (.ok (), { s with db := s.db.removeObjects ids }) := by
  have hdel : ∀ db : Database, db.deleteAutoscans (fun a =>
        a.id ∈ ((relevantAutoscans ids db).filter fun a => !a.persistent).map AutoscanRow.id) =
      db.deleteAutoscans (autoscanGoes ids db) := by
    intro db
    refine Database.deleteAutoscans_congr fun a ha => ?_
    rw [Bool.eq_iff_iff, decide_eq_true_iff]
    exact mem_deleteAs ha
  by_cases hne :
      ((relevantAutoscans ids s.db).filter fun a => !a.persistent).map AutoscanRow.id = []
  · -- nothing to delete: the statement is skipped, and would have deleted nothing
    have hnone : s.db.deleteAutoscans (autoscanGoes ids s.db) = s.db := by
      refine Database.deleteAutoscans_eq_self fun a ha => ?_
      rw [← Bool.not_eq_true, ← mem_deleteAs ha, hne]
      exact List.not_mem_nil
    simp only [removeObjects_, select, exec, run_read_bind, hne, ne_eq, not_true_eq_false,
      if_false, run_modify_bind, run_modify, Database.removeObjects, hnone]
  · simp only [removeObjects_, select, exec, run_read_bind, ne_eq, hne, not_false_eq_true, if_true,
      run_modify_bind, run_modify, Database.removeObjects, hdel]

/-! ## Autoscans on removed objects -/

/-- The location of a removed directory, without its prefix. -/
def removedLocation (db : Database) (objID : Int) : Option Str :=
  (stripLocationPrefix ((db.objects.find? objID).bind ObjectRow.location)).2

/-- The autoscan table `db'` follows the removal of the objects `ids` from `db`. -/
structure AutoscansFollow (ids : List Int) (db db' : Database) : Prop where
  none_left : ∀ a ∈ db'.autoscans.rows, ∀ i ∈ ids, a.objID ≠ some i
  deleted : ∀ a ∈ db.autoscans.rows, ∀ i ∈ ids, a.objID = some i → a.persistent = false →
    ∀ a' ∈ db'.autoscans.rows, a'.id ≠ a.id
  kept : ∀ a ∈ db.autoscans.rows, ∀ i ∈ ids, a.objID = some i → a.persistent = true →
    { a with objID := none, location := removedLocation db i } ∈ db'.autoscans.rows
  others : ∀ a ∈ db.autoscans.rows, (∀ i ∈ ids, a.objID ≠ some i) → a ∈ db'.autoscans.rows
  nothing_new : ∀ a' ∈ db'.autoscans.rows, ∃ a ∈ db.autoscans.rows, a.id = a'.id

/-- Every autoscan that has an object names one in the table. -/
def AutoscansOnObjects (db : Database) : Prop :=
  ∀ a ∈ db.autoscans.rows, ∀ i ∈ a.objID, ∃ r ∈ db.objects.rows, r.id = i

instance (db : Database) : Decidable (AutoscansOnObjects db) := by
  unfold AutoscansOnObjects
  infer_instance

section

variable {ids : List Int} {db : Database}

/-- On a table where every autoscan is on an object, exactly the autoscans that are not persistent
    and on one of `ids` go. -/
theorem autoscanGoes_iff (hobj : AutoscansOnObjects db) {a : AutoscanRow}
    (ha : a ∈ db.autoscans.rows) :
    autoscanGoes ids db a = true ↔ a.persistent = false ∧ ∃ i ∈ ids, a.objID = some i := by
  unfold autoscanGoes
  rcases ho : a.objID with _ | i
  · simp
  · obtain ⟨r, hr, hri⟩ := hobj a ha i ho
    have hf := Lib.Table.find?_eq_some.mpr ⟨hr, hri⟩
    simp [hf]

/-- A persistent autoscan on a removed object stays as it is. -/
theorem persistent_stays {a : AutoscanRow} (ha : a ∈ db.autoscans.rows)
    (hp : a.persistent = true) : a ∈ (db.removeObjects ids).autoscans.rows := by
  refine Database.mem_removeObjects_autoscans.mpr ⟨ha, ?_⟩
  unfold autoscanGoes
  rw [hp]
  rfl

end

/-- **Exactly when `_removeObjects` keeps the autoscan table in step**: when none of the autoscans
    on the removed objects is persistent. -/
theorem removeObjects_autoscans_iff (ids : List Int) (s : StorageState)
    (hobj : AutoscansOnObjects s.db) :
    AutoscansFollow ids s.db ((removeObjects_ ids).run s).2.db ↔
      ∀ a ∈ s.db.autoscans.rows, ∀ i ∈ ids, a.objID = some i → a.persistent = false := by
  rw [run_removeObjects_]
  constructor
  · intro h a ha i hi ho
    by_contra hp
    rw [Bool.not_eq_false] at hp
    exact h.none_left a (persistent_stays ha hp) i hi ho
  · intro h
    refine ⟨?_, ?_, ?_, ?_, ?_⟩
    · intro a ha i hi ho
      obtain ⟨hmem, hgoes⟩ := Database.mem_removeObjects_autoscans.mp ha
      have hyes := (autoscanGoes_iff hobj hmem).mpr ⟨h a hmem i hi ho, i, hi, ho⟩
      rw [hgoes] at hyes
      cases hyes
    · intro a ha i hi ho hp a' ha' hid
      obtain ⟨hmem, hgoes⟩ := Database.mem_removeObjects_autoscans.mp ha'
      have heq := s.db.autoscans.eq_of_key_eq hmem ha hid
      subst heq
      have hyes := (autoscanGoes_iff hobj hmem).mpr ⟨hp, i, hi, ho⟩
      rw [hgoes] at hyes
      cases hyes
    · intro a ha i hi ho hp
      rw [h a ha i hi ho] at hp
      cases hp
    · intro a ha hno
      refine Database.mem_removeObjects_autoscans.mpr ⟨ha, ?_⟩
      by_contra hgoes
      rw [Bool.not_eq_false] at hgoes
      obtain ⟨-, i, hi, ho⟩ := (autoscanGoes_iff hobj ha).mp hgoes
      exact hno i hi ho
    · intro a' ha'
      exact ⟨a', (Database.mem_removeObjects_autoscans.mp ha').1, rfl⟩

/-! ### One persistent autoscan -/

/-- The directory `/a`, and a persistent autoscan on it. -/
def persistentAutoscanStorage : StorageState :=
  runOps
    [.ensurePathExistence (str "/a"),
     .addAutoscanDirectory
      { location := str "/a", mode := .timed, level := .full, recursive := true, hidden := false,
        persistent := true, interval := 3600, objectID := 2 }]
    (.started .fresh true .ok)

theorem persistentAutoscanStorage_onObjects : AutoscansOnObjects persistentAutoscanStorage.db := by
  decide +kernel

/-- Removing the directory leaves its autoscan naming an object that is gone. -/
theorem removeObjects_persistent_autoscan_dangles :
    AutoscansOnObjects persistentAutoscanStorage.db ∧
      ¬ AutoscansFollow [2] persistentAutoscanStorage.db
        ((removeObjects_ [2]).run persistentAutoscanStorage).2.db := by
  refine ⟨persistentAutoscanStorage_onObjects, fun h => ?_⟩
  have hrow : ∃ a ∈ ((removeObjects_ [2]).run persistentAutoscanStorage).2.db.autoscans.rows,
      a.objID = some 2 := by
    decide +kernel
  obtain ⟨a, ha, ho⟩ := hrow
  exact h.none_left a ha 2 (List.mem_singleton.mpr rfl) ho

theorem removeObjects_autoscans_iff_root :
    AutoscansFollow [1] persistentAutoscanStorage.db
        ((removeObjects_ [1]).run persistentAutoscanStorage).2.db ↔
      ∀ a ∈ persistentAutoscanStorage.db.autoscans.rows, ∀ i ∈ [(1 : Int)], a.objID = some i →
        a.persistent = false :=
  removeObjects_autoscans_iff [1] persistentAutoscanStorage persistentAutoscanStorage_onObjects

end MediaTomb
