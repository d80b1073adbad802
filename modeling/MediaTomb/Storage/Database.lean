/-
  The tables of the storage (`config/sqlite3.sql`) and the SQL statements run on them.

  Object ids are the primary key of the object table; the smallest one is -1, the row the schema
  itself inserts.  The autoscan table has a UNIQUE index on `obj_id`, which ignores NULLs.  Both are
  carried by the types.  The foreign keys are declared but NOT enforced, as with SQLite, so nothing
  here says that a `parent_id`, a `ref_id` or an `obj_id` names a row.

  A SELECT returns its rows in storage order.  An INSERT or UPDATE that would break a key fails.
-/
import Mathlib.Data.List.Pairwise
import MediaTomb.CdsObjects

namespace MediaTomb

/-! ## Rows -/

/-- A row of `mt_cds_object`. -/
structure ObjectRow where
  id : Int
  id_ge : cdsIdBlackhole ≤ id := by decide
  refID : Option Int := none
  parentID : Int := 0
  objectType : UInt32
  upnpClass : Option Str := none
  dcTitle : Option Str := none
  location : Option Str := none
  locationHash : Option UInt32 := none
  metadata : Option Str := none
  auxdata : Option Str := none
  resources : Option Str := none
  updateID : Int := 0
  mimeType : Option Str := none
  flags : UInt32 := 1
  trackNumber : Option Int := none
  serviceID : Option Str := none
  deriving DecidableEq

/-- An id above the root's may name a row. -/
theorem blackhole_le_new (id : {id : Int // cdsIdFsRoot < id}) : cdsIdBlackhole ≤ (id : Int) := by
  have hroots : cdsIdBlackhole ≤ cdsIdFsRoot := by decide
  exact Int.le_trans hroots (Int.le_of_lt id.property)

/-- A row of `mt_cds_active_item`. -/
structure ActiveItemRow where
  id : Int
  action : Str
  state : Str
  deriving DecidableEq

inductive ScanLevel where
  | basic
  | full
  deriving DecidableEq

inductive ScanMode where
  | timed
  | inotify
  deriving DecidableEq

/-- A row of `mt_autoscan`. -/
structure AutoscanRow where
  id : Int
  objID : Option Int
  scanLevel : ScanLevel
  scanMode : ScanMode
  recursive : Bool
  hidden : Bool
  interval : UInt32
  lastModified : Int
  persistent : Bool
  location : Option Str
  pathIDs : Option Str
  touched : Bool := true
  deriving DecidableEq

@[ext]
structure Database where
  objects : Lib.Table ObjectRow.id
  activeItems : Lib.Table ActiveItemRow.id
  autoscans : Lib.Table AutoscanRow.id
  autoscan_obj_id : (autoscans.rows.filterMap AutoscanRow.objID).Nodup

namespace Database

/-! ## Statements on the object tables -/

/-- `INSERT INTO mt_cds_object`; `none` when the id is taken. -/
def insertObject? (db : Database) (r : ObjectRow) : Option Database :=
  (db.objects.insert? r).map fun t => { db with objects := t }

/-- `INSERT INTO mt_cds_active_item`; `none` when the id is taken. -/
def insertActiveItem? (db : Database) (r : ActiveItemRow) : Option Database :=
  (db.activeItems.insert? r).map fun t => { db with activeItems := t }

/-- `UPDATE mt_cds_object SET …`, the id untouched. -/
def updateObjects (db : Database) (f : ObjectRow → ObjectRow) (hf : ∀ r, (f r).id = r.id) :
    Database :=
  { db with objects := db.objects.update f hf }

/-- `UPDATE mt_cds_active_item SET … WHERE id = …`. -/
def updateActiveItem (db : Database) (r : ActiveItemRow) : Database :=
  { db with
    activeItems := db.activeItems.update (fun r' => if r'.id = r.id then r else r') fun r' => by
      split
      · next h => exact h.symm
      · rfl }

/-- `DELETE FROM mt_cds_object WHERE …`. -/
def deleteObjects (db : Database) (p : ObjectRow → Bool) : Database :=
  { db with objects := db.objects.delete p }

/-- `DELETE FROM mt_cds_active_item WHERE …`. -/
def deleteActiveItems (db : Database) (p : ActiveItemRow → Bool) : Database :=
  { db with activeItems := db.activeItems.delete p }

/-! ## Statements on the autoscan table -/

/-- The id an INSERT without one gets: one more than the largest. -/
def nextAutoscanID (db : Database) : Int :=
  match db.autoscans.rows.map AutoscanRow.id with
  | [] => 1
  | id :: ids => ids.foldl max id + 1

theorem le_foldl_max (ids : List Int) : ∀ id, id ≤ ids.foldl max id := by
  induction ids with
  | nil => exact fun id => Int.le_refl id
  | cons a ids ih => exact fun id => Int.le_trans (Int.le_max_left id a) (ih _)

theorem mem_le_foldl_max {ids : List Int} {i : Int} (h : i ∈ ids) :
    ∀ id, i ≤ ids.foldl max id := by
  induction ids with
  | nil => cases h
  | cons a ids ih =>
    intro id
    rcases List.mem_cons.mp h with rfl | h
    · exact Int.le_trans (Int.le_max_right id i) (le_foldl_max ids _)
    · exact ih h _

/-- The generated id is larger than every id in the table. -/
theorem lt_nextAutoscanID {db : Database} {r : AutoscanRow} (h : r ∈ db.autoscans.rows) :
    r.id < db.nextAutoscanID := by
  have hm : r.id ∈ db.autoscans.rows.map AutoscanRow.id := List.mem_map_of_mem h
  unfold nextAutoscanID
  rcases hr : db.autoscans.rows.map AutoscanRow.id with _ | ⟨a, ids⟩
  · rw [hr] at hm
    cases hm
  · rw [hr] at hm
    refine Int.lt_add_one_of_le ?_
    rcases List.mem_cons.mp hm with heq | hin
    · rw [heq]
      exact le_foldl_max ids a
    · exact mem_le_foldl_max hin a

/-- Put another autoscan table in; `none` when two of its rows name the same object. -/
def withAutoscans? (db : Database) (t : Lib.Table AutoscanRow.id) : Option Database :=
  if h : (t.rows.filterMap AutoscanRow.objID).Nodup then
    some { db with autoscans := t, autoscan_obj_id := h }
  else none

/-- `INSERT INTO mt_autoscan`; fails when the object already has an autoscan. -/
def insertAutoscan? (db : Database) (r : AutoscanRow) : Option Database :=
  match db.autoscans.insert? r with
  | none => none
  | some t => db.withAutoscans? t

/-- `UPDATE mt_autoscan SET …`; fails when two rows would name the same object. -/
def updateAutoscans? (db : Database) (f : AutoscanRow → AutoscanRow)
    (hf : ∀ r, (f r).id = r.id) : Option Database :=
  db.withAutoscans? (db.autoscans.update f hf)

/-- `DELETE FROM mt_autoscan WHERE …`. -/
def deleteAutoscans (db : Database) (p : AutoscanRow → Bool) : Database :=
  { db with
    autoscans := db.autoscans.delete p
    autoscan_obj_id := db.autoscan_obj_id.sublist (List.filter_sublist.filterMap _) }

/-! ## Queries -/

/-- `SELECT … FROM mt_cds_object WHERE …`. -/
def selectObjects (db : Database) (p : ObjectRow → Bool) : List ObjectRow :=
  db.objects.rows.filter p

def selectAutoscans (db : Database) (p : AutoscanRow → Bool) : List AutoscanRow :=
  db.autoscans.rows.filter p

/-- A row of `SQL_QUERY`: the object, the object its `ref_id` names, and `persistent` of the
    autoscan on it. -/
structure JoinedRow where
  f : ObjectRow
  rf : Option ObjectRow
  asPersistent : Option Bool

def join (db : Database) (f : ObjectRow) : JoinedRow where
  f := f
  rf := f.refID.bind db.objects.find?
  asPersistent :=
    (db.autoscans.rows.find? fun a => a.objID = some f.id).map AutoscanRow.persistent

/-- `SQL_QUERY WHERE …`. -/
def sqlQuery (db : Database) (p : ObjectRow → Bool) : List JoinedRow :=
  (db.selectObjects p).map db.join

/-- `SELECT MAX(id)`; a table without rows reads as 0. -/
def maxID (db : Database) : Int :=
  match db.objects.rows.map ObjectRow.id with
  | [] => 0
  | id :: ids => ids.foldl max id

/-! ## The database the schema creates -/

/-- `config/sqlite3.sql`: the black hole, the root and the PC directory. -/
def fresh : Database where
  objects :=
    { rows :=
        [ { id := -1, parentID := -1, objectType := 0, flags := 9 },
          { id := 0, parentID := -1, objectType := 1, flags := 9,
            upnpClass := some (str "object.container"), dcTitle := some (str "Root") },
          { id := 1, parentID := 0, objectType := 1, flags := 9,
            upnpClass := some (str "object.container"), dcTitle := some (str "PC Directory") } ]
      nodup := by decide }
  activeItems := .empty
  autoscans := .empty
  autoscan_obj_id := List.nodup_nil

/-! ## What the statements leave -/

variable {db db' : Database}

theorem insertObject?_eq_some {r : ObjectRow} (h : db.insertObject? r = some db') :
    db'.objects.rows = db.objects.rows ++ [r] ∧ db'.activeItems = db.activeItems ∧
      db'.autoscans = db.autoscans := by
  unfold insertObject? at h
  rcases hi : db.objects.insert? r with _ | t
  · rw [hi] at h
    cases h
  · rw [hi] at h
    cases h
    exact ⟨(Lib.Table.insert?_eq_some hi).2, rfl, rfl⟩

theorem insertObject?_of_fresh {r : ObjectRow} (h : r.id ∉ db.objects.rows.map ObjectRow.id) :
    ∃ db', db.insertObject? r = some db' := by
  obtain ⟨t, ht, -⟩ := Lib.Table.insert?_of_fresh (t := db.objects) h
  exact ⟨_, by rw [insertObject?, ht]; rfl⟩

theorem withAutoscans?_eq_some {t : Lib.Table AutoscanRow.id}
    (h : db.withAutoscans? t = some db') :
    db'.autoscans = t ∧ db'.objects = db.objects ∧ db'.activeItems = db.activeItems := by
  unfold withAutoscans? at h
  split at h
  · cases h
    exact ⟨rfl, rfl, rfl⟩
  · cases h

theorem insertAutoscan?_eq_some {a : AutoscanRow} (h : db.insertAutoscan? a = some db') :
    db'.autoscans.rows = db.autoscans.rows ++ [a] ∧ db'.objects = db.objects ∧
      db'.activeItems = db.activeItems := by
  unfold insertAutoscan? at h
  split at h
  · cases h
  · next t ht =>
    obtain ⟨haut, hobj, hact⟩ := withAutoscans?_eq_some h
    exact ⟨haut ▸ (Lib.Table.insert?_eq_some ht).2, hobj, hact⟩

theorem updateAutoscans?_eq_some {f : AutoscanRow → AutoscanRow} {hf : ∀ r, (f r).id = r.id}
    (h : db.updateAutoscans? f hf = some db') :
    db'.autoscans.rows = db.autoscans.rows.map f ∧ db'.objects = db.objects ∧
      db'.activeItems = db.activeItems := by
  obtain ⟨haut, hobj, hact⟩ := withAutoscans?_eq_some h
  exact ⟨haut ▸ rfl, hobj, hact⟩

/-- With the generated id, an INSERT fails only on an object that has an autoscan. -/
theorem insertAutoscan?_eq_none {a : AutoscanRow} (hid : a.id = db.nextAutoscanID)
    (h : db.insertAutoscan? a = none) : ∃ b ∈ db.autoscans.rows, b.objID = a.objID ∧
      a.objID ≠ none := by
  have hfresh : a.id ∉ db.autoscans.rows.map AutoscanRow.id := by
    intro hin
    obtain ⟨b, hb, hbid⟩ := List.mem_map.mp hin
    have hlt := lt_nextAutoscanID hb
    omega
  obtain ⟨t, ht, hrows⟩ := Lib.Table.insert?_of_fresh hfresh
  unfold insertAutoscan? at h
  rw [ht] at h
  simp only [withAutoscans?, dite_eq_right_iff, reduceCtorEq, imp_false] at h
  rw [hrows, List.filterMap_append, List.nodup_append] at h
  rcases ho : a.objID with _ | i
  · refine absurd ⟨db.autoscan_obj_id, ?_, ?_⟩ h
    · simp [ho]
    · simp [ho]
  · by_contra hno
    refine h ⟨db.autoscan_obj_id, ?_, ?_⟩
    · simp [ho]
    · intro j hj k hk
      obtain ⟨b, hb, hbj⟩ := List.mem_filterMap.mp hj
      rintro rfl
      have hji : j = i := by simpa [ho] using hk
      exact hno ⟨b, hb, by rw [hbj, hji], Option.some_ne_none i⟩

theorem deleteAutoscans_congr {p q : AutoscanRow → Bool}
    (h : ∀ a ∈ db.autoscans.rows, p a = q a) : db.deleteAutoscans p = db.deleteAutoscans q :=
  Database.ext rfl rfl (Lib.Table.delete_congr h)

theorem deleteAutoscans_eq_self {p : AutoscanRow → Bool}
    (h : ∀ a ∈ db.autoscans.rows, p a = false) : db.deleteAutoscans p = db :=
  Database.ext rfl rfl (Lib.Table.delete_eq_self h)

/-- Two autoscan rows never name the same object. -/
theorem autoscan_eq_of_objID_eq {a a' : AutoscanRow} {i : Int} (h : a ∈ db.autoscans.rows)
    (h' : a' ∈ db.autoscans.rows) (hi : a.objID = some i) (hi' : a'.objID = some i) :
    a = a' := by
  by_contra hne
  have hp := List.nodup_iff_pairwise_ne.mp db.autoscan_obj_id
  rw [List.pairwise_filterMap] at hp
  have : Std.Symm fun a a' : AutoscanRow =>
      ∀ j, a.objID = some j → ∀ j', a'.objID = some j' → j ≠ j' :=
    ⟨fun _ _ hR j hj j' hj' heq => hR j' hj' j hj heq.symm⟩
  exact hp.forall h h' hne i hi i hi' rfl

end Database

end MediaTomb
