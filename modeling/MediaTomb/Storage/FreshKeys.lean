/-
  Keys are fresh, so no flush fails.

  An id is given out once (`getNextID`), and is used for at most one object row and one active item.
  Until its rows are inserted it is RESERVED: `FreshKeys objs items s` says that the ids of all rows,
  stored or buffered, and the reserved ones are pairwise different, for objects and for active items.
  A flush then meets no taken key: it executes the whole buffer, and moves rows without changing which
  rows there are.
-/
import Mathlib.Algebra.Order.Group.Multiset
import Mathlib.Tactic.GCongr
import MediaTomb.Storage.Container
import MediaTomb.Storage.Flush

namespace MediaTomb

open Lib.Prog

/-- The active items, those still in the insert buffer included. -/
def StorageState.activeItemRows (s : StorageState) : List ActiveItemRow :=
  s.db.activeItems.rows ++ s.insertBuffer.filterMap Statement.activeItemRow?

/-! ## Executing a buffer -/

theorem insertActiveItem?_of_fresh {db : Database} {r : ActiveItemRow}
    (h : r.id ∉ db.activeItems.rows.map ActiveItemRow.id) :
    ∃ db', db.insertActiveItem? r = some db' := by
  obtain ⟨t, ht, -⟩ := Lib.Table.insert?_of_fresh (t := db.activeItems) h
  exact ⟨_, by rw [Database.insertActiveItem?, ht]; rfl⟩

theorem not_mem_of_nodup_map_append {R : Type} {key : R → Int} {rows rest : List R} {r : R}
    (h : ((rows ++ r :: rest).map key).Nodup) : key r ∉ rows.map key := by
  rw [List.map_append, List.map_cons, List.nodup_append] at h
  exact fun hin => h.2.2 _ hin _ List.mem_cons_self rfl

/-- **No statement of a buffer with fresh keys fails.** -/
theorem execAll_fresh (qs : List Statement) : ∀ db : Database,
    ((db.objects.rows ++ qs.filterMap Statement.objectRow?).map ObjectRow.id).Nodup →
    ((db.activeItems.rows ++ qs.filterMap Statement.activeItemRow?).map ActiveItemRow.id).Nodup →
    (Statement.execAll qs db).1 = none := by
  induction qs with
  | nil => exact fun _ _ _ => rfl
  | cons q qs ih =>
    intro db hobj hact
    unfold Statement.execAll
    have hq : ∃ db₁, q.exec db = .ok db₁ := by
      cases q with
      | insertObject text r =>
        obtain ⟨db₁, hins⟩ := Database.insertObject?_of_fresh (not_mem_of_nodup_map_append hobj)
        exact ⟨db₁, by rw [Statement.exec, hins]⟩
      | insertActiveItem text r =>
        obtain ⟨db₁, hins⟩ := insertActiveItem?_of_fresh (not_mem_of_nodup_map_append hact)
        exact ⟨db₁, by rw [Statement.exec, hins]⟩
    obtain ⟨db₁, hdb₁⟩ := hq
    have hdone := executed_of_exec hdb₁
    rw [hdb₁]
    refine ih db₁ ?_ ?_
    · rw [hdone.objects, List.append_assoc, ← List.filterMap_append]
      exact hobj
    · rw [hdone.activeItems, List.append_assoc, ← List.filterMap_append]
      exact hact

/-! ## Ids -/

/-- The ids in use and the reserved ones are pairwise different and not above the last one. -/
structure Distinct (last : Int) (used reserved : Multiset Int) : Prop where
  nodup : (used + reserved).Nodup
  le_last : ∀ i ∈ used + reserved, i ≤ last

namespace Distinct

variable {last last' i : Int} {used reserved reserved' : Multiset Int}

/-- A reservation can be given up. -/
theorem mono (h : Distinct last used reserved) (hle : reserved' ≤ reserved) :
    Distinct last used reserved' := by
  have hle' : used + reserved' ≤ used + reserved := by gcongr
  exact ⟨Multiset.nodup_of_le hle' h.nodup, fun i hi => h.le_last i (Multiset.mem_of_le hle' hi)⟩

/-- The next id is reserved. -/
theorem reserve (h : Distinct last used reserved) :
    Distinct (last + 1) used ((last + 1) ::ₘ reserved) := by
  have hnext : last + 1 ∉ used + reserved := fun hin => by
    have hle := h.le_last _ hin
    omega
  refine ⟨?_, fun i hi => ?_⟩
  · rw [Multiset.add_cons]
    exact Multiset.nodup_cons.mpr ⟨hnext, h.nodup⟩
  · rw [Multiset.add_cons] at hi
    rcases Multiset.mem_cons.mp hi with rfl | hi
    · exact Int.le_refl _
    · have hle := h.le_last i hi
      omega

/-- A reserved id is used. -/
theorem use (h : Distinct last used (i ::ₘ reserved)) : Distinct last (i ::ₘ used) reserved := by
  have heq : i ::ₘ used + reserved = used + i ::ₘ reserved := by
    rw [Multiset.add_cons, Multiset.cons_add]
  exact ⟨heq ▸ h.nodup, heq ▸ h.le_last⟩

theorem not_mem_of_reserved (h : Distinct last used (i ::ₘ reserved)) : i ∉ used := by
  have hnodup := h.use.nodup
  rw [Multiset.cons_add, Multiset.nodup_cons] at hnodup
  exact fun hin => hnodup.1 (Multiset.mem_add.mpr (Or.inl hin))

end Distinct

/-! ## Fresh keys -/

namespace StorageState

variable (s : StorageState)

def objectIDs : Multiset Int := s.rows.map ObjectRow.id

def activeItemIDs : Multiset Int := s.activeItemRows.map ActiveItemRow.id

end StorageState

/-- No row takes the id of another one, or one of the ids `objs` and `items` reserved for rows to
    come. -/
structure FreshKeys (objs items : Multiset Int) (s : StorageState) : Prop where
  objects : Distinct s.lastID s.objectIDs objs
  activeItems : Distinct s.lastID s.activeItemIDs items

/-- `s'` is `s`, or `s` with its buffer executed. -/
inductive Flushed (s : StorageState) : StorageState → Prop where
  | same : Flushed s s
  | executed (db : Database) (h : Executed s.insertBuffer s.db db) : Flushed s (flushedState s db)

section

variable {s s' : StorageState} {objs items : Multiset Int}

theorem Flushed.rows (h : Flushed s s') : s'.rows = s.rows := by
  cases h with
  | same => rfl
  | executed db h =>
    show db.objects.rows ++ [] = _
    rw [List.append_nil, h.objects]
    rfl

theorem Flushed.activeItemRows (h : Flushed s s') : s'.activeItemRows = s.activeItemRows := by
  cases h with
  | same => rfl
  | executed db h =>
    show db.activeItems.rows ++ [] = _
    rw [List.append_nil, h.activeItems]
    rfl

theorem Flushed.lastID (h : Flushed s s') : s'.lastID = s.lastID := by
  cases h <;> rfl

theorem Flushed.cache (h : Flushed s s') : s'.cache = s.cache := by
  cases h <;> rfl

theorem Flushed.insertBufferOn (h : Flushed s s') : s'.insertBufferOn = s.insertBufferOn := by
  cases h <;> rfl

theorem Flushed.uncounted (h : Flushed s s') : s'.uncounted = s.uncounted := by
  cases h <;> rfl

/-- Only the ids of the rows matter. -/
theorem FreshKeys.congr (h : FreshKeys objs items s) (hobj : s'.objectIDs = s.objectIDs)
    (hact : s'.activeItemIDs = s.activeItemIDs) (hlast : s'.lastID = s.lastID) :
    FreshKeys objs items s' := by
  refine ⟨?_, ?_⟩
  · rw [hobj, hlast]
    exact h.objects
  · rw [hact, hlast]
    exact h.activeItems

theorem FreshKeys.flushed (h : FreshKeys objs items s) (hf : Flushed s s') :
    FreshKeys objs items s' := by
  refine h.congr ?_ ?_ hf.lastID
  · rw [StorageState.objectIDs, hf.rows]
    rfl
  · rw [StorageState.activeItemIDs, hf.activeItemRows]
    rfl

/-- **A flush does not fail.** -/
theorem FreshKeys.run_flush (h : FreshKeys objs items s) :
    ∃ s', flushInsertBuffer.run s = (.ok (), s') ∧ Flushed s s' := by
  rcases run_flushInsertBuffer s with ⟨-, hrun⟩ | ⟨db, -, hdone, hrun⟩ |
    ⟨e, db, done, rest, hexec, -⟩
  · exact ⟨s, hrun, .same⟩
  · exact ⟨_, hrun, .executed db hdone⟩
  · have hobj := Multiset.nodup_of_le (Multiset.le_add_right _ _) h.objects.nodup
    have hact := Multiset.nodup_of_le (Multiset.le_add_right _ _) h.activeItems.nodup
    have hnone := execAll_fresh s.insertBuffer s.db (Multiset.coe_nodup.mp hobj)
      (Multiset.coe_nodup.mp hact)
    rw [hexec] at hnone
    cases hnone

theorem FreshKeys.mono (h : FreshKeys objs items s) {objs' items' : Multiset Int}
    (hobjs : objs' ≤ objs) (hitems : items' ≤ items) : FreshKeys objs' items' s :=
  ⟨h.objects.mono hobjs, h.activeItems.mono hitems⟩

/-! ## Giving an id out -/

/-- `getNextID` reserves the id it returns, for an object and for an active item. -/
theorem FreshKeys.getNextID (h : FreshKeys objs items s) :
    (∃ e, getNextID.run s = (.error e, s)) ∨
      ∃ id : {id : Int // cdsIdFsRoot < id}, (id : Int) = s.lastID + 1 ∧
        getNextID.run s = (.ok id, { s with lastID := s.lastID + 1 }) ∧
        FreshKeys ((id : Int) ::ₘ objs) ((id : Int) ::ₘ items) { s with lastID := s.lastID + 1 } := by
  unfold MediaTomb.getNextID
  rw [run_locked, run_get_bind]
  split
  · exact Or.inl ⟨_, rfl⟩
  · next hlast =>
    refine Or.inr ⟨⟨s.lastID + 1, Int.lt_add_one_of_le (Int.not_lt.mp hlast)⟩, rfl, rfl, ?_⟩
    exact ⟨h.objects.reserve, h.activeItems.reserve⟩

/-! ## Inserting a row -/

/-- The state once `query` is in the buffer. -/
def bufferedState (query : Statement) (s : StorageState) : StorageState :=
  { s with
    insertBuffer := s.insertBuffer ++ [query]
    buffered := s.buffered ++ [query]
    uncounted := s.uncounted ++ (query.objectRow?.map ObjectRow.parentID).toList
    insertBufferEmpty := false
    insertBufferStatementCount := s.insertBufferStatementCount + 1
    insertBufferByteCount := s.insertBufferByteCount + query.text.length }

@[simp] theorem bufferedState_rows (query : Statement) (s : StorageState) :
    (bufferedState query s).rows = s.rows ++ query.objectRow?.toList := by
  show s.db.objects.rows ++ (s.insertBuffer ++ [query]).filterMap Statement.objectRow? = _
  rw [List.filterMap_append, ← List.append_assoc]
  cases query <;> rfl

@[simp] theorem bufferedState_activeItemRows (query : Statement) (s : StorageState) :
    (bufferedState query s).activeItemRows = s.activeItemRows ++ query.activeItemRow?.toList := by
  show s.db.activeItems.rows ++ (s.insertBuffer ++ [query]).filterMap Statement.activeItemRow? = _
  rw [List.filterMap_append, ← List.append_assoc]
  cases query <;> rfl

theorem FreshKeys.buffer_object {text : Str} {row : ObjectRow}
    (h : FreshKeys (row.id ::ₘ objs) items s) :
    FreshKeys objs items (bufferedState (.insertObject text row) s) := by
  refine ⟨?_, ?_⟩
  · have hids : (bufferedState (.insertObject text row) s).objectIDs = row.id ::ₘ s.objectIDs := by
      rw [StorageState.objectIDs, bufferedState_rows, List.map_append, ← Multiset.coe_add,
        add_comm]
      rfl
    rw [hids]
    exact h.objects.use
  · have hids : (bufferedState (.insertObject text row) s).activeItemIDs = s.activeItemIDs := by
      rw [StorageState.activeItemIDs, bufferedState_activeItemRows]
      exact congrArg _ (congrArg _ (List.append_nil _))
    rw [hids]
    exact h.activeItems

theorem FreshKeys.buffer_activeItem {text : Str} {row : ActiveItemRow}
    (h : FreshKeys objs (row.id ::ₘ items) s) :
    FreshKeys objs items (bufferedState (.insertActiveItem text row) s) := by
  refine ⟨?_, ?_⟩
  · have hids : (bufferedState (.insertActiveItem text row) s).objectIDs = s.objectIDs := by
      rw [StorageState.objectIDs, bufferedState_rows]
      exact congrArg _ (congrArg _ (List.append_nil _))
    rw [hids]
    exact h.objects
  · have hids : (bufferedState (.insertActiveItem text row) s).activeItemIDs =
        row.id ::ₘ s.activeItemIDs := by
      rw [StorageState.activeItemIDs, bufferedState_activeItemRows, List.map_append,
        ← Multiset.coe_add, add_comm]
      rfl
    rw [hids]
    exact h.activeItems.use

/-- **Buffering a statement**, and the flush where the buffer has grown too long. -/
theorem FreshKeys.run_addToInsertBuffer {query : Statement}
    (h : FreshKeys objs items (bufferedState query s)) :
    ∃ s', (addToInsertBuffer query).run s = (.ok (), s') ∧ Flushed (bufferedState query s) s' := by
  unfold addToInsertBuffer addToInsertBuffer_
  rw [run_modify_bind, run_locked, run_modify_bind, run_get_bind]
  split
  · exact h.run_flush
  · exact ⟨_, rfl, .same⟩

/-- The state once `row` has been inserted into the table. -/
def insertedState (row : ObjectRow) (db : Database) (s : StorageState) : StorageState :=
  { s with db := db, uncounted := s.uncounted ++ [row.parentID] }

/-- **Inserting a row at once.** -/
theorem FreshKeys.run_execInsertObject {row : ObjectRow} (h : FreshKeys (row.id ::ₘ objs) items s) :
    ∃ db, s.db.insertObject? row = some db ∧
      (execInsertObject row).run s = (.ok (), insertedState row db s) ∧
      (insertedState row db s).rows.Perm (row :: s.rows) ∧
      FreshKeys objs items (insertedState row db s) := by
  have hfresh : row.id ∉ s.db.objects.rows.map ObjectRow.id := by
    intro hin
    refine h.objects.not_mem_of_reserved ?_
    show row.id ∈ s.rows.map ObjectRow.id
    rw [StorageState.rows, List.map_append]
    exact List.mem_append_left _ hin
  obtain ⟨db, hins⟩ := Database.insertObject?_of_fresh hfresh
  obtain ⟨hrows, hact, -⟩ := Database.insertObject?_eq_some hins
  have hperm : (insertedState row db s).rows.Perm (row :: s.rows) := by
    show (db.objects.rows ++ s.insertBuffer.filterMap Statement.objectRow?).Perm _
    rw [hrows, List.append_assoc]
    exact List.perm_middle
  refine ⟨db, hins, ?_, hperm, ?_, ?_⟩
  · unfold execInsertObject
    rw [run_locked, run_get_bind, hins]
    rfl
  · have hids : (insertedState row db s).objectIDs = row.id ::ₘ s.objectIDs :=
      Multiset.coe_eq_coe.mpr (hperm.map ObjectRow.id)
    rw [hids]
    exact h.objects.use
  · have hids : (insertedState row db s).activeItemIDs = s.activeItemIDs := by
      unfold StorageState.activeItemIDs StorageState.activeItemRows insertedState
      rw [hact]
    rw [hids]
    exact h.activeItems

/-- **Inserting an active item at once.** -/
theorem FreshKeys.insertActiveItem? {row : ActiveItemRow}
    (h : FreshKeys objs (row.id ::ₘ items) s) :
    ∃ t, s.db.insertActiveItem? row = some { s.db with activeItems := t } ∧
      FreshKeys objs items { s with db := { s.db with activeItems := t } } := by
  have hfresh : row.id ∉ s.db.activeItems.rows.map ActiveItemRow.id := by
    intro hin
    refine h.activeItems.not_mem_of_reserved ?_
    show row.id ∈ s.activeItemRows.map ActiveItemRow.id
    rw [StorageState.activeItemRows, List.map_append]
    exact List.mem_append_left _ hin
  obtain ⟨t, ht, hrows⟩ := Lib.Table.insert?_of_fresh hfresh
  refine ⟨t, ?_, h.objects, ?_⟩
  · unfold Database.insertActiveItem?
    rw [ht]
    rfl
  · have hids : StorageState.activeItemIDs { s with db := { s.db with activeItems := t } } =
        row.id ::ₘ s.activeItemIDs := by
      unfold StorageState.activeItemIDs StorageState.activeItemRows
      simp only [hrows]
      rw [List.map_append, List.map_append, List.map_append, List.append_assoc]
      exact Multiset.coe_eq_coe.mpr List.perm_middle
    rw [hids]
    exact h.activeItems.use

end

/-! ## The start -/

/-- Every active item belongs to an object: the foreign key of the schema. -/
def ActiveItemsOwned (db : Database) : Prop :=
  ∀ a ∈ db.activeItems.rows, ∃ r ∈ db.objects.rows, r.id = a.id

instance (db : Database) : Decidable (ActiveItemsOwned db) := by
  unfold ActiveItemsOwned
  infer_instance

theorem le_maxID {db : Database} {r : ObjectRow} (h : r ∈ db.objects.rows) : r.id ≤ db.maxID := by
  have hm : r.id ∈ db.objects.rows.map ObjectRow.id := List.mem_map_of_mem h
  unfold Database.maxID
  rcases hr : db.objects.rows.map ObjectRow.id with _ | ⟨a, ids⟩
  · rw [hr] at hm
    cases hm
  · rw [hr] at hm
    rcases List.mem_cons.mp hm with heq | hin
    · rw [heq]
      exact Database.le_foldl_max ids a
    · exact Database.mem_le_foldl_max hin a

theorem freshKeys_started {db : Database} (h : ActiveItemsOwned db) (cachingEnabled : Bool)
    (f2i : Str → Except Exception Str) :
    FreshKeys 0 0 (StorageState.started db cachingEnabled f2i) := by
  have hobj : (StorageState.started db cachingEnabled f2i).rows = db.objects.rows := List.append_nil _
  have hact : (StorageState.started db cachingEnabled f2i).activeItemRows = db.activeItems.rows :=
    List.append_nil _
  refine ⟨⟨?_, fun i hi => ?_⟩, ⟨?_, fun i hi => ?_⟩⟩
  · rw [add_zero, StorageState.objectIDs, hobj]
    exact Multiset.coe_nodup.mpr db.objects.nodup
  · rw [add_zero, StorageState.objectIDs, hobj] at hi
    obtain ⟨r, hr, rfl⟩ := List.mem_map.mp (Multiset.mem_coe.mp hi)
    exact le_maxID hr
  · rw [add_zero, StorageState.activeItemIDs, hact]
    exact Multiset.coe_nodup.mpr db.activeItems.nodup
  · rw [add_zero, StorageState.activeItemIDs, hact] at hi
    obtain ⟨a, ha, rfl⟩ := List.mem_map.mp (Multiset.mem_coe.mp hi)
    obtain ⟨r, hr, hid⟩ := h a ha
    rw [← hid]
    exact le_maxID hr

end MediaTomb
