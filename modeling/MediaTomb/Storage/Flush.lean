/-
  What a flush of the insert buffer does.

  The buffered statements are executed in order, up to the first that breaks a key.  What was
  executed by then stays; the text is dropped only when ALL of it was executed.
-/
import MediaTomb.Storage.State

namespace MediaTomb

open Lib.Prog

namespace Statement

def activeItemRow? : Statement → Option ActiveItemRow
  | insertObject _ _ => none
  | insertActiveItem _ r => some r

end Statement

/-- The statements `qs` have been executed on `db`. -/
structure Executed (qs : List Statement) (db db' : Database) : Prop where
  objects : db'.objects.rows = db.objects.rows ++ qs.filterMap Statement.objectRow?
  activeItems : db'.activeItems.rows =
    db.activeItems.rows ++ qs.filterMap Statement.activeItemRow?
  autoscans : db'.autoscans = db.autoscans

theorem Executed.nil (db : Database) : Executed [] db db := by
  refine ⟨?_, ?_, rfl⟩
  · rw [List.filterMap_nil, List.append_nil]
  · rw [List.filterMap_nil, List.append_nil]

theorem Executed.cons {q : Statement} {qs : List Statement} {db db₁ db' : Database}
    (h₁ : Executed [q] db db₁) (h : Executed qs db₁ db') : Executed (q :: qs) db db' := by
  refine ⟨?_, ?_, h.autoscans.trans h₁.autoscans⟩
  · rw [h.objects, h₁.objects, List.append_assoc, ← List.filterMap_append, List.singleton_append]
  · rw [h.activeItems, h₁.activeItems, List.append_assoc, ← List.filterMap_append,
      List.singleton_append]

/-- One statement appends its row. -/
theorem executed_of_exec {q : Statement} {db db' : Database} (h : q.exec db = .ok db') :
    Executed [q] db db' := by
  cases q with
  | insertObject text r =>
    unfold Statement.exec at h
    simp only at h
    rcases hi : db.insertObject? r with _ | db₁
    · rw [hi] at h
      cases h
    · rw [hi] at h
      cases h
      obtain ⟨hobj, hact, haut⟩ := Database.insertObject?_eq_some hi
      exact ⟨hobj, by rw [hact]; exact (List.append_nil _).symm, haut⟩
  | insertActiveItem text r =>
    unfold Statement.exec at h
    simp only at h
    rcases hi : db.insertActiveItem? r with _ | db₁
    · rw [hi] at h
      cases h
    · rw [hi] at h
      cases h
      unfold Database.insertActiveItem? at hi
      obtain ⟨t, ht, rfl⟩ := Option.map_eq_some_iff.mp hi
      exact ⟨(List.append_nil _).symm, (Lib.Table.insert?_eq_some ht).2, rfl⟩

/-- **A buffer is executed from its front**, and to its end unless a statement fails. -/
theorem execAll_spec (qs : List Statement) : ∀ db, ∃ done rest, qs = done ++ rest ∧
    Executed done db (Statement.execAll qs db).2 ∧
    ((Statement.execAll qs db).1 = none → rest = []) := by
  induction qs with
  | nil => exact fun db => ⟨[], [], rfl, .nil db, fun _ => rfl⟩
  | cons q qs ih =>
    intro db
    unfold Statement.execAll
    rcases hq : q.exec db with e | db₁
    · exact ⟨[], q :: qs, rfl, .nil db, fun h => nomatch h⟩
    · obtain ⟨done, rest, hqs, hdone, hall⟩ := ih db₁
      exact ⟨q :: done, rest, by rw [hqs]; rfl, (executed_of_exec hq).cons hdone, hall⟩

/-- The state after a flush that executed the whole buffer. -/
def flushedState (s : StorageState) (db : Database) : StorageState :=
  { s with
    db := db
    insertBuffer := []
    executed := s.executed ++ s.insertBuffer
    insertBufferEmpty := true
    insertBufferStatementCount := 0
    insertBufferByteCount := 0 }

/-- **A flush** finds nothing to do, executes the whole buffer, or stops in the middle. -/
theorem run_flushInsertBuffer (s : StorageState) :
    ((s.insertBufferOn = false ∨ s.insertBufferEmpty = true) ∧
      flushInsertBuffer.run s = (.ok (), s)) ∨
    (∃ db, Statement.execAll s.insertBuffer s.db = (none, db) ∧ Executed s.insertBuffer s.db db ∧
      flushInsertBuffer.run s = (.ok (), flushedState s db)) ∨
    ∃ e db done rest, Statement.execAll s.insertBuffer s.db = (some e, db) ∧
      s.insertBuffer = done ++ rest ∧ Executed done s.db db ∧
      flushInsertBuffer.run s = (.error e, { s with db := db }) := by
  unfold flushInsertBuffer
  rw [run_locked, run_get_bind]
  by_cases hon : s.insertBufferOn = true
  · rw [if_neg (by rw [hon]; exact Bool.false_ne_true)]
    by_cases hempty : s.insertBufferEmpty = true
    · rw [if_pos hempty]
      exact Or.inl ⟨Or.inr hempty, rfl⟩
    · rw [if_neg hempty]
      refine Or.inr ?_
      obtain ⟨done, rest, hqs, hdone, hall⟩ := execAll_spec s.insertBuffer s.db
      rcases hexec : Statement.execAll s.insertBuffer s.db with ⟨_ | e, db⟩
      · rw [hexec] at hdone hall
        have hnil := hall rfl
        rw [hnil, List.append_nil] at hqs
        subst hqs
        refine Or.inl ⟨db, rfl, hdone, ?_⟩
        have hrun : flushInsertBuffer_.run s = (.ok (),
            { s with db := db, insertBuffer := [], executed := s.executed ++ s.insertBuffer }) := by
          unfold flushInsertBuffer_
          rw [run_get_bind, hexec]
          rfl
        rw [run_bind_of_ok hrun]
        rfl
      · rw [hexec] at hdone
        refine Or.inr ⟨e, db, done, rest, rfl, hqs, hdone, ?_⟩
        refine run_bind_of_error ?_
        unfold flushInsertBuffer_
        rw [run_get_bind, hexec]
        rfl
  · rw [if_pos (by simpa using hon)]
    rw [Bool.not_eq_true] at hon
    exact Or.inl ⟨Or.inl hon, rfl⟩

end MediaTomb
