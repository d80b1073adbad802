/-
  What a removal leaves alone.

  Whichever way a removal ends, between its flush and its end rows have gone, none has come, and the
  cache has been emptied or is as it was; so keys stay fresh.
-/
import MediaTomb.Storage.ChangedContainers
import MediaTomb.Storage.FreshKeys
import MediaTomb.Storage.Sections

namespace MediaTomb

open Lib.Prog

theorem StorageCache.clear_clear (c : StorageCache) : c.clear.clear = c.clear := rfl

/-- Between `s` and `s'` rows have gone, and the cache may have been emptied. -/
structure Deletes (s s' : StorageState) : Prop where
  objects : ∀ r ∈ s'.db.objects.rows, r ∈ s.db.objects.rows
  activeItems : ∀ a ∈ s'.db.activeItems.rows, a ∈ s.db.activeItems.rows
  cache : s'.cache = s.cache ∨ s'.cache = s.cache.map StorageCache.clear
  rest : s' = { s with db := s'.db, cache := s'.cache }

theorem Deletes.refl (s : StorageState) : Deletes s s :=
  ⟨fun _ h => h, fun _ h => h, Or.inl rfl, rfl⟩

theorem Deletes.trans {s s' s'' : StorageState} (h : Deletes s s') (h' : Deletes s' s'') :
    Deletes s s'' := by
  refine ⟨fun r hr => h.objects r (h'.objects r hr),
    fun a ha => h.activeItems a (h'.activeItems a ha), ?_, ?_⟩
  · rcases h'.cache with heq | heq
    · rw [heq]
      exact h.cache
    · rw [heq]
      rcases h.cache with heq' | heq'
      · rw [heq']
        exact Or.inr rfl
      · rw [heq', Option.map_map]
        exact Or.inr rfl
  · rw [h'.rest, h.rest]

def deleting : Frame StorageState where
  rel := Deletes
  refl := Deletes.refl
  trans := Deletes.trans

theorem removalSections_deleting : RemovalSections deleting.logic where
  delete objectIDs := by
    intro s
    rw [run_removeObjects_]
    refine ⟨fun r hr => ?_, fun a ha => ?_, Or.inl rfl, rfl⟩
    · exact (Database.mem_removeObjects.mp hr).1
    · exact (Database.mem_removeObjects_activeItems.mp ha).1
  clear := fun s => ⟨fun _ h => h, fun _ h => h, Or.inr rfl, rfl⟩

/-- **Whichever way a removal ends**, it has deleted since its flush, and no more. -/
theorem RemovalCall.deletes (call : RemovalCall) (s : StorageState) :
    Deletes (flushInsertBuffer.run s).2 (call.prog.run s).2 := by
  rcases call.run_cases s with ⟨e, s₀, hflush, herr⟩ | ⟨s₀, hflush, hcases⟩
  · rw [hflush, herr]
    exact .refl s₀
  · rw [hflush]
    rcases hcases with ⟨hnone, -⟩ | ⟨id, herr⟩ | ⟨hbody, -⟩
    · rw [hnone]
      exact .refl s₀
    · rw [herr]
      exact .refl s₀
    · rw [hbody]
      have hkeeps : Keeps deleting (call.body s₀.db) :=
        keeps_bind (holds_recursiveRemove removalSections_deleting _ _ _) fun ch =>
          keeps_bind (holds_purgeEmptyContainers removalSections_deleting ch) fun _ => keeps_pure _
      exact hkeeps s₀

section

variable {s s' : StorageState}

theorem Deletes.insertBuffer (h : Deletes s s') : s'.insertBuffer = s.insertBuffer := by
  rw [h.rest]

theorem Deletes.lastID (h : Deletes s s') : s'.lastID = s.lastID := by
  rw [h.rest]

/-- With an empty buffer all rows are in the table. -/
theorem StorageState.rows_of_flushed (hempty : s.insertBuffer = []) : s.rows = s.db.objects.rows := by
  rw [StorageState.rows, StorageState.bufferedRows, hempty]
  exact List.append_nil _

/-- Keys stay apart where rows of the table have gone. -/
theorem distinct_append_of_subset {R : Type} {key : R → Int} {rows rows' rest : List R} {last : Int}
    (h : Distinct last ((rows ++ rest).map key : Multiset Int) 0)
    (hnodup : (rows'.map key).Nodup) (hsub : ∀ r ∈ rows', r ∈ rows) :
    Distinct last ((rows' ++ rest).map key : Multiset Int) 0 := by
  have hmem : ∀ r ∈ rows' ++ rest, r ∈ rows ++ rest := by
    intro r hr
    rcases List.mem_append.mp hr with hr | hr
    · exact List.mem_append_left _ (hsub r hr)
    · exact List.mem_append_right _ hr
  have hold : ((rows ++ rest).map key).Nodup := by
    have hcoe := h.nodup
    rw [add_zero] at hcoe
    exact Multiset.coe_nodup.mp hcoe
  rw [List.map_append, List.nodup_append] at hold
  refine ⟨?_, fun i hi => ?_⟩
  · rw [add_zero]
    apply Multiset.coe_nodup.mpr
    rw [List.map_append, List.nodup_append]
    refine ⟨hnodup, hold.2.1, fun i hi j hj => ?_⟩
    obtain ⟨r, hr, rfl⟩ := List.mem_map.mp hi
    exact hold.2.2 _ (List.mem_map_of_mem (hsub r hr)) j hj
  · rw [add_zero] at hi
    obtain ⟨r, hr, rfl⟩ := List.mem_map.mp (Multiset.mem_coe.mp hi)
    apply h.le_last
    rw [add_zero]
    exact Multiset.mem_coe.mpr (List.mem_map_of_mem (hmem r hr))

theorem FreshKeys.deletes (h : FreshKeys 0 0 s) (hdel : Deletes s s') : FreshKeys 0 0 s' := by
  constructor
  · have hrows : s'.rows = s'.db.objects.rows ++ s.bufferedRows := by
      rw [StorageState.rows, StorageState.bufferedRows, hdel.insertBuffer]
      rfl
    rw [StorageState.objectIDs, hrows, hdel.lastID]
    exact distinct_append_of_subset h.objects s'.db.objects.nodup hdel.objects
  · have hrows : s'.activeItemRows = s'.db.activeItems.rows ++
        s.insertBuffer.filterMap Statement.activeItemRow? := by
      rw [StorageState.activeItemRows, hdel.insertBuffer]
    rw [StorageState.activeItemIDs, hrows, hdel.lastID]
    exact distinct_append_of_subset h.activeItems s'.db.activeItems.nodup hdel.activeItems

end

end MediaTomb
