/-
  What making containers does to the object table.

  Beside the rows that are made, a call may move rows from the insert buffer into the table, at any
  place between them.  These are ITEMS (`ItemsBuffered`), so a query for containers sees the old
  rows and behind them the new ones, in the order in which they were made (`Creates`).
-/
import MediaTomb.Storage.AutoscanCalls

namespace MediaTomb

open Lib.Prog

/-! ## Old rows, then new ones -/

/-- Between `s` and `s'` these rows have been inserted, and beside them only buffered ones. -/
structure Creates (created : List ObjectRow) (s s' : StorageState) : Prop where
  select : ∀ p : ObjectRow → Bool, (∀ r ∈ s.bufferedRows, p r = false) →
    s'.db.selectObjects p = s.db.selectObjects p ++ created.filter p
  buffered : ∀ r ∈ s'.bufferedRows, r ∈ s.bufferedRows
  mono : ∀ r ∈ s.db.objects.rows, r ∈ s'.db.objects.rows
  added : ∀ r ∈ s'.db.objects.rows, r ∈ s.db.objects.rows ∨ r ∈ created ∨ r ∈ s.bufferedRows
  mem : ∀ r ∈ created, r ∈ s'.db.objects.rows
  fresh : ∀ r ∈ created, r ∉ s.db.objects.rows

section

variable {s s' s'' : StorageState} {created created' : List ObjectRow}

theorem Creates.of_settles (h : Settles s s') : Creates [] s s' := by
  obtain ⟨moved, hrows, hmoved⟩ := h.objects
  refine ⟨fun p hp => ?_, h.buffered, fun r hr => ?_, fun r hr => ?_, fun r hr => (nomatch hr),
    fun r hr => (nomatch hr)⟩
  · unfold Database.selectObjects
    rw [hrows, List.filter_append, List.filter_nil, List.append_cancel_left_eq]
    apply List.filter_eq_nil_iff.mpr
    intro r hr
    rw [hp r (hmoved r hr)]
    exact Bool.false_ne_true
  · rw [hrows]
    exact List.mem_append_left _ hr
  · rw [hrows] at hr
    rcases List.mem_append.mp hr with hr | hr
    · exact .inl hr
    · exact .inr (.inr (hmoved r hr))

theorem Creates.refl (s : StorageState) : Creates [] s s := .of_settles (.refl s)

theorem Creates.trans (h : Creates created s s') (h' : Creates created' s' s'') :
    Creates (created ++ created') s s'' := by
  refine ⟨fun p hp => ?_, fun r hr => h.buffered r (h'.buffered r hr),
    fun r hr => h'.mono r (h.mono r hr), fun r hr => ?_, fun r hr => ?_, fun r hr => ?_⟩
  · rw [h'.select p fun r hr => hp r (h.buffered r hr), h.select p hp, List.filter_append,
      List.append_assoc]
  · rcases h'.added r hr with hr | hr | hr
    · rcases h.added r hr with hr | hr | hr
      · exact .inl hr
      · exact .inr (.inl (List.mem_append_left _ hr))
      · exact .inr (.inr hr)
    · exact .inr (.inl (List.mem_append_right _ hr))
    · exact .inr (.inr (h.buffered r hr))
  · rcases List.mem_append.mp hr with hr | hr
    · exact h'.mono r (h.mem r hr)
    · exact h'.mem r hr
  · rcases List.mem_append.mp hr with hr | hr
    · exact h.fresh r hr
    · exact fun hold => h'.fresh r hr (h.mono r hold)

/-- An INSERT that is executed. -/
theorem Creates.insert {row : ObjectRow} (h : (execInsertObject row).run s = (.ok (), s')) :
    Creates [row] s s' := by
  unfold execInsertObject at h
  rw [run_locked, run_get_bind] at h
  rcases hins : s.db.insertObject? row with _ | db
  · rw [hins] at h
    cases h
  · rw [hins] at h
    cases h
    obtain ⟨hrows, -, -⟩ := Database.insertObject?_eq_some hins
    refine ⟨fun p _ => ?_, fun r hr => hr, fun r hr => ?_, fun r hr => ?_, fun r hr => ?_,
      fun r hr hold => ?_⟩
    · unfold Database.selectObjects
      rw [hrows, List.filter_append]
    · show r ∈ db.objects.rows
      rw [hrows]
      exact List.mem_append_left _ hr
    · have hr' : r ∈ s.db.objects.rows ++ [row] := hrows ▸ hr
      rcases List.mem_append.mp hr' with hr' | hr'
      · exact .inl hr'
      · exact .inr (.inl hr')
    · show r ∈ db.objects.rows
      rw [hrows]
      exact List.mem_append_right _ hr
    · rw [List.mem_singleton.mp hr] at hold
      unfold Database.insertObject? at hins
      obtain ⟨t, ht, -⟩ := Option.map_eq_some_iff.mp hins
      exact (Lib.Table.insert?_eq_some ht).1 (List.mem_map_of_mem hold)

/-! ## One container -/

theorem hiddenSections_settling : HiddenSections settling where
  hidden := fun _ _ _ _ _ _ _ _ =>
    ⟨⟨[], (List.append_nil _).symm, fun _ h => (nomatch h)⟩, fun _ h => h, rfl⟩
  flush := settles_flush

theorem settles_informCache (newID parentID : Int) (path : Str) :
    Keeps settling (informCache newID parentID path) :=
  keeps_bind (keeps_addChild hiddenSections_settling _) fun _ =>
    keeps_bind (keeps_flushIfFlushed hiddenSections_settling) fun _ =>
      keeps_bind (keeps_modifyCache hiddenSections_settling _) fun _ =>
        keeps_bind (keeps_flushIfFlushed hiddenSections_settling) fun _ =>
          keeps_modifyCache hiddenSections_settling _

/-- **A container that is made** is one new row. -/
theorem createContainer_ok {parentID refID id : Int} {name path : Str} {isVirtual : Bool}
    {upnpClass : Option Str}
    (h : (createContainer parentID name path isVirtual upnpClass refID).run s = (.ok id, s')) :
    ∃ newID : {id : Int // cdsIdFsRoot < id}, id = newID ∧
      Creates [containerRow newID parentID name path isVirtual upnpClass refID] s s' := by
  have hnew : ∀ {s : StorageState}, (do
      let newID ← getNextID
      execInsertObject (containerRow newID parentID name path isVirtual upnpClass refID)
      if ← cacheOn then
        locked (informCache newID parentID path)
      pure (newID : Int)).run s = (.ok id, s') →
      ∃ newID : {id : Int // cdsIdFsRoot < id}, id = newID ∧
        Creates [containerRow newID parentID name path isVirtual upnpClass refID] s s' := by
    intro s h
    obtain ⟨newID, s₁, hnext, h⟩ := bind_ok h
    obtain ⟨⟨⟩, s₂, hins, h⟩ := bind_ok h
    have hsettle : Settles s s₁ := by
      unfold getNextID at hnext
      rw [run_locked, run_get_bind] at hnext
      split at hnext
      · cases hnext
      · cases hnext
        exact ⟨⟨[], (List.append_nil _).symm, fun _ h => (nomatch h)⟩, fun _ h => h, rfl⟩
    have hrest : id = newID ∧ Settles s₂ s' := by
      have hkeeps : Keeps settling (cacheOn >>= fun on => if on then
          locked (informCache newID parentID path) >>= fun _ => (pure (newID : Int) : Storage Int)
          else pure (newID : Int)) :=
        keeps_ifCache (settles_informCache newID parentID path) (keeps_pure _)
      have hset := Settles.of_run hkeeps h
      refine ⟨?_, hset⟩
      obtain ⟨on, s₃, -, h⟩ := bind_ok h
      rcases on with _ | _
      · cases h
        rfl
      · obtain ⟨⟨⟩, s₄, -, h⟩ := bind_ok h
        cases h
        rfl
    have hcreates := ((Creates.of_settles hsettle).trans (.insert hins)).trans
      (.of_settles hrest.2)
    exact ⟨newID, hrest.1, hcreates⟩
  unfold createContainer at h
  by_cases href : 0 < refID
  · simp only [if_pos href] at h
    obtain ⟨obj, s₁, hload, h⟩ := bind_ok h
    obtain ⟨newID, hid, hcreates⟩ := hnew h
    have hset := Settles.of_run (holds_loadObject querySections_settling refID) hload
    exact ⟨newID, hid, (Creates.of_settles hset).trans hcreates⟩
  · simp only [if_neg href] at h
    exact hnew h

end

end MediaTomb
