/-
  The counter, the queue and the timer.

  For every registered directory the counter says how many of its rescans are queued or running, and
  a directory without a valid one is subscribed at the timer.  A rescan that runs to its end keeps
  that: it takes itself off the counter, and subscribes the directory when it was the last.

  Two ways out of the queue do not go through the end of `run`: a task that is no longer valid is
  dropped without being run, and an exception out of `_rescanDirectory` jumps over the rest.
-/
import MediaTomb.Content.ContentManager

namespace MediaTomb

open Lib.Machine

namespace ContentManager

section

variable {cm cm' : ContentManager} {scanID i : Nat} {dir : TimedAutoscanDirectory} {task : CMTask}

/-! ## The autoscan list -/

theorem getAutoscanDirectory_congr (h : cm'.autoscanTimed = cm.autoscanTimed) (i : Nat) :
    cm'.getAutoscanDirectory i = cm.getAutoscanDirectory i := by
  unfold getAutoscanDirectory
  rw [h]

theorem getAutoscanDirectory_set (hget : (cm.getAutoscanDirectory scanID).isSome)
    (h : cm'.autoscanTimed = cm.autoscanTimed.set scanID (some dir)) (i : Nat) :
    cm'.getAutoscanDirectory i = if i = scanID then some dir else cm.getAutoscanDirectory i := by
  unfold getAutoscanDirectory at hget ⊢
  rw [h]
  rcases Nat.lt_or_ge scanID cm.autoscanTimed.length with hlt | hge
  · split_ifs with heq
    · rw [heq, List.getElem?_set_self hlt]
      rfl
    · rw [List.getElem?_set_ne (Ne.symm heq)]
  · rw [List.getElem?_eq_none hge] at hget
    cases hget

theorem getAutoscanDirectory_removeScan (dirs : List (Option TimedAutoscanDirectory)) (i : Nat) :
    ((removeScan scanID dirs)[i]?).join = if i = scanID then none else (dirs[i]?).join := by
  unfold removeScan
  split_ifs with hlast heq heq
  · rw [heq, List.getElem?_eq_none (by rw [List.length_dropLast]; omega)]
    rfl
  · rcases Nat.lt_or_ge i scanID with hlt | hge
    · rw [List.getElem?_dropLast, if_pos (by omega)]
    · rw [List.getElem?_eq_none (by rw [List.length_dropLast]; omega),
        List.getElem?_eq_none (by omega)]
  · rw [heq]
    rcases Nat.lt_or_ge scanID dirs.length with hlt | hge
    · rw [List.getElem?_set_self hlt]
      rfl
    · rw [List.getElem?_eq_none (by rw [List.length_set]; omega)]
      rfl
  · rw [List.getElem?_set_ne (Ne.symm heq)]

/-! ## What is kept -/

/-- How many rescans of the directory are queued or running. -/
def rescanCount (cm : ContentManager) (scanID : Nat) : Nat :=
  cm.tasks.countP fun task => task.rescans scanID

/-- Every registered directory has a valid rescan queued or running, or is subscribed; and its
    counter is right. -/
def Tended (cm : ContentManager) : Prop :=
  ∀ scanID dir, cm.getAutoscanDirectory scanID = some dir →
    ((∃ task ∈ cm.tasks, task.rescans scanID = true ∧ task.valid = true) ∨
        scanID ∈ cm.subscribers) ∧
      dir.taskCount = cm.rescanCount scanID

/-- **The invariant**: the rescans of registered directories are all valid. -/
structure TendedInv (cm : ContentManager) : Prop where
  count : ∀ scanID dir, cm.getAutoscanDirectory scanID = some dir →
    dir.taskCount = cm.rescanCount scanID
  valid : ∀ scanID dir, cm.getAutoscanDirectory scanID = some dir → ∀ task ∈ cm.tasks,
    task.rescans scanID = true → task.valid = true
  tended : ∀ scanID dir, cm.getAutoscanDirectory scanID = some dir →
    0 < cm.rescanCount scanID ∨ scanID ∈ cm.subscribers

theorem TendedInv.holds (hinv : TendedInv cm) : cm.Tended := by
  intro scanID dir hget
  refine ⟨?_, hinv.count scanID dir hget⟩
  rcases hinv.tended scanID dir hget with hpos | hsub
  · obtain ⟨task, htask, hrescans⟩ := List.countP_pos_iff.mp hpos
    exact Or.inl ⟨task, htask, hrescans, hinv.valid scanID dir hget task htask hrescans⟩
  · exact Or.inr hsub

/-- **The condition**: no rescan of a registered directory is cancelled, and none throws. -/
def Undisturbed (cm : ContentManager) : TaskEvent → Prop
  | .invalidateTask taskID => ∀ task ∈ cm.tasks, task.hasID taskID = true →
      ∀ scanID, task.rescans scanID = true → cm.getAutoscanDirectory scanID = none
  | .finish .throws => ∀ task, cm.currentTask = some task →
      ∀ scanID, task.rescans scanID = true → cm.getAutoscanDirectory scanID = none
  | _ => True

/-! ## Tasks come and go -/

theorem rescanCount_perm (h : cm'.tasks.Perm cm.tasks) (i : Nat) :
    cm'.rescanCount i = cm.rescanCount i := h.countP_eq _

theorem rescanCount_cons (h : cm'.tasks.Perm (task :: cm.tasks)) (i : Nat) :
    cm'.rescanCount i = cm.rescanCount i + if task.rescans i then 1 else 0 := by
  unfold rescanCount
  rw [h.countP_eq, List.countP_cons]

/-- The same tasks, in another order. -/
theorem TendedInv.perm (hinv : TendedInv cm) (hdirs : cm'.autoscanTimed = cm.autoscanTimed)
    (hsubs : cm'.subscribers = cm.subscribers) (htasks : cm'.tasks.Perm cm.tasks) :
    TendedInv cm' := by
  refine ⟨fun i dir hget => ?_, fun i dir hget t ht hrescans => ?_, fun i dir hget => ?_⟩
  all_goals rw [getAutoscanDirectory_congr hdirs] at hget
  · rw [rescanCount_perm htasks]
    exact hinv.count i dir hget
  · exact hinv.valid i dir hget t (htasks.mem_iff.mp ht) hrescans
  · rw [rescanCount_perm htasks, hsubs]
    exact hinv.tended i dir hget

/-- A task that rescans no registered directory comes, or goes. -/
theorem TendedInv.cons (hinv : TendedInv cm) (hdirs : cm'.autoscanTimed = cm.autoscanTimed)
    (hsubs : cm'.subscribers = cm.subscribers) (htasks : cm'.tasks.Perm (task :: cm.tasks))
    (hforeign : ∀ i, task.rescans i = true → cm.getAutoscanDirectory i = none) :
    TendedInv cm' := by
  have hcount : ∀ i dir, cm.getAutoscanDirectory i = some dir →
      cm'.rescanCount i = cm.rescanCount i := by
    intro i dir hget
    rw [rescanCount_cons htasks]
    split_ifs with hrescans
    · rw [hforeign i hrescans] at hget
      cases hget
    · rfl
  refine ⟨fun i dir hget => ?_, fun i dir hget t ht hrescans => ?_, fun i dir hget => ?_⟩
  all_goals rw [getAutoscanDirectory_congr hdirs] at hget
  · rw [hcount i dir hget]
    exact hinv.count i dir hget
  · rcases List.mem_cons.mp (htasks.mem_iff.mp ht) with rfl | ht
    · rw [hforeign i hrescans] at hget
      cases hget
    · exact hinv.valid i dir hget t ht hrescans
  · rw [hcount i dir hget, hsubs]
    exact hinv.tended i dir hget

theorem TendedInv.uncons (hinv : TendedInv cm) (hdirs : cm'.autoscanTimed = cm.autoscanTimed)
    (hsubs : cm'.subscribers = cm.subscribers) (htasks : cm.tasks.Perm (task :: cm'.tasks))
    (hforeign : ∀ i, task.rescans i = true → cm.getAutoscanDirectory i = none) :
    TendedInv cm' := by
  have hcount : ∀ i dir, cm.getAutoscanDirectory i = some dir →
      cm'.rescanCount i = cm.rescanCount i := by
    intro i dir hget
    rw [rescanCount_cons htasks]
    split_ifs with hrescans
    · rw [hforeign i hrescans] at hget
      cases hget
    · rfl
  refine ⟨fun i dir hget => ?_, fun i dir hget t ht hrescans => ?_, fun i dir hget => ?_⟩
  all_goals rw [getAutoscanDirectory_congr hdirs] at hget
  · rw [hcount i dir hget]
    exact hinv.count i dir hget
  · exact hinv.valid i dir hget t (htasks.mem_iff.mpr (List.mem_cons_of_mem _ ht)) hrescans
  · rw [hcount i dir hget, hsubs]
    exact hinv.tended i dir hget

theorem tasks_addTask (kind : TaskKind) (parentTaskID : Nat) (lowPriority : Bool) :
    (cm.addTask kind parentTaskID lowPriority).tasks.Perm
      ({ taskID := cm.taskID, parentTaskID := parentTaskID, kind := kind } :: cm.tasks) := by
  unfold addTask
  simp only
  split
  · have hsplit : ∀ task, cm.taskQueue1 ++ (cm.taskQueue2 ++ [task]) ++ cm.currentTask.toList =
        (cm.taskQueue1 ++ cm.taskQueue2) ++ task :: cm.currentTask.toList := by simp
    unfold tasks
    rw [hsplit]
    exact List.perm_middle
  · have hsplit : ∀ task, cm.taskQueue1 ++ [task] ++ cm.taskQueue2 ++ cm.currentTask.toList =
        cm.taskQueue1 ++ task :: (cm.taskQueue2 ++ cm.currentTask.toList) := by simp
    unfold tasks
    rw [hsplit, List.append_assoc]
    exact List.perm_middle

theorem addTask_autoscanTimed (kind : TaskKind) (parentTaskID : Nat) (lowPriority : Bool) :
    (cm.addTask kind parentTaskID lowPriority).autoscanTimed = cm.autoscanTimed := by
  unfold addTask
  simp only
  split <;> rfl

theorem addTask_subscribers (kind : TaskKind) (parentTaskID : Nat) (lowPriority : Bool) :
    (cm.addTask kind parentTaskID lowPriority).subscribers = cm.subscribers := by
  unfold addTask
  simp only
  split <;> rfl

/-- What is in the thread's hands is dropped. -/
theorem tasks_drop (hcurrent : cm.currentTask = some task) :
    cm.tasks.Perm (task :: cm.drop.tasks) := by
  unfold tasks drop
  rw [hcurrent]
  simp only [Option.toList, List.append_nil]
  exact List.perm_append_singleton task _

/-! ## Rescans -/

/-- `rescanDirectory` counts the task it queues. -/
theorem rescanDirectory_some (hget : cm.getAutoscanDirectory scanID = some dir) :
    (∀ i, (cm.rescanDirectory scanID).getAutoscanDirectory i =
        if i = scanID then some { dir with taskCount := dir.taskCount + 1 }
        else cm.getAutoscanDirectory i) ∧
      (cm.rescanDirectory scanID).subscribers = cm.subscribers ∧
      (cm.rescanDirectory scanID).tasks.Perm
        ({ taskID := cm.taskID, kind := .rescanDirectory scanID } :: cm.tasks) := by
  unfold rescanDirectory
  rw [hget]
  refine ⟨fun i => ?_, addTask_subscribers _ _ _, tasks_addTask _ _ _⟩
  exact getAutoscanDirectory_set (by rw [hget]; rfl) (addTask_autoscanTimed _ _ _) i

theorem rescans_self (taskID scanID i : Nat) :
    CMTask.rescans { taskID := taskID, kind := .rescanDirectory scanID } i = true ↔
      i = scanID := by
  unfold CMTask.rescans
  rw [decide_eq_true_eq, TaskKind.rescanDirectory.injEq]
  exact eq_comm

theorem tendedInv_rescanDirectory (hinv : TendedInv cm) (scanID : Nat) :
    TendedInv (cm.rescanDirectory scanID) ∧
      (∀ dir, cm.getAutoscanDirectory scanID = some dir →
        0 < (cm.rescanDirectory scanID).rescanCount scanID) := by
  rcases hget : cm.getAutoscanDirectory scanID with _ | dir
  · have hsame : cm.rescanDirectory scanID = cm := by
      unfold rescanDirectory
      rw [hget]
    rw [hsame]
    exact ⟨hinv, fun dir hdir => (nomatch hdir)⟩
  · obtain ⟨hdirs, hsubs, htasks⟩ := rescanDirectory_some hget
    have hcount := rescanCount_cons htasks
    have hself : (cm.rescanDirectory scanID).rescanCount scanID = cm.rescanCount scanID + 1 := by
      rw [hcount, if_pos ((rescans_self _ _ _).mpr rfl)]
    have hother : ∀ i, i ≠ scanID →
        (cm.rescanDirectory scanID).rescanCount i = cm.rescanCount i := by
      intro i hne
      rw [hcount, if_neg (fun h => hne ((rescans_self _ _ _).mp h))]
      rfl
    refine ⟨⟨fun i d hd => ?_, fun i d hd t ht hrescans => ?_, fun i d hd => ?_⟩,
      fun _ _ => by omega⟩
    · rw [hdirs] at hd
      split_ifs at hd with heq
      · cases hd
        rw [heq, hself]
        have hold := hinv.count scanID dir hget
        push_cast
        rw [← hold]
      · rw [hother i heq]
        exact hinv.count i d hd
    · rcases List.mem_cons.mp (htasks.mem_iff.mp ht) with rfl | ht
      · rfl
      · rw [hdirs] at hd
        split_ifs at hd with heq
        · rw [heq] at hrescans
          exact hinv.valid scanID dir hget t ht hrescans
        · exact hinv.valid i d hd t ht hrescans
    · rw [hdirs] at hd
      split_ifs at hd with heq
      · left
        rw [heq]
        omega
      · rw [hother i heq, hsubs]
        exact hinv.tended i d hd

theorem tendedInv_timer (hinv : TendedInv cm) (h : cm.onTimer scanID = some cm') :
    TendedInv cm' := by
  unfold onTimer at h
  split_ifs at h with hsub
  cases h
  obtain ⟨hnext, hpos⟩ := tendedInv_rescanDirectory hinv scanID
  refine ⟨hnext.count, hnext.valid, fun i d hd => ?_⟩
  rcases hnext.tended i d hd with hcount | hin
  · exact Or.inl hcount
  · by_cases heq : i = scanID
    · -- the rescan is queued before the subscription goes
      left
      rw [heq] at hd ⊢
      rcases hget : cm.getAutoscanDirectory scanID with _ | dir
      · have hsame : cm.rescanDirectory scanID = cm := by
          unfold rescanDirectory
          rw [hget]
        have hd' : (cm.rescanDirectory scanID).getAutoscanDirectory scanID = some d := hd
        rw [hsame, hget] at hd'
        cases hd'
      · exact hpos dir hget
    · exact Or.inr ((List.mem_erase_of_ne heq).mpr hin)

theorem tendedInv_dequeue (hinv : TendedInv cm) (h : cm.onDequeue = some cm') :
    TendedInv cm' := by
  unfold onDequeue at h
  split at h
  · next task rest hcurrent hqueue =>
    cases h
    refine hinv.perm rfl rfl ?_
    unfold tasks
    rw [hcurrent, hqueue]
    simp only [Option.toList, List.append_nil, List.cons_append]
    exact List.perm_append_singleton task _
  · next task rest hcurrent hqueue1 hqueue2 =>
    cases h
    refine hinv.perm rfl rfl ?_
    unfold tasks
    rw [hcurrent, hqueue1, hqueue2]
    simp only [Option.toList, List.append_nil, List.nil_append]
    exact List.perm_append_singleton task _
  · cases h

theorem tendedInv_start (hinv : TendedInv cm) (h : cm.onStart = some cm') : TendedInv cm' := by
  unfold onStart at h
  split at h
  · next task hcurrent hrunning =>
    have hmem : task ∈ cm.tasks := by
      unfold tasks
      rw [hcurrent]
      exact List.mem_append_right _ List.mem_cons_self
    split_ifs at h with hvalid
    · -- a task that is not valid rescans no registered directory
      cases h
      refine hinv.uncons rfl rfl (tasks_drop hcurrent) fun i hrescans => ?_
      rcases hget : cm.getAutoscanDirectory i with _ | dir
      · rfl
      · have hyes := hinv.valid i dir hget task hmem hrescans
        rw [hyes] at hvalid
        cases hvalid
    · split at h
      · cases h
        exact hinv.perm rfl rfl (List.Perm.refl _)
      · next scanID hkind =>
        split at h
        · next hget =>
          cases h
          refine hinv.uncons rfl rfl (tasks_drop hcurrent) fun i hrescans => ?_
          unfold CMTask.rescans at hrescans
          rw [hkind] at hrescans
          simp only [TaskKind.rescanDirectory.injEq, decide_eq_true_eq] at hrescans
          rw [← hrescans]
          exact hget
        · cases h
          exact hinv.perm rfl rfl (List.Perm.refl _)
  · cases h

/-! ## The end of a task -/

theorem rescans_kind (hkind : task.kind = .rescanDirectory scanID) :
    task.rescans i = true ↔ i = scanID := by
  unfold CMTask.rescans
  rw [hkind, decide_eq_true_eq, TaskKind.rescanDirectory.injEq]
  exact eq_comm

/-- **A rescan that comes to its end** takes itself off the counter, and the last one subscribes
    the directory. -/
theorem tendedInv_scanDone (hinv : TendedInv cm) (hcurrent : cm.currentTask = some task)
    (hkind : task.kind = .rescanDirectory scanID) : TendedInv (cm.scanDone scanID).drop := by
  have htasks := tasks_drop hcurrent
  unfold scanDone
  rcases hget : cm.getAutoscanDirectory scanID with _ | dir
  · refine hinv.uncons rfl rfl htasks fun i hrescans => ?_
    rw [(rescans_kind hkind).mp hrescans]
    exact hget
  · -- the counter and the tasks both lose one
    have hself : cm.rescanCount scanID = cm.drop.rescanCount scanID + 1 := by
      rw [rescanCount_cons htasks, if_pos ((rescans_kind hkind).mpr rfl)]
    have hother : ∀ i, i ≠ scanID → cm.rescanCount i = cm.drop.rescanCount i := by
      intro i hne
      rw [rescanCount_cons htasks, if_neg fun h => hne ((rescans_kind hkind).mp h)]
      rfl
    have hcount := hinv.count scanID dir hget
    have hdone : ∀ subs : List Nat, (∀ i ∈ cm.subscribers, i ∈ subs) →
        (cm.drop.rescanCount scanID = 0 → scanID ∈ subs) →
        TendedInv
          ({ cm with
              autoscanTimed :=
                cm.autoscanTimed.set scanID (some { dir with taskCount := dir.taskCount - 1 })
              subscribers := subs }.drop) := by
      intro subs hkept hlast
      have hdirs : ∀ i, ContentManager.getAutoscanDirectory
          { cm with
            autoscanTimed :=
              cm.autoscanTimed.set scanID (some { dir with taskCount := dir.taskCount - 1 })
            subscribers := subs } i =
          if i = scanID then some { dir with taskCount := dir.taskCount - 1 }
          else cm.getAutoscanDirectory i :=
        getAutoscanDirectory_set (by rw [hget]; rfl) rfl
      refine ⟨fun i d hd => ?_, fun i d hd t ht hrescans => ?_, fun i d hd => ?_⟩
      all_goals
        have hd' := (hdirs i).symm.trans hd
        split_ifs at hd' with heq
      · cases hd'
        show dir.taskCount - 1 = (cm.drop.rescanCount i : Int)
        rw [heq]
        omega
      · show d.taskCount = (cm.drop.rescanCount i : Int)
        rw [← hother i heq]
        exact hinv.count i d hd'
      · have ht' := htasks.mem_iff.mpr (List.mem_cons_of_mem task ht)
        rw [heq] at hrescans
        exact hinv.valid scanID dir hget t ht' hrescans
      · have ht' := htasks.mem_iff.mpr (List.mem_cons_of_mem task ht)
        exact hinv.valid i d hd' t ht' hrescans
      · show 0 < cm.drop.rescanCount i ∨ i ∈ subs
        rw [heq]
        rcases Nat.eq_zero_or_pos (cm.drop.rescanCount scanID) with hzero | hpos
        · exact Or.inr (hlast hzero)
        · exact Or.inl hpos
      · show 0 < cm.drop.rescanCount i ∨ i ∈ subs
        rw [← hother i heq]
        rcases hinv.tended i d hd' with hpos | hsub
        · exact Or.inl hpos
        · exact Or.inr (hkept i hsub)
    simp only
    split_ifs with hzero
    · unfold subscribe
      split_ifs with hsub
      · exact hdone cm.subscribers (fun i hi => hi) fun _ => hsub
      · refine hdone (cm.subscribers ++ [scanID]) (fun i hi => List.mem_append_left _ hi) fun _ => ?_
        exact List.mem_append_right _ List.mem_cons_self
    · exact hdone cm.subscribers (fun i hi => hi) fun hnone => by omega

/-- A directory that has vanished is taken out of the list. -/
theorem tendedInv_remove (hinv : TendedInv cm) (hcurrent : cm.currentTask = some task)
    (hkind : task.kind = .rescanDirectory scanID) :
    TendedInv (cm.removeAutoscanDirectory scanID).drop := by
  have htasks := tasks_drop hcurrent
  have hdirs : ∀ i, (cm.removeAutoscanDirectory scanID).getAutoscanDirectory i =
      if i = scanID then none else cm.getAutoscanDirectory i :=
    getAutoscanDirectory_removeScan cm.autoscanTimed
  have hother : ∀ i, i ≠ scanID → cm.rescanCount i = cm.drop.rescanCount i := by
    intro i hne
    rw [rescanCount_cons htasks, if_neg fun h => hne ((rescans_kind hkind).mp h)]
    rfl
  refine ⟨fun i d hd => ?_, fun i d hd t ht hrescans => ?_, fun i d hd => ?_⟩
  all_goals
    have hd' := (hdirs i).symm.trans hd
    split_ifs at hd' with heq
  · show d.taskCount = (cm.drop.rescanCount i : Int)
    rw [← hother i heq]
    exact hinv.count i d hd'
  · have ht' := htasks.mem_iff.mpr (List.mem_cons_of_mem task ht)
    exact hinv.valid i d hd' t ht' hrescans
  · show 0 < cm.drop.rescanCount i ∨ i ∈ cm.subscribers.erase scanID
    rw [← hother i heq]
    rcases hinv.tended i d hd' with hpos | hsub
    · exact Or.inl hpos
    · exact Or.inr ((List.mem_erase_of_ne heq).mpr hsub)

theorem tendedInv_finish {how : ScanEnd} (hinv : TendedInv cm)
    (hcalm : cm.Undisturbed (.finish how)) (h : cm.onFinish how = some cm') :
    TendedInv cm' := by
  unfold onFinish at h
  split at h
  · next task hcurrent hrunning =>
    split at h
    · next hkind =>
      cases h
      refine hinv.uncons rfl rfl (tasks_drop hcurrent) fun i hrescans => ?_
      unfold CMTask.rescans at hrescans
      rw [hkind] at hrescans
      cases of_decide_eq_true hrescans
    · next scanID hkind =>
      cases h
      cases how with
      | throws =>
        exact hinv.uncons rfl rfl (tasks_drop hcurrent) fun i hrescans =>
          hcalm task hcurrent i hrescans
      | returns => exact tendedInv_scanDone hinv hcurrent hkind
      | gone =>
        unfold scanEnds
        rcases hget : cm.getAutoscanDirectory scanID with _ | dir
        · refine hinv.uncons rfl rfl (tasks_drop hcurrent) fun i hrescans => ?_
          rw [(rescans_kind hkind).mp hrescans]
          exact hget
        · simp only
          split_ifs
          · exact tendedInv_scanDone hinv hcurrent hkind
          · exact tendedInv_remove hinv hcurrent hkind
  · cases h

theorem tendedInv_spawn (hinv : TendedInv cm) (h : cm.onSpawn = some cm') : TendedInv cm' := by
  unfold onSpawn at h
  split at h
  · split at h
    · cases h
    · cases h
      exact (tendedInv_rescanDirectory hinv _).1
  · cases h

/-! ## Cancellations -/

theorem tasks_invalidateTask (taskID : Nat) : (cm.invalidateTask taskID).tasks =
    cm.tasks.map fun task => task.invalidateIf taskID := by
  unfold invalidateTask tasks
  rcases cm.currentTask with _ | task
  · simp
  · simp

theorem rescans_invalidateIf (taskID : Nat) (task : CMTask) (i : Nat) :
    (task.invalidateIf taskID).rescans i = task.rescans i := by
  unfold CMTask.invalidateIf
  split <;> rfl

theorem tendedInv_invalidateTask {taskID : Nat} (hinv : TendedInv cm)
    (hcalm : cm.Undisturbed (.invalidateTask taskID)) : TendedInv (cm.invalidateTask taskID) := by
  have hcount : ∀ i, (cm.invalidateTask taskID).rescanCount i = cm.rescanCount i := by
    intro i
    unfold rescanCount
    rw [tasks_invalidateTask, List.countP_map]
    congr 1
    funext task
    exact rescans_invalidateIf taskID task i
  refine ⟨fun i d hd => ?_, fun i d hd t ht hrescans => ?_, fun i d hd => ?_⟩
  · rw [hcount]
    exact hinv.count i d hd
  · rw [tasks_invalidateTask] at ht
    obtain ⟨task, htask, rfl⟩ := List.mem_map.mp ht
    rw [rescans_invalidateIf] at hrescans
    have hvalid := hinv.valid i d hd task htask hrescans
    unfold CMTask.invalidateIf
    split_ifs with hid
    · have hnone := hcalm task htask hid i hrescans
      have hd' : cm.getAutoscanDirectory i = some d := hd
      rw [hnone] at hd'
      cases hd'
    · exact hvalid
  · rw [hcount]
    exact hinv.tended i d hd

theorem tendedInv_step {e : TaskEvent} (hinv : TendedInv cm) (hcalm : cm.Undisturbed e)
    (h : cm.step e = some cm') : TendedInv cm' := by
  cases e with
  | timer scanID => exact tendedInv_timer hinv h
  | rescanDirectory scanID =>
    cases h
    exact (tendedInv_rescanDirectory hinv scanID).1
  | addTask parentTaskID lowPriority =>
    cases h
    exact hinv.cons (addTask_autoscanTimed _ _ _) (addTask_subscribers _ _ _)
      (tasks_addTask _ _ _) fun i hrescans => (nomatch hrescans)
  | dequeue => exact tendedInv_dequeue hinv h
  | start => exact tendedInv_start hinv h
  | spawn => exact tendedInv_spawn hinv h
  | finish how => exact tendedInv_finish hinv hcalm h
  | invalidateTask taskID =>
    cases h
    exact tendedInv_invalidateTask hinv hcalm

end

/-! ## The start -/

section

variable {cm : ContentManager}

/-- The timer has no part in a rescan. -/
theorem rescanDirectory_subscribers (subs : List Nat) (scanID : Nat) :
    rescanDirectory { cm with subscribers := subs } scanID =
      { cm.rescanDirectory scanID with subscribers := subs } := by
  have hget : getAutoscanDirectory { cm with subscribers := subs } scanID =
      cm.getAutoscanDirectory scanID := rfl
  simp only [rescanDirectory, hget]
  cases cm.getAutoscanDirectory scanID with
  | none => rfl
  | some dir => rfl

/-- To queue the first rescans is what the timer does that notifies one directory after the
    other. -/
theorem tendedInv_first (subs : List Nat) (hnone : cm.subscribers = [])
    (hinv : TendedInv { cm with subscribers := subs }) :
    TendedInv (subs.foldl (fun cm scanID => cm.rescanDirectory scanID) cm) := by
  induction subs generalizing cm with
  | nil =>
    have hsame : { cm with subscribers := [] } = cm := by
      rw [← hnone]
    rw [hsame] at hinv
    exact hinv
  | cons scanID rest ih =>
    have hkeeps : (cm.rescanDirectory scanID).subscribers = [] := by
      have hsame : rescanDirectory { cm with subscribers := [] } scanID =
          { cm.rescanDirectory scanID with subscribers := [] } :=
        rescanDirectory_subscribers [] scanID
      have hsubs := congrArg subscribers hsame
      rw [← hnone] at hsubs
      exact hsubs.trans hnone
    have hnotify : onTimer { cm with subscribers := scanID :: rest } scanID =
        some { cm.rescanDirectory scanID with subscribers := rest } := by
      unfold onTimer
      rw [if_pos List.mem_cons_self, rescanDirectory_subscribers]
      simp only [List.erase_cons_head]
    exact ih hkeeps (tendedInv_timer hinv hnotify)

end

/-- Nothing is queued yet, and the timer will notify them all. -/
theorem tendedInv_waiting (dirs : List TimedAutoscanDirectory) :
    TendedInv { autoscanTimed := dirs.map fun dir => some { dir with taskCount := 0 }
                subscribers := List.range dirs.length } := by
  refine ⟨fun i dir hget => ?_, fun i dir hget task htask => (nomatch htask),
    fun i dir hget => ?_⟩
  all_goals
    unfold getAutoscanDirectory at hget
    rw [List.getElem?_map] at hget
  · rcases hd : dirs[i]? with _ | d
    · rw [hd] at hget
      cases hget
    · rw [hd] at hget
      cases hget
      rfl
  · rcases Nat.lt_or_ge i dirs.length with hlt | hge
    · exact Or.inr (List.mem_range.mpr hlt)
    · rw [List.getElem?_eq_none hge] at hget
      cases hget

theorem tendedInv_started (dirs : List TimedAutoscanDirectory) : TendedInv (started dirs) :=
  tendedInv_first (List.range dirs.length) rfl (tendedInv_waiting dirs)

end ContentManager

/-- **Every registered directory is tended** in every state of every run in which no rescan is
    cancelled or throws. -/
theorem rescans_tended (dirs : List TimedAutoscanDirectory) (events : List TaskEvent)
    (hcalm : Along ContentManager.Undisturbed ContentManager.step (.started dirs) events) :
    Always ContentManager.Tended ContentManager.step (.started dirs) events :=
  always_of_inv_of (fun _ _ _ => ContentManager.tendedInv_step) (fun _ hinv => hinv.holds)
    (ContentManager.tendedInv_started dirs) hcalm

namespace ContentManager

/-- A directory that is looked at every minute. -/
def minutely : TimedAutoscanDirectory :=
  { interval := 60, interval_pos := by decide, persistent := false }

/-- Its first rescan is done, and the timer calls for the next. -/
def rescanAgain : List TaskEvent := [.dequeue, .start, .finish .returns, .timer 0]

/-- Its first rescan is cancelled before the thread gets to it. -/
def cancelledRescan : List TaskEvent := [.invalidateTask 1, .dequeue, .start]

end ContentManager

open ContentManager in
theorem rescans_tended_again : Always Tended step (started [minutely]) rescanAgain :=
  rescans_tended [minutely] rescanAgain (by
    refine along_cons trivial rfl (along_cons trivial rfl (along_cons trivial rfl ?_))
    exact along_cons trivial rfl along_nil)

open ContentManager in
/-- **A cancelled rescan is never made up for**: nothing is queued, nobody waits for the timer, and
    the counter stays at one. -/
theorem cancelled_rescan_lost : ¬ Always Tended step (started [minutely]) cancelledRescan := by
  intro halways
  have hend : run step (started [minutely]) cancelledRescan =
      some { autoscanTimed := [some { minutely with taskCount := 1 }], taskID := 2 } := rfl
  have htended := halways.last hend 0 { minutely with taskCount := 1 } rfl
  have hcount : (1 : Int) = 0 := htended.2
  cases hcount

end MediaTomb
