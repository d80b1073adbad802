/-
  The two task queues of the content manager (`content_manager.cc`) and the list of tasks that the
  web interface shows.

  A task is an OBJECT: the queues and the thread that works on it have references to it, and
  cancelling marks the object.  `ContentManager` tells what the tasks do to the autoscan directories;
  here it is about the queues themselves, which are the rings of `BaseQueue`.

  The reading is done with plain lists (`Waiting`).  `Represents` connects the two, every event keeps
  it, and so each loop over a queue becomes a fold over a list.

  `getTasklist` goes over the second queue with the wrong statement in its loop: where the first loop
  APPENDS a valid task, the second one begins a NEW array.
-/
import MediaTomb.BaseQueue
import MediaTomb.Tools
import MediaTomb.Lib.Machine

namespace MediaTomb

open Lib.Machine

/-! ## Tasks -/

/-- `task_type_t`; a `CMAddFileTask` has the path it adds. -/
inductive TaskType where
  | addFile (path : Str)
  | removeObject
  | loadAccounting
  | rescanDirectory
  | fetchOnlineContent
  deriving DecidableEq

/-- The part of `CMTask` that the queues and the cancelling look at. -/
structure TaskObject where
  taskType : TaskType
  parentTaskID : Nat := 0
  taskID : Nat := 0
  valid : Bool := true
  deriving DecidableEq

structure TaskQueues where
  /-- the task objects, by reference -/
  task : Nat → TaskObject := fun _ => { taskType := .loadAccounting }
  /-- how many there are -/
  created : Nat := 0
  /-- `CM_INITIAL_QUEUE_SIZE` -/
  taskQueue1 : BaseQueue Nat := .create 20
  taskQueue2 : BaseQueue Nat := .create 20
  currentTask : Option Nat := none
  /-- an `unsigned int` -/
  taskID : Nat := 1

namespace TaskQueues

/-- `addTask` of a new task. -/
def addTask (s : TaskQueues) (taskType : TaskType) (parentTaskID : Nat) (lowPriority : Bool) :
    TaskQueues :=
  let task := Function.update s.task s.created
    { taskType := taskType, parentTaskID := parentTaskID, taskID := s.taskID }
  let s := { s with task := task, taskID := (s.taskID + 1) % 2 ^ 32 }
  if !lowPriority then
    { s with taskQueue1 := s.taskQueue1.enqueue s.created, created := s.created + 1 }
  else
    { s with taskQueue2 := s.taskQueue2.enqueue s.created, created := s.created + 1 }

/-- The loop of `threadProc` comes round: the last task is done with, the next one is taken. -/
def threadProc (s : TaskQueues) : TaskQueues :=
  match s.taskQueue1.dequeue with
  | (some t, q) => { s with taskQueue1 := q, currentTask := some t }
  | (none, q) =>
    { s with
      taskQueue1 := q
      taskQueue2 := s.taskQueue2.dequeue.2
      currentTask := s.taskQueue2.dequeue.1 }

/-! ## Cancelling -/

/-- `t->invalidate()` for a task that meets a condition. -/
def invalidateIf (meets : TaskObject → Bool) (task : Nat → TaskObject) (t : Nat) :
    Nat → TaskObject :=
  if meets (task t) then Function.update task t { task t with valid := false } else task

/-- The same for the task in hand, if there is one. -/
def invalidateCurrent (meets : TaskObject → Bool) (current : Option Nat) (task : Nat → TaskObject) :
    Nat → TaskObject :=
  match current with
  | none => task
  | some t => invalidateIf meets task t

/-- The condition of `invalidateTask`. -/
def hasID (taskID : Nat) (task : TaskObject) : Bool :=
  task.taskID == taskID || task.parentTaskID == taskID

/-- The condition of `invalidateAddTask`: an `AddFile` task whose path `startsWith` the given one. -/
def addsBelow (path : Str) (task : TaskObject) : Bool :=
  match task.taskType with
  | .addFile taskPath => path.isPrefixOf taskPath
  | _ => false

/-- `invalidateTask`; `none` where a queue has a nil reference. -/
def invalidateTask (s : TaskQueues) (taskID : Nat) : Option TaskQueues := do
  let task := invalidateCurrent (hasID taskID) s.currentTask s.task
  let task ← s.taskQueue1.forEach (invalidateIf (hasID taskID)) task
  let task ← s.taskQueue2.forEach (invalidateIf (hasID taskID)) task
  return { s with task := task }

/-- What `removeObject` does to the queues before a container at `path` is removed. -/
def invalidateAddTasks (s : TaskQueues) (path : Str) : Option TaskQueues := do
  let task ← s.taskQueue1.forEach (invalidateIf (addsBelow path)) s.task
  let task ← s.taskQueue2.forEach (invalidateIf (addsBelow path)) task
  return { s with task := invalidateCurrent (addsBelow path) s.currentTask task }

/-! ## The list for the web interface -/

def isValid (s : TaskQueues) (t : Nat) : Bool := (s.task t).valid

/-- `getTasklist`; the inner `none` is nil. -/
def getTasklist (s : TaskQueues) : Option (Option (List Nat)) :=
  match s.currentTask with
  | none => some none
  | some t => do
    let taskList := [t]
    let taskList ← s.taskQueue1.forEach
      (fun taskList t => if s.isValid t then taskList ++ [t] else taskList) taskList
    -- a new array, where the loop above appends
    let taskList ← s.taskQueue2.forEach
      (fun taskList t => if s.isValid t then [] else taskList) taskList
    return some taskList

/-- Everything that is queued or in hand. -/
def waiting (s : TaskQueues) : List Nat :=
  s.currentTask.toList ++ (s.taskQueue1.toList ++ s.taskQueue2.toList)

/-! ## The machine -/

inductive Event where
  | addTask (taskType : TaskType) (parentTaskID : Nat) (lowPriority : Bool)
  | threadProc
  | invalidateTask (taskID : Nat)
  | invalidateAddTasks (path : Str)

def step (s : TaskQueues) : Event → Option TaskQueues
  | .addTask taskType parentTaskID lowPriority =>
    some (s.addTask taskType parentTaskID lowPriority)
  | .threadProc => some s.threadProc
  | .invalidateTask taskID => s.invalidateTask taskID
  | .invalidateAddTasks path => s.invalidateAddTasks path

/-! ## What waits -/

/-- The tasks in the order in which they were added, as lists. -/
structure Waiting where
  high : List Nat := []
  low : List Nat := []
  current : Option Nat := none
  created : Nat := 0

namespace Waiting

/-- The task in hand comes first. -/
def all (w : Waiting) : List Nat := w.current.toList ++ (w.high ++ w.low)

def step (w : Waiting) : Event → Waiting
  | .addTask _ _ false => { w with high := w.high ++ [w.created], created := w.created + 1 }
  | .addTask _ _ true => { w with low := w.low ++ [w.created], created := w.created + 1 }
  | .threadProc =>
    match w.high, w.low with
    | t :: rest, _ => { w with high := rest, current := some t }
    | [], t :: rest => { w with low := rest, current := some t }
    | [], [] => { w with current := none }
  | .invalidateTask _ => w
  | .invalidateAddTasks _ => w

/-- What waits after the events. -/
def after (events : List Event) : Waiting := events.foldl step {}

end Waiting

/-- **The rings hold what waits**, and no task waits twice. -/
structure Represents (s : TaskQueues) (w : Waiting) : Prop where
  high : s.taskQueue1.Holds w.high
  low : s.taskQueue2.Holds w.low
  current : s.currentTask = w.current
  created : s.created = w.created
  once : w.all.Nodup
  old : ∀ t ∈ w.all, t < w.created

section

variable {s s' : TaskQueues} {w : Waiting} {t : Nat}

theorem represents_init : Represents {} {} where
  high := BaseQueue.holds_create (by decide)
  low := BaseQueue.holds_create (by decide)
  current := rfl
  created := rfl
  once := List.nodup_nil
  old := fun _ ht => by cases ht

/-! ## Each event keeps it -/

theorem Waiting.all_new {w' : Waiting} (hperm : w'.all.Perm (w.created :: w.all))
    (hcreated : w'.created = w.created + 1) (once : w.all.Nodup)
    (old : ∀ t ∈ w.all, t < w.created) : w'.all.Nodup ∧ ∀ t ∈ w'.all, t < w'.created := by
  constructor
  · apply hperm.nodup_iff.mpr
    apply List.nodup_cons.mpr
    refine ⟨fun hmem => ?_, once⟩
    exact absurd (old _ hmem) (Nat.lt_irrefl _)
  · intro t ht
    rw [hcreated]
    rcases List.mem_cons.mp (hperm.mem_iff.mp ht) with rfl | hmem
    · exact Nat.lt_succ_self _
    · exact Nat.lt_succ_of_lt (old t hmem)

theorem Represents.addTask (h : s.Represents w) (taskType : TaskType) (parentTaskID : Nat)
    (lowPriority : Bool) : (s.addTask taskType parentTaskID lowPriority).Represents
      (w.step (.addTask taskType parentTaskID lowPriority)) := by
  cases lowPriority with
  | false =>
    have hperm : (w.current.toList ++ ((w.high ++ [w.created]) ++ w.low)).Perm
        (w.created :: w.all) := by
      unfold Waiting.all
      rw [List.append_assoc, ← List.append_assoc, List.singleton_append, ← List.append_assoc]
      exact List.perm_middle
    obtain ⟨honce, hold⟩ :=
      @Waiting.all_new _ (w.step (.addTask taskType parentTaskID false)) hperm rfl h.once h.old
    refine ⟨?_, h.low, h.current, congrArg (· + 1) h.created, honce, hold⟩
    show (s.taskQueue1.enqueue s.created).Holds (w.high ++ [w.created])
    rw [h.created]
    exact h.high.enqueue
  | true =>
    have hperm : (w.current.toList ++ (w.high ++ (w.low ++ [w.created]))).Perm
        (w.created :: w.all) := by
      unfold Waiting.all
      rw [← List.append_assoc, ← List.append_assoc, ← List.append_assoc]
      exact List.perm_append_singleton _ _
    obtain ⟨honce, hold⟩ :=
      @Waiting.all_new _ (w.step (.addTask taskType parentTaskID true)) hperm rfl h.once h.old
    refine ⟨h.high, ?_, h.current, congrArg (· + 1) h.created, honce, hold⟩
    show (s.taskQueue2.enqueue s.created).Holds (w.low ++ [w.created])
    rw [h.created]
    exact h.low.enqueue

/-- Whatever becomes the task in hand was the first that waited. -/
theorem Waiting.all_threadProc (w : Waiting) : (w.step .threadProc).all = w.high ++ w.low := by
  obtain ⟨high, low, current, created⟩ := w
  cases high with
  | cons t rest => rfl
  | nil =>
    cases low with
    | cons t rest => rfl
    | nil => rfl

theorem Waiting.created_threadProc (w : Waiting) : (w.step .threadProc).created = w.created := by
  obtain ⟨high, low, current, created⟩ := w
  cases high with
  | cons t rest => rfl
  | nil =>
    cases low with
    | cons t rest => rfl
    | nil => rfl

theorem Represents.threadProc (h : s.Represents w) :
    s.threadProc.Represents (w.step .threadProc) := by
  have honce : (w.step .threadProc).all.Nodup := by
    rw [w.all_threadProc]
    exact (List.nodup_append.mp h.once).2.1
  have hold : ∀ t ∈ (w.step .threadProc).all, t < (w.step .threadProc).created := by
    intro t ht
    rw [w.all_threadProc] at ht
    rw [w.created_threadProc]
    exact h.old t (List.mem_append_right _ ht)
  have hhigh := h.high
  have hlow := h.low
  obtain ⟨high, low, current, created⟩ := w
  cases high with
  | cons t rest =>
    obtain ⟨hfirst, hrest⟩ := hhigh.dequeue_cons
    have hstep : s.threadProc =
        { s with taskQueue1 := s.taskQueue1.dequeue.2, currentTask := some t } := by
      unfold TaskQueues.threadProc
      rw [← Prod.eta s.taskQueue1.dequeue, hfirst]
    rw [hstep]
    exact ⟨hrest, hlow, rfl, h.created, honce, hold⟩
  | nil =>
    have hstep : s.threadProc = { s with
        taskQueue2 := s.taskQueue2.dequeue.2, currentTask := s.taskQueue2.dequeue.1 } := by
      unfold TaskQueues.threadProc
      rw [hhigh.dequeue_nil]
    rw [hstep]
    cases low with
    | cons t rest =>
      obtain ⟨hfirst, hrest⟩ := hlow.dequeue_cons
      exact ⟨hhigh, hrest, hfirst, h.created, honce, hold⟩
    | nil =>
      refine ⟨hhigh, ?_, ?_, h.created, honce, hold⟩
      · show s.taskQueue2.dequeue.2.Holds []
        rw [hlow.dequeue_nil]
        exact hlow
      · show s.taskQueue2.dequeue.1 = none
        rw [hlow.dequeue_nil]

/-- The objects may change: what waits are the references. -/
theorem Represents.withTask (h : s.Represents w) (task : Nat → TaskObject) :
    Represents { s with task := task } w :=
  ⟨h.high, h.low, h.current, h.created, h.once, h.old⟩

theorem invalidateCurrent_eq (meets : TaskObject → Bool) (current : Option Nat)
    (task : Nat → TaskObject) : invalidateCurrent meets current task =
      current.toList.foldl (invalidateIf meets) task := by
  cases current with
  | none => rfl
  | some t => rfl

/-- The loops of `invalidateTask`, as one over everything that waits. -/
theorem Represents.invalidateTask (h : s.Represents w) (taskID : Nat) :
    s.invalidateTask taskID =
      some { s with task := w.all.foldl (invalidateIf (hasID taskID)) s.task } := by
  have hall : w.all.foldl (invalidateIf (hasID taskID)) s.task =
      w.low.foldl (invalidateIf (hasID taskID)) (w.high.foldl (invalidateIf (hasID taskID))
        (invalidateCurrent (hasID taskID) s.currentTask s.task)) := by
    unfold Waiting.all
    rw [List.foldl_append, List.foldl_append, invalidateCurrent_eq, h.current]
  unfold TaskQueues.invalidateTask
  simp only [h.high.forEach, h.low.forEach, Option.bind_eq_bind, Option.bind_some]
  rw [hall]
  rfl

/-- The same of `invalidateAddTask`, which comes to the task in hand last. -/
theorem Represents.invalidateAddTasks (h : s.Represents w) (path : Str) :
    s.invalidateAddTasks path = some { s with
      task := (w.high ++ (w.low ++ w.current.toList)).foldl
        (invalidateIf (addsBelow path)) s.task } := by
  have hall : (w.high ++ (w.low ++ w.current.toList)).foldl (invalidateIf (addsBelow path)) s.task =
      invalidateCurrent (addsBelow path) s.currentTask
        (w.low.foldl (invalidateIf (addsBelow path))
          (w.high.foldl (invalidateIf (addsBelow path)) s.task)) := by
    rw [List.foldl_append, List.foldl_append, invalidateCurrent_eq, h.current]
  unfold TaskQueues.invalidateAddTasks
  simp only [h.high.forEach, h.low.forEach, Option.bind_eq_bind, Option.bind_some]
  rw [hall]
  rfl

/-- **The step lemma.** -/
theorem Represents.step {e : Event} (h : s.Represents w) (hstep : s.step e = some s') :
    s'.Represents (w.step e) := by
  cases e with
  | addTask taskType parentTaskID lowPriority =>
    cases hstep
    exact h.addTask taskType parentTaskID lowPriority
  | threadProc =>
    cases hstep
    exact h.threadProc
  | invalidateTask taskID =>
    have heq : s.invalidateTask taskID = some s' := hstep
    rw [h.invalidateTask] at heq
    cases heq
    exact h.withTask _
  | invalidateAddTasks path =>
    have heq : s.invalidateAddTasks path = some s' := hstep
    rw [h.invalidateAddTasks] at heq
    cases heq
    exact h.withTask _

/-- **The run lemma.** -/
theorem represents_run {events : List Event} (hrun : run step {} events = some s) :
    s.Represents (Waiting.after events) := by
  induction events using List.reverseRecOn generalizing s with
  | nil =>
    cases hrun
    exact represents_init
  | append_singleton events e ih =>
    rw [run_concat] at hrun
    obtain ⟨m, hm, hstep⟩ := Option.bind_eq_some_iff.mp hrun
    unfold Waiting.after
    rw [List.foldl_append]
    exact (ih hm).step hstep

/-- No queue ever has a nil reference. -/
theorem run_isSome (events : List Event) : (run step {} events).isSome := by
  induction events using List.reverseRecOn with
  | nil => rfl
  | append_singleton events e ih =>
    obtain ⟨s, hs⟩ := Option.isSome_iff_exists.mp ih
    have h := represents_run hs
    rw [run_concat, hs, Option.bind_some]
    cases e with
    | addTask taskType parentTaskID lowPriority => rfl
    | threadProc => rfl
    | invalidateTask taskID =>
      show (s.invalidateTask taskID).isSome
      rw [h.invalidateTask]
      rfl
    | invalidateAddTasks path =>
      show (s.invalidateAddTasks path).isSome
      rw [h.invalidateAddTasks]
      rfl

theorem Represents.waiting_eq (h : s.Represents w) : s.waiting = w.all := by
  unfold waiting Waiting.all
  rw [h.current, h.high.toList_eq, h.low.toList_eq]

/-! ## Which tasks are invalidated -/

/-- Cancelling does not look at what it changes. -/
theorem addsBelow_invalid (path : Str) (task : TaskObject) :
    addsBelow path { task with valid := false } = addsBelow path task := rfl

theorem invalidateIf_apply (meets : TaskObject → Bool) (task : Nat → TaskObject) (t t' : Nat) :
    invalidateIf meets task t t' =
      if t' = t ∧ meets (task t') = true then { task t' with valid := false } else task t' := by
  unfold invalidateIf
  by_cases heq : t' = t
  · by_cases hmeets : meets (task t) = true
    · rw [heq, if_pos hmeets, Function.update_self, if_pos ⟨rfl, hmeets⟩]
    · rw [heq, if_neg hmeets, if_neg fun hboth => hmeets hboth.2]
  · have hno : ¬ (t' = t ∧ meets (task t') = true) := fun hboth => heq hboth.1
    rw [if_neg hno]
    split_ifs
    · exact Function.update_of_ne heq _ _
    · rfl

/-- **The loops over the queues**: each add task below the path is marked, and nothing else. -/
theorem foldl_invalidateIf (path : Str) (ts : List Nat) (task : Nat → TaskObject) (t : Nat) :
    ts.foldl (invalidateIf (addsBelow path)) task t =
      if t ∈ ts ∧ addsBelow path (task t) = true then { task t with valid := false }
      else task t := by
  induction ts generalizing task with
  | nil => rw [if_neg fun hboth => absurd hboth.1 List.not_mem_nil, List.foldl_nil]
  | cons first ts ih =>
    rw [List.foldl_cons, ih, invalidateIf_apply]
    by_cases hmark : t = first ∧ addsBelow path (task t) = true
    · -- marked now, and no later turn takes the mark away
      have hall : t ∈ first :: ts ∧ addsBelow path (task t) = true :=
        ⟨hmark.1 ▸ List.mem_cons_self, hmark.2⟩
      simp only [if_pos hmark, if_pos hall, addsBelow_invalid, ite_self]
    · simp only [if_neg hmark]
      have hsame : (t ∈ first :: ts ∧ addsBelow path (task t) = true) ↔
          (t ∈ ts ∧ addsBelow path (task t) = true) := by
        rw [List.mem_cons]
        constructor
        · rintro ⟨heq | hmem, hadds⟩
          · exact absurd ⟨heq, hadds⟩ hmark
          · exact ⟨hmem, hadds⟩
        · rintro ⟨hmem, hadds⟩
          exact ⟨Or.inr hmem, hadds⟩
      simp only [hsame]

/-! ## The list -/

theorem foldl_append_valid (valid : Nat → Bool) (ts acc : List Nat) :
    ts.foldl (fun acc t => if valid t then acc ++ [t] else acc) acc = acc ++ ts.filter valid := by
  induction ts generalizing acc with
  | nil => exact (List.append_nil acc).symm
  | cons t ts ih =>
    rw [List.foldl_cons, ih, List.filter_cons]
    split_ifs
    · rw [List.append_assoc, List.singleton_append]
    · rfl

/-- The second loop. -/
theorem foldl_new_array (valid : Nat → Bool) (ts acc : List Nat) :
    ts.foldl (fun acc t => if valid t then [] else acc) acc =
      if ts.any valid then [] else acc := by
  induction ts generalizing acc with
  | nil => rfl
  | cons t ts ih =>
    rw [List.foldl_cons, ih, List.any_cons]
    cases valid t with
    | true =>
      rw [if_pos rfl, Bool.true_or, if_pos rfl, ite_self]
    | false =>
      rw [if_neg Bool.false_ne_true, Bool.false_or]

/-- What `getTasklist` returns while there is a task in hand. -/
theorem Represents.getTasklist (h : s.Represents w) (hcurrent : s.currentTask = some t) :
    s.getTasklist = some (some
      (if w.low.any s.isValid then [] else t :: w.high.filter s.isValid)) := by
  unfold TaskQueues.getTasklist
  rw [hcurrent]
  simp only [h.high.forEach, h.low.forEach, Option.bind_eq_bind, Option.bind_some]
  rw [foldl_append_valid, foldl_new_array, List.singleton_append]
  rfl

/-- The list that was meant: the task in hand, and the valid tasks of both queues. -/
def Complete (s : TaskQueues) (w : Waiting) (taskList : List Nat) : Prop :=
  taskList = w.current.toList ++ (w.high.filter s.isValid ++ w.low.filter s.isValid) ∧
    taskList.Nodup

theorem Represents.complete (h : s.Represents w) :
    s.Complete w (w.current.toList ++ (w.high.filter s.isValid ++ w.low.filter s.isValid)) := by
  refine ⟨rfl, ?_⟩
  rw [← List.filter_append]
  exact h.once.sublist ((List.Sublist.refl _).append List.filter_sublist)

/-- **The list of tasks is complete just when no valid task waits in the second queue.** -/
theorem getTasklist_complete_iff {events : List Event} (hrun : run step {} events = some s)
    (hcurrent : s.currentTask = some t) :
    (∃ taskList, s.getTasklist = some (some taskList) ∧
        s.Complete (Waiting.after events) taskList) ↔
      ∀ t ∈ (Waiting.after events).low, s.isValid t = false := by
  have h := represents_run hrun
  have hw : (Waiting.after events).current = some t := h.current.symm.trans hcurrent
  have hall := h.complete
  rw [h.getTasklist hcurrent]
  rw [hw] at hall
  generalize hafter : Waiting.after events = w at *
  constructor
  · rintro ⟨taskList, heq, hcomplete, -⟩ t' ht'
    cases hvalid : s.isValid t' with
    | false => rfl
    | true =>
      rw [if_pos (List.any_eq_true.mpr ⟨t', ht', hvalid⟩)] at heq
      have hempty : ([] : List Nat) = taskList := Option.some.inj (Option.some.inj heq)
      rw [← hempty, hw] at hcomplete
      cases hcomplete
  · intro hnone
    have hany : w.low.any s.isValid = false :=
      List.any_eq_false.mpr fun t' ht' => Bool.not_eq_true _ ▸ hnone t' ht'
    have hlow : w.low.filter s.isValid = [] :=
      List.filter_eq_nil_iff.mpr fun t' ht' => Bool.not_eq_true _ ▸ hnone t' ht'
    refine ⟨_, rfl, ?_⟩
    rw [hany, if_neg Bool.false_ne_true]
    rw [hlow, List.append_nil] at hall
    unfold Complete
    rw [hw, hlow, List.append_nil]
    exact ⟨rfl, hall.2⟩

end

/-! ## Three tasks -/

/-- The state after the events. -/
def house (events : List Event) : TaskQueues := (run step {} events).getD {}

theorem run_house (events : List Event) : run step {} events = some (house events) := by
  obtain ⟨s, hs⟩ := Option.isSome_iff_exists.mp (run_isSome events)
  unfold house
  rw [hs]
  rfl

/-- A rescan is in hand, one file waits in each queue. -/
def twoFiles : List Event :=
  [.addTask .rescanDirectory 0 false, .threadProc, .addTask (.addFile (str "/a")) 1 false,
    .addTask (.addFile (str "/b")) 1 true]

/-- The same, and the file in the second queue is cancelled. -/
def oneCancelled : List Event := twoFiles ++ [.invalidateTask 3]

theorem getTasklist_complete_cancelled :
    ∃ taskList, (house oneCancelled).getTasklist = some (some taskList) ∧
      (house oneCancelled).Complete (Waiting.after oneCancelled) taskList :=
  (getTasklist_complete_iff (run_house oneCancelled) (t := 0) (by decide)).mpr (by decide)

/-- A valid task in the second queue, and the list is EMPTY. -/
theorem getTasklist_twoFiles : ¬ ∀ events s t, run step {} events = some s →
    s.currentTask = some t → ∃ taskList, s.getTasklist = some (some taskList) ∧
      s.Complete (Waiting.after events) taskList := by
  intro hall
  obtain ⟨taskList, heq, hcomplete, -⟩ :=
    hall twoFiles (house twoFiles) 0 (run_house twoFiles) (by decide)
  have hempty : (house twoFiles).getTasklist = some (some []) := by decide
  rw [hempty] at heq
  have hnil : ([] : List Nat) = taskList := Option.some.inj (Option.some.inj heq)
  rw [← hnil] at hcomplete
  exact absurd hcomplete (by decide)

end TaskQueues

end MediaTomb
