/-
  Rescans of timed autoscan directories (`content_manager.cc`, `autoscan.cc`, `timer.h`).

  A rescan is a TASK.  Queueing one counts it in the directory (`taskCount`), and a rescan queues
  further ones for the directories below.  When the last of them is done the directory subscribes
  itself at the timer, ONCE; the timer's notification queues the next rescan.

  The machine below has the two queues, the task in the hands of the content manager's thread, the
  timer's subscriptions and the list of the timed directories.  Tasks of other kinds are in the
  queues too, and nothing is said about what they do.  Directories are registered before the run
  begins; in the run they can only vanish.
-/
import MediaTomb.Common
import MediaTomb.Lib.Machine

namespace MediaTomb

/-! ## Directories and tasks -/

/-- A timed autoscan directory; an interval of zero is refused where it is configured. -/
structure TimedAutoscanDirectory where
  interval : Nat
  interval_pos : 0 < interval
  persistent : Bool
  taskCount : Int := 0

inductive TaskKind where
  /-- `CMRescanDirectoryTask` of a timed directory -/
  | rescanDirectory (scanID : Nat)
  | other
  deriving DecidableEq

structure CMTask where
  taskID : Nat
  parentTaskID : Nat := 0
  kind : TaskKind
  valid : Bool := true
  deriving DecidableEq

structure ContentManager where
  /-- the place in the list is the scan id -/
  autoscanTimed : List (Option TimedAutoscanDirectory)
  /-- the scan ids of the timer's subscriptions -/
  subscribers : List Nat := []
  taskQueue1 : List CMTask := []
  taskQueue2 : List CMTask := []
  currentTask : Option CMTask := none
  /-- `run` of the current task has been called -/
  running : Bool := false
  taskID : Nat := 1

/-- How `_rescanDirectory` ends. -/
inductive ScanEnd where
  | returns
  /-- the directory or its container is not there any more -/
  | gone
  | throws

inductive TaskEvent where
  /-- the timer notifies a subscriber -/
  | timer (scanID : Nat)
  | rescanDirectory (scanID : Nat)
  | addTask (parentTaskID : Nat) (lowPriority : Bool)
  /-- the thread takes a task from the queues -/
  | dequeue
  /-- the thread looks whether the task is valid, and runs it -/
  | start
  /-- the running rescan comes upon a directory below -/
  | spawn
  /-- the running task ends -/
  | finish (how : ScanEnd)
  | invalidateTask (taskID : Nat)

/-- The task has this id, or its parent has. -/
def CMTask.hasID (task : CMTask) (taskID : Nat) : Bool :=
  task.taskID == taskID || task.parentTaskID == taskID

def CMTask.invalidateIf (task : CMTask) (taskID : Nat) : CMTask :=
  if task.hasID taskID then { task with valid := false } else task

def CMTask.rescans (task : CMTask) (scanID : Nat) : Bool := task.kind = .rescanDirectory scanID

namespace ContentManager

/-! ## The autoscan list -/

/-- `autoscan_timed->get(scanID)`. -/
def getAutoscanDirectory (cm : ContentManager) (scanID : Nat) : Option TimedAutoscanDirectory :=
  (cm.autoscanTimed[scanID]?).join

/-- `autoscan_timed->remove(scanID)`: the last place goes away, any other becomes nil. -/
def removeScan (scanID : Nat) (dirs : List (Option TimedAutoscanDirectory)) :
    List (Option TimedAutoscanDirectory) :=
  if scanID + 1 = dirs.length then dirs.dropLast else dirs.set scanID none

/-- `ContentManager::removeAutoscanDirectory`. -/
def removeAutoscanDirectory (cm : ContentManager) (scanID : Nat) : ContentManager :=
  { cm with
    autoscanTimed := removeScan scanID cm.autoscanTimed
    subscribers := cm.subscribers.erase scanID }

/-! ## Tasks -/

def addTask (cm : ContentManager) (kind : TaskKind) (parentTaskID : Nat) (lowPriority : Bool) :
    ContentManager :=
  let task : CMTask := { taskID := cm.taskID, parentTaskID := parentTaskID, kind := kind }
  if lowPriority then { cm with taskID := cm.taskID + 1, taskQueue2 := cm.taskQueue2 ++ [task] }
  else { cm with taskID := cm.taskID + 1, taskQueue1 := cm.taskQueue1 ++ [task] }

/-- `rescanDirectory` of a timed directory. -/
def rescanDirectory (cm : ContentManager) (scanID : Nat) : ContentManager :=
  match cm.getAutoscanDirectory scanID with
  | none => cm
  | some dir =>
    { cm with
      autoscanTimed :=
        cm.autoscanTimed.set scanID (some { dir with taskCount := dir.taskCount + 1 }) }.addTask
      (.rescanDirectory scanID) 0 true

/-- `Timer::notify` for one subscriber that wants to be notified once. -/
def onTimer (cm : ContentManager) (scanID : Nat) : Option ContentManager :=
  if scanID ∈ cm.subscribers then
    let cm := cm.rescanDirectory scanID
    some { cm with subscribers := cm.subscribers.erase scanID }
  else none

/-- `addTimerSubscriber`; it throws if the subscription is there already. -/
def subscribe (cm : ContentManager) (scanID : Nat) : ContentManager :=
  if scanID ∈ cm.subscribers then cm else { cm with subscribers := cm.subscribers ++ [scanID] }

/-- The current task is done with. -/
def drop (cm : ContentManager) : ContentManager :=
  { cm with currentTask := none, running := false }

/-- The thread takes a task: the first queue comes before the second. -/
def onDequeue (cm : ContentManager) : Option ContentManager :=
  match cm.currentTask, cm.taskQueue1, cm.taskQueue2 with
  | none, task :: rest, _ => some { cm with taskQueue1 := rest, currentTask := some task }
  | none, [], task :: rest => some { cm with taskQueue2 := rest, currentTask := some task }
  | _, _, _ => none

/-- The thread runs the task if it is valid; a rescan of a directory that is not in the list
    returns at once. -/
def onStart (cm : ContentManager) : Option ContentManager :=
  match cm.currentTask, cm.running with
  | some task, false =>
    if !task.valid then some cm.drop
    else
      match task.kind with
      | .other => some { cm with running := true }
      | .rescanDirectory scanID =>
        match cm.getAutoscanDirectory scanID with
        | none => some cm.drop
        | some _ => some { cm with running := true }
  | _, _ => none

/-- The end of `CMRescanDirectoryTask::run`: the last task subscribes the directory again. -/
def scanDone (cm : ContentManager) (scanID : Nat) : ContentManager :=
  match cm.getAutoscanDirectory scanID with
  | none => cm
  | some dir =>
    let dir := { dir with taskCount := dir.taskCount - 1 }
    let cm := { cm with autoscanTimed := cm.autoscanTimed.set scanID (some dir) }
    if dir.taskCount = 0 then cm.subscribe scanID else cm

/-- `_rescanDirectory` has ended. -/
def scanEnds (cm : ContentManager) (scanID : Nat) (how : ScanEnd) : ContentManager :=
  match how with
  | .throws => cm
  | .returns => cm.scanDone scanID
  | .gone =>
    match cm.getAutoscanDirectory scanID with
    | none => cm
    | some dir =>
      -- the counter of a directory that is taken out of the list is nobody's concern
      if dir.persistent then cm.scanDone scanID else cm.removeAutoscanDirectory scanID

def onFinish (cm : ContentManager) (how : ScanEnd) : Option ContentManager :=
  match cm.currentTask, cm.running with
  | some task, true =>
    match task.kind with
    | .other => some cm.drop
    | .rescanDirectory scanID => some (cm.scanEnds scanID how).drop
  | _, _ => none

def onSpawn (cm : ContentManager) : Option ContentManager :=
  match cm.currentTask, cm.running with
  | some task, true =>
    match task.kind with
    | .other => none
    | .rescanDirectory scanID => some (cm.rescanDirectory scanID)
  | _, _ => none

def invalidateTask (cm : ContentManager) (taskID : Nat) : ContentManager :=
  { cm with
    currentTask := cm.currentTask.map fun task => task.invalidateIf taskID
    taskQueue1 := cm.taskQueue1.map fun task => task.invalidateIf taskID
    taskQueue2 := cm.taskQueue2.map fun task => task.invalidateIf taskID }

/-! ## The machine -/

def step (cm : ContentManager) : TaskEvent → Option ContentManager
  | .timer scanID => cm.onTimer scanID
  | .rescanDirectory scanID => some (cm.rescanDirectory scanID)
  | .addTask parentTaskID lowPriority => some (cm.addTask .other parentTaskID lowPriority)
  | .dequeue => cm.onDequeue
  | .start => cm.onStart
  | .spawn => cm.onSpawn
  | .finish how => cm.onFinish how
  | .invalidateTask taskID => some (cm.invalidateTask taskID)

/-- The directories are registered, and `notifyAll` has queued a rescan of each. -/
def started (dirs : List TimedAutoscanDirectory) : ContentManager :=
  (List.range dirs.length).foldl (fun cm scanID => cm.rescanDirectory scanID)
    { autoscanTimed := dirs.map fun dir => some { dir with taskCount := 0 } }

/-- Everything that is queued or running. -/
def tasks (cm : ContentManager) : List CMTask :=
  cm.taskQueue1 ++ cm.taskQueue2 ++ cm.currentTask.toList

end ContentManager
end MediaTomb
