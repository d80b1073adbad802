/-
  The SQLite thread (`sqlite3_storage.cc`): all queries of all threads are tasks that one thread
  runs.

  A caller gives a task to `addTask` and then waits for its SIGNAL.  So each task that gets into the
  queue has to be signalled, and once, also when the storage shuts down.  The steps:
    * `addTask` tests `taskQueueOpen` without the mutex, and again with it before it enqueues;
    * the thread holds the mutex but while it sleeps and while it runs a task: `run`, the `dirty`
      flag and the signal are steps of their own, in which others may enqueue;
    * `shutdownDriver` sets `shutdownFlag`; the thread then closes the queue and refuses what is
      left in it, in one section.

  `cond` wakes the thread.  A signal that finds nobody asleep is lost, so whether the thread can
  miss one is part of what is proved.
-/
import MediaTomb.BaseQueue
import MediaTomb.Lib.Machine

namespace MediaTomb

open Lib.Machine

/-- How `task->run` ends. -/
inductive RunOutcome where
  | done (contamination decontamination : Bool)
  | throws (message : String)

/-- Where the thread is. -/
inductive SqliteWorker (α : Type) where
  | starting
  /-- in `cond->wait`; `woken` when it has been signalled -/
  | waiting (woken : Bool)
  | running (task : α)
  | ran (task : α) (outcome : RunOutcome)
  /-- the flag is set, the task is to be signalled -/
  | recorded (task : α) (error : Option String)
  /-- at AUTORELOCK -/
  | relocking
  | ended

/-- A call of `addTask` that has found the queue open and waits for the mutex. -/
structure AddTaskCall (α : Type) where
  task : α
  onlyIfDirty : Bool

structure SqliteThread (α : Type) where
  taskQueue : BaseQueue α := .create 20
  taskQueueOpen : Bool := true
  shutdownFlag : Bool := false
  dirty : Bool := false
  worker : SqliteWorker α := .starting
  calls : List (AddTaskCall α) := []
  /-- the calls that have returned without an exception -/
  returned : List (AddTaskCall α) := []
  /-- the tasks that were enqueued, and the calls that returned without enqueuing theirs -/
  accepted : List α := []
  skipped : List (AddTaskCall α) := []
  executed : List α := []
  /-- the tasks signalled after they were run, and those signalled with the shutdown error -/
  completed : List (α × Option String) := []
  refused : List (α × String) := []

inductive SqliteEvent (α : Type) where
  | addTask (task : α) (onlyIfDirty : Bool)
  /-- the call at this place gets the mutex -/
  | lock (call : Nat)
  /-- the thread takes its next step; if that is `run`, it ends like this -/
  | worker (outcome : RunOutcome)
  /-- `pthread_cond_wait` returns for no reason -/
  | wakeup
  | shutdown

def shutdownMessage : String := "Sorry, sqlite3 thread is shutting down"

namespace SqliteThread

variable {α : Type}

/-- `cond->signal()`: `init` no longer waits when there are calls, so only the thread does. -/
def signal (s : SqliteThread α) : SqliteThread α :=
  match s.worker with
  | .waiting _ => { s with worker := .waiting true }
  | _ => s

/-! ## `addTask` -/

def enter (s : SqliteThread α) (task : α) (onlyIfDirty : Bool) : SqliteThread α :=
  if s.taskQueueOpen then { s with calls := s.calls ++ [⟨task, onlyIfDirty⟩] } else s

/-- The section under the mutex. -/
def onLock (s : SqliteThread α) (i : Nat) : Option (SqliteThread α) :=
  s.calls[i]?.map fun c =>
    let s := { s with calls := s.calls.eraseIdx i }
    if !s.taskQueueOpen then s
    else if !c.onlyIfDirty || s.dirty then
      signal { s with
        taskQueue := s.taskQueue.enqueue c.task
        returned := s.returned ++ [c]
        accepted := s.accepted ++ [c.task] }
    else { s with returned := s.returned ++ [c], skipped := s.skipped ++ [c] }

/-! ## The thread -/

/-- `while ((task = taskQueue->dequeue()) != nil)`; `fuel` is more than there are tasks. -/
def drain : Nat → BaseQueue α → List α × BaseQueue α
  | 0, q => ([], q)
  | fuel + 1, q =>
    match q.dequeue with
    | (none, q) => ([], q)
    | (some task, q) => (task :: (drain fuel q).1, (drain fuel q).2)

/-- The end of `threadProc`. -/
def close (s : SqliteThread α) : SqliteThread α :=
  let left := drain (s.taskQueue.size + 1) s.taskQueue
  { s with
    taskQueueOpen := false
    taskQueue := left.2
    refused := s.refused ++ left.1.map fun task => (task, shutdownMessage)
    worker := .ended }

/-- The loop of `threadProc`, from where the mutex is held to where it is let go. -/
def threadLoop (s : SqliteThread α) : SqliteThread α :=
  if s.shutdownFlag then s.close
  else
    match s.taskQueue.dequeue with
    | (none, q) => { s with taskQueue := q, worker := .waiting false }
    | (some task, q) => { s with taskQueue := q, worker := .running task }

def onWorker (s : SqliteThread α) (outcome : RunOutcome) : Option (SqliteThread α) :=
  match s.worker with
  | .starting => some s.threadLoop
  | .waiting woken => if woken then some s.threadLoop else none
  | .running task => some { s with executed := s.executed ++ [task], worker := .ran task outcome }
  | .ran task (.done contamination decontamination) =>
    some { s with
      dirty := if contamination then true else if decontamination then false else s.dirty
      worker := .recorded task none }
  | .ran task (.throws message) => some { s with worker := .recorded task (some message) }
  | .recorded task error =>
    some { s with completed := s.completed ++ [(task, error)], worker := .relocking }
  | .relocking => some s.threadLoop
  | .ended => none

def step (s : SqliteThread α) : SqliteEvent α → Option (SqliteThread α)
  | .addTask task onlyIfDirty => some (s.enter task onlyIfDirty)
  | .lock i => s.onLock i
  | .worker outcome => s.onWorker outcome
  | .wakeup => some s.signal
  | .shutdown => some (signal { s with shutdownFlag := true })

/-! ## What should hold -/

/-- The task that the thread has taken out of the queue and not signalled. -/
def inHand (s : SqliteThread α) : List α :=
  match s.worker with
  | .running task | .ran task _ | .recorded task _ => [task]
  | _ => []

/-- The same where it has been run. -/
def ranInHand (s : SqliteThread α) : List α :=
  match s.worker with
  | .ran task _ | .recorded task _ => [task]
  | _ => []

def signalled (s : SqliteThread α) : List α :=
  s.completed.map Prod.fst ++ s.refused.map Prod.fst

structure SignalledOnce (s : SqliteThread α) : Prop where
  /-- each accepted task waits in the queue, is in hand or has been signalled, and only once -/
  once : (s.taskQueue.toList ++ s.inHand ++ s.signalled).Perm s.accepted
  /-- those signalled without the shutdown error have been run, and no others, none twice -/
  run : s.executed = s.completed.map Prod.fst ++ s.ranInHand
  refused : ∀ r ∈ s.refused, r.2 = shutdownMessage
  ended : s.worker = .ended → s.signalled.Perm s.accepted
  /-- the thread does not sleep over a task or a shutdown -/
  awake : s.worker = .waiting false → s.taskQueue.toList = [] ∧ s.shutdownFlag = false
  /-- all calls that returned have enqueued their task, but some with `onlyIfDirty` -/
  returned : (s.accepted ++ s.skipped.map AddTaskCall.task).Perm (s.returned.map AddTaskCall.task)
  skipped : ∀ c ∈ s.skipped, c.onlyIfDirty = true

/-! ## The invariant -/

/-- `xs` waits in the queue. -/
structure Keeps (s : SqliteThread α) (xs : List α) : Prop where
  holds : s.taskQueue.Holds xs
  once : (xs ++ s.inHand ++ s.signalled).Perm s.accepted
  run : s.executed = s.completed.map Prod.fst ++ s.ranInHand
  refused : ∀ r ∈ s.refused, r.2 = shutdownMessage
  ended : s.worker = .ended → xs = [] ∧ s.taskQueueOpen = false
  awake : s.worker = .waiting false → xs = [] ∧ s.shutdownFlag = false
  returned : (s.accepted ++ s.skipped.map AddTaskCall.task).Perm (s.returned.map AddTaskCall.task)
  skipped : ∀ c ∈ s.skipped, c.onlyIfDirty = true

section

variable {s s' : SqliteThread α} {xs : List α} {task : α}

theorem Keeps.signalledOnce (h : s.Keeps xs) : s.SignalledOnce := by
  have hlist := h.holds.toList_eq
  refine ⟨?_, h.run, h.refused, fun hended => ?_, fun hasleep => ?_, h.returned, h.skipped⟩
  · rw [hlist]
    exact h.once
  · have honce := h.once
    rw [(h.ended hended).1, inHand, hended] at honce
    exact honce
  · rw [hlist]
    exact h.awake hasleep

theorem keeps_init : Keeps (α := α) {} [] :=
  ⟨BaseQueue.holds_create (Nat.succ_pos 19), List.Perm.refl _, rfl, nofun, nofun, nofun,
    List.Perm.refl _, nofun⟩

/-! ## Callers -/

theorem signal_cases (s : SqliteThread α) :
    (s.signal = s ∧ ∀ woken, s.worker ≠ .waiting woken) ∨
      ((∃ woken, s.worker = .waiting woken) ∧ s.signal = { s with worker := .waiting true }) := by
  unfold signal
  split
  · next woken hworker => exact Or.inr ⟨⟨woken, hworker⟩, rfl⟩
  · next hne => exact Or.inl ⟨rfl, hne⟩

/-- **A signal** wakes the thread, so what it could sleep over may have changed. -/
theorem keeps_signal (holds : s.taskQueue.Holds xs)
    (once : (xs ++ s.inHand ++ s.signalled).Perm s.accepted)
    (run : s.executed = s.completed.map Prod.fst ++ s.ranInHand)
    (refused : ∀ r ∈ s.refused, r.2 = shutdownMessage)
    (ended : s.worker = .ended → xs = [] ∧ s.taskQueueOpen = false)
    (returned : (s.accepted ++ s.skipped.map AddTaskCall.task).Perm
      (s.returned.map AddTaskCall.task))
    (skipped : ∀ c ∈ s.skipped, c.onlyIfDirty = true) : s.signal.Keeps xs := by
  rcases signal_cases s with ⟨heq, hne⟩ | ⟨⟨woken, hworker⟩, heq⟩
  · rw [heq]
    exact ⟨holds, once, run, refused, ended, fun hasleep => absurd hasleep (hne false), returned,
      skipped⟩
  · rw [heq]
    unfold inHand at once
    unfold ranInHand at run
    rw [hworker] at once run
    exact ⟨holds, once, run, refused, nofun, nofun, returned, skipped⟩

theorem Keeps.shutdown (h : s.Keeps xs) : (signal { s with shutdownFlag := true }).Keeps xs :=
  keeps_signal h.holds h.once h.run h.refused h.ended h.returned h.skipped

theorem Keeps.lock {i : Nat} (h : s.Keeps xs) (hstep : s.onLock i = some s') :
    ∃ xs', s'.Keeps xs' := by
  unfold onLock at hstep
  obtain ⟨c, -, rfl⟩ := Option.map_eq_some_iff.mp hstep
  simp only
  split_ifs with hclosed hput
  · exact ⟨xs, h.holds, h.once, h.run, h.refused, h.ended, h.awake, h.returned, h.skipped⟩
  · refine ⟨xs ++ [c.task], keeps_signal h.holds.enqueue ?_ h.run h.refused ?_ ?_ h.skipped⟩
    · -- the new task is one more in the queue and one more accepted
      show (xs ++ [c.task] ++ s.inHand ++ s.signalled).Perm (s.accepted ++ [c.task])
      have hnew : (xs ++ [c.task] ++ s.inHand ++ s.signalled).Perm
          (xs ++ s.inHand ++ s.signalled ++ [c.task]) := by
        rw [List.append_assoc xs, List.append_assoc xs, List.append_assoc xs,
          List.append_assoc xs]
        refine List.Perm.append_left xs ?_
        rw [List.append_assoc]
        exact List.perm_append_comm
      exact hnew.trans (h.once.append_right [c.task])
    · intro hended
      rw [(h.ended hended).2] at hclosed
      exact absurd rfl hclosed
    · show (s.accepted ++ [c.task] ++ s.skipped.map AddTaskCall.task).Perm
        ((s.returned ++ [c]).map AddTaskCall.task)
      rw [List.map_append]
      have hnew : (s.accepted ++ [c.task] ++ s.skipped.map AddTaskCall.task).Perm
          (s.accepted ++ s.skipped.map AddTaskCall.task ++ [c.task]) := by
        rw [List.append_assoc, List.append_assoc]
        exact List.Perm.append_left _ List.perm_append_comm
      exact hnew.trans (h.returned.append_right [c.task])
  · refine ⟨xs, h.holds, h.once, h.run, h.refused, h.ended, h.awake, ?_, fun d hd => ?_⟩
    · show (s.accepted ++ (s.skipped ++ [c]).map AddTaskCall.task).Perm
        ((s.returned ++ [c]).map AddTaskCall.task)
      rw [List.map_append, List.map_append, ← List.append_assoc]
      exact h.returned.append_right [c.task]
    · rcases List.mem_append.mp hd with hd | hd
      · exact h.skipped d hd
      · rw [List.mem_singleton.mp hd]
        simp only [Bool.or_eq_true, Bool.not_eq_true', not_or, Bool.not_eq_false] at hput
        exact hput.1

/-! ## The thread -/

/-- What is left is taken out to the last. -/
theorem drain_eq {fuel : Nat} {q : BaseQueue α} (h : q.Holds xs) (hfuel : xs.length < fuel) :
    (drain fuel q).1 = xs ∧ (drain fuel q).2.Holds [] := by
  induction fuel generalizing q xs with
  | zero => exact absurd hfuel (Nat.not_lt_zero _)
  | succ fuel ih =>
    unfold drain
    rcases xs with _ | ⟨x, xs⟩
    · rw [h.dequeue_nil]
      exact ⟨rfl, h⟩
    · obtain ⟨hfirst, hrest⟩ := h.dequeue_cons
      rcases hdeq : q.dequeue with ⟨first, q'⟩
      rw [hdeq] at hfirst hrest
      cases hfirst
      have hlen : xs.length < fuel := by
        rw [List.length_cons] at hfuel
        omega
      obtain ⟨htasks, hempty⟩ := ih hrest hlen
      exact ⟨congrArg (x :: ·) htasks, hempty⟩

/-- No task is in hand where the thread is about to enter its loop. -/
def Idle (s : SqliteThread α) : Prop := s.inHand = [] ∧ s.ranInHand = []

theorem Keeps.close (h : s.Keeps xs) (hidle : s.Idle) : s.close.Keeps [] := by
  obtain ⟨hdrained, hempty⟩ :=
    drain_eq h.holds (Nat.lt_succ_of_le (Nat.le_of_eq h.holds.size_eq.symm))
  have hrefused : (s.close.refused).map Prod.fst = s.refused.map Prod.fst ++ xs := by
    show (s.refused ++ (drain (s.taskQueue.size + 1) s.taskQueue).1.map fun task =>
      (task, shutdownMessage)).map Prod.fst = _
    rw [hdrained, List.map_append, List.map_map]
    congr 1
    exact List.map_id xs
  refine ⟨hempty, ?_, ?_, fun r hr => ?_, fun _ => ⟨rfl, rfl⟩, nofun, h.returned, h.skipped⟩
  · show (s.completed.map Prod.fst ++ s.close.refused.map Prod.fst).Perm s.accepted
    rw [hrefused]
    have honce := h.once
    rw [hidle.1, List.append_nil] at honce
    rw [← List.append_assoc]
    exact List.perm_append_comm.trans honce
  · show s.executed = s.completed.map Prod.fst ++ []
    rw [← hidle.2]
    exact h.run
  · rcases List.mem_append.mp hr with hr | hr
    · exact h.refused r hr
    · obtain ⟨task, -, rfl⟩ := List.mem_map.mp hr
      rfl

theorem Keeps.threadLoop (h : s.Keeps xs) (hidle : s.Idle) : ∃ xs', s.threadLoop.Keeps xs' := by
  have honce := h.once
  have hrun := h.run
  rw [hidle.1, List.append_nil] at honce
  rw [hidle.2] at hrun
  unfold SqliteThread.threadLoop
  by_cases hdown : s.shutdownFlag = true
  · rw [if_pos hdown]
    exact ⟨[], h.close hidle⟩
  · rw [if_neg hdown]
    rcases xs with _ | ⟨x, xs⟩
    · rw [h.holds.dequeue_nil]
      exact ⟨[], h.holds, honce, hrun, h.refused, nofun, fun _ => ⟨rfl, by simpa using hdown⟩,
        h.returned, h.skipped⟩
    · obtain ⟨hfirst, hrest⟩ := h.holds.dequeue_cons
      rcases hdeq : s.taskQueue.dequeue with ⟨first, q⟩
      rw [hdeq] at hfirst hrest
      cases hfirst
      refine ⟨xs, hrest, ?_, hrun, h.refused, nofun, nofun, h.returned, h.skipped⟩
      show (xs ++ [x] ++ s.signalled).Perm s.accepted
      refine List.Perm.trans ?_ honce
      exact List.perm_append_comm.append_right s.signalled

theorem Keeps.worker {outcome : RunOutcome} (h : s.Keeps xs)
    (hstep : s.onWorker outcome = some s') : ∃ xs', s'.Keeps xs' := by
  have honce := h.once
  have hrun := h.run
  unfold inHand at honce
  unfold ranInHand at hrun
  unfold onWorker at hstep
  split at hstep
  · next hworker =>
    cases hstep
    exact h.threadLoop ⟨by rw [inHand, hworker], by rw [ranInHand, hworker]⟩
  · next woken hworker =>
    split at hstep
    · cases hstep
      exact h.threadLoop ⟨by rw [inHand, hworker], by rw [ranInHand, hworker]⟩
    · cases hstep
  · next task hworker =>
    cases hstep
    rw [hworker] at honce hrun
    refine ⟨xs, h.holds, honce, ?_, h.refused, nofun, nofun, h.returned, h.skipped⟩
    show s.executed ++ [task] = s.completed.map Prod.fst ++ [task]
    rw [hrun, List.append_nil]
  · next task contamination decontamination hworker =>
    cases hstep
    rw [hworker] at honce hrun
    exact ⟨xs, h.holds, honce, hrun, h.refused, nofun, nofun, h.returned, h.skipped⟩
  · next task message hworker =>
    cases hstep
    rw [hworker] at honce hrun
    exact ⟨xs, h.holds, honce, hrun, h.refused, nofun, nofun, h.returned, h.skipped⟩
  · next task error hworker =>
    cases hstep
    rw [hworker] at honce hrun
    refine ⟨xs, h.holds, ?_, ?_, h.refused, nofun, nofun, h.returned, h.skipped⟩
    · show (xs ++ [] ++ ((s.completed ++ [(task, error)]).map Prod.fst ++
        s.refused.map Prod.fst)).Perm s.accepted
      rw [List.append_nil, List.map_append]
      refine List.Perm.trans ?_ honce
      rw [List.append_assoc xs]
      refine List.Perm.append_left xs ?_
      exact List.perm_append_comm.append_right _
    · show s.executed = (s.completed ++ [(task, error)]).map Prod.fst ++ []
      rw [List.map_append, List.append_nil]
      exact hrun
  · next hworker =>
    cases hstep
    exact h.threadLoop ⟨by rw [inHand, hworker], by rw [ranInHand, hworker]⟩
  · cases hstep

theorem Keeps.step {e : SqliteEvent α} (h : s.Keeps xs) (hstep : s.step e = some s') :
    ∃ xs', s'.Keeps xs' := by
  cases e with
  | addTask task onlyIfDirty =>
    cases hstep
    refine ⟨xs, ?_⟩
    unfold enter
    split
    · exact ⟨h.holds, h.once, h.run, h.refused, h.ended, h.awake, h.returned, h.skipped⟩
    · exact h
  | lock i => exact h.lock hstep
  | worker outcome => exact h.worker hstep
  | wakeup =>
    cases hstep
    exact ⟨xs, keeps_signal h.holds h.once h.run h.refused h.ended h.returned h.skipped⟩
  | shutdown =>
    cases hstep
    exact ⟨xs, h.shutdown⟩

/-! ## The thread gets through -/

/-- How many steps the thread is away from having signalled what is in hand and in the queue, at
    most. -/
def todo (s : SqliteThread α) : Nat :=
  4 * s.taskQueue.toList.length +
    match s.worker with
    | .running _ => 3
    | .ran _ _ => 2
    | .recorded _ _ => 1
    | _ => 0

theorem Keeps.todo_threadLoop (h : s.Keeps xs) (hidle : s.Idle) (hne : xs ≠ []) :
    s.threadLoop.todo < 4 * xs.length ∧ s.threadLoop.accepted = s.accepted := by
  obtain ⟨x, rest, rfl⟩ := List.exists_cons_of_ne_nil hne
  unfold SqliteThread.threadLoop
  by_cases hdown : s.shutdownFlag = true
  · rw [if_pos hdown]
    refine ⟨?_, rfl⟩
    have hempty : s.close.taskQueue.toList = [] := (h.close hidle).holds.toList_eq
    show 4 * s.close.taskQueue.toList.length + 0 < 4 * (x :: rest).length
    rw [hempty, List.length_cons]
    exact Nat.mul_pos (Nat.succ_pos 3) (Nat.succ_pos _)
  · rw [if_neg hdown]
    obtain ⟨hfirst, hrest⟩ := h.holds.dequeue_cons
    rcases hdeq : s.taskQueue.dequeue with ⟨first, q⟩
    rw [hdeq] at hfirst hrest
    cases hfirst
    refine ⟨?_, rfl⟩
    show 4 * q.toList.length + 3 < 4 * (x :: rest).length
    rw [hrest.toList_eq, List.length_cons]
    omega

/-- While a task waits or is in hand, the thread can take a step, which brings it nearer. -/
theorem Keeps.goesOn (h : s.Keeps xs) (outcome : RunOutcome) (hwork : xs ≠ [] ∨ s.inHand ≠ []) :
    ∃ s', s.onWorker outcome = some s' ∧ s'.todo < s.todo ∧ s'.accepted = s.accepted := by
  have htodo := h.holds.toList_eq
  have hloop : ∀ n, s.todo = 4 * s.taskQueue.toList.length + n → s.Idle →
      s.threadLoop.todo < s.todo ∧ s.threadLoop.accepted = s.accepted := by
    intro n hs hidle
    have hne : xs ≠ [] := by
      rcases hwork with hne | hhand
      · exact hne
      · exact absurd hidle.1 hhand
    obtain ⟨hless, hsame⟩ := h.todo_threadLoop hidle hne
    rw [hs, htodo]
    exact ⟨by omega, hsame⟩
  unfold onWorker
  rcases hworker : s.worker with _ | woken | task | ⟨task, _ | message⟩ | ⟨task, error⟩ | _ | _
  · exact ⟨_, rfl, hloop 0 (by rw [todo, hworker]) ⟨by rw [inHand, hworker], by rw [ranInHand, hworker]⟩⟩
  · rcases woken with _ | _
    · -- asleep, it has nothing to do
      rcases hwork with hne | hhand
      · exact absurd (h.awake hworker).1 hne
      · rw [inHand, hworker] at hhand
        exact absurd rfl hhand
    · exact ⟨_, rfl, hloop 0 (by rw [todo, hworker]) ⟨by rw [inHand, hworker], by rw [ranInHand, hworker]⟩⟩
  · refine ⟨_, rfl, ?_, rfl⟩
    rw [todo, todo, hworker]
    exact Nat.lt_succ_self _
  · refine ⟨_, rfl, ?_, rfl⟩
    rw [todo, todo, hworker]
    exact Nat.lt_succ_self _
  · refine ⟨_, rfl, ?_, rfl⟩
    rw [todo, todo, hworker]
    exact Nat.lt_succ_self _
  · refine ⟨_, rfl, ?_, rfl⟩
    rw [todo, todo, hworker]
    exact Nat.lt_succ_self _
  · exact ⟨_, rfl, hloop 0 (by rw [todo, hworker]) ⟨by rw [inHand, hworker], by rw [ranInHand, hworker]⟩⟩
  · rcases hwork with hne | hhand
    · exact absurd (h.ended hworker).1 hne
    · rw [inHand, hworker] at hhand
      exact absurd rfl hhand

/-- **The thread alone signals all that was accepted**, however the tasks end. -/
def CanFinish (s : SqliteThread α) : Prop :=
  ∀ outcome, ∃ n s', run step s (List.replicate n (.worker outcome)) = some s' ∧
    s'.accepted = s.accepted ∧ s'.signalled.Perm s'.accepted

theorem Keeps.canFinish (h : s.Keeps xs) : s.CanFinish := by
  intro outcome
  induction hn : s.todo using Nat.strong_induction_on generalizing s xs with
  | _ n ih =>
    by_cases hwork : xs ≠ [] ∨ s.inHand ≠ []
    · obtain ⟨s₁, hstep, hless, hsame⟩ := h.goesOn outcome hwork
      obtain ⟨xs₁, h₁⟩ := h.worker hstep
      obtain ⟨k, s', hrun, haccepted, hall⟩ := ih s₁.todo (by omega) h₁ rfl
      refine ⟨k + 1, s', ?_, haccepted.trans hsame, hall⟩
      rw [List.replicate_succ, run_cons]
      have hfirst : s.step (.worker outcome) = some s₁ := hstep
      rw [hfirst]
      exact hrun
    · rw [not_or, not_not, not_not] at hwork
      refine ⟨0, s, rfl, rfl, ?_⟩
      have honce := h.once
      rw [hwork.1, hwork.2] at honce
      exact honce

end

end SqliteThread

open SqliteThread

/-- **Every task is signalled once.**  In every state of every interleaving: each task that was
    enqueued waits, is in hand or has been signalled, once; without the shutdown error exactly
    those are signalled that have been run, none twice; when the thread has ended all are; and
    until then it can get through. -/
theorem tasks_signalled_once {α : Type} (events : List (SqliteEvent α)) :
    Always (fun s => s.SignalledOnce ∧ s.CanFinish) SqliteThread.step {} events := by
  have hstep : ∀ (s : SqliteThread α) e s', (∃ xs, s.Keeps xs) → s.step e = some s' →
      ∃ xs, s'.Keeps xs := by
    rintro s e s' ⟨xs, h⟩ hnext
    exact h.step hnext
  refine always_of_inv hstep ?_ ⟨[], keeps_init⟩
  rintro s ⟨xs, h⟩
  exact ⟨h.signalledOnce, h.canFinish⟩

/-- A backup task for a database that has not changed. -/
theorem clean_backup_unsignalled :
    ¬ ∀ (events : List (SqliteEvent Nat)) s, run SqliteThread.step {} events = some s →
      s.worker = .ended → s.signalled.Perm (s.returned.map AddTaskCall.task) := by
  intro hall
  have hperm := hall [.addTask 0 true, .lock 0, .shutdown, .worker (.done false false)] _ rfl rfl
  exact absurd hperm.length_eq (by decide)

end MediaTomb
