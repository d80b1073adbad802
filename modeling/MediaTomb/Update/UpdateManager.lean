/-
  The update manager (`update_manager.cc`): containers whose contents have changed are noted in a
  hash, and a thread passes them on, many at a time.

  Any number of threads call `containerChanged` and `containersChanged`; the UPDATE THREAD flushes
  the hash.  All of them work under one mutex, so an interleaving is an order of the SECTIONS in
  which one of them holds it:
    * `containerChanged` is one section;
    * `containersChanged` is one section, or, when it may overfill the hash, a first section and
      then one for each time it takes the mutex again;
    * the update thread has a section for each turn of its loop; it lets the mutex go while it
      waits, while it sleeps and while it sends the events.
  A call is ENTERED before it gets the mutex, so that other sections come in between.

  The condition variable only says when a waiting thread may go on early; `pthread_cond_wait` may
  return at any time, so the signals are left out.
-/
import MediaTomb.Common
import MediaTomb.Lib.Machine

namespace MediaTomb

/-! ## `DBRHash` -/

def maxObjectIDs : Nat := 1000

def maxObjectIDsOverload : Nat := 30

/-- The size of `data_array`. -/
def realCapacity : Nat := maxObjectIDs + 2 * maxObjectIDsOverload

/-- `search`: the key is in the table.  The empty and the deleted key mark slots, so that a search
    for one of them finds none. -/
def dbrSearch (key : Int) (data : List Int) : Bool :=
  key ≠ invalidObjectID && key ≠ invalidObjectID2 && key ∈ data

/-- `put` on the keys in `data_array`: `count` is their number. -/
def dbrPut (key : Int) (data : List Int) : List Int :=
  if dbrSearch key data then data else data ++ [key]

/-! ## The state -/

def flushSpec : Int := 1

def flushAsap : Int := 2

/-- In milliseconds. -/
def specInterval : Int := 2000

def minSleep : Int := 1

/-- How far a call is. -/
inductive Progress where
  /-- `containerChanged`, not yet under the mutex -/
  | container (objectID : Int)
  /-- `containersChanged`, not yet under the mutex -/
  | containers
  /-- `containersChanged` between AUTOUNLOCK and AUTORELOCK; these ids are still to come -/
  | between (ids : List Int)

/-- A call that has been entered and has not returned. -/
structure PendingCall where
  began : Nat
  objectIDs : List Int
  flushPolicy : Int
  progress : Progress

/-- A call that has returned. -/
structure CompletedCall where
  began : Nat
  objectIDs : List Int

/-- A call to `incrementUpdateIDs`. -/
structure Flush where
  started : Nat
  objectIDs : List Int

/-- Where the update thread is without the mutex. -/
inductive UpdateThread where
  | start
  /-- in `cond->wait` -/
  | waiting
  /-- in `cond->timedwait` -/
  | sleeping
  /-- in `subscription_update` -/
  | sending
  | ended
  deriving DecidableEq

structure UpdateManager where
  objectIDHash : List Int := []
  shutdownFlag : Bool := false
  flushPolicy : Int := flushSpec
  lastContainerChanged : Int := invalidObjectID
  thread : UpdateThread := .start
  calls : List PendingCall := []
  /-- the number of events so far, and what has happened -/
  now : Nat := 0
  completed : List CompletedCall := []
  flushes : List Flush := []

/-- What the update thread meets when it gets the mutex. -/
structure ThreadTurn where
  /-- `timedwait` returned ETIMEDOUT -/
  timedOut : Bool
  /-- milliseconds since the last update -/
  timeDiff : Int
  /-- `incrementUpdateIDs` throws -/
  throws : Bool

inductive UpdateEvent where
  | containerChanged (objectID : Int) (flushPolicy : Int)
  | containersChanged (objectIDs : List Int) (flushPolicy : Int)
  /-- the call at this place gets the mutex -/
  | lock (call : Nat)
  | thread (turn : ThreadTurn)
  | shutdown

namespace UpdateManager

/-! ## The calls -/

/-- `containerChanged` is entered; an invalid id returns at once. -/
def enterContainer (m : UpdateManager) (objectID flushPolicy : Int) : UpdateManager :=
  if objectID = invalidObjectID then
    { m with completed := m.completed ++ [⟨m.now, [objectID]⟩] }
  else { m with calls := m.calls ++ [⟨m.now, [objectID], flushPolicy, .container objectID⟩] }

def enterContainers (m : UpdateManager) (objectIDs : List Int) (flushPolicy : Int) :
    UpdateManager :=
  { m with calls := m.calls ++ [⟨m.now, objectIDs, flushPolicy, .containers⟩] }

/-- The section of `containerChanged`. -/
def containerChanged (m : UpdateManager) (objectID flushPolicy : Int) : UpdateManager :=
  if objectID ≠ m.lastContainerChanged ∨ m.flushPolicy < flushPolicy then
    { m with
      objectIDHash := dbrPut objectID m.objectIDHash
      lastContainerChanged := objectID
      flushPolicy := if m.flushPolicy < flushPolicy then flushPolicy else m.flushPolicy }
  else m

/-- The loop of `containersChanged` up to its end or to the next AUTOUNLOCK: the hash, and the ids
    that are still to come in the second case. -/
def putContainers (split : Bool) (last : Int) : List Int → List Int → List Int × Option (List Int)
  | [], hash => (hash, none)
  | objectID :: ids, hash =>
    if objectID ≠ last then
      let hash := dbrPut objectID hash
      if split && maxObjectIDs < hash.length then (hash, some ids)
      else putContainers split last ids hash
    else putContainers split last ids hash

/-- The call has done what it could under the mutex. -/
def leave (m : UpdateManager) (i : Nat) (c : PendingCall) (rest : Option (List Int)) :
    UpdateManager :=
  match rest with
  | none =>
    { m with
      calls := m.calls.eraseIdx i
      completed := m.completed ++ [⟨c.began, c.objectIDs⟩] }
  | some ids => { m with calls := m.calls.set i { c with progress := .between ids } }

/-- `containersChanged` puts ids under the mutex, as many as it may. -/
def containersSection (m : UpdateManager) (i : Nat) (c : PendingCall) (split : Bool)
    (ids : List Int) (flushPolicy : Int) : UpdateManager :=
  let put := putContainers split m.lastContainerChanged ids m.objectIDHash
  { m with objectIDHash := put.1, flushPolicy := flushPolicy }.leave i c put.2

/-- A section of the call at place `i`. -/
def onLock (m : UpdateManager) (i : Nat) : Option UpdateManager :=
  m.calls[i]?.map fun c =>
    match c.progress with
    | .container objectID => (m.containerChanged objectID c.flushPolicy).leave i c none
    | .containers =>
      let split := decide
        (maxObjectIDs + maxObjectIDsOverload ≤ m.objectIDHash.length + c.objectIDs.length)
      m.containersSection i c split c.objectIDs
        (if m.flushPolicy < c.flushPolicy then c.flushPolicy else m.flushPolicy)
    | .between ids =>
      if maxObjectIDs < m.objectIDHash.length then m
      else m.containersSection i c true ids m.flushPolicy

/-! ## The update thread -/

/-- Sending the updates, up to AUTOUNLOCK. -/
def flush (m : UpdateManager) (throws : Bool) : UpdateManager :=
  { m with
    lastContainerChanged := invalidObjectID
    flushPolicy := flushSpec
    flushes := m.flushes ++ [⟨m.now, m.objectIDHash⟩]
    objectIDHash := if throws then m.objectIDHash else []
    thread := .sending }

/-- How long the update thread should sleep before it sends: FLUSH_SPEC waits for the interval to
    be over. -/
def sleepMillis (m : UpdateManager) (timeDiff : Int) : Int :=
  if m.flushPolicy = flushSpec then specInterval - timeDiff else 0

/-- A turn of the loop of `threadProc`. -/
def threadLoop (m : UpdateManager) (turn : ThreadTurn) : UpdateManager :=
  if m.shutdownFlag then { m with thread := .ended }
  else if m.objectIDHash = [] then { m with thread := .waiting }
  else if minSleep ≤ m.sleepMillis turn.timeDiff ∧ m.objectIDHash.length < maxObjectIDs then
    { m with thread := .sleeping }
  else m.flush turn.throws

/-- The update thread gets the mutex. -/
def onThread (m : UpdateManager) (turn : ThreadTurn) : Option UpdateManager :=
  match m.thread with
  | .ended => none
  | .sleeping =>
    if !m.shutdownFlag && !turn.timedOut then some (m.flush turn.throws)
    else some (m.threadLoop turn)
  | _ => some (m.threadLoop turn)

/-! ## The machine -/

def act (m : UpdateManager) : UpdateEvent → Option UpdateManager
  | .containerChanged objectID flushPolicy => some (m.enterContainer objectID flushPolicy)
  | .containersChanged objectIDs flushPolicy => some (m.enterContainers objectIDs flushPolicy)
  | .lock i => m.onLock i
  | .thread turn => m.onThread turn
  | .shutdown => some { m with shutdownFlag := true }

/-- One event; the clock goes on. -/
def step (m : UpdateManager) (e : UpdateEvent) : Option UpdateManager :=
  (m.act e).map fun m => { m with now := m.now + 1 }

end UpdateManager
end MediaTomb
