/-
  `removeObject`, `removeObjects` and the two loops behind them.

  `_recursiveRemove` is a work-list loop over three buffers of ids (items whose references go,
  ids to remove with their parents, containers whose children go) with a fourth buffer, `remove`,
  that collects what to delete.  When the text of `remove` grows past a limit it is deleted in the
  middle of the loop; the rest is deleted after it.  `_purgeEmptyContainers` then deletes the
  containers this left empty, cascading upwards.

  Buffers hold comma-separated ids in the source and lists of ids here.  Both loops give up after a
  fixed number of rounds with an exception; what has been deleted by then stays deleted.
-/
import MediaTomb.Storage.Browse

namespace MediaTomb

open Lib.Prog

def maxRemoveSize : Nat := 10000

def maxRemoveRecursion : Nat := 500

def infiniteLoop : Exception := .exception (str "there seems to be an infinite loop...")

/-- The length of `,1,2,3`. -/
def idsLength (ids : List Int) : Nat := (ids.map fun id => (fromInt id).length + 1).sum

/-! ## `_removeObjects` -/

/-- The autoscans on objects about to be deleted: `mt_autoscan JOIN mt_cds_object`. -/
def relevantAutoscans (objectIDs : List Int) (db : Database) : List AutoscanRow :=
  db.selectAutoscans fun a => match a.objID with
    | none => false
    | some objID => objID ∈ objectIDs && (db.objects.find? objID).isSome

/-- `_removeObjects`: the autoscans that are not persistent, the active items, the objects.

    For a persistent autoscan the source appends an UPDATE to the query buffer it has just
    executed, and clears that buffer before it executes it again: the UPDATE never runs. -/
def removeObjects_ (objectIDs : List Int) : Storage Unit := do
  let res ← select (relevantAutoscans objectIDs)
  let deleteAs := (res.filter fun a => !a.persistent).map AutoscanRow.id
  if deleteAs ≠ [] then
    exec fun db => db.deleteAutoscans fun a => a.id ∈ deleteAs
  exec fun db => db.deleteActiveItems fun r => r.id ∈ objectIDs
  exec fun db => db.deleteObjects fun r => r.id ∈ objectIDs

/-! ## `_recursiveRemove` -/

/-- `ChangedContainersStr`, and `ChangedContainers`. -/
structure ChangedContainers where
  upnp : List Int := []
  ui : List Int := []
  deriving DecidableEq

structure RemoveBuffers where
  recurseItems : List Int := []
  recurseContainers : List Int := []
  removeAddParents : List Int := []
  remove : List Int := []

/-- `SELECT DISTINCT parent_id … WHERE id IN (…)`. -/
def selectParents (ids : List Int) (db : Database) : List Int :=
  ((db.selectObjects fun r => r.id ∈ ids).map ObjectRow.parentID).dedup

/-- `SELECT DISTINCT … WHERE ref_id IN (…)`. -/
def selectReferences (ids : List Int) (db : Database) : List ObjectRow :=
  db.selectObjects fun r => match r.refID with
    | some refID => refID ∈ ids
    | none => false

/-- `SELECT DISTINCT … WHERE parent_id IN (…)`. -/
def selectChildren (ids : List Int) (db : Database) : List ObjectRow :=
  db.selectObjects fun r => r.parentID ∈ ids

/-- What the loop does with one child of a container that goes. -/
def removeChild (all : Bool) (b : RemoveBuffers) (row : ObjectRow) : RemoveBuffers :=
  if isCdsContainer row.objectType then
    { b with
      recurseContainers := b.recurseContainers ++ [row.id], remove := b.remove ++ [row.id] }
  else
    match all, row.refID with
    | true, some refID =>
      { b with
        removeAddParents := b.removeAddParents ++ [refID]
        recurseItems := b.recurseItems ++ [refID] }
    | _, _ =>
      { b with remove := b.remove ++ [row.id], recurseItems := b.recurseItems ++ [row.id] }

/-- "add ids to remove", and the parents they have. -/
def removeParentsPass (b : RemoveBuffers) (ch : ChangedContainers) :
    Storage (RemoveBuffers × ChangedContainers) :=
  if b.removeAddParents = [] then pure (b, ch)
  else do
    let parents ← select (selectParents b.removeAddParents)
    pure ({ b with remove := b.remove ++ b.removeAddParents, removeAddParents := [] },
      { ch with upnp := ch.upnp ++ parents })

/-- The references to the items that go. -/
def recurseItemsPass (b : RemoveBuffers) (ch : ChangedContainers) :
    Storage (RemoveBuffers × ChangedContainers) :=
  if b.recurseItems = [] then pure (b, ch)
  else do
    let refs ← select (selectReferences b.recurseItems)
    pure ({ b with remove := b.remove ++ refs.map ObjectRow.id, recurseItems := [] },
      { ch with upnp := ch.upnp ++ refs.map ObjectRow.parentID })

/-- The children of the containers that go. -/
def recurseContainersPass (all : Bool) (b : RemoveBuffers) : Storage RemoveBuffers :=
  if b.recurseContainers = [] then pure b
  else do
    let children ← select (selectChildren b.recurseContainers)
    pure (children.foldl (removeChild all) { b with recurseContainers := [] })

/-- Delete early when there is much to delete. -/
def flushRemove (b : RemoveBuffers) : Storage RemoveBuffers :=
  if maxRemoveSize < idsLength b.remove then do
    removeObjects_ b.remove
    pure { b with remove := [] }
  else pure b

def RemoveBuffers.done (b : RemoveBuffers) : Bool :=
  b.recurseItems = [] && b.removeAddParents = [] && b.recurseContainers = []

/-- The body of the `while` loop, its counter apart. -/
def recursiveRemoveRound (all : Bool) (b : RemoveBuffers) (ch : ChangedContainers) :
    Storage (RemoveBuffers × ChangedContainers) := do
  let (b, ch) ← removeParentsPass b ch
  let (b, ch) ← recurseItemsPass b ch
  let b ← recurseContainersPass all b
  let b ← flushRemove b
  pure (b, ch)

/-- The `while` loop, with `left` rounds to go before the one that throws. -/
def recursiveRemoveLoop (all : Bool) :
    Nat → RemoveBuffers → ChangedContainers → Storage (RemoveBuffers × ChangedContainers)
  | left, b, ch =>
    if b.done then pure (b, ch)
    else do
      let (b, ch) ← recursiveRemoveRound all b ch
      match left with
      | 0 => throw infiniteLoop
      | left + 1 => recursiveRemoveLoop all left b ch

/-- What is in the buffers when the loop starts.  Where containers are given, `removeAddParents`
    is used for their parents and emptied again, the items in it included. -/
def initialBuffers (items containers : List Int) : RemoveBuffers :=
  { recurseItems := items
    recurseContainers := containers
    remove := containers
    removeAddParents := if containers = [] then items else [] }

/-- `_recursiveRemove`. -/
def recursiveRemove_ (items containers : List Int) (all : Bool) : Storage ChangedContainers := do
  let ui ← if containers = [] then pure [] else select (selectParents (items ++ containers))
  let (b, ch) ← recursiveRemoveLoop all (maxRemoveRecursion + 1)
    (initialBuffers items containers) { ui := ui }
  if b.remove ≠ [] then
    removeObjects_ b.remove
  pure ch

/-! ## `_purgeEmptyContainers` -/

structure PurgeBuffers where
  selUI : List Int
  selUpnp : List Int
  del : List Int := []

/-- A container among `ids`, and how many children it has. -/
def selectEmpty (ids : List Int) (db : Database) : List (ObjectRow × Nat) :=
  (db.selectObjects fun a => a.objectType = objectTypeContainer && a.id ∈ ids).map fun a =>
    (a, (db.selectObjects fun b => b.parentID = a.id).length)

def isPersistentContainer (r : ObjectRow) : Bool := r.flags &&& objectFlagPersistentContainer ≠ 0

/-- One row of the upnp query. -/
def purgeUpnpRow (p : PurgeBuffers × ChangedContainers) (row : ObjectRow × Nat) :
    PurgeBuffers × ChangedContainers :=
  let (b, ch) := p
  if isPersistentContainer row.1 then (b, { ch with upnp := ch.upnp ++ [row.1.id] })
  else if row.2 = 0 then
    ({ b with del := b.del ++ [row.1.id], selUI := b.selUI ++ [row.1.parentID] }, ch)
  else ({ b with selUpnp := b.selUpnp ++ [row.1.id] }, ch)

/-- One row of the ui query. -/
def purgeUIRow (p : PurgeBuffers × ChangedContainers) (row : ObjectRow × Nat) :
    PurgeBuffers × ChangedContainers :=
  let (b, ch) := p
  if isPersistentContainer row.1 then
    (b, { upnp := ch.upnp ++ [row.1.id], ui := ch.ui ++ [row.1.id] })
  else if row.2 = 0 then
    ({ b with del := b.del ++ [row.1.id], selUI := b.selUI ++ [row.1.parentID] }, ch)
  else ({ b with selUI := b.selUI ++ [row.1.id] }, ch)

def purgeUpnpPass (b : PurgeBuffers) (ch : ChangedContainers) :
    Storage (PurgeBuffers × ChangedContainers) :=
  if b.selUpnp = [] then pure (b, ch)
  else do
    let rows ← select (selectEmpty b.selUpnp)
    pure (rows.foldl purgeUpnpRow ({ b with selUpnp := [] }, ch))

def purgeUIPass (b : PurgeBuffers) (ch : ChangedContainers) :
    Storage (PurgeBuffers × ChangedContainers) :=
  if b.selUI = [] then pure (b, ch)
  else do
    let rows ← select (selectEmpty b.selUI)
    pure (rows.foldl purgeUIRow ({ b with selUI := [] }, ch))

/-- Delete what the passes found empty; go on when something was deleted and something is
    selected. -/
def purgeDelete (b : PurgeBuffers) : Storage (PurgeBuffers × Bool) :=
  if b.del = [] then pure (b, false)
  else do
    removeObjects_ b.del
    pure ({ b with del := [] }, b.selUI ≠ [] || b.selUpnp ≠ [])

/-- The body of the `do … while` loop, its counter apart. -/
def purgeRound (b : PurgeBuffers) (ch : ChangedContainers) :
    Storage (PurgeBuffers × ChangedContainers × Bool) := do
  let (b, ch) ← purgeUpnpPass b ch
  let (b, ch) ← purgeUIPass b ch
  let (b, again) ← purgeDelete b
  pure (b, ch, again)

/-- The `do … while` loop, with `left` rounds to go before the one that throws. -/
def purgeLoop : Nat → PurgeBuffers → ChangedContainers → Storage (PurgeBuffers × ChangedContainers)
  | left, b, ch => do
    let (b, ch, again) ← purgeRound b ch
    match left with
    | 0 => throw infiniteLoop
    | left + 1 => if again then purgeLoop left b ch else pure (b, ch)

/-- `_purgeEmptyContainers`. -/
def purgeEmptyContainers_ (changedContainersStr : ChangedContainers) :
    Storage ChangedContainers :=
  if changedContainersStr.upnp = [] ∧ changedContainersStr.ui = [] then pure {}
  else do
    let (b, ch) ← purgeLoop maxRemoveRecursion
      { selUI := changedContainersStr.ui, selUpnp := changedContainersStr.upnp } {}
    modifyCache StorageCache.clear
    pure { ui := ch.ui ++ b.selUI, upnp := ch.upnp ++ b.selUI ++ b.selUpnp }

/-! ## The entry points -/

def forbiddenID (objectID : Int) : Exception :=
  .exception (str "tried to delete a forbidden ID (" ++ fromInt objectID ++ str ")!")

/-- The id `removeObject` really removes: with `all`, what an item refers to. -/
def removedID (row : ObjectRow) (all : Bool) : Int :=
  if all && !isCdsContainer row.objectType then
    match row.refID with
    | some refID => if isForbiddenCdsID refID then row.id else refID
    | none => row.id
  else row.id

/-- `removeObject`; nil when there is no such object. -/
def removeObject (objectID : Int) (all : Bool) : Storage (Option ChangedContainers) := do
  flushInsertBuffer
  match ← select fun db => db.objects.find? objectID with
  | none => pure none
  | some row => do
    let objectID := removedID row all
    if isForbiddenCdsID objectID then throw (forbiddenID objectID)
    else do
      let changedContainers ← if isCdsContainer row.objectType then
          recursiveRemove_ [] [objectID] all
        else recursiveRemove_ [objectID] [] all
      let changed ← purgeEmptyContainers_ changedContainers
      pure (some changed)

/-- `removeObjects`; nil for an empty list. -/
def removeObjects (list : List Int) (all : Bool) : Storage (Option ChangedContainers) := do
  flushInsertBuffer
  if list = [] then pure none
  else match list.find? isForbiddenCdsID with
    | some id => throw (forbiddenID id)
    | none => do
      let rows ← select fun db => db.selectObjects fun r => r.id ∈ list
      let containers := (rows.filter fun r => isCdsContainer r.objectType).map ObjectRow.id
      let items := (rows.filter fun r => !isCdsContainer r.objectType).map ObjectRow.id
      let changedContainers ← recursiveRemove_ items containers all
      let changed ← purgeEmptyContainers_ changedContainers
      pure (some changed)

end MediaTomb
