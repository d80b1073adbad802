/-
  `AutoscanList` (`autoscan.cc`): the directories that are scanned, each in the slot of its scan id.

  A slot keeps its number as long as the directory is in the list, so a directory that is removed
  from the middle leaves an EMPTY slot behind (nil); only the last slot goes away.  Each operation
  decides for itself whether to look before it touches a slot.  Two do not look: `remove(id)`, and
  `getArrayCopy`, which hands the slots to an array that wants to count references.

  The directories are objects, shared between the list and whoever has a reference.  So there is a
  heap of them, and a list is a list of references.

    * `slotAt list i`      the directory in slot `i`, nothing for an empty slot or none at all;
    * `Sound`            scan ids are slot numbers, locations are distinct;
    * `RemovesSubdirs`   what the loop of `removeIfSubdir` does, slot by slot.
-/
import MediaTomb.ArrayBase
import MediaTomb.Tools
import MediaTomb.Lib.Machine

namespace MediaTomb.AutoscanList

open Lib.Machine

/-- `INVALID_SCAN_ID` -/
def invalidScanID : Int := -1

/-- An `AutoscanDirectory`, as far as the list looks at it. -/
structure Directory where
  location : Option Str
  persistent : Bool := false
  objectID : Int := -333
  scanID : Int := invalidScanID
  /-- the `TimerParameter`, by reference -/
  timerParameter : Nat := 0
  deriving DecidableEq

structure Heap where
  dir : Nat → Directory
  /-- the ids in the `TimerParameter` objects -/
  timerID : Nat → Int
  /-- the next reference -/
  next : Nat

/-- `list` of the class; an empty slot is nil. -/
abbrev Slots := List (Option Nat)

/-- The ways in which a call does not return. -/
inductive Failure where
  /-- `_Exception("Attempted to add same autoscan path twice")` -/
  | throws
  /-- a method is applied to an empty slot -/
  | emptySlot
  /-- a method is applied to a nil string -/
  | nilString
  deriving DecidableEq

/-! ## Operations -/

/-- `setScanID`: the timer parameter learns it too. -/
def Heap.setScanID (h : Heap) (d : Nat) (id : Int) : Heap :=
  { h with
    dir := Function.update h.dir d { h.dir d with scanID := id }
    timerID := Function.update h.timerID (h.dir d).timerParameter id }

/-- A new object, `copyTo` from another. -/
def Heap.copyTo (h : Heap) (d : Nat) : Heap :=
  { h with dir := Function.update h.dir h.next (h.dir d), next := h.next + 1 }

/-- The loop of `_add`: the LAST empty slot, or an exception. -/
def nilIndex (h : Heap) (loc : Option Str) : Nat → Option Nat → Slots →
    Except Failure (Option Nat)
  | _, nil, [] => .ok nil
  | i, _, none :: rest => nilIndex h loc (i + 1) (some i) rest
  | i, nil, some d :: rest =>
    if loc = (h.dir d).location then .error .throws else nilIndex h loc (i + 1) nil rest

/-- `_add`. -/
def add_ (h : Heap) (list : Slots) (d : Nat) : Except Failure (Heap × Slots) :=
  match nilIndex h (h.dir d).location 0 none list with
  | .error failure => .error failure
  | .ok (some i) => .ok (h.setScanID d i, list.set i (some d))
  | .ok none => .ok (h.setScanID d list.length, list ++ [some d])

/-- `addList`; what has been added before an exception stays. -/
def addList (h : Heap) (list : Slots) : Slots → Heap × Slots × Option Failure
  | [] => (h, list, none)
  | none :: rest => addList h list rest
  | some d :: rest =>
    match add_ h list d with
    | .error failure => (h, list, some failure)
    | .ok (h, list) => addList h list rest

/-- `getArrayCopy`: `append` retains what it is given. -/
def getArrayCopy : Slots → Except Failure (List Nat)
  | [] => .ok []
  | none :: _ => .error .emptySlot
  | some d :: rest => (getArrayCopy rest).map fun copy => d :: copy

/-- `get(id)`. -/
def getID (list : Slots) (id : Int) : Option Nat :=
  if id < 0 ∨ (list.length : Int) ≤ id then none else (list[id.toNat]?).join

/-- The slot is given up: the last one goes away, any other becomes nil. -/
def clearSlot (list : Slots) (i : Nat) : Slots :=
  if i + 1 = list.length then ArrayBase.removeUnordered list i else list.set i none

/-- `remove(id)`: nobody looks whether the slot is empty. -/
def removeID (h : Heap) (list : Slots) (id : Int) : Except Failure (Heap × Slots) :=
  if id < 0 ∨ (list.length : Int) ≤ id then .ok (h, list)
  else
    match (list[id.toNat]?).join with
    | none => .error .emptySlot
    | some d => .ok (h.setScanID d invalidScanID, clearSlot list id.toNat)

/-- The first slot with a directory that meets the condition. -/
def findSlot (h : Heap) (meets : Directory → Bool) (list : Slots) : Option Nat :=
  list.findIdx? fun slot =>
    match slot with
    | none => false
    | some d => meets (h.dir d)

/-- `get(location)`. -/
def getLocation (h : Heap) (list : Slots) (location : Option Str) : Option Nat :=
  (findSlot h (fun dir => dir.location = location) list).bind fun i => (list[i]?).join

/-- `getByObjectID(objectID)`. -/
def getByObjectID (h : Heap) (list : Slots) (objectID : Int) : Option Nat :=
  (findSlot h (fun dir => dir.objectID = objectID) list).bind fun i => (list[i]?).join

/-- The two removals that search; they return the slot. -/
def removeFirst (h : Heap) (list : Slots) (meets : Directory → Bool) : Heap × Slots × Int :=
  match findSlot h meets list with
  | none => (h, list, invalidScanID)
  | some i =>
    match (list[i]?).join with
    | none => (h, list, invalidScanID)
    | some d => (h.setScanID d invalidScanID, clearSlot list i, i)

/-- `remove(location)`. -/
def removeLocation (h : Heap) (list : Slots) (location : Option Str) : Heap × Slots × Int :=
  removeFirst h list fun dir => dir.location = location

def removeByObjectID (h : Heap) (list : Slots) (objectID : Int) : Heap × Slots × Int :=
  removeFirst h list fun dir => dir.objectID = objectID

/-- `String::startsWith`; nil on either side is a null pointer. -/
def startsWith : Option Str → Option Str → Option Bool
  | some s, some pfx => some (pfx.isPrefixOf s)
  | _, _ => none

/-- Where `removeIfSubdir` is: the heap, the list it returns, the slots it leaves, a failure. -/
structure Removal where
  heap : Heap
  removed : Slots
  slots : Slots
  failure : Option Failure := none

/-- The slot in front is done with. -/
def Removal.behind (slot : Option Nat) (r : Removal) : Removal := { r with slots := slot :: r.slots }

/-- The loop of `removeIfSubdir` over the slots that are left; the last slot goes away when its
    directory does. -/
def removeIfSubdir (parent : Option Str) (persistent : Bool) : Heap → Slots → Slots → Removal
  | h, removed, [] => ⟨h, removed, [], none⟩
  | h, removed, none :: rest => (removeIfSubdir parent persistent h removed rest).behind none
  | h, removed, some d :: rest =>
    match startsWith (h.dir d).location parent with
    | none => ⟨h, removed, some d :: rest, some .nilString⟩
    | some false => (removeIfSubdir parent persistent h removed rest).behind (some d)
    | some true =>
      if (h.dir d).persistent && !persistent then
        (removeIfSubdir parent persistent h removed rest).behind (some d)
      else
        match add_ (h.copyTo d) removed h.next with
        | .error failure => ⟨h.copyTo d, removed, some d :: rest, some failure⟩
        | .ok (h', removed) =>
          let h' := (h'.setScanID h.next (h'.dir d).scanID).setScanID d invalidScanID
          match rest with
          | [] => ⟨h', removed, [], none⟩
          | next :: rest =>
            (removeIfSubdir parent persistent h' removed (next :: rest)).behind none

/-! ## The machine -/

structure State where
  heap : Heap
  list : Slots := []

inductive Call where
  | add (d : Nat)
  | addList (other : Slots)
  | removeID (id : Int)
  | removeLocation (location : Option Str)
  | removeByObjectID (objectID : Int)
  | removeIfSubdir (parent : Option Str) (persistent : Bool)
  | getID (id : Int)
  | getLocation (location : Option Str)
  | getArrayCopy

/-- The references in the call are references to objects. -/
def Call.Known (next : Nat) : Call → Prop
  | .add d => d < next
  | .addList other => ∀ d, some d ∈ other → d < next
  | _ => True

instance (next : Nat) : (c : Call) → Decidable (c.Known next)
  | .add d => inferInstanceAs (Decidable (d < next))
  | .addList other =>
    decidable_of_iff (∀ slot ∈ other, ∀ d ∈ slot, d < next)
      ⟨fun h d hd => h _ hd d rfl, fun h _ hs d hd => h d (Option.mem_def.mp hd ▸ hs)⟩
  | .removeID _ => isTrue trivial
  | .removeLocation _ => isTrue trivial
  | .removeByObjectID _ => isTrue trivial
  | .removeIfSubdir _ _ => isTrue trivial
  | .getID _ => isTrue trivial
  | .getLocation _ => isTrue trivial
  | .getArrayCopy => isTrue trivial

namespace State

/-- What the call leaves, and its failure. -/
def call (s : State) : Call → State × Option Failure
  | .add d =>
    match add_ s.heap s.list d with
    | .error failure => (s, some failure)
    | .ok (h, list) => (⟨h, list⟩, none)
  | .addList other =>
    let r := addList s.heap s.list other
    (⟨r.1, r.2.1⟩, r.2.2)
  | .removeID id =>
    match removeID s.heap s.list id with
    | .error failure => (s, some failure)
    | .ok (h, list) => (⟨h, list⟩, none)
  | .removeLocation location =>
    let r := removeLocation s.heap s.list location
    (⟨r.1, r.2.1⟩, none)
  | .removeByObjectID objectID =>
    let r := removeByObjectID s.heap s.list objectID
    (⟨r.1, r.2.1⟩, none)
  | .removeIfSubdir parent persistent =>
    let r := removeIfSubdir parent persistent s.heap [] s.list
    (⟨r.heap, r.slots⟩, r.failure)
  | .getID _ => (s, none)
  | .getLocation _ => (s, none)
  | .getArrayCopy =>
    match getArrayCopy s.list with
    | .error failure => (s, some failure)
    | .ok _ => (s, none)

/-- The server does not outlive a null pointer; an exception it does. -/
def step (s : State) (c : Call) : Option State :=
  if c.Known s.heap.next then
    match (s.call c).2 with
    | none => some (s.call c).1
    | some .throws => some (s.call c).1
    | some .emptySlot => none
    | some .nilString => none
  else none

end State

end MediaTomb.AutoscanList
