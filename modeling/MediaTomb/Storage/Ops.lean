/-
  The calls a storage gets, and runs of them.

  An `Op` is one call with its arguments.  A run executes calls one after the other on the same
  storage; a call that throws has been handled by its caller, and the run goes on from the state it
  left behind.
-/
import MediaTomb.Storage.Autoscan

namespace MediaTomb

open Lib.Prog

inductive Op where
  | addObject (obj : CdsObject)
  | updateObject (obj : CdsObject)
  | loadObject (objectID : Int)
  | loadObjectByServiceID (serviceID : Str)
  | getServiceObjectIDs (servicePrefix : UInt8)
  | browse (param : BrowseParam)
  | getChildCount (contId : Int) (containers items hideFsRoot : Bool)
  | getMimeTypes
  | findObjectByPath (fullpath : Str)
  | ensurePathExistence (path : Str)
  | addContainerChain (path : Str) (lastClass : Option Str) (lastRefID : Int)
      (updateID : Option Int)
  | getTotalFiles
  | incrementUpdateIDs (ids : List Int)
  | getObjects (parentID : Int) (withoutContainer : Bool)
  | removeObject (objectID : Int) (all : Bool)
  | removeObjects (list : List Int) (all : Bool)
  | updateAutoscanPersistentList (scanmode : ScanMode) (list : List AutoscanDirectory)
  | getAutoscanList (scanmode : ScanMode)
  | getAutoscanDirectory (objectID : Int)
  | addAutoscanDirectory (adir : AutoscanDirectory)
  | updateAutoscanDirectory (adir : AutoscanDirectory)
  | removeAutoscanDirectoryByObjectID (objectID : Int)
  | removeAutoscanDirectory (autoscanID : Int)
  | getAutoscanDirectoryType (objectID : Int)
  | isAutoscanDirectoryRecursive (objectID : Int)
  | isAutoscanChild (objectID : Int)
  | autoscanUpdateLM (adir : AutoscanDirectory)
  | checkOverlappingAutoscans (adir : AutoscanDirectory)
  | getFsRootName
  | clearFlagInDB (flag : UInt32)
  | shutdown

namespace Op

/-- Run a method for its effect. -/
def ignore {α : Type} (m : Storage α) : Storage Unit := do
  let _ ← m
  pure ()

def prog : Op → Storage Unit
  | addObject obj => ignore (MediaTomb.addObject obj)
  | updateObject obj => ignore (MediaTomb.updateObject obj)
  | loadObject objectID => ignore (MediaTomb.loadObject objectID)
  | loadObjectByServiceID serviceID => ignore (MediaTomb.loadObjectByServiceID serviceID)
  | getServiceObjectIDs servicePrefix => ignore (MediaTomb.getServiceObjectIDs servicePrefix)
  | browse param => ignore (MediaTomb.browse param)
  | getChildCount contId containers items hideFsRoot =>
    ignore (MediaTomb.getChildCount contId containers items hideFsRoot)
  | getMimeTypes => ignore MediaTomb.getMimeTypes
  | findObjectByPath fullpath => ignore (MediaTomb.findObjectByPath fullpath)
  | ensurePathExistence path => ignore (MediaTomb.ensurePathExistence path)
  | addContainerChain path lastClass lastRefID updateID =>
    ignore (MediaTomb.addContainerChain path lastClass lastRefID updateID)
  | getTotalFiles => ignore MediaTomb.getTotalFiles
  | incrementUpdateIDs ids => ignore (MediaTomb.incrementUpdateIDs ids)
  | getObjects parentID withoutContainer =>
    ignore (MediaTomb.getObjects parentID withoutContainer)
  | removeObject objectID all => ignore (MediaTomb.removeObject objectID all)
  | removeObjects list all => ignore (MediaTomb.removeObjects list all)
  | updateAutoscanPersistentList scanmode list =>
    ignore (MediaTomb.updateAutoscanPersistentList scanmode list)
  | getAutoscanList scanmode => ignore (MediaTomb.getAutoscanList scanmode)
  | getAutoscanDirectory objectID => ignore (MediaTomb.getAutoscanDirectory objectID)
  | addAutoscanDirectory adir => ignore (MediaTomb.addAutoscanDirectory adir)
  | updateAutoscanDirectory adir => ignore (MediaTomb.updateAutoscanDirectory adir)
  | removeAutoscanDirectoryByObjectID objectID =>
    ignore (MediaTomb.removeAutoscanDirectoryByObjectID objectID)
  | removeAutoscanDirectory autoscanID => ignore (MediaTomb.removeAutoscanDirectory autoscanID)
  | getAutoscanDirectoryType objectID => ignore (MediaTomb.getAutoscanDirectoryType objectID)
  | isAutoscanDirectoryRecursive objectID =>
    ignore (MediaTomb.isAutoscanDirectoryRecursive objectID)
  | isAutoscanChild objectID => ignore (MediaTomb.isAutoscanChild objectID)
  | autoscanUpdateLM adir => ignore (MediaTomb.autoscanUpdateLM adir)
  | checkOverlappingAutoscans adir => ignore (checkOverlappingAutoscans_ adir)
  | getFsRootName => ignore MediaTomb.getFsRootName
  | clearFlagInDB flag => ignore (MediaTomb.clearFlagInDB flag)
  | shutdown => ignore MediaTomb.shutdown

/-- Does the call delete object rows? -/
def isRemoval : Op → Bool
  | removeObject .. => true
  | removeObjects .. => true
  | _ => false

/-- The state a call leaves, returning or throwing. -/
def step (op : Op) (s : StorageState) : StorageState := (op.prog.run s).2

end Op

/-- The state after a run of calls. -/
def runOps (ops : List Op) (s : StorageState) : StorageState := ops.foldl (fun s op => op.step s) s

@[simp] theorem runOps_nil (s : StorageState) : runOps [] s = s := rfl

@[simp] theorem runOps_cons (op : Op) (ops : List Op) (s : StorageState) :
    runOps (op :: ops) s = runOps ops (op.step s) := rfl

theorem runOps_append (ops ops' : List Op) (s : StorageState) :
    runOps (ops ++ ops') s = runOps ops' (runOps ops s) := List.foldl_append

/-- Every call of the run meets `P` in the state it is made in. -/
def EveryStep (P : Op → StorageState → Prop) : List Op → StorageState → Prop
  | [], _ => True
  | op :: ops, s => P op s ∧ EveryStep P ops (op.step s)

/-- **Run rule.**  What every call that meets `P` preserves holds after every run of such calls. -/
theorem runOps_inv {I : StorageState → Prop} {P : Op → StorageState → Prop}
    (hstep : ∀ op s, P op s → I s → I (op.step s)) :
    ∀ (ops : List Op) (s : StorageState), EveryStep P ops s → I s → I (runOps ops s)
  | [], _, _, hI => hI
  | op :: ops, s, ⟨hP, hrest⟩, hI => runOps_inv hstep ops (op.step s) hrest (hstep op s hP hI)

theorem run_ignore {α : Type} (m : Storage α) (s : StorageState) :
    ((Op.ignore m).run s).2 = (m.run s).2 := by
  unfold Op.ignore
  rw [run_bind]
  rcases m.run s with ⟨e | a, s'⟩ <;> rfl

end MediaTomb
