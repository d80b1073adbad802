/-
  Making containers: `createContainer`, `ensurePathExistence` and `addContainerChain`.

  Both chains look a path up, and where nothing is stored at it make its parent first and then the
  container itself, whose INSERT is executed at once.  The recursion goes to a strictly shorter
  path; `fuel` is the length of the path it starts from, and the `_fuel` theorems below say that
  more of it changes nothing.
-/
import MediaTomb.Storage.Load

namespace MediaTomb

open Lib.Prog

/-! ## One container -/

/-- Execute `INSERT INTO mt_cds_object`. -/
def execInsertObject (row : ObjectRow) : Storage Unit := locked do
  let s ← get
  match s.db.insertObject? row with
  | some db => modify fun s => { s with db := db, uncounted := s.uncounted ++ [row.parentID] }
  | none => throw Statement.constraintError

/-- What `createContainer` tells the cache about the new container. -/
def informCache (newID parentID : Int) (path : Str) : Storage Unit := do
  addChild parentID
  flushIfFlushed
  modifyCache fun c => (c.getObjectDefinitely newID).2
  flushIfFlushed
  modifyCache fun c => c.modifyObject newID fun cObj =>
    { cObj with
      parentID := parentID
      numChildren := some 0
      objectType := some objectTypeContainer
      location := some path }

/-- The row `createContainer` inserts. -/
def containerRow (newID : {id : Int // cdsIdFsRoot < id}) (parentID : Int) (name path : Str)
    (isVirtual : Bool) (upnpClass : Option Str) (refID : Int) : ObjectRow :=
  let dbLocation := addLocationPrefix (if isVirtual then locVirtPrefix else locDirPrefix)
    (some path)
  { id := newID
    id_ge := blackhole_le_new newID
    parentID := parentID
    objectType := objectTypeContainer
    upnpClass := if stringOk upnpClass then upnpClass
      else some CdsObject.upnpDefaultClassContainer
    dcTitle := some name
    location := some dbLocation
    locationHash := some (stringHash dbLocation)
    refID := if 0 < refID then some refID else none }

def createContainer (parentID : Int) (name path : Str) (isVirtual : Bool)
    (upnpClass : Option Str) (refID : Int) : Storage Int := do
  if 0 < refID then
    let _ ← loadObject refID
  let newID ← getNextID
  execInsertObject (containerRow newID parentID name path isVirtual upnpClass refID)
  if ← cacheOn then
    locked (informCache newID parentID path)
  pure newID

/-! ## `ensurePathExistence` -/

/-- A run of the model that has no fuel left; the source has no such exception. -/
def outOfFuel : Exception := .exception (str "out of fuel")

/-- `_ensurePathExistence`: the directory at `path` and the container that changed, with
    `ensurePathExistence` itself for the parent. -/
def ensurePathExistence_ (ensureParent : Str → Storage (Int × Int)) (path : Str) :
    Storage (Int × Int) :=
  if path = [dirSeparator] then pure (cdsIdFsRoot, invalidObjectID)
  else do
    match ← findObjectByPath (path ++ [dirSeparator]) with
    | some obj => pure (obj.id, invalidObjectID)
    | none => do
      let (parent, folder) ← ofExcept (splitPathOrThrow path)
      let (parentID, changedContainer) ← ensureParent parent
      let changedContainer :=
        if changedContainer = invalidObjectID then parentID else changedContainer
      let s ← get
      let name ← ofExcept (s.f2i folder)
      let id ← createContainer parentID name path false none invalidObjectID
      pure (id, changedContainer)

/-- The path without doubled separators and without a trailing one. -/
def cleanPath (path : Str) : Str :=
  let cleanPath := reduce dirSeparator path
  if cleanPath ≠ [dirSeparator] ∧ cleanPath.getLast? = some dirSeparator then cleanPath.dropLast
  else cleanPath

def ensurePathExistenceFrom : Nat → Str → Storage (Int × Int)
  | 0, _ => throw outOfFuel
  | fuel + 1, path =>
    if reduce dirSeparator path = [dirSeparator] then pure (cdsIdFsRoot, invalidObjectID)
    else ensurePathExistence_ (ensurePathExistenceFrom fuel) (cleanPath path)

/-- `ensurePathExistence`: the id of the directory, and the container that got a new child
    (`INVALID_OBJECT_ID` when none did). -/
def ensurePathExistence (path : Str) : Storage (Int × Int) :=
  ensurePathExistenceFrom (path.length + 1) path

theorem cleanPath_length_le (path : Str) : (cleanPath path).length ≤ path.length := by
  have h := reduce_length_le dirSeparator path
  unfold cleanPath
  simp only
  split
  · rw [List.length_dropLast]
    omega
  · exact h

/-- **Fuel.**  A path needs no more than one unit for each of its bytes, and one. -/
theorem ensurePathExistenceFrom_fuel :
    ∀ (fuel : Nat) (path : Str), path.length < fuel →
      ensurePathExistenceFrom fuel path = ensurePathExistenceFrom (path.length + 1) path := by
  -- two fuels that both suffice agree; the induction is on the first
  have agree : ∀ (fuel fuel' : Nat) (path : Str), path.length < fuel → path.length < fuel' →
      ensurePathExistenceFrom fuel path = ensurePathExistenceFrom fuel' path := by
    intro fuel
    induction fuel with
    | zero =>
      intro fuel' path h
      omega
    | succ fuel ih =>
      intro fuel' path h h'
      rcases fuel' with _ | fuel'
      · omega
      · rw [ensurePathExistenceFrom, ensurePathExistenceFrom]
        split
        · rfl
        · unfold ensurePathExistence_
          split
          · rfl
          · next hroot =>
            refine congrArg (findObjectByPath (cleanPath path ++ [dirSeparator]) >>= ·) ?_
            funext found
            rcases found with _ | obj
            · rcases hsplit : splitPath (cleanPath path) with e | ⟨parent, folder⟩
              · simp only [splitPathOrThrow, hsplit]
                rfl
              · have hlt := splitPath_dir_lt hsplit hroot
                have hle := cleanPath_length_le path
                have hrec := ih fuel' parent (by omega) (by omega)
                simp only [splitPathOrThrow, hsplit, ofExcept_ok_bind, hrec]
            · rfl
  intro fuel path h
  exact agree fuel (path.length + 1) path h (Nat.lt_succ_self _)

/-! ## `addContainerChain` -/

/-- The loop of `stripAndUnescapeVirtualContainerFromPath`: back to the last separator that no
    escape character precedes. -/
def unescapedSeparator (path : Str) : Nat → Nat → Nat
  | 0, sep => sep
  | fuel + 1, sep =>
    if 0 < sep ∧ path[sep - 1]? = some virtualContainerEscape then
      unescapedSeparator path fuel
        ((rindexFrom (sep - 1) virtualContainerSeparator path).getD 0)
    else sep

/-- `stripAndUnescapeVirtualContainerFromPath`: the path of the parent and the title. -/
def stripAndUnescapeVirtualContainerFromPath (path : Str) : Except Exception (Str × Str) :=
  if path.head? ≠ some virtualContainerSeparator then
    .error (.exception
      (str "got non-absolute virtual path; needs to start with: " ++ [virtualContainerSeparator]))
  else
    match rindex virtualContainerSeparator path with
    | none | some 0 => .ok ([virtualContainerSeparator], path.drop 1)
    | some last =>
      match unescapedSeparator path last last with
      | 0 => .ok ([virtualContainerSeparator], unescape virtualContainerEscape (path.drop 1))
      | sep => .ok (path.take sep, unescape virtualContainerEscape (path.drop (sep + 1)))

/-- The row test of `addContainerChain`. -/
def matchesVirtualLocation (dbLocation : Str) (f : ObjectRow) : Bool :=
  f.locationHash = some (stringHash dbLocation) && f.location = some dbLocation

def addContainerChainFrom : Nat → Str → Option Str → Int → Option Int → Storage (Int × Option Int)
  | 0, _, _, _, _ => throw outOfFuel
  | fuel + 1, path, lastClass, lastRefID, updateID =>
    let path := reduce virtualContainerSeparator path
    if path = [virtualContainerSeparator] then pure (cdsIdRoot, updateID)
    else do
      let dbLocation := addLocationPrefix locVirtPrefix (some path)
      match ← select fun db => db.selectObjects (matchesVirtualLocation dbLocation) with
      | row :: _ => pure (row.id, updateID)
      | [] => do
        let (newpath, container) ← ofExcept (stripAndUnescapeVirtualContainerFromPath path)
        let (parentContainerID, updateID) ←
          addContainerChainFrom fuel newpath none invalidObjectID updateID
        let updateID :=
          if updateID = some invalidObjectID then some parentContainerID else updateID
        let containerID ←
          createContainer parentContainerID container path true lastClass lastRefID
        pure (containerID, updateID)

/-- `addContainerChain`: the id of the container, and `updateID` filled in where the caller passed
    a place for it (`some INVALID_OBJECT_ID`). -/
def addContainerChain (path : Str) (lastClass : Option Str) (lastRefID : Int)
    (updateID : Option Int) : Storage (Int × Option Int) :=
  addContainerChainFrom (path.length + 1) path lastClass lastRefID updateID

theorem unescapedSeparator_le (path : Str) :
    ∀ fuel sep, unescapedSeparator path fuel sep ≤ sep := by
  intro fuel
  induction fuel with
  | zero => exact fun sep => Nat.le_refl sep
  | succ fuel ih =>
    intro sep
    rw [unescapedSeparator]
    split
    · next h =>
      refine Nat.le_trans (ih _) ?_
      rcases hr : rindexFrom (sep - 1) virtualContainerSeparator path with _ | i
      · exact Nat.zero_le sep
      · unfold rindexFrom at hr
        split at hr
        · cases hr
        · have hi := rindex_lt hr
          rw [List.length_take] at hi
          simp only [Option.getD_some]
          omega
    · exact Nat.le_refl sep

/-- The path of the parent is shorter, unless the path is the separator alone. -/
theorem stripAndUnescape_lt {path newpath container : Str}
    (h : stripAndUnescapeVirtualContainerFromPath path = .ok (newpath, container))
    (hs : path ≠ [virtualContainerSeparator]) : newpath.length < path.length := by
  have two : path.head? = some virtualContainerSeparator → 1 < path.length := by
    intro hh
    rcases path with _ | ⟨c, _ | ⟨d, r⟩⟩
    · cases hh
    · cases hh
      exact absurd rfl hs
    · simp
  unfold stripAndUnescapeVirtualContainerFromPath at h
  split at h
  · cases h
  · next hhead =>
    have hlen := two (not_not.mp hhead)
    split at h
    · cases h
      exact hlen
    · cases h
      exact hlen
    · next last _ hlast =>
      have hlt := rindex_lt hlast
      have hle := unescapedSeparator_le path last last
      split at h
      · cases h
        exact hlen
      · cases h
        rw [List.length_take]
        omega

/-- **Fuel.**  As for `ensurePathExistence`. -/
theorem addContainerChainFrom_fuel :
    ∀ (fuel : Nat) (path : Str) (lastClass : Option Str) (lastRefID : Int) (updateID : Option Int),
      path.length < fuel →
      addContainerChainFrom fuel path lastClass lastRefID updateID =
        addContainerChainFrom (path.length + 1) path lastClass lastRefID updateID := by
  have agree : ∀ (fuel fuel' : Nat) (path : Str) (lastClass : Option Str) (lastRefID : Int)
      (updateID : Option Int), path.length < fuel → path.length < fuel' →
      addContainerChainFrom fuel path lastClass lastRefID updateID =
        addContainerChainFrom fuel' path lastClass lastRefID updateID := by
    intro fuel
    induction fuel with
    | zero =>
      intro fuel' path lastClass lastRefID updateID h
      omega
    | succ fuel ih =>
      intro fuel' path lastClass lastRefID updateID h h'
      rcases fuel' with _ | fuel'
      · omega
      · rw [addContainerChainFrom, addContainerChainFrom]
        simp only
        split
        · rfl
        · next hroot =>
          refine congrArg (select _ >>= ·) ?_
          funext found
          rcases found with _ | ⟨row, rows⟩
          · rcases hstrip : stripAndUnescapeVirtualContainerFromPath
                (reduce virtualContainerSeparator path) with e | ⟨newpath, container⟩
            · rfl
            · have hlt := stripAndUnescape_lt hstrip hroot
              have hle := reduce_length_le virtualContainerSeparator path
              have hrec := ih fuel' newpath none invalidObjectID updateID (by omega) (by omega)
              simp only [ofExcept_ok_bind, hrec]
          · rfl
  intro fuel path lastClass lastRefID updateID h
  exact agree fuel (path.length + 1) path lastClass lastRefID updateID h (Nat.lt_succ_self _)

end MediaTomb
