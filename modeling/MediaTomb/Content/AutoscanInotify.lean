/-
  `AutoscanInotify` (`autoscan_inotify.cc`): which directories are watched, and what for.

  The kernel has one watch for each directory and names it by a number, the watch descriptor; what
  the program wants from it is kept beside, in `watches`.  There are two reasons to watch: an autoscan
  is in the directory (or waits for a directory that does not exist yet), or the directory is ABOVE
  an autoscan, so that a move of it has to be noticed.

  A persistent autoscan may be asked for before its directory exists.  Then the nearest directory
  above is watched, and the path is looked at again when something happens there.  The two functions
  that do it call each other:

    * `monitorDirectory`    no watch is to be had: the directory is not there;
    * `monitorNonexisting`  the directory is there: it can be watched.

  Both are wrong for a directory that may not be read.  `returns_iff` says that this is the only way
  to stay in there forever.
-/
import MediaTomb.Encodings
import MediaTomb.Storage.Database

namespace MediaTomb.AutoscanInotify

/-! ## File system -/

/-- What a path says to the kernel, for which repeated slashes are one. -/
structure Place where
  absolute : Bool
  parts : List Str
  /-- with a slash at the end, it has to be a directory -/
  slash : Bool
  deriving DecidableEq

def place (path : Str) : Place where
  absolute := path.head? = some dirSeparator
  parts := splitString (some path) dirSeparator false
  slash := path.getLast? = some dirSeparator

/-- What `inotify_add_watch` answers. -/
inductive Answer where
  | wd (wd : Nat)
  /-- `ENOENT` or `EACCES` -/
  | refused
  /-- any other `errno` -/
  | failed (error : String)

structure FileSystem where
  /-- `stat` says that it is a directory -/
  isDirectory : Place → Bool
  inotifyAddWatch : Place → Answer

/-- `check_path(path, true)` -/
def FileSystem.checkPath (fs : FileSystem) (path : Str) : Bool := fs.isDirectory (place path)

/-- There is no watch for the path, and no exception either. -/
def FileSystem.Refuses (fs : FileSystem) (path : Str) : Prop :=
  fs.inotifyAddWatch (place path) = .refused

/-! ## State -/

/-- An `AutoscanDirectory`, as far as it is looked at here. -/
structure Directory where
  location : Str
  persistent : Bool
  scanID : Int
  scanMode : ScanMode

inductive Watch where
  | autoscan (startPoint : Bool) (adir : Directory) (normalizedAutoscanPath : Str)
      (nonexistingPathArray : Option (List Str)) (descendants : List Int)
  | move (removeWd : Int)

structure Wd where
  path : Str
  wd : Int
  parentWd : Int
  wdWatches : List Watch

/-- The `DBOHash` of the watches is the map it stands for, the kernel's part is which watches there
    are. -/
structure State where
  watches : Int → Option Wd := fun _ => none
  kernel : Int → Bool := fun _ => false
  /-- the calls of `handlePersistentAutoscanRecreate` -/
  recreated : List (Int × ScanMode) := []

/-- A method may throw. -/
abbrev Call (α : Type) := StateT State (Except String) α

/-- `INOTIFY_ROOT` -/
def inotifyRoot : Int := -1

/-- `INOTIFY_UNKNOWN_PARENT_WD` -/
def inotifyUnknownParentWd : Int := -2

/-- `watches->put` -/
def State.put (s : State) (wd : Int) (wdObj : Wd) : State :=
  { s with watches := Function.update s.watches wd (some wdObj) }

/-- The object in `watches` is changed. -/
def State.change (s : State) (wd : Int) (f : Wd → Wd) : State :=
  { s with watches := Function.update s.watches wd ((s.watches wd).map f) }

def Wd.append (o : Wd) (watch : Watch) : Wd := { o with wdWatches := o.wdWatches ++ [watch] }

/-- `Inotify::removeWatch` -/
def State.removeWatch (s : State) (wd : Int) : State :=
  { s with kernel := Function.update s.kernel wd false }

/-- `Inotify::addWatch` -/
def addWatch (fs : FileSystem) (path : Str) (s : State) : Except String (Int × State) :=
  match fs.inotifyAddWatch (place path) with
  | .wd wd => .ok (wd, { s with kernel := Function.update s.kernel wd true })
  | .refused => .ok (-1, s)
  | .failed error => .error error

/-! ## Watching for moves -/

/-- The text of a path, from its parts. -/
def pathText : List Str → Str
  | [] => [dirSeparator]
  | parts => parts.flatMap fun part => dirSeparator :: part

/-- The object of an ancestor, which may be there already. -/
def State.addMove (s : State) (path : Str) (wd removeWd parentWd : Int) : State :=
  match s.watches wd with
  | none => s.put wd ⟨path, wd, parentWd, [.move removeWd]⟩
  | some _ => s.change wd fun o => { o with parentWd := parentWd }.append (.move removeWd)

def addMoveWatch (fs : FileSystem) (path : Str) (removeWd parentWd : Int) : Call Int := do
  let wd ← addWatch fs path
  if 0 ≤ wd then
    modify fun s => s.addMove path wd removeWd parentWd
  return wd

/-- The directories above, from the root on, each the parent of the next. -/
def watchPathForMoves (fs : FileSystem) (path : Str) (wd : Int) : Call Int :=
  let pathAr := splitString (some path) dirSeparator false
  (List.range pathAr.length).foldlM
    (fun parentWd i => addMoveWatch fs (pathText (pathAr.take i)) wd parentWd) inotifyRoot

/-! ## Watching for autoscans -/

/-- `getAppropriateAutoscan` looks for the first such watch. -/
def isAppropriate (adir : Directory) : Watch → Bool
  | .autoscan _ other _ nonexistingPathArray _ =>
    nonexistingPathArray.isNone && other.location = adir.location
  | .move _ => false

def Watch.addDescendant (addWd : Int) : Watch → Watch
  | .autoscan startPoint adir path nonexistingPathArray descendants =>
    .autoscan startPoint adir path nonexistingPathArray (descendants ++ [addWd])
  | .move removeWd => .move removeWd

/-- The first appropriate watch gets the descendant. -/
def addToFirst (adir : Directory) (addWd : Int) : List Watch → List Watch
  | [] => []
  | watch :: watches =>
    if isAppropriate adir watch then watch.addDescendant addWd :: watches
    else watch :: addToFirst adir addWd watches

def State.addDescendant (s : State) (startPointWd addWd : Int) (adir : Directory) : State :=
  s.change startPointWd fun o => { o with wdWatches := addToFirst adir addWd o.wdWatches }

/-- `monitorDirectory`, when there is a watch. -/
def watchDirectory (fs : FileSystem) (adir : Directory) (normalizedAutoscanPath pathOri : Str)
    (startPoint : Bool) (pathArray : Option (List Str)) (wd : Int) : Call Int := do
  let path := pathOri ++ [dirSeparator]
  -- read before the moves are watched: a new object replaces what they put for this descriptor
  let wdObj := (← get).watches wd
  let parentWd ← if startPoint then watchPathForMoves fs pathOri wd else pure inotifyUnknownParentWd
  let alreadyWatching ← match wdObj with
    | none => do
      modify fun s => s.put wd ⟨path, wd, parentWd, []⟩
      pure false
    | some _ => do
      modify fun s => s.change wd fun o =>
        if 0 ≤ parentWd ∧ o.parentWd < 0 then { o with parentWd := parentWd } else o
      let watches := (((← get).watches wd).map Wd.wdWatches).getD []
      pure (pathArray.isNone && watches.any (isAppropriate adir))
  if !alreadyWatching then
    let watch := Watch.autoscan startPoint adir normalizedAutoscanPath pathArray []
    modify fun s => s.change wd fun o => o.append watch
    if !startPoint then
      let startPointWd ← addWatch fs normalizedAutoscanPath
      modify fun s => s.addDescendant startPointWd wd adir
  return wd

/-- `ContentManager::handlePersistentAutoscanRecreate` is told. -/
def State.handlePersistentAutoscanRecreate (s : State) (adir : Directory) : State :=
  { s with recreated := s.recreated ++ [(adir.scanID, adir.scanMode)] }

/-! ## Watching for what does not exist

`none` is a call that has not come to an end within the fuel. -/

/-- `monitorDirectory`, with the arguments that change. -/
abbrev Monitor := Str → Bool → Option (List Str) → State → Option (Except String (Int × State))

/-- The body of the loop for a path that exists. -/
def existing (monitorDirectory : Monitor) (adir : Directory) (pathAr : List Str) (i : Nat)
    (first : Bool) (s : State) : Option (Except String State) :=
  let path := pathText (pathAr.take i) ++ [dirSeparator]
  if first then
    (monitorDirectory path true none s).map fun r =>
      r.map fun result => result.2.handlePersistentAutoscanRecreate adir
  else (monitorDirectory path false (some pathAr) s).map fun r => r.map Prod.snd

def recheckFrom (fs : FileSystem) (monitorDirectory : Monitor) (adir : Directory)
    (pathAr : List Str) : Nat → Bool → State → Option (Except String State)
  | 0, first, s =>
    if fs.checkPath (pathText (pathAr.take 0)) then existing monitorDirectory adir pathAr 0 first s
    else some (.ok s)
  | i + 1, first, s =>
    if fs.checkPath (pathText (pathAr.take (i + 1))) then
      existing monitorDirectory adir pathAr (i + 1) first s
    else recheckFrom fs monitorDirectory adir pathAr i false s

/-- `recheckNonexistingMonitor(-1, ...)` -/
def recheckNonexistingMonitor (fs : FileSystem) (monitorDirectory : Monitor) (adir : Directory)
    (pathAr : List Str) (s : State) : Option (Except String State) :=
  recheckFrom fs monitorDirectory adir pathAr pathAr.length true s

def monitorDirectory (fs : FileSystem) (adir : Directory) (normalizedAutoscanPath : Str) :
    Nat → Monitor
  | 0, _, _, _, _ => none
  | fuel + 1, pathOri, startPoint, pathArray, s =>
    let path := pathOri ++ [dirSeparator]
    match addWatch fs path s with
    | .error error => some (.error error)
    | .ok (wd, s') =>
      if wd < 0 then
        if startPoint && adir.persistent then
          -- `monitorNonexisting`
          (recheckNonexistingMonitor fs (monitorDirectory fs adir normalizedAutoscanPath fuel) adir
            (splitString (some path) dirSeparator false) s').map fun r => r.map fun s'' => (wd, s'')
        else some (.ok (wd, s'))
      else some (watchDirectory fs adir normalizedAutoscanPath pathOri startPoint pathArray wd s')

def monitorNonexisting (fs : FileSystem) (adir : Directory) (normalizedAutoscanPath : Str)
    (fuel : Nat) (path : Str) (s : State) : Option (Except String State) :=
  recheckNonexistingMonitor fs (monitorDirectory fs adir normalizedAutoscanPath fuel) adir
    (splitString (some path) dirSeparator false) s

/-! ## Paths and their parts -/

section

variable {c : UInt8} {parts : List Str} {path : Str}

theorem splitStringFrom_skip (r : Str) :
    splitStringFrom c false [] (c :: r) = splitStringFrom c false [] r := by
  rw [splitStringFrom, if_pos (beq_self_eq_true c), if_pos rfl, if_neg]
  rintro ⟨-, hempty⟩
  cases hempty

theorem splitStringFrom_parts {cur r : Str} (hcur : c ∉ cur) :
    ∀ p ∈ splitStringFrom c false cur r, p ≠ [] ∧ c ∉ p := by
  induction r generalizing cur with
  | nil =>
    intro p hp
    rw [splitStringFrom] at hp
    split_ifs at hp with hempty
    · cases hp
    · rw [List.mem_singleton.mp hp]
      exact ⟨hempty, hcur⟩
  | cons d r ih =>
    have hrest := ih (List.not_mem_nil : c ∉ ([] : Str))
    rw [splitStringFrom]
    by_cases hsep : (d == c) = true
    · rw [if_pos hsep]
      by_cases hempty : cur = []
      · rw [if_pos hempty, if_neg (fun h => Bool.false_ne_true h.2)]
        exact hrest
      · rw [if_neg hempty]
        exact List.forall_mem_cons.mpr ⟨⟨hempty, hcur⟩, hrest⟩
    · rw [if_neg hsep]
      apply ih
      rw [List.mem_append, List.mem_singleton]
      rintro (hin | rfl)
      · exact hcur hin
      · exact hsep (beq_self_eq_true c)

theorem splitString_parts (path : Str) :
    ∀ p ∈ splitString (some path) dirSeparator false, p ≠ [] ∧ dirSeparator ∉ p :=
  splitStringFrom_parts List.not_mem_nil

/-- A path with slashes behind it has the same parts. -/
theorem splitString_pathText (hparts : ∀ p ∈ parts, p ≠ [] ∧ dirSeparator ∉ p) :
    splitString (some (pathText parts ++ [dirSeparator] ++ [dirSeparator])) dirSeparator false =
      parts := by
  show splitStringFrom dirSeparator false [] _ = parts
  rw [List.append_assoc]
  have hskip : splitStringFrom dirSeparator false [] [dirSeparator, dirSeparator] = [] := by
    rw [splitStringFrom_skip, splitStringFrom_skip]
    rfl
  cases parts with
  | nil =>
    show splitStringFrom dirSeparator false [] (dirSeparator :: [dirSeparator, dirSeparator]) = []
    rw [splitStringFrom_skip]
    exact hskip
  | cons p ps =>
    have hmore : ∀ qs : List Str, (∀ q ∈ qs, q ≠ [] ∧ dirSeparator ∉ q) →
        splitStringFrom dirSeparator false []
          (qs.flatMap (fun q => dirSeparator :: q) ++ [dirSeparator, dirSeparator]) = qs := by
      intro qs hqs
      induction qs with
      | nil => exact hskip
      | cons q qs ih =>
        obtain ⟨hne, hno⟩ := hqs q List.mem_cons_self
        have ih' := ih fun p hp => hqs p (List.mem_cons_of_mem q hp)
        -- what follows the part begins with a slash
        obtain ⟨rest, hrest⟩ : ∃ rest, qs.flatMap (fun q => dirSeparator :: q) ++
            [dirSeparator, dirSeparator] = dirSeparator :: rest := by
          cases qs with
          | nil => exact ⟨_, rfl⟩
          | cons q' qs => exact ⟨_, rfl⟩
        rw [hrest, splitStringFrom_skip] at ih'
        rw [List.flatMap_cons, List.append_assoc, hrest, List.cons_append, splitStringFrom_skip,
          splitStringFrom_part hno hne, ih']
    exact hmore (p :: ps) hparts

/-- An absolute path is the place that its parts name. -/
theorem place_slash (habsolute : path.head? = some dirSeparator) :
    place (path ++ [dirSeparator]) =
      ⟨true, splitString (some (path ++ [dirSeparator])) dirSeparator false, true⟩ := by
  cases path with
  | nil => cases habsolute
  | cons d path =>
    unfold place
    rw [List.getLast?_append_of_ne_nil _ (List.cons_ne_nil _ _), List.getLast?_singleton,
      List.cons_append, List.head?_cons]
    cases habsolute
    rfl

theorem head_pathText (parts : List Str) : (pathText parts).head? = some dirSeparator := by
  cases parts with
  | nil => rfl
  | cons p ps => rfl

end

/-! ## Coming to an end -/

section

variable {fs : FileSystem} {adir : Directory} {norm path : Str} {startPoint first : Bool}
  {pathArray : Option (List Str)} {pathAr : List Str} {monitor : Monitor} {s : State} {i fuel : Nat}

/-- **The directory is there, and there is no watch for it**, asked for as the loop writes it. -/
def Stuck (fs : FileSystem) (path : Str) : Prop :=
  let text := pathText (splitString (some path) dirSeparator false)
  fs.checkPath text = true ∧ fs.Refuses (text ++ [dirSeparator] ++ [dirSeparator])

/-- The call comes to an end. -/
def Returns {α : Type} (call : Nat → Option α) : Prop := ∃ fuel r, call fuel = some r

theorem addWatch_refused (h : fs.Refuses path) : addWatch fs path s = .ok (-1, s) := by
  unfold addWatch
  rw [h]

/-- A call that has a watch, or does not need one, ends at once. -/
theorem monitorDirectory_ends (h : ¬ (startPoint = true ∧ adir.persistent = true ∧
      fs.Refuses (path ++ [dirSeparator]))) :
    ∃ r, monitorDirectory fs adir norm (fuel + 1) path startPoint pathArray s = some r := by
  unfold monitorDirectory addWatch
  simp only
  rcases hanswer : fs.inotifyAddWatch (place (path ++ [dirSeparator])) with wd | _ | error
  · exact ⟨_, if_neg (Int.not_lt.mpr (Int.natCast_nonneg wd))⟩
  · have hnot : ¬ (startPoint && adir.persistent) = true := by
      intro hboth
      obtain ⟨hstart, hpersistent⟩ := Bool.and_eq_true_iff.mp hboth
      exact h ⟨hstart, hpersistent, hanswer⟩
    simp only
    rw [if_neg hnot]
    exact ⟨_, if_pos (by decide)⟩
  · exact ⟨_, rfl⟩

/-- The loop ends when the call that it makes does. -/
theorem recheckFrom_ends
    (hfirst : first = true → fs.checkPath (pathText (pathAr.take i)) = true →
      ∀ s, ∃ r, monitor (pathText (pathAr.take i) ++ [dirSeparator]) true none s = some r)
    (hlater : ∀ path s, ∃ r, monitor path false (some pathAr) s = some r) :
    ∃ r, recheckFrom fs monitor adir pathAr i first s = some r := by
  have hexisting : ∀ i first, (first = true → ∀ s, ∃ r,
      monitor (pathText (pathAr.take i) ++ [dirSeparator]) true none s = some r) →
      ∃ r, existing monitor adir pathAr i first s = some r := by
    intro i first hcall
    unfold existing
    cases first with
    | true =>
      obtain ⟨r, hr⟩ := hcall rfl s
      simp only [hr, if_true]
      exact ⟨_, rfl⟩
    | false =>
      obtain ⟨r, hr⟩ := hlater (pathText (pathAr.take i) ++ [dirSeparator]) s
      simp only [hr, Bool.false_eq_true, if_false]
      exact ⟨_, rfl⟩
  induction i generalizing first with
  | zero =>
    unfold recheckFrom
    by_cases hcheck : fs.checkPath (pathText (pathAr.take 0)) = true
    · rw [if_pos hcheck]
      exact hexisting 0 first fun h => hfirst h hcheck
    · rw [if_neg hcheck]
      exact ⟨_, rfl⟩
  | succ i ih =>
    unfold recheckFrom
    by_cases hcheck : fs.checkPath (pathText (pathAr.take (i + 1))) = true
    · rw [if_pos hcheck]
      exact hexisting (i + 1) first fun h => hfirst h hcheck
    · rw [if_neg hcheck]
      exact ih fun h => (nomatch h)

/-- A path that exists is looked at first, and last. -/
theorem recheck_exists (hcheck : fs.checkPath (pathText pathAr) = true) :
    recheckNonexistingMonitor fs monitor adir pathAr s =
      (monitor (pathText pathAr ++ [dirSeparator]) true none s).map fun r =>
        r.map fun result => result.2.handlePersistentAutoscanRecreate adir := by
  have htake : pathAr.take pathAr.length = pathAr := List.take_length
  have hexisting : existing monitor adir pathAr pathAr.length true s =
      (monitor (pathText pathAr ++ [dirSeparator]) true none s).map fun r =>
        r.map fun result => result.2.handlePersistentAutoscanRecreate adir := by
    unfold existing
    rw [htake]
    rfl
  have hcheck' : fs.checkPath (pathText (pathAr.take pathAr.length)) = true := by
    rw [htake]
    exact hcheck
  unfold recheckNonexistingMonitor
  rw [← hexisting]
  generalize pathAr.length = n at hcheck' ⊢
  cases n with
  | zero => exact if_pos hcheck'
  | succ n => exact if_pos hcheck'

/-- **Asking for the watch again and again.** -/
theorem monitorDirectory_stuck (hpersistent : adir.persistent = true) (hstuck : Stuck fs path) :
    monitorDirectory fs adir norm fuel
      (pathText (splitString (some path) dirSeparator false) ++ [dirSeparator]) true pathArray s =
        none := by
  obtain ⟨hcheck, hrefuses⟩ := hstuck
  have hparts := splitString_pathText (splitString_parts path)
  generalize splitString (some path) dirSeparator false = parts at hcheck hrefuses hparts ⊢
  induction fuel generalizing pathArray s with
  | zero => rfl
  | succ fuel ih =>
    unfold monitorDirectory
    simp only [addWatch_refused hrefuses, hparts, recheck_exists hcheck, ih, hpersistent]
    rfl

theorem monitorNonexisting_returns_iff :
    Returns (fun fuel => monitorNonexisting fs adir norm fuel path s) ↔
      ¬ (adir.persistent = true ∧ Stuck fs path) := by
  constructor
  · rintro ⟨fuel, r, hr⟩ ⟨hpersistent, hstuck⟩
    have hnone : monitorNonexisting fs adir norm fuel path s = none := by
      unfold monitorNonexisting
      rw [recheck_exists hstuck.1, monitorDirectory_stuck hpersistent hstuck]
      rfl
    cases hnone.symm.trans hr
  · intro hnot
    refine ⟨1, ?_⟩
    apply recheckFrom_ends
    · intro _ hcheck s
      apply monitorDirectory_ends
      rintro ⟨-, hpersistent, hrefuses⟩
      rw [List.take_length] at hcheck hrefuses
      exact hnot ⟨hpersistent, hcheck, hrefuses⟩
    · intro path s
      apply monitorDirectory_ends
      rintro ⟨hstart, -⟩
      cases hstart

/-- The watch is refused, and everything else is left to `monitorNonexisting`. -/
theorem monitorDirectory_refused (hpersistent : adir.persistent = true)
    (hrefuses : fs.Refuses (path ++ [dirSeparator])) :
    monitorDirectory fs adir norm (fuel + 1) path true pathArray s =
      (monitorNonexisting fs adir norm fuel (path ++ [dirSeparator]) s).map fun r =>
        r.map fun s' => (-1, s') := by
  unfold monitorDirectory
  simp only [addWatch_refused hrefuses, hpersistent]
  rfl

theorem monitorDirectory_returns_iff :
    Returns (fun fuel => monitorDirectory fs adir norm fuel path startPoint pathArray s) ↔
      ¬ (startPoint = true ∧ adir.persistent = true ∧ fs.Refuses (path ++ [dirSeparator]) ∧
        Stuck fs (path ++ [dirSeparator])) := by
  constructor
  · rintro ⟨fuel, r, hr⟩ ⟨rfl, hpersistent, hrefuses, hstuck⟩
    cases fuel with
    | zero => cases hr
    | succ fuel =>
      have hcall := (monitorDirectory_refused hpersistent hrefuses).symm.trans hr
      obtain ⟨r', hr', -⟩ := Option.map_eq_some_iff.mp hcall
      exact monitorNonexisting_returns_iff.mp ⟨fuel, r', hr'⟩ ⟨hpersistent, hstuck⟩
  · intro hnot
    by_cases hrefused : startPoint = true ∧ adir.persistent = true ∧
        fs.Refuses (path ++ [dirSeparator])
    · obtain ⟨rfl, hpersistent, hrefuses⟩ := hrefused
      have hlater : ¬ (adir.persistent = true ∧ Stuck fs (path ++ [dirSeparator])) := by
        rintro ⟨-, hstuck⟩
        exact hnot ⟨rfl, hpersistent, hrefuses, hstuck⟩
      obtain ⟨fuel, r, hr⟩ : Returns fun fuel =>
          monitorNonexisting fs adir norm fuel (path ++ [dirSeparator]) s :=
        monitorNonexisting_returns_iff.mpr hlater
      refine ⟨fuel + 1, r.map fun s' => (-1, s'), ?_⟩
      refine (monitorDirectory_refused hpersistent hrefuses).trans ?_
      exact congrArg (Option.map _) hr
    · exact ⟨1, monitorDirectory_ends hrefused⟩

/-- **Both functions return, unless the directory is there and refuses the watch of a persistent
    autoscan.** -/
theorem returns_iff (fs : FileSystem) (adir : Directory) (norm path : Str) (startPoint : Bool)
    (pathArray : Option (List Str)) (s : State) :
    (Returns (fun fuel => monitorDirectory fs adir norm fuel path startPoint pathArray s) ↔
      ¬ (startPoint = true ∧ adir.persistent = true ∧ fs.Refuses (path ++ [dirSeparator]) ∧
        Stuck fs (path ++ [dirSeparator]))) ∧
    (Returns (fun fuel => monitorNonexisting fs adir norm fuel path s) ↔
      ¬ (adir.persistent = true ∧ Stuck fs path)) :=
  ⟨monitorDirectory_returns_iff, monitorNonexisting_returns_iff⟩

/-- With an absolute path, the two watches that are asked for are one. -/
theorem stuck_iff (habsolute : path.head? = some dirSeparator) :
    fs.Refuses (path ++ [dirSeparator]) ∧ Stuck fs (path ++ [dirSeparator]) ↔
      fs.Refuses (path ++ [dirSeparator]) ∧
        fs.checkPath (pathText (splitString (some (path ++ [dirSeparator])) dirSeparator false)) =
          true := by
  have hsame : fs.Refuses (pathText (splitString (some (path ++ [dirSeparator])) dirSeparator
      false) ++ [dirSeparator] ++ [dirSeparator]) ↔ fs.Refuses (path ++ [dirSeparator]) := by
    have hhead : (pathText (splitString (some (path ++ [dirSeparator])) dirSeparator false) ++
        [dirSeparator]).head? = some dirSeparator := by
      rw [List.head?_append, head_pathText]
      rfl
    unfold FileSystem.Refuses
    rw [place_slash habsolute, place_slash hhead,
      splitString_pathText (splitString_parts _)]
  unfold Stuck
  simp only [hsame]
  tauto

/-! ## A directory that may not be read -/

/-- `/a` is a directory, and no watch is given for it. -/
def unreadable : FileSystem where
  isDirectory p := p.parts = [] ∨ p.parts = [['a'.toUInt8]]
  inotifyAddWatch p := if p.parts = [] then .wd 1 else .refused

def autoscanA : Directory := ⟨['/'.toUInt8, 'a'.toUInt8], true, 0, .inotify⟩

/-- There is no end to it. -/
theorem not_returns : ¬ ∀ (fs : FileSystem) (adir : Directory) (norm path : Str)
    (startPoint : Bool) (pathArray : Option (List Str)) (s : State),
    Returns (fun fuel => monitorDirectory fs adir norm fuel path startPoint pathArray s) := by
  intro hall
  have hreturns := hall unreadable autoscanA autoscanA.location autoscanA.location true none {}
  refine monitorDirectory_returns_iff.mp hreturns ⟨rfl, rfl, ?_, ?_, ?_⟩
  · rfl
  · decide
  · rfl

end

end MediaTomb.AutoscanInotify
