/-
  `AutoscanInotify::monitorUnmonitorRecursive`, `getAppropriateAutoscan` and `removeDescendants`
  (`autoscan_inotify.cc`): a whole tree is watched, and is not watched any more.

  DATA     One watch descriptor for each directory, and for each descriptor a list of watches.  The
           watch of the autoscan's own directory (its START POINT) lists the descriptors of all
           directories below it, since the kernel tells only about the start point when it goes.
  PROGRAM  A directory is watched, then those that are listed in it.
  RESULT   `tree_monitored`: every directory of the tree is watched for the autoscan, and all of them
           are listed, so `removeDescendants` ends all their watches.  Nothing that was watched before
           is lost.  `getAppropriateAutoscan` then finds the nearest autoscan of a path.

  The lists only grow (`Watches.Extends`): a watch may come behind the others, and descendants may
  come to a watch.
-/
import MediaTomb.Content.WatchMoves

namespace MediaTomb.AutoscanInotify

/-! ## The tree -/

/-- A file system whose directories can be listed. -/
structure DirectoryTree extends FileSystem where
  /-- `readdir`, where `opendir` succeeds -/
  entries : Place → Option (List Str)

/-- `.` and `..` -/
def isDots (name : Str) : Prop := name = ['.'.toUInt8] ∨ name = ['.'.toUInt8, '.'.toUInt8]

instance (name : Str) : Decidable (isDots name) := inferInstanceAs (Decidable (_ ∨ _))

/-- The directories among the names that are listed. -/
def DirectoryTree.among (tree : DirectoryTree) (path : Str) (names : List Str) : List Str :=
  ((names.filter fun name => ¬ isDots name).map
    (fun name => path ++ [dirSeparator] ++ name)).filter fun path => tree.isDirectory (place path)

def DirectoryTree.subdirectories (tree : DirectoryTree) (path : Str) : List Str :=
  tree.among path ((tree.entries (place path)).getD [])

/-- The directory and all that are below it. -/
inductive DirectoryTree.Below (tree : DirectoryTree) (path : Str) : Str → Prop
  | refl : Below tree path path
  | step {q r : Str} (hq : Below tree path q) (hr : r ∈ tree.subdirectories q) : Below tree path r

/-- There are less than `n` directories above one another. -/
def DirectoryTree.Lower (tree : DirectoryTree) : Nat → Str → Prop
  | 0, _ => False
  | n + 1, path => ∀ q ∈ tree.subdirectories path, Lower tree n q

/-! ## The methods -/

/-- The loop over the entries. -/
def forEntries (tree : DirectoryTree) (call : Str → State → Option (Except String State))
    (startPath : Str) : List Str → State → Option (Except String State)
  | [], s => some (.ok s)
  | name :: names, s =>
    if isDots name then forEntries tree call startPath names s
    else
      let fullPath := startPath ++ [dirSeparator] ++ name
      if tree.isDirectory (place fullPath) then
        match call fullPath s with
        | none => none
        | some (.error error) => some (.error error)
        | some (.ok s') => forEntries tree call startPath names s'
      else forEntries tree call startPath names s

/-- `getAppropriateAutoscan(wdObj, adir)` -/
def getAppropriateAutoscan (adir : Directory) (wdWatches : List Watch) : Option Watch :=
  wdWatches.find? (isAppropriate adir)

/-- `removeFromWdObj`, for the watch at an index. -/
def State.removeFromWdObj (s : State) (wd : Int) (wdObj : Wd) (index : Nat) : State :=
  if wdObj.wdWatches.length = 1 then s.removeWatch wd
  else s.put wd { wdObj with wdWatches := ArrayBase.removeUnordered wdObj.wdWatches index }

def unmonitorDirectory (fs : FileSystem) (adir : Directory) (path : Str) (s : State) :
    Except String State :=
  match addWatch fs (path ++ [dirSeparator]) s with
  | .error error => .error error
  | .ok (wd, s') =>
    if wd < 0 then .ok s'
    else match s'.watches wd with
      | none => .ok s'
      | some wdObj =>
        match wdObj.wdWatches.findIdx? (isAppropriate adir) with
        | none => .ok s'
        | some index => .ok (s'.removeFromWdObj wd wdObj index)

/-- `none` is a call that has not come to an end within the fuel. -/
def monitorUnmonitorRecursive (tree : DirectoryTree) (adir : Directory)
    (normalizedAutoscanPath : Str) (unmonitor : Bool) :
    Nat → Str → Bool → State → Option (Except String State)
  | 0, _, _, _ => none
  | fuel + 1, startPath, startPoint, s =>
    let rest := fun s' : State =>
      match tree.entries (place startPath) with
      | none => some (.ok s')
      | some names => forEntries tree (fun path => monitorUnmonitorRecursive tree adir
          normalizedAutoscanPath unmonitor fuel path false) startPath names s'
    if unmonitor then
      match unmonitorDirectory tree.toFileSystem adir startPath s with
      | .error error => some (.error error)
      | .ok s' => rest s'
    else
      match monitorDirectory tree.toFileSystem adir normalizedAutoscanPath (fuel + 1) startPath
          startPoint none s with
      | none => none
      | some (.error error) => some (.error error)
      | some (.ok (wd, s')) => if 0 < wd then rest s' else some (.ok s')

/-- The descriptors that a watch lists. -/
def Watch.getDescendants : Watch → List Int
  | .autoscan _ _ _ _ descendants => descendants
  | .move _ => []

def removeDescendants (s : State) (wd : Int) : State :=
  match s.watches wd with
  | none => s
  | some wdObj => (wdObj.wdWatches.flatMap Watch.getDescendants).foldl State.removeWatch s

/-- The path of an autoscan that is watched, and does not wait for its directory. -/
def Watch.autoscanPath? : Watch → Option Str
  | .autoscan _ _ normalizedAutoscanPath none _ => some normalizedAutoscanPath
  | _ => none

/-- One watch is looked at; `best` is the best match before it. -/
def betterMatch (path : Str) (best : Option (Str × Watch)) (watch : Watch) : Option (Str × Watch) :=
  match watch.autoscanPath? with
  | none => best
  | some testLocation =>
    if testLocation <+: path then
      match best with
      | some (pathBestMatch, _) =>
        if pathBestMatch ≠ [] then
          if pathBestMatch.length < testLocation.length then some (testLocation, watch) else best
        else some (testLocation, watch)
      | none => some (testLocation, watch)
    else best

/-- `getAppropriateAutoscan(wdObj, path)` -/
def getAppropriateAutoscanFor (path : Str) (wdWatches : List Watch) : Option Watch :=
  (wdWatches.foldl (betterMatch path) none).map Prod.snd

/-! ## The nearest autoscan -/

/-- The path of an autoscan that the event's path lies below. -/
def Candidate (path : Str) (watch : Watch) (location : Str) : Prop :=
  watch.autoscanPath? = some location ∧ location <+: path

/-- `best` is the longest of the candidates. -/
def Best (path : Str) (watches : List Watch) : Option (Str × Watch) → Prop
  | none => ∀ watch ∈ watches, ∀ location, ¬ Candidate path watch location
  | some (location, watch) => watch ∈ watches ∧ Candidate path watch location ∧
      ∀ other ∈ watches, ∀ location', Candidate path other location' →
        location'.length ≤ location.length

section

variable {path location : Str} {watch : Watch} {watches : List Watch}
  {best : Option (Str × Watch)}

/-- A watch is looked at that is no candidate. -/
theorem Best.skip (h : Best path watches best)
    (hno : ∀ location, ¬ Candidate path watch location) : Best path (watches ++ [watch]) best := by
  rcases best with _ | ⟨location, found⟩
  · intro other hother location
    rcases List.mem_append.mp hother with hbefore | hlast
    · exact h other hbefore location
    · rw [List.mem_singleton.mp hlast]
      exact hno location
  · obtain ⟨hmem, hcandidate, hlongest⟩ := h
    refine ⟨List.mem_append_left _ hmem, hcandidate, fun other hother location' hother' => ?_⟩
    rcases List.mem_append.mp hother with hbefore | hlast
    · exact hlongest other hbefore location' hother'
    · rw [List.mem_singleton.mp hlast] at hother'
      exact absurd hother' (hno location')

/-- It is at least as long as the best one. -/
theorem Best.take (h : Best path watches best) (hcandidate : Candidate path watch location)
    (hlonger : ∀ before, best = some before → before.1.length ≤ location.length) :
    Best path (watches ++ [watch]) (some (location, watch)) := by
  refine ⟨List.mem_append_right _ List.mem_cons_self, hcandidate, fun other hother location' h' => ?_⟩
  rcases List.mem_append.mp hother with hbefore | hlast
  · rcases best with _ | ⟨before, found⟩
    · exact absurd h' (h other hbefore location')
    · exact Nat.le_trans (h.2.2 other hbefore location' h') (hlonger _ rfl)
  · rw [List.mem_singleton.mp hlast] at h'
    cases hcandidate.1.symm.trans h'.1
    exact Nat.le_refl _

/-- It is not longer than the best one. -/
theorem Best.stay {before : Str} {found : Watch} (h : Best path watches (some (before, found)))
    (hcandidate : Candidate path watch location) (hshorter : location.length ≤ before.length) :
    Best path (watches ++ [watch]) (some (before, found)) := by
  obtain ⟨hmem, hbefore, hlongest⟩ := h
  refine ⟨List.mem_append_left _ hmem, hbefore, fun other hother location' h' => ?_⟩
  rcases List.mem_append.mp hother with hin | hlast
  · exact hlongest other hin location' h'
  · rw [List.mem_singleton.mp hlast] at h'
    cases hcandidate.1.symm.trans h'.1
    exact hshorter

theorem best_betterMatch (h : Best path watches best) :
    Best path (watches ++ [watch]) (betterMatch path best watch) := by
  unfold betterMatch
  rcases hlocation : watch.autoscanPath? with _ | location
  · refine h.skip fun location hcandidate => ?_
    cases hlocation.symm.trans hcandidate.1
  simp only
  by_cases hbelow : location <+: path
  · rw [if_pos hbelow]
    rcases best with _ | ⟨before, found⟩
    · exact h.take ⟨hlocation, hbelow⟩ fun _ hsome => by cases hsome
    · simp only
      by_cases hempty : before = []
      · -- an empty path is no match that could be kept
        rw [if_neg (not_not.mpr hempty)]
        refine h.take ⟨hlocation, hbelow⟩ fun _ hsome => ?_
        cases hsome
        rw [hempty]
        exact Nat.zero_le _
      · rw [if_pos hempty]
        by_cases hlonger : before.length < location.length
        · rw [if_pos hlonger]
          refine h.take ⟨hlocation, hbelow⟩ fun _ hsome => ?_
          cases hsome
          exact Nat.le_of_lt hlonger
        · rw [if_neg hlonger]
          exact h.stay ⟨hlocation, hbelow⟩ (Nat.le_of_not_lt hlonger)
  · rw [if_neg hbelow]
    refine h.skip fun location' hcandidate => ?_
    cases hlocation.symm.trans hcandidate.1
    exact hbelow hcandidate.2

theorem best_foldl : Best path watches (watches.foldl (betterMatch path) none) := by
  induction watches using List.reverseRecOn with
  | nil => exact fun watch hmem => absurd hmem List.not_mem_nil
  | append_singleton watches watch ih =>
    rw [List.foldl_append]
    exact best_betterMatch ih

/-- **An event goes to the nearest autoscan above its path**, where there is one. -/
theorem getAppropriateAutoscanFor_nearest (path : Str) (watches : List Watch) :
    (getAppropriateAutoscanFor path watches = none ↔
      ∀ watch ∈ watches, ∀ location, ¬ Candidate path watch location) ∧
    ∀ watch, getAppropriateAutoscanFor path watches = some watch →
      watch ∈ watches ∧ ∃ location, Candidate path watch location ∧
        ∀ other ∈ watches, ∀ location', Candidate path other location' → location' <+: location := by
  have hbest := @best_foldl path watches
  unfold getAppropriateAutoscanFor
  generalize watches.foldl (betterMatch path) none = best at hbest ⊢
  rcases best with _ | ⟨location, watch⟩
  · exact ⟨⟨fun _ => hbest, fun _ => rfl⟩, fun watch hsome => by cases hsome⟩
  · obtain ⟨hmem, hcandidate, hlongest⟩ := hbest
    refine ⟨⟨fun hnone => (nomatch hnone), fun hall => ?_⟩, fun found hsome => ?_⟩
    · exact absurd hcandidate (hall watch hmem location)
    · cases hsome
      refine ⟨hmem, location, hcandidate, fun other hother location' h' => ?_⟩
      exact List.prefix_of_prefix_length_le h'.2 hcandidate.2 (hlongest other hother location' h')

end

/-! ## Lists that grow -/

/-- The same watch, with more descendants. -/
inductive Watch.Grows : Watch → Watch → Prop
  | autoscan (startPoint : Bool) (adir : Directory) (path : Str)
      (nonexistingPathArray : Option (List Str)) (descendants more : List Int) :
      Grows (.autoscan startPoint adir path nonexistingPathArray descendants)
        (.autoscan startPoint adir path nonexistingPathArray (descendants ++ more))
  | move (removeWd : Int) : Grows (.move removeWd) (.move removeWd)

theorem Watch.Grows.refl (watch : Watch) : watch.Grows watch := by
  cases watch with
  | autoscan startPoint adir path arr descendants =>
    have hgrows := Watch.Grows.autoscan startPoint adir path arr descendants []
    rwa [List.append_nil] at hgrows
  | move removeWd => exact .move removeWd

theorem Watch.Grows.trans {a b c : Watch} (h : a.Grows b) (h' : b.Grows c) : a.Grows c := by
  cases h with
  | autoscan startPoint adir path arr descendants more =>
    cases h' with
    | autoscan _ _ _ _ _ more' =>
      rw [List.append_assoc]
      exact .autoscan startPoint adir path arr descendants (more ++ more')
  | move removeWd =>
    cases h' with
    | move => exact .move removeWd

theorem Watch.Grows.isAppropriate {a b : Watch} (h : a.Grows b) (adir : Directory) :
    isAppropriate adir b = isAppropriate adir a := by
  cases h with
  | autoscan => rfl
  | move => rfl

theorem Watch.Grows.descendants {a b : Watch} (h : a.Grows b) :
    ∀ wd ∈ a.getDescendants, wd ∈ b.getDescendants := by
  cases h with
  | autoscan => exact fun wd hwd => List.mem_append_left _ hwd
  | move => exact fun wd hwd => hwd

/-- **Nothing is lost from the list**, and nothing moves. -/
inductive Extends : List Watch → List Watch → Prop
  | more (watches : List Watch) : Extends [] watches
  | cons {a b : Watch} {as bs : List Watch} (h : a.Grows b) (hrest : Extends as bs) :
      Extends (a :: as) (b :: bs)

section

variable {adir : Directory} {watch watch' : Watch} {watches watches' watches'' : List Watch}
  {wd addWd : Int}

theorem Extends.refl (watches : List Watch) : Extends watches watches := by
  induction watches with
  | nil => exact .more []
  | cons watch watches ih => exact .cons (.refl watch) ih

theorem Extends.trans (h : Extends watches watches') (h' : Extends watches' watches'') :
    Extends watches watches'' := by
  induction h generalizing watches'' with
  | more => exact .more _
  | cons hgrows _ ih =>
    cases h' with
    | cons hgrows' hrest' => exact .cons (hgrows.trans hgrows') (ih hrest')

theorem Extends.append (watches more : List Watch) : Extends watches (watches ++ more) := by
  induction watches with
  | nil => exact .more more
  | cons watch watches ih => exact .cons (.refl watch) ih

theorem grows_addDescendant (watch : Watch) (addWd : Int) :
    watch.Grows (watch.addDescendant addWd) := by
  cases watch with
  | autoscan startPoint adir path arr descendants =>
    exact .autoscan startPoint adir path arr _ [addWd]
  | move removeWd => exact .move removeWd

theorem extends_addToFirst (watches : List Watch) :
    Extends watches (addToFirst adir addWd watches) := by
  induction watches with
  | nil => exact .more []
  | cons watch watches ih =>
    rw [addToFirst]
    split
    · exact .cons (grows_addDescendant watch addWd) (.refl watches)
    · exact .cons (.refl watch) ih

/-- The first appropriate watch is still the first one. -/
theorem Extends.getAppropriateAutoscan (h : Extends watches watches')
    (hfound : getAppropriateAutoscan adir watches = some watch) :
    ∃ watch', getAppropriateAutoscan adir watches' = some watch' ∧ watch.Grows watch' := by
  unfold AutoscanInotify.getAppropriateAutoscan at hfound ⊢
  induction h with
  | more => cases hfound
  | @cons a b as bs hgrows hrest ih =>
    have hsame := hgrows.isAppropriate adir
    by_cases happropriate : isAppropriate adir a = true
    · rw [List.find?_cons_of_pos happropriate] at hfound
      rw [List.find?_cons_of_pos (hsame.trans happropriate)]
      cases hfound
      exact ⟨b, rfl, hgrows⟩
    · rw [List.find?_cons_of_neg happropriate] at hfound
      rw [List.find?_cons_of_neg (by rw [hsame]; exact happropriate)]
      exact ih hfound

/-- The descendant is listed in the first appropriate watch. -/
theorem getAppropriateAutoscan_addToFirst
    (hfound : getAppropriateAutoscan adir watches = some watch) :
    getAppropriateAutoscan adir (addToFirst adir addWd watches) =
      some (watch.addDescendant addWd) := by
  unfold getAppropriateAutoscan at hfound ⊢
  induction watches with
  | nil => cases hfound
  | cons first watches ih =>
    have hsame := (grows_addDescendant first addWd).isAppropriate adir
    rw [addToFirst]
    by_cases happropriate : isAppropriate adir first = true
    · rw [List.find?_cons_of_pos happropriate] at hfound
      rw [if_pos happropriate, List.find?_cons_of_pos (hsame.trans happropriate)]
      cases hfound
      rfl
    · rw [List.find?_cons_of_neg happropriate] at hfound
      rw [if_neg happropriate, List.find?_cons_of_neg happropriate]
      exact ih hfound

/-- A descendant makes no watch appropriate. -/
theorem any_addToFirst : (addToFirst adir addWd watches).any (isAppropriate adir) =
    watches.any (isAppropriate adir) := by
  induction watches with
  | nil => rfl
  | cons first watches ih =>
    rw [addToFirst]
    split
    · rw [List.any_cons, List.any_cons, (grows_addDescendant first addWd).isAppropriate adir]
    · rw [List.any_cons, List.any_cons, ih]

theorem any_iff_getAppropriateAutoscan :
    watches.any (isAppropriate adir) = true ↔
      ∃ watch, getAppropriateAutoscan adir watches = some watch := by
  unfold getAppropriateAutoscan
  rw [← Option.isSome_iff_exists, List.find?_isSome, List.any_eq_true]

end

/-! ## States that grow -/

/-- **No watch is lost**, in the lists and with the kernel. -/
structure Keeps (s s' : State) : Prop where
  watches : ∀ wd o, s.watches wd = some o →
    ∃ o', s'.watches wd = some o' ∧ Extends o.wdWatches o'.wdWatches
  kernel : ∀ wd, s.kernel wd = true → s'.kernel wd = true

section

variable {fs : FileSystem} {adir : Directory} {norm path : Str} {s s' s'' : State} {o : Wd}
  {a wd w : Int} {f : Wd → Wd} {startPoint : Bool}

theorem Keeps.refl (s : State) : Keeps s s :=
  ⟨fun _ o h => ⟨o, h, .refl _⟩, fun _ h => h⟩

theorem Keeps.trans (h : Keeps s s') (h' : Keeps s' s'') : Keeps s s'' := by
  refine ⟨fun wd o ho => ?_, fun wd hwd => h'.kernel wd (h.kernel wd hwd)⟩
  obtain ⟨o', ho', hext⟩ := h.watches wd o ho
  obtain ⟨o'', ho'', hext'⟩ := h'.watches wd o' ho'
  exact ⟨o'', ho'', hext.trans hext'⟩

theorem watches_change (a : Int) : (s.change wd f).watches a =
    if a = wd then (s.watches wd).map f else s.watches a := Function.update_apply _ _ _ _

theorem watches_put (a : Int) : (s.put wd o).watches a = if a = wd then some o else s.watches a :=
  Function.update_apply _ _ _ _

theorem keeps_change (hf : ∀ o, Extends o.wdWatches (f o).wdWatches) : Keeps s (s.change wd f) := by
  refine ⟨fun a o ho => ?_, fun a ha => ha⟩
  rw [watches_change]
  split
  next heq =>
    rw [heq] at ho
    rw [ho]
    exact ⟨f o, rfl, hf o⟩
  next => exact ⟨o, ho, .refl _⟩

/-- A new object, where there was none at the beginning. -/
theorem Keeps.put (h : Keeps s s') (hnone : s.watches wd = none) : Keeps s (s'.put wd o) := by
  refine ⟨fun a o' ho' => ?_, fun a ha => h.kernel a ha⟩
  rw [watches_put]
  split
  next heq =>
    rw [heq, hnone] at ho'
    cases ho'
  next => exact h.watches a o' ho'

/-! ## What a directory gets -/

/-- The descriptor is watched for the autoscan. -/
def Has (s : State) (adir : Directory) (wd : Int) : Prop :=
  ∃ o watch, s.watches wd = some o ∧ getAppropriateAutoscan adir o.wdWatches = some watch

/-- The descriptor is listed at the start point. -/
def Listed (s : State) (adir : Directory) (w wd : Int) : Prop :=
  ∃ o watch, s.watches w = some o ∧ getAppropriateAutoscan adir o.wdWatches = some watch ∧
    wd ∈ watch.getDescendants

/-- **What is watched for the autoscan is known to its start point.** -/
def Covered (s : State) (adir : Directory) (w : Int) : Prop :=
  ∀ wd, Has s adir wd → wd = w ∨ Listed s adir w wd

theorem Keeps.has (h : Keeps s s') (hhas : Has s adir wd) : Has s' adir wd := by
  obtain ⟨o, watch, ho, hwatch⟩ := hhas
  obtain ⟨o', ho', hext⟩ := h.watches wd o ho
  obtain ⟨watch', hwatch', -⟩ := hext.getAppropriateAutoscan hwatch
  exact ⟨o', watch', ho', hwatch'⟩

theorem Keeps.listed (h : Keeps s s') (hlisted : Listed s adir w wd) : Listed s' adir w wd := by
  obtain ⟨o, watch, ho, hwatch, hmem⟩ := hlisted
  obtain ⟨o', ho', hext⟩ := h.watches w o ho
  obtain ⟨watch', hwatch', hgrows⟩ := hext.getAppropriateAutoscan hwatch
  exact ⟨o', watch', ho', hwatch', hgrows.descendants wd hmem⟩

/-- **No autoscan gets a watch** in a step that keeps what there is. -/
structure Quiet (adir : Directory) (s s' : State) : Prop extends Keeps s s' where
  quiet : ∀ a, Has s' adir a → Has s adir a

theorem Quiet.refl (adir : Directory) (s : State) : Quiet adir s s := ⟨.refl s, fun _ h => h⟩

theorem Quiet.trans (h : Quiet adir s s') (h' : Quiet adir s' s'') : Quiet adir s s'' :=
  ⟨h.toKeeps.trans h'.toKeeps, fun a ha => h.quiet a (h'.quiet a ha)⟩

theorem has_iff_any : Has s adir wd ↔
    ∃ o, s.watches wd = some o ∧ o.wdWatches.any (isAppropriate adir) = true := by
  constructor
  · rintro ⟨o, watch, ho, hwatch⟩
    exact ⟨o, ho, any_iff_getAppropriateAutoscan.mpr ⟨watch, hwatch⟩⟩
  · rintro ⟨o, ho, hany⟩
    obtain ⟨watch, hwatch⟩ := any_iff_getAppropriateAutoscan.mp hany
    exact ⟨o, watch, ho, hwatch⟩

/-- A new object without a watch for the autoscan. -/
theorem Quiet.put (h : Quiet adir s s') (hnone : s.watches wd = none)
    (hempty : o.wdWatches.any (isAppropriate adir) = false) : Quiet adir s (s'.put wd o) := by
  refine ⟨h.toKeeps.put hnone, fun a ha => ?_⟩
  obtain ⟨o', ho', hany⟩ := has_iff_any.mp ha
  rw [watches_put] at ho'
  split at ho'
  · cases ho'
    rw [hempty] at hany
    cases hany
  · exact h.quiet a (has_iff_any.mpr ⟨o', ho', hany⟩)

/-- An object changes, and the watches for the autoscan do not. -/
theorem quiet_change (hf : ∀ o, Extends o.wdWatches (f o).wdWatches)
    (hsame : ∀ o, (f o).wdWatches.any (isAppropriate adir) = o.wdWatches.any (isAppropriate adir)) :
    Quiet adir s (s.change wd f) := by
  refine ⟨keeps_change hf, fun a ha => ?_⟩
  obtain ⟨o', ho', hany⟩ := has_iff_any.mp ha
  rw [watches_change] at ho'
  split at ho'
  next heq =>
    rcases hs : s.watches wd with _ | o
    · rw [hs] at ho'
      cases ho'
    · rw [hs] at ho'
      cases ho'
      exact has_iff_any.mpr ⟨o, heq ▸ hs, (hsame o).symm.trans hany⟩
  next => exact has_iff_any.mpr ⟨o', ho', hany⟩

theorem quiet_addMove (parentWd removeWd : Int) :
    Quiet adir s (s.addMove path wd removeWd parentWd) := by
  unfold State.addMove
  split
  next hnone => exact (Quiet.refl adir s).put hnone rfl
  next =>
    refine quiet_change (fun o => .append _ _) fun o => ?_
    show (o.wdWatches ++ [Watch.move removeWd]).any (isAppropriate adir) = _
    rw [List.any_append]
    exact Bool.or_false _

/-- The kernel does not refuse with an error that is thrown. -/
def FileSystem.Calm (fs : FileSystem) (path : Str) : Prop :=
  ∀ error, fs.inotifyAddWatch (place path) ≠ .failed error

theorem addWatch_calm (h : fs.Calm path) : ∃ wd s', addWatch fs path s = .ok (wd, s') ∧
    Quiet adir s s' := by
  unfold addWatch
  rcases hanswer : fs.inotifyAddWatch (place path) with wd | _ | error
  · refine ⟨wd, _, rfl, ⟨fun a o ho => ⟨o, ho, .refl _⟩, fun a ha => ?_⟩, fun a ha => ha⟩
    show Function.update s.kernel wd true a = true
    rw [Function.update_apply]
    split
    · rfl
    · exact ha
  · exact ⟨-1, s, rfl, .refl adir s⟩
  · exact absurd hanswer (h error)

theorem addWatch_wd {n : Nat} (h : fs.inotifyAddWatch (place path) = .wd n) :
    addWatch fs path s = .ok ((n : Int), { s with kernel := Function.update s.kernel n true }) := by
  unfold addWatch
  rw [h]

/-- The directories above are watched for moves. -/
theorem watchPathForMoves_calm
    (h : ∀ i, fs.Calm (pathText ((splitString (some path) dirSeparator false).take i))) :
    ∃ parentWd s', watchPathForMoves fs path wd s = .ok (parentWd, s') ∧ Quiet adir s s' := by
  unfold watchPathForMoves
  generalize splitString (some path) dirSeparator false = pathAr at h ⊢
  generalize inotifyRoot = parentWd
  generalize List.range pathAr.length = indices
  induction indices generalizing parentWd s with
  | nil => exact ⟨parentWd, s, rfl, .refl adir s⟩
  | cons i indices ih =>
    obtain ⟨wd', s₁, hadd, hquiet⟩ := @addWatch_calm fs adir _ s (h i)
    have hmove : ∃ s₂, addMoveWatch fs (pathText (pathAr.take i)) wd parentWd s = .ok (wd', s₂) ∧
        Quiet adir s s₂ := by
      unfold addMoveWatch
      by_cases hpos : 0 ≤ wd'
      · refine ⟨s₁.addMove (pathText (pathAr.take i)) wd' wd parentWd, ?_,
          hquiet.trans (quiet_addMove _ _)⟩
        show (addWatch fs (pathText (pathAr.take i)) s).bind _ = _
        rw [hadd]
        simp only [Except.bind, if_pos hpos]
        rfl
      · refine ⟨s₁, ?_, hquiet⟩
        show (addWatch fs (pathText (pathAr.take i)) s).bind _ = _
        rw [hadd]
        simp only [Except.bind, if_neg hpos]
        rfl
    obtain ⟨s₂, hmove, hquiet₂⟩ := hmove
    obtain ⟨parentWd', s', hrest, hquiet'⟩ := ih (s := s₂) wd'
    refine ⟨parentWd', s', ?_, hquiet₂.trans hquiet'⟩
    rw [List.foldlM_cons]
    show (addMoveWatch fs (pathText (pathAr.take i)) wd parentWd s).bind _ = _
    rw [hmove]
    exact hrest

/-- The object of the directory, which is there or made. -/
def State.entered (s s₁ : State) (path : Str) (wd parentWd : Int) : State :=
  match s.watches wd with
  | none => s₁.put wd ⟨path, wd, parentWd, []⟩
  | some _ => s₁.change wd fun o =>
      if 0 ≤ parentWd ∧ o.parentWd < 0 then { o with parentWd := parentWd } else o

/-- The directory has been watched for the autoscan before. -/
def State.alreadyWatching (s s₂ : State) (adir : Directory) (wd : Int) : Bool :=
  (s.watches wd).isSome &&
    (((s₂.watches wd).map Wd.wdWatches).getD []).any (isAppropriate adir)

/-- The watch is put at the end of the list. -/
def State.watched (s : State) (adir : Directory) (norm : Str) (startPoint : Bool) (wd : Int) :
    State :=
  s.change wd fun o => o.append (.autoscan startPoint adir norm none [])

/-- The watch is put into the list, unless there has been one. -/
def watchUnless (fs : FileSystem) (adir : Directory) (norm : Str) (startPoint : Bool) (wd : Int)
    (already : Bool) : Call Int := do
  if !already then
    modify fun s => s.change wd fun o => o.append (.autoscan startPoint adir norm none [])
    if !startPoint then
      let startPointWd ← addWatch fs norm
      modify fun s => s.addDescendant startPointWd wd adir
  return wd

theorem watchUnless_eq (already : Bool) (s : State) :
    watchUnless fs adir norm startPoint wd already s =
      if already then .ok (wd, s)
      else if startPoint then .ok (wd, s.watched adir norm startPoint wd)
      else (addWatch fs norm (s.watched adir norm startPoint wd)).map fun r =>
        (wd, r.2.addDescendant r.1 wd adir) := by
  cases already with
  | true => rfl
  | false =>
    cases startPoint with
    | true => rfl
    | false =>
      show (addWatch fs norm (s.watched adir norm false wd)).bind _ = _
      rw [if_neg Bool.false_ne_true, if_neg Bool.false_ne_true]
      rcases addWatch fs norm (s.watched adir norm false wd) with error | ⟨w, s'⟩
      · rfl
      · rfl

/-- **`monitorDirectory` where there is a watch**: the object, then the watch. -/
theorem watchDirectory_eq {parentWd : Int} {s₁ : State}
    (hmoves : (if startPoint then watchPathForMoves fs path wd else pure inotifyUnknownParentWd) s =
      .ok (parentWd, s₁)) :
    watchDirectory fs adir norm path startPoint none wd s =
      let s₂ := s.entered s₁ (path ++ [dirSeparator]) wd parentWd
      watchUnless fs adir norm startPoint wd (s.alreadyWatching s₂ adir wd) s₂ := by
  have hget : watchDirectory fs adir norm path startPoint none wd s =
      ((if startPoint then watchPathForMoves fs path wd else pure inotifyUnknownParentWd) s).bind
        fun r => (do
          let alreadyWatching ← match s.watches wd with
            | none => do
              modify fun s => s.put wd ⟨path ++ [dirSeparator], wd, r.1, []⟩
              pure false
            | some _ => do
              modify fun s => s.change wd fun o =>
                if 0 ≤ r.1 ∧ o.parentWd < 0 then { o with parentWd := r.1 } else o
              let watches := (((← get).watches wd).map Wd.wdWatches).getD []
              pure ((none : Option (List Str)).isNone && watches.any (isAppropriate adir))
          if !alreadyWatching then
            modify fun s => s.change wd fun o => o.append (.autoscan startPoint adir norm none [])
            if !startPoint then
              let startPointWd ← addWatch fs norm
              modify fun s => s.addDescendant startPointWd wd adir
          return wd : Call Int) r.2 := by
    cases startPoint with
    | true => rfl
    | false => rfl
  rw [hget, hmoves]
  unfold State.alreadyWatching State.entered
  rcases s.watches wd with _ | o
  · rfl
  · rfl

theorem keeps_watched : Keeps s (s.watched adir norm startPoint wd) :=
  keeps_change fun _ => .append _ _

/-- The watch that is put at the end of the list is one for the autoscan. -/
theorem has_watched (ho : s.watches wd = some o) :
    Has (s.watched adir norm startPoint wd) adir wd := by
  have hwatches : (s.watched adir norm startPoint wd).watches wd =
      some (o.append (.autoscan startPoint adir norm none [])) := by
    show (s.change wd _).watches wd = _
    rw [watches_change, if_pos rfl, ho]
    rfl
  have hany : (o.append (.autoscan startPoint adir norm none [])).wdWatches.any
      (isAppropriate adir) = true := by
    rw [List.any_eq_true]
    refine ⟨.autoscan startPoint adir norm none [], List.mem_append_right _ List.mem_cons_self, ?_⟩
    show (true && decide (adir.location = adir.location)) = true
    rw [decide_eq_true rfl]
    rfl
  obtain ⟨watch, hwatch⟩ := any_iff_getAppropriateAutoscan.mp hany
  exact ⟨_, watch, hwatches, hwatch⟩

/-- Another descriptor gets nothing. -/
theorem has_watched_other (hne : a ≠ wd) :
    Has (s.watched adir norm startPoint wd) adir a ↔ Has s adir a := by
  unfold Has
  have hsame : (s.watched adir norm startPoint wd).watches a = s.watches a := by
    show (s.change wd _).watches a = _
    rw [watches_change, if_neg hne]
  rw [hsame]

/-- Descendants do not make a watch. -/
theorem quiet_addDescendant (addWd : Int) : Quiet adir s (s.addDescendant w addWd adir) :=
  quiet_change (fun o => extends_addToFirst o.wdWatches) fun _ => any_addToFirst

/-- The start point lists what is added to it. -/
theorem listed_addDescendant (addWd : Int) (hhas : Has s adir w) :
    Listed (s.addDescendant w addWd adir) adir w addWd := by
  obtain ⟨o, watch, ho, hwatch⟩ := hhas
  refine ⟨{ o with wdWatches := addToFirst adir addWd o.wdWatches }, watch.addDescendant addWd, ?_,
    getAppropriateAutoscan_addToFirst hwatch, ?_⟩
  · show (s.change w _).watches w = _
    rw [watches_change, if_pos rfl, ho]
    rfl
  · have happropriate := List.find?_some hwatch
    cases watch with
    | autoscan => exact List.mem_append_right _ List.mem_cons_self
    | move => cases happropriate

/-! ## One directory -/

theorem Quiet.covered (h : Quiet adir s s') (hcovered : Covered s adir w) : Covered s' adir w :=
  fun wd hwd => (hcovered wd (h.quiet wd hwd)).imp_right h.toKeeps.listed

/-- The object is there now. -/
theorem quiet_entered {s₁ : State} {parentWd : Int} (h : Quiet adir s s₁) :
    Quiet adir s (s.entered s₁ path wd parentWd) ∧
      ∃ o, (s.entered s₁ path wd parentWd).watches wd = some o := by
  unfold State.entered
  rcases hs : s.watches wd with _ | o
  · refine ⟨h.put hs rfl, ⟨path, wd, parentWd, []⟩, ?_⟩
    show (s₁.put wd _).watches wd = _
    rw [watches_put, if_pos rfl]
  · obtain ⟨o₁, ho₁, -⟩ := h.watches wd o hs
    refine ⟨h.trans (quiet_change ?_ ?_),
      if 0 ≤ parentWd ∧ o₁.parentWd < 0 then { o₁ with parentWd := parentWd } else o₁, ?_⟩
    · intro o
      split
      · exact .refl _
      · exact .refl _
    · intro o
      split
      · rfl
      · rfl
    · show (s₁.change wd _).watches wd = _
      rw [watches_change, if_pos rfl, ho₁]
      rfl

theorem has_of_alreadyWatching (h : s.alreadyWatching s' adir wd = true) : Has s' adir wd := by
  unfold State.alreadyWatching at h
  obtain ⟨-, hany⟩ := Bool.and_eq_true_iff.mp h
  rcases hs : s'.watches wd with _ | o
  · rw [hs] at hany
    cases hany
  · rw [hs] at hany
    exact has_iff_any.mpr ⟨o, hs, hany⟩

/-- The autoscan's own directory. -/
theorem watchDirectory_startPoint
    (hmoves : ∀ i, fs.Calm (pathText ((splitString (some path) dirSeparator false).take i)))
    (hcovered : Covered s adir wd) :
    ∃ s', watchDirectory fs adir norm path true none wd s = .ok (wd, s') ∧ Keeps s s' ∧
      Has s' adir wd ∧ Covered s' adir wd := by
  obtain ⟨parentWd, s₁, hwatch, hquiet⟩ := @watchPathForMoves_calm fs adir path s wd hmoves
  obtain ⟨hentered, o, ho⟩ :=
    @quiet_entered adir (path ++ [dirSeparator]) s wd s₁ parentWd hquiet
  have hmoved : (if true = true then watchPathForMoves fs path wd
      else pure inotifyUnknownParentWd) s = .ok (parentWd, s₁) := hwatch
  rw [watchDirectory_eq hmoved]
  simp only [watchUnless_eq]
  split
  next halready =>
    exact ⟨_, rfl, hentered.toKeeps, has_of_alreadyWatching halready, hentered.covered hcovered⟩
  next =>
    refine ⟨_, rfl, hentered.toKeeps.trans keeps_watched, has_watched ho, fun a ha => ?_⟩
    by_cases heq : a = wd
    · exact Or.inl heq
    · have hbefore := (has_watched_other heq).mp ha
      exact (hentered.covered hcovered a hbefore).imp_right keeps_watched.listed

/-- **A directory below**: its descriptor is listed at the start point. -/
theorem watchDirectory_below {n : Nat} (hstart : fs.inotifyAddWatch (place norm) = .wd n)
    (hhas : Has s adir n) (hcovered : Covered s adir n) :
    ∃ s', watchDirectory fs adir norm path false none wd s = .ok (wd, s') ∧ Keeps s s' ∧
      Has s' adir wd ∧ Covered s' adir n := by
  obtain ⟨hentered, o, ho⟩ := @quiet_entered adir (path ++ [dirSeparator]) s wd s
    inotifyUnknownParentWd (.refl adir s)
  have hmoves : (if false = true then watchPathForMoves fs path wd
      else pure inotifyUnknownParentWd) s = .ok (inotifyUnknownParentWd, s) := rfl
  rw [watchDirectory_eq hmoves]
  simp only [watchUnless_eq]
  split
  next halready =>
    exact ⟨_, rfl, hentered.toKeeps, has_of_alreadyWatching halready, hentered.covered hcovered⟩
  next =>
    rw [if_neg Bool.false_ne_true, addWatch_wd hstart]
    generalize s.entered s _ wd inotifyUnknownParentWd = s₂ at hentered ho
    have hquiet : Quiet adir (s₂.watched adir norm false wd)
        { s₂.watched adir norm false wd with
          kernel := Function.update (s₂.watched adir norm false wd).kernel n true } := by
      obtain ⟨_, _, hadd, hquiet⟩ :=
        @addWatch_calm fs adir norm (s₂.watched adir norm false wd) fun error herror => by
          rw [hstart] at herror
          cases herror
      rw [addWatch_wd hstart] at hadd
      cases hadd
      exact hquiet
    generalize ({ s₂.watched adir norm false wd with
      kernel := Function.update (s₂.watched adir norm false wd).kernel n true } : State) = s₃
      at hquiet
    have hkeeps₃ : Keeps s s₃ := (hentered.toKeeps.trans keeps_watched).trans hquiet.toKeeps
    have hadded : Quiet adir s₃ (s₃.addDescendant n wd adir) := quiet_addDescendant wd
    refine ⟨s₃.addDescendant n wd adir, rfl, hkeeps₃.trans hadded.toKeeps, ?_, fun a ha => ?_⟩
    · exact hadded.toKeeps.has (hquiet.toKeeps.has (has_watched ho))
    · have hbefore := hquiet.quiet a (hadded.quiet a ha)
      by_cases heq : a = wd
      · rw [heq]
        exact Or.inr (listed_addDescendant wd (hkeeps₃.has hhas))
      · rcases hentered.covered hcovered a ((has_watched_other heq).mp hbefore) with hleft | hlisted
        · exact Or.inl hleft
        · exact Or.inr (hadded.toKeeps.listed
            (hquiet.toKeeps.listed (keeps_watched.listed hlisted)))

end

/-! ## The whole tree -/

section

variable {tree : DirectoryTree} {adir : Directory} {norm path q r : Str} {s s' : State}
  {call : Str → State → Option (Except String State)} {names : List Str} {n w : Nat}

theorem among_cons_dots {name : Str} (h : isDots name) :
    tree.among path (name :: names) = tree.among path names := by
  unfold DirectoryTree.among
  rw [List.filter_cons_of_neg]
  simp only [h, not_true_eq_false, decide_false, Bool.false_eq_true, not_false_eq_true]

theorem among_cons {name : Str} (h : ¬ isDots name) : tree.among path (name :: names) =
    if tree.isDirectory (place (path ++ [dirSeparator] ++ name)) then
      (path ++ [dirSeparator] ++ name) :: tree.among path names
    else tree.among path names := by
  unfold DirectoryTree.among
  rw [List.filter_cons_of_pos (by simp only [h, not_false_eq_true, decide_true]), List.map_cons,
    List.filter_cons]

/-- **The loop over the entries**: every directory is handled, and stays so. -/
theorem forEntries_spec {Inv : State → Prop} {Done : Str → State → Prop}
    (hkeep : ∀ q s s', Keeps s s' → Done q s → Done q s')
    (hcall : ∀ q ∈ tree.among path names, ∀ s, Inv s →
      ∃ s', call q s = some (.ok s') ∧ Keeps s s' ∧ Inv s' ∧ Done q s') (hinv : Inv s) :
    ∃ s', forEntries tree call path names s = some (.ok s') ∧ Keeps s s' ∧ Inv s' ∧
      ∀ q ∈ tree.among path names, Done q s' := by
  induction names generalizing s with
  | nil => exact ⟨s, rfl, .refl s, hinv, fun q hq => absurd hq List.not_mem_nil⟩
  | cons name names ih =>
    rw [forEntries]
    by_cases hdots : isDots name
    · rw [if_pos hdots]
      rw [among_cons_dots hdots] at hcall ⊢
      exact ih hcall hinv
    · rw [if_neg hdots]
      rw [among_cons hdots] at hcall ⊢
      simp only
      by_cases hdir : tree.isDirectory (place (path ++ [dirSeparator] ++ name)) = true
      · rw [if_pos hdir] at hcall ⊢
        obtain ⟨s₁, hfirst, hkeeps₁, hinv₁, hdone₁⟩ := hcall _ List.mem_cons_self s hinv
        obtain ⟨s', hrest, hkeeps', hinv', hdone'⟩ :=
          ih (fun q hq => hcall q (List.mem_cons_of_mem _ hq)) hinv₁
        rw [if_pos hdir, hfirst]
        refine ⟨s', hrest, hkeeps₁.trans hkeeps', hinv', ?_⟩
        exact List.forall_mem_cons.mpr ⟨hkeep _ s₁ s' hkeeps' hdone₁, hdone'⟩
      · rw [if_neg hdir] at hcall ⊢
        rw [if_neg hdir]
        exact ih hcall hinv

/-- The directory has a watch, with the kernel and for the autoscan. -/
def Watching (tree : DirectoryTree) (adir : Directory) (path : Str) (s : State) : Prop :=
  ∃ wd : Nat, tree.inotifyAddWatch (place (path ++ [dirSeparator])) = .wd wd ∧
    s.kernel wd = true ∧ Has s adir wd

theorem Keeps.watching (h : Keeps s s') (hwatching : Watching tree adir path s) :
    Watching tree adir path s' := by
  obtain ⟨wd, hwd, hkernel, hhas⟩ := hwatching
  exact ⟨wd, hwd, h.kernel wd hkernel, h.has hhas⟩

/-- Every directory of the tree has a descriptor. -/
def DirectoryTree.Answers (tree : DirectoryTree) (path : Str) : Prop :=
  ∀ q, tree.Below path q →
    ∃ wd : Nat, 0 < wd ∧ tree.inotifyAddWatch (place (q ++ [dirSeparator])) = .wd wd

theorem below_cases (h : tree.Below path r) :
    r = path ∨ ∃ q ∈ tree.subdirectories path, tree.Below q r := by
  induction h with
  | refl => exact Or.inl rfl
  | @step a b hab hb ih =>
    right
    rcases ih with rfl | ⟨q, hq, hbelow⟩
    · exact ⟨b, hb, .refl⟩
    · exact ⟨q, hq, .step hbelow hb⟩

theorem Below.head (hq : q ∈ tree.subdirectories path) (h : tree.Below q r) :
    tree.Below path r := by
  induction h with
  | refl => exact .step .refl hq
  | step _ hr ih => exact .step ih hr

theorem answers_below (h : tree.Answers path) (hq : q ∈ tree.subdirectories path) :
    tree.Answers q := fun r hr => h r (Below.head hq hr)

/-- The directories that are listed in one. -/
theorem listing_spec {Inv : State → Prop} {Done : Str → State → Prop}
    (hkeep : ∀ q s s', Keeps s s' → Done q s → Done q s')
    (hcall : ∀ q ∈ tree.subdirectories path, ∀ s, Inv s →
      ∃ s', call q s = some (.ok s') ∧ Keeps s s' ∧ Inv s' ∧ Done q s') (hinv : Inv s) :
    ∃ s', (match tree.entries (place path) with
        | none => some (.ok s)
        | some names => forEntries tree call path names s) = some (.ok s') ∧ Keeps s s' ∧ Inv s' ∧
      ∀ q ∈ tree.subdirectories path, Done q s' := by
  unfold DirectoryTree.subdirectories at hcall ⊢
  generalize tree.entries (place path) = listed at hcall ⊢
  rcases listed with _ | names
  · exact ⟨s, rfl, .refl s, hinv, fun q hq => absurd hq List.not_mem_nil⟩
  · exact forEntries_spec hkeep hcall hinv

theorem monitorDirectory_wd {fs : FileSystem} {startPoint : Bool} {fuel wd : Nat}
    (h : fs.inotifyAddWatch (place (path ++ [dirSeparator])) = .wd wd) :
    monitorDirectory fs adir norm (fuel + 1) path startPoint none s =
      some (watchDirectory fs adir norm path startPoint none wd
        { s with kernel := Function.update s.kernel wd true }) := by
  rw [monitorDirectory]
  simp only [addWatch_wd h]
  exact if_neg (Int.not_lt.mpr (Int.natCast_nonneg wd))

theorem quiet_kernel (wd : Int) :
    Quiet adir s { s with kernel := Function.update s.kernel wd true } := by
  refine ⟨⟨fun a o ho => ⟨o, ho, .refl _⟩, fun a ha => ?_⟩, fun a ha => ha⟩
  show Function.update s.kernel wd true a = true
  rw [Function.update_apply]
  split
  · rfl
  · exact ha

/-- One directory, and then the ones in it: `hself` is what the first part of the body does. -/
theorem recursive_step {startPoint : Bool} {fuel wd : Nat} {s₁ : State} (hpos : 0 < wd)
    (hwd : tree.inotifyAddWatch (place (path ++ [dirSeparator])) = .wd wd)
    (hself : watchDirectory tree.toFileSystem adir norm path startPoint none wd
      { s with kernel := Function.update s.kernel wd true } = .ok ((wd : Int), s₁))
    (hkeeps : Keeps { s with kernel := Function.update s.kernel wd true } s₁)
    (hhas : Has s₁ adir wd) (hinv : Has s₁ adir w ∧ Covered s₁ adir w)
    (hcall : ∀ q ∈ tree.subdirectories path, ∀ s, Has s adir w ∧ Covered s adir w →
      ∃ s', monitorUnmonitorRecursive tree adir norm false fuel q false s = some (.ok s') ∧
        Keeps s s' ∧ (Has s' adir w ∧ Covered s' adir w) ∧
        ∀ r, tree.Below q r → Watching tree adir r s') :
    ∃ s', monitorUnmonitorRecursive tree adir norm false (fuel + 1) path startPoint s =
        some (.ok s') ∧ Keeps s s' ∧ (Has s' adir w ∧ Covered s' adir w) ∧
      ∀ r, tree.Below path r → Watching tree adir r s' := by
  have hkernel : s₁.kernel wd = true := hkeeps.kernel wd (Function.update_self ..)
  obtain ⟨s', hrest, hkeeps', hinv', hdone⟩ := listing_spec
    (fun q s s' hk hall r hr => hk.watching (hall r hr)) hcall hinv
  refine ⟨s', ?_, ((@quiet_kernel adir s wd).toKeeps.trans hkeeps).trans hkeeps', hinv', ?_⟩
  · rw [monitorUnmonitorRecursive]
    simp only [Bool.false_eq_true, if_false, monitorDirectory_wd hwd, hself]
    rw [if_pos (Int.natCast_pos.mpr hpos)]
    exact hrest
  · intro r hr
    rcases below_cases hr with rfl | ⟨q, hq, hbelow⟩
    · exact hkeeps'.watching ⟨wd, hwd, hkernel, hhas⟩
    · exact hdone q hq r hbelow

/-- The directories below the autoscan's own. -/
theorem below_monitored (hstart : tree.inotifyAddWatch (place norm) = .wd w)
    (hlower : tree.Lower n path) (hanswers : tree.Answers path)
    (hinv : Has s adir w ∧ Covered s adir w) :
    ∃ s', monitorUnmonitorRecursive tree adir norm false n path false s = some (.ok s') ∧
      Keeps s s' ∧ (Has s' adir w ∧ Covered s' adir w) ∧
      ∀ r, tree.Below path r → Watching tree adir r s' := by
  induction n generalizing path s with
  | zero => exact absurd hlower id
  | succ n ih =>
    obtain ⟨wd, hpos, hwd⟩ := hanswers path .refl
    have hquiet : Quiet adir s { s with kernel := Function.update s.kernel wd true } :=
      quiet_kernel wd
    obtain ⟨s₁, hself, hkeeps, hhas, hcovered⟩ := @watchDirectory_below tree.toFileSystem adir norm
      path _ wd w hstart (hquiet.toKeeps.has hinv.1) (hquiet.covered hinv.2)
    exact recursive_step hpos hwd hself hkeeps hhas
      ⟨hkeeps.has (hquiet.toKeeps.has hinv.1), hcovered⟩
      fun q hq s hs => ih (hlower q hq) (answers_below hanswers hq) hs

theorem foldl_removeWatch (wds : List Int) (wd : Int) (s : State) :
    (wds.foldl State.removeWatch s).kernel wd = if wd ∈ wds then false else s.kernel wd := by
  induction wds generalizing s with
  | nil => rfl
  | cons first wds ih =>
    rw [List.foldl_cons, ih]
    show (if wd ∈ wds then false else Function.update s.kernel first false wd) = _
    rw [Function.update_apply]
    by_cases hmem : wd ∈ wds
    · rw [if_pos hmem, if_pos (List.mem_cons_of_mem _ hmem)]
    · rw [if_neg hmem]
      by_cases heq : wd = first
      · rw [if_pos heq, if_pos (heq ▸ List.mem_cons_self)]
      · rw [if_neg heq, if_neg (List.not_mem_cons_of_ne_of_not_mem heq hmem)]

/-- What is listed is not watched any more. -/
theorem removeDescendants_listed {wd start : Int} (h : Listed s adir start wd) :
    (removeDescendants s start).kernel wd = false := by
  obtain ⟨o, watch, ho, hwatch, hmem⟩ := h
  unfold removeDescendants
  rw [ho]
  simp only
  rw [foldl_removeWatch, if_pos]
  exact List.mem_flatMap.mpr ⟨watch, List.mem_of_find?_eq_some hwatch, hmem⟩

/-- **A recursive autoscan watches its whole tree**: every directory has a watch, of the kernel and
    for the autoscan; what was watched before still is; and when the autoscan's own directory is
    gone, `removeDescendants` ends the watches of all the others. -/
theorem tree_monitored (hlower : tree.Lower n path) (hanswers : tree.Answers path)
    (hstart : tree.inotifyAddWatch (place path) = .wd w)
    (hslash : tree.inotifyAddWatch (place (path ++ [dirSeparator])) = .wd w)
    (hmoves : ∀ i, tree.Calm (pathText ((splitString (some path) dirSeparator false).take i)))
    (hcovered : Covered s adir w) :
    ∃ s', monitorUnmonitorRecursive tree adir path false n path true s = some (.ok s') ∧
      Keeps s s' ∧ Covered s' adir w ∧ (∀ r, tree.Below path r → Watching tree adir r s') ∧
      ∀ r, tree.Below path r → ∀ wd : Nat, wd ≠ w →
        tree.inotifyAddWatch (place (r ++ [dirSeparator])) = .wd wd →
        (removeDescendants s' w).kernel wd = false := by
  cases n with
  | zero => exact absurd hlower id
  | succ n =>
    obtain ⟨wd, hpos, hwd⟩ := hanswers path .refl
    cases hslash.symm.trans hwd
    have hquiet : Quiet adir s { s with kernel := Function.update s.kernel w true } :=
      quiet_kernel w
    obtain ⟨s₁, hself, hkeeps, hhas, hcovered₁⟩ := @watchDirectory_startPoint tree.toFileSystem adir
      path path _ w hmoves (hquiet.covered hcovered)
    obtain ⟨s', hrun, hkeeps', hinv', hall⟩ := recursive_step hpos hslash hself hkeeps hhas
      ⟨hhas, hcovered₁⟩
      fun q hq s hs => below_monitored hstart (hlower q hq) (answers_below hanswers hq) hs
    refine ⟨s', hrun, hkeeps', hinv'.2, hall, ?_⟩
    intro r hr wd hne hwd'
    obtain ⟨wd', hanswer, -, hhas'⟩ := hall r hr
    cases hwd'.symm.trans hanswer
    rcases hinv'.2 wd hhas' with heq | hlisted
    · exact absurd (Int.ofNat.inj heq) hne
    · exact removeDescendants_listed hlisted

end

/-! ## A tree of four directories -/

/-- `a` -/
def musicDir : Str := ['a'.toUInt8]

def sampleWd (p : Place) : Option Nat :=
  if p.parts = [] then some 1
  else if p.parts = [musicDir] then some 2
  else if p.parts = [musicDir, ['b'.toUInt8]] then some 3
  else if p.parts = [musicDir, ['c'.toUInt8]] then some 4
  else if p.parts = [musicDir, ['b'.toUInt8], ['d'.toUInt8]] then some 5
  else none

/-- `/a`, in it `b` and `c`, and `d` in `b`. -/
def sampleTree : DirectoryTree where
  isDirectory p := p.parts.all fun part => part.length = 1
  inotifyAddWatch p := ((sampleWd p).map Answer.wd).getD .refused
  entries p :=
    if p.parts = [musicDir] then
      some [['.'.toUInt8], ['.'.toUInt8, '.'.toUInt8], ['b'.toUInt8], ['c'.toUInt8],
        "song".toUTF8.toList]
    else if p.parts = [musicDir, ['b'.toUInt8]] then some [['d'.toUInt8]]
    else if p.parts = [musicDir, ['c'.toUInt8]] then none
    else some []

def samplePath : Str := dirSeparator :: musicDir

def sampleBelow : List Str :=
  [samplePath, samplePath ++ [dirSeparator, 'b'.toUInt8], samplePath ++ [dirSeparator, 'c'.toUInt8],
    samplePath ++ [dirSeparator, 'b'.toUInt8, dirSeparator, 'd'.toUInt8]]

theorem sample_below : ∀ q, sampleTree.Below samplePath q → q ∈ sampleBelow := by
  intro q hq
  induction hq with
  | refl => decide
  | step _ hr ih =>
    have hsub : ∀ q ∈ sampleBelow, ∀ r ∈ sampleTree.subdirectories q, r ∈ sampleBelow := by
      decide +kernel
    exact hsub _ ih _ hr


theorem sampleTree_wd {p : Place} {wd : Nat} (h : sampleWd p = some wd) :
    sampleTree.inotifyAddWatch p = .wd wd := by
  show ((sampleWd p).map Answer.wd).getD .refused = _
  rw [h]
  rfl

theorem sample_answers : sampleTree.Answers samplePath := by
  have hall : ∀ q ∈ sampleBelow, ∃ wd ∈ List.range 6, 0 < wd ∧
      sampleWd (place (q ++ [dirSeparator])) = some wd := by
    decide +kernel
  intro q hq
  obtain ⟨wd, -, hpos, hwd⟩ := hall q (sample_below q hq)
  exact ⟨wd, hpos, sampleTree_wd hwd⟩

theorem sample_calm (path : Str) : sampleTree.Calm path := by
  intro error herror
  change ((sampleWd (place path)).map Answer.wd).getD .refused = _ at herror
  generalize sampleWd (place path) = answer at herror
  rcases answer with _ | wd
  · cases herror
  · cases herror

theorem sample_lower : sampleTree.Lower 3 samplePath := by
  have hlevels : ∀ q ∈ sampleTree.subdirectories samplePath,
      ∀ r ∈ sampleTree.subdirectories q, sampleTree.subdirectories r = [] := by
    decide +kernel
  intro q hq r hr t ht
  rw [hlevels q hq r hr] at ht
  cases ht

def sampleDirectory : Directory := ⟨samplePath, false, 0, .inotify⟩

theorem sample_tree_monitored :
    ∃ s', monitorUnmonitorRecursive sampleTree sampleDirectory samplePath false 3 samplePath true
        {} = some (.ok s') ∧
      Watching sampleTree sampleDirectory
        (samplePath ++ [dirSeparator, 'b'.toUInt8, dirSeparator, 'd'.toUInt8]) s' ∧
      (removeDescendants s' 2).kernel 5 = false := by
  obtain ⟨s', hrun, -, -, hwatching, hgone⟩ := @tree_monitored sampleTree sampleDirectory samplePath
    {} 3 2 sample_lower sample_answers
    (sampleTree_wd (by decide +kernel)) (sampleTree_wd (by decide +kernel))
    (fun i => sample_calm _) (fun wd hhas => by
      obtain ⟨o, watch, ho, -⟩ := hhas
      cases ho)
  have hb : samplePath ++ [dirSeparator, 'b'.toUInt8] ∈ sampleTree.subdirectories samplePath := by
    decide +kernel
  have hd : samplePath ++ [dirSeparator, 'b'.toUInt8, dirSeparator, 'd'.toUInt8] ∈
      sampleTree.subdirectories (samplePath ++ [dirSeparator, 'b'.toUInt8]) := by
    decide +kernel
  have hbelow := DirectoryTree.Below.step (.step .refl hb) hd
  exact ⟨s', hrun, hwatching _ hbelow, hgone _ hbelow 5 (by decide)
    (sampleTree_wd (by decide +kernel))⟩

end MediaTomb.AutoscanInotify
