/-
  `FallbackLayout::addVideo` and `addImage` (`layout/fallback_layout.cc`): the `Directories` tree.

  Both put the object into a container for its directory.  Its path is cut out of the location and
  read again, by the storage, as a path of ESCAPED titles:

    * without a rootpath the last directory alone is taken, and escaped;
    * with one, the directories from the rootpath's last component on are taken AS THEY ARE.

  So a backslash in a directory's name comes through on one branch only
  (`directories_titles_iff`).
-/
import MediaTomb.Layout.AddDVD
import MediaTomb.Storage.ContainerTitles
import MediaTomb.Storage.DirectoryPaths

namespace MediaTomb

open Lib Lib.Prog

/-! ## Cutting strings -/

/-- `String::index(ch)` -/
def index (ch : UInt8) (s : Str) : Option Nat := s.findIdx? (· == ch)

/-- `String::rindex(ch)`, which is -1 where there is none. -/
def lastIndex (ch : UInt8) (s : Str) : Int :=
  match rindex ch s with
  | some i => i
  | none => -1

/-- `String::substring(from, count)`: nil for a negative count. -/
def substring (start : Nat) (count : Int) (s : Str) : Option Str :=
  if count < 0 then none else some ((s.drop start).take count.toNat)

/-- `get_last_path`: the last directory of a location. -/
def getLastPath (location : Str) : Option Str :=
  match rindex dirSeparator location with
  | none | some 0 => none
  | some lastSlash =>
    let path := location.take lastSlash
    match rindex dirSeparator path with
    | some slash => if slash + 1 < path.length then some (path.drop (slash + 1)) else some path
    | none => some path

/-- `StringConverter::convert`: nil and the empty text are given back. -/
def stringConvert (f2i : Str → Except Exception Str) : Option Str → Except Exception (Option Str)
  | none => .ok none
  | some [] => .ok (some [])
  | some s => (f2i s).map some

namespace FallbackLayout

/-! ## `addVideo` and `addImage` -/

/-- The directories from the rootpath's last component on.  The source dereferences a nil `dir`
    here; there is none while the rootpath is shorter than the location's directory. -/
def belowRootpath (rootpath location : Str) : Option Str :=
  let rootpath := (substring 0 (lastIndex dirSeparator rootpath) rootpath).getD []
  let dir := substring rootpath.length (lastIndex dirSeparator location - rootpath.length) location
  dir.map fun dir => if dir.head? = some dirSeparator then dir.drop 1 else dir

/-- `dir`, for the rootpath and the location. -/
def directory (f2i : Str → Except Exception Str) (rootpath location : Option Str) :
    Except Exception (Option Str) :=
  if stringOk rootpath then
    stringConvert f2i (belowRootpath (rootpath.getD []) (location.getD []))
  else (stringConvert f2i (getLastPath (location.getD []))).map fun dir => some (esc (dir.getD []))

/-- The object goes into the container of a chain. -/
def addInto (cm : ContentCalls) (chain : Str) : Call Unit := do
  let id ← ofExcept (cm.addContainerChain chain none invalidObjectID)
  add cm id true

/-- The chain of a directory; `top` is `Video` or `Photos`. -/
def directoriesChain (top dir : Str) : Str :=
  str "/" ++ top ++ str "/Directories/" ++ dir

def addToDirectories (cm : ContentCalls) (f2i : Str → Except Exception Str) (top : Str)
    (rootpath : Option Str) : Call Unit := do
  let dir ← tryRead fun s => directory f2i rootpath s.obj.location
  ifOk dir (addInto cm (directoriesChain top (dir.getD [])))

/-- The first part of `addVideo`. -/
def addAllVideo (cm : ContentCalls) : Call Unit := do
  let id ← ofExcept (cm.addContainerChain (str "/Video/All Video") none invalidObjectID)
  addMain cm id

def addVideo (cm : ContentCalls) (f2i : Str → Except Exception Str) (rootpath : Option Str) :
    Call Unit := do
  addAllVideo cm
  addToDirectories cm f2i (str "Video") rootpath

/-- Year and month of a date, where it has both. -/
def yearMonth (date : Str) : Option (Str × Str) :=
  match index '-'.toUInt8 date with
  | none | some 0 => none
  | some y =>
    let month := date.drop (y + 1)
    match index '-'.toUInt8 month with
    | none | some 0 => none
    | some m => some (date.take y, month.take m)

def addYearMonth (cm : ContentCalls) (date : Str) : Call Unit :=
  match yearMonth date with
  | some (year, month) => addInto cm (str "/Photos/Year/" ++ esc year ++ str "/" ++ esc month)
  | none => pure ()

def addDates (cm : ContentCalls) (date : Str) : Call Unit := do
  addYearMonth cm date
  addInto cm (str "/Photos/Date/" ++ esc date)

/-- The first part of `addImage`; `dc:date` is `getMetaFieldName(M_DATE)`. -/
def addAllPhotos (cm : ContentCalls) : Call Unit := do
  let id ← ofExcept (cm.addContainerChain (str "/Photos/All Photos") none invalidObjectID)
  addMain cm id
  let date ← read fun s => s.obj.metadata.get (str "dc:date")
  ifOk date (addDates cm (date.getD []))

def addImage (cm : ContentCalls) (f2i : Str → Except Exception Str) (rootpath : Option Str) :
    Call Unit := do
  addAllPhotos cm
  addToDirectories cm f2i (str "Photos") rootpath

/-! ## The location stays -/

/-- The content manager answers, for absolute chains. -/
structure Answers (cm : ContentCalls) : Prop where
  chains : ∀ chain, chain.head? = some virtualContainerSeparator →
    ∃ id, cm.addContainerChain chain none invalidObjectID = .ok id
  objects : ∀ added obj, ∃ id, cm.addObject added obj = .ok id

/-- The location of an object once it has been added. -/
def locationAdded (obj : CdsObject) : Option Str := (objectAdded invalidObjectID obj).location

/-- The object has been added, from this location. -/
structure Placed (loc : Option Str) (s : Layout) : Prop where
  location : s.obj.location = loc
  added : locationAdded s.obj = loc

section

variable {cm : ContentCalls} {loc : Option Str} {E : Layout → Prop}

theorem locationAdded_objectAdded (id : Int) (obj : CdsObject) :
    locationAdded (objectAdded id obj) = locationAdded obj := by
  unfold locationAdded objectAdded
  show (if isCdsItemExternalURL obj.objectType then
      (if isCdsItemExternalURL obj.objectType then obj.location
        else obj.location.map (reduce dirSeparator))
    else (if isCdsItemExternalURL obj.objectType then obj.location
        else obj.location.map (reduce dirSeparator)).map (reduce dirSeparator)) = _
  by_cases hexternal : isCdsItemExternalURL obj.objectType = true
  · simp only [if_pos hexternal]
  · simp only [if_neg hexternal, Option.map_map]
    congr 1
    funext s
    exact reduce_reduce

/-- One object is added, below `parentID`; afterwards it lies where it lay. -/
theorem run_add (hcm : Answers cm) (parentID : Int) (useRef : Bool) (l : Layout) :
    ∃ obj id, (add cm parentID useRef).run l =
        (.ok (), { obj := objectAdded id obj, added := l.added ++ [obj] }) ∧
      obj.parentID = parentID ∧ locationAdded obj = locationAdded l.obj := by
  let obj : CdsObject :=
    { l.obj with
      parentID := parentID
      id := invalidObjectID
      objectFlags := if useRef then l.obj.objectFlags ||| objectFlagUseResourceRef
        else l.obj.objectFlags }
  obtain ⟨id, hid⟩ := hcm.objects l.added obj
  refine ⟨obj, id, ?_, rfl, rfl⟩
  unfold add modifyObject tryRead
  rw [run_modify_bind]
  show ((ofExcept (cm.addObject l.added obj) : Call Int) >>= _).run _ = _
  rw [hid]
  rfl

theorem placed_add (hcm : Answers cm) (parentID : Int) (useRef : Bool) :
    Triple (fun s => locationAdded s.obj = loc) (add cm parentID useRef)
      (fun _ => Placed loc) E := by
  intro s hs
  obtain ⟨obj, id, hrun, -, hloc⟩ := run_add hcm parentID useRef s
  rw [hrun]
  exact ⟨hloc.trans hs, (locationAdded_objectAdded id obj).trans (hloc.trans hs)⟩

theorem placed_addInto (hcm : Answers cm) {chain : Str}
    (hchain : chain.head? = some virtualContainerSeparator) :
    Triple (Placed loc) (addInto cm chain) (fun _ => Placed loc) E := by
  obtain ⟨id, hid⟩ := hcm.chains chain hchain
  unfold addInto
  rw [hid, ofExcept_ok_bind]
  exact triple_conseq (placed_add hcm id true) (fun s hs => hs.added) (fun _ _ h => h) fun _ h => h

theorem placed_addMain (hcm : Answers cm) (id : Int) :
    Triple (fun s => locationAdded s.obj = loc) (addMain cm id) (fun _ => Placed loc) E := by
  unfold addMain
  apply triple_get_bind
  intro s hs
  split
  · refine triple_bind (M := fun _ s => locationAdded s.obj = loc) (triple_modify ?_)
      fun _ => placed_add hcm id true
    rintro _ rfl
    exact hs
  · refine triple_bind (M := fun _ => Placed loc) ?_ fun _ => triple_modify fun s' hs' => ?_
    · exact triple_conseq (placed_add hcm id true) (fun s' hs' => hs' ▸ hs) (fun _ _ h => h)
        fun _ h => h
    · exact ⟨hs'.location, hs'.added⟩

theorem placed_addAllVideo (hcm : Answers cm) :
    Triple (fun s => locationAdded s.obj = loc) (addAllVideo cm) (fun _ => Placed loc) E := by
  obtain ⟨id, hid⟩ := hcm.chains (str "/Video/All Video") rfl
  unfold addAllVideo
  rw [hid, ofExcept_ok_bind]
  exact placed_addMain hcm id

theorem placed_addAllPhotos (hcm : Answers cm) :
    Triple (fun s => locationAdded s.obj = loc) (addAllPhotos cm) (fun _ => Placed loc) E := by
  obtain ⟨id, hid⟩ := hcm.chains (str "/Photos/All Photos") rfl
  unfold addAllPhotos
  rw [hid, ofExcept_ok_bind]
  refine triple_bind (placed_addMain hcm id) fun _ =>
    triple_bind (M := fun _ => Placed loc) (triple_read fun _ h => h) fun date => ?_
  unfold ifOk
  split
  · refine triple_bind (M := fun _ => Placed loc) ?_ fun _ => placed_addInto hcm rfl
    unfold addYearMonth
    split
    · exact placed_addInto hcm rfl
    · exact triple_pure fun _ h => h
  · exact triple_pure fun _ h => h

/-- What a triple without a throwing run says of one state. -/
theorem returns_of_triple {P Q : Layout → Prop} {m : Call Unit}
    (h : Triple P m (fun _ => Q) fun _ => False) {l : Layout} (hl : P l) :
    ∃ l', m.run l = (.ok (), l') ∧ Q l' := by
  have hrun := h l hl
  revert hrun
  split
  · next a l' heq => exact fun hq => ⟨l', heq, hq⟩
  · exact fun hfalse => hfalse.elim

end

/-! ## Names and titles

  The titles of a path whose components have no separators in them. -/

section

variable {n w v : Str} {ws ns titles : List Str}

/-- A name that stands alone is read as it is. -/
theorem readTitles_single (hw : FileName w) : ReadTitles (pathText [w]) [w] := by
  have hreduce : reduce virtualContainerSeparator (pathText [w]) = pathText [w] :=
    reduce_pathText fun v hv => List.mem_singleton.mp hv ▸ hw
  have hroot : reduce virtualContainerSeparator (pathText [w]) ≠ [virtualContainerSeparator] := by
    rw [hreduce]
    exact pathText_ne_separator hw.ne_nil
  have hpath : pathText [w] = virtualContainerSeparator :: w := rfl
  have hstrip : stripAndUnescapeVirtualContainerFromPath
      (reduce virtualContainerSeparator (pathText [w])) =
        .ok ([virtualContainerSeparator], w) := by
    rw [hreduce, hpath, strip_only hw.escapedSeparators, if_neg hw.not_mem]
  exact .title hroot hstrip (.root rfl)

/-- A name behind one that does not end in a backslash is read unescaped. -/
theorem readTitles_behind (hws : ∀ u ∈ w :: v :: ws, FileName u)
    (hend : v.getLast? ≠ some virtualContainerEscape) :
    ReadTitles (pathText (w :: v :: ws)) titles ↔
      ∃ rest, titles = unescape virtualContainerEscape w :: rest ∧
        ReadTitles (pathText (v :: ws)) rest := by
  have hw := hws w List.mem_cons_self
  have hreduce := reduce_pathText hws
  apply readTitles_cons_iff
  · rw [hreduce]
    exact pathText_ne_separator hw.ne_nil
  · rw [hreduce, pathText]
    exact strip_last hw.escapedSeparators (head?_pathText v ws)
      fun h => hend ((getLast?_pathText v ws).mp h)

/-- **Names as they are** come through exactly if none has a backslash. -/
theorem readTitles_names_iff {base : List Str} (hbase : ∀ u ∈ base, FileName u)
    (hread : ReadTitles (pathText base) base) (hne : base ≠ [])
    (hplain : ∀ u ∈ base, virtualContainerEscape ∉ u) : ∀ ns : List Str, (∀ n ∈ ns, FileName n) →
    (ReadTitles (pathText (ns ++ base)) (ns ++ base) ↔
      ∀ n ∈ ns, virtualContainerEscape ∉ n) := by
  intro ns
  induction ns with
  | nil => exact fun _ => ⟨fun _ n hn => (nomatch hn), fun _ => hread⟩
  | cons n ns ih =>
    intro hns
    have hn := hns n List.mem_cons_self
    have hns' : ∀ m ∈ ns, FileName m := fun m hm => hns m (List.mem_cons_of_mem _ hm)
    have hall : ∀ u ∈ n :: (ns ++ base), FileName u := by
      intro u hu
      rcases List.mem_append.mp (show u ∈ (n :: ns) ++ base from hu) with hu | hu
      · exact hns u hu
      · exact hbase u hu
    rcases hrest : ns ++ base with _ | ⟨v, ws⟩
    · exact absurd (List.append_eq_nil_iff.mp hrest).2 hne
    · rw [hrest] at ih hall
      rw [List.cons_append, hrest, List.forall_mem_cons]
      by_cases hend : v.getLast? = some virtualContainerEscape
      · -- the name above swallows the separator
        have hesc : virtualContainerEscape ∈ v := List.mem_of_getLast? hend
        constructor
        · intro h
          have hreduce := reduce_pathText hall
          obtain ⟨newpath, title, hstrip, -, hsep⟩ := strip_swallowed hn.escapedSeparators
            (head?_pathText v ws) ((getLast?_pathText v ws).mpr hend)
          have hroot : reduce virtualContainerSeparator (pathText (n :: v :: ws)) ≠
              [virtualContainerSeparator] := by
            rw [hreduce]
            exact pathText_ne_separator hn.ne_nil
          obtain ⟨rest, htitles, -⟩ :=
            (readTitles_cons_iff hroot (by rw [hreduce, pathText]; exact hstrip)).mp h
          rw [← (List.cons.inj htitles).1] at hsep
          exact absurd hsep hn.not_mem
        · intro h
          have hv : v ∈ ns := by
            rcases List.mem_append.mp (hrest ▸ List.mem_cons_self : v ∈ ns ++ base) with hv | hv
            · exact hv
            · exact absurd hesc (hplain v hv)
          exact absurd hesc (h.2 v hv)
      · rw [readTitles_behind hall hend, ← ih hns', ← unescape_eq_self]
        constructor
        · rintro ⟨rest, htitles, hread'⟩
          obtain ⟨htitle, rfl⟩ := List.cons.inj htitles
          exact ⟨htitle.symm, hread'⟩
        · rintro ⟨htitle, hread'⟩
          exact ⟨_, by rw [htitle], hread'⟩

/-- **An escaped name** comes through. -/
theorem readTitles_escaped {base : List Str} (hbase : ∀ u ∈ base, FileName u)
    (hread : ReadTitles (pathText base) base) (hne : base ≠ [])
    (hplain : ∀ u ∈ base, virtualContainerEscape ∉ u) (hn : FileName n) :
    ReadTitles (pathText (escapeTitle n :: base)) (n :: base) := by
  rcases base with _ | ⟨v, ws⟩
  · exact absurd rfl hne
  · have hall : ∀ u ∈ escapeTitle n :: v :: ws, FileName u :=
      List.forall_mem_cons.mpr ⟨hn.escapeTitle, hbase⟩
    have hend : v.getLast? ≠ some virtualContainerEscape :=
      fun h => hplain v List.mem_cons_self (List.mem_of_getLast? h)
    exact (readTitles_behind hall hend).mpr
      ⟨_, by rw [unescape_escapeTitle], hread⟩

end

/-! ## Cutting the directories out of a location -/

/-- **The directory names** a location is to be found under: from the rootpath's last component
    down to the file's own directory, or that one alone; none for a file in the root. -/
inductive DirectoryNames : Option Str → Str → List Str → Prop
  | rootpath (parents : List Str) (root : Str) (below : List Str) (file : Str)
      (h : ∀ n ∈ parents ++ root :: below ++ [file], FileName n) :
      DirectoryNames (some (filePath (parents ++ [root])))
        (filePath (parents ++ root :: below ++ [file])) (root :: below)
  | own {rootpath : Option Str} (hroot : stringOk rootpath = false) (parents : List Str)
      (dir file : Str) (h : ∀ n ∈ parents ++ [dir] ++ [file], FileName n) :
      DirectoryNames rootpath (filePath (parents ++ [dir] ++ [file])) [dir]
  | none {rootpath : Option Str} (hroot : stringOk rootpath = false) (file : Str)
      (h : FileName file) : DirectoryNames rootpath (filePath [file]) []

section

variable {rootpath : Option Str} {loc top : Str} {names : List Str}

theorem lastIndex_concat {pre w : Str} (hw : dirSeparator ∉ w) :
    lastIndex dirSeparator (pre ++ dirSeparator :: w) = pre.length := by
  unfold lastIndex
  rw [rindex_concat hw]

/-- With a rootpath: its last component, and the directories below it. -/
theorem belowRootpath_names {parents below : List Str} {root file : Str} (hroot : FileName root)
    (hfile : FileName file) :
    belowRootpath (filePath (parents ++ [root])) (filePath (parents ++ root :: below ++ [file])) =
      some (root ++ filePath below) := by
  have hcut : (substring 0 (lastIndex dirSeparator (filePath (parents ++ [root])))
      (filePath (parents ++ [root]))).getD [] = filePath parents := by
    rw [filePath_concat, lastIndex_concat hroot.no_separator]
    unfold substring
    rw [if_neg (by omega), List.drop_zero, Option.getD_some, Int.toNat_natCast, List.take_left]
  have hmiddle : filePath (root :: below) = dirSeparator :: (root ++ filePath below) := rfl
  unfold belowRootpath
  simp only
  rw [hcut, filePath_concat, lastIndex_concat hfile.no_separator, filePath_append]
  unfold substring
  rw [if_neg (by rw [List.length_append]; omega), List.append_assoc, List.drop_left]
  have hcount : (((filePath parents ++ filePath (root :: below)).length : Int) -
      (filePath parents).length).toNat = (filePath (root :: below)).length := by
    rw [List.length_append]
    omega
  rw [hcount, List.take_left, hmiddle, Option.map_some, List.head?_cons, if_pos rfl]
  rfl

/-- Without one: the last directory. -/
theorem getLastPath_names {parents : List Str} {dir file : Str} (hdir : FileName dir)
    (hfile : FileName file) : getLastPath (filePath (parents ++ [dir] ++ [file])) = some dir := by
  have hlong : 0 < dir.length := List.length_pos_of_ne_nil hdir.ne_nil
  unfold getLastPath
  rw [filePath_concat, filePath_concat, rindex_concat hfile.no_separator]
  split
  · next h => cases h
  · next h =>
    have hzero := Option.some.inj h
    rw [List.length_append, List.length_cons] at hzero
    omega
  · next lastSlash _ h =>
    obtain rfl := Option.some.inj h
    simp only
    rw [List.take_left, rindex_concat hdir.no_separator]
    simp only
    rw [if_pos (by rw [List.length_append, List.length_cons]; omega), ← List.drop_drop,
      List.drop_left]
    rfl

theorem getLastPath_root {file : Str} (hfile : FileName file) :
    getLastPath (filePath [file]) = Option.none := by
  have hpath : filePath [file] = [] ++ dirSeparator :: file := filePath_concat [] file
  unfold getLastPath
  rw [hpath, rindex_concat hfile.no_separator]
  rfl

/-- How the names stand in the chain. -/
def written (rootpath : Option Str) (names : List Str) : List Str :=
  if stringOk rootpath then names else names.map escapeTitle

theorem directoriesChain_eq (top : Str) (n : Str) (ns : List Str) :
    directoriesChain top (n ++ filePath ns) =
      pathText ((n :: ns).reverse ++ [str "Directories", top]) := by
  have hreverse : (n :: ns).reverse ++ [str "Directories", top] =
      ([top, str "Directories"] ++ n :: ns).reverse := by
    rw [List.reverse_append]
    rfl
  have hmiddle : str "/Directories/" = dirSeparator :: (str "Directories" ++ [dirSeparator]) := by
    decide
  have hfirst : str "/" = [dirSeparator] := by decide
  rw [hreverse, pathText_reverse, filePath_append]
  unfold directoriesChain
  rw [hmiddle, hfirst]
  show _ = (dirSeparator :: top ++ (dirSeparator :: str "Directories" ++ [])) ++
    (dirSeparator :: n ++ filePath ns)
  simp only [List.append_assoc, List.cons_append, List.nil_append, List.append_nil]

/-- **The chain that is asked for**: the names, as they are or escaped. -/
theorem directory_names (h : DirectoryNames rootpath loc names) (top : Str) :
    ∃ dir, directory .ok rootpath (some loc) = .ok (some dir) ∧ (dir = [] ↔ names = []) ∧
      (names ≠ [] → directoriesChain top dir =
        pathText ((written rootpath names).reverse ++ [str "Directories", top])) := by
  cases h with
  | rootpath parents root below file h =>
    have hroot : FileName root := h root (by simp)
    have hfile : FileName file := h file (by simp)
    have hok : stringOk (some (filePath (parents ++ [root]))) = true := by
      rw [filePath_concat]
      exact decide_eq_true (by simp)
    have hne : root ++ filePath below ≠ [] :=
      fun hnil => hroot.ne_nil (List.append_eq_nil_iff.mp hnil).1
    refine ⟨root ++ filePath below, ?_, ⟨fun hnil => absurd hnil hne, fun hnil => nomatch hnil⟩,
      fun _ => ?_⟩
    · unfold directory
      rw [if_pos hok, Option.getD_some, Option.getD_some, belowRootpath_names hroot hfile]
      rcases hdir : root ++ filePath below with _ | ⟨c, r⟩
      · exact absurd hdir hne
      · rfl
    · unfold written
      rw [if_pos hok]
      exact directoriesChain_eq top root below
  | own hroot parents dir file h =>
    have hdir : FileName dir := h dir (by simp)
    have hfile : FileName file := h file (by simp)
    refine ⟨escapeTitle dir, ?_, ⟨fun hnil => absurd hnil hdir.escapeTitle.ne_nil,
      fun hnil => nomatch hnil⟩, fun _ => ?_⟩
    · unfold directory
      rw [hroot, if_neg Bool.false_ne_true, Option.getD_some, getLastPath_names hdir hfile]
      rcases hd : dir with _ | ⟨c, r⟩
      · exact absurd hd hdir.ne_nil
      · rfl
    · have hchain := directoriesChain_eq top (escapeTitle dir) []
      unfold written
      rw [hroot, if_neg Bool.false_ne_true]
      rw [← List.append_nil (escapeTitle dir)]
      exact hchain
  | none hroot file h =>
    refine ⟨[], ?_, ⟨fun _ => rfl, fun _ => rfl⟩, fun hne => absurd rfl hne⟩
    unfold directory
    rw [hroot, if_neg Bool.false_ne_true, Option.getD_some, getLastPath_root h]
    rfl

/-- **What the storage reads off the chain** are the names, exactly if they were escaped or have no
    backslash. -/
theorem readTitles_chain_iff (h : DirectoryNames rootpath loc names) (htop : FileName top)
    (hplain : virtualContainerEscape ∉ top) :
    ReadTitles (pathText ((written rootpath names).reverse ++ [str "Directories", top]))
        (names.reverse ++ [str "Directories", top]) ↔
      (stringOk rootpath = true → ∀ n ∈ names, virtualContainerEscape ∉ n) := by
  have hdirectories : FileName (str "Directories") := ⟨by decide, by decide⟩
  have hbase : ∀ u ∈ [str "Directories", top], FileName u := by
    intro u hu
    rcases List.mem_cons.mp hu with rfl | hu
    · exact hdirectories
    · rw [List.mem_singleton.mp hu]
      exact htop
  have hbase' : ∀ u ∈ [str "Directories", top], virtualContainerEscape ∉ u := by
    intro u hu
    rcases List.mem_cons.mp hu with rfl | hu
    · decide
    · rw [List.mem_singleton.mp hu]
      exact hplain
  have hread : ReadTitles (pathText [str "Directories", top]) [str "Directories", top] := by
    refine (readTitles_behind hbase fun hend => hplain (List.mem_of_getLast? hend)).mpr
      ⟨[top], ?_, readTitles_single htop⟩
    rw [unescape_eq_self.mpr (hbase' _ List.mem_cons_self)]
  have hfirst := List.cons_ne_nil (str "Directories") [top]
  cases h with
  | rootpath parents root below file h =>
    have hok : stringOk (some (filePath (parents ++ [root]))) = true := by
      rw [filePath_concat]
      exact decide_eq_true (by simp)
    have hnames : ∀ n ∈ (root :: below).reverse, FileName n := by
      intro n hn
      apply h
      have hin := List.mem_reverse.mp hn
      exact List.mem_append_left _ (List.mem_append_right _ hin)
    have hiff := readTitles_names_iff hbase hread hfirst hbase' _ hnames
    unfold written
    rw [if_pos hok, hiff]
    constructor
    · exact fun hall _ n hn => hall n (List.mem_reverse.mpr hn)
    · exact fun hall n hn => hall hok n (List.mem_reverse.mp hn)
  | own hroot parents dir file h =>
    unfold written
    rw [hroot, if_neg Bool.false_ne_true]
    refine ⟨fun _ hok => (nomatch hok), fun _ => ?_⟩
    exact readTitles_escaped hbase hread hfirst hbase' (h dir (by simp))
  | none hroot file h =>
    unfold written
    rw [hroot, if_neg Bool.false_ne_true]
    exact ⟨fun _ hok => (nomatch hok), fun _ => hread⟩

end

/-! ## Where the object is put -/

/-- The content manager hands the chains of the `Directories` tree to the storage, which is in the
    state `s` then. -/
def AsksStorage (cm : ContentCalls) (s : StorageState) (top : Str) : Prop :=
  ∀ dir, cm.addContainerChain (directoriesChain top dir) none invalidObjectID =
    ((addContainerChain (directoriesChain top dir) none invalidObjectID
      (some invalidObjectID)).run s).1.map Prod.fst

/-- **What is put below `Directories`**: nothing where there is no directory, and else the object,
    in the container the storage has for the chain; the titles from there up to the root are the
    names. -/
def PutBelow (top : Str) (s : StorageState) (rootpath : Option Str) (loc : Str)
    (names : List Str) (mid l' : Layout) : Prop :=
  if names = [] then l' = mid
  else ∃ obj dir s' updateID, l'.added = mid.added ++ [obj] ∧
    directory .ok rootpath (some loc) = .ok (some dir) ∧
    (addContainerChain (directoriesChain top dir) none invalidObjectID
      (some invalidObjectID)).run s = (.ok (obj.parentID, updateID), s') ∧
    HasTitles s'.db (names.reverse ++ [str "Directories", top]) obj.parentID

section

variable {cm : ContentCalls} {s : StorageState} {rootpath : Option Str} {loc top : Str}
  {names : List Str}

theorem run_addInto (hcm : Answers cm) {chain : Str} {id : Int}
    (hid : cm.addContainerChain chain none invalidObjectID = .ok id) (l : Layout) :
    ∃ obj l', (addInto cm chain).run l = (.ok (), l') ∧ l'.added = l.added ++ [obj] ∧
      obj.parentID = id := by
  obtain ⟨obj, newID, hrun, hparent, -⟩ := run_add hcm id true l
  unfold addInto
  rw [hid, ofExcept_ok_bind]
  exact ⟨obj, _, hrun, rfl, hparent⟩

/-- The second part of both methods. -/
theorem addToDirectories_iff (hs : Sound s) (hfiled : Filed s.db) (hcm : Answers cm)
    (hasks : AsksStorage cm s top) (htop : FileName top) (hplain : virtualContainerEscape ∉ top)
    (hnames : DirectoryNames rootpath loc names) {mid : Layout}
    (hmid : mid.obj.location = some loc) :
    ∃ l', (addToDirectories cm .ok top rootpath).run mid = (.ok (), l') ∧
      (PutBelow top s rootpath loc names mid l' ↔
        (stringOk rootpath = true → ∀ n ∈ names, virtualContainerEscape ∉ n)) := by
  obtain ⟨dir, hdir, hnil, hchain⟩ := directory_names hnames top
  have hread : tryRead (fun s => directory .ok rootpath s.obj.location) >>= (fun dir =>
      ifOk dir (addInto cm (directoriesChain top (dir.getD [])))) =
        addToDirectories cm .ok top rootpath := rfl
  have hrun : (addToDirectories cm .ok top rootpath).run mid =
      (ifOk (some dir) (addInto cm (directoriesChain top dir))).run mid := by
    rw [← hread]
    have hfound : (tryRead fun s => directory .ok rootpath s.obj.location).run mid =
        (.ok (some dir), mid) := by
      unfold tryRead
      rw [run_get_bind]
      show (ofExcept (directory .ok rootpath mid.obj.location) : Call (Option Str)).run mid = _
      rw [hmid, hdir]
      rfl
    exact run_bind_of_ok hfound
  rw [hrun]
  unfold ifOk
  by_cases hempty : names = []
  · -- a file in the root, and no rootpath
    rw [if_neg (by rw [hnil.mpr hempty]; decide)]
    refine ⟨mid, rfl, ?_⟩
    unfold PutBelow
    rw [if_pos hempty]
    refine ⟨fun _ _ n hn => ?_, fun _ => rfl⟩
    rw [hempty] at hn
    cases hn
  · have hok : stringOk (some dir) = true := decide_eq_true fun hd => hempty (hnil.mp hd)
    rw [if_pos hok]
    have habsolute : (directoriesChain top dir).head? = some virtualContainerSeparator := rfl
    obtain ⟨id, updateID, s', hstorage, htitles⟩ := addContainerChain_titles hs hfiled habsolute
    have hid : cm.addContainerChain (directoriesChain top dir) none invalidObjectID = .ok id := by
      rw [hasks, hstorage]
      rfl
    obtain ⟨obj, l', hadd, hadded, hparent⟩ := run_addInto hcm hid mid
    refine ⟨l', hadd, ?_⟩
    unfold PutBelow
    rw [if_neg hempty, ← readTitles_chain_iff hnames htop hplain, ← hchain hempty, ← htitles]
    constructor
    · rintro ⟨obj', dir', s'', updateID', hadded', hdir', hstorage', htitles'⟩
      rw [hdir] at hdir'
      obtain rfl : dir = dir' := Option.some.inj (Except.ok.inj hdir')
      rw [hstorage] at hstorage'
      obtain ⟨hok, rfl⟩ := Prod.mk.inj hstorage'
      rw [(Prod.mk.inj (Except.ok.inj hok)).1]
      exact htitles'
    · intro h
      rw [← hparent] at hstorage h
      exact ⟨obj, dir, s', updateID, hadded, hdir, hstorage, h⟩

/-- Both parts, one after the other. -/
theorem putBelow_iff {first : Call Unit} (hs : Sound s) (hfiled : Filed s.db)
    (hcm : Answers cm) (hasks : AsksStorage cm s top) (htop : FileName top)
    (hplain : virtualContainerEscape ∉ top) (hnames : DirectoryNames rootpath loc names)
    {l : Layout} (hfirst : Triple (fun s => locationAdded s.obj = some loc) first
      (fun _ => Placed (some loc)) fun _ => False) (hl : locationAdded l.obj = some loc) :
    (∃ mid l', first.run l = (.ok (), mid) ∧
        (first >>= fun _ => addToDirectories cm .ok top rootpath).run l = (.ok (), l') ∧
        PutBelow top s rootpath loc names mid l') ↔
      (stringOk rootpath = true → ∀ n ∈ names, virtualContainerEscape ∉ n) := by
  obtain ⟨mid, hmid, hplaced⟩ := returns_of_triple hfirst hl
  obtain ⟨l', hrun, hiff⟩ :=
    addToDirectories_iff hs hfiled hcm hasks htop hplain hnames hplaced.location
  have hboth : (first >>= fun _ => addToDirectories cm .ok top rootpath).run l =
      (.ok (), l') := by
    rw [run_bind_of_ok hmid]
    exact hrun
  constructor
  · rintro ⟨mid', l'', hmid', hboth', hput⟩
    rw [hmid] at hmid'
    rw [hboth] at hboth'
    obtain ⟨-, rfl⟩ := Prod.mk.inj hmid'
    obtain ⟨-, rfl⟩ := Prod.mk.inj hboth'
    exact hiff.mp hput
  · exact fun hcond => ⟨mid, l', hmid, hboth, hiff.mpr hcond⟩

end

/-- **When the directories come through.**  `addVideo` and `addImage` put the object into a
    container with the titles of its directories exactly if there is no rootpath, or none of the
    names has a backslash. -/
theorem directories_titles_iff {cm : ContentCalls} {s : StorageState} {rootpath : Option Str}
    {loc : Str} {names : List Str} {l : Layout} (hs : Sound s) (hfiled : Filed s.db)
    (hcm : Answers cm) (hvideo : AsksStorage cm s (str "Video"))
    (hphotos : AsksStorage cm s (str "Photos")) (hl : locationAdded l.obj = some loc)
    (hnames : DirectoryNames rootpath loc names) :
    ((∃ mid l', (addAllVideo cm).run l = (.ok (), mid) ∧
        (addVideo cm .ok rootpath).run l = (.ok (), l') ∧
        PutBelow (str "Video") s rootpath loc names mid l') ↔
      (stringOk rootpath = true → ∀ n ∈ names, virtualContainerEscape ∉ n)) ∧
    ((∃ mid l', (addAllPhotos cm).run l = (.ok (), mid) ∧
        (addImage cm .ok rootpath).run l = (.ok (), l') ∧
        PutBelow (str "Photos") s rootpath loc names mid l') ↔
      (stringOk rootpath = true → ∀ n ∈ names, virtualContainerEscape ∉ n)) := by
  have hname : FileName (str "Video") := ⟨by decide, by decide⟩
  have hname' : FileName (str "Photos") := ⟨by decide, by decide⟩
  constructor
  · exact putBelow_iff hs hfiled hcm hvideo hname (by decide) hnames (placed_addAllVideo hcm) hl
  · exact putBelow_iff hs hfiled hcm hphotos hname' (by decide) hnames
      (placed_addAllPhotos hcm) hl

/-! ### A storage as the schema leaves it -/

/-- Every chain is asked of the storage in one state. -/
def frozen (s : StorageState) : ContentCalls where
  addContainerChain chain lastClass refID :=
    ((addContainerChain chain lastClass refID (some invalidObjectID)).run s).1.map Prod.fst
  addObject _ _ := .ok 7

theorem frozen_answers {s : StorageState} (hs : Sound s) (hfiled : Filed s.db) :
    Answers (frozen s) := by
  refine ⟨fun chain hchain => ?_, fun _ _ => ⟨7, rfl⟩⟩
  obtain ⟨id, updateID, s', hrun, -⟩ := addContainerChain_titles hs hfiled hchain
  refine ⟨id, ?_⟩
  show ((addContainerChain chain none invalidObjectID (some invalidObjectID)).run s).1.map _ = _
  rw [hrun]
  rfl

def freshStorage : StorageState := .started .fresh false .ok

theorem freshStorage_sound : Sound freshStorage := sound_started (by decide) (by decide) false .ok

theorem freshStorage_filed : Filed freshStorage.db :=
  filed_of_none (show ∀ r ∈ Database.fresh.objects.rows, r.location = none by decide)

/-- A film somewhere. -/
def filmAt (loc : Str) : Layout :=
  { obj := { title := some (str "film"), upnpClass := none, location := some loc,
             kind := .item {} } }

theorem directories_titles_clips :
    (∃ mid l', (addAllVideo (frozen freshStorage)).run (filmAt (str "/m/clips/09/a")) =
        (.ok (), mid) ∧
      (addVideo (frozen freshStorage) .ok (some (str "/m/clips"))).run
        (filmAt (str "/m/clips/09/a")) = (.ok (), l') ∧
      PutBelow (str "Video") freshStorage (some (str "/m/clips")) (str "/m/clips/09/a")
        [str "clips", str "09"] mid l') ∧
    (∃ mid l', (addAllPhotos (frozen freshStorage)).run (filmAt (str "/m/clips/09/a")) =
        (.ok (), mid) ∧
      (addImage (frozen freshStorage) .ok (some (str "/m/clips"))).run
        (filmAt (str "/m/clips/09/a")) = (.ok (), l') ∧
      PutBelow (str "Photos") freshStorage (some (str "/m/clips")) (str "/m/clips/09/a")
        [str "clips", str "09"] mid l') := by
  have hfiles : ∀ n ∈ [str "m", str "clips", str "09", str "a"], FileName n := by
    intro n hn
    constructor
    · revert n
      decide
    · revert n
      decide
  have hnames : DirectoryNames (some (str "/m/clips")) (str "/m/clips/09/a")
      [str "clips", str "09"] :=
    .rootpath [str "m"] (str "clips") [str "09"] (str "a") hfiles
  have hboth := directories_titles_iff (l := filmAt (str "/m/clips/09/a")) freshStorage_sound
    freshStorage_filed (frozen_answers freshStorage_sound freshStorage_filed) (fun _ => rfl)
    (fun _ => rfl) (by decide) hnames
  have hplain : ∀ n ∈ [str "clips", str "09"], virtualContainerEscape ∉ n := by decide
  exact ⟨hboth.1.mpr fun _ => hplain, hboth.2.mpr fun _ => hplain⟩

/-- What the storage makes of a directory with a backslash. -/
def backslashRows : List ObjectRow :=
  ((addContainerChain (directoriesChain (str "Video") (str "m/a\\b")) none invalidObjectID
    (some invalidObjectID)).run freshStorage).2.db.objects.rows

/-- **The backslash is lost**: the directory `a\b` becomes a container `ab`. -/
theorem directories_backslash_lost :
    ¬ ∀ (cm : ContentCalls) (s : StorageState) (rootpath : Option Str) (loc : Str)
      (names : List Str) (l : Layout), Sound s → Filed s.db → Answers cm →
      AsksStorage cm s (str "Video") → locationAdded l.obj = some loc →
      DirectoryNames rootpath loc names →
      ∃ mid l', (addAllVideo cm).run l = (.ok (), mid) ∧
        (addVideo cm .ok rootpath).run l = (.ok (), l') ∧
        PutBelow (str "Video") s rootpath loc names mid l' := by
  intro hclaim
  have hfiles : ∀ n ∈ [str "m", str "a\\b", str "f"], FileName n := by
    intro n hn
    constructor
    · revert n
      decide
    · revert n
      decide
  have hnames : DirectoryNames (some (str "/m")) (str "/m/a\\b/f") [str "m", str "a\\b"] :=
    .rootpath [] (str "m") [str "a\\b"] (str "f") hfiles
  obtain ⟨mid, l', -, -, hput⟩ := hclaim (frozen freshStorage) freshStorage (some (str "/m"))
    (str "/m/a\\b/f") [str "m", str "a\\b"] (filmAt (str "/m/a\\b/f")) freshStorage_sound
    freshStorage_filed (frozen_answers freshStorage_sound freshStorage_filed) (fun _ => rfl)
    (by decide) hnames
  unfold PutBelow at hput
  rw [if_neg (List.cons_ne_nil _ _)] at hput
  obtain ⟨obj, dir, s', updateID, -, hdir, hrun, row, hrow, -, -, -, htitle, -⟩ := hput
  have hasked : directory .ok (some (str "/m")) (some (str "/m/a\\b/f")) =
      .ok (some (str "m/a\\b")) := by decide +kernel
  rw [hasked] at hdir
  obtain rfl := Option.some.inj (Except.ok.inj hdir)
  have hrows : s'.db.objects.rows = backslashRows := by
    unfold backslashRows
    rw [hrun]
  have hnone : ∀ r ∈ backslashRows, r.dcTitle ≠ some (str "a\\b") := by decide +kernel
  exact hnone row (hrows ▸ hrow) htitle

end FallbackLayout

end MediaTomb
