/-
  What a walk through a directory leaves in the storage.

  One entry after the other, and one directory below the other, the storage stays in order
  (`Importing`), and what comes is accounted for in both directions:

    * a row that comes is that of a directory, or of a file the walk has reached (`Found`);
    * a file that is reached has its row, or the log names it (`Covers`).

  An entry is not looked up where its directory was not found.  The paths of such entries are free,
  since a file lies in a directory that is stored, and they stay free: names of one directory differ,
  and what lies further down has longer paths (`not_other`).
-/
import MediaTomb.Content.Import
import MediaTomb.Storage.AutoscanLookup

namespace MediaTomb

open Lib.Prog

/-! ## Paths -/

section

variable {path p q name : Str} {names ns : List Str} {n : Str}

/-- An absolute path. -/
def IsAbsolute (path : Str) : Prop := path.head? = some dirSeparator

instance (path : Str) : Decidable (IsAbsolute path) :=
  inferInstanceAs (Decidable (path.head? = some dirSeparator))

theorem IsAbsolute.append (h : IsAbsolute path) (rest : Str) : IsAbsolute (path ++ rest) := by
  unfold IsAbsolute at h ⊢
  rw [List.head?_append, h]
  rfl

theorem pathNamesFrom_append : ∀ s cur r : Str,
    pathNamesFrom cur (s ++ dirSeparator :: r) = pathNamesFrom cur s ++ pathNames r := by
  intro s
  induction s with
  | nil => exact fun cur r => pathNamesFrom_separator cur r
  | cons c s ih =>
    intro cur r
    rw [List.cons_append, pathNamesFrom, pathNamesFrom]
    split
    · rw [ih, List.append_assoc]
    · exact ih _ r

theorem FileName.pathNames (h : FileName name) : pathNames name = [name] := by
  have hwhole := pathNamesFrom_name h.no_separator [] []
  rw [List.append_nil, List.nil_append] at hwhole
  unfold MediaTomb.pathNames
  rw [hwhole, pathNamesFrom]
  exact if_neg h.ne_nil

/-- The names of an entry. -/
theorem pathNames_entryPath (h : FileName name) :
    pathNames (ImportSource.entryPath path name) = pathNames path ++ [name] := by
  have happend := pathNamesFrom_append path [] name
  rw [h.pathNames] at happend
  exact happend

/-- A path that does not end with a separator is that of its names. -/
theorem reduce_path (h : IsAbsolute path) (hlast : path.getLast? ≠ some dirSeparator) :
    reduce dirSeparator path = pathText (pathNames path).reverse := by
  rw [pathText_reverse]
  rcases (directoriesOf_pathNames h).reduced with ⟨hreduce, -⟩ | hreduce
  · exact hreduce
  · have hend := getLast?_reduce dirSeparator path
    rw [hreduce, getLast?_snoc] at hend
    exact absurd hend.symm hlast

/-- One that ends with a separator has it behind its names. -/
theorem reduce_directory (h : IsAbsolute path) (hlast : path.getLast? = some dirSeparator) :
    reduce dirSeparator path = pathText (pathNames path).reverse ++ [dirSeparator] := by
  have hdirs := directoriesOf_pathNames h
  rcases hdirs.reduced with ⟨hreduce, hne⟩ | hreduce
  · have hend := getLast?_reduce dirSeparator path
    rw [hreduce, ← pathText_reverse, hlast] at hend
    have hnames : ∀ m ∈ (pathNames path).reverse, FileName m :=
      fun m hm => hdirs.fileNames m (List.mem_reverse.mp hm)
    exact absurd hend ((noDouble_pathText _ hnames).2 (mt List.reverse_eq_nil_iff.mp hne))
  · rw [hreduce, pathText_reverse]

theorem reduce_entryPath (h : IsAbsolute path) (hname : FileName name) :
    reduce dirSeparator (ImportSource.entryPath path name) =
      pathText (name :: (pathNames path).reverse) := by
  have hlast : (ImportSource.entryPath path name).getLast? ≠ some dirSeparator := by
    intro hend
    have hlastName : (ImportSource.entryPath path name).getLast? = name.getLast? := by
      unfold ImportSource.entryPath
      rw [List.getLast?_append, List.getLast?_cons]
      rcases hn : name.getLast? with _ | c
      · exact absurd (List.getLast?_eq_none_iff.mp hn) hname.ne_nil
      · rfl
    rw [hlastName] at hend
    exact hname.no_separator (List.mem_of_getLast? hend)
  have habsolute : IsAbsolute (ImportSource.entryPath path name) := h.append _
  have hreduce := reduce_path habsolute hlast
  rw [pathNames_entryPath hname, List.reverse_append] at hreduce
  exact hreduce

/-- The location that is looked for, of a path in reduced form or not. -/
theorem pathLocation_reduce (path : Str) :
    pathLocation (reduce dirSeparator path) = pathLocation path := by
  unfold pathLocation
  rw [reduce_reduce]

theorem pathLocation_file (hn : FileName n)
    (hreduce : reduce dirSeparator path = pathText (n :: ns)) :
    pathLocation path = .ok (fileLocation (pathText (n :: ns))) := by
  unfold pathLocation splitPathOrThrow
  simp only
  rw [hreduce, splitPath_pathText hn]
  simp only [bind, Except.bind]
  rw [if_pos hn.ne_nil]
  rfl

/-- **A directory is looked for** under the names of its path. -/
theorem pathLocation_of_directory (h : IsAbsolute path) (hne : pathNames path ≠ []) :
    pathLocation (path ++ [dirSeparator]) =
      .ok (dirLocation (pathText (pathNames path).reverse)) := by
  have hdirs := directoriesOf_pathNames h
  have hnames : pathNames (path ++ [dirSeparator]) = pathNames path := by
    have happend := pathNamesFrom_append path [] []
    rwa [show pathNames [] = [] from rfl, List.append_nil] at happend
  have hreduce := reduce_directory (h.append [dirSeparator]) (getLast?_snoc path dirSeparator)
  rw [hnames] at hreduce
  rw [← pathLocation_reduce, hreduce]
  obtain ⟨m, ms, hms⟩ := List.exists_cons_of_ne_nil (mt List.reverse_eq_nil_iff.mp hne)
  rw [hms]
  refine pathLocation_directory fun k hk => hdirs.fileNames k (List.mem_reverse.mp ?_)
  rw [hms]
  exact hk

/-- Paths are told apart by their names. -/
theorem pathText_inj {ms : List Str} (hns : ∀ m ∈ ns, FileName m) (hms : ∀ m ∈ ms, FileName m)
    (heq : pathText ns = pathText ms) : ns = ms := by
  have hleft := pathNames_names fun m hm => hns m (List.mem_reverse.mp hm)
  have hright := pathNames_names fun m hm => hms m (List.mem_reverse.mp hm)
  rw [← pathText_reverse, List.reverse_reverse] at hleft hright
  rw [heq, hright] at hleft
  exact List.reverse_injective hleft.symm

end

/-! ## What a walk reaches -/

namespace ImportSource

/-- The path is that of an entry of the directory, and the walk does not leave it out. -/
def Entry (w : ImportSource) (hidden : Bool) (path p : Str) : Prop :=
  ∃ name names, w.readdir path = .ok names ∧ name ∈ names ∧ skipsName hidden name = false ∧
    w.configFilename ≠ entryPath path name ∧ p = entryPath path name

/-- The paths below a directory that a walk comes to. -/
def Reached (w : ImportSource) (hidden : Bool) : Str → Str → Prop :=
  Relation.TransGen (w.Entry hidden)

/-- The row of the file at the path, and it is one. -/
def IsRowOf (w : ImportSource) (p : Str) (r : ObjectRow) : Prop :=
  w.stat p = .ok .regular ∧ matchesLocation (fileLocation (reduce dirSeparator p)) r = true

/-- A row that a walk through the directory adds. -/
def Found (w : ImportSource) (hidden : Bool) (path : Str) (r : ObjectRow) : Prop :=
  IsDirectoryRow r ∨ ∃ q, w.Reached hidden path q ∧ w.IsRowOf q r

/-- Nothing is stored as a file that is a directory now. -/
def NoStale (w : ImportSource) (R : List ObjectRow) : Prop :=
  ∀ p, w.stat p = .ok .directory → ∀ r ∈ R,
    matchesLocation (fileLocation (reduce dirSeparator p)) r = false

/-- The log names the path, or a directory above it. -/
def Reports (w : ImportSource) (hidden : Bool) (warnings : List ImportWarning) (q : Str) : Prop :=
  ∃ x ∈ warnings, x.path = q ∨ w.Reached hidden x.path q

/-- If there is a file at the path it has a row, or the log names it. -/
def Accounts (w : ImportSource) (hidden : Bool) (R : List ObjectRow) (warnings : List ImportWarning)
    (q : Str) : Prop :=
  w.stat q = .ok .regular →
    (∃ r ∈ R, matchesLocation (fileLocation (reduce dirSeparator q)) r = true) ∨
      w.Reports hidden warnings q

/-- The file at the path is accounted for, and what lies below it. -/
def Covers (w : ImportSource) (hidden : Bool) (R : List ObjectRow) (warnings : List ImportWarning)
    (p : Str) : Prop :=
  ∀ q, q = p ∨ w.Reached hidden p q → w.Accounts hidden R warnings q

section

variable {w : ImportSource} {hidden : Bool} {path p q name : Str} {R new : List ObjectRow}
  {s : StorageState} {r : ObjectRow} {obj : CdsObject} {warnings later : List ImportWarning}

theorem Covers.more (h : w.Covers hidden R warnings p) (new : List ObjectRow)
    (more : List ImportWarning) : w.Covers hidden (R ++ new) (warnings ++ more) p := by
  intro q hq hregular
  refine (h q hq hregular).imp ?_ ?_
  · rintro ⟨r, hr, hmatch⟩
    exact ⟨r, List.mem_append_left _ hr, hmatch⟩
  · rintro ⟨x, hx, hpath⟩
    exact ⟨x, List.mem_append_left _ hx, hpath⟩

theorem Covers.before (h : w.Covers hidden R later p) (warnings : List ImportWarning) :
    w.Covers hidden R (warnings ++ later) p := by
  intro q hq hregular
  refine (h q hq hregular).imp_right ?_
  rintro ⟨x, hx, hpath⟩
  exact ⟨x, List.mem_append_right _ hx, hpath⟩

/-- What is reached from a path lies in a directory. -/
theorem directory_of_reached (h : w.Reached hidden p q) : w.stat p = .ok .directory := by
  obtain ⟨x, ⟨name, names, hread, -⟩, -⟩ := Relation.TransGen.head'_iff.mp h
  exact w.readdir_directory p names hread

/-- A file is accounted for by its own row. -/
theorem covers_file (hregular : w.stat p = .ok .regular)
    (hstored : ∃ r ∈ R, matchesLocation (fileLocation (reduce dirSeparator p)) r = true) :
    w.Covers hidden R warnings p := by
  rintro q (rfl | hq) -
  · exact Or.inl hstored
  · rw [directory_of_reached hq] at hregular
    cases hregular

/-- A directory is accounted for by what lies below it. -/
theorem covers_directory (hdir : w.stat p = .ok .directory)
    (hbelow : ∀ q, w.Reached hidden p q → w.Accounts hidden R warnings q) :
    w.Covers hidden R warnings p := by
  rintro q (rfl | hq) hregular
  · rw [hdir] at hregular
    cases hregular
  · exact hbelow q hq hregular

/-- A warning accounts for all there is. -/
theorem covers_warning {x : ImportWarning} (hx : x.path = p) (hin : x ∈ warnings) :
    w.Covers hidden R warnings p := by
  rintro q hq -
  refine Or.inr ⟨x, hin, ?_⟩
  rw [hx]
  exact hq.imp_left Eq.symm

/-- What comes is no file where there is a directory. -/
theorem NoStale.more (h : w.NoStale R)
    (hnew : ∀ r ∈ new, IsDirectoryRow r ∨ ∃ q, w.IsRowOf q r) : w.NoStale (R ++ new) := by
  intro p hdir r hr
  rcases List.mem_append.mp hr with hr | hr
  · exact h p hdir r hr
  · rcases hnew r hr with hdirrow | ⟨q, hregular, hmatch⟩
    · exact hdirrow.not_file
    · rw [Bool.eq_false_iff]
      intro hmatch'
      rw [← w.stat_reduce, matchesFile_inj hmatch' hmatch, w.stat_reduce, hregular] at hdir
      cases hdir

theorem Found.isRow (h : w.Found hidden path r) : IsDirectoryRow r ∨ ∃ q, w.IsRowOf q r :=
  h.imp_right fun ⟨q, _, hrow⟩ => ⟨q, hrow⟩

theorem Entry.fileName (h : w.Entry hidden path p) :
    ∃ name, FileName name ∧ p = entryPath path name := by
  obtain ⟨name, names, hread, hname, -, -, rfl⟩ := h
  exact ⟨name, (w.readdir_names path names hread).2 name hname, rfl⟩

/-- What is reached lies below. -/
theorem names_of_reached (h : w.Reached hidden path q) (habs : IsAbsolute path) :
    IsAbsolute q ∧ ∃ m ms, FileName m ∧ pathNames q = pathNames path ++ ms ++ [m] ∧
      reduce dirSeparator q = pathText (pathNames q).reverse := by
  have hentry : ∀ {path p : Str}, w.Entry hidden path p → IsAbsolute path →
      IsAbsolute p ∧ ∃ m, FileName m ∧ pathNames p = pathNames path ++ [m] ∧
        reduce dirSeparator p = pathText (pathNames p).reverse := by
    rintro path p hp habs
    obtain ⟨name, hname, rfl⟩ := hp.fileName
    refine ⟨habs.append _, name, hname, pathNames_entryPath hname, ?_⟩
    rw [reduce_entryPath habs hname, pathNames_entryPath hname, List.reverse_append]
    rfl
  induction h with
  | single hp =>
    obtain ⟨habs', m, hm, hnames, hreduce⟩ := hentry hp habs
    refine ⟨habs', m, [], hm, ?_, hreduce⟩
    rw [List.append_nil]
    exact hnames
  | tail _ hp ih =>
    obtain ⟨habs₁, k, ks, -, hnames₁, -⟩ := ih
    obtain ⟨habs', m, hm, hnames, hreduce⟩ := hentry hp habs₁
    refine ⟨habs', m, ks ++ [k], hm, ?_, hreduce⟩
    rw [hnames, hnames₁, List.append_assoc (pathNames path)]

theorem Found.below (h : w.Found hidden p r) (hp : w.Entry hidden path p) :
    w.Found hidden path r := by
  rcases h with hdir | ⟨q, hq, hrow⟩
  · exact Or.inl hdir
  · exact Or.inr ⟨q, Relation.TransGen.head hp hq, hrow⟩

/-- The rows that come with one entry leave the paths of the others alone. -/
theorem not_other {name' : Str} (habs : IsAbsolute path) (hname : FileName name)
    (hname' : FileName name') (hne : name' ≠ name)
    (hr : w.IsRowOf (entryPath path name) r ∨ w.Found hidden (entryPath path name) r) :
    matchesLocation (fileLocation (reduce dirSeparator (entryPath path name'))) r = false := by
  rw [Bool.eq_false_iff]
  intro hmatch
  have hdirs := directoriesOf_pathNames habs
  have hnames' : ∀ m ∈ name' :: (pathNames path).reverse, FileName m := by
    intro m hm
    rcases List.mem_cons.mp hm with rfl | hm
    · exact hname'
    · exact hdirs.fileNames m (List.mem_reverse.mp hm)
  rw [reduce_entryPath habs hname'] at hmatch
  rcases hr with ⟨-, hrow⟩ | hdir | ⟨q, hq, -, hrow⟩
  · have heq := matchesFile_inj hmatch hrow
    rw [reduce_entryPath habs hname] at heq
    exact hne (List.cons.inj (pathText_inj hnames' (fun m hm => by
      rcases List.mem_cons.mp hm with rfl | hm
      · exact hname
      · exact hdirs.fileNames m (List.mem_reverse.mp hm)) heq)).1
  · rw [hdir.not_file] at hmatch
    cases hmatch
  · have habs' : IsAbsolute (entryPath path name) := habs.append _
    obtain ⟨habsq, m, ms, -, hnames, hreduce⟩ := names_of_reached hq habs'
    have heq := matchesFile_inj hmatch hrow
    rw [hreduce] at heq
    have hlist := pathText_inj hnames' (fun k hk =>
      (directoriesOf_pathNames habsq).fileNames k (List.mem_reverse.mp hk)) heq
    have hlen := congrArg List.length hlist
    rw [hnames, pathNames_entryPath hname] at hlen
    simp only [List.length_cons, List.length_reverse, List.length_append, List.length_nil] at hlen
    omega

/-! ## `addObject` of a file -/

/-- `ContentManager::addObject` does not make another file of the object either. -/
theorem isFileObject_reduced (hobj : IsFileObject obj p) :
    IsFileObject { obj with location := obj.location.map (reduce dirSeparator) }
      (reduce dirSeparator p) := by
  refine ⟨hobj.new, hobj.item, hobj.real, hobj.alone, hobj.noPlaylist, ?_⟩
  show obj.location.map _ = _
  rw [hobj.location]
  rfl

/-- **A file that is not stored is added**, and what may fail behind that adds nothing. -/
theorem importing_addObject {n : Str} {ns : List Str} (h : Importing R s)
    (hobj : IsFileObject obj p) (hreduce : reduce dirSeparator p = pathText (n :: ns))
    (hns : ∀ m ∈ n :: ns, FileName m)
    (hnone : ∀ r ∈ R, matchesLocation (fileLocation (reduce dirSeparator p)) r = false) :
    ∃ answer s' new, (w.addObject obj).run s = (answer, s') ∧ Adds R new s s' ∧
      (∀ r ∈ new, IsDirectoryRow r ∨
        matchesLocation (fileLocation (reduce dirSeparator p)) r = true) ∧
      ∀ o, answer = .ok o → 0 < o.parentID ∧
        ∃ r ∈ new, matchesLocation (fileLocation (reduce dirSeparator p)) r = true := by
  have hurl : isCdsItemExternalURL obj.objectType = false := by
    rw [hobj.pure_item]
    decide
  unfold addObject
  rcases hvalid : obj.validate w.checkPath with e | ⟨⟩
  · exact ⟨.error e, s, [], rfl, .refl h, fun r hr => (nomatch hr), fun o ho => nomatch ho⟩
  · rw [ofExcept_ok_bind]
    simp only [hurl, Bool.false_eq_true, if_false]
    have hnew := isFileObject_reduced hobj
    rw [hreduce] at hnew hnone ⊢
    obtain ⟨answer, s₁, new, hadd, hadds, hrows, hok⟩ := MediaTomb.importing_addObject h hnew hns
      hnone
    rcases answer with e | ⟨o, changed⟩
    · exact ⟨.error e, s₁, new, run_bind_of_error hadd, hadds, hrows, fun o ho => nomatch ho⟩
    · rw [run_bind_of_ok hadd]
      obtain ⟨hdir, -, hstored⟩ := hok o changed rfl
      have hpos := hdir.pos hadds.importing.filed
      simp only
      have hparent : o.parentID ≠ -1 := by omega
      rw [if_pos hparent]
      obtain ⟨childCount, s₂, hcount, hadds₂⟩ := importing_getChildCount hadds.importing o.parentID
      rw [run_bind_of_ok hcount]
      have hboth : Adds R new s s₂ := by
        have hboth := hadds.trans hadds₂
        rwa [List.append_nil] at hboth
      by_cases hone : childCount = 1
      · rw [if_pos hone]
        obtain ⟨loaded, s', hload, hadds₃⟩ := importing_loadObject hboth.importing hdir
        have hall : Adds R new s s' := by
          have hall := hboth.trans hadds₃
          rwa [List.append_nil] at hall
        rcases loaded with e | parent
        · exact ⟨.error e, s', new, run_bind_of_error hload, hall, hrows, fun o ho => nomatch ho⟩
        · rw [run_bind_of_ok hload]
          exact ⟨.ok o, s', new, rfl, hall, hrows, fun o' ho => by cases ho; exact ⟨hpos, hstored⟩⟩
      · rw [if_neg hone]
        exact ⟨.ok o, s₂, new, rfl, hboth, hrows, fun o' ho => by cases ho; exact ⟨hpos, hstored⟩⟩

/-! ## One entry -/

/-- The path is that of a file that is not stored. -/
def IsFree (R : List ObjectRow) (p : Str) : Prop :=
  ∃ n ns, reduce dirSeparator p = pathText (n :: ns) ∧ (∀ m ∈ n :: ns, FileName m) ∧
    ∀ r ∈ R, matchesLocation (fileLocation (reduce dirSeparator p)) r = false

/-- What is made of a path: a file gets its row, a directory a container. -/
def Made (w : ImportSource) (p : Str) (new : List ObjectRow) (obj : CdsObject) : Prop :=
  w.stat p = .ok .regular ∧
      (∃ r ∈ new, matchesLocation (fileLocation (reduce dirSeparator p)) r = true) ∨
    w.stat p = .ok .directory ∧ isCdsContainer obj.objectType = true

/-- **What is not stored is made and added**, if it is a file. -/
theorem importing_addEntry (h : Importing R s) (hfree : w.stat p = .ok .regular → IsFree R p)
    (parentID : Int) :
    ∃ answer s' new, (w.addEntry p parentID).run s = (answer, s') ∧ Adds R new s s' ∧
      (∀ r ∈ new, IsDirectoryRow r ∨ w.IsRowOf p r) ∧
      ∀ o id, answer = .ok (o, id) → (id = parentID ∨ 0 < id) ∧
        ∀ obj, o = some obj → w.Made p new obj := by
  unfold addEntry
  rw [run_get_bind]
  rcases hmade : w.createObjectFromFile s.f2i p true false with e | _ | obj
  · exact ⟨.error e, s, [], rfl, .refl h, fun r hr => (nomatch hr), fun o id ho => nomatch ho⟩
  · rw [ofExcept_ok_bind]
    exact ⟨.ok (none, parentID), s, [], rfl, .refl h, fun r hr => (nomatch hr),
      fun o id ho => by cases ho; exact ⟨Or.inl rfl, fun obj hobj => nomatch hobj⟩⟩
  · rw [ofExcept_ok_bind]
    simp only
    rcases createObjectFromFile_made hmade with ⟨hregular, hobj⟩ | ⟨hdir, hnoItem, hcontainer⟩
    · have hitem : isCdsItem obj.objectType = true := by
        rw [hobj.pure_item]
        decide
      rw [if_pos hitem]
      obtain ⟨n, ns, hreduce, hns, hnone⟩ := hfree hregular
      obtain ⟨answer, s', new, hadd, hadds, hrows, hok⟩ := importing_addObject h hobj hreduce hns
        hnone
      have hrows' : ∀ r ∈ new, IsDirectoryRow r ∨ w.IsRowOf p r :=
        fun r hr => (hrows r hr).imp_right fun hmatch => ⟨hregular, hmatch⟩
      rcases answer with e | o
      · exact ⟨.error e, s', new, run_bind_of_error hadd, hadds, hrows', fun o id ho => nomatch ho⟩
      · rw [run_bind_of_ok hadd]
        obtain ⟨hpos, hstored⟩ := hok o rfl
        exact ⟨.ok (some o, o.parentID), s', new, rfl, hadds, hrows', fun o' id ho => by
          cases ho
          exact ⟨Or.inr hpos, fun obj _ => Or.inl ⟨hregular, hstored⟩⟩⟩
    · rw [hnoItem]
      exact ⟨.ok (some obj, parentID), s, [], rfl, .refl h, fun r hr => (nomatch hr),
        fun o id ho => by
          cases ho
          exact ⟨Or.inl rfl, fun o ho => by cases ho; exact Or.inr ⟨hdir, hcontainer⟩⟩⟩

/-- **What a walk through one directory does**, however it ends. -/
def Walks (w : ImportSource) (hidden : Bool) (recurse : Str → Storage (List ImportWarning))
    (p : Str) : Prop :=
  ∀ R s, Importing R s → ∃ answer s' new, (recurse p).run s = (answer, s') ∧ Adds R new s s' ∧
    (∀ r ∈ new, w.Found hidden p r) ∧
    ∀ warnings, answer = .ok warnings → w.NoStale R → w.stat p = .ok .directory ∧
      ∀ q, w.Reached hidden p q → w.Accounts hidden (R ++ new) warnings q

/-- How a turn of the loop ends, once some rows have come. -/
def Turns (w : ImportSource) (hidden : Bool) (p : Str) (R : List ObjectRow) (s : StorageState)
    (parentID : Int) (answer : Except Exception (Int × List ImportWarning)) (s' : StorageState)
    (new : List ObjectRow) : Prop :=
  Adds R new s s' ∧ (∀ r ∈ new, w.IsRowOf p r ∨ w.Found hidden p r) ∧
    ∀ id warnings, answer = .ok (id, warnings) → (id = parentID ∨ 0 < id) ∧
      (w.NoStale R → w.Covers hidden (R ++ new) warnings p)

theorem rows_of_turn (h : ∀ r ∈ new, w.IsRowOf p r ∨ w.Found hidden p r) :
    ∀ r ∈ new, IsDirectoryRow r ∨ ∃ q, w.IsRowOf q r := fun r hr =>
  (h r hr).elim (fun hrow => Or.inr ⟨p, hrow⟩) Found.isRow

theorem turns_descend {recurse : Str → Storage (List ImportWarning)} {s₁ : StorageState}
    {parentID id : Int} {found : Option CdsObject} (hrecurse : w.Walks hidden recurse p)
    (hadds : Adds R new s s₁) (hrows : ∀ r ∈ new, w.IsRowOf p r ∨ w.Found hidden p r)
    (hid : id = parentID ∨ 0 < id)
    (hfound : ∀ obj, found = some obj → isCdsContainer obj.objectType = true ∨
      (w.NoStale R → w.Covers hidden (R ++ new) [] p)) :
    ∃ answer s' new, (descend recurse p found id).run s₁ = (answer, s') ∧
      w.Turns hidden p R s parentID answer s' new := by
  unfold descend
  rcases found with _ | obj
  · refine ⟨_, s₁, new, rfl, hadds, hrows, fun id' warnings hok => ?_⟩
    cases hok
    exact ⟨hid, fun _ => covers_warning rfl (List.mem_singleton_self _)⟩
  · simp only
    by_cases hcontainer : isCdsContainer obj.objectType = true
    · rw [if_pos hcontainer]
      obtain ⟨answer, s', more, hrun, hadds', hmore, hbelow⟩ := hrecurse _ s₁ hadds.importing
      have hrows' : ∀ r ∈ new ++ more, w.IsRowOf p r ∨ w.Found hidden p r := by
        intro r hr
        rcases List.mem_append.mp hr with hr | hr
        · exact hrows r hr
        · exact Or.inr (hmore r hr)
      rcases answer with e | warnings
      · exact ⟨.error e, s', _, run_bind_of_error hrun, hadds.trans hadds', hrows',
          fun id' warnings hok => nomatch hok⟩
      · rw [run_bind_of_ok hrun]
        refine ⟨_, s', _, rfl, hadds.trans hadds', hrows', fun id' warnings' hok => ?_⟩
        cases hok
        refine ⟨hid, fun hstale => ?_⟩
        obtain ⟨hdir, haccounts⟩ := hbelow warnings rfl (hstale.more (rows_of_turn hrows))
        rw [List.append_assoc] at haccounts
        exact covers_directory hdir haccounts
    · rw [if_neg hcontainer]
      refine ⟨_, s₁, new, rfl, hadds, hrows, fun id' warnings hok => ?_⟩
      cases hok
      exact ⟨hid, (hfound obj rfl).resolve_left hcontainer⟩

/-- **One turn of the loop.**  Where the directory is not known to be stored, no file of it is. -/
theorem importing_tryEntry {n : Str} {ns : List Str}
    {recurse : Str → Storage (List ImportWarning)} (hrecurse : w.Walks hidden recurse p)
    (h : Importing R s) (hreduce : reduce dirSeparator p = pathText (n :: ns))
    (hns : ∀ m ∈ n :: ns, FileName m) {parentID : Int} (hparent : 0 < parentID ∨
      ∀ r ∈ R, matchesLocation (fileLocation (reduce dirSeparator p)) r = false) :
    ∃ answer s' new, (w.tryEntry recurse p parentID).run s = (answer, s') ∧
      w.Turns hidden p R s parentID answer s' new := by
  -- what is not found is made
  have hmake : ∀ {s₁ : StorageState}, Adds R [] s s₁ →
      (∀ r ∈ R, matchesLocation (fileLocation (reduce dirSeparator p)) r = false) →
      ∃ answer s' new, (w.addEntry p parentID >>= fun made =>
          descend recurse p made.1 made.2).run s₁ = (answer, s') ∧
        w.Turns hidden p R s parentID answer s' new := by
    intro s₁ hadds₁ hnone
    have himporting : Importing R s₁ := by
      have himporting := hadds₁.importing
      rwa [List.append_nil] at himporting
    obtain ⟨answer, s₂, new, hrun, hadds₂, hrows, hmade⟩ :=
      @importing_addEntry w p R s₁ himporting (fun _ => ⟨n, ns, hreduce, hns, hnone⟩) parentID
    have hadds : Adds R new s s₂ := by
      have hadds := hadds₁.trans (by rw [List.append_nil]; exact hadds₂)
      exact hadds
    have hrows' : ∀ r ∈ new, w.IsRowOf p r ∨ w.Found hidden p r := fun r hr =>
      (hrows r hr).elim (fun hdir => Or.inr (Or.inl hdir)) Or.inl
    rcases answer with e | ⟨o, id⟩
    · exact ⟨.error e, s₂, new, run_bind_of_error hrun, hadds, hrows',
        fun id warnings hok => nomatch hok⟩
    · rw [run_bind_of_ok hrun]
      obtain ⟨hid, hobj⟩ := hmade o id rfl
      refine turns_descend hrecurse hadds hrows' hid fun obj ho => ?_
      rcases hobj obj ho with ⟨hregular, r, hr, hmatch⟩ | ⟨-, hcontainer⟩
      · exact Or.inr fun _ => covers_file hregular ⟨r, List.mem_append_right _ hr, hmatch⟩
      · exact Or.inl hcontainer
  unfold tryEntry
  by_cases hpos : 0 < parentID
  · rw [if_pos hpos]
    obtain ⟨found, s₁, hfind, hfinds⟩ := importing_findObjectByPath h (pathLocation_file
      (hns n List.mem_cons_self) hreduce)
    have hadds := Adds.nothing hfinds.importing hfinds.kept hfinds.settles
    rcases found with e | _ | obj
    · exact ⟨.error e, s₁, [], run_bind_of_error hfind, hadds, fun r hr => (nomatch hr),
        fun id warnings hok => nomatch hok⟩
    · rw [run_bind_of_ok hfind]
      refine hmake hadds ?_
      rw [hreduce]
      exact hfinds.missing rfl
    · rw [run_bind_of_ok hfind]
      show ∃ answer s' new, (descend recurse p (some obj) parentID).run s₁ = (answer, s') ∧
        w.Turns hidden p R s parentID answer s' new
      refine turns_descend hrecurse hadds (fun r hr => (nomatch hr)) (Or.inl rfl) fun o ho => ?_
      cases ho
      refine (hfinds.file obj _ rfl rfl).imp_right ?_
      rintro ⟨r, hr, hmatch⟩ hstale
      rw [← hreduce] at hmatch
      rintro q hq hregular
      rcases hq with rfl | hq
      · exact Or.inl ⟨r, List.mem_append_left _ hr, hmatch⟩
      · rw [hstale p (directory_of_reached hq) r hr] at hmatch
        cases hmatch
  · rw [if_neg hpos]
    exact hmake (.refl h) (hparent.resolve_left hpos)

/-! ## The walk -/

/-- **The loop.**  It ends without an exception, and the paths of the entries to come stay free where
    nothing is looked up. -/
theorem importing_addEntries {recurse : Str → Storage (List ImportWarning)} {all : List Str}
    (hrecurse : ∀ p, w.Entry hidden path p → w.Walks hidden recurse p) (habs : IsAbsolute path)
    (hread : w.readdir path = .ok all) : ∀ (names : List Str) (parentID : Int) (R : List ObjectRow)
    (s : StorageState), Importing R s → (∀ name ∈ names, name ∈ all) → names.Nodup →
    (0 < parentID ∨ ∀ name ∈ names, ∀ r ∈ R,
      matchesLocation (fileLocation (reduce dirSeparator (entryPath path name))) r = false) →
    ∃ warnings s' new, (w.addEntries recurse path hidden names parentID).run s =
        (.ok warnings, s') ∧ Adds R new s s' ∧ (∀ r ∈ new, w.Found hidden path r) ∧
      (w.NoStale R → ∀ name ∈ names, w.Entry hidden path (entryPath path name) →
        w.Covers hidden (R ++ new) warnings (entryPath path name)) := by
  have hdirs := directoriesOf_pathNames habs
  intro names
  induction names with
  | nil => exact fun _ _ s h _ _ _ => ⟨[], s, [], rfl, .refl h, fun r hr => (nomatch hr),
      fun _ name hname => nomatch hname⟩
  | cons name names ih =>
    intro parentID R s h hall hnodup hparent
    obtain ⟨hfresh, hnodup'⟩ := List.nodup_cons.mp hnodup
    have hall' : ∀ name' ∈ names, name' ∈ all := fun m hm => hall m (List.mem_cons_of_mem _ hm)
    have hfile : ∀ m ∈ all, FileName m := (w.readdir_names path all hread).2
    have hname := hfile name (hall name List.mem_cons_self)
    rw [addEntries]
    by_cases hskip : (skipsName hidden name || w.configFilename = entryPath path name) = true
    · rw [if_pos hskip]
      obtain ⟨warnings, s', new, hrun, hadds, hfound, hcovers⟩ := ih parentID R s h hall' hnodup'
        (hparent.imp_right fun hno m hm => hno m (List.mem_cons_of_mem _ hm))
      refine ⟨warnings, s', new, hrun, hadds, hfound, fun hstale m hm hentry => ?_⟩
      rcases List.mem_cons.mp hm with rfl | hm
      · obtain ⟨m', -, -, -, hkeep, hconfig, hpath⟩ := hentry
        obtain rfl : m = m' := (List.cons.inj (List.append_cancel_left hpath)).2
        rw [hkeep, Bool.false_or, decide_eq_true_eq] at hskip
        exact absurd hskip hconfig
      · exact hcovers hstale m hm hentry
    · rw [if_neg hskip]
      rw [Bool.or_eq_true, not_or, Bool.not_eq_true, decide_eq_true_eq] at hskip
      have hentry : w.Entry hidden path (entryPath path name) :=
        ⟨name, all, hread, hall name List.mem_cons_self, hskip.1, hskip.2, rfl⟩
      have hns : ∀ m ∈ name :: (pathNames path).reverse, FileName m := by
        intro m hm
        rcases List.mem_cons.mp hm with rfl | hm
        · exact hname
        · exact hdirs.fileNames m (List.mem_reverse.mp hm)
      obtain ⟨answer, s₁, new, hrun, hadds, hrows, hturn⟩ := importing_tryEntry
        (hrecurse _ hentry) h (reduce_entryPath habs hname) hns
        (hparent.imp_right fun hno => hno name List.mem_cons_self)
      -- the exception is caught, and the directory is the one it was
      obtain ⟨id, warnings, hcaught, hkeeps, hcover⟩ : ∃ id warnings,
          ((w.tryEntry recurse (entryPath path name) parentID).tryCatch fun e =>
            pure (parentID, [.skipping (entryPath path name) e.message])).run s =
              (.ok (id, warnings), s₁) ∧ (id = parentID ∨ 0 < id) ∧
          (w.NoStale R → w.Covers hidden (R ++ new) warnings (entryPath path name)) := by
        rcases answer with e | ⟨id, warnings⟩
        · exact ⟨parentID, _, by rw [run_tryCatch, hrun]; rfl, Or.inl rfl,
            fun _ => covers_warning rfl (List.mem_singleton_self _)⟩
        · exact ⟨id, warnings, by rw [run_tryCatch, hrun], hturn id warnings rfl⟩
      have hparent' : 0 < id ∨ ∀ m ∈ names, ∀ r ∈ R ++ new,
          matchesLocation (fileLocation (reduce dirSeparator (entryPath path m))) r = false := by
        rcases hkeeps with rfl | hpos
        · refine hparent.imp_right fun hno m hm r hr => ?_
          rcases List.mem_append.mp hr with hr | hr
          · exact hno m (List.mem_cons_of_mem _ hm) r hr
          · exact not_other habs hname (hfile m (hall' m hm)) (fun heq => hfresh (heq ▸ hm))
              (hrows r hr)
        · exact Or.inl hpos
      obtain ⟨after, s', more, hrest, hadds', hfound, hcovers⟩ := ih id (R ++ new) s₁
        hadds.importing hall' hnodup' hparent'
      rw [run_bind_of_ok hcaught]
      simp only
      rw [run_bind_of_ok hrest]
      refine ⟨warnings ++ after, s', new ++ more, rfl, hadds.trans hadds', fun r hr => ?_,
        fun hstale m hm hm' => ?_⟩
      · rcases List.mem_append.mp hr with hr | hr
        · rcases hrows r hr with hrow | hbelow
          · exact Or.inr ⟨_, Relation.TransGen.single hentry, hrow⟩
          · exact hbelow.below hentry
        · exact hfound r hr
      · rw [← List.append_assoc]
        rcases List.mem_cons.mp hm with rfl | hm
        · exact (hcover hstale).more more after
        · exact (hcovers (hstale.more (rows_of_turn hrows)) m hm hm').before warnings

/-- Where a directory is not stored, no file of it is. -/
theorem no_file_of_missing {n : Str} {ns : List Str} (h : WellFiled R)
    (hns : ∀ m ∈ n :: ns, FileName m) (hname : FileName name)
    (hmissing : ∀ r ∈ R, matchesLocation (dirLocation (pathText (n :: ns))) r = false) :
    ∀ r ∈ R, matchesLocation (fileLocation (pathText (name :: n :: ns))) r = false := by
  intro r hr
  rw [Bool.eq_false_iff]
  intro hmatch
  obtain ⟨dir, name', hsplit, hhome⟩ := h.home r hr _ hmatch
  rw [splitPath_pathText hname] at hsplit
  have hdir : chainPath (n :: ns) = dir := congrArg Prod.fst (Except.ok.inj hsplit)
  have hchain : chainPath (n :: ns) = pathText (n :: ns) := if_neg (List.cons_ne_nil n ns)
  rw [hchain] at hdir
  rcases hhome with hroot | ⟨d, hd, hdmatch⟩
  · exact pathText_ne_root (hns n List.mem_cons_self) (hdir.trans hroot)
  · rw [← hdir, hmissing d hd] at hdmatch
    cases hdmatch

theorem run_findObjectIDByPath {s' : StorageState} {found : Except Exception (Option CdsObject)}
    (h : (findObjectByPath path).run s = (found, s')) : (findObjectIDByPath path).run s =
      (found.map fun obj => (obj.map CdsObject.id).getD invalidObjectID, s') := by
  unfold findObjectIDByPath
  rcases found with e | _ | obj
  · exact run_bind_of_error h
  · rw [run_bind_of_ok h]
    rfl
  · rw [run_bind_of_ok h]
    rfl

/-- **`addRecursive`** of a directory that is not the root, however it ends. -/
theorem importing_addRecursive : ∀ (fuel : Nat) (path : Str), IsAbsolute path →
    pathNames path ≠ [] → w.Walks hidden (w.addRecursive hidden fuel) path := by
  intro fuel
  induction fuel with
  | zero =>
    intro path _ _ R s h
    exact ⟨.error outOfFuel, s, [], rfl, .refl h, fun r hr => (nomatch hr),
      fun warnings hok => nomatch hok⟩
  | succ fuel ih =>
    intro path habs hne R s h
    rw [addRecursive]
    have hdot : ¬ (!hidden && path.head? = some '.'.toUInt8) = true := by
      have hhead : path.head? = some dirSeparator := habs
      rw [hhead, Bool.and_eq_true, decide_eq_true_eq]
      exact fun hboth => absurd hboth.2 (by decide)
    rw [if_neg hdot]
    rcases hread : w.readdir path with e | names
    · exact ⟨_, s, [], rfl, .refl h, fun r hr => (nomatch hr), fun warnings hok => nomatch hok⟩
    · simp only
      have hlocation := pathLocation_of_directory habs hne
      have hdirs := directoriesOf_pathNames habs
      obtain ⟨m, ms, hms⟩ := List.exists_cons_of_ne_nil (mt List.reverse_eq_nil_iff.mp hne)
      have hnames : ∀ k ∈ m :: ms, FileName k := fun k hk =>
        hdirs.fileNames k (List.mem_reverse.mp (hms ▸ hk))
      rw [hms] at hlocation
      obtain ⟨hnodup, hfile⟩ := w.readdir_names path names hread
      obtain ⟨found, s₁, hfind, hfinds⟩ := importing_findObjectByPath h hlocation
      have hadds₁ := Adds.nothing hfinds.importing hfinds.kept hfinds.settles
      have hentries : ∀ p, w.Entry hidden path p →
          w.Walks hidden (w.addRecursive hidden fuel) p := by
        intro p hp
        obtain ⟨name, hname, rfl⟩ := hp.fileName
        refine ih _ (habs.append _) ?_
        rw [pathNames_entryPath hname]
        exact List.append_ne_nil_of_right_ne_nil _ (List.cons_ne_nil _ _)
      have hwalk : ∀ parentID : Int, (0 < parentID ∨ ∀ name ∈ names, ∀ r ∈ R,
          matchesLocation (fileLocation (reduce dirSeparator (entryPath path name))) r = false) →
          ∃ answer s' new, (w.addEntries (w.addRecursive hidden fuel) path hidden names
              parentID).run s₁ = (answer, s') ∧ Adds R new s s' ∧
            (∀ r ∈ new, w.Found hidden path r) ∧
            ∀ warnings, answer = .ok warnings → w.NoStale R → w.stat path = .ok .directory ∧
              ∀ q, w.Reached hidden path q → w.Accounts hidden (R ++ new) warnings q := by
        intro parentID hparent
        obtain ⟨warnings, s', new, hrun, hadds, hfound, hcovers⟩ := importing_addEntries hentries
          habs hread names parentID R s₁ hfinds.importing (fun _ hm => hm) hnodup hparent
        have hboth := hadds₁.trans (by rw [List.append_nil]; exact hadds)
        refine ⟨.ok warnings, s', new, hrun, hboth, hfound, fun warnings' hok hstale => ?_⟩
        cases hok
        refine ⟨w.readdir_directory path names hread, fun q hq => ?_⟩
        obtain ⟨p, hp, hbelow⟩ := Relation.TransGen.head'_iff.mp hq
        have hentry := hp
        obtain ⟨name, names', hread', hin, -, -, rfl⟩ := hp
        rw [hread] at hread'
        cases hread'
        refine hcovers hstale name hin hentry q ?_
        rcases Relation.reflTransGen_iff_eq_or_transGen.mp hbelow with rfl | hbelow
        · exact Or.inl rfl
        · exact Or.inr hbelow
      have hid := run_findObjectIDByPath hfind
      rcases found with e | _ | obj
      · exact ⟨.error e, s₁, [], run_bind_of_error hid, hadds₁, fun r hr => (nomatch hr),
          fun warnings hok => nomatch hok⟩
      · rw [run_bind_of_ok hid]
        refine hwalk _ (Or.inr fun name hname r hr => ?_)
        rw [reduce_entryPath habs (hfile name hname), hms]
        exact no_file_of_missing hfinds.importing.filed hnames (hfile name hname)
          (hfinds.missing rfl) r hr
      · rw [run_bind_of_ok hid]
        obtain ⟨-, d, hd, hmatch, hsame⟩ := hfinds.directory obj _ rfl rfl
        refine hwalk obj.id (Or.inl ?_)
        rw [hsame]
        exact (h.filed.directories d hd _ hmatch).2

end

end ImportSource

end MediaTomb
