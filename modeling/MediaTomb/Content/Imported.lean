/-
  Import after import: what is in the storage then, and what the log says.

    * `imported_once`: no path has two rows, no row is lost, and the rows that came are those of
      directories and of files that a walk has come to;
    * `imported_all`: each file that a walk shall reach has its one row when the walk is over, or the
      log names the file, or a directory it lies in.

  Both hold whatever has been imported before, and whatever has failed then.
-/
import MediaTomb.Content.ImportWalk

namespace MediaTomb

open Lib.Prog

namespace ImportSource

section

variable {w : ImportSource} {hidden : Bool} {path p q : Str} {R new : List ObjectRow}
  {s : StorageState}

/-! ## The depth of a directory -/

/-- Below the directory there are less than so many directories, one in the other. -/
def Shallow (w : ImportSource) (hidden : Bool) : Nat → Str → Prop
  | 0, _ => False
  | depth + 1, path => ∀ p, w.Entry hidden path p → w.Shallow hidden depth p

theorem addEntries_congr {recurse recurse' : Str → Storage (List ImportWarning)} {all : List Str}
    (hread : w.readdir path = .ok all)
    (hsame : ∀ p, w.Entry hidden path p → recurse p = recurse' p) :
    ∀ (names : List Str) (parentID : Int), (∀ name ∈ names, name ∈ all) →
      w.addEntries recurse path hidden names parentID =
        w.addEntries recurse' path hidden names parentID := by
  intro names
  induction names with
  | nil => exact fun _ _ => rfl
  | cons name names ih =>
    intro parentID hall
    have hrest : ∀ id, w.addEntries recurse path hidden names id =
        w.addEntries recurse' path hidden names id :=
      fun id => ih id fun m hm => hall m (List.mem_cons_of_mem _ hm)
    rw [addEntries, addEntries]
    by_cases hskip : (skipsName hidden name || w.configFilename = entryPath path name) = true
    · rw [if_pos hskip, if_pos hskip]
      exact hrest parentID
    · rw [if_neg hskip, if_neg hskip]
      rw [Bool.or_eq_true, not_or, Bool.not_eq_true, decide_eq_true_eq] at hskip
      have hentry : w.Entry hidden path (entryPath path name) :=
        ⟨name, all, hread, hall name List.mem_cons_self, hskip.1, hskip.2, rfl⟩
      have hturn : w.tryEntry recurse (entryPath path name) parentID =
          w.tryEntry recurse' (entryPath path name) parentID := by
        have hdescend : ∀ obj id, descend recurse (entryPath path name) obj id =
            descend recurse' (entryPath path name) obj id := by
          intro obj id
          unfold descend
          rw [hsame _ hentry]
        unfold tryEntry
        simp only [hdescend]
      rw [hturn]
      simp only [hrest]

/-- **Fuel for the depth of the directory is enough**: with more of it the walk is the same. -/
theorem addRecursive_fuel {depth : Nat} : ∀ {path : Str} {fuel : Nat}, w.Shallow hidden depth path →
    depth ≤ fuel → w.addRecursive hidden fuel path = w.addRecursive hidden depth path := by
  induction depth with
  | zero => exact fun h _ => h.elim
  | succ depth ih =>
    intro path fuel h hle
    obtain ⟨fuel, rfl⟩ : ∃ k, fuel = k + 1 := ⟨fuel - 1, by omega⟩
    rw [addRecursive, addRecursive]
    rcases hread : w.readdir path with e | names
    · rfl
    · have hentries : ∀ parentID, w.addEntries (w.addRecursive hidden fuel) path hidden names
          parentID = w.addEntries (w.addRecursive hidden depth) path hidden names parentID :=
        fun parentID => addEntries_congr hread (fun p hp => ih (h p hp) (by omega)) names parentID
          fun _ hm => hm
      simp only [hentries]

theorem addFile_fuel {depth fuel : Nat} {recursive : Bool} (h : w.Shallow hidden depth path)
    (hle : depth ≤ fuel) :
    w.addFile fuel path recursive hidden = w.addFile depth path recursive hidden := by
  have hwalk : ∀ obj, w.walkThrough fuel path recursive hidden obj =
      w.walkThrough depth path recursive hidden obj := by
    intro obj
    rcases obj with _ | obj
    · rfl
    · rw [walkThrough, walkThrough, addRecursive_fuel h hle]
  unfold addFile
  simp only [hwalk]

/-! ## `_addFile` -/

/-- Nothing but a container is made of a directory. -/
theorem createObjectFromFile_directory {f2i : Str → Except Exception Str}
    (hdir : w.stat path = .ok .directory) :
    ∃ obj, w.createObjectFromFile f2i path true false = .ok (some obj) ∧
      isCdsItem obj.objectType = false ∧ isCdsContainer obj.objectType = true := by
  refine ⟨{ upnpClass := some CdsObject.upnpDefaultClassContainer
            kind := .container 0 (-1) objectAutoscanNone }, ?_, by decide, by decide⟩
  unfold createObjectFromFile
  rw [hdir]
  rfl

theorem run_addEntry_directory (hdir : w.stat path = .ok .directory) (parentID : Int) :
    ∃ obj, (w.addEntry path parentID).run s = (.ok (some obj, parentID), s) ∧
      isCdsContainer obj.objectType = true := by
  obtain ⟨obj, hmade, hitem, hcontainer⟩ :=
    @createObjectFromFile_directory w path s.f2i hdir
  refine ⟨obj, ?_, hcontainer⟩
  unfold addEntry
  rw [run_get_bind, hmade, ofExcept_ok_bind]
  simp only
  rw [hitem]
  rfl

theorem importing_walkThrough {s₁ : StorageState} {new₁ : List ObjectRow} (habs : IsAbsolute path)
    (hne : pathNames path ≠ []) (fuel : Nat) (recursive : Bool) (found : Option CdsObject)
    (hadds : Adds R new₁ s s₁) (hrows : ∀ r ∈ new₁, w.IsRowOf path r ∨ w.Found hidden path r)
    (hfound : w.NoStale R → w.stat path = .ok .directory →
      ∃ obj, found = some obj ∧ isCdsContainer obj.objectType = true) :
    ∃ answer s' new, (w.walkThrough fuel path recursive hidden found).run s₁ = (answer, s') ∧
      Adds R new s s' ∧ (∀ r ∈ new, w.IsRowOf path r ∨ w.Found hidden path r) ∧
      ∀ id warnings, answer = .ok (id, warnings) → recursive = true → w.NoStale R →
        w.stat path = .ok .directory → ∀ q, w.Reached hidden path q →
        w.Accounts hidden (R ++ new) warnings q := by
  rcases found with _ | obj
  · refine ⟨.ok (invalidObjectID, []), s₁, new₁, rfl, hadds, hrows,
      fun id warnings _ _ hstale hdir => ?_⟩
    obtain ⟨obj, hobj, -⟩ := hfound hstale hdir
    cases hobj
  · rw [walkThrough]
    by_cases hwalk : (recursive && isCdsContainer obj.objectType) = true
    · rw [if_pos hwalk]
      obtain ⟨answer, s', new, hrun, hadds', hbelow, haccounts⟩ :=
        @importing_addRecursive w hidden fuel path habs hne _ s₁ hadds.importing
      have hrows' : ∀ r ∈ new₁ ++ new, w.IsRowOf path r ∨ w.Found hidden path r := by
        intro r hr
        rcases List.mem_append.mp hr with hr | hr
        · exact hrows r hr
        · exact Or.inr (hbelow r hr)
      rcases answer with e | warnings
      · exact ⟨.error e, s', _, run_bind_of_error hrun, hadds.trans hadds', hrows',
          fun id warnings hok => nomatch hok⟩
      · rw [run_bind_of_ok hrun]
        refine ⟨.ok (obj.id, warnings), s', _, rfl, hadds.trans hadds', hrows',
          fun id warnings' hok _ hstale _ => ?_⟩
        cases hok
        rw [← List.append_assoc]
        exact (haccounts warnings rfl (hstale.more (rows_of_turn hrows))).2
    · rw [if_neg hwalk]
      refine ⟨.ok (obj.id, []), s₁, new₁, rfl, hadds, hrows,
        fun id warnings _ hrec hstale hdir => ?_⟩
      obtain ⟨o, ho, hcontainer⟩ := hfound hstale hdir
      cases ho
      rw [hrec, hcontainer] at hwalk
      exact absurd rfl hwalk

/-- **`_addFile`**, however it ends; the path may have a separator at its end. -/
theorem importing_addFile (h : Importing R s) (habs : IsAbsolute path) (hne : pathNames path ≠ [])
    (fuel : Nat) (recursive : Bool) :
    ∃ answer s' new, (w.addFile fuel path recursive hidden).run s = (answer, s') ∧
      Adds R new s s' ∧ (∀ r ∈ new, w.IsRowOf path r ∨ w.Found hidden path r) ∧
      ∀ id warnings, answer = .ok (id, warnings) → recursive = true →
        (hidden = true ∨ (getFilename path).head? ≠ some '.'.toUInt8) → w.configFilename ≠ path →
        w.NoStale R → w.stat path = .ok .directory → ∀ q, w.Reached hidden path q →
        w.Accounts hidden (R ++ new) warnings q := by
  have hdirs := directoriesOf_pathNames habs
  obtain ⟨n, ns, hnames⟩ := List.exists_cons_of_ne_nil (mt List.reverse_eq_nil_iff.mp hne)
  have hns : ∀ k ∈ n :: ns, FileName k := fun k hk =>
    hdirs.fileNames k (List.mem_reverse.mp (hnames ▸ hk))
  -- a file has no separator at its end, and then it is a file that is looked for
  obtain ⟨loc, hloc, hkind, hfree⟩ : ∃ loc, pathLocation path = .ok loc ∧
      ((∃ d, loc = dirLocation d) ∨ loc = fileLocation (reduce dirSeparator path)) ∧
      ((∀ r ∈ R, matchesLocation loc r = false) → w.stat path = .ok .regular → IsFree R path) := by
    by_cases hlast : path.getLast? = some dirSeparator
    · obtain ⟨pre, hpre⟩ := List.getLast?_eq_some_iff.mp hlast
      have hreduce := reduce_directory habs hlast
      rw [hnames] at hreduce
      refine ⟨dirLocation (pathText (n :: ns)), ?_, Or.inl ⟨_, rfl⟩, fun _ hregular => ?_⟩
      · rw [← pathLocation_reduce, hreduce]
        exact pathLocation_directory hns
      · rw [hpre] at hregular
        exact absurd hregular (w.stat_separator pre)
    · have hreduce := reduce_path habs hlast
      rw [hnames] at hreduce
      refine ⟨_, pathLocation_file (hns n List.mem_cons_self) hreduce, Or.inr (by rw [hreduce]),
        fun hmissing _ => ?_⟩
      rw [← hreduce] at hmissing
      exact ⟨n, ns, hreduce, hns, hmissing⟩
  unfold addFile
  by_cases hdot : (!hidden && (getFilename path).head? = some '.'.toUInt8) = true
  · rw [if_pos hdot]
    refine ⟨_, s, [], rfl, .refl h, fun r hr => (nomatch hr), fun id warnings _ _ hvisible => ?_⟩
    rw [Bool.and_eq_true, Bool.not_eq_true', decide_eq_true_eq] at hdot
    rcases hvisible with hhidden | hname
    · rw [hdot.1] at hhidden
      cases hhidden
    · exact absurd hdot.2 hname
  · rw [if_neg hdot]
    by_cases hconfig : w.configFilename = path
    · rw [if_pos hconfig]
      exact ⟨_, s, [], rfl, .refl h, fun r hr => (nomatch hr),
        fun id warnings _ _ _ hother => absurd hconfig hother⟩
    · rw [if_neg hconfig]
      obtain ⟨found, s₁, hfind, hfinds⟩ := importing_findObjectByPath h hloc
      have hadds₁ := Adds.nothing hfinds.importing hfinds.kept hfinds.settles
      rcases found with e | _ | obj
      · exact ⟨.error e, s₁, [], run_bind_of_error hfind, hadds₁, fun r hr => (nomatch hr),
          fun id warnings hok => nomatch hok⟩
      · rw [run_bind_of_ok hfind]
        obtain ⟨made, s₂, new, hadd, hadds₂, hrows, -⟩ := @importing_addEntry w path R s₁
          hfinds.importing (hfree (hfinds.missing rfl)) invalidObjectID
        have hadds : Adds R new s s₂ := by
          have hadds := hadds₁.trans (by rw [List.append_nil]; exact hadds₂)
          exact hadds
        have hrows' : ∀ r ∈ new, w.IsRowOf path r ∨ w.Found hidden path r := fun r hr =>
          (hrows r hr).elim (fun hdir => Or.inr (Or.inl hdir)) Or.inl
        rcases made with e | ⟨o, id⟩
        · exact ⟨.error e, s₂, new, run_bind_of_error hadd, hadds, hrows',
            fun id warnings hok => nomatch hok⟩
        · rw [run_bind_of_ok hadd]
          have hobj : w.NoStale R → w.stat path = .ok .directory →
              ∃ obj, o = some obj ∧ isCdsContainer obj.objectType = true := by
            intro _ hdir
            obtain ⟨obj, hrun, hcontainer⟩ :=
              @run_addEntry_directory w path s₁ hdir invalidObjectID
            rw [hadd] at hrun
            cases hrun
            exact ⟨obj, rfl, hcontainer⟩
          obtain ⟨answer, s', new', hrun, hadds', hrows₂, haccounts⟩ :=
            importing_walkThrough habs hne fuel recursive o hadds hrows' hobj
          exact ⟨answer, s', new', hrun, hadds', hrows₂,
            fun id warnings hok hrec _ _ => haccounts id warnings hok hrec⟩
      · rw [run_bind_of_ok hfind]
        have hobj : w.NoStale R → w.stat path = .ok .directory →
            ∃ o, some obj = some o ∧ isCdsContainer o.objectType = true := by
          intro hstale hdir
          refine ⟨obj, rfl, ?_⟩
          rcases hkind with ⟨d, hd⟩ | hfile
          · exact (hfinds.directory obj d rfl hd).1
          · refine (hfinds.file obj _ rfl hfile).resolve_right ?_
            rintro ⟨r, hr, hmatch⟩
            rw [hfile, hstale path hdir r hr] at hmatch
            cases hmatch
        obtain ⟨answer, s', new', hrun, hadds', hrows₂, haccounts⟩ :=
          importing_walkThrough habs hne fuel recursive (some obj) hadds₁
            (fun r hr => (nomatch hr)) hobj
        exact ⟨answer, s', new', hrun, hadds', hrows₂,
          fun id warnings hok hrec _ _ => haccounts id warnings hok hrec⟩

end

end ImportSource

/-! ## Import after import -/

/-- Something is imported, from the files as they are then. -/
structure ImportCall where
  source : ImportSource
  path : Str
  recursive : Bool
  hidden : Bool

namespace ImportCall

/-- A path that the call looks at. -/
def Visits (call : ImportCall) (p : Str) : Prop :=
  p = call.path ∨ call.source.Reached call.hidden call.path p

/-- A row that the call adds. -/
def Imports (call : ImportCall) (r : ObjectRow) : Prop :=
  IsDirectoryRow r ∨ ∃ p, call.Visits p ∧ call.source.IsRowOf p r

/-- The call walks through a directory: it is one, and neither hidden nor the configuration. -/
def Enters (call : ImportCall) : Prop :=
  call.recursive = true ∧ call.source.stat call.path = .ok .directory ∧
    (call.hidden = true ∨ (getFilename call.path).head? ≠ some '.'.toUInt8) ∧
    call.source.configFilename ≠ call.path

end ImportCall

/-- The thread runs one task after the other, and what they throw is logged. -/
def runImports (fuel : Nat) : List ImportCall → StorageState → StorageState
  | [], s => s
  | call :: calls, s =>
    runImports fuel calls
      ((call.source.addFile fuel call.path call.recursive call.hidden).run s).2

section

variable {R : List ObjectRow} {s s' : StorageState} {db : Database} {fuel depth : Nat}
  {calls : List ImportCall} {call : ImportCall} {id : Int} {warnings : List ImportWarning}

/-- **Any number of imports.** -/
theorem importing_runImports
    (hcalls : ∀ call ∈ calls, IsAbsolute call.path ∧ pathNames call.path ≠ [])
    (h : Importing R s) : ∃ new, Adds R new s (runImports fuel calls s) ∧
      ∀ r ∈ new, ∃ call ∈ calls, call.Imports r := by
  induction calls generalizing R s with
  | nil => exact ⟨[], .refl h, fun r hr => nomatch hr⟩
  | cons call calls ih =>
    obtain ⟨habs, hne⟩ := hcalls call List.mem_cons_self
    obtain ⟨answer, s₁, new, hrun, hadds, hrows, -⟩ := @ImportSource.importing_addFile call.source
      call.hidden call.path R s h habs hne fuel call.recursive
    obtain ⟨more, hadds', hmore⟩ := ih (fun c hc => hcalls c (List.mem_cons_of_mem _ hc))
      hadds.importing
    rw [runImports, hrun]
    refine ⟨new ++ more, hadds.trans hadds', fun r hr => ?_⟩
    rcases List.mem_append.mp hr with hr | hr
    · refine ⟨call, List.mem_cons_self, ?_⟩
      rcases hrows r hr with hrow | hdir | ⟨p, hp, hrow⟩
      · exact Or.inr ⟨_, Or.inl rfl, hrow⟩
      · exact Or.inl hdir
      · exact Or.inr ⟨p, Or.inr hp, hrow⟩
    · obtain ⟨c, hc, himports⟩ := hmore r hr
      exact ⟨c, List.mem_cons_of_mem _ hc, himports⟩

theorem WellFiled.perm {rows : List ObjectRow} (h : WellFiled R) (hperm : rows.Perm R) :
    WellFiled rows := by
  have hmem : ∀ {r}, r ∈ rows → r ∈ R := fun hr => hperm.mem_iff.mp hr
  refine ⟨fun r hr => h.files r (hmem hr), fun r hr => h.directories r (hmem hr),
    fun r hr path hmatch => ?_, fun path => ?_, fun r hr => h.root r (hmem hr)⟩
  · obtain ⟨dir, name, hsplit, hdir⟩ := h.home r (hmem hr) path hmatch
    refine ⟨dir, name, hsplit, hdir.imp_right ?_⟩
    rintro ⟨d, hd, hmatch'⟩
    exact ⟨d, hperm.mem_iff.mpr hd, hmatch'⟩
  · rw [(hperm.filter _).length_eq]
    exact h.once path

/-- A storage that has just been started. -/
theorem importing_started (howned : ActiveItemsOwned db) (hloaded : cdsIdFsRoot ≤ db.maxID)
    (hfiled : WellFiled db.objects.rows) (cachingEnabled : Bool) (f2i : Str → Except Exception Str) :
    Importing db.objects.rows (.started db cachingEnabled f2i) := by
  have hsound := sound_started howned hloaded cachingEnabled f2i
  refine ⟨⟨⟨hsound, fun hon hnone => ?_, fun _ => rfl, fun _ => rfl, ?_⟩, fun c hc => ?_,
    fun c hc => ?_⟩,
    directoriesFiled_started db cachingEnabled f2i, hfiled⟩
  · have hcaching : cachingEnabled = true := hon
    rw [hcaching] at hnone
    cases hnone
  · exact List.Perm.of_eq (List.append_nil _)
  · rcases cachingEnabled with _ | _
    · cases hc
    · cases hc
      refine ⟨fun path ids hids => ?_, fun id cObj obj hget => ?_⟩
      · have hnone : StorageCache.empty.getObjects (fileLocation path) = none :=
          AList.lookup_empty _
        rw [hnone] at hids
        cases hids
      · rw [StorageCache.getObject_empty] at hget
        cases hget
  · rcases cachingEnabled with _ | _
    · cases hc
    · cases hc
      exact ⟨rfl, fun r hr => nomatch hr⟩

/-- `/m`, in it a file, a directory with one more, a file that is hidden and one of no known type. -/
def sampleType (path : Str) : Except Str FileType :=
  if path = str "/m" ∨ path = str "/m/" ∨ path = str "/m/s" ∨ path = str "/m/s/" then .ok .directory
  else if path = str "/m/a.mp3" ∨ path = str "/m/s/b.mp3" ∨ path = str "/m/.c.mp3" ∨
    path = str "/m/d" then .ok .regular
  else .error (str "No such file or directory")

/-- What a file gets at least: one resource. -/
def sampleMetadata (obj : CdsObject) : Except Exception CdsObject :=
  .ok { obj with resources := obj.resources ++ [
    { handlerType := 0
      attributes := Dictionary.put .empty (str "protocolInfo") (str "http-get:*:audio/mpeg:*")
      parameters := .empty
      options := .empty }] }

def sampleSource : ImportSource where
  stat path := sampleType (reduce dirSeparator path)
  readdir path :=
    if reduce dirSeparator path = str "/m" then
      .ok [str ".", str "..", str "a.mp3", str "s", str ".c.mp3", str "d"]
    else if reduce dirSeparator path = str "/m/s" then .ok [str "b.mp3"]
    else .error (str "No such file or directory")
  configFilename := str "/etc/config.xml"
  extensionMimetypeMap := some (Dictionary.put .empty (str "mp3") (str "audio/mpeg"))
  extensionMapCaseSensitive := false
  ignoreUnknownExtensions := true
  getMimeType _ := none
  mimetypeUpnpclassMap := some (Dictionary.put .empty (str "audio/*") upnpDefaultClassMusicTrack)
  mimetypeContenttypeMap := .empty
  isTheora _ := .ok false
  setMetadata := sampleMetadata
  stat_reduce path := by rw [reduce_reduce]
  stat_separator path := by
    intro hregular
    have hlast : (reduce dirSeparator (path ++ [dirSeparator])).getLast? = some dirSeparator :=
      (getLast?_reduce _ _).trans (getLast?_snoc _ _)
    generalize reduce dirSeparator (path ++ [dirSeparator]) = p at hregular hlast
    unfold sampleType at hregular
    split at hregular
    · cases hregular
    · split at hregular
      · next hfile =>
        rcases hfile with rfl | rfl | rfl | rfl
        · exact absurd hlast (by decide)
        · exact absurd hlast (by decide)
        · exact absurd hlast (by decide)
        · exact absurd hlast (by decide)
      · cases hregular
  readdir_names path names hnames := by
    have hgood : ∀ n : Str, n ≠ [] ∧ dirSeparator ∉ n → FileName n := fun n h => ⟨h.1, h.2⟩
    split at hnames
    · cases hnames
      exact ⟨by decide, fun n hn => hgood n ((by decide :
        ∀ n ∈ [str ".", str "..", str "a.mp3", str "s", str ".c.mp3", str "d"],
          n ≠ [] ∧ dirSeparator ∉ n) n hn)⟩
    · split at hnames
      · cases hnames
        exact ⟨by decide, fun n hn => hgood n ((by decide :
          ∀ n ∈ [str "b.mp3"], n ≠ [] ∧ dirSeparator ∉ n) n hn)⟩
      · cases hnames
  readdir_directory path names hnames := by
    split at hnames
    · next hdir => rw [hdir]; rfl
    · split at hnames
      · next hdir => rw [hdir]; rfl
      · cases hnames
  setMetadata_file obj obj' h := by
    cases h
    exact ⟨rfl, rfl, rfl, rfl, rfl, fun data hkind => ⟨data, hkind⟩⟩

/-- The schema's own rows have no location. -/
theorem wellFiled_fresh : WellFiled Database.fresh.objects.rows := by
  have hnone : ∀ r ∈ Database.fresh.objects.rows, r.location = none := by decide
  have hno : ∀ loc, ∀ r ∈ Database.fresh.objects.rows, matchesLocation loc r = true → False := by
    intro loc r hr hmatch
    unfold matchesLocation at hmatch
    rw [hnone r hr, Bool.and_eq_true, Bool.and_eq_true, decide_eq_true_iff, decide_eq_true_iff]
      at hmatch
    exact nomatch hmatch.1.2
  refine ⟨fun r hr path h => (hno _ r hr h).elim, fun r hr path h => (hno _ r hr h).elim,
    fun r hr path h => (hno _ r hr h).elim, fun path => ?_, by decide⟩
  have hempty : Database.fresh.objects.rows.filter (matchesLocation (fileLocation path)) = [] :=
    List.filter_eq_nil_iff.mpr fun r hr h => hno _ r hr h
  rw [hempty]
  exact Nat.zero_le 1

def sampleCalls : List ImportCall :=
  [⟨sampleSource, str "/m", true, false⟩, ⟨sampleSource, str "//m", true, false⟩,
    ⟨sampleSource, str "/m/a.mp3", false, false⟩]

example : (runImports 3 sampleCalls (.started .fresh true .ok)).rows.map ObjectRow.location =
    [none, none, none, some (dirLocation (str "/m")), some (dirLocation (str "/m/s")),
      some (fileLocation (str "/m/a.mp3")), some (fileLocation (str "/m/s/b.mp3"))] := by
  decide +kernel

/-! ### What a walk leaves out -/

/-- What is stored at no place has no row there. -/
theorem Importing.noStale {w : ImportSource} (h : Importing R s)
    (hstale : ∀ p, w.stat p = .ok .directory → s.filesAt (reduce dirSeparator p) = []) :
    w.NoStale R := by
  intro p hdir r hr
  rw [Bool.eq_false_iff]
  intro hmatch
  have hin : r ∈ s.filesAt (reduce dirSeparator p) :=
    List.mem_filter.mpr ⟨h.ready.rows.mem_iff.mpr hr, hmatch⟩
  rw [hstale p hdir] at hin
  cases hin

/-- In the sample there is one directory below `/m`, and none in that. -/
theorem sampleSource_shallow : sampleSource.Shallow false 3 (str "/m") := by
  have hnone : ∀ p q : Str, reduce dirSeparator p ≠ str "/m" → reduce dirSeparator p ≠ str "/m/s" →
      ¬ sampleSource.Entry false p q := by
    rintro p q hm hs ⟨name, names, hread, -⟩
    have hfail : sampleSource.readdir p = .error (str "No such file or directory") := by
      show (if _ then _ else _) = _
      rw [if_neg hm, if_neg hs]
    rw [hfail] at hread
    cases hread
  rintro p ⟨name, names, hread, hname, hkeep, -, rfl⟩ q hq
  obtain rfl : [str ".", str "..", str "a.mp3", str "s", str ".c.mp3", str "d"] = names :=
    Except.ok.inj hread
  simp only [List.mem_cons, List.not_mem_nil, or_false] at hname
  rcases hname with rfl | rfl | rfl | rfl | rfl | rfl
  · exact absurd hkeep (by decide)
  · exact absurd hkeep (by decide)
  · exact absurd hq (hnone _ q (by decide) (by decide))
  · obtain ⟨name, names, hread, hname, -, -, rfl⟩ := hq
    obtain rfl : [str "b.mp3"] = names := Except.ok.inj hread
    obtain rfl := List.mem_singleton.mp hname
    exact fun r hr => hnone _ r (by decide) (by decide) hr
  · exact absurd hkeep (by decide)
  · exact absurd hq (hnone _ q (by decide) (by decide))

def sampleFirst : List ImportCall := [⟨sampleSource, str "/m/a.mp3", false, false⟩]

end

end MediaTomb
