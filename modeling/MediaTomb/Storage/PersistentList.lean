/-
  The persistent autoscans of a scan mode, merged with the list of the configuration.

  `updateAutoscanPersistentList` MARKS the persistent rows of the mode, updates or adds a row for
  each entry of the list, and SWEEPS the rows that are still marked.

  DATA     a row belongs to the directory whose object it has, or, without an object, to the one at
           its location (`IsRowOf`).
  PROGRAM  an entry looks for its row by the object of its directory, or by the location where there
           is no such object (`Database.finds`), NEVER by both; an update writes the object the entry
           carries, an INSERT the one that is looked up.
  RESULT   `updateAutoscanPersistentList_iff`: the list and the rows of the mode correspond, exactly
           if what an entry finds is the row of its directory, and it carries what it is to write.
-/
import MediaTomb.Lib.Merge
import MediaTomb.Storage.AutoscanLookup

namespace MediaTomb

open Lib.Prog
open Lib.Merge (Puts Merges Apart)

/-! ## What the call is for -/

/-- The row of the directory at a location. -/
def IsRowOf (db : Database) (location : Str) (a : AutoscanRow) : Prop :=
  (∃ i, directoryAt db location = some i ∧ a.objID = some i) ∨
    a.objID = none ∧ a.location = some location

/-- The row an entry is to leave, where the tables were `db`. -/
structure EntryMerged (db : Database) (ad : AutoscanDirectory) (a : AutoscanRow) : Prop where
  object : a.objID = directoryAt db ad.location
  location : a.objID = none → a.location = some ad.location
  level : a.scanLevel = ad.level
  recursive : a.recursive = ad.recursive
  hidden : a.hidden = ad.hidden
  interval : a.interval = ad.interval
  lastModified : ∀ b ∈ db.autoscans.rows, IsRowOf db ad.location b → a.lastModified = b.lastModified

/-- **What the call is to leave**: one persistent row of the mode for each entry, and the rows of
    other directories that are not persistent. -/
structure ListMerged (scanmode : ScanMode) (list : List AutoscanDirectory) (s s' : StorageState) :
    Prop where
  entries : ∃ rows : List AutoscanRow,
    rows.Perm (s'.db.selectAutoscans fun a => a.persistent && a.scanMode = scanmode) ∧
      List.Forall₂ (EntryMerged s.db) list rows
  others : ∀ b ∈ s.db.autoscans.rows, b.persistent = false →
    (∀ ad ∈ list, ¬ IsRowOf s.db ad.location b) → b ∈ s'.db.autoscans.rows

/-- **The tables and the list**: a row has an object or a location, and a directory one row at most;
    the entries are persistent, of the mode and at distinct locations, and carry the object of their
    directory or none. -/
structure PersistentListInput (scanmode : ScanMode) (list : List AutoscanDirectory)
    (s : StorageState) : Prop where
  ready : DirectoriesReady s
  root : ∀ i, storedAt s.db [dirSeparator] = some i → i = cdsIdFsRoot
  keyed : ∀ a ∈ s.db.autoscans.rows, a.objID ≠ none → a.location = none
  single : ∀ location, ∀ a ∈ s.db.autoscans.rows, ∀ b ∈ s.db.autoscans.rows,
    IsRowOf s.db location a → IsRowOf s.db location b → a = b
  entries : ∀ ad ∈ list, ad.persistent = true ∧ ad.mode = scanmode
  locations : (list.map AutoscanDirectory.location).Nodup
  objects : ∀ ad ∈ list, ad.objectID = invalidObjectID ∨
    directoryAt s.db ad.location = some ad.objectID

/-! ## What an entry finds and writes -/

/-- The SELECT of an entry gives the row. -/
def Database.finds (db : Database) (ad : AutoscanDirectory) (a : AutoscanRow) : Bool :=
  if storedAt db ad.location = none then a.location = some ad.location
  else a.objID = storedAt db ad.location

/-- The row an entry writes, from those it finds. -/
def Database.writes (db : Database) (ad : AutoscanDirectory) (found : AutoscanRow → Prop)
    (a : AutoscanRow) : Prop :=
  (∃ b, found b ∧ ∃ pathIds, a = updatedAutoscan ad pathIds b) ∨
    (∀ b, ¬ found b) ∧ ∃ pathIds id,
      a = newAutoscan ad ((directoryAt db ad.location).getD invalidObjectID) pathIds id

/-- **When the list is merged**, on the tables before the call. -/
structure FindsTheirRows (scanmode : ScanMode) (list : List AutoscanDirectory) (db : Database) :
    Prop where
  /-- No two entries name one object. -/
  directories : list.Pairwise fun ad ad' =>
    ∀ i, directoryAt db ad.location = some i → directoryAt db ad'.location ≠ some i
  ids : ∀ ad ∈ list, ∀ i, directoryAt db ad.location = some i → 0 ≤ i
  /-- An entry that updates a row carries the object of its directory. -/
  object : ∀ ad ∈ list, ∀ b ∈ db.autoscans.rows, db.finds ad b = true →
    ∀ i, directoryAt db ad.location = some i → ad.objectID = i
  /-- An entry finds the row of its directory and has not been scanned, or brings the same time. -/
  lastModified : ∀ ad ∈ list, ∀ b ∈ db.autoscans.rows, IsRowOf db ad.location b →
    db.finds ad b = true ∧ ad.previousLMT ≤ 0 ∨ ad.previousLMT = b.lastModified
  /-- No row that is not persistent has been left marked. -/
  touched : ∀ b ∈ db.autoscans.rows, b.persistent = false → b.scanMode = scanmode →
    (∀ ad ∈ list, ¬ IsRowOf db ad.location b) → b.touched = true

section

variable {db db' d : Database} {s s' : StorageState} {ad ad' : AutoscanDirectory}
  {a b : AutoscanRow} {i : Int} {found : AutoscanRow → Prop}

theorem objIDColumn_eq_some : objIDColumn i = some i ↔ 0 ≤ i := by
  unfold objIDColumn
  split
  · next h => exact ⟨fun _ => h, fun _ => rfl⟩
  · next h => exact ⟨fun heq => (nomatch heq), fun hi => absurd hi h⟩

theorem objIDColumn_invalid : objIDColumn invalidObjectID = none := if_neg (by decide)

theorem mem_objIDColumn {j : Int} (h : objIDColumn i = some j) : i = j ∧ 0 ≤ i := by
  unfold objIDColumn at h
  split at h
  · next hi => exact ⟨Option.some.inj h, hi⟩
  · cases h

theorem SameDirectories.directoryAt_eq (h : SameDirectories db db') (location : Str) :
    directoryAt db' location = directoryAt db location := by
  unfold directoryAt
  rw [h.storedAt_eq]

theorem SameDirectories.finds_eq (h : SameDirectories db db') : db'.finds = db.finds := by
  funext ad a
  unfold Database.finds
  rw [h.storedAt_eq]

theorem SameDirectories.writes_eq (h : SameDirectories db db') : db'.writes = db.writes := by
  funext ad found a
  unfold Database.writes
  rw [h.directoryAt_eq]

theorem finds_missing (h : storedAt db ad.location = none) :
    db.finds ad a = true ↔ a.location = some ad.location := by
  unfold Database.finds
  rw [if_pos h, decide_eq_true_eq]

theorem finds_stored (h : storedAt db ad.location = some i) :
    db.finds ad a = true ↔ a.objID = some i := by
  unfold Database.finds
  rw [h, if_neg (Option.some_ne_none i), decide_eq_true_eq]

/-- The SELECT of the source. -/
theorem mem_autoscanOf : a ∈ autoscanOf ad ((storedAt db ad.location).getD invalidObjectID) s.db ↔
    a ∈ s.db.autoscans.rows ∧ db.finds ad a = true := by
  unfold autoscanOf Database.selectAutoscans
  rw [List.mem_filter]
  rcases hstored : storedAt db ad.location with _ | i
  · rw [Option.getD_none, if_pos rfl, finds_missing hstored, decide_eq_true_eq]
  · have hne : i ≠ invalidObjectID := by
      rintro rfl
      exact storedAt_ne_invalid hstored
    rw [Option.getD_some, if_neg hne, finds_stored hstored, decide_eq_true_eq]

/-! ## What is written -/

/-- What an entry writes is of its directory. -/
theorem writes_objID (hobject : ad.objectID = invalidObjectID ∨
    directoryAt db ad.location = some ad.objectID) (h : db.writes ad found a)
    (hi : a.objID = some i) : directoryAt db ad.location = some i := by
  rcases h with ⟨b, -, pathIds, rfl⟩ | ⟨-, pathIds, id, rfl⟩
  · obtain ⟨rfl, hpos⟩ := mem_objIDColumn hi
    rcases hobject with hinvalid | hdir
    · rw [hinvalid] at hpos
      exact absurd hpos (by decide)
    · exact hdir
  · obtain ⟨hid, hpos⟩ := mem_objIDColumn hi
    rcases hdir : directoryAt db ad.location with _ | j
    · rw [hdir] at hpos
      exact absurd hpos (by decide)
    · rw [hdir] at hid
      exact congrArg some hid

theorem writes_location {location : Str} (h : db.writes ad found a)
    (hlocation : a.location = some location) : ad.location = location := by
  have hif : ∀ j : Int, (if 0 ≤ j then none else some ad.location) = some location →
      ad.location = location := by
    intro j hj
    split at hj
    · cases hj
    · exact Option.some.inj hj
  rcases h with ⟨b, -, pathIds, rfl⟩ | ⟨-, pathIds, id, rfl⟩
  · exact hif _ hlocation
  · exact hif _ hlocation

theorem writes_row (h : db.writes ad found a) :
    a.persistent = ad.persistent ∧ a.scanMode = ad.mode ∧ a.touched = true := by
  rcases h with ⟨b, -, pathIds, rfl⟩ | ⟨-, pathIds, id, rfl⟩
  · exact ⟨rfl, rfl, rfl⟩
  · exact ⟨rfl, rfl, rfl⟩

/-! ## Entries apart -/

/-- The entries name two directories. -/
structure OtherDirectory (db : Database) (ad ad' : AutoscanDirectory) : Prop where
  location : ad.location ≠ ad'.location
  object : ∀ i, directoryAt db ad.location = some i → directoryAt db ad'.location ≠ some i

instance (db : Database) : Std.Symm (OtherDirectory db) :=
  ⟨fun _ _ h => ⟨h.location.symm, fun i hi hi' => h.object i hi' hi⟩⟩

/-- What is stored at the location of a directory is its object. -/
theorem directoryAt_of_stored (hroot : ∀ i, storedAt db [dirSeparator] = some i → i = cdsIdFsRoot)
    {location : Str} (h : storedAt db location = some i) : directoryAt db location = some i := by
  unfold directoryAt
  split
  · next hloc =>
    rw [hloc] at h
    rw [hroot i h]
  · exact h

/-- Entries of two directories neither find one row, nor does one find what the other writes. -/
theorem OtherDirectory.apart (h : OtherDirectory db ad ad')
    (hroot : ∀ i, storedAt db [dirSeparator] = some i → i = cdsIdFsRoot)
    (hobject : ad.objectID = invalidObjectID ∨ directoryAt db ad.location = some ad.objectID)
    {rows : List AutoscanRow} (hkeyed : ∀ b ∈ rows, b.objID ≠ none → b.location = none) :
    Apart db.finds db.writes rows ad ad' := by
  refine ⟨fun b hb hfinds => ?_, fun found a hwrites => ?_⟩
  · rw [← Bool.not_eq_true]
    intro hfinds'
    have hboth : b.objID ≠ none → b.location ≠ none → False :=
      fun hobj hloc => hloc (hkeyed b hb hobj)
    rcases hstored : storedAt db ad.location with _ | i
    · have hloc := (finds_missing hstored).mp hfinds
      rcases hstored' : storedAt db ad'.location with _ | j
      · have hloc' := (finds_missing hstored').mp hfinds'
        exact h.location (Option.some.inj (hloc.symm.trans hloc'))
      · have hobj := (finds_stored hstored').mp hfinds'
        exact hboth (by rw [hobj]; exact Option.some_ne_none j)
          (by rw [hloc]; exact Option.some_ne_none _)
    · have hobj := (finds_stored hstored).mp hfinds
      rcases hstored' : storedAt db ad'.location with _ | j
      · have hloc := (finds_missing hstored').mp hfinds'
        exact hboth (by rw [hobj]; exact Option.some_ne_none i)
          (by rw [hloc]; exact Option.some_ne_none _)
      · have hobj' := (finds_stored hstored').mp hfinds'
        rw [hobj] at hobj'
        rw [← hobj'] at hstored'
        exact h.object i (directoryAt_of_stored hroot hstored)
          (directoryAt_of_stored hroot hstored')
  · rw [← Bool.not_eq_true]
    intro hfinds'
    rcases hstored' : storedAt db ad'.location with _ | j
    · exact h.location (writes_location hwrites ((finds_missing hstored').mp hfinds'))
    · exact h.object j (writes_objID hobject hwrites ((finds_stored hstored').mp hfinds'))
        (directoryAt_of_stored hroot hstored')

/-! ## One entry -/

/-- **An entry** that is merged takes out the row it finds, and puts its own in. -/
theorem updatePersistentAutoscan_puts (h : DirectoriesReady s)
    (hone : ∀ b ∈ s.db.autoscans.rows, ∀ c ∈ s.db.autoscans.rows, s.db.finds ad b = true →
      s.db.finds ad c = true → c = b)
    (hrun : (updatePersistentAutoscan ad).run s = (.ok (), s')) :
    (DirectoriesReady s' ∧ SameDirectories s.db s'.db) ∧
      ∃ a, Puts s.db.finds s.db.writes ad s.db.autoscans.rows s'.db.autoscans.rows a := by
  unfold updatePersistentAutoscan at hrun
  split at hrun
  · cases hrun
  obtain ⟨objectID, s₁, hloc, hrun⟩ := bind_ok hrun
  obtain ⟨h₁, hsame₁⟩ := h.lookup hloc
  have hid := (findDirectoryID_ok h hloc).1
  have haut : s₁.db.autoscans = s.db.autoscans :=
    (Settles.of_run (holds_findObjectIDByPath querySections_settling _) hloc).autoscans
  simp only [select, run_read_bind] at hrun
  rw [hid] at hrun
  split at hrun
  · next row rows hrows =>
    have hin : row ∈ autoscanOf ad ((storedAt s.db ad.location).getD invalidObjectID) s₁.db := by
      rw [hrows]
      exact List.mem_cons_self
    obtain ⟨hmem, hfinds⟩ := mem_autoscanOf.mp hin
    rw [haut] at hmem
    obtain ⟨⟨h', hsame'⟩, pathIds, hafter⟩ := h₁.update hrun
    rw [haut] at hafter
    refine ⟨⟨h', hsame₁.trans hsame'⟩, updatedAutoscan ad pathIds row, ?_⟩
    exact .update s.db.autoscans.nodup hmem hfinds (fun c hc => hone row hmem c hc hfinds)
      (.inl ⟨row, ⟨hmem, hfinds⟩, pathIds, rfl⟩) hafter
  · next hnil =>
    obtain ⟨storageID, s₂, hadd, hret⟩ := bind_ok hrun
    cases hret
    obtain ⟨⟨h', hsame'⟩, pathIds, id, hafter⟩ := h₁.add hadd
    rw [haut, hsame₁.directoryAt_eq] at hafter
    have hnone : ∀ c ∈ s.db.autoscans.rows, s.db.finds ad c = false := by
      intro c hc
      rw [← Bool.not_eq_true]
      intro hfinds
      rw [← haut] at hc
      have hmem := @mem_autoscanOf s.db s₁ ad c
      rw [hnil] at hmem
      exact absurd (hmem.mpr ⟨hc, hfinds⟩) List.not_mem_nil
    refine ⟨⟨h', hsame₁.trans hsame'⟩, _, .insert hnone (.inr ⟨?_, pathIds, id, rfl⟩) hafter⟩
    rintro c ⟨hc, hfinds⟩
    rw [hnone c hc] at hfinds
    cases hfinds

/-! ## The list -/

theorem updatePersistentAutoscans_merges : ∀ (list : List AutoscanDirectory) (s s' : StorageState),
    DirectoriesReady s → SameDirectories d s.db →
    list.Pairwise (Apart d.finds d.writes s.db.autoscans.rows) →
    (∀ ad ∈ list, ∀ b ∈ s.db.autoscans.rows, ∀ c ∈ s.db.autoscans.rows, d.finds ad b = true →
      d.finds ad c = true → c = b) →
    (updatePersistentAutoscans list).run s = (.ok (), s') →
    ∃ written, Merges d.finds d.writes list s.db.autoscans.rows written s'.db.autoscans.rows := by
  intro list
  induction list with
  | nil =>
    intro s s' _ _ _ _ hrun
    cases hrun
    exact ⟨[], .nil⟩
  | cons ad list ih =>
    intro s s' h hsame hapart hone hrun
    obtain ⟨hfirst, hrest⟩ := List.pairwise_cons.mp hapart
    unfold updatePersistentAutoscans at hrun
    obtain ⟨⟨⟩, s₁, helement, hrun⟩ := bind_ok hrun
    have hputs := @updatePersistentAutoscan_puts s s₁ ad h
    rw [hsame.finds_eq, hsame.writes_eq] at hputs
    obtain ⟨⟨h₁, hsame₁⟩, a, hput⟩ := hputs (hone ad List.mem_cons_self) helement
    have hnew : ∀ ad' ∈ list, d.finds ad' a = false :=
      fun ad' had' => (hfirst ad' had').written _ a hput.written
    obtain ⟨written, hmerges⟩ := ih s₁ s' h₁ (hsame.trans hsame₁)
      (hrest.imp_of_mem fun had' _ => hput.apart (hnew _ had')) (fun ad' had' b hb c hc hfb hfc => by
        have hold : ∀ c ∈ s₁.db.autoscans.rows, d.finds ad' c = true → c ∈ s.db.autoscans.rows := by
          intro c hc hfound
          rcases hput.mem hc with rfl | ⟨hc, -⟩
          · rw [hnew ad' had'] at hfound
            cases hfound
          · exact hc
        exact hone ad' (List.mem_cons_of_mem _ had') b (hold b hb hfb) c (hold c hc hfc) hfb hfc)
      hrun
    exact ⟨a :: written, .cons hput hmerges⟩

/-! ## Mark and sweep -/

/-- The mark at the start. -/
def markAutoscan (scanmode : ScanMode) (a : AutoscanRow) : AutoscanRow :=
  if a.persistent && a.scanMode = scanmode then { a with touched := false } else a

/-- No entry finds the row, and the sweep leaves it. -/
def staysAutoscan (scanmode : ScanMode) (list : List AutoscanDirectory) (db : Database)
    (b : AutoscanRow) : Bool :=
  !(list.any fun ad => db.finds ad b) && !(b.scanMode = scanmode && (b.persistent || !b.touched))

variable {scanmode : ScanMode} {list : List AutoscanDirectory}

theorem markAutoscan_key : (markAutoscan scanmode a).objID = a.objID ∧
    (markAutoscan scanmode a).location = a.location := by
  unfold markAutoscan
  split
  · exact ⟨rfl, rfl⟩
  · exact ⟨rfl, rfl⟩

theorem finds_mark : db.finds ad (markAutoscan scanmode a) = db.finds ad a := by
  unfold Database.finds
  rw [markAutoscan_key.1, markAutoscan_key.2]

/-- An update does not see the mark. -/
theorem updatedAutoscan_mark (pathIds : Option (List Int)) :
    updatedAutoscan ad pathIds (markAutoscan scanmode a) = updatedAutoscan ad pathIds a := by
  unfold markAutoscan
  split
  · rfl
  · rfl

/-- What an entry finds is the row of its directory. -/
theorem PersistentListInput.isRowOf (h : PersistentListInput scanmode list s)
    (hb : b ∈ s.db.autoscans.rows) (hfinds : s.db.finds ad b = true) :
    IsRowOf s.db ad.location b := by
  rcases hstored : storedAt s.db ad.location with _ | i
  · have hloc := (finds_missing hstored).mp hfinds
    refine .inr ⟨?_, hloc⟩
    by_contra hobj
    rw [h.keyed b hb hobj] at hloc
    cases hloc
  · exact .inl ⟨i, directoryAt_of_stored h.root hstored, (finds_stored hstored).mp hfinds⟩

/-- What an entry writes from the marked rows it writes from those before. -/
theorem writes_mark {rows : List AutoscanRow}
    (h : db.writes ad (fun b => b ∈ rows.map (markAutoscan scanmode) ∧ db.finds ad b = true) a) :
    db.writes ad (fun b => b ∈ rows ∧ db.finds ad b = true) a := by
  rcases h with ⟨b, ⟨hb, hfinds⟩, pathIds, rfl⟩ | ⟨hnone, hnew⟩
  · obtain ⟨b₀, hb₀, rfl⟩ := List.mem_map.mp hb
    rw [finds_mark] at hfinds
    exact .inl ⟨b₀, ⟨hb₀, hfinds⟩, pathIds, updatedAutoscan_mark pathIds⟩
  · refine .inr ⟨?_, hnew⟩
    rintro b ⟨hb, hfinds⟩
    refine hnone (markAutoscan scanmode b) ⟨List.mem_map_of_mem hb, ?_⟩
    rwa [finds_mark]

/-- What the sweep leaves of the rows that no entry has found. -/
theorem swept_unfound (rows : List AutoscanRow) :
    ((rows.map (markAutoscan scanmode)).filter fun b => !list.any fun ad => db.finds ad b).filter
        (fun a => !(!a.touched && a.scanMode = scanmode)) =
      rows.filter (staysAutoscan scanmode list db) := by
  have hstays : ∀ b : AutoscanRow,
      (!(!(markAutoscan scanmode b).touched && (markAutoscan scanmode b).scanMode = scanmode) &&
        !list.any fun ad => db.finds ad (markAutoscan scanmode b)) =
        staysAutoscan scanmode list db b := by
    intro b
    simp only [finds_mark]
    unfold staysAutoscan markAutoscan
    rw [Bool.and_comm]
    congr 1
    rcases hpersistent : b.persistent with _ | _
    · simp only [Bool.false_and, if_neg Bool.false_ne_true, Bool.false_or, Bool.and_comm]
    · by_cases hmode : b.scanMode = scanmode
      · simp [hmode]
      · simp [hmode]
  rw [List.filter_filter, List.filter_map]
  have hfilter : rows.filter ((fun a => !(!a.touched && a.scanMode = scanmode) &&
      !list.any fun ad => db.finds ad a) ∘ markAutoscan scanmode) =
        rows.filter (staysAutoscan scanmode list db) :=
    List.filter_congr fun b _ => hstays b
  rw [hfilter]
  conv_rhs => rw [← List.map_id (rows.filter (staysAutoscan scanmode list db))]
  refine List.map_congr_left fun b hb => ?_
  -- a row that stays has no mark
  obtain ⟨-, hb⟩ := List.mem_filter.mp hb
  unfold staysAutoscan at hb
  unfold markAutoscan
  refine if_neg fun hmark => ?_
  obtain ⟨hpersistent, hmode⟩ := (Bool.and_eq_true _ _).mp hmark
  rw [hpersistent, hmode] at hb
  simp at hb

/-- **The rows after the call**, where no two entries name one directory: one for each entry, and
    the old ones that stay. -/
theorem updateAutoscanPersistentList_rows (hin : PersistentListInput scanmode list s)
    (hdist : list.Pairwise (OtherDirectory s.db))
    (hrun : (updateAutoscanPersistentList scanmode list).run s = (.ok (), s')) :
    ∃ written, List.Forall₂ (fun ad a =>
        s.db.writes ad (fun b => b ∈ s.db.autoscans.rows ∧ s.db.finds ad b = true) a) list written ∧
      s'.db.autoscans.rows.Perm
        (written ++ s.db.autoscans.rows.filter (staysAutoscan scanmode list s.db)) := by
  obtain ⟨db, huntouch, hrows, hobj, hact⟩ := run_untouchAutoscans scanmode s
  have hmarked : db.autoscans.rows = s.db.autoscans.rows.map (markAutoscan scanmode) := hrows
  have hsame : SameObjects s.db db := ⟨by rw [hobj], hact⟩
  have hkeyed : ∀ b ∈ db.autoscans.rows, b.objID ≠ none → b.location = none := by
    intro b hb
    rw [hmarked] at hb
    obtain ⟨b₀, hb₀, rfl⟩ := List.mem_map.mp hb
    rw [markAutoscan_key.1, markAutoscan_key.2]
    exact hin.keyed b₀ hb₀
  have hone : ∀ ad ∈ list, ∀ b ∈ db.autoscans.rows, ∀ c ∈ db.autoscans.rows,
      s.db.finds ad b = true → s.db.finds ad c = true → c = b := by
    intro ad _ b hb c hc hfb hfc
    rw [hmarked] at hb hc
    obtain ⟨b₀, hb₀, rfl⟩ := List.mem_map.mp hb
    obtain ⟨c₀, hc₀, rfl⟩ := List.mem_map.mp hc
    rw [finds_mark] at hfb hfc
    rw [hin.single ad.location c₀ hc₀ b₀ hb₀ (hin.isRowOf hc₀ hfc) (hin.isRowOf hb₀ hfb)]
  unfold updateAutoscanPersistentList at hrun
  rw [run_bind_of_ok huntouch] at hrun
  obtain ⟨⟨⟩, s₁, hlist, hsweep⟩ := bind_ok hrun
  have hready : DirectoriesReady ({ s with db := db } : StorageState) := hin.ready.sameObjects hsame
  obtain ⟨written, hmerges⟩ := @updatePersistentAutoscans_merges s.db list { s with db := db } s₁
    hready hsame.directories
    (hdist.imp_of_mem fun had _ hother => hother.apart hin.root (hin.objects _ had) hkeyed)
    hone hlist
  obtain ⟨hwritten, hperm⟩ := hmerges.result
    (hdist.imp_of_mem fun had _ hother => hother.apart hin.root (hin.objects _ had) hkeyed)
  simp only [hmarked] at hwritten hperm
  have hwritten' := hwritten.imp fun ad a h => writes_mark h
  refine ⟨written, hwritten', ?_⟩
  cases hsweep
  have hkept : (written.filter fun a => !(!a.touched && a.scanMode = scanmode)) = written := by
    refine List.filter_eq_self.mpr fun a ha => ?_
    obtain ⟨ad, -, hwrites⟩ := Lib.Merge.exists_left hwritten' ha
    rw [(writes_row hwrites).2.2]
    rfl
  have hfinal := hperm.filter fun a => !(!a.touched && a.scanMode = scanmode)
  rw [List.filter_append, hkept, swept_unfound] at hfinal
  exact hfinal

/-! ## When the list is merged -/

/-- What the entries leave. -/
structure EntriesWritten (scanmode : ScanMode) (list : List AutoscanDirectory) (s s' : StorageState)
    (written : List AutoscanRow) : Prop where
  rows : List.Forall₂ (fun ad a =>
    s.db.writes ad (fun b => b ∈ s.db.autoscans.rows ∧ s.db.finds ad b = true) a) list written
  perm : s'.db.autoscans.rows.Perm
    (written ++ s.db.autoscans.rows.filter (staysAutoscan scanmode list s.db))

variable {written : List AutoscanRow}

/-- The persistent rows of the mode are those the entries have written. -/
theorem EntriesWritten.persistent (h : EntriesWritten scanmode list s s' written)
    (hin : PersistentListInput scanmode list s) :
    (s'.db.selectAutoscans fun a => a.persistent && a.scanMode = scanmode).Perm written := by
  have hkept : (written.filter fun a => a.persistent && a.scanMode = scanmode) = written := by
    refine List.filter_eq_self.mpr fun a ha => ?_
    obtain ⟨ad, had, hwrites⟩ := Lib.Merge.exists_left h.rows ha
    obtain ⟨hpersistent, hmode, -⟩ := writes_row hwrites
    obtain ⟨hentry, hentryMode⟩ := hin.entries ad had
    rw [hpersistent, hmode, hentry, hentryMode]
    simp
  have hnone : ((s.db.autoscans.rows.filter (staysAutoscan scanmode list s.db)).filter
      fun a => a.persistent && a.scanMode = scanmode) = [] := by
    refine List.filter_eq_nil_iff.mpr fun b hb hboth => ?_
    obtain ⟨-, hstays⟩ := List.mem_filter.mp hb
    obtain ⟨hpersistent, hmode⟩ := (Bool.and_eq_true _ _).mp hboth
    unfold staysAutoscan at hstays
    rw [hpersistent, hmode] at hstays
    simp at hstays
  have hfilter := h.perm.filter fun a => a.persistent && a.scanMode = scanmode
  rw [List.filter_append, hkept, hnone, List.append_nil] at hfilter
  exact hfilter

/-- The row an entry has written is as it should be. -/
theorem entryMerged_of_writes (hin : PersistentListInput scanmode list s)
    (hcond : FindsTheirRows scanmode list s.db) (had : ad ∈ list)
    (h : s.db.writes ad (fun b => b ∈ s.db.autoscans.rows ∧ s.db.finds ad b = true) a) :
    EntryMerged s.db ad a := by
  have hlocation : ∀ j : Int, objIDColumn j = none →
      (if 0 ≤ j then none else some ad.location) = some ad.location := by
    intro j hj
    refine if_neg fun hpos => ?_
    rw [objIDColumn_eq_some.mpr hpos] at hj
    cases hj
  rcases h with ⟨b, ⟨hb, hfinds⟩, pathIds, rfl⟩ | ⟨hnone, pathIds, id, rfl⟩
  · -- the row that was found, updated
    have hobject : objIDColumn ad.objectID = directoryAt s.db ad.location := by
      rcases hdir : directoryAt s.db ad.location with _ | i
      · rcases hin.objects ad had with hinvalid | hsome
        · rw [hinvalid, objIDColumn_invalid]
        · rw [hdir] at hsome
          cases hsome
      · rw [hcond.object ad had b hb hfinds i hdir]
        exact objIDColumn_eq_some.mpr (hcond.ids ad had i hdir)
    refine ⟨hobject, fun hnil => hlocation _ hnil, rfl, rfl, rfl, rfl, fun c hc hrow => ?_⟩
    have hsame := hin.single ad.location c hc b hb hrow (hin.isRowOf hb hfinds)
    show (if 0 < ad.previousLMT then ad.previousLMT else b.lastModified) = c.lastModified
    rw [hsame]
    rcases hcond.lastModified ad had b hb (hin.isRowOf hb hfinds) with ⟨-, hunscanned⟩ | heq
    · exact if_neg (Int.not_lt.mpr hunscanned)
    · rw [heq, ite_self]
  · -- a new row
    have hobject : objIDColumn ((directoryAt s.db ad.location).getD invalidObjectID) =
        directoryAt s.db ad.location := by
      rcases hdir : directoryAt s.db ad.location with _ | i
      · exact objIDColumn_invalid
      · exact objIDColumn_eq_some.mpr (hcond.ids ad had i hdir)
    refine ⟨hobject, fun hnil => hlocation _ hnil, rfl, rfl, rfl, rfl, fun c hc hrow => ?_⟩
    rcases hcond.lastModified ad had c hc hrow with ⟨hfinds, -⟩ | heq
    · exact absurd ⟨hc, hfinds⟩ (hnone c)
    · exact heq

/-- **If the entries find their rows** the list is merged. -/
theorem EntriesWritten.merged (h : EntriesWritten scanmode list s s' written)
    (hin : PersistentListInput scanmode list s) (hcond : FindsTheirRows scanmode list s.db) :
    ListMerged scanmode list s s' := by
  refine ⟨⟨written, (h.persistent hin).symm, ?_⟩, fun b hb hpersistent hother => ?_⟩
  · exact Lib.Merge.forall₂_imp h.rows fun ad had a => entryMerged_of_writes hin hcond had
  · have hunfound : (list.any fun ad => s.db.finds ad b) = false := by
      rw [List.any_eq_false]
      intro ad had hfinds
      exact hother ad had (hin.isRowOf hb hfinds)
    refine h.perm.mem_iff.mpr (List.mem_append_right _ (List.mem_filter.mpr ⟨hb, ?_⟩))
    unfold staysAutoscan
    rw [hunfound, hpersistent]
    by_cases hmode : b.scanMode = scanmode
    · rw [hcond.touched b hb hpersistent hmode hother]
      simp
    · simp [hmode]

/-- No two entries of a merged list name one object: the index on `obj_id` is UNIQUE. -/
theorem ListMerged.directories (h : ListMerged scanmode list s s') :
    list.Pairwise fun ad ad' =>
      ∀ i, directoryAt s.db ad.location = some i → directoryAt s.db ad'.location ≠ some i := by
  obtain ⟨rows, hperm, hrows⟩ := h.entries
  have hunique : (s'.db.selectAutoscans fun a => a.persistent && a.scanMode = scanmode).Pairwise
      fun a a' => ∀ i, a.objID = some i → a'.objID ≠ some i := by
    refine List.Pairwise.filter _ ?_
    refine (List.pairwise_filterMap.mp s'.db.autoscan_obj_id).imp fun hne i hi hi' => ?_
    exact hne i hi i hi' rfl
  have hsymm : ∀ {a a' : AutoscanRow}, (∀ i, a.objID = some i → a'.objID ≠ some i) →
      ∀ i, a'.objID = some i → a.objID ≠ some i := fun hne i hi hi' => hne i hi' hi
  refine Lib.Merge.pairwise_left hrows ((hperm.pairwise_iff hsymm).mpr hunique) ?_
  intro ad ad' a a' hmerged hmerged' hne i hi hi'
  exact hne i (hmerged.object.trans hi) (hmerged'.object.trans hi')

/-- In a merged list each entry has written its own row. -/
theorem ListMerged.entry (h : ListMerged scanmode list s s')
    (hin : PersistentListInput scanmode list s) (hdist : list.Pairwise (OtherDirectory s.db))
    (hwritten : EntriesWritten scanmode list s s' written) (had : ad ∈ list) :
    ∃ a, EntryMerged s.db ad a ∧
      s.db.writes ad (fun b => b ∈ s.db.autoscans.rows ∧ s.db.finds ad b = true) a := by
  obtain ⟨rows, hperm, hrows⟩ := h.entries
  obtain ⟨a, ha, hmerged⟩ := Lib.Merge.exists_right hrows had
  have hin' : a ∈ written := (hwritten.persistent hin).mem_iff.mp (hperm.mem_iff.mp ha)
  obtain ⟨ad', had', hwrites⟩ := Lib.Merge.exists_left hwritten.rows hin'
  refine ⟨a, hmerged, ?_⟩
  by_cases hsame : ad = ad'
  · rw [hsame]
    exact hwrites
  · -- the row of another entry has another object, or another location
    have hother := hdist.forall had had' hsame
    exfalso
    rcases hdir : directoryAt s.db ad.location with _ | i
    · have hloc := hmerged.location (hmerged.object.trans hdir)
      exact hother.location (writes_location hwrites hloc).symm
    · have hobj := hmerged.object.trans hdir
      exact hother.object i hdir (writes_objID (hin.objects ad' had') hwrites hobj)

/-- **Only if the entries find their rows.** -/
theorem EntriesWritten.findsTheirRows (h : EntriesWritten scanmode list s s' written)
    (hin : PersistentListInput scanmode list s) (hdist : list.Pairwise (OtherDirectory s.db))
    (hmerged : ListMerged scanmode list s s') : FindsTheirRows scanmode list s.db := by
  refine ⟨hmerged.directories, fun ad had i hdir => ?_, fun ad had b hb hfinds i hdir => ?_,
    fun ad had b hb hrow => ?_, fun b hb hpersistent hmode hother => ?_⟩
  · obtain ⟨a, hentry, hwrites⟩ := hmerged.entry hin hdist h had
    have hobj := hentry.object.trans hdir
    rcases hwrites with ⟨b, -, pathIds, rfl⟩ | ⟨-, pathIds, id, rfl⟩
    · obtain ⟨rfl, hpos⟩ := mem_objIDColumn hobj
      exact hpos
    · obtain ⟨hid, hpos⟩ := mem_objIDColumn hobj
      rw [hid] at hpos
      exact hpos
  · obtain ⟨a, hentry, hwrites⟩ := hmerged.entry hin hdist h had
    have hobj := hentry.object.trans hdir
    rcases hwrites with ⟨c, -, pathIds, rfl⟩ | ⟨hnone, -⟩
    · exact (mem_objIDColumn hobj).1
    · exact absurd ⟨hb, hfinds⟩ (hnone b)
  · obtain ⟨a, hentry, hwrites⟩ := hmerged.entry hin hdist h had
    have htime := hentry.lastModified b hb hrow
    rcases hwrites with ⟨c, ⟨hc, hfinds⟩, pathIds, rfl⟩ | ⟨-, pathIds, id, rfl⟩
    · have hsame := hin.single ad.location b hb c hc hrow (hin.isRowOf hc hfinds)
      rw [hsame] at htime ⊢
      have hupdated : (if 0 < ad.previousLMT then ad.previousLMT else c.lastModified) =
          c.lastModified := htime
      by_cases hscanned : 0 < ad.previousLMT
      · rw [if_pos hscanned] at hupdated
        exact .inr hupdated
      · exact .inl ⟨hfinds, Int.not_lt.mp hscanned⟩
    · exact .inr htime
  · rw [← Bool.not_eq_false]
    intro htouched
    have hleft := hmerged.others b hb hpersistent hother
    rcases List.mem_append.mp (h.perm.mem_iff.mp hleft) with hin' | hstays
    · -- what an entry has written is persistent
      obtain ⟨ad, had, hwrites⟩ := Lib.Merge.exists_left h.rows hin'
      have hentry := (writes_row hwrites).1.trans (hin.entries ad had).1
      rw [hpersistent] at hentry
      cases hentry
    · obtain ⟨-, hstays⟩ := List.mem_filter.mp hstays
      unfold staysAutoscan at hstays
      rw [htouched, hmode] at hstays
      simp at hstays

/-- **Headline.** Where the call returns, the list and the persistent rows of the mode correspond
    exactly if the entries find their rows. -/
theorem updateAutoscanPersistentList_iff (hin : PersistentListInput scanmode list s)
    (hrun : (updateAutoscanPersistentList scanmode list).run s = (.ok (), s')) :
    ListMerged scanmode list s s' ↔ FindsTheirRows scanmode list s.db := by
  have hlocations : list.Pairwise fun ad ad' => ad.location ≠ ad'.location :=
    List.pairwise_map.mp hin.locations
  constructor
  · intro hmerged
    have hdist : list.Pairwise (OtherDirectory s.db) :=
      (hlocations.and hmerged.directories).imp fun h => ⟨h.1, h.2⟩
    obtain ⟨written, hwritten, hperm⟩ := updateAutoscanPersistentList_rows hin hdist hrun
    exact EntriesWritten.findsTheirRows ⟨hwritten, hperm⟩ hin hdist hmerged
  · intro hcond
    have hdist : list.Pairwise (OtherDirectory s.db) :=
      (hlocations.and hcond.directories).imp fun h => ⟨h.1, h.2⟩
    obtain ⟨written, hwritten, hperm⟩ := updateAutoscanPersistentList_rows hin hdist hrun
    exact EntriesWritten.merged ⟨hwritten, hperm⟩ hin hcond

end

/-! ### One directory -/

theorem fsRoot_lt_two : cdsIdFsRoot < 2 := by decide

/-- The directory `/a` (2). -/
def oneDirTables : Database :=
  (Database.fresh.insertObject? (containerRow ⟨2, fsRoot_lt_two⟩ cdsIdFsRoot (str "a") (str "/a") false
    none invalidObjectID)).getD .fresh

/-- The directory, and an autoscan. -/
def withAutoscanRow (a : AutoscanRow) : Database := (oneDirTables.insertAutoscan? a).getD oneDirTables

/-- An autoscan of `/a`, by its object. -/
def autoscanByObject : AutoscanRow where
  id := 1
  objID := some 2
  scanLevel := .full
  scanMode := .timed
  recursive := false
  hidden := false
  interval := 60
  lastModified := 100
  persistent := true
  location := none
  pathIDs := some (str ",2,1,")

/-- The same autoscan, from a time when there was no object. -/
def autoscanByLocation : AutoscanRow :=
  { autoscanByObject with objID := none, location := some (str "/a"), pathIDs := none }

theorem withAutoscanRow_objects (a : AutoscanRow) :
    (withAutoscanRow a).objects = oneDirTables.objects := by
  unfold withAutoscanRow
  rcases hins : oneDirTables.insertAutoscan? a with _ | db
  · rfl
  · exact (Database.insertAutoscan?_eq_some hins).2.1

/-- The only directory is `/a`. -/
theorem oneDirTables_directory {row : ObjectRow} {path : Str} (a : AutoscanRow)
    (hrow : row ∈ (withAutoscanRow a).dirsAt path) :
    row.id = 2 ∧ isCdsContainer row.objectType = true := by
  have hrows : ∀ r ∈ oneDirTables.objects.rows, r.locationHash ≠ none →
      r.id = 2 ∧ isCdsContainer r.objectType = true := by
    decide +kernel
  obtain ⟨hin, hmatch⟩ := List.mem_filter.mp hrow
  rw [withAutoscanRow_objects] at hin
  refine hrows row hin ?_
  rw [(matchesDirectory_iff.mp hmatch).1]
  exact Option.some_ne_none _

theorem storedAt_oneDir (a : AutoscanRow) :
    storedAt (withAutoscanRow a) (str "/a") = some 2 ∧
      storedAt (withAutoscanRow a) [dirSeparator] = none := by
  have hdirs : ∀ path, (withAutoscanRow a).dirsAt path = oneDirTables.dirsAt path := by
    intro path
    unfold Database.dirsAt Database.selectObjects
    rw [withAutoscanRow_objects]
  unfold storedAt
  rw [hdirs, hdirs]
  exact ⟨by decide +kernel, by decide +kernel⟩

theorem directoryAt_oneDir (a : AutoscanRow) :
    directoryAt (withAutoscanRow a) persistentAutoscan.location = some 2 := by
  unfold directoryAt
  rw [if_neg (by decide)]
  exact (storedAt_oneDir a).1

/-- A list with one entry, for tables with one autoscan. -/
theorem oneDir_input {a : AutoscanRow} (hrows : (withAutoscanRow a).autoscans.rows = [a])
    (hkeyed : a.objID ≠ none → a.location = none) :
    PersistentListInput .timed [persistentAutoscan] (.started (withAutoscanRow a) true .ok) := by
  have honly : ∀ b ∈ (withAutoscanRow a).autoscans.rows, b = a := by
    intro b hb
    rw [hrows] at hb
    exact List.mem_singleton.mp hb
  have hready : DirectoriesReady (.started (withAutoscanRow a) true .ok) := by
    refine ⟨fun r hr => (nomatch hr), directoriesFiled_started _ true .ok, fun path row hrow => ?_,
      fun path row hrow row' hrow' => ?_⟩
    · exact (oneDirTables_directory a hrow).2
    · rw [(oneDirTables_directory a hrow).1, (oneDirTables_directory a hrow').1]
  refine ⟨hready, fun i hi => ?_, fun b hb => ?_, fun location b hb c hc _ _ => ?_, ?_, ?_, ?_⟩
  · have hnone : storedAt (withAutoscanRow a) [dirSeparator] = some i := hi
    rw [(storedAt_oneDir a).2] at hnone
    cases hnone
  · rw [honly b hb]
    exact hkeyed
  · rw [honly b hb, honly c hc]
  · intro ad had
    rw [List.mem_singleton.mp had]
    exact ⟨rfl, rfl⟩
  · exact List.nodup_singleton _
  · intro ad had
    rw [List.mem_singleton.mp had]
    exact .inr (directoryAt_oneDir a)

/-- The autoscan of an object is found, and keeps its time. -/
theorem updateAutoscanPersistentList_kept : ∃ s',
    (updateAutoscanPersistentList .timed [persistentAutoscan]).run
        (.started (withAutoscanRow autoscanByObject) true .ok) = (.ok (), s') ∧
      ListMerged .timed [persistentAutoscan]
        (.started (withAutoscanRow autoscanByObject) true .ok) s' := by
  have hrows : (withAutoscanRow autoscanByObject).autoscans.rows = [autoscanByObject] := by
    decide +kernel
  have honly : ∀ b ∈ (withAutoscanRow autoscanByObject).autoscans.rows, b = autoscanByObject := by
    intro b hb
    rw [hrows] at hb
    exact List.mem_singleton.mp hb
  have hrun : ((updateAutoscanPersistentList .timed [persistentAutoscan]).run
      (.started (withAutoscanRow autoscanByObject) true .ok)).1 = .ok () := by
    decide +kernel
  refine ⟨_, run_eq_of_fst hrun, ?_⟩
  refine (updateAutoscanPersistentList_iff (oneDir_input hrows fun _ => rfl)
    (run_eq_of_fst hrun)).mpr ⟨List.pairwise_singleton _ _, ?_, ?_, ?_, ?_⟩
  · intro ad had i hi
    rw [List.mem_singleton.mp had] at hi
    have htwo := hi.symm.trans (directoryAt_oneDir autoscanByObject)
    rw [Option.some.inj htwo]
    decide
  · intro ad had b _ _ i hi
    rw [List.mem_singleton.mp had] at hi ⊢
    have htwo := hi.symm.trans (directoryAt_oneDir autoscanByObject)
    exact (Option.some.inj htwo).symm
  · intro ad had b hb _
    rw [List.mem_singleton.mp had, honly b hb]
    exact .inl ⟨(finds_stored (storedAt_oneDir autoscanByObject).1).mpr rfl, by decide⟩
  · intro b hb hpersistent
    rw [honly b hb] at hpersistent
    cases hpersistent

/-- **Once a directory has an object its autoscan loses the time of the last scan.** -/
theorem updateAutoscanPersistentList_forgets : ¬ ∀ (scanmode : ScanMode)
    (list : List AutoscanDirectory) (s s' : StorageState), PersistentListInput scanmode list s →
      (updateAutoscanPersistentList scanmode list).run s = (.ok (), s') →
        ListMerged scanmode list s s' := by
  intro hall
  have hrows : (withAutoscanRow autoscanByLocation).autoscans.rows = [autoscanByLocation] := by
    decide +kernel
  have hrun : ((updateAutoscanPersistentList .timed [persistentAutoscan]).run
      (.started (withAutoscanRow autoscanByLocation) true .ok)).1 = .ok () := by
    decide +kernel
  have hafter : ∀ a ∈ ((updateAutoscanPersistentList .timed [persistentAutoscan]).run
      (.started (withAutoscanRow autoscanByLocation) true .ok)).2.db.autoscans.rows,
        a.lastModified = 0 := by
    decide +kernel
  have hmerged := hall .timed [persistentAutoscan] _ _
    (oneDir_input hrows fun h => absurd rfl h) (run_eq_of_fst hrun)
  obtain ⟨rows, hperm, hentries⟩ := hmerged.entries
  obtain ⟨a, ha, hentry⟩ := Lib.Merge.exists_right hentries List.mem_cons_self
  have htime : a.lastModified = 100 := by
    refine hentry.lastModified autoscanByLocation ?_ (.inr ⟨rfl, rfl⟩)
    show autoscanByLocation ∈ (withAutoscanRow autoscanByLocation).autoscans.rows
    rw [hrows]
    exact List.mem_singleton_self _
  have hzero := hafter a (List.mem_filter.mp (hperm.mem_iff.mp ha)).1
  rw [htime] at hzero
  exact absurd hzero (by decide)

end MediaTomb
