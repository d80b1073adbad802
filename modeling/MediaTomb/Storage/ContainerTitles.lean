/-
  The titles a container lies below.

  Two readings of where a container is:

    * `ReadTitles path` takes the path apart as the storage does, one
      `stripAndUnescapeVirtualContainerFromPath` after the other;
    * `HasTitles db id` goes up from the container by its parents, to the root.

  On a table where the two agree (`Filed`), a call of `addContainerChain` returns a container with
  the titles that are read off the path, and the table it leaves is filed again.
-/
import MediaTomb.Storage.ContainerChain

namespace MediaTomb

open Lib.Prog

/-! ## Reading a path -/

/-- **The titles that are read off a path**, the deepest one first. -/
inductive ReadTitles : Str → List Str → Prop
  | root {path : Str} (h : reduce virtualContainerSeparator path = [virtualContainerSeparator]) :
      ReadTitles path []
  | title {path newpath title : Str} {titles : List Str}
      (hroot : reduce virtualContainerSeparator path ≠ [virtualContainerSeparator])
      (hstrip : stripAndUnescapeVirtualContainerFromPath (reduce virtualContainerSeparator path) =
        .ok (newpath, title))
      (hrest : ReadTitles newpath titles) : ReadTitles path (title :: titles)

section

variable {path newpath title : Str} {titles titles' : List Str}

theorem readTitles_unique (h : ReadTitles path titles) :
    ∀ titles', ReadTitles path titles' → titles = titles' := by
  induction h with
  | root hroot =>
    intro titles' h'
    cases h' with
    | root _ => rfl
    | title hroot' _ _ => exact absurd hroot hroot'
  | title hroot hstrip _ ih =>
    intro titles' h'
    cases h' with
    | root hroot' => exact absurd hroot' hroot
    | title _ hstrip' hrest' =>
      rw [hstrip] at hstrip'
      injection hstrip' with hpair
      obtain ⟨rfl, rfl⟩ := Prod.mk.inj hpair
      rw [ih _ hrest']

/-- A path that is more than a separator: its title, and the titles of the parent's path. -/
theorem readTitles_cons_iff
    (hroot : reduce virtualContainerSeparator path ≠ [virtualContainerSeparator])
    (hstrip : stripAndUnescapeVirtualContainerFromPath (reduce virtualContainerSeparator path) =
      .ok (newpath, title)) :
    ReadTitles path titles ↔ ∃ rest, titles = title :: rest ∧ ReadTitles newpath rest := by
  constructor
  · intro h
    cases h with
    | root hroot' => exact absurd hroot' hroot
    | title _ hstrip' hrest =>
      rw [hstrip] at hstrip'
      injection hstrip' with hpair
      obtain ⟨rfl, rfl⟩ := Prod.mk.inj hpair
      exact ⟨_, rfl, hrest⟩
  · rintro ⟨rest, rfl, hrest⟩
    exact .title hroot hstrip hrest

/-- The reduced path reads the same. -/
theorem readTitles_reduce :
    ReadTitles (reduce virtualContainerSeparator path) titles ↔ ReadTitles path titles := by
  constructor
  · intro h
    cases h with
    | root hroot => exact .root (reduce_reduce ▸ hroot)
    | title hroot hstrip hrest =>
      rw [reduce_reduce] at hroot hstrip
      exact .title hroot hstrip hrest
  · intro h
    cases h with
    | root hroot => exact .root (reduce_reduce.trans hroot)
    | title hroot hstrip hrest =>
      refine ReadTitles.title ?_ ?_ hrest
      · rw [reduce_reduce]
        exact hroot
      · rw [reduce_reduce]
        exact hstrip

end

/-! ## Going up -/

/-- **The titles from a container up to the root**, its own first. -/
def HasTitles (db : Database) : List Str → Int → Prop
  | [], id => id = cdsIdRoot
  | t :: ts, id => ∃ row ∈ db.objects.rows, row.id = id ∧ cdsIdRoot < id ∧
      isCdsContainer row.objectType = true ∧ row.dcTitle = some t ∧ HasTitles db ts row.parentID

/-- **A table is filed** where a container found at a virtual path has the titles of the path. -/
def Filed (db : Database) : Prop :=
  ∀ path row rows, db.rowsAt path = row :: rows →
    reduce virtualContainerSeparator path = path → path ≠ [virtualContainerSeparator] →
    ∃ titles, ReadTitles path titles ∧ HasTitles db titles row.id

section

variable {db db' : Database} {s s' s₁ : StorageState} {id : Int} {titles : List Str}

theorem hasTitles_mono (hmono : ∀ r ∈ db.objects.rows, r ∈ db'.objects.rows) :
    ∀ (titles : List Str) (id : Int), HasTitles db titles id → HasTitles db' titles id := by
  intro titles
  induction titles with
  | nil => exact fun id h => h
  | cons t ts ih =>
    rintro id ⟨row, hrow, hid, hpos, hcontainer, htitle, hrest⟩
    exact ⟨row, hmono row hrow, hid, hpos, hcontainer, htitle, ih _ hrest⟩

theorem hasTitles_unique : ∀ (titles titles' : List Str) (id : Int), HasTitles db titles id →
    HasTitles db titles' id → titles = titles' := by
  intro titles
  induction titles with
  | nil =>
    intro titles' id h h'
    rcases titles' with _ | ⟨t, ts⟩
    · rfl
    · obtain ⟨row, -, -, hpos, -⟩ := h'
      rw [show id = cdsIdRoot from h] at hpos
      exact absurd hpos (Int.lt_irrefl _)
  | cons t ts ih =>
    rintro titles' id ⟨row, hrow, hid, hpos, -, htitle, hrest⟩ h'
    rcases titles' with _ | ⟨t', ts'⟩
    · rw [show id = cdsIdRoot from h'] at hpos
      exact absurd hpos (Int.lt_irrefl _)
    · obtain ⟨row', hrow', hid', -, -, htitle', hrest'⟩ := h'
      obtain rfl : row = row' := db.objects.eq_of_key_eq hrow hrow' (hid.trans hid'.symm)
      rw [htitle] at htitle'
      rw [Option.some.inj htitle', ih _ _ hrest hrest']

/-- A container that has just been made has its own title above those of its parent. -/
theorem hasTitles_made {newID : {id : Int // cdsIdFsRoot < id}} {parentID refID : Int}
    {title path : Str} {isVirtual : Bool} {upnpClass : Option Str}
    (hmade : containerRow newID parentID title path isVirtual upnpClass refID ∈ db.objects.rows)
    (hrest : HasTitles db titles parentID) : HasTitles db (title :: titles) newID :=
  ⟨_, hmade, rfl, Int.lt_trans (show cdsIdRoot < cdsIdFsRoot by decide) newID.property,
    isContainer_containerRow, rfl, hrest⟩

/-- **The result of a call** has the titles of the path, and the table is filed as before. -/
theorem addContainerChainFrom_titles : ∀ (fuel : Nat) (path : Str) (lastClass : Option Str)
    (lastRefID : Int) (updateID updateID' : Option Int) (s s' : StorageState) (id : Int),
    ItemsBuffered s → Filed s.db →
    (addContainerChainFrom fuel path lastClass lastRefID updateID).run s =
      (.ok (id, updateID'), s') →
    Filed s'.db ∧ ∃ titles, ReadTitles path titles ∧ HasTitles s'.db titles id := by
  intro fuel
  induction fuel with
  | zero =>
    intro path lastClass lastRefID updateID updateID' s s' id _ _ h
    cases h
  | succ fuel ih =>
    intro path lastClass lastRefID updateID updateID' s s' id hs hfiled h
    rcases addContainerChainFrom_cases h with ⟨hroot, rfl, -, rfl⟩ | ⟨hroot,
      ⟨row, rows, hrows, rfl, -, rfl⟩ | ⟨hnone, newpath, title, parentID, updateID₁, s₁, hstrip,
        hinner, hcreate, -⟩⟩
    · exact ⟨hfiled, [], .root hroot, rfl⟩
    · obtain ⟨titles, hread, hhas⟩ := hfiled _ row rows hrows reduce_reduce hroot
      exact ⟨hfiled, titles, readTitles_reduce.mp hread, hhas⟩
    · obtain ⟨hfiled₁, titles, hread, hhas⟩ := ih _ _ _ _ _ _ _ _ hs hfiled hinner
      obtain ⟨⟨created, hcreates, hwithin⟩, -⟩ :=
        addContainerChainFrom_made _ _ _ _ _ _ _ _ _ hs hinner
      obtain ⟨newID, rfl, hnew⟩ := createContainer_ok hcreate
      have hs₁ := itemsBuffered_of_creates hcreates hs
      have hmade : HasTitles s'.db (title :: titles) newID :=
        hasTitles_made (hnew.mem _ (List.mem_singleton_self _))
          (hasTitles_mono hnew.mono titles parentID hhas)
      have hread' : ReadTitles path (title :: titles) := .title hroot hstrip hread
      refine ⟨fun p row rows hrows hreduce hp => ?_, _, hread', hmade⟩
      -- what lay at the path before, or the new container
      rw [rowsAt_of_creates hnew hs₁] at hrows
      rcases hold : s₁.db.rowsAt p with _ | ⟨r, rs⟩
      · rw [hold, List.nil_append, List.filter_cons] at hrows
        split at hrows
        · next hmatch =>
          obtain ⟨rfl, -⟩ := List.cons.inj hrows
          obtain rfl := matchesVirtual_inj hmatch matchesVirtual_containerRow
          exact ⟨_, readTitles_reduce.mpr hread', hmade⟩
        · cases hrows
      · rw [hold] at hrows
        obtain ⟨rfl, -⟩ := List.cons.inj hrows
        obtain ⟨ts, hreads, hts⟩ := hfiled₁ p r rs hold hreduce hp
        exact ⟨ts, hreads, hasTitles_mono hnew.mono ts _ hts⟩

/-- **A call with no reference**: it returns, and the container it returns has these titles exactly
    if they are read off the path. -/
theorem addContainerChain_titles {path : Str} (hs : Sound s) (hfiled : Filed s.db)
    (hpath : path.head? = some virtualContainerSeparator) :
    ∃ id updateID s',
      (addContainerChain path none invalidObjectID (some invalidObjectID)).run s =
        (.ok (id, updateID), s') ∧
      ∀ titles, HasTitles s'.db titles id ↔ ReadTitles path titles := by
  obtain ⟨id, updateID, s', hrun, -⟩ := addContainerChainFrom_returns (path.length + 1) path none
    invalidObjectID (some invalidObjectID) s hs (Nat.lt_succ_self _) hpath (by decide)
  obtain ⟨-, titles, hread, hhas⟩ :=
    addContainerChainFrom_titles _ _ _ _ _ _ _ _ _ hs.items hfiled hrun
  refine ⟨id, updateID, s', hrun, fun titles' => ⟨fun h => ?_, fun h => ?_⟩⟩
  · rw [hasTitles_unique titles' titles id h hhas]
    exact hread
  · rw [← readTitles_unique hread titles' h]
    exact hhas

/-- The schema makes no virtual container. -/
theorem filed_of_none (h : ∀ r ∈ db.objects.rows, r.location = none) : Filed db := by
  intro path row rows hrows
  have hin : row ∈ db.rowsAt path := by
    rw [hrows]
    exact List.mem_cons_self
  obtain ⟨hrow, hmatch⟩ := mem_rowsAt.mp hin
  have hlocation := h row hrow
  rw [(matchesVirtual_iff.mp hmatch).2] at hlocation
  cases hlocation

end

end MediaTomb
