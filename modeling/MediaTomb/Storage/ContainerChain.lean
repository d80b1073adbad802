/-
  `addContainerChain`: the containers of a virtual path.

  The call looks a container up by the whole path, escaped as it is, and goes to the path of the
  parent only where there is none.  What it has to leave is a CHAIN: one container for each
  component, with the title of the component, below the one before it (`HasChain`).

  It leaves one exactly if (`addContainerChain_iff`)

    * the path is written with one separator before each component (`chainPath`) once `reduce` has
      been over it: a separator at the end stays there, and becomes a container without a title;
    * the containers that are there already are a chain;
    * each component from there on is taken off the path as it was put there (`Separable` says the
      same of titles), and has a title.
-/
import MediaTomb.Storage.NewContainers
import MediaTomb.Storage.PathComponents
import MediaTomb.Storage.Sound

namespace MediaTomb

open Lib.Prog

/-! ## Chains -/

/-- The rows stored at a virtual path. -/
def Database.rowsAt (db : Database) (path : Str) : List ObjectRow :=
  db.selectObjects (matchesVirtualLocation (addLocationPrefix locVirtPrefix (some path)))

/-- The title a component stands for. -/
def componentTitle (w : Str) : Str := unescape virtualContainerEscape w

/-- **A chain of virtual containers**: one for each component, and no second one at its path, with
    the title of the component and below the container before it.  It ends at `id`. -/
def HasChain (db : Database) : List Str → Int → Prop
  | [], id => id = cdsIdRoot
  | w :: ws, id => ∃ row, db.rowsAt (pathText (w :: ws)) = [row] ∧ row.id = id ∧
      cdsIdRoot < row.id ∧ isCdsContainer row.objectType = true ∧
      row.dcTitle = some (componentTitle w) ∧ HasChain db ws row.parentID

/-- The deepest container that is there. -/
def deepestID (db : Database) : List Str → Int
  | [] => cdsIdRoot
  | w :: ws => match db.rowsAt (pathText (w :: ws)) with
    | row :: _ => row.id
    | [] => deepestID db ws

/-- The container that gets a new child; none when all are there. -/
def changedID (db : Database) : List Str → Int
  | [] => invalidObjectID
  | w :: ws => if db.rowsAt (pathText (w :: ws)) = [] then deepestID db ws else invalidObjectID

/-- No container without a title has been made. -/
def TitlesMade (s s' : StorageState) : Prop :=
  ∀ r ∈ s'.db.objects.rows, r ∉ s.db.objects.rows → isCdsContainer r.objectType = true →
    r.dcTitle ≠ some []

/-- The component comes off the path as it was put there: the first one has a separator if it has a
    backslash, and the one before a later one does not end in a backslash. -/
def ComesOff (w : Str) : List Str → Prop
  | [] => virtualContainerEscape ∈ w → virtualContainerSeparator ∈ w
  | v :: _ => v.getLast? ≠ some virtualContainerEscape

/-- **What the path and the table have to be like**: the containers that are there are a chain, and
    the components below them come off and have a title. -/
def Chainable (db : Database) : List Str → Prop
  | [] => True
  | w :: ws =>
    if db.rowsAt (pathText (w :: ws)) = [] then
      (ComesOff w ws ∧ componentTitle w ≠ []) ∧ Chainable db ws
    else ∃ id, HasChain db (w :: ws) id

section

variable {db db' : Database} {s s' s₁ : StorageState} {ws : List Str} {w : Str} {id : Int}

/-- A chain is seen in the rows at its paths alone. -/
theorem hasChain_congr (ws : List Str) : ∀ id : Int,
    (∀ q : Str, q.length ≤ (pathText ws).length → db'.rowsAt q = db.rowsAt q) →
      (HasChain db' ws id ↔ HasChain db ws id) := by
  induction ws with
  | nil =>
    intro id _
    exact Iff.rfl
  | cons w ws ih =>
    intro id h
    have hshort : (pathText ws).length ≤ (pathText (w :: ws)).length := by
      rw [pathText, List.length_append]
      exact Nat.le_add_right _ _
    have hrest : ∀ i, HasChain db' ws i ↔ HasChain db ws i :=
      fun i => ih i fun q hq => h q (Nat.le_trans hq hshort)
    unfold HasChain
    rw [h _ (Nat.le_refl _)]
    simp only [hrest]

theorem hasChain_nonneg (h : HasChain db ws id) : 0 ≤ id := by
  rcases ws with _ | ⟨w, ws⟩
  · cases h
    decide
  · obtain ⟨row, -, rfl, hpos, -⟩ := h
    exact Int.le_of_lt hpos

theorem matchesVirtual_iff {path : Str} {r : ObjectRow} :
    matchesVirtualLocation (addLocationPrefix locVirtPrefix (some path)) r = true ↔
      r.locationHash = some (stringHash (addLocationPrefix locVirtPrefix (some path))) ∧
        r.location = some (addLocationPrefix locVirtPrefix (some path)) := by
  unfold matchesVirtualLocation
  rw [Bool.and_eq_true, decide_eq_true_eq, decide_eq_true_eq]

theorem matchesVirtual_inj {p q : Str} {r : ObjectRow}
    (hp : matchesVirtualLocation (addLocationPrefix locVirtPrefix (some p)) r = true)
    (hq : matchesVirtualLocation (addLocationPrefix locVirtPrefix (some q)) r = true) : p = q := by
  have hlocs := (matchesVirtual_iff.mp hp).2.symm.trans (matchesVirtual_iff.mp hq).2
  exact (List.cons.inj (Option.some.inj hlocs)).2

/-- The row of a new virtual container is stored at its path. -/
theorem matchesVirtual_containerRow {newID : {id : Int // cdsIdFsRoot < id}} {parentID refID : Int}
    {name path : Str} {upnpClass : Option Str} :
    matchesVirtualLocation (addLocationPrefix locVirtPrefix (some path))
      (containerRow newID parentID name path true upnpClass refID) = true :=
  matchesVirtual_iff.mpr ⟨rfl, rfl⟩

theorem isContainer_containerRow {newID : {id : Int // cdsIdFsRoot < id}} {parentID refID : Int}
    {name path : Str} {isVirtual : Bool} {upnpClass : Option Str} :
    isCdsContainer
      (containerRow newID parentID name path isVirtual upnpClass refID).objectType = true := by
  show isCdsContainer objectTypeContainer = true
  decide

/-- The row of an item is stored at no virtual path. -/
theorem IsItemRow.not_matchesVirtual {r : ObjectRow} (h : IsItemRow r) (path : Str) :
    matchesVirtualLocation (addLocationPrefix locVirtPrefix (some path)) r = false := by
  rcases hmatch : matchesVirtualLocation (addLocationPrefix locVirtPrefix (some path)) r with _ | _
  · rfl
  · obtain ⟨hhash, hloc⟩ := matchesVirtual_iff.mp hmatch
    obtain ⟨file, hfile⟩ := h.file (by rw [hhash]; exact Option.some_ne_none _)
    rw [hloc] at hfile
    have hhead := (List.cons.inj (Option.some.inj hfile)).1
    exact absurd hhead (by decide)

theorem mem_rowsAt {path : Str} {r : ObjectRow} :
    r ∈ db.rowsAt path ↔ r ∈ db.objects.rows ∧
      matchesVirtualLocation (addLocationPrefix locVirtPrefix (some path)) r = true :=
  List.mem_filter

/-! ## One call, step by step -/

/-- What one call does: nothing at the root, nothing where the container is there, and else the
    container below that of the parent's path. -/
theorem addContainerChainFrom_cases {fuel : Nat} {path : Str} {lastClass : Option Str}
    {lastRefID : Int} {updateID updateID' : Option Int}
    (h : (addContainerChainFrom (fuel + 1) path lastClass lastRefID updateID).run s =
      (.ok (id, updateID'), s')) :
    (reduce virtualContainerSeparator path = [virtualContainerSeparator] ∧ id = cdsIdRoot ∧
      updateID' = updateID ∧ s' = s) ∨
    (reduce virtualContainerSeparator path ≠ [virtualContainerSeparator] ∧
      ((∃ row rows, s.db.rowsAt (reduce virtualContainerSeparator path) = row :: rows ∧
          id = row.id ∧ updateID' = updateID ∧ s' = s) ∨
        (s.db.rowsAt (reduce virtualContainerSeparator path) = [] ∧
          ∃ newpath title parentID updateID₁ s₁,
            stripAndUnescapeVirtualContainerFromPath (reduce virtualContainerSeparator path) =
              .ok (newpath, title) ∧
            (addContainerChainFrom fuel newpath none invalidObjectID updateID).run s =
              (.ok (parentID, updateID₁), s₁) ∧
            (createContainer parentID title (reduce virtualContainerSeparator path) true lastClass
              lastRefID).run s₁ = (.ok id, s') ∧
            updateID' =
              if updateID₁ = some invalidObjectID then some parentID else updateID₁))) := by
  rw [addContainerChainFrom] at h
  simp only at h
  by_cases hroot : reduce virtualContainerSeparator path = [virtualContainerSeparator]
  · rw [if_pos hroot] at h
    cases h
    exact .inl ⟨hroot, rfl, rfl, rfl⟩
  · rw [if_neg hroot, select, run_read_bind] at h
    refine .inr ⟨hroot, ?_⟩
    rcases hrows : s.db.rowsAt (reduce virtualContainerSeparator path) with _ | ⟨row, rows⟩
    · have hrows' : s.db.selectObjects (matchesVirtualLocation (addLocationPrefix locVirtPrefix
        (some (reduce virtualContainerSeparator path)))) = [] := hrows
      rw [hrows'] at h
      simp only at h
      obtain ⟨⟨newpath, title⟩, s₀, hread, h⟩ := bind_ok h
      rw [run_ofExcept] at hread
      obtain ⟨hstrip, rfl⟩ := Prod.mk.inj hread
      obtain ⟨⟨parentID, updateID₁⟩, s₁, hinner, h⟩ := bind_ok h
      obtain ⟨newID, s₂, hcreate, h⟩ := bind_ok h
      cases h
      exact .inr ⟨rfl, newpath, title, parentID, updateID₁, s₁, hstrip, hinner, hcreate, rfl⟩
    · have hrows' : s.db.selectObjects (matchesVirtualLocation (addLocationPrefix locVirtPrefix
        (some (reduce virtualContainerSeparator path)))) = row :: rows := hrows
      rw [hrows'] at h
      cases h
      exact .inl ⟨row, rows, rfl, rfl, rfl, rfl⟩

/-! ## What a call leaves, whatever the path -/

theorem itemsBuffered_of_creates {created : List ObjectRow} (h : Creates created s s')
    (hs : ItemsBuffered s) : ItemsBuffered s' := fun r hr => hs r (h.buffered r hr)

theorem rowsAt_of_creates {created : List ObjectRow} (h : Creates created s s')
    (hs : ItemsBuffered s) (path : Str) :
    s'.db.rowsAt path = s.db.rowsAt path ++ created.filter
      (matchesVirtualLocation (addLocationPrefix locVirtPrefix (some path))) :=
  h.select _ fun r hr => (hs r hr).not_matchesVirtual path

/-- Containers made at paths no longer than `n`. -/
def MadeWithin (n : Nat) (created : List ObjectRow) : Prop :=
  ∀ r ∈ created, isCdsContainer r.objectType = true ∧ ∃ q : Str, q.length ≤ n ∧
    matchesVirtualLocation (addLocationPrefix locVirtPrefix (some q)) r = true

/-- At a longer path there is none of them. -/
theorem MadeWithin.filter_eq_nil {n : Nat} {created : List ObjectRow} (h : MadeWithin n created)
    {path : Str} (hlong : n < path.length) :
    created.filter (matchesVirtualLocation (addLocationPrefix locVirtPrefix (some path))) =
      [] := by
  apply List.filter_eq_nil_iff.mpr
  intro r hr hmatch
  obtain ⟨-, q, hq, hmatch'⟩ := h r hr
  rw [matchesVirtual_inj hmatch' hmatch] at hq
  omega

/-- Titles, in terms of what has been made. -/
theorem titlesMade_iff {created : List ObjectRow} (h : Creates created s s')
    (hs : ItemsBuffered s) (hmade : ∀ r ∈ created, isCdsContainer r.objectType = true) :
    TitlesMade s s' ↔ ∀ r ∈ created, r.dcTitle ≠ some [] := by
  constructor
  · intro htitles r hr
    exact htitles r (h.mem r hr) (h.fresh r hr) (hmade r hr)
  · intro htitles r hr hnew hcontainer
    rcases h.added r hr with hold | hr | hr
    · exact absurd hold hnew
    · exact htitles r hr
    · rw [(hs r hr).item] at hcontainer
      cases hcontainer

/-- **The result of any call** is the root or the container at the path, and what it has made lies
    at paths that are no longer. -/
theorem addContainerChainFrom_made : ∀ (fuel : Nat) (path : Str) (lastClass : Option Str)
    (lastRefID : Int) (updateID updateID' : Option Int) (s s' : StorageState) (id : Int),
    ItemsBuffered s →
    (addContainerChainFrom fuel path lastClass lastRefID updateID).run s =
      (.ok (id, updateID'), s') →
    (∃ created, Creates created s s' ∧
      MadeWithin (reduce virtualContainerSeparator path).length created) ∧
    (if reduce virtualContainerSeparator path = [virtualContainerSeparator] then id = cdsIdRoot
      else ∃ row ∈ s'.db.rowsAt (reduce virtualContainerSeparator path), row.id = id) := by
  intro fuel
  induction fuel with
  | zero =>
    intro path lastClass lastRefID updateID updateID' s s' id _ h
    cases h
  | succ fuel ih =>
    intro path lastClass lastRefID updateID updateID' s s' id hs h
    rcases addContainerChainFrom_cases h with ⟨hroot, rfl, -, rfl⟩ | ⟨hroot,
      ⟨row, rows, hrows, rfl, -, rfl⟩ | ⟨hnone, newpath, title, parentID, updateID₁, s₁, hstrip,
        hinner, hcreate, -⟩⟩
    · rw [if_pos hroot]
      exact ⟨⟨[], .refl s', fun r hr => nomatch hr⟩, rfl⟩
    · rw [if_neg hroot, hrows]
      exact ⟨⟨[], .refl s', fun r hr => nomatch hr⟩, row, List.mem_cons_self, rfl⟩
    · obtain ⟨⟨created, hcreates, hmade⟩, -⟩ := ih _ _ _ _ _ _ _ _ hs hinner
      obtain ⟨newID, rfl, hnew⟩ := createContainer_ok hcreate
      have hshort : (reduce virtualContainerSeparator newpath).length ≤
          (reduce virtualContainerSeparator path).length :=
        Nat.le_trans (reduce_length_le _ _) (Nat.le_of_lt (stripAndUnescape_lt hstrip hroot))
      rw [if_neg hroot]
      refine ⟨⟨_, hcreates.trans hnew, fun r hr => ?_⟩, ?_⟩
      · rcases List.mem_append.mp hr with hr | hr
        · obtain ⟨hcontainer, q, hq, hmatch⟩ := hmade r hr
          exact ⟨hcontainer, q, Nat.le_trans hq hshort, hmatch⟩
        · rw [List.mem_singleton.mp hr]
          exact ⟨isContainer_containerRow, _, Nat.le_refl _, matchesVirtual_containerRow⟩
      · refine ⟨_, mem_rowsAt.mpr ⟨hnew.mem _ (List.mem_singleton_self _),
          matchesVirtual_containerRow⟩, rfl⟩

/-! ## Taking off one component -/

theorem getLast?_pathText (w : Str) (ws : List Str) :
    (pathText (w :: ws)).getLast? = some virtualContainerEscape ↔
      w.getLast? = some virtualContainerEscape := by
  rw [pathText, List.getLast?_append, List.getLast?_cons]
  rcases w.getLast? with _ | c
  · exact ⟨fun h => absurd (Option.some.inj h) (by decide), fun h => by cases h⟩
  · exact Iff.rfl

theorem strip_of_comesOff (hw : EscapedSeparators w) (h : ComesOff w ws) :
    stripAndUnescapeVirtualContainerFromPath (pathText (w :: ws)) =
      .ok (chainPath ws, componentTitle w) := by
  rcases ws with _ | ⟨v, ws⟩
  · have hpath : pathText [w] = virtualContainerSeparator :: w := rfl
    rw [hpath, strip_only hw]
    by_cases hsep : virtualContainerSeparator ∈ w
    · rw [if_pos hsep]
      rfl
    · have hself : componentTitle w = w := unescape_eq_self.mpr fun hesc => hsep (h hesc)
      rw [if_neg hsep, hself]
      rfl
  · rw [pathText, strip_last hw (head?_pathText v ws) fun hend => h ((getLast?_pathText v ws).mp hend)]
    rfl

/-- Where it does not come off: another title, or too much of the path is taken off. -/
theorem strip_of_not_comesOff (hw : EscapedSeparators w) (h : ¬ ComesOff w ws)
    {newpath title : Str} (hstrip : stripAndUnescapeVirtualContainerFromPath (pathText (w :: ws)) =
      .ok (newpath, title)) :
    (ws = [] ∧ title ≠ componentTitle w) ∨
      ws ≠ [] ∧ newpath.length < (pathText ws).length := by
  rcases ws with _ | ⟨v, ws⟩
  · obtain ⟨hesc, hsep⟩ := Classical.not_imp.mp h
    refine .inl ⟨rfl, fun htitle => ?_⟩
    have hpath : pathText [w] = virtualContainerSeparator :: w := rfl
    rw [hpath, strip_only hw, if_neg hsep] at hstrip
    injection hstrip with hpair
    have hself : w = title := congrArg Prod.snd hpair
    exact unescape_eq_self.mp (hself.trans htitle).symm hesc
  · have hend : v.getLast? = some virtualContainerEscape := not_not.mp h
    obtain ⟨newpath', title', hstrip', hlt, -⟩ :=
      strip_swallowed hw (head?_pathText v ws) ((getLast?_pathText v ws).mpr hend)
    rw [pathText, hstrip'] at hstrip
    injection hstrip with hpair
    have hsame : newpath' = newpath := congrArg Prod.fst hpair
    rw [hsame] at hlt
    exact .inr ⟨List.cons_ne_nil _ _, hlt⟩

/-! ## The chain a call leaves -/

/-- A text that is long enough not to be the separator alone. -/
theorem pathText_ne_separator (hne : w ≠ []) :
    pathText (w :: ws) ≠ [virtualContainerSeparator] := by
  intro h
  have hlong := congrArg List.length h
  have hpos := List.length_pos_of_ne_nil hne
  simp only [pathText, List.length_append, List.length_cons, List.length_nil] at hlong
  omega

/-- The path of the parent, as `reduce` leaves it. -/
theorem reduce_chainPath {path : Str}
    (h : reduce virtualContainerSeparator path = chainPath (w :: ws)) :
    reduce virtualContainerSeparator (chainPath ws) = chainPath ws := by
  rcases ws with _ | ⟨v, ws⟩
  · rfl
  · have hwhole : reduce virtualContainerSeparator (chainPath (w :: v :: ws)) =
        chainPath (w :: v :: ws) := by
      rw [← h]
      exact reduce_reduce
    rw [chainPath_cons] at hwhole
    exact reduce_of_append hwhole

/-- What is made at the end of a call. -/
theorem rowsAt_made {parentID : Int} {path title : Str} {lastClass : Option Str} {lastRefID : Int}
    {newID : {id : Int // cdsIdFsRoot < id}} {created : List ObjectRow} {n : Nat}
    (hs : ItemsBuffered s) (hcreates : Creates created s s₁) (hmade : MadeWithin n created)
    (hn : n < path.length)
    (hnew : Creates [containerRow newID parentID title path true lastClass lastRefID] s₁ s')
    (hnone : s.db.rowsAt path = []) :
    s'.db.rowsAt path = [containerRow newID parentID title path true lastClass lastRefID] ∧
      ∀ q : Str, q.length < path.length → s'.db.rowsAt q = s₁.db.rowsAt q := by
  have hs₁ := itemsBuffered_of_creates hcreates hs
  constructor
  · rw [rowsAt_of_creates hnew hs₁, rowsAt_of_creates hcreates hs, hnone,
      hmade.filter_eq_nil hn, List.filter_cons, if_pos matchesVirtual_containerRow]
    rfl
  · intro q hq
    rw [rowsAt_of_creates hnew hs₁, List.filter_cons, if_neg]
    · exact List.append_nil _
    · intro hmatch
      rw [matchesVirtual_inj hmatch matchesVirtual_containerRow] at hq
      exact Nat.lt_irrefl _ hq

/-- Below a container that has just been made, the chain goes on with its parent. -/
theorem hasChain_made_iff {parentID : Int} {title : Str} {lastClass : Option Str}
    {lastRefID : Int} {newID : {id : Int // cdsIdFsRoot < id}}
    (hrows : s'.db.rowsAt (pathText (w :: ws)) =
      [containerRow newID parentID title (pathText (w :: ws)) true lastClass lastRefID]) :
    HasChain s'.db (w :: ws) newID ↔
      title = componentTitle w ∧ HasChain s'.db ws parentID := by
  constructor
  · rintro ⟨row, hrow, -, -, -, htitle, hrest⟩
    obtain ⟨rfl, -⟩ := List.cons.inj (hrows.symm.trans hrow)
    exact ⟨Option.some.inj htitle, hrest⟩
  · rintro ⟨rfl, hrest⟩
    have hpos : cdsIdRoot < (newID : Int) :=
      Int.lt_trans (show cdsIdRoot < cdsIdFsRoot by decide) newID.property
    exact ⟨_, hrows, rfl, hpos, isContainer_containerRow, rfl, hrest⟩

/-- A chain does not end at the container of a path that is too short. -/
theorem not_hasChain_short {fuel : Nat} {newpath : Str} {parentID : Int}
    {updateID updateID' : Option Int} (hs : ItemsBuffered s) (hws : ws ≠ [])
    (hshort : newpath.length < (pathText ws).length)
    (hinner : (addContainerChainFrom fuel newpath none invalidObjectID updateID).run s =
      (.ok (parentID, updateID'), s₁))
    (hmono : ∀ r ∈ s₁.db.objects.rows, r ∈ s'.db.objects.rows) :
    ¬ HasChain s'.db ws parentID := by
  intro hchain
  rcases ws with _ | ⟨v, ws⟩
  · exact hws rfl
  · obtain ⟨row, hrow, hid, hpos, -⟩ := hchain
    obtain ⟨-, hresult⟩ := addContainerChainFrom_made _ _ _ _ _ _ _ _ _ hs hinner
    split at hresult
    · rw [hid, hresult] at hpos
      exact absurd hpos (Int.lt_irrefl _)
    · obtain ⟨row', hrow', hid'⟩ := hresult
      have hmem : row ∈ s'.db.rowsAt (pathText (v :: ws)) := by
        rw [hrow]
        exact List.mem_singleton_self _
      obtain ⟨hin, hmatch⟩ := mem_rowsAt.mp hmem
      obtain ⟨hin', hmatch'⟩ := mem_rowsAt.mp hrow'
      obtain rfl : row = row' :=
        s'.db.objects.eq_of_key_eq hin (hmono _ hin') (hid.trans hid'.symm)
      have hle := reduce_length_le virtualContainerSeparator newpath
      rw [matchesVirtual_inj hmatch' hmatch] at hle
      omega

/-- **The chain of a call**, for a path that is written as its components are: there is one, and
    all that has been made has a title, exactly if the table and the components allow it. -/
theorem addContainerChainFrom_chain : ∀ (ws : List Str) (fuel : Nat) (path : Str)
    (lastClass : Option Str) (lastRefID : Int) (updateID updateID' : Option Int)
    (s s' : StorageState) (id : Int),
    ItemsBuffered s → (∀ w ∈ ws, EscapedSeparators w ∧ w ≠ []) →
    reduce virtualContainerSeparator path = chainPath ws →
    (addContainerChainFrom fuel path lastClass lastRefID updateID).run s =
      (.ok (id, updateID'), s') →
    ((HasChain s'.db ws id ∧ TitlesMade s s') ↔ Chainable s.db ws) := by
  intro ws
  induction ws with
  | nil =>
    intro fuel path lastClass lastRefID updateID updateID' s s' id _ _ hpath h
    rcases fuel with _ | fuel
    · cases h
    · rcases addContainerChainFrom_cases h with ⟨-, rfl, -, rfl⟩ | ⟨hroot, -⟩
      · exact ⟨fun _ => trivial, fun _ => ⟨rfl, fun r hr hnew => absurd hr hnew⟩⟩
      · exact absurd hpath hroot
  | cons w ws ih =>
    intro fuel path lastClass lastRefID updateID updateID' s s' id hs hws hpath h
    obtain ⟨hw, hne⟩ := hws w List.mem_cons_self
    have htext : reduce virtualContainerSeparator path = pathText (w :: ws) := hpath
    rcases fuel with _ | fuel
    · cases h
    · rcases addContainerChainFrom_cases h with ⟨hroot, -⟩ | ⟨-,
        ⟨row, rows, hrows, rfl, -, rfl⟩ | ⟨hnone, newpath, title, parentID, updateID₁, s₁, hstrip,
          hinner, hcreate, -⟩⟩
      · rw [htext] at hroot
        exact absurd hroot (pathText_ne_separator hne)
      · -- the container is there
        rw [htext] at hrows
        unfold Chainable
        rw [if_neg (by rw [hrows]; exact List.cons_ne_nil _ _)]
        constructor
        · rintro ⟨hchain, -⟩
          exact ⟨_, hchain⟩
        · rintro ⟨id, hchain⟩
          refine ⟨?_, fun r hr hnew => absurd hr hnew⟩
          obtain ⟨row', hrow', rfl, hrest⟩ := hchain
          obtain ⟨rfl, -⟩ := List.cons.inj (hrows.symm.trans hrow')
          exact ⟨row, hrow', rfl, hrest⟩
      · -- it is made, below what the call for the rest of the path gives
        rw [htext] at hnone hstrip hcreate
        have hnotroot : pathText (w :: ws) ≠ [virtualContainerSeparator] :=
          pathText_ne_separator hne
        have hshorter : newpath.length < (pathText (w :: ws)).length :=
          stripAndUnescape_lt hstrip hnotroot
        obtain ⟨⟨created, hcreates, hmade⟩, -⟩ :=
          addContainerChainFrom_made _ _ _ _ _ _ _ _ _ hs hinner
        obtain ⟨newID, rfl, hnew⟩ := createContainer_ok hcreate
        have hwithin : (reduce virtualContainerSeparator newpath).length <
            (pathText (w :: ws)).length :=
          Nat.lt_of_le_of_lt (reduce_length_le _ _) hshorter
        obtain ⟨hrows, hsame⟩ := rowsAt_made hs hcreates hmade hwithin hnew hnone
        rw [hasChain_made_iff hrows, Chainable, if_pos hnone]
        by_cases hoff : ComesOff w ws
        · have hstrip' := strip_of_comesOff hw hoff
          rw [hstrip'] at hstrip
          injection hstrip with hpair
          obtain ⟨rfl, rfl⟩ := Prod.mk.inj hpair
          have hchain : HasChain s'.db ws parentID ↔ HasChain s₁.db ws parentID := by
            apply hasChain_congr
            intro q hq
            apply hsame
            rw [pathText, List.length_append, List.length_cons]
            omega
          have htitles : TitlesMade s s' ↔ TitlesMade s s₁ ∧ componentTitle w ≠ [] := by
            have hcontainers : ∀ r ∈ created, isCdsContainer r.objectType = true :=
              fun r hr => (hmade r hr).1
            rw [titlesMade_iff hcreates hs hcontainers, titlesMade_iff (hcreates.trans hnew) hs,
              List.forall_mem_append, List.forall_mem_singleton]
            · exact and_congr Iff.rfl (not_congr (Option.some_inj))
            · intro r hr
              rcases List.mem_append.mp hr with hr | hr
              · exact hcontainers r hr
              · rw [List.mem_singleton.mp hr]
                exact isContainer_containerRow
          have hrest := ih fuel (chainPath ws) none invalidObjectID updateID updateID₁ s s₁
            parentID hs (fun v hv => hws v (List.mem_cons_of_mem _ hv)) (reduce_chainPath hpath)
            hinner
          rw [hchain, htitles, ← hrest]
          constructor
          · rintro ⟨⟨-, hc⟩, ht, htitle⟩
            exact ⟨⟨hoff, htitle⟩, hc, ht⟩
          · rintro ⟨⟨-, htitle⟩, hc, ht⟩
            exact ⟨⟨rfl, hc⟩, ht, htitle⟩
        · refine ⟨fun h => ?_, fun h => absurd h.1.1 hoff⟩
          obtain ⟨⟨htitle, hchain⟩, -⟩ := h
          rcases strip_of_not_comesOff hw hoff hstrip with ⟨-, hother⟩ | ⟨hsome, hshort⟩
          · exact absurd htitle hother
          · exact absurd hchain (not_hasChain_short hs hsome hshort hinner hnew.mono)

/-! ## The container that changed -/

/-- The result where the container is there. -/
theorem addContainerChainFrom_found {fuel : Nat} {path : Str} {lastClass : Option Str}
    {lastRefID : Int} {updateID updateID' : Option Int}
    (hpath : reduce virtualContainerSeparator path = chainPath ws)
    (hthere : ∀ v vs, ws = v :: vs → s.db.rowsAt (pathText ws) ≠ [])
    (hne : ∀ v ∈ ws, v ≠ [])
    (h : (addContainerChainFrom fuel path lastClass lastRefID updateID).run s =
      (.ok (id, updateID'), s')) :
    id = deepestID s.db ws ∧ updateID' = updateID := by
  rcases fuel with _ | fuel
  · cases h
  · rcases ws with _ | ⟨w, ws⟩
    · rcases addContainerChainFrom_cases h with ⟨-, rfl, rfl, -⟩ | ⟨hroot, -⟩
      · exact ⟨rfl, rfl⟩
      · exact absurd hpath hroot
    · have htext : reduce virtualContainerSeparator path = pathText (w :: ws) := hpath
      rcases addContainerChainFrom_cases h with ⟨hroot, -⟩ | ⟨-,
        ⟨row, rows, hrows, rfl, rfl, -⟩ | ⟨hnone, -⟩⟩
      · rw [htext] at hroot
        exact absurd hroot (pathText_ne_separator (hne w List.mem_cons_self))
      · rw [htext] at hrows
        unfold deepestID
        rw [hrows]
        exact ⟨rfl, rfl⟩
      · rw [htext] at hnone
        exact absurd hnone (hthere w ws rfl)

theorem deepestID_nonneg (h : Chainable db ws) : 0 ≤ deepestID db ws := by
  induction ws with
  | nil => exact Int.le_refl 0
  | cons w ws ih =>
    unfold deepestID
    unfold Chainable at h
    split
    · next row rows hrows =>
      rw [if_neg (by rw [hrows]; exact List.cons_ne_nil _ _)] at h
      obtain ⟨id, row', hrow', -, hpos, -⟩ := h
      obtain ⟨rfl, -⟩ := List.cons.inj (hrows.symm.trans hrow')
      exact Int.le_of_lt hpos
    · next hnone =>
      rw [if_pos hnone] at h
      exact ih h.2

/-- **The container that changed** is the deepest one that was there. -/
theorem addContainerChainFrom_changed : ∀ (ws : List Str) (fuel : Nat) (path : Str)
    (lastClass : Option Str) (lastRefID : Int) (updateID' : Option Int)
    (s s' : StorageState) (id : Int),
    (∀ w ∈ ws, EscapedSeparators w ∧ w ≠ []) →
    reduce virtualContainerSeparator path = chainPath ws → Chainable s.db ws →
    (addContainerChainFrom fuel path lastClass lastRefID (some invalidObjectID)).run s =
      (.ok (id, updateID'), s') →
    updateID' = some (changedID s.db ws) := by
  intro ws
  induction ws with
  | nil =>
    intro fuel path lastClass lastRefID updateID' s s' id _ hpath _ h
    exact (addContainerChainFrom_found hpath (fun v vs hvs => nomatch hvs)
      (fun v hv => nomatch hv) h).2
  | cons w ws ih =>
    intro fuel path lastClass lastRefID updateID' s s' id hws hpath hchain h
    have hne : ∀ v ∈ w :: ws, v ≠ [] := fun v hv => (hws v hv).2
    have htext : reduce virtualContainerSeparator path = pathText (w :: ws) := hpath
    rw [changedID]
    by_cases hnone : s.db.rowsAt (pathText (w :: ws)) = []
    · rw [if_pos hnone]
      unfold Chainable at hchain
      rw [if_pos hnone] at hchain
      rcases fuel with _ | fuel
      · cases h
      · rcases addContainerChainFrom_cases h with ⟨hroot, -⟩ | ⟨-,
          ⟨row, rows, hrows, -⟩ | ⟨-, newpath, title, parentID, updateID₁, s₁, hstrip,
            hinner, -, rfl⟩⟩
        · rw [htext] at hroot
          exact absurd hroot (pathText_ne_separator (hne w List.mem_cons_self))
        · rw [htext, hnone] at hrows
          cases hrows
        · rw [htext, strip_of_comesOff (hws w List.mem_cons_self).1 hchain.1.1] at hstrip
          injection hstrip with hpair
          obtain ⟨rfl, rfl⟩ := Prod.mk.inj hpair
          have hpath' := reduce_chainPath hpath
          have hws' : ∀ v ∈ ws, EscapedSeparators v ∧ v ≠ [] :=
            fun v hv => hws v (List.mem_cons_of_mem _ hv)
          have hinner' := ih fuel (chainPath ws) none invalidObjectID updateID₁ s s₁ parentID hws'
            hpath' hchain.2 hinner
          by_cases hthere : ∀ v vs, ws = v :: vs → s.db.rowsAt (pathText ws) ≠ []
          · -- the parent is the deepest one that is there
            obtain ⟨rfl, rfl⟩ := addContainerChainFrom_found hpath' hthere
              (fun v hv => (hws' v hv).2) hinner
            rw [if_pos rfl]
          · -- the parent is made too, and the container below the deepest one is known
            push Not at hthere
            obtain ⟨v, vs, rfl, hnone'⟩ := hthere
            have hknown : changedID s.db (v :: vs) = deepestID s.db (v :: vs) := by
              rw [changedID, if_pos hnone', deepestID, hnone']
            have hnonneg := deepestID_nonneg hchain.2
            rw [hinner', hknown, if_neg]
            intro hinvalid
            rw [Option.some.inj hinvalid] at hnonneg
            exact absurd hnonneg (by decide)
    · rw [if_neg hnone]
      exact (addContainerChainFrom_found hpath (fun _ _ _ => hnone) hne h).2

/-! ## The whole call -/

/-- **What `addContainerChain` is to leave**: the chain of the path, nothing without a title, the
    container that changed, and a call that can be repeated. -/
structure ChainAdded (path : Str) (lastClass : Option Str) (lastRefID : Int) (s : StorageState)
    (id : Int) (updateID : Option Int) (s' : StorageState) : Prop where
  chain : HasChain s'.db (components path).reverse id
  titles : TitlesMade s s'
  updateID : updateID = some (changedID s.db (components path).reverse)
  again : (addContainerChain path lastClass lastRefID (some invalidObjectID)).run s' =
    (.ok (id, some invalidObjectID), s')

/-- A second call finds the container of the first. -/
theorem addContainerChain_again {path : Str} {lastClass : Option Str} {lastRefID : Int}
    {updateID updateID' : Option Int} (hs : ItemsBuffered s)
    (h : (addContainerChain path lastClass lastRefID updateID).run s = (.ok (id, updateID'), s')) :
    (addContainerChain path lastClass lastRefID (some invalidObjectID)).run s' =
      (.ok (id, some invalidObjectID), s') := by
  have hfound : ∀ row rows, s'.db.rowsAt (reduce virtualContainerSeparator path) = row :: rows →
      reduce virtualContainerSeparator path ≠ [virtualContainerSeparator] →
      (addContainerChain path lastClass lastRefID (some invalidObjectID)).run s' =
        (.ok (row.id, some invalidObjectID), s') := by
    intro row rows hrows hroot
    have hrows' : s'.db.selectObjects (matchesVirtualLocation (addLocationPrefix locVirtPrefix
      (some (reduce virtualContainerSeparator path)))) = row :: rows := hrows
    unfold addContainerChain
    rw [addContainerChainFrom]
    simp only
    rw [if_neg hroot, select, run_read_bind, hrows']
    rfl
  rcases addContainerChainFrom_cases h with ⟨hroot, rfl, -, rfl⟩ | ⟨hroot,
    ⟨row, rows, hrows, rfl, -, rfl⟩ | ⟨hnone, newpath, title, parentID, updateID₁, s₁, hstrip,
      hinner, hcreate, -⟩⟩
  · unfold addContainerChain
    rw [addContainerChainFrom]
    simp only
    rw [if_pos hroot]
    rfl
  · exact hfound row rows hrows hroot
  · obtain ⟨⟨created, hcreates, hmade⟩, -⟩ :=
      addContainerChainFrom_made _ _ _ _ _ _ _ _ _ hs hinner
    obtain ⟨newID, rfl, hnew⟩ := createContainer_ok hcreate
    have hwithin := Nat.lt_of_le_of_lt (reduce_length_le virtualContainerSeparator newpath)
      (stripAndUnescape_lt hstrip hroot)
    exact hfound _ [] (rowsAt_made hs hcreates hmade hwithin hnew hnone).1 hroot

/-- The result lies at the path as `reduce` leaves it, so a chain to it is the chain of that
    path. -/
theorem reduce_of_hasChain {path : Str} {lastClass : Option Str} {lastRefID : Int}
    {updateID updateID' : Option Int} (hs : ItemsBuffered s) (hpath : path ≠ [])
    (h : (addContainerChain path lastClass lastRefID updateID).run s = (.ok (id, updateID'), s'))
    (hchain : HasChain s'.db (components path).reverse id) :
    reduce virtualContainerSeparator path = chainPath (components path).reverse := by
  obtain ⟨-, hresult⟩ := addContainerChainFrom_made _ _ _ _ _ _ _ _ _ hs h
  rcases hws : (components path).reverse with _ | ⟨w, ws⟩
  · exact (reduce_eq_separator hpath).mpr (List.reverse_eq_nil_iff.mp hws)
  · rw [hws] at hchain
    obtain ⟨row, hrow, hid, hpos, -⟩ := hchain
    split at hresult
    · rw [hid, hresult] at hpos
      exact absurd hpos (Int.lt_irrefl _)
    · obtain ⟨row', hrow', hid'⟩ := hresult
      have hmem : row ∈ s'.db.rowsAt (pathText (w :: ws)) := by
        rw [hrow]
        exact List.mem_singleton_self _
      obtain ⟨hin, hmatch⟩ := mem_rowsAt.mp hmem
      obtain ⟨hin', hmatch'⟩ := mem_rowsAt.mp hrow'
      obtain rfl : row = row' :=
        s'.db.objects.eq_of_key_eq hin hin' (hid.trans hid'.symm)
      exact matchesVirtual_inj hmatch' hmatch

/-- A call that has returned. -/
theorem chainAdded_iff {path : Str} {lastClass : Option Str} {lastRefID : Int}
    {updateID : Option Int} (hs : ItemsBuffered s)
    (hpath : path.head? = some virtualContainerSeparator)
    (h : (addContainerChain path lastClass lastRefID (some invalidObjectID)).run s =
      (.ok (id, updateID), s')) :
    ChainAdded path lastClass lastRefID s id updateID s' ↔
      reduce virtualContainerSeparator path = chainPath (components path).reverse ∧
        Chainable s.db (components path).reverse := by
  have hne : path ≠ [] := by
    rintro rfl
    cases hpath
  have hws : ∀ w ∈ (components path).reverse, EscapedSeparators w ∧ w ≠ [] :=
    fun w hw => components_mem (List.mem_reverse.mp hw)
  constructor
  · intro hadded
    have hreduce := reduce_of_hasChain hs hne h hadded.chain
    exact ⟨hreduce, (addContainerChainFrom_chain _ _ _ _ _ _ _ _ _ _ hs hws hreduce h).mp
      ⟨hadded.chain, hadded.titles⟩⟩
  · rintro ⟨hreduce, hchain⟩
    obtain ⟨hleaves, htitles⟩ :=
      (addContainerChainFrom_chain _ _ _ _ _ _ _ _ _ _ hs hws hreduce h).mpr hchain
    exact ⟨hleaves, htitles, addContainerChainFrom_changed _ _ _ _ _ _ _ _ _ hws hreduce hchain h,
      addContainerChain_again hs h⟩

/-- The path of a parent starts with a separator. -/
theorem stripAndUnescape_absolute {path : Str} (h : path.head? = some virtualContainerSeparator) :
    ∃ newpath title, stripAndUnescapeVirtualContainerFromPath path = .ok (newpath, title) ∧
      newpath.head? = some virtualContainerSeparator := by
  unfold stripAndUnescapeVirtualContainerFromPath
  rw [if_neg (not_not.mpr h)]
  split
  · exact ⟨_, _, rfl, rfl⟩
  · exact ⟨_, _, rfl, rfl⟩
  · next last hrindex hlast =>
    split
    · exact ⟨_, _, rfl, rfl⟩
    · next sep hsep =>
      refine ⟨_, _, rfl, ?_⟩
      rcases path with _ | ⟨c, path⟩
      · cases h
      · rcases hlen : unescapedSeparator (c :: path) last last with _ | n
        · exact absurd hlen hsep
        · exact h

/-- **The call returns**, where it has no object to refer to. -/
theorem addContainerChainFrom_returns : ∀ (fuel : Nat) (path : Str) (lastClass : Option Str)
    (lastRefID : Int) (updateID : Option Int) (s : StorageState), Sound s → path.length < fuel →
    path.head? = some virtualContainerSeparator → lastRefID ≤ 0 →
    ∃ id updateID' s', (addContainerChainFrom fuel path lastClass lastRefID updateID).run s =
      (.ok (id, updateID'), s') ∧ Sound s' := by
  intro fuel
  induction fuel with
  | zero =>
    intro path lastClass lastRefID updateID s _ hfuel
    exact absurd hfuel (Nat.not_lt_zero _)
  | succ fuel ih =>
    intro path lastClass lastRefID updateID s hs hfuel hpath href
    rw [addContainerChainFrom]
    simp only
    by_cases hroot : reduce virtualContainerSeparator path = [virtualContainerSeparator]
    · rw [if_pos hroot]
      exact ⟨_, _, s, rfl, hs⟩
    · rw [if_neg hroot, select, run_read_bind]
      rcases s.db.selectObjects (matchesVirtualLocation (addLocationPrefix locVirtPrefix
        (some (reduce virtualContainerSeparator path)))) with _ | ⟨row, rows⟩
      · obtain ⟨newpath, title, hstrip, habsolute⟩ := stripAndUnescape_absolute
          ((head?_reduce virtualContainerSeparator path).trans hpath)
        have hlt := stripAndUnescape_lt hstrip hroot
        have hle := reduce_length_le virtualContainerSeparator path
        obtain ⟨parentID, updateID₁, s₁, hinner, hs₁⟩ :=
          ih newpath none invalidObjectID updateID s hs (by omega) habsolute (by decide)
        obtain ⟨id, s₂, hcreate, hs₂⟩ := createContainer_returns parentID title
          (reduce virtualContainerSeparator path) true lastClass hs₁ href
        simp only
        rw [hstrip, ofExcept_ok_bind]
        simp only
        rw [run_bind_of_ok hinner]
        simp only
        rw [run_bind_of_ok hcreate]
        exact ⟨_, _, s₂, rfl, hs₂⟩
      · exact ⟨_, _, s, rfl, hs⟩

/-- **When `addContainerChain` does what it is for.**  Exactly when the path is written as its
    components are, and the table and the components allow the chain.  A reference the last
    container is given has to be an object that can be loaded. -/
theorem addContainerChain_iff {path : Str} {lastClass : Option Str} {lastRefID : Int}
    (hs : Sound s) (hpath : path.head? = some virtualContainerSeparator)
    (href : 0 < lastRefID → ∃ result s',
      (addContainerChain path lastClass lastRefID (some invalidObjectID)).run s =
        (.ok result, s')) :
    (∃ id updateID s', (addContainerChain path lastClass lastRefID (some invalidObjectID)).run s =
        (.ok (id, updateID), s') ∧ ChainAdded path lastClass lastRefID s id updateID s') ↔
      reduce virtualContainerSeparator path = chainPath (components path).reverse ∧
        Chainable s.db (components path).reverse := by
  have hreturns : ∃ result s', (addContainerChain path lastClass lastRefID
      (some invalidObjectID)).run s = (.ok result, s') := by
    by_cases hpos : 0 < lastRefID
    · exact href hpos
    · obtain ⟨id, updateID, s', hrun, -⟩ := addContainerChainFrom_returns (path.length + 1) path
        lastClass lastRefID (some invalidObjectID) s hs (Nat.lt_succ_self _) hpath
        (Int.not_lt.mp hpos)
      exact ⟨_, s', hrun⟩
  obtain ⟨⟨id, updateID⟩, s', hrun⟩ := hreturns
  constructor
  · rintro ⟨id', updateID', s'', hrun', hadded⟩
    exact (chainAdded_iff hs.items hpath hrun').mp hadded
  · intro hcond
    exact ⟨id, updateID, s', hrun, (chainAdded_iff hs.items hpath hrun).mpr hcond⟩

/-- Two containers on a table as the schema leaves it. -/
theorem addContainerChain_allMusic : ∃ id updateID s',
    (addContainerChain (str "/Audio/All Music") none invalidObjectID (some invalidObjectID)).run
        (.started .fresh false .ok) = (.ok (id, updateID), s') ∧
      ChainAdded (str "/Audio/All Music") none invalidObjectID (.started .fresh false .ok) id
        updateID s' := by
  have hcomponents : (components (str "/Audio/All Music")).reverse =
      [str "All Music", str "Audio"] := by decide
  refine (addContainerChain_iff (sound_started (by decide) (by decide) false .ok) (by decide)
    fun hpos => absurd hpos (by decide)).mpr ?_
  rw [hcomponents]
  refine ⟨by decide, ?_⟩
  show Chainable Database.fresh _
  unfold Chainable
  rw [if_pos (by decide)]
  refine ⟨⟨show (str "Audio").getLast? ≠ some virtualContainerEscape by decide, by decide⟩, ?_⟩
  unfold Chainable
  rw [if_pos (by decide)]
  exact ⟨⟨fun hesc => absurd hesc (by decide), by decide⟩, trivial⟩

/-- What the path of the interface's own example leaves. -/
def trailingSlashRows : List ObjectRow :=
  ((addContainerChain (str "/Audio/All Music/") none invalidObjectID (some invalidObjectID)).run
    (.started .fresh false .ok)).2.db.objects.rows

/-- **A separator at the end makes a container without a title.** -/
theorem addContainerChain_trailing_slash : ¬ ∀ (s : StorageState) (path : Str), Sound s →
    path.head? = some virtualContainerSeparator →
    ∃ id updateID s', (addContainerChain path none invalidObjectID (some invalidObjectID)).run s =
        (.ok (id, updateID), s') ∧ ChainAdded path none invalidObjectID s id updateID s' := by
  intro hclaim
  obtain ⟨id, updateID, s', hrun, hadded⟩ := hclaim (.started .fresh false .ok)
    (str "/Audio/All Music/") (sound_started (by decide) (by decide) false .ok) (by decide)
  have hrows : s'.db.objects.rows = trailingSlashRows := by
    unfold trailingSlashRows
    rw [hrun]
  have hmade : ∃ r ∈ trailingSlashRows, r ∉ Database.fresh.objects.rows ∧
      isCdsContainer r.objectType = true ∧ r.dcTitle = some [] := by
    decide +kernel
  obtain ⟨r, hr, hnew, hcontainer, htitle⟩ := hmade
  exact hadded.titles r (hrows ▸ hr) hnew hcontainer htitle

end

end MediaTomb
