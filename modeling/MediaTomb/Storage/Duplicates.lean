/-
  Virtual objects that are there twice.

  `_addUpdateObject` looks for a row with the same parent, reference and title before it adds a virtual
  object.  It looks into the TABLE, and the row it looks for may still be in the insert buffer: whether
  it has been flushed depends on what was asked in between.  Without a buffer the look is enough.

  `Holding objs items rows s` says which rows there are, stored or buffered, and that no key will be
  refused; every block of `addObject` leaves them, or adds the one row it is about.
-/
import MediaTomb.Storage.StoredObject

namespace MediaTomb

open Lib.Prog

/-! ## Two rows for one reference -/

/-- Two rows for the same reference, under the same title in the same container. -/
def SameReference (r r' : ObjectRow) : Prop :=
  r.parentID = r'.parentID ∧ r.refID = r'.refID ∧ 0 < r.refID.getD 0 ∧ r.dcTitle = r'.dcTitle

instance (r r' : ObjectRow) : Decidable (SameReference r r') := by
  unfold SameReference
  infer_instance

theorem SameReference.symm {r r' : ObjectRow} (h : SameReference r r') : SameReference r' r := by
  obtain ⟨hparent, href, hpos, htitle⟩ := h
  exact ⟨hparent.symm, href.symm, href ▸ hpos, htitle.symm⟩

def DistinctReferences (rows : List ObjectRow) : Prop :=
  rows.Pairwise fun r r' => ¬ SameReference r r'

instance (rows : List ObjectRow) : Decidable (DistinctReferences rows) := by
  unfold DistinctReferences
  infer_instance

theorem DistinctReferences.perm {rows rows' : List ObjectRow} (h : DistinctReferences rows)
    (hperm : rows'.Perm rows) : DistinctReferences rows' :=
  (hperm.pairwise_iff fun hne heq => hne heq.symm).mpr h

theorem DistinctReferences.cons {rows : List ObjectRow} {r : ObjectRow}
    (h : DistinctReferences rows) (hnew : ∀ r' ∈ rows, ¬ SameReference r r') :
    DistinctReferences (r :: rows) := List.pairwise_cons.mpr ⟨hnew, h⟩

/-! ## The condition -/

/-- **The check sees what it looks for**: once the reference is found, no row that is still buffered
    has the same parent, reference and title; and an entry of a playlist, which is not checked, has
    no such row at all. -/
structure SeesDuplicates (obj : CdsObject) (s : StorageState) : Prop where
  reference : ∀ refObj s₁, (resolveReference obj).run s = (.ok (.reference refObj), s₁) →
    0 < refObj.id → ∀ r ∈ s₁.bufferedRows, isDuplicate obj refObj r = false
  playlist : ∀ refObj s₁, (resolveReference obj).run s = (.ok (.playlist refObj), s₁) →
    0 < refObj.id → ∀ r ∈ s₁.rows, isDuplicate obj refObj r = false

/-! ## The rows there are -/

structure Holding (objs items : Multiset Int) (rows : Multiset ObjectRow) (s : StorageState) :
    Prop where
  keys : FreshKeys objs items s
  allRows : (s.rows : Multiset ObjectRow) = rows

section

variable {objs items : Multiset Int} {rows : Multiset ObjectRow} {s s' : StorageState}
  {E : StorageState → Prop}

/-- The cache, and what is owed to it, is nothing that is held. -/
theorem Holding.told (h : Holding objs items rows s) (cache : Option StorageCache)
    (uncounted : List Int) :
    Holding objs items rows { s with cache := cache, uncounted := uncounted } :=
  ⟨⟨h.keys.objects, h.keys.activeItems⟩, h.allRows⟩

theorem Holding.flushed (h : Holding objs items rows s) (hf : Flushed s s') :
    Holding objs items rows s' :=
  ⟨h.keys.flushed hf, by rw [hf.rows]; exact h.allRows⟩

theorem Holding.mono (h : Holding objs items rows s) {objs' items' : Multiset Int}
    (hobjs : objs' ≤ objs) (hitems : items' ≤ items) : Holding objs' items' rows s :=
  ⟨h.keys.mono hobjs hitems, h.allRows⟩

/-! ## Sections under the cache lock -/

theorem holding_modifyCache (f : StorageCache → StorageCache) :
    Triple (Holding objs items rows) (modifyCache f) (fun _ => Holding objs items rows) E :=
  triple_modify fun _ hs => hs.told _ _

theorem holding_addChild (parentID : Int) :
    Triple (Holding objs items rows) (addChild parentID) (fun _ => Holding objs items rows) E :=
  triple_modify fun _ hs => hs.told _ _

theorem holding_flush : Triple (Holding objs items rows) flushInsertBuffer
    (fun _ => Holding objs items rows) E := by
  intro s hs
  obtain ⟨s', hrun, hf⟩ := hs.keys.run_flush
  rw [hrun]
  exact hs.flushed hf

theorem holding_flushIfFlushed : Triple (Holding objs items rows) flushIfFlushed
    (fun _ => Holding objs items rows) E := by
  refine triple_get_bind fun s hs => ?_
  rcases s.cache with _ | c
  · exact triple_pure fun s' hs' => hs' ▸ hs
  · refine triple_bind (triple_conseq (holding_modifyCache fun c => c.flushed.2)
      (fun s' hs' => hs' ▸ hs) (fun _ _ h => h) fun _ h => h) fun _ => ?_
    show Triple _ (if c.flushed.1 then flushInsertBuffer else pure ()) _ _
    split
    · exact holding_flush
    · exact triple_pure fun _ h => h

theorem holding_addObjectToCacheLocked (obj : CdsObject) :
    Triple (Holding objs items rows) (addObjectToCacheLocked obj)
      (fun _ => Holding objs items rows) E :=
  triple_bind (holding_modifyCache _) fun _ =>
    triple_bind holding_flushIfFlushed fun _ => holding_modifyCache _

theorem holding_addToCacheAsChild (obj : CdsObject) :
    Triple (Holding objs items rows) (addToCacheAsChild obj)
      (fun _ => Holding objs items rows) E :=
  triple_bind (holding_addChild _) fun _ =>
    triple_bind holding_flushIfFlushed fun _ => holding_addObjectToCacheLocked obj

theorem holding_informCache (newID parentID : Int) (path : Str) :
    Triple (Holding objs items rows) (informCache newID parentID path)
      (fun _ => Holding objs items rows) E :=
  triple_bind (holding_addChild _) fun _ => triple_bind holding_flushIfFlushed fun _ =>
    triple_bind (holding_modifyCache _) fun _ => triple_bind holding_flushIfFlushed fun _ =>
      holding_modifyCache _

/-- What is done under the cache lock, where there is a cache. -/
theorem holding_ifCache {α : Type} {m : Storage Unit} {n : Storage α} {Q : α → StorageState → Prop}
    (hm : Triple (Holding objs items rows) m (fun _ => Holding objs items rows) E)
    (hn : Triple (Holding objs items rows) n Q E) :
    Triple (Holding objs items rows)
      (cacheOn >>= fun on => if on then locked m >>= fun _ => n else n) Q E := by
  refine triple_bind (M := fun _ => Holding objs items rows) (triple_read fun _ h => h) fun on => ?_
  split
  · exact triple_bind (triple_locked hm) fun _ => hn
  · exact hn

/-! ## Rows that come -/

theorem Holding.insert (h : Holding objs items rows s) {objs' items' : Multiset Int}
    {row : ObjectRow} (hkeys : FreshKeys objs' items' s') (hrows : s'.rows.Perm (row :: s.rows)) :
    Holding objs' items' (row ::ₘ rows) s' :=
  ⟨hkeys, by rw [Multiset.coe_eq_coe.mpr hrows, ← Multiset.cons_coe, h.allRows]⟩

theorem holding_execInsertObject {row : ObjectRow} :
    Triple (Holding (row.id ::ₘ objs) items rows) (execInsertObject row)
      (fun _ => Holding objs items (row ::ₘ rows)) E := by
  intro s hs
  obtain ⟨db, -, hrun, hperm, hkeys⟩ := hs.keys.run_execInsertObject
  rw [hrun]
  exact hs.insert hkeys hperm

/-- The INSERT of an object, at once or buffered. -/
theorem holding_insertObject {text : Str} {row : ObjectRow} :
    Triple (Holding (row.id ::ₘ objs) items rows) (insertOrBuffer (.insertObject text row))
      (fun _ => Holding objs items (row ::ₘ rows)) E := by
  refine triple_bind (M := fun _ => Holding (row.id ::ₘ objs) items rows)
    (triple_read fun _ h => h) fun on => ?_
  split
  · intro s hs
    have hkeys : FreshKeys objs items (bufferedState (.insertObject text row) s) :=
      hs.keys.buffer_object
    have hbuffered : Holding objs items (row ::ₘ rows) (bufferedState (.insertObject text row) s) := by
      refine hs.insert hkeys ?_
      rw [bufferedState_rows]
      exact List.perm_append_singleton row s.rows
    obtain ⟨s', hrun, hf⟩ := hkeys.run_addToInsertBuffer
    rw [hrun]
    exact hbuffered.flushed hf
  · exact holding_execInsertObject

/-- The INSERT of an active item. -/
theorem holding_insertActiveItem {text : Str} {row : ActiveItemRow} :
    Triple (Holding objs (row.id ::ₘ items) rows) (insertOrBuffer (.insertActiveItem text row))
      (fun _ => Holding objs items rows) E := by
  refine triple_bind (M := fun _ => Holding objs (row.id ::ₘ items) rows)
    (triple_read fun _ h => h) fun on => ?_
  split
  · intro s hs
    have hkeys : FreshKeys objs items (bufferedState (.insertActiveItem text row) s) :=
      hs.keys.buffer_activeItem
    have hbuffered : Holding objs items rows (bufferedState (.insertActiveItem text row) s) := by
      refine ⟨hkeys, ?_⟩
      rw [bufferedState_rows]
      exact (congrArg _ (List.append_nil _)).trans hs.allRows
    obtain ⟨s', hrun, hf⟩ := hkeys.run_addToInsertBuffer
    rw [hrun]
    exact hbuffered.flushed hf
  · intro s hs
    obtain ⟨t, hins, hkeys⟩ := hs.keys.insertActiveItem?
    rw [run_exec?, hins]
    exact ⟨hkeys, hs.allRows⟩

end

/-! ## The invariant -/

/-- No key will be refused, and no reference is there twice. -/
structure DuplicateFree (s : StorageState) : Prop where
  keys : FreshKeys 0 0 s
  distinct : DistinctReferences s.rows

section

variable {s s' : StorageState}

theorem DuplicateFree.holding (h : DuplicateFree s) :
    Holding 0 0 (s.rows : Multiset ObjectRow) s := ⟨h.keys, rfl⟩

/-- The rows are those there were. -/
theorem DuplicateFree.of_holding (h : DuplicateFree s)
    (h' : Holding 0 0 (s.rows : Multiset ObjectRow) s') : DuplicateFree s' :=
  ⟨h'.keys, h.distinct.perm (Multiset.coe_eq_coe.mp h'.allRows)⟩

/-- A row came that refers to nothing that is there. -/
theorem DuplicateFree.of_insert (h : DuplicateFree s) {row : ObjectRow}
    (hnew : ∀ r ∈ s.rows, ¬ SameReference row r)
    (h' : Holding 0 0 (row ::ₘ (s.rows : Multiset ObjectRow)) s') : DuplicateFree s' :=
  ⟨h'.keys, (h.distinct.cons hnew).perm (Multiset.coe_eq_coe.mp h'.allRows)⟩

/-- A block that leaves the rows as they are. -/
theorem duplicateFree_of {α : Type} {m : Storage α}
    (h : ∀ rows, Triple (Holding 0 0 rows) m (fun _ => Holding 0 0 rows) (Holding 0 0 rows)) :
    Keeps (Frame.inv DuplicateFree) m :=
  fun s hs => hs.of_holding ((h (s.rows : Multiset ObjectRow)).final hs.holding)

theorem querySections_duplicateFree : QuerySections (Frame.inv DuplicateFree).logic where
  flush := duplicateFree_of fun _ => holding_flush
  toCache obj := duplicateFree_of fun rows => by
    refine triple_bind (M := fun _ => Holding 0 0 rows) (triple_read fun _ h => h) fun on => ?_
    split
    · exact triple_locked (holding_addObjectToCacheLocked obj)
    · exact triple_pure fun _ h => h

/-- **A directory** refers to nothing. -/
theorem duplicateFree_newDirectory (parentID : Int) (name path : Str) :
    Keeps (Frame.inv DuplicateFree) (do
      let newID ← getNextID
      execInsertObject (containerRow newID parentID name path false none invalidObjectID)
      if ← cacheOn then
        locked (informCache newID parentID path)
      pure (newID : Int)) := by
  intro s hs
  rcases hs.keys.getNextID with ⟨e, hrun⟩ | ⟨id, -, hrun, hkeys⟩
  · rw [run_bind_of_error hrun]
    exact hs
  · rw [run_bind_of_ok hrun]
    let row := containerRow id parentID name path false none invalidObjectID
    have hnew : ∀ r ∈ s.rows, ¬ SameReference row r := fun r _ h => absurd h.2.2.1 (lt_irrefl 0)
    have hreserved : Holding (row.id ::ₘ 0) 0 (s.rows : Multiset ObjectRow)
        { s with lastID := s.lastID + 1 } :=
      ⟨hkeys.mono (le_refl _) (Multiset.zero_le ((id : Int) ::ₘ 0)), rfl⟩
    have hinserted : Triple (Holding (row.id ::ₘ 0) 0 (s.rows : Multiset ObjectRow))
        (execInsertObject row) (fun _ => Holding 0 0 (row ::ₘ (s.rows : Multiset ObjectRow)))
        DuplicateFree := holding_execInsertObject
    exact Triple.final (triple_bind hinserted fun _ =>
      holding_ifCache (holding_informCache _ _ _)
        (triple_pure fun t ht => hs.of_insert hnew ht)) hreserved

theorem directorySections_duplicateFree : DirectorySections (Frame.inv DuplicateFree).logic where
  toQuerySections := querySections_duplicateFree
  directory parentID name path := holds_createContainer querySections_duplicateFree
    (duplicateFree_newDirectory parentID name path)

/-- **`insertNewObject`** adds the one row, where it is no duplicate. -/
theorem duplicateFree_insertNewObject {cols : ObjectColumns} (obj : CdsObject)
    (hs : DuplicateFree s)
    (hnew : ∀ id, ∀ r ∈ s.rows, ¬ SameReference (cols.insertRow id) r) :
    DuplicateFree ((insertNewObject cols obj).run s).2 := by
  unfold insertNewObject
  rcases hs.keys.getNextID with ⟨e, hrun⟩ | ⟨id, -, hrun, hkeys⟩
  · rw [run_bind_of_error hrun]
    exact hs
  · rw [run_bind_of_ok hrun]
    let row := cols.insertRow id
    let Mid (items : Multiset Int) : StorageState → Prop :=
      Holding 0 items (row ::ₘ (s.rows : Multiset ObjectRow))
    have hreserved : Holding (row.id ::ₘ 0) ((id : Int) ::ₘ 0) (s.rows : Multiset ObjectRow)
        { s with lastID := s.lastID + 1 } := ⟨hkeys, rfl⟩
    have hobject : Triple
        (Holding (row.id ::ₘ 0) ((id : Int) ::ₘ 0) (s.rows : Multiset ObjectRow))
        (insertOrBuffer (insertObjectStatement cols id)) (fun _ => Mid ((id : Int) ::ₘ 0))
        DuplicateFree := holding_insertObject
    have hfinish : Triple (Mid 0)
        (cacheOn >>= fun on => if on then locked (addToCacheAsChild { obj with id := id }) >>= fun _ =>
          (pure { obj with id := (id : Int) } : Storage CdsObject) else pure { obj with id := id })
        (fun _ => DuplicateFree) DuplicateFree :=
      holding_ifCache (holding_addToCacheAsChild _)
        (triple_pure fun t ht => hs.of_insert (hnew id) ht)
    refine Triple.final (triple_bind hobject fun _ => ?_) hreserved
    simp only
    split
    · next action state _ =>
      let item : ActiveItemRow := { id := id, action := action, state := state }
      have hitem : Triple (Mid (item.id ::ₘ 0))
          (insertOrBuffer (insertActiveItemStatement id action state)) (fun _ => Mid 0)
          DuplicateFree := holding_insertActiveItem
      exact triple_bind hitem fun _ => hfinish
    · exact triple_conseq hfinish (fun t ht => ht.mono (le_refl _) (Multiset.zero_le _))
        (fun _ _ h => h) fun _ h => h

/-! ## `addObject` -/

/-- A reference leaves nothing to place, and neither does anything but a file. -/
theorem placeItem_state {isUpdate : Bool} {obj placed : CdsObject} {hasReference : Option CdsObject}
    {cols cols' : ObjectColumns} {changed : Option Int}
    (h : (placeItem isUpdate obj hasReference cols).run s = (.ok (cols', placed, changed), s'))
    (hplace : hasReference.isSome = true ∨ isCdsPureItem obj.objectType = false) :
    s' = s ∧ placed = obj := by
  unfold placeItem at h
  split at h
  · cases h
    exact ⟨rfl, rfl⟩
  · split at h
    · cases h
    · cases h
    · rcases hplace with hsome | hother
      · cases hsome
      · rw [hother] at h
        cases h
        exact ⟨rfl, rfl⟩

/-- **What `_addUpdateObject` found out** about a new object, in the state it leaves. -/
theorem addUpdateObject_checked {obj : CdsObject} {r : AddUpdate} {cols : ObjectColumns}
    (hrun : (addUpdateObject_ obj false).run s = (.ok r, s')) (hcols : r.data = some cols) :
    ∃ ref s₁, (resolveReference obj).run s = (.ok ref, s₁) ∧
      cols.refID = ref.refObj.map (fun refObj => some refObj.id) ∧
      cols.dcTitle = some (obj.title.getD []) ∧
      (ref.refObj.isSome = true → s' = s₁ ∧ cols.parentID = some obj.parentID) ∧
      (∀ refObj, ref = .reference refObj →
        s₁.db.selectObjects (isDuplicate obj refObj) = []) := by
  have hcopy := hrun
  unfold addUpdateObject_ at hrun
  obtain ⟨ref, s₁, href, hrun⟩ := bind_ok hrun
  obtain ⟨⟨placedCols, placed, changed⟩, s₂, hplace, hrun⟩ := bind_ok hrun
  obtain ⟨duplicates, s₃, hselect, hrun⟩ := bind_ok hrun
  -- only an item gets so far
  rcases hitem : obj.kind.itemData? with _ | item
  · exfalso
    unfold placeObject at hplace
    have hnone : (obj.clearFlag objectFlagUseResourceRef).kind.itemData? = none := hitem
    rw [hnone] at hplace
    cases hplace
  · have hcolumns := columns_of_item hitem href hcopy hcols
    have hs₃ : s₃ = s₂ := by
      unfold selectDuplicates at hselect
      split at hselect
      · cases hselect
        rfl
      · cases hselect
        rfl
    have hnone : duplicates = [] ∧ s' = s₃ ∧ cols.parentID = some placed.parentID := by
      split_ifs at hrun with hdup hparent
      · cases hrun
        cases hcols
      · cases hrun
      · cases hrun
        cases hcols
        exact ⟨not_not.mp hdup, rfl, rfl⟩
    have hplaced : ref.refObj.isSome = true → s₂ = s₁ ∧ placed.parentID = obj.parentID := by
      intro hsome
      unfold placeObject at hplace
      have hitem' : (obj.clearFlag objectFlagUseResourceRef).kind.itemData? = some item := hitem
      rw [hitem'] at hplace
      obtain ⟨⟨itemCols, itemPlaced, itemChanged⟩, s₄, hitemPlace, hret⟩ := bind_ok hplace
      cases hret
      have hwhere : ref.hasReference.isSome = true ∨
          isCdsPureItem (obj.clearFlag objectFlagUseResourceRef).objectType = false := by
        rcases hpure : isCdsPureItem obj.objectType with _ | _
        · exact Or.inr hpure
        · rw [← pure_reference href hpure]
          exact Or.inl hsome
      obtain ⟨hstate, hobj⟩ := placeItem_state hitemPlace hwhere
      rw [hobj]
      exact ⟨hstate, rfl⟩
    refine ⟨ref, s₁, href, ?_, hcolumns.dcTitle, fun hsome => ?_, fun refObj hreference => ?_⟩
    · rw [hcolumns.refID]
      unfold commonColumns
      rcases ref.refObj with _ | refObj
      · rfl
      · rfl
    · obtain ⟨hstate, hparent⟩ := hplaced hsome
      rw [hnone.2.1, hs₃, hstate, hnone.2.2, hparent]
      exact ⟨rfl, rfl⟩
    · obtain ⟨hstate, hparent⟩ := hplaced (by rw [hreference]; rfl)
      rw [hreference] at hselect
      have hread : s₂.db.selectObjects (isDuplicate placed refObj) = duplicates := by
        cases hselect
        rfl
      have htitle : placed.title = obj.title := by
        have hobj := placeObject_obj (returns_of_run hplace)
        simp only at hobj
        rw [hobj]
        rfl
      have hsame : isDuplicate placed refObj = isDuplicate obj refObj := by
        unfold isDuplicate
        rw [hparent, htitle]
      rw [← hstate, ← hsame, hread, hnone.1]

/-- **`addObject` adds no duplicate** where the check sees what it looks for. -/
theorem duplicateFree_addObject {obj : CdsObject} (hs : DuplicateFree s)
    (hsees : SeesDuplicates obj s) : DuplicateFree ((addObject obj).run s).2 := by
  unfold addObject
  by_cases hid : obj.id ≠ invalidObjectID
  · rw [if_pos hid]
    exact hs
  rw [if_neg hid]
  have hupdated : DuplicateFree ((addUpdateObject_ obj false).run s).2 :=
    holds_addUpdateObject directorySections_duplicateFree obj false s hs
  rcases hrun : (addUpdateObject_ obj false).run s with ⟨e | r, s'⟩
  · rw [hrun] at hupdated
    rw [run_bind_of_error hrun]
    exact hupdated
  · rw [hrun] at hupdated
    rw [run_bind_of_ok hrun]
    rcases hcols : r.data with _ | cols
    · exact hupdated
    · have hinsert : DuplicateFree ((insertNewObject cols r.obj).run s').2 := by
        refine duplicateFree_insertNewObject r.obj hupdated fun id row hrow hsame => ?_
        obtain ⟨ref, s₁, href, hcolRef, hcolTitle, hplaced, hchecked⟩ :=
          addUpdateObject_checked hrun hcols
        obtain ⟨hparent, hrefID, hpos, htitle⟩ := hsame
        have hnewRef : (cols.insertRow id).refID = ref.refObj.map CdsObject.id := by
          show cols.refID.getD none = _
          rw [hcolRef]
          cases ref.refObj <;> rfl
        rcases hrefObj : ref.refObj with _ | refObj
        · rw [hnewRef, hrefObj] at hpos
          exact absurd hpos (lt_irrefl 0)
        · obtain ⟨hstate, hcolParent⟩ := hplaced (by rw [hrefObj]; rfl)
          have hdup : isDuplicate obj refObj row = true := by
            have hp : row.parentID = obj.parentID := by
              rw [← hparent]
              show cols.parentID.getD _ = _
              rw [hcolParent]
              rfl
            have hr : row.refID = some refObj.id := by
              rw [← hrefID, hnewRef, hrefObj]
              rfl
            have ht : row.dcTitle = some (obj.title.getD []) := by
              rw [← htitle]
              show (cols.dcTitle <|> none) = _
              rw [hcolTitle]
              rfl
            unfold isDuplicate
            simp [hp, hr, ht]
          have hgiven : 0 < refObj.id := by
            rw [hnewRef, hrefObj] at hpos
            exact hpos
          rw [hstate] at hrow
          cases ref with
          | none => cases hrefObj
          | playlist refObj' =>
            cases hrefObj
            rw [hsees.playlist refObj s₁ href hgiven row hrow] at hdup
            cases hdup
          | reference refObj' =>
            cases hrefObj
            rcases List.mem_append.mp hrow with hstored | hbuffered
            · -- the query would have found it
              have hin : row ∈ s₁.db.selectObjects (isDuplicate obj refObj) :=
                List.mem_filter.mpr ⟨hstored, hdup⟩
              rw [hchecked refObj rfl] at hin
              cases hin
            · rw [hsees.reference refObj s₁ href hgiven row hbuffered] at hdup
              cases hdup
      rcases hins : (insertNewObject cols r.obj).run s' with ⟨e | o, s₂⟩
      · rw [hins] at hinsert
        simp only
        rw [run_bind_of_error hins]
        exact hinsert
      · rw [hins] at hinsert
        simp only
        rw [run_bind_of_ok hins]
        exact hinsert

/-- What is asked of each call of the run. -/
def AddSees (op : Op) (s : StorageState) : Prop := ∀ obj, op = .addObject obj → SeesDuplicates obj s

theorem duplicateFree_started {db : Database} (howned : ActiveItemsOwned db)
    (hdb : DistinctReferences db.objects.rows) (cachingEnabled : Bool)
    (f2i : Str → Except Exception Str) : DuplicateFree (.started db cachingEnabled f2i) := by
  refine ⟨freshKeys_started howned cachingEnabled f2i, ?_⟩
  have hrows : (StorageState.started db cachingEnabled f2i).rows = db.objects.rows :=
    List.append_nil _
  rw [hrows]
  exact hdb

/-- **No reference is there twice**, in any state a run of `addObject` reaches whose checks see what
    they look for. -/
theorem references_distinct (db : Database) (cachingEnabled : Bool)
    (f2i : Str → Except Exception Str) (objs : List CdsObject) (howned : ActiveItemsOwned db)
    (hdb : DistinctReferences db.objects.rows)
    (hsees : EveryStep AddSees (objs.map Op.addObject) (.started db cachingEnabled f2i)) :
    DistinctReferences (runOps (objs.map Op.addObject) (.started db cachingEnabled f2i)).rows := by
  have hstart := duplicateFree_started howned hdb cachingEnabled f2i
  generalize StorageState.started db cachingEnabled f2i = s at hsees hstart
  refine DuplicateFree.distinct ?_
  induction objs generalizing s with
  | nil => exact hstart
  | cons obj objs ih =>
    obtain ⟨hobj, hrest⟩ := hsees
    refine ih _ hrest ?_
    have hadd := duplicateFree_addObject hstart (hobj obj rfl)
    rw [← run_ignore] at hadd
    exact hadd

end

/-! ### The same picture twice -/

/-- A reference to the file 3, in the root. -/
def fileReference : CdsObject :=
  { plainFile (str "/a/x") with refID := 3, parentID := 0, virt := true }

/-- No row has the parent and the title, and refers to something. -/
def noneLikeIt (obj : CdsObject) (s : StorageState) : Bool :=
  s.rows.all fun r => !(r.parentID = obj.parentID && r.dcTitle = some (obj.title.getD []) &&
    r.refID.isSome)

theorem seesDuplicates_of_none {obj : CdsObject} {s : StorageState}
    (h : noneLikeIt obj ((resolveReference obj).run s).2 = true) : SeesDuplicates obj s := by
  have hrow : ∀ refObj r, r ∈ ((resolveReference obj).run s).2.rows →
      isDuplicate obj refObj r = false := by
    intro refObj r hr
    have hnot := List.all_eq_true.mp h r hr
    unfold isDuplicate
    rcases hrefID : r.refID with _ | i
    · simp
    · simp only [hrefID, Option.isSome_some, Bool.and_true, Bool.not_eq_true'] at hnot
      rw [Bool.and_right_comm, hnot]
      rfl
  refine ⟨fun refObj s₁ hrun _ r hr => ?_, fun refObj s₁ hrun _ r hr => ?_⟩
  · rw [hrun] at hrow
    exact hrow refObj r (List.mem_append_right _ hr)
  · rw [hrun] at hrow
    exact hrow refObj r hr

/-- A file, and one reference to it. -/
theorem references_distinct_file : DistinctReferences (runOps
    ([plainFile (str "/a/x"), fileReference].map Op.addObject) (.started .fresh true .ok)).rows := by
  refine references_distinct .fresh true .ok _ (by decide) (by decide) ⟨?_, ?_, trivial⟩
  · intro obj hobj
    cases hobj
    exact seesDuplicates_of_none (by decide +kernel)
  · intro obj hobj
    cases hobj
    exact seesDuplicates_of_none (by decide +kernel)

/-- **The second reference is not seen**: the row of the first is still in the buffer. -/
theorem buffered_reference_missed : ¬ DistinctReferences (runOps
    ([plainFile (str "/a/x"), fileReference, fileReference].map Op.addObject)
    (.started .fresh true .ok)).rows := by
  decide +kernel

end MediaTomb
