/-
  The loop of `_purgeEmptyContainers`.

  A round looks at the containers selected for upnp and at those selected for the ui.  A container
  with the persistent flag is reported at once; one without a child is deleted at the END of the
  round and its parent selected; any other is selected again.  The loop goes on while it deletes and
  something is selected.

  `Purges` says what the loop may delete, batch by batch.  `PurgeInv` carries what is reported: a
  container that has lost a child is reported already or still selected.
-/
import MediaTomb.Storage.Removal

namespace MediaTomb

open Lib.Prog

/-! ## What a purge deletes -/

/-- A container of the table without children and without the persistent flag. -/
structure IsEmptyContainer (db : Database) (r : ObjectRow) : Prop where
  mem : r ∈ db.objects.rows
  container : r.objectType = objectTypeContainer
  unflagged : isPersistentContainer r = false
  childless : ∀ c ∈ db.objects.rows, c.parentID ≠ r.id

/-- Batch after batch of empty containers is deleted, each of which had a child in `db₀`. -/
inductive Purges (db₀ db₁ : Database) : Database → Prop where
  | refl : Purges db₀ db₁ db₁
  | delete {db : Database} {ids : List Int} : Purges db₀ db₁ db →
      (∀ i ∈ ids, ∃ r, IsEmptyContainer db r ∧ r.id = i) →
      (∀ i ∈ ids, ∃ child ∈ db₀.objects.rows, child.parentID = i) →
      Purges db₀ db₁ (db.removeObjects ids)

theorem Purges.rows {db₀ db₁ db : Database} (h : Purges db₀ db₁ db) :
    ∀ r ∈ db.objects.rows, r ∈ db₁.objects.rows := by
  induction h with
  | refl => exact fun r hr => hr
  | delete _ _ _ ih => exact fun r hr => ih r (Database.mem_removeObjects.mp hr).1

/-! ## One pass -/

def isFull (row : ObjectRow × Nat) : Bool := !isPersistentContainer row.1 && row.2 ≠ 0

def isEmptied (row : ObjectRow × Nat) : Bool := !isPersistentContainer row.1 && row.2 = 0

/-- What an unflagged container leaves selected for the ui: itself, or its parent when it goes. -/
def reselected (row : ObjectRow × Nat) : Int := if row.2 = 0 then row.1.parentID else row.1.id

theorem foldl_purgeUpnpRow (rows : List (ObjectRow × Nat)) :
    ∀ (b : PurgeBuffers) (ch : ChangedContainers), rows.foldl purgeUpnpRow (b, ch) =
      ({ selUI := b.selUI ++ (rows.filter isEmptied).map fun row => row.1.parentID
         selUpnp := b.selUpnp ++ (rows.filter isFull).map fun row => row.1.id
         del := b.del ++ (rows.filter isEmptied).map fun row => row.1.id },
       { ch with
         upnp := ch.upnp ++
           (rows.filter fun row => isPersistentContainer row.1).map fun row => row.1.id }) := by
  induction rows with
  | nil => simp
  | cons row rows ih =>
    intro b ch
    rw [List.foldl_cons]
    rcases hp : isPersistentContainer row.1 with _ | _
    · by_cases hc : row.2 = 0
      · simp [purgeUpnpRow, hp, hc, ih, isEmptied, isFull]
      · simp [purgeUpnpRow, hp, hc, ih, isEmptied, isFull]
    · simp [purgeUpnpRow, hp, ih, isEmptied, isFull]

theorem foldl_purgeUIRow (rows : List (ObjectRow × Nat)) :
    ∀ (b : PurgeBuffers) (ch : ChangedContainers), rows.foldl purgeUIRow (b, ch) =
      ({ b with
         selUI := b.selUI ++
           (rows.filter fun row => !isPersistentContainer row.1).map reselected
         del := b.del ++ (rows.filter isEmptied).map fun row => row.1.id },
       { upnp := ch.upnp ++
           (rows.filter fun row => isPersistentContainer row.1).map fun row => row.1.id
         ui := ch.ui ++
           (rows.filter fun row => isPersistentContainer row.1).map fun row => row.1.id }) := by
  induction rows with
  | nil => simp
  | cons row rows ih =>
    intro b ch
    rw [List.foldl_cons]
    rcases hp : isPersistentContainer row.1 with _ | _
    · by_cases hc : row.2 = 0
      · simp [purgeUIRow, hp, hc, ih, isEmptied, reselected]
      · simp [purgeUIRow, hp, hc, ih, isEmptied, reselected]
    · simp [purgeUIRow, hp, ih, isEmptied]

theorem mem_selectEmpty {db : Database} {ids : List Int} {row : ObjectRow × Nat} :
    row ∈ selectEmpty ids db ↔
      row.1 ∈ db.objects.rows ∧ row.1.objectType = objectTypeContainer ∧ row.1.id ∈ ids ∧
        row.2 = (db.selectObjects fun b => b.parentID = row.1.id).length := by
  unfold selectEmpty
  rcases row with ⟨r, n⟩
  simp only [Database.selectObjects, List.mem_map, List.mem_filter, Bool.and_eq_true,
    decide_eq_true_eq, Prod.mk.injEq]
  constructor
  · rintro ⟨a, ⟨ha, hc, hi⟩, rfl, rfl⟩
    exact ⟨ha, hc, hi, rfl⟩
  · rintro ⟨ha, hc, hi, hn⟩
    exact ⟨r, ⟨ha, hc, hi⟩, rfl, hn.symm⟩

theorem childCount_eq_zero {db : Database} {i : Int} :
    (db.selectObjects fun b => b.parentID = i).length = 0 ↔
      ∀ c ∈ db.objects.rows, c.parentID ≠ i := by
  rw [List.length_eq_zero_iff]
  simp [Database.selectObjects]

@[simp] theorem selectEmpty_nil (db : Database) : selectEmpty [] db = [] := by
  simp [selectEmpty, Database.selectObjects]

/-- A selected container of the table. -/
structure IsSelectedContainer (db : Database) (ids : List Int) (c : ObjectRow) : Prop where
  mem : c ∈ db.objects.rows
  container : c.objectType = objectTypeContainer
  selected : c.id ∈ ids

section

variable {db : Database} {ids : List Int} {i : Int}

theorem mem_flagged :
    i ∈ ((selectEmpty ids db).filter fun row => isPersistentContainer row.1).map
        (fun row => row.1.id) ↔
      ∃ c, IsSelectedContainer db ids c ∧ isPersistentContainer c = true ∧ c.id = i := by
  simp only [List.mem_map, List.mem_filter, mem_selectEmpty]
  constructor
  · rintro ⟨row, ⟨⟨hm, hc, hs, -⟩, hp⟩, rfl⟩
    exact ⟨row.1, ⟨hm, hc, hs⟩, hp, rfl⟩
  · rintro ⟨c, ⟨hm, hc, hs⟩, hp, rfl⟩
    exact ⟨(c, (db.selectObjects fun b => b.parentID = c.id).length), ⟨⟨hm, hc, hs, rfl⟩, hp⟩, rfl⟩

theorem mem_emptied {f : ObjectRow → Int} :
    i ∈ ((selectEmpty ids db).filter isEmptied).map (fun row => f row.1) ↔
      ∃ c, IsEmptyContainer db c ∧ c.id ∈ ids ∧ f c = i := by
  simp only [List.mem_map, List.mem_filter, mem_selectEmpty, isEmptied, Bool.and_eq_true,
    Bool.not_eq_true', decide_eq_true_eq]
  constructor
  · rintro ⟨row, ⟨⟨hm, hc, hs, hn⟩, hp, h0⟩, rfl⟩
    exact ⟨row.1, ⟨hm, hc, hp, childCount_eq_zero.mp (hn.symm.trans h0)⟩, hs, rfl⟩
  · rintro ⟨c, ⟨hm, hc, hp, hchild⟩, hs, rfl⟩
    exact ⟨(c, _), ⟨⟨hm, hc, hs, rfl⟩, hp, childCount_eq_zero.mpr hchild⟩, rfl⟩

theorem mem_full :
    i ∈ ((selectEmpty ids db).filter isFull).map (fun row => row.1.id) ↔
      ∃ c, IsSelectedContainer db ids c ∧ isPersistentContainer c = false ∧
        ¬ IsEmptyContainer db c ∧ c.id = i := by
  simp only [List.mem_map, List.mem_filter, mem_selectEmpty, isFull, Bool.and_eq_true,
    Bool.not_eq_true', decide_eq_true_eq, ne_eq]
  constructor
  · rintro ⟨row, ⟨⟨hm, hc, hs, hn⟩, hp, h0⟩, rfl⟩
    refine ⟨row.1, ⟨hm, hc, hs⟩, hp, fun hempty => h0 ?_, rfl⟩
    exact hn.trans (childCount_eq_zero.mpr hempty.childless)
  · rintro ⟨c, ⟨hm, hc, hs⟩, hp, hne, rfl⟩
    exact ⟨(c, _), ⟨⟨hm, hc, hs, rfl⟩, hp, fun h0 =>
      hne ⟨hm, hc, hp, childCount_eq_zero.mp h0⟩⟩, rfl⟩

theorem mem_reselected :
    i ∈ ((selectEmpty ids db).filter fun row => !isPersistentContainer row.1).map reselected ↔
      (∃ c, IsEmptyContainer db c ∧ c.id ∈ ids ∧ c.parentID = i) ∨
      ∃ c, IsSelectedContainer db ids c ∧ isPersistentContainer c = false ∧
        ¬ IsEmptyContainer db c ∧ c.id = i := by
  simp only [List.mem_map, List.mem_filter, mem_selectEmpty, Bool.not_eq_true', reselected]
  constructor
  · rintro ⟨row, ⟨⟨hm, hc, hs, hn⟩, hp⟩, hi⟩
    by_cases h0 : row.2 = 0
    · rw [if_pos h0] at hi
      exact Or.inl ⟨row.1, ⟨hm, hc, hp, childCount_eq_zero.mp (hn.symm.trans h0)⟩, hs, hi⟩
    · rw [if_neg h0] at hi
      refine Or.inr ⟨row.1, ⟨hm, hc, hs⟩, hp, fun hempty => h0 ?_, hi⟩
      exact hn.trans (childCount_eq_zero.mpr hempty.childless)
  · rintro (⟨c, ⟨hm, hc, hp, hchild⟩, hs, rfl⟩ | ⟨c, ⟨hm, hc, hs⟩, hp, hne, rfl⟩)
    · exact ⟨(c, _), ⟨⟨hm, hc, hs, rfl⟩, hp⟩, if_pos (childCount_eq_zero.mpr hchild)⟩
    · exact ⟨(c, _), ⟨⟨hm, hc, hs, rfl⟩, hp⟩, if_neg fun h0 =>
        hne ⟨hm, hc, hp, childCount_eq_zero.mp h0⟩⟩

end

/-! ## One round -/

/-- The ids selected for the ui once the upnp pass is through. -/
def midUI (db : Database) (b : PurgeBuffers) : List Int :=
  b.selUI ++ ((selectEmpty b.selUpnp db).filter isEmptied).map fun row => row.1.parentID

/-- The buffers after both passes of a round. -/
def afterPurgePasses (db : Database) (b : PurgeBuffers) : PurgeBuffers where
  selUI :=
    ((selectEmpty (midUI db b) db).filter fun row => !isPersistentContainer row.1).map reselected
  selUpnp := ((selectEmpty b.selUpnp db).filter isFull).map fun row => row.1.id
  del := b.del ++ (((selectEmpty b.selUpnp db).filter isEmptied).map fun row => row.1.id) ++
    ((selectEmpty (midUI db b) db).filter isEmptied).map fun row => row.1.id

/-- What is reported after both passes of a round. -/
def afterPurgeReports (db : Database) (b : PurgeBuffers) (ch : ChangedContainers) :
    ChangedContainers where
  upnp := ch.upnp ++
    (((selectEmpty b.selUpnp db).filter fun row => isPersistentContainer row.1).map
      fun row => row.1.id) ++
    ((selectEmpty (midUI db b) db).filter fun row => isPersistentContainer row.1).map
      fun row => row.1.id
  ui := ch.ui ++
    ((selectEmpty (midUI db b) db).filter fun row => isPersistentContainer row.1).map
      fun row => row.1.id

theorem run_purgeUpnpPass (b : PurgeBuffers) (ch : ChangedContainers) (s : StorageState) :
    (purgeUpnpPass b ch).run s =
      (.ok ((selectEmpty b.selUpnp s.db).foldl purgeUpnpRow ({ b with selUpnp := [] }, ch)), s) := by
  unfold purgeUpnpPass
  split
  · next h =>
    rcases b with ⟨selUI, selUpnp, del⟩
    simp only at h
    simp [h]
  · rfl

theorem run_purgeUIPass (b : PurgeBuffers) (ch : ChangedContainers) (s : StorageState) :
    (purgeUIPass b ch).run s =
      (.ok ((selectEmpty b.selUI s.db).foldl purgeUIRow ({ b with selUI := [] }, ch)), s) := by
  unfold purgeUIPass
  split
  · next h =>
    rcases b with ⟨selUI, selUpnp, del⟩
    simp only at h
    simp [h]
  · rfl

/-- Does the loop go on after these passes? -/
def purgeAgain (b : PurgeBuffers) : Bool := b.del ≠ [] && (b.selUI ≠ [] || b.selUpnp ≠ [])

theorem run_purgeDelete (b : PurgeBuffers) (s : StorageState) :
    (purgeDelete b).run s =
      (.ok ({ b with del := [] }, purgeAgain b), { s with db := s.db.removeObjects b.del }) := by
  unfold purgeDelete purgeAgain
  split
  · next h =>
    rcases b with ⟨selUI, selUpnp, del⟩
    simp only at h
    simp [h]
  · next h =>
    rw [run_bind_of_ok (run_removeObjects_ b.del s)]
    simp [h]

/-- **One round of the loop.** -/
theorem run_purgeRound (b : PurgeBuffers) (ch : ChangedContainers) (s : StorageState) :
    (purgeRound b ch).run s =
      (.ok ({ afterPurgePasses s.db b with del := [] }, afterPurgeReports s.db b ch,
          purgeAgain (afterPurgePasses s.db b)),
        { s with db := s.db.removeObjects (afterPurgePasses s.db b).del }) := by
  unfold purgeRound
  rw [run_bind_of_ok (run_purgeUpnpPass b ch s), foldl_purgeUpnpRow]
  simp only
  rw [run_bind_of_ok (run_purgeUIPass _ _ s), foldl_purgeUIRow]
  show (purgeDelete (afterPurgePasses s.db b) >>= fun p =>
    pure (p.1, afterPurgeReports s.db b ch, p.2)).run s = _
  rw [run_bind_of_ok (run_purgeDelete _ s)]
  rfl

/-! ## What a round does to a selected container -/

section

variable {db : Database} {b : PurgeBuffers} {ch : ChangedContainers} {c : ObjectRow} {i : Int}

theorem mem_midUI :
    i ∈ midUI db b ↔
      i ∈ b.selUI ∨ ∃ c, IsEmptyContainer db c ∧ c.id ∈ b.selUpnp ∧ c.parentID = i := by
  unfold midUI
  rw [List.mem_append, mem_emptied (f := ObjectRow.parentID)]

theorem mem_afterPurge_del (hdel : b.del = []) :
    i ∈ (afterPurgePasses db b).del ↔
      ∃ c, IsEmptyContainer db c ∧ (c.id ∈ b.selUpnp ∨ c.id ∈ midUI db b) ∧ c.id = i := by
  unfold afterPurgePasses
  simp only [hdel, List.nil_append, List.mem_append]
  rw [mem_emptied (f := ObjectRow.id), mem_emptied (f := ObjectRow.id)]
  constructor
  · rintro (⟨c, he, hs, hi⟩ | ⟨c, he, hs, hi⟩)
    · exact ⟨c, he, Or.inl hs, hi⟩
    · exact ⟨c, he, Or.inr hs, hi⟩
  · rintro ⟨c, he, hs | hs, hi⟩
    · exact Or.inl ⟨c, he, hs, hi⟩
    · exact Or.inr ⟨c, he, hs, hi⟩

/-- A container selected for the ui is reported, deleted, or selected again. -/
theorem ui_cases (hdel : b.del = []) (hc : c ∈ db.objects.rows)
    (ht : c.objectType = objectTypeContainer) (hs : c.id ∈ midUI db b) :
    (isPersistentContainer c = true ∧ c.id ∈ (afterPurgeReports db b ch).ui ∧
        c.id ∈ (afterPurgeReports db b ch).upnp) ∨
      c.id ∈ (afterPurgePasses db b).del ∨ c.id ∈ (afterPurgePasses db b).selUI := by
  rcases hp : isPersistentContainer c with _ | _
  · by_cases he : IsEmptyContainer db c
    · exact Or.inr (Or.inl ((mem_afterPurge_del hdel).mpr ⟨c, he, Or.inr hs, rfl⟩))
    · exact Or.inr (Or.inr (mem_reselected.mpr (Or.inr ⟨c, ⟨hc, ht, hs⟩, hp, he, rfl⟩)))
  · have hflag := mem_flagged.mpr ⟨c, ⟨hc, ht, hs⟩, hp, rfl⟩
    exact Or.inl ⟨rfl, List.mem_append_right _ hflag, List.mem_append_right _ hflag⟩

/-- A container selected for upnp is reported, deleted, or selected again. -/
theorem upnp_cases (hdel : b.del = []) (hc : c ∈ db.objects.rows)
    (ht : c.objectType = objectTypeContainer) (hs : c.id ∈ b.selUpnp) :
    (isPersistentContainer c = true ∧ c.id ∈ (afterPurgeReports db b ch).upnp) ∨
      c.id ∈ (afterPurgePasses db b).del ∨ c.id ∈ (afterPurgePasses db b).selUpnp := by
  rcases hp : isPersistentContainer c with _ | _
  · by_cases he : IsEmptyContainer db c
    · exact Or.inr (Or.inl ((mem_afterPurge_del hdel).mpr ⟨c, he, Or.inl hs, rfl⟩))
    · exact Or.inr (Or.inr (mem_full.mpr ⟨c, ⟨hc, ht, hs⟩, hp, he, rfl⟩))
  · have hflag := mem_flagged.mpr ⟨c, ⟨hc, ht, hs⟩, hp, rfl⟩
    exact Or.inl ⟨rfl, List.mem_append_left _ (List.mem_append_right _ hflag)⟩

/-- The parent of a container that a round deletes is reported to the ui or selected for it. -/
theorem parent_of_deleted (hdel : b.del = []) {r : ObjectRow} (hr : r ∈ db.objects.rows)
    (hgoes : r.id ∈ (afterPurgePasses db b).del) (hc : c ∈ db.objects.rows)
    (ht : c.objectType = objectTypeContainer) (hcr : c.id = r.parentID) :
    (c.id ∈ (afterPurgeReports db b ch).ui ∧ c.id ∈ (afterPurgeReports db b ch).upnp) ∨
      c.id ∈ (afterPurgePasses db b).selUI := by
  obtain ⟨r', he, hs, hid⟩ := (mem_afterPurge_del hdel).mp hgoes
  have heq := db.objects.eq_of_key_eq he.mem hr hid
  subst heq
  rcases hs with hs | hs
  · -- deleted in the upnp pass: the ui pass still sees the parent, and a child in it
    have hmid : c.id ∈ midUI db b := mem_midUI.mpr (Or.inr ⟨_, he, hs, hcr.symm⟩)
    rcases ui_cases hdel hc ht hmid with ⟨-, hui, hup⟩ | hd | hsel
    · exact Or.inl ⟨hui, hup⟩
    · obtain ⟨c', hce, -, hcid⟩ := (mem_afterPurge_del hdel).mp hd
      exact absurd (hcr.symm.trans hcid.symm) (hce.childless _ he.mem)
    · exact Or.inr hsel
  · exact Or.inr (mem_reselected.mpr (Or.inl ⟨_, he, hs, hcr.symm⟩))

/-- Where a round deletes nothing, what it leaves selected has a child and no flag. -/
theorem selected_of_nothing_deleted (hdel : b.del = []) (h : (afterPurgePasses db b).del = [])
    (hi : i ∈ (afterPurgePasses db b).selUI ∨ i ∈ (afterPurgePasses db b).selUpnp) :
    ∃ c ∈ db.objects.rows, c.id = i ∧ c.objectType = objectTypeContainer ∧
      ¬ IsEmptyContainer db c := by
  have hnone : ∀ c, IsEmptyContainer db c → ¬ c.id ∈ midUI db b := by
    intro c he hs
    have hin := (mem_afterPurge_del hdel).mpr ⟨c, he, Or.inr hs, rfl⟩
    rw [h] at hin
    cases hin
  rcases hi with hi | hi
  · rcases mem_reselected.mp hi with ⟨c, he, hs, -⟩ | ⟨c, hsel, -, hne, hid⟩
    · exact absurd hs (hnone c he)
    · exact ⟨c, hsel.mem, hid, hsel.container, hne⟩
  · obtain ⟨c, hsel, -, hne, hid⟩ := mem_full.mp hi
    exact ⟨c, hsel.mem, hid, hsel.container, hne⟩

/-- What a round reports are containers with the flag. -/
theorem reported_flagged
    (hi : i ∈ (afterPurgeReports db b ch).upnp ∨ i ∈ (afterPurgeReports db b ch).ui) :
    i ∈ ch.upnp ∨ i ∈ ch.ui ∨
      ∃ c ∈ db.objects.rows, c.id = i ∧ c.objectType = objectTypeContainer ∧
        isPersistentContainer c = true := by
  have flagged : ∀ ids, i ∈ ((selectEmpty ids db).filter fun row =>
      isPersistentContainer row.1).map (fun row => row.1.id) →
      ∃ c ∈ db.objects.rows, c.id = i ∧ c.objectType = objectTypeContainer ∧
        isPersistentContainer c = true := by
    intro ids h
    obtain ⟨c, hsel, hp, hid⟩ := mem_flagged.mp h
    exact ⟨c, hsel.mem, hid, hsel.container, hp⟩
  unfold afterPurgeReports at hi
  simp only [List.mem_append] at hi
  rcases hi with ((hi | hi) | hi) | (hi | hi)
  · exact Or.inl hi
  · exact Or.inr (Or.inr (flagged _ hi))
  · exact Or.inr (Or.inr (flagged _ hi))
  · exact Or.inr (Or.inl hi)
  · exact Or.inr (Or.inr (flagged _ hi))

end

/-! ## The loop -/

/-- What the loop keeps, from the table `db₀` before the call and `db₁` before the purge. -/
structure PurgeInv (db₀ db₁ : Database) (given : List Int) (db : Database) (b : PurgeBuffers)
    (ch : ChangedContainers) : Prop where
  purges : Purges db₀ db₁ db
  rows : ∀ r ∈ db₁.objects.rows, r ∈ db₀.objects.rows
  del : b.del = []
  parents : ∀ i, i ∈ b.selUI ∨ i ∈ b.selUpnp → ∃ r ∈ db₀.objects.rows, r.parentID = i
  reported : ∀ i, i ∈ ch.upnp ∨ i ∈ ch.ui →
    ∃ c ∈ db.objects.rows, c.id = i ∧ c.objectType = objectTypeContainer ∧
      isPersistentContainer c = true
  told : ∀ r ∈ db₀.objects.rows, r ∉ db.objects.rows → ∀ c ∈ db.objects.rows,
    c.objectType = objectTypeContainer → c.id = r.parentID →
    c.id ∈ ch.upnp ∨ c.id ∈ b.selUI ∨ c.id ∈ b.selUpnp
  told_ui : ∀ r ∈ db₀.objects.rows, r ∉ db.objects.rows → r.id ∈ given ∨ r ∈ db₁.objects.rows →
    ∀ c ∈ db.objects.rows, c.objectType = objectTypeContainer → c.id = r.parentID →
    c.id ∈ ch.ui ∨ c.id ∈ b.selUI

section

variable {db₀ db₁ db : Database} {given : List Int} {b : PurgeBuffers} {ch : ChangedContainers}

theorem PurgeInv.round (h : PurgeInv db₀ db₁ given db b ch) :
    PurgeInv db₀ db₁ given (db.removeObjects (afterPurgePasses db b).del)
      { afterPurgePasses db b with del := [] } (afterPurgeReports db b ch) := by
  have hempty : ∀ i ∈ (afterPurgePasses db b).del, ∃ r, IsEmptyContainer db r ∧ r.id = i := by
    intro i hi
    obtain ⟨r, he, -, hid⟩ := (mem_afterPurge_del h.del).mp hi
    exact ⟨r, he, hid⟩
  have rows : ∀ r ∈ db.objects.rows, r ∈ db₀.objects.rows := fun r hr =>
    h.rows r (h.purges.rows r hr)
  have mid_parents : ∀ i ∈ midUI db b, ∃ r ∈ db₀.objects.rows, r.parentID = i := by
    intro i hi
    rcases mem_midUI.mp hi with hi | ⟨c, he, -, hp⟩
    · exact h.parents i (Or.inl hi)
    · exact ⟨c, rows c he.mem, hp⟩
  have upnp_grows : ∀ i ∈ ch.upnp, i ∈ (afterPurgeReports db b ch).upnp := fun i hi =>
    List.mem_append_left _ (List.mem_append_left _ hi)
  have ui_grows : ∀ i ∈ ch.ui, i ∈ (afterPurgeReports db b ch).ui := fun i hi =>
    List.mem_append_left _ hi
  refine ⟨.delete h.purges hempty ?_, h.rows, rfl, ?_, ?_, ?_, ?_⟩
  · intro i hi
    obtain ⟨r, -, hs, rfl⟩ := (mem_afterPurge_del h.del).mp hi
    rcases hs with hs | hs
    · exact h.parents _ (Or.inr hs)
    · exact mid_parents _ hs
  · rintro i (hi | hi)
    · rcases mem_reselected.mp hi with ⟨c, he, -, hp⟩ | ⟨c, hsel, -, -, rfl⟩
      · exact ⟨c, rows c he.mem, hp⟩
      · exact mid_parents _ hsel.selected
    · obtain ⟨c, hsel, -, -, rfl⟩ := mem_full.mp hi
      exact h.parents _ (Or.inr hsel.selected)
  · intro i hi
    have hflag : ∃ c ∈ db.objects.rows, c.id = i ∧ c.objectType = objectTypeContainer ∧
        isPersistentContainer c = true := by
      rcases reported_flagged hi with hold | hold | hnew
      · exact h.reported i (Or.inl hold)
      · exact h.reported i (Or.inr hold)
      · exact hnew
    obtain ⟨c, hc, hid, ht, hp⟩ := hflag
    refine ⟨c, Database.mem_removeObjects.mpr ⟨hc, fun hdel => ?_⟩, hid, ht, hp⟩
    obtain ⟨r, he, hr⟩ := hempty _ hdel
    have heq := db.objects.eq_of_key_eq he.mem hc hr
    subst heq
    have hun := he.unflagged
    rw [hp] at hun
    cases hun
  · intro r hr hnot c hc ht hcr
    obtain ⟨hcdb, hcdel⟩ := Database.mem_removeObjects.mp hc
    by_cases hrdb : r ∈ db.objects.rows
    · rw [Database.mem_removeObjects, not_and, not_not] at hnot
      rcases parent_of_deleted h.del hrdb (hnot hrdb) hcdb ht hcr with ⟨-, hup⟩ | hsel
      · exact Or.inl hup
      · exact Or.inr (Or.inl hsel)
    · rcases h.told r hr hrdb c hcdb ht hcr with hup | hui | hsel
      · exact Or.inl (upnp_grows _ hup)
      · rcases ui_cases h.del hcdb ht (mem_midUI.mpr (Or.inl hui)) with
          ⟨-, -, hup⟩ | hd | hsel
        · exact Or.inl hup
        · exact absurd hd hcdel
        · exact Or.inr (Or.inl hsel)
      · rcases upnp_cases h.del hcdb ht hsel with ⟨-, hup⟩ | hd | hsel
        · exact Or.inl hup
        · exact absurd hd hcdel
        · exact Or.inr (Or.inr hsel)
  · intro r hr hnot hwhich c hc ht hcr
    obtain ⟨hcdb, hcdel⟩ := Database.mem_removeObjects.mp hc
    by_cases hrdb : r ∈ db.objects.rows
    · rw [Database.mem_removeObjects, not_and, not_not] at hnot
      rcases parent_of_deleted h.del hrdb (hnot hrdb) hcdb ht hcr with ⟨hui, -⟩ | hsel
      · exact Or.inl hui
      · exact Or.inr hsel
    · rcases h.told_ui r hr hrdb hwhich c hcdb ht hcr with hui | hsel
      · exact Or.inl (ui_grows _ hui)
      · rcases ui_cases h.del hcdb ht (mem_midUI.mpr (Or.inl hsel)) with
          ⟨-, hui, -⟩ | hd | hsel
        · exact Or.inl hui
        · exact absurd hd hcdel
        · exact Or.inr hsel

/-- What is still selected when the loop returns has a child or the flag. -/
def NoneEmptySelected (db : Database) (b : PurgeBuffers) : Prop :=
  ∀ i, i ∈ b.selUI ∨ i ∈ b.selUpnp → ∃ c ∈ db.objects.rows, c.id = i ∧
    c.objectType = objectTypeContainer ∧ ¬ IsEmptyContainer db c

/-- A round after which the loop stops has nothing empty left to select. -/
theorem noneEmptySelected_of_stop (hdel : b.del = [])
    (h : purgeAgain (afterPurgePasses db b) = false) :
    NoneEmptySelected (db.removeObjects (afterPurgePasses db b).del)
      { afterPurgePasses db b with del := [] } := by
  intro i hi
  unfold purgeAgain at h
  by_cases hd : (afterPurgePasses db b).del = []
  · rw [hd, Database.removeObjects_nil]
    exact selected_of_nothing_deleted hdel hd hi
  · simp only [hd, ne_eq, not_false_eq_true, decide_true, Bool.true_and, Bool.or_eq_false_iff,
      decide_eq_false_iff_not, not_not] at h
    rcases hi with hi | hi
    · rw [h.1] at hi
      cases hi
    · rw [h.2] at hi
      cases hi

/-- **Loop rule.** -/
theorem purgeLoop_spec :
    ∀ left b ch s, PurgeInv db₀ db₁ given s.db b ch →
      match (purgeLoop left b ch).run s with
      | (.ok (b', ch'), s') => PurgeInv db₀ db₁ given s'.db b' ch' ∧ NoneEmptySelected s'.db b' ∧
          s' = { s with db := s'.db }
      | (.error _, s') => Purges db₀ db₁ s'.db ∧ s' = { s with db := s'.db } := by
  intro left
  induction left with
  | zero =>
    intro b ch s hI
    rw [purgeLoop, run_bind_of_ok (run_purgeRound b ch s)]
    exact ⟨hI.round.purges, rfl⟩
  | succ left ih =>
    intro b ch s hI
    rw [purgeLoop, run_bind_of_ok (run_purgeRound b ch s)]
    simp only
    rcases hagain : purgeAgain (afterPurgePasses s.db b) with _ | _
    · rw [if_neg Bool.false_ne_true]
      exact ⟨hI.round, noneEmptySelected_of_stop hI.del hagain, rfl⟩
    · rw [if_pos rfl]
      have h := ih _ _ { s with db := s.db.removeObjects (afterPurgePasses s.db b).del } hI.round
      rcases hr : (purgeLoop left { afterPurgePasses s.db b with del := [] }
        (afterPurgeReports s.db b ch)).run
        { s with db := s.db.removeObjects (afterPurgePasses s.db b).del } with ⟨e | ⟨b', ch'⟩, s'⟩
      · rw [hr] at h
        exact h
      · rw [hr] at h
        exact h

end

end MediaTomb
