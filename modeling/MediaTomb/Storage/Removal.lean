/-
  What `_recursiveRemove` removes, and whom it tells.

  What the call can remove is bounded by three least sets over the table it starts from:
    * `Walked`   — containers whose children it fetches: the given ones and the containers below;
    * `Selected` — objects whose references it fetches: the given items and, of the children of
                   walked containers that are no containers, the child or what it redirects to;
    * `Goes`     — what it may delete: all of those, and every row that refers to a selected object.

  The other result of this file is about the lists the call hands to the purge: the parent of every
  removed row is in one of them, unless it was removed as well.
-/
import MediaTomb.Storage.RecursiveRemove

namespace MediaTomb

open Lib.Prog

/-! ## What may go -/

/-- The containers whose children are fetched. -/
inductive Walked (db : Database) (containers : List Int) : Int → Prop where
  | given {i : Int} : i ∈ containers → Walked db containers i
  | child {r : ObjectRow} : r ∈ db.objects.rows → isCdsContainer r.objectType = true →
      Walked db containers r.parentID → Walked db containers r.id

/-- The objects whose references are fetched. -/
inductive Selected (db : Database) (items containers : List Int) (all : Bool) : Int → Prop where
  | given {i : Int} : i ∈ items → Selected db items containers all i
  | child {r : ObjectRow} : r ∈ db.objects.rows → isCdsContainer r.objectType = false →
      Walked db containers r.parentID →
      Selected db items containers all ((redirect all r).getD r.id)

/-- What may be deleted. -/
inductive Goes (db : Database) (items containers : List Int) (all : Bool) : Int → Prop where
  | container {i : Int} : Walked db containers i → Goes db items containers all i
  | item {i : Int} : containers = [] → i ∈ items → Goes db items containers all i
  | child {r : ObjectRow} : r ∈ db.objects.rows → isCdsContainer r.objectType = false →
      Walked db containers r.parentID → Goes db items containers all ((redirect all r).getD r.id)
  | reference {r : ObjectRow} {i : Int} : r ∈ db.objects.rows → r.refID = some i →
      Selected db items containers all i → Goes db items containers all r.id

/-! ## Rows that are decided on -/

/-- In the `remove` buffer, or not in the table any more. -/
def Doomed (db : Database) (b : RemoveBuffers) (i : Int) : Prop :=
  i ∈ b.remove ∨ ∀ r ∈ db.objects.rows, r.id ≠ i

section

variable {all : Bool} {db db₀ : Database} {b : RemoveBuffers} {ch : ChangedContainers} {i : Int}

theorem mem_afterPasses_remove :
    i ∈ (afterPasses all db b).remove ↔
      i ∈ b.remove ∨ i ∈ b.removeAddParents ∨
      (∃ r ∈ db.objects.rows, (∃ j ∈ b.recurseItems, r.refID = some j) ∧ r.id = i) ∨
      ∃ r ∈ db.objects.rows, r.parentID ∈ b.recurseContainers ∧ redirect all r = none ∧ r.id = i := by
  unfold afterPasses
  rw [mem_foldl_remove]
  simp only [List.mem_append, List.mem_map, mem_selectReferences, mem_selectChildren, and_assoc,
    or_assoc]

theorem mem_afterPasses_recurseContainers :
    i ∈ (afterPasses all db b).recurseContainers ↔ ∃ r ∈ db.objects.rows,
      r.parentID ∈ b.recurseContainers ∧ isCdsContainer r.objectType = true ∧ r.id = i := by
  unfold afterPasses
  rw [mem_foldl_recurseContainers]
  simp only [List.not_mem_nil, false_or, mem_selectChildren, and_assoc]

theorem mem_afterPasses_recurseItems :
    i ∈ (afterPasses all db b).recurseItems ↔ ∃ r ∈ db.objects.rows,
      r.parentID ∈ b.recurseContainers ∧ isCdsContainer r.objectType = false ∧
        (redirect all r).getD r.id = i := by
  unfold afterPasses
  rw [mem_foldl_recurseItems]
  simp only [List.not_mem_nil, false_or, mem_selectChildren, and_assoc]

theorem mem_afterPasses_removeAddParents :
    i ∈ (afterPasses all db b).removeAddParents ↔ ∃ r ∈ db.objects.rows,
      r.parentID ∈ b.recurseContainers ∧ redirect all r = some i := by
  unfold afterPasses
  rw [mem_foldl_removeAddParents]
  simp only [List.not_mem_nil, false_or, mem_selectChildren, and_assoc]

/-- An early deletion dooms nothing and saves nothing. -/
theorem doomed_removeRound :
    Doomed (removeRound all db b).1 (removeRound all db b).2 i ↔
      i ∈ (afterPasses all db b).remove ∨ ∀ r ∈ db.objects.rows, r.id ≠ i := by
  unfold removeRound Doomed
  simp only
  split
  · simp only [List.not_mem_nil, false_or, Database.mem_removeObjects]
    constructor
    · intro h
      by_cases hi : i ∈ (afterPasses all db b).remove
      · exact Or.inl hi
      · refine Or.inr fun r hr hri => h r ⟨hr, ?_⟩ hri
        rwa [hri]
    · rintro (h | h) r ⟨hr, hnot⟩ hri
      · exact hnot (hri ▸ h)
      · exact h r hr hri
  · exact Iff.rfl

theorem Doomed.removeRound (h : Doomed db b i) :
    Doomed (removeRound all db b).1 (removeRound all db b).2 i := by
  refine doomed_removeRound.mpr ?_
  rcases h with h | h
  · exact Or.inl (mem_afterPasses_remove.mpr (Or.inl h))
  · exact Or.inr h

/-- A round only deletes. -/
theorem mem_removeRound {r : ObjectRow} (h : r ∈ (removeRound all db b).1.objects.rows) :
    r ∈ db.objects.rows := by
  unfold MediaTomb.removeRound at h
  simp only at h
  split at h
  · exact (Database.mem_removeObjects.mp h).1
  · exact h

/-- The row of the table with a given row's id is that row. -/
theorem eq_of_id_eq (hsub : ∀ r ∈ db.objects.rows, r ∈ db₀.objects.rows) {r r' : ObjectRow}
    (hr : r ∈ db₀.objects.rows) (hr' : r' ∈ db.objects.rows) (h : r'.id = r.id) : r' = r :=
  db₀.objects.eq_of_key_eq (hsub r' hr') hr h

end

/-! ## The upper bound -/

/-- Only what may go is decided on or gone. -/
structure UpperInv (db₀ : Database) (items containers : List Int) (all : Bool) (db : Database)
    (b : RemoveBuffers) : Prop where
  rows : ∀ r ∈ db.objects.rows, r ∈ db₀.objects.rows
  remove : ∀ i ∈ b.remove, Goes db₀ items containers all i
  gone : ∀ r ∈ db₀.objects.rows, r ∉ db.objects.rows → Goes db₀ items containers all r.id
  recurseItems : ∀ i ∈ b.recurseItems, Selected db₀ items containers all i
  recurseContainers : ∀ i ∈ b.recurseContainers, Walked db₀ containers i
  removeAddParents : ∀ i ∈ b.removeAddParents, Goes db₀ items containers all i

section

variable {db₀ db : Database} {items containers : List Int} {all : Bool} {b : RemoveBuffers}

/-- What the passes of a round add to `remove` may go. -/
theorem UpperInv.afterPasses_remove (h : UpperInv db₀ items containers all db b) {i : Int}
    (hi : i ∈ (afterPasses all db b).remove) : Goes db₀ items containers all i := by
  rcases mem_afterPasses_remove.mp hi with hi | hi | ⟨r, hr, ⟨j, hj, href⟩, rfl⟩ |
    ⟨r, hr, hp, hx, rfl⟩
  · exact h.remove i hi
  · exact h.removeAddParents i hi
  · exact .reference (h.rows r hr) href (h.recurseItems j hj)
  · have hw := h.recurseContainers _ hp
    rcases hc : isCdsContainer r.objectType with _ | _
    · have hg : Goes db₀ items containers all ((redirect all r).getD r.id) :=
        .child (h.rows r hr) hc hw
      rwa [hx] at hg
    · exact .container (.child (h.rows r hr) hc hw)

theorem UpperInv.round (h : UpperInv db₀ items containers all db b) :
    UpperInv db₀ items containers all (removeRound all db b).1 (removeRound all db b).2 := by
  have hselect : ∀ i ∈ (afterPasses all db b).recurseItems,
      Selected db₀ items containers all i := by
    intro i hi
    obtain ⟨r, hr, hp, hc, rfl⟩ := mem_afterPasses_recurseItems.mp hi
    exact .child (h.rows r hr) hc (h.recurseContainers _ hp)
  have hwalk : ∀ i ∈ (afterPasses all db b).recurseContainers, Walked db₀ containers i := by
    intro i hi
    obtain ⟨r, hr, hp, hc, rfl⟩ := mem_afterPasses_recurseContainers.mp hi
    exact .child (h.rows r hr) hc (h.recurseContainers _ hp)
  have hparents : ∀ i ∈ (afterPasses all db b).removeAddParents,
      Goes db₀ items containers all i := by
    intro i hi
    obtain ⟨r, hr, hp, hx⟩ := mem_afterPasses_removeAddParents.mp hi
    rcases hc : isCdsContainer r.objectType with _ | _
    · have hg : Goes db₀ items containers all ((redirect all r).getD r.id) :=
        .child (h.rows r hr) hc (h.recurseContainers _ hp)
      rwa [hx] at hg
    · rw [redirect_container hc] at hx
      cases hx
  refine ⟨fun r hr => h.rows r (mem_removeRound hr), ?_, ?_, ?_, ?_, ?_⟩
  · intro i hi
    unfold removeRound at hi
    simp only at hi
    split at hi
    · cases hi
    · exact h.afterPasses_remove hi
  · intro r hr hnot
    by_cases hin : r ∈ db.objects.rows
    · -- deleted by this round, so it was in the buffer
      unfold removeRound at hnot
      simp only at hnot
      split at hnot
      · rw [Database.mem_removeObjects, not_and, not_not] at hnot
        exact h.afterPasses_remove (hnot hin)
      · exact absurd hin hnot
    · exact h.gone r hr hin
  · rw [removeRound_recurseItems]
    exact hselect
  · rw [removeRound_recurseContainers]
    exact hwalk
  · rw [removeRound_removeAddParents]
    exact hparents

theorem upperInv_initial (db₀ : Database) (items containers : List Int) (all : Bool) :
    UpperInv db₀ items containers all db₀ (initialBuffers items containers) where
  rows _ hr := hr
  remove _ hi := .container (.given hi)
  gone _ hr hnot := absurd hr hnot
  recurseItems _ hi := .given hi
  recurseContainers _ hi := .given hi
  removeAddParents i hi := by
    unfold initialBuffers at hi
    simp only at hi
    split at hi
    · next h => exact .item h hi
    · cases hi

end

/-! ## The parents of what goes -/

/-- The parent of a row that is decided on is told, or decided on too. -/
structure ParentsInv (db₀ : Database) (ui : List Int) (db : Database) (b : RemoveBuffers)
    (ch : ChangedContainers) : Prop where
  rows : ∀ r ∈ db.objects.rows, r ∈ db₀.objects.rows
  ui_eq : ch.ui = ui
  upnp_parents : ∀ i ∈ ch.upnp, ∃ r ∈ db₀.objects.rows, r.parentID = i
  containers : ∀ i ∈ b.recurseContainers, Doomed db b i
  told : ∀ r ∈ db₀.objects.rows, Doomed db b r.id →
    r.parentID ∈ ch.upnp ∨ r.parentID ∈ ch.ui ∨ Doomed db b r.parentID

section

variable {db₀ db : Database} {items containers ui : List Int} {all : Bool} {b : RemoveBuffers}
  {ch : ChangedContainers}

theorem ParentsInv.round (h : ParentsInv db₀ ui db b ch) :
    ParentsInv db₀ ui (removeRound all db b).1 (removeRound all db b).2
      (afterPassesChanged db b ch) := by
  have hmem_upnp : ∀ i, i ∈ (afterPassesChanged db b ch).upnp ↔
      i ∈ ch.upnp ∨ (∃ r ∈ db.objects.rows, r.id ∈ b.removeAddParents ∧ r.parentID = i) ∨
        ∃ r ∈ db.objects.rows, (∃ j ∈ b.recurseItems, r.refID = some j) ∧ r.parentID = i := by
    intro i
    unfold afterPassesChanged
    simp only [List.mem_append, List.mem_map, mem_selectParents, mem_selectReferences, and_assoc,
      or_assoc]
  refine ⟨fun r hr => h.rows r (mem_removeRound hr), h.ui_eq, ?_, ?_, ?_⟩
  · intro i hi
    rcases (hmem_upnp i).mp hi with hold | ⟨r, hr, -, hp⟩ | ⟨r, hr, -, hp⟩
    · exact h.upnp_parents i hold
    · exact ⟨r, h.rows r hr, hp⟩
    · exact ⟨r, h.rows r hr, hp⟩
  · intro i hi
    rw [removeRound_recurseContainers] at hi
    obtain ⟨r, hr, hp, hc, rfl⟩ := mem_afterPasses_recurseContainers.mp hi
    exact doomed_removeRound.mpr (Or.inl (mem_afterPasses_remove.mpr
      (Or.inr (Or.inr (Or.inr ⟨r, hr, hp, redirect_container hc, rfl⟩)))))
  · intro r hr hdoom
    have told_before : Doomed db b r.id →
        r.parentID ∈ (afterPassesChanged db b ch).upnp ∨
          r.parentID ∈ (afterPassesChanged db b ch).ui ∨
          Doomed (removeRound all db b).1 (removeRound all db b).2 r.parentID := by
      intro hold
      rcases h.told r hr hold with hup | hui | hpar
      · exact Or.inl ((hmem_upnp _).mpr (Or.inl hup))
      · exact Or.inr (Or.inl hui)
      · exact Or.inr (Or.inr hpar.removeRound)
    rcases doomed_removeRound.mp hdoom with hin | hgone
    · rcases mem_afterPasses_remove.mp hin with hin | hin | ⟨r', hr', href, hid⟩ |
        ⟨r', hr', hp, hx, hid⟩
      · exact told_before (Or.inl hin)
      · -- "add ids to remove": their parents were selected, where the row was still there
        by_cases hthere : r ∈ db.objects.rows
        · exact Or.inl ((hmem_upnp _).mpr (Or.inr (Or.inl ⟨r, hthere, hin, rfl⟩)))
        · refine told_before (Or.inr fun r' hr' hid => hthere ?_)
          rwa [← eq_of_id_eq h.rows hr hr' hid]
      · have heq := eq_of_id_eq h.rows hr hr' hid
        subst heq
        exact Or.inl ((hmem_upnp _).mpr (Or.inr (Or.inr ⟨_, hr', href, rfl⟩)))
      · have heq := eq_of_id_eq h.rows hr hr' hid
        subst heq
        exact Or.inr (Or.inr (h.containers _ hp).removeRound)
    · exact told_before (Or.inr hgone)

theorem parentsInv_initial (db₀ : Database) (items containers : List Int) :
    ParentsInv db₀ (initialUI items containers db₀) db₀ (initialBuffers items containers)
      { ui := initialUI items containers db₀ } where
  rows _ hr := hr
  ui_eq := rfl
  upnp_parents _ hi := nomatch hi
  containers _ hi := Or.inl hi
  told r hr hdoom := by
    rcases hdoom with hin | hgone
    · have hin' : r.id ∈ containers := hin
      refine Or.inr (Or.inl ?_)
      unfold initialUI
      rw [if_neg (List.ne_nil_of_mem hin')]
      exact mem_selectParents.mpr ⟨r, hr, List.mem_append_right _ hin', rfl⟩
    · exact absurd rfl (hgone r hr)

end

/-! ## The whole call -/

/-- What a call of `_recursiveRemove` that returns has done. -/
structure RecursiveRemoved (items containers : List Int) (all : Bool) (db₀ db : Database)
    (ch : ChangedContainers) : Prop where
  rows : ∀ r ∈ db.objects.rows, r ∈ db₀.objects.rows
  goes : ∀ r ∈ db₀.objects.rows, r ∉ db.objects.rows → Goes db₀ items containers all r.id
  parents : ∀ i, i ∈ ch.upnp ∨ i ∈ ch.ui → ∃ r ∈ db₀.objects.rows, r.parentID = i
  ui : ∀ r ∈ db₀.objects.rows, r.id ∈ containers → r.parentID ∈ ch.ui
  told : ∀ r ∈ db₀.objects.rows, r ∉ db.objects.rows → ∀ c ∈ db.objects.rows, c.id = r.parentID →
    c.id ∈ ch.upnp ∨ c.id ∈ ch.ui

section

variable {items containers : List Int} {all : Bool} {s s' : StorageState}

/-- Both invariants at once. -/
def RemoveInv (db₀ : Database) (items containers : List Int) (all : Bool) (db : Database)
    (b : RemoveBuffers) (ch : ChangedContainers) : Prop :=
  UpperInv db₀ items containers all db b ∧
    ParentsInv db₀ (initialUI items containers db₀) db b ch

theorem RemoveInv.round {db₀ db : Database} {b : RemoveBuffers} {ch : ChangedContainers}
    (h : RemoveInv db₀ items containers all db b ch) :
    RemoveInv db₀ items containers all (removeRound all db b).1 (removeRound all db b).2
      (afterPassesChanged db b ch) := ⟨h.1.round, h.2.round⟩

theorem removeInv_initial (db₀ : Database) (items containers : List Int) (all : Bool) :
    RemoveInv db₀ items containers all db₀ (initialBuffers items containers)
      { ui := initialUI items containers db₀ } :=
  ⟨upperInv_initial db₀ items containers all, parentsInv_initial db₀ items containers⟩

theorem recursiveRemove_ok {ch : ChangedContainers}
    (h : (recursiveRemove_ items containers all).run s = (.ok ch, s')) :
    RecursiveRemoved items containers all s.db s'.db ch ∧ s' = { s with db := s'.db } := by
  have hrule := recursiveRemove_rule (fun _ _ _ h => RemoveInv.round h)
    (removeInv_initial s.db items containers all)
  rw [h] at hrule
  obtain ⟨⟨db, b, ⟨hup, hpar⟩, -, hdb⟩, hs'⟩ := hrule
  have hremoved : ∀ r ∈ s.db.objects.rows, r ∉ s'.db.objects.rows → Doomed db b r.id := by
    intro r hr hnot
    rw [hdb, Database.mem_removeObjects, not_and, not_not] at hnot
    by_cases hin : r ∈ db.objects.rows
    · exact Or.inl (hnot hin)
    · refine Or.inr fun r' hr' hid => hin ?_
      rwa [← eq_of_id_eq hup.rows hr hr' hid]
  refine ⟨⟨?_, ?_, ?_, ?_, ?_⟩, hs'⟩
  · intro r hr
    rw [hdb] at hr
    exact hup.rows r (Database.mem_removeObjects.mp hr).1
  · intro r hr hnot
    rcases hremoved r hr hnot with hin | hgone
    · exact hup.remove _ hin
    · exact hup.gone r hr fun hin => hgone r hin rfl
  · rintro i (hi | hi)
    · exact hpar.upnp_parents i hi
    · rw [hpar.ui_eq] at hi
      unfold initialUI at hi
      split at hi
      · cases hi
      · obtain ⟨r, hr, -, hp⟩ := mem_selectParents.mp hi
        exact ⟨r, hr, hp⟩
  · intro r hr hin
    rw [hpar.ui_eq]
    unfold initialUI
    rw [if_neg (List.ne_nil_of_mem hin)]
    exact mem_selectParents.mpr ⟨r, hr, List.mem_append_right _ hin, rfl⟩
  · intro r hr hnot c hc hcr
    rw [hdb] at hc
    obtain ⟨hcdb, hcnot⟩ := Database.mem_removeObjects.mp hc
    rcases hpar.told r hr (hremoved r hr hnot) with hup | hui | hdoom | hgone
    · exact Or.inl (hcr ▸ hup)
    · exact Or.inr (hcr ▸ hui)
    · exact absurd (hcr ▸ hdoom) hcnot
    · exact absurd hcr (hgone c hcdb)

/-- A call that gives up has only deleted rows that may go, too. -/
theorem recursiveRemove_error {e : Exception}
    (h : (recursiveRemove_ items containers all).run s = (.error e, s')) :
    (∀ r ∈ s.db.objects.rows, r ∉ s'.db.objects.rows → Goes s.db items containers all r.id) ∧
      (∀ r ∈ s'.db.objects.rows, r ∈ s.db.objects.rows) ∧ s' = { s with db := s'.db } := by
  have hrule := recursiveRemove_rule (fun _ _ _ h => RemoveInv.round h)
    (removeInv_initial s.db items containers all)
  rw [h] at hrule
  obtain ⟨⟨b, ch, hup, -⟩, hs'⟩ := hrule
  exact ⟨hup.gone, hup.rows, hs'⟩

end

end MediaTomb
