/-
  What `_recursiveRemove` removes for certain.

  `Goes` bounds what the loop may delete from above.  This file bounds it from BELOW, by three
  least sets of the same shape.  The two bounds differ for one reason: when the buffer of ids grows
  past its limit its rows are deleted in the middle of the loop, and a row that is deleted early is
  not fetched any more when its parent's turn comes.
    * `early` says that the buffer can grow that large.  Where it cannot, the bounds coincide.
    * Where it can, only a row that is a reference to a selected object, or selected itself, can
      be deleted before its parent's turn.
-/
import MediaTomb.Storage.Removal

namespace MediaTomb

open Lib.Prog

/-! ## The lower sets -/

/-- The row refers to an object whose references are fetched. -/
def Refers (db : Database) (items containers : List Int) (all : Bool) (r : ObjectRow) : Prop :=
  ∃ i, r.refID = some i ∧ Selected db items containers all i

/-- Can the row be deleted before its parent's turn, so that nothing is done for it as a child?  An
    item that stands for itself is still selected when it was selected before; one that redirects
    the removal is a reference to an object whose turn has come. -/
def MissedAsChild (early : Prop) (db : Database) (items containers : List Int) (all : Bool)
    (r : ObjectRow) : Prop :=
  early ∧
    (((isCdsContainer r.objectType = true ∨ redirect all r = none) ∧
        Refers db items containers all r) ∨
      ((isCdsContainer r.objectType = true ∨ redirect all r ≠ none) ∧
        Selected db items containers all r.id))

section

variable (early : Prop) (db : Database) (items containers : List Int) (all : Bool)

/-- Containers whose children are certainly fetched. -/
inductive WalkedFor : Int → Prop where
  | given {i : Int} : i ∈ containers → WalkedFor i
  | child {r : ObjectRow} : r ∈ db.objects.rows → isCdsContainer r.objectType = true →
      WalkedFor r.parentID → ¬ MissedAsChild early db items containers all r → WalkedFor r.id

/-- Objects whose references are certainly fetched. -/
inductive SelectedFor : Int → Prop where
  | given {i : Int} : i ∈ items → SelectedFor i
  | child {r : ObjectRow} : r ∈ db.objects.rows → isCdsContainer r.objectType = false →
      WalkedFor early db items containers all r.parentID →
      ¬ MissedAsChild early db items containers all r →
      SelectedFor ((redirect all r).getD r.id)

/-- Rows that are certainly deleted. -/
inductive GoesFor : Int → Prop where
  | container {i : Int} : i ∈ containers → GoesFor i
  | item {i : Int} : containers = [] → i ∈ items → GoesFor i
  | child {r : ObjectRow} : r ∈ db.objects.rows → redirect all r = none →
      WalkedFor early db items containers all r.parentID → GoesFor r.id
  | redirected {r : ObjectRow} {x : Int} : r ∈ db.objects.rows → redirect all r = some x →
      WalkedFor early db items containers all r.parentID →
      ¬ MissedAsChild early db items containers all r →
      ¬ (early ∧ containers ≠ [] ∧ x ∈ items) → GoesFor x
  | reference {r : ObjectRow} {i : Int} : r ∈ db.objects.rows → r.refID = some i →
      SelectedFor early db items containers all i → GoesFor r.id

end

/-! ## Without early deletions the bounds coincide -/

section

variable {early : Prop} {db : Database} {items containers : List Int} {all : Bool} {i : Int}

theorem not_missed (hnot : ¬ early) (r : ObjectRow) :
    ¬ MissedAsChild early db items containers all r := fun h => hnot h.1

theorem walkedFor_of_walked (hnot : ¬ early) (h : Walked db containers i) :
    WalkedFor early db items containers all i := by
  induction h with
  | given hi => exact .given hi
  | child hr hc _ ih => exact .child hr hc ih (not_missed hnot _)

theorem selectedFor_of_selected (hnot : ¬ early) (h : Selected db items containers all i) :
    SelectedFor early db items containers all i := by
  cases h with
  | given hi => exact .given hi
  | child hr hc hw => exact .child hr hc (walkedFor_of_walked hnot hw) (not_missed hnot _)

theorem goesFor_of_goes (hnot : ¬ early) (h : Goes db items containers all i) :
    GoesFor early db items containers all i := by
  cases h with
  | container hw =>
    cases hw with
    | given hi => exact .container hi
    | child hr hc hw => exact .child hr (redirect_container hc) (walkedFor_of_walked hnot hw)
  | item hnil hi => exact .item hnil hi
  | @child r hr hc hw =>
    rcases hx : redirect all r with _ | x
    · exact .child hr hx (walkedFor_of_walked hnot hw)
    · exact .redirected hr hx (walkedFor_of_walked hnot hw) (not_missed hnot _) fun h => hnot h.1
  | reference hr href hs => exact .reference hr href (selectedFor_of_selected hnot hs)

end

/-! ## The invariant -/

/-- The buffers after `n` rounds on a table from which nothing is deleted. -/
def buffersAfter (all : Bool) (db : Database) (items containers : List Int) : Nat → RemoveBuffers
  | 0 => initialBuffers items containers
  | n + 1 => afterPasses all db (buffersAfter all db items containers n)

/-- The buffer of ids can grow past its limit. -/
def DeletesEarly (all : Bool) (db : Database) (items containers : List Int) : Prop :=
  ∃ n, maxRemoveSize < idsLength (buffersAfter all db items containers (n + 1)).remove

/-- Why a row is decided on: it was given, it is selected, it refers to an object whose references
    were fetched, or it was fetched with its parent's children. -/
def DoomReason (containers : List Int) (walked fetched : List Int) (b : RemoveBuffers)
    (r : ObjectRow) : Prop :=
  r.id ∈ containers ∨ r.id ∈ fetched ++ b.recurseItems ∨ (∃ i ∈ fetched, r.refID = some i) ∨
    r.parentID ∈ walked

/-- The loop keeps up: `walked` are the containers whose turn has come, `fetched` the objects whose
    references have been fetched. -/
structure LowerInv (db₀ : Database) (items containers : List Int) (all : Bool)
    (walked fetched : List Int) (db : Database) (b : RemoveBuffers) : Prop where
  upper : UpperInv db₀ items containers all db b
  tracked : ¬ DeletesEarly all db₀ items containers →
    db = db₀ ∧ ∃ n, b = buffersAfter all db₀ items containers n
  reason : ∀ r ∈ db₀.objects.rows, Doomed db b r.id → DoomReason containers walked fetched b r
  fetched_selected : ∀ i ∈ fetched, Selected db₀ items containers all i
  added : ∀ i ∈ b.removeAddParents, i ∈ b.recurseItems
  given_container : ∀ i ∈ containers, i ∈ walked ++ b.recurseContainers ∧ Doomed db b i
  given_item : ∀ i ∈ items, i ∈ fetched ++ b.recurseItems
  selected_goes : ∀ i ∈ fetched ++ b.recurseItems, (containers ≠ [] ∧ i ∈ items) ∨
    Doomed db b i ∨ i ∈ b.removeAddParents
  references : ∀ r ∈ db₀.objects.rows, ∀ i ∈ fetched, r.refID = some i → Doomed db b r.id
  child_goes : ∀ r ∈ db₀.objects.rows, r.parentID ∈ walked → redirect all r = none →
    Doomed db b r.id
  child_walked : ∀ r ∈ db₀.objects.rows, r.parentID ∈ walked →
    isCdsContainer r.objectType = true →
    ¬ MissedAsChild (DeletesEarly all db₀ items containers) db₀ items containers all r →
    r.id ∈ walked ++ b.recurseContainers
  child_selected : ∀ r ∈ db₀.objects.rows, r.parentID ∈ walked →
    isCdsContainer r.objectType = false →
    ¬ MissedAsChild (DeletesEarly all db₀ items containers) db₀ items containers all r →
    (redirect all r).getD r.id ∈ fetched ++ b.recurseItems
  child_redirected : ∀ r ∈ db₀.objects.rows, r.parentID ∈ walked → ∀ x, redirect all r = some x →
    ¬ MissedAsChild (DeletesEarly all db₀ items containers) db₀ items containers all r →
    ¬ (DeletesEarly all db₀ items containers ∧ containers ≠ [] ∧ x ∈ items) →
    Doomed db b x ∨ x ∈ b.removeAddParents

section

variable {db₀ db : Database} {items containers walked fetched : List Int} {all : Bool}
  {b : RemoveBuffers}

/-- What is put in the buffer in a round is decided on after it. -/
theorem doomed_of_added {i : Int} (h : i ∈ (afterPasses all db b).remove) :
    Doomed (removeRound all db b).1 (removeRound all db b).2 i := doomed_removeRound.mpr (Or.inl h)

/-- A row that is not fetched because it is gone. -/
theorem doomed_of_gone (hsub : ∀ r ∈ db.objects.rows, r ∈ db₀.objects.rows) {r : ObjectRow}
    (hr : r ∈ db₀.objects.rows) (hnot : r ∉ db.objects.rows) : Doomed db b r.id :=
  Or.inr fun _ hr' hid => hnot (eq_of_id_eq hsub hr hr' hid ▸ hr')

theorem LowerInv.selected (h : LowerInv db₀ items containers all walked fetched db b) {i : Int}
    (hi : i ∈ fetched ++ b.recurseItems) : Selected db₀ items containers all i := by
  rcases List.mem_append.mp hi with hi | hi
  · exact h.fetched_selected i hi
  · exact h.upper.recurseItems i hi

/-- A child that is gone when its parent's turn comes was deleted early, and for a reason that had
    nothing to do with its parent; or its parent's turn had come before. -/
theorem LowerInv.gone (h : LowerInv db₀ items containers all walked fetched db b) {r : ObjectRow}
    (hr : r ∈ db₀.objects.rows) (hnot : r ∉ db.objects.rows) :
    DeletesEarly all db₀ items containers ∧ DoomReason containers walked fetched b r := by
  refine ⟨?_, h.reason r hr (doomed_of_gone h.upper.rows hr hnot)⟩
  by_contra hearly
  obtain ⟨rfl, -⟩ := h.tracked hearly
  exact hnot hr

theorem LowerInv.round (h : LowerInv db₀ items containers all walked fetched db b)
    (hcont : ∀ r ∈ db₀.objects.rows, r.id ∈ containers → isCdsContainer r.objectType = true) :
    LowerInv db₀ items containers all (walked ++ b.recurseContainers) (fetched ++ b.recurseItems)
      (removeRound all db b).1 (removeRound all db b).2 where
  upper := h.upper.round
  tracked := by
    intro hearly
    obtain ⟨rfl, n, rfl⟩ := h.tracked hearly
    have hsmall : ¬ maxRemoveSize < idsLength
        (afterPasses all db (buffersAfter all db items containers n)).remove :=
      fun hbig => hearly ⟨n, hbig⟩
    unfold removeRound
    simp only [if_neg hsmall]
    exact ⟨trivial, n + 1, rfl⟩
  reason := by
    intro r hr hdoom
    have before : Doomed db b r.id → DoomReason containers (walked ++ b.recurseContainers)
        (fetched ++ b.recurseItems) (removeRound all db b).2 r := by
      intro hold
      rcases h.reason r hr hold with hg | hs | ⟨i, hi, href⟩ | hp
      · exact Or.inl hg
      · exact Or.inr (Or.inl (List.mem_append_left _ hs))
      · exact Or.inr (Or.inr (Or.inl ⟨i, List.mem_append_left _ hi, href⟩))
      · exact Or.inr (Or.inr (Or.inr (List.mem_append_left _ hp)))
    rcases doomed_removeRound.mp hdoom with hin | hgone
    · rcases mem_afterPasses_remove.mp hin with hin | hin | ⟨r', hr', ⟨j, hj, href⟩, hid⟩ |
        ⟨r', hr', hp, -, hid⟩
      · exact before (Or.inl hin)
      · exact Or.inr (Or.inl (List.mem_append_left _ (List.mem_append_right _ (h.added _ hin))))
      · have heq := eq_of_id_eq h.upper.rows hr hr' hid
        subst heq
        exact Or.inr (Or.inr (Or.inl ⟨j, List.mem_append_right _ hj, href⟩))
      · have heq := eq_of_id_eq h.upper.rows hr hr' hid
        subst heq
        exact Or.inr (Or.inr (Or.inr (List.mem_append_right _ hp)))
    · exact before (Or.inr hgone)
  fetched_selected i hi := h.selected hi
  added := by
    intro i hi
    rw [removeRound_removeAddParents] at hi
    rw [removeRound_recurseItems]
    obtain ⟨r, hr, hp, hx⟩ := mem_afterPasses_removeAddParents.mp hi
    refine mem_afterPasses_recurseItems.mpr ⟨r, hr, hp, ?_, by rw [hx]; rfl⟩
    by_contra hc
    rw [redirect_container (by simpa using hc)] at hx
    cases hx
  given_container i hi :=
    ⟨List.mem_append_left _ (h.given_container i hi).1, (h.given_container i hi).2.removeRound⟩
  given_item i hi := List.mem_append_left _ (h.given_item i hi)
  selected_goes := by
    intro i hi
    rcases List.mem_append.mp hi with hi | hi
    · rcases h.selected_goes i hi with hg | hd | ha
      · exact Or.inl hg
      · exact Or.inr (Or.inl hd.removeRound)
      · exact Or.inr (Or.inl (doomed_of_added (mem_afterPasses_remove.mpr (Or.inr (Or.inl ha)))))
    · rw [removeRound_recurseItems] at hi
      obtain ⟨r, hr, hp, -, hi⟩ := mem_afterPasses_recurseItems.mp hi
      rcases hx : redirect all r with _ | x
      · rw [hx] at hi
        exact Or.inr (Or.inl (doomed_of_added (mem_afterPasses_remove.mpr
          (Or.inr (Or.inr (Or.inr ⟨r, hr, hp, hx, hi⟩))))))
      · rw [hx] at hi
        refine Or.inr (Or.inr ?_)
        rw [removeRound_removeAddParents]
        exact mem_afterPasses_removeAddParents.mpr ⟨r, hr, hp, hx.trans (congrArg some hi)⟩
  references := by
    intro r hr i hi href
    rcases List.mem_append.mp hi with hi | hi
    · exact (h.references r hr i hi href).removeRound
    · by_cases hin : r ∈ db.objects.rows
      · exact doomed_of_added (mem_afterPasses_remove.mpr
          (Or.inr (Or.inr (Or.inl ⟨r, hin, ⟨i, hi, href⟩, rfl⟩))))
      · exact (doomed_of_gone h.upper.rows hr hin).removeRound
  child_goes := by
    intro r hr hp hx
    rcases List.mem_append.mp hp with hp | hp
    · exact (h.child_goes r hr hp hx).removeRound
    · by_cases hin : r ∈ db.objects.rows
      · exact doomed_of_added (mem_afterPasses_remove.mpr
          (Or.inr (Or.inr (Or.inr ⟨r, hin, hp, hx, rfl⟩))))
      · exact (doomed_of_gone h.upper.rows hr hin).removeRound
  child_walked := by
    intro r hr hp hc hmiss
    rw [removeRound_recurseContainers]
    rcases List.mem_append.mp hp with hp | hp
    · exact List.mem_append_left _ (h.child_walked r hr hp hc hmiss)
    · by_cases hin : r ∈ db.objects.rows
      · exact List.mem_append_right _
          (mem_afterPasses_recurseContainers.mpr ⟨r, hin, hp, hc, rfl⟩)
      · obtain ⟨hearly, hg | hs | ⟨i, hi, href⟩ | hw⟩ := h.gone hr hin
        · exact List.mem_append_left _ (h.given_container _ hg).1
        · exact absurd ⟨hearly, Or.inr ⟨Or.inl hc, h.selected hs⟩⟩ hmiss
        · exact absurd ⟨hearly, Or.inl ⟨Or.inl hc, i, href, h.fetched_selected i hi⟩⟩ hmiss
        · exact List.mem_append_left _ (h.child_walked r hr hw hc hmiss)
  child_selected := by
    intro r hr hp hc hmiss
    rw [removeRound_recurseItems]
    rcases List.mem_append.mp hp with hp | hp
    · exact List.mem_append_left _ (h.child_selected r hr hp hc hmiss)
    · by_cases hin : r ∈ db.objects.rows
      · exact List.mem_append_right _ (mem_afterPasses_recurseItems.mpr ⟨r, hin, hp, hc, rfl⟩)
      · obtain ⟨hearly, hg | hs | ⟨i, hi, href⟩ | hw⟩ := h.gone hr hin
        · rw [hcont r hr hg] at hc
          cases hc
        · rcases hx : redirect all r with _ | x
          · exact List.mem_append_left _ hs
          · refine absurd ⟨hearly, Or.inr ⟨Or.inr ?_, h.selected hs⟩⟩ hmiss
            rw [hx]
            exact Option.some_ne_none x
        · rcases hx : redirect all r with _ | x
          · exact absurd ⟨hearly, Or.inl ⟨Or.inr hx, i, href, h.fetched_selected i hi⟩⟩ hmiss
          · -- it redirects to what it refers to, whose turn has come
            have heq := (refID_of_redirect hx).symm.trans href
            cases heq
            exact List.mem_append_left _ (List.mem_append_left _ hi)
        · exact List.mem_append_left _ (h.child_selected r hr hw hc hmiss)
  child_redirected := by
    intro r hr hp x hx hmiss hgiven
    have settled : Doomed db b x ∨ x ∈ b.removeAddParents →
        Doomed (removeRound all db b).1 (removeRound all db b).2 x ∨
          x ∈ (removeRound all db b).2.removeAddParents := by
      rintro (hd | ha)
      · exact Or.inl hd.removeRound
      · exact Or.inl (doomed_of_added (mem_afterPasses_remove.mpr (Or.inr (Or.inl ha))))
    rcases List.mem_append.mp hp with hp | hp
    · exact settled (h.child_redirected r hr hp x hx hmiss hgiven)
    · by_cases hin : r ∈ db.objects.rows
      · refine Or.inr ?_
        rw [removeRound_removeAddParents]
        exact mem_afterPasses_removeAddParents.mpr ⟨r, hin, hp, hx⟩
      · obtain ⟨hearly, hg | hs | ⟨i, hi, href⟩ | hw⟩ := h.gone hr hin
        · rw [redirect_container (hcont r hr hg)] at hx
          cases hx
        · refine absurd ⟨hearly, Or.inr ⟨Or.inr ?_, h.selected hs⟩⟩ hmiss
          rw [hx]
          exact Option.some_ne_none x
        · have heq := (refID_of_redirect hx).symm.trans href
          cases heq
          rcases h.selected_goes x (List.mem_append_left _ hi) with hg | hd
          · exact absurd ⟨hearly, hg⟩ hgiven
          · exact settled hd
        · exact settled (h.child_redirected r hr hw x hx hmiss hgiven)

theorem lowerInv_initial (db₀ : Database) (items containers : List Int) (all : Bool) :
    LowerInv db₀ items containers all [] [] db₀ (initialBuffers items containers) where
  upper := upperInv_initial db₀ items containers all
  tracked _ := ⟨rfl, 0, rfl⟩
  reason := by
    rintro r hr (hin | hgone)
    · exact Or.inl hin
    · exact absurd rfl (hgone r hr)
  fetched_selected _ hi := nomatch hi
  added := by
    intro i hi
    unfold initialBuffers at hi
    simp only at hi
    split at hi
    · exact hi
    · cases hi
  given_container i hi := ⟨hi, Or.inl hi⟩
  given_item i hi := hi
  selected_goes := by
    intro i hi
    by_cases hnil : containers = []
    · refine Or.inr (Or.inr ?_)
      unfold initialBuffers
      simp only [if_pos hnil]
      exact hi
    · exact Or.inl ⟨hnil, hi⟩
  references _ _ _ hi := nomatch hi
  child_goes _ _ hp := nomatch hp
  child_walked _ _ hp := nomatch hp
  child_selected _ _ hp := nomatch hp
  child_redirected _ _ hp := nomatch hp

/-! ## Where the loop ends -/

theorem LowerInv.walked_of_done (h : LowerInv db₀ items containers all walked fetched db b)
    (hdone : b.recurseContainers = []) {i : Int}
    (hi : WalkedFor (DeletesEarly all db₀ items containers) db₀ items containers all i) :
    i ∈ walked := by
  induction hi with
  | given hi =>
    have hin := (h.given_container _ hi).1
    rwa [hdone, List.append_nil] at hin
  | child hr hc _ hmiss ih =>
    have hin := h.child_walked _ hr ih hc hmiss
    rwa [hdone, List.append_nil] at hin

/-- **What certainly goes is decided on where the loop ends.** -/
theorem LowerInv.doomed_of_done (h : LowerInv db₀ items containers all walked fetched db b)
    (hdone : b.done = true) {i : Int}
    (hi : GoesFor (DeletesEarly all db₀ items containers) db₀ items containers all i) :
    Doomed db b i := by
  unfold RemoveBuffers.done at hdone
  simp only [Bool.and_eq_true, decide_eq_true_eq] at hdone
  obtain ⟨⟨hitems, hadd⟩, hconts⟩ := hdone
  have hselected : ∀ j, SelectedFor (DeletesEarly all db₀ items containers) db₀ items containers
      all j → j ∈ fetched := by
    intro j hj
    have hin : j ∈ fetched ++ b.recurseItems := by
      cases hj with
      | given hj => exact h.given_item j hj
      | child hr hc hw hmiss => exact h.child_selected _ hr (h.walked_of_done hconts hw) hc hmiss
    rwa [hitems, List.append_nil] at hin
  have hadded : Doomed db b i ∨ i ∈ b.removeAddParents → Doomed db b i := by
    rintro (hd | ha)
    · exact hd
    · rw [hadd] at ha
      cases ha
  cases hi with
  | container hi => exact (h.given_container i hi).2
  | item hnil hi =>
    rcases h.selected_goes i (h.given_item i hi) with ⟨hne, -⟩ | hd
    · exact absurd hnil hne
    · exact hadded hd
  | child hr hx hw => exact h.child_goes _ hr (h.walked_of_done hconts hw) hx
  | redirected hr hx hw hmiss hgiven =>
    exact hadded (h.child_redirected _ hr (h.walked_of_done hconts hw) _ hx hmiss hgiven)
  | reference hr href hs => exact h.references _ hr _ (hselected _ hs) href

/-- **What certainly goes is gone when `_recursiveRemove` returns.** -/
theorem recursiveRemove_complete {s s' : StorageState} {ch : ChangedContainers}
    (hcont : ∀ r ∈ s.db.objects.rows, r.id ∈ containers → isCdsContainer r.objectType = true)
    (h : (recursiveRemove_ items containers all).run s = (.ok ch, s')) {i : Int}
    (hi : GoesFor (DeletesEarly all s.db items containers) s.db items containers all i) :
    ∀ r ∈ s'.db.objects.rows, r.id ≠ i := by
  have hrule := recursiveRemove_rule
    (I := fun db b _ => ∃ walked fetched, LowerInv s.db items containers all walked fetched db b)
    (fun _ _ _ ⟨_, _, hinv⟩ => ⟨_, _, hinv.round hcont⟩)
    ⟨[], [], lowerInv_initial s.db items containers all⟩
  rw [h] at hrule
  obtain ⟨⟨db, b, ⟨walked, fetched, hinv⟩, hdone, hdb⟩, -⟩ := hrule
  intro r hr hid
  rw [hdb, Database.mem_removeObjects] at hr
  rcases hinv.doomed_of_done hdone hi with hin | hgone
  · exact hr.2 (hid ▸ hin)
  · exact hgone r hr.1 hid

end

end MediaTomb
