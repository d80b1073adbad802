/-
  Rows a removal leaves behind with a parent or a reference that is gone.

  `_recursiveRemove` and the purge together delete what `Vanishes`: what goes in the loop, and the
  containers that lose their last child by it, up the tree.  A removal leaves no dangling row exactly
  when everything that depends on a vanishing row vanishes too.  It does not always:
    * a container that is a REFERENCE to a removed item is deleted with the other references, but its
      children are not looked for;
    * a row that refers to a removed CONTAINER, to a purged one, or to a removed reference is not
      looked for either.
-/
import MediaTomb.Storage.ChangedContainers
import MediaTomb.Storage.RemovalClosure

namespace MediaTomb

open Lib.Prog

/-! ## What vanishes -/

/-- What is gone after the purge when `goes` is gone before it. -/
inductive Vanishes (db : Database) (goes : Int → Prop) : Int → Prop where
  | goes {i : Int} : goes i → Vanishes db goes i
  | emptied {c : ObjectRow} : c ∈ db.objects.rows → c.objectType = objectTypeContainer →
      isPersistentContainer c = false → (∃ child ∈ db.objects.rows, child.parentID = c.id) →
      (∀ child ∈ db.objects.rows, child.parentID = c.id → Vanishes db goes child.id) →
      Vanishes db goes c.id

section

variable {db₀ db₁ db : Database} {goes : Int → Prop} {i : Int}

theorem Vanishes.mono {goes' : Int → Prop} (hsub : ∀ j, goes j → goes' j)
    (h : Vanishes db goes i) : Vanishes db goes' i := by
  induction h with
  | goes hi => exact .goes (hsub _ hi)
  | emptied hc ht hp hex _ ih => exact .emptied hc ht hp hex ih

theorem not_vanishes (hnone : ∀ j, ¬ goes j) : ¬ Vanishes db goes i := by
  intro h
  induction h with
  | goes hi => exact hnone _ hi
  | emptied _ _ _ hex _ ih =>
    obtain ⟨child, hchild, hp⟩ := hex
    exact ih child hchild hp

/-- What is missing after the purge vanishes, when what was missing before it goes. -/
theorem Purges.vanishes (h : Purges db₀ db₁ db)
    (hgoes : ∀ r ∈ db₀.objects.rows, r ∉ db₁.objects.rows → goes r.id) :
    ∀ r ∈ db₀.objects.rows, r ∉ db.objects.rows → Vanishes db₀ goes r.id := by
  induction h with
  | refl => exact fun r hr hnot => .goes (hgoes r hr hnot)
  | @delete db ids hpurges hempty hchild ih =>
    intro r hr hnot
    by_cases hin : r ∈ db.objects.rows
    · rw [Database.mem_removeObjects, not_and, not_not] at hnot
      obtain ⟨r', he, hid⟩ := hempty _ (hnot hin)
      have heq := db.objects.eq_of_key_eq he.mem hin hid
      subst heq
      refine .emptied hr he.container he.unflagged (hchild _ (hnot hin)) fun child hc hp => ?_
      exact ih child hc fun hin' => he.childless child hin' hp
    · exact ih r hr hin

/-- What vanishes is missing after a removal that told the right containers. -/
theorem ChangedContainersRight.gone {containers : List Int} {ch : ChangedContainers}
    (h : ChangedContainersRight containers db₀ db₁ db ch)
    (hgoes : ∀ j, goes j → ∀ r ∈ db.objects.rows, r.id ≠ j) (hi : Vanishes db₀ goes i) :
    ∀ r ∈ db.objects.rows, r.id ≠ i := by
  induction hi with
  | goes hi => exact hgoes _ hi
  | @emptied c hc ht hp hex _ ih =>
    -- were it still there, it would have lost a child and be empty
    intro r hr hid
    have heq := db₀.objects.eq_of_key_eq (h.rows r hr) hc hid
    subst heq
    obtain ⟨child, hchild, hpar⟩ := hex
    have hlost : child ∉ db.objects.rows := fun hin => ih child hchild hpar child hin rfl
    rcases h.none_empty child hchild hlost _ hr ht hpar.symm with hflag | ⟨other, hother, hpar'⟩
    · rw [hp] at hflag
      cases hflag
    · exact ih other (h.rows other hother) hpar' other hother rfl

end

/-! ## Dangling rows -/

def DependsOn (r q : ObjectRow) : Prop := r.parentID = q.id ∨ r.refID = some q.id

/-- No row of `db` depends on a row of `db₀` that is gone. -/
def NoneDangles (db₀ db : Database) : Prop :=
  ∀ r ∈ db.objects.rows, ∀ q ∈ db₀.objects.rows, q ∉ db.objects.rows → ¬ DependsOn r q

/-- Every row that depends on one of `gone` is one of `gone'`. -/
def TakesAlong (db : Database) (gone gone' : Int → Prop) : Prop :=
  ∀ r ∈ db.objects.rows, ∀ q ∈ db.objects.rows, gone q.id → DependsOn r q → gone' r.id

namespace RemovalCall

variable (call : RemovalCall) (db : Database)

/-- The text of the ids to remove can grow past the size at which it is deleted early. -/
def Early : Prop := DeletesEarly call.all db (call.items db) (call.containers db)

/-- What may be gone after the call. -/
def MayVanish : Int → Prop := Vanishes db (Goes db (call.items db) (call.containers db) call.all)

/-- What is gone after the call for certain. -/
def MustVanish : Int → Prop :=
  Vanishes db (GoesFor (call.Early db) db (call.items db) (call.containers db) call.all)

variable {call db}

theorem mustVanish_of_mayVanish (hnot : ¬ call.Early db) {i : Int} (h : call.MayVanish db i) :
    call.MustVanish db i := Vanishes.mono (fun _ hj => goesFor_of_goes hnot hj) h

theorem not_mustVanish (hi : call.items db = []) (hc : call.containers db = []) (i : Int) :
    ¬ call.MustVanish db i := by
  refine not_vanishes fun j hj => ?_
  have hwalked : ∀ k, ¬ WalkedFor (call.Early db) db (call.items db) (call.containers db) call.all
      k := by
    intro k hk
    induction hk with
    | given hk =>
      rw [hc] at hk
      cases hk
    | child _ _ _ _ ih => exact ih
  cases hj with
  | container hj =>
    rw [hc] at hj
    cases hj
  | item _ hj =>
    rw [hi] at hj
    cases hj
  | child _ _ hw => exact hwalked _ hw
  | redirected _ _ hw => exact hwalked _ hw
  | reference _ _ hs =>
    cases hs with
    | given hk =>
      rw [hi] at hk
      cases hk
    | child _ _ hw => exact hwalked _ hw

/-- What any removal has done since the flush, whichever way it ends. -/
structure Leaves (call : RemovalCall) (s₀ s' : StorageState) : Prop where
  rows : ∀ r ∈ s'.db.objects.rows, r ∈ s₀.db.objects.rows
  gone : ∀ r ∈ s₀.db.objects.rows, r ∉ s'.db.objects.rows → call.MayVanish s₀.db r.id
  rest : s' = { s₀ with db := s'.db, cache := s'.cache }

/-- **Whichever way a removal ends**, it has changed nothing since the flush, or it was given no
    forbidden id and has deleted rows that may vanish. -/
theorem leaves (call : RemovalCall) (s : StorageState) :
    (call.prog.run s).2 = (flushInsertBuffer.run s).2 ∨
      (∀ i ∈ call.items (flushInsertBuffer.run s).2.db ++
          call.containers (flushInsertBuffer.run s).2.db, isForbiddenCdsID i = false) ∧
        call.Leaves (flushInsertBuffer.run s).2 (call.prog.run s).2 := by
  rcases call.run_cases s with ⟨e, s₀, hflush, herr⟩ | ⟨s₀, hflush, hcases⟩
  · rw [hflush, herr]
    exact Or.inl rfl
  · rw [hflush]
    rcases hcases with ⟨hnone, -⟩ | ⟨id, herr⟩ | ⟨hbody, hids⟩
    · rw [hnone]
      exact Or.inl rfl
    · rw [herr]
      exact Or.inl rfl
    · rw [hbody]
      refine Or.inr ⟨hids, ?_⟩
      rcases hremove : (recursiveRemove_ (call.items s₀.db) (call.containers s₀.db) call.all).run s₀
        with ⟨e | told, s₁⟩
      · obtain ⟨hgone, hrows, hrest⟩ := recursiveRemove_error hremove
        unfold body
        rw [run_bind_of_error hremove]
        refine ⟨hrows, fun r hr hnot => .goes (hgone r hr hnot), ?_⟩
        rw [hrest]
      · obtain ⟨hremoved, hrest⟩ := recursiveRemove_ok hremove
        unfold body
        rw [run_bind_of_ok hremove]
        rcases hpurge : (purgeEmptyContainers_ told).run s₁ with ⟨e | ch, s₂⟩
        · obtain ⟨hpurges, hrest'⟩ := purgeEmptyContainers_error hremoved hpurge
          rw [run_bind_of_error hpurge]
          refine ⟨fun r hr => hremoved.rows r (hpurges.rows r hr), hpurges.vanishes hremoved.goes, ?_⟩
          rw [hrest', hrest]
        · obtain ⟨hright, hrest'⟩ := purgeEmptyContainers_ok hremoved hpurge
          rw [run_bind_of_ok hpurge, run_pure]
          refine ⟨hright.rows, hright.purges.vanishes hremoved.goes, ?_⟩
          rcases hrest' with ⟨rfl, -⟩ | hrest'
          · rw [hrest]
          · rw [hrest', hrest]

/-- **What is gone after a removal that returns** lies between the two bounds. -/
theorem vanishes {s s' : StorageState} {res : Option ChangedContainers}
    (h : call.prog.run s = (.ok res, s')) :
    ∃ s₀, flushInsertBuffer.run s = (.ok (), s₀) ∧
      (∀ r ∈ s'.db.objects.rows, r ∈ s₀.db.objects.rows) ∧
      (∀ r ∈ s₀.db.objects.rows, r ∉ s'.db.objects.rows → call.MayVanish s₀.db r.id) ∧
      ∀ i, call.MustVanish s₀.db i → ∀ r ∈ s'.db.objects.rows, r.id ≠ i := by
  rcases call.run_cases s with ⟨e, s₀, -, herr⟩ | ⟨s₀, hflush, hcases⟩
  · rw [h] at herr
    cases herr
  · refine ⟨s₀, hflush, ?_⟩
    rcases hcases with ⟨hnone, hitems, hconts⟩ | ⟨id, herr⟩ | ⟨hbody, -⟩
    · rw [h] at hnone
      cases hnone
      exact ⟨fun r hr => hr, fun r hr hnot => absurd hr hnot,
        fun i hi => absurd hi (not_mustVanish hitems hconts i)⟩
    · rw [h] at herr
      cases herr
    · rw [h] at hbody
      obtain ⟨told, s₁, hremove, hrest⟩ := bind_ok hbody.symm
      obtain ⟨ch, s₂, hpurge, hret⟩ := bind_ok hrest
      cases hret
      obtain ⟨hremoved, -⟩ := recursiveRemove_ok hremove
      obtain ⟨hright, -⟩ := purgeEmptyContainers_ok hremoved hpurge
      refine ⟨hright.rows, hright.purges.vanishes hremoved.goes, fun i hi => ?_⟩
      refine hright.gone (fun j hj r hr => ?_) hi
      exact recursiveRemove_complete (fun r hr hin => containers_isContainer hr hin) hremove hj r
        (hright.purges.rows r hr)

end RemovalCall

/-- Every `parent_id` and every `ref_id` names a row. -/
def ReferencesResolve (db : Database) : Prop :=
  ∀ r ∈ db.objects.rows, (∃ p ∈ db.objects.rows, p.id = r.parentID) ∧
    ∀ i ∈ r.refID, ∃ q ∈ db.objects.rows, q.id = i

instance (db : Database) : Decidable (ReferencesResolve db) := by
  unfold ReferencesResolve
  infer_instance

/-- The file `/a/x` (item 3), a virtual container made for it (4), and a link in that (5). -/
def playlistStorage : StorageState :=
  runOps
    [.addObject (plainFile (str "/a/x")),
     .addContainerChain (str "/P") (some (str "object.container.playlistContainer")) 3 none,
     .addObject
      { plainFile (str "http://p/y") with
        parentID := 4
        kind := .itemExternalURL {} }]
    (.started .fresh true .ok)

end MediaTomb
