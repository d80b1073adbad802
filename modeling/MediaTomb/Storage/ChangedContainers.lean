/-
  The two entry points of a removal, and the containers they report as changed.

  A removal that returns has gone through the same three stages, whatever its entry point: the insert
  buffer is flushed, `_recursiveRemove` deletes, `_purgeEmptyContainers` deletes what that left
  empty.  `removal_changedContainers` puts together what the two loops promise.
-/
import MediaTomb.Storage.Purge

namespace MediaTomb

open Lib.Prog

/-! ## The entry points -/

inductive RemovalCall where
  | removeObject (objectID : Int) (all : Bool)
  | removeObjects (list : List Int) (all : Bool)

namespace RemovalCall

def prog : RemovalCall → Storage (Option ChangedContainers)
  | removeObject objectID all => MediaTomb.removeObject objectID all
  | removeObjects list all => MediaTomb.removeObjects list all

def all : RemovalCall → Bool
  | removeObject _ all => all
  | removeObjects _ all => all

/-- The containers the caller removes. -/
def containers (db : Database) : RemovalCall → List Int
  | removeObject objectID all =>
    match db.objects.find? objectID with
    | none => []
    | some row => if isCdsContainer row.objectType then [removedID row all] else []
  | removeObjects list _ =>
    ((db.selectObjects fun r => r.id ∈ list).filter fun r => isCdsContainer r.objectType).map
      ObjectRow.id

/-- The other objects the caller removes. -/
def items (db : Database) : RemovalCall → List Int
  | removeObject objectID all =>
    match db.objects.find? objectID with
    | none => []
    | some row => if isCdsContainer row.objectType then [] else [removedID row all]
  | removeObjects list _ =>
    ((db.selectObjects fun r => r.id ∈ list).filter fun r => !isCdsContainer r.objectType).map
      ObjectRow.id

/-- Both loops, from the state after the flush. -/
def body (call : RemovalCall) (db : Database) : Storage (Option ChangedContainers) := do
  let changedContainers ← recursiveRemove_ (call.items db) (call.containers db) call.all
  let changed ← purgeEmptyContainers_ changedContainers
  pure (some changed)

/-- **What an entry point does after the flush**: it finds nothing to remove, it refuses a forbidden
    id, or it runs both loops, on ids none of which is forbidden. -/
theorem run_cases (call : RemovalCall) (s : StorageState) :
    (∃ e s₀, flushInsertBuffer.run s = (.error e, s₀) ∧ call.prog.run s = (.error e, s₀)) ∨
    ∃ s₀, flushInsertBuffer.run s = (.ok (), s₀) ∧
      ((call.prog.run s = (.ok none, s₀) ∧ call.items s₀.db = [] ∧ call.containers s₀.db = []) ∨
        (∃ id, call.prog.run s = (.error (forbiddenID id), s₀)) ∨
        (call.prog.run s = (call.body s₀.db).run s₀ ∧
          ∀ i ∈ call.items s₀.db ++ call.containers s₀.db, isForbiddenCdsID i = false)) := by
  rcases hf : flushInsertBuffer.run s with ⟨e | ⟨⟩, s₀⟩
  · refine Or.inl ⟨e, s₀, rfl, ?_⟩
    cases call with
    | removeObject objectID all => exact run_bind_of_error hf
    | removeObjects list all => exact run_bind_of_error hf
  · refine Or.inr ⟨s₀, rfl, ?_⟩
    cases call with
    | removeObject objectID all =>
      have hrun : (MediaTomb.removeObject objectID all).run s =
          ((select fun db => db.objects.find? objectID) >>= _).run s₀ := run_bind_of_ok hf
      rcases hrow : s₀.db.objects.find? objectID with _ | row
      · refine Or.inl ⟨?_, ?_, ?_⟩
        · simp only [prog, hrun, select, run_read_bind, hrow, run_pure]
        · simp only [items, hrow]
        · simp only [containers, hrow]
      · rcases hforb : isForbiddenCdsID (removedID row all) with _ | _
        · refine Or.inr (Or.inr ⟨?_, ?_⟩)
          · rcases hc : isCdsContainer row.objectType with _ | _
            · simp only [prog, hrun, select, run_read_bind, hrow, hforb, Bool.false_eq_true,
                if_false, body, items, containers, hc]
              rfl
            · simp only [prog, hrun, select, run_read_bind, hrow, hforb, Bool.false_eq_true,
                if_false, if_true, body, items, containers, hc]
              rfl
          · intro i hi
            simp only [items, containers, hrow] at hi
            split at hi
            · rw [List.nil_append, List.mem_singleton] at hi
              rw [hi, hforb]
            · rw [List.append_nil, List.mem_singleton] at hi
              rw [hi, hforb]
        · refine Or.inr (Or.inl ⟨removedID row all, ?_⟩)
          simp only [prog, hrun, select, run_read_bind, hrow, hforb, if_true, run_throw]
    | removeObjects list all =>
      have hrun : (MediaTomb.removeObjects list all).run s = _ := run_bind_of_ok hf
      by_cases hnil : list = []
      · refine Or.inl ⟨?_, ?_, ?_⟩
        · simp only [prog]
          rw [hrun, if_pos hnil, run_pure]
        · simp [items, hnil, Database.selectObjects]
        · simp [containers, hnil, Database.selectObjects]
      · rcases hforb : list.find? isForbiddenCdsID with _ | id
        · refine Or.inr (Or.inr ⟨?_, ?_⟩)
          · simp only [prog, hrun, hnil, if_false, hforb, select, run_read_bind]
            rfl
          · intro i hi
            have hin : i ∈ list := by
              simp only [items, containers, List.mem_append, List.mem_map, List.mem_filter,
                Database.selectObjects, decide_eq_true_eq] at hi
              rcases hi with ⟨r, ⟨⟨-, hr⟩, -⟩, rfl⟩ | ⟨r, ⟨⟨-, hr⟩, -⟩, rfl⟩
              · exact hr
              · exact hr
            have hnot := List.find?_eq_none.mp hforb i hin
            rwa [Bool.not_eq_true] at hnot
        · refine Or.inr (Or.inl ⟨id, ?_⟩)
          simp only [prog, hrun, hnil, if_false, hforb, run_throw]

theorem containers_isContainer {db : Database} {call : RemovalCall} {r : ObjectRow}
    (hr : r ∈ db.objects.rows) (h : r.id ∈ call.containers db) :
    isCdsContainer r.objectType = true := by
  cases call with
  | removeObject objectID all =>
    unfold containers at h
    simp only at h
    split at h
    · cases h
    · next row hrow =>
      split at h
      · next hc =>
        -- a container is never redirected
        have hid : removedID row all = row.id := by
          unfold removedID
          rw [hc, Bool.not_true, Bool.and_false]
          rfl
        rw [List.mem_singleton, hid] at h
        rwa [db.objects.eq_of_key_eq hr (Lib.Table.find?_eq_some.mp hrow).1 h]
      · cases h
  | removeObjects list all =>
    unfold containers at h
    obtain ⟨r', hr', hid⟩ := List.mem_map.mp h
    obtain ⟨hsel, hc⟩ := List.mem_filter.mp hr'
    rwa [db.objects.eq_of_key_eq hr (List.mem_filter.mp hsel).1 hid.symm]

end RemovalCall

/-! ## What the lists promise -/

/-- The lists `ch`, for a removal that led from `db₀` over `db₁`, where the purge starts, to `db`. -/
structure ChangedContainersRight (containers : List Int) (db₀ db₁ db : Database)
    (ch : ChangedContainers) : Prop where
  rows : ∀ r ∈ db.objects.rows, r ∈ db₀.objects.rows
  upnp : ∀ r ∈ db₀.objects.rows, r ∉ db.objects.rows → ∀ c ∈ db.objects.rows,
    c.objectType = objectTypeContainer → c.id = r.parentID → c.id ∈ ch.upnp
  ui : ∀ r ∈ db₀.objects.rows, r ∉ db.objects.rows → r.id ∈ containers ∨ r ∈ db₁.objects.rows →
    ∀ c ∈ db.objects.rows, c.objectType = objectTypeContainer → c.id = r.parentID → c.id ∈ ch.ui
  survivors : ∀ i, i ∈ ch.upnp ∨ i ∈ ch.ui → ∃ c ∈ db.objects.rows, c.id = i ∧
    c.objectType = objectTypeContainer
  none_empty : ∀ r ∈ db₀.objects.rows, r ∉ db.objects.rows → ∀ c ∈ db.objects.rows,
    c.objectType = objectTypeContainer → c.id = r.parentID →
    isPersistentContainer c = true ∨ ∃ child ∈ db.objects.rows, child.parentID = c.id
  purges : Purges db₀ db₁ db

section

variable {items containers : List Int} {all : Bool} {db₀ db₁ db : Database}
  {told ch : ChangedContainers} {b : PurgeBuffers}

/-- What `_recursiveRemove` tells is what the purge loop starts from. -/
theorem RecursiveRemoved.purgeInv (h : RecursiveRemoved items containers all db₀ db₁ told) :
    PurgeInv db₀ db₁ containers db₁ { selUI := told.ui, selUpnp := told.upnp } {} where
  purges := .refl
  rows := h.rows
  del := rfl
  parents i hi := h.parents i hi.symm
  reported i hi := by
    rcases hi with hi | hi
    · cases hi
    · cases hi
  told r hr hnot c hc _ hcr := by
    rcases h.told r hr hnot c hc hcr with hup | hui
    · exact Or.inr (Or.inr hup)
    · exact Or.inr (Or.inl hui)
  told_ui r hr hnot hwhich c _ _ hcr := by
    rcases hwhich with hin | hin
    · exact Or.inr (hcr ▸ h.ui r hr hin)
    · exact absurd hin hnot

/-- A removal that told nothing has taken no child from a container that is still there. -/
theorem RecursiveRemoved.right_of_nothing_told
    (h : RecursiveRemoved items containers all db₀ db₁ told) (hup : told.upnp = [])
    (hui : told.ui = []) : ChangedContainersRight containers db₀ db₁ db₁ {} := by
  have hnone : ∀ r ∈ db₀.objects.rows, r ∉ db₁.objects.rows → ∀ c ∈ db₁.objects.rows,
      c.id ≠ r.parentID := by
    intro r hr hnot c hc hcr
    have htold := h.told r hr hnot c hc hcr
    rw [hup, hui] at htold
    rcases htold with hin | hin
    · cases hin
    · cases hin
  refine ⟨h.rows, ?_, ?_, ?_, ?_, .refl⟩
  · exact fun r hr hnot c hc _ hcr => absurd hcr (hnone r hr hnot c hc)
  · exact fun r hr hnot _ c hc _ hcr => absurd hcr (hnone r hr hnot c hc)
  · rintro i (hi | hi)
    · cases hi
    · cases hi
  · exact fun r hr hnot c hc _ hcr => absurd hcr (hnone r hr hnot c hc)

/-- What the purge loop leaves selected is told together with what it reported. -/
theorem PurgeInv.right (h : PurgeInv db₀ db₁ containers db b ch)
    (hrows : ∀ r ∈ db₁.objects.rows, r ∈ db₀.objects.rows) (hsel : NoneEmptySelected db b) :
    ChangedContainersRight containers db₀ db₁ db
      { ui := ch.ui ++ b.selUI, upnp := ch.upnp ++ b.selUI ++ b.selUpnp } where
  rows r hr := hrows r (h.purges.rows r hr)
  upnp r hr hnot c hc ht hcr := by
    simp only [List.mem_append]
    rcases h.told r hr hnot c hc ht hcr with hup | hui | hs
    · exact Or.inl (Or.inl hup)
    · exact Or.inl (Or.inr hui)
    · exact Or.inr hs
  ui r hr hnot hwhich c hc ht hcr := by
    simp only [List.mem_append]
    exact h.told_ui r hr hnot hwhich c hc ht hcr
  survivors i hi := by
    have hi' : (i ∈ ch.upnp ∨ i ∈ ch.ui) ∨ i ∈ b.selUI ∨ i ∈ b.selUpnp := by
      simp only [List.mem_append] at hi
      tauto
    rcases hi' with hrep | hs
    · obtain ⟨c, hc, hid, ht, -⟩ := h.reported i hrep
      exact ⟨c, hc, hid, ht⟩
    · obtain ⟨c, hc, hid, ht, -⟩ := hsel i hs
      exact ⟨c, hc, hid, ht⟩
  none_empty r hr hnot c hc ht hcr := by
    have hstill : (c.id ∈ b.selUI ∨ c.id ∈ b.selUpnp) →
        isPersistentContainer c = true ∨ ∃ child ∈ db.objects.rows, child.parentID = c.id := by
      intro hs
      obtain ⟨c', hc', hid, -, hne⟩ := hsel c.id hs
      have heq := db.objects.eq_of_key_eq hc' hc hid
      subst heq
      by_contra hno
      rw [not_or, Bool.not_eq_true] at hno
      exact hne ⟨hc, ht, hno.1, fun child hchild hp => hno.2 ⟨child, hchild, hp⟩⟩
    rcases h.told r hr hnot c hc ht hcr with hup | hui | hs
    · obtain ⟨c', hc', hid, -, hp⟩ := h.reported c.id (Or.inl hup)
      have heq := db.objects.eq_of_key_eq hc' hc hid
      subst heq
      exact Or.inl hp
    · exact hstill (Or.inl hui)
    · exact hstill (Or.inr hs)
  purges := h.purges

end

/-! ## The whole call -/

section

variable {items containers : List Int} {all : Bool} {s₀ s₁ s' : StorageState}
  {told ch : ChangedContainers}

/-- `_purgeEmptyContainers` gives up: it has purged, and nothing else. -/
theorem purgeEmptyContainers_error {db₀ : Database} {e : Exception}
    (h : RecursiveRemoved items containers all db₀ s₁.db told)
    (hrun : (purgeEmptyContainers_ told).run s₁ = (.error e, s')) :
    Purges db₀ s₁.db s'.db ∧ s' = { s₁ with db := s'.db } := by
  unfold purgeEmptyContainers_ at hrun
  split at hrun
  · cases hrun
  · have hloop := purgeLoop_spec maxRemoveRecursion _ _ s₁ h.purgeInv
    rcases bind_error hrun with herr | ⟨⟨b, rep⟩, s₂, -, hrest⟩
    · rw [herr] at hloop
      exact hloop
    · cases hrest

/-- `_purgeEmptyContainers` returns: the lists are right, and the cache is empty or as it was. -/
theorem purgeEmptyContainers_ok {db₀ : Database}
    (h : RecursiveRemoved items containers all db₀ s₁.db told)
    (hrun : (purgeEmptyContainers_ told).run s₁ = (.ok ch, s')) :
    ChangedContainersRight containers db₀ s₁.db s'.db ch ∧
      (s' = s₁ ∧ told.upnp = [] ∧ told.ui = [] ∨
        s' = { s₁ with db := s'.db, cache := s₁.cache.map StorageCache.clear }) := by
  unfold purgeEmptyContainers_ at hrun
  split at hrun
  · next hnil =>
    cases hrun
    exact ⟨h.right_of_nothing_told hnil.1 hnil.2, Or.inl ⟨rfl, hnil⟩⟩
  · have hloop := purgeLoop_spec maxRemoveRecursion _ _ s₁ h.purgeInv
    obtain ⟨⟨b, rep⟩, s₂, hok, hrest⟩ := bind_ok hrun
    rw [hok] at hloop
    obtain ⟨hI, hsel, hs₂⟩ := hloop
    simp only [modifyCache, run_modify_bind, run_pure, Prod.mk.injEq, Except.ok.injEq] at hrest
    obtain ⟨rfl, rfl⟩ := hrest
    refine ⟨hI.right h.rows hsel, Or.inr ?_⟩
    rw [hs₂]

end

/-- **The returned lists are right.**  A removal that returns found nothing to remove, or both loops
    ran and what it returns is right for the tables they led through. -/
theorem removal_changedContainers (call : RemovalCall) (s s' : StorageState)
    (res : Option ChangedContainers) (h : call.prog.run s = (.ok res, s')) :
    ∃ s₀, flushInsertBuffer.run s = (.ok (), s₀) ∧
      match res with
      | none => s' = s₀
      | some ch => ∃ told s₁,
          (recursiveRemove_ (call.items s₀.db) (call.containers s₀.db) call.all).run s₀ =
            (.ok told, s₁) ∧
          (purgeEmptyContainers_ told).run s₁ = (.ok ch, s') ∧
          ChangedContainersRight (call.containers s₀.db) s₀.db s₁.db s'.db ch := by
  rcases call.run_cases s with ⟨e, s₀, -, herr⟩ | ⟨s₀, hflush, hcases⟩
  · rw [h] at herr
    cases herr
  · refine ⟨s₀, hflush, ?_⟩
    rcases hcases with ⟨hnone, -⟩ | ⟨id, herr⟩ | ⟨hbody, -⟩
    · rw [h] at hnone
      cases hnone
      rfl
    · rw [h] at herr
      cases herr
    · rw [h] at hbody
      obtain ⟨told, s₁, hremove, hrest⟩ := bind_ok hbody.symm
      obtain ⟨ch, s₂, hpurge, hret⟩ := bind_ok hrest
      cases hret
      obtain ⟨hremoved, -⟩ := recursiveRemove_ok hremove
      exact ⟨told, s₁, hremove, hpurge, (purgeEmptyContainers_ok hremoved hpurge).1⟩

/-! ### An emptied directory -/

/-- A resource nothing is known about. -/
def plainResource : CdsResource where
  handlerType := 0
  attributes := .empty
  parameters := .empty
  options := .empty

/-- An item for the file `location`. -/
def plainFile (location : Str) : CdsObject where
  title := some (str "x")
  upnpClass := some (str "object.item")
  location := some location
  kind := .item {}
  resources := [plainResource]

/-- The file `/a/x`: the container 2 and the item 3. -/
def oneFileStorage : StorageState :=
  runOps [.addObject (plainFile (str "/a/x"))] (.started .fresh true .ok)

/-- Without its file the directory goes too, and the PC directory is told. -/
theorem removal_changedContainers_oneFile :
    ∃ s₀ s₁ s' : StorageState, (removeObject 3 false).run oneFileStorage =
        (.ok (some { upnp := [1], ui := [1] }), s') ∧
      ChangedContainersRight ((RemovalCall.removeObject 3 false).containers s₀.db) s₀.db s₁.db
        s'.db { upnp := [1], ui := [1] } := by
  have hrun : (RemovalCall.removeObject 3 false).prog.run oneFileStorage =
      (.ok (some { upnp := [1], ui := [1] }),
        ((RemovalCall.removeObject 3 false).prog.run oneFileStorage).2) :=
    run_eq_of_fst (by decide +kernel)
  obtain ⟨s₀, -, told, s₁, -, -, hright⟩ := removal_changedContainers _ _ _ _ hrun
  exact ⟨s₀, s₁, _, hrun, hright⟩

end MediaTomb
