/-
  The listing of a container, and the query `browse` gets it with.

  The LISTING is what a client is to see: the children that match the flags, containers first, then
  by track number where that is wanted, then by title, ties by id.  The query is built from the
  flags in four different ways, and its order names the containers only where both kinds are asked
  for.

  On a table that the storage can read, the query gives the listing (`sqlQuery_listing`).
-/
import MediaTomb.Lib.OrderBy
import MediaTomb.Storage.Browse

namespace MediaTomb

open Lib.Prog

/-! ## The listing -/

/-- Does the row match the flags? -/
def isListed (param : BrowseParam) (r : ObjectRow) : Bool :=
  r.parentID = param.objectID &&
    ((param.containers && r.objectType = objectTypeContainer) ||
      (param.items && isCdsItem r.objectType)) &&
    !(param.hideFsRoot && param.objectID = cdsIdRoot && r.id = cdsIdFsRoot)

/-- Containers first. -/
def containerRank (r : ObjectRow) : Nat := if r.objectType = objectTypeContainer then 0 else 1

/-- By track, where that is wanted, then by title. -/
def trackTitleCmp (param : BrowseParam) : ObjectRow → ObjectRow → Ordering :=
  compareLex (compareOn fun r => if param.trackSort then r.trackNumber else none)
    (compareOn ObjectRow.dcTitle)

/-- Containers first, then by track and title; ties by id. -/
def listingCmp (param : BrowseParam) : ObjectRow → ObjectRow → Ordering :=
  compareLex (compareOn containerRank)
    (compareLex (trackTitleCmp param) (compareOn ObjectRow.id))

/-- **The listing**: the children that match the flags, in order. -/
def listing (param : BrowseParam) (rows : List ObjectRow) : List ObjectRow :=
  Lib.OrderBy.sorted (listingCmp param) (rows.filter (isListed param))

/-! ## The order of the query -/

section

variable {param : BrowseParam} {a b : ObjectRow} {db : Database}

instance : Std.TransCmp (trackTitleCmp param) := by
  unfold trackTitleCmp
  infer_instance

instance : Std.TransCmp (listingCmp param) := by
  unfold listingCmp
  infer_instance

theorem compare_str (s t : Str) : (compare s t).isLE = true ↔ s ≤ t := by
  induction s generalizing t with
  | nil =>
    cases t with
    | nil => exact iff_of_true rfl (List.nil_le _)
    | cons c t => exact iff_of_true rfl (List.nil_le _)
  | cons c s ih =>
    cases t with
    | nil => exact iff_of_false (fun h => by cases h) (fun h => by simp at h)
    | cons d t =>
      rw [List.compare_cons_cons, List.cons_le_cons_iff, Ordering.isLE_then_iff_or, ih,
        Std.compare_eq_lt, Std.compare_eq_iff_eq]

theorem columnLE_eq {α : Type} [LE α] [DecidableLE α] [Ord α]
    (hle : ∀ x y : α, (compare x y).isLE = true ↔ x ≤ y) (x y : Option α) :
    columnLE x y = (compare x y).isLE := by
  cases x with
  | none =>
    cases y with
    | none => rfl
    | some y => rfl
  | some x =>
    cases y with
    | none => rfl
    | some y =>
      show decide (x ≤ y) = (compare x y).isLE
      rw [Bool.eq_iff_iff, decide_eq_true_iff, hle]

/-- What the query is ordered by. -/
def queryCmp (param : BrowseParam) : ObjectRow → ObjectRow → Ordering :=
  compareLex (compareOn fun r => if param.containers && param.items then containerRank r else 0)
    (trackTitleCmp param)

instance : Std.TransCmp (queryCmp param) := by
  unfold queryCmp
  infer_instance

theorem trackTitle_eq :
    (if param.trackSort ∧ a.trackNumber ≠ b.trackNumber then
      columnLE a.trackNumber b.trackNumber else columnLE a.dcTitle b.dcTitle)
      = (trackTitleCmp param a b).isLE := by
  rw [columnLE_eq (fun _ _ => Int.isLE_compare), columnLE_eq compare_str]
  unfold trackTitleCmp compareLex compareOn
  by_cases hsort : param.trackSort = true
  · simp only [hsort, if_true, true_and]
    by_cases htrack : a.trackNumber = b.trackNumber
    · rw [if_neg (fun h => h htrack), htrack, Std.compare_self, Ordering.then]
    · rw [if_pos htrack]
      cases hcmp : compare a.trackNumber b.trackNumber with
      | lt => rfl
      | eq => exact absurd (Std.compare_eq_iff_eq.1 hcmp) htrack
      | gt => rfl
  · simp only [hsort]
    rfl

theorem containerRank_cmp :
    compare (containerRank a) (containerRank b) =
      if (a.objectType = objectTypeContainer) = (b.objectType = objectTypeContainer) then .eq
      else if a.objectType = objectTypeContainer then .lt else .gt := by
  unfold containerRank
  by_cases ha : a.objectType = objectTypeContainer
  · by_cases hb : b.objectType = objectTypeContainer
    · simp [ha, hb]
    · simp [ha, hb]
      rfl
  · by_cases hb : b.objectType = objectTypeContainer
    · simp [ha, hb]
      rfl
    · simp [ha, hb]

theorem browseLE_eq (x y : Database.JoinedRow) :
    browseLE param x y = (queryCmp param x.f y.f).isLE := by
  unfold browseLE queryCmp compareLex
  simp only [trackTitle_eq]
  by_cases hboth : (param.containers && param.items) = true
  · simp only [hboth, if_true, compareOn, containerRank_cmp]
    by_cases hx : x.f.objectType = objectTypeContainer
    · by_cases hy : y.f.objectType = objectTypeContainer
      · simp [hx, hy]
      · simp [hx, hy]
    · by_cases hy : y.f.objectType = objectTypeContainer
      · simp [hx, hy]
      · simp [hx, hy]
  · simp only [hboth, compareOn]
    rfl

end

/-! ## The rows of the query -/

/-- **A table with the children of a container in order**: rows come by id, and each child can be
    read. -/
structure Listable (db : Database) (contId : Int) : Prop where
  ordered : db.objects.rows.Pairwise fun a b => a.id < b.id
  typed : ∀ r ∈ db.objects.rows, r.parentID = contId →
    ∃ kind : CdsKind, r.objectType = kind.objectType
  readable : ∀ r ∈ db.objects.rows, r.parentID = contId → ∃ obj, (db.join r).toObject = .ok obj
  active : ∀ r ∈ db.objects.rows, r.parentID = contId → isCdsActiveItem r.objectType = true →
    ∃ a, db.activeItems.find? r.id = some a

section

variable {param : BrowseParam} {db : Database} {r : ObjectRow}

/-- A type is a container's, or has the bit of an item. -/
def IsListedType (type : UInt32) : Prop :=
  (type = objectTypeContainer ∧ type &&& objectTypeItem ≠ objectTypeItem ∧ isCdsItem type = false) ∨
    (type ≠ objectTypeContainer ∧ type &&& objectTypeItem = objectTypeItem ∧ isCdsItem type = true)

instance (type : UInt32) : Decidable (IsListedType type) := by
  unfold IsListedType
  infer_instance

theorem isListedType (kind : CdsKind) : IsListedType kind.objectType := by
  cases kind with
  | container _ _ _ =>
    show IsListedType objectTypeContainer
    decide
  | item _ =>
    show IsListedType objectTypeItem
    decide
  | activeItem _ _ _ =>
    show IsListedType (objectTypeItem ||| objectTypeActiveItem)
    decide
  | itemExternalURL _ =>
    show IsListedType (objectTypeItem ||| objectTypeItemExternalURL)
    decide
  | itemInternalURL _ =>
    show IsListedType (objectTypeItem ||| objectTypeItemExternalURL ||| objectTypeItemInternalURL)
    decide

theorem flags_eq {type : UInt32} (h : IsListedType type) (containers items : Bool) :
    ((if containers && !items then decide (type = objectTypeContainer)
        else if items && !containers then decide (type &&& objectTypeItem = objectTypeItem)
        else true) && (containers || items)) =
      (containers && decide (type = objectTypeContainer) || items && isCdsItem type) := by
  rcases h with ⟨hcontainer, hbit, hitem⟩ | ⟨hcontainer, hbit, hitem⟩
  · rw [decide_eq_true hcontainer, decide_eq_false hbit, hitem]
    cases containers <;> cases items <;> rfl
  · rw [decide_eq_false hcontainer, decide_eq_true hbit, hitem]
    cases containers <;> cases items <;> rfl

/-- The query asks for the rows that match the flags. -/
theorem isListed_eq (h : Listable db param.objectID) (hr : r ∈ db.objects.rows) :
    (isCountedChild param.objectID param.containers param.items param.hideFsRoot r &&
      (param.containers || param.items)) = isListed param r := by
  unfold isCountedChild isListed
  by_cases hparent : r.parentID = param.objectID
  · obtain ⟨kind, hkind⟩ := h.typed r hr hparent
    have htype := isListedType kind
    rw [← hkind] at htype
    rw [← flags_eq htype]
    simp only [Bool.and_assoc, Bool.and_comm, Bool.and_left_comm]
  · simp [hparent]

/-- Where one kind only is listed, all rows have one rank. -/
theorem containerRank_eq {a b : ObjectRow} (ha : isListed param a = true)
    (hb : isListed param b = true) (hone : ¬ (param.containers && param.items) = true) :
    containerRank a = containerRank b := by
  have hitem : ∀ r : ObjectRow, isCdsItem r.objectType = true →
      r.objectType ≠ objectTypeContainer := by
    intro r hr heq
    rw [heq] at hr
    exact absurd hr (by decide)
  unfold isListed at ha hb
  simp only [Bool.and_eq_true, Bool.or_eq_true, decide_eq_true_eq] at ha hb hone
  unfold containerRank
  rcases ha.1.2 with ⟨hcontainers, hcontainer⟩ | ⟨hitems, hitem'⟩
  · rcases hb.1.2 with ⟨-, hcontainer'⟩ | ⟨hitems, -⟩
    · rw [hcontainer, hcontainer']
    · exact absurd ⟨hcontainers, hitems⟩ hone
  · rcases hb.1.2 with ⟨hcontainers, -⟩ | ⟨-, hitem''⟩
    · exact absurd ⟨hcontainers, hitems⟩ hone
    · rw [if_neg (hitem a hitem'), if_neg (hitem b hitem'')]

/-- The query compares as the listing does, with ties left as they came. -/
theorem listingCmp_of_stable {a b : ObjectRow} (ha : isListed param a = true)
    (hb : isListed param b = true)
    (h : Lib.OrderBy.Stable (queryCmp param) (fun a b => a.id < b.id) a b) :
    (listingCmp param a b).isLE = true := by
  obtain ⟨hle, htie⟩ := h
  have hquery : queryCmp param a b
      = (compareOn containerRank a b).then (trackTitleCmp param a b) := by
    unfold queryCmp compareLex compareOn
    by_cases hboth : (param.containers && param.items) = true
    · simp only [hboth, if_true]
    · rw [containerRank_eq ha hb hboth, Std.compare_self]
      simp only [hboth]
      rfl
  rw [hquery] at hle htie
  unfold listingCmp compareLex
  rw [Ordering.isLE_then_iff_or] at hle ⊢
  rcases hle with hlt | ⟨heq, hle⟩
  · exact Or.inl hlt
  · refine Or.inr ⟨heq, ?_⟩
    rw [Ordering.isLE_then_iff_or]
    cases htitle : trackTitleCmp param a b with
    | lt => exact Or.inl rfl
    | eq =>
      refine Or.inr ⟨rfl, ?_⟩
      have hid := htie (by rw [heq, htitle]; rfl)
      exact Int.isLE_compare.2 hid.le
    | gt =>
      rw [htitle] at hle
      cases hle

/-- **The listing query** gives the listing, in the same order. -/
theorem sqlQuery_listing (h : Listable db param.objectID) :
    (db.sqlQuery fun f =>
      isCountedChild param.objectID param.containers param.items param.hideFsRoot f &&
        (param.containers || param.items)).insertionSort (fun a b => browseLE param a b)
      = (listing param db.objects.rows).map db.join := by
  have hrows : db.selectObjects (fun f =>
      isCountedChild param.objectID param.containers param.items param.hideFsRoot f &&
        (param.containers || param.items)) = db.objects.rows.filter (isListed param) :=
    List.filter_congr fun r hr => isListed_eq h hr
  unfold Database.sqlQuery
  rw [hrows, ← List.map_insertionSort (fun a b => (queryCmp param a b).isLE = true)
    (fun a b => browseLE param a b = true)]
  · congr 1
    have hids : (db.objects.rows.filter (isListed param)).Pairwise fun a b => a.id < b.id :=
      h.ordered.sublist List.filter_sublist
    apply Lib.OrderBy.eq_sorted (List.perm_insertionSort _ _)
    · refine (Lib.OrderBy.pairwise_insertionSort hids).imp_of_mem ?_
      intro a b ha hb hstable
      have hlisted : ∀ r ∈ (db.objects.rows.filter (isListed param)).insertionSort
          (fun a b => (queryCmp param a b).isLE = true), isListed param r = true := by
        intro r hr
        exact (List.mem_filter.1 ((List.perm_insertionSort _ _).mem_iff.1 hr)).2
      exact listingCmp_of_stable (hlisted a ha) (hlisted b hb) hstable
    · intro a ha b hb heq
      unfold listingCmp compareLex at heq
      rw [Ordering.then_eq_eq, Ordering.then_eq_eq] at heq
      exact db.objects.eq_of_key_eq (List.mem_filter.1 ha).1 (List.mem_filter.1 hb).1
        (Std.compare_eq_iff_eq.1 heq.2.2)
  · intro a _ b _
    rw [browseLE_eq]
    rfl

end

end MediaTomb
