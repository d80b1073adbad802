/-
  Ancestors under a partial `parent` function.

  `parent c = some p` says that `p` is the parent of `c`.  An ANCESTOR is reached by one or more of
  these links (`Relation.TransGen`).  `Climb` is the walk up that stops at `root`, which it leaves
  out, or at something without a parent, which it keeps.  A walk meets every ancestor below the root:
  where ancestors are wanted, the list of a walk can be stored instead.
-/
import Mathlib.Logic.Relation

namespace MediaTomb.Lib

variable {α : Type}

/-- `a` is above `c`. -/
def Ancestor (parent : α → Option α) : α → α → Prop :=
  Relation.TransGen fun p c => parent c = some p

/-- The walk from an element up to the root. -/
inductive Climb (parent : α → Option α) (root : α) : α → List α → Prop where
  | root : Climb parent root root []
  | missing {i : α} : i ≠ root → parent i = none → Climb parent root i [i]
  | up {i p : α} {ids : List α} : i ≠ root → parent i = some p → Climb parent root p ids →
      Climb parent root i (i :: ids)

section

variable {parent : α → Option α} {root a i : α} {ids : List α}

/-- A walk starts with where it starts. -/
theorem Climb.head_mem (h : Climb parent root i ids) (hi : i ≠ root) : i ∈ ids := by
  cases h with
  | root => exact absurd rfl hi
  | missing _ _ => exact List.mem_singleton_self i
  | up _ _ _ => exact List.mem_cons_self

/-- What is above something is its parent, or above its parent. -/
theorem Ancestor.cases (h : Ancestor parent a i) :
    ∃ p, parent i = some p ∧ (a = p ∨ Ancestor parent a p) := by
  cases h with
  | single hp => exact ⟨a, hp, Or.inl rfl⟩
  | tail hap hp => exact ⟨_, hp, Or.inr hap⟩

/-- **A walk meets every ancestor** that is neither the root nor above it. -/
theorem Climb.mem_of_ancestor (h : Climb parent root i ids) (ha : Ancestor parent a i)
    (hne : a ≠ root) (habove : ¬ Ancestor parent a root) : a ∈ ids := by
  induction h with
  | root => exact absurd ha habove
  | missing _ hnone =>
    obtain ⟨p, hp, -⟩ := ha.cases
    rw [hnone] at hp
    cases hp
  | up _ hpar hclimb ih =>
    obtain ⟨p, hp, hap⟩ := ha.cases
    rw [hpar] at hp
    cases hp
    rcases hap with rfl | hap
    · exact List.mem_cons_of_mem _ (hclimb.head_mem hne)
    · exact List.mem_cons_of_mem _ (ih hap)

/-! ## All ancestors -/

/-- **All that is above an element**, the nearest first; there is no such list where the links go
    round in a circle. -/
inductive Above (parent : α → Option α) : α → List α → Prop where
  | top {i : α} : parent i = none → Above parent i []
  | up {i p : α} {ids : List α} : parent i = some p → Above parent p ids → Above parent i (p :: ids)

theorem Above.unique {ids' : List α} (h : Above parent i ids) (h' : Above parent i ids') :
    ids = ids' := by
  induction h generalizing ids' with
  | top hnone =>
    cases h' with
    | top _ => rfl
    | up hp _ =>
      rw [hnone] at hp
      cases hp
  | up hp _ ih =>
    cases h' with
    | top hnone =>
      rw [hnone] at hp
      cases hp
    | up hp' hrest =>
      rw [hp] at hp'
      cases hp'
      rw [ih hrest]

theorem Above.mem_iff (h : Above parent i ids) : a ∈ ids ↔ Ancestor parent a i := by
  constructor
  · intro hmem
    induction h with
    | top _ => cases hmem
    | up hp _ ih =>
      rcases List.mem_cons.mp hmem with rfl | hmem
      · exact Relation.TransGen.single hp
      · exact Relation.TransGen.tail (ih hmem) hp
  · intro ha
    induction h with
    | top hnone =>
      obtain ⟨p, hp, -⟩ := ha.cases
      rw [hnone] at hp
      cases hp
    | up hp _ ih =>
      obtain ⟨q, hq, haq⟩ := ha.cases
      rw [hp] at hq
      cases hq
      rcases haq with rfl | haq
      · exact List.mem_cons_self
      · exact List.mem_cons_of_mem _ (ih haq)

/-- What is above an element has fewer above it. -/
theorem Above.tail (h : Above parent i ids) (ha : a ∈ ids) :
    ∃ ids', Above parent a ids' ∧ ids'.length < ids.length := by
  induction h with
  | top _ => cases ha
  | up _ hrest ih =>
    rcases List.mem_cons.mp ha with rfl | ha
    · exact ⟨_, hrest, Nat.lt_succ_self _⟩
    · obtain ⟨ids', habove, hlt⟩ := ih ha
      exact ⟨ids', habove, Nat.lt_succ_of_lt hlt⟩

/-- Nothing is met twice. -/
theorem Above.nodup (h : Above parent i ids) : (i :: ids).Nodup := by
  induction h with
  | top _ => exact List.nodup_cons.mpr ⟨List.not_mem_nil, List.nodup_nil⟩
  | up hp hrest ih =>
    rw [List.nodup_cons]
    refine ⟨fun hmem => ?_, ih⟩
    obtain ⟨ids', habove, hlt⟩ := (Above.up hp hrest).tail hmem
    rw [(Above.up hp hrest).unique habove] at hlt
    exact Nat.lt_irrefl _ hlt

/-- Only the links count. -/
theorem Above.congr {parent' : α → Option α} (hsame : ∀ j, parent' j = parent j)
    (h : Above parent i ids) : Above parent' i ids := by
  induction h with
  | top hnone => exact Above.top ((hsame _).trans hnone)
  | up hp _ ih => exact Above.up ((hsame _).trans hp) ih

end

end MediaTomb.Lib
