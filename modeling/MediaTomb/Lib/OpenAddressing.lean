/-
  Open addressing: a table without chains.

  A key is looked for at `probe k 0`, `probe k 1`, ..., and at most `limit` slots are looked at.  A
  slot that has never been used ends the search; a DELETED one does not, but the last of them is
  where the key goes when it is not found.

  One invariant carries everything, `Placed`: each key is in one slot, and the search for it meets
  no empty slot on its way there.  Slots do not become empty again, so putting and deleting keep it.

    * `Placed.search_eq`   a key that is in the table is found;
    * `Placed.missing`     a key that is not found is not in the table;
    * `search_exceeded_iff` a search ends within the limit unless all slots it may look at are taken.
-/
import Mathlib

namespace MediaTomb.Lib.OpenAddressing

inductive Cell (K : Type*) where
  | empty
  | deleted
  | used (key : K)
  deriving DecidableEq

inductive Outcome where
  | found (slot : Nat)
  /-- not there, and this is where it would go -/
  | missing (slot : Nat)
  | exceeded
  deriving DecidableEq

section

variable {K : Type*} {size limit : Nat} {probe : K → Nat → Nat} {t : Nat → Cell K} {k k' : K}
  {p : Nat}

/-! ## The invariant -/

/-- **Each key is in one slot, and no empty slot is on the way to it.** -/
structure Placed (size limit : Nat) (probe : K → Nat → Nat) (t : Nat → Cell K) : Prop where
  path : ∀ p < size, ∀ k, t p = .used k →
    ∃ n < limit, probe k n = p ∧ ∀ m < n, t (probe k m) ≠ .empty
  once : ∀ p < size, ∀ q < size, ∀ k, t p = .used k → t q = .used k → p = q

/-- The key is somewhere in the table. -/
def Has (size : Nat) (t : Nat → Cell K) (k : K) : Prop := ∃ p < size, t p = .used k

theorem placed_empty (h : ∀ p < size, t p = .empty) : Placed size limit probe t where
  path := fun p hp k hused => by
    rw [h p hp] at hused
    cases hused
  once := fun p hp q _ k hused _ => by
    rw [h p hp] at hused
    cases hused

theorem not_has_empty (h : ∀ p < size, t p = .empty) (k : K) : ¬ Has size t k := by
  rintro ⟨p, hp, hused⟩
  rw [h p hp] at hused
  cases hused

/-! ## Putting and deleting -/

theorem Placed.delete (h : Placed size limit probe t) (p : Nat) :
    Placed size limit probe (Function.update t p .deleted) := by
  constructor
  · intro q hq k hused
    rw [Function.update_apply] at hused
    split_ifs at hused
    obtain ⟨n, hn, hp, hway⟩ := h.path q hq k hused
    refine ⟨n, hn, hp, fun m hm => ?_⟩
    rw [Function.update_apply]
    split_ifs
    · exact fun heq => (nomatch heq)
    · exact hway m hm
  · intro q hq r hr k hused hused'
    rw [Function.update_apply] at hused hused'
    split_ifs at hused hused'
    exact h.once q hq r hr k hused hused'

theorem has_put (hp : p < size) (hfree : t p = .empty ∨ t p = .deleted) :
    Has size (Function.update t p (.used k)) k' ↔ k' = k ∨ Has size t k' := by
  constructor
  · rintro ⟨q, hq, hused⟩
    rw [Function.update_apply] at hused
    split_ifs at hused
    · exact Or.inl (Cell.used.inj hused).symm
    · exact Or.inr ⟨q, hq, hused⟩
  · rintro (rfl | ⟨q, hq, hused⟩)
    · exact ⟨p, hp, Function.update_self _ _ _⟩
    · refine ⟨q, hq, ?_⟩
      have hne : q ≠ p := by
        rintro rfl
        rw [hused] at hfree
        rcases hfree with heq | heq
        · cases heq
        · cases heq
      rw [Function.update_of_ne hne]
      exact hused

theorem Placed.has_delete (h : Placed size limit probe t) (hp : p < size) (hused : t p = .used k) :
    Has size (Function.update t p .deleted) k' ↔ k' ≠ k ∧ Has size t k' := by
  constructor
  · rintro ⟨q, hq, hq'⟩
    rw [Function.update_apply] at hq'
    split_ifs at hq' with heq
    refine ⟨?_, q, hq, hq'⟩
    rintro rfl
    exact heq (h.once q hq p hp k' hq' hused)
  · rintro ⟨hne, q, hq, hq'⟩
    refine ⟨q, hq, ?_⟩
    have hqp : q ≠ p := by
      rintro rfl
      rw [hused] at hq'
      exact hne (Cell.used.inj hq').symm
    rw [Function.update_of_ne hqp]
    exact hq'

end

/-! ## Searching -/

section

variable {K : Type*} [DecidableEq K] {size limit : Nat} {probe : K → Nat → Nat}
  {t : Nat → Cell K} {k : K} {fuel i p : Nat} {deleted : Option Nat}

/-- Looks at `fuel` slots from the probe `i` on. -/
def search (probe : K → Nat → Nat) (t : Nat → Cell K) (k : K) : Nat → Nat → Option Nat → Outcome
  | 0, _, _ => .exceeded
  | fuel + 1, i, deleted =>
    match t (probe k i) with
    | .empty => .missing (deleted.getD (probe k i))
    | .deleted => search probe t k fuel (i + 1) (some (probe k i))
    | .used key =>
      if key = k then .found (probe k i) else search probe t k fuel (i + 1) deleted

/-- The search may end at once. -/
theorem search_empty (h : t (probe k i) = .empty) :
    search probe t k (fuel + 1) i none = .missing (probe k i) := by
  unfold search
  rw [h]
  rfl

theorem search_used (h : t (probe k i) = .used k) :
    search probe t k (fuel + 1) i deleted = .found (probe k i) := by
  unfold search
  rw [h]
  exact if_pos rfl

/-- The slot does not end the search. -/
def Passed (t : Nat → Cell K) (k : K) (p : Nat) : Prop := t p ≠ .empty ∧ t p ≠ .used k

theorem search_found (h : search probe t k fuel i deleted = .found p) :
    ∃ n, i ≤ n ∧ n < i + fuel ∧ probe k n = p ∧ t p = .used k := by
  induction fuel generalizing i deleted with
  | zero => cases h
  | succ fuel ih =>
    have hlater : ∀ {deleted}, search probe t k fuel (i + 1) deleted = .found p →
        ∃ n, i ≤ n ∧ n < i + (fuel + 1) ∧ probe k n = p ∧ t p = .used k := by
      intro deleted hsearch
      obtain ⟨n, hle, hlt, hp, hused⟩ := ih hsearch
      exact ⟨n, by omega, by omega, hp, hused⟩
    unfold search at h
    split at h
    · cases h
    · exact hlater h
    · next key hcell =>
      split_ifs at h with hkey
      · cases h
        exact ⟨i, Nat.le_refl _, by omega, rfl, hkey ▸ hcell⟩
      · exact hlater h

/-- An empty slot ended it; the place is that slot, or a deleted one on the way. -/
theorem search_missing (h : search probe t k fuel i deleted = .missing p) :
    ∃ n, i ≤ n ∧ n < i + fuel ∧ t (probe k n) = .empty ∧
      (∀ m, i ≤ m → m < n → Passed t k (probe k m)) ∧
      (deleted = some p ∨ ∃ m, i ≤ m ∧ m ≤ n ∧ probe k m = p ∧ (t p = .empty ∨ t p = .deleted)) := by
  induction fuel generalizing i deleted with
  | zero => cases h
  | succ fuel ih =>
    unfold search at h
    split at h
    · next hcell =>
      cases h
      refine ⟨i, Nat.le_refl _, by omega, hcell, fun m hle hlt => by omega, ?_⟩
      cases deleted with
      | none => exact Or.inr ⟨i, Nat.le_refl _, Nat.le_refl _, rfl, Or.inl hcell⟩
      | some q => exact Or.inl rfl
    · next hcell =>
      obtain ⟨n, hle, hlt, hempty, hpassed, hplace⟩ := ih h
      refine ⟨n, by omega, by omega, hempty, fun m him hmn => ?_, Or.inr ?_⟩
      · rcases Nat.eq_or_lt_of_le him with rfl | hlater
        · unfold Passed
          rw [hcell]
          exact ⟨fun heq => (nomatch heq), fun heq => (nomatch heq)⟩
        · exact hpassed m hlater hmn
      · rcases hplace with heq | ⟨m, hm, hmn, hp, hfree⟩
        · cases heq
          exact ⟨i, Nat.le_refl _, by omega, rfl, Or.inr hcell⟩
        · exact ⟨m, by omega, hmn, hp, hfree⟩
    · next key hcell =>
      split_ifs at h with hkey
      obtain ⟨n, hle, hlt, hempty, hpassed, hplace⟩ := ih h
      refine ⟨n, by omega, by omega, hempty, fun m him hmn => ?_, ?_⟩
      · rcases Nat.eq_or_lt_of_le him with rfl | hlater
        · unfold Passed
          rw [hcell]
          exact ⟨fun heq => (nomatch heq), fun heq => hkey (Cell.used.inj heq)⟩
        · exact hpassed m hlater hmn
      · rcases hplace with heq | ⟨m, hm, hmn, hp, hfree⟩
        · exact Or.inl heq
        · exact Or.inr ⟨m, by omega, hmn, hp, hfree⟩

/-- **A search is too long just when every slot that it may look at is passed.** -/
theorem search_exceeded_iff : search probe t k fuel i deleted = .exceeded ↔
    ∀ m, i ≤ m → m < i + fuel → Passed t k (probe k m) := by
  constructor
  · intro h
    induction fuel generalizing i deleted with
    | zero =>
      intro m him hlt
      omega
    | succ fuel ih =>
      have hlater : ∀ {deleted}, search probe t k fuel (i + 1) deleted = .exceeded →
          Passed t k (probe k i) → ∀ m, i ≤ m → m < i + (fuel + 1) → Passed t k (probe k m) := by
        intro deleted hsearch hfirst m him hlt
        rcases Nat.eq_or_lt_of_le him with rfl | hm
        · exact hfirst
        · exact ih hsearch m hm (by omega)
      unfold search at h
      split at h
      · cases h
      · next hcell =>
        apply hlater h
        unfold Passed
        rw [hcell]
        exact ⟨fun heq => (nomatch heq), fun heq => (nomatch heq)⟩
      · next key hcell =>
        split_ifs at h with hkey
        apply hlater h
        unfold Passed
        rw [hcell]
        exact ⟨fun heq => (nomatch heq), fun heq => hkey (Cell.used.inj heq)⟩
  · intro hpassed
    cases h : search probe t k fuel i deleted with
    | exceeded => rfl
    | found p =>
      obtain ⟨n, hle, hlt, hp, hused⟩ := search_found h
      rw [← hp] at hused
      exact absurd hused (hpassed n hle hlt).2
    | missing p =>
      obtain ⟨n, hle, hlt, hempty, -⟩ := search_missing h
      exact absurd hempty (hpassed n hle hlt).1

/-- **What is in the table is found.** -/
theorem Placed.search_eq (h : Placed size limit probe t) (hprobe : ∀ k n, probe k n < size)
    (hp : p < size) (hused : t p = .used k) :
    search probe t k limit 0 none = .found p := by
  obtain ⟨n, hn, rfl, hway⟩ := h.path p hp k hused
  cases hsearch : search probe t k limit 0 none with
  | found q =>
    obtain ⟨m, -, -, rfl, hother⟩ := search_found hsearch
    rw [h.once _ (hprobe k m) _ hp k hother hused]
  | missing q =>
    obtain ⟨m, -, -, hempty, hpassed, -⟩ := search_missing hsearch
    rcases Nat.lt_trichotomy m n with hlt | rfl | hgt
    · exact absurd hempty (hway m hlt)
    · rw [hused] at hempty
      cases hempty
    · exact absurd hused (hpassed n (Nat.zero_le _) hgt).2
  | exceeded =>
    exact absurd hused (search_exceeded_iff.mp hsearch n (Nat.zero_le _) (by omega)).2

/-- **What is not found is not in the table.** -/
theorem Placed.missing (h : Placed size limit probe t) (hprobe : ∀ k n, probe k n < size)
    (hsearch : search probe t k limit 0 none = .missing p) : ¬ Has size t k := by
  rintro ⟨q, hq, hused⟩
  rw [h.search_eq hprobe hq hused] at hsearch
  cases hsearch

theorem Placed.has_iff (h : Placed size limit probe t) (hprobe : ∀ k n, probe k n < size) :
    Has size t k ↔ ∃ p, search probe t k limit 0 none = .found p := by
  constructor
  · rintro ⟨p, hp, hused⟩
    exact ⟨p, h.search_eq hprobe hp hused⟩
  · rintro ⟨p, hsearch⟩
    obtain ⟨n, -, -, rfl, hused⟩ := search_found hsearch
    exact ⟨_, hprobe k n, hused⟩

/-- The place for a key is free, and in the table. -/
theorem missing_free (hprobe : ∀ k n, probe k n < size)
    (hsearch : search probe t k limit 0 none = .missing p) :
    p < size ∧ (t p = .empty ∨ t p = .deleted) := by
  obtain ⟨n, -, -, -, -, hnone | ⟨m, -, -, rfl, hfree⟩⟩ := search_missing hsearch
  · cases hnone
  · exact ⟨hprobe k m, hfree⟩

/-- **The key is put where the search says.** -/
theorem Placed.put (h : Placed size limit probe t) (hprobe : ∀ k n, probe k n < size)
    (hsearch : search probe t k limit 0 none = .missing p) :
    Placed size limit probe (Function.update t p (.used k)) := by
  have hnot := h.missing hprobe hsearch
  have hkept : ∀ q, t q ≠ .empty → Function.update t p (.used k) q ≠ .empty := by
    intro q hq
    rw [Function.update_apply]
    split_ifs
    · exact fun heq => (nomatch heq)
    · exact hq
  constructor
  · intro q hq k' hused
    rw [Function.update_apply] at hused
    split_ifs at hused with heq
    · cases hused
      obtain ⟨n, -, hn, -, hpassed, hnone | ⟨m, -, hmn, hp, -⟩⟩ := search_missing hsearch
      · cases hnone
      · refine ⟨m, by omega, hp.trans heq.symm, fun j hj => hkept _ ?_⟩
        exact (hpassed j (Nat.zero_le _) (by omega)).1
    · obtain ⟨n, hn, hp, hway⟩ := h.path q hq k' hused
      exact ⟨n, hn, hp, fun m hm => hkept _ (hway m hm)⟩
  · intro q hq r hr k' hused hused'
    rw [Function.update_apply] at hused hused'
    split_ifs at hused hused' with hqp hrp hrp
    · exact hqp.trans hrp.symm
    · cases hused
      exact absurd ⟨r, hr, hused'⟩ hnot
    · cases hused'
      exact absurd ⟨q, hq, hused⟩ hnot
    · exact h.once q hq r hr k' hused hused'

end

end MediaTomb.Lib.OpenAddressing
