/-
  A loop that RE-USES one record.

  Each element `x` owns a value, but the loop does not start the record afresh: it writes what `x`
  has OVER what the elements before left there (`overlay`).  What the loop then gives for `x` is
  made from the record, not from `x` alone.

  `emitted` is what such a loop gives, `carried` what it leaves in the record.  The one question is
  when nothing of an earlier element shows: `emitted_eq_iff`.
-/
import Mathlib

namespace MediaTomb.Lib

namespace Reuse

variable {γ ρ β : Type} (overlay : ρ → γ → ρ) (items : ρ → γ → List β)

/-- The record after the elements. -/
def carried (r : ρ) (xs : List γ) : ρ := xs.foldl overlay r

/-- What the loop gives, from the record `r` on. -/
def emitted : ρ → List γ → List β
  | _, [] => []
  | r, x :: xs => items (overlay r x) x ++ emitted (overlay r x) xs

theorem carried_append (r : ρ) (xs ys : List γ) :
    carried overlay r (xs ++ ys) = carried overlay (carried overlay r xs) ys :=
  List.foldl_append

theorem emitted_append (r : ρ) (xs ys : List γ) :
    emitted overlay items r (xs ++ ys) =
      emitted overlay items r xs ++ emitted overlay items (carried overlay r xs) ys := by
  induction xs generalizing r with
  | nil => rfl
  | cons x xs ih =>
    rw [List.cons_append, emitted, emitted, ih, List.append_assoc]
    rfl

/-- **Nothing leaks.**  The loop gives for each element what a fresh record would give, exactly if
    that is so at each element, with what the ones before it have left. -/
theorem emitted_eq_iff {own : γ → ρ} (r : ρ) (xs : List γ)
    (hlength : ∀ r r' x, (items r x).length = (items r' x).length) :
    emitted overlay items r xs = xs.flatMap (fun x => items (own x) x) ↔
      ∀ before x after, xs = before ++ x :: after →
        items (carried overlay r (before ++ [x])) x = items (own x) x := by
  induction xs generalizing r with
  | nil =>
    constructor
    · intro _ before x after h
      cases before <;> cases h
    · intro _
      rfl
  | cons y ys ih =>
    rw [emitted, List.flatMap_cons]
    constructor
    · intro h before x after hxs
      obtain ⟨hy, hys⟩ := List.append_inj h (hlength _ _ _)
      rcases before with _ | ⟨z, before⟩
      · obtain ⟨rfl, -⟩ := List.cons.inj hxs
        exact hy
      · obtain ⟨rfl, hxs'⟩ := List.cons.inj hxs
        exact (ih _).mp hys before x after hxs'
    · intro h
      have hy : items (overlay r y) y = items (own y) y := h [] y ys rfl
      have hys : emitted overlay items (overlay r y) ys = ys.flatMap fun x => items (own x) x := by
        apply (ih _).mpr
        intro before x after hxs
        exact h (y :: before) x after (by rw [hxs]; rfl)
      rw [hy, hys]

/-- What is made of the items alike is not told apart by what was left. -/
theorem map_emitted_of_const {δ : Type} {f : β → δ} {own : γ → ρ} (r : ρ) (xs : List γ)
    (hconst : ∀ r r' x, (items r x).map f = (items r' x).map f) :
    (emitted overlay items r xs).map f = (xs.flatMap fun x => items (own x) x).map f := by
  induction xs generalizing r with
  | nil => rfl
  | cons x xs ih => rw [emitted, List.flatMap_cons, List.map_append, List.map_append, ih,
      hconst (overlay r x) (own x) x]

end Reuse

end MediaTomb.Lib
