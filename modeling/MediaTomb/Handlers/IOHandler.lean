/-
  What the io handlers share: the results of `read` and `write` are of type `int`, the lengths they
  are computed from of type `size_t` (`io_handler.h`, `common.h`).
-/
import MediaTomb.Tools

namespace MediaTomb

/-- What a call returns that has moved nothing and wants its caller to look after the connection. -/
def checkSocket : Int := -666

/-- The value of an `int` after an assignment. -/
def toCInt (x : Int) : Int := x.bmod 0x100000000

/-- The value of a `size_t` after an assignment. -/
def toSize (x : Int) : Nat := (x % 0x10000000000000000).toNat

/-! ## Numbers that fit -/

theorem toCInt_of_fits {x : Int} (hlow : -2 ^ 31 ≤ x) (hhigh : x < 2 ^ 31) : toCInt x = x := by
  unfold toCInt
  rw [Int.bmod_def]
  split <;> omega

theorem toCInt_of_lt {n : Nat} (h : n < 2 ^ 31) : toCInt n = n :=
  toCInt_of_fits (by omega) (by omega)

/-- A counter that has wrapped is below the number it counts. -/
theorem toCInt_lt {n : Nat} (h : 2 ^ 31 ≤ n) : toCInt n < n := by
  unfold toCInt
  rw [Int.bmod_def]
  split <;> omega

theorem toCInt_add (a : Int) (b : Nat) : toCInt (toCInt a + b) = toCInt (a + b) := by
  unfold toCInt
  rw [Int.bmod_add_bmod]

theorem toSize_of_lt {n : Nat} (h : n < 2 ^ 64) : toSize n = n := by
  unfold toSize
  omega

end MediaTomb
