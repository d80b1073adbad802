/-
  `DHashBase` (`hash/direct_hash_base.h`): the search that all direct hashes share.

  The slots are a C array of a key and something else; two values of the key type are kept for
  "never used" and "deleted".  The second hash is computed when the first slot was no good, and is
  the distance from there on.

  `search_eq` says that the loop is `OpenAddressing.search` for the probes
  `(h + n * h2) % capacity`, so that nothing about the loop has to be proved again.
-/
import MediaTomb.Lib.OpenAddressing

namespace MediaTomb

open Lib.OpenAddressing

structure Slot (V : Type) where
  key : Int
  value : V

/-- The two special keys differ: the constructors see to that. -/
structure DHashBase (V : Type) where
  capacity : Nat
  capacity_pos : 0 < capacity
  emptyKey : Int
  deletedKey : Int
  keys_ne : emptyKey ≠ deletedKey
  count : Nat := 0
  data : Nat → Slot V

/-- `HASH_PRIME` -/
def hashPrime : Nat := 29

/-- `HASH_MAX_ITERATIONS` -/
def hashMaxIterations : Nat := 100

/-- `baseTypeHashCode`, in `unsigned int`. -/
def baseTypeHashCode (capacity key : Nat) : Nat :=
  ((key * 0xd2d84a61 % 2 ^ 32) ^^^ 0x7832c9f4) % capacity

/-- `hashCode` of the base types: the key becomes an `unsigned int`. -/
def hashCode (capacity : Nat) (key : Int) : Nat :=
  baseTypeHashCode capacity (key % 2 ^ 32).toNat

def secondaryHashCode (primary : Nat) : Nat :=
  let h2 := hashPrime - primary % hashPrime
  if h2 = 0 then hashPrime else h2

namespace DHashBase

variable {V : Type}

def isEmptySlot (t : DHashBase V) (slot : Nat) : Bool := (t.data slot).key = t.emptyKey

def isDeletedSlot (t : DHashBase V) (slot : Nat) : Bool := (t.data slot).key = t.deletedKey

/-- `match(key, slot)` -/
def isMatch (t : DHashBase V) (key : Int) (slot : Nat) : Bool := key = (t.data slot).key

/-- The loop of `search`; `h2` is 0 until it is needed. -/
def searchLoop (t : DHashBase V) (key : Int) : Nat → Nat → Nat → Option Nat → Outcome
  | 0, _, _, _ => .exceeded
  | fuel + 1, h, h2, deletedSlot =>
    let next := if h2 = 0 then secondaryHashCode h else h2
    if t.isEmptySlot h then .missing (deletedSlot.getD h)
    else if t.isDeletedSlot h then
      t.searchLoop key fuel ((h + next) % t.capacity) next (some h)
    else if t.isMatch key h then .found h
    else t.searchLoop key fuel ((h + next) % t.capacity) next deletedSlot

/-- `search`; `exceeded` stands for the exception. -/
def search (t : DHashBase V) (key : Int) : Outcome :=
  t.searchLoop key hashMaxIterations (hashCode t.capacity key) 0 none

/-! ## Changing a slot -/

/-- `slot->key = key` and what goes with it. -/
def putSlot (t : DHashBase V) (slot : Nat) (key : Int) (value : V) : DHashBase V :=
  { t with data := Function.update t.data slot ⟨key, value⟩ }

/-- `slot->key = deletedKey` -/
def deleteSlot (t : DHashBase V) (slot : Nat) : DHashBase V :=
  t.putSlot slot t.deletedKey (t.data slot).value

/-- What is beside the key changes. -/
def setValue (t : DHashBase V) (slot : Nat) (value : V) : DHashBase V :=
  t.putSlot slot (t.data slot).key value

def setCount (t : DHashBase V) (count : Nat) : DHashBase V := { t with count := count }

/-- A key that is not one of the two special ones. -/
def Legal (t : DHashBase V) (key : Int) : Prop := key ≠ t.emptyKey ∧ key ≠ t.deletedKey

/-! ## The slots as cells -/

def cell (t : DHashBase V) (slot : Nat) : Cell Int :=
  if (t.data slot).key = t.emptyKey then .empty
  else if (t.data slot).key = t.deletedKey then .deleted
  else .used (t.data slot).key

/-- The slots where a key is looked for. -/
def probe (capacity : Nat) (key : Int) (n : Nat) : Nat :=
  (hashCode capacity key + n * secondaryHashCode (hashCode capacity key)) % capacity

section

variable {t : DHashBase V} {key : Int} {p : Nat} {v : V}

theorem probe_lt (t : DHashBase V) (key : Int) (n : Nat) : probe t.capacity key n < t.capacity :=
  Nat.mod_lt _ t.capacity_pos

theorem probe_zero : probe t.capacity key 0 = hashCode t.capacity key := by
  unfold probe hashCode baseTypeHashCode
  rw [Nat.zero_mul, Nat.add_zero, Nat.mod_mod]

theorem probe_succ (n : Nat) : (probe t.capacity key n +
      secondaryHashCode (hashCode t.capacity key)) % t.capacity =
    probe t.capacity key (n + 1) := by
  unfold probe
  rw [Nat.mod_add_mod, Nat.add_assoc, Nat.succ_mul]

theorem secondaryHashCode_pos (primary : Nat) : secondaryHashCode primary ≠ 0 := by
  unfold secondaryHashCode
  simp only
  split_ifs with h
  · decide
  · exact h

theorem used_iff : t.cell p = .used key ↔ (t.data p).key = key ∧ t.Legal key := by
  unfold cell Legal
  split_ifs with hempty hdeleted
  · constructor
    · intro heq
      cases heq
    · rintro ⟨rfl, hne, -⟩
      exact absurd hempty hne
  · constructor
    · intro heq
      cases heq
    · rintro ⟨rfl, -, hne⟩
      exact absurd hdeleted hne
  · constructor
    · intro heq
      cases heq
      exact ⟨rfl, hempty, hdeleted⟩
    · rintro ⟨rfl, -⟩
      rfl

/-- **The loop is the search of the library.** -/
theorem searchLoop_eq (t : DHashBase V) (key : Int) (fuel n h2 : Nat) (deletedSlot : Option Nat)
    (hh2 : (n = 0 ∧ h2 = 0) ∨ h2 = secondaryHashCode (hashCode t.capacity key)) :
    t.searchLoop key fuel (probe t.capacity key n) h2 deletedSlot =
      Lib.OpenAddressing.search (probe t.capacity) t.cell key fuel n deletedSlot := by
  induction fuel generalizing n h2 deletedSlot with
  | zero => rfl
  | succ fuel ih =>
    have hnext : (if h2 = 0 then secondaryHashCode (probe t.capacity key n) else h2) =
        secondaryHashCode (hashCode t.capacity key) := by
      rcases hh2 with ⟨rfl, rfl⟩ | rfl
      · rw [if_pos rfl, probe_zero]
      · rw [if_neg (secondaryHashCode_pos _)]
    have hlater : ∀ deletedSlot : Option Nat, t.searchLoop key fuel
        ((probe t.capacity key n + secondaryHashCode (hashCode t.capacity key)) % t.capacity)
          (secondaryHashCode (hashCode t.capacity key)) deletedSlot =
        Lib.OpenAddressing.search (probe t.capacity) t.cell key fuel (n + 1) deletedSlot := by
      intro deletedSlot
      rw [probe_succ]
      exact ih (n + 1) _ deletedSlot (Or.inr rfl)
    unfold searchLoop Lib.OpenAddressing.search
    simp only [hnext]
    rw [hlater, hlater]
    unfold isEmptySlot isDeletedSlot isMatch cell
    by_cases hempty : (t.data (probe t.capacity key n)).key = t.emptyKey
    · simp only [if_pos hempty, decide_eq_true hempty, if_true]
    · by_cases hdeleted : (t.data (probe t.capacity key n)).key = t.deletedKey
      · simp only [if_neg hempty, if_pos hdeleted, decide_eq_false hempty, decide_eq_true hdeleted,
          if_true, Bool.false_eq_true, if_false]
      · simp only [if_neg hempty, if_neg hdeleted, decide_eq_false hempty,
          decide_eq_false hdeleted, Bool.false_eq_true, if_false, decide_eq_true_eq]
        by_cases hkey : key = (t.data (probe t.capacity key n)).key
        · rw [if_pos hkey, if_pos hkey.symm]
        · rw [if_neg hkey, if_neg (Ne.symm hkey)]

theorem search_eq (t : DHashBase V) (key : Int) : t.search key =
    Lib.OpenAddressing.search (probe t.capacity) t.cell key hashMaxIterations 0 none := by
  have h := t.searchLoop_eq key hashMaxIterations 0 0 none (Or.inl ⟨rfl, rfl⟩)
  rw [probe_zero] at h
  exact h

/-! ## The cells after a change -/

theorem data_putSlot (q : Nat) : (t.putSlot p key v).data q = if q = p then ⟨key, v⟩ else t.data q :=
  Function.update_apply _ _ _ _

theorem cell_putSlot (hlegal : t.Legal key) (p : Nat) (v : V) :
    (t.putSlot p key v).cell = Function.update t.cell p (.used key) := by
  funext q
  unfold cell
  rw [data_putSlot, Function.update_apply]
  by_cases heq : q = p
  · rw [if_pos heq, if_pos heq]
    show (if key = t.emptyKey then Cell.empty
      else if key = t.deletedKey then Cell.deleted else Cell.used key) = _
    rw [if_neg hlegal.1, if_neg hlegal.2]
  · rw [if_neg heq, if_neg heq]
    rfl

theorem cell_deleteSlot (t : DHashBase V) (p : Nat) :
    (t.deleteSlot p).cell = Function.update t.cell p .deleted := by
  funext q
  unfold cell deleteSlot
  rw [data_putSlot, Function.update_apply]
  by_cases heq : q = p
  · rw [if_pos heq, if_pos heq]
    show (if t.deletedKey = t.emptyKey then Cell.empty
      else if t.deletedKey = t.deletedKey then Cell.deleted else Cell.used t.deletedKey) = _
    rw [if_neg (Ne.symm t.keys_ne), if_pos rfl]
  · rw [if_neg heq, if_neg heq]
    rfl

/-- What is beside the key has nothing to do with it. -/
theorem cell_setValue (t : DHashBase V) (p : Nat) (v : V) : (t.setValue p v).cell = t.cell := by
  funext q
  unfold cell setValue
  rw [data_putSlot]
  by_cases heq : q = p
  · rw [if_pos heq, heq]
    rfl
  · rw [if_neg heq]
    rfl

theorem cell_setCount (t : DHashBase V) (count : Nat) : (t.setCount count).cell = t.cell := rfl

end

end DHashBase

end MediaTomb
