/-
  `DBRHash` (`hash/dbr_hash.h`): a set of keys as a hash table and a dense array at once.

  The array is what `getAll` hands out.  A slot has the key's place in the array, and so a key is
  removed by moving the LAST key of the array into its place and telling that key's slot.

  `Linked` is the two-way invariant: slot and array entry point at each other.  From it and from
  `Placed` of the table everything else follows: the array has each key once, it has the keys that
  the table has, and these are the keys that were put and not removed since.
-/
import MediaTomb.Hash.DirectHash

namespace MediaTomb

open Lib.OpenAddressing DHashBase

/-- The value in a slot is `array_slot`. -/
structure DBRHash extends DHashBase Nat where
  dataArray : Nat → Int
  realCapacity : Nat

namespace DBRHash

/-- The ways in which a call does not return. -/
inductive Fault where
  /-- `search` has exceeded its iterations -/
  | limit
  /-- the array is full; without the debug test the key would be written behind it -/
  | realCapacity
  /-- "DBR-Hash-Error: key in data_array not found in hashtable" -/
  | hashError
  deriving DecidableEq

/-- `clear`; an empty key of 0 allows for `memset`. -/
def clear (s : DBRHash) : DBRHash :=
  { s with
    count := 0
    data := fun p =>
      if p < s.capacity then ⟨s.emptyKey, if s.emptyKey = 0 then 0 else (s.data p).value⟩
      else s.data p }

/-- The constructor: what `MALLOC` returns is anything. -/
def create (hashCapacity : Nat) (hpos : 0 < hashCapacity) (realCapacity : Nat)
    (emptyKey deletedKey : Int) (hne : emptyKey ≠ deletedKey) (memory : Nat → Slot Nat)
    (array : Nat → Int) : DBRHash :=
  clear ⟨⟨hashCapacity, hpos, emptyKey, deletedKey, hne, 0, memory⟩, array, realCapacity⟩

def put (s : DBRHash) (key : Int) : Except Fault DBRHash :=
  match s.search key with
  | .exceeded => .error .limit
  | .found _ => .ok s
  | .missing slot =>
    if s.realCapacity ≤ s.count then .error .realCapacity
    else
      .ok { s with
        toDHashBase := (s.putSlot slot key s.count).setCount (s.count + 1)
        dataArray := Function.update s.dataArray s.count key }

def remove (s : DBRHash) (key : Int) : Except Fault (Bool × DBRHash) :=
  match s.search key with
  | .exceeded => .error .limit
  | .missing _ => .ok (false, s)
  | .found slot =>
    let arraySlot := (s.data slot).value
    let t := (s.deleteSlot slot).setCount (s.count - 1)
    if s.count = 1 ∨ s.count = arraySlot + 1 then .ok (true, { s with toDHashBase := t })
    else
      let last := s.dataArray (s.count - 1)
      let dataArray := Function.update s.dataArray arraySlot last
      match t.search last with
      | .exceeded => .error .limit
      | .missing _ => .error .hashError
      | .found slot =>
        .ok (true, { s with toDHashBase := t.setValue slot arraySlot, dataArray := dataArray })

def «exists» (s : DBRHash) (key : Int) : Except Fault Bool :=
  match s.search key with
  | .exceeded => .error .limit
  | .missing _ => .ok false
  | .found _ => .ok true

/-- `getAll`: the array up to `count`. -/
def getAll (s : DBRHash) : List Int := (List.range s.count).map s.dataArray

/-! ## Runs -/

inductive Call where
  | put (key : Int)
  | remove (key : Int)
  | «exists» (key : Int)
  | clear

def Call.key : Call → Option Int
  | .put key => some key
  | .remove key => some key
  | .exists key => some key
  | .clear => none

def call (s : DBRHash) : Call → Except Fault DBRHash
  | .put key => s.put key
  | .remove key => (s.remove key).map Prod.snd
  | .exists key => (s.exists key).map fun _ => s
  | .clear => .ok s.clear

/-- One call after the other, up to the first that does not return. -/
def runCalls (s : DBRHash) (calls : List Call) : Except Fault DBRHash := calls.foldlM call s

def fault {α : Type} : Except Fault α → Option Fault
  | .ok _ => none
  | .error fault => some fault

/-- The keys after one more call. -/
def liveStep (keys : Finset Int) : Call → Finset Int
  | .put key => insert key keys
  | .remove key => keys.erase key
  | .exists _ => keys
  | .clear => ∅

/-- The keys that were put and not removed since. -/
def live (calls : List Call) : Finset Int := calls.foldl liveStep ∅

/-! ## The invariant -/

/-- **Slot and array entry point at each other.** -/
structure Linked (s : DBRHash) : Prop where
  placed : Placed s.capacity hashMaxIterations (probe s.capacity) s.cell
  forth : ∀ p < s.capacity, ∀ key, s.cell p = .used key →
    (s.data p).value < s.count ∧ s.dataArray (s.data p).value = key
  back : ∀ i < s.count, ∃ p < s.capacity, s.cell p = .used (s.dataArray i) ∧ (s.data p).value = i

section

variable {s s' : DBRHash} {key : Int} {p : Nat}

theorem cell_clear (s : DBRHash) : ∀ p < s.clear.capacity, s.clear.cell p = .empty := by
  intro p hp
  have hp' : p < s.capacity := hp
  unfold cell clear
  simp only [if_pos hp', if_true]

theorem linked_clear (s : DBRHash) : s.clear.Linked where
  placed := placed_empty s.cell_clear
  forth := fun p hp key hused => by
    rw [s.cell_clear p hp] at hused
    cases hused
  back := fun i hi => absurd hi (Nat.not_lt_zero i)

theorem Linked.once (h : s.Linked) {p q : Nat} (hp : p < s.capacity) (hq : q < s.capacity)
    (hused : s.cell p = .used key) (hused' : s.cell q = .used key) : p = q :=
  h.placed.once p hp q hq key hused hused'

/-- The array has no key twice. -/
theorem Linked.inj (h : s.Linked) {i j : Nat} (hi : i < s.count) (hj : j < s.count)
    (heq : s.dataArray i = s.dataArray j) : i = j := by
  obtain ⟨p, hp, hused, hvalue⟩ := h.back i hi
  obtain ⟨q, hq, hused', hvalue'⟩ := h.back j hj
  rw [← heq] at hused'
  rw [← hvalue, ← hvalue', h.once hp hq hused hused']

theorem Linked.getAll_nodup (h : s.Linked) : s.getAll.Nodup := by
  unfold getAll
  apply List.Nodup.map_on _ List.nodup_range
  intro i hi j hj heq
  exact h.inj (List.mem_range.mp hi) (List.mem_range.mp hj) heq

theorem Linked.mem_getAll_iff (h : s.Linked) : key ∈ s.getAll ↔ Has s.capacity s.cell key := by
  unfold getAll
  constructor
  · intro hmem
    obtain ⟨i, hi, rfl⟩ := List.mem_map.mp hmem
    obtain ⟨p, hp, hused, -⟩ := h.back i (List.mem_range.mp hi)
    exact ⟨p, hp, hused⟩
  · rintro ⟨p, hp, hused⟩
    obtain ⟨hlt, heq⟩ := h.forth p hp key hused
    exact List.mem_map.mpr ⟨_, List.mem_range.mpr hlt, heq⟩

/-- **What is found**: a slot of the table with the key. -/
theorem search_found_slot (h : s.search key = .found p) :
    p < s.capacity ∧ s.cell p = .used key := by
  rw [s.search_eq] at h
  obtain ⟨n, -, -, rfl, hused⟩ := search_found h
  exact ⟨s.probe_lt key n, hused⟩

theorem Linked.exists_iff (h : s.Linked) :
    s.exists key = .ok true ↔ Has s.capacity s.cell key := by
  rw [h.placed.has_iff s.probe_lt, ← s.search_eq]
  unfold «exists»
  constructor
  · intro hexists
    split at hexists
    · cases hexists
    · cases hexists
    · next p hsearch => exact ⟨p, hsearch⟩
  · rintro ⟨p, hsearch⟩
    rw [hsearch]

theorem exists_error {f : Fault} (h : s.exists key = .error f) : f = .limit := by
  unfold «exists» at h
  split at h
  · cases h
    rfl
  · cases h
  · cases h

/-! ## Putting -/

theorem put_exceeded (hsearch : s.search key = .exceeded) : s.put key = .error .limit := by
  unfold put
  rw [hsearch]

theorem put_found (hsearch : s.search key = .found p) : s.put key = .ok s := by
  unfold put
  rw [hsearch]

theorem put_missing (hsearch : s.search key = .missing p) (hroom : s.count < s.realCapacity) :
    s.put key = .ok { s with
      toDHashBase := (s.putSlot p key s.count).setCount (s.count + 1)
      dataArray := Function.update s.dataArray s.count key } := by
  unfold put
  rw [hsearch]
  exact if_neg (Nat.not_le.mpr hroom)

/-- **A new key** goes to the end of the array. -/
theorem Linked.put_new (h : s.Linked) (hlegal : s.Legal key) (hsearch : s.search key = .missing p) :
    Linked { s with
      toDHashBase := (s.putSlot p key s.count).setCount (s.count + 1)
      dataArray := Function.update s.dataArray s.count key } := by
  rw [s.search_eq] at hsearch
  obtain ⟨hp, hfree⟩ := missing_free s.probe_lt hsearch
  have hcell := s.cell_putSlot hlegal p s.count
  have hold : ∀ i < s.count, Function.update s.dataArray s.count key i = s.dataArray i :=
    fun i hi => Function.update_of_ne (Nat.ne_of_lt hi) _ _
  constructor
  · show Placed s.capacity _ _ (s.putSlot p key s.count).cell
    rw [hcell]
    exact h.placed.put s.probe_lt hsearch
  · intro q hq k hused
    have hused' : (s.putSlot p key s.count).cell q = .used k := hused
    rw [hcell, Function.update_apply] at hused'
    show ((s.putSlot p key s.count).data q).value < s.count + 1 ∧
      Function.update s.dataArray s.count key ((s.putSlot p key s.count).data q).value = k
    rw [data_putSlot]
    by_cases heq : q = p
    · rw [if_pos heq] at hused' ⊢
      cases hused'
      exact ⟨Nat.lt_succ_self _, Function.update_self _ _ _⟩
    · rw [if_neg heq] at hused' ⊢
      obtain ⟨hlt, harray⟩ := h.forth q hq k hused'
      exact ⟨Nat.lt_succ_of_lt hlt, (hold _ hlt).trans harray⟩
  · intro i hi
    show ∃ q < s.capacity, (s.putSlot p key s.count).cell q =
        .used (Function.update s.dataArray s.count key i) ∧
      ((s.putSlot p key s.count).data q).value = i
    rw [hcell]
    rcases Nat.eq_or_lt_of_le (Nat.le_of_lt_succ hi) with rfl | hlt
    · refine ⟨p, hp, ?_, ?_⟩
      · rw [Function.update_self, Function.update_self]
      · rw [data_putSlot, if_pos rfl]
    · obtain ⟨q, hq, hused, hvalue⟩ := h.back i hlt
      have hne : q ≠ p := by
        rintro rfl
        rw [hused] at hfree
        rcases hfree with heq | heq
        · cases heq
        · cases heq
      refine ⟨q, hq, ?_, ?_⟩
      · rw [Function.update_of_ne hne, hold i hlt]
        exact hused
      · rw [data_putSlot, if_neg hne]
        exact hvalue

/-! ## Removing -/

/-- The other keys have other places in the array. -/
theorem Linked.value_ne (h : s.Linked) (hp : p < s.capacity) (hused : s.cell p = .used key)
    {q : Nat} {k : Int} (hq : q < s.capacity) (hk : s.cell q = .used k) (hne : q ≠ p) :
    (s.data q).value ≠ (s.data p).value := by
  intro hvalue
  obtain ⟨-, harray⟩ := h.forth p hp key hused
  obtain ⟨-, harray'⟩ := h.forth q hq k hk
  rw [hvalue, harray] at harray'
  rw [← harray'] at hk
  exact hne (h.once hq hp hk hused)

/-- The table without the key: what is left in other slots is what was there. -/
theorem cell_deleted {q : Nat} {k : Int} (hused : (s.deleteSlot p).cell q = .used k) :
    q ≠ p ∧ s.cell q = .used k ∧ (s.deleteSlot p).data q = s.data q := by
  rw [cell_deleteSlot, Function.update_apply] at hused
  split_ifs at hused with heq
  refine ⟨heq, hused, ?_⟩
  unfold deleteSlot
  rw [data_putSlot, if_neg heq]

/-- And all other slots are left. -/
theorem cell_kept {q : Nat} {k : Int} (hne : q ≠ p) (hused : s.cell q = .used k) :
    (s.deleteSlot p).cell q = .used k ∧ (s.deleteSlot p).data q = s.data q := by
  constructor
  · rw [cell_deleteSlot, Function.update_of_ne hne]
    exact hused
  · unfold deleteSlot
    rw [data_putSlot, if_neg hne]

/-- **The last key of the array** is removed. -/
theorem Linked.remove_last (h : s.Linked) (hp : p < s.capacity) (hused : s.cell p = .used key)
    (hlast : s.count = (s.data p).value + 1) :
    Linked { s with toDHashBase := (s.deleteSlot p).setCount (s.count - 1) } := by
  constructor
  · show Placed s.capacity _ _ (s.deleteSlot p).cell
    rw [cell_deleteSlot]
    exact h.placed.delete p
  · intro q hq k hk
    obtain ⟨hne, hold, hdata⟩ := cell_deleted (p := p) hk
    obtain ⟨hlt, harray⟩ := h.forth q hq k hold
    have hvalue := h.value_ne hp hused hq hold hne
    show ((s.deleteSlot p).data q).value < s.count - 1 ∧
      s.dataArray ((s.deleteSlot p).data q).value = k
    rw [hdata]
    exact ⟨by omega, harray⟩
  · intro i hi
    have hi' : i < s.count - 1 := hi
    obtain ⟨q, hq, hk, hvalue⟩ := h.back i (by omega)
    have hne : q ≠ p := by
      rintro rfl
      omega
    obtain ⟨hkept, hdata⟩ := cell_kept hne hk
    refine ⟨q, hq, hkept, ?_⟩
    show ((s.deleteSlot p).data q).value = i
    rw [hdata]
    exact hvalue

/-- **Any other key**: the last key of the array is found, and takes over the place. -/
theorem Linked.remove_middle (h : s.Linked) (hp : p < s.capacity) (hused : s.cell p = .used key)
    (hlast : s.count ≠ (s.data p).value + 1) :
    ∃ q, ((s.deleteSlot p).setCount (s.count - 1)).search (s.dataArray (s.count - 1)) = .found q ∧
      Linked { s with
        toDHashBase :=
          ((s.deleteSlot p).setCount (s.count - 1)).setValue q (s.data p).value
        dataArray := Function.update s.dataArray (s.data p).value
          (s.dataArray (s.count - 1)) } := by
  obtain ⟨hlt, harray⟩ := h.forth p hp key hused
  have hsmall : (s.data p).value < s.count - 1 := by omega
  obtain ⟨q, hq, hk, hvalue⟩ := h.back (s.count - 1) (by omega)
  have hne : q ≠ p := by
    rintro rfl
    omega
  have hdeleted := s.cell_deleteSlot p
  refine ⟨q, ?_, ?_⟩
  · rw [DHashBase.search_eq, cell_setCount, hdeleted]
    apply (h.placed.delete p).search_eq s.probe_lt hq
    rw [Function.update_of_ne hne]
    exact hk
  · -- the value of `q` changes, and no cell does
    generalize ht : (s.deleteSlot p).setCount (s.count - 1) = t
    have hcell : (t.setValue q (s.data p).value).cell = Function.update s.cell p .deleted := by
      rw [cell_setValue, ← ht, cell_setCount, hdeleted]
    have hcapacity : t.capacity = s.capacity := by
      rw [← ht]
      rfl
    have hcount : t.count = s.count - 1 := by
      rw [← ht]
      rfl
    have hdata : ∀ r, (t.setValue q (s.data p).value).data r =
        if r = q then ⟨(t.data q).key, (s.data p).value⟩ else t.data r := fun r => data_putSlot r
    have hother : ∀ r, r ≠ p → t.data r = s.data r := by
      intro r hr
      rw [← ht]
      show (s.deleteSlot p).data r = s.data r
      unfold deleteSlot
      rw [data_putSlot, if_neg hr]
    constructor
    · show Placed t.capacity _ (probe t.capacity) (t.setValue q (s.data p).value).cell
      rw [hcell, hcapacity]
      exact h.placed.delete p
    · intro r hr k hused'
      have hr' : r < t.capacity := hr
      have hused'' : (t.setValue q (s.data p).value).cell r = .used k := hused'
      rw [hcapacity] at hr'
      rw [hcell, Function.update_apply] at hused''
      split_ifs at hused'' with hrp
      show ((t.setValue q (s.data p).value).data r).value < t.count ∧
        Function.update s.dataArray (s.data p).value (s.dataArray (s.count - 1))
          ((t.setValue q (s.data p).value).data r).value = k
      rw [hdata, hcount]
      by_cases hrq : r = q
      · rw [if_pos hrq]
        rw [hrq, hk] at hused''
        refine ⟨hsmall, ?_⟩
        show Function.update s.dataArray (s.data p).value _ (s.data p).value = k
        rw [Function.update_self]
        exact Cell.used.inj hused''
      · rw [if_neg hrq, hother r hrp]
        obtain ⟨hlt', harray'⟩ := h.forth r hr' k hused''
        have hplace := h.value_ne hp hused hr' hused'' hrp
        have hplace' := h.value_ne hq hk hr' hused'' hrq
        rw [Function.update_of_ne hplace]
        exact ⟨by omega, harray'⟩
    · intro i hi
      have hi' : i < t.count := hi
      rw [hcount] at hi'
      show ∃ r < t.capacity, (t.setValue q (s.data p).value).cell r =
          .used (Function.update s.dataArray (s.data p).value (s.dataArray (s.count - 1)) i) ∧
        ((t.setValue q (s.data p).value).data r).value = i
      rw [hcell, hcapacity]
      by_cases heq : i = (s.data p).value
      · refine ⟨q, hq, ?_, ?_⟩
        · rw [heq, Function.update_self, Function.update_of_ne hne]
          exact hk
        · rw [hdata, if_pos rfl]
          exact heq.symm
      · obtain ⟨r, hr, hused', hvalue'⟩ := h.back i (by omega)
        have hrp : r ≠ p := by
          rintro rfl
          exact heq hvalue'.symm
        have hrq : r ≠ q := by
          rintro rfl
          omega
        refine ⟨r, hr, ?_, ?_⟩
        · rw [Function.update_of_ne heq, Function.update_of_ne hrp]
          exact hused'
        · rw [hdata, if_neg hrq, hother r hrp]
          exact hvalue'

theorem remove_exceeded (hsearch : s.search key = .exceeded) : s.remove key = .error .limit := by
  unfold DBRHash.remove
  rw [hsearch]

theorem remove_missing (hsearch : s.search key = .missing p) : s.remove key = .ok (false, s) := by
  unfold DBRHash.remove
  rw [hsearch]

theorem remove_found_last (hsearch : s.search key = .found p)
    (hlast : s.count = (s.data p).value + 1) : s.remove key =
      .ok (true, { s with toDHashBase := (s.deleteSlot p).setCount (s.count - 1) }) := by
  unfold DBRHash.remove
  rw [hsearch]
  exact if_pos (Or.inr hlast)

theorem remove_found_middle {q : Nat} (hsearch : s.search key = .found p)
    (hmany : ¬ (s.count = 1 ∨ s.count = (s.data p).value + 1))
    (hfound : ((s.deleteSlot p).setCount (s.count - 1)).search (s.dataArray (s.count - 1)) =
      .found q) : s.remove key = .ok (true, { s with
        toDHashBase := ((s.deleteSlot p).setCount (s.count - 1)).setValue q (s.data p).value
        dataArray := Function.update s.dataArray (s.data p).value
          (s.dataArray (s.count - 1)) }) := by
  unfold DBRHash.remove
  rw [hsearch]
  refine (if_neg hmany).trans ?_
  simp only [hfound]

/-- How `remove` ends; the key that takes over the place is always found. -/
theorem Linked.remove (h : s.Linked) (key : Int) :
    s.remove key = .error .limit ∨
    (¬ Has s.capacity s.cell key ∧ s.remove key = .ok (false, s)) ∨
    ∃ p s', p < s.capacity ∧ s.cell p = .used key ∧ s.remove key = .ok (true, s') ∧ s'.Linked ∧
      s'.cell = Function.update s.cell p .deleted ∧ s'.capacity = s.capacity ∧
      s'.emptyKey = s.emptyKey ∧ s'.deletedKey = s.deletedKey ∧
      s'.realCapacity = s.realCapacity := by
  rcases hsearch : s.search key with p | p | _
  · obtain ⟨hp, hused⟩ := search_found_slot hsearch
    obtain ⟨hlt, -⟩ := h.forth p hp key hused
    refine Or.inr (Or.inr ⟨p, ?_⟩)
    by_cases hlast : s.count = (s.data p).value + 1
    · exact ⟨_, hp, hused, remove_found_last hsearch hlast, h.remove_last hp hused hlast,
        s.cell_deleteSlot p, rfl, rfl, rfl, rfl⟩
    · have hmany : ¬ (s.count = 1 ∨ s.count = (s.data p).value + 1) := by omega
      obtain ⟨q, hfound, hlinked⟩ := h.remove_middle hp hused hlast
      refine ⟨_, hp, hused, remove_found_middle hsearch hmany hfound, hlinked, ?_, rfl, rfl, rfl,
        rfl⟩
      show (((s.deleteSlot p).setCount (s.count - 1)).setValue q (s.data p).value).cell = _
      rw [cell_setValue, cell_setCount, cell_deleteSlot]
  · refine Or.inr (Or.inl ⟨?_, remove_missing hsearch⟩)
    rw [s.search_eq] at hsearch
    exact h.placed.missing s.probe_lt hsearch
  · exact Or.inl (remove_exceeded hsearch)

/-! ## Each call -/

/-- The set that the table stands for. -/
structure Stands (s : DBRHash) (keys : Finset Int) : Prop where
  linked : s.Linked
  has : ∀ key, Has s.capacity s.cell key ↔ key ∈ keys

/-- What is not changed by any call. -/
structure SameShape (s s' : DBRHash) : Prop where
  emptyKey : s'.emptyKey = s.emptyKey
  deletedKey : s'.deletedKey = s.deletedKey
  realCapacity : s'.realCapacity = s.realCapacity

theorem Stands.count_eq {keys : Finset Int} (h : s.Stands keys) : s.count = keys.card := by
  have hset : s.getAll.toFinset = keys := by
    ext key
    rw [List.mem_toFinset, h.linked.mem_getAll_iff, h.has]
  rw [← hset, List.toFinset_card_of_nodup h.linked.getAll_nodup]
  unfold getAll
  rw [List.length_map, List.length_range]

/-- **The step lemma**: a call returns unless a search is too long, and the table stands for the
    right keys again. -/
theorem Stands.call {keys : Finset Int} (h : s.Stands keys) (c : Call)
    (hlegal : ∀ key, c.key = some key → s.Legal key)
    (hroom : (liveStep keys c).card ≤ s.realCapacity) (hlimit : fault (s.call c) ≠ some .limit) :
    ∃ s', s.call c = .ok s' ∧ s'.Stands (liveStep keys c) ∧ SameShape s s' := by
  cases c with
  | put key =>
    rcases hsearch : s.search key with p | p | _
    · obtain ⟨hp, hused⟩ := search_found_slot hsearch
      have hmem : key ∈ keys := (h.has key).mp ⟨p, hp, hused⟩
      refine ⟨s, put_found hsearch, ⟨h.linked, fun k => ?_⟩, ⟨rfl, rfl, rfl⟩⟩
      rw [h.has]
      show k ∈ keys ↔ k ∈ insert key keys
      rw [Finset.insert_eq_of_mem hmem]
    · have hsearch' := hsearch
      rw [s.search_eq] at hsearch'
      obtain ⟨hp, hfree⟩ := missing_free s.probe_lt hsearch'
      have hnew : key ∉ keys := fun hmem =>
        h.linked.placed.missing s.probe_lt hsearch' ((h.has key).mpr hmem)
      have hcard : s.count < s.realCapacity := by
        have hroom' : (insert key keys).card ≤ s.realCapacity := hroom
        rw [Finset.card_insert_of_notMem hnew, ← h.count_eq] at hroom'
        exact hroom'
      have hkey := hlegal key rfl
      refine ⟨_, put_missing hsearch hcard, ⟨h.linked.put_new hkey hsearch, fun k => ?_⟩,
        ⟨rfl, rfl, rfl⟩⟩
      show Has s.capacity (s.putSlot p key s.count).cell k ↔ _
      rw [s.cell_putSlot hkey, has_put hp hfree, h.has]
      exact (Finset.mem_insert).symm
    · exact absurd (congrArg fault (put_exceeded hsearch)) hlimit
  | remove key =>
    have hcall : s.call (.remove key) = (s.remove key).map Prod.snd := rfl
    rcases h.linked.remove key with herr | ⟨hnot, hok⟩ |
      ⟨p, s', hp, hused, hok, hlinked, hcell, hcap, hempty, hdeleted, hreal⟩
    · rw [hcall, herr] at hlimit
      exact absurd rfl hlimit
    · refine ⟨s, ?_, ⟨h.linked, fun k => ?_⟩, ⟨rfl, rfl, rfl⟩⟩
      · rw [hcall, hok]
        rfl
      · have hmem : key ∉ keys := fun hmem => hnot ((h.has key).mpr hmem)
        rw [h.has]
        show k ∈ keys ↔ k ∈ keys.erase key
        rw [Finset.erase_eq_of_notMem hmem]
    · refine ⟨s', ?_, ⟨hlinked, fun k => ?_⟩, ⟨hempty, hdeleted, hreal⟩⟩
      · rw [hcall, hok]
        rfl
      · rw [hcap, hcell, h.linked.placed.has_delete hp hused, h.has]
        exact (Finset.mem_erase).symm
  | «exists» key =>
    have hcall : s.call (.exists key) = (s.exists key).map fun _ => s := rfl
    refine ⟨s, ?_, h, ⟨rfl, rfl, rfl⟩⟩
    rw [hcall] at hlimit ⊢
    cases hexists : s.exists key with
    | error f =>
      rw [exists_error hexists] at hexists
      rw [hexists] at hlimit
      exact absurd rfl hlimit
    | ok found => rfl
  | clear =>
    refine ⟨s.clear, rfl, ⟨s.linked_clear, fun k => ?_⟩, ⟨rfl, rfl, rfl⟩⟩
    constructor
    · intro hhas
      exact absurd hhas (not_has_empty s.cell_clear k)
    · intro hmem
      exact absurd hmem (Finset.notMem_empty k)

/-! ## The headline -/

/-- What a hash is meant to be when `keys` are in it. -/
structure Right (s : DBRHash) (keys : Finset Int) : Prop where
  «exists» : ∀ key, s.exists key = .ok true ↔ key ∈ keys
  getAll_nodup : s.getAll.Nodup
  mem_getAll : ∀ key, key ∈ s.getAll ↔ key ∈ keys
  /-- a slot that is taken points to an array entry that has its key -/
  forth : ∀ p < s.capacity, (s.data p).key ≠ s.emptyKey → (s.data p).key ≠ s.deletedKey →
    (s.data p).value < s.count ∧ s.dataArray (s.data p).value = (s.data p).key
  /-- an array entry is pointed to by a slot that has its key -/
  back : ∀ i < s.count, ∃ p < s.capacity, (s.data p).key = s.dataArray i ∧ (s.data p).value = i

theorem Stands.right {keys : Finset Int} (h : s.Stands keys) : s.Right keys where
  «exists» := fun key => h.linked.exists_iff.trans (h.has key)
  getAll_nodup := h.linked.getAll_nodup
  mem_getAll := fun key => h.linked.mem_getAll_iff.trans (h.has key)
  forth := fun p hp hempty hdeleted => h.linked.forth p hp _ (used_iff.mpr ⟨rfl, hempty, hdeleted⟩)
  back := fun i hi => by
    obtain ⟨p, hp, hused, hvalue⟩ := h.linked.back i hi
    exact ⟨p, hp, (used_iff.mp hused).1, hvalue⟩

theorem live_concat (calls : List Call) (c : Call) :
    live (calls ++ [c]) = liveStep (live calls) c := by
  unfold live
  rw [List.foldl_append]
  rfl

theorem runCalls_concat (s : DBRHash) (calls : List Call) (c : Call) :
    s.runCalls (calls ++ [c]) = (s.runCalls calls).bind fun m => m.call c := by
  unfold runCalls
  rw [List.foldlM_append]
  cases calls.foldlM call s with
  | error fault => rfl
  | ok m =>
    show (m.call c >>= fun m' => pure m') = m.call c
    exact bind_pure _

/-- **After any calls the table and the array are in step**, as long as no search is too long and
    there are never more keys than the array has room for. -/
theorem dbrHash_right {hashCapacity realCapacity : Nat} (hpos : 0 < hashCapacity)
    {emptyKey deletedKey : Int} (hne : emptyKey ≠ deletedKey) (memory : Nat → Slot Nat)
    (array : Nat → Int) (calls : List Call)
    (hlegal : ∀ c ∈ calls, ∀ key, c.key = some key → key ≠ emptyKey ∧ key ≠ deletedKey)
    (hroom : ∀ before, before <+: calls → (live before).card ≤ realCapacity)
    (hlimit : fault ((create hashCapacity hpos realCapacity emptyKey deletedKey hne memory
      array).runCalls calls) ≠ some .limit) :
    ∃ s, (create hashCapacity hpos realCapacity emptyKey deletedKey hne memory array).runCalls
        calls = .ok s ∧ s.Right (live calls) := by
  suffices h : ∃ s, (create hashCapacity hpos realCapacity emptyKey deletedKey hne memory
      array).runCalls calls = .ok s ∧ s.Stands (live calls) ∧
        SameShape (create hashCapacity hpos realCapacity emptyKey deletedKey hne memory array) s by
    obtain ⟨s, hrun, hstands, -⟩ := h
    exact ⟨s, hrun, hstands.right⟩
  induction calls using List.reverseRecOn with
  | nil =>
    refine ⟨_, rfl, ⟨linked_clear _, fun key => ?_⟩, ⟨rfl, rfl, rfl⟩⟩
    constructor
    · intro hhas
      exact absurd hhas (not_has_empty (cell_clear _) key)
    · intro hmem
      exact absurd hmem (Finset.notMem_empty key)
  | append_singleton calls c ih =>
    rw [runCalls_concat] at hlimit ⊢
    have hbefore : fault ((create hashCapacity hpos realCapacity emptyKey deletedKey hne memory
        array).runCalls calls) ≠ some .limit := by
      intro hfault
      apply hlimit
      cases hrun : (create hashCapacity hpos realCapacity emptyKey deletedKey hne memory
          array).runCalls calls with
      | ok s =>
        rw [hrun] at hfault
        cases hfault
      | error f =>
        rw [hrun] at hfault
        exact hfault
    obtain ⟨s, hrun, hstands, hshape⟩ := ih
      (fun c' hc' => hlegal c' (List.mem_append_left _ hc'))
      (fun before hbefore => hroom before (hbefore.trans (List.prefix_append _ _))) hbefore
    rw [hrun] at hlimit ⊢
    have hcard := hroom (calls ++ [c]) (List.prefix_refl _)
    rw [live_concat] at hcard ⊢
    obtain ⟨s', hcall, hstands', hshape'⟩ := hstands.call c
      (fun key hkey => by
        obtain ⟨hempty, hdeleted⟩ :=
          hlegal c (List.mem_append_right _ List.mem_cons_self) key hkey
        refine ⟨?_, ?_⟩
        · rw [hshape.emptyKey]
          exact hempty
        · rw [hshape.deletedKey]
          exact hdeleted)
      (by
        rw [hshape.realCapacity]
        exact hcard) hlimit
    exact ⟨s', hcall, hstands', ⟨hshape'.emptyKey.trans hshape.emptyKey,
      hshape'.deletedKey.trans hshape.deletedKey, hshape'.realCapacity.trans hshape.realCapacity⟩⟩

end

/-! ## Three children -/

/-- A small hash of object ids; the last of three goes, then the first, and one comes back. -/
def threeChildren : List Call :=
  [.put 40, .put 41, .put 42, .remove 42, .remove 40, .put 40, .exists 41]

theorem keys_ne_objectIDs : (-333 : Int) ≠ -666 := by decide

theorem right_threeChildren :
    ∃ s, (create 521 (by decide) 3 (-333) (-666) keys_ne_objectIDs (fun _ => ⟨0, 0⟩)
        fun _ => 0).runCalls threeChildren = .ok s ∧ s.Right (live threeChildren) := by
  refine dbrHash_right (by decide) keys_ne_objectIDs _ _ threeChildren ?_ ?_ ?_
  · decide
  · intro before hbefore
    have hall : ∀ before ∈ threeChildren.inits, (live before).card ≤ 3 := by decide
    exact hall before ((List.mem_inits _ _).mpr hbefore)
  · decide +kernel

end DBRHash

end MediaTomb
