/-
  `DBOHash` (`hash/dbo_hash.h`), the table of the inotify watches: kernel descriptors to objects.

  A search ends at an empty slot, and no slot ever becomes empty again: `remove` writes the deleted
  key.  The kernel hands out NEW descriptors all the time, and so the empty slots are used up by
  keys that are long gone.  How many keys are live has nothing to do with it: with one live key at a
  time, a hundred of them wear out the way of another.

    * `Within`        one of the slots that may be looked at is empty or has the key;
    * `right_iff`     a call returns, and `get` with the last value put, just when that is so;
    * `wear`          what one key leaves behind that was put and removed.
-/
import MediaTomb.Hash.DirectHash
import MediaTomb.Lib.Machine

namespace MediaTomb

open Lib.OpenAddressing Lib.Machine DHashBase

namespace DBOHash

variable {V : Type}

/-! ## Operations -/

/-- `init`, for what `MALLOC` returns. -/
def init (t : DHashBase V) : DHashBase V :=
  { t with
    count := 0
    data := fun p => if p < t.capacity then ⟨t.emptyKey, (t.data p).value⟩ else t.data p }

/-- `put(key, destSlot, value)` -/
def putAt (t : DHashBase V) (key : Int) (slot : Nat) (value : V) : DHashBase V :=
  if !t.isEmptySlot slot && !t.isDeletedSlot slot then t.setValue slot value
  else (t.putSlot slot key value).setCount (t.count + 1)

/-- `put`; `none` is the exception of `search`. -/
def put (t : DHashBase V) (key : Int) (value : V) : Option (DHashBase V) :=
  match t.search key with
  | .exceeded => none
  | .found slot => some (putAt t key slot value)
  | .missing slot => some (putAt t key slot value)

def remove (t : DHashBase V) (key : Int) : Option (Bool × DHashBase V) :=
  match t.search key with
  | .exceeded => none
  | .missing _ => some (false, t)
  | .found slot => some (true, (t.deleteSlot slot).setCount (t.count - 1))

/-- `get`; the inner `none` is nil. -/
def get (t : DHashBase V) (key : Int) : Option (Option V) :=
  match t.search key with
  | .exceeded => none
  | .missing _ => some none
  | .found slot => some (some (t.data slot).value)

theorem specialKeys_ne : (-1 : Int) ≠ -2 := by decide

/-- The watch table: `new DBOHash<int, Wd>(hash_size, -1, -2)`. -/
def watches (hashSize : Nat) (hpos : 0 < hashSize) (memory : Nat → Slot V) : DHashBase V :=
  init ⟨hashSize, hpos, -1, -2, specialKeys_ne, 0, memory⟩

/-! ## Runs -/

inductive Call (V : Type) where
  | put (key : Int) (value : V)
  | remove (key : Int)
  | get (key : Int)

def Call.key : Call V → Int
  | .put key _ => key
  | .remove key => key
  | .get key => key

/-- What the call leaves, and what `get` returns. -/
def call (t : DHashBase V) : Call V → Option (DHashBase V × Option V)
  | .put key value => (put t key value).map fun t' => (t', none)
  | .remove key => (remove t key).map fun r => (r.2, none)
  | .get key => (get t key).map fun value => (t, value)

/-- Descriptors are not negative. -/
def step (t : DHashBase V) (c : Call V) : Option (DHashBase V) :=
  if 0 ≤ c.key then (call t c).map Prod.fst else none

/-- The value that was put last, unless the key was removed since. -/
def lastPut : Call V → (Int → Option V) → Int → Option V
  | .put key value, values => Function.update values key (some value)
  | .remove key, values => Function.update values key none
  | .get _, values => values

def values (calls : List (Call V)) : Int → Option V :=
  calls.foldl (fun values c => lastPut c values) fun _ => none

/-- The keys that are in the table after the calls. -/
def liveKeys (calls : List (Call V)) : Finset Int :=
  calls.foldl (fun keys c =>
    match c with
    | .put key _ => insert key keys
    | .remove key => keys.erase key
    | .get _ => keys) ∅

/-- The call returns, and `get` with the right value. -/
def Right (t : DHashBase V) (values : Int → Option V) (c : Call V) : Prop :=
  ∃ r, call t c = some r ∧ ∀ key, c = .get key → r.2 = values key

/-- **The condition**: one of the slots on the way is empty or has the key. -/
def Within (t : DHashBase V) (key : Int) : Prop :=
  ∃ n < hashMaxIterations, t.cell (probe t.capacity key n) = .empty ∨
    t.cell (probe t.capacity key n) = .used key

/-- **The invariant**: the table stands for the values. -/
structure Stands (t : DHashBase V) (values : Int → Option V) : Prop where
  placed : Placed t.capacity hashMaxIterations (probe t.capacity) t.cell
  emptyKey : t.emptyKey = -1
  deletedKey : t.deletedKey = -2
  value : ∀ p < t.capacity, ∀ key, t.cell p = .used key → values key = some (t.data p).value
  has : ∀ key, values key ≠ none → Has t.capacity t.cell key

section

variable {t t' : DHashBase V} {values : Int → Option V} {key : Int} {p : Nat} {v : V} {c : Call V}

theorem search_exceeded_iff : t.search key = .exceeded ↔ ¬ Within t key := by
  rw [t.search_eq, Lib.OpenAddressing.search_exceeded_iff]
  constructor
  · rintro hpassed ⟨n, hn, hempty | hused⟩
    · exact (hpassed n (Nat.zero_le _) (by omega)).1 hempty
    · exact (hpassed n (Nat.zero_le _) (by omega)).2 hused
  · intro hnot n _ hn
    refine ⟨fun hempty => hnot ⟨n, by omega, Or.inl hempty⟩, fun hused => ?_⟩
    exact hnot ⟨n, by omega, Or.inr hused⟩

theorem search_found_slot (h : t.search key = .found p) :
    p < t.capacity ∧ t.cell p = .used key := by
  rw [t.search_eq] at h
  obtain ⟨n, -, -, rfl, hused⟩ := search_found h
  exact ⟨t.probe_lt key n, hused⟩

theorem search_missing_slot (h : t.search key = .missing p) :
    p < t.capacity ∧ (t.cell p = .empty ∨ t.cell p = .deleted) := by
  rw [t.search_eq] at h
  exact missing_free t.probe_lt h

theorem isTaken_iff : (!t.isEmptySlot p && !t.isDeletedSlot p) = true ↔ ∃ k, t.cell p = .used k := by
  unfold isEmptySlot isDeletedSlot cell
  rw [Bool.and_eq_true, Bool.not_eq_true', Bool.not_eq_true', decide_eq_false_iff_not,
    decide_eq_false_iff_not]
  split_ifs with hempty hdeleted
  · exact ⟨fun hboth => absurd hempty hboth.1, fun ⟨k, hk⟩ => (nomatch hk)⟩
  · exact ⟨fun hboth => absurd hdeleted hboth.2, fun ⟨k, hk⟩ => (nomatch hk)⟩
  · exact ⟨fun _ => ⟨_, rfl⟩, fun _ => ⟨hempty, hdeleted⟩⟩

theorem putAt_found (hused : t.cell p = .used key) : putAt t key p v = t.setValue p v :=
  if_pos (isTaken_iff.mpr ⟨key, hused⟩)

theorem putAt_missing (hfree : t.cell p = .empty ∨ t.cell p = .deleted) :
    putAt t key p v = (t.putSlot p key v).setCount (t.count + 1) := by
  apply if_neg
  intro htaken
  obtain ⟨k, hk⟩ := isTaken_iff.mp htaken
  rw [hk] at hfree
  rcases hfree with heq | heq
  · cases heq
  · cases heq

/-! ## Each call keeps the invariant -/

theorem Stands.legal (h : Stands t values) (hkey : 0 ≤ key) : t.Legal key := by
  unfold Legal
  rw [h.emptyKey, h.deletedKey]
  omega

/-- The value of a key that is there is replaced. -/
theorem Stands.setValue (h : Stands t values) (hp : p < t.capacity) (hused : t.cell p = .used key) :
    Stands (t.setValue p v) (Function.update values key (some v)) where
  placed := by
    rw [cell_setValue]
    exact h.placed
  emptyKey := h.emptyKey
  deletedKey := h.deletedKey
  value := fun q hq k hk => by
    have hq' : q < t.capacity := hq
    rw [cell_setValue] at hk
    unfold DHashBase.setValue
    rw [data_putSlot]
    by_cases heq : q = p
    · rw [if_pos heq]
      rw [heq, hused] at hk
      cases hk
      exact Function.update_self _ _ _
    · have hne : k ≠ key := by
        rintro rfl
        exact heq (h.placed.once q hq' p hp k hk hused)
      rw [if_neg heq, Function.update_of_ne hne]
      exact h.value q hq' k hk
  has := fun k hk => by
    rw [cell_setValue]
    by_cases heq : k = key
    · rw [heq]
      exact ⟨p, hp, hused⟩
    · rw [Function.update_of_ne heq] at hk
      exact h.has k hk

/-- A new key is put. -/
theorem Stands.putSlot (h : Stands t values) (hkey : 0 ≤ key) (hsearch : t.search key = .missing p)
    (count : Nat) : Stands ((t.putSlot p key v).setCount count)
      (Function.update values key (some v)) := by
  have hcell := t.cell_putSlot (h.legal hkey) p v
  obtain ⟨hp, hfree⟩ := search_missing_slot hsearch
  rw [t.search_eq] at hsearch
  refine ⟨?_, h.emptyKey, h.deletedKey, fun q hq k hk => ?_, fun k hk => ?_⟩
  · show Placed t.capacity _ _ (t.putSlot p key v).cell
    rw [hcell]
    exact h.placed.put t.probe_lt hsearch
  · have hq' : q < t.capacity := hq
    have hk' : (t.putSlot p key v).cell q = .used k := hk
    rw [hcell, Function.update_apply] at hk'
    show _ = some ((t.putSlot p key v).data q).value
    rw [data_putSlot]
    by_cases heq : q = p
    · rw [if_pos heq] at hk' ⊢
      cases hk'
      exact Function.update_self _ _ _
    · rw [if_neg heq] at hk' ⊢
      have hne : k ≠ key := by
        rintro rfl
        exact h.placed.missing t.probe_lt hsearch ⟨q, hq', hk'⟩
      rw [Function.update_of_ne hne]
      exact h.value q hq' k hk'
  · show Has t.capacity (t.putSlot p key v).cell k
    rw [hcell, has_put hp hfree]
    by_cases heq : k = key
    · exact Or.inl heq
    · rw [Function.update_of_ne heq] at hk
      exact Or.inr (h.has k hk)

theorem Stands.deleteSlot (h : Stands t values) (hp : p < t.capacity) (hused : t.cell p = .used key)
    (count : Nat) : Stands ((t.deleteSlot p).setCount count)
      (Function.update values key none) := by
  have hcell := t.cell_deleteSlot p
  refine ⟨?_, h.emptyKey, h.deletedKey, fun q hq k hk => ?_, fun k hk => ?_⟩
  · show Placed t.capacity _ _ (t.deleteSlot p).cell
    rw [hcell]
    exact h.placed.delete p
  · have hq' : q < t.capacity := hq
    have hk' : (t.deleteSlot p).cell q = .used k := hk
    rw [hcell, Function.update_apply] at hk'
    split_ifs at hk' with heq
    have hne : k ≠ key := by
      rintro rfl
      exact heq (h.placed.once q hq' p hp k hk' hused)
    show _ = some ((t.deleteSlot p).data q).value
    unfold DHashBase.deleteSlot
    rw [data_putSlot, if_neg heq, Function.update_of_ne hne]
    exact h.value q hq' k hk'
  · show Has t.capacity (t.deleteSlot p).cell k
    have hne : k ≠ key := by
      rintro rfl
      exact hk (Function.update_self _ _ _)
    rw [Function.update_of_ne hne] at hk
    rw [hcell, h.placed.has_delete hp hused]
    exact ⟨hne, h.has k hk⟩

/-- A key that is not found has no value. -/
theorem Stands.none_of_missing (h : Stands t values) (hsearch : t.search key = .missing p) :
    values key = none := by
  rw [t.search_eq] at hsearch
  by_contra hne
  exact h.placed.missing t.probe_lt hsearch (h.has key hne)

/-- A key that has a value is found. -/
theorem Stands.within (h : Stands t values) (hne : values key ≠ none) : Within t key := by
  obtain ⟨p, hp, hused⟩ := h.has key hne
  obtain ⟨n, hn, rfl, -⟩ := h.placed.path p hp key hused
  exact ⟨n, hn, Or.inr hused⟩

/-- **The step lemma**: a call that is within the limit returns, does right, and keeps the
    invariant. -/
theorem Stands.call (h : Stands t values) (hkey : 0 ≤ c.key) (hwithin : Within t c.key) :
    ∃ r, call t c = some r ∧ (∀ key, c = .get key → r.2 = values key) ∧
      Stands r.1 (lastPut c values) := by
  have hnot : t.search c.key ≠ .exceeded := fun hexceeded =>
    search_exceeded_iff.mp hexceeded hwithin
  cases c with
  | put key v =>
    have hsearch : ∃ r, t.search key = r := ⟨_, rfl⟩
    obtain ⟨p | p | _, hr⟩ := hsearch
    · obtain ⟨hp, hused⟩ := search_found_slot hr
      refine ⟨(t.setValue p v, none), ?_, fun k hk => (nomatch hk), h.setValue hp hused⟩
      unfold DBOHash.call DBOHash.put
      simp only [hr, Option.map_some, putAt_found hused]
    · obtain ⟨hp, hfree⟩ := search_missing_slot hr
      refine ⟨((t.putSlot p key v).setCount (t.count + 1), none), ?_, fun k hk => (nomatch hk),
        h.putSlot hkey hr _⟩
      unfold DBOHash.call DBOHash.put
      simp only [hr, Option.map_some, putAt_missing hfree]
    · exact absurd hr hnot
  | remove key =>
    have hsearch : ∃ r, t.search key = r := ⟨_, rfl⟩
    obtain ⟨p | p | _, hr⟩ := hsearch
    · obtain ⟨hp, hused⟩ := search_found_slot hr
      refine ⟨((t.deleteSlot p).setCount (t.count - 1), none), ?_, fun k hk => (nomatch hk),
        h.deleteSlot hp hused _⟩
      unfold DBOHash.call DBOHash.remove
      simp only [hr, Option.map_some]
    · refine ⟨(t, none), ?_, fun k hk => (nomatch hk), ?_⟩
      · unfold DBOHash.call DBOHash.remove
        simp only [hr, Option.map_some]
      · show Stands t (Function.update values key none)
        rw [← h.none_of_missing hr, Function.update_eq_self]
        exact h
    · exact absurd hr hnot
  | get key =>
    have hsearch : ∃ r, t.search key = r := ⟨_, rfl⟩
    obtain ⟨p | p | _, hr⟩ := hsearch
    · obtain ⟨hp, hused⟩ := search_found_slot hr
      refine ⟨(t, some (t.data p).value), ?_, fun k hk => ?_, h⟩
      · unfold DBOHash.call DBOHash.get
        simp only [hr, Option.map_some]
      · cases hk
        exact (h.value p hp key hused).symm
    · refine ⟨(t, none), ?_, fun k hk => ?_, h⟩
      · unfold DBOHash.call DBOHash.get
        simp only [hr, Option.map_some]
      · cases hk
        exact (h.none_of_missing hr).symm
    · exact absurd hr hnot

/-- A call that is not within the limit throws. -/
theorem call_none (hnot : ¬ Within t c.key) : call t c = none := by
  have hr : t.search c.key = .exceeded := search_exceeded_iff.mpr hnot
  cases c with
  | put key v =>
    have hr' : t.search key = .exceeded := hr
    unfold DBOHash.call DBOHash.put
    simp only [hr', Option.map_none]
  | remove key =>
    have hr' : t.search key = .exceeded := hr
    unfold DBOHash.call DBOHash.remove
    simp only [hr', Option.map_none]
  | get key =>
    have hr' : t.search key = .exceeded := hr
    unfold DBOHash.call DBOHash.get
    simp only [hr', Option.map_none]

theorem Stands.right_iff (h : Stands t values) (hkey : 0 ≤ c.key) :
    Right t values c ↔ Within t c.key := by
  constructor
  · rintro ⟨r, hcall, -⟩
    by_contra hnot
    rw [call_none hnot] at hcall
    cases hcall
  · intro hwithin
    obtain ⟨r, hcall, hget, -⟩ := h.call hkey hwithin
    exact ⟨r, hcall, hget⟩

/-! ## Runs -/

theorem cell_init (t : DHashBase V) : ∀ p < (init t).capacity, (init t).cell p = .empty := by
  intro p hp
  have hp' : p < t.capacity := hp
  unfold cell init
  simp only [if_pos hp', if_true]

theorem stands_watches {hashSize : Nat} (hpos : 0 < hashSize) (memory : Nat → Slot V) :
    Stands (watches hashSize hpos memory) fun _ => none where
  placed := placed_empty (cell_init _)
  emptyKey := rfl
  deletedKey := rfl
  value := fun p hp key hused => by
    have hempty := cell_init _ p hp
    unfold watches at hused
    rw [hempty] at hused
    cases hused
  has := fun key hne => absurd rfl hne

theorem Stands.step (h : Stands t values) (hstep : step t c = some t') :
    Stands t' (lastPut c values) := by
  unfold DBOHash.step at hstep
  split_ifs at hstep with hkey
  obtain ⟨r, hcall, rfl⟩ := Option.map_eq_some_iff.mp hstep
  have hwithin := (h.right_iff hkey).mp
  by_cases hw : Within t c.key
  · obtain ⟨r', hcall', -, hstands⟩ := h.call hkey hw
    rw [hcall] at hcall'
    cases hcall'
    exact hstands
  · rw [call_none hw] at hcall
    cases hcall

/-- **The run lemma.** -/
theorem stands_run {hashSize : Nat} {hpos : 0 < hashSize} {memory : Nat → Slot V}
    {calls : List (Call V)} (hrun : run step (watches hashSize hpos memory) calls = some t) :
    Stands t (DBOHash.values calls) := by
  induction calls using List.reverseRecOn generalizing t with
  | nil =>
    cases hrun
    exact stands_watches hpos memory
  | append_singleton calls c ih =>
    rw [run_concat] at hrun
    obtain ⟨m, hm, hstep⟩ := Option.bind_eq_some_iff.mp hrun
    unfold DBOHash.values
    rw [List.foldl_append]
    exact (ih hm).step hstep

/-- Each call of the sequence returns, and `get` with the right value. -/
def AllRight {hashSize : Nat} (hpos : 0 < hashSize) (memory : Nat → Slot V)
    (calls : List (Call V)) : Prop :=
  ∀ before c after, calls = before ++ c :: after →
    ∃ t, run step (watches hashSize hpos memory) before = some t ∧
      Right t (DBOHash.values before) c

/-- Each search of the sequence meets the key or an empty slot in time. -/
def AllWithin {hashSize : Nat} (hpos : 0 < hashSize) (memory : Nat → Slot V)
    (calls : List (Call V)) : Prop :=
  ∀ before c after t, calls = before ++ c :: after →
    run step (watches hashSize hpos memory) before = some t → Within t c.key

theorem AllWithin.returns {hashSize : Nat} {hpos : 0 < hashSize} {memory : Nat → Slot V}
    {calls later : List (Call V)} (h : AllWithin hpos memory (calls ++ later))
    (hkeys : ∀ c ∈ calls, 0 ≤ c.key) :
    ∃ t, run step (watches hashSize hpos memory) calls = some t := by
  induction calls using List.reverseRecOn generalizing later with
  | nil => exact ⟨_, rfl⟩
  | append_singleton calls c ih =>
    rw [List.append_assoc] at h
    obtain ⟨m, hm⟩ := ih h fun c hc => hkeys c (List.mem_append_left _ hc)
    have hkey := hkeys c (List.mem_append_right _ List.mem_cons_self)
    obtain ⟨r, hcall, -⟩ := (stands_run hm).call hkey (h calls c later m rfl hm)
    refine ⟨r.1, ?_⟩
    rw [run_concat, hm, Option.bind_some]
    unfold DBOHash.step
    rw [if_pos hkey, hcall, Option.map_some]

/-- **The calls on the watch table do right just when the searches are within their limit.** -/
theorem watches_right_iff {hashSize : Nat} (hpos : 0 < hashSize) (memory : Nat → Slot V)
    {calls : List (Call V)} (hkeys : ∀ c ∈ calls, 0 ≤ c.key) :
    AllRight hpos memory calls ↔ AllWithin hpos memory calls := by
  have hmem : ∀ before c after, calls = before ++ c :: after → 0 ≤ c.key := by
    intro before c after heq
    apply hkeys
    rw [heq]
    exact List.mem_append_right _ List.mem_cons_self
  constructor
  · intro h before c after t heq hrun
    obtain ⟨t', hrun', hright⟩ := h before c after heq
    rw [hrun] at hrun'
    cases hrun'
    exact ((stands_run hrun).right_iff (hmem before c after heq)).mp hright
  · intro h before c after heq
    subst heq
    obtain ⟨t, hrun⟩ := h.returns fun c hc => hkeys c (List.mem_append_left _ hc)
    refine ⟨t, hrun, ?_⟩
    exact ((stands_run hrun).right_iff (hmem before c after rfl)).mpr (h before c after t rfl hrun)

/-! ## Wearing the table out -/

theorem search_eq_missing (hempty : t.cell (hashCode t.capacity key) = .empty) :
    t.search key = .missing (hashCode t.capacity key) := by
  rw [t.search_eq, ← probe_zero]
  apply search_empty
  rw [probe_zero]
  exact hempty

theorem search_eq_found (hused : t.cell (hashCode t.capacity key) = .used key) :
    t.search key = .found (hashCode t.capacity key) := by
  rw [t.search_eq, ← probe_zero]
  apply search_used
  rw [probe_zero]
  exact hused

/-- The key is put and removed. -/
def visit (key : Int) (v : V) : List (Call V) := [.put key v, .remove key]

theorem step_put (hkey : 0 ≤ key) (hsearch : t.search key = .missing p) (v : V) :
    step t (.put key v) = some ((t.putSlot p key v).setCount (t.count + 1)) := by
  have hcall : call t (.put key v) = some ((t.putSlot p key v).setCount (t.count + 1), none) := by
    unfold call put
    simp only [hsearch, Option.map_some, putAt_missing (search_missing_slot hsearch).2]
  have hkey' : 0 ≤ (Call.put key v).key := hkey
  unfold step
  rw [if_pos hkey', hcall, Option.map_some]

theorem step_remove (hkey : 0 ≤ key) (hsearch : t.search key = .found p) :
    step t (.remove key) = some ((t.deleteSlot p).setCount (t.count - 1)) := by
  have hcall : call t (.remove key) = some ((t.deleteSlot p).setCount (t.count - 1), none) := by
    unfold call remove
    simp only [hsearch, Option.map_some]
  have hkey' : 0 ≤ (Call.remove (V := V) key).key := hkey
  unfold step
  rw [if_pos hkey', hcall, Option.map_some]

/-- **What a key leaves behind**: its slot is not empty any more. -/
theorem wear (hkey : 0 ≤ key) (hlegal : t.Legal key)
    (hempty : t.cell (hashCode t.capacity key) = .empty) (v : V) :
    ∃ t', run step t (visit key v) = some t' ∧ t'.capacity = t.capacity ∧
      t'.emptyKey = t.emptyKey ∧ t'.deletedKey = t.deletedKey ∧
      t'.cell = Function.update t.cell (hashCode t.capacity key) .deleted := by
  have hput := step_put hkey (search_eq_missing hempty) v
  obtain ⟨m, hm⟩ : ∃ m, m = (t.putSlot (hashCode t.capacity key) key v).setCount (t.count + 1) :=
    ⟨_, rfl⟩
  rw [← hm] at hput
  have hcapacity : m.capacity = t.capacity := by
    rw [hm]
    rfl
  have hcell : m.cell = Function.update t.cell (hashCode t.capacity key) (.used key) := by
    rw [hm, cell_setCount]
    exact t.cell_putSlot hlegal _ v
  have hused : m.cell (hashCode m.capacity key) = .used key := by
    rw [hcapacity, hcell, Function.update_self]
  refine ⟨(m.deleteSlot (hashCode m.capacity key)).setCount (m.count - 1), ?_, hcapacity, ?_, ?_,
    ?_⟩
  · unfold visit
    rw [run_cons, hput, Option.bind_some, run_cons, step_remove hkey (search_eq_found hused),
      Option.bind_some]
    rfl
  · show m.emptyKey = t.emptyKey
    rw [hm]
    rfl
  · show m.deletedKey = t.deletedKey
    rw [hm]
    rfl
  · rw [cell_setCount, cell_deleteSlot, hcell, hcapacity, Function.update_idem]

/-- Many keys, one after the other. -/
theorem wear_all {keys : List Int} (v : V) (hkeys : ∀ key ∈ keys, 0 ≤ key ∧ t.Legal key)
    (hnodup : (keys.map (hashCode t.capacity)).Nodup)
    (hempty : ∀ key ∈ keys, t.cell (hashCode t.capacity key) = .empty) :
    ∃ t', run step t (keys.flatMap fun key => visit key v) = some t' ∧ t'.capacity = t.capacity ∧
      ∀ key ∈ keys, t'.cell (hashCode t.capacity key) = .deleted := by
  suffices h : ∃ t', run step t (keys.flatMap fun key => visit key v) = some t' ∧
      t'.capacity = t.capacity ∧ (∀ key ∈ keys, t'.cell (hashCode t.capacity key) = .deleted) ∧
      ∀ p, t.cell p = .deleted → t'.cell p = .deleted by
    obtain ⟨t', hrun, hcapacity, hdeleted, -⟩ := h
    exact ⟨t', hrun, hcapacity, hdeleted⟩
  induction keys generalizing t with
  | nil => exact ⟨t, rfl, rfl, fun _ hmem => absurd hmem List.not_mem_nil, fun _ hp => hp⟩
  | cons key keys ih =>
    obtain ⟨hkey, hlegal⟩ := hkeys key List.mem_cons_self
    obtain ⟨m, hrun, hcapacity, hemptyKey, hdeletedKey, hcell⟩ :=
      wear hkey hlegal (hempty key List.mem_cons_self) v
    rw [List.map_cons, List.nodup_cons] at hnodup
    -- the slots of the other keys are still empty
    have hrest : ∀ k ∈ keys, m.cell (hashCode m.capacity k) = .empty := by
      intro k hk
      have hne : hashCode t.capacity k ≠ hashCode t.capacity key := by
        intro heq
        exact hnodup.1 (heq ▸ List.mem_map_of_mem hk)
      rw [hcapacity, hcell, Function.update_of_ne hne]
      exact hempty k (List.mem_cons_of_mem _ hk)
    have hlegal' : ∀ k ∈ keys, 0 ≤ k ∧ m.Legal k := by
      intro k hk
      obtain ⟨hpos, hne, hne'⟩ := hkeys k (List.mem_cons_of_mem _ hk)
      exact ⟨hpos, hemptyKey.symm ▸ hne, hdeletedKey.symm ▸ hne'⟩
    obtain ⟨t', hrun', hcapacity', hdeleted, hkept⟩ :=
      ih hlegal' (by rw [hcapacity]; exact hnodup.2) hrest
    refine ⟨t', ?_, hcapacity'.trans hcapacity, ?_, fun p hp => hkept p ?_⟩
    · rw [List.flatMap_cons, run_append, hrun, Option.bind_some]
      exact hrun'
    · rw [hcapacity] at hdeleted
      refine List.forall_mem_cons.mpr ⟨hkept _ ?_, hdeleted⟩
      rw [hcell, Function.update_self]
    · rw [hcell, Function.update_apply]
      split_ifs
      · rfl
      · exact hp

/-- A table in which all slots on the way are deleted. -/
theorem not_within (h : ∀ n < hashMaxIterations, t.cell (probe t.capacity key n) = .deleted) :
    ¬ Within t key := by
  rintro ⟨n, hn, hempty | hused⟩
  · rw [h n hn] at hempty
    cases hempty
  · rw [h n hn] at hused
    cases hused

/-- **All slots on the way of a key are worn**, by keys whose first slots they are. -/
theorem not_within_worn {hashSize : Nat} {hpos : 0 < hashSize} {memory : Nat → Slot V}
    {keys : List Int} (v : V) (hkeys : ∀ k ∈ keys, 0 ≤ k)
    (hslots : keys.map (hashCode hashSize) = (List.range hashMaxIterations).map (probe hashSize key))
    (hnodup : (keys.map (hashCode hashSize)).Nodup) :
    ∃ t, run step (watches hashSize hpos memory) (keys.flatMap fun k => visit k v) = some t ∧
      ¬ Within t key := by
  have hlegal : ∀ k ∈ keys, 0 ≤ k ∧ (watches hashSize hpos memory).Legal k := by
    intro k hk
    exact ⟨hkeys k hk, (stands_watches hpos memory).legal (hkeys k hk)⟩
  have hempty : ∀ k ∈ keys, (watches hashSize hpos memory).cell (hashCode hashSize k) = .empty := by
    intro k _
    apply cell_init
    exact Nat.mod_lt _ hpos
  obtain ⟨t, hrun, hcapacity, hdeleted⟩ := wear_all v hlegal hnodup hempty
  refine ⟨t, hrun, not_within fun n hn => ?_⟩
  have hcapacity' : t.capacity = hashSize := hcapacity
  have hmem : probe hashSize key n ∈ keys.map (hashCode hashSize) := by
    rw [hslots]
    exact List.mem_map_of_mem (List.mem_range.mpr hn)
  obtain ⟨k, hk, heq⟩ := List.mem_map.mp hmem
  rw [hcapacity', ← heq]
  exact hdeleted k hk

/-- There is never more than one live key. -/
theorem liveKeys_visits (v : V) (keys : List Int) {before : List (Call V)}
    (hbefore : before <+: keys.flatMap fun key => visit key v) : (liveKeys before).card ≤ 1 := by
  induction keys generalizing before with
  | nil =>
    rw [List.prefix_nil.mp hbefore]
    exact Nat.zero_le 1
  | cons key keys ih =>
    have hcases : before = [] ∨ before = [.put key v] ∨
        ∃ later, before = visit key v ++ later ∧
          later <+: keys.flatMap fun key => visit key v := by
      rw [List.flatMap_cons] at hbefore
      unfold visit at hbefore ⊢
      rcases List.prefix_cons_iff.mp hbefore with rfl | ⟨rest, rfl, hrest⟩
      · exact Or.inl rfl
      · rcases List.prefix_cons_iff.mp hrest with rfl | ⟨later, rfl, hlater⟩
        · exact Or.inr (Or.inl rfl)
        · exact Or.inr (Or.inr ⟨later, rfl, hlater⟩)
    rcases hcases with rfl | rfl | ⟨later, rfl, hlater⟩
    · exact Nat.zero_le 1
    · exact Nat.le_refl 1
    · have hsame : liveKeys (visit key v ++ later) = liveKeys later := by
        have herase : (insert key (∅ : Finset Int)).erase key = ∅ :=
          Finset.erase_insert (Finset.notMem_empty key)
        unfold liveKeys visit
        rw [List.cons_append, List.cons_append, List.nil_append, List.foldl_cons, List.foldl_cons]
        simp only [herase]
      rw [hsame]
      exact ih hlater

end

/-! ## A hundred watches come and go -/

theorem hashSize_pos : 0 < 30851 := by decide

/-- Descriptors whose first slots are the slots on the way of the descriptor 0. -/
def wearing : List Int :=
  [59433, 4566, 3343, 6701, 4752, 3951, 37323, 32580, 50660, 16049, 36955, 50297, 10310, 10052,
    28550, 8361, 30131, 57004, 22393, 4385, 43922, 19818, 1810, 15770, 22809, 53372, 14151, 26525,
    1644, 67056, 44640, 8154, 10029, 25120, 11160, 82604, 9171, 29876, 4377, 13763, 10887, 11814,
    56759, 7766, 105, 27830, 45910, 25263, 45020, 2114, 38585, 1055, 38222, 20229, 34189, 22364,
    34261, 102780, 29156, 32312, 16437, 75566, 17198, 41115, 3077, 54452, 3782, 27590, 30292, 1833,
    11183, 1218, 41673, 14174, 30708, 57170, 26660, 1052, 5442, 25631, 1394, 19474, 30024, 52846,
    11896, 30632, 12851, 35022, 67222, 15842, 34036, 15479, 73022, 16028, 90519, 17262, 20620,
    6898, 22201, 14177]

theorem map_wearing :
    wearing.map (hashCode 30851) = (List.range hashMaxIterations).map (probe 30851 0) := by
  decide +kernel

theorem nodup_wearing : (wearing.map (hashCode 30851)).Nodup := by decide +kernel

theorem wearing_nonneg : ∀ key ∈ wearing, 0 ≤ key := by decide

/-- One watch. -/
theorem right_oneWatch : AllRight hashSize_pos (fun _ => Slot.mk 0 ()) [.put 1 ()] := by
  have hkeys : ∀ c ∈ [Call.put 1 ()], 0 ≤ c.key := by decide
  refine (watches_right_iff hashSize_pos _ hkeys).mpr fun before c after t heq hrun => ?_
  have hbefore : before = [] ∧ c = .put 1 () := by
    cases before with
    | nil => exact ⟨rfl, (List.cons.inj heq).1.symm⟩
    | cons first before => cases before <;> cases heq
  obtain ⟨rfl, rfl⟩ := hbefore
  cases hrun
  refine ⟨0, by decide, Or.inl ?_⟩
  apply cell_init
  exact probe_lt _ _ _

/-- There is never more than one live key, and the next one cannot be put. -/
theorem not_right_worn : ¬ ∀ (hashSize : Nat) (hpos : 0 < hashSize) (memory : Nat → Slot Unit)
    (calls : List (Call Unit)), 30851 ≤ hashSize → (∀ c ∈ calls, 0 ≤ c.key) →
      (∀ before, before <+: calls → (liveKeys before).card * 5 ≤ hashSize) →
      AllRight hpos memory calls := by
  intro hall
  obtain ⟨t, hrun, hnot⟩ := @not_within_worn _ _ _ hashSize_pos (fun _ => ⟨0, ()⟩) _
    () wearing_nonneg map_wearing nodup_wearing
  generalize hvisits : wearing.flatMap (fun key => visit key ()) = visits at hrun
  have hkeys : ∀ c ∈ visits ++ [Call.put 0 ()], 0 ≤ c.key := by
    intro c hc
    rcases List.mem_append.mp hc with hvisit | hput
    · rw [← hvisits] at hvisit
      obtain ⟨key, hkey, hc⟩ := List.mem_flatMap.mp hvisit
      have hnonneg := wearing_nonneg key hkey
      rcases List.mem_cons.mp hc with rfl | hc
      · exact hnonneg
      · rw [List.mem_singleton.mp hc]
        exact hnonneg
    · rw [List.mem_singleton.mp hput]
      exact Int.le_refl 0
  have hfew : ∀ before, before <+: visits ++ [Call.put 0 ()] →
      (liveKeys before).card * 5 ≤ 30851 := by
    intro before hbefore
    have hcard : ∀ before, before <+: visits → (liveKeys before).card ≤ 1 := by
      intro before hbefore
      rw [← hvisits] at hbefore
      exact liveKeys_visits () wearing hbefore
    rcases List.prefix_concat_iff.mp hbefore with rfl | hbefore
    · have hlast := hcard visits List.prefix_rfl
      have hput : (liveKeys (visits ++ [Call.put 0 ()])).card ≤ (liveKeys visits).card + 1 := by
        unfold liveKeys
        rw [List.foldl_append]
        exact Finset.card_insert_le _ _
      omega
    · have hone := hcard before hbefore
      omega
  have hright := hall 30851 hashSize_pos (fun _ => ⟨0, ()⟩) _ (Nat.le_refl _) hkeys hfew
  obtain ⟨t', hrun', hlast⟩ := hright visits (.put 0 ()) [] rfl
  rw [hrun] at hrun'
  cases hrun'
  exact hnot (((stands_run hrun).right_iff (c := .put 0 ()) (Int.le_refl 0)).mp hlast)

end DBOHash

end MediaTomb
