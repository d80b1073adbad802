/-
  The slots of an `AutoscanList` over any sequence of calls.

  Everything is said of `slotAt list i`, so that an empty slot and a slot that is not there need not be
  told apart.  Adding fills one slot, removing clears some, and a call touches the scan ids of these
  directories only: so the scan ids stay slot numbers and the locations distinct in EVERY run.

  What does not hold in every run is that nobody touches an empty slot.  `Careful` is the exact
  condition: `remove(id)` is not called for an empty slot, nor `getArrayCopy` while there is one.
-/
import MediaTomb.Content.AutoscanList

namespace MediaTomb.AutoscanList

open Lib.Machine

section

variable {h h' : Heap} {list list' : Slots} {d e i j k : Nat} {failure : Failure}

/-! ## Slots -/

/-- The directory in the slot. -/
def slotAt (list : Slots) (i : Nat) : Option Nat := (list[i]?).join

theorem slotAt_nil : slotAt [] i = none := rfl

theorem slotAt_cons_zero {slot : Option Nat} : slotAt (slot :: list) 0 = slot := by
  cases slot with
  | none => rfl
  | some d => rfl

theorem slotAt_cons_succ {slot : Option Nat} : slotAt (slot :: list) (i + 1) = slotAt list i := rfl

theorem slotAt_outside (hi : list.length ≤ i) : slotAt list i = none := by
  unfold slotAt
  rw [List.getElem?_eq_none hi]
  rfl

theorem lt_of_slotAt (hi : slotAt list i = some d) : i < list.length := by
  by_contra hnot
  rw [slotAt_outside (Nat.not_lt.mp hnot)] at hi
  cases hi

theorem mem_iff_slotAt : some d ∈ list ↔ ∃ i, slotAt list i = some d := by
  constructor
  · intro hmem
    obtain ⟨i, hi, hget⟩ := List.mem_iff_getElem.mp hmem
    refine ⟨i, ?_⟩
    unfold slotAt
    rw [List.getElem?_eq_getElem hi, hget]
    rfl
  · rintro ⟨i, hi⟩
    have hlt := lt_of_slotAt hi
    unfold slotAt at hi
    rw [List.getElem?_eq_getElem hlt, Option.join_some] at hi
    rw [← hi]
    exact List.getElem_mem hlt

theorem slotAt_set {slot : Option Nat} (hi : i < list.length) (j : Nat) :
    slotAt (list.set i slot) j = if j = i then slot else slotAt list j := by
  unfold slotAt
  split_ifs with heq
  · rw [heq, List.getElem?_set_self hi, Option.join_some]
  · rw [List.getElem?_set_ne (Ne.symm heq)]

theorem slotAt_append {slot : Option Nat} (j : Nat) :
    slotAt (list ++ [slot]) j = if j = list.length then slot else slotAt list j := by
  unfold slotAt
  split_ifs with heq
  · rw [heq, List.getElem?_append_right (Nat.le_refl _), Nat.sub_self, List.getElem?_cons_zero,
      Option.join_some]
  · rcases Nat.lt_or_ge j list.length with hlt | hge
    · rw [List.getElem?_append_left hlt]
    · rw [List.getElem?_eq_none (by rw [List.length_append, List.length_singleton]; omega),
        List.getElem?_eq_none hge]

theorem slotAt_clearSlot (hi : i < list.length) (j : Nat) :
    slotAt (clearSlot list i) j = if j = i then none else slotAt list j := by
  unfold clearSlot
  split_ifs with hlast heq heq
  · -- the last slot goes away
    rcases List.eq_nil_or_concat list with rfl | ⟨init, slot, rfl⟩
    · cases hi
    · rw [List.concat_eq_append, List.length_append, List.length_singleton] at hlast
      have hlen : i = init.length := by omega
      rw [List.concat_eq_append, heq, hlen, ArrayBase.removeUnordered_last]
      exact slotAt_outside (Nat.le_refl _)
  · rcases List.eq_nil_or_concat list with rfl | ⟨init, slot, rfl⟩
    · cases hi
    · rw [List.concat_eq_append, List.length_append, List.length_singleton] at hlast
      have hlen : i = init.length := by omega
      rw [List.concat_eq_append, hlen, ArrayBase.removeUnordered_last, slotAt_append,
        if_neg (hlen ▸ heq)]
  · rw [slotAt_set hi, if_pos heq]
  · rw [slotAt_set hi, if_neg heq]

/-! ## The heap -/

theorem dir_setScanID (id : Int) (e : Nat) :
    (h.setScanID d id).dir e = if e = d then { h.dir d with scanID := id } else h.dir e := by
  show Function.update h.dir d _ e = _
  rw [Function.update_apply]

theorem dir_setScanID_self (id : Int) :
    (h.setScanID d id).dir d = { h.dir d with scanID := id } := by
  rw [dir_setScanID, if_pos rfl]

theorem dir_setScanID_ne {id : Int} (hne : e ≠ d) : (h.setScanID d id).dir e = h.dir e := by
  rw [dir_setScanID, if_neg hne]

theorem location_setScanID (id : Int) (e : Nat) :
    ((h.setScanID d id).dir e).location = (h.dir e).location := by
  rw [dir_setScanID]
  split_ifs with heq
  · rw [heq]
  · rfl

theorem dir_copyTo_ne (hne : e ≠ h.next) : (h.copyTo d).dir e = h.dir e :=
  Function.update_of_ne hne _ _

theorem dir_copyTo_self : (h.copyTo d).dir h.next = h.dir d := Function.update_self _ _ _

/-! ## Adding -/

/-- The slot found is empty, and no directory has the location. -/
theorem nilIndex_ok {loc : Option Str} {nil r : Option Nat}
    (hok : nilIndex h loc i nil list = .ok r) :
    (∀ d, some d ∈ list → loc ≠ (h.dir d).location) ∧
      (r = nil ∨ ∃ k, r = some (i + k) ∧ list[k]? = some none) := by
  induction list generalizing i nil with
  | nil =>
    cases hok
    exact ⟨fun d hd => (nomatch hd), Or.inl rfl⟩
  | cons slot rest ih =>
    cases slot with
    | none =>
      obtain ⟨hloc, hr⟩ := ih hok
      refine ⟨fun d hd => hloc d ?_, Or.inr ?_⟩
      · rcases List.mem_cons.mp hd with heq | hmem
        · cases heq
        · exact hmem
      · rcases hr with rfl | ⟨k, rfl, hk⟩
        · exact ⟨0, rfl, rfl⟩
        · exact ⟨k + 1, congrArg some (by omega), hk⟩
    | some d =>
      unfold nilIndex at hok
      split_ifs at hok with hsame
      obtain ⟨hloc, hr⟩ := ih hok
      refine ⟨fun e he => ?_, ?_⟩
      · rcases List.mem_cons.mp he with heq | hmem
        · cases heq
          exact hsame
        · exact hloc e hmem
      · rcases hr with rfl | ⟨k, rfl, hk⟩
        · exact Or.inl rfl
        · exact Or.inr ⟨k + 1, congrArg some (by omega), hk⟩

theorem nilIndex_error {loc : Option Str} {nil : Option Nat}
    (herr : nilIndex h loc i nil list = .error failure) :
    failure = .throws ∧ ∃ d, some d ∈ list ∧ loc = (h.dir d).location := by
  induction list generalizing i nil with
  | nil => cases herr
  | cons slot rest ih =>
    cases slot with
    | none =>
      obtain ⟨hthrows, d, hd, hloc⟩ := ih herr
      exact ⟨hthrows, d, List.mem_cons_of_mem _ hd, hloc⟩
    | some d =>
      unfold nilIndex at herr
      split_ifs at herr with hsame
      · cases herr
        exact ⟨rfl, d, List.mem_cons_self, hsame⟩
      · obtain ⟨hthrows, e, he, hloc⟩ := ih herr
        exact ⟨hthrows, e, List.mem_cons_of_mem _ he, hloc⟩

/-- **What `_add` does**: one empty slot is filled. -/
theorem add_ok (hok : add_ h list d = .ok (h', list')) :
    ∃ k : Nat, h' = h.setScanID d k ∧ slotAt list k = none ∧
      (∀ j, slotAt list' j = if j = k then some d else slotAt list j) ∧
      ∀ e, some e ∈ list → (h.dir d).location ≠ (h.dir e).location := by
  unfold add_ at hok
  split at hok
  · cases hok
  · next k hfound =>
    cases hok
    obtain ⟨hloc, hr⟩ := nilIndex_ok hfound
    rcases hr with hnone | ⟨k', heq, hk'⟩
    · cases hnone
    · rw [Nat.zero_add] at heq
      cases heq
      obtain ⟨hlt, -⟩ := List.getElem?_eq_some_iff.mp hk'
      refine ⟨k, rfl, ?_, fun j => slotAt_set hlt j, hloc⟩
      unfold slotAt
      rw [hk']
      rfl
  · next hfound =>
    cases hok
    exact ⟨list.length, rfl, slotAt_outside (Nat.le_refl _), fun j => slotAt_append j,
      (nilIndex_ok hfound).1⟩

theorem add_error (herr : add_ h list d = .error failure) :
    failure = .throws ∧ ∃ e, some e ∈ list ∧ (h.dir d).location = (h.dir e).location := by
  unfold add_ at herr
  split at herr
  · next hfound =>
    cases herr
    exact nilIndex_error hfound
  · cases herr
  · cases herr

/-! ## Sound lists -/

/-- **The invariant.** -/
structure Sound (h : Heap) (list : Slots) : Prop where
  scanID : ∀ i d, slotAt list i = some d → (h.dir d).scanID = i
  distinct : ∀ i j d e, slotAt list i = some d → slotAt list j = some e →
    (h.dir d).location = (h.dir e).location → i = j
  known : ∀ i d, slotAt list i = some d → d < h.next

theorem sound_nil (h : Heap) : Sound h [] :=
  ⟨fun _ _ hi => (nomatch hi), fun _ _ _ _ hi => (nomatch hi), fun _ _ hi => (nomatch hi)⟩

/-- A directory is in one slot only. -/
theorem Sound.once (hs : Sound h list) (hi : slotAt list i = some d) (hj : slotAt list j = some d) :
    i = j := hs.distinct i j d d hi hj rfl

/-- The directory is in the list, or knows that it is not. -/
def Tracked (h : Heap) (list : Slots) (d : Nat) : Prop :=
  (∃ i, slotAt list i = some d) ∨ (h.dir d).scanID = invalidScanID

/-- A call may change nothing but this: what was tracked is still. -/
structure Keeps (h : Heap) (list : Slots) (h' : Heap) (list' : Slots) : Prop where
  sound : Sound h' list'
  tracked : ∀ d < h.next, Tracked h list d → Tracked h' list' d
  next : h.next ≤ h'.next

theorem Sound.keeps (hs : Sound h list) : Keeps h list h list :=
  ⟨hs, fun _ _ htracked => htracked, Nat.le_refl _⟩

theorem Sound.add (hs : Sound h list) (hd : d < h.next) (hok : add_ h list d = .ok (h', list')) :
    Keeps h list h' list' := by
  obtain ⟨k, rfl, hempty, hat, hloc⟩ := add_ok hok
  -- `d` was in no slot, since it has its own location
  have hnew : ∀ i e, slotAt list i = some e → e ≠ d := by
    rintro i e hi rfl
    exact hloc e (mem_iff_slotAt.mpr ⟨i, hi⟩) rfl
  have hcases : ∀ i e, slotAt list' i = some e →
      (i = k ∧ e = d) ∨ (i ≠ k ∧ slotAt list i = some e ∧ e ≠ d) := by
    intro i e hi
    rw [hat] at hi
    split_ifs at hi with heq
    · cases hi
      exact Or.inl ⟨heq, rfl⟩
    · exact Or.inr ⟨heq, hi, hnew i e hi⟩
  refine ⟨⟨fun i e hi => ?_, fun i j e e' hi hj hsame => ?_, fun i e hi => ?_⟩,
    fun e he htracked => ?_, Nat.le_refl _⟩
  · rcases hcases i e hi with ⟨rfl, rfl⟩ | ⟨-, hold, hne⟩
    · rw [dir_setScanID_self]
    · rw [dir_setScanID_ne hne]
      exact hs.scanID i e hold
  · rw [location_setScanID, location_setScanID] at hsame
    rcases hcases i e hi with ⟨rfl, rfl⟩ | ⟨-, hold, -⟩
    · rcases hcases j e' hj with ⟨rfl, -⟩ | ⟨-, hold', -⟩
      · rfl
      · exact absurd hsame (hloc e' (mem_iff_slotAt.mpr ⟨j, hold'⟩))
    · rcases hcases j e' hj with ⟨rfl, rfl⟩ | ⟨-, hold', -⟩
      · exact absurd hsame.symm (hloc e (mem_iff_slotAt.mpr ⟨i, hold⟩))
      · exact hs.distinct i j e e' hold hold' hsame
  · rcases hcases i e hi with ⟨-, rfl⟩ | ⟨-, hold, -⟩
    · exact hd
    · exact hs.known i e hold
  · by_cases heq : e = d
    · refine Or.inl ⟨k, ?_⟩
      rw [hat, if_pos rfl, heq]
    · rcases htracked with ⟨i, hi⟩ | hinvalid
      · refine Or.inl ⟨i, ?_⟩
        have hne : i ≠ k := by
          rintro rfl
          rw [hempty] at hi
          cases hi
        rw [hat, if_neg hne, hi]
      · refine Or.inr ?_
        rw [dir_setScanID_ne heq]
        exact hinvalid

theorem Keeps.trans {h'' : Heap} {list'' : Slots} (h₁ : Keeps h list h' list')
    (h₂ : Keeps h' list' h'' list'') : Keeps h list h'' list'' :=
  ⟨h₂.sound,
    fun d hd htracked => h₂.tracked d (Nat.lt_of_lt_of_le hd h₁.next) (h₁.tracked d hd htracked),
    Nat.le_trans h₁.next h₂.next⟩

theorem Sound.addList {other : Slots} (hs : Sound h list)
    (hknown : ∀ d, some d ∈ other → d < h.next) :
    Keeps h list (addList h list other).1 (addList h list other).2.1 := by
  induction other generalizing h list with
  | nil => exact hs.keeps
  | cons slot rest ih =>
    have hrest : ∀ d, some d ∈ rest → d < h.next :=
      fun d hd => hknown d (List.mem_cons_of_mem _ hd)
    cases slot with
    | none => exact ih hs hrest
    | some d =>
      unfold AutoscanList.addList
      split
      · exact hs.keeps
      · next h' list' hok =>
        have hadd := hs.add (hknown d List.mem_cons_self) hok
        exact hadd.trans (ih hadd.sound fun e he => Nat.lt_of_lt_of_le (hrest e he) hadd.next)

theorem addList_failure (h : Heap) (list other : Slots) :
    (addList h list other).2.2 ≠ some .emptySlot := by
  induction other generalizing h list with
  | nil => exact fun hnone => (nomatch hnone)
  | cons slot rest ih =>
    cases slot with
    | none => exact ih h list
    | some d =>
      unfold addList
      split
      · next herr =>
        rw [(add_error herr).1]
        exact fun hsome => (nomatch hsome)
      · exact ih _ _

/-! ## Clearing one slot -/

theorem Sound.clear (hs : Sound h list) (hi : slotAt list i = some d) :
    Keeps h list (h.setScanID d invalidScanID) (clearSlot list i) := by
  have hat := slotAt_clearSlot (lt_of_slotAt hi)
  have hcases : ∀ j e, slotAt (clearSlot list i) j = some e → slotAt list j = some e ∧ e ≠ d := by
    intro j e hj
    rw [hat] at hj
    split_ifs at hj with heq
    refine ⟨hj, ?_⟩
    rintro rfl
    exact heq (hs.once hj hi)
  refine ⟨⟨fun j e hj => ?_, fun j j' e e' hj hj' hsame => ?_, fun j e hj => ?_⟩,
    fun e he htracked => ?_, Nat.le_refl _⟩
  · obtain ⟨hold, hne⟩ := hcases j e hj
    rw [dir_setScanID_ne hne]
    exact hs.scanID j e hold
  · rw [location_setScanID, location_setScanID] at hsame
    exact hs.distinct j j' e e' (hcases j e hj).1 (hcases j' e' hj').1 hsame
  · exact hs.known j e (hcases j e hj).1
  · by_cases heq : e = d
    · refine Or.inr ?_
      rw [heq, dir_setScanID_self]
    · rcases htracked with ⟨j, hj⟩ | hinvalid
      · refine Or.inl ⟨j, ?_⟩
        have hne : j ≠ i := by
          rintro rfl
          rw [hi] at hj
          exact heq (Option.some.inj hj).symm
        rw [hat, if_neg hne, hj]
      · refine Or.inr ?_
        rw [dir_setScanID_ne heq]
        exact hinvalid

theorem Sound.removeFirst (hs : Sound h list) (meets : Directory → Bool) :
    Keeps h list (removeFirst h list meets).1 (removeFirst h list meets).2.1 := by
  unfold AutoscanList.removeFirst
  split
  · exact hs.keeps
  · split
    · exact hs.keeps
    · next i _ d hi => exact hs.clear hi

theorem Sound.removeID {id : Int} (hs : Sound h list)
    (hok : removeID h list id = .ok (h', list')) : Keeps h list h' list' := by
  unfold AutoscanList.removeID at hok
  split_ifs at hok with hout
  · cases hok
    exact hs.keeps
  · split at hok
    · cases hok
    · next d hi =>
      cases hok
      exact hs.clear hi

/-! ## The loop of `removeIfSubdir` -/

/-- The test of `removeIfSubdir`. -/
def takes (parent : Option Str) (persistent : Bool) (dir : Directory) : Bool :=
  startsWith dir.location parent = some true && !(dir.persistent && !persistent)

/-- **What the loop does**, slot by slot. -/
structure RemovesSubdirs (parent : Option Str) (persistent : Bool) (h : Heap) (list : Slots)
    (r : Removal) : Prop where
  next : h.next ≤ r.heap.next
  others : ∀ e < h.next, (∀ i, slotAt list i ≠ some e) → r.heap.dir e = h.dir e
  empty : ∀ i, slotAt list i = none → slotAt r.slots i = none
  slot : ∀ i e, slotAt list i = some e →
    (slotAt r.slots i = some e ∧ r.heap.dir e = h.dir e) ∨
    (slotAt r.slots i = none ∧ r.heap.dir e = { h.dir e with scanID := invalidScanID } ∧
      takes parent persistent (h.dir e) = true)
  takesAll : r.failure = none → ∀ i e, slotAt list i = some e →
    takes parent persistent (h.dir e) = true → slotAt r.slots i = none
  failure : r.failure ≠ some .emptySlot

theorem removesSubdirs_nothing {parent : Option Str} {persistent : Bool} {removed : Slots}
    {failure : Option Failure} (hnext : h.next ≤ h'.next) (hdir : ∀ e < h.next, h'.dir e = h.dir e)
    (hknown : ∀ i e, slotAt list i = some e → e < h.next)
    (hall : failure = none → list = []) (hfail : failure ≠ some .emptySlot) :
    RemovesSubdirs parent persistent h list ⟨h', removed, list, failure⟩ where
  next := hnext
  others := fun e he _ => hdir e he
  empty := fun _ hi => hi
  slot := fun i e hi => Or.inl ⟨hi, hdir e (hknown i e hi)⟩
  takesAll := fun hnone i e hi _ => by
    rw [hall hnone] at hi
    cases hi
  failure := hfail

/-- A slot that is left alone. -/
theorem RemovesSubdirs.behind {parent : Option Str} {persistent : Bool} {slot : Option Nat}
    {r : Removal} (hr : RemovesSubdirs parent persistent h list r)
    (hknown : ∀ d, slot = some d → d < h.next) (honce : ∀ d, slot = some d → ∀ i, slotAt list i ≠ some d)
    (htakes : ∀ d, slot = some d → takes parent persistent (h.dir d) = false) :
    RemovesSubdirs parent persistent h (slot :: list) (r.behind slot) where
  next := hr.next
  others := fun e he hout => hr.others e he fun i => hout (i + 1)
  empty := fun i hi => by
    cases i with
    | zero => exact hi
    | succ i => exact hr.empty i hi
  slot := fun i e hi => by
    cases i with
    | zero =>
      rw [slotAt_cons_zero] at hi
      refine Or.inl ⟨?_, hr.others e (hknown e hi) (honce e hi)⟩
      rw [hi]
      exact slotAt_cons_zero
    | succ i => exact hr.slot i e hi
  takesAll := fun hnone i e hi htake => by
    cases i with
    | zero =>
      rw [slotAt_cons_zero] at hi
      rw [htakes e hi] at htake
      cases htake
    | succ i => exact hr.takesAll hnone i e hi htake
  failure := hr.failure

/-- A slot that is cleared; what comes after it is done on another heap. -/
theorem RemovesSubdirs.taken {parent : Option Str} {persistent : Bool} {r r' : Removal}
    (hr : RemovesSubdirs parent persistent h' list r) (hnext : h.next ≤ h'.next) (hd : d < h.next)
    (hself : h'.dir d = { h.dir d with scanID := invalidScanID })
    (hrest : ∀ e < h.next, e ≠ d → h'.dir e = h.dir e) (honce : ∀ i, slotAt list i ≠ some d)
    (hknown : ∀ i e, slotAt list i = some e → e < h.next)
    (htakes : takes parent persistent (h.dir d) = true)
    (hheap : r'.heap = r.heap) (hfail : r'.failure = r.failure)
    (hslots : ∀ i, slotAt r'.slots i = slotAt (none :: r.slots) i) :
    RemovesSubdirs parent persistent h (some d :: list) r' where
  next := by
    rw [hheap]
    exact Nat.le_trans hnext hr.next
  others := fun e he hout => by
    have hne : e ≠ d := by
      rintro rfl
      exact hout 0 rfl
    rw [hheap, hr.others e (Nat.lt_of_lt_of_le he hnext) fun i => hout (i + 1)]
    exact hrest e he hne
  empty := fun i hi => by
    rw [hslots]
    cases i with
    | zero => rfl
    | succ i => exact hr.empty i hi
  slot := fun i e hi => by
    rw [hslots, hheap]
    cases i with
    | zero =>
      cases hi
      refine Or.inr ⟨rfl, ?_, htakes⟩
      rw [hr.others d (Nat.lt_of_lt_of_le hd hnext) honce, hself]
    | succ i =>
      have hne : e ≠ d := by
        rintro rfl
        exact honce i hi
      rw [← hrest e (hknown i e hi) hne]
      exact hr.slot i e hi
  takesAll := fun hnone i e hi htake => by
    rw [hslots]
    rw [hfail] at hnone
    cases i with
    | zero => rfl
    | succ i =>
      have hne : e ≠ d := by
        rintro rfl
        exact honce i hi
      rw [← hrest e (hknown i e hi) hne] at htake
      exact hr.takesAll hnone i e hi htake
  failure := by
    rw [hfail]
    exact hr.failure

theorem removesSubdirs {parent : Option Str} {persistent : Bool} {removed : Slots}
    (hknown : ∀ i e, slotAt list i = some e → e < h.next)
    (honce : ∀ i j e, slotAt list i = some e → slotAt list j = some e → i = j) :
    RemovesSubdirs parent persistent h list (removeIfSubdir parent persistent h removed list) := by
  induction list generalizing h removed with
  | nil =>
    exact removesSubdirs_nothing (Nat.le_refl _) (fun _ _ => rfl) hknown (fun _ => rfl)
      fun hsome => (nomatch hsome)
  | cons slot rest ih =>
    have hknown' : ∀ i e, slotAt rest i = some e → e < h.next := fun i e hi => hknown (i + 1) e hi
    have honce' : ∀ i j e, slotAt rest i = some e → slotAt rest j = some e → i = j := by
      intro i j e hi hj
      exact Nat.succ.inj (honce (i + 1) (j + 1) e hi hj)
    cases slot with
    | none =>
      exact (ih hknown' honce').behind (fun d hd => (nomatch hd)) (fun d hd => (nomatch hd))
        fun d hd => (nomatch hd)
    | some d =>
      have hd : d < h.next := hknown 0 d rfl
      have hfront : ∀ i, slotAt rest i ≠ some d := fun i hi => nomatch honce 0 (i + 1) d rfl hi
      -- the slot is left alone
      have hleave : takes parent persistent (h.dir d) = false → RemovesSubdirs parent persistent h
          (some d :: rest) ((removeIfSubdir parent persistent h removed rest).behind (some d)) := by
        intro hfalse
        refine (ih hknown' honce').behind (fun e he => ?_) (fun e he => ?_) fun e he => ?_
        · cases he
          exact hd
        · cases he
          exact hfront
        · cases he
          exact hfalse
      unfold removeIfSubdir
      split
      · exact removesSubdirs_nothing (Nat.le_refl _) (fun _ _ => rfl) hknown
          (fun hsome => nomatch hsome) fun hsome => (nomatch hsome)
      · next hstarts =>
        apply hleave
        unfold takes
        rw [hstarts]
        rfl
      · next hstarts =>
        split_ifs with hpersistent
        · apply hleave
          unfold takes
          rw [hpersistent, Bool.not_true, Bool.and_false]
        · have htakes : takes parent persistent (h.dir d) = true := by
            unfold takes
            rw [hstarts, eq_false_of_ne_true hpersistent]
            rfl
          split
          · next failure herr =>
            rw [(add_error herr).1]
            exact removesSubdirs_nothing (Nat.le_succ _)
              (fun e he => dir_copyTo_ne (Nat.ne_of_lt he)) hknown (fun hsome => nomatch hsome)
              fun hsome => (nomatch hsome)
          · next h₁ removed₁ hok =>
            obtain ⟨k, rfl, -, -, -⟩ := add_ok hok
            have hne : d ≠ h.next := Nat.ne_of_lt hd
            -- the heap on which the loop goes on
            generalize hlater : ((Heap.setScanID ((h.copyTo d).setScanID h.next k) h.next
              (((h.copyTo d).setScanID h.next k).dir d).scanID).setScanID d invalidScanID) = h₂
            have hnext : h.next ≤ h₂.next := by
              rw [← hlater]
              exact Nat.le_succ _
            have hself : h₂.dir d = { h.dir d with scanID := invalidScanID } := by
              rw [← hlater, dir_setScanID_self, dir_setScanID_ne hne, dir_setScanID_ne hne,
                dir_copyTo_ne hne]
            have hothers : ∀ e < h.next, e ≠ d → h₂.dir e = h.dir e := by
              intro e he hed
              have hen : e ≠ h.next := Nat.ne_of_lt he
              rw [← hlater, dir_setScanID_ne hed, dir_setScanID_ne hen, dir_setScanID_ne hen,
                dir_copyTo_ne hen]
            have hgoes : RemovesSubdirs parent persistent h₂ rest
                (removeIfSubdir parent persistent h₂ removed₁ rest) :=
              ih (fun i e hi => Nat.lt_of_lt_of_le (hknown' i e hi) hnext) honce'
            cases rest with
            | nil =>
              refine hgoes.taken hnext hd hself hothers hfront hknown' htakes rfl rfl fun i => ?_
              cases i with
              | zero => rfl
              | succ i => rfl
            | cons next rest =>
              exact hgoes.taken hnext hd hself hothers hfront hknown' htakes rfl rfl fun _ => rfl

theorem Sound.removeIfSubdir (hs : Sound h list) (parent : Option Str) (persistent : Bool) :
    Keeps h list (removeIfSubdir parent persistent h [] list).heap
      (removeIfSubdir parent persistent h [] list).slots := by
  have hr : RemovesSubdirs parent persistent h list
      (AutoscanList.removeIfSubdir parent persistent h [] list) :=
    removesSubdirs hs.known fun i j e hi hj => hs.once hi hj
  generalize AutoscanList.removeIfSubdir parent persistent h [] list = r at hr ⊢
  have hcases : ∀ i e, slotAt r.slots i = some e → slotAt list i = some e ∧ r.heap.dir e = h.dir e := by
    intro i e hi
    cases hold : slotAt list i with
    | none =>
      rw [hr.empty i hold] at hi
      cases hi
    | some e' =>
      rcases hr.slot i e' hold with ⟨hsame, hdir⟩ | ⟨hnone, -⟩
      · rw [hi] at hsame
        cases hsame
        exact ⟨rfl, hdir⟩
      · rw [hnone] at hi
        cases hi
  refine ⟨⟨fun i e hi => ?_, fun i j e e' hi hj hsame => ?_, fun i e hi => ?_⟩,
    fun e he htracked => ?_, hr.next⟩
  · obtain ⟨hold, hdir⟩ := hcases i e hi
    rw [hdir]
    exact hs.scanID i e hold
  · obtain ⟨hold, hdir⟩ := hcases i e hi
    obtain ⟨hold', hdir'⟩ := hcases j e' hj
    rw [hdir, hdir'] at hsame
    exact hs.distinct i j e e' hold hold' hsame
  · exact Nat.lt_of_lt_of_le (hs.known i e (hcases i e hi).1) hr.next
  · by_cases hin : ∃ i, slotAt list i = some e
    · obtain ⟨i, hi⟩ := hin
      rcases hr.slot i e hi with ⟨hsame, -⟩ | ⟨-, hdir, -⟩
      · exact Or.inl ⟨i, hsame⟩
      · refine Or.inr ?_
        rw [hdir]
    · rcases htracked with hlisted | hinvalid
      · exact absurd hlisted hin
      · refine Or.inr ?_
        rw [hr.others e he fun i hi => hin ⟨i, hi⟩]
        exact hinvalid

/-! ## Which calls touch an empty slot -/

theorem getArrayCopy_error (herr : getArrayCopy list = .error failure) :
    failure = .emptySlot ∧ none ∈ list := by
  induction list with
  | nil => cases herr
  | cons slot rest ih =>
    cases slot with
    | none =>
      cases herr
      exact ⟨rfl, List.mem_cons_self⟩
    | some d =>
      unfold getArrayCopy at herr
      cases hrest : getArrayCopy rest with
      | error failure' =>
        rw [hrest] at herr
        cases herr
        obtain ⟨hempty, hmem⟩ := ih hrest
        exact ⟨hempty, List.mem_cons_of_mem _ hmem⟩
      | ok ds =>
        rw [hrest] at herr
        cases herr

theorem getArrayCopy_ok {ds : List Nat} (hok : getArrayCopy list = .ok ds) :
    list = ds.map some := by
  induction list generalizing ds with
  | nil =>
    cases hok
    rfl
  | cons slot rest ih =>
    cases slot with
    | none => cases hok
    | some d =>
      unfold getArrayCopy at hok
      cases hrest : getArrayCopy rest with
      | error failure' =>
        rw [hrest] at hok
        cases hok
      | ok ds' =>
        rw [hrest] at hok
        cases hok
        rw [ih hrest, List.map_cons]

end

namespace State

variable {s s' : State} {c : Call}

/-- **The condition**: `remove(id)` finds a directory where it looks for one, and an array is asked
    for only while no slot is empty. -/
def Careful (s : State) : Call → Prop
  | .removeID id => (id < 0 ∨ (s.list.length : Int) ≤ id) ∨ ∃ d, slotAt s.list id.toNat = some d
  | .getArrayCopy => none ∉ s.list
  | _ => True

theorem call_failure_iff (hs : Sound s.heap s.list) :
    (s.call c).2 ≠ some .emptySlot ↔ s.Careful c := by
  cases c with
  | add d =>
    refine ⟨fun _ => trivial, fun _ => ?_⟩
    unfold call
    cases hadd : add_ s.heap s.list d with
    | error failure =>
      simp only [hadd]
      rw [(add_error hadd).1]
      exact fun hsome => (nomatch hsome)
    | ok r =>
      simp only [hadd]
      exact fun hsome => (nomatch hsome)
  | addList other => exact ⟨fun _ => trivial, fun _ => addList_failure _ _ _⟩
  | removeID id =>
    unfold call Careful AutoscanList.removeID
    by_cases hout : id < 0 ∨ (s.list.length : Int) ≤ id
    · simp only [if_pos hout]
      exact ⟨fun _ => Or.inl hout, fun _ hsome => (nomatch hsome)⟩
    · simp only [if_neg hout]
      cases hslot : slotAt s.list id.toNat with
      | none =>
        have hjoin : (s.list[id.toNat]?).join = none := hslot
        simp only [hjoin]
        constructor
        · intro hne
          exact absurd rfl hne
        · rintro (hout' | ⟨d, hd⟩)
          · exact absurd hout' hout
          · cases hd
      | some d =>
        have hjoin : (s.list[id.toNat]?).join = some d := hslot
        simp only [hjoin]
        exact ⟨fun _ => Or.inr ⟨d, rfl⟩, fun _ hsome => (nomatch hsome)⟩
  | removeLocation location => exact ⟨fun _ => trivial, fun _ hsome => (nomatch hsome)⟩
  | removeByObjectID objectID => exact ⟨fun _ => trivial, fun _ hsome => (nomatch hsome)⟩
  | removeIfSubdir parent persistent =>
    have hr : RemovesSubdirs parent persistent s.heap s.list
        (AutoscanList.removeIfSubdir parent persistent s.heap [] s.list) :=
      removesSubdirs hs.known fun i j e hi hj => hs.once hi hj
    exact ⟨fun _ => trivial, fun _ => hr.failure⟩
  | getID id => exact ⟨fun _ => trivial, fun _ hsome => (nomatch hsome)⟩
  | getLocation location => exact ⟨fun _ => trivial, fun _ hsome => (nomatch hsome)⟩
  | getArrayCopy =>
    unfold call Careful
    cases hcopy : getArrayCopy s.list with
    | error failure =>
      obtain ⟨rfl, hmem⟩ := getArrayCopy_error hcopy
      exact ⟨fun hne => absurd rfl hne, fun hnone => absurd hmem hnone⟩
    | ok ds =>
      refine ⟨fun _ hmem => ?_, fun _ hsome => (nomatch hsome)⟩
      rw [getArrayCopy_ok hcopy] at hmem
      obtain ⟨d, -, hd⟩ := List.mem_map.mp hmem
      cases hd

/-! ## Runs -/

theorem call_keeps (hs : Sound s.heap s.list) (hknown : c.Known s.heap.next) :
    Keeps s.heap s.list (s.call c).1.heap (s.call c).1.list := by
  cases c with
  | add d =>
    unfold call
    cases hadd : add_ s.heap s.list d with
    | error failure =>
      simp only [hadd]
      exact hs.keeps
    | ok r =>
      simp only [hadd]
      exact hs.add hknown hadd
  | addList other => exact hs.addList hknown
  | removeID id =>
    unfold call
    cases hremove : AutoscanList.removeID s.heap s.list id with
    | error failure =>
      simp only [hremove]
      exact hs.keeps
    | ok r =>
      simp only [hremove]
      exact hs.removeID hremove
  | removeLocation location => exact hs.removeFirst _
  | removeByObjectID objectID => exact hs.removeFirst _
  | removeIfSubdir parent persistent => exact hs.removeIfSubdir parent persistent
  | getID id => exact hs.keeps
  | getLocation location => exact hs.keeps
  | getArrayCopy =>
    unfold call
    cases getArrayCopy s.list with
    | error failure => exact hs.keeps
    | ok ds => exact hs.keeps

theorem step_eq (hstep : s.step c = some s') :
    c.Known s.heap.next ∧ s' = (s.call c).1 ∧
      ((s.call c).2 = none ∨ (s.call c).2 = some .throws) := by
  unfold step at hstep
  split_ifs at hstep with hknown
  refine ⟨hknown, ?_⟩
  split at hstep
  · next hnone =>
    cases hstep
    exact ⟨rfl, Or.inl hnone⟩
  · next hthrows =>
    cases hstep
    exact ⟨rfl, Or.inr hthrows⟩
  · cases hstep
  · cases hstep

/-- **The step lemma.** -/
theorem step_keeps (hs : Sound s.heap s.list) (hstep : s.step c = some s') :
    Keeps s.heap s.list s'.heap s'.list := by
  obtain ⟨hknown, rfl, -⟩ := step_eq hstep
  exact call_keeps hs hknown

/-- **The run lemma.** -/
theorem run_keeps {calls : List Call} (hs : Sound s.heap s.list)
    (hrun : run step s calls = some s') : Keeps s.heap s.list s'.heap s'.list := by
  refine run_inv (P := fun m => Keeps s.heap s.list m.heap m.list) ?_ hs.keeps hrun
  intro m c m' hm hstep
  exact hm.trans (step_keeps hm.sound hstep)

/-- A directory that was in the list before and is not now has `INVALID_SCAN_ID`. -/
def RemovedKnow (heap : Heap) (calls : List Call) (s : State) : Prop :=
  ∀ before, before <+: calls → ∀ m, run step { heap := heap } before = some m →
    ∀ i d, slotAt m.list i = some d → (∀ j, slotAt s.list j ≠ some d) →
      (s.heap.dir d).scanID = invalidScanID

/-- What an autoscan list is meant to be after the calls, and in the next one. -/
structure Right (heap : Heap) (calls : List Call) (s : State) (c : Call) : Prop where
  scanID : ∀ i d, slotAt s.list i = some d → (s.heap.dir d).scanID = i
  distinct : ∀ i j d e, slotAt s.list i = some d → slotAt s.list j = some e →
    (s.heap.dir d).location = (s.heap.dir e).location → i = j
  removedKnow : RemovedKnow heap calls s
  noEmptySlot : (s.call c).2 ≠ some .emptySlot

theorem removedKnow_run {heap : Heap} {calls : List Call}
    (hrun : run step { heap := heap } calls = some s) : RemovedKnow heap calls s := by
  rintro before ⟨later, rfl⟩ m hm i d hi hgone
  rw [run_append, hm, Option.bind_some] at hrun
  have hsound := (run_keeps (sound_nil heap) hm).sound
  rcases (run_keeps hsound hrun).tracked d (hsound.known i d hi) (Or.inl ⟨i, hi⟩) with
    ⟨j, hj⟩ | hinvalid
  · exact absurd hj (hgone j)
  · exact hinvalid

/-- **In every run an autoscan list is what it is meant to be, and the next call is right just when
    it is `Careful`.** -/
theorem autoscanList_right_iff {heap : Heap} {calls : List Call}
    (hrun : run step { heap := heap } calls = some s) :
    Right heap calls s c ↔ s.Careful c := by
  have hs := (run_keeps (sound_nil heap) hrun).sound
  constructor
  · intro hright
    exact (call_failure_iff hs).mp hright.noEmptySlot
  · intro hcareful
    exact ⟨hs.scanID, hs.distinct, removedKnow_run hrun, (call_failure_iff hs).mpr hcareful⟩

/-! ## Two directories -/

/-- `/a` and `/b`. -/
def twoDirectories : Heap where
  dir d := { location := if d = 0 then str "/a" else str "/b", timerParameter := d }
  timerID _ := invalidScanID
  next := 2

/-- Both are added, the first one is removed. -/
def firstRemoved : List Call := [.add 0, .add 1, .removeID 0]

/-- The slots are `[nil, /b]`. -/
def withHole : State := (run step { heap := twoDirectories } firstRemoved).getD ⟨twoDirectories, []⟩

theorem run_firstRemoved : run step { heap := twoDirectories } firstRemoved = some withHole := by
  have hsome : (run step { heap := twoDirectories } firstRemoved).isSome := by decide
  obtain ⟨s, hs⟩ := Option.isSome_iff_exists.mp hsome
  unfold withHole
  rw [hs]
  rfl

theorem right_withHole : Right twoDirectories firstRemoved withHole (.removeID 1) :=
  (autoscanList_right_iff run_firstRemoved).mpr (Or.inr ⟨1, by decide⟩)

/-- The list of all directories is asked for, and the server is gone. -/
theorem not_right_withHole : ¬ ∀ heap calls s c, run step { heap := heap } calls = some s →
    c.Known s.heap.next → Right heap calls s c := by
  intro hall
  have hright := hall _ _ _ .getArrayCopy run_firstRemoved trivial
  exact hright.noEmptySlot (by decide)

end State

end MediaTomb.AutoscanList
