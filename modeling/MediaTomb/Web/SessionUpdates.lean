/-
  What a web session is told about changed containers (`session_manager.cc`).

  DATA.     a session keeps the ids of the changed containers in a small hash, and ONE FLAG for "too
            many, update all"; the flag replaces the ids.
  PROGRAM.  `containerChangedUI` reads the flag without the lock, and again with it, before it puts
            its ids.  `getUIUpdateIDs` reads the flag and then the size without the lock, and takes
            the ids, or the flag, with it.
  RESULT.   each answer that is given after a call of `containerChangedUI` has returned has the ids
            of that call, unless an earlier one since the call began had them, in every run whose
            steps are `Harmless` (`answers_cover`):
              · the flag is down when `getUIUpdateIDs`, having read it so, reads the size,
              · an array is not so long that its size overflows.
            The hash never has more than `maxUIUpdateIDs` keys, and no call is stuck.

  Between the two reads of `getUIUpdateIDs` a call may have raised the flag and cleared the hash.
  Then both reads say that there is nothing, and the answer is nil.

  The pages see a session between calls (`Web.WebRequestHandler`); here the calls overlap.  A call is
  a thread.  Its first step is its first read of the flag, its last one the locked
  section; what is read without the lock is one step each.
-/
import MediaTomb.Hash.DBRHash
import MediaTomb.Web.WebRequestHandler

namespace MediaTomb

open Lib.OpenAddressing DHashBase

/-! ## A hash that is only put into -/

namespace DBRHash

variable {s : DBRHash} {key : Int}

/-- No slot has been deleted since the last `clear`. -/
def Undeleted (s : DBRHash) : Prop := ∀ p < s.capacity, s.cell p ≠ .deleted

theorem secondaryHashCode_le (primary : Nat) : secondaryHashCode primary ≤ hashPrime := by
  unfold secondaryHashCode
  simp only
  split_ifs
  · exact le_rfl
  · exact Nat.sub_le _ _

/-- **With a prime number of slots the probes are all different.** -/
theorem probe_injOn {capacity : Nat} (hprime : capacity.Prime) (hbig : hashPrime < capacity)
    (key : Int) : Set.InjOn (probe capacity key) (Finset.range capacity) := by
  intro n hn m hm heq
  have hn' : n < capacity := by simpa using hn
  have hm' : m < capacity := by simpa using hm
  have hpos := secondaryHashCode_pos (hashCode capacity key)
  have hle := secondaryHashCode_le (hashCode capacity key)
  have hcop : Nat.Coprime capacity (secondaryHashCode (hashCode capacity key)) := by
    rw [hprime.coprime_iff_not_dvd]
    intro hdvd
    have := Nat.le_of_dvd (Nat.pos_of_ne_zero hpos) hdvd
    omega
  have hmod : n * secondaryHashCode (hashCode capacity key)
      ≡ m * secondaryHashCode (hashCode capacity key) [MOD capacity] :=
    Nat.ModEq.add_left_cancel' (hashCode capacity key) heq
  exact Nat.ModEq.eq_of_lt_of_lt (Nat.ModEq.cancel_right_of_coprime hcop hmod) hn' hm'

/-- **A search ends** while there is a free slot. -/
theorem search_returns (h : s.Linked) (hdel : s.Undeleted) (hprime : s.capacity.Prime)
    (hbig : hashPrime < s.capacity) (hiter : s.capacity ≤ hashMaxIterations)
    (hfree : s.count < s.capacity) (key : Int) : s.search key ≠ .exceeded := by
  intro hexceeded
  rw [s.search_eq, search_exceeded_iff] at hexceeded
  -- otherwise all slots have been looked at, and each has a key
  have himage : (Finset.range s.capacity).image (probe s.capacity key) = Finset.range s.capacity := by
    apply Finset.eq_of_subset_of_card_le
    · intro p hp
      obtain ⟨n, _, rfl⟩ := Finset.mem_image.1 hp
      exact Finset.mem_range.2 (s.probe_lt key n)
    · rw [Finset.card_image_of_injOn (probe_injOn hprime hbig key)]
  have hused : ∀ p < s.capacity, ∃ k, s.cell p = .used k := by
    intro p hp
    have hmem : p ∈ (Finset.range s.capacity).image (probe s.capacity key) := by
      rw [himage]
      exact Finset.mem_range.2 hp
    obtain ⟨n, hn, rfl⟩ := Finset.mem_image.1 hmem
    have hpassed := hexceeded n (Nat.zero_le _) (by rw [Finset.mem_range] at hn; omega)
    cases hcell : s.cell (probe s.capacity key n) with
    | empty => exact absurd hcell hpassed.1
    | deleted => exact absurd hcell (hdel _ hp)
    | used k => exact ⟨k, rfl⟩
  have hcard : (Finset.range s.capacity).card ≤ (Finset.range s.count).card := by
    apply Finset.card_le_card_of_injOn (fun p => (s.data p).value)
    · intro p hp
      obtain ⟨k, hk⟩ := hused p (Finset.mem_range.1 hp)
      exact Finset.mem_coe.2 (Finset.mem_range.2 (h.forth p (Finset.mem_range.1 hp) k hk).1)
    · intro p hp q hq hvalue
      have hp' : p < s.capacity := by simpa using hp
      have hq' : q < s.capacity := by simpa using hq
      obtain ⟨k, hk⟩ := hused p hp'
      obtain ⟨k', hk'⟩ := hused q hq'
      by_contra hne
      exact h.value_ne hq' hk' hp' hk hne hvalue
  rw [Finset.card_range, Finset.card_range] at hcard
  omega

/-- A hash of the shape that a session has. -/
structure Small (s : DBRHash) : Prop where
  linked : s.Linked
  undeleted : s.Undeleted
  capacity : s.capacity = 61
  realCapacity : s.realCapacity = 15
  emptyKey : s.emptyKey = invalidObjectID
  deletedKey : s.deletedKey = invalidObjectID2

theorem Small.legal (h : s.Small) : s.Legal key ↔ key ≠ invalidObjectID ∧ key ≠ invalidObjectID2 := by
  rw [Legal, h.emptyKey, h.deletedKey]

theorem length_getAll (s : DBRHash) : s.getAll.length = s.count := by
  rw [getAll, List.length_map, List.length_range]

/-- `put` in such a hash. -/
theorem Small.put (h : s.Small) (hcount : s.count < 15)
    (hkey : key ≠ invalidObjectID ∧ key ≠ invalidObjectID2) :
    ∃ s', s.put key = .ok s' ∧ s'.Small ∧ s'.count ≤ s.count + 1 ∧
      ∀ k, k ∈ s'.getAll ↔ k = key ∨ k ∈ s.getAll := by
  have hlegal := h.legal.2 hkey
  rcases hsearch : s.search key with p | p | _
  · obtain ⟨hp, hused⟩ := search_found_slot hsearch
    refine ⟨s, put_found hsearch, h, Nat.le_succ _, fun k => ?_⟩
    constructor
    · exact Or.inr
    · rintro (rfl | hold)
      · exact h.linked.mem_getAll_iff.2 ⟨p, hp, hused⟩
      · exact hold
  · have hlinked := h.linked.put_new hlegal hsearch
    have hmissing := hsearch
    rw [s.search_eq] at hmissing
    obtain ⟨hp, hfree⟩ := missing_free s.probe_lt hmissing
    refine ⟨_, put_missing hsearch (by rw [h.realCapacity]; exact hcount),
      ⟨hlinked, ?_, h.capacity, h.realCapacity, h.emptyKey, h.deletedKey⟩, le_rfl, fun k => ?_⟩
    · intro q hq
      show (s.putSlot p key s.count).cell q ≠ .deleted
      rw [s.cell_putSlot hlegal, Function.update_apply]
      split_ifs
      · exact fun heq => (nomatch heq)
      · exact h.undeleted q hq
    · rw [hlinked.mem_getAll_iff, h.linked.mem_getAll_iff]
      show Has s.capacity (s.putSlot p key s.count).cell k ↔ _
      rw [s.cell_putSlot hlegal, has_put hp hfree]
  · refine absurd hsearch (search_returns h.linked h.undeleted ?_ ?_ ?_ ?_ key)
    · rw [h.capacity]
      norm_num
    · rw [h.capacity]
      decide
    · rw [h.capacity]
      decide
    · rw [h.capacity]
      omega

theorem Small.clear (h : s.Small) : s.clear.Small where
  linked := s.linked_clear
  undeleted p hp := by
    rw [s.cell_clear p hp]
    exact fun heq => (nomatch heq)
  capacity := h.capacity
  realCapacity := h.realCapacity
  emptyKey := h.emptyKey
  deletedKey := h.deletedKey

/-- The ids of an array, one after the other. -/
def putAll (s : DBRHash) (keys : List Int) : Except Fault DBRHash := keys.foldlM DBRHash.put s

theorem Small.putAll {keys : List Int} (h : s.Small) (hcount : s.count + keys.length ≤ 15)
    (hkeys : ∀ key ∈ keys, key ≠ invalidObjectID ∧ key ≠ invalidObjectID2) :
    ∃ s', s.putAll keys = .ok s' ∧ s'.Small ∧ s'.count ≤ s.count + keys.length ∧
      ∀ k, k ∈ s'.getAll ↔ k ∈ keys ∨ k ∈ s.getAll := by
  induction keys generalizing s with
  | nil => exact ⟨s, rfl, h, le_rfl, fun k => by simp⟩
  | cons key keys ih =>
    rw [List.length_cons] at hcount
    obtain ⟨s₁, hput, hsmall, hle, hmem⟩ := h.put (by omega) (hkeys key List.mem_cons_self)
    obtain ⟨s₂, hrest, hsmall', hle', hmem'⟩ :=
      ih hsmall (by omega) fun k hk => hkeys k (List.mem_cons_of_mem _ hk)
    refine ⟨s₂, ?_, hsmall', by rw [List.length_cons]; omega, fun k => ?_⟩
    · rw [putAll, List.foldlM_cons, hput]
      exact hrest
    · rw [hmem', hmem, List.mem_cons]
      tauto

end DBRHash

/-! ## The program -/

/-- `UI_UPDATE_ID_HASH_SIZE` -/
def uiUpdateIDHashSize : Nat := 61

/-- `intArrayToCSV`: nil for no numbers; `toString(1)` leaves the first comma out. -/
def intArrayToCSV (ids : List Int) : Option Str :=
  if ids.length ≤ 0 then none
  else some ((ids.foldl (fun buf id => buf ++ ','.toUInt8 :: fromInt id) []).drop 1)

/-- What `containerChangedUI` is called with. -/
inductive Changed where
  | one (id : Int)
  | many (ids : List Int)
deriving DecidableEq

def Changed.ids : Changed → List Int
  | .one id => [id]
  | .many ids => ids

/-- The locked section of `containerChangedUI`: the hash and the flag afterwards. -/
def changedSection (hash : DBRHash) (updateAll : Bool) :
    Changed → Except DBRHash.Fault (DBRHash × Bool)
  | .one objectID =>
    if updateAll then .ok (hash, updateAll)
    else if hash.count ≥ maxUIUpdateIDs then .ok (hash.clear, true)
    else (hash.put objectID).map fun hash => (hash, updateAll)
  | .many objectIDs =>
    if updateAll then .ok (hash, updateAll)
    else if sumInt hash.count objectIDs.length ≥ maxUIUpdateIDs then .ok (hash.clear, true)
    else (hash.putAll objectIDs).map fun hash => (hash, updateAll)

/-- The locked section of `getUIUpdateIDs`: the answer, the hash and the flag afterwards. -/
def getSection (hash : DBRHash) (updateAll : Bool) : Option Str × DBRHash × Bool :=
  if updateAll then (some (str "all"), hash, false)
  else
    match intArrayToCSV hash.getAll with
    | none => (none, hash, updateAll)
    | some ret => (some ret, hash.clear, updateAll)

/-- A call of `containerChangedUI`: it waits for the lock or has returned; and the answers that have
    been given since it began. -/
structure ChangeCall where
  changed : Changed
  waiting : Bool
  answers : List (Option Str)

/-- A call of `getUIUpdateIDs`: what it does next. -/
inductive GetCall where
  | readSize
  | lock
  | returned
deriving DecidableEq

/-- A session, and the calls there are and have been. -/
structure UISession where
  uiUpdateIDs : DBRHash
  updateAll : Bool
  changes : List ChangeCall
  gets : List GetCall

namespace UISession

/-- The constructor of `Session`. -/
def start (memory : Nat → Slot Nat) (array : Nat → Int) : UISession :=
  ⟨DBRHash.create uiUpdateIDHashSize (by decide) (maxUIUpdateIDs + 5) invalidObjectID
    invalidObjectID2 (by decide) memory array, false, [], []⟩

inductive Event where
  /-- `containerChangedUI(objectID)` is called and reads the flag -/
  | changedOne (objectID : Int)
  /-- `containerChangedUI(objectIDs)` is called and reads the flag -/
  | changedMany (objectIDs : Option (List Int))
  /-- a call of `containerChangedUI` has its locked section -/
  | changedSection (n : Nat)
  /-- `getUIUpdateIDs` is called and reads the flag -/
  | get
  /-- a call of it reads the size -/
  | readSize (n : Nat)
  /-- a call of it has its locked section -/
  | getSection (n : Nat)
deriving DecidableEq

/-- An answer, as the calls that go on or have returned see it. -/
def answered (s : UISession) (answer : Option Str) : List ChangeCall :=
  s.changes.map fun call => { call with answers := call.answers ++ [answer] }

/-- One step of one call. -/
def step (s : UISession) : Event → Option UISession
  | .changedOne objectID =>
    let waiting := objectID ≠ invalidObjectID ∧ s.updateAll = false
    some { s with changes := s.changes ++ [⟨.one objectID, waiting, []⟩] }
  | .changedMany objectIDs =>
    let waiting := s.updateAll = false ∧ objectIDs ≠ none
    some { s with changes := s.changes ++ [⟨.many (objectIDs.getD []), waiting, []⟩] }
  | .changedSection n =>
    match s.changes[n]? with
    | none => none
    | some call =>
      if call.waiting then
        match MediaTomb.changedSection s.uiUpdateIDs s.updateAll call.changed with
        | .error _ => none
        | .ok (hash, updateAll) =>
          some { s with
            uiUpdateIDs := hash, updateAll := updateAll
            changes := s.changes.set n { call with waiting := false } }
      else none
  | .get => some { s with gets := s.gets ++ [if s.updateAll then .lock else .readSize] }
  | .readSize n =>
    if s.gets[n]? = some .readSize then
      if s.uiUpdateIDs.count > 0 then some { s with gets := s.gets.set n .lock }
      else some { s with gets := s.gets.set n .returned, changes := s.answered none }
    else none
  | .getSection n =>
    if s.gets[n]? = some .lock then
      let (answer, hash, updateAll) := MediaTomb.getSection s.uiUpdateIDs s.updateAll
      some { s with
        uiUpdateIDs := hash, updateAll := updateAll, gets := s.gets.set n .returned
        changes := s.answered answer }
    else none

/-- The answer with which a call of `getUIUpdateIDs` returns in this step. -/
def gives (s : UISession) : Event → Option (Option Str)
  | .readSize n =>
    if s.gets[n]? = some .readSize ∧ ¬ s.uiUpdateIDs.count > 0 then some none else none
  | .getSection n =>
    if s.gets[n]? = some .lock then some (MediaTomb.getSection s.uiUpdateIDs s.updateAll).1
    else none
  | _ => none

/-! ## What it is for -/

def ValidID (id : Int) : Prop := id ≠ invalidObjectID ∧ id ≠ invalidObjectID2

/-- Only valid ids are passed. -/
def Event.Valid : Event → Prop
  | .changedOne objectID => ValidID objectID
  | .changedMany objectIDs => ∀ ids ∈ objectIDs, ∀ id ∈ ids, ValidID id
  | _ => True

/-- The answer has the id: it is `all`, or the id is between two of its commas or at an end. -/
def Covers (answer : Option Str) (id : Int) : Prop :=
  answer = some (str "all") ∨ ∃ text before after, answer = some text ∧
    ','.toUInt8 :: text ++ [','.toUInt8]
      = before ++ ','.toUInt8 :: fromInt id ++ ','.toUInt8 :: after

/-- **The answer is right**: it has the ids of the calls that have returned, but for those that an
    earlier answer had since the call began. -/
def Right (s : UISession) (answer : Option Str) : Prop :=
  ∀ call ∈ s.changes, call.waiting = false → ∀ id ∈ call.changed.ids,
    Covers answer id ∨ ∃ earlier ∈ call.answers, Covers earlier id

/-- **The step does no harm.** -/
def Harmless (s : UISession) : Event → Prop
  | .readSize _ => s.updateAll = false
  | .changedSection n => ∀ call ∈ s.changes[n]?,
    call.changed.ids.length + maxUIUpdateIDs < 2 ^ 31
  | _ => True

instance : DecidablePred ValidID := fun _ => inferInstanceAs (Decidable (_ ∧ _))

instance : DecidablePred Event.Valid
  | .changedOne _ => inferInstanceAs (Decidable (ValidID _))
  | .changedMany _ => inferInstanceAs (Decidable (∀ ids ∈ _, ∀ id ∈ ids, ValidID id))
  | .changedSection _ | .get | .readSize _ | .getSection _ => isTrue trivial

instance (s : UISession) : DecidablePred s.Harmless
  | .readSize _ => inferInstanceAs (Decidable (_ = _))
  | .changedSection _ => inferInstanceAs (Decidable (∀ call ∈ _, _))
  | .changedOne _ | .changedMany _ | .get | .getSection _ => isTrue trivial

end UISession

/-! ## An answer has the ids it is made of -/

theorem foldl_comma (ids : List Int) (buf : Str) :
    ids.foldl (fun buf id => buf ++ ','.toUInt8 :: fromInt id) buf
      = buf ++ ids.flatMap fun id => ','.toUInt8 :: fromInt id := by
  induction ids generalizing buf with
  | nil => simp
  | cons id ids ih => rw [List.foldl_cons, ih, List.flatMap_cons, List.append_assoc]

/-- Behind any numbers of a list stands a comma. -/
theorem comma_behind (ids : List Int) : ∃ after,
    (ids.flatMap fun id => ','.toUInt8 :: fromInt id) ++ [','.toUInt8] = ','.toUInt8 :: after := by
  cases ids with
  | nil => exact ⟨[], rfl⟩
  | cons id ids => exact ⟨_, rfl⟩

theorem covers_intArrayToCSV {ids : List Int} {id : Int} (h : id ∈ ids) :
    UISession.Covers (intArrayToCSV ids) id := by
  have hlen : ¬ ids.length ≤ 0 := by
    have := List.length_pos_of_mem h
    omega
  have hfold := foldl_comma ids []
  rw [List.nil_append] at hfold
  rw [intArrayToCSV, if_neg hlen, hfold]
  obtain ⟨left, right, rfl⟩ := List.append_of_mem h
  obtain ⟨after, hafter⟩ := comma_behind right
  refine Or.inr ⟨_, left.flatMap fun id => ','.toUInt8 :: fromInt id, after, rfl, ?_⟩
  have hcomma : ','.toUInt8 :: ((left ++ id :: right).flatMap fun id =>
      ','.toUInt8 :: fromInt id).drop 1
        = (left ++ id :: right).flatMap fun id => ','.toUInt8 :: fromInt id := by
    cases left with
    | nil => rfl
    | cons x left => rfl
  rw [hcomma, List.flatMap_append, List.flatMap_cons, ← hafter]
  simp only [List.append_assoc, List.cons_append]

/-! ## The locked sections -/

/-- **What a call of `containerChangedUI` does**: its ids are in the hash then or the flag is up,
    and what was waiting is waiting still. -/
theorem changedSection_spec {hash : DBRHash} (updateAll : Bool) {changed : Changed}
    (hsmall : hash.Small) (hfew : hash.count ≤ maxUIUpdateIDs)
    (hvalid : ∀ id ∈ changed.ids, UISession.ValidID id)
    (hroom : changed.ids.length + maxUIUpdateIDs < 2 ^ 31) :
    ∃ hash' updateAll', changedSection hash updateAll changed = .ok (hash', updateAll') ∧
      hash'.Small ∧ hash'.count ≤ maxUIUpdateIDs ∧
      (∀ id ∈ changed.ids, updateAll' = true ∨ id ∈ hash'.getAll) ∧
      ∀ id, updateAll = true ∨ id ∈ hash.getAll → updateAll' = true ∨ id ∈ hash'.getAll := by
  have hcleared : hash.clear.count ≤ maxUIUpdateIDs := Nat.zero_le _
  by_cases hflag : updateAll = true
  · refine ⟨hash, updateAll, ?_, hsmall, hfew, fun _ _ => Or.inl hflag, fun _ h => h⟩
    cases changed with
    | one objectID => exact if_pos hflag
    | many objectIDs => exact if_pos hflag
  · cases changed with
    | one objectID =>
      by_cases hmany : hash.count ≥ maxUIUpdateIDs
      · refine ⟨hash.clear, true, ?_, hsmall.clear, hcleared, fun _ _ => Or.inl rfl,
          fun _ _ => Or.inl rfl⟩
        exact (if_neg hflag).trans (if_pos hmany)
      · rw [maxUIUpdateIDs] at hmany
        obtain ⟨hash', hput, hsmall', hle, hmem⟩ :=
          hsmall.put (by omega) (hvalid objectID List.mem_cons_self)
        refine ⟨hash', updateAll, ?_, hsmall', by rw [maxUIUpdateIDs]; omega, ?_, ?_⟩
        · refine (if_neg hflag).trans ((if_neg hmany).trans ?_)
          rw [hput]
          rfl
        · intro id hid
          exact Or.inr ((hmem id).2 (Or.inl (List.mem_singleton.1 hid)))
        · rintro id (h | h)
          · exact Or.inl h
          · exact Or.inr ((hmem id).2 (Or.inr h))
    | many objectIDs =>
      have hlen : objectIDs.length + maxUIUpdateIDs < 2 ^ 31 := hroom
      have hsum : sumInt hash.count objectIDs.length = hash.count + objectIDs.length := by
        apply sumInt_small
        · omega
        · omega
      by_cases hmany : sumInt hash.count objectIDs.length ≥ maxUIUpdateIDs
      · refine ⟨hash.clear, true, ?_, hsmall.clear, hcleared, fun _ _ => Or.inl rfl,
          fun _ _ => Or.inl rfl⟩
        exact (if_neg hflag).trans (if_pos hmany)
      · have hlt : hash.count + objectIDs.length < maxUIUpdateIDs := by
          rw [hsum] at hmany
          omega
        rw [maxUIUpdateIDs] at hlt
        have hids : ∀ id ∈ objectIDs, UISession.ValidID id := hvalid
        obtain ⟨hash', hput, hsmall', hle, hmem⟩ := hsmall.putAll (by omega) hids
        refine ⟨hash', updateAll, ?_, hsmall', by rw [maxUIUpdateIDs]; omega, ?_, ?_⟩
        · refine (if_neg hflag).trans ((if_neg hmany).trans ?_)
          rw [hput]
          rfl
        · intro id hid
          exact Or.inr ((hmem id).2 (Or.inl hid))
        · rintro id (h | h)
          · exact Or.inl h
          · exact Or.inr ((hmem id).2 (Or.inr h))

/-- **What a call of `getUIUpdateIDs` does**: the answer has all that was waiting. -/
theorem getSection_spec {hash : DBRHash} (updateAll : Bool) (hsmall : hash.Small)
    (hfew : hash.count ≤ maxUIUpdateIDs) :
    (getSection hash updateAll).2.1.Small ∧
      (getSection hash updateAll).2.1.count ≤ maxUIUpdateIDs ∧
      ∀ id, updateAll = true ∨ id ∈ hash.getAll →
        UISession.Covers (getSection hash updateAll).1 id := by
  by_cases hflag : updateAll = true
  · rw [getSection, if_pos hflag]
    exact ⟨hsmall, hfew, fun _ _ => Or.inl rfl⟩
  · rw [getSection, if_neg hflag]
    have hcovers : ∀ id, updateAll = true ∨ id ∈ hash.getAll →
        UISession.Covers (intArrayToCSV hash.getAll) id := by
      rintro id (h | h)
      · exact absurd h hflag
      · exact covers_intArrayToCSV h
    cases hcsv : intArrayToCSV hash.getAll with
    | none =>
      rw [hcsv] at hcovers
      exact ⟨hsmall, hfew, hcovers⟩
    | some ret =>
      rw [hcsv] at hcovers
      exact ⟨hsmall.clear, Nat.zero_le _, hcovers⟩

namespace UISession

/-! ## What every step keeps -/

/-- The id is in the hash, or everything is to be updated. -/
def Pending (s : UISession) (id : Int) : Prop :=
  s.updateAll = true ∨ id ∈ s.uiUpdateIDs.getAll

/-- **The invariant**: the ids of a call that has returned are pending, or an answer has had them. -/
structure Inv (s : UISession) : Prop where
  small : s.uiUpdateIDs.Small
  few : s.uiUpdateIDs.count ≤ maxUIUpdateIDs
  valid : ∀ call ∈ s.changes, ∀ id ∈ call.changed.ids, ValidID id
  covered : ∀ call ∈ s.changes, call.waiting = false → ∀ id ∈ call.changed.ids,
    s.Pending id ∨ ∃ answer ∈ call.answers, Covers answer id

section

variable {s s' : UISession} {e : Event} {answer : Option Str}

theorem inv_start (memory : Nat → Slot Nat) (array : Nat → Int) : (start memory array).Inv where
  small :=
    { linked := DBRHash.linked_clear _
      undeleted := fun p hp => by
        have hcell := DBRHash.cell_clear ⟨⟨uiUpdateIDHashSize, by decide, invalidObjectID,
          invalidObjectID2, by decide, 0, memory⟩, array, maxUIUpdateIDs + 5⟩ p hp
        show DHashBase.cell _ p ≠ .deleted
        rw [show DHashBase.cell (start memory array).uiUpdateIDs.toDHashBase p = .empty from hcell]
        exact fun heq => (nomatch heq)
      capacity := rfl
      realCapacity := rfl
      emptyKey := rfl
      deletedKey := rfl }
  few := Nat.zero_le _
  valid := fun call hcall => absurd hcall List.not_mem_nil
  covered := fun call hcall => absurd hcall List.not_mem_nil

/-- A new call: it waits, or the flag is up. -/
theorem Inv.begin (h : s.Inv) {call : ChangeCall}
    (hvalid : ∀ id ∈ call.changed.ids, ValidID id)
    (hpending : call.waiting = false → ∀ id ∈ call.changed.ids, s.Pending id) :
    Inv { s with changes := s.changes ++ [call] } where
  small := h.small
  few := h.few
  valid := by
    intro c hc
    rcases List.mem_append.1 hc with hold | hnew
    · exact h.valid c hold
    · rw [List.mem_singleton.1 hnew]
      exact hvalid
  covered := by
    intro c hc hwaiting id hid
    rcases List.mem_append.1 hc with hold | hnew
    · exact h.covered c hold hwaiting id hid
    · rw [List.mem_singleton.1 hnew] at hwaiting hid
      exact Or.inl (hpending hwaiting id hid)

theorem Inv.changedSection (h : s.Inv) {n : Nat} {call : ChangeCall}
    (hget : s.changes[n]? = some call)
    (hroom : call.changed.ids.length + maxUIUpdateIDs < 2 ^ 31) :
    ∃ hash updateAll,
      MediaTomb.changedSection s.uiUpdateIDs s.updateAll call.changed = .ok (hash, updateAll) ∧
      Inv { s with
        uiUpdateIDs := hash, updateAll := updateAll
        changes := s.changes.set n { call with waiting := false } } := by
  have hmem : call ∈ s.changes := List.mem_of_getElem? hget
  obtain ⟨hash, updateAll, hok, hsmall, hfew, hnew, hold⟩ :=
    changedSection_spec s.updateAll h.small h.few (h.valid call hmem) hroom
  refine ⟨hash, updateAll, hok, hsmall, hfew, ?_, ?_⟩
  · intro c hc
    rcases List.mem_or_eq_of_mem_set hc with hin | rfl
    · exact h.valid c hin
    · exact h.valid call hmem
  · intro c hc hwaiting id hid
    rcases List.mem_or_eq_of_mem_set hc with hin | rfl
    · rcases h.covered c hin hwaiting id hid with hpending | hcovered
      · exact Or.inl (hold id hpending)
      · exact Or.inr hcovered
    · exact Or.inl (hnew id hid)

/-- **A right answer** may be given, whatever is pending then. -/
theorem Inv.answered (h : s.Inv) (hright : s.Right answer) {hash : DBRHash} {updateAll : Bool}
    (hsmall : hash.Small) (hfew : hash.count ≤ maxUIUpdateIDs) (gets : List GetCall) :
    Inv ⟨hash, updateAll, s.answered answer, gets⟩ where
  small := hsmall
  few := hfew
  valid := by
    intro c hc
    obtain ⟨call, hcall, rfl⟩ := List.mem_map.1 hc
    exact h.valid call hcall
  covered := by
    intro c hc hwaiting id hid
    obtain ⟨call, hcall, rfl⟩ := List.mem_map.1 hc
    rcases hright call hcall hwaiting id hid with hnow | ⟨earlier, hearlier, hcovers⟩
    · exact Or.inr ⟨answer, List.mem_append_right _ List.mem_cons_self, hnow⟩
    · exact Or.inr ⟨earlier, List.mem_append_left _ hearlier, hcovers⟩

/-- Where nothing is pending, there is nothing left to say. -/
theorem Inv.right_of_nothing (h : s.Inv) (hcount : ¬ s.uiUpdateIDs.count > 0)
    (hflag : s.updateAll = false) (answer : Option Str) : s.Right answer := by
  intro call hcall hwaiting id hid
  rcases h.covered call hcall hwaiting id hid with hpending | hcovered
  · rcases hpending with hup | hin
    · rw [hflag] at hup
      cases hup
    · have hlength := List.length_pos_of_mem hin
      rw [DBRHash.length_getAll] at hlength
      exact absurd hlength hcount
  · exact Or.inr hcovered

theorem Inv.right_of_section (h : s.Inv) :
    s.Right (MediaTomb.getSection s.uiUpdateIDs s.updateAll).1 := by
  intro call hcall hwaiting id hid
  rcases h.covered call hcall hwaiting id hid with hpending | hcovered
  · exact Or.inl ((getSection_spec _ h.small h.few).2.2 id hpending)
  · exact Or.inr hcovered

/-- **Every answer is right** that a harmless step gives. -/
theorem Inv.gives (h : s.Inv) (hharmless : s.Harmless e) (hgives : s.gives e = some answer) :
    s.Right answer := by
  cases e with
  | readSize n =>
    rw [UISession.gives] at hgives
    split at hgives
    · next hsize =>
      cases hgives
      exact h.right_of_nothing hsize.2 hharmless none
    · cases hgives
  | getSection n =>
    rw [UISession.gives] at hgives
    split at hgives
    · cases hgives
      exact h.right_of_section
    · cases hgives
  | changedOne objectID => cases hgives
  | changedMany objectIDs => cases hgives
  | changedSection n => cases hgives
  | get => cases hgives

/-- **The step lemma.** -/
theorem Inv.step (h : s.Inv) (hvalid : e.Valid) (hharmless : s.Harmless e)
    (hstep : s.step e = some s') : s'.Inv := by
  cases e with
  | changedOne objectID =>
    cases hstep
    apply h.begin
    · intro id hid
      rw [List.mem_singleton.1 hid]
      exact hvalid
    · intro hwaiting id _
      left
      have hnot : ¬ (objectID ≠ invalidObjectID ∧ s.updateAll = false) :=
        of_decide_eq_false hwaiting
      by_contra hflag
      exact hnot ⟨hvalid.1, by simpa using hflag⟩
  | changedMany objectIDs =>
    cases hstep
    apply h.begin
    · intro id hid
      cases objectIDs with
      | none => exact absurd hid List.not_mem_nil
      | some ids => exact hvalid ids rfl id hid
    · intro hwaiting id hid
      left
      have hnot : ¬ (s.updateAll = false ∧ objectIDs ≠ none) := of_decide_eq_false hwaiting
      by_contra hflag
      refine hnot ⟨by simpa using hflag, ?_⟩
      rintro rfl
      exact absurd hid List.not_mem_nil
  | changedSection n =>
    rw [UISession.step] at hstep
    cases hget : s.changes[n]? with
    | none =>
      rw [hget] at hstep
      cases hstep
    | some call =>
      rw [hget] at hstep
      obtain ⟨hash, updateAll, hok, hinv⟩ := h.changedSection hget (hharmless call hget)
      simp only [hok] at hstep
      split at hstep
      · cases hstep
        exact hinv
      · cases hstep
  | get =>
    cases hstep
    exact ⟨h.small, h.few, h.valid, h.covered⟩
  | readSize n =>
    rw [UISession.step] at hstep
    split at hstep
    · split at hstep
      · cases hstep
        exact ⟨h.small, h.few, h.valid, h.covered⟩
      · next hcount =>
        cases hstep
        exact h.answered (h.right_of_nothing hcount hharmless none) h.small h.few _
    · cases hstep
  | getSection n =>
    rw [UISession.step] at hstep
    split at hstep
    · cases hstep
      obtain ⟨hsmall, hfew, _⟩ := getSection_spec s.updateAll h.small h.few
      exact h.answered h.right_of_section hsmall hfew _
    · cases hstep

end

/-! ## Every run -/

open Lib.Machine (run Along)

/-- **Every answer has what it has to have**, in a run of any calls in any order whose steps are
    harmless; the hash never has more keys than there is room for, and a call that waits for the
    lock returns when it gets it. -/
theorem answers_cover (memory : Nat → Slot Nat) (array : Nat → Int) (es : List Event)
    (s : UISession) (hvalid : ∀ e ∈ es, e.Valid)
    (hrun : run step (start memory array) es = some s)
    (hharmless : Along Harmless step (start memory array) es) :
    (∀ e answer, s.Harmless e → s.gives e = some answer → s.Right answer) ∧
    s.uiUpdateIDs.count ≤ maxUIUpdateIDs ∧
    s.uiUpdateIDs.count ≤ s.uiUpdateIDs.realCapacity ∧
    ∀ n call, s.changes[n]? = some call → call.waiting = true →
      s.Harmless (.changedSection n) → (s.step (.changedSection n)).isSome := by
  have h : s.Inv := Lib.Machine.run_inv_of (fun s e s' hinv hC hs => hinv.step hC.2 hC.1 hs)
    (inv_start memory array) (hharmless.and_mem hvalid) hrun
  refine ⟨fun e answer hno hgives => h.gives hno hgives, h.few, ?_, ?_⟩
  · rw [h.small.realCapacity]
    exact h.few.trans (by decide)
  · intro n call hget hwaiting hno
    obtain ⟨hash, updateAll, hok, -⟩ := h.changedSection hget (hno call hget)
    rw [step, hget]
    simp only [hwaiting, hok, if_true]
    rfl

/-- An id is put and asked for. -/
theorem answers_cover_one :
    ∃ s, run step (start (fun _ => ⟨0, 0⟩) fun _ => 0)
        [.changedOne 7, .changedSection 0, .get, .readSize 0] = some s ∧
      s.gives (.getSection 0) = some (some (str "7")) ∧ s.Right (some (str "7")) := by
  refine ⟨_, rfl, by decide +kernel, ?_⟩
  exact (answers_cover (fun _ => ⟨0, 0⟩) (fun _ => 0)
    [.changedOne 7, .changedSection 0, .get, .readSize 0] _ (by decide) rfl
    (by decide +kernel)).1 (.getSection 0) _ trivial (by decide +kernel)

/-- Ten ids are put; a call of `getUIUpdateIDs` finds the flag down, and before it reads the size the
    eleventh id raises it. -/
def overflow : List Event :=
  ((List.range 10).flatMap fun n => [.changedOne (n + 1), .changedSection n])
    ++ [.get, .changedOne 11, .changedSection 10]

/-- The answer is nil, although the ten calls had returned before, and nothing has been answered. -/
theorem answer_loses_ids :
    ∃ s, run step (start (fun _ => ⟨0, 0⟩) fun _ => 0) overflow = some s ∧
      (∀ e ∈ overflow, e.Valid) ∧ s.gives (.readSize 0) = some none ∧ ¬ s.Right none := by
  have hrun : ∃ s, run step (start (fun _ => ⟨0, 0⟩) fun _ => 0) overflow = some s ∧
      s.gives (.readSize 0) = some none ∧
      ∃ call ∈ s.changes, call.waiting = false ∧ 1 ∈ call.changed.ids ∧ call.answers = [] := by
    have hcheck : ∀ s ∈ run step (start (fun _ => ⟨0, 0⟩) fun _ => 0) overflow,
        s.gives (.readSize 0) = some none ∧ ∃ call ∈ s.changes,
          call.waiting = false ∧ 1 ∈ call.changed.ids ∧ call.answers = [] := by decide +kernel
    obtain ⟨s, hs⟩ := Option.isSome_iff_exists.1 (show Option.isSome
      (run step (start (fun _ => ⟨0, 0⟩) fun _ => 0) overflow) = true by decide +kernel)
    exact ⟨s, hs, hcheck s hs⟩
  obtain ⟨s, hs, hgives, call, hcall, hreturned, hid, hnone⟩ := hrun
  refine ⟨s, hs, by decide, hgives, fun hright => ?_⟩
  rcases hright call hcall hreturned 1 hid with hnow | ⟨earlier, hearlier, _⟩
  · rcases hnow with heq | ⟨_, _, _, heq, _⟩
    · cases heq
    · cases heq
  · rw [hnone] at hearlier
    exact absurd hearlier List.not_mem_nil

end UISession

end MediaTomb
