/-
  How full the hash gets.

  The hash has room for `MAX_OBJECT_IDS + 2 * MAX_OBJECT_IDS_OVERLOAD` ids.  `containersChanged`
  keeps to that on its own: it either fits below `MAX_OBJECT_IDS + MAX_OBJECT_IDS_OVERLOAD`, or it
  waits after each id beyond `MAX_OBJECT_IDS`, so that every waiting call has put at most ONE.

      size of the hash ≤ MAX_OBJECT_IDS + MAX_OBJECT_IDS_OVERLOAD + number of waiting calls

  Nothing bounds the number of waiting calls, and `containerChanged` never waits: it signals the
  update thread and goes on.
-/
import MediaTomb.Update.UpdateManager

namespace MediaTomb

open Lib.Machine

namespace UpdateManager

/-! ## Sizes -/

theorem length_dbrPut_le (key : Int) (data : List Int) :
    (dbrPut key data).length ≤ data.length + 1 := by
  unfold dbrPut
  split
  · omega
  · rw [List.length_append, List.length_singleton]

theorem length_dbrPut_of_found {key : Int} {data : List Int} (h : dbrSearch key data = true) :
    (dbrPut key data).length = data.length := by
  unfold dbrPut
  rw [if_pos h]

/-- Without splitting, the loop ends, and puts no more than it is given. -/
theorem putContainers_whole (last : Int) (ids hash : List Int) :
    (putContainers false last ids hash).2 = none ∧
      (putContainers false last ids hash).1.length ≤ hash.length + ids.length := by
  induction ids generalizing hash with
  | nil => exact ⟨rfl, Nat.le_refl _⟩
  | cons objectID ids ih =>
    simp only [putContainers, Bool.false_and, Bool.false_eq_true, if_false, List.length_cons]
    split_ifs
    · obtain ⟨hnone, hle⟩ := ih (dbrPut objectID hash)
      have hput := length_dbrPut_le objectID hash
      exact ⟨hnone, by omega⟩
    · obtain ⟨hnone, hle⟩ := ih hash
      exact ⟨hnone, by omega⟩

/-- With splitting, a loop that ends has not gone beyond the maximum, and one that stops has gone
    one beyond it, or beyond where it was. -/
theorem putContainers_split (last : Int) (ids hash : List Int) :
    ((putContainers true last ids hash).2 = none ∧
        (putContainers true last ids hash).1.length ≤ max hash.length maxObjectIDs) ∨
      (∃ rest, (putContainers true last ids hash).2 = some rest) ∧
        (putContainers true last ids hash).1.length ≤ max hash.length maxObjectIDs + 1 := by
  induction ids generalizing hash with
  | nil => exact Or.inl ⟨rfl, Nat.le_max_left _ _⟩
  | cons objectID ids ih =>
    have hput := length_dbrPut_le objectID hash
    simp only [putContainers, Bool.true_and, decide_eq_true_eq]
    split_ifs with hlast hfull
    · exact Or.inr ⟨⟨ids, rfl⟩, by show (dbrPut objectID hash).length ≤ _; omega⟩
    · have hroom : max (dbrPut objectID hash).length maxObjectIDs = maxObjectIDs := by omega
      have hle : maxObjectIDs ≤ max hash.length maxObjectIDs := Nat.le_max_right _ _
      rcases ih (dbrPut objectID hash) with ⟨hnone, hlen⟩ | ⟨hrest, hlen⟩
      · exact Or.inl ⟨hnone, by omega⟩
      · exact Or.inr ⟨hrest, by omega⟩
    · exact ih hash

end UpdateManager

/-! ## Waiting calls -/

/-- The call stands between AUTOUNLOCK and AUTORELOCK. -/
def PendingCall.waits (c : PendingCall) : Bool :=
  match c.progress with
  | .between _ => true
  | _ => false

namespace UpdateManager

def waiting (m : UpdateManager) : Nat := m.calls.countP PendingCall.waits

/-- **The condition.**  `containerChanged` puts a new id only while the hash is below
    `MAX_OBJECT_IDS + MAX_OBJECT_IDS_OVERLOAD`, and a call of `containersChanged` comes in only while
    fewer than `MAX_OBJECT_IDS_OVERLOAD` others wait. -/
def Throttled (m : UpdateManager) : UpdateEvent → Prop
  | .lock i => ∀ c, m.calls[i]? = some c →
    match c.progress with
    | .container objectID => dbrSearch objectID m.objectIDHash = false →
        m.objectIDHash.length < maxObjectIDs + maxObjectIDsOverload
    | .containers => m.waiting < maxObjectIDsOverload
    | .between _ => True
  | _ => True

/-- No more ids than there is room for. -/
def Fits (m : UpdateManager) : Prop := m.objectIDHash.length ≤ realCapacity

structure CapacityInv (m : UpdateManager) : Prop where
  size : m.objectIDHash.length ≤ maxObjectIDs + maxObjectIDsOverload + m.waiting
  few : m.waiting ≤ maxObjectIDsOverload

theorem CapacityInv.fits {m : UpdateManager} (hinv : CapacityInv m) : m.Fits := by
  have hsize := hinv.size
  have hfew := hinv.few
  unfold Fits realCapacity
  omega

section

variable {m m' : UpdateManager} {i : Nat} {c : PendingCall}

theorem waiting_leave_none (hc : m.calls[i]? = some c) :
    (m.leave i c none).waiting + (if c.waits then 1 else 0) = m.waiting := by
  obtain ⟨hlt, hget⟩ := List.getElem?_eq_some_iff.mp hc
  have hperm := (List.getElem_cons_eraseIdx_perm hlt).countP_eq PendingCall.waits
  rw [List.countP_cons, hget] at hperm
  exact hperm

theorem waiting_leave_some (hc : m.calls[i]? = some c) (ids : List Int) :
    (m.leave i c (some ids)).waiting + (if c.waits then 1 else 0) = m.waiting + 1 := by
  obtain ⟨hlt, hget⟩ := List.getElem?_eq_some_iff.mp hc
  have hset : (m.calls.set i { c with progress := .between ids }).countP PendingCall.waits =
      m.calls.countP PendingCall.waits - (if m.calls[i].waits then 1 else 0) + 1 :=
    List.countP_set hlt
  have hperm := (List.getElem_cons_eraseIdx_perm hlt).countP_eq PendingCall.waits
  rw [List.countP_cons, hget] at hperm
  rw [hget] at hset
  have hleave : (m.leave i c (some ids)).waiting =
      (m.calls.set i { c with progress := .between ids }).countP PendingCall.waits := rfl
  have hall : m.waiting = m.calls.countP PendingCall.waits := rfl
  omega

/-- A section that ends the call. -/
theorem capacityInv_leave_none {hash : List Int} {last flushPolicy : Int}
    (hc : m.calls[i]? = some c) (hfew : m.waiting ≤ maxObjectIDsOverload)
    (hlen : hash.length + (if c.waits then 1 else 0) ≤
      maxObjectIDs + maxObjectIDsOverload + m.waiting) :
    CapacityInv
      ({ m with
          objectIDHash := hash
          lastContainerChanged := last
          flushPolicy := flushPolicy }.leave i c none) := by
  have hwait := waiting_leave_none hc
  refine ⟨?_, ?_⟩
  · show hash.length ≤ _ + (m.leave i c none).waiting
    omega
  · show (m.leave i c none).waiting ≤ _
    omega

/-- A section after which the call waits. -/
theorem capacityInv_leave_some {hash : List Int} {last flushPolicy : Int}
    (hc : m.calls[i]? = some c) (ids : List Int)
    (hfew : m.waiting + 1 ≤ maxObjectIDsOverload + (if c.waits then 1 else 0))
    (hlen : hash.length + (if c.waits then 1 else 0) ≤
      maxObjectIDs + maxObjectIDsOverload + m.waiting + 1) :
    CapacityInv
      ({ m with
          objectIDHash := hash
          lastContainerChanged := last
          flushPolicy := flushPolicy }.leave i c (some ids)) := by
  have hwait := waiting_leave_some hc ids
  refine ⟨?_, ?_⟩
  · show hash.length ≤ _ + (m.leave i c (some ids)).waiting
    omega
  · show (m.leave i c (some ids)).waiting ≤ _
    omega

/-- `containerChanged`, where it is throttled. -/
theorem capacityInv_container (hinv : CapacityInv m) {objectID : Int} (flushPolicy : Int)
    (hc : m.calls[i]? = some c) (hwaits : c.waits = false)
    (hroom : dbrSearch objectID m.objectIDHash = false →
      m.objectIDHash.length < maxObjectIDs + maxObjectIDsOverload) :
    CapacityInv ((m.containerChanged objectID flushPolicy).leave i c none) := by
  have hsize := hinv.size
  unfold UpdateManager.containerChanged
  by_cases hput : objectID ≠ m.lastContainerChanged ∨ m.flushPolicy < flushPolicy
  · rw [if_pos hput]
    refine capacityInv_leave_none hc hinv.few ?_
    rw [hwaits]
    simp only [Bool.false_eq_true, if_false]
    rcases hfound : dbrSearch objectID m.objectIDHash with _ | _
    · have hle := length_dbrPut_le objectID m.objectIDHash
      have hlt := hroom hfound
      omega
    · rw [length_dbrPut_of_found hfound]
      omega
  · rw [if_neg hput]
    refine capacityInv_leave_none hc hinv.few ?_
    rw [hwaits]
    exact hsize

/-- A section of `containersChanged` that splits. -/
theorem capacityInv_split {flushPolicy : Int} (hc : m.calls[i]? = some c) (ids : List Int)
    (hfew : m.waiting + 1 ≤ maxObjectIDsOverload + (if c.waits then 1 else 0))
    (hlen : max m.objectIDHash.length maxObjectIDs + (if c.waits then 1 else 0) ≤
      maxObjectIDs + maxObjectIDsOverload + m.waiting) :
    CapacityInv (m.containersSection i c true ids flushPolicy) := by
  unfold containersSection
  rcases putContainers_split m.lastContainerChanged ids m.objectIDHash with
    ⟨hnone, hle⟩ | ⟨⟨rest, hrest⟩, hle⟩
  · simp only [hnone]
    refine capacityInv_leave_none hc ?_ (by omega)
    split at hfew <;> omega
  · simp only [hrest]
    exact capacityInv_leave_some hc rest hfew (by omega)

/-- A section of `containersChanged` that does not. -/
theorem capacityInv_whole (hinv : CapacityInv m) {flushPolicy : Int} (hc : m.calls[i]? = some c)
    (hwaits : c.waits = false)
    (hlen : m.objectIDHash.length + c.objectIDs.length < maxObjectIDs + maxObjectIDsOverload) :
    CapacityInv (m.containersSection i c false c.objectIDs flushPolicy) := by
  unfold containersSection
  obtain ⟨hnone, hle⟩ := putContainers_whole m.lastContainerChanged c.objectIDs m.objectIDHash
  simp only [hnone]
  refine capacityInv_leave_none hc hinv.few ?_
  rw [hwaits]
  simp only [Bool.false_eq_true, if_false]
  omega

theorem capacityInv_lock (hinv : CapacityInv m) (hthrottled : m.Throttled (.lock i))
    (h : m.onLock i = some m') : CapacityInv m' := by
  have hsize := hinv.size
  have hfew := hinv.few
  unfold onLock at h
  obtain ⟨c, hc, hsection⟩ := Option.map_eq_some_iff.mp h
  have hroom := hthrottled c hc
  split at hsection
  · next objectID hprogress =>
    rw [hprogress] at hroom
    rw [← hsection]
    exact capacityInv_container hinv c.flushPolicy hc (by rw [PendingCall.waits, hprogress]) hroom
  · next hprogress =>
    rw [hprogress] at hroom
    have hwaits : c.waits = false := by rw [PendingCall.waits, hprogress]
    have hroom' : m.waiting < maxObjectIDsOverload := hroom
    rw [← hsection]
    by_cases hsplit : maxObjectIDs + maxObjectIDsOverload ≤
        m.objectIDHash.length + c.objectIDs.length
    · rw [decide_eq_true hsplit]
      refine capacityInv_split hc c.objectIDs ?_ ?_
      · rw [hwaits]
        exact hroom'
      · rw [hwaits]
        simp only [Bool.false_eq_true, if_false]
        omega
    · rw [decide_eq_false hsplit]
      exact capacityInv_whole hinv hc hwaits (by omega)
  · next ids hprogress =>
    have hwaits : c.waits = true := by rw [PendingCall.waits, hprogress]
    split at hsection
    · rw [← hsection]
      exact hinv
    · next hbelow =>
      rw [← hsection]
      refine capacityInv_split hc ids ?_ ?_
      · rw [hwaits]
        exact Nat.succ_le_succ hfew
      · rw [hwaits]
        have hone : 1 ≤ maxObjectIDsOverload := by decide
        simp only [if_true]
        omega

theorem capacityInv_flush (hinv : CapacityInv m) (throws : Bool) :
    CapacityInv (m.flush throws) := by
  refine ⟨?_, hinv.few⟩
  show (if throws = true then m.objectIDHash else []).length ≤ _ + m.waiting
  split
  · exact hinv.size
  · exact Nat.zero_le _

theorem capacityInv_threadLoop (hinv : CapacityInv m) (turn : ThreadTurn) :
    CapacityInv (m.threadLoop turn) := by
  unfold threadLoop
  split
  · exact ⟨hinv.size, hinv.few⟩
  · split
    · exact ⟨hinv.size, hinv.few⟩
    · split
      · exact ⟨hinv.size, hinv.few⟩
      · exact capacityInv_flush hinv turn.throws

theorem capacityInv_thread {turn : ThreadTurn} (hinv : CapacityInv m)
    (h : m.onThread turn = some m') : CapacityInv m' := by
  unfold onThread at h
  split at h
  · cases h
  · split at h
    · cases h
      exact capacityInv_flush hinv turn.throws
    · cases h
      exact capacityInv_threadLoop hinv turn
  · cases h
    exact capacityInv_threadLoop hinv turn

/-- A call is entered, and waits for the mutex for the first time. -/
theorem CapacityInv.enter (hinv : CapacityInv m) (hwaits : c.waits = false) :
    CapacityInv { m with calls := m.calls ++ [c] } := by
  have hsame : UpdateManager.waiting { m with calls := m.calls ++ [c] } = m.waiting := by
    unfold waiting
    rw [List.countP_append, List.countP_singleton, hwaits]
    rfl
  refine ⟨?_, ?_⟩
  · rw [hsame]
    exact hinv.size
  · rw [hsame]
    exact hinv.few

theorem capacityInv_step {e : UpdateEvent} (hinv : CapacityInv m) (hthrottled : m.Throttled e)
    (h : m.step e = some m') : CapacityInv m' := by
  unfold step at h
  obtain ⟨m₁, hact, rfl⟩ := Option.map_eq_some_iff.mp h
  have hact' : CapacityInv m₁ := by
    cases e with
    | containerChanged objectID flushPolicy =>
      cases hact
      unfold enterContainer
      split
      · exact ⟨hinv.size, hinv.few⟩
      · exact hinv.enter rfl
    | containersChanged objectIDs flushPolicy =>
      cases hact
      exact hinv.enter rfl
    | lock i => exact capacityInv_lock hinv hthrottled hact
    | thread turn => exact capacityInv_thread hinv hact
    | shutdown =>
      cases hact
      exact ⟨hinv.size, hinv.few⟩
  exact ⟨hact'.size, hact'.few⟩

end

end UpdateManager

/-- **The hash never holds more than it has room for** in every interleaving whose sections are
    throttled. -/
theorem hash_fits (events : List UpdateEvent)
    (hthrottled : Along UpdateManager.Throttled UpdateManager.step {} events) :
    Always UpdateManager.Fits UpdateManager.step {} events := by
  have hstart : UpdateManager.CapacityInv {} := ⟨Nat.zero_le _, Nat.zero_le _⟩
  exact always_of_inv_of (fun _ _ _ => UpdateManager.capacityInv_step)
    (fun _ hinv => hinv.fits) hstart hthrottled

/-! ### The update thread is late -/

/-- `containerChanged(0)` to `containerChanged(n - 1)`, one after the other, and no turn of the
    update thread. -/
def notifications : Nat → List UpdateEvent
  | 0 => []
  | n + 1 => notifications n ++ [.containerChanged n flushSpec, .lock 0]

theorem dbrPut_new {n : Nat} : dbrPut n ((List.range n).map Int.ofNat) =
    (List.range (n + 1)).map Int.ofNat := by
  have hnew : (n : Int) ∉ (List.range n).map Int.ofNat := by
    intro hmem
    obtain ⟨k, hk, heq⟩ := List.mem_map.mp hmem
    have hlt := List.mem_range.mp hk
    have hcast : (k : Int) = n := heq
    omega
  have hsearch : dbrSearch n ((List.range n).map Int.ofNat) = false := by
    unfold dbrSearch
    simp only [hnew, decide_false, Bool.and_false]
  unfold dbrPut
  rw [hsearch, List.range_succ, List.map_append]
  rfl

/-- One call with an id that is not in the memo, while no other is pending. -/
theorem run_containerChanged {m : UpdateManager} (hcalls : m.calls = []) {objectID : Int}
    (flushPolicy : Int) (hvalid : objectID ≠ invalidObjectID)
    (hne : objectID ≠ m.lastContainerChanged) :
    ∃ m', run UpdateManager.step m [.containerChanged objectID flushPolicy, .lock 0] = some m' ∧
      m'.calls = [] ∧ m'.objectIDHash = dbrPut objectID m.objectIDHash ∧
      m'.lastContainerChanged = objectID := by
  simp [run_cons, UpdateManager.step, UpdateManager.act, UpdateManager.enterContainer, hvalid,
    hcalls, UpdateManager.onLock, UpdateManager.containerChanged, hne, UpdateManager.leave]

/-- Every one of them puts its id. -/
theorem run_notifications (n : Nat) : ∃ m, run UpdateManager.step {} (notifications n) = some m ∧
    m.calls = [] ∧ m.objectIDHash = (List.range n).map Int.ofNat ∧
    m.lastContainerChanged < n := by
  induction n with
  | zero => exact ⟨{}, rfl, rfl, rfl, by decide⟩
  | succ n ih =>
    obtain ⟨m, hrun, hcalls, hhash, hlast⟩ := ih
    have hvalid : (n : Int) ≠ invalidObjectID := by
      unfold invalidObjectID
      omega
    have hne : (n : Int) ≠ m.lastContainerChanged := by omega
    obtain ⟨m', hrun', hcalls', hhash', hlast'⟩ := run_containerChanged hcalls flushSpec hvalid hne
    refine ⟨m', ?_, hcalls', ?_, ?_⟩
    · rw [notifications, run_append, hrun]
      exact hrun'
    · rw [hhash', hhash, dbrPut_new]
    · rw [hlast']
      omega

/-- One notification, and the update thread sends it. -/
theorem hash_fits_sent : Always UpdateManager.Fits UpdateManager.step {}
    [.containerChanged 5 flushAsap, .lock 0, .thread ⟨false, 0, false⟩] := by
  refine hash_fits _ (along_cons trivial rfl (along_cons ?_ rfl (along_cons trivial rfl trivial)))
  intro c hc
  cases hc
  exact fun _ => by decide

/-- The hash has room for 1060 ids, and holds 1061. -/
theorem hash_overflows :
    ¬ Always UpdateManager.Fits UpdateManager.step {} (notifications (realCapacity + 1)) := by
  intro h
  obtain ⟨m, hrun, -, hhash, -⟩ := run_notifications (realCapacity + 1)
  have hfits : m.objectIDHash.length ≤ realCapacity := h.last hrun
  rw [hhash, List.length_map, List.length_range] at hfits
  omega

end MediaTomb
