/-
  No notification is lost.

  An id that a call was given is NOTED: it is in the hash, or a call to `incrementUpdateIDs` that
  came later than the call has had it.  Flushing keeps that, since it hands over the whole hash.

  The one place where an id is not put into the hash is the memo, `lastContainerChanged`.  The
  invariant is that the id in the memo is in the hash: it is put there when the memo is set, and the
  only section that empties the hash forgets the memo first.
-/
import MediaTomb.Update.UpdateManager

namespace MediaTomb

open Lib.Machine

namespace UpdateManager

/-- The id is in the hash, or has been flushed later than `began`. -/
def Noted (m : UpdateManager) (began : Nat) (objectID : Int) : Prop :=
  objectID ∈ m.objectIDHash ∨
    ∃ f ∈ m.flushes, began < f.started ∧ objectID ∈ f.objectIDs

/-- What is already known of a call that has not returned. -/
def PendingNoted (m : UpdateManager) (c : PendingCall) : Prop :=
  c.began < m.now ∧
    match c.progress with
    | .container objectID => c.objectIDs = [objectID] ∧ objectID ≠ invalidObjectID
    | .containers => True
    | .between ids => ∀ objectID ∈ c.objectIDs, objectID ≠ invalidObjectID → objectID ∉ ids →
        m.Noted c.began objectID

/-- Each valid id of a completed call is noted. -/
def NoneLost (m : UpdateManager) : Prop :=
  ∀ c ∈ m.completed, ∀ objectID ∈ c.objectIDs, objectID ≠ invalidObjectID →
    m.Noted c.began objectID

structure NotedInv (m : UpdateManager) : Prop where
  memo : m.lastContainerChanged ≠ invalidObjectID → m.lastContainerChanged ∈ m.objectIDHash
  past : ∀ c ∈ m.completed, c.began < m.now
  completed : m.NoneLost
  pending : ∀ c ∈ m.calls, m.PendingNoted c

end UpdateManager

/-! ## The hash -/

theorem dbrPut_subset (key : Int) (data : List Int) : data ⊆ dbrPut key data := by
  unfold dbrPut
  split
  · exact fun i hi => hi
  · exact fun i hi => List.mem_append_left _ hi

theorem mem_dbrPut (key : Int) (data : List Int) : key ∈ dbrPut key data := by
  unfold dbrPut dbrSearch
  split
  · next h =>
    simp only [Bool.and_eq_true, decide_eq_true_eq] at h
    exact h.2
  · exact List.mem_append_right _ List.mem_cons_self

namespace UpdateManager

/-- The loop of `containersChanged` puts every id that it passes, but the one in the memo. -/
theorem putContainers_spec (split : Bool) (last : Int) (ids hash : List Int) :
    hash ⊆ (putContainers split last ids hash).1 ∧
      ∀ objectID ∈ ids, objectID ≠ last →
        objectID ∈ (putContainers split last ids hash).1 ∨
          ∃ rest, (putContainers split last ids hash).2 = some rest ∧ objectID ∈ rest := by
  induction ids generalizing hash with
  | nil => exact ⟨fun i hi => hi, fun i hi => (nomatch hi)⟩
  | cons objectID ids ih =>
    simp only [putContainers]
    split_ifs with hlast hfull
    · refine ⟨dbrPut_subset objectID hash, fun i hi hne => ?_⟩
      rcases List.mem_cons.mp hi with rfl | hi
      · exact Or.inl (mem_dbrPut i hash)
      · exact Or.inr ⟨ids, rfl, hi⟩
    · obtain ⟨hsub, hall⟩ := ih (dbrPut objectID hash)
      refine ⟨fun i hi => hsub (dbrPut_subset objectID hash hi), fun i hi hne => ?_⟩
      rcases List.mem_cons.mp hi with rfl | hi
      · exact Or.inl (hsub (mem_dbrPut i hash))
      · exact hall i hi hne
    · obtain ⟨hsub, hall⟩ := ih hash
      refine ⟨hsub, fun i hi hne => ?_⟩
      rcases List.mem_cons.mp hi with rfl | hi
      · exact absurd (not_not.mp hlast) hne
      · exact hall i hi hne

/-- What the loop leaves over was to come. -/
theorem putContainers_rest {split : Bool} {last : Int} {ids hash rest : List Int}
    (h : (putContainers split last ids hash).2 = some rest) : rest ⊆ ids := by
  induction ids generalizing hash with
  | nil => cases h
  | cons objectID ids ih =>
    simp only [putContainers] at h
    split_ifs at h with hlast hfull
    · cases h
      exact fun i hi => List.mem_cons_of_mem _ hi
    · exact fun i hi => List.mem_cons_of_mem _ (ih h hi)
    · exact fun i hi => List.mem_cons_of_mem _ (ih h hi)

/-! ## Sections of the callers -/

section

variable {m m' : UpdateManager}

/-- What a caller's section does: the hash grows, and the memo stays right. -/
structure Grows (m m' : UpdateManager) : Prop where
  hash : m.objectIDHash ⊆ m'.objectIDHash
  flushes : m'.flushes = m.flushes
  now : m'.now = m.now
  memo : m'.lastContainerChanged ≠ invalidObjectID →
    m'.lastContainerChanged ∈ m'.objectIDHash

theorem Grows.noted (h : Grows m m') {began : Nat} {objectID : Int}
    (hn : m.Noted began objectID) : m'.Noted began objectID := by
  rcases hn with hin | hflushed
  · exact Or.inl (h.hash hin)
  · right
    rw [h.flushes]
    exact hflushed

theorem Grows.pending (h : Grows m m') {c : PendingCall} (hc : m.PendingNoted c) :
    m'.PendingNoted c := by
  obtain ⟨began, objectIDs, flushPolicy, progress⟩ := c
  refine ⟨by rw [h.now]; exact hc.1, ?_⟩
  have hrest := hc.2
  cases progress with
  | container objectID => exact hrest
  | containers => exact trivial
  | between ids =>
    intro i hi hvalid hnot
    exact h.noted (hrest i hi hvalid hnot)

/-- A section after which the call waits again, or has returned. -/
theorem NotedInv.leave (hinv : NotedInv m) (hg : Grows m m') (hcalls : m'.calls = m.calls)
    (hcompleted : m'.completed = m.completed) {i : Nat} {c : PendingCall}
    (hc : c ∈ m.calls) {rest : Option (List Int)}
    (hnoted : ∀ objectID ∈ c.objectIDs, objectID ≠ invalidObjectID →
      m'.Noted c.began objectID ∨ ∃ ids, rest = some ids ∧ objectID ∈ ids) :
    NotedInv (m'.leave i c rest) := by
  have hbegan := (hinv.pending c hc).1
  have hpending : ∀ d ∈ m.calls, m'.PendingNoted d := fun d hd => hg.pending (hinv.pending d hd)
  unfold UpdateManager.leave
  rcases rest with _ | ids
  · refine ⟨hg.memo, fun d hd => ?_, fun d hd objectID hid hvalid => ?_, fun d hd => ?_⟩
    · rcases List.mem_append.mp hd with hd | hd
      · rw [hcompleted] at hd
        have hpast := hinv.past d hd
        show d.began < m'.now
        rw [hg.now]
        exact hpast
      · cases List.mem_singleton.mp hd
        show c.began < m'.now
        rw [hg.now]
        exact hbegan
    · rcases List.mem_append.mp hd with hd | hd
      · rw [hcompleted] at hd
        exact hg.noted (hinv.completed d hd objectID hid hvalid)
      · cases List.mem_singleton.mp hd
        rcases hnoted objectID hid hvalid with hn | ⟨ids, hnone, -⟩
        · exact hn
        · cases hnone
    · have hd' : d ∈ m'.calls := List.mem_of_mem_eraseIdx hd
      rw [hcalls] at hd'
      exact hpending d hd'
  · refine ⟨hg.memo, fun d hd => ?_, fun d hd objectID hid hvalid => ?_, fun d hd => ?_⟩
    · rw [hcompleted] at hd
      have hpast := hinv.past d hd
      show d.began < m'.now
      rw [hg.now]
      exact hpast
    · rw [hcompleted] at hd
      exact hg.noted (hinv.completed d hd objectID hid hvalid)
    · rcases List.mem_or_eq_of_mem_set hd with hd | rfl
      · rw [hcalls] at hd
        exact hpending d hd
      · refine ⟨by show c.began < m'.now; rw [hg.now]; exact hbegan, ?_⟩
        intro objectID hid hvalid hnot
        rcases hnoted objectID hid hvalid with hn | ⟨ids', hsome, hin⟩
        · exact hn
        · cases hsome
          exact absurd hin hnot

/-- `containerChanged`. -/
theorem grows_containerChanged (hinv : NotedInv m) (objectID flushPolicy : Int) :
    Grows m (m.containerChanged objectID flushPolicy) ∧
      (objectID ≠ invalidObjectID →
        objectID ∈ (m.containerChanged objectID flushPolicy).objectIDHash) := by
  unfold UpdateManager.containerChanged
  by_cases hput : objectID ≠ m.lastContainerChanged ∨ m.flushPolicy < flushPolicy
  · rw [if_pos hput]
    exact ⟨⟨dbrPut_subset objectID _, rfl, rfl, fun _ => mem_dbrPut objectID _⟩,
      fun _ => mem_dbrPut objectID _⟩
  · -- the memo: the id is in the hash already
    rw [if_neg hput]
    refine ⟨⟨fun i hi => hi, rfl, rfl, hinv.memo⟩, fun hvalid => ?_⟩
    have hsame : objectID = m.lastContainerChanged := by
      by_contra hne
      exact hput (Or.inl hne)
    rw [hsame] at hvalid ⊢
    exact hinv.memo hvalid

/-- The loop of `containersChanged`, on the way in or after the mutex was taken again. -/
theorem grows_putContainers (hinv : NotedInv m) (split : Bool) (ids : List Int)
    (flushPolicy : Int) :
    Grows m
      { m with
        objectIDHash := (putContainers split m.lastContainerChanged ids m.objectIDHash).1
        flushPolicy := flushPolicy } :=
  have hsub := (putContainers_spec split m.lastContainerChanged ids m.objectIDHash).1
  ⟨hsub, rfl, rfl, fun hvalid => hsub (hinv.memo hvalid)⟩

theorem noted_putContainers (hinv : NotedInv m) (split : Bool) {ids : List Int} {objectID : Int}
    (hin : objectID ∈ ids) (hvalid : objectID ≠ invalidObjectID) :
    objectID ∈ (putContainers split m.lastContainerChanged ids m.objectIDHash).1 ∨
      ∃ rest, (putContainers split m.lastContainerChanged ids m.objectIDHash).2 = some rest ∧
        objectID ∈ rest := by
  obtain ⟨hsub, hall⟩ := putContainers_spec split m.lastContainerChanged ids m.objectIDHash
  by_cases hlast : objectID = m.lastContainerChanged
  · left
    rw [hlast] at hvalid ⊢
    exact hsub (hinv.memo hvalid)
  · exact hall objectID hin hlast

theorem notedInv_lock {i : Nat} (hinv : NotedInv m) (h : m.onLock i = some m') :
    NotedInv m' := by
  unfold onLock at h
  obtain ⟨c, hget, hsection⟩ := Option.map_eq_some_iff.mp h
  have hc := List.mem_of_getElem? hget
  have hpending := (hinv.pending c hc).2
  split at hsection
  · next objectID hprogress =>
    rw [hprogress] at hpending
    obtain ⟨hg, hin⟩ := grows_containerChanged hinv objectID c.flushPolicy
    rw [← hsection]
    refine hinv.leave hg ?_ ?_ hc fun i hi hvalid => ?_
    · unfold UpdateManager.containerChanged
      split <;> rfl
    · unfold UpdateManager.containerChanged
      split <;> rfl
    · rw [hpending.1] at hi
      rw [List.mem_singleton.mp hi]
      exact Or.inl (Or.inl (hin hpending.2))
  · rw [← hsection]
    refine hinv.leave (grows_putContainers hinv _ _ _) rfl rfl hc fun i hi hvalid => ?_
    rcases noted_putContainers hinv _ hi hvalid with hin | hrest
    · exact Or.inl (Or.inl hin)
    · exact Or.inr hrest
  · next ids hprogress =>
    rw [hprogress] at hpending
    split at hsection
    · rw [← hsection]
      exact hinv
    · rw [← hsection]
      refine hinv.leave (grows_putContainers hinv _ _ m.flushPolicy) rfl rfl hc
        fun i hi hvalid => ?_
      by_cases hleft : i ∈ ids
      · rcases noted_putContainers hinv true hleft hvalid with hin | hrest
        · exact Or.inl (Or.inl hin)
        · exact Or.inr hrest
      · exact Or.inl ((grows_putContainers hinv true ids m.flushPolicy).noted
          (hpending i hi hvalid hleft))

/-! ## The other sections -/

/-- A call is entered. -/
theorem NotedInv.enter (hinv : NotedInv m) {c : PendingCall} (hbegan : c.began = m.now)
    (hc : match c.progress with
      | .container objectID => c.objectIDs = [objectID] ∧ objectID ≠ invalidObjectID
      | .containers => True
      | .between _ => False) :
    NotedInv { m with calls := m.calls ++ [c], now := m.now + 1 } := by
  refine ⟨hinv.memo, fun d hd => ?_, hinv.completed, fun d hd => ?_⟩
  · have hpast := hinv.past d hd
    show d.began < m.now + 1
    omega
  · rcases List.mem_append.mp hd with hd | hd
    · obtain ⟨hbefore, hrest⟩ := hinv.pending d hd
      refine ⟨?_, hrest⟩
      show d.began < m.now + 1
      omega
    · cases List.mem_singleton.mp hd
      refine ⟨?_, ?_⟩
      · show c.began < m.now + 1
        omega
      · split at hc
        · exact hc
        · trivial
        · exact hc.elim

/-- Nothing but the place of the update thread changes. -/
theorem NotedInv.withThread (hinv : NotedInv m) (thread : UpdateThread) :
    NotedInv { m with thread := thread } :=
  ⟨hinv.memo, hinv.past, hinv.completed, hinv.pending⟩

/-- **A flush** hands over the whole hash, later than every call was entered. -/
theorem noted_flush {began : Nat} {objectID : Int} (throws : Bool) (hbegan : began < m.now)
    (hn : m.Noted began objectID) : (m.flush throws).Noted began objectID := by
  right
  rcases hn with hin | ⟨f, hf, hstarted, hin⟩
  · exact ⟨⟨m.now, m.objectIDHash⟩, List.mem_append_right _ List.mem_cons_self, hbegan, hin⟩
  · exact ⟨f, List.mem_append_left _ hf, hstarted, hin⟩

theorem notedInv_flush (hinv : NotedInv m) (throws : Bool) : NotedInv (m.flush throws) := by
  refine ⟨fun hvalid => absurd rfl hvalid, hinv.past, ?_, fun c hc => ?_⟩
  · intro c hc objectID hid hvalid
    exact noted_flush throws (hinv.past c hc) (hinv.completed c hc objectID hid hvalid)
  · obtain ⟨hbegan, hrest⟩ := hinv.pending c hc
    refine ⟨hbegan, ?_⟩
    obtain ⟨began, objectIDs, flushPolicy, progress⟩ := c
    cases progress with
    | container objectID => exact hrest
    | containers => exact trivial
    | between ids =>
      intro objectID hid hvalid hnot
      exact noted_flush throws hbegan (hrest objectID hid hvalid hnot)

theorem notedInv_threadLoop (hinv : NotedInv m) (turn : ThreadTurn) :
    NotedInv (m.threadLoop turn) := by
  unfold threadLoop
  split
  · exact hinv.withThread _
  · split
    · exact hinv.withThread _
    · split
      · exact hinv.withThread _
      · exact notedInv_flush hinv turn.throws

theorem notedInv_thread {turn : ThreadTurn} (hinv : NotedInv m) (h : m.onThread turn = some m') :
    NotedInv m' := by
  unfold onThread at h
  split at h
  · cases h
  · split at h
    · cases h
      exact notedInv_flush hinv turn.throws
    · cases h
      exact notedInv_threadLoop hinv turn
  · cases h
    exact notedInv_threadLoop hinv turn

/-- The clock goes on. -/
theorem NotedInv.tick (hinv : NotedInv m) : NotedInv { m with now := m.now + 1 } := by
  refine ⟨hinv.memo, fun c hc => ?_, hinv.completed, fun c hc => ?_⟩
  · have hpast := hinv.past c hc
    show c.began < m.now + 1
    omega
  · obtain ⟨hbegan, hrest⟩ := hinv.pending c hc
    refine ⟨?_, hrest⟩
    show c.began < m.now + 1
    omega

theorem notedInv_enterContainer (hinv : NotedInv m) (objectID flushPolicy : Int) :
    NotedInv { m.enterContainer objectID flushPolicy with now := m.now + 1 } := by
  unfold enterContainer
  split_ifs with hvalid
  · -- an invalid id: the call returns at once
    refine ⟨hinv.memo, fun c hc => ?_, fun c hc i hi hne => ?_, hinv.tick.pending⟩
    · rcases List.mem_append.mp hc with hc | hc
      · exact hinv.tick.past c hc
      · cases List.mem_singleton.mp hc
        exact Nat.lt_succ_self m.now
    · rcases List.mem_append.mp hc with hc | hc
      · exact hinv.completed c hc i hi hne
      · cases List.mem_singleton.mp hc
        rw [List.mem_singleton.mp hi] at hne
        exact absurd hvalid hne
  · exact hinv.enter rfl ⟨rfl, hvalid⟩

theorem notedInv_step {e : UpdateEvent} (hinv : NotedInv m) (h : m.step e = some m') :
    NotedInv m' := by
  unfold step at h
  obtain ⟨m₁, hact, rfl⟩ := Option.map_eq_some_iff.mp h
  cases e with
  | containerChanged objectID flushPolicy =>
    cases hact
    have hnow : (m.enterContainer objectID flushPolicy).now = m.now := by
      unfold enterContainer
      split <;> rfl
    rw [hnow]
    exact notedInv_enterContainer hinv objectID flushPolicy
  | containersChanged objectIDs flushPolicy =>
    cases hact
    exact hinv.enter rfl trivial
  | lock i => exact (notedInv_lock hinv hact).tick
  | thread turn => exact (notedInv_thread hinv hact).tick
  | shutdown =>
    cases hact
    exact ⟨hinv.memo, hinv.tick.past, hinv.completed, hinv.tick.pending⟩

end

end UpdateManager

end MediaTomb
