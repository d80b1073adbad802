/-
  The timer (`timer.h`): subscriptions, and the pass that notifies those that are due.

  DATA.     an array of subscriptions; each has the time of its next notification, and a ONCE
            subscription is to be gone after its first.
  PROGRAM.  `notify` goes through the array by index and calls the subscribers.  The mutex is
            recursive, so a callback may add subscriptions, which are appended, and remove any,
            its own too: the last one moves to the free place.  Afterwards a once subscription is
            removed BY THE INDEX, and the place is looked at again.
  RESULT.   every due subscription that is not removed before its turn is notified exactly once, and
            gone are the notified once subscriptions and the removed ones, no others
            (`Pass.notify_right`), in every pass whose steps are all `Harmless`:
              · no removal brings a due subscription from behind the index to it or before it,
              · a once subscription still stands at the index when its callback returns, or is gone
                and the index is behind the end.

  A pass is a machine here: the loop looks at the next element, a callback does something or
  returns.  What a callback does that throws changes nothing, and `notify` catches it.
-/
import MediaTomb.ArrayBase
import MediaTomb.Lib.Machine
import MediaTomb.Tools

namespace MediaTomb

/-! ## Subscriptions -/

/-- `TimerSubscriberElement`; `serial` is the object itself, the other references are numbered too.
    The time of the next notification is kept apart (`Timer.nextNotify`). -/
structure TimerSubscriberElement where
  serial : Nat
  subscriber : Nat
  notifyInterval : Nat
  parameter : Option Nat
  once : Bool
deriving DecidableEq, Repr

namespace TimerSubscriberElement

/-- `equals`: the same subscriber and parameter. -/
def equals (el : TimerSubscriberElement) (subscriber : Nat) (parameter : Option Nat) : Bool :=
  el.subscriber == subscriber && el.parameter == parameter

/-- `getTimespecAfterMillis(notifyInterval * 1000)`, in nanoseconds; the product is an
    `unsigned int`. -/
def nextAfter (el : TimerSubscriberElement) (clock : Int) : Int :=
  clock + ((el.notifyInterval * 1000 % 2 ^ 32 : Nat) : Int) * 1000000

end TimerSubscriberElement

/-- The timer with the subscriptions of one kind.  The objects are not the same one twice. -/
structure Timer where
  subscribers : List TimerSubscriberElement
  nextNotify : Nat → Int
  /-- The object created next. -/
  serial : Nat
  fresh : ∀ el ∈ subscribers, el.serial < serial
  distinct : (subscribers.map (·.serial)).Nodup

namespace Timer

/-- `removeUnordered` on the array. -/
def removeUnordered (t : Timer) (index : Nat) : Timer where
  subscribers := ArrayBase.removeUnordered t.subscribers index
  nextNotify := t.nextNotify
  serial := t.serial
  fresh el hel := t.fresh el (ArrayBase.mem_of_mem_removeUnordered hel)
  distinct := ArrayBase.nodup_map_removeUnordered t.distinct

/-- The constructor of an element, and its place at the end of the array. -/
def append (t : Timer) (el : TimerSubscriberElement) (clock : Int) (h : el.serial = t.serial) :
    Timer where
  subscribers := t.subscribers ++ [el]
  nextNotify := Function.update t.nextNotify el.serial (el.nextAfter clock)
  serial := t.serial + 1
  fresh x hx := by
    rcases List.mem_append.1 hx with hold | hnew
    · exact Nat.lt_succ_of_lt (t.fresh x hold)
    · rw [List.mem_singleton.1 hnew, h]
      exact Nat.lt_succ_self _
  distinct := by
    rw [List.map_append, List.nodup_append]
    refine ⟨t.distinct, List.nodup_singleton _, ?_⟩
    rintro a ha b hb rfl
    obtain ⟨x, hx, rfl⟩ := List.mem_map.1 ha
    have hlt := t.fresh x hx
    have heq : x.serial = el.serial := List.mem_singleton.1 hb
    omega

/-- `element->notified()`. -/
def notified (t : Timer) (el : TimerSubscriberElement) (clock : Int) : Timer :=
  { t with nextNotify := Function.update t.nextNotify el.serial (el.nextAfter clock) }

/-- `addTimerSubscriber`; the new element and the timer with it, or the text of the exception. -/
def addTimerSubscriber (t : Timer) (subscriber notifyInterval : Nat) (parameter : Option Nat)
    (once : Bool) (clock : Int) : Except Str (TimerSubscriberElement × Timer) :=
  if notifyInterval ≤ 0 then
    .error (str "tried to add timer with illegal notifyInterval: " ++ fromInt notifyInterval)
  else if t.subscribers.any (·.equals subscriber parameter) then
    .error (str "tried to add same timer twice")
  else
    let el : TimerSubscriberElement := ⟨t.serial, subscriber, notifyInterval, parameter, once⟩
    .ok (el, t.append el clock rfl)

/-- `removeTimerSubscriber`; the index that was removed at, and the timer afterwards. -/
def removeTimerSubscriber (t : Timer) (subscriber : Nat) (parameter : Option Nat)
    (dontFail : Bool) : Except Str (Option Nat × Timer) :=
  match t.subscribers.findIdx? (·.equals subscriber parameter) with
  | some index => .ok (some index, t.removeUnordered index)
  | none =>
    if dontFail then .ok (none, t) else .error (str "tried to remove nonexistent timer")

/-- `compareTimespecs(element->getNextNotify(), &now) >= 0` -/
def Due (now : Int) (t : Timer) (el : TimerSubscriberElement) : Prop :=
  t.nextNotify el.serial ≤ now

instance (now : Int) (t : Timer) : DecidablePred (t.Due now) :=
  fun _ => inferInstanceAs (Decidable (_ ≤ _))

end Timer

/-! ## The pass -/

/-- A pass of `notify`: the timer, the loop's index, the element whose callback is running, and what
    has happened so far. -/
structure Pass where
  timer : Timer
  i : Nat
  calling : Option TimerSubscriberElement
  notified : List TimerSubscriberElement
  removed : List TimerSubscriberElement
  added : List TimerSubscriberElement

namespace Pass

inductive Event where
  /-- the loop looks at the element with the index -/
  | next
  /-- the callback calls `addTimerSubscriber` -/
  | add (subscriber notifyInterval : Nat) (parameter : Option Nat) (once : Bool) (clock : Int)
  /-- it calls `removeTimerSubscriber` -/
  | remove (subscriber : Nat) (parameter : Option Nat) (dontFail : Bool)
  /-- it returns, or what it has thrown is caught -/
  | returned (clock : Int)
deriving DecidableEq, Repr

/-- `for(int i = 0; …)` -/
def start (t : Timer) : Pass := ⟨t, 0, none, [], [], []⟩

/-- One step of the pass. -/
def step (now : Int) (p : Pass) : Event → Option Pass
  | .next =>
    match p.calling, p.timer.subscribers[p.i]? with
    | none, some el =>
      if p.timer.Due now el then
        some { p with calling := some el, notified := p.notified ++ [el] }
      else some { p with i := p.i + 1 }
    | _, _ => none
  | .add subscriber notifyInterval parameter once clock =>
    match p.calling with
    | none => none
    | some _ =>
      match p.timer.addTimerSubscriber subscriber notifyInterval parameter once clock with
      | .ok (el, t) => some { p with timer := t, added := p.added ++ [el] }
      | .error _ => some p
  | .remove subscriber parameter dontFail =>
    match p.calling with
    | none => none
    | some _ =>
      match p.timer.removeTimerSubscriber subscriber parameter dontFail with
      | .ok (index, t) =>
        let gone := index.bind fun index => p.timer.subscribers[index]?
        some { p with timer := t, removed := p.removed ++ gone.toList }
      | .error _ => some p
  | .returned clock =>
    match p.calling with
    | none => none
    | some el =>
      let t := p.timer.notified el clock
      -- `removeUnordered(i--)`, and the loop's `i++`
      if el.once then some { p with timer := t.removeUnordered p.i, calling := none }
      else some { p with timer := t, i := p.i + 1, calling := none }

/-- The loop has come to its end. -/
def Finished (p : Pass) : Prop := p.calling = none ∧ p.timer.subscribers.length ≤ p.i

/-- **The step does no harm.** -/
def Harmless (now : Int) (p : Pass) : Event → Prop
  | .next => True
  | .add .. => True
  | .remove subscriber parameter _ =>
    ∀ index ∈ p.timer.subscribers.findIdx? (·.equals subscriber parameter), index ≤ p.i →
      ∀ last ∈ p.timer.subscribers.getLast?, p.i + 1 < p.timer.subscribers.length →
        ¬ p.timer.Due now last
  | .returned _ =>
    ∀ el ∈ p.calling, el.once →
      p.timer.subscribers[p.i]? = some el ∨
        (p.timer.subscribers.length ≤ p.i ∧ el ∉ p.timer.subscribers)

instance (now : Int) (p : Pass) : DecidablePred (p.Harmless now)
  | .next => isTrue trivial
  | .add .. => isTrue trivial
  | .remove _ _ _ => inferInstanceAs (Decidable (∀ index ∈ _, _ → ∀ last ∈ _, _ → _))
  | .returned _ => inferInstanceAs (Decidable (∀ el ∈ _, _ → _))

/-! ## What every step keeps -/

/-- The subscriptions there have been. -/
def known (t : Timer) (p : Pass) : List TimerSubscriberElement := t.subscribers ++ p.added

/-- Not removed by a callback, and not a once subscription whose notification is over. -/
def Alive (p : Pass) (el : TimerSubscriberElement) : Prop :=
  el ∉ p.removed ∧ (el.once → el ∈ p.notified → p.calling = some el)

instance (p : Pass) : DecidablePred p.Alive :=
  fun _ => inferInstanceAs (Decidable (_ ∧ (_ → _ → _)))

/-- The places before this one have had their turn. -/
def turn (p : Pass) : Nat := if p.calling.isSome then p.i + 1 else p.i

/-- **The invariant of a pass**: the array has the subscriptions that are alive; whatever was due
    and stands before the place whose turn it is has been notified, and what stands behind has
    not. -/
structure Inv (now : Int) (t : Timer) (p : Pass) : Prop where
  distinct : ((known t p).map (·.serial)).Nodup
  fresh : ∀ el ∈ known t p, el.serial < p.timer.serial
  kept : p.timer.subscribers.Perm ((known t p).filter fun el => p.Alive el)
  notified_nodup : p.notified.Nodup
  notified_known : ∀ el ∈ p.notified, el ∈ known t p
  removed_known : ∀ el ∈ p.removed, el ∈ known t p
  calling_notified : ∀ el ∈ p.calling, el ∈ p.notified
  times : ∀ el ∈ t.subscribers, el ∉ p.notified →
    p.timer.nextNotify el.serial = t.nextNotify el.serial
  before : ∀ j el, p.timer.subscribers[j]? = some el → j < p.turn → el ∈ t.subscribers →
    t.Due now el → el ∈ p.notified
  behind : ∀ j el, p.timer.subscribers[j]? = some el → p.turn ≤ j → el ∉ p.notified

section

variable {now : Int} {t : Timer} {p p' : Pass} {el x : TimerSubscriberElement}

theorem turn_none (h : p.calling = none) : p.turn = p.i := by
  rw [turn, h]
  rfl

theorem turn_some (h : p.calling = some el) : p.turn = p.i + 1 := by
  rw [turn, h]
  rfl

theorem inv_start (now : Int) (t : Timer) : Inv now t (start t) := by
  have hknown : known t (start t) = t.subscribers := List.append_nil _
  refine ⟨?_, ?_, ?_, List.nodup_nil, ?_, ?_, ?_, ?_, ?_, ?_⟩
  · rw [hknown]
    exact t.distinct
  · rw [hknown]
    exact t.fresh
  · rw [hknown, List.filter_eq_self.2]
    · exact List.Perm.refl _
    · intro el _
      exact decide_eq_true ⟨List.not_mem_nil, fun _ h => absurd h List.not_mem_nil⟩
  · exact fun el h => absurd h List.not_mem_nil
  · exact fun el h => absurd h List.not_mem_nil
  · intro el h
    cases h
  · exact fun el _ _ => rfl
  · intro j el _ hj
    exact absurd hj (Nat.not_lt_zero j)
  · exact fun j el _ _ => List.not_mem_nil

theorem Inv.known_nodup (h : Inv now t p) : (known t p).Nodup := h.distinct.of_map _

theorem Inv.subscribers_nodup (h : Inv now t p) : p.timer.subscribers.Nodup :=
  h.kept.nodup_iff.2 (h.known_nodup.filter _)

theorem Inv.mem_iff (h : Inv now t p) : el ∈ p.timer.subscribers ↔ el ∈ known t p ∧ p.Alive el := by
  rw [h.kept.mem_iff, List.mem_filter, decide_eq_true_iff]

/-- Two subscriptions there have been are the same when they are one object. -/
theorem Inv.eq_of_serial (h : Inv now t p) (hel : el ∈ known t p) (hx : x ∈ known t p)
    (hserial : el.serial = x.serial) : el = x :=
  List.inj_on_of_nodup_map h.distinct hel hx hserial

/-- The array after one of the subscriptions in it is gone. -/
theorem Inv.kept_without (h : Inv now t p) {subscribers : List TimerSubscriberElement}
    {Alive' : TimerSubscriberElement → Prop} [DecidablePred Alive']
    (hperm : (el :: subscribers).Perm p.timer.subscribers)
    (halive : ∀ x ∈ known t p, Alive' x ↔ p.Alive x ∧ x ≠ el) :
    subscribers.Perm ((known t p).filter fun x => Alive' x) := by
  have hsub : el ∈ p.timer.subscribers := hperm.subset List.mem_cons_self
  have herase : ((known t p).filter fun x => p.Alive x).erase el
      = (known t p).filter fun x => Alive' x := by
    rw [(h.known_nodup.filter _).erase_eq_filter, List.filter_filter]
    apply List.filter_congr
    intro x hx
    rw [Bool.eq_iff_iff]
    simp only [Bool.and_eq_true, bne_iff_ne, decide_eq_true_iff]
    rw [halive x hx]
    tauto
  have hcons := hperm.trans h.kept
  have herased := hcons.erase el
  rw [List.erase_cons_head, herase] at herased
  exact herased

/-! ### The loop looks at an element -/

theorem inv_next (h : Inv now t p) (hcalling : p.calling = none)
    (hget : p.timer.subscribers[p.i]? = some el) (hdue : ¬ p.timer.Due now el) :
    Inv now t { p with i := p.i + 1 } := by
  have hturn : p.turn = p.i := turn_none hcalling
  have hturn' : turn { p with i := p.i + 1 } = p.i + 1 := turn_none hcalling
  refine ⟨h.distinct, h.fresh, h.kept, h.notified_nodup, h.notified_known, h.removed_known,
    h.calling_notified, h.times, ?_, ?_⟩
  · intro j x hx hj hmem hd
    rw [hturn'] at hj
    by_cases hji : j = p.i
    · subst hji
      obtain rfl : el = x := Option.some.inj (hget.symm.trans hx)
      by_contra hnot
      apply hdue
      rw [Timer.Due, h.times el hmem hnot]
      exact hd
    · exact h.before j x hx (by omega) hmem hd
  · intro j x hx hj
    rw [hturn'] at hj
    exact h.behind j x hx (by omega)

theorem inv_call (h : Inv now t p) (hcalling : p.calling = none)
    (hget : p.timer.subscribers[p.i]? = some el) :
    Inv now t { p with calling := some el, notified := p.notified ++ [el] } := by
  have hturn : p.turn = p.i := turn_none hcalling
  have hturn' : turn { p with calling := some el, notified := p.notified ++ [el] } = p.i + 1 := rfl
  have hnew : el ∉ p.notified := h.behind p.i el hget (by omega)
  have hel := (h.mem_iff.1 (List.mem_of_getElem? hget))
  have halive : ∀ x, Alive { p with calling := some el, notified := p.notified ++ [el] } x ↔
      p.Alive x := by
    intro x
    rw [Alive, Alive, hcalling]
    refine and_congr_right fun _ => forall_congr' fun _ => ?_
    simp only [List.mem_append, List.mem_singleton, Option.some.injEq]
    constructor
    · intro himp hx
      have := himp (Or.inl hx)
      rw [this] at hnew
      exact absurd hx hnew
    · rintro himp (hx | rfl)
      · exact absurd (himp hx) (by simp)
      · rfl
  refine ⟨h.distinct, h.fresh, ?_, ?_, ?_, h.removed_known, ?_, ?_, ?_, ?_⟩
  · simp only [halive]
    exact h.kept
  · rw [List.nodup_append]
    refine ⟨h.notified_nodup, List.nodup_singleton _, ?_⟩
    rintro a ha b hb rfl
    rw [List.mem_singleton.1 hb] at ha
    exact hnew ha
  · intro x hx
    rcases List.mem_append.1 hx with hold | hone
    · exact h.notified_known x hold
    · rw [List.mem_singleton.1 hone]
      exact hel.1
  · intro x hx
    obtain rfl : el = x := Option.some.inj hx
    exact List.mem_append_right _ List.mem_cons_self
  · intro x hx hnot
    exact h.times x hx fun hin => hnot (List.mem_append_left _ hin)
  · intro j x hx hj hmem hd
    rw [hturn'] at hj
    by_cases hji : j = p.i
    · subst hji
      obtain rfl : el = x := Option.some.inj (hget.symm.trans hx)
      exact List.mem_append_right _ List.mem_cons_self
    · exact List.mem_append_left _ (h.before j x hx (by omega) hmem hd)
  · intro j x hx hj hin
    rw [hturn'] at hj
    rcases List.mem_append.1 hin with hold | hone
    · exact h.behind j x hx (by omega) hold
    · obtain rfl := List.mem_singleton.1 hone
      have heq := (List.getElem?_inj (List.getElem?_eq_some_iff.1 hget).1 h.subscribers_nodup).1
        (hget.trans hx.symm)
      omega

/-! ### The callback does something -/

theorem addTimerSubscriber_ok {subscriber notifyInterval : Nat} {parameter : Option Nat}
    {once : Bool} {clock : Int} {t' : Timer}
    (h : p.timer.addTimerSubscriber subscriber notifyInterval parameter once clock
      = .ok (el, t')) : ∃ hserial, t' = p.timer.append el clock hserial := by
  rw [Timer.addTimerSubscriber] at h
  split at h
  · cases h
  · split at h
    · cases h
    · cases h
      exact ⟨rfl, rfl⟩

theorem inv_add (h : Inv now t p) (clock : Int) (hserial : el.serial = p.timer.serial) :
    Inv now t { p with timer := p.timer.append el clock hserial, added := p.added ++ [el] } := by
  have hknown : known t
      { p with timer := p.timer.append el clock hserial, added := p.added ++ [el] }
        = known t p ++ [el] := (List.append_assoc _ _ _).symm
  have hnew : el ∉ known t p := fun hin => by
    have := h.fresh el hin
    omega
  have hnone : el ∉ t.subscribers := fun hin => hnew (List.mem_append_left _ hin)
  have hnotified : el ∉ p.notified := fun hin => hnew (h.notified_known el hin)
  have halive : p.Alive el := ⟨fun hin => hnew (h.removed_known el hin),
    fun _ hin => absurd hin hnotified⟩
  -- what stands in the array is an old one or the new one behind them
  have hplace : ∀ (j : Nat) x, (p.timer.subscribers ++ [el])[j]? = some x →
      p.timer.subscribers[j]? = some x ∨ x = el := by
    intro j x hx
    by_cases hj : j < p.timer.subscribers.length
    · rw [List.getElem?_append_left hj] at hx
      exact Or.inl hx
    · rw [List.getElem?_append_right (by omega)] at hx
      exact Or.inr (List.mem_singleton.1 (List.mem_of_getElem? hx))
  refine ⟨?_, ?_, ?_, h.notified_nodup, ?_, ?_, h.calling_notified, ?_, ?_, ?_⟩
  · rw [hknown, List.map_append, List.nodup_append]
    refine ⟨h.distinct, List.nodup_singleton _, ?_⟩
    rintro a ha b hb rfl
    obtain ⟨x, hx, rfl⟩ := List.mem_map.1 ha
    have hlt := h.fresh x hx
    have heq : x.serial = el.serial := List.mem_singleton.1 hb
    omega
  · rw [hknown]
    intro x hx
    show x.serial < p.timer.serial + 1
    rcases List.mem_append.1 hx with hold | hone
    · exact Nat.lt_succ_of_lt (h.fresh x hold)
    · rw [List.mem_singleton.1 hone, hserial]
      exact Nat.lt_succ_self _
  · rw [hknown, List.filter_append]
    refine List.Perm.append h.kept ?_
    rw [List.filter_singleton]
    simp only [show Alive { p with
      timer := p.timer.append el clock hserial, added := p.added ++ [el] } el from halive,
      decide_true, cond_true]
    exact List.Perm.refl _
  · rw [hknown]
    exact fun x hx => List.mem_append_left _ (h.notified_known x hx)
  · rw [hknown]
    exact fun x hx => List.mem_append_left _ (h.removed_known x hx)
  · intro x hx hnot
    have hne : x.serial ≠ el.serial := by
      have := h.fresh x (List.mem_append_left _ hx)
      omega
    show Function.update p.timer.nextNotify el.serial _ x.serial = _
    rw [Function.update_of_ne hne]
    exact h.times x hx hnot
  · intro j x hx hj hmem hd
    rcases hplace j x hx with hold | rfl
    · exact h.before j x hold hj hmem hd
    · exact absurd hmem hnone
  · intro j x hx hj
    rcases hplace j x hx with hold | rfl
    · exact h.behind j x hold hj
    · exact hnotified

/-- The element at the index is removed by the callback. -/
theorem inv_remove (h : Inv now t p) {c : TimerSubscriberElement} (hcalling : p.calling = some c)
    {index : Nat} (hget : p.timer.subscribers[index]? = some el)
    (hharmless : index ≤ p.i → ∀ last ∈ p.timer.subscribers.getLast?,
      p.i + 1 < p.timer.subscribers.length → ¬ p.timer.Due now last) :
    Inv now t { p with timer := p.timer.removeUnordered index, removed := p.removed ++ [el] } := by
  have hturn : p.turn = p.i + 1 := turn_some hcalling
  have hlt := (List.getElem?_eq_some_iff.1 hget).1
  have hel := (h.mem_iff.1 (List.mem_of_getElem? hget)).1
  refine ⟨h.distinct, h.fresh, ?_, h.notified_nodup, h.notified_known, ?_, h.calling_notified,
    h.times, ?_, ?_⟩
  · refine h.kept_without (ArrayBase.removeUnordered_perm_of_get hget) ?_
    intro x _
    rw [Alive, Alive]
    simp only [List.mem_append, List.mem_singleton]
    tauto
  · intro x hx
    rcases List.mem_append.1 hx with hold | hone
    · exact h.removed_known x hold
    · rw [List.mem_singleton.1 hone]
      exact hel
  · intro j x hx hj hmem hd
    obtain ⟨hlen, ⟨_, hold⟩ | ⟨rfl, hlast⟩⟩ := ArrayBase.getElem?_removeUnordered hlt hx
    · exact h.before j x hold hj hmem hd
    · -- the last one has come to a place that has had its turn
      have hj : j < p.turn := hj
      by_cases hbehind : p.i + 1 < p.timer.subscribers.length
      · by_contra hnot
        refine hharmless (by omega) x ?_ hbehind ?_
        · rw [List.getLast?_eq_getElem?]
          exact hlast
        · rw [Timer.Due, h.times x hmem hnot]
          exact hd
      · exact h.before _ x hlast (by omega) hmem hd
  · intro j x hx hj
    have hj : p.turn ≤ j := hj
    obtain ⟨hlen, ⟨_, hold⟩ | ⟨rfl, hlast⟩⟩ := ArrayBase.getElem?_removeUnordered hlt hx
    · exact h.behind j x hold hj
    · exact h.behind _ x hlast (by omega)

/-! ### The callback returns -/

/-- Only the time of the element that has been notified is another one. -/
theorem times_notified (h : Inv now t p) {c : TimerSubscriberElement}
    (hcalling : p.calling = some c) (clock : Int) :
    ∀ x ∈ t.subscribers, x ∉ p.notified →
      (p.timer.notified c clock).nextNotify x.serial = t.nextNotify x.serial := by
  intro x hx hnot
  have hc := h.calling_notified c hcalling
  have hne : x.serial ≠ c.serial := by
    intro heq
    have hxc := h.eq_of_serial (List.mem_append_left _ hx) (h.notified_known c hc) heq
    rw [hxc] at hnot
    exact hnot hc
  show Function.update p.timer.nextNotify c.serial _ x.serial = _
  rw [Function.update_of_ne hne]
  exact h.times x hx hnot

theorem inv_returned_periodic (h : Inv now t p) {c : TimerSubscriberElement}
    (hcalling : p.calling = some c) (honce : ¬ c.once) (clock : Int) :
    Inv now t { p with timer := p.timer.notified c clock, i := p.i + 1, calling := none } := by
  have hturn : p.turn = p.i + 1 := turn_some hcalling
  have halive : ∀ x, Alive
      { p with timer := p.timer.notified c clock, i := p.i + 1, calling := none } x ↔
        p.Alive x := by
    intro x
    rw [Alive, Alive, hcalling]
    refine and_congr_right fun _ => forall_congr' fun hx => forall_congr' fun _ => ?_
    refine iff_of_false (fun hno => (nomatch hno)) ?_
    intro heq
    rw [Option.some.inj heq] at honce
    exact honce hx
  refine ⟨h.distinct, h.fresh, ?_, h.notified_nodup, h.notified_known, h.removed_known, ?_,
    times_notified h hcalling clock, ?_, ?_⟩
  · simp only [halive]
    exact h.kept
  · intro x hx
    cases hx
  · intro j x hx hj hmem hd
    exact h.before j x hx (by rw [hturn]; exact hj) hmem hd
  · intro j x hx hj
    exact h.behind j x hx (by rw [hturn]; exact hj)

theorem inv_returned_once (h : Inv now t p) {c : TimerSubscriberElement}
    (hcalling : p.calling = some c) (honce : c.once) (clock : Int)
    (hharmless : p.timer.subscribers[p.i]? = some c ∨
      (p.timer.subscribers.length ≤ p.i ∧ c ∉ p.timer.subscribers)) :
    Inv now t { p with
      timer := (p.timer.notified c clock).removeUnordered p.i, calling := none } := by
  have hturn : p.turn = p.i + 1 := turn_some hcalling
  have hc := h.calling_notified c hcalling
  have hknown := h.notified_known c hc
  have halive : ∀ x, Alive { p with
      timer := (p.timer.notified c clock).removeUnordered p.i, calling := none } x ↔
        p.Alive x ∧ x ≠ c := by
    intro x
    rw [Alive, Alive, hcalling]
    simp only [Option.some.injEq]
    constructor
    · rintro ⟨hnot, himp⟩
      refine ⟨⟨hnot, fun hx hin => absurd (himp hx hin) (by simp)⟩, ?_⟩
      rintro rfl
      exact absurd (himp honce hc) (by simp)
    · rintro ⟨⟨hnot, himp⟩, hne⟩
      exact ⟨hnot, fun hx hin => absurd (himp hx hin).symm hne⟩
  rcases hharmless with hget | ⟨hend, hgone⟩
  · have hlt := (List.getElem?_eq_some_iff.1 hget).1
    refine ⟨h.distinct, h.fresh, ?_, h.notified_nodup, h.notified_known, h.removed_known, ?_,
      times_notified h hcalling clock, ?_, ?_⟩
    · exact h.kept_without (ArrayBase.removeUnordered_perm_of_get hget) fun x _ => halive x
    · intro x hx
      cases hx
    · intro j x hx hj hmem hd
      have hj : j < p.i := hj
      obtain ⟨hlen, ⟨_, hold⟩ | ⟨rfl, hlast⟩⟩ := ArrayBase.getElem?_removeUnordered hlt hx
      · exact h.before j x hold (by omega) hmem hd
      · exact absurd hj (Nat.lt_irrefl _)
    · intro j x hx hj
      have hj : p.i ≤ j := hj
      obtain ⟨hlen, ⟨hne, hold⟩ | ⟨rfl, hlast⟩⟩ := ArrayBase.getElem?_removeUnordered hlt hx
      · exact h.behind j x hold (by omega)
      · exact h.behind _ x hlast (by omega)
  · have hsame : ((p.timer.notified c clock).removeUnordered p.i).subscribers
        = p.timer.subscribers := ArrayBase.removeUnordered_outside hend
    have hplace : ∀ (j : Nat) x, p.timer.subscribers[j]? = some x → j < p.i := by
      intro j x hx
      have := (List.getElem?_eq_some_iff.1 hx).1
      omega
    refine ⟨h.distinct, h.fresh, ?_, h.notified_nodup, h.notified_known, h.removed_known, ?_,
      times_notified h hcalling clock, ?_, ?_⟩
    · show List.Perm ((p.timer.notified c clock).removeUnordered p.i).subscribers _
      rw [hsame]
      have hfilter : ((known t p).filter fun x => Alive { p with
          timer := (p.timer.notified c clock).removeUnordered p.i, calling := none } x)
            = (known t p).filter fun x => p.Alive x := by
        apply List.filter_congr
        intro x hx
        rw [Bool.eq_iff_iff]
        simp only [decide_eq_true_iff]
        rw [halive x]
        refine and_iff_left_of_imp ?_
        rintro hx' rfl
        exact hgone (h.mem_iff.2 ⟨hx, hx'⟩)
      exact h.kept.trans (List.Perm.of_eq hfilter.symm)
    · intro x hx
      cases hx
    · intro j x hx hj hmem hd
      rw [hsame] at hx
      exact h.before j x hx (by have := hplace j x hx; omega) hmem hd
    · intro j x hx hj
      rw [hsame] at hx
      have := hplace j x hx
      have hj : p.i ≤ j := hj
      omega

/-! ### Any step -/

theorem inv_step {e : Event} (h : Inv now t p) (hharmless : Harmless now p e)
    (hstep : step now p e = some p') : Inv now t p' := by
  cases e with
  | next =>
    cases hcalling : p.calling with
    | some c => simp [step, hcalling] at hstep
    | none =>
      cases hget : p.timer.subscribers[p.i]? with
      | none => simp [step, hcalling, hget] at hstep
      | some el =>
        simp only [step, hcalling, hget] at hstep
        split at hstep
        · cases hstep
          exact inv_call h hcalling hget
        · next hdue =>
          cases hstep
          have hinv := inv_next h hcalling hget hdue
          rwa [hcalling] at hinv
  | add subscriber notifyInterval parameter once clock =>
    cases hcalling : p.calling with
    | none => simp [step, hcalling] at hstep
    | some c =>
      simp only [step, hcalling] at hstep
      split at hstep
      · next el timer hok =>
        obtain ⟨hserial, rfl⟩ := addTimerSubscriber_ok hok
        cases hstep
        have hinv := inv_add h clock hserial
        rwa [hcalling] at hinv
      · cases hstep
        exact h
  | remove subscriber parameter dontFail =>
    cases hcalling : p.calling with
    | none => simp [step, hcalling] at hstep
    | some c =>
      simp only [step, hcalling, Timer.removeTimerSubscriber] at hstep
      cases hfind : p.timer.subscribers.findIdx? (·.equals subscriber parameter) with
      | none =>
        rw [hfind] at hstep
        by_cases hfail : dontFail = true
        · simp only [hfail, if_true, Option.bind_none, Option.toList_none, List.append_nil] at hstep
          cases hstep
          rwa [← hcalling]
        · simp only [hfail] at hstep
          cases hstep
          exact h
      | some index =>
        rw [hfind] at hstep
        have hlt := (List.findIdx?_eq_some_iff_getElem.1 hfind).1
        have hget := List.getElem?_eq_getElem hlt
        simp only [Option.bind_some, hget, Option.toList_some] at hstep
        cases hstep
        have hinv := inv_remove h hcalling hget (hharmless index hfind)
        rwa [hcalling] at hinv
  | returned clock =>
    cases hcalling : p.calling with
    | none => simp [step, hcalling] at hstep
    | some c =>
      simp only [step, hcalling] at hstep
      split at hstep
      · next honce =>
        cases hstep
        exact inv_returned_once h hcalling honce clock (hharmless c hcalling honce)
      · next honce =>
        cases hstep
        exact inv_returned_periodic h hcalling honce clock

end

/-! ## A whole pass -/

open Lib.Machine (run Along)

/-- **A pass whose steps are all harmless**: what was due is notified exactly once, unless it was
    removed before its turn; and what is left are the subscriptions there have been, without those
    that were removed and the once subscriptions that were notified. -/
theorem notify_right (now : Int) (t : Timer) (es : List Event) (p : Pass)
    (hrun : run (step now) (start t) es = some p) (hdone : p.Finished)
    (hharmless : Along (Harmless now) (step now) (start t) es) :
    (∀ el ∈ t.subscribers, t.Due now el →
      p.notified.count el = 1 ∨ (el ∈ p.removed ∧ el ∉ p.notified)) ∧
    p.timer.subscribers.Perm ((t.subscribers ++ p.added).filter fun el =>
      el ∉ p.removed ∧ ¬ (el.once ∧ el ∈ p.notified)) := by
  have h : Inv now t p := Lib.Machine.run_inv_of (fun p e p' hp hC hs => inv_step hp hC hs)
    (inv_start now t) hharmless hrun
  obtain ⟨hcalling, hend⟩ := hdone
  have halive : ∀ x, p.Alive x ↔ x ∉ p.removed ∧ ¬ (x.once ∧ x ∈ p.notified) := by
    intro x
    rw [Alive, hcalling]
    refine and_congr_right fun _ => ?_
    constructor
    · rintro himp ⟨honce, hin⟩
      exact absurd (himp honce hin) (by simp)
    · intro hnot honce hin
      exact absurd ⟨honce, hin⟩ hnot
  refine ⟨?_, ?_⟩
  · intro el hel hdue
    by_cases hin : el ∈ p.notified
    · exact Or.inl (List.count_eq_one_of_mem h.notified_nodup hin)
    · refine Or.inr ⟨?_, hin⟩
      by_contra hnot
      -- still in the array, it stands before the loop's index
      have hmem : el ∈ p.timer.subscribers :=
        h.mem_iff.2 ⟨List.mem_append_left _ hel, hnot, fun _ hin' => absurd hin' hin⟩
      obtain ⟨j, hj⟩ := List.mem_iff_getElem?.1 hmem
      have hlt := (List.getElem?_eq_some_iff.1 hj).1
      have hturn : p.turn = p.i := turn_none hcalling
      exact hin (h.before j el hj (by omega) hel hdue)
  · have hkept := h.kept
    simp only [halive] at hkept
    exact hkept

/-- Two subscriptions, the first of which is due. -/
def pair (once : Bool) (second : Int) : Timer where
  subscribers := [⟨0, 1, 300, none, once⟩, ⟨1, 2, 60, none, false⟩]
  nextNotify serial := if serial = 1 then second else 0
  serial := 2
  fresh := by
    intro el hel
    simp only [List.mem_cons, List.not_mem_nil, or_false] at hel
    rcases hel with rfl | rfl
    · exact Nat.zero_lt_two
    · exact Nat.one_lt_two
  distinct := by decide +revert

/-- A once subscription and a periodic one, both due. -/
theorem notify_right_pair :
    ∃ p, run (step 0) (start (pair true 0)) [.next, .returned 0, .next, .returned 0] = some p ∧
      (∀ el ∈ (pair true 0).subscribers, (pair true 0).Due 0 el →
        p.notified.count el = 1 ∨ (el ∈ p.removed ∧ el ∉ p.notified)) ∧
      p.timer.subscribers.Perm (((pair true 0).subscribers ++ p.added).filter fun el =>
        el ∉ p.removed ∧ ¬ (el.once ∧ el ∈ p.notified)) :=
  ⟨_, rfl, notify_right 0 (pair true 0) [.next, .returned 0, .next, .returned 0] _ rfl
    ⟨rfl, by decide⟩ (by decide)⟩

/-- A periodic subscription that removes itself, and the due one behind it is not notified; a once
    subscription that removes itself, and the one behind it is gone. -/
theorem notify_skips_and_loses :
    (∃ p, run (step 0) (start (pair false 0)) [.next, .remove 1 none false, .returned 0] = some p ∧
      p.Finished ∧ ∃ el ∈ (pair false 0).subscribers, (pair false 0).Due 0 el ∧
        el ∉ p.notified ∧ el ∉ p.removed) ∧
    (∃ p, run (step 0) (start (pair true 1)) [.next, .remove 1 none false, .returned 0] = some p ∧
      p.Finished ∧ ∃ el ∈ (pair true 1).subscribers, el ∉ p.timer.subscribers ∧
        el ∉ p.notified ∧ el ∉ p.removed) := by
  refine ⟨⟨_, rfl, ⟨rfl, by decide⟩, ⟨1, 2, 60, none, false⟩, ?_⟩,
    ⟨_, rfl, ⟨rfl, by decide⟩, ⟨1, 2, 60, none, false⟩, ?_⟩⟩
  · decide
  · decide

/-! ## A pass ends -/

/-- How many looks at an element are still to come, if nothing is added. -/
def looks (p : Pass) : Nat := p.timer.subscribers.length - p.turn

def Event.isAdd : Event → Bool
  | .add .. => true
  | _ => false

theorem length_removeUnordered_le (xs : List TimerSubscriberElement) (index : Nat) :
    (ArrayBase.removeUnordered xs index).length ≤ xs.length := by
  rcases ArrayBase.removeUnordered_cases xs index with heq | ⟨x, _, hperm⟩
  · rw [heq]
  · have := hperm.length_eq
    rw [List.length_cons] at this
    omega

/-- A look uses one up, and only a new subscription gives another one. -/
theorem looks_step {now : Int} {p p' : Pass} {e : Event} (h : step now p e = some p') :
    (if e = .next then 1 else 0) + p'.looks ≤ p.looks + (if e.isAdd then 1 else 0) := by
  cases e with
  | next =>
    cases hcalling : p.calling with
    | some c => simp [step, hcalling] at h
    | none =>
      have hturn : p.turn = p.i := turn_none hcalling
      cases hget : p.timer.subscribers[p.i]? with
      | none => simp [step, hcalling, hget] at h
      | some el =>
        have hlt := (List.getElem?_eq_some_iff.1 hget).1
        have hmore : p.timer.subscribers.length - (p.i + 1) + 1 = p.looks := by
          rw [looks, hturn]
          omega
        simp only [step, hcalling, hget] at h
        split at h
        · cases h
          rw [if_pos rfl]
          show 1 + (p.timer.subscribers.length - (p.i + 1)) ≤ p.looks + 0
          omega
        · cases h
          rw [if_pos rfl]
          show 1 + (p.timer.subscribers.length - (p.i + 1)) ≤ p.looks + 0
          omega
  | add subscriber notifyInterval parameter once clock =>
    cases hcalling : p.calling with
    | none => simp [step, hcalling] at h
    | some c =>
      have hturn : p.turn = p.i + 1 := turn_some hcalling
      rw [if_neg (fun hne => (nomatch hne)), if_pos (show Event.isAdd (.add _ _ _ _ _) = true from rfl)]
      simp only [step, hcalling] at h
      split at h
      · next el timer hok =>
        obtain ⟨hserial, rfl⟩ := addTimerSubscriber_ok hok
        cases h
        show 0 + ((p.timer.subscribers ++ [el]).length - (p.i + 1)) ≤ _
        rw [looks, hturn, List.length_append, List.length_singleton]
        omega
      · cases h
        omega
  | remove subscriber parameter dontFail =>
    cases hcalling : p.calling with
    | none => simp [step, hcalling] at h
    | some c =>
      have hturn : p.turn = p.i + 1 := turn_some hcalling
      rw [if_neg (fun hne => (nomatch hne)), if_neg (fun hadd => (nomatch hadd))]
      simp only [step, hcalling, Timer.removeTimerSubscriber] at h
      split at h
      · next index timer hok =>
        cases h
        have hle : timer.subscribers.length ≤ p.timer.subscribers.length := by
          split at hok
          · cases hok
            exact length_removeUnordered_le _ _
          · split at hok
            · cases hok
              exact le_rfl
            · cases hok
        show 0 + (timer.subscribers.length - (p.i + 1)) ≤ _
        rw [looks, hturn]
        omega
      · cases h
        omega
  | returned clock =>
    cases hcalling : p.calling with
    | none => simp [step, hcalling] at h
    | some c =>
      have hturn : p.turn = p.i + 1 := turn_some hcalling
      have hlooks : p.looks = p.timer.subscribers.length - (p.i + 1) := by rw [looks, hturn]
      rw [if_neg (fun hne => (nomatch hne)), if_neg (fun hadd => (nomatch hadd)), hlooks]
      simp only [step, hcalling] at h
      split at h
      · cases h
        show 0 + ((ArrayBase.removeUnordered p.timer.subscribers p.i).length - p.i) ≤ _
        by_cases hlt : p.i < p.timer.subscribers.length
        · have hperm := ArrayBase.removeUnordered_perm_of_get (List.getElem?_eq_getElem hlt)
          have hlength := hperm.length_eq
          rw [List.length_cons] at hlength
          omega
        · rw [ArrayBase.removeUnordered_outside (Nat.not_lt.1 hlt)]
          omega
      · cases h
        show 0 + (p.timer.subscribers.length - (p.i + 1)) ≤ _
        omega

/-- **A pass ends**: it looks at no more elements than there are and the callbacks add. -/
theorem looks_le {now : Int} {p p' : Pass} {es : List Event}
    (h : run (step now) p es = some p') :
    es.countP (· = .next) + p'.looks ≤ p.looks + es.countP Event.isAdd := by
  induction es generalizing p with
  | nil =>
    cases h
    exact Nat.le_of_eq (by simp)
  | cons e es ih =>
    obtain ⟨q, hq, hrest⟩ := Lib.Machine.run_cons_some h
    have hstep := looks_step hq
    have hlater := ih hrest
    rw [List.countP_cons, List.countP_cons]
    simp only [decide_eq_true_eq]
    omega

/-- Before the end there is always a look to take or a callback that may return. -/
theorem step_enabled {now : Int} {p : Pass} (h : ¬ p.Finished) :
    (step now p .next).isSome ∨ ∀ clock, (step now p (.returned clock)).isSome := by
  cases hcalling : p.calling with
  | none =>
    have hlt : p.i < p.timer.subscribers.length := by
      by_contra hge
      exact h ⟨hcalling, Nat.not_lt.1 hge⟩
    left
    simp only [step, hcalling, List.getElem?_eq_getElem hlt]
    split <;> rfl
  | some c =>
    right
    intro clock
    simp only [step, hcalling]
    split <;> rfl

end Pass

end MediaTomb
