/-
  The circular buffer between a thread that fetches bytes and the one that reads them
  (`io_handler_buffer_helper.cc`).

  The reader owns `a`, the thread owns `b`; `a = b` means full or empty, and `empty` tells which.
  `read` is three steps: a section under the mutex that waits until there is something, the copying
  without the mutex, and a second section that gives the bytes free.

  The copying works on the END INDEX of the first section (`bLocal`), which the thread may have left
  behind since; and the fill size is an `int`, computed from indices that are `size_t`.

  `close` is not called while a read is under way, so that `threadShutdown` is never set here.
-/
import MediaTomb.Handlers.IOHandler
import MediaTomb.Lib.Ring

namespace MediaTomb

open Lib.Ring

/-- What the constructor accepts. -/
structure BufferSizes where
  bufSize : Nat
  initialFillSize : Nat
  bufSize_pos : 0 < bufSize
  initialFillSize_le : initialFillSize ≤ bufSize

inductive Whence where
  | seekSet
  | seekCur
  | seekEnd
  deriving DecidableEq

structure IOHandlerBufferHelper extends BufferSizes where
  buffer : Nat → UInt8
  eof : Bool := false
  readError : Bool := false
  waitForInitialFillSize : Bool
  checkSocket : Bool := false
  empty : Bool := true
  a : Nat := 0
  b : Nat := 0
  posRead : Int := 0
  doSeek : Bool := false
  seekOffset : Int := 0
  seekWhence : Whence := .seekSet

/-- Where the reading thread is. -/
inductive Reader where
  | idle
  /-- between the two sections of `read`: the copying is still to be done -/
  | copying (length bLocal : Nat)
  | copied (bytes : List UInt8)
  /-- in `seek`, until the seek has been processed -/
  | seeking

namespace IOHandlerBufferHelper

/-- The constructor; `malloc` leaves anything in the buffer. -/
def new (sizes : BufferSizes) (buffer : Nat → UInt8) : IOHandlerBufferHelper :=
  { sizes with
    buffer := buffer
    waitForInitialFillSize := decide (0 < sizes.initialFillSize) }

/-- `int currentFillSize = b - a`, and the size of the buffer more if that is not positive. -/
def currentFillSize (h : IOHandlerBufferHelper) (b : Nat) : Int :=
  let currentFillSize := toCInt ((b : Int) - h.a)
  if currentFillSize ≤ 0 then toCInt (currentFillSize + h.bufSize) else currentFillSize

/-! ## `read` -/

/-- The condition of the loop at the beginning of `read`. -/
def mustWait (h : IOHandlerBufferHelper) : Bool :=
  (h.empty || h.waitForInitialFillSize) && !(h.eof || h.readError)

/-- The first section: `none` as long as it waits; a result, or the end index to copy up to. -/
def enter (h : IOHandlerBufferHelper) : Option (IOHandlerBufferHelper × (Int ⊕ Nat)) :=
  if h.mustWait then
    if h.checkSocket then some ({ h with checkSocket := false }, .inl MediaTomb.checkSocket)
    else none
  else if h.readError then some (h, .inl (-1))
  else if h.empty && h.eof then some (h, .inl 0)
  else some (h, .inr h.b)

def maxRead1 (h : IOHandlerBufferHelper) (bLocal : Nat) : Nat :=
  if h.a < bLocal then bLocal - h.a else h.bufSize - h.a

def read1 (h : IOHandlerBufferHelper) (bLocal length : Nat) : Nat :=
  if h.maxRead1 bLocal > length then length else h.maxRead1 bLocal

def maxRead2 (h : IOHandlerBufferHelper) (bLocal length : Nat) : Nat :=
  toSize (h.currentFillSize bLocal - h.read1 bLocal length)

def read2 (h : IOHandlerBufferHelper) (bLocal length : Nat) : Nat :=
  let read2 := if h.read1 bLocal length < length then length - h.read1 bLocal length else 0
  if read2 > h.maxRead2 bLocal length then h.maxRead2 bLocal length else read2

/-- The copying: a piece from `a` on, and one from the beginning of the buffer. -/
def copyOut (h : IOHandlerBufferHelper) (bLocal length : Nat) : List UInt8 :=
  slice h.buffer h.a (h.read1 bLocal length) ++ slice h.buffer 0 (h.read2 bLocal length)

/-- The second section. -/
def leave (h : IOHandlerBufferHelper) (didRead : Nat) : IOHandlerBufferHelper :=
  let a := h.a + didRead
  let a := if a ≥ h.bufSize then a - h.bufSize else a
  { h with
    a := a
    empty := if a = h.b then true else h.empty
    posRead := h.posRead + didRead }

/-- What the caller of `read` finds in its buffer, going by the result. -/
def returnedBytes (bytes : List UInt8) : List UInt8 := bytes.take (toCInt bytes.length).toNat

/-! ## The other side -/

/-- What follows a write when `b` has been moved. -/
def filled (h : IOHandlerBufferHelper) (b : Nat) : IOHandlerBufferHelper :=
  { h with
    b := b
    empty := false
    waitForInitialFillSize :=
      h.waitForInitialFillSize && !decide (h.initialFillSize ≤ toSize (h.currentFillSize b)) }

/-- How much can be written in one piece. -/
def maxWrite (h : IOHandlerBufferHelper) : Nat :=
  if h.empty then h.bufSize else if h.a < h.b then h.bufSize - h.b else h.a - h.b

/-- An empty buffer is used from its beginning. -/
def rewind (h : IOHandlerBufferHelper) : IOHandlerBufferHelper :=
  { h with a := if h.empty then 0 else h.a, b := if h.empty then 0 else h.b }

/-! ## What the buffer holds -/

section

variable {h h' : IOHandlerBufferHelper} {data rest bytes : List UInt8} {bLocal length m : Nat}

/-- The buffer holds these bytes. -/
structure Holds (h : IOHandlerBufferHelper) (data : List UInt8) : Prop where
  a_lt : h.a < h.bufSize
  b_eq : h.b = slot h.bufSize h.a data.length
  fits : data.length ≤ h.bufSize
  empty_iff : h.empty = true ↔ data = []
  window_eq : window h.buffer h.bufSize h.a data.length = data

theorem holds_new (sizes : BufferSizes) (buffer : Nat → UInt8) : Holds (new sizes buffer) [] := by
  refine ⟨sizes.bufSize_pos, ?_, Nat.zero_le _, ⟨fun _ => rfl, fun _ => rfl⟩, rfl⟩
  exact (slot_zero sizes.bufSize_pos).symm

/-- A buffer that differs in nothing of the queue holds the same. -/
theorem Holds.congr (hh : Holds h data) (hsizes : h'.toBufferSizes = h.toBufferSizes)
    (hbuffer : h'.buffer = h.buffer) (hempty : h'.empty = h.empty) (ha : h'.a = h.a)
    (hb : h'.b = h.b) : Holds h' data := by
  have hsize : h'.bufSize = h.bufSize := congrArg BufferSizes.bufSize hsizes
  refine ⟨?_, ?_, ?_, ?_, ?_⟩
  · rw [ha, hsize]
    exact hh.a_lt
  · rw [hb, hsize, ha]
    exact hh.b_eq
  · rw [hsize]
    exact hh.fits
  · rw [hempty]
    exact hh.empty_iff
  · rw [hbuffer, hsize, ha]
    exact hh.window_eq

/-- **The fill size**, where an `int` can hold it. -/
theorem currentFillSize_slot (hsmall : h.bufSize < 2 ^ 31) (ha : h.a < h.bufSize) (hpos : 0 < m)
    (hm : m ≤ h.bufSize) : h.currentFillSize (slot h.bufSize h.a m) = m := by
  unfold currentFillSize slot
  by_cases hwrap : h.a + m < h.bufSize
  · rw [if_pos hwrap]
    have hdiff : ((h.a + m : Nat) : Int) - h.a = m := by omega
    rw [hdiff, toCInt_of_lt (by omega)]
    simp only
    rw [if_neg (by omega)]
  · rw [if_neg hwrap]
    have hdiff : ((h.a + m - h.bufSize : Nat) : Int) - h.a = m - h.bufSize := by omega
    rw [hdiff, toCInt_of_fits (by omega) (by omega)]
    simp only
    rw [if_pos (by omega), Int.sub_add_cancel, toCInt_of_lt (by omega)]

/-- **The copying takes the front of the queue**, up to the end index it was given. -/
theorem copyOut_eq (hsmall : h.bufSize < 2 ^ 31) (ha : h.a < h.bufSize) (hpos : 0 < m)
    (hm : m ≤ h.bufSize) (hlocal : bLocal = slot h.bufSize h.a m) :
    h.copyOut bLocal length = window h.buffer h.bufSize h.a (min m length) := by
  have hfill : h.currentFillSize bLocal = m := by
    rw [hlocal]
    exact currentFillSize_slot hsmall ha hpos hm
  have hmax : h.maxRead1 bLocal = min m (h.bufSize - h.a) := by
    unfold maxRead1
    rw [hlocal]
    unfold slot
    split_ifs <;> omega
  have hread1 : h.read1 bLocal length = min (min m length) (h.bufSize - h.a) := by
    unfold read1
    rw [hmax]
    split_ifs <;> omega
  have hread2 : h.read2 bLocal length = min m length - (h.bufSize - h.a) := by
    have hmax2 : h.maxRead2 bLocal length = m - h.read1 bLocal length := by
      unfold maxRead2
      rw [hfill]
      have hcast : (m : Int) - h.read1 bLocal length = (m - h.read1 bLocal length : Nat) := by
        omega
      rw [hcast]
      exact toSize_of_lt (by omega)
    unfold read2
    rw [hmax2, hread1]
    simp only
    split_ifs <;> omega
  unfold copyOut
  rw [hread1, hread2]
  rcases Nat.lt_or_ge (h.a + min m length) h.bufSize with hin | hout
  · have hnone : min m length - (h.bufSize - h.a) = 0 := by omega
    have hall : min (min m length) (h.bufSize - h.a) = min m length := by omega
    rw [hnone, hall, window_linear (by omega)]
    exact List.append_nil _
  · have hend : min (min m length) (h.bufSize - h.a) = h.bufSize - h.a := by omega
    rw [hend, window_wrapped ha (by omega) hout]

/-- **The second section** takes the bytes off the front. -/
theorem Holds.leave (hh : Holds h (bytes ++ rest)) (hne : bytes ≠ []) :
    Holds (h.leave bytes.length) rest := by
  have hlen : (bytes ++ rest).length = bytes.length + rest.length := List.length_append
  have hpos : 0 < bytes.length := List.length_pos_iff.mpr hne
  have hfits := hh.fits
  have ha := hh.a_lt
  have hstart : (h.leave bytes.length).a = slot h.bufSize h.a bytes.length := by
    unfold IOHandlerBufferHelper.leave slot
    simp only
    split_ifs <;> omega
  have hsize : (h.leave bytes.length).bufSize = h.bufSize := rfl
  have hend : h.b = slot h.bufSize (slot h.bufSize h.a bytes.length) rest.length := by
    rw [slot_slot ha (by omega), ← hlen]
    exact hh.b_eq
  refine ⟨?_, ?_, ?_, ?_, ?_⟩
  · rw [hstart, hsize]
    exact slot_lt ha (by omega)
  · rw [hstart, hsize]
    exact hend
  · rw [hsize]
    omega
  · have hempty : (h.leave bytes.length).empty =
        if slot h.bufSize h.a bytes.length = h.b then true else h.empty := by
      rw [← hstart]
      rfl
    have hold : h.empty = false := by
      rw [← Bool.not_eq_true, hh.empty_iff]
      intro hnil
      exact hne (List.append_eq_nil_iff.mp hnil).1
    rw [hempty, hold]
    constructor
    · intro hyes
      by_cases hmeet : slot h.bufSize h.a bytes.length = h.b
      · -- the ends meet only where nothing is between them
        rw [hh.b_eq, hlen] at hmeet
        have hzero : rest.length = 0 := by
          revert hmeet
          unfold slot
          split_ifs <;> omega
        exact List.length_eq_zero_iff.mp hzero
      · rw [if_neg hmeet] at hyes
        cases hyes
    · intro hnil
      rw [hnil] at hend
      rw [if_pos]
      rw [hend]
      exact (slot_zero (slot_lt ha (by omega))).symm
  · rw [hstart, hsize]
    have hdrop := congrArg (List.drop bytes.length) hh.window_eq
    rw [window_drop ha hfits (by omega), List.drop_left, hlen, Nat.add_sub_cancel_left] at hdrop
    exact hdrop

/-- **A write** puts its bytes behind the others. -/
theorem Holds.filled {b : Nat} (hh : Holds h data) (hne : bytes ≠ [])
    (hfits : data.length + bytes.length ≤ h.bufSize)
    (hstored : window h.buffer h.bufSize h.b bytes.length = bytes)
    (hb : b = slot h.bufSize h.b bytes.length) : Holds (h.filled b) (data ++ bytes) := by
  have ha := hh.a_lt
  have hlen : (data ++ bytes).length = data.length + bytes.length := List.length_append
  refine ⟨ha, ?_, ?_, ⟨fun hno => (nomatch hno), fun hnil => ?_⟩, ?_⟩
  · show b = slot h.bufSize h.a (data ++ bytes).length
    rw [hlen, ← slot_slot ha hfits, ← hh.b_eq]
    exact hb
  · rw [hlen]
    exact hfits
  · cases hne (List.append_eq_nil_iff.mp hnil).2
  · show window h.buffer h.bufSize h.a (data ++ bytes).length = data ++ bytes
    rw [hlen, window_append ha hfits, hh.window_eq, ← hh.b_eq, hstored]

/-- Bytes that are stored behind the queue do not count yet. -/
theorem Holds.store (hh : Holds h data) (hfits : data.length + bytes.length ≤ h.bufSize)
    (hlinear : h.b + bytes.length ≤ h.bufSize) :
    Holds { h with buffer := store h.buffer h.b bytes } data := by
  refine ⟨hh.a_lt, hh.b_eq, hh.fits, hh.empty_iff, ?_⟩
  show window (Lib.Ring.store h.buffer h.b bytes) h.bufSize h.a data.length = data
  rw [window_store_behind hfits hh.b_eq hlinear]
  exact hh.window_eq

theorem rewind_of_empty (hempty : h.empty = true) : h.rewind = { h with a := 0, b := 0 } := by
  unfold IOHandlerBufferHelper.rewind
  rw [if_pos hempty, if_pos hempty]

theorem rewind_of_not_empty (hempty : ¬ h.empty = true) : h.rewind = h := by
  unfold IOHandlerBufferHelper.rewind
  rw [if_neg hempty, if_neg hempty]

theorem Holds.rewind (hh : Holds h data) : Holds h.rewind data := by
  by_cases hempty : h.empty = true
  · rw [rewind_of_empty hempty, hh.empty_iff.mp hempty]
    refine ⟨h.bufSize_pos, ?_, Nat.zero_le _, ⟨fun _ => rfl, fun _ => hempty⟩, rfl⟩
    exact (slot_zero h.bufSize_pos).symm
  · rw [rewind_of_not_empty hempty]
    exact hh

/-! ## The reader between its sections -/

/-- What the reader knows of the queue while it has not got the mutex. -/
def Reads (h : IOHandlerBufferHelper) (data : List UInt8) : Reader → Prop
  | .copying length bLocal => 0 < length ∧
      ∃ m, 0 < m ∧ m ≤ data.length ∧ bLocal = slot h.bufSize h.a m
  | .copied bytes => bytes ≠ [] ∧ bytes <+: data
  | .idle | .seeking => True

theorem Reads.copyOut (hr : Reads h data (.copying length bLocal)) (hh : Holds h data)
    (hsmall : h.bufSize < 2 ^ 31) : Reads h data (.copied (h.copyOut bLocal length)) := by
  obtain ⟨hlen, m, hpos, hm, hlocal⟩ := hr
  have hfits := hh.fits
  rw [copyOut_eq hsmall hh.a_lt hpos (by omega) hlocal]
  refine ⟨fun hnil => ?_, ?_⟩
  · have hzero := congrArg List.length hnil
    rw [length_window, List.length_nil] at hzero
    omega
  · have htake : window h.buffer h.bufSize h.a (min m length) = data.take (min m length) := by
      rw [← hh.window_eq, window_take (by omega)]
    rw [htake]
    exact List.take_prefix _ _

/-- Bytes that come behind do not disturb the reader. -/
theorem Reads.mono {reader : Reader} (hr : Reads h data reader) (ha : h'.a = h.a)
    (hsize : h'.bufSize = h.bufSize) : Reads h' (data ++ rest) reader := by
  cases reader with
  | copying length bLocal =>
    obtain ⟨hlen, m, hpos, hm, hlocal⟩ := hr
    refine ⟨hlen, m, hpos, ?_, ?_⟩
    · rw [List.length_append]
      omega
    · rw [ha, hsize]
      exact hlocal
  | copied bytes => exact ⟨hr.1, hr.2.trans (List.prefix_append _ _)⟩
  | idle => exact trivial
  | seeking => exact trivial

/-- The reader is not between its sections when the buffer is empty. -/
theorem Reads.of_nil {reader : Reader} (hr : Reads h [] reader) : Reads h' data reader := by
  cases reader with
  | copying length bLocal =>
    obtain ⟨-, m, hpos, hm, -⟩ := hr
    rw [List.length_nil] at hm
    omega
  | copied bytes => exact absurd (List.prefix_nil.mp hr.2) hr.1
  | idle => exact trivial
  | seeking => exact trivial

theorem Reads.rewind {reader : Reader} (hr : Reads h data reader) (hh : Holds h data) :
    Reads h.rewind data reader := by
  by_cases hempty : h.empty = true
  · rw [hh.empty_iff.mp hempty] at hr
    exact hr.of_nil
  · rw [rewind_of_not_empty hempty]
    exact hr

/-! ## The first section -/

/-- A result of the first section leaves the queue alone; it is 0 only at the end of the file. -/
theorem enter_returns {ret : Int} (henter : h.enter = some (h', .inl ret)) :
    (∃ socket, h' = { h with checkSocket := socket }) ∧
      (ret = 0 → h.empty = true ∧ h.eof = true) := by
  unfold enter at henter
  split_ifs at henter with hwait hsocket hfailed hnothing
  · cases henter
    exact ⟨⟨false, rfl⟩, fun hzero => (nomatch hzero)⟩
  · cases henter
    exact ⟨⟨h.checkSocket, rfl⟩, fun hzero => (nomatch hzero)⟩
  · cases henter
    rw [Bool.and_eq_true] at hnothing
    exact ⟨⟨h.checkSocket, rfl⟩, fun _ => hnothing⟩
  · cases henter

/-- **There is something to copy** when the first section does not return: it has left its loop, and
    not because of the end of the file. -/
theorem enter_copies (henter : h.enter = some (h', .inr bLocal)) :
    h' = h ∧ bLocal = h.b ∧ h.empty = false ∧ h.readError = false := by
  unfold enter at henter
  split_ifs at henter with hwait hsocket hfailed hnothing
  · cases henter
  · cases henter
  · cases henter
  · cases henter
    refine ⟨rfl, rfl, ?_, Bool.eq_false_iff.mpr hfailed⟩
    rcases hempty : h.empty with _ | _
    · rfl
    · unfold mustWait at hwait
      rw [hempty] at hwait hnothing
      simp only [Bool.true_or, Bool.true_and, Bool.not_eq_true', Bool.not_eq_true]
        at hwait hnothing hfailed
      rw [hnothing, hfailed] at hwait
      cases hwait rfl

theorem Reads.enter (hh : Holds h data) (hlen : 0 < length) (hempty : h.empty = false) :
    Reads h data (.copying length h.b) := by
  refine ⟨hlen, data.length, ?_, Nat.le_refl _, hh.b_eq⟩
  rw [List.length_pos_iff]
  intro hnil
  rw [hh.empty_iff.mpr hnil] at hempty
  cases hempty

/-- The result tells how many bytes there are. -/
theorem returnedBytes_eq (hsmall : bytes.length < 2 ^ 31) : returnedBytes bytes = bytes := by
  unfold returnedBytes
  rw [toCInt_of_lt hsmall, Int.toNat_natCast]
  exact List.take_length

end

end IOHandlerBufferHelper
end MediaTomb
