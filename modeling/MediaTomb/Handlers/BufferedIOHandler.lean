/-
  A buffer thread that fetches chunks from an underlying handler (`buffered_io_handler.cc`).

  The machine has two threads.  The buffer thread's loop is cut where it gives the mutex away: it
  waits, or it reads from the underlying handler into the buffer; the reader's call is cut likewise.
  The bytes the underlying handler has delivered and those `read` has returned are written down.

  `seekEnabled` is never set for this class: `seek` throws, and the thread's code for seeks is dead.

  **Main result.**  With a buffer whose size fits into an `int`, what `read` has returned is a
  prefix of what was delivered, and all of it once `read` has returned 0.
-/
import MediaTomb.Handlers.IOHandlerBufferHelper
import MediaTomb.Lib.Machine

namespace MediaTomb

open Lib.Ring Lib.Machine

/-! ## The machine -/

/-- Where the buffer thread is. -/
inductive BufferThread where
  /-- at the top of its loop, without the mutex: not yet begun, or waiting -/
  | waiting
  /-- reading from the underlying handler, at most so many bytes -/
  | reading (maxWrite : Nat)
  | hasRead (readBytes : Int)
  | done
  deriving DecidableEq

structure BufferedIOHandler where
  helper : IOHandlerBufferHelper
  maxChunkSize : Nat
  maxChunkSize_pos : 0 < maxChunkSize
  thread : BufferThread := .waiting
  reader : Reader := .idle
  /-- what the underlying handler has delivered -/
  delivered : List UInt8 := []
  /-- what the calls to `read` have returned -/
  returned : List UInt8 := []
  /-- a call to `read` has returned 0 -/
  atEnd : Bool := false

/-- A call to the underlying handler's `read`. -/
inductive Delivery where
  /-- a chunk; at the end of the file it is empty -/
  | chunk (bytes : List UInt8)
  | checkSocket
  | failed

inductive BufferEvent where
  /-- the first section of `read` -/
  | read (length : Nat)
  | copy
  /-- the second section of `read` -/
  | readEnd
  /-- the thread gets the mutex at the top of its loop -/
  | wake
  | underlying (delivery : Delivery)
  /-- the thread gets the mutex after it has read -/
  | relock

namespace BufferedIOHandler

/-- A call that returns `ret`, with these bytes in the caller's buffer. -/
def readReturns (c : BufferedIOHandler) (ret : Int) (bytes : List UInt8) : BufferedIOHandler :=
  { c with
    reader := .idle
    returned := c.returned ++ bytes
    atEnd := c.atEnd || decide (ret = 0) }

def onRead (c : BufferedIOHandler) (length : Nat) : Option BufferedIOHandler :=
  match c.reader with
  | .idle =>
    if length = 0 then none
    else
      match c.helper.enter with
      | none => none
      | some (helper, .inl ret) => some ({ c with helper := helper }.readReturns ret [])
      | some (helper, .inr bLocal) =>
        some { c with helper := helper, reader := .copying length bLocal }
  | _ => none

def onCopy (c : BufferedIOHandler) : Option BufferedIOHandler :=
  match c.reader with
  | .copying length bLocal => some { c with reader := .copied (c.helper.copyOut bLocal length) }
  | _ => none

def onReadEnd (c : BufferedIOHandler) : Option BufferedIOHandler :=
  match c.reader with
  | .copied bytes =>
    some ({ c with helper := c.helper.leave bytes.length }.readReturns (toCInt bytes.length)
      (IOHandlerBufferHelper.returnedBytes bytes))
  | _ => none

/-- The top of the thread's loop, up to where it waits or unlocks the mutex. -/
def loopTop (c : BufferedIOHandler) : BufferedIOHandler :=
  let h := c.helper.rewind
  { c with helper := h, thread := if h.maxWrite = 0 then .waiting else .reading h.maxWrite }

def onWake (c : BufferedIOHandler) : Option BufferedIOHandler :=
  match c.thread with
  | .waiting => some c.loopTop
  | _ => none

/-- `underlyingHandler->read(buffer + b, chunkSize)`: at most `chunkSize` bytes, and an `int`. -/
def onUnderlying (c : BufferedIOHandler) (delivery : Delivery) : Option BufferedIOHandler :=
  match c.thread with
  | .reading maxWrite =>
    match delivery with
    | .chunk bytes =>
      let chunkSize := if c.maxChunkSize > maxWrite then maxWrite else c.maxChunkSize
      if bytes.length ≤ chunkSize ∧ bytes.length < 0x80000000 then
        some { c with
          helper := { c.helper with buffer := store c.helper.buffer c.helper.b bytes }
          thread := .hasRead bytes.length
          delivered := c.delivered ++ bytes }
      else none
    | .checkSocket => some { c with thread := .hasRead MediaTomb.checkSocket }
    | .failed => some { c with thread := .hasRead (-1) }
  | _ => none

/-- What the thread does with a result, and the end or the next round of its loop. -/
def onRelock (c : BufferedIOHandler) : Option BufferedIOHandler :=
  match c.thread with
  | .hasRead readBytes =>
    if 0 < readBytes then
      let b := c.helper.b + readBytes.toNat
      let b := if b = c.helper.bufSize then 0 else b
      some { c with helper := c.helper.filled b }.loopTop
    else if readBytes = MediaTomb.checkSocket then
      some { c with helper := { c.helper with checkSocket := true } }.loopTop
    else if readBytes = 0 then
      some { c with helper := { c.helper with eof := true }, thread := .done }
    else some { c with helper := { c.helper with readError := true }, thread := .done }
  | _ => none

def step (c : BufferedIOHandler) : BufferEvent → Option BufferedIOHandler
  | .read length => c.onRead length
  | .copy => c.onCopy
  | .readEnd => c.onReadEnd
  | .wake => c.onWake
  | .underlying delivery => c.onUnderlying delivery
  | .relock => c.onRelock

/-- A handler that has just been opened. -/
def opened (sizes : BufferSizes) (buffer : Nat → UInt8) (maxChunkSize : Nat)
    (hchunk : 0 < maxChunkSize) : BufferedIOHandler :=
  { helper := .new sizes buffer, maxChunkSize := maxChunkSize, maxChunkSize_pos := hchunk }

/-- What `read` has returned is a prefix of what was delivered; once it has returned 0 it is all of
    it, and nothing more will be delivered. -/
def Delivers (c : BufferedIOHandler) : Prop :=
  c.returned <+: c.delivered ∧
    (c.atEnd = true → c.returned = c.delivered ∧ c.thread = .done)

/-! ## The invariant -/

section

variable {c c' : BufferedIOHandler} {data rest pending bytes : List UInt8} {length : Nat}

/-- What the thread has put into the buffer that does not count yet (`pending`), and how much room
    it was promised. -/
def Writes (h : IOHandlerBufferHelper) (data pending : List UInt8) : BufferThread → Prop
  | .reading maxWrite => pending = [] ∧ h.b + maxWrite ≤ h.bufSize ∧
      data.length + maxWrite ≤ h.bufSize
  | .hasRead readBytes => pending.length = readBytes.toNat ∧
      h.b + pending.length ≤ h.bufSize ∧ data.length + pending.length ≤ h.bufSize ∧
      window h.buffer h.bufSize h.b pending.length = pending
  | .waiting | .done => pending = []

/-- **The invariant**: what was delivered has been returned, or is in the buffer. -/
structure BufferedInv (c : BufferedIOHandler) (data pending : List UInt8) : Prop where
  small : c.helper.bufSize < 2 ^ 31
  holds : c.helper.Holds data
  reads : c.helper.Reads data c.reader
  writes : Writes c.helper data pending c.thread
  account : c.delivered = c.returned ++ (data ++ pending)
  eof : c.helper.eof = true → c.thread = .done
  atEnd : c.atEnd = true → c.helper.eof = true ∧ data = []

theorem BufferedInv.delivers (hinv : BufferedInv c data pending) : c.Delivers := by
  refine ⟨?_, fun hend => ?_⟩
  · rw [hinv.account]
    exact List.prefix_append _ _
  · obtain ⟨heof, hdata⟩ := hinv.atEnd hend
    have hdone := hinv.eof heof
    have hpending := hinv.writes
    rw [hdone] at hpending
    have hnil : pending = [] := hpending
    rw [hinv.account, hdata, hnil]
    exact ⟨(List.append_nil _).symm, hdone⟩

/-! ## The reader -/

theorem bufferedInv_read (hinv : BufferedInv c data pending) (h : c.onRead length = some c') :
    BufferedInv c' data pending := by
  unfold onRead at h
  split at h
  · next hidle =>
    split_ifs at h with hzero
    split at h
    · cases h
    · next helper ret henter =>
      cases h
      obtain ⟨⟨socket, rfl⟩, hret⟩ := IOHandlerBufferHelper.enter_returns henter
      refine ⟨hinv.small, hinv.holds.congr rfl rfl rfl rfl rfl, trivial, hinv.writes, ?_, hinv.eof,
        fun hend => ?_⟩
      · show c.delivered = c.returned ++ [] ++ (data ++ pending)
        rw [List.append_nil]
        exact hinv.account
      · have hor : (c.atEnd || decide (ret = 0)) = true := hend
        rcases (Bool.or_eq_true _ _).mp hor with hold | hnow
        · exact hinv.atEnd hold
        · obtain ⟨hempty, heof⟩ := hret (of_decide_eq_true hnow)
          exact ⟨heof, hinv.holds.empty_iff.mp hempty⟩
    · next helper bLocal henter =>
      cases h
      obtain ⟨rfl, rfl, hempty, -⟩ := IOHandlerBufferHelper.enter_copies henter
      exact ⟨hinv.small, hinv.holds, .enter hinv.holds (Nat.pos_of_ne_zero hzero) hempty,
        hinv.writes, hinv.account, hinv.eof, hinv.atEnd⟩
  · cases h

theorem bufferedInv_copy (hinv : BufferedInv c data pending) (h : c.onCopy = some c') :
    BufferedInv c' data pending := by
  unfold onCopy at h
  split at h
  · next length bLocal hcopying =>
    cases h
    have hreads := hinv.reads
    rw [hcopying] at hreads
    exact ⟨hinv.small, hinv.holds, hreads.copyOut hinv.holds hinv.small, hinv.writes,
      hinv.account, hinv.eof, hinv.atEnd⟩
  · cases h

theorem writes_leave {thread : BufferThread} {h : IOHandlerBufferHelper}
    (hw : Writes h (bytes ++ rest) pending thread) :
    Writes (h.leave bytes.length) rest pending thread := by
  have hlen : (bytes ++ rest).length = bytes.length + rest.length := List.length_append
  cases thread with
  | waiting => exact hw
  | done => exact hw
  | reading maxWrite =>
    obtain ⟨hnil, hlinear, hfits⟩ := hw
    refine ⟨hnil, hlinear, ?_⟩
    show rest.length + maxWrite ≤ h.bufSize
    omega
  | hasRead readBytes =>
    obtain ⟨hcount, hlinear, hfits, hstored⟩ := hw
    refine ⟨hcount, hlinear, ?_, hstored⟩
    show rest.length + pending.length ≤ h.bufSize
    omega

theorem bufferedInv_readEnd (hinv : BufferedInv c data pending) (h : c.onReadEnd = some c') :
    ∃ rest, BufferedInv c' rest pending := by
  unfold onReadEnd at h
  split at h
  · next bytes hcopied =>
    cases h
    have hreads := hinv.reads
    rw [hcopied] at hreads
    obtain ⟨hne, rest, rfl⟩ := hreads
    have hfits := hinv.holds.fits
    rw [List.length_append] at hfits
    have hsmall : bytes.length < 2 ^ 31 := by
      have hsize := hinv.small
      omega
    have hpos := List.length_pos_iff.mpr hne
    refine ⟨rest, hinv.small, hinv.holds.leave hne, trivial, writes_leave hinv.writes, ?_, hinv.eof,
      fun hend => ?_⟩
    · have haccount := hinv.account
      rw [List.append_assoc, ← List.append_assoc] at haccount
      show c.delivered = c.returned ++ IOHandlerBufferHelper.returnedBytes bytes ++ (rest ++ pending)
      rw [IOHandlerBufferHelper.returnedBytes_eq hsmall]
      exact haccount
    · -- a call that returns bytes does not return 0
      have hnotZero : decide (toCInt bytes.length = 0) = false := by
        rw [toCInt_of_lt hsmall]
        exact decide_eq_false (by omega)
      have hold : (c.atEnd || decide (toCInt bytes.length = 0)) = true := hend
      rw [hnotZero, Bool.or_false] at hold
      exact absurd (List.append_eq_nil_iff.mp (hinv.atEnd hold).2).1 hne
  · cases h

/-! ## The thread -/

/-- The thread may write as much as there is room in one piece. -/
theorem writes_loopTop {h : IOHandlerBufferHelper} (hh : h.Holds data)
    (hempty : h.empty = true → h.b = 0) :
    Writes h data [] (if h.maxWrite = 0 then .waiting else .reading h.maxWrite) := by
  have ha := hh.a_lt
  have hb := hh.b_eq
  have hfits := hh.fits
  have hlt : h.b < h.bufSize := by
    rw [hb]
    exact slot_lt ha hfits
  by_cases hfull : h.maxWrite = 0
  · rw [if_pos hfull]
    exact rfl
  · rw [if_neg hfull]
    unfold IOHandlerBufferHelper.maxWrite
    split_ifs with hnil hlt
    · have hdata := hh.empty_iff.mp hnil
      have hstart := hempty hnil
      refine ⟨rfl, by omega, ?_⟩
      rw [hdata, List.length_nil]
      omega
    · -- the data is in one piece
      refine ⟨rfl, by omega, ?_⟩
      revert hb
      unfold slot
      split_ifs <;> omega
    · -- the data goes round the end
      refine ⟨rfl, by omega, ?_⟩
      revert hb
      unfold slot
      split_ifs <;> omega

/-- The thread goes on with its loop. -/
theorem bufferedInv_loopTop (hsmall : c.helper.bufSize < 2 ^ 31) (hholds : c.helper.Holds data)
    (hreads : c.helper.Reads data c.reader) (haccount : c.delivered = c.returned ++ data)
    (hopen : c.helper.eof = false) (hend : c.atEnd = true → c.helper.eof = true) :
    BufferedInv c.loopTop data [] := by
  refine ⟨hsmall, hholds.rewind, hreads.rewind hholds, ?_, ?_, fun heof => ?_, fun h => ?_⟩
  · refine writes_loopTop hholds.rewind fun hempty => ?_
    exact if_pos hempty
  · rw [List.append_nil]
    exact haccount
  · have heof' : c.helper.eof = true := heof
    rw [hopen] at heof'
    cases heof'
  · have heof := hend h
    rw [hopen] at heof
    cases heof

theorem bufferedInv_wake (hinv : BufferedInv c data pending) (h : c.onWake = some c') :
    BufferedInv c' data [] := by
  unfold onWake at h
  split at h
  · next hthread =>
    cases h
    have hnil := hinv.writes
    rw [hthread] at hnil
    have hpending : pending = [] := hnil
    have haccount := hinv.account
    rw [hpending, List.append_nil] at haccount
    refine bufferedInv_loopTop hinv.small hinv.holds hinv.reads haccount ?_
      fun hend => (hinv.atEnd hend).1
    rcases heof : c.helper.eof with _ | _
    · rfl
    · have hdone := hinv.eof heof
      rw [hthread] at hdone
      cases hdone
  · cases h

theorem writes_store {h : IOHandlerBufferHelper} (hfits : data.length + bytes.length ≤ h.bufSize)
    (hlinear : h.b + bytes.length ≤ h.bufSize) :
    Writes { h with buffer := store h.buffer h.b bytes } data bytes (.hasRead bytes.length) :=
  ⟨(Int.toNat_natCast _).symm, hlinear, hfits, window_store hlinear⟩

theorem writes_nothing {h : IOHandlerBufferHelper} {readBytes : Int} (hfits : data.length ≤ h.bufSize)
    (hlinear : h.b ≤ h.bufSize) (hneg : readBytes ≤ 0) :
    Writes h data [] (.hasRead readBytes) := by
  refine ⟨?_, hlinear, hfits, rfl⟩
  rw [List.length_nil]
  omega

/-- What is read goes behind the data, where nobody looks. -/
theorem bufferedInv_underlying {delivery : Delivery} (hinv : BufferedInv c data pending)
    (h : c.onUnderlying delivery = some c') : ∃ pending', BufferedInv c' data pending' := by
  unfold onUnderlying at h
  split at h
  · next maxWrite hthread =>
    obtain ⟨hnil, hlinear, hfits⟩ : Writes c.helper data pending (.reading maxWrite) := by
      rw [← hthread]
      exact hinv.writes
    have hopen : ¬ c.helper.eof = true := by
      intro heof
      have hdone := hinv.eof heof
      rw [hthread] at hdone
      cases hdone
    have hnothing : ∀ readBytes : Int, readBytes ≤ 0 →
        BufferedInv { c with thread := .hasRead readBytes } data [] := by
      intro readBytes hneg
      refine ⟨hinv.small, hinv.holds, hinv.reads, writes_nothing hinv.holds.fits ?_ hneg, ?_,
        fun heof => absurd heof hopen, hinv.atEnd⟩
      · show c.helper.b ≤ c.helper.bufSize
        omega
      · rw [← hnil]
        exact hinv.account
    split at h
    · next bytes =>
      have hroom : bytes.length ≤ maxWrite →
          BufferedInv
            { c with
              helper := { c.helper with buffer := store c.helper.buffer c.helper.b bytes }
              thread := .hasRead bytes.length
              delivered := c.delivered ++ bytes } data bytes := by
        intro hroom
        refine ⟨hinv.small, hinv.holds.store (by omega) (by omega), hinv.reads,
          writes_store (by omega) (by omega), ?_, fun heof => absurd heof hopen, hinv.atEnd⟩
        show c.delivered ++ bytes = c.returned ++ (data ++ bytes)
        rw [hinv.account, hnil, List.append_nil, List.append_assoc]
      simp only at h
      split_ifs at h with hchunk hfit hfit
      · cases h
        exact ⟨bytes, hroom hfit.1⟩
      · cases h
        exact ⟨bytes, hroom (by omega)⟩
    · cases h
      exact ⟨[], hnothing _ (by decide)⟩
    · cases h
      exact ⟨[], hnothing _ (by decide)⟩
  · cases h

theorem bufferedInv_relock (hinv : BufferedInv c data pending) (h : c.onRelock = some c') :
    ∃ data', BufferedInv c' data' [] := by
  unfold onRelock at h
  split at h
  · next readBytes hthread =>
    obtain ⟨hcount, hlinear, hfits, hstored⟩ : Writes c.helper data pending (.hasRead readBytes) := by
      rw [← hthread]
      exact hinv.writes
    have hopen : c.helper.eof = false := by
      rcases heof : c.helper.eof with _ | _
      · rfl
      · have hdone := hinv.eof heof
        rw [hthread] at hdone
        cases hdone
    have hnone : readBytes ≤ 0 → c.delivered = c.returned ++ data := by
      intro hle
      have hzero : pending = [] := List.length_eq_zero_iff.mp (by omega)
      have haccount := hinv.account
      rw [hzero, List.append_nil] at haccount
      exact haccount
    by_cases hpos : 0 < readBytes
    · rw [if_pos hpos] at h
      cases h
      have hne : pending ≠ [] := List.length_pos_iff.mp (by omega)
      have hb : (if c.helper.b + readBytes.toNat = c.helper.bufSize then 0
          else c.helper.b + readBytes.toNat) = slot c.helper.bufSize c.helper.b pending.length := by
        unfold slot
        split_ifs <;> omega
      refine ⟨data ++ pending, bufferedInv_loopTop hinv.small
        (hinv.holds.filled hne hfits hstored hb) (hinv.reads.mono rfl rfl) hinv.account hopen
        fun hend => (hinv.atEnd hend).1⟩
    · rw [if_neg hpos] at h
      have haccount := hnone (by omega)
      by_cases hsocket : readBytes = MediaTomb.checkSocket
      · rw [if_pos hsocket] at h
        cases h
        exact ⟨data, bufferedInv_loopTop hinv.small (hinv.holds.congr rfl rfl rfl rfl rfl) hinv.reads
          haccount hopen fun hend => (hinv.atEnd hend).1⟩
      · rw [if_neg hsocket] at h
        have hnever : ¬ c.atEnd = true := by
          intro hend
          rw [(hinv.atEnd hend).1] at hopen
          cases hopen
        have hfinal : c.delivered = c.returned ++ (data ++ []) := by
          rw [List.append_nil]
          exact haccount
        split_ifs at h
        all_goals
          cases h
          exact ⟨data, hinv.small, hinv.holds.congr rfl rfl rfl rfl rfl, hinv.reads, rfl, hfinal,
            fun _ => rfl, fun hend => absurd hend hnever⟩
  · cases h

theorem bufferedInv_step {e : BufferEvent} (hinv : BufferedInv c data pending)
    (h : c.step e = some c') : ∃ data' pending', BufferedInv c' data' pending' := by
  cases e with
  | read length => exact ⟨data, pending, bufferedInv_read hinv h⟩
  | copy => exact ⟨data, pending, bufferedInv_copy hinv h⟩
  | readEnd =>
    obtain ⟨rest, hrest⟩ := bufferedInv_readEnd hinv h
    exact ⟨rest, pending, hrest⟩
  | wake => exact ⟨data, [], bufferedInv_wake hinv h⟩
  | underlying delivery =>
    obtain ⟨pending', hnext⟩ := bufferedInv_underlying hinv h
    exact ⟨data, pending', hnext⟩
  | relock =>
    obtain ⟨data', hnext⟩ := bufferedInv_relock hinv h
    exact ⟨data', [], hnext⟩

end

/-- There is some data the invariant holds with. -/
def Buffered (c : BufferedIOHandler) : Prop := ∃ data pending, BufferedInv c data pending

theorem buffered_opened {sizes : BufferSizes} {buffer : Nat → UInt8} {maxChunkSize : Nat}
    {hchunk : 0 < maxChunkSize} (hsmall : sizes.bufSize < 2 ^ 31) :
    Buffered (opened sizes buffer maxChunkSize hchunk) :=
  ⟨[], [], hsmall, IOHandlerBufferHelper.holds_new sizes buffer, trivial, rfl, rfl, fun h => (nomatch h),
    fun h => (nomatch h)⟩

end BufferedIOHandler

open BufferedIOHandler in
/-- **The buffer delivers everything, once and in order**, if an `int` can hold its size: whatever
    the chunks, the lengths asked for, and the order of the sections. -/
theorem buffer_delivers (sizes : BufferSizes) (buffer : Nat → UInt8) (maxChunkSize : Nat)
    (hchunk : 0 < maxChunkSize) (events : List BufferEvent) (hsmall : sizes.bufSize < 2 ^ 31) :
    Always Delivers step (opened sizes buffer maxChunkSize hchunk) events := by
  refine always_of_inv (fun c e c' hinv hstep => ?_) (fun c hinv => ?_)
    (buffered_opened hsmall)
  · obtain ⟨data, pending, hinv⟩ := hinv
    exact bufferedInv_step hinv hstep
  · obtain ⟨data, pending, hinv⟩ := hinv
    exact hinv.delivers

namespace BufferedIOHandler

/-- A small buffer; the second chunk goes round its end. -/
def roundTheEnd : List BufferEvent :=
  [.wake, .underlying (.chunk [1, 2, 3]), .relock, .read 2, .copy, .readEnd,
    .underlying (.chunk [4]), .relock, .underlying (.chunk [5, 6]), .relock, .read 5, .copy,
    .readEnd]

end BufferedIOHandler

open BufferedIOHandler in
theorem buffer_delivers_round : Always Delivers step
    (opened ⟨4, 2, by decide, by decide⟩ (fun _ => 0) 3 (by decide)) roundTheEnd :=
  buffer_delivers ⟨4, 2, by decide, by decide⟩ (fun _ => 0) 3 (by decide) roundTheEnd (by decide)

/-! ## A buffer of 2 GiB -/

namespace BufferedIOHandler

/-- One byte more than an `int` can count. -/
def hugeSizes : BufferSizes := ⟨0x80000000, 0, by decide, by decide⟩

def huge : BufferedIOHandler := opened hugeSizes (fun _ => 0) 0x80000000 (by decide)

/-- The thread gets a chunk. -/
def fetching (bytes : List UInt8) : List BufferEvent := [.underlying (.chunk bytes), .relock]

/-- A call to `read` that nobody interferes with. -/
def reading (length : Nat) : List BufferEvent := [.read length, .copy, .readEnd]

/-- The buffer is filled, read in one call, and one byte more comes. -/
def hugeRun (zeros : List UInt8) : List BufferEvent :=
  (.wake :: (fetching zeros ++ fetching [0])) ++
    (reading 0x80000000 ++ (.wake :: (fetching [1] ++ reading 1)))

section

variable {c : BufferedIOHandler} {bytes : List UInt8} {maxWrite length : Nat}

/-- The thread has got a chunk. -/
def fetched (c : BufferedIOHandler) (bytes : List UInt8) : BufferedIOHandler :=
  let b := c.helper.b + bytes.length
  { c with
    helper := { c.helper with buffer := store c.helper.buffer c.helper.b bytes }.filled
      (if b = c.helper.bufSize then 0 else b)
    delivered := c.delivered ++ bytes }

theorem run_fetch (hthread : c.thread = .reading maxWrite) (hne : bytes ≠ [])
    (hchunk : bytes.length ≤ c.maxChunkSize) (hroom : bytes.length ≤ maxWrite)
    (hint : bytes.length < 0x80000000) :
    run step c (fetching bytes) = some (c.fetched bytes).loopTop := by
  have hpos : (0 : Int) < bytes.length := by
    have := List.length_pos_iff.mpr hne
    omega
  have hfits : bytes.length ≤ (if c.maxChunkSize > maxWrite then maxWrite else c.maxChunkSize) := by
    split_ifs <;> omega
  have hread : step c (.underlying (.chunk bytes)) =
      some { c with
        helper := { c.helper with buffer := store c.helper.buffer c.helper.b bytes }
        thread := .hasRead bytes.length
        delivered := c.delivered ++ bytes } := by
    simp only [step, onUnderlying, hthread]
    exact if_pos ⟨hfits, hint⟩
  rw [fetching, run_cons, hread]
  simp only [Option.bind_some, run_cons, step, onRelock, if_pos hpos, Int.toNat_natCast]
  rfl

theorem loopTop_eq (hempty : ¬ c.helper.empty = true) : c.loopTop = { c with
    thread := if c.helper.maxWrite = 0 then .waiting else .reading c.helper.maxWrite } := by
  have hsame := IOHandlerBufferHelper.rewind_of_not_empty hempty
  simp only [loopTop, hsame]

/-- What is left up to the end of a buffer that has not been read from. -/
theorem maxWrite_fetched (ha : c.helper.a = 0) (hne : bytes ≠ []) :
    (c.fetched bytes).helper.maxWrite = c.helper.bufSize - (c.helper.b + bytes.length) := by
  have hpos := List.length_pos_iff.mpr hne
  have hmax : (c.fetched bytes).helper.maxWrite =
      if c.helper.a < (c.fetched bytes).helper.b then
        c.helper.bufSize - (c.fetched bytes).helper.b
      else c.helper.a - (c.fetched bytes).helper.b := rfl
  have hb : (c.fetched bytes).helper.b =
      if c.helper.b + bytes.length = c.helper.bufSize then 0 else c.helper.b + bytes.length := rfl
  rw [hmax, hb]
  split_ifs <;> omega

/-- Such a call has ended. -/
def fullRead (c : BufferedIOHandler) (length : Nat) : BufferedIOHandler :=
  let bytes := c.helper.copyOut c.helper.b length
  { c with helper := c.helper.leave bytes.length }.readReturns (toCInt bytes.length)
    (IOHandlerBufferHelper.returnedBytes bytes)

theorem run_read (hidle : c.reader = .idle) (hlen : 0 < length)
    (henter : c.helper.enter = some (c.helper, .inr c.helper.b)) :
    run step c (reading length) = some (c.fullRead length) := by
  simp only [reading, run_cons, run_nil, step, onRead, hidle, if_neg (Nat.ne_of_gt hlen), henter,
    Option.bind_some, onCopy, onReadEnd]
  rfl

end

/-- The buffer is filled with zeros. -/
theorem huge_filled (zeros : List UInt8) (hlen : zeros.length = 0x7fffffff) :
    run step huge (.wake :: (fetching zeros ++ fetching [0])) =
      some { (huge.loopTop.fetched zeros).fetched [0] with thread := .waiting } := by
  have hne : zeros ≠ [] := by
    intro hnil
    rw [hnil] at hlen
    cases hlen
  have hb : (huge.loopTop.fetched zeros).helper.b = 0x7fffffff := by
    show (if 0 + zeros.length = 0x80000000 then 0 else 0 + zeros.length) = 0x7fffffff
    rw [hlen]
    rfl
  have hmax₁ : (huge.loopTop.fetched zeros).helper.maxWrite = 1 := by
    rw [maxWrite_fetched rfl hne, hlen]
    rfl
  have hmax₂ : ((huge.loopTop.fetched zeros).fetched [0]).helper.maxWrite = 0 := by
    rw [maxWrite_fetched rfl (List.cons_ne_nil _ _), hb]
    show 0x80000000 - (0x7fffffff + 1) = 0
    omega
  have hopen : huge.loopTop.thread = .reading 0x80000000 := rfl
  have hfirst : run step huge.loopTop (fetching zeros) =
      some (huge.loopTop.fetched zeros).loopTop :=
    run_fetch hopen hne (by rw [hlen]; decide) (by rw [hlen]; decide) (by rw [hlen]; decide)
  have hnot₁ : ¬ (huge.loopTop.fetched zeros).helper.empty = true := Bool.false_ne_true
  rw [loopTop_eq hnot₁, hmax₁, if_neg (by decide)] at hfirst
  have hsecond : run step { huge.loopTop.fetched zeros with thread := .reading 1 } (fetching [0]) =
      some ((huge.loopTop.fetched zeros).fetched [0]).loopTop :=
    run_fetch rfl (List.cons_ne_nil _ _) (by show 1 ≤ 0x80000000; decide) (Nat.le_refl 1)
      (by show 1 < 0x80000000; decide)
  have hnot₂ : ¬ ((huge.loopTop.fetched zeros).fetched [0]).helper.empty = true :=
    Bool.false_ne_true
  rw [loopTop_eq hnot₂, if_pos hmax₂] at hsecond
  have hwake : step huge .wake = some huge.loopTop := rfl
  rw [run_cons, hwake, Option.bind_some, run_append, hfirst, Option.bind_some, hsecond]

/-- The whole buffer is read, but its size is no `int`: the caller is told of an error. -/
theorem huge_read {c : BufferedIOHandler} (hidle : c.reader = .idle)
    (hsize : c.helper.bufSize = 0x80000000) (ha : c.helper.a = 0) (hb : c.helper.b = 0)
    (hempty : c.helper.empty = false) (hwait : c.helper.waitForInitialFillSize = false)
    (heof : c.helper.eof = false) (herror : c.helper.readError = false) :
    ∃ c', run step c (reading 0x80000000) = some c' ∧
      c'.helper = c.helper.leave 0x80000000 ∧ c'.returned = c.returned ∧
      c'.delivered = c.delivered ∧ c'.thread = c.thread ∧ c'.reader = .idle ∧
      c'.maxChunkSize = c.maxChunkSize := by
  have hlen : (c.helper.copyOut c.helper.b 0x80000000).length = 0x80000000 := by
    have hmax : c.helper.maxRead1 c.helper.b = 0x80000000 := by
      unfold IOHandlerBufferHelper.maxRead1
      rw [ha, hb, hsize, if_neg (Nat.lt_irrefl 0)]
    have hread1 : c.helper.read1 c.helper.b 0x80000000 = 0x80000000 := by
      unfold IOHandlerBufferHelper.read1
      rw [hmax, if_neg (Nat.lt_irrefl _)]
    have hread2 : c.helper.read2 c.helper.b 0x80000000 = 0 := by
      unfold IOHandlerBufferHelper.read2
      rw [hread1, if_neg (Nat.lt_irrefl _)]
      simp only [Nat.not_lt_zero, if_false, gt_iff_lt]
    unfold IOHandlerBufferHelper.copyOut
    rw [hread1, hread2, List.length_append, length_slice, length_slice]
  have henter : c.helper.enter = some (c.helper, .inr c.helper.b) := by
    unfold IOHandlerBufferHelper.enter IOHandlerBufferHelper.mustWait
    rw [hempty, hwait, heof, herror]
    rfl
  refine ⟨c.fullRead 0x80000000, run_read hidle (by decide) henter, ?_, ?_, rfl, rfl, rfl, rfl⟩
  · show c.helper.leave (c.helper.copyOut c.helper.b 0x80000000).length = _
    rw [hlen]
  · show c.returned ++ (c.helper.copyOut c.helper.b 0x80000000).take _ = c.returned
    rw [hlen]
    have hnone : (toCInt (0x80000000 : Nat)).toNat = 0 := by decide
    rw [hnone, List.take_zero, List.append_nil]

/-- An empty buffer gets one byte, and gives it away. -/
theorem huge_byte {c : BufferedIOHandler} (hidle : c.reader = .idle) (hthread : c.thread = .waiting)
    (hsize : c.helper.bufSize = 0x80000000) (hchunk : c.maxChunkSize = 0x80000000)
    (hempty : c.helper.empty = true) (hwait : c.helper.waitForInitialFillSize = false)
    (heof : c.helper.eof = false) (herror : c.helper.readError = false) :
    ∃ c', run step c (.wake :: (fetching [1] ++ reading 1)) = some c' ∧ c'.returned = c.returned ++ [1] ∧ c'.delivered = c.delivered ++ [1] := by
  have hrewind := IOHandlerBufferHelper.rewind_of_empty hempty
  have hmax : c.helper.rewind.maxWrite = 0x80000000 := by
    unfold IOHandlerBufferHelper.maxWrite
    rw [hrewind]
    show (if c.helper.empty = true then c.helper.bufSize else _) = 0x80000000
    rw [if_pos hempty, hsize]
  have hwake : step c .wake = some c.loopTop := by
    simp only [step, onWake, hthread]
  have htop : c.loopTop.thread = .reading 0x80000000 := by
    show (if c.helper.rewind.maxWrite = 0 then _ else _) = _
    rw [hmax, if_neg (by decide)]
  have hb : c.loopTop.helper.b = 0 := by
    show c.helper.rewind.b = 0
    rw [hrewind]
  have ha : c.loopTop.helper.a = 0 := by
    show c.helper.rewind.a = 0
    rw [hrewind]
  have hfetch : run step c.loopTop (fetching [1]) =
      some (c.loopTop.fetched [1]).loopTop := by
    refine run_fetch htop (List.cons_ne_nil _ _) ?_ ?_ ?_
    · show 1 ≤ c.maxChunkSize
      omega
    · show 1 ≤ 0x80000000
      omega
    · show 1 < 0x80000000
      omega
  have hnot : ¬ (c.loopTop.fetched [1]).helper.empty = true := Bool.false_ne_true
  rw [loopTop_eq hnot] at hfetch
  -- the last state, without the thread
  obtain ⟨c₂, hc₂⟩ : ∃ c₂, c₂ = { c.loopTop.fetched [1] with
    thread := if (c.loopTop.fetched [1]).helper.maxWrite = 0 then .waiting
      else .reading (c.loopTop.fetched [1]).helper.maxWrite } := ⟨_, rfl⟩
  rw [← hc₂] at hfetch
  have hb₂ : c₂.helper.b = 1 := by
    rw [hc₂]
    show (if c.loopTop.helper.b + 1 = c.helper.bufSize then 0 else c.loopTop.helper.b + 1) = 1
    rw [hb, hsize]
    rfl
  have ha₂ : c₂.helper.a = 0 := by
    rw [hc₂]
    exact ha
  have henter : c₂.helper.enter = some (c₂.helper, .inr c₂.helper.b) := by
    have hwait₂ : c₂.helper.waitForInitialFillSize = false := by
      rw [hc₂]
      show (c.helper.waitForInitialFillSize && _) = false
      rw [hwait, Bool.false_and]
    have hempty₂ : c₂.helper.empty = false := by
      rw [hc₂]
      rfl
    have heof₂ : c₂.helper.eof = false := by
      rw [hc₂]
      exact heof
    have herror₂ : c₂.helper.readError = false := by
      rw [hc₂]
      exact herror
    unfold IOHandlerBufferHelper.enter IOHandlerBufferHelper.mustWait
    rw [hempty₂, hwait₂, heof₂, herror₂]
    rfl
  have hidle₂ : c₂.reader = .idle := by
    rw [hc₂]
    exact hidle
  have hbytes : c₂.helper.copyOut c₂.helper.b 1 = [1] := by
    have hread1 : c₂.helper.read1 c₂.helper.b 1 = 1 := by
      unfold IOHandlerBufferHelper.read1 IOHandlerBufferHelper.maxRead1
      rw [ha₂, hb₂]
      rfl
    have hread2 : c₂.helper.read2 c₂.helper.b 1 = 0 := by
      unfold IOHandlerBufferHelper.read2
      rw [hread1, if_neg (Nat.lt_irrefl _)]
      simp only [Nat.not_lt_zero, if_false, gt_iff_lt]
    have hstored : c₂.helper.buffer = store c.helper.buffer 0 [1] := by
      rw [hc₂]
      show store c.helper.buffer c.loopTop.helper.b [1] = _
      rw [hb]
    unfold IOHandlerBufferHelper.copyOut
    rw [hread1, hread2, ha₂, hstored]
    rfl
  refine ⟨c₂.fullRead 1, ?_, ?_, ?_⟩
  · rw [run_cons, hwake, Option.bind_some, run_append, hfetch, Option.bind_some]
    exact run_read hidle₂ (by decide) henter
  · show c₂.returned ++ IOHandlerBufferHelper.returnedBytes (c₂.helper.copyOut c₂.helper.b 1) = _
    rw [hbytes, hc₂]
    rfl
  · show c₂.delivered = _
    rw [hc₂]
    rfl

/-- The byte that comes then is the first that `read` returns. -/
theorem huge_loses (zeros : List UInt8) (hlen : zeros.length = 0x7fffffff) :
    ∃ c, run step huge (hugeRun zeros) = some c ∧ c.returned = [1] ∧
      c.delivered = zeros ++ [0] ++ [1] := by
  obtain ⟨c, hc⟩ : ∃ c, c = { (huge.loopTop.fetched zeros).fetched [0] with
    thread := BufferThread.waiting } := ⟨_, rfl⟩
  have hfilled := huge_filled zeros hlen
  rw [← hc] at hfilled
  have hb : c.helper.b = 0 := by
    rw [hc]
    show (if (if 0 + zeros.length = 0x80000000 then 0 else 0 + zeros.length) + 1 = 0x80000000
      then 0 else _) = 0
    rw [hlen]
    exact if_pos (by decide)
  have hwait : c.helper.waitForInitialFillSize = false := by
    rw [hc]
    rfl
  have ha : c.helper.a = 0 := by
    rw [hc]
    rfl
  have hsize : c.helper.bufSize = 0x80000000 := by
    rw [hc]
    rfl
  obtain ⟨c₁, hread, hhelper, hreturned, hdelivered, hthread, hidle, hchunk⟩ :=
    huge_read (c := c) (by rw [hc]; rfl) hsize ha hb (by rw [hc]; rfl) hwait (by rw [hc]; rfl)
      (by rw [hc]; rfl)
  have hempty₁ : c₁.helper.empty = true := by
    rw [hhelper]
    show (if (if c.helper.a + 0x80000000 ≥ c.helper.bufSize then
      c.helper.a + 0x80000000 - c.helper.bufSize else _) = c.helper.b then true else _) = true
    rw [ha, hb, hsize]
    rfl
  obtain ⟨c₂, hbyte, hreturned₂, hdelivered₂⟩ :=
    huge_byte (c := c₁) hidle (by rw [hthread, hc]) (by rw [hhelper]; exact hsize)
      (by rw [hchunk, hc]; rfl) hempty₁ (by rw [hhelper]; exact hwait) (by rw [hhelper, hc]; rfl)
      (by rw [hhelper, hc]; rfl)
  refine ⟨c₂, ?_, ?_, ?_⟩
  · rw [hugeRun, run_append, hfilled, Option.bind_some, run_append, hread, Option.bind_some, hbyte]
  · rw [hreturned₂, hreturned, hc]
    rfl
  · rw [hdelivered₂, hdelivered, hc]
    rfl

end BufferedIOHandler

open BufferedIOHandler in
/-- **A buffer of 2 GiB loses what is read from it in one call**: `int` and `size_t` differ. -/
theorem huge_buffer_loses :
    ¬ Always Delivers step huge (hugeRun (List.replicate 0x7fffffff 0)) := by
  intro halways
  obtain ⟨c, hrun, hreturned, hdelivered⟩ :=
    huge_loses (List.replicate 0x7fffffff 0) List.length_replicate
  have hbefore := (halways.last hrun).1
  rw [hreturned, hdelivered, List.append_assoc] at hbefore
  rcases hzeros : List.replicate 0x7fffffff (0 : UInt8) with _ | ⟨z, rest⟩
  · have hlen := congrArg List.length hzeros
    rw [List.length_replicate] at hlen
    cases hlen
  · have hz : z = 0 := List.eq_of_mem_replicate (by rw [hzeros]; exact List.mem_cons_self)
    rw [hzeros, hz] at hbefore
    obtain ⟨more, hmore⟩ := hbefore
    cases hmore

end MediaTomb
