/-
  What a reader gets after a seek.

  The buffer holds the content's bytes from where the reader is, and the transfer goes on behind
  them.  A seek that is SERVED keeps that, with the reader at the target.

  There are four ways in which a seek is not served as it was asked for:
    * the transfer has ended before the seek, or ends without looking at it: the order stays behind,
      and `seek` returns all the same;
    * the transfer ends with the seek pending and bytes in the buffer: the next transfer begins at the
      target, but the old bytes are read first;
    * a seek BACKWARD is taken for one whose target is in the buffer, since the way is less than what
      the buffer holds; so is one of 2 GiB or more whose `int` is;
    * a seek to where the reader is, with the buffer full: the indices meet, and the bytes are gone.
-/
import MediaTomb.Handlers.CurlIOHandler

namespace MediaTomb

open Lib.Ring Lib.Machine

/-! ## Pieces of the content -/

section

variable {α : Type*} {xs ys content : List α} {p : Nat}

theorem prefix_drop (h : xs ++ ys <+: content.drop p) : ys <+: content.drop (p + xs.length) := by
  obtain ⟨rest, hrest⟩ := h
  refine ⟨rest, ?_⟩
  rw [← List.drop_drop, ← hrest, List.append_assoc, List.drop_left]

theorem prefix_join (hxs : xs <+: content.drop p) (hys : ys <+: content.drop (p + xs.length)) :
    xs ++ ys <+: content.drop p := by
  obtain ⟨rest, hrest⟩ := hxs
  obtain ⟨rest', hrest'⟩ := hys
  refine ⟨rest', ?_⟩
  rw [← List.drop_drop, ← hrest, List.drop_left] at hrest'
  rw [← hrest, ← hrest', List.append_assoc]

end

namespace IOHandlerBufferHelper

section

variable {h : IOHandlerBufferHelper} {data chunk : List UInt8} {n : Nat}

/-! ## Room -/

theorem bufFree_eq (hh : Holds h data) (hsmall : h.bufSize < 2 ^ 31) :
    h.bufFree = (h.bufSize - data.length : Nat) := by
  have ha := hh.a_lt
  have hb := hh.b_eq
  have hfits := hh.fits
  unfold bufFree
  split_ifs with hempty
  · rw [hh.empty_iff.mp hempty, List.length_nil, Nat.sub_zero]
    exact toCInt_of_lt hsmall
  · have hpos : 0 < data.length := by
      rw [List.length_pos_iff]
      exact fun hnil => hempty (hh.empty_iff.mpr hnil)
    have hdiff : toCInt ((h.a : Int) - h.b) = (h.a : Int) - h.b := by
      have hblt := slot_lt ha hfits
      rw [← hb] at hblt
      exact toCInt_of_fits (by omega) (by omega)
    simp only [hdiff]
    revert hb
    unfold slot
    split_ifs with hwrap hneg hneg
    · intro hb
      rw [toCInt_of_fits (by omega) (by omega)]
      omega
    · intro hb
      omega
    · intro hb
      omega
    · intro hb
      omega

theorem hasRoom_iff (hh : Holds h data) (hsmall : h.bufSize < 2 ^ 31) :
    h.hasRoom n = true ↔ data.length + n ≤ h.bufSize := by
  have hfits := hh.fits
  unfold hasRoom
  rw [bufFree_eq hh hsmall, toSize_of_lt (by omega), Bool.not_eq_true', decide_eq_false_iff_not]
  omega

/-- A chunk that has room fits in one piece, or the first piece ends with the buffer. -/
theorem maxWrite_room (hh : Holds h data) (hstart : h.empty = true → h.b = 0)
    (hroom : data.length + n ≤ h.bufSize) :
    h.b + min n h.maxWrite ≤ h.bufSize ∧ (n ≤ h.maxWrite ∨ h.b + h.maxWrite = h.bufSize) := by
  have ha := hh.a_lt
  have hb := hh.b_eq
  have hfits := hh.fits
  have hblt := slot_lt ha hfits
  rw [← hb] at hblt
  unfold maxWrite
  split_ifs with hempty hlt
  · rw [hstart hempty]
    omega
  · omega
  · -- the free part lies between `b` and `a`
    have hpos : 0 < data.length := by
      rw [List.length_pos_iff]
      exact fun hnil => hempty (hh.empty_iff.mpr hnil)
    revert hb
    unfold slot
    split_ifs <;> omega

theorem hasRoom_rewind : h.rewind.hasRoom n = h.hasRoom n := by
  by_cases hempty : h.empty = true
  · rw [rewind_of_empty hempty]
    unfold hasRoom bufFree
    rw [if_pos hempty]
    rw [if_pos hempty]
  · rw [rewind_of_not_empty hempty]

/-! ## The seek inside the buffer -/

/-- **The condition** for a seek inside the buffer: forward, by what an `int` can hold, and not on
    the spot where the indices meet. -/
def ServesRight (h : IOHandlerBufferHelper) : Prop :=
  h.seeksInBuffer = true → 0 ≤ h.seekTarget - h.posRead ∧ h.seekTarget - h.posRead < 2 ^ 31 ∧
    (h.seekTarget = h.posRead → h.a ≠ h.b)

/-- `relSeek` is the way to the target, as far as an `int` can say. -/
theorem relSeek_eq : h.relSeek = toCInt (h.seekTarget - h.posRead) := by
  unfold relSeek seekTarget
  simp only
  split_ifs
  · unfold toCInt
    exact Int.bmod_sub_bmod
  · rw [add_sub_cancel_left]

/-- Inside the buffer the front of the queue goes. -/
theorem seekInBuffer_leave (hh : Holds h data) (hsmall : h.bufSize < 2 ^ 31) {k : Nat}
    (hk : h.seekTarget - h.posRead = k) (hle : k ≤ data.length) (hserves : h.seeksInBuffer = true) :
    h.seekInBuffer =
      { (h.leave k).rewind with doSeek := false } := by
  have ha := hh.a_lt
  have hfits := hh.fits
  have hrel : h.relSeek = k := by
    rw [relSeek_eq, hk]
    exact toCInt_of_lt (by omega)
  have hempty : h.empty = false := by
    unfold seeksInBuffer at hserves
    simp only [Bool.and_eq_true, Bool.not_eq_true'] at hserves
    exact hserves.1.1.2
  have hsum : toSize (h.a + h.relSeek) = h.a + k := by
    rw [hrel, ← Int.natCast_add]
    exact toSize_of_lt (by omega)
  have hleft : (h.leave k).empty = if (h.leave k).a = h.b then true else h.empty := rfl
  unfold seekInBuffer
  rw [if_pos hserves]
  simp only [hsum]
  show (if (h.leave k).a = h.b then _ else _) = _
  by_cases hmeet : (h.leave k).a = h.b
  · rw [if_pos hmeet] at hleft ⊢
    rw [rewind_of_empty hleft, hrel, hleft]
    rfl
  · rw [if_neg hmeet, hempty] at hleft
    rw [if_neg hmeet, rewind_of_not_empty (by rw [hleft]; exact Bool.false_ne_true), hrel]
    unfold leave at hleft ⊢
    simp only at hleft ⊢
    rw [hleft, hempty]

/-- **A seek inside the buffer** takes the bytes before the target off the front. -/
theorem Holds.seekInBuffer (hh : Holds h data) (hsmall : h.bufSize < 2 ^ 31)
    (hright : h.ServesRight) :
    h.seekInBuffer = h ∨
      h.doSeek = true ∧ h.seekInBuffer.doSeek = false ∧
        ∃ k ≤ data.length, h.seekTarget = h.posRead + k ∧ h.seekInBuffer.posRead = h.posRead + k ∧
          Holds h.seekInBuffer (data.drop k) := by
  by_cases hserves : h.seeksInBuffer = true
  · right
    obtain ⟨hforward, hint, hspot⟩ := hright hserves
    obtain ⟨hpending, hbuffer⟩ :
        h.doSeek = true ∧ h.empty = false ∧ h.relSeek ≤ h.currentFillSize h.b := by
      unfold seeksInBuffer at hserves
      simp only [Bool.and_eq_true, Bool.not_eq_true', decide_eq_true_eq] at hserves
      exact ⟨hserves.1.1.1, hserves.1.1.2, hserves.2⟩
    have hpos : 0 < data.length := by
      rw [List.length_pos_iff]
      intro hnil
      rw [hh.empty_iff.mpr hnil] at hbuffer
      cases hbuffer.1
    obtain ⟨k, hk⟩ := Int.eq_ofNat_of_zero_le hforward
    have hle : k ≤ data.length := by
      have hfill : h.currentFillSize h.b = data.length := by
        rw [hh.b_eq]
        exact currentFillSize_slot hsmall hh.a_lt hpos hh.fits
      have hrel := hbuffer.2
      rw [relSeek_eq, hk, hfill, toCInt_of_lt (by omega)] at hrel
      omega
    have hseek := seekInBuffer_leave hh hsmall hk hle hserves
    refine ⟨hpending, by rw [hseek], k, hle, by omega, by rw [hseek]; rfl, ?_⟩
    rw [hseek]
    rcases Nat.eq_zero_or_pos k with hzero | hkpos
    · -- on the spot: nothing changes
      rw [hzero, List.drop_zero]
      have hne := hspot (by omega)
      have hsame : h.leave 0 = h := by
        have ha := hh.a_lt
        unfold IOHandlerBufferHelper.leave
        simp only [Nat.add_zero, ge_iff_le]
        have hwrap : (if h.bufSize ≤ h.a then h.a - h.bufSize else h.a) = h.a :=
          if_neg (by omega)
        simp only [hwrap, if_neg hne, Nat.cast_zero, Int.add_zero]
      rw [hsame]
      exact hh.rewind.congr rfl rfl rfl rfl rfl
    · have hsplit : data = data.take k ++ data.drop k := (List.take_append_drop k data).symm
      have htake : (data.take k).length = k := List.length_take_of_le hle
      rw [hsplit] at hh
      have hleft := hh.leave (List.ne_nil_of_length_pos (by omega))
      rw [htake] at hleft
      exact hleft.rewind.congr rfl rfl rfl rfl rfl
  · left
    unfold IOHandlerBufferHelper.seekInBuffer
    rw [if_neg hserves]

theorem seekInBuffer_frame : ∃ a b empty posRead doSeek, h.seekInBuffer =
    { h with a := a, b := b, empty := empty, posRead := posRead, doSeek := doSeek } := by
  unfold seekInBuffer
  by_cases hserves : h.seeksInBuffer = true
  · rw [if_pos hserves]
    simp only
    generalize (if toSize (h.a + h.relSeek) ≥ h.bufSize then toSize (h.a + h.relSeek) - h.bufSize
      else toSize (h.a + h.relSeek)) = a
    split
    · exact ⟨0, 0, true, _, _, rfl⟩
    · exact ⟨a, h.b, h.empty, _, _, rfl⟩
  · rw [if_neg hserves]
    exact ⟨_, _, _, _, _, rfl⟩

end

end IOHandlerBufferHelper

/-! ## The invariant -/

namespace CurlIOHandler

open IOHandlerBufferHelper

section

variable {c c' : CurlIOHandler} {data rest chunk bytes : List UInt8} {pos : Nat}

/-- The bytes that were returned since the last seek are the content's, from the target on. -/
def Sought (c : CurlIOHandler) : Prop := c.since <+: c.content.drop c.sought

/-- **The condition**: the seek comes while the transfer is under way and is looked at before the
    end; a new transfer finds the buffer empty; and a seek inside the buffer is one. -/
def Served (c : CurlIOHandler) : CurlEvent → Prop
  | .seek offset whence => ¬ (whence = .seekCur ∧ offset = 0) → c.helper.eof = false
  | .perform => c.helper.doSeek = true → c.helper.empty = true
  | .enter => c.helper.ServesRight
  | .wake => ∀ chunk, c.thread = .waiting chunk → c.helper.hasRoom chunk.length = false →
      c.helper.ServesRight
  | .threadEnd => c.thread = .ending true → c.helper.doSeek = false
  | _ => True

/-- A chunk in the callback's hands: it comes next. -/
structure Carries (c : CurlIOHandler) (next : Nat) (chunk : List UInt8) : Prop where
  ne_nil : chunk ≠ []
  comes : chunk <+: c.content.drop next
  transferred : c.transferred = next + chunk.length

/-- What the transfer is about to do; `next` is the place in the content that the buffer ends at. -/
def Transfers (c : CurlIOHandler) (pos : Nat) (data : List UInt8) : CurlThread → Prop
  | .top => c.helper.doSeek = true ∨ (data = [] ∧ c.resumeFrom = pos)
  | .performing => c.transferred = pos + data.length
  | .called chunk | .waiting chunk => Carries c (pos + data.length) chunk
  | .unlocked chunk bLocal maxWrite => Carries c (pos + data.length) chunk ∧
      bLocal = c.helper.b ∧ data.length + chunk.length ≤ c.helper.bufSize ∧
      c.helper.b + min chunk.length maxWrite ≤ c.helper.bufSize ∧
      (chunk.length ≤ maxWrite ∨ c.helper.b + maxWrite = c.helper.bufSize)
  | .copied chunk => Carries c (pos + data.length) chunk ∧
      data.length + chunk.length ≤ c.helper.bufSize ∧
      window c.helper.buffer c.helper.bufSize c.helper.b chunk.length = chunk
  | .performed _ | .ending _ | .done => True

/-- The transfer depends on nothing else. -/
theorem Transfers.congr {thread : CurlThread} (ht : c.Transfers pos data thread)
    (hcontent : c'.content = c.content) (htransferred : c'.transferred = c.transferred)
    (hresume : c'.resumeFrom = c.resumeFrom) (hsize : c'.helper.bufSize = c.helper.bufSize)
    (hbuffer : c'.helper.buffer = c.helper.buffer) (hb : c'.helper.b = c.helper.b)
    (hseek : c.helper.doSeek = true → c'.helper.doSeek = true) :
    c'.Transfers pos data thread := by
  have hcarries : ∀ {next chunk}, Carries c next chunk → Carries c' next chunk := by
    intro next chunk h
    refine ⟨h.ne_nil, ?_, ?_⟩
    · rw [hcontent]
      exact h.comes
    · rw [htransferred]
      exact h.transferred
  cases thread with
  | top =>
    rcases ht with hyes | hnil
    · exact Or.inl (hseek hyes)
    · refine Or.inr ⟨hnil.1, ?_⟩
      rw [hresume]
      exact hnil.2
  | performing =>
    show c'.transferred = pos + data.length
    rw [htransferred]
    exact ht
  | called chunk => exact hcarries ht
  | waiting chunk => exact hcarries ht
  | unlocked chunk bLocal maxWrite =>
    refine ⟨hcarries ht.1, ?_⟩
    rw [hb, hsize]
    exact ht.2
  | copied chunk =>
    refine ⟨hcarries ht.1, ?_⟩
    rw [hb, hsize, hbuffer]
    exact ht.2
  | performed ok => exact trivial
  | ending ok => exact trivial
  | done => exact trivial

/-- What is read goes from the buffer to the reader: it ends where it did. -/
theorem Transfers.shrink {thread : CurlThread} (ht : c.Transfers pos (bytes ++ rest) thread)
    (hseek : c.helper.doSeek = false) (hne : bytes ≠ []) :
    c.Transfers (pos + bytes.length) rest thread := by
  have hlen : (bytes ++ rest).length = bytes.length + rest.length := List.length_append
  have hnext : pos + (bytes ++ rest).length = pos + bytes.length + rest.length := by
    omega
  cases thread with
  | top =>
    rcases ht with hyes | hnil
    · rw [hseek] at hyes
      cases hyes
    · exact absurd (List.append_eq_nil_iff.mp hnil.1).1 hne
  | performing =>
    show c.transferred = pos + bytes.length + rest.length
    rw [← hnext]
    exact ht
  | called chunk =>
    show Carries c (pos + bytes.length + rest.length) chunk
    rw [← hnext]
    exact ht
  | waiting chunk =>
    show Carries c (pos + bytes.length + rest.length) chunk
    rw [← hnext]
    exact ht
  | unlocked chunk bLocal maxWrite =>
    obtain ⟨hcarries, hlocal, hroom, hlinear, hround⟩ := ht
    rw [hnext] at hcarries
    exact ⟨hcarries, hlocal, by omega, hlinear, hround⟩
  | copied chunk =>
    obtain ⟨hcarries, hroom, hstored⟩ := ht
    rw [hnext] at hcarries
    exact ⟨hcarries, by omega, hstored⟩
  | performed ok => exact trivial
  | ending ok => exact trivial
  | done => exact trivial

/-- **The invariant**: the reader is at `pos`, and the buffer holds what comes from there on. -/
structure CurlInv (c : CurlIOHandler) (pos : Nat) (data : List UInt8) : Prop where
  small : c.helper.bufSize < 2 ^ 31
  holds : c.helper.Holds data
  reads : c.helper.Reads data c.reader
  posRead : c.helper.posRead = pos
  comes : data <+: c.content.drop pos
  sought : c.Sought
  here : c.helper.doSeek = false → pos = c.sought + c.since.length
  waits : c.helper.doSeek = true → c.since = [] ∧ c.helper.eof = false ∧
    (c.reader = .seeking ∨ c.reader = .idle)
  target : c.helper.doSeek = true → c.helper.readError = false →
    c.reader = .seeking ∧ c.helper.seekTarget = c.sought
  ended : c.helper.eof = true ∨ c.helper.readError = true → c.thread = .done
  transfers : c.Transfers pos data c.thread

theorem not_flags {h : IOHandlerBufferHelper} {P : Prop}
    (hopen : h.eof = false ∧ h.readError = false) (hflags : h.eof = true ∨ h.readError = true) :
    P := by
  rw [hopen.1, hopen.2] at hflags
  rcases hflags with h | h
  · cases h
  · cases h

/-- A thread that has not ended has set none of the flags. -/
theorem CurlInv.open (hinv : CurlInv c pos data) (hthread : c.thread ≠ .done) :
    c.helper.eof = false ∧ c.helper.readError = false := by
  constructor
  · rcases heof : c.helper.eof with _ | _
    · rfl
    · exact absurd (hinv.ended (Or.inl heof)) hthread
  · rcases herror : c.helper.readError with _ | _
    · rfl
    · exact absurd (hinv.ended (Or.inr herror)) hthread

/-- Between the sections of `read` no seek is pending. -/
theorem CurlInv.not_pending (hinv : CurlInv c pos data) (hseeking : c.reader ≠ .seeking)
    (hidle : c.reader ≠ .idle) : c.helper.doSeek = false := by
  rcases hseek : c.helper.doSeek with _ | _
  · rfl
  · rcases (hinv.waits hseek).2.2 with h | h
    · exact absurd h hseeking
    · exact absurd h hidle

/-! ## The reader -/

theorem curlInv_read {length : Nat} (hinv : CurlInv c pos data) (h : c.onRead length = some c') :
    CurlInv c' pos data := by
  unfold onRead at h
  split at h
  · next hidle =>
    split_ifs at h with hzero
    split at h
    · cases h
    · next helper ret henter =>
      cases h
      obtain ⟨⟨socket, rfl⟩, -⟩ := enter_returns henter
      exact ⟨hinv.small, hinv.holds.congr rfl rfl rfl rfl rfl, hinv.reads, hinv.posRead,
        hinv.comes, hinv.sought, hinv.here, hinv.waits, hinv.target, hinv.ended,
        hinv.transfers.congr rfl rfl rfl rfl rfl rfl id⟩
    · next helper bLocal henter =>
      cases h
      obtain ⟨rfl, rfl, hempty, herror⟩ := enter_copies henter
      -- a pending seek would have kept the reader
      have hseek : ¬ c.helper.doSeek = true := by
        intro hseek
        have hwhere := (hinv.target hseek herror).1
        rw [hidle] at hwhere
        cases hwhere
      exact ⟨hinv.small, hinv.holds, .enter hinv.holds (Nat.pos_of_ne_zero hzero) hempty,
        hinv.posRead, hinv.comes, hinv.sought, hinv.here, fun h => absurd h hseek,
        fun h => absurd h hseek, hinv.ended, hinv.transfers.congr rfl rfl rfl rfl rfl rfl id⟩
  · cases h

theorem curlInv_copy (hinv : CurlInv c pos data) (h : c.onCopy = some c') :
    CurlInv c' pos data := by
  unfold onCopy at h
  split at h
  · next length bLocal hcopying =>
    cases h
    have hseek : ¬ c.helper.doSeek = true := by
      rw [hinv.not_pending (by rw [hcopying]; exact (nomatch ·)) (by rw [hcopying]; exact (nomatch ·))]
      exact Bool.false_ne_true
    have hreads := hinv.reads
    rw [hcopying] at hreads
    exact ⟨hinv.small, hinv.holds, hreads.copyOut hinv.holds hinv.small, hinv.posRead, hinv.comes,
      hinv.sought, hinv.here, fun h => absurd h hseek, fun h => absurd h hseek, hinv.ended,
      hinv.transfers.congr rfl rfl rfl rfl rfl rfl id⟩
  · cases h

theorem curlInv_readEnd (hinv : CurlInv c pos data) (h : c.onReadEnd = some c') :
    ∃ pos' data', CurlInv c' pos' data' := by
  unfold onReadEnd at h
  split at h
  · next bytes hcopied =>
    cases h
    have hseek := hinv.not_pending (by rw [hcopied]; exact (nomatch ·)) (by rw [hcopied]; exact (nomatch ·))
    have hnot : ¬ c.helper.doSeek = true := by
      rw [hseek]
      exact Bool.false_ne_true
    have hreads := hinv.reads
    rw [hcopied] at hreads
    obtain ⟨hne, rest, rfl⟩ := hreads
    have hfits := hinv.holds.fits
    rw [List.length_append] at hfits
    have hsize := hinv.small
    have hreturned : returnedBytes bytes = bytes := returnedBytes_eq (by omega)
    have hhere := hinv.here hseek
    refine ⟨pos + bytes.length, rest, hinv.small, hinv.holds.leave hne, trivial, ?_,
      prefix_drop hinv.comes, ?_, fun _ => ?_, fun h => absurd h hnot, fun h => absurd h hnot,
      hinv.ended, (hinv.transfers.shrink hseek hne).congr rfl rfl rfl rfl rfl rfl id⟩
    · show c.helper.posRead + bytes.length = ((pos + bytes.length : Nat) : Int)
      rw [hinv.posRead, Int.natCast_add]
    · show c.since ++ returnedBytes bytes <+: c.content.drop c.sought
      rw [hreturned]
      refine prefix_join hinv.sought ?_
      rw [← hhere]
      exact (List.prefix_append _ _).trans hinv.comes
    · show pos + bytes.length = c.sought + (c.since ++ returnedBytes bytes).length
      rw [hreturned, List.length_append, hhere, Nat.add_assoc]
  · cases h

/-- A seek leaves the buffer and the transfer as they are. -/
theorem curlInv_seek {offset : Int} {whence : Whence} (hinv : CurlInv c pos data)
    (hserved : c.Served (.seek offset whence)) (h : c.onSeek offset whence = some c') :
    CurlInv c' pos data := by
  unfold onSeek at h
  split at h
  · next hidle =>
    split_ifs at h with hbad hnothing
    · cases h
      exact hinv
    · cases h
      have heof := hserved hnothing
      refine ⟨hinv.small, hinv.holds.congr rfl rfl rfl rfl rfl, trivial, hinv.posRead, hinv.comes,
        List.nil_prefix, fun h => (nomatch h), fun _ => ⟨rfl, heof, Or.inl rfl⟩,
        fun _ herror => ⟨rfl, ?_⟩, hinv.ended,
        hinv.transfers.congr rfl rfl rfl rfl rfl rfl fun _ => rfl⟩
      -- no other seek is pending, and the reader is where it thinks it is
      have hnone : c.helper.doSeek = false := by
        rcases hseek : c.helper.doSeek with _ | _
        · rfl
        · have hwhere := (hinv.target hseek herror).1
          rw [hidle] at hwhere
          cases hwhere
      have hhere := hinv.here hnone
      have hposition := hinv.posRead
      rw [hhere] at hposition
      show (if whence = .seekSet then offset else c.helper.posRead + offset) =
        ((c.target offset whence).toNat : Int)
      rw [hposition]
      show c.target offset whence = _
      omega
  · cases h

theorem curlInv_seekReturns (hinv : CurlInv c pos data) (h : c.onSeekReturns = some c') :
    CurlInv c' pos data := by
  unfold onSeekReturns at h
  split at h
  · next hseeking =>
    split_ifs at h with hwait
    cases h
    refine ⟨hinv.small, hinv.holds, trivial, hinv.posRead, hinv.comes, hinv.sought, hinv.here,
      fun hseek => ?_, fun hseek herror => ?_, hinv.ended,
      hinv.transfers.congr rfl rfl rfl rfl rfl rfl id⟩
    · obtain ⟨hsince, heof, -⟩ := hinv.waits hseek
      exact ⟨hsince, heof, Or.inr rfl⟩
    · -- a seek that is still pending returns because of an error only
      have heof := (hinv.waits hseek).2.1
      have hseek' : c.helper.doSeek = true := hseek
      have herror' : c.helper.readError = false := herror
      rw [hseek', heof, herror'] at hwait
      cases hwait rfl
  · cases h

/-! ## The curl thread -/

/-- A new transfer begins where the reader is, with an empty buffer. -/
theorem curlInv_perform (hinv : CurlInv c pos data) (hserved : c.Served .perform)
    (h : c.onPerform = some c') : ∃ pos', CurlInv c' pos' data := by
  unfold onPerform at h
  split at h
  · next hthread =>
    have hopen := hinv.open (by rw [hthread]; exact (nomatch ·))
    by_cases hseek : c.helper.doSeek = true
    · rw [if_pos hseek] at h
      cases h
      obtain ⟨hseeking, htarget⟩ := hinv.target hseek hopen.2
      have hdata := hinv.holds.empty_iff.mp (hserved hseek)
      have hsince := (hinv.waits hseek).1
      refine ⟨c.sought, hinv.small, hinv.holds.congr rfl rfl rfl rfl rfl, ?_, htarget, ?_,
        hinv.sought, fun _ => ?_, fun h => (nomatch h), fun h => (nomatch h), ?_, ?_⟩
      · have hreads := hinv.reads
        rw [hdata] at hreads
        exact hreads.of_nil
      · rw [hdata]
        exact List.nil_prefix
      · show c.sought = c.sought + c.since.length
        rw [hsince, List.length_nil, Nat.add_zero]
      · exact fun hflags => not_flags hopen hflags
      · show c.helper.seekTarget.toNat = c.sought + data.length
        rw [htarget, hdata, Int.toNat_natCast, List.length_nil, Nat.add_zero]
    · rw [if_neg hseek] at h
      cases h
      have hstart : c.helper.doSeek = true ∨ (data = [] ∧ c.resumeFrom = pos) := by
        have htransfers := hinv.transfers
        rw [hthread] at htransfers
        exact htransfers
      rcases hstart with hyes | ⟨hnil, hresume⟩
      · exact absurd hyes hseek
      · refine ⟨pos, hinv.small, hinv.holds, hinv.reads, hinv.posRead, hinv.comes, hinv.sought,
          hinv.here, hinv.waits, hinv.target, ?_, ?_⟩
        · intro hflags
          have hdone := hinv.ended hflags
          rw [hthread] at hdone
          cases hdone
        · show c.resumeFrom = pos + data.length
          rw [hresume, hnil]
          rfl
  · cases h

/-- The same state with the thread somewhere else. -/
theorem CurlInv.moved {thread : CurlThread} (hinv : CurlInv c pos data) (hthread : c.thread ≠ .done)
    (ht : c.Transfers pos data thread) : CurlInv { c with thread := thread } pos data := by
  have hopen := hinv.open hthread
  refine ⟨hinv.small, hinv.holds, hinv.reads, hinv.posRead, hinv.comes, hinv.sought, hinv.here,
    hinv.waits, hinv.target, fun hflags => ?_, ht.congr rfl rfl rfl rfl rfl rfl id⟩
  exact not_flags hopen hflags

theorem curlInv_callback {n : Nat} (hinv : CurlInv c pos data) (h : c.onCallback n = some c') :
    CurlInv c' pos data := by
  unfold onCallback at h
  split at h
  · next hthread =>
    split_ifs at h with hguard
    cases h
    obtain ⟨hpos, -, hend⟩ := hguard
    have hnext : c.transferred = pos + data.length := by
      have htransfers := hinv.transfers
      rw [hthread] at htransfers
      exact htransfers
    have hlen : ((c.content.drop c.transferred).take n).length = n := by
      rw [List.length_take, List.length_drop]
      omega
    refine ⟨hinv.small, hinv.holds, hinv.reads, hinv.posRead, hinv.comes, hinv.sought, hinv.here,
      hinv.waits, hinv.target, fun hflags => ?_, ⟨?_, ?_, ?_⟩⟩
    · have hdone := hinv.ended hflags
      rw [hthread] at hdone
      cases hdone
    · exact List.ne_nil_of_length_pos (by omega)
    · rw [← hnext]
      exact List.take_prefix _ _
    · show c.transferred + n = pos + data.length + ((c.content.drop c.transferred).take n).length
      omega
  · cases h

/-- **A seek inside the buffer**: the reader is at the target, and the buffer ends where it did. -/
theorem curlInv_seekInBuffer (hinv : CurlInv c pos data) (hright : c.helper.ServesRight)
    (hcarries : c.thread = .called chunk ∨ c.thread = .waiting chunk) :
    ∃ pos' data', CurlInv { c with helper := c.helper.seekInBuffer } pos' data' := by
  have hopen := hinv.open (by rcases hcarries with h | h <;> rw [h] <;> exact (nomatch ·))
  have hheld : Carries c (pos + data.length) chunk := by
    have htransfers := hinv.transfers
    rcases hcarries with h | h
    · rw [h] at htransfers
      exact htransfers
    · rw [h] at htransfers
      exact htransfers
  rcases hinv.holds.seekInBuffer hinv.small hright with
    hsame | ⟨hseek, hserved, k, hle, hway, hmoved, hholds⟩
  · rw [hsame]
    exact ⟨pos, data, hinv⟩
  · obtain ⟨hseeking, htarget⟩ := hinv.target hseek hopen.2
    obtain ⟨a, b, empty, posRead, doSeek, hframe⟩ : ∃ a b empty posRead doSeek,
      c.helper.seekInBuffer = _ := seekInBuffer_frame
    have hsize : c.helper.seekInBuffer.bufSize = c.helper.bufSize := by
      rw [hframe]
    have hflags : c.helper.seekInBuffer.eof = false ∧ c.helper.seekInBuffer.readError = false := by
      rw [hframe]
      exact hopen
    have hplace : c.sought = pos + k := by
      rw [htarget, hinv.posRead] at hway
      omega
    have htake : (data.take k).length = k := List.length_take_of_le hle
    have hcomes : data.drop k <+: c.content.drop (pos + k) := by
      have hsplit := hinv.comes
      rw [← List.take_append_drop k data] at hsplit
      have hdrop := prefix_drop hsplit
      rw [htake] at hdrop
      exact hdrop
    have hend : pos + k + (data.drop k).length = pos + data.length := by
      rw [List.length_drop]
      omega
    refine ⟨pos + k, data.drop k, ?_, hholds, ?_, ?_, hcomes, hinv.sought, fun _ => ?_, fun h => ?_,
      fun h => ?_, fun h => ?_, ?_⟩
    · show c.helper.seekInBuffer.bufSize < 2 ^ 31
      rw [hsize]
      exact hinv.small
    · show Reads c.helper.seekInBuffer (data.drop k) c.reader
      rw [hseeking]
      exact trivial
    · show c.helper.seekInBuffer.posRead = ((pos + k : Nat) : Int)
      rw [hmoved, hinv.posRead, Int.natCast_add]
    · show pos + k = c.sought + c.since.length
      rw [(hinv.waits hseek).1, hplace]
      rfl
    · rw [show _ = _ from hserved] at h
      cases h
    · rw [show _ = _ from hserved] at h
      cases h
    · exact not_flags hflags h
    · have hcarried : Carries { c with helper := c.helper.seekInBuffer }
          (pos + k + (data.drop k).length) chunk := by
        rw [hend]
        exact ⟨hheld.ne_nil, hheld.comes, hheld.transferred⟩
      have hstill : ∀ thread, thread = .called chunk ∨ thread = .waiting chunk →
          Transfers { c with helper := c.helper.seekInBuffer } (pos + k) (data.drop k) thread := by
        rintro thread (rfl | rfl)
        · exact hcarried
        · exact hcarried
      exact hstill c.thread hcarries

/-- **The callback returns 0**: the buffer is emptied, and the seek stays pending. -/
theorem curlInv_abort (hinv : CurlInv c pos data) (hthread : c.thread ≠ .done)
    (hseek : c.helper.doSeek = true) : CurlInv c.abort pos [] := by
  have hopen := hinv.open hthread
  obtain ⟨hseeking, htarget⟩ := hinv.target hseek hopen.2
  have hpos := c.helper.bufSize_pos
  refine ⟨hinv.small, ⟨hpos, (slot_zero hpos).symm, Nat.zero_le _, ⟨fun _ => rfl, fun _ => rfl⟩, rfl⟩,
    ?_, hinv.posRead, List.nil_prefix, hinv.sought, hinv.here, hinv.waits, hinv.target,
    fun hflags => ?_, trivial⟩
  · show Reads _ [] c.reader
    rw [hseeking]
    exact trivial
  · exact not_flags hopen hflags

/-- The callback waits, or it has seen that there is room. -/
theorem curlInv_goOn (hinv : CurlInv c pos data)
    (hthread : c.thread = .called chunk ∨ c.thread = .waiting chunk) :
    CurlInv (c.goOn chunk) pos data := by
  have hopen := hinv.open (by rcases hthread with h | h <;> rw [h] <;> exact (nomatch ·))
  have hheld : Carries c (pos + data.length) chunk := by
    have htransfers := hinv.transfers
    rcases hthread with h | h
    · rw [h] at htransfers
      exact htransfers
    · rw [h] at htransfers
      exact htransfers
  have hholds := hinv.holds.rewind
  have hcarried : Carries (c.goOn chunk) (pos + data.length) chunk :=
    ⟨hheld.ne_nil, hheld.comes, hheld.transferred⟩
  refine ⟨hinv.small, hholds, hinv.reads.rewind hinv.holds, hinv.posRead, hinv.comes, hinv.sought,
    hinv.here, hinv.waits, hinv.target, fun hflags => ?_, ?_⟩
  · exact not_flags hopen hflags
  · show Transfers (c.goOn chunk) pos data (if c.helper.rewind.hasRoom chunk.length = true then _ else _)
    by_cases hroom : c.helper.rewind.hasRoom chunk.length = true
    · rw [if_pos hroom]
      have hfits := (hasRoom_iff hholds hinv.small).mp hroom
      obtain ⟨hlinear, hround⟩ := maxWrite_room hholds (fun hempty => if_pos hempty) hfits
      exact ⟨hcarried, rfl, hfits, hlinear, hround⟩
    · rw [if_neg hroom]
      exact hcarried

theorem curlInv_enter (hinv : CurlInv c pos data) (hserved : c.Served .enter)
    (h : c.onEnter = some c') : ∃ pos' data', CurlInv c' pos' data' := by
  unfold onEnter at h
  split at h
  · next chunk hthread =>
    obtain ⟨pos', data', hnext⟩ := curlInv_seekInBuffer hinv hserved (Or.inl hthread)
    simp only at h
    split_ifs at h with hseek
    · cases h
      exact ⟨pos', [], curlInv_abort hnext (by rw [hthread]; exact (nomatch ·)) hseek⟩
    · cases h
      exact ⟨pos', data', curlInv_goOn hnext (Or.inl hthread)⟩
  · cases h

theorem curlInv_wake (hinv : CurlInv c pos data) (hserved : c.Served .wake)
    (h : c.onWake = some c') : ∃ pos' data', CurlInv c' pos' data' := by
  unfold onWake at h
  split at h
  · next chunk hthread =>
    have hgone := curlInv_goOn hinv (Or.inr hthread)
    simp only at h
    by_cases hroom : (c.goOn chunk).helper.hasRoom chunk.length = true
    · rw [if_pos hroom] at h
      cases h
      exact ⟨pos, data, hgone⟩
    · rw [if_neg hroom] at h
      have hwaiting : (c.goOn chunk).thread = .waiting chunk := if_neg hroom
      have hnone : c.helper.hasRoom chunk.length = false := by
        rw [← hasRoom_rewind]
        exact Bool.eq_false_iff.mpr hroom
      have hright := hserved chunk hthread hnone
      have hrewound : (c.goOn chunk).helper.ServesRight := by
        show c.helper.rewind.ServesRight
        by_cases hempty : c.helper.empty = true
        · -- in an empty buffer no seek is served
          intro hserves
          unfold seeksInBuffer at hserves
          simp only [Bool.and_eq_true, Bool.not_eq_true'] at hserves
          have hnot : c.helper.empty = false := hserves.1.1.2
          rw [hempty] at hnot
          cases hnot
        · rw [rewind_of_not_empty hempty]
          exact hright
      obtain ⟨pos', data', hnext⟩ := curlInv_seekInBuffer hgone hrewound (Or.inr hwaiting)
      split_ifs at h with hseek
      · cases h
        refine ⟨pos', [], curlInv_abort hnext ?_ hseek⟩
        show (c.goOn chunk).thread ≠ .done
        rw [hwaiting]
        exact (nomatch ·)
      · cases h
        exact ⟨pos', data', hnext⟩
  · cases h

/-- **The copying into the buffer** goes behind the data, in one piece or in two. -/
theorem curlInv_copyIn (hinv : CurlInv c pos data) (h : c.onCopyIn = some c') :
    CurlInv c' pos data := by
  unfold onCopyIn at h
  split at h
  · next chunk bLocal maxWrite hthread =>
    cases h
    have htransfers := hinv.transfers
    rw [hthread] at htransfers
    obtain ⟨hcarries, hlocal, hroom, hlinear, hround⟩ := htransfers
    have hopen := hinv.open (by rw [hthread]; exact (nomatch ·))
    obtain ⟨xs, hxs⟩ : ∃ xs, xs = chunk.take
      (if chunk.length > maxWrite then maxWrite else chunk.length) := ⟨_, rfl⟩
    obtain ⟨ys, hys⟩ : ∃ ys, ys = (chunk.drop maxWrite).take
      (if (if chunk.length > maxWrite then maxWrite else chunk.length) < chunk.length then
        chunk.length - (if chunk.length > maxWrite then maxWrite else chunk.length) else 0) := ⟨_, rfl⟩
    have hxlen : xs.length = min chunk.length maxWrite := by
      rw [hxs, List.length_take]
      split_ifs <;> omega
    have hboth : xs ++ ys = chunk := by
      rw [hxs, hys]
      by_cases hlong : chunk.length > maxWrite
      · have hrest : (chunk.drop maxWrite).length = chunk.length - maxWrite := List.length_drop
        rw [if_pos hlong, if_pos hlong, ← hrest, List.take_length]
        exact List.take_append_drop maxWrite chunk
      · rw [if_neg hlong, if_neg (Nat.lt_irrefl _), List.take_zero, List.append_nil]
        exact List.take_length
    have hylen : xs.length + ys.length = chunk.length := by
      rw [← List.length_append, hboth]
    have hpieces : ys = [] ∨ c.helper.b + xs.length = c.helper.bufSize := by
      rcases hround with hshort | hend
      · left
        exact List.length_eq_zero_iff.mp (by omega)
      · rcases Nat.lt_or_ge maxWrite chunk.length with hlong | hshort
        · right
          omega
        · left
          exact List.length_eq_zero_iff.mp (by omega)
    have hh := hinv.holds
    have hb : c.helper.b < c.helper.bufSize := by
      rw [hh.b_eq]
      exact slot_lt hh.a_lt hh.fits
    have hbehind : window (storeRound c.helper.buffer bLocal xs ys) c.helper.bufSize c.helper.a
        data.length = data := by
      rw [hlocal, window_storeRound_behind (by omega) hh.b_eq (by omega) hpieces]
      exact hh.window_eq
    have hstored : window (storeRound c.helper.buffer bLocal xs ys) c.helper.bufSize c.helper.b
        chunk.length = chunk := by
      rw [hlocal, ← hylen, window_storeRound hb (by omega) (by omega) hpieces]
      exact hboth
    rw [← hxs, ← hys]
    refine ⟨hinv.small, ⟨hh.a_lt, hh.b_eq, hh.fits, hh.empty_iff, hbehind⟩, hinv.reads, hinv.posRead,
      hinv.comes, hinv.sought, hinv.here, hinv.waits, hinv.target, fun hflags => ?_,
      ⟨⟨hcarries.ne_nil, hcarries.comes, hcarries.transferred⟩, hroom, hstored⟩⟩
    exact not_flags hopen hflags
  · cases h

/-- Now the chunk counts. -/
theorem curlInv_relock (hinv : CurlInv c pos data) (h : c.onRelock = some c') :
    ∃ data', CurlInv c' pos data' := by
  unfold onRelock at h
  split at h
  · next chunk hthread =>
    cases h
    have htransfers := hinv.transfers
    rw [hthread] at htransfers
    obtain ⟨hcarries, hroom, hstored⟩ := htransfers
    have hopen := hinv.open (by rw [hthread]; exact (nomatch ·))
    have hslot : (if c.helper.b + chunk.length ≥ c.helper.bufSize then
        c.helper.b + chunk.length - c.helper.bufSize else c.helper.b + chunk.length) =
        slot c.helper.bufSize c.helper.b chunk.length := by
      unfold slot
      split_ifs <;> omega
    refine ⟨data ++ chunk, hinv.small, hinv.holds.filled hcarries.ne_nil hroom hstored hslot,
      hinv.reads.mono rfl rfl, hinv.posRead, prefix_join hinv.comes hcarries.comes, hinv.sought,
      hinv.here, hinv.waits, hinv.target, fun hflags => ?_, ?_⟩
    · exact not_flags hopen hflags
    · show c.transferred = pos + (data ++ chunk).length
      rw [hcarries.transferred, List.length_append, Nat.add_assoc]
  · cases h

theorem curlInv_performed {ok : Bool} (hinv : CurlInv c pos data)
    (h : c.onPerformed ok = some c') : CurlInv c' pos data := by
  unfold onPerformed at h
  split at h
  · next hthread =>
    split_ifs at h with hmore
    cases h
    exact hinv.moved (by rw [hthread]; exact (nomatch ·)) trivial
  · cases h

theorem curlInv_loopEnd (hinv : CurlInv c pos data) (h : c.onLoopEnd = some c') :
    CurlInv c' pos data := by
  unfold onLoopEnd at h
  split at h
  · next ok hthread =>
    cases h
    refine hinv.moved (by rw [hthread]; exact (nomatch ·)) ?_
    split_ifs with hseek
    · exact Or.inl hseek
    · exact trivial
  · cases h

theorem curlInv_threadEnd (hinv : CurlInv c pos data) (hserved : c.Served .threadEnd)
    (h : c.onThreadEnd = some c') : CurlInv c' pos data := by
  unfold onThreadEnd at h
  split at h
  · next hthread =>
    cases h
    have hnone := hserved hthread
    have hnot : ¬ c.helper.doSeek = true := by
      rw [hnone]
      exact Bool.false_ne_true
    exact ⟨hinv.small, hinv.holds.congr rfl rfl rfl rfl rfl, hinv.reads, hinv.posRead, hinv.comes,
      hinv.sought, hinv.here, fun h => absurd h hnot, fun h => absurd h hnot, fun _ => rfl, trivial⟩
  · next hthread =>
    cases h
    exact ⟨hinv.small, hinv.holds.congr rfl rfl rfl rfl rfl, hinv.reads, hinv.posRead, hinv.comes,
      hinv.sought, hinv.here, hinv.waits, fun _ herror => (nomatch herror), fun _ => rfl, trivial⟩
  · cases h

theorem curlInv_step {e : CurlEvent} (hinv : CurlInv c pos data) (hserved : c.Served e)
    (h : c.step e = some c') : ∃ pos' data', CurlInv c' pos' data' := by
  cases e with
  | read length => exact ⟨pos, data, curlInv_read hinv h⟩
  | copy => exact ⟨pos, data, curlInv_copy hinv h⟩
  | readEnd => exact curlInv_readEnd hinv h
  | seek offset whence => exact ⟨pos, data, curlInv_seek hinv hserved h⟩
  | seekReturns => exact ⟨pos, data, curlInv_seekReturns hinv h⟩
  | perform =>
    obtain ⟨pos', hnext⟩ := curlInv_perform hinv hserved h
    exact ⟨pos', data, hnext⟩
  | callback n => exact ⟨pos, data, curlInv_callback hinv h⟩
  | enter => exact curlInv_enter hinv hserved h
  | wake => exact curlInv_wake hinv hserved h
  | copyIn => exact ⟨pos, data, curlInv_copyIn hinv h⟩
  | relock =>
    obtain ⟨data', hnext⟩ := curlInv_relock hinv h
    exact ⟨pos, data', hnext⟩
  | performed ok => exact ⟨pos, data, curlInv_performed hinv h⟩
  | loopEnd => exact ⟨pos, data, curlInv_loopEnd hinv h⟩
  | threadEnd => exact ⟨pos, data, curlInv_threadEnd hinv hserved h⟩

end

/-- The reader is somewhere, and the buffer holds something. -/
def Reading (c : CurlIOHandler) : Prop := ∃ pos data, CurlInv c pos data

theorem reading_opened {sizes : CurlSizes} {buffer : Nat → UInt8} {content : List UInt8}
    (hsmall : sizes.bufSize < 2 ^ 31) : Reading (opened sizes buffer content) := by
  refine ⟨0, [], hsmall, holds_new sizes.toBufferSizes buffer, trivial, rfl, List.nil_prefix,
    List.nil_prefix, fun _ => rfl, fun h => (nomatch h), fun h => (nomatch h), fun h => ?_,
    Or.inr ⟨rfl, rfl⟩⟩
  rcases h with h | h
  · cases h
  · cases h

end CurlIOHandler

open CurlIOHandler in
/-- **A seek that is served is served right**: the bytes that `read` returns after it are the
    content's, from the target on, whatever the chunks and the order of the sections. -/
theorem seeks_sought (sizes : CurlSizes) (buffer : Nat → UInt8) (content : List UInt8)
    (events : List CurlEvent) (hsmall : sizes.bufSize < 2 ^ 31)
    (hserved : Along Served step (opened sizes buffer content) events) :
    Always Sought step (opened sizes buffer content) events := by
  refine always_of_inv_of (fun c e c' hinv hserved hstep => ?_) (fun c hinv => ?_)
    (reading_opened hsmall) hserved
  · obtain ⟨pos, data, hinv⟩ := hinv
    exact curlInv_step hinv hserved hstep
  · obtain ⟨pos, data, hinv⟩ := hinv
    exact hinv.sought

namespace CurlIOHandler

def smallest : CurlSizes := ⟨⟨16384, 0, by decide, by decide⟩, by decide⟩

/-- Three bytes are there, and the reader goes to the second. -/
def seekInside : List CurlEvent :=
  [.perform, .callback 3, .enter, .copyIn, .relock, .seek 1 .seekSet, .callback 1, .enter,
    .seekReturns, .read 2, .copy, .readEnd]

/-- The transfer ends, and then the reader goes to the second byte. -/
def seekAfterEnd : List CurlEvent :=
  [.perform, .callback 3, .enter, .copyIn, .relock, .performed true, .loopEnd, .threadEnd,
    .seek 1 .seekSet, .seekReturns, .read 1, .copy, .readEnd]

end CurlIOHandler

open CurlIOHandler in
theorem seeks_sought_inside :
    Always Sought step (opened smallest (fun _ => 0) [1, 2, 3, 4]) seekInside := by
  refine seeks_sought smallest (fun _ => 0) [1, 2, 3, 4] seekInside (by decide) ?_
  refine along_cons (fun h => (nomatch h)) rfl (along_cons trivial rfl ?_)
  refine along_cons (fun h => (nomatch h)) rfl (along_cons trivial rfl (along_cons trivial rfl ?_))
  refine along_cons (fun _ => rfl) rfl (along_cons trivial rfl ?_)
  refine along_cons (fun _ => ⟨by decide, by decide, by decide⟩) rfl ?_
  refine along_cons trivial rfl (along_cons trivial rfl (along_cons trivial rfl ?_))
  exact along_cons trivial rfl along_nil

open CurlIOHandler in
/-- **A seek after the end of the transfer is forgotten**: the reader stays where it was. -/
theorem seek_after_end_lost :
    ¬ Always Sought step (opened smallest (fun _ => 0) [1, 2, 3]) seekAfterEnd := by
  intro halways
  obtain ⟨c, hrun, hsince, hcontent, hsought⟩ :
      ∃ c, run step (opened smallest (fun _ => 0) [1, 2, 3]) seekAfterEnd = some c ∧
        c.since = [1] ∧ c.content = [1, 2, 3] ∧ c.sought = 1 := ⟨_, rfl, rfl, rfl, rfl⟩
  have hbefore : c.since <+: c.content.drop c.sought := halways.last hrun
  rw [hsince, hcontent, hsought] at hbefore
  obtain ⟨rest, hrest⟩ := hbefore
  cases hrest

end MediaTomb
