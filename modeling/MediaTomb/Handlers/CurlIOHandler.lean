/-
  Reading from a remote server (`curl_io_handler.cc`, `IOHandlerBufferHelper::seek`).

  The curl thread performs a transfer; libcurl calls back with a chunk, and the callback puts it into
  the circular buffer, in two pieces where it goes round the end.  A chunk is never empty.

  A SEEK is an order that the reader leaves behind (`doSeek`).  It is served
    * inside the callback, where the target is in the buffer already: the front of the queue goes;
    * by a callback that returns 0: libcurl gives up the transfer, and the loop of `threadProc` begins
      another one at the target.
  The reader waits until that has happened; or until the transfer has ended, whatever the reason.

  What the sections do between two points where the mutex is given away is one event.  libcurl
  delivers the content from the offset it was asked for.  The machine writes down where the reader
  was sent last and the bytes that `read` has returned since.
-/
import MediaTomb.Handlers.IOHandlerBufferHelper
import MediaTomb.Lib.Machine

namespace MediaTomb

open Lib.Ring

/-- `CURL_MAX_WRITE_SIZE` -/
def curlMaxWriteSize : Nat := 16384

/-- What the constructor of `CurlIOHandler` accepts. -/
structure CurlSizes extends BufferSizes where
  bufSize_ge : curlMaxWriteSize ≤ bufSize

/-! ## Seeks -/

namespace IOHandlerBufferHelper

/-- `relSeek`: the way from where the reader is, as an `int`. -/
def relSeek (h : IOHandlerBufferHelper) : Int :=
  let relSeek := toCInt h.seekOffset
  if h.seekWhence = .seekSet then toCInt (relSeek - h.posRead) else relSeek

/-- The seek may be served inside the buffer, and the target seems to be there. -/
def seeksInBuffer (h : IOHandlerBufferHelper) : Bool :=
  h.doSeek && !h.empty &&
    (decide (h.seekWhence = .seekSet) || (decide (h.seekWhence = .seekCur) && decide (0 < h.seekOffset)))
      && decide (h.relSeek ≤ h.currentFillSize h.b)

/-- The seek inside the buffer. -/
def seekInBuffer (h : IOHandlerBufferHelper) : IOHandlerBufferHelper :=
  if h.seeksInBuffer then
    let a := toSize (h.a + h.relSeek)
    let a := if a ≥ h.bufSize then a - h.bufSize else a
    let h := { h with posRead := h.posRead + h.relSeek, doSeek := false }
    if a = h.b then { h with empty := true, a := 0, b := 0 } else { h with a := a }
  else h

/-- Where the reader has asked to go. -/
def seekTarget (h : IOHandlerBufferHelper) : Int :=
  if h.seekWhence = .seekSet then h.seekOffset else h.posRead + h.seekOffset

/-- `int bufFree`, in a buffer that begins at 0 if it is empty. -/
def bufFree (h : IOHandlerBufferHelper) : Int :=
  if h.empty then toCInt h.bufSize
  else
    let bufFree := toCInt ((h.a : Int) - h.b)
    if bufFree < 0 then toCInt (bufFree + h.bufSize) else bufFree

/-- The loop of the callback ends. -/
def hasRoom (h : IOHandlerBufferHelper) (wantWrite : Nat) : Bool :=
  !decide (toSize h.bufFree < wantWrite)

end IOHandlerBufferHelper

/-! ## The machine -/

/-- Where the curl thread is. -/
inductive CurlThread where
  /-- at the top of the loop of `threadProc` -/
  | top
  /-- in `curl_easy_perform`, outside the callback -/
  | performing
  /-- the callback has been called with these bytes -/
  | called (chunk : List UInt8)
  /-- the callback waits for room -/
  | waiting (chunk : List UInt8)
  /-- the callback has unlocked the mutex, and is going to copy -/
  | unlocked (chunk : List UInt8) (bLocal maxWrite : Nat)
  | copied (chunk : List UInt8)
  /-- `curl_easy_perform` has returned; `ok` is `CURLE_OK` -/
  | performed (ok : Bool)
  /-- the loop of `threadProc` has ended -/
  | ending (ok : Bool)
  | done
  deriving DecidableEq

structure CurlIOHandler where
  helper : IOHandlerBufferHelper
  content : List UInt8
  thread : CurlThread := .top
  reader : Reader := .idle
  /-- `CURLOPT_RESUME_FROM_LARGE` -/
  resumeFrom : Nat := 0
  /-- where the next chunk begins in the content -/
  transferred : Nat := 0
  /-- where the reader was sent last -/
  sought : Nat := 0
  /-- what the calls to `read` have returned since -/
  since : List UInt8 := []

inductive CurlEvent where
  /-- the first section of `read` -/
  | read (length : Nat)
  | copy
  /-- the second section of `read` -/
  | readEnd
  /-- `seek`, up to where it waits -/
  | seek (offset : Int) (whence : Whence)
  | seekReturns
  /-- the thread gets the mutex at the top of its loop, and the transfer begins -/
  | perform
  /-- libcurl calls back with the next `n` bytes -/
  | callback (n : Nat)
  /-- the callback gets the mutex -/
  | enter
  /-- the waiting callback gets the mutex again -/
  | wake
  | copyIn
  /-- the callback gets the mutex after the copying -/
  | relock
  /-- the transfer ends: after the last byte, or with an error -/
  | performed (ok : Bool)
  /-- the thread looks at `doSeek` -/
  | loopEnd
  /-- the thread says that it has ended -/
  | threadEnd

namespace CurlIOHandler

/-! ### The reader -/

def onRead (c : CurlIOHandler) (length : Nat) : Option CurlIOHandler :=
  match c.reader with
  | .idle =>
    if length = 0 then none
    else
      match c.helper.enter with
      | none => none
      | some (helper, .inl _) => some { c with helper := helper }
      | some (helper, .inr bLocal) =>
        some { c with helper := helper, reader := .copying length bLocal }
  | _ => none

def onCopy (c : CurlIOHandler) : Option CurlIOHandler :=
  match c.reader with
  | .copying length bLocal => some { c with reader := .copied (c.helper.copyOut bLocal length) }
  | _ => none

def onReadEnd (c : CurlIOHandler) : Option CurlIOHandler :=
  match c.reader with
  | .copied bytes =>
    some { c with
      helper := c.helper.leave bytes.length
      reader := .idle
      since := c.since ++ IOHandlerBufferHelper.returnedBytes bytes }
  | _ => none

/-- The position that a seek asks for: it is absolute, or relative to where the reader is. -/
def target (c : CurlIOHandler) (offset : Int) (whence : Whence) : Int :=
  if whence = .seekSet then offset else ((c.sought + c.since.length : Nat) : Int) + offset

/-- `seek`, to a target inside the content. -/
def onSeek (c : CurlIOHandler) (offset : Int) (whence : Whence) : Option CurlIOHandler :=
  match c.reader with
  | .idle =>
    if whence = .seekEnd ∨ c.target offset whence < 0 ∨
        (c.content.length : Int) ≤ c.target offset whence then none
    else if whence = .seekCur ∧ offset = 0 then some c
    else
      some { c with
        helper := { c.helper with doSeek := true, seekOffset := offset, seekWhence := whence }
        reader := .seeking
        sought := (c.target offset whence).toNat
        since := [] }
  | _ => none

/-- The loop at the end of `seek`. -/
def onSeekReturns (c : CurlIOHandler) : Option CurlIOHandler :=
  match c.reader with
  | .seeking =>
    if c.helper.doSeek && !(c.helper.eof || c.helper.readError) then none
    else some { c with reader := .idle }
  | _ => none

/-! ### The curl thread -/

def onPerform (c : CurlIOHandler) : Option CurlIOHandler :=
  match c.thread with
  | .top =>
    if c.helper.doSeek then
      let target := c.helper.seekTarget
      some { c with
        helper :=
          { c.helper with
            posRead := target
            waitForInitialFillSize := decide (0 < c.helper.initialFillSize)
            doSeek := false }
        thread := .performing
        resumeFrom := target.toNat
        transferred := target.toNat }
    else some { c with thread := .performing, transferred := c.resumeFrom }
  | _ => none

/-- A chunk fits into the buffer, and ends inside the content. -/
def onCallback (c : CurlIOHandler) (n : Nat) : Option CurlIOHandler :=
  match c.thread with
  | .performing =>
    if 0 < n ∧ n ≤ c.helper.bufSize ∧ c.transferred + n ≤ c.content.length then
      some { c with
        thread := .called ((c.content.drop c.transferred).take n)
        transferred := c.transferred + n }
    else none
  | _ => none

/-- The callback returns 0, and libcurl gives up the transfer. -/
def abort (c : CurlIOHandler) : CurlIOHandler :=
  { c with
    helper := { c.helper with a := 0, b := 0, empty := true }
    thread := .performed false }

/-- The callback has looked after the seek and goes on, if there is room. -/
def goOn (c : CurlIOHandler) (chunk : List UInt8) : CurlIOHandler :=
  let h := c.helper.rewind
  { c with
    helper := h
    thread := if h.hasRoom chunk.length then .unlocked chunk h.b h.maxWrite else .waiting chunk }

def onEnter (c : CurlIOHandler) : Option CurlIOHandler :=
  match c.thread with
  | .called chunk =>
    let c := { c with helper := c.helper.seekInBuffer }
    if c.helper.doSeek then some c.abort else some (c.goOn chunk)
  | _ => none

/-- Woken, the callback looks for room first, and after the seek only if there is none. -/
def onWake (c : CurlIOHandler) : Option CurlIOHandler :=
  match c.thread with
  | .waiting chunk =>
    let c := c.goOn chunk
    if c.helper.hasRoom chunk.length then some c
    else
      let c := { c with helper := c.helper.seekInBuffer }
      if c.helper.doSeek then some c.abort else some c
  | _ => none

def onCopyIn (c : CurlIOHandler) : Option CurlIOHandler :=
  match c.thread with
  | .unlocked chunk bLocal maxWrite =>
    let write1 := if chunk.length > maxWrite then maxWrite else chunk.length
    let write2 := if write1 < chunk.length then chunk.length - write1 else 0
    some { c with
      helper :=
        { c.helper with
          buffer := storeRound c.helper.buffer bLocal (chunk.take write1)
            ((chunk.drop maxWrite).take write2) }
      thread := .copied chunk }
  | _ => none

def onRelock (c : CurlIOHandler) : Option CurlIOHandler :=
  match c.thread with
  | .copied chunk =>
    let b := c.helper.b + chunk.length
    let b := if b ≥ c.helper.bufSize then b - c.helper.bufSize else b
    some { c with helper := c.helper.filled b, thread := .performing }
  | _ => none

def onPerformed (c : CurlIOHandler) (ok : Bool) : Option CurlIOHandler :=
  match c.thread with
  | .performing =>
    if ok && decide (c.transferred < c.content.length) then none
    else some { c with thread := .performed ok }
  | _ => none

def onLoopEnd (c : CurlIOHandler) : Option CurlIOHandler :=
  match c.thread with
  | .performed ok => some { c with thread := if c.helper.doSeek then .top else .ending ok }
  | _ => none

def onThreadEnd (c : CurlIOHandler) : Option CurlIOHandler :=
  match c.thread with
  | .ending true => some { c with helper := { c.helper with eof := true }, thread := .done }
  | .ending false => some { c with helper := { c.helper with readError := true }, thread := .done }
  | _ => none

def step (c : CurlIOHandler) : CurlEvent → Option CurlIOHandler
  | .read length => c.onRead length
  | .copy => c.onCopy
  | .readEnd => c.onReadEnd
  | .seek offset whence => c.onSeek offset whence
  | .seekReturns => c.onSeekReturns
  | .perform => c.onPerform
  | .callback n => c.onCallback n
  | .enter => c.onEnter
  | .wake => c.onWake
  | .copyIn => c.onCopyIn
  | .relock => c.onRelock
  | .performed ok => c.onPerformed ok
  | .loopEnd => c.onLoopEnd
  | .threadEnd => c.onThreadEnd

/-- A handler that has just been opened. -/
def opened (sizes : CurlSizes) (buffer : Nat → UInt8) (content : List UInt8) : CurlIOHandler :=
  { helper := .new sizes.toBufferSizes buffer, content := content }

end CurlIOHandler
end MediaTomb
