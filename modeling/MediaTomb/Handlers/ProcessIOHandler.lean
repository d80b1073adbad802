/-
  Reading from and writing to a fifo with processes behind it (`process_io_handler.cc`).

  `read` and `write` are loops around `select`.  One round of a loop is a step on the state of the
  call (the counter of the bytes moved, the pointer into the caller's buffer, what is still to be
  moved); what the step meets is an OUTCOME: select timed out, was interrupted, or the descriptor is
  ready and the system call moved so many bytes.  The processes are part of an outcome: they are
  looked at when it has come.

  `num_bytes` is an `int`, the length a `size_t`: the counter wraps, and it is the COUNTER that says
  where in the buffer the next bytes go.
-/
import MediaTomb.Handlers.IOHandler

namespace MediaTomb

/-! ## The processes -/

/-- The processes at the moment they are looked at. -/
structure Processes where
  isAlive : Nat → Bool
  getStatus : Nat → Int

structure ProcListItem where
  /-- nil for an item without a process -/
  executor : Option Nat
  abortOnDeath : Bool

/-- What a `ProcessIOHandler` knows of its processes. -/
structure ProcessIOHandler where
  mainProc : Option Nat
  proclist : Option (List ProcListItem) := none

def exitSuccess : Int := 0

/-- Maximum of allowed consecutive timeouts. -/
def maxTimeouts : Nat := 2

namespace ProcessIOHandler

/-- `abort`: the first process of the list that is dead decides. -/
def abort (h : ProcessIOHandler) (ps : Processes) : Bool :=
  match h.proclist with
  | none => false
  | some items =>
    match items.find? fun item => item.executor.any fun exec => !ps.isAlive exec with
    | none => false
    | some item => item.abortOnDeath

/-- What a timeout makes a call return, if anything. -/
def timeoutReturn (h : ProcessIOHandler) (ps : Processes) : Option Int :=
  match h.mainProc with
  | none => some 0
  | some main =>
    if !ps.isAlive main then some (if ps.getStatus main = exitSuccess then 0 else -1)
    else if h.abort ps then some (-1)
    else none

/-- The end of both calls. -/
def finish (h : ProcessIOHandler) (ps : Processes) (numBytes : Int) : Int :=
  if numBytes < 0 then
    match h.mainProc with
    | none => 0
    | some main =>
      if !ps.isAlive main then if ps.getStatus main = exitSuccess then 0 else -1
      else -1
  else numBytes

end ProcessIOHandler

/-! ## `read` -/

/-- What `read` meets: in the order of the source, a timeout of select, EINTR, the fifo is readable
    and `::read` takes bytes (none at the end of the file), `::read` fails. -/
inductive ReadOutcome where
  | timeout (ps : Processes)
  | interrupted
  | readable (data : Str) (ps : Processes)
  | failed

/-- The caller's memory, by the distance from `buf`. -/
abbrev Buffer := Int → UInt8

/-- `bytes` stored at `buf + offset`. -/
def Buffer.store (buf : Buffer) (offset : Int) (bytes : Str) : Buffer := fun i =>
  if offset ≤ i then bytes.getD (i - offset).toNat (buf i) else buf i

/-- The first `r` bytes; none for `r ≤ 0`. -/
def Buffer.first (buf : Buffer) (r : Int) : Str := (List.range r.toNat).map fun i : Nat => buf i

/-- A call to `read` under way; `taken` is what came out of the fifo. -/
structure ReadState where
  buf : Buffer
  length : Nat
  numBytes : Int := 0
  /-- `p_buffer - buf` -/
  offset : Int := 0
  timeoutCount : Nat := 0
  taken : Str := []

/-- A call to `read` that has returned. -/
structure ReadResult where
  ret : Int
  buf : Buffer
  taken : Str

def ReadState.return (st : ReadState) (ret : Int) : ReadResult := ⟨ret, st.buf, st.taken⟩

namespace ProcessIOHandler

/-- One round of the loop of `read`. -/
def readStep (h : ProcessIOHandler) (st : ReadState) : ReadOutcome → ReadState ⊕ ReadResult
  | .interrupted => .inl st
  | .timeout ps =>
    match h.timeoutReturn ps with
    | some ret => .inr (st.return ret)
    | none =>
      let st := { st with timeoutCount := st.timeoutCount + 1 }
      if st.timeoutCount > maxTimeouts then .inr (st.return checkSocket) else .inl st
  | .failed => .inr (st.return (-1))
  | .readable data ps =>
    -- `::read(fd, p_buffer, length)` takes at most `length` bytes
    let bytes := data.take st.length
    let st := { st with timeoutCount := 0 }
    if bytes = [] then .inr (st.return (h.finish ps st.numBytes))
    else
      let st :=
        { st with
          buf := st.buf.store st.offset bytes
          taken := st.taken ++ bytes
          numBytes := toCInt (st.numBytes + bytes.length)
          length := st.length - bytes.length }
      if st.length = 0 then .inr (st.return (h.finish ps st.numBytes))
      else .inl { st with offset := st.numBytes }

/-- `read`, as long as the outcomes last: what it returns, and the outcomes that are left. -/
def readLoop (h : ProcessIOHandler) (st : ReadState) :
    List ReadOutcome → Option (ReadResult × List ReadOutcome)
  | [] => none
  | o :: rest =>
    match h.readStep st o with
    | .inl st => readLoop h st rest
    | .inr r => some (r, rest)

/-- `read(buf, length)`. -/
def read (h : ProcessIOHandler) (buf : Buffer) (length : Nat) (outcomes : List ReadOutcome) :
    Option (ReadResult × List ReadOutcome) :=
  h.readLoop { buf := buf, length := length } outcomes

end ProcessIOHandler

/-! ## `write` -/

/-- What `write` meets; `writable n` lets `::write` put at most `n` bytes into the fifo. -/
inductive WriteOutcome where
  | timeout (ps : Processes)
  | interrupted
  | writable (count : Nat) (ps : Processes)
  | failed

/-- A call to `write` under way. -/
structure WriteState where
  length : Nat
  numBytes : Int := 0
  /-- `p_buffer - buf` -/
  offset : Int := 0
  deriving DecidableEq

/-- How many bytes, starting at `p_buffer`, an outcome puts into the fifo. -/
def WriteState.put (st : WriteState) : WriteOutcome → Nat
  | .writable count _ => min count st.length
  | _ => 0

namespace ProcessIOHandler

/-- One round of the loop of `write`. -/
def writeStep (h : ProcessIOHandler) (st : WriteState) : WriteOutcome → WriteState ⊕ Int
  | .interrupted => .inl st
  | .timeout ps =>
    match h.timeoutReturn ps with
    | some ret => .inr ret
    | none => .inl st
  | .failed => .inr (-1)
  | .writable count ps =>
    let bytesWritten := min count st.length
    if bytesWritten = 0 then .inr (h.finish ps st.numBytes)
    else
      let st :=
        { st with
          numBytes := toCInt (st.numBytes + bytesWritten)
          length := st.length - bytesWritten }
      if st.length = 0 then .inr (h.finish ps st.numBytes)
      else .inl { st with offset := st.numBytes }

end ProcessIOHandler

end MediaTomb
