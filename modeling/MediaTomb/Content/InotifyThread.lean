/-
  `Inotify::nextEvent` (`mt_inotify.cc`), and the thread that calls it (`AutoscanInotify::threadProc`,
  `monitor`, `unmonitor`, `shutdown` in `autoscan_inotify.cc`).

  DATA     The kernel has a queue of events.  A `read` gives some of them, as bytes: a header of 16
           bytes, which ends with the length of the name, and the name.  They are read into one array
           and given out one at a time, as pointers into the array.
  PROGRAM  Other threads put requests into two queues and write a byte into a pipe, since the thread
           may be asleep in `select`.  The thread empties the queues and then waits for an event.
  RESULT   In every interleaving
             * `delivered_all`     the events come out as they came in: none is lost, torn, or given
                                   out twice, and the branch for an incomplete event is dead;
             * `requests_handled`  no request has to wait for an event: the thread goes on by itself
                                   until the queues are empty.

  The array is never written while it holds events.  That is why the second `read` address, which
  counts in events where it should count in bytes, does no harm.
-/
import MediaTomb.Lib.Machine
import MediaTomb.Lib.Records
import MediaTomb.Content.AutoscanInotify

namespace MediaTomb.Inotify

open Lib.Machine Lib.Ring Lib.Records

/-! ## Events as bytes -/

/-- How the machine writes an `int`. -/
structure ByteOrder where
  bytes : UInt32 → List UInt8
  value : List UInt8 → UInt32
  length_bytes : ∀ w, (bytes w).length = 4
  value_bytes : ∀ w, value (bytes w) = w

/-- `sizeof(struct inotify_event)` -/
def sizeofEvent : Nat := 16

/-- `MAX_EVENTS` -/
def maxEvents : Nat := 4096

/-- The size of the array, in bytes. -/
def arraySize : Nat := sizeofEvent * maxEvents

/-- `struct inotify_event`, with the name as it is written: with its NULs, or not at all. -/
structure InotifyEvent where
  wd : UInt32
  mask : UInt32
  cookie : UInt32
  name : List UInt8
  short : name.length < 2 ^ 32

def InotifyEvent.len (e : InotifyEvent) : UInt32 := UInt32.ofNat e.name.length

def InotifyEvent.header (order : ByteOrder) (e : InotifyEvent) : List UInt8 :=
  order.bytes e.wd ++ (order.bytes e.mask ++ (order.bytes e.cookie ++ order.bytes e.len))

def InotifyEvent.encode (order : ByteOrder) (e : InotifyEvent) : List UInt8 :=
  e.header order ++ e.name

/-- `event->len`, from the header. -/
def lenOf (order : ByteOrder) (header : List UInt8) : Nat := (order.value (header.drop 12)).toNat

theorem length_slice_len {mem : Nat → UInt8} {off : Nat} {w : UInt32} :
    (slice mem off w.toNat).length < 2 ^ 32 := by
  rw [length_slice]
  exact w.toNat_lt

/-- What the pointer points to. -/
def eventAt (order : ByteOrder) (event : Nat → UInt8) (ret : Nat) : InotifyEvent where
  wd := order.value (slice event ret 4)
  mask := order.value (slice event (ret + 4) 4)
  cookie := order.value (slice event (ret + 8) 4)
  name := slice event (ret + 16) (order.value (slice event (ret + 12) 4)).toNat
  short := length_slice_len

section

variable {order : ByteOrder} {e : InotifyEvent} {event : Nat → UInt8} {ret : Nat}

theorem toNat_len (e : InotifyEvent) : e.len.toNat = e.name.length := by
  show (UInt32.ofNat e.name.length).toNat = e.name.length
  rw [UInt32.toNat_ofNat']
  exact Nat.mod_eq_of_lt e.short

theorem length_header : (e.header order).length = sizeofEvent := by
  show (_ ++ (_ ++ (_ ++ _)) : List UInt8).length = 16
  simp only [List.length_append, order.length_bytes]

theorem lenOf_header : lenOf order (e.header order) = e.name.length := by
  have hdrop : (e.header order).drop 12 = order.bytes e.len := by
    show (_ ++ (_ ++ (_ ++ _)) : List UInt8).drop 12 = _
    rw [← List.append_assoc, ← List.append_assoc]
    refine List.drop_left' ?_
    simp only [List.length_append, order.length_bytes]
  unfold lenOf
  rw [hdrop, order.value_bytes, toNat_len]

theorem length_encode (order : ByteOrder) (e : InotifyEvent) :
    (e.encode order).length =
      sizeofEvent + lenOf order ((e.encode order).take sizeofEvent) := by
  have htake : (e.encode order).take sizeofEvent = e.header order := List.take_left' length_header
  rw [htake, lenOf_header]
  show (e.header order ++ e.name).length = _
  rw [List.length_append, length_header]

theorem sizeofEvent_pos : 0 < sizeofEvent := Nat.succ_pos 15

/-- **The bytes of `inotify`.** -/
def format (order : ByteOrder) : Format InotifyEvent UInt8 where
  encode := InotifyEvent.encode order
  header := sizeofEvent
  more := lenOf order
  header_pos := sizeofEvent_pos
  length_encode := length_encode order

theorem ext {e e' : InotifyEvent} (hwd : e.wd = e'.wd) (hmask : e.mask = e'.mask)
    (hcookie : e.cookie = e'.cookie) (hname : e.name = e'.name) : e = e' := by
  cases e
  cases e'
  cases hwd
  cases hmask
  cases hcookie
  cases hname
  rfl

/-- The pointer shows the event whose bytes are there. -/
theorem eventAt_eq (h : slice event ret (e.encode order).length = e.encode order) :
    eventAt order event ret = e := by
  have hlen : (e.encode order).length = 4 + (4 + (4 + (4 + e.name.length))) := by
    show (e.header order ++ e.name).length = _
    rw [List.length_append, length_header]
    show 16 + _ = _
    omega
  have hbytes : e.encode order = order.bytes e.wd ++ (order.bytes e.mask ++
      (order.bytes e.cookie ++ (order.bytes e.len ++ e.name))) := by
    show _ ++ (_ ++ (_ ++ _)) ++ _ = _
    simp only [List.append_assoc]
  rw [hlen, hbytes, slice_append, slice_append, slice_append, slice_append] at h
  have hfour : ∀ off w, (slice event off 4).length = (order.bytes w).length := by
    intro off w
    rw [length_slice, order.length_bytes]
  obtain ⟨hwd, h⟩ := List.append_inj h (hfour _ _)
  obtain ⟨hmask, h⟩ := List.append_inj h (hfour _ _)
  obtain ⟨hcookie, h⟩ := List.append_inj h (hfour _ _)
  obtain ⟨hlen', hname⟩ := List.append_inj h (hfour _ _)
  refine ext ?_ ?_ ?_ ?_
  · show order.value (slice event ret 4) = e.wd
    rw [hwd, order.value_bytes]
  · show order.value (slice event (ret + 4) 4) = e.mask
    rw [hmask, order.value_bytes]
  · show order.value (slice event (ret + 8) 4) = e.cookie
    rw [show ret + 8 = ret + 4 + 4 from rfl, hcookie, order.value_bytes]
  · show slice event (ret + 16) (order.value (slice event (ret + 12) 4)).toNat = e.name
    rw [show ret + 12 = ret + 4 + 4 + 4 from rfl, hlen', order.value_bytes, toNat_len]
    exact hname

end

/-! ## `nextEvent` -/

/-- The variables of the function that are `static`. -/
structure Buffer where
  event : Nat → UInt8 := fun _ => 0
  firstByte : Nat := 0
  bytes : Nat := 0

/-- The kernel's part. -/
structure Kernel where
  /-- events that have not been read -/
  queue : List InotifyEvent := []
  /-- bytes in the pipe of `stop` -/
  pipe : Nat := 0
  /-- all events that there ever were -/
  arrived : List InotifyEvent := []

/-- How the `ioctl` and the `read` end. -/
inductive Reading where
  | ioctlFailed
  | readFailed
  | endOfFile
  /-- so many events are read -/
  | events (k : Nat)

/-- How `select` ends; the descriptors that can be read are told. -/
inductive Select where
  | failed
  | timeout
  | ready (stop : Bool) (inotify : Option Reading)

/-- How `nextEvent` ends. -/
inductive Returned where
  /-- the kernel does not answer like that -/
  | never
  /-- an assertion fails, or the array is left -/
  | fault
  /-- the pointer, as an offset -/
  | pointer (ret : Option Nat) (b : Buffer) (kernel : Kernel)

/-- `event->len` of the event at `ret` -/
def Buffer.lenAt (order : ByteOrder) (b : Buffer) (ret : Nat) : Nat :=
  lenOf order (slice b.event ret sizeofEvent)

/-- What follows the `read`. -/
def Buffer.received (order : ByteOrder) (b : Buffer) (data : List UInt8) (kernel : Kernel) :
    Returned :=
  -- `&event[0] + bytes` counts in events
  let pos := sizeofEvent * b.bytes
  if pos + data.length ≤ arraySize then
    let b' : Buffer := { b with event := store b.event pos data, bytes := b.bytes + data.length }
    let firstByte := sizeofEvent + b'.lenAt order 0
    if firstByte ≤ b'.bytes then
      .pointer (some 0) { b' with firstByte := if firstByte = b'.bytes then 0 else firstByte } kernel
    else .fault
  else .fault

/-- Whole events, as many as the kernel likes, if they fit. -/
def Kernel.read (order : ByteOrder) (kernel : Kernel) (room k : Nat) :
    Option (List UInt8 × Kernel) :=
  let data := (kernel.queue.take k).flatMap (InotifyEvent.encode order)
  if 0 < k ∧ k ≤ kernel.queue.length ∧ data.length ≤ room then
    some (data, { kernel with queue := kernel.queue.drop k })
  else none

/-- From `select` on. -/
def Buffer.wait (order : ByteOrder) (b : Buffer) (kernel : Kernel) : Select → Returned
  | .failed => .pointer none b kernel
  | .timeout => .pointer none b kernel
  | .ready stop inotify =>
    if (stop = true → 0 < kernel.pipe) ∧ (inotify.isSome → kernel.queue ≠ []) then
      let kernel' := if stop then { kernel with pipe := kernel.pipe - 1 } else kernel
      match inotify with
      | some (.events k) =>
        match kernel'.read order (arraySize - b.bytes) k with
        | some (data, kernel'') => b.received order data kernel''
        | none => .never
      | _ => .pointer none b kernel'
    else .never

def nextEvent (order : ByteOrder) (select : Select) (b : Buffer) (kernel : Kernel) : Returned :=
  if b.firstByte ≠ 0 ∧ b.firstByte + sizeofEvent ≤ b.bytes then
    let ret := b.firstByte
    let firstByte := ret + sizeofEvent + b.lenAt order ret
    if firstByte = b.bytes then .pointer (some ret) { b with firstByte := 0 } kernel
    else if b.bytes < firstByte then
      -- an incomplete event; the call of itself goes to `select`
      if sizeofEvent + b.lenAt order 0 ≤ ret then
        let bytes := b.bytes - ret
        Buffer.wait order ⟨store b.event 0 (slice b.event ret bytes), firstByte, bytes⟩ kernel select
      else .fault
    else .pointer (some ret) { b with firstByte := firstByte } kernel
  else if b.firstByte = 0 then Buffer.wait order { b with bytes := 0 } kernel select
  else b.wait order kernel select

/-! ## What is in the array -/

/-- **The events that have been read and not been given out.** -/
def Buffer.Pending (order : ByteOrder) (b : Buffer) (pending : List InotifyEvent) : Prop :=
  b.firstByte = 0 ∧ pending = [] ∨
    b.firstByte ≠ 0 ∧ b.firstByte < b.bytes ∧
      Holds (format order) b.event b.firstByte (b.bytes - b.firstByte) pending

/-- What a call makes of the events: one of them may come out, the others stay in order. -/
def Gives (order : ByteOrder) (pending : List InotifyEvent) (kernel : Kernel) : Returned → Prop
  | .never => True
  | .fault => False
  | .pointer ret b' kernel' =>
    kernel'.arrived = kernel.arrived ∧ kernel.pipe ≤ kernel'.pipe + 1 ∧
      ∃ pending', b'.Pending order pending' ∧
        pending ++ kernel.queue =
          (ret.map (eventAt order b'.event)).toList ++ (pending' ++ kernel'.queue)

section

variable {order : ByteOrder} {b : Buffer} {kernel kernel' : Kernel} {select : Select}
  {pending rest : List InotifyEvent} {e : InotifyEvent} {data : List UInt8} {room k : Nat}

theorem sizeAt_eq (ret : Nat) :
    (format order).sizeAt b.event ret = sizeofEvent + b.lenAt order ret := rfl

/-- The first event is given out, the others are still there. -/
theorem pending_next {ret n : Nat} {event : Nat → UInt8}
    (h : Holds (format order) event ret n (e :: rest)) :
    let size := (e.encode order).length
    eventAt order event ret = e ∧ 0 < size ∧ size ≤ n ∧ (n = size ↔ rest = []) ∧
      Holds (format order) event (ret + size) (n - size) rest := by
  obtain ⟨-, hle, hbytes, hrest⟩ := h.cons
  have hle' : (e.encode order).length ≤ n := hle
  refine ⟨eventAt_eq hbytes, (format order).length_pos e, hle, ?_, hrest⟩
  constructor
  · intro heq
    have hzero : n - (e.encode order).length = 0 := by omega
    have hnil : Holds (format order) event (ret + (e.encode order).length) 0 rest := by
      rw [← hzero]
      exact hrest
    exact hnil.nil
  · rintro rfl
    have hzero : n - (e.encode order).length = 0 := hrest.length_eq
    omega

theorem read_spec (h : kernel.read order room k = some (data, kernel')) :
    ∃ e rest, data = (e :: rest).flatMap (InotifyEvent.encode order) ∧ data.length ≤ room ∧
      kernel.queue = e :: rest ++ kernel'.queue ∧ kernel'.pipe = kernel.pipe ∧
      kernel'.arrived = kernel.arrived := by
  unfold Kernel.read at h
  simp only at h
  split at h
  next hok =>
    obtain ⟨hpos, hle, hroom⟩ := hok
    cases h
    have hne : kernel.queue.take k ≠ [] := by
      intro hnil
      have hlen := congrArg List.length hnil
      rw [List.length_take, List.length_nil] at hlen
      omega
    obtain ⟨e, rest, heq⟩ := List.exists_cons_of_ne_nil hne
    rw [heq] at hroom
    refine ⟨e, rest, by rw [heq], by rw [heq]; exact hroom, ?_, rfl, rfl⟩
    rw [← heq]
    exact (List.take_append_drop k kernel.queue).symm
  next => cases h

/-- **A read into the empty array.** -/
theorem received_spec (hbytes : b.bytes = 0)
    (hdata : data = (e :: rest).flatMap (InotifyEvent.encode order))
    (hroom : data.length ≤ arraySize) :
    ∃ b', b.received order data kernel = .pointer (some 0) b' kernel ∧ b'.Pending order rest ∧
      eventAt order b'.event 0 = e := by
  have hholds : Holds (format order) (store b.event 0 data) 0 data.length (e :: rest) := by
    rw [hdata]
    exact holds_store
  obtain ⟨hevent, hpos, hle, hlast, hrest⟩ := pending_next hholds
  have hsize : sizeofEvent + lenOf order (slice (store b.event 0 data) 0 sizeofEvent) =
      (e.encode order).length := hholds.cons.1
  unfold Buffer.received
  simp only [hbytes, Nat.mul_zero, Nat.zero_add, Buffer.lenAt, hsize]
  rw [if_pos hroom, if_pos hle]
  refine ⟨_, rfl, ?_, hevent⟩
  by_cases heq : (e.encode order).length = data.length
  · left
    exact ⟨if_pos heq, hlast.mp heq.symm⟩
  · right
    show (if (e.encode order).length = data.length then 0 else (e.encode order).length) ≠ 0 ∧
      (if (e.encode order).length = data.length then 0 else (e.encode order).length) < data.length ∧
      Holds (format order) (store b.event 0 data)
        (if (e.encode order).length = data.length then 0 else (e.encode order).length)
        (data.length - if (e.encode order).length = data.length then 0
          else (e.encode order).length) rest
    rw [if_neg heq]
    rw [Nat.zero_add] at hrest
    exact ⟨by omega, by omega, hrest⟩

/-- The stop byte is read first. -/
theorem wait_spec (hfirst : b.firstByte = 0) (hbytes : b.bytes = 0) :
    Gives order [] kernel (b.wait order kernel select) := by
  have hnothing : ∀ kernel'' : Kernel, kernel''.queue = kernel.queue →
      kernel''.arrived = kernel.arrived → kernel.pipe ≤ kernel''.pipe + 1 →
      Gives order [] kernel (.pointer none b kernel'') := by
    intro kernel'' hqueue harrived hpipe
    refine ⟨harrived, hpipe, [], Or.inl ⟨hfirst, rfl⟩, ?_⟩
    rw [hqueue]
    rfl
  cases select with
  | failed => exact hnothing kernel rfl rfl (Nat.le_succ _)
  | timeout => exact hnothing kernel rfl rfl (Nat.le_succ _)
  | ready stop inotify =>
    rw [Buffer.wait]
    split
    next hready =>
      have hstop : (if stop = true then { kernel with pipe := kernel.pipe - 1 } else kernel).queue =
          kernel.queue ∧
          (if stop = true then { kernel with pipe := kernel.pipe - 1 } else kernel).arrived =
            kernel.arrived ∧
          kernel.pipe ≤
            (if stop = true then { kernel with pipe := kernel.pipe - 1 } else kernel).pipe + 1 := by
        cases stop with
        | false => exact ⟨rfl, rfl, Nat.le_succ _⟩
        | true => exact ⟨rfl, rfl, show kernel.pipe ≤ kernel.pipe - 1 + 1 by omega⟩
      simp only
      generalize (if stop = true then { kernel with pipe := kernel.pipe - 1 } else kernel) = kernel₁
        at hstop ⊢
      obtain ⟨hqueue, harrived, hpipe⟩ := hstop
      split
      next k =>
        split
        next data kernel₂ hread =>
          obtain ⟨e, rest, hdata, hroom, hqueue₂, hpipe₂, harrived₂⟩ := read_spec hread
          rw [hbytes, Nat.sub_zero] at hroom
          obtain ⟨b', hb', hpending, hevent⟩ := @received_spec _ b kernel₂ _ _ _ hbytes hdata hroom
          rw [hb']
          refine ⟨harrived₂.trans harrived, by omega, rest, hpending, ?_⟩
          show kernel.queue = [eventAt order b'.event 0] ++ (rest ++ kernel₂.queue)
          rw [← hqueue, hqueue₂, hevent]
          rfl
        next => trivial
      next => exact hnothing kernel₁ hqueue harrived hpipe
    next => trivial

/-- **One call.** -/
theorem nextEvent_spec (h : b.Pending order pending) :
    Gives order pending kernel (nextEvent order select b kernel) := by
  unfold nextEvent
  rcases h with ⟨hfirst, rfl⟩ | ⟨hfirst, hlt, hholds⟩
  · rw [if_neg (fun hboth => hboth.1 hfirst), if_pos hfirst]
    exact wait_spec hfirst rfl
  · obtain ⟨e, rest, rfl⟩ := hholds.exists_cons (by omega)
    have hheader : sizeofEvent ≤ b.bytes - b.firstByte := hholds.header_le
    rw [if_pos ⟨hfirst, by omega⟩]
    obtain ⟨hevent, hpos, hle, hlast, hrest⟩ := pending_next hholds
    have hsize : b.firstByte + sizeofEvent + b.lenAt order b.firstByte =
        b.firstByte + (e.encode order).length := by
      rw [Nat.add_assoc, ← sizeAt_eq]
      exact congrArg _ hholds.cons.1
    have hgiven : (e :: rest) ++ kernel.queue =
        [eventAt order b.event b.firstByte] ++ (rest ++ kernel.queue) := by
      rw [hevent]
      rfl
    simp only [hsize]
    by_cases hend : b.firstByte + (e.encode order).length = b.bytes
    · rw [if_pos hend]
      have hnil : rest = [] := hlast.mp (by omega)
      refine ⟨rfl, Nat.le_succ _, rest, Or.inl ⟨rfl, hnil⟩, hgiven⟩
    · -- the next event is there as a whole, so the branch for an incomplete one is not taken
      rw [if_neg hend, if_neg (by omega)]
      refine ⟨rfl, Nat.le_succ _, rest, Or.inr ⟨?_, ?_, ?_⟩, hgiven⟩
      · show b.firstByte + (e.encode order).length ≠ 0
        omega
      · show b.firstByte + (e.encode order).length < b.bytes
        omega
      · show Holds (format order) b.event (b.firstByte + (e.encode order).length)
          (b.bytes - (b.firstByte + (e.encode order).length)) rest
        rw [← Nat.sub_sub]
        exact hrest

end

/-! ## The thread and the others -/

/-- Where the thread is. -/
inductive Phase where
  /-- `while (! shutdownFlag)` -/
  | top
  /-- it empties `unmonitorQueue` -/
  | unmonitoring
  /-- it empties `monitorQueue` -/
  | monitoring
  /-- in `nextEvent` -/
  | waiting
  | ended
  deriving DecidableEq

/-- The requests that were made, or handled, in order. -/
structure Requests (α : Type) where
  made : List α := []
  queue : List α := []
  handled : List α := []

structure State (α : Type) where
  phase : Phase := .top
  shutdownFlag : Bool := false
  unmonitor : Requests α := {}
  monitor : Requests α := {}
  buffer : Buffer := {}
  kernel : Kernel := {}
  /-- the events that `nextEvent` has returned -/
  delivered : List InotifyEvent := []
  faulted : Bool := false

inductive Event (α : Type) where
  /-- something happens in a watched directory -/
  | arrives (e : InotifyEvent)
  | monitor (dir : α)
  | unmonitor (dir : α)
  | shutdown
  /-- the thread tests `shutdownFlag` -/
  | enter
  /-- the thread takes a request, or finds that there is none -/
  | dequeue
  | nextEvent (select : Select)
  /-- an exception is caught; the loop starts again -/
  | caught

/-- The next event is the thread's. -/
def Event.ofThread {α : Type} : Event α → Prop
  | .arrives _ | .monitor _ | .unmonitor _ | .shutdown => False
  | .enter | .dequeue | .nextEvent _ | .caught => True

section

variable {α : Type}

/-- `enqueue` -/
def Requests.enqueue (r : Requests α) (dir : α) : Requests α :=
  { r with made := r.made ++ [dir], queue := r.queue ++ [dir] }

/-- `Inotify::stop` -/
def Kernel.stop (kernel : Kernel) : Kernel := { kernel with pipe := kernel.pipe + 1 }

/-- The event is handled before the thread is at the top again. -/
def State.returned (s : State α) (order : ByteOrder) : Returned → Option (State α)
  | .never => none
  | .fault => some { s with faulted := true }
  | .pointer ret buffer kernel => some { s with
      phase := .top
      buffer := buffer
      kernel := kernel
      delivered := s.delivered ++ (ret.map (eventAt order buffer.event)).toList }

def step (order : ByteOrder) (s : State α) : Event α → Option (State α)
  | .arrives e => some { s with kernel := { s.kernel with
      queue := s.kernel.queue ++ [e], arrived := s.kernel.arrived ++ [e] } }
  | .monitor dir =>
    if s.shutdownFlag then none
    else some { s with monitor := s.monitor.enqueue dir, kernel := s.kernel.stop }
  | .unmonitor dir =>
    if s.shutdownFlag then none
    else some { s with unmonitor := s.unmonitor.enqueue dir, kernel := s.kernel.stop }
  | .shutdown =>
    if s.shutdownFlag then some s
    else some { s with shutdownFlag := true, kernel := s.kernel.stop }
  | .enter =>
    if s.phase = .top then
      some { s with phase := if s.shutdownFlag then .ended else .unmonitoring }
    else none
  | .dequeue =>
    match s.phase with
    | .unmonitoring =>
      match s.unmonitor.queue with
      | dir :: rest => some { s with unmonitor := { s.unmonitor with
          queue := rest, handled := s.unmonitor.handled ++ [dir] } }
      | [] => some { s with phase := .monitoring }
    | .monitoring =>
      match s.monitor.queue with
      | dir :: rest => some { s with monitor := { s.monitor with
          queue := rest, handled := s.monitor.handled ++ [dir] } }
      | [] => some { s with phase := .waiting }
    | _ => none
  | .nextEvent select =>
    if s.phase = .waiting then s.returned order (nextEvent order select s.buffer s.kernel) else none
  | .caught =>
    if s.phase = .unmonitoring ∨ s.phase = .monitoring then some { s with phase := .top } else none

/-! ## Events -/

/-- **Every event is given out, in the array, or still with the kernel**, in this order. -/
structure Streaming (order : ByteOrder) (s : State α) : Prop where
  sound : s.faulted = false
  events : ∃ pending, s.buffer.Pending order pending ∧
    s.delivered ++ (pending ++ s.kernel.queue) = s.kernel.arrived

theorem streaming_start (order : ByteOrder) : Streaming order ({} : State α) :=
  ⟨rfl, [], Or.inl ⟨rfl, rfl⟩, rfl⟩

variable {order : ByteOrder} {s s' : State α} {e : Event α} {es : List (Event α)}

/-- A step that leaves the events alone. -/
theorem Streaming.frame (h : Streaming order s) (hfaulted : s'.faulted = s.faulted)
    (hbuffer : s'.buffer = s.buffer) (hdelivered : s'.delivered = s.delivered)
    (hqueue : s'.kernel.queue = s.kernel.queue) (harrived : s'.kernel.arrived = s.kernel.arrived) :
    Streaming order s' := by
  obtain ⟨pending, hpending, hall⟩ := h.events
  refine ⟨hfaulted.trans h.sound, pending, ?_, ?_⟩
  · rw [hbuffer]
    exact hpending
  · rw [hdelivered, hqueue, harrived]
    exact hall

theorem Streaming.step (h : Streaming order s) (hstep : step order s e = some s') :
    Streaming order s' := by
  cases e with
  | arrives e =>
    cases hstep
    obtain ⟨pending, hpending, hall⟩ := h.events
    refine ⟨h.sound, pending, hpending, ?_⟩
    show s.delivered ++ (pending ++ (s.kernel.queue ++ [e])) = s.kernel.arrived ++ [e]
    rw [← hall]
    simp only [List.append_assoc]
  | monitor dir =>
    rw [Inotify.step] at hstep
    split at hstep
    · cases hstep
    · cases hstep
      exact h.frame rfl rfl rfl rfl rfl
  | unmonitor dir =>
    rw [Inotify.step] at hstep
    split at hstep
    · cases hstep
    · cases hstep
      exact h.frame rfl rfl rfl rfl rfl
  | shutdown =>
    rw [Inotify.step] at hstep
    split at hstep
    · cases hstep
      exact h
    · cases hstep
      exact h.frame rfl rfl rfl rfl rfl
  | enter =>
    rw [Inotify.step] at hstep
    split at hstep
    · cases hstep
      exact h.frame rfl rfl rfl rfl rfl
    · cases hstep
  | dequeue =>
    rw [Inotify.step] at hstep
    split at hstep
    · split at hstep <;> cases hstep <;> exact h.frame rfl rfl rfl rfl rfl
    · split at hstep <;> cases hstep <;> exact h.frame rfl rfl rfl rfl rfl
    · cases hstep
  | nextEvent select =>
    rw [Inotify.step] at hstep
    split at hstep
    · obtain ⟨pending, hpending, hall⟩ := h.events
      have hgives : Gives order pending s.kernel (nextEvent order select s.buffer s.kernel) :=
        nextEvent_spec hpending
      rcases hr : nextEvent order select s.buffer s.kernel with _ | _ | ⟨ret, b', kernel'⟩
      · rw [hr] at hstep
        cases hstep
      · rw [hr] at hgives
        exact hgives.elim
      · rw [hr] at hgives hstep
        obtain ⟨harrived, -, pending', hpending', heq⟩ := hgives
        cases hstep
        refine ⟨h.sound, pending', hpending', ?_⟩
        show s.delivered ++ (ret.map (eventAt order b'.event)).toList ++ (pending' ++ kernel'.queue) =
          kernel'.arrived
        rw [harrived, ← hall, heq, List.append_assoc]
    · cases hstep
  | caught =>
    rw [Inotify.step] at hstep
    split at hstep
    · cases hstep
      exact h.frame rfl rfl rfl rfl rfl
    · cases hstep

/-- **The events come out as they came in**, whatever the threads and the kernel do, and no call
    ever leaves the array or fails an assertion. -/
theorem delivered_all (order : ByteOrder) (es : List (Event α)) (s : State α)
    (h : run (step order) {} es = some s) :
    s.faulted = false ∧ ∃ pending, s.buffer.Pending order pending ∧
      s.delivered ++ (pending ++ s.kernel.queue) = s.kernel.arrived := by
  have hinv : Streaming order s := run_inv (fun _ _ _ hs hstep => hs.step hstep)
    (streaming_start order) h
  exact ⟨hinv.sound, hinv.events⟩

/-! ## Requests -/

/-- What is in a queue has been made and not been handled. -/
def Requests.InOrder (r : Requests α) : Prop := r.handled ++ r.queue = r.made

theorem Requests.InOrder.enqueue {r : Requests α} (h : r.InOrder) (dir : α) :
    (r.enqueue dir).InOrder := by
  show r.handled ++ (r.queue ++ [dir]) = r.made ++ [dir]
  rw [← List.append_assoc]
  exact congrArg (· ++ [dir]) h

theorem Requests.InOrder.dequeue {r : Requests α} {dir : α} {rest : List α} (h : r.InOrder)
    (hqueue : r.queue = dir :: rest) :
    ({ r with queue := rest, handled := r.handled ++ [dir] } : Requests α).InOrder := by
  show r.handled ++ [dir] ++ rest = r.made
  rw [List.append_assoc, List.singleton_append, ← hqueue]
  exact h

/-- What the thread has not looked at since it was at the top. -/
def State.unseen (s : State α) : Nat :=
  match s.phase with
  | .top | .ended | .unmonitoring => 0
  | .monitoring => s.unmonitor.queue.length
  | .waiting => s.unmonitor.queue.length + s.monitor.queue.length

/-- **Nobody is overslept**: there is a byte for each request that has not been seen, and one for the
    shutdown. -/
structure Awake (s : State α) : Prop where
  unmonitor : s.unmonitor.InOrder
  monitor : s.monitor.InOrder
  bytes : s.phase ≠ .top → s.unseen + s.shutdownFlag.toNat ≤ s.kernel.pipe ∨ s.phase = .ended
  ended : s.phase = .ended → s.shutdownFlag = true

theorem awake_start : Awake ({} : State α) :=
  ⟨rfl, rfl, fun h => absurd rfl h, fun h => nomatch h⟩

/-- Another thread has done something, and written a byte. -/
theorem Awake.other (h : Awake s) (hphase : s'.phase = s.phase)
    (hunmonitor : s'.unmonitor.InOrder) (hmonitor : s'.monitor.InOrder)
    (hflag : s.shutdownFlag = true → s'.shutdownFlag = true)
    (hunseen : s'.unseen + s'.shutdownFlag.toNat + s.kernel.pipe ≤
      s.unseen + s.shutdownFlag.toNat + s'.kernel.pipe) : Awake s' := by
  refine ⟨hunmonitor, hmonitor, ?_, ?_⟩
  · rw [hphase]
    intro hne
    rcases h.bytes hne with hbytes | hended
    · left
      omega
    · right
      exact hended
  · rw [hphase]
    intro hended
    exact hflag (h.ended hended)

theorem unseen_enqueue_monitor (dir : α) (kernel : Kernel) :
    ({ s with monitor := s.monitor.enqueue dir, kernel := kernel } : State α).unseen ≤
      s.unseen + 1 := by
  have hlength : (s.monitor.enqueue dir).queue.length = s.monitor.queue.length + 1 :=
    List.length_append
  unfold State.unseen
  simp only [hlength]
  cases s.phase <;> simp only <;> omega

theorem unseen_enqueue_unmonitor (dir : α) (kernel : Kernel) :
    ({ s with unmonitor := s.unmonitor.enqueue dir, kernel := kernel } : State α).unseen ≤
      s.unseen + 1 := by
  have hlength : (s.unmonitor.enqueue dir).queue.length = s.unmonitor.queue.length + 1 :=
    List.length_append
  unfold State.unseen
  simp only [hlength]
  cases s.phase <;> simp only <;> omega

theorem Awake.step (h : Awake s) (hstep : step order s e = some s') : Awake s' := by
  cases e with
  | arrives e =>
    cases hstep
    exact h.other rfl h.unmonitor h.monitor id (Nat.le_refl _)
  | monitor dir =>
    rw [Inotify.step] at hstep
    split at hstep
    · cases hstep
    · cases hstep
      refine h.other rfl h.unmonitor (h.monitor.enqueue dir) id ?_
      have hunseen := unseen_enqueue_monitor (s := s) dir s.kernel.stop
      show _ + s.shutdownFlag.toNat + s.kernel.pipe ≤
        s.unseen + s.shutdownFlag.toNat + (s.kernel.pipe + 1)
      omega
  | unmonitor dir =>
    rw [Inotify.step] at hstep
    split at hstep
    · cases hstep
    · cases hstep
      refine h.other rfl (h.unmonitor.enqueue dir) h.monitor id ?_
      have hunseen := unseen_enqueue_unmonitor (s := s) dir s.kernel.stop
      show _ + s.shutdownFlag.toNat + s.kernel.pipe ≤
        s.unseen + s.shutdownFlag.toNat + (s.kernel.pipe + 1)
      omega
  | shutdown =>
    rw [Inotify.step] at hstep
    split at hstep
    · cases hstep
      exact h
    · cases hstep
      refine h.other rfl h.unmonitor h.monitor (fun _ => rfl) ?_
      show s.unseen + 1 + s.kernel.pipe ≤ s.unseen + s.shutdownFlag.toNat + (s.kernel.pipe + 1)
      omega
  | enter =>
    rw [Inotify.step] at hstep
    split at hstep
    · cases hstep
      -- the flag is tested: from now on there is a byte for it
      by_cases hflag : s.shutdownFlag = true
      · simp only [hflag, if_true]
        exact ⟨h.unmonitor, h.monitor, fun _ => Or.inr rfl, fun _ => rfl⟩
      · rw [Bool.not_eq_true] at hflag
        simp only [hflag, Bool.false_eq_true, if_false]
        refine ⟨h.unmonitor, h.monitor, fun _ => Or.inl ?_, fun hended => nomatch hended⟩
        exact Nat.zero_le _
    · cases hstep
  | dequeue =>
    rw [Inotify.step] at hstep
    split at hstep
    next hphase =>
      have hbytes : s.shutdownFlag.toNat ≤ s.kernel.pipe := by
        rcases h.bytes (by rw [hphase]; exact Phase.noConfusion) with hbytes | hended
        · omega
        · rw [hphase] at hended
          cases hended
      split at hstep
      next dir rest hqueue =>
        cases hstep
        refine ⟨h.unmonitor.dequeue hqueue, h.monitor, fun _ => Or.inl ?_, ?_⟩
        · unfold State.unseen
          simp only [hphase]
          omega
        · intro hended
          exact h.ended hended
      next hqueue =>
        cases hstep
        refine ⟨h.unmonitor, h.monitor, fun _ => Or.inl ?_, fun hended => nomatch hended⟩
        show s.unmonitor.queue.length + s.shutdownFlag.toNat ≤ s.kernel.pipe
        rw [hqueue, List.length_nil]
        omega
    next hphase =>
      have hbytes : s.unmonitor.queue.length + s.shutdownFlag.toNat ≤ s.kernel.pipe := by
        rcases h.bytes (by rw [hphase]; exact Phase.noConfusion) with hbytes | hended
        · unfold State.unseen at hbytes
          simp only [hphase] at hbytes
          exact hbytes
        · rw [hphase] at hended
          cases hended
      split at hstep
      next dir rest hqueue =>
        cases hstep
        refine ⟨h.unmonitor, h.monitor.dequeue hqueue, fun _ => Or.inl ?_, ?_⟩
        · unfold State.unseen
          simp only [hphase]
          exact hbytes
        · intro hended
          exact h.ended hended
      next hqueue =>
        cases hstep
        refine ⟨h.unmonitor, h.monitor, fun _ => Or.inl ?_, fun hended => nomatch hended⟩
        show s.unmonitor.queue.length + s.monitor.queue.length + s.shutdownFlag.toNat ≤ s.kernel.pipe
        rw [hqueue, List.length_nil]
        exact hbytes
    next => cases hstep
  | nextEvent select =>
    rw [Inotify.step] at hstep
    split at hstep
    next hphase =>
      rcases hr : nextEvent order select s.buffer s.kernel with _ | _ | ⟨ret, b', kernel'⟩
      · rw [hr] at hstep
        cases hstep
      · rw [hr] at hstep
        cases hstep
        exact ⟨h.unmonitor, h.monitor, h.bytes, h.ended⟩
      · rw [hr] at hstep
        cases hstep
        exact ⟨h.unmonitor, h.monitor, fun hne => absurd rfl hne, fun hended => nomatch hended⟩
    next => cases hstep
  | caught =>
    rw [Inotify.step] at hstep
    split at hstep
    · cases hstep
      exact ⟨h.unmonitor, h.monitor, fun hne => absurd rfl hne, fun hended => nomatch hended⟩
    · cases hstep

/-- The thread is in `select`, and there is nothing for it. -/
structure Asleep (s : State α) : Prop where
  waiting : s.phase = .waiting
  given : s.buffer.firstByte = 0
  queue : s.kernel.queue = []
  pipe : s.kernel.pipe = 0

theorem Awake.idle (h : Awake s) (hs : Asleep s) :
    s.unmonitor.queue = [] ∧ s.monitor.queue = [] ∧ s.shutdownFlag = false := by
  have hwaiting := hs.waiting
  have hbytes : s.unmonitor.queue.length + s.monitor.queue.length + s.shutdownFlag.toNat ≤ 0 := by
    rcases h.bytes (by rw [hwaiting]; exact Phase.noConfusion) with hbytes | hended
    · unfold State.unseen at hbytes
      simp only [hwaiting] at hbytes
      rw [← hs.pipe]
      exact hbytes
    · rw [hwaiting] at hended
      cases hended
  refine ⟨List.eq_nil_of_length_eq_zero (by omega), List.eq_nil_of_length_eq_zero (by omega), ?_⟩
  exact Bool.toNat_eq_zero.mp (by omega)

/-- **The thread does not sleep while there is something to do**: all requests have been handled, all
    events have been given out, and nobody waits for the thread to end. -/
theorem asleep_done (order : ByteOrder) (es : List (Event α)) (s : State α)
    (h : run (step order) {} es = some s) (hs : Asleep s) :
    s.unmonitor.handled = s.unmonitor.made ∧ s.monitor.handled = s.monitor.made ∧
      s.delivered = s.kernel.arrived ∧ s.shutdownFlag = false := by
  have hawake : Awake s := run_inv (fun _ _ _ hs hstep => hs.step hstep) awake_start h
  have hstream : Streaming order s := run_inv (fun _ _ _ hs hstep => hs.step hstep)
    (streaming_start order) h
  obtain ⟨hunmonitor, hmonitor, hflag⟩ := hawake.idle hs
  refine ⟨?_, ?_, ?_, hflag⟩
  · have hall := hawake.unmonitor
    unfold Requests.InOrder at hall
    rw [hunmonitor, List.append_nil] at hall
    exact hall
  · have hall := hawake.monitor
    unfold Requests.InOrder at hall
    rw [hmonitor, List.append_nil] at hall
    exact hall
  · obtain ⟨pending, hpending, hall⟩ := hstream.events
    rcases hpending with ⟨-, rfl⟩ | ⟨hfirst, -⟩
    · rw [hs.queue, List.append_nil, List.append_nil] at hall
      exact hall
    · exact absurd hs.given hfirst

/-! ## Getting there -/

/-- All requests of the queue are handled. -/
def Requests.drained (r : Requests α) : Requests α :=
  { r with queue := [], handled := r.handled ++ r.queue }

/-- The thread gets from one state to the other, and nobody else does anything. -/
def Alone (order : ByteOrder) (s s' : State α) : Prop :=
  ∃ es, (∀ e ∈ es, Event.ofThread e) ∧ run (step order) s es = some s'

theorem Alone.refl (s : State α) : Alone order s s :=
  ⟨[], fun _ hmem => absurd hmem List.not_mem_nil, rfl⟩

theorem Alone.trans {s'' : State α} (h : Alone order s s') (h' : Alone order s' s'') :
    Alone order s s'' := by
  obtain ⟨es, hes, hrun⟩ := h
  obtain ⟨es', hes', hrun'⟩ := h'
  refine ⟨es ++ es', List.forall_mem_append.mpr ⟨hes, hes'⟩, ?_⟩
  rw [run_append, hrun]
  exact hrun'

theorem Alone.of_step (he : e.ofThread) (h : step order s e = some s') : Alone order s s' := by
  refine ⟨[e], List.forall_mem_singleton.mpr he, ?_⟩
  rw [run_cons, h]
  rfl

theorem alone_unmonitoring (hphase : s.phase = .unmonitoring) :
    Alone order s { s with phase := .monitoring, unmonitor := s.unmonitor.drained } := by
  obtain ⟨queue, hqueue⟩ : ∃ queue, s.unmonitor.queue = queue := ⟨_, rfl⟩
  induction queue generalizing s with
  | nil =>
    have hstep : step order s .dequeue =
        some { s with phase := .monitoring, unmonitor := s.unmonitor.drained } := by
      rw [Inotify.step]
      unfold Requests.drained
      simp only [hphase, hqueue, List.append_nil]
      rw [← hqueue]
    exact Alone.of_step (e := .dequeue) trivial hstep
  | cons dir rest ih =>
    have hstep : step order s .dequeue = some { s with unmonitor := { s.unmonitor with
        queue := rest, handled := s.unmonitor.handled ++ [dir] } } := by
      rw [Inotify.step]
      simp only [hphase, hqueue]
    refine (Alone.of_step (e := .dequeue) trivial hstep).trans ?_
    have hrest := @ih { s with unmonitor := { s.unmonitor with
      queue := rest, handled := s.unmonitor.handled ++ [dir] } } hphase rfl
    have hsame : (s.unmonitor.drained : Requests α) = Requests.drained { s.unmonitor with
        queue := rest, handled := s.unmonitor.handled ++ [dir] } := by
      unfold Requests.drained
      simp only [hqueue, List.append_assoc, List.singleton_append]
    rw [hsame]
    exact hrest

theorem alone_monitoring (hphase : s.phase = .monitoring) :
    Alone order s { s with phase := .waiting, monitor := s.monitor.drained } := by
  obtain ⟨queue, hqueue⟩ : ∃ queue, s.monitor.queue = queue := ⟨_, rfl⟩
  induction queue generalizing s with
  | nil =>
    have hstep : step order s .dequeue =
        some { s with phase := .waiting, monitor := s.monitor.drained } := by
      rw [Inotify.step]
      unfold Requests.drained
      simp only [hphase, hqueue, List.append_nil]
      rw [← hqueue]
    exact Alone.of_step (e := .dequeue) trivial hstep
  | cons dir rest ih =>
    have hstep : step order s .dequeue = some { s with monitor := { s.monitor with
        queue := rest, handled := s.monitor.handled ++ [dir] } } := by
      rw [Inotify.step]
      simp only [hphase, hqueue]
    refine (Alone.of_step (e := .dequeue) trivial hstep).trans ?_
    have hrest := @ih { s with monitor := { s.monitor with
      queue := rest, handled := s.monitor.handled ++ [dir] } } hphase rfl
    have hsame : (s.monitor.drained : Requests α) = Requests.drained { s.monitor with
        queue := rest, handled := s.monitor.handled ++ [dir] } := by
      unfold Requests.drained
      simp only [hqueue, List.append_assoc, List.singleton_append]
    rw [hsame]
    exact hrest

/-- From the top, both queues are emptied. -/
theorem alone_top (hphase : s.phase = .top) (hflag : s.shutdownFlag = false) :
    Alone order s { s with
      phase := .waiting, unmonitor := s.unmonitor.drained, monitor := s.monitor.drained } := by
  have hstep : step order s .enter = some { s with phase := .unmonitoring } := by
    rw [Inotify.step, if_pos hphase]
    simp only [hflag, Bool.false_eq_true, if_false]
  refine (Alone.of_step (e := .enter) trivial hstep).trans ?_
  refine (alone_unmonitoring (s := { s with phase := .unmonitoring }) rfl).trans ?_
  exact alone_monitoring (s := { s with phase := .monitoring, unmonitor := s.unmonitor.drained }) rfl

/-- A byte in the pipe ends the waiting. -/
theorem alone_waiting (hstream : Streaming order s) (hphase : s.phase = .waiting)
    (hpipe : 0 < s.kernel.pipe) :
    ∃ s', Alone order s s' ∧ s'.phase = .top ∧ s'.unmonitor = s.unmonitor ∧
      s'.monitor = s.monitor ∧ s'.shutdownFlag = s.shutdownFlag := by
  obtain ⟨pending, hpending, -⟩ := hstream.events
  have hstep : step order s (.nextEvent (.ready true none)) =
      s.returned order (nextEvent order (.ready true none) s.buffer s.kernel) := by
    rw [Inotify.step, if_pos hphase]
  have hgives : Gives order pending s.kernel
      (nextEvent order (.ready true none) s.buffer s.kernel) := nextEvent_spec hpending
  rcases hr : nextEvent order (.ready true none) s.buffer s.kernel with _ | _ | ⟨ret, b', kernel'⟩
  · -- with an event in the array `select` is not called, and without one it can read the byte
    exfalso
    have hwait : ∀ b : Buffer, b.wait order s.kernel (.ready true none) ≠ .never := by
      intro b
      rw [Buffer.wait, if_pos ⟨fun _ => hpipe, fun h => nomatch h⟩]
      exact Returned.noConfusion
    unfold nextEvent at hr
    simp only at hr
    split_ifs at hr
    · exact hwait _ hr
    · exact hwait _ hr
    · exact hwait _ hr
  · rw [hr] at hgives
    exact hgives.elim
  · rw [hr] at hstep
    exact ⟨_, Alone.of_step (e := .nextEvent _) trivial hstep, rfl, rfl, rfl, rfl⟩

/-- The thread gets to where all requests that have been made are handled. -/
def Handles (order : ByteOrder) (s : State α) : Prop :=
  ∃ s', Alone order s s' ∧ s'.unmonitor.handled = s.unmonitor.made ∧
    s'.monitor.handled = s.monitor.made

theorem Handles.after (h : Alone order s s') (hunmonitor : s'.unmonitor.made = s.unmonitor.made)
    (hmonitor : s'.monitor.made = s.monitor.made) (hs' : Handles order s') : Handles order s := by
  obtain ⟨s'', halone, hun, hmo⟩ := hs'
  exact ⟨s'', h.trans halone, hun.trans hunmonitor, hmo.trans hmonitor⟩

theorem handles_top (hawake : Awake s) (hphase : s.phase = .top) (hflag : s.shutdownFlag = false) :
    Handles order s :=
  ⟨_, alone_top hphase hflag, hawake.unmonitor, hawake.monitor⟩

/-- A thread that waits has been sent a byte for what is left in its queues. -/
theorem handles_waiting (hawake : Awake s) (hstream : Streaming order s)
    (hphase : s.phase = .waiting) (hflag : s.shutdownFlag = false) : Handles order s := by
  rcases Nat.eq_zero_or_pos s.kernel.pipe with hzero | hpos
  · have hbytes : s.unmonitor.queue.length + s.monitor.queue.length ≤ 0 := by
      rcases hawake.bytes (by rw [hphase]; exact Phase.noConfusion) with hbytes | hended
      · unfold State.unseen at hbytes
        simp only [hphase] at hbytes
        omega
      · rw [hphase] at hended
        cases hended
    have hun := hawake.unmonitor
    have hmo := hawake.monitor
    unfold Requests.InOrder at hun hmo
    have hun' : s.unmonitor.queue = [] := List.eq_nil_of_length_eq_zero (by omega)
    have hmo' : s.monitor.queue = [] := List.eq_nil_of_length_eq_zero (by omega)
    rw [hun', List.append_nil] at hun
    rw [hmo', List.append_nil] at hmo
    exact ⟨s, Alone.refl s, hun, hmo⟩
  · obtain ⟨s', halone, hphase', hun, hmo, hflag'⟩ := alone_waiting hstream hphase hpos
    obtain ⟨es, -, hrun⟩ := id halone
    have hawake' : Awake s' := run_inv (fun _ _ _ hs hstep => hs.step hstep) hawake hrun
    refine Handles.after halone (congrArg Requests.made hun) (congrArg Requests.made hmo) ?_
    exact handles_top hawake' hphase' (hflag'.trans hflag)

end

/-! ## A directory in which a file is written -/

/-- The bytes of a word, the last one first. -/
def littleBytes (w : UInt32) : List UInt8 :=
  [UInt8.ofNat w.toNat, UInt8.ofNat (w.toNat / 256), UInt8.ofNat (w.toNat / 65536),
    UInt8.ofNat (w.toNat / 16777216)]

def littleValue : List UInt8 → UInt32
  | [a, b, c, d] => UInt32.ofNat (a.toNat + 256 * b.toNat + 65536 * c.toNat + 16777216 * d.toNat)
  | _ => 0

theorem littleValue_bytes (w : UInt32) : littleValue (littleBytes w) = w := by
  have hlt := w.toNat_lt
  have hsum : w.toNat % 256 + 256 * (w.toNat / 256 % 256) + 65536 * (w.toNat / 65536 % 256) +
      16777216 * (w.toNat / 16777216 % 256) = w.toNat := by omega
  show UInt32.ofNat _ = w
  simp only [UInt8.toNat_ofNat']
  rw [hsum]
  exact UInt32.ofNat_toNat

def littleEndian : ByteOrder where
  bytes := littleBytes
  value := littleValue
  length_bytes _ := rfl
  value_bytes := littleValue_bytes

theorem four_lt : 4 < 2 ^ 32 := by decide

theorem zero_lt_word : 0 < 2 ^ 32 := by decide

/-- `IN_CLOSE_WRITE`, for the file `a` -/
def written : InotifyEvent := ⟨1, 8, 0, ['a'.toUInt8, 0, 0, 0], four_lt⟩

/-- `IN_DELETE_SELF`, which has no name -/
def deletedSelf : InotifyEvent := ⟨2, 1024, 0, [], zero_lt_word⟩

/-- The thread waits, is asked to monitor, and finds two events besides. -/
def session : List (Event Nat) :=
  [.enter, .dequeue, .dequeue, .monitor 7, .arrives written, .arrives deletedSelf,
    .nextEvent (.ready true (some (.events 2)))]

/-- One event has been given out, the other is in the array. -/
theorem delivered_session : ∃ s, run (step littleEndian) {} session = some s ∧
    s.faulted = false ∧ ∃ pending, s.buffer.Pending littleEndian pending ∧
      s.delivered ++ (pending ++ s.kernel.queue) = s.kernel.arrived :=
  ⟨_, rfl, delivered_all littleEndian session _ rfl⟩

/-- The request is handled, and the second event given out; then there is nothing left. -/
def afterwards : List (Event Nat) :=
  [.enter, .dequeue, .dequeue, .dequeue, .nextEvent .timeout, .enter, .dequeue, .dequeue]

theorem asleep_session : ∃ s, run (step littleEndian) {} (session ++ afterwards) = some s ∧ Asleep s ∧
    s.unmonitor.handled = s.unmonitor.made ∧ s.monitor.handled = s.monitor.made ∧
      s.delivered = s.kernel.arrived ∧ s.shutdownFlag = false :=
  ⟨_, rfl, ⟨rfl, rfl, rfl, rfl⟩,
    asleep_done littleEndian (session ++ afterwards) _ rfl ⟨rfl, rfl, rfl, rfl⟩⟩

end MediaTomb.Inotify
