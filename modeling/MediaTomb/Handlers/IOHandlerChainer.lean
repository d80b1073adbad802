/-
  Copying from one handler into another (`io_handler_chainer.cc`), the other being a
  `ProcessIOHandler` that is open for writing.

  The chainer is a MACHINE: its thread stands somewhere in `threadProc` (`ChainerPC`), and what
  happens next is an event: the flag of the shutdown goes up, the thread looks at it, the source
  hands out a chunk, select and `::write` have an outcome.  The source is a stream of bytes, `src`,
  and the chunks say how far it has been read.

  The writer speaks through one number.  0 means "nothing written, try again", and the chainer then
  writes the WHOLE chunk again.  But `write` also returns 0 when a timeout finds the process gone
  (or finds no process), whatever it has put into the fifo before.
-/
import MediaTomb.Handlers.ProcessRead
import MediaTomb.Lib.Machine

namespace MediaTomb

open Lib.Machine

/-! ## The machine -/

def iohcNormalShutdown : Int := 1
def iohcForcedShutdown : Int := 2
def iohcReadError : Int := 3
def iohcWriteError : Int := 4
def iohcException : Int := 5

/-- What `readFrom->read(buf, chunkSize)` does. -/
inductive SourceRead where
  | chunk (numRead : Nat)
  | endOfFile
  | error
  | exception

inductive ChainerEvent where
  /-- `kill()`: `threadShutdown = true` -/
  | shutdown
  /-- the thread looks at the flag and goes on -/
  | check
  | read (r : SourceRead)
  | write (o : WriteOutcome)
  /-- both handlers are closed, or one of them throws -/
  | close (throws : Bool)

/-- Where the thread is in `threadProc`. -/
inductive ChainerPC where
  /-- the head of the outer loop -/
  | loop
  /-- in `readFrom->read` -/
  | read
  /-- the head of the inner loop -/
  | inner (numRead : Nat) (numWritten : Int)
  /-- in `writeTo->write(buf, numRead)` -/
  | write (numRead : Nat) (st : WriteState)
  /-- behind the loops -/
  | finish
  | close
  | ended
  deriving DecidableEq

structure Chainer where
  pc : ChainerPC := .loop
  status : Int := 0
  stopLoop : Bool := false
  threadShutdown : Bool := false
  /-- how many bytes the source has handed out -/
  bytesRead : Nat := 0
  /-- how many it had handed out before the chunk in `buf` -/
  chunkStart : Nat := 0
  /-- what was put into the fifo -/
  written : Str := []
  deriving DecidableEq

/-- `int chunkSize`; the constructor refuses what is not positive. -/
abbrev ChunkSize := {n : Nat // 0 < n ∧ n < 2 ^ 31}

namespace Chainer

/-- A number came back from `write`. -/
def wrote (c : Chainer) (numRead : Nat) (numWritten : Int) : Chainer :=
  if numWritten ≠ 0 ∧ numWritten ≠ numRead then
    { c with status := iohcWriteError, stopLoop := true, pc := .inner numRead numWritten }
  else { c with pc := .inner numRead numWritten }

/-- `buf + offset`, as long as it is inside the chunk: `count` bytes of the source. -/
def chunkBytes (src : Nat → UInt8) (c : Chainer) (offset : Int) (count : Nat) : Str :=
  (List.range count).map fun i : Nat => src (c.chunkStart + offset + i).toNat

/-- The thread looks at `threadShutdownCheck()`. -/
def onCheck (c : Chainer) : Option Chainer :=
  match c.pc with
  | .loop => some { c with pc := if !c.threadShutdown && !c.stopLoop then .read else .finish }
  | .inner numRead numWritten =>
    some
      { c with
        pc := if !c.threadShutdown && numWritten = 0 && !c.stopLoop then
            .write numRead { length := numRead }
          else .loop }
  | .finish =>
    some
      { c with
        status := if c.threadShutdown then iohcForcedShutdown else c.status
        pc := .close }
  | _ => none

/-- `readFrom->read(buf, chunkSize)` returns. -/
def onRead (chunkSize : ChunkSize) (c : Chainer) (r : SourceRead) : Option Chainer :=
  match c.pc with
  | .read =>
    match r with
    | .chunk numRead =>
      if 0 < numRead ∧ numRead ≤ chunkSize then
        some
          { c with
            pc := .inner numRead 0
            bytesRead := c.bytesRead + numRead
            chunkStart := c.bytesRead }
      else none
    | .endOfFile => some { c with status := iohcNormalShutdown, stopLoop := true, pc := .loop }
    | .error => some { c with status := iohcReadError, stopLoop := true, pc := .loop }
    | .exception => some { c with status := iohcException, pc := .finish }
  | _ => none

/-- A round of `writeTo->write(buf, numRead)`. -/
def onWrite (h : ProcessIOHandler) (src : Nat → UInt8) (c : Chainer) (o : WriteOutcome) :
    Option Chainer :=
  match c.pc with
  | .write numRead st =>
    let c := { c with written := c.written ++ c.chunkBytes src st.offset (st.put o) }
    match h.writeStep st o with
    | .inl st => some { c with pc := .write numRead st }
    | .inr numWritten => some (c.wrote numRead numWritten)
  | _ => none

def onClose (c : Chainer) (throws : Bool) : Option Chainer :=
  match c.pc with
  | .close => some { c with status := if throws then iohcException else c.status, pc := .ended }
  | _ => none

def step (h : ProcessIOHandler) (src : Nat → UInt8) (chunkSize : ChunkSize) (c : Chainer) :
    ChainerEvent → Option Chainer
  | .shutdown => some { c with threadShutdown := true }
  | .check => c.onCheck
  | .read r => c.onRead chunkSize r
  | .write o => c.onWrite h src o
  | .close throws => c.onClose throws

/-! ## What is in the fifo -/

/-- The first `n` bytes of the source. -/
def sourceBytes (src : Nat → UInt8) (n : Nat) : Str := (List.range n).map src

theorem length_sourceBytes (src : Nat → UInt8) (n : Nat) : (sourceBytes src n).length = n := by
  unfold sourceBytes
  rw [List.length_map, List.length_range]

theorem sourceBytes_add (src : Nat → UInt8) (n m : Nat) :
    sourceBytes src (n + m) = sourceBytes src n ++ (List.range m).map fun i => src (n + i) := by
  unfold sourceBytes
  rw [List.range_add, List.map_append, List.map_map]
  rfl

theorem sourceBytes_prefix (src : Nat → UInt8) {n m : Nat} (h : n ≤ m) :
    sourceBytes src n <+: sourceBytes src m := by
  obtain ⟨k, rfl⟩ := Nat.exists_eq_add_of_le h
  rw [sourceBytes_add]
  exact List.prefix_append _ _

/-- Everything that was read has been written. -/
def CaughtUp (c : Chainer) : Prop := c.written.length = c.bytesRead

/-- What is known of the counters at each place of the program. -/
def AtPC (c : Chainer) : ChainerPC → Prop
  | .loop =>
    (c.stopLoop = false ∧ c.status ≠ iohcNormalShutdown ∧
        (c.threadShutdown = true ∨ c.CaughtUp)) ∨
      (c.stopLoop = true ∧ (c.status = iohcNormalShutdown → c.CaughtUp))
  | .read => c.stopLoop = false ∧ c.status ≠ iohcNormalShutdown ∧ c.CaughtUp
  | .inner numRead numWritten =>
    c.status ≠ iohcNormalShutdown ∧ c.bytesRead = c.chunkStart + numRead ∧ 0 < numRead ∧
      numRead < 2 ^ 31 ∧ c.chunkStart ≤ c.written.length ∧
      (c.stopLoop = true ∨ numWritten = 0 ∨ c.CaughtUp)
  | .write numRead st =>
    c.status ≠ iohcNormalShutdown ∧ c.stopLoop = false ∧ c.bytesRead = c.chunkStart + numRead ∧
      numRead < 2 ^ 31 ∧ 0 < st.length ∧
      ∃ done : Nat, st.numBytes = done ∧ st.offset = done ∧ done + st.length = numRead ∧
        c.chunkStart + done ≤ c.written.length
  | .finish | .close | .ended => c.status = iohcNormalShutdown → c.CaughtUp

structure Inv (src : Nat → UInt8) (c : Chainer) : Prop where
  front : c.written = sourceBytes src c.written.length
  within : c.written.length ≤ c.bytesRead
  place : c.AtPC c.pc

/-- **The condition**: bytes go into the fifo only where the fifo ends right before them; that is,
    where no earlier call for this chunk has put any there and returned 0. -/
def InPlace (c : Chainer) : ChainerEvent → Prop
  | .write o => ∀ numRead st, c.pc = .write numRead st → 0 < st.put o →
      (c.written.length : Int) = c.chunkStart + st.offset
  | _ => True

section

variable {h : ProcessIOHandler} {src : Nat → UInt8} {chunkSize : ChunkSize} {c c' : Chainer}

theorem inv_shutdown (hinv : Inv src c) : Inv src { c with threadShutdown := true } := by
  have hkeep : ∀ pc, c.AtPC pc → AtPC { c with threadShutdown := true } pc := by
    intro pc hplace
    rcases pc with _ | _ | ⟨numRead, numWritten⟩ | ⟨numRead, st⟩ | _ | _ | _
    · rcases hplace with ⟨hstop, hstatus, -⟩ | hstopped
      · exact Or.inl ⟨hstop, hstatus, Or.inl rfl⟩
      · exact Or.inr hstopped
    all_goals exact hplace
  exact ⟨hinv.front, hinv.within, hkeep c.pc hinv.place⟩

theorem inv_check (hinv : Inv src c) (hstep : c.onCheck = some c') :
    Inv src c' := by
  have hplace := hinv.place
  unfold onCheck at hstep
  split at hstep
  · -- the outer loop
    next hpc =>
    cases hstep
    rw [hpc] at hplace
    refine ⟨hinv.front, hinv.within, ?_⟩
    show AtPC _ (if _ then _ else _)
    split_ifs with hgo
    · simp only [Bool.and_eq_true, Bool.not_eq_true'] at hgo
      rcases hplace with ⟨hstop, hstatus, hshut | hall⟩ | ⟨hstop, -⟩
      · rw [hgo.1] at hshut
        cases hshut
      · exact ⟨hstop, hstatus, hall⟩
      · rw [hgo.2] at hstop
        cases hstop
    · intro hnormal
      rcases hplace with ⟨-, hstatus, -⟩ | ⟨-, hall⟩
      · exact absurd hnormal hstatus
      · exact hall hnormal
  · -- the inner loop
    next numRead numWritten hpc =>
    cases hstep
    rw [hpc] at hplace
    obtain ⟨hstatus, hread, hpos, hfits, hstart, hdone⟩ := hplace
    refine ⟨hinv.front, hinv.within, ?_⟩
    show AtPC _ (if _ then _ else _)
    split_ifs with hgo
    · simp only [Bool.and_eq_true, Bool.not_eq_true', decide_eq_true_eq] at hgo
      refine ⟨hstatus, hgo.2, hread, hfits, hpos, 0, rfl, rfl, Nat.zero_add _, hstart⟩
    · rcases hstop : c.stopLoop with _ | _
      · refine Or.inl ⟨rfl, hstatus, ?_⟩
        rw [hstop] at hdone
        rcases hdone with hfalse | hzero | hall
        · cases hfalse
        · left
          simpa [hzero, hstop] using hgo
        · exact Or.inr hall
      · exact Or.inr ⟨rfl, fun hnormal => absurd hnormal hstatus⟩
  · -- behind the loops
    next hpc =>
    cases hstep
    rw [hpc] at hplace
    refine ⟨hinv.front, hinv.within, ?_⟩
    show (if c.threadShutdown = true then iohcForcedShutdown else c.status) = _ → c.CaughtUp
    split_ifs
    · intro hforced
      exact absurd hforced (by decide)
    · exact hplace
  · cases hstep

theorem inv_read {r : SourceRead} (hinv : Inv src c)
    (hstep : c.onRead chunkSize r = some c') : Inv src c' := by
  have hplace := hinv.place
  unfold onRead at hstep
  split at hstep
  · next hpc =>
    rw [hpc] at hplace
    obtain ⟨hstop, hstatus, hall⟩ := hplace
    split at hstep
    · -- a chunk
      next numRead =>
      split_ifs at hstep with hsize
      cases hstep
      have hfits := chunkSize.property.2
      have hwithin := hinv.within
      refine ⟨hinv.front, ?_, hstatus, rfl, hsize.1, by omega, ?_, Or.inr (Or.inl rfl)⟩
      · show c.written.length ≤ c.bytesRead + numRead
        omega
      · show c.bytesRead ≤ c.written.length
        exact Nat.le_of_eq hall.symm
    · cases hstep
      exact ⟨hinv.front, hinv.within, Or.inr ⟨rfl, fun _ => hall⟩⟩
    · cases hstep
      exact ⟨hinv.front, hinv.within, Or.inr ⟨rfl, fun _ => hall⟩⟩
    · cases hstep
      exact ⟨hinv.front, hinv.within, fun _ => hall⟩
  · cases hstep

/-- **A round of `write`** that stands behind the first `done` bytes of a chunk: it moves on, it
    ends with the whole chunk, or it ends without having put anything (more) into the fifo. -/
theorem writeStep_cases {st : WriteState} {o : WriteOutcome} {done numRead : Nat}
    (hnum : st.numBytes = done) (hoff : st.offset = done) (htotal : done + st.length = numRead)
    (hfits : numRead < 2 ^ 31) (hleft : 0 < st.length) :
    (∃ st', h.writeStep st o = .inl st' ∧ st'.numBytes = (done + st.put o : Nat) ∧
        st'.offset = (done + st.put o : Nat) ∧ done + st.put o + st'.length = numRead ∧
        0 < st'.length) ∨
      (h.writeStep st o = .inr numRead ∧ 0 < st.put o ∧ done + st.put o = numRead) ∨
      ∃ ret, h.writeStep st o = .inr ret ∧ st.put o = 0 ∧ (ret = -1 ∨ ret = 0 ∨ ret = done) := by
  cases o with
  | interrupted => exact Or.inl ⟨st, rfl, hnum, hoff, htotal, hleft⟩
  | failed => exact Or.inr (Or.inr ⟨-1, rfl, rfl, Or.inl rfl⟩)
  | timeout ps =>
    rcases hret : h.timeoutReturn ps with _ | ret
    · refine Or.inl ⟨st, ?_, hnum, hoff, htotal, hleft⟩
      simp only [ProcessIOHandler.writeStep, hret]
    · refine Or.inr (Or.inr ⟨ret, ?_, rfl, ?_⟩)
      · simp only [ProcessIOHandler.writeStep, hret]
      rcases timeoutReturn_cases hret with hzero | hneg
      · exact Or.inr (Or.inl hzero)
      · exact Or.inl hneg
  | writable count ps =>
    have hput : st.put (.writable count ps) = min count st.length := rfl
    have hsum : toCInt (st.numBytes + (min count st.length : Nat)) =
        (done + min count st.length : Nat) := by
      rw [hnum, ← Nat.cast_add]
      exact toCInt_of_lt (by omega)
    unfold ProcessIOHandler.writeStep
    simp only [hput, hsum]
    split_ifs with hnone hfull
    · refine Or.inr (Or.inr ⟨_, rfl, hnone, Or.inr (Or.inr ?_)⟩)
      rw [hnum]
      exact finish_of_nonneg (by omega)
    · have hall : done + min count st.length = numRead := by omega
      refine Or.inr (Or.inl ⟨?_, by omega, hall⟩)
      rw [hall, finish_of_nonneg (by omega)]
    · exact Or.inl ⟨_, rfl, rfl, rfl, by show _ + (st.length - _) = _; omega,
        by show 0 < st.length - _; omega⟩

/-- Bytes put in place leave a first part of the source in the fifo. -/
theorem written_front (hinv : Inv src c) {done count : Nat}
    (hin : 0 < count → c.written.length = c.chunkStart + done) :
    c.written ++ c.chunkBytes src done count =
      sourceBytes src (c.written.length + count) := by
  rcases Nat.eq_zero_or_pos count with rfl | hpos
  · have hnone : c.chunkBytes src done 0 = [] := rfl
    rw [hnone, List.append_nil, Nat.add_zero]
    exact hinv.front
  · rw [sourceBytes_add, ← hinv.front]
    congr 1
    unfold chunkBytes
    refine List.map_congr_left fun i _ => ?_
    have hidx : ((c.chunkStart : Int) + done + i).toNat = c.written.length + i := by
      have hlen := hin hpos
      omega
    rw [hidx]

theorem inv_write {o : WriteOutcome} (hinv : Inv src c) (hin : c.InPlace (.write o))
    (hstep : c.onWrite h src o = some c') : Inv src c' := by
  have hplace := hinv.place
  unfold onWrite at hstep
  split at hstep
  · next numRead st hpc =>
    rw [hpc] at hplace
    obtain ⟨hstatus, hstop, hread, hfits, hleft, done, hnum, hoff, htotal, hstart⟩ := hplace
    have hlen : 0 < st.put o → c.written.length = c.chunkStart + done := by
      intro hput
      have hpos := hin numRead st hpc hput
      omega
    have hwritten := written_front hinv hlen
    have hlength : (c.written ++ c.chunkBytes src st.offset (st.put o)).length =
        c.written.length + st.put o := by
      rw [hoff, hwritten, length_sourceBytes]
    have hfront : c.written ++ c.chunkBytes src st.offset (st.put o) =
        sourceBytes src (c.written ++ c.chunkBytes src st.offset (st.put o)).length := by
      rw [hlength, hoff]
      exact hwritten
    have hwithin := hinv.within
    rcases writeStep_cases (h := h) (o := o) hnum hoff htotal hfits hleft with
      ⟨st', hst, hnum', hoff', htotal', hleft'⟩ | ⟨hst, hput, hall⟩ | ⟨ret, hst, hput, hret⟩
    · rw [hst] at hstep
      cases hstep
      refine ⟨hfront, ?_, hstatus, hstop, hread, hfits, hleft', _, hnum', hoff', htotal', ?_⟩
      · show (c.written ++ _).length ≤ c.bytesRead
        rcases Nat.eq_zero_or_pos (st.put o) with hzero | hpos
        · omega
        · have hat := hlen hpos
          omega
      · show c.chunkStart + (done + st.put o) ≤ (c.written ++ _).length
        omega
    · -- the whole chunk
      rw [hst] at hstep
      cases hstep
      have hat := hlen hput
      have hcaught : (c.written ++ c.chunkBytes src st.offset (st.put o)).length = c.bytesRead := by
        omega
      unfold wrote
      rw [if_neg (by simp)]
      refine ⟨hfront, Nat.le_of_eq hcaught, hstatus, hread, by omega, hfits, ?_,
        Or.inr (Or.inr hcaught)⟩
      show c.chunkStart ≤ (c.written ++ _).length
      omega
    · rw [hst] at hstep
      cases hstep
      have hsame : (c.written ++ c.chunkBytes src st.offset (st.put o)).length =
          c.written.length := by
        omega
      unfold wrote
      split_ifs with herr
      · have herror : iohcWriteError ≠ iohcNormalShutdown := by decide
        refine ⟨hfront, ?_, herror, hread, by omega, hfits, ?_, Or.inl rfl⟩
        · show (c.written ++ _).length ≤ c.bytesRead
          omega
        · show c.chunkStart ≤ (c.written ++ _).length
          omega
      · have hzero : ret = 0 := by omega
        refine ⟨hfront, ?_, hstatus, hread, by omega, hfits, ?_, Or.inr (Or.inl hzero)⟩
        · show (c.written ++ _).length ≤ c.bytesRead
          omega
        · show c.chunkStart ≤ (c.written ++ _).length
          omega
  · cases hstep

theorem inv_close {throws : Bool} (hinv : Inv src c) (hstep : c.onClose throws = some c') :
    Inv src c' := by
  have hplace := hinv.place
  unfold onClose at hstep
  split at hstep
  · next hpc =>
    rw [hpc] at hplace
    cases hstep
    refine ⟨hinv.front, hinv.within, ?_⟩
    show (if throws = true then iohcException else c.status) = iohcNormalShutdown → c.CaughtUp
    split_ifs
    · intro hexc
      exact absurd hexc (by decide)
    · exact hplace
  · cases hstep

theorem inv_step {e : ChainerEvent} (hinv : Inv src c) (hin : c.InPlace e)
    (hstep : c.step h src chunkSize e = some c') : Inv src c' := by
  cases e with
  | shutdown =>
    cases hstep
    exact inv_shutdown hinv
  | check => exact inv_check hinv hstep
  | read r => exact inv_read hinv hstep
  | write o => exact inv_write hinv hin hstep
  | close throws => exact inv_close hinv hstep

end

/-- What the fifo holds is a first part of what was read; all of it after a normal shutdown. -/
def Faithful (src : Nat → UInt8) (c : Chainer) : Prop :=
  c.written <+: sourceBytes src c.bytesRead ∧
    (c.pc = .ended → c.status = iohcNormalShutdown → c.written = sourceBytes src c.bytesRead)

theorem Inv.faithful {src : Nat → UInt8} {c : Chainer} (hinv : Inv src c) : Faithful src c := by
  constructor
  · rw [hinv.front]
    exact sourceBytes_prefix src hinv.within
  · intro hpc hnormal
    have hplace := hinv.place
    rw [hpc] at hplace
    have hcaught : c.CaughtUp := hplace hnormal
    rw [hinv.front, hcaught]

end Chainer

/-- **The chainer copies faithfully** in every run that never puts a byte of a chunk into the fifo
    behind bytes of the same chunk that a call with result 0 has left there. -/
theorem chainer_faithful (h : ProcessIOHandler) (src : Nat → UInt8) (chunkSize : ChunkSize)
    (events : List ChainerEvent)
    (hin : Along Chainer.InPlace (Chainer.step h src chunkSize) {} events) :
    Always (Chainer.Faithful src) (Chainer.step h src chunkSize) {} events := by
  have hstart : Chainer.Inv src {} := by
    refine ⟨rfl, Nat.le_refl _, Or.inl ⟨rfl, by decide, Or.inr rfl⟩⟩
  exact always_of_inv_of (fun _ _ _ => Chainer.inv_step) (fun _ => Chainer.Inv.faithful) hstart hin

/-! ### A timeout after half a chunk -/

/-- A writer without a process, as `TranscodeExternalHandler` makes it. -/
def noProcess : ProcessIOHandler := { mainProc := none }

/-- The source `ab`. -/
def abSource (i : Nat) : UInt8 := if i = 0 then 'a'.toUInt8 else 'b'.toUInt8

def pairs : ChunkSize := ⟨2, by decide⟩

theorem chainer_faithful_copy :
    Always (Chainer.Faithful abSource) (Chainer.step noProcess abSource pairs) {}
      [.check, .read (.chunk 2), .check, .write (.writable 2 running)] := by
  refine chainer_faithful noProcess abSource pairs _ ?_
  refine along_cons trivial rfl (along_cons trivial rfl (along_cons trivial rfl ?_))
  refine ⟨fun numRead st hpc _ => ?_, fun _ _ => trivial⟩
  cases hpc
  rfl

/-- One byte of the chunk is written, a timeout makes the call return 0, and the whole chunk is
    written again. -/
def repeatedChunk : List ChainerEvent :=
  [.check, .read (.chunk 2), .check, .write (.writable 1 running), .write (.timeout running),
   .check, .write (.writable 2 running), .check, .check, .read .endOfFile, .check, .check,
   .close false]

/-- The chainer ends normally, having read `ab` and written `aab`. -/
theorem chainer_repeats : ¬ Always (Chainer.Faithful abSource)
    (Chainer.step noProcess abSource pairs) {} repeatedChunk := by
  intro h
  have hrun : run (Chainer.step noProcess abSource pairs) {} repeatedChunk =
      some
        { pc := .ended
          status := iohcNormalShutdown
          stopLoop := true
          bytesRead := 2
          written := str "aab" } := by
    decide
  have hall := (h.last hrun).2 rfl rfl
  revert hall
  decide

end MediaTomb
