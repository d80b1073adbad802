/-
  What `ProcessIOHandler::read` says about the bytes it took from the fifo.

  The bytes a call has taken stand at the front of the caller's buffer, and the counter says how
  many they are; as long as the counter, an `int`, has not wrapped.  So a call that leaves the loop
  at the bottom (the buffer is full, or the fifo is at its end) accounts for all of them.

  A call that a TIMEOUT ends accounts for none: it returns 0, -1 or CHECK_SOCKET, whatever the
  rounds before have put into the buffer.
-/
import MediaTomb.Handlers.ProcessIOHandler

namespace MediaTomb

/-! ## The buffer -/

theorem Buffer.length_first (buf : Buffer) (r : Int) : (buf.first r).length = r.toNat := by
  unfold Buffer.first
  rw [List.length_map, List.length_range]

theorem Buffer.first_of_nonpos (buf : Buffer) {r : Int} (h : r ≤ 0) : buf.first r = [] := by
  have hzero : r.toNat = 0 := by omega
  unfold Buffer.first
  rw [hzero]
  rfl

theorem Buffer.getElem?_first (buf : Buffer) {r : Int} {i : Nat} (h : i < r.toNat) :
    (buf.first r)[i]? = some (buf i) := by
  unfold Buffer.first
  rw [List.getElem?_map, List.getElem?_range h]
  rfl

/-- Bytes stored behind the first `n` come behind them. -/
theorem Buffer.first_store (buf : Buffer) (n : Nat) (bytes : Str) :
    (buf.store n bytes).first (n + bytes.length : Nat) = buf.first n ++ bytes := by
  have hn : (buf.first n).length = n := Buffer.length_first buf n
  refine List.ext_getElem? fun i => ?_
  rcases Nat.lt_or_ge i (n + bytes.length) with hi | hi
  · rw [Buffer.getElem?_first _ (by omega)]
    unfold Buffer.store
    by_cases hin : i < n
    · rw [if_neg (by omega), List.getElem?_append_left (by omega)]
      rw [Buffer.getElem?_first _ (by omega)]
    · have hidx : ((i : Int) - n).toNat = i - n := by omega
      rw [if_pos (by omega), hidx, List.getElem?_append_right (by omega), hn]
      rw [List.getD_eq_getElem?_getD, List.getElem?_eq_getElem (by omega), Option.getD_some]
  · rw [List.getElem?_eq_none (by rw [Buffer.length_first]; omega)]
    rw [List.getElem?_eq_none (by rw [List.length_append]; omega)]

/-! ## The loop -/

/-- Between two rounds: `length` bytes were asked for, and those that were taken are where the
    counter says, as long as it can say. -/
structure ReadInv (length : Nat) (st : ReadState) : Prop where
  left : 0 < st.length
  total : st.taken.length + st.length = length
  counter : st.numBytes = toCInt st.taken.length
  pointer : st.offset = st.numBytes
  front : st.taken.length < 2 ^ 31 → st.buf.first st.taken.length = st.taken

/-- How many bytes the outcomes offer. -/
def offered : List ReadOutcome → Nat
  | [] => 0
  | .readable data _ :: rest => data.length + offered rest
  | _ :: rest => offered rest

/-- The last outcome is a timeout. -/
def EndsInTimeout (outcomes : List ReadOutcome) : Prop :=
  ∃ ps, outcomes.getLast? = some (.timeout ps)

/-- How a call that met `outcomes` ends. -/
inductive ReadEnd (length before : Nat) (outcomes : List ReadOutcome) (r : ReadResult) : Prop where
  | timeout (hlast : EndsInTimeout outcomes) (hret : r.ret ≤ 0)
      (htaken : r.taken.length = min length (before + offered outcomes))
  | failed (hret : r.ret = -1)
  | finished (hlast : ¬ EndsInTimeout outcomes)
      (htaken : r.taken.length = min length (before + offered outcomes))
      (hshort : r.taken.length < 2 ^ 31 → r.buf.first r.ret = r.taken)
      (hlong : 2 ^ 31 ≤ r.taken.length → r.ret < r.taken.length)

section

variable {h : ProcessIOHandler} {length : Nat} {st : ReadState} {ps : Processes}

theorem timeoutReturn_cases {ret : Int} (hret : h.timeoutReturn ps = some ret) :
    ret = 0 ∨ ret = -1 := by
  unfold ProcessIOHandler.timeoutReturn at hret
  split at hret
  · cases hret
    exact Or.inl rfl
  · split_ifs at hret
    all_goals
      cases hret
      decide

/-- A counter of which nothing is lost is returned as it is. -/
theorem finish_of_nonneg {n : Int} (hn : 0 ≤ n) : h.finish ps n = n := by
  unfold ProcessIOHandler.finish
  rw [if_neg (by omega)]

theorem finish_le {n : Int} (hn : n < 0) : h.finish ps n ≤ 0 := by
  unfold ProcessIOHandler.finish
  rw [if_pos hn]
  split
  · exact Int.le_refl 0
  · split_ifs <;> decide

/-- Leaving the loop at the bottom. -/
theorem finish_short {buf : Buffer} {taken : Str}
    (hfront : taken.length < 2 ^ 31 → buf.first taken.length = taken)
    (hlt : taken.length < 2 ^ 31) : buf.first (h.finish ps (toCInt taken.length)) = taken := by
  rw [toCInt_of_lt hlt, finish_of_nonneg (by omega)]
  exact hfront hlt

theorem finish_long {n : Nat} (hge : 2 ^ 31 ≤ n) : h.finish ps (toCInt n) < n := by
  have hlt := toCInt_lt hge
  rcases Int.lt_or_le (toCInt n) 0 with hneg | hpos
  · have hle : h.finish ps (toCInt n) ≤ 0 := finish_le hneg
    omega
  · rw [finish_of_nonneg hpos]
    exact hlt

/-- The bytes of one round come behind the others. -/
theorem ReadInv.store_front (hinv : ReadInv length st) (bytes : Str)
    (hlt : (st.taken ++ bytes).length < 2 ^ 31) :
    (st.buf.store st.offset bytes).first (st.taken ++ bytes).length = st.taken ++ bytes := by
  rw [List.length_append] at hlt ⊢
  have hoffset : st.offset = st.taken.length := by
    rw [hinv.pointer, hinv.counter]
    exact toCInt_of_lt (by omega)
  rw [hoffset, Buffer.first_store, hinv.front (by omega)]

theorem ReadInv.counter_next (hinv : ReadInv length st) (bytes : Str) :
    toCInt (st.numBytes + bytes.length) = toCInt (st.taken ++ bytes).length := by
  rw [hinv.counter, toCInt_add, List.length_append]
  push_cast
  rfl

/-- The state after bytes have come in and more are wanted. -/
theorem ReadInv.next (hinv : ReadInv length st) {bytes : Str} (hlt : bytes.length < st.length) :
    ReadInv length
      { st with
        timeoutCount := 0
        buf := st.buf.store st.offset bytes
        taken := st.taken ++ bytes
        numBytes := toCInt (st.numBytes + bytes.length)
        length := st.length - bytes.length
        offset := toCInt (st.numBytes + bytes.length) } := by
  have htotal := hinv.total
  refine ⟨?_, ?_, ?_, rfl, fun hfits => hinv.store_front bytes hfits⟩
  · show 0 < st.length - bytes.length
    omega
  · show (st.taken ++ bytes).length + (st.length - bytes.length) = length
    rw [List.length_append]
    omega
  · exact hinv.counter_next bytes

/-- A round that does not end the call is a round of the rest of it. -/
theorem ReadEnd.cons {o : ReadOutcome} {rest : List ReadOutcome} {r : ReadResult}
    {before before' : Nat} (hend : ReadEnd length before' rest r) (hne : rest ≠ [])
    (hbytes : before' + offered rest = before + offered (o :: rest)) :
    ReadEnd length before (o :: rest) r := by
  have hlast : EndsInTimeout (o :: rest) ↔ EndsInTimeout rest := by
    unfold EndsInTimeout
    rw [List.getLast?_cons_of_ne_nil hne]
  rcases hend with ⟨hto, hret, htaken⟩ | hret | ⟨hto, htaken, hshort, hlong⟩
  · exact .timeout (hlast.mpr hto) hret (hbytes ▸ htaken)
  · exact .failed hret
  · exact .finished (fun hin => hto (hlast.mp hin)) (hbytes ▸ htaken) hshort hlong

/-- **A whole call.**  By induction on the outcomes, with `ReadInv` between the rounds. -/
theorem readLoop_end {outcomes : List ReadOutcome} {r : ReadResult} (hinv : ReadInv length st)
    (hrun : h.readLoop st outcomes = some (r, [])) :
    ReadEnd length st.taken.length outcomes r := by
  induction outcomes generalizing st with
  | nil => cases hrun
  | cons o rest ih =>
    have hmore : ∀ {st' : ReadState}, h.readLoop st' rest = some (r, []) → rest ≠ [] := by
      rintro st' hrun' rfl
      cases hrun'
    have htotal := hinv.total
    have hleft := hinv.left
    rw [ProcessIOHandler.readLoop] at hrun
    cases o with
    | interrupted => exact (ih hinv hrun).cons (hmore hrun) rfl
    | failed =>
      cases hrun
      exact .failed rfl
    | timeout ps =>
      have hends : EndsInTimeout [.timeout ps] := ⟨ps, rfl⟩
      have htaken : st.taken.length = min length (st.taken.length + offered [.timeout ps]) := by
        show _ = min length (st.taken.length + 0)
        omega
      simp only [ProcessIOHandler.readStep] at hrun
      rcases hret : h.timeoutReturn ps with _ | ret
      · simp only [hret] at hrun
        split_ifs at hrun with hcount
        · cases hrun
          have hneg : checkSocket ≤ 0 := by decide
          exact .timeout hends hneg htaken
        · have hinv' : ReadInv length { st with timeoutCount := st.timeoutCount + 1 } :=
            ⟨hinv.left, hinv.total, hinv.counter, hinv.pointer, hinv.front⟩
          exact (ih hinv' hrun).cons (hmore hrun) rfl
      · simp only [hret] at hrun
        cases hrun
        have hle : ret ≤ 0 := by
          rcases timeoutReturn_cases hret with hzero | hneg <;> omega
        exact .timeout hends hle htaken
    | readable data ps =>
      have hnot : ¬ EndsInTimeout [.readable data ps] := by
        rintro ⟨ps', hlast⟩
        cases hlast
      have hlen : (data.take st.length).length = min st.length data.length :=
        List.length_take
      simp only [ProcessIOHandler.readStep] at hrun
      split_ifs at hrun with hempty hfull
      · -- the end of the file
        cases hrun
        rw [hempty, List.length_nil] at hlen
        refine .finished hnot ?_ (fun hlt => ?_) fun hge => ?_
        · show st.taken.length = min length (st.taken.length + (data.length + 0))
          omega
        · show st.buf.first (h.finish ps st.numBytes) = st.taken
          rw [hinv.counter]
          exact finish_short hinv.front hlt
        · show h.finish ps st.numBytes < st.taken.length
          rw [hinv.counter]
          exact finish_long hge
      · -- the buffer is full
        cases hrun
        have hall : (st.taken ++ data.take st.length).length = length := by
          rw [List.length_append]
          omega
        refine .finished hnot ?_ (fun hlt => ?_) fun hge => ?_
        · show (st.taken ++ data.take st.length).length =
            min length (st.taken.length + (data.length + 0))
          omega
        · show (st.buf.store st.offset (data.take st.length)).first
            (h.finish ps (toCInt (st.numBytes + (data.take st.length).length))) = _
          rw [hinv.counter_next]
          exact finish_short (fun hfits => hinv.store_front _ hfits) hlt
        · show h.finish ps (toCInt (st.numBytes + (data.take st.length).length)) < _
          rw [hinv.counter_next]
          exact finish_long hge
      · -- more is wanted
        have hlt : (data.take st.length).length < st.length := by omega
        refine (ih (hinv.next hlt) hrun).cons (hmore hrun) ?_
        show (st.taken ++ data.take st.length).length + offered rest =
          st.taken.length + (data.length + offered rest)
        rw [List.length_append]
        omega

end

/-! ## Calls one after the other -/

/-- A call to `read` and the outcomes it met. -/
structure ReadCall (h : ProcessIOHandler) where
  buf : Buffer
  length : Nat
  length_pos : 1 ≤ length
  outcomes : List ReadOutcome
  result : ReadResult
  returns : h.read buf length outcomes = some (result, [])

namespace ReadCall

variable {h : ProcessIOHandler}

/-- The first `r` bytes of the buffer, where the call returned `r > 0`. -/
def received (c : ReadCall h) : Str := c.result.buf.first c.result.ret

/-- A timeout ends the call only where no bytes have come before, and what it takes can be counted
    in an `int`. -/
def Clean (c : ReadCall h) : Prop :=
  (EndsInTimeout c.outcomes → offered c.outcomes = 0) ∧
    min c.length (offered c.outcomes) < 2 ^ 31

theorem ends (c : ReadCall h) : ReadEnd c.length 0 c.outcomes c.result := by
  have hinv : ReadInv c.length { buf := c.buf, length := c.length } :=
    ⟨c.length_pos, Nat.zero_add _, (toCInt_of_lt (n := 0) (by decide)).symm, rfl, fun _ => rfl⟩
  exact readLoop_end hinv c.returns

/-- No call claims more than it took. -/
theorem received_length_le (c : ReadCall h) : c.received.length ≤ c.result.taken.length := by
  have hlen := Buffer.length_first c.result.buf c.result.ret
  unfold received
  rcases c.ends with ⟨-, hret, -⟩ | hret | ⟨-, -, hshort, hlong⟩
  · omega
  · omega
  · rcases Nat.lt_or_ge c.result.taken.length (2 ^ 31) with hlt | hge
    · rw [hshort hlt]
    · have hless := hlong hge
      omega

/-- **One call accounts for its bytes** exactly when it is clean. -/
theorem received_eq_iff (c : ReadCall h) (hret : c.result.ret ≠ -1) :
    c.received = c.result.taken ↔ c.Clean := by
  have hlen := Buffer.length_first c.result.buf c.result.ret
  have hpos := c.length_pos
  unfold received Clean
  rcases c.ends with ⟨hlast, hneg, htaken⟩ | hfail | ⟨hlast, htaken, hshort, hlong⟩
  · rw [Nat.zero_add] at htaken
    rw [Buffer.first_of_nonpos _ hneg]
    constructor
    · intro hnil
      rw [← hnil, List.length_nil] at htaken
      exact ⟨fun _ => by omega, by omega⟩
    · rintro ⟨hnone, -⟩
      rw [hnone hlast, Nat.min_zero] at htaken
      exact (List.eq_nil_of_length_eq_zero htaken).symm
  · exact absurd hfail hret
  · rw [Nat.zero_add] at htaken
    constructor
    · intro heq
      refine ⟨fun hin => absurd hin hlast, ?_⟩
      rcases Nat.lt_or_ge c.result.taken.length (2 ^ 31) with hlt | hge
      · omega
      · have hless := hlong hge
        rw [heq] at hlen
        omega
    · rintro ⟨-, hfits⟩
      exact hshort (by omega)

end ReadCall

/-- A call uses up a first part of the outcomes. -/
theorem readLoop_uses {h : ProcessIOHandler} {st : ReadState} {outcomes rest : List ReadOutcome}
    {r : ReadResult} (hrun : h.readLoop st outcomes = some (r, rest)) :
    ∃ used, outcomes = used ++ rest ∧ h.readLoop st used = some (r, []) := by
  induction outcomes generalizing st with
  | nil => cases hrun
  | cons o outcomes ih =>
    rw [ProcessIOHandler.readLoop] at hrun
    rcases hstep : h.readStep st o with st' | r'
    · rw [hstep] at hrun
      obtain ⟨used, rfl, hused⟩ := ih hrun
      refine ⟨o :: used, rfl, ?_⟩
      rw [ProcessIOHandler.readLoop, hstep]
      exact hused
    · rw [hstep] at hrun
      cases hrun
      refine ⟨[o], rfl, ?_⟩
      rw [ProcessIOHandler.readLoop, hstep]

/-- Calls to `read` one after the other, on one sequence of outcomes. -/
def ProcessIOHandler.reads (h : ProcessIOHandler) :
    List (Buffer × Nat) → List ReadOutcome → Option (List ReadResult)
  | [], _ => some []
  | (buf, length) :: requests, outcomes =>
    (h.read buf length outcomes).bind fun (r, rest) => (h.reads requests rest).map (r :: ·)

/-- **Every sequence of calls** is a list of `ReadCall`s. -/
theorem reads_calls {h : ProcessIOHandler} {requests : List (Buffer × Nat)}
    {outcomes : List ReadOutcome} {results : List ReadResult}
    (hpos : ∀ q ∈ requests, 1 ≤ q.2) (hrun : h.reads requests outcomes = some results) :
    ∃ calls : List (ReadCall h), calls.map (fun c => (c.buf, c.length)) = requests ∧
      calls.map ReadCall.result = results ∧
      calls.flatMap ReadCall.outcomes <+: outcomes := by
  induction requests generalizing outcomes results with
  | nil =>
    cases hrun
    exact ⟨[], rfl, rfl, List.nil_prefix⟩
  | cons q requests ih =>
    obtain ⟨⟨r, rest⟩, hread, hmore⟩ := Option.bind_eq_some_iff.mp hrun
    obtain ⟨results', hrest, rfl⟩ := Option.map_eq_some_iff.mp hmore
    obtain ⟨used, rfl, hused⟩ := readLoop_uses hread
    obtain ⟨calls, hreqs, hres, tail, htail⟩ :=
      ih (fun q' hq' => hpos q' (List.mem_cons_of_mem q hq')) hrest
    refine ⟨⟨q.1, q.2, hpos q List.mem_cons_self, used, r, hused⟩ :: calls, ?_, ?_, tail, ?_⟩
    · rw [List.map_cons, hreqs]
    · rw [List.map_cons, hres]
    · rw [List.flatMap_cons, List.append_assoc, htail]

/-- Lists put together from pieces of which none is longer than its counterpart are equal only if
    the pieces are. -/
theorem flatMap_eq_iff {α β : Type*} {f g : α → List β} {l : List α}
    (hle : ∀ a ∈ l, (f a).length ≤ (g a).length) :
    l.flatMap f = l.flatMap g ↔ ∀ a ∈ l, f a = g a := by
  have hshort : ∀ m : List α, (∀ a ∈ m, (f a).length ≤ (g a).length) →
      (m.flatMap f).length ≤ (m.flatMap g).length := by
    intro m hm
    rw [List.length_flatMap, List.length_flatMap]
    exact List.sum_le_sum hm
  constructor
  · intro heq
    induction l with
    | nil => exact fun a ha => (nomatch ha)
    | cons b l ih =>
      rw [List.flatMap_cons, List.flatMap_cons] at heq
      have hlen := congrArg List.length heq
      rw [List.length_append, List.length_append] at hlen
      have hb := hle b List.mem_cons_self
      have hl := hshort l fun a ha => hle a (List.mem_cons_of_mem b ha)
      obtain ⟨hhead, htail⟩ := List.append_inj heq (by omega)
      intro a ha
      rcases List.mem_cons.mp ha with rfl | ha
      · exact hhead
      · exact ih (fun a ha => hle a (List.mem_cons_of_mem b ha)) htail a ha
  · intro hall
    exact List.flatMap_congr hall

/-- **Exactly when all bytes are accounted for.**  Over calls that return (and none of them -1): the
    bytes the callers were told of are the bytes taken from the fifo, and a call that returned 0 or
    CHECK_SOCKET took none, if and only if every call is clean. -/
theorem read_accounts_iff (h : ProcessIOHandler) (calls : List (ReadCall h))
    (hret : ∀ c ∈ calls, c.result.ret ≠ -1) :
    (calls.flatMap ReadCall.received = calls.flatMap (fun c => c.result.taken) ∧
        ∀ c ∈ calls, c.result.ret = 0 ∨ c.result.ret = checkSocket → c.result.taken = []) ↔
      ∀ c ∈ calls, c.Clean := by
  have hpieces := flatMap_eq_iff (l := calls) fun c _ => c.received_length_le
  rw [hpieces]
  constructor
  · rintro ⟨hall, -⟩ c hc
    exact (c.received_eq_iff (hret c hc)).mp (hall c hc)
  · intro hclean
    have hall : ∀ c ∈ calls, c.received = c.result.taken := fun c hc =>
      (c.received_eq_iff (hret c hc)).mpr (hclean c hc)
    refine ⟨hall, fun c hc hzero => ?_⟩
    have hle : c.result.ret ≤ 0 := by
      rcases hzero with hzero | hzero
      · omega
      · rw [hzero]
        decide
    rw [← hall c hc]
    exact Buffer.first_of_nonpos _ hle

/-! ### A process that dies between two reads -/

/-- A handler with a main process and nothing else. -/
def oneProcess : ProcessIOHandler := { mainProc := some 0 }

def running : Processes := { isAlive := fun _ => true, getStatus := fun _ => 0 }

def exited : Processes := { isAlive := fun _ => false, getStatus := fun _ => exitSuccess }

/-- The state after the first round in both calls below. -/
theorem readStep_ab : oneProcess.readStep { buf := fun _ => 0, length := 4 }
    (.readable (str "ab") running) =
      .inl { buf := Buffer.store (fun _ => 0) 0 (str "ab"), length := 2, numBytes := 2, offset := 2,
             taken := str "ab" } := by
  have htwo : toCInt 2 = 2 := toCInt_of_lt (n := 2) (by decide)
  simp [ProcessIOHandler.readStep, htwo, str]

/-- Four bytes are asked for, two come, and the process exits. -/
def cutOff : ReadCall oneProcess where
  buf := fun _ => 0
  length := 4
  length_pos := by decide
  outcomes := [.readable (str "ab") running, .timeout exited]
  result := { ret := 0, buf := Buffer.store (fun _ => 0) 0 (str "ab"), taken := str "ab" }
  returns := by
    rw [ProcessIOHandler.read, ProcessIOHandler.readLoop, readStep_ab]
    rfl

/-- Four bytes are asked for, two come, and then the end of the file. -/
def atEnd : ReadCall oneProcess where
  buf := fun _ => 0
  length := 4
  length_pos := by decide
  outcomes := [.readable (str "ab") running, .readable [] running]
  result := { ret := 2, buf := Buffer.store (fun _ => 0) 0 (str "ab"), taken := str "ab" }
  returns := by
    rw [ProcessIOHandler.read, ProcessIOHandler.readLoop, readStep_ab]
    rfl

theorem read_accounts_iff_atEnd :
    [atEnd].flatMap ReadCall.received = [atEnd].flatMap fun c => c.result.taken := by
  have hret : ∀ c ∈ [atEnd], c.result.ret ≠ -1 := by
    intro c hc
    rw [List.mem_singleton.mp hc]
    decide
  refine ((read_accounts_iff oneProcess [atEnd] hret).mpr fun c hc => ?_).1
  rw [List.mem_singleton.mp hc]
  refine ⟨?_, by decide⟩
  rintro ⟨ps, hlast⟩
  cases hlast

/-- The call returns 0, and two bytes are gone. -/
theorem read_loses_bytes : cutOff.result.ret = 0 ∧
    [cutOff].flatMap ReadCall.received ≠ [cutOff].flatMap fun c => c.result.taken := by
  decide

end MediaTomb
