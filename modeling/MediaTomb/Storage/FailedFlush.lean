/-
  A flush of the insert buffer that fails (`sqlite3_storage.cc`, `sql_storage.cc`).

  The text of the buffer carries its own BEGIN TRANSACTION and, from the flush on, its COMMIT.  It
  is cleared only when SQLite has executed all of it.  So when a statement fails,

    * the text stays, with COMMIT at its end;
    * the transaction stays OPEN, since SQLite stops at the error.

  The next flush hands the same text to SQLite once more, with what has been added since.  Its first
  statement is BEGIN, and BEGIN fails in an open transaction: no flush succeeds any more.

  Here one call is over before the next begins; what threads do to each other is in `InsertBuffer`.
-/
import MediaTomb.Storage.InsertBuffer

namespace MediaTomb

/-! ## SQLite -/

/-- A connection: is a transaction open, and which statements have been applied, in the open
    transaction or before it? -/
structure SqliteConnection where
  inTransaction : Bool := false
  applied : List String := []
  deriving DecidableEq

namespace SqliteConnection

/-- One statement; `none` for an error. -/
def step (c : SqliteConnection) (fails : Bool) : SqlPiece → Option SqliteConnection
  | .begin => if fails || c.inTransaction then none else some { c with inTransaction := true }
  | .statement query => if fails then none else some { c with applied := c.applied ++ [query] }
  | .commit => if fails || !c.inTransaction then none else some { c with inTransaction := false }

/-- `sqlite3_exec`: the statements in order, up to the first error.  `fails` tells which ones fail
    of themselves, by their place in the text. -/
def exec (fails : Nat → Bool) : Nat → SqliteConnection → List SqlPiece → SqliteConnection × Bool
  | _, c, [] => (c, true)
  | i, c, piece :: text =>
    match c.step (fails i) piece with
    | none => (c, false)
    | some c' => exec fails (i + 1) c' text

end SqliteConnection

/-! ## The buffer -/

/-- The insert buffer, and the connection it is flushed to. -/
structure FlushedBuffer where
  insertBuffer : Option (List SqlPiece) := none
  insertBufferEmpty : Bool := true
  insertBufferStatementCount : Nat := 0
  insertBufferByteCount : Nat := 0
  sqlite : SqliteConnection := {}
  /-- history: the queries passed to `addToInsertBuffer` -/
  added : List String := []

/-- A call, and what fails of itself if it flushes. -/
inductive FlushedBufferCall where
  | addToInsertBuffer (query : String) (fails : Nat → Bool)
  | flushInsertBuffer (fails : Nat → Bool)

def FlushedBufferCall.fails : FlushedBufferCall → Nat → Bool
  | addToInsertBuffer _ fails => fails
  | flushInsertBuffer fails => fails

namespace FlushedBuffer

/-- `addToInsertBuffer` up to the flush that it may call. -/
def append (b : FlushedBuffer) (query : String) : FlushedBuffer :=
  { b with
    insertBuffer := some (b.insertBuffer.getD [.begin] ++ [.statement query])
    insertBufferEmpty := false
    insertBufferStatementCount := b.insertBufferStatementCount + 1
    insertBufferByteCount := b.insertBufferByteCount + query.utf8ByteSize
    added := b.added ++ [query] }

/-- `flushInsertBuffer`, and whether it returns. -/
def flush (b : FlushedBuffer) (fails : Nat → Bool) : FlushedBuffer × Bool :=
  if b.insertBufferEmpty then (b, true)
  else
    let emptied (b : FlushedBuffer) : FlushedBuffer :=
      { b with
        insertBufferEmpty := true
        insertBufferStatementCount := 0
        insertBufferByteCount := 0 }
    match b.insertBuffer with
    | none => (emptied b, true)
    | some text =>
      match b.sqlite.exec fails 0 (text ++ [.commit]) with
      | (sqlite, false) =>
        -- the exception leaves the flag, the counters and the text
        ({ b with insertBuffer := some (text ++ [.commit]), sqlite := sqlite }, false)
      | (sqlite, true) => (emptied { b with insertBuffer := some [.begin], sqlite := sqlite }, true)

/-- The buffer at the start of the flush that a call makes. -/
def flushing (b : FlushedBuffer) : FlushedBufferCall → Option FlushedBuffer
  | .addToInsertBuffer query _ =>
    if 102400 < (b.append query).insertBufferByteCount then some (b.append query) else none
  | .flushInsertBuffer _ => some b

/-- A call, and whether it returns. -/
def call (b : FlushedBuffer) (c : FlushedBufferCall) : FlushedBuffer × Bool :=
  match b.flushing c with
  | some b' => b'.flush c.fails
  | none =>
    match c with
    | .addToInsertBuffer query _ => (b.append query, true)
    | .flushInsertBuffer _ => (b, true)

/-- One call after the other, whether they return or throw. -/
def calls (b : FlushedBuffer) (cs : List FlushedBufferCall) : FlushedBuffer :=
  cs.foldl (fun b c => (b.call c).1) b

/-- All calls return. -/
def Returns : FlushedBuffer → List FlushedBufferCall → Prop
  | _, [] => True
  | b, c :: cs => (b.call c).2 = true ∧ Returns (b.call c).1 cs

/-- The call flushes, and a buffered statement is what fails. -/
def StatementFails (b : FlushedBuffer) (c : FlushedBufferCall) : Prop :=
  ∃ b' text i query, b.flushing c = some b' ∧ b'.insertBufferEmpty = false ∧
    b'.insertBuffer = some text ∧ text[i]? = some (.statement query) ∧ c.fails i = true ∧
    ∀ j < i, c.fails j = false

/-! ## Before anything fails -/

/-- The statements of a text in their transaction. -/
def transaction (queries : List String) : List SqlPiece := .begin :: queries.map .statement

/-- **Nothing has failed**: no transaction is open, and what has been added is applied or in the
    buffer. -/
def Sound (b : FlushedBuffer) : Prop :=
  b.sqlite.inTransaction = false ∧ ∃ queries,
    b.insertBuffer.getD [.begin] = transaction queries ∧ b.sqlite.applied ++ queries = b.added ∧
    (b.insertBuffer = none → queries = [])

section

variable {b b' : FlushedBuffer} {c : FlushedBufferCall} {query : String} {fails : Nat → Bool}
  {queries : List String} {sqlite : SqliteConnection}

/-- The text tells the statements. -/
theorem transaction_injective : Function.Injective transaction := fun _ _ h =>
  List.map_injective_iff.mpr (fun _ _ h => SqlPiece.statement.inj h) (List.cons.inj h).2

theorem sound_append (h : b.Sound) (query : String) : (b.append query).Sound := by
  obtain ⟨hclosed, queries, htext, happlied, -⟩ := h
  refine ⟨hclosed, queries ++ [query], ?_, ?_, ?_⟩
  · show b.insertBuffer.getD [.begin] ++ [.statement query] = _
    rw [htext]
    unfold transaction
    rw [List.map_append]
    rfl
  · show b.sqlite.applied ++ (queries ++ [query]) = b.added ++ [query]
    rw [← List.append_assoc, happlied]
  · intro hnone
    cases hnone

/-- In a transaction the statements are applied up to the one that fails. -/
theorem exec_statements (fails : Nat → Bool) (queries : List String) (rest : List SqlPiece) :
    ∀ (i : Nat) (sqlite : SqliteConnection), sqlite.inTransaction = true →
      (∃ k < queries.length, (∀ j < k, fails (i + j) = false) ∧ fails (i + k) = true ∧
        sqlite.exec fails i (queries.map .statement ++ rest) =
          ({ sqlite with applied := sqlite.applied ++ queries.take k }, false)) ∨
      ((∀ j < queries.length, fails (i + j) = false) ∧
        sqlite.exec fails i (queries.map .statement ++ rest) =
          SqliteConnection.exec fails (i + queries.length)
            { sqlite with applied := sqlite.applied ++ queries } rest) := by
  induction queries with
  | nil =>
    intro i sqlite _
    right
    refine ⟨fun j hj => absurd hj (Nat.not_lt_zero j), ?_⟩
    rw [List.append_nil]
    rfl
  | cons query queries ih =>
    intro i sqlite hopen
    rcases hfails : fails i with _ | _
    · have hstep : sqlite.exec fails i ((query :: queries).map .statement ++ rest) =
          SqliteConnection.exec fails (i + 1) { sqlite with applied := sqlite.applied ++ [query] }
            (queries.map .statement ++ rest) := by
        show (match sqlite.step (fails i) (.statement query) with
          | none => (sqlite, false)
          | some c' => SqliteConnection.exec fails (i + 1) c' _) = _
        rw [hfails]
        rfl
      rcases ih (i + 1) { sqlite with applied := sqlite.applied ++ [query] } hopen with
        ⟨k, hk, hbefore, hat, hexec⟩ | ⟨hall, hexec⟩
      · left
        refine ⟨k + 1, Nat.succ_lt_succ hk, fun j hj => ?_, ?_, ?_⟩
        · rcases j with _ | j
          · exact hfails
          · rw [show i + (j + 1) = i + 1 + j by omega]
            exact hbefore j (by omega)
        · rw [show i + (k + 1) = i + 1 + k by omega]
          exact hat
        · rw [hstep, hexec, List.append_assoc]
          rfl
      · right
        refine ⟨fun j hj => ?_, ?_⟩
        · rcases j with _ | j
          · exact hfails
          · rw [show i + (j + 1) = i + 1 + j by omega]
            rw [List.length_cons] at hj
            exact hall j (by omega)
        · rw [hstep, hexec, List.append_assoc, List.length_cons,
            show i + 1 + queries.length = i + (queries.length + 1) by omega]
          rfl
    · left
      refine ⟨0, Nat.succ_pos _, fun j hj => absurd hj (Nat.not_lt_zero j), hfails, ?_⟩
      show (match sqlite.step (fails i) (.statement query) with
        | none => (sqlite, false)
        | some c' => SqliteConnection.exec fails (i + 1) c' _) = _
      rw [hfails, List.take_zero, List.append_nil]
      rfl

/-- The flush of a sound buffer: either it applies the text, of which no statement fails, or a
    statement, or COMMIT, fails and the transaction stays open. -/
theorem flush_sound (h : b.Sound) (hopens : fails 0 = false) :
    ((b.flush fails).2 = true ∧ (b.flush fails).1.Sound ∧
      ∀ queries, b.insertBufferEmpty = false → b.insertBuffer = some (transaction queries) →
        ∀ j < queries.length, fails (j + 1) = false) ∨
    ∃ queries k, b.insertBufferEmpty = false ∧ b.insertBuffer = some (transaction queries) ∧
      b.sqlite.applied ++ queries = b.added ∧ k ≤ queries.length ∧ fails (k + 1) = true ∧
      (∀ j < k, fails (j + 1) = false) ∧
      b.flush fails = ({ b with
        insertBuffer := some (transaction queries ++ [.commit])
        sqlite := { inTransaction := true, applied := b.sqlite.applied ++ queries.take k } },
        false) := by
  obtain ⟨hclosed, queries, htext, happlied, hnone⟩ := h
  rcases hempty : b.insertBufferEmpty with _ | _
  · rcases hbuffer : b.insertBuffer with _ | text
    · left
      have hflush : b.flush fails = ({ b with
          insertBufferEmpty := true
          insertBufferStatementCount := 0
          insertBufferByteCount := 0 }, true) := by
        simp only [flush, hempty, hbuffer, Bool.false_eq_true, if_false]
      rw [hflush]
      refine ⟨rfl, ⟨hclosed, queries, htext, happlied, hnone⟩, fun _ _ hsome => ?_⟩
      cases hsome
    · rw [hbuffer, Option.getD_some] at htext
      subst htext
      -- BEGIN runs: no transaction is open
      have hbegin : b.sqlite.exec fails 0 (transaction queries ++ [.commit]) =
          SqliteConnection.exec fails 1 { b.sqlite with inTransaction := true }
            (queries.map .statement ++ [.commit]) := by
        show (match b.sqlite.step (fails 0) .begin with
          | none => (b.sqlite, false)
          | some c' => SqliteConnection.exec fails 1 c' _) = _
        rw [SqliteConnection.step, hopens, hclosed]
        rfl
      rcases exec_statements fails queries [.commit] 1 { b.sqlite with inTransaction := true } rfl
        with ⟨k, hk, hbefore, hat, hexec⟩ | ⟨hall, hexec⟩
      · right
        refine ⟨queries, k, rfl, rfl, happlied, Nat.le_of_lt hk, ?_, fun j hj => ?_, ?_⟩
        · rw [Nat.add_comm]
          exact hat
        · rw [Nat.add_comm]
          exact hbefore j hj
        · simp only [flush, hempty, hbuffer, Bool.false_eq_true, if_false, hbegin, hexec]
      · rcases hcommit : fails (1 + queries.length) with _ | _
        · left
          have hflush : b.flush fails = ({ b with
              insertBuffer := some [.begin]
              sqlite := { inTransaction := false, applied := b.sqlite.applied ++ queries }
              insertBufferEmpty := true
              insertBufferStatementCount := 0
              insertBufferByteCount := 0 }, true) := by
            simp [flush, hempty, hbuffer, hbegin, hexec, SqliteConnection.exec,
              SqliteConnection.step, hcommit]
          rw [hflush]
          refine ⟨rfl, ⟨rfl, [], rfl, ?_, fun _ => rfl⟩, fun queries' _ hsome j hj => ?_⟩
          · rw [List.append_nil]
            exact happlied
          · rw [← transaction_injective (Option.some.inj hsome)] at hj
            rw [Nat.add_comm]
            exact hall j hj
        · right
          refine ⟨queries, queries.length, rfl, rfl, happlied, Nat.le_refl _, ?_, fun j hj => ?_,
            ?_⟩
          · rw [Nat.add_comm]
            exact hcommit
          · rw [Nat.add_comm]
            exact hall j hj
          · simp [flush, hempty, hbuffer, hbegin, hexec, SqliteConnection.exec,
              SqliteConnection.step, hcommit]
  · left
    have hflush : b.flush fails = (b, true) := by
      simp only [flush, hempty, if_true]
    rw [hflush]
    refine ⟨rfl, ⟨hclosed, queries, htext, happlied, hnone⟩, fun _ hfull => ?_⟩
    cases hfull

/-- A flush that returns leaves a sound buffer sound. -/
theorem sound_flush (h : b.Sound) (hreturns : (b.flush fails).2 = true) :
    (b.flush fails).1.Sound := by
  rcases hopens : fails 0 with _ | _
  · rcases flush_sound h hopens with ⟨-, hsound, -⟩ | ⟨queries, k, -, -, -, -, -, -, hflush⟩
    · exact hsound
    · rw [hflush] at hreturns
      cases hreturns
  · obtain ⟨hclosed, queries, htext, happlied, hnone⟩ := h
    rcases hempty : b.insertBufferEmpty with _ | _
    · rcases hbuffer : b.insertBuffer with _ | text
      · have hflush : (b.flush fails).1 = { b with
            insertBufferEmpty := true
            insertBufferStatementCount := 0
            insertBufferByteCount := 0 } := by
          simp only [flush, hempty, hbuffer, Bool.false_eq_true, if_false]
        rw [hflush]
        exact ⟨hclosed, queries, htext, happlied, hnone⟩
      · -- BEGIN fails of itself
        rw [hbuffer, Option.getD_some] at htext
        subst htext
        have hexec : b.sqlite.exec fails 0 (transaction queries ++ [.commit]) =
            (b.sqlite, false) := by
          show (match b.sqlite.step (fails 0) .begin with
            | none => (b.sqlite, false)
            | some c' => SqliteConnection.exec fails 1 c' _) = _
          rw [SqliteConnection.step, hopens]
          rfl
        simp [flush, hempty, hbuffer, hexec] at hreturns
    · have hflush : b.flush fails = (b, true) := by
        simp only [flush, hempty, if_true]
      rw [hflush]
      exact ⟨hclosed, queries, htext, happlied, hnone⟩

/-- A call that flushes does what its flush does. -/
theorem call_of_flushing (h : b.flushing c = some b') : b.call c = b'.flush c.fails := by
  unfold call
  rw [h]

/-- What a call flushes is the buffer, or the buffer with its query. -/
theorem flushing_eq (h : b.flushing c = some b') : b' = b ∨ ∃ query, b' = b.append query := by
  cases c with
  | addToInsertBuffer query fails =>
    right
    refine ⟨query, ?_⟩
    simp only [flushing] at h
    split at h
    · exact (Option.some.inj h).symm
    · cases h
  | flushInsertBuffer fails =>
    left
    exact (Option.some.inj h).symm

/-- A call that does not flush adds its query. -/
theorem call_of_not_flushing (h : b.flushing c = none) :
    ∃ query, b.call c = (b.append query, true) := by
  cases c with
  | addToInsertBuffer query fails =>
    refine ⟨query, ?_⟩
    unfold call
    rw [h]
  | flushInsertBuffer fails => cases h

theorem sound_flushing (hb : b.Sound) (h : b.flushing c = some b') : b'.Sound := by
  rcases flushing_eq h with rfl | ⟨query, rfl⟩
  · exact hb
  · exact sound_append hb query

theorem sound_call (hb : b.Sound) (hreturns : (b.call c).2 = true) : (b.call c).1.Sound := by
  rcases hflushing : b.flushing c with _ | b'
  · obtain ⟨query, hcall⟩ := call_of_not_flushing hflushing
    rw [hcall]
    exact sound_append hb query
  · rw [call_of_flushing hflushing] at hreturns ⊢
    exact sound_flush (sound_flushing hb hflushing) hreturns

theorem sound_calls (cs : List FlushedBufferCall) :
    ∀ b : FlushedBuffer, b.Sound → b.Returns cs → (b.calls cs).Sound := by
  induction cs with
  | nil =>
    intro b hb _
    exact hb
  | cons c cs ih =>
    intro b hb hreturns
    exact ih _ (sound_call hb hreturns.1) hreturns.2

theorem sound_start : Sound {} := ⟨rfl, [], rfl, rfl, fun _ => rfl⟩

/-! ## After a statement has failed -/

/-- **Stuck**: the transaction is open, the text begins with the BEGIN that it was opened by, and a
    statement of it has not been applied. -/
structure Stuck (b : FlushedBuffer) : Prop where
  inTransaction : b.sqlite.inTransaction = true
  insertBufferEmpty : b.insertBufferEmpty = false
  insertBuffer : ∃ rest, b.insertBuffer = some (.begin :: rest)
  missing : b.sqlite.applied.length < b.added.length

theorem stuck_append (h : b.Stuck) (query : String) : (b.append query).Stuck := by
  obtain ⟨rest, hbuffer⟩ := h.insertBuffer
  refine ⟨h.inTransaction, rfl, ⟨rest ++ [.statement query], ?_⟩, ?_⟩
  · show some (b.insertBuffer.getD [.begin] ++ [.statement query]) = _
    rw [hbuffer]
    rfl
  · show b.sqlite.applied.length < (b.added ++ [query]).length
    rw [List.length_append]
    exact Nat.lt_of_lt_of_le h.missing (Nat.le_add_right _ _)

/-- **BEGIN fails in the open transaction**, so every flush throws and leaves the buffer stuck. -/
theorem stuck_flush (h : b.Stuck) (fails : Nat → Bool) :
    (b.flush fails).2 = false ∧ (b.flush fails).1.Stuck := by
  obtain ⟨rest, hbuffer⟩ := h.insertBuffer
  have hexec : b.sqlite.exec fails 0 (.begin :: rest ++ [.commit]) = (b.sqlite, false) := by
    show (match b.sqlite.step (fails 0) .begin with
      | none => (b.sqlite, false)
      | some c' => SqliteConnection.exec fails 1 c' _) = _
    rw [SqliteConnection.step, h.inTransaction, Bool.or_true]
    rfl
  have hflush : b.flush fails =
      ({ b with insertBuffer := some (.begin :: rest ++ [.commit]) }, false) := by
    simp only [flush, h.insertBufferEmpty, hbuffer, Bool.false_eq_true, if_false, hexec]
  rw [hflush]
  exact ⟨rfl, h.inTransaction, h.insertBufferEmpty, ⟨rest ++ [.commit], rfl⟩, h.missing⟩

theorem stuck_call (h : b.Stuck) (c : FlushedBufferCall) : (b.call c).1.Stuck := by
  rcases hflushing : b.flushing c with _ | b'
  · obtain ⟨query, hcall⟩ := call_of_not_flushing hflushing
    rw [hcall]
    exact stuck_append h query
  · rw [call_of_flushing hflushing]
    rcases flushing_eq hflushing with rfl | ⟨query, rfl⟩
    · exact (stuck_flush h c.fails).2
    · exact (stuck_flush (stuck_append h query) c.fails).2

theorem stuck_calls (cs : List FlushedBufferCall) :
    ∀ b : FlushedBuffer, b.Stuck → (b.calls cs).Stuck := by
  induction cs with
  | nil =>
    intro b hb
    exact hb
  | cons c cs ih =>
    intro b hb
    exact ih _ (stuck_call hb c)

/-- **A statement that fails leaves the buffer stuck**, wherever it stands in the text. -/
theorem stuck_of_statementFails (hb : b.Sound) (h : b.StatementFails c) : (b.call c).1.Stuck := by
  obtain ⟨b', text, i, query, hflushing, hempty, hbuffer, hat, hfails, hbefore⟩ := h
  have hb' : b'.Sound := sound_flushing hb hflushing
  obtain ⟨queries, htext⟩ : ∃ queries, text = transaction queries := by
    obtain ⟨-, queries, htext, -, -⟩ := hb'
    rw [hbuffer, Option.getD_some] at htext
    exact ⟨queries, htext⟩
  subst htext
  -- the first piece is BEGIN, so the failing one stands after it
  obtain ⟨m, rfl⟩ : ∃ m, i = m + 1 := by
    rcases i with _ | m
    · cases hat
    · exact ⟨m, rfl⟩
  have hm : m < queries.length := by
    have hlt := (List.getElem?_eq_some_iff.mp hat).1
    unfold transaction at hlt
    rw [List.length_cons, List.length_map] at hlt
    exact Nat.lt_of_succ_lt_succ hlt
  rw [call_of_flushing hflushing]
  rcases flush_sound hb' (hbefore 0 (Nat.succ_pos m)) with ⟨-, -, hall⟩ |
    ⟨queries', k, -, hbuffer', happlied, hk, hat', hall, hflush⟩
  · rw [hall queries hempty hbuffer m hm] at hfails
    cases hfails
  · have hqueries : queries = queries' :=
      transaction_injective (Option.some.inj (hbuffer.symm.trans hbuffer'))
    subst hqueries
    rw [hflush]
    refine ⟨rfl, hempty, ⟨queries.map .statement ++ [.commit], rfl⟩, ?_⟩
    -- the statement that failed is not among the applied ones
    have hkm : k ≤ m := by
      by_contra hlt
      rw [hall m (Nat.lt_of_not_le hlt)] at hfails
      cases hfails
    show (b'.sqlite.applied ++ queries.take k).length < b'.added.length
    rw [← happlied, List.length_append, List.length_append, List.length_take]
    omega

end

end FlushedBuffer

open FlushedBuffer

/-- **A statement that fails once is never applied.**  All calls before returned, and then a call
    flushes and a statement of the text fails.  Whatever is called afterwards, and however often
    nothing fails any more, the database does not have all statements that were added, and the next
    flush throws again. -/
theorem failedFlush_never_applied {before : List FlushedBufferCall} {c : FlushedBufferCall}
    (hbefore : Returns {} before) (hfails : StatementFails (calls {} before) c)
    (after : List FlushedBufferCall) :
    ¬ (calls {} (before ++ c :: after)).sqlite.applied.Perm
        (calls {} (before ++ c :: after)).added ∧
      ∀ fails, ((calls {} (before ++ c :: after)).flush fails).2 = false := by
  have hsound : (calls {} before).Sound := sound_calls before {} sound_start hbefore
  have hstuck : (calls {} (before ++ c :: after)).Stuck := by
    unfold calls
    rw [List.foldl_append]
    exact stuck_calls after _ (stuck_of_statementFails hsound hfails)
  constructor
  · intro hperm
    exact absurd hperm.length_eq (Nat.ne_of_lt hstuck.missing)
  · intro fails
    exact (stuck_flush hstuck fails).1

/-- The second of three statements fails, then the buffer is flushed twice and nothing fails. -/
theorem failedFlush_never_applied_three :
    let before := ["INSERT 1", "INSERT 2", "INSERT 3"].map (.addToInsertBuffer · fun _ => false)
    let after := [.flushInsertBuffer fun _ => false, .flushInsertBuffer fun _ => false]
    let b := calls {} (before ++ .flushInsertBuffer (· == 2) :: after)
    ¬ b.sqlite.applied.Perm b.added ∧ ∀ fails, (b.flush fails).2 = false := by
  apply failedFlush_never_applied
  · exact ⟨rfl, rfl, rfl, trivial⟩
  · exact ⟨_, _, 2, "INSERT 2", rfl, rfl, rfl, rfl, rfl, by decide⟩

/-- The statements are not applied exactly once, though every statement succeeds at the second
    flush. -/
theorem failedFlush_not_applied_once :
    ¬ ∀ (before after : List FlushedBufferCall) (c : FlushedBufferCall), Returns {} before →
      StatementFails (calls {} before) c → (∃ c' ∈ after, ∃ fails, c' = .flushInsertBuffer fails) →
      (∀ c' ∈ after, ∀ i, c'.fails i = false) →
      (calls {} (before ++ c :: after)).sqlite.applied.Perm
        (calls {} (before ++ c :: after)).added := by
  intro happlied
  have hperm := happlied [.addToInsertBuffer "INSERT 1" fun _ => false]
    [.flushInsertBuffer fun _ => false] (.flushInsertBuffer (· == 1)) ⟨rfl, trivial⟩
    ⟨_, _, 1, "INSERT 1", rfl, rfl, rfl, rfl, rfl, by decide⟩ ⟨_, List.mem_singleton_self _, _, rfl⟩
    (fun c' hc' i => by
      rw [List.mem_singleton.mp hc']
      rfl)
  exact absurd hperm.length_eq (by decide)

end MediaTomb
