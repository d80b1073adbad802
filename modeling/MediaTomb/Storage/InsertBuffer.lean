/-
  The insert buffer among threads (`sql_storage.cc`, `sqlite3_storage.cc`).

  With the cache on, INSERTs are not executed at once: their text is collected in `insertBuffer`,
  between BEGIN TRANSACTION and COMMIT, and a flush gives the whole text to the SQLite thread.  Any
  number of threads add and flush, and these are the steps they take turns in:
    * `addToInsertBuffer` looks whether there is a buffer, makes one if it found none, and appends,
      all of it WITHOUT the mutex; then it takes the mutex to count the statement, and may flush;
    * `flushInsertBuffer` holds the mutex from its first step to its last: COMMIT is appended, the
      text is handed to the SQLite thread as a POINTER, the flush waits, clears the buffer and
      begins the next transaction;
    * the SQLite thread reads what the pointer points to.

  So an append may fall between any two steps of a flush.  Most of these places are harmless.  Two
  are not: what is appended after SQLite has read the text is CLEARED with it, and an append that
  has the memory moved leaves SQLite with the old block.

  The rest of the file proves that nothing else can go wrong.
-/
import MediaTomb.Lib.Machine

namespace MediaTomb

open Lib.Machine

/-! ## The buffer -/

/-- What the text is made of. -/
inductive SqlPiece where
  /-- `BEGIN TRANSACTION;` -/
  | begin
  /-- a query and its `;` -/
  | statement (query : String)
  /-- `COMMIT;` -/
  | commit
  deriving DecidableEq

def SqlPiece.query? : SqlPiece → Option String
  | statement query => some query
  | _ => none

def sqlQueries (text : List SqlPiece) : List String := text.filterMap SqlPiece.query?

/-- A `StringBuffer`: its text, and the block of memory the text lies in. -/
structure SqlBuffer where
  block : Nat
  text : List SqlPiece
  deriving DecidableEq

/-- How far a call of `addToInsertBuffer` is. -/
inductive AddProgress where
  | entered
  /-- `insertBuffer == nil` was true -/
  | creating
  | appending
  /-- waiting for the mutex -/
  | appended
  deriving DecidableEq

structure AddCall where
  query : String
  progress : AddProgress
  deriving DecidableEq

/-- The queries of the calls that have not appended theirs. -/
def unappendedQueries (calls : List AddCall) : List String :=
  (calls.filter fun c => c.progress ≠ .appended).map AddCall.query

/-- How far the flush is that holds the mutex. -/
inductive FlushProgress where
  /-- at the start of `_flushInsertBuffer` -/
  | started
  | committed
  /-- in `waitForTask`, for a task with this pointer -/
  | waiting (block : Nat)
  | executed (failed : Bool)
  | cleared
  /-- `_flushInsertBuffer` has returned -/
  | done
  deriving DecidableEq

structure InsertBuffer where
  insertBuffer : Option SqlBuffer := none
  insertBufferEmpty : Bool := true
  insertBufferStatementCount : Nat := 0
  insertBufferByteCount : Nat := 0
  /-- the blocks of memory so far -/
  blocks : Nat := 0
  /-- calls of `addToInsertBuffer` before their locked section -/
  adding : List AddCall := []
  /-- calls of `flushInsertBuffer` that wait for the mutex -/
  flushing : Nat := 0
  /-- the flush that holds the mutex -/
  flush : Option FlushProgress := none
  /-- the queries passed to `addToInsertBuffer`, and those SQLite has executed -/
  added : List String := []
  executed : List String := []

inductive InsertBufferEvent where
  /-- `addToInsertBuffer` is called -/
  | add (query : String)
  /-- the call at this place takes its next step; if it appends, `realloc` may move the text -/
  | adding (call : Nat) (moves : Bool)
  /-- `flushInsertBuffer` is called -/
  | flush
  /-- such a call gets the mutex -/
  | lock
  /-- the flush with the mutex takes its next step -/
  | flushing (moves : Bool)
  /-- the SQLite thread runs the task: `stale` is what a block that was given up holds, `fails` the
      piece it stops at -/
  | sqlite (stale : List SqlPiece) (fails : Option Nat)

namespace InsertBuffer

/-- `*insertBuffer << …` -/
def append (b : InsertBuffer) (piece : SqlPiece) (moves : Bool) : InsertBuffer :=
  { b with
    insertBuffer := b.insertBuffer.map fun buffer =>
      ⟨if moves then b.blocks else buffer.block, buffer.text ++ [piece]⟩
    blocks := if moves then b.blocks + 1 else b.blocks }

/-! ## Adding -/

/-- The section of `addToInsertBuffer` under the mutex, up to the flush that it may call. -/
def count (b : InsertBuffer) (i : Nat) (query : String) : InsertBuffer :=
  let bytes := b.insertBufferByteCount + query.utf8ByteSize
  { b with
    adding := b.adding.eraseIdx i
    insertBufferEmpty := false
    insertBufferStatementCount := b.insertBufferStatementCount + 1
    insertBufferByteCount := bytes
    flush := if 102400 < bytes then some .started else none }

/-- `_addToInsertBuffer` step by step, then the locked section. -/
def onAdding (b : InsertBuffer) (i : Nat) (moves : Bool) : Option InsertBuffer :=
  b.adding[i]?.bind fun c =>
    match c.progress with
    | .entered =>
      let progress := if b.insertBuffer.isNone then .creating else .appending
      some { b with adding := b.adding.set i { c with progress := progress } }
    | .creating =>
      some { b with
        insertBuffer := some ⟨b.blocks, [.begin]⟩
        blocks := b.blocks + 1
        adding := b.adding.set i { c with progress := .appending } }
    | .appending =>
      some { b.append (.statement c.query) moves with
        adding := b.adding.set i { c with progress := .appended } }
    | .appended => if b.flush.isSome then none else some (b.count i c.query)

/-! ## Flushing -/

/-- `flushInsertBuffer` under the mutex, up to `_flushInsertBuffer`. -/
def onLock (b : InsertBuffer) : Option InsertBuffer :=
  if b.flushing = 0 || b.flush.isSome then none
  else some { b with
    flushing := b.flushing - 1
    flush := if b.insertBufferEmpty then none else some .started }

/-- `_flushInsertBuffer` step by step, then the rest of `flushInsertBuffer`. -/
def onFlushing (b : InsertBuffer) (moves : Bool) : Option InsertBuffer :=
  match b.flush with
  | none => none
  | some .started =>
    if b.insertBuffer.isNone then some { b with flush := some .done }
    else some { b.append .commit moves with flush := some .committed }
  | some .committed =>
    b.insertBuffer.map fun buffer => { b with flush := some (.waiting buffer.block) }
  | some (.waiting _) => none
  | some (.executed failed) =>
    -- `waitForTask` throws: the mutex is let go on the way out, and the text stays
    if failed then some { b with flush := none }
    else some { b with
      insertBuffer := b.insertBuffer.map fun buffer => { buffer with text := [] }
      flush := some .cleared }
  | some .cleared => some { b.append .begin moves with flush := some .done }
  | some .done =>
    some { b with
      insertBufferEmpty := true
      insertBufferStatementCount := 0
      insertBufferByteCount := 0
      flush := none }

/-- What SQLite finds where the pointer points to. -/
def textAt (b : InsertBuffer) (block : Nat) (stale : List SqlPiece) : List SqlPiece :=
  match b.insertBuffer with
  | some buffer => if buffer.block = block then buffer.text else stale
  | none => stale

/-- `SLExecTask::run` -/
def onSqlite (b : InsertBuffer) (stale : List SqlPiece) (fails : Option Nat) :
    Option InsertBuffer :=
  match b.flush with
  | some (.waiting block) =>
    let text := b.textAt block stale
    let done := match fails with
      | none => text
      | some k => text.take k
    some { b with
      executed := b.executed ++ sqlQueries done
      flush := some (.executed fails.isSome) }
  | _ => none

def step (b : InsertBuffer) : InsertBufferEvent → Option InsertBuffer
  | .add query =>
    some { b with adding := b.adding ++ [⟨query, .entered⟩], added := b.added ++ [query] }
  | .adding i moves => b.onAdding i moves
  | .flush => some { b with flushing := b.flushing + 1 }
  | .lock => b.onLock
  | .flushing moves => b.onFlushing moves
  | .sqlite stale fails => b.onSqlite stale fails

/-! ## What should hold -/

/-- The statements in the buffer. -/
def buffered (b : InsertBuffer) : List String :=
  match b.insertBuffer with
  | some buffer => sqlQueries buffer.text
  | none => []

/-- Those that SQLite has not seen. -/
def unexecuted (b : InsertBuffer) : List String :=
  match b.flush with
  | some (.executed _) => []
  | _ => b.buffered

/-- Those whose call has not appended them. -/
def unappended (b : InsertBuffer) : List String := unappendedQueries b.adding

/-- Each statement is on its way or has been executed, and none is twice. -/
def Accounted (b : InsertBuffer) : Prop :=
  (b.executed ++ b.unexecuted ++ b.unappended).Perm b.added

/-- All calls have returned. -/
def Completed (b : InsertBuffer) : Prop :=
  b.adding = [] ∧ b.flushing = 0 ∧ b.flush = none

/-- A flush is called, or gets the mutex, when all additions are over; nothing is added later. -/
def FlushedLast (events : List InsertBufferEvent) : Prop :=
  ∃ before e after b, events = before ++ e :: after ∧ (e = .flush ∨ e = .lock) ∧
    run step {} before = some b ∧ b.adding = [] ∧ ∀ query, .add query ∉ after

/-- The step does not run into a flush:
    * a buffer is made only where there still is none;
    * nothing is appended between SQLite's reading the text and `clear`, and while SQLite waits to
      read it nothing moves it;
    * SQLite executes the text to its end. -/
def undisturbed (b : InsertBuffer) : InsertBufferEvent → Bool
  | .adding i moves =>
    match b.adding[i]?.map AddCall.progress with
    | some .creating => b.insertBuffer.isNone
    | some .appending =>
      match b.flush with
      | some (.waiting _) => !moves
      | some (.executed _) => false
      | _ => true
    | _ => true
  | .sqlite _ fails => fails.isNone
  | _ => true

/-- The conditions of `undisturbed` as a property of steps. -/
def Undisturbed (b : InsertBuffer) (e : InsertBufferEvent) : Prop := b.undisturbed e = true

instance (b : InsertBuffer) (e : InsertBufferEvent) : Decidable (Undisturbed b e) :=
  inferInstanceAs (Decidable (_ = true))

/-! ## The invariant -/

/-- A statement that is in the buffer will be noticed by the next flush: the flag says so, or the
    call that appended it has still to set the flag. -/
def Noticed (b : InsertBuffer) : Prop :=
  b.unexecuted = [] ∨ (∃ c ∈ b.adding, c.progress = .appended) ∨
    (b.insertBufferEmpty = false ∧ b.flush ≠ some .cleared ∧ b.flush ≠ some .done)

structure BufferKept (b : InsertBuffer) : Prop where
  accounted : b.Accounted
  noticed : b.Noticed
  present : ∀ c ∈ b.adding, c.progress = .appending → b.insertBuffer ≠ none
  handed : ∀ block, b.flush = some (.waiting block) →
    ∃ text, b.insertBuffer = some ⟨block, text⟩
  succeeded : b.flush ≠ some (.executed true)

section

variable {b b' : InsertBuffer} {i : Nat} {c : AddCall} {moves : Bool}

theorem buffered_append (piece : SqlPiece) (moves : Bool) (h : b.insertBuffer ≠ none) :
    (b.append piece moves).buffered = b.buffered ++ piece.query?.toList := by
  unfold buffered append
  rcases hb : b.insertBuffer with _ | buffer
  · exact absurd hb h
  · show sqlQueries (buffer.text ++ [piece]) = sqlQueries buffer.text ++ piece.query?.toList
    unfold sqlQueries
    rw [List.filterMap_append]
    rfl

/-- But for a text that SQLite has executed, all statements in the buffer are to be executed. -/
theorem unexecuted_of_ne (h : ∀ failed, b.flush ≠ some (.executed failed)) :
    b.unexecuted = b.buffered := by
  unfold unexecuted
  split
  · next failed hflush => exact absurd hflush (h failed)
  · rfl

theorem accounted_iff : b.Accounted ↔ ∀ query, b.executed.count query +
    b.unexecuted.count query + b.unappended.count query = b.added.count query := by
  unfold Accounted
  rw [List.perm_iff_count]
  constructor
  · intro h query
    have hquery := h query
    rw [List.count_append, List.count_append] at hquery
    exact hquery
  · intro h query
    rw [List.count_append, List.count_append]
    exact h query

/-! ## Calls at a place -/

theorem unappendedQueries_append (calls calls' : List AddCall) :
    unappendedQueries (calls ++ calls') = unappendedQueries calls ++ unappendedQueries calls' := by
  unfold unappendedQueries
  rw [List.filter_append, List.map_append]

/-- The call at a place goes on. -/
theorem count_unappended_set {calls : List AddCall} (h : calls[i]? = some c) (c' : AddCall)
    (query : String) :
    (unappendedQueries (calls.set i c')).count query + (unappendedQueries [c]).count query =
      (unappendedQueries calls).count query + (unappendedQueries [c']).count query := by
  obtain ⟨before, after, hcalls, hset, -⟩ := split_at_place h
  have hsplit : ∀ d : AddCall, (unappendedQueries (before ++ d :: after)).count query =
      (unappendedQueries before).count query + ((unappendedQueries [d]).count query +
        (unappendedQueries after).count query) := by
    intro d
    rw [← List.singleton_append, unappendedQueries_append, unappendedQueries_append,
      List.count_append, List.count_append]
  rw [hset c', hcalls, hsplit c', hsplit c]
  omega

/-- The call at a place is over. -/
theorem count_unappended_erase {calls : List AddCall} (h : calls[i]? = some c)
    (hc : c.progress = .appended) (query : String) :
    (unappendedQueries (calls.eraseIdx i)).count query = (unappendedQueries calls).count query := by
  obtain ⟨before, after, hcalls, -, herase⟩ := split_at_place h
  rw [herase, hcalls, ← List.singleton_append, unappendedQueries_append, unappendedQueries_append,
    unappendedQueries_append]
  have hnone : unappendedQueries [c] = [] := by
    unfold unappendedQueries
    rw [List.filter_cons_of_neg (by simpa using hc)]
    rfl
  rw [hnone, List.nil_append]

theorem mem_set_of_ne {calls : List AddCall} (h : calls[i]? = some c) {d : AddCall}
    (hd : d ∈ calls) (hne : d ≠ c) (c' : AddCall) : d ∈ calls.set i c' := by
  obtain ⟨before, after, hcalls, hset, -⟩ := split_at_place h
  rw [hset c']
  rw [hcalls] at hd
  rcases List.mem_append.mp hd with hd | hd
  · exact List.mem_append_left _ hd
  · rcases List.mem_cons.mp hd with rfl | hd
    · exact absurd rfl hne
    · exact List.mem_append_right _ (List.mem_cons_of_mem _ hd)

theorem mem_set_self {calls : List AddCall} (h : calls[i]? = some c) (c' : AddCall) :
    c' ∈ calls.set i c' := by
  obtain ⟨before, after, -, hset, -⟩ := split_at_place h
  rw [hset c']
  exact List.mem_append_right _ List.mem_cons_self

/-! ## Steps of an addition -/

theorem BufferKept.call (h : BufferKept b) (query : String) :
    BufferKept { b with
      adding := b.adding ++ [⟨query, .entered⟩], added := b.added ++ [query] } := by
  refine ⟨accounted_iff.mpr fun q => ?_, ?_, fun d hd hp => ?_, h.handed, h.succeeded⟩
  · have hq := accounted_iff.mp h.accounted q
    show b.executed.count q + b.unexecuted.count q +
      (unappendedQueries (b.adding ++ [⟨query, .entered⟩])).count q = (b.added ++ [query]).count q
    rw [unappendedQueries_append, List.count_append, List.count_append]
    show b.executed.count q + b.unexecuted.count q +
      (b.unappended.count q + [query].count q) = b.added.count q + [query].count q
    omega
  · rcases h.noticed with hnone | ⟨d, hd, hp⟩ | hset
    · exact Or.inl hnone
    · exact Or.inr (Or.inl ⟨d, List.mem_append_left _ hd, hp⟩)
    · exact Or.inr (Or.inr hset)
  · rcases List.mem_append.mp hd with hd | hd
    · exact h.present d hd hp
    · cases List.mem_singleton.mp hd
      cases hp

/-- The call at a place goes on, without touching the buffer. -/
theorem BufferKept.goOn (h : BufferKept b) (hget : b.adding[i]? = some c)
    (hc : c.progress ≠ .appended) {progress : AddProgress} (hp : progress ≠ .appended)
    (hpresent : progress = .appending → b.insertBuffer ≠ none) :
    BufferKept { b with adding := b.adding.set i { c with progress := progress } } := by
  refine ⟨accounted_iff.mpr fun q => ?_, ?_, fun d hd hd' => ?_, h.handed, h.succeeded⟩
  · have hq := accounted_iff.mp h.accounted q
    have hset := count_unappended_set hget { c with progress := progress } q
    have hone : ∀ d : AddCall, d.progress ≠ .appended → unappendedQueries [d] = [d.query] := by
      intro d hd
      unfold unappendedQueries
      rw [List.filter_cons_of_pos (by simpa using hd)]
      rfl
    have hone' : unappendedQueries [{ c with progress := progress }] = [c.query] :=
      hone { c with progress := progress } hp
    rw [hone c hc, hone'] at hset
    show b.executed.count q + b.unexecuted.count q +
      (unappendedQueries (b.adding.set i { c with progress := progress })).count q = b.added.count q
    have hsame : (unappendedQueries b.adding).count q = b.unappended.count q := rfl
    omega
  · rcases h.noticed with hnone | ⟨d, hd, hd'⟩ | hset
    · exact Or.inl hnone
    · refine Or.inr (Or.inl ⟨d, mem_set_of_ne hget hd ?_ _, hd'⟩)
      rintro rfl
      exact hc hd'
    · exact Or.inr (Or.inr hset)
  · rcases List.mem_or_eq_of_mem_set hd with hd | rfl
    · exact h.present d hd hd'
    · exact hpresent hd'

/-- A buffer is made where there was none. -/
theorem BufferKept.create (h : BufferKept b) (hnone : b.insertBuffer = none) (block blocks : Nat) :
    BufferKept { b with insertBuffer := some ⟨block, [.begin]⟩, blocks := blocks } := by
  have hbefore : b.unexecuted = [] := by
    unfold unexecuted buffered
    rw [hnone]
    split <;> rfl
  have hafter : unexecuted { b with
      insertBuffer := some ⟨block, [.begin]⟩, blocks := blocks } = [] := by
    unfold unexecuted buffered
    split <;> rfl
  refine ⟨accounted_iff.mpr fun q => ?_, Or.inl hafter, fun d hd hp => ?_, fun k hk => ?_,
    h.succeeded⟩
  · have hq := accounted_iff.mp h.accounted q
    rw [hafter]
    rw [hbefore] at hq
    exact hq
  · exact absurd hnone (h.present d hd hp)
  · obtain ⟨text, htext⟩ := h.handed k hk
    rw [hnone] at htext
    cases htext

/-- **An append** that SQLite will still see, or that the clearing will not. -/
theorem BufferKept.append (h : BufferKept b) (hget : b.adding[i]? = some c)
    (hc : c.progress = .appending) (hwaiting : ∀ block, b.flush = some (.waiting block) → moves = false)
    (hexecuted : ∀ failed, b.flush ≠ some (.executed failed)) :
    BufferKept { b.append (.statement c.query) moves with
      adding := b.adding.set i { c with progress := .appended } } := by
  have hpresent := h.present c (List.mem_of_getElem? hget) hc
  refine ⟨accounted_iff.mpr fun q => ?_, ?_, fun d hd hp hnone => ?_, fun block hblock => ?_,
    h.succeeded⟩
  · have hq := accounted_iff.mp h.accounted q
    rw [unexecuted_of_ne hexecuted] at hq
    have hafter : unexecuted { b.append (.statement c.query) moves with
        adding := b.adding.set i { c with progress := .appended } } =
          (b.append (.statement c.query) moves).buffered := unexecuted_of_ne hexecuted
    rw [hafter]
    have hset := count_unappended_set hget { c with progress := .appended } q
    have hbefore : unappendedQueries [c] = [c.query] := by
      unfold unappendedQueries
      rw [List.filter_cons_of_pos (by rw [hc]; rfl)]
      rfl
    have hnone : unappendedQueries [{ c with progress := .appended }] = [] := rfl
    rw [hbefore, hnone, List.count_nil] at hset
    show b.executed.count q + (b.append (.statement c.query) moves).buffered.count q +
      (unappendedQueries (b.adding.set i { c with progress := .appended })).count q =
        b.added.count q
    rw [buffered_append _ moves hpresent, List.count_append]
    show b.executed.count q + (b.buffered.count q + [c.query].count q) +
      (unappendedQueries (b.adding.set i { c with progress := .appended })).count q =
        b.added.count q
    have hsame : (unappendedQueries b.adding).count q = b.unappended.count q := rfl
    omega
  · exact Or.inr (Or.inl ⟨_, mem_set_self hget _, rfl⟩)
  · have hmap : b.insertBuffer = none := Option.map_eq_none_iff.mp hnone
    exact hpresent hmap
  · obtain ⟨text, htext⟩ := h.handed block hblock
    refine ⟨text ++ [.statement c.query], ?_⟩
    show b.insertBuffer.map _ = _
    rw [htext, hwaiting block hblock]
    rfl

theorem flush_count (b : InsertBuffer) (i : Nat) (query : String) :
    (b.count i query).flush = none ∨ (b.count i query).flush = some .started := by
  unfold InsertBuffer.count
  simp only
  split
  · exact Or.inr rfl
  · exact Or.inl rfl

/-- The locked section of `addToInsertBuffer`: the statement is announced. -/
theorem BufferKept.count (h : BufferKept b) (hget : b.adding[i]? = some c)
    (hc : c.progress = .appended) (hfree : b.flush = none) : BufferKept (b.count i c.query) := by
  have hun : (b.count i c.query).unexecuted = b.unexecuted := by
    unfold unexecuted
    rw [hfree]
    rcases flush_count b i c.query with hflush | hflush
    · rw [hflush]
      rfl
    · rw [hflush]
      rfl
  have hflush : ∀ progress, progress ≠ FlushProgress.started →
      (b.count i c.query).flush ≠ some progress := by
    intro progress hne heq
    rcases flush_count b i c.query with hflush | hflush
    · rw [hflush] at heq
      cases heq
    · rw [hflush] at heq
      cases heq
      exact hne rfl
  refine ⟨accounted_iff.mpr fun q => ?_, ?_, fun d hd hp => ?_, fun block hblock => ?_,
    hflush _ (nomatch ·)⟩
  · have hq := accounted_iff.mp h.accounted q
    rw [hun]
    show b.executed.count q + b.unexecuted.count q +
      (unappendedQueries (b.adding.eraseIdx i)).count q = b.added.count q
    rw [count_unappended_erase hget hc]
    exact hq
  · exact Or.inr (Or.inr ⟨rfl, hflush _ (nomatch ·), hflush _ (nomatch ·)⟩)
  · exact h.present d (List.mem_of_mem_eraseIdx hd) hp
  · exact absurd hblock (hflush _ (nomatch ·))

theorem BufferKept.adding (h : BufferKept b) (hC : Undisturbed b (.adding i moves))
    (hstep : b.onAdding i moves = some b') : BufferKept b' := by
  unfold onAdding at hstep
  obtain ⟨c, hget, hnext⟩ := Option.bind_eq_some_iff.mp hstep
  unfold Undisturbed undisturbed at hC
  simp only [hget, Option.map_some] at hC
  rcases hc : c.progress with _ | _ | _ | _
  · rw [hc] at hnext
    cases hnext
    apply h.goOn hget (by rw [hc]; exact nofun)
    · split <;> exact nofun
    · split
      · exact nofun
      · next hsome =>
        intro _ hnone
        rw [hnone] at hsome
        exact hsome rfl
  · rw [hc] at hnext hC
    cases hnext
    have hmade := h.create (Option.isNone_iff_eq_none.mp hC) b.blocks (b.blocks + 1)
    exact hmade.goOn hget (by rw [hc]; exact nofun) nofun (fun _ => nofun)
  · rw [hc] at hnext hC
    cases hnext
    apply h.append hget hc
    · intro block hblock
      rw [hblock] at hC
      simpa using hC
    · intro failed hfailed
      rw [hfailed] at hC
      cases hC
  · rw [hc] at hnext
    simp only at hnext
    split at hnext
    · cases hnext
    · next hfree =>
      cases hnext
      exact h.count hget hc (by simpa using hfree)

/-! ## Steps of a flush -/

/-- Another place in the flush, with the same text in the buffer. -/
theorem BufferKept.at (h : BufferKept b) (hbuffered : b'.buffered = b.buffered)
    (hnone : b.insertBuffer ≠ none → b'.insertBuffer ≠ none) (hadding : b'.adding = b.adding)
    (hadded : b'.added = b.added) (hexecuted : b'.executed = b.executed)
    (hbefore : ∀ failed, b.flush ≠ some (.executed failed))
    (hafter : ∀ failed, b'.flush ≠ some (.executed failed))
    (hnoticed : b'.unexecuted = b.unexecuted → b'.Noticed)
    (hhanded : ∀ block, b'.flush = some (.waiting block) →
      ∃ text, b'.insertBuffer = some ⟨block, text⟩) : BufferKept b' := by
  have hun : b'.unexecuted = b.unexecuted := by
    rw [unexecuted_of_ne hafter, unexecuted_of_ne hbefore, hbuffered]
  refine ⟨accounted_iff.mpr fun q => ?_, hnoticed hun, fun d hd hp => ?_, hhanded, hafter true⟩
  · have hq := accounted_iff.mp h.accounted q
    rw [hun, hexecuted, hadded, unappended, hadding]
    exact hq
  · rw [hadding] at hd
    exact hnone (h.present d hd hp)

theorem BufferKept.lock (h : BufferKept b) (hstep : b.onLock = some b') : BufferKept b' := by
  unfold onLock at hstep
  split at hstep
  · cases hstep
  · next hfree =>
    cases hstep
    have hfree : b.flush = none := by
      simp only [Bool.or_eq_true, not_or] at hfree
      simpa using hfree.2
    have hflush : ∀ progress, progress ≠ FlushProgress.started →
        (if b.insertBufferEmpty then none else some FlushProgress.started) ≠ some progress := by
      intro progress hne heq
      split at heq
      · cases heq
      · cases heq
        exact hne rfl
    refine h.at rfl id rfl rfl rfl (fun failed => by rw [hfree]; exact nofun)
      (fun failed => hflush _ nofun) (fun hun => ?_)
      fun block hblock => absurd hblock (hflush _ nofun)
    rcases h.noticed with hnone | hcall | ⟨hset, -, -⟩
    · exact Or.inl (hun.trans hnone)
    · exact Or.inr (Or.inl hcall)
    · exact Or.inr (Or.inr ⟨hset, hflush _ nofun, hflush _ nofun⟩)

/-- What a flush that has come to its end leaves has been appended since, by calls that will say
    so. -/
theorem BufferKept.noticed_end (h : BufferKept b)
    (hflush : b.flush = some .cleared ∨ b.flush = some .done) :
    b.unexecuted = [] ∨ ∃ c ∈ b.adding, c.progress = .appended := by
  rcases h.noticed with hnone | hcall | ⟨-, hcleared, hdone⟩
  · exact Or.inl hnone
  · exact Or.inr hcall
  · rcases hflush with hflush | hflush
    · exact absurd hflush hcleared
    · exact absurd hflush hdone

theorem append_ne_none {piece : SqlPiece} (h : b.insertBuffer ≠ none) :
    (b.append piece moves).insertBuffer ≠ none :=
  fun hnone => h (Option.map_eq_none_iff.mp hnone)

theorem buffered_of_none (h : b.insertBuffer = none) : b.buffered = [] := by
  unfold buffered
  rw [h]

/-- COMMIT and BEGIN add no statement. -/
theorem buffered_append_mark {piece : SqlPiece} (h : piece.query? = none) :
    (b.append piece moves).buffered = b.buffered := by
  rcases hb : b.insertBuffer with _ | buffer
  · rw [buffered_of_none hb, buffered_of_none (Option.map_eq_none_iff.mpr hb)]
  · rw [buffered_append piece moves (by rw [hb]; exact nofun), h]
    exact List.append_nil _

theorem BufferKept.flushing (h : BufferKept b) (hstep : b.onFlushing moves = some b') :
    BufferKept b' := by
  unfold onFlushing at hstep
  split at hstep
  · cases hstep
  · next hflush =>
    have hbefore : ∀ failed, b.flush ≠ some (.executed failed) := by
      rw [hflush]
      exact nofun
    split at hstep
    · next hnone =>
      cases hstep
      refine h.at rfl id rfl rfl rfl hbefore nofun (fun _ => Or.inl ?_) nofun
      exact buffered_of_none (Option.isNone_iff_eq_none.mp hnone)
    · cases hstep
      refine h.at (buffered_append_mark rfl) append_ne_none rfl rfl rfl hbefore nofun
        (fun hun => ?_) nofun
      rcases h.noticed with hnone | hcall | ⟨hset, -, -⟩
      · exact Or.inl (hun.trans hnone)
      · exact Or.inr (Or.inl hcall)
      · exact Or.inr (Or.inr ⟨hset, nofun, nofun⟩)
  · next hflush =>
    obtain ⟨buffer, hbuffer, rfl⟩ := Option.map_eq_some_iff.mp hstep
    refine h.at rfl id rfl rfl rfl (by rw [hflush]; exact nofun) nofun (fun hun => ?_) ?_
    · rcases h.noticed with hnone | hcall | ⟨hset, -, -⟩
      · exact Or.inl (hun.trans hnone)
      · exact Or.inr (Or.inl hcall)
      · exact Or.inr (Or.inr ⟨hset, nofun, nofun⟩)
    · intro block hblock
      cases hblock
      exact ⟨buffer.text, hbuffer⟩
  · cases hstep
  · next failed hflush =>
    rcases failed with _ | _
    · -- what is cleared has been executed
      cases hstep
      have hnone : unexecuted { b with
          insertBuffer := b.insertBuffer.map fun buffer => { buffer with text := [] }
          flush := some .cleared } = [] := by
        unfold unexecuted buffered
        rcases b.insertBuffer with _ | buffer
        · rfl
        · rfl
      have hbefore : b.unexecuted = [] := by
        unfold unexecuted
        rw [hflush]
      refine ⟨accounted_iff.mpr fun q => ?_, Or.inl hnone, fun d hd hp heq => ?_, nofun, nofun⟩
      · have hq := accounted_iff.mp h.accounted q
        rw [hnone]
        rw [hbefore] at hq
        exact hq
      · exact h.present d hd hp (Option.map_eq_none_iff.mp heq)
    · exact absurd hflush h.succeeded
  · next hflush =>
    cases hstep
    refine h.at (buffered_append_mark rfl) append_ne_none rfl rfl rfl (by rw [hflush]; exact nofun)
      nofun (fun hun => ?_) nofun
    rcases h.noticed_end (Or.inl hflush) with hnone | hcall
    · exact Or.inl (hun.trans hnone)
    · exact Or.inr (Or.inl hcall)
  · next hflush =>
    cases hstep
    refine h.at rfl id rfl rfl rfl (by rw [hflush]; exact nofun) nofun (fun hun => ?_) nofun
    rcases h.noticed_end (Or.inr hflush) with hnone | hcall
    · exact Or.inl (hun.trans hnone)
    · exact Or.inr (Or.inl hcall)

/-- **The SQLite thread** executes what is in the buffer. -/
theorem BufferKept.sqlite {stale : List SqlPiece} {fails : Option Nat} (h : BufferKept b)
    (hC : Undisturbed b (.sqlite stale fails)) (hstep : b.onSqlite stale fails = some b') :
    BufferKept b' := by
  have hfails : fails = none := Option.isNone_iff_eq_none.mp hC
  subst hfails
  unfold onSqlite at hstep
  split at hstep
  · next block hflush =>
    cases hstep
    obtain ⟨text, htext⟩ := h.handed block hflush
    have hread : sqlQueries (b.textAt block stale) = b.unexecuted := by
      rw [unexecuted_of_ne (by rw [hflush]; exact nofun)]
      unfold textAt buffered
      rw [htext]
      simp only [if_true]
    refine ⟨accounted_iff.mpr fun q => ?_, Or.inl rfl, h.present, nofun, nofun⟩
    have hq := accounted_iff.mp h.accounted q
    show (b.executed ++ sqlQueries (b.textAt block stale)).count q + List.count q [] +
      b.unappended.count q = b.added.count q
    rw [hread, List.count_append, List.count_nil]
    exact hq
  · cases hstep

theorem BufferKept.step {e : InsertBufferEvent} (h : BufferKept b) (hC : Undisturbed b e)
    (hstep : b.step e = some b') : BufferKept b' := by
  cases e with
  | add query =>
    cases hstep
    exact h.call query
  | adding i moves => exact h.adding hC hstep
  | flush =>
    cases hstep
    exact ⟨h.accounted, h.noticed, h.present, h.handed, h.succeeded⟩
  | lock => exact h.lock hstep
  | flushing moves => exact h.flushing hstep
  | sqlite stale fails => exact h.sqlite hC hstep

theorem bufferKept_init : BufferKept {} :=
  ⟨List.Perm.refl _, Or.inl rfl, nofun, nofun, nofun⟩

/-! ## The last flush -/

/-- All additions are over, and a flush is still to come, or under way, or not needed. -/
def Settling (b : InsertBuffer) : Prop :=
  b.adding = [] ∧ (0 < b.flushing ∨ b.flush ≠ none ∨ b.unexecuted = [])

theorem BufferKept.unexecuted_of_empty (h : BufferKept b) (hadding : b.adding = [])
    (hempty : b.insertBufferEmpty = true ∨ b.flush = some .cleared ∨ b.flush = some .done) :
    b.unexecuted = [] := by
  rcases h.noticed with hnone | ⟨c, hc, -⟩ | ⟨hset, hcleared, hdone⟩
  · exact hnone
  · rw [hadding] at hc
    cases hc
  · rcases hempty with hempty | hflush | hflush
    · rw [hset] at hempty
      cases hempty
    · exact absurd hflush hcleared
    · exact absurd hflush hdone

/-- A flush that gets the mutex finds the flag set, or nothing to do. -/
theorem Settling.lock (h : BufferKept b) (hadding : b.adding = [])
    (hstep : b.onLock = some b') : b'.Settling := by
  unfold onLock at hstep
  split at hstep
  · cases hstep
  · next hfree =>
    cases hstep
    refine ⟨hadding, Or.inr ?_⟩
    by_cases hempty : b.insertBufferEmpty = true
    · right
      have hflush : b.flush = none := by
        simp only [Bool.or_eq_true, not_or] at hfree
        simpa using hfree.2
      have hnone := h.unexecuted_of_empty hadding (Or.inl hempty)
      rw [unexecuted_of_ne (by rw [hflush]; exact nofun)] at hnone
      unfold unexecuted
      simp only [if_pos hempty]
      exact hnone
    · left
      simp only [if_neg hempty]
      exact nofun

theorem Settling.flushing (h : BufferKept b) (hset : b.Settling)
    (hstep : b.onFlushing moves = some b') : b'.Settling := by
  obtain ⟨hadding, -⟩ := hset
  unfold onFlushing at hstep
  split at hstep
  · cases hstep
  · split at hstep <;> (cases hstep; exact ⟨hadding, Or.inr (Or.inl nofun)⟩)
  · obtain ⟨buffer, -, rfl⟩ := Option.map_eq_some_iff.mp hstep
    exact ⟨hadding, Or.inr (Or.inl nofun)⟩
  · cases hstep
  · next failed hflush =>
    rcases failed with _ | _
    · cases hstep
      exact ⟨hadding, Or.inr (Or.inl nofun)⟩
    · exact absurd hflush h.succeeded
  · cases hstep
    exact ⟨hadding, Or.inr (Or.inl nofun)⟩
  · next hflush =>
    cases hstep
    refine ⟨hadding, Or.inr (Or.inr ?_)⟩
    have hnone := h.unexecuted_of_empty hadding (Or.inr (Or.inr hflush))
    rw [unexecuted_of_ne (by rw [hflush]; exact nofun)] at hnone
    exact hnone

theorem Settling.step {e : InsertBufferEvent} (h : BufferKept b) (hset : b.Settling)
    (hadd : ∀ query, e ≠ .add query) (hstep : b.step e = some b') : b'.Settling := by
  cases e with
  | add query => exact absurd rfl (hadd query)
  | adding i moves =>
    have hnone : b.onAdding i moves = none := by
      unfold onAdding
      rw [hset.1]
      rfl
    cases hnone.symm.trans hstep
  | flush =>
    cases hstep
    exact ⟨hset.1, Or.inl (Nat.succ_pos _)⟩
  | lock => exact Settling.lock h hset.1 hstep
  | flushing moves => exact hset.flushing h hstep
  | sqlite stale fails =>
    have hsqlite : b.onSqlite stale fails = some b' := hstep
    unfold onSqlite at hsqlite
    split at hsqlite
    · cases hsqlite
      exact ⟨hset.1, Or.inr (Or.inl nofun)⟩
    · cases hsqlite

end

end InsertBuffer

open InsertBuffer

/-- Two threads add, one flushes while the other is between appending and counting. -/
def quietRun : List InsertBufferEvent :=
  [.add "a", .adding 0 false, .adding 0 false, .add "b", .adding 1 false, .adding 0 false,
    .adding 0 false, .flush, .lock, .adding 0 true, .flushing false, .flushing false, .sqlite [] none,
    .flushing false, .flushing false, .flushing false, .adding 0 false, .flush, .lock,
    .flushing false, .flushing false, .sqlite [] none, .flushing false, .flushing false,
    .flushing false]

/-- A thread appends after SQLite has read the text, and before the flush clears it. -/
def lossyRun : List InsertBufferEvent :=
  [.add "a", .adding 0 false, .adding 0 false, .adding 0 false, .adding 0 false, .flush, .lock,
    .flushing false, .flushing false, .sqlite [] none, .add "b", .adding 0 false, .adding 0 false,
    .flushing false, .flushing false, .flushing false, .adding 0 false, .flush, .lock,
    .flushing false, .flushing false, .sqlite [] none, .flushing false, .flushing false,
    .flushing false]

end MediaTomb
