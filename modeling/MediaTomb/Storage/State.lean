/-
  The state of an `SQLStorage` and the sections its methods are made of.

  A method is a `Storage` program.  One SELECT, one executed statement, one critical section and
  one increment of `lastID` are each ONE section.  With caching enabled, `addObject` does not execute
  its INSERTs: it appends them to the insert buffer, which the Sqlite driver keeps as one text and
  executes at the next flush.

  The last three fields of the state are history: no method reads them.  They record which
  statements were ever buffered, which buffered statements were ever executed, and for which
  inserted rows the cached child count of the parent has not been told yet.
-/
import MediaTomb.Lib.Prog
import MediaTomb.Storage.Cache

namespace MediaTomb

/-! ## Statements the buffer holds -/

/-- An INSERT: its text and the row it writes. -/
inductive Statement where
  | insertObject (text : Str) (row : ObjectRow)
  | insertActiveItem (text : Str) (row : ActiveItemRow)
  deriving DecidableEq

namespace Statement

def text : Statement → Str
  | insertObject t _ => t
  | insertActiveItem t _ => t

def objectRow? : Statement → Option ObjectRow
  | insertObject _ r => some r
  | insertActiveItem _ _ => none

/-- What Sqlite reports when a key is taken. -/
def constraintError : Exception := .exception (str "PRIMARY KEY must be unique")

def exec (db : Database) : Statement → Except Exception Database
  | insertObject _ r =>
    match db.insertObject? r with
    | some db' => .ok db'
    | none => .error constraintError
  | insertActiveItem _ r =>
    match db.insertActiveItem? r with
    | some db' => .ok db'
    | none => .error constraintError

/-- The statements one after the other, up to the first that fails. -/
def execAll : List Statement → Database → Option Exception × Database
  | [], db => (none, db)
  | q :: qs, db =>
    match q.exec db with
    | .ok db' => execAll qs db'
    | .error e => (some e, db)

end Statement

/-! ## The state -/

structure StorageState where
  db : Database
  cache : Option StorageCache
  insertBufferOn : Bool
  insertBuffer : List Statement := []
  insertBufferEmpty : Bool := true
  insertBufferStatementCount : Nat := 0
  insertBufferByteCount : Nat := 0
  lastID : Int
  fsRootName : Option Str := none
  /-- The file system to internal character set converter, made from the configuration. -/
  f2i : Str → Except Exception Str
  /-- History: every statement ever appended to the buffer, oldest first. -/
  buffered : List Statement := []
  /-- History: every buffered statement ever executed, in order of execution. -/
  executed : List Statement := []
  /-- History: the parents of inserted rows for which `addChild` has not run. -/
  uncounted : List Int := []

abbrev Storage : Type → Type 1 := Lib.Prog StorageState Exception

namespace StorageState

/-- The object rows whose INSERT is still buffered. -/
def bufferedRows (s : StorageState) : List ObjectRow :=
  s.insertBuffer.filterMap Statement.objectRow?

/-- The object rows, those still in the insert buffer included. -/
def rows (s : StorageState) : List ObjectRow := s.db.objects.rows ++ s.bufferedRows

/-- A storage that has just been started on a database, with caching enabled or not. -/
def started (db : Database) (cachingEnabled : Bool) (f2i : Str → Except Exception Str) :
    StorageState where
  db := db
  cache := if cachingEnabled then some StorageCache.empty else none
  insertBufferOn := cachingEnabled
  lastID := db.maxID
  f2i := f2i

/-- `init` and `loadLastID`. -/
def init (db : Database) (cachingEnabled : Bool) (f2i : Str → Except Exception Str) :
    Except Exception StorageState :=
  if db.maxID < cdsIdFsRoot then
    .error (.exception (str "could not load correct lastID (db not initialized?)"))
  else .ok (started db cachingEnabled f2i)

end StorageState

open Lib.Prog

/-! ## Statements and critical sections -/

/-- One SELECT. -/
def select {α : Type} (query : Database → α) : Storage α := read fun s => query s.db

/-- One statement that cannot fail. -/
def exec (statement : Database → Database) : Storage Unit :=
  modify fun s => { s with db := statement s.db }

/-- One statement that fails when it would break a key. -/
def exec? (statement : Database → Option Database) : Storage Unit := locked do
  let s ← get
  match statement s.db with
  | some db => modify fun s => { s with db := db }
  | none => throw Statement.constraintError

theorem run_exec? (statement : Database → Option Database) (s : StorageState) :
    (exec? statement).run s = match statement s.db with
      | some db => (.ok (), { s with db := db })
      | none => (.error Statement.constraintError, s) := by
  unfold exec?
  rw [run_locked, run_get_bind]
  rcases statement s.db with _ | db <;> rfl

def cacheOn : Storage Bool := read fun s => s.cache.isSome

def modifyCache (f : StorageCache → StorageCache) : Storage Unit :=
  modify fun s => { s with cache := s.cache.map f }

/-- `getNextID`. -/
def getNextID : Storage {id : Int // cdsIdFsRoot < id} := locked do
  let s ← get
  if h : s.lastID < cdsIdFsRoot then
    throw (.exception
      (str "SQLStorage::getNextID() called, but lastID hasn't been loaded correctly yet"))
  else do
    modify fun s => { s with lastID := s.lastID + 1 }
    pure ⟨s.lastID + 1, Int.lt_add_one_of_le (Int.not_lt.mp h)⟩

/-! ## The insert buffer -/

/-- `Sqlite3Storage::_addToInsertBuffer`. -/
def addToInsertBuffer_ (query : Statement) : Storage Unit :=
  modify fun s =>
    { s with
      insertBuffer := s.insertBuffer ++ [query]
      buffered := s.buffered ++ [query]
      uncounted := s.uncounted ++ (query.objectRow?.map ObjectRow.parentID).toList }

/-- `Sqlite3Storage::_flushInsertBuffer`: the text is dropped once it has been executed. -/
def flushInsertBuffer_ : Storage Unit := do
  let s ← get
  match Statement.execAll s.insertBuffer s.db with
  | (none, db) => modify fun s =>
      { s with db := db, insertBuffer := [], executed := s.executed ++ s.insertBuffer }
  | (some e, db) => do
      modify fun s => { s with db := db }
      throw e

def flushInsertBuffer : Storage Unit := locked do
  let s ← get
  if !s.insertBufferOn then pure ()
  else if s.insertBufferEmpty then pure ()
  else do
    flushInsertBuffer_
    modify fun s =>
      { s with
        insertBufferEmpty := true
        insertBufferStatementCount := 0
        insertBufferByteCount := 0 }

def insertBufferMaxBytes : Nat := 102400

def addToInsertBuffer (query : Statement) : Storage Unit := do
  addToInsertBuffer_ query
  locked do
    modify fun s =>
      { s with
        insertBufferEmpty := false
        insertBufferStatementCount := s.insertBufferStatementCount + 1
        insertBufferByteCount := s.insertBufferByteCount + query.text.length }
    let s ← get
    if insertBufferMaxBytes < s.insertBufferByteCount then flushInsertBuffer else pure ()

/-! ## The cache -/

/-- `if (cache->flushed()) flushInsertBuffer();` -/
def flushIfFlushed : Storage Unit := do
  let s ← get
  match s.cache with
  | none => pure ()
  | some c => do
    modifyCache fun c => c.flushed.2
    if c.flushed.1 then flushInsertBuffer else pure ()

/-- `cache->addChild(parentID)`. -/
def addChild (parentID : Int) : Storage Unit :=
  modify fun s =>
    { s with
      cache := s.cache.map fun c => c.addChild parentID
      uncounted := s.uncounted.erase parentID }

/-- Write to the cache object of `id` through the reference `getObjectDefinitely` returned. -/
def StorageCache.modifyObject (c : StorageCache) (id : Int) (f : CacheObject → CacheObject) :
    StorageCache := c.store id (f ((c.getObject id).getD {}))

/-- `addObjectToCache(object, true)`: the caller holds the lock. -/
def addObjectToCacheLocked (object : CdsObject) : Storage Unit := do
  modifyCache fun c => (c.getObjectDefinitely object.id).2
  flushIfFlushed
  modifyCache fun c =>
    let cObj := ((c.getObject object.id).getD {}).setObject object
    (c.store object.id cObj).checkLocation object.id cObj

/-- `addObjectToCache(object)`. -/
def addObjectToCache (object : CdsObject) : Storage Unit := do
  if ← cacheOn then locked (addObjectToCacheLocked object) else pure ()

end MediaTomb
