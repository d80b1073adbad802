/-
  The requests of the web interface (`web_request_handler.cc`, `web/auth.cc`, `session_manager.cc`).

  Every request is answered by one of fourteen PAGES.  A page fills the root element of the reply,
  and `open` adds the current task and the update ids to it, or the error the page threw.  Thirteen
  pages begin with `check_request`, which wants a session that is logged in; the fourteenth, `auth`,
  is there to log in and calls it in both modes.

    * what a page does after its check is a parameter (`Env.body`): it may do anything to the
      objects, the file system and the tasks (the `World`), and no more than tell the sessions
      which containers have changed;
    * `md5` and the random ids are given functions;
    * a request is a program over the server, so what was done before an exception stays done.

  Time is in seconds, as `get_time` has it.  Which sessions have been idle for too long is left open:
  any may time out at any moment.
-/
import MediaTomb.Lib.Prog
import MediaTomb.Lib.Machine
import MediaTomb.Mxml.XmlToJson
import MediaTomb.Dictionary

namespace MediaTomb

open Lib

/-! ## Sessions -/

structure Session where
  id : Str
  loggedIn : Bool := false
  /-- what `put` and `get` of the session work on -/
  data : Dictionary := .empty
  uiUpdateIDs : List Int := []
  updateAll : Bool := false

/-- `MAX_UI_UPDATE_IDS` -/
def maxUIUpdateIDs : Nat := 10

/-- What `containerChangedUI` is called with. -/
inductive Notice
  | one (objectID : Int)
  | many (objectIDs : List Int)

namespace Session

/-- `put` into the hash of update ids. -/
def putUpdateID (ids : List Int) (id : Int) : List Int := if id ∈ ids then ids else ids ++ [id]

def containerChangedUI (session : Session) : Notice → Session
  | .one objectID =>
    if objectID = invalidObjectID || session.updateAll then session
    else if maxUIUpdateIDs ≤ session.uiUpdateIDs.length then
      { session with updateAll := true, uiUpdateIDs := [] }
    else { session with uiUpdateIDs := putUpdateID session.uiUpdateIDs objectID }
  | .many objectIDs =>
    if session.updateAll then session
    else if maxUIUpdateIDs ≤ session.uiUpdateIDs.length + objectIDs.length then
      { session with updateAll := true, uiUpdateIDs := [] }
    else { session with uiUpdateIDs := objectIDs.foldl putUpdateID session.uiUpdateIDs }

def hasUIUpdateIDs (session : Session) : Bool :=
  session.updateAll || 0 < session.uiUpdateIDs.length

/-- `getUIUpdateIDs`: the ids, and the session without them. -/
def getUIUpdateIDs (session : Session) : Option Str × Session :=
  if !session.hasUIUpdateIDs then (none, session)
  else if session.updateAll then (some (str "all"), { session with updateAll := false })
  else (some ([','.toUInt8].intercalate (session.uiUpdateIDs.map fromInt)),
    { session with uiUpdateIDs := [] })

def clearUpdateIDs (session : Session) : Session :=
  { session with uiUpdateIDs := [], updateAll := false }

def logIn (session : Session) : Session := { session with loggedIn := true }

def put (session : Session) (key value : Str) : Session :=
  { session with data := session.data.put key value }

/-- `SessionManager::containerChangedUI` reaches those who are logged in. -/
def notify (notices : List Notice) (session : Session) : Session :=
  if session.loggedIn then notices.foldl containerChangedUI session else session

/-- A notice is kept with the update ids. -/
theorem containerChangedUI_frame (session : Session) (n : Notice) :
    (session.containerChangedUI n).id = session.id ∧
      (session.containerChangedUI n).loggedIn = session.loggedIn ∧
      (session.containerChangedUI n).data = session.data := by
  cases n with
  | one objectID =>
    simp only [containerChangedUI]
    split_ifs <;> exact ⟨rfl, rfl, rfl⟩
  | many objectIDs =>
    simp only [containerChangedUI]
    split_ifs <;> exact ⟨rfl, rfl, rfl⟩

theorem notify_frame (notices : List Notice) (session : Session) :
    (session.notify notices).id = session.id ∧
      (session.notify notices).loggedIn = session.loggedIn ∧
      (session.notify notices).data = session.data := by
  have hall : ∀ (session : Session), (notices.foldl containerChangedUI session).id = session.id ∧
      (notices.foldl containerChangedUI session).loggedIn = session.loggedIn ∧
      (notices.foldl containerChangedUI session).data = session.data := by
    induction notices with
    | nil => exact fun _ => ⟨rfl, rfl, rfl⟩
    | cons n notices ih =>
      intro session
      obtain ⟨hid, hlogged, hdata⟩ := ih (session.containerChangedUI n)
      obtain ⟨hid', hlogged', hdata'⟩ := containerChangedUI_frame session n
      exact ⟨hid.trans hid', hlogged.trans hlogged', hdata.trans hdata'⟩
  unfold notify
  split
  · exact hall session
  · exact ⟨rfl, rfl, rfl⟩

end Session

abbrev Sessions : Type := Table Session.id

/-! ## The server -/

/-- A task as the interface shows it. -/
structure TaskEntry where
  id : Int
  cancellable : Bool
  description : Str

/-- What the interface is there to show and change: the current task, and in `objects` the object
    store, the file system, the autoscan directories and all other tasks. -/
structure World (O : Type) where
  objects : O
  currentTask : Option TaskEntry

structure Server (O : Type) where
  sessions : Sessions := .empty
  /-- how many random ids have been drawn -/
  drawn : Nat := 0
  now : Nat := 0
  world : World O

inductive WebException
  | login (message : Str)
  | session (message : Str)
  | other (e : Exception)

inductive Page
  | add | remove | addObject | auth | containers | directories | files | items | editLoad
  | editSave | autoscan | voidType | tasks | action
  deriving DecidableEq

/-- `create_web_request_handler` -/
def createWebRequestHandler (page : Str) : Except Exception Page :=
  if page = str "add" then .ok .add
  else if page = str "remove" then .ok .remove
  else if page = str "add_object" then .ok .addObject
  else if page = str "auth" then .ok .auth
  else if page = str "containers" then .ok .containers
  else if page = str "directories" then .ok .directories
  else if page = str "files" then .ok .files
  else if page = str "items" then .ok .items
  else if page = str "edit_load" then .ok .editLoad
  else if page = str "edit_save" then .ok .editSave
  else if page = str "autoscan" then .ok .autoscan
  else if page = str "void" then .ok .voidType
  else if page = str "tasks" then .ok .tasks
  else if page = str "action" then .ok .action
  else .error (.exception (str "Unknown page: " ++ page))

structure WebConfig where
  uiEnabled : Bool := true
  accountsEnabled : Bool := true
  /-- the passwords of the users -/
  accounts : Dictionary := .empty
  showTooltips : Bool := true
  pollWhenIdle : Bool := false
  pollInterval : Int := 2
  defaultItemsPerPage : Int := 25
  itemsPerPage : List Str := []
  haveInotify : Bool := true
  refreshYoutube : Bool := false

/-- What a page has done after its check. -/
structure BodyResult (O : Type) where
  world : World O
  notices : List Notice := []
  children : List Node := []
  result : Except WebException Unit := .ok ()

/-- What the requests rely on. -/
structure Env (O : Type) where
  cfg : WebConfig
  md5 : Str → Str
  /-- the random ids in the order they are drawn -/
  randomID : Nat → Str
  body : Page → Dictionary → World O → BodyResult O

/-- A request at work: the server, and what the reply has by now. -/
structure Request (O : Type) where
  server : Server O
  attributes : List Attribute := []
  children : List Node := []
  checkRequestCalled : Bool := false
  session : Option Session := none

section

variable {O : Type}

abbrev RequestM (O : Type) : Type → Type 1 := Prog (Request O) WebException

namespace Request

def mapServer (f : Server O → Server O) (r : Request O) : Request O := { r with server := f r.server }

def mapSessions (f : Sessions → Sessions) (r : Request O) : Request O :=
  r.mapServer fun s => { s with sessions := f s.sessions }

end Request

/-- Change one session. -/
def modifySession (sessions : Sessions) (id : Str) (f : Session → Session)
    (hf : ∀ s, (f s).id = s.id) : Sessions :=
  sessions.update (fun s => if s.id = id then f s else s) fun s => by
    split
    · exact hf s
    · rfl

/-! ## `session_manager.cc` -/

def generateRandomID (env : Env O) : RequestM O Str := do
  let id ← Prog.read fun r => env.randomID r.server.drawn
  Prog.modify fun r => r.mapServer fun s => { s with drawn := s.drawn + 1 }
  return id

def getSession (sid : Str) : RequestM O (Option Session) :=
  Prog.read fun r => r.server.sessions.find? sid

def tooManyIDs (id : Str) : WebException :=
  .other (.exception (str "There seems to be something wrong with the random numbers. I tried to " ++
    str "get a unique id 100 times and failed. last sessionID: " ++ id))

/-- The loop of `createSession`: an id no session has. -/
def freshSessionID (env : Env O) : Nat → RequestM O Str
  | 0 => do
    let id ← generateRandomID env
    Prog.throw (tooManyIDs id)
  | fuel + 1 => do
    let id ← generateRandomID env
    let taken ← getSession id
    if taken.isSome then freshSessionID env fuel else return id

def insertSession (sessions : Sessions) (session : Session) : Sessions :=
  (sessions.insert? session).getD sessions

def createSession (env : Env O) : RequestM O Session := do
  let id ← freshSessionID env 101
  Prog.modify fun r => r.mapSessions fun sessions => insertSession sessions { id }
  return { id }

def removeSession (sid : Str) : RequestM O Unit :=
  Prog.modify fun r => r.mapSessions fun sessions => sessions.delete fun s => s.id = sid

/-! ## `web_request_handler.cc` -/

/-- `check_request` -/
def checkRequest (params : Dictionary) (checkLogin : Bool) : RequestM O Unit := do
  Prog.modify fun r => { r with checkRequestCalled := true }
  match params.get (str "sid") with
  | none => Prog.throw (.session (str "no session id given"))
  | some sid => do
    let session ← getSession sid
    Prog.modify fun r => { r with session := session }
    match session with
    | none => Prog.throw (.session (str "invalid session id"))
    | some s =>
      if checkLogin && !s.loggedIn then Prog.throw (.login (str "not logged in"))
      else return ()

def setAttribute (name value : Str) (type : ValueType) : RequestM O Unit :=
  Prog.modify fun r => { r with attributes := r.attributes ++ [⟨name, value, type⟩] }

def appendChild (el : Element) : RequestM O Unit :=
  Prog.modify fun r => { r with children := r.children ++ [.element el] }

/-- `appendTextChild` -/
def textElement (name text : Str) (type : ValueType) : Element :=
  .mk name [] false none none [.text text type]

def boolText (b : Bool) : Str := if b then str "1" else str "0"

/-- What `appendTask` makes of a task. -/
def taskElement (task : TaskEntry) : Element :=
  .mk (str "task") [⟨str "id", fromInt task.id, .int⟩,
    ⟨str "cancellable", boolText task.cancellable, .bool⟩] false none (some (str "text"))
    [.text task.description .string]

/-- `appendTask(root, getCurrentTask())` -/
def appendCurrentTask : RequestM O Unit := do
  let task ← Prog.read fun r => r.server.world.currentTask
  match task with
  | none => return ()
  | some task => appendChild (taskElement task)

/-- The element of `handleUpdateIDs` for a session, and the session as it is left. -/
def updateIDsElement (updates : Str) (session : Session) : Element × Session :=
  if updates = str "check" then
    (.mk (str "update_ids") [⟨str "pending", boolText session.hasUIUpdateIDs, .bool⟩] false none
      none [], session)
  else if updates = str "get" then
    match session.getUIUpdateIDs with
    | (some (c :: ids), session) =>
      (.mk (str "update_ids") [⟨str "updates", str "1", .bool⟩] false none (some (str "ids"))
        [.text (c :: ids) .string], session)
    | (_, session) => (.mk (str "update_ids") [] false none none [], session)
  else (.mk (str "update_ids") [] false none none [], session)

/-- The session of the request as it is now; after a logout the manager has it no longer. -/
def currentSession (r : Request O) : Option Session :=
  r.session.map fun session => (r.server.sessions.find? session.id).getD session

theorem updateIDsElement_id (updates : Str) (session : Session) :
    (updateIDsElement updates session).2.id = session.id := by
  have hget : session.getUIUpdateIDs.2.id = session.id := by
    unfold Session.getUIUpdateIDs
    split_ifs <;> rfl
  unfold updateIDsElement
  split_ifs
  · rfl
  · split
    · next h =>
      rw [h] at hget
      exact hget
    · next h =>
      rw [h] at hget
      exact hget
  · rfl

/-- `handleUpdateIDs` -/
def handleUpdateIDs (params : Dictionary) : RequestM O Unit :=
  match params.get (str "updates") with
  | none | some [] => return ()
  | some updates => do
    let session ← Prog.read currentSession
    match session with
    | none => return ()
    | some session => do
      appendChild (updateIDsElement updates session).1
      Prog.modify fun r => r.mapSessions fun sessions =>
        modifySession sessions session.id (fun s => (updateIDsElement updates s).2)
          (updateIDsElement_id updates)

/-! ## `web/auth.cc` -/

/-- `LOGIN_TIMEOUT` -/
def loginTimeout : Nat := 10

/-- A token: when it expires, and a salt. -/
def tokenText (expiration : Nat) (salt : Str) : Str := fromInt expiration ++ '_'.toUInt8 :: salt

def generateToken (env : Env O) : RequestM O Str := do
  let now ← Prog.read fun r => r.server.now
  let salt ← generateRandomID env
  return tokenText (now + loginTimeout) salt

def checkToken (md5 : Str → Str) (now : Nat) (token : Option Str) (password encPassword : Str) :
    Bool :=
  match splitString token '_'.toUInt8 false with
  | [expiration, _] =>
    if toInt (some expiration) < now then false
    else md5 (token.getD [] ++ password) = encPassword
  | _ => false

def configElement (cfg : WebConfig) : Element :=
  let ipp : Element := .mk (str "items-per-page")
    [⟨str "default", fromInt cfg.defaultItemsPerPage, .int⟩] true (some (str "option")) none
    (cfg.itemsPerPage.map fun n => .element (textElement (str "option") n .int))
  let actions : Element := .mk (str "actions") [] true (some (str "action")) none
    (if cfg.refreshYoutube then [.element (textElement (str "action") (str "refresh_yt") .string)]
      else [])
  .mk (str "config") [⟨str "accounts", boolText cfg.accountsEnabled, .bool⟩,
    ⟨str "show-tooltips", boolText cfg.showTooltips, .bool⟩,
    ⟨str "poll-when-idle", boolText cfg.pollWhenIdle, .bool⟩,
    ⟨str "poll-interval", fromInt cfg.pollInterval, .int⟩,
    ⟨str "have-inotify", boolText cfg.haveInotify, .bool⟩] false none none
    [.element ipp, .element actions]

/-- The session of `get_sid`: the one that was asked for, or a new one. -/
def sidSession (env : Env O) (sid : Option Str) : RequestM O Session := do
  let session ← Prog.read fun r => sid.bind r.server.sessions.find?
  match session with
  | none => do
    let session ← createSession env
    setAttribute (str "sid_was_valid") (str "0") .bool
    return session
  | some session => do
    Prog.modify fun r => r.mapSessions fun sessions =>
      modifySession sessions session.id Session.clearUpdateIDs fun _ => rfl
    setAttribute (str "sid_was_valid") (str "1") .bool
    return session

def getSid (env : Env O) (params : Dictionary) : RequestM O Unit := do
  let session ← sidSession env (params.get (str "sid"))
  setAttribute (str "sid") session.id .string
  if !session.loggedIn && !env.cfg.accountsEnabled then do
    Prog.modify fun r => r.mapSessions fun sessions =>
      modifySession sessions session.id Session.logIn fun _ => rfl
    setAttribute (str "logged_in") (str "1") .bool
  else setAttribute (str "logged_in") (boolText session.loggedIn) .bool

def logout (params : Dictionary) : RequestM O Unit := do
  checkRequest params true
  let sid := (params.get (str "sid")).getD []
  let session ← getSession sid
  if session.isNone then Prog.throw (.other (.exception (str "illegal session id")))
  else removeSession sid

def getToken (env : Env O) (params : Dictionary) : RequestM O Unit := do
  checkRequest params false
  let token ← generateToken env
  Prog.modify fun r => r.mapSessions fun sessions =>
    modifySession sessions ((params.get (str "sid")).getD [])
      (fun s => s.put (str "token") token) fun _ => rfl
  appendChild (textElement (str "token") token .string)

/-- Do the name and the password of a login fit the session's token? -/
def loginFits (env : Env O) (params : Dictionary) (now : Nat) (session : Session) : Bool :=
  match (params.get (str "username")).bind env.cfg.accounts.get with
  | none | some [] => false
  | some correctPassword =>
    checkToken env.md5 now (session.data.get (str "token")) correctPassword
      ((params.get (str "password")).getD [])

def login (env : Env O) (params : Dictionary) : RequestM O Unit := do
  checkRequest params false
  if !stringOk (params.get (str "username")) || !stringOk (params.get (str "password")) then
    Prog.throw (.login (str "Missing username or password"))
  else do
    let sid := (params.get (str "sid")).getD []
    let session ← getSession sid
    let now ← Prog.read fun r => r.server.now
    match session with
    | none => Prog.throw (.other (.exception (str "illegal session id")))
    | some session =>
      if loginFits env params now session then
        Prog.modify fun r => r.mapSessions fun sessions =>
          modifySession sessions sid Session.logIn fun _ => rfl
      else Prog.throw (.login (str "Invalid username or password"))

/-- `web::auth::process` -/
def authProcess (env : Env O) (params : Dictionary) : RequestM O Unit :=
  match params.get (str "action") with
  | none | some [] =>
    appendChild (textElement (str "error") (str "req_type auth: no action given") .string)
  | some action =>
    if action = str "get_config" then appendChild (configElement env.cfg)
    else if action = str "get_sid" then getSid env params
    else if action = str "logout" then logout params
    else if action = str "get_token" then getToken env params
    else if action = str "login" then login env params
    else Prog.throw (.other (.exception (str "illegal action given to req_type auth")))

/-! ## Pages -/

/-- `SessionManager::containerChangedUI`, for all notices. -/
def notifyAll (sessions : Sessions) (notices : List Notice) : Sessions :=
  sessions.update (Session.notify notices) fun session => (session.notify_frame notices).1

/-- What a page does after its check: to the world, to the sessions, to the reply. -/
def runBody (env : Env O) (page : Page) (params : Dictionary) : RequestM O Unit := do
  let done ← Prog.read fun r => env.body page params r.server.world
  Prog.modify fun r =>
    { r with
      children := r.children ++ done.children
      server := { r.server with
        world := done.world
        sessions := notifyAll r.server.sessions done.notices } }
  Prog.ofExcept done.result

/-- A page that begins with its check. -/
def checkedPage (env : Env O) (page : Page) (params : Dictionary) : RequestM O Unit := do
  checkRequest params true
  runBody env page params

/-- `process` of each page. -/
def process (env : Env O) (params : Dictionary) : Page → RequestM O Unit
  | .auth => authProcess env params
  | .voidType => checkRequest params true
  | .add => checkedPage env .add params
  | .remove => checkedPage env .remove params
  | .addObject => checkedPage env .addObject params
  | .containers => checkedPage env .containers params
  | .directories => checkedPage env .directories params
  | .files => checkedPage env .files params
  | .items => checkedPage env .items params
  | .editLoad => checkedPage env .editLoad params
  | .editSave => checkedPage env .editSave params
  | .autoscan => checkedPage env .autoscan params
  | .tasks => checkedPage env .tasks params
  | .action => checkedPage env .action params

/-- What `open` adds when the page has called `check_request`. -/
def wrapper (params : Dictionary) : RequestM O Unit := do
  let called ← Prog.read fun r => r.checkRequestCalled
  if called then do
    appendCurrentTask
    handleUpdateIDs params
  else return ()

/-- The error text and code of an exception. -/
def errorOf : WebException → Str × Int
  | .login message => (message, 300)
  | .session message => (message, 400)
  | .other (.objectNotFound message) => (message, 200)
  | .other (.storage message) => (message, 500)
  | .other (.exception message) => (str "Error: " ++ message, 800)

def rootElement (attributes : List Attribute) (children : List Node) : Element :=
  .mk (str "root") attributes false none none children

/-- The root of a reply; `error` is empty where there was none. -/
def replyElement (attributes : List Attribute) (children : List Node) (error : Str × Int) :
    Element :=
  if error.1 = [] then rootElement (attributes ++ [⟨str "success", str "1", .bool⟩]) children
  else
    rootElement (attributes ++ [⟨str "success", str "0", .bool⟩]) (children ++ [.element
      (.mk (str "error") [⟨str "code", fromInt error.2, .string⟩] false none (some (str "text"))
        [.text error.1 .string])])

def uiDisabled : Str :=
  str "The UI is disabled in the configuration file. See README."

/-- `open`: the root element of the reply, and the server afterwards. -/
def openRequest (env : Env O) (page : Page) (params : Dictionary) (server : Server O) :
    Element × Server O :=
  if env.cfg.uiEnabled then
    match (do process env params page; wrapper params : RequestM O Unit).run { server } with
    | (.ok (), r) => (replyElement r.attributes r.children ([], 0), r.server)
    | (.error e, r) => (replyElement r.attributes r.children (errorOf e), r.server)
  else (replyElement [] [] (uiDisabled, 900), server)

/-- The text of the reply: XML where it is asked for, else JSON (and nothing where that fails). -/
def replyText (print : Element → Str) (params : Dictionary) (root : Element) : Str :=
  if params.get (str "return_type") = some (str "xml") then
    str "<?xml version=\x221.0\x22 encoding=\x22UTF-8\x22?>\n" ++ print root
  else (getJSON root).toOption.getD []

/-! ## Runs -/

/-- What may happen: a request, time that passes, sessions that time out, and whatever the rest of
    the server does to the world and tells the sessions. -/
inductive WebEvent (O : Type)
  | request (page : Str) (params : Dictionary)
  | tick (seconds : Nat)
  | timerNotify (expired : Session → Bool)
  | elsewhere (world : World O) (notices : List Notice)

def Server.step (env : Env O) (server : Server O) : WebEvent O → Option (Server O)
  | .request page params =>
    match createWebRequestHandler page with
    | .ok page => some (openRequest env page params server).2
    | .error _ => some server
  | .tick seconds => some { server with now := server.now + seconds }
  | .timerNotify expired => some { server with sessions := server.sessions.delete expired }
  | .elsewhere world notices =>
    some { server with world := world, sessions := notifyAll server.sessions notices }

end

end MediaTomb
