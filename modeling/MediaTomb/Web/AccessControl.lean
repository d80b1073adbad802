/-
  Who may see and change what (`web_request_handler.cc`, `web/auth.cc`), in every run.

    * a session is logged in by a login request alone, for a user's name and `md5` of a token and
      the user's password, and the token was issued to this session at most ten seconds before:
      what a request does to the sessions is a FRAME with two exceptions (`request_frame`), and the
      token's way through the run is found by going back in it (`issuedTo_of_tokenAt`);
    * a request whose session is missing or not logged in leaves the world as it is;
    * its reply is BLIND for the world, but for one thing: `open` adds the current task to every
      reply whose page has called `check_request`, and `get_token` and `login` call it without
      asking for a login.  The reply to these two shows the task (`reply_blind_iff`).
-/
import MediaTomb.Web.WebRequestHandler
import MediaTomb.Encodings

namespace MediaTomb

open Lib

section

variable {O : Type} {env : Env O} {params : Dictionary} {page : Page}

/-! ## What cannot be seen -/

/-- Another world behind the same server. -/
def Server.withWorld (w : World O) (server : Server O) : Server O := { server with world := w }

/-- Another world behind the same request. -/
def Request.withWorld (w : World O) (r : Request O) : Request O := r.mapServer (.withWorld w)

/-- The program does not see the world. -/
def Unseen {α : Type} (m : RequestM O α) : Prop := ∀ w, Prog.Blind (Request.withWorld w) m

theorem unseen_generateRandomID : Unseen (generateRandomID env) := fun _ =>
  Prog.blind_bind (Prog.blind_read fun _ => rfl) fun _ =>
    Prog.blind_bind (Prog.blind_modify fun _ => rfl) fun _ => Prog.blind_pure _

theorem unseen_getSession (sid : Str) : Unseen (getSession sid : RequestM O _) := fun _ =>
  Prog.blind_read fun _ => rfl

theorem unseen_freshSessionID : ∀ fuel, Unseen (freshSessionID env fuel)
  | 0, w => Prog.blind_bind (unseen_generateRandomID w) fun _ => Prog.blind_throw _
  | fuel + 1, w =>
    Prog.blind_bind (unseen_generateRandomID w) fun id =>
      Prog.blind_bind (unseen_getSession id w) fun _ =>
        Prog.blind_ite (fun _ => unseen_freshSessionID fuel w) fun _ => Prog.blind_pure _

theorem unseen_createSession : Unseen (createSession env) := fun w =>
  Prog.blind_bind (unseen_freshSessionID 101 w) fun _ =>
    Prog.blind_bind (Prog.blind_modify fun _ => rfl) fun _ => Prog.blind_pure _

theorem unseen_checkRequest (checkLogin : Bool) :
    Unseen (checkRequest params checkLogin : RequestM O _) := by
  intro w
  refine Prog.blind_bind (Prog.blind_modify fun _ => rfl) fun _ => ?_
  split
  · exact Prog.blind_throw _
  · refine Prog.blind_bind (unseen_getSession _ w) fun session => ?_
    refine Prog.blind_bind (Prog.blind_modify fun _ => rfl) fun _ => ?_
    split
    · exact Prog.blind_throw _
    · exact Prog.blind_ite (fun _ => Prog.blind_throw _) fun _ => Prog.blind_pure _

theorem unseen_setAttribute (name value : Str) (type : ValueType) :
    Unseen (setAttribute name value type : RequestM O _) := fun _ => Prog.blind_modify fun _ => rfl

theorem unseen_appendChild (el : Element) : Unseen (appendChild el : RequestM O _) := fun _ =>
  Prog.blind_modify fun _ => rfl

theorem unseen_handleUpdateIDs : Unseen (handleUpdateIDs params : RequestM O _) := by
  intro w
  unfold handleUpdateIDs
  split
  · exact Prog.blind_pure _
  · exact Prog.blind_pure _
  · refine Prog.blind_bind (Prog.blind_read fun _ => rfl) fun session => ?_
    split
    · exact Prog.blind_pure _
    · exact Prog.blind_bind (unseen_appendChild _ w) fun _ => Prog.blind_modify fun _ => rfl

theorem unseen_getSid : Unseen (getSid env params) := by
  intro w
  refine Prog.blind_bind ?_ fun session =>
    Prog.blind_bind (unseen_setAttribute _ _ _ w) fun _ => Prog.blind_ite (fun _ => ?_) fun _ => ?_
  · refine Prog.blind_bind (Prog.blind_read fun _ => rfl) fun session => ?_
    split
    · exact Prog.blind_bind (unseen_createSession w) fun _ =>
        Prog.blind_bind (unseen_setAttribute _ _ _ w) fun _ => Prog.blind_pure _
    · exact Prog.blind_bind (Prog.blind_modify fun _ => rfl) fun _ =>
        Prog.blind_bind (unseen_setAttribute _ _ _ w) fun _ => Prog.blind_pure _
  · exact Prog.blind_bind (Prog.blind_modify fun _ => rfl) fun _ => unseen_setAttribute _ _ _ w
  · exact unseen_setAttribute _ _ _ w

theorem unseen_logout : Unseen (logout params : RequestM O _) := fun w =>
  Prog.blind_bind (unseen_checkRequest true w) fun _ =>
    Prog.blind_bind (unseen_getSession _ w) fun _ =>
      Prog.blind_ite (fun _ => Prog.blind_throw _) fun _ => Prog.blind_modify fun _ => rfl

theorem unseen_getToken : Unseen (getToken env params) := fun w =>
  Prog.blind_bind (unseen_checkRequest false w) fun _ =>
    Prog.blind_bind
      (Prog.blind_bind (Prog.blind_read fun _ => rfl) fun _ =>
        Prog.blind_bind (unseen_generateRandomID w) fun _ => Prog.blind_pure _) fun _ =>
      Prog.blind_bind (Prog.blind_modify fun _ => rfl) fun _ => unseen_appendChild _ w

theorem unseen_login : Unseen (login env params) := by
  intro w
  refine Prog.blind_bind (unseen_checkRequest false w) fun _ =>
    Prog.blind_ite (fun _ => Prog.blind_throw _) fun _ =>
      Prog.blind_bind (unseen_getSession _ w) fun session =>
        Prog.blind_bind (Prog.blind_read fun _ => rfl) fun _ => ?_
  split
  · exact Prog.blind_throw _
  · exact Prog.blind_ite (fun _ => Prog.blind_modify fun _ => rfl) fun _ => Prog.blind_throw _

/-- **The page without a login does not see the world.** -/
theorem unseen_authProcess : Unseen (authProcess env params) := by
  intro w
  unfold authProcess
  split
  · exact unseen_appendChild _ w
  · exact unseen_appendChild _ w
  · exact Prog.blind_ite (fun _ => unseen_appendChild _ w) fun _ =>
      Prog.blind_ite (fun _ => unseen_getSid w) fun _ =>
        Prog.blind_ite (fun _ => unseen_logout w) fun _ =>
          Prog.blind_ite (fun _ => unseen_getToken w) fun _ =>
            Prog.blind_ite (fun _ => unseen_login w) fun _ => Prog.blind_throw _

/-! ## Requests without a login -/

/-- The request names no session, an unknown one, or one that is not logged in. -/
def NotLoggedIn (server : Server O) (params : Dictionary) : Prop :=
  ∀ sid session, params.get (str "sid") = some sid → server.sessions.find? sid = some session →
    session.loggedIn = false

/-- The check refuses it. -/
theorem checkRequest_refuses {r : Request O} (h : NotLoggedIn r.server params) :
    ∃ e r', (checkRequest params true).run r = (.error e, r') ∧ r'.server = r.server := by
  unfold checkRequest
  rw [Prog.run_modify_bind]
  rcases hsid : params.get (str "sid") with _ | sid
  · exact ⟨_, _, rfl, rfl⟩
  · simp only [getSession, Prog.run_read_bind, Prog.run_modify_bind]
    rcases hsession : r.server.sessions.find? sid with _ | session
    · exact ⟨_, _, rfl, rfl⟩
    · simp only [h sid session hsid hsession, Bool.not_false, Bool.and_true, if_true]
      exact ⟨_, _, rfl, rfl⟩

/-- So does every page with a check. -/
theorem checked_refuses {r : Request O} (h : NotLoggedIn r.server params) (m : RequestM O Unit) :
    ∃ e r', (do checkRequest params true; m : RequestM O Unit).run r = (.error e, r') ∧
      ∀ w, (do checkRequest params true; m : RequestM O Unit).run (r.withWorld w) =
        (.error e, r'.withWorld w) := by
  obtain ⟨e, r', hrun, -⟩ := checkRequest_refuses h
  refine ⟨e, r', Prog.run_bind_of_error hrun, fun w => Prog.run_bind_of_error ?_⟩
  rw [unseen_checkRequest true w r, hrun]

/-- A page either is `auth`, or refuses the request and does not see the world. -/
theorem process_refuses {r : Request O} (h : NotLoggedIn r.server params) (hpage : page ≠ .auth) :
    ∃ e r', (process env params page).run r = (.error e, r') ∧
      ∀ w, (process env params page).run (r.withWorld w) = (.error e, r'.withWorld w) := by
  have hvoid : ∃ e r', (checkRequest params true : RequestM O Unit).run r = (.error e, r') ∧
      ∀ w, (checkRequest params true : RequestM O Unit).run (r.withWorld w) =
        (.error e, r'.withWorld w) := by
    obtain ⟨e, r', hrun, -⟩ := checkRequest_refuses h
    refine ⟨e, r', hrun, fun w => ?_⟩
    rw [unseen_checkRequest true w r, hrun]
  cases page with
  | auth => exact absurd rfl hpage
  | voidType => exact hvoid
  | add => exact checked_refuses h _
  | remove => exact checked_refuses h _
  | addObject => exact checked_refuses h _
  | containers => exact checked_refuses h _
  | directories => exact checked_refuses h _
  | files => exact checked_refuses h _
  | items => exact checked_refuses h _
  | editLoad => exact checked_refuses h _
  | editSave => exact checked_refuses h _
  | autoscan => exact checked_refuses h _
  | tasks => exact checked_refuses h _
  | action => exact checked_refuses h _

/-- **Without a login no page sees the world.** -/
theorem process_unseen {r : Request O} (h : NotLoggedIn r.server params) (w : World O) :
    (process env params page).run (r.withWorld w) =
      (((process env params page).run r).1, ((process env params page).run r).2.withWorld w) := by
  by_cases hpage : page = .auth
  · rw [hpage]
    exact unseen_authProcess w r
  · obtain ⟨e, r', hrun, hother⟩ := process_refuses h hpage
    rw [hrun, hother w]

/-- Nor does it change the world. -/
theorem process_world {r : Request O} (h : NotLoggedIn r.server params) :
    ((process env params page).run r).2.server.world = r.server.world := by
  have hsame := @process_unseen O env params page r h r.server.world
  have hr : r.withWorld r.server.world = r := rfl
  rw [hr] at hsame
  exact congrArg (fun out => out.2.server.world) hsame

/-! ## The reply -/

def taskNodes (world : World O) : List Node :=
  match world.currentTask with
  | none => []
  | some task => [.element (taskElement task)]

def updateIDsNodes (params : Dictionary) (r : Request O) : List Node :=
  match params.get (str "updates") with
  | none | some [] => []
  | some updates =>
    match currentSession r with
    | none => []
    | some session => [.element (updateIDsElement updates session).1]

theorem appendCurrentTask_run (r : Request O) :
    appendCurrentTask.run r =
      (.ok (), { r with children := r.children ++ taskNodes r.server.world }) := by
  unfold appendCurrentTask taskNodes
  rw [Prog.run_read_bind]
  rcases htask : r.server.world.currentTask with _ | task
  · show _ = (_, _)
    rw [List.append_nil]
    rfl
  · rfl

/-- The update ids are added to the reply, and leave the world alone. -/
theorem handleUpdateIDs_run (r : Request O) :
    ∃ r', (handleUpdateIDs params).run r = (.ok (), r') ∧ r'.attributes = r.attributes ∧
      r'.children = r.children ++ updateIDsNodes params r ∧ r'.server.world = r.server.world := by
  rcases hupdates : params.get (str "updates") with _ | _ | ⟨c, updates⟩
  · simp only [handleUpdateIDs, updateIDsNodes, hupdates]
    exact ⟨r, rfl, rfl, (List.append_nil _).symm, rfl⟩
  · simp only [handleUpdateIDs, updateIDsNodes, hupdates]
    exact ⟨r, rfl, rfl, (List.append_nil _).symm, rfl⟩
  · simp only [handleUpdateIDs, updateIDsNodes, hupdates, Prog.run_read_bind]
    rcases hsession : currentSession r with _ | session
    · exact ⟨r, rfl, rfl, (List.append_nil _).symm, rfl⟩
    · exact ⟨_, rfl, rfl, rfl, rfl⟩

/-- `open` adds the task and the update ids where the page has called `check_request`. -/
theorem wrapper_run (r : Request O) :
    ∃ r', (wrapper params).run r = (.ok (), r') ∧ r'.attributes = r.attributes ∧
      r'.children = r.children ++ (if r.checkRequestCalled then
        taskNodes r.server.world ++ updateIDsNodes params r else []) ∧
      r'.server.world = r.server.world := by
  unfold wrapper
  rw [Prog.run_read_bind]
  split
  · rw [Prog.run_bind_of_ok (appendCurrentTask_run r)]
    obtain ⟨r', hrun, hattributes, hchildren, hworld⟩ := @handleUpdateIDs_run O params
      { r with children := r.children ++ taskNodes r.server.world }
    refine ⟨r', hrun, hattributes, hchildren.trans ?_, hworld⟩
    rw [List.append_assoc]
    rfl
  · exact ⟨r, rfl, rfl, (List.append_nil _).symm, rfl⟩

/-- The root element of a reply, told from how the page ended. -/
def replyOf (params : Dictionary) (out : Except WebException Unit × Request O) : Element :=
  match out.1 with
  | .ok () =>
    replyElement out.2.attributes (out.2.children ++ if out.2.checkRequestCalled then
      taskNodes out.2.server.world ++ updateIDsNodes params out.2 else []) ([], 0)
  | .error e => replyElement out.2.attributes out.2.children (errorOf e)

theorem openRequest_fst (server : Server O) (hui : env.cfg.uiEnabled = true) :
    (openRequest env page params server).1 =
      replyOf params ((process env params page).run { server }) := by
  unfold openRequest replyOf
  rw [if_pos hui, Prog.run_bind]
  rcases (process env params page).run { server } with ⟨e | ⟨⟩, r⟩
  · rfl
  · obtain ⟨r', hrun, hattributes, hchildren, -⟩ := @wrapper_run O params r
    simp only [hrun, hattributes, hchildren]

/-- **(b)** Without a login the world stays as it is. -/
theorem openRequest_world {server : Server O} (h : NotLoggedIn server params) :
    (openRequest env page params server).2.world = server.world := by
  unfold openRequest
  split
  · have hworld := @process_world O env params page { server } h
    rw [Prog.run_bind]
    rcases hrun : (process env params page).run { server } with ⟨e | ⟨⟩, r⟩
    · rw [hrun] at hworld
      exact hworld
    · rw [hrun] at hworld
      obtain ⟨r', hwrap, -, -, hsame⟩ := @wrapper_run O params r
      simp only [hwrap]
      exact hsame.trans hworld
  · rfl

/-! ## Who has called the check -/

theorem checkRequest_run {r : Request O} {checkLogin : Bool} {sid : Str} {session : Session}
    (hsid : params.get (str "sid") = some sid)
    (hsession : r.server.sessions.find? sid = some session)
    (hlogin : checkLogin = false ∨ session.loggedIn = true) :
    (checkRequest params checkLogin).run r =
      (.ok (), { r with checkRequestCalled := true, session := some session }) := by
  unfold checkRequest
  rw [Prog.run_modify_bind, hsid]
  simp only [getSession, Prog.run_read_bind, Prog.run_modify_bind, hsession]
  have hpass : (checkLogin && !session.loggedIn) = false := by
    rcases hlogin with h | h
    · rw [h, Bool.false_and]
    · rw [h, Bool.not_true, Bool.and_false]
  rw [hpass]
  rfl

/-- Without a session no check is passed. -/
theorem checkRequest_noSession {r : Request O} {checkLogin : Bool}
    (h : ∀ sid session, params.get (str "sid") = some sid →
      r.server.sessions.find? sid ≠ some session) :
    ∃ e r', (checkRequest params checkLogin).run r = (.error e, r') := by
  unfold checkRequest
  rw [Prog.run_modify_bind]
  rcases hsid : params.get (str "sid") with _ | sid
  · exact ⟨_, _, rfl⟩
  · simp only [getSession, Prog.run_read_bind, Prog.run_modify_bind]
    rcases hsession : r.server.sessions.find? sid with _ | session
    · exact ⟨_, _, rfl⟩
    · exact absurd hsession (h sid session hsid)

/-- Name and password are there, and fit the session's token. -/
def LoginFits (env : Env O) (params : Dictionary) (now : Nat) (session : Session) : Prop :=
  stringOk (params.get (str "username")) = true ∧ stringOk (params.get (str "password")) = true ∧
    loginFits env params now session = true

/-- **What shows the task.**  A request of the page `auth` for a session, with `get_token` or a
    login that succeeds. -/
def ShowsTask (env : Env O) (server : Server O) (page : Page) (params : Dictionary) : Prop :=
  env.cfg.uiEnabled = true ∧ page = .auth ∧ ∃ sid session,
    params.get (str "sid") = some sid ∧ server.sessions.find? sid = some session ∧
      (params.get (str "action") = some (str "get_token") ∨
        params.get (str "action") = some (str "login") ∧ LoginFits env params server.now session)

/-- The page has returned and its check was called. -/
def Checked (out : Except WebException Unit × Request O) : Prop :=
  out.1 = .ok () ∧ out.2.checkRequestCalled = true

theorem keeps_called_setAttribute (name value : Str) (type : ValueType) :
    Prog.Keeps (.same Request.checkRequestCalled)
      (setAttribute name value type : RequestM O _) := Prog.keeps_modify fun _ => rfl

theorem keeps_called_generateRandomID :
    Prog.Keeps (.same Request.checkRequestCalled) (generateRandomID env) :=
  Prog.keeps_bind (Prog.keeps_read _) fun _ =>
    Prog.keeps_bind (Prog.keeps_modify fun _ => rfl) fun _ => Prog.keeps_pure _

theorem keeps_called_freshSessionID :
    ∀ fuel, Prog.Keeps (.same Request.checkRequestCalled) (freshSessionID env fuel)
  | 0 => Prog.keeps_bind keeps_called_generateRandomID fun _ => Prog.keeps_throw _
  | fuel + 1 =>
    Prog.keeps_bind keeps_called_generateRandomID fun _ =>
      Prog.keeps_bind (Prog.keeps_read _) fun _ =>
        Prog.keeps_ite (fun _ => keeps_called_freshSessionID fuel) fun _ => Prog.keeps_pure _

/-- `get_sid` does not call the check. -/
theorem keeps_called_getSid : Prog.Keeps (.same Request.checkRequestCalled) (getSid env params) := by
  refine Prog.keeps_bind ?_ fun session =>
    Prog.keeps_bind (keeps_called_setAttribute _ _ _) fun _ =>
      Prog.keeps_ite (fun _ => ?_) fun _ => keeps_called_setAttribute _ _ _
  · refine Prog.keeps_bind (Prog.keeps_read _) fun session => ?_
    split
    · refine Prog.keeps_bind ?_ fun _ =>
        Prog.keeps_bind (keeps_called_setAttribute _ _ _) fun _ => Prog.keeps_pure _
      exact Prog.keeps_bind (keeps_called_freshSessionID 101) fun _ =>
        Prog.keeps_bind (Prog.keeps_modify fun _ => rfl) fun _ => Prog.keeps_pure _
    · exact Prog.keeps_bind (Prog.keeps_modify fun _ => rfl) fun _ =>
        Prog.keeps_bind (keeps_called_setAttribute _ _ _) fun _ => Prog.keeps_pure _
  · exact Prog.keeps_bind (Prog.keeps_modify fun _ => rfl) fun _ => keeps_called_setAttribute _ _ _

/-- `get_token` of a session: what it gives out, and what it leaves. -/
theorem getToken_run {r : Request O} {sid : Str} {session : Session}
    (hsid : params.get (str "sid") = some sid)
    (hsession : r.server.sessions.find? sid = some session) :
    ∃ r', (getToken env params).run r = (.ok (), r') ∧ r'.checkRequestCalled = true ∧
      r'.server.now = r.server.now ∧
      ∃ salt, r'.server.sessions = modifySession r.server.sessions sid
        (fun s => s.put (str "token") (tokenText (r.server.now + loginTimeout) salt))
        fun _ => rfl := by
  unfold getToken
  rw [Prog.run_bind_of_ok (checkRequest_run hsid hsession (Or.inl rfl)), hsid]
  exact ⟨_, rfl, rfl, rfl, _, rfl⟩

/-- `login` of a session. -/
theorem login_run {r : Request O} {sid : Str} {session : Session}
    (hsid : params.get (str "sid") = some sid)
    (hsession : r.server.sessions.find? sid = some session) :
    (LoginFits env params r.server.now session ∧
      ∃ r', (login env params).run r = (.ok (), r') ∧ r'.checkRequestCalled = true ∧
        r'.server = { r.server with
          sessions := modifySession r.server.sessions sid Session.logIn fun _ => rfl }) ∨
    (¬LoginFits env params r.server.now session ∧
      ∃ e r', (login env params).run r = (.error e, r') ∧ r'.server = r.server) := by
  unfold login
  rw [Prog.run_bind_of_ok (checkRequest_run hsid hsession (Or.inl rfl)), hsid]
  by_cases hok : stringOk (params.get (str "username")) = true ∧
      stringOk (params.get (str "password")) = true
  · have hpass : (!stringOk (params.get (str "username")) ||
        !stringOk (params.get (str "password"))) = false := by
      rw [hok.1, hok.2]
      rfl
    simp only [hpass, Bool.false_eq_true, if_false, getSession, Prog.run_read_bind,
      Option.getD_some, hsession]
    by_cases hfits : loginFits env params r.server.now session = true
    · refine Or.inl ⟨⟨hok.1, hok.2, hfits⟩, ?_⟩
      rw [if_pos hfits]
      exact ⟨_, rfl, rfl, rfl⟩
    · refine Or.inr ⟨fun h => hfits h.2.2, ?_⟩
      rw [if_neg hfits]
      exact ⟨_, _, rfl, rfl⟩
  · refine Or.inr ⟨fun h => hok ⟨h.1, h.2.1⟩, ?_⟩
    have hfail : (!stringOk (params.get (str "username")) ||
        !stringOk (params.get (str "password"))) = true := by
      rw [Bool.or_eq_true, Bool.not_eq_true', Bool.not_eq_true', ← Bool.not_eq_true,
        ← Bool.not_eq_true]
      exact not_and_or.mp hok
    rw [if_pos hfail]
    exact ⟨_, _, rfl, rfl⟩

/-- Without a session no request gets past a check. -/
theorem not_checked_of_noSession {r : Request O} {checkLogin : Bool} {f : Unit → RequestM O Unit}
    (h : ¬∃ sid session, params.get (str "sid") = some sid ∧
      r.server.sessions.find? sid = some session) :
    ¬Checked ((checkRequest params checkLogin >>= f).run r) := by
  obtain ⟨e, r', hrun⟩ := @checkRequest_noSession O params r checkLogin
    fun sid session hsid hsession => h ⟨sid, session, hsid, hsession⟩
  rw [Prog.run_bind_of_error hrun]
  rintro ⟨hok, -⟩
  cases hok

theorem not_checked_of_keeps {r : Request O} {m : RequestM O Unit}
    (h : Prog.Keeps (.same Request.checkRequestCalled) m) (hr : r.checkRequestCalled = false) :
    ¬Checked (m.run r) := by
  rintro ⟨-, hcalled⟩
  have hsame : (m.run r).2.checkRequestCalled = r.checkRequestCalled := h r
  rw [hsame, hr] at hcalled
  cases hcalled

/-- **What `auth` does.**  One of the four actions that concern a session, or something that calls no
    check. -/
theorem authProcess_elim {P : RequestM O Unit → Prop}
    (helement : ∀ el, params.get (str "action") ≠ some (str "get_token") →
      params.get (str "action") ≠ some (str "login") → P (appendChild el))
    (hillegal : ∀ e, params.get (str "action") ≠ some (str "get_token") →
      params.get (str "action") ≠ some (str "login") → P (Prog.throw e))
    (hsid : params.get (str "action") = some (str "get_sid") → P (getSid env params))
    (hlogout : params.get (str "action") = some (str "logout") → P (logout params))
    (htoken : params.get (str "action") = some (str "get_token") → P (getToken env params))
    (hlogin : params.get (str "action") = some (str "login") → P (login env params)) :
    P (authProcess env params) := by
  unfold authProcess
  split
  · next haction => exact helement _ (by rw [haction]; exact nofun) (by rw [haction]; exact nofun)
  · next haction => exact helement _ (by rw [haction]; decide) (by rw [haction]; decide)
  · next action _ haction =>
    rw [haction] at helement hillegal hsid hlogout htoken hlogin
    by_cases hconfig : action = str "get_config"
    · rw [if_pos hconfig]
      exact helement _ (by rw [hconfig]; decide) (by rw [hconfig]; decide)
    rw [if_neg hconfig]
    by_cases hsid' : action = str "get_sid"
    · rw [if_pos hsid']
      exact hsid (congrArg some hsid')
    rw [if_neg hsid']
    by_cases hlogout' : action = str "logout"
    · rw [if_pos hlogout']
      exact hlogout (congrArg some hlogout')
    rw [if_neg hlogout']
    by_cases htoken' : action = str "get_token"
    · rw [if_pos htoken']
      exact htoken (congrArg some htoken')
    rw [if_neg htoken']
    by_cases hlogin' : action = str "login"
    · rw [if_pos hlogin']
      exact hlogin (congrArg some hlogin')
    rw [if_neg hlogin']
    exact hillegal _ (fun h => htoken' (Option.some.inj h)) fun h => hlogin' (Option.some.inj h)

/-- Which requests without a login get past a check. -/
theorem auth_checked_iff {r : Request O} (h : NotLoggedIn r.server params)
    (hr : r.checkRequestCalled = false) :
    Checked ((authProcess env params).run r) ↔ ∃ sid session,
      params.get (str "sid") = some sid ∧ r.server.sessions.find? sid = some session ∧
        (params.get (str "action") = some (str "get_token") ∨
          params.get (str "action") = some (str "login") ∧
            LoginFits env params r.server.now session) := by
  have hnever : ∀ {m : RequestM O Unit}, ¬Checked (m.run r) →
      (params.get (str "action") ≠ some (str "get_token")) →
      (params.get (str "action") ≠ some (str "login")) →
      (Checked (m.run r) ↔ ∃ sid session, params.get (str "sid") = some sid ∧
        r.server.sessions.find? sid = some session ∧
          (params.get (str "action") = some (str "get_token") ∨
            params.get (str "action") = some (str "login") ∧
              LoginFits env params r.server.now session)) := by
    intro m hnot htoken hlogin
    refine ⟨fun hchecked => absurd hchecked hnot, ?_⟩
    rintro ⟨-, -, -, -, hact | ⟨hact, -⟩⟩
    · exact absurd hact htoken
    · exact absurd hact hlogin
  apply @authProcess_elim O env params fun m => Checked (m.run r) ↔ _
  case helement =>
    intro el
    exact hnever (not_checked_of_keeps (Prog.keeps_modify fun _ => rfl) hr)
  case hillegal =>
    intro e
    exact hnever (not_checked_of_keeps (Prog.keeps_throw e) hr)
  case hsid =>
    intro hact
    exact hnever (not_checked_of_keeps keeps_called_getSid hr) (by rw [hact]; decide)
      (by rw [hact]; decide)
  case hlogout =>
    intro hact
    refine hnever ?_ (by rw [hact]; decide) (by rw [hact]; decide)
    obtain ⟨e, r', hrun, -⟩ := checkRequest_refuses h
    unfold logout
    rw [Prog.run_bind_of_error hrun]
    rintro ⟨hok, -⟩
    cases hok
  case htoken =>
    intro hact
    by_cases hex : ∃ sid session, params.get (str "sid") = some sid ∧
        r.server.sessions.find? sid = some session
    · obtain ⟨sid, session, hsid, hsession⟩ := hex
      obtain ⟨r', hrun, hcalled, -⟩ := @getToken_run O env params r sid session hsid hsession
      rw [hrun]
      exact ⟨fun _ => ⟨sid, session, hsid, hsession, Or.inl hact⟩, fun _ => ⟨rfl, hcalled⟩⟩
    · refine ⟨fun hchecked => absurd hchecked (not_checked_of_noSession hex), ?_⟩
      rintro ⟨sid, session, hsid, hsession, -⟩
      exact absurd ⟨sid, session, hsid, hsession⟩ hex
  case hlogin =>
    intro hact
    by_cases hex : ∃ sid session, params.get (str "sid") = some sid ∧
        r.server.sessions.find? sid = some session
    · obtain ⟨sid, session, hsid, hsession⟩ := hex
      rcases @login_run O env params r sid session hsid hsession with
        ⟨hfits, r', hrun, hcalled, -⟩ | ⟨hnot, e, r', hrun, -⟩
      · rw [hrun]
        exact ⟨fun _ => ⟨sid, session, hsid, hsession, Or.inr ⟨hact, hfits⟩⟩,
          fun _ => ⟨rfl, hcalled⟩⟩
      · rw [hrun]
        refine ⟨fun hchecked => (nomatch hchecked.1), ?_⟩
        rintro ⟨sid', session', hsid', hsession', hact' | ⟨-, hfits⟩⟩
        · rw [hact] at hact'
          exact absurd hact' (by decide)
        · rw [hsid] at hsid'
          cases hsid'
          rw [hsession] at hsession'
          cases hsession'
          exact absurd hfits hnot
    · refine ⟨fun hchecked => absurd hchecked (not_checked_of_noSession hex), ?_⟩
      rintro ⟨sid, session, hsid, hsession, -⟩
      exact absurd ⟨sid, session, hsid, hsession⟩ hex

/-- The page `auth` is the one that gets past a check without a login. -/
theorem process_checked_iff {server : Server O} (h : NotLoggedIn server params)
    (hui : env.cfg.uiEnabled = true) :
    Checked ((process env params page).run { server }) ↔ ShowsTask env server page params := by
  by_cases hpage : page = .auth
  · subst hpage
    refine (@auth_checked_iff O env params { server } h rfl).trans ?_
    exact ⟨fun hex => ⟨hui, rfl, hex⟩, fun hshow => hshow.2.2⟩
  · obtain ⟨e, r', hrun, -⟩ := @process_refuses O env params page { server } h hpage
    rw [hrun]
    exact ⟨fun hchecked => (nomatch hchecked.1), fun hshow => absurd hshow.2.1 hpage⟩

/-- What the world adds to a reply after a check. -/
theorem replyOf_checked {r : Request O} (h : r.checkRequestCalled = true) (w : World O) :
    replyOf params (.ok (), r.withWorld w) =
      replyElement r.attributes (r.children ++ (taskNodes w ++ updateIDsNodes params r)) ([], 0) := by
  have hcalled : (r.withWorld w).checkRequestCalled = true := h
  simp only [replyOf, hcalled, if_true]
  rfl

/-- There is a world with another number of current tasks. -/
theorem other_taskNodes (world : World O) :
    ∃ w : World O, (taskNodes w).length ≠ (taskNodes world).length := by
  rcases htask : world.currentTask with _ | task
  · refine ⟨{ world with currentTask := some ⟨0, true, []⟩ }, ?_⟩
    simp only [taskNodes, htask]
    decide
  · refine ⟨{ world with currentTask := none }, ?_⟩
    simp only [taskNodes, htask]
    exact nofun

/-- **(c)** Without a login the reply is the same in all worlds, unless the request is one of the
    two that show the current task. -/
theorem reply_blind_iff {server : Server O} (h : NotLoggedIn server params) :
    (∀ w, (openRequest env page params (server.withWorld w)).1 =
        (openRequest env page params server).1) ↔ ¬ShowsTask env server page params := by
  by_cases hui : env.cfg.uiEnabled = true
  · have hother : ∀ w : World O, (openRequest env page params (server.withWorld w)).1 =
        replyOf params (((process env params page).run { server }).1,
          ((process env params page).run { server }).2.withWorld w) := by
      intro w
      rw [openRequest_fst _ hui]
      exact congrArg (replyOf params) (@process_unseen O env params page { server } h w)
    rw [← process_checked_iff h hui, openRequest_fst server hui]
    simp only [hother]
    rcases hrun : (process env params page).run { server } with ⟨e | ⟨⟩, r⟩
    · refine ⟨fun _ hchecked => (nomatch hchecked.1), fun _ w => rfl⟩
    · rcases hcalled : r.checkRequestCalled with _ | _
      · refine ⟨fun _ hchecked => ?_, fun _ w => ?_⟩
        · have := hchecked.2
          rw [hcalled] at this
          cases this
        · simp only [replyOf, Request.withWorld, Request.mapServer, hcalled, Bool.false_eq_true,
            if_false]
      · refine ⟨fun hsame _ => ?_, fun hnot => absurd ⟨rfl, hcalled⟩ hnot⟩
        -- a world that shows another number of tasks
        obtain ⟨w, hw⟩ := other_taskNodes r.server.world
        refine absurd (hsame w) fun heq => hw ?_
        have hself : replyOf params (.ok (), r) = _ := replyOf_checked hcalled r.server.world
        rw [replyOf_checked hcalled w, hself] at heq
        have hlength := congrArg (fun el => el.children.length) heq
        simp only [replyElement, if_true, rootElement, Element.children, List.length_append]
          at hlength
        omega
  · have hnone : ∀ server : Server O, (openRequest env page params server).1 =
        replyElement [] [] (uiDisabled, 900) := by
      intro server
      unfold openRequest
      rw [if_neg hui]
    refine ⟨fun _ hshow => hui hshow.1, fun _ w => ?_⟩
    rw [hnone, hnone]

/-! ## Sessions, logins and tokens -/

def LoggedIn (sessions : Sessions) (id : Str) : Prop :=
  ∃ session, sessions.find? id = some session ∧ session.loggedIn = true

/-- The token of a session. -/
def tokenAt (sessions : Sessions) (id : Str) : Option Str :=
  (sessions.find? id).bind fun session => session.data.get (str "token")

/-- No login and no token is new. -/
structure Calm (before after : Sessions) : Prop where
  loggedIn : ∀ id, LoggedIn after id → LoggedIn before id
  token : ∀ id tok, tokenAt after id = some tok → tokenAt before id = some tok

theorem Calm.refl (sessions : Sessions) : Calm sessions sessions :=
  ⟨fun _ h => h, fun _ _ h => h⟩

theorem Calm.trans {a b c : Sessions} (h : Calm a b) (h' : Calm b c) : Calm a c :=
  ⟨fun id hid => h.loggedIn id (h'.loggedIn id hid), fun id tok htok =>
    h.token id tok (h'.token id tok htok)⟩

/-- A program that gives no login and no token, and takes no time. -/
def calm : Prog.Frame (Request O) where
  rel r r' := r'.server.now = r.server.now ∧ Calm r.server.sessions r'.server.sessions
  refl _ := ⟨rfl, Calm.refl _⟩
  trans h h' := ⟨h'.1.trans h.1, h.2.trans h'.2⟩

/-- Every session comes from one that had its login and its token. -/
theorem calm_of_find {before after : Sessions}
    (h : ∀ id session, after.find? id = some session →
      (session.loggedIn = false ∧ session.data.get (str "token") = none) ∨
        ∃ old, before.find? id = some old ∧ session.loggedIn = old.loggedIn ∧
          session.data.get (str "token") = old.data.get (str "token")) :
    Calm before after := by
  constructor
  · rintro id ⟨session, hfind, hlogged⟩
    rcases h id session hfind with ⟨hout, -⟩ | ⟨old, hold, hsame, -⟩
    · rw [hlogged] at hout
      cases hout
    · exact ⟨old, hold, hsame ▸ hlogged⟩
  · intro id tok htok
    obtain ⟨session, hfind, htok⟩ := Option.bind_eq_some_iff.mp htok
    rcases h id session hfind with ⟨-, hnone⟩ | ⟨old, hold, -, hsame⟩
    · rw [hnone] at htok
      cases htok
    · unfold tokenAt
      rw [hold]
      exact hsame.symm.trans htok

theorem calm_update {sessions : Sessions} {f : Session → Session} {hf : ∀ s, (f s).id = s.id}
    (h : ∀ s, (f s).loggedIn = s.loggedIn ∧
      (f s).data.get (str "token") = s.data.get (str "token")) :
    Calm sessions (sessions.update f hf) := by
  refine calm_of_find fun id session hfind => Or.inr ?_
  rw [Table.find?_update] at hfind
  obtain ⟨old, hold, rfl⟩ := Option.map_eq_some_iff.mp hfind
  exact ⟨old, hold, h old⟩

theorem calm_modifySession {sessions : Sessions} {id : Str} {f : Session → Session}
    {hf : ∀ s, (f s).id = s.id} (h : ∀ s, (f s).loggedIn = s.loggedIn ∧ (f s).data = s.data) :
    Calm sessions (modifySession sessions id f hf) := by
  refine calm_update fun s => ?_
  split
  · exact ⟨(h s).1, congrArg (fun d => Dictionary.get d (str "token")) (h s).2⟩
  · exact ⟨rfl, rfl⟩

theorem calm_delete (sessions : Sessions) (p : Session → Bool) :
    Calm sessions (sessions.delete p) :=
  calm_of_find fun _ session hfind => Or.inr ⟨session, (Table.find?_delete.mp hfind).1, rfl, rfl⟩

theorem calm_insertSession (sessions : Sessions) (id : Str) :
    Calm sessions (insertSession sessions { id }) := by
  unfold insertSession
  rcases hinsert : sessions.insert? { id } with _ | after
  · exact Calm.refl _
  · refine calm_of_find fun id' session hfind => ?_
    rw [Option.getD_some, Table.find?_insert? hinsert] at hfind
    split at hfind
    · cases hfind
      exact Or.inl ⟨rfl, rfl⟩
    · exact Or.inr ⟨session, hfind, rfl, rfl⟩

theorem calm_notifyAll (sessions : Sessions) (notices : List Notice) :
    Calm sessions (notifyAll sessions notices) := by
  refine calm_update fun s => ?_
  obtain ⟨-, hlogged, hdata⟩ := s.notify_frame notices
  exact ⟨hlogged, congrArg (fun d => Dictionary.get d (str "token")) hdata⟩

theorem updateIDsElement_frame (updates : Str) (session : Session) :
    (updateIDsElement updates session).2.loggedIn = session.loggedIn ∧
      (updateIDsElement updates session).2.data = session.data := by
  have hget : session.getUIUpdateIDs.2.loggedIn = session.loggedIn ∧
      session.getUIUpdateIDs.2.data = session.data := by
    unfold Session.getUIUpdateIDs
    split_ifs <;> exact ⟨rfl, rfl⟩
  unfold updateIDsElement
  split_ifs
  · exact ⟨rfl, rfl⟩
  · split
    · next h =>
      rw [h] at hget
      exact hget
    · next h =>
      rw [h] at hget
      exact hget
  · exact ⟨rfl, rfl⟩

/-! The programs, one after the other. -/

theorem calm_sameSessions {f : Request O → Request O}
    (h : ∀ r, (f r).server.now = r.server.now ∧ (f r).server.sessions = r.server.sessions) :
    Prog.Keeps calm (Prog.modify f : RequestM O Unit) := by
  refine Prog.keeps_modify fun r => ⟨(h r).1, ?_⟩
  rw [(h r).2]
  exact Calm.refl _

theorem keeps_calm_generateRandomID : Prog.Keeps calm (generateRandomID env) :=
  Prog.keeps_bind (Prog.keeps_read _) fun _ =>
    Prog.keeps_bind (calm_sameSessions fun _ => ⟨rfl, rfl⟩) fun _ => Prog.keeps_pure _

theorem keeps_calm_freshSessionID : ∀ fuel, Prog.Keeps calm (freshSessionID env fuel)
  | 0 => Prog.keeps_bind keeps_calm_generateRandomID fun _ => Prog.keeps_throw _
  | fuel + 1 =>
    Prog.keeps_bind keeps_calm_generateRandomID fun _ =>
      Prog.keeps_bind (Prog.keeps_read _) fun _ =>
        Prog.keeps_ite (fun _ => keeps_calm_freshSessionID fuel) fun _ => Prog.keeps_pure _

theorem keeps_calm_checkRequest (checkLogin : Bool) :
    Prog.Keeps calm (checkRequest params checkLogin : RequestM O _) := by
  refine Prog.keeps_bind (calm_sameSessions fun _ => ⟨rfl, rfl⟩) fun _ => ?_
  split
  · exact Prog.keeps_throw _
  · refine Prog.keeps_bind (Prog.keeps_read _) fun session => ?_
    refine Prog.keeps_bind (calm_sameSessions fun _ => ⟨rfl, rfl⟩) fun _ => ?_
    split
    · exact Prog.keeps_throw _
    · exact Prog.keeps_ite (fun _ => Prog.keeps_throw _) fun _ => Prog.keeps_pure _

theorem keeps_calm_setAttribute (name value : Str) (type : ValueType) :
    Prog.Keeps calm (setAttribute name value type : RequestM O _) := calm_sameSessions fun _ => ⟨rfl, rfl⟩

theorem keeps_calm_appendChild (el : Element) : Prog.Keeps calm (appendChild el : RequestM O _) :=
  calm_sameSessions fun _ => ⟨rfl, rfl⟩

/-- With accounts, `get_sid` logs nobody in. -/
theorem keeps_calm_getSid (hacc : env.cfg.accountsEnabled = true) :
    Prog.Keeps calm (getSid env params) := by
  refine Prog.keeps_bind ?_ fun session =>
    Prog.keeps_bind (keeps_calm_setAttribute _ _ _) fun _ =>
      Prog.keeps_ite (fun hlogin => ?_) fun _ => keeps_calm_setAttribute _ _ _
  · refine Prog.keeps_bind (Prog.keeps_read _) fun session => ?_
    split
    · refine Prog.keeps_bind ?_ fun _ =>
        Prog.keeps_bind (keeps_calm_setAttribute _ _ _) fun _ => Prog.keeps_pure _
      exact Prog.keeps_bind (keeps_calm_freshSessionID 101) fun _ =>
        Prog.keeps_bind (Prog.keeps_modify fun r => ⟨rfl, calm_insertSession _ _⟩) fun _ =>
          Prog.keeps_pure _
    · refine Prog.keeps_bind (Prog.keeps_modify fun r => ?_) fun _ =>
        Prog.keeps_bind (keeps_calm_setAttribute _ _ _) fun _ => Prog.keeps_pure _
      exact ⟨rfl, @calm_modifySession _ _ Session.clearUpdateIDs (fun _ => rfl) fun _ => ⟨rfl, rfl⟩⟩
  · rw [hacc, Bool.not_true, Bool.and_false] at hlogin
    cases hlogin

theorem keeps_calm_logout : Prog.Keeps calm (logout params : RequestM O _) :=
  Prog.keeps_bind (keeps_calm_checkRequest true) fun _ =>
    Prog.keeps_bind (Prog.keeps_read _) fun _ =>
      Prog.keeps_ite (fun _ => Prog.keeps_throw _) fun _ =>
        Prog.keeps_modify fun r => ⟨rfl, calm_delete r.server.sessions _⟩

theorem keeps_calm_runBody : Prog.Keeps calm (runBody env page params) :=
  Prog.keeps_bind (Prog.keeps_read _) fun done =>
    Prog.keeps_bind
      (Prog.keeps_modify fun r => ⟨rfl, calm_notifyAll r.server.sessions done.notices⟩) fun _ =>
      Prog.keeps_ofExcept _

theorem keeps_calm_wrapper : Prog.Keeps calm (wrapper params : RequestM O _) := by
  refine Prog.keeps_bind (Prog.keeps_read _) fun called => ?_
  refine Prog.keeps_ite (fun _ => Prog.keeps_bind ?_ fun _ => ?_) fun _ => Prog.keeps_pure _
  · refine Prog.keeps_bind (Prog.keeps_read _) fun task => ?_
    split
    · exact Prog.keeps_pure _
    · exact keeps_calm_appendChild _
  · unfold handleUpdateIDs
    split
    · exact Prog.keeps_pure _
    · exact Prog.keeps_pure _
    · refine Prog.keeps_bind (Prog.keeps_read _) fun session => ?_
      split
      · exact Prog.keeps_pure _
      · refine Prog.keeps_bind (keeps_calm_appendChild _) fun _ => Prog.keeps_modify fun r => ?_
        exact ⟨rfl, @calm_modifySession _ _ _ (updateIDsElement_id _) (updateIDsElement_frame _)⟩

/-- Pages with a check, and `auth` where it neither gives a token nor logs in. -/
theorem keeps_calm_process (hacc : env.cfg.accountsEnabled = true)
    (h : page = .auth → params.get (str "action") ≠ some (str "get_token") ∧
      params.get (str "action") ≠ some (str "login")) :
    Prog.Keeps calm (process env params page) := by
  have hchecked : ∀ page, Prog.Keeps calm (checkedPage env page params) := fun _ =>
    Prog.keeps_bind (keeps_calm_checkRequest true) fun _ => keeps_calm_runBody
  cases page with
  | auth =>
    obtain ⟨htoken, hlogin⟩ := h rfl
    exact @authProcess_elim O env params (Prog.Keeps calm) (fun el _ _ => keeps_calm_appendChild el)
      (fun e _ _ => Prog.keeps_throw e) (fun _ => keeps_calm_getSid hacc)
      (fun _ => keeps_calm_logout) (fun hact => absurd hact htoken) fun hact => absurd hact hlogin
  | voidType => exact keeps_calm_checkRequest true
  | add => exact hchecked _
  | remove => exact hchecked _
  | addObject => exact hchecked _
  | containers => exact hchecked _
  | directories => exact hchecked _
  | files => exact hchecked _
  | items => exact hchecked _
  | editLoad => exact hchecked _
  | editSave => exact hchecked _
  | autoscan => exact hchecked _
  | tasks => exact hchecked _
  | action => exact hchecked _

/-- **What a request does to the sessions.**  A login is new where a login of this session fits, a
    token is new where this session has asked for one. -/
structure Changes (env : Env O) (page : Page) (params : Dictionary) (server after : Server O) :
    Prop where
  now : after.now = server.now
  loggedIn : ∀ id, LoggedIn after.sessions id → LoggedIn server.sessions id ∨
    page = .auth ∧ params.get (str "action") = some (str "login") ∧
      params.get (str "sid") = some id ∧ ∃ session, server.sessions.find? id = some session ∧
        LoginFits env params server.now session
  token : ∀ id tok, tokenAt after.sessions id = some tok →
    tokenAt server.sessions id = some tok ∨
      page = .auth ∧ params.get (str "action") = some (str "get_token") ∧
        params.get (str "sid") = some id ∧
          ∃ salt, tok = tokenText (server.now + loginTimeout) salt

theorem changes_of_calm (server : Server O) {m : RequestM O Unit} (h : Prog.Keeps calm m) :
    Changes env page params server (m.run { server }).2.server := by
  obtain ⟨hnow, hcalm⟩ := h { server }
  exact ⟨hnow, fun id hid => Or.inl (hcalm.loggedIn id hid), fun id tok htok =>
    Or.inl (hcalm.token id tok htok)⟩

/-- What comes after the page is calm. -/
theorem Changes.calm {server : Server O} {r : Request O}
    (h : Changes env page params server r.server) {m : RequestM O Unit}
    (hm : Prog.Keeps calm m) : Changes env page params server (m.run r).2.server := by
  obtain ⟨hnow, hcalm⟩ := hm r
  exact ⟨hnow.trans h.now, fun id hid => h.loggedIn id (hcalm.loggedIn id hid),
    fun id tok htok => h.token id tok (hcalm.token id tok htok)⟩

/-- One session that was changed. -/
theorem find?_modifySession {sessions : Sessions} {sid id : Str} {f : Session → Session}
    {hf : ∀ s, (f s).id = s.id} {session : Session}
    (h : (modifySession sessions sid f hf).find? id = some session) :
    ∃ old, sessions.find? id = some old ∧
      (id = sid ∧ session = f old ∨ id ≠ sid ∧ session = old) := by
  rw [modifySession, Table.find?_update] at h
  obtain ⟨old, hold, hsession⟩ := Option.map_eq_some_iff.mp h
  refine ⟨old, hold, ?_⟩
  have hid : old.id = id := (Table.find?_eq_some.mp hold).2
  rw [hid] at hsession
  by_cases hsame : id = sid
  · rw [if_pos hsame] at hsession
    exact Or.inl ⟨hsame, hsession.symm⟩
  · rw [if_neg hsame] at hsession
    exact Or.inr ⟨hsame, hsession.symm⟩

/-- `get_token` -/
theorem changes_getToken {server : Server O} {sid : Str} {session : Session}
    (hact : params.get (str "action") = some (str "get_token"))
    (hsid : params.get (str "sid") = some sid)
    (hsession : server.sessions.find? sid = some session) :
    Changes env .auth params server ((getToken env params).run { server }).2.server := by
  obtain ⟨r', hrun, -, hnow, salt, hsessions⟩ :=
    @getToken_run O env params { server } sid session hsid hsession
  rw [hrun]
  refine ⟨hnow, fun id hid => ?_, fun id tok htok => ?_⟩
  · rw [hsessions] at hid
    obtain ⟨after, hfind, hlogged⟩ := hid
    obtain ⟨old, hold, ⟨-, rfl⟩ | ⟨-, rfl⟩⟩ := find?_modifySession hfind
    · exact Or.inl ⟨old, hold, hlogged⟩
    · exact Or.inl ⟨after, hold, hlogged⟩
  · rw [hsessions] at htok
    obtain ⟨after, hfind, htok⟩ := Option.bind_eq_some_iff.mp htok
    obtain ⟨old, hold, ⟨rfl, rfl⟩ | ⟨-, rfl⟩⟩ := find?_modifySession hfind
    · refine Or.inr ⟨rfl, hact, hsid, salt, ?_⟩
      rw [Session.put, Dictionary.get_put, if_pos rfl] at htok
      exact (Option.some.inj htok).symm
    · refine Or.inl ?_
      rw [tokenAt, hold]
      exact htok

/-- `login` -/
theorem changes_login {server : Server O} {sid : Str} {session : Session}
    (hact : params.get (str "action") = some (str "login"))
    (hsid : params.get (str "sid") = some sid)
    (hsession : server.sessions.find? sid = some session) :
    Changes env .auth params server ((login env params).run { server }).2.server := by
  rcases @login_run O env params { server } sid session hsid hsession with
    ⟨hfits, r', hrun, -, hserver⟩ | ⟨-, e, r', hrun, hserver⟩
  · rw [hrun, hserver]
    refine ⟨rfl, fun id hid => ?_, fun id tok htok => ?_⟩
    · obtain ⟨after, hfind, hlogged⟩ := hid
      obtain ⟨old, hold, ⟨rfl, -⟩ | ⟨-, rfl⟩⟩ :=
        @find?_modifySession _ _ _ Session.logIn (fun _ => rfl) _ hfind
      · exact Or.inr ⟨rfl, hact, hsid, session, hsession, hfits⟩
      · exact Or.inl ⟨after, hold, hlogged⟩
    · obtain ⟨after, hfind, htok⟩ := Option.bind_eq_some_iff.mp htok
      obtain ⟨old, hold, hwhich⟩ := @find?_modifySession _ _ _ Session.logIn (fun _ => rfl) _ hfind
      refine Or.inl ?_
      rw [tokenAt, hold]
      rcases hwhich with ⟨-, rfl⟩ | ⟨-, rfl⟩
      · exact htok
      · exact htok
  · rw [hrun, hserver]
    exact ⟨rfl, fun id hid => Or.inl hid, fun id tok htok => Or.inl htok⟩

/-- Without a session the check ends the request. -/
theorem changes_noSession {server : Server O} {f : Unit → RequestM O Unit}
    (h : ¬∃ sid session, params.get (str "sid") = some sid ∧
      server.sessions.find? sid = some session) :
    Changes env page params server ((checkRequest params false >>= f).run { server }).2.server := by
  obtain ⟨e, r', hrun⟩ := @checkRequest_noSession O params { server } false
    fun sid session hsid hsession => h ⟨sid, session, hsid, hsession⟩
  rw [Prog.run_bind_of_error hrun]
  have hcalm : Changes env page params server
      ((checkRequest params false : RequestM O Unit).run { server }).2.server :=
    changes_of_calm server (keeps_calm_checkRequest false)
  rw [hrun] at hcalm
  exact hcalm

theorem changes_process (hacc : env.cfg.accountsEnabled = true) (server : Server O) :
    Changes env page params server ((process env params page).run { server }).2.server := by
  by_cases hpage : page = .auth
  · subst hpage
    have hcalm : ∀ m : RequestM O Unit, Prog.Keeps calm m →
        Changes env .auth params server (m.run { server }).2.server :=
      fun m hm => changes_of_calm server hm
    apply @authProcess_elim O env params fun m =>
      Changes env .auth params server (m.run { server }).2.server
    case helement => exact fun el _ _ => hcalm _ (keeps_calm_appendChild el)
    case hillegal => exact fun e _ _ => hcalm _ (Prog.keeps_throw e)
    case hsid => exact fun _ => hcalm _ (keeps_calm_getSid hacc)
    case hlogout => exact fun _ => hcalm _ keeps_calm_logout
    case htoken =>
      intro hact
      by_cases hex : ∃ sid session, params.get (str "sid") = some sid ∧
          server.sessions.find? sid = some session
      · obtain ⟨sid, session, hsid, hsession⟩ := hex
        exact changes_getToken hact hsid hsession
      · exact changes_noSession hex
    case hlogin =>
      intro hact
      by_cases hex : ∃ sid session, params.get (str "sid") = some sid ∧
          server.sessions.find? sid = some session
      · obtain ⟨sid, session, hsid, hsession⟩ := hex
        exact changes_login hact hsid hsession
      · exact changes_noSession hex
  · exact changes_of_calm server (keeps_calm_process hacc fun hauth => absurd hauth hpage)

/-- **A request changes no login and no token but its own.** -/
theorem openRequest_changes (hacc : env.cfg.accountsEnabled = true) (server : Server O) :
    Changes env page params server (openRequest env page params server).2 := by
  have hprocess := @changes_process O env params page hacc server
  unfold openRequest
  split
  · rw [Prog.run_bind]
    rcases hrun : (process env params page).run { server } with ⟨e | ⟨⟩, r⟩
    · rw [hrun] at hprocess
      exact hprocess
    · rw [hrun] at hprocess
      have hwrap := hprocess.calm (@keeps_calm_wrapper O params)
      simp only
      rcases hrest : (wrapper params).run r with ⟨e | ⟨⟩, r'⟩
      · rw [hrest] at hwrap
        exact hwrap
      · rw [hrest] at hwrap
        exact hwrap
  · exact ⟨rfl, fun id hid => Or.inl hid, fun id tok htok => Or.inl htok⟩

theorem createWebRequestHandler_auth {name : Str}
    (h : createWebRequestHandler name = .ok .auth) : name = str "auth" := by
  -- another page's branch is not the one that was taken
  have skip : ∀ {c : Prop} [Decidable c] {page : Page} {rest : Except Exception Page},
      page ≠ .auth → (if c then .ok page else rest) = .ok .auth → rest = .ok .auth := by
    intro c _ page rest hpage h
    by_cases hc : c
    · rw [if_pos hc] at h
      exact absurd (Except.ok.inj h) hpage
    · rwa [if_neg hc] at h
  unfold createWebRequestHandler at h
  replace h := skip (by decide) (skip (by decide) (skip (by decide) h))
  by_contra hne
  rw [if_neg hne] at h
  replace h := skip (by decide) (skip (by decide) (skip (by decide) (skip (by decide) h)))
  replace h := skip (by decide) (skip (by decide) (skip (by decide) (skip (by decide) h)))
  replace h := skip (by decide) (skip (by decide) h)
  cases h

/-- The event is a request of the page `auth` with this action, for this session. -/
def AuthRequest (e : WebEvent O) (params : Dictionary) (action id : Str) : Prop :=
  e = .request (str "auth") params ∧ params.get (str "action") = some action ∧
    params.get (str "sid") = some id

/-- **What a step does to the sessions.** -/
structure StepChanges (env : Env O) (server : Server O) (e : WebEvent O) (after : Server O) :
    Prop where
  now : server.now ≤ after.now
  loggedIn : ∀ id, LoggedIn after.sessions id → LoggedIn server.sessions id ∨
    ∃ params session, AuthRequest e params (str "login") id ∧
      server.sessions.find? id = some session ∧ LoginFits env params server.now session
  token : ∀ id tok, tokenAt after.sessions id = some tok →
    tokenAt server.sessions id = some tok ∨
      ∃ params salt, AuthRequest e params (str "get_token") id ∧
        tok = tokenText (server.now + loginTimeout) salt

theorem stepChanges_of_calm {server after : Server O} {e : WebEvent O}
    (hnow : server.now ≤ after.now) (h : Calm server.sessions after.sessions) :
    StepChanges env server e after :=
  ⟨hnow, fun id hid => Or.inl (h.loggedIn id hid), fun id tok htok => Or.inl (h.token id tok htok)⟩

theorem step_changes (hacc : env.cfg.accountsEnabled = true) {server after : Server O}
    {e : WebEvent O} (h : server.step env e = some after) : StepChanges env server e after := by
  cases e with
  | request name params =>
    simp only [Server.step] at h
    rcases hpage : createWebRequestHandler name with ex | page
    · rw [hpage] at h
      cases h
      exact stepChanges_of_calm (Nat.le_refl _) (Calm.refl _)
    · rw [hpage] at h
      cases h
      obtain ⟨hnow, hlogged, htoken⟩ := @openRequest_changes O env params page hacc server
      refine ⟨hnow.symm.le, fun id hid => ?_, fun id tok htok => ?_⟩
      · rcases hlogged id hid with hold | ⟨rfl, hact, hsid, session, hsession, hfits⟩
        · exact Or.inl hold
        · rw [createWebRequestHandler_auth hpage]
          exact Or.inr ⟨params, session, ⟨rfl, hact, hsid⟩, hsession, hfits⟩
      · rcases htoken id tok htok with hold | ⟨rfl, hact, hsid, salt, hsalt⟩
        · exact Or.inl hold
        · rw [createWebRequestHandler_auth hpage]
          exact Or.inr ⟨params, salt, ⟨rfl, hact, hsid⟩, hsalt⟩
  | tick seconds =>
    cases h
    exact stepChanges_of_calm (Nat.le_add_right _ _) (Calm.refl _)
  | timerNotify expired =>
    cases h
    exact stepChanges_of_calm (Nat.le_refl _) (calm_delete _ _)
  | elsewhere world notices =>
    cases h
    exact stepChanges_of_calm (Nat.le_refl _) (calm_notifyAll _ _)

/-! ## The way of a token -/

/-- In the run, the session `id` has got this token at the time `t`, and has had it since. -/
def IssuedTo (env : Env O) (server₀ : Server O) (es : List (WebEvent O)) (id token : Str)
    (t : Nat) : Prop :=
  ∃ before e params after server server', es = before ++ e :: after ∧
    AuthRequest e params (str "get_token") id ∧
    Machine.run (Server.step env) server₀ before = some server ∧ server.now = t ∧
    server.step env e = some server' ∧
    Machine.Always (fun s => tokenAt s.sessions id = some token) (Server.step env) server' after

/-- A token that was issued before a step, and is there after it, is still the one issued. -/
theorem IssuedTo.concat {server₀ s s' : Server O} {es : List (WebEvent O)} {e : WebEvent O}
    {id token : Str} {t : Nat} (h : IssuedTo env server₀ es id token t)
    (hrun : Machine.run (Server.step env) server₀ es = some s) (hstep : s.step env e = some s')
    (htok : tokenAt s'.sessions id = some token) : IssuedTo env server₀ (es ++ [e]) id token t := by
  obtain ⟨before, e₀, params, after, server, server', rfl, hauth, hbefore, hnow, hissue, halways⟩ := h
  refine ⟨before, e₀, params, after ++ [e], server, server', by rw [List.append_assoc]; rfl, hauth,
    hbefore, hnow, hissue, ?_⟩
  have hafter : Machine.run (Server.step env) server' after = some s := by
    rw [Machine.run_append, hbefore, Option.bind_some, Machine.run_cons, hissue] at hrun
    exact hrun
  intro mid hmid s'' hs''
  rcases List.prefix_concat_iff.mp hmid with rfl | hmid
  · rw [Machine.run_concat, hafter, Option.bind_some, hstep] at hs''
    cases hs''
    exact htok
  · exact halways mid hmid s'' hs''

/-- **Where a token comes from.**  Going back in the run, to the request that asked for it. -/
theorem issuedTo_of_tokenAt (hacc : env.cfg.accountsEnabled = true) {server₀ : Server O}
    (h₀ : server₀.sessions = .empty) (es : List (WebEvent O)) :
    ∀ {s id token}, Machine.run (Server.step env) server₀ es = some s →
      tokenAt s.sessions id = some token → ∃ t salt, IssuedTo env server₀ es id token t ∧
        t ≤ s.now ∧ token = tokenText (t + loginTimeout) salt := by
  induction es using List.reverseRecOn with
  | nil =>
    intro s id token hrun htok
    cases hrun
    rw [h₀] at htok
    cases htok
  | append_singleton es e ih =>
    intro s' id token hrun htok
    rw [Machine.run_concat] at hrun
    obtain ⟨s, hs, hstep⟩ := Option.bind_eq_some_iff.mp hrun
    obtain ⟨hnow, -, htoken⟩ := step_changes hacc hstep
    rcases htoken id token htok with hold | ⟨params, salt, hauth, hsalt⟩
    · obtain ⟨t, salt, hissued, ht, hsalt⟩ := ih hs hold
      exact ⟨t, salt, hissued.concat hs hstep htok, ht.trans hnow, hsalt⟩
    · refine ⟨s.now, salt, ⟨es, e, params, [], s, s', rfl, hauth, hs, rfl, hstep, ?_⟩, hnow, hsalt⟩
      intro mid hmid s'' hs''
      rw [List.prefix_nil.mp hmid] at hs''
      cases hs''
      exact htok

/-! ## The check of a token -/

theorem toInt_fromInt_le (n : Nat) : toInt (some (fromInt n)) ≤ n := by
  have hread : strtol (fromInt n) = (min (n : Int) (2 ^ 63 - 1), []) := strtol_digits n
  unfold toInt
  simp only [hread, if_true]
  rw [Int.bmod_def]
  split <;> omega

theorem tokenText_split (expiration : Nat) (salt : Str) :
    splitString (some (tokenText expiration salt)) '_'.toUInt8 false =
      fromInt expiration :: splitStringFrom '_'.toUInt8 false [] salt :=
  splitStringFrom_part (CdsResource.not_mem_fromInt (by decide) (by decide)) (fromInt_ne_nil _) salt

/-- A token that is accepted has not expired. -/
theorem checkToken_tokenText {md5 : Str → Str} {now expiration : Nat}
    {salt password encPassword : Str}
    (h : checkToken md5 now (some (tokenText expiration salt)) password encPassword = true) :
    now ≤ expiration ∧ encPassword = md5 (tokenText expiration salt ++ password) := by
  unfold checkToken at h
  rw [tokenText_split] at h
  split at h
  · next first _ hparts =>
    obtain ⟨rfl, -⟩ := List.cons.inj hparts
    split at h
    · cases h
    · next hnow =>
      have hle := toInt_fromInt_le expiration
      exact ⟨by omega, (of_decide_eq_true h).symm⟩
  · cases h

/-- What a login that succeeds has shown. -/
theorem loginFits_spec {now : Nat} {session : Session} (h : loginFits env params now session = true) :
    ∃ user password, params.get (str "username") = some user ∧
      env.cfg.accounts.get user = some password ∧
      checkToken env.md5 now (session.data.get (str "token")) password
        ((params.get (str "password")).getD []) = true := by
  unfold loginFits at h
  split at h
  · cases h
  · cases h
  · next password _ hpassword =>
    obtain ⟨user, huser, haccount⟩ := Option.bind_eq_some_iff.mp hpassword
    exact ⟨user, password, huser, haccount, h⟩

/-- **(a)** as one step of a run has it: every login that is new in `s'` was earned. -/
def LoginsEarned (env : Env O) (server₀ : Server O) (es : List (WebEvent O)) (s : Server O)
    (e : WebEvent O) (s' : Server O) : Prop :=
  ∀ id, LoggedIn s'.sessions id → ¬LoggedIn s.sessions id →
    ∃ params user password token t, AuthRequest e params (str "login") id ∧
      params.get (str "username") = some user ∧ env.cfg.accounts.get user = some password ∧
      params.get (str "password") = some (env.md5 (token ++ password)) ∧
      IssuedTo env server₀ es id token t ∧ t ≤ s.now ∧ s.now ≤ t + 10

theorem logins_earned (hacc : env.cfg.accountsEnabled = true) {server₀ : Server O}
    (h₀ : server₀.sessions = .empty) {es : List (WebEvent O)} {e : WebEvent O} {s s' : Server O}
    (hrun : Machine.run (Server.step env) server₀ es = some s) (hstep : s.step env e = some s') :
    LoginsEarned env server₀ es s e s' := by
  intro id hlogged hnot
  rcases (step_changes hacc hstep).loggedIn id hlogged with hold |
    ⟨params, session, hauth, hsession, -, hpassOk, hfits⟩
  · exact absurd hold hnot
  obtain ⟨user, password, huser, haccount, hcheck⟩ := loginFits_spec hfits
  rcases htok : session.data.get (str "token") with _ | token
  · rw [htok] at hcheck
    cases hcheck
  · have htokenAt : tokenAt s.sessions id = some token := by
      rw [tokenAt, hsession]
      exact htok
    obtain ⟨t, salt, hissued, ht, rfl⟩ := issuedTo_of_tokenAt hacc h₀ es hrun htokenAt
    rw [htok] at hcheck
    obtain ⟨hnow, henc⟩ := checkToken_tokenText hcheck
    rcases hpass : params.get (str "password") with _ | enc
    · rw [hpass] at hpassOk
      cases hpassOk
    · rw [hpass] at henc
      exact ⟨params, user, password, _, t, hauth, huser, haccount, hpass.trans (congrArg some henc),
        hissued, ht, hnow⟩

/-- **Access control.**  In every run with accounts, every login is earned; and a request without a
    login leaves the world as it is, and is blind for it unless it is one of the two that show the
    current task. -/
theorem web_access (hacc : env.cfg.accountsEnabled = true) {server₀ : Server O}
    (h₀ : server₀.sessions = .empty) {es : List (WebEvent O)} {s : Server O}
    (hrun : Machine.run (Server.step env) server₀ es = some s) :
    (∀ e s', s.step env e = some s' → LoginsEarned env server₀ es s e s') ∧
    ∀ page params, NotLoggedIn s params →
      (openRequest env page params s).2.world = s.world ∧
      ((∀ w, (openRequest env page params (s.withWorld w)).1 = (openRequest env page params s).1) ↔
        ¬ShowsTask env s page params) :=
  ⟨fun _ _ hstep => logins_earned hacc h₀ hrun hstep, fun _ _ h =>
    ⟨openRequest_world h, reply_blind_iff h⟩⟩

theorem notLoggedIn_of_find {server : Server O} {sid : Str} (hsid : params.get (str "sid") = some sid)
    (h : (server.sessions.find? sid).map Session.loggedIn = some false) :
    NotLoggedIn server params := by
  intro sid' session hsid' hsession
  rw [hsid] at hsid'
  cases hsid'
  rw [hsession] at h
  exact Option.some.inj h

end

/-! ## A house with one user -/

/-- One user; the random ids count up, and what is hashed is only turned round. -/
def houseEnv : Env Unit where
  cfg := { accounts := (Dictionary.put .empty (str "anna") (str "secret") : Dictionary) }
  md5 := List.reverse
  randomID n := fromInt n
  body _ _ world := { world }

def houseServer : Server Unit where
  world := { objects := (), currentTask := none }

/-- The world in which a private film is being imported. -/
def importingWorld : World Unit where
  objects := ()
  currentTask := some ⟨7, true, str "Importing: /home/anna/private.avi"⟩

def authParams (rows : List (Str × Str)) : Dictionary :=
  rows.foldl (fun d row => d.put row.1 row.2) .empty

def tokenParams : Dictionary := authParams [(str "action", str "get_token"), (str "sid", str "0")]

/-- The session `0`, and its token `10_1`. -/
def houseRun : List (WebEvent Unit) :=
  [.request (str "auth") (authParams [(str "action", str "get_sid")]),
    .request (str "auth") tokenParams]

def houseLogin : WebEvent Unit :=
  .request (str "auth") (authParams [(str "action", str "login"), (str "sid", str "0"),
    (str "username", str "anna"), (str "password", (str "10_1secret").reverse)])

/-- The house after these events. -/
def houseAfter (es : List (WebEvent Unit)) : Server Unit :=
  (Machine.run (Server.step houseEnv) houseServer es).getD houseServer

theorem houseAfter_run {es : List (WebEvent Unit)}
    (h : (Machine.run (Server.step houseEnv) houseServer es).isSome = true) :
    Machine.run (Server.step houseEnv) houseServer es = some (houseAfter es) := by
  unfold houseAfter
  obtain ⟨s, hs⟩ := Option.isSome_iff_exists.mp h
  rw [hs]
  rfl

/-- Anna logs in, and has earned it. -/
theorem web_access_anna :
    ((houseAfter houseRun).sessions.find? (str "0")).map Session.loggedIn = some false ∧
    ((houseAfter (houseRun ++ [houseLogin])).sessions.find? (str "0")).map Session.loggedIn =
      some true ∧
    LoginsEarned houseEnv houseServer houseRun (houseAfter houseRun) houseLogin
      (houseAfter (houseRun ++ [houseLogin])) ∧
    (openRequest houseEnv .auth tokenParams (houseAfter houseRun)).2.world =
      (houseAfter houseRun).world := by
  have hrun := @houseAfter_run houseRun (by decide +kernel)
  have hboth := @houseAfter_run (houseRun ++ [houseLogin]) (by decide +kernel)
  rw [Machine.run_concat, hrun, Option.bind_some] at hboth
  have hout : ((houseAfter houseRun).sessions.find? (str "0")).map Session.loggedIn =
      some false := by
    decide +kernel
  obtain ⟨hlogins, hrequests⟩ := @web_access Unit houseEnv rfl houseServer rfl houseRun _ hrun
  refine ⟨hout, by decide +kernel, hlogins _ _ hboth, ?_⟩
  exact (hrequests .auth tokenParams (notLoggedIn_of_find (by decide) hout)).1

/-- **The reply shows what is being imported** to a visitor who has no password. -/
theorem reply_not_blind : ¬ ∀ (env : Env Unit) (server₀ s : Server Unit) (es : List (WebEvent Unit))
    (page : Page) (params : Dictionary) (w : World Unit) (print : Element → Str),
    env.cfg.accountsEnabled = true → server₀.sessions = .empty →
    Machine.run (Server.step env) server₀ es = some s → NotLoggedIn s params →
    replyText print params (openRequest env page params (s.withWorld w)).1 =
      replyText print params (openRequest env page params s).1 := by
  intro h
  have hrun := @houseAfter_run (houseRun.take 1) (by decide +kernel)
  have hout : ((houseAfter (houseRun.take 1)).sessions.find? (str "0")).map Session.loggedIn =
      some false := by
    decide +kernel
  have hsame := h houseEnv houseServer _ (houseRun.take 1) .auth tokenParams importingWorld
    (fun _ => []) rfl rfl hrun (notLoggedIn_of_find (by decide) hout)
  revert hsame
  decide +kernel

end MediaTomb
