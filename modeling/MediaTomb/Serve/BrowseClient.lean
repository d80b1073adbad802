/-
  A control point that lists a container over the network, while others browse as well.

  DATA.     the children of a container; requests and responses as they are sent, in bytes.
  PROGRAM.  the control point asks for one page after the other, until a page is not full.  Between
            two of its requests the server answers any others; all of them change the cache, and
            none changes a table.
  RESULT.   it has received every child exactly once, in the order of the listing
            (`client_lists_children`): each element that it reads shows an object that was read of
            the child's row.

  Nothing else writes to the tables meanwhile, and every child can be sent.
-/
import MediaTomb.Lib.Merge
import MediaTomb.Serve.BrowseAction
import MediaTomb.Storage.OnlyRead

namespace MediaTomb

open Lib.Prog Lib.Xml

/-! ## The server and the control point -/

/-- `Browse` of the direct children, as a control point asks for it. -/
def browseRequest (serviceType : Str) (objectID startingIndex requestedCount : Int) : Mxml.Element :=
  .mk (str "u:Browse") [{ name := str "xmlns:u", value := serviceType }]
    ([textChild (str "ObjectID") (some (fromInt objectID)),
      textChild (str "BrowseFlag") (some (str "BrowseDirectChildren")),
      textChild (str "Filter") (some (str "*")),
      textChild (str "StartingIndex") (some (fromInt startingIndex)),
      textChild (str "RequestedCount") (some (fromInt requestedCount)),
      textChild (str "SortCriteria") (some [])].map .element)

/-- The server, as a control point sees it. -/
structure BrowseServer where
  cfg : BrowseConfig
  before : Nat → UInt8
  systemUpdateID : Int
  parse : Str → Option (List Event)

namespace BrowseServer

/-- A request is parsed (`ActionRequest`), and its response is printed; there is none when the
    request cannot be parsed, and none after an `UpnpException`. -/
def answer (server : BrowseServer) (xml : Str) : Storage (Option Str) :=
  match Mxml.parseString server.parse xml with
  | none => pure none
  | some req => upnpActionBrowse server.cfg server.before server.systemUpdateID req >>= fun
    | .response response => pure (some response.print)
    | .upnpException _ _ => pure none

/-- Requests of other control points.  An exception ends the request. -/
def serve (server : BrowseServer) (requests : List Str) : Storage Unit :=
  forEach (fun xml => (server.answer xml >>= fun _ => pure ()).tryCatch fun _ => pure ()) requests

/-- **A control point lists a container**, page by page, until a page is not full; `others` is what
    the server is asked before each of its requests. -/
def listAll (server : BrowseServer) (others : Nat → List Str) (objectID : Int) (size : Nat) :
    Nat → Nat → Storage (Option (List Mxml.Element))
  | 0, _ => pure none
  | pages + 1, start => do
    server.serve (others start)
    let xml ← server.answer (browseRequest server.cfg.serviceType objectID start size).print
    match xml.bind (readReply server.parse) with
    | none => pure none
    | some reply =>
      if toInt reply.numberReturned < size then pure (some reply.didl.elements)
      else do
        let rest ← server.listAll others objectID size pages (start + size)
        pure (rest.map (reply.didl.elements ++ ·))

end BrowseServer

/-- Are the children sorted by track?  It depends on the class in the container's row. -/
def trackSorted (db : Database) (objectID : Int) : Bool :=
  match (db.objects.find? objectID).map fun r => (db.join r).toObject with
  | some (.ok o) => o.upnpClass = some upnpDefaultClassMusicAlbum ∨
      o.upnpClass = some upnpDefaultClassPlaylistContainer
  | _ => false

/-- What storage is asked for. -/
def BrowseServer.param (server : BrowseServer) (db : Database) (objectID startingIndex
    requestedCount : Int) : BrowseParam where
  objectID := objectID
  directChildren := true
  containers := true
  items := true
  hideFsRoot := server.cfg.hidePcDirectory
  trackSort := trackSorted db objectID
  startingIndex := startingIndex
  requestedCount := requestedCount

/-- The children, in the order in which they are listed. -/
def BrowseServer.children (server : BrowseServer) (db : Database) (objectID : Int) :
    List ObjectRow :=
  listing (server.param db objectID 0 0) db.objects.rows

/-- The element shows an object that was read of the row. -/
def BrowseServer.ShowsRow (server : BrowseServer) (db : Database) (r : ObjectRow)
    (el : Mxml.Element) : Prop :=
  ∃ obj, ReadFrom db r obj ∧ server.cfg.Shows server.before obj el

/-- **The container can be listed**: it and its children can be read, and what is read of them can be
    sent. -/
structure BrowseServer.Lists (server : BrowseServer) (db : Database) (objectID : Int) : Prop where
  conforming : Conforming server.parse
  serviceType : Mxml.SendableValue server.cfg.serviceType
  container : LoadableContainer db objectID
  listable : Listable db objectID
  sendable : ∀ r ∈ db.objects.rows, r.parentID = objectID → ∀ obj, ReadFrom db r obj →
    server.cfg.Sendable server.before (server.cfg.markPlayed obj)
  isInt : -2 ^ 31 ≤ objectID ∧ objectID < 2 ^ 31

section

variable {server : BrowseServer} {db : Database} {s : StorageState} {objectID : Int}
  {cfg : BrowseConfig} {before : Nat → UInt8} {obj parent : CdsObject} {objs : List CdsObject}
  {req : Mxml.Element}

/-! ## Any request -/

theorem onlyRead_upnpActionBrowse (cfg : BrowseConfig) (before : Nat → UInt8) (systemUpdateID : Int)
    (req : Mxml.Element) :
    Triple (OnlyRead db) (upnpActionBrowse cfg before systemUpdateID req) (fun _ => OnlyRead db)
      (OnlyRead db) := by
  have hbrowse : ∀ param, Triple (OnlyRead db) (tryBrowse param) (fun _ => OnlyRead db)
      (OnlyRead db) := by
    intro param
    refine triple_tryCatch (triple_bind (onlyRead_browse param) fun found =>
      triple_pure fun _ h => h.1) fun _ => triple_pure fun _ h => h
  unfold upnpActionBrowse
  simp only
  split
  · exact triple_pure fun _ h => h
  · split
    · exact triple_pure fun _ h => h
    · refine triple_bind (M := fun _ => OnlyRead db) ?_ fun parent =>
        triple_bind (hbrowse _) fun found => triple_ofExcept (fun _ _ _ h => h) fun _ _ _ h => h
      exact triple_conseq (onlyRead_loadObject _) (fun _ h => h) (fun _ _ h => h.1) fun _ h => h

/-- **Whatever is asked**, only the cache changes. -/
theorem onlyRead_answer (server : BrowseServer) (xml : Str) :
    Triple (OnlyRead db) (server.answer xml) (fun _ => OnlyRead db) (OnlyRead db) := by
  unfold BrowseServer.answer
  rcases Mxml.parseString server.parse xml with _ | req
  · exact triple_pure fun _ h => h
  · refine triple_bind (onlyRead_upnpActionBrowse _ _ _ req) fun answer => ?_
    rcases answer with response | ⟨errCode, message⟩
    · exact triple_pure fun _ h => h
    · exact triple_pure fun _ h => h

theorem OnlyRead.run_serve (h : OnlyRead db s) (requests : List Str) :
    ∃ s', (server.serve requests).run s = (.ok (), s') ∧ OnlyRead db s' := by
  induction requests generalizing s with
  | nil => exact ⟨s, rfl, h⟩
  | cons xml requests ih =>
    have hone : Triple (OnlyRead db) ((server.answer xml >>= fun _ => pure ()).tryCatch fun _ =>
        (pure () : Storage Unit)) (fun _ => OnlyRead db) (fun _ => False) :=
      triple_tryCatch (triple_bind (onlyRead_answer server xml) fun _ => triple_pure fun _ h => h)
        fun _ => triple_pure fun _ h => h
    have hspec := hone s h
    unfold BrowseServer.serve
    rw [forEach]
    rcases hrun : ((server.answer xml >>= fun _ => pure ()).tryCatch fun _ =>
        (pure () : Storage Unit)).run s with ⟨e | ⟨⟩, s₁⟩
    · rw [hrun] at hspec
      exact hspec.elim
    · rw [hrun] at hspec
      obtain ⟨s', hrest, h'⟩ := ih hspec
      rw [run_bind_of_ok hrun]
      exact ⟨s', hrest, h'⟩

/-! ## The request of the control point -/

theorem sendable_browseRequest {serviceType : Str} (hservice : Mxml.SendableValue serviceType)
    (objectID startingIndex requestedCount : Int) :
    (browseRequest serviceType objectID startingIndex requestedCount).Sendable := by
  have hname : IsName (str "u:Browse") := Mxml.isName_ascii (by decide)
  have hns : IsName (str "xmlns:u") := Mxml.isName_ascii (by decide)
  have hid : IsName (str "ObjectID") := Mxml.isName_ascii (by decide)
  have hflag : IsName (str "BrowseFlag") := Mxml.isName_ascii (by decide)
  have hfilter : IsName (str "Filter") := Mxml.isName_ascii (by decide)
  have hstart : IsName (str "StartingIndex") := Mxml.isName_ascii (by decide)
  have hcount : IsName (str "RequestedCount") := Mxml.isName_ascii (by decide)
  have hsort : IsName (str "SortCriteria") := Mxml.isName_ascii (by decide)
  have hnumber : ∀ x : Int, Mxml.SendableText (fromInt x) := fun x =>
    (Mxml.sendableValue_fromInt x).sendableText
  refine Mxml.sendable_mk hname ?_ (List.nodup_singleton _) ?_
  · intro a ha
    rw [List.mem_singleton.mp ha]
    exact ⟨hns, hservice⟩
  · intro el hel
    simp only [List.mem_cons, List.not_mem_nil, or_false] at hel
    rcases hel with rfl | rfl | rfl | rfl | rfl | rfl
    · exact Mxml.sendable_textChild hid (hnumber objectID)
    · exact Mxml.sendable_textChild hflag (Mxml.sendableValue_ascii (by decide)).sendableText
    · exact Mxml.sendable_textChild hfilter (Mxml.sendableValue_ascii (by decide)).sendableText
    · exact Mxml.sendable_textChild hstart (hnumber startingIndex)
    · exact Mxml.sendable_textChild hcount (hnumber requestedCount)
    · exact Mxml.sendable_textChild hsort (Mxml.sendableValue_ascii (by decide)).sendableText

/-- **The request arrives**: the server reads in it what the control point has put there. -/
theorem browseRequest_received (hconf : Conforming server.parse) {serviceType : Str}
    (hservice : Mxml.SendableValue serviceType) (objectID startingIndex requestedCount : Int) :
    ∃ req, Mxml.parseString server.parse
        (browseRequest serviceType objectID startingIndex requestedCount).print = some req ∧
      req.getChildText (str "ObjectID") = some (fromInt objectID) ∧
      req.getChildText (str "BrowseFlag") = some (str "BrowseDirectChildren") ∧
      req.getChildText (str "StartingIndex") = some (fromInt startingIndex) ∧
      req.getChildText (str "RequestedCount") = some (fromInt requestedCount) := by
  obtain ⟨req, hreq, hjoined⟩ :=
    (sendable_browseRequest hservice objectID startingIndex requestedCount).read_back hconf
  refine ⟨req, hreq, ?_, ?_, ?_, ?_⟩
  · refine Mxml.getChildText_joined hjoined ?_ (fromInt_ne_nil _)
    exact Mxml.getChildText_first ..
  · refine Mxml.getChildText_joined hjoined ?_ (by decide)
    unfold browseRequest
    rw [Mxml.getChildText_rest _ _ (by decide), Mxml.getChildText_first]
  · refine Mxml.getChildText_joined hjoined ?_ (fromInt_ne_nil _)
    unfold browseRequest
    rw [Mxml.getChildText_rest _ _ (by decide), Mxml.getChildText_rest _ _ (by decide),
      Mxml.getChildText_rest _ _ (by decide), Mxml.getChildText_first]
  · refine Mxml.getChildText_joined hjoined ?_ (fromInt_ne_nil _)
    unfold browseRequest
    rw [Mxml.getChildText_rest _ _ (by decide), Mxml.getChildText_rest _ _ (by decide),
      Mxml.getChildText_rest _ _ (by decide), Mxml.getChildText_rest _ _ (by decide),
      Mxml.getChildText_first]

/-- The class that is loaded is the one in the row. -/
theorem ClassOf.trackSorted (h : ClassOf db objectID parent) :
    MediaTomb.trackSorted db objectID =
      decide (parent.upnpClass = some upnpDefaultClassMusicAlbum ∨
        parent.upnpClass = some upnpDefaultClassPlaylistContainer) := by
  obtain ⟨r, hr, hid, o, hread, hclass⟩ := h
  have hfind : db.objects.find? objectID = some r := Lib.Table.find?_eq_some.mpr ⟨hr, hid⟩
  unfold MediaTomb.trackSorted
  rw [hfind, Option.map_some, hread, hclass]

/-- What storage is asked for is what the control point has asked for. -/
theorem browseParam_received (hclass : ClassOf db objectID parent) {start size : Nat}
    (hid : toInt (req.getChildText (str "ObjectID")) = objectID)
    (hflag : req.getChildText (str "BrowseFlag") = some (str "BrowseDirectChildren"))
    (hstart : toInt (req.getChildText (str "StartingIndex")) = start)
    (hcount : toInt (req.getChildText (str "RequestedCount")) = size) :
    browseParam server.cfg req parent = server.param db objectID start size := by
  unfold browseParam BrowseServer.param
  rw [hid, hflag, hstart, hcount, hclass.trackSorted]
  simp

/-! ## Objects and rows -/

/-- Objects with the ids of rows have been read of them. -/
theorem readFrom_rows {rows : List ObjectRow} (hids : objs.map CdsObject.id = rows.map ObjectRow.id)
    (hrows : ∀ r ∈ rows, r ∈ db.objects.rows) (hobjs : AllRead db objs) :
    List.Forall₂ (ReadFrom db) rows objs := by
  induction rows generalizing objs with
  | nil =>
    rw [List.map_nil, List.map_eq_nil_iff] at hids
    rw [hids]
    exact .nil
  | cons r rows ih =>
    rw [List.map_cons] at hids
    obtain ⟨obj, objs', rfl, hid, hrest⟩ := List.map_eq_cons_iff.mp hids
    obtain ⟨hr, hrows⟩ := List.forall_mem_cons.mp hrows
    obtain ⟨⟨r', hr', hread⟩, hobjs⟩ := List.forall_mem_cons.mp hobjs
    have hsame : r' = r := db.objects.eq_of_key_eq hr' hr (hread.id.symm.trans hid)
    exact .cons (hsame ▸ hread) (ih hrest hrows hobjs)

theorem didlObject_ok (h : cfg.Sendable before obj) : ∃ el, cfg.didlObject before obj = .ok el := by
  unfold BrowseConfig.didlObject
  simp only
  by_cases hitem : isCdsItem obj.objectType = true
  · obtain ⟨els, hels, -⟩ := h.resources hitem
    rw [if_pos hitem, hels]
    exact ⟨_, rfl⟩
  · rw [if_neg hitem]
    exact ⟨_, rfl⟩

/-- What can be sent is rendered. -/
theorem didlObjects_of_sendable (h : ∀ obj ∈ objs, cfg.Sendable before (cfg.markPlayed obj)) :
    ∃ els, cfg.didlObjects before objs = .ok els := by
  induction objs with
  | nil => exact ⟨[], rfl⟩
  | cons obj objs ih =>
    obtain ⟨hobj, hobjs⟩ := List.forall_mem_cons.mp h
    obtain ⟨el, hel⟩ := didlObject_ok hobj
    obtain ⟨els, hels⟩ := ih hobjs
    refine ⟨el :: els, ?_⟩
    rw [BrowseConfig.didlObjects, hel, hels]
    rfl

/-- Rows, the objects that are read of them, and the elements that show those. -/
theorem showsRow_of_shows {rows : List ObjectRow} {els : List Mxml.Element}
    (hread : List.Forall₂ (ReadFrom db) rows objs)
    (hshows : List.Forall₂ (server.cfg.Shows server.before) objs els) :
    List.Forall₂ (server.ShowsRow db) rows els := by
  induction hread generalizing els with
  | nil =>
    cases hshows
    exact .nil
  | cons hone hrest ih =>
    rcases hshows with _ | ⟨hel, hels⟩
    exact .cons ⟨_, hone, hel⟩ (ih hels)

theorem BrowseServer.ShowsRow.id {r : ObjectRow} {el : Mxml.Element}
    (h : server.ShowsRow db r el) : el.getAttribute (str "id") = some (fromInt r.id) := by
  obtain ⟨obj, hread, hshows⟩ := h
  rw [hshows.id, hread.id]

theorem ids_of_showsRow {rows : List ObjectRow} {els : List Mxml.Element}
    (h : List.Forall₂ (server.ShowsRow db) rows els) :
    els.map (fun el => el.getAttribute (str "id")) = rows.map fun r => some (fromInt r.id) := by
  induction h with
  | nil => rfl
  | cons hone hrest ih => rw [List.map_cons, List.map_cons, hone.id, ih]

/-- **The action**, where each of its parts goes through. -/
theorem run_upnpActionBrowse {s₁ s₂ : StorageState} {totalMatches systemUpdateID : Int}
    {objects : List Mxml.Element} (hid : req.getChildText (str "ObjectID") ≠ none)
    (hflag : req.getChildText (str "BrowseFlag") = some (str "BrowseDirectChildren"))
    (hload : (loadObject (toInt (req.getChildText (str "ObjectID")))).run s = (.ok parent, s₁))
    (hbrowse : (browse (browseParam cfg req parent)).run s₁ = (.ok (objs, totalMatches), s₂))
    (hobjects : cfg.didlObjects before objs = .ok objects) :
    (upnpActionBrowse cfg before systemUpdateID req).run s =
      (.ok (.response (browseResponse cfg.serviceType objects totalMatches systemUpdateID)),
        s₂) := by
  have hfound : (tryBrowse (browseParam cfg req parent)).run s₁ =
      (.ok (some (objs, totalMatches)), s₂) := by
    unfold tryBrowse
    rw [run_tryCatch, run_bind_of_ok hbrowse]
    rfl
  have hanswer : answerBrowse cfg before systemUpdateID (some (objs, totalMatches)) =
      .ok (.response (browseResponse cfg.serviceType objects totalMatches systemUpdateID)) := by
    rw [answerBrowse, hobjects]
    rfl
  unfold upnpActionBrowse
  simp only
  rw [if_neg hid, if_neg (fun hboth => hboth.1 hflag), run_bind_of_ok hload,
    run_bind_of_ok hfound, run_ofExcept, hanswer]

/-! ## One page -/

theorem toInt_index {n : Nat} (h : n < 2 ^ 31) : toInt (some (fromInt (n : Int))) = n :=
  toInt_fromInt (by omega) (by omega)

theorem page_eq (server : BrowseServer) (db : Database) (objectID : Int) {start size : Nat}
    (hsize : 0 < size) :
    (browseLimit (server.param db objectID start size) (server.children db objectID)).map
        ObjectRow.id = (((server.children db objectID).drop start).take size).map ObjectRow.id := by
  have hindices : IndicesRight (start : Int) (size : Int) (server.children db objectID).length := by
    unfold IndicesRight
    rw [if_neg (by omega), if_pos (by omega)]
    exact Or.inl (Int.natCast_nonneg start)
  have hwindow : Lib.OrderBy.window (start : Int) (size : Int) (server.children db objectID) =
      ((server.children db objectID).drop start).take size := by
    rw [Lib.OrderBy.window_eq_take (by omega)]
    congr 1
    omega
  rw [← hwindow]
  exact (browseLimit_eq_window_iff ObjectRow.id (server.param db objectID start size) _).mpr hindices

/-- **One request is answered**: the page that is asked for arrives. -/
theorem answer_page (hlists : server.Lists db objectID) (h : OnlyRead db s) {start size : Nat}
    (hsize : 0 < size) (hstart : start < 2 ^ 31) (hcount : size < 2 ^ 31) :
    ∃ xml s' reply,
      (server.answer (browseRequest server.cfg.serviceType objectID start size).print).run s =
        (.ok (some xml), s') ∧ OnlyRead db s' ∧ readReply server.parse xml = some reply ∧
      List.Forall₂ (server.ShowsRow db) (((server.children db objectID).drop start).take size)
        reply.didl.elements ∧
      toInt reply.numberReturned = reply.didl.elements.length := by
  obtain ⟨req, hreq, hid, hflag, hfrom, hnumber⟩ :=
    browseRequest_received hlists.conforming hlists.serviceType objectID start size
  have hobjectID : toInt (req.getChildText (str "ObjectID")) = objectID := by
    rw [hid]
    exact toInt_fromInt hlists.isInt.1 hlists.isInt.2
  -- the container is loaded, and browsed
  obtain ⟨parent, s₁, hload, h₁, hclass⟩ := h.run_loadObject hlists.container
  have hparam : browseParam server.cfg req parent = server.param db objectID start size :=
    browseParam_received hclass hobjectID hflag (by rw [hfrom, toInt_index hstart])
      (by rw [hnumber, toInt_index hcount])
  obtain ⟨objs, s₂, hbrowse, hids, -⟩ := @Idle.run_browse (server.param db objectID start size) db s₁
    (h₁.idle hlists.container.row) hlists.container.row hlists.listable rfl
  have hspec := onlyRead_browse (server.param db objectID start size) s₁ h₁
  rw [hbrowse] at hspec
  obtain ⟨h₂, hread⟩ := hspec
  -- what is returned has been read of the rows of the page
  have hpage : objs.map CdsObject.id =
      (((server.children db objectID).drop start).take size).map ObjectRow.id :=
    hids.trans (page_eq server db objectID hsize)
  have hrows : ∀ r ∈ ((server.children db objectID).drop start).take size,
      r ∈ db.objects.rows ∧ r.parentID = objectID := fun r hr =>
    mem_listing (List.mem_of_mem_drop (List.mem_of_mem_take hr))
  have hall := readFrom_rows hpage (fun r hr => (hrows r hr).1) hread
  have hsend : ∀ obj ∈ objs, server.cfg.Sendable server.before (server.cfg.markPlayed obj) := by
    intro obj hobj
    obtain ⟨r, hr, hread⟩ := Lib.Merge.exists_left hall hobj
    exact hlists.sendable r (hrows r hr).1 (hrows r hr).2 obj hread
  -- and it is rendered and read back
  obtain ⟨objects, hobjects⟩ := didlObjects_of_sendable hsend
  obtain ⟨reply, hreply, hjoined, hreturned, -, -⟩ :=
    @readReply_browseResponse server.cfg objects server.parse server.systemUpdateID
      (countSaid s₁ objectID true true server.cfg.hidePcDirectory) hlists.conforming
      hlists.serviceType (sendable_didlObjects hsend hobjects)
  have hlength : reply.didl.elements.length = objects.length := by
    have hboth := congrArg List.length hjoined
    rwa [List.length_map, List.length_map] at hboth
  have hfull : objects.length < 2 ^ 31 := by
    have hsame := (didlObjects_ok hobjects).length_eq
    have hpages := hall.length_eq
    rw [List.length_take] at hpages
    omega
  refine ⟨_, s₂, reply, ?_, h₂, hreply, showsRow_of_shows hall
    (shows_of_joined (didlObjects_ok hobjects) hjoined), ?_⟩
  · have hload' : (loadObject (toInt (req.getChildText (str "ObjectID")))).run s =
        (.ok parent, s₁) := by
      rw [hobjectID]
      exact hload
    have hbrowse' : (browse (browseParam server.cfg req parent)).run s₁ =
        (.ok (objs, countSaid s₁ objectID true true server.cfg.hidePcDirectory), s₂) := by
      rw [hparam]
      exact hbrowse
    have hsome : req.getChildText (str "ObjectID") ≠ none := by
      rw [hid]
      exact Option.some_ne_none _
    have haction : (upnpActionBrowse server.cfg server.before server.systemUpdateID req).run s =
        (.ok (.response (browseResponse server.cfg.serviceType objects
          (countSaid s₁ objectID true true server.cfg.hidePcDirectory)
          server.systemUpdateID)), s₂) :=
      run_upnpActionBrowse hsome hflag hload' hbrowse' hobjects
    unfold BrowseServer.answer
    rw [hreq]
    simp only
    rw [run_bind_of_ok haction]
    rfl
  · rw [hreturned, hlength]
    exact toInt_index hfull

/-! ## The whole container -/

/-- Page by page, from some index on. -/
theorem OnlyRead.run_listAll (hlists : server.Lists db objectID) (others : Nat → List Str)
    {size : Nat} (hsize : 0 < size) (hcount : size < 2 ^ 31)
    (hlength : (server.children db objectID).length < 2 ^ 31) (pages : Nat) :
    ∀ {s : StorageState} (start : Nat), OnlyRead db s →
      start ≤ (server.children db objectID).length →
      (server.children db objectID).length < start + size * pages →
      ∃ els s', (server.listAll others objectID size pages start).run s = (.ok (some els), s') ∧
        OnlyRead db s' ∧
        List.Forall₂ (server.ShowsRow db) ((server.children db objectID).drop start) els := by
  induction pages with
  | zero =>
    intro s start h hstart henough
    omega
  | succ pages ih =>
    intro s start h hstart henough
    obtain ⟨s₁, hserve, h₁⟩ := @OnlyRead.run_serve server db s h (others start)
    obtain ⟨xml, s₂, reply, hanswer, h₂, hreply, hshows, hreturned⟩ :=
      answer_page hlists h₁ hsize (show start < 2 ^ 31 by omega) hcount
    have hpage := hshows.length_eq
    rw [List.length_take, List.length_drop] at hpage
    rw [BrowseServer.listAll, run_bind_of_ok hserve, run_bind_of_ok hanswer]
    simp only [Option.bind_some, hreply]
    rw [hreturned]
    by_cases hlast : (reply.didl.elements.length : Int) < size
    · -- the page is not full, so it is the last one
      rw [if_pos hlast]
      refine ⟨_, s₂, rfl, h₂, ?_⟩
      rwa [List.take_of_length_le (by rw [List.length_drop]; omega)] at hshows
    · rw [if_neg hlast]
      have hnext : (server.children db objectID).length < start + size + size * pages := by
        rw [Nat.mul_succ] at henough
        omega
      obtain ⟨els, s₃, hrest, h₃, hothers⟩ := ih (start + size) h₂ (by omega) hnext
      rw [run_bind_of_ok hrest]
      refine ⟨reply.didl.elements ++ els, s₃, rfl, h₃, ?_⟩
      rw [← List.drop_drop] at hothers
      have hboth : List.Forall₂ (server.ShowsRow db) (_ ++ _) (reply.didl.elements ++ els) :=
        List.rel_append hshows hothers
      rwa [List.take_append_drop] at hboth

/-- **A control point that lists a container** receives every child once, in the order of the
    listing, whatever others ask meanwhile. -/
theorem client_lists_children (hlists : server.Lists db objectID) (h : OnlyRead db s)
    (others : Nat → List Str) {size pages : Nat} (hsize : 0 < size) (hcount : size < 2 ^ 31)
    (hlength : (server.children db objectID).length < 2 ^ 31)
    (henough : (server.children db objectID).length < size * pages) :
    ∃ els s', (server.listAll others objectID size pages 0).run s = (.ok (some els), s') ∧
      List.Forall₂ (server.ShowsRow db) (server.children db objectID) els ∧
      els.map (fun el => el.getAttribute (str "id")) =
        (server.children db objectID).map fun r => some (fromInt r.id) := by
  obtain ⟨els, s', hrun, -, hshows⟩ := OnlyRead.run_listAll hlists others hsize hcount hlength pages
    0 h (Nat.zero_le _) (by omega)
  rw [List.drop_zero] at hshows
  exact ⟨els, s', hrun, hshows, ids_of_showsRow hshows⟩

end

/-! ## The database the schema creates -/

/-- The server as it is at first, and the parser that follows the standard to the letter. -/
def plainServer : BrowseServer where
  cfg := plainBrowse
  before := fun _ => 0
  systemUpdateID := 0
  parse := referenceParser

theorem sendable_pcDirectory {obj : CdsObject} (htitle : obj.title = some (str "PC Directory"))
    (hclass : obj.upnpClass = some (str "object.container"))
    (htype : obj.objectType = objectTypeContainer) :
    plainServer.cfg.Sendable plainServer.before obj where
  children := by
    intro child hchild
    have hno : isCdsItem obj.objectType = false := by
      rw [htype]
      decide
    have hchildren : (upnpXMLDIDLRenderObject plainServer.before obj false
        plainServer.cfg.stringLimit).children = [(metaTitle, some (str "PC Directory")),
          (str "upnp:class", some (str "object.container"))] := by
      unfold upnpXMLDIDLRenderObject
      rw [htitle, hclass, hno]
      rfl
    rw [hchildren] at hchild
    simp only [List.mem_cons, List.not_mem_nil, or_false] at hchild
    rcases hchild with rfl | rfl
    · exact ⟨Mxml.isName_ascii (by decide), (Mxml.sendableValue_ascii (by decide)).sendableText⟩
    · exact ⟨Mxml.isName_ascii (by decide), (Mxml.sendableValue_ascii (by decide)).sendableText⟩
  resources := by
    intro hitem
    rw [htype] at hitem
    exact absurd hitem (by decide)

theorem fresh_root : ∀ r ∈ Database.fresh.objects.rows, r.id = cdsIdRoot →
    Database.fresh.objects.find? cdsIdRoot = some r := by decide

/-- The root can be listed. -/
theorem lists_fresh : plainServer.Lists Database.fresh cdsIdRoot where
  conforming := conforming_referenceParser
  serviceType := sendable_plainService
  container := by
    refine ⟨containerRow_fresh, ?_, ?_⟩
    · intro r hr hid
      cases fresh_root r hr hid
      exact ⟨_, rfl⟩
    · intro r hr hid hactive
      cases fresh_root r hr hid
      exact absurd hactive (by decide)
  listable := listable_fresh
  sendable := by
    rintro r hr hparent obj ⟨o, hread, hsame, hkind⟩
    cases fresh_children r hr hparent
    cases hread
    refine sendable_pcDirectory ?_ ?_ ?_
    · exact congrArg CdsObject.title hsame
    · exact congrArg CdsObject.upnpClass hsame
    · show obj.kind.objectType = _
      rw [← CdsKind.objectType_asRead, hkind]
      rfl
  isInt := by decide

theorem length_children_fresh : (plainServer.children Database.fresh cdsIdRoot).length = 1 :=
  Lib.OrderBy.perm_sorted.length_eq

/-- The PC directory arrives, while another control point looks into it. -/
theorem client_lists_children_fresh :
    ∃ els s', (plainServer.listAll (fun _ => [(browseRequest plainServer.cfg.serviceType
        cdsIdFsRoot 0 0).print]) cdsIdRoot 1 2 0).run (.started Database.fresh true .ok) =
          (.ok (some els), s') ∧
      List.Forall₂ (plainServer.ShowsRow Database.fresh)
        (plainServer.children Database.fresh cdsIdRoot) els ∧
      els.map (fun el => el.getAttribute (str "id")) =
        (plainServer.children Database.fresh cdsIdRoot).map fun r => some (fromInt r.id) :=
  client_lists_children lists_fresh (onlyRead_started true .ok) _ (by decide) (by decide)
    (by rw [length_children_fresh]; decide) (by rw [length_children_fresh]; decide)

end MediaTomb
