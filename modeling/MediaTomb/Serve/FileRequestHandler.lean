/-
  `FileRequestHandler::get_info` and `FileRequestHandler::open` (`file_request_handler.cc`).

  Both decode the same path, and each has its own text for the way from there to what is served:

    * a RESOURCE of the item, by a metadata handler;
    * what a TRANSCODER makes of the file;
    * a title of a DVD IMAGE;
    * the FILE itself, or the subtitles beside it.

  What is reported of it is the length and the content type.  Once a request has been accepted, the
  file, the image or the transcoder still has to be opened; what goes wrong there is not looked at.
-/
import MediaTomb.Serve.TranscodeExternalHandler

namespace MediaTomb

/-! ## What the two functions work with -/

inductive TranscodingType where
  | none
  | external
  | remote
  deriving DecidableEq

/-- A profile that a request can name. -/
structure NamedProfile where
  name : Str
  type : TranscodingType
  external : ExternalProfile

structure MetadataHandler where
  getMimeType : Option Str
  /-- the length, for an item and the number of its resource -/
  serveContent : CdsObject → Int → Int

structure FileServer where
  loadObject : Int → Except Exception CdsObject
  /-- the size of a file, or the text of the error -/
  stat : Str → Except Str Int
  transcode : TranscodeSystem
  /-- for each mime type, its profiles by their names -/
  profiles : List (Str × List NamedProfile) := []
  createHandler : Int → Option MetadataHandler := fun _ => none
  /-- what becomes of an active item when its script has run -/
  runAction : CdsObject → Except Exception CdsObject := .ok

/-- What is reported. -/
structure FileInfo where
  fileLength : Int
  contentType : Str
  deriving DecidableEq

/-- `UNKNOWN_CONTENT_LENGTH`. -/
def unknownContentLength : Int := -1

namespace FileServer

/-- `getByName`: the first one, whatever its mime type. -/
def getByName (sys : FileServer) (name : Str) : Option NamedProfile :=
  sys.profiles.findSome? fun names => names.2.find? (·.name = name)

/-! ## Decoding a request -/

/-- The item that a request is about. -/
def requestedItem (sys : FileServer) (missing : String) (dict : Dictionary) :
    Except Exception CdsObject :=
  match dict.get (str "object_id") with
  | none => .error (.exception (str missing))
  | some objID => do
    let obj ← sys.loadObject (toInt (some objID))
    if !isCdsItem obj.objectType then
      .error (.exception (str "requested object is not an item"))
    else .ok obj

/-- The number of the resource, -1 for none. -/
def resourceID (dict : Dictionary) : Int :=
  let id := dict.get (str "res_id")
  if stringOk id && id != some (str "none") then toInt id else -1

/-- Up to the last `.`, for `true`; from it on, for `false`. -/
def cutAtDot (front : Bool) (s : Option Str) : Option Str :=
  s.map fun s =>
    match rindex '.'.toUInt8 s with
    | some dot => if front then s.take dot else s.drop dot
    | none => s

/-- What is left of a request when it has been decoded. -/
structure Request where
  path : Option Str
  resID : Int
  mimeType : Option Str := none
  isSrt : Bool := false

/-- The request for an item, or for the subtitles beside it. -/
def request (dict : Dictionary) (resID : Int) (item : CdsObject) : Request :=
  let ext := cutAtDot false (dict.get (str "ext"))
  if ext ∈ [some (str ".srt"), some (str ".ssa"), some (str ".smi"), some (str ".sub")] then
    { path := strAppend (cutAtDot true item.location) ext
      resID := 0
      mimeType := some (str "text/plain")
      isSrt := true }
  else { path := item.location, resID := resID }

/-- The size of the file. -/
def checkFile (sys : FileServer) (req : Request) : Except Exception Int :=
  match sys.stat (req.path.getD []) with
  | .ok size => .ok size
  | .error err =>
    if req.isSrt then
      .error (.exception (str "Subtitle file " ++ req.path.getD [] ++ str " is not available."))
    else .error (.exception (str "Failed to open " ++ req.path.getD [] ++ str " - " ++ err))

/-- The parameter that names a resource handler, and the one that names a profile. -/
def resourceHandler (dict : Dictionary) : Option Str := dict.get (str "rh")

def profileName (dict : Dictionary) : Option Str := dict.get (str "pr_name")

/-- Is a resource asked for? -/
def servesResource (dict : Dictionary) (req : Request) (item : CdsObject) : Bool :=
  (0 < req.resID && req.resID < item.resources.length) ||
    (0 < req.resID && stringOk (resourceHandler dict))

/-- The handler of the resource, and the mime type that the resource names. -/
def resourceOf (dict : Dictionary) (req : Request) (item : CdsObject) :
    Except Exception (Int × Option Str) :=
  if stringOk (resourceHandler dict) then .ok (toInt (resourceHandler dict), req.mimeType)
  else do
    let resource ← getResource item.resources req.resID.toNat
    return (resource.handlerType,
      match resource.attributes.get (str "protocolInfo") with
      | some protocol => getMTFromProtocolInfo (some protocol)
      | none => req.mimeType)

/-- What the handler serves of the resource. -/
def resourceInfo (sys : FileServer) (dict : Dictionary) (req : Request) (item : CdsObject) :
    Except Exception FileInfo := do
  let resource ← resourceOf dict req item
  match sys.createHandler resource.1 with
  | none => .error (.exception (str "unknown content handler ID: " ++ fromInt resource.1))
  | some h =>
    .ok { fileLength := h.serveContent item req.resID
          contentType := (if stringOk resource.2 then resource.2 else h.getMimeType).getD [] }

/-! ## `get_info` -/

/-- What a profile makes of an item. -/
def transcodedInfo (sys : FileServer) (tp : NamedProfile) (item : CdsObject) :
    Except Exception FileInfo := do
  let mimeType ← TranscodeExternalHandler.transcodedMimeType sys.transcode.mappings
    tp.external.targetMimeType item
  .ok ⟨-1, (if stringOk mimeType then mimeType else item.mimeType).getD []⟩

/-- `get_info` for a file that is there. -/
def infoOf (sys : FileServer) (dict : Dictionary) (req : Request) (item : CdsObject) (size : Int) :
    Except Exception FileInfo :=
  if servesResource dict req item then sys.resourceInfo dict req item
  else if !req.isSrt && stringOk (profileName dict) then
    match sys.getByName ((profileName dict).getD []) with
    | none =>
      .error (.exception (str "Transcoding of file " ++ req.path.getD [] ++
        str " but no profile matching the name " ++ (profileName dict).getD [] ++ str " found"))
    | some tp => sys.transcodedInfo tp item
  else if !req.isSrt && TranscodeExternalHandler.readsDVD sys.transcode item then do
    let _ ← dvdParameters dict
    .ok ⟨-1, (if stringOk req.mimeType then req.mimeType else item.mimeType).getD []⟩
  else .ok ⟨size, (if stringOk req.mimeType then req.mimeType else item.mimeType).getD []⟩

/-- `get_info`, from the decoded parameters on. -/
def getInfoFrom (sys : FileServer) (dict : Dictionary) : Except Exception FileInfo := do
  let item ← sys.requestedItem "get_info: object_id not found" dict
  let size ← sys.checkFile (request dict (resourceID dict) item)
  sys.infoOf dict (request dict (resourceID dict) item) item size

/-- `get_info`, for what follows the name of the handler in the path. -/
def getInfo (sys : FileServer) (parameters : Str) : Except Exception FileInfo :=
  sys.getInfoFrom (Dictionary.decodeSimple .empty parameters)

/-! ## `open` -/

/-- `TranscodeDispatcher::open`: what the external handler reports, and what it asks of the item. -/
def dispatch (sys : FileServer) (profile : Option NamedProfile) (location : Option Str)
    (item : CdsObject) : Except Exception FileInfo :=
  match profile with
  | none =>
    .error (.exception (str "Transcoding of file " ++ location.getD [] ++
      str "requested but no profile given "))
  | some tp =>
    if tp.type = .external then do
      let mimeType ← TranscodeExternalHandler.contentType sys.transcode tp.external item
      if TranscodeExternalHandler.readsDVD sys.transcode item then do
        let _ ← TranscodeExternalHandler.resourceParameters item
        .ok ⟨unknownContentLength, mimeType.getD []⟩
      else .ok ⟨unknownContentLength, mimeType.getD []⟩
    else
      .error (.exception (str "Unknown transcoding type for profile " ++ tp.name))

/-- Is the number of the resource one for the profile, or the lack of it? -/
def checkResourceID (dict : Dictionary) (resID : Int) : Except Exception Unit :=
  if stringOk (profileName dict) then
    if resID ≠ -1 then .error (.exception (str "Invalid resource ID given!")) else .ok ()
  else
    if resID = -1 then .error (.exception (str "Invalid resource ID given!")) else .ok ()

/-- `open` for a file that is there. -/
def openOf (sys : FileServer) (dict : Dictionary) (req : Request) (item : CdsObject) (size : Int) :
    Except Exception FileInfo := do
  checkResourceID dict req.resID
  if servesResource dict req item then sys.resourceInfo dict req item
  else if !req.isSrt && stringOk (profileName dict) then
    sys.dispatch (sys.getByName ((profileName dict).getD [])) req.path item
  else if !req.isSrt && TranscodeExternalHandler.readsDVD sys.transcode item then do
    let _ ← dvdParameters dict
    .ok ⟨-1, (fallbackString req.mimeType item.mimeType).getD []⟩
  else .ok ⟨size, (fallbackString req.mimeType item.mimeType).getD []⟩

/-- The item, updated by its action when it is an active one. -/
def openedItem (sys : FileServer) (dict : Dictionary) (obj : CdsObject) :
    Except Exception CdsObject :=
  if isCdsActiveItem obj.objectType && resourceID dict == 0 then sys.runAction obj else .ok obj

/-- `open`, from the decoded parameters on. -/
def openFrom (sys : FileServer) (dict : Dictionary) : Except Exception FileInfo := do
  let obj ← sys.requestedItem "object_id not found" dict
  let item ← sys.openedItem dict obj
  let size ← sys.checkFile (request dict (resourceID dict) item)
  sys.openOf dict (request dict (resourceID dict) item) item size

/-- `open`, for reading. -/
def openRequest (sys : FileServer) (parameters : Str) : Except Exception FileInfo :=
  sys.openFrom (Dictionary.decodeSimple .empty parameters)

/-! ## When they agree -/

/-- Both throw, or both accept the request and report the same. -/
inductive Agree : Except Exception FileInfo → Except Exception FileInfo → Prop where
  | throw (ex ex' : Exception) : Agree (.error ex) (.error ex')
  | accept (info : FileInfo) : Agree (.ok info) (.ok info)

/-- The handler that a resource is served by. -/
def handlerID (dict : Dictionary) (req : Request) (item : CdsObject) : Option Int :=
  if stringOk (resourceHandler dict) then some (toInt (resourceHandler dict))
  else (item.resources[req.resID.toNat]?).map (·.handlerType)

/-- **The request is the same to both.**  What is asked of it depends on what is served. -/
def Uniform (sys : FileServer) (dict : Dictionary) (req : Request) (item : CdsObject) : Prop :=
  if servesResource dict req item then
    stringOk (profileName dict) = false ∨ (handlerID dict req item).bind sys.createHandler = none
  else if !req.isSrt && stringOk (profileName dict) then
    ∀ tp, sys.getByName ((profileName dict).getD []) = some tp → ∀ mimeType,
      TranscodeExternalHandler.transcodedMimeType sys.transcode.mappings
        tp.external.targetMimeType item = .ok mimeType →
      req.resID = -1 ∧ tp.type = .external ∧
        (TranscodeExternalHandler.readsDVD sys.transcode item = true →
          ∃ parameters, TranscodeExternalHandler.resourceParameters item = .ok parameters) ∧
        (stringOk mimeType = true ∨ item.mimeType.getD [] = [])
  else if !req.isSrt && TranscodeExternalHandler.readsDVD sys.transcode item then
    req.resID ≠ -1 ∨ ∀ parameters, dvdParameters dict ≠ .ok parameters
  else stringOk (profileName dict) = false ∧ req.resID ≠ -1

section

variable {sys : FileServer} {dict : Dictionary} {item : CdsObject} {req : Request} {size : Int}
  {r : Except Exception FileInfo} {info info' : FileInfo} {ex : Exception}

theorem agree_error : Agree r (.error ex) ↔ ∀ info, r ≠ .ok info := by
  rcases r with ex' | info
  · exact ⟨fun _ info h => (nomatch h), fun _ => .throw ex' ex⟩
  · exact ⟨fun h => (nomatch h), fun h => absurd rfl (h info)⟩

theorem agree_contentType {length : Int} {mime mime' : Str} :
    Agree (.ok ⟨length, mime⟩) (.ok ⟨length, mime'⟩) ↔ mime = mime' := by
  constructor
  · intro h
    cases h
    rfl
  · rintro rfl
    exact .accept _

theorem agree_self : Agree r r := by
  rcases r with ex | info
  · exact .throw ex ex
  · exact .accept info

/-- The item is found or not, whatever the text of the message. -/
theorem requestedItem_ok_iff (missing missing' : String) :
    sys.requestedItem missing dict = .ok item ↔ sys.requestedItem missing' dict = .ok item := by
  unfold requestedItem
  rcases dict.get (str "object_id") with _ | objID
  · constructor <;> intro h <;> cases h
  · exact Iff.rfl

/-- What a decoded request looks like. -/
theorem request_mimeType (hreq : req = request dict (resourceID dict) item) :
    (req.mimeType = none ∧ req.isSrt = false) ∨
      (req.mimeType = some (str "text/plain") ∧ req.isSrt = true ∧ req.resID = 0) := by
  subst hreq
  unfold request
  simp only
  split
  · exact Or.inr ⟨rfl, rfl, rfl⟩
  · exact Or.inl ⟨rfl, rfl⟩

/-- Without a transcoder both fall back on the mime type of the item. -/
theorem mimeType_fallback (hreq : req = request dict (resourceID dict) item) :
    (if stringOk req.mimeType then req.mimeType else item.mimeType) =
      fallbackString req.mimeType item.mimeType := by
  rcases request_mimeType hreq with ⟨hmime, -⟩ | ⟨hmime, -⟩
  · rw [hmime]
    rfl
  · rw [hmime]
    rfl

theorem checkResourceID_ok_iff {resID : Int} : checkResourceID dict resID = .ok () ↔
    (stringOk (profileName dict) = true ↔ resID = -1) := by
  unfold checkResourceID
  rcases stringOk (profileName dict) with _ | _
  · by_cases hid : resID = -1
    · simp [hid]
    · simp [hid]
  · by_cases hid : resID = -1
    · simp [hid]
    · simp [hid]

/-- A number that does not fit is refused. -/
theorem openOf_refused (sys : FileServer) (item : CdsObject) (size : Int)
    (h : ¬ (stringOk (profileName dict) = true ↔ req.resID = -1)) :
    ∃ ex, sys.openOf dict req item size = .error ex := by
  rcases hcheck : checkResourceID dict req.resID with ex | ⟨⟩
  · refine ⟨ex, ?_⟩
    unfold openOf
    rw [hcheck]
    rfl
  · exact absurd (checkResourceID_ok_iff.mp hcheck) h

/-- `openOf` past that check. -/
theorem openOf_checked (h : stringOk (profileName dict) = true ↔ req.resID = -1) :
    sys.openOf dict req item size =
      if servesResource dict req item then sys.resourceInfo dict req item
      else if !req.isSrt && stringOk (profileName dict) then
        sys.dispatch (sys.getByName ((profileName dict).getD [])) req.path item
      else if !req.isSrt && TranscodeExternalHandler.readsDVD sys.transcode item then do
        let _ ← dvdParameters dict
        .ok ⟨-1, (fallbackString req.mimeType item.mimeType).getD []⟩
      else .ok ⟨size, (fallbackString req.mimeType item.mimeType).getD []⟩ := by
  unfold openOf
  rw [checkResourceID_ok_iff.mpr h]
  rfl

theorem servesResource_pos (h : servesResource dict req item = true) : 0 < req.resID := by
  unfold servesResource at h
  rcases Bool.or_eq_true_iff.mp h with h | h
  · exact of_decide_eq_true (Bool.and_eq_true_iff.mp h).1
  · exact of_decide_eq_true (Bool.and_eq_true_iff.mp h).1

theorem resourceOf_handlerID (h : servesResource dict req item = true) :
    ∃ mimeType, ∃ handler, handlerID dict req item = some handler ∧
      resourceOf dict req item = .ok (handler, mimeType) := by
  rcases hrh : stringOk (resourceHandler dict) with _ | _
  · -- the resource is one of the item's
    have hlt : req.resID < item.resources.length := by
      unfold servesResource at h
      rw [hrh, Bool.and_false, Bool.or_false] at h
      exact of_decide_eq_true (Bool.and_eq_true_iff.mp h).2
    have hpos : 0 < req.resID := servesResource_pos h
    have hget : item.resources[req.resID.toNat]? = some item.resources[req.resID.toNat] :=
      List.getElem?_eq_getElem (by omega)
    unfold handlerID resourceOf getResource
    rw [hrh, hget]
    exact ⟨_, _, rfl, rfl⟩
  · unfold handlerID resourceOf
    rw [hrh]
    exact ⟨_, _, rfl, rfl⟩

/-- A resource is served when there is a handler for it. -/
theorem resourceInfo_error_iff (h : servesResource dict req item = true) :
    (∀ info, sys.resourceInfo dict req item ≠ .ok info) ↔
      (handlerID dict req item).bind sys.createHandler = none := by
  obtain ⟨mimeType, handler, hid, hresource⟩ := resourceOf_handlerID h
  have hinfo : sys.resourceInfo dict req item = match sys.createHandler handler with
      | none => .error (.exception (str "unknown content handler ID: " ++ fromInt handler))
      | some h => .ok { fileLength := h.serveContent item req.resID
                        contentType := (if stringOk mimeType then mimeType
                          else h.getMimeType).getD [] } := by
    unfold resourceInfo
    rw [hresource]
    rfl
  rw [hinfo, hid, Option.bind_some]
  rcases sys.createHandler handler with _ | found
  · exact ⟨fun _ => rfl, fun _ info h => (nomatch h)⟩
  · exact ⟨fun h => absurd rfl (h _), fun h => (nomatch h)⟩

/-- The transcoded item, where the profile is known. -/
theorem agree_transcoded {tp : NamedProfile} (hitem : isCdsItem item.objectType = true) :
    Agree (sys.transcodedInfo tp item) (sys.dispatch (some tp) req.path item) ↔
    ∀ mimeType, TranscodeExternalHandler.transcodedMimeType sys.transcode.mappings
        tp.external.targetMimeType item = .ok mimeType →
      tp.type = .external ∧
        (TranscodeExternalHandler.readsDVD sys.transcode item = true →
          ∃ parameters, TranscodeExternalHandler.resourceParameters item = .ok parameters) ∧
        (stringOk mimeType = true ∨ item.mimeType.getD [] = []) := by
  have hcontent : TranscodeExternalHandler.contentType sys.transcode tp.external item =
      TranscodeExternalHandler.transcodedMimeType sys.transcode.mappings
        tp.external.targetMimeType item := by
    unfold TranscodeExternalHandler.contentType
    rw [if_pos hitem]
  unfold dispatch transcodedInfo
  simp only
  rw [hcontent]
  rcases htrans : TranscodeExternalHandler.transcodedMimeType sys.transcode.mappings
    tp.external.targetMimeType item with ex | mimeType
  · constructor
    · intro _ mimeType h
      cases h
    · intro _
      split <;> exact .throw _ _
  · have hfallback : ((if stringOk mimeType then mimeType else item.mimeType).getD [] =
        mimeType.getD []) ↔ (stringOk mimeType = true ∨ item.mimeType.getD [] = []) := by
      rcases mimeType with _ | _ | ⟨c, mime⟩
      · simp [stringOk]
      · simp [stringOk]
      · simp [stringOk]
    by_cases htype : tp.type = .external
    · rw [if_pos htype]
      rcases hdvd : TranscodeExternalHandler.readsDVD sys.transcode item with _ | _
      · refine agree_contentType.trans (hfallback.trans ?_)
        constructor
        · rintro hmime mimeType' h
          cases h
          exact ⟨htype, fun h => (nomatch h), hmime⟩
        · intro h
          exact (h mimeType rfl).2.2
      · -- the image wants the parameters of the first resource
        rcases hparam : TranscodeExternalHandler.resourceParameters item with ex | parameters
        · constructor
          · intro h
            cases h
          · intro h
            obtain ⟨parameters, hok⟩ := (h mimeType rfl).2.1 rfl
            cases hok
        · refine agree_contentType.trans (hfallback.trans ?_)
          constructor
          · rintro hmime mimeType' h
            cases h
            exact ⟨htype, fun _ => ⟨parameters, rfl⟩, hmime⟩
          · intro h
            exact (h mimeType rfl).2.2
    · rw [if_neg htype]
      constructor
      · intro h
        cases h
      · intro h
        exact absurd (h mimeType rfl).1 htype

/-- **The two functions agree on a file that is there** just when the request is the same to
    both. -/
theorem agree_infoOf_openOf (hreq : req = request dict (resourceID dict) item)
    (hitem : isCdsItem item.objectType = true) :
    Agree (sys.infoOf dict req item size) (sys.openOf dict req item size) ↔
      Uniform sys dict req item := by
  have hsrt : req.isSrt = true → req.resID = 0 := by
    intro h
    rcases request_mimeType hreq with ⟨-, hnot⟩ | ⟨-, -, hzero⟩
    · rw [h] at hnot
      cases hnot
    · exact hzero
  unfold Uniform infoOf
  rw [mimeType_fallback hreq]
  by_cases hcheck : stringOk (profileName dict) = true ↔ req.resID = -1
  · -- the number fits: both come to the same branch
    rw [openOf_checked hcheck]
    split
    · next hresource =>
      have hpos := servesResource_pos hresource
      have hnone : stringOk (profileName dict) = false := by
        rcases hname : stringOk (profileName dict) with _ | _
        · rfl
        · have := hcheck.mp hname
          omega
      exact ⟨fun _ => Or.inl hnone, fun _ => agree_self⟩
    · split
      · next hprofile =>
        have hid : req.resID = -1 := hcheck.mp (Bool.and_eq_true_iff.mp hprofile).2
        rcases sys.getByName ((profileName dict).getD []) with _ | tp
        · exact ⟨fun _ tp h => (nomatch h), fun _ => .throw _ _⟩
        · refine (agree_transcoded hitem).trans ?_
          constructor
          · rintro h tp' htp mimeType hmime
            cases htp
            exact ⟨hid, h mimeType hmime⟩
          · intro h mimeType hmime
            exact (h tp rfl mimeType hmime).2
      · next hprofile =>
        have hnone : stringOk (profileName dict) = false := by
          rcases hname : stringOk (profileName dict) with _ | _
          · rfl
          · have hid := hcheck.mp hname
            rcases hsub : req.isSrt with _ | _
            · rw [hsub, hname] at hprofile
              exact absurd rfl hprofile
            · have := hsrt hsub
              omega
        have hid : req.resID ≠ -1 := by
          intro h
          rw [hcheck.mpr h] at hnone
          cases hnone
        split
        · exact ⟨fun _ => Or.inl hid, fun _ => agree_self⟩
        · exact ⟨fun _ => ⟨hnone, hid⟩, fun _ => agree_self⟩
  · -- `open` refuses the number, so that `get_info` has to throw too
    obtain ⟨ex, hrefused⟩ := openOf_refused sys item size hcheck
    rw [hrefused, agree_error]
    split
    · next hresource =>
      have hpos := servesResource_pos hresource
      have hname : stringOk (profileName dict) = true := by
        by_contra hnot
        exact hcheck ⟨fun h => absurd h hnot, fun h => by omega⟩
      rw [resourceInfo_error_iff hresource, hname]
      exact ⟨Or.inr, fun h => h.resolve_left (by decide)⟩
    · split
      · next hprofile =>
        have hname := (Bool.and_eq_true_iff.mp hprofile).2
        have hid : req.resID ≠ -1 := fun h => hcheck ⟨fun _ => h, fun _ => hname⟩
        rcases sys.getByName ((profileName dict).getD []) with _ | tp
        · exact ⟨fun _ tp h => (nomatch h), fun _ info h => (nomatch h)⟩
        · constructor
          · rintro h tp' htp mimeType hmime
            cases htp
            have hinfo : sys.transcodedInfo tp item =
                .ok ⟨-1, (if stringOk mimeType then mimeType else item.mimeType).getD []⟩ := by
              unfold transcodedInfo
              rw [hmime]
              rfl
            exact absurd hinfo (h _)
          · intro h info hinfo
            rcases hmime : TranscodeExternalHandler.transcodedMimeType sys.transcode.mappings
              tp.external.targetMimeType item with ex | mimeType
            · have hthrows : sys.transcodedInfo tp item = .error ex := by
                unfold transcodedInfo
                rw [hmime]
                rfl
              cases hthrows.symm.trans hinfo
            · exact hid (h tp rfl mimeType hmime).1
      · next hprofile =>
        split
        · next hdvd =>
          have hsub : req.isSrt = false := by
            have := (Bool.and_eq_true_iff.mp hdvd).1
            simpa using this
          have hname : stringOk (profileName dict) = false := by
            rw [hsub] at hprofile
            simpa using hprofile
          have hid : req.resID = -1 := by
            by_contra hnot
            refine hcheck ⟨fun h => ?_, fun h => absurd h hnot⟩
            rw [hname] at h
            cases h
          rcases hparam : dvdParameters dict with ex | parameters
          · exact ⟨fun _ => Or.inr fun parameters h => (nomatch h), fun _ info h => (nomatch h)⟩
          · constructor
            · intro h
              exact absurd rfl (h _)
            · rintro (h | h)
              · exact absurd hid h
              · exact absurd rfl (h parameters)
        · constructor
          · intro h
            exact absurd rfl (h _)
          · rintro ⟨hname, hid⟩
            refine absurd ⟨fun h => ?_, fun h => absurd h hid⟩ hcheck
            rw [hname] at h
            cases h

/-- Only items are found. -/
theorem requestedItem_ok {missing : String} (h : sys.requestedItem missing dict = .ok item) :
    isCdsItem item.objectType = true := by
  unfold requestedItem at h
  rcases hid : dict.get (str "object_id") with _ | objID
  · rw [hid] at h
    cases h
  · rw [hid] at h
    rcases hload : sys.loadObject (toInt (some objID)) with ex | obj
    · simp only [hload] at h
      cases h
    · simp only [hload] at h
      rcases hkind : isCdsItem obj.objectType with _ | _
      · change (if (!isCdsItem obj.objectType) = true then _ else _) = _ at h
        rw [hkind] at h
        cases h
      · change (if (!isCdsItem obj.objectType) = true then _ else _) = _ at h
        rw [hkind] at h
        cases h
        exact hkind

/-- The same from the decoded parameters on. -/
theorem agree_from_iff
    (hpassive : ∀ item, sys.requestedItem "object_id not found" dict = .ok item →
      isCdsActiveItem item.objectType = false) :
    Agree (sys.getInfoFrom dict) (sys.openFrom dict) ↔
      ∀ item size, sys.requestedItem "object_id not found" dict = .ok item →
        sys.checkFile (request dict (resourceID dict) item) = .ok size →
          Uniform sys dict (request dict (resourceID dict) item) item := by
  rcases hitem : sys.requestedItem "object_id not found" dict with ex | item
  · -- neither finds the item
    have hopen : sys.openFrom dict = .error ex := by
      unfold openFrom
      rw [hitem]
      rfl
    rw [hopen, agree_error]
    constructor
    · intro _ item size h
      cases h
    · intro _ info hinfo
      rcases hget : sys.requestedItem "get_info: object_id not found" dict with ex' | item
      · have hthrows : sys.getInfoFrom dict = .error ex' := by
          unfold getInfoFrom
          rw [hget]
          rfl
        cases hthrows.symm.trans hinfo
      · rw [(requestedItem_ok_iff _ _).mp hget] at hitem
        cases hitem
  · have hget : sys.requestedItem "get_info: object_id not found" dict = .ok item :=
      (requestedItem_ok_iff _ _).mp hitem
    have hkind := requestedItem_ok hitem
    have hself : sys.openedItem dict item = .ok item := by
      unfold openedItem
      rw [hpassive item hitem]
      rfl
    unfold getInfoFrom openFrom
    rw [hget, hitem]
    show Agree (sys.checkFile _ >>= fun size => sys.infoOf dict _ item size)
      (sys.openedItem dict item >>= fun item => sys.checkFile _ >>= fun size =>
        sys.openOf dict _ item size) ↔ _
    rw [hself]
    show Agree (sys.checkFile _ >>= fun size => sys.infoOf dict _ item size)
      (sys.checkFile _ >>= fun size => sys.openOf dict _ item size) ↔ _
    rcases hfile : sys.checkFile (request dict (resourceID dict) item) with ex | size
    · constructor
      · intro _ item' size h hsize
        cases h
        rw [hfile] at hsize
        cases hsize
      · intro _
        exact .throw ex ex
    · refine (agree_infoOf_openOf rfl hkind).trans ?_
      constructor
      · intro h item' size' hitem' _
        cases hitem'
        exact h
      · intro h
        exact h item size rfl hfile

end

/-- What the path of a request decodes to. -/
def decoded (parameters : Str) : Dictionary := .decodeSimple .empty parameters

/-- **`get_info` and `open` agree** just when the request for the item, if it is found and its file
    is there, is the same to both. -/
theorem getInfo_openRequest_agree_iff (sys : FileServer) (parameters : Str)
    (hpassive : ∀ item, sys.requestedItem "object_id not found" (decoded parameters) = .ok item →
      isCdsActiveItem item.objectType = false) :
    Agree (sys.getInfo parameters) (sys.openRequest parameters) ↔
      ∀ item size, sys.requestedItem "object_id not found" (decoded parameters) = .ok item →
        sys.checkFile (request (decoded parameters) (resourceID (decoded parameters)) item) =
          .ok size →
        Uniform sys (decoded parameters)
          (request (decoded parameters) (resourceID (decoded parameters)) item) item :=
  agree_from_iff hpassive

/-! ### One file -/

/-- Parameters that were written are read. -/
theorem decoded_path {els : List (Str × Str)} (hne : els ≠ [])
    (hparts : ∀ el ∈ els, el.1 ≠ [] ∧ el.2 ≠ []) :
    decoded (path (els.map escapedPair)) = Dictionary.putAll .empty els := by
  unfold decoded
  rw [decodeSimple_path _ (by rw [Ne, List.map_eq_nil_iff]; exact hne), unescapedPair_map]
  intro p hp
  obtain ⟨el, hel, rfl⟩ := List.mem_map.mp hp
  exact ⟨isPart_urlEscape (hparts el hel).1, isPart_urlEscape (hparts el hel).2⟩

theorem request_of_no_ext {dict : Dictionary} (h : dict.get (str "ext") = none) (resID : Int)
    (item : CdsObject) : request dict resID item = { path := item.location, resID := resID } := by
  unfold request
  rw [h]
  simp [cutAtDot]

/-- A plain item. -/
def plainItem : CdsObject where
  upnpClass := none
  location := some (str "/f")
  kind := .item {}

theorem plainItem_item : isCdsItem plainItem.objectType = true := by decide

theorem plainItem_passive : isCdsActiveItem plainItem.objectType = false := by decide

/-- A server with this item, for which there is a file. -/
def oneItem : FileServer where
  loadObject _ := .ok plainItem
  stat path := if path = str "/f" then .ok 5 else .error (str "No such file or directory")
  transcode := {}

/-- The parameters of a request with the number of a resource, and of one without. -/
def withResource : List (Str × Str) := [(str "object_id", str "7"), (str "res_id", str "0")]

def withoutResource : List (Str × Str) := [(str "object_id", str "7")]

/-- The path that parameters are written to. -/
def requestPath (els : List (Str × Str)) : Str := path (els.map escapedPair)

theorem oneItem_requested {dict : Dictionary} {item : CdsObject}
    (h : oneItem.requestedItem "object_id not found" dict = .ok item) : item = plainItem := by
  unfold requestedItem at h
  rcases hid : dict.get (str "object_id") with _ | objID
  · rw [hid] at h
    cases h
  · rw [hid] at h
    replace h : (if (!isCdsItem plainItem.objectType) = true then
        .error (.exception (str "requested object is not an item"))
      else (.ok plainItem : Except Exception CdsObject)) = .ok item := h
    rw [plainItem_item] at h
    exact (Except.ok.inj h).symm

theorem get_withResource : (Dictionary.putAll .empty withResource).get (str "ext") = none ∧
    profileName (Dictionary.putAll .empty withResource) = none ∧
    resourceID (Dictionary.putAll .empty withResource) = 0 := by
  refine ⟨Dictionary.get_putAll_of_notMem (by decide), Dictionary.get_putAll_of_notMem (by decide),
    ?_⟩
  have hmem : (str "res_id", str "0") ∈ withResource := by decide
  have hget : (Dictionary.putAll .empty withResource).get (str "res_id") = some (str "0") :=
    Dictionary.get_putAll (by decide) hmem
  unfold resourceID
  rw [hget]
  decide

theorem oneItem_passive (parameters : Str) (item : CdsObject)
    (h : oneItem.requestedItem "object_id not found" (decoded parameters) = .ok item) :
    isCdsActiveItem item.objectType = false := by
  obtain rfl := oneItem_requested h
  exact plainItem_passive

theorem uniform_withResource : Uniform oneItem (Dictionary.putAll .empty withResource)
    { path := plainItem.location, resID := 0 } plainItem := by
  obtain ⟨hext, hname, hres⟩ := get_withResource
  have hserves : servesResource (Dictionary.putAll .empty withResource)
      { path := plainItem.location, resID := 0 } plainItem = false := rfl
  have hdvd : TranscodeExternalHandler.readsDVD oneItem.transcode plainItem = false := by decide
  have hnone : stringOk none = false := rfl
  unfold Uniform
  rw [hserves, hname, hdvd, if_neg Bool.false_ne_true, hnone, Bool.and_false,
    if_neg Bool.false_ne_true, if_neg Bool.false_ne_true]
  exact ⟨rfl, by decide⟩

theorem getInfo_openRequest_agree_one : Agree (oneItem.getInfo (requestPath withResource))
    (oneItem.openRequest (requestPath withResource)) := by
  obtain ⟨hext, -, hres⟩ := get_withResource
  have hdecoded : decoded (requestPath withResource) = Dictionary.putAll .empty withResource :=
    decoded_path (by decide) (by decide)
  apply (getInfo_openRequest_agree_iff oneItem (requestPath withResource)
    (oneItem_passive _)).mpr
  intro item size h _
  rw [hdecoded, hres, request_of_no_ext hext, oneItem_requested h]
  exact uniform_withResource

/-- Without the number of a resource, `get_info` reports the file and `open` throws. -/
theorem getInfo_openRequest_not_agree : ¬ ∀ (sys : FileServer) (parameters : Str),
    (∀ item, sys.requestedItem "object_id not found" (decoded parameters) = .ok item →
      isCdsActiveItem item.objectType = false) →
    Agree (sys.getInfo parameters) (sys.openRequest parameters) := by
  intro hall
  have hagree := hall oneItem (requestPath withoutResource) (oneItem_passive _)
  have hdecoded : decoded (requestPath withoutResource) =
      Dictionary.putAll .empty withoutResource := decoded_path (by decide) (by decide)
  have hext : (Dictionary.putAll .empty withoutResource).get (str "ext") = none :=
    Dictionary.get_putAll_of_notMem (by decide)
  have hname : profileName (Dictionary.putAll .empty withoutResource) = none :=
    Dictionary.get_putAll_of_notMem (by decide)
  have hid : (Dictionary.putAll .empty withoutResource).get (str "res_id") = none :=
    Dictionary.get_putAll_of_notMem (by decide)
  have hres : resourceID (Dictionary.putAll .empty withoutResource) = -1 := by
    unfold resourceID
    rw [hid]
    rfl
  have hobject : (Dictionary.putAll .empty withoutResource).get (str "object_id") =
      some (str "7") := Dictionary.get_putAll (by decide) List.mem_cons_self
  have hrequested : oneItem.requestedItem "object_id not found"
      (Dictionary.putAll .empty withoutResource) = .ok plainItem := by
    unfold requestedItem
    rw [hobject]
    show (if (!isCdsItem plainItem.objectType) = true then
        .error (.exception (str "requested object is not an item"))
      else (.ok plainItem : Except Exception CdsObject)) = _
    rw [plainItem_item]
    rfl
  have hfile : oneItem.checkFile { path := plainItem.location, resID := -1 } = .ok 5 := by
    have hstat : oneItem.stat ((some (str "/f")).getD []) = .ok 5 := by
      show (if str "/f" = str "/f" then (.ok 5 : Except Str Int)
        else .error (str "No such file or directory")) = _
      exact if_pos rfl
    unfold checkFile
    rw [show plainItem.location = some (str "/f") from rfl, hstat]
  have hagree' : Agree (oneItem.getInfoFrom (decoded (requestPath withoutResource)))
      (oneItem.openFrom (decoded (requestPath withoutResource))) := hagree
  rw [hdecoded, agree_from_iff fun item h => by
    obtain rfl := oneItem_requested h
    exact plainItem_passive] at hagree'
  have huniform := hagree' plainItem 5 hrequested (by
    rw [hres, request_of_no_ext hext]
    exact hfile)
  rw [hres, request_of_no_ext hext] at huniform
  have hserves : servesResource (Dictionary.putAll .empty withoutResource)
      { path := plainItem.location, resID := -1 } plainItem = false := rfl
  have hdvd : TranscodeExternalHandler.readsDVD oneItem.transcode plainItem = false := by decide
  have hnone : stringOk none = false := rfl
  unfold Uniform at huniform
  rw [hserves, hname, hdvd, if_neg Bool.false_ne_true, hnone, Bool.and_false,
    if_neg Bool.false_ne_true, if_neg Bool.false_ne_true] at huniform
  exact huniform.2 rfl

end FileServer

end MediaTomb
