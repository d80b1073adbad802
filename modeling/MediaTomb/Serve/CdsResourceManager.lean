/-
  The URLs of an item's resources (`cds_resource_manager.cc`, with external transcoding).

  For a browse reply `addResources` adds the transcoded resources of the configured profiles to the
  item, in FRONT of the stored ones or behind them, and gives every resource a URL whose path the
  file request handlers read back with `decodeSimple`: the object, the number of the resource and
  the resource's parameters, and a file extension for the sake of the players.

    * the stored resources are counted by a counter of their own, which no transcoded resource
      moves (`resourceURLs_at`, `addTranscoded_eq`);
    * what is read back is the object, the stored number or `none`, and every parameter
      (`resource_url_decodes`), but not for an external thumbnail, which has a URL of its own.

  Assertions are off.  Whether a resource is hidden in the reply is not modelled: its URL is built
  all the same.
-/
import MediaTomb.Content.UpdateObject
import MediaTomb.Serve.UrlParameters

namespace MediaTomb

/-! ## Configuration -/

/-- `avi_fourcc_listmode_t` -/
inductive FourCCListMode
  | none | process | ignore
  deriving DecidableEq

/-- A transcoding profile; `sampleFreq` and `numChannels` are -1 for the source's own value and 0
    for none. -/
structure TranscodingProfile where
  name : Str
  targetMimeType : Str
  firstResource : Bool := false
  theora : Bool := false
  onlyDVD : Bool := false
  thumbnail : Bool := false
  sampleFreq : Int := -1
  numChannels : Int := -1
  attributes : Dictionary := .empty
  fourCCList : List Str := []
  fourCCListMode : FourCCListMode := .none

structure ResourceConfig where
  /-- `http://` with address and port. -/
  serverURL : Str
  /-- The content types of mime types. -/
  mappings : Dictionary := .empty
  /-- The profiles for each mime type. -/
  profiles : List (Str × List TranscodingProfile) := []
  /-- The size of video thumbnails where ffmpegthumbnailer is compiled in and enabled. -/
  thumbSize : Option Int := none
  /-- `HAVE_ID3_ALBUMART` -/
  id3AlbumArt : Bool := true

def objectFlagProxyURL : UInt32 := 0x20

def objectFlagOggTheora : UInt32 := 0x80

def objectFlagDVDImage : UInt32 := 0x100

def chID3 : Int := 2

def chTranscode : Int := 3

def chExtURL : Int := 4

def chMP4 : Int := 5

def chFFTH : Int := 6

/-- `RESOURCE_CONTENT_TYPE` -/
def resourceContentType : Str := str "rct"

/-- `URL_PARAM_TRANSCODE` -/
def urlParamTranscode : Str := str "tr"

/-- `URL_VALUE_TRANSCODE` -/
def urlValueTranscode : Str := str "1"

/-- `URL_PARAM_TRANSCODE_PROFILE_NAME` -/
def urlParamTranscodeProfileName : Str := str "pr_name"

/-- `URL_VALUE_TRANSCODE_NO_RES_ID` -/
def urlValueTranscodeNoResID : Str := str "none"

/-- `URL_OBJECT_ID` -/
def urlObjectID : Str := str "object_id"

/-- `URL_RESOURCE_ID` -/
def urlResourceID : Str := str "res_id"

/-- `URL_FILE_EXTENSION` -/
def urlFileExtension : Str := str "ext"

/-! ## Transcoded resources -/

/-- `getMTFromProtocolInfo` -/
def getMTFromProtocolInfo (protocol : Option Str) : Option Str :=
  (splitString protocol ':'.toUInt8 false)[2]?

/-- `mappings->get(mimeType)`; nil is no key. -/
def ResourceConfig.contentType (cfg : ResourceConfig) (mimeType : Option Str) : Option Str :=
  mimeType.bind cfg.mappings.get

def CdsObject.mimeType (item : CdsObject) : Option Str := item.kind.itemData?.bind (·.mimeType)

/-- `getResource(index)`. -/
def getResource (resources : List CdsResource) (index : Nat) : Except Exception CdsResource :=
  match resources[index]? with
  | some r => .ok r
  | none => ContentManager.outOfBounds

/-- `check_resolution` -/
def checkResolution (resolution : Str) : Option (Int × Int) :=
  match splitString (some resolution) 'x'.toUInt8 false with
  | [a, b] => if 0 < toInt (some a) ∧ 0 < toInt (some b) then some (toInt (some a), toInt (some b))
      else none
  | _ => none

/-- The resource of a video thumbnail of this size. -/
def thumbnailResource (cfg : ResourceConfig) (size x y : Int) : CdsResource :=
  let mimeType := match cfg.mappings.get (str "jpg") with
    | some (c :: s) => c :: s
    | _ => str "image/jpeg"
  { handlerType := chFFTH
    attributes := (Dictionary.put .empty protocolInfo
      (renderProtocolInfo (some mimeType) (some (str "http-get")))).put (str "resolution")
        (fromInt size ++ str "x" ++ fromInt ((size * y).tdiv x))
    parameters := Dictionary.put .empty (str "rh") (fromInt chFFTH)
    options := Dictionary.put .empty resourceContentType (str "th") }

/-- The thumbnail that a video gets, with its size and the resolution of the first resource. -/
def videoThumbnail (cfg : ResourceConfig) (item : CdsObject) :
    Except Exception (List CdsResource) :=
  match cfg.thumbSize with
  | none => .ok []
  | some size =>
    if (str "video").isPrefixOf (item.mimeType.getD []) || item.getFlag objectFlagOggTheora then
      (getResource item.resources 0).map fun first =>
        match (first.attributes.get (str "resolution")).bind checkResolution with
        | some (x, y) => [thumbnailResource cfg size x y]
        | none => []
    else .ok []

/-- Is the profile skipped for this fourcc? -/
def TranscodingProfile.skipsFourCC (tp : TranscodingProfile) (current : Option Str) : Bool :=
  match tp.fourCCListMode with
  | .none => false
  | mode =>
    if stringOk current && tp.fourCCList.contains (current.getD []) then mode == .ignore
    else mode == .process

/-- Is the profile used for the item, with the resources it has by now? -/
def TranscodingProfile.applies (cfg : ResourceConfig) (item : CdsObject)
    (resources : List CdsResource) (tp : TranscodingProfile) : Except Exception Bool :=
  let ct := cfg.contentType item.mimeType
  let dvd := item.getFlag objectFlagDVDImage || !tp.onlyDVD
  if ct = some (str "ogg") && item.getFlag objectFlagOggTheora != tp.theora then .ok false
  else if ct = some (str "avi") && tp.fourCCListMode != .none then
    (getResource resources 0).map fun first =>
      !tp.skipsFourCC (first.options.get (str "4cc")) && dvd
  else .ok dvd

/-- The value of an attribute of the source, or the one the profile sets. -/
def sourceOr (first : CdsResource) (name : Str) (setting : Int) : Option Str :=
  if setting = -1 then
    match first.attributes.get name with
    | some (c :: s) => some (c :: s)
    | _ => none
  else if setting ≠ 0 then some (fromInt setting) else none

/-- `put` where there is something to put. -/
def putOpt (d : Dictionary) (key : Str) : Option Str → Dictionary
  | some value => d.put key value
  | none => d

/-- The resource a profile adds; `first` is what is the first resource by now. -/
def transcodedResource (first : CdsResource) (tp : TranscodingProfile) : CdsResource :=
  let freq := if tp.thumbnail then none else sourceOr first (str "sampleFrequency") tp.sampleFreq
  let chan := if tp.thumbnail then none else sourceOr first (str "nrAudioChannels") tp.numChannels
  let duration := if tp.thumbnail then none else sourceOr first (str "duration") (-1)
  let targetMimeType := tp.targetMimeType ++ (freq.elim [] fun f => str ";rate=" ++ f) ++
    chan.elim [] fun c => str ";channels=" ++ c
  let attributes := putOpt (putOpt (putOpt .empty (str "duration") duration)
    (str "sampleFrequency") freq) (str "nrAudioChannels") chan
  let options := Dictionary.put .empty (str "ogg") ((first.options.get (str "ogg")).getD [])
  { handlerType := chTranscode
    parameters := (Dictionary.put .empty urlParamTranscodeProfileName tp.name).put
      urlParamTranscode urlValueTranscode
    options := if tp.thumbnail then options.put resourceContentType (str "EX_TH") else options
    attributes := (attributes.put protocolInfo (renderProtocolInfo (some targetMimeType)
      (some (str "http-get")))).putAll tp.attributes.rows }

/-- The loop over the profiles: a transcoded resource goes to the front or to the end. -/
def addTranscoded (cfg : ResourceConfig) (item : CdsObject) :
    List CdsResource → List TranscodingProfile → Except Exception (List CdsResource)
  | resources, [] => .ok resources
  | resources, tp :: profiles =>
    match tp.applies cfg item resources with
    | .error e => .error e
    | .ok false => addTranscoded cfg item resources profiles
    | .ok true =>
      match getResource resources 0 with
      | .error e => .error e
      | .ok first =>
        let r := transcodedResource first tp
        addTranscoded cfg item (if tp.firstResource then r :: resources else resources ++ [r])
          profiles

/-- `tlist->get(item->getMimeType())` -/
def profilesOf (cfg : ResourceConfig) (item : CdsObject) : Option (List TranscodingProfile) :=
  item.mimeType.bind fun mimeType =>
    (cfg.profiles.find? fun entry => entry.1 = mimeType).map Prod.snd

/-! ## URLs -/

/-- `getVirtualURL` -/
def ResourceConfig.virtualURL (cfg : ResourceConfig) : Str := cfg.serverURL ++ str "/content"

structure UrlBase where
  urlBase : Str
  addResID : Bool

/-- `IS_CDS_ITEM_INTERNAL_URL || IS_CDS_ITEM_EXTERNAL_URL`, and not through the proxy. -/
def skipURL (item : CdsObject) : Bool :=
  (isCdsItemInternalURL item.objectType || isCdsItemExternalURL item.objectType) &&
    !item.getFlag objectFlagProxyURL

/-- The path up to the number of the resource, under a handler. -/
def handlerBase (cfg : ResourceConfig) (item : CdsObject) (handler : Str) : Str :=
  cfg.virtualURL ++ [urlParamSeparator] ++ handler ++ [urlParamSeparator] ++
    (Dictionary.put .empty urlObjectID (fromInt item.id)).encodeSimple ++ [urlParamSeparator] ++
    urlResourceID ++ [urlParamSeparator]

/-- `addResources_getUrlBase` -/
def getUrlBase (cfg : ResourceConfig) (item : CdsObject) (forceLocal : Bool) : UrlBase :=
  if isCdsItemInternalURL item.objectType then
    ⟨cfg.virtualURL ++ str "/serve/" ++ item.location.getD [], false⟩
  else if isCdsItemExternalURL item.objectType && !item.getFlag objectFlagProxyURL && !forceLocal then
    ⟨item.location.getD [], false⟩
  else if isCdsItemExternalURL item.objectType &&
      (item.getFlag objectFlagOnlineService && item.getFlag objectFlagProxyURL || forceLocal) then
    ⟨handlerBase cfg item (str "online"), true⟩
  else ⟨handlerBase cfg item (str "media"), true⟩

/-- `renderExtension`, nothing for nil. -/
def renderExtension (contentType location : Option Str) : Str :=
  let ext := [urlParamSeparator] ++ urlFileExtension ++ [urlParamSeparator] ++ str "file"
  if stringOk contentType && contentType != some (str "playlist") then
    ext ++ '.'.toUInt8 :: contentType.getD []
  else
    match location.bind fun l => (rindex '.'.toUInt8 l).map fun dot => l.drop dot with
    | some extension => if urlParamSeparator ∈ extension then [] else ext ++ extension
    | none => []

/-- Does the resource carry the mark of a transcoded one? -/
def isTranscoded (r : CdsResource) : Bool :=
  r.parameters.get urlParamTranscode = some urlValueTranscode

/-- A thumbnail that is elsewhere, as the resource at this index. -/
def isExternalThumbnail (i : Nat) (r : CdsResource) : Bool :=
  0 < i && r.handlerType == chExtURL &&
    (r.options.get resourceContentType == some (str "th") ||
      r.options.get resourceContentType == some (str "aa"))

/-- A resource that is written as album art. -/
def isAlbumArt (cfg : ResourceConfig) (i : Nat) (r : CdsResource) : Bool :=
  cfg.id3AlbumArt && 0 < i &&
    if r.handlerType = chExtURL then r.options.get resourceContentType == some (str "aa")
    else (r.handlerType == chID3 || r.handlerType == chMP4) &&
      r.parameters.get resourceContentType == some (str "aa")

/-- The URL up to the parameters: with the number of the stored resource, or without one. -/
def startURL (urlBase : UrlBase) (urlBaseTr : Option UrlBase) (skip : Bool) (realCount : Nat)
    (r : CdsResource) : Except Exception Str :=
  if isTranscoded r then
    if skip then
      match urlBaseTr with
      | some base => .ok (base.urlBase ++ urlValueTranscodeNoResID)
      | none => ContentManager.outOfBounds
    else .ok (urlBase.urlBase ++ urlValueTranscodeNoResID)
  else .ok (urlBase.urlBase ++ if urlBase.addResID then fromInt realCount else [])

/-- The URL of the resource at index `i`, and whether an external thumbnail has been seen. -/
def resourceURL (cfg : ResourceConfig) (item : CdsObject) (urlBase : UrlBase)
    (urlBaseTr : Option UrlBase) (i realCount : Nat) (isExtThumbnail : Bool) (r : CdsResource) :
    Except Exception (Str × Bool) :=
  match startURL urlBase urlBaseTr (skipURL item) realCount r with
  | .error e => .error e
  | .ok start =>
    let url := if 0 < r.parameters.size then
      start ++ urlParamSeparator :: r.parameters.encodeSimple else start
    if isExternalThumbnail i r then
      match r.options.get (str "url") with
      | some (c :: s) => .ok (c :: s, true)
      | _ => .error (.exception (str "missing thumbnail URL!"))
    else if isAlbumArt cfg i r || isExtThumbnail || skipURL item then .ok (url, isExtThumbnail)
    else
      let contentType := cfg.contentType (getMTFromProtocolInfo (r.attributes.get protocolInfo))
      .ok (url ++ renderExtension contentType (if isTranscoded r then none else item.location),
        isExtThumbnail)

/-- The loop over the resources; `realCount` counts those that are not transcoded. -/
def resourceURLs (cfg : ResourceConfig) (item : CdsObject) (urlBase : UrlBase)
    (urlBaseTr : Option UrlBase) :
    Nat → Nat → Bool → List CdsResource → Except Exception (List (CdsResource × Str))
  | _, _, _, [] => .ok []
  | i, realCount, isExtThumbnail, r :: rs =>
    match resourceURL cfg item urlBase urlBaseTr i realCount isExtThumbnail r with
    | .error e => .error e
    | .ok (url, isExtThumbnail) =>
      match resourceURLs cfg item urlBase urlBaseTr (i + 1)
          (if isTranscoded r then realCount else realCount + 1) isExtThumbnail rs with
      | .error e => .error e
      | .ok urls => .ok ((r, url) :: urls)

/-- `addResources`: the resources of the reply with their URLs. -/
def addResources (cfg : ResourceConfig) (item : CdsObject) :
    Except Exception (List (CdsResource × Str)) := do
  let thumbnails ← videoThumbnail cfg item
  let profiles := profilesOf cfg item
  let resources ← addTranscoded cfg item (item.resources ++ thumbnails) (profiles.getD [])
  let urlBaseTr := if profiles.isSome && skipURL item then some (getUrlBase cfg item true) else none
  resourceURLs cfg item (getUrlBase cfg item false) urlBaseTr 0 0 false resources

/-! ## The resources of a reply -/

section

variable {cfg : ResourceConfig} {item : CdsObject}

theorem transcodedResource_rows (first : CdsResource) (tp : TranscodingProfile) :
    (transcodedResource first tp).parameters.rows =
      [(urlParamTranscodeProfileName, tp.name), (urlParamTranscode, urlValueTranscode)] := by
  unfold transcodedResource
  rfl

/-- Transcoded resources go to the front and to the end of what is there. -/
theorem addTranscoded_eq {resources out : List CdsResource} {profiles : List TranscodingProfile}
    (h : addTranscoded cfg item resources profiles = .ok out) :
    ∃ before after, out = before ++ resources ++ after ∧
      ∀ r ∈ before ++ after, ∃ first, ∃ tp ∈ profiles, r = transcodedResource first tp := by
  induction profiles generalizing resources with
  | nil =>
    cases h
    exact ⟨[], [], (List.append_nil _).symm, nofun⟩
  | cons tp profiles ih =>
    rw [addTranscoded] at h
    split at h
    · cases h
    · obtain ⟨before, after, hout, hmade⟩ := ih h
      refine ⟨before, after, hout, fun r hr => ?_⟩
      obtain ⟨first, tp', htp', hr⟩ := hmade r hr
      exact ⟨first, tp', List.mem_cons_of_mem tp htp', hr⟩
    · split at h
      · cases h
      · next first _ =>
        obtain ⟨before, after, hout, hmade⟩ := ih h
        have hlater : ∀ r ∈ before ++ after, ∃ first, ∃ tp' ∈ tp :: profiles,
            r = transcodedResource first tp' := by
          intro r hr
          obtain ⟨first, tp', htp', hr⟩ := hmade r hr
          exact ⟨first, tp', List.mem_cons_of_mem tp htp', hr⟩
        have hnew : ∃ first', ∃ tp' ∈ tp :: profiles,
            transcodedResource first tp = transcodedResource first' tp' :=
          ⟨first, tp, List.mem_cons_self, rfl⟩
        split at hout
        · refine ⟨before ++ [transcodedResource first tp], after, ?_, fun r hr => ?_⟩
          · rw [hout]
            simp only [List.append_assoc, List.cons_append, List.nil_append]
          · simp only [List.mem_append, List.mem_singleton] at hr
            rcases hr with (hr | rfl) | hr
            · exact hlater r (List.mem_append_left _ hr)
            · exact hnew
            · exact hlater r (List.mem_append_right _ hr)
        · refine ⟨before, transcodedResource first tp :: after, ?_, fun r hr => ?_⟩
          · rw [hout]
            simp only [List.append_assoc, List.singleton_append]
          · simp only [List.mem_append, List.mem_cons] at hr
            rcases hr with hr | rfl | hr
            · exact hlater r (List.mem_append_left _ hr)
            · exact hnew
            · exact hlater r (List.mem_append_right _ hr)

theorem resourceURLs_fst {base : UrlBase} {baseTr : Option UrlBase} {i c : Nat} {e : Bool}
    {rs : List CdsResource} {urls : List (CdsResource × Str)}
    (h : resourceURLs cfg item base baseTr i c e rs = .ok urls) : urls.map Prod.fst = rs := by
  induction rs generalizing i c e urls with
  | nil =>
    cases h
    rfl
  | cons r rs ih =>
    rw [resourceURLs] at h
    split at h
    · cases h
    · split at h
      · cases h
      · next hrest =>
        cases h
        rw [List.map_cons, ih hrest]

/-- **The counters.**  The resource at a place is given the place as its index, and the number of
    resources before it that are not transcoded as its number. -/
theorem resourceURLs_at {base : UrlBase} {baseTr : Option UrlBase} {i c : Nat} {e : Bool}
    {rs : List CdsResource} {urls : List (CdsResource × Str)}
    (h : resourceURLs cfg item base baseTr i c e rs = .ok urls) {j : Nat} {r : CdsResource}
    {url : Str} (hj : urls[j]? = some (r, url)) :
    ∃ e₁ e₂, resourceURL cfg item base baseTr (i + j)
      (c + (rs.take j).countP fun r => !isTranscoded r) e₁ r = .ok (url, e₂) := by
  induction rs generalizing i c e urls j with
  | nil =>
    cases h
    cases hj
  | cons r₀ rs ih =>
    rw [resourceURLs] at h
    split at h
    · cases h
    · next url₀ e₀ hfirst =>
      split at h
      · cases h
      · next hrest =>
        cases h
        rcases j with _ | j
        · simp only [List.getElem?_cons_zero, Option.some.injEq, Prod.mk.injEq] at hj
          obtain ⟨rfl, rfl⟩ := hj
          exact ⟨e, e₀, hfirst⟩
        · rw [List.getElem?_cons_succ] at hj
          obtain ⟨e₁, e₂, hurl⟩ := ih hrest hj
          refine ⟨e₁, e₂, ?_⟩
          rw [List.take_succ_cons, List.countP_cons]
          have hcount : (if isTranscoded r₀ then c else c + 1) +
              (rs.take j).countP (fun r => !isTranscoded r) =
              c + ((rs.take j).countP (fun r => !isTranscoded r) +
                if (!isTranscoded r₀) = true then 1 else 0) := by
            cases isTranscoded r₀ <;> simp only [Bool.not_true, Bool.not_false, Bool.false_eq_true,
              if_true, if_false] <;> omega
          rw [hcount, Nat.add_right_comm i 1 j] at hurl
          exact hurl

end

/-! ## What is read back -/

/-- `LINK_FILE_REQUEST_HANDLER` -/
def linkFileRequestHandler : Str := str "/content/media/"

/-- `LINK_URL_REQUEST_HANDLER` -/
def linkURLRequestHandler : Str := str "/content/online/"

/-- Behind the prefix of one of the handlers, the URL has the object, the number of the resource
    and all parameters. -/
def ReadsBack (cfg : ResourceConfig) (item : CdsObject) (resID : Str) (params : Dictionary)
    (url : Str) : Prop :=
  ∃ link ∈ [linkFileRequestHandler, linkURLRequestHandler], ∃ parameters,
    url = cfg.serverURL ++ link ++ parameters ∧
      (Dictionary.decodeSimple .empty parameters).get urlObjectID = some (fromInt item.id) ∧
      (Dictionary.decodeSimple .empty parameters).get urlResourceID = some resID ∧
      ∀ el ∈ params.rows, (Dictionary.decodeSimple .empty parameters).get el.1 = some el.2

/-- Parameters that a path can hold beside its own. -/
def PathParameters (params : Dictionary) : Prop :=
  ∀ el ∈ params.rows, el.1 ≠ [] ∧ el.2 ≠ [] ∧
    el.1 ∉ [urlObjectID, urlResourceID, urlFileExtension]

instance (params : Dictionary) : Decidable (PathParameters params) :=
  inferInstanceAs (Decidable (∀ el ∈ params.rows, el.1 ≠ [] ∧ el.2 ≠ [] ∧
    el.1 ∉ [urlObjectID, urlResourceID, urlFileExtension]))

/-- An extension is a pair of its own, or nothing. -/
theorem renderExtension_eq {contentType location : Option Str}
    (h : urlParamSeparator ∉ contentType.getD []) :
    ∃ pairs, renderExtension contentType location = continuation pairs ∧
      (∀ p ∈ pairs, p.1 = urlFileExtension ∧ IsPart p.2) ∧ pairs.length ≤ 1 := by
  have hfile : ∀ {s : Str}, urlParamSeparator ∉ s → IsPart (str "file" ++ s) := by
    intro s hs
    refine ⟨List.append_ne_nil_of_left_ne_nil (by decide) _, fun hmem => ?_⟩
    rcases List.mem_append.mp hmem with hmem | hmem
    · revert hmem
      decide
    · exact hs hmem
  have hone : ∀ {s : Str}, urlParamSeparator ∉ s →
      ∃ pairs, [urlParamSeparator] ++ urlFileExtension ++ [urlParamSeparator] ++ str "file" ++ s =
        continuation pairs ∧ (∀ p ∈ pairs, p.1 = urlFileExtension ∧ IsPart p.2) ∧
          pairs.length ≤ 1 := by
    intro s hs
    refine ⟨[(urlFileExtension, str "file" ++ s)], ?_, ?_, le_rfl⟩
    · rw [continuation, if_neg nofun, path_single]
      simp only [List.append_assoc, List.cons_append, List.nil_append]
    · intro p hp
      rw [List.mem_singleton.mp hp]
      exact ⟨rfl, hfile hs⟩
  have hnone : ∃ pairs : List (Str × Str), [] = continuation pairs ∧
      (∀ p ∈ pairs, p.1 = urlFileExtension ∧ IsPart p.2) ∧ pairs.length ≤ 1 :=
    ⟨[], rfl, nofun, Nat.zero_le 1⟩
  unfold renderExtension
  simp only
  split
  · refine hone fun hmem => ?_
    rcases List.mem_cons.mp hmem with hdot | hmem
    · revert hdot
      decide
    · exact h hmem
  · split
    · next extension _ =>
      split
      · exact hnone
      · next hslash => exact hone hslash
    · exact hnone

theorem handlerBase_eq (cfg : ResourceConfig) (item : CdsObject) (handler resID : Str) :
    handlerBase cfg item handler ++ resID =
      cfg.serverURL ++ (str "/content/" ++ handler ++ [urlParamSeparator]) ++
        path [escapedPair (urlObjectID, fromInt item.id), (urlResourceID, resID)] := by
  have hencode : (Dictionary.put .empty urlObjectID (fromInt item.id)).encodeSimple =
      path [escapedPair (urlObjectID, fromInt item.id)] := by
    rw [encodeSimple_eq]
    rfl
  have hcontent : str "/content/" = str "/content" ++ [urlParamSeparator] := by decide
  rw [handlerBase, hencode, path_cons, path_single, path_single, ResourceConfig.virtualURL, hcontent]
  simp only [List.append_assoc, List.cons_append, List.nil_append]

/-- **Framing.**  What follows the prefix of a handler is read back whole, whatever number and
    extension it has. -/
theorem readsBack_of_pairs {cfg : ResourceConfig} {item : CdsObject} {handler resID : Str}
    {params : Dictionary} {extension : List (Str × Str)}
    (hhandler : handler = str "media" ∨ handler = str "online") (hne : resID ≠ [])
    (hplain : urlEscape resID = resID) (hparams : PathParameters params)
    (hextension : ∀ p ∈ extension, p.1 = urlFileExtension ∧ IsPart p.2)
    (hlength : extension.length ≤ 1) :
    ReadsBack cfg item resID params (handlerBase cfg item handler ++ resID ++
      continuation (params.rows.map escapedPair) ++ continuation extension) := by
  have hid : fromInt item.id ≠ [] := fromInt_ne_nil _
  -- all pairs but the extension, as they are read
  have hels : ∃ els : List (Str × Str), els =
      (urlObjectID, fromInt item.id) :: (urlResourceID, resID) :: params.rows := ⟨_, rfl⟩
  obtain ⟨els, hels⟩ := hels
  have hkeys : ((els ++ extension.map unescapedPair).map Prod.fst).Nodup := by
    have hext : ∀ k ∈ (extension.map unescapedPair).map Prod.fst, k = urlFileExtension := by
      intro k hk
      obtain ⟨q, hq, rfl⟩ := List.mem_map.mp hk
      obtain ⟨p, hp, rfl⟩ := List.mem_map.mp hq
      rw [unescapedPair, (hextension p hp).1]
      show urlUnescape urlFileExtension = urlFileExtension
      decide
    have hown : ∀ k ∈ params.rows.map Prod.fst,
        k ∉ [urlObjectID, urlResourceID, urlFileExtension] := by
      intro k hk
      obtain ⟨el, hel, rfl⟩ := List.mem_map.mp hk
      exact (hparams el hel).2.2
    rw [List.map_append, List.nodup_append]
    refine ⟨?_, ?_, ?_⟩
    · rw [hels, List.map_cons, List.map_cons, List.nodup_cons, List.nodup_cons, List.mem_cons]
      refine ⟨?_, fun hmem => ?_, params.nodup⟩
      · rintro (heq | hmem)
        · have hne : urlObjectID ≠ urlResourceID := by decide
          exact hne heq
        · exact hown _ hmem List.mem_cons_self
      · exact hown _ hmem (List.mem_cons_of_mem _ List.mem_cons_self)
    · rw [List.map_map]
      rcases extension with _ | ⟨p, _ | ⟨q, extension⟩⟩
      · exact List.nodup_nil
      · exact List.nodup_singleton _
      · simp only [List.length_cons] at hlength
        omega
    · intro k hk k' hk'
      rw [hext k' hk']
      rw [hels, List.map_cons, List.map_cons, List.mem_cons, List.mem_cons] at hk
      rcases hk with rfl | rfl | hk
      · show urlObjectID ≠ urlFileExtension
        decide
      · show urlResourceID ≠ urlFileExtension
        decide
      · rintro rfl
        exact hown _ hk (List.mem_cons_of_mem _ (List.mem_cons_of_mem _ List.mem_cons_self))
  have hparts : ∀ p ∈ els.map escapedPair ++ extension, IsPart p.1 ∧ IsPart p.2 := by
    intro p hp
    rcases List.mem_append.mp hp with hp | hp
    · obtain ⟨el, hel, rfl⟩ := List.mem_map.mp hp
      have hboth : el.1 ≠ [] ∧ el.2 ≠ [] := by
        rw [hels, List.mem_cons, List.mem_cons] at hel
        rcases hel with rfl | rfl | hel
        · exact ⟨List.cons_ne_nil _ _, hid⟩
        · exact ⟨List.cons_ne_nil _ _, hne⟩
        · exact ⟨(hparams el hel).1, (hparams el hel).2.1⟩
      exact ⟨isPart_urlEscape hboth.1, isPart_urlEscape hboth.2⟩
    · rw [(hextension p hp).1]
      exact ⟨by decide, (hextension p hp).2⟩
  have hpath : handlerBase cfg item handler ++ resID ++
      continuation (params.rows.map escapedPair) ++ continuation extension =
      cfg.serverURL ++ (str "/content/" ++ handler ++ [urlParamSeparator]) ++
        path (els.map escapedPair ++ extension) := by
    have hresID : (urlResourceID, resID) = escapedPair (urlResourceID, resID) := by
      rw [escapedPair, hplain]
      rfl
    have hhead : path [escapedPair (urlObjectID, fromInt item.id), (urlResourceID, resID)] ++
        continuation (params.rows.map escapedPair) = path (els.map escapedPair) := by
      rw [hresID, ← path_continuation (List.cons_ne_nil _ _), hels]
      rfl
    have hels_ne : els.map escapedPair ≠ [] := by
      rw [hels]
      exact List.cons_ne_nil _ _
    rw [handlerBase_eq, List.append_assoc _ (path _), hhead, path_continuation hels_ne,
      List.append_assoc _ (path _)]
  have hread : Dictionary.decodeSimple .empty (path (els.map escapedPair ++ extension)) =
      Dictionary.putAll .empty (els ++ extension.map unescapedPair) := by
    have hne : els.map escapedPair ++ extension ≠ [] := by
      rw [hels]
      exact List.cons_ne_nil _ _
    rw [decodeSimple_path hparts hne, List.map_append, unescapedPair_map]
  refine ⟨str "/content/" ++ handler ++ [urlParamSeparator], ?_,
    path (els.map escapedPair ++ extension), hpath, ?_, ?_, ?_⟩
  · rcases hhandler with rfl | rfl
    · exact List.mem_cons_self
    · exact List.mem_cons_of_mem _ List.mem_cons_self
  · rw [hread]
    refine @Dictionary.get_putAll _ _ hkeys (urlObjectID, fromInt item.id) ?_
    rw [hels]
    exact List.mem_append_left _ List.mem_cons_self
  · rw [hread]
    refine @Dictionary.get_putAll _ _ hkeys (urlResourceID, resID) ?_
    rw [hels]
    exact List.mem_append_left _ (List.mem_cons_of_mem _ List.mem_cons_self)
  · intro el hel
    rw [hread]
    refine Dictionary.get_putAll hkeys ?_
    rw [hels]
    exact List.mem_append_left _ (List.mem_cons_of_mem _ (List.mem_cons_of_mem _ hel))

section

variable {cfg : ResourceConfig} {item : CdsObject}

theorem contentType_noSlash (hcontent : ∀ el ∈ cfg.mappings.rows, urlParamSeparator ∉ el.2)
    (mimeType : Option Str) : urlParamSeparator ∉ (cfg.contentType mimeType).getD [] := by
  intro hmem
  rcases hct : cfg.contentType mimeType with _ | ct
  · rw [hct] at hmem
    cases hmem
  · rw [hct] at hmem
    obtain ⟨m, -, hget⟩ := Option.bind_eq_some_iff.mp hct
    exact hcontent _ (Dictionary.get_eq_some.mp hget) hmem

/-- A URL that starts under a handler is read back, external thumbnails apart. -/
theorem resourceURL_readsBack {base : UrlBase} {baseTr : Option UrlBase} {i c : Nat} {e e' : Bool}
    {r : CdsResource} {url handler resID : Str}
    (h : resourceURL cfg item base baseTr i c e r = .ok (url, e'))
    (hstart : startURL base baseTr (skipURL item) c r = .ok (handlerBase cfg item handler ++ resID))
    (hthumb : isExternalThumbnail i r = false)
    (hhandler : handler = str "media" ∨ handler = str "online") (hne : resID ≠ [])
    (hplain : urlEscape resID = resID) (hparams : PathParameters r.parameters)
    (hcontent : ∀ el ∈ cfg.mappings.rows, urlParamSeparator ∉ el.2) :
    ReadsBack cfg item resID r.parameters url := by
  have hurl : (if 0 < r.parameters.size then
      handlerBase cfg item handler ++ resID ++ urlParamSeparator :: r.parameters.encodeSimple
      else handlerBase cfg item handler ++ resID) =
      handlerBase cfg item handler ++ resID ++ continuation (r.parameters.rows.map escapedPair) := by
    have hempty : r.parameters.rows.map escapedPair = [] ↔ ¬0 < r.parameters.size := by
      rw [List.map_eq_nil_iff, Dictionary.size, Nat.not_lt, Nat.le_zero, List.length_eq_zero_iff]
    rw [continuation, encodeSimple_eq]
    split
    · next hsize => rw [if_neg fun hnil => hempty.mp hnil hsize]
    · next hsize => rw [if_pos (hempty.mpr hsize), List.append_nil]
  rw [resourceURL, hstart] at h
  simp only [hthumb, Bool.false_eq_true, if_false, hurl] at h
  split at h
  · cases h
    have hnil : continuation [] = [] := if_pos rfl
    have := @readsBack_of_pairs cfg item _ _ _ [] hhandler hne hplain hparams nofun (Nat.zero_le 1)
    rwa [hnil, List.append_nil] at this
  · cases h
    obtain ⟨pairs, hpairs, hext, hlength⟩ := @renderExtension_eq _
      (if isTranscoded r = true then none else item.location)
      (contentType_noSlash hcontent (getMTFromProtocolInfo (r.attributes.get protocolInfo)))
    rw [hpairs]
    exact readsBack_of_pairs hhandler hne hplain hparams hext hlength

/-- An external thumbnail has its own URL. -/
theorem resourceURL_thumbnail {base : UrlBase} {baseTr : Option UrlBase} {i c : Nat} {e e' : Bool}
    {r : CdsResource} {url : Str} (h : resourceURL cfg item base baseTr i c e r = .ok (url, e'))
    (hthumb : isExternalThumbnail i r = true) : r.options.get (str "url") = some url := by
  rw [resourceURL] at h
  split at h
  · cases h
  · simp only [hthumb, if_true] at h
    split at h
    · next hget =>
      cases h
      exact hget
    · cases h

/-- A base with a number is the base of a handler. -/
theorem getUrlBase_addResID {forceLocal : Bool}
    (h : (getUrlBase cfg item forceLocal).addResID = true) :
    ∃ handler, (handler = str "media" ∨ handler = str "online") ∧
      (getUrlBase cfg item forceLocal).urlBase = handlerBase cfg item handler := by
  unfold getUrlBase at h ⊢
  split_ifs at h ⊢ with hinternal hexternal honline
  · exact ⟨_, Or.inr rfl, rfl⟩
  · exact ⟨_, Or.inl rfl, rfl⟩

theorem isTranscoded_transcodedResource (first : CdsResource) (tp : TranscodingProfile) :
    isTranscoded (transcodedResource first tp) = true := by
  unfold isTranscoded
  rw [decide_eq_true_eq, Dictionary.get_eq_some, transcodedResource_rows]
  exact List.mem_cons_of_mem _ List.mem_cons_self

theorem pathParameters_transcodedResource {first : CdsResource} {tp : TranscodingProfile}
    (h : tp.name ≠ []) : PathParameters (transcodedResource first tp).parameters := by
  intro el hel
  rw [transcodedResource_rows, List.mem_cons, List.mem_singleton] at hel
  rcases hel with rfl | rfl
  · refine ⟨List.cons_ne_nil _ _, h, ?_⟩
    show urlParamTranscodeProfileName ∉ _
    decide
  · refine ⟨by decide, by decide, by decide⟩

/-- The place of a stored resource among all, and what is counted up to it. -/
theorem countP_take {before middle after : List CdsResource} {k : Nat} (hk : k ≤ middle.length)
    (hbefore : ∀ r ∈ before, isTranscoded r = true)
    (hmiddle : ∀ r ∈ middle, isTranscoded r = false) :
    ((before ++ middle ++ after).take (before.length + k)).countP (fun r => !isTranscoded r) = k := by
  have htake : (before ++ middle ++ after).take (before.length + k) = before ++ middle.take k := by
    rw [List.append_assoc, List.take_length_add_append, List.take_append_of_le_length hk]
  have hnone : before.countP (fun r => !isTranscoded r) = 0 := by
    rw [List.countP_eq_zero]
    intro r hr
    rw [hbefore r hr]
    decide
  have hall : (middle.take k).countP (fun r => !isTranscoded r) = k := by
    rw [List.countP_eq_length.mpr, List.length_take, Nat.min_eq_left hk]
    intro r hr
    rw [hmiddle r (List.mem_of_mem_take hr)]
    rfl
  rw [htake, List.countP_append, hnone, hall, Nat.zero_add]

/-- The resources of a reply are the stored ones with transcoded ones in front and behind (and a
    video's thumbnail).  The URL of the `k`-th stored one says `k`, that of a transcoded one `none`,
    and both say the object and all parameters; an external thumbnail has its own URL. -/
def URLsReadBack (cfg : ResourceConfig) (item : CdsObject) (urls : List (CdsResource × Str)) :
    Prop :=
  ∃ before thumbnails after, videoThumbnail cfg item = .ok thumbnails ∧
    urls.map Prod.fst = before ++ (item.resources ++ thumbnails) ++ after ∧
    (∀ r ∈ before ++ after, ∃ first tp, r = transcodedResource first tp) ∧
    (∀ k r url, item.resources[k]? = some r → urls[before.length + k]? = some (r, url) →
      if isExternalThumbnail (before.length + k) r then r.options.get (str "url") = some url
      else (getUrlBase cfg item false).addResID = true →
        ReadsBack cfg item (fromInt k) r.parameters url) ∧
    ∀ i r url, (i < before.length ∨ before.length + (item.resources ++ thumbnails).length ≤ i) →
      urls[i]? = some (r, url) → (getUrlBase cfg item (skipURL item)).addResID = true →
        ReadsBack cfg item urlValueTranscodeNoResID r.parameters url

/-- **What `addResources` builds the file handlers read back.** -/
theorem resource_url_decodes {urls : List (CdsResource × Str)}
    (h : addResources cfg item = .ok urls)
    (hcontent : ∀ el ∈ cfg.mappings.rows, urlParamSeparator ∉ el.2)
    (hnames : ∀ entry ∈ cfg.profiles, ∀ tp ∈ entry.2, tp.name ≠ [])
    (hstored : ∀ r ∈ item.resources, PathParameters r.parameters ∧ isTranscoded r = false) :
    URLsReadBack cfg item urls := by
  rw [addResources] at h
  simp only [bind, Except.bind] at h
  split at h
  · cases h
  · next thumbnails hthumbnails =>
    split at h
    · cases h
    · next resources hresources =>
      obtain ⟨before, after, hout, hmade⟩ := addTranscoded_eq hresources
      have hfst := resourceURLs_fst h
      have hmade' : ∀ r ∈ before ++ after, isTranscoded r = true := by
        intro r hr
        obtain ⟨first, tp, -, rfl⟩ := hmade r hr
        exact isTranscoded_transcodedResource first tp
      refine ⟨before, thumbnails, after, hthumbnails, hfst.trans hout, ?_, ?_, ?_⟩
      · intro r hr
        obtain ⟨first, tp, -, hr⟩ := hmade r hr
        exact ⟨first, tp, hr⟩
      · intro k r url hk hurl
        obtain ⟨hlt, hget⟩ := List.getElem?_eq_some_iff.mp hk
        obtain ⟨hparams, hplain⟩ := hstored r (List.mem_of_getElem? hk)
        obtain ⟨e₁, e₂, hstep⟩ := resourceURLs_at h hurl
        -- the number is the place among the stored resources
        have hcount : (resources.take (before.length + k)).countP (fun r => !isTranscoded r) = k := by
          have hassoc : resources = before ++ item.resources ++ (thumbnails ++ after) := by
            rw [hout]
            simp only [List.append_assoc]
          rw [hassoc]
          exact countP_take hlt.le (fun r hr => hmade' r (List.mem_append_left _ hr))
            fun r hr => (hstored r hr).2
        rw [Nat.zero_add, Nat.zero_add, hcount] at hstep
        split
        · next hthumb => exact resourceURL_thumbnail hstep hthumb
        · next hthumb =>
          intro hbase
          obtain ⟨handler, hhandler, hurlBase⟩ := getUrlBase_addResID hbase
          refine resourceURL_readsBack hstep ?_ (Bool.eq_false_iff.mpr hthumb) hhandler
            (fromInt_ne_nil _) (urlEscape_fromInt _) hparams hcontent
          simp only [startURL, hplain, Bool.false_eq_true, if_false, hbase, if_true, hurlBase]
      · intro i r url hi hurl hbase
        obtain ⟨e₁, e₂, hstep⟩ := resourceURLs_at h hurl
        rw [Nat.zero_add] at hstep
        -- a place outside the stored resources is one of a transcoded resource
        have hr : r ∈ before ++ after := by
          have hmap : (urls.map Prod.fst)[i]? = some r := by
            rw [List.getElem?_map, hurl]
            rfl
          rw [hfst, hout, List.append_assoc] at hmap
          rcases hi with hi | hi
          · rw [List.getElem?_append_left hi] at hmap
            exact List.mem_append_left _ (List.mem_of_getElem? hmap)
          · rw [List.getElem?_append_right (by omega),
              List.getElem?_append_right (by omega)] at hmap
            exact List.mem_append_right _ (List.mem_of_getElem? hmap)
        obtain ⟨first, tp, htp, rfl⟩ := hmade r hr
        have hname : tp.name ≠ [] := by
          rcases hprofiles : profilesOf cfg item with _ | profiles
          · rw [hprofiles] at htp
            cases htp
          · rw [hprofiles] at htp
            obtain ⟨mimeType, -, hfind⟩ := Option.bind_eq_some_iff.mp hprofiles
            obtain ⟨entry, hentry, rfl⟩ := Option.map_eq_some_iff.mp hfind
            exact hnames entry (List.mem_of_find?_eq_some hentry) tp htp
        have hsome : (profilesOf cfg item).isSome = true := by
          rcases hprofiles : profilesOf cfg item with _ | profiles
          · rw [hprofiles] at htp
            cases htp
          · rfl
        obtain ⟨handler, hhandler, hurlBase⟩ := getUrlBase_addResID hbase
        have hthumb : isExternalThumbnail i (transcodedResource first tp) = false := by
          have hhandlerType : ((transcodedResource first tp).handlerType == chExtURL) = false := rfl
          rw [isExternalThumbnail, hhandlerType, Bool.and_false, Bool.false_and]
        refine resourceURL_readsBack hstep ?_ hthumb hhandler (by decide) (by decide)
          (pathParameters_transcodedResource hname) hcontent
        simp only [startURL, isTranscoded_transcodedResource, if_true, hsome, Bool.true_and]
        rcases hskip : skipURL item with _ | _
        · rw [hskip] at hurlBase
          simp only [Bool.false_eq_true, if_false, hurlBase]
        · rw [hskip] at hurlBase
          simp only [if_true, hurlBase]

end

/-! ## A film with a transcoded resource -/

def filmResource (parameters : Dictionary) : CdsResource :=
  ⟨0, ⟨[(protocolInfo, str "http-get:*:video/mpeg:*")], by decide⟩, parameters, .empty⟩

/-- A film of two resources, the second one with a parameter that needs escapes. -/
def film : CdsObject :=
  { id := 720
    upnpClass := some (str "object.item")
    location := some (str "/films/sea.mpg")
    resources := [filmResource .empty, filmResource ⟨[(str "at", str "a/b c")], by decide⟩]
    kind := .item { mimeType := some (str "video/mpeg") } }

/-- One profile for films, whose resource goes first. -/
def filmConfig : ResourceConfig :=
  { serverURL := str "http://10.0.0.1:49152"
    mappings := ⟨[(str "video/mpeg", str "mpeg")], by decide⟩
    profiles := [(str "video/mpeg",
      [{ name := str "small", targetMimeType := str "video/mp4", firstResource := true }])] }

theorem resource_url_decodes_film :
    URLsReadBack filmConfig film ((addResources filmConfig film).toOption.getD []) := by
  refine @resource_url_decodes filmConfig film _ ?_ ?_ ?_ ?_
  · rfl
  · decide
  · simp only [filmConfig, List.forall_mem_singleton]
    decide
  · decide +kernel

/-! ## A film of an online service -/

/-- The stream and a thumbnail that is elsewhere. -/
def streamedFilm : CdsObject :=
  { id := 721
    upnpClass := some (str "object.item")
    location := some (str "http://films/721")
    objectFlags := objectFlagProxyURL ||| objectFlagOnlineService
    resources := [filmResource .empty,
      { filmResource .empty with
        handlerType := chExtURL
        options := ⟨[(resourceContentType, str "th"), (str "url", str "https://i/1.jpg")], by decide⟩ }]
    kind := .itemExternalURL {} }

def streamConfig : ResourceConfig := { serverURL := str "http://10.0.0.1:49152" }

/-- The thumbnail of an online service is not served by the file handlers. -/
theorem thumbnail_not_readBack :
    ¬∀ (cfg : ResourceConfig) (item : CdsObject) (urls : List (CdsResource × Str)),
      addResources cfg item = .ok urls →
      (∀ r ∈ item.resources, isTranscoded r = false ∧ ∀ el ∈ r.parameters.rows,
        el.1 ≠ [] ∧ el.1 ∉ [urlObjectID, urlResourceID, urlFileExtension]) →
      (getUrlBase cfg item false).addResID = true → profilesOf cfg item = none →
      ∀ (k : Nat) (r : CdsResource) (url : Str), urls[k]? = some (r, url) →
        ReadsBack cfg item (fromInt k) r.parameters url := by
  intro h
  have hfilm : ∀ r ∈ streamedFilm.resources, isTranscoded r = false ∧ ∀ el ∈ r.parameters.rows,
      el.1 ≠ [] ∧ el.1 ∉ [urlObjectID, urlResourceID, urlFileExtension] := by
    decide +kernel
  have hurl : ((addResources streamConfig streamedFilm).toOption.bind fun urls => urls[1]?).map
      Prod.snd = some (str "https://i/1.jpg") := by
    decide +kernel
  rcases hurls : addResources streamConfig streamedFilm with e | urls
  · rw [hurls] at hurl
    cases hurl
  · rw [hurls] at hurl
    obtain ⟨⟨r, url⟩, hget, rfl⟩ := Option.map_eq_some_iff.mp hurl
    obtain ⟨link, -, parameters, hread, -⟩ :=
      h streamConfig streamedFilm urls hurls hfilm (by decide +kernel) rfl 1 r _ hget
    have hscheme := congrArg (List.take 5) hread
    rw [List.append_assoc, List.take_append_of_le_length (by decide)] at hscheme
    exact absurd hscheme (by decide +kernel)

end MediaTomb
