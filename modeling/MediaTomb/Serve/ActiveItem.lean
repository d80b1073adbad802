/-
  Opening an active item (`FileRequestHandler::open`), for its first resource.

  The object is loaded and RENDERED for the item's action, a script; what the script answers is put
  into a clone, and a clone that differs is stored.  `PlayHook` may store the object once more.

  Rendering adds resources to the very object that was loaded:

    * an object that was in the cache before IS the cache's object, so the resources stay there;
    * the clone is made afterwards, so the resources go into the row when it is stored.

  An object that `loadObject` has just read is not the cache's: the cache keeps a copy.  So what is
  needed is that rendering changes no resource, or that the object is not cached and nothing is
  stored (`resources_kept`).

  Assertions are off.  The answer of the script, taken apart, and what the file system says are
  given with each call.
-/
import MediaTomb.Serve.CdsResourceManager
import MediaTomb.Storage.KnownResources

namespace MediaTomb

open Lib.Prog

/-! ## Configuration -/

structure OpenConfig extends ResourceConfig where
  /-- `CFG_SERVER_EXTEND_PROTOCOLINFO`, where that is compiled in. -/
  extendProtocolInfo : Bool := false
  markPlayedItemsEnabled : Bool := false
  markPlayedItemsContentList : List Str := []

def objectFlagPlayed : UInt32 := 0x200

def chLibExif : Int := 1

/-! ## `addResources`, and what it leaves of the item -/

/-- The profile of a JPEG of this size. -/
def jpegProfile (i : Nat) (r : CdsResource) (x y : Int) : Str :=
  let isThumbnail := 0 < i &&
    (r.handlerType == chLibExif && r.parameters.get resourceContentType == some (str "EX_TH") ||
      r.options.get resourceContentType == some (str "EX_TH") ||
      r.options.get resourceContentType == some (str "th"))
  if isThumbnail && x ≤ 160 && y ≤ 160 then str "DLNA.ORG_PN=JPEG_TN;"
  else if x ≤ 640 && y ≤ 420 then str "DLNA.ORG_PN=JPEG_SM;"
  else if x ≤ 1024 && y ≤ 768 then str "DLNA.ORG_PN=JPEG_MED;"
  else if x ≤ 4096 && y ≤ 4096 then str "DLNA.ORG_PN=JPEG_LRG;"
  else []

def dlnaProfile (contentType : Option Str) (i : Nat) (r : CdsResource) : Str :=
  if contentType = some (str "mp3") then str "DLNA.ORG_PN=MP3;"
  else if contentType = some (str "pcm") then str "DLNA.ORG_PN=LPCM;"
  else if contentType = some (str "jpg") then
    match (r.attributes.get (str "resolution")).bind checkResolution with
    | some (x, y) => jpegProfile i r x y
    | none => []
  else []

/-- What takes the place of the last part of `protocolInfo`. -/
def dlnaExtension (cfg : ResourceConfig) (i : Nat) (isExtThumbnail : Bool) (r : CdsResource) :
    Str :=
  let mimeType := getMTFromProtocolInfo (r.attributes.get protocolInfo)
  dlnaProfile (cfg.contentType mimeType) i r ++
    if !isExtThumbnail && isTranscoded r then
      str "DLNA.ORG_OP=00;DLNA.ORG_CI=1" ++
        if (str "audio").isPrefixOf (mimeType.getD []) ||
          (str "video").isPrefixOf (mimeType.getD []) then
          str ";DLNA.ORG_FLAGS=012000000000000000000000000000000" else []
    else str "DLNA.ORG_OP=01;DLNA.ORG_CI=0"

/-- The resource after its turn in the loop over the resources. -/
def extendResource (cfg : OpenConfig) (i : Nat) (isExtThumbnail : Bool) (r : CdsResource) :
    CdsResource :=
  if cfg.extendProtocolInfo && !isAlbumArt cfg.toResourceConfig i r then
    let old := (r.attributes.get protocolInfo).getD []
    { r with
      attributes := r.attributes.put protocolInfo
        (old.take ((rindex ':'.toUInt8 old).elim 0 (· + 1)) ++
          dlnaExtension cfg.toResourceConfig i isExtThumbnail r) }
  else r

/-- The loop over the resources, with what it has written when it throws. -/
def extendResources (cfg : OpenConfig) (item : CdsObject) (urlBase : UrlBase)
    (urlBaseTr : Option UrlBase) :
    Nat → Nat → Bool → List CdsResource → List CdsResource × Except Exception Unit
  | _, _, _, [] => ([], .ok ())
  | i, realCount, isExtThumbnail, r :: rs =>
    match resourceURL cfg.toResourceConfig item urlBase urlBaseTr i realCount isExtThumbnail r with
    | .error e => (r :: rs, .error e)
    | .ok (_, isExtThumbnail) =>
      let (rs', result) := extendResources cfg item urlBase urlBaseTr (i + 1)
        (if isTranscoded r then realCount else realCount + 1) isExtThumbnail rs
      (extendResource cfg i isExtThumbnail r :: rs', result)

/-- **The item's resources after `addResources`**, and whether it threw. -/
def renderedResources (cfg : OpenConfig) (item : CdsObject) :
    List CdsResource × Except Exception Unit :=
  match videoThumbnail cfg.toResourceConfig item with
  | .error e => (item.resources, .error e)
  | .ok thumbnails =>
    let profiles := profilesOf cfg.toResourceConfig item
    match addTranscoded cfg.toResourceConfig item (item.resources ++ thumbnails)
        (profiles.getD []) with
    -- the first profile throws, if one does: there is no first resource
    | .error e => (item.resources ++ thumbnails, .error e)
    | .ok resources =>
      let urlBaseTr := if profiles.isSome && skipURL item then
        some (getUrlBase cfg.toResourceConfig item true) else none
      extendResources cfg item (getUrlBase cfg.toResourceConfig item false) urlBaseTr 0 0 false
        resources

/-! ## What the script answers -/

/-- The texts of the answer's elements. -/
structure ScriptOutput where
  title : Option Str := none
  description : Option Str := none
  location : Option Str := none
  mimeType : Option Str := none
  action : Option Str := none
  state : Option Str := none

/-- `UpnpXML_DIDLUpdateObject` -/
def didlUpdateObject (obj : CdsObject) (root : ScriptOutput) : CdsObject :=
  match obj.kind with
  | .activeItem item action _ =>
    { obj with
      title := supplied root.title obj.title
      metadata := obj.metadata.put metaDescription (root.description.getD [])
      location := supplied root.location obj.location
      kind := .activeItem { item with mimeType := supplied root.mimeType item.mimeType }
        (supplied root.action action) (some (root.state.getD [])) }
  | _ => obj

/-! ## `open` -/

/-- What is outside of the server during one call. -/
structure OpenCall where
  /-- The script's answer, parsed. -/
  output : Except Exception ScriptOutput
  /-- Whether the item's file is served. -/
  served : CdsObject → Except Exception Unit
  checkPath : Str → Bool

/-- Writing to the object that the cache has under the id. -/
def changeCached (obj : CdsObject) : Storage Unit := modifyCache fun c =>
  match c.getObject obj.id with
  | some cObj => c.store obj.id { cObj with obj := some obj }
  | none => c

/-- `setFlag` -/
def CdsObject.setFlag (obj : CdsObject) (mask : UInt32) : CdsObject :=
  { obj with objectFlags := obj.objectFlags ||| mask }

/-- Does `PlayHook::trigger` mark the object as played? -/
def OpenConfig.marks (cfg : OpenConfig) (obj : CdsObject) : Bool :=
  cfg.markPlayedItemsEnabled && !obj.getFlag objectFlagPlayed &&
    cfg.markPlayedItemsContentList.any fun content => content.isPrefixOf (obj.mimeType.getD [])

/-- `PlayHook::trigger`; `shared` tells whether the object is the cache's. -/
def trigger (cfg : OpenConfig) (checkPath : Str → Bool) (shared : Bool) (obj : CdsObject) :
    Storage Unit :=
  if cfg.marks obj then do
    let obj := obj.setFlag objectFlagPlayed
    if shared then changeCached obj
    -- `ContentManager::updateObject`
    ofExcept (obj.validate checkPath)
    let _ ← updateObject obj
    pure ()
  else pure ()

/-- The clone after it has been stored: a flag is dropped. -/
def storedClone (clone : CdsObject) : CdsObject :=
  if clone.id = cdsIdFsRoot then clone else clone.clearFlag objectFlagUseResourceRef

/-- The action of an active item: the object that is served, and whether it is the cache's. -/
def runAction (cfg : OpenConfig) (call : OpenCall) (shared : Bool) (obj : CdsObject) :
    Storage (CdsObject × Bool) := do
  let (resources, rendered) := renderedResources cfg obj
  let obj := { obj with resources := resources }
  if shared then changeCached obj
  ofExcept rendered
  let root ← ofExcept call.output
  let clone := didlUpdateObject obj.copy root
  if obj.equalsExactly clone then pure (obj, shared)
  else do
    let _ ← updateObject clone
    pure (storedClone clone, false)

/-- **`open`** for the first resource of an object. -/
def openObject (cfg : OpenConfig) (call : OpenCall) (objectID : Int) : Storage Unit := do
  let shared ← read fun s => (cachedObject s objectID).isSome
  let obj ← loadObject objectID
  if !isCdsItem obj.objectType then throw (.exception (str "requested object is not an item"))
  else do
    let (obj, shared) ← if isCdsActiveItem obj.objectType then runAction cfg call shared obj
      else pure (obj, shared)
    ofExcept (call.served obj)
    trigger cfg call.checkPath shared obj

/-- One call after the other, whether they throw or not. -/
def openAll (cfg : OpenConfig) (objectID : Int) (calls : List OpenCall) (s : StorageState) :
    StorageState :=
  calls.foldl (fun s call => ((openObject cfg call objectID).run s).2) s

/-! ## When nothing of the rendering stays -/

section

variable {cfg : OpenConfig} {call : OpenCall} {item : Int}
  {known : Int → Option (List CdsResource)} {owned : Int → Prop} {obj : CdsObject}
  {s s' : StorageState} {resources : List CdsResource}

/-- The object as the script's input is made of it. -/
def rendered (cfg : OpenConfig) (obj : CdsObject) : CdsObject :=
  { obj with resources := (renderedResources cfg obj).1 }

/-- **The call stores the object it has loaded**: the script changes it, or it is played for the
    first time. -/
def Stores (cfg : OpenConfig) (call : OpenCall) (obj : CdsObject) : Prop :=
  (renderedResources cfg obj).2 = .ok () ∧ ∃ root, call.output = .ok root ∧
    ((rendered cfg obj).equalsExactly (didlUpdateObject (rendered cfg obj).copy root) = false ∨
      (call.served (rendered cfg obj) = .ok () ∧ cfg.marks obj = true))

/-- **A call that leaves the resources alone**: rendering changes none, or the object is not in the
    cache and is not stored; and storing it does not leave them to a reference that has others. -/
def Quiet (cfg : OpenConfig) (call : OpenCall) (item : Int)
    (known : Int → Option (List CdsResource)) (owned : Int → Prop) (s : StorageState) : Prop :=
  ∀ obj s', (loadObject item).run s = (.ok obj, s') →
    ((rendered cfg obj).resources = obj.resources ∨
      (cachedObject s item = none ∧ ¬Stores cfg call obj)) ∧
    (Stores cfg call obj → ReferenceKeeps item known owned obj)

/-! ### Flags -/

theorem getFlag_setFlag {mask flag : UInt32} (h : mask &&& flag = 0) :
    (obj.setFlag mask).getFlag flag = obj.getFlag flag := by
  have hbits : (obj.objectFlags ||| mask) &&& flag = obj.objectFlags &&& flag := by
    apply UInt32.toBitVec_inj.mp
    have h' : mask.toBitVec &&& flag.toBitVec = 0#32 := congrArg UInt32.toBitVec h
    show (obj.objectFlags.toBitVec ||| mask.toBitVec) &&& flag.toBitVec = _
    rw [BitVec.and_comm, BitVec.and_or_distrib_left, BitVec.and_comm,
      BitVec.and_comm _ mask.toBitVec, h', BitVec.or_zero]
    rfl
  show ((obj.objectFlags ||| mask) &&& flag != 0) = _
  rw [hbits]
  rfl

theorem getFlag_clearFlag {mask flag : UInt32} (h : ~~~mask &&& flag = flag) :
    (obj.clearFlag mask).getFlag flag = obj.getFlag flag := by
  show (obj.objectFlags &&& ~~~mask &&& flag != 0) = (obj.objectFlags &&& flag != 0)
  rw [UInt32.and_assoc, h]

/-- Three flags, the reference and the resources matter. -/
theorem ReferenceKeeps.congr (h : ReferenceKeeps item known owned obj) {obj' : CdsObject}
    (hplaylist : obj'.getFlag objectFlagPlaylistRef = obj.getFlag objectFlagPlaylistRef)
    (honline : obj'.getFlag objectFlagOnlineService = obj.getFlag objectFlagOnlineService)
    (huse : obj.getFlag objectFlagUseResourceRef = false →
      obj'.getFlag objectFlagUseResourceRef = false)
    (href : obj'.refID = obj.refID) (hresources : obj'.resources = obj.resources) :
    ReferenceKeeps item known owned obj' := by
  intro hp hr ho
  rw [hplaylist] at hp
  rw [href] at hr
  rw [honline] at ho
  obtain ⟨hother, resources, hknown, hsame⟩ := h hp hr ho
  rw [href, hresources]
  refine ⟨hother, resources, hknown, ?_⟩
  rcases hsame with hown | ⟨hflag, hdiffer⟩
  · exact Or.inl hown
  · refine Or.inr ⟨huse hflag, ?_⟩
    unfold CdsObject.resourcesEqual at hdiffer ⊢
    rw [hresources]
    exact hdiffer

/-! ### The parts of a call -/

theorem known_changeCached (hid : obj.id = item) (hknown : known item = some obj.resources)
    (hactive : obj.objectType = activeItemType) :
    Triple (KnownResources item known owned) (changeCached obj)
      (fun _ => KnownResources item known owned) (KnownResources item known owned) := by
  refine (known_modifyCache fun c j o ho => ?_).triple
  rcases hget : c.getObject obj.id with _ | cObj
  · rw [hget] at ho
    exact Or.inl ho
  · rw [hget] at ho
    rcases store_obj c obj.id j _ ho with hbefore | ⟨rfl, hset⟩
    · exact Or.inl hbefore
    · cases hset
      exact Or.inr ⟨rfl, asKnown_item hid hknown hactive⟩

theorem known_trigger (hne : ∀ id, known id ≠ some []) (hid : obj.id = item)
    (hknown : known item = some obj.resources) (hactive : obj.objectType = activeItemType)
    (hkeeps : cfg.marks obj = true → ReferenceKeeps item known owned obj)
    (checkPath : Str → Bool) (shared : Bool) :
    Triple (KnownResources item known owned) (trigger cfg checkPath shared obj)
      (fun _ => KnownResources item known owned) (KnownResources item known owned) := by
  unfold trigger
  by_cases hmarks : cfg.marks obj = true
  · rw [if_pos hmarks]
    have hkeeps' : ReferenceKeeps item known owned (obj.setFlag objectFlagPlayed) := by
      refine (hkeeps hmarks).congr (getFlag_setFlag (by decide)) (getFlag_setFlag (by decide))
        (fun h => ?_) rfl rfl
      rw [getFlag_setFlag (by decide)]
      exact h
    have hstore : Triple (KnownResources item known owned) (do
        ofExcept ((obj.setFlag objectFlagPlayed).validate checkPath)
        let _ ← updateObject (obj.setFlag objectFlagPlayed)
        pure () : Storage Unit)
        (fun _ => KnownResources item known owned) (KnownResources item known owned) := by
      refine triple_bind (M := fun _ => KnownResources item known owned)
        (keeps_ofExcept _).triple fun _ => ?_
      refine triple_bind (M := fun _ => KnownResources item known owned)
        (known_updateObject hne hactive hid hknown hkeeps') fun _ => ?_
      exact triple_pure fun _ h => h
    cases shared with
    | false => exact hstore
    | true => exact triple_bind (known_changeCached hid hknown hactive) fun _ => hstore
  · rw [if_neg hmarks]
    exact triple_pure fun _ h => h

/-- What the script answers changes neither the resources nor the class. -/
theorem didlUpdateObject_keeps (obj : CdsObject) (root : ScriptOutput) :
    (didlUpdateObject obj root).id = obj.id ∧ (didlUpdateObject obj root).refID = obj.refID ∧
      (didlUpdateObject obj root).objectFlags = obj.objectFlags ∧
      (didlUpdateObject obj root).resources = obj.resources ∧
      (didlUpdateObject obj root).objectType = obj.objectType := by
  unfold didlUpdateObject
  split
  · next hkind =>
    refine ⟨rfl, rfl, rfl, rfl, ?_⟩
    unfold CdsObject.objectType
    rw [hkind]
    rfl
  · exact ⟨rfl, rfl, rfl, rfl, rfl⟩

theorem storedClone_keeps (clone : CdsObject) :
    (storedClone clone).id = clone.id ∧ (storedClone clone).resources = clone.resources ∧
      (storedClone clone).objectType = clone.objectType ∧
      (ReferenceKeeps item known owned clone →
        ReferenceKeeps item known owned (storedClone clone)) := by
  unfold storedClone
  split
  · exact ⟨rfl, rfl, rfl, fun h => h⟩
  · refine ⟨rfl, rfl, rfl, fun h => ?_⟩
    refine h.congr (getFlag_clearFlag (by decide)) (getFlag_clearFlag (by decide))
      (fun _ => ?_) rfl rfl
    show (clone.objectFlags &&& ~~~objectFlagUseResourceRef &&& objectFlagUseResourceRef != 0) =
      false
    rw [UInt32.and_assoc, UInt32.not_and_self, UInt32.and_zero]
    rfl

/-- What is served keeps the resources if it is stored once more. -/
def ServedKeeps (cfg : OpenConfig) (call : OpenCall) (item : Int)
    (known : Int → Option (List CdsResource)) (owned : Int → Prop) (obj : CdsObject) : Prop :=
  obj.id = item ∧ obj.objectType = activeItemType ∧
    (call.served obj = .ok () → cfg.marks obj = true →
      known item = some obj.resources ∧ ReferenceKeeps item known owned obj)

theorem known_runAction (hne : ∀ id, known id ≠ some []) (hid : obj.id = item)
    (hknown : known item = some obj.resources) (hactive : obj.objectType = activeItemType)
    {shared : Bool} (hrendered : (rendered cfg obj).resources = obj.resources ∨
      (shared = false ∧ ¬Stores cfg call obj))
    (hkeeps : Stores cfg call obj → ReferenceKeeps item known owned obj) :
    Triple (KnownResources item known owned) (runAction cfg call shared obj)
      (fun served s => KnownResources item known owned s ∧
        ServedKeeps cfg call item known owned served.1) (KnownResources item known owned) := by
  have hsame : Stores cfg call obj → known item = some (rendered cfg obj).resources := by
    intro hstores
    rcases hrendered with h | ⟨-, h⟩
    · rw [h]
      exact hknown
    · exact absurd hstores h
  have hrenderedKeeps : Stores cfg call obj →
      ReferenceKeeps item known owned (rendered cfg obj) := by
    intro hstores
    refine (hkeeps hstores).congr rfl rfl (fun h => h) rfl ?_
    exact Option.some.inj ((hsame hstores).symm.trans hknown)
  have hanswer : Triple (KnownResources item known owned) (do
      ofExcept (renderedResources cfg obj).2
      let root ← ofExcept call.output
      if (rendered cfg obj).equalsExactly (didlUpdateObject (rendered cfg obj).copy root) then
        pure (rendered cfg obj, shared)
      else do
        let _ ← updateObject (didlUpdateObject (rendered cfg obj).copy root)
        pure (storedClone (didlUpdateObject (rendered cfg obj).copy root), false))
      (fun served s => KnownResources item known owned s ∧
        ServedKeeps cfg call item known owned served.1) (KnownResources item known owned) := by
    rcases hfine : (renderedResources cfg obj).2 with e | ⟨⟩
    · exact fun s h => h
    rcases houtput : call.output with e | root
    · exact fun s h => h
    rw [ofExcept_ok_bind, ofExcept_ok_bind]
    by_cases hequal : (rendered cfg obj).equalsExactly
        (didlUpdateObject (rendered cfg obj).copy root) = true
    · rw [if_pos hequal]
      refine triple_pure fun s h => ⟨h, hid, hactive, fun hserved hmarks => ?_⟩
      have hstores : Stores cfg call obj := ⟨hfine, root, houtput, Or.inr ⟨hserved, hmarks⟩⟩
      exact ⟨hsame hstores, hrenderedKeeps hstores⟩
    · rw [if_neg hequal]
      have hstores : Stores cfg call obj :=
        ⟨hfine, root, houtput, Or.inl (Bool.eq_false_iff.mpr hequal)⟩
      obtain ⟨hcloneID, hcloneRef, hcloneFlags, hcloneResources, hcloneType⟩ :=
        didlUpdateObject_keeps (rendered cfg obj).copy root
      generalize didlUpdateObject (rendered cfg obj).copy root = clone at *
      have hcloneActive : clone.objectType = activeItemType :=
        hcloneType.trans ((CdsObject.copy_objectType _).trans hactive)
      have hcloneKnown : known item = some clone.resources := by
        rw [hcloneResources]
        exact hsame hstores
      have hcloneKeeps : ReferenceKeeps item known owned clone := by
        refine (hrenderedKeeps hstores).congr ?_ ?_ ?_ hcloneRef hcloneResources
        · unfold CdsObject.getFlag
          rw [hcloneFlags]
          rfl
        · unfold CdsObject.getFlag
          rw [hcloneFlags]
          rfl
        · unfold CdsObject.getFlag
          rw [hcloneFlags]
          exact fun h => h
      refine triple_bind (known_updateObject hne hcloneActive (hcloneID.trans hid) hcloneKnown
        hcloneKeeps) fun _ => triple_pure fun s h => ⟨h, ?_⟩
      obtain ⟨hid', hresources', htype', hkeeps'⟩ :=
        @storedClone_keeps item known owned clone
      refine ⟨hid'.trans (hcloneID.trans hid), htype'.trans hcloneActive, fun _ _ => ⟨?_, ?_⟩⟩
      · show known item = some (storedClone clone).resources
        rw [hresources']
        exact hcloneKnown
      · exact hkeeps' hcloneKeeps
  cases hshared : shared with
  | false =>
    rw [hshared] at hanswer
    exact hanswer
  | true =>
    rw [hshared] at hanswer hrendered
    have hresources : (rendered cfg obj).resources = obj.resources := by
      rcases hrendered with h | ⟨h, -⟩
      · exact h
      · cases h
    have hput := @known_changeCached item known owned (rendered cfg obj) hid
      (by rw [hresources]; exact hknown) hactive
    exact triple_bind hput fun _ => hanswer

/-- **One call** leaves what is known. -/
theorem known_openObject (hne : ∀ id, known id ≠ some []) (hknown : known item ≠ none)
    (h : KnownResources item known owned s) (hquiet : Quiet cfg call item known owned s) :
    KnownResources item known owned ((openObject cfg call item).run s).2 := by
  have hload := @known_loadObject item known owned hne item s h
  unfold openObject
  rw [run_read_bind, run_bind]
  rcases hrun : (loadObject item).run s with ⟨e | obj, s₁⟩
  · rw [hrun] at hload
    exact hload
  · rw [hrun] at hload
    obtain ⟨h₁, hobj⟩ := hload
    obtain ⟨hid, hasKnown, htype⟩ := hobj hknown
    have hactive := htype hid hknown
    obtain ⟨resources, hresources⟩ := Option.ne_none_iff_exists'.mp hknown
    have hsame : obj.resources = resources := hasKnown resources (hid ▸ hresources)
    obtain ⟨hrendered, hkeeps⟩ := hquiet obj s₁ hrun
    have hshared : cachedObject s item = none ∧ ¬Stores cfg call obj →
        (cachedObject s item).isSome = false ∧ ¬Stores cfg call obj := by
      rintro ⟨hnone, hstores⟩
      rw [hnone]
      exact ⟨rfl, hstores⟩
    have haction := @known_runAction cfg call item known owned obj hne hid (hsame ▸ hresources)
      hactive (cachedObject s item).isSome (hrendered.imp_right hshared) hkeeps
    have hserve : ∀ served : CdsObject × Bool, Triple (fun s => KnownResources item known owned s ∧
        ServedKeeps cfg call item known owned served.1) (do
          ofExcept (call.served served.1)
          trigger cfg call.checkPath served.2 served.1)
        (fun _ => KnownResources item known owned) (KnownResources item known owned) := by
      rintro ⟨obj', shared'⟩ t ⟨ht, hid', hactive', hstore⟩
      rcases hserved : call.served obj' with e | ⟨⟩
      · exact ht
      · rw [ofExcept_ok_bind]
        by_cases hmarks : cfg.marks obj' = true
        · obtain ⟨hknown', hkeeps'⟩ := hstore hserved hmarks
          exact known_trigger hne hid' hknown' hactive' (fun _ => hkeeps') call.checkPath shared'
            t ht
        · unfold trigger
          rw [if_neg hmarks]
          exact ht
    have hitem : isCdsItem obj.objectType = true := by
      rw [hactive]
      decide
    have hkind : isCdsActiveItem obj.objectType = true := by
      rw [hactive]
      decide
    have hall := triple_bind haction hserve
    simp only [hitem, hkind, Bool.not_true, Bool.false_eq_true, if_false, if_true]
    exact hall.final h₁

/-! ### A sequence of calls -/

/-- **The stored object has these resources**: in its row, as it is loaded, and in the cache. -/
structure ResourcesKept (item : Int) (resources : List CdsResource) (s : StorageState) : Prop where
  row : s.db.resourcesOf item = some resources
  loaded : ∀ o s', (loadObject item).run s = (.ok o, s') → o.resources = resources
  cached : ∀ o, cachedObject s item = some o → o.resources = resources

theorem KnownResources.kept (hne : ∀ id, known id ≠ some []) (hknown : known item = some resources)
    (h : KnownResources item known owned s) : ResourcesKept item resources s := by
  have hsome : known item ≠ none := by
    rw [hknown]
    exact Option.some_ne_none _
  refine ⟨h.row item resources hknown, fun o s' hload => ?_, fun o ho => ?_⟩
  · have hkept := known_loadObject hne item s h
    rw [hload] at hkept
    obtain ⟨hid, hasKnown, -⟩ := hkept.2 hsome
    exact hasKnown resources (hid ▸ hknown)
  · obtain ⟨hid, hasKnown, -⟩ := h.cached item o hsome ho
    exact hasKnown resources (hid ▸ hknown)

/-- Every call is quiet in the state it starts from. -/
def QuietRun (cfg : OpenConfig) (item : Int) (known : Int → Option (List CdsResource))
    (owned : Int → Prop) : List OpenCall → StorageState → Prop
  | [], _ => True
  | call :: calls, s => Quiet cfg call item known owned s ∧
    QuietRun cfg item known owned calls ((openObject cfg call item).run s).2

theorem known_openAll (hne : ∀ id, known id ≠ some []) (hknown : known item ≠ none)
    {calls : List OpenCall} (h : KnownResources item known owned s)
    (hquiet : QuietRun cfg item known owned calls s) (n : Nat) :
    KnownResources item known owned (openAll cfg item (calls.take n) s) := by
  induction calls generalizing s n with
  | nil =>
    rw [List.take_nil]
    exact h
  | cons call calls ih =>
    cases n with
    | zero => exact h
    | succ n => exact ih (known_openObject hne hknown h hquiet.1) hquiet.2 n

/-- **Calls that are all quiet keep the resources**, in every state on the way. -/
theorem resources_kept (hne : ∀ id, known id ≠ some []) (hknown : known item = some resources)
    {calls : List OpenCall} (h : KnownResources item known owned s)
    (hquiet : QuietRun cfg item known owned calls s) (n : Nat) :
    ResourcesKept item resources (openAll cfg item (calls.take n) s) := by
  have hsome : known item ≠ none := by
    rw [hknown]
    exact Option.some_ne_none _
  exact (known_openAll hne hsome h hquiet n).kept hne hknown

/-! ### When the script changes nothing -/

/-- A script that changes nothing, for an object in the cache: that object has been rendered. -/
theorem runAction_unchanged {root : ScriptOutput} (hfine : (renderedResources cfg obj).2 = .ok ())
    (houtput : call.output = .ok root) (hsame : (rendered cfg obj).equalsExactly
      (didlUpdateObject (rendered cfg obj).copy root) = true) :
    runAction cfg call true obj =
      changeCached (rendered cfg obj) >>= fun _ => pure (rendered cfg obj, true) := by
  have hrest : (do
      ofExcept (renderedResources cfg obj).2
      let root ← ofExcept call.output
      if (rendered cfg obj).equalsExactly (didlUpdateObject (rendered cfg obj).copy root) then
        pure (rendered cfg obj, true)
      else do
        let _ ← updateObject (didlUpdateObject (rendered cfg obj).copy root)
        pure (storedClone (didlUpdateObject (rendered cfg obj).copy root), false) :
        Storage (CdsObject × Bool)) = pure (rendered cfg obj, true) := by
    rw [hfine, houtput, ofExcept_ok_bind, ofExcept_ok_bind, if_pos hsame]
  exact congrArg (fun m => changeCached (rendered cfg obj) >>= fun _ => m) hrest

theorem openObject_unchanged {root : ScriptOutput} {e : Exception}
    (hcached : cachedObject s item = some obj) (hactive : obj.objectType = activeItemType)
    (hfine : (renderedResources cfg obj).2 = .ok ())
    (houtput : call.output = .ok root) (hsame : (rendered cfg obj).equalsExactly
      (didlUpdateObject (rendered cfg obj).copy root) = true)
    (hserved : call.served (rendered cfg obj) = .error e) :
    ((openObject cfg call item).run s).2 = ((changeCached (rendered cfg obj)).run s).2 := by
  have hload : (loadObject item).run s = (.ok obj, s) := by
    unfold loadObject
    rw [run_read_bind, hcached]
    rfl
  have hitem : isCdsItem obj.objectType = true := by
    rw [hactive]
    decide
  have hkind : isCdsActiveItem obj.objectType = true := by
    rw [hactive]
    decide
  unfold openObject
  rw [run_read_bind, run_bind, hload, hcached]
  simp only [hitem, hkind, Bool.not_true, Bool.false_eq_true, if_false, if_true,
    Option.isSome_some]
  rw [runAction_unchanged hfine houtput hsame, run_bind, run_bind]
  show ((ofExcept (call.served (rendered cfg obj)) >>= fun _ =>
    trigger cfg call.checkPath true (rendered cfg obj)).run _).2 = _
  rw [hserved]
  rfl

/-! ### When rendering changes nothing -/

theorem extendResources_off (hoff : cfg.extendProtocolInfo = false) (urlBase : UrlBase)
    (urlBaseTr : Option UrlBase) (i realCount : Nat) (isExtThumbnail : Bool)
    (rs : List CdsResource) :
    (extendResources cfg obj urlBase urlBaseTr i realCount isExtThumbnail rs).1 = rs := by
  induction rs generalizing i realCount isExtThumbnail with
  | nil => rfl
  | cons r rs ih =>
    unfold extendResources
    split
    · rfl
    · have hr : ∀ b, extendResource cfg i b r = r := by
        intro b
        unfold extendResource
        rw [hoff]
        rfl
      simp only [hr, ih]

/-- No thumbnail, no profile for the item, and no extension: rendering changes no resource. -/
theorem rendered_plain (hoff : cfg.extendProtocolInfo = false) (hthumb : cfg.thumbSize = none)
    (hprofiles : profilesOf cfg.toResourceConfig obj = none) :
    (rendered cfg obj).resources = obj.resources := by
  have hnone : videoThumbnail cfg.toResourceConfig obj = .ok [] := by
    unfold videoThumbnail
    rw [hthumb]
  show (renderedResources cfg obj).1 = obj.resources
  unfold renderedResources
  rw [hnone, hprofiles]
  simp only [Option.getD_none, addTranscoded]
  rw [extendResources_off hoff]
  exact List.append_nil _

end

/-! ## A radio stream -/

def streamResource : CdsResource :=
  ⟨0, ⟨[(protocolInfo, str "http-get:*:audio/ogg:*")], by decide⟩, .empty, .empty⟩

/-- An active item whose script has already answered once. -/
def radio : CdsObject where
  id := 750
  parentID := 0
  title := some (str "Radio")
  upnpClass := some (str "object.item")
  location := some (str "/tmp/radio.ogg")
  virt := true
  metadata := ⟨[(metaDescription, [])], by decide⟩
  resources := [streamResource]
  kind := .activeItem { mimeType := some (str "audio/ogg") } (some (str "/bin/radio")) (some [])

def radioRow : ObjectRow where
  id := 750
  id_ge := by decide
  objectType := activeItemType
  upnpClass := radio.upnpClass
  dcTitle := radio.title
  location := radio.location
  metadata := some radio.metadata.encode
  resources := encodeResources radio.resources
  mimeType := radio.mimeType

/-- The item is in the cache, from browsing. -/
def radioState : StorageState where
  db :=
    { objects := ⟨[radioRow], List.nodup_singleton _⟩
      activeItems := ⟨[{ id := 750, action := str "/bin/radio", state := [] }],
        List.nodup_singleton _⟩
      autoscans := .empty
      autoscan_obj_id := List.nodup_nil }
  cache := some (StorageCache.empty.store 750 (CacheObject.setObject {} radio))
  insertBufferOn := true
  lastID := 750
  f2i := fun s => .ok s

def radioKnown (id : Int) : Option (List CdsResource) :=
  if id = 750 then some [streamResource] else none

/-- The script answers what there is already; the file is not there. -/
def radioCall : OpenCall where
  output := .ok {}
  served := fun _ => .error (.exception (str "Failed to open /tmp/radio.ogg"))
  checkPath := fun _ => true

theorem radioKnown_eq {id : Int} {resources : List CdsResource}
    (h : radioKnown id = some resources) : id = 750 ∧ resources = [streamResource] := by
  unfold radioKnown at h
  split_ifs at h with hid
  exact ⟨hid, (Option.some.inj h).symm⟩

theorem radioKnown_ne (id : Int) : radioKnown id ≠ some [] := by
  intro h
  cases (radioKnown_eq h).2

theorem radio_cached : cachedObject radioState 750 = some radio := rfl

theorem radio_known : KnownResources 750 radioKnown (fun _ => False) radioState := by
  have hid : ∀ id, radioKnown id ≠ none → id = 750 := by
    intro id h
    obtain ⟨resources, hresources⟩ := Option.ne_none_iff_exists'.mp h
    exact (radioKnown_eq hresources).1
  refine ⟨fun id resources h => ?_, fun id f hne h => absurd (hid id h) hne,
    fun id f hne h => absurd (hid id h) hne, fun f _ hf => ?_, fun id o h ho => ?_⟩
  · obtain ⟨rfl, rfl⟩ := radioKnown_eq h
    obtain ⟨text, htext, hdecode⟩ := @resources_roundtrip [streamResource] (List.cons_ne_nil _ _)
      (by simp only [List.forall_mem_singleton]; exact ⟨by decide, by decide⟩)
    refine Option.bind_eq_some_iff.mpr ⟨radioRow, rfl, ?_⟩
    have hrow : radioRow.resources = some text := htext
    rw [fallback_some hrow, hdecode]
    rfl
  · cases hf
    rfl
  · obtain rfl := hid id h
    rw [radio_cached] at ho
    obtain rfl := Option.some.inj ho
    refine ⟨rfl, fun resources hresources => ?_, fun _ _ => rfl⟩
    exact (radioKnown_eq hresources).2.symm

/-- No profile for its mime type. -/
def plainConfig : OpenConfig where
  serverURL := str "http://10.0.0.1:49152"

/-- A profile for its mime type. -/
def mp3Config : OpenConfig where
  serverURL := str "http://10.0.0.1:49152"
  profiles := [(str "audio/ogg", [{ name := str "mp3", targetMimeType := str "audio/mpeg" }])]

theorem radio_load {o : CdsObject} {s' : StorageState}
    (h : (loadObject 750).run radioState = (.ok o, s')) : o = radio := by
  have hload : (loadObject 750).run radioState = (.ok radio, radioState) := by
    unfold loadObject
    rw [run_read_bind, radio_cached]
    rfl
  rw [hload] at h
  cases h
  rfl

theorem resources_kept_radio :
    ResourcesKept 750 [streamResource]
      (openAll plainConfig 750 ([radioCall].take 1) radioState) := by
  have hquiet : QuietRun plainConfig 750 radioKnown (fun _ => False) [radioCall] radioState := by
    refine ⟨?_, trivial⟩
    intro o s' hload
    obtain rfl := radio_load hload
    refine ⟨Or.inl (rendered_plain rfl rfl rfl), fun _ _ hr _ => ?_⟩
    exact absurd hr (by decide)
  exact resources_kept radioKnown_ne rfl radio_known hquiet 1

/-- The cached item keeps the resource of the profile. -/
theorem resources_not_kept :
    ¬∀ (cfg : OpenConfig) (item : Int) (known : Int → Option (List CdsResource))
      (owned : Int → Prop) (resources : List CdsResource) (calls : List OpenCall)
      (s : StorageState), (∀ id, known id ≠ some []) → known item = some resources →
      KnownResources item known owned s →
      (∀ call ∈ calls, ∃ root, call.output = .ok root ∧ root.mimeType = none) →
      ∀ n, ResourcesKept item resources (openAll cfg item (calls.take n) s) := by
  intro hall
  have hkept := hall mp3Config 750 radioKnown (fun _ => False) [streamResource] [radioCall]
    radioState radioKnown_ne rfl radio_known
    (fun call hcall => by cases List.mem_singleton.mp hcall; exact ⟨{}, rfl, rfl⟩) 1
  have hopened : (openAll mp3Config 750 ([radioCall].take 1) radioState) =
      ((changeCached (rendered mp3Config radio)).run radioState).2 :=
    openObject_unchanged radio_cached rfl rfl rfl (by decide +kernel) rfl
  rw [hopened] at hkept
  have hafter : (cachedObject ((changeCached (rendered mp3Config radio)).run radioState).2 750).map
      (fun o => o.resources.length) = some 2 := rfl
  obtain ⟨o, ho, htwo⟩ := Option.map_eq_some_iff.mp hafter
  have hone := congrArg List.length (hkept.cached o ho)
  rw [htwo] at hone
  cases hone

end MediaTomb
