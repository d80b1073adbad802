/-
  The Browse action of the ContentDirectory (`upnp_cds_actions.cc`), and what a control point reads
  of its response.

  DATA.     a request and a response, each an XML document; the objects that storage returns.
  PROGRAM.  the objects are rendered into a DIDL-Lite document, which is printed; the print is the
            TEXT of an element of the response, which is printed in turn.  A control point reads the
            response, and then the text of that element.
  RESULT.   it reads the elements that were rendered, in order, with the numbers that go with them
            (`browse_reply_read`), if the texts of the objects can be sent at all (`Sendable`).

  What `addResources` appends to an item is any list of elements.  The names of the metadata are
  names of elements, and no text has a CR.
-/
import MediaTomb.Mxml.ElementText
import MediaTomb.Serve.ActiveItem
import MediaTomb.Serve.DIDLObject

namespace MediaTomb

open Lib.Prog Lib.Xml

/-! ## `upnp_action_Browse` -/

def upnpENoSuchID : Int := 701

def upnpSoapEInvalidArgs : Int := 402

def upnpDefaultClassMusicAlbum : Str := str "object.container.album.musicAlbum"

def upnpDefaultClassPlaylistContainer : Str := str "object.container.playlistContainer"

/-- What is configured, and what `addResources` appends to the element of an item. -/
structure BrowseConfig where
  serviceType : Str
  hidePcDirectory : Bool
  stringLimit : Int
  markPlayedItemsEnabled : Bool
  markPlayedItemsPrepend : Bool
  markPlayedItemsString : Option Str
  addResources : CdsObject → Except Exception (List Mxml.Element)

/-- What the action ends with, if it does not throw anything else. -/
inductive BrowseAnswer where
  | response (response : Mxml.Element)
  | upnpException (errCode : Int) (message : Str)

/-- An element with a text. -/
def textChild (name : Str) (text : Option Str) : Mxml.Element :=
  .mk name [] [.text text .string]

namespace BrowseConfig

/-- The title of an item that has been played is marked. -/
def markPlayed (cfg : BrowseConfig) (obj : CdsObject) : CdsObject :=
  if cfg.markPlayedItemsEnabled && obj.getFlag objectFlagPlayed then
    { obj with
      title := if cfg.markPlayedItemsPrepend then strAppend cfg.markPlayedItemsString obj.title
        else strAppend obj.title cfg.markPlayedItemsString }
  else obj

/-- `UpnpXML_DIDLRenderObject`, with the resources. -/
def didlObject (cfg : BrowseConfig) (before : Nat → UInt8) (obj : CdsObject) :
    Except Exception Mxml.Element :=
  let el := upnpXMLDIDLRenderObject before obj false cfg.stringLimit
  (if isCdsItem obj.objectType then cfg.addResources obj else .ok []).map fun resources =>
    .mk el.name (el.attributes.map fun a => { name := a.1, value := a.2 })
      ((el.children.map (fun child => textChild child.1 child.2) ++ resources).map .element)

/-- The loop over the objects. -/
def didlObjects (cfg : BrowseConfig) (before : Nat → UInt8) :
    List CdsObject → Except Exception (List Mxml.Element)
  | [] => .ok []
  | obj :: objs => do
    let el ← cfg.didlObject before (cfg.markPlayed obj)
    let els ← cfg.didlObjects before objs
    .ok (el :: els)

end BrowseConfig

def didlLite (objects : List Mxml.Element) : Mxml.Element :=
  .mk (str "DIDL-Lite")
    [{ name := str "xmlns", value := str "urn:schemas-upnp-org:metadata-1-0/DIDL-Lite/" },
      { name := str "xmlns:dc", value := str "http://purl.org/dc/elements/1.1/" },
      { name := str "xmlns:upnp", value := str "urn:schemas-upnp-org:metadata-1-0/upnp/" }]
    (objects.map .element)

/-- `UpnpXML_CreateResponse`, and what Browse appends. -/
def browseResponse (serviceType : Str) (objects : List Mxml.Element)
    (totalMatches systemUpdateID : Int) : Mxml.Element :=
  .mk (str "u:BrowseResponse") [{ name := str "xmlns:u", value := serviceType }]
    ([textChild (str "Result") (some (didlLite objects).print),
      textChild (str "NumberReturned") (some (fromInt objects.length)),
      textChild (str "TotalMatches") (some (fromInt totalMatches)),
      textChild (str "UpdateID") (some (fromInt systemUpdateID))].map .element)

/-- The flags and the indices of a request; an album and a playlist are sorted by track. -/
def browseParam (cfg : BrowseConfig) (req : Mxml.Element) (parent : CdsObject) : BrowseParam where
  objectID := toInt (req.getChildText (str "ObjectID"))
  directChildren := req.getChildText (str "BrowseFlag") = some (str "BrowseDirectChildren")
  containers := true
  items := true
  hideFsRoot := cfg.hidePcDirectory
  trackSort := parent.upnpClass = some upnpDefaultClassMusicAlbum ∨
    parent.upnpClass = some upnpDefaultClassPlaylistContainer
  startingIndex := toInt (req.getChildText (str "StartingIndex"))
  requestedCount := toInt (req.getChildText (str "RequestedCount"))

/-- `storage->browse` inside its `try`. -/
def tryBrowse (param : BrowseParam) : Storage (Option (List CdsObject × Int)) :=
  (browse param >>= fun found => pure (some found)).tryCatch fun _ => pure none

/-- The objects are rendered, and sent. -/
def answerBrowse (cfg : BrowseConfig) (before : Nat → UInt8) (systemUpdateID : Int) :
    Option (List CdsObject × Int) → Except Exception BrowseAnswer
  | none => .ok (.upnpException upnpENoSuchID (str "no such object"))
  | some (arr, totalMatches) => do
    let objects ← cfg.didlObjects before arr
    .ok (.response (browseResponse cfg.serviceType objects totalMatches systemUpdateID))

def upnpActionBrowse (cfg : BrowseConfig) (before : Nat → UInt8) (systemUpdateID : Int)
    (req : Mxml.Element) : Storage BrowseAnswer :=
  let browseFlag := req.getChildText (str "BrowseFlag")
  if req.getChildText (str "ObjectID") = none then
    pure (.upnpException upnpENoSuchID (str "empty object id"))
  else if browseFlag ≠ some (str "BrowseDirectChildren") ∧
      browseFlag ≠ some (str "BrowseMetadata") then
    pure (.upnpException upnpSoapEInvalidArgs (str "invalid browse flag: " ++ browseFlag.getD []))
  else do
    let parent ← loadObject (toInt (req.getChildText (str "ObjectID")))
    let found ← tryBrowse (browseParam cfg req parent)
    ofExcept (answerBrowse cfg before systemUpdateID found)

/-! ## What a control point reads -/

/-- The document in the result, and the numbers as texts. -/
structure BrowseReply where
  didl : Mxml.Element
  numberReturned : Option Str
  totalMatches : Option Str
  updateID : Option Str

/-- A response is read: the document, and the document in it. -/
def readReply (parse : Str → Option (List Event)) (xml : Str) : Option BrowseReply := do
  let root ← Mxml.parseString parse xml
  let result ← root.getChildText (str "Result")
  let didl ← Mxml.parseString parse result
  some { didl := didl
         numberReturned := root.getChildText (str "NumberReturned")
         totalMatches := root.getChildText (str "TotalMatches")
         updateID := root.getChildText (str "UpdateID") }

namespace Mxml

/-- **The element can be sent**: it can be printed, and comes back as it is. -/
structure Element.Sendable (el : Element) : Prop where
  good : el.Good
  unique : el.UniqueNames
  steady : el.Steady

/-- A text that stays as it is between tags. -/
def SendableText (text : Str) : Prop := GoodText text ∧ (13 : UInt8) ∉ text

/-- A text that stays as it is as the value of an attribute. -/
def SendableValue (value : Str) : Prop :=
  GoodText value ∧ (9 : UInt8) ∉ value ∧ (10 : UInt8) ∉ value ∧ (13 : UInt8) ∉ value

section

variable {parse : Str → Option (List Event)} {el root : Element} {name text : Str}
  {attributes : List Attribute} {els : List Element}

theorem Element.Sendable.read_back (hconf : Conforming parse) (h : el.Sendable) :
    ∃ root, parseString parse el.print = some root ∧ root.joined = el.joined := by
  obtain ⟨root, hroot, hjoined⟩ := parseString_print hconf h.good h.unique
  exact ⟨root, hroot, hjoined.trans ((el.joined_received h.good).mpr h.steady)⟩

/-- A print can be sent in an element. -/
theorem Element.Sendable.print_text (h : el.Sendable) : SendableText el.print :=
  ⟨goodText_print h.good h.steady, no_cr_print h.good h.steady⟩

theorem nodesGood_elements : NodesGood (els.map .element) ↔ ∀ el ∈ els, el.Good := by
  induction els with
  | nil => exact iff_of_true trivial fun _ h => nomatch h
  | cons el els ih =>
    rw [List.forall_mem_cons, ← ih]
    exact Iff.rfl

theorem nodesSteady_elements : NodesSteady (els.map .element) ↔ ∀ el ∈ els, el.Steady := by
  induction els with
  | nil => exact iff_of_true trivial fun _ h => nomatch h
  | cons el els ih =>
    rw [List.forall_mem_cons, ← ih]
    exact Iff.rfl

theorem nodesUnique_elements {p : Str → List Attribute → Prop} :
    NodesTags p (els.map .element) ↔ ∀ el ∈ els, el.Tags p := by
  induction els with
  | nil => exact iff_of_true trivial fun _ h => nomatch h
  | cons el els ih =>
    rw [List.forall_mem_cons, ← ih]
    exact Iff.rfl

/-- An element of elements that can be sent. -/
theorem sendable_mk (hname : IsName name)
    (hattributes : ∀ a ∈ attributes, IsName a.name ∧ SendableValue a.value)
    (hunique : (attributes.map fun a => a.name).Nodup) (hels : ∀ el ∈ els, el.Sendable) :
    (Element.mk name attributes (els.map .element)).Sendable where
  good := ⟨hname, fun a ha => ⟨(hattributes a ha).1, (hattributes a ha).2.1⟩,
    nodesGood_elements.mpr fun el hel => (hels el hel).good⟩
  unique := ⟨hunique, nodesUnique_elements.mpr fun el hel => (hels el hel).unique⟩
  steady := ⟨fun a ha => (hattributes a ha).2.2,
    nodesSteady_elements.mpr fun el hel => (hels el hel).steady⟩

theorem sendable_textChild {text : Option Str} (hname : IsName name)
    (htext : SendableText (text.getD [])) : (textChild name text).Sendable where
  good := ⟨hname, fun _ ha => (nomatch ha), htext.1, trivial⟩
  unique := ⟨List.nodup_nil, trivial⟩
  steady := ⟨fun _ ha => (nomatch ha), htext.2, trivial⟩

theorem elements_mk (name : Str) (attributes : List Attribute) (els : List Element) :
    (Element.mk name attributes (els.map .element)).elements = els := by
  show (els.map Node.element).filterMap Node.element? = els
  rw [List.filterMap_map]
  exact List.filterMap_some

theorem getChildText_first (name : Str) (attributes : List Attribute) (child : Str) (text : Str)
    (els : List Element) :
    (Element.mk name attributes ((textChild child (some text) :: els).map .element)).getChildText
      child = some text := by
  have hname : (textChild child (some text)).name = child := rfl
  have hfind : (textChild child (some text) :: els).find? (fun el => el.name = child) =
      some (textChild child (some text)) := List.find?_cons_of_pos (decide_eq_true hname)
  unfold Element.getChildText Element.getChildByName
  rw [elements_mk, hfind, Option.bind_some]
  show some (text ++ []) = some text
  rw [List.append_nil]

theorem getChildText_rest (name : Str) (attributes : List Attribute) {child child' : Str}
    (hne : child ≠ child') (text : Option Str) (els : List Element) :
    (Element.mk name attributes ((textChild child text :: els).map .element)).getChildText child' =
      (Element.mk name attributes (els.map .element)).getChildText child' := by
  unfold Element.getChildText Element.getChildByName
  rw [elements_mk, elements_mk]
  congr 1
  exact List.find?_cons_of_neg fun h => hne (of_decide_eq_true h)

theorem encode_ascii (h : ∀ b ∈ text, b.toNat < 0x80) :
    Lib.Utf8.encode (text.map fun b => Char.ofNat b.toNat) = text := by
  induction text with
  | nil => rfl
  | cons b text ih =>
    obtain ⟨hb, htext⟩ := List.forall_mem_cons.mp h
    have hnat : (Char.ofNat b.toNat).toNat = b.toNat := by
      rw [Char.toNat_ofNat, if_pos (Or.inl (by omega))]
    rw [List.map_cons, Lib.Utf8.encode_cons, ih htext]
    rcases Lib.Utf8.encodeChar_cases (Char.ofNat b.toNat) with ⟨-, henc⟩ | ⟨hlarge, -⟩
    · rw [henc, hnat, UInt8.ofNat_toNat]
      rfl
    · omega

/-- A name in ASCII. -/
def isAsciiName : Str → Bool
  | [] => false
  | b :: bs => b < 0x80 && isNameStartChar (Char.ofNat b.toNat) &&
      bs.all fun b => b < 0x80 && isNameChar (Char.ofNat b.toNat)

theorem isName_ascii (h : isAsciiName name = true) : IsName name := by
  cases name with
  | nil => cases h
  | cons b bs =>
    rw [isAsciiName, Bool.and_eq_true, Bool.and_eq_true, decide_eq_true_eq] at h
    obtain ⟨⟨hb, hstart⟩, hbs⟩ := h
    have hall : ∀ d ∈ bs, d.toNat < 0x80 ∧ isNameChar (Char.ofNat d.toNat) = true := by
      intro d hd
      have hboth := List.all_eq_true.mp hbs d hd
      rw [Bool.and_eq_true, decide_eq_true_eq] at hboth
      exact hboth
    refine ⟨Char.ofNat b.toNat, bs.map fun b => Char.ofNat b.toNat, hstart, ?_, ?_⟩
    · intro c hc
      obtain ⟨d, hd, rfl⟩ := List.mem_map.mp hc
      exact (hall d hd).2
    · have hascii : ∀ d ∈ b :: bs, d.toNat < 0x80 := by
        intro d hd
        rcases List.mem_cons.mp hd with rfl | hd
        · exact hb
        · exact (hall d hd).1
      exact encode_ascii hascii

/-- Printable ASCII. -/
theorem sendableValue_ascii (h : text.all (fun b => 0x20 ≤ b && b < 0x7f) = true) :
    SendableValue text := by
  have hall : ∀ b ∈ text, 0x20 ≤ b.toNat ∧ b.toNat < 0x7f := by
    intro b hb
    have hboth := List.all_eq_true.mp h b hb
    rw [Bool.and_eq_true, decide_eq_true_eq, decide_eq_true_eq] at hboth
    exact hboth
  have hno : ∀ b : UInt8, ¬ (0x20 ≤ b.toNat ∧ b.toNat < 0x7f) → b ∉ text :=
    fun b hb hin => hb (hall b hin)
  refine ⟨⟨characters_ascii fun b hb => ⟨(hall b hb).1, ?_⟩, hno _ (by decide)⟩,
    hno _ (by decide), hno _ (by decide), hno _ (by decide)⟩
  have hlt := (hall b hb).2
  omega

theorem SendableValue.sendableText (h : SendableValue text) : SendableText text := ⟨h.1, h.2.2.2⟩

theorem sendableValue_fromInt (x : Int) : SendableValue (fromInt x) := by
  refine sendableValue_ascii (List.all_eq_true.mpr fun b hb => ?_)
  rcases fromInt_chars hb with rfl | hdigit
  · decide
  · unfold isDigit at hdigit
    rw [Bool.and_eq_true, decide_eq_true_eq, decide_eq_true_eq] at hdigit
    obtain ⟨hlow, hhigh⟩ := hdigit
    have hlow' : 48 ≤ b.toNat := hlow
    have hhigh' : b.toNat ≤ 57 := hhigh
    rw [Bool.and_eq_true, decide_eq_true_eq, decide_eq_true_eq]
    exact ⟨show 32 ≤ b.toNat by omega, show b.toNat < 127 by omega⟩

end

end Mxml

/-- **What is sent of an object can be sent**: its texts, and its resources. -/
structure BrowseConfig.Sendable (cfg : BrowseConfig) (before : Nat → UInt8) (obj : CdsObject) :
    Prop where
  children : ∀ child ∈ (upnpXMLDIDLRenderObject before obj false cfg.stringLimit).children,
    IsName child.1 ∧ Mxml.SendableText (child.2.getD [])
  resources : isCdsItem obj.objectType = true →
    ∃ els, cfg.addResources obj = .ok els ∧ ∀ el ∈ els, Mxml.Element.Sendable el

section

variable {cfg : BrowseConfig} {before : Nat → UInt8} {obj : CdsObject} {objs arr : List CdsObject}
  {el : Mxml.Element} {els objects : List Mxml.Element} {parse : Str → Option (List Event)}
  {systemUpdateID totalMatches : Int} {req resp : Mxml.Element} {s s' : StorageState}

/-! ## Rendering -/

/-- The attributes of an object are numbers under names of their own. -/
theorem rendered_attributes (before : Nat → UInt8) (obj : CdsObject) (stringLimit : Int) :
    (∀ a ∈ (upnpXMLDIDLRenderObject before obj false stringLimit).attributes,
      IsName a.1 ∧ Mxml.SendableValue a.2) ∧
      ((upnpXMLDIDLRenderObject before obj false stringLimit).attributes.map Prod.fst).Nodup := by
  have hid : IsName (str "id") := Mxml.isName_ascii (by decide)
  have hparent : IsName (str "parentID") := Mxml.isName_ascii (by decide)
  have hrestricted : IsName (str "restricted") := Mxml.isName_ascii (by decide)
  have hcount : IsName (str "childCount") := Mxml.isName_ascii (by decide)
  have hflag : ∀ b : Bool, Mxml.SendableValue (if b then str "1" else str "0") := by
    intro b
    cases b
    · exact Mxml.sendableValue_ascii (by decide)
    · exact Mxml.sendableValue_ascii (by decide)
  have hfixed : ∀ a ∈ [(str "id", fromInt obj.id), (str "parentID", fromInt obj.parentID),
      (str "restricted", if obj.getFlag objectFlagRestricted then str "1" else str "0")],
      IsName a.1 ∧ Mxml.SendableValue a.2 := by
    intro a ha
    simp only [List.mem_cons, List.not_mem_nil, or_false] at ha
    rcases ha with rfl | rfl | rfl
    · exact ⟨hid, Mxml.sendableValue_fromInt _⟩
    · exact ⟨hparent, Mxml.sendableValue_fromInt _⟩
    · exact ⟨hrestricted, hflag _⟩
  have hkind : (renderKind obj.kind).2 = [] ∨
      ∃ n, (renderKind obj.kind).2 = [(str "childCount", fromInt n)] := by
    unfold renderKind
    split
    · split
      · exact Or.inr ⟨_, rfl⟩
      · exact Or.inl rfl
    · exact Or.inl rfl
  unfold upnpXMLDIDLRenderObject
  simp only
  rcases hkind with hnone | ⟨n, hone⟩
  · rw [hnone, List.append_nil]
    refine ⟨hfixed, ?_⟩
    show [str "id", str "parentID", str "restricted"].Nodup
    decide
  · rw [hone]
    refine ⟨fun a ha => ?_, ?_⟩
    swap
    · show [str "id", str "parentID", str "restricted", str "childCount"].Nodup
      decide
    rcases List.mem_append.mp ha with ha | ha
    · exact hfixed a ha
    · rw [List.mem_singleton.mp ha]
      exact ⟨hcount, Mxml.sendableValue_fromInt _⟩

theorem rendered_name (before : Nat → UInt8) (obj : CdsObject) (stringLimit : Int) :
    IsName (upnpXMLDIDLRenderObject before obj false stringLimit).name := by
  have hitem : IsName (str "item") := Mxml.isName_ascii (by decide)
  have hcontainer : IsName (str "container") := Mxml.isName_ascii (by decide)
  show IsName (renderKind obj.kind).1
  unfold renderKind
  split
  · exact hcontainer
  · exact hitem

/-- **An object that can be sent is an element that can be sent.** -/
theorem sendable_didlObject (h : cfg.Sendable before obj) (hel : cfg.didlObject before obj = .ok el) :
    el.Sendable := by
  unfold BrowseConfig.didlObject at hel
  simp only at hel
  obtain ⟨hattributes, hunique⟩ := rendered_attributes before obj cfg.stringLimit
  have hresources : ∀ els, (if isCdsItem obj.objectType then cfg.addResources obj else .ok []) =
      .ok els → ∀ el ∈ els, Mxml.Element.Sendable el := by
    intro els hels
    by_cases hitem : isCdsItem obj.objectType = true
    · rw [if_pos hitem] at hels
      obtain ⟨els', hels', hgood⟩ := h.resources hitem
      rw [hels] at hels'
      rw [Except.ok.inj hels']
      exact hgood
    · rw [if_neg hitem] at hels
      cases hels
      exact fun el hin => nomatch hin
  rcases hrun : (if isCdsItem obj.objectType then cfg.addResources obj else .ok []) with e | els
  · rw [hrun] at hel
    cases hel
  · rw [hrun] at hel
    cases hel
    refine Mxml.sendable_mk (rendered_name before obj cfg.stringLimit) ?_ ?_ ?_
    · intro a ha
      obtain ⟨b, hb, rfl⟩ := List.mem_map.mp ha
      exact hattributes b hb
    · rw [List.map_map]
      exact hunique
    · intro el hin
      rcases List.mem_append.mp hin with hin | hin
      · obtain ⟨child, hchild, rfl⟩ := List.mem_map.mp hin
        obtain ⟨hname, htext⟩ := h.children child hchild
        exact Mxml.sendable_textChild hname htext
      · exact hresources els hrun el hin

theorem didlObjects_ok : ∀ {objs : List CdsObject} {els : List Mxml.Element},
    cfg.didlObjects before objs = .ok els →
      List.Forall₂ (fun obj el => cfg.didlObject before (cfg.markPlayed obj) = .ok el) objs els := by
  intro objs
  induction objs with
  | nil =>
    intro els h
    cases h
    exact .nil
  | cons obj objs ih =>
    intro els h
    rw [BrowseConfig.didlObjects] at h
    rcases hel : cfg.didlObject before (cfg.markPlayed obj) with e | el
    · rw [hel] at h
      cases h
    · rcases hels : cfg.didlObjects before objs with e | els'
      · rw [hel, hels] at h
        cases h
      · rw [hel, hels] at h
        cases h
        exact .cons hel (ih hels)

theorem sendable_didlObjects (hobjs : ∀ obj ∈ objs, cfg.Sendable before (cfg.markPlayed obj))
    (h : cfg.didlObjects before objs = .ok els) : ∀ el ∈ els, el.Sendable := by
  have hall := didlObjects_ok h
  clear h
  induction hall with
  | nil => exact fun el hel => nomatch hel
  | cons hrender hrest ih =>
    obtain ⟨hobj, hobjs⟩ := List.forall_mem_cons.mp hobjs
    exact List.forall_mem_cons.mpr ⟨sendable_didlObject hobj hrender, ih hobjs⟩

theorem sendable_didlLite (h : ∀ el ∈ objects, Mxml.Element.Sendable el) :
    (didlLite objects).Sendable := by
  have hname : IsName (str "DIDL-Lite") := Mxml.isName_ascii (by decide)
  have hns : IsName (str "xmlns") := Mxml.isName_ascii (by decide)
  have hdc : IsName (str "xmlns:dc") := Mxml.isName_ascii (by decide)
  have hupnp : IsName (str "xmlns:upnp") := Mxml.isName_ascii (by decide)
  refine Mxml.sendable_mk hname ?_ (by decide) h
  intro a ha
  simp only [List.mem_cons, List.not_mem_nil, or_false] at ha
  rcases ha with rfl | rfl | rfl
  · exact ⟨hns, Mxml.sendableValue_ascii (by decide)⟩
  · exact ⟨hdc, Mxml.sendableValue_ascii (by decide)⟩
  · exact ⟨hupnp, Mxml.sendableValue_ascii (by decide)⟩

theorem sendable_browseResponse (hservice : Mxml.SendableValue cfg.serviceType)
    (h : ∀ el ∈ objects, Mxml.Element.Sendable el) :
    (browseResponse cfg.serviceType objects totalMatches systemUpdateID).Sendable := by
  have hname : IsName (str "u:BrowseResponse") := Mxml.isName_ascii (by decide)
  have hns : IsName (str "xmlns:u") := Mxml.isName_ascii (by decide)
  have hresult : IsName (str "Result") := Mxml.isName_ascii (by decide)
  have hnumber : IsName (str "NumberReturned") := Mxml.isName_ascii (by decide)
  have htotal : IsName (str "TotalMatches") := Mxml.isName_ascii (by decide)
  have hupdate : IsName (str "UpdateID") := Mxml.isName_ascii (by decide)
  refine Mxml.sendable_mk hname ?_ (List.nodup_singleton _) ?_
  · intro a ha
    rw [List.mem_singleton.mp ha]
    exact ⟨hns, hservice⟩
  · intro el hel
    simp only [List.mem_cons, List.not_mem_nil, or_false] at hel
    rcases hel with rfl | rfl | rfl | rfl
    · exact Mxml.sendable_textChild hresult (sendable_didlLite h).print_text
    · exact Mxml.sendable_textChild hnumber
        (Mxml.sendableValue_fromInt objects.length).sendableText
    · exact Mxml.sendable_textChild htotal (Mxml.sendableValue_fromInt totalMatches).sendableText
    · exact Mxml.sendable_textChild hupdate
        (Mxml.sendableValue_fromInt systemUpdateID).sendableText

/-! ## Reading the response -/

theorem print_ne_nil (el : Mxml.Element) : el.print ≠ [] := by
  obtain ⟨name, attributes, children⟩ := el
  rw [Mxml.Element.print]
  exact List.cons_ne_nil _ _

/-- **A response is read** as what was put into it. -/
theorem readReply_browseResponse (hconf : Conforming parse)
    (hservice : Mxml.SendableValue cfg.serviceType)
    (h : ∀ el ∈ objects, Mxml.Element.Sendable el) :
    ∃ reply, readReply parse
        (browseResponse cfg.serviceType objects totalMatches systemUpdateID).print = some reply ∧
      reply.didl.elements.map Mxml.Element.joined = objects.map Mxml.Element.joined ∧
      reply.numberReturned = some (fromInt objects.length) ∧
      reply.totalMatches = some (fromInt totalMatches) ∧
      reply.updateID = some (fromInt systemUpdateID) := by
  obtain ⟨root, hroot, hjoined⟩ := (@sendable_browseResponse cfg objects systemUpdateID totalMatches
    hservice h).read_back hconf
  obtain ⟨didl, hdidl, hsame⟩ := (sendable_didlLite h).read_back hconf
  have hresult : root.getChildText (str "Result") = some (didlLite objects).print := by
    refine Mxml.getChildText_joined hjoined ?_ (print_ne_nil _)
    exact Mxml.getChildText_first ..
  have hnumber : root.getChildText (str "NumberReturned") = some (fromInt objects.length) := by
    refine Mxml.getChildText_joined hjoined ?_ (fromInt_ne_nil _)
    unfold browseResponse
    rw [Mxml.getChildText_rest _ _ (by decide), Mxml.getChildText_first]
  have htotal : root.getChildText (str "TotalMatches") = some (fromInt totalMatches) := by
    refine Mxml.getChildText_joined hjoined ?_ (fromInt_ne_nil _)
    unfold browseResponse
    rw [Mxml.getChildText_rest _ _ (by decide), Mxml.getChildText_rest _ _ (by decide),
      Mxml.getChildText_first]
  have hupdate : root.getChildText (str "UpdateID") = some (fromInt systemUpdateID) := by
    refine Mxml.getChildText_joined hjoined ?_ (fromInt_ne_nil _)
    unfold browseResponse
    rw [Mxml.getChildText_rest _ _ (by decide), Mxml.getChildText_rest _ _ (by decide),
      Mxml.getChildText_rest _ _ (by decide), Mxml.getChildText_first]
  refine ⟨⟨didl, some (fromInt objects.length), some (fromInt totalMatches),
    some (fromInt systemUpdateID)⟩, ?_, ?_, rfl, rfl, rfl⟩
  · unfold readReply
    rw [hroot]
    simp only [Option.bind_eq_bind, Option.bind_some, hresult, hdidl, hnumber, htotal, hupdate]
  · have helements := congrArg Mxml.Element.elements hsame
    rw [Mxml.elements_joined, Mxml.elements_joined] at helements
    rw [helements]
    exact congrArg (List.map Mxml.Element.joined) (Mxml.elements_mk ..)

/-! ## The call -/

/-- **The element shows the object**: it is what is rendered of it, read back. -/
def BrowseConfig.Shows (cfg : BrowseConfig) (before : Nat → UInt8) (obj : CdsObject)
    (el : Mxml.Element) : Prop :=
  ∃ rendered, cfg.didlObject before (cfg.markPlayed obj) = .ok rendered ∧
    el.joined = rendered.joined

theorem shows_of_joined {got : List Mxml.Element}
    (h : List.Forall₂ (fun obj el => cfg.didlObject before (cfg.markPlayed obj) = .ok el) objs els)
    (hjoined : got.map Mxml.Element.joined = els.map Mxml.Element.joined) :
    List.Forall₂ (cfg.Shows before) objs got := by
  induction h generalizing got with
  | nil =>
    rw [List.map_nil, List.map_eq_nil_iff] at hjoined
    rw [hjoined]
    exact .nil
  | cons hrender hrest ih =>
    obtain ⟨el, got', rfl, hel, hgot⟩ := List.map_eq_cons_iff.mp hjoined
    exact .cons ⟨_, hrender, hel⟩ (ih hgot)

/-- The object can be told by its id. -/
theorem BrowseConfig.Shows.id (h : cfg.Shows before obj el) :
    el.getAttribute (str "id") = some (fromInt obj.id) := by
  obtain ⟨rendered, hrender, hjoined⟩ := h
  have hsame : (cfg.markPlayed obj).id = obj.id := by
    unfold BrowseConfig.markPlayed
    split
    · rfl
    · rfl
  rw [Mxml.getAttribute_joined hjoined]
  unfold BrowseConfig.didlObject at hrender
  simp only at hrender
  rcases hresources : (if isCdsItem (cfg.markPlayed obj).objectType then
      cfg.addResources (cfg.markPlayed obj) else .ok []) with e | resources
  · rw [hresources] at hrender
    cases hrender
  · rw [hresources] at hrender
    cases hrender
    show some (fromInt (cfg.markPlayed obj).id) = _
    rw [hsame]

/-- **A response of Browse is read back**: the elements in it show the objects that storage has
    returned, in their order, and the numbers are theirs. -/
theorem browse_reply_read (hconf : Conforming parse) (hservice : Mxml.SendableValue cfg.serviceType)
    (hrun : (upnpActionBrowse cfg before systemUpdateID req).run s = (.ok (.response resp), s')) :
    ∃ parent arr totalMatches s₁,
      (loadObject (toInt (req.getChildText (str "ObjectID")))).run s = (.ok parent, s₁) ∧
      (browse (browseParam cfg req parent)).run s₁ = (.ok (arr, totalMatches), s') ∧
      ((∀ obj ∈ arr, cfg.Sendable before (cfg.markPlayed obj)) →
        ∃ reply, readReply parse resp.print = some reply ∧
          List.Forall₂ (cfg.Shows before) arr reply.didl.elements ∧
          reply.numberReturned = some (fromInt arr.length) ∧
          reply.totalMatches = some (fromInt totalMatches) ∧
          reply.updateID = some (fromInt systemUpdateID)) := by
  unfold upnpActionBrowse at hrun
  simp only at hrun
  split at hrun
  · cases hrun
  · split at hrun
    · cases hrun
    · rcases hload : (loadObject (toInt (req.getChildText (str "ObjectID")))).run s with
        ⟨e | parent, s₁⟩
      · rw [run_bind_of_error hload] at hrun
        cases hrun
      · rw [run_bind_of_ok hload] at hrun
        have htry := run_tryCatch (browse (browseParam cfg req parent) >>= fun found =>
          pure (some found)) (fun _ => pure none) s₁
        rcases hbrowse : (browse (browseParam cfg req parent)).run s₁ with
          ⟨e | ⟨arr, totalMatches⟩, s₂⟩
        · rw [run_bind_of_error hbrowse] at htry
          have hfound : (tryBrowse (browseParam cfg req parent)).run s₁ = (.ok none, s₂) := htry
          rw [run_bind_of_ok hfound] at hrun
          cases hrun
        · rw [run_bind_of_ok hbrowse] at htry
          have hfound : (tryBrowse (browseParam cfg req parent)).run s₁ =
              (.ok (some (arr, totalMatches)), s₂) := htry
          rw [run_bind_of_ok hfound, run_ofExcept] at hrun
          rw [answerBrowse] at hrun
          rcases hobjects : cfg.didlObjects before arr with e | objects
          · rw [hobjects] at hrun
            cases hrun
          · rw [hobjects] at hrun
            cases hrun
            refine ⟨parent, arr, totalMatches, s₁, rfl, hbrowse, fun hsend => ?_⟩
            have hall := didlObjects_ok hobjects
            obtain ⟨reply, hreply, helements, hnumber, htotal, hupdate⟩ :=
              @readReply_browseResponse cfg objects parse systemUpdateID totalMatches hconf hservice
                (sendable_didlObjects hsend hobjects)
            rw [← hall.length_eq] at hnumber
            exact ⟨reply, hreply, shows_of_joined hall helements, hnumber, htotal, hupdate⟩

end

/-! ## The database the schema creates -/

/-- Nothing is marked or cut, and nothing is appended to an item. -/
def plainBrowse : BrowseConfig where
  serviceType := str "urn:schemas-upnp-org:service:ContentDirectory:1"
  hidePcDirectory := false
  stringLimit := -1
  markPlayedItemsEnabled := false
  markPlayedItemsPrepend := false
  markPlayedItemsString := none
  addResources := fun _ => .ok []

theorem sendable_plainService : Mxml.SendableValue plainBrowse.serviceType :=
  Mxml.sendableValue_ascii (by decide)

/-- What a control point asks to see the root itself. -/
def rootMetadata : Mxml.Element :=
  .mk (str "u:Browse") [] ([textChild (str "ObjectID") (some (str "0")),
    textChild (str "BrowseFlag") (some (str "BrowseMetadata"))].map .element)

theorem browse_reply_read_root :
    ∃ resp s', (upnpActionBrowse plainBrowse (fun _ => 0) 7 rootMetadata).run
        (.started Database.fresh true .ok) = (.ok (.response resp), s') ∧
      ∃ parent arr totalMatches s₁,
        (loadObject (toInt (rootMetadata.getChildText (str "ObjectID")))).run
          (.started Database.fresh true .ok) = (.ok parent, s₁) ∧
        (browse (browseParam plainBrowse rootMetadata parent)).run s₁ =
          (.ok (arr, totalMatches), s') ∧
        ((∀ obj ∈ arr, plainBrowse.Sendable (fun _ => 0) (plainBrowse.markPlayed obj)) →
          ∃ reply, readReply referenceParser resp.print = some reply ∧
            List.Forall₂ (plainBrowse.Shows fun _ => 0) arr reply.didl.elements ∧
            reply.numberReturned = some (fromInt arr.length) ∧
            reply.totalMatches = some (fromInt totalMatches) ∧
            reply.updateID = some (fromInt 7)) := by
  have hrun : ∃ resp s', (upnpActionBrowse plainBrowse (fun _ => 0) 7 rootMetadata).run
      (.started Database.fresh true .ok) = (.ok (.response resp), s') := ⟨_, _, rfl⟩
  obtain ⟨resp, s', hrun⟩ := hrun
  exact ⟨resp, s', hrun, browse_reply_read conforming_referenceParser sendable_plainService hrun⟩

end MediaTomb
