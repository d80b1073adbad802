/-
  `FallbackLayout::addDVD` (`layout/fallback_layout.cc`).

  ONE object goes through three nested loops: it is changed for the title, for the audio track and
  for the chapter, and handed to the content manager again after each chapter, once for each of up
  to three containers of the track.  So the state of a call is that object, beside all that has
  been added.

  Four of the values of the first resource are set ANEW each time:

    * the parameters title, chapter and audio stream id.

  Two are only ever set, never taken away:

    * the attributes channel count and sample frequency, which are set when the track has them.

  So what one track leaves there shows in the next one that does not have it
  (`addDVD_items_iff`).
-/
import MediaTomb.Lib.Reuse
import MediaTomb.Serve.TranscodeExternalHandler
import MediaTomb.Content.UpdateObject

namespace MediaTomb

open Lib Lib.Prog

/-! ## The keys of the auxiliary data (`DVDHandler::renderKey`) -/

/-- `renderKey(DVD_TitleCount)` -/
def dvdTitleCount : Str := dvdTitle ++ str "c"

/-- `renderKey(DVD_ChapterCount, title_idx)` -/
def dvdChapterCount (t : Nat) : Str := dvdTitle ++ fromInt t ++ str "ch" ++ fromInt 0 ++ str "c"

/-- `renderKey(DVD_AudioTrackCount, title_idx)` -/
def dvdAudioTrackCount (t : Nat) : Str := dvdTitle ++ fromInt t ++ str "at" ++ str "c"

/-- The keys of an audio track, which differ in their last letter. -/
def dvdAudioTrackKey (letter : String) (t a : Nat) : Str :=
  dvdTitle ++ fromInt t ++ str "at" ++ fromInt a ++ str letter

def dvdAudioTrackFormat : Nat → Nat → Str := dvdAudioTrackKey "f"
def dvdAudioTrackStreamID : Nat → Nat → Str := dvdAudioTrackKey "i"
def dvdAudioTrackChannels : Nat → Nat → Str := dvdAudioTrackKey "l"
def dvdAudioTrackSampleFreq : Nat → Nat → Str := dvdAudioTrackKey "q"
def dvdAudioTrackLanguage : Nat → Nat → Str := dvdAudioTrackKey "g"

/-! ## The content manager and the object -/

/-- `MetadataHandler::getResAttrName(R_NRAUDIOCHANNELS)` -/
def nrAudioChannels : Str := str "nrAudioChannels"

/-- `MetadataHandler::getResAttrName(R_SAMPLEFREQUENCY)` -/
def sampleFrequency : Str := str "sampleFrequency"

/-- `MetadataHandler::getResAttrName(R_SIZE)` -/
def resAttrSize : Str := str "size"

/-- How the content manager answers. -/
structure ContentCalls where
  /-- The container of a chain, for the class and the reference its last container is to have. -/
  addContainerChain : Str → Option Str → Int → Except Exception Int
  /-- The id of an object that is added after these. -/
  addObject : List CdsObject → CdsObject → Except Exception Int

/-- The object that is handed on again and again, and what has been added. -/
structure Layout where
  obj : CdsObject
  added : List CdsObject := []

namespace FallbackLayout

abbrev Call (α : Type) : Type 1 := Prog Layout Exception α

/-- `getAuxData(key)` -/
def auxData (key : Str) : Call (Option Str) := read fun s => s.obj.auxdata.get key

def modifyObject (f : CdsObject → CdsObject) : Call Unit :=
  modify fun s => { s with obj := f s.obj }

/-- What may fail, from what the state is. -/
def tryRead {α : Type} (f : Layout → Except Exception α) : Call α :=
  get >>= fun s => ofExcept (f s)

/-- `getResource(0)`, changed. -/
def changeResource0 (f : CdsResource → CdsResource) : Call Unit := do
  let first ← tryRead fun s => getResource s.obj.resources 0
  modifyObject fun obj => { obj with resources := obj.resources.set 0 (f first) }

def addParameter (key value : Str) : Call Unit :=
  changeResource0 fun r => { r with parameters := r.parameters.put key value }

def addAttribute (key value : Str) : Call Unit :=
  changeResource0 fun r => { r with attributes := r.attributes.put key value }

/-- `if (string_ok(tmp)) …` -/
def ifOk (tmp : Option Str) (m : Call Unit) : Call Unit := if stringOk tmp then m else pure ()

def addSupplied (key : Str) (tmp : Option Str) : Call Unit :=
  ifOk tmp (addAttribute key (tmp.getD []))

/-- What `ContentManager::addObject` leaves of the object it is given. -/
def objectAdded (id : Int) (obj : CdsObject) : CdsObject :=
  { obj.clearFlag objectFlagUseResourceRef with
    id := id
    location := if isCdsItemExternalURL obj.objectType then obj.location
      else obj.location.map (reduce dirSeparator) }

/-- `add`: `use_ref` is true unless it is given. -/
def add (cm : ContentCalls) (parentID : Int) (useRef : Bool) : Call Unit := do
  modifyObject fun obj =>
    { obj with
      parentID := parentID
      id := invalidObjectID
      objectFlags := if useRef then obj.objectFlags ||| objectFlagUseResourceRef
        else obj.objectFlags }
  let id ← tryRead fun s => cm.addObject s.added s.obj
  modify fun s => { obj := objectAdded id s.obj, added := s.added ++ [s.obj] }

def esc (s : Str) : Str := escape virtualContainerEscape virtualContainerSeparator s

/-! ## `addDVD` -/

/-- `Chapter 01`, `Title 10`: one more than the index, in two digits at least. -/
def remapped (what : String) (idx : Nat) : Str :=
  if idx < 9 then str what ++ str "0" ++ fromInt (idx + 1) else str what ++ fromInt (idx + 1)

def prepareChapter (chapterIdx : Nat) : Call Unit := do
  addParameter dvdChapter (fromInt chapterIdx)
  modifyObject fun obj => { obj with title := some (remapped "Chapter " chapterIdx) }

/-- `if (string_ok(tag)) … + " - " + esc(tag)` -/
def tagged (tag : Option Str) : Str := if stringOk tag then str " - " ++ esc (tag.getD []) else []

def trackName (t a : Nat) : Str :=
  remapped "Title " t ++ str " - Audio Track " ++ fromInt (a + 1)

def titleChain (dvdContainer : Str) (t a : Nat) (format language : Option Str) : Str :=
  dvdContainer ++ str "Titles/" ++ trackName t a ++ tagged format ++ tagged language

def languageChain (dvdContainer : Str) (t a : Nat) (format language : Option Str) : Str :=
  dvdContainer ++ str "Languages/" ++ esc (language.getD []) ++ str "/" ++ trackName t a ++
    tagged format

def formatChain (dvdContainer : Str) (t a : Nat) (format language : Option Str) : Str :=
  dvdContainer ++ str "Audio Formats/" ++ esc (format.getD []) ++ str "/" ++ trackName t a ++
    tagged language

/-- All the chapters of a track, in the container of the chain. -/
def addChapters (cm : ContentCalls) (pcdID : Int) (chain : Str) (chapterCount : Int) :
    Call Unit := do
  let id ← ofExcept (cm.addContainerChain chain none pcdID)
  forEach (fun c => prepareChapter c >>= fun _ => add cm id false)
    (List.range chapterCount.toNat)

/-- The body of the loop over the audio tracks. -/
def addTrack (cm : ContentCalls) (dvdContainer : Str) (pcdID : Int) (t a : Nat) : Call Unit := do
  let streamID ← auxData (dvdAudioTrackStreamID t a)
  addParameter dvdAudioStreamID (streamID.getD [])
  let channels ← auxData (dvdAudioTrackChannels t a)
  addSupplied nrAudioChannels channels
  let freq ← auxData (dvdAudioTrackSampleFreq t a)
  addSupplied sampleFrequency freq
  let format ← auxData (dvdAudioTrackFormat t a)
  let language ← auxData (dvdAudioTrackLanguage t a)
  let chapterCount ← auxData (dvdChapterCount t)
  addChapters cm pcdID (titleChain dvdContainer t a format language) (toInt chapterCount)
  ifOk language
    (addChapters cm pcdID (languageChain dvdContainer t a format language) (toInt chapterCount))
  ifOk format
    (addChapters cm pcdID (formatChain dvdContainer t a format language) (toInt chapterCount))

/-- The body of the loop over the titles. -/
def addTitle (cm : ContentCalls) (dvdContainer : Str) (pcdID : Int) (t : Nat) : Call Unit := do
  let audioTrackCount ← auxData (dvdAudioTrackCount t)
  addParameter dvdTitle (fromInt t)
  forEach (addTrack cm dvdContainer pcdID t) (List.range (toInt audioTrackCount).toNat)

/-- The object itself; the ones after it are references to it. -/
def addMain (cm : ContentCalls) (id : Int) : Call Unit :=
  get >>= fun s =>
    if s.obj.id ≠ invalidObjectID then do
      modifyObject fun obj => { obj with refID := obj.id }
      add cm id true
    else do
      add cm id true
      modifyObject fun obj => { obj with refID := obj.id }

/-- The title up to its last dot. -/
def dvdName (title : Str) : Str :=
  match rindex '.'.toUInt8 title with
  | some dot => title.take dot
  | none => title

def dvdVPath (obj : CdsObject) : Str := str "/Video/DVD/" ++ esc (dvdName (obj.title.getD []))

/-- What is common to all the items. -/
def setCommon (mpegMimetype : Str) : Call Unit := do
  modifyObject fun obj =>
    { obj with kind := obj.kind.mapItem fun d => { d with mimeType := some mpegMimetype } }
  addAttribute protocolInfo (renderProtocolInfo (some mpegMimetype) (some (str "http-get")))
  modifyObject fun obj => { obj with upnpClass := some (str "object.item.videoItem") }
  changeResource0 fun r => { r with attributes := r.attributes.remove resAttrSize }

def addDVD (cm : ContentCalls) (mpegMimetype : Str) (obj : CdsObject) : Call Unit := do
  let id ← ofExcept (cm.addContainerChain (dvdVPath obj) none obj.id)
  addMain cm id
  let titleCount ← auxData dvdTitleCount
  setCommon mpegMimetype
  forEach (addTitle cm (dvdVPath obj ++ str "/") obj.id) (List.range (toInt titleCount).toNat)

/-! ## What is to be added -/

/-- What an item in a chapter container shows: where it is, and of its first resource the
    parameters and the two attributes of the audio track. -/
structure ChapterItem where
  container : Option Int
  title : Option Str
  chapter : Option Str
  streamID : Option Str
  channels : Option Str
  freq : Option Str
  deriving DecidableEq

def firstParameter (obj : CdsObject) (key : Str) : Option Str :=
  obj.resources.head?.bind (·.parameters.get key)

def firstAttribute (obj : CdsObject) (key : Str) : Option Str :=
  obj.resources.head?.bind (·.attributes.get key)

def chapterItem (obj : CdsObject) : ChapterItem where
  container := some obj.parentID
  title := firstParameter obj dvdTitle
  chapter := firstParameter obj dvdChapter
  streamID := firstParameter obj dvdAudioStreamID
  channels := firstAttribute obj nrAudioChannels
  freq := firstAttribute obj sampleFrequency

/-- A count of the auxiliary data, as the bound of a loop from zero on. -/
def auxCount (obj : CdsObject) (key : Str) : Nat := (toInt (obj.auxdata.get key)).toNat

/-- The audio tracks of a title. -/
def titleTracks (obj : CdsObject) (t : Nat) : List (Nat × Nat) :=
  (List.range (auxCount obj (dvdAudioTrackCount t))).map fun a => (t, a)

/-- **The audio tracks**, with the title each is of. -/
def tracks (obj : CdsObject) : List (Nat × Nat) :=
  (List.range (auxCount obj dvdTitleCount)).flatMap (titleTracks obj)

/-- What is known under a key, nil and the empty text being nothing. -/
def known (obj : CdsObject) (key : Str) : Option Str :=
  supplied (obj.auxdata.get key) none

/-- The channel count and the sample frequency a track has. -/
def ownAttributes (obj : CdsObject) (x : Nat × Nat) : Option Str × Option Str :=
  (known obj (dvdAudioTrackChannels x.1 x.2), known obj (dvdAudioTrackSampleFreq x.1 x.2))

/-- The two attributes after a track, for what they were before. -/
def overlay (obj : CdsObject) (before : Option Str × Option Str) (x : Nat × Nat) :
    Option Str × Option Str :=
  ((ownAttributes obj x).1.or before.1, (ownAttributes obj x).2.or before.2)

/-- A chapter of a track in the container of a chain. -/
def chainItem (cm : ContentCalls) (obj : CdsObject) (attributes : Option Str × Option Str)
    (x : Nat × Nat) (chain : Str) (c : Nat) : ChapterItem where
  container := (cm.addContainerChain chain none obj.id).toOption
  title := some (fromInt x.1)
  chapter := some (fromInt c)
  streamID := some ((obj.auxdata.get (dvdAudioTrackStreamID x.1 x.2)).getD [])
  channels := attributes.1
  freq := attributes.2

/-- All of them. -/
def chainItems (cm : ContentCalls) (obj : CdsObject) (attributes : Option Str × Option Str)
    (x : Nat × Nat) (chain : Str) : List ChapterItem :=
  (List.range (auxCount obj (dvdChapterCount x.1))).map (chainItem cm obj attributes x chain)

/-- **The chains of a track**: one by title, and one by language and by format where these are
    known. -/
def trackChains (obj : CdsObject) (x : Nat × Nat) : List Str :=
  let format := obj.auxdata.get (dvdAudioTrackFormat x.1 x.2)
  let language := obj.auxdata.get (dvdAudioTrackLanguage x.1 x.2)
  titleChain (dvdVPath obj ++ str "/") x.1 x.2 format language ::
    ((if stringOk language then [languageChain (dvdVPath obj ++ str "/") x.1 x.2 format language]
      else []) ++
    if stringOk format then [formatChain (dvdVPath obj ++ str "/") x.1 x.2 format language]
      else [])

def trackItems (cm : ContentCalls) (obj : CdsObject) (attributes : Option Str × Option Str)
    (x : Nat × Nat) : List ChapterItem :=
  (trackChains obj x).flatMap (chainItems cm obj attributes x)

/-- **What the tracks ask for**: each with the attributes it has itself. -/
def expectedItems (cm : ContentCalls) (obj : CdsObject) : List ChapterItem :=
  (tracks obj).flatMap fun x => trackItems cm obj (ownAttributes obj x) x

/-! ## What the loops do -/

/-- Everything works: the content manager answers, and there is a first resource. -/
structure Works (cm : ContentCalls) (obj : CdsObject) : Prop where
  chains : ∀ chain refID, ∃ id, cm.addContainerChain chain none refID = .ok id
  objects : ∀ added obj', ∃ id, cm.addObject added obj' = .ok id
  resources : obj.resources ≠ []

/-- What is known of the state inside the loops: the auxiliary data are those of `obj`, the first
    resource has these parameters and these two attributes, and these items have been added. -/
structure Sees (obj : CdsObject) (ps : List (Str × Str)) (attributes : Option Str × Option Str)
    (items : List ChapterItem) (s : Layout) : Prop where
  auxdata : s.obj.auxdata = obj.auxdata
  resources : s.obj.resources = [] → obj.resources = []
  parameters : ∀ el ∈ ps, firstParameter s.obj el.1 = some el.2
  channels : firstAttribute s.obj nrAudioChannels = attributes.1
  freq : firstAttribute s.obj sampleFrequency = attributes.2
  added : s.added.map chapterItem = items

section

variable {cm : ContentCalls} {obj : CdsObject} {ps : List (Str × Str)}
  {attributes : Option Str × Option Str} {items : List ChapterItem}

/-- A run that throws: not everything worked. -/
def Failed (cm : ContentCalls) (obj : CdsObject) (_ : Layout) : Prop := ¬ Works cm obj

theorem triple_tryRead {α : Type} {P : Layout → Prop} {f : Layout → Except Exception α}
    {Q : α → Layout → Prop} (hok : ∀ s a, P s → f s = .ok a → Q a s)
    (herror : ∀ s e, P s → f s = .error e → ¬ Works cm obj) :
    Triple P (tryRead f) Q (Failed cm obj) := by
  apply triple_get_bind
  intro s hs
  apply triple_ofExcept
  · rintro a ha s' rfl
    exact hok s' a hs ha
  · rintro e he s' rfl
    exact herror s' e hs he

theorem triple_changeResource0 {P Q : Layout → Prop} {f : CdsResource → CdsResource}
    (hempty : ∀ s, P s → s.obj.resources = [] → obj.resources = [])
    (h : ∀ s r rs, P s → s.obj.resources = r :: rs →
      Q { s with obj := { s.obj with resources := f r :: rs } }) :
    Triple P (changeResource0 f) (fun _ => Q) (Failed cm obj) := by
  refine triple_bind (M := fun first s => P s ∧ ∃ rs, s.obj.resources = first :: rs)
    (triple_tryRead ?_ ?_) fun first => triple_modify ?_
  · intro s first hs hfirst
    rcases hr : s.obj.resources with _ | ⟨r, rs⟩
    · rw [hr] at hfirst
      cases hfirst
    · rw [hr] at hfirst
      obtain rfl : r = first := Except.ok.inj hfirst
      exact ⟨hs, rs, rfl⟩
  · intro s e hs he hworks
    rcases hr : s.obj.resources with _ | ⟨r, rs⟩
    · exact hworks.resources (hempty s hs hr)
    · rw [hr] at he
      cases he
  · rintro s ⟨hs, rs, hr⟩
    have hset : s.obj.resources.set 0 (f first) = f first :: rs := by
      rw [hr]
      rfl
    show Q { s with obj := { s.obj with resources := s.obj.resources.set 0 (f first) } }
    rw [hset]
    exact h s first rs hs hr

/-- A parameter of the first resource is set. -/
theorem triple_addParameter {key value : Str} (ps' : List (Str × Str))
    (hps : ∀ el ∈ ps', el = (key, value) ∨ el ∈ ps ∧ el.1 ≠ key) :
    Triple (Sees obj ps attributes items) (addParameter key value)
      (fun _ => Sees obj ps' attributes items) (Failed cm obj) := by
  apply triple_changeResource0
  · intro s hs
    exact hs.resources
  · intro s r rs hs hr
    have hold : ∀ key', firstAttribute s.obj key' = r.attributes.get key' := by
      intro key'
      unfold firstAttribute
      rw [hr]
      rfl
    refine ⟨hs.auxdata, fun h => absurd h (List.cons_ne_nil _ _), ?_, ?_, ?_, hs.added⟩
    · intro el hel
      show (r.parameters.put key value).get el.1 = some el.2
      rw [Dictionary.get_put]
      rcases hps el hel with rfl | ⟨hel', hne⟩
      · rw [if_pos rfl]
      · rw [if_neg hne]
        have hkeep := hs.parameters el hel'
        unfold firstParameter at hkeep
        rw [hr] at hkeep
        exact hkeep
    · rw [← hs.channels, hold]
      rfl
    · rw [← hs.freq, hold]
      rfl

/-- The attributes of the first resource are changed, to these. -/
theorem triple_changeAttributes {f : Dictionary → Dictionary}
    {attributes' : Option Str × Option Str}
    (hchannels : ∀ d : Dictionary, d.get nrAudioChannels = attributes.1 →
      (f d).get nrAudioChannels = attributes'.1)
    (hfreq : ∀ d : Dictionary, d.get sampleFrequency = attributes.2 →
      (f d).get sampleFrequency = attributes'.2) :
    Triple (Sees obj ps attributes items)
      (changeResource0 fun r => { r with attributes := f r.attributes })
      (fun _ => Sees obj ps attributes' items) (Failed cm obj) := by
  apply triple_changeResource0
  · intro s hs
    exact hs.resources
  · intro s r rs hs hr
    have hold : ∀ key', firstAttribute s.obj key' = r.attributes.get key' := by
      intro key'
      unfold firstAttribute
      rw [hr]
      rfl
    refine ⟨hs.auxdata, fun h => absurd h (List.cons_ne_nil _ _), ?_, ?_, ?_, hs.added⟩
    · intro el hel
      have hkeep := hs.parameters el hel
      unfold firstParameter at hkeep
      rw [hr] at hkeep
      exact hkeep
    · apply hchannels
      rw [← hold]
      exact hs.channels
    · apply hfreq
      rw [← hold]
      exact hs.freq

/-- What is known stays known of an object with the same auxiliary data and resources. -/
theorem Sees.congr {s s' : Layout} (h : Sees obj ps attributes items s)
    (haux : s'.obj.auxdata = s.obj.auxdata) (hres : s'.obj.resources = s.obj.resources)
    (hadded : s'.added = s.added) : Sees obj ps attributes items s' := by
  have hparam : ∀ key, firstParameter s'.obj key = firstParameter s.obj key := by
    intro key
    unfold firstParameter
    rw [hres]
  have hattr : ∀ key, firstAttribute s'.obj key = firstAttribute s.obj key := by
    intro key
    unfold firstAttribute
    rw [hres]
  refine ⟨?_, ?_, ?_, ?_, ?_, ?_⟩
  · exact haux.trans h.auxdata
  · intro hempty
    exact h.resources (hres.symm.trans hempty)
  · intro el hel
    exact (hparam el.1).trans (h.parameters el hel)
  · exact (hattr _).trans h.channels
  · exact (hattr _).trans h.freq
  · rw [hadded]
    exact h.added

/-- The object is changed, but for what is known of it. -/
theorem triple_modifyObject {f : CdsObject → CdsObject}
    (haux : ∀ o, (f o).auxdata = o.auxdata) (hres : ∀ o, (f o).resources = o.resources) :
    Triple (Sees obj ps attributes items) (modifyObject f)
      (fun _ => Sees obj ps attributes items) (Failed cm obj) :=
  triple_modify fun s hs => hs.congr (haux s.obj) (hres s.obj) rfl

/-- Fewer parameters are known. -/
theorem Sees.mono {s : Layout} {ps' : List (Str × Str)} (h : Sees obj ps attributes items s)
    (hps : ps' ⊆ ps) : Sees obj ps' attributes items s :=
  { h with parameters := fun el hel => h.parameters el (hps hel) }

/-- What an item shows that is added to the container with these parameters known. -/
structure Shows (id : Int) (ps : List (Str × Str)) (attributes : Option Str × Option Str)
    (item : ChapterItem) : Prop where
  container : item.container = some id
  title : ∀ v, (dvdTitle, v) ∈ ps → item.title = some v
  chapter : ∀ v, (dvdChapter, v) ∈ ps → item.chapter = some v
  streamID : ∀ v, (dvdAudioStreamID, v) ∈ ps → item.streamID = some v
  channels : item.channels = attributes.1
  freq : item.freq = attributes.2

/-- The object is added as it is at that moment. -/
theorem triple_add (id : Int) (useRef : Bool) :
    Triple (Sees obj ps attributes items) (add cm id useRef)
      (fun _ s => ∃ item, Shows id ps attributes item ∧
        Sees obj ps attributes (items ++ [item]) s) (Failed cm obj) := by
  refine triple_bind (M := fun _ s => Sees obj ps attributes items s ∧ s.obj.parentID = id)
    (triple_modify fun s hs => ⟨hs.congr rfl rfl rfl, rfl⟩) fun _ => ?_
  refine triple_bind (M := fun _ s => Sees obj ps attributes items s ∧ s.obj.parentID = id)
    (triple_tryRead (fun s _ hs _ => hs) ?_) fun newID => triple_modify ?_
  · intro s e _ he hworks
    obtain ⟨newID, hnew⟩ := hworks.objects s.added s.obj
    rw [hnew] at he
    cases he
  · rintro s ⟨hs, hparent⟩
    refine ⟨chapterItem s.obj, ⟨?_, ?_, ?_, ?_, hs.channels, hs.freq⟩, ?_⟩
    · exact congrArg some hparent
    · intro v hv
      exact hs.parameters _ hv
    · intro v hv
      exact hs.parameters _ hv
    · intro v hv
      exact hs.parameters _ hv
    · have hkept : Sees obj ps attributes items { s with obj := objectAdded newID s.obj } :=
        hs.congr rfl rfl rfl
      refine { hkept with added := ?_ }
      show (s.added ++ [s.obj]).map chapterItem = items ++ [chapterItem s.obj]
      rw [List.map_append, hs.added]
      rfl

/-! ## The loops -/

/-- The parameters that are known inside the loop over the tracks of a title, where the stream id
    of the track is set. -/
def trackParameters (obj : CdsObject) (x : Nat × Nat) : List (Str × Str) :=
  [(dvdTitle, fromInt x.1),
    (dvdAudioStreamID, (obj.auxdata.get (dvdAudioTrackStreamID x.1 x.2)).getD [])]

theorem triple_prepareChapter (x : Nat × Nat) (c : Nat) :
    Triple (Sees obj (trackParameters obj x) attributes items) (prepareChapter c)
      (fun _ => Sees obj ((dvdChapter, fromInt c) :: trackParameters obj x) attributes items)
      (Failed cm obj) := by
  refine triple_bind (triple_addParameter _ ?_) fun _ =>
    triple_modifyObject (fun _ => rfl) (fun _ => rfl)
  intro el hel
  rcases List.mem_cons.mp hel with rfl | hel
  · exact .inl rfl
  · refine .inr ⟨hel, ?_⟩
    simp only [trackParameters, List.mem_cons, List.not_mem_nil, or_false] at hel
    rcases hel with rfl | rfl
    · show dvdTitle ≠ dvdChapter
      decide
    · show dvdAudioStreamID ≠ dvdChapter
      decide

/-- **One chapter**: the item shows the chapter, and what the track's parameters are. -/
theorem triple_addChapter (x : Nat × Nat) (chain : Str) (c : Nat) {id : Int}
    (hid : cm.addContainerChain chain none obj.id = .ok id) :
    Triple (Sees obj (trackParameters obj x) attributes items)
      (prepareChapter c >>= fun _ => add cm id false)
      (fun _ => Sees obj (trackParameters obj x) attributes
        (items ++ [chainItem cm obj attributes x chain c])) (Failed cm obj) := by
  refine triple_bind (triple_prepareChapter x c) fun _ => ?_
  refine triple_conseq (triple_add id false) (fun s hs => hs) ?_ (fun s hs => hs)
  rintro _ s ⟨⟨container, title, chapter, streamID, channels, freq⟩, hshows, hs⟩
  have hitem : chainItem cm obj attributes x chain c =
      ⟨container, title, chapter, streamID, channels, freq⟩ := by
    unfold chainItem
    rw [hid]
    congr 1
    · exact hshows.container.symm
    · exact (hshows.title _ (by simp [trackParameters])).symm
    · exact (hshows.chapter _ (by simp)).symm
    · exact (hshows.streamID _ (by simp [trackParameters])).symm
    · exact hshows.channels.symm
    · exact hshows.freq.symm
  rw [hitem]
  exact hs.mono (List.subset_cons_self _ _)

/-- The container of one chain gets the chapters of the track. -/
theorem triple_addChapters (x : Nat × Nat) (chain : Str) :
    Triple (Sees obj (trackParameters obj x) attributes items)
      (addChapters cm obj.id chain (toInt (obj.auxdata.get (dvdChapterCount x.1))))
      (fun _ => Sees obj (trackParameters obj x) attributes
        (items ++ chainItems cm obj attributes x chain)) (Failed cm obj) := by
  refine triple_bind
    (M := fun id s => Sees obj (trackParameters obj x) attributes items s ∧
      cm.addContainerChain chain none obj.id = .ok id)
    (triple_ofExcept (fun id hid s hs => ⟨hs, hid⟩) ?_) fun id => ?_
  · intro e he s _ hworks
    obtain ⟨id, hid⟩ := hworks.chains chain obj.id
    rw [hid] at he
    cases he
  · by_cases hid : cm.addContainerChain chain none obj.id = .ok id
    · have hloop := triple_forEach (E := Failed cm obj)
        (f := fun c => prepareChapter c >>= fun _ => add cm id false)
        (I := fun done => Sees obj (trackParameters obj x) attributes
          (items ++ done.map (chainItem cm obj attributes x chain)))
        (List.range (auxCount obj (dvdChapterCount x.1))) ?_
      · refine triple_conseq hloop ?_ (fun _ s hs => hs) (fun s hs => hs)
        rintro s ⟨hs, -⟩
        rw [List.map_nil, List.append_nil]
        exact hs
      · intro done c rest _
        rw [List.map_append, ← List.append_assoc]
        exact triple_addChapter x chain c hid
    · rintro s ⟨-, hs⟩
      exact absurd hs hid

/-- ... where the tag is known. -/
theorem triple_ifOk_addChapters (x : Nat × Nat) (tag : Option Str) (chain : Str) :
    Triple (Sees obj (trackParameters obj x) attributes items)
      (ifOk tag (addChapters cm obj.id chain (toInt (obj.auxdata.get (dvdChapterCount x.1)))))
      (fun _ => Sees obj (trackParameters obj x) attributes
        (items ++ (if stringOk tag then [chain] else []).flatMap
          (chainItems cm obj attributes x))) (Failed cm obj) := by
  unfold ifOk
  by_cases htag : stringOk tag = true
  · rw [if_pos htag, if_pos htag, List.flatMap_singleton]
    exact triple_addChapters x chain
  · rw [if_neg htag, if_neg htag, List.flatMap_nil, List.append_nil]
    exact triple_pure fun s hs => hs

theorem triple_addAttribute {key value : Str} {attributes' : Option Str × Option Str}
    (hchannels : attributes'.1 = if nrAudioChannels = key then some value else attributes.1)
    (hfreq : attributes'.2 = if sampleFrequency = key then some value else attributes.2) :
    Triple (Sees obj ps attributes items) (addAttribute key value)
      (fun _ => Sees obj ps attributes' items) (Failed cm obj) := by
  apply triple_changeAttributes (f := fun d => d.put key value)
  · intro d hd
    rw [Dictionary.get_put, hchannels, hd]
  · intro d hd
    rw [Dictionary.get_put, hfreq, hd]

/-- An attribute of the track is set when it is known, and left as it is when it is not. -/
theorem triple_addSupplied (attributes' : Option Str × Option Str) {key : Str}
    {tmp : Option Str}
    (hchannels : attributes'.1 =
      if nrAudioChannels = key then (supplied tmp none).or attributes.1 else attributes.1)
    (hfreq : attributes'.2 =
      if sampleFrequency = key then (supplied tmp none).or attributes.2 else attributes.2) :
    Triple (Sees obj ps attributes items) (addSupplied key tmp)
      (fun _ => Sees obj ps attributes' items) (Failed cm obj) := by
  unfold addSupplied ifOk
  unfold supplied at hchannels hfreq
  by_cases hok : stringOk tmp = true
  · rw [if_pos hok] at hchannels hfreq ⊢
    rcases tmp with _ | v
    · cases hok
    · exact triple_addAttribute hchannels hfreq
  · rw [if_neg hok, Option.none_or, ite_self] at hchannels hfreq
    rw [if_neg hok]
    have hsame : attributes' = attributes := Prod.ext hchannels hfreq
    rw [hsame]
    exact triple_pure fun s hs => hs

/-- The auxiliary data are read. -/
theorem triple_auxData_bind {β : Type} {key : Str} {m : Option Str → Call β}
    {Q : β → Layout → Prop}
    (h : Triple (Sees obj ps attributes items) (m (obj.auxdata.get key)) Q (Failed cm obj)) :
    Triple (Sees obj ps attributes items) (auxData key >>= m) Q (Failed cm obj) := by
  refine triple_bind
    (M := fun a s => Sees obj ps attributes items s ∧ a = obj.auxdata.get key)
    (triple_read fun s hs => ⟨hs, congrArg (·.get key) hs.auxdata⟩) fun a => ?_
  rintro s ⟨hs, rfl⟩
  exact h s hs

/-- **One track**: what it has is laid over what was there, and its items show the outcome. -/
theorem triple_addTrack (t a : Nat) :
    Triple (Sees obj [(dvdTitle, fromInt t)] attributes items)
      (addTrack cm (dvdVPath obj ++ str "/") obj.id t a)
      (fun _ => Sees obj [(dvdTitle, fromInt t)] (overlay obj attributes (t, a))
        (items ++ trackItems cm obj (overlay obj attributes (t, a)) (t, a)))
      (Failed cm obj) := by
  unfold addTrack
  apply triple_auxData_bind
  refine triple_bind (triple_addParameter (trackParameters obj (t, a)) ?_) fun _ => ?_
  · intro el hel
    simp only [trackParameters, List.mem_cons, List.not_mem_nil, or_false] at hel
    rcases hel with rfl | rfl
    · refine .inr ⟨List.mem_singleton_self _, ?_⟩
      show dvdTitle ≠ dvdAudioStreamID
      decide
    · exact .inl rfl
  apply triple_auxData_bind
  refine triple_bind (triple_addSupplied
    ((ownAttributes obj (t, a)).1.or attributes.1, attributes.2)
    (if_pos rfl).symm (if_neg (by decide)).symm) fun _ => ?_
  apply triple_auxData_bind
  refine triple_bind (triple_addSupplied (overlay obj attributes (t, a))
    (if_neg (by decide)).symm (if_pos rfl).symm) fun _ => ?_
  apply triple_auxData_bind
  apply triple_auxData_bind
  apply triple_auxData_bind
  refine triple_bind (triple_addChapters (t, a) _) fun _ => ?_
  refine triple_bind (triple_ifOk_addChapters (t, a) _ _) fun _ => ?_
  refine triple_conseq (triple_ifOk_addChapters (t, a) _ _) (fun s hs => hs) ?_ (fun s hs => hs)
  intro _ s hs
  simp only [trackItems, trackChains, List.flatMap_cons, List.flatMap_append, ← List.append_assoc]
  exact hs.mono (List.cons_subset_cons _ (List.nil_subset _))

/-- **One title**: its tracks, one laid over the other. -/
theorem triple_addTitle (t : Nat) :
    Triple (Sees obj [] attributes items) (addTitle cm (dvdVPath obj ++ str "/") obj.id t)
      (fun _ => Sees obj [] (Reuse.carried (overlay obj) attributes (titleTracks obj t))
        (items ++ Reuse.emitted (overlay obj) (trackItems cm obj) attributes
          (titleTracks obj t))) (Failed cm obj) := by
  unfold addTitle
  apply triple_auxData_bind
  refine triple_bind (triple_addParameter [(dvdTitle, fromInt t)] ?_) fun _ => ?_
  · intro el hel
    exact .inl (List.mem_singleton.mp hel)
  · have hloop := triple_forEach (E := Failed cm obj)
      (f := addTrack cm (dvdVPath obj ++ str "/") obj.id t)
      (I := fun done => Sees obj [(dvdTitle, fromInt t)]
        (Reuse.carried (overlay obj) attributes (done.map fun a => (t, a)))
        (items ++ Reuse.emitted (overlay obj) (trackItems cm obj) attributes
          (done.map fun a => (t, a))))
      (List.range (auxCount obj (dvdAudioTrackCount t))) ?_
    · refine triple_conseq hloop ?_ (fun _ s hs => hs.mono (List.nil_subset _)) (fun s hs => hs)
      intro s hs
      rw [List.map_nil, Reuse.emitted, List.append_nil]
      exact hs
    · intro done a rest _
      rw [List.map_append, Reuse.carried_append, Reuse.emitted_append, ← List.append_assoc]
      refine triple_conseq (triple_addTrack t a) (fun s hs => hs) ?_ (fun s hs => hs)
      intro _ s hs
      rw [List.map_singleton, Reuse.emitted, Reuse.emitted, List.append_nil]
      exact hs

theorem triple_setCommon (mpegMimetype : Str) :
    Triple (Sees obj ps attributes items) (setCommon mpegMimetype)
      (fun _ => Sees obj ps attributes items) (Failed cm obj) := by
  unfold setCommon
  refine triple_bind (triple_modifyObject (fun _ => rfl) (fun _ => rfl)) fun _ => ?_
  refine triple_bind (triple_addAttribute (if_neg (by decide)).symm (if_neg (by decide)).symm)
    fun _ => ?_
  refine triple_bind (triple_modifyObject (fun _ => rfl) (fun _ => rfl)) fun _ => ?_
  apply triple_changeAttributes (f := fun d => d.remove resAttrSize)
  · intro d hd
    rw [Dictionary.get_remove, if_neg (by decide)]
    exact hd
  · intro d hd
    rw [Dictionary.get_remove, if_neg (by decide)]
    exact hd

/-- The object itself comes first, whatever it shows. -/
theorem triple_addMain (id : Int) :
    Triple (Sees obj ps attributes []) (addMain cm id)
      (fun _ s => ∃ main, Sees obj ps attributes [main] s) (Failed cm obj) := by
  have hadd : Triple (Sees obj ps attributes []) (add cm id true)
      (fun _ s => ∃ main, Sees obj ps attributes [main] s) (Failed cm obj) :=
    triple_conseq (triple_add id true) (fun s hs => hs)
      (fun _ s ⟨main, _, hs⟩ => ⟨main, hs⟩) (fun s hs => hs)
  apply triple_get_bind
  intro s hs
  split
  · refine triple_conseq (triple_bind (triple_modifyObject (fun _ => rfl) (fun _ => rfl))
      fun _ => hadd) ?_ (fun _ s' hs' => hs') (fun s' hs' => hs')
    rintro s' rfl
    exact hs
  · refine triple_conseq (triple_bind hadd fun _ => triple_modify ?_) ?_
      (fun _ s' hs' => hs') (fun s' hs' => hs')
    · rintro s' ⟨main, hs'⟩
      exact ⟨main, hs'.congr rfl rfl rfl⟩
    · rintro s' rfl
      exact hs

/-- The attributes of the first resource before the call. -/
def leftAttributes (obj : CdsObject) : Option Str × Option Str :=
  (firstAttribute obj nrAudioChannels, firstAttribute obj sampleFrequency)

/-- **The whole call.** -/
theorem triple_addDVD (cm : ContentCalls) (mpegMimetype : Str) :
    Triple (fun s => s = { obj := obj }) (addDVD cm mpegMimetype obj)
      (fun _ s => ∃ main attributes', Sees obj [] attributes'
        (main :: Reuse.emitted (overlay obj) (trackItems cm obj) (leftAttributes obj)
          (tracks obj)) s) (Failed cm obj) := by
  unfold addDVD
  refine triple_bind (M := fun _ => Sees obj [] (leftAttributes obj) [])
    (triple_ofExcept ?_ ?_) fun id => ?_
  · rintro _ _ s rfl
    exact ⟨rfl, fun h => h, fun el hel => absurd hel List.not_mem_nil, rfl, rfl, rfl⟩
  · intro e he s _ hworks
    obtain ⟨id, hid⟩ := hworks.chains (dvdVPath obj) obj.id
    rw [hid] at he
    cases he
  · refine triple_bind (triple_addMain id) fun _ => ?_
    rintro s ⟨main, hs⟩
    have hloop := triple_forEach (E := Failed cm obj)
      (f := addTitle cm (dvdVPath obj ++ str "/") obj.id)
      (I := fun done => Sees obj []
        (Reuse.carried (overlay obj) (leftAttributes obj) (done.flatMap (titleTracks obj)))
        ([main] ++ Reuse.emitted (overlay obj) (trackItems cm obj) (leftAttributes obj)
          (done.flatMap (titleTracks obj))))
      (List.range (auxCount obj dvdTitleCount)) ?_
    · have hrest : Triple (Sees obj [] (leftAttributes obj) [main])
          (auxData dvdTitleCount >>= fun titleCount => setCommon mpegMimetype >>= fun _ =>
            forEach (addTitle cm (dvdVPath obj ++ str "/") obj.id)
              (List.range (toInt titleCount).toNat)) _ (Failed cm obj) :=
        triple_auxData_bind (triple_bind (triple_setCommon mpegMimetype) fun _ => hloop)
      exact triple_conseq hrest (fun s hs => hs) (fun _ s hs => ⟨main, _, hs⟩)
        (fun s hs => hs) s hs
    · intro done t rest _
      rw [List.flatMap_append, Reuse.carried_append, Reuse.emitted_append, ← List.append_assoc,
        List.flatMap_singleton]
      exact triple_addTitle t

/-! ## What leaks -/

theorem addDVD_items {mpegMimetype : Str} {s : Layout}
    (h : (addDVD cm mpegMimetype obj).run { obj := obj } = (.ok (), s)) :
    s.added.tail.map chapterItem =
      Reuse.emitted (overlay obj) (trackItems cm obj) (leftAttributes obj) (tracks obj) := by
  have hrun := triple_addDVD cm mpegMimetype { obj := obj } rfl
  rw [h] at hrun
  obtain ⟨main, attributes', hs⟩ := hrun
  rw [List.map_tail, hs.added]
  rfl

/-- **The call returns** when everything it needs works. -/
theorem addDVD_returns {mpegMimetype : Str} (hworks : Works cm obj) :
    ((addDVD cm mpegMimetype obj).run { obj := obj }).1 = .ok () := by
  have hrun := triple_addDVD cm mpegMimetype { obj := obj } rfl
  rcases hr : (addDVD cm mpegMimetype obj).run { obj := obj } with ⟨e | _, s⟩
  · rw [hr] at hrun
    exact absurd hworks hrun
  · rfl

/-- An attribute that a track does not have itself has not been left by an earlier one. -/
def NotLeft (obj : CdsObject) (key : Nat → Nat → Str) (attr : Str)
    (before : List (Nat × Nat)) (x : Nat × Nat) : Prop :=
  known obj (key x.1 x.2) = none →
    firstAttribute obj attr = none ∧ ∀ y ∈ before, known obj (key y.1 y.2) = none

/-- **Nothing is left over**: a track with chapters that has no channel count comes before all
    those that have one, and the same for the sample frequency. -/
def NothingLeft (obj : CdsObject) : Prop :=
  ∀ before x after, tracks obj = before ++ x :: after → 0 < auxCount obj (dvdChapterCount x.1) →
    NotLeft obj dvdAudioTrackChannels nrAudioChannels before x ∧
      NotLeft obj dvdAudioTrackSampleFreq sampleFrequency before x

theorem or_eq_left_iff {α : Type} {a b : Option α} : a.or b = a ↔ (a = none → b = none) := by
  cases a with
  | none =>
    rw [Option.none_or]
    exact ⟨fun h _ => h, fun h => h rfl⟩
  | some v => exact ⟨fun _ h => (nomatch h), fun _ => rfl⟩

/-- Of the two attributes, what the tracks leave. -/
theorem carried_eq_none_iff (obj : CdsObject) (left : Option Str × Option Str) (xs : List (Nat × Nat)) :
    ((Reuse.carried (overlay obj) left xs).1 = none ↔
        left.1 = none ∧ ∀ y ∈ xs, (ownAttributes obj y).1 = none) ∧
      ((Reuse.carried (overlay obj) left xs).2 = none ↔
        left.2 = none ∧ ∀ y ∈ xs, (ownAttributes obj y).2 = none) := by
  induction xs using List.reverseRecOn with
  | nil => simp [Reuse.carried]
  | append_singleton xs x ih =>
    have hlast : Reuse.carried (overlay obj) left (xs ++ [x]) =
        overlay obj (Reuse.carried (overlay obj) left xs) x := by
      rw [Reuse.carried_append]
      rfl
    simp only [hlast, overlay, Option.or_eq_none_iff, ih.1, ih.2, List.forall_mem_append,
      List.forall_mem_singleton]
    constructor
    · tauto
    · tauto

/-- The items of a track with chapters show the attributes. -/
theorem trackItems_inj (p q : Option Str × Option Str) (x : Nat × Nat) :
    trackItems cm obj p x = trackItems cm obj q x ↔
      (0 < auxCount obj (dvdChapterCount x.1) → p = q) := by
  constructor
  · intro h hchapters
    unfold trackItems trackChains at h
    rw [List.flatMap_cons, List.flatMap_cons] at h
    obtain ⟨hfirst, -⟩ := List.append_inj h (by simp [chainItems])
    have hitem := List.map_inj_left.mp hfirst 0 (List.mem_range.mpr hchapters)
    simp only [chainItem, ChapterItem.mk.injEq] at hitem
    exact Prod.ext hitem.2.2.2.2.1 hitem.2.2.2.2.2
  · intro h
    rcases Nat.eq_zero_or_pos (auxCount obj (dvdChapterCount x.1)) with hzero | hpos
    · have hnone : ∀ r chain, chainItems cm obj r x chain = [] := by
        intro r chain
        unfold chainItems
        rw [hzero]
        rfl
      unfold trackItems
      rw [funext (hnone p), funext (hnone q)]
    · rw [h hpos]

/-- With the values that each track has itself. -/
theorem emitted_eq_expected_iff :
    Reuse.emitted (overlay obj) (trackItems cm obj) (leftAttributes obj) (tracks obj) =
        expectedItems cm obj ↔ NothingLeft obj := by
  unfold expectedItems
  rw [Reuse.emitted_eq_iff]
  · unfold NothingLeft
    refine forall_congr' fun before => forall_congr' fun x => forall_congr' fun after =>
      imp_congr_right fun _ => ?_
    have hlast : Reuse.carried (overlay obj) (leftAttributes obj) (before ++ [x]) =
        overlay obj (Reuse.carried (overlay obj) (leftAttributes obj) before) x := by
      rw [Reuse.carried_append]
      rfl
    rw [hlast, trackItems_inj]
    refine imp_congr_right fun _ => ?_
    obtain ⟨hchannels, hfreq⟩ := carried_eq_none_iff obj (leftAttributes obj) before
    rw [Prod.ext_iff]
    refine and_congr ?_ ?_
    · exact or_eq_left_iff.trans (imp_congr_right fun _ => hchannels)
    · exact or_eq_left_iff.trans (imp_congr_right fun _ => hfreq)
  · intro r r' x
    simp [trackItems, chainItems]

/-- **The items of a DVD** show the channel counts and the sample frequencies of their own tracks
    exactly if nothing is left over from an earlier one. -/
theorem addDVD_items_iff {mpegMimetype : Str} {s : Layout}
    (h : (addDVD cm mpegMimetype obj).run { obj := obj } = (.ok (), s)) :
    s.added.tail.map chapterItem = expectedItems cm obj ↔ NothingLeft obj := by
  rw [addDVD_items h]
  exact emitted_eq_expected_iff

/-- An item without the two attributes. -/
def ChapterItem.place (item : ChapterItem) : ChapterItem :=
  { item with channels := none, freq := none }

/-- What is set anew for each item is always right: how many there are, where they are, and their
    parameters. -/
theorem addDVD_places {mpegMimetype : Str} {s : Layout}
    (h : (addDVD cm mpegMimetype obj).run { obj := obj } = (.ok (), s)) :
    (s.added.tail.map chapterItem).map ChapterItem.place =
      (expectedItems cm obj).map ChapterItem.place := by
  rw [addDVD_items h]
  apply Reuse.map_emitted_of_const
  intro r r' x
  simp only [trackItems, List.map_flatMap, chainItems, List.map_map]
  rfl

/-! ## Whose resources are stored -/

/-- After the object itself, no item asks the storage for the resources of another. -/
def OwnResources (s : Layout) : Prop :=
  (s.added ≠ [] → s.obj.getFlag objectFlagUseResourceRef = false) ∧
    ∀ o ∈ s.added.tail, o.getFlag objectFlagUseResourceRef = false

theorem getFlag_clearFlag (obj : CdsObject) (mask : UInt32) :
    (obj.clearFlag mask).getFlag mask = false := by
  unfold CdsObject.getFlag CdsObject.clearFlag
  rw [UInt32.and_assoc, UInt32.and_comm (~~~mask), UInt32.and_not_self, UInt32.and_zero]
  rfl

theorem ownResources_modifyObject {f : CdsObject → CdsObject}
    (h : ∀ o, (f o).objectFlags = o.objectFlags) :
    Keeps (Frame.inv OwnResources) (modifyObject f) := by
  apply keeps_modify
  rintro s ⟨hobj, hadded⟩
  refine ⟨fun hne => ?_, hadded⟩
  unfold CdsObject.getFlag
  rw [h]
  exact hobj hne

theorem keeps_tryRead {α : Type} {F : Frame Layout} (f : Layout → Except Exception α) :
    Keeps F (tryRead f) :=
  keeps_bind (keeps_read _) fun s => keeps_ofExcept (f s)

theorem ownResources_changeResource0 (f : CdsResource → CdsResource) :
    Keeps (Frame.inv OwnResources) (changeResource0 f) :=
  keeps_bind (keeps_tryRead _) fun _ => ownResources_modifyObject fun _ => rfl

theorem ownResources_ifOk (tmp : Option Str) {m : Call Unit}
    (h : Keeps (Frame.inv OwnResources) m) : Keeps (Frame.inv OwnResources) (ifOk tmp m) :=
  keeps_ite (fun _ => h) fun _ => keeps_pure ()

theorem OwnResources.triple {α : Type} {m : Call α} (h : Keeps (Frame.inv OwnResources) m) :
    Triple OwnResources m (fun _ => OwnResources) (fun _ => True) :=
  triple_conseq (E := OwnResources) h.triple (fun _ hs => hs) (fun _ _ hs => hs)
    fun _ _ => trivial

/-- What `addObject` leaves has the flag cleared. -/
theorem ownResources_added {s : Layout} (id : Int)
    (h : ∀ o ∈ (s.added ++ [s.obj]).tail, o.getFlag objectFlagUseResourceRef = false) :
    OwnResources { obj := objectAdded id s.obj, added := s.added ++ [s.obj] } :=
  ⟨fun _ => getFlag_clearFlag s.obj objectFlagUseResourceRef, h⟩

theorem ownResources_add (cm : ContentCalls) (parentID : Int) :
    Keeps (Frame.inv OwnResources) (add cm parentID false) := by
  refine keeps_bind (ownResources_modifyObject fun _ => rfl) fun _ => ?_
  refine keeps_bind (keeps_tryRead _) fun id => keeps_modify ?_
  rintro s ⟨hobj, hadded⟩
  apply ownResources_added
  intro o ho
  rcases hs : s.added with _ | ⟨main, rest⟩
  · rw [hs] at ho
    cases ho
  · rw [hs] at ho hadded hobj
    rcases List.mem_append.mp ho with ho | ho
    · exact hadded o ho
    · rw [List.mem_singleton.mp ho]
      exact hobj (List.cons_ne_nil _ _)

/-- The object itself is the first. -/
theorem ownResources_addFirst (cm : ContentCalls) (parentID : Int) :
    Triple (fun s => s.added = []) (add cm parentID true) (fun _ => OwnResources)
      (fun _ => True) := by
  refine triple_bind (M := fun _ s => s.added = []) (triple_modify fun s hs => hs) fun _ => ?_
  refine triple_bind (M := fun _ s => s.added = []) (triple_get_bind fun s hs => ?_)
    fun id => triple_modify ?_
  · exact triple_ofExcept (fun _ _ s' h => h ▸ hs) fun _ _ _ _ => trivial
  · intro s hs
    apply ownResources_added
    rw [hs]
    intro o ho
    cases ho

theorem ownResources_addMain (cm : ContentCalls) (id : Int) :
    Triple (fun s => s.added = []) (addMain cm id) (fun _ => OwnResources) (fun _ => True) := by
  apply triple_get_bind
  intro s hs
  split
  · refine triple_bind (M := fun _ s' => s'.added = []) (triple_modify ?_)
      fun _ => ownResources_addFirst cm id
    rintro s' rfl
    exact hs
  · refine triple_bind (triple_conseq (ownResources_addFirst cm id) ?_ (fun _ _ h => h)
      fun _ h => h) fun _ => ?_
    · rintro s' rfl
      exact hs
    · exact OwnResources.triple (ownResources_modifyObject fun _ => rfl)

theorem ownResources_addTrack (cm : ContentCalls) (dvdContainer : Str) (pcdID : Int) (t a : Nat) :
    Keeps (Frame.inv OwnResources) (addTrack cm dvdContainer pcdID t a) := by
  have hchapters : ∀ chain n, Keeps (Frame.inv OwnResources) (addChapters cm pcdID chain n) := by
    intro chain n
    refine keeps_bind (keeps_ofExcept _) fun id => keeps_forEach (fun c => ?_) _
    refine keeps_bind ?_ fun _ => ownResources_add cm id
    exact keeps_bind (ownResources_changeResource0 _) fun _ =>
      ownResources_modifyObject fun _ => rfl
  refine keeps_bind (keeps_read _) fun _ => keeps_bind (ownResources_changeResource0 _) fun _ => ?_
  refine keeps_bind (keeps_read _) fun _ =>
    keeps_bind (ownResources_ifOk _ (ownResources_changeResource0 _)) fun _ => ?_
  refine keeps_bind (keeps_read _) fun _ =>
    keeps_bind (ownResources_ifOk _ (ownResources_changeResource0 _)) fun _ => ?_
  refine keeps_bind (keeps_read _) fun _ => keeps_bind (keeps_read _) fun _ =>
    keeps_bind (keeps_read _) fun _ => keeps_bind (hchapters _ _) fun _ => ?_
  exact keeps_bind (ownResources_ifOk _ (hchapters _ _)) fun _ =>
    ownResources_ifOk _ (hchapters _ _)

/-- **What the items show is what is stored of them**: none of them leaves its resources to the
    object it refers to. -/
theorem addDVD_ownResources {mpegMimetype : Str} {s : Layout}
    (h : (addDVD cm mpegMimetype obj).run { obj := obj } = (.ok (), s)) :
    ∀ o ∈ s.added.tail, o.getFlag objectFlagUseResourceRef = false := by
  have htriple : Triple (fun s => s.added = []) (addDVD cm mpegMimetype obj)
      (fun _ => OwnResources) (fun _ => True) := by
    refine triple_bind (M := fun _ s => s.added = [])
      (triple_ofExcept (fun _ _ _ h => h) fun _ _ _ _ => trivial) fun id => ?_
    refine triple_bind (ownResources_addMain cm id) fun _ => ?_
    have hrest : Keeps (Frame.inv OwnResources)
        (auxData dvdTitleCount >>= fun titleCount => setCommon mpegMimetype >>= fun _ =>
          forEach (addTitle cm (dvdVPath obj ++ str "/") obj.id)
            (List.range (toInt titleCount).toNat)) := by
      refine keeps_bind (keeps_read _) fun _ => keeps_bind ?_ fun _ =>
        keeps_forEach (fun t => ?_) _
      · refine keeps_bind (ownResources_modifyObject fun _ => rfl) fun _ =>
          keeps_bind (ownResources_changeResource0 _) fun _ =>
            keeps_bind (ownResources_modifyObject fun _ => rfl) fun _ =>
              ownResources_changeResource0 _
      · exact keeps_bind (keeps_read _) fun _ =>
          keeps_bind (ownResources_changeResource0 _) fun _ =>
            keeps_forEach (fun a => ownResources_addTrack cm _ _ t a) _
    exact OwnResources.triple hrest
  have hrun := htriple { obj := obj } rfl
  rw [h] at hrun
  exact hrun.2

end

/-! ## Two DVDs -/

/-- A content manager that has one container and gives one id. -/
def answering : ContentCalls where
  addContainerChain _ _ _ := .ok 7
  addObject _ _ := .ok 8

/-- One title with one chapter and two audio tracks, the first with six channels and the second
    with these. -/
def twoTracks (channels : Str) : CdsObject where
  title := some (str "film.iso")
  upnpClass := none
  auxdata := Dictionary.put (Dictionary.put (Dictionary.put (Dictionary.put (Dictionary.put .empty
    dvdTitleCount (str "1")) (dvdAudioTrackCount 0) (str "2")) (dvdChapterCount 0) (str "1"))
    (dvdAudioTrackChannels 0 0) (str "6")) (dvdAudioTrackChannels 0 1) channels
  resources := [⟨0, .empty, .empty, .empty⟩]
  kind := .item {}

theorem twoTracks_works (channels : Str) : Works answering (twoTracks channels) :=
  ⟨fun _ _ => ⟨7, rfl⟩, fun _ _ => ⟨8, rfl⟩, List.cons_ne_nil _ _⟩

/-- The state at the end of the call. -/
def twoTracksAdded (channels : Str) : Layout :=
  ((addDVD answering (str "video/mpeg") (twoTracks channels)).run
    { obj := twoTracks channels }).2

theorem twoTracks_run (channels : Str) :
    (addDVD answering (str "video/mpeg") (twoTracks channels)).run { obj := twoTracks channels } =
      (.ok (), twoTracksAdded channels) :=
  run_eq_of_fst (addDVD_returns (twoTracks_works channels))

theorem addDVD_items_known :
    (twoTracksAdded (str "2")).added.tail.map chapterItem =
      expectedItems answering (twoTracks (str "2")) := by
  refine (addDVD_items_iff (twoTracks_run (str "2"))).mpr ?_
  intro before x after hx _
  have htracks : tracks (twoTracks (str "2")) = [(0, 0), (0, 1)] := by decide +kernel
  have hmem : x ∈ [(0, 0), (0, 1)] := by
    rw [← htracks, hx]
    simp
  constructor
  · intro hnone
    have hknown : ∀ y ∈ [(0, 0), (0, 1)],
        known (twoTracks (str "2")) (dvdAudioTrackChannels y.1 y.2) ≠ none := by decide +kernel
    exact absurd hnone (hknown x hmem)
  · intro _
    have hunknown : ∀ y ∈ [(0, 0), (0, 1)],
        known (twoTracks (str "2")) (dvdAudioTrackSampleFreq y.1 y.2) = none := by decide +kernel
    refine ⟨rfl, fun y hy => hunknown y ?_⟩
    rw [← htracks, hx]
    exact List.mem_append_left _ hy

/-- The second track has no channel count, and its item shows that of the first. -/
theorem addDVD_channels_leak :
    ¬ ∀ (cm : ContentCalls) (mpegMimetype : Str) (obj : CdsObject) (s : Layout),
      (addDVD cm mpegMimetype obj).run { obj := obj } = (.ok (), s) →
        s.added.tail.map chapterItem = expectedItems cm obj := by
  intro h
  have hitems := h _ _ _ _ (twoTracks_run [])
  rw [addDVD_items (twoTracks_run [])] at hitems
  revert hitems
  decide +kernel

end FallbackLayout

end MediaTomb
