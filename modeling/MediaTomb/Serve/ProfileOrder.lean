/-
  The profiles of an item, one after the other (`CdsResourceManager::addResources`).

  What a profile makes of an item is read off the item's first resource.  A profile may put ITS
  resource in front, and from then on the first resource is a transcoded one: it has the duration,
  and the sample frequency and the channels that its profile sets, and no fourcc at all.

    * `seen`            what later profiles read, from the settings of the profiles in front alone;
    * `generate_same`   a profile makes the same resource in its place as alone, just when that is
                        what the stored resource has.
-/
import MediaTomb.Serve.CdsResourceManager

namespace MediaTomb.ProfileOrder

/-! ## One turn of the loop -/

/-- The resource that is made for a profile, if any. -/
def generate (cfg : ResourceConfig) (item : CdsObject) (resources : List CdsResource)
    (tp : TranscodingProfile) : Except Exception (Option CdsResource) :=
  match tp.applies cfg item resources with
  | .error e => .error e
  | .ok false => .ok none
  | .ok true => (getResource resources 0).map fun first => some (transcodedResource first tp)

/-- Where it goes. -/
def placeResource (resources : List CdsResource) (tp : TranscodingProfile) :
    Option CdsResource → List CdsResource
  | none => resources
  | some r => if tp.firstResource then r :: resources else resources ++ [r]

/-- An attribute that is copied from the source. -/
inductive MediaAttribute
  | duration | sampleFrequency | nrAudioChannels
  deriving DecidableEq

def MediaAttribute.name : MediaAttribute → Str
  | .duration => str "duration"
  | .sampleFrequency => str "sampleFrequency"
  | .nrAudioChannels => str "nrAudioChannels"

/-- `SOURCE` (-1), `OFF` (0) or a number; the duration is always the source's. -/
def MediaAttribute.setting : MediaAttribute → TranscodingProfile → Int
  | .duration, _ => -1
  | .sampleFrequency, tp => tp.sampleFreq
  | .nrAudioChannels, tp => tp.numChannels

/-- Both resources, or none, with the same duration, sample frequency and channels. -/
def SameMedia (r r' : Option CdsResource) : Prop :=
  r.isSome = r'.isSome ∧ ∀ a : MediaAttribute,
    r.bind (fun r => r.attributes.get a.name) = r'.bind fun r => r.attributes.get a.name

/-! ## What is seen -/

/-- Is the profile used, for this fourcc? -/
def passes (cfg : ResourceConfig) (item : CdsObject) (fourCC : Option Str)
    (tp : TranscodingProfile) : Bool :=
  let ct := cfg.contentType item.mimeType
  let dvd := item.getFlag objectFlagDVDImage || !tp.onlyDVD
  if ct = some (str "ogg") && item.getFlag objectFlagOggTheora != tp.theora then false
  else if ct = some (str "avi") && tp.fourCCListMode != .none then !tp.skipsFourCC fourCC && dvd
  else dvd

/-- The profiles that put their resource in front. -/
def inFront (cfg : ResourceConfig) (item : CdsObject) :
    Option Str → List TranscodingProfile → List TranscodingProfile
  | _, [] => []
  | fourCC, tp :: profiles =>
    if passes cfg item fourCC tp && tp.firstResource then tp :: inFront cfg item none profiles
    else inFront cfg item fourCC profiles

def nonEmpty (s : Option Str) : Option Str := if stringOk s then s else none

/-- What the profile itself says about the attribute; `none` if it is the source's. -/
def sets (tp : TranscodingProfile) (a : MediaAttribute) : Option (Option Str) :=
  match tp.attributes.get a.name with
  | some value => some (some value)
  | none =>
    if tp.thumbnail then some none
    else if a.setting tp = -1 then none
    else if a.setting tp ≠ 0 then some (some (fromInt (a.setting tp)))
    else some none

/-- **What is read for the attribute**: the last profile in front that says something about it
    decides. -/
def seen (a : MediaAttribute) (stored : Option Str) (front : List TranscodingProfile) :
    Option Str :=
  nonEmpty ((front.reverse.findSome? fun tp => sets tp a).getD stored)

/-- The fourcc is not handed on. -/
def fourCCSeen (stored : Option Str) (front : List TranscodingProfile) : Option Str :=
  if front = [] then stored else none

section

variable {cfg : ResourceConfig} {item : CdsObject} {first : CdsResource} {rest : List CdsResource}
  {tp : TranscodingProfile} {before front : List TranscodingProfile} {a : MediaAttribute}
  {stored : Option Str}

theorem addTranscoded_cons (resources : List CdsResource) (profiles : List TranscodingProfile) :
    addTranscoded cfg item resources (tp :: profiles) =
      (generate cfg item resources tp).bind fun r =>
        addTranscoded cfg item (placeResource resources tp r) profiles := by
  unfold generate
  rw [addTranscoded]
  rcases tp.applies cfg item resources with e | applied
  · rfl
  · cases applied with
    | false => rfl
    | true =>
      rcases getResource resources 0 with e | first
      · rfl
      · rfl

/-- The fourcc of the first resource. -/
def fourCC (first : CdsResource) : Option Str := first.options.get (str "4cc")

theorem generate_eq : generate cfg item (first :: rest) tp =
    .ok (if passes cfg item (fourCC first) tp then some (transcodedResource first tp) else none) := by
  have happlies : tp.applies cfg item (first :: rest) = .ok (passes cfg item (fourCC first) tp) := by
    unfold TranscodingProfile.applies passes
    simp only
    split_ifs
    · rfl
    · rfl
    · rfl
  unfold generate
  rw [happlies]
  cases passes cfg item (fourCC first) tp with
  | false => rfl
  | true => rfl

/-! ## A transcoded resource as the first one -/

theorem name_ne_protocolInfo (a : MediaAttribute) : a.name ≠ protocolInfo := by
  cases a <;> decide

theorem get_putAll_rows (d m : Dictionary) (key : Str) :
    (d.putAll m.rows).get key = (m.get key).or (d.get key) := by
  rcases hm : m.get key with _ | value
  · apply Dictionary.get_putAll_of_notMem
    intro hmem
    obtain ⟨⟨_, value⟩, hel, rfl⟩ := List.mem_map.mp hmem
    rw [Dictionary.get_eq_some.mpr hel] at hm
    cases hm
  · exact @Dictionary.get_putAll d m.rows m.nodup (key, value) (Dictionary.get_eq_some.mp hm)

theorem get_putOpt (d : Dictionary) (key key' : Str) (value : Option Str) :
    (putOpt d key value).get key' = if key' = key then value.or (d.get key) else d.get key' := by
  cases value with
  | none =>
    show d.get key' = _
    split_ifs with heq
    · rw [heq]
      rfl
    · rfl
  | some v => exact Dictionary.get_put

/-- What the profile reads for the attribute. -/
def taken (first : CdsResource) (tp : TranscodingProfile) (a : MediaAttribute) : Option Str :=
  if tp.thumbnail then none else sourceOr first a.name (a.setting tp)

theorem get_transcodedResource (first : CdsResource) (tp : TranscodingProfile) (a : MediaAttribute) :
    (transcodedResource first tp).attributes.get a.name =
      (tp.attributes.get a.name).or (taken first tp a) := by
  unfold transcodedResource
  simp only
  rw [get_putAll_rows, Dictionary.get_put, if_neg (name_ne_protocolInfo a), get_putOpt, get_putOpt,
    get_putOpt]
  congr 1
  -- the three names are different
  have hds : str "duration" ≠ str "sampleFrequency" := by decide
  have hdn : str "duration" ≠ str "nrAudioChannels" := by decide
  have hsn : str "sampleFrequency" ≠ str "nrAudioChannels" := by decide
  unfold taken
  cases a with
  | duration =>
    simp only [MediaAttribute.name, MediaAttribute.setting, if_neg hds, if_neg hdn, get_putOpt,
      if_true]
    exact Option.or_none
  | sampleFrequency =>
    simp only [MediaAttribute.name, MediaAttribute.setting, if_neg hsn, get_putOpt, if_true,
      if_neg hds.symm]
    exact Option.or_none
  | nrAudioChannels =>
    simp only [MediaAttribute.name, MediaAttribute.setting, get_putOpt, if_true,
      if_neg hsn.symm, if_neg hdn.symm]
    exact Option.or_none

theorem fourCC_transcodedResource (first : CdsResource) (tp : TranscodingProfile) :
    fourCC (transcodedResource first tp) = none := by
  have hogg : str "4cc" ≠ str "ogg" := by decide
  have hrct : str "4cc" ≠ resourceContentType := by decide
  unfold fourCC transcodedResource
  simp only
  split_ifs
  · rw [Dictionary.get_put, if_neg hrct, Dictionary.get_put, if_neg hogg]
    rfl
  · rw [Dictionary.get_put, if_neg hogg]
    rfl

theorem nonEmpty_idem (s : Option Str) : nonEmpty (nonEmpty s) = nonEmpty s := by
  unfold nonEmpty
  by_cases hok : stringOk s = true
  · rw [if_pos hok, if_pos hok]
  · rw [if_neg hok]
    rfl

theorem sourceOr_source (first : CdsResource) (name : Str) :
    sourceOr first name (-1) = nonEmpty (first.attributes.get name) := by
  unfold sourceOr nonEmpty
  rw [if_pos rfl]
  rcases first.attributes.get name with _ | s
  · rfl
  · cases s with
    | nil => rfl
    | cons c s => rfl

/-- What is read of a transcoded resource: what its profile sets, or else what was read for it. -/
theorem nonEmpty_transcodedResource (first : CdsResource) (tp : TranscodingProfile)
    (a : MediaAttribute) : nonEmpty ((transcodedResource first tp).attributes.get a.name) =
      nonEmpty ((sets tp a).getD (first.attributes.get a.name)) := by
  rw [get_transcodedResource]
  unfold sets taken
  rcases tp.attributes.get a.name with _ | value
  · rw [Option.none_or]
    simp only
    split_ifs with hthumbnail hsource hoff
    · rfl
    · rw [hsource, sourceOr_source]
      exact nonEmpty_idem _
    · unfold sourceOr
      rw [if_neg hsource, if_pos hoff]
      rfl
    · unfold sourceOr
      rw [if_neg hsource, if_neg hoff]
      rfl
  · rfl

/-! ## The first resource along the list -/

/-- The first resource, when the profiles are through. -/
def firstAfter (cfg : ResourceConfig) (item : CdsObject) :
    CdsResource → List TranscodingProfile → CdsResource
  | first, [] => first
  | first, tp :: profiles =>
    if passes cfg item (fourCC first) tp && tp.firstResource then
      firstAfter cfg item (transcodedResource first tp) profiles
    else firstAfter cfg item first profiles

theorem addTranscoded_first (cfg : ResourceConfig) (item : CdsObject) (first : CdsResource)
    (rest : List CdsResource) (profiles : List TranscodingProfile) :
    ∃ rest', addTranscoded cfg item (first :: rest) profiles =
      .ok (firstAfter cfg item first profiles :: rest') := by
  induction profiles generalizing first rest with
  | nil => exact ⟨rest, rfl⟩
  | cons tp profiles ih =>
    rw [addTranscoded_cons, generate_eq]
    show ∃ rest', addTranscoded cfg item (placeResource (first :: rest) tp _) profiles = _
    unfold firstAfter
    by_cases hpasses : passes cfg item (fourCC first) tp = true
    · rw [if_pos hpasses, hpasses, Bool.true_and]
      unfold placeResource
      by_cases hfront : tp.firstResource = true
      · simp only [if_pos hfront]
        exact ih (transcodedResource first tp) (first :: rest)
      · simp only [if_neg hfront]
        exact ih first (rest ++ [transcodedResource first tp])
    · rw [if_neg hpasses, if_neg]
      · exact ih first rest
      · rw [Bool.and_eq_true]
        exact fun hboth => hpasses hboth.1

/-- **What later profiles read** is what the profiles in front say. -/
theorem firstAfter_seen (cfg : ResourceConfig) (item : CdsObject) (first : CdsResource)
    (profiles : List TranscodingProfile) :
    fourCC (firstAfter cfg item first profiles) =
        fourCCSeen (fourCC first) (inFront cfg item (fourCC first) profiles) ∧
      ∀ a : MediaAttribute, nonEmpty ((firstAfter cfg item first profiles).attributes.get a.name) =
        seen a (first.attributes.get a.name) (inFront cfg item (fourCC first) profiles) := by
  induction profiles generalizing first with
  | nil => exact ⟨rfl, fun _ => rfl⟩
  | cons tp profiles ih =>
    unfold firstAfter inFront
    by_cases hfront : (passes cfg item (fourCC first) tp && tp.firstResource) = true
    · rw [if_pos hfront, if_pos hfront]
      obtain ⟨hfourCC, hseen⟩ := ih (transcodedResource first tp)
      rw [fourCC_transcodedResource] at hfourCC hseen
      constructor
      · rw [hfourCC]
        unfold fourCCSeen
        rw [if_neg (List.cons_ne_nil _ _), ite_self]
      · intro a
        rw [hseen]
        unfold seen
        rw [List.reverse_cons, List.findSome?_append, List.findSome?_singleton]
        rcases (inFront cfg item none profiles).reverse.findSome? fun tp => sets tp a with _ | value
        · exact nonEmpty_transcodedResource first tp a
        · rfl
    · rw [if_neg hfront, if_neg hfront]
      exact ih first

/-- The ogg option is handed on: a comment in the source sees to it. -/
def oggOption (first : CdsResource) : Str := (first.options.get (str "ogg")).getD []

theorem oggOption_transcodedResource (first : CdsResource) (tp : TranscodingProfile) :
    oggOption (transcodedResource first tp) = oggOption first := by
  have hrct : str "ogg" ≠ resourceContentType := by decide
  have hoption : (transcodedResource first tp).options.get (str "ogg") =
      some (oggOption first) := by
    unfold transcodedResource
    simp only
    split_ifs
    · rw [Dictionary.get_put, if_neg hrct, Dictionary.get_put, if_pos rfl]
      rfl
    · rw [Dictionary.get_put, if_pos rfl]
      rfl
  show ((transcodedResource first tp).options.get (str "ogg")).getD [] = _
  rw [hoption]
  rfl

theorem oggOption_firstAfter (cfg : ResourceConfig) (item : CdsObject) (first : CdsResource)
    (profiles : List TranscodingProfile) :
    oggOption (firstAfter cfg item first profiles) = oggOption first := by
  induction profiles generalizing first with
  | nil => rfl
  | cons tp profiles ih =>
    unfold firstAfter
    split_ifs
    · exact (ih _).trans (oggOption_transcodedResource first tp)
    · exact ih first

/-! ## In its place, and alone -/

theorem taken_source (hsets : sets tp a = none) :
    taken first tp a = nonEmpty (first.attributes.get a.name) := by
  unfold sets at hsets
  unfold taken
  rcases hvalue : tp.attributes.get a.name with _ | value
  · simp only [hvalue] at hsets
    split_ifs at hsets with hthumbnail hsource
    rw [if_neg hthumbnail, hsource, sourceOr_source]
  · rw [hvalue] at hsets
    cases hsets

/-- What the profile sets itself does not depend on the first resource. -/
theorem taken_const {first' : CdsResource} (hattribute : tp.attributes.get a.name = none)
    (hsets : sets tp a ≠ none) : taken first' tp a = taken first tp a := by
  unfold sets at hsets
  simp only [hattribute] at hsets
  unfold taken
  by_cases hthumbnail : tp.thumbnail = true
  · rw [if_pos hthumbnail, if_pos hthumbnail]
  · rw [if_neg hthumbnail, if_neg hthumbnail]
    rw [if_neg hthumbnail] at hsets
    have hsource : a.setting tp ≠ -1 := fun hsource => hsets (if_pos hsource)
    unfold sourceOr
    rw [if_neg hsource, if_neg hsource]

/-- The attribute is the same for two first resources. -/
theorem get_same_iff {first' : CdsResource} :
    (transcodedResource first' tp).attributes.get a.name =
        (transcodedResource first tp).attributes.get a.name ↔
      (sets tp a = none →
        nonEmpty (first'.attributes.get a.name) = nonEmpty (first.attributes.get a.name)) := by
  rw [get_transcodedResource, get_transcodedResource]
  constructor
  · intro hsame hsets
    have hattribute : tp.attributes.get a.name = none := by
      rcases hvalue : tp.attributes.get a.name with _ | value
      · rfl
      · unfold sets at hsets
        rw [hvalue] at hsets
        cases hsets
    rw [hattribute, Option.none_or, Option.none_or, taken_source hsets, taken_source hsets] at hsame
    exact hsame
  · intro hsame
    rcases hvalue : tp.attributes.get a.name with _ | value
    · congr 1
      by_cases hsets : sets tp a = none
      · rw [taken_source hsets, taken_source hsets]
        exact hsame hsets
      · exact taken_const hvalue hsets
    · rfl

/-- The whole resource is made of what is read. -/
theorem transcodedResource_congr {first' : CdsResource}
    (hmedia : ∀ a, taken first' tp a = taken first tp a) (hogg : oggOption first' = oggOption first) :
    transcodedResource first' tp = transcodedResource first tp := by
  have hduration := hmedia .duration
  have hfreq := hmedia .sampleFrequency
  have hchan := hmedia .nrAudioChannels
  unfold taken MediaAttribute.name MediaAttribute.setting at hduration hfreq hchan
  unfold oggOption at hogg
  simp only at hduration hfreq hchan
  unfold transcodedResource
  simp only [hduration, hfreq, hchan, hogg]

/-- **The condition**: whether the profile is used, and what it takes from the source, is the same
    for the resource that the profiles in front leave there as for the stored one. -/
def Agrees (cfg : ResourceConfig) (item : CdsObject) (first : CdsResource)
    (before : List TranscodingProfile) (tp : TranscodingProfile) : Prop :=
  let front := inFront cfg item (fourCC first) before
  passes cfg item (fourCCSeen (fourCC first) front) tp = passes cfg item (fourCC first) tp ∧
    (passes cfg item (fourCC first) tp = true → ∀ a : MediaAttribute, sets tp a = none →
      seen a (first.attributes.get a.name) front = nonEmpty (first.attributes.get a.name))

theorem sameMedia_iff : SameMedia
      (if passes cfg item (fourCC (firstAfter cfg item first before)) tp then
        some (transcodedResource (firstAfter cfg item first before) tp) else none)
      (if passes cfg item (fourCC first) tp then some (transcodedResource first tp) else none) ↔
    Agrees cfg item first before tp := by
  obtain ⟨hfourCC, hseen⟩ := firstAfter_seen cfg item first before
  unfold Agrees SameMedia
  simp only
  rw [hfourCC]
  cases hstored : passes cfg item (fourCC first) tp with
  | false =>
    cases passes cfg item (fourCCSeen (fourCC first) (inFront cfg item (fourCC first) before)) tp with
    | false => exact ⟨fun _ => ⟨rfl, fun h => (nomatch h)⟩, fun _ => ⟨rfl, fun _ => rfl⟩⟩
    | true => exact ⟨fun h => (nomatch h.1), fun h => (nomatch h.1)⟩
  | true =>
    cases passes cfg item (fourCCSeen (fourCC first) (inFront cfg item (fourCC first) before)) tp with
    | false => exact ⟨fun h => (nomatch h.1), fun h => (nomatch h.1)⟩
    | true =>
      constructor
      · rintro ⟨-, hsame⟩
        refine ⟨rfl, fun _ a hsets => ?_⟩
        rw [← hseen]
        exact get_same_iff.mp (hsame a) hsets
      · rintro ⟨-, hagrees⟩
        refine ⟨rfl, fun a => get_same_iff.mpr fun hsets => ?_⟩
        rw [hseen]
        exact hagrees rfl a hsets

/-- **A profile makes in its place what it makes alone**, with respect to the media attributes, just
    when what it reads is the same; and then all of the resource is the same, unless the profile
    has such attributes of its own. -/
theorem generate_same (cfg : ResourceConfig) (item : CdsObject) (first : CdsResource)
    (rest : List CdsResource) (before : List TranscodingProfile) (tp : TranscodingProfile) :
    ∃ resources r r', addTranscoded cfg item (first :: rest) before = .ok resources ∧
      generate cfg item resources tp = .ok r ∧ generate cfg item (first :: rest) tp = .ok r' ∧
      (SameMedia r r' ↔ Agrees cfg item first before tp) ∧
      ((∀ a : MediaAttribute, tp.attributes.get a.name = none) →
        Agrees cfg item first before tp → r = r') := by
  obtain ⟨rest', hrest⟩ := addTranscoded_first cfg item first rest before
  refine ⟨_, _, _, hrest, generate_eq, generate_eq, sameMedia_iff, fun hattributes hagrees => ?_⟩
  obtain ⟨hfourCC, hseen⟩ := firstAfter_seen cfg item first before
  obtain ⟨hpasses, hmedia⟩ := hagrees
  rw [hfourCC, hpasses]
  by_cases hstored : passes cfg item (fourCC first) tp = true
  · rw [if_pos hstored, if_pos hstored]
    congr 1
    refine transcodedResource_congr (fun a => ?_) (oggOption_firstAfter cfg item first before)
    by_cases hsets : sets tp a = none
    · rw [taken_source hsets, taken_source hsets, hseen]
      exact hmedia hstored a hsets
    · exact taken_const (hattributes a) hsets
  · rw [if_neg hstored, if_neg hstored]

end

/-! ## A fixed sample frequency in front -/

def film : CdsObject :=
  { upnpClass := str "object.item.videoItem"
    kind := .item { mimeType := some (str "video/mpeg") } }

/-- 44.1 kHz. -/
def filmResource : CdsResource :=
  { handlerType := 0
    attributes := Dictionary.put .empty (str "sampleFrequency") (str "44100")
    parameters := .empty
    options := .empty }

/-- Its resource goes to the front, and has 48 kHz. -/
def fixedFrequency : TranscodingProfile :=
  { name := str "fixed", targetMimeType := str "video/mpeg", firstResource := true,
    sampleFreq := 48000 }

def sourceFrequency : TranscodingProfile :=
  { name := str "source", targetMimeType := str "video/mpeg" }

/-- The profile that takes over the frequency of the source has the one of the other profile. -/
theorem not_same : ¬ ∀ (cfg : ResourceConfig) (item : CdsObject) (first : CdsResource)
    (rest : List CdsResource) (before : List TranscodingProfile) (tp : TranscodingProfile)
    (resources : List CdsResource) (r r' : Option CdsResource),
    addTranscoded cfg item (first :: rest) before = .ok resources →
      generate cfg item resources tp = .ok r → generate cfg item (first :: rest) tp = .ok r' →
      SameMedia r r' := by
  intro hall
  obtain ⟨rest', hrest⟩ := addTranscoded_first ⟨[], .empty, [], none, true⟩ film filmResource []
    [fixedFrequency]
  have hsame := sameMedia_iff.mp
    (hall _ film filmResource [] [fixedFrequency] sourceFrequency _ _ _ hrest generate_eq generate_eq)
  have hseen := hsame.2 (by decide) .sampleFrequency (by decide)
  revert hseen
  decide

end MediaTomb.ProfileOrder
