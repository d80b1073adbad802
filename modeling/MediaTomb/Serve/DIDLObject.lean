/-
  What a player reads of an object (`upnp_xml.cc`), and where its texts are cut (`tools.cc`).

  DATA.     an object; a title or a description is a text in UTF-8.
  PROGRAM.  a text longer than the configured limit is cut three bytes before the limit and gets
            `...`.  `getValidUTF8CutPosition` looks back for the beginning of the character that is
            cut through, by masks: one on the byte before the cut, one on the byte before that, and
            three bytes back otherwise.
  RESULT.   the position is a boundary of characters EXACTLY where `CutFound` says
            (`getValidUTF8CutPosition_right_iff`), the last one before the cut where `CutLast` does.

  Two slips.  A cut right before a character that is not ASCII is one between characters, and the
  masks are not asked about it.  And `0xc2` and `0xe2` have the bit 1, which half of the lead bytes
  below `0xf0` have not (`MarkedLead`).

  Bytes in front of a text are read for a cut in front of its third byte: they are `before`.
-/
import MediaTomb.Content.UpdateObject
import MediaTomb.Lib.Utf8

namespace MediaTomb

open Lib.Utf8 (Tail Valid width)

/-! ## `getValidUTF8CutPosition` -/

/-- `charAt`: behind the text is its NUL, in front of it whatever is there. -/
def charAt (before : Nat → UInt8) (s : Str) : Int → UInt8
  | .ofNat i => s.getD i 0
  | .negSucc i => before i

/-- The masks for the first byte of two. -/
def leadsSecond (c : UInt8) : Bool :=
  c &&& 0xc2 == 0xc2 || c &&& 0xe2 == 0xe2 || c &&& 0xf0 == 0xf0

/-- The masks for the first byte of three. -/
def leadsThird (c : UInt8) : Bool := c &&& 0xe2 == 0xe2 || c &&& 0xf0 == 0xf0

/-- `getValidUTF8CutPosition`; `cutpos - 1` and so on are unsigned, so they are never below 0. -/
def getValidUTF8CutPosition (before : Nat → UInt8) (s : Str) (cutpos : Nat) : Int :=
  if s.length = 0 ∨ cutpos > s.length then -1
  else if charAt before s cutpos &&& 0x80 ≠ 0 then
    if leadsSecond (charAt before s (cutpos - 1)) then cutpos - 1
    else if leadsThird (charAt before s (cutpos - 2)) then cutpos - 2
    else cutpos - 3
  else cutpos

/-! ## `UpnpXML_DIDLRenderObject` -/

/-- `strncpy`: up to the first NUL, and NULs from there on. -/
def strncpy (s : Str) (count : Nat) : Str :=
  let t := (s.take count).takeWhile (· ≠ 0)
  t ++ List.replicate ((s.take count).length - t.length) 0

/-- `String::substring(0, count)`: nil for a negative count. -/
def substringHead (s : Str) (count : Int) : Option Str :=
  if count < 0 then none else some (strncpy s count.toNat)

def dots : Str := str "..."

/-- An `int` as a `size_t`. -/
def sizeT (x : Int) : Nat := if x < 0 then (x + 2 ^ 64).toNat else x.toNat

/-- A title or a description as it is sent. -/
def limited (before : Nat → UInt8) (stringLimit : Int) : Option Str → Option Str
  | none => none
  | some tmp =>
    if stringLimit > 0 ∧ (tmp.length : Int) > stringLimit then
      let head := substringHead tmp (getValidUTF8CutPosition before tmp (sizeT (stringLimit - 3)))
      some (head.getD [] ++ dots)
    else some tmp

/-- An element with its attributes and its text children. -/
structure DIDLElement where
  name : Str
  attributes : List (Str × Str)
  children : List (Str × Option Str)

def metaTitle : Str := str "dc:title"

def metaTrackNumber : Str := str "upnp:originalTrackNumber"

def upnpDefaultClassMusicTrack : Str := str "object.item.audioItem.musicTrack"

/-- The child for an element of the metadata. -/
def renderMetadata (before : Nat → UInt8) (stringLimit : Int) (upnpClass : Option Str)
    (el : Str × Str) : Option (Str × Option Str) :=
  if el.1 = metaDescription then some (el.1, limited before stringLimit (some el.2))
  else if el.1 = metaTrackNumber then
    if upnpClass = some upnpDefaultClassMusicTrack then some (el.1, some el.2) else none
  else if el.1 ≠ metaTitle ∨ (el.1 = metaTrackNumber ∧ upnpClass = some upnpDefaultClassMusicTrack)
  then some (el.1, some el.2)
  else none

/-- What an active item adds. -/
def renderActiveItem (obj : CdsObject) : List (Str × Option Str) :=
  match obj.kind with
  | .activeItem data action state =>
    [(str "action", action), (str "state", state), (str "location", obj.location),
      (str "mime-type", data.mimeType)]
  | _ => []

/-- The name of the element, and what a container adds to its attributes. -/
def renderKind : CdsKind → Str × List (Str × Str)
  | .container _ childCount _ =>
    (str "container",
      if childCount ≥ 0 then [(str "childCount", fromInt childCount)] else [])
  | _ => (str "item", [])

/-- `UpnpXML_DIDLRenderObject`, without the resources that `addResources` adds to an item. -/
def upnpXMLDIDLRenderObject (before : Nat → UInt8) (obj : CdsObject) (renderActions : Bool)
    (stringLimit : Int) : DIDLElement where
  name := (renderKind obj.kind).1
  attributes :=
    [(str "id", fromInt obj.id), (str "parentID", fromInt obj.parentID),
      (str "restricted", if obj.getFlag objectFlagRestricted then str "1" else str "0")]
      ++ (renderKind obj.kind).2
  children :=
    [(metaTitle, limited before stringLimit obj.title), (str "upnp:class", obj.upnpClass)]
      ++ (if isCdsItem obj.objectType then
            obj.metadata.rows.filterMap (renderMetadata before stringLimit obj.upnpClass)
          else [])
      ++ (if renderActions && isCdsActiveItem obj.objectType then renderActiveItem obj else [])

/-! ## What it is for -/

/-- A place where the text can be cut: what comes before is valid. -/
def Boundary (s : Str) (b : Nat) : Prop := b ≤ s.length ∧ Valid (s.take b)

/-- A boundary at the cut, or three bytes before it at most. -/
def CutAt (s : Str) (cutpos b : Nat) : Prop := Boundary s b ∧ b ≤ cutpos ∧ cutpos ≤ b + 3

/-- The titles and descriptions of an object that are sent. -/
def limitedTexts (obj : CdsObject) : List (Option Str) :=
  obj.title ::
    if isCdsItem obj.objectType then
      (obj.metadata.rows.filter (·.1 = metaDescription)).map fun el => some el.2
    else []

/-- The titles and descriptions that an element has. -/
def sentTexts (el : DIDLElement) : List (Option Str) :=
  (el.children.filter fun child => child.1 = metaTitle ∨ child.1 = metaDescription).map Prod.snd

/-- A lead byte that the masks know. -/
def MarkedLead (c : UInt8) : Prop := c &&& 2 ≠ 0 ∨ 0xF0 ≤ c.toNat

def AsciiAt (s : Str) (cutpos : Nat) : Prop := ∃ c, s[cutpos]? = some c ∧ c.toNat < 0x80

/-- The byte at the cut is the second one of a character that the masks know. -/
def MarkedSecond (s : Str) (cutpos : Nat) : Prop :=
  ∃ c, s[cutpos - 1]? = some c ∧ 0xC0 ≤ c.toNat ∧ MarkedLead c

/-- It is the third one. -/
def MarkedThird (s : Str) (cutpos : Nat) : Prop :=
  2 ≤ cutpos ∧ ∃ c, s[cutpos - 2]? = some c ∧ 0xE0 ≤ c.toNat ∧ MarkedLead c

/-- **Where the function finds a boundary**: the byte at the cut is ASCII, or the second or the
    third one of a character with a marked lead byte; or else no tail byte stands three bytes before
    the cut. -/
def CutFound (s : Str) (cutpos : Nat) : Prop :=
  AsciiAt s cutpos ∨ MarkedSecond s cutpos ∨ MarkedThird s cutpos ∨
    (3 ≤ cutpos ∧ ∃ c, s[cutpos - 3]? = some c ∧ ¬ Tail c)

/-- **Where it finds the last boundary**: the byte at the cut is ASCII, or the second or the third
    one of a character with a marked lead byte, or a fourth one. -/
def CutLast (s : Str) (cutpos : Nat) : Prop :=
  AsciiAt s cutpos ∨ MarkedSecond s cutpos ∨ MarkedThird s cutpos ∨
    (3 ≤ cutpos ∧ ∃ c, s[cutpos - 3]? = some c ∧ 0xF0 ≤ c.toNat)

/-! ## The masks -/

theorem forall_byte {p : UInt8 → Prop} (h : ∀ n : Fin 256, p (UInt8.ofNat n.val)) (c : UInt8) :
    p c := by
  have hc := h ⟨c.toNat, c.toNat_lt⟩
  rwa [UInt8.ofNat_toNat] at hc

instance : DecidablePred MarkedLead := fun _ => inferInstanceAs (Decidable (_ ∨ _))

theorem ascii_iff (c : UInt8) : c &&& 0x80 ≠ 0 ↔ 0x80 ≤ c.toNat :=
  forall_byte (p := fun c => c &&& 0x80 ≠ 0 ↔ 0x80 ≤ c.toNat) (by decide +kernel) c

theorem leadsSecond_iff (c : UInt8) : leadsSecond c = true ↔ 0xC0 ≤ c.toNat ∧ MarkedLead c :=
  forall_byte (p := fun c => leadsSecond c = true ↔ 0xC0 ≤ c.toNat ∧ MarkedLead c)
    (by decide +kernel) c

theorem leadsThird_iff (c : UInt8) : leadsThird c = true ↔ 0xE0 ≤ c.toNat ∧ MarkedLead c :=
  forall_byte (p := fun c => leadsThird c = true ↔ 0xE0 ≤ c.toNat ∧ MarkedLead c)
    (by decide +kernel) c

/-! ## One cut -/

section

variable {before : Nat → UInt8} {s : Str} {cutpos : Nat} {c : UInt8}

theorem charAt_sub {k : Nat} (hk : k ≤ cutpos) (h : s[cutpos - k]? = some c) :
    charAt before s (cutpos - k) = c := by
  have hcast : (cutpos : Int) - k = Int.ofNat (cutpos - k) := by
    rw [Int.ofNat_eq_natCast]
    omega
  rw [hcast]
  show s.getD (cutpos - k) 0 = c
  rw [List.getD_eq_getElem?_getD, h]
  rfl

theorem charAt_self (h : s[cutpos]? = some c) : charAt before s cutpos = c := by
  show s.getD cutpos 0 = c
  rw [List.getD_eq_getElem?_getD, h]
  rfl

/-- Which of the four positions it is. -/
theorem getValidUTF8CutPosition_cases (before : Nat → UInt8) (hpos : 0 < cutpos)
    (hlt : cutpos < s.length) :
    let pos := getValidUTF8CutPosition before s cutpos
    (AsciiAt s cutpos ∧ pos = cutpos) ∨
    (¬ AsciiAt s cutpos ∧ MarkedSecond s cutpos ∧ pos = cutpos - 1) ∨
    (¬ AsciiAt s cutpos ∧ ¬ MarkedSecond s cutpos ∧ (2 ≤ cutpos → MarkedThird s cutpos) ∧
      pos = cutpos - 2) ∨
    (¬ AsciiAt s cutpos ∧ ¬ MarkedSecond s cutpos ∧ ¬ MarkedThird s cutpos ∧
      pos = cutpos - 3) := by
  intro pos
  have h0 : s[cutpos]? = some s[cutpos] := List.getElem?_eq_getElem hlt
  have hlt1 : cutpos - 1 < s.length := by omega
  have h1 : s[cutpos - 1]? = some s[cutpos - 1] := List.getElem?_eq_getElem hlt1
  have hascii : AsciiAt s cutpos ↔ ¬ s[cutpos] &&& 0x80 ≠ 0 := by
    rw [ascii_iff, AsciiAt, h0]
    simp
  have hsecond : MarkedSecond s cutpos ↔ leadsSecond s[cutpos - 1] = true := by
    rw [leadsSecond_iff, MarkedSecond, h1]
    simp
  have hpos' : pos = getValidUTF8CutPosition before s cutpos := rfl
  have hone : charAt before s ((cutpos : Int) - 1) = s[cutpos - 1] :=
    charAt_sub (k := 1) (by omega) h1
  rw [getValidUTF8CutPosition, if_neg (by omega), charAt_self h0, hone] at hpos'
  by_cases hA : AsciiAt s cutpos
  · rw [if_neg (hascii.1 hA)] at hpos'
    exact Or.inl ⟨hA, hpos'⟩
  · rw [if_pos (not_not.1 fun h => hA (hascii.2 h))] at hpos'
    by_cases hS : MarkedSecond s cutpos
    · rw [if_pos (hsecond.1 hS)] at hpos'
      exact Or.inr (Or.inl ⟨hA, hS, hpos'⟩)
    · rw [if_neg (fun h => hS (hsecond.2 h))] at hpos'
      have hthird : 2 ≤ cutpos →
          (MarkedThird s cutpos ↔ leadsThird (charAt before s (cutpos - 2)) = true) := by
        intro htwo
        have h2 : s[cutpos - 2]? = some s[cutpos - 2] := List.getElem?_eq_getElem (by omega)
        have hc2 : charAt before s ((cutpos : Int) - 2) = s[cutpos - 2] :=
          charAt_sub (k := 2) htwo h2
        rw [hc2, leadsThird_iff, MarkedThird, h2]
        simp [htwo]
      by_cases hT : leadsThird (charAt before s (cutpos - 2)) = true
      · rw [if_pos hT] at hpos'
        exact Or.inr (Or.inr (Or.inl ⟨hA, hS, fun htwo => (hthird htwo).2 hT, hpos'⟩))
      · rw [if_neg hT] at hpos'
        refine Or.inr (Or.inr (Or.inr ⟨hA, hS, ?_, hpos'⟩))
        exact fun h => hT ((hthird h.1).1 h)

/-- A place inside the text is a boundary when no tail byte stands there. -/
theorem boundary_iff {b : Nat} (hs : Valid s) (hb : s[b]? = some c) :
    Boundary s b ↔ ¬ Tail c := by
  have hlt : b < s.length := (List.getElem?_eq_some_iff.1 hb).1
  rw [Boundary, hs.take_iff hb]
  exact and_iff_right hlt.le

theorem boundary_zero : Boundary s 0 := ⟨Nat.zero_le _, Lib.Utf8.valid_nil⟩

theorem not_tail_of_ascii (h : c.toNat < 0x80) : ¬ Tail c := fun ht => by
  have := ht.1
  omega

theorem not_tail_of_lead (h : 0xC0 ≤ c.toNat) : ¬ Tail c := fun ht => by
  have := ht.2
  omega

/-- The function finds a boundary exactly where it says. -/
theorem cutFound_iff (before : Nat → UInt8) (hs : Valid s) (hpos : 0 < cutpos)
    (hlt : cutpos < s.length) :
    (∃ b : Nat, getValidUTF8CutPosition before s cutpos = b ∧ CutAt s cutpos b) ↔
      CutFound s cutpos := by
  rcases getValidUTF8CutPosition_cases before hpos hlt with
    ⟨hA, hr⟩ | ⟨hA, hS, hr⟩ | ⟨hA, hS, hT, hr⟩ | ⟨hA, hS, hT, hr⟩
  · refine iff_of_true ⟨cutpos, hr, ?_, le_rfl, by omega⟩ (Or.inl hA)
    obtain ⟨c, hc, hlow⟩ := hA
    exact (boundary_iff hs hc).2 (not_tail_of_ascii hlow)
  · refine iff_of_true ⟨cutpos - 1, by omega, ?_, by omega, by omega⟩ (Or.inr (Or.inl hS))
    obtain ⟨c, hc, hlead, _⟩ := hS
    exact (boundary_iff hs hc).2 (not_tail_of_lead hlead)
  · by_cases htwo : 2 ≤ cutpos
    · have hT := hT htwo
      refine iff_of_true ⟨cutpos - 2, by omega, ?_, by omega, by omega⟩
        (Or.inr (Or.inr (Or.inl hT)))
      obtain ⟨_, c, hc, hlead, _⟩ := hT
      exact (boundary_iff hs hc).2 (not_tail_of_lead (by omega))
    · refine iff_of_false ?_ ?_
      · rintro ⟨b, hb, _⟩
        omega
      · rintro (h | h | h | h)
        · exact hA h
        · exact hS h
        · exact htwo h.1
        · exact htwo (by omega)
  · by_cases hthree : 3 ≤ cutpos
    · have h3 : s[cutpos - 3]? = some s[cutpos - 3] := List.getElem?_eq_getElem (by omega)
      constructor
      · rintro ⟨b, hb, hbound, _⟩
        obtain rfl : b = cutpos - 3 := by omega
        exact Or.inr (Or.inr (Or.inr ⟨hthree, _, h3, (boundary_iff hs h3).1 hbound⟩))
      · rintro (h | h | h | ⟨_, c, hc, hnot⟩)
        · exact absurd h hA
        · exact absurd h hS
        · exact absurd h hT
        · exact ⟨cutpos - 3, by omega, (boundary_iff hs hc).2 hnot, by omega, by omega⟩
    · refine iff_of_false ?_ ?_
      · rintro ⟨b, hb, _⟩
        omega
      · rintro (h | h | h | h)
        · exact hA h
        · exact hS h
        · exact hT h
        · exact hthree h.1

/-- No boundary stands between a lead byte and the last of its tail bytes. -/
theorem not_boundary_behind {i k : Nat} (hs : Valid s) (hc : s[i]? = some c) (hk : 0 < k)
    (hwidth : k < width c) : ¬ Boundary s (i + k) := by
  obtain ⟨b, hb, htail⟩ := hs.tail_of_lead hc hk hwidth
  rw [boundary_iff hs hb]
  exact not_not.2 htail

/-- The last boundary up to the cut, by what stands behind it. -/
theorem greatest_boundary {k : Nat} (hk : k ≤ cutpos) (hb : Boundary s (cutpos - k))
    (hno : ∀ j < k, ¬ Boundary s (cutpos - j)) :
    IsGreatest {b | b ≤ cutpos ∧ Boundary s b} (cutpos - k) := by
  refine ⟨⟨by omega, hb⟩, ?_⟩
  rintro b ⟨hle, hbound⟩
  by_contra hgt
  refine hno (cutpos - b) (by omega) ?_
  have heq : cutpos - (cutpos - b) = b := by omega
  rw [heq]
  exact hbound

/-- With a lead byte `k` places before the cut, of a character that goes on there, the boundary
    there is the last one. -/
theorem greatest_of_lead {k : Nat} (hs : Valid s) (hk : k ≤ cutpos)
    (hc : s[cutpos - k]? = some c) (hlead : 0xC0 ≤ c.toNat) (hwidth : k < width c) :
    IsGreatest {b | b ≤ cutpos ∧ Boundary s b} (cutpos - k) := by
  refine greatest_boundary hk ((boundary_iff hs hc).2 (not_tail_of_lead hlead)) ?_
  intro j hj
  have hplace : cutpos - j = cutpos - k + (k - j) := by omega
  rw [hplace]
  exact not_boundary_behind hs hc (by omega) (by omega)

/-- The function finds the last boundary exactly where it says. -/
theorem cutLast_iff (before : Nat → UInt8) (hs : Valid s) (hpos : 0 < cutpos)
    (hlt : cutpos < s.length) :
    (∃ b : Nat, getValidUTF8CutPosition before s cutpos = b ∧
        IsGreatest {b | b ≤ cutpos ∧ Boundary s b} b) ↔ CutLast s cutpos := by
  rcases getValidUTF8CutPosition_cases before hpos hlt with
    ⟨hA, hr⟩ | ⟨hA, hS, hr⟩ | ⟨hA, hS, hT, hr⟩ | ⟨hA, hS, hT, hr⟩
  · refine iff_of_true ⟨cutpos, hr, ?_⟩ (Or.inl hA)
    obtain ⟨c, hc, hlow⟩ := hA
    refine greatest_boundary (k := 0) (Nat.zero_le _) ?_ (fun j hj => absurd hj (Nat.not_lt_zero j))
    exact (boundary_iff hs hc).2 (not_tail_of_ascii hlow)
  · refine iff_of_true ⟨cutpos - 1, by omega, ?_⟩ (Or.inr (Or.inl hS))
    obtain ⟨c, hc, hlead, _⟩ := hS
    exact greatest_of_lead hs (by omega) hc hlead (Lib.Utf8.one_lt_width.2 hlead)
  · by_cases htwo : 2 ≤ cutpos
    · have hT := hT htwo
      refine iff_of_true ⟨cutpos - 2, by omega, ?_⟩ (Or.inr (Or.inr (Or.inl hT)))
      obtain ⟨_, c, hc, hlead, _⟩ := hT
      exact greatest_of_lead hs htwo hc (by omega) (Lib.Utf8.two_lt_width.2 hlead)
    · refine iff_of_false ?_ ?_
      · rintro ⟨b, hb, _⟩
        omega
      · rintro (h | h | h | h)
        · exact hA h
        · exact hS h
        · exact htwo h.1
        · exact htwo (by omega)
  · constructor
    · rintro ⟨b, hb, ⟨_, hbound⟩, hgreat⟩
      have hthree : 3 ≤ cutpos := by omega
      obtain rfl : b = cutpos - 3 := by omega
      have hno : ∀ j < 3, ¬ Boundary s (cutpos - j) := by
        intro j hj hbj
        have := hgreat ⟨Nat.sub_le _ _, hbj⟩
        omega
      -- so the byte at the cut belongs to a character that begins three bytes before
      have h0 : s[cutpos]? = some s[cutpos] := List.getElem?_eq_getElem hlt
      have htail : Tail s[cutpos] := by
        have h := hno 0 (by omega)
        rw [Nat.sub_zero, boundary_iff hs h0] at h
        exact not_not.1 h
      obtain ⟨k, a, hk, hki, ha, hwidth⟩ := hs.lead_of_tail h0 htail
      have hlead : 0xC0 ≤ a.toNat := Lib.Utf8.one_lt_width.1 (by omega)
      have hba : Boundary s (cutpos - k) := (boundary_iff hs ha).2 (not_tail_of_lead hlead)
      have hge : 3 ≤ k := by
        by_contra hlt'
        exact hno k (by omega) hba
      obtain rfl : k = 3 := by
        have := Lib.Utf8.width_le a
        omega
      exact Or.inr (Or.inr (Or.inr ⟨hthree, a, ha, Lib.Utf8.three_lt_width.1 hwidth⟩))
    · rintro (h | h | h | ⟨hthree, c, hc, hlead⟩)
      · exact absurd h hA
      · exact absurd h hS
      · exact absurd h hT
      · exact ⟨cutpos - 3, by omega,
          greatest_of_lead hs hthree hc (by omega) (Lib.Utf8.three_lt_width.2 hlead)⟩

end

/-! ## The texts of an object -/

section

variable {before : Nat → UInt8} {s : Str}

theorem strncpy_eq {count : Nat} (h : 0 ∉ s.take count) : strncpy s count = s.take count := by
  have hall : (s.take count).takeWhile (· ≠ 0) = s.take count := by
    rw [List.takeWhile_eq_self_iff]
    intro c hc
    exact decide_eq_true fun hzero => h (by rw [← hzero]; exact hc)
  rw [strncpy]
  simp only [hall, Nat.sub_self, List.replicate_zero, List.append_nil]

/-- A text longer than the limit. -/
theorem limited_long (before : Nat → UInt8) {limit : Nat} (hlimit : 3 < limit)
    (hlen : limit < s.length) :
    limited before limit (some s) =
      some ((substringHead s (getValidUTF8CutPosition before s (limit - 3))).getD [] ++ dots) := by
  have hcut : sizeT ((limit : Int) - 3) = limit - 3 := by
    rw [sizeT, if_neg (by omega)]
    omega
  rw [limited, if_pos (by omega)]
  simp only [hcut]

/-- It is cut where the function says, and to nothing where that is in front of the text. -/
theorem limited_iff (before : Nat → UInt8) (hs : Valid s) {limit : Nat} (hlimit : 3 < limit)
    (hlen : limit < s.length) (hnul : 0 ∉ s.take (limit - 3)) :
    (∃ b, limited before limit (some s) = some (s.take b ++ dots) ∧ CutAt s (limit - 3) b) ↔
      limit < 6 ∨ CutFound s (limit - 3) := by
  have hpos : 0 < limit - 3 := by omega
  have hlt : limit - 3 < s.length := by omega
  rw [limited_long before hlimit hlen]
  by_cases hneg : getValidUTF8CutPosition before s (limit - 3) < 0
  · have hsix : limit < 6 := by
      rcases getValidUTF8CutPosition_cases before hpos hlt with
        ⟨_, hp⟩ | ⟨_, _, hp⟩ | ⟨_, _, _, hp⟩ | ⟨_, _, _, hp⟩
      all_goals
        rw [hp] at hneg
        omega
    refine iff_of_true ⟨0, ?_, boundary_zero, Nat.zero_le _, by omega⟩ (Or.inl hsix)
    rw [substringHead, if_pos hneg]
    rfl
  · obtain ⟨r, hr⟩ := Int.eq_ofNat_of_zero_le (not_lt.1 hneg)
    have hle : r ≤ limit - 3 := by
      rcases getValidUTF8CutPosition_cases before hpos hlt with
        ⟨_, hp⟩ | ⟨_, _, hp⟩ | ⟨_, _, _, hp⟩ | ⟨_, _, _, hp⟩
      all_goals
        rw [hp] at hr
        omega
    have hcopy : strncpy s r = s.take r := by
      refine strncpy_eq fun hzero => hnul ?_
      exact (List.take_prefix_take_left hle).subset hzero
    have hfound := cutFound_iff before hs hpos hlt
    rw [substringHead, if_neg hneg, hr, Int.toNat_natCast]
    show (∃ b, some (strncpy s r ++ dots) = some (s.take b ++ dots) ∧ _) ↔ _
    rw [hcopy]
    constructor
    · rintro ⟨b, heq, hcut⟩
      have htake : s.take r = s.take b := List.append_cancel_right (Option.some.inj heq)
      have hrb : r = b := by
        have hlength := congrArg List.length htake
        rw [List.length_take, List.length_take] at hlength
        have := hcut.1.1
        omega
      exact Or.inr (hfound.1 ⟨r, hr, by rw [hrb]; exact hcut⟩)
    · rintro (hsix | hC)
      · -- so near the front, what is not in front of the text is one of the right positions
        have hC : CutFound s (limit - 3) := by
          have hcases := getValidUTF8CutPosition_cases before hpos hlt
          simp only at hcases
          rcases hcases with ⟨h, _⟩ | ⟨_, h, _⟩ | ⟨_, _, h, hp⟩ | ⟨_, _, _, hp⟩
          · exact Or.inl h
          · exact Or.inr (Or.inl h)
          · exact Or.inr (Or.inr (Or.inl (h (by omega))))
          · omega
        obtain ⟨b, hb, hcut⟩ := hfound.2 hC
        obtain rfl : r = b := by omega
        exact ⟨r, rfl, hcut⟩
      · obtain ⟨b, hb, hcut⟩ := hfound.2 hC
        obtain rfl : r = b := by omega
        exact ⟨r, rfl, hcut⟩

end

/-- A text child is sent under the key it has. -/
theorem renderMetadata_key {before : Nat → UInt8} {limit : Int} {upnpClass : Option Str}
    {el : Str × Str} {child : Str × Option Str}
    (h : renderMetadata before limit upnpClass el = some child) :
    child.1 = el.1 ∧ el.1 ≠ metaTitle := by
  have hdesc : metaDescription ≠ metaTitle := by decide
  have htrack : metaTrackNumber ≠ metaTitle := by decide
  rw [renderMetadata] at h
  split at h
  · next heq =>
    cases h
    exact ⟨rfl, by rw [heq]; exact hdesc⟩
  · split at h
    · next heq =>
      split at h
      · cases h
        exact ⟨rfl, by rw [heq]; exact htrack⟩
      · cases h
    · next hne =>
      split at h
      · next hor =>
        cases h
        refine ⟨rfl, ?_⟩
        rcases hor with hnot | hand
        · exact hnot
        · exact absurd hand.1 hne
      · cases h

/-- The descriptions among the children for the metadata. -/
theorem sent_metadata (before : Nat → UInt8) (limit : Int) (upnpClass : Option Str)
    (rows : List (Str × Str)) :
    ((rows.filterMap (renderMetadata before limit upnpClass)).filter fun child =>
        child.1 = metaTitle ∨ child.1 = metaDescription).map Prod.snd =
      ((rows.filter (·.1 = metaDescription)).map fun el => some el.2).map
        (limited before limit) := by
  induction rows with
  | nil => rfl
  | cons el rows ih =>
    by_cases hkey : el.1 = metaDescription
    · have hchild : renderMetadata before limit upnpClass el
          = some (el.1, limited before limit (some el.2)) := if_pos hkey
      rw [List.filterMap_cons_some hchild, List.filter_cons_of_pos (by simp [hkey]),
        List.filter_cons_of_pos (by simp [hkey])]
      exact congrArg (limited before limit (some el.2) :: ·) ih
    · rw [List.filter_cons_of_neg (by simpa using hkey)]
      cases hchild : renderMetadata before limit upnpClass el with
      | none =>
        rw [List.filterMap_cons_none hchild]
        exact ih
      | some child =>
        obtain ⟨hsame, htitle⟩ := renderMetadata_key hchild
        rw [List.filterMap_cons_some hchild,
          List.filter_cons_of_neg (by simp [hsame, htitle, hkey])]
        exact ih

theorem sent_activeItem (obj : CdsObject) :
    (renderActiveItem obj).filter (fun child =>
      child.1 = metaTitle ∨ child.1 = metaDescription) = [] := by
  have hkeys : ∀ key ∈ [str "action", str "state", str "location", str "mime-type"],
      ¬ (key = metaTitle ∨ key = metaDescription) := by decide
  rw [List.filter_eq_nil_iff]
  intro child hchild
  rw [renderActiveItem] at hchild
  split at hchild
  · have hkey := hkeys child.1 (by simpa using List.mem_map_of_mem (f := Prod.fst) hchild)
    exact fun h => hkey (of_decide_eq_true h)
  · cases hchild

/-- **The titles and descriptions are sent one for one**, each limited. -/
theorem sentTexts_eq (before : Nat → UInt8) (obj : CdsObject) (renderActions : Bool)
    (limit : Int) :
    sentTexts (upnpXMLDIDLRenderObject before obj renderActions limit) =
      (limitedTexts obj).map (limited before limit) := by
  have hclass : ¬ (str "upnp:class" = metaTitle ∨ str "upnp:class" = metaDescription) := by decide
  have hactive : (if renderActions && isCdsActiveItem obj.objectType then renderActiveItem obj
      else []).filter (fun child => child.1 = metaTitle ∨ child.1 = metaDescription) = [] := by
    split
    · exact sent_activeItem obj
    · rfl
  rw [sentTexts, upnpXMLDIDLRenderObject]
  simp only [List.filter_append, hactive, List.append_nil]
  rw [List.filter_cons_of_pos (by simp), List.filter_cons_of_neg (by simpa using hclass),
    List.filter_nil, List.map_append, limitedTexts, List.map_cons, List.map_cons, List.map_nil]
  by_cases hitem : isCdsItem obj.objectType = true
  · rw [if_pos hitem, if_pos hitem, sent_metadata]
    rfl
  · rw [if_neg hitem, if_neg hitem]
    rfl

/-! ## Every text and every cut -/

theorem valid_dots : Valid dots := ⟨['.', '.', '.'], by decide⟩

/-- **The cut positions and the texts that are sent.**  For a valid text, the function finds a
    boundary at or shortly before the cut, and the last one, exactly where `CutFound` and `CutLast`
    say; a title or a description is sent up to such a boundary, and so is valid, exactly where
    `CutFound` says, or where the limit is so small that nothing at all may be left of it. -/
theorem cut_right_iff (before : Nat → UInt8) (s : Str) (hs : Valid s) :
    (∀ cutpos, 0 < cutpos → cutpos < s.length →
      ((∃ b : Nat, getValidUTF8CutPosition before s cutpos = b ∧ CutAt s cutpos b) ↔
        CutFound s cutpos) ∧
      ((∃ b : Nat, getValidUTF8CutPosition before s cutpos = b ∧
          IsGreatest {b | b ≤ cutpos ∧ Boundary s b} b) ↔ CutLast s cutpos)) ∧
    (∀ (obj : CdsObject) (renderActions : Bool) (limit i : Nat), 3 < limit → limit < s.length →
      0 ∉ s.take (limit - 3) → (limitedTexts obj)[i]? = some (some s) →
      ((∃ b, (sentTexts (upnpXMLDIDLRenderObject before obj renderActions limit))[i]?
            = some (some (s.take b ++ dots)) ∧ CutAt s (limit - 3) b ∧
              Valid (s.take b ++ dots)) ↔
        limit < 6 ∨ CutFound s (limit - 3))) := by
  refine ⟨?_, ?_⟩
  · intro cutpos hpos hlt
    exact ⟨cutFound_iff before hs hpos hlt, cutLast_iff before hs hpos hlt⟩
  · intro obj renderActions limit i hlimit hlen hnul hget
    rw [sentTexts_eq, List.getElem?_map, hget, ← limited_iff before hs hlimit hlen hnul]
    refine exists_congr fun b => ?_
    simp only [Option.map_some, Option.some.injEq]
    refine and_congr_right fun _ => ?_
    exact and_iff_left_of_imp fun hcut => hcut.1.2.append valid_dots

/-- Cut through the third of six characters with the lead byte `c3`. -/
theorem cut_right_iff_marked :
    let s : Str := [0xC3, 0xA9, 0xC3, 0xA9, 0xC3, 0xA9, 0xC3, 0xA9, 0xC3, 0xA9, 0xC3, 0xA9]
    let obj : CdsObject := { title := some s, upnpClass := none, kind := .item {} }
    (∃ b : Nat, getValidUTF8CutPosition (fun _ => 0) s 5 = b ∧ CutAt s 5 b) ∧
    ∃ b, (sentTexts (upnpXMLDIDLRenderObject (fun _ => 0) obj false (8 : Nat)))[0]?
      = some (some (s.take b ++ dots)) ∧ CutAt s 5 b ∧ Valid (s.take b ++ dots) := by
  intro s obj
  have hs : Valid s := ⟨['é', 'é', 'é', 'é', 'é', 'é'], by decide⟩
  have hfound : CutFound s 5 := Or.inr (Or.inl ⟨0xC3, rfl, by decide, by decide⟩)
  have hall := cut_right_iff (fun _ => 0) s hs
  refine ⟨(hall.1 5 (by decide) (by decide)).1.2 hfound, ?_⟩
  exact (hall.2 obj false 8 0 (by decide) (by decide) (by decide) rfl).2 (Or.inr hfound)

/-- Cut between the second and the third of five characters with the lead byte `c4`: the title is
    sent with half of the first one. -/
theorem cut_at_boundary_moved :
    let s : Str := [0xC4, 0x80, 0xC4, 0x80, 0xC4, 0x80, 0xC4, 0x80, 0xC4, 0x80]
    let obj : CdsObject := { title := some s, upnpClass := none, kind := .item {} }
    Valid s ∧ Boundary s 4 ∧ getValidUTF8CutPosition (fun _ => 0) s 4 = 1 ∧ ¬ Boundary s 1 ∧
    (sentTexts (upnpXMLDIDLRenderObject (fun _ => 0) obj false 7))[0]?
      = some (some (0xC4 :: dots)) ∧
    ¬ ∃ b, (sentTexts (upnpXMLDIDLRenderObject (fun _ => 0) obj false 7))[0]?
      = some (some (s.take b ++ dots)) ∧ CutAt s 4 b := by
  intro s obj
  have hs : Valid s := ⟨['Ā', 'Ā', 'Ā', 'Ā', 'Ā'], by decide⟩
  have hone : ¬ Boundary s 1 := by
    rw [boundary_iff hs (c := 0x80) rfl]
    decide
  have hsent : (sentTexts (upnpXMLDIDLRenderObject (fun _ => 0) obj false 7))[0]?
      = some (some (0xC4 :: dots)) := by decide
  refine ⟨hs, (boundary_iff hs (c := 0xC4) rfl).2 (by decide), by decide, hone, hsent, ?_⟩
  rintro ⟨b, heq, hcut⟩
  rw [hsent] at heq
  have hlength := congrArg List.length (Option.some.inj (Option.some.inj heq))
  rw [List.length_append, List.length_take, List.length_cons] at hlength
  have hb : b = 1 := by
    have : b ≤ s.length := hcut.1.1
    omega
  exact hone (hb ▸ hcut.1)

end MediaTomb
