/-
  The size of a picture (`jpeg_resolution.cc`).

  DATA.     a stream: its bytes, and how many of them each `read` delivers.  A `read` delivers at
            least one of the bytes that are left, and behind the last one it delivers none.
  PROGRAM.  after the two bytes of the start, one SEGMENT after the other: padding, a marker, a
            length of two bytes that counts itself, and up to sixteen bytes of the segment in a
            buffer; the others are skipped by a seek, which may go behind the end.
  RESULT.   the walk ends, and width and height are those of the first frame segment, exactly if
            that segment has the seven bytes they stand in (`getJpegResolution_iff`).

  `ioh_fgetc` gives 0 where the stream has no byte left.  That can not be mistaken for a segment:
  two such bytes make a length below 2, and one makes a length whose segment is not there.
-/
import MediaTomb.Common

namespace MediaTomb

/-! ## The stream -/

/-- The bytes of a stream, and how many a `read` of a length at a place delivers. -/
structure ByteStream where
  bytes : Str
  chunk : Nat → Nat → Nat

namespace ByteStream

/-- `read`: no more than are asked for, and at least one of those that are left. -/
def read (ioh : ByteStream) (pos length : Nat) : Str :=
  (ioh.bytes.drop pos).take (min length (max 1 (ioh.chunk pos length)))

/-- `ioh_fgetc`: the byte and the place behind it. -/
def fgetc (ioh : ByteStream) (pos : Nat) : UInt8 × Nat :=
  match ioh.read pos 1 with
  | [] => (0, pos)
  | c :: _ => (c, pos + 1)

end ByteStream

/-! ## The program -/

def mSOI : UInt8 := 0xd8

def mEOI : UInt8 := 0xd9

/-- The markers of frames; c4, c8 and cc are none. -/
def sofMarkers : List UInt8 :=
  [0xc0, 0xc1, 0xc2, 0xc3, 0xc5, 0xc6, 0xc7, 0xc9, 0xca, 0xcb, 0xcd, 0xce, 0xcf]

def itemBufSize : Nat := 16

/-- `Get16m`. -/
def get16m (hi lo : UInt8) : Nat := hi.toNat <<< 8 ||| lo.toNat

def jpegException (text : String) : Exception := .exception (str ("get_jpeg_resolution: " ++ text))

/-- The loop over the padding, with so many bytes left to it. -/
def readMarker (ioh : ByteStream) : Nat → Nat → Except Exception (UInt8 × Nat)
  | 0, _ => .error (jpegException "too many padding bytes")
  | left + 1, pos =>
    let (marker, pos) := ioh.fgetc pos
    if marker ≠ 0xff then .ok (marker, pos) else readMarker ioh left pos

/-- A segment as it has been read: the marker, the buffer, and the place behind it. -/
structure JpegItem where
  marker : UInt8
  data : Nat → UInt8
  next : Nat

/-- The first half of a round.  What the buffer holds before anything is read into it is `memory`. -/
def readItem (memory : Nat → UInt8) (ioh : ByteStream) (pos : Nat) : Except Exception JpegItem :=
  match readMarker ioh 7 pos with
  | .error e => .error e
  | .ok (marker, pos) =>
    let (lh, pos) := ioh.fgetc pos
    let (ll, pos) := ioh.fgetc pos
    let length := get16m lh ll
    if length < 2 then .error (jpegException "invalid marker")
    else
      let skip := if itemBufSize < length then length - itemBufSize else 0
      let itemlen := if itemBufSize < length then itemBufSize else length
      let got := ioh.read pos (itemlen - 2)
      if got.length ≠ itemlen - 2 then .error (jpegException "Premature end of file?")
      else
        .ok
          { marker := marker
            data := fun i =>
              if i = 0 then lh else if i = 1 then ll else (got[i - 2]?).getD (memory i)
            next := pos + got.length + skip }

/-- The loop; `none` when it has not ended. -/
def jpegLoop (memory : Nat → Nat → UInt8) (ioh : ByteStream) :
    Nat → Nat → Option (Except Exception (Nat × Nat))
  | 0, _ => none
  | fuel + 1, pos =>
    match readItem (memory pos) ioh pos with
    | .error e => some (.error e)
    | .ok item =>
      if item.marker = mEOI then some (.error (jpegException "No image in jpeg!"))
      else if item.marker ∈ sofMarkers then
        some (.ok (get16m (item.data 5) (item.data 6), get16m (item.data 3) (item.data 4)))
      else jpegLoop memory ioh fuel item.next

/-- `get_jpeg_resolution`: width and height.  `memory` is what the uninitialised buffer holds in
    the round that starts at a place. -/
def getJpegResolution (memory : Nat → Nat → UInt8) (ioh : ByteStream) :
    Option (Except Exception (Nat × Nat)) :=
  let (a, pos) := ioh.fgetc 0
  if a ≠ 0xff then some (.error (jpegException "could not read jpeg specs"))
  else
    let (b, pos) := ioh.fgetc pos
    if b ≠ mSOI then some (.error (jpegException "could not read jpeg specs"))
    else jpegLoop memory ioh (ioh.bytes.length + 1) pos

/-! ## Segments -/

/-- **A segment**: at most six bytes of padding, the marker, and at `start` the two bytes of its
    length. -/
structure SegmentAt (bytes : Str) (pos : Nat) (marker : UInt8) (start len : Nat) : Prop where
  behind : pos < start
  padding : start ≤ pos + 7
  padded : ∀ i, pos ≤ i → i + 1 < start → bytes[i]? = some 0xff
  marked : bytes[start - 1]? = some marker
  no_padding : marker ≠ 0xff
  length : ∃ lh ll, bytes[start]? = some lh ∧ bytes[start + 1]? = some ll ∧ len = get16m lh ll
  long : 2 ≤ len

/-- What the buffer takes of the segment comes in one `read`. -/
def Arrives (ioh : ByteStream) (start len : Nat) : Prop :=
  (ioh.read (start + 2) (min len itemBufSize - 2)).length = min len itemBufSize - 2

/-- **The first frame segment** that a walk from `pos` comes to. -/
inductive FirstFrame (ioh : ByteStream) : Nat → Nat → Nat → Prop where
  | here {pos marker start len} : SegmentAt ioh.bytes pos marker start len →
      Arrives ioh start len → marker ∈ sofMarkers → FirstFrame ioh pos start len
  | later {pos marker start' len' start len} : SegmentAt ioh.bytes pos marker start' len' →
      Arrives ioh start' len' → marker ≠ mEOI → marker ∉ sofMarkers →
      FirstFrame ioh (start' + len') start len → FirstFrame ioh pos start len

/-- A number of two bytes, the high one first, that stands in the stream. -/
def NumberAt (bytes : Str) (i n : Nat) : Prop :=
  ∃ hi lo, bytes[i]? = some hi ∧ bytes[i + 1]? = some lo ∧ n = hi.toNat * 256 + lo.toNat

section

variable {ioh : ByteStream} {pos start len start' len' : Nat} {marker marker' : UInt8}

/-! ## Reading -/

theorem get16m_eq (hi lo : UInt8) : get16m hi lo = hi.toNat * 256 + lo.toNat := by
  unfold get16m
  have hlo := lo.toNat_lt
  rw [Nat.shiftLeft_eq, Nat.mul_comm, ← Nat.two_pow_add_eq_or_of_lt hlo]

theorem get16m_zero : get16m 0 0 = 0 := rfl

theorem fgetc_some {c : UInt8} (h : ioh.bytes[pos]? = some c) : ioh.fgetc pos = (c, pos + 1) := by
  obtain ⟨hlt, hc⟩ := List.getElem?_eq_some_iff.mp h
  unfold ByteStream.fgetc ByteStream.read
  rw [Nat.min_eq_left (Nat.le_max_left _ _), List.drop_eq_getElem_cons hlt, hc]
  rfl

theorem fgetc_none (h : ioh.bytes.length ≤ pos) : ioh.fgetc pos = (0, pos) := by
  unfold ByteStream.fgetc ByteStream.read
  rw [List.drop_eq_nil_of_le h, List.take_nil]

/-- What is read is what stands in the stream. -/
theorem read_getElem {n i : Nat} (h : i < (ioh.read pos n).length) :
    (ioh.read pos n)[i]? = ioh.bytes[pos + i]? := by
  have hlen := h
  unfold ByteStream.read at hlen ⊢
  rw [List.length_take] at hlen
  rw [List.getElem?_take_of_lt (by omega), List.getElem?_drop]

theorem read_length_le (ioh : ByteStream) (pos n : Nat) :
    (ioh.read pos n).length ≤ ioh.bytes.length - pos := by
  unfold ByteStream.read
  rw [List.length_take, List.length_drop]
  exact Nat.min_le_right _ _

/-! ## The marker -/

theorem readMarker_ok : ∀ (left pos : Nat) {p : Nat},
    readMarker ioh left pos = .ok (marker, p) →
    (ioh.bytes.length ≤ p ∧ marker = 0) ∨ (pos < p ∧ p ≤ pos + left ∧
      (∀ i, pos ≤ i → i + 1 < p → ioh.bytes[i]? = some 0xff) ∧
      ioh.bytes[p - 1]? = some marker ∧ marker ≠ 0xff) := by
  intro left
  induction left with
  | zero =>
    intro pos p h
    cases h
  | succ left ih =>
    intro pos p h
    rw [readMarker] at h
    rcases hget : ioh.bytes[pos]? with _ | c
    · rw [fgetc_none (List.getElem?_eq_none_iff.mp hget)] at h
      cases h
      exact .inl ⟨List.getElem?_eq_none_iff.mp hget, rfl⟩
    · rw [fgetc_some hget] at h
      simp only at h
      by_cases hc : c = 0xff
      · rw [if_neg (not_not.mpr hc)] at h
        rcases ih (pos + 1) h with hend | ⟨hlt, hle, hpad, hmark, hne⟩
        · exact .inl hend
        · refine .inr ⟨by omega, by omega, fun i hi hip => ?_, hmark, hne⟩
          rcases Nat.eq_or_lt_of_le hi with rfl | hi
          · rw [hget, hc]
          · exact hpad i hi hip
      · rw [if_pos hc] at h
        cases h
        exact .inr ⟨by omega, by omega, fun i hi hip => by omega, hget, hc⟩

theorem readMarker_padding : ∀ (left pos : Nat), pos < start → start ≤ pos + left →
    (∀ i, pos ≤ i → i + 1 < start → ioh.bytes[i]? = some 0xff) →
    ioh.bytes[start - 1]? = some marker → marker ≠ 0xff →
    readMarker ioh left pos = .ok (marker, start) := by
  intro left
  induction left with
  | zero =>
    intro pos hlt hle
    omega
  | succ left ih =>
    intro pos hlt hle hpad hmark hne
    rw [readMarker]
    rcases Nat.eq_or_lt_of_le (show pos + 1 ≤ start from hlt) with heq | hlt'
    · rw [← heq, Nat.add_sub_cancel] at hmark
      rw [fgetc_some hmark]
      simp only
      rw [if_pos hne, heq]
    · rw [fgetc_some (hpad pos (Nat.le_refl _) hlt')]
      simp only
      rw [if_neg (not_not.mpr rfl)]
      exact ih (pos + 1) hlt' (by omega) (fun i hi hip => hpad i (by omega) hip) hmark hne

/-! ## One segment -/

/-- **A segment is read as it stands in the stream**, up to the size of the buffer. -/
theorem readItem_ok {memory : Nat → UInt8} {item : JpegItem}
    (h : readItem memory ioh pos = .ok item) :
    ∃ start len, SegmentAt ioh.bytes pos item.marker start len ∧ Arrives ioh start len ∧
      item.next = start + len ∧
      ∀ i < min len itemBufSize, ioh.bytes[start + i]? = some (item.data i) := by
  unfold readItem at h
  rcases hmarker : readMarker ioh 7 pos with e | ⟨marker, p⟩
  · rw [hmarker] at h
    cases h
  · rw [hmarker] at h
    simp only at h
    rcases hlh : ioh.bytes[p]? with _ | lh
    · -- two bytes that are not there are a length of 0
      have hend := List.getElem?_eq_none_iff.mp hlh
      rw [fgetc_none hend] at h
      simp only at h
      rw [fgetc_none hend] at h
      simp only at h
      rw [get16m_zero, if_pos Nat.two_pos] at h
      cases h
    · rw [fgetc_some hlh] at h
      simp only at h
      have hplt := (List.getElem?_eq_some_iff.mp hlh).1
      rcases hll : ioh.bytes[p + 1]? with _ | ll
      · -- a length of 256 or more, and nothing behind it
        have hend := List.getElem?_eq_none_iff.mp hll
        rw [fgetc_none hend] at h
        simp only at h
        have hnone := read_length_le ioh (p + 1) 14
        have hbig : get16m lh 0 = lh.toNat * 256 := by
          rw [get16m_eq, UInt8.toNat_zero, Nat.add_zero]
        rw [hbig] at h
        by_cases hzero : lh.toNat * 256 < 2
        · rw [if_pos hzero] at h
          cases h
        · rw [if_neg hzero] at h
          have hlarge : itemBufSize < lh.toNat * 256 := by
            unfold itemBufSize
            omega
          rw [if_pos hlarge] at h
          rw [if_pos (show (ioh.read (p + 1) (itemBufSize - 2)).length ≠ itemBufSize - 2 by
            have hread : (ioh.read (p + 1) (itemBufSize - 2)).length ≤ _ := hnone
            unfold itemBufSize at hread ⊢
            omega)] at h
          cases h
      · rw [fgetc_some hll] at h
        simp only at h
        by_cases hshort : get16m lh ll < 2
        · rw [if_pos hshort] at h
          cases h
        · rw [if_neg hshort] at h
          have hitem : (if itemBufSize < get16m lh ll then itemBufSize else get16m lh ll) =
              min (get16m lh ll) itemBufSize := by
            unfold itemBufSize
            split <;> omega
          rw [hitem] at h
          by_cases hgot : (ioh.read (p + 1 + 1) (min (get16m lh ll) itemBufSize - 2)).length ≠
              min (get16m lh ll) itemBufSize - 2
          · rw [if_pos hgot] at h
            cases h
          · rw [if_neg hgot] at h
            have hgot := not_not.mp hgot
            cases h
            rcases readMarker_ok 7 pos hmarker with ⟨hend, -⟩ | ⟨hlt, hle, hpad, hmark, hne⟩
            · omega
            · refine ⟨p, get16m lh ll, ⟨hlt, hle, hpad, hmark, hne, ⟨lh, ll, hlh, hll, rfl⟩,
                Nat.not_lt.mp hshort⟩, hgot, ?_, ?_⟩
              · simp only
                rw [hgot]
                unfold itemBufSize
                split <;> omega
              · intro i hi
                simp only
                rcases i with _ | _ | i
                · exact hlh
                · exact hll
                · have hin : i < (ioh.read (p + 1 + 1)
                      (min (get16m lh ll) itemBufSize - 2)).length := by
                    rw [hgot]
                    omega
                  have hread := read_getElem hin
                  rw [if_neg (by omega), if_neg (by omega), show i + 1 + 1 - 2 = i by omega,
                    hread, show p + 1 + 1 + i = p + (i + 1 + 1) by omega]
                  rw [List.getElem?_eq_getElem hin] at hread
                  rw [show p + 1 + 1 + i = p + (i + 1 + 1) by omega] at hread
                  rw [← hread]
                  rfl

/-- A segment that arrives is read. -/
theorem readItem_of_segment (memory : Nat → UInt8)
    (hseg : SegmentAt ioh.bytes pos marker start len) (harrives : Arrives ioh start len) :
    ∃ item, readItem memory ioh pos = .ok item ∧ item.marker = marker ∧
      item.next = start + len := by
  obtain ⟨lh, ll, hlh, hll, rfl⟩ := hseg.length
  have hlong := hseg.long
  have hmarker := readMarker_padding 7 pos hseg.behind hseg.padding hseg.padded hseg.marked
    hseg.no_padding
  have hitem : (if itemBufSize < get16m lh ll then itemBufSize else get16m lh ll) =
      min (get16m lh ll) itemBufSize := by
    unfold itemBufSize
    split <;> omega
  have hgot : ¬ (ioh.read (start + 1 + 1) (min (get16m lh ll) itemBufSize - 2)).length ≠
      min (get16m lh ll) itemBufSize - 2 := not_not.mpr harrives
  unfold readItem
  rw [hmarker]
  simp only
  rw [fgetc_some hlh]
  simp only
  rw [fgetc_some hll]
  simp only
  rw [if_neg (Nat.not_lt.mpr hlong), hitem, if_neg hgot]
  refine ⟨_, rfl, rfl, ?_⟩
  simp only
  rw [not_not.mp hgot]
  unfold itemBufSize
  split <;> omega

/-- Where the padding ends is seen in the bytes. -/
theorem SegmentAt.unique (h : SegmentAt ioh.bytes pos marker start len)
    (h' : SegmentAt ioh.bytes pos marker' start' len') :
    marker = marker' ∧ start = start' ∧ len = len' := by
  have first : ∀ {m m' : UInt8} {s s' l l' : Nat}, SegmentAt ioh.bytes pos m s l →
      SegmentAt ioh.bytes pos m' s' l' → s' ≤ s := by
    intro m m' s s' l l' h h'
    by_contra hlt
    have hbehind := h.behind
    have hpad := h'.padded (s - 1) (by omega) (by omega)
    rw [h.marked] at hpad
    exact h.no_padding (Option.some.inj hpad)
  obtain rfl : start = start' := Nat.le_antisymm (first h' h) (first h h')
  obtain ⟨lh, ll, hlh, hll, rfl⟩ := h.length
  obtain ⟨lh', ll', hlh', hll', rfl⟩ := h'.length
  rw [hlh] at hlh'
  rw [hll] at hll'
  cases hlh'
  cases hll'
  have hmark := h'.marked
  rw [h.marked] at hmark
  exact ⟨Option.some.inj hmark, rfl, rfl⟩

theorem FirstFrame.unique (h : FirstFrame ioh pos start len)
    (h' : FirstFrame ioh pos start' len') : start = start' ∧ len = len' := by
  induction h with
  | here hseg _ hsof =>
    cases h' with
    | here hseg' _ _ => exact (hseg.unique hseg').2
    | later hseg' _ _ hnot _ =>
      rw [(hseg.unique hseg').1] at hsof
      exact absurd hsof hnot
  | later hseg _ _ hnot _ ih =>
    cases h' with
    | here hseg' _ hsof =>
      rw [← (hseg.unique hseg').1] at hsof
      exact absurd hsof hnot
    | later hseg' _ _ _ hrest =>
      obtain ⟨-, rfl, rfl⟩ := hseg.unique hseg'
      exact ih hrest

/-! ## The walk -/

/-- **Each round takes bytes off the stream**, so the walk ends. -/
theorem jpegLoop_ends (memory : Nat → Nat → UInt8) : ∀ (fuel pos : Nat),
    ioh.bytes.length - pos < fuel → ∃ r, jpegLoop memory ioh fuel pos = some r := by
  intro fuel
  induction fuel with
  | zero =>
    intro pos h
    omega
  | succ fuel ih =>
    intro pos h
    rw [jpegLoop]
    split
    · exact ⟨_, rfl⟩
    · next item hitem =>
      split
      · exact ⟨_, rfl⟩
      · split
        · exact ⟨_, rfl⟩
        · obtain ⟨start, len, hseg, -, hnext, -⟩ := readItem_ok hitem
          obtain ⟨lh, ll, hlh, -, -⟩ := hseg.length
          have hlt := (List.getElem?_eq_some_iff.mp hlh).1
          have hbehind := hseg.behind
          apply ih
          rw [hnext]
          omega

/-- What the walk returns is what the buffer held of the first frame segment. -/
theorem jpegLoop_ok (memory : Nat → Nat → UInt8) : ∀ (fuel pos : Nat) {w h : Nat},
    jpegLoop memory ioh fuel pos = some (.ok (w, h)) →
    ∃ start len, FirstFrame ioh pos start len ∧
      (7 ≤ len → NumberAt ioh.bytes (start + 5) w ∧ NumberAt ioh.bytes (start + 3) h) := by
  intro fuel
  induction fuel with
  | zero =>
    intro pos w h hrun
    cases hrun
  | succ fuel ih =>
    intro pos w h hrun
    rw [jpegLoop] at hrun
    rcases hitem : readItem (memory pos) ioh pos with e | item
    · rw [hitem] at hrun
      cases hrun
    · rw [hitem] at hrun
      simp only at hrun
      obtain ⟨start, len, hseg, harrives, hnext, hdata⟩ := readItem_ok hitem
      by_cases heoi : item.marker = mEOI
      · rw [if_pos heoi] at hrun
        cases hrun
      · rw [if_neg heoi] at hrun
        by_cases hsof : item.marker ∈ sofMarkers
        · rw [if_pos hsof] at hrun
          cases hrun
          refine ⟨start, len, .here hseg harrives hsof, fun hlong => ?_⟩
          have hin : 7 ≤ min len itemBufSize := by
            unfold itemBufSize
            omega
          exact ⟨⟨_, _, hdata 5 (by omega), hdata 6 (by omega), get16m_eq _ _⟩,
            ⟨_, _, hdata 3 (by omega), hdata 4 (by omega), get16m_eq _ _⟩⟩
        · rw [if_neg hsof, hnext] at hrun
          obtain ⟨start', len', hframe, hvalues⟩ := ih _ hrun
          exact ⟨start', len', .later hseg harrives heoi hsof hframe, hvalues⟩

/-- A walk that comes to a frame segment returns. -/
theorem jpegLoop_of_frame (memory : Nat → Nat → UInt8) (hframe : FirstFrame ioh pos start len) :
    ∀ fuel, ioh.bytes.length - pos < fuel →
      ∃ w h, jpegLoop memory ioh fuel pos = some (.ok (w, h)) := by
  induction hframe with
  | @here pos marker start len hseg harrives hsof =>
    intro fuel hfuel
    rcases fuel with _ | fuel
    · omega
    · obtain ⟨item, hitem, rfl, -⟩ := readItem_of_segment (memory pos) hseg harrives
      have heoi : item.marker ≠ mEOI := by
        intro heq
        rw [heq] at hsof
        exact absurd hsof (by decide)
      rw [jpegLoop, hitem]
      simp only
      rw [if_neg heoi, if_pos hsof]
      exact ⟨_, _, rfl⟩
  | @later pos marker start' len' start len hseg harrives heoi hsof _ ih =>
    intro fuel hfuel
    rcases fuel with _ | fuel
    · omega
    · obtain ⟨item, hitem, rfl, hnext⟩ := readItem_of_segment (memory pos) hseg harrives
      obtain ⟨lh, ll, hlh, -, -⟩ := hseg.length
      have hlt := (List.getElem?_eq_some_iff.mp hlh).1
      have hbehind := hseg.behind
      rw [jpegLoop, hitem]
      simp only
      rw [if_neg heoi, if_neg hsof, hnext]
      exact ih fuel (by omega)

/-! ## The whole call -/

/-- The two bytes every picture begins with. -/
def StartsImage (bytes : Str) : Prop := bytes[0]? = some 0xff ∧ bytes[1]? = some mSOI

theorem getJpegResolution_of_start (memory : Nat → Nat → UInt8) (h : StartsImage ioh.bytes) :
    getJpegResolution memory ioh = jpegLoop memory ioh (ioh.bytes.length + 1) 2 := by
  unfold getJpegResolution
  rw [fgetc_some h.1]
  simp only
  rw [if_neg (not_not.mpr rfl), fgetc_some h.2]
  simp only
  rw [if_neg (not_not.mpr rfl)]

theorem getJpegResolution_of_no_start (memory : Nat → Nat → UInt8) (h : ¬ StartsImage ioh.bytes) :
    ∃ e, getJpegResolution memory ioh = some (.error e) := by
  unfold getJpegResolution
  rcases h0 : ioh.bytes[0]? with _ | a
  · rw [fgetc_none (List.getElem?_eq_none_iff.mp h0)]
    exact ⟨_, rfl⟩
  · rw [fgetc_some h0]
    simp only
    by_cases ha : a = 0xff
    · rw [if_neg (not_not.mpr ha)]
      rcases h1 : ioh.bytes[0 + 1]? with _ | b
      · rw [fgetc_none (List.getElem?_eq_none_iff.mp h1)]
        exact ⟨_, rfl⟩
      · rw [fgetc_some h1]
        simp only
        rw [if_pos (show b ≠ mSOI from fun hb => h ⟨ha ▸ h0, hb ▸ h1⟩)]
        exact ⟨_, rfl⟩
    · rw [if_pos ha]
      exact ⟨_, rfl⟩

/-- **What the call is to do**: end, and return nothing but the numbers in a frame segment that
    goes as far as they do. -/
def ResolutionRead (ioh : ByteStream) (result : Option (Except Exception (Nat × Nat))) : Prop :=
  (∃ r, result = some r) ∧ ∀ w h, result = some (.ok (w, h)) →
    ∃ start len, FirstFrame ioh 2 start len ∧ 7 ≤ len ∧
      NumberAt ioh.bytes (start + 5) w ∧ NumberAt ioh.bytes (start + 3) h

/-- **When `get_jpeg_resolution` does so**: when the first frame segment of a picture, if the walk
    comes to one, has seven bytes at least. -/
theorem getJpegResolution_iff (memory : Nat → Nat → UInt8) (ioh : ByteStream) :
    ResolutionRead ioh (getJpegResolution memory ioh) ↔
      (StartsImage ioh.bytes → ∀ start len, FirstFrame ioh 2 start len → 7 ≤ len) := by
  by_cases hstart : StartsImage ioh.bytes
  · rw [getJpegResolution_of_start memory hstart]
    constructor
    · rintro ⟨-, hvalues⟩ - start len hframe
      obtain ⟨w, h, hrun⟩ := jpegLoop_of_frame memory hframe (ioh.bytes.length + 1) (by omega)
      obtain ⟨start', len', hframe', hlong, -⟩ := hvalues w h hrun
      obtain ⟨-, rfl⟩ := hframe.unique hframe'
      exact hlong
    · intro hcond
      refine ⟨jpegLoop_ends memory _ _ (by omega), fun w h hrun => ?_⟩
      obtain ⟨start, len, hframe, hvalues⟩ := jpegLoop_ok memory _ _ hrun
      have hlong := hcond hstart start len hframe
      exact ⟨start, len, hframe, hlong, hvalues hlong⟩
  · obtain ⟨e, hrun⟩ := getJpegResolution_of_no_start memory hstart
    rw [hrun]
    constructor
    · exact fun _ h => absurd h hstart
    · exact fun _ => ⟨⟨_, rfl⟩, fun w h hok => nomatch hok⟩

/-- A frame segment that ends behind its own length. -/
def shortFrame : ByteStream := ⟨[0xff, 0xd8, 0xff, 0xc0, 0, 2], fun _ n => n⟩

/-- **A size that is in no file**: a frame segment without any content gives what the buffer held. -/
theorem shortFrame_resolution : ¬ ∀ (memory : Nat → Nat → UInt8) (ioh : ByteStream),
    ResolutionRead ioh (getJpegResolution memory ioh) := by
  intro hclaim
  obtain ⟨-, hvalues⟩ := hclaim (fun _ _ => 1) shortFrame
  have hrun : getJpegResolution (fun _ _ => 1) shortFrame = some (.ok (257, 257)) := by
    decide
  obtain ⟨start, len, -, -, ⟨hi, lo, hhi, hlo, hvalue⟩, -⟩ := hvalues 257 257 hrun
  -- no two bytes of the file make that number
  have hlast : ∀ a ∈ shortFrame.bytes, ∀ b ∈ shortFrame.bytes,
      257 ≠ a.toNat * 256 + b.toNat := by
    decide +kernel
  exact hlast hi (List.mem_of_getElem? hhi) lo (List.mem_of_getElem? hlo) hvalue

end

end MediaTomb
