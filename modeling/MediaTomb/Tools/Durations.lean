/-
  Durations as text (`secondsToHMS` and `HMSToSeconds` of `tools.cc`).

  DATA.     an `int` of seconds, and hours, minutes and seconds with a colon between them.
  PROGRAM.  the text is printed into a buffer of TEN bytes, meant for `XXX:XX:XX` and the NUL behind
            it; `sscanf` reads it again.
  RESULT.   every duration is read as it was written, but only those of less than a THOUSAND HOURS
            fit the buffer (`secondsToHMS_iff`).
-/
import MediaTomb.Encodings

namespace MediaTomb

/-! ## The program -/

/-- `%02d`. -/
def formatTwoDigits (x : Int) : Str :=
  if (fromInt x).length < 2 then '0'.toUInt8 :: fromInt x else fromInt x

/-- The text `secondsToHMS` prints. -/
def secondsToHMS (seconds : Int) : Str :=
  let s := seconds.tmod 60
  let seconds := seconds.tdiv 60
  let m := seconds.tmod 60
  let h := seconds.tdiv 60
  formatTwoDigits h ++ ':'.toUInt8 :: (formatTwoDigits m ++ ':'.toUInt8 :: formatTwoDigits s)

/-- What `secondsToHMS` allocates for it. -/
def hmsBufferSize : Nat := 10

/-- The text and the NUL behind it stay in the buffer. -/
def FitsHMSBuffer (text : Str) : Prop := text.length + 1 ≤ hmsBufferSize

/-- `%d` of `sscanf`: an `int`, and what is left; nothing where no number stands. -/
def scanInt (text : Str) : Option (Int × Str) :=
  let (value, rest) := strtol text
  if rest = text then none else some (value.bmod (2 ^ 32), rest)

/-- A character of the format that stands for itself. -/
def scanChar (c : UInt8) : Str → Option Str
  | [] => none
  | d :: r => if d = c then some r else none

/-- `sscanf(…, "%d:%d:%d", …)`: what it does not come to stays 0. -/
def scanHMS (text : Str) : Int × Int × Int :=
  match scanInt text with
  | none => (0, 0, 0)
  | some (hours, rest) =>
    match (scanChar ':'.toUInt8 rest).bind scanInt with
    | none => (hours, 0, 0)
    | some (minutes, rest) =>
      match (scanChar ':'.toUInt8 rest).bind scanInt with
      | none => (hours, minutes, 0)
      | some (seconds, _) => (hours, minutes, seconds)

/-- `HMSToSeconds`, in the arithmetic of `int`. -/
def hmsToSeconds (time : Option Str) : Int :=
  match time with
  | none | some [] => 0
  | some text =>
    let (hours, minutes, seconds) := scanHMS text
    (hours * 3600 + minutes * 60 + seconds).bmod (2 ^ 32)

section

variable {n : Nat} {r : Str}

/-! ## Reading numbers in front of other text -/

theorem scanDigits_append {ds : Str} (h : ∀ c ∈ ds, isDigit c = true)
    (hr : ∀ c ∈ r.head?, isDigit c = false) (acc : Nat) :
    scanDigits acc (ds ++ r) = (digitsValue acc ds, r) := by
  induction ds generalizing acc with
  | nil =>
    rcases r with _ | ⟨c, r⟩
    · rfl
    · rw [List.nil_append, scanDigits, hr c rfl, if_neg Bool.false_ne_true]
      rfl
  | cons c ds ih =>
    rw [List.cons_append, scanDigits, if_pos (h c List.mem_cons_self)]
    exact ih (fun d hd => h d (List.mem_cons_of_mem c hd)) _

/-- The digits `strtol` reads, in front of anything but a digit. -/
theorem strtol_append {ds : Str} (hne : ds ≠ []) (h : ∀ c ∈ ds, isDigit c = true)
    (hr : ∀ c ∈ r.head?, isDigit c = false) :
    strtol (ds ++ r) = (min (digitsValue 0 ds : Int) (2 ^ 63 - 1), r) := by
  rcases ds with _ | ⟨c, ds⟩
  · exact absurd rfl hne
  · have hc := h c List.mem_cons_self
    obtain ⟨hspace, hminus, hplus⟩ := isDigit_facts hc
    have hscan := scanDigits_append h hr 0
    rw [List.cons_append] at hscan ⊢
    unfold strtol
    simp only [List.dropWhile_cons, hspace, Bool.false_eq_true, if_false, beq_iff_eq, hminus, hplus,
      hc, if_true, hscan]

/-! ## One part of the text -/

theorem fromInt_natCast (n : Nat) : fromInt (n : Int) = digits n := by
  unfold fromInt
  simp only
  rw [if_neg (Int.not_lt.mpr (Int.natCast_nonneg n))]
  rfl

theorem digits_length_iff {k : Nat} (hk : 0 < k) : (digits n).length ≤ k ↔ n < 10 ^ k := by
  unfold digits
  rw [List.length_map]
  exact Nat.length_toDigits_le_iff (by omega) hk

/-- Digits, with a zero before a single one. -/
theorem formatTwoDigits_natCast (n : Nat) :
    formatTwoDigits n = (if n < 10 then ['0'.toUInt8] else []) ++ digits n := by
  have hlen : (digits n).length < 2 ↔ n < 10 := by
    have hone := digits_length_iff (n := n) (k := 1) Nat.one_pos
    omega
  unfold formatTwoDigits
  rw [fromInt_natCast]
  by_cases h : n < 10
  · rw [if_pos h, if_pos (hlen.mpr h)]
    rfl
  · rw [if_neg h, if_neg (fun hshort => h (hlen.mp hshort))]
    rfl

theorem formatTwoDigits_spec (n : Nat) :
    formatTwoDigits n ≠ [] ∧ (∀ c ∈ formatTwoDigits n, isDigit c = true) ∧
      digitsValue 0 (formatTwoDigits n) = n := by
  obtain ⟨hdigits, hvalue⟩ := digits_spec n
  rw [formatTwoDigits_natCast]
  refine ⟨fun hnil => digits_ne_nil n (List.append_eq_nil_iff.mp hnil).2, fun c hc => ?_, ?_⟩
  · rcases List.mem_append.mp hc with hc | hc
    · split at hc
      · rw [List.mem_singleton.mp hc]
        decide
      · cases hc
    · exact hdigits c hc
  · rw [digitsValue_append]
    split
    · exact hvalue
    · exact hvalue

/-- Two characters up to 99. -/
theorem length_formatTwoDigits (h : n < 100) : (formatTwoDigits n).length = 2 := by
  have hone := digits_length_iff (n := n) (k := 1) Nat.one_pos
  have htwo := digits_length_iff (n := n) (k := 2) Nat.two_pos
  have hpos := List.length_pos_iff.mpr (digits_ne_nil n)
  rw [formatTwoDigits_natCast, List.length_append]
  split
  · rw [List.length_singleton]
    omega
  · rw [List.length_nil]
    omega

/-- **A number is scanned as it was printed**, up to what an `int` holds. -/
theorem scanInt_formatTwoDigits (hint : n < 2 ^ 31) (hr : ∀ c ∈ r.head?, isDigit c = false) :
    scanInt (formatTwoDigits n ++ r) = some ((n : Int), r) := by
  obtain ⟨hne, hdigits, hvalue⟩ := formatTwoDigits_spec n
  have hrest : r ≠ formatTwoDigits n ++ r := by
    intro heq
    have hlen := congrArg List.length heq
    rw [List.length_append] at hlen
    have hpos := List.length_pos_iff.mpr hne
    omega
  have hfits : (min (n : Int) (2 ^ 63 - 1)).bmod (2 ^ 32) = n := by
    rw [Int.min_eq_left (by omega)]
    exact Int.bmod_eq_of_le (by omega) (by omega)
  unfold scanInt
  rw [strtol_append hne hdigits hr, hvalue]
  simp only
  rw [if_neg hrest, hfits]

/-! ## The whole text -/

/-- The parts are those of the quotients. -/
theorem secondsToHMS_natCast (n : Nat) : secondsToHMS n =
    formatTwoDigits (n / 3600 : Nat) ++ ':'.toUInt8 ::
      (formatTwoDigits (n / 60 % 60 : Nat) ++ ':'.toUInt8 :: formatTwoDigits (n % 60 : Nat)) := by
  have hs : (n : Int).tmod 60 = (n % 60 : Nat) := rfl
  have hm : ((n : Int).tdiv 60).tmod 60 = (n / 60 % 60 : Nat) := rfl
  have hh : ((n : Int).tdiv 60).tdiv 60 = (n / 60 / 60 : Nat) := rfl
  unfold secondsToHMS
  simp only
  rw [hs, hm, hh, Nat.div_div_eq_div_mul]

theorem fitsHMSBuffer_iff (n : Nat) : FitsHMSBuffer (secondsToHMS n) ↔ n < 3600000 := by
  have hm := length_formatTwoDigits (n := n / 60 % 60) (by omega)
  have hs := length_formatTwoDigits (n := n % 60) (by omega)
  have hlen : (secondsToHMS n).length = (formatTwoDigits (n / 3600 : Nat)).length + 6 := by
    rw [secondsToHMS_natCast, List.length_append, List.length_cons, List.length_append,
      List.length_cons, hm, hs]
  have hh : (formatTwoDigits (n / 3600 : Nat)).length ≤ 3 ↔ n / 3600 < 1000 := by
    have hthree := digits_length_iff (n := n / 3600) (k := 3) (by omega)
    rcases Nat.lt_or_ge (n / 3600) 100 with hsmall | hlarge
    · rw [length_formatTwoDigits hsmall]
      omega
    · rw [formatTwoDigits_natCast, if_neg (by omega)]
      exact hthree
  unfold FitsHMSBuffer hmsBufferSize
  rw [hlen]
  omega

/-- **Every duration is read as it was written.** -/
theorem hmsToSeconds_secondsToHMS (h : n < 2 ^ 31) :
    hmsToSeconds (some (secondsToHMS n)) = n := by
  have hcolon : ∀ s : Str, ∀ c ∈ (':'.toUInt8 :: s).head?, isDigit c = false := by
    intro s c hc
    rw [← Option.some.inj hc]
    decide
  have hscan : scanHMS (secondsToHMS n) =
      (((n / 3600 : Nat) : Int), ((n / 60 % 60 : Nat) : Int), ((n % 60 : Nat) : Int)) := by
    have hlast := scanInt_formatTwoDigits (n := n % 60) (r := []) (by omega)
      (fun c hc => nomatch hc)
    rw [List.append_nil] at hlast
    rw [secondsToHMS_natCast]
    unfold scanHMS
    rw [scanInt_formatTwoDigits (by omega) (hcolon _)]
    simp only [scanChar, if_true, Option.bind_some]
    rw [scanInt_formatTwoDigits (by omega) (hcolon _)]
    simp only [if_true, Option.bind_some]
    rw [hlast]
  have hsum : ((n / 3600 : Nat) : Int) * 3600 + (n / 60 % 60 : Nat) * 60 + (n % 60 : Nat) = n := by
    omega
  rcases htext : secondsToHMS n with _ | ⟨c, r⟩
  · rw [secondsToHMS_natCast] at htext
    exact absurd (List.append_eq_nil_iff.mp htext).2 (List.cons_ne_nil _ _)
  · rw [htext] at hscan
    unfold hmsToSeconds
    simp only [hscan]
    rw [hsum]
    exact Int.bmod_eq_of_le (by omega) (by omega)

/-- **Which durations are printed into the buffer and read again**: those below 1000 hours. -/
theorem secondsToHMS_iff {s : Int} (hpos : 0 ≤ s) (hint : s < 2 ^ 31) :
    (FitsHMSBuffer (secondsToHMS s) ∧ hmsToSeconds (some (secondsToHMS s)) = s) ↔
      s < 3600000 := by
  obtain ⟨n, rfl⟩ := Int.eq_ofNat_of_zero_le hpos
  have hfits := fitsHMSBuffer_iff n
  have hread := hmsToSeconds_secondsToHMS (n := n) (by omega)
  constructor
  · intro h
    have hn := hfits.mp h.1
    omega
  · intro h
    exact ⟨hfits.mpr (by omega), hread⟩

/-- The last duration with three digits of hours. -/
theorem secondsToHMS_longest :
    FitsHMSBuffer (secondsToHMS 3599999) ∧ hmsToSeconds (some (secondsToHMS 3599999)) = 3599999 :=
  (secondsToHMS_iff (by decide) (by decide)).mpr (by decide)

/-- **A thousand hours are written one byte behind the buffer.** -/
theorem secondsToHMS_thousand_hours : ¬ ∀ s : Int, 0 ≤ s → s < 2 ^ 31 →
    FitsHMSBuffer (secondsToHMS s) ∧ hmsToSeconds (some (secondsToHMS s)) = s := by
  intro hclaim
  have hfits := (hclaim 3600000 (by decide) (by decide)).1
  have hlen : (secondsToHMS 3600000).length = 10 := by decide
  unfold FitsHMSBuffer hmsBufferSize at hfits
  omega

end

end MediaTomb
