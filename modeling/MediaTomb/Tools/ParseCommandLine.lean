/-
  `parseCommandLine` (`tools.cc`): the arguments of a transcoder.

  DATA.     a template, whose words are the arguments, the location of the input and the name of
            the fifo for the output.
  PROGRAM.  in each word the FIRST `%in` is replaced by the location, and in what comes out of that
            the FIRST `%out` by the fifo.
  RESULT.   every `%in` and `%out` of the word replaced at once (`substitute`), where a word has
            each of them once at most and no `%out` comes before its own when the location has
            been put in (`parseCommandLine_substitutes`).

  A token begins with the one `%` it has.  So no token goes over the beginning of another one, and
  a text is substituted piece by piece (`substitute_append`).
-/
import MediaTomb.Encodings

namespace MediaTomb

/-! ## `zmm/strings.cc` -/

/-- `String::find`: what stands before the first occurrence, and what behind it. -/
def findSub (needle : Str) : Str → Option (Str × Str)
  | [] => if needle.isPrefixOf [] then some ([], []) else none
  | c :: r =>
    if needle.isPrefixOf (c :: r) then some ([], (c :: r).drop needle.length)
    else (findSub needle r).map fun cut => (c :: cut.1, cut.2)

/-- `String::replace`: the first occurrence alone; nil where one of the two texts is. -/
def replace (s needle replacement : Option Str) : Option Str :=
  match needle, replacement with
  | some needle, some replacement => s.map fun text =>
    match findSub needle text with
    | none => text
    | some (before, behind) => before ++ replacement ++ behind
  | _, _ => none

/-! ## The program -/

def percent : UInt8 := '%'.toUInt8

def tokenIn : Str := percent :: str "in"

def tokenOut : Str := percent :: str "out"

def blank : UInt8 := ' '.toUInt8

/-- `parseCommandLine`. -/
def parseCommandLine (line location fifo : Option Str) : List (Option Str) :=
  let params := (splitString line blank false).map some
  if location = none ∧ fifo = none then params
  else params.map fun param =>
    let newParam := replace param (some tokenIn) location
    let newParam := replace newParam (some tokenOut) fifo
    if param ≠ newParam then newParam else param

/-! ## What it is for -/

/-- The text with every token replaced; so many bytes more belong to a token that has been. -/
def substituteFrom (location fifo : Str) : Nat → Str → Str
  | _, [] => []
  | skip + 1, _ :: r => substituteFrom location fifo skip r
  | 0, c :: r =>
    if tokenIn.isPrefixOf (c :: r) then location ++ substituteFrom location fifo 2 r
    else if tokenOut.isPrefixOf (c :: r) then fifo ++ substituteFrom location fifo 3 r
    else c :: substituteFrom location fifo 0 r

/-- **Every `%in` is replaced by the location and every `%out` by the fifo, at once.** -/
def substitute (location fifo word : Str) : Str := substituteFrom location fifo 0 word

def AtMostOnce (needle s : Str) : Prop :=
  ∀ before behind, findSub needle s = some (before, behind) → findSub needle behind = none

/-- **The word has each token once at most**, and the first `%out` there is when the location has
    been put in is the word's own. -/
def WordFits (location word : Str) : Prop :=
  match findSub tokenIn word with
  | none => AtMostOnce tokenOut word
  | some (before, behind) => findSub tokenIn behind = none ∧
    match findSub tokenOut before with
    | some (_, between) => findSub tokenOut between = none ∧ findSub tokenOut behind = none
    | none => AtMostOnce tokenOut behind ∧
      findSub tokenOut (before ++ location ++ behind) =
        (findSub tokenOut behind).map fun cut => (before ++ location ++ cut.1, cut.2)

section

variable {needle s t a b u v location fifo word : Str}

/-! ## Finding -/

theorem findSub_eq_some : ∀ {s a b : Str}, findSub needle s = some (a, b) → s = a ++ needle ++ b
  | [], a, b, h => by
    rw [findSub] at h
    split at h
    · next hpre =>
      cases h
      rw [List.prefix_nil.mp (List.isPrefixOf_iff_prefix.mp hpre)]
      rfl
    · cases h
  | c :: r, a, b, h => by
    rw [findSub] at h
    split at h
    · next hpre =>
      cases h
      exact (List.prefix_iff_eq_append.mp (List.isPrefixOf_iff_prefix.mp hpre)).symm
    · obtain ⟨⟨a', b'⟩, hcut, heq⟩ := Option.map_eq_some_iff.mp h
      cases heq
      rw [findSub_eq_some hcut]
      rfl

/-- Where it is found in the first part, it is found there in the whole. -/
theorem findSub_append : ∀ {s a b : Str}, findSub needle s = some (a, b) →
    findSub needle (s ++ t) = some (a, b ++ t)
  | [], a, b, h => by
    rw [findSub] at h
    split at h
    · next hpre =>
      cases h
      have hnil := List.prefix_nil.mp (List.isPrefixOf_iff_prefix.mp hpre)
      subst hnil
      rcases t with _ | ⟨c, t⟩
      · rfl
      · rfl
    · cases h
  | c :: r, a, b, h => by
    rw [findSub] at h
    rw [List.cons_append, findSub]
    split at h
    · next hpre =>
      cases h
      have hbegins := List.isPrefixOf_iff_prefix.mp hpre
      have hwhole : needle.isPrefixOf (c :: (r ++ t)) = true :=
        List.isPrefixOf_iff_prefix.mpr (hbegins.trans (List.prefix_append (c :: r) t))
      rw [if_pos hwhole, ← List.cons_append, List.drop_append_of_le_length hbegins.length_le]
    · next hpre =>
      obtain ⟨⟨a', b'⟩, hcut, heq⟩ := Option.map_eq_some_iff.mp h
      cases heq
      rw [if_neg, findSub_append hcut]
      · rfl
      · -- a match over the end of the first part would begin before the one that is found
        intro hwhole
        have hlen := congrArg List.length (findSub_eq_some hcut)
        rw [List.length_append, List.length_append] at hlen
        apply hpre
        apply List.isPrefixOf_iff_prefix.mpr
        refine List.prefix_of_prefix_length_le (List.isPrefixOf_iff_prefix.mp hwhole)
          (List.prefix_append (c :: r) t) ?_
        rw [List.length_cons]
        omega

theorem findSub_none_append : ∀ {s : Str}, findSub needle (s ++ t) = none →
    findSub needle t = none
  | [], h => h
  | c :: r, h => by
    rw [List.cons_append, findSub] at h
    split at h
    · cases h
    · exact findSub_none_append (Option.map_eq_none_iff.mp h)

/-- Neither part has what the whole has not. -/
theorem findSub_none_parts (h : findSub needle (s ++ t) = none) :
    findSub needle s = none ∧ findSub needle t = none := by
  refine ⟨?_, findSub_none_append h⟩
  rcases hs : findSub needle s with _ | ⟨a, b⟩
  · rfl
  · rw [findSub_append hs] at h
    cases h

/-- Before the first occurrence there is none. -/
theorem findSub_before (hne : needle ≠ []) : ∀ {s a b : Str},
    findSub needle s = some (a, b) → findSub needle a = none
  | [], a, b, h => by
    rw [findSub] at h
    split at h
    · next hpre => exact absurd (List.prefix_nil.mp (List.isPrefixOf_iff_prefix.mp hpre)) hne
    · cases h
  | c :: r, a, b, h => by
    have hempty : needle.isPrefixOf [] = false := by
      rcases needle with _ | ⟨d, n⟩
      · exact absurd rfl hne
      · rfl
    have hsplit := findSub_eq_some h
    rw [findSub] at h
    split at h
    · cases h
      rw [findSub, hempty]
      rfl
    · next hpre =>
      obtain ⟨⟨a', b'⟩, hcut, heq⟩ := Option.map_eq_some_iff.mp h
      cases heq
      rw [findSub, if_neg, findSub_before hne hcut]
      · rfl
      · intro hbefore
        apply hpre
        rw [hsplit, List.append_assoc]
        exact List.isPrefixOf_iff_prefix.mpr
          ((List.isPrefixOf_iff_prefix.mp hbefore).trans (List.prefix_append _ _))

/-! ## Substituting piece by piece -/

/-- A token with one `%` does not go over the beginning of another. -/
theorem isPrefixOf_before (v : Str) {token : Str} (htoken : percent ∉ token) (hu : u ≠ []) :
    (percent :: token).isPrefixOf (u ++ percent :: v) = (percent :: token).isPrefixOf u := by
  rw [Bool.eq_iff_iff, List.isPrefixOf_iff_prefix, List.isPrefixOf_iff_prefix]
  constructor
  · intro h
    rcases Nat.lt_or_ge u.length (percent :: token).length with hlt | hle
    · have hpart : u ++ [percent] <+: percent :: token := by
        have hwhole : u ++ [percent] <+: u ++ percent :: v := by
          refine ⟨v, ?_⟩
          rw [List.append_assoc]
          rfl
        refine List.prefix_of_prefix_length_le hwhole h ?_
        rw [List.length_append, List.length_singleton]
        omega
      obtain ⟨w, hw⟩ := hpart
      rcases u with _ | ⟨c, u⟩
      · exact absurd rfl hu
      · have htail := (List.cons.inj hw).2
        exact absurd (htail ▸ List.mem_append_left w
          (List.mem_append_right u (List.mem_singleton_self percent))) htoken
    · exact List.prefix_of_prefix_length_le h (List.prefix_append _ _) hle
  · exact fun h => h.trans (List.prefix_append _ _)

theorem substituteFrom_append : ∀ (u : Str) (skip : Nat), skip ≤ u.length →
    substituteFrom location fifo skip (u ++ percent :: v) =
      substituteFrom location fifo skip u ++ substituteFrom location fifo 0 (percent :: v) := by
  intro u
  induction u with
  | nil =>
    intro skip h
    rw [Nat.le_zero.mp h]
    rfl
  | cons c u ih =>
    intro skip h
    rcases skip with _ | skip
    · have hin := isPrefixOf_before v (by decide : percent ∉ str "in")
        (List.cons_ne_nil c u)
      have hout := isPrefixOf_before v (by decide : percent ∉ str "out")
        (List.cons_ne_nil c u)
      rw [List.cons_append] at hin hout ⊢
      rw [substituteFrom, substituteFrom]
      unfold tokenIn tokenOut
      rw [hin, hout]
      by_cases hisIn : (percent :: str "in").isPrefixOf (c :: u) = true
      · have hlen := (List.isPrefixOf_iff_prefix.mp hisIn).length_le
        rw [if_pos hisIn, if_pos hisIn, ih 2 (Nat.le_of_succ_le_succ hlen), List.append_assoc]
      · rw [if_neg hisIn, if_neg hisIn]
        by_cases hisOut : (percent :: str "out").isPrefixOf (c :: u) = true
        · have hlen := (List.isPrefixOf_iff_prefix.mp hisOut).length_le
          rw [if_pos hisOut, if_pos hisOut, ih 3 (Nat.le_of_succ_le_succ hlen), List.append_assoc]
        · rw [if_neg hisOut, if_neg hisOut, ih 0 (Nat.zero_le _)]
          rfl
    · rw [List.cons_append, substituteFrom, substituteFrom]
      exact ih skip (Nat.le_of_succ_le_succ h)

/-- **A text is substituted piece by piece.** -/
theorem substitute_append (u v : Str) : substitute location fifo (u ++ percent :: v) =
    substitute location fifo u ++ substitute location fifo (percent :: v) :=
  substituteFrom_append u 0 (Nat.zero_le _)

theorem substitute_in (a b : Str) : substitute location fifo (a ++ tokenIn ++ b) =
    substitute location fifo a ++ location ++ substitute location fifo b := by
  have hpre : tokenIn.isPrefixOf (percent :: (str "in" ++ b)) = true :=
    List.isPrefixOf_iff_prefix.mpr (List.prefix_append tokenIn b)
  have htoken : substitute location fifo (percent :: (str "in" ++ b)) =
      location ++ substitute location fifo b := by
    unfold substitute
    rw [substituteFrom, if_pos hpre]
    rfl
  rw [List.append_assoc, List.append_assoc, ← htoken]
  exact substitute_append a _

theorem substitute_out (a b : Str) : substitute location fifo (a ++ tokenOut ++ b) =
    substitute location fifo a ++ fifo ++ substitute location fifo b := by
  have hpre : tokenOut.isPrefixOf (percent :: (str "out" ++ b)) = true :=
    List.isPrefixOf_iff_prefix.mpr (List.prefix_append tokenOut b)
  have hother : ¬ tokenIn.isPrefixOf (percent :: (str "out" ++ b)) = true := by
    intro h
    have hsecond := (List.cons_prefix_cons.mp (List.isPrefixOf_iff_prefix.mp h)).2
    exact absurd (List.cons_prefix_cons.mp hsecond).1 (by decide)
  have htoken : substitute location fifo (percent :: (str "out" ++ b)) =
      fifo ++ substitute location fifo b := by
    unfold substitute
    rw [substituteFrom, if_neg hother, if_pos hpre]
    rfl
  rw [List.append_assoc, List.append_assoc, ← htoken]
  exact substitute_append a _

/-- A text without tokens stays. -/
theorem substitute_plain : ∀ {s : Str}, findSub tokenIn s = none → findSub tokenOut s = none →
    substitute location fifo s = s
  | [], _, _ => rfl
  | c :: r, hin, hout => by
    rw [findSub] at hin hout
    split at hin
    · cases hin
    · next hnotIn =>
      split at hout
      · cases hout
      · next hnotOut =>
        unfold substitute
        rw [substituteFrom, if_neg hnotIn, if_neg hnotOut]
        exact congrArg (c :: ·) (substitute_plain (Option.map_eq_none_iff.mp hin)
          (Option.map_eq_none_iff.mp hout))

/-! ## One word -/

theorem replace_none (h : findSub needle s = none) :
    replace (some s) (some needle) (some t) = some s := by
  show some (match findSub needle s with
    | none => s
    | some (before, behind) => before ++ t ++ behind) = _
  rw [h]

theorem replace_some (h : findSub needle s = some (a, b)) :
    replace (some s) (some needle) (some t) = some (a ++ t ++ b) := by
  show some (match findSub needle s with
    | none => s
    | some (before, behind) => before ++ t ++ behind) = _
  rw [h]

/-- The first `%out` of a text without `%in`, where it has one at most. -/
theorem replace_out (location fifo : Str) (hin : findSub tokenIn s = none) (honce : AtMostOnce tokenOut s) :
    replace (some s) (some tokenOut) (some fifo) = some (substitute location fifo s) := by
  rcases hout : findSub tokenOut s with _ | ⟨a, b⟩
  · rw [replace_none hout, substitute_plain hin hout]
  · have hsplit := findSub_eq_some hout
    rw [hsplit] at hin
    obtain ⟨hleft, hb⟩ := findSub_none_parts hin
    obtain ⟨ha, -⟩ := findSub_none_parts hleft
    rw [replace_some hout, hsplit, substitute_out,
      substitute_plain ha (findSub_before (List.cons_ne_nil _ _) hout),
      substitute_plain hb (honce a b hout)]

/-- **A word that fits is substituted.** -/
theorem replace_word (hfits : WordFits location word) :
    replace (replace (some word) (some tokenIn) (some location)) (some tokenOut) (some fifo) =
      some (substitute location fifo word) := by
  unfold WordFits at hfits
  rcases hin : findSub tokenIn word with _ | ⟨a, b⟩
  · rw [hin] at hfits
    rw [replace_none hin]
    exact replace_out location fifo hin hfits
  · rw [hin] at hfits
    obtain ⟨hb, hfits⟩ := hfits
    have ha := findSub_before (List.cons_ne_nil _ _) hin
    rw [replace_some hin, findSub_eq_some hin, substitute_in]
    rcases houtA : findSub tokenOut a with _ | ⟨a₁, a₂⟩
    · rw [houtA] at hfits
      obtain ⟨honce, hown⟩ := hfits
      rw [substitute_plain ha houtA]
      rcases houtB : findSub tokenOut b with _ | ⟨b₁, b₂⟩
      · rw [houtB, Option.map_none] at hown
        rw [replace_none hown, substitute_plain hb houtB]
      · -- the `%out` behind the location
        rw [houtB, Option.map_some] at hown
        have hsubst := replace_out location fifo hb honce
        rw [replace_some houtB] at hsubst
        rw [replace_some hown, ← Option.some.inj hsubst]
        simp only [List.append_assoc]
    · -- the `%out` before it
      rw [houtA] at hfits
      obtain ⟨hbetween, hbehind⟩ := hfits
      have hwhole := findSub_append (t := location ++ b) houtA
      have hsplit := findSub_eq_some houtA
      have hsubst := replace_out location fifo ha (by
        intro before behind hcut
        rw [houtA] at hcut
        cases hcut
        exact hbetween)
      rw [replace_some houtA] at hsubst
      rw [List.append_assoc, replace_some hwhole, substitute_plain hb hbehind,
        ← Option.some.inj hsubst]
      simp only [List.append_assoc]

/-! ## The whole call -/

/-- **`parseCommandLine`** gives one argument for each word of the template, with every token
    replaced, where each word fits. -/
theorem parseCommandLine_substitutes {line location : Str} (fifo : Str)
    (hfits : ∀ word ∈ splitString (some line) blank false, WordFits location word) :
    parseCommandLine (some line) (some location) (some fifo) =
      (splitString (some line) blank false).map fun word =>
        some (substitute location fifo word) := by
  unfold parseCommandLine
  simp only
  rw [if_neg fun h => nomatch h.1]
  refine (List.map_map).trans (List.map_congr_left fun word hword => ?_)
  simp only [Function.comp]
  rw [replace_word (hfits word hword)]
  split
  · rfl
  · next heq => exact not_not.mp heq

/-- A location with a percent sign. -/
theorem parseCommandLine_substitutes_ffmpeg :
    parseCommandLine (some (str "-i %in -o %out")) (some (str "/a/100%.avi")) (some (str "/t/f")) =
      (splitString (some (str "-i %in -o %out")) blank false).map fun word =>
        some (substitute (str "/a/100%.avi") (str "/t/f") word) := by
  have hwords : splitString (some (str "-i %in -o %out")) blank false =
      [str "-i", str "%in", str "-o", str "%out"] := by decide +kernel
  apply parseCommandLine_substitutes
  rw [hwords]
  have hplain : ∀ word ∈ [str "-i", str "-o", str "%out"],
      findSub tokenIn word = none ∧ ∀ cut ∈ findSub tokenOut word, findSub tokenOut cut.2 = none := by
    decide +kernel
  have hplainFits : ∀ word ∈ [str "-i", str "-o", str "%out"],
      WordFits (str "/a/100%.avi") word := by
    intro word hword
    obtain ⟨hin, honce⟩ := hplain word hword
    unfold WordFits
    rw [hin]
    exact fun before behind hcut => honce (before, behind) hcut
  have hin : WordFits (str "/a/100%.avi") (str "%in") := by
    have hcut : findSub tokenIn (str "%in") = some ([], []) := by decide +kernel
    unfold WordFits
    rw [hcut]
    exact ⟨by decide, fun _ _ h => (nomatch h), by decide +kernel⟩
  intro word hword
  rcases List.mem_cons.mp hword with rfl | hword
  · exact hplainFits _ List.mem_cons_self
  · rcases List.mem_cons.mp hword with rfl | hword
    · exact hin
    · exact hplainFits _ (List.mem_cons_of_mem _ hword)

/-- **A location with `%out` in it is torn apart.** -/
theorem parseCommandLine_location_torn : ¬ ∀ line location fifo : Str,
    parseCommandLine (some line) (some location) (some fifo) =
      (splitString (some line) blank false).map fun word =>
        some (substitute location fifo word) := by
  intro hclaim
  exact absurd (hclaim (str "%in") (str "/a/%out.avi") (str "/t/f")) (by decide +kernel)

end

end MediaTomb
