/-
  Parameters in the path of a URL (`dictionary.cc`: `encodeSimple`, `decodeSimple`).

  The file handlers read their parameters from a PATH: keys and values in turn, all of them between
  slashes.  Nothing frames a pair, so whatever is not there moves all that follows by one place.

    * pairs of parts that are neither empty nor contain a slash are read as they were written
      (`decodeSimple_path`), and the keys of what was read give their values (`get_putAll`);
    * an escaped text has no slash, and is empty only for the empty text.
-/
import MediaTomb.Encodings

namespace MediaTomb

/-- `URL_PARAM_SEPARATOR` -/
def urlParamSeparator : UInt8 := '/'.toUInt8

namespace Dictionary

/-- `encodeSimple`: `key/value` pairs joined by `/`, both sides URL-escaped. -/
def encodeSimple (d : Dictionary) : Str :=
  [urlParamSeparator].intercalate
    (d.rows.map fun el => urlEscape el.1 ++ urlParamSeparator :: urlEscape el.2)

/-- The loop of `decodeSimple` from `last_pos` on: a key up to the next separator, a value up to
    the one after it or the end.  It stops at an empty key and at an empty value. -/
def decodeSimpleFrom : Nat → Dictionary → Str → Dictionary
  | 0, d, _ => d
  | fuel + 1, d, url =>
    match cut urlParamSeparator url with
    | (_, none) => d
    | (key, some rest) =>
      if key = [] then d
      else
        let value := cut urlParamSeparator rest
        if value.1 = [] then d
        else
          let d := d.put (urlUnescape key) (urlUnescape value.1)
          match value.2 with
          | none => d
          | some more => decodeSimpleFrom fuel d more

/-- `decodeSimple`, into an existing dictionary. -/
def decodeSimple (d : Dictionary) (url : Str) : Dictionary := decodeSimpleFrom (url.length + 1) d url

/-- One `put` after the other. -/
def putAll (d : Dictionary) (els : List (Str × Str)) : Dictionary :=
  els.foldl (fun d el => d.put el.1 el.2) d

theorem get_putAll_of_notMem {d : Dictionary} {els : List (Str × Str)} {key : Str}
    (h : key ∉ els.map Prod.fst) : (d.putAll els).get key = d.get key := by
  induction els generalizing d with
  | nil => rfl
  | cons el els ih =>
    rw [List.map_cons, List.mem_cons, not_or] at h
    show ((d.put el.1 el.2).putAll els).get key = d.get key
    rw [ih h.2, get_put, if_neg h.1]

/-- What was put under different keys is found. -/
theorem get_putAll {d : Dictionary} {els : List (Str × Str)} (h : (els.map Prod.fst).Nodup)
    {el : Str × Str} (hel : el ∈ els) : (d.putAll els).get el.1 = some el.2 := by
  induction els generalizing d with
  | nil => cases hel
  | cons first els ih =>
    rw [List.map_cons, List.nodup_cons] at h
    show ((d.put first.1 first.2).putAll els).get el.1 = some el.2
    rcases List.mem_cons.mp hel with rfl | hel
    · rw [get_putAll_of_notMem h.1, get_put, if_pos rfl]
    · exact ih h.2 hel

end Dictionary

/-! ## Paths -/

/-- A part of a path. -/
def IsPart (p : Str) : Prop := p ≠ [] ∧ urlParamSeparator ∉ p

instance (p : Str) : Decidable (IsPart p) := inferInstanceAs (Decidable (_ ∧ _))

/-- Keys and values in turn, between separators. -/
def path (pairs : List (Str × Str)) : Str :=
  [urlParamSeparator].intercalate (pairs.map fun p => p.1 ++ urlParamSeparator :: p.2)

theorem path_cons (p q : Str × Str) (pairs : List (Str × Str)) :
    path (p :: q :: pairs) =
      p.1 ++ urlParamSeparator :: (p.2 ++ urlParamSeparator :: path (q :: pairs)) := by
  rw [path, List.map_cons, List.map_cons, join_cons, List.append_assoc, List.cons_append]
  rfl

theorem path_single (p : Str × Str) : path [p] = p.1 ++ urlParamSeparator :: p.2 := by
  rw [path, List.map_cons, List.map_nil, join_single]

/-- Two paths one after the other. -/
theorem path_append {ps qs : List (Str × Str)} (hps : ps ≠ []) (hqs : qs ≠ []) :
    path (ps ++ qs) = path ps ++ urlParamSeparator :: path qs := by
  induction ps with
  | nil => exact absurd rfl hps
  | cons p ps ih =>
    rcases ps with _ | ⟨q, ps⟩
    · rcases qs with _ | ⟨q, qs⟩
      · exact absurd rfl hqs
      · rw [List.cons_append, List.nil_append, path_cons, path_single]
        simp only [List.append_assoc, List.cons_append]
    · have hrest := ih nofun
      rw [List.cons_append] at hrest
      rw [List.cons_append, List.cons_append, path_cons, path_cons, hrest]
      simp only [List.append_assoc, List.cons_append]

/-- What a path is continued with: nothing for no pairs. -/
def continuation (pairs : List (Str × Str)) : Str :=
  if pairs = [] then [] else urlParamSeparator :: path pairs

theorem path_continuation {ps : List (Str × Str)} (hps : ps ≠ []) (qs : List (Str × Str)) :
    path (ps ++ qs) = path ps ++ continuation qs := by
  unfold continuation
  split
  · next hqs => rw [hqs, List.append_nil, List.append_nil]
  · next hqs => exact path_append hps hqs

/-- A pair as it stands in a path. -/
def escapedPair (el : Str × Str) : Str × Str := (urlEscape el.1, urlEscape el.2)

def unescapedPair (el : Str × Str) : Str × Str := (urlUnescape el.1, urlUnescape el.2)

theorem encodeSimple_eq (d : Dictionary) : d.encodeSimple = path (d.rows.map escapedPair) := by
  rw [path, List.map_map]
  rfl

theorem unescapedPair_escapedPair (el : Str × Str) : unescapedPair (escapedPair el) = el := by
  simp only [unescapedPair, escapedPair, urlUnescape_urlEscape]

theorem unescapedPair_map (els : List (Str × Str)) :
    (els.map escapedPair).map unescapedPair = els := by
  rw [List.map_map]
  exact (List.map_congr_left fun el _ => unescapedPair_escapedPair el).trans (List.map_id els)

/-- An escaped text is a part. -/
theorem isPart_urlEscape {s : Str} (h : s ≠ []) : IsPart (urlEscape s) := by
  constructor
  · intro hnil
    have := urlUnescape_urlEscape s
    rw [hnil] at this
    exact h this.symm
  · intro hmem
    rcases urlEscape_chars hmem with h' | h'
    · revert h'
      decide
    · revert h'
      decide

/-- A text of safe characters is escaped as it is. -/
theorem urlEscape_of_safe {s : Str} (h : ∀ c ∈ s, urlSafe c = true) : urlEscape s = s := by
  induction s with
  | nil => rfl
  | cons c s ih =>
    show (if urlSafe c then [c] else _) ++ urlEscape s = c :: s
    rw [if_pos (h c List.mem_cons_self), ih fun d hd => h d (List.mem_cons_of_mem c hd)]
    rfl

theorem urlEscape_fromInt (x : Int) : urlEscape (fromInt x) = fromInt x := by
  refine urlEscape_of_safe fun c hc => ?_
  rcases fromInt_chars hc with rfl | hdigit
  · decide
  · rw [urlSafe, hdigit]
    rfl

theorem isPart_fromInt (x : Int) : IsPart (fromInt x) := by
  rw [← urlEscape_fromInt]
  exact isPart_urlEscape (fromInt_ne_nil x)

/-! ## A path is read as it was written -/

theorem decodeSimpleFrom_path {pairs : List (Str × Str)} (hparts : ∀ p ∈ pairs, IsPart p.1 ∧ IsPart p.2)
    {fuel : Nat} (hfuel : pairs.length ≤ fuel) (d : Dictionary) (hne : pairs ≠ []) :
    d.decodeSimpleFrom fuel (path pairs) = d.putAll (pairs.map unescapedPair) := by
  induction pairs generalizing fuel d with
  | nil => exact absurd rfl hne
  | cons p pairs ih =>
    obtain ⟨hkey, hvalue⟩ := hparts p List.mem_cons_self
    rcases fuel with _ | fuel
    · cases hfuel
    · rcases pairs with _ | ⟨q, pairs⟩
      · rw [path_single, Dictionary.decodeSimpleFrom, cut_append hkey.2]
        simp only [if_neg hkey.1, cut_whole hvalue.2, if_neg hvalue.1]
        rfl
      · rw [path_cons, Dictionary.decodeSimpleFrom, cut_append hkey.2]
        simp only [if_neg hkey.1, cut_append hvalue.2, if_neg hvalue.1]
        exact ih (fun r hr => hparts r (List.mem_cons_of_mem p hr)) (Nat.le_of_succ_le_succ hfuel) _
          nofun

theorem length_le_path (pairs : List (Str × Str)) : pairs.length ≤ (path pairs).length + 1 := by
  have := length_le_join urlParamSeparator
    (pairs.map fun p => p.1 ++ urlParamSeparator :: p.2)
  rwa [List.length_map] at this

/-- **Pairs of parts are read as they were written.** -/
theorem decodeSimple_path {pairs : List (Str × Str)} (hparts : ∀ p ∈ pairs, IsPart p.1 ∧ IsPart p.2)
    (hne : pairs ≠ []) (d : Dictionary) :
    d.decodeSimple (path pairs) = d.putAll (pairs.map unescapedPair) :=
  decodeSimpleFrom_path hparts (length_le_path pairs) d hne

end MediaTomb
