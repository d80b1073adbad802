/-
  What is encoded is decoded again.

  Numbers, URL-escaped text, dictionaries and resources go to the database as text.  Each text is
  put together from parts that do not contain the separator between them, so that taking it apart
  gives the parts back:

    * a number is digits behind a sign;
    * escaped text has no character but the safe ones and `%`;
    * so `&` and `=` divide a dictionary, `~` divides a resource, `|` divides a list of resources.
-/
import MediaTomb.Dictionary

namespace MediaTomb

/-! ## Numbers -/

/-- The number that digits stand for. -/
def digitsValue (acc : Nat) (ds : Str) : Nat := ds.foldl (fun acc c => acc * 10 + (c.toNat - 48)) acc

theorem digitsValue_append (acc : Nat) (ds es : Str) :
    digitsValue acc (ds ++ es) = digitsValue (digitsValue acc ds) es := List.foldl_append

theorem scanDigits_all {ds : Str} (h : ∀ c ∈ ds, isDigit c = true) (acc : Nat) :
    scanDigits acc ds = (digitsValue acc ds, []) := by
  induction ds generalizing acc with
  | nil => rfl
  | cons c ds ih =>
    rw [scanDigits, if_pos (h c List.mem_cons_self)]
    exact ih (fun d hd => h d (List.mem_cons_of_mem c hd)) _

/-- The digits of a number. -/
def digits (n : Nat) : Str := (Nat.toDigits 10 n).map Char.toUInt8

theorem digit_spec : ∀ d < 10, isDigit (Nat.digitChar d).toUInt8 = true ∧
    (Nat.digitChar d).toUInt8.toNat - 48 = d := by
  decide

theorem digits_small {n : Nat} (h : n < 10) : digits n = [(Nat.digitChar n).toUInt8] := by
  unfold digits
  rw [Nat.toDigits_of_lt_base h]
  rfl

theorem digits_large {n : Nat} (h : 10 ≤ n) :
    digits n = digits (n / 10) ++ [(Nat.digitChar (n % 10)).toUInt8] := by
  unfold digits
  rw [Nat.toDigits_of_base_le (by omega) h, List.map_append]
  rfl

theorem digits_spec (n : Nat) : (∀ c ∈ digits n, isDigit c = true) ∧ digitsValue 0 (digits n) = n := by
  induction n using Nat.strongRecOn with
  | ind n ih =>
    rcases Nat.lt_or_ge n 10 with hlt | hge
    · obtain ⟨hdigit, hvalue⟩ := digit_spec n hlt
      rw [digits_small hlt]
      refine ⟨fun c hc => ?_, ?_⟩
      · rw [List.mem_singleton.mp hc]
        exact hdigit
      · show 0 * 10 + ((Nat.digitChar n).toUInt8.toNat - 48) = n
        omega
    · obtain ⟨hdigits, hvalue⟩ := ih (n / 10) (by omega)
      obtain ⟨hdigit, hlast⟩ := digit_spec (n % 10) (by omega)
      rw [digits_large hge]
      refine ⟨fun c hc => ?_, ?_⟩
      · rcases List.mem_append.mp hc with hc | hc
        · exact hdigits c hc
        · rw [List.mem_singleton.mp hc]
          exact hdigit
      · rw [digitsValue_append, hvalue]
        show n / 10 * 10 + ((Nat.digitChar (n % 10)).toUInt8.toNat - 48) = n
        omega

theorem digits_ne_nil (n : Nat) : digits n ≠ [] := by
  unfold digits
  rw [ne_eq, List.map_eq_nil_iff]
  exact Nat.toDigits_ne_nil

theorem isDigit_facts {c : UInt8} (h : isDigit c = true) :
    isSpace c = false ∧ c ≠ '-'.toUInt8 ∧ c ≠ '+'.toUInt8 := by
  refine ⟨?_, ?_, ?_⟩
  · have hzero : '0'.toUInt8 = 48 := rfl
    have hnine : '9'.toUInt8 = 57 := rfl
    unfold isDigit at h
    rw [hzero, hnine] at h
    unfold isSpace
    grind
  · rintro rfl
    exact absurd h (by decide)
  · rintro rfl
    exact absurd h (by decide)

/-- `strtol` reads digits up to their end. -/
theorem strtol_digits (n : Nat) : strtol (digits n) = (min (n : Int) (2 ^ 63 - 1), []) := by
  obtain ⟨hdigits, hvalue⟩ := digits_spec n
  rcases hd : digits n with _ | ⟨c, r⟩
  · exact absurd hd (digits_ne_nil n)
  · rw [hd] at hdigits hvalue
    have hc := hdigits c List.mem_cons_self
    obtain ⟨hspace, hminus, hplus⟩ := isDigit_facts hc
    have hscan := scanDigits_all hdigits 0
    rw [hvalue] at hscan
    unfold strtol
    simp only [List.dropWhile_cons, hspace, Bool.false_eq_true, if_false, beq_iff_eq, hminus, hplus,
      hc, if_true, hscan]

theorem strtol_minus (n : Nat) :
    strtol ('-'.toUInt8 :: digits n) = (max (-(n : Int)) (-(2 ^ 63)), []) := by
  obtain ⟨hdigits, hvalue⟩ := digits_spec n
  rcases hd : digits n with _ | ⟨c, r⟩
  · exact absurd hd (digits_ne_nil n)
  · rw [hd] at hdigits hvalue
    have hc := hdigits c List.mem_cons_self
    have hspace : isSpace '-'.toUInt8 = false := by decide
    have hscan := scanDigits_all hdigits 0
    rw [hvalue] at hscan
    unfold strtol
    simp only [List.dropWhile_cons, hspace, Bool.false_eq_true, if_false, beq_self_eq_true, if_true,
      hc, hscan]

/-- **An `int` is read as it was written.** -/
theorem toInt_fromInt {x : Int} (hlow : -2 ^ 31 ≤ x) (hhigh : x < 2 ^ 31) :
    toInt (some (fromInt x)) = x := by
  have hfits : x.bmod (2 ^ 32) = x := by
    rw [Int.bmod_def]
    split <;> omega
  have hread : strtol (fromInt x) = (x, []) := by
    unfold fromInt
    simp only
    split_ifs with hneg
    · show strtol ('-'.toUInt8 :: digits x.natAbs) = (x, [])
      rw [strtol_minus]
      congr 1
      omega
    · show strtol (digits x.natAbs) = (x, [])
      rw [strtol_digits]
      congr 1
      omega
  unfold toInt
  simp only [hread]
  rw [if_pos trivial]
  exact hfits

/-- A number contains no separator. -/
theorem fromInt_chars {x : Int} {c : UInt8} (h : c ∈ fromInt x) :
    c = '-'.toUInt8 ∨ isDigit c = true := by
  have hdigits := (digits_spec x.natAbs).1
  unfold fromInt at h
  simp only at h
  split_ifs at h
  · rcases List.mem_cons.mp h with rfl | h
    · exact Or.inl rfl
    · exact Or.inr (hdigits c h)
  · exact Or.inr (hdigits c h)

theorem fromInt_ne_nil (x : Int) : fromInt x ≠ [] := by
  unfold fromInt
  simp only
  split_ifs
  · exact List.cons_ne_nil _ _
  · exact digits_ne_nil _

/-! ## Escaped text -/

/-- A byte as two hex digits. -/
theorem hex_spec : ∀ n < 16, hexValue (hexDigits.getD n 0) = n ∧
    urlSafe (hexDigits.getD n 0) = true := by
  decide

theorem urlSafe_plain {c : UInt8} (h : urlSafe c = true) : c ≠ '%'.toUInt8 ∧ c ≠ '+'.toUInt8 := by
  constructor
  · rintro rfl
    exact absurd h (by decide)
  · rintro rfl
    exact absurd h (by decide)

theorem urlUnescape_plain {c : UInt8} (hpercent : c ≠ '%'.toUInt8) (hplus : c ≠ '+'.toUInt8)
    (r : Str) : urlUnescape (c :: r) = c :: urlUnescape r := by
  rcases r with _ | ⟨hi, _ | ⟨lo, r⟩⟩
  · simp only [urlUnescape, beq_iff_eq, hpercent, hplus, if_false]
  · simp only [urlUnescape, beq_iff_eq, hpercent, hplus, if_false]
  · simp only [urlUnescape, beq_iff_eq, hpercent, hplus, if_false]

theorem urlUnescape_percent (hi lo : UInt8) (r : Str) :
    urlUnescape ('%'.toUInt8 :: hi :: lo :: r) =
      UInt8.ofNat (hexValue hi * 16 + hexValue lo) :: urlUnescape r := by
  rw [urlUnescape, if_pos (by decide)]

theorem urlUnescape_urlEscape (s : Str) : urlUnescape (urlEscape s) = s := by
  induction s with
  | nil => rfl
  | cons c s ih =>
    have hcons : urlEscape (c :: s) = (if urlSafe c then [c] else
        ['%'.toUInt8, hexDigits.getD (c.toNat / 16) 0, hexDigits.getD (c.toNat % 16) 0]) ++
          urlEscape s := rfl
    rw [hcons]
    split_ifs with hsafe
    · obtain ⟨hpercent, hplus⟩ := urlSafe_plain hsafe
      show urlUnescape (c :: urlEscape s) = c :: s
      rw [urlUnescape_plain hpercent hplus, ih]
    · have hbyte := c.toNat_lt
      have hhi := (hex_spec (c.toNat / 16) (by omega)).1
      have hlo := (hex_spec (c.toNat % 16) (by omega)).1
      show urlUnescape ('%'.toUInt8 :: hexDigits.getD (c.toNat / 16) 0 ::
        hexDigits.getD (c.toNat % 16) 0 :: urlEscape s) = c :: s
      rw [urlUnescape_percent, ih, hhi, hlo, Nat.mul_comm, Nat.div_add_mod, UInt8.ofNat_toNat]

/-- Escaped text has no separator in it. -/
theorem urlEscape_chars {s : Str} {c : UInt8} (h : c ∈ urlEscape s) :
    c = '%'.toUInt8 ∨ urlSafe c = true := by
  unfold urlEscape at h
  obtain ⟨b, -, hb⟩ := List.mem_flatMap.mp h
  have hbyte := b.toNat_lt
  split_ifs at hb with hsafe
  · rw [List.mem_singleton.mp hb]
    exact Or.inr hsafe
  · rcases List.mem_cons.mp hb with rfl | hb
    · exact Or.inl rfl
    · rcases List.mem_cons.mp hb with rfl | hb
      · exact Or.inr (hex_spec _ (by omega)).2
      · rw [List.mem_singleton.mp hb]
        exact Or.inr (hex_spec _ (by omega)).2

/-! ## Parts and separators -/

section

variable {c : UInt8} {p q : Str} {ps : List Str}

theorem cut_append (h : c ∉ p) (r : Str) : cut c (p ++ c :: r) = (p, some r) := by
  induction p with
  | nil =>
    show (if c == c then ([], some r) else _) = _
    rw [if_pos (beq_self_eq_true c)]
  | cons d p ih =>
    have hne : ¬ (d == c) = true := by
      rw [beq_iff_eq]
      rintro rfl
      exact h List.mem_cons_self
    rw [List.cons_append, cut, if_neg hne, ih fun hc => h (List.mem_cons_of_mem d hc)]

theorem cut_whole (h : c ∉ p) : cut c p = (p, none) := by
  induction p with
  | nil => rfl
  | cons d p ih =>
    have hne : ¬ (d == c) = true := by
      rw [beq_iff_eq]
      rintro rfl
      exact h List.mem_cons_self
    rw [cut, if_neg hne, ih fun hc => h (List.mem_cons_of_mem d hc)]

theorem join_cons (c : UInt8) (p q : Str) (ps : List Str) :
    [c].intercalate (p :: q :: ps) = p ++ c :: [c].intercalate (q :: ps) := by
  simp only [List.intercalate, List.intersperse_cons_cons, List.flatten_cons, List.singleton_append]

theorem join_single (c : UInt8) (p : Str) : [c].intercalate [p] = p := by
  simp only [List.intercalate, List.intersperse_singleton, List.flatten_cons, List.flatten_nil,
    List.append_nil]

theorem length_le_join (c : UInt8) (ps : List Str) : ps.length ≤ ([c].intercalate ps).length + 1 := by
  induction ps with
  | nil => exact Nat.zero_le _
  | cons p ps ih =>
    rcases ps with _ | ⟨q, ps⟩
    · exact Nat.le_add_left _ _
    · rw [join_cons, List.length_append, List.length_cons]
      simp only [List.length_cons] at ih ⊢
      omega

/-- Characters of the parts. -/
theorem mem_join {d : UInt8} (h : d ∈ [c].intercalate ps) : d = c ∨ ∃ p ∈ ps, d ∈ p := by
  induction ps with
  | nil => cases h
  | cons p ps ih =>
    rcases ps with _ | ⟨q, ps⟩
    · rw [join_single] at h
      exact Or.inr ⟨p, List.mem_cons_self, h⟩
    · rw [join_cons] at h
      rcases List.mem_append.mp h with hp | hrest
      · exact Or.inr ⟨p, List.mem_cons_self, hp⟩
      · rcases List.mem_cons.mp hrest with rfl | hrest
        · exact Or.inl rfl
        · rcases ih hrest with hc | ⟨q', hq', hd⟩
          · exact Or.inl hc
          · exact Or.inr ⟨q', List.mem_cons_of_mem p hq', hd⟩

theorem splitStringFrom_plain {empty : Bool} (h : c ∉ p) (cur r : Str) :
    splitStringFrom c empty cur (p ++ r) = splitStringFrom c empty (cur ++ p) r := by
  induction p generalizing cur with
  | nil => rw [List.nil_append, List.append_nil]
  | cons d p ih =>
    have hne : ¬ (d == c) = true := by
      rw [beq_iff_eq]
      rintro rfl
      exact h List.mem_cons_self
    rw [List.cons_append, splitStringFrom, if_neg hne, ih (fun hc => h (List.mem_cons_of_mem d hc)),
      List.append_assoc]
    rfl

/-- A part that is not empty is split off. -/
theorem splitStringFrom_part {empty : Bool} (h : c ∉ p) (hne : p ≠ []) (r : Str) :
    splitStringFrom c empty [] (p ++ c :: r) = p :: splitStringFrom c empty [] r := by
  rw [splitStringFrom_plain h, List.nil_append, splitStringFrom, if_pos (beq_self_eq_true c),
    if_neg hne]

theorem splitStringFrom_last {empty : Bool} (h : c ∉ p) (hne : p ≠ []) :
    splitStringFrom c empty [] p = [p] := by
  have hplain : splitStringFrom c empty [] (p ++ []) = splitStringFrom c empty ([] ++ p) [] :=
    splitStringFrom_plain h [] []
  rw [List.append_nil, List.nil_append] at hplain
  rw [hplain, splitStringFrom, if_neg hne]

/-- Empty parts count where something follows. -/
theorem splitStringFrom_before (h : c ∉ p) {r : Str} (hr : r ≠ []) :
    splitStringFrom c true [] (p ++ c :: r) = p :: splitStringFrom c true [] r := by
  rcases Decidable.em (p = []) with rfl | hne
  · rw [List.nil_append, splitStringFrom, if_pos (beq_self_eq_true c), if_pos rfl,
      if_pos ⟨hr, rfl⟩]
  · exact splitStringFrom_part h hne r

theorem splitStringFrom_sep : splitStringFrom c true [] [c] = [] := by
  rw [splitStringFrom, if_pos (beq_self_eq_true c), if_pos rfl, if_neg (by simp)]
  rfl

/-- **Parts that are not empty** are taken apart as they were put together. -/
theorem splitString_join (hno : ∀ p ∈ ps, c ∉ p) (hne : ∀ p ∈ ps, p ≠ []) :
    splitString (some ([c].intercalate ps)) c false = ps := by
  show splitStringFrom c false [] ([c].intercalate ps) = ps
  induction ps with
  | nil => rfl
  | cons p ps ih =>
    have hp := hno p List.mem_cons_self
    have hp' := hne p List.mem_cons_self
    rcases ps with _ | ⟨q, ps⟩
    · rw [join_single]
      exact splitStringFrom_last hp hp'
    · rw [join_cons, splitStringFrom_part hp hp']
      congr 1
      exact ih (fun p h => hno p (List.mem_cons_of_mem _ h)) fun p h => hne p (List.mem_cons_of_mem _ h)

end

/-! ## Dictionaries -/

namespace Dictionary

/-- An element as text. -/
def encodeElement (el : Str × Str) : Str := urlEscape el.1 ++ '='.toUInt8 :: urlEscape el.2

theorem encodeElement_chars {el : Str × Str} {c : UInt8} (h : c ∈ encodeElement el) :
    c = '%'.toUInt8 ∨ c = '='.toUInt8 ∨ urlSafe c = true := by
  rcases List.mem_append.mp h with h | h
  · rcases urlEscape_chars h with h | h
    · exact Or.inl h
    · exact Or.inr (Or.inr h)
  · rcases List.mem_cons.mp h with h | h
    · exact Or.inr (Or.inl h)
    · rcases urlEscape_chars h with h | h
      · exact Or.inl h
      · exact Or.inr (Or.inr h)

/-- The text of a dictionary has these characters only. -/
theorem encode_chars {d : Dictionary} {c : UInt8} (h : c ∈ d.encode) :
    c = '&'.toUInt8 ∨ c = '%'.toUInt8 ∨ c = '='.toUInt8 ∨ urlSafe c = true := by
  rcases mem_join h with h | ⟨p, hp, hc⟩
  · exact Or.inl h
  · obtain ⟨el, -, rfl⟩ := List.mem_map.mp hp
    exact Or.inr (encodeElement_chars hc)

theorem ampParts_join {ps : List Str} (hno : ∀ p ∈ ps, '&'.toUInt8 ∉ p) (hne : ps ≠ []) {fuel : Nat}
    (hfuel : ps.length ≤ fuel) : ampParts fuel (['&'.toUInt8].intercalate ps) = ps := by
  induction ps generalizing fuel with
  | nil => exact absurd rfl hne
  | cons p ps ih =>
    obtain ⟨fuel, rfl⟩ : ∃ n, fuel = n + 1 := ⟨fuel - 1, by simp only [List.length_cons] at hfuel; omega⟩
    have hp := hno p List.mem_cons_self
    rcases ps with _ | ⟨q, ps⟩
    · rw [join_single, ampParts, cut_whole hp]
    · rw [join_cons, ampParts, cut_append hp]
      simp only
      rw [ih (fun p h => hno p (List.mem_cons_of_mem _ h)) (List.cons_ne_nil _ _)]
      simp only [List.length_cons] at hfuel ⊢
      omega

theorem decodePart_encodeElement (d : Dictionary) (el : Str × Str) :
    d.decodePart (encodeElement el) = d.put el.1 el.2 := by
  have hno : '='.toUInt8 ∉ urlEscape el.1 := by
    intro h
    rcases urlEscape_chars h with h | h
    · revert h
      decide
    · revert h
      decide
  unfold decodePart encodeElement
  rw [cut_append hno]
  simp only
  rw [urlUnescape_urlEscape, urlUnescape_urlEscape]

theorem put_fresh {d : Dictionary} {el : Str × Str} (h : el.1 ∉ d.rows.map Prod.fst) :
    (d.put el.1 el.2).rows = d.rows ++ [el] := by
  obtain ⟨d', hd', hrows⟩ := Lib.Table.insert?_of_fresh (t := d) (r := el) h
  unfold put
  rw [hd']
  exact hrows

/-- Elements with new keys are appended, in their order. -/
theorem foldl_decodePart {d : Dictionary} {els : List (Str × Str)}
    (h : ((d.rows ++ els).map Prod.fst).Nodup) :
    ((els.map encodeElement).foldl decodePart d).rows = d.rows ++ els := by
  induction els generalizing d with
  | nil => rw [List.map_nil, List.foldl_nil, List.append_nil]
  | cons el els ih =>
    have hfresh : el.1 ∉ d.rows.map Prod.fst := by
      rw [List.map_append, List.map_cons] at h
      intro hmem
      exact (List.nodup_append.mp h).2.2 _ hmem _ List.mem_cons_self rfl
    have hput := put_fresh hfresh
    rw [List.map_cons, List.foldl_cons, decodePart_encodeElement, ih, hput, List.append_assoc]
    · rfl
    · rw [hput, List.append_assoc]
      exact h

/-- **A dictionary is decoded as it was encoded.** -/
theorem decode_encode (d : Dictionary) : decode .empty (some d.encode) = d := by
  have hno : ∀ p ∈ d.rows.map encodeElement, '&'.toUInt8 ∉ p := by
    intro p hp hamp
    obtain ⟨el, -, rfl⟩ := List.mem_map.mp hp
    rcases encodeElement_chars hamp with h | h | h
    · revert h
      decide
    · revert h
      decide
    · revert h
      decide
  refine Lib.Table.ext ?_
  show ((ampParts (d.encode.length + 1) d.encode).foldl decodePart .empty).rows = d.rows
  rcases hrows : d.rows with _ | ⟨el, els⟩
  · have hnil : d.encode = [] := by
      show ['&'.toUInt8].intercalate (d.rows.map encodeElement) = []
      rw [hrows]
      rfl
    rw [hnil]
    rfl
  · have hparts : ampParts (d.encode.length + 1) d.encode = d.rows.map encodeElement :=
      ampParts_join hno (by rw [hrows]; exact List.cons_ne_nil _ _) (length_le_join _ _)
    rw [hparts, ← hrows, foldl_decodePart]
    · rfl
    · exact d.nodup

end Dictionary

/-! ## Resources -/

namespace CdsResource

theorem not_mem_encode {d : Dictionary} {c : UInt8} (h : urlSafe c = false)
    (hsep : c ≠ '&'.toUInt8 ∧ c ≠ '%'.toUInt8 ∧ c ≠ '='.toUInt8) : c ∉ d.encode := by
  intro hmem
  rcases Dictionary.encode_chars hmem with h' | h' | h' | h'
  · exact hsep.1 h'
  · exact hsep.2.1 h'
  · exact hsep.2.2 h'
  · rw [h'] at h
    cases h

theorem not_mem_fromInt {x : Int} {c : UInt8} (hminus : c ≠ '-'.toUInt8) (h : isDigit c = false) :
    c ∉ fromInt x := by
  intro hmem
  rcases fromInt_chars hmem with h' | h'
  · exact hminus h'
  · rw [h'] at h
    cases h

/-- The parts that come out: those at the end are missing where nothing is in them. -/
theorem splitString_encode (r : CdsResource) :
    splitString (some r.encode) resourcePartSep true =
      [fromInt r.handlerType, r.attributes.encode] ++
        (if r.options.encode = [] then
          if r.parameters.encode = [] then [] else [r.parameters.encode]
        else [r.parameters.encode, r.options.encode]) := by
  have hdict : ∀ d : Dictionary, resourcePartSep ∉ d.encode := fun d =>
    not_mem_encode (by decide) (by decide)
  have hint : resourcePartSep ∉ fromInt r.handlerType := not_mem_fromInt (by decide) (by decide)
  have htext : r.encode = fromInt r.handlerType ++ resourcePartSep ::
      (r.attributes.encode ++ resourcePartSep ::
        (r.parameters.encode ++ resourcePartSep :: r.options.encode)) := by
    unfold encode
    rw [join_cons, join_cons, join_cons, join_single]
  have hmore : ∀ p r : Str, p ++ resourcePartSep :: r ≠ [] := fun p r =>
    List.append_ne_nil_of_right_ne_nil p (List.cons_ne_nil _ r)
  show splitStringFrom resourcePartSep true [] r.encode = _
  rw [htext, splitStringFrom_before hint (hmore _ _), splitStringFrom_before (hdict _) (hmore _ _)]
  congr 2
  by_cases hoptions : r.options.encode = []
  · rw [if_pos hoptions, hoptions]
    by_cases hparams : r.parameters.encode = []
    · rw [if_pos hparams, hparams]
      exact splitStringFrom_sep
    · rw [if_neg hparams, splitStringFrom_part (hdict _) hparams]
      rfl
  · rw [if_neg hoptions, splitStringFrom_before (hdict _) hoptions,
      splitStringFrom_last (hdict _) hoptions]
    rfl

/-- A dictionary without text is empty. -/
theorem decode_missing {d : Dictionary} (h : d.encode = []) : Dictionary.decode .empty none = d := by
  have hdecode := Dictionary.decode_encode d
  rw [h] at hdecode
  exact hdecode

/-- **A resource is decoded as it was encoded**, its handler type being an `int`. -/
theorem decode_encode {r : CdsResource} (hlow : -2 ^ 31 ≤ r.handlerType)
    (hhigh : r.handlerType < 2 ^ 31) : decode r.encode = .ok r := by
  have hint := toInt_fromInt hlow hhigh
  have hattributes := Dictionary.decode_encode r.attributes
  have hparts := splitString_encode r
  unfold decode
  by_cases hoptions : r.options.encode = []
  · rw [if_pos hoptions] at hparts
    by_cases hparams : r.parameters.encode = []
    · rw [if_pos hparams] at hparts
      rw [hparts]
      show Except.ok (decode.ofParts _ _ none none) = _
      unfold decode.ofParts
      rw [hint, hattributes]
      exact congrArg Except.ok (congrArg₂ (CdsResource.mk _ _) (decode_missing hparams)
        (decode_missing hoptions))
    · rw [if_neg hparams] at hparts
      rw [hparts]
      show Except.ok (decode.ofParts _ _ (some _) none) = _
      unfold decode.ofParts
      rw [hint, hattributes, Dictionary.decode_encode, decode_missing hoptions]
  · rw [if_neg hoptions] at hparts
    rw [hparts]
    show Except.ok (decode.ofParts _ _ (some _) (some _)) = _
    unfold decode.ofParts
    rw [hint, hattributes, Dictionary.decode_encode, Dictionary.decode_encode]

theorem encode_ne_nil (r : CdsResource) : r.encode ≠ [] := by
  unfold encode
  rw [join_cons]
  exact List.append_ne_nil_of_right_ne_nil _ (List.cons_ne_nil _ _)

/-- The text of a resource has no separator of a list in it. -/
theorem not_mem_encode_resource {r : CdsResource} {c : UInt8} (hpart : c ≠ resourcePartSep)
    (hminus : c ≠ '-'.toUInt8) (hdigit : isDigit c = false) (hsafe : urlSafe c = false)
    (hsep : c ≠ '&'.toUInt8 ∧ c ≠ '%'.toUInt8 ∧ c ≠ '='.toUInt8) : c ∉ r.encode := by
  intro hmem
  rcases mem_join hmem with h | ⟨p, hp, hc⟩
  · exact hpart h
  · rcases List.mem_cons.mp hp with rfl | hp
    · exact not_mem_fromInt hminus hdigit hc
    · rcases List.mem_cons.mp hp with rfl | hp
      · exact not_mem_encode hsafe hsep hc
      · rcases List.mem_cons.mp hp with rfl | hp
        · exact not_mem_encode hsafe hsep hc
        · rw [List.mem_singleton.mp hp] at hc
          exact not_mem_encode hsafe hsep hc

end CdsResource

end MediaTomb
