/-
  Documents of XML 1.0, as far as elements, attributes and character data go.

    * a document is bytes in UTF-8.  LINE ENDS are normalized first; then the references to the five
      predefined entities become tokens (`lex`), which no other `&` can;
    * `document` reads the tokens: tags with attributes in double quotes and one white space before
      each, data, and the end tags that belong to them.  White space in attribute values is
      normalized.  What it reports is a list of events;
    * what stands in names, which characters are allowed, and that no attribute is repeated in a
      tag, are conditions on their own (`IsName`, `Characters`, `Unique`).

  Other documents (comments, sections, declarations, references to characters, and so on) are not
  covered: `reference` reports nothing for them.  So `Conforming` demands nothing of a parser there.
  It may deliver character data in pieces of any size: `merge` puts them together.
-/
import MediaTomb.Lib.Utf8

namespace MediaTomb.Lib.Xml

abbrev Text := List UInt8

/-- What a parser reports. -/
inductive Event
  | start (name : Text) (attributes : List (Text × Text))
  | stop (name : Text)
  | data (text : Text)
  deriving DecidableEq

/-! ## Characters and names -/

def inRanges (ranges : List (Nat × Nat)) (c : Char) : Bool :=
  ranges.any fun range => range.1 ≤ c.toNat && c.toNat ≤ range.2

/-- `Char` -/
def isChar (c : Char) : Bool :=
  inRanges [(0x9, 0xA), (0xD, 0xD), (0x20, 0xD7FF), (0xE000, 0xFFFD), (0x10000, 0x10FFFF)] c

/-- `NameStartChar` -/
def isNameStartChar (c : Char) : Bool :=
  inRanges [(0x3A, 0x3A), (0x41, 0x5A), (0x5F, 0x5F), (0x61, 0x7A), (0xC0, 0xD6), (0xD8, 0xF6),
    (0xF8, 0x2FF), (0x370, 0x37D), (0x37F, 0x1FFF), (0x200C, 0x200D), (0x2070, 0x218F),
    (0x2C00, 0x2FEF), (0x3001, 0xD7FF), (0xF900, 0xFDCF), (0xFDF0, 0xFFFD),
    (0x10000, 0xEFFFF)] c

/-- `NameChar` -/
def isNameChar (c : Char) : Bool :=
  isNameStartChar c ||
    inRanges [(0x2D, 0x2E), (0x30, 0x39), (0xB7, 0xB7), (0x300, 0x36F), (0x203F, 0x2040)] c

/-- `Name`, in UTF-8. -/
def IsName (name : Text) : Prop :=
  ∃ c cs, isNameStartChar c = true ∧ (∀ d ∈ cs, isNameChar d = true) ∧
    Utf8.encode (c :: cs) = name

/-- UTF-8, and every character is allowed. -/
def Characters (text : Text) : Prop := ∃ cs, (∀ c ∈ cs, isChar c = true) ∧ Utf8.encode cs = text

/-! ## Line ends and references -/

/-- A CR before a LF is dropped, and any other is a LF. -/
def normalizeLineEnds : Text → Text
  | [] => []
  | c :: r =>
    if c = 13 then
      if r.head? = some 10 then normalizeLineEnds r else 10 :: normalizeLineEnds r
    else c :: normalizeLineEnds r

/-- A character as it stands, or one that was referred to. -/
inductive Token
  | char (c : UInt8)
  | ref (c : UInt8)
  deriving DecidableEq

/-- The predefined entities, behind their `&`. -/
def entities : List (Text × UInt8) :=
  [([108, 116, 59], 60), ([103, 116, 59], 62), ([97, 109, 112, 59], 38),
    ([113, 117, 111, 116, 59], 34), ([97, 112, 111, 115, 59], 39)]

/-- The tokens of a text; so many bytes belong to the last token already. -/
def lex : Nat → Text → Option (List Token)
  | _, [] => some []
  | n + 1, _ :: r => lex n r
  | 0, c :: r =>
    if c = 38 then
      (entities.find? fun entity => entity.1.isPrefixOf r).bind fun entity =>
        (lex entity.1.length r).map (.ref entity.2 :: ·)
    else (lex 0 r).map (.char c :: ·)

/-! ## Tags -/

def isSpace (c : UInt8) : Bool := c == 32 || c == 9 || c == 10 || c == 13

/-- No name goes on at these: white space, and `! " & ' / < = > ?`. -/
def isDelimiter (c : UInt8) : Bool :=
  isSpace c || [33, 34, 38, 39, 47, 60, 61, 62, 63].contains c

/-- These characters come next. -/
def expect : Text → List Token → Option (List Token)
  | [], ts => some ts
  | c :: cs, .char d :: ts => if c = d then expect cs ts else none
  | _ :: _, _ => none

def nameOf : List Token → Text × List Token
  | .char c :: ts =>
    if isDelimiter c then ([], .char c :: ts) else (c :: (nameOf ts).1, (nameOf ts).2)
  | ts => ([], ts)

/-- An attribute value up to its quote; white space is normalized. -/
def attValue : List Token → Option (Text × List Token)
  | [] => none
  | .ref c :: ts => (attValue ts).map fun value => (c :: value.1, value.2)
  | .char c :: ts =>
    if c = 34 then some ([], ts)
    else if c = 60 then none
    else (attValue ts).map fun value => ((if isSpace c then 32 else c) :: value.1, value.2)

/-- `name="value"` -/
def oneAttribute (ts : List Token) : Option ((Text × Text) × List Token) :=
  (expect [61, 34] (nameOf ts).2).bind fun ts' =>
    (attValue ts').map fun value => (((nameOf ts).1, value.1), value.2)

/-- The attributes of a tag, each behind a white space. -/
def attributes : Nat → List Token → Option (List (Text × Text) × List Token)
  | 0, _ => none
  | fuel + 1, .char c :: ts =>
    if isSpace c then
      (oneAttribute ts).bind fun a =>
        (attributes fuel a.2).map fun rest => (a.1 :: rest.1, rest.2)
    else some ([], .char c :: ts)
  | _ + 1, ts => some ([], ts)

/-- What stands behind a `<`: a tag that is opened, with all that is in it, or is empty.  `go` reads
    on, inside the elements that are open. -/
def openTag (go : List Text → List Token → Option (List Event)) (opened : List Text)
    (ts : List Token) : Option (List Event) :=
  (attributes ts.length (nameOf ts).2).bind fun tag =>
    match expect [62] tag.2 with
    | some rest =>
      (go ((nameOf ts).1 :: opened) rest).map (.start (nameOf ts).1 tag.1 :: ·)
    | none =>
      (expect [47, 62] tag.2).bind fun rest =>
        (go opened rest).map fun es =>
          .start (nameOf ts).1 tag.1 :: .stop (nameOf ts).1 :: es

/-- What stands in the elements that are open, the innermost first. -/
def content : Nat → List Text → List Token → Option (List Event)
  | 0, _, _ => none
  | _ + 1, [], ts => if ts = [] then some [] else none
  | _ + 1, _ :: _, [] => none
  | fuel + 1, name :: opened, .ref c :: ts =>
    (content fuel (name :: opened) ts).map (.data [c] :: ·)
  | fuel + 1, name :: opened, .char c :: ts =>
    if c = 60 then
      match expect (47 :: (name ++ [62])) ts with
      | some rest => (content fuel opened rest).map (.stop name :: ·)
      | none => openTag (content fuel) (name :: opened) ts
    else if c = 62 then none
    else (content fuel (name :: opened) ts).map (.data [c] :: ·)

/-- A document that is one element. -/
def document (ts : List Token) : Option (List Event) :=
  (expect [60] ts).bind fun ts' => openTag (content ts.length) [] ts'

/-- **What is to be reported of a document**, if it is covered. -/
def reference (doc : Text) : Option (List Event) :=
  (lex 0 (normalizeLineEnds doc)).bind document

/-! ## Parsers -/

/-- The names of elements and attributes are names. -/
def Named (es : List Event) : Prop :=
  ∀ name attributes, .start name attributes ∈ es →
    IsName name ∧ ∀ a ∈ attributes, IsName a.1

/-- No attribute is repeated in a tag. -/
def Unique (es : List Event) : Prop :=
  ∀ name attributes, .start name attributes ∈ es → (attributes.map Prod.fst).Nodup

/-- **Well-formed**, and covered. -/
def WellFormed (doc : Text) : Prop :=
  Characters doc ∧ ∃ es, reference doc = some es ∧ Named es ∧ Unique es

def addData (text : Text) (es : List Event) : List Event :=
  if text = [] then es
  else
    match es with
    | .data text' :: es' => .data (text ++ text') :: es'
    | _ => .data text :: es

/-- Adjacent character data put together. -/
def merge : List Event → List Event
  | [] => []
  | .data text :: es => addData text (merge es)
  | .start name attributes :: es => .start name attributes :: merge es
  | .stop name :: es => .stop name :: merge es

/-- **A conforming parser** reports what is to be reported, with the data in any pieces, and refuses
    a document in which an attribute is repeated. -/
def Conforming (parse : Text → Option (List Event)) : Prop :=
  ∀ doc es, Characters doc → reference doc = some es → Named es →
    (Unique es → ∃ got, parse doc = some got ∧ merge got = merge es) ∧
      (¬ Unique es → parse doc = none)

/-! ## Characters in UTF-8 -/

section

variable {c : Char} {b : UInt8} {s t name : Text}

theorem characters_nil : Characters [] := ⟨[], fun _ hc => (List.not_mem_nil hc).elim, rfl⟩

theorem Characters.append (hs : Characters s) (ht : Characters t) : Characters (s ++ t) := by
  obtain ⟨cs, hcs, rfl⟩ := hs
  obtain ⟨ds, hds, rfl⟩ := ht
  refine ⟨cs ++ ds, ?_, Utf8.encode_append cs ds⟩
  intro c hc
  rcases List.mem_append.mp hc with hc | hc
  · exact hcs c hc
  · exact hds c hc

/-- A byte that is a character itself. -/
theorem characters_one (h : 0x20 ≤ b.toNat ∧ b.toNat < 0x80) : Characters [b] := by
  have hvalid : b.toNat.isValidChar := Or.inl (by omega)
  have hnat : (Char.ofNat b.toNat).toNat = b.toNat := by
    rw [Char.toNat_ofNat, if_pos hvalid]
  refine ⟨[Char.ofNat b.toNat], ?_, ?_⟩
  · intro c hc
    rw [List.mem_singleton.mp hc]
    unfold isChar inRanges
    rw [hnat]
    simp only [List.any_cons, Bool.or_eq_true, Bool.and_eq_true, decide_eq_true_eq]
    omega
  · rcases Utf8.encodeChar_cases (Char.ofNat b.toNat) with ⟨_, henc⟩ | ⟨hlarge, _⟩
    · rw [Utf8.encode_cons, henc, hnat, UInt8.ofNat_toNat]
      rfl
    · omega

theorem characters_ascii (h : ∀ b ∈ s, 0x20 ≤ b.toNat ∧ b.toNat < 0x80) : Characters s := by
  induction s with
  | nil => exact characters_nil
  | cons b s ih =>
    obtain ⟨hb, hs⟩ := List.forall_mem_cons.mp h
    exact (characters_one hb).append (ih hs)

/-- There is no control character but three below the blank. -/
theorem Characters.controls (h : Characters s) (hb : b ∈ s) :
    0x20 ≤ b.toNat ∨ b = 9 ∨ b = 10 ∨ b = 13 := by
  obtain ⟨cs, hcs, rfl⟩ := h
  rcases Utf8.mem_encode hb with ⟨c, hc, hsmall, rfl⟩ | hlarge
  · have hchar := hcs c hc
    unfold isChar inRanges at hchar
    simp only [List.any_cons, List.any_nil, Bool.or_eq_true, Bool.and_eq_true, decide_eq_true_eq,
      Bool.or_false] at hchar
    have hnat : (UInt8.ofNat c.toNat).toNat = c.toNat := UInt8.toNat_ofNat_of_lt' (by
      show c.toNat < 256
      omega)
    by_cases hblank : 0x20 ≤ c.toNat
    · left
      omega
    · have hthree : c.toNat = 9 ∨ c.toNat = 10 ∨ c.toNat = 13 := by omega
      rcases hthree with hc | hc | hc
      · exact Or.inr (Or.inl (by rw [hc]; rfl))
      · exact Or.inr (Or.inr (Or.inl (by rw [hc]; rfl)))
      · exact Or.inr (Or.inr (Or.inr (by rw [hc]; rfl)))
  · left
    omega

theorem Characters.noNul (h : Characters s) : (0 : UInt8) ∉ s := by
  intro hb
  rcases h.controls hb with hlarge | h9 | h10 | h13
  · exact absurd hlarge (by decide)
  · exact absurd h9 (by decide)
  · exact absurd h10 (by decide)
  · exact absurd h13 (by decide)

theorem isChar_of_isNameChar (h : isNameChar c = true) : isChar c = true := by
  unfold isNameChar isNameStartChar inRanges at h
  unfold isChar inRanges
  simp only [List.any_cons, List.any_nil, Bool.or_eq_true, Bool.and_eq_true, decide_eq_true_eq,
    Bool.or_false] at h ⊢
  omega

/-- The delimiters, by their codes. -/
theorem isDelimiter_iff {b : UInt8} : isDelimiter b = true ↔
    b.toNat ∈ [9, 10, 13, 32, 33, 34, 38, 39, 47, 60, 61, 62, 63] := by
  unfold isDelimiter isSpace
  simp only [List.contains_eq_mem, List.mem_cons, UInt8.ext_iff, UInt8.reduceToNat,
    List.not_mem_nil, or_false, Bool.decide_or, Bool.or_eq_true, beq_iff_eq, decide_eq_true_eq]
  omega

theorem isDelimiter_of_isNameChar (h : isNameChar c = true) (hsmall : c.toNat < 0x80) :
    isDelimiter (UInt8.ofNat c.toNat) = false := by
  have hbyte : c.toNat < 256 := by omega
  rw [Bool.eq_false_iff, ne_eq, isDelimiter_iff, UInt8.toNat_ofNat_of_lt' hbyte]
  intro hdelimiter
  unfold isNameChar isNameStartChar inRanges at h
  simp only [List.any_cons, List.any_nil, Bool.or_eq_true, Bool.and_eq_true, decide_eq_true_eq,
    Bool.or_false] at h
  simp only [List.mem_cons, List.not_mem_nil, or_false] at hdelimiter
  omega

theorem IsName.chars (h : IsName name) :
    ∃ cs, (∀ c ∈ cs, isNameChar c = true) ∧ Utf8.encode cs = name := by
  obtain ⟨c, cs, hc, hcs, hname⟩ := h
  refine ⟨c :: cs, List.forall_mem_cons.mpr ⟨?_, hcs⟩, hname⟩
  unfold isNameChar
  rw [hc, Bool.true_or]

theorem IsName.characters (h : IsName name) : Characters name := by
  obtain ⟨cs, hcs, hname⟩ := h.chars
  exact ⟨cs, fun c hc => isChar_of_isNameChar (hcs c hc), hname⟩

/-- **No byte of a name ends it.** -/
theorem IsName.isDelimiter (h : IsName name) : ∀ b ∈ name, isDelimiter b = false := by
  obtain ⟨cs, hcs, rfl⟩ := h.chars
  intro b hb
  rcases Utf8.mem_encode hb with ⟨c, hc, hsmall, rfl⟩ | hlarge
  · exact isDelimiter_of_isNameChar (hcs c hc) hsmall
  · -- the delimiters are below `0x80`
    rw [Bool.eq_false_iff, ne_eq, isDelimiter_iff]
    simp only [List.mem_cons, List.not_mem_nil, or_false]
    omega

theorem IsName.ne_nil (h : IsName name) : name ≠ [] := by
  obtain ⟨c, cs, -, -, rfl⟩ := h
  rw [Utf8.encode_cons]
  obtain ⟨a, ts, henc, -⟩ := Utf8.encodeChar_eq c
  rw [henc]
  exact List.cons_ne_nil _ _

end

/-! ## Tokens of what has been escaped -/

/-- The tokens of a document. -/
def scan (text : Text) : Option (List Token) := lex 0 (normalizeLineEnds text)

/-- The characters that the entities stand for. -/
def specials : List UInt8 := [60, 62, 38, 34, 39]

theorem special_cases {c : UInt8} (h : c ∈ specials) :
    c = 60 ∨ c = 62 ∨ c = 38 ∨ c = 34 ∨ c = 39 := by
  unfold specials at h
  simpa only [List.mem_cons, List.not_mem_nil, or_false] using h

/-- The token of a character where these are referred to. -/
def tokenOf (c : UInt8) : Token := if c ∈ specials then .ref c else .char c

theorem tokenOf_special {c : UInt8} (h : c ∈ specials) : tokenOf c = .ref c := if_pos h

theorem tokenOf_plain {c : UInt8} (h : c ∉ specials) : tokenOf c = .char c := if_neg h

section

variable {c : UInt8} {w r s : Text}

theorem normalizeLineEnds_cons (h : c ≠ 13) :
    normalizeLineEnds (c :: r) = c :: normalizeLineEnds r := by
  rw [normalizeLineEnds, if_neg h]

theorem normalizeLineEnds_append (h : (13 : UInt8) ∉ w) :
    normalizeLineEnds (w ++ r) = w ++ normalizeLineEnds r := by
  induction w with
  | nil => rfl
  | cons c w ih =>
    rw [List.mem_cons, not_or] at h
    rw [List.cons_append, normalizeLineEnds_cons (Ne.symm h.1), ih h.2, List.cons_append]

theorem not_mem_normalizeLineEnds (s : Text) : (13 : UInt8) ∉ normalizeLineEnds s := by
  induction s with
  | nil => exact List.not_mem_nil
  | cons c s ih =>
    rw [normalizeLineEnds]
    split
    · split
      · exact ih
      · rw [List.mem_cons, not_or]
        exact ⟨by decide, ih⟩
    · next hc =>
      rw [List.mem_cons, not_or]
      exact ⟨Ne.symm hc, ih⟩

/-- Nothing changes without a CR, and only then. -/
theorem normalizeLineEnds_eq_self : normalizeLineEnds s = s ↔ (13 : UInt8) ∉ s := by
  constructor
  · intro h
    rw [← h]
    exact not_mem_normalizeLineEnds s
  · intro h
    have happend := @normalizeLineEnds_append s [] h
    rw [List.append_nil] at happend
    rw [happend]
    exact List.append_nil s

/-- A CR is seen as a LF, unless one follows. -/
theorem scan_cr : scan (13 :: r) =
    if r.head? = some 10 then scan r else (scan r).map (.char 10 :: ·) := by
  unfold scan
  rw [normalizeLineEnds, if_pos rfl]
  split
  · rfl
  · rw [lex, if_neg (by decide)]

theorem scan_char (hcr : c ≠ 13) (hamp : c ≠ 38) :
    scan (c :: r) = (scan r).map (.char c :: ·) := by
  unfold scan
  rw [normalizeLineEnds_cons hcr, lex, if_neg hamp]

theorem scan_plain (h : ∀ c ∈ w, c ≠ 13 ∧ c ≠ 38) :
    scan (w ++ r) = (scan r).map (w.map .char ++ ·) := by
  induction w with
  | nil =>
    rw [List.nil_append, List.map_nil]
    simp only [List.nil_append]
    exact Option.map_id'.symm
  | cons c w ih =>
    obtain ⟨hc, hw⟩ := List.forall_mem_cons.mp h
    rw [List.cons_append, scan_char hc.1 hc.2, ih hw, Option.map_map]
    rfl

/-- A reference is one token. -/
theorem scan_entity (h : (w, c) ∈ entities) :
    scan (38 :: (w ++ r)) = (scan r).map (.ref c :: ·) := by
  have hcr : (13 : UInt8) ∉ 38 :: w := by
    have hall : ∀ entity ∈ entities, (13 : UInt8) ∉ 38 :: entity.1 := by decide
    exact hall (w, c) h
  have hline : normalizeLineEnds (38 :: (w ++ r)) = 38 :: (w ++ normalizeLineEnds r) :=
    @normalizeLineEnds_append (38 :: w) r hcr
  unfold scan
  rw [hline]
  unfold entities at h
  simp only [List.mem_cons, List.not_mem_nil, or_false, Prod.mk.injEq] at h
  rcases h with ⟨rfl, rfl⟩ | ⟨rfl, rfl⟩ | ⟨rfl, rfl⟩ | ⟨rfl, rfl⟩ | ⟨rfl, rfl⟩
  · rfl
  · rfl
  · rfl
  · rfl
  · rfl

/-- **The tokens of a part of a document**, whatever follows. -/
def Scans (w : Text) (ts : List Token) : Prop :=
  ∀ r, scan (w ++ r) = (scan r).map (ts ++ ·)

theorem scans_nil : Scans [] [] := fun _ => Option.map_id'.symm

theorem Scans.append {w w' : Text} {ts ts' : List Token} (h : Scans w ts) (h' : Scans w' ts') :
    Scans (w ++ w') (ts ++ ts') := by
  intro r
  rw [List.append_assoc, h, h', Option.map_map]
  congr 1
  funext rest
  exact (List.append_assoc ts ts' rest).symm

theorem scans_plain (h : ∀ c ∈ w, c ≠ 13 ∧ c ≠ 38) : Scans w (w.map .char) :=
  fun _ => scan_plain h

theorem scan_of_scans {ts : List Token} (h : Scans w ts) : scan w = some ts := by
  have hall := h []
  rw [List.append_nil] at hall
  rw [hall]
  exact congrArg some (List.append_nil ts)

end

/-! ## Reading tokens -/

section

variable {c d : UInt8} {w s name : Text} {ts : List Token}

theorem expect_chars : ∀ (w : Text), expect w (w.map .char ++ ts) = some ts := by
  intro w
  induction w with
  | nil => rfl
  | cons c w ih =>
    rw [List.map_cons, List.cons_append, expect, if_pos rfl]
    exact ih

theorem expect_other (h : c ≠ d) : expect (c :: w) (.char d :: ts) = none := if_neg h

/-- A name ends at a delimiter. -/
theorem nameOf_chars (hname : ∀ c ∈ name, isDelimiter c = false) (hd : isDelimiter d = true) :
    nameOf (name.map .char ++ .char d :: ts) = (name, .char d :: ts) := by
  induction name with
  | nil => exact if_pos hd
  | cons c name ih =>
    obtain ⟨hc, hrest⟩ := List.forall_mem_cons.mp hname
    rw [List.map_cons, List.cons_append, nameOf, ih hrest, hc]
    rfl

theorem isSpace_special (h : c ∈ specials) : isSpace c = false := by
  rcases special_cases h with rfl | rfl | rfl | rfl | rfl
  · rfl
  · rfl
  · rfl
  · rfl
  · rfl

/-- What becomes of a character in an attribute value. -/
def normalizeSpace (c : UInt8) : UInt8 := if isSpace c then 32 else c

theorem attValue_tokens (s : Text) :
    attValue (s.map tokenOf ++ .char 34 :: ts) = some (s.map normalizeSpace, ts) := by
  induction s with
  | nil => rfl
  | cons c s ih =>
    rw [List.map_cons, List.cons_append, List.map_cons]
    by_cases hspecial : c ∈ specials
    · have hspace : normalizeSpace c = c := by
        unfold normalizeSpace
        rw [isSpace_special hspecial]
        rfl
      rw [tokenOf_special hspecial, attValue, ih, hspace]
      rfl
    · have hquote : c ≠ 34 := by
        rintro rfl
        exact hspecial (by decide)
      have hless : c ≠ 60 := by
        rintro rfl
        exact hspecial (by decide)
      rw [tokenOf_plain hspecial, attValue, if_neg hquote, if_neg hless, ih]
      rfl

/-- An attribute, as tokens. -/
def attributeTokens (a : Text × Text) : List Token :=
  .char 32 :: (a.1.map .char ++
    .char 61 :: .char 34 :: ((normalizeLineEnds a.2).map tokenOf ++ [.char 34]))

/-- The value that is reported. -/
def received (value : Text) : Text := (normalizeLineEnds value).map normalizeSpace

theorem normalizeSpace_eq_self : normalizeSpace c = c ↔ c ≠ 9 ∧ c ≠ 10 ∧ c ≠ 13 := by
  unfold normalizeSpace isSpace
  by_cases h9 : c = 9
  · subst h9
    decide
  by_cases h10 : c = 10
  · subst h10
    decide
  by_cases h13 : c = 13
  · subst h13
    decide
  by_cases h32 : c = 32
  · subst h32
    decide
  simp [h9, h10, h13, h32]

/-- **An attribute value is reported as it was**, if there is no white space but blanks. -/
theorem received_eq_self :
    received s = s ↔ (9 : UInt8) ∉ s ∧ (10 : UInt8) ∉ s ∧ (13 : UInt8) ∉ s := by
  unfold received
  constructor
  · intro h
    have hall : ∀ c ∈ s, c ≠ 9 ∧ c ≠ 10 ∧ c ≠ 13 := by
      intro c hc
      -- every character that is reported has been normalized
      rw [← h] at hc
      obtain ⟨d, -, rfl⟩ := List.mem_map.mp hc
      by_cases hspace : isSpace d = true
      · have hblank : normalizeSpace d = 32 := if_pos hspace
        rw [hblank]
        decide
      · have hsame : normalizeSpace d = d := if_neg hspace
        rw [hsame]
        exact normalizeSpace_eq_self.mp hsame
    exact ⟨fun hc => (hall 9 hc).1 rfl, fun hc => (hall 10 hc).2.1 rfl,
      fun hc => (hall 13 hc).2.2 rfl⟩
  · rintro ⟨h9, h10, h13⟩
    rw [normalizeLineEnds_eq_self.mpr h13]
    have hsame : ∀ c ∈ s, normalizeSpace c = c := by
      intro c hc
      refine normalizeSpace_eq_self.mpr ⟨?_, ?_, ?_⟩
      · rintro rfl
        exact h9 hc
      · rintro rfl
        exact h10 hc
      · rintro rfl
        exact h13 hc
    exact (List.map_congr_left hsame).trans (List.map_id' s)

theorem oneAttribute_tokens {a : Text × Text} (hname : ∀ c ∈ a.1, isDelimiter c = false) :
    (attributeTokens a ++ ts).head? = some (.char 32) ∧
      oneAttribute ((attributeTokens a ++ ts).tail) = some ((a.1, received a.2), ts) := by
  refine ⟨rfl, ?_⟩
  have htokens : (attributeTokens a ++ ts).tail = a.1.map .char ++ .char 61 :: .char 34 ::
      ((normalizeLineEnds a.2).map tokenOf ++ .char 34 :: ts) := by
    unfold attributeTokens
    simp only [List.cons_append, List.tail_cons, List.append_assoc, List.nil_append]
  have hstop : isDelimiter 61 = true := by decide
  unfold oneAttribute
  rw [htokens, nameOf_chars hname hstop]
  simp only
  show (attValue _).map _ = _
  rw [attValue_tokens]
  rfl

/-- The attributes of a tag end where no white space follows. -/
theorem attributes_tokens (hd : isSpace d = false) :
    ∀ (as : List (Text × Text)) (fuel : Nat), as.length < fuel →
      (∀ a ∈ as, ∀ c ∈ a.1, isDelimiter c = false) →
      attributes fuel (as.flatMap attributeTokens ++ .char d :: ts) =
        some (as.map fun a => (a.1, received a.2), .char d :: ts) := by
  intro as
  induction as with
  | nil =>
    intro fuel hfuel hnames
    cases fuel with
    | zero => exact absurd hfuel (Nat.not_lt_zero _)
    | succ fuel =>
      rw [List.flatMap_nil, List.nil_append, attributes, hd]
      rfl
  | cons a as ih =>
    intro fuel hfuel hnames
    cases fuel with
    | zero => exact absurd hfuel (Nat.not_lt_zero _)
    | succ fuel =>
      obtain ⟨ha, has⟩ := List.forall_mem_cons.mp hnames
      have hone := (@oneAttribute_tokens (as.flatMap attributeTokens ++ .char d :: ts) a ha).2
      have hspace : isSpace 32 = true := by decide
      rw [List.flatMap_cons, List.append_assoc]
      have hsplit : attributeTokens a ++ (as.flatMap attributeTokens ++ .char d :: ts) =
          .char 32 :: (attributeTokens a ++ (as.flatMap attributeTokens ++ .char d :: ts)).tail :=
        rfl
      rw [hsplit, attributes, if_pos hspace, hone, Option.bind_some,
        ih fuel (Nat.lt_of_succ_lt_succ hfuel) has]
      rfl

/-- A name and the attributes of its tag. -/
theorem tag_tokens {as : List (Text × Text)} (hname : ∀ c ∈ name, isDelimiter c = false)
    (hnames : ∀ a ∈ as, ∀ c ∈ a.1, isDelimiter c = false) (hdelimiter : isDelimiter d = true)
    (hspace : isSpace d = false) :
    let tokens := name.map Token.char ++ (as.flatMap attributeTokens ++ .char d :: ts)
    (nameOf tokens).1 = name ∧ attributes tokens.length (nameOf tokens).2 =
      some (as.map fun a => (a.1, received a.2), .char d :: ts) := by
  have hhead : ∃ d' ts', isDelimiter d' = true ∧
      as.flatMap attributeTokens ++ .char d :: ts = .char d' :: ts' := by
    cases as with
    | nil => exact ⟨d, ts, hdelimiter, rfl⟩
    | cons a as => exact ⟨32, _, by decide, rfl⟩
  have hlength : as.length ≤ (as.flatMap attributeTokens).length := by
    clear hhead hnames
    induction as with
    | nil => exact Nat.le_refl 0
    | cons a as ih =>
      rw [List.flatMap_cons, List.length_append, List.length_cons]
      have hone : 0 < (attributeTokens a).length := Nat.succ_pos _
      omega
  have hfuel : as.length <
      (name.map Token.char ++ (as.flatMap attributeTokens ++ .char d :: ts)).length := by
    rw [List.length_append, List.length_append, List.length_cons]
    omega
  have hall := @attributes_tokens d ts hspace as _ hfuel hnames
  obtain ⟨d', ts', hd', htail⟩ := hhead
  simp only
  rw [htail] at hall ⊢
  rw [nameOf_chars hname hd']
  exact ⟨rfl, hall⟩

section

variable {go : List Text → List Token → Option (List Event)} {opened : List Text} {fuel : Nat}
  {as : List (Text × Text)}

theorem openTag_open (hname : ∀ c ∈ name, isDelimiter c = false)
    (hnames : ∀ a ∈ as, ∀ c ∈ a.1, isDelimiter c = false) :
    openTag go opened (name.map .char ++ (as.flatMap attributeTokens ++ .char 62 :: ts)) =
      (go (name :: opened) ts).map (.start name (as.map fun a => (a.1, received a.2)) :: ·) := by
  have hdelimiter : isDelimiter 62 = true := by decide
  have hspace : isSpace 62 = false := by decide
  obtain ⟨hfirst, hattributes⟩ := @tag_tokens 62 name ts as hname hnames hdelimiter hspace
  unfold openTag
  rw [hattributes, Option.bind_some, hfirst]
  rfl

theorem openTag_empty (hname : ∀ c ∈ name, isDelimiter c = false)
    (hnames : ∀ a ∈ as, ∀ c ∈ a.1, isDelimiter c = false) :
    openTag go opened
        (name.map .char ++ (as.flatMap attributeTokens ++ .char 47 :: .char 62 :: ts)) =
      (go opened ts).map fun es =>
        .start name (as.map fun a => (a.1, received a.2)) :: .stop name :: es := by
  have hdelimiter : isDelimiter 47 = true := by decide
  have hspace : isSpace 47 = false := by decide
  obtain ⟨hfirst, hattributes⟩ :=
    @tag_tokens 47 name (.char 62 :: ts) as hname hnames hdelimiter hspace
  unfold openTag
  rw [hattributes, Option.bind_some, hfirst]
  rfl

/-- Data is reported one character after the other. -/
theorem content_text (s : Text) :
    content (s.length + fuel) (name :: opened) (s.map tokenOf ++ ts) =
      (content fuel (name :: opened) ts).map ((s.map fun c => .data [c]) ++ ·) := by
  induction s with
  | nil =>
    rw [List.length_nil, Nat.zero_add]
    exact Option.map_id'.symm
  | cons c s ih =>
    rw [List.length_cons, Nat.succ_add, List.map_cons, List.cons_append]
    by_cases hspecial : c ∈ specials
    · rw [tokenOf_special hspecial, content, ih, Option.map_map]
      rfl
    · have hless : c ≠ 60 := by
        rintro rfl
        exact hspecial (by decide)
      have hgreater : c ≠ 62 := by
        rintro rfl
        exact hspecial (by decide)
      rw [tokenOf_plain hspecial, content, if_neg hless, if_neg hgreater, ih, Option.map_map]
      rfl

theorem content_stop :
    content (fuel + 1) (name :: opened)
        (.char 60 :: .char 47 :: (name.map .char ++ .char 62 :: ts)) =
      (content fuel opened ts).map (.stop name :: ·) := by
  have hexpect : expect (47 :: (name ++ [62]))
      (.char 47 :: (name.map .char ++ .char 62 :: ts)) = some ts := by
    have hchars := @expect_chars ts (47 :: (name ++ [62]))
    rw [List.map_cons, List.map_append, List.cons_append, List.append_assoc] at hchars
    exact hchars
  rw [content, if_pos rfl, hexpect]

/-- A tag that begins with a name is no end tag. -/
theorem content_start {inner : Text} (hname : IsName name) :
    content (fuel + 1) (inner :: opened) (.char 60 :: (name.map .char ++ ts)) =
      openTag (content fuel) (inner :: opened) (name.map .char ++ ts) := by
  obtain ⟨c, w, rfl⟩ := List.exists_cons_of_ne_nil hname.ne_nil
  have hc : (47 : UInt8) ≠ c := by
    rintro rfl
    exact absurd (hname.isDelimiter 47 List.mem_cons_self) (by decide)
  have hexpect : expect (47 :: (inner ++ [62])) ((c :: w).map .char ++ ts) = none :=
    expect_other hc
  rw [content, if_pos rfl, hexpect]

end

end

/-! ## A parser that conforms -/

/-- `Unique`, as a test. -/
def uniqueTags (es : List Event) : Bool :=
  es.all fun
    | .start _ attributes => decide (attributes.map Prod.fst).Nodup
    | _ => true

/-- What is to be reported, unless an attribute is repeated. -/
def referenceParser (doc : Text) : Option (List Event) :=
  (reference doc).bind fun es => if uniqueTags es then some es else none

theorem uniqueTags_iff (es : List Event) : uniqueTags es = true ↔ Unique es := by
  unfold uniqueTags
  rw [List.all_eq_true]
  constructor
  · intro h name attributes hmem
    exact of_decide_eq_true (h _ hmem)
  · intro h event hmem
    cases event with
    | start name attributes => exact decide_eq_true (h name attributes hmem)
    | stop name => rfl
    | data text => rfl

theorem conforming_referenceParser : Conforming referenceParser := by
  intro doc es _ hreference _
  unfold referenceParser
  rw [hreference, Option.bind_some]
  constructor
  · intro hunique
    rw [if_pos ((uniqueTags_iff es).mpr hunique)]
    exact ⟨es, rfl, rfl⟩
  · intro hunique
    exact if_neg (mt (uniqueTags_iff es).mp hunique)

end MediaTomb.Lib.Xml
