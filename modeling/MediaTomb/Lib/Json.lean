/-
  JSON texts (RFC 8259), and what a printer must not forget.

  A text is a list of bytes.  The grammar is a relation `IsValue v s`: the text `s` is well formed
  and means `v`.  Strings are kept as the bytes their escapes stand for, numbers as their lexeme,
  the members of an object in the order they are written.

  `Printed` is what a careless printer wrote: it escapes `"` and `\` and nothing else, writes some
  names without any escape, takes numbers as they come and may put a name in front of an ARRAY
  item.  Its text is `Printed.text`, what it stands for is `Printed.value`.

    * a printed tree is well formed and means what it stands for exactly when it is `Good`
      (`isValue_text_iff`);
    * that good trees are well formed is a derivation that follows the tree;
    * that no other tree is needs no parsing but COUNTING: a text of the grammar has at most the
      quotes its value accounts for (`count_quote_le`) and at least its size (`size_le_length`).
      A name in an array is two quotes too many, a byte that is not escaped one byte too few.
-/
import Mathlib

namespace MediaTomb.Lib.Json

abbrev Bytes := List UInt8

/-- The byte of an ASCII character. -/
abbrev byte (c : Char) : UInt8 := c.toUInt8

abbrev quote : UInt8 := 0x22

abbrev backslash : UInt8 := 0x5C

/-! ## Numbers -/

/-- How far a number has been read. -/
inductive NumberState
  | start | minus | zero | integer | point | fraction | exponent | exponentSign | exponentDigits
  deriving DecidableEq

def isDigit (c : UInt8) : Bool := byte '0' ≤ c && c ≤ byte '9'

/-- The next state of a number, `none` where no number goes on with this byte. -/
def NumberState.next (c : UInt8) : NumberState → Option NumberState
  | start =>
    if c = byte '-' then some minus
    else if c = byte '0' then some zero else if isDigit c then some integer else none
  | minus => if c = byte '0' then some zero else if isDigit c then some integer else none
  | zero =>
    if c = byte '.' then some point
    else if c = byte 'e' ∨ c = byte 'E' then some exponent else none
  | integer =>
    if isDigit c then some integer
    else if c = byte '.' then some point
    else if c = byte 'e' ∨ c = byte 'E' then some exponent else none
  | point => if isDigit c then some fraction else none
  | fraction =>
    if isDigit c then some fraction
    else if c = byte 'e' ∨ c = byte 'E' then some exponent else none
  | exponent =>
    if c = byte '+' ∨ c = byte '-' then some exponentSign
    else if isDigit c then some exponentDigits else none
  | exponentSign => if isDigit c then some exponentDigits else none
  | exponentDigits => if isDigit c then some exponentDigits else none

/-- A number may end here. -/
def NumberState.final : NumberState → Bool
  | zero | integer | fraction | exponentDigits => true
  | start | minus | point | exponent | exponentSign => false

def NumberState.accepts : NumberState → Bytes → Bool
  | q, [] => q.final
  | q, c :: s =>
    match q.next c with
    | some q' => q'.accepts s
    | none => false

/-- `[ minus ] int [ frac ] [ exp ]`. -/
def isNumber (s : Bytes) : Bool := NumberState.start.accepts s

/-- No number goes on with a quote. -/
theorem NumberState.next_quote (q : NumberState) : q.next quote = none := by
  cases q <;> decide

theorem NumberState.count_quote {q : NumberState} {s : Bytes} (h : q.accepts s = true) :
    s.count quote = 0 := by
  induction s generalizing q with
  | nil => rfl
  | cons c s ih =>
    rw [accepts] at h
    have hc : c ≠ quote := by
      rintro rfl
      rw [next_quote] at h
      cases h
    rw [List.count_cons_of_ne hc]
    split at h
    · exact ih h
    · cases h

/-! ## Values -/

/-- What a JSON text means. -/
inductive Value
  | null
  | bool (b : Bool)
  | number (lexeme : Bytes)
  | string (content : Bytes)
  | array (items : List Value)
  | object (members : List (Bytes × Value))

/-- The bytes that stand for themselves nowhere in a string. -/
def isSpecial (c : UInt8) : Bool := c = quote || c = backslash || c < 0x20

/-- The byte behind a backslash and the byte the two stand for. -/
def shortEscapes : List (UInt8 × UInt8) :=
  [(quote, quote), (backslash, backslash), (byte '/', byte '/'), (byte 'b', 0x08),
    (byte 'f', 0x0C), (byte 'n', 0x0A), (byte 'r', 0x0D), (byte 't', 0x09)]

/-- The value of a hexadecimal digit. -/
def hexDigit? (c : UInt8) : Option Nat :=
  if isDigit c then some (c.toNat - 48)
  else if byte 'A' ≤ c && c ≤ byte 'F' then some (c.toNat - 55)
  else if byte 'a' ≤ c && c ≤ byte 'f' then some (c.toNat - 87)
  else none

/-- Four hexadecimal digits. -/
inductive IsCodeUnit : Nat → Bytes → Prop
  | intro {a b c d : UInt8} {i j k l : Nat} (ha : hexDigit? a = some i) (hb : hexDigit? b = some j)
      (hc : hexDigit? c = some k) (hd : hexDigit? d = some l) :
      IsCodeUnit (((i * 16 + j) * 16 + k) * 16 + l) [a, b, c, d]

/-- What stands between the quotes of a string. -/
inductive IsContent : Bytes → Bytes → Prop
  | nil : IsContent [] []
  | plain {c : UInt8} {s t : Bytes} (hc : isSpecial c = false) (h : IsContent s t) :
      IsContent (c :: s) (c :: t)
  | short {e c : UInt8} {s t : Bytes} (he : (e, c) ∈ shortEscapes) (h : IsContent s t) :
      IsContent (c :: s) (backslash :: e :: t)
  | unicode {n : Nat} {c : Char} {u s t : Bytes} (hu : IsCodeUnit n u) (hn : c.toNat = n)
      (h : IsContent s t) :
      IsContent (String.utf8EncodeChar c ++ s) (backslash :: byte 'u' :: (u ++ t))
  | surrogates {high low : Nat} {c : Char} {u v s t : Bytes} (hu : IsCodeUnit high u)
      (hv : IsCodeUnit low v) (hhigh : 0xD800 ≤ high ∧ high < 0xDC00)
      (hlow : 0xDC00 ≤ low ∧ low < 0xE000)
      (hn : c.toNat = 0x10000 + (high - 0xD800) * 0x400 + (low - 0xDC00)) (h : IsContent s t) :
      IsContent (String.utf8EncodeChar c ++ s)
        (backslash :: byte 'u' :: (u ++ backslash :: byte 'u' :: (v ++ t)))

/-- Blanks, tabs and line ends. -/
def IsBlank (s : Bytes) : Prop := ∀ c ∈ s, c = 0x20 ∨ c = 0x09 ∨ c = 0x0A ∨ c = 0x0D

def nullText : Bytes := [byte 'n', byte 'u', byte 'l', byte 'l']

def boolText : Bool → Bytes
  | true => [byte 't', byte 'r', byte 'u', byte 'e']
  | false => [byte 'f', byte 'a', byte 'l', byte 's', byte 'e']

mutual

/-- **The grammar.**  The text is a value with blanks around it, and means this value. -/
inductive IsValue : Value → Bytes → Prop
  | blank {v : Value} {a s b : Bytes} (ha : IsBlank a) (h : IsValue v s) (hb : IsBlank b) :
      IsValue v (a ++ s ++ b)
  | null : IsValue .null nullText
  | bool (b : Bool) : IsValue (.bool b) (boolText b)
  | number {s : Bytes} (h : isNumber s = true) : IsValue (.number s) s
  | string {content s : Bytes} (h : IsContent content s) :
      IsValue (.string content) (quote :: (s ++ [quote]))
  | array {items : List Value} {s : Bytes} (h : IsItems items s) :
      IsValue (.array items) (byte '[' :: (s ++ [byte ']']))
  | object {members : List (Bytes × Value)} {s : Bytes} (h : IsMembers members s) :
      IsValue (.object members) (0x7B :: (s ++ [0x7D]))

/-- The items of an array, a comma between any two. -/
inductive IsItems : List Value → Bytes → Prop
  | nil {s : Bytes} (h : IsBlank s) : IsItems [] s
  | last {v : Value} {s : Bytes} (h : IsValue v s) : IsItems [v] s
  | cons {v w : Value} {vs : List Value} {s t : Bytes} (h : IsValue v s)
      (ht : IsItems (w :: vs) t) : IsItems (v :: w :: vs) (s ++ byte ',' :: t)

/-- The members of an object, a comma between any two. -/
inductive IsMembers : List (Bytes × Value) → Bytes → Prop
  | nil {s : Bytes} (h : IsBlank s) : IsMembers [] s
  | last {m : Bytes × Value} {s : Bytes} (h : IsMember m s) : IsMembers [m] s
  | cons {m n : Bytes × Value} {ms : List (Bytes × Value)} {s t : Bytes} (h : IsMember m s)
      (ht : IsMembers (n :: ms) t) : IsMembers (m :: n :: ms) (s ++ byte ',' :: t)

/-- A name, a colon and a value. -/
inductive IsMember : Bytes × Value → Bytes → Prop
  | intro {name n a b s : Bytes} {v : Value} (ha : IsBlank a) (hn : IsContent name n)
      (hb : IsBlank b) (h : IsValue v s) :
      IsMember (name, v) (a ++ quote :: (n ++ quote :: (b ++ byte ':' :: s)))

end

/-! ## What a value accounts for -/

/-- The bytes a string needs, without its quotes: two for a byte that cannot stand for itself. -/
def contentSize (s : Bytes) : Nat := s.length + s.countP isSpecial

mutual

/-- The length of the shortest text of a value, or less. -/
def Value.size : Value → Nat
  | .null => 4
  | .bool b => (boolText b).length
  | .number s => s.length
  | .string s => contentSize s + 2
  | .array items => itemsSize items + 2
  | .object members => membersSize members + 2

def itemsSize : List Value → Nat
  | [] => 0
  | [v] => v.size
  | v :: w :: vs => v.size + (itemsSize (w :: vs) + 1)

def membersSize : List (Bytes × Value) → Nat
  | [] => 0
  | [(name, v)] => contentSize name + (v.size + 3)
  | (name, v) :: m :: ms => contentSize name + (v.size + 3) + (membersSize (m :: ms) + 1)

end

mutual

/-- The quotes around the strings of a value and in them. -/
def Value.quotes : Value → Nat
  | .null | .bool _ | .number _ => 0
  | .string s => s.count quote + 2
  | .array items => itemsQuotes items
  | .object members => membersQuotes members

def itemsQuotes : List Value → Nat
  | [] => 0
  | v :: vs => v.quotes + itemsQuotes vs

def membersQuotes : List (Bytes × Value) → Nat
  | [] => 0
  | (name, v) :: ms => name.count quote + (v.quotes + 2) + membersQuotes ms

end

mutual

/-- All numbers of a value are numbers. -/
def Value.Numeric : Value → Prop
  | .null | .bool _ | .string _ => True
  | .number s => isNumber s = true
  | .array items => itemsNumeric items
  | .object members => membersNumeric members

def itemsNumeric : List Value → Prop
  | [] => True
  | v :: vs => v.Numeric ∧ itemsNumeric vs

def membersNumeric : List (Bytes × Value) → Prop
  | [] => True
  | (_, v) :: ms => v.Numeric ∧ membersNumeric ms

end

/-- A text with at most `q` quotes and at least `n` bytes. -/
structure Within (q n : Nat) (s : Bytes) : Prop where
  quotes : s.count quote ≤ q
  length : n ≤ s.length

section

variable {q q' n n' : Nat} {s t : Bytes}

theorem Within.append (h : Within q n s) (ht : Within q' n' t) :
    Within (q + q') (n + n') (s ++ t) := by
  refine ⟨?_, ?_⟩
  · rw [List.count_append]
    exact Nat.add_le_add h.quotes ht.quotes
  · rw [List.length_append]
    exact Nat.add_le_add h.length ht.length

theorem Within.mono (h : Within q n s) (hq : q ≤ q') (hn : n' ≤ n) : Within q' n' s :=
  ⟨h.quotes.trans hq, hn.trans h.length⟩

theorem within_text (s : Bytes) : Within (s.count quote) s.length s := ⟨le_rfl, le_rfl⟩

/-- One byte in front. -/
theorem Within.cons (c : UInt8) (h : Within q n s) :
    Within ((if c = quote then 1 else 0) + q) (n + 1) (c :: s) := by
  refine ⟨?_, ?_⟩
  · rw [List.count_cons]
    have := h.quotes
    by_cases hc : c = quote
    · rw [if_pos hc, if_pos (beq_iff_eq.mpr hc)]
      omega
    · rw [if_neg hc, if_neg (fun h => hc (beq_iff_eq.mp h))]
      omega
  · rw [List.length_cons]
    have := h.length
    omega

end

theorem IsBlank.within {s : Bytes} (h : IsBlank s) : Within 0 0 s := by
  refine ⟨?_, Nat.zero_le _⟩
  rw [Nat.le_zero, List.count_eq_zero]
  intro hmem
  have := h _ hmem
  revert this
  decide

theorem hexDigit?_quote : hexDigit? quote = none := by decide

theorem hexDigit?_lt {c : UInt8} {i : Nat} (h : hexDigit? c = some i) : i < 16 := by
  rw [hexDigit?] at h
  simp only [isDigit, Bool.and_eq_true, decide_eq_true_eq, UInt8.le_iff_toNat_le] at h
  split_ifs at h with h₁ h₂ h₃
  · have : c.toNat ≤ 57 := h₁.2
    cases h
    omega
  · have : c.toNat ≤ 70 := h₂.2
    cases h
    omega
  · have : c.toNat ≤ 102 := h₃.2
    cases h
    omega

theorem IsCodeUnit.within {n : Nat} {u : Bytes} (h : IsCodeUnit n u) : Within 0 4 u := by
  obtain ⟨ha, hb, hc, hd⟩ := h
  refine ⟨?_, le_rfl⟩
  rw [Nat.le_zero, List.count_eq_zero]
  intro hmem
  have hnone : ∀ {c : UInt8} {i : Nat}, hexDigit? c = some i → quote ≠ c := by
    rintro c i hc rfl
    rw [hexDigit?_quote] at hc
    cases hc
  simp only [List.mem_cons, List.not_mem_nil, or_false, hnone ha, hnone hb, hnone hc, hnone hd]
    at hmem

theorem contentSize_append (s t : Bytes) : contentSize (s ++ t) = contentSize s + contentSize t := by
  simp only [contentSize, List.length_append, List.countP_append]
  omega

theorem contentSize_cons (c : UInt8) (s : Bytes) :
    contentSize (c :: s) = (if isSpecial c then 2 else 1) + contentSize s := by
  simp only [contentSize, List.length_cons, List.countP_cons]
  split <;> omega

theorem contentSize_le (s : Bytes) : contentSize s ≤ 2 * s.length := by
  have := List.countP_le_length (p := isSpecial) (l := s)
  simp only [contentSize]
  omega

/-- An escaped code unit is longer than what a character of the basic plane needs. -/
theorem contentSize_utf8_le {c : Char} (h : c.toNat < 0x10000) :
    contentSize (String.utf8EncodeChar c) ≤ 6 := by
  have hsize : (String.utf8EncodeChar c).length ≤ 3 := by
    rw [String.length_utf8EncodeChar, Char.utf8Size]
    have : c.val.toNat < 0x10000 := h
    split_ifs with h₁ h₂ h₃ <;> try omega
    exact absurd (UInt32.le_iff_toNat_le.mpr (Nat.le_of_lt_succ this)) h₃
  exact (contentSize_le _).trans (by omega)

theorem shortEscapes_quote : ∀ p ∈ shortEscapes, p.1 = quote → p.2 = quote := by
  simp only [shortEscapes, List.forall_mem_cons]
  refine ⟨?_, ?_, ?_, ?_, ?_, ?_, ?_, ?_, nofun⟩ <;> decide

theorem IsContent.within {s t : Bytes} (h : IsContent s t) :
    Within (s.count quote) (contentSize s) t := by
  induction h with
  | nil => exact ⟨le_rfl, le_rfl⟩
  | @plain c s t hc h ih =>
    refine (ih.cons c).mono ?_ ?_
    · rw [List.count_cons]
      simp only [beq_iff_eq]
      omega
    · rw [contentSize_cons, hc]
      simp only [Bool.false_eq_true, if_false]
      omega
  | @short e c s t he h ih =>
    refine ((ih.cons e).cons backslash).mono ?_ ?_
    · rw [if_neg (by decide), List.count_cons]
      by_cases hq : e = quote
      · have hc : c = quote := shortEscapes_quote _ he hq
        rw [if_pos hq, if_pos (beq_iff_eq.mpr hc)]
        omega
      · rw [if_neg hq]
        omega
    · rw [contentSize_cons]
      split <;> omega
  | @unicode n c u s t hu hn h ih =>
    refine (((hu.within.append ih).cons (byte 'u')).cons backslash).mono ?_ ?_
    · rw [if_neg (by decide), if_neg (by decide), List.count_append]
      omega
    · rw [contentSize_append]
      have hlt : n < 0x10000 := by
        obtain ⟨ha, hb, hc, hd⟩ := hu
        have := hexDigit?_lt ha
        have := hexDigit?_lt hb
        have := hexDigit?_lt hc
        have := hexDigit?_lt hd
        omega
      have := contentSize_utf8_le (c := c) (by omega)
      omega
  | @surrogates high low c u v s t hu hv hhigh hlow hn h ih =>
    have hrest := ((hv.within.append ih).cons (byte 'u')).cons backslash
    refine (((hu.within.append hrest).cons (byte 'u')).cons backslash).mono ?_ ?_
    · rw [if_neg (by decide), if_neg (by decide), List.count_append]
      omega
    · rw [contentSize_append]
      have := contentSize_le (String.utf8EncodeChar c)
      have hlength : (String.utf8EncodeChar c).length ≤ 4 := by
        rw [String.length_utf8EncodeChar]
        exact Char.utf8Size_le_four c
      omega

theorem within_null : Within 0 4 nullText := by
  refine ⟨by decide, by decide⟩

theorem within_bool (b : Bool) : Within 0 (boolText b).length (boolText b) := by
  cases b <;> exact ⟨by decide, by decide⟩

mutual

/-- **A text of the grammar has no more quotes than its value accounts for, and is no shorter than
    its value's size.** -/
theorem IsValue.within {v : Value} {s : Bytes} : IsValue v s → Within v.quotes v.size s
  | .blank ha h hb => by
    refine ((ha.within.append h.within).append hb.within).mono ?_ ?_
    · omega
    · omega
  | .null => within_null
  | .bool b => within_bool b
  | .number h => by
    refine ⟨?_, le_rfl⟩
    rw [NumberState.count_quote h]
    exact Nat.zero_le _
  | .string h => by
    have := (h.within.append ((within_text []).cons quote)).cons quote
    refine this.mono ?_ ?_
    · simp only [Value.quotes, if_true, List.count_nil]
      omega
    · simp only [Value.size, List.length_nil]
      omega
  | .array h => by
    have := (h.within.append ((within_text []).cons (byte ']'))).cons (byte '[')
    refine this.mono ?_ ?_
    · rw [if_neg (by decide), if_neg (by decide), List.count_nil, Value.quotes]
      omega
    · simp only [Value.size, List.length_nil]
      omega
  | .object h => by
    have := (h.within.append ((within_text []).cons 0x7D)).cons 0x7B
    refine this.mono ?_ ?_
    · rw [if_neg (by decide), if_neg (by decide), List.count_nil, Value.quotes]
      omega
    · simp only [Value.size, List.length_nil]
      omega

theorem IsItems.within {vs : List Value} {s : Bytes} :
    IsItems vs s → Within (itemsQuotes vs) (itemsSize vs) s
  | .nil h => h.within
  | .last h => h.within
  | .cons h ht => by
    refine (h.within.append (ht.within.cons (byte ','))).mono ?_ ?_
    · rw [if_neg (by decide)]
      simp only [itemsQuotes]
      omega
    · rw [itemsSize]

theorem IsMembers.within {ms : List (Bytes × Value)} {s : Bytes} :
    IsMembers ms s → Within (membersQuotes ms) (membersSize ms) s
  | .nil h => h.within
  | .last h => h.within
  | .cons h ht => by
    refine (h.within.append (ht.within.cons (byte ','))).mono ?_ ?_
    · rw [if_neg (by decide)]
      simp only [membersQuotes]
      omega
    · simp only [membersSize]
      omega

theorem IsMember.within {m : Bytes × Value} {s : Bytes} :
    IsMember m s → Within (membersQuotes [m]) (membersSize [m]) s
  | @IsMember.intro name n a b s v ha hn hb h => by
    have hvalue := (hb.within.append (h.within.cons (byte ':'))).cons quote
    refine (ha.within.append ((hn.within.append hvalue).cons quote)).mono ?_ ?_
    · rw [if_pos rfl, if_neg (by decide)]
      simp only [membersQuotes]
      omega
    · simp only [membersSize]
      omega

end

mutual

/-- The numbers of a text of the grammar are numbers. -/
theorem IsValue.numeric {v : Value} {s : Bytes} : IsValue v s → v.Numeric
  | .blank _ h _ => h.numeric
  | .null => trivial
  | .bool _ => trivial
  | .number h => h
  | .string _ => trivial
  | .array h => h.numeric
  | .object h => h.numeric

theorem IsItems.numeric {vs : List Value} {s : Bytes} : IsItems vs s → itemsNumeric vs
  | .nil _ => trivial
  | .last h => ⟨h.numeric, trivial⟩
  | .cons h ht => ⟨h.numeric, ht.numeric⟩

theorem IsMembers.numeric {ms : List (Bytes × Value)} {s : Bytes} :
    IsMembers ms s → membersNumeric ms
  | .nil _ => trivial
  | .last h => h.numeric
  | .cons h ht => ⟨h.numeric.1, ht.numeric⟩

theorem IsMember.numeric {m : Bytes × Value} {s : Bytes} : IsMember m s → membersNumeric [m]
  | .intro _ _ _ h => ⟨h.numeric, trivial⟩

end

/-! ## What a printer writes -/

/-- What a printer wrote.  An item of an array may carry a name that is not escaped; the name of a
    member is escaped or not (`false`). -/
inductive Printed
  | null
  | bool (b : Bool)
  | number (text : Bytes)
  | string (text : Bytes)
  | array (items : List (Option Bytes × Printed))
  | object (members : List ((Bool × Bytes) × Printed))

/-- A backslash in front of every `"` and `\`. -/
def escaped : Bytes → Bytes
  | [] => []
  | c :: s => if c = quote ∨ c = backslash then backslash :: c :: escaped s else c :: escaped s

/-- The name in front of an array item. -/
def tagText : Option Bytes → Bytes
  | none => []
  | some name => quote :: (name ++ [quote, byte ':'])

def nameText (name : Bool × Bytes) : Bytes :=
  quote :: ((if name.1 then escaped name.2 else name.2) ++ [quote, byte ':'])

mutual

def Printed.text : Printed → Bytes
  | .null => nullText
  | .bool b => boolText b
  | .number s => s
  | .string s => quote :: (escaped s ++ [quote])
  | .array items => byte '[' :: (itemsText items ++ [byte ']'])
  | .object members => 0x7B :: (membersText members ++ [0x7D])

def itemsText : List (Option Bytes × Printed) → Bytes
  | [] => []
  | [(tag, p)] => tagText tag ++ p.text
  | (tag, p) :: i :: items => tagText tag ++ p.text ++ byte ',' :: itemsText (i :: items)

def membersText : List ((Bool × Bytes) × Printed) → Bytes
  | [] => []
  | [(name, p)] => nameText name ++ p.text
  | (name, p) :: m :: members => nameText name ++ p.text ++ byte ',' :: membersText (m :: members)

end

/-- An item with its name. -/
def itemText (item : Option Bytes × Printed) : Bytes := tagText item.1 ++ item.2.text

def memberText (member : (Bool × Bytes) × Printed) : Bytes := nameText member.1 ++ member.2.text

/-- Texts with commas between them, and in front of them unless they are the `first`. -/
def joined : Bool → List Bytes → Bytes
  | _, [] => []
  | first, t :: ts => (if first then [] else [byte ',']) ++ (t ++ joined false ts)

theorem joined_append (first : Bool) (ts us : List Bytes) :
    joined first (ts ++ us) = joined first ts ++ joined (first && ts.isEmpty) us := by
  induction ts generalizing first with
  | nil => rw [List.nil_append, List.isEmpty_nil, Bool.and_true, joined, List.nil_append]
  | cons t ts ih =>
    have hfirst : (false && ts.isEmpty) = (first && (t :: ts).isEmpty) := by
      rw [List.isEmpty_cons, Bool.and_false, Bool.false_and]
    rw [List.cons_append, joined, joined, ih, hfirst, List.append_assoc, List.append_assoc]

theorem itemsText_eq : ∀ items : List (Option Bytes × Printed),
    itemsText items = joined true (items.map itemText)
  | [] => rfl
  | [(tag, p)] => by
    rw [itemsText]
    exact (List.append_nil _).symm
  | (tag, p) :: i :: items => by
    rw [itemsText, itemsText_eq (i :: items)]
    rfl

theorem membersText_eq : ∀ members : List ((Bool × Bytes) × Printed),
    membersText members = joined true (members.map memberText)
  | [] => rfl
  | [(name, p)] => by
    rw [membersText]
    exact (List.append_nil _).symm
  | (name, p) :: m :: members => by
    rw [membersText, membersText_eq (m :: members)]
    rfl

mutual

/-- What the text is meant to say. -/
def Printed.value : Printed → Value
  | .null => .null
  | .bool b => .bool b
  | .number s => .number s
  | .string s => .string s
  | .array items => .array (itemsValue items)
  | .object members => .object (membersValue members)

def itemsValue : List (Option Bytes × Printed) → List Value
  | [] => []
  | (_, p) :: items => p.value :: itemsValue items

def membersValue : List ((Bool × Bytes) × Printed) → List (Bytes × Value)
  | [] => []
  | (name, p) :: members => (name.2, p.value) :: membersValue members

end

theorem membersValue_append (ms ns : List ((Bool × Bytes) × Printed)) :
    membersValue (ms ++ ns) = membersValue ms ++ membersValue ns := by
  induction ms with
  | nil => rfl
  | cons m ms ih =>
    rw [List.cons_append, membersValue, membersValue, ih, List.cons_append]

/-- A string that is right when only `"` and `\` are escaped. -/
def Plain (s : Bytes) : Prop := ∀ c ∈ s, 0x20 ≤ c

/-- A string that is right as it is. -/
def Bare (s : Bytes) : Prop := ∀ c ∈ s, isSpecial c = false

instance (s : Bytes) : Decidable (Plain s) := inferInstanceAs (Decidable (∀ c ∈ s, 0x20 ≤ c))

instance (s : Bytes) : Decidable (Bare s) :=
  inferInstanceAs (Decidable (∀ c ∈ s, isSpecial c = false))

def GoodName (name : Bool × Bytes) : Prop := if name.1 then Plain name.2 else Bare name.2

mutual

/-- Nothing is written that JSON has no place for. -/
def Printed.Good : Printed → Prop
  | .null | .bool _ => True
  | .number s => isNumber s = true
  | .string s => Plain s
  | .array items => itemsGood items
  | .object members => membersGood members

def itemsGood : List (Option Bytes × Printed) → Prop
  | [] => True
  | (tag, p) :: items => tag = none ∧ p.Good ∧ itemsGood items

def membersGood : List ((Bool × Bytes) × Printed) → Prop
  | [] => True
  | (name, p) :: members => GoodName name ∧ p.Good ∧ membersGood members

end

theorem membersGood_append (ms ns : List ((Bool × Bytes) × Printed)) :
    membersGood (ms ++ ns) ↔ membersGood ms ∧ membersGood ns := by
  induction ms with
  | nil => exact (true_and _).symm.to_iff
  | cons m ms ih =>
    rw [List.cons_append, membersGood, membersGood, ih, and_assoc, and_assoc]

/-! ## A good tree is well formed -/

theorem isSpecial_eq_false {c : UInt8} :
    isSpecial c = false ↔ ¬(c = quote ∨ c = backslash) ∧ 0x20 ≤ c := by
  simp only [isSpecial, Bool.or_eq_false_iff, decide_eq_false_iff_not, not_or, UInt8.not_lt]

theorem Plain.isContent {s : Bytes} (h : Plain s) : IsContent s (escaped s) := by
  induction s with
  | nil => exact .nil
  | cons c s ih =>
    have hrest := ih fun d hd => h d (List.mem_cons_of_mem c hd)
    rw [escaped]
    split
    · next hc =>
      refine .short ?_ hrest
      rcases hc with rfl | rfl
      · exact List.mem_cons_self
      · exact List.mem_cons_of_mem _ List.mem_cons_self
    · next hc => exact .plain (isSpecial_eq_false.mpr ⟨hc, h c List.mem_cons_self⟩) hrest

theorem Bare.isContent {s : Bytes} (h : Bare s) : IsContent s s := by
  induction s with
  | nil => exact .nil
  | cons c s ih =>
    exact .plain (h c List.mem_cons_self) (ih fun d hd => h d (List.mem_cons_of_mem c hd))

theorem isBlank_nil : IsBlank [] := nofun

theorem isMember_text {name : Bool × Bytes} {v : Value} {s : Bytes} (hname : GoodName name)
    (h : IsValue v s) : IsMember (name.2, v) (nameText name ++ s) := by
  have hcontent : IsContent name.2 (if name.1 then escaped name.2 else name.2) := by
    rw [GoodName] at hname
    split at hname
    · next hescaped =>
      rw [if_pos hescaped]
      exact hname.isContent
    · next hraw =>
      rw [if_neg hraw]
      exact hname.isContent
  have := IsMember.intro isBlank_nil hcontent isBlank_nil h
  simpa only [nameText, List.nil_append, List.cons_append, List.append_assoc] using this

mutual

theorem Printed.Good.isValue : ∀ {p : Printed}, p.Good → IsValue p.value p.text
  | .null, _ => .null
  | .bool b, _ => .bool b
  | .number _, h => .number h
  | .string _, h => .string (Plain.isContent h)
  | .array _, h => .array (itemsGood_isItems h)
  | .object _, h => .object (membersGood_isMembers h)

theorem itemsGood_isItems : ∀ {items : List (Option Bytes × Printed)}, itemsGood items →
    IsItems (itemsValue items) (itemsText items)
  | [], _ => .nil isBlank_nil
  | [(tag, _)], h => by
    obtain ⟨rfl, hgood, -⟩ := h
    exact .last hgood.isValue
  | (tag, _) :: i :: items, h => by
    obtain ⟨rfl, hgood, hrest⟩ := h
    exact .cons hgood.isValue (@itemsGood_isItems (i :: items) hrest)

theorem membersGood_isMembers : ∀ {members : List ((Bool × Bytes) × Printed)},
    membersGood members → IsMembers (membersValue members) (membersText members)
  | [], _ => .nil isBlank_nil
  | [(_, _)], h => .last (isMember_text h.1 h.2.1.isValue)
  | (_, _) :: m :: members, h =>
    .cons (isMember_text h.1 h.2.1.isValue) (@membersGood_isMembers (m :: members) h.2.2)

end

/-! ## No other tree is -/

mutual

/-- The names in front of array items. -/
def Printed.tags : Printed → Nat
  | .null | .bool _ | .number _ | .string _ => 0
  | .array items => itemsTags items
  | .object members => membersTags members

def itemsTags : List (Option Bytes × Printed) → Nat
  | [] => 0
  | (tag, p) :: items => (if tag = none then 0 else 1) + p.tags + itemsTags items

def membersTags : List ((Bool × Bytes) × Printed) → Nat
  | [] => 0
  | (_, p) :: members => p.tags + membersTags members

end

/-- The bytes of a name that lack their escape. -/
def nameMissing (name : Bool × Bytes) : Nat :=
  if name.1 then name.2.countP (· < 0x20) else name.2.countP isSpecial

mutual

/-- The bytes that lack their escape. -/
def Printed.missing : Printed → Nat
  | .null | .bool _ | .number _ => 0
  | .string s => s.countP (· < 0x20)
  | .array items => itemsMissing items
  | .object members => membersMissing members

def itemsMissing : List (Option Bytes × Printed) → Nat
  | [] => 0
  | (_, p) :: items => p.missing + itemsMissing items

def membersMissing : List ((Bool × Bytes) × Printed) → Nat
  | [] => 0
  | (name, p) :: members => nameMissing name + p.missing + membersMissing members

end

theorem count_escaped (s : Bytes) : (escaped s).count quote = s.count quote := by
  induction s with
  | nil => rfl
  | cons c s ih =>
    rw [escaped]
    split
    · rw [List.count_cons_of_ne (by decide), List.count_cons, List.count_cons, ih]
    · rw [List.count_cons, List.count_cons, ih]

theorem length_escaped (s : Bytes) :
    (escaped s).length + s.countP (· < 0x20) = contentSize s := by
  induction s with
  | nil => rfl
  | cons c s ih =>
    have hlow : ∀ {d : UInt8}, d = quote ∨ d = backslash → ¬d < 0x20 := by
      rintro d (rfl | rfl) <;> decide
    rw [escaped, contentSize_cons, List.countP_cons]
    split
    · next hc =>
      have hspecial : isSpecial c = true := by
        rcases hc with rfl | rfl <;> decide
      simp only [hlow hc, decide_false, Bool.false_eq_true, if_false, hspecial, if_true,
        List.length_cons]
      omega
    · next hc =>
      have hspecial : isSpecial c = decide (c < 0x20) := by
        rw [not_or] at hc
        simp only [isSpecial, hc.1, hc.2, decide_false, Bool.false_or]
      rw [hspecial, List.length_cons]
      split <;> omega

theorem count_nameText (name : Bool × Bytes) :
    (nameText name).count quote = name.2.count quote + 2 := by
  have hname : (if name.1 then escaped name.2 else name.2).count quote = name.2.count quote := by
    split
    · exact count_escaped _
    · rfl
  rw [nameText, List.count_cons_self, List.count_append, hname]
  rfl

theorem length_nameText (name : Bool × Bytes) :
    (nameText name).length + nameMissing name = contentSize name.2 + 3 := by
  simp only [nameText, nameMissing, List.length_cons, List.length_append, List.length_nil]
  split
  · have := length_escaped name.2
    omega
  · rw [contentSize]
    omega

theorem count_tagText_le (tag : Option Bytes) :
    2 * (if tag = none then 0 else 1) ≤ (tagText tag).count quote := by
  cases tag with
  | none => exact Nat.zero_le _
  | some name =>
    rw [if_neg nofun, tagText, List.count_cons_self, List.count_append]
    have : [quote, byte ':'].count quote = 1 := by decide
    omega

mutual

/-- A name in an array is two quotes too many. -/
theorem quotes_add_tags_le : ∀ p : Printed, p.value.quotes + 2 * p.tags ≤ p.text.count quote
  | .null => Nat.zero_le _
  | .bool _ => Nat.zero_le _
  | .number _ => Nat.zero_le _
  | .string s => by
    rw [Printed.text, List.count_cons_self, List.count_append, count_escaped]
    exact le_rfl
  | .array items => by
    have := itemsQuotes_add_tags_le items
    rw [Printed.text, List.count_cons_of_ne (by decide), List.count_append]
    exact this.trans (Nat.le_add_right _ _)
  | .object members => by
    have := membersQuotes_add_tags_le members
    rw [Printed.text, List.count_cons_of_ne (by decide), List.count_append]
    exact this.trans (Nat.le_add_right _ _)

theorem itemsQuotes_add_tags_le : ∀ items : List (Option Bytes × Printed),
    itemsQuotes (itemsValue items) + 2 * itemsTags items ≤ (itemsText items).count quote
  | [] => Nat.zero_le _
  | [(tag, p)] => by
    have := quotes_add_tags_le p
    have := count_tagText_le tag
    simp only [itemsValue, itemsQuotes, itemsTags, itemsText, List.count_append]
    omega
  | (tag, p) :: i :: items => by
    have := quotes_add_tags_le p
    have := count_tagText_le tag
    have := itemsQuotes_add_tags_le (i :: items)
    rw [itemsText, List.count_append, List.count_append, List.count_cons_of_ne (by decide),
      itemsValue, itemsQuotes, itemsTags]
    omega

theorem membersQuotes_add_tags_le : ∀ members : List ((Bool × Bytes) × Printed),
    membersQuotes (membersValue members) + 2 * membersTags members ≤
      (membersText members).count quote
  | [] => Nat.zero_le _
  | [(name, p)] => by
    have := quotes_add_tags_le p
    have := count_nameText name
    simp only [membersValue, membersQuotes, membersTags, membersText, List.count_append]
    omega
  | (name, p) :: m :: members => by
    have := quotes_add_tags_le p
    have := count_nameText name
    have := membersQuotes_add_tags_le (m :: members)
    rw [membersText, List.count_append, List.count_append, List.count_cons_of_ne (by decide),
      membersValue, membersQuotes, membersTags]
    omega

end

mutual

/-- A byte that lacks its escape is a byte too few, where no array has names. -/
theorem length_text : ∀ {p : Printed}, p.tags = 0 → p.text.length + p.missing = p.value.size
  | .null, _ => rfl
  | .bool _, _ => rfl
  | .number _, _ => rfl
  | .string s, _ => by
    have := length_escaped s
    simp only [Printed.text, Printed.missing, Printed.value, Value.size, List.length_cons,
      List.length_append, List.length_nil]
    omega
  | .array items, h => by
    have := @length_itemsText items h
    simp only [Printed.text, Printed.missing, Printed.value, Value.size, List.length_cons,
      List.length_append, List.length_nil]
    omega
  | .object members, h => by
    have := @length_membersText members h
    simp only [Printed.text, Printed.missing, Printed.value, Value.size, List.length_cons,
      List.length_append, List.length_nil]
    omega

theorem length_itemsText : ∀ {items : List (Option Bytes × Printed)}, itemsTags items = 0 →
    (itemsText items).length + itemsMissing items = itemsSize (itemsValue items)
  | [], _ => rfl
  | (some _, _) :: _, h => by
    simp only [itemsTags, reduceCtorEq, if_false] at h
    omega
  | [(none, p)], h => by
    simp only [itemsTags] at h
    have := length_text (p := p) (by omega)
    simp only [itemsText, tagText, itemsMissing, itemsValue, itemsSize, List.nil_append]
    omega
  | (none, p) :: i :: items, h => by
    rw [itemsTags] at h
    have := length_text (p := p) (by omega)
    have := @length_itemsText (i :: items) (by omega)
    rw [itemsText, tagText, itemsMissing, itemsValue]
    rw [List.nil_append, List.length_append, List.length_cons]
    obtain ⟨tag, q⟩ := i
    rw [itemsValue] at this ⊢
    rw [itemsSize]
    omega

theorem length_membersText : ∀ {members : List ((Bool × Bytes) × Printed)},
    membersTags members = 0 →
      (membersText members).length + membersMissing members = membersSize (membersValue members)
  | [], _ => rfl
  | [(name, p)], h => by
    simp only [membersTags] at h
    have := length_text (p := p) (by omega)
    have := length_nameText name
    simp only [membersText, membersMissing, membersValue, membersSize, List.length_append]
    omega
  | (name, p) :: m :: members, h => by
    rw [membersTags] at h
    have := length_text (p := p) (by omega)
    have := length_nameText name
    have := @length_membersText (m :: members) (by omega)
    rw [membersText, membersMissing, membersValue]
    rw [List.length_append, List.length_append, List.length_cons]
    obtain ⟨name', q⟩ := m
    rw [membersValue] at this ⊢
    rw [membersSize]
    omega

end

theorem plain_of_missing {s : Bytes} (h : s.countP (· < 0x20) = 0) : Plain s := by
  intro c hc
  have := List.countP_eq_zero.mp h c hc
  simpa only [decide_eq_true_eq, UInt8.not_lt] using this

theorem goodName_of_missing {name : Bool × Bytes} (h : nameMissing name = 0) : GoodName name := by
  rw [nameMissing] at h
  rw [GoodName]
  split
  · next hescaped =>
    rw [if_pos hescaped] at h
    exact plain_of_missing h
  · next hraw =>
    rw [if_neg hraw] at h
    intro c hc
    simpa only [Bool.not_eq_true] using List.countP_eq_zero.mp h c hc

mutual

theorem good_of : ∀ {p : Printed}, p.tags = 0 → p.missing = 0 → p.value.Numeric → p.Good
  | .null, _, _, _ => trivial
  | .bool _, _, _, _ => trivial
  | .number _, _, _, h => h
  | .string _, _, h, _ => plain_of_missing h
  | .array items, htags, hmissing, h => @itemsGood_of items htags hmissing h
  | .object members, htags, hmissing, h => @membersGood_of members htags hmissing h

theorem itemsGood_of : ∀ {items : List (Option Bytes × Printed)}, itemsTags items = 0 →
    itemsMissing items = 0 → itemsNumeric (itemsValue items) → itemsGood items
  | [], _, _, _ => trivial
  | (tag, p) :: items, htags, hmissing, h => by
    simp only [itemsTags, Nat.add_eq_zero_iff] at htags
    simp only [itemsMissing, Nat.add_eq_zero_iff] at hmissing
    refine ⟨?_, good_of htags.1.2 hmissing.1 h.1, itemsGood_of htags.2 hmissing.2 h.2⟩
    by_contra htag
    have := htags.1.1
    rw [if_neg htag] at this
    cases this

theorem membersGood_of : ∀ {members : List ((Bool × Bytes) × Printed)}, membersTags members = 0 →
    membersMissing members = 0 → membersNumeric (membersValue members) → membersGood members
  | [], _, _, _ => trivial
  | (name, p) :: members, htags, hmissing, h => by
    simp only [membersTags, Nat.add_eq_zero_iff] at htags
    simp only [membersMissing, Nat.add_eq_zero_iff] at hmissing
    exact ⟨goodName_of_missing hmissing.1.1, good_of htags.1 hmissing.1.2 h.1,
      membersGood_of htags.2 hmissing.2 h.2⟩

end

/-- **What a printer wrote is well formed and says what it is meant to say exactly when it is
    good.** -/
theorem isValue_text_iff {p : Printed} : IsValue p.value p.text ↔ p.Good := by
  refine ⟨fun h => ?_, Printed.Good.isValue⟩
  have hwithin := h.within
  have htags : p.tags = 0 := by
    have := quotes_add_tags_le p
    have := hwithin.quotes
    omega
  have hmissing : p.missing = 0 := by
    have := length_text htags
    have := hwithin.length
    omega
  exact good_of htags hmissing h.numeric

end MediaTomb.Lib.Json
