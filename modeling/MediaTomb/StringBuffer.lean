/-
  `StringBuffer` (`zmm/stringbuffer.cc`), down to its block of memory.

  DATA     A block of `capacity + 1` bytes, of which the first `len` are the text and the next one is
           a NUL.  The others may never have been written.
  PROGRAM  Appending makes room first: the block grows by a quarter, or to what is needed.  The
           bytes come in by `strcpy`, `strncpy`, `sprintf` and single stores.
  RESULT   `calls_agree`: whatever the calls, the answers are those of a plain text, no byte outside
           the block is touched, and none is read before it was written.

  Some calls are not answered like that, since the code does not look at what it is given: a text with
  a NUL inside, a longer `setLength`, a character stored over the NUL at the end, and sizes that do
  not fit in an `int`.  `Proper` leaves these out.  Sizes and offsets that are negative, and a buffer
  that is appended to itself, are not calls here.
-/
import MediaTomb.Encodings
import MediaTomb.Lib.CString

namespace MediaTomb

open Lib.CString

/-! ## The class -/

structure StringBuffer where
  data : Memory
  capacity : Nat
  len : Nat

/-- `MAX_INT_STRING_LENGTH` -/
def maxIntStringLength : Nat := 12

/-- What an `int` does not reach. -/
def intBound : Nat := 2 ^ 31

namespace StringBuffer

/-- `StringBuffer(capacity)`; the block is not written to, but for the NUL.  `StringBuffer()` is
    `StringBuffer(16)`. -/
def create (capacity : Nat) : StringBuffer where
  data := some 0 :: List.replicate capacity none
  capacity := capacity
  len := 0

/-- `none` where a number does not fit in an `int`. -/
def ensureCapacity (sb : StringBuffer) (neededCapacity : Nat) : Option StringBuffer :=
  if sb.capacity < neededCapacity then
    let newCapacity := sb.capacity * 5 / 4
    let newCapacity := if newCapacity < neededCapacity then neededCapacity else newCapacity
    if newCapacity + 1 < intBound then
      some { sb with capacity := newCapacity, data := realloc sb.data (newCapacity + 1) }
    else none
  else some sb

def addCapacity (sb : StringBuffer) (increment : Nat) : Option StringBuffer :=
  sb.ensureCapacity (sb.len + increment)

/-- `operator<<(String)`; a `String` knows its length. -/
def appendString (sb : StringBuffer) (other : Str) : Option StringBuffer :=
  if 0 < other.length then do
    let sb ← sb.addCapacity other.length
    let data ← strcpy sb.data sb.len (terminated other) 0
    some { sb with data := data, len := sb.len + other.length }
  else some sb

/-- `operator<<(const char *)` -/
def appendChars (sb : StringBuffer) : Option Memory → Option StringBuffer
  | none => some sb
  | some str => do
    let text ← cstr str
    if text.length = 0 then some sb
    else do
      let sb ← sb.addCapacity text.length
      let data ← strcpy sb.data sb.len str 0
      some { sb with data := data, len := sb.len + text.length }

/-- `operator<<(char)` -/
def appendChar (sb : StringBuffer) (chr : UInt8) : Option StringBuffer := do
  let sb ← sb.addCapacity 1
  let data ← store sb.data sb.len chr
  let data ← store data (sb.len + 1) 0
  some { sb with data := data, len := sb.len + 1 }

/-- `operator<<(int)` and `operator<<(unsigned int)`: `sprintf`, and `strlen` of what it wrote. -/
def appendNumber (sb : StringBuffer) (x : Int) : Option StringBuffer := do
  let sb ← sb.addCapacity maxIntStringLength
  let data ← write sb.data sb.len (fromInt x ++ [0])
  let written ← cstr (data.drop sb.len)
  some { sb with data := data, len := sb.len + written.length }

/-- `concat(StringBuffer, offset)`, for another buffer; `none` inside is the exception. -/
def concat (sb other : StringBuffer) (offset : Nat) : Option (Option StringBuffer) :=
  if 0 < other.len then
    if other.len ≤ offset then some none
    else do
      let otherLen := other.len - offset
      let sb ← sb.addCapacity otherLen
      let data ← strcpy sb.data sb.len other.data offset
      some (some { sb with data := data, len := sb.len + otherLen })
  else some (some sb)

/-- `concat(char *, length)` -/
def concatBytes (sb : StringBuffer) (str : Option Memory) (length : Nat) : Option StringBuffer :=
  match str with
  | none => some sb
  | some str =>
    if length = 0 then some sb
    else do
      let sb ← sb.addCapacity length
      let data ← Lib.CString.strncpy sb.data sb.len str 0 length
      let data ← store data (sb.len + length) 0
      some { sb with data := data, len := sb.len + length }

def setLength (sb : StringBuffer) (newLength : Nat) : Option StringBuffer := do
  let sb ← if sb.len < newLength then sb.ensureCapacity newLength else some sb
  let data ← store sb.data newLength 0
  some { sb with data := data, len := newLength }

/-- `none` inside is the exception. -/
def setCharAt (sb : StringBuffer) (index : Int) (c : UInt8) : Option (Option StringBuffer) :=
  if sb.len < index ∨ index < 0 then some none
  else do
    let data ← store sb.data index.toNat c
    some (some { sb with data := data })

def clear (sb : StringBuffer) : Option StringBuffer := do
  let data ← store sb.data 0 0
  some { sb with data := data, len := 0 }

/-- `toString(offset)`, which `toString()` is for 0. -/
def toString (sb : StringBuffer) (offset : Int) : Option (Option Str) :=
  if sb.len < offset ∨ offset < 0 then some none
  else do
    let text ← bytesAt sb.data offset.toNat (sb.len - offset.toNat)
    some (some text)

/-- `c_str(offset)`, read by somebody who looks for the NUL. -/
def c_str (sb : StringBuffer) (offset : Int) : Option (Option Str) :=
  if sb.len < offset ∨ offset < 0 then some none
  else do
    let text ← cstr (sb.data.drop offset.toNat)
    some (some text)

/-! ## Calls -/

/-- A call, with the memory it is given. -/
inductive Call where
  | appendString (other : Str)
  | appendChars (str : Option (Str × Memory))
  | appendChar (chr : UInt8)
  | appendNumber (x : Int)
  /-- the other buffer holds a text, and more behind its NUL -/
  | concat (other : Str) (more : Memory) (offset : Nat)
  | concatBytes (str : Option Str) (length : Nat)
  | setLength (newLength : Nat)
  | setCharAt (index : Int) (c : UInt8)
  | clear
  | ensureCapacity (neededCapacity : Nat)
  | length
  | toString (offset : Int)
  | c_str (offset : Int)

inductive Answer where
  | done
  | exception
  | number (n : Nat)
  | text (s : Str)
  deriving DecidableEq

/-- A buffer that holds a text. -/
def bufferOf (text : Str) (more : Memory) : StringBuffer where
  data := block text more
  capacity := text.length + more.length
  len := text.length

/-- The call returns. -/
def did (sb : Option StringBuffer) : Option (StringBuffer × Answer) :=
  sb.map fun sb => (sb, .done)

/-- The call returns, or throws and leaves the buffer as it was. -/
def didOrThrew (old : StringBuffer) (r : Option (Option StringBuffer)) :
    Option (StringBuffer × Answer) :=
  r.map fun sb => match sb with
    | some sb => (sb, .done)
    | none => (old, .exception)

def answered (sb : StringBuffer) (r : Option (Option Str)) : Option (StringBuffer × Answer) :=
  r.map fun s => match s with
    | some s => (sb, .text s)
    | none => (sb, .exception)

/-- `none` where C says nothing. -/
def step (sb : StringBuffer) : Call → Option (StringBuffer × Answer)
  | .appendString other => did (sb.appendString other)
  | .appendChars str => did (sb.appendChars (str.map fun s => block s.1 s.2))
  | .appendChar chr => did (sb.appendChar chr)
  | .appendNumber x => did (sb.appendNumber x)
  | .concat other more offset => didOrThrew sb (sb.concat (bufferOf other more) offset)
  | .concatBytes str length => did (sb.concatBytes (str.map (List.map some)) length)
  | .setLength newLength => did (sb.setLength newLength)
  | .setCharAt index c => didOrThrew sb (sb.setCharAt index c)
  | .clear => did sb.clear
  | .ensureCapacity neededCapacity => did (sb.ensureCapacity neededCapacity)
  | .length => some (sb, .number sb.len)
  | .toString offset => answered sb (sb.toString offset)
  | .c_str offset => answered sb (sb.c_str offset)

/-- The answers to calls, one after the other. -/
def answers (sb : StringBuffer) : List Call → Option (List Answer)
  | [] => some []
  | call :: calls => do
    let (sb, answer) ← sb.step call
    let rest ← sb.answers calls
    some (answer :: rest)

/-! ## A plain text -/

/-- An offset that a text has. -/
def OffsetOf (text : Str) (offset : Int) : Prop := 0 ≤ offset ∧ offset ≤ text.length

instance (text : Str) (offset : Int) : Decidable (OffsetOf text offset) :=
  inferInstanceAs (Decidable (_ ∧ _))

/-- **What the calls are for**: the text after the call, and the answer. -/
def textStep (text : Str) : Call → Str × Answer
  | .appendString other => (text ++ other, .done)
  | .appendChars str => (text ++ ((str.map Prod.fst).getD []), .done)
  | .appendChar chr => (text ++ [chr], .done)
  | .appendNumber x => (text ++ fromInt x, .done)
  | .concat other _ offset =>
    if other ≠ [] ∧ other.length ≤ offset then (text, .exception)
    else (text ++ other.drop offset, .done)
  | .concatBytes str length => (text ++ (str.getD []).take length, .done)
  | .setLength newLength => (text.take newLength, .done)
  | .setCharAt index c =>
    if OffsetOf text index then (text.set index.toNat c, .done) else (text, .exception)
  | .clear => ([], .done)
  | .ensureCapacity _ => (text, .done)
  | .length => (text, .number text.length)
  | .toString offset =>
    (text, if OffsetOf text offset then .text (text.drop offset.toNat) else .exception)
  | .c_str offset =>
    (text, if OffsetOf text offset then .text ((text.drop offset.toNat).takeWhile (· ≠ 0))
      else .exception)

def textAnswers (text : Str) : List Call → List Answer
  | [] => []
  | call :: calls => (textStep text call).2 :: textAnswers (textStep text call).1 calls

/-- The largest capacity that may be asked for: a quarter more still fits in an `int`. -/
def maxNeededCapacity : Nat := 1717986917

/-- **A call that the code is ready for.** -/
def Proper (text : Str) : Call → Prop
  | .appendString other => 0 ∉ other ∧ text.length + other.length ≤ maxNeededCapacity
  | .appendChars str => 0 ∉ (str.map Prod.fst).getD [] ∧
      text.length + ((str.map Prod.fst).getD []).length ≤ maxNeededCapacity
  | .appendChar _ => text.length + 1 ≤ maxNeededCapacity
  | .appendNumber x => -2 ^ 31 ≤ x ∧ x < 2 ^ 32 ∧
      text.length + maxIntStringLength ≤ maxNeededCapacity
  | .concat other _ _ => 0 ∉ other ∧ text.length + other.length ≤ maxNeededCapacity
  | .concatBytes str length => 0 ∉ (str.getD []).take length ∧ (str ≠ none →
      length ≤ (str.getD []).length ∧ text.length + length ≤ maxNeededCapacity)
  | .setLength newLength => newLength ≤ text.length
  | .setCharAt index _ => index ≠ text.length
  | .ensureCapacity neededCapacity => neededCapacity ≤ maxNeededCapacity
  | .clear | .length | .toString _ | .c_str _ => True

instance decidableProper (text : Str) : (call : Call) → Decidable (Proper text call)
  | .appendString _ | .appendChars _ | .appendNumber _ | .concat _ _ _ | .concatBytes _ _ =>
    inferInstanceAs (Decidable (_ ∧ _))
  | .appendChar _ | .setLength _ | .ensureCapacity _ => inferInstanceAs (Decidable (_ ≤ _))
  | .setCharAt _ _ => inferInstanceAs (Decidable (_ ≠ _))
  | .clear | .length | .toString _ | .c_str _ => inferInstanceAs (Decidable True)

/-- Every call is proper for the text it finds. -/
def ProperCalls (text : Str) : List Call → Prop
  | [] => True
  | call :: calls => Proper text call ∧ ProperCalls (textStep text call).1 calls

/-! ## The block and the text -/

/-- **The block holds the text**, and a NUL behind it. -/
def Holds (sb : StringBuffer) (text : Str) : Prop :=
  ∃ junk, sb.data = block text junk ∧ sb.len = text.length ∧
    sb.capacity = text.length + junk.length

section

variable {sb sb' : StringBuffer} {text q u other : Str} {junk more : Memory} {chr : UInt8}
  {n needed : Nat}

theorem holds_create (capacity : Nat) : Holds (create capacity) [] := by
  refine ⟨List.replicate capacity none, rfl, rfl, ?_⟩
  rw [List.length_nil, List.length_replicate, Nat.zero_add]
  rfl

theorem length_block : (block text junk).length = text.length + 1 + junk.length := by
  unfold block
  rw [List.length_append, List.length_map, List.length_cons]
  omega

theorem realloc_block (size : Nat) : ∃ more,
    realloc (block text junk) size = block text (junk ++ more) ∧
      more.length = size - (text.length + 1 + junk.length) := by
  refine ⟨List.replicate (size - (text.length + 1 + junk.length)) none, ?_, List.length_replicate⟩
  unfold realloc
  rw [length_block]
  show text.map some ++ some 0 :: junk ++ _ = text.map some ++ some 0 :: (junk ++ _)
  rw [List.append_assoc, List.cons_append]

/-- **Making room** changes nothing else, and the capacity stays an `int`. -/
theorem Holds.ensureCapacity (h : Holds sb text) (hneeded : needed ≤ maxNeededCapacity) :
    ∃ sb', sb.ensureCapacity needed = some sb' ∧ Holds sb' text ∧ needed ≤ sb'.capacity := by
  obtain ⟨junk, hdata, hlen, hcapacity⟩ := h
  unfold StringBuffer.ensureCapacity
  by_cases hlt : sb.capacity < needed
  · rw [if_pos hlt]
    simp only
    generalize hnew : (if sb.capacity * 5 / 4 < needed then needed else sb.capacity * 5 / 4) = new
    have hbounds : needed ≤ new ∧ sb.capacity ≤ new ∧ new + 1 < intBound := by
      unfold maxNeededCapacity at hneeded
      show _ ∧ _ ∧ new + 1 < 2147483648
      split at hnew <;> omega
    rw [if_pos hbounds.2.2]
    obtain ⟨more, hblock, hmore⟩ := @realloc_block text junk (new + 1)
    refine ⟨_, rfl, ⟨junk ++ more, ?_, hlen, ?_⟩, hbounds.1⟩
    · show realloc sb.data (new + 1) = _
      rw [hdata, hblock]
    · show new = _
      rw [List.length_append, hmore]
      omega
  · rw [if_neg hlt]
    exact ⟨sb, rfl, ⟨junk, hdata, hlen, hcapacity⟩, Nat.not_lt.mp hlt⟩

theorem Holds.addCapacity (h : Holds sb text) (hroom : text.length + n ≤ maxNeededCapacity) :
    ∃ sb' junk, sb.addCapacity n = some sb' ∧ sb'.data = block text junk ∧
      sb'.len = text.length ∧ sb'.capacity = text.length + junk.length ∧ n ≤ junk.length := by
  have hlen : sb.len = text.length := h.choose_spec.2.1
  obtain ⟨sb', hsb', ⟨junk, hdata, hlen', hcapacity⟩, hle⟩ := h.ensureCapacity hroom
  unfold StringBuffer.addCapacity
  rw [hlen]
  exact ⟨sb', junk, hsb', hdata, hlen', hcapacity, by omega⟩

/-- What is written behind the text. -/
theorem write_block (hroom : q.length ≤ junk.length) :
    write (block text junk) text.length (q ++ [0]) =
      some (block (text ++ q) (junk.drop q.length)) := by
  have hwrite : write (text.map some ++ some 0 :: junk) text.length (q ++ [0]) = _ :=
    write_at rfl (by
      rw [List.length_append, List.length_singleton, List.length_cons]
      omega)
  unfold block
  rw [hwrite]
  simp only [List.length_append, List.length_singleton, List.drop_succ_cons, List.map_append,
    List.map_cons, List.map_nil, List.append_assoc, List.singleton_append]

theorem holds_appended (hcapacity : sb.capacity = text.length + junk.length)
    (hroom : q.length ≤ junk.length) :
    Holds { sb with data := block (text ++ q) (junk.drop q.length), len := text.length + q.length }
      (text ++ q) := by
  refine ⟨junk.drop q.length, rfl, ?_, ?_⟩
  · show text.length + q.length = _
    rw [List.length_append]
  · show sb.capacity = _
    rw [hcapacity, List.length_append, List.length_drop]
    omega

/-! ## Appending -/

/-- A string that is in memory is copied behind the text. -/
theorem Holds.copied (h : Holds sb text) (hnul : (0 : UInt8) ∉ q)
    (hroom : text.length + q.length ≤ maxNeededCapacity) (u : Str) (more : Memory) :
    ∃ sb₁ data, sb.addCapacity q.length = some sb₁ ∧
      strcpy sb₁.data sb₁.len (block (u ++ q) more) u.length = some data ∧
        Holds { sb₁ with data := data, len := sb₁.len + q.length } (text ++ q) := by
  obtain ⟨sb₁, junk, hadd, hdata, hlen, hcapacity, hle⟩ := h.addCapacity hroom
  refine ⟨sb₁, block (text ++ q) (junk.drop q.length), hadd, ?_, ?_⟩
  · rw [hdata, hlen]
    exact strcpy_block hnul (Nat.lt_succ_of_le hle) u more
  · rw [hlen]
    exact holds_appended hcapacity hle

theorem Holds.appendString (h : Holds sb text) (hnul : (0 : UInt8) ∉ other)
    (hroom : text.length + other.length ≤ maxNeededCapacity) :
    ∃ sb', sb.appendString other = some sb' ∧ Holds sb' (text ++ other) := by
  unfold StringBuffer.appendString
  by_cases hpos : 0 < other.length
  · obtain ⟨sb₁, data, hadd, hcopy, hholds⟩ := h.copied hnul hroom [] []
    have hcopy' : strcpy sb₁.data sb₁.len (terminated other) 0 = some data := hcopy
    simp only [if_pos hpos, hadd, hcopy', Option.bind_eq_bind, Option.bind_some]
    exact ⟨_, rfl, hholds⟩
  · rw [if_neg hpos, List.eq_nil_of_length_eq_zero (Nat.eq_zero_of_not_pos hpos), List.append_nil]
    exact ⟨sb, rfl, h⟩

theorem Holds.appendChars (h : Holds sb text) (hnul : (0 : UInt8) ∉ other)
    (hroom : text.length + other.length ≤ maxNeededCapacity) (more : Memory) :
    ∃ sb', sb.appendChars (some (block other more)) = some sb' ∧ Holds sb' (text ++ other) := by
  unfold StringBuffer.appendChars
  simp only [cstr_block, takeWhile_noNul hnul, Option.bind_eq_bind, Option.bind_some]
  by_cases hzero : other.length = 0
  · rw [if_pos hzero, List.eq_nil_of_length_eq_zero hzero, List.append_nil]
    exact ⟨sb, rfl, h⟩
  · obtain ⟨sb₁, data, hadd, hcopy, hholds⟩ := h.copied hnul hroom [] more
    have hcopy' : strcpy sb₁.data sb₁.len (block other more) 0 = some data := hcopy
    simp only [if_neg hzero, hadd, hcopy', Option.bind_some]
    exact ⟨_, rfl, hholds⟩

theorem Holds.appendChar (h : Holds sb text) (hroom : text.length + 1 ≤ maxNeededCapacity) :
    ∃ sb', sb.appendChar chr = some sb' ∧ Holds sb' (text ++ [chr]) := by
  obtain ⟨sb₁, junk, hadd, hdata, hlen, hcapacity, hle⟩ := h.addCapacity hroom
  obtain ⟨cell, junk', rfl⟩ := List.exists_cons_of_length_pos hle
  have hfirst : store sb₁.data sb₁.len chr =
      some ((text ++ [chr]).map some ++ cell :: junk') := by
    rw [hdata, hlen]
    exact store_at rfl
  have hsecond : store ((text ++ [chr]).map some ++ cell :: junk') (sb₁.len + 1) 0 =
      some (block (text ++ [chr]) junk') := by
    rw [hlen, store_at (by rw [List.length_append, List.length_singleton])]
    unfold block
    rw [List.map_append, List.map_cons, List.map_nil, List.append_assoc, List.singleton_append]
  unfold StringBuffer.appendChar
  simp only [hadd, hfirst, hsecond, Option.bind_eq_bind, Option.bind_some]
  refine ⟨_, rfl, junk', rfl, ?_, ?_⟩
  · show sb₁.len + 1 = _
    rw [hlen, List.length_append, List.length_singleton]
  · show sb₁.capacity = _
    rw [hcapacity, List.length_append, List.length_singleton, List.length_cons]
    omega

/-- An `int` has a sign and ten digits at most. -/
theorem length_fromInt {x : Int} (hlow : -2 ^ 31 ≤ x) (hhigh : x < 2 ^ 32) :
    (fromInt x).length < maxIntStringLength := by
  have hdigits : x.natAbs < 10 ^ 10 := by
    show x.natAbs < 10000000000
    omega
  have hlength : ((Nat.toDigits 10 x.natAbs).map Char.toUInt8).length ≤ 10 := by
    rw [List.length_map]
    exact (Nat.length_toDigits_le_iff (by omega) (by omega)).mpr hdigits
  unfold fromInt maxIntStringLength
  simp only
  split
  · rw [List.length_cons]
    omega
  · omega

theorem fromInt_noNul (x : Int) : (0 : UInt8) ∉ fromInt x :=
  CdsResource.not_mem_fromInt (by decide) (by decide)

theorem Holds.appendNumber (h : Holds sb text) {x : Int} (hlow : -2 ^ 31 ≤ x) (hhigh : x < 2 ^ 32)
    (hroom : text.length + maxIntStringLength ≤ maxNeededCapacity) :
    ∃ sb', sb.appendNumber x = some sb' ∧ Holds sb' (text ++ fromInt x) := by
  obtain ⟨sb₁, junk, hadd, hdata, hlen, hcapacity, hle⟩ := h.addCapacity hroom
  have hfits : (fromInt x).length ≤ junk.length := by
    have hlt := length_fromInt hlow hhigh
    omega
  have hwrite : write sb₁.data sb₁.len (fromInt x ++ [0]) =
      some (block (text ++ fromInt x) (junk.drop (fromInt x).length)) := by
    rw [hdata, hlen]
    exact write_block hfits
  have hread : cstr ((block (text ++ fromInt x) (junk.drop (fromInt x).length)).drop sb₁.len) =
      some (fromInt x) := by
    rw [hlen, drop_block, cstr_block, takeWhile_noNul (fromInt_noNul x)]
  unfold StringBuffer.appendNumber
  simp only [hadd, hwrite, hread, Option.bind_eq_bind, Option.bind_some]
  rw [hlen]
  exact ⟨_, rfl, holds_appended hcapacity hfits⟩

/-! ## The other calls -/

theorem Holds.concat (h : Holds sb text) (hnul : (0 : UInt8) ∉ other) {offset : Nat}
    (hroom : text.length + other.length ≤ maxNeededCapacity) :
    if other ≠ [] ∧ other.length ≤ offset then sb.concat (bufferOf other more) offset = some none
    else ∃ sb', sb.concat (bufferOf other more) offset = some (some sb') ∧
      Holds sb' (text ++ other.drop offset) := by
  have hdata : (bufferOf other more).data = block other more := rfl
  have hlen : (bufferOf other more).len = other.length := rfl
  unfold StringBuffer.concat
  rw [hdata, hlen]
  by_cases hpos : 0 < other.length
  · have hne : other ≠ [] := List.ne_nil_of_length_pos hpos
    rw [if_pos hpos]
    by_cases hoffset : other.length ≤ offset
    · rw [if_pos ⟨hne, hoffset⟩, if_pos hoffset]
    · rw [if_neg (fun hboth => hoffset hboth.2), if_neg hoffset]
      -- the other text is what is in front of the offset, and what is copied
      have hsplit : other.take offset ++ other.drop offset = other := List.take_append_drop _ _
      have htake : (other.take offset).length = offset := by
        rw [List.length_take]
        omega
      have hdrop : (other.drop offset).length = other.length - offset := List.length_drop
      have hnul' : (0 : UInt8) ∉ other.drop offset := fun hmem => hnul (List.mem_of_mem_drop hmem)
      have hroom' : text.length + (other.drop offset).length ≤ maxNeededCapacity := by omega
      obtain ⟨sb₁, data, hadd, hcopy, hholds⟩ := h.copied hnul' hroom' (other.take offset) more
      rw [hsplit, htake] at hcopy
      rw [hdrop] at hadd hholds
      simp only [hadd, hcopy, Option.bind_eq_bind, Option.bind_some]
      exact ⟨_, rfl, hholds⟩
  · have hnil : other = [] := List.eq_nil_of_length_eq_zero (Nat.eq_zero_of_not_pos hpos)
    rw [if_neg hpos, if_neg (fun hboth => hboth.1 hnil), hnil, List.drop_nil, List.append_nil]
    exact ⟨sb, rfl, h⟩

theorem Holds.concatBytes (h : Holds sb text) {str : Str} {length : Nat}
    (hnul : (0 : UInt8) ∉ str.take length) (hlength : length ≤ str.length)
    (hroom : text.length + length ≤ maxNeededCapacity) :
    ∃ sb', sb.concatBytes (some (str.map some)) length = some sb' ∧
      Holds sb' (text ++ str.take length) := by
  unfold StringBuffer.concatBytes
  by_cases hzero : length = 0
  · simp only
    rw [if_pos hzero, hzero, List.take_zero, List.append_nil]
    exact ⟨sb, rfl, h⟩
  · simp only
    rw [if_neg hzero]
    obtain ⟨sb₁, junk, hadd, hdata, hlen, hcapacity, hle⟩ := h.addCapacity hroom
    have htake : (str.take length).length = length := by
      rw [List.length_take]
      omega
    have hbytes : strncpyBytes length ((str.map some).drop 0) = some (str.take length) := by
      have hsplit : str.map some = (str.take length).map some ++ (str.drop length).map some := by
        rw [← List.map_append, List.take_append_drop]
      have hexact : strncpyBytes (str.take length).length
          ((str.take length).map some ++ (str.drop length).map some) = some (str.take length) :=
        strncpyBytes_exact hnul
      rwa [← hsplit, htake] at hexact
    have hcopy : Lib.CString.strncpy sb₁.data sb₁.len (str.map some) 0 length =
        some ((text ++ str.take length).map some ++ (some 0 :: junk).drop length) := by
      rw [hdata, hlen]
      exact strncpy_at rfl hbytes (Nat.le_succ_of_le hle)
    -- the NUL of the old text has been written over, or stands where the new one goes
    obtain ⟨cell, junk', hcell⟩ : ∃ cell junk', (some 0 :: junk).drop length = cell :: junk' := by
      apply List.exists_cons_of_length_pos
      rw [List.length_drop, List.length_cons]
      omega
    have hjunk : junk'.length + length = junk.length := by
      have hlen' := congrArg List.length hcell
      rw [List.length_drop, List.length_cons, List.length_cons] at hlen'
      omega
    have hstore : store ((text ++ str.take length).map some ++ cell :: junk') (sb₁.len + length) 0 =
        some (block (text ++ str.take length) junk') := by
      rw [hlen, store_at (by rw [List.length_append, htake])]
      unfold block
      rw [List.map_append, List.map_cons, List.map_nil, List.append_assoc, List.singleton_append]
    rw [hcell] at hcopy
    simp only [hadd, hcopy, hstore, Option.bind_eq_bind, Option.bind_some]
    refine ⟨_, rfl, junk', rfl, ?_, ?_⟩
    · show sb₁.len + length = _
      rw [hlen, List.length_append, htake]
    · show sb₁.capacity = _
      rw [hcapacity, List.length_append, htake]
      omega

/-- A text that is cut off at a place. -/
theorem store_nul (hn : n ≤ text.length) : ∃ junk',
    store (block text junk) n 0 = some (block (text.take n) junk') ∧
      n + junk'.length = text.length + junk.length := by
  have htake : (text.take n).length = n := by
    rw [List.length_take]
    omega
  have hmem : block text junk = (text.take n).map some ++ block (text.drop n) junk := by
    rw [← block_append, List.take_append_drop]
  obtain ⟨cell, junk', hcell⟩ : ∃ cell junk', block (text.drop n) junk = cell :: junk' := by
    apply List.exists_cons_of_length_pos
    rw [length_block]
    omega
  refine ⟨junk', ?_, ?_⟩
  · rw [hmem, hcell, store_at htake.symm]
    unfold block
    rw [List.map_append, List.map_cons, List.map_nil, List.append_assoc, List.singleton_append]
  · have hlength := congrArg List.length hcell
    rw [length_block, List.length_drop, List.length_cons] at hlength
    omega

theorem Holds.setLength (h : Holds sb text) (hn : n ≤ text.length) :
    ∃ sb', sb.setLength n = some sb' ∧ Holds sb' (text.take n) := by
  obtain ⟨junk, hdata, hlen, hcapacity⟩ := h
  obtain ⟨junk', hstore, hjunk⟩ := @store_nul text junk n hn
  have hshort : ¬ sb.len < n := by omega
  unfold StringBuffer.setLength
  simp only [if_neg hshort, hdata, hstore, Option.bind_eq_bind, Option.bind_some]
  refine ⟨_, rfl, junk', rfl, ?_, ?_⟩
  · show n = _
    rw [List.length_take]
    omega
  · show sb.capacity = _
    rw [hcapacity, List.length_take]
    omega

theorem Holds.clear (h : Holds sb text) : ∃ sb', sb.clear = some sb' ∧ Holds sb' [] := by
  obtain ⟨junk, hdata, hlen, hcapacity⟩ := h
  obtain ⟨junk', hstore, hjunk⟩ := @store_nul text junk 0 (Nat.zero_le text.length)
  unfold StringBuffer.clear
  rw [hdata, hstore]
  refine ⟨_, rfl, junk', rfl, rfl, ?_⟩
  show sb.capacity = _
  rw [hcapacity, List.length_nil]
  omega

theorem offsetOf_iff (h : sb.len = text.length) (offset : Int) :
    (sb.len < offset ∨ offset < 0) ↔ ¬ OffsetOf text offset := by
  unfold OffsetOf
  rw [h]
  omega

theorem Holds.setCharAt (h : Holds sb text) {index : Int} (hindex : index ≠ text.length) :
    if OffsetOf text index then
      ∃ sb', sb.setCharAt index chr = some (some sb') ∧ Holds sb' (text.set index.toNat chr)
    else sb.setCharAt index chr = some none := by
  obtain ⟨junk, hdata, hlen, hcapacity⟩ := h
  have hiff := offsetOf_iff hlen index
  unfold StringBuffer.setCharAt
  by_cases hoffset : OffsetOf text index
  · rw [if_pos hoffset, if_neg (fun hbad => hiff.mp hbad hoffset)]
    have hlt : index.toNat < text.length := by
      obtain ⟨hlow, hhigh⟩ := hoffset
      omega
    have hstore : store sb.data index.toNat chr = some (block (text.set index.toNat chr) junk) := by
      unfold store
      rw [hdata, if_pos (by rw [length_block]; omega)]
      unfold block
      rw [List.set_append_left _ _ (by rw [List.length_map]; exact hlt), List.map_set]
    rw [hstore]
    refine ⟨_, rfl, junk, rfl, ?_, ?_⟩
    · show sb.len = _
      rw [hlen, List.length_set]
    · show sb.capacity = _
      rw [hcapacity, List.length_set]
  · rw [if_neg hoffset, if_pos (hiff.mpr hoffset)]

theorem Holds.toString (h : Holds sb text) (offset : Int) :
    sb.toString offset =
      some (if OffsetOf text offset then some (text.drop offset.toNat) else none) := by
  obtain ⟨junk, hdata, hlen, -⟩ := h
  have hiff := offsetOf_iff hlen offset
  unfold StringBuffer.toString
  by_cases hoffset : OffsetOf text offset
  · rw [if_pos hoffset, if_neg (fun hbad => hiff.mp hbad hoffset)]
    have hle : offset.toNat ≤ text.length := by
      obtain ⟨hlow, hhigh⟩ := hoffset
      omega
    have hmem : sb.data = (text.take offset.toNat).map some ++
        ((text.drop offset.toNat).map some ++ some 0 :: junk) := by
      rw [hdata, ← List.append_assoc, ← List.map_append, List.take_append_drop]
      rfl
    have hread : bytesAt sb.data offset.toNat (sb.len - offset.toNat) =
        some (text.drop offset.toNat) := by
      rw [hmem, hlen]
      apply bytesAt_at
      · rw [List.length_take]
        omega
      · rw [List.length_drop]
    rw [hread]
    rfl
  · rw [if_neg hoffset, if_pos (hiff.mpr hoffset)]

theorem Holds.c_str (h : Holds sb text) (offset : Int) :
    sb.c_str offset = some (if OffsetOf text offset then
      some ((text.drop offset.toNat).takeWhile (· ≠ 0)) else none) := by
  obtain ⟨junk, hdata, hlen, -⟩ := h
  have hiff := offsetOf_iff hlen offset
  unfold StringBuffer.c_str
  by_cases hoffset : OffsetOf text offset
  · rw [if_pos hoffset, if_neg (fun hbad => hiff.mp hbad hoffset)]
    have htake : (text.take offset.toNat).length = offset.toNat := by
      obtain ⟨hlow, hhigh⟩ := hoffset
      rw [List.length_take]
      omega
    have hmem : sb.data.drop offset.toNat = block (text.drop offset.toNat) junk := by
      have hdrop := @drop_block (text.take offset.toNat) (text.drop offset.toNat) junk
      rw [List.take_append_drop, htake] at hdrop
      rw [hdata, hdrop]
    rw [hmem, cstr_block]
    rfl
  · rw [if_neg hoffset, if_pos (hiff.mpr hoffset)]

/-! ## Runs -/

/-- **One call**: the answer is that of the text, and the block holds the text after it. -/
theorem Holds.step (h : Holds sb text) {call : Call} (hcall : Proper text call) :
    ∃ sb', sb.step call = some (sb', (textStep text call).2) ∧
      Holds sb' (textStep text call).1 := by
  have hdid : ∀ {r : Option StringBuffer} {text' : Str}, (∃ sb', r = some sb' ∧ Holds sb' text') →
      ∃ sb', did r = some (sb', .done) ∧ Holds sb' text' := by
    rintro r text' ⟨sb', rfl, hsb'⟩
    exact ⟨sb', rfl, hsb'⟩
  cases call with
  | appendString other => exact hdid (h.appendString hcall.1 hcall.2)
  | appendChars str =>
    rcases str with _ | ⟨other, more⟩
    · refine hdid ⟨sb, rfl, ?_⟩
      show Holds sb (text ++ [])
      rw [List.append_nil]
      exact h
    · exact hdid (h.appendChars hcall.1 hcall.2 more)
  | appendChar chr => exact hdid (h.appendChar hcall)
  | appendNumber x => exact hdid (h.appendNumber hcall.1 hcall.2.1 hcall.2.2)
  | concat other more offset =>
    have hconcat := @Holds.concat _ _ _ more h hcall.1 offset hcall.2
    rw [textStep]
    by_cases hillegal : other ≠ [] ∧ other.length ≤ offset
    · rw [if_pos hillegal] at hconcat ⊢
      refine ⟨sb, ?_, h⟩
      show didOrThrew sb _ = _
      rw [hconcat]
      rfl
    · rw [if_neg hillegal] at hconcat ⊢
      obtain ⟨sb', hsb', hholds⟩ := hconcat
      refine ⟨sb', ?_, hholds⟩
      show didOrThrew sb _ = _
      rw [hsb']
      rfl
  | concatBytes str length =>
    rcases str with _ | str
    · refine hdid ⟨sb, rfl, ?_⟩
      show Holds sb (text ++ ([] : Str).take length)
      rw [List.take_nil, List.append_nil]
      exact h
    · obtain ⟨hlength, hroom⟩ := hcall.2 (Option.some_ne_none str)
      exact hdid (h.concatBytes hcall.1 hlength hroom)
  | setLength newLength => exact hdid (h.setLength hcall)
  | setCharAt index c =>
    have hset := @Holds.setCharAt _ _ c h _ hcall
    rw [textStep]
    by_cases hoffset : OffsetOf text index
    · rw [if_pos hoffset] at hset ⊢
      obtain ⟨sb', hsb', hholds⟩ := hset
      refine ⟨sb', ?_, hholds⟩
      show didOrThrew sb _ = _
      rw [hsb']
      rfl
    · rw [if_neg hoffset] at hset ⊢
      refine ⟨sb, ?_, h⟩
      show didOrThrew sb _ = _
      rw [hset]
      rfl
  | clear => exact hdid h.clear
  | ensureCapacity neededCapacity =>
    obtain ⟨sb', hsb', hholds, -⟩ := h.ensureCapacity hcall
    exact hdid ⟨sb', hsb', hholds⟩
  | length =>
    have hlen : sb.len = text.length := h.choose_spec.2.1
    refine ⟨sb, ?_, h⟩
    show some (sb, Answer.number sb.len) = _
    rw [hlen]
    rfl
  | toString offset =>
    refine ⟨sb, ?_, h⟩
    show answered sb (sb.toString offset) = _
    rw [h.toString]
    rw [textStep]
    split
    · rfl
    · rfl
  | c_str offset =>
    refine ⟨sb, ?_, h⟩
    show answered sb (sb.c_str offset) = _
    rw [h.c_str]
    rw [textStep]
    split
    · rfl
    · rfl

theorem Holds.answers (h : Holds sb text) {calls : List Call} (hcalls : ProperCalls text calls) :
    sb.answers calls = some (textAnswers text calls) := by
  induction calls generalizing sb text with
  | nil => rfl
  | cons call calls ih =>
    obtain ⟨sb', hstep, hholds⟩ := h.step hcalls.1
    unfold StringBuffer.answers
    rw [hstep, Option.bind_eq_bind, Option.bind_some]
    simp only
    rw [ih hholds hcalls.2]
    rfl

/-- **A string buffer is a text**: whatever proper calls are made, and however large the block is at
    the beginning, each answer is that of the text, and nothing happens that C leaves undefined. -/
theorem calls_agree (capacity : Nat) (calls : List Call) (hcalls : ProperCalls [] calls) :
    (create capacity).answers calls = some (textAnswers [] calls) :=
  (holds_create capacity).answers hcalls

/-- A path is put together, cut off and looked at, in a block that is too small. -/
def pathCalls : List Call :=
  [.appendString ['/'.toUInt8, 'a'.toUInt8], .appendNumber (-12), .appendChar 'z'.toUInt8,
    .concatBytes (some ['x'.toUInt8, 'y'.toUInt8]) 1, .setCharAt 9 'q'.toUInt8, .setLength 4,
    .concat ['b'.toUInt8, 'c'.toUInt8] [] 1, .toString 0, .c_str 1, .length]

theorem properCalls_path : ProperCalls [] pathCalls := by
  refine ⟨?_, ?_, ?_, ?_, ?_, ?_, ?_, trivial, trivial, trivial, trivial⟩
  all_goals decide +kernel

theorem path_agrees : (create 2).answers pathCalls = some (textAnswers [] pathCalls) :=
  calls_agree 2 pathCalls properCalls_path

end

end StringBuffer

end MediaTomb
