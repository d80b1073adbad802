/-
  Strings and the string tools the storage code is written with (`zmm/strings.cc`, `tools.cc`).

  `zmm::String` is a counted byte buffer that may be nil.  Here a string is a list of bytes, and a
  place where the source can hold nil is an `Option Str`; `string_ok` is `stringOk`.  Where the C
  code walks two pointers over a buffer, the definition recurses over the bytes in the same order
  and keeps what the code has written in the same order.
-/
import Mathlib

namespace MediaTomb

/-- A non-nil `zmm::String`. -/
abbrev Str := List UInt8

/-- The bytes of a string constant of the source. -/
def str (s : String) : Str := s.toList.map Char.toUInt8

/-! ## `zmm/strings.cc` -/

/-- `String::from(int)`. -/
def fromInt (x : Int) : Str :=
  let digits := (Nat.toDigits 10 x.natAbs).map Char.toUInt8
  if x < 0 then '-'.toUInt8 :: digits else digits

def isSpace (c : UInt8) : Bool := c == 32 || (9 ≤ c && c ≤ 13)

def isDigit (c : UInt8) : Bool := '0'.toUInt8 ≤ c && c ≤ '9'.toUInt8

/-- The digits `strtol` consumes, and what it leaves. -/
def scanDigits : Nat → Str → Nat × Str
  | acc, [] => (acc, [])
  | acc, c :: r =>
    if isDigit c then scanDigits (acc * 10 + (c.toNat - 48)) r else (acc, c :: r)

/-- `strtol` with base 10: blanks, a sign, digits; the value saturates at the 64-bit bounds. -/
def strtol (s : Str) : Int × Str :=
  let t := s.dropWhile isSpace
  let (neg, u) := match t with
    | c :: r => if c == '-'.toUInt8 then (true, r) else if c == '+'.toUInt8 then (false, r) else (false, t)
    | [] => (false, [])
  match u with
  | [] => (0, s)
  | c :: _ =>
    if isDigit c then
      let (n, rest) := scanDigits 0 u
      (if neg then max (-(n : Int)) (-(2 ^ 63)) else min (n : Int) (2 ^ 63 - 1), rest)
    else (0, s)

/-- `String::toInt`: 0 for nil and for a text with anything after the number; otherwise the
    number cut down to an `int`. -/
def toInt : Option Str → Int
  | none => 0
  | some s =>
    let (v, rest) := strtol s
    if rest = [] then v.bmod (2 ^ 32) else 0

/-- `String::rindex(ch)`: the last position of `ch`. -/
def rindex (ch : UInt8) (s : Str) : Option Nat :=
  (s.reverse.findIdx? (· == ch)).map fun i => s.length - 1 - i

/-- `String::rindex(end, ch)`: the last position of `ch` at or before `end`. -/
def rindexFrom (last : Nat) (ch : UInt8) (s : Str) : Option Nat :=
  if last + 1 > s.length then none else rindex ch (s.take (last + 1))

/-- `String::reduce(ch)`: every run of `ch` shrinks to one `ch`. -/
def reduce (ch : UInt8) : Str → Str
  | [] => []
  | [c] => [c]
  | c :: d :: r => if c == ch && d == ch then reduce ch (d :: r) else c :: reduce ch (d :: r)

theorem reduce_length_le (ch : UInt8) : ∀ s : Str, (reduce ch s).length ≤ s.length
  | [] => Nat.le_refl _
  | [_] => Nat.le_refl _
  | c :: d :: r => by
    have ih := reduce_length_le ch (d :: r)
    rw [reduce]
    split
    · exact Nat.le_succ_of_le ih
    · simp only [List.length_cons] at ih ⊢
      omega

/-! ## `tools.cc` -/

/-- `string_ok`: neither nil nor empty. -/
def stringOk : Option Str → Bool
  | none => false
  | some s => s ≠ []

/-- `String + String`, where nil is neutral. -/
def strAppend : Option Str → Option Str → Option Str
  | a, none => a
  | none, b => b
  | some a, some b => some (a ++ b)

/-- `fallbackString`: the second where the first is nil. -/
def fallbackString (first fallback : Option Str) : Option Str :=
  match first with
  | none => fallback
  | some s => some s

/-- `stringHash`: (hash * 33) ^ c over the bytes, in 32 bits. -/
def stringHash (s : Str) : UInt32 :=
  s.foldl (fun hash c => ((hash <<< 5) + hash) ^^^ c.toUInt32) 5381

/-- The text up to the first `ch`, and what follows it when there is one (`strchr`). -/
def cut (ch : UInt8) : Str → Str × Option Str
  | [] => ([], none)
  | c :: r =>
    if c == ch then ([], some r)
    else
      let (a, b) := cut ch r
      (c :: a, b)

/-- `split_string(str, sep, empty)`; `cur` is the part read since the last separator. -/
def splitStringFrom (sep : UInt8) (empty : Bool) : Str → Str → List Str
  | cur, [] => if cur = [] then [] else [cur]
  | cur, c :: r =>
    if c == sep then
      if cur = [] then
        if r ≠ [] ∧ empty then [] :: splitStringFrom sep empty [] r
        else splitStringFrom sep empty [] r
      else cur :: splitStringFrom sep empty [] r
    else splitStringFrom sep empty (cur ++ [c]) r

def splitString (s : Option Str) (sep : UInt8) (empty : Bool) : List Str :=
  splitStringFrom sep empty [] (s.getD [])

def dirSeparator : UInt8 := '/'.toUInt8

def virtualContainerSeparator : UInt8 := '/'.toUInt8

def virtualContainerEscape : UInt8 := '\\'.toUInt8

/-- What `split_path` complains about. -/
inductive SplitPathError where
  | invalid
  | relative
  deriving DecidableEq, Repr

/-- `split_path`: the directory (`/` when the only separator leads) and the file name. -/
def splitPath (s : Str) : Except SplitPathError (Str × Str) :=
  if s = [] then .error .invalid
  else match rindex dirSeparator s with
    | none => .error .relative
    | some 0 => .ok ([dirSeparator], s.drop 1)
    | some pos => .ok (s.take pos, s.drop (pos + 1))

/-- `unescape`: drop each escape character and keep the character after it. -/
def unescape (esc : UInt8) : Str → Str
  | [] => []
  | [c] => if c == esc then [] else [c]
  | c :: d :: r => if c == esc then d :: unescape esc r else c :: unescape esc (d :: r)

/-- `escape`: a backslash (whatever `escapeChar` is) before each `escapeChar` and `toEscape`. -/
def escape (escapeChar toEscape : UInt8) : Str → Str
  | [] => []
  | c :: r =>
    if c == escapeChar || c == toEscape then '\\'.toUInt8 :: c :: escape escapeChar toEscape r
    else c :: escape escapeChar toEscape r

def hexDigits : Str := str "0123456789ABCDEF"

def urlSafe (c : UInt8) : Bool :=
  isDigit c || ('A'.toUInt8 ≤ c && c ≤ 'Z'.toUInt8) || ('a'.toUInt8 ≤ c && c ≤ 'z'.toUInt8) ||
    c == '_'.toUInt8 || c == '-'.toUInt8

/-- `url_escape`. -/
def urlEscape (s : Str) : Str :=
  s.flatMap fun c =>
    if urlSafe c then [c]
    else ['%'.toUInt8, hexDigits.getD (c.toNat / 16) 0, hexDigits.getD (c.toNat % 16) 0]

/-- The value of a hex digit; 0 for any other character. -/
def hexValue (c : UInt8) : Nat := (hexDigits.findIdx? (· == c)).getD 0

/-- `url_unescape`: a `%` without two characters after it ends the text. -/
def urlUnescape : Str → Str
  | [] => []
  | c :: r =>
    if c == '%'.toUInt8 then
      match r with
      | hi :: lo :: r' => UInt8.ofNat (hexValue hi * 16 + hexValue lo) :: urlUnescape r'
      | _ => []
    else if c == '+'.toUInt8 then ' '.toUInt8 :: urlUnescape r
    else c :: urlUnescape r

/-! ## Lengths `split_path` leaves -/

theorem rindex_lt {ch : UInt8} {s : Str} {pos : Nat} (h : rindex ch s = some pos) :
    pos < s.length := by
  unfold rindex at h
  rcases hf : s.reverse.findIdx? (· == ch) with _ | i
  · rw [hf] at h
    cases h
  · rw [hf] at h
    have hi := (List.findIdx?_eq_some_iff_findIdx_eq.mp hf).1
    simp only [Option.map_some, Option.some.injEq] at h
    rw [List.length_reverse] at hi
    omega

/-- The directory part is shorter than the path, unless the path is `/` alone. -/
theorem splitPath_dir_lt {s dir file : Str} (h : splitPath s = .ok (dir, file))
    (hs : s ≠ [dirSeparator]) : dir.length < s.length := by
  unfold splitPath at h
  split at h
  · cases h
  · next hne =>
    split at h
    · cases h
    · next h0 =>
      cases h
      -- a path of length one whose only separator leads is the separator itself
      rcases s with _ | ⟨c, _ | ⟨d, r⟩⟩
      · exact absurd rfl hne
      · have hc : c = dirSeparator := by
          by_contra hc
          simp [rindex, List.findIdx?_cons, hc] at h0
        exact absurd (by rw [hc]) hs
      · simp
    · next pos hp =>
      cases h
      have hlt := rindex_lt hp
      rw [List.length_take]
      omega

/-! ## `int` -/

/-- The sum of two `int`s. -/
@[irreducible] def sumInt (x y : Int) : Int := (x + y).bmod (2 ^ 32)

theorem sumInt_small {x y : Int} (hlow : -(2 ^ 31) ≤ x + y) (hhigh : x + y < 2 ^ 31) :
    sumInt x y = x + y := by
  unfold sumInt
  apply Int.bmod_eq_of_le
  · norm_num
    omega
  · norm_num
    omega

/-- A sum that is too large comes out negative. -/
theorem sumInt_large {x y : Int} (hlow : 2 ^ 31 ≤ x + y) (hhigh : x + y < 2 ^ 32) :
    sumInt x y = x + y - 2 ^ 32 := by
  unfold sumInt
  rw [← Int.sub_bmod_right (x + y) (2 ^ 32)]
  have hcast : ((2 ^ 32 : Nat) : Int) = 2 ^ 32 := by norm_num
  rw [hcast]
  apply Int.bmod_eq_of_le
  · norm_num
    omega
  · norm_num
    omega

end MediaTomb
