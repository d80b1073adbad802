/-
  The time a login token is good for (`web/auth.cc`).

  A token says in decimal when it expires, `LOGIN_TIMEOUT` seconds after it was issued, and a random
  id follows behind an underscore.  `check_token` takes the text apart and reads the time back.

    * DATA     times are longs of 64 bits, and so is their sum; a digest is sixteen bytes.
    * PROGRAM  `String::from(long)` writes all of a long, but `String::toLong` reads it through an
               `int`: `(int)strtol(...)`.
    * RESULT   the token is good for exactly its ten seconds as long as the expiry is below 2^31, in
               January 2038, and for no time from then on (`token_accepted_iff`).

  The requests of the web interface are about times that do not overflow, and have
  `generateToken` and `checkToken` for them; `checkTokenAt_natCast` says that they agree.
-/
import MediaTomb.Web.WebRequestHandler
import MediaTomb.Encodings

namespace MediaTomb

/-! ## Longs as text -/

/-- The sum of two longs. -/
def addLong (a b : Int) : Int := (a + b).bmod (2 ^ 64)

/-- `String::from(long)`. -/
def fromLong (x : Int) : Str := fromInt x

/-- `String::toLong`: the number goes through an `int`. -/
def toLong : Option Str → Int
  | none => 0
  | some s =>
    let (res, endptr) := strtol s
    if endptr = [] then res.bmod (2 ^ 32) else 0

/-- `toInt` is `(int)toLong()`. -/
theorem toInt_eq_toLong (s : Option Str) : toInt s = toLong s := by
  cases s with
  | none => rfl
  | some s => rfl

/-- What is read of a long that has been written. -/
theorem toLong_fromLong {x : Int} (h0 : 0 ≤ x) (hlong : x < 2 ^ 63) :
    toLong (some (fromLong x)) = x.bmod (2 ^ 32) := by
  obtain ⟨n, rfl⟩ := Int.eq_ofNat_of_zero_le h0
  have hread : strtol (fromInt (n : Int)) = (min (n : Int) (2 ^ 63 - 1), []) := strtol_digits n
  have hmin : min (n : Int) (2 ^ 63 - 1) = n := Int.min_eq_left (by omega)
  unfold toLong fromLong
  simp only [hread, hmin, if_true]

theorem bmod_eq_self_iff {x : Int} (h0 : 0 ≤ x) : x.bmod (2 ^ 32) = x ↔ x < 2 ^ 31 := by
  rw [Int.bmod_def]
  split <;> omega

/-- Nothing that is read is larger than an `int`. -/
theorem toLong_lt (s : Str) : toLong (some s) < 2 ^ 31 := by
  unfold toLong
  simp only
  split
  · rw [Int.bmod_def]
    split <;> omega
  · decide

/-! ## Digests -/

def hexChars : Str := str "0123456789abcdef"

/-- `hex_encode`. -/
def hexEncode (data : List UInt8) : Str :=
  data.flatMap fun c => [hexChars.getD (c.toNat / 16) 0, hexChars.getD (c.toNat % 16) 0]

/-- What MD5 makes of a text. -/
structure Digest where
  bytes : List UInt8
  sixteen : bytes.length = 16

/-- `hex_md5` and `hex_string_md5`. -/
def hexMD5 (md5 : Str → Digest) (data : Str) : Str := hexEncode (md5 data).bytes

theorem hexChars_underscore : ∀ n < 16, hexChars.getD n 0 ≠ '_'.toUInt8 := by decide

theorem underscore_hexMD5 (md5 : Str → Digest) (data : Str) : '_'.toUInt8 ∉ hexMD5 md5 data := by
  intro hmem
  obtain ⟨c, -, hc⟩ := List.mem_flatMap.mp hmem
  have hlt := c.toNat_lt
  rcases List.mem_pair.mp hc with hhi | hlo
  · exact hexChars_underscore (c.toNat / 16) (by omega) hhi.symm
  · exact hexChars_underscore (c.toNat % 16) (by omega) hlo.symm

theorem hexMD5_ne_nil (md5 : Str → Digest) (data : Str) : hexMD5 md5 data ≠ [] := by
  have hsixteen := (md5 data).sixteen
  unfold hexMD5 hexEncode
  cases hbytes : (md5 data).bytes with
  | nil =>
    rw [hbytes] at hsixteen
    cases hsixteen
  | cons c bytes => exact List.cons_ne_nil _ _

/-! ## Tokens -/

/-- `generate_token` at the time `now`; `seed` is what `generate_random_id` puts through MD5. -/
def generateTokenAt (md5 : Str → Digest) (seed : Str) (now : Int) : Str :=
  fromLong (addLong now loginTimeout) ++ '_'.toUInt8 :: hexMD5 md5 seed

/-- `check_token` at the time `now`. -/
def checkTokenAt (md5 : Str → Digest) (now : Int) (token : Option Str)
    (password encPassword : Str) : Bool :=
  match splitString token '_'.toUInt8 false with
  | [expiration, _] =>
    if toLong (some expiration) < now then false
    else hexMD5 md5 (token.getD [] ++ password) = encPassword
  | _ => false

/-- The check of the requests is this one. -/
theorem checkTokenAt_natCast (md5 : Str → Digest) (now : Nat) (token : Option Str)
    (password encPassword : Str) :
    checkToken (hexMD5 md5) now token password encPassword =
      checkTokenAt md5 now token password encPassword := by
  unfold checkToken checkTokenAt
  generalize splitString token '_'.toUInt8 false = parts
  rcases parts with _ | ⟨expiration, _ | ⟨salt, _ | ⟨more, rest⟩⟩⟩
  · rfl
  · rfl
  · rfl
  · rfl

section

variable {md5 : Str → Digest} {seed password : Str} {t now : Int}

/-- The two parts come back. -/
theorem splitString_token (x : Int) :
    splitString (some (fromLong x ++ '_'.toUInt8 :: hexMD5 md5 seed)) '_'.toUInt8 false =
      [fromLong x, hexMD5 md5 seed] := by
  have hplain : '_'.toUInt8 ∉ fromLong x := CdsResource.not_mem_fromInt (by decide) (by decide)
  unfold splitString
  rw [Option.getD_some, splitStringFrom_part hplain (fromInt_ne_nil x),
    splitStringFrom_last (underscore_hexMD5 md5 seed) (hexMD5_ne_nil md5 seed)]

/-- **The check of a token**, with the md5 that belongs to it, is a comparison of times. -/
theorem checkTokenAt_generateTokenAt :
    checkTokenAt md5 now (some (generateTokenAt md5 seed t)) password
      (hexMD5 md5 (generateTokenAt md5 seed t ++ password)) = true ↔
        now ≤ toLong (some (fromLong (addLong t loginTimeout))) := by
  unfold checkTokenAt
  have hsplit : splitString (some (generateTokenAt md5 seed t)) '_'.toUInt8 false =
      [fromLong (addLong t loginTimeout), hexMD5 md5 seed] := splitString_token _
  rw [hsplit]
  simp only [Option.getD_some]
  split
  · next hlate => exact ⟨fun h => (by cases h), fun h => absurd h (Int.not_le.mpr hlate)⟩
  · next hearly => exact ⟨fun _ => Int.not_lt.mp hearly, fun _ => by simp⟩

/-- The token of the time `t` is accepted until its ten seconds are over, and no longer. -/
def AcceptedInTime (md5 : Str → Digest) (seed password : Str) (t : Int) : Prop :=
  ∀ now, t ≤ now → now < 2 ^ 63 →
    (checkTokenAt md5 now (some (generateTokenAt md5 seed t)) password
      (hexMD5 md5 (generateTokenAt md5 seed t ++ password)) = true ↔ now ≤ t + loginTimeout)

/-- Below the end of the longs nothing overflows. -/
theorem addLong_eq {a b : Int} (h0 : 0 ≤ a + b) (hlong : a + b < 2 ^ 63) : addLong a b = a + b := by
  unfold addLong
  rw [Int.bmod_def]
  split <;> omega

/-- **How long a token is good.**  For its ten seconds exactly if the expiry fits an `int`. -/
theorem token_accepted_iff (md5 : Str → Digest) (seed password : Str) {t : Int} (h0 : 0 ≤ t)
    (hlong : t < 2 ^ 63) :
    AcceptedInTime md5 seed password t ↔ t + loginTimeout < 2 ^ 31 := by
  have htimeout : (loginTimeout : Int) = 10 := rfl
  unfold AcceptedInTime
  simp only [checkTokenAt_generateTokenAt]
  constructor
  · intro h
    by_contra hlarge
    -- whatever is read is below 2^31: too early, at the time of issue or one second later
    have hread := toLong_lt (fromLong (addLong t loginTimeout))
    generalize toLong (some (fromLong (addLong t loginTimeout))) = read at h hread
    by_cases hlt : read < t
    · have hat := (h t (Int.le_refl t) hlong).mpr (by omega)
      omega
    · have hat := (h (read + 1) (by omega) (by omega)).mpr (by omega)
      omega
  · intro hsmall now _ _
    rw [addLong_eq (by omega) (by omega), toLong_fromLong (by omega) (by omega),
      (bmod_eq_self_iff (by omega)).mpr hsmall]

/-- The digest of a text that nobody looks at. -/
def anyDigest : Str → Digest := fun _ => ⟨List.replicate 16 0xA5, List.length_replicate⟩

/-- At the beginning of 2010. -/
theorem token_accepted_2010 : AcceptedInTime anyDigest [] (str "secret") 1262304000 :=
  (token_accepted_iff anyDigest [] (str "secret") (by decide) (by decide)).mpr (by decide)

/-- **From 2038 on** a token is refused in the second in which it is issued. -/
theorem token_refused_2038 : ¬ AcceptedInTime anyDigest [] (str "secret") (2 ^ 31 - 10) := by
  intro h
  have hat := (h (2 ^ 31 - 10) (Int.le_refl _) (by decide)).mpr (by decide)
  revert hat
  decide +kernel

end

end MediaTomb
