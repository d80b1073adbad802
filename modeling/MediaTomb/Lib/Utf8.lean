/-
  UTF-8 as a list of bytes.

  A text is VALID when it is the encoding of some characters; how one character is encoded is the
  core library's `String.utf8EncodeChar`.  Everything here comes from one fact about it: a character
  is a LEAD byte that tells how many bytes there are (`width`), and TAIL bytes, and no byte is both
  (`encodeChar_eq`).

    * behind a lead byte stand its tail bytes (`Valid.tail_of_lead`);
    * before a tail byte stands its lead byte, at most three places away (`Valid.lead_of_tail`);
    * so a text may be cut exactly where no tail byte follows (`Valid.take_iff`).
-/
import Mathlib

namespace MediaTomb.Lib.Utf8

/-! ## Characters -/

/-- A byte that does not begin a character. -/
def Tail (b : UInt8) : Prop := 0x80 ≤ b.toNat ∧ b.toNat < 0xC0

instance : DecidablePred Tail := fun _ => inferInstanceAs (Decidable (_ ∧ _))

/-- How many bytes the character has that begins with this one. -/
def width (a : UInt8) : Nat :=
  if a.toNat < 0xC0 then 1 else if a.toNat < 0xE0 then 2 else if a.toNat < 0xF0 then 3 else 4

theorem one_lt_width {a : UInt8} : 1 < width a ↔ 0xC0 ≤ a.toNat := by
  unfold width
  split_ifs <;> omega

theorem two_lt_width {a : UInt8} : 2 < width a ↔ 0xE0 ≤ a.toNat := by
  unfold width
  split_ifs <;> omega

theorem three_lt_width {a : UInt8} : 3 < width a ↔ 0xF0 ≤ a.toNat := by
  unfold width
  split_ifs <;> omega

theorem width_le (a : UInt8) : width a ≤ 4 := by
  unfold width
  split_ifs <;> omega

theorem width_tail {a : UInt8} (h : Tail a) : width a = 1 := if_pos h.2

theorem tail_ofNat (v : Nat) : Tail (UInt8.ofNat (v % 0x40 + 0x80)) := by
  have hlt : v % 0x40 + 0x80 < 256 := by omega
  rw [Tail, UInt8.toNat_ofNat_of_lt' hlt]
  omega

/-- **One character**: a lead byte and as many tail bytes as it says. -/
theorem encodeChar_eq (c : Char) :
    ∃ a ts, String.utf8EncodeChar c = a :: ts ∧ ¬ Tail a ∧ ts.length + 1 = width a ∧
      ∀ b ∈ ts, Tail b := by
  have hlead : ∀ n < 256, (UInt8.ofNat n).toNat = n := fun n h => UInt8.toNat_ofNat_of_lt' h
  have hval : c.val.toNat < 0x110000 := by
    rcases c.valid with h | ⟨_, h⟩
    · exact lt_trans h (by norm_num)
    · exact h
  unfold String.utf8EncodeChar
  by_cases h1 : c.val.toNat ≤ 0x7f
  · refine ⟨_, _, if_pos h1, ?_, ?_, by simp⟩
    · rw [Tail, hlead _ (by omega)]
      omega
    · rw [width, hlead _ (by omega), if_pos (by omega)]
      rfl
  · by_cases h2 : c.val.toNat ≤ 0x7ff
    · refine ⟨_, _, (if_neg h1).trans (if_pos h2), ?_, ?_, ?_⟩
      · rw [Tail, hlead _ (by omega)]
        omega
      · rw [width, hlead _ (by omega), if_neg (by omega), if_pos (by omega)]
        rfl
      · rw [List.forall_mem_singleton]
        exact tail_ofNat _
    · by_cases h3 : c.val.toNat ≤ 0xffff
      · refine ⟨_, _, (if_neg h1).trans ((if_neg h2).trans (if_pos h3)), ?_, ?_, ?_⟩
        · rw [Tail, hlead _ (by omega)]
          omega
        · rw [width, hlead _ (by omega), if_neg (by omega), if_neg (by omega), if_pos (by omega)]
          rfl
        · rw [List.forall_mem_cons, List.forall_mem_singleton]
          exact ⟨tail_ofNat _, tail_ofNat _⟩
      · refine ⟨_, _, (if_neg h1).trans ((if_neg h2).trans (if_neg h3)), ?_, ?_, ?_⟩
        · rw [Tail, hlead _ (by omega)]
          omega
        · rw [width, hlead _ (by omega), if_neg (by omega), if_neg (by omega), if_neg (by omega)]
          rfl
        · rw [List.forall_mem_cons, List.forall_mem_cons, List.forall_mem_singleton]
          exact ⟨tail_ofNat _, tail_ofNat _, tail_ofNat _⟩

/-- A byte below `0x80` is a character, and no other character contains one. -/
theorem encodeChar_cases (c : Char) :
    (c.toNat < 0x80 ∧ String.utf8EncodeChar c = [UInt8.ofNat c.toNat]) ∨
      (0x80 ≤ c.toNat ∧ ∀ b ∈ String.utf8EncodeChar c, 0x80 ≤ b.toNat) := by
  have htail : ∀ v, 0x80 ≤ (UInt8.ofNat (v % 0x40 + 0x80)).toNat := fun v => (tail_ofNat v).1
  have hlead : ∀ v m k, 0 < m → m + k ≤ 256 → 0x80 ≤ k → 0x80 ≤ (UInt8.ofNat (v % m + k)).toNat := by
    intro v m k hm hle hk
    have hmod := Nat.mod_lt v hm
    rw [UInt8.toNat_ofNat_of_lt' (show v % m + k < 256 by omega)]
    omega
  have hval : c.toNat = c.val.toNat := rfl
  unfold String.utf8EncodeChar
  by_cases h1 : c.val.toNat ≤ 0x7f
  · exact Or.inl ⟨by omega, if_pos h1⟩
  · refine Or.inr ⟨by omega, ?_⟩
    by_cases h2 : c.val.toNat ≤ 0x7ff
    · rw [if_neg h1, if_pos h2, List.forall_mem_cons, List.forall_mem_singleton]
      exact ⟨hlead _ _ _ (by omega) (by omega) (by omega), htail _⟩
    · by_cases h3 : c.val.toNat ≤ 0xffff
      · rw [if_neg h1, if_neg h2, if_pos h3, List.forall_mem_cons, List.forall_mem_cons,
          List.forall_mem_singleton]
        exact ⟨hlead _ _ _ (by omega) (by omega) (by omega), htail _, htail _⟩
      · rw [if_neg h1, if_neg h2, if_neg h3, List.forall_mem_cons, List.forall_mem_cons,
          List.forall_mem_cons, List.forall_mem_singleton]
        exact ⟨hlead _ _ _ (by omega) (by omega) (by omega), htail _, htail _, htail _⟩

/-! ## Texts -/

def encode (cs : List Char) : List UInt8 := cs.flatMap String.utf8EncodeChar

theorem encode_append (cs ds : List Char) : encode (cs ++ ds) = encode cs ++ encode ds :=
  List.flatMap_append

theorem encode_cons (c : Char) (cs : List Char) :
    encode (c :: cs) = String.utf8EncodeChar c ++ encode cs := rfl

theorem mem_encode {cs : List Char} {b : UInt8} (h : b ∈ encode cs) :
    (∃ c ∈ cs, c.toNat < 0x80 ∧ b = UInt8.ofNat c.toNat) ∨ 0x80 ≤ b.toNat := by
  obtain ⟨c, hc, hb⟩ := List.mem_flatMap.mp h
  rcases encodeChar_cases c with ⟨hsmall, henc⟩ | ⟨_, hall⟩
  · rw [henc] at hb
    exact Or.inl ⟨c, hc, hsmall, List.mem_singleton.mp hb⟩
  · exact Or.inr (hall b hb)

/-- **Valid UTF-8.** -/
def Valid (s : List UInt8) : Prop := ∃ cs, encode cs = s

theorem valid_nil : Valid [] := ⟨[], rfl⟩

theorem Valid.append {s t : List UInt8} (hs : Valid s) (ht : Valid t) : Valid (s ++ t) := by
  obtain ⟨cs, rfl⟩ := hs
  obtain ⟨ds, rfl⟩ := ht
  exact ⟨cs ++ ds, encode_append cs ds⟩

/-- The character a byte belongs to: what comes before it, its bytes, and the byte's place. -/
theorem Valid.split {s : List UInt8} {i : Nat} {x : UInt8} (hs : Valid s) (hx : s[i]? = some x) :
    ∃ pre a ts post j, s = encode pre ++ (a :: ts) ++ post ∧ ¬ Tail a ∧
      ts.length + 1 = width a ∧ (∀ b ∈ ts, Tail b) ∧ i = (encode pre).length + j ∧
      (a :: ts)[j]? = some x := by
  obtain ⟨cs, rfl⟩ := hs
  induction cs generalizing i with
  | nil => cases hx
  | cons c cs ih =>
    obtain ⟨a, ts, hc, ha, hwidth, hts⟩ := encodeChar_eq c
    rw [encode_cons] at hx ⊢
    by_cases hi : i < (String.utf8EncodeChar c).length
    · rw [List.getElem?_append_left hi, hc] at hx
      rw [hc]
      exact ⟨[], a, ts, encode cs, i, by simp [encode], ha, hwidth, hts, by simp [encode], hx⟩
    · rw [List.getElem?_append_right (by omega)] at hx
      obtain ⟨pre, a', ts', post, j, heq, ha', hw', hts', hj, hget⟩ := ih hx
      refine ⟨c :: pre, a', ts', post, j, ?_, ha', hw', hts', ?_, hget⟩
      · rw [heq, encode_cons]
        simp only [List.append_assoc]
      · rw [encode_cons, List.length_append]
        omega

/-- In the character, only the first byte is no tail. -/
theorem place_of_not_tail {a x : UInt8} {ts : List UInt8} {j : Nat} (hts : ∀ b ∈ ts, Tail b)
    (hx : (a :: ts)[j]? = some x) (hnot : ¬ Tail x) : j = 0 := by
  cases j with
  | zero => rfl
  | succ j => exact absurd (hts x (List.mem_of_getElem? hx)) hnot

/-- **Behind a lead byte stand its tail bytes.** -/
theorem Valid.tail_of_lead {s : List UInt8} {i k : Nat} {a : UInt8} (hs : Valid s)
    (ha : s[i]? = some a) (hk : 0 < k) (hwidth : k < width a) :
    ∃ b, s[i + k]? = some b ∧ Tail b := by
  obtain ⟨pre, a', ts, post, j, rfl, -, hlen, hts, rfl, hget⟩ := hs.split ha
  have hnot : ¬ Tail a := fun h => by rw [width_tail h] at hwidth; omega
  obtain rfl := place_of_not_tail hts hget hnot
  obtain rfl : a' = a := Option.some.inj hget
  have hlt : k - 1 < ts.length := by omega
  refine ⟨ts[k - 1], ?_, hts _ (List.getElem_mem hlt)⟩
  have hplace : (encode pre).length + 0 + k - (encode pre).length = k := by omega
  rw [List.append_assoc, List.getElem?_append_right (by omega), hplace,
    List.getElem?_append_left (by rw [List.length_cons]; omega)]
  obtain ⟨k', rfl⟩ : ∃ k', k = k' + 1 := ⟨k - 1, by omega⟩
  exact List.getElem?_eq_getElem hlt

/-- **Before a tail byte stands its lead byte.** -/
theorem Valid.lead_of_tail {s : List UInt8} {i : Nat} {b : UInt8} (hs : Valid s)
    (hb : s[i]? = some b) (htail : Tail b) :
    ∃ k a, 0 < k ∧ k ≤ i ∧ s[i - k]? = some a ∧ k < width a := by
  obtain ⟨pre, a, ts, post, j, rfl, ha, hlen, hts, rfl, hget⟩ := hs.split hb
  have hj : j ≠ 0 := by
    rintro rfl
    exact ha (by rw [Option.some.inj hget]; exact htail)
  have hjlt : j < (a :: ts).length := by
    by_contra hge
    rw [List.getElem?_eq_none (by omega)] at hget
    cases hget
  rw [List.length_cons] at hjlt
  refine ⟨j, a, by omega, by omega, ?_, by omega⟩
  have hplace : (encode pre).length + j - j - (encode pre).length = 0 := by omega
  rw [List.append_assoc, List.getElem?_append_right (by omega), hplace]
  rfl

/-- **Where a text may be cut**: no tail byte follows. -/
theorem Valid.take_iff {s : List UInt8} {i : Nat} {b : UInt8} (hs : Valid s)
    (hb : s[i]? = some b) : Valid (s.take i) ↔ ¬ Tail b := by
  have hi : i < s.length := (List.getElem?_eq_some_iff.1 hb).1
  constructor
  · intro htake htail
    obtain ⟨k, a, hk, hki, ha, hwidth⟩ := hs.lead_of_tail hb htail
    have ha' : (s.take i)[i - k]? = some a := by
      rw [List.getElem?_take_of_lt (by omega)]
      exact ha
    obtain ⟨b', hb', _⟩ := htake.tail_of_lead ha' hk hwidth
    rw [List.getElem?_eq_none (by rw [List.length_take]; omega)] at hb'
    cases hb'
  · intro hnot
    obtain ⟨pre, a, ts, post, j, rfl, ha, hlen, hts, rfl, hget⟩ := hs.split hb
    obtain rfl := place_of_not_tail hts hget hnot
    rw [List.append_assoc, Nat.add_zero, List.take_left]
    exact ⟨pre, rfl⟩

end MediaTomb.Lib.Utf8
