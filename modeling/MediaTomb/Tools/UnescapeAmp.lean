/-
  `unescape_amp` (`tools.cc`): every `&amp;` becomes `&`.

    * DATA     the string in its memory, and a buffer of the same size.  `last` is where the part
               begins that is not copied yet, `str` where it will go.
    * PROGRAM  the inner loop looks for the next `&`, until one begins an entity; what is before it
               is copied with the `&` itself, and the four characters behind are skipped.  The
               index -1 says that there is none, and then the rest is copied with its NUL.
    * RESULT   the entities are replaced from left to right, and what has been replaced is not
               looked at again (`unescape_amp_iff`).  A NUL inside ends the text, and the assertion
               at the end fails.

  With `next` = -1 the test for an entity is made all the same, at the BEGINNING of the string: one
  that begins with `amp;` leaves `skip` at 4.  This only moves `last`, which is behind the end
  already, four places on; it matters where that is no `int`.
-/
import MediaTomb.Tools
import MediaTomb.Lib.CString

namespace MediaTomb.UnescapeAmp

open Lib.CString

/-! ## The program -/

/-- `&` -/
def amp : UInt8 := 38

/-- `amp;` -/
def ampRest : Str := [97, 109, 112, 59]

/-- `String::charAt` -/
def charAt (mem : Memory) (index : Int) : Option UInt8 :=
  if 0 ≤ index then load mem index.toNat else none

/-- `String::index(start, ch)` -/
def index (mem : Memory) (len start : Int) (ch : UInt8) : Option Int :=
  if start < 0 ∨ len < sumInt start 1 then some (-1)
  else (strchr mem start.toNat ch).map fun pos => pos.elim (-1) fun pos => (pos : Int)

/-- The comparisons of `charAt(next + k)` and so on, which stop at the first that fails. -/
def matchFrom (mem : Memory) (next : Int) : Int → Str → Option Bool
  | _, [] => some true
  | k, c :: cs =>
    (charAt mem (sumInt next k)).bind fun d =>
      if d = c then matchFrom mem next (k + 1) cs else some false

/-- `(next < len) && (string.charAt(next + 1) == 'a') && ...` -/
def isAmp (mem : Memory) (len next : Int) : Option Bool :=
  if next < len then matchFrom mem next 1 ampRest else some false

/-- The inner loop, with the `next` before it; what comes out is `next` and `skip`. -/
def findAmp (mem : Memory) (len : Int) : Nat → Int → Option (Int × Int)
  | 0, _ => none
  | fuel + 1, next =>
    (index mem len (sumInt next 1) amp).bind fun next =>
      (isAmp mem len next).bind fun found =>
        if found then some (next, 4)
        else if 0 < next then findAmp mem len fuel next
        else some (next, 0)

/-- `strncpy(str, string.charPtrAt(last), cpLen)` -/
def copyPart (mem : Memory) (data : Memory) (str : Nat) (last cpLen : Int) : Option Memory :=
  if last < 0 ∨ cpLen < 0 then none -- before the block, or a huge count
  else Lib.CString.strncpy data str mem last.toNat cpLen.toNat

/-- The outer loop; what comes out is `str` and the buffer. -/
def unescapeLoop (mem : Memory) (len : Int) (steps : Nat) :
    Nat → Int → Nat → Memory → Option (Nat × Memory)
  | 0, _, _, _ => none
  | fuel + 1, last, str, data =>
    (findAmp mem len steps (sumInt last (-1))).bind fun found =>
      let next := if found.1 < 0 then len else found.1
      let cpLen := sumInt (sumInt next (-last)) 1
      (copyPart mem data str last cpLen).bind fun data =>
        let str := str + cpLen.toNat
        let last := sumInt (sumInt next found.2) 1
        if last ≤ len then unescapeLoop mem len steps fuel last str data else some (str, data)

/-- `unescape_amp`; `fuel` bounds the steps of both loops. -/
def unescapeAmp (fuel : Nat) (string : Str) : Option Str :=
  (unescapeLoop (terminated string) string.length fuel fuel 0 0
    (List.replicate (string.length + 1) none)).bind fun result =>
      (cstr result.2).bind fun text =>
        -- assert(stringBase->len == (int)strlen(stringBase->data))
        if result.1 - 1 = text.length then some text else none

/-! ## What it is for -/

/-- The entities are replaced from left to right; so many characters belong to one already. -/
def unescaped : Nat → Str → Str
  | _, [] => []
  | n + 1, _ :: r => unescaped n r
  | 0, c :: r =>
    if (amp :: ampRest).isPrefixOf (c :: r) then c :: unescaped 4 r else c :: unescaped 0 r

section

variable {c : UInt8} {q r t : Str}

/-- **An entity becomes one character**, and what follows is looked at next. -/
theorem unescaped_entity : unescaped 0 (amp :: (ampRest ++ r)) = amp :: unescaped 0 r := by
  have hstarts : (amp :: ampRest).isPrefixOf (amp :: (ampRest ++ r)) = true := by
    rw [List.isPrefixOf_iff_prefix]
    exact ⟨r, rfl⟩
  rw [unescaped, if_pos hstarts]
  rfl

/-- Another `&` stays. -/
theorem unescaped_bare (h : ampRest.isPrefixOf r = false) :
    unescaped 0 (amp :: r) = amp :: unescaped 0 r := by
  rw [unescaped, if_neg]
  rw [List.isPrefixOf_cons_cons, beq_self_eq_true, Bool.true_and, h]
  exact Bool.false_ne_true

/-- And so does every other character. -/
theorem unescaped_plain (h : amp ∉ q) : unescaped 0 (q ++ t) = q ++ unescaped 0 t := by
  induction q with
  | nil => rfl
  | cons c q ih =>
    rw [List.mem_cons, not_or] at h
    rw [List.cons_append, unescaped, if_neg, ih h.2]
    · rfl
    · rw [List.isPrefixOf_cons_cons, Bool.and_eq_true, beq_iff_eq]
      exact fun hstarts => h.1 hstarts.1

/-- No character comes in that was not there. -/
theorem mem_of_mem_unescaped : ∀ {s : Str} {n : Nat}, c ∈ unescaped n s → c ∈ s := by
  intro s
  induction s with
  | nil =>
    intro n h
    cases n with
    | zero => cases h
    | succ n => cases h
  | cons d s ih =>
    intro n h
    cases n with
    | succ n => exact List.mem_cons_of_mem d (ih h)
    | zero =>
      rw [unescaped] at h
      split at h
      all_goals
        rcases List.mem_cons.mp h with rfl | h
        · exact List.mem_cons_self
        · exact List.mem_cons_of_mem d (ih h)

end

/-! ## The inner loop -/

section

variable {p u v rest : Str} {tail : Memory} {len next k : Int} {fuel : Nat}

theorem charAt_block {i : Int} (hi : i = u.length) :
    charAt (block (u ++ v) tail) i = some (v.headD 0) := by
  have hnat : i.toNat = u.length := by omega
  unfold charAt
  rw [if_pos (by omega), hnat]
  cases v with
  | nil =>
    rw [List.append_nil]
    exact load_end
  | cons c v => exact load_block

/-- The comparisons, none of which goes beyond the NUL. -/
theorem matchFrom_block (hlen : (p.length : Int) < 2 ^ 31) :
    ∀ (cs u v : Str) (k : Int), p = u ++ v → next + k = u.length → (0 : UInt8) ∉ cs →
      matchFrom (block p tail) next k cs = some (cs.isPrefixOf v) := by
  intro cs
  induction cs with
  | nil =>
    intro u v k hp hk hnul
    rw [matchFrom, List.isPrefixOf_nil_left]
  | cons c cs ih =>
    intro u v k hp hk hnul
    rw [List.mem_cons, not_or] at hnul
    have hle : u.length ≤ p.length := by
      rw [hp, List.length_append]
      omega
    have hread : charAt (block p tail) (sumInt next k) = some (v.headD 0) := by
      rw [sumInt_small (by omega) (by omega), hp]
      exact charAt_block hk
    rw [matchFrom, hread, Option.bind_some]
    cases v with
    | nil => exact if_neg hnul.1
    | cons d v =>
      show (if d = c then matchFrom (block p tail) next (k + 1) cs else some false) = _
      rw [List.isPrefixOf_cons_cons]
      by_cases hd : d = c
      · rw [if_pos hd, hd, beq_self_eq_true, Bool.true_and]
        apply ih (u ++ [d]) v
        · rw [hp, List.append_assoc]
          rfl
        · rw [List.length_append, List.length_singleton]
          omega
        · exact hnul.2
      · rw [if_neg hd, beq_false_of_ne (Ne.symm hd), Bool.false_and]

theorem isAmp_block (hlen : (p.length : Int) < 2 ^ 31) (hp : p = u ++ v)
    (hnext : next + 1 = u.length) (hless : next < len) :
    isAmp (block p tail) len next = some (ampRest.isPrefixOf v) := by
  unfold isAmp
  rw [if_pos hless]
  exact matchFrom_block hlen ampRest u v 1 hp hnext (by decide)

/-- `index` finds the next `&`, or returns -1. -/
theorem index_block (hp : p = u ++ rest) (hnul : (0 : UInt8) ∉ p)
    (hlen : len = (p.length + tail.length : Nat)) (hint : len < 2 ^ 31 - 1) :
    (amp ∉ rest ∧ index (block p tail) len u.length amp = some (-1)) ∨
      ∃ q r, rest = q ++ amp :: r ∧ amp ∉ q ∧
        index (block p tail) len u.length amp = some ((u.length + q.length : Nat) : Int) := by
  have hlength : p.length = u.length + rest.length := by rw [hp, List.length_append]
  have hnul' : (0 : UInt8) ∉ rest := by
    intro h
    apply hnul
    rw [hp]
    exact List.mem_append_right _ h
  have hstart : sumInt (u.length : Int) 1 = u.length + 1 := sumInt_small (by omega) (by omega)
  unfold index
  rw [hstart]
  by_cases hend : len < (u.length : Int) + 1
  · have hnil : rest = [] := List.length_eq_zero_iff.mp (by omega)
    left
    rw [hnil, if_pos (Or.inr hend)]
    exact ⟨List.not_mem_nil, rfl⟩
  · rw [if_neg (by omega), Int.toNat_natCast, hp]
    rcases strchr_block (by decide : amp ≠ 0) hnul' u tail with ⟨hnot, hfound⟩ | ⟨q, r, hq, hnot,
      hfound⟩
    · exact Or.inl ⟨hnot, by rw [hfound]; rfl⟩
    · exact Or.inr ⟨q, r, hq, hnot, by rw [hfound]; rfl⟩

/-- **What the inner loop finds**: a `&` with what is to be skipped behind it, and in front of it
    nothing to be replaced; or nothing is left that would be.  In the first case a `&` that begins
    no entity is returned only where it is the first character of all. -/
theorem findAmp_block (hnul : (0 : UInt8) ∉ p) (hlen : len = (p.length + tail.length : Nat))
    (hint : len < 2 ^ 31 - 1) :
    ∀ (fuel : Nat) (u rest : Str) (next : Int), p = u ++ rest → rest.length < fuel →
      next + 1 = u.length →
      (∃ q w r, rest = q ++ amp :: (w ++ r) ∧ w.length ≤ 4 ∧
        unescaped 0 rest = q ++ amp :: unescaped 0 r ∧
        findAmp (block p tail) len fuel next =
          some (((u.length + q.length : Nat) : Int), (w.length : Int))) ∨
      (unescaped 0 rest = rest ∧
        findAmp (block p tail) len fuel next =
          some (-1, if ampRest.isPrefixOf p then 4 else 0)) := by
  intro fuel
  induction fuel with
  | zero =>
    intro u rest next hp hfuel hnext
    exact absurd hfuel (Nat.not_lt_zero _)
  | succ fuel ih =>
    intro u rest next hp hfuel hnext
    have hlength : p.length = u.length + rest.length := by rw [hp, List.length_append]
    have hstart : sumInt next 1 = u.length := by
      rw [sumInt_small (by omega) (by omega)]
      exact hnext
    rw [findAmp, hstart]
    rcases @index_block p u rest tail len hp hnul hlen hint with ⟨hnot, hindex⟩ | ⟨q, r, hq, hnot,
      hindex⟩
    · -- no more: the test is made at the beginning of the string
      have hamp : isAmp (block p tail) len (-1) = some (ampRest.isPrefixOf p) :=
        isAmp_block (by omega) (List.nil_append p).symm rfl (by omega)
      have hplain : unescaped 0 rest = rest := by
        have hall := @unescaped_plain rest [] hnot
        rw [List.append_nil] at hall
        rw [hall]
        exact List.append_nil rest
      refine Or.inr ⟨hplain, ?_⟩
      rw [hindex, Option.bind_some, hamp, Option.bind_some]
      cases ampRest.isPrefixOf p with
      | true => rfl
      | false => rfl
    · have hp' : p = (u ++ (q ++ [amp])) ++ r := by
        rw [hp, hq]
        simp only [List.append_assoc, List.cons_append, List.nil_append]
      have hlengthq : rest.length = q.length + (r.length + 1) := by
        rw [hq, List.length_append, List.length_cons]
      have hplace : ((u.length + q.length : Nat) : Int) + 1 = (u ++ (q ++ [amp])).length := by
        simp only [List.length_append, List.length_cons, List.length_nil]
        omega
      have hamp : isAmp (block p tail) len ((u.length + q.length : Nat) : Int) =
          some (ampRest.isPrefixOf r) := isAmp_block (by omega) hp' hplace (by omega)
      rw [hindex, Option.bind_some, hamp, Option.bind_some, hq, unescaped_plain hnot]
      by_cases hentity : ampRest.isPrefixOf r = true
      · obtain ⟨r', rfl⟩ := List.isPrefixOf_iff_prefix.mp hentity
        refine Or.inl ⟨q, ampRest, r', rfl, Nat.le_refl _, by rw [unescaped_entity], ?_⟩
        rw [if_pos hentity]
        rfl
      · have hbare := unescaped_bare (Bool.eq_false_iff.mpr hentity)
        rw [if_neg hentity, hbare]
        by_cases hfirst : 0 < ((u.length + q.length : Nat) : Int)
        · -- the search goes on behind this one
          rw [if_pos hfirst]
          rcases ih (u ++ (q ++ [amp])) r _ hp' (by omega) hplace with ⟨q', w, r', hr, hw, htext,
            hgo⟩ | ⟨htext, hgo⟩
          · refine Or.inl ⟨q ++ amp :: q', w, r', ?_, hw, ?_, ?_⟩
            · rw [hr, List.append_assoc, List.cons_append]
            · rw [htext, List.append_assoc, List.cons_append]
            · rw [hgo]
              simp only [List.length_append, List.length_cons, List.length_nil]
              congr 3
              omega
          · exact Or.inr ⟨by rw [htext], hgo⟩
        · rw [if_neg hfirst]
          refine Or.inl ⟨q, [], r, rfl, Nat.zero_le _, rfl, rfl⟩

end

/-! ## The outer loop -/

/-- Two additions, neither of which leaves the `int`s. -/
theorem sumInt_twice {x y z : Int} (hfirst : -(2 ^ 31) ≤ x + y ∧ x + y < 2 ^ 31)
    (hsecond : -(2 ^ 31) ≤ x + y + z ∧ x + y + z < 2 ^ 31) :
    sumInt (sumInt x y) z = x + y + z := by
  rw [sumInt_small hfirst.1 hfirst.2, sumInt_small hsecond.1 hsecond.2]

/-- Before a step: `done` has been copied, as `out`, and `rest` has not. -/
structure Copied (p : Str) (tail : Memory) (done rest out : Str) (str : Nat) (data : Memory) :
    Prop where
  split : p = done ++ rest
  str : str = out.length
  short : out.length ≤ done.length
  size : data.length = p.length + tail.length + 1
  cells : ∃ junk, data = out.map some ++ junk
  text : unescaped 0 p = out ++ unescaped 0 rest

section

variable {p done rest out part q w r : Str} {tail data : Memory} {len : Int}
  {str n steps fuel : Nat}

/-- There is room for what is copied: the part it comes from is no shorter. -/
theorem Copied.room (h : Copied p tail done rest out str data) :
    ∃ junk, data = out.map some ++ junk ∧ rest.length + tail.length + 1 ≤ junk.length := by
  obtain ⟨junk, hjunk⟩ := h.cells
  refine ⟨junk, hjunk, ?_⟩
  have hsize := h.size
  have hshort := h.short
  rw [hjunk, List.length_append, List.length_map, h.split, List.length_append] at hsize
  omega

/-- A part up to a `&` is copied. -/
theorem Copied.copies_part (h : Copied p tail done rest out str data) (hnul : (0 : UInt8) ∉ p)
    (hrest : rest = part ++ r) :
    ∃ junk, copyPart (block p tail) data str done.length part.length =
        some ((out ++ part).map some ++ junk) ∧
      ((out ++ part).map some ++ junk).length = p.length + tail.length + 1 := by
  obtain ⟨junk, hjunk, hroom⟩ := h.room
  have hp : p = done ++ (part ++ r) := by rw [h.split, hrest]
  have hnul' : (0 : UInt8) ∉ part := by
    intro hmem
    apply hnul
    rw [hp]
    exact List.mem_append_right _ (List.mem_append_left _ hmem)
  have hbytes : strncpyBytes part.length ((block p tail).drop done.length) = some part := by
    rw [hp]
    exact strncpyBytes_part hnul'
  rw [hrest, List.length_append] at hroom
  refine ⟨junk.drop part.length, ?_, ?_⟩
  · unfold UnescapeAmp.copyPart
    rw [if_neg (by omega), Int.toNat_natCast, Int.toNat_natCast, hjunk]
    exact strncpy_at h.str hbytes (by omega)
  · have hsize := h.size
    rw [hjunk] at hsize
    simp only [List.length_append, List.length_map, List.length_drop] at hsize ⊢
    omega

/-- **A step that finds something**: the text up to the `&` is copied, and what belongs to it is
    skipped. -/
theorem Copied.step (h : Copied p tail done rest out str data) (hnul : (0 : UInt8) ∉ p)
    (hlen : len = (p.length + tail.length : Nat)) (hint : len < 2 ^ 31 - 1)
    (hrest : rest = q ++ amp :: (w ++ r)) (htext : unescaped 0 rest = q ++ amp :: unescaped 0 r)
    (hfound : findAmp (block p tail) len steps ((done.length : Int) - 1) =
      some (((done.length + q.length : Nat) : Int), (w.length : Int))) :
    ∃ data', unescapeLoop (block p tail) len steps (fuel + 1) done.length str data =
        unescapeLoop (block p tail) len steps fuel (done ++ (q ++ amp :: w)).length
          (str + (q.length + 1)) data' ∧
      Copied p tail (done ++ (q ++ amp :: w)) r (out ++ (q ++ [amp])) (str + (q.length + 1))
        data' := by
  have hpart : rest = (q ++ [amp]) ++ (w ++ r) := by
    rw [hrest, List.append_cons q amp (w ++ r)]
  have hlength : p.length = done.length + (q.length + 1 + (w.length + r.length)) := by
    rw [h.split, hpart]
    simp only [List.length_append, List.length_cons, List.length_nil]
  obtain ⟨junk, hcopy, hsize⟩ := h.copies_part hnul hpart
  have hpartLength : (((q ++ [amp]).length : Nat) : Int) = q.length + 1 := by
    rw [List.length_append, List.length_singleton]
    omega
  rw [hpartLength] at hcopy
  have hlast : sumInt (done.length : Int) (-1) = (done.length : Int) - 1 :=
    sumInt_small (by omega) (by omega)
  have hcount : sumInt (sumInt ((done.length + q.length : Nat) : Int) (-(done.length : Int))) 1 =
      (q.length : Int) + 1 := by
    rw [sumInt_twice (by omega) (by omega)]
    omega
  have hnext : sumInt (sumInt ((done.length + q.length : Nat) : Int) (w.length : Int)) 1 =
      ((done ++ (q ++ amp :: w)).length : Nat) := by
    rw [sumInt_twice (by omega) (by omega)]
    simp only [List.length_append, List.length_cons]
    omega
  have hnat : ((q.length : Int) + 1).toNat = q.length + 1 := by omega
  refine ⟨_, ?_, ?_, ?_, ?_, hsize, ⟨_, rfl⟩, ?_⟩
  · rw [unescapeLoop, hlast, hfound, Option.bind_some]
    simp only
    rw [if_neg (by omega), hcount, hcopy, Option.bind_some, hnext, if_pos, hnat]
    simp only [List.length_append, List.length_cons]
    omega
  · rw [h.split, hrest]
    simp only [List.append_assoc, List.cons_append]
  · rw [h.str]
    simp only [List.length_append, List.length_cons, List.length_nil]
  · have hshort := h.short
    simp only [List.length_append, List.length_cons, List.length_nil]
    omega
  · rw [h.text, htext]
    simp only [List.append_assoc, List.cons_append, List.nil_append]

/-- The rest is copied with its NUL. -/
theorem Copied.copies_rest (h : Copied p tail done rest out str data) (hnul : (0 : UInt8) ∉ p) :
    ∃ junk, copyPart (block p tail) data str done.length (rest.length + tail.length + 1 : Nat) =
      some ((out ++ rest).map some ++ some 0 :: junk) := by
  obtain ⟨junk, hjunk, hroom⟩ := h.room
  have hnul' : (0 : UInt8) ∉ rest := by
    intro hmem
    apply hnul
    rw [h.split]
    exact List.mem_append_right _ hmem
  have hbytes : strncpyBytes (rest.length + (tail.length + 1)) ((block p tail).drop done.length) =
      some (rest ++ List.replicate (tail.length + 1) 0) := by
    rw [h.split]
    exact strncpyBytes_rest hnul' _
  refine ⟨(List.replicate tail.length 0).map some ++ junk.drop (rest.length + (tail.length + 1)), ?_⟩
  unfold UnescapeAmp.copyPart
  rw [if_neg (by omega), Int.toNat_natCast, Int.toNat_natCast, hjunk, Nat.add_assoc]
  rw [strncpy_at h.str hbytes (by omega)]
  simp only [List.replicate_succ, List.map_append, List.map_cons, List.append_assoc,
    List.cons_append]

/-- Where `last` has wrapped around, the next copy would begin before the block. -/
theorem unescapeLoop_wrapped {last : Int} (hlen : len = (p.length + tail.length : Nat))
    (hint : len < 2 ^ 31 - 1)
    (hstarts : ampRest.isPrefixOf p = true) (hlow : -(2 ^ 31) ≤ last) (hnegative : last < 0) :
    unescapeLoop (block p tail) len steps fuel last str data = none := by
  cases fuel with
  | zero => rfl
  | succ fuel =>
    have hback : sumInt (sumInt last (-1)) 1 < 0 := by
      by_cases hfirst : last = -(2 ^ 31)
      · rw [hfirst]
        decide +kernel
      · rw [sumInt_twice (by omega) (by omega)]
        omega
    have hamp : isAmp (block p tail) len (-1) = some true := by
      rw [← hstarts]
      exact isAmp_block (by omega) (List.nil_append p).symm rfl (by omega)
    rw [unescapeLoop]
    cases steps with
    | zero => rfl
    | succ steps =>
      have hindex : index (block p tail) len (sumInt (sumInt last (-1)) 1) amp = some (-1) :=
        if_pos (Or.inl hback)
      have hfound : findAmp (block p tail) len (steps + 1) (sumInt last (-1)) = some (-1, 4) := by
        rw [findAmp, hindex, Option.bind_some, hamp]
        rfl
      rw [hfound, Option.bind_some]
      simp only
      rw [UnescapeAmp.copyPart, if_pos (Or.inl hnegative)]
      rfl

/-- The string begins with `amp;`, and the `last` of the last step is no `int`. -/
def Wraps (p : Str) (len : Int) : Prop := ampRest.isPrefixOf p = true ∧ 2 ^ 31 ≤ len + 5

/-- **The last step**: nothing is left to be replaced. -/
theorem Copied.last (h : Copied p tail done rest out str data) (hnul : (0 : UInt8) ∉ p)
    (hlen : len = (p.length + tail.length : Nat)) (hint : len < 2 ^ 31 - 1)
    (htext : unescaped 0 rest = rest)
    (hfound : findAmp (block p tail) len steps ((done.length : Int) - 1) =
      some (-1, if ampRest.isPrefixOf p then 4 else 0)) :
    (Wraps p len → unescapeLoop (block p tail) len steps (fuel + 1) done.length str data = none) ∧
    (¬ Wraps p len → ∃ junk, unescapeLoop (block p tail) len steps (fuel + 1) done.length str data =
      some ((unescaped 0 p).length + tail.length + 1,
        (unescaped 0 p).map some ++ some 0 :: junk)) := by
  have hlength : p.length = done.length + rest.length := by rw [h.split, List.length_append]
  obtain ⟨junk, hcopy⟩ := h.copies_rest hnul
  have hlast : sumInt (done.length : Int) (-1) = (done.length : Int) - 1 :=
    sumInt_small (by omega) (by omega)
  have hcount : sumInt (sumInt len (-(done.length : Int))) 1 =
      (rest.length + tail.length + 1 : Nat) := by
    rw [sumInt_twice (by omega) (by omega)]
    omega
  have hwritten : out ++ rest = unescaped 0 p := by rw [h.text, htext]
  have hstr : str + (rest.length + tail.length + 1) =
      (unescaped 0 p).length + tail.length + 1 := by
    rw [← hwritten, List.length_append, h.str]
    omega
  rw [unescapeLoop, hlast, hfound, Option.bind_some]
  simp only
  rw [if_pos (by omega : (-1 : Int) < 0), hcount, hcopy, Option.bind_some, Int.toNat_natCast, hstr,
    hwritten]
  constructor
  · rintro ⟨hstarts, hlarge⟩
    rw [if_pos hstarts]
    have hnegative : -(2 ^ 31) ≤ sumInt (sumInt len 4) 1 ∧ sumInt (sumInt len 4) 1 < 0 := by
      by_cases hfour : len + 4 < 2 ^ 31
      · rw [@sumInt_small len 4 (by omega) hfour, sumInt_large (by omega) (by omega)]
        omega
      · rw [@sumInt_large len 4 (by omega) (by omega), sumInt_small (by omega) (by omega)]
        omega
    rw [if_pos (by omega)]
    exact unescapeLoop_wrapped hlen hint hstarts hnegative.1 hnegative.2
  · intro hwraps
    have hbehind : ¬ sumInt (sumInt len (if ampRest.isPrefixOf p then 4 else 0)) 1 ≤ len := by
      by_cases hstarts : ampRest.isPrefixOf p = true
      · have hsmall : len + 5 < 2 ^ 31 := by
          by_contra hlarge
          exact hwraps ⟨hstarts, by omega⟩
        rw [if_pos hstarts, sumInt_twice (by omega) (by omega)]
        omega
      · rw [if_neg hstarts, sumInt_twice (by omega) (by omega)]
        omega
    rw [if_neg hbehind]
    exact ⟨junk, rfl⟩

/-- **The loop ends**, after no more steps than there are characters. -/
theorem Copied.loop (hnul : (0 : UInt8) ∉ p) (hlen : len = (p.length + tail.length : Nat))
    (hint : len < 2 ^ 31 - 1) (hsteps : p.length < steps) :
    ∀ (fuel : Nat) {done rest out : Str} {str : Nat} {data : Memory},
      Copied p tail done rest out str data → rest.length < fuel →
      (Wraps p len → unescapeLoop (block p tail) len steps fuel done.length str data = none) ∧
      (¬ Wraps p len → ∃ junk, unescapeLoop (block p tail) len steps fuel done.length str data =
        some ((unescaped 0 p).length + tail.length + 1,
          (unescaped 0 p).map some ++ some 0 :: junk)) := by
  intro fuel
  induction fuel with
  | zero =>
    intro done rest out str data h hfuel
    exact absurd hfuel (Nat.not_lt_zero _)
  | succ fuel ih =>
    intro done rest out str data h hfuel
    have hlength : p.length = done.length + rest.length := by rw [h.split, List.length_append]
    have hsearch := findAmp_block hnul hlen hint steps done rest ((done.length : Int) - 1) h.split
      (by omega) (by omega)
    rcases hsearch with ⟨q, w, r, hrest, hw, htext, hfound⟩ | ⟨htext, hfound⟩
    · obtain ⟨data', hstep, hcopied⟩ := @Copied.step p done rest out q w r tail data len str steps
        fuel h hnul hlen hint hrest htext hfound
      have hless := congrArg List.length hrest
      rw [List.length_append, List.length_cons, List.length_append] at hless
      rw [hstep]
      exact ih hcopied (by omega)
    · exact h.last hnul hlen hint htext hfound

/-! ## The function -/

/-- **What `unescape_amp` returns** for a string that is `p` up to its first NUL: nothing, if there
    is more behind it, because the assertion fails. -/
theorem unescapeAmp_block {s : Str} (hs : terminated s = block p tail)
    (hlength : s.length = p.length + tail.length) (hnul : (0 : UInt8) ∉ p)
    (hint : (s.length : Int) < 2 ^ 31 - 1) (hfuel : s.length < fuel) :
    (Wraps p s.length ∨ tail ≠ [] → unescapeAmp fuel s = none) ∧
      (¬ Wraps p s.length → tail = [] → unescapeAmp fuel s = some (unescaped 0 p)) := by
  have hlen : (s.length : Int) = (p.length + tail.length : Nat) := by rw [hlength]
  have hstart : Copied p tail [] p [] 0 (List.replicate (s.length + 1) none) := by
    refine ⟨rfl, rfl, Nat.le_refl _, ?_, ⟨_, rfl⟩, rfl⟩
    rw [List.length_replicate, hlength]
  obtain ⟨hwraps, hends⟩ := Copied.loop hnul hlen hint (by omega : p.length < fuel) fuel hstart
    (by omega)
  have hnul' : (0 : UInt8) ∉ unescaped 0 p := fun h => hnul (mem_of_mem_unescaped h)
  unfold unescapeAmp
  rw [hs]
  constructor
  · intro hbad
    by_cases hw : Wraps p s.length
    · rw [show unescapeLoop (block p tail) s.length fuel fuel 0 0 _ = none from hwraps hw]
      rfl
    · obtain ⟨junk, hloop⟩ := hends hw
      have htail : tail ≠ [] := hbad.resolve_left hw
      have hpos := List.length_pos_iff.mpr htail
      rw [show unescapeLoop (block p tail) s.length fuel fuel 0 0 _ = _ from hloop,
        Option.bind_some, cstr_at hnul', Option.bind_some, if_neg]
      simp only
      omega
  · intro hw htail
    obtain ⟨junk, hloop⟩ := hends hw
    rw [show unescapeLoop (block p tail) s.length fuel fuel 0 0 _ = _ from hloop, Option.bind_some,
      cstr_at hnul', Option.bind_some, if_pos]
    rw [htail]
    rfl

end

end MediaTomb.UnescapeAmp
