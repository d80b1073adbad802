/-
  Strings in memory that end at a NUL, and the functions of C that work on them.

  A `Memory` is a block of bytes, of which some may never have been written.  Each function reads
  byte after byte and stops where C says that it stops.  A byte that is outside the block, or has
  not been written, cannot be read: then there is no result.  So a result says besides that nothing
  beyond was touched.

    * `strchr`   stops at the byte, or at the NUL; the NUL itself can be looked for;
    * `strncpy`  writes `n` bytes in all: it pads with NULs behind the end of the source;
    * `cstr`     is the text in front of the first NUL.
-/
import Mathlib

namespace MediaTomb.Lib.CString

/-- A block of bytes; `none` was never written. -/
abbrev Memory := List (Option UInt8)

/-- `mem[i]` -/
def load (mem : Memory) (i : Nat) : Option UInt8 := mem[i]?.join

/-- `mem[i] = c` -/
def store (mem : Memory) (i : Nat) (c : UInt8) : Option Memory :=
  if i < mem.length then some (mem.set i (some c)) else none

/-- How far the byte is; `some none` is the NULL that `strchr` returns. -/
def strchrFrom (ch : UInt8) : Memory → Option (Option Nat)
  | [] => none
  | none :: _ => none
  | some c :: rest =>
    if c = ch then some (some 0)
    else if c = 0 then some none
    else (strchrFrom ch rest).map (Option.map (· + 1))

/-- `strchr(mem + pos, ch)`, as an index into the block. -/
def strchr (mem : Memory) (pos : Nat) (ch : UInt8) : Option (Option Nat) :=
  (strchrFrom ch (mem.drop pos)).map (Option.map (pos + ·))

/-- The bytes that `strncpy` writes. -/
def strncpyBytes : Nat → Memory → Option (List UInt8)
  | 0, _ => some []
  | _ + 1, [] => none
  | _ + 1, none :: _ => none
  | n + 1, some c :: rest =>
    if c = 0 then some (List.replicate (n + 1) 0) else (strncpyBytes n rest).map (c :: ·)

/-- `strncpy(dst + pos, src + start, n)` -/
def strncpy (dst : Memory) (pos : Nat) (src : Memory) (start n : Nat) : Option Memory :=
  (strncpyBytes n (src.drop start)).bind fun bytes =>
    if pos + n ≤ dst.length then some (dst.take pos ++ (bytes.map some ++ dst.drop (pos + n)))
    else none

/-- The text in front of the NUL. -/
def cstr : Memory → Option (List UInt8)
  | [] => none
  | none :: _ => none
  | some c :: rest => if c = 0 then some [] else (cstr rest).map (c :: ·)

/-- The memory of a string: its bytes, and a NUL. -/
def terminated (s : List UInt8) : Memory := s.map some ++ [some 0]

/-- The bytes are written from `pos` on. -/
def write (dst : Memory) (pos : Nat) (bytes : List UInt8) : Option Memory :=
  if pos + bytes.length ≤ dst.length then
    some (dst.take pos ++ (bytes.map some ++ dst.drop (pos + bytes.length)))
  else none

/-- `strcpy(dst + pos, src + start)` -/
def strcpy (dst : Memory) (pos : Nat) (src : Memory) (start : Nat) : Option Memory :=
  (cstr (src.drop start)).bind fun text => write dst pos (text ++ [0])

/-- `memcpy` of `n` bytes from `mem + pos`, which all have to be written. -/
def bytesAt (mem : Memory) (pos n : Nat) : Option (List UInt8) :=
  if pos + n ≤ mem.length then ((mem.drop pos).take n).mapM id else none

/-- `realloc`, to a block that is not smaller. -/
def realloc (mem : Memory) (size : Nat) : Memory :=
  mem ++ List.replicate (size - mem.length) none

section

variable {p q out bytes : List UInt8} {rest junk : Memory} {c ch : UInt8} {i n : Nat}

/-! ## Cells -/

theorem load_at (hi : i = p.length) : load (p.map some ++ some c :: rest) i = some c := by
  unfold load
  have hlength : (p.map some).length = p.length := List.length_map _
  rw [hi, ← hlength, List.getElem?_append_right (Nat.le_refl _), Nat.sub_self]
  rfl

theorem store_at {cell : Option UInt8} (hi : i = out.length) :
    store (out.map some ++ cell :: junk) i c = some ((out ++ [c]).map some ++ junk) := by
  unfold store
  have hlength : (out.map some).length = out.length := List.length_map _
  rw [if_pos (by rw [List.length_append, List.length_cons]; omega), hi, ← hlength,
    List.set_append_right _ _ (Nat.le_refl _), Nat.sub_self, List.set_cons_zero, List.map_append]
  exact congrArg some (List.append_assoc _ [some c] junk).symm

/-! ## `strchr` -/

theorem strchrFrom_found (hch : ch ∉ q) (hnul : (0 : UInt8) ∉ q) :
    strchrFrom ch (q.map some ++ some ch :: rest) = some (some q.length) := by
  induction q with
  | nil => exact if_pos rfl
  | cons c q ih =>
    rw [List.mem_cons, not_or] at hch hnul
    rw [List.map_cons, List.cons_append, strchrFrom, if_neg (Ne.symm hch.1), if_neg (Ne.symm hnul.1),
      ih hch.2 hnul.2]
    rfl

theorem strchrFrom_missing (hne : ch ≠ 0) (hch : ch ∉ q) (hnul : (0 : UInt8) ∉ q) :
    strchrFrom ch (q.map some ++ some 0 :: rest) = some none := by
  induction q with
  | nil =>
    rw [List.map_nil, List.nil_append, strchrFrom, if_neg (Ne.symm hne), if_pos rfl]
  | cons c q ih =>
    rw [List.mem_cons, not_or] at hch hnul
    rw [List.map_cons, List.cons_append, strchrFrom, if_neg (Ne.symm hch.1), if_neg (Ne.symm hnul.1),
      ih hch.2 hnul.2]
    rfl

theorem strchr_found (hi : i = p.length) (hch : ch ∉ q) (hnul : (0 : UInt8) ∉ q) :
    strchr (p.map some ++ (q.map some ++ some ch :: rest)) i ch = some (some (i + q.length)) := by
  have hlength : i = (p.map some).length := by rw [List.length_map, hi]
  unfold strchr
  rw [hlength, List.drop_left, strchrFrom_found hch hnul]
  rfl

theorem strchr_missing (hi : i = p.length) (hne : ch ≠ 0) (hch : ch ∉ q) (hnul : (0 : UInt8) ∉ q) :
    strchr (p.map some ++ (q.map some ++ some 0 :: rest)) i ch = some none := by
  have hlength : i = (p.map some).length := by rw [List.length_map, hi]
  unfold strchr
  rw [hlength, List.drop_left, strchrFrom_missing hne hch hnul]
  rfl

/-- The NUL is always found, if anything is. -/
theorem strchr_nul (mem : Memory) (pos : Nat) : strchr mem pos 0 ≠ some none := by
  have hfrom : ∀ rest : Memory, strchrFrom 0 rest ≠ some none := by
    intro rest
    induction rest with
    | nil => exact Option.some_ne_none none |>.symm
    | cons cell rest ih =>
      cases cell with
      | none => exact Option.some_ne_none none |>.symm
      | some c =>
        rw [strchrFrom]
        by_cases hc : c = 0
        · rw [if_pos hc]
          intro h
          cases h
        · rw [if_neg hc, if_neg hc]
          intro h
          obtain ⟨found, hfound, hsucc⟩ := Option.map_eq_some_iff.mp h
          rw [Option.map_eq_none_iff] at hsucc
          rw [hsucc] at hfound
          exact ih hfound
  intro h
  obtain ⟨found, hfound, hadd⟩ := Option.map_eq_some_iff.mp h
  rw [Option.map_eq_none_iff] at hadd
  rw [hadd] at hfound
  exact hfrom _ hfound

/-! ## `strncpy` -/

theorem length_strncpyBytes : ∀ {n : Nat} {mem : Memory} {bytes : List UInt8},
    strncpyBytes n mem = some bytes → bytes.length = n := by
  intro n
  induction n with
  | zero =>
    intro mem bytes h
    cases h
    rfl
  | succ n ih =>
    intro mem bytes h
    cases mem with
    | nil => cases h
    | cons cell rest =>
      cases cell with
      | none => cases h
      | some c =>
        rw [strncpyBytes] at h
        split at h
        · cases h
          exact List.length_replicate
        · obtain ⟨tail, htail, rfl⟩ := Option.map_eq_some_iff.mp h
          rw [List.length_cons, ih htail]

theorem strncpyBytes_exact (hnul : (0 : UInt8) ∉ q) :
    strncpyBytes q.length (q.map some ++ rest) = some q := by
  induction q with
  | nil => rfl
  | cons c q ih =>
    rw [List.mem_cons, not_or] at hnul
    rw [List.length_cons, List.map_cons, List.cons_append, strncpyBytes, if_neg (Ne.symm hnul.1),
      ih hnul.2]
    rfl

/-- Behind the end of the source there are NULs. -/
theorem strncpyBytes_padded (hnul : (0 : UInt8) ∉ q) :
    strncpyBytes (q.length + n) (q.map some ++ some 0 :: rest) =
      some (q ++ List.replicate n 0) := by
  induction q with
  | nil =>
    rw [List.length_nil, Nat.zero_add, List.map_nil, List.nil_append, List.nil_append]
    cases n with
    | zero => rfl
    | succ n => exact if_pos rfl
  | cons c q ih =>
    rw [List.mem_cons, not_or] at hnul
    rw [List.length_cons, Nat.succ_add, List.map_cons, List.cons_append, strncpyBytes,
      if_neg (Ne.symm hnul.1), ih hnul.2]
    rfl

/-- What has been written so far is followed by the bytes that are copied. -/
theorem strncpy_at {start : Nat} {src : Memory} (hi : i = out.length)
    (hbytes : strncpyBytes n (src.drop start) = some bytes) (hroom : n ≤ junk.length) :
    strncpy (out.map some ++ junk) i src start n =
      some ((out ++ bytes).map some ++ junk.drop n) := by
  have hlength : (out.map some).length = out.length := List.length_map _
  unfold strncpy
  rw [hbytes, Option.bind_some, if_pos (by rw [List.length_append]; omega), hi, ← hlength,
    List.take_left, List.drop_length_add_append, List.map_append, List.append_assoc]

/-! ## Writing and reading pieces -/

theorem write_at (hi : i = out.length) (hroom : bytes.length ≤ junk.length) :
    write (out.map some ++ junk) i bytes =
      some ((out ++ bytes).map some ++ junk.drop bytes.length) := by
  have hlength : (out.map some).length = out.length := List.length_map _
  unfold write
  rw [if_pos (by rw [List.length_append]; omega), hi, ← hlength, List.take_left,
    List.drop_length_add_append, List.map_append, List.append_assoc]

theorem mapM_some : (q.map some).mapM id = some q := by
  induction q with
  | nil => rfl
  | cons c q ih =>
    rw [List.map_cons, List.mapM_cons, ih]
    rfl

theorem bytesAt_at (hi : i = p.length) (hn : n = q.length) :
    bytesAt (p.map some ++ (q.map some ++ rest)) i n = some q := by
  have hlength : i = (p.map some).length := by rw [List.length_map, hi]
  have hlength' : n = (q.map some).length := by rw [List.length_map, hn]
  unfold bytesAt
  rw [if_pos (by rw [List.length_append, List.length_append]; omega), hlength, List.drop_left,
    hlength', List.take_left, mapM_some]

/-! ## The text -/

theorem cstr_at (hnul : (0 : UInt8) ∉ q) : cstr (q.map some ++ some 0 :: rest) = some q := by
  induction q with
  | nil => exact if_pos rfl
  | cons c q ih =>
    rw [List.mem_cons, not_or] at hnul
    rw [List.map_cons, List.cons_append, cstr, if_neg (Ne.symm hnul.1), ih hnul.2]
    rfl

end

/-! ## A text and its NUL -/

/-- The memory of a string; `p` is what stands before its first NUL. -/
def block (p : List UInt8) (tail : Memory) : Memory := p.map some ++ some 0 :: tail

section

variable {ch c : UInt8} {p u v q s t : List UInt8} {tail : Memory}

theorem block_append : block (u ++ v) tail = u.map some ++ block v tail := by
  unfold block
  rw [List.map_append, List.append_assoc]

theorem drop_block : (block (u ++ v) tail).drop u.length = block v tail := by
  have hlength : u.length = (u.map some).length := (List.length_map _).symm
  rw [block_append, hlength, List.drop_left]

theorem load_block : load (block (u ++ c :: v) tail) u.length = some c := by
  rw [block_append]
  exact load_at rfl

theorem load_end : load (block u tail) u.length = some 0 := load_at rfl

/-- `strchr` stops at the next one, or at the end. -/
theorem strchr_block (hch : ch ≠ 0) (hnul : (0 : UInt8) ∉ q) (u : List UInt8) (tail : Memory) :
    (ch ∉ q ∧ strchr (block (u ++ q) tail) u.length ch = some none) ∨
      ∃ q₁ q₂, q = q₁ ++ ch :: q₂ ∧ ch ∉ q₁ ∧
        strchr (block (u ++ q) tail) u.length ch = some (some (u.length + q₁.length)) := by
  by_cases hmem : ch ∈ q
  · obtain ⟨q₁, q₂, rfl, hnot⟩ := List.eq_append_cons_of_mem hmem
    refine Or.inr ⟨q₁, q₂, rfl, hnot, ?_⟩
    have hmoved : block (u ++ (q₁ ++ ch :: q₂)) tail =
        u.map some ++ (q₁.map some ++ some ch :: block q₂ tail) := by
      rw [block_append, block_append]
      rfl
    rw [hmoved]
    exact strchr_found rfl hnot fun h => hnul (List.mem_append_left _ h)
  · refine Or.inl ⟨hmem, ?_⟩
    rw [block_append]
    exact strchr_missing rfl hch hmem hnul

/-- A part of the text is copied as it is. -/
theorem strncpyBytes_part (hnul : (0 : UInt8) ∉ q) :
    strncpyBytes q.length ((block (u ++ (q ++ v)) tail).drop u.length) = some q := by
  rw [drop_block, block_append]
  exact strncpyBytes_exact hnul

/-- The rest of the text is followed by NULs. -/
theorem strncpyBytes_rest (hnul : (0 : UInt8) ∉ q) (n : Nat) :
    strncpyBytes (q.length + n) ((block (u ++ q) tail).drop u.length) =
      some (q ++ List.replicate n 0) := by
  rw [drop_block]
  exact strncpyBytes_padded hnul

theorem terminated_block : terminated s = block s [] := rfl

/-- The text is what stands in front of the first NUL. -/
theorem cstr_block (s : List UInt8) (tail : Memory) :
    cstr (block s tail) = some (s.takeWhile (· ≠ 0)) := by
  induction s with
  | nil => exact if_pos rfl
  | cons c s ih =>
    show cstr (some c :: block s tail) = _
    rw [cstr]
    by_cases hc : c = 0
    · rw [if_pos hc, List.takeWhile_cons_of_neg (by simpa using hc)]
    · rw [if_neg hc, ih, List.takeWhile_cons_of_pos (by simpa using hc)]
      rfl

theorem takeWhile_noNul (hnul : (0 : UInt8) ∉ q) : q.takeWhile (· ≠ 0) = q := by
  refine List.takeWhile_eq_self_iff.mpr fun c hc => ?_
  have hne : c ≠ 0 := fun heq => hnul (heq ▸ hc)
  simpa using hne

/-- A string is copied with its NUL. -/
theorem strcpy_block (hnul : (0 : UInt8) ∉ q) (hroom : q.length < (some 0 :: tail).length)
    (u : List UInt8) (more : Memory) :
    strcpy (block p tail) p.length (block (u ++ q) more) u.length =
      some (block (p ++ q) (tail.drop q.length)) := by
  unfold strcpy
  have hwrite : write (p.map some ++ some 0 :: tail) p.length (q ++ [0]) = _ :=
    write_at rfl (by rw [List.length_append]; exact hroom)
  rw [drop_block, cstr_block, takeWhile_noNul hnul, Option.bind_some]
  unfold block
  rw [hwrite]
  simp only [List.length_append, List.length_singleton, List.drop_succ_cons, List.map_append,
    List.map_cons, List.map_nil, List.append_assoc, List.singleton_append]

theorem terminated_cut : terminated (p ++ 0 :: t) = block p (terminated t) := by
  unfold terminated block
  rw [List.map_append, List.map_cons, List.append_assoc]
  rfl

end

end MediaTomb.Lib.CString
