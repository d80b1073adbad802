/-
  `String::reduce` with its three pointers (`zmm/strings.cc`).

    * DATA     the string in its memory, and a result buffer of the same size.  `pos` is the
               character that was found, `pos3` where the part begins that is not copied yet, and
               `pos2` where it will go.
    * PROGRAM  the loop leaves single characters alone; only when it meets a run does it copy, up to
               the first character of the run, and goes on behind it.
    * RESULT   every run shrinks to one character, and nothing else happens (`string_reduce_iff`).
               The functions of C know the end of a string by its NUL: a string must not contain one,
               and none can be looked for.
-/
import MediaTomb.Storage.PathComponents
import MediaTomb.Lib.CString

namespace MediaTomb.StringReduce

open Lib.CString

/-! ## The program -/

/-- `while (*pos == ch) pos++`: how many steps. -/
def skipRun (ch : UInt8) : Memory → Option Nat
  | [] => none
  | none :: _ => none
  | some c :: rest => if c = ch then (skipRun ch rest).map (· + 1) else some 0

/-- What is before the run, and one character of it; the result is the new `pos2`. -/
def copyRun (mem : Memory) (ch : UInt8) (pos pos2 pos3 : Nat) (res : Memory) :
    Option (Nat × Memory) :=
  if pos - pos3 = 0 then (store res pos2 ch).map fun res => (pos2 + 1, res)
  else
    (Lib.CString.strncpy res pos2 mem pos3 (pos - pos3 + 1)).map fun res =>
      (pos2 + (pos - pos3 + 1), res)

/-- The loop, at a `pos` that was found; what comes out is `pos2`, `pos3` and the buffer. -/
def reduceLoop (mem : Memory) (ch : UInt8) :
    Nat → Nat → Nat → Nat → Memory → Option (Nat × Nat × Memory)
  | 0, _, _, _, _ => none
  | fuel + 1, pos, pos2, pos3, res => do
    let next ← load mem (pos + 1)
    if next = ch then
      let (pos2, res) ← copyRun mem ch pos pos2 pos3 res
      let skipped ← skipRun ch (mem.drop pos)
      let c ← load mem (pos + skipped)
      if c = 0 then (store res pos2 0).map fun res => (pos2, pos + skipped, res)
      else
        match ← strchr mem (pos + skipped) ch with
        | none => some (pos2, pos + skipped, res)
        | some found => reduceLoop mem ch fuel found pos2 (pos + skipped) res
    else if next = 0 then some (pos2, pos3, res)
    else
      match ← strchr mem (pos + 1) ch with
      | none => some (pos2, pos3, res)
      | some found => reduceLoop mem ch fuel found pos2 pos3 res

/-- `if (n) strncpy(pos2, pos3, n)` -/
def copyRest (mem : Memory) (pos2 pos3 n : Nat) (res : Memory) : Option Memory :=
  if n ≠ 0 then Lib.CString.strncpy res pos2 mem pos3 n else some res

/-- What is left is copied, and the length taken anew. -/
def finish (mem : Memory) (len pos2 pos3 : Nat) (res : Memory) : Option Str :=
  if len < pos3 then none -- a negative difference, and a huge count
  else do
    let res ← copyRest mem pos2 pos3 (len - pos3) res
    let res ← store res (pos2 + (len - pos3)) 0
    cstr res

/-- `String::reduce`; `fuel` bounds the steps of the loop. -/
def reduce (fuel : Nat) (s : Str) (ch : UInt8) : Option Str := do
  match ← strchr (terminated s) 0 ch with
  | none => some s
  | some pos =>
    let (pos2, pos3, res) ←
      reduceLoop (terminated s) ch fuel pos 0 0 (List.replicate (s.length + 1) none)
    finish (terminated s) s.length pos2 pos3 res

/-! ## What it is for -/

/-- Each run becomes one character, and each other character stays. -/
inductive Reduced (ch : UInt8) : Str → Str → Prop where
  | nil : Reduced ch [] []
  | run (n : Nat) {s t : Str} (hend : s.head? ≠ some ch) (hrest : Reduced ch s t) :
      Reduced ch (List.replicate (n + 1) ch ++ s) (ch :: t)
  | other {c : UInt8} {s t : Str} (hc : c ≠ ch) (hrest : Reduced ch s t) :
      Reduced ch (c :: s) (c :: t)

section

variable {ch c : UInt8} {s t b r : Str}

theorem reduce_cons (h : ¬ (c = ch ∧ s.head? = some ch)) :
    MediaTomb.reduce ch (c :: s) = c :: MediaTomb.reduce ch s := by
  cases s with
  | nil => rfl
  | cons d s =>
    rw [MediaTomb.reduce, if_neg]
    rw [Bool.and_eq_true, beq_iff_eq, beq_iff_eq]
    rintro ⟨hc, hd⟩
    exact h ⟨hc, congrArg some hd⟩

theorem reduce_run (n : Nat) (hend : s.head? ≠ some ch) :
    MediaTomb.reduce ch (List.replicate (n + 1) ch ++ s) = ch :: MediaTomb.reduce ch s := by
  induction n with
  | zero => exact reduce_cons fun h => hend h.2
  | succ n ih =>
    rw [← ih, List.replicate_succ, List.replicate_succ, List.cons_append, List.cons_append,
      MediaTomb.reduce, if_pos (by rw [beq_self_eq_true]; rfl)]

/-- The characters at the front that are the one looked for. -/
theorem exists_run (ch : UInt8) (s : Str) :
    ∃ n r, s = List.replicate n ch ++ r ∧ r.head? ≠ some ch := by
  induction s with
  | nil => exact ⟨0, [], rfl, Option.some_ne_none ch |>.symm⟩
  | cons c s ih =>
    by_cases hc : c = ch
    · obtain ⟨n, r, hs, hend⟩ := ih
      refine ⟨n + 1, r, ?_, hend⟩
      rw [hs, hc]
      rfl
    · exact ⟨0, c :: s, rfl, fun h => hc (Option.some.inj h)⟩

theorem reduced_reduce (ch : UInt8) (s : Str) : Reduced ch s (MediaTomb.reduce ch s) := by
  induction hlength : s.length using Nat.strong_induction_on generalizing s with
  | _ length ih =>
    obtain ⟨n, r, rfl, hend⟩ := exists_run ch s
    cases n with
    | zero =>
      rw [List.replicate_zero, List.nil_append] at *
      cases r with
      | nil => exact Reduced.nil
      | cons c r =>
        have hc : c ≠ ch := fun h => hend (congrArg some h)
        rw [reduce_cons fun h => hc h.1]
        exact Reduced.other hc (ih r.length (by rw [← hlength]; exact Nat.lt_succ_self _) r rfl)
    | succ n =>
      rw [reduce_run n hend]
      refine Reduced.run n hend (ih r.length ?_ r rfl)
      rw [← hlength, List.length_append, List.length_replicate]
      omega

/-- **There is only one such text**, and the pure `reduce` computes it. -/
theorem reduced_iff : Reduced ch s t ↔ t = MediaTomb.reduce ch s := by
  constructor
  · intro h
    induction h with
    | nil => rfl
    | run n hend hrest ih => rw [reduce_run n hend, ih]
    | other hc hrest ih => rw [reduce_cons fun h => hc h.1, ih]
  · rintro rfl
    exact reduced_reduce ch s

/-- The first run of the text is behind `b`. -/
theorem reduce_first_run (n : Nat) (hb : NoDouble ch (b ++ [ch])) (hend : r.head? ≠ some ch) :
    MediaTomb.reduce ch (b ++ (List.replicate (n + 1) ch ++ r)) =
      b ++ ch :: MediaTomb.reduce ch r := by
  induction b with
  | nil => exact reduce_run n hend
  | cons c b ih =>
    have htail : NoDouble ch (b ++ [ch]) := List.IsChain.tail hb
    rw [List.cons_append, reduce_cons, ih htail]
    · rfl
    · rintro ⟨hc, hhead⟩
      -- two of them side by side, before the first run
      cases b with
      | nil => exact (List.isChain_cons_cons.mp hb).1 ⟨hc, rfl⟩
      | cons d b => exact (List.isChain_cons_cons.mp hb).1 ⟨hc, Option.some.inj hhead⟩

/-- Characters without the one, and then one. -/
theorem noDouble_last (ht : ch ∉ t) : NoDouble ch (t ++ [ch]) := by
  induction t with
  | nil => exact List.IsChain.singleton ch
  | cons c t ih =>
    rw [List.mem_cons, not_or] at ht
    have hhead : ¬ c = ch := fun h => ht.1 h.symm
    cases t with
    | nil => exact List.IsChain.cons_cons (fun h => hhead h.1) (List.IsChain.singleton ch)
    | cons d t => exact List.IsChain.cons_cons (fun h => hhead h.1) (ih ht.2)

/-- A single one, and others behind it. -/
theorem noDouble_single (hb : NoDouble ch (b ++ [ch])) (ht : ch ∉ t) :
    NoDouble ch (b ++ ch :: t) := by
  refine List.isChain_split.mpr ⟨hb, ?_⟩
  cases t with
  | nil => exact List.IsChain.singleton ch
  | cons d t =>
    refine List.IsChain.cons_cons (fun h => ht ?_) (noDouble_last ht).left_of_append
    rw [← h.2]
    exact List.mem_cons_self

/-- A single one, others behind it, and the next. -/
theorem noDouble_next (hb : NoDouble ch (b ++ [ch])) (hne : t ≠ []) (ht : ch ∉ t) :
    NoDouble ch ((b ++ ch :: t) ++ [ch]) := by
  rw [List.append_assoc, List.cons_append]
  refine List.isChain_split.mpr ⟨hb, ?_⟩
  cases t with
  | nil => exact absurd rfl hne
  | cons d t =>
    refine List.IsChain.cons_cons (fun h => ht ?_) (noDouble_last ht)
    rw [← h.2]
    exact List.mem_cons_self

end

/-! ## Reading the string -/

section

variable {ch : UInt8} {q : Str} {tail : Memory}

theorem skipRun_block (k : Nat) (hch : ch ≠ 0) (hend : q.head? ≠ some ch) :
    skipRun ch (block (List.replicate k ch ++ q) tail) = some k := by
  induction k with
  | zero =>
    cases q with
    | nil => exact if_neg (Ne.symm hch)
    | cons c q => exact if_neg fun h => hend (congrArg some h)
  | succ k ih =>
    rw [List.replicate_succ]
    show (if ch = ch then (skipRun ch (block (List.replicate k ch ++ q) tail)).map (· + 1)
      else some 0) = some (k + 1)
    rw [if_pos rfl, ih]
    rfl

end

/-! ## The loop -/

/-- `pos3` is behind `a`, and `pos2` behind what has been written, `out`. -/
structure Copied (p : Str) (tail : Memory) (a out : Str) (pos2 pos3 : Nat) (res : Memory) : Prop where
  pos3 : pos3 = a.length
  pos2 : pos2 = out.length
  short : out.length ≤ a.length
  size : res.length = p.length + tail.length + 1
  cells : ∃ junk, res = out.map some ++ junk

/-- At a character that was found: between `a` and it there is `b`. -/
def Found (ch : UInt8) (p : Str) (tail : Memory) (b r : Str) (pos pos2 pos3 : Nat)
    (res : Memory) : Prop :=
  NoDouble ch (b ++ [ch]) ∧ ∃ a out, p = a ++ (b ++ ch :: r) ∧ pos = (a ++ b).length ∧
    Copied p tail a out pos2 pos3 res ∧
    out ++ MediaTomb.reduce ch (b ++ ch :: r) = MediaTomb.reduce ch p

/-- Behind the loop: what has been written, and what is left, are the reduced text. -/
def Left (ch : UInt8) (p : Str) (tail : Memory) (pos2 pos3 : Nat) (res : Memory) : Prop :=
  ∃ a q out, p = a ++ q ∧ Copied p tail a out pos2 pos3 res ∧ out ++ q = MediaTomb.reduce ch p

section

variable {ch : UInt8} {p a b r out : Str} {tail : Memory} {res : Memory} {pos pos2 pos3 : Nat}

/-- There is room for what is copied: the part it comes from is no shorter. -/
theorem Copied.room (h : Copied p tail a out pos2 pos3 res) {t : Str} (hp : p = a ++ t) :
    ∃ junk, res = out.map some ++ junk ∧ t.length + tail.length + 1 ≤ junk.length := by
  obtain ⟨junk, hjunk⟩ := h.cells
  refine ⟨junk, hjunk, ?_⟩
  have hsize := h.size
  have hshort := h.short
  rw [hjunk, List.length_append, List.length_map, hp, List.length_append] at hsize
  omega

/-- Up to the first character of the run, both ways of copying are the same. -/
theorem Copied.copy_run (h : Copied p tail a out pos2 pos3 res) (hp : p = a ++ (b ++ ch :: r))
    (hpos : pos = (a ++ b).length) (hnul : (0 : UInt8) ∉ p) (k : Nat) :
    ∃ res', copyRun (block p tail) ch pos pos2 pos3 res = some (pos2 + (b.length + 1), res') ∧
      Copied p tail (a ++ (b ++ ch :: List.replicate k ch)) (out ++ (b ++ [ch]))
        (pos2 + (b.length + 1)) (pos + (k + 1)) res' := by
  obtain ⟨junk, hjunk, hroom⟩ := h.room hp
  have hdiff : pos - pos3 = b.length := by
    rw [hpos, h.pos3, List.length_append]
    omega
  have hroom' : b.length + 1 ≤ junk.length := by
    rw [List.length_append, List.length_cons] at hroom
    omega
  have hresult : copyRun (block p tail) ch pos pos2 pos3 res =
      some (pos2 + (b.length + 1), (out ++ (b ++ [ch])).map some ++ junk.drop (b.length + 1)) := by
    unfold copyRun
    rw [hdiff, hjunk]
    split
    · next hnone =>
      have hnil : b = [] := List.length_eq_zero_iff.mp hnone
      obtain ⟨cell, junk', rfl⟩ : ∃ cell junk', junk = cell :: junk' := by
        cases junk with
        | nil => exact absurd hroom' (Nat.not_succ_le_zero _)
        | cons cell junk => exact ⟨cell, junk, rfl⟩
      rw [store_at h.pos2, hnil]
      rfl
    · have hbytes : strncpyBytes (b.length + 1) ((block p tail).drop pos3) =
          some (b ++ [ch]) := by
        have hparts : p = a ++ ((b ++ [ch]) ++ r) := by
          rw [hp, List.append_cons b ch r]
        have hlength : b.length + 1 = (b ++ [ch]).length := by
          rw [List.length_append, List.length_singleton]
        rw [hparts, h.pos3, hlength]
        apply strncpyBytes_part
        intro hmem
        apply hnul
        rw [hparts]
        exact List.mem_append_right _ (List.mem_append_left _ hmem)
      rw [strncpy_at h.pos2 hbytes hroom']
      rfl
  refine ⟨_, hresult, ?_, ?_, ?_, ?_, ⟨_, rfl⟩⟩
  · rw [hpos]
    simp only [List.length_append, List.length_cons, List.length_replicate]
    omega
  · rw [h.pos2]
    simp only [List.length_append, List.length_cons, List.length_nil]
  · have hshort := h.short
    simp only [List.length_append, List.length_cons, List.length_nil, List.length_replicate]
    omega
  · have hsize := h.size
    rw [hjunk] at hsize
    simp only [List.length_append, List.length_map, List.length_drop, List.length_cons,
      List.length_nil] at hsize ⊢
    omega

/-- `*pos2 = 0` changes nothing that counts. -/
theorem Copied.store_nul (h : Copied p tail a out pos2 pos3 res) (hle : a.length ≤ p.length) :
    ∃ res', store res pos2 0 = some res' ∧ Copied p tail a out pos2 pos3 res' := by
  obtain ⟨hpos3, hpos2, hshort, hsize, junk, hjunk⟩ := h
  have hroom : 0 < junk.length := by
    rw [hjunk, List.length_append, List.length_map] at hsize
    omega
  cases junk with
  | nil => exact absurd hroom (Nat.lt_irrefl 0)
  | cons cell junk =>
    refine ⟨(out ++ [0]).map some ++ junk, ?_, hpos3, hpos2, hshort, ?_, some 0 :: junk, ?_⟩
    · rw [hjunk]
      exact store_at hpos2
    · rw [hjunk] at hsize
      simp only [List.length_append, List.length_map, List.length_cons, List.length_nil] at hsize ⊢
      omega
    · rw [List.map_append, List.append_assoc]
      rfl

/-- **A step at a run**: it is copied, and the loop is left or goes on at the next character. -/
theorem Found.run (h : Found ch p tail b r pos pos2 pos3 res) (hch : ch ≠ 0)
    (hnul : (0 : UInt8) ∉ p) (hrun : r.head? = some ch) (fuel : Nat) :
    (∃ pos2' pos3' res', reduceLoop (block p tail) ch (fuel + 1) pos pos2 pos3 res =
        some (pos2', pos3', res') ∧ Left ch p tail pos2' pos3' res') ∨
      ∃ b' r' pos' pos2' pos3' res', r'.length < r.length ∧
        reduceLoop (block p tail) ch (fuel + 1) pos pos2 pos3 res =
          reduceLoop (block p tail) ch fuel pos' pos2' pos3' res' ∧
        Found ch p tail b' r' pos' pos2' pos3' res' := by
  obtain ⟨hsingle, a, out, hp, hpos, hcopied, hreduced⟩ := h
  obtain ⟨k, r', hr, hend⟩ := exists_run ch r
  obtain ⟨k, rfl⟩ : ∃ k', k = k' + 1 := by
    cases k with
    | zero =>
      rw [List.replicate_zero, List.nil_append] at hr
      rw [hr] at hrun
      exact absurd hrun hend
    | succ k => exact ⟨k, rfl⟩
  obtain ⟨res', hcopy, hcopied'⟩ := hcopied.copy_run hp hpos hnul (k + 1)
  -- what follows the run begins at `pos + (k + 2)`
  have hp' : p = (a ++ (b ++ ch :: List.replicate (k + 1) ch)) ++ r' := by
    rw [hp, hr]
    simp only [List.append_assoc, List.cons_append]
  have hnext : load (block p tail) (pos + 1) = some ch := by
    have hsplit : p = (a ++ (b ++ [ch])) ++ ch :: (List.replicate k ch ++ r') := by
      rw [hp, hr, List.replicate_succ]
      simp only [List.append_assoc, List.cons_append, List.nil_append]
    have hlength : pos + 1 = (a ++ (b ++ [ch])).length := by
      rw [hpos]
      simp only [List.length_append, List.length_cons, List.length_nil]
      omega
    rw [hsplit, hlength]
    exact load_block
  have hskip : skipRun ch ((block p tail).drop pos) = some (k + 2) := by
    have hsplit : p = (a ++ b) ++ (List.replicate (k + 2) ch ++ r') := by
      have hlong : List.replicate (k + 2) ch = ch :: List.replicate (k + 1) ch := rfl
      rw [hp, hr, hlong]
      simp only [List.append_assoc, List.cons_append]
    rw [hsplit, hpos, drop_block]
    exact skipRun_block _ hch hend
  have hreduced' : (out ++ (b ++ [ch])) ++ MediaTomb.reduce ch r' = MediaTomb.reduce ch p := by
    rw [← hreduced, hr]
    have hfirst := @reduce_first_run ch b r' (k + 1) hsingle hend
    rw [List.replicate_succ, List.cons_append] at hfirst
    rw [hfirst, List.append_assoc, List.append_assoc]
    rfl
  have hpos3 := hcopied'.pos3
  rw [reduceLoop]
  simp only [hnext, hcopy, hskip, Option.bind_eq_bind, Option.bind_some, if_true]
  cases r' with
  | nil =>
    have hload : load (block p tail) (pos + (k + 2)) = some 0 := by
      rw [hpos3]
      rw [List.append_nil] at hp'
      rw [← hp']
      exact load_end
    have hle := congrArg List.length hp'
    rw [List.append_nil] at hle
    obtain ⟨res'', hstore, hcopied''⟩ := hcopied'.store_nul (Nat.le_of_eq hle.symm)
    refine Or.inl ⟨_, _, res'', ?_, _, [], _, hp', hcopied'', ?_⟩
    · simp only [hload, Option.bind_some, if_true, hstore, Option.map_some]
    · exact hreduced'
  | cons c r' =>
    have hload : load (block p tail) (pos + (k + 2)) = some c := by
      rw [hpos3, hp']
      exact load_block
    have hc : c ≠ 0 := by
      intro h
      apply hnul
      rw [hp', h]
      exact List.mem_append_right _ List.mem_cons_self
    simp only [hload, Option.bind_some, if_neg hc]
    have hnul' : (0 : UInt8) ∉ c :: r' := by
      intro h
      apply hnul
      rw [hp']
      exact List.mem_append_right _ h
    have hstrchr := strchr_block hch hnul' (a ++ (b ++ ch :: List.replicate (k + 1) ch)) tail
    rw [← hp', ← hpos3] at hstrchr
    rcases hstrchr with ⟨hnot, hfound⟩ | ⟨q₁, q₂, hq, hnot, hfound⟩
    · refine Or.inl ⟨_, _, res', ?_, _, c :: r', _, hp', hcopied', ?_⟩
      · simp only [hfound, Option.bind_some]
      · rw [← hreduced', reduce_eq_self (noDouble_last hnot).left_of_append]
    · refine Or.inr ⟨q₁, q₂, pos + (k + 2) + q₁.length, _, _, res', ?_, ?_, noDouble_last hnot, _, _,
        ?_, ?_, hcopied', ?_⟩
      · rw [hr, hq]
        simp only [List.length_append, List.length_cons, List.length_replicate]
        omega
      · simp only [hfound, Option.bind_some]
      · rw [← hq]
        exact hp'
      · rw [List.length_append, ← hpos3]
      · rw [← hq]
        exact hreduced'

/-- **A step at a single one**: nothing is copied. -/
theorem Found.single (h : Found ch p tail b r pos pos2 pos3 res) (hch : ch ≠ 0)
    (hnul : (0 : UInt8) ∉ p) (hrun : r.head? ≠ some ch) (fuel : Nat) :
    (reduceLoop (block p tail) ch (fuel + 1) pos pos2 pos3 res = some (pos2, pos3, res) ∧
        Left ch p tail pos2 pos3 res) ∨
      ∃ b' r' pos', r'.length < r.length ∧
        reduceLoop (block p tail) ch (fuel + 1) pos pos2 pos3 res =
          reduceLoop (block p tail) ch fuel pos' pos2 pos3 res ∧
        Found ch p tail b' r' pos' pos2 pos3 res := by
  obtain ⟨hsingle, a, out, hp, hpos, hcopied, hreduced⟩ := h
  have hp' : p = (a ++ (b ++ [ch])) ++ r := by
    rw [hp]
    simp only [List.append_assoc, List.cons_append, List.nil_append]
  have hpos' : pos + 1 = (a ++ (b ++ [ch])).length := by
    rw [hpos]
    simp only [List.length_append, List.length_cons, List.length_nil]
    omega
  -- what is left to copy is reduced, as long as there is no other
  have hleft : ch ∉ r → Left ch p tail pos2 pos3 res := by
    intro hnot
    refine ⟨a, b ++ ch :: r, out, hp, hcopied, ?_⟩
    rw [← hreduced, reduce_eq_self (noDouble_single hsingle hnot)]
  rw [reduceLoop]
  cases r with
  | nil =>
    have hnext : load (block p tail) (pos + 1) = some 0 := by
      rw [hp', hpos', List.append_nil]
      exact load_end
    refine Or.inl ⟨?_, hleft List.not_mem_nil⟩
    simp only [hnext, Option.bind_eq_bind, Option.bind_some, if_neg (Ne.symm hch), if_true]
  | cons c r =>
    have hnext : load (block p tail) (pos + 1) = some c := by
      rw [hp', hpos']
      exact load_block
    have hc : c ≠ ch := fun h => hrun (congrArg some h)
    have hnul' : (0 : UInt8) ∉ c :: r := by
      intro h
      apply hnul
      rw [hp']
      exact List.mem_append_right _ h
    have hc0 : c ≠ 0 := by
      rintro rfl
      exact hnul' List.mem_cons_self
    have hstrchr := strchr_block hch hnul' (a ++ (b ++ [ch])) tail
    rw [← hp', ← hpos'] at hstrchr
    simp only [hnext, Option.bind_eq_bind, Option.bind_some, if_neg hc, if_neg hc0]
    rcases hstrchr with ⟨hnot, hfound⟩ | ⟨q₁, q₂, hq, hnot, hfound⟩
    · refine Or.inl ⟨?_, hleft hnot⟩
      simp only [hfound, Option.bind_some]
    · have hne : q₁ ≠ [] := by
        rintro rfl
        exact hc (List.cons.inj hq).1
      have hparts : b ++ ch :: c :: r = (b ++ ch :: q₁) ++ ch :: q₂ := by
        rw [hq, List.append_assoc, List.cons_append]
      refine Or.inr ⟨b ++ ch :: q₁, q₂, pos + 1 + q₁.length, ?_, ?_,
        noDouble_next hsingle hne hnot, a, out, ?_, ?_, hcopied, ?_⟩
      · rw [hq, List.length_append, List.length_cons]
        omega
      · simp only [hfound, Option.bind_some]
      · rw [← hparts]
        exact hp
      · rw [hpos]
        simp only [List.length_append, List.length_cons]
        omega
      · rw [← hparts]
        exact hreduced

/-- **The loop ends**, after no more steps than there are characters. -/
theorem Found.loop (hch : ch ≠ 0) (hnul : (0 : UInt8) ∉ p) :
    ∀ (fuel : Nat) {b r : Str} {pos pos2 pos3 : Nat} {res : Memory},
      Found ch p tail b r pos pos2 pos3 res → r.length < fuel →
      ∃ pos2' pos3' res', reduceLoop (block p tail) ch fuel pos pos2 pos3 res =
        some (pos2', pos3', res') ∧ Left ch p tail pos2' pos3' res' := by
  intro fuel
  induction fuel with
  | zero =>
    intro b r pos pos2 pos3 res h hfuel
    exact absurd hfuel (Nat.not_lt_zero _)
  | succ fuel ih =>
    intro b r pos pos2 pos3 res h hfuel
    by_cases hrun : r.head? = some ch
    · rcases h.run hch hnul hrun fuel with hdone | ⟨b', r', pos', pos2', pos3', res',
        hless, hstep, hnext⟩
      · exact hdone
      · rw [hstep]
        exact ih hnext (by omega)
    · rcases h.single hch hnul hrun fuel with hdone | ⟨b', r', pos', hless, hstep, hnext⟩
      · exact ⟨_, _, _, hdone⟩
      · rw [hstep]
        exact ih hnext (by omega)

/-- What is left is copied, and a NUL behind it; the buffer is exactly as long. -/
theorem Left.finish (h : Left ch p tail pos2 pos3 res) (hnul : (0 : UInt8) ∉ p) :
    finish (block p tail) (p.length + tail.length) pos2 pos3 res =
      some (MediaTomb.reduce ch p) := by
  obtain ⟨a, q, out, hp, hcopied, hreduced⟩ := h
  obtain ⟨junk, hjunk, hroom⟩ := hcopied.room hp
  have hlength : p.length = a.length + q.length := by rw [hp, List.length_append]
  have hcount : p.length + tail.length - pos3 = q.length + tail.length := by
    rw [hcopied.pos3]
    omega
  have hnulq : (0 : UInt8) ∉ q := by
    intro h
    apply hnul
    rw [hp]
    exact List.mem_append_right _ h
  have hbytes : strncpyBytes (q.length + tail.length) ((block p tail).drop pos3) =
      some (q ++ List.replicate tail.length 0) := by
    rw [hcopied.pos3, hp]
    exact strncpyBytes_rest hnulq _
  have hcopy : copyRest (block p tail) pos2 pos3 (q.length + tail.length) res =
      some ((out ++ (q ++ List.replicate tail.length 0)).map some ++
        junk.drop (q.length + tail.length)) := by
    unfold copyRest
    by_cases hzero : q.length + tail.length = 0
    · have hq : q = [] := List.length_eq_zero_iff.mp (by omega)
      have htail : tail.length = 0 := by omega
      rw [if_neg (not_not.mpr hzero), hjunk, hzero, htail, hq]
      simp only [List.replicate_zero, List.append_nil, List.drop_zero]
    · rw [if_pos hzero, hjunk]
      exact strncpy_at hcopied.pos2 hbytes (by omega)
  have hnulout : (0 : UInt8) ∉ out ++ q := by
    rw [hreduced, mem_reduce]
    exact hnul
  obtain ⟨cell, junk', hcell⟩ : ∃ cell junk', junk.drop (q.length + tail.length) = cell :: junk' := by
    cases hdrop : junk.drop (q.length + tail.length) with
    | nil =>
      have hempty := congrArg List.length hdrop
      rw [List.length_drop, List.length_nil] at hempty
      omega
    | cons cell junk' => exact ⟨cell, junk', rfl⟩
  unfold StringReduce.finish
  rw [if_neg (by rw [hcopied.pos3]; omega), hcount, hcopy, hcell]
  show (store _ _ _).bind _ = _
  rw [store_at (by
    rw [hcopied.pos2]
    simp only [List.length_append, List.length_replicate])]
  show cstr _ = _
  rw [← hreduced]
  -- behind the text there are only NULs, those of the padding and the one written last
  cases htail : tail.length with
  | zero =>
    rw [List.replicate_zero, List.append_nil, List.map_append, List.append_assoc]
    exact cstr_at hnulout
  | succ n =>
    rw [List.replicate_succ, ← List.append_assoc, List.map_append, List.map_append,
      List.append_assoc, List.append_assoc]
    exact cstr_at hnulout

end

/-! ## The function -/

section

variable {ch : UInt8} {s p t : Str} {tail : Memory} {fuel : Nat}

/-- **What `reduce` returns**: it knows only what stands before the first NUL. -/
theorem reduce_block (hs : terminated s = block p tail) (hlength : s.length = p.length + tail.length)
    (hch : ch ≠ 0) (hnul : (0 : UInt8) ∉ p) (hfuel : p.length < fuel) :
    reduce fuel s ch = some (if ch ∈ p then MediaTomb.reduce ch p else s) := by
  unfold reduce
  rw [hs]
  have hstrchr := strchr_block hch hnul [] tail
  rw [List.nil_append, List.length_nil] at hstrchr
  rcases hstrchr with ⟨hnot, hfound⟩ | ⟨q₁, q₂, hq, hnot, hfound⟩
  · rw [if_neg hnot]
    simp only [hfound, Option.bind_eq_bind, Option.bind_some]
  · have hmem : ch ∈ p := by
      rw [hq]
      exact List.mem_append_right _ List.mem_cons_self
    have hlengthq := congrArg List.length hq
    rw [List.length_append, List.length_cons] at hlengthq
    have hstart : Found ch p tail q₁ q₂ (0 + q₁.length) 0 0 (List.replicate (s.length + 1) none) := by
      refine ⟨noDouble_last hnot, [], [], hq, ?_, ⟨rfl, rfl, Nat.le_refl _, ?_, ⟨_, rfl⟩⟩, ?_⟩
      · rw [Nat.zero_add]
        rfl
      · rw [List.length_replicate, hlength]
      · rw [← hq]
        rfl
    obtain ⟨pos2, pos3, res, hloop, hleft⟩ := hstart.loop hch hnul fuel (by omega)
    have hfinish := hleft.finish hnul
    rw [if_pos hmem]
    simp only [hfound, Option.bind_eq_bind, Option.bind_some, hloop]
    rw [hlength]
    exact hfinish

/-- A string that contains no NUL. -/
theorem reduce_text (hch : ch ≠ 0) (hnul : (0 : UInt8) ∉ s) (hfuel : s.length < fuel) :
    reduce fuel s ch = some (MediaTomb.reduce ch s) := by
  rw [reduce_block (terminated_block) rfl hch hnul hfuel]
  split
  · rfl
  · next hnot => rw [reduce_eq_self (noDouble_last hnot).left_of_append]

/-- One that does. -/
theorem reduce_cut (hch : ch ≠ 0) (hnul : (0 : UInt8) ∉ p) (hfuel : p.length < fuel) :
    reduce fuel (p ++ 0 :: t) ch =
      some (if ch ∈ p then MediaTomb.reduce ch p else p ++ 0 :: t) := by
  refine reduce_block terminated_cut ?_ hch hnul hfuel
  unfold terminated
  simp only [List.length_append, List.length_cons, List.length_map, List.length_nil]

/-- Behind the run there is something else. -/
theorem skipRun_stops : ∀ {rest : Memory} {n : Nat}, skipRun ch rest = some n →
    rest[n]?.join ≠ some ch := by
  intro rest
  induction rest with
  | nil =>
    intro n h
    cases h
  | cons cell rest ih =>
    intro n h
    cases cell with
    | none => cases h
    | some c =>
      rw [skipRun] at h
      split at h
      · obtain ⟨m, hm, rfl⟩ := Option.map_eq_some_iff.mp h
        exact ih hm
      · next hc =>
        cases h
        exact fun heq => hc (Option.some.inj heq)

/-- **The NUL cannot be looked for**: behind the end of the string the search goes on. -/
theorem reduceLoop_nul (mem : Memory) : ∀ (fuel pos pos2 pos3 : Nat) (res : Memory),
    reduceLoop mem 0 fuel pos pos2 pos3 res = none := by
  intro fuel
  induction fuel with
  | zero =>
    intro pos pos2 pos3 res
    rfl
  | succ fuel ih =>
    intro pos pos2 pos3 res
    -- each way on is a character that was found
    have hsearch : ∀ (i : Nat) (exit : Nat × Nat × Memory) (pos2 pos3 : Nat) (res : Memory),
        ((strchr mem i 0).bind fun found? =>
          found?.elim (some exit) fun found => reduceLoop mem 0 fuel found pos2 pos3 res) = none := by
      intro i exit pos2 pos3 res
      cases hfound : strchr mem i 0 with
      | none => rfl
      | some found? =>
        cases found? with
        | none => exact absurd hfound (strchr_nul mem i)
        | some found => exact ih found pos2 pos3 res
    rw [reduceLoop]
    simp only [Option.bind_eq_bind]
    cases hnext : load mem (pos + 1) with
    | none => rfl
    | some next =>
      rw [Option.bind_some]
      split
      · cases hcopy : copyRun mem 0 pos pos2 pos3 res with
        | none => rfl
        | some copied =>
          rw [Option.bind_some]
          cases hskipped : skipRun 0 (mem.drop pos) with
          | none => rfl
          | some skipped =>
            rw [Option.bind_some]
            cases hload : load mem (pos + skipped) with
            | none => rfl
            | some c =>
              have hc : c ≠ 0 := by
                rintro rfl
                have hlast := skipRun_stops hskipped
                rw [List.getElem?_drop] at hlast
                exact hlast hload
              rw [Option.bind_some, if_neg hc]
              have hgo := hsearch (pos + skipped) (copied.1, pos + skipped, copied.2) copied.1
                (pos + skipped) copied.2
              rw [← hgo]
              congr 1
              funext found?
              cases found? with
              | none => rfl
              | some found => rfl
      · have hgo := hsearch (pos + 1) (pos2, pos3, res) pos2 pos3 res
        rw [← hgo]
        congr 1
        funext found?
        cases found? with
        | none => rfl
        | some found => rfl

theorem reduce_nul : reduce fuel s 0 = none := by
  unfold reduce
  simp only [Option.bind_eq_bind]
  cases hfound : strchr (terminated s) 0 0 with
  | none => rfl
  | some found? =>
    rw [Option.bind_some]
    cases found? with
    | none => exact absurd hfound (strchr_nul _ 0)
    | some found => simp only [reduceLoop_nul, Option.bind_none]

end

section

variable {ch : UInt8} {s p t : Str}

/-- What is said of `reduce`: it ends, with the reduced text, and has no more to do with that. -/
def Reduces (s : Str) (ch : UInt8) : Prop :=
  ∃ t, (∀ fuel, s.length < fuel → reduce fuel s ch = some t) ∧ Reduced ch s t ∧
    ∀ fuel, t.length < fuel → reduce fuel t ch = some t

theorem reduces_text (hch : ch ≠ 0) (hnul : (0 : UInt8) ∉ s) : Reduces s ch := by
  have hnul' : (0 : UInt8) ∉ MediaTomb.reduce ch s := fun h => hnul ((mem_reduce ch 0 s).mp h)
  refine ⟨MediaTomb.reduce ch s, ?_, reduced_reduce ch s, ?_⟩
  · intro fuel hfuel
    exact reduce_text hch hnul hfuel
  · intro fuel hfuel
    rw [reduce_text hch hnul' hfuel, reduce_reduce]

theorem not_reduces_nul : ¬ Reduces s 0 := by
  rintro ⟨t, hreduce, -⟩
  have hnone := hreduce (s.length + 1) (Nat.lt_succ_self _)
  rw [reduce_nul] at hnone
  cases hnone

/-- Behind a NUL nothing is reduced, and if something is before it, everything behind is lost. -/
theorem reduces_cut_iff (hch : ch ≠ 0) (hnul : (0 : UInt8) ∉ p) :
    Reduces (p ++ 0 :: t) ch ↔ ch ∉ p ∧ NoDouble ch (p ++ 0 :: t) := by
  have hrun : ∀ fuel, (p ++ 0 :: t).length < fuel → reduce fuel (p ++ 0 :: t) ch =
      some (if ch ∈ p then MediaTomb.reduce ch p else p ++ 0 :: t) := by
    intro fuel hfuel
    rw [List.length_append] at hfuel
    exact reduce_cut hch hnul (by omega)
  constructor
  · rintro ⟨t', hreduce, hreduced, -⟩
    have hsame := hreduce _ (Nat.lt_succ_self _)
    rw [hrun _ (Nat.lt_succ_self _)] at hsame
    rw [reduced_iff] at hreduced
    have hmem : ch ∉ p := by
      intro hin
      rw [if_pos hin] at hsame
      -- the NUL would be lost
      apply hnul
      rw [← mem_reduce ch 0 p, Option.some.inj hsame, hreduced, mem_reduce]
      exact List.mem_append_right _ List.mem_cons_self
    refine ⟨hmem, ?_⟩
    rw [if_neg hmem] at hsame
    rw [Option.some.inj hsame, hreduced]
    exact noDouble_reduce ch _
  · rintro ⟨hmem, hdouble⟩
    rw [if_neg hmem] at hrun
    refine ⟨p ++ 0 :: t, hrun, ?_, hrun⟩
    rw [reduced_iff, reduce_eq_self hdouble]

end

/-- **Every run shrinks to one character, and nothing else changes**, exactly if the character is not
    the NUL; and if there is a NUL in the string, the character is not before it, and no two of them
    are side by side. -/
theorem string_reduce_iff (s : Str) (ch : UInt8) :
    Reduces s ch ↔
      ch ≠ 0 ∧ ∀ p t, s = p ++ 0 :: t → (0 : UInt8) ∉ p → ch ∉ p ∧ NoDouble ch s := by
  by_cases hch : ch = 0
  · rw [hch]
    exact iff_of_false not_reduces_nul fun h => h.1 rfl
  · constructor
    · intro h
      refine ⟨hch, ?_⟩
      rintro p t rfl hnul
      exact (reduces_cut_iff hch hnul).mp h
    · rintro ⟨-, hcut⟩
      by_cases hnul : (0 : UInt8) ∈ s
      · obtain ⟨p, t, rfl, hnot⟩ := List.eq_append_cons_of_mem hnul
        exact (reduces_cut_iff hch hnot).mpr (hcut p t rfl hnot)
      · exact reduces_text hch hnul

/-- `a//`, a NUL and `b`: the end is lost; and the NUL itself cannot be reduced. -/
theorem string_reduce_cut :
    reduce 6 [97, 47, 47, 0, 98] 47 = some [97, 47] ∧ ¬ Reduces [97, 47, 47, 0, 98] 47 ∧
      reduce 6 [97] 0 = none ∧ ¬ Reduces [97] 0 := by
  refine ⟨by decide, ?_, by decide, not_reduces_nul⟩
  intro h
  exact ((@reduces_cut_iff 47 [97, 47, 47] [98] (by decide) (by decide)).mp h).1 (by decide)

end MediaTomb.StringReduce
