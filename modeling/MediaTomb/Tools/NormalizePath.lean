/-
  `normalizePath` (`tools.cc`), with the stack it works on (`zmmf/base_stack.h`).

  DATA.     an absolute path, a buffer of its length and one byte for the NUL, and a stack of the
            places at which the kept components begin.
  PROGRAM.  one component after the other is written into the buffer behind the ones before it;
            `..` moves the write position back to the place on top of the stack, and what stood
            there is written over by the next component.
  RESULT.   the components folded from the left (`normalForm`), whatever the fresh memory holds,
            and no byte is written outside the buffer (`normalizePath_eq`).

  The crux is that the places on the stack are those of the components that are kept
  (`locations`), so that moving back leaves the text of all but the last of them.  A path has no
  NUL in it, so `strlen` finds the one that is written behind the text.
-/
import MediaTomb.Storage.DirectoryPaths

namespace MediaTomb

/-! ## `zmmf/base_stack.h` -/

/-- A stack in an array that grows; the top comes first here. -/
structure BaseStack (α : Type) where
  elements : List α
  capacity : Nat
  emptyType : α
  fits : elements.length ≤ capacity

namespace BaseStack

variable {α : Type}

def create (initialCapacity : Nat) (emptyType : α) : BaseStack α :=
  ⟨[], initialCapacity, emptyType, Nat.zero_le _⟩

/-- `resize`: half as much again, or what is asked for if that is more. -/
def resize (s : BaseStack α) (requiredSize : Nat) : Nat :=
  if s.capacity < requiredSize then
    if s.elements.length + s.elements.length / 2 < requiredSize then requiredSize
    else s.elements.length + s.elements.length / 2
  else s.capacity

theorem le_resize (s : BaseStack α) (requiredSize : Nat) : requiredSize ≤ s.resize requiredSize := by
  unfold resize
  split
  · split <;> omega
  · omega

def push (s : BaseStack α) (element : α) : BaseStack α :=
  if h : s.elements.length = s.capacity then
    { s with
      elements := element :: s.elements
      capacity := s.resize (s.elements.length + 1)
      fits := s.le_resize _ }
  else
    { s with
      elements := element :: s.elements
      fits := Nat.lt_of_le_of_ne s.fits h }

/-- `pop`: an empty stack gives `emptyType`. -/
def pop (s : BaseStack α) : α × BaseStack α :=
  match h : s.elements with
  | [] => (s.emptyType, s)
  | element :: rest =>
    (element, { s with
      elements := rest
      fits := by
        have hfits := s.fits
        rw [h, List.length_cons] at hfits
        omega })

@[simp] theorem elements_push (s : BaseStack α) (element : α) :
    (s.push element).elements = element :: s.elements := by
  unfold push
  split <;> rfl

@[simp] theorem emptyType_push (s : BaseStack α) (element : α) :
    (s.push element).emptyType = s.emptyType := by
  unfold push
  split <;> rfl

theorem pop_nil {s : BaseStack α} (h : s.elements = []) : s.pop = (s.emptyType, s) := by
  unfold pop
  split
  · rfl
  · next heq =>
    rw [h] at heq
    cases heq

theorem pop_cons {s : BaseStack α} {element : α} {rest : List α}
    (h : s.elements = element :: rest) :
    ∃ t, s.pop = (element, t) ∧ t.elements = rest ∧ t.emptyType = s.emptyType := by
  unfold pop
  split
  · next heq =>
    rw [h] at heq
    cases heq
  · next heq =>
    obtain ⟨rfl, rfl⟩ := List.cons.inj (h.symm.trans heq)
    exact ⟨_, rfl, rfl, rfl⟩

end BaseStack

/-! ## The program -/

/-- `String::index(start, ch)`. -/
def indexFrom (start : Nat) (ch : UInt8) (s : Str) : Option Nat :=
  ((s.drop start).findIdx? (· == ch)).map (start + ·)

/-- Bytes put into a buffer; `none` when one of them would stand outside. -/
def writeBytes (buffer : Str) (pos : Nat) (bytes : Str) : Option Str :=
  if pos + bytes.length ≤ buffer.length then
    some (buffer.take pos ++ bytes ++ buffer.drop (pos + bytes.length))
  else none

/-- `result->data`, the offset of `str` in it, and the stack. -/
structure NormalizeState where
  data : Str
  str : Nat
  separatorLocations : BaseStack Int

/-- `while (next < length && path.charAt(next) == DIR_SEPARATOR) next++;` -/
def skipSeparators (path : Str) (next : Nat) : Nat :=
  next + ((path.drop next).takeWhile (· == dirSeparator)).length

/-- What is done with the component between `next` and `nextSep`. -/
def normalizeComponent (path : Str) (next nextSep : Nat) (s : NormalizeState) :
    Option NormalizeState :=
  if nextSep = next + 1 ∧ path[next]? = some '.'.toUInt8 then some s
  else if nextSep = next + 2 ∧ next + 1 < path.length ∧ path[next]? = some '.'.toUInt8 ∧
      path[next + 1]? = some '.'.toUInt8 then
    let (lastSepLocation, separatorLocations) := s.separatorLocations.pop
    let lastSepLocation := if lastSepLocation < 0 then 0 else lastSepLocation
    some { s with str := lastSepLocation.toNat, separatorLocations := separatorLocations }
  else do
    let data ← writeBytes s.data s.str [dirSeparator]
    let data ← writeBytes data (s.str + 1) ((path.drop next).take (nextSep - next))
    some
      { data := data
        str := s.str + 1 + (nextSep - next)
        separatorLocations := s.separatorLocations.push s.str }

/-- The loop; each round takes at least one byte off the path. -/
def normalizeLoop (path : Str) : Nat → Nat → NormalizeState → Option NormalizeState
  | 0, _, _ => none
  | fuel + 1, next, s =>
    let next := skipSeparators path next
    if path.length ≤ next then some s
    else
      let nextSep := (indexFrom next dirSeparator path).getD path.length
      match normalizeComponent path next nextSep s with
      | none => none
      | some s =>
        if nextSep + 1 < path.length then normalizeLoop path fuel (nextSep + 1) s else some s

/-- The ways in which there is no result. -/
inductive NormalizeFault where
  /-- "Relative paths are not allowed!" -/
  | relative
  /-- a byte outside the buffer, or a loop that does not end -/
  | outside
  deriving DecidableEq

/-- `normalizePath`; `memory` is what the fresh buffer holds. -/
def normalizePath (memory : Nat → UInt8) (path : Str) : Except NormalizeFault Str :=
  if path.head? ≠ some dirSeparator then .error .relative
  else
    let s : NormalizeState :=
      { data := (List.range (path.length + 1)).map memory
        str := 0
        separatorLocations := .create (max 3 (path.length / 5)) (-1) }
    let result := do
      let s ← normalizeLoop path path.length 1 s
      let s ← if s.str = 0 then
          (writeBytes s.data 0 [dirSeparator]).map fun data => { s with data := data, str := 1 }
        else some s
      let data ← writeBytes s.data s.str [0]
      some (data.take s.str)
    match result with
    | none => .error .outside
    | some text => .ok text

/-! ## What it is for -/

/-- One component more; the last one that is kept comes first. -/
def keepComponent (kept : List Str) (n : Str) : List Str :=
  if n = ['.'.toUInt8] then kept
  else if n = ['.'.toUInt8, '.'.toUInt8] then kept.tail
  else n :: kept

/-- The components that are kept, folded from the left. -/
def keptComponents (path : Str) : List Str := (pathNames path).foldl keepComponent []

/-- **The normal form of a path.** -/
def normalForm (path : Str) : Str := chainPath (keptComponents path)

section

variable {path n t : Str} {ws : List Str} {next : Nat}

/-! ## Cutting off one component -/

theorem skip_drop (path : Str) (next : Nat) :
    path.drop (skipSeparators path next) = (path.drop next).dropWhile (· == dirSeparator) := by
  unfold skipSeparators
  rw [← List.drop_drop]
  generalize path.drop next = r
  have hcut : r.takeWhile (· == dirSeparator) ++ r.dropWhile (· == dirSeparator) = r :=
    List.takeWhile_append_dropWhile
  nth_rewrite 2 [← hcut]
  exact List.drop_left

theorem pathNames_dropWhile (r : Str) :
    pathNames (r.dropWhile (· == dirSeparator)) = pathNames r := by
  induction r with
  | nil => rfl
  | cons c r ih =>
    rw [List.dropWhile_cons]
    split
    · next h =>
      rw [beq_iff_eq.mp h, ih]
      exact (pathNamesFrom_separator [] r).symm
    · rfl

/-- A text is a name and what follows the separator behind it. -/
theorem exists_component (r : Str) :
    ∃ n t, r = n ++ t ∧ dirSeparator ∉ n ∧ (t = [] ∨ ∃ t', t = dirSeparator :: t') := by
  induction r with
  | nil => exact ⟨[], [], rfl, List.not_mem_nil, .inl rfl⟩
  | cons c r ih =>
    by_cases hc : c = dirSeparator
    · exact ⟨[], c :: r, rfl, List.not_mem_nil, .inr ⟨r, by rw [hc]⟩⟩
    · obtain ⟨n, t, rfl, hn, ht⟩ := ih
      refine ⟨c :: n, t, rfl, fun hmem => ?_, ht⟩
      rcases List.mem_cons.mp hmem with h | h
      · exact hc h.symm
      · exact hn h

theorem pathNames_component (hn : FileName n) (ht : t = [] ∨ ∃ t', t = dirSeparator :: t') :
    pathNames (n ++ t) = n :: pathNames (t.drop 1) := by
  have hcomponent : component n = [n] := if_neg hn.ne_nil
  unfold pathNames
  rw [pathNamesFrom_name hn.no_separator, List.nil_append]
  rcases ht with rfl | ⟨t', rfl⟩
  · rw [pathNamesFrom, hcomponent]
    rfl
  · rw [pathNamesFrom_separator, hcomponent]
    rfl

/-- The next separator stands behind the name. -/
theorem indexFrom_component (hcut : path.drop next = n ++ t) (hne : n ≠ [])
    (hn : dirSeparator ∉ n) (ht : t = [] ∨ ∃ t', t = dirSeparator :: t') :
    (indexFrom next dirSeparator path).getD path.length = next + n.length := by
  have hpos := List.length_pos_iff.mpr hne
  have hlen := congrArg List.length hcut
  rw [List.length_drop, List.length_append] at hlen
  have hnone : n.findIdx? (· == dirSeparator) = none := by
    rw [List.findIdx?_eq_none_iff]
    intro c hc
    exact beq_false_of_ne fun heq => hn (heq ▸ hc)
  unfold indexFrom
  rw [hcut, List.findIdx?_append, hnone, Option.none_or]
  rcases ht with rfl | ⟨t', rfl⟩
  · rw [List.findIdx?_nil, Option.map_none, Option.map_none, Option.getD_none]
    rw [List.length_nil] at hlen
    omega
  · rw [List.findIdx?_cons, beq_self_eq_true, if_pos rfl, Option.map_some, Option.map_some,
      Option.getD_some]
    omega

/-! ## The buffer -/

theorem writeBytes_take (buffer : Str) (pos : Nat) (bytes : Str)
    (h : pos + bytes.length ≤ buffer.length) :
    ∃ data, writeBytes buffer pos bytes = some data ∧ data.length = buffer.length ∧
      data.take (pos + bytes.length) = buffer.take pos ++ bytes := by
  unfold writeBytes
  rw [if_pos h]
  refine ⟨_, rfl, ?_, ?_⟩
  · rw [List.length_append, List.length_append, List.length_take, List.length_drop]
    omega
  · have hlen : (buffer.take pos ++ bytes).length = pos + bytes.length := by
      rw [List.length_append, List.length_take]
      omega
    rw [← hlen]
    exact List.take_left

/-- What stands before the place that is written at is kept. -/
theorem writeBytes_keeps {buffer bytes data : Str} {pos : Nat}
    (h : writeBytes buffer pos bytes = some data) : data.take pos = buffer.take pos := by
  unfold writeBytes at h
  split at h
  · next hle =>
    cases h
    rw [List.append_assoc, List.take_append_of_le_length, List.take_take, Nat.min_self]
    rw [List.length_take]
    omega
  · cases h

/-! ## The invariant -/

/-- Where each of the components begins, the last one first. -/
def locations : List Str → List Int
  | [] => []
  | _ :: ws => (pathText ws).length :: locations ws

/-- **What has been written** are the components that are kept, and the stack says where. -/
structure Written (path : Str) (next : Nat) (ws : List Str) (s : NormalizeState) : Prop where
  length : s.data.length = path.length + 1
  str : s.str = (pathText ws).length
  text : s.data.take s.str = pathText ws
  stack : s.separatorLocations.elements = locations ws
  empty : s.separatorLocations.emptyType = -1
  room : s.str + 1 ≤ next

/-- One component: it is left out, takes the last one away, or is written. -/
theorem written_component {s : NormalizeState} (hs : Written path next ws s)
    (hcut : path.drop next = n ++ t) (hne : n ≠ []) :
    ∃ s', normalizeComponent path next (next + n.length) s = some s' ∧
      Written path (next + n.length + 1) (keepComponent ws n) s' := by
  have hpos := List.length_pos_iff.mpr hne
  have hlen := congrArg List.length hcut
  rw [List.length_drop, List.length_append] at hlen
  have hget : ∀ i, path[next + i]? = (n ++ t)[i]? := by
    intro i
    rw [← hcut, List.getElem?_drop]
  -- the two tests are for the names `.` and `..`
  have hdot : (next + n.length = next + 1 ∧ path[next]? = some '.'.toUInt8) ↔
      n = ['.'.toUInt8] := by
    rw [show path[next]? = (n ++ t)[0]? from hget 0]
    rcases n with _ | ⟨c, _ | ⟨d, n⟩⟩
    · exact absurd rfl hne
    · simp
    · simp
  have hdots : (next + n.length = next + 2 ∧ next + 1 < path.length ∧
      path[next]? = some '.'.toUInt8 ∧ path[next + 1]? = some '.'.toUInt8) ↔
        n = ['.'.toUInt8, '.'.toUInt8] := by
    rw [show path[next]? = (n ++ t)[0]? from hget 0, hget 1]
    rcases n with _ | ⟨c, _ | ⟨d, _ | ⟨e, n⟩⟩⟩
    · exact absurd rfl hne
    · simp
    · rw [List.length_cons, List.length_singleton] at hlen
      have hroom : next + 1 < path.length := by omega
      simp [hroom]
    · simp
  unfold normalizeComponent keepComponent
  by_cases h₁ : n = ['.'.toUInt8]
  · rw [if_pos (hdot.mpr h₁), if_pos h₁]
    exact ⟨s, rfl, hs.length, hs.str, hs.text, hs.stack, hs.empty, by have := hs.room; omega⟩
  · rw [if_neg (fun h => h₁ (hdot.mp h)), if_neg h₁]
    by_cases h₂ : n = ['.'.toUInt8, '.'.toUInt8]
    · rw [if_pos (hdots.mpr h₂), if_pos h₂]
      have hroom := hs.room
      rcases ws with _ | ⟨w, ws⟩
      · -- nothing is kept, and nothing has been written
        rw [BaseStack.pop_nil hs.stack, hs.empty]
        refine ⟨_, rfl, hs.length, rfl, ?_, hs.stack, hs.empty, by show 0 + 1 ≤ _; omega⟩
        show s.data.take 0 = []
        exact List.take_zero
      · obtain ⟨rest, hpop, hstack, hempty⟩ := BaseStack.pop_cons hs.stack
        have hshort : (pathText ws).length ≤ s.str := by
          rw [hs.str, pathText, List.length_append]
          exact Nat.le_add_right _ _
        rw [hpop]
        simp only
        rw [if_neg (by omega), Int.toNat_natCast]
        refine ⟨_, rfl, hs.length, rfl, ?_, hstack, hempty.trans hs.empty, ?_⟩
        · show s.data.take (pathText ws).length = pathText ws
          have htext := congrArg (List.take (pathText ws).length) hs.text
          rw [List.take_take, Nat.min_eq_left hshort, pathText, List.take_left] at htext
          exact htext
        · show (pathText ws).length + 1 ≤ _
          omega
    · rw [if_neg (fun h => h₂ (hdots.mp h)), if_neg h₂]
      have hroom := hs.room
      have hlength := hs.length
      obtain ⟨data, hwrite, hdata, htake⟩ :=
        writeBytes_take s.data s.str [dirSeparator] (by rw [List.length_singleton]; omega)
      rw [List.length_singleton] at htake
      obtain ⟨data', hwrite', hdata', htake'⟩ :=
        writeBytes_take data (s.str + 1) n (by omega)
      have hname : (path.drop next).take (next + n.length - next) = n := by
        rw [hcut, Nat.add_sub_cancel_left]
        exact List.take_left
      have htext : pathText (n :: ws) = pathText ws ++ [dirSeparator] ++ n := by
        rw [pathText, List.append_assoc]
        rfl
      rw [hwrite, hname, Nat.add_sub_cancel_left]
      simp only [Option.bind_eq_bind, Option.bind_some, hwrite']
      refine ⟨_, rfl, hdata'.trans (hdata.trans hs.length), ?_, ?_, ?_, ?_, ?_⟩
      · show s.str + 1 + n.length = _
        rw [htext, List.length_append, List.length_append, List.length_singleton, hs.str]
      · show data'.take (s.str + 1 + n.length) = _
        rw [htake', htake, hs.text, htext]
      · show (s.separatorLocations.push s.str).elements = _
        rw [BaseStack.elements_push, hs.stack, hs.str]
        rfl
      · show (s.separatorLocations.push s.str).emptyType = _
        rw [BaseStack.emptyType_push, hs.empty]
      · show s.str + 1 + n.length + 1 ≤ _
        omega

/-- **The loop** ends, with the rest of the path folded in. -/
theorem written_loop : ∀ (fuel next : Nat) (ws : List Str) (s : NormalizeState),
    path.length - next < fuel → next ≤ path.length → Written path next ws s →
    ∃ s', normalizeLoop path fuel next s = some s' ∧ Written path (path.length + 1)
      ((pathNames (path.drop next)).foldl keepComponent ws) s' := by
  intro fuel
  induction fuel with
  | zero =>
    intro next ws s hfuel
    omega
  | succ fuel ih =>
    intro next ws s hfuel hnext hs
    rw [normalizeLoop]
    have hdrop := skip_drop path next
    have hle : next ≤ skipSeparators path next := Nat.le_add_right _ _
    have hnames : pathNames (path.drop (skipSeparators path next)) = pathNames (path.drop next) := by
      rw [hdrop, pathNames_dropWhile]
    have hs' : Written path (skipSeparators path next) ws s :=
      ⟨hs.length, hs.str, hs.text, hs.stack, hs.empty, Nat.le_trans hs.room hle⟩
    simp only
    generalize skipSeparators path next = start at *
    by_cases hend : path.length ≤ start
    · rw [if_pos hend, ← hnames, List.drop_eq_nil_of_le hend]
      have hroom := hs.room
      exact ⟨s, rfl, hs.length, hs.str, hs.text, hs.stack, hs.empty, by omega⟩
    · rw [if_neg hend]
      obtain ⟨n, t, hcut, hn, ht⟩ := exists_component (path.drop start)
      have hlen := congrArg List.length hcut
      rw [List.length_drop, List.length_append] at hlen
      -- the separators are skipped, so the name is not empty
      have hne : n ≠ [] := by
        rintro rfl
        rw [List.nil_append] at hcut
        rcases ht with rfl | ⟨t', rfl⟩
        · have hnone : path.length - start = 0 := hlen
          omega
        · rw [hcut] at hdrop
          have hhead := List.head?_dropWhile_not (· == dirSeparator) (path.drop next)
          rw [← hdrop] at hhead
          simp at hhead
      have hpos := List.length_pos_iff.mpr hne
      rw [indexFrom_component hcut hne hn ht]
      obtain ⟨s₁, hrun, hs₁⟩ := written_component hs' hcut hne
      rw [hrun]
      simp only
      have hfold : (pathNames (path.drop next)).foldl keepComponent ws =
          (pathNames (path.drop (start + n.length + 1))).foldl keepComponent
            (keepComponent ws n) := by
        rw [← hnames, hcut, pathNames_component ⟨hne, hn⟩ ht, List.foldl_cons, ← List.drop_drop,
          ← List.drop_drop, hcut, List.drop_left]
      rw [hfold]
      by_cases hmore : start + n.length + 1 < path.length
      · rw [if_pos hmore]
        exact ih _ _ s₁ (by omega) (by omega) hs₁
      · rw [if_neg hmore, List.drop_eq_nil_of_le (by omega)]
        have hroom := hs₁.room
        exact ⟨s₁, rfl, hs₁.length, hs₁.str, hs₁.text, hs₁.stack, hs₁.empty, by omega⟩

/-! ## The normal form -/

/-- A component that is kept is a name, and neither of the two special ones. -/
def IsKept (n : Str) : Prop := FileName n ∧ n ≠ ['.'.toUInt8] ∧ n ≠ ['.'.toUInt8, '.'.toUInt8]

theorem foldl_keep_kept (ns : List Str) (hns : ∀ n ∈ ns, FileName n) :
    ∀ ws : List Str, (∀ w ∈ ws, IsKept w) → ∀ w ∈ ns.foldl keepComponent ws, IsKept w := by
  induction ns with
  | nil => exact fun ws hws => hws
  | cons n ns ih =>
    intro ws hws
    apply ih (fun m hm => hns m (List.mem_cons_of_mem _ hm))
    intro w hw
    unfold keepComponent at hw
    split at hw
    · exact hws w hw
    · next hdot =>
      split at hw
      · exact hws w (List.mem_of_mem_tail hw)
      · next hdots =>
        rcases List.mem_cons.mp hw with rfl | hw
        · exact ⟨hns w List.mem_cons_self, hdot, hdots⟩
        · exact hws w hw

/-- Components that are kept are kept again. -/
theorem foldl_keep_self (ns : List Str) (hns : ∀ n ∈ ns, IsKept n) :
    ∀ ws : List Str, ns.foldl keepComponent ws = ns.reverse ++ ws := by
  induction ns with
  | nil => exact fun _ => rfl
  | cons n ns ih =>
    intro ws
    obtain ⟨-, hdot, hdots⟩ := hns n List.mem_cons_self
    have hkeep : keepComponent ws n = n :: ws := by
      unfold keepComponent
      rw [if_neg hdot, if_neg hdots]
    rw [List.foldl_cons, hkeep, ih fun m hm => hns m (List.mem_cons_of_mem _ hm),
      List.reverse_cons, List.append_assoc]
    rfl

theorem keptComponents_kept (h : path.head? = some dirSeparator) :
    ∀ w ∈ keptComponents path, IsKept w :=
  foldl_keep_kept _ (directoriesOf_pathNames h).fileNames [] fun _ hw => nomatch hw

theorem head?_chainPath (ws : List Str) : (chainPath ws).head? = some dirSeparator := by
  rcases ws with _ | ⟨w, ws⟩
  · rfl
  · exact head?_pathText w ws

/-- The text of components has just these. -/
theorem keptComponents_chainPath (hws : ∀ w ∈ ws, IsKept w) :
    keptComponents (chainPath ws) = ws := by
  have hnames : pathNames (chainPath ws) = ws.reverse := by
    rcases ws with _ | ⟨w, ws⟩
    · rfl
    · have htext : chainPath (w :: ws) = filePath (w :: ws).reverse := by
        rw [← pathText_reverse, List.reverse_reverse]
        rfl
      rw [htext]
      exact pathNames_names fun n hn => (hws n (List.mem_reverse.mp hn)).1
  unfold keptComponents
  rw [hnames, foldl_keep_self _ fun n hn => hws n (List.mem_reverse.mp hn), List.reverse_reverse,
    List.append_nil]

theorem normalForm_normalForm (h : path.head? = some dirSeparator) :
    normalForm (normalForm path) = normalForm path := by
  unfold normalForm
  rw [keptComponents_chainPath (keptComponents_kept h)]

/-- **`normalizePath` computes the normal form**, and writes inside its buffer alone. -/
theorem normalizePath_ok (memory : Nat → UInt8) (h : path.head? = some dirSeparator) :
    normalizePath memory path = .ok (normalForm path) ∧
      (normalForm path).length ≤ path.length := by
  rcases path with _ | ⟨c, path⟩
  · cases h
  · obtain rfl : c = dirSeparator := Option.some.inj h
    generalize hpath : dirSeparator :: path = p at *
    have hpos : 1 ≤ p.length := by
      rw [← hpath, List.length_cons]
      omega
    let s₀ : NormalizeState :=
      { data := (List.range (p.length + 1)).map memory
        str := 0
        separatorLocations := .create (max 3 (p.length / 5)) (-1) }
    have hstart : Written p 1 [] s₀ := by
      refine ⟨?_, rfl, List.take_zero, rfl, rfl, Nat.le_refl _⟩
      show ((List.range (p.length + 1)).map memory).length = _
      rw [List.length_map, List.length_range]
    obtain ⟨s, hrun, hs⟩ := written_loop p.length 1 [] s₀ (by omega) hpos hstart
    have hkept : (pathNames (p.drop 1)).foldl keepComponent [] = keptComponents p := by
      unfold keptComponents
      rw [← hpath]
      exact congrArg (List.foldl keepComponent []) (pathNamesFrom_separator [] path).symm
    rw [hkept] at hs
    have hroom := hs.room
    have hlength := hs.length
    unfold normalizePath
    rw [if_neg (not_not.mpr h)]
    simp only
    rw [hrun]
    simp only [Option.bind_eq_bind, Option.bind_some]
    unfold normalForm chainPath
    by_cases hnone : keptComponents p = []
    · -- nothing is kept, and the separator alone is written
      have hzero : s.str = 0 := by
        rw [hs.str, hnone]
        rfl
      obtain ⟨data, hwrite, hdata, htake⟩ :=
        writeBytes_take s.data 0 [dirSeparator] (by rw [List.length_singleton]; omega)
      obtain ⟨data', hwrite', -, -⟩ :=
        writeBytes_take data 1 [0] (by rw [List.length_singleton]; omega)
      rw [if_pos hzero, if_pos hnone, hwrite]
      simp only [Option.map_some, Option.bind_some, hwrite']
      rw [writeBytes_keeps hwrite', show (1 : Nat) = 0 + [dirSeparator].length from rfl, htake]
      exact ⟨rfl, hpos⟩
    · have hne : s.str ≠ 0 := by
        rw [hs.str]
        intro hzero
        rcases hws : keptComponents p with _ | ⟨w, ws⟩
        · exact hnone hws
        · rw [hws, pathText] at hzero
          exact absurd (List.append_eq_nil_iff.mp (List.length_eq_zero_iff.mp hzero)).2
            (List.cons_ne_nil _ _)
      obtain ⟨data, hwrite, -, -⟩ :=
        writeBytes_take s.data s.str [0] (by rw [List.length_singleton]; omega)
      rw [if_neg hne, if_neg hnone]
      simp only [Option.bind_some, hwrite]
      rw [writeBytes_keeps hwrite, hs.text, ← hs.str]
      exact ⟨rfl, by omega⟩

/-- **`normalizePath`** returns the components folded from the left, within the length of the path,
    and gives its own result back. -/
theorem normalizePath_eq (memory : Nat → UInt8) (h : path.head? = some dirSeparator) :
    normalizePath memory path = .ok (normalForm path) ∧
      (normalForm path).length ≤ path.length ∧
      ∀ memory', normalizePath memory' (normalForm path) = .ok (normalForm path) := by
  obtain ⟨hrun, hlength⟩ := normalizePath_ok memory h
  refine ⟨hrun, hlength, fun memory' => ?_⟩
  obtain ⟨hagain, -⟩ := @normalizePath_ok (normalForm path) memory' (head?_chainPath _)
  rw [hagain, normalForm_normalForm h]

/-- More `..` than components. -/
theorem normalizePath_eq_dots : normalizePath (fun _ => 0) (str "/a/.././..//b/./c/..") =
    .ok (normalForm (str "/a/.././..//b/./c/..")) ∧
      (normalForm (str "/a/.././..//b/./c/..")).length ≤ (str "/a/.././..//b/./c/..").length ∧
      ∀ memory', normalizePath memory' (normalForm (str "/a/.././..//b/./c/..")) =
        .ok (normalForm (str "/a/.././..//b/./c/..")) :=
  normalizePath_eq (fun _ => 0) (by decide)

example : normalForm (str "/a/.././..//b/./c/..") = str "/b" := by decide

end

end MediaTomb
