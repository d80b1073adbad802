/-
  The components of a virtual path.

  `components` says what a virtual path MEANS, whatever the code makes of it: a backslash and the
  character after it belong together, each other separator ends a component, and a component
  without any character is none.  So runs of separators and a trailing one add nothing.

  `pathText` writes components back with one separator before each.  The code looks containers up
  by its own normal form, `reduce`, which knows nothing of backslashes.
-/
import MediaTomb.Storage.VirtualPath

namespace MediaTomb

/-! ## `reduce` leaves no two of the character side by side -/

section

variable {ch : UInt8} {s : Str}

/-- No two of the character side by side. -/
def NoDouble (ch : UInt8) (s : Str) : Prop := s.IsChain fun a b => ¬ (a = ch ∧ b = ch)

theorem mem_reduce (ch a : UInt8) : ∀ s : Str, a ∈ reduce ch s ↔ a ∈ s
  | [] => Iff.rfl
  | [_] => Iff.rfl
  | c :: d :: r => by
    have ih := mem_reduce ch a (d :: r)
    rw [reduce]
    split
    · next h =>
      rw [Bool.and_eq_true, beq_iff_eq, beq_iff_eq] at h
      rw [ih, List.mem_cons (a := a) (b := c), h.1, h.2]
      simp
    · rw [List.mem_cons, ih, List.mem_cons (a := a) (b := c)]

theorem head?_reduce (ch : UInt8) : ∀ s : Str, (reduce ch s).head? = s.head?
  | [] => rfl
  | [_] => rfl
  | c :: d :: r => by
    have ih := head?_reduce ch (d :: r)
    rw [reduce]
    split
    · next h =>
      rw [Bool.and_eq_true, beq_iff_eq, beq_iff_eq] at h
      rw [ih, h.1, h.2]
      rfl
    · rfl

theorem noDouble_reduce (ch : UInt8) : ∀ s : Str, NoDouble ch (reduce ch s)
  | [] => List.IsChain.nil
  | [c] => List.IsChain.singleton c
  | c :: d :: r => by
    have ih := noDouble_reduce ch (d :: r)
    rw [reduce]
    split
    · exact ih
    · next h =>
      have hhead := head?_reduce ch (d :: r)
      rcases hr : reduce ch (d :: r) with _ | ⟨e, t⟩
      · exact List.IsChain.singleton c
      · rw [hr] at ih hhead
        obtain rfl : e = d := Option.some.inj hhead
        refine List.IsChain.cons_cons ?_ ih
        rintro ⟨hc, he⟩
        rw [hc, he, beq_self_eq_true, Bool.and_self] at h
        exact h rfl

theorem reduce_eq_self : ∀ {s : Str}, NoDouble ch s → reduce ch s = s
  | [], _ => rfl
  | [_], _ => rfl
  | c :: d :: r, h => by
    obtain ⟨hcd, hrest⟩ := List.isChain_cons_cons.mp h
    rw [reduce, if_neg, reduce_eq_self hrest]
    rw [Bool.and_eq_true, beq_iff_eq, beq_iff_eq]
    exact hcd

/-- What is reduced already is its own reduced form, and so is each text it begins with. -/
theorem reduce_of_append {t : Str} (h : reduce ch (s ++ t) = s ++ t) : reduce ch s = s := by
  apply reduce_eq_self
  have hst := noDouble_reduce ch (s ++ t)
  rw [h] at hst
  exact hst.left_of_append

theorem reduce_reduce : reduce ch (reduce ch s) = reduce ch s := reduce_eq_self (noDouble_reduce ch s)

theorem reduce_take (n : Nat) (h : reduce ch s = s) : reduce ch (s.take n) = s.take n := by
  apply reduce_of_append (t := s.drop n)
  rw [List.take_append_drop]
  exact h

/-- A text shrinks to the character alone exactly if it has no other. -/
theorem reduce_eq_singleton : reduce ch s = [ch] ↔ s ≠ [] ∧ ∀ a ∈ s, a = ch := by
  constructor
  · intro h
    constructor
    · rintro rfl
      cases h
    · intro a ha
      have hin := (mem_reduce ch a s).mpr ha
      rw [h] at hin
      exact List.mem_singleton.mp hin
  · rintro ⟨hne, hall⟩
    have hall' : ∀ a ∈ reduce ch s, a = ch := fun a ha => hall a ((mem_reduce ch a s).mp ha)
    have hchain := noDouble_reduce ch s
    rcases hr : reduce ch s with _ | ⟨c, _ | ⟨d, t⟩⟩
    · rcases s with _ | ⟨a, s⟩
      · exact absurd rfl hne
      · have hhead := head?_reduce ch (a :: s)
        rw [hr] at hhead
        cases hhead
    · rw [hr] at hall'
      rw [hall' c List.mem_cons_self]
    · rw [hr] at hall' hchain
      have hc := hall' c List.mem_cons_self
      have hd := hall' d (List.mem_cons_of_mem _ List.mem_cons_self)
      exact absurd ⟨hc, hd⟩ (List.isChain_cons_cons.mp hchain).1

end

/-! ## Components -/

/-- A component, if it has any character. -/
def component (cur : Str) : List Str := if cur = [] then [] else [cur]

/-- The components of what is left; `cur` is what has been read of the one it begins in, and
    `escaped` says that a backslash was the last of it. -/
def componentsFrom : Str → Bool → Str → List Str
  | cur, _, [] => component cur
  | cur, escaped, c :: r =>
    if escaped then componentsFrom (cur ++ [c]) false r
    else if c = virtualContainerEscape then componentsFrom (cur ++ [c]) true r
    else if c = virtualContainerSeparator then component cur ++ componentsFrom [] false r
    else componentsFrom (cur ++ [c]) false r

/-- **The components of a path**, still escaped. -/
def components (path : Str) : List Str := componentsFrom [] false path

/-- The components, each behind a separator; the last one comes first in the list. -/
def pathText : List Str → Str
  | [] => []
  | w :: ws => pathText ws ++ virtualContainerSeparator :: w

/-- The path of the container below the components; the separator alone for none. -/
def chainPath (ws : List Str) : Str := if ws = [] then [virtualContainerSeparator] else pathText ws

theorem chainPath_cons (w : Str) (ws : List Str) :
    chainPath (w :: ws) = pathText ws ++ virtualContainerSeparator :: w := by
  unfold chainPath
  rw [if_neg (List.cons_ne_nil _ _), pathText]

theorem head?_pathText (w : Str) (ws : List Str) :
    (pathText (w :: ws)).head? = some virtualContainerSeparator := by
  induction ws generalizing w with
  | nil => rfl
  | cons v ws ih =>
    rw [pathText, List.head?_append, ih]
    rfl

theorem escapedSeparators_nil : EscapedSeparators [] := by
  intro i h
  cases h

/-- One more character: it is no separator, or a backslash comes before it. -/
theorem EscapedSeparators.snoc {w : Str} {c : UInt8} (hw : EscapedSeparators w)
    (hc : c = virtualContainerSeparator → w.getLast? = some virtualContainerEscape) :
    EscapedSeparators (w ++ [c]) := by
  intro i hi
  rcases Nat.lt_trichotomy i w.length with hlt | rfl | hgt
  · rw [List.getElem?_append_left hlt] at hi
    obtain ⟨j, rfl, hj⟩ := hw i hi
    exact ⟨j, rfl, by rw [List.getElem?_append_left (by omega)]; exact hj⟩
  · rw [List.getElem?_append_right (Nat.le_refl _), Nat.sub_self] at hi
    have hlast := hc (Option.some.inj hi)
    rw [List.getLast?_eq_getElem?] at hlast
    have hlt := (List.getElem?_eq_some_iff.mp hlast).1
    exact ⟨w.length - 1, by omega, by rw [List.getElem?_append_left hlt]; exact hlast⟩
  · rw [List.getElem?_eq_none (by simp only [List.length_append, List.length_singleton]; omega)]
      at hi
    cases hi

theorem mem_component {cur w : Str} (h : w ∈ component cur) : w = cur ∧ w ≠ [] := by
  unfold component at h
  split at h
  · cases h
  · next hne =>
    obtain rfl := List.mem_singleton.mp h
    exact ⟨rfl, hne⟩

theorem component_eq_nil {cur : Str} : component cur = [] ↔ cur = [] := by
  unfold component
  split
  · next h => exact ⟨fun _ => h, fun _ => rfl⟩
  · next h => exact ⟨fun h' => (nomatch h'), fun h' => absurd h' h⟩

theorem getLast?_snoc (w : Str) (c : UInt8) : (w ++ [c]).getLast? = some c := by simp

/-- **A component** has characters, and only escaped separators. -/
theorem componentsFrom_mem (s : Str) : ∀ (cur : Str) (escaped : Bool), EscapedSeparators cur →
    (escaped = true → cur.getLast? = some virtualContainerEscape) →
    ∀ w ∈ componentsFrom cur escaped s, EscapedSeparators w ∧ w ≠ [] := by
  induction s with
  | nil =>
    intro cur escaped hcur _ w hw
    obtain ⟨rfl, hne⟩ := mem_component hw
    exact ⟨hcur, hne⟩
  | cons c r ih =>
    intro cur escaped hcur hlast w hw
    rw [componentsFrom] at hw
    split at hw
    · next hesc =>
      exact ih _ false (hcur.snoc fun _ => hlast hesc) (fun h => (nomatch h)) w hw
    · split at hw
      · next hc =>
        refine ih _ _ (hcur.snoc fun h => ?_) (fun _ => ?_) w hw
        · rw [hc] at h
          exact absurd h (by decide)
        · rw [getLast?_snoc, hc]
      · split at hw
        · rcases List.mem_append.mp hw with hw | hw
          · obtain ⟨rfl, hne⟩ := mem_component hw
            exact ⟨hcur, hne⟩
          · exact ih _ false escapedSeparators_nil (fun h => (nomatch h)) w hw
        · next hc =>
          exact ih _ false (hcur.snoc fun h => absurd h hc) (fun h => (nomatch h)) w hw

theorem components_mem {path w : Str} (h : w ∈ components path) : EscapedSeparators w ∧ w ≠ [] :=
  componentsFrom_mem path [] false escapedSeparators_nil (fun h => (nomatch h)) w h

/-- What has been begun is a component. -/
theorem componentsFrom_ne_nil (s : Str) : ∀ (cur : Str) (escaped : Bool), cur ≠ [] →
    componentsFrom cur escaped s ≠ [] := by
  induction s with
  | nil =>
    intro cur escaped hcur h
    exact hcur (component_eq_nil.mp h)
  | cons c r ih =>
    intro cur escaped hcur
    have hmore : cur ++ [c] ≠ [] := by simp
    rw [componentsFrom]
    split
    · exact ih _ _ hmore
    · split
      · exact ih _ _ hmore
      · split
        · intro h
          exact hcur (component_eq_nil.mp (List.append_eq_nil_iff.mp h).1)
        · exact ih _ _ hmore

/-- A path without components is one of separators. -/
theorem components_eq_nil (s : Str) :
    components s = [] ↔ ∀ c ∈ s, c = virtualContainerSeparator := by
  unfold components
  induction s with
  | nil => exact ⟨fun _ c hc => absurd hc List.not_mem_nil, fun _ => rfl⟩
  | cons c r ih =>
    rw [componentsFrom, if_neg Bool.false_ne_true, List.forall_mem_cons]
    split
    · next hc =>
      refine ⟨fun h => absurd h (componentsFrom_ne_nil r _ _ (by simp)), fun h => ?_⟩
      rw [hc] at h
      exact absurd h.1 (by decide)
    · split
      · next hc =>
        rw [← ih]
        exact ⟨fun h => ⟨hc, h⟩, fun h => h.2⟩
      · next hc =>
        exact ⟨fun h => absurd h (componentsFrom_ne_nil r _ _ (by simp)), fun h => absurd h.1 hc⟩

/-- A path is reduced to the separator exactly if it has no components. -/
theorem reduce_eq_separator {path : Str} (h : path ≠ []) :
    reduce virtualContainerSeparator path = [virtualContainerSeparator] ↔
      components path = [] := by
  rw [reduce_eq_singleton, components_eq_nil]
  exact ⟨fun hs => hs.2, fun hs => ⟨h, hs⟩⟩

/-! ## Unescaping -/

theorem unescape_length_le : ∀ w : Str, (unescape virtualContainerEscape w).length ≤ w.length
  | [] => Nat.le_refl _
  | [c] => by
    rw [unescape]
    split
    · exact Nat.zero_le _
    · exact Nat.le_refl _
  | c :: d :: r => by
    have ih := unescape_length_le r
    have ih' := unescape_length_le (d :: r)
    rw [unescape]
    split
    · simp only [List.length_cons]
      omega
    · simp only [List.length_cons] at ih' ⊢
      omega

/-- A component is its own title exactly if it has no backslash. -/
theorem unescape_eq_self : ∀ {w : Str},
    unescape virtualContainerEscape w = w ↔ virtualContainerEscape ∉ w
  | [] => ⟨fun _ => List.not_mem_nil, fun _ => rfl⟩
  | c :: r => by
    by_cases hc : c = virtualContainerEscape
    · constructor
      · intro h
        have hlong := congrArg List.length h
        rcases r with _ | ⟨d, r⟩
        · simp [unescape, hc] at hlong
        · have hle := unescape_length_le r
          rw [hc, unescape_escaped] at hlong
          simp only [List.length_cons] at hlong
          omega
      · intro h
        exact absurd (hc ▸ List.mem_cons_self) h
    · rw [unescape_plain r hc, List.mem_cons, not_or, List.cons.injEq,
        unescape_eq_self (w := r)]
      exact ⟨fun h => ⟨fun heq => hc heq.symm, h.2⟩, fun h => ⟨rfl, h.2⟩⟩

end MediaTomb
