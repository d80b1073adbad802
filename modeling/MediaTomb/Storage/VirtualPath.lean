/-
  Virtual paths: titles joined by separators, and taken apart again.

  A chain of virtual containers travels as one string.  Each title is ESCAPED (a backslash before
  each backslash and each separator) and the titles are joined by `/`.
  `stripAndUnescapeVirtualContainerFromPath` undoes the last step: it looks for the last separator
  that no escape character precedes.

  Two things go wrong with that, and only these two:
    * the backslash before a separator may itself be an escaped one: a title that ENDS in a
      backslash swallows the separator after it;
    * a path with one separator takes a short cut and does not unescape at all.
-/
import MediaTomb.Storage.Container

namespace MediaTomb

/-! ## The last position of a character -/

section

variable {ch : UInt8} {s : Str} {i k last : Nat}

theorem rindex_spec (h : rindex ch s = some i) :
    s[i]? = some ch ∧ ∀ j, i < j → s[j]? ≠ some ch := by
  unfold rindex at h
  obtain ⟨m, hm, rfl⟩ := Option.map_eq_some_iff.mp h
  obtain ⟨hlt, hp, hbefore⟩ := List.findIdx?_eq_some_iff_getElem.mp hm
  rw [List.length_reverse] at hlt
  have hget : s[s.length - 1 - m]? = some ch := by
    rw [List.getElem_reverse] at hp
    rw [List.getElem?_eq_getElem (by omega)]
    simpa using hp
  refine ⟨hget, fun j hj hjch => ?_⟩
  have hjlt : j < s.length := (List.getElem?_eq_some_iff.mp hjch).1
  have hnot := hbefore (s.length - 1 - j) (by omega)
  rw [List.getElem_reverse] at hnot
  have hback : s.length - 1 - (s.length - 1 - j) = j := by omega
  simp only [hback] at hnot
  rw [List.getElem?_eq_getElem hjlt] at hjch
  exact hnot (by simpa using hjch)

theorem rindex_of_mem (h : ch ∈ s) : ∃ i, rindex ch s = some i := by
  unfold rindex
  rcases hf : s.reverse.findIdx? (· == ch) with _ | m
  · have hnone := List.findIdx?_eq_none_iff.mp hf ch (List.mem_reverse.mpr h)
    simp at hnone
  · exact ⟨_, rfl⟩

theorem rindex_none (h : ch ∉ s) : rindex ch s = none := by
  rcases hr : rindex ch s with _ | i
  · rfl
  · exact absurd (List.mem_of_getElem? (rindex_spec hr).1) h

/-- The last position is at or after any other one. -/
theorem le_rindex (h : rindex ch s = some i) (hk : s[k]? = some ch) : k ≤ i := by
  by_contra hlt
  exact (rindex_spec h).2 k (by omega) hk

theorem rindexFrom_of_getElem (hlast : last < s.length) (hk : s[k]? = some ch) (hle : k ≤ last) :
    ∃ i, rindexFrom last ch s = some i ∧ k ≤ i ∧ i ≤ last ∧ s[i]? = some ch := by
  have hk' : (s.take (last + 1))[k]? = some ch := by
    rw [List.getElem?_take_of_lt (by omega), hk]
  obtain ⟨i, hi⟩ := rindex_of_mem (List.mem_of_getElem? hk')
  have hlt : i < (s.take (last + 1)).length := rindex_lt hi
  rw [List.length_take] at hlt
  have hget := (rindex_spec hi).1
  rw [List.getElem?_take_of_lt (by omega)] at hget
  refine ⟨i, ?_, le_rindex hi hk', by omega, hget⟩
  unfold rindexFrom
  rw [if_neg (by omega)]
  exact hi

end

/-! ## Escaped titles -/

/-- `escape(title, VIRTUAL_CONTAINER_ESCAPE, VIRTUAL_CONTAINER_SEPARATOR)`. -/
def escapeTitle (title : Str) : Str := escape virtualContainerEscape virtualContainerSeparator title

theorem escapeTitle_special {c : UInt8} {t : Str}
    (h : c = virtualContainerEscape ∨ c = virtualContainerSeparator) :
    escapeTitle (c :: t) = virtualContainerEscape :: c :: escapeTitle t := by
  rcases h with rfl | rfl <;> rfl

theorem escapeTitle_plain {c : UInt8} {t : Str} (hesc : c ≠ virtualContainerEscape)
    (hsep : c ≠ virtualContainerSeparator) : escapeTitle (c :: t) = c :: escapeTitle t := by
  unfold escapeTitle
  rw [escape]
  simp [hesc, hsep]

theorem unescape_escaped (c : UInt8) (r : Str) :
    unescape virtualContainerEscape (virtualContainerEscape :: c :: r) =
      c :: unescape virtualContainerEscape r := rfl

theorem unescape_plain {c : UInt8} (r : Str) (h : c ≠ virtualContainerEscape) :
    unescape virtualContainerEscape (c :: r) = c :: unescape virtualContainerEscape r := by
  rcases r with _ | ⟨d, r⟩
  · simp [unescape, h]
  · rw [unescape]
    simp [h]

/-- **Unescaping undoes escaping.** -/
theorem unescape_escapeTitle (t : Str) : unescape virtualContainerEscape (escapeTitle t) = t := by
  induction t with
  | nil => rfl
  | cons c t ih =>
    by_cases hesc : c = virtualContainerEscape
    · rw [escapeTitle_special (Or.inl hesc), unescape_escaped, ih]
    · by_cases hsep : c = virtualContainerSeparator
      · rw [escapeTitle_special (Or.inr hsep), unescape_escaped, ih]
      · rw [escapeTitle_plain hesc hsep, unescape_plain _ hesc, ih]

/-- Only backslashes are dropped. -/
theorem mem_unescape {c : UInt8} (hc : c ≠ virtualContainerEscape) : ∀ {w : Str}, c ∈ w →
    c ∈ unescape virtualContainerEscape w
  | [], h => absurd h List.not_mem_nil
  | d :: r, h => by
    by_cases hd : d = virtualContainerEscape
    · have hr : c ∈ r := (List.mem_cons.mp h).resolve_left fun heq => hc (heq.trans hd)
      rcases r with _ | ⟨e, r⟩
      · exact absurd hr List.not_mem_nil
      · rw [hd, unescape_escaped]
        rcases List.mem_cons.mp hr with rfl | hr
        · exact List.mem_cons_self
        · exact List.mem_cons_of_mem _ (mem_unescape hc hr)
    · rw [unescape_plain r hd]
      rcases List.mem_cons.mp h with rfl | hr
      · exact List.mem_cons_self
      · exact List.mem_cons_of_mem _ (mem_unescape hc hr)

theorem mem_escapeTitle {c : UInt8} {t : Str} (h : c ≠ virtualContainerEscape) :
    c ∈ escapeTitle t ↔ c ∈ t := by
  induction t with
  | nil => rfl
  | cons d t ih =>
    by_cases hspecial : d = virtualContainerEscape ∨ d = virtualContainerSeparator
    · rw [escapeTitle_special hspecial, List.mem_cons, List.mem_cons, List.mem_cons, ih]
      simp [h]
    · have hd := not_or.mp hspecial
      rw [escapeTitle_plain hd.1 hd.2, List.mem_cons, List.mem_cons, ih]

theorem escapeTitle_append (u v : Str) : escapeTitle (u ++ v) = escapeTitle u ++ escapeTitle v := by
  induction u with
  | nil => rfl
  | cons c u ih =>
    by_cases hspecial : c = virtualContainerEscape ∨ c = virtualContainerSeparator
    · rw [List.cons_append, escapeTitle_special hspecial, escapeTitle_special hspecial, ih]
      rfl
    · have hc := not_or.mp hspecial
      rw [List.cons_append, escapeTitle_plain hc.1 hc.2, escapeTitle_plain hc.1 hc.2, ih]
      rfl

theorem length_le_escapeTitle (t : Str) : t.length ≤ (escapeTitle t).length := by
  induction t with
  | nil => exact Nat.le_refl _
  | cons c t ih =>
    by_cases hspecial : c = virtualContainerEscape ∨ c = virtualContainerSeparator
    · rw [escapeTitle_special hspecial]
      simp only [List.length_cons]
      omega
    · have hc := not_or.mp hspecial
      rw [escapeTitle_plain hc.1 hc.2]
      simp only [List.length_cons]
      omega

/-- Without a separator, a title is its own escaped form exactly when it has no backslash. -/
theorem escapeTitle_eq_self {t : Str} (hsep : virtualContainerSeparator ∉ t) :
    escapeTitle t = t ↔ virtualContainerEscape ∉ t := by
  constructor
  · intro heq hmem
    obtain ⟨a, b, rfl⟩ := List.append_of_mem hmem
    have hlong := congrArg List.length heq
    rw [escapeTitle_append, escapeTitle_special (Or.inl rfl)] at hlong
    have ha := length_le_escapeTitle a
    have hb := length_le_escapeTitle b
    simp only [List.length_append, List.length_cons] at hlong
    omega
  · intro hesc
    induction t with
    | nil => rfl
    | cons c t ih =>
      have hc : c ≠ virtualContainerEscape := fun h => hesc (h ▸ List.mem_cons_self)
      have hc' : c ≠ virtualContainerSeparator := fun h => hsep (h ▸ List.mem_cons_self)
      rw [escapeTitle_plain hc hc', ih (fun h => hsep (List.mem_cons_of_mem _ h))
        fun h => hesc (List.mem_cons_of_mem _ h)]

/-- Each separator of the text comes after a backslash. -/
def EscapedSeparators (w : Str) : Prop :=
  ∀ i, w[i]? = some virtualContainerSeparator →
    ∃ j, i = j + 1 ∧ w[j]? = some virtualContainerEscape

theorem escapedSeparators_escapeTitle (t : Str) : EscapedSeparators (escapeTitle t) := by
  induction t with
  | nil =>
    intro i h
    cases h
  | cons c t ih =>
    intro i h
    by_cases hspecial : c = virtualContainerEscape ∨ c = virtualContainerSeparator
    · rw [escapeTitle_special hspecial] at h ⊢
      rcases i with _ | _ | i
      · exact absurd (Option.some.inj h) (by decide)
      · exact ⟨0, rfl, rfl⟩
      · obtain ⟨j, rfl, hj⟩ := ih i h
        exact ⟨j + 2, rfl, hj⟩
    · have hc := not_or.mp hspecial
      rw [escapeTitle_plain hc.1 hc.2] at h ⊢
      rcases i with _ | i
      · exact absurd (Option.some.inj h) hc.2
      · obtain ⟨j, rfl, hj⟩ := ih i h
        exact ⟨j + 1, rfl, hj⟩

/-- An escaped title ends in a backslash exactly when the title does. -/
theorem getLast?_escapeTitle (t : Str) : (escapeTitle t).getLast? = t.getLast? := by
  rcases List.eq_nil_or_concat t with rfl | ⟨u, c, rfl⟩
  · rfl
  · rw [List.concat_eq_append]
    have hlast : (escapeTitle [c]).getLast? = some c := by
      by_cases hspecial : c = virtualContainerEscape ∨ c = virtualContainerSeparator
      · rw [escapeTitle_special hspecial]
        rfl
      · have hc := not_or.mp hspecial
        rw [escapeTitle_plain hc.1 hc.2]
        rfl
    rw [escapeTitle_append, List.getLast?_append, hlast, List.getLast?_append]
    rfl

/-! ## The last separator of a path -/

section

variable {pre w : Str}

theorem getElem?_after (i : Nat) :
    (pre ++ virtualContainerSeparator :: w)[pre.length + 1 + i]? = w[i]? := by
  rw [List.getElem?_append_right (by omega)]
  have hidx : pre.length + 1 + i - pre.length = i + 1 := by omega
  rw [hidx]
  rfl

theorem getElem?_separator :
    (pre ++ virtualContainerSeparator :: w)[pre.length]? = some virtualContainerSeparator := by
  rw [List.getElem?_append_right (Nat.le_refl _), Nat.sub_self]
  rfl

/-- **The walk back reaches the separator before the component**: every separator inside it is
    passed over. -/
theorem unescapedSeparator_reaches (pre : Str) {w : Str} (hw : EscapedSeparators w) :
    ∀ fuel sep, sep ≤ fuel → pre.length ≤ sep →
      (pre ++ virtualContainerSeparator :: w)[sep]? = some virtualContainerSeparator →
      ∃ fuel', pre.length ≤ fuel' ∧
        unescapedSeparator (pre ++ virtualContainerSeparator :: w) fuel sep =
          unescapedSeparator (pre ++ virtualContainerSeparator :: w) fuel' pre.length := by
  intro fuel
  induction fuel with
  | zero =>
    intro sep hfuel hpre _
    have hsep : sep = pre.length := by omega
    exact ⟨0, by omega, by rw [hsep]⟩
  | succ fuel ih =>
    intro sep hfuel hpre hget
    by_cases heq : sep = pre.length
    · exact ⟨fuel + 1, by omega, by rw [heq]⟩
    · -- inside the component: a backslash stands before this separator
      obtain ⟨i, rfl⟩ := Nat.exists_eq_add_of_le (show pre.length + 1 ≤ sep by omega)
      rw [getElem?_after] at hget
      obtain ⟨j, rfl, hj⟩ := hw i hget
      have hlt : j + 1 < w.length := (List.getElem?_eq_some_iff.mp hget).1
      have hback : pre.length + 1 + (j + 1) - 1 = pre.length + 1 + j := by omega
      have hesc : (pre ++ virtualContainerSeparator :: w)[
          pre.length + 1 + (j + 1) - 1]? = some virtualContainerEscape := by
        rw [hback, getElem?_after]
        exact hj
      obtain ⟨k, hk, hle, hle', hgetk⟩ := rindexFrom_of_getElem (k := pre.length)
        (show pre.length + 1 + (j + 1) - 1 <
            (pre ++ virtualContainerSeparator :: w).length by
          simp only [List.length_append, List.length_cons]
          omega)
        getElem?_separator (by omega)
      rw [unescapedSeparator, if_pos ⟨by omega, hesc⟩, hk, Option.getD_some]
      exact ih k (by omega) hle hgetk

/-! ## Taking off the last component -/

/-- The only component: one unescaped separator, and the short cut when it is the only one at
    all. -/
theorem strip_only (hw : EscapedSeparators w) :
    stripAndUnescapeVirtualContainerFromPath (virtualContainerSeparator :: w) =
      .ok ([virtualContainerSeparator],
        if virtualContainerSeparator ∈ w then unescape virtualContainerEscape w else w) := by
  unfold stripAndUnescapeVirtualContainerFromPath
  rw [if_neg (by simp)]
  obtain ⟨last, hlast⟩ := rindex_of_mem
    (show virtualContainerSeparator ∈ virtualContainerSeparator :: w by simp)
  rw [hlast]
  obtain ⟨hget, hafter⟩ := rindex_spec hlast
  split_ifs with hmem
  · -- the last separator belongs to the component
    obtain ⟨i, hi⟩ := List.getElem?_of_mem hmem
    have hle := le_rindex hlast (show (virtualContainerSeparator :: w)[i + 1]? =
      some virtualContainerSeparator from hi)
    obtain ⟨last, rfl⟩ := Nat.exists_eq_add_of_le' (show 1 ≤ last by omega)
    obtain ⟨fuel, -, hwalk⟩ := unescapedSeparator_reaches [] hw (last + 1) (last + 1)
      (Nat.le_refl _) (Nat.zero_le _) hget
    have hzero : unescapedSeparator (virtualContainerSeparator :: w) (last + 1) (last + 1) = 0 :=
      hwalk.trans (Nat.le_zero.mp (unescapedSeparator_le _ fuel 0))
    simp only [hzero]
    rfl
  · rcases last with _ | last
    · rfl
    · have hin : w[last]? = some virtualContainerSeparator := hget
      exact absurd (List.mem_of_getElem? hin) hmem

/-- The walk back from the last separator of all. -/
theorem strip_walk (hw : EscapedSeparators w)
    (hhead : pre.head? = some virtualContainerSeparator) :
    ∃ fuel, stripAndUnescapeVirtualContainerFromPath (pre ++ virtualContainerSeparator :: w) =
      match unescapedSeparator (pre ++ virtualContainerSeparator :: w) (fuel + 1) pre.length with
      | 0 => .ok ([virtualContainerSeparator],
          unescape virtualContainerEscape ((pre ++ virtualContainerSeparator :: w).drop 1))
      | sep => .ok ((pre ++ virtualContainerSeparator :: w).take sep,
          unescape virtualContainerEscape
            ((pre ++ virtualContainerSeparator :: w).drop (sep + 1))) := by
  have hpos : 0 < pre.length := by
    rcases pre with _ | ⟨d, pre⟩
    · cases hhead
    · exact Nat.succ_pos _
  have hhead' : (pre ++ virtualContainerSeparator :: w).head? =
      some virtualContainerSeparator := by
    rw [List.head?_append, hhead]
    rfl
  obtain ⟨last, hlast⟩ := rindex_of_mem
    (show virtualContainerSeparator ∈ pre ++ virtualContainerSeparator :: w by simp)
  have hle := le_rindex hlast getElem?_separator
  obtain ⟨last, rfl⟩ := Nat.exists_eq_add_of_le' (show 1 ≤ last by omega)
  obtain ⟨fuel, hfuel, hwalk⟩ := unescapedSeparator_reaches pre hw (last + 1) (last + 1)
    (Nat.le_refl _) hle (rindex_spec hlast).1
  obtain ⟨fuel, rfl⟩ := Nat.exists_eq_add_of_le' (show 1 ≤ fuel by omega)
  refine ⟨fuel, ?_⟩
  unfold stripAndUnescapeVirtualContainerFromPath
  rw [if_neg (not_not.mpr hhead'), hlast]
  cases hsep : unescapedSeparator (pre ++ virtualContainerSeparator :: w) (fuel + 1) pre.length with
  | zero => simp only [hwalk, hsep]
  | succ sep => simp only [hwalk, hsep]

/-- A later component comes off when the text before it does not end in a backslash. -/
theorem strip_last (hw : EscapedSeparators w) (hhead : pre.head? = some virtualContainerSeparator)
    (hend : pre.getLast? ≠ some virtualContainerEscape) :
    stripAndUnescapeVirtualContainerFromPath (pre ++ virtualContainerSeparator :: w) =
      .ok (pre, unescape virtualContainerEscape w) := by
  obtain ⟨fuel, hstrip⟩ := strip_walk hw hhead
  have hpos : 0 < pre.length := by
    rcases pre with _ | ⟨d, pre⟩
    · cases hhead
    · exact Nat.succ_pos _
  have hbefore : (pre ++ virtualContainerSeparator :: w)[pre.length - 1]? = pre.getLast? := by
    rw [List.getElem?_append_left (by omega), List.getLast?_eq_getElem?]
  rw [hstrip, unescapedSeparator, hbefore, if_neg fun h => hend h.2]
  split
  · next hzero => omega
  · rw [List.take_left, ← List.drop_drop, List.drop_left]
    rfl

/-- What is left of a path behind a position before the separator has the separator in it. -/
theorem mem_unescape_drop {n : Nat} (hn : n ≤ pre.length) : virtualContainerSeparator ∈
    unescape virtualContainerEscape ((pre ++ virtualContainerSeparator :: w).drop n) := by
  apply mem_unescape (by decide)
  rw [List.drop_append_of_le_length hn]
  exact List.mem_append_right _ List.mem_cons_self

/-- A backslash at the end of the text before swallows the separator, which ends up in the
    title. -/
theorem strip_swallowed (hw : EscapedSeparators w)
    (hhead : pre.head? = some virtualContainerSeparator)
    (hend : pre.getLast? = some virtualContainerEscape) :
    ∃ newpath title, stripAndUnescapeVirtualContainerFromPath
        (pre ++ virtualContainerSeparator :: w) = .ok (newpath, title) ∧
      newpath.length < pre.length ∧ virtualContainerSeparator ∈ title := by
  obtain ⟨fuel, hstrip⟩ := strip_walk hw hhead
  have hlong : 1 < pre.length := by
    rcases pre with _ | ⟨d, _ | ⟨e, pre⟩⟩
    · cases hhead
    · cases hhead
      exact absurd (Option.some.inj hend) (by decide)
    · simp only [List.length_cons]
      omega
  have hbefore : (pre ++ virtualContainerSeparator :: w)[pre.length - 1]? = pre.getLast? := by
    rw [List.getElem?_append_left (by omega), List.getLast?_eq_getElem?]
  have hshort : unescapedSeparator (pre ++ virtualContainerSeparator :: w) fuel
      ((rindexFrom (pre.length - 1) virtualContainerSeparator
        (pre ++ virtualContainerSeparator :: w)).getD 0) < pre.length := by
    refine Nat.lt_of_le_of_lt (unescapedSeparator_le _ fuel _) ?_
    obtain ⟨k, hk, -, hkle, -⟩ := rindexFrom_of_getElem (k := 0)
      (show pre.length - 1 < (pre ++ virtualContainerSeparator :: w).length by
        rw [List.length_append]
        omega)
      (show (pre ++ virtualContainerSeparator :: w)[0]? = some virtualContainerSeparator by
        rw [← List.head?_eq_getElem?, List.head?_append, hhead]
        rfl) (Nat.zero_le _)
    rw [hk, Option.getD_some]
    omega
  rw [hstrip, unescapedSeparator, hbefore, if_pos ⟨by omega, hend⟩]
  generalize unescapedSeparator _ fuel _ = sep at hshort ⊢
  split
  · exact ⟨_, _, rfl, hlong, mem_unescape_drop (Nat.le_of_lt hlong)⟩
  · refine ⟨_, _, rfl, ?_, mem_unescape_drop hshort⟩
    rw [List.length_take]
    omega

end

/-! ## Paths of titles -/

/-- The titles, escaped, each behind a separator. -/
def virtualPath (titles : List Str) : Str :=
  titles.flatMap fun t => virtualContainerSeparator :: escapeTitle t

/-- The path of the container below these titles; `/` for none. -/
def containerPath (titles : List Str) : Str :=
  if titles = [] then [virtualContainerSeparator] else virtualPath titles

theorem virtualPath_concat (ts : List Str) (t : Str) :
    virtualPath (ts ++ [t]) = virtualPath ts ++ virtualContainerSeparator :: escapeTitle t := by
  unfold virtualPath
  rw [List.flatMap_append]
  simp

theorem containerPath_concat (ts : List Str) (t : Str) :
    containerPath (ts ++ [t]) = virtualPath ts ++ virtualContainerSeparator :: escapeTitle t := by
  unfold containerPath
  rw [if_neg (by simp), virtualPath_concat]

theorem head?_containerPath (ts : List Str) :
    (containerPath ts).head? = some virtualContainerSeparator := by
  rcases ts with _ | ⟨t, ts⟩
  · rfl
  · rfl

/-- A path ends in a backslash exactly when its last title does. -/
theorem getLast?_virtualPath (ts : List Str) (t : Str) :
    (virtualPath (ts ++ [t])).getLast? = some virtualContainerEscape ↔
      t.getLast? = some virtualContainerEscape := by
  rw [virtualPath_concat, List.getLast?_append, List.getLast?_cons, getLast?_escapeTitle]
  rcases t.getLast? with _ | c
  · exact ⟨fun h => absurd (Option.some.inj h) (by decide), fun h => (nomatch h)⟩
  · exact Iff.rfl

/-! ## Taking a path apart -/

/-- The first title: one separator, and the short cut. -/
theorem strip_first (t : Str) :
    stripAndUnescapeVirtualContainerFromPath (containerPath [t]) =
      .ok ([virtualContainerSeparator],
        if virtualContainerSeparator ∈ t then t else escapeTitle t) := by
  have hpath : containerPath [t] = virtualContainerSeparator :: escapeTitle t :=
    containerPath_concat [] t
  have hmem : virtualContainerSeparator ∈ escapeTitle t ↔ virtualContainerSeparator ∈ t :=
    mem_escapeTitle (by decide)
  rw [hpath, strip_only (escapedSeparators_escapeTitle t), unescape_escapeTitle]
  simp only [hmem]

/-- A later title comes off exactly when the title before it does not end in a backslash. -/
theorem strip_later (ts : List Str) (t u : Str) :
    stripAndUnescapeVirtualContainerFromPath (containerPath (ts ++ [t] ++ [u])) =
        .ok (containerPath (ts ++ [t]), u) ↔
      t.getLast? ≠ some virtualContainerEscape := by
  have hpre : containerPath (ts ++ [t]) = virtualPath (ts ++ [t]) := by
    unfold containerPath
    rw [if_neg (by simp)]
  have hhead : (virtualPath (ts ++ [t])).head? = some virtualContainerSeparator := by
    rw [← hpre]
    exact head?_containerPath _
  rw [containerPath_concat, hpre, ne_eq, ← getLast?_virtualPath ts t]
  constructor
  · intro heq hend
    obtain ⟨newpath, title, hstrip, hlt, -⟩ :=
      strip_swallowed (escapedSeparators_escapeTitle u) hhead hend
    rw [hstrip] at heq
    injection heq with hpair
    have hfirst : newpath = virtualPath (ts ++ [t]) := congrArg Prod.fst hpair
    rw [hfirst] at hlt
    exact absurd hlt (Nat.lt_irrefl _)
  · intro hend
    rw [strip_last (escapedSeparators_escapeTitle u) hhead hend, unescape_escapeTitle]

/-- Title by title: stripping the path of the first titles leaves the path of those before, and the
    title itself. -/
def TakenApart (titles : List Str) : Prop :=
  ∀ ts t, ts ++ [t] <+: titles →
    stripAndUnescapeVirtualContainerFromPath (containerPath (ts ++ [t])) =
      .ok (containerPath ts, t)

/-- What the titles have to be like: the first one has a separator if it has a backslash, and none
    but the last ends in a backslash. -/
def Separable (titles : List Str) : Prop :=
  (∀ t, titles.head? = some t → virtualContainerEscape ∈ t → virtualContainerSeparator ∈ t) ∧
    ∀ t ∈ titles.dropLast, t.getLast? ≠ some virtualContainerEscape

theorem strip_first_iff (t : Str) :
    stripAndUnescapeVirtualContainerFromPath (containerPath [t]) = .ok (containerPath [], t) ↔
      (virtualContainerEscape ∈ t → virtualContainerSeparator ∈ t) := by
  have hnone : containerPath [] = [virtualContainerSeparator] := rfl
  rw [strip_first, hnone]
  split_ifs with hsep
  · exact ⟨fun _ _ => hsep, fun _ => rfl⟩
  · have hself := escapeTitle_eq_self hsep
    constructor
    · intro heq hesc
      injection heq with hpair
      exact absurd hesc (hself.mp (congrArg Prod.snd hpair))
    · intro himp
      rw [hself.mpr fun hesc => hsep (himp hesc)]

theorem mem_dropLast {titles : List Str} {t : Str} :
    t ∈ titles.dropLast ↔ ∃ ts u, ts ++ [t] ++ [u] <+: titles := by
  constructor
  · intro hmem
    obtain ⟨a, b, hab⟩ := List.append_of_mem hmem
    have hne : titles ≠ [] := by
      rintro rfl
      cases hmem
    have hwhole := List.dropLast_append_getLast hne
    rw [hab] at hwhole
    rcases b with _ | ⟨u, b⟩
    · exact ⟨a, _, [], by rw [List.append_nil]; exact hwhole⟩
    · exact ⟨a, u, b ++ [titles.getLast hne], by simpa using hwhole⟩
  · rintro ⟨ts, u, rest, rfl⟩
    rw [List.append_assoc, List.dropLast_append_of_ne_nil (by simp)]
    simp

/-- **When a virtual path comes apart again.**  Exactly when the first title has a separator or no
    backslash, and no title before the last ends in a backslash. -/
theorem virtualPath_takenApart_iff (titles : List Str) : TakenApart titles ↔ Separable titles := by
  constructor
  · intro h
    refine ⟨fun t hhead => ?_, fun t hmem => ?_⟩
    · rcases titles with _ | ⟨t', rest⟩
      · cases hhead
      · cases hhead
        exact (strip_first_iff t).mp (h [] t ⟨rest, rfl⟩)
    · obtain ⟨ts, u, hpre⟩ := mem_dropLast.mp hmem
      exact (strip_later ts t u).mp (h (ts ++ [t]) u hpre)
  · intro h ts t hpre
    rcases List.eq_nil_or_concat ts with rfl | ⟨ts, t₀, rfl⟩
    · obtain ⟨rest, rfl⟩ := hpre
      exact (strip_first_iff t).mpr (h.1 t rfl)
    · rw [List.concat_eq_append] at hpre ⊢
      exact (strip_later ts t₀ t).mpr (h.2 t₀ (mem_dropLast.mpr ⟨ts, t, hpre⟩))

/-- `AC\DC` alone keeps both backslashes of its path, and `a\` swallows the title after it. -/
theorem virtualPath_backslash_lost :
    ¬ TakenApart [str "AC\\DC"] ∧ ¬ TakenApart [str "x/a\\", str "b"] := by
  constructor
  · intro h
    have hstrip := h [] (str "AC\\DC") (List.prefix_refl _)
    revert hstrip
    decide +kernel
  · intro h
    have hstrip := h [str "x/a\\"] (str "b") (List.prefix_refl _)
    revert hstrip
    decide +kernel

end MediaTomb
