/-
  Paths of directories.

  A path is read the plain way here: a separator ends a name, a run of separators is one, and one at
  the end adds nothing (`pathNames`).  `filePath` writes names back with one separator before each;
  the code cleans every absolute path into that form before it looks at it (`DirectoriesOf`).
-/
import MediaTomb.Storage.PathComponents

namespace MediaTomb

/-! ## Names -/

/-- A name in the file system. -/
structure FileName (n : Str) : Prop where
  ne_nil : n ≠ []
  no_separator : dirSeparator ∉ n

section

variable {n w : Str} {ws : List Str}

theorem FileName.not_mem (h : FileName n) : virtualContainerSeparator ∉ n := h.no_separator

theorem FileName.escapedSeparators (h : FileName n) : EscapedSeparators n := by
  intro i hi
  exact absurd (List.mem_of_getElem? hi) h.not_mem

theorem FileName.escapeTitle (h : FileName n) : FileName (escapeTitle n) := by
  constructor
  · intro hnil
    have hlong := length_le_escapeTitle n
    rw [hnil] at hlong
    exact h.ne_nil (List.length_eq_zero_iff.mp (Nat.le_zero.mp hlong))
  · intro hmem
    exact h.no_separator ((mem_escapeTitle (by decide)).mp hmem)

/-- A path of names is reduced. -/
theorem noDouble_pathText : ∀ ws : List Str, (∀ w ∈ ws, FileName w) →
    NoDouble virtualContainerSeparator (pathText ws) ∧
      (ws ≠ [] → (pathText ws).getLast? ≠ some virtualContainerSeparator) := by
  intro ws
  induction ws with
  | nil => exact fun _ => ⟨List.IsChain.nil, fun h => absurd rfl h⟩
  | cons w ws ih =>
    intro hws
    obtain ⟨hchain, hend⟩ := ih fun v hv => hws v (List.mem_cons_of_mem _ hv)
    have hw := hws w List.mem_cons_self
    have hno : ∀ a ∈ w, a ≠ virtualContainerSeparator :=
      fun a ha heq => hw.not_mem (heq ▸ ha)
    have hlast : (pathText (w :: ws)).getLast? ≠ some virtualContainerSeparator := by
      rw [pathText, List.getLast?_append, List.getLast?_cons]
      intro h
      rcases hget : w.getLast? with _ | a
      · exact hw.ne_nil (List.getLast?_eq_none_iff.mp hget)
      · rw [hget] at h
        exact hno a (List.mem_of_getLast? hget) (Option.some.inj h)
    refine ⟨?_, fun _ => hlast⟩
    unfold NoDouble
    rw [pathText, List.isChain_append]
    refine ⟨hchain, ?_, ?_⟩
    · -- the separator, and the name behind it
      have hname : w.IsChain fun a b =>
          ¬ (a = virtualContainerSeparator ∧ b = virtualContainerSeparator) := by
        apply List.Pairwise.isChain
        exact List.pairwise_of_forall_mem_list fun a ha b _ h => hno a ha h.1
      rcases w with _ | ⟨a, w⟩
      · exact List.IsChain.singleton _
      · exact List.IsChain.cons_cons (fun h => hno a List.mem_cons_self h.2) hname
    · intro a ha b hb h
      have hwsne : ws ≠ [] := by
        rintro rfl
        cases ha
      exact hend hwsne (h.1 ▸ ha)

theorem reduce_pathText (hws : ∀ w ∈ ws, FileName w) :
    reduce virtualContainerSeparator (pathText ws) = pathText ws :=
  reduce_eq_self (noDouble_pathText ws hws).1

end

/-! ## Absolute paths -/

/-- An absolute path: each name behind a separator. -/
def filePath (names : List Str) : Str := names.flatMap fun n => dirSeparator :: n

theorem filePath_append (ns ms : List Str) : filePath (ns ++ ms) = filePath ns ++ filePath ms :=
  List.flatMap_append

theorem filePath_concat (ns : List Str) (n : Str) :
    filePath (ns ++ [n]) = filePath ns ++ dirSeparator :: n := by
  rw [filePath_append]
  show filePath ns ++ (dirSeparator :: n ++ []) = _
  rw [List.append_nil]

/-- The virtual path of the same components. -/
theorem pathText_reverse (ns : List Str) : pathText ns.reverse = filePath ns := by
  induction ns using List.reverseRecOn with
  | nil => rfl
  | append_singleton ns n ih =>
    rw [List.reverse_append, List.reverse_singleton, List.singleton_append, pathText, ih,
      filePath_concat]
    rfl

/-- The last separator stands before the last name. -/
theorem rindex_concat {pre w : Str} (hw : dirSeparator ∉ w) :
    rindex dirSeparator (pre ++ dirSeparator :: w) = some pre.length := by
  obtain ⟨i, hi⟩ := rindex_of_mem
    (show dirSeparator ∈ pre ++ dirSeparator :: w from
      List.mem_append_right _ List.mem_cons_self)
  have hle : pre.length ≤ i := le_rindex hi getElem?_separator
  have hget := (rindex_spec hi).1
  rcases Nat.lt_or_ge pre.length i with hlt | hge
  · obtain ⟨j, rfl⟩ := Nat.exists_eq_add_of_le (show pre.length + 1 ≤ i by omega)
    have hin : w[j]? = some dirSeparator := by
      rw [← hget]
      exact (getElem?_after j).symm
    exact absurd (List.mem_of_getElem? hin) hw
  · rw [hi, Nat.le_antisymm hge hle]

/-! ## The names of a path -/

/-- The names in what is left; `cur` is what has been read of the one it begins in. -/
def pathNamesFrom : Str → Str → List Str
  | cur, [] => component cur
  | cur, c :: r =>
    if c = dirSeparator then component cur ++ pathNamesFrom [] r
    else pathNamesFrom (cur ++ [c]) r

/-- **The names of a path.** -/
def pathNames (path : Str) : List Str := pathNamesFrom [] path

/-- A path of these names: it is them, once it is reduced, but for a separator at the end. -/
structure DirectoriesOf (path : Str) (names : List Str) : Prop where
  fileNames : ∀ n ∈ names, FileName n
  reduced : reduce dirSeparator path = filePath names ∧ names ≠ [] ∨
    reduce dirSeparator path = filePath names ++ [dirSeparator]

section

variable {path cur w : Str} {names : List Str}

theorem pathNamesFrom_separator (cur r : Str) :
    pathNamesFrom cur (dirSeparator :: r) = component cur ++ pathNamesFrom [] r := by
  rw [pathNamesFrom, if_pos rfl]

/-- A run of separators is one. -/
theorem pathNamesFrom_reduce : ∀ (s cur : Str),
    pathNamesFrom cur (reduce dirSeparator s) = pathNamesFrom cur s
  | [], _ => rfl
  | [_], _ => rfl
  | c :: d :: r, cur => by
    have ih := pathNamesFrom_reduce (d :: r)
    rw [reduce]
    split
    · next h =>
      rw [Bool.and_eq_true, beq_iff_eq, beq_iff_eq] at h
      rw [ih, h.1, h.2, pathNamesFrom_separator, pathNamesFrom_separator,
        pathNamesFrom_separator]
      rfl
    · rw [pathNamesFrom, pathNamesFrom.eq_def cur (c :: d :: r)]
      simp only [ih]

/-- A name is read as a whole. -/
theorem pathNamesFrom_name (hw : dirSeparator ∉ w) : ∀ cur r : Str,
    pathNamesFrom cur (w ++ r) = pathNamesFrom (cur ++ w) r := by
  induction w with
  | nil =>
    intro cur r
    rw [List.nil_append, List.append_nil]
  | cons c w ih =>
    intro cur r
    have hc : c ≠ dirSeparator := fun h => hw (h ▸ List.mem_cons_self)
    rw [List.cons_append, pathNamesFrom, if_neg hc,
      ih (fun h => hw (List.mem_cons_of_mem _ h)), List.append_assoc]
    rfl

/-- **Names that are written are read back**, whatever separators stand behind them. -/
theorem pathNames_filePath (h : ∀ n ∈ names, FileName n) (r : Str) :
    pathNames (filePath names ++ dirSeparator :: r) = names ++ pathNames r := by
  induction names with
  | nil => exact pathNamesFrom_separator [] r
  | cons n ns ih =>
    have hn := h n List.mem_cons_self
    have hrest := ih fun m hm => h m (List.mem_cons_of_mem _ hm)
    have hsplit : filePath (n :: ns) ++ dirSeparator :: r =
        dirSeparator :: (n ++ (filePath ns ++ dirSeparator :: r)) := by
      show (dirSeparator :: n ++ filePath ns) ++ dirSeparator :: r = _
      rw [List.append_assoc]
      rfl
    have hhead : ∃ t, filePath ns ++ dirSeparator :: r = dirSeparator :: t := by
      rcases ns with _ | ⟨m, ns⟩
      · exact ⟨r, rfl⟩
      · exact ⟨_, rfl⟩
    obtain ⟨t, ht⟩ := hhead
    have hcomponent : component n = [n] := if_neg hn.ne_nil
    have hread : pathNames t = ns ++ pathNames r := by
      rw [← hrest, ht]
      exact (pathNamesFrom_separator [] t).symm
    unfold pathNames
    rw [hsplit, pathNamesFrom_separator, pathNamesFrom_name hn.no_separator, List.nil_append, ht,
      pathNamesFrom_separator, hcomponent]
    show [] ++ ([n] ++ pathNames t) = _
    rw [hread]
    rfl

/-- The names of the path they make. -/
theorem pathNames_names (h : ∀ n ∈ names, FileName n) : pathNames (filePath names) = names := by
  rcases List.eq_nil_or_concat names with rfl | ⟨ns, n, rfl⟩
  · rfl
  · rw [List.concat_eq_append] at h ⊢
    have hn := h n (by simp)
    have hns := pathNames_filePath (fun m hm => h m (List.mem_append_left _ hm)) n
    have hlastName : pathNames n = [n] := by
      have hwhole := pathNamesFrom_name hn.no_separator [] []
      rw [List.append_nil, List.nil_append] at hwhole
      unfold pathNames
      rw [hwhole, pathNamesFrom]
      exact if_neg hn.ne_nil
    rw [filePath_concat, hns, hlastName]

/-- A text without doubled separators, with one at the front and none at the end, is one of
    names. -/
theorem exists_filePath : ∀ (k : Nat) (s : Str), s.length ≤ k → NoDouble dirSeparator s →
    s.head? = some dirSeparator → s.getLast? ≠ some dirSeparator →
    ∃ names, (∀ n ∈ names, FileName n) ∧ names ≠ [] ∧ s = filePath names := by
  intro k
  induction k with
  | zero =>
    intro s hlen _ hhead
    rw [List.length_eq_zero_iff.mp (Nat.le_zero.mp hlen)] at hhead
    cases hhead
  | succ k ih =>
    intro s hlen hdouble hhead hlast
    have hmem : dirSeparator ∈ s := List.mem_of_head? hhead
    obtain ⟨pre, w, hs, hw⟩ : ∃ pre w, s = pre ++ dirSeparator :: w ∧ dirSeparator ∉ w := by
      obtain ⟨a, b, hab, hb⟩ := List.eq_append_cons_of_mem (List.mem_reverse.mpr hmem)
      refine ⟨b.reverse, a.reverse, ?_, fun h => hb (List.mem_reverse.mp h)⟩
      have hrev := congrArg List.reverse hab
      rw [List.reverse_reverse, List.reverse_append, List.reverse_cons, List.append_assoc] at hrev
      exact hrev
    have hne : w ≠ [] := by
      rintro rfl
      rw [hs] at hlast
      exact hlast (getLast?_snoc pre dirSeparator)
    have hname : FileName w := ⟨hne, hw⟩
    rcases hpre : pre with _ | ⟨c, r⟩
    · refine ⟨[w], fun n hn => List.mem_singleton.mp hn ▸ hname, List.cons_ne_nil _ _, ?_⟩
      rw [hs, hpre]
      exact (filePath_concat [] w).symm
    · have hchain := hdouble
      unfold NoDouble at hchain
      rw [hs, List.isChain_append] at hchain
      obtain ⟨hleft, -, hjoin⟩ := hchain
      have hend : pre.getLast? ≠ some dirSeparator :=
        fun h => hjoin dirSeparator h dirSeparator rfl ⟨rfl, rfl⟩
      have hfront : pre.head? = some dirSeparator := by
        rw [hs, hpre] at hhead
        rw [hpre]
        exact hhead
      have hshort : pre.length ≤ k := by
        rw [hs, List.length_append, List.length_cons] at hlen
        omega
      obtain ⟨ns, hns, -, hpath⟩ := ih pre hshort hleft hfront hend
      refine ⟨ns ++ [w], fun n hn => ?_, by simp, ?_⟩
      · rcases List.mem_append.mp hn with hn | hn
        · exact hns n hn
        · exact List.mem_singleton.mp hn ▸ hname
      · rw [hs, filePath_concat, hpath]

/-- **Every absolute path is one of its names.** -/
theorem directoriesOf_pathNames (h : path.head? = some dirSeparator) :
    DirectoriesOf path (pathNames path) := by
  have hhead := (head?_reduce dirSeparator path).trans h
  have hdouble := noDouble_reduce dirSeparator path
  have hread : pathNames path = pathNames (reduce dirSeparator path) :=
    (pathNamesFrom_reduce path []).symm
  rw [hread]
  have hempty : pathNames [] = [] := rfl
  by_cases hlast : (reduce dirSeparator path).getLast? = some dirSeparator
  · -- a separator stands at the end
    rcases List.eq_nil_or_concat (reduce dirSeparator path) with hnil | ⟨s, c, hs⟩
    · rw [hnil] at hhead
      cases hhead
    · rw [List.concat_eq_append] at hs
      rw [hs, getLast?_snoc] at hlast
      obtain rfl := Option.some.inj hlast
      have hnames : ∃ names, (∀ n ∈ names, FileName n) ∧ s = filePath names := by
        rcases hs' : s with _ | ⟨d, r⟩
        · exact ⟨[], fun n hn => (nomatch hn), rfl⟩
        · rw [hs, NoDouble, List.isChain_append] at hdouble
          obtain ⟨hleft, -, hjoin⟩ := hdouble
          have hend : s.getLast? ≠ some dirSeparator :=
            fun hend => hjoin dirSeparator hend dirSeparator rfl ⟨rfl, rfl⟩
          have hfront : s.head? = some dirSeparator := by
            rw [hs, hs'] at hhead
            rw [hs']
            exact hhead
          obtain ⟨names, hnames, -, hpath⟩ := exists_filePath s.length s (Nat.le_refl _) hleft
            hfront hend
          exact ⟨names, hnames, hs' ▸ hpath⟩
      obtain ⟨names, hnames, rfl⟩ := hnames
      have hback := pathNames_filePath hnames []
      rw [hempty, List.append_nil] at hback
      rw [hs, hback]
      exact ⟨hnames, .inr hs⟩
  · obtain ⟨names, hnames, hne, hpath⟩ := exists_filePath _ _ (Nat.le_refl _) hdouble hhead hlast
    rw [hpath, pathNames_names hnames]
    exact ⟨hnames, .inl ⟨hpath, hne⟩⟩

end

end MediaTomb
