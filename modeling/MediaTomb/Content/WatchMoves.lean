/-
  `AutoscanInotify::removeWatchMoves` (`autoscan_inotify.cc`): nobody waits for a directory to be
  moved any more.

  For each autoscan, every directory above it has a MOVE WATCH that names its descriptor.  They are
  looked for upwards, along the parents, and in each list from the front: `removeUnordered` puts the
  last watch of the list in the place of the one that goes, and the loop does not look at that place
  again.

    * one move watch in a list always goes;
    * of several, those go that are not put in the place of another: `LastFree`;
    * no other watch ever goes.

  Watches are registered once for each time the autoscan is monitored, so there may be several.
-/
import MediaTomb.ArrayBase
import MediaTomb.Lib.Ancestry
import MediaTomb.Lib.Machine
import MediaTomb.Content.AutoscanInotify

namespace MediaTomb.AutoscanInotify

open Lib Lib.Machine ArrayBase

/-! ## The method -/

/-- A move watch for the descriptor. -/
def isMoveFor (wd : Int) : Watch → Bool
  | .move removeWd => removeWd = wd
  | .autoscan _ _ _ _ _ => false

/-- The loop over `wdWatches`, from `i` on, and whether `removeWatch` was called. -/
def sweepFrom (wd : Int) : Nat → Nat → List Watch → List Watch × Bool
  | 0, _, wdWatches => (wdWatches, false)
  | fuel + 1, i, wdWatches =>
    match wdWatches[i]? with
    | none => (wdWatches, false)
    | some watch =>
      if isMoveFor wd watch then
        if wdWatches.length = 1 then ((sweepFrom wd fuel (i + 1) wdWatches).1, true)
        else sweepFrom wd fuel (i + 1) (removeUnordered wdWatches i)
      else sweepFrom wd fuel (i + 1) wdWatches

def sweep (wd : Int) (wdWatches : List Watch) : List Watch × Bool :=
  sweepFrom wd wdWatches.length 0 wdWatches

/-- The loop over the watches of `checkWd`. -/
def State.sweepAt (wd checkWd : Int) (s : State) : State :=
  match s.watches checkWd with
  | none => s
  | some wdObj =>
    let swept := sweep wd wdObj.wdWatches
    let s' := s.put checkWd { wdObj with wdWatches := swept.1 }
    if swept.2 then s'.removeWatch checkWd else s'

/-- The loop over the parents; `none` where it has not come to an end. -/
def removeWatchMovesFrom (wd : Int) : Nat → Bool → Int → State → Option State
  | 0, _, _, _ => none
  | fuel + 1, first, checkWd, s =>
    match s.watches checkWd with
    | none => some s
    | some wdObj =>
      let s' := if first then s else s.sweepAt wd checkWd
      if 0 ≤ wdObj.parentWd then removeWatchMovesFrom wd fuel false wdObj.parentWd s' else some s'

def removeWatchMoves (fuel : Nat) (wd : Int) (s : State) : Option State :=
  removeWatchMovesFrom wd fuel true wd s

/-! ## One list -/

/-- Without a move watch for the descriptor. -/
def Free (wd : Int) (wdWatches : List Watch) : Prop :=
  ∀ watch ∈ wdWatches, isMoveFor wd watch = false

/-- **Of `m` move watches, none is among the last `m - 1` watches of the list.** -/
def LastFree (wd : Int) (wdWatches : List Watch) : Prop :=
  Free wd (wdWatches.rtake (wdWatches.countP (isMoveFor wd) - 1))

/-- The other watches. -/
def others (wd : Int) (wdWatches : List Watch) : List Watch :=
  wdWatches.filter fun watch => !isMoveFor wd watch

section

variable {wd : Int} {watch : Watch} {watches done rest : List Watch} {fuel i : Nat}

theorem free_cons : Free wd (watch :: watches) ↔ isMoveFor wd watch = false ∧ Free wd watches :=
  List.forall_mem_cons

theorem free_append_single :
    Free wd (watches ++ [watch]) ↔ Free wd watches ∧ isMoveFor wd watch = false := by
  unfold Free
  rw [List.forall_mem_append, List.forall_mem_singleton]

theorem rtake_cons (h : i ≤ watches.length) : (watch :: watches).rtake i = watches.rtake i := by
  unfold List.rtake
  have hlength : (watch :: watches).length - i = watches.length - i + 1 := by
    rw [List.length_cons]
    omega
  rw [hlength, List.drop_succ_cons]

theorem lastFree_nil : LastFree wd [] := fun _ hmem => by
  rw [List.rtake_nil] at hmem
  cases hmem

/-- One move watch is no trouble. -/
theorem lastFree_of_count (h : watches.countP (isMoveFor wd) ≤ 1) : LastFree wd watches := by
  intro other hmem
  rw [Nat.sub_eq_zero_of_le h, List.rtake_zero] at hmem
  cases hmem

theorem lastFree_cons_other (h : isMoveFor wd watch = false) :
    LastFree wd (watch :: watches) ↔ LastFree wd watches := by
  have hnot : ¬ isMoveFor wd watch = true := by
    rw [h]
    exact Bool.false_ne_true
  have hle := List.countP_le_length (p := isMoveFor wd) (l := watches)
  unfold LastFree
  rw [List.countP_cons_of_neg hnot, rtake_cons (by omega)]

/-- A move watch goes, and the last watch of the list comes in its place. -/
theorem lastFree_cons_move {last : Watch} (h : isMoveFor wd watch = true) :
    LastFree wd (watch :: (watches ++ [last])) ↔
      isMoveFor wd last = false ∧ LastFree wd watches := by
  have hle := List.countP_le_length (p := isMoveFor wd) (l := watches)
  have hcount : (watch :: (watches ++ [last])).countP (isMoveFor wd) - 1 =
      watches.countP (isMoveFor wd) + if isMoveFor wd last = true then 1 else 0 := by
    rw [List.countP_cons_of_pos h, List.countP_append, List.countP_singleton]
    omega
  unfold LastFree
  rw [hcount, ← List.cons_append]
  cases hlast : isMoveFor wd last with
  | true =>
    rw [if_pos rfl, List.rtake_concat_succ, free_append_single, hlast]
    exact ⟨fun hboth => absurd hboth.2 Bool.true_eq_false.mp, fun hboth => (nomatch hboth.1)⟩
  | false =>
    rw [if_neg Bool.false_ne_true, Nat.add_zero]
    cases hk : watches.countP (isMoveFor wd) with
    | zero =>
      rw [List.rtake_zero, List.rtake_zero]
      exact ⟨fun hfree => ⟨rfl, hfree⟩, fun hboth => hboth.2⟩
    | succ k =>
      rw [List.rtake_concat_succ, free_append_single, hlast, rtake_cons (by omega),
        Nat.add_sub_cancel]
      exact and_comm

theorem sweepFrom_outside (h : watches.length ≤ i) :
    sweepFrom wd fuel i watches = (watches, false) := by
  cases fuel with
  | zero => rfl
  | succ fuel =>
    unfold sweepFrom
    rw [List.getElem?_eq_none h]

theorem others_append (watches more : List Watch) :
    others wd (watches ++ more) = others wd watches ++ others wd more := List.filter_append ..

theorem others_perm {more : List Watch} (h : watches.Perm more) :
    (others wd watches).Perm (others wd more) := h.filter _

theorem others_cons_move (h : isMoveFor wd watch = true) :
    others wd (watch :: watches) = others wd watches := by
  unfold others
  rw [List.filter_cons_of_neg]
  rw [h]
  exact Bool.false_ne_true

/-- **The loop over one list.** -/
theorem sweepFrom_spec (hfuel : rest.length ≤ fuel) (hsingle : done ≠ [] ∨ rest.length ≠ 1) :
    ∃ left, sweepFrom wd fuel done.length (done ++ rest) = (left, false) ∧
      (others wd left).Perm (others wd (done ++ rest)) ∧
      (Free wd left ↔ Free wd done ∧ LastFree wd rest) := by
  induction fuel generalizing done rest with
  | zero =>
    rw [List.length_eq_zero_iff.mp (Nat.le_zero.mp hfuel), List.append_nil]
    exact ⟨done, rfl, List.Perm.refl _, fun hfree => ⟨hfree, lastFree_nil⟩, fun hboth => hboth.1⟩
  | succ fuel ih =>
    cases rest with
    | nil =>
      rw [List.append_nil, sweepFrom_outside (Nat.le_refl _)]
      exact ⟨done, rfl, List.Perm.refl _, fun hfree => ⟨hfree, lastFree_nil⟩, fun hboth => hboth.1⟩
    | cons watch rest =>
      have hrest : rest.length ≤ fuel := Nat.le_of_succ_le_succ hfuel
      have hget : (done ++ watch :: rest)[done.length]? = some watch := by
        rw [List.getElem?_append_right (Nat.le_refl _), Nat.sub_self, List.getElem?_cons_zero]
      have hone : ∀ last : Watch, (done ++ [last]).length = done.length + 1 := fun last => by
        rw [List.length_append, List.length_singleton]
      unfold sweepFrom
      simp only [hget]
      by_cases hmove : isMoveFor wd watch = true
      · have hlength : (done ++ watch :: rest).length ≠ 1 := by
          rw [List.length_append, List.length_cons]
          rcases hsingle with hne | hne
          · have hpos := List.length_pos_iff.mpr hne
            omega
          · rw [List.length_cons] at hne
            omega
        rw [if_pos hmove, if_neg hlength]
        rcases List.eq_nil_or_concat rest with rfl | ⟨init, last, rfl⟩
        · -- the move watch is the last of the list
          rw [removeUnordered_last, sweepFrom_outside (Nat.le_succ _)]
          refine ⟨done, rfl, ?_, fun hfree => ⟨hfree, lastFree_of_count ?_⟩, fun hboth => hboth.1⟩
          · rw [others_append, others_cons_move hmove]
            exact List.Perm.of_eq (List.append_nil _).symm
          · exact List.countP_le_length
        · rw [List.concat_eq_append] at hrest ⊢
          rw [removeUnordered_middle]
          have hinit : init.length ≤ fuel := by
            rw [List.length_append, List.length_singleton] at hrest
            omega
          obtain ⟨left, hleft, hperm, hfree⟩ := @ih (done ++ [last]) init hinit
            (Or.inl (List.append_ne_nil_of_right_ne_nil _ (List.cons_ne_nil _ _)))
          rw [hone, List.append_assoc, List.singleton_append] at hleft
          refine ⟨left, hleft, hperm.trans ?_, ?_⟩
          · have hgone : others wd (done ++ watch :: (init ++ [last])) =
                others wd done ++ others wd (init ++ [last]) := by
              rw [others_append, others_cons_move hmove]
            rw [hgone, List.append_assoc, others_append]
            exact (others_perm List.perm_append_comm).append_left _
          · rw [hfree, free_append_single, lastFree_cons_move hmove, and_assoc]
      · have hother : isMoveFor wd watch = false := Bool.not_eq_true _ ▸ hmove
        rw [if_neg hmove]
        obtain ⟨left, hleft, hperm, hfree⟩ := @ih (done ++ [watch]) rest hrest
          (Or.inl (List.append_ne_nil_of_right_ne_nil _ (List.cons_ne_nil _ _)))
        rw [hone, List.append_assoc, List.singleton_append] at hleft
        rw [List.append_assoc, List.singleton_append] at hperm
        refine ⟨left, hleft, hperm, ?_⟩
        rw [hfree, free_append_single, lastFree_cons_other hother, hother]
        tauto

/-- **The watch of the directory is given up, or the list is free of move watches**, just when the
    last ones are no move watches. -/
theorem sweep_spec (wd : Int) (watches : List Watch) :
    (others wd (sweep wd watches).1).Perm (others wd watches) ∧
      ((sweep wd watches).2 = true ∨ Free wd (sweep wd watches).1 ↔ LastFree wd watches) := by
  by_cases hsingle : watches.length = 1
  · obtain ⟨watch, rfl⟩ := List.length_eq_one_iff.mp hsingle
    have hlast : LastFree wd [watch] := lastFree_of_count List.countP_le_length
    by_cases hmove : isMoveFor wd watch = true
    · have hsweep : sweep wd [watch] = ([watch], true) := by
        show sweepFrom wd 1 0 [watch] = _
        unfold sweepFrom
        simp only [List.getElem?_cons_zero, hmove, if_true, List.length_singleton]
        rfl
      rw [hsweep]
      exact ⟨List.Perm.refl _, fun _ => hlast, fun _ => Or.inl rfl⟩
    · have hsweep : sweep wd [watch] = ([watch], false) := by
        show sweepFrom wd 1 0 [watch] = _
        unfold sweepFrom
        simp only [List.getElem?_cons_zero, if_neg hmove]
        rfl
      rw [hsweep]
      refine ⟨List.Perm.refl _, fun _ => hlast, fun _ => Or.inr ?_⟩
      intro other hmem
      rw [List.mem_singleton.mp hmem]
      exact Bool.not_eq_true _ ▸ hmove
  · have hspec := @sweepFrom_spec wd [] watches watches.length (Nat.le_refl _) (Or.inr hsingle)
    obtain ⟨left, hleft, hperm, hfree⟩ := hspec
    have hsweep : sweep wd watches = (left, false) := hleft
    rw [hsweep]
    refine ⟨hperm, ?_⟩
    rw [hfree]
    constructor
    · rintro (hremoved | ⟨-, hlast⟩)
      · cases hremoved
      · exact hlast
    · intro hlast
      exact Or.inr ⟨fun _ hmem => absurd hmem List.not_mem_nil, hlast⟩

end

/-! ## The directories above -/

/-- The parent, as far as the loop follows it. -/
def State.parentOf (s : State) (wd : Int) : Option Int :=
  (s.watches wd).bind fun o => if 0 ≤ o.parentWd then some o.parentWd else none

def State.sweepAll (wd : Int) (above : List Int) (s : State) : State :=
  above.foldl (fun s checkWd => s.sweepAt wd checkWd) s

section

variable {s s' : State} {wd checkWd a : Int} {above : List Int} {fuel : Nat} {first : Bool} {o : Wd}

theorem watches_sweepAt (a : Int) : (s.sweepAt wd checkWd).watches a =
    if a = checkWd then (s.watches a).map fun o => { o with wdWatches := (sweep wd o.wdWatches).1 }
    else s.watches a := by
  unfold State.sweepAt
  rcases hs : s.watches checkWd with _ | o
  · by_cases heq : a = checkWd
    · rw [if_pos heq, heq, hs]
      rfl
    · rw [if_neg heq]
  · have hput : ((s.put checkWd { o with wdWatches := (sweep wd o.wdWatches).1 }).watches a) =
        if a = checkWd then some { o with wdWatches := (sweep wd o.wdWatches).1 }
        else s.watches a := Function.update_apply _ _ _ _
    have hsame : ∀ t : State, (if (sweep wd o.wdWatches).2 = true then t.removeWatch checkWd
        else t).watches = t.watches := by
      intro t
      split_ifs
      · rfl
      · rfl
    simp only [hsame, hput]
    by_cases heq : a = checkWd
    · rw [if_pos heq, if_pos heq, heq, hs]
      rfl
    · rw [if_neg heq, if_neg heq]

theorem kernel_sweepAt (a : Int) : (s.sweepAt wd checkWd).kernel a = false ↔
    s.kernel a = false ∨
      a = checkWd ∧ ∃ o, s.watches a = some o ∧ (sweep wd o.wdWatches).2 = true := by
  unfold State.sweepAt
  rcases hs : s.watches checkWd with _ | o
  · constructor
    · exact Or.inl
    · rintro (hfalse | ⟨rfl, o, ho, -⟩)
      · exact hfalse
      · rw [hs] at ho
        cases ho
  · simp only
    by_cases hswept : (sweep wd o.wdWatches).2 = true
    · rw [if_pos hswept]
      show Function.update s.kernel checkWd false a = false ↔ _
      rw [Function.update_apply]
      by_cases heq : a = checkWd
      · rw [if_pos heq, heq]
        exact ⟨fun _ => Or.inr ⟨rfl, o, hs, hswept⟩, fun _ => rfl⟩
      · rw [if_neg heq]
        exact ⟨Or.inl, fun h => h.resolve_right fun hboth => heq hboth.1⟩
    · rw [if_neg hswept]
      show s.kernel a = false ↔ _
      refine ⟨Or.inl, fun h => h.resolve_right ?_⟩
      rintro ⟨rfl, o', ho', hswept'⟩
      rw [hs] at ho'
      cases ho'
      exact hswept hswept'

/-- The links stay as they are. -/
theorem parentOf_sweepAt (a : Int) : (s.sweepAt wd checkWd).parentOf a = s.parentOf a := by
  unfold State.parentOf
  rw [watches_sweepAt]
  split_ifs
  · rcases s.watches a with _ | o
    · rfl
    · rfl
  · rfl

/-- **The loop goes through the directories above**, if they come to an end. -/
theorem removeWatchMovesFrom_eq (habove : Above s.parentOf checkWd above)
    (hfuel : above.length < fuel) : removeWatchMovesFrom wd fuel first checkWd s =
      some ((if first then s else s.sweepAt wd checkWd).sweepAll wd above) := by
  induction fuel generalizing s checkWd above first with
  | zero => exact absurd hfuel (Nat.not_lt_zero _)
  | succ fuel ih =>
    unfold removeWatchMovesFrom
    rcases hs : s.watches checkWd with _ | o
    · have hnone : s.parentOf checkWd = none := by
        unfold State.parentOf
        rw [hs]
        rfl
      have hsweep : s.sweepAt wd checkWd = s := by
        unfold State.sweepAt
        rw [hs]
      rw [habove.unique (Above.top hnone), hsweep, ite_self]
      rfl
    · have hparent : s.parentOf checkWd = if 0 ≤ o.parentWd then some o.parentWd else none := by
        unfold State.parentOf
        rw [hs]
        rfl
      simp only
      by_cases hpos : 0 ≤ o.parentWd
      · rw [if_pos hpos] at hparent ⊢
        cases habove with
        | top hnone =>
          rw [hparent] at hnone
          cases hnone
        | up hp hrest =>
          rw [hparent] at hp
          cases hp
          -- the parent is looked for in the state that is left
          have hrest' : Above (if first = true then s else s.sweepAt wd checkWd).parentOf o.parentWd
              _ := hrest.congr fun j => by
            split_ifs
            · rfl
            · exact parentOf_sweepAt j
          rw [ih hrest' (Nat.lt_of_succ_lt_succ hfuel)]
          rfl
      · rw [if_neg hpos] at hparent ⊢
        rw [habove.unique (Above.top hparent)]
        rfl

theorem above_of_returns (h : removeWatchMovesFrom wd fuel first checkWd s = some s') :
    ∃ above, Above s.parentOf checkWd above ∧ above.length < fuel := by
  induction fuel generalizing s checkWd first with
  | zero => cases h
  | succ fuel ih =>
    unfold removeWatchMovesFrom at h
    rcases hs : s.watches checkWd with _ | o
    · refine ⟨[], Above.top ?_, Nat.succ_pos fuel⟩
      unfold State.parentOf
      rw [hs]
      rfl
    · have hparent : s.parentOf checkWd = if 0 ≤ o.parentWd then some o.parentWd else none := by
        unfold State.parentOf
        rw [hs]
        rfl
      simp only [hs] at h
      by_cases hpos : 0 ≤ o.parentWd
      · rw [if_pos hpos] at h hparent
        obtain ⟨above, habove, hlt⟩ := ih h
        refine ⟨o.parentWd :: above, Above.up hparent (habove.congr fun j => ?_),
          Nat.succ_lt_succ hlt⟩
        split_ifs
        · rfl
        · exact (parentOf_sweepAt j).symm
      · rw [if_neg hpos] at hparent
        exact ⟨[], Above.top hparent, Nat.succ_pos fuel⟩

/-- Each list is swept once. -/
theorem watches_sweepAll (hnodup : above.Nodup) (a : Int) : (s.sweepAll wd above).watches a =
    if a ∈ above then (s.watches a).map fun o => { o with wdWatches := (sweep wd o.wdWatches).1 }
    else s.watches a := by
  induction above generalizing s with
  | nil => rfl
  | cons b above ih =>
    obtain ⟨hb, hnodup'⟩ := List.nodup_cons.mp hnodup
    show ((s.sweepAt wd b).sweepAll wd above).watches a = _
    rw [ih hnodup', watches_sweepAt]
    by_cases heq : a = b
    · rw [heq, if_neg hb, if_pos rfl, if_pos List.mem_cons_self]
    · rw [if_neg heq]
      have hmem : a ∈ b :: above ↔ a ∈ above := by
        rw [List.mem_cons]
        exact or_iff_right heq
      simp only [hmem]

theorem kernel_sweepAll (hnodup : above.Nodup) (a : Int) : (s.sweepAll wd above).kernel a = false ↔
    s.kernel a = false ∨
      a ∈ above ∧ ∃ o, s.watches a = some o ∧ (sweep wd o.wdWatches).2 = true := by
  induction above generalizing s with
  | nil => exact ⟨Or.inl, fun h => h.resolve_right fun hboth => (nomatch hboth.1)⟩
  | cons b above ih =>
    obtain ⟨hb, hnodup'⟩ := List.nodup_cons.mp hnodup
    show ((s.sweepAt wd b).sweepAll wd above).kernel a = false ↔ _
    rw [ih hnodup', kernel_sweepAt, or_assoc, List.mem_cons]
    by_cases heq : a = b
    · subst heq
      simp only [hb, false_and, or_false, true_and]
    · rw [watches_sweepAt, if_neg heq]
      simp only [heq, false_or, false_and]

/-- **What `removeWatchMoves(wd)` is for.** -/
def Clean (s s' : State) (wd : Int) : Prop :=
  ∀ a, Ancestor s.parentOf a wd → ∀ o, s.watches a = some o →
    ∃ o', s'.watches a = some o' ∧ (s'.kernel a = false ∨ Free wd o'.wdWatches) ∧
      (others wd o'.wdWatches).Perm (others wd o.wdWatches)

/-- One of the lists, before and after. -/
theorem sweepAll_ancestor (habove : Above s.parentOf wd above) (ha : Ancestor s.parentOf a wd)
    (ho : s.watches a = some o) :
    (s.sweepAll wd above).watches a = some { o with wdWatches := (sweep wd o.wdWatches).1 } ∧
      ((s.sweepAll wd above).kernel a = false ∨ Free wd (sweep wd o.wdWatches).1 ↔
        s.kernel a = false ∨ LastFree wd o.wdWatches) := by
  have hnodup := (List.nodup_cons.mp habove.nodup).2
  have hmem := habove.mem_iff.mpr ha
  constructor
  · rw [watches_sweepAll hnodup, if_pos hmem, ho]
    rfl
  · have hswept : (a ∈ above ∧ ∃ o', s.watches a = some o' ∧ (sweep wd o'.wdWatches).2 = true) ↔
        (sweep wd o.wdWatches).2 = true := by
      constructor
      · rintro ⟨-, o', ho', hswept⟩
        rw [ho] at ho'
        cases ho'
        exact hswept
      · intro hswept
        exact ⟨hmem, o, ho, hswept⟩
    rw [kernel_sweepAll hnodup, ← (sweep_spec wd o.wdWatches).2, hswept, or_assoc]

theorem lastFree_of_clean (hreturns : removeWatchMoves fuel wd s = some s')
    (hclean : Clean s s' wd) (ha : Ancestor s.parentOf a wd) (ho : s.watches a = some o) :
    s.kernel a = false ∨ LastFree wd o.wdWatches := by
  obtain ⟨above, habove, hfuel⟩ := above_of_returns hreturns
  have hs' : s' = s.sweepAll wd above :=
    Option.some.inj (hreturns.symm.trans (removeWatchMovesFrom_eq habove hfuel))
  obtain ⟨hwatches, hiff⟩ := sweepAll_ancestor habove ha ho
  obtain ⟨o', ho', hgone, -⟩ := hclean a ha o ho
  rw [hs', hwatches] at ho'
  cases ho'
  rw [hs'] at hgone
  exact hiff.mp hgone

/-- **It returns and leaves no move watch**, just when there is an end to the directories above, and
    in each list that counts the last watches are no move watches for the descriptor. -/
theorem removeWatchMoves_iff (s : State) (wd : Int) :
    (∃ fuel s', removeWatchMoves fuel wd s = some s' ∧ Clean s s' wd) ↔
      (∃ above, Above s.parentOf wd above) ∧
        ∀ a, Ancestor s.parentOf a wd → ∀ o, s.watches a = some o →
          s.kernel a = false ∨ LastFree wd o.wdWatches := by
  constructor
  · rintro ⟨fuel, s', hreturns, hclean⟩
    obtain ⟨above, habove, -⟩ := above_of_returns hreturns
    exact ⟨⟨above, habove⟩, fun a ha o ho => lastFree_of_clean hreturns hclean ha ho⟩
  · rintro ⟨⟨above, habove⟩, hlast⟩
    refine ⟨above.length + 1, s.sweepAll wd above,
      removeWatchMovesFrom_eq habove (Nat.lt_succ_self _), fun a ha o ho => ?_⟩
    obtain ⟨hwatches, hiff⟩ := sweepAll_ancestor habove ha ho
    exact ⟨_, hwatches, hiff.mpr (hlast a ha o ho), (sweep_spec wd o.wdWatches).1⟩

end

/-! ## Runs -/

inductive Event where
  | watchPathForMoves (fs : FileSystem) (path : Str) (wd : Int)
  | monitorDirectory (fs : FileSystem) (adir : Directory) (normalizedAutoscanPath path : Str)
      (startPoint : Bool) (fuel : Nat)
  /-- `IN_IGNORED`: the kernel watch is gone -/
  | ignored (wd : Int)
  | removeWatchMoves (wd : Int) (fuel : Nat)

def step (s : State) : Event → Option State
  | .watchPathForMoves fs path wd => (watchPathForMoves fs path wd s).toOption.map Prod.snd
  | .monitorDirectory fs adir normalizedAutoscanPath path startPoint fuel =>
    (monitorDirectory fs adir normalizedAutoscanPath fuel path startPoint none s).bind fun r =>
      r.toOption.map Prod.snd
  | .ignored wd => some { s.removeWatch wd with watches := Function.update s.watches wd none }
  | .removeWatchMoves wd fuel => removeWatchMoves fuel wd s

/-- `/` has the descriptor 1, and `/a` has 2. -/
def readable : FileSystem where
  isDirectory p := p.parts = [] ∨ p.parts = [['a'.toUInt8]]
  inotifyAddWatch p := if p.parts = [] then .wd 1 else .wd 2

/-- The autoscan of `/a` is monitored, and its path registered once more. -/
def registeredTwice : List Event :=
  [.monitorDirectory readable autoscanA autoscanA.location autoscanA.location true 1,
    .watchPathForMoves readable autoscanA.location 2]

/-- The second of two move watches takes the place of the first, and stays. -/
theorem not_clean : ¬ ∀ (events : List Event) (s : State) (wd : Int), run step {} events = some s →
    ∃ fuel s', removeWatchMoves fuel wd s = some s' ∧ Clean s s' wd := by
  intro hall
  have hrun : ∃ s, run step {} registeredTwice = some s ∧ s.parentOf 2 = some 1 ∧
      s.kernel 1 = true ∧ s.watches 1 = some ⟨['/'.toUInt8], 1, -1, [.move 2, .move 2]⟩ :=
    ⟨_, rfl, rfl, rfl, rfl⟩
  obtain ⟨s, hrun, hparent, hkernel, hs⟩ := hrun
  obtain ⟨fuel, s', hreturns, hclean⟩ := hall registeredTwice s 2 hrun
  rcases lastFree_of_clean hreturns hclean (Relation.TransGen.single hparent) hs with
    hfalse | hfree
  · rw [hkernel] at hfalse
    cases hfalse
  · have hmem : Watch.move 2 ∈ [Watch.move 2] := List.mem_singleton_self _
    have hmove := hfree (.move 2) hmem
    cases hmove

end MediaTomb.AutoscanInotify
