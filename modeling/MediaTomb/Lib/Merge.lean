/-
  MERGING a list into a table, one entry after the other.

  An entry takes the rows it FINDS out of the table and puts one row in (`Puts`): an UPDATE of the
  one row that is found does that, and so does an INSERT where none is.  A list of entries does it
  in turn (`Merges`), so an entry may find what one before it has put in.

  Where the entries are apart it does not, and their order says nothing: every entry is left its own
  row, made of what it finds in the table as it was at the start (`Merges.written`), and of the
  others there remain those that no entry finds (`Merges.rows`).
-/
import Mathlib

namespace MediaTomb.Lib

namespace Merge

/-! ## Lists side by side -/

section

variable {α β : Type} {R S : α → β → Prop} {l : List α} {r : List β}

/-- An element on the left has one on the right. -/
theorem exists_right (h : List.Forall₂ R l r) {a : α} (ha : a ∈ l) : ∃ b ∈ r, R a b := by
  induction h with
  | nil => cases ha
  | cons hab _ ih =>
    rcases List.mem_cons.mp ha with rfl | ha
    · exact ⟨_, List.mem_cons_self, hab⟩
    · obtain ⟨b, hb, hrel⟩ := ih ha
      exact ⟨b, List.mem_cons_of_mem _ hb, hrel⟩

/-- An element on the right has one on the left. -/
theorem exists_left (h : List.Forall₂ R l r) {b : β} (hb : b ∈ r) : ∃ a ∈ l, R a b := by
  induction h with
  | nil => cases hb
  | cons hab _ ih =>
    rcases List.mem_cons.mp hb with rfl | hb
    · exact ⟨_, List.mem_cons_self, hab⟩
    · obtain ⟨a, ha, hrel⟩ := ih hb
      exact ⟨a, List.mem_cons_of_mem _ ha, hrel⟩

theorem forall₂_imp (h : List.Forall₂ R l r) (himp : ∀ a ∈ l, ∀ b, R a b → S a b) :
    List.Forall₂ S l r := by
  induction h with
  | nil => exact .nil
  | cons hab _ ih =>
    refine .cons (himp _ List.mem_cons_self _ hab) (ih fun a ha => ?_)
    exact himp a (List.mem_cons_of_mem _ ha)

/-- What holds pairwise on the right holds pairwise on the left. -/
theorem pairwise_left {T : α → α → Prop} {U : β → β → Prop} (h : List.Forall₂ R l r)
    (hright : r.Pairwise U) (himp : ∀ a a' b b', R a b → R a' b' → U b b' → T a a') :
    l.Pairwise T := by
  induction h with
  | nil => exact .nil
  | cons hab hrest ih =>
    obtain ⟨hhead, htail⟩ := List.pairwise_cons.mp hright
    refine .cons (fun a' ha' => ?_) (ih htail)
    obtain ⟨b', hb', hrel⟩ := exists_right hrest ha'
    exact himp _ a' _ b' hab hrel (hhead b' hb')

end

/-! ## One entry -/

section

variable {E R K : Type} (finds : E → R → Bool) (writes : E → (R → Prop) → R → Prop)

/-- The entry takes out what it finds, and puts `a` in. -/
structure Puts (e : E) (rows rows' : List R) (a : R) : Prop where
  written : writes e (fun b => b ∈ rows ∧ finds e b = true) a
  rows : rows'.Perm (a :: rows.filter fun b => !finds e b)

variable {finds writes} {e : E} {rows rows' : List R} {a b : R}

/-- An INSERT, where nothing is found. -/
theorem Puts.insert (hnone : ∀ c ∈ rows, finds e c = false)
    (hwrites : writes e (fun b => b ∈ rows ∧ finds e b = true) a)
    (hrows : rows' = rows ++ [a]) : Puts finds writes e rows rows' a := by
  refine ⟨hwrites, ?_⟩
  have hall : (rows.filter fun c => !finds e c) = rows := by
    refine List.filter_eq_self.mpr fun c hc => ?_
    rw [hnone c hc]
    rfl
  rw [hrows, hall]
  exact List.perm_append_singleton a rows

/-- Replacing a row of a table with a key takes it out and puts another in. -/
theorem perm_replace [DecidableEq K] {key : R → K} (hkeys : (rows.map key).Nodup) (hb : b ∈ rows)
    (f : R → R) : (rows.map fun c => if key c = key b then f c else c).Perm
      (f b :: rows.filter fun c => key c ≠ key b) := by
  induction rows with
  | nil => cases hb
  | cons c rows ih =>
    obtain ⟨hfresh, hkeys⟩ := List.nodup_cons.mp hkeys
    rw [List.map_cons]
    by_cases hc : key c = key b
    · -- it is the first row, and no later one has its key
      have hne : ∀ d ∈ rows, key d ≠ key b := by
        intro d hd hkey
        rw [hc, ← hkey] at hfresh
        exact hfresh (List.mem_map_of_mem hd)
      have hrest : (rows.map fun d => if key d = key b then f d else d) = rows := by
        conv_rhs => rw [← List.map_id rows]
        exact List.map_congr_left fun d hd => if_neg (hne d hd)
      have hfilter : ((c :: rows).filter fun d => key d ≠ key b) = rows := by
        rw [List.filter_cons_of_neg (by simp [hc])]
        exact List.filter_eq_self.mpr fun d hd => by simp [hne d hd]
      have hcb : c = b := by
        rcases List.mem_cons.mp hb with hb | hb
        · exact hb.symm
        · exact absurd rfl (hne b hb)
      rw [if_pos hc, hrest, hfilter, hcb]
    · have hbin : b ∈ rows := by
        rcases List.mem_cons.mp hb with rfl | hb
        · exact absurd rfl hc
        · exact hb
      rw [if_neg hc, List.filter_cons_of_pos (by simp [hc])]
      exact ((ih hkeys hbin).cons c).trans (.swap _ _ _)

/-- An UPDATE of the one row that is found. -/
theorem Puts.update [DecidableEq K] {key : R → K} {f : R → R} (hkeys : (rows.map key).Nodup)
    (hb : b ∈ rows) (hfound : finds e b = true) (hone : ∀ c ∈ rows, finds e c = true → c = b)
    (hwrites : writes e (fun b => b ∈ rows ∧ finds e b = true) (f b))
    (hrows : rows' = rows.map fun c => if key c = key b then f c else c) :
    Puts finds writes e rows rows' (f b) := by
  refine ⟨hwrites, ?_⟩
  have hfilter : (rows.filter fun c => !finds e c) = rows.filter fun c => key c ≠ key b := by
    refine List.filter_congr fun c hc => ?_
    by_cases hcb : c = b
    · rw [hcb, hfound]
      simp
    · have hkey : key c ≠ key b := by
        intro hkey
        exact hcb (List.inj_on_of_nodup_map hkeys hc hb hkey)
      have hnot : finds e c = false := by
        rw [← Bool.not_eq_true]
        exact fun h => hcb (hone c hc h)
      simp [hkey, hnot]
  rw [hrows, hfilter]
  exact perm_replace hkeys hb f

end

/-! ## A list of entries -/

section

variable {E R : Type} (finds : E → R → Bool) (writes : E → (R → Prop) → R → Prop)

/-- The entries in turn: from `rows` to `rows'`, putting `written` in. -/
inductive Merges : List E → List R → List R → List R → Prop
  | nil {rows : List R} : Merges [] rows [] rows
  | cons {e : E} {es : List E} {rows rows₁ rows' written : List R} {a : R} :
      Puts finds writes e rows rows₁ a → Merges es rows₁ written rows' →
      Merges (e :: es) rows (a :: written) rows'

/-- Neither entry finds what the other one finds, or puts in. -/
structure Apart (rows : List R) (e e' : E) : Prop where
  found : ∀ b ∈ rows, finds e b = true → finds e' b = false
  written : ∀ found a, writes e found a → finds e' a = false

variable {finds writes} {e e' : E} {es : List E} {rows rows' written : List R} {a b : R}

/-- A row afterwards is the new one, or one that was not found. -/
theorem Puts.mem (h : Puts finds writes e rows rows' a) (hb : b ∈ rows') :
    b = a ∨ b ∈ rows ∧ finds e b = false := by
  rcases List.mem_cons.mp (h.rows.mem_iff.mp hb) with hb | hb
  · exact .inl hb
  · obtain ⟨hb, hnot⟩ := List.mem_filter.mp hb
    rw [Bool.not_eq_true'] at hnot
    exact .inr ⟨hb, hnot⟩

/-- An entry that is apart finds in the new table what it found in the old one. -/
theorem Puts.found_eq (h : Puts finds writes e rows rows' a) (hapart : Apart finds writes rows e e') :
    (fun b => b ∈ rows' ∧ finds e' b = true) = fun b => b ∈ rows ∧ finds e' b = true := by
  funext b
  refine propext ⟨?_, ?_⟩
  · rintro ⟨hb, hfinds⟩
    rcases h.mem hb with rfl | ⟨hb, -⟩
    · rw [hapart.written _ b h.written] at hfinds
      cases hfinds
    · exact ⟨hb, hfinds⟩
  · rintro ⟨hb, hfinds⟩
    have hnot : finds e b = false := by
      rw [← Bool.not_eq_true]
      intro he
      rw [hapart.found b hb he] at hfinds
      cases hfinds
    refine ⟨h.rows.mem_iff.mpr (List.mem_cons_of_mem _ ?_), hfinds⟩
    exact List.mem_filter.mpr ⟨hb, by rw [hnot]; rfl⟩

/-- Entries that find nothing new are as far apart as before. -/
theorem Puts.apart (h : Puts finds writes e rows rows' a) (hnew : finds e' a = false) {e'' : E}
    (hapart : Apart finds writes rows e' e'') : Apart finds writes rows' e' e'' := by
  refine ⟨fun b hb hfound => ?_, hapart.written⟩
  rcases h.mem hb with rfl | ⟨hb, -⟩
  · rw [hnew] at hfound
    cases hfound
  · exact hapart.found b hb hfound

/-- Of the new table there remains the new row, and what none of the entries found. -/
theorem Puts.unfound (h : Puts finds writes e rows rows' a) (hnew : ∀ e' ∈ es, finds e' a = false) :
    (rows'.filter fun b => !es.any fun e' => finds e' b).Perm
      (a :: rows.filter fun b => !(e :: es).any fun e' => finds e' b) := by
  have hkept : (!es.any fun e' => finds e' a) = true := by
    rw [Bool.not_eq_true', List.any_eq_false]
    intro e' he'
    rw [hnew e' he']
    exact Bool.false_ne_true
  have hany : (fun b => (!es.any fun e' => finds e' b) && !finds e b) =
      fun b => !(e :: es).any fun e' => finds e' b := by
    funext b
    rw [List.any_cons, Bool.not_or, Bool.and_comm]
  have hleft := h.rows.filter fun b => !es.any fun e' => finds e' b
  rwa [List.filter_cons_of_pos (p := fun b => !es.any fun e' => finds e' b) hkept,
    List.filter_filter, hany] at hleft

/-- **What is left** by entries that are apart. -/
theorem Merges.result (h : Merges finds writes es rows written rows')
    (hapart : es.Pairwise (Apart finds writes rows)) :
    List.Forall₂ (fun e a => writes e (fun b => b ∈ rows ∧ finds e b = true) a) es written ∧
      rows'.Perm (written ++ rows.filter fun b => !es.any fun e => finds e b) := by
  induction h with
  | nil => exact ⟨.nil, by simp⟩
  | @cons e es rows rows₁ rows' written a hput _ ih =>
    obtain ⟨hfirst, hrest⟩ := List.pairwise_cons.mp hapart
    have hnew : ∀ e' ∈ es, finds e' a = false :=
      fun e' he' => (hfirst e' he').written _ a hput.written
    obtain ⟨hwritten, hrows⟩ := ih (hrest.imp_of_mem fun he' _ => hput.apart (hnew _ he'))
    refine ⟨.cons hput.written (forall₂_imp hwritten fun e' he' b hb => ?_), ?_⟩
    · rwa [hput.found_eq (hfirst e' he')] at hb
    · exact (hrows.trans ((hput.unfound hnew).append_left written)).trans List.perm_middle

end

end Merge

end MediaTomb.Lib
