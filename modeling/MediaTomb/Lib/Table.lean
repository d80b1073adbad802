/-
  Tables with a primary key.

  A `Table key` is a list of rows in which no two rows have the same key; the fact is a FIELD, so
  a table that breaks it cannot be built and no proof re-establishes it.  The operations are the
  relational ones on one table: look a row up by its key, insert a row (refused when the key is
  taken), delete the rows that match, rewrite rows without touching their keys.  The list order is
  the storage order: an insert appends, the other operations keep the order of what they leave.
-/
import Mathlib.Data.List.Nodup

namespace MediaTomb.Lib

/-- Rows without two equal keys. -/
@[ext]
structure Table {R K : Type} (key : R → K) where
  rows : List R
  nodup : (rows.map key).Nodup

namespace Table

variable {R K : Type} {key : R → K}

def empty : Table key := ⟨[], List.nodup_nil⟩

/-- Two rows with the same key are the same row. -/
theorem eq_of_key_eq (t : Table key) {r r' : R} (h : r ∈ t.rows) (h' : r' ∈ t.rows)
    (hk : key r = key r') : r = r' := List.inj_on_of_nodup_map t.nodup h h' hk

/-! ## Deleting rows -/

/-- The rows that do not match stay. -/
def delete (t : Table key) (p : R → Bool) : Table key where
  rows := t.rows.filter fun r => !p r
  nodup := t.nodup.sublist (List.filter_sublist.map key)

@[simp] theorem mem_delete {t : Table key} {p : R → Bool} {r : R} :
    r ∈ (t.delete p).rows ↔ r ∈ t.rows ∧ p r = false := by
  simp [delete]

theorem delete_congr {t : Table key} {p q : R → Bool} (h : ∀ r ∈ t.rows, p r = q r) :
    t.delete p = t.delete q := by
  refine Table.ext (List.filter_congr fun r hr => ?_)
  rw [h r hr]

theorem delete_eq_self {t : Table key} {p : R → Bool} (h : ∀ r ∈ t.rows, p r = false) :
    t.delete p = t := by
  refine Table.ext (List.filter_eq_self.mpr fun r hr => ?_)
  rw [h r hr]
  rfl

/-! ## Rewriting rows -/

/-- Every row is rewritten by `f`, which keeps its key. -/
def update (t : Table key) (f : R → R) (hf : ∀ r, key (f r) = key r) : Table key where
  rows := t.rows.map f
  nodup := by
    have h : (t.rows.map f).map key = t.rows.map key := by
      rw [List.map_map]
      exact List.map_congr_left fun r _ => hf r
    rw [h]
    exact t.nodup

@[simp] theorem mem_update {t : Table key} {f : R → R} {hf : ∀ r, key (f r) = key r} {r : R} :
    r ∈ (t.update f hf).rows ↔ ∃ r₀ ∈ t.rows, f r₀ = r := by
  simp [update]

/-! ## Lookup and insertion -/

variable [DecidableEq K]

def find? (t : Table key) (k : K) : Option R := t.rows.find? fun r => key r = k

theorem find?_eq_some {t : Table key} {k : K} {r : R} :
    t.find? k = some r ↔ r ∈ t.rows ∧ key r = k := by
  constructor
  · intro h
    exact ⟨List.mem_of_find?_eq_some h, by simpa using List.find?_some h⟩
  · rintro ⟨hr, hk⟩
    rcases hf : t.find? k with _ | r'
    · have hn := List.find?_eq_none.mp hf r hr
      simp [hk] at hn
    · have hr' := List.mem_of_find?_eq_some hf
      have hk' : key r' = k := by simpa using List.find?_some hf
      rw [t.eq_of_key_eq hr hr' (hk.trans hk'.symm)]

theorem find?_eq_none {t : Table key} {k : K} :
    t.find? k = none ↔ ∀ r ∈ t.rows, key r ≠ k := by
  simp [find?]

/-- Append a row; `none` when its key is taken. -/
def insert? (t : Table key) (r : R) : Option (Table key) :=
  if h : key r ∈ t.rows.map key then none
  else some
    { rows := t.rows ++ [r]
      nodup := by
        rw [List.map_append, List.map_singleton]
        exact List.nodup_append.mpr ⟨t.nodup, List.nodup_singleton _,
          fun a ha b hb => by
            rw [List.mem_singleton] at hb
            rintro rfl
            exact h (hb ▸ ha)⟩ }

theorem insert?_eq_some {t t' : Table key} {r : R} (h : t.insert? r = some t') :
    key r ∉ t.rows.map key ∧ t'.rows = t.rows ++ [r] := by
  unfold insert? at h
  split at h
  · cases h
  · next hk =>
    cases h
    exact ⟨hk, rfl⟩

theorem insert?_of_fresh {t : Table key} {r : R} (h : key r ∉ t.rows.map key) :
    ∃ t', t.insert? r = some t' ∧ t'.rows = t.rows ++ [r] := by
  unfold insert?
  rw [dif_neg h]
  exact ⟨_, rfl, rfl⟩

theorem find?_update {t : Table key} {f : R → R} {hf : ∀ r, key (f r) = key r} {k : K} :
    (t.update f hf).find? k = (t.find? k).map f := by
  refine Option.ext fun r => ?_
  rw [find?_eq_some, mem_update, Option.map_eq_some_iff]
  constructor
  · rintro ⟨⟨r₀, hr₀, rfl⟩, hk⟩
    exact ⟨r₀, find?_eq_some.mpr ⟨hr₀, (hf r₀).symm.trans hk⟩, rfl⟩
  · rintro ⟨r₀, hfind, rfl⟩
    obtain ⟨hr₀, hk⟩ := find?_eq_some.mp hfind
    exact ⟨⟨r₀, hr₀, rfl⟩, (hf r₀).trans hk⟩

theorem find?_delete {t : Table key} {p : R → Bool} {k : K} {r : R} :
    (t.delete p).find? k = some r ↔ t.find? k = some r ∧ p r = false := by
  rw [find?_eq_some, find?_eq_some, mem_delete]
  exact ⟨fun h => ⟨⟨h.1.1, h.2⟩, h.1.2⟩, fun h => ⟨⟨h.1.1, h.2⟩, h.1.2⟩⟩

theorem find?_insert? {t t' : Table key} {r : R} (h : t.insert? r = some t') {k : K} :
    t'.find? k = if k = key r then some r else t.find? k := by
  obtain ⟨hfresh, hrows⟩ := insert?_eq_some h
  refine Option.ext fun r' => ?_
  rw [find?_eq_some, hrows, List.mem_append, List.mem_singleton]
  split
  · next hk =>
    rw [Option.some.injEq]
    constructor
    · rintro ⟨hr' | rfl, hkey⟩
      · exact absurd (hkey.trans hk ▸ List.mem_map_of_mem hr') hfresh
      · rfl
    · rintro rfl
      exact ⟨Or.inr rfl, hk.symm⟩
  · next hk =>
    rw [find?_eq_some]
    constructor
    · rintro ⟨hr' | rfl, hkey⟩
      · exact ⟨hr', hkey⟩
      · exact absurd hkey.symm hk
    · rintro ⟨hr', hkey⟩
      exact ⟨Or.inl hr', hkey⟩

end Table

end MediaTomb.Lib
