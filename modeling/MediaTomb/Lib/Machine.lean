/-
  Machines: a state, and events that may happen to it.

  `step s e` is the state after the event `e`, or `none` where `e` cannot happen in `s`.  Threads
  that take turns, a thread and the world around it, a queue of tasks: each is such a machine, and
  an interleaving is a list of events.

  Three rules carry all proofs about runs:
    * `run_inv`       what every step keeps, every run keeps;
    * `run_inv_of`    the same where each step has to meet a condition first;
    * `always_of_inv` the invariant holds in every state a run passes, not only in the last.
-/
import Mathlib

namespace MediaTomb.Lib.Machine

section

variable {σ ε : Type*} {step : σ → ε → Option σ} {s s' : σ} {e : ε} {es es' : List ε}

/-- The state after the events, one after the other; `none` where one of them cannot happen. -/
def run (step : σ → ε → Option σ) (s : σ) : List ε → Option σ
  | [] => some s
  | e :: es => (step s e).bind fun s' => run step s' es

@[simp] theorem run_nil : run step s [] = some s := rfl

theorem run_cons : run step s (e :: es) = (step s e).bind fun s' => run step s' es := rfl

theorem run_append : run step s (es ++ es') = (run step s es).bind fun s' => run step s' es' := by
  induction es generalizing s with
  | nil => rfl
  | cons e es ih =>
    rw [List.cons_append, run_cons, run_cons]
    rcases step s e with _ | t
    · rfl
    · exact ih

theorem run_concat : run step s (es ++ [e]) = (run step s es).bind fun s' => step s' e := by
  rw [run_append]
  congr 1
  funext t
  rw [run_cons]
  rcases step t e with _ | t'
  · rfl
  · rfl

/-- A run that ends went through its first step. -/
theorem run_cons_some (h : run step s (e :: es) = some s') :
    ∃ t, step s e = some t ∧ run step t es = some s' := by
  rw [run_cons] at h
  exact Option.bind_eq_some_iff.mp h

/-- A run that ends passes a state after each of its parts. -/
theorem run_prefix (h : run step s es = some s') (hpre : es' <+: es) :
    ∃ t, run step s es' = some t := by
  obtain ⟨rest, rfl⟩ := hpre
  rw [run_append] at h
  obtain ⟨t, ht, -⟩ := Option.bind_eq_some_iff.mp h
  exact ⟨t, ht⟩

/-- **Invariants.** -/
theorem run_inv {P : σ → Prop} (hstep : ∀ s e s', P s → step s e = some s' → P s')
    (hs : P s) (h : run step s es = some s') : P s' := by
  induction es generalizing s with
  | nil =>
    cases h
    exact hs
  | cons e es ih =>
    obtain ⟨t, ht, hrest⟩ := run_cons_some h
    exact ih (hstep s e t hs ht) hrest

/-- Each step of the run meets `C` before it is taken. -/
def Along (C : σ → ε → Prop) (step : σ → ε → Option σ) (s : σ) : List ε → Prop
  | [] => True
  | e :: es => C s e ∧ ∀ s', step s e = some s' → Along C step s' es

/-- **Invariants that need something of each step.** -/
theorem run_inv_of {Inv : σ → Prop} {C : σ → ε → Prop}
    (hstep : ∀ s e s', Inv s → C s e → step s e = some s' → Inv s')
    (hs : Inv s) (hC : Along C step s es) (h : run step s es = some s') : Inv s' := by
  induction es generalizing s with
  | nil =>
    cases h
    exact hs
  | cons e es ih =>
    obtain ⟨t, ht, hrest⟩ := run_cons_some h
    exact ih (hstep s e t hs hC.1 ht) (hC.2 t ht) hrest

theorem along_nil {C : σ → ε → Prop} : Along C step s [] := trivial

theorem along_cons {C : σ → ε → Prop} (hC : C s e) (hstep : step s e = some s')
    (h : Along C step s' es) : Along C step s (e :: es) := by
  refine ⟨hC, fun t ht => ?_⟩
  rw [hstep] at ht
  cases ht
  exact h

/-- A condition that can be tested can be tested along a run. -/
instance decidableAlong {C : σ → ε → Prop} [∀ s e, Decidable (C s e)] (s : σ) :
    (es : List ε) → Decidable (Along C step s es)
  | [] => isTrue trivial
  | e :: es =>
    match h : step s e with
    | none =>
      decidable_of_iff (C s e)
        ⟨fun hC => ⟨hC, fun t ht => by rw [h] at ht; cases ht⟩, fun hC => hC.1⟩
    | some t =>
      have := decidableAlong (C := C) t es
      decidable_of_iff (C s e ∧ Along C step t es)
        ⟨fun hC => along_cons hC.1 h hC.2, fun hC => ⟨hC.1, hC.2 t h⟩⟩

theorem Along.prefix {C : σ → ε → Prop} (h : Along C step s (es ++ es')) : Along C step s es := by
  induction es generalizing s with
  | nil => exact trivial
  | cons e es ih => exact ⟨h.1, fun t ht => ih (h.2 t ht)⟩

/-- The steps after a state that the run passes. -/
theorem Along.suffix {C : σ → ε → Prop} (h : Along C step s (es ++ es'))
    (hrun : run step s es = some s') : Along C step s' es' := by
  induction es generalizing s with
  | nil =>
    cases hrun
    exact h
  | cons e es ih =>
    obtain ⟨t, ht, hrest⟩ := run_cons_some hrun
    exact ih (h.2 t ht) hrest

/-- What holds of all events of the run may be added to the condition. -/
theorem Along.and_mem {C : σ → ε → Prop} {P : ε → Prop} (h : Along C step s es)
    (hP : ∀ e ∈ es, P e) : Along (fun s e => C s e ∧ P e) step s es := by
  induction es generalizing s with
  | nil => exact trivial
  | cons e es ih =>
    refine ⟨⟨h.1, hP e List.mem_cons_self⟩, fun t ht => ?_⟩
    exact ih (h.2 t ht) fun e he => hP e (List.mem_cons_of_mem _ he)

/-- `P` in every state the run passes. -/
def Always (P : σ → Prop) (step : σ → ε → Option σ) (s : σ) (es : List ε) : Prop :=
  ∀ es', es' <+: es → ∀ s', run step s es' = some s' → P s'

theorem always_of_inv {Inv P : σ → Prop}
    (hstep : ∀ s e s', Inv s → step s e = some s' → Inv s') (hP : ∀ s, Inv s → P s) (hs : Inv s) :
    Always P step s es :=
  fun _ _ _ h => hP _ (run_inv hstep hs h)

theorem always_of_inv_of {Inv P : σ → Prop} {C : σ → ε → Prop}
    (hstep : ∀ s e s', Inv s → C s e → step s e = some s' → Inv s') (hP : ∀ s, Inv s → P s)
    (hs : Inv s) (hC : Along C step s es) : Always P step s es := by
  rintro es' ⟨rest, rfl⟩ s' h
  exact hP _ (run_inv_of hstep hs hC.prefix h)

/-! ## Calls in progress

  A list of calls, of which the one at a place goes on or ends. -/

/-- The list before and after a place, whatever is put there. -/
theorem split_at_place {α : Type*} {calls : List α} {i : Nat} {c : α} (h : calls[i]? = some c) :
    ∃ before after, calls = before ++ c :: after ∧
      (∀ c', calls.set i c' = before ++ c' :: after) ∧ calls.eraseIdx i = before ++ after := by
  obtain ⟨hi, hget⟩ := List.getElem?_eq_some_iff.mp h
  refine ⟨calls.take i, calls.drop (i + 1), ?_, fun c' => ?_, List.eraseIdx_eq_take_drop_succ calls i⟩
  · rw [← hget, List.cons_getElem_drop_succ, List.take_append_drop]
  · rw [List.set_eq_take_append_cons_drop, if_pos hi]

theorem Always.last {P : σ → Prop} (h : Always P step s es) (hrun : run step s es = some s') :
    P s' := h es (List.prefix_refl es) s' hrun

end

end MediaTomb.Lib.Machine
