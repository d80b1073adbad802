/-
  Programs over a shared state: one term, two readings.

  A `Prog σ ε α` is a RESUMPTION: it has returned, it has thrown, or it is about to perform one
  atomic section on the state `σ` and goes on with what the section hands it.  A critical section
  (`locked`) and a single statement are both one section.

    * `run`  executes the sections one after the other with nothing in between: the sequential
             reading.  What was written BEFORE a throw STAYS written, which is how a C++ method
             behaves that throws half way through its updates.
    * `Lib.Threads` interleaves the sections of several programs: the concurrent reading.

  Two logics sit on `run`:
    * `Keeps F m`      — the FRAME logic: every run of `m`, returning or throwing, relates the
                         state before and after by the preorder `F`.  `Frame.inv I` makes an
                         invariant of a predicate, `Frame.same f` a "this part is untouched".
    * `Triple P m Q E` — pre- and postconditions, with a separate postcondition `E` for the
                         throwing runs.  For the places where an invariant is broken and
                         repaired inside one program.
-/

namespace MediaTomb.Lib

/-- A program over the state `σ` that returns an `α` or throws an `ε`. -/
inductive Prog (σ ε α : Type) : Type 1 where
  | ret (a : α)
  | throw (e : ε)
  | atomic {β : Type} (f : σ → β × σ) (k : β → Prog σ ε α)

namespace Prog

variable {σ ε α β : Type}

protected def bind : Prog σ ε α → (α → Prog σ ε β) → Prog σ ε β
  | ret a, g => g a
  | throw e, _ => throw e
  | atomic f k, g => atomic f fun b => (k b).bind g

instance : Monad (Prog σ ε) where
  pure := ret
  bind := Prog.bind

/-- The sequential reading. -/
def run : Prog σ ε α → σ → Except ε α × σ
  | ret a, s => (.ok a, s)
  | throw e, s => (.error e, s)
  | atomic f k, s => (k (f s).1).run (f s).2

/-- The handler starts from the state the throwing program left behind. -/
def tryCatch : Prog σ ε α → (ε → Prog σ ε α) → Prog σ ε α
  | ret a, _ => ret a
  | throw e, h => h e
  | atomic f k, h => atomic f fun b => (k b).tryCatch h

def ofExcept : Except ε α → Prog σ ε α
  | .ok a => ret a
  | .error e => throw e

/-- One section that reads. -/
def read (f : σ → α) : Prog σ ε α := atomic (fun s => (f s, s)) ret

def get : Prog σ ε σ := read id

/-- One section that writes. -/
def modify (f : σ → σ) : Prog σ ε Unit := atomic (fun s => ((), f s)) ret

/-- `f` on each element in turn; a throw ends the loop. -/
def forEach {γ : Type} (f : γ → Prog σ ε Unit) : List γ → Prog σ ε Unit
  | [] => ret ()
  | x :: xs => f x >>= fun _ => forEach f xs

/-- The whole of `m` under a lock: one section. -/
def locked (m : Prog σ ε α) : Prog σ ε α := atomic m.run ofExcept

/-! ## Running the constructors -/

@[simp] theorem run_pure (a : α) (s : σ) : (pure a : Prog σ ε α).run s = (.ok a, s) := rfl

@[simp] theorem run_ret (a : α) (s : σ) : (ret a : Prog σ ε α).run s = (.ok a, s) := rfl

@[simp] theorem run_throw (e : ε) (s : σ) : (throw e : Prog σ ε α).run s = (.error e, s) := rfl

@[simp] theorem run_read (f : σ → α) (s : σ) :
    (read f : Prog σ ε α).run s = (.ok (f s), s) := rfl

@[simp] theorem run_get (s : σ) : (get : Prog σ ε σ).run s = (.ok s, s) := rfl

@[simp] theorem run_modify (f : σ → σ) (s : σ) :
    (modify f : Prog σ ε Unit).run s = (.ok (), f s) := rfl

@[simp] theorem run_ofExcept (r : Except ε α) (s : σ) :
    (ofExcept r : Prog σ ε α).run s = (r, s) := by
  cases r <;> rfl

/-- A lock changes nothing in the sequential reading. -/
@[simp] theorem run_locked (m : Prog σ ε α) (s : σ) : (locked m).run s = m.run s := by
  show (ofExcept (m.run s).1 : Prog σ ε α).run (m.run s).2 = m.run s
  rw [run_ofExcept]

theorem run_bind (m : Prog σ ε α) (f : α → Prog σ ε β) (s : σ) :
    (m >>= f).run s = match m.run s with
      | (.ok a, s') => (f a).run s'
      | (.error e, s') => (.error e, s') := by
  induction m generalizing s with
  | ret a => rfl
  | throw e => rfl
  | atomic g k ih => exact ih (g s).1 (g s).2

@[simp] theorem run_pure_bind (a : α) (f : α → Prog σ ε β) (s : σ) :
    ((pure a : Prog σ ε α) >>= f).run s = (f a).run s := rfl

@[simp] theorem run_throw_bind (e : ε) (f : α → Prog σ ε β) (s : σ) :
    ((throw e : Prog σ ε α) >>= f).run s = (.error e, s) := rfl

@[simp] theorem run_read_bind (g : σ → α) (f : α → Prog σ ε β) (s : σ) :
    ((read g : Prog σ ε α) >>= f).run s = (f (g s)).run s := rfl

@[simp] theorem run_get_bind (f : σ → Prog σ ε β) (s : σ) :
    ((get : Prog σ ε σ) >>= f).run s = (f s).run s := rfl

@[simp] theorem run_modify_bind (g : σ → σ) (f : Unit → Prog σ ε β) (s : σ) :
    ((modify g : Prog σ ε Unit) >>= f).run s = (f ()).run (g s) := rfl

@[simp] theorem ofExcept_ok_bind (a : α) (f : α → Prog σ ε β) :
    ((ofExcept (.ok a) : Prog σ ε α) >>= f) = f a := rfl

theorem run_bind_of_ok {m : Prog σ ε α} {f : α → Prog σ ε β} {s s' : σ} {a : α}
    (h : m.run s = (.ok a, s')) : (m >>= f).run s = (f a).run s' := by
  rw [run_bind, h]

theorem run_bind_of_error {m : Prog σ ε α} {f : α → Prog σ ε β} {s s' : σ} {e : ε}
    (h : m.run s = (.error e, s')) : (m >>= f).run s = (.error e, s') := by
  rw [run_bind, h]

theorem run_eq_of_fst {m : Prog σ ε α} {s : σ} {r : Except ε α} (h : (m.run s).1 = r) :
    m.run s = (r, (m.run s).2) := by
  rw [← h]

/-- A run that can be seen to return, with what it returns. -/
theorem run_ok_value {m : Prog σ ε α} {s : σ} (d : α) (h : (m.run s).1.toOption.isSome = true) :
    ∃ s', m.run s = (.ok ((m.run s).1.toOption.getD d), s') := by
  rcases hm : m.run s with ⟨e | a, s'⟩
  · rw [hm] at h
    cases h
  · exact ⟨s', rfl⟩

/-- **Inversion of a returning sequence**: both halves returned. -/
theorem bind_ok {m : Prog σ ε α} {f : α → Prog σ ε β} {s s'' : σ} {b : β}
    (h : (m >>= f).run s = (.ok b, s'')) :
    ∃ a s', m.run s = (.ok a, s') ∧ (f a).run s' = (.ok b, s'') := by
  rw [run_bind] at h
  rcases hm : m.run s with ⟨e | a, s'⟩
  · rw [hm] at h
    cases h
  · rw [hm] at h
    exact ⟨a, s', rfl, h⟩

/-- The results alone: both parts return. -/
theorem fst_bind_ok_iff {m : Prog σ ε α} {f : α → Prog σ ε β} {s : σ} {b : β} :
    ((m >>= f).run s).1 = .ok b ↔
      ∃ a, (m.run s).1 = .ok a ∧ ((f a).run (m.run s).2).1 = .ok b := by
  rw [run_bind]
  rcases m.run s with ⟨e | a, s'⟩
  · constructor
    · intro h
      cases h
    · rintro ⟨a, h, -⟩
      cases h
  · constructor
    · intro h
      exact ⟨a, rfl, h⟩
    · rintro ⟨a', h, hrest⟩
      cases h
      exact hrest

/-- **Inversion of a throwing sequence**: the first half threw, or it returned and the second
    half threw. -/
theorem bind_error {m : Prog σ ε α} {f : α → Prog σ ε β} {s s'' : σ} {e : ε}
    (h : (m >>= f).run s = (.error e, s'')) :
    m.run s = (.error e, s'') ∨
      ∃ a s', m.run s = (.ok a, s') ∧ (f a).run s' = (.error e, s'') := by
  rw [run_bind] at h
  rcases hm : m.run s with ⟨e' | a, s'⟩
  · rw [hm] at h
    cases h
    exact Or.inl rfl
  · rw [hm] at h
    exact Or.inr ⟨a, s', rfl, h⟩

theorem run_tryCatch (m : Prog σ ε α) (h : ε → Prog σ ε α) (s : σ) :
    (m.tryCatch h).run s = match m.run s with
      | (.ok a, s') => (.ok a, s')
      | (.error e, s') => (h e).run s' := by
  induction m generalizing s with
  | ret a => rfl
  | throw e => rfl
  | atomic g k ih => exact ih (g s).1 (g s).2

/-! ## The frame logic -/

/-- A preorder on states: what a program is allowed to do to them. -/
structure Frame (σ : Type) where
  rel : σ → σ → Prop
  refl : ∀ s, rel s s
  trans : ∀ {a b c}, rel a b → rel b c → rel a c

namespace Frame

/-- "If `I` held before, it holds after." -/
def inv (I : σ → Prop) : Frame σ where
  rel s s' := I s → I s'
  refl _ h := h
  trans h₁ h₂ h := h₂ (h₁ h)

/-- "The part `f` of the state is untouched." -/
def same {γ : Type} (f : σ → γ) : Frame σ where
  rel s s' := f s' = f s
  refl _ := rfl
  trans h₁ h₂ := h₂.trans h₁

end Frame

/-- Every run of `m`, returning or throwing, moves the state inside the frame `F`. -/
def Keeps (F : Frame σ) (m : Prog σ ε α) : Prop := ∀ s, F.rel s (m.run s).2

section Rules

variable {F : Frame σ}

theorem keeps_pure (a : α) : Keeps F (pure a : Prog σ ε α) := fun s => F.refl s

theorem keeps_throw (e : ε) : Keeps F (throw e : Prog σ ε α) := fun s => F.refl s

theorem keeps_read (f : σ → α) : Keeps F (read f : Prog σ ε α) := fun s => F.refl s

theorem keeps_modify {f : σ → σ} (h : ∀ s, F.rel s (f s)) :
    Keeps F (modify f : Prog σ ε Unit) := h

theorem keeps_ofExcept (r : Except ε α) : Keeps F (ofExcept r : Prog σ ε α) := by
  intro s
  rw [run_ofExcept]
  exact F.refl s

theorem keeps_locked {m : Prog σ ε α} (h : Keeps F m) : Keeps F (locked m) := by
  intro s
  rw [run_locked]
  exact h s

theorem keeps_bind {m : Prog σ ε α} {f : α → Prog σ ε β} (hm : Keeps F m)
    (hf : ∀ a, Keeps F (f a)) : Keeps F (m >>= f) := by
  intro s
  have h := hm s
  rw [run_bind]
  rcases hr : m.run s with ⟨e | a, s'⟩
  · rw [hr] at h
    exact h
  · rw [hr] at h
    exact F.trans h (hf a s')

/-- A program that reads the state first: the continuation may use what it read. -/
theorem keeps_get_bind {f : σ → Prog σ ε β} (hf : ∀ s, F.rel s ((f s).run s).2) :
    Keeps F (get >>= f) := hf

theorem keeps_forEach {γ : Type} {f : γ → Prog σ ε Unit} (h : ∀ x, Keeps F (f x)) :
    ∀ xs : List γ, Keeps F (forEach f xs)
  | [] => keeps_pure ()
  | x :: xs => keeps_bind (h x) fun _ => keeps_forEach h xs

theorem keeps_tryCatch {m : Prog σ ε α} {h : ε → Prog σ ε α} (hm : Keeps F m)
    (hh : ∀ e, Keeps F (h e)) : Keeps F (m.tryCatch h) := by
  intro s
  have hs := hm s
  rw [run_tryCatch]
  rcases hr : m.run s with ⟨e | a, s'⟩
  · rw [hr] at hs
    exact F.trans hs (hh e s')
  · rw [hr] at hs
    exact hs

theorem keeps_ite {c : Prop} [Decidable c] {m n : Prog σ ε α} (hm : c → Keeps F m)
    (hn : ¬ c → Keeps F n) : Keeps F (if c then m else n) := by
  split
  · next h => exact hm h
  · next h => exact hn h

end Rules

/-! ## Programs that cannot see a change

  `g` changes the state somewhere.  A program that neither reads nor writes there runs as if
  nothing had happened, and what it leaves is what it would have left, changed by `g`. -/

/-- `m` does not see whether `g` has been applied. -/
def Blind (g : σ → σ) (m : Prog σ ε α) : Prop := ∀ s, m.run (g s) = ((m.run s).1, g (m.run s).2)

section Blind

variable {g : σ → σ}

theorem blind_pure (a : α) : Blind g (pure a : Prog σ ε α) := fun _ => rfl

theorem blind_throw (e : ε) : Blind g (throw e : Prog σ ε α) := fun _ => rfl

theorem blind_ofExcept (r : Except ε α) : Blind g (ofExcept r : Prog σ ε α) := by
  intro s
  rw [run_ofExcept, run_ofExcept]

theorem blind_read {f : σ → α} (h : ∀ s, f (g s) = f s) : Blind g (read f : Prog σ ε α) := by
  intro s
  rw [run_read, run_read, h]

theorem blind_modify {f : σ → σ} (h : ∀ s, f (g s) = g (f s)) :
    Blind g (modify f : Prog σ ε Unit) := by
  intro s
  rw [run_modify, run_modify, h]

theorem blind_bind {m : Prog σ ε α} {f : α → Prog σ ε β} (hm : Blind g m)
    (hf : ∀ a, Blind g (f a)) : Blind g (m >>= f) := by
  intro s
  rw [run_bind, run_bind, hm s]
  rcases m.run s with ⟨e | a, s'⟩
  · rfl
  · exact hf a s'

theorem blind_ite {c : Prop} [Decidable c] {m n : Prog σ ε α} (hm : c → Blind g m)
    (hn : ¬ c → Blind g n) : Blind g (if c then m else n) := by
  split
  · next h => exact hm h
  · next h => exact hn h

end Blind

/-! ## Logics -/

/-- The program can return `a`, whatever others do to the state between its sections. -/
inductive Returns : {α : Type} → Prog σ ε α → α → Prop
  | ret {α : Type} (a : α) : Returns (ret a) a
  | atomic {α β : Type} {f : σ → β × σ} {k : β → Prog σ ε α} {a : α} (s : σ)
      (h : Returns (k (f s).1) a) : Returns (atomic f k) a

theorem returns_of_run {m : Prog σ ε α} {s s' : σ} {a : α} (h : m.run s = (.ok a, s')) :
    Returns m a := by
  induction m generalizing s with
  | ret b =>
    cases h
    exact .ret a
  | throw e => cases h
  | atomic f k ih => exact .atomic s (ih (f s).1 h)

/-- **Inversion of a returning sequence**, for `Returns`. -/
theorem returns_bind {m : Prog σ ε α} {f : α → Prog σ ε β} {b : β} (h : Returns (m >>= f) b) :
    ∃ a, Returns m a ∧ Returns (f a) b := by
  induction m with
  | ret a => exact ⟨a, .ret a, h⟩
  | throw e => cases h
  | atomic g k ih =>
    cases h with
    | atomic s h =>
      obtain ⟨a, ha, hb⟩ := ih (g s).1 h
      exact ⟨a, .atomic s ha, hb⟩

/-- What can be said of a program once it can be said of its sections. -/
structure Logic (σ ε : Type) where
  Holds : {α : Type} → Prog σ ε α → Prop
  holds_pure : ∀ {α : Type} (a : α), Holds (pure a : Prog σ ε α)
  holds_throw : ∀ {α : Type} (e : ε), Holds (throw e : Prog σ ε α)
  holds_read : ∀ {α : Type} (f : σ → α), Holds (read f : Prog σ ε α)
  holds_bind' : ∀ {α β : Type} {m : Prog σ ε α} {f : α → Prog σ ε β}, Holds m →
    (∀ a, Returns m a → Holds (f a)) → Holds (m >>= f)
  holds_tryCatch : ∀ {α : Type} {m : Prog σ ε α} {h : ε → Prog σ ε α}, Holds m →
    (∀ e, Holds (h e)) → Holds (m.tryCatch h)

namespace Logic

variable (L : Logic σ ε)

theorem holds_bind {m : Prog σ ε α} {f : α → Prog σ ε β} (hm : L.Holds m)
    (hf : ∀ a, L.Holds (f a)) : L.Holds (m >>= f) := L.holds_bind' hm fun a _ => hf a

theorem holds_ofExcept (r : Except ε α) : L.Holds (ofExcept r : Prog σ ε α) := by
  rcases r with e | a
  · exact L.holds_throw e
  · exact L.holds_pure a

theorem holds_ite {c : Prop} [Decidable c] {m n : Prog σ ε α} (hm : c → L.Holds m)
    (hn : ¬ c → L.Holds n) : L.Holds (if c then m else n) := by
  split
  · next h => exact hm h
  · next h => exact hn h

end Logic

/-- The frame logic is one. -/
def Frame.logic (F : Frame σ) : Logic σ ε where
  Holds := Keeps F
  holds_pure := keeps_pure
  holds_throw := keeps_throw
  holds_read := keeps_read
  holds_bind' := by
    intro α β m f hm hf s
    have h := hm s
    rw [run_bind]
    rcases hr : m.run s with ⟨e | a, s'⟩
    · rw [hr] at h
      exact h
    · rw [hr] at h
      exact F.trans h (hf a (returns_of_run hr) s')
  holds_tryCatch := keeps_tryCatch

/-! ## Conditions along a run -/

/-- Every section of the run of `m` from `s` meets `P` in the state it starts from. -/
def Along (P : {β : Type} → (σ → β × σ) → σ → Prop) {α : Type} : Prog σ ε α → σ → Prop
  | ret _, _ => True
  | throw _, _ => True
  | atomic f k, s => P f s ∧ Along P (k (f s).1) (f s).2

section

variable {P : {β : Type} → (σ → β × σ) → σ → Prop}

theorem along_bind {m : Prog σ ε α} {f : α → Prog σ ε β} {s : σ} (h : Along P (m >>= f) s) :
    Along P m s ∧ ∀ a s', m.run s = (.ok a, s') → Along P (f a) s' := by
  induction m generalizing s with
  | ret a =>
    refine ⟨trivial, fun b s' hrun => ?_⟩
    cases hrun
    exact h
  | throw e => exact ⟨trivial, fun b s' hrun => nomatch hrun⟩
  | atomic g k ih =>
    obtain ⟨hP, hrest⟩ := h
    obtain ⟨hk, hf⟩ := ih (g s).1 hrest
    exact ⟨⟨hP, hk⟩, hf⟩

theorem along_tryCatch {m : Prog σ ε α} {h : ε → Prog σ ε α} {s : σ}
    (hm : Along P (m.tryCatch h) s) :
    Along P m s ∧ ∀ e s', m.run s = (.error e, s') → Along P (h e) s' := by
  induction m generalizing s with
  | ret a => exact ⟨trivial, fun e s' hrun => nomatch hrun⟩
  | throw e =>
    refine ⟨trivial, fun e' s' hrun => ?_⟩
    cases hrun
    exact hm
  | atomic g k ih =>
    obtain ⟨hP, hrest⟩ := hm
    obtain ⟨hk, hf⟩ := ih (g s).1 hrest
    exact ⟨⟨hP, hk⟩, hf⟩

/-- The states before and after each section of the run of `m` from `s`. -/
def steps {α : Type} : Prog σ ε α → σ → List (σ × σ)
  | ret _, _ => []
  | throw _, _ => []
  | atomic f k, s => (s, (f s).2) :: steps (k (f s).1) (f s).2

/-- A condition that can be read off the states. -/
theorem along_of_steps {m : Prog σ ε α} {s : σ}
    (h : ∀ p ∈ m.steps s, ∀ {β : Type} (f : σ → β × σ), (f p.1).2 = p.2 → P f p.1) :
    Along P m s := by
  induction m generalizing s with
  | ret a => trivial
  | throw e => trivial
  | atomic f k ih =>
    exact ⟨h _ List.mem_cons_self f rfl, ih _ fun p hp => h p (List.mem_cons_of_mem _ hp)⟩

/-- **The invariant logic under a condition**: `I` is kept by every run along which `P` holds. -/
def guarded (P : {β : Type} → (σ → β × σ) → σ → Prop) (I : σ → Prop) : Logic σ ε where
  Holds m := ∀ s, Along P m s → I s → I (m.run s).2
  holds_pure _ _ _ h := h
  holds_throw _ _ _ h := h
  holds_read _ _ _ h := h
  holds_bind' := by
    intro α β m f hm hf s hP hI
    obtain ⟨hPm, hPf⟩ := along_bind hP
    have hI' := hm s hPm hI
    rw [run_bind]
    rcases hr : m.run s with ⟨e | a, s'⟩
    · rw [hr] at hI'
      exact hI'
    · rw [hr] at hI'
      exact hf a (returns_of_run hr) s' (hPf a s' hr) hI'
  holds_tryCatch := by
    intro α m h hm hh s hP hI
    obtain ⟨hPm, hPh⟩ := along_tryCatch hP
    have hI' := hm s hPm hI
    rw [run_tryCatch]
    rcases hr : m.run s with ⟨e | a, s'⟩
    · rw [hr] at hI'
      exact hh e s' (hPh e s' hr) hI'
    · rw [hr] at hI'
      exact hI'

/-- What is kept without the condition is kept under it. -/
theorem guarded_of_keeps {I : σ → Prop} {m : Prog σ ε α} (h : Keeps (Frame.inv I) m) :
    (guarded P I : Logic σ ε).Holds m := fun s _ hI => h s hI

end

/-! ## Pre- and postconditions -/

/-- From a state with `P`, a returning run ends with `Q` and a throwing run with `E`. -/
def Triple (P : σ → Prop) (m : Prog σ ε α) (Q : α → σ → Prop) (E : σ → Prop) : Prop :=
  ∀ s, P s → match m.run s with
    | (.ok a, s') => Q a s'
    | (.error _, s') => E s'

section Triples

variable {P : σ → Prop} {E : σ → Prop}

theorem triple_pure {a : α} {Q : α → σ → Prop} (h : ∀ s, P s → Q a s) :
    Triple P (pure a : Prog σ ε α) Q E := h

theorem triple_throw {e : ε} {Q : α → σ → Prop} (h : ∀ s, P s → E s) :
    Triple P (throw e : Prog σ ε α) Q E := h

theorem triple_read {f : σ → α} {Q : α → σ → Prop} (h : ∀ s, P s → Q (f s) s) :
    Triple P (read f : Prog σ ε α) Q E := h

theorem triple_modify {f : σ → σ} {Q : Unit → σ → Prop} (h : ∀ s, P s → Q () (f s)) :
    Triple P (modify f : Prog σ ε Unit) Q E := h

theorem triple_locked {m : Prog σ ε α} {Q : α → σ → Prop} (h : Triple P m Q E) :
    Triple P (locked m) Q E := by
  intro s hs
  rw [run_locked]
  exact h s hs

theorem triple_bind {m : Prog σ ε α} {f : α → Prog σ ε β} {M : α → σ → Prop}
    {Q : β → σ → Prop} (hm : Triple P m M E) (hf : ∀ a, Triple (M a) (f a) Q E) :
    Triple P (m >>= f) Q E := by
  intro s hs
  have h := hm s hs
  rw [run_bind]
  rcases hr : m.run s with ⟨e | a, s'⟩
  · rw [hr] at h
    exact h
  · rw [hr] at h
    exact hf a s' h

theorem triple_ofExcept {r : Except ε α} {Q : α → σ → Prop}
    (hok : ∀ a, r = .ok a → ∀ s, P s → Q a s) (herror : ∀ e, r = .error e → ∀ s, P s → E s) :
    Triple P (ofExcept r : Prog σ ε α) Q E := by
  rcases hr : r with e | a
  · exact herror e hr
  · exact hok a hr

/-- The handler starts from what the throwing run leaves. -/
theorem triple_tryCatch {m : Prog σ ε α} {h : ε → Prog σ ε α} {Q : α → σ → Prop}
    {E' : σ → Prop} (hm : Triple P m Q E') (hh : ∀ e, Triple E' (h e) Q E) :
    Triple P (m.tryCatch h) Q E := by
  intro s hs
  have h' := hm s hs
  rw [run_tryCatch]
  rcases hr : m.run s with ⟨e | a, s'⟩
  · rw [hr] at h'
    exact hh e s' h'
  · rw [hr] at h'
    exact h'

theorem triple_get_bind {f : σ → Prog σ ε β} {Q : β → σ → Prop}
    (hf : ∀ s, P s → Triple (fun s' => s' = s) (f s) Q E) :
    Triple P (get >>= f) Q E := fun s hs => hf s hs s rfl

theorem triple_conseq {m : Prog σ ε α} {P' : σ → Prop} {Q Q' : α → σ → Prop} {E' : σ → Prop}
    (h : Triple P m Q E) (hP : ∀ s, P' s → P s) (hQ : ∀ a s, Q a s → Q' a s)
    (hE : ∀ s, E s → E' s) : Triple P' m Q' E' := by
  intro s hs
  have h' := h s (hP s hs)
  rcases hr : m.run s with ⟨e | a, s'⟩
  · rw [hr] at h'
    exact hE _ h'
  · rw [hr] at h'
    exact hQ _ _ h'

/-- A loop, by an invariant indexed by the elements it has been through. -/
theorem triple_forEach {γ : Type} {f : γ → Prog σ ε Unit} {I : List γ → σ → Prop} (xs : List γ)
    (h : ∀ done x rest, xs = done ++ x :: rest →
      Triple (I done) (f x) (fun _ => I (done ++ [x])) E) :
    Triple (I []) (forEach f xs) (fun _ => I xs) E := by
  suffices hrest : ∀ rest done, xs = done ++ rest →
      Triple (I done) (forEach f rest) (fun _ => I xs) E from hrest xs [] rfl
  intro rest
  induction rest with
  | nil =>
    intro done hxs
    rw [List.append_nil] at hxs
    subst hxs
    exact triple_pure fun _ hs => hs
  | cons x rest ih =>
    intro done hxs
    refine triple_bind (h done x rest hxs) fun _ => ?_
    apply ih
    rw [hxs, List.append_assoc]
    rfl

/-- A frame fact read as a triple: an invariant is kept by both kinds of run. -/
theorem Keeps.triple {m : Prog σ ε α} (h : Keeps (Frame.inv P) m) :
    Triple P m (fun _ s => P s) P := by
  intro s hs
  have h' := h s hs
  rcases hr : m.run s with ⟨e | a, s'⟩
  · rw [hr] at h'
    exact h'
  · rw [hr] at h'
    exact h'

/-- ... and back: a triple with one assertion throughout is an invariant. -/
theorem Triple.keeps {m : Prog σ ε α} (h : Triple P m (fun _ s => P s) P) :
    Keeps (Frame.inv P) m := by
  intro s hs
  have h' := h s hs
  rcases hr : m.run s with ⟨e | a, s'⟩
  · rw [hr] at h'
    exact h'
  · rw [hr] at h'
    exact h'

/-- The state at the end, where both postconditions are the same. -/
theorem Triple.final {m : Prog σ ε α} {Q : σ → Prop} (h : Triple P m (fun _ => Q) Q) {s : σ}
    (hs : P s) : Q (m.run s).2 := by
  have h' := h s hs
  rcases hr : m.run s with ⟨e | a, s'⟩
  · rw [hr] at h'
    exact h'
  · rw [hr] at h'
    exact h'

/-- Two triples about the same run. -/
theorem triple_and {m : Prog σ ε α} {P' : σ → Prop} {Q Q' : α → σ → Prop} (h : Triple P m Q E)
    (h' : Triple P' m Q' E) :
    Triple (fun s => P s ∧ P' s) m (fun a s => Q a s ∧ Q' a s) E := by
  rintro s ⟨hs, hs'⟩
  have hm := h s hs
  have hm' := h' s hs'
  rcases hr : m.run s with ⟨e | a, t⟩
  · rw [hr] at hm
    exact hm
  · rw [hr] at hm hm'
    exact ⟨hm, hm'⟩

end Triples

end Prog

end MediaTomb.Lib
