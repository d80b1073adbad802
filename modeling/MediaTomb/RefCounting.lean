/-
  References that are counted (`zmm/ref.h`, `zmm/object.cc`): whatever the server allocates is held
  by them, and deleted by the last one.

  DATA.     objects, each with its count and with references among its members; references outside.
  PROGRAM.  a reference that is made retains its object, and one that goes releases it.  An object
            whose count comes to zero is DELETED, and its members are destroyed with it, so that one
            release may delete many objects.
  RESULT.   nothing that has been deleted is touched, every count is the number of references, and
            what has no reference is gone (`references_counted`), in every run in which an assignment
            works on places that something else holds (`Legal`).

  `operator=` releases what it had before it looks at the other reference.  In `p = p->next` that may
  delete the object in which the other reference is; such an assignment is not `Legal`.
-/
import Mathlib
import MediaTomb.Lib.Table

namespace MediaTomb.RefCounting

/-! ## The code -/

/-- An object: where it is, its `_ref_count`, and those of its members that are references. -/
structure Object where
  address : Nat
  refCount : Nat
  members : List (Option Nat)

/-- The objects that have not been deleted. -/
abbrev Objects := Lib.Table Object.address

/-- The objects, and the references that are not members of one. -/
structure Memory where
  vars : List (Option Nat)
  objects : Objects

/-- Where a reference is. -/
inductive Place where
  | var (i : Nat)
  | member (address i : Nat)
  deriving DecidableEq

def changeCount (f : Nat → Nat) (a : Nat) (o : Object) : Object :=
  if o.address = a then { o with refCount := f o.refCount } else o

theorem address_changeCount (f : Nat → Nat) (a : Nat) (o : Object) :
    (changeCount f a o).address = o.address := by
  unfold changeCount
  split <;> rfl

/-- `atomic_inc`, `atomic_dec`. -/
def count (f : Nat → Nat) (a : Nat) (objects : Objects) : Objects :=
  objects.update (changeCount f a) (address_changeCount f a)

/-- `retain`; none is a call on an object that was deleted. -/
def retain (objects : Objects) (a : Nat) : Option Objects :=
  (objects.find? a).map fun _ => count (· + 1) a objects

/-- `release`, once for each reference that goes.  The members of an object that is deleted go next,
    the last one first. -/
def releaseAll : Nat → Objects → List Nat → Option Objects
  | _, objects, [] => some objects
  | 0, _, _ :: _ => none
  | fuel + 1, objects, a :: rest =>
    match objects.find? a with
    | none => none
    | some o =>
      if o.refCount = 1 then
        releaseAll fuel (objects.delete fun x => x.address = a)
          (o.members.reverse.reduceOption ++ rest)
      else releaseAll fuel (count (· - 1) a objects) rest

/-- How many references there are to go, at most. -/
def work (objects : Objects) (pending : List Nat) : Nat :=
  pending.length + (objects.rows.map fun o => o.members.length).sum

def release (objects : Objects) (a : Nat) : Option Objects :=
  releaseAll (work objects [a]) objects [a]

def setMember (a i : Nat) (p : Option Nat) (o : Object) : Object :=
  if o.address = a then { o with members := o.members.set i p } else o

theorem address_setMember (a i : Nat) (p : Option Nat) (o : Object) :
    (setMember a i p o).address = o.address := by
  unfold setMember
  split <;> rfl

namespace Memory

/-- The pointer in a reference; none is a reference that does not exist any more. -/
def read (m : Memory) : Place → Option (Option Nat)
  | .var i => m.vars[i]?
  | .member a i => (m.objects.find? a).bind fun o => o.members[i]?

def write (m : Memory) (p : Option Nat) : Place → Memory
  | .var i => { m with vars := m.vars.set i p }
  | .member a i =>
    { m with objects := m.objects.update (setMember a i p) (address_setMember a i p) }

/-- `if(_ptr) _ptr->retain();` -/
def retainRef (m : Memory) : Option Nat → Option Memory
  | none => some m
  | some a => (retain m.objects a).map fun objects => { m with objects := objects }

/-- `if(_ptr) _ptr->release();` -/
def releaseRef (m : Memory) : Option Nat → Option Memory
  | none => some m
  | some a => (release m.objects a).map fun objects => { m with objects := objects }

/-- `Ref<T> r(new T());`: the allocator gives memory that is not in use. -/
def create (m : Memory) (address members : Nat) : Option Memory := do
  let objects ← m.objects.insert?
    { address := address, refCount := 0, members := List.replicate members none }
  Memory.retainRef { vars := m.vars ++ [some address], objects := objects } (some address)

/-- `Ref<T> r(other);` -/
def copy (m : Memory) (other : Place) : Option Memory := do
  let p ← m.read other
  Memory.retainRef { m with vars := m.vars ++ [p] } p

/-- `operator=(const Ref& other)` -/
def assign (m : Memory) (self other : Place) : Option Memory :=
  if self = other then some m
  else do
    let p ← m.read self
    let m ← m.releaseRef p
    let p ← m.read other
    let _ ← m.read self
    (m.write p self).retainRef p

/-- `operator=(NIL_VAR)` -/
def assignNil (m : Memory) (self : Place) : Option Memory := do
  let p ← m.read self
  let m ← m.releaseRef p
  let _ ← m.read self
  some (m.write none self)

/-- `~Ref()` of a variable. -/
def destroy (m : Memory) (i : Nat) : Option Memory := do
  let p ← m.read (.var i)
  let m ← m.releaseRef p
  some { m with vars := m.vars.eraseIdx i }

end Memory

inductive Event where
  | create (address members : Nat)
  | copy (other : Place)
  | assign (self other : Place)
  | assignNil (self : Place)
  | destroy (i : Nat)

/-- none is a step that touches what was deleted. -/
def step (m : Memory) : Event → Option Memory
  | .create address members => m.create address members
  | .copy other => m.copy other
  | .assign self other => m.assign self other
  | .assignNil self => m.assignNil self
  | .destroy i => m.destroy i

def run (m : Memory) (events : List Event) : Option Memory :=
  events.foldlM step m

/-! ## What it is for -/

/-- How many members of objects point to the address. -/
def pointedTo (objects : Objects) (a : Nat) : Nat :=
  (objects.rows.map fun o => o.members.count (some a)).sum

/-- How many references there are. -/
def Memory.refs (m : Memory) (a : Nat) : Nat := m.vars.count (some a) + pointedTo m.objects a

/-- **Every count is the number of references**, every reference has its object, and every object a
    reference. -/
structure Memory.Sound (m : Memory) : Prop where
  counts : ∀ o ∈ m.objects.rows, m.refs o.address = o.refCount
  live : ∀ a, 0 < m.refs a → ∃ o ∈ m.objects.rows, o.address = a
  held : ∀ o ∈ m.objects.rows, 0 < o.refCount

/-- The object is held, also without the reference at this place: from a variable, over members. -/
inductive Held (m : Memory) (without : Place) : Nat → Prop
  | var {i a : Nat} (hne : Place.var i ≠ without) (hread : m.read (.var i) = some (some a)) :
      Held m without a
  | member {b i a : Nat} (hb : Held m without b) (hne : Place.member b i ≠ without)
      (hread : m.read (.member b i) = some (some a)) : Held m without a

/-- The place stays when the reference at `without` goes. -/
def Stays (m : Memory) (without : Place) : Place → Prop
  | .var _ => True
  | .member a _ => Held m without a

/-- **The step works on places that exist**, and that something else holds when it releases. -/
def Legal (m : Memory) : Event → Prop
  | .create address _ => ∀ o ∈ m.objects.rows, o.address ≠ address
  | .copy other => (m.read other).isSome = true
  | .assign self other => (m.read self).isSome = true ∧ (m.read other).isSome = true ∧
      Stays m self self ∧ Stays m self other
  | .assignNil self => (m.read self).isSome = true ∧ Stays m self self
  | .destroy i => i < m.vars.length

/-- Each step is legal where it is taken. -/
def LegalRun : Memory → List Event → Prop
  | _, [] => True
  | m, e :: events => Legal m e ∧ ∀ m', step m e = some m' → LegalRun m' events

/-! ## Sums over the objects -/

section

variable {objects objects' : Objects} {o : Object} {a i fuel : Nat} {p q : Option Nat}
  {f F : Object → Nat} {rows : List Object} {pending : List Nat} {m m' : Memory}

/-- Two sums that differ at one object. -/
theorem sum_replace (hnodup : (rows.map Object.address).Nodup) (ho : o ∈ rows)
    (hsame : ∀ x ∈ rows, x.address ≠ o.address → F x = f x) :
    (rows.map F).sum + f o = (rows.map f).sum + F o := by
  induction rows with
  | nil => cases ho
  | cons x rows ih =>
    rw [List.map_cons, List.nodup_cons] at hnodup
    rw [List.map_cons, List.map_cons, List.sum_cons, List.sum_cons]
    rcases List.mem_cons.mp ho with rfl | ho
    · -- the others are the same
      have hrest : rows.map F = rows.map f := List.map_congr_left fun y hy =>
        hsame y (List.mem_cons_of_mem _ hy) fun heq =>
          hnodup.1 (heq ▸ List.mem_map_of_mem hy)
      rw [hrest]
      omega
    · have hx : F x = f x := hsame x List.mem_cons_self fun heq =>
        hnodup.1 (heq ▸ List.mem_map_of_mem ho)
      have hsum := ih hnodup.2 ho fun y hy => hsame y (List.mem_cons_of_mem _ hy)
      omega

theorem sum_filter (rows : List Object) (f : Object → Nat) (a : Nat) :
    ((rows.filter fun x => !decide (x.address = a)).map f).sum =
      (rows.map fun x => if x.address = a then 0 else f x).sum := by
  induction rows with
  | nil => rfl
  | cons x rows ih =>
    by_cases hx : x.address = a
    · rw [List.filter_cons_of_neg (by simp [hx]), List.map_cons, List.sum_cons, if_pos hx, ih]
      omega
    · rw [List.filter_cons_of_pos (by simp [hx]), List.map_cons, List.map_cons, List.sum_cons,
        List.sum_cons, if_neg hx, ih]

/-- What is left of a sum when an object goes. -/
theorem sum_delete (ho : o ∈ objects.rows) (f : Object → Nat) :
    (((objects.delete fun x => x.address = o.address).rows).map f).sum + f o =
      (objects.rows.map f).sum := by
  have hsum := @sum_replace o f (fun x => if x.address = o.address then 0 else f x) objects.rows
    objects.nodup ho fun x _ hne => if_neg hne
  have hfilter := sum_filter objects.rows f o.address
  simp only [if_true] at hsum
  unfold Lib.Table.delete
  simp only
  omega

theorem pointedTo_delete (ho : o ∈ objects.rows) (b : Nat) :
    pointedTo (objects.delete fun x => x.address = o.address) b + o.members.count (some b) =
      pointedTo objects b :=
  sum_delete ho fun o => o.members.count (some b)

theorem pointedTo_count (f : Nat → Nat) (a b : Nat) :
    pointedTo (count f a objects) b = pointedTo objects b := by
  unfold pointedTo count Lib.Table.update
  rw [List.map_map]
  congr 1
  refine List.map_congr_left fun o _ => ?_
  unfold changeCount
  simp only [Function.comp_apply]
  split <;> rfl

theorem work_count (f : Nat → Nat) (a : Nat) :
    work (count f a objects) pending = work objects pending := by
  unfold work count Lib.Table.update
  rw [List.map_map]
  congr 2
  refine List.map_congr_left fun o _ => ?_
  unfold changeCount
  simp only [Function.comp_apply]
  split <;> rfl

theorem count_reduceOption (l : List (Option Nat)) (b : Nat) :
    l.reduceOption.count b = l.count (some b) := by
  induction l with
  | nil => rfl
  | cons p l ih =>
    cases p with
    | none => rw [List.reduceOption_cons_of_none, ih, List.count_cons_of_ne (by simp)]
    | some c =>
      rw [List.reduceOption_cons_of_some, List.count_cons, List.count_cons, ih]
      by_cases hc : c = b
      · simp [hc]
      · simp [hc]

/-! ## A release -/

/-- Every count is the number of references, some of which are outside. -/
structure Balanced (objects : Objects) (outside : Nat → Nat) : Prop where
  counts : ∀ o ∈ objects.rows, outside o.address + pointedTo objects o.address = o.refCount
  live : ∀ a, 0 < outside a + pointedTo objects a → ∃ o ∈ objects.rows, o.address = a

/-- What is left has the members it had. -/
def Remains (objects objects' : Objects) : Prop :=
  ∀ o' ∈ objects'.rows, ∃ o ∈ objects.rows, o.address = o'.address ∧ o.members = o'.members

/-- Each object has a count. -/
def AllHeld (objects : Objects) : Prop := ∀ o ∈ objects.rows, 0 < o.refCount

theorem Remains.trans {objects'' : Objects} (h : Remains objects objects')
    (h' : Remains objects' objects'') : Remains objects objects'' := by
  intro o'' ho''
  obtain ⟨o', ho', haddress', hmembers'⟩ := h' o'' ho''
  obtain ⟨o, ho, haddress, hmembers⟩ := h o' ho'
  exact ⟨o, ho, haddress.trans haddress', hmembers.trans hmembers'⟩

theorem mem_count {f : Nat → Nat} (h : o ∈ (count f a objects).rows) :
    ∃ x ∈ objects.rows, x.address = o.address ∧ x.members = o.members ∧
      o.refCount = if x.address = a then f x.refCount else x.refCount := by
  obtain ⟨x, hx, rfl⟩ := Lib.Table.mem_update.mp h
  refine ⟨x, hx, (address_changeCount f a x).symm, ?_, ?_⟩
  · unfold changeCount
    split <;> rfl
  · unfold changeCount
    split <;> rfl

theorem remains_count (f : Nat → Nat) (a : Nat) : Remains objects (count f a objects) := by
  intro o ho
  obtain ⟨x, hx, haddress, hmembers, -⟩ := mem_count ho
  exact ⟨x, hx, haddress, hmembers⟩

theorem remains_delete (p : Object → Bool) : Remains objects (objects.delete p) := by
  intro o ho
  exact ⟨o, (Lib.Table.mem_delete.mp ho).1, rfl, rfl⟩

/-- The last reference goes: those that were members of the object are outside now. -/
theorem Balanced.delete {outside : Nat → Nat} {rest : List Nat} (ho : o ∈ objects.rows)
    (hone : o.refCount = 1)
    (h : Balanced objects fun b => (o.address :: rest).count b + outside b) :
    Balanced (objects.delete fun x => x.address = o.address) fun b =>
      (o.members.reverse.reduceOption ++ rest).count b + outside b := by
  have hmembers : ∀ b, (o.members.reverse.reduceOption ++ rest).count b =
      o.members.count (some b) + rest.count b := by
    intro b
    rw [List.count_append, count_reduceOption, List.count_reverse]
  -- no reference is left
  have hnone := h.counts o ho
  simp only [List.count_cons_self, hone] at hnone
  refine ⟨fun x hx => ?_, fun b hb => ?_⟩
  · obtain ⟨hx, hne⟩ := Lib.Table.mem_delete.mp hx
    have hne : x.address ≠ o.address := of_decide_eq_false hne
    have hcount := h.counts x hx
    have hsplit := pointedTo_delete ho x.address
    simp only [List.count_cons_of_ne (Ne.symm hne)] at hcount
    simp only [hmembers]
    omega
  · have hsplit := pointedTo_delete ho b
    simp only [hmembers] at hb
    have hne : b ≠ o.address := by
      rintro rfl
      omega
    obtain ⟨x, hx, rfl⟩ := h.live b (by
      simp only [List.count_cons_of_ne (Ne.symm hne)]
      omega)
    exact ⟨x, Lib.Table.mem_delete.mpr ⟨hx, decide_eq_false hne⟩, rfl⟩

/-- Another reference goes. -/
theorem Balanced.decrement {outside : Nat → Nat} {rest : List Nat}
    (h : Balanced objects fun b => (o.address :: rest).count b + outside b) :
    Balanced (count (· - 1) o.address objects) fun b => rest.count b + outside b := by
  refine ⟨fun x hx => ?_, fun b hb => ?_⟩
  · obtain ⟨y, hy, haddress, -, hcount⟩ := mem_count hx
    have hbefore := h.counts y hy
    rw [pointedTo_count, ← haddress, hcount]
    by_cases heq : y.address = o.address
    · rw [if_pos heq]
      simp only [heq, List.count_cons_self] at hbefore ⊢
      omega
    · rw [if_neg heq]
      simp only [List.count_cons_of_ne (Ne.symm heq)] at hbefore
      exact hbefore
  · rw [pointedTo_count] at hb
    obtain ⟨x, hx, hxb⟩ := h.live b (by
      simp only [List.count_cons]
      omega)
    exact ⟨_, Lib.Table.mem_update.mpr ⟨x, hx, rfl⟩, (address_changeCount _ _ x).trans hxb⟩

/-- **A release goes through**: it touches nothing that is deleted, and the counts stay right. -/
theorem releaseAll_balanced (outside : Nat → Nat) (fuel : Nat) :
    ∀ {objects : Objects} {pending : List Nat}, work objects pending ≤ fuel → AllHeld objects →
      Balanced objects (fun b => pending.count b + outside b) →
        ∃ objects', releaseAll fuel objects pending = some objects' ∧ Balanced objects' outside ∧
          AllHeld objects' := by
  have hnil : ∀ {fuel : Nat} {objects : Objects}, AllHeld objects →
      Balanced objects (fun b => ([] : List Nat).count b + outside b) →
        ∃ objects', releaseAll fuel objects [] = some objects' ∧ Balanced objects' outside ∧
          AllHeld objects' := by
    intro fuel objects hheld h
    refine ⟨objects, ?_, ⟨?_, ?_⟩, hheld⟩
    · cases fuel <;> rfl
    · intro o ho
      have hcount := h.counts o ho
      simp only [List.count_nil, Nat.zero_add] at hcount
      exact hcount
    · intro b hb
      refine h.live b ?_
      simp only [List.count_nil, Nat.zero_add]
      exact hb
  induction fuel with
  | zero =>
    intro objects pending hwork hheld h
    cases pending with
    | nil => exact hnil hheld h
    | cons a rest =>
      unfold work at hwork
      rw [List.length_cons] at hwork
      omega
  | succ fuel ih =>
    intro objects pending hwork hheld h
    cases pending with
    | nil => exact hnil hheld h
    | cons a rest =>
      obtain ⟨o, ho, rfl⟩ := h.live a (by
        simp only [List.count_cons_self]
        omega)
      have hfind : objects.find? o.address = some o := Lib.Table.find?_eq_some.mpr ⟨ho, rfl⟩
      rw [releaseAll, hfind]
      simp only
      by_cases hone : o.refCount = 1
      · rw [if_pos hone]
        have hless : work (objects.delete fun x => x.address = o.address)
            (o.members.reverse.reduceOption ++ rest) ≤ fuel := by
          have hsum := sum_delete ho fun o => o.members.length
          have hlength := List.reduceOption_length_le o.members.reverse
          rw [List.length_reverse] at hlength
          unfold work at hwork ⊢
          rw [List.length_cons] at hwork
          rw [List.length_append]
          omega
        exact ih hless (fun x hx => hheld x (Lib.Table.mem_delete.mp hx).1) (h.delete ho hone)
      · rw [if_neg hone]
        have hless : work (count (· - 1) o.address objects) rest ≤ fuel := by
          rw [work_count]
          unfold work at hwork ⊢
          rw [List.length_cons] at hwork
          omega
        have hstill : AllHeld (count (· - 1) o.address objects) := by
          intro x hx
          obtain ⟨y, hy, -, -, hcount⟩ := mem_count hx
          have hpositive := hheld y hy
          rw [hcount]
          split
          · next heq =>
            have hsame : y = o := objects.eq_of_key_eq hy ho heq
            rw [hsame] at hpositive ⊢
            omega
          · exact hpositive
        exact ih hless hstill h.decrement

/-- A release that goes through changes no member of what is left. -/
theorem releaseAll_remains : ∀ {fuel : Nat} {objects : Objects} {pending : List Nat},
    releaseAll fuel objects pending = some objects' → Remains objects objects' := by
  have hnil : ∀ {fuel : Nat} {objects : Objects}, releaseAll fuel objects [] = some objects' →
      Remains objects objects' := by
    intro fuel objects h
    have hsame : objects = objects' := by
      cases fuel <;> exact Option.some.inj h
    rw [hsame]
    exact fun o ho => ⟨o, ho, rfl, rfl⟩
  intro fuel
  induction fuel with
  | zero =>
    intro objects pending h
    cases pending with
    | nil => exact hnil h
    | cons a rest => cases h
  | succ fuel ih =>
    intro objects pending h
    cases pending with
    | nil => exact hnil h
    | cons a rest =>
      rw [releaseAll] at h
      rcases hfind : objects.find? a with _ | o
      · rw [hfind] at h
        cases h
      · rw [hfind] at h
        simp only at h
        by_cases hone : o.refCount = 1
        · rw [if_pos hone] at h
          exact (remains_delete _).trans (ih h)
        · rw [if_neg hone] at h
          exact (remains_count _ _).trans (ih h)

/-! ## Places -/

theorem mem_setMember (h : o ∈ (objects.update (setMember a i p) (address_setMember a i p)).rows) :
    ∃ x ∈ objects.rows, setMember a i p x = o := Lib.Table.mem_update.mp h

theorem refCount_setMember (a i : Nat) (p : Option Nat) (o : Object) :
    (setMember a i p o).refCount = o.refCount := by
  unfold setMember
  split <;> rfl

/-- The counts in a list in which one reference has changed. -/
theorem count_set {l : List (Option Nat)} (h : l[i]? = some p) (q : Option Nat) (b : Nat) :
    (l.set i q).count (some b) + [p].count (some b) = l.count (some b) + [q].count (some b) := by
  induction l generalizing i with
  | nil => cases h
  | cons c l ih =>
    cases i with
    | zero =>
      rw [List.getElem?_cons_zero, Option.some.injEq] at h
      rw [List.set_cons_zero, h]
      simp only [List.count_cons, List.count_nil]
      omega
    | succ i =>
      rw [List.getElem?_cons_succ] at h
      have hrest := ih h
      rw [List.set_cons_succ]
      simp only [List.count_cons, List.count_nil] at hrest ⊢
      omega

/-- **A reference is overwritten.** -/
theorem refs_write {place : Place} (h : m.read place = some p) (q : Option Nat) (b : Nat) :
    (m.write q place).refs b + [p].count (some b) = m.refs b + [q].count (some b) := by
  cases place with
  | var i =>
    have hset := count_set h q b
    unfold Memory.refs Memory.write
    simp only
    omega
  | member a i =>
    obtain ⟨o, hfind, hmember⟩ := Option.bind_eq_some_iff.mp h
    obtain ⟨ho, rfl⟩ := Lib.Table.find?_eq_some.mp hfind
    have hset := count_set hmember q b
    have hsum := @sum_replace o (fun x => x.members.count (some b))
      (fun x => (setMember o.address i q x).members.count (some b)) m.objects.rows
      m.objects.nodup ho fun x _ hne => by
        unfold setMember
        rw [if_neg hne]
    have hhere : (setMember o.address i q o).members = o.members.set i q := by
      unfold setMember
      rw [if_pos rfl]
    simp only [hhere] at hsum
    have hrows : pointedTo (m.write q (.member o.address i)).objects b =
        (m.objects.rows.map fun x => (setMember o.address i q x).members.count (some b)).sum := by
      show ((m.objects.rows.map _).map _).sum = _
      rw [List.map_map]
      rfl
    have hvars : (m.write q (.member o.address i)).vars = m.vars := rfl
    unfold Memory.refs
    rw [hrows, hvars]
    unfold pointedTo
    omega

/-- The objects of a written memory have the counts they had. -/
theorem mem_write {place : Place} (h : o ∈ (m.write p place).objects.rows) :
    ∃ x ∈ m.objects.rows, x.address = o.address ∧ x.refCount = o.refCount := by
  cases place with
  | var i => exact ⟨o, h, rfl, rfl⟩
  | member a i =>
    obtain ⟨x, hx, rfl⟩ := mem_setMember h
    exact ⟨x, hx, (address_setMember a i p x).symm, (refCount_setMember a i p x).symm⟩

theorem mem_write_of_mem (place : Place) (h : o ∈ m.objects.rows) :
    ∃ x ∈ (m.write p place).objects.rows, x.address = o.address ∧ x.refCount = o.refCount := by
  cases place with
  | var i => exact ⟨o, h, rfl, rfl⟩
  | member a i =>
    exact ⟨setMember a i p o, List.mem_map_of_mem h, address_setMember a i p o,
      refCount_setMember a i p o⟩

theorem find?_write_member (a i : Nat) (p : Option Nat) (b : Nat) :
    (m.write p (.member a i)).objects.find? b = (m.objects.find? b).map (setMember a i p) :=
  @Lib.Table.find?_update _ _ _ _ m.objects (setMember a i p) (address_setMember a i p) b

/-- What is written is read. -/
theorem read_write_self {place : Place} (h : (m.read place).isSome = true) (p : Option Nat) :
    (m.write p place).read place = some p := by
  obtain ⟨q, hq⟩ := Option.isSome_iff_exists.mp h
  cases place with
  | var i =>
    have hlt : i < m.vars.length := (List.getElem?_eq_some_iff.mp hq).1
    show (m.vars.set i p)[i]? = some p
    rw [List.getElem?_set_self hlt]
  | member a i =>
    obtain ⟨o, hfind, hmember⟩ := Option.bind_eq_some_iff.mp hq
    have hlt : i < o.members.length := (List.getElem?_eq_some_iff.mp hmember).1
    have haddress := (Lib.Table.find?_eq_some.mp hfind).2
    show ((m.write p (.member a i)).objects.find? a).bind _ = some p
    rw [find?_write_member, hfind, Option.map_some, Option.bind_some]
    unfold setMember
    rw [if_pos haddress]
    exact List.getElem?_set_self hlt

/-- Another place is read as it was. -/
theorem read_write_ne {place other : Place} (hne : other ≠ place) (p : Option Nat) :
    (m.write p place).read other = m.read other := by
  cases place with
  | var i =>
    cases other with
    | var j =>
      show (m.vars.set i p)[j]? = m.vars[j]?
      exact List.getElem?_set_ne fun heq => hne (by rw [heq])
    | member b j => rfl
  | member a i =>
    cases other with
    | var j => rfl
    | member b j =>
      show ((m.write p (.member a i)).objects.find? b).bind _ = _
      rw [find?_write_member]
      show _ = (m.objects.find? b).bind _
      rcases hfind : m.objects.find? b with _ | o
      · rfl
      · rw [Option.map_some, Option.bind_some, Option.bind_some]
        unfold setMember
        split
        · next heq =>
          have haddress := (Lib.Table.find?_eq_some.mp hfind).2
          exact List.getElem?_set_ne fun hij => hne (by rw [← haddress, heq, hij])
        · rfl

theorem setMember_setMember (a i : Nat) (p q : Option Nat) (o : Object) :
    setMember a i q (setMember a i p o) = setMember a i q o := by
  unfold setMember
  by_cases heq : o.address = a
  · simp only [if_pos heq, List.set_set]
  · simp only [if_neg heq]

/-- What is written first is gone. -/
theorem write_write (m : Memory) (p q : Option Nat) (place : Place) :
    (m.write p place).write q place = m.write q place := by
  cases place with
  | var i =>
    unfold Memory.write
    simp only [List.set_set]
  | member a i =>
    have hsame : ∀ h h', ((m.objects.update (setMember a i p) h).update (setMember a i q) h') =
        m.objects.update (setMember a i q) h' := by
      intro h h'
      refine Lib.Table.ext ?_
      unfold Lib.Table.update
      simp only [List.map_map]
      exact List.map_congr_left fun o _ => setMember_setMember a i p q o
    unfold Memory.write
    simp only [hsame]

/-- What is there already can be written. -/
theorem write_read {place : Place} (h : m.read place = some p) : m.write p place = m := by
  obtain ⟨vars, objects⟩ := m
  cases place with
  | var i =>
    have hset : vars.set i p = vars := by
      obtain ⟨hlt, hget⟩ := List.getElem?_eq_some_iff.mp h
      rw [← hget, List.set_getElem_self]
    show Memory.mk (vars.set i p) objects = _
    rw [hset]
  | member a i =>
    obtain ⟨o, hfind, hmember⟩ := Option.bind_eq_some_iff.mp h
    have hsame : ∀ h, objects.update (setMember a i p) h = objects := by
      intro h
      refine Lib.Table.ext ?_
      show objects.rows.map _ = objects.rows
      refine (List.map_congr_left fun x hx => ?_).trans (List.map_id _)
      unfold setMember
      split
      · next heq =>
        obtain ⟨ho, haddress⟩ := Lib.Table.find?_eq_some.mp hfind
        have hxo : x = o := objects.eq_of_key_eq hx ho (heq.trans haddress.symm)
        obtain ⟨hlt, hget⟩ := List.getElem?_eq_some_iff.mp hmember
        rw [hxo, ← hget, List.set_getElem_self]
        rfl
      · rfl
    unfold Memory.write
    simp only [hsame]

/-- A reference that is there is counted. -/
theorem refs_pos {place : Place} (h : m.read place = some (some a)) : 0 < m.refs a := by
  have hsame := refs_write h (some a) a
  have hless := refs_write h none a
  rw [write_read h] at hsame
  simp only [List.count_singleton] at hless
  simp at hless
  omega

/-! ## A reference that is made -/

/-- The counts are right, and every reference has its object. -/
def Memory.Counted (m : Memory) : Prop := Balanced m.objects fun b => m.vars.count (some b)

theorem Memory.Sound.counted (h : m.Sound) : m.Counted := ⟨h.counts, h.live⟩

theorem Memory.Counted.sound (h : m.Counted) (hheld : ∀ o ∈ m.objects.rows, 0 < m.refs o.address) :
    m.Sound where
  counts := h.counts
  live := h.live
  held o ho := by
    have hpositive := hheld o ho
    have hcount : m.refs o.address = o.refCount := h.counts o ho
    omega

theorem count_some (a b : Nat) : [some a].count (some b) = if a = b then 1 else 0 := by
  by_cases hab : a = b
  · simp [hab]
  · simp [hab]

/-- **A reference is written where there was none**, and retains its object. -/
theorem put_spec {place : Place} (h : m.Counted) (hread : m.read place = some none)
    (hp : ∀ a, p = some a → ∃ o ∈ m.objects.rows, o.address = a) :
    ∃ m', (m.write p place).retainRef p = some m' ∧ m'.Counted ∧
      (∀ b, m'.refs b = m.refs b + [p].count (some b)) ∧
      ∀ o' ∈ m'.objects.rows, ∃ o ∈ m.objects.rows, o.address = o'.address := by
  cases p with
  | none =>
    rw [write_read hread]
    exact ⟨m, rfl, h, fun b => rfl, fun o ho => ⟨o, ho, rfl⟩⟩
  | some a =>
    obtain ⟨o, ho, hoa⟩ := hp a rfl
    obtain ⟨x, hx, hxo, -⟩ := @mem_write_of_mem o (some a) m place ho
    have hfind : (m.write (some a) place).objects.find? a = some x :=
      Lib.Table.find?_eq_some.mpr ⟨hx, hxo.trans hoa⟩
    have hwritten : ∀ b, (m.write (some a) place).refs b = m.refs b + [some a].count (some b) :=
      fun b => refs_write hread (some a) b
    have hrefs : ∀ b, (m.write (some a) place).vars.count (some b) +
        pointedTo (count (· + 1) a (m.write (some a) place).objects) b =
          m.refs b + [some a].count (some b) := by
      intro b
      rw [pointedTo_count]
      exact hwritten b
    refine ⟨⟨(m.write (some a) place).vars, count (· + 1) a (m.write (some a) place).objects⟩, ?_,
      ⟨fun y hy => ?_, fun b hb => ?_⟩, hrefs, fun y hy => ?_⟩
    · show Option.map _ (Option.map _ ((m.write (some a) place).objects.find? a)) = _
      rw [hfind]
      rfl
    · obtain ⟨z, hz, hzy, -, hcount⟩ := mem_count hy
      obtain ⟨w, hw, hwz, hsame⟩ := mem_write hz
      have hbefore : m.refs w.address = w.refCount := h.counts w hw
      rw [hrefs, count_some, hcount, ← hsame, ← hbefore, hwz, hzy]
      by_cases heq : a = y.address
      · rw [if_pos heq, if_pos heq.symm]
      · rw [if_neg heq, if_neg (Ne.symm heq)]
        rfl
    · rw [hrefs, count_some] at hb
      have hin : ∃ w ∈ m.objects.rows, w.address = b := by
        by_cases heq : a = b
        · exact ⟨o, ho, hoa.trans heq⟩
        · rw [if_neg heq] at hb
          exact h.live b hb
      obtain ⟨w, hw, hwb⟩ := hin
      obtain ⟨z, hz, hzw, -⟩ := @mem_write_of_mem w (some a) m place hw
      exact ⟨changeCount (· + 1) a z, List.mem_map_of_mem hz,
        (address_changeCount _ _ z).trans (hzw.trans hwb)⟩
    · obtain ⟨z, hz, hzy, -⟩ := mem_count hy
      obtain ⟨w, hw, hwz, -⟩ := mem_write hz
      exact ⟨w, hw, hwz.trans hzy⟩

/-- In a memory that is right, it stays right. -/
theorem put_sound {place : Place} (h : m.Sound) (hread : m.read place = some none)
    (hp : ∀ a, p = some a → 0 < m.refs a) :
    ∃ m', (m.write p place).retainRef p = some m' ∧ m'.Sound := by
  obtain ⟨m', hrun, hcounted, hrefs, haddresses⟩ :=
    put_spec h.counted hread fun a ha => h.live a (hp a ha)
  refine ⟨m', hrun, hcounted.sound fun o' ho' => ?_⟩
  obtain ⟨o, ho, haddress⟩ := haddresses o' ho'
  have hpositive := h.held o ho
  have hcount := h.counts o ho
  rw [hrefs, ← haddress]
  omega

/-! ## A reference that goes -/

/-- What is left of the memory when the reference at a place has gone. -/
def Memory.without (m : Memory) (place : Place) (objects : Objects) : Memory :=
  ⟨(m.write none place).vars, objects⟩

/-- An object that is left is read as it was. -/
theorem read_without {place other : Place}
    (hremains : Remains (m.write none place).objects objects')
    (hleft : ∀ b j, other = .member b j → ∃ o ∈ objects'.rows, o.address = b) :
    (m.without place objects').read other = (m.write none place).read other := by
  cases other with
  | var i => rfl
  | member b j =>
    obtain ⟨o', ho', haddress'⟩ := hleft b j rfl
    obtain ⟨o, ho, haddress, hmembers⟩ := hremains o' ho'
    have hfind' : objects'.find? b = some o' := Lib.Table.find?_eq_some.mpr ⟨ho', haddress'⟩
    have hfind : (m.write none place).objects.find? b = some o :=
      Lib.Table.find?_eq_some.mpr ⟨ho, haddress.trans haddress'⟩
    show (objects'.find? b).bind _ = ((m.write none place).objects.find? b).bind _
    rw [hfind', hfind, Option.bind_some, Option.bind_some, hmembers]

/-- **What is held from elsewhere is left.** -/
theorem Held.left {place : Place} (hbalanced : (m.without place objects').Counted)
    (hremains : Remains (m.write none place).objects objects') (h : Held m place a) :
    ∃ o ∈ objects'.rows, o.address = a := by
  have hpoints : ∀ {other : Place} {a : Nat}, other ≠ place → m.read other = some (some a) →
      (∀ b j, other = .member b j → ∃ o ∈ objects'.rows, o.address = b) →
        ∃ o ∈ objects'.rows, o.address = a := by
    intro other a hne hread hleft
    have hthere : (m.without place objects').read other = some (some a) := by
      rw [read_without hremains hleft, read_write_ne hne, hread]
    exact hbalanced.live a (refs_pos hthere)
  induction h with
  | var hne hread => exact hpoints hne hread fun b j heq => nomatch heq
  | member hb hne hread ih =>
    refine hpoints hne hread fun b j heq => ?_
    cases heq
    exact ih

theorem work_update (a i : Nat) (p : Option Nat) :
    work (objects.update (setMember a i p) (address_setMember a i p)) pending =
      work objects pending := by
  unfold work Lib.Table.update
  rw [List.map_map]
  congr 2
  refine List.map_congr_left fun o _ => ?_
  unfold setMember
  simp only [Function.comp_apply]
  split
  · exact List.length_set
  · rfl

theorem changeCount_setMember (f : Nat → Nat) (a h i : Nat) (p : Option Nat) (o : Object) :
    changeCount f a (setMember h i p o) = setMember h i p (changeCount f a o) := by
  unfold changeCount
  rw [address_setMember]
  by_cases ha : o.address = a
  · rw [if_pos ha, if_pos ha]
    unfold setMember
    by_cases hh : o.address = h
    · simp only [if_pos hh]
    · simp only [if_neg hh]
  · rw [if_neg ha, if_neg ha]

/-- A release does not look at a member that stays: the one that is overwritten next is still there
    while the object that it had is released. -/
theorem releaseAll_update (h i : Nat) (p : Option Nat) : ∀ {fuel : Nat} {objects : Objects}
    {pending : List Nat}, releaseAll fuel objects pending = some objects' →
      (∃ o ∈ objects'.rows, o.address = h) →
        releaseAll fuel (objects.update (setMember h i p) (address_setMember h i p)) pending =
          some (objects'.update (setMember h i p) (address_setMember h i p)) := by
  have hnil : ∀ {fuel : Nat} {objects : Objects}, releaseAll fuel objects [] = some objects' →
      releaseAll fuel (objects.update (setMember h i p) (address_setMember h i p)) [] =
        some (objects'.update (setMember h i p) (address_setMember h i p)) := by
    intro fuel objects hrun
    have hsame : objects = objects' := by
      cases fuel <;> exact Option.some.inj hrun
    rw [hsame]
    cases fuel <;> rfl
  intro fuel
  induction fuel with
  | zero =>
    intro objects pending hrun hleft
    cases pending with
    | nil => exact hnil hrun
    | cons a rest => cases hrun
  | succ fuel ih =>
    intro objects pending hrun hleft
    cases pending with
    | nil => exact hnil hrun
    | cons a rest =>
      rw [releaseAll] at hrun ⊢
      have hfind' := @Lib.Table.find?_update _ _ _ _ objects (setMember h i p)
        (address_setMember h i p) a
      rcases hfind : objects.find? a with _ | o
      · rw [hfind] at hrun
        cases hrun
      · obtain ⟨ho, rfl⟩ := Lib.Table.find?_eq_some.mp hfind
        rw [hfind] at hrun
        rw [hfind', hfind, Option.map_some]
        simp only [refCount_setMember] at hrun ⊢
        by_cases hone : o.refCount = 1
        · rw [if_pos hone] at hrun ⊢
          -- the object with the member is not the one that is deleted
          have hne : o.address ≠ h := by
            obtain ⟨x', hx', rfl⟩ := hleft
            obtain ⟨x, hx, hxx', -⟩ := releaseAll_remains hrun x' hx'
            have hother := of_decide_eq_false (Lib.Table.mem_delete.mp hx).2
            exact fun heq => hother (hxx'.trans heq.symm)
          have hmembers : (setMember h i p o).members = o.members := by
            unfold setMember
            rw [if_neg hne]
          have hdelete : (objects.update (setMember h i p) (address_setMember h i p)).delete
              (fun x => x.address = o.address) =
                (objects.delete fun x => x.address = o.address).update (setMember h i p)
                  (address_setMember h i p) := by
            refine Lib.Table.ext ?_
            unfold Lib.Table.update Lib.Table.delete
            simp only [List.filter_map]
            congr 1
            refine List.filter_congr fun x _ => ?_
            simp only [Function.comp_apply, address_setMember]
          rw [hmembers, hdelete]
          exact ih hrun hleft
        · rw [if_neg hone] at hrun ⊢
          have hcount : count (· - 1) o.address
              (objects.update (setMember h i p) (address_setMember h i p)) =
                (count (· - 1) o.address objects).update (setMember h i p)
                  (address_setMember h i p) := by
            refine Lib.Table.ext ?_
            unfold count Lib.Table.update
            simp only [List.map_map]
            refine List.map_congr_left fun x _ => ?_
            simp only [Function.comp_apply]
            exact changeCount_setMember _ _ _ _ _ x
          rw [hcount]
          exact ih hrun hleft

/-- **The reference at a place goes.**  It is still there, though its object may be gone. -/
theorem releaseRef_spec {place : Place} (h : m.Sound) (hread : m.read place = some (some a))
    (hstays : Stays m place place) :
    ∃ objects', m.releaseRef (some a) = some ((m.without place objects').write (some a) place) ∧
      (m.without place objects').Sound ∧
      (m.without place objects').read place = some none ∧
      ∀ other, other ≠ place → Stays m place other →
        (m.without place objects').read other = m.read other := by
  have hrefs := refs_write hread none
  have hnone : ∀ b, [(none : Option Nat)].count (some b) = 0 := fun b => rfl
  have hone : ∀ b, [a].count b = [some a].count (some b) := by
    intro b
    rw [count_some, List.count_singleton]
    simp
  have htotal : ∀ b, [a].count b + (m.write none place).vars.count (some b) +
      pointedTo (m.write none place).objects b = m.refs b := by
    intro b
    have hboth := hrefs b
    rw [hnone] at hboth
    unfold Memory.refs at hboth ⊢
    rw [hone]
    omega
  -- what the release starts from, when the reference is taken out first
  have hbalanced : Balanced (m.write none place).objects fun b =>
      [a].count b + (m.write none place).vars.count (some b) := by
    refine ⟨fun o ho => ?_, fun b hb => ?_⟩
    · obtain ⟨x, hx, haddress, hcount⟩ := mem_write ho
      rw [htotal, ← haddress, ← hcount]
      exact h.counts x hx
    · rw [htotal] at hb
      obtain ⟨x, hx, hxb⟩ := h.live b hb
      obtain ⟨y, hy, hyx, -⟩ := @mem_write_of_mem x none m place hx
      exact ⟨y, hy, hyx.trans hxb⟩
  have hheld : AllHeld (m.write none place).objects := by
    intro o ho
    obtain ⟨x, hx, -, hcount⟩ := mem_write ho
    rw [← hcount]
    exact h.held x hx
  obtain ⟨objects', hrun, hcounted, hheld'⟩ :=
    releaseAll_balanced _ _ (Nat.le_refl _) hheld hbalanced
  have hremains := releaseAll_remains hrun
  have hleft : ∀ other, Stays m place other → ∀ b j, other = .member b j →
      ∃ o ∈ objects'.rows, o.address = b := by
    rintro other hother b j rfl
    exact Held.left hcounted hremains hother
  refine ⟨objects', ?_, ⟨hcounted.counts, hcounted.live, hheld'⟩, ?_, ?_⟩
  · -- the release does not look at the reference itself
    have hback : (m.write none place).write (some a) place = m := by
      rw [write_write, write_read hread]
    cases place with
    | var i =>
      have hvars : (m.vars.set i none).set i (some a) = m.vars := congrArg Memory.vars hback
      show (release m.objects a).map _ =
        some (Memory.mk ((m.vars.set i none).set i (some a)) objects')
      rw [hvars]
      have hrun' : release m.objects a = some objects' := hrun
      rw [hrun']
      rfl
    | member b i =>
      have hobjects : ((m.write none (.member b i)).objects.update (setMember b i (some a))
          (address_setMember b i (some a))) = m.objects := congrArg Memory.objects hback
      have hupdated := releaseAll_update b i (some a) hrun (hleft _ hstays b i rfl)
      rw [hobjects] at hupdated
      have hwork : work (m.write none (.member b i)).objects [a] = work m.objects [a] :=
        work_update b i none
      rw [hwork] at hupdated
      show (release m.objects a).map _ = _
      unfold release
      rw [hupdated]
      rfl
  · rw [read_without hremains (hleft _ hstays)]
    exact read_write_self (by rw [hread]; rfl) none
  · intro other hne hother
    rw [read_without hremains (hleft _ hother), read_write_ne hne]

/-! ## The steps -/

theorem read_some {place : Place} (h : (m.read place).isSome = true) :
    ∃ p, m.read place = some p := Option.isSome_iff_exists.mp h

theorem assign_sound (h : m.Sound) {self other : Place} (hself : (m.read self).isSome = true)
    (hother : (m.read other).isSome = true) (hselfStays : Stays m self self)
    (hotherStays : Stays m self other) : ∃ m', m.assign self other = some m' ∧ m'.Sound := by
  unfold Memory.assign
  by_cases hsame : self = other
  · rw [if_pos hsame]
    exact ⟨m, rfl, h⟩
  · rw [if_neg hsame]
    obtain ⟨p, hp⟩ := read_some hself
    obtain ⟨q, hq⟩ := read_some hother
    rw [hp]
    cases p with
    | none =>
      have hput := put_sound (p := q) h hp fun a ha => by
        rw [ha] at hq
        exact refs_pos hq
      show ∃ m', ((m.read other).bind fun q => (m.read self).bind fun _ =>
        (m.write q self).retainRef q) = some m' ∧ m'.Sound
      rw [hq, hp]
      exact hput
    | some a =>
      obtain ⟨objects', hrelease, hsound, hnone, hkept⟩ := releaseRef_spec h hp hselfStays
      have hq' : (m.without self objects').read other = some q := by
        rw [hkept other (Ne.symm hsame) hotherStays, hq]
      have hput := put_sound (p := q) hsound hnone fun b hb => by
        rw [hb] at hq'
        exact refs_pos hq'
      have hthere : ((m.without self objects').write (some a) self).read self = some (some a) :=
        read_write_self (by rw [hnone]; rfl) (some a)
      have hothere : ((m.without self objects').write (some a) self).read other = some q := by
        rw [read_write_ne (Ne.symm hsame), hq']
      show ∃ m', ((m.releaseRef (some a)).bind fun m => (m.read other).bind fun q =>
        (m.read self).bind fun _ => (m.write q self).retainRef q) = some m' ∧ m'.Sound
      rw [hrelease, Option.bind_some, hothere, Option.bind_some, hthere, Option.bind_some,
        write_write]
      exact hput

/-- **`p = p->next`**, where nothing else refers to the object: the release deletes it, and the other
    reference with it, before that is read. -/
theorem assign_own_member (h : m.Sound) {self : Place} (hself : m.read self = some (some a))
    (hlast : m.refs a = 1) (hne : self ≠ .member a i) : m.assign self (.member a i) = none := by
  obtain ⟨o, ho, rfl⟩ := h.live a (by omega)
  have hfind : m.objects.find? o.address = some o := Lib.Table.find?_eq_some.mpr ⟨ho, rfl⟩
  have hone : o.refCount = 1 := (h.counts o ho).symm.trans hlast
  unfold Memory.assign
  rw [if_neg hne, hself]
  show ((release m.objects o.address).map _).bind _ = none
  have hfuel : work m.objects [o.address] =
      (m.objects.rows.map fun o => o.members.length).sum + 1 := by
    unfold work
    rw [List.length_singleton]
    omega
  unfold release
  rw [hfuel, releaseAll, hfind]
  simp only [if_pos hone]
  rcases hrun : releaseAll (m.objects.rows.map fun o => o.members.length).sum
      (m.objects.delete fun x => x.address = o.address) (o.members.reverse.reduceOption ++ []) with
    _ | objects'
  · rfl
  · have hgone : objects'.find? o.address = none := by
      refine Lib.Table.find?_eq_none.mpr fun x' hx' heq => ?_
      obtain ⟨x, hx, haddress, -⟩ := releaseAll_remains hrun x' hx'
      exact of_decide_eq_false (Lib.Table.mem_delete.mp hx).2 (haddress.trans heq)
    show ((objects'.find? o.address).bind _).bind _ = none
    rw [hgone]
    rfl

theorem assignNil_sound (h : m.Sound) {self : Place} (hself : (m.read self).isSome = true)
    (hstays : Stays m self self) : ∃ m', m.assignNil self = some m' ∧ m'.Sound := by
  unfold Memory.assignNil
  obtain ⟨p, hp⟩ := read_some hself
  rw [hp]
  cases p with
  | none =>
    show ∃ m', ((m.read self).bind fun _ => some (m.write none self)) = some m' ∧ m'.Sound
    rw [hp, write_read hp]
    exact ⟨m, rfl, h⟩
  | some a =>
    obtain ⟨objects', hrelease, hsound, hnone, -⟩ := releaseRef_spec h hp hstays
    have hthere : ((m.without self objects').write (some a) self).read self = some (some a) :=
      read_write_self (by rw [hnone]; rfl) (some a)
    show ∃ m', ((m.releaseRef (some a)).bind fun m => (m.read self).bind fun _ =>
      some (m.write none self)) = some m' ∧ m'.Sound
    rw [hrelease, Option.bind_some, hthere, Option.bind_some, write_write, write_read hnone]
    exact ⟨_, rfl, hsound⟩

/-- A variable without a reference in it is not counted. -/
theorem count_eraseIdx {l : List (Option Nat)} (h : l[i]? = some none) (b : Nat) :
    (l.eraseIdx i).count (some b) = l.count (some b) := by
  induction l generalizing i with
  | nil => cases h
  | cons c l ih =>
    cases i with
    | zero =>
      rw [List.getElem?_cons_zero, Option.some.injEq] at h
      rw [List.eraseIdx_cons_zero, h]
      exact (List.count_cons_of_ne (by simp)).symm
    | succ i =>
      rw [List.getElem?_cons_succ] at h
      rw [List.eraseIdx_cons_succ, List.count_cons, List.count_cons, ih h]

theorem erase_sound (h : m.Sound) (hread : m.read (.var i) = some none) :
    Memory.Sound { m with vars := m.vars.eraseIdx i } := by
  have hrefs : ∀ b, Memory.refs { m with vars := m.vars.eraseIdx i } b = m.refs b := by
    intro b
    unfold Memory.refs
    simp only [count_eraseIdx hread b]
  refine ⟨fun o ho => ?_, fun b hb => ?_, h.held⟩
  · rw [hrefs]
    exact h.counts o ho
  · rw [hrefs] at hb
    exact h.live b hb

theorem destroy_sound (h : m.Sound) (hi : i < m.vars.length) :
    ∃ m', m.destroy i = some m' ∧ m'.Sound := by
  unfold Memory.destroy
  have hp : m.read (.var i) = some (m.vars.get ⟨i, hi⟩) := List.getElem?_eq_getElem hi
  rw [hp]
  rcases hget : m.vars.get ⟨i, hi⟩ with _ | a
  · rw [hget] at hp
    exact ⟨_, rfl, erase_sound h hp⟩
  · rw [hget] at hp
    obtain ⟨objects', hrelease, hsound, hnone, -⟩ := releaseRef_spec h hp trivial
    show ∃ m', ((m.releaseRef (some a)).bind fun m => some { m with vars := m.vars.eraseIdx i }) =
      some m' ∧ m'.Sound
    rw [hrelease, Option.bind_some]
    refine ⟨_, rfl, ?_⟩
    have herase : (((m.without (.var i) objects').write (some a) (.var i)).vars).eraseIdx i =
        (m.without (.var i) objects').vars.eraseIdx i := List.eraseIdx_set_eq
    have herased := erase_sound hsound hnone
    rw [← herase] at herased
    exact herased

/-- A variable more, without a reference in it. -/
theorem Memory.Counted.addVar {objects : Objects} (h : Memory.Counted ⟨m.vars, objects⟩) :
    Memory.Counted ⟨m.vars ++ [none], objects⟩ := by
  have hsame : ∀ b, (m.vars ++ [none]).count (some b) = m.vars.count (some b) := by
    intro b
    rw [List.count_append]
    rfl
  refine ⟨fun o ho => ?_, fun b hb => ?_⟩
  · simp only [hsame]
    exact h.counts o ho
  · simp only [hsame] at hb
    exact h.live b hb

theorem write_last (vars : List (Option Nat)) (objects : Objects) (p : Option Nat) :
    Memory.write ⟨vars ++ [none], objects⟩ p (.var vars.length) = ⟨vars ++ [p], objects⟩ := by
  show Memory.mk ((vars ++ [none]).set vars.length p) objects = _
  rw [List.set_append_right _ _ (Nat.le_refl _), Nat.sub_self]
  rfl

theorem read_last (vars : List (Option Nat)) (objects : Objects) :
    Memory.read ⟨vars ++ [none], objects⟩ (.var vars.length) = some none := by
  show (vars ++ [none])[vars.length]? = some none
  rw [List.getElem?_append_right (Nat.le_refl _), Nat.sub_self]
  rfl

theorem copy_sound (h : m.Sound) {other : Place} (hother : (m.read other).isSome = true) :
    ∃ m', m.copy other = some m' ∧ m'.Sound := by
  unfold Memory.copy
  obtain ⟨p, hp⟩ := read_some hother
  have hmore := h.counted.addVar
  have hsound : Memory.Sound ⟨m.vars ++ [none], m.objects⟩ :=
    ⟨hmore.counts, hmore.live, h.held⟩
  have hrefs : ∀ b, Memory.refs ⟨m.vars ++ [none], m.objects⟩ b = m.refs b := by
    intro b
    unfold Memory.refs
    simp only [List.count_append]
    rfl
  have hput := put_sound (p := p) hsound (read_last m.vars m.objects) fun a ha => by
    rw [hrefs]
    rw [ha] at hp
    exact refs_pos hp
  rw [write_last] at hput
  rw [hp]
  exact hput

theorem create_sound (h : m.Sound) (address members : Nat)
    (hfree : ∀ o ∈ m.objects.rows, o.address ≠ address) :
    ∃ m', m.create address members = some m' ∧ m'.Sound := by
  unfold Memory.create
  have hfresh : address ∉ m.objects.rows.map Object.address := by
    intro hin
    obtain ⟨o, ho, haddress⟩ := List.mem_map.mp hin
    exact hfree o ho haddress
  obtain ⟨objects', hinsert, hrows⟩ := @Lib.Table.insert?_of_fresh _ _ _ _ m.objects
    { address := address, refCount := 0, members := List.replicate members none } hfresh
  have hpointed : ∀ b, pointedTo objects' b = pointedTo m.objects b := by
    intro b
    unfold pointedTo
    rw [hrows, List.map_append, List.sum_append]
    have hnone : (List.replicate members (none : Option Nat)).count (some b) = 0 :=
      List.count_eq_zero.mpr fun hin => nomatch List.eq_of_mem_replicate hin
    simp only [List.map_cons, List.map_nil, List.sum_cons, List.sum_nil, hnone]
    omega
  have hunused : m.refs address = 0 := by
    by_contra hne
    obtain ⟨o, ho, haddress⟩ := h.live address (by omega)
    exact hfree o ho haddress
  have hcounted : Memory.Counted ⟨m.vars, objects'⟩ := by
    refine ⟨fun o ho => ?_, fun b hb => ?_⟩
    · simp only [hpointed]
      rw [hrows] at ho
      rcases List.mem_append.mp ho with ho | ho
      · exact h.counts o ho
      · rw [List.mem_singleton.mp ho]
        exact hunused
    · simp only [hpointed] at hb
      obtain ⟨o, ho, haddress⟩ := h.live b hb
      refine ⟨o, ?_, haddress⟩
      rw [hrows]
      exact List.mem_append_left _ ho
  obtain ⟨m', hrun, hcounted', hrefs, haddresses⟩ := put_spec (p := some address)
    hcounted.addVar (read_last m.vars objects') fun a ha => by
      cases ha
      refine ⟨{ address := address, refCount := 0, members := List.replicate members none },
        ?_, rfl⟩
      rw [hrows]
      exact List.mem_append_right _ (List.mem_singleton_self _)
  rw [write_last] at hrun
  rw [hinsert]
  refine ⟨m', hrun, hcounted'.sound fun o' ho' => ?_⟩
  obtain ⟨o, ho, haddress⟩ := haddresses o' ho'
  rw [hrefs, ← haddress, count_some]
  rw [hrows] at ho
  rcases List.mem_append.mp ho with ho | ho
  · have hpositive := h.held o ho
    have hcount : m.refs o.address = o.refCount := h.counts o ho
    have hmore : m.refs o.address ≤ Memory.refs ⟨m.vars ++ [none], objects'⟩ o.address := by
      unfold Memory.refs
      simp only [hpointed, List.count_append]
      omega
    omega
  · rw [List.mem_singleton.mp ho]
    simp only [if_true]
    omega

/-- **A legal step** touches nothing that was deleted, and leaves the memory right. -/
theorem step_sound (h : m.Sound) {e : Event} (hlegal : Legal m e) :
    ∃ m', step m e = some m' ∧ m'.Sound := by
  cases e with
  | create address members => exact create_sound h address members hlegal
  | copy other => exact copy_sound h hlegal
  | assign self other =>
    exact assign_sound h hlegal.1 hlegal.2.1 hlegal.2.2.1 hlegal.2.2.2
  | assignNil self => exact assignNil_sound h hlegal.1 hlegal.2
  | destroy i => exact destroy_sound h hlegal

/-! ## The run -/

theorem run_sound {events : List Event} (h : m.Sound) (hlegal : LegalRun m events) :
    ∃ m', run m events = some m' ∧ m'.Sound := by
  induction events generalizing m with
  | nil => exact ⟨m, rfl, h⟩
  | cons e events ih =>
    obtain ⟨hone, hrest⟩ := hlegal
    obtain ⟨m₁, hstep, h₁⟩ := step_sound h hone
    obtain ⟨m', hrun, h'⟩ := ih h₁ (hrest m₁ hstep)
    refine ⟨m', ?_, h'⟩
    unfold run
    rw [List.foldlM_cons, hstep]
    exact hrun

/-- The memory before anything is allocated. -/
def start : Memory := ⟨[], .empty⟩

theorem start_sound : start.Sound where
  counts _ ho := nomatch ho
  live _ hb := absurd hb (Nat.lt_irrefl 0)
  held _ ho := nomatch ho

/-- **References are counted.**  A legal run touches nothing that was deleted.  At its end every
    count is the number of references, and the objects that are left are those that have one. -/
theorem references_counted {events : List Event} (hlegal : LegalRun start events) :
    ∃ m, run start events = some m ∧ (∀ o ∈ m.objects.rows, o.refCount = m.refs o.address) ∧
      ∀ a, (∃ o ∈ m.objects.rows, o.address = a) ↔ 0 < m.refs a := by
  obtain ⟨m, hrun, h⟩ := run_sound start_sound hlegal
  refine ⟨m, hrun, fun o ho => (h.counts o ho).symm, fun a => ⟨?_, h.live a⟩⟩
  rintro ⟨o, ho, rfl⟩
  rw [h.counts o ho]
  exact h.held o ho

end

/-! ## A list of two -/

theorem LegalRun.cons {m m' : Memory} {e : Event} {events : List Event} (hlegal : Legal m e)
    (hstep : step m e = some m') (hrest : LegalRun m' events) : LegalRun m (e :: events) := by
  refine ⟨hlegal, fun m'' h => ?_⟩
  rw [hstep] at h
  cases h
  exact hrest

/-- `p` and `q` are allocated, `p->next = q`, `q` goes, `q = p->next`, and then `p = q`. -/
def twoNodes : List Event :=
  [.create 10 1, .create 20 0, .assign (.member 10 0) (.var 1), .destroy 1, .copy (.member 10 0),
    .assign (.var 0) (.var 1)]

theorem legal_twoNodes : LegalRun start twoNodes := by
  refine LegalRun.cons (fun o ho => nomatch ho) rfl ?_
  refine LegalRun.cons (by unfold Legal; decide) rfl ?_
  refine LegalRun.cons ⟨rfl, rfl, ?_, trivial⟩ rfl ?_
  · have hne : Place.var 0 ≠ Place.member 10 0 := nofun
    exact Held.var hne rfl
  refine LegalRun.cons (by unfold Legal; decide) rfl ?_
  refine LegalRun.cons rfl rfl ?_
  exact LegalRun.cons ⟨rfl, rfl, trivial, trivial⟩ rfl trivial

theorem references_counted_twoNodes :
    ∃ m, run start twoNodes = some m ∧ (∀ o ∈ m.objects.rows, o.refCount = m.refs o.address) ∧
      ∀ a, (∃ o ∈ m.objects.rows, o.address = a) ↔ 0 < m.refs a :=
  references_counted legal_twoNodes

/-- Two references to the second node are left, and the first node is gone. -/
example : (run start twoNodes).map (fun m => m.objects.rows.map fun o => (o.address, o.refCount)) =
    some [(20, 2)] := by decide

end MediaTomb.RefCounting
