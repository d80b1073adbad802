/-
  `ContentManager::removeObject(id, async)` for a container (`content_manager.cc`).

  Before the task that removes the container is queued, everything that would bring its content
  back has to go: the autoscan directories below it leave the lists, and the add tasks below it are
  invalidated.  Four scans do that, and each asks the same question: does a path START WITH the
  location of the container?

  That is not the question that was meant.  `/home/ab` starts with `/home/a` and is not below it, and
  the location of a virtual container is the path of another tree, which may look like a directory.
  Where no such path is around, the scans do exactly what they should, and only there.
-/
import MediaTomb.Content.AutoscanSlots
import MediaTomb.Content.TaskQueues

namespace MediaTomb

open Lib.Machine AutoscanList

/-! ## The loop of `removeIfSubdir` comes to its end -/

namespace AutoscanList

section

variable {h : Heap} {list removed : Slots} {persistent : Bool} {p : Str}

theorem startsWith_some (s p : Str) : startsWith (some s) (some p) = some (p.isPrefixOf s) := rfl

/-- The copies have their own locations, so `add` takes them; a nil location is what is left to go
    wrong. -/
theorem removeIfSubdir_failure (hknown : ∀ i d, slotAt list i = some d → d < h.next)
    (hdistinct : ∀ i j d e, slotAt list i = some d → slotAt list j = some e →
      (h.dir d).location = (h.dir e).location → i = j)
    (hremoved : ∀ e, some e ∈ removed → e < h.next ∧
      ∀ i d, slotAt list i = some d → (h.dir d).location ≠ (h.dir e).location) :
    (removeIfSubdir (some p) persistent h removed list).failure = none ↔
      ∀ i d, slotAt list i = some d → (h.dir d).location ≠ none := by
  induction list generalizing h removed with
  | nil => exact ⟨fun _ i d hi => (by cases hi), fun _ => rfl⟩
  | cons slot rest ih =>
    have hknown' : ∀ i d, slotAt rest i = some d → d < h.next := fun i d hi => hknown (i + 1) d hi
    have hdistinct' : ∀ i j d e, slotAt rest i = some d → slotAt rest j = some e →
        (h.dir d).location = (h.dir e).location → i = j := by
      intro i j d e hi hj hsame
      exact Nat.succ.inj (hdistinct (i + 1) (j + 1) d e hi hj hsame)
    have hremoved' : ∀ e, some e ∈ removed → e < h.next ∧
        ∀ i d, slotAt rest i = some d → (h.dir d).location ≠ (h.dir e).location :=
      fun e he => ⟨(hremoved e he).1, fun i d hi => (hremoved e he).2 (i + 1) d hi⟩
    -- what is true of the first slot and of the rest is true of all
    have hall : ∀ {h' : Heap}, (∀ i d, slotAt rest i = some d →
          (h'.dir d).location = (h.dir d).location) →
        (∀ d, slot = some d → (h.dir d).location ≠ none) →
        ((∀ i d, slotAt rest i = some d → (h'.dir d).location ≠ none) ↔
          ∀ i d, slotAt (slot :: rest) i = some d → (h.dir d).location ≠ none) := by
      intro h' hsame hfirst
      constructor
      · intro hrest i d hi
        cases i with
        | zero =>
          rw [slotAt_cons_zero] at hi
          exact hfirst d hi
        | succ i =>
          rw [← hsame i d hi]
          exact hrest i d hi
      · intro hboth i d hi
        rw [hsame i d hi]
        exact hboth (i + 1) d hi
    cases slot with
    | none =>
      exact (ih hknown' hdistinct' hremoved').trans
        (hall (fun _ _ _ => rfl) fun d hd => by cases hd)
    | some d =>
      have hd : d < h.next := hknown 0 d rfl
      unfold removeIfSubdir
      cases hlocation : (h.dir d).location with
      | none =>
        exact ⟨fun hnone => (by cases hnone), fun hboth => absurd hlocation (hboth 0 d rfl)⟩
      | some location =>
        have hfirst : ∀ e, some d = some e → (h.dir e).location ≠ none := by
          intro e he hnone
          cases he
          rw [hlocation] at hnone
          cases hnone
        rw [startsWith_some]
        cases hbefore : p.isPrefixOf location with
        | false =>
          exact (ih hknown' hdistinct' hremoved').trans (hall (fun _ _ _ => rfl) hfirst)
        | true =>
          simp only
          split_ifs with hpersistent
          · exact (ih hknown' hdistinct' hremoved').trans (hall (fun _ _ _ => rfl) hfirst)
          · have hself : ((h.copyTo d).dir h.next).location = (h.dir d).location := by
              rw [dir_copyTo_self]
            split
            · next failure herr =>
              -- a copy with the same location would be in the list of the removed already
              obtain ⟨-, e, he, hsame⟩ := add_error herr
              obtain ⟨hlt, hother⟩ := hremoved e he
              rw [hself, dir_copyTo_ne (Nat.ne_of_lt hlt)] at hsame
              exact absurd hsame (hother 0 d rfl)
            · next h₁ removed₁ hok =>
              obtain ⟨k, rfl, hempty, hslots, -⟩ := add_ok hok
              generalize hlater : ((Heap.setScanID ((h.copyTo d).setScanID h.next k) h.next
                (((h.copyTo d).setScanID h.next k).dir d).scanID).setScanID d invalidScanID) = h₂
              have hnext : h.next < h₂.next := by
                rw [← hlater]
                exact Nat.lt_succ_self _
              have hsame : ∀ e < h.next, (h₂.dir e).location = (h.dir e).location := by
                intro e he
                rw [← hlater, location_setScanID, location_setScanID, location_setScanID,
                  dir_copyTo_ne (Nat.ne_of_lt he)]
              have hcopy : (h₂.dir h.next).location = (h.dir d).location := by
                rw [← hlater, location_setScanID, location_setScanID, location_setScanID, hself]
              have hgoes : (removeIfSubdir (some p) persistent h₂ removed₁ rest).failure = none ↔
                  ∀ i e, slotAt rest i = some e → (h₂.dir e).location ≠ none := ih
                (fun i e hi => Nat.lt_trans (hknown' i e hi) hnext)
                (fun i j e e' hi hj heq => by
                  rw [hsame e (hknown' i e hi), hsame e' (hknown' j e' hj)] at heq
                  exact hdistinct' i j e e' hi hj heq)
                (fun e he => by
                  obtain ⟨j, hj⟩ := mem_iff_slotAt.mp he
                  rw [hslots] at hj
                  split_ifs at hj with hk
                  · cases hj
                    refine ⟨hnext, fun i e' hi heq => ?_⟩
                    rw [hsame e' (hknown' i e' hi), hcopy] at heq
                    exact absurd (hdistinct (i + 1) 0 e' d hi rfl heq) (Nat.succ_ne_zero i)
                  · obtain ⟨hlt, hother⟩ := hremoved' e (mem_iff_slotAt.mpr ⟨j, hj⟩)
                    refine ⟨Nat.lt_trans hlt hnext, fun i e' hi heq => ?_⟩
                    rw [hsame e' (hknown' i e' hi), hsame e hlt] at heq
                    exact hother i e' hi heq)
              have hboth := @hall h₂ (fun i e hi => hsame e (hknown' i e hi)) hfirst
              cases rest with
              | nil => exact hgoes.trans hboth
              | cons next rest => exact hgoes.trans hboth

theorem Sound.removeIfSubdir_failure (hs : Sound h list) :
    (AutoscanList.removeIfSubdir (some p) persistent h [] list).failure = none ↔
      ∀ i d, slotAt list i = some d → (h.dir d).location ≠ none :=
  AutoscanList.removeIfSubdir_failure hs.known hs.distinct
    fun _ he => absurd he List.not_mem_nil

end

end AutoscanList

/-! ## The server -/

/-- What `loadObject` returns, as far as `removeObject` looks at it.  The location is nil for the two
    containers that are there from the beginning. -/
structure LoadedObject where
  isContainer : Bool
  location : Option Str
  virtual : Bool
  deriving DecidableEq

/-- The part of the content manager that `removeObject` touches. -/
structure RemovalLists where
  autoscanTimed : AutoscanList.State
  autoscanInotify : AutoscanList.State
  /-- `CFG_IMPORT_AUTOSCAN_USE_INOTIFY` -/
  useInotify : Bool
  tasks : TaskQueues := {}

namespace TaskQueues

/-- The loops of `removeObject` for the location of the container; a nil location does no harm as
    long as it is not compared with anything. -/
def invalidateBelow (tasks : TaskQueues) : Option Str → Option TaskQueues
  | some path => tasks.invalidateAddTasks path
  | none => if tasks.waiting.any fun t => addsBelow [] (tasks.task t) then none else some tasks

end TaskQueues

namespace RemovalLists

/-- The inotify list is looked through only with the option. -/
def removeIfSubdirInotify (s : RemovalLists) (path : Option Str) : AutoscanList.State × Option Failure :=
  if s.useInotify then s.autoscanInotify.call (.removeIfSubdir path false)
  else (s.autoscanInotify, none)

/-- `removeObject(objectID, true, all)`; `none` stands for an object that is not found. -/
def removeObject (s : RemovalLists) : Option LoadedObject → RemovalLists × Option Failure
  | none => (s, none)
  | some obj =>
    if !obj.isContainer then ({ s with tasks := s.tasks.addTask .removeObject 0 false }, none)
    else
      let timed := s.autoscanTimed.call (.removeIfSubdir obj.location false)
      let inotify := s.removeIfSubdirInotify obj.location
      if timed.2.isSome then ({ s with autoscanTimed := timed.1 }, timed.2)
      else if inotify.2.isSome then
        ({ s with autoscanTimed := timed.1, autoscanInotify := inotify.1 }, inotify.2)
      else
        match s.tasks.invalidateBelow obj.location with
        | none =>
          ({ s with autoscanTimed := timed.1, autoscanInotify := inotify.1 }, some .nilString)
        | some tasks =>
          ({ s with
              autoscanTimed := timed.1
              autoscanInotify := inotify.1
              tasks := tasks.addTask .removeObject 0 false }, none)

/-- Whatever else happens to the lists and to the queues. -/
inductive Event where
  | timed (call : Call)
  /-- without the option nobody touches the list -/
  | inotify (call : Call)
  | task (event : TaskQueues.Event)
  | removeObject (obj : Option LoadedObject)

def step (s : RemovalLists) : Event → Option RemovalLists
  | .timed call => (s.autoscanTimed.step call).map fun l => { s with autoscanTimed := l }
  | .inotify call =>
    if s.useInotify then (s.autoscanInotify.step call).map fun l => { s with autoscanInotify := l }
    else none
  | .task event => (s.tasks.step event).map fun tasks => { s with tasks := tasks }
  | .removeObject obj =>
    match (s.removeObject obj).2 with
    | none => some (s.removeObject obj).1
    | some .throws => some (s.removeObject obj).1
    | some .emptySlot => none
    | some .nilString => none

/-- Both lists are empty, and so are the queues. -/
def started (timed inotify : Heap) (useInotify : Bool) : RemovalLists :=
  { autoscanTimed := { heap := timed }, autoscanInotify := { heap := inotify },
    useInotify := useInotify }

/-! ## What is meant -/

/-- The path itself, or the path followed by a separator and more. -/
def AtOrBelow (p x : Str) : Prop := x = p ∨ p ++ str "/" <+: x

instance (p x : Str) : Decidable (AtOrBelow p x) := inferInstanceAs (Decidable (_ ∨ _))

/-- What goes with the container: what is below a real directory, and nothing for a virtual one. -/
def Meant (obj : LoadedObject) (p x : Str) : Prop := obj.virtual = false ∧ AtOrBelow p x

instance (obj : LoadedObject) (p x : Str) : Decidable (Meant obj p x) :=
  inferInstanceAs (Decidable (_ ∧ _))

/-- A directory that has to leave its list. -/
def Leaves (meant : Str → Prop) (dir : Directory) : Prop :=
  dir.persistent = false ∧ ∃ location, dir.location = some location ∧ meant location

/-- Exactly the directories that have to have left the list. -/
def ListMeant (meant : Str → Prop) (l l' : AutoscanList.State) : Prop :=
  ∀ i, (slotAt l.list i = none → slotAt l'.list i = none) ∧
    ∀ d, slotAt l.list i = some d →
      (Leaves meant (l.heap.dir d) → slotAt l'.list i = none) ∧
      (¬ Leaves meant (l.heap.dir d) → slotAt l'.list i = some d)

/-- Exactly the add tasks that have to are invalidated. -/
def TasksMeant (meant : Str → Prop) (tasks tasks' : TaskQueues) : Prop :=
  ∀ t ∈ tasks.waiting, tasks'.isValid t = true ↔
    tasks.isValid t = true ∧ ¬ ∃ path, (tasks.task t).taskType = .addFile path ∧ meant path

/-- The call comes to its end and does what is meant. -/
structure TakesMeant (meant : Str → Prop) (s : RemovalLists) (r : RemovalLists × Option Failure) : Prop where
  returns : r.2 = none
  timed : ListMeant meant s.autoscanTimed r.1.autoscanTimed
  inotify : ListMeant meant s.autoscanInotify r.1.autoscanInotify
  tasks : TasksMeant meant s.tasks r.1.tasks

/-- **The condition** for a list: what starts with the location is what is meant. -/
def ListPlain (p : Str) (meant : Str → Prop) (l : AutoscanList.State) : Prop :=
  ∀ i d, slotAt l.list i = some d → ∃ location, (l.heap.dir d).location = some location ∧
    ((l.heap.dir d).persistent = false → p <+: location → meant location)

def TasksPlain (p : Str) (meant : Str → Prop) (tasks : TaskQueues) : Prop :=
  ∀ t ∈ tasks.waiting, tasks.isValid t = true → ∀ path, (tasks.task t).taskType = .addFile path →
    p <+: path → meant path

/-- **The condition.** -/
structure Plain (p : Str) (meant : Str → Prop) (s : RemovalLists) : Prop where
  timed : ListPlain p meant s.autoscanTimed
  inotify : ListPlain p meant s.autoscanInotify
  tasks : TasksPlain p meant s.tasks

section

variable {s s' : RemovalLists} {l : AutoscanList.State} {p : Str} {meant : Str → Prop}

theorem prefix_of_meant {obj : LoadedObject} {x : Str} (h : Meant obj p x) : p <+: x := by
  obtain ⟨-, rfl | hbelow⟩ := h
  · exact List.prefix_refl _
  · exact (List.prefix_append _ _).trans hbelow

/-! ## One list -/

theorem takes_iff {dir : Directory} : takes (some p) false dir = true ↔
    dir.persistent = false ∧ ∃ location, dir.location = some location ∧ p <+: location := by
  obtain ⟨location, persistent, objectID, scanID, timerParameter⟩ := dir
  unfold takes
  cases location with
  | none =>
    constructor
    · intro htrue
      cases htrue
    · rintro ⟨-, location, hnone, -⟩
      cases hnone
  | some location =>
    rw [startsWith_some, Bool.not_false, Bool.and_true, Bool.and_eq_true, decide_eq_true_iff,
      Option.some_inj, List.isPrefixOf_iff_prefix, Bool.not_eq_true']
    constructor
    · rintro ⟨hbefore, hpersistent⟩
      exact ⟨hpersistent, location, rfl, hbefore⟩
    · rintro ⟨hpersistent, location', hsome, hbefore⟩
      cases hsome
      exact ⟨hbefore, hpersistent⟩

/-- **`removeIfSubdir` does what is meant just when the condition holds of the list.** -/
theorem removeIfSubdir_meant_iff (hs : Sound l.heap l.list) (hmeant : ∀ x, meant x → p <+: x) :
    ((l.call (.removeIfSubdir (some p) false)).2 = none ∧
        ListMeant meant l (l.call (.removeIfSubdir (some p) false)).1) ↔ ListPlain p meant l := by
  have hreturns : (removeIfSubdir (some p) false l.heap [] l.list).failure = none ↔
      ∀ i d, slotAt l.list i = some d → (l.heap.dir d).location ≠ none := hs.removeIfSubdir_failure
  have hr : RemovesSubdirs (some p) false l.heap l.list
      (removeIfSubdir (some p) false l.heap [] l.list) :=
    removesSubdirs hs.known fun i j e hi hj => hs.once hi hj
  show ((removeIfSubdir (some p) false l.heap [] l.list).failure = none ∧ ListMeant meant l
    ⟨(removeIfSubdir (some p) false l.heap [] l.list).heap,
      (removeIfSubdir (some p) false l.heap [] l.list).slots⟩) ↔ _
  generalize removeIfSubdir (some p) false l.heap [] l.list = r at hreturns hr ⊢
  constructor
  · rintro ⟨hnone, hexact⟩ i d hi
    obtain ⟨location, hlocation⟩ := Option.ne_none_iff_exists'.mp (hreturns.mp hnone i d hi)
    refine ⟨location, hlocation, fun hpersistent hbefore => ?_⟩
    by_contra hnot
    have hgone := hr.takesAll hnone i d hi (takes_iff.mpr ⟨hpersistent, location, hlocation, hbefore⟩)
    have hstays := ((hexact i).2 d hi).2 fun hleaves => by
      obtain ⟨-, location', hlocation', hmeant'⟩ := hleaves
      rw [hlocation] at hlocation'
      cases hlocation'
      exact hnot hmeant'
    have hboth : (none : Option Nat) = some d := hgone.symm.trans hstays
    cases hboth
  · intro hplain
    have hnone : r.failure = none := by
      apply hreturns.mpr
      intro i d hi
      obtain ⟨location, hlocation, -⟩ := hplain i d hi
      rw [hlocation]
      exact Option.some_ne_none _
    refine ⟨hnone, fun i => ⟨hr.empty i, fun d hi => ⟨?_, ?_⟩⟩⟩
    · rintro ⟨hpersistent, location, hlocation, hm⟩
      exact hr.takesAll hnone i d hi
        (takes_iff.mpr ⟨hpersistent, location, hlocation, hmeant location hm⟩)
    · intro hnot
      rcases hr.slot i d hi with ⟨hsame, -⟩ | ⟨-, -, htakes⟩
      · exact hsame
      · obtain ⟨hpersistent, location, hlocation, hbefore⟩ := takes_iff.mp htakes
        obtain ⟨location', hlocation', hm⟩ := hplain i d hi
        rw [hlocation] at hlocation'
        cases hlocation'
        exact absurd ⟨hpersistent, location, hlocation, hm hpersistent hbefore⟩ hnot

/-! ## The tasks -/

theorem addsBelow_iff {task : TaskObject} : TaskQueues.addsBelow p task = true ↔
    ∃ path, task.taskType = .addFile path ∧ p <+: path := by
  unfold TaskQueues.addsBelow
  cases task.taskType with
  | addFile path =>
    simp only
    rw [List.isPrefixOf_iff_prefix]
    constructor
    · intro hbefore
      exact ⟨path, rfl, hbefore⟩
    · rintro ⟨path', heq, hbefore⟩
      cases heq
      exact hbefore
  | _ =>
    constructor
    · intro hfalse
      cases hfalse
    · rintro ⟨path, heq, -⟩
      cases heq

/-- A task that waits is still valid when it was and is not below the path. -/
theorem isValid_invalidated {tasks : TaskQueues} {w : TaskQueues.Waiting} {t : Nat}
    (h : tasks.Represents w) (ht : t ∈ tasks.waiting) :
    ∃ tasks', tasks.invalidateAddTasks p = some tasks' ∧
      ((tasks'.addTask .removeObject 0 false).isValid t = true ↔
        tasks.isValid t = true ∧ TaskQueues.addsBelow p (tasks.task t) = false) := by
  refine ⟨_, h.invalidateAddTasks p, ?_⟩
  rw [h.waiting_eq] at ht
  have hold : t ≠ tasks.created := by
    have hlt := h.old t ht
    rw [← h.created] at hlt
    exact Nat.ne_of_lt hlt
  have hmem : t ∈ w.high ++ (w.low ++ w.current.toList) := by
    unfold TaskQueues.Waiting.all at ht
    rw [← List.append_assoc]
    exact List.mem_append.mpr (List.mem_append.mp ht).symm
  have hsame : ∀ (tasks' : TaskQueues), tasks'.created = tasks.created →
      (tasks'.addTask .removeObject 0 false).isValid t = (tasks'.task t).valid := by
    intro tasks' hcreated
    rw [← hcreated] at hold
    exact congrArg TaskObject.valid (Function.update_of_ne hold _ _)
  generalize hdone : (w.high ++ (w.low ++ w.current.toList)).foldl
    (TaskQueues.invalidateIf (TaskQueues.addsBelow p)) tasks.task = task'
  rw [hsame { tasks with task := task' } rfl, ← hdone]
  simp only [TaskQueues.foldl_invalidateIf]
  unfold TaskQueues.isValid
  cases hadds : TaskQueues.addsBelow p (tasks.task t) with
  | true =>
    rw [if_pos ⟨hmem, rfl⟩]
    constructor
    · intro hfalse
      cases hfalse
    · rintro ⟨-, hfalse⟩
      cases hfalse
  | false =>
    rw [if_neg fun hboth => nomatch hboth.2]
    exact ⟨fun hvalid => ⟨hvalid, rfl⟩, fun hvalid => hvalid.1⟩

/-- **The loops over the queues do what is meant just when the condition holds of the tasks.** -/
theorem invalidateAddTasks_meant_iff {tasks tasks' : TaskQueues} {w : TaskQueues.Waiting}
    (h : tasks.Represents w) (hmeant : ∀ x, meant x → p <+: x)
    (heq : tasks.invalidateAddTasks p = some tasks') :
    TasksMeant meant tasks (tasks'.addTask .removeObject 0 false) ↔ TasksPlain p meant tasks := by
  have hvalid : ∀ t ∈ tasks.waiting, (tasks'.addTask .removeObject 0 false).isValid t = true ↔
      tasks.isValid t = true ∧ TaskQueues.addsBelow p (tasks.task t) = false := by
    intro t ht
    obtain ⟨tasks'', heq', hiff⟩ := isValid_invalidated (p := p) h ht
    rw [heq] at heq'
    cases heq'
    exact hiff
  constructor
  · intro hexact t ht hv path htype hbefore
    by_contra hnot
    have hstill := (hexact t ht).mpr ⟨hv, fun hbelow => by
      obtain ⟨path', htype', hm⟩ := hbelow
      rw [htype] at htype'
      cases htype'
      exact hnot hm⟩
    have hadds := ((hvalid t ht).mp hstill).2
    rw [addsBelow_iff.mpr ⟨path, htype, hbefore⟩] at hadds
    cases hadds
  · intro hplain t ht
    rw [hvalid t ht]
    refine and_congr_right fun hv => ?_
    rw [← Bool.not_eq_true, not_iff_not, addsBelow_iff]
    constructor
    · rintro ⟨path, htype, hbefore⟩
      exact ⟨path, htype, hplain t ht hv path htype hbefore⟩
    · rintro ⟨path, htype, hm⟩
      exact ⟨path, htype, hmeant path hm⟩

/-! ## Runs -/

/-- What every event keeps. -/
structure Kept (s : RemovalLists) : Prop where
  timed : Sound s.autoscanTimed.heap s.autoscanTimed.list
  inotify : Sound s.autoscanInotify.heap s.autoscanInotify.list
  unused : s.useInotify = false → s.autoscanInotify.list = []
  tasks : ∃ w, s.tasks.Represents w

theorem kept_started (timed inotify : Heap) (useInotify : Bool) :
    Kept (started timed inotify useInotify) :=
  ⟨sound_nil timed, sound_nil inotify, fun _ => rfl, {}, TaskQueues.represents_init⟩

theorem Kept.invalidateBelow {tasks : TaskQueues} {path : Option Str} (h : Kept s)
    (heq : s.tasks.invalidateBelow path = some tasks) : ∃ w, tasks.Represents w := by
  obtain ⟨w, hw⟩ := h.tasks
  cases path with
  | some path =>
    have heq' : s.tasks.invalidateAddTasks path = some tasks := heq
    rw [hw.invalidateAddTasks] at heq'
    cases heq'
    exact ⟨w, hw.withTask _⟩
  | none =>
    unfold TaskQueues.invalidateBelow at heq
    split_ifs at heq
    cases heq
    exact ⟨w, hw⟩

theorem Kept.removeIfSubdirInotify (h : Kept s) (path : Option Str) :
    Sound (s.removeIfSubdirInotify path).1.heap (s.removeIfSubdirInotify path).1.list ∧
      (s.useInotify = false → (s.removeIfSubdirInotify path).1.list = []) := by
  unfold RemovalLists.removeIfSubdirInotify
  split_ifs with huse
  · refine ⟨(State.call_keeps (c := .removeIfSubdir path false) h.inotify trivial).sound, ?_⟩
    intro hoff
    rw [huse] at hoff
    cases hoff
  · exact ⟨h.inotify, h.unused⟩

theorem Kept.removeObject (h : Kept s) (obj : Option LoadedObject) : Kept (s.removeObject obj).1 := by
  cases obj with
  | none => exact h
  | some obj =>
    have htimed := (State.call_keeps (c := .removeIfSubdir obj.location false) h.timed trivial).sound
    obtain ⟨hinotify, hunused⟩ := h.removeIfSubdirInotify obj.location
    unfold RemovalLists.removeObject
    simp only
    generalize s.autoscanTimed.call (.removeIfSubdir obj.location false) = timed at htimed ⊢
    generalize s.removeIfSubdirInotify obj.location = inotify at hinotify hunused ⊢
    split
    · obtain ⟨w, hw⟩ := h.tasks
      exact ⟨h.timed, h.inotify, h.unused, _, hw.addTask .removeObject 0 false⟩
    · split
      · exact ⟨htimed, h.inotify, h.unused, h.tasks⟩
      · split
        · exact ⟨htimed, hinotify, hunused, h.tasks⟩
        · cases heq : s.tasks.invalidateBelow obj.location with
          | none => exact ⟨htimed, hinotify, hunused, h.tasks⟩
          | some tasks =>
            obtain ⟨w, hw⟩ := h.invalidateBelow heq
            exact ⟨htimed, hinotify, hunused, _, hw.addTask .removeObject 0 false⟩

/-- **The step lemma.** -/
theorem Kept.step {e : Event} (h : Kept s) (hstep : s.step e = some s') : Kept s' := by
  cases e with
  | timed call =>
    obtain ⟨l, hl, rfl⟩ := Option.map_eq_some_iff.mp hstep
    exact ⟨(State.step_keeps h.timed hl).sound, h.inotify, h.unused, h.tasks⟩
  | inotify call =>
    unfold RemovalLists.step at hstep
    simp only at hstep
    split_ifs at hstep with huse
    obtain ⟨l, hl, rfl⟩ := Option.map_eq_some_iff.mp hstep
    refine ⟨h.timed, (State.step_keeps h.inotify hl).sound, fun hoff => ?_, h.tasks⟩
    rw [huse] at hoff
    cases hoff
  | task event =>
    obtain ⟨tasks, htasks, rfl⟩ := Option.map_eq_some_iff.mp hstep
    obtain ⟨w, hw⟩ := h.tasks
    exact ⟨h.timed, h.inotify, h.unused, _, hw.step htasks⟩
  | removeObject obj =>
    have hkept := h.removeObject obj
    unfold RemovalLists.step at hstep
    simp only at hstep
    split at hstep
    · cases hstep
      exact hkept
    · cases hstep
      exact hkept
    · cases hstep
    · cases hstep

theorem kept_run {timed inotify : Heap} {useInotify : Bool} {events : List Event}
    (hrun : run step (started timed inotify useInotify) events = some s) : Kept s :=
  run_inv (fun _ _ _ h hstep => h.step hstep) (kept_started timed inotify useInotify) hrun

/-! ## The headline -/

/-- The second list is looked through only with the option; without it there is nothing in it. -/
theorem Kept.inotify_meant_iff (h : Kept s) (hmeant : ∀ x, meant x → p <+: x) :
    ((s.removeIfSubdirInotify (some p)).2 = none ∧
        ListMeant meant s.autoscanInotify (s.removeIfSubdirInotify (some p)).1) ↔
      ListPlain p meant s.autoscanInotify := by
  unfold RemovalLists.removeIfSubdirInotify
  split_ifs with huse
  · exact removeIfSubdir_meant_iff h.inotify hmeant
  · have hempty := h.unused (Bool.eq_false_of_not_eq_true huse)
    constructor
    · rintro - i d hi
      rw [hempty] at hi
      cases hi
    · rintro -
      refine ⟨rfl, fun i => ⟨fun hi => hi, fun d hi => ?_⟩⟩
      rw [hempty] at hi
      cases hi

theorem Kept.takesMeant_iff {obj : LoadedObject} (h : Kept s) (hcontainer : obj.isContainer = true)
    (hlocation : obj.location = some p) (hmeant : ∀ x, meant x → p <+: x) :
    TakesMeant meant s (s.removeObject (some obj)) ↔ Plain p meant s := by
  obtain ⟨w, hw⟩ := h.tasks
  have htimed := removeIfSubdir_meant_iff h.timed hmeant
  have hinotify := h.inotify_meant_iff hmeant
  have htasks : ∀ tasks', s.tasks.invalidateAddTasks p = some tasks' →
      (TasksMeant meant s.tasks (tasks'.addTask .removeObject 0 false) ↔
        TasksPlain p meant s.tasks) := fun _ => invalidateAddTasks_meant_iff hw hmeant
  have hsome := hw.invalidateAddTasks p
  unfold RemovalLists.removeObject
  simp only
  rw [hlocation, hcontainer, Bool.not_true, if_neg Bool.false_ne_true]
  generalize s.autoscanTimed.call (.removeIfSubdir (some p) false) = timed at htimed ⊢
  generalize s.removeIfSubdirInotify (some p) = inotify at hinotify ⊢
  obtain ⟨timed, failure⟩ := timed
  obtain ⟨inotify, failure'⟩ := inotify
  cases failure with
  | some failure =>
    constructor
    · intro htakes
      cases htakes.returns
    · intro hplain
      cases (htimed.mpr hplain.timed).1
  | none =>
    cases failure' with
    | some failure' =>
      constructor
      · intro htakes
        cases htakes.returns
      · intro hplain
        cases (hinotify.mpr hplain.inotify).1
    | none =>
      have hbelow : s.tasks.invalidateBelow (some p) = some _ := hsome
      simp only [hbelow]
      constructor
      · intro htakes
        exact ⟨htimed.mp ⟨rfl, htakes.timed⟩, hinotify.mp ⟨rfl, htakes.inotify⟩,
          (htasks _ hsome).mp htakes.tasks⟩
      · intro hplain
        exact ⟨rfl, (htimed.mpr hplain.timed).2, (hinotify.mpr hplain.inotify).2,
          (htasks _ hsome).mpr hplain.tasks⟩

/-- **Removing a container takes along what is below it, and nothing else, just when nothing else
    starts with its location.** -/
theorem removeObject_takesMeant_iff {timed inotify : Heap} {useInotify : Bool}
    {events : List Event} {obj : LoadedObject}
    (hrun : run step (started timed inotify useInotify) events = some s)
    (hcontainer : obj.isContainer = true) (hlocation : obj.location = some p) :
    TakesMeant (Meant obj p) s (s.removeObject (some obj)) ↔ Plain p (Meant obj p) s :=
  (kept_run hrun).takesMeant_iff hcontainer hlocation fun _ => prefix_of_meant

end

/-! ## Brothers -/

/-- Two directories that the user has added: `/home/a/music` and `/home/ab`. -/
def brothers : Heap where
  dir d := { location := if d = 0 then str "/home/a/music" else str "/home/ab", timerParameter := d }
  timerID _ := invalidScanID
  next := 2

/-- A container with this directory as its location. -/
def homeA : LoadedObject := { isContainer := true, location := str "/home/a", virtual := false }

/-- The directory is scanned, and a file below `/home/a` waits. -/
def scanned (d : Nat) : List Event :=
  [.timed (.add d), .task (.addTask (.addFile (str "/home/a/song")) 0 true)]

def house (d : Nat) : RemovalLists :=
  (run step (started brothers brothers true) (scanned d)).getD (started brothers brothers true)

theorem run_of_isSome {d : Nat}
    (hsome : (run step (started brothers brothers true) (scanned d)).isSome = true) :
    run step (started brothers brothers true) (scanned d) = some (house d) := by
  obtain ⟨s, hs⟩ := Option.isSome_iff_exists.mp hsome
  unfold house
  rw [hs]
  rfl

/-- With `/home/a/music` in the list the container is removed as it should. -/
theorem plain_music : Plain (str "/home/a") (Meant homeA (str "/home/a")) (house 0) := by
  refine ⟨fun i d hi => ?_, fun i d hi => ?_, fun t ht hv path htype _ => ?_⟩
  · have hlist : (house 0).autoscanTimed.list = [some 0] := by decide
    rw [hlist] at hi
    cases i with
    | zero =>
      cases hi
      exact ⟨str "/home/a/music", by decide, fun _ _ => by decide⟩
    | succ i => cases hi
  · have hlist : (house 0).autoscanInotify.list = [] := by decide
    rw [hlist] at hi
    cases hi
  · have hwaiting : (house 0).tasks.waiting = [0] := by decide
    rw [hwaiting, List.mem_singleton] at ht
    have hsong : ((house 0).tasks.task 0).taskType = .addFile (str "/home/a/song") := by decide
    rw [ht, hsong] at htype
    cases htype
    decide

theorem takesMeant_music : TakesMeant (Meant homeA (str "/home/a")) (house 0)
    ((house 0).removeObject (some homeA)) :=
  (removeObject_takesMeant_iff (run_of_isSome (by decide)) rfl rfl).mpr plain_music

/-- `/home/ab` is taken out of the list when `/home/a` is removed. -/
theorem not_takesMeant_brother : ¬ ∀ timed inotify useInotify events s obj p,
    run step (started timed inotify useInotify) events = some s → obj.isContainer = true →
      obj.location = some p → TakesMeant (Meant obj p) s (s.removeObject (some obj)) := by
  intro hall
  have htakes := hall brothers brothers true (scanned 1) (house 1) homeA (str "/home/a")
    (run_of_isSome (by decide)) rfl rfl
  have hslot : slotAt (house 1).autoscanTimed.list 0 = some 1 := by decide
  have hstays := ((htakes.timed 0).2 1 hslot).2 fun hleaves => by
    obtain ⟨-, location, hlocation, hm⟩ := hleaves
    have hbrother : ((house 1).autoscanTimed.heap.dir 1).location = some (str "/home/ab") := by
      decide
    rw [hbrother] at hlocation
    cases hlocation
    exact absurd hm (by decide)
  have hgone : slotAt ((house 1).removeObject (some homeA)).1.autoscanTimed.list 0 = none := by
    decide
  rw [hgone] at hstays
  cases hstays

end RemovalLists

end MediaTomb
