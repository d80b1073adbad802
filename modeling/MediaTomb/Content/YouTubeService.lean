/-
  The refresh cycle of the YouTube service (`youtube_service.cc`).

  A call of `refreshServiceData` asks for ONE page of the task that `current_task` names, takes the
  objects of the page and goes on to the next task; it returns false when it has come to the end of
  the list.  What has been fetched of a task is kept in the task, for the next cycle.

  `current_task` is advanced in four places:

    * after a subfeed, for which new tasks are appended,
    * when there are no more pages,
    * in the loop over the objects, when the task has its amount,
    * after that loop.

  The last two can both happen in one call.
-/
import MediaTomb.ArrayBase
import MediaTomb.Encodings

namespace MediaTomb

/-! ## Tasks -/

/-- `yt_requests_t`. -/
inductive YtRequest where
  | none
  | videoSearch
  | stdfeed
  | userFavorites
  | userPlaylists
  | userSubscriptions
  | userUploads
  | subrequestPlaylists
  | subrequestSubscriptions
  deriving DecidableEq

structure YouTubeTask where
  request : YtRequest := .none
  urlPart : Option Str := .none
  parameters : Dictionary := .empty
  amount : Int := 0
  amountFetched : Int := 0
  startIndex : Int := 1
  cfgStartIndex : Int := 1
  subRequestName : Option Str := .none
  /-- the task is removed at the end of the cycle -/
  kill : Bool := false

/-- `GDATA_YT_VALUE_PER_PAGE_MAX`. -/
def perPageMax : Int := 50

/-- `AMOUNT_ALL`: the service does not give more. -/
def amountAll : Int := 1000

namespace YouTubeTask

/-- How many objects a page may have. -/
def maxResults (task : YouTubeTask) : Int :=
  if perPageMax ≤ task.amount - task.amountFetched then perPageMax
  else task.amount - task.amountFetched

/-- The paging parameters of the next request. -/
def setPaging (task : YouTubeTask) : YouTubeTask :=
  if task.amountFetched < task.amount then
    { task with
      startIndex := task.cfgStartIndex + task.amountFetched
      parameters := (task.parameters.put (str "start-index")
        (fromInt (task.cfgStartIndex + task.amountFetched))).put (str "max-results")
          (fromInt task.maxResults) }
  else task

/-- Paging begins again. -/
def resetPaging (task : YouTubeTask) : YouTubeTask :=
  { task with amountFetched := 0, startIndex := task.cfgStartIndex }

/-- A task for a link of a subfeed. -/
def subtask (task : YouTubeTask) (title link : Str) : YouTubeTask where
  kill := true
  request :=
    if task.request = .userSubscriptions then .subrequestSubscriptions
    else if task.request = .userPlaylists then .subrequestPlaylists
    else .none
  urlPart := some link
  amount := amountAll
  subRequestName := some title
  parameters := Dictionary.put (Dictionary.put .empty (str "format") (str "5"))
    (str "alt") (str "rss")

end YouTubeTask

/-- What is read from the document of a reply, as a subfeed or as content. -/
structure YouTubeFeed where
  title : Str
  links : List Str
  /-- `setServiceContent` -/
  hasItems : Bool
  /-- how often `getNextObject` returns an object -/
  objects : Nat

/-- The task list of the configuration belongs to the state: the tasks are changed in it. -/
structure YouTubeService where
  tasklist : List YouTubeTask
  currentTask : Nat := 0

namespace YouTubeService

/-- `killOneTimeTasks`, from the index `current` on. -/
def killFrom : Nat → Nat → List YouTubeTask → List YouTubeTask
  | 0, _, tasklist => tasklist
  | fuel + 1, current, tasklist =>
    match tasklist[current]? with
    | none => tasklist
    | some task =>
      if task.kill then killFrom fuel current (ArrayBase.removeUnordered tasklist current)
      else killFrom fuel (current + 1) tasklist

/-- `killOneTimeTasks`; each round removes a task or leaves one behind. -/
def killOneTimeTasks (tasklist : List YouTubeTask) : List YouTubeTask :=
  killFrom tasklist.length 0 tasklist

/-- `current_task++`, and what follows it in all four places. -/
def nextTask (s : YouTubeService) : YouTubeService × Bool :=
  if s.tasklist.length ≤ s.currentTask + 1 then
    ({ tasklist := killOneTimeTasks s.tasklist, currentTask := 0 }, false)
  else ({ s with currentTask := s.currentTask + 1 }, true)

def setTask (s : YouTubeService) (i : Nat) (task : YouTubeTask) : YouTubeService :=
  { s with tasklist := s.tasklist.set i task }

/-- The loop over the objects of a page.  `false` when the function returns out of it, which it
    does with false.  The server is not being shut down. -/
def takeObjects (i : Nat) : Nat → YouTubeService → YouTubeService × Bool
  | 0, s => (s, true)
  | n + 1, s =>
    match s.tasklist[i]? with
    | none => (s, true)
    | some task =>
      if task.amount ≤ task.amountFetched + 1 then
        match (s.setTask i task.resetPaging).nextTask with
        | (s', false) => (s', false)
        -- no break: the loop goes on for the same task
        | (s', true) => takeObjects i n s'
      else takeObjects i n (s.setTask i { task with amountFetched := task.amountFetched + 1 })

/-- `refreshServiceData`.  The reply is an exception, nil or a document.  What becomes of the
    objects has no part in the paging. -/
def refreshServiceData (s : YouTubeService) (reply : Except Exception (Option YouTubeFeed)) :
    YouTubeService × Except Exception Bool :=
  match s.tasklist[s.currentTask]? with
  | none =>
    if s.tasklist = [] then
      (s, .error (.exception (str "Not specified what content to fetch!")))
    else (s, .error (.exception (str "Encountered invalid task!")))
  | some task =>
    let asked := s.setTask s.currentTask task.setPaging
    match reply with
    | .error ex => (asked, .error ex)
    | .ok none =>
      if task.request = .userSubscriptions ∨ task.request = .userPlaylists then
        (asked, .error (.exception (str "Failed to retrieve YouTube subfeed")))
      else
        (asked, .error (.exception (str "Failed to get XML content from YouTube service")))
    | .ok (some feed) =>
      if task.request = .userSubscriptions ∨ task.request = .userPlaylists then
        let tasks := feed.links.map (task.subtask feed.title)
        let (s', more) := nextTask { asked with tasklist := asked.tasklist ++ tasks }
        (s', .ok more)
      else if !feed.hasItems then
        let (s', more) := (asked.setTask s.currentTask task.setPaging.resetPaging).nextTask
        (s', .ok more)
      else
        match takeObjects s.currentTask feed.objects asked with
        | (s', false) => (s', .ok false)
        | (s', true) => (s'.nextTask.1, .ok s'.nextTask.2)

/-! ## A cycle -/

/-- One request of a cycle: from which position on, and how many objects were taken. -/
structure Fetch where
  task : Nat
  start : Int
  count : Nat
  deriving DecidableEq

/-- A page of `n` objects. -/
def page (n : Nat) : Except Exception (Option YouTubeFeed) :=
  .ok (some { title := str "feed", links := [], hasItems := true, objects := n })

def refreshed (s : YouTubeService) (n : Nat) : YouTubeService := (s.refreshServiceData (page n)).1

/-- The service may answer with `n` objects: at least one, and at most as many as are asked for. -/
def Answers (s : YouTubeService) (n : Nat) : Prop :=
  1 ≤ n ∧ ∀ task, s.tasklist[s.currentTask]? = some task → (n : Int) ≤ task.maxResults

/-- The request of the next call. -/
def fetch (s : YouTubeService) (n : Nat) : Fetch where
  task := s.currentTask
  start := match s.tasklist[s.currentTask]? with
    | some task => task.setPaging.startIndex
    | none => 0
  count := n

/-- **A cycle**: calls that return true, and one that returns false.  `ns` are the numbers of
    objects in the replies. -/
def Cycle : YouTubeService → List Nat → Prop
  | _, [] => False
  | s, n :: ns => s.Answers n ∧
    ((ns = [] ∧ (s.refreshServiceData (page n)).2 = .ok false) ∨
      ((s.refreshServiceData (page n)).2 = .ok true ∧ Cycle (s.refreshed n) ns))

def fetches : YouTubeService → List Nat → List Fetch
  | _, [] => []
  | s, n :: ns => s.fetch n :: fetches (s.refreshed n) ns

/-- The positions of a task that were fetched, in this order. -/
def positions (fs : List Fetch) (i : Nat) : List Int :=
  (fs.filter (·.task = i)).flatMap fun f => (List.range f.count).map fun (k : Nat) => f.start + k

/-- **What a cycle is for.** -/
structure Served (tasklist : List YouTubeTask) (fs : List Fetch) : Prop where
  requested : ∀ i < tasklist.length, ∃ f ∈ fs, f.task = i
  amount : ∀ i task, tasklist[i]? = some task → ((positions fs i).length : Int) ≤ task.amount
  start : ∀ i task, tasklist[i]? = some task →
    ∀ p ∈ (positions fs i).head?, p = task.cfgStartIndex
  once : ∀ i, (positions fs i).Nodup

/-- A task without subfeed that is not removed, and of which something is left to fetch. -/
structure Plain (task : YouTubeTask) : Prop where
  subscriptions : task.request ≠ .userSubscriptions
  playlists : task.request ≠ .userPlaylists
  kill : task.kill = false
  fetched : 0 ≤ task.amountFetched
  left : task.amountFetched < task.amount

/-! ## One call -/

section

variable {s s' : YouTubeService} {task : YouTubeTask} {i n : Nat} {ns : List Nat}

theorem maxResults_le (task : YouTubeTask) :
    task.maxResults ≤ task.amount - task.amountFetched := by
  unfold YouTubeTask.maxResults
  split
  · next hle => exact hle
  · exact Int.le_refl _

theorem Plain.startIndex_setPaging (h : Plain task) :
    task.setPaging.startIndex = task.cfgStartIndex + task.amountFetched := by
  unfold YouTubeTask.setPaging
  rw [if_pos h.left]

/-- The parameters of the request say the same. -/
theorem Plain.parameters_setPaging (h : Plain task) :
    task.setPaging.parameters.get (str "start-index") =
        some (fromInt (task.cfgStartIndex + task.amountFetched)) ∧
      task.setPaging.parameters.get (str "max-results") = some (fromInt task.maxResults) := by
  unfold YouTubeTask.setPaging
  rw [if_pos h.left]
  constructor
  · rw [Dictionary.get_put, if_neg (by decide), Dictionary.get_put, if_pos rfl]
  · rw [Dictionary.get_put, if_pos rfl]

/-- Paging changes the paging alone. -/
theorem setPaging_same (task : YouTubeTask) : task.setPaging.request = task.request ∧
    task.setPaging.kill = task.kill ∧ task.setPaging.amount = task.amount ∧
    task.setPaging.amountFetched = task.amountFetched ∧
    task.setPaging.cfgStartIndex = task.cfgStartIndex := by
  unfold YouTubeTask.setPaging
  split <;> exact ⟨rfl, rfl, rfl, rfl, rfl⟩

theorem nextTask_last (h : s.tasklist.length ≤ s.currentTask + 1) :
    s.nextTask = ({ tasklist := killOneTimeTasks s.tasklist, currentTask := 0 }, false) := by
  unfold nextTask
  rw [if_pos h]

theorem nextTask_more (h : s.currentTask + 1 < s.tasklist.length) :
    s.nextTask = ({ s with currentTask := s.currentTask + 1 }, true) := by
  unfold nextTask
  rw [if_neg (Nat.not_le.mpr h)]

theorem setTask_setTask (s : YouTubeService) (i : Nat) (task task' : YouTubeTask) :
    (s.setTask i task).setTask i task' = s.setTask i task' := by
  unfold setTask
  rw [List.set_set]

/-- Objects that do not make up the amount are counted. -/
theorem takeObjects_short (n : Nat) : ∀ (s : YouTubeService) (task : YouTubeTask),
    s.tasklist[i]? = some task → task.amountFetched + n < task.amount →
      takeObjects i n s =
        (s.setTask i { task with amountFetched := task.amountFetched + n }, true) := by
  induction n with
  | zero =>
    intro s task hget _
    show (s, true) = _
    obtain ⟨hlt, rfl⟩ := List.getElem?_eq_some_iff.mp hget
    unfold setTask
    rw [Int.natCast_zero, Int.add_zero, List.set_getElem_self]
  | succ n ih =>
    intro s task hget hleft
    unfold takeObjects
    rw [hget]
    simp only
    rw [if_neg (by omega)]
    have hlt : i < s.tasklist.length := (List.getElem?_eq_some_iff.mp hget).1
    rw [ih _ { task with amountFetched := task.amountFetched + 1 }
      (List.getElem?_set_self hlt) (by show task.amountFetched + 1 + n < task.amount; omega),
      setTask_setTask]
    show (s.setTask i { task with amountFetched := task.amountFetched + 1 + n }, true) = _
    rw [show task.amountFetched + 1 + (n : Int) = task.amountFetched + (n + 1 : Nat) by omega]

/-- The object that makes up the amount is the last one, and `current_task` is advanced. -/
theorem takeObjects_full (hpos : 1 ≤ n) (hget : s.tasklist[i]? = some task)
    (hfull : task.amountFetched + n = task.amount) :
    takeObjects i n s = (s.setTask i task.resetPaging).nextTask := by
  obtain ⟨m, rfl⟩ : ∃ m, n = m + 1 := ⟨n - 1, by omega⟩
  -- all but one are short of it
  have hsplit : ∀ (m : Nat) (s : YouTubeService) (task : YouTubeTask), s.tasklist[i]? = some task →
      task.amountFetched + (m + 1 : Nat) = task.amount →
      takeObjects i (m + 1) s = (s.setTask i task.resetPaging).nextTask := by
    intro m
    induction m with
    | zero =>
      intro s task hget hfull
      unfold takeObjects
      rw [hget]
      simp only
      rw [if_pos (by omega)]
      rcases hnext : (s.setTask i task.resetPaging).nextTask with ⟨s', _ | _⟩ <;> rfl
    | succ m ih =>
      intro s task hget hfull
      have hlt : i < s.tasklist.length := (List.getElem?_eq_some_iff.mp hget).1
      unfold takeObjects
      rw [hget]
      simp only
      rw [if_neg (by omega), ih _ { task with amountFetched := task.amountFetched + 1 }
        (List.getElem?_set_self hlt)
        (by show task.amountFetched + 1 + (m + 1 : Nat) = task.amount; omega), setTask_setTask]
      rfl
  exact hsplit m s task hget hfull

/-- By how much `current_task` is advanced: once after the loop, and once in it when the task has
    its amount. -/
def advance (task : YouTubeTask) (n : Nat) : Nat :=
  if task.amountFetched + n < task.amount then 1 else 2

/-- For a plain task and a page with objects it is the loop that counts. -/
theorem refresh_plain (hget : s.tasklist[s.currentTask]? = some task) (hplain : Plain task)
    (n : Nat) :
    s.refreshServiceData (page n) =
      match takeObjects s.currentTask n (s.setTask s.currentTask task.setPaging) with
      | (s', false) => (s', .ok false)
      | (s', true) => (s'.nextTask.1, .ok s'.nextTask.2) := by
  have hrequest : ¬ (task.request = .userSubscriptions ∨ task.request = .userPlaylists) := by
    rintro (h | h)
    · exact hplain.subscriptions h
    · exact hplain.playlists h
  simp only [refreshServiceData, page, hget, hrequest, if_false, Bool.not_true, Bool.false_eq_true]

/-- Nothing is removed where nothing is to be removed. -/
theorem killOneTimeTasks_eq {tasklist : List YouTubeTask}
    (h : ∀ task ∈ tasklist, task.kill = false) : killOneTimeTasks tasklist = tasklist := by
  have hfrom : ∀ fuel current, killFrom fuel current tasklist = tasklist := by
    intro fuel
    induction fuel with
    | zero =>
      intro current
      rfl
    | succ fuel ih =>
      intro current
      unfold killFrom
      split
      · rfl
      · next task hget =>
        rw [h task (List.mem_of_getElem? hget)]
        exact ih (current + 1)
  exact hfrom _ _

/-- **A call**: it ends the cycle, or it goes on to a later task; no other task is changed. -/
theorem refresh_advance (hall : ∀ task ∈ s.tasklist, Plain task)
    (hget : s.tasklist[s.currentTask]? = some task) (hanswers : s.Answers n) :
    ∃ task', Plain task' ∧
      ((s.tasklist.length ≤ s.currentTask + advance task n ∧
        s.refreshServiceData (page n) = (⟨s.tasklist.set s.currentTask task', 0⟩, .ok false)) ∨
      (s.currentTask + advance task n < s.tasklist.length ∧
        s.refreshServiceData (page n) =
          (⟨s.tasklist.set s.currentTask task', s.currentTask + advance task n⟩, .ok true))) := by
  have hplain : Plain task := hall task (List.mem_of_getElem? hget)
  obtain ⟨hpos, hmax⟩ := hanswers
  have hle : (n : Int) ≤ task.amount - task.amountFetched :=
    Int.le_trans (hmax task hget) (maxResults_le task)
  have hlt : s.currentTask < s.tasklist.length := (List.getElem?_eq_some_iff.mp hget).1
  obtain ⟨hrequest, hkill, hamount, hfetched, hcfg⟩ := setPaging_same task
  have hasked : (s.setTask s.currentTask task.setPaging).tasklist[s.currentTask]? =
      some task.setPaging := List.getElem?_set_self hlt
  have hkills : ∀ task', Plain task' → killOneTimeTasks (s.setTask s.currentTask task').tasklist =
      s.tasklist.set s.currentTask task' := by
    intro task' hplain'
    apply killOneTimeTasks_eq
    intro t ht
    rcases List.mem_or_eq_of_mem_set ht with hold | rfl
    · exact (hall t hold).kill
    · exact hplain'.kill
  rw [refresh_plain hget hplain]
  by_cases hshort : task.amountFetched + n < task.amount
  · have hone : advance task n = 1 := if_pos hshort
    rw [hone, takeObjects_short n _ _ hasked (by rw [hfetched, hamount]; exact hshort),
      setTask_setTask]
    simp only
    generalize hnew : ({ task.setPaging with
      amountFetched := task.setPaging.amountFetched + n } : YouTubeTask) = task'
    have hplain' : Plain task' := by
      rw [← hnew]
      refine ⟨?_, ?_, ?_, ?_, ?_⟩
      · exact hrequest ▸ hplain.subscriptions
      · exact hrequest ▸ hplain.playlists
      · exact hkill.trans hplain.kill
      · show 0 ≤ task.setPaging.amountFetched + (n : Int)
        have := hplain.fetched
        omega
      · show task.setPaging.amountFetched + (n : Int) < task.setPaging.amount
        rw [hfetched, hamount]
        exact hshort
    have hlength : (s.setTask s.currentTask task').tasklist.length = s.tasklist.length :=
      List.length_set
    refine ⟨task', hplain', ?_⟩
    rcases Nat.lt_or_ge (s.currentTask + 1) s.tasklist.length with hmore | hend
    · right
      rw [nextTask_more (hlength.symm ▸ hmore)]
      exact ⟨hmore, rfl⟩
    · left
      rw [nextTask_last (hlength.symm ▸ hend), hkills task' hplain']
      exact ⟨hend, rfl⟩
  · -- the task has its amount: one step in the loop, and one after it
    have htwo : advance task n = 2 := if_neg hshort
    rw [htwo, takeObjects_full hpos hasked (by rw [hfetched, hamount]; omega), setTask_setTask]
    generalize hnew : task.setPaging.resetPaging = task'
    have hplain' : Plain task' := by
      rw [← hnew]
      refine ⟨?_, ?_, ?_, Int.le_refl 0, ?_⟩
      · exact hrequest ▸ hplain.subscriptions
      · exact hrequest ▸ hplain.playlists
      · exact hkill.trans hplain.kill
      · show 0 < task.setPaging.amount
        rw [hamount]
        exact Int.lt_of_le_of_lt hplain.fetched hplain.left
    have hlength : (s.setTask s.currentTask task').tasklist.length = s.tasklist.length :=
      List.length_set
    refine ⟨task', hplain', ?_⟩
    rcases Nat.lt_or_ge (s.currentTask + 1) s.tasklist.length with hmore | hend
    · rw [nextTask_more (hlength.symm ▸ hmore)]
      simp only
      rcases Nat.lt_or_ge (s.currentTask + 2) s.tasklist.length with hmore' | hend'
      · right
        rw [nextTask_more (hlength.symm ▸ hmore')]
        exact ⟨hmore', rfl⟩
      · left
        rw [nextTask_last (hlength.symm ▸ hend')]
        exact ⟨hend', congrArg (fun tasks => (YouTubeService.mk tasks 0, Except.ok false))
          (hkills task' hplain')⟩
    · left
      rw [nextTask_last (hlength.symm ▸ hend), hkills task' hplain']
      exact ⟨Nat.le_succ_of_le hend, rfl⟩

/-! ## A whole cycle -/

/-- **What the calls of a cycle ask for**: tasks further and further on in the list, each once, from
    where the task stands; and when no task is left out. -/
structure Advances (s : YouTubeService) (ns : List Nat) : Prop where
  later : ∀ f ∈ fetches s ns, s.currentTask ≤ f.task
  fetched : ∀ f ∈ fetches s ns, ∃ task, s.tasklist[f.task]? = some task ∧
    f.start = task.cfgStartIndex + task.amountFetched ∧ 1 ≤ f.count ∧
    (f.count : Int) ≤ task.amount - task.amountFetched
  once : (fetches s ns).Pairwise (·.task < ·.task)
  all : (∀ j, s.currentTask ≤ j → j < s.tasklist.length → ∃ f ∈ fetches s ns, f.task = j) ↔
    ∀ (k n : Nat) (task : YouTubeTask), ns[k]? = some n →
      s.tasklist[s.currentTask + k]? = some task →
      s.currentTask + k + 1 < s.tasklist.length → task.amountFetched + n < task.amount

theorem current_of_ok {b : Bool} (h : (s.refreshServiceData (page n)).2 = .ok b) :
    ∃ task, s.tasklist[s.currentTask]? = some task := by
  rcases hget : s.tasklist[s.currentTask]? with _ | task
  · unfold refreshServiceData at h
    rw [hget] at h
    simp only at h
    split at h <;> cases h
  · exact ⟨task, rfl⟩

theorem fetch_plain (hget : s.tasklist[s.currentTask]? = some task) (hplain : Plain task)
    (hanswers : s.Answers n) : (s.fetch n).start = task.cfgStartIndex + task.amountFetched ∧
      1 ≤ (s.fetch n).count ∧ ((s.fetch n).count : Int) ≤ task.amount - task.amountFetched := by
  refine ⟨?_, hanswers.1, Int.le_trans (hanswers.2 task hget) (maxResults_le task)⟩
  unfold fetch
  rw [hget]
  exact hplain.startIndex_setPaging

/-- The last call. -/
theorem advances_last (hget : s.tasklist[s.currentTask]? = some task) (hplain : Plain task)
    (hanswers : s.Answers n) (hend : s.tasklist.length ≤ s.currentTask + advance task n) :
    s.Advances [n] := by
  have hone : fetches s [n] = [s.fetch n] := rfl
  have hlt : s.currentTask < s.tasklist.length := (List.getElem?_eq_some_iff.mp hget).1
  refine ⟨?_, ?_, ?_, ?_⟩
  · intro f hf
    rw [hone] at hf
    rw [List.mem_singleton.mp hf]
    exact Nat.le_refl _
  · intro f hf
    rw [hone] at hf
    rw [List.mem_singleton.mp hf]
    exact ⟨task, hget, fetch_plain hget hplain hanswers⟩
  · rw [hone]
    exact List.pairwise_singleton _ _
  · rw [hone]
    constructor
    · intro hall k m task' hk htask' hmore
      obtain ⟨rfl, rfl⟩ : k = 0 ∧ n = m := by
        rcases k with _ | k
        · exact ⟨rfl, Option.some.inj hk⟩
        · cases hk
      -- the next task is not asked for
      obtain ⟨f, hf, hnext⟩ := hall (s.currentTask + 1) (Nat.le_succ _) hmore
      rw [List.mem_singleton.mp hf] at hnext
      exact absurd hnext (Nat.ne_of_lt (Nat.lt_succ_self _))
    · intro hshort j hle hj
      have hcases : j = s.currentTask := by
        by_contra hne
        have hnot := hshort 0 n task rfl hget (by omega)
        have hstep : advance task n = 1 := if_pos hnot
        omega
      exact ⟨s.fetch n, List.mem_singleton_self _, hcases.symm⟩

/-- A call before the last. -/
theorem advances_cons {task' : YouTubeTask} (hget : s.tasklist[s.currentTask]? = some task)
    (hplain : Plain task) (hanswers : s.Answers n)
    (hmore : s.currentTask + advance task n < s.tasklist.length)
    (hnext : s.refreshed n =
      ⟨s.tasklist.set s.currentTask task', s.currentTask + advance task n⟩)
    (hrest : (s.refreshed n).Advances ns) : s.Advances (n :: ns) := by
  have hcons : fetches s (n :: ns) = s.fetch n :: fetches (s.refreshed n) ns := rfl
  have hone : 1 ≤ advance task n := by
    unfold advance
    split <;> omega
  have hcurrent : (s.refreshed n).currentTask = s.currentTask + advance task n := by
    rw [hnext]
  have hlength : (s.refreshed n).tasklist.length = s.tasklist.length := by
    rw [hnext]
    exact List.length_set
  -- the tasks still to come are as they were
  have hsame : ∀ j, s.currentTask < j → (s.refreshed n).tasklist[j]? = s.tasklist[j]? := by
    intro j hj
    rw [hnext]
    exact List.getElem?_set_ne (Nat.ne_of_lt hj)
  have hlater : ∀ f ∈ fetches (s.refreshed n) ns, s.currentTask + advance task n ≤ f.task := by
    intro f hf
    rw [← hcurrent]
    exact hrest.later f hf
  refine ⟨?_, ?_, ?_, ?_⟩
  · intro f hf
    rw [hcons] at hf
    rcases List.mem_cons.mp hf with rfl | hf
    · exact Nat.le_refl _
    · exact Nat.le_trans (Nat.le_add_right _ _) (hlater f hf)
  · intro f hf
    rw [hcons] at hf
    rcases List.mem_cons.mp hf with rfl | hf
    · exact ⟨task, hget, fetch_plain hget hplain hanswers⟩
    · obtain ⟨t, ht, hrest'⟩ := hrest.fetched f hf
      have := hlater f hf
      rw [hsame f.task (by omega)] at ht
      exact ⟨t, ht, hrest'⟩
  · rw [hcons]
    refine List.pairwise_cons.mpr ⟨fun f hf => ?_, hrest.once⟩
    have := hlater f hf
    show s.currentTask < f.task
    omega
  · have hall := hrest.all
    rw [hcurrent, hlength] at hall
    rw [hcons]
    constructor
    · intro hvisited
      -- the next task is asked for, so that it has not been passed over
      obtain ⟨f, hf, htask⟩ := hvisited (s.currentTask + 1) (Nat.le_succ _) (by omega)
      have hadvance : advance task n = 1 := by
        rcases List.mem_cons.mp hf with rfl | hf
        · exact absurd htask (Nat.ne_of_lt (Nat.lt_succ_self _))
        · have := hlater f hf
          omega
      rw [hadvance] at hall
      have hshort : task.amountFetched + n < task.amount := by
        by_contra hnot
        unfold advance at hadvance
        rw [if_neg hnot] at hadvance
        cases hadvance
      have htail := hall.mp (fun j hle hj => by
        obtain ⟨f, hf, htask⟩ := hvisited j (by omega) hj
        rcases List.mem_cons.mp hf with rfl | hf
        · have : s.currentTask = j := htask
          omega
        · exact ⟨f, hf, htask⟩)
      intro k m task₀ hk htask₀ hlt
      rcases k with _ | k
      · cases hk
        rw [Nat.add_zero, hget] at htask₀
        cases htask₀
        exact hshort
      · refine htail k m task₀ hk ?_ (by omega)
        rw [hsame _ (by omega), ← htask₀, Nat.add_assoc, Nat.add_comm 1]
    · intro hshort j hle hj
      have hadvance : advance task n = 1 := if_pos (hshort 0 n task rfl hget (by omega))
      rw [hadvance] at hall
      rcases Nat.eq_or_lt_of_le hle with rfl | hlt
      · exact ⟨s.fetch n, List.mem_cons_self, rfl⟩
      · obtain ⟨f, hf, htask⟩ := hall.mpr (fun k m task₀ hk htask₀ hlt' => by
          rw [hsame _ (by omega), Nat.add_assoc, Nat.add_comm 1] at htask₀
          exact hshort (k + 1) m task₀ hk htask₀ (by omega)) j hlt hj
        exact ⟨f, List.mem_cons_of_mem _ hf, htask⟩

theorem Cycle.advances (ns : List Nat) : ∀ s : YouTubeService, (∀ task ∈ s.tasklist, Plain task) →
    s.Cycle ns → s.Advances ns := by
  induction ns with
  | nil =>
    intro s _ h
    cases h
  | cons n ns ih =>
    intro s hplain ⟨hanswers, hcases⟩
    obtain ⟨task, hget⟩ : ∃ task, s.tasklist[s.currentTask]? = some task := by
      rcases hcases with ⟨-, hlast⟩ | ⟨hmore, -⟩
      · exact current_of_ok hlast
      · exact current_of_ok hmore
    have htask : Plain task := hplain task (List.mem_of_getElem? hget)
    obtain ⟨task', hplain', ⟨hend, hfalse⟩ | ⟨hlt, hnext⟩⟩ := refresh_advance hplain hget hanswers
    · rcases hcases with ⟨rfl, -⟩ | ⟨htrue, -⟩
      · exact advances_last hget htask hanswers hend
      · rw [hfalse] at htrue
        cases htrue
    · rcases hcases with ⟨-, hfalse⟩ | ⟨-, hrest⟩
      · rw [hnext] at hfalse
        cases hfalse
      · have hnext' : s.refreshed n =
            ⟨s.tasklist.set s.currentTask task', s.currentTask + advance task n⟩ := by
          unfold refreshed
          rw [hnext]
        refine advances_cons hget htask hanswers hlt hnext' (ih _ (fun t ht => ?_) hrest)
        rw [hnext'] at ht
        rcases List.mem_or_eq_of_mem_set ht with hold | rfl
        · exact hplain t hold
        · exact hplain'

/-- The service after a cycle. -/
def after : YouTubeService → List Nat → YouTubeService
  | s, [] => s
  | s, n :: ns => after (s.refreshed n) ns

/-- **A cycle leaves plain tasks plain**, and the next one starts at the first task. -/
theorem Cycle.after_plain (ns : List Nat) : ∀ s : YouTubeService,
    (∀ task ∈ s.tasklist, Plain task) → s.Cycle ns →
      (s.after ns).currentTask = 0 ∧ ∀ task ∈ (s.after ns).tasklist, Plain task := by
  induction ns with
  | nil =>
    intro s _ h
    cases h
  | cons n ns ih =>
    intro s hplain ⟨hanswers, hcases⟩
    obtain ⟨task, hget⟩ : ∃ task, s.tasklist[s.currentTask]? = some task := by
      rcases hcases with ⟨-, hlast⟩ | ⟨hmore, -⟩
      · exact current_of_ok hlast
      · exact current_of_ok hmore
    have hset : ∀ task', Plain task' → ∀ t ∈ s.tasklist.set s.currentTask task', Plain t := by
      intro task' hplain' t ht
      rcases List.mem_or_eq_of_mem_set ht with hold | rfl
      · exact hplain t hold
      · exact hplain'
    obtain ⟨task', hplain', ⟨-, hfalse⟩ | ⟨-, htrue⟩⟩ := refresh_advance hplain hget hanswers
    · rcases hcases with ⟨rfl, -⟩ | ⟨hmore, -⟩
      · have hafter : s.after [n] = ⟨s.tasklist.set s.currentTask task', 0⟩ :=
          congrArg Prod.fst hfalse
        rw [hafter]
        exact ⟨rfl, hset task' hplain'⟩
      · rw [hfalse] at hmore
        cases hmore
    · rcases hcases with ⟨-, hlast⟩ | ⟨-, hrest⟩
      · rw [htrue] at hlast
        cases hlast
      · refine ih _ ?_ hrest
        unfold refreshed
        rw [htrue]
        exact hset task' hplain'

/-! ## What is served -/

theorem filter_task {fs : List Fetch} (honce : fs.Pairwise (·.task < ·.task)) {f : Fetch}
    (hf : f ∈ fs) : fs.filter (fun g => g.task = f.task) = [f] := by
  induction fs with
  | nil => cases hf
  | cons g fs ih =>
    obtain ⟨hlater, honce'⟩ := List.pairwise_cons.mp honce
    rcases List.mem_cons.mp hf with rfl | hf
    · have hnone : fs.filter (fun g => g.task = f.task) = [] := by
        rw [List.filter_eq_nil_iff]
        intro g hg
        rw [decide_eq_true_iff]
        exact (Nat.ne_of_lt (hlater g hg)).symm
      rw [List.filter_cons, if_pos (decide_eq_true rfl), hnone]
    · have hother : ¬ decide (g.task = f.task) = true := by
        intro h
        exact absurd (of_decide_eq_true h) (Nat.ne_of_lt (hlater f hf))
      rw [List.filter_cons, if_neg hother]
      exact ih honce' hf

/-- A task that is asked for once. -/
theorem positions_of_mem {fs : List Fetch} (honce : fs.Pairwise (·.task < ·.task)) {f : Fetch}
    (hf : f ∈ fs) : positions fs f.task =
      (List.range f.count).map fun (k : Nat) => f.start + k := by
  unfold positions
  rw [filter_task honce hf, List.flatMap_singleton]

theorem positions_of_not_mem {fs : List Fetch} (h : ∀ f ∈ fs, f.task ≠ i) :
    positions fs i = [] := by
  have hnone : fs.filter (fun g => g.task = i) = [] := by
    rw [List.filter_eq_nil_iff]
    intro g hg
    rw [decide_eq_true_iff]
    exact h g hg
  unfold positions
  rw [hnone]
  rfl

/-- **When a cycle serves all its tasks.**  The tasks stand at their beginning when the cycle
    starts, and no reply but that for the last task brings the whole amount at once. -/
theorem cycle_served_iff (hplain : ∀ task ∈ s.tasklist, Plain task) (hstart : s.currentTask = 0)
    (hcycle : s.Cycle ns) :
    Served s.tasklist (fetches s ns) ↔
      (∀ task ∈ s.tasklist, task.amountFetched = 0) ∧
      ∀ (i n : Nat) (task : YouTubeTask), ns[i]? = some n → s.tasklist[i]? = some task →
        i + 1 < s.tasklist.length → n < task.amount := by
  obtain ⟨-, hfetched, honce, hall⟩ := hcycle.advances ns s hplain
  rw [hstart] at hall
  simp only [Nat.zero_le, true_imp_iff, Nat.zero_add] at hall
  constructor
  · intro hserved
    have hzero : ∀ task ∈ s.tasklist, task.amountFetched = 0 := by
      intro task hmem
      obtain ⟨i, hget⟩ := List.mem_iff_getElem?.mp hmem
      obtain ⟨f, hf, rfl⟩ := hserved.requested i (List.getElem?_eq_some_iff.mp hget).1
      obtain ⟨task', hget', hbegin, hpos, -⟩ := hfetched f hf
      rw [hget] at hget'
      cases hget'
      -- the first position that is fetched is where the task stands
      have hfirst := hserved.start f.task task hget f.start (by
        rw [positions_of_mem honce hf]
        obtain ⟨m, hm⟩ : ∃ m, f.count = m + 1 := ⟨f.count - 1, by omega⟩
        rw [hm, List.range_succ_eq_map, List.map_cons, List.head?_cons]
        exact Option.mem_some.mpr (by rw [Int.natCast_zero, Int.add_zero]))
      omega
    refine ⟨hzero, fun i n task hn hget hlt => ?_⟩
    have hshort := hall.mp hserved.requested i n task hn hget hlt
    rw [hzero task (List.mem_of_getElem? hget), Int.zero_add] at hshort
    exact hshort
  · rintro ⟨hzero, hshort⟩
    refine ⟨?_, ?_, ?_, ?_⟩
    · apply hall.mpr
      intro i n task hn hget hlt
      rw [hzero task (List.mem_of_getElem? hget), Int.zero_add]
      exact hshort i n task hn hget hlt
    · intro i task hget
      by_cases hasked : ∃ f ∈ fetches s ns, f.task = i
      · obtain ⟨f, hf, rfl⟩ := hasked
        obtain ⟨task', hget', -, -, hle⟩ := hfetched f hf
        rw [hget] at hget'
        cases hget'
        rw [positions_of_mem honce hf, List.length_map, List.length_range]
        have := hzero task (List.mem_of_getElem? hget)
        omega
      · rw [positions_of_not_mem fun f hf htask => hasked ⟨f, hf, htask⟩]
        have := hplain task (List.mem_of_getElem? hget)
        have := this.fetched
        have := (hplain task (List.mem_of_getElem? hget)).left
        show (0 : Int) ≤ task.amount
        omega
    · intro i task hget p hp
      by_cases hasked : ∃ f ∈ fetches s ns, f.task = i
      · obtain ⟨f, hf, rfl⟩ := hasked
        obtain ⟨task', hget', hbegin, hpos, -⟩ := hfetched f hf
        rw [hget] at hget'
        cases hget'
        obtain ⟨m, hm⟩ : ∃ m, f.count = m + 1 := ⟨f.count - 1, by omega⟩
        rw [positions_of_mem honce hf, hm, List.range_succ_eq_map, List.map_cons,
          List.head?_cons] at hp
        rw [← Option.mem_some.mp hp, hbegin, hzero task (List.mem_of_getElem? hget)]
        omega
      · rw [positions_of_not_mem fun f hf htask => hasked ⟨f, hf, htask⟩] at hp
        cases hp
    · intro i
      by_cases hasked : ∃ f ∈ fetches s ns, f.task = i
      · obtain ⟨f, hf, rfl⟩ := hasked
        rw [positions_of_mem honce hf]
        refine List.Nodup.map (fun a b hab => ?_) List.nodup_range
        have : f.start + (a : Int) = f.start + b := hab
        omega
      · rw [positions_of_not_mem fun f hf htask => hasked ⟨f, hf, htask⟩]
        exact List.nodup_nil

end

/-- Searches for so many videos each. -/
def searches (amounts : List Int) : YouTubeService where
  tasklist := amounts.map fun amount => { request := .videoSearch, amount := amount }

theorem plain_searches {amounts : List Int} (h : ∀ amount ∈ amounts, 0 < amount) :
    ∀ task ∈ (searches amounts).tasklist, Plain task := by
  intro task htask
  obtain ⟨amount, hamount, rfl⟩ := List.mem_map.mp htask
  have hrequest : YtRequest.videoSearch ≠ .userSubscriptions ∧
      YtRequest.videoSearch ≠ .userPlaylists := by decide
  exact ⟨hrequest.1, hrequest.2, rfl, Int.le_refl 0, h amount hamount⟩

/-- Two videos of three, and then all three of the next search. -/
theorem cycle_served_two :
    Served (searches [3, 3]).tasklist (fetches (searches [3, 3]) [2, 3]) := by
  have hcycle : (searches [3, 3]).Cycle [2, 3] := by
    refine ⟨⟨by decide, ?_⟩, Or.inr ⟨rfl, ⟨by decide, ?_⟩, Or.inl ⟨rfl, rfl⟩⟩⟩
    all_goals
      intro task htask
      cases htask
      decide
  refine (cycle_served_iff (plain_searches (by decide)) rfl hcycle).mpr ⟨?_, ?_⟩
  · intro task htask
    obtain ⟨amount, -, rfl⟩ := List.mem_map.mp htask
    rfl
  · intro i n task hn hget hlt
    have hlt' : i + 1 < 2 := hlt
    obtain rfl : i = 0 := by omega
    cases hn
    cases hget
    decide

/-- Two searches for one video.  The reply to the first brings it, and the second is passed over. -/
theorem cycle_not_served : ¬ ∀ (s : YouTubeService) (ns : List Nat),
    (∀ task ∈ s.tasklist, Plain task ∧ task.amountFetched = 0) → s.currentTask = 0 → s.Cycle ns →
      Served s.tasklist (fetches s ns) := by
  intro hall
  have hserved := hall (searches [1, 1]) [1]
    (fun task htask => ⟨plain_searches (by decide) task htask, by
      obtain ⟨amount, -, rfl⟩ := List.mem_map.mp htask
      rfl⟩) rfl
    ⟨⟨by decide, fun task htask => by cases htask; decide⟩, Or.inl ⟨rfl, rfl⟩⟩
  obtain ⟨f, hf, htask⟩ := hserved.requested 1 (by decide)
  have hone : f = (searches [1, 1]).fetch 1 := List.mem_singleton.mp hf
  rw [hone] at htask
  cases htask

end YouTubeService

end MediaTomb
