import EcwidDownloader.Proofs.JobConservation

/-!
# Redirects end

The counter of redirects is in the job, while its downloaders come and go. What
`create` was called for is on record, and the record and the counter of a listed
job stay in step: every call but the first has counted the job on. A job that is
not listed any more is not counted on, and its record stays as it is.

Jobs get their ids in the order their tasks are taken, from one on, so the task
of an id is known from the tasks that have been taken.
-/

namespace EcwidDownloader

open Lib

/-- What was taken from the task list, and the calls of `create`: under which id
and for which file. -/
structure Trail where
  next : Nat
  limit : Nat
  tasks : List Task := []
  calls : List (Nat × String) := []

namespace Trail

/-- How often `create` was called for a job. -/
def attempts (id : Nat) (t : Trail) : Nat := (t.calls.map Prod.fst).count id

/-- The task a job was made for. -/
def TaskOf (id : Nat) (task : Task) (t : Trail) : Prop :=
  ∃ k, id = k + 1 ∧ t.tasks[k]? = some task

/-- A task is taken, and `create` called for its new job. -/
def take (task : Task) (t : Trail) : Trail :=
  { t with
    next := t.next + 1
    tasks := t.tasks ++ [task]
    calls := t.calls ++ [(t.next, task.fname)] }

/-- `create` is called for a job that is there. -/
def again (id : Nat) (fname : String) (t : Trail) : Trail :=
  { t with calls := t.calls ++ [(id, fname)] }

theorem attempts_take (id : Nat) (task : Task) (t : Trail) :
    (t.take task).attempts id =
      t.attempts id + if t.next = id then 1 else 0 := by
  simp [attempts, take, List.count_cons, List.map_append]

theorem attempts_again (id id' : Nat) (fname : String) (t : Trail) :
    (t.again id' fname).attempts id =
      t.attempts id + if id' = id then 1 else 0 := by
  simp [attempts, again, List.count_cons, List.map_append]

theorem TaskOf.take {id : Nat} {task task' : Task} {t : Trail}
    (h : TaskOf id task' t) : TaskOf id task' (t.take task) := by
  obtain ⟨k, hid, htask⟩ := h
  refine ⟨k, hid, ?_⟩
  obtain ⟨hk, -⟩ := List.getElem?_eq_some_iff.mp htask
  simp only [Trail.take]
  rw [List.getElem?_append_left hk]
  exact htask

end Trail

variable {D : Type}

/-- The jobs of a list are in step with the record. -/
structure Tracked (max : Nat) (jobs : List (Job D)) (t : Trail) : Prop where
  limit : t.limit = max
  next : t.next = t.tasks.length + 1
  ids : (jobs.map Job.id).Nodup
  unused : ∀ id, t.next ≤ id → t.attempts id = 0
  bounded : ∀ id, t.attempts id ≤ max + 1
  named : ∀ call ∈ t.calls,
    ∃ task, t.TaskOf call.1 task ∧ call.2 = task.fname
  jobs : ∀ job ∈ jobs, job.id < t.next ∧
    t.attempts job.id = job.redirectCount + 1 ∧
    job.redirectCount ≤ max ∧
    ∃ task, t.TaskOf job.id task ∧ job.fname = task.fname

namespace Tracked

variable {max : Nat} {jobs jobs' : List (Job D)} {t : Trail}

theorem sublist (h : Tracked max jobs t) (hs : jobs'.Sublist jobs) :
    Tracked max jobs' t :=
  { h with
    ids := h.ids.sublist (hs.map _)
    jobs := fun job hjob => h.jobs job (hs.subset hjob) }

theorem erase {before after : List (Job D)} {job : Job D}
    (h : Tracked max (before ++ job :: after) t) : Tracked max (before ++ after) t :=
  h.sublist ((List.Sublist.refl _).append (List.sublist_cons_self _ _))

/-- A new task gets the next id. -/
theorem taskOf_next (h : Tracked max jobs t) (task : Task) :
    (t.take task).TaskOf t.next task := by
  refine ⟨t.tasks.length, h.next, ?_⟩
  simp [Trail.take]

/-- A task is taken; its job is not listed yet. -/
theorem take (h : Tracked max jobs t) (task : Task) :
    Tracked max jobs (t.take task) where
  limit := h.limit
  next := by simp [Trail.take, h.next]
  ids := h.ids
  unused := by
    intro id hid
    have hlt : t.next < id := hid
    rw [Trail.attempts_take, h.unused id (Nat.le_of_lt hlt),
      if_neg (Nat.ne_of_lt hlt)]
  bounded := by
    intro id
    rw [Trail.attempts_take]
    split
    · next hid =>
        rw [h.unused id (Nat.le_of_eq hid)]
        exact Nat.succ_le_succ (Nat.zero_le _)
    · exact h.bounded id
  named := by
    intro call hcall
    rcases List.mem_append.mp hcall with hold | hnew
    · obtain ⟨task', htask, hname⟩ := h.named call hold
      exact ⟨task', htask.take, hname⟩
    · rw [List.mem_singleton.mp hnew]
      exact ⟨task, h.taskOf_next task, rfl⟩
  jobs := by
    intro job hjob
    obtain ⟨hid, hcount, hle, task', htask, hname⟩ := h.jobs job hjob
    refine ⟨Nat.lt_succ_of_lt hid, ?_, hle, task', htask.take, hname⟩
    rw [Trail.attempts_take, if_neg (Nat.ne_of_gt hid)]
    exact hcount

/-- The job of a new task is listed. -/
theorem append (h : Tracked max jobs t) {task : Task} {job : Job D}
    (hid : job.id = t.next) (hcount : job.redirectCount = 0)
    (hname : job.fname = task.fname) :
    Tracked max (jobs ++ [job]) (t.take task) := by
  have htaken := h.take task
  refine { htaken with ids := ?_, jobs := ?_ }
  · rw [List.map_append, List.map_singleton]
    refine (List.perm_append_singleton _ _).nodup_iff.mpr
      (List.nodup_cons.mpr ⟨fun hmem => ?_, h.ids⟩)
    obtain ⟨job', hjob', heq⟩ := List.mem_map.mp hmem
    have hlt := (h.jobs job' hjob').1
    omega
  · intro job' hjob'
    rcases List.mem_append.mp hjob' with hold | hnew
    · exact htaken.jobs job' hold
    · rw [List.mem_singleton.mp hnew, hid, hcount]
      refine ⟨Nat.lt_succ_self _, ?_, Nat.zero_le _, task,
        h.taskOf_next task, hname⟩
      rw [Trail.attempts_take, h.unused _ (Nat.le_refl _), if_pos rfl]

/-- A job that may still be redirected gets another downloader. -/
theorem again {before after : List (Job D)} {job job' : Job D}
    (h : Tracked max (before ++ job :: after) t)
    (hlimit : job.redirectCount < max) (hid : job'.id = job.id)
    (hname : job'.fname = job.fname)
    (hcount : job'.redirectCount = job.redirectCount + 1) :
    Tracked max (before ++ job' :: after) (t.again job.id job.fname) := by
  obtain ⟨hlt, hattempts, -, task, htask, htname⟩ := h.jobs job
    (List.mem_append_right _ List.mem_cons_self)
  have hperm : ((before ++ job :: after).map Job.id).Perm
      (job.id :: (before ++ after).map Job.id) :=
    (List.perm_middle.map Job.id)
  have hothers := (List.nodup_cons.mp (hperm.nodup_iff.mp h.ids)).1
  refine ⟨h.limit, h.next, ?_, fun id hle => ?_, fun id => ?_, fun call hcall => ?_,
    fun other hother => ?_⟩
  · have hids := h.ids
    rw [List.map_append, List.map_cons] at hids ⊢
    rw [hid]
    exact hids
  · have hle' : t.next ≤ id := hle
    rw [Trail.attempts_again, h.unused id hle', if_neg (by omega)]
  · rw [Trail.attempts_again]
    split
    · next heq =>
        rw [← heq, hattempts]
        exact Nat.succ_le_succ hlimit
    · exact h.bounded id
  · rcases List.mem_append.mp hcall with hold | hnew
    · exact h.named call hold
    · rw [List.mem_singleton.mp hnew]
      exact ⟨task, htask, htname⟩
  · rw [Trail.attempts_again]
    rcases List.mem_cons.mp (List.perm_middle.mem_iff.mp hother)
      with rfl | hrest
    · rw [hid, hcount, hname, if_pos rfl, hattempts]
      exact ⟨hlt, rfl, hlimit, task, htask, htname⟩
    · have hne : job.id ≠ other.id := fun heq =>
        hothers (heq ▸ List.mem_map.mpr ⟨other, hrest, rfl⟩)
      rw [if_neg hne]
      exact h.jobs other ((List.perm_middle.mem_iff.mpr
        (List.mem_cons_of_mem _ hrest)))

end Tracked

/-! ## Through a tick -/

/-- The task a note takes. -/
def Note.task : Note → Option Task
  | .took task => some task
  | _ => none

/-- The call of `create` a note records. -/
def Note.call : Note → Option (Nat × String)
  | .created id _ fname => some (id, fname)
  | _ => none

namespace OnTickSimple

def trail (w : OnTickSimple D) : Trail where
  next := w.nextId
  limit := w.maxRedirect
  tasks := w.notes.filterMap Note.task
  calls := w.notes.filterMap Note.call

/-- The list of jobs is in step with the record. -/
abbrev InStep (max : Nat) (w : OnTickSimple D) : Prop :=
  Tracked max w.jobList (trail w)

theorem trail_note {n : Note} (w : OnTickSimple D) (ht : n.task = none)
    (hc : n.call = none) : trail (note n w) = trail w := by
  simp [trail, note, List.filterMap_append, ht, hc]

theorem trail_offer (task : Task) (tasks : TaskList) (w : OnTickSimple D) :
    trail (offer task tasks w).2 = (trail w).take task := by
  have hcalls : [Note.took task, .created w.nextId task.uri task.fname].filterMap
      Note.call = [(w.nextId, task.fname)] := rfl
  rw [offer_eq]
  simp [trail, Trail.take, List.filterMap_append, Note.task, hcalls]

theorem trail_create (id : Nat) (uri fname : String) (w : OnTickSimple D) :
    trail (create id uri fname w).2 = (trail w).again id fname := by
  simp [trail, Trail.again, create, update, note, List.filterMap_append,
    Note.task, Note.call]

variable {max : Nat} {it : It D} {w w' : OnTickSimple D}

/-- A task that is offered to the factory and listed. -/
theorem InStep.start (h : InStep max w) (task : Task) (tasks : TaskList) :
    Tracked max (w.jobList ++ [(offer task tasks w).1])
      (trail (offer task tasks w).2) := by
  rw [trail_offer]
  rw [offer_eq]
  exact h.append rfl rfl rfl

/-- A task that is offered to the factory and turned away. -/
theorem InStep.reject (h : InStep max w) (task : Task) (tasks : TaskList) :
    InStep max (note (.rejected (offer task tasks w).1.id)
      (offer task tasks w).2) := by
  have htaken := h.take task
  rw [← trail_offer task tasks w] at htaken
  have hlist : (offer task tasks w).2.jobList = w.jobList := by
    rw [offer_eq]
  unfold InStep
  rw [trail_note _ rfl rfl]
  exact hlist ▸ htaken

theorem InStep.nextTaskLoop : ∀ (tasks : TaskList) {w : OnTickSimple D},
    InStep max w → InStep max (nextTaskLoop tasks w)
  | [], w, h => by
      unfold InStep OnTickSimple.nextTaskLoop
      rw [trail_note _ rfl rfl]
      exact h
  | task :: tasks, w, h => by
      unfold OnTickSimple.nextTaskLoop
      simp only []
      split
      · exact InStep.nextTaskLoop tasks (h.reject task tasks)
      · have hlist : (offer task tasks w).2.jobList = w.jobList := by
          rw [offer_eq]
        have hstart := h.start task tasks
        rw [← hlist] at hstart
        exact hstart

theorem inStep_erase (h : Tracked max (it.before ++ it.after) (trail w)) :
    InStep max (erase it w) := by
  have htrail : trail (erase it w) = trail w := trail_note _ rfl rfl
  unfold InStep
  rw [htrail]
  exact h

theorem inStep_nextTask (h : Tracked max (it.before ++ it.after) (trail w)) :
    InStep max (nextTask it w) := by
  have herased := inStep_erase h
  unfold nextTask
  simp only []
  split
  · exact herased
  · exact herased.nextTaskLoop _

/-- The job is counted on, and listed again only with the call that has counted
it. -/
theorem inStep_redirect (uri : String)
    (h : Tracked max (it.before ++ it.job :: it.after) (trail w)) :
    InStep max (redirect it uri w) := by
  unfold redirect
  simp only []
  split
  · exact inStep_nextTask h.erase
  · next hlimit =>
      have hmax : w.maxRedirect = max := h.limit
      have hcount : it.job.redirectCount < max :=
        hmax ▸ Nat.le_of_not_lt hlimit
      split
      · have hagain : Tracked max (it.before ++
            { it.job with
              redirectCount := it.job.redirectCount + 1
              downloader := w.creation.downloader } :: it.after)
            ((trail w).again it.job.id it.job.fname) :=
          h.again hcount rfl rfl rfl
        rw [← trail_create it.job.id uri it.job.fname w] at hagain
        split
        · exact inStep_nextTask hagain.erase
        · exact hagain
      · exact inStep_erase h.erase

/-- The start-up loop keeps in step, and makes entries of the books. -/
theorem InStep.startUp : ∀ (n : Nat) {w : OnTickSimple D}, InStep max w →
    InStep max (startUp n w) ∧
      Ledger.Steps (ledger w) (ledger (OnTickSimple.startUp n w))
  | 0, w, h => ⟨h, .refl⟩
  | n + 1, w, h => by
      unfold OnTickSimple.startUp
      split
      · unfold InStep
        rw [trail_note _ rfl rfl, ledger_note w rfl rfl rfl]
        exact ⟨h, .refl⟩
      · next task tasks _ =>
          simp only []
          split
          · next hnone =>
              have hstep : Ledger.Step (ledger w) _ := .reject
              rw [← ledger_rejected hnone] at hstep
              obtain ⟨hin, hs⟩ := InStep.startUp n (h.reject task tasks)
              exact ⟨hin, .head hstep hs⟩
          · next hsome =>
              have hstep : Ledger.Step (ledger w) _ := .start
              rw [← ledger_started hsome] at hstep
              have hlist : (offer task tasks w).2.jobList = w.jobList := by
                rw [offer_eq]
              have hstart := h.start task tasks
              rw [← hlist] at hstart
              obtain ⟨hin, hs⟩ := InStep.startUp n
                (w := { (offer task tasks w).2 with
                  jobList := (offer task tasks w).2.jobList ++
                    [(offer task tasks w).1] }) hstart
              exact ⟨hin, .head hstep hs⟩

/-! ## Over the limit -/

/-- What `create` makes of the task `i` places from the front. -/
def made (i : Nat) (w : OnTickSimple D) : Option D :=
  (w.creations.getD i .null).downloader

/-- A job is given up: it is shown as failed and erased, and the first task that
can be created takes its place, if the factory is there and such a task is
left. -/
structure GivenUp (it : It D) (status : StatusDownloader)
    (w w' : OnTickSimple D) : Prop where
  reported : ∃ later, w'.dashboard = w.dashboard ++
      [(it.job.id, status), (it.job.id,
        { state := .failed, stateStr := "Maximum count redirect" })] ++ later ∧
    ∀ u ∈ later, w.nextId ≤ u.1
  replaced : w.factory = true → ∀ i task downloader,
    w.taskList[i]? = some task → made i w = some downloader →
    (∀ j < i, made j w = none) →
    w'.jobList = it.before ++ it.after ++
      [{ id := w.nextId + i, fname := task.fname,
         downloader := some downloader }] ∧
    w'.taskList = w.taskList.drop (i + 1)
  exhausted : w.factory = true →
    (∀ i < w.taskList.length, made i w = none) →
    w'.jobList = it.before ++ it.after ∧ w'.taskList = []
  gone : w.factory = false →
    w'.jobList = it.before ++ it.after ∧ w'.taskList = w.taskList

theorem made_succ {i : Nat} (h : w'.creations = w.creations.tail) :
    made i w' = made (i + 1) w := by
  unfold made
  rw [h]
  cases w.creations <;> simp

theorem made_zero (w : OnTickSimple D) :
    made 0 w = w.creation.downloader := by
  unfold made creation
  cases w.creations <;> simp

/-- The loop of `next_task` comes to the first task that can be created. -/
theorem nextTaskLoop_first {task : Task} {downloader : D} :
    ∀ {i : Nat} {tasks : TaskList} {w : OnTickSimple D},
    tasks[i]? = some task → made i w = some downloader →
    (∀ j < i, made j w = none) →
    (nextTaskLoop tasks w).jobList = w.jobList ++
        [{ id := w.nextId + i, fname := task.fname,
           downloader := some downloader }] ∧
      (nextTaskLoop tasks w).taskList = tasks.drop (i + 1)
  | _, [], _, htask, _, _ => by simp at htask
  | 0, task' :: tasks, w, htask, hmade, _ => by
      simp only [List.getElem?_cons_zero, Option.some.injEq] at htask
      subst htask
      rw [made_zero] at hmade
      unfold nextTaskLoop
      rw [offer_eq]
      simp [hmade]
  | i + 1, task' :: tasks, w, htask, hmade, hnone => by
      have hfirst := hnone 0 (Nat.succ_pos i)
      rw [made_zero] at hfirst
      have hrest := nextTaskLoop_first (i := i)
        (w := note (.rejected (offer task' tasks w).1.id)
          (offer task' tasks w).2) (show tasks[i]? = some task from htask)
        (by rw [made_succ (w := w) (by rw [offer_eq]; rfl)]; exact hmade)
        fun j hj => by
          rw [made_succ (w := w) (by rw [offer_eq]; rfl)]
          exact hnone (j + 1) (Nat.succ_lt_succ hj)
      unfold nextTaskLoop
      rw [offer_eq] at hrest ⊢
      simp only [hfirst, Option.isNone_none, if_pos]
      refine ⟨hrest.1.trans ?_, hrest.2⟩
      simp [note, Nat.add_comm, Nat.add_left_comm]

/-- It comes to the end of the task list when none can be. -/
theorem nextTaskLoop_none : ∀ {tasks : TaskList} {w : OnTickSimple D},
    w.taskList = tasks → (∀ i < tasks.length, made i w = none) →
    (nextTaskLoop tasks w).jobList = w.jobList ∧
      (nextTaskLoop tasks w).taskList = []
  | [], _, h, _ => ⟨rfl, h⟩
  | task :: tasks, w, _, hnone => by
      have hfirst := hnone 0 (Nat.succ_pos _)
      rw [made_zero] at hfirst
      have hrest := nextTaskLoop_none
        (w := note (.rejected (offer task tasks w).1.id)
          (offer task tasks w).2) (show _ = tasks by rw [offer_eq]; rfl)
        fun i hi => by
          rw [made_succ (w := w) (by rw [offer_eq]; rfl)]
          exact hnone (i + 1) (Nat.succ_lt_succ hi)
      unfold nextTaskLoop
      rw [offer_eq] at hrest ⊢
      simp only [hfirst, Option.isNone_none, if_pos]
      exact hrest

/-- It updates the jobs it makes. -/
theorem nextTaskLoop_dashboard : ∀ (tasks : TaskList) (w : OnTickSimple D),
    ∃ later, (nextTaskLoop tasks w).dashboard = w.dashboard ++ later ∧
      ∀ u ∈ later, w.nextId ≤ u.1
  | [], w => ⟨[], (List.append_nil _).symm, by simp⟩
  | task :: tasks, w => by
      unfold nextTaskLoop
      simp only []
      split
      · obtain ⟨later, heq, hnew⟩ := nextTaskLoop_dashboard tasks
          (note (.rejected (offer task tasks w).1.id) (offer task tasks w).2)
        rw [offer_eq] at heq hnew ⊢
        refine ⟨(w.nextId, w.creation.status) :: later, ?_, ?_⟩
        · rw [heq]
          simp [note]
        · intro u hu
          rcases List.mem_cons.mp hu with rfl | hu
          · exact Nat.le_refl _
          · exact Nat.le_of_succ_le (hnew u hu)
      · rw [offer_eq]
        exact ⟨[(w.nextId, w.creation.status)], rfl, by simp⟩

theorem nextTask_gone (h : w.factory = false) :
    nextTask it w = erase it w := by
  have hgone : (!(erase it w).factory) = true := by
    simp [erase, note, h]
  unfold nextTask
  exact if_pos hgone

theorem nextTask_there (h : w.factory = true) :
    nextTask it w = nextTaskLoop w.taskList (erase it w) := by
  have hthere : ¬ (!(erase it w).factory) = true := by
    simp [erase, note, h]
  unfold nextTask
  exact if_neg hthere

theorem nextTask_dashboard (it : It D) (w : OnTickSimple D) :
    ∃ later, (nextTask it w).dashboard = w.dashboard ++ later ∧
      ∀ u ∈ later, w.nextId ≤ u.1 := by
  cases h : w.factory with
  | false =>
      rw [nextTask_gone h]
      exact ⟨[], (List.append_nil _).symm, by simp⟩
  | true =>
      rw [nextTask_there h]
      exact nextTaskLoop_dashboard w.taskList (erase it w)

/-- A redirect past the limit. -/
theorem redirect_givenUp {status : StatusDownloader} (uri : String)
    (h : w.maxRedirect ≤ it.job.redirectCount) :
    GivenUp it status w (redirect it uri (update it.job.id status w)) := by
  have hlimit : w.maxRedirect < it.job.redirectCount + 1 := by omega
  have hdrop : ∃ job : Job D, ∃ w₁ : OnTickSimple D,
      redirect it uri (update it.job.id status w) =
        nextTask { it with job := job } w₁ ∧
      w₁.dashboard = w.dashboard ++ [(it.job.id, status), (it.job.id,
        { state := .failed, stateStr := "Maximum count redirect" })] ∧
      w₁.factory = w.factory ∧ w₁.taskList = w.taskList ∧
      w₁.creations = w.creations ∧ w₁.nextId = w.nextId := by
    refine ⟨_, _, if_pos hlimit, ?_, rfl, rfl, rfl, rfl⟩
    simp [update, store]
  obtain ⟨job, w₁, heq, hdash, hfactory, htasks, hcreations, hnext⟩ := hdrop
  have hmade : ∀ i, made i (erase { it with job := job } w₁) = made i w := by
    intro i
    unfold made
    rw [← hcreations]
    rfl
  rw [heq]
  constructor
  · obtain ⟨later, hlater, hnew⟩ := nextTask_dashboard
      { it with job := job } w₁
    exact ⟨later, hdash ▸ hlater, hnext ▸ hnew⟩
  · intro hthere i task downloader htask hm hnone
    rw [nextTask_there (hfactory.trans hthere), htasks, ← hnext]
    exact nextTaskLoop_first htask ((hmade i).trans hm)
      fun j hj => (hmade j).trans (hnone j hj)
  · intro hthere hnone
    rw [nextTask_there (hfactory.trans hthere), htasks]
    exact nextTaskLoop_none htasks fun i hi => (hmade i).trans (hnone i hi)
  · intro hgone
    rw [nextTask_gone (hfactory.trans hgone)]
    exact ⟨rfl, htasks⟩

/-! ## The runs -/

/-- The redirects of every task are bounded, and its downloaders are made for its
own job and its own file. -/
structure Bounded (max : Nat) (w : OnTickSimple D) : Prop where
  attempts : ∀ id, (trail w).attempts id ≤ max + 1
  counted : ∀ job ∈ w.jobList, job.redirectCount ≤ max
  named : ∀ id uri fname, .created id uri fname ∈ w.notes →
    ∃ task, (trail w).TaskOf id task ∧ fname = task.fname
  listed : ∀ job ∈ w.jobList,
    ∃ task, (trail w).TaskOf job.id task ∧ job.fname = task.fname

theorem bounded_of_inStep (h : InStep max w) : Bounded max w where
  attempts := Tracked.bounded h
  counted job hjob := (h.jobs job hjob).2.2.1
  named id _ fname hmem :=
    h.named (id, fname) (List.mem_filterMap.mpr ⟨_, hmem, rfl⟩)
  listed job hjob := (h.jobs job hjob).2.2.2

/-- The state before the start-up loop. -/
theorem inStep_start (max : Nat) (tasks : TaskList)
    (creations : List (Creation D)) :
    InStep max { taskList := tasks, creations := creations
                 maxRedirect := max } where
  limit := rfl
  next := rfl
  ids := List.nodup_nil
  unused _ _ := rfl
  bounded _ := Nat.zero_le _
  named := by simp [trail]
  jobs := by simp

variable [DecidableEq D]

theorem InStep.invoke (h : InStep max w) (downloader : D)
    (status : StatusDownloader) :
    InStep max (invoke downloader status w).2 := by
  unfold OnTickSimple.invoke
  cases hfind : findJob downloader w.jobList with
  | error what => exact h
  | ok it =>
      obtain ⟨hlist, -⟩ := findJob_ok hfind
      have hjobs : Tracked max (it.before ++ it.job :: it.after)
          (trail (update it.job.id status w)) := hlist ▸ h
      simp only []
      split
      · exact inStep_nextTask hjobs.erase
      · exact inStep_nextTask hjobs.erase
      · exact inStep_redirect _ hjobs
      · exact h
      · exact h

theorem InStep.step {e : Event D} (h : InStep max w)
    (hs : Lib.Graph step w e w') : InStep max w' := by
  cases e with
  | invoke downloader status creations =>
      obtain ⟨-, rfl⟩ := step_invoke hs
      have hfound : InStep max { w with creations := creations } := h
      exact hfound.invoke downloader status
  | expire =>
      cases hs
      exact h

/-- Every state of a run is in step. -/
theorem inStep_passes {concurrency : Nat} {tasks : TaskList}
    {creations : List (Creation D)}
    {hist : List (OnTickSimple D × Event D)} {w x : OnTickSimple D}
    (hr : Runs (startUp concurrency
      { taskList := tasks, creations := creations, maxRedirect := max })
      hist w) (hx : Passes hist w x) : InStep max x :=
  hr.always (C := fun _ _ => True) (fun _ _ => trivial)
    (fun hr' _ => hr'.invariant' (InStep max)
      ((inStep_start max tasks creations).startUp concurrency).1
      fun _ _ _ hI hs => hI.step hs) hx

/-- A step makes entries of the books. -/
theorem steps_of_step {e : Event D} (hs : Lib.Graph step w e w') :
    Ledger.Steps (ledger w) (ledger w') := by
  cases e with
  | invoke downloader status creations =>
      obtain ⟨-, rfl⟩ := step_invoke hs
      rcases listed_or downloader { w with creations := creations }
        with ⟨it, hit⟩ | hunknown
      · exact (invoke_ticked status hit).2.steps
      · rw [invoke_unknown status hunknown]
        exact .refl
  | expire =>
      cases hs
      exact .refl

/-- Redirects are bounded: in every state `create` has been called for a task at
most once more than `max_redirect`, for its own job and into its own file. A job
past the limit is given up, shown as failed once and never listed again. The
counters reach `max_redirect + 1` at most, so under a limit below the largest
`size_t` they do not come round. -/
theorem redirects_bounded {concurrency max : Nat} {tasks : TaskList}
    {creations : List (Creation D)}
    {hist : List (OnTickSimple D × Event D)} {w : OnTickSimple D}
    (hr : Runs (startUp concurrency
      { taskList := tasks, creations := creations, maxRedirect := max })
      hist w) :
    (∀ x, Passes hist w x → Bounded max x) ∧
      ∀ x downloader status made it,
        (x, .invoke downloader status made) ∈ hist →
        findJob downloader x.jobList = .ok it → status.state = .redirect →
        max ≤ it.job.redirectCount →
        GivenUp it status { x with creations := made }
          (OnTickSimple.invoke downloader status
            { x with creations := made }).2 ∧
        (w.dashboard.filterMap verdictOf).count it.job.id = 1 ∧
        ∀ job ∈ w.jobList, job.id ≠ it.job.id := by
  have hkept : ∀ x, Passes hist w x → InStep max x := fun x hx =>
    inStep_passes hr hx
  refine ⟨fun x hx => bounded_of_inStep (hkept x hx), ?_⟩
  intro x downloader status made it hx hfind hstate hlimit
  have hmax : x.maxRedirect = max := (hkept x (.inr ⟨_, hx⟩)).limit
  have hgiven : GivenUp it status { x with creations := made }
      (OnTickSimple.invoke downloader status { x with creations := made }).2 := by
    unfold OnTickSimple.invoke
    rw [hfind]
    simp only [hstate]
    exact redirect_givenUp _ (hmax ▸ hlimit)
  -- the verdict is given in the tick, and not taken back later
  have hverdict : it.job.id ∈ (ledger w).verdicts := by
    refine hr.since (P := fun u => it.job.id ∈ (ledger u).verdicts)
      (fun hmem hs => (steps_of_step hs).verdicts_subset hmem) hx ?_
    intro u hs
    unfold Lib.Graph step at hs
    simp only [] at hs
    split at hs
    · cases hs
      obtain ⟨later, heq, -⟩ := hgiven.reported
      refine List.mem_filterMap.mpr ⟨(it.job.id,
        { state := .failed, stateStr := "Maximum count redirect" }), ?_, rfl⟩
      rw [heq]
      simp
    · cases hs
  have hbalanced : (ledger w).Balanced 0 := by
    refine hr.invariant' (fun u => (ledger u).Balanced 0) ?_
      fun t e u hI hs => hI.steps (steps_of_step hs)
    refine Ledger.Balanced.steps ?_
      ((inStep_start max tasks creations).startUp concurrency).2
    exact ⟨List.nodup_nil, nofun, rfl, List.nodup_nil, nofun, nofun⟩
  obtain ⟨hcount, hgone⟩ := hbalanced.settled hverdict
  exact ⟨hgiven, hcount, fun job hjob heq =>
    hgone (heq ▸ List.mem_map.mpr ⟨job, hjob, rfl⟩)⟩

/-- Two tasks, the first of which is redirected for ever. -/
def roundAndRound : TaskList :=
  [⟨"http://www.internet.org/redirect", "a"⟩, ⟨"http://www.internet.org/", "b"⟩]

/-- The second redirect is one too many. -/
def twoRedirects : List (Event Nat) :=
  [.invoke 1 { state := .redirect, redirectUri := "http://internet.org/1" }
      [.made 2],
    .invoke 2 { state := .redirect, redirectUri := "http://internet.org/2" }
      [.made 3]]

theorem redirects_bounded_roundAndRound : ∃ hist w,
    Runs (startUp 1 { taskList := roundAndRound, creations := [.made 1]
                      maxRedirect := 1 }) hist w ∧
    w.jobList = [{ id := 2, fname := "b", downloader := some 3 }] ∧
    (trail w).attempts 1 = 2 ∧ Bounded 1 w := by
  obtain ⟨hist, w, hexec, hlist, hcount⟩ : ∃ hist w,
      exec step (startUp 1 { taskList := roundAndRound, creations := [.made 1]
                             maxRedirect := 1 }) twoRedirects =
        some (hist, w) ∧
      w.jobList = [{ id := 2, fname := "b", downloader := some 3 }] ∧
      (trail w).attempts 1 = 2 :=
    ⟨_, _, rfl, rfl, rfl⟩
  exact ⟨hist, w, run_of_exec hexec, hlist, hcount,
    (redirects_bounded (run_of_exec hexec)).1 w .last⟩

end OnTickSimple

end EcwidDownloader
