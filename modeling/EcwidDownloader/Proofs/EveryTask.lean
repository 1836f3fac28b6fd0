import EcwidDownloader.Proofs.JobConservation

/-!
# Every task is attempted

The program ends when the list of jobs is empty. `next_task` lets the list
shrink at the end of the task list only, so a list that has ever held a job
becomes empty no sooner. The start-up loop of `main` is another matter: a task
that cannot be created costs it one of its turns, and when all of its turns go
that way the list is empty from the beginning, whatever the task list still
holds.
-/

namespace EcwidDownloader

open Lib

namespace OnTickSimple

variable {D : Type}

/-- The task has been given to `factory->create`. -/
def Offered (task : Task) (w : OnTickSimple D) : Prop :=
  ∃ id, .created id task.uri task.fname ∈ w.notes

/-- `task_list.get()` has returned null, and every task was given to
`factory->create`. -/
def Attempted (tasks : TaskList) (w : OnTickSimple D) : Prop :=
  .exhausted ∈ w.notes ∧ ∀ task ∈ tasks, Offered task w

/-- The event is not the end of the factory. -/
def Event.ticks : Event D → Prop
  | .invoke _ _ _ => True
  | .expire => False

/-- The list of jobs when `main` enters its loop. -/
def mainJobs (concurrency : Nat) (tasks : TaskList)
    (creations : List (Creation D)) : OnTickSimple D :=
  startUp concurrency { taskList := tasks, creations := creations }

/-! ## Where the tasks go -/

/-- Tasks leave the task list for `factory->create` only. -/
structure Supplied (w w' : OnTickSimple D) : Prop where
  tasks : ∀ task ∈ w.taskList, task ∈ w'.taskList ∨ Offered task w'
  notes : w.notes <+: w'.notes

variable {w w₁ w₂ w' : OnTickSimple D}

theorem Offered.mono {task : Task} (h : Offered task w)
    (hn : w.notes <+: w'.notes) : Offered task w' :=
  h.imp fun _ hmem => hn.subset hmem

theorem Attempted.mono {tasks : TaskList} (h : Attempted tasks w)
    (hn : w.notes <+: w'.notes) : Attempted tasks w' :=
  ⟨hn.subset h.1, fun task htask => (h.2 task htask).mono hn⟩

/-- The task list is left alone. -/
theorem supplied_of_eq (ht : w'.taskList = w.taskList)
    (hn : w.notes <+: w'.notes) : Supplied w w' :=
  ⟨fun _ htask => .inl (ht ▸ htask), hn⟩

theorem Supplied.refl (w : OnTickSimple D) : Supplied w w :=
  supplied_of_eq rfl (List.prefix_refl _)

theorem Supplied.trans (h : Supplied w w₁) (h' : Supplied w₁ w₂) :
    Supplied w w₂ where
  tasks task htask := by
    rcases h.tasks task htask with hleft | hoffered
    · exact h'.tasks task hleft
    · exact .inr (hoffered.mono h'.notes)
  notes := h.notes.trans h'.notes

theorem supplied_note (n : Note) (w : OnTickSimple D) : Supplied w (note n w) :=
  supplied_of_eq rfl (List.prefix_append _ _)

theorem supplied_offer {task : Task} {tasks : TaskList}
    (h : w.taskList = task :: tasks) :
    Supplied w (offer task tasks w).2 := by
  rw [offer_eq]
  refine ⟨fun task' htask => ?_, List.prefix_append _ _⟩
  rw [h] at htask
  rcases List.mem_cons.mp htask with rfl | htask
  · exact .inr ⟨w.nextId, List.mem_append_right _
      (List.mem_cons_of_mem _ List.mem_cons_self)⟩
  · exact .inl htask

theorem supplied_nextTaskLoop : ∀ {tasks : TaskList} {w : OnTickSimple D},
    w.taskList = tasks → Supplied w (nextTaskLoop tasks w)
  | [], w, _ => supplied_note .exhausted w
  | task :: tasks, w, h => by
      have hoffered := supplied_offer h
      unfold nextTaskLoop
      simp only []
      split
      · exact (hoffered.trans (supplied_note _ _)).trans
          (supplied_nextTaskLoop (by rw [offer_eq]; rfl))
      · exact hoffered.trans (supplied_of_eq rfl (List.prefix_refl _))

theorem supplied_nextTask (it : It D) (w : OnTickSimple D) :
    Supplied w (nextTask it w) := by
  have herased : Supplied w (erase it w) :=
    supplied_of_eq rfl (List.prefix_append _ _)
  unfold nextTask
  simp only []
  split
  · exact herased
  · exact herased.trans (supplied_nextTaskLoop rfl)

theorem Supplied.nextTask (h : Supplied w w') (it : It D) :
    Supplied w (nextTask it w') :=
  h.trans (supplied_nextTask it w')

theorem supplied_redirect (it : It D) (uri : String) (w : OnTickSimple D) :
    Supplied w (redirect it uri w) := by
  unfold redirect
  simp only []
  split
  · refine Supplied.nextTask (supplied_of_eq ?_ ?_) _
    · rfl
    · exact List.prefix_refl _
  · split
    · split
      · refine Supplied.nextTask (supplied_of_eq ?_ ?_) _
        · rfl
        · exact List.prefix_append _ _
      · exact supplied_of_eq rfl (List.prefix_append _ _)
    · exact supplied_of_eq rfl (List.prefix_append _ _)

theorem supplied_invoke [DecidableEq D] (downloader : D)
    (status : StatusDownloader) (w : OnTickSimple D) :
    Supplied w (invoke downloader status w).2 := by
  unfold invoke
  split
  · exact .refl w
  · next it _ =>
      have hupdated : Supplied w (update it.job.id status w) :=
        supplied_of_eq rfl (List.prefix_refl _)
      simp only []
      split
      · exact hupdated.nextTask _
      · exact hupdated.nextTask _
      · exact hupdated.trans (supplied_redirect _ _ _)
      · exact hupdated
      · exact hupdated

/-! ## The start-up loop -/

theorem supplied_startUp : ∀ (n : Nat) (w : OnTickSimple D),
    Supplied w (startUp n w) ∧ w.jobList <+: (startUp n w).jobList ∧
      (startUp n w).factory = w.factory
  | 0, w => ⟨.refl w, List.prefix_refl _, rfl⟩
  | n + 1, w => by
      unfold startUp
      split
      · exact ⟨supplied_note _ w, List.prefix_refl _, rfl⟩
      · next task tasks h =>
          have hoffered := supplied_offer h
          simp only []
          split
          · obtain ⟨hs, hj, hf⟩ := supplied_startUp n
              (note (.rejected (offer task tasks w).1.id)
                (offer task tasks w).2)
            exact ⟨(hoffered.trans (supplied_note _ _)).trans hs, hj, hf⟩
          · obtain ⟨hs, hj, hf⟩ := supplied_startUp n
              { (offer task tasks w).2 with
                jobList := (offer task tasks w).2.jobList ++
                  [(offer task tasks w).1] }
            have hlisted : Supplied (offer task tasks w).2
                { (offer task tasks w).2 with
                  jobList := (offer task tasks w).2.jobList ++
                    [(offer task tasks w).1] } :=
              supplied_of_eq rfl (List.prefix_refl _)
            exact ⟨(hoffered.trans hlisted).trans hs,
              (List.prefix_append _ _).trans hj, hf⟩

/-- The start-up loop has a turn for the end of the task list, or one in which a
downloader is made. -/
def Begins (concurrency : Nat) (tasks : TaskList)
    (creations : List (Creation D)) : Prop :=
  tasks.length < concurrency ∨
    ∃ c ∈ creations.take concurrency, c.downloader.isSome = true

/-- The first of several turns. -/
theorem begins_succ {n : Nat} {task : Task} {tasks : TaskList}
    (w : OnTickSimple D) :
    Begins (n + 1) (task :: tasks) w.creations ↔
      w.creation.downloader.isSome = true ∨
        Begins n tasks w.creations.tail := by
  have hlen : (task :: tasks).length < n + 1 ↔ tasks.length < n :=
    Nat.succ_lt_succ_iff
  unfold Begins creation
  rw [hlen]
  cases w.creations with
  | nil => simp [Creation.null]
  | cons c cs =>
      simp only [List.take_succ_cons, List.mem_cons, List.headD_cons,
        List.tail_cons, exists_eq_or_imp]
      exact or_left_comm

theorem offer_isNone (task : Task) (tasks : TaskList) (w : OnTickSimple D) :
    (offer task tasks w).1.downloader.isNone = true ↔
      ¬ w.creation.downloader.isSome = true := by
  rw [offer_eq]
  cases w.creation.downloader <;> simp

theorem startUp_begins : ∀ {n : Nat} {w : OnTickSimple D},
    Begins n w.taskList w.creations →
    (startUp n w).jobList ≠ [] ∨
      .exhausted ∈ (startUp n w).notes ∧ (startUp n w).taskList = []
  | 0, w, h => by
      rcases h with hlt | ⟨c, hc, -⟩
      · exact absurd hlt (Nat.not_lt_zero _)
      · exact absurd hc List.not_mem_nil
  | n + 1, w, h => by
      unfold startUp
      split
      · next hnil =>
          exact .inr ⟨List.mem_append_right _ List.mem_cons_self, hnil⟩
      · next task tasks hcons =>
          rw [hcons, begins_succ] at h
          simp only []
          split
          · next hnone =>
              have hrest := h.resolve_left ((offer_isNone _ _ _).mp hnone)
              refine startUp_begins ?_
              rw [offer_eq]
              exact hrest
          · refine .inl fun hempty => ?_
            have hprefix := (supplied_startUp n
              { (offer task tasks w).2 with
                jobList := (offer task tasks w).2.jobList ++
                  [(offer task tasks w).1] }).2.1
            rw [hempty] at hprefix
            exact absurd (List.prefix_nil.mp hprefix)
              (List.append_ne_nil_of_right_ne_nil _ nofun)

/-- Without such a turn no job is listed, and the end of the task list is not
seen. -/
theorem startUp_barren : ∀ {n : Nat} {w : OnTickSimple D},
    ¬ Begins n w.taskList w.creations →
    (startUp n w).jobList = w.jobList ∧
      (.exhausted ∈ (startUp n w).notes → .exhausted ∈ w.notes)
  | 0, w, _ => ⟨rfl, id⟩
  | n + 1, w, h => by
      unfold startUp
      split
      · next hnil =>
          exact absurd (.inl (by rw [hnil]; exact Nat.succ_pos n)) h
      · next task tasks hcons =>
          rw [hcons, begins_succ] at h
          obtain ⟨hfirst, hrest⟩ := not_or.mp h
          simp only []
          rw [if_pos ((offer_isNone task tasks w).mpr hfirst)]
          have hoffer := offer_eq task tasks w
          have hbarren := startUp_barren (n := n)
            (w := note (.rejected (offer task tasks w).1.id)
              (offer task tasks w).2) (by rw [hoffer]; exact hrest)
          rw [hoffer] at hbarren ⊢
          refine ⟨hbarren.1, fun hex => ?_⟩
          rcases List.mem_append.mp (hbarren.2 hex) with hold | hnew
          · rcases List.mem_append.mp hold with hold | hnew
            · exact hold
            · rcases List.mem_pair.mp hnew with hn | hn <;> cases hn
          · cases List.mem_singleton.mp hnew

/-! ## Until the list is empty -/

/-- What holds as long as the factory is there. -/
structure Awaited (tasks : TaskList) (w : OnTickSimple D) : Prop where
  factory : w.factory = true
  supplied : ∀ task ∈ tasks, task ∈ w.taskList ∨ Offered task w
  busy : w.jobList ≠ [] ∨ Attempted tasks w

/-- At the end of the task list every task has been attempted. -/
theorem attempted_of_exhausted {tasks : TaskList}
    (h : ∀ task ∈ tasks, task ∈ w.taskList ∨ Offered task w)
    (hex : .exhausted ∈ w.notes) (hnil : w.taskList = []) :
    Attempted tasks w := by
  refine ⟨hex, fun task htask => (h task htask).resolve_left ?_⟩
  rw [hnil]
  exact List.not_mem_nil

theorem awaited_mainJobs {concurrency : Nat} {tasks : TaskList}
    {creations : List (Creation D)} (h : Begins concurrency tasks creations) :
    Awaited tasks (mainJobs concurrency tasks creations) := by
  obtain ⟨hs, -, hf⟩ := supplied_startUp concurrency
    ({ taskList := tasks, creations := creations } : OnTickSimple D)
  refine ⟨hf, hs.tasks, ?_⟩
  rcases startUp_begins (w := { taskList := tasks, creations := creations }) h
    with hjobs | ⟨hex, hnil⟩
  · exact .inl hjobs
  · exact .inr (attempted_of_exhausted hs.tasks hex hnil)

variable [DecidableEq D]

theorem Awaited.invoke {tasks : TaskList} (h : Awaited tasks w)
    (downloader : D) (status : StatusDownloader) :
    Awaited tasks (invoke downloader status w).2 := by
  have hs := supplied_invoke downloader status w
  have hc := invoke_careful downloader status w
  have hsupplied : ∀ task ∈ tasks,
      task ∈ (OnTickSimple.invoke downloader status w).2.taskList ∨
        Offered task (OnTickSimple.invoke downloader status w).2 := by
    intro task htask
    rcases h.supplied task htask with hleft | hoffered
    · exact hs.tasks task hleft
    · exact .inr (hoffered.mono hs.notes)
  refine ⟨hc.factory.trans h.factory, hsupplied, ?_⟩
  rcases h.busy with hjobs | hattempted
  · by_cases hempty : (OnTickSimple.invoke downloader status w).2.jobList = []
    · have hshrinks : (OnTickSimple.invoke downloader status w).2.jobList.length <
          w.jobList.length := by
        rw [hempty]
        exact List.length_pos_iff.mpr hjobs
      obtain ⟨hnil, hlast⟩ := hc.shrinks h.factory hshrinks
      exact .inr (attempted_of_exhausted hsupplied
        (List.mem_of_getLast? hlast) hnil)
    · exact .inl hempty
  · exact .inr (hattempted.mono hs.notes)

theorem Awaited.step {tasks : TaskList} {e : Event D} (h : Awaited tasks w)
    (he : e.ticks) (hs : Lib.Graph step w e w') : Awaited tasks w' := by
  cases e with
  | invoke downloader status creations =>
      obtain ⟨-, rfl⟩ := step_invoke hs
      have hfound : Awaited tasks { w with creations := creations } :=
        ⟨h.factory, h.supplied, h.busy⟩
      exact hfound.invoke downloader status
  | expire => exact he.elim

/-- In a run of the program without SIGINT the list of jobs is empty only after
every task was attempted, exactly when the start-up loop has a turn for the end
of the task list or one in which a downloader is made. -/
theorem every_task_iff {concurrency : Nat} {tasks : TaskList}
    {creations : List (Creation D)}
    {hist : List (OnTickSimple D × Event D)}
    (hr : Runs (mainJobs concurrency tasks creations) hist w)
    (ht : Meets (fun _ e => e.ticks) hist) :
    (∀ x, Passes hist w x → x.jobList = [] → Attempted tasks x) ↔
      Begins concurrency tasks creations := by
  constructor
  · intro hall
    by_contra hnot
    obtain ⟨hempty, hex⟩ := startUp_barren
      (w := ({ taskList := tasks, creations := creations } : OnTickSimple D))
      hnot
    have hattempted := hall _ hr.passes_start hempty
    exact absurd (hex hattempted.1) List.not_mem_nil
  · intro hbegins x hx hempty
    have hawaited : Awaited tasks x :=
      hr.always ht (fun hr' ht' => hr'.invariant (Awaited tasks) ht'
        (awaited_mainJobs hbegins) fun w₁ e w₂ hI he hs => hI.step he hs) hx
    exact hawaited.busy.resolve_left (not_not_intro hempty)

/-- A task file whose first line has no valid URI. -/
def badFirst : TaskList :=
  [⟨"bad_uri", "bad_fname"⟩, ⟨"http://www.internet.org/", "fname"⟩]

/-- With a concurrency of one the second task is never attempted. -/
theorem every_task_forsaken :
    ¬ ∀ (concurrency : Nat) (tasks : TaskList)
      (creations : List (Creation Nat)) (w : OnTickSimple Nat)
      (hist : List (OnTickSimple Nat × Event Nat)), 1 ≤ concurrency →
      Runs (mainJobs concurrency tasks creations) hist w →
      Meets (fun _ e => e.ticks) hist →
      ∀ x, Passes hist w x → x.jobList = [] → Attempted tasks x := by
  intro hall
  have hattempted := hall 1 badFirst [{}] _ [] (Nat.le_refl 1) .nil .nil _
    .last rfl
  obtain ⟨id, hid⟩ := hattempted.2 ⟨"http://www.internet.org/", "fname"⟩
    (by decide)
  have hnotes : (mainJobs 1 badFirst [({} : Creation Nat)]).notes =
      [.took ⟨"bad_uri", "bad_fname"⟩, .created 1 "bad_uri" "bad_fname",
        .rejected 1] := rfl
  rw [hnotes] at hid
  simp at hid

/-- With a concurrency of two it is. -/
theorem every_task_attempted : ∃ hist w,
    Runs (mainJobs 2 badFirst
      [{}, { downloader := some 1, status := { state := .onTheGo } }]) hist w ∧
    w.jobList = [] ∧ Attempted badFirst w := by
  obtain ⟨hist, w, hexec, hempty, ht⟩ : ∃ hist w,
      exec step (mainJobs 2 badFirst
        [{}, { downloader := some 1, status := { state := .onTheGo } }])
        [.invoke 1 { state := .done } []] = some (hist, w) ∧
      w.jobList = [] ∧ Meets (fun _ e => e.ticks) hist :=
    ⟨_, _, rfl, rfl, fun p hp => by
      rw [List.mem_singleton.mp hp]
      trivial⟩
  refine ⟨hist, w, run_of_exec hexec, hempty,
    (every_task_iff (run_of_exec hexec) ht).mpr ?_ w .last hempty⟩
  exact .inr ⟨_, List.mem_cons_of_mem _ List.mem_cons_self, rfl⟩

end OnTickSimple

end EcwidDownloader
