import EcwidDownloader.Jobs.OnTickSimple
import EcwidDownloader.Lib.Ledger

/-!
# The books of the jobs

The list of jobs, the dashboard and what was done with the tasks are a ledger:
the items are the tasks under the ids of their jobs, those listed are running,
and the verdict on an item is the update that shows it as done or failed. Every
path through `invoke` makes entries of a ledger and nothing else, so the books
stay balanced. What is then left to show is what a ledger does not know of: the
downloaders of the jobs and their places in the list.
-/

namespace EcwidDownloader

open Lib

/-- The states an ended task is reported with. -/
def State.verdict : State → Bool
  | .done | .failed => true
  | .init | .onTheGo | .redirect => false

/-- The task whose end a note is about. -/
def Note.ended : Note → Option Nat
  | .rejected id | .left id _ => some id
  | _ => none

/-- The task whose end is to be reported: the factory was still there. -/
def Note.owed : Note → Option Nat
  | .rejected id | .left id true => some id
  | _ => none

def Note.isTook : Note → Bool
  | .took _ => true
  | _ => false

namespace OnTickSimple

variable {D : Type}

/-- The task an update shows as done or failed. -/
def verdictOf (u : Nat × StatusDownloader) : Option Nat :=
  if u.2.state.verdict then some u.1 else none

def ledger (w : OnTickSimple D) : Ledger where
  next := w.nextId
  running := w.jobList.map Job.id
  ended := w.notes.filterMap Note.ended
  owed := w.notes.filterMap Note.owed
  verdicts := w.dashboard.filterMap verdictOf
  taken := w.notes.countP Note.isTook

/-! ## Taking tasks -/

theorem offer_eq (task : Task) (tasks : TaskList) (w : OnTickSimple D) :
    offer task tasks w =
      ({ id := w.nextId
         fname := task.fname
         downloader := w.creation.downloader },
        { w with
          taskList := tasks
          nextId := w.nextId + 1
          creations := w.creations.tail
          notes := w.notes ++
            [.took task, .created w.nextId task.uri task.fname]
          dashboard := w.dashboard ++ [(w.nextId, w.creation.status)] }) := by
  have hnotes : w.notes ++
      [.took task, .created w.nextId task.uri task.fname] =
      (w.notes ++ [.took task]) ++
        [.created w.nextId task.uri task.fname] :=
    (List.append_assoc _ [_] [_]).symm
  rw [hnotes]
  rfl

/-- The status of a new downloader shows whether `create` returns it. -/
theorem verdictOf_creation (id : Nat) (c : Creation D) :
    verdictOf (id, c.status) =
      if c.downloader.isNone then some id else none := by
  unfold verdictOf
  rw [c.state]
  cases c.downloader <;> rfl

theorem ledger_rejected {task : Task} {tasks : TaskList} {w : OnTickSimple D}
    (h : (offer task tasks w).1.downloader.isNone = true) :
    ledger (note (.rejected (offer task tasks w).1.id)
      (offer task tasks w).2) = (ledger w).reject := by
  have hv : [(w.nextId, w.creation.status)].filterMap verdictOf =
      [w.nextId] := by
    rw [offer_eq] at h
    rw [List.filterMap_cons, verdictOf_creation, if_pos h]
    rfl
  rw [offer_eq]
  simp only [ledger, note, List.filterMap_append, List.countP_append, hv,
    List.append_assoc]
  rfl

theorem ledger_started {task : Task} {tasks : TaskList} {w : OnTickSimple D}
    (h : ¬ (offer task tasks w).1.downloader.isNone = true) :
    ledger { (offer task tasks w).2 with
      jobList := (offer task tasks w).2.jobList ++ [(offer task tasks w).1] } =
      (ledger w).start := by
  have hv : [(w.nextId, w.creation.status)].filterMap verdictOf = [] := by
    rw [offer_eq] at h
    rw [List.filterMap_cons, verdictOf_creation, if_neg h]
    rfl
  have hended : [Note.took task, .created w.nextId task.uri task.fname].filterMap
      Note.ended = [] := rfl
  have howed : [Note.took task, .created w.nextId task.uri task.fname].filterMap
      Note.owed = [] := rfl
  rw [offer_eq]
  simp only [ledger, List.filterMap_append, List.countP_append, hv, hended,
    howed, List.map_append, List.append_nil]
  rfl

/-- A note that is no entry. -/
theorem ledger_note {n : Note} (w : OnTickSimple D) (he : n.ended = none)
    (ho : n.owed = none) (ht : n.isTook = false) :
    ledger (note n w) = ledger w := by
  simp [ledger, note, List.filterMap_append, List.countP_append, he, ho, ht]

/-- What the loop of `next_task` does to the list: it appends a job whose
downloader has just been made, or comes to the end of the task list. -/
structure Continued (w w' : OnTickSimple D) : Prop where
  steps : Ledger.Steps (ledger w) (ledger w')
  factory : w'.factory = w.factory
  nextId : w.nextId ≤ w'.nextId
  jobs : (w'.jobList = w.jobList ∧ w'.taskList = [] ∧
      w'.notes.getLast? = some .exhausted) ∨
    ∃ job, w'.jobList = w.jobList ++ [job] ∧ w.nextId ≤ job.id ∧
      job.downloader.isSome = true ∧
      ∃ c ∈ w.creations, c.downloader = job.downloader

theorem creation_mem {w : OnTickSimple D}
    (h : w.creation.downloader.isSome = true) : w.creation ∈ w.creations := by
  unfold creation at h ⊢
  cases hc : w.creations with
  | nil => rw [hc] at h; cases h
  | cons c cs => exact List.mem_cons_self

theorem nextTaskLoop_continued : ∀ (tasks : TaskList) {w : OnTickSimple D},
    w.taskList = tasks → Continued w (nextTaskLoop tasks w)
  | [], w, h => by
      refine ⟨?_, rfl, Nat.le_refl _, .inl ⟨rfl, h, List.getLast?_concat⟩⟩
      unfold nextTaskLoop
      rw [ledger_note w rfl rfl rfl]
  | task :: tasks, w, h => by
      unfold nextTaskLoop
      simp only []
      split
      · next hnone =>
          have hrest := nextTaskLoop_continued tasks
            (w := note (.rejected (offer task tasks w).1.id)
              (offer task tasks w).2) (by rw [offer_eq]; rfl)
          have hstep : Ledger.Step (ledger w)
              (ledger (note (.rejected (offer task tasks w).1.id)
                (offer task tasks w).2)) := by
            rw [ledger_rejected hnone]
            exact .reject
          have hoffered := offer_eq task tasks w
          refine ⟨.head hstep hrest.steps, ?_, ?_, ?_⟩
          · rw [hrest.factory, hoffered]
            rfl
          · refine Nat.le_trans ?_ hrest.nextId
            rw [hoffered]
            exact Nat.le_succ _
          · rcases hrest.jobs with hend | ⟨job, hlist, hid, hsome, c, hc, heq⟩
            · rw [hoffered] at hend ⊢
              exact .inl hend
            · rw [hoffered] at hlist hid hc ⊢
              exact .inr ⟨job, hlist, Nat.le_of_succ_le hid, hsome, c,
                List.mem_of_mem_tail hc, heq⟩
      · next hsome =>
          have hstep : Ledger.Step (ledger w) _ := .start
          rw [← ledger_started hsome] at hstep
          rw [offer_eq] at hsome hstep ⊢
          have hsome' : w.creation.downloader.isSome = true := by
            rw [Option.isSome_iff_ne_none]
            exact fun hn => hsome (Option.isNone_iff_eq_none.mpr hn)
          exact ⟨.single hstep, rfl, Nat.le_succ _, .inr ⟨_, rfl, Nat.le_refl _,
            hsome', _, creation_mem hsome', rfl⟩⟩

/-! ## The end of a job -/

/-- What has happened to a job before it is erased: nothing, or its verdict. -/
structure Judged (given : Bool) (id : Nat) (w w' : OnTickSimple D) : Prop where
  nextId : w'.nextId = w.nextId
  ended : w'.notes.filterMap Note.ended = w.notes.filterMap Note.ended
  owed : w'.notes.filterMap Note.owed = w.notes.filterMap Note.owed
  taken : w'.notes.countP Note.isTook = w.notes.countP Note.isTook
  verdicts : w'.dashboard.filterMap verdictOf =
    if given then w.dashboard.filterMap verdictOf ++ [id]
    else w.dashboard.filterMap verdictOf
  taskList : w'.taskList = w.taskList
  factory : w'.factory = w.factory
  creations : ∀ c ∈ w'.creations, c ∈ w.creations

theorem Judged.trans {given : Bool} {id : Nat} {w w₁ w₂ : OnTickSimple D}
    (h : Judged false id w w₁) (h' : Judged given id w₁ w₂) :
    Judged given id w w₂ where
  nextId := h'.nextId.trans h.nextId
  ended := h'.ended.trans h.ended
  owed := h'.owed.trans h.owed
  taken := h'.taken.trans h.taken
  verdicts := by rw [h'.verdicts, h.verdicts]; rfl
  taskList := h'.taskList.trans h.taskList
  factory := h'.factory.trans h.factory
  creations c hc := h.creations c (h'.creations c hc)

theorem judged_update (id : Nat) (status : StatusDownloader)
    (w : OnTickSimple D) :
    Judged status.state.verdict id w (update id status w) where
  nextId := rfl
  ended := rfl
  owed := rfl
  taken := rfl
  verdicts := by
    unfold update
    rw [List.filterMap_append, List.filterMap_cons, verdictOf]
    cases status.state.verdict with
    | false => exact List.append_nil _
    | true => rfl
  taskList := rfl
  factory := rfl
  creations _ hc := hc

theorem Judged.store {given : Bool} {id : Nat} {w w' : OnTickSimple D}
    (h : Judged given id w w') (it : It D) : Judged given id w (store it w') :=
  ⟨h.nextId, h.ended, h.owed, h.taken, h.verdicts, h.taskList, h.factory,
    h.creations⟩

/-- A call of `create` for a job that is listed. -/
theorem judged_create (id : Nat) (uri fname : String) (w : OnTickSimple D) :
    Judged w.creation.downloader.isNone id w (create id uri fname w).2 where
  nextId := rfl
  ended := by
    unfold create update note
    rw [List.filterMap_append]
    exact List.append_nil _
  owed := by
    unfold create update note
    rw [List.filterMap_append]
    exact List.append_nil _
  taken := by
    unfold create update note
    rw [List.countP_append]
    rfl
  verdicts := by
    unfold create update note
    rw [List.filterMap_append, List.filterMap_cons, verdictOf_creation]
    cases w.creation.downloader.isNone with
    | false => exact List.append_nil _
    | true => rfl
  taskList := rfl
  factory := rfl
  creations _ hc := List.mem_of_mem_tail hc

theorem ledger_erase {given : Bool} (it : It D) {w w' : OnTickSimple D}
    (h : Judged given it.job.id w w') :
    ledger (erase it w') =
      (ledger w).finish (it.before.map Job.id) it.job.id
        (it.after.map Job.id) w'.factory given := by
  have howed : [Note.left it.job.id w'.factory].filterMap Note.owed =
      if w'.factory then [it.job.id] else [] := by
    cases w'.factory <;> rfl
  have htook : [Note.left it.job.id w'.factory].countP Note.isTook = 0 := rfl
  simp only [ledger, erase, note, Ledger.finish, List.filterMap_append,
    List.countP_append, howed, htook, h.nextId, h.ended, h.owed, h.taken,
    h.verdicts, List.map_append]
  cases w'.factory with
  | false => simp [Note.ended]
  | true => simp [Note.ended]

/-! ## A tick -/

/-- The downloader of the job has just been made. -/
def Made (w : OnTickSimple D) (job : Job D) : Prop :=
  job.downloader.isSome = true ∧ ∃ c ∈ w.creations, c.downloader = job.downloader

/-- What a tick makes of the list: the job at its position keeps its place or
goes, at most one job is appended when it goes, and no other is touched. -/
structure Confined (it : It D) (w w' : OnTickSimple D)
    (own appended : List (Job D)) : Prop where
  list : w'.jobList = it.before ++ own ++ it.after ++ appended
  one : own.length + appended.length ≤ 1
  own : ∀ job ∈ own, job.id = it.job.id ∧ job.fname = it.job.fname ∧
    (job.downloader = it.job.downloader ∨ Made w job)
  appended : ∀ job ∈ appended, w.nextId ≤ job.id ∧ Made w job

/-- What a tick of the job at a position does. -/
structure Ticked (it : It D) (w w' : OnTickSimple D) : Prop where
  steps : Ledger.Steps (ledger w) (ledger w')
  factory : w'.factory = w.factory
  confined : ∃ own appended, Confined it w w' own appended
  shrinks : w.factory = true → w'.jobList.length < w.jobList.length →
    w'.taskList = [] ∧ w'.notes.getLast? = some .exhausted
  gone : w.factory = false → w'.taskList = w.taskList ∧
    (ledger w').taken = (ledger w).taken ∧ w'.jobList.Sublist w.jobList

section

variable {it : It D} {w w₁ : OnTickSimple D}

theorem sublist_of_list (hl : w.jobList = it.before ++ it.job :: it.after) :
    (it.before ++ it.after).Sublist w.jobList := by
  rw [hl]
  exact (List.Sublist.refl _).append (List.sublist_cons_self _ _)

/-- The job is erased, with its verdict unless the factory is gone. -/
theorem erase_step {given : Bool} {job : Job D}
    (hl : w.jobList = it.before ++ it.job :: it.after)
    (hid : job.id = it.job.id) (hj : Judged given it.job.id w w₁)
    (hdue : w.factory = true → given = true) :
    Ledger.Step (ledger w) (ledger (erase { it with job := job } w₁)) := by
  have hrunning : (ledger w).running =
      it.before.map Job.id ++ it.job.id :: it.after.map Job.id := by
    show w.jobList.map Job.id = _
    rw [hl, List.map_append, List.map_cons]
  rw [ledger_erase { it with job := job } (hid.symm ▸ hj), hj.factory]
  exact .finish (hid ▸ hrunning) hdue

/-- Without a factory that is all. -/
theorem erase_ticked {given : Bool} {job : Job D}
    (hl : w.jobList = it.before ++ it.job :: it.after)
    (hid : job.id = it.job.id) (hj : Judged given it.job.id w w₁)
    (hgone : w.factory = false) :
    Ticked it w (erase { it with job := job } w₁) := by
  have hlist : (erase { it with job := job } w₁).jobList =
      it.before ++ it.after := rfl
  refine ⟨.single (erase_step hl hid hj fun hf => absurd (hgone.symm.trans hf)
      Bool.false_ne_true), hj.factory,
    ⟨[], [], ?_, Nat.zero_le _, nofun, nofun⟩,
    fun hf => absurd (hgone.symm.trans hf) Bool.false_ne_true,
    fun _ => ⟨hj.taskList, ?_, hlist ▸ sublist_of_list hl⟩⟩
  · rw [hlist, List.append_nil, List.append_nil]
  · rw [ledger_erase { it with job := job } (hid.symm ▸ hj)]
    rfl

theorem nextTask_ticked {given : Bool} {job : Job D}
    (hl : w.jobList = it.before ++ it.job :: it.after)
    (hid : job.id = it.job.id) (hj : Judged given it.job.id w w₁)
    (hdue : w.factory = true → given = true) :
    Ticked it w (nextTask { it with job := job } w₁) := by
  have hlist : (erase { it with job := job } w₁).jobList =
      it.before ++ it.after := rfl
  have hfactory : (erase { it with job := job } w₁).factory = w.factory :=
    hj.factory
  unfold nextTask
  simp only []
  rw [hfactory]
  split
  · next hgone =>
      exact erase_ticked hl hid hj (by simpa using hgone)
  · next hthere =>
      have hthere' : w.factory = true := by simpa using hthere
      have hloop := nextTaskLoop_continued _
        (w := erase { it with job := job } w₁) rfl
      have hnextId : w.nextId ≤ (erase { it with job := job } w₁).nextId :=
        Nat.le_of_eq hj.nextId.symm
      refine ⟨.head (erase_step hl hid hj hdue) hloop.steps,
        hloop.factory.trans hfactory, ?_,
        fun _ hlt => ?_, fun hf =>
          absurd (hf.symm.trans hthere') Bool.false_ne_true⟩
      · rcases hloop.jobs with ⟨hsame, -, -⟩ | ⟨job', hnew, hle, hsome, c, hc, heq⟩
        · refine ⟨[], [], ?_, Nat.zero_le _, nofun, nofun⟩
          rw [hsame, hlist, List.append_nil, List.append_nil]
        · refine ⟨[], [job'], ?_, Nat.le_refl _, nofun, fun job'' hmem => ?_⟩
          · rw [hnew, hlist, List.append_nil]
          · rw [List.mem_singleton.mp hmem]
            exact ⟨Nat.le_trans hnextId hle, hsome, c, hj.creations c hc, heq⟩
      · rcases hloop.jobs with ⟨-, hend⟩ | ⟨job', hnew, -⟩
        · exact hend
        · rw [hnew, hlist, hl] at hlt
          simp only [List.length_append, List.length_cons,
            List.length_nil] at hlt
          omega

/-- The job keeps its place, with no verdict. -/
theorem stay_ticked {job : Job D}
    (hl : w.jobList = it.before ++ it.job :: it.after)
    (hl₁ : w₁.jobList = it.before ++ job :: it.after)
    (hid : job.id = it.job.id) (hfname : job.fname = it.job.fname)
    (hmade : job = it.job ∨ w.factory = true ∧ Made w job)
    (hj : Judged false it.job.id w w₁) : Ticked it w w₁ := by
  have hledger : ledger w₁ = ledger w := by
    have hids : w₁.jobList.map Job.id = w.jobList.map Job.id := by
      rw [hl, hl₁, List.map_append, List.map_append, List.map_cons,
        List.map_cons, hid]
    simp only [ledger, hids, hj.nextId, hj.ended, hj.owed, hj.taken,
      hj.verdicts]
    rfl
  have hlength : w₁.jobList.length = w.jobList.length := by
    rw [hl, hl₁, List.length_append, List.length_append, List.length_cons,
      List.length_cons]
  refine ⟨hledger ▸ .refl, hj.factory,
    ⟨[job], [], ?_, Nat.le_refl _, fun job' hmem => ?_, nofun⟩,
    fun _ hlt => absurd (hlength ▸ hlt) (Nat.lt_irrefl _),
    fun hgone => ⟨hj.taskList, by rw [hledger], ?_⟩⟩
  · rw [hl₁, List.append_nil, List.append_assoc]
    rfl
  · rw [List.mem_singleton.mp hmem]
    refine ⟨hid, hfname, ?_⟩
    rcases hmade with rfl | ⟨-, hmade⟩
    · exact .inl rfl
    · exact .inr hmade
  · rcases hmade with rfl | ⟨hthere, -⟩
    · rw [hl, hl₁]
    · exact absurd (hgone.symm.trans hthere) Bool.false_ne_true

/-- `redirect`, for a job whose redirection has been shown. -/
theorem redirect_ticked (hl : w.jobList = it.before ++ it.job :: it.after)
    (uri : String) (hj : Judged false it.job.id w w₁) :
    Ticked it w (redirect it uri w₁) := by
  have hfactory : w₁.factory = w.factory := hj.factory
  have hcounted := hj.store
    { it with job.redirectCount := it.job.redirectCount + 1 }
  unfold redirect
  simp only []
  split
  · exact nextTask_ticked hl rfl (hcounted.trans (judged_update it.job.id
      { state := .failed, stateStr := "Maximum count redirect" } _)) fun _ => rfl
  · split
    · next hthere =>
        have hcreated := hcounted.trans
          (judged_create it.job.id uri it.job.fname _)
        split
        · next hnone =>
            have hgiven : w₁.creation.downloader.isNone = true := hnone
            exact nextTask_ticked hl rfl (hcreated.store _) fun _ => hgiven
        · next hsome =>
            have hgiven : w₁.creation.downloader.isNone = false :=
              Bool.eq_false_iff.mpr hsome
            have hmade : w₁.creation.downloader.isSome = true := by
              rw [← Option.not_isNone, hgiven]
              rfl
            have hcreation : w₁.creation ∈ w.creations :=
              hj.creations _ (creation_mem hmade)
            refine stay_ticked hl rfl rfl rfl (.inr ⟨hfactory ▸ hthere, hmade,
              w₁.creation, hcreation, rfl⟩) ?_
            have hkept := hcreated.store
              { it with
                job.redirectCount := it.job.redirectCount + 1
                job.downloader := w₁.creation.downloader }
            rw [show (store _ w₁).creation.downloader.isNone = false from
              hgiven] at hkept
            exact hkept
    · next hgone =>
        exact erase_ticked hl rfl hcounted (by
          rw [← hfactory]
          exact Bool.eq_false_iff.mpr hgone)

end

section

variable [DecidableEq D]

theorem findJob_ok {downloader : D} : ∀ {jobs : List (Job D)} {it : It D},
    findJob downloader jobs = .ok it →
    jobs = it.before ++ it.job :: it.after ∧
      it.job.downloader = some downloader
  | [], it, h => by cases h
  | job :: jobs, it, h => by
      unfold findJob at h
      split at h
      · next heq =>
          cases h
          exact ⟨rfl, heq⟩
      · cases hf : findJob downloader jobs with
        | error what => rw [hf] at h; cases h
        | ok it' =>
            rw [hf] at h
            cases h
            obtain ⟨hl, hd⟩ := findJob_ok hf
            exact ⟨congrArg (job :: ·) hl, hd⟩

theorem findJob_error {downloader : D} {jobs : List (Job D)}
    (h : ∀ job ∈ jobs, job.downloader ≠ some downloader) :
    findJob downloader jobs =
      .error "OnTickSimple => invalid Downloader" := by
  induction jobs with
  | nil => rfl
  | cons job jobs ih =>
      unfold findJob
      rw [if_neg (h job List.mem_cons_self),
        ih fun job' hmem => h job' (List.mem_cons_of_mem _ hmem)]
      rfl

theorem findJob_of_mem {downloader : D} {jobs : List (Job D)}
    (h : ∃ job ∈ jobs, job.downloader = some downloader) :
    ∃ it, findJob downloader jobs = .ok it := by
  induction jobs with
  | nil => exact absurd h nofun
  | cons job jobs ih =>
      unfold findJob
      split
      · exact ⟨_, rfl⟩
      · next hne =>
          obtain ⟨job', hmem, hd⟩ := h
          rcases List.mem_cons.mp hmem with rfl | hmem
          · exact absurd hd hne
          · obtain ⟨it, hit⟩ := ih ⟨job', hmem, hd⟩
            rw [hit]
            exact ⟨_, rfl⟩

/-- A tick of a downloader that is not listed. -/
theorem invoke_unknown {downloader : D} {w : OnTickSimple D}
    (status : StatusDownloader)
    (h : ∀ job ∈ w.jobList, job.downloader ≠ some downloader) :
    invoke downloader status w =
      (some "OnTickSimple => invalid Downloader", w) := by
  unfold invoke
  rw [findJob_error h]

/-- A tick of a downloader that is listed. -/
theorem invoke_ticked {downloader : D} {w : OnTickSimple D} {it : It D}
    (status : StatusDownloader) (h : findJob downloader w.jobList = .ok it) :
    (invoke downloader status w).1 = none ∧
      Ticked it w (invoke downloader status w).2 := by
  obtain ⟨hl, -⟩ := findJob_ok h
  have hj := judged_update it.job.id status w
  unfold invoke
  rw [h]
  simp only []
  cases hstate : status.state with
  | done =>
      rw [hstate] at hj
      exact ⟨rfl, nextTask_ticked hl rfl hj fun _ => rfl⟩
  | failed =>
      rw [hstate] at hj
      exact ⟨rfl, nextTask_ticked hl rfl hj fun _ => rfl⟩
  | redirect =>
      rw [hstate] at hj
      exact ⟨rfl, redirect_ticked hl status.redirectUri hj⟩
  | init =>
      rw [hstate] at hj
      exact ⟨rfl, stay_ticked hl hl rfl rfl (.inl rfl) hj⟩
  | onTheGo =>
      rw [hstate] at hj
      exact ⟨rfl, stay_ticked hl hl rfl rfl (.inl rfl) hj⟩

end

end OnTickSimple

end EcwidDownloader
