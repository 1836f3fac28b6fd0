import EcwidDownloader.Proofs.ProgramStaff

/-!
# Whose task a download is

The lines on the screen name a job by its number, and that is the number of its
task: the ids are given in the order of the task file, one for each task that is
taken. So whatever the list of jobs has been through, a request for number `k` is
about the `k`-th task. It names the file of that task, and its URI, or one that
a download of the same job was redirected to.
-/

namespace EcwidDownloader

open Lib

/-- A request is about the task of its number. -/
structure Request.Due (tasks : TaskList)
    (dashboard : List (Nat × StatusDownloader)) (r : Request) : Prop where
  counted : 0 < r.id
  task : ∃ task, tasks[r.id - 1]? = some task ∧ r.fname = task.fname ∧
    (r.uri = task.uri ∨ ∃ status, (r.id, status) ∈ dashboard ∧
      status.state = .redirect ∧ status.redirectUri = r.uri)

theorem Request.Due.mono {dashboard dashboard' : List (Nat × StatusDownloader)}
    {r : Request} (h : r.Due tasks dashboard)
    (hd : ∀ u ∈ dashboard, u ∈ dashboard') : r.Due tasks dashboard' := by
  obtain ⟨hpos, task, htask, hfname, huri⟩ := h
  refine ⟨hpos, task, htask, hfname, huri.imp_right ?_⟩
  rintro ⟨status, hmem, hrest⟩
  exact ⟨status, hd _ hmem, hrest⟩

namespace OnTickSimple

variable {D : Type}

/-- A job has the number and the file of a task. -/
def Belongs (tasks : TaskList) (job : Job D) : Prop :=
  0 < job.id ∧ ∃ task, tasks[job.id - 1]? = some task ∧ job.fname = task.fname

structure Numbered (tasks : TaskList) (w : OnTickSimple D) : Prop where
  left : ∃ taken, tasks = taken ++ w.taskList ∧ w.nextId = taken.length + 1
  jobs : ∀ job ∈ w.jobList, Belongs tasks job
  requests : ∀ r ∈ w.requests, r.Due tasks w.dashboard

variable {tasks : TaskList} {w w' : OnTickSimple D} {it : It D}

/-- No task is taken: the jobs keep their numbers and files, and what is asked for
is due. -/
theorem Numbered.keep (h : Numbered tasks w)
    (ht : w'.taskList = w.taskList) (hn : w'.nextId = w.nextId)
    (hj : ∀ job ∈ w'.jobList, ∃ job₀ ∈ w.jobList,
      job.id = job₀.id ∧ job.fname = job₀.fname)
    (hd : ∀ u ∈ w.dashboard, u ∈ w'.dashboard)
    (hr : ∀ r ∈ w'.requests, r ∈ w.requests ∨ r.Due tasks w'.dashboard) :
    Numbered tasks w' where
  left := by
    rw [ht, hn]
    exact h.left
  jobs job hjob := by
    obtain ⟨job₀, hjob₀, hid, hfname⟩ := hj job hjob
    unfold Belongs
    rw [hid, hfname]
    exact h.jobs job₀ hjob₀
  requests r hmem := by
    rcases hr r hmem with hr | hr
    · exact (h.requests r hr).mono hd
    · exact hr

theorem Numbered.note {n : Note} (h : Numbered tasks w)
    (hn : n.request = none) : Numbered tasks (note n w) :=
  h.keep rfl rfl (fun job hjob => ⟨job, hjob, rfl, rfl⟩) (fun _ hu => hu)
    fun r hr => by
      rw [requests_note, hn] at hr
      exact .inl (by simpa using hr)

theorem Numbered.update (h : Numbered tasks w) (id : Nat)
    (status : StatusDownloader) : Numbered tasks (update id status w) :=
  h.keep rfl rfl (fun job hjob => ⟨job, hjob, rfl, rfl⟩)
    (fun _ hu => List.mem_append_left _ hu) fun _ hr => .inl hr

/-- A task is taken, under the number it has. -/
theorem Numbered.offer {task : Task} {rest : TaskList}
    (h : Numbered tasks w) (hl : w.taskList = task :: rest) :
    Numbered tasks (offer task rest w).2 ∧
      Belongs tasks (offer task rest w).1 := by
  obtain ⟨taken, htasks, hnext⟩ := h.left
  rw [hl] at htasks
  have hfound : tasks[w.nextId - 1]? = some task := by
    rw [htasks, hnext, Nat.add_sub_cancel, List.getElem?_append_right
      (Nat.le_refl _), Nat.sub_self]
    rfl
  have hpos : 0 < w.nextId := hnext ▸ Nat.succ_pos _
  rw [offer_eq]
  refine ⟨⟨⟨taken ++ [task], ?_, ?_⟩, h.jobs, fun r hr => ?_⟩,
    hpos, task, hfound, rfl⟩
  · rw [htasks, List.append_assoc]
    rfl
  · rw [List.length_append, List.length_singleton]
    exact congrArg (· + 1) hnext
  · have hr' : r ∈ w.requests ++ [⟨w.nextId, task.uri, task.fname⟩] :=
      requests_offered task w ▸ hr
    rcases List.mem_append.mp hr' with hr' | hr'
    · exact (h.requests r hr').mono fun u hu => List.mem_append_left _ hu
    · obtain rfl := List.mem_singleton.mp hr'
      exact ⟨hpos, task, hfound, rfl, .inl rfl⟩

theorem Numbered.list {job : Job D} (h : Numbered tasks w)
    (hjob : Belongs tasks job) :
    Numbered tasks { w with jobList := w.jobList ++ [job] } := by
  refine ⟨h.left, fun j hj => ?_, h.requests⟩
  rcases List.mem_append.mp hj with hj | hj
  · exact h.jobs j hj
  · rw [List.mem_singleton.mp hj]
    exact hjob

theorem Numbered.nextTaskLoop : ∀ {rest : TaskList} {w : OnTickSimple D},
    Numbered tasks w → w.taskList = rest →
    Numbered tasks (nextTaskLoop rest w)
  | [], w, h, _ => h.note rfl
  | task :: rest, w, h, hl => by
      obtain ⟨hoffered, hbelongs⟩ := h.offer hl
      unfold OnTickSimple.nextTaskLoop
      simp only []
      split
      · exact (hoffered.note rfl).nextTaskLoop (by rw [offer_eq]; rfl)
      · exact hoffered.list hbelongs

theorem Numbered.startUp : ∀ {n : Nat} {w : OnTickSimple D},
    Numbered tasks w → Numbered tasks (startUp n w)
  | 0, w, h => h
  | n + 1, w, h => by
      unfold OnTickSimple.startUp
      split
      · exact h.note rfl
      · next task rest hl =>
          obtain ⟨hoffered, hbelongs⟩ := h.offer hl
          simp only []
          split
          · exact (hoffered.note rfl).startUp
          · exact (hoffered.list hbelongs).startUp

theorem middle_subset {before after : List (Job D)} {job₀ job : Job D}
    (h : job ∈ before ++ after) : job ∈ before ++ job₀ :: after :=
  ((List.Sublist.refl _).append (List.sublist_cons_self _ _)).subset h

theorem Numbered.erase {job₀ : Job D} (h : Numbered tasks w) (it : It D)
    (hl : w.jobList = it.before ++ job₀ :: it.after) :
    Numbered tasks (erase it w) := by
  have hlisted : Numbered tasks { w with jobList := it.before ++ it.after } :=
    h.keep rfl rfl (fun job hjob => ⟨job, hl ▸ middle_subset hjob, rfl, rfl⟩)
      (fun _ hu => hu) fun _ hr => .inl hr
  exact hlisted.note rfl

theorem Numbered.nextTask {job₀ : Job D} (h : Numbered tasks w) (it : It D)
    (hl : w.jobList = it.before ++ job₀ :: it.after) :
    Numbered tasks (nextTask it w) := by
  have herased := h.erase it hl
  unfold OnTickSimple.nextTask
  simp only []
  split
  · exact herased
  · exact herased.nextTaskLoop rfl

/-- A job with the same number and file is written back. -/
theorem Numbered.store {job₀ : Job D} (h : Numbered tasks w) (it : It D)
    (hl : w.jobList = it.before ++ job₀ :: it.after)
    (hid : it.job.id = job₀.id) (hfname : it.job.fname = job₀.fname) :
    Numbered tasks (store it w) := by
  refine h.keep rfl rfl (fun job hjob => ?_) (fun _ hu => hu)
    fun _ hr => .inl hr
  rw [hl]
  rcases List.mem_append.mp hjob with hjob | hjob
  · exact ⟨job, List.mem_append_left _ hjob, rfl, rfl⟩
  · rcases List.mem_cons.mp hjob with rfl | hjob
    · exact ⟨job₀, List.mem_append_right _ List.mem_cons_self, hid, hfname⟩
    · exact ⟨job, List.mem_append_right _ (List.mem_cons_of_mem _ hjob),
        rfl, rfl⟩

theorem Numbered.create {id : Nat} {uri fname : String}
    (h : Numbered tasks w)
    (hdue : Request.Due tasks w.dashboard ⟨id, uri, fname⟩) :
    Numbered tasks (create id uri fname w).2 := by
  refine h.keep rfl rfl (fun job hjob => ⟨job, hjob, rfl, rfl⟩)
    (fun _ hu => List.mem_append_left _ hu) fun r hr => ?_
  have hr' : r ∈ w.requests ++ [⟨id, uri, fname⟩] :=
    requests_note (.created id uri fname) w ▸ hr
  rcases List.mem_append.mp hr' with hr' | hr'
  · exact .inl hr'
  · rw [List.mem_singleton.mp hr']
    exact .inr (hdue.mono fun _ hu => List.mem_append_left _ hu)

/-- A job of the list asks for the page it was redirected to. -/
theorem Numbered.redirect {status : StatusDownloader} (h : Numbered tasks w)
    (hl : w.jobList = it.before ++ it.job :: it.after)
    (hshown : (it.job.id, status) ∈ w.dashboard)
    (hstate : status.state = .redirect) :
    Numbered tasks (redirect it status.redirectUri w) := by
  have hmem : it.job ∈ w.jobList := by
    rw [hl]
    exact List.mem_append_right _ List.mem_cons_self
  have hdue : Request.Due tasks w.dashboard
      ⟨it.job.id, status.redirectUri, it.job.fname⟩ := by
    obtain ⟨hpos, task, htask, hfname⟩ := h.jobs it.job hmem
    exact ⟨hpos, task, htask, hfname,
      .inr ⟨status, hshown, hstate, rfl⟩⟩
  have hstored := h.store
    { it with job.redirectCount := it.job.redirectCount + 1 } hl rfl rfl
  unfold OnTickSimple.redirect
  simp only []
  split
  · exact (hstored.update it.job.id
      { state := .failed, stateStr := "Maximum count redirect" }).nextTask
      { it with job.redirectCount := it.job.redirectCount + 1 } rfl
  · split
    · have hcreated := (hstored.create hdue).store
        { it with
          job.redirectCount := it.job.redirectCount + 1
          job.downloader := w.creation.downloader } rfl rfl rfl
      split
      · exact hcreated.nextTask
          { it with
            job.redirectCount := it.job.redirectCount + 1
            job.downloader := w.creation.downloader } rfl
      · exact hcreated
    · exact hstored.erase
        { it with job.redirectCount := it.job.redirectCount + 1 } rfl

variable [DecidableEq D]

theorem Numbered.invoke (h : Numbered tasks w) (downloader : D)
    (status : StatusDownloader) :
    Numbered tasks (invoke downloader status w).2 := by
  unfold OnTickSimple.invoke
  split
  · exact h
  · next it hit =>
      have hshown := h.update it.job.id status
      have hl := (findJob_ok hit).1
      simp only []
      cases hstate : status.state with
      | init | onTheGo => exact hshown
      | done | failed => exact hshown.nextTask it hl
      | redirect =>
          exact hshown.redirect hl
            (List.mem_append_right _ (List.mem_singleton_self _)) hstate

/-- The numbers are right in every state of a run. -/
theorem numbered_runs {concurrency : Nat} {creations : List (Creation D)}
    {hist : List (OnTickSimple D × Event D)}
    (hr : Runs (mainJobs concurrency tasks creations) hist w) :
    Numbered tasks w := by
  refine hr.invariant' (Numbered tasks) (Numbered.startUp ?_) ?_
  · exact ⟨⟨[], rfl, rfl⟩, fun job hjob => absurd hjob List.not_mem_nil,
      fun r hr => absurd hr List.not_mem_nil⟩
  · intro w e w' h hs
    cases e with
    | invoke downloader status creations =>
        obtain ⟨-, rfl⟩ := step_invoke hs
        have hgiven : Numbered tasks { w with creations := creations } :=
          ⟨h.left, h.jobs, h.requests⟩
        exact hgiven.invoke downloader status
    | expire =>
        cases hs
        exact ⟨h.left, h.jobs, h.requests⟩

end OnTickSimple

namespace Program

variable {S P : Type} [TCPSocket S] [HttpParser P]
  {concurrency : Nat} {tasks : TaskList} {born : List (Birth S)}
  {p₀ p : Program S P} {hist : List (Program S P × Event S)}

/-- A downloader was made for the task of its number: it has opened no file but the
one the task names, and was given the URI of the task, or one that a download of
the same job was redirected to. -/
structure OfTask (tasks : TaskList) (p : Program S P) (number : Nat)
    (w : DownloaderSimple.World S P) (r : Request) (task : Task) : Prop where
  request : p.onTick.requests[number]? = some r
  counted : 0 < r.id
  listed : tasks[r.id - 1]? = some task
  fname : w.owner.fname = task.fname
  opened : ∀ name ∈ w.owner.opened, name = task.fname
  uri : r.uri = task.uri ∨ ∃ status, (r.id, status) ∈ p.onTick.dashboard ∧
    status.state = .redirect ∧ status.redirectUri = r.uri

theorem downloads_of_task (h₀ : launch concurrency tasks born = some p₀)
    (hr : Runs p₀ hist p) {number : Nat} {w : DownloaderSimple.World S P}
    (hw : p.downloaders[number]? = some w) :
    ∃ r task, OfTask tasks p number w r task := by
  have hparts := parts_of_runs h₀ hr (meeting_any hist)
  obtain ⟨jobs, hjobs⟩ := hparts.jobs
  have hnumbered := OnTickSimple.numbered_runs hjobs
  obtain ⟨bs, hasked, hreached⟩ := hparts.downloaders
  obtain ⟨b, downloads, hb, hdownloads⟩ := hreached.get hw
  have hrequest : p.onTick.requests[number]? = some b.request := by
    rw [hasked, List.getElem?_map, hb]
    rfl
  obtain ⟨hpos, task, htask, hfname, huri⟩ :=
    hnumbered.requests b.request (List.mem_of_getElem? hrequest)
  have hbirth : (b.world P).owner.fname = b.request.fname ∧
      (DownloaderSimple.account (b.world P)).Even := by
    have haccount : DownloaderSimple.account (b.world P) =
        ⟨0, [], [], b.request.fname, []⟩ := DownloaderSimple.run_account rfl
    refine ⟨congrArg DownloaderSimple.Account.fname haccount, ?_⟩
    rw [haccount]
    exact ⟨rfl, fun chunk hc => absurd hc List.not_mem_nil,
      fun name hn => absurd hn List.not_mem_nil⟩
  obtain ⟨hname, heven⟩ := hdownloads.invariant'
    (fun w => w.owner.fname = b.request.fname ∧
      (DownloaderSimple.account w).Even) hbirth
    (fun w o w' h hs => by
      obtain ⟨hsame, hkeeps⟩ := DownloaderSimple.account_step hs.1
      exact ⟨hsame.trans h.1, hkeeps h.2⟩)
  refine ⟨b.request, task, hrequest, hpos, htask, hname.trans hfname,
    fun n hn => ?_, huri⟩
  exact (heven.opened n hn).trans (hname.trans hfname)

theorem downloads_of_task_inTurn : ∃ (p₀ p : Site) (hist : _) (w : _),
    Runs p₀ hist p ∧ p.downloaders[0]? = some w ∧ w.owner.opened = ["a"] ∧
      ∃ r task, OfTask threePages p 0 w r task := by
  obtain ⟨p₀, hist, p, w, hlaunch, hexec, hw, hopened⟩ : ∃ (p₀ : Site)
      (hist : _) (p : _) (w : _),
      launch 2 threePages atFirst = some p₀ ∧
        exec step p₀ (plays p₀ inTurn) = some (hist, p) ∧
        p.downloaders[0]? = some w ∧ w.owner.opened = ["a"] :=
    ⟨_, _, _, _, rfl, rfl, rfl, rfl⟩
  exact ⟨p₀, p, hist, w, run_of_exec hexec, hw, hopened,
    downloads_of_task hlaunch (run_of_exec hexec) hw⟩

end Program

end EcwidDownloader
