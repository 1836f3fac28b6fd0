import EcwidDownloader.Jobs.Program
import EcwidDownloader.Proofs.JobConservation

/-!
# Which downloaders have a job

The downloaders of the listed jobs are the staff. A tick with a final state takes
its downloader off the staff, and whatever the factory makes meanwhile comes on:
in the place of the old downloader after a redirect, at the end of the list for
the next task. Nobody else comes or goes, so the staff after a tick is what was
kept and what was made, up to the order of the list. `Recruited` says this of a
part of a tick, with the calls of `create` it has made.
-/

namespace EcwidDownloader

namespace OnTickSimple

variable {D : Type}

/-- The downloaders of some jobs. -/
def staffed (jobs : List (Job D)) : List D := jobs.filterMap Job.downloader

def staff (w : OnTickSimple D) : List D := staffed w.jobList

/-- The downloaders that a number of calls of `create` return. -/
def hired (n : Nat) (creations : List (Creation D)) : List D :=
  (creations.take n).filterMap Creation.downloader

structure Recruited (kept : List D) (asked : List Request)
    (w w' : OnTickSimple D) : Prop where
  requests : w'.requests = w.requests ++ asked
  creations : w'.creations = w.creations.drop asked.length
  staff : (staff w').Perm (kept ++ hired asked.length w.creations)
  counted : w'.dashboard.filterMap DashboardSimple.counted =
    w.dashboard.filterMap DashboardSimple.counted

theorem hired_add (m n : Nat) (creations : List (Creation D)) :
    hired (m + n) creations =
      hired m creations ++ hired n (creations.drop m) := by
  unfold hired
  rw [List.take_add, List.filterMap_append]

theorem hired_one (w : OnTickSimple D) :
    hired 1 w.creations = w.creation.downloader.toList := by
  unfold hired creation
  cases w.creations with
  | nil => rfl
  | cons c cs =>
      show [c].filterMap Creation.downloader = c.downloader.toList
      cases h : c.downloader <;> simp [h]

variable {kept : List D} {asked asked' : List Request}
  {w w₁ w' : OnTickSimple D} {it : It D}

theorem Recruited.trans (h : Recruited kept asked w w₁)
    (h' : Recruited (OnTickSimple.staff w₁) asked' w₁ w') :
    Recruited kept (asked ++ asked') w w' where
  requests := by rw [h'.requests, h.requests, List.append_assoc]
  creations := by
    rw [h'.creations, h.creations, List.drop_drop, List.length_append]
  staff := by
    have hstaff := h'.staff
    rw [h.creations] at hstaff
    rw [List.length_append, hired_add, ← List.append_assoc]
    exact hstaff.trans (h.staff.append_right _)
  counted := h'.counted.trans h.counted

theorem Recruited.perm {kept' : List D} (h : Recruited kept asked w w')
    (hp : kept.Perm kept') : Recruited kept' asked w w' :=
  ⟨h.requests, h.creations, h.staff.trans (hp.append_right _), h.counted⟩

/-- No call of `create`, and no report of `Done`. -/
theorem recruited_of_eq (hr : w'.requests = w.requests)
    (hc : w'.creations = w.creations)
    (hd : w'.dashboard.filterMap DashboardSimple.counted =
      w.dashboard.filterMap DashboardSimple.counted) :
    Recruited (staff w') [] w w' where
  requests := by rw [hr, List.append_nil]
  creations := hc
  staff := List.Perm.of_eq (List.append_nil _).symm
  counted := hd

theorem requests_note (n : Note) (w : OnTickSimple D) :
    (note n w).requests = w.requests ++ n.request.toList := by
  unfold requests note
  rw [List.filterMap_append]
  cases h : n.request <;> simp [h]

theorem counted_update {status : StatusDownloader} (id : Nat)
    (h : status.state ≠ .done) (w : OnTickSimple D) :
    (update id status w).dashboard.filterMap DashboardSimple.counted =
      w.dashboard.filterMap DashboardSimple.counted := by
  unfold update
  rw [List.filterMap_append, List.filterMap_cons, DashboardSimple.counted,
    if_neg h]
  exact List.append_nil _

theorem Creation.not_done (c : Creation D) : c.status.state ≠ .done := by
  rw [c.state]
  cases c.downloader <;> exact fun h => nomatch h

/-- One call of `create`, whose downloader has not found its place yet. -/
theorem recruited_create {id : Nat} {uri fname : String}
    (h : (staff w').Perm (kept ++ w.creation.downloader.toList))
    (hr : w'.requests = (create id uri fname w).2.requests)
    (hc : w'.creations = w.creations.tail)
    (hd : w'.dashboard = (create id uri fname w).2.dashboard) :
    Recruited kept [⟨id, uri, fname⟩] w w' where
  requests := by
    rw [hr]
    exact requests_note (.created id uri fname) w
  creations := hc.trans (List.drop_one (l := w.creations)).symm
  staff := by
    rw [List.length_singleton, hired_one]
    exact h
  counted := by
    rw [hd]
    exact counted_update id (Creation.not_done w.creation) w

theorem requests_offered (task : Task) (w : OnTickSimple D) :
    ({ w with
      notes := w.notes ++
        [.took task, .created w.nextId task.uri task.fname] } :
      OnTickSimple D).requests =
      w.requests ++ [⟨w.nextId, task.uri, task.fname⟩] := by
  unfold requests
  rw [List.filterMap_append]
  rfl

theorem recruited_rejected {task : Task} {tasks : TaskList}
    (h : (offer task tasks w).1.downloader.isNone = true) :
    Recruited (staff w) [⟨w.nextId, task.uri, task.fname⟩] w
      (note (.rejected (offer task tasks w).1.id) (offer task tasks w).2) := by
  rw [offer_eq] at h ⊢
  have hnone : w.creation.downloader = none := Option.isNone_iff_eq_none.mp h
  refine recruited_create ?_ ?_ rfl rfl
  · rw [hnone]
    exact .of_eq (List.append_nil _).symm
  · rw [requests_note]
    exact (List.append_nil _).trans ((requests_offered task w).trans
      (requests_note (.created _ _ _) w).symm)

theorem recruited_started {task : Task} {tasks : TaskList} :
    Recruited (staff w) [⟨w.nextId, task.uri, task.fname⟩] w
      { (offer task tasks w).2 with
        jobList := (offer task tasks w).2.jobList ++
          [(offer task tasks w).1] } := by
  rw [offer_eq]
  refine recruited_create ?_ ?_ rfl rfl
  · refine .of_eq ((List.filterMap_append ..).trans (congrArg _ ?_))
    cases w.creation.downloader <;> rfl
  · exact (requests_offered task w).trans
      (requests_note (.created _ _ _) w).symm

theorem recruited_nextTaskLoop : ∀ (tasks : TaskList) (w : OnTickSimple D),
    ∃ asked, Recruited (staff w) asked w (nextTaskLoop tasks w)
  | [], w => ⟨[], recruited_of_eq
      ((requests_note .exhausted w).trans (List.append_nil _)) rfl rfl⟩
  | task :: tasks, w => by
      unfold nextTaskLoop
      simp only []
      split
      · next hnone =>
          have hone := recruited_rejected hnone
          obtain ⟨asked, hrest⟩ := recruited_nextTaskLoop tasks
            (note (.rejected (offer task tasks w).1.id)
              (offer task tasks w).2)
          exact ⟨_, hone.trans hrest⟩
      · exact ⟨_, recruited_started⟩

theorem recruited_startUp : ∀ (n : Nat) (w : OnTickSimple D),
    ∃ asked, Recruited (staff w) asked w (startUp n w)
  | 0, w => ⟨[], recruited_of_eq rfl rfl rfl⟩
  | n + 1, w => by
      unfold startUp
      split
      · exact ⟨[], recruited_of_eq
          ((requests_note .exhausted w).trans (List.append_nil _)) rfl rfl⟩
      · next task tasks htasks =>
          simp only []
          split
          · next hnone =>
              have hone := recruited_rejected hnone
              obtain ⟨asked, hrest⟩ := recruited_startUp n
                (note (.rejected (offer task tasks w).1.id)
                  (offer task tasks w).2)
              exact ⟨_, hone.trans hrest⟩
          · obtain ⟨asked, hrest⟩ := recruited_startUp n
              { (offer task tasks w).2 with
                jobList := (offer task tasks w).2.jobList ++
                  [(offer task tasks w).1] }
            exact ⟨_, recruited_started.trans hrest⟩

theorem recruited_erase (it : It D) (w : OnTickSimple D) :
    Recruited (staffed (it.before ++ it.after)) [] w (erase it w) :=
  show Recruited (staff (erase it w)) [] w (erase it w) from
  recruited_of_eq
    ((requests_note (.left it.job.id w.factory)
      { w with jobList := it.before ++ it.after }).trans
      (List.append_nil _)) rfl rfl

/-- Each turn of the start-up loop lists a job with a downloader, or none. -/
theorem startUp_jobs : ∀ {n : Nat} {w : OnTickSimple D},
    (∀ job ∈ w.jobList, job.downloader ≠ none) →
    (∀ job ∈ (startUp n w).jobList, job.downloader ≠ none) ∧
      (startUp n w).jobList.length ≤ w.jobList.length + n
  | 0, w, h => ⟨h, Nat.le_refl _⟩
  | n + 1, w, h => by
      unfold startUp
      split
      · exact ⟨h, Nat.le_add_right _ _⟩
      · next task tasks _ =>
          simp only []
          split
          · obtain ⟨hrunning, hlength⟩ := startUp_jobs (n := n)
              (w := note (.rejected (offer task tasks w).1.id)
                (offer task tasks w).2) (by rw [offer_eq]; exact h)
            refine ⟨hrunning, Nat.le_trans hlength ?_⟩
            rw [offer_eq]
            exact Nat.add_le_add_left (Nat.le_succ n) _
          · next hsome =>
              obtain ⟨hrunning, hlength⟩ := startUp_jobs (n := n)
                (w := { (offer task tasks w).2 with
                  jobList := (offer task tasks w).2.jobList ++
                    [(offer task tasks w).1] }) (by
                  intro job hjob
                  rcases List.mem_append.mp hjob with hjob | hjob
                  · rw [offer_eq] at hjob
                    exact h job hjob
                  · obtain rfl := List.mem_singleton.mp hjob
                    exact fun hnone => hsome
                      (Option.isNone_iff_eq_none.mpr hnone))
              refine ⟨hrunning, Nat.le_trans hlength (Nat.le_of_eq ?_)⟩
              rw [offer_eq]
              simp only [List.length_append, List.length_singleton]
              omega

/-- The job is erased, and the next task gets one. -/
theorem recruited_nextTask (it : It D) (w : OnTickSimple D) :
    ∃ asked, Recruited (staffed (it.before ++ it.after)) asked w
      (nextTask it w) := by
  have herase := recruited_erase it w
  unfold nextTask
  simp only []
  split
  · exact ⟨[], herase⟩
  · obtain ⟨asked, hrest⟩ :=
      recruited_nextTaskLoop (erase it w).taskList (erase it w)
    exact ⟨_, herase.trans hrest⟩

theorem staffed_middle (before after : List (Job D)) (job : Job D) :
    (staffed (before ++ job :: after)).Perm
      (staffed (before ++ after) ++ job.downloader.toList) := by
  have hmid : (before ++ job :: after).Perm ((before ++ after) ++ [job]) :=
    List.perm_middle.trans (List.perm_append_singleton _ _).symm
  refine (hmid.filterMap Job.downloader).trans (.of_eq ?_)
  refine (List.filterMap_append ..).trans (congrArg _ ?_)
  cases h : job.downloader <;> simp [h]

/-- A call of `create` for a job that is listed. -/
theorem recruited_store (id : Nat) (uri fname : String) (w : OnTickSimple D)
    (it : It D) (h : it.job.downloader = w.creation.downloader) :
    Recruited (staffed (it.before ++ it.after)) [⟨id, uri, fname⟩] w
      (store it (create id uri fname w).2) := by
  have hkept : (staff (store it (create id uri fname w).2)).Perm
      (staffed (it.before ++ it.after) ++ w.creation.downloader.toList) :=
    h ▸ staffed_middle it.before it.after it.job
  exact recruited_create hkept rfl rfl rfl

/-- The job gets another downloader, or none and is erased. -/
theorem recruited_redirect (it : It D) (uri : String) (w : OnTickSimple D) :
    ∃ asked, Recruited (staffed (it.before ++ it.after)) asked w
      (redirect it uri w) := by
  unfold redirect
  simp only []
  split
  · obtain ⟨asked, hrest⟩ := recruited_nextTask
      { it with job.redirectCount := it.job.redirectCount + 1 }
      (update it.job.id
        { state := .failed, stateStr := "Maximum count redirect" }
        (store { it with job.redirectCount := it.job.redirectCount + 1 } w))
    exact ⟨asked, hrest.requests, hrest.creations, hrest.staff,
      hrest.counted.trans (counted_update _ (by decide) _)⟩
  · split
    · obtain ⟨it₁, hit₁⟩ : ∃ it₁ : It D, it₁ =
          { it with job.redirectCount := it.job.redirectCount + 1 } := ⟨_, rfl⟩
      obtain ⟨it₂, hit₂⟩ : ∃ it₂ : It D, it₂ =
          { it₁ with job.downloader := w.creation.downloader } := ⟨_, rfl⟩
      have hone : Recruited (staffed (it.before ++ it.after))
          [⟨it.job.id, uri, it.job.fname⟩] w
          (store it₂ (create it.job.id uri it.job.fname (store it₁ w)).2) := by
        subst hit₂ hit₁
        have h := recruited_store it.job.id uri it.job.fname
          (store { it with job.redirectCount := it.job.redirectCount + 1 } w)
          { it with
            job.redirectCount := it.job.redirectCount + 1
            job.downloader := w.creation.downloader } rfl
        exact ⟨h.requests, h.creations, h.staff, h.counted⟩
      subst hit₂ hit₁
      split
      · next hnone =>
          obtain ⟨asked, hrest⟩ := recruited_nextTask
            { it with
              job.redirectCount := it.job.redirectCount + 1
              job.downloader := w.creation.downloader }
            (store
              { it with
                job.redirectCount := it.job.redirectCount + 1
                job.downloader := w.creation.downloader }
              (create it.job.id uri it.job.fname (store
                { it with
                  job.redirectCount := it.job.redirectCount + 1 } w)).2)
          have hnone' : w.creation.downloader = none :=
            Option.isNone_iff_eq_none.mp hnone
          refine ⟨_, hone.trans (hrest.perm ?_)⟩
          have hmid := staffed_middle it.before it.after
            { it.job with
              redirectCount := it.job.redirectCount + 1
              downloader := w.creation.downloader }
          rw [hnone'] at hmid ⊢
          rw [Option.toList_none, List.append_nil] at hmid
          exact hmid.symm
      · exact ⟨_, hone⟩
    · have herase := recruited_erase
        { it with job.redirectCount := it.job.redirectCount + 1 }
        (store { it with job.redirectCount := it.job.redirectCount + 1 } w)
      exact ⟨[], herase.requests, herase.creations, herase.staff,
        herase.counted⟩

variable [DecidableEq D] {downloader : D} {status : StatusDownloader}

theorem staff_perm (h : findJob downloader w.jobList = .ok it) :
    (staff w).Perm (downloader :: staffed (it.before ++ it.after)) := by
  obtain ⟨hl, hjob⟩ := findJob_ok h
  unfold staff
  rw [hl]
  have hmid := staffed_middle it.before it.after it.job
  rw [hjob] at hmid
  exact hmid.trans (List.perm_append_singleton _ _)

omit [DecidableEq D] in
theorem mem_staff : downloader ∈ staff w ↔
    ∃ job ∈ w.jobList, job.downloader = some downloader :=
  List.mem_filterMap

/-- A tick of a download that goes on is shown, and that is all. -/
theorem invoke_underway (h : findJob downloader w.jobList = .ok it)
    (hfinal : status.state.final = false) :
    invoke downloader status w = (none, update it.job.id status w) := by
  unfold invoke
  rw [h]
  cases hs : status.state with
  | init | onTheGo => simp only []
  | done | failed | redirect => rw [hs] at hfinal; cases hfinal

theorem recruited_invoke (h : findJob downloader w.jobList = .ok it)
    (hfinal : status.state.final = true) :
    ∃ asked, Recruited (staffed (it.before ++ it.after)) asked
      (update it.job.id status w) (invoke downloader status w).2 := by
  unfold invoke
  rw [h]
  cases hs : status.state with
  | done | failed =>
      simp only []
      exact recruited_nextTask it (update it.job.id status w)
  | redirect =>
      simp only []
      exact recruited_redirect it status.redirectUri
        (update it.job.id status w)
  | init | onTheGo => rw [hs] at hfinal; cases hfinal

/-- The first job ends, and the factory is gone. -/
theorem invoke_first {job : Job D} {jobs : List (Job D)}
    (hl : w.jobList = job :: jobs) (hd : job.downloader = some downloader)
    (hfactory : w.factory = false) (hstate : status.state = .failed) :
    invoke downloader status w =
      (none, erase ⟨[], job, jobs⟩ (update job.id status w)) := by
  have hfind : findJob downloader w.jobList = .ok ⟨[], job, jobs⟩ := by
    rw [hl]
    exact if_pos hd
  unfold invoke
  simp only [hfind, hstate]
  unfold nextTask
  have hgone : (erase ⟨[], job, jobs⟩ (update job.id status w)).factory =
      false := hfactory
  simp only [hgone, Bool.not_false, if_true]

/-- No job is left without a downloader. -/
theorem running_invoke (downloader : D) (status : StatusDownloader)
    (h : ∀ job ∈ w.jobList, job.downloader ≠ none) :
    ∀ job ∈ (invoke downloader status w).2.jobList,
      job.downloader ≠ none := by
  rcases listed_or downloader w with ⟨it, hit⟩ | hno
  · obtain ⟨hl, -⟩ := findJob_ok hit
    obtain ⟨-, hticked⟩ := invoke_ticked status hit
    obtain ⟨own, appended, hconfined⟩ := hticked.confined
    have hmade : ∀ job : Job D, Made w job → job.downloader ≠ none :=
      fun job hmade hnone => by
        rw [Made, hnone] at hmade
        exact absurd hmade.1 Bool.false_ne_true
    rw [hl] at h
    intro job hjob
    rw [hconfined.list] at hjob
    rcases List.mem_append.mp hjob with hjob | hjob
    · rcases List.mem_append.mp hjob with hjob | hjob
      · rcases List.mem_append.mp hjob with hjob | hjob
        · exact h job (List.mem_append_left _ hjob)
        · rcases (hconfined.own job hjob).2.2 with heq | hm
          · rw [heq]
            exact h it.job (List.mem_append_right _ List.mem_cons_self)
          · exact hmade job hm
      · exact h job (List.mem_append_right _ (List.mem_cons_of_mem _ hjob))
    · exact hmade job (hconfined.appended job hjob).2
  · rw [invoke_unknown status hno]
    exact h

end OnTickSimple

end EcwidDownloader
