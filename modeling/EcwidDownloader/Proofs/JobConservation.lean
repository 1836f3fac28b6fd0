import EcwidDownloader.Proofs.JobAccounting

/-!
# No download is lost

The list of jobs under every sequence of ticks. The books of the jobs give the
ids and the numbers; the downloaders stay apart because a tick brings at most
one new one, in the place of a job that has gone or of the downloader that has
just ticked.
-/

namespace EcwidDownloader

open Lib

namespace OnTickSimple

variable {D : Type}

/-- The jobs of the list have distinct ids and distinct downloaders. -/
structure Listed (w : OnTickSimple D) : Prop where
  ids : (w.jobList.map Job.id).Nodup
  downloaders : (w.jobList.map Job.downloader).Nodup
  running : ∀ job ∈ w.jobList, job.downloader ≠ none

/-- A list of jobs to begin with, their ids given out by `generate_id`. -/
structure Opened (w : OnTickSimple D) : Prop where
  listed : Listed w
  numbered : ∀ job ∈ w.jobList, job.id < w.nextId
  notes : w.notes = []
  dashboard : w.dashboard = []

/-- What holds in every state: the list is in order and has not grown, every
task taken is listed or has ended, and every task that has ended with the
factory still there was shown as done or failed exactly once. -/
structure Conserved (w₀ w : OnTickSimple D) : Prop where
  listed : Listed w
  bounded : w.jobList.length ≤ w₀.jobList.length
  accounted : w₀.jobList.length + w.notes.countP Note.isTook =
    w.jobList.length + (w.notes.filterMap Note.ended).length
  reported : ∀ id ∈ w.notes.filterMap Note.owed,
    (w.dashboard.filterMap verdictOf).count id = 1

/-- What a call of `invoke` does. The list does not grow, and shrinks with the
factory there at the end of the task list only. Without the factory no task is
taken and jobs are only removed. A call for a listed downloader touches its own
job and the one it appends, any other call throws and changes nothing. -/
structure Careful (downloader : D) (w : OnTickSimple D)
    (r : Option String × OnTickSimple D) : Prop where
  factory : r.2.factory = w.factory
  length : r.2.jobList.length ≤ w.jobList.length
  shrinks : w.factory = true → r.2.jobList.length < w.jobList.length →
    r.2.taskList = [] ∧ r.2.notes.getLast? = some .exhausted
  gone : w.factory = false → r.2.taskList = w.taskList ∧
    r.2.notes.countP Note.isTook = w.notes.countP Note.isTook ∧
    r.2.jobList.Sublist w.jobList
  own : (∃ job ∈ w.jobList, job.downloader = some downloader) →
    r.1 = none ∧ ∃ before job after own appended,
      w.jobList = before ++ job :: after ∧ job.downloader = some downloader ∧
      r.2.jobList = before ++ own ++ after ++ appended ∧
      own.length + appended.length ≤ 1 ∧
      (∀ job' ∈ own, job'.id = job.id ∧ job'.fname = job.fname) ∧
      ∀ job' ∈ appended, w.nextId ≤ job'.id
  unknown : (∀ job ∈ w.jobList, job.downloader ≠ some downloader) →
    r = (some "OnTickSimple => invalid Downloader", w)

section

variable {it : It D} {w w' : OnTickSimple D} {own appended : List (Job D)}

/-- The list after a tick, up to its order. -/
theorem Confined.perm (h : Confined it w w' own appended) :
    w'.jobList.Perm ((own ++ appended) ++ (it.before ++ it.after)) := by
  rw [h.list]
  have hfront : (it.before ++ own ++ it.after).Perm
      (own ++ (it.before ++ it.after)) := by
    rw [← List.append_assoc]
    exact List.perm_append_comm.append_right it.after
  refine (hfront.append_right appended).trans ?_
  rw [List.append_assoc own, List.append_assoc own]
  exact List.perm_append_comm.append_left own

theorem Confined.length_le (h : Confined it w w' own appended)
    (hl : w.jobList = it.before ++ it.job :: it.after) :
    w'.jobList.length ≤ w.jobList.length := by
  have hlen := h.perm.length_eq
  have hone := h.one
  rw [hlen, hl]
  simp only [List.length_append, List.length_cons]
  omega

/-- The downloader of a job that is new in the list is not that of another. -/
theorem Confined.fresh [DecidableEq D] {downloader : D} {job : Job D}
    (h : Confined it w w' own appended)
    (hl : w.jobList = it.before ++ it.job :: it.after)
    (hlisted : Listed w) (hfresh : Fresh w.creations downloader w)
    (hjob : job ∈ own ++ appended) :
    job.downloader ≠ none ∧
      job.downloader ∉ (it.before ++ it.after).map Job.downloader := by
  have hmade : Made w job → job.downloader ≠ none ∧
      job.downloader ∉ (it.before ++ it.after).map Job.downloader := by
    rintro ⟨hsome, c, hc, heq⟩
    refine ⟨Option.isSome_iff_ne_none.mp hsome, fun hmem => ?_⟩
    obtain ⟨other, hother, hsame⟩ := List.mem_map.mp hmem
    have hin : other ∈ w.jobList := (sublist_of_list hl).subset hother
    exact (hfresh c hc).2 other hin (heq ▸ hsome) (heq.trans hsame.symm)
  rcases List.mem_append.mp hjob with hown | happ
  · rcases (h.own job hown).2.2 with hsame | hnew
    · rw [hsame]
      have hnodup := hlisted.downloaders
      rw [hl, List.map_append, List.map_cons] at hnodup
      refine ⟨hlisted.running _ (hl ▸ List.mem_append_right _
        List.mem_cons_self), ?_⟩
      rw [List.map_append]
      exact (List.nodup_cons.mp
        (List.perm_middle.nodup_iff.mp hnodup)).1
    · exact hmade hnew
  · exact hmade (h.appended job happ).2

/-- A tick keeps the downloaders apart. -/
theorem Confined.downloaders [DecidableEq D] {downloader : D}
    (h : Confined it w w' own appended)
    (hl : w.jobList = it.before ++ it.job :: it.after) (hlisted : Listed w)
    (hfresh : Fresh w.creations downloader w) :
    (w'.jobList.map Job.downloader).Nodup ∧
      ∀ job ∈ w'.jobList, job.downloader ≠ none := by
  have hrest : ((it.before ++ it.after).map Job.downloader).Nodup :=
    hlisted.downloaders.sublist ((sublist_of_list hl).map _)
  have hone : (own ++ appended).length ≤ 1 := by
    rw [List.length_append]
    exact h.one
  constructor
  · refine (h.perm.map Job.downloader).nodup_iff.mpr ?_
    rw [List.map_append]
    match hnew : own ++ appended, hone with
    | [], _ => exact hrest
    | [job], _ =>
        have hf := h.fresh hl hlisted hfresh (hnew ▸ List.mem_singleton_self _)
        exact List.nodup_cons.mpr ⟨hf.2, hrest⟩
  · intro job hmem
    rcases List.mem_append.mp (h.perm.mem_iff.mp hmem) with hnew | hold
    · exact (h.fresh hl hlisted hfresh hnew).1
    · exact hlisted.running job ((sublist_of_list hl).subset hold)

end

/-! ## The invariant -/

/-- The books are balanced, the downloaders are apart, and the list has not
grown. -/
structure Kept (w₀ w : OnTickSimple D) : Prop where
  balanced : (ledger w).Balanced w₀.jobList.length
  downloaders : (w.jobList.map Job.downloader).Nodup
  running : ∀ job ∈ w.jobList, job.downloader ≠ none
  bounded : w.jobList.length ≤ w₀.jobList.length

variable {w₀ w w' : OnTickSimple D}

theorem Kept.listed (h : Kept w₀ w) : Listed w :=
  ⟨h.balanced.nodup.sublist (List.sublist_append_left _ _), h.downloaders,
    h.running⟩

theorem Kept.conserved (h : Kept w₀ w) : Conserved w₀ w where
  listed := h.listed
  bounded := h.bounded
  accounted := by
    have hcount := h.balanced.count
    rw [show (ledger w).running.length = w.jobList.length from
      List.length_map Job.id] at hcount
    exact hcount
  reported _ hid := h.balanced.count_verdicts hid

theorem Opened.kept (h : Opened w₀) : Kept w₀ w₀ where
  balanced := by
    have hledger : ledger w₀ =
        { next := w₀.nextId, running := w₀.jobList.map Job.id } := by
      unfold ledger
      rw [h.notes, h.dashboard]
      rfl
    rw [hledger]
    refine ⟨?_, ?_, ?_, List.nodup_nil, nofun, nofun⟩
    · rw [List.append_nil]
      exact h.listed.ids
    · intro id hid
      rw [List.append_nil] at hid
      obtain ⟨job, hjob, rfl⟩ := List.mem_map.mp hid
      exact h.numbered job hjob
    · show _ = (w₀.jobList.map Job.id).length + 0
      rw [List.length_map]
  downloaders := h.listed.downloaders
  running := h.listed.running
  bounded := Nat.le_refl _

variable [DecidableEq D]

/-- A downloader is listed or it is not. -/
theorem listed_or (downloader : D) (w : OnTickSimple D) :
    (∃ it, findJob downloader w.jobList = .ok it) ∨
      ∀ job ∈ w.jobList, job.downloader ≠ some downloader := by
  by_cases h : ∃ job ∈ w.jobList, job.downloader = some downloader
  · exact .inl (findJob_of_mem h)
  · exact .inr fun job hjob hd => h ⟨job, hjob, hd⟩

theorem Kept.invoke {downloader : D} (h : Kept w₀ w)
    (status : StatusDownloader) (hfresh : Fresh w.creations downloader w) :
    Kept w₀ (invoke downloader status w).2 := by
  rcases listed_or downloader w with ⟨it, hit⟩ | hunknown
  · obtain ⟨-, ht⟩ := invoke_ticked status hit
    obtain ⟨hl, -⟩ := findJob_ok hit
    obtain ⟨own, appended, hconf⟩ := ht.confined
    obtain ⟨hd, hr⟩ := hconf.downloaders hl h.listed hfresh
    exact ⟨h.balanced.steps ht.steps, hd, hr,
      Nat.le_trans (hconf.length_le hl) h.bounded⟩
  · rw [invoke_unknown status hunknown]
    exact h

/-- A callback with the creations it finds. -/
theorem step_invoke {downloader : D} {status : StatusDownloader}
    {creations : List (Creation D)}
    (hs : Lib.Graph step w (.invoke downloader status creations) w') :
    Fresh creations downloader w ∧
      w' = (invoke downloader status { w with creations := creations }).2 := by
  unfold Lib.Graph OnTickSimple.step at hs
  simp only [Option.ite_none_right_eq_some, Option.some.injEq] at hs
  exact ⟨hs.1, hs.2.symm⟩

theorem Kept.step {e : Event D} (h : Kept w₀ w) (hs : Lib.Graph step w e w') :
    Kept w₀ w' := by
  cases e with
  | invoke downloader status creations =>
      obtain ⟨hfresh, rfl⟩ := step_invoke hs
      have hfound : Kept w₀ { w with creations := creations } :=
        ⟨h.balanced, h.downloaders, h.running, h.bounded⟩
      exact hfound.invoke status hfresh
  | expire =>
      cases hs
      exact ⟨h.balanced, h.downloaders, h.running, h.bounded⟩

theorem invoke_careful (downloader : D) (status : StatusDownloader)
    (w : OnTickSimple D) :
    Careful downloader w (invoke downloader status w) := by
  rcases listed_or downloader w with ⟨it, hit⟩ | hunknown
  · obtain ⟨hnone, ht⟩ := invoke_ticked status hit
    obtain ⟨hl, hd⟩ := findJob_ok hit
    obtain ⟨own, appended, hconf⟩ := ht.confined
    refine ⟨ht.factory, hconf.length_le hl, ht.shrinks, ht.gone, fun _ => ?_,
      fun hunknown => ?_⟩
    · exact ⟨hnone, it.before, it.job, it.after, own, appended, hl, hd,
        hconf.list, hconf.one,
        fun job hjob => ⟨(hconf.own job hjob).1, (hconf.own job hjob).2.1⟩,
        fun job hjob => (hconf.appended job hjob).1⟩
    · exact absurd hd (hunknown it.job
        (hl ▸ List.mem_append_right _ List.mem_cons_self))
  · rw [invoke_unknown status hunknown]
    exact ⟨rfl, Nat.le_refl _, fun _ hlt => absurd hlt (Nat.lt_irrefl _),
      fun _ => ⟨rfl, rfl, List.Sublist.refl _⟩,
      fun ⟨job, hjob, hd⟩ => absurd hd (hunknown job hjob), fun _ => rfl⟩

/-- Jobs are conserved: whatever downloaders tick, in whatever order and with
whatever status, the books of the jobs are in order in every state, and every
call keeps to its own job. -/
theorem jobs_conserved {hist : List (OnTickSimple D × Event D)}
    (h₀ : Opened w₀) (hr : Runs w₀ hist w) :
    (∀ x, Passes hist w x → Conserved w₀ x) ∧
      ∀ (x : OnTickSimple D) (downloader : D) (status : StatusDownloader),
        Careful downloader x (OnTickSimple.invoke downloader status x) := by
  refine ⟨fun x hx => ?_, fun x downloader status =>
    invoke_careful downloader status x⟩
  refine hr.always (C := fun _ _ => True) (fun _ _ => trivial)
    (fun hr' _ => ?_) hx
  exact (hr'.invariant' (Kept w₀) h₀.kept
    fun w₁ e w₂ hI hs => hI.step hs).conserved

/-- Two jobs, a task that cannot be created and one that can. -/
def twoJobs : OnTickSimple Nat :=
  { jobList :=
      [{ id := 1, fname := "a", downloader := some 1 },
        { id := 2, fname := "b", downloader := some 2 }]
    taskList := [⟨"bad", "c"⟩, ⟨"http://www.internet.org/", "d"⟩]
    nextId := 3 }

/-- The second job is done, and the first redirected when all tasks are
taken. -/
def twoTicks : List (Event Nat) :=
  [.invoke 2 { state := .done }
      [.null, .made 3],
    .invoke 1 { state := .redirect, redirectUri := "http://i.org/" } [.null]]

theorem jobs_conserved_twoJobs : ∃ hist w, Runs twoJobs hist w ∧
    w.jobList.map Job.id = [4] ∧ Conserved twoJobs w := by
  obtain ⟨hist, w, hexec, hids⟩ : ∃ hist w,
      exec step twoJobs twoTicks = some (hist, w) ∧
        w.jobList.map Job.id = [4] :=
    ⟨_, _, rfl, rfl⟩
  refine ⟨hist, w, run_of_exec hexec, hids, ?_⟩
  refine (jobs_conserved ⟨⟨?_, ?_, ?_⟩, ?_, rfl, rfl⟩
    (run_of_exec hexec)).1 w .last
  · decide
  · decide
  · decide
  · decide

end OnTickSimple

end EcwidDownloader
