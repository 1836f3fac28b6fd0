import EcwidDownloader.Proofs.FinalReport
import EcwidDownloader.Proofs.ProgramRuns

/-!
# What holds in every state of the program

The first result takes a run of the program apart: there is a run of the list of
jobs in it, and a run of every downloader, from the `run` that the request it
was made for has given it. So what is known of the list alone and of a downloader
alone, whatever its surroundings do, holds in the program.

The others are about the two together. The jobs are the downloads that go on,
each once. An exception leaves the loop exactly when some downloader calls
`invoke` after it has told its end, which the conditions of an orderly download
exclude.
-/

namespace EcwidDownloader

open Lib

namespace Program

variable {S P : Type} [TCPSocket S] [HttpParser P]

/-- What a downloader does in the program: events that meet the condition, and no
stop but while its download goes on. -/
def StepUnder
    (C : DownloaderSimple.World S P → DownloaderSimple.Occurrence S → Prop)
    (w : DownloaderSimple.World S P) (o : DownloaderSimple.Occurrence S)
    (w' : DownloaderSimple.World S P) : Prop :=
  Lib.Graph DownloaderSimple.step w o w' ∧ C w o ∧
    (o.event = .stop → DownloaderSimple.Going w)

variable {C : DownloaderSimple.World S P → DownloaderSimple.Occurrence S → Prop}
  {concurrency : Nat} {tasks : TaskList} {born : List (Birth S)}
  {p₀ p : Program S P} {hist : List (Program S P × Event S)}

/-- The parts of a state of the program, each reached on its own. -/
structure Parts (C : DownloaderSimple.World S P →
    DownloaderSimple.Occurrence S → Prop) (jobs₀ : OnTickSimple Nat)
    (p : Program S P) : Prop where
  jobs : ∃ jobs, OnTickSimple.Runs jobs₀ jobs p.onTick
  downloaders : ∃ bs : List (Birth S),
    p.onTick.requests = bs.map Birth.request ∧
      Reached (StepUnder C) (Birth.world P) bs p.downloaders

theorem Parts.cleared {jobs₀ : OnTickSimple Nat} {p p' : Program S P}
    (h : Parts C jobs₀ p) (hc : Cleared p p') : Parts C jobs₀ p' := by
  obtain ⟨jobs, hjobs⟩ := h.jobs
  obtain ⟨⟨factory, watching, idle, rfl⟩, more, hmore⟩ := hc
  exact ⟨⟨_, hjobs.append hmore⟩, h.downloaders⟩

theorem Parts.turn {jobs₀ : OnTickSimple Nat} {p p' : Program S P}
    {e : Nat × DownloaderSimple.Occurrence S} (hp : Staffed p)
    (h : Parts C jobs₀ p) (ht : Turn C p e p') : Parts C jobs₀ p' := by
  obtain ⟨w, w', ts, hu, hw, hs, hc, hstop, hm⟩ := ht
  have hturned := hp.moved hu hw hs hstop hm
  obtain ⟨jobs, hjobs⟩ := h.jobs
  obtain ⟨bs, hasked, hreached⟩ := h.downloaders
  obtain ⟨more, hmore⟩ := hturned.jobs
  obtain ⟨bs', hasked', hxs⟩ := hturned.births
  refine ⟨⟨_, hjobs.append hmore⟩, bs ++ bs', ?_, ?_⟩
  · rw [hasked', hasked, List.map_append]
  · rw [hxs]
    exact (hreached.move hw ⟨hs, hc, hstop⟩).spawn bs'

omit [TCPSocket S] [HttpParser P] in
theorem meeting_any (hist : List (Program S P × Event S)) :
    Meets (Meeting fun _ _ => True) hist := by
  rintro ⟨p, e⟩ -
  cases e with
  | downloader number o ts => exact fun w _ => trivial
  | interrupt stops => exact fun pair _ number _ w _ => trivial
  | idle => trivial

theorem parts_of_runs (h₀ : launch concurrency tasks born = some p₀)
    (hr : Runs p₀ hist p) (hC : Meets (Meeting C) hist) :
    Parts C (OnTickSimple.mainJobs concurrency tasks
      (Birth.creations P 0 born)) p := by
  have hstaffed := launch_staffed h₀
  obtain ⟨rfl, hasked⟩ := launch_some h₀
  refine (hstaffed.always hr hC ⟨⟨[], .nil⟩, born, hasked, ?_⟩
    (fun hc h => h.cleared hc) fun hp h ht => h.turn hp ht).2
  exact Reached.starts born

/-- A run of the program is a run of its list of jobs, and one of every downloader
from the request it was made for. -/
theorem program_parts (h₀ : launch concurrency tasks born = some p₀)
    (hr : Runs p₀ hist p) (hC : Meets (Meeting C) hist) :
    ∀ x, Passes hist p x →
      Parts C (OnTickSimple.mainJobs concurrency tasks
        (Birth.creations P 0 born)) x := by
  intro x hx
  refine hr.always hC ?_ hx
  intro hist' x hr' hC'
  exact parts_of_runs h₀ hr' hC'

/-- A page that is to be had, if there is a socket for it. -/
def page (id : Nat) (fname : String) (tcp : Bool) :
    Birth TCPSocketBandwidth where
  request := ⟨id, "http://www.internet.org/", fname⟩
  sock := TCPSocketBandwidth.create id
  resources := { tcp := tcp }

def threePages : TaskList :=
  ["a", "b", "c"].map fun fname => ⟨"http://www.internet.org/", fname⟩

/-- Two of them at once. -/
def atFirst : List (Birth TCPSocketBandwidth) :=
  [page 1 "a" true, page 2 "b" true]

/-- The host of the second is resolved, the first is received, and the third is
refused. -/
def inTurn : List (Cue TCPSocketBandwidth) :=
  ⟨1, DownloaderSimple.plainly (.resolver (.ok {})), []⟩ ::
    (DownloaderSimple.openFirst.dropLast.map fun o => ⟨0, o, []⟩) ++
    [⟨0, DownloaderSimple.plainly (.file 0 (.ok 0)), [page 3 "c" false]⟩]

abbrev Site :=
  Program TCPSocketBandwidth
    (DownloaderSimple.Scripted DownloaderSimple.oneSegment)

theorem program_parts_inTurn : ∃ (p₀ p : Site) (hist : _),
    Runs p₀ hist p ∧ p.onTick.jobList.map Job.id = [2] ∧
      p.downloaders.length = 3 ∧
      Parts (fun _ _ => True) p₀.onTick p := by
  obtain ⟨p₀, hist, p, hlaunch, hexec, hjobs, hmade⟩ : ∃ (p₀ : Site)
      (hist : _) (p : _), launch 2 threePages atFirst = some p₀ ∧
        exec step p₀ (plays p₀ inTurn) = some (hist, p) ∧
        p.onTick.jobList.map Job.id = [2] ∧ p.downloaders.length = 3 :=
    ⟨_, _, _, rfl, rfl, rfl, rfl⟩
  have hparts := program_parts hlaunch (run_of_exec hexec) (meeting_any hist)
    p .last
  refine ⟨p₀, p, hist, run_of_exec hexec, hjobs, hmade, ?_⟩
  rw [congrArg Program.onTick (launch_some hlaunch).1]
  exact hparts

/-! ## The jobs -/

omit [TCPSocket S] [HttpParser P] in
/-- The list does not grow. -/
theorem jobs_length {w₀ w : OnTickSimple Nat}
    {jobs : List (OnTickSimple Nat × OnTickSimple.Event Nat)}
    (hr : OnTickSimple.Runs w₀ jobs w) :
    w.jobList.length ≤ w₀.jobList.length := by
  refine hr.invariant' (fun w => w.jobList.length ≤ w₀.jobList.length)
    (Nat.le_refl _) fun w e w' h hs => ?_
  cases e with
  | invoke downloader status creations =>
      obtain ⟨-, rfl⟩ := OnTickSimple.step_invoke hs
      exact Nat.le_trans (OnTickSimple.invoke_careful downloader status
        { w with creations := creations }).length h
  | expire =>
      cases hs
      exact h

/-- The jobs are the downloads that go on, each of them once, and there are no
more than were asked for. -/
structure Employs (concurrency : Nat) (p : Program S P) : Prop where
  downloads : ∀ number,
    (∃ job ∈ p.onTick.jobList, job.downloader = some number) ↔
      ∃ w, p.downloaders[number]? = some w ∧ DownloaderSimple.Going w
  once : (p.onTick.jobList.map Job.downloader).Nodup
  running : ∀ job ∈ p.onTick.jobList, job.downloader ≠ none
  bounded : p.onTick.jobList.length ≤ concurrency

theorem employs_of_runs (h₀ : launch concurrency tasks born = some p₀)
    (hr : Runs p₀ hist p) : Employs concurrency p := by
  have hC := meeting_any hist
  have hstaffed := ((launch_staffed h₀).always hr hC (I := fun _ => True)
    trivial (fun _ _ => trivial) fun _ _ _ => trivial).1
  obtain ⟨jobs, hjobs⟩ := (parts_of_runs h₀ hr hC).jobs
  refine ⟨fun number => ?_, jobs_nodup hstaffed.nodup hstaffed.running,
    hstaffed.running, Nat.le_trans (jobs_length hjobs) ?_⟩
  · rw [← OnTickSimple.mem_staff]
    exact hstaffed.staff number
  · have hlength := (OnTickSimple.startUp_jobs (D := Nat) (n := concurrency)
      (w := { taskList := tasks, creations := Birth.creations P 0 born })
      fun job hjob => absurd hjob List.not_mem_nil).2
    rw [List.length_nil, Nat.zero_add] at hlength
    exact hlength

/-- That is so in every state of the program. -/
theorem jobs_are_downloads (h₀ : launch concurrency tasks born = some p₀)
    (hr : Runs p₀ hist p) : ∀ x, Passes hist p x → Employs concurrency x := by
  intro x hx
  refine hr.always (meeting_any hist) ?_ hx
  intro hist' x hr' _
  exact employs_of_runs h₀ hr'

theorem jobs_are_downloads_inTurn : ∃ (p₀ p : Site) (hist : _),
    Runs p₀ hist p ∧ p.onTick.jobList.map Job.downloader = [some 1] ∧
      ∀ x, Passes hist p x → Employs 2 x := by
  obtain ⟨p₀, hist, p, hlaunch, hexec, hjobs⟩ : ∃ (p₀ : Site) (hist : _)
      (p : _), launch 2 threePages atFirst = some p₀ ∧
        exec step p₀ (plays p₀ inTurn) = some (hist, p) ∧
        p.onTick.jobList.map Job.downloader = [some 1] :=
    ⟨_, _, _, rfl, rfl, rfl⟩
  exact ⟨p₀, p, hist, run_of_exec hexec, hjobs,
    jobs_are_downloads hlaunch (run_of_exec hexec)⟩

/-! ## Exceptions -/

/-- A downloader has called `invoke` after it told its end. -/
def CalledLate (trace : List Mark) : Prop :=
  ∃ before r after r', trace = before ++ .invoked r :: after ∧
    r.final = true ∧ .invoked r' ∈ after

theorem calledLate_cons {m : Mark} {ms : List Mark} :
    CalledLate (m :: ms) ↔ CalledLate ms ∨
      m.reportsFinal = true ∧ ∃ r', .invoked r' ∈ ms := by
  constructor
  · rintro ⟨before, r, after, r', heq, hfinal, hmem⟩
    cases before with
    | nil =>
        cases heq
        exact .inr ⟨hfinal, r', hmem⟩
    | cons m' before =>
        cases heq
        exact .inl ⟨before, r, after, r', rfl, hfinal, hmem⟩
  · rintro (⟨before, r, after, r', rfl, hfinal, hmem⟩ | ⟨hfinal, r', hmem⟩)
    · exact ⟨m :: before, r, after, r', rfl, hfinal, hmem⟩
    · cases m with
      | assigned r => cases hfinal
      | invoked r => exact ⟨[], r, ms, r', rfl, hfinal, hmem⟩

theorem late_or (told : Bool) (finals : List Bool) :
    late told finals = (late false finals || told && !finals.isEmpty) := by
  cases told with
  | false => rw [Bool.false_and, Bool.or_false]
  | true =>
      rw [late_of_told, Bool.true_and]
      cases finals with
      | nil => rfl
      | cons final finals => simp

theorem late_calls (trace : List Mark) :
    late false ((trace.filterMap called).map Report.final) = true ↔
      CalledLate trace := by
  induction trace with
  | nil =>
      refine iff_of_false nofun ?_
      rintro ⟨before, r, after, r', heq, -⟩
      cases before <;> cases heq
  | cons m ms ih =>
      rw [calledLate_cons, ← ih]
      cases m with
      | assigned r =>
          rw [List.filterMap_cons_none rfl]
          exact (or_iff_left fun h => nomatch h.1).symm
      | invoked r =>
          have hhead : called (.invoked r) = some r := rfl
          have hempty : (ms.filterMap called).isEmpty = false ↔
              ∃ r', .invoked r' ∈ ms := by
            rw [List.isEmpty_eq_false_iff_exists_mem]
            constructor
            · rintro ⟨r', hr'⟩
              obtain ⟨m, hm, hcalled⟩ := List.mem_filterMap.mp hr'
              cases m with
              | assigned _ => cases hcalled
              | invoked _ => cases hcalled; exact ⟨r', hm⟩
            · rintro ⟨r', hr'⟩
              exact ⟨r', List.mem_filterMap.mpr ⟨_, hr', rfl⟩⟩
          rw [List.filterMap_cons_some hhead, List.map_cons, late,
            Bool.false_or, Bool.false_or, late_or, Bool.or_eq_true,
            Bool.and_eq_true, Bool.not_eq_true', List.isEmpty_map, hempty]
          rfl

section

variable {w w' : DownloaderSimple.World S P}
  {o : DownloaderSimple.Occurrence S} {p p' : Program S P}

/-- Whether a call comes too late is the same for the staff and for the reports:
one that was refused does not call. -/
theorem late_standing (h : DownloaderSimple.Standing w)
    (hs : Lib.Graph DownloaderSimple.step w o w')
    (hstop : o.event = .stop → DownloaderSimple.Going w) :
    late (!decide (DownloaderSimple.Going w))
        ((reports w w').map Report.final) =
      late (w.owner.trace.any Mark.reportsFinal)
        ((reports w w').map Report.final) := by
  by_cases hg : DownloaderSimple.Going w
  · rw [decide_eq_true hg, hg.2]
    rfl
  · rw [decide_eq_false hg]
    cases h with
    | alive _ ha => exact absurd ha.going hg
    | reported hr => rw [hr]; rfl
    | unstarted hrefused =>
        have hsilent := (hrefused.step (fun hev => hg (hstop hev)) hs).silent
        have hcalls := calls_append (DownloaderSimple.trace_step hs)
        have hnone : reports w w' = [] :=
          (List.append_eq_nil_iff.mp (hcalls.symm.trans hsilent)).2
        rw [hnone]
        rfl

/-- An exception was thrown exactly if some downloader has called late. -/
def ThrownIfLate (p : Program S P) : Prop :=
  p.uncaught.isSome = true ↔ ∃ w ∈ p.downloaders, CalledLate w.owner.trace

theorem ThrownIfLate.turn {e : Nat × DownloaderSimple.Occurrence S}
    (hp : Staffed p) (h : ThrownIfLate p) (ht : Turn C p e p') :
    ThrownIfLate p' := by
  obtain ⟨w, w', ts, hu, hw, hs, -, hstop, hm⟩ := ht
  have hturned := hp.moved hu hw hs hstop hm
  have hmem := List.mem_of_getElem? hw
  have hnone : ∀ x ∈ p.downloaders, ¬ CalledLate x.owner.trace :=
    fun x hx hlate => by
      have hsome := h.mpr ⟨x, hx, hlate⟩
      rw [hu] at hsome
      cases hsome
  have hthrown : p'.uncaught.isSome = true ↔ CalledLate w'.owner.trace := by
    have hcalls := calls_append (DownloaderSimple.trace_step hs)
    have hw₀ : late false ((calls w).map Report.final) = false :=
      Bool.eq_false_iff.mpr fun hl => hnone w hmem ((late_calls _).mp hl)
    rw [hturned.thrown, late_standing (hp.standing w hmem) hs hstop,
      ← late_calls]
    show _ ↔ late false ((calls w').map Report.final) = true
    rw [hcalls, List.map_append, late_append, any_calls, hw₀, Bool.false_or,
      Bool.false_or]
  obtain ⟨bs, -, hxs⟩ := hturned.births
  refine hthrown.trans ⟨fun hl => ⟨w', ?_, hl⟩, ?_⟩
  · rw [hxs]
    refine List.mem_append_left _ (List.mem_iff_getElem?.mpr ⟨e.1, ?_⟩)
    exact List.getElem?_set_self (List.getElem?_eq_some_iff.mp hw).1
  · rintro ⟨x, hx, hlate⟩
    rw [hxs] at hx
    rcases List.mem_append.mp hx with hx | hx
    · rcases mem_set hx with hx | rfl
      · exact absurd hlate (hnone x hx)
      · exact hlate
    · obtain ⟨b, -, rfl⟩ := List.mem_map.mp hx
      have hl := (late_calls _).mpr hlate
      have hcalls : ((b.world P).owner.trace.filterMap called) = [] :=
        calls_birth b
      rw [hcalls] at hl
      cases hl

end

theorem thrownIfLate_launch (h₀ : launch concurrency tasks born = some p₀) :
    ThrownIfLate p₀ := by
  obtain ⟨rfl, -⟩ := launch_some h₀
  refine iff_of_false nofun ?_
  rintro ⟨x, hx, hlate⟩
  obtain ⟨b, -, rfl⟩ := List.mem_map.mp hx
  have hl := (late_calls _).mpr hlate
  have hcalls : ((b.world P).owner.trace.filterMap called) = [] :=
    calls_birth b
  rw [hcalls] at hl
  cases hl

theorem thrownIfLate_of_runs (h₀ : launch concurrency tasks born = some p₀)
    (hr : Runs p₀ hist p) : ThrownIfLate p := by
  refine ((launch_staffed h₀).always hr (meeting_any hist)
    (thrownIfLate_launch h₀) ?_ fun hp h ht => h.turn hp ht).2
  rintro p p' ⟨⟨factory, watching, idle, rfl⟩, -⟩ h
  exact h

/-- An exception leaves the loop exactly when some downloader has called `invoke`
after a call that told its end. -/
theorem uncaught_iff_called_late
    (h₀ : launch concurrency tasks born = some p₀) (hr : Runs p₀ hist p) :
    ∀ x, Passes hist p x →
      (x.uncaught.isSome = true ↔
        ∃ w ∈ x.downloaders, CalledLate w.owner.trace) := by
  intro x hx
  refine hr.always (P := ThrownIfLate) (meeting_any hist) ?_ hx
  intro hist' x hr' _
  exact thrownIfLate_of_runs h₀ hr'

/-- The shutdown of the socket completes before the open of the file. -/
def outOfTurn : List (Cue TCPSocketBandwidth) :=
  DownloaderSimple.shutdownFirst.map fun o => ⟨0, o, []⟩

theorem uncaught_outOfTurn : ∃ (p₀ p : Site) (hist : _),
    Runs p₀ hist p ∧
      p.uncaught = some "OnTickSimple => invalid Downloader" ∧
      ∃ w ∈ p.downloaders, CalledLate w.owner.trace := by
  obtain ⟨p₀, hist, p, hlaunch, hexec, hthrown⟩ : ∃ (p₀ : Site) (hist : _)
      (p : _), launch 1 (threePages.take 1) [page 1 "a" true] = some p₀ ∧
        exec step p₀ (plays p₀ outOfTurn) = some (hist, p) ∧
        p.uncaught = some "OnTickSimple => invalid Downloader" :=
    ⟨_, _, _, rfl, rfl, rfl⟩
  have hiff := uncaught_iff_called_late hlaunch (run_of_exec hexec) p .last
  rw [hthrown] at hiff
  exact ⟨p₀, p, hist, run_of_exec hexec, hthrown, hiff.mp rfl⟩

instance (w : DownloaderSimple.World S P)
    (o : DownloaderSimple.Occurrence S) :
    Decidable (DownloaderSimple.Orderly w o) :=
  inferInstanceAs (Decidable (¬ _ ∧ ¬ _))

/-- In an orderly run of all its downloaders the program throws nothing. -/
theorem orderly_uncaught (h₀ : launch concurrency tasks born = some p₀)
    (hr : Runs p₀ hist p)
    (hC : Meets (Meeting DownloaderSimple.Orderly) hist) :
    ∀ x, Passes hist p x → x.uncaught = none := by
  intro x hx
  refine hr.always (P := fun x => x.uncaught = none) hC ?_ hx
  intro hist' x hr' hC'
  obtain ⟨bs, -, hreached⟩ := (parts_of_runs h₀ hr' hC').downloaders
  have hnever : ¬ x.uncaught.isSome = true := fun hsome => by
    obtain ⟨w, hw, before, r, after, r', heq, hfinal, hmem⟩ :=
      (thrownIfLate_of_runs h₀ hr').mp hsome
    have hstands := hreached.invariant
      (I := fun w => DownloaderSimple.Accounted w ∨
        DownloaderSimple.Unstarted w) (fun b _ => ?_) ?_ hw
    · rcases hstands with haccounted | hrefused
      · obtain ⟨r'', hassigned, -⟩ :=
          haccounted.singleFinal before r after heq hfinal _ hmem
        cases hassigned
      · have hsilent := hrefused.silent
        have hhead : called (.invoked r) = some r := rfl
        rw [heq, List.filterMap_append,
          List.filterMap_cons_some hhead] at hsilent
        exact absurd (List.append_eq_nil_iff.mp hsilent).2 nofun
    · rcases b.run_or P with ⟨-, hstarted⟩ | ⟨-, hrefused⟩
      · exact .inl (.inl ⟨_, _, rfl,
          DownloaderSimple.started_alive hstarted⟩)
      · exact .inr hrefused
    · rintro w o w' (haccounted | hrefused) ⟨hs, horderly, hstop⟩
      · exact .inl (haccounted.step horderly hs)
      · exact .inr (hrefused.step
          (fun hev => hrefused.not_going (hstop hev)) hs)
  exact Option.not_isSome_iff_eq_none.mp hnever

theorem orderly_uncaught_inTurn : ∃ (p₀ p : Site) (hist : _),
    Runs p₀ hist p ∧ p.onTick.jobList.map Job.id = [2] ∧
      ∀ x, Passes hist p x → x.uncaught = none := by
  obtain ⟨p₀, hist, p, hlaunch, hexec, hjobs, hC⟩ : ∃ (p₀ : Site) (hist : _)
      (p : _), launch 2 threePages atFirst = some p₀ ∧
        exec step p₀ (plays p₀ inTurn) = some (hist, p) ∧
        p.onTick.jobList.map Job.id = [2] ∧
        Meets (Meeting DownloaderSimple.Orderly) hist :=
    ⟨_, _, _, rfl, rfl, rfl, by
      unfold Meets
      decide⟩
  exact ⟨p₀, p, hist, run_of_exec hexec, hjobs,
    orderly_uncaught hlaunch (run_of_exec hexec) hC⟩

end Program

end EcwidDownloader
