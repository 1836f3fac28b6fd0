import EcwidDownloader.Proofs.ProgramStaff

/-!
# How the program ends

SIGINT gives up the factory and stops every downloader that has a job. Each of
them tells its end by one call, which finds its job and erases it, so the list is
empty when the handler returns, and the lines of the jobs stand on the screen in
their order. No stop can throw, and none can get stuck.

Without a job nothing is ever shown, counted or made again, so the idle handler
may let the loop end; what the summary then says is what the downloaders have
reported.
-/

namespace EcwidDownloader

open Lib

namespace DownloaderSimple

variable {S P : Type} [TCPSocket S]

/-- The status after `stop`. -/
def aborted (w : World S P) : StatusDownloader :=
  { w.owner.status with state := .failed, stateStr := "Abort." }

theorem stop_status (w : World S P) : (stop w).owner.status = aborted w :=
  terminateHandles_status (setStatus .failed "Abort." w)

/-- What `stop` does to a downloader, whatever has become of the socket: nothing
is heard of the network any more, an open file is closed to be unlinked, and one
call tells so. -/
structure Halted (w w' : World S P) : Prop where
  ended : Over w'
  status : w'.owner.status = aborted w
  trace : w'.owner.trace =
    w.owner.trace ++ [.assigned (failedReport w), .invoked (failedReport w)]
  disposing : ∃ o : Occurrence S, Disposing (found w o) w'

theorem halted_stop (w : World S P) (o : Occurrence S) :
    Halted w (stop (found w o)) := by
  have hfailing := failing "Abort." (found w o)
  exact ⟨hfailing.past, stop_status (found w o), hfailing.trace, o,
    hfailing.disposing⟩

omit [TCPSocket S] in
theorem Halted.not_going {w w' : World S P} (h : Halted w w') :
    ¬ Going w' := by
  rintro ⟨hstate, -⟩
  rw [h.status] at hstate
  cases hstate

end DownloaderSimple

namespace Program

variable {S P : Type} [TCPSocket S] [HttpParser P]

/-- The line of a job whose downloader is stopped. -/
def lastLine (p : Program S P) (job : Job Nat) :
    Option (Nat × StatusDownloader) :=
  job.downloader.bind fun number => p.downloaders[number]?.map fun w =>
    (job.id, { DownloaderSimple.aborted w with
      downloaded := w.owner.received.length })

/-- The handler has stopped every download that went on and touched no other: no
job is left, nothing was thrown or made, and the jobs have had their lines. -/
structure Aborted (p p' : Program S P) : Prop where
  calm : p'.uncaught = none
  jobs : p'.onTick.jobList = []
  factory : p'.onTick.factory = false
  requests : p'.onTick.requests = p.onTick.requests
  dashboard : p'.onTick.dashboard =
    p.onTick.dashboard ++ p.onTick.jobList.filterMap p.lastLine
  halted : ∀ (number : Nat) (w : DownloaderSimple.World S P),
    p.downloaders[number]? = some w →
    ∃ w', p'.downloaders[number]? = some w' ∧
      (DownloaderSimple.Going w → DownloaderSimple.Halted w w') ∧
      (¬ DownloaderSimple.Going w → w' = w)

variable {number : Nat} {w : DownloaderSimple.World S P}
  {p p' : Program S P}

/-- The call of the first job, with the factory gone: it erases the job and makes
nothing. -/
theorem ticked_first {job : Job Nat} {jobs : List (Job Nat)} {t : Tick S}
    (hfactory : p.onTick.factory = false)
    (hl : p.onTick.jobList = job :: jobs) (hd : job.downloader = some number)
    (hstate : t.status.state = .failed) :
    (ticked number t p).uncaught = none ∧
      (ticked number t p).onTick.jobList = jobs ∧
      (ticked number t p).onTick.factory = false ∧
      (ticked number t p).onTick.requests = p.onTick.requests ∧
      (ticked number t p).onTick.dashboard =
        p.onTick.dashboard ++ [(job.id, t.status)] := by
  have hinvoke := OnTickSimple.invoke_first
    (w := { p.onTick with
      creations := Birth.creations P p.downloaders.length t.born })
    hl hd hfactory hstate
  unfold ticked
  simp only [hinvoke]
  exact ⟨trivial, rfl, hfactory,
    (OnTickSimple.requests_note (.left job.id p.onTick.factory) _).trans
      (List.append_nil _), rfl⟩

/-- A stop is told by one call, whose status is known. -/
theorem stop_seen {s : Stop S} (hg : DownloaderSimple.Going w)
    (hseen : Seen
      (DownloaderSimple.stop (DownloaderSimple.found w s.occurrence))
      (reports w
        (DownloaderSimple.stop (DownloaderSimple.found w s.occurrence)))
      (s.ticks.map Tick.status)) :
    ∃ t, s.ticks = [t] ∧ t.status = { DownloaderSimple.aborted w with
      downloaded := w.owner.received.length } := by
  rw [stop_reports s hg] at hseen
  obtain ⟨hall, hlast⟩ := hseen
  have hlength := hall.length_eq
  rw [List.length_singleton, List.length_map] at hlength
  obtain ⟨t, ht⟩ := List.length_eq_one_iff.mp hlength.symm
  rw [ht] at hlast
  have hstatus : t.status = shown
      (DownloaderSimple.stop (DownloaderSimple.found w s.occurrence))
      (DownloaderSimple.failedReport w) := Option.some.inj hlast
  have haborted := (DownloaderSimple.halted_stop w s.occurrence).status
  exact ⟨t, ht, hstatus.trans (congrArg (fun status : StatusDownloader =>
    { status with downloaded := w.owner.received.length, state := .failed })
    haborted)⟩

/-- The stop of the first job. -/
theorem stop_first {job : Job Nat} {jobs : List (Job Nat)} {s : Stop S}
    (hu : p.uncaught = none) (hfactory : p.onTick.factory = false)
    (hl : p.onTick.jobList = job :: jobs) (hd : job.downloader = some number)
    (hg : DownloaderSimple.Going w)
    (hm : moved number w
      (DownloaderSimple.stop (DownloaderSimple.found w s.occurrence)) s.ticks
      p = some p') :
    p'.uncaught = none ∧ p'.onTick.jobList = jobs ∧
      p'.onTick.factory = false ∧ p'.onTick.requests = p.onTick.requests ∧
      p'.onTick.dashboard = p.onTick.dashboard ++
        [(job.id, { DownloaderSimple.aborted w with
          downloaded := w.owner.received.length })] ∧
      p'.downloaders = p.downloaders.set number
        (DownloaderSimple.stop (DownloaderSimple.found w s.occurrence)) := by
  obtain ⟨hseen, hticks⟩ := moved_some hm
  obtain ⟨t, ht, hstatus⟩ := stop_seen hg hseen
  rw [ht, List.foldlM_cons] at hticks
  obtain ⟨p₁, h₁, hrest⟩ := Option.bind_eq_some_iff.mp hticks
  cases hrest
  obtain ⟨rfl, hasked⟩ := tick_some
    (p := { p with downloaders := p.downloaders.set number _ }) hu h₁
  obtain ⟨hu', hl', hfactory', hrequests, hdash⟩ := ticked_first
    (p := { p with
      downloaders := p.downloaders.set number
        (DownloaderSimple.stop (DownloaderSimple.found w s.occurrence)) })
    (t := t) hfactory hl hd (by rw [hstatus]; rfl)
  rw [hstatus] at hdash
  have hborn : t.born = [] := nothing_born (hrequests.symm.trans hasked)
  refine ⟨hu', hl', hfactory', hrequests, hdash, ?_⟩
  show _ ++ t.born.map (Birth.world P) = _
  rw [hborn]
  exact List.append_nil _

theorem stopAll_aborted : ∀ {jobs : List (Job Nat)} {stops : List (Stop S)}
    {p p' : Program S P}, Staffed p → p.uncaught = none →
    p.onTick.factory = false → p.onTick.jobList = jobs →
    stopAll (jobs.map Job.downloader) stops p = some p' → Aborted p p'
  | [], [], p, p', h, hu, hfactory, hl, hs => by
      cases hs
      refine ⟨hu, hl, hfactory, rfl, ?_, fun number w hw =>
        ⟨w, hw, fun hg => ?_, fun _ => rfl⟩⟩
      · rw [hl]
        exact (List.append_nil _).symm
      · have hmem := (h.staff number).mpr ⟨w, hw, hg⟩
        unfold OnTickSimple.staff at hmem
        rw [hl] at hmem
        cases hmem
  | [], _ :: _, _, _, _, _, _, _, hs => by cases hs
  | job :: jobs, stops, p, p', h, hu, hfactory, hl, hs => by
      obtain ⟨m, hd⟩ := Option.ne_none_iff_exists'.mp
        (h.running job (by rw [hl]; exact List.mem_cons_self))
      have hstaff : p.onTick.staff = m :: OnTickSimple.staffed jobs := by
        unfold OnTickSimple.staff OnTickSimple.staffed
        rw [hl, List.filterMap_cons_some hd]
      obtain ⟨hnot, -⟩ := List.nodup_cons.mp (hstaff ▸ h.nodup)
      obtain ⟨w, hw, hg⟩ :=
        (h.staff m).mp (by rw [hstaff]; exact List.mem_cons_self)
      have hlt := (List.getElem?_eq_some_iff.mp hw).1
      rw [List.map_cons, hd] at hs
      cases stops with
      | nil => cases hs
      | cons s stops =>
          unfold stopAll at hs
          rw [hu, hw] at hs
          simp only [Option.isSome_none, Bool.false_eq_true, if_false] at hs
          obtain ⟨p₁, h₁, hrest⟩ := Option.bind_eq_some_iff.mp hs
          obtain ⟨hu₁, hl₁, hfactory₁, hrequests₁, hdash₁, hxs₁⟩ :=
            stop_first hu hfactory hl hd hg h₁
          have hstaffed := (h.moved hu hw (stop_step s hg) (fun _ => hg)
            h₁).staffed
          have hih := stopAll_aborted hstaffed hu₁ hfactory₁ hl₁ hrest
          have hsame : ∀ k, k ≠ m → p₁.downloaders[k]? = p.downloaders[k]? :=
            fun k hne => by rw [hxs₁, List.getElem?_set_ne hne.symm]
          have hlines : jobs.filterMap p₁.lastLine =
              jobs.filterMap p.lastLine := by
            refine List.filterMap_congr fun j hj => ?_
            unfold lastLine
            cases hk : j.downloader with
            | none => rfl
            | some k =>
                have hne : k ≠ m := fun heq => hnot
                  (List.mem_filterMap.mpr ⟨j, hj, heq ▸ hk⟩)
                rw [Option.bind_some, Option.bind_some, hsame k hne]
          have hline : p.lastLine job = some (job.id,
              { DownloaderSimple.aborted w with
                downloaded := w.owner.received.length }) := by
            unfold lastLine
            rw [hd, Option.bind_some, hw]
            rfl
          refine ⟨hih.calm, hih.jobs, hih.factory,
            hih.requests.trans hrequests₁, ?_, fun number x hx => ?_⟩
          · rw [hih.dashboard, hdash₁, hl₁, hlines, hl,
              List.filterMap_cons_some hline, List.append_assoc]
            rfl
          · by_cases heq : number = m
            · subst heq
              rw [hw] at hx
              cases hx
              have hhalted := DownloaderSimple.halted_stop w s.occurrence
              obtain ⟨w', hw', -, hkeep⟩ := hih.halted number
                (DownloaderSimple.stop
                  (DownloaderSimple.found w s.occurrence)) (by
                rw [hxs₁]
                exact List.getElem?_set_self hlt)
              refine ⟨w', hw', fun _ => ?_, fun hno => absurd hg hno⟩
              rw [hkeep hhalted.not_going]
              exact hhalted
            · exact hih.halted number x (by
                rw [hsame number heq]
                exact hx)

/-- The one call of a stop can be made. -/
theorem stop_ready {job : Job Nat} {jobs : List (Job Nat)} (sock : S)
    (faults : Faults) (hu : p.uncaught = none)
    (hfactory : p.onTick.factory = false)
    (hl : p.onTick.jobList = job :: jobs) (hd : job.downloader = some number)
    (hg : DownloaderSimple.Going w) :
    ∃ s : Stop S, s.sock = sock ∧ s.faults = faults ∧ ∃ p' : Program S P,
      moved number w
        (DownloaderSimple.stop (DownloaderSimple.found w s.occurrence))
        s.ticks p = some p' := by
  obtain ⟨w', hw'⟩ : ∃ w', w' = DownloaderSimple.stop
      (DownloaderSimple.found w ⟨.stop, sock, faults⟩) := ⟨_, rfl⟩
  obtain ⟨t, ht⟩ : ∃ t : Tick S, t =
    { status := shown w' (DownloaderSimple.failedReport w) } := ⟨_, rfl⟩
  have hreports : reports w w' = [DownloaderSimple.failedReport w] := by
    rw [hw']
    exact stop_reports ⟨sock, faults, []⟩ hg
  have hseen : Seen w' (reports w w') ([t].map Tick.status) := by
    rw [hreports, ht]
    exact ⟨.cons rfl .nil, rfl⟩
  obtain ⟨q, hq⟩ : ∃ q : Program S P, q =
    { p with downloaders := p.downloaders.set number w' } := ⟨_, rfl⟩
  have htick : tick number q t = some (ticked number t q) := by
    obtain ⟨-, -, -, hrequests, -⟩ := ticked_first (p := q) (t := t)
      (by rw [hq]; exact hfactory) (by rw [hq]; exact hl) hd
      (by rw [ht]; rfl)
    have hborn : t.born = [] := by rw [ht]
    have hu' : q.uncaught = none := by rw [hq]; exact hu
    unfold tick
    rw [hu', hborn, List.map_nil, List.append_nil]
    simp only [Option.isSome_none, Bool.false_eq_true, if_false]
    exact if_pos hrequests
  refine ⟨⟨sock, faults, [t]⟩, rfl, rfl, ticked number t q, ?_⟩
  show moved number w (DownloaderSimple.stop
    (DownloaderSimple.found w ⟨.stop, sock, faults⟩)) [t] p = _
  rw [← hw']
  unfold moved
  rw [if_pos hseen, ← hq, List.foldlM_cons, htick]
  rfl

theorem stopAll_ready : ∀ {jobs : List (Job Nat)} {plan : List (S × Faults)}
    {p : Program S P}, Staffed p → p.uncaught = none →
    p.onTick.factory = false → p.onTick.jobList = jobs →
    plan.length = jobs.length →
    ∃ stops p', stops.map (fun s => (s.sock, s.faults)) = plan ∧
      stopAll (jobs.map Job.downloader) stops p = some p'
  | [], [], p, _, _, _, _, _ => ⟨[], p, rfl, rfl⟩
  | job :: jobs, (sock, faults) :: plan, p, h, hu, hfactory, hl, hlength => by
      obtain ⟨m, hd⟩ := Option.ne_none_iff_exists'.mp
        (h.running job (by rw [hl]; exact List.mem_cons_self))
      obtain ⟨w, hw, hg⟩ := (h.staff m).mp
        (OnTickSimple.mem_staff.mpr ⟨job, by
          rw [hl]
          exact List.mem_cons_self, hd⟩)
      obtain ⟨s, rfl, rfl, p₁, h₁⟩ :=
        stop_ready sock faults hu hfactory hl hd hg
      obtain ⟨hu₁, hl₁, hfactory₁, -⟩ := stop_first hu hfactory hl hd hg h₁
      have hstaffed := (h.moved hu hw (stop_step s hg) (fun _ => hg)
        h₁).staffed
      obtain ⟨stops, p', hplan, hs⟩ := stopAll_ready hstaffed hu₁ hfactory₁
        hl₁ (Nat.succ.inj hlength)
      refine ⟨s :: stops, p', by rw [List.map_cons, hplan], ?_⟩
      rw [List.map_cons, hd]
      unfold stopAll
      rw [hu, hw]
      simp only [Option.isSome_none, Bool.false_eq_true, if_false]
      exact Option.bind_eq_some_iff.mpr ⟨p₁, h₁, hs⟩

variable {concurrency : Nat} {tasks : TaskList} {born : List (Birth S)}
  {p₀ : Program S P} {hist : List (Program S P × Event S)}

theorem reachable_staffed (h₀ : launch concurrency tasks born = some p₀)
    (hr : Runs p₀ hist p) : Staffed p :=
  ((launch_staffed h₀).always hr (meeting_any hist) (I := fun _ => True)
    trivial (fun _ _ => trivial) fun _ _ _ => trivial).1

/-- SIGINT ends every download that goes on, by one line each, in the order of the
jobs, and nothing it meets on the way can keep it from that. -/
theorem interrupt_aborts (h₀ : launch concurrency tasks born = some p₀)
    (hr : Runs p₀ hist p) :
    (∀ stops p', step p (.interrupt stops) = some p' → Aborted p p') ∧
    (p.watching = true → p.uncaught = none → ∀ plan : List (S × Faults),
      plan.length = p.onTick.jobList.length → ∃ stops p',
        stops.map (fun s => (s.sock, s.faults)) = plan ∧
          step p (.interrupt stops) = some p') := by
  have hstaffed := (cleared_expire false p).staffed (reachable_staffed h₀ hr)
  constructor
  · intro stops p' hs
    unfold step at hs
    split at hs
    · cases hs
    · next hcalm =>
        simp only [] at hs
        split at hs
        · have haborted := stopAll_aborted hstaffed
            (Option.not_isSome_iff_eq_none.mp hcalm) rfl rfl hs
          exact ⟨haborted.calm, haborted.jobs, haborted.factory,
            haborted.requests, haborted.dashboard, haborted.halted⟩
        · cases hs
  · intro hwatching hu plan hlength
    obtain ⟨stops, p', hplan, hs⟩ :=
      stopAll_ready hstaffed hu rfl rfl hlength
    refine ⟨stops, p', hplan, ?_⟩
    unfold step
    rw [hu, if_neg (by simp)]
    simp only [hwatching, if_true]
    exact hs

/-- SIGINT in the middle of two downloads. -/
theorem interrupt_aborts_early : ∃ (p₀ p p' : Site) (hist : _)
    (stops : List (Stop TCPSocketBandwidth)),
    Runs p₀ hist p ∧ step p (.interrupt stops) = some p' ∧
      p.onTick.jobList.length = 2 ∧ Aborted p p' := by
  obtain ⟨p₀, hist, p, hlaunch, hexec, hjobs, hwatching, hu⟩ : ∃ (p₀ : Site)
      (hist : _) (p : _), launch 2 threePages atFirst = some p₀ ∧
        exec step p₀ (plays p₀ (inTurn.take 3)) = some (hist, p) ∧
        p.onTick.jobList.length = 2 ∧ p.watching = true ∧
        p.uncaught = none :=
    ⟨_, _, _, rfl, rfl, rfl, rfl, rfl⟩
  obtain ⟨haborts, hready⟩ := interrupt_aborts hlaunch (run_of_exec hexec)
  obtain ⟨stops, p', -, hs⟩ := hready hwatching hu
    [(TCPSocketBandwidth.create 1, {}), (TCPSocketBandwidth.create 2, {})]
    hjobs.symm
  exact ⟨p₀, p, p', hist, stops, run_of_exec hexec, hs, hjobs,
    haborts stops p' hs⟩

/-! ## The end of the loop -/

/-- What a step can change of the program, piece by piece: a downloader, what a
call of `invoke` changes, and the handlers. -/
structure Keeps (I : Program S P → Prop) : Prop where
  set : ∀ {p : Program S P} (number : Nat) (w : DownloaderSimple.World S P),
    I p → I { p with downloaders := p.downloaders.set number w }
  tick : ∀ {p p' : Program S P} {number : Nat} {t : Tick S}, I p →
    tick number p t = some p' → I p'
  expire : ∀ {p : Program S P}, I p →
    I { p with onTick.factory := false, watching := false }
  idle : ∀ {p : Program S P}, I p → p.onTick.jobList = [] →
    I { p with watching := false, idle := false }

namespace Keeps

variable {I : Program S P → Prop} {w' : DownloaderSimple.World S P}

theorem moved (hI : Keeps I) {ts : List (Tick S)} (h : I p)
    (hm : moved number w w' ts p = some p') : I p' := by
  obtain ⟨-, hticks⟩ := moved_some hm
  exact foldlM_keeps (I := fun _ => I) (fun h ht => hI.tick h ht)
    (hI.set number w' h) hticks

theorem stopAll (hI : Keeps I) : ∀ {numbers : List (Option Nat)}
    {stops : List (Stop S)} {p p' : Program S P}, I p →
    Program.stopAll numbers stops p = some p' → I p'
  | [], [], p, p', h, hs => by
      cases hs
      exact h
  | [], _ :: _, _, _, _, hs => by cases hs
  | none :: _, _, _, _, _, hs => by cases hs
  | some _ :: _, [], _, _, _, hs => by cases hs
  | some m :: numbers, s :: stops, p, p', h, hs => by
      unfold Program.stopAll at hs
      split at hs
      · cases hs
        exact h
      · split at hs
        · cases hs
        · obtain ⟨p₁, h₁, hrest⟩ := Option.bind_eq_some_iff.mp hs
          exact hI.stopAll (hI.moved h h₁) hrest

theorem step (hI : Keeps I) {e : Event S} (h : I p)
    (hs : Lib.Graph step p e p') : I p' := by
  unfold Lib.Graph Program.step at hs
  split at hs
  · cases hs
  · cases e with
    | downloader number o ts =>
        simp only [] at hs
        split at hs
        · cases hs
        · split at hs
          · cases hs
          · obtain ⟨w', -, hm⟩ := Option.bind_eq_some_iff.mp hs
            exact hI.moved h hm
    | interrupt stops =>
        simp only [] at hs
        split at hs
        · exact hI.stopAll (hI.expire h) hs
        · cases hs
    | idle =>
        simp only [] at hs
        split at hs
        · cases hs
          unfold onIdle
          split
          · next hempty => exact hI.idle h (List.isEmpty_iff.mp hempty)
          · exact h
        · cases hs

end Keeps

/-- Since `x` nothing has been shown, asked for or made, and there is no job. -/
structure Unchanged (x p : Program S P) : Prop where
  jobs : p.onTick.jobList = []
  dashboard : p.onTick.dashboard = x.onTick.dashboard
  requests : p.onTick.requests = x.onTick.requests
  made : p.downloaders.length = x.downloaders.length

/-- Without a job a call of `invoke` can only throw. -/
theorem Unchanged.tick {x : Program S P} {t : Tick S} (h : Unchanged x p)
    (ht : tick number p t = some p') : Unchanged x p' := by
  cases hu : p.uncaught with
  | some what =>
      unfold Program.tick at ht
      rw [hu] at ht
      cases ht
      exact h
  | none =>
      obtain ⟨rfl, hasked⟩ := tick_some hu ht
      have hno : ∀ job ∈ p.onTick.jobList, job.downloader ≠ some number :=
        fun job hjob => absurd hjob (h.jobs ▸ List.not_mem_nil)
      have hinvoke := OnTickSimple.invoke_unknown
        (w := { p.onTick with
          creations := Birth.creations P p.downloaders.length t.born })
        t.status hno
      unfold ticked at hasked ⊢
      simp only [hinvoke] at hasked ⊢
      rw [nothing_born hasked, List.map_nil, List.append_nil]
      exact ⟨h.jobs, h.dashboard, h.requests, h.made⟩

theorem keeps_unchanged (x : Program S P) : Keeps (Unchanged x) where
  set _ _ h :=
    ⟨h.jobs, h.dashboard, h.requests, (List.length_set ..).trans h.made⟩
  tick h ht := h.tick ht
  expire h := ⟨h.jobs, h.dashboard, h.requests, h.made⟩
  idle h _ := ⟨h.jobs, h.dashboard, h.requests, h.made⟩

omit [TCPSocket S] [HttpParser P] in
theorem unchanged_self (h : p.onTick.jobList = []) : Unchanged p p :=
  ⟨h, rfl, rfl, rfl⟩

/-- The idle handler is there, or there is no job. -/
def Idles (p : Program S P) : Prop :=
  p.idle = true ∨ p.onTick.jobList = []

theorem keeps_idles : Keeps (Idles (S := S) (P := P)) where
  set _ _ h := h
  tick {p p' number t} h ht := by
    rcases h with h | h
    · refine .inl ?_
      cases hu : p.uncaught with
      | some what =>
          unfold Program.tick at ht
          rw [hu] at ht
          cases ht
          exact h
      | none =>
          obtain ⟨rfl, -⟩ := tick_some hu ht
          exact h
    · exact .inr ((unchanged_self h).tick ht).jobs
  expire h := h
  idle _ h := .inr h

/-- When the idle handler has let the loop end no download goes on, and nothing
that happens later is shown, asks for anything or makes a downloader: what the
summary says then is final. -/
theorem loop_end_final (h₀ : launch concurrency tasks born = some p₀)
    (hr : Runs p₀ hist p) : ∀ x, Passes hist p x → x.idle = false →
    (∀ w ∈ x.downloaders, ¬ DownloaderSimple.Going w) ∧ Unchanged x p := by
  intro x hx hidle
  have hidles : Idles x := by
    refine hr.always (P := Idles) (meeting_any hist) ?_ hx
    intro hist' x hr' _
    refine hr'.invariant' Idles ?_ fun _ _ _ h hs => keeps_idles.step h hs
    obtain ⟨rfl, -⟩ := launch_some h₀
    exact .inl rfl
  have hjobs : x.onTick.jobList = [] :=
    hidles.resolve_left fun htrue => by rw [hidle] at htrue; cases htrue
  have hemploys : Employs concurrency x := by
    refine hr.always (meeting_any hist) ?_ hx
    intro hist' x hr' _
    exact employs_of_runs h₀ hr'
  refine ⟨fun w hw hg => ?_, ?_⟩
  · obtain ⟨number, hnumber⟩ := List.getElem?_of_mem hw
    obtain ⟨job, hjob, -⟩ :=
      (hemploys.downloads number).mpr ⟨w, hnumber, hg⟩
    rw [hjobs] at hjob
    cases hjob
  · exact hr.stays (P := Unchanged x)
      (fun h hs => (keeps_unchanged x).step h hs) hx (unchanged_self hjobs)

/-- The one download is done, the loop is let end, and an event comes late. -/
theorem loop_end_final_late : ∃ (p₀ x p : Site) (hist : _),
    Runs p₀ hist p ∧ Passes hist p x ∧ x.idle = false ∧
      x.onTick.dashboard.length = 5 ∧ Unchanged x p := by
  obtain ⟨p₀, hist, x, p, hlaunch, hexec, hidle, hshown, hs⟩ : ∃ (p₀ : Site)
      (hist : _) (x p : _),
      launch 1 (threePages.take 1) [page 1 "a" true] = some p₀ ∧
        exec step p₀ (plays p₀ (DownloaderSimple.openFirst.map
          fun o => ⟨0, o, []⟩) ++ [.idle]) = some (hist, x) ∧
        x.idle = false ∧ x.onTick.dashboard.length = 5 ∧
        step x (.downloader 0
          (DownloaderSimple.plainly (.socket .writeEvent)) []) = some p :=
    ⟨_, _, _, _, rfl, rfl, rfl, rfl, rfl⟩
  have hr := (run_of_exec hexec).snoc hs
  refine ⟨p₀, x, p, _, hr, Passes.last.snoc, hidle, hshown, ?_⟩
  exact (loop_end_final hlaunch hr x Passes.last.snoc hidle).2

end Program

end EcwidDownloader
