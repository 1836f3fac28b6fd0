import EcwidDownloader.Proofs.DoneReport
import EcwidDownloader.Proofs.ProgramEnd

/-!
# What the summary says

The dashboard counts the updates with `Done` and the bytes these speak of. An
update is made for every call of `invoke` that finds its job, and for nothing
else with that state, so as long as nothing was thrown the two counters are a sum
over the downloaders: of those that have reported `Done`, and of what they had
received then. Where every file was closed before its download was reported as
done, that is the size of the file.
-/

namespace EcwidDownloader

open Lib

namespace Program

variable {S P : Type}

/-- What a report adds to the bytes counted. -/
def tally (r : Report) : Option Nat :=
  if r.state = .done then some r.received.length else none

/-- The same for the status that was shown. -/
def tallyStatus (status : StatusDownloader) : Option Nat :=
  if status.state = .done then some status.downloaded else none

def tallies (w : DownloaderSimple.World S P) : List Nat :=
  (calls w).filterMap tally

/-- The report of `Done` a downloader has made. -/
def finished (w : DownloaderSimple.World S P) : Option Report :=
  (calls w).find? fun r => r.state = .done

/-- The bytes the dashboard has counted, one entry for each download. -/
def entries (p : Program S P) : List Nat :=
  p.onTick.dashboard.filterMap DashboardSimple.counted

theorem Seen.tallies {w' : DownloaderSimple.World S P} {rs : List Report}
    {statuses : List StatusDownloader} (h : Seen w' rs statuses) :
    statuses.filterMap tallyStatus = rs.filterMap tally := by
  have hall := h.1
  clear h
  induction hall with
  | nil => rfl
  | @cons r status rs statuses hhead _ ih =>
      have hone : tallyStatus status = tally r := by
        unfold tallyStatus tally
        rw [hhead]
        rfl
      rw [List.filterMap_cons, List.filterMap_cons, ih, hone]

theorem entries_update (id : Nat) (status : StatusDownloader)
    (w : OnTickSimple Nat) :
    (OnTickSimple.update id status w).dashboard.filterMap
        DashboardSimple.counted =
      w.dashboard.filterMap DashboardSimple.counted ++
        [status].filterMap tallyStatus := by
  unfold OnTickSimple.update
  rw [List.filterMap_append]
  rfl

variable [TCPSocket S] [HttpParser P] {number : Nat}
  {w w' : DownloaderSimple.World S P} {p p' : Program S P}

/-- The entry of one call that finds its job. -/
theorem Amid.tick_entries {t : Tick S} (h : Amid number w' false p)
    (hu : p.uncaught = none) (ht : tick number p t = some p') :
    p'.entries = p.entries ++ [t.status].filterMap tallyStatus := by
  obtain ⟨rfl, -⟩ := tick_some hu ht
  obtain ⟨it, hit⟩ := h.found
    (Birth.creations P p.downloaders.length t.born)
  unfold entries ticked
  simp only []
  cases hfinal : t.status.state.final with
  | false =>
      rw [OnTickSimple.invoke_underway hit hfinal]
      exact entries_update it.job.id t.status _
  | true =>
      obtain ⟨asked, hr⟩ := OnTickSimple.recruited_invoke hit hfinal
      exact hr.counted.trans (entries_update it.job.id t.status _)

theorem Amid.ticks_entries : ∀ {ts : List (Tick S)} {told : Bool}
    {p p' : Program S P}, Amid number w' told p → p.uncaught = none →
    ts.foldlM (tick number) p = some p' → p'.uncaught = none →
    p'.entries = p.entries ++ (ts.map Tick.status).filterMap tallyStatus
  | [], told, p, p', h, hu, ht, hu' => by
      cases ht
      exact (List.append_nil _).symm
  | t :: ts, told, p, p', h, hu, ht, hu' => by
      have hall := h.ticks hu ht
      rw [List.foldlM_cons] at ht
      obtain ⟨p₁, h₁, hrest⟩ := Option.bind_eq_some_iff.mp ht
      cases told with
      | true =>
          have hthrown : p'.uncaught.isSome = true := hall.2.mpr rfl
          rw [hu'] at hthrown
          cases hthrown
      | false =>
          have hone := h.tick_entries hu h₁
          have hnext : ∃ told', Amid number w' told' p₁ ∧
              p₁.uncaught = none := by
            cases hfinal : t.status.state.final with
            | true => exact ⟨true, h.tick_final hu hfinal h₁⟩
            | false => exact ⟨false, h.tick_underway hu hfinal h₁⟩
          obtain ⟨told', ha, hu₁⟩ := hnext
          rw [ha.ticks_entries hu₁ hrest hu', hone, List.append_assoc,
            List.map_cons, ← List.filterMap_append]
          rfl

/-- As long as nothing was thrown the entries are those of the downloaders. -/
def Tallied (p : Program S P) : Prop :=
  p.uncaught = none → p.entries.Perm (p.downloaders.flatMap tallies)

theorem tallies_births (bs : List (Birth S)) :
    (bs.map (Birth.world P)).flatMap tallies = [] := by
  rw [List.flatMap_eq_nil_iff]
  intro w hw
  obtain ⟨b, -, rfl⟩ := List.mem_map.mp hw
  unfold tallies
  rw [calls_birth]
  rfl

theorem Tallied.turn {C : DownloaderSimple.World S P →
      DownloaderSimple.Occurrence S → Prop}
    {e : Nat × DownloaderSimple.Occurrence S} (hp : Staffed p)
    (h : Tallied p) (ht : Turn C p e p') : Tallied p' := by
  intro hu'
  obtain ⟨w, w', ts, hu, hw, hs, -, hstop, hm⟩ := ht
  obtain ⟨bs, -, hxs⟩ := (hp.moved hu hw hs hstop hm).births
  obtain ⟨hseen, hticks⟩ := moved_some hm
  obtain ⟨hstands, -⟩ :=
    standing_step (hp.standing w (List.mem_of_getElem? hw)) hs hstop
  have hentries := (hp.amid hw hstands).ticks_entries hu hticks hu'
  rw [hseen.tallies] at hentries
  have hmore : tallies w' = tallies w ++ (reports w w').filterMap tally := by
    unfold tallies
    rw [calls_append (DownloaderSimple.trace_step hs), List.filterMap_append]
  rw [hentries, hxs, List.flatMap_append, tallies_births, List.append_nil]
  exact (List.Perm.append_right _ (h hu)).trans (collected_set hmore hw).symm

/-! ## The downloads that are done -/

omit [TCPSocket S] [HttpParser P] in
/-- Nothing is called after the end is told, so one report at most counts. -/
theorem tally_finished : ∀ {rs : List Report},
    late false (rs.map Report.final) = false →
    rs.filterMap tally =
      ((rs.find? fun r => r.state = .done).map
        fun r => r.received.length).toList
  | [], _ => rfl
  | r :: rs, h => by
      rw [List.map_cons, late, Bool.false_or, Bool.false_or] at h
      cases hfinal : r.final with
      | true =>
          rw [hfinal, late_of_told, Bool.not_eq_false',
            List.isEmpty_iff, List.map_eq_nil_iff] at h
          subst h
          by_cases hdone : r.state = .done
          · simp [tally, hdone]
          · simp [tally, hdone]
      | false =>
          have hnot : r.state ≠ .done := fun hdone => by
            rw [Report.final, hdone] at hfinal
            cases hfinal
          rw [hfinal] at h
          have hnone : tally r = none := if_neg hnot
          rw [List.filterMap_cons_none hnone, tally_finished h,
            List.find?_cons_of_neg (by simpa using hnot)]

omit [TCPSocket S] [HttpParser P] in
theorem tallies_finished {xs : List (DownloaderSimple.World S P)}
    (h : ∀ w ∈ xs, ¬ CalledLate w.owner.trace) :
    xs.flatMap tallies =
      (xs.filterMap finished).map fun r => r.received.length := by
  induction xs with
  | nil => rfl
  | cons w xs ih =>
      have hlate : late false ((calls w).map Report.final) = false :=
        Bool.eq_false_iff.mpr fun hl =>
          h w List.mem_cons_self ((late_calls _).mp hl)
      have hone : tallies w =
          ((finished w).map fun r => r.received.length).toList :=
        tally_finished hlate
      rw [List.flatMap_cons, ih fun x hx => h x (List.mem_cons_of_mem _ hx),
        hone]
      cases hf : finished w with
      | none => rw [List.filterMap_cons_none hf]; rfl
      | some r => rw [List.filterMap_cons_some hf]; rfl

omit [TCPSocket S] [HttpParser P] in
theorem finished_mem {r : Report} (h : finished w = some r) :
    .invoked r ∈ w.owner.trace ∧ r.state = .done := by
  have hmem := List.mem_of_find?_eq_some h
  obtain ⟨m, hm, hcalled⟩ := List.mem_filterMap.mp hmem
  refine ⟨?_, by simpa using List.find?_some h⟩
  cases m with
  | assigned _ => cases hcalled
  | invoked _ => cases hcalled; exact hm

variable {concurrency : Nat} {tasks : TaskList} {born : List (Birth S)}
  {p₀ : Program S P} {hist : List (Program S P × Event S)}

theorem tallied (h₀ : launch concurrency tasks born = some p₀)
    (hr : Runs p₀ hist p) : Tallied p := by
  refine ((launch_staffed h₀).always hr (meeting_any hist) ?_ ?_
    fun hp h ht => h.turn hp ht).2
  · obtain ⟨rfl, -⟩ := launch_some h₀
    intro _
    obtain ⟨asked, hrecruited⟩ := OnTickSimple.recruited_startUp concurrency
      ({ taskList := tasks, creations := Birth.creations P 0 born } :
        OnTickSimple Nat)
    show List.Perm _ ((born.map (Birth.world P)).flatMap tallies)
    rw [tallies_births]
    exact .of_eq hrecruited.counted
  · rintro p p' ⟨⟨factory, watching, idle, rfl⟩, -⟩ h
    exact h

/-- A report of `Done` is about a complete file when its downloads are handed over
in order. -/
theorem finished_complete (h₀ : launch concurrency tasks born = some p₀)
    (hr : Runs p₀ hist p)
    (hC : Meets (Meeting fun w o => DownloaderSimple.HandsOver w o) hist) :
    ∀ r ∈ p.downloaders.filterMap finished,
      DownloaderSimple.Report.Complete r := by
  intro r hr'
  obtain ⟨w, hw, hf⟩ := List.mem_filterMap.mp hr'
  obtain ⟨hmem, hdone⟩ := finished_mem hf
  obtain ⟨bs, -, hreached⟩ := (parts_of_runs h₀ hr hC).downloaders
  have hstands := hreached.invariant
    (I := fun w => DownloaderSimple.Delivering w ∨
      DownloaderSimple.Unstarted w) (fun b _ => ?_) ?_ hw
  · rcases hstands with hdelivering | hrefused
    · exact hdelivering.vouched _ hmem hdone
    · have hcalled : r ∈ calls w := List.mem_filterMap.mpr ⟨_, hmem, rfl⟩
      rw [calls, hrefused.silent] at hcalled
      cases hcalled
  · rcases b.run_or P with ⟨-, hstarted⟩ | ⟨-, hrefused⟩
    · exact .inl (.inl ⟨_, _, rfl, DownloaderSimple.started_alive hstarted⟩)
    · exact .inr hrefused
  · rintro w o w' (hdelivering | hrefused) ⟨hs, hover, hstop⟩
    · exact .inl (hdelivering.step hover hs)
    · exact .inr (hrefused.step
        (fun hev => hrefused.not_going (hstop hev)) hs)

/-- The summary is true: it counts the downloads that were reported as done, and
the bytes of their files. -/
theorem summary_truthful (h₀ : launch concurrency tasks born = some p₀)
    (hr : Runs p₀ hist p)
    (hC : Meets (Meeting fun w o => DownloaderSimple.HandsOver w o) hist)
    (hu : p.uncaught = none) (clock : Nat → String) :
    (p.dashboard clock).doneTasks =
        (p.downloaders.filterMap finished).length % sizeModulus ∧
      (p.dashboard clock).totalDownloaded =
        ((p.downloaders.filterMap finished).map
          fun r => r.disk.content.length).sum % sizeModulus ∧
      ∀ r ∈ p.downloaders.filterMap finished,
      DownloaderSimple.Report.Complete r := by
  have hcomplete := finished_complete h₀ hr hC
  have hnone : ∀ w ∈ p.downloaders, ¬ CalledLate w.owner.trace :=
    fun w hw hlate => by
      have hsome := (thrownIfLate_of_runs h₀ hr).mpr ⟨w, hw, hlate⟩
      rw [hu] at hsome
      cases hsome
  have hperm := tallied h₀ hr hu
  rw [tallies_finished hnone] at hperm
  obtain ⟨hdone, htotal⟩ :=
    DashboardSimple.counters_shown clock p.onTick.dashboard
  have hbytes : ((p.downloaders.filterMap finished).map
      fun r => r.disk.content.length) =
      (p.downloaders.filterMap finished).map fun r => r.received.length :=
    List.map_congr_left fun r hr => by rw [(hcomplete r hr).content]
  refine ⟨?_, ?_, hcomplete⟩
  · refine hdone.trans ?_
    rw [show (p.onTick.dashboard.filterMap DashboardSimple.counted).length =
      _ from hperm.length_eq, List.length_map]
  · refine htotal.trans ?_
    rw [hbytes]
    exact congrArg (· % sizeModulus) hperm.sum_nat

instance (w : DownloaderSimple.World S P)
    (o : DownloaderSimple.Occurrence S) :
    Decidable (DownloaderSimple.HandsOver w o) :=
  inferInstanceAs (Decidable (¬ _))

theorem summary_truthful_inTurn : ∃ (p₀ p : Site) (hist : _),
    Runs p₀ hist p ∧ (p.downloaders.filterMap finished).length = 1 ∧
      (p.dashboard fun _ => "00:00:00  ").totalDownloaded =
        ((p.downloaders.filterMap finished).map
          fun r => r.disk.content.length).sum % sizeModulus := by
  obtain ⟨p₀, hist, p, hlaunch, hexec, hu, hcount, hC⟩ : ∃ (p₀ : Site)
      (hist : _) (p : _), launch 2 threePages atFirst = some p₀ ∧
        exec step p₀ (plays p₀ inTurn) = some (hist, p) ∧
        p.uncaught = none ∧
        (p.downloaders.filterMap finished).length = 1 ∧
        Meets (Meeting fun w o => DownloaderSimple.HandsOver w o) hist :=
    ⟨_, _, _, rfl, rfl, rfl, rfl, by
      unfold Meets
      decide⟩
  exact ⟨p₀, p, hist, run_of_exec hexec, hcount,
    (summary_truthful hlaunch (run_of_exec hexec) hC hu _).2.1⟩

end Program

end EcwidDownloader
