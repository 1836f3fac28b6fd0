import EcwidDownloader.Lib.Components
import EcwidDownloader.Proofs.EveryTask
import EcwidDownloader.Proofs.ProgramTicks

/-!
# The program and its parts

A run of the program is a run of the list of jobs and a run of every downloader,
at once. What an event does to them is said once for all events, by `Moved` for
an event of one downloader and by induction over the list for the handler of
SIGINT; an invariant of the parts then is one of the program.
-/

namespace EcwidDownloader

open Lib

namespace Program

variable {S P : Type} [TCPSocket S] [HttpParser P]

omit [TCPSocket S] [HttpParser P] in
/-- The calls of `invoke` a downloader has made. -/
def calls (w : DownloaderSimple.World S P) : List Report :=
  w.owner.trace.filterMap called

variable {number : Nat} {w w' : DownloaderSimple.World S P}
  {p p' : Program S P}

omit [TCPSocket S] [HttpParser P] in
theorem calls_append (h : w.owner.trace <+: w'.owner.trace) :
    calls w' = calls w ++ reports w w' := by
  obtain ⟨more, hmore⟩ := h
  unfold calls reports
  rw [← hmore, List.drop_left, List.filterMap_append]

omit [TCPSocket S] [HttpParser P] in
theorem any_calls (w : DownloaderSimple.World S P) :
    ((calls w).map Report.final).any id =
      w.owner.trace.any Mark.reportsFinal := by
  unfold calls
  induction w.owner.trace with
  | nil => rfl
  | cons m ms ih =>
      cases m with
      | assigned r =>
          rw [List.filterMap_cons_none rfl, ih, List.any_cons]
          rfl
      | invoked r =>
          have hhead : called (.invoked r) = some r := rfl
          rw [List.filterMap_cons_some hhead, List.map_cons, List.any_cons,
            List.any_cons, ih]
          rfl

omit [TCPSocket S] [HttpParser P] in
/-- What the calls show is what the downloader has reported. -/
theorem Seen.finals {rs : List Report} {statuses : List StatusDownloader}
    (h : Seen w' rs statuses) :
    statuses.map (fun status => status.state.final) = rs.map Report.final := by
  have hall := h.1
  clear h
  induction hall with
  | nil => rfl
  | cons hhead _ ih =>
      rw [List.map_cons, List.map_cons, ih, hhead]
      rfl

theorem moved_some {ts : List (Tick S)}
    (h : moved number w w' ts p = some p') :
    Seen w' (reports w w') (ts.map Tick.status) ∧
      ts.foldlM (tick number)
        { p with downloaders := p.downloaders.set number w' } = some p' := by
  unfold moved at h
  split at h
  · next hseen => exact ⟨hseen, h⟩
  · cases h

/-! ## What is made -/

/-- The downloaders that come with the calls of `create`. -/
def Births (bs : List (Birth S)) (p p' : Program S P) : Prop :=
  p'.onTick.requests = p.onTick.requests ++ bs.map Birth.request ∧
    p'.downloaders = p.downloaders ++ bs.map (Birth.world P)

theorem Births.refl (p : Program S P) : Births [] p p :=
  ⟨(List.append_nil _).symm, (List.append_nil _).symm⟩

theorem Births.trans {bs bs' : List (Birth S)} {p₁ : Program S P}
    (h : Births bs p p₁) (h' : Births bs' p₁ p') :
    Births (bs ++ bs') p p' := by
  constructor
  · rw [h'.1, h.1, List.map_append, List.append_assoc]
  · rw [h'.2, h.2, List.map_append, List.append_assoc]

theorem tick_births {t : Tick S} (h : tick number p t = some p') :
    ∃ bs, Births bs p p' := by
  cases hu : p.uncaught with
  | none =>
      obtain ⟨rfl, hasked⟩ := tick_some hu h
      exact ⟨t.born, hasked, rfl⟩
  | some what =>
      unfold tick at h
      rw [hu] at h
      cases h
      exact ⟨[], Births.refl p⟩

theorem ticks_births : ∀ {ts : List (Tick S)} {p p' : Program S P},
    ts.foldlM (tick number) p = some p' → ∃ bs, Births bs p p'
  | [], p, p', h => by
      cases h
      exact ⟨[], Births.refl p⟩
  | t :: ts, p, p', h => by
      rw [List.foldlM_cons] at h
      obtain ⟨p₁, h₁, hrest⟩ := Option.bind_eq_some_iff.mp h
      obtain ⟨bs, hbs⟩ := tick_births h₁
      obtain ⟨bs', hbs'⟩ := ticks_births hrest
      exact ⟨bs ++ bs', hbs.trans hbs'⟩

/-- A new downloader has not called. -/
theorem calls_birth (b : Birth S) : calls (b.world P) = [] := by
  rcases b.run_or P with ⟨-, hstarted⟩ | ⟨-, hrefused⟩
  · obtain ⟨sock, backlog, uri, fname, resources, fault, hrun⟩ := hstarted
    obtain ⟨uriParsed, text, heq⟩ := DownloaderSimple.run_true hrun
    unfold calls
    rw [heq]
    rfl
  · exact hrefused.silent

/-! ## The jobs meanwhile -/

theorem Amid.fresh {told : Bool} (h : Amid number w' told p)
    (bs : List (Birth S)) :
    OnTickSimple.Fresh (Birth.creations P p.downloaders.length bs) number
      p.onTick := by
  intro creation hcreation
  have hbeyond : ∀ m, creation.downloader = some m →
      p.downloaders.length ≤ m := fun m hm =>
    (Birth.mem_made.mp (List.mem_filterMap.mpr ⟨creation, hcreation, hm⟩)).1
  refine ⟨fun hd => ?_, fun job hjob hsome hd => ?_⟩
  · exact absurd (List.getElem?_eq_some_iff.mp h.world).1
      (Nat.not_lt.mpr (hbeyond number hd))
  · obtain ⟨m, hm⟩ := Option.isSome_iff_exists.mp hsome
    have hknown := h.known
      (OnTickSimple.mem_staff.mpr ⟨job, hjob, hd ▸ hm⟩)
    exact absurd hknown (Nat.not_lt.mpr (hbeyond m hm))

theorem Amid.tick_jobs {told : Bool} {t : Tick S} (h : Amid number w' told p)
    (hu : p.uncaught = none) (ht : tick number p t = some p') :
    Lib.Graph OnTickSimple.step p.onTick
      (.invoke number t.status
        (Birth.creations P p.downloaders.length t.born)) p'.onTick := by
  obtain ⟨rfl, -⟩ := tick_some hu ht
  unfold Lib.Graph OnTickSimple.step
  simp only []
  rw [if_pos (h.fresh t.born)]
  rfl

theorem Amid.tick_next {told : Bool} {t : Tick S} (h : Amid number w' told p)
    (hu : p.uncaught = none) (ht : tick number p t = some p') :
    ∃ told', Amid number w' told' p' := by
  cases told with
  | true => exact ⟨true, (h.tick_told hu ht).1⟩
  | false =>
      cases hfinal : t.status.state.final with
      | true => exact ⟨true, (h.tick_final hu hfinal ht).1⟩
      | false => exact ⟨false, (h.tick_underway hu hfinal ht).1⟩

theorem Amid.jobs : ∀ {ts : List (Tick S)} {told : Bool} {p p' : Program S P},
    Amid number w' told p → ts.foldlM (tick number) p = some p' →
    ∃ jobs, OnTickSimple.Runs p.onTick jobs p'.onTick
  | [], told, p, p', h, ht => by
      cases ht
      exact ⟨[], .nil⟩
  | t :: ts, told, p, p', h, ht => by
      rw [List.foldlM_cons] at ht
      obtain ⟨p₁, h₁, hrest⟩ := Option.bind_eq_some_iff.mp ht
      cases hu : p.uncaught with
      | none =>
          have hstep := h.tick_jobs hu h₁
          obtain ⟨told', h'⟩ := h.tick_next hu h₁
          obtain ⟨jobs, hjobs⟩ := h'.jobs hrest
          have hhead : OnTickSimple.Runs p.onTick _ p₁.onTick :=
            Run.nil.snoc hstep
          exact ⟨_, hhead.append hjobs⟩
      | some what =>
          have hsame : p₁ = p := by
            unfold tick at h₁
            rw [hu] at h₁
            cases h₁
            rfl
          rw [hsame] at hrest
          exact h.jobs hrest

/-! ## Turns -/

/-- A downloader takes a step in the program. It is stopped only while its
download goes on. -/
def Turn (C : DownloaderSimple.World S P → DownloaderSimple.Occurrence S → Prop)
    (p : Program S P) (e : Nat × DownloaderSimple.Occurrence S)
    (p' : Program S P) : Prop :=
  ∃ w w' ts, p.uncaught = none ∧ p.downloaders[e.1]? = some w ∧
    Lib.Graph DownloaderSimple.step w e.2 w' ∧ C w e.2 ∧
    (e.2.event = .stop → DownloaderSimple.Going w) ∧
    moved e.1 w w' ts p = some p'

omit [TCPSocket S] [HttpParser P] in
theorem mem_set {xs : List (DownloaderSimple.World S P)} {i : Nat}
    {x y : DownloaderSimple.World S P} (h : y ∈ xs.set i x) :
    y ∈ xs ∨ y = x :=
  List.mem_or_eq_of_mem_set h

omit [HttpParser P] in
/-- The program as the calls of an event find it. -/
theorem Staffed.amid (h : Staffed p) (hw : p.downloaders[number]? = some w)
    (hstanding : DownloaderSimple.Standing w') :
    Amid number w' (!decide (DownloaderSimple.Going w))
      { p with downloaders := p.downloaders.set number w' } := by
  have hlt := (List.getElem?_eq_some_iff.mp hw).1
  refine ⟨⟨?_, ?_, h.nodup, h.running⟩, ?_, ?_, ?_⟩
  · exact h.asked.trans (List.length_set ..).symm
  · intro x hx
    rcases mem_set hx with hx | rfl
    · exact h.standing x hx
    · exact hstanding
  · intro m hne
    refine (h.staff m).trans ?_
    unfold Works
    simp only [List.getElem?_set_ne hne.symm]
  · refine (h.staff number).trans ?_
    rw [Bool.not_eq_false', decide_eq_true_iff]
    constructor
    · rintro ⟨x, hx, hg⟩
      rw [hw] at hx
      cases hx
      exact hg
    · exact fun hg => ⟨w, hw, hg⟩
  · exact List.getElem?_set_self hlt

variable {C : DownloaderSimple.World S P → DownloaderSimple.Occurrence S → Prop}
  {e : Nat × DownloaderSimple.Occurrence S}

/-- How a downloader stands after a step. -/
theorem standing_step {o : DownloaderSimple.Occurrence S}
    (h : DownloaderSimple.Standing w)
    (hs : Lib.Graph DownloaderSimple.step w o w')
    (hstop : o.event = .stop → DownloaderSimple.Going w) :
    DownloaderSimple.Standing w' ∧
      (DownloaderSimple.Going w' ↔
        (!decide (DownloaderSimple.Going w) ||
          ((reports w w').map Report.final).any id) = false) := by
  have hcalls := calls_append (DownloaderSimple.trace_step hs)
  have hany := any_calls w'
  rw [hcalls, List.map_append, List.any_append, any_calls w] at hany
  by_cases hg : DownloaderSimple.Going w
  · obtain ⟨hstands, hiff⟩ := hg.step h hs
    rw [hg.2, Bool.false_or] at hany
    refine ⟨hstands, hiff.trans ?_⟩
    rw [decide_eq_true hg, hany]
    rfl
  · obtain ⟨hstands, hno⟩ := h.step_idle hg (fun hev => hg (hstop hev)) hs
    refine ⟨hstands, iff_of_false hno ?_⟩
    rw [decide_eq_false hg]
    exact nofun

/-- What a turn does. -/
structure Turned (e : Nat × DownloaderSimple.Occurrence S)
    (w w' : DownloaderSimple.World S P) (p p' : Program S P) : Prop where
  staffed : Staffed p'
  thrown : p'.uncaught.isSome = true ↔
    late (!decide (DownloaderSimple.Going w))
      ((reports w w').map Report.final) = true
  births : ∃ bs : List (Birth S),
    p'.onTick.requests = p.onTick.requests ++ bs.map Birth.request ∧
      p'.downloaders = p.downloaders.set e.1 w' ++ bs.map (Birth.world P)
  jobs : ∃ jobs, OnTickSimple.Runs p.onTick jobs p'.onTick

theorem Staffed.moved {o : DownloaderSimple.Occurrence S} {ts : List (Tick S)}
    (h : Staffed p) (hu : p.uncaught = none)
    (hw : p.downloaders[number]? = some w)
    (hs : Lib.Graph DownloaderSimple.step w o w')
    (hstop : o.event = .stop → DownloaderSimple.Going w)
    (hm : moved number w w' ts p = some p') :
    Turned (number, o) w w' p p' := by
  obtain ⟨hseen, hticks⟩ := moved_some hm
  obtain ⟨hstands, hgoing⟩ :=
    standing_step (h.standing w (List.mem_of_getElem? hw)) hs hstop
  have hamid := h.amid hw hstands
  obtain ⟨ha, hthrown⟩ := hamid.ticks hu hticks
  have hfinals : (ts.map fun t => t.status.state.final) =
      (reports w w').map Report.final := by
    rw [← hseen.finals, List.map_map]
    rfl
  rw [hfinals] at ha hthrown
  obtain ⟨bs, hbs⟩ := ticks_births hticks
  refine ⟨⟨ha.toManned, fun m => ?_⟩, hthrown, ⟨bs, hbs⟩, hamid.jobs hticks⟩
  by_cases heq : m = number
  · subst heq
    rw [ha.own, ← hgoing]
    constructor
    · exact fun hg => ⟨w', ha.world, hg⟩
    · rintro ⟨x, hx, hg⟩
      rw [ha.world] at hx
      cases hx
      exact hg
  · exact ha.others m heq

theorem Turn.turned (h : Staffed p) (ht : Turn C p e p') :
    ∃ w w', p.downloaders[e.1]? = some w ∧
      Lib.Graph DownloaderSimple.step w e.2 w' ∧ C w e.2 ∧
      Turned e w w' p p' := by
  obtain ⟨w, w', ts, hu, hw, hs, hc, hstop, hm⟩ := ht
  exact ⟨w, w', hw, hs, hc, h.moved hu hw hs hstop hm⟩

/-! ## The handler of SIGINT -/

/-- A stop as an occurrence. -/
def Stop.occurrence (s : Stop S) : DownloaderSimple.Occurrence S :=
  ⟨.stop, s.sock, s.faults⟩

theorem stop_step (s : Stop S) (hg : DownloaderSimple.Going w) :
    Lib.Graph DownloaderSimple.step w s.occurrence
      (DownloaderSimple.stop (DownloaderSimple.found w s.occurrence)) := by
  unfold Lib.Graph DownloaderSimple.step DownloaderSimple.handle
  simp only [Stop.occurrence]
  exact if_neg (Bool.eq_false_iff.mp hg.2)

/-- A stop is told by one call. -/
theorem stop_reports (s : Stop S) (hg : DownloaderSimple.Going w) :
    reports w (DownloaderSimple.stop (DownloaderSimple.found w s.occurrence)) =
      [DownloaderSimple.failedReport w] := by
  have hfailing := DownloaderSimple.failing "Abort."
    (DownloaderSimple.found w s.occurrence)
  have hcalls := calls_append
    (DownloaderSimple.trace_step (stop_step s hg))
  unfold calls DownloaderSimple.stop at hcalls
  rw [hfailing.trace, List.filterMap_append] at hcalls
  exact (List.append_cancel_left hcalls).symm

/-- The turns the handler gives to the downloaders it has found. -/
theorem stopAll_turns : ∀ {numbers : List (Option Nat)} {stops : List (Stop S)}
    {p p' : Program S P}, Staffed p → p.uncaught = none →
    (∀ n ∈ numbers, ∃ m ∈ p.onTick.staff, n = some m) → numbers.Nodup →
    (∀ pair ∈ numbers.zip stops, ∀ m ∈ pair.1, ∀ w ∈ p.downloaders[m]?,
      C w pair.2.occurrence) →
    stopAll numbers stops p = some p' →
    Staffed p' ∧ p'.uncaught = none ∧ ∃ hist, Run (Turn C) p hist p'
  | [], [], p, p', h, hu, _, _, _, hs => by
      cases hs
      exact ⟨h, hu, [], .nil⟩
  | [], _ :: _, _, _, _, _, _, _, _, hs => by cases hs
  | some _ :: _, [], _, _, _, _, _, _, _, hs => by cases hs
  | none :: _, _, _, _, _, _, hmem, _, _, _ => by
      obtain ⟨m, -, hm⟩ := hmem none List.mem_cons_self
      cases hm
  | some m :: numbers, s :: stops, p, p', h, hu, hmem, hnodup, hC, hs => by
      obtain ⟨hnot, hnodup'⟩ := List.nodup_cons.mp hnodup
      obtain ⟨m', hm', heq⟩ := hmem (some m) List.mem_cons_self
      cases heq
      obtain ⟨w, hw, hg⟩ := (h.staff m).mp hm'
      unfold stopAll at hs
      rw [hu, hw] at hs
      simp only [Option.isSome_none, Bool.false_eq_true, if_false] at hs
      obtain ⟨p₁, h₁, hrest⟩ := Option.bind_eq_some_iff.mp hs
      have hstep := stop_step s hg
      have hturned := h.moved hu hw hstep (fun _ => hg) h₁
      have hu₁ : p₁.uncaught = none := by
        have hnone : ¬ p₁.uncaught.isSome = true := fun hsome => by
          have hlate := hturned.thrown.mp hsome
          rw [stop_reports s hg, decide_eq_true hg] at hlate
          cases hlate
        exact Option.not_isSome_iff_eq_none.mp hnone
      obtain ⟨bs, -, hxs⟩ := hturned.births
      have hsame : ∀ k, k ≠ m → k ∈ p.onTick.staff →
          p₁.downloaders[k]? = p.downloaders[k]? := fun k hne hk => by
        obtain ⟨x, hx, -⟩ := (h.staff k).mp hk
        have hlt := (List.getElem?_eq_some_iff.mp hx).1
        rw [hxs, List.getElem?_append_left (by rw [List.length_set]; exact hlt),
          List.getElem?_set_ne hne.symm]
      have hother : ∀ n ∈ numbers, ∃ k ∈ p.onTick.staff, n = some k ∧ k ≠ m :=
        fun n hn => by
          obtain ⟨k, hk, rfl⟩ := hmem n (List.mem_cons_of_mem _ hn)
          exact ⟨k, hk, rfl, fun heq => hnot (heq ▸ hn)⟩
      have hih := stopAll_turns hturned.staffed hu₁ (fun n hn => by
          obtain ⟨k, hk, hn', hne⟩ := hother n hn
          obtain ⟨x, hx, hg'⟩ := (h.staff k).mp hk
          refine ⟨k, (hturned.staffed.staff k).mpr ⟨x, ?_, hg'⟩, hn'⟩
          rw [hsame k hne hk]
          exact hx) hnodup' (fun pair hpair k hk x hx => by
          obtain ⟨k', hk', heq, hne⟩ := hother pair.1 (List.of_mem_zip hpair).1
          rw [Option.mem_def.mp hk] at heq
          cases heq
          rw [hsame k hne hk'] at hx
          exact hC pair (List.mem_cons_of_mem _ hpair) k hk x hx) hrest
      obtain ⟨hstaffed, hu', hist, hr⟩ := hih
      have hturn : Turn C p (m, s.occurrence) p₁ :=
        ⟨w, _, s.ticks, hu, hw, hstep,
          hC (some m, s) List.mem_cons_self m rfl w hw, fun _ => hg, h₁⟩
      have hhead : Run (Turn C) p [(p, (m, s.occurrence))] p₁ :=
        Run.nil.snoc hturn
      exact ⟨hstaffed, hu', _, hhead.append hr⟩

/-! ## The events -/

/-- A condition on what happens to a downloader, for an event of the program. -/
def Meeting (C : DownloaderSimple.World S P →
    DownloaderSimple.Occurrence S → Prop) (p : Program S P) :
    Event S → Prop
  | .downloader number o _ => ∀ w ∈ p.downloaders[number]?, C w o
  | .interrupt stops =>
      ∀ pair ∈ (p.onTick.jobList.map Job.downloader).zip stops,
        ∀ number ∈ pair.1, ∀ w ∈ p.downloaders[number]?,
        C w pair.2.occurrence
  | .idle => True

instance (C : DownloaderSimple.World S P → DownloaderSimple.Occurrence S →
    Prop) [∀ w o, Decidable (C w o)] (p : Program S P) :
    ∀ e, Decidable (Meeting C p e)
  | .downloader number o _ =>
      inferInstanceAs (Decidable (∀ w ∈ p.downloaders[number]?, C w o))
  | .interrupt stops =>
      inferInstanceAs (Decidable (∀ pair ∈ (p.onTick.jobList.map
        Job.downloader).zip stops, ∀ number ∈ pair.1,
        ∀ w ∈ p.downloaders[number]?, C w pair.2.occurrence))
  | .idle => inferInstanceAs (Decidable True)

/-- What an event does besides the turns it gives: the factory is given up, and
the handlers of the loop are done. -/
structure Cleared (p p' : Program S P) : Prop where
  frame : ∃ factory watching idle, p' =
    { p with
      onTick.factory := factory
      watching := watching
      idle := idle }
  jobs : ∃ jobs, OnTickSimple.Runs p.onTick jobs p'.onTick

omit [TCPSocket S] [HttpParser P] in
theorem jobs_nodup {w : OnTickSimple Nat} (hnodup : w.staff.Nodup)
    (hrunning : ∀ job ∈ w.jobList, job.downloader ≠ none) :
    (w.jobList.map Job.downloader).Nodup := by
  have hmap : ∀ jobs : List (Job Nat),
      (∀ job ∈ jobs, job.downloader ≠ none) →
      jobs.map Job.downloader = (OnTickSimple.staffed jobs).map some := by
    intro jobs h
    induction jobs with
    | nil => rfl
    | cons job jobs ih =>
        have hih := ih fun j hj => h j (List.mem_cons_of_mem _ hj)
        cases hd : job.downloader with
        | none => exact absurd hd (h job List.mem_cons_self)
        | some d =>
            unfold OnTickSimple.staffed at hih ⊢
            rw [List.filterMap_cons_some hd, List.map_cons, List.map_cons,
              ← hih, hd]
  rw [hmap _ hrunning]
  exact hnodup.map fun _ _ h => Option.some.inj h

omit [TCPSocket S] [HttpParser P] in
theorem cleared_expire (watching : Bool) (p : Program S P) :
    Cleared p { p with onTick.factory := false, watching := watching } :=
  ⟨⟨false, watching, p.idle, rfl⟩, [(p.onTick, .expire)], Run.nil.snoc rfl⟩

omit [HttpParser P] in
theorem Cleared.staffed {p p' : Program S P} (hc : Cleared p p')
    (h : Staffed p) : Staffed p' := by
  obtain ⟨⟨factory, watching, idle, rfl⟩, -⟩ := hc
  exact ⟨⟨h.asked, h.standing, h.nodup, h.running⟩, h.staff⟩

/-- An event is some turns of the downloaders, one after the other. -/
theorem step_turns {p p' : Program S P} {e : Event S} (h : Staffed p)
    (hC : Meeting C p e) (hs : Lib.Graph step p e p') :
    ∃ p₀ hist, Cleared p p₀ ∧ Run (Turn C) p₀ hist p' := by
  unfold Lib.Graph step at hs
  split at hs
  · cases hs
  · next hcalm =>
      have hu : p.uncaught = none := Option.not_isSome_iff_eq_none.mp hcalm
      cases e with
      | downloader number o ts =>
          simp only [] at hs
          split at hs
          · cases hs
          · next hstop =>
              split at hs
              · cases hs
              · next w hw =>
                  obtain ⟨w', hstep, hm⟩ := Option.bind_eq_some_iff.mp hs
                  have hturn : Turn C p (number, o) p' :=
                    ⟨w, w', ts, hu, hw, hstep, hC w hw,
                      fun hev => absurd hev hstop, hm⟩
                  exact ⟨p, _, ⟨⟨_, _, _, rfl⟩, [], .nil⟩,
                    Run.nil.snoc hturn⟩
      | interrupt stops =>
          simp only [] at hs
          split at hs
          · have hclear := cleared_expire false p
            obtain ⟨-, -, hist, hr⟩ := stopAll_turns (C := C)
              (hclear.staffed h) hu (fun n hn => by
                obtain ⟨job, hjob, rfl⟩ := List.mem_map.mp hn
                obtain ⟨m, hm⟩ :=
                  Option.ne_none_iff_exists'.mp (h.running job hjob)
                exact ⟨m, OnTickSimple.mem_staff.mpr ⟨job, hjob, hm⟩, hm⟩)
              (jobs_nodup h.nodup h.running) hC hs
            exact ⟨_, hist, hclear, hr⟩
          · cases hs
      | idle =>
          simp only [] at hs
          split at hs
          · cases hs
            refine ⟨onIdle p, [], ⟨?_, ?_⟩, .nil⟩
            · unfold onIdle
              split <;> exact ⟨_, _, _, rfl⟩
            · unfold onIdle
              split <;> exact ⟨[], .nil⟩
          · cases hs

/-! ## The beginning -/

theorem launch_some {concurrency : Nat} {tasks : TaskList}
    {born : List (Birth S)} {p : Program S P}
    (h : launch concurrency tasks born = some p) :
    p = { onTick := OnTickSimple.mainJobs concurrency tasks
            (Birth.creations P 0 born),
          downloaders := born.map (Birth.world P) } ∧
      p.onTick.requests = born.map Birth.request := by
  unfold launch at h
  simp only [] at h
  split at h
  · next hasked =>
      cases h
      exact ⟨rfl, hasked⟩
  · cases h

theorem launch_staffed {concurrency : Nat} {tasks : TaskList}
    {born : List (Birth S)} {p : Program S P}
    (h : launch concurrency tasks born = some p) : Staffed p := by
  obtain ⟨rfl, hasked⟩ := launch_some h
  obtain ⟨asked, hr⟩ := OnTickSimple.recruited_startUp concurrency
    ({ taskList := tasks, creations := Birth.creations P 0 born } :
      OnTickSimple Nat)
  have heq : asked = born.map Birth.request :=
    (hr.requests.symm.trans hasked : [] ++ asked = _)
  have hperm : (OnTickSimple.mainJobs concurrency tasks
      (Birth.creations P 0 born)).staff.Perm (Birth.made P 0 born) := by
    have hstaff := hr.staff
    rw [heq, List.length_map, ← Birth.length_creations (P := P) 0,
      OnTickSimple.hired, List.take_length] at hstaff
    exact hstaff
  refine ⟨⟨?_, ?_, hperm.nodup_iff.mpr (Birth.nodup_made 0 born), ?_⟩, ?_⟩
  · show List.length (OnTickSimple.requests _) = _
    rw [hasked, List.length_map, List.length_map]
  · intro w hw
    obtain ⟨b, -, rfl⟩ := List.mem_map.mp hw
    exact b.standing P
  · exact (OnTickSimple.startUp_jobs fun job hjob =>
      absurd hjob List.not_mem_nil).1
  · intro number
    refine hperm.mem_iff.trans ?_
    have hworks := Birth.works_append (P := P) [] born number
    rw [List.nil_append] at hworks
    refine (hworks.trans (or_iff_right ?_)).symm
    rintro ⟨w, hw, -⟩
    cases hw

/-- The rule for what holds in every state of the program: it holds at the
beginning, and no turn of a downloader that meets the condition ends it. -/
theorem Staffed.always {I : Program S P → Prop} {p₀ p : Program S P}
    {hist : List (Program S P × Event S)} (h₀ : Staffed p₀)
    (hr : Runs p₀ hist p) (hC : Meets (Meeting C) hist) (hI₀ : I p₀)
    (hclear : ∀ {p p'}, Cleared p p' → I p → I p')
    (hturn : ∀ {p e p'}, Staffed p → I p → Turn C p e p' → I p') :
    Staffed p ∧ I p := by
  refine hr.invariant (fun p => Staffed p ∧ I p) hC ⟨h₀, hI₀⟩ ?_
  rintro p e p' ⟨hp, hI⟩ hCe hs
  obtain ⟨p₁, turns, hcleared, hrun⟩ := step_turns hp hCe hs
  refine hrun.invariant' (fun p => Staffed p ∧ I p)
    ⟨hcleared.staffed hp, hclear hcleared hI⟩ ?_
  rintro q e' q' ⟨hq, hIq⟩ ht
  obtain ⟨_, _, -, -, -, hturned⟩ := ht.turned hq
  exact ⟨hturned.staffed, hturn hq hIq ht⟩

end Program

end EcwidDownloader
