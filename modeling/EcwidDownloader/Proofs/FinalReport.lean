import EcwidDownloader.Proofs.DownloaderAfter
import EcwidDownloader.Proofs.DownloaderParked

/-!
# The single final report

The downloader finishes from two callbacks. That of the shutdown reports when
the file is not open, which is meant to say that it has been closed, but is also
true of a file whose open is still in flight; that of a redirection does not
look at the file at all. An operation of the file that completes afterwards
makes its own report. The third way to report twice is a read timeout that
cannot be armed.

In every run without these events there is at most one final report, and nothing
after it.
-/

namespace EcwidDownloader

open Lib

namespace DownloaderSimple

variable {S P : Type}

/-- At most one `on_tick->invoke` with a final status, and after it neither
another call nor a change of `m_status.state`. -/
def SingleFinal (trace : List Mark) : Prop :=
  ∀ before r after, trace = before ++ .invoked r :: after → r.final = true →
    ∀ m ∈ after, ∃ r', m = .assigned r' ∧ r'.state = r.state

/-- A shutdown that makes its report while an operation of the file is in
flight. -/
def ReportsEarly (w : World S P) (event : Event) : Prop :=
  event = .socket .shutdownEvent ∧ w.owner.fileOps ≠ [] ∧
    (listens (.shutdownDone .reportRedirect) w ∨
      listens (.shutdownDone .reportDone) w ∧ w.owner.fileOpenned = false)

/-- None of the events after which there is more than one report. -/
def Orderly [HttpParser P] (w : World S P) (o : Occurrence S) : Prop :=
  ¬ TimerFails (found w o) o.event ∧ ¬ ReportsEarly w o.event

instance [HttpParser P] (w : World S P) (event : Event) :
    Decidable (TimerFails w event) :=
  inferInstanceAs (Decidable (_ ∧ ∃ r, parsed w event = some r ∧ _))

instance (w : World S P) (event : Event) : Decidable (ReportsEarly w event) :=
  inferInstanceAs (Decidable (_ ∧ _ ∧ (_ ∨ _ ∧ _)))

/-! ## Reading a trace -/

theorem singleFinal_underway {trace : List Mark} (h : Underway trace) :
    SingleFinal trace := by
  intro before r after heq hfinal
  have hmem : Mark.invoked r ∈ trace :=
    heq ▸ List.mem_append_right _ List.mem_cons_self
  exact absurd ((h _ hmem).symm.trans hfinal) Bool.false_ne_true

/-- A final report at the end of a trace is the only one. -/
theorem singleFinal_report {r : Report} : ∀ {before : List Mark},
    Underway before → SingleFinal (before ++ [.assigned r, .invoked r])
  | [], _ => by
      intro before r' after heq hfinal
      rcases before with _ | ⟨m, _ | ⟨m', before⟩⟩
      · cases heq
      · cases heq
        exact fun m hm => absurd hm List.not_mem_nil
      · cases before <;> cases heq
  | m :: before, h => by
      have htail := singleFinal_report (r := r)
        fun m' hm' => h m' (List.mem_cons_of_mem _ hm')
      intro before' r' after heq hfinal
      rcases before' with _ | ⟨m', before'⟩
      · obtain ⟨rfl, -⟩ := List.cons.inj heq
        exact absurd ((h _ List.mem_cons_self).symm.trans hfinal)
          Bool.false_ne_true
      · exact htail before' r' after (List.cons.inj heq).2 hfinal

/-- With a single final report at most one mark is of that kind. -/
theorem SingleFinal.length_le : ∀ {trace : List Mark}, SingleFinal trace →
    (trace.filter Mark.reportsFinal).length ≤ 1
  | [], _ => Nat.zero_le _
  | m :: trace, h => by
      cases hm : m.reportsFinal with
      | true =>
          cases m with
          | assigned r => cases hm
          | invoked r =>
              have hnone : trace.filter Mark.reportsFinal = [] := by
                rw [List.filter_eq_nil_iff]
                intro m' hm'
                obtain ⟨r', rfl, -⟩ := h [] r trace rfl hm m' hm'
                exact Bool.false_ne_true
              rw [List.filter_cons_of_pos hm, hnone]
              exact Nat.le_refl _
      | false =>
          rw [List.filter_cons_of_neg (by rw [hm]; exact Bool.false_ne_true)]
          refine length_le fun before r after heq => ?_
          exact h (m :: before) r after (congrArg (m :: ·) heq)

/-! ## The invariant -/

/-- A download that has made its final report and cannot make another. -/
structure FinalReportMade (w : World S P) : Prop where
  net : NetSilent w
  file : w.owner.fileOps = [] ∨ FileSilent w
  trace : ∃ before r, Underway before ∧ r.state.final = true ∧
    w.owner.trace = before ++ [.assigned r, .invoked r]

theorem FinalReportMade.stopped {w : World S P} (h : FinalReportMade w) :
    w.owner.trace.any Mark.reportsFinal = true := by
  obtain ⟨before, r, -, hr, ht⟩ := h.trace
  rw [ht, List.any_append, Bool.or_eq_true]
  exact .inr (by simpa [Mark.reportsFinal, Report.final] using hr)

theorem Failed.settled {w : World S P} (h : Failed w) : FinalReportMade w := by
  obtain ⟨before, r, hb, hr, ht⟩ := h.trace
  exact ⟨h.past.net, .inr h.past.file, before, r, hb, by rw [hr]; rfl, ht⟩

theorem Reported.settled {state : State} {f : Fil} {w : World S P}
    (h : Reported state f w) (hfinal : state.final = true)
    (hops : w.owner.fileOps = []) : FinalReportMade w := by
  obtain ⟨before, hb, ht⟩ := h.trace
  refine ⟨h.net, .inl hops, before, report w, hb, ?_, ht⟩
  show w.owner.status.state.final = true
  rw [h.state]
  exact hfinal

variable [TCPSocket S]

/-- What holds in every state of an orderly run. -/
def Accounted (w : World S P) : Prop :=
  (∃ n f, n.settled = true ∧ Alive (anything S) n f w) ∨ FinalReportMade w

theorem Accounted.singleFinal {w : World S P} (h : Accounted w) :
    SingleFinal w.owner.trace := by
  rcases h with ⟨n, f, -, ha⟩ | hset
  · exact singleFinal_underway ha.online.trace
  · obtain ⟨before, r, hb, -, ht⟩ := hset.trace
    rw [ht]
    exact singleFinal_report hb

variable [HttpParser P]

theorem FinalReportMade.handled {w w' : World S P} {event : Event}
    (h : FinalReportMade w) (hw : Handled w event w') :
    FinalReportMade w' := by
  have hstop : event ≠ .stop := by
    rintro rfl
    cases hw with
    | stop hno => exact hno h.stopped
  rcases h.file with hops | hfile
  · cases h.net.late hstop hw with
    | unheard hunheard =>
        obtain ⟨hnet, -, -, resolver, socket, netTimer, timerArmed,
          peerEnded, rfl⟩ := hunheard
        exact ⟨hnet, .inl hops, h.trace⟩
    | fileFailed err hop => rw [hops] at hop; cases hop
    | fileDone hop _ => rw [hops] at hop; cases hop
  · have hpass := Over.handled ⟨h.net, hfile⟩ hstop hw
    exact ⟨hpass.past.net, .inr hpass.past.file,
      hpass.unseen.trace ▸ h.trace⟩

theorem Accounted.step {w w' : World S P} {o : Occurrence S}
    (h : Accounted w) (ho : Orderly w o) (hs : Lib.Graph step w o w') :
    Accounted w' := by
  have hh : Handled (DownloaderSimple.found w o) o.event w' :=
    handled_of_handle hs
  rcases h with ⟨n, f, hn, ha⟩ | hset
  · cases (ha.found trivial).step hn hh (fun _ => trivial)
      (fun _ _ _ _ hstall => hstall.2.2.2 trivial) with
    | alive hn' ha' => exact .inl ⟨_, _, hn', ha'⟩
    | failed hf _ => exact .inr hf.settled
    | lapsed ht _ => exact absurd ht ho.1
    | closed hr =>
        exact .inr (hr.settled rfl hr.pipe.stored.1)
    | @shutDown f' cb he hl hpipe hopen _ hr =>
        refine .inr (hr.settled (by cases cb <;> rfl) ?_)
        have hops : w'.owner.fileOps = w.owner.fileOps :=
          congrArg Pipeline.ops hpipe
        rw [hops]
        by_contra hne
        refine ho.2 ⟨he, hne, ?_⟩
        cases cb with
        | reportRedirect => exact .inl hl
        | reportDone => exact .inr ⟨hl, hopen rfl⟩
  · have hfound : FinalReportMade (DownloaderSimple.found w o) :=
      ⟨hset.net.congr, hset.file, hset.trace⟩
    exact .inr (hfound.handled hh)

/-- In an orderly run of a downloader there is one final report at most, and
nothing is reported or changed after it. -/
theorem final_report_single {w₀ w : World S P}
    {hist : List (World S P × Occurrence S)} (h₀ : Started w₀)
    (hr : Runs w₀ hist w) (hC : Meets Orderly hist) :
    ∀ x, Passes hist w x → SingleFinal x.owner.trace := by
  intro x hx
  refine hr.always (P := fun w => SingleFinal w.owner.trace) hC ?_ hx
  intro hist' w' hr' hC'
  refine Accounted.singleFinal (hr'.invariant Accounted hC'
    (.inl ⟨.resolving, .none, rfl, started_alive h₀⟩) ?_)
  exact fun w₁ o w₂ hI ho hs => hI.step ho hs

/-- The shutdown of the socket completes before the open of the file. -/
def shutdownFirst : List (Occurrence TCPSocketBandwidth) :=
  requested ++
    [plainly (.socket (.dataEvent oneByte)), plainly (.socket .shutdownEvent),
      plainly (.file 0 (.ok 0)), plainly (.file 0 (.ok 1)),
      plainly (.file 0 (.ok 0))]

/-- Then the download is reported as done twice. -/
theorem final_report_twice :
    ¬ ∀ (w₀ w : World TCPSocketBandwidth (Scripted oneSegment))
      (hist : List (World TCPSocketBandwidth (Scripted oneSegment) ×
        Occurrence TCPSocketBandwidth)), Started w₀ → Runs w₀ hist w →
      ∀ x, Passes hist w x → SingleFinal x.owner.trace := by
  intro hall
  obtain ⟨hist, w, hexec, hcount⟩ : ∃ hist w,
      exec step (begun oneSegment) shutdownFirst = some (hist, w) ∧
        (w.owner.trace.filter Mark.reportsFinal).length = 2 :=
    ⟨_, _, rfl, rfl⟩
  have hsingle := hall _ w hist (started_begun oneSegment)
    (run_of_exec hexec) w .last
  have hle := hsingle.length_le
  rw [hcount] at hle
  exact absurd hle (by decide)

/-- The open of the file completes before the shutdown of the socket. -/
def openFirst : List (Occurrence TCPSocketBandwidth) :=
  requested ++
    [plainly (.socket (.dataEvent oneByte)), plainly (.file 0 (.ok 0)),
      plainly (.file 0 (.ok 1)), plainly (.socket .shutdownEvent),
      plainly (.file 0 (.ok 0))]

/-- Then the download is reported as done once. -/
theorem final_report_openFirst : ∃ hist w,
    Runs (begun oneSegment) hist w ∧
      (w.owner.trace.filter Mark.reportsFinal).length = 1 ∧
      ∀ x, Passes hist w x → SingleFinal x.owner.trace := by
  obtain ⟨hist, w, hexec, hcount, hC⟩ : ∃ hist w,
      exec step (begun oneSegment) openFirst = some (hist, w) ∧
        (w.owner.trace.filter Mark.reportsFinal).length = 1 ∧
        Meets Orderly hist :=
    ⟨_, _, rfl, rfl, by
      unfold Meets Orderly
      decide⟩
  exact ⟨hist, w, run_of_exec hexec, hcount,
    final_report_single (started_begun oneSegment) (run_of_exec hexec) hC⟩

end DownloaderSimple

end EcwidDownloader
