import EcwidDownloader.Jobs.Program
import EcwidDownloader.Proofs.FileContent
import EcwidDownloader.Proofs.FlowControl

/-!
# How a downloader stands

Whatever its surroundings do, a downloader the factory has made is in one of
three ways: its download goes on, it has made a final report, or `run` has
refused it. An event takes it out of the first way by a final report only, and
never out of the second or the third. Nothing is asked of the events here, so
this holds of every order in which its operations may end.
-/

namespace EcwidDownloader

open Lib

namespace DownloaderSimple

variable {S P : Type}

/-- The download has begun and no end of it was reported. -/
def Going (w : World S P) : Prop :=
  w.owner.status.state = .onTheGo ∧
    w.owner.trace.any Mark.reportsFinal = false

instance (w : World S P) : Decidable (Going w) :=
  inferInstanceAs (Decidable (_ ∧ _))

/-- `run` has returned false: no listener is left, nothing is in flight, and
`on_tick` was not called. -/
structure Unstarted (w : World S P) : Prop where
  net : NetSilent w
  ops : w.owner.fileOps = []
  state : w.owner.status.state = .failed
  silent : w.owner.trace.filterMap Program.called = []

theorem Unstarted.not_going {w : World S P} (h : Unstarted w) : ¬ Going w :=
  fun hg => absurd (h.state.symm.trans hg.1) nofun

variable [TCPSocket S]

inductive Standing (w : World S P) : Prop
  | alive {n : Net} {f : Fil} : n.settled = true →
      Alive (anything S) n f w → Standing w
  | reported : w.owner.trace.any Mark.reportsFinal = true → Standing w
  | unstarted : Unstarted w → Standing w

theorem Alive.going {D : Demands S} {n : Net} {f : Fil} {w : World S P}
    (h : Alive D n f w) : Going w :=
  ⟨h.online.state, Throttled.reportsFinal_of_underway h.online.trace⟩

theorem Standing.alive_of_going {w : World S P} (h : Standing w)
    (hg : Going w) : ∃ n f, n.settled = true ∧ Alive (anything S) n f w := by
  cases h with
  | alive hn ha => exact ⟨_, _, hn, ha⟩
  | reported hr => exact absurd (hr.symm.trans hg.2) nofun
  | unstarted hr => exact absurd hg hr.not_going

variable [HttpParser P] {w w' : World S P} {o : Occurrence S}

/-- A downloader only adds to what it has shown of itself. -/
theorem trace_step (hs : Lib.Graph step w o w') :
    w.owner.trace <+: w'.owner.trace := by
  obtain ⟨event, sock, faults⟩ := o
  have hh : Handled (found w ⟨event, sock, faults⟩) event w' :=
    handled_of_handle hs
  by_cases hend : event = .socket .endEvent
  · subst hend
    cases hh with
    | ended =>
        have hw : Within (fun _ : S => True) _
            (onSocketEvent .endEvent
              { found w ⟨.socket .endEvent, sock, faults⟩ with
                owner.peerEnded := true }) := abiding_true.onSocketEvent _ _
        exact hw.trace
    | socket _ _ hne => exact absurd rfl hne
  · exact (abiding_true.handled hh hend).trace

omit [TCPSocket S] [HttpParser P] in
theorem reported_pair {before : List Mark} {r : Report} {state : State}
    (hr : r.state = state) (hfinal : state.final = true)
    (ht : w.owner.trace = before ++ [.assigned r, .invoked r]) :
    w.owner.trace.any Mark.reportsFinal = true := by
  rw [ht]
  exact Throttled.reportsFinal_of_invoked (hr ▸ hfinal)

/-- An event of a download that goes on: it still does, or its end was
reported. -/
theorem Outcome.stands {event : Event} (h : Outcome (anything S) w event w') :
    Standing w' ∧
      (Going w' ↔ w'.owner.trace.any Mark.reportsFinal = false) := by
  have hreported : w'.owner.trace.any Mark.reportsFinal = true →
      Standing w' ∧
        (Going w' ↔ w'.owner.trace.any Mark.reportsFinal = false) :=
    fun hr => ⟨.reported hr, fun hg => hg.2,
      fun hno => absurd (hr.symm.trans hno) nofun⟩
  cases h with
  | alive hn ha => exact ⟨.alive hn ha, fun hg => hg.2, fun _ => ha.going⟩
  | failed hf _ _ =>
      obtain ⟨before, r, -, hr, ht⟩ := hf.trace
      exact hreported (reported_pair hr rfl ht)
  | lapsed _ hl _ => exact hreported (reported_failed hl.failed)
  | closed hr =>
      obtain ⟨before, -, ht⟩ := hr.trace
      exact hreported (reported_pair hr.state rfl ht)
  | shutDown cb _ _ _ _ _ hr =>
      obtain ⟨before, -, ht⟩ := hr.trace
      exact hreported (reported_pair hr.state (by cases cb <;> rfl) ht)

theorem Going.step (hg : Going w) (h : Standing w)
    (hs : Lib.Graph step w o w') : Standing w' ∧
      (Going w' ↔ w'.owner.trace.any Mark.reportsFinal = false) := by
  obtain ⟨n, f, hn, ha⟩ := h.alive_of_going hg
  exact ((ha.found trivial).step hn (handled_of_handle hs) (fun _ => trivial)
    fun _ _ _ _ hstall => hstall.2.2.2 trivial).stands

theorem Unstarted.step (h : Unstarted w) (hstop : o.event ≠ .stop)
    (hs : Lib.Graph step w o w') : Unstarted w' := by
  obtain ⟨event, sock, faults⟩ := o
  have hh : Handled (found w ⟨event, sock, faults⟩) event w' :=
    handled_of_handle hs
  have hops : (found w ⟨event, sock, faults⟩).owner.fileOps = [] := h.ops
  have hnet : NetSilent (found w ⟨event, sock, faults⟩) := h.net.congr
  cases hnet.late hstop hh with
  | unheard hunheard =>
      obtain ⟨hnet', -, -, resolver, socket, netTimer, timerArmed, peerEnded,
        rfl⟩ := hunheard
      exact ⟨hnet', h.ops, h.state, h.silent⟩
  | fileFailed err hop =>
      rw [hops] at hop
      cases hop
  | fileDone hop _ =>
      rw [hops] at hop
      cases hop

/-- A download that does not go on is not taken up again. -/
theorem Standing.step_idle (h : Standing w) (hg : ¬ Going w)
    (hstop : o.event ≠ .stop) (hs : Lib.Graph step w o w') :
    Standing w' ∧ ¬ Going w' := by
  cases h with
  | alive _ ha => exact absurd ha.going hg
  | reported hr =>
      have hr' := Throttled.reportsFinal_of_grown (trace_step hs) hr
      exact ⟨.reported hr', fun hg' => absurd (hr'.symm.trans hg'.2) nofun⟩
  | unstarted hr =>
      have hr' := hr.step hstop hs
      exact ⟨.unstarted hr', hr'.not_going⟩

/-! ## Its beginning -/

omit [HttpParser P] in
theorem createHandles_some {resources : Resources} {w w' : World S P}
    {text : String} (h : createHandles resources w = (some text, w'))
    (hw : NetSilent w) : NetSilent w' ∧ w'.owner.fileOps = w.owner.fileOps ∧
      w'.owner.trace = w.owner.trace ∧ account w' = account w := by
  unfold createHandles at h
  simp only [] at h
  split at h
  · cases h
    exact ⟨hw, rfl, rfl, rfl⟩
  · split at h
    · cases h
      exact ⟨⟨hw.resolver, rfl, hw.netTimer⟩, rfl, rfl, rfl⟩
    · split at h
      · cases h
        exact ⟨⟨hw.resolver, rfl, rfl⟩, rfl, rfl, rfl⟩
      · cases h

theorem run_unstarted {uri fname : String} {resources : Resources}
    {fault : Option ErrorEvent} {sock : S} {w' : World S P}
    (h : run uri fname resources fault { sock := sock, owner := {} } =
      (false, w')) : Unstarted w' := by
  have hstate := run_state h
  unfold run at h
  simp only [] at h
  split at h
  · cases h
    exact ⟨⟨rfl, rfl, rfl⟩, rfl, hstate, rfl⟩
  · split at h
    · next w₁ hcreate =>
        obtain ⟨hnet, hops, htrace, -⟩ := createHandles_some hcreate
          ⟨rfl, rfl, rfl⟩
        cases h
        refine ⟨hnet.congr, hops, hstate, ?_⟩
        show (w₁.owner.trace ++ [_]).filterMap Program.called = []
        rw [htrace]
        rfl
    · next w₁ hcreate =>
        have hcreated := createHandles_none hcreate
        subst hcreated
        cases fault with
        | none => cases h
        | some err =>
            simp only [] at h
            split at h
            · cases h
            · cases h
              exact ⟨⟨rfl, rfl, rfl⟩, rfl, hstate, rfl⟩

/-- A new downloader has the name of its file, and has opened nothing. -/
theorem run_account {uri fname : String} {resources : Resources}
    {fault : Option ErrorEvent} {sock : S} {runned : Bool} {w' : World S P}
    (h : run uri fname resources fault { sock := sock, owner := {} } =
      (runned, w')) :
    account w' = ⟨0, [], [], fname, []⟩ := by
  cases runned with
  | true =>
      obtain ⟨uriParsed, text, rfl⟩ := run_true h
      rfl
  | false =>
      unfold run at h
      simp only [] at h
      split at h
      · cases h
        rfl
      · split at h
        · next w₁ hcreate =>
            obtain ⟨-, -, -, haccount⟩ := createHandles_some hcreate
              ⟨rfl, rfl, rfl⟩
            cases h
            exact haccount
        · next w₁ hcreate =>
            have hcreated := createHandles_none hcreate
            subst hcreated
            cases fault with
            | none => cases h
            | some err =>
                simp only [] at h
                split at h
                · cases h
                · cases h
                  rfl

end DownloaderSimple

namespace Birth

variable {S : Type} [TCPSocket S] (P : Type) [HttpParser P]

/-- What `run` returns, and the downloader it leaves. -/
theorem run_or (b : Birth S) :
    (DownloaderSimple.run b.request.uri b.request.fname b.resources b.fault
        ({ sock := b.sock, owner := {} } : DownloaderSimple.World S P)).1 =
        true ∧ DownloaderSimple.Started (b.world P) ∨
      (DownloaderSimple.run b.request.uri b.request.fname b.resources b.fault
        ({ sock := b.sock, owner := {} } : DownloaderSimple.World S P)).1 =
        false ∧ DownloaderSimple.Unstarted (b.world P) := by
  unfold world
  obtain ⟨runned, w', hrun⟩ : ∃ runned w', DownloaderSimple.run b.request.uri
      b.request.fname b.resources b.fault
      ({ sock := b.sock, owner := {} } : DownloaderSimple.World S P) =
        (runned, w') := ⟨_, _, rfl⟩
  rw [hrun]
  cases runned with
  | true =>
      exact .inl ⟨rfl, b.sock, 10, b.request.uri, b.request.fname, b.resources,
        b.fault, hrun⟩
  | false => exact .inr ⟨rfl, DownloaderSimple.run_unstarted hrun⟩

theorem standing (b : Birth S) : DownloaderSimple.Standing (b.world P) := by
  rcases b.run_or P with ⟨-, hstarted⟩ | ⟨-, hrefused⟩
  · exact .alive rfl (DownloaderSimple.started_alive hstarted)
  · exact .unstarted hrefused

/-- `create` returns a downloader whose download has begun. -/
theorem creation_downloader (number : Nat) (b : Birth S) :
    (b.creation P number).downloader =
      if DownloaderSimple.Going (b.world P) then some number else none := by
  rcases b.run_or P with ⟨htrue, hstarted⟩ | ⟨hfalse, hrefused⟩
  · have hgoing : DownloaderSimple.Going (b.world P) :=
      (DownloaderSimple.started_alive (D := DownloaderSimple.anything S)
        hstarted).going
    rw [if_pos hgoing]
    exact if_pos htrue
  · rw [if_neg hrefused.not_going]
    exact if_neg (Bool.eq_false_iff.mp hfalse)

end Birth

end EcwidDownloader
