import EcwidDownloader.Proofs.DownloaderAfter
import EcwidDownloader.Proofs.DownloaderTimer
import EcwidDownloader.Proofs.ListenersInPlace

/-!
# What the read timeout measures

`on_read` stops the timer, gives the data to the parser, and starts the timer
again when the response goes on. In between `on_data` may have stopped the socket
because the queue is full. The timer then runs while the downloader waits for its
file, and not for the peer: a disk that takes longer than the timeout ends the
download with "Timeout read response".

Nothing else starts the timer without reading, and nothing but `on_data` stops a
socket whose response goes on. So the timeout measures the peer in exactly the
runs in which no part of a response is received that goes on and leaves the
socket stopped.
-/

namespace EcwidDownloader

open Lib

namespace DownloaderSimple

variable {S P : Type}

/-- A socket, and whether the downloader has stopped it and not read since. -/
structure Gauged (S : Type) where
  inner : S
  stopped : Bool := false

instance [TCPSocket S] : TCPSocket (Gauged S) where
  connect ip port s := { s with inner := TCPSocket.connect ip port s.inner }
  connect6 ip port s := { s with inner := TCPSocket.connect6 ip port s.inner }
  read s := { inner := TCPSocket.read s.inner, stopped := false }
  stop s := { inner := TCPSocket.stop s.inner, stopped := true }
  write data s := { s with inner := TCPSocket.write data s.inner }
  shutdown s := { s with inner := TCPSocket.shutdown s.inner }
  close s := { s with inner := TCPSocket.close s.inner }
  active s := TCPSocket.active s.inner

/-- The runs of one downloader. Whatever becomes of the socket between events,
it is the downloader that stops it. -/
abbrev Gauged.Runs [TCPSocket S] [HttpParser P] :
    World (Gauged S) P → List (World (Gauged S) P × Occurrence (Gauged S)) →
      World (Gauged S) P → Prop :=
  Run fun w o w' => Lib.Graph step w o w' ∧ o.sock.stopped = w.sock.stopped

/-- The response is being received: its first data has been seen, neither the
response nor the download is at its end, and no redirection has been
recognised. -/
structure InResponse (w : World S P) : Prop where
  firstData : w.owner.httpParser.isSome = true
  receiveDone : w.owner.receiveDone = false
  state : w.owner.status.state.final = false
  response : ¬ listens (.shutdownDone .reportRedirect) w

/-- While the response is received the timer runs only for a socket that is not
stopped. -/
def MeasuresPeer (w : World (Gauged S) P) : Prop :=
  InResponse w → w.owner.timerArmed = true → w.sock.stopped = false

/-- A part of a response that goes on leaves the socket stopped: it was, or the
chunks fill the queue. -/
def Overfills [TCPSocket S] [HttpParser P] (w : World (Gauged S) P)
    (event : Event) : Prop :=
  ∃ r, parsed w event = some r ∧ r.2.state = .inProgress ∧
    w.owner.faults.timer.head?.join = none ∧ ¬ Refused w r ∧
    (w.sock.stopped = true ∨
      r.1 ≠ [] ∧ w.owner.backlog ≤ w.owner.buffer.length + r.1.length ∧
        TCPSocket.active w.sock = true)

def Unfilled [TCPSocket S] [HttpParser P] (w : World (Gauged S) P)
    (o : Occurrence (Gauged S)) : Prop :=
  ¬ Overfills (found w o) o.event

/-- The socket is stopped when the queue is full at last. -/
theorem fill_stopped [TCPSocket S] {backlog : Nat} :
    ∀ {chunks : List Bytes} {n : Nat} {s : Gauged S},
    (fill backlog n chunks s).stopped = true ↔
      s.stopped = true ∨ chunks ≠ [] ∧ backlog ≤ n + chunks.length ∧
        TCPSocket.active s = true
  | [], n, s => by simp [fill]
  | chunk :: chunks, n, s => by
      rw [fill, fill_stopped]
      by_cases hfull : backlog ≤ n + 1 ∧ TCPSocket.active s = true
      · rw [if_pos hfull]
        refine iff_of_true (.inl rfl) (.inr ⟨List.cons_ne_nil _ _, ?_, hfull.2⟩)
        rw [List.length_cons]
        omega
      · rw [if_neg hfull]
        refine or_congr_right ⟨?_, ?_⟩
        · rintro ⟨-, hlen, hactive⟩
          refine ⟨List.cons_ne_nil _ _, ?_, hactive⟩
          rw [List.length_cons]
          omega
        · rintro ⟨-, hlen, hactive⟩
          have hroom : ¬ backlog ≤ n + 1 := fun hle => hfull ⟨hle, hactive⟩
          rw [List.length_cons] at hlen
          refine ⟨?_, by omega, hactive⟩
          rintro rfl
          exact hroom hlen

/-! ## Steps -/

section

variable [TCPSocket S] {n : Net} {f : Fil} {w w' : World (Gauged S) P}

/-- Before the body, and while the timer runs, the socket is not stopped. -/
def Unhindered (w : World (Gauged S) P) : Prop :=
  w.owner.timerArmed = true ∨ w.owner.httpParser = none →
    w.sock.stopped = false

theorem reading_unstopped : Reading fun s : Gauged S => s.stopped = false where
  close _ h := h
  read _ _ := rfl

omit [TCPSocket S] in
/-- A call that starts no timer, and does not stop the socket. -/
theorem Unhindered.calm (h : Unhindered w) (hc : Calm w w')
    (hs : Within (fun s : Gauged S => s.stopped = false) w w') :
    Unhindered w' := fun hrun =>
  hs.sock (h (hrun.imp hc.timer hc.parser))

omit [TCPSocket S] in
/-- One that finds a socket that is not stopped, and does not stop it. -/
theorem Unhindered.within (hstopped : w.sock.stopped = false)
    (hs : Within (fun s : Gauged S => s.stopped = false) w w') :
    Unhindered w' := fun _ => hs.sock hstopped

/-- Before the body the socket is not stopped. -/
theorem Unhindered.unstopped (h : Unhindered w)
    (ha : Alive (anything (Gauged S)) n f w) (hn : n.bodily = false) :
    w.sock.stopped = false := by
  refine h (.inr ?_)
  have hparsing : w.owner.httpParser.isSome = false :=
    ha.online.line.parsing.trans hn
  simpa using hparsing

theorem Unhindered.onError (h : Unhindered w) (text : String) :
    Unhindered (onError text w) :=
  h.calm (calm_onError text w) (reading_unstopped.onError text w)

theorem Unhindered.onFileError (h : Unhindered w) (err : ErrorEvent) :
    Unhindered (onFileError err w) :=
  h.calm (calm_onFileError err w) (reading_unstopped.onFileError err w)

theorem Unhindered.onFileDone (h : Unhindered w) (op : FileOp) (size : Nat) :
    Unhindered (onFileDone op size w) :=
  h.calm (calm_onFileDone op size w) (reading_unstopped.onFileDone op size w)

/-- The resolver answers. -/
theorem Unhindered.onResolverEvent (h : Unhindered w)
    (ha : Alive (anything (Gauged S)) n f w)
    (hsome : w.owner.resolver.isSome = true)
    (result : Except ErrorEvent IPAddress) :
    Unhindered (onResolverEvent result w) := by
  have hresolver : w.owner.resolver = n.resolver := ha.online.line.resolver
  cases n with
  | resolving =>
      have hstopped := h.unstopped ha rfl
      simp only [DownloaderSimple.onResolverEvent, hresolver]
      cases result with
      | ok addr =>
          have hrun := reading_unstopped.onResolve
            (w := { w with owner.resolver := none }) addr
            (fun _ h => h) (fun _ h => h)
          exact fun _ => hrun.sock hstopped
      | error err =>
          have hstate : w.owner.status.state = .onTheGo := ha.online.state
          show Unhindered (if w.owner.status.state = .onTheGo then
            DownloaderSimple.onError _ _ else onErrorWithoutTick _ _)
          rw [if_pos hstate]
          have hcleared : Unhindered { w with owner.resolver := none } := h
          exact hcleared.onError _
  | _ =>
      rw [hresolver] at hsome
      exact absurd hsome Bool.false_ne_true

/-- An event of the socket that is neither data nor its end. -/
theorem Unhindered.onSocketEvent [HttpParser P] (h : Unhindered w)
    (ha : Alive (anything (Gauged S)) n f w) (hn : n.settled = true)
    {event : SocketEvent} (hdata : event.kind ≠ .data)
    (hend : event.kind ≠ .endOfStream) :
    Unhindered (onSocketEvent event w) := by
  have hdeaf : n.socket.taken event.kind = [] →
      Unhindered (DownloaderSimple.onSocketEvent event w) := fun ht => by
    rw [ha.online.deaf ht]
    exact h
  have hs : w.owner.socket = n.socket := ha.online.line.socket
  cases event with
  | errorEvent err =>
      exact h.calm (calm_onSocketError err w)
        (reading_unstopped.onSocketError err w)
  | connectEvent =>
      cases n with
      | connecting ip =>
          have hstopped := h.unstopped ha rfl
          simp only [DownloaderSimple.onSocketEvent, hs]
          have hrun (w : World (Gauged S) P) :=
            reading_unstopped.onConnect (fun _ _ h => h) w
          exact fun _ => (hrun _).sock hstopped
      | reading ended => cases hn
      | receiving ended => cases ended <;> exact hdeaf rfl
      | _ => exact hdeaf rfl
  | writeEvent =>
      cases n with
      | requesting =>
          have hstopped := h.unstopped ha rfl
          simp only [DownloaderSimple.onSocketEvent, hs]
          have hrun (w : World (Gauged S) P) :=
            reading_unstopped.onWriteHttpRequest (fun _ _ => rfl) w
          exact fun _ => (hrun _).sock hstopped
      | reading ended => cases hn
      | receiving ended => cases ended <;> exact hdeaf rfl
      | _ => exact hdeaf rfl
  | shutdownEvent =>
      cases n with
      | shutting cb =>
          rw [onShutdown_eq hs]
          have hshut : Unhindered (disconnected w) := h
          cases cb with
          | reportRedirect => exact hshut
          | reportDone =>
              unfold runCallback
              simp only []
              split <;> exact hshut
      | reading ended => cases hn
      | receiving ended => cases ended <;> exact hdeaf rfl
      | _ => exact hdeaf rfl
  | closeEvent =>
      cases n with
      | reading ended => cases hn
      | receiving ended => cases ended <;> exact hdeaf rfl
      | _ => exact hdeaf rfl
  | dataEvent data => exact absurd rfl hdata
  | endEvent => exact absurd rfl hend

variable [HttpParser P]

/-- A part of a response. -/
theorem Reads.unhindered {event : Event}
    (h : Reads (anything (Gauged S)) f w event w')
    (hpipe : f.Holds (pipeline w)) (hnot : ¬ Overfills w event) :
    Unhindered w' := by
  obtain ⟨ha, hparser, ⟨_, _, _, rfl⟩, hparsed, rfl⟩ := h
  rename_i ended parser data socket httpParser peerEnded
  by_cases hgoes :
      (HttpParser.responseParse parser data).2.2.state = .inProgress ∧
        w.owner.faults.timer.head?.join = none ∧
        (f.startsFor (HttpParser.responseParse parser data).2.1 = 1 →
          w.owner.faults.file[0]?.join = none)
  · obtain ⟨hres, htimer, hno⟩ := hgoes
    obtain ⟨-, -, hsock⟩ := ha.onRead_goes hparser hres htimer hno
    refine fun _ => Bool.eq_false_iff.mpr fun hstopped => hnot ?_
    rw [hsock, fill_stopped] at hstopped
    refine ⟨_, hparsed, hres, htimer, ?_, hstopped⟩
    rintro ⟨hne, hidle, hfault⟩
    refine hfault (hno ?_)
    rw [← hpipe.startsFor_eq, if_neg (by simp [hne, hidle])]
  · have hcalm := ha.onRead_calm hparser fun hres htimer hno =>
      hgoes ⟨hres, htimer, hno⟩
    rintro (hrun | hnone)
    · exact absurd (hcalm.timer hrun) Bool.false_ne_true
    · exact absurd (hcalm.parser hnone) nofun

/-- Any event of a download that has not ended. -/
theorem Alive.unhindered (ha : Alive (anything (Gauged S)) n f w)
    (hn : n.settled = true) (h : Unhindered w) {event : Event}
    (hh : Handled w event w') (hnot : ¬ Overfills w event) :
    Unhindered w' := by
  cases hh with
  | resolver result hsome => exact h.onResolverEvent ha hsome result
  | data data hpeer =>
      cases n with
      | waiting => exact (ha.readsFirst hpeer).unhindered ha.pipe hnot
      | reading ended => cases hn
      | receiving ended =>
          have hend : w.owner.peerEnded = ended := ha.online.line.peer
          rw [hpeer] at hend
          subst hend
          exact ha.readsNext.unhindered ha.pipe hnot
      | _ =>
          rw [ha.online.deaf rfl]
          exact h
  | ended =>
      cases n with
      | waiting =>
          have hs : w.owner.socket = Net.waiting.socket := ha.online.line.socket
          simp only [DownloaderSimple.onSocketEvent, hs]
          have hleft : Unhindered
              { w with
                owner.peerEnded := true
                owner.socket := some [.responseError, .firstData] } := h
          exact hleft.onError _
      | reading ended => cases hn
      | receiving ended =>
          cases ended with
          | false => exact ha.readsEnd.unhindered ha.pipe hnot
          | true =>
              rw [(ha.noteEnd rfl).online.deaf rfl]
              exact h
      | _ =>
          rw [(ha.noteEnd trivial).online.deaf rfl]
          exact h
  | socket event hdata hend => exact h.onSocketEvent ha hn hdata hend
  | timer _ =>
      exact h.calm (calm_onTimerEvent w) (reading_unstopped.onTimerEvent w)
  | @fileFailed index op err _ =>
      have hcompleted : Unhindered (completed index w) := h
      exact hcompleted.onFileError err
  | @fileDone index size op _ _ =>
      have hcompleted : Unhindered (completed index w) := h
      exact hcompleted.onFileDone op size
  | stop _ => exact h.onError _

/-- Any event of a download that has reported its end. -/
theorem NetSilent.unhindered (hnet : NetSilent w) (h : Unhindered w)
    {event : Event} (hstop : event ≠ .stop) (hh : Handled w event w') :
    Unhindered w' := by
  cases hnet.late hstop hh with
  | unheard hunheard =>
      obtain ⟨-, -, htimer, resolver, socket, netTimer, timerArmed, peerEnded,
        rfl⟩ := hunheard
      exact fun hrun => h (hrun.imp_left htimer)
  | @fileFailed index op err _ =>
      have hcompleted : Unhindered (completed index w) := h
      exact hcompleted.onFileError err
  | @fileDone index size op _ _ =>
      have hcompleted : Unhindered (completed index w) := h
      exact hcompleted.onFileDone op size

/-! ## Runs -/

/-- What holds of every state until a part of the response overfills the
queue. -/
structure Unfilling (w : World (Gauged S) P) : Prop where
  lives : Lives (fun _ => True) w
  unhindered : Unhindered w

omit [TCPSocket S] [HttpParser P] in
theorem Unhindered.found (h : Unhindered w) {o : Occurrence (Gauged S)}
    (ho : o.sock.stopped = w.sock.stopped) : Unhindered (found w o) := fun hrun =>
  ho.trans (h hrun)

theorem Unfilling.step {o : Occurrence (Gauged S)} (h : Unfilling w)
    (ho : o.sock.stopped = w.sock.stopped) (hnot : Unfilled w o)
    (hs : Lib.Graph step w o w') : Unfilling w' := by
  have hh : Handled (found w o) o.event w' := handled_of_handle hs
  have hfound := h.unhindered.found ho
  refine ⟨h.lives.step hs (fun _ _ _ _ => trivial)
    (fun _ _ => trivial) fun _ _ _ => trivial, ?_⟩
  cases h.lives with
  | alive hn ha => exact (ha.found trivial).unhindered hn hfound hh hnot
  | parked hp =>
      have hnet : NetSilent (found w o) := hp.net.congr
      exact hnet.unhindered hfound (hh.not_stop hp.reported) hh
  | ceased hc _ =>
      have hnet : NetSilent (found w o) := hc.past.net.congr
      exact hnet.unhindered hfound (hh.not_stop hc.reported) hh

/-- An event that overfills the queue starts the timer with the socket
stopped. -/
theorem Unfilling.overfilled {o : Occurrence (Gauged S)} (h : Unfilling w)
    (hover : Overfills (found w o) o.event)
    (hs : Lib.Graph DownloaderSimple.step w o w') : ¬ MeasuresPeer w' := by
  have hh : Handled (found w o) o.event w' := handled_of_handle hs
  obtain ⟨r, hparsed, hres, htimer, hkept, hfull⟩ := hover
  cases h.lives with
  | alive hn ha =>
      have hfound := ha.found (o := o) trivial
      obtain ⟨hread, hparser, ⟨_, _, _, rfl⟩, hparsed', rfl⟩ :=
        hfound.reads_of_parsed hn hh hparsed
      rename_i ended parser data socket httpParser peerEnded
      obtain rfl : _ = r := Option.some.inj (hparsed'.symm.trans hparsed)
      obtain ⟨hgoes, harmed, hsock⟩ := hread.onRead_goes hparser hres htimer
        fun hstarts => by
          by_contra hfault
          rw [← hfound.pipe.startsFor_eq] at hstarts
          refine hkept ⟨?_, ?_, hfault⟩
          · rintro hnil
            simp [hnil] at hstarts
          · by_contra hstarted
            simp [hstarted] at hstarts
      intro hmeasures
      have hstopped := hmeasures ⟨hgoes.online.line.parsing,
        hgoes.online.line.receiveDone, by rw [hgoes.online.state]; rfl,
        fun hl => by
          have hmem := hgoes.online.listens_iff.mp hl
          cases ended <;> simp [Net.socket] at hmem⟩ harmed
      have hfull' := fill_stopped.mpr hfull
      rw [hsock] at hstopped
      exact absurd (hstopped.symm.trans hfull') Bool.false_ne_true
  | parked hp =>
      have hnet : NetSilent (found w o) := hp.net.congr
      cases (hnet.parsed o.event).symm.trans hparsed
  | ceased hc _ =>
      have hnet : NetSilent (found w o) := hc.past.net.congr
      cases (hnet.parsed o.event).symm.trans hparsed

/-- The read timeout measures the peer in exactly the runs in which no part of a
response that goes on leaves the socket stopped. -/
theorem timeout_measures_peer_iff {w₀ w : World (Gauged S) P}
    {hist : List (World (Gauged S) P × Occurrence (Gauged S))}
    (h₀ : Started w₀) (hfresh : w₀.sock.stopped = false)
    (hr : Gauged.Runs w₀ hist w) :
    (∀ x, Passes hist w x → MeasuresPeer x) ↔ Meets Unfilled hist := by
  have hinv : ∀ {hist' t'}, Gauged.Runs w₀ hist' t' → Meets Unfilled hist' →
      Unfilling t' := fun hr' hC => hr'.invariant Unfilling hC
    ⟨h₀.lives, fun _ => hfresh⟩ fun w₁ o w₂ hI ho hs => hI.step hs.2 ho hs.1
  exact hr.always_iff
    (fun hr' hC _ harmed => (hinv hr' hC).unhindered (.inl harmed))
    fun hr' hC hs ho => (hinv hr' hC).overfilled (not_not.mp ho) hs.1

instance (w : World (Gauged S) P) (event : Event) :
    Decidable (Overfills w event) :=
  inferInstanceAs (Decidable (∃ r ∈ parsed w event, _ ∧ _ ∧ _ ∧ (_ ∨ _)))

instance (w : World (Gauged S) P) (o : Occurrence (Gauged S)) :
    Decidable (Unfilled w o) :=
  inferInstanceAs (Decidable (¬ _))

end

/-- A downloader after `run("http://www.internet.org/", "f")`, by its
backlog. -/
def gauged (backlog : Nat) : World (Gauged Wire) (Scripted halfway) :=
  (run "http://www.internet.org/" "f" {} none
    { sock := { inner := {} }, owner := { backlog := backlog } }).2

theorem started_gauged (backlog : Nat) : Started (gauged backlog) :=
  ⟨{ inner := {} }, backlog, "http://www.internet.org/", "f", {}, none, rfl⟩

/-- The first byte of the body arrives. -/
def answeredInPart : List (Occurrence (Gauged Wire)) :=
  answered.map fun o => { event := o.event, sock := { inner := o.sock } }

/-- With a backlog of one chunk the timer then runs for a socket that the
downloader has stopped. -/
theorem timeout_measures_file :
    ¬ ∀ (w₀ w : World (Gauged Wire) (Scripted halfway))
      (hist : List (World (Gauged Wire) (Scripted halfway) ×
        Occurrence (Gauged Wire))),
      Started w₀ → w₀.sock.stopped = false → Gauged.Runs w₀ hist w →
      ∀ x, Passes hist w x → MeasuresPeer x := by
  intro hall
  obtain ⟨hist, w, hexec, hresponse, harmed, hstopped, hgauge⟩ : ∃ hist w,
      exec step (gauged 1) answeredInPart = some (hist, w) ∧
        InResponse w ∧ w.owner.timerArmed = true ∧ w.sock.stopped = true ∧
        Meets (fun w o => o.sock.stopped = w.sock.stopped) hist :=
    ⟨_, _, rfl, ⟨rfl, rfl, rfl, by decide⟩, rfl, rfl, by
      unfold Meets
      decide⟩
  have hmeasures := hall (gauged 1) w hist (started_gauged 1) rfl
    ((run_of_exec hexec).restrict hgauge) w .last hresponse harmed
  exact absurd (hmeasures.symm.trans hstopped) Bool.false_ne_true

/-- With one of two it runs for the peer. -/
theorem timeout_measures_peer_roomy : ∃ hist w,
    Gauged.Runs (gauged 2) hist w ∧ w.owner.timerArmed = true ∧
      w.owner.buffer.length = 1 ∧ ∀ x, Passes hist w x → MeasuresPeer x := by
  obtain ⟨hist, w, hexec, harmed, hlength, hgauge, hC⟩ : ∃ hist w,
      exec step (gauged 2) answeredInPart = some (hist, w) ∧
        w.owner.timerArmed = true ∧ w.owner.buffer.length = 1 ∧
        Meets (fun w o => o.sock.stopped = w.sock.stopped) hist ∧
        Meets Unfilled hist :=
    ⟨_, _, rfl, rfl, rfl, by
      unfold Meets
      decide, by
      unfold Meets
      decide⟩
  have hr : Gauged.Runs (gauged 2) hist w :=
    (run_of_exec hexec).restrict hgauge
  exact ⟨hist, w, hr, harmed, hlength,
    (timeout_measures_peer_iff (started_gauged 2) rfl hr).mpr hC⟩

end DownloaderSimple

end EcwidDownloader
