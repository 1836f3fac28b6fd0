import EcwidDownloader.Downloader.Throttled
import EcwidDownloader.Proofs.DownloaderSocket
import EcwidDownloader.Proofs.DownloaderSteps
import EcwidDownloader.Proofs.TcpBandwidth

/-!
# Two kinds of back pressure

The downloader stops its socket when the queue of chunks has reached the
backlog, and calls `read()` again when the queue has been written and the socket
is not `active()`. The throttled socket pauses its inner socket when its own
buffer is full, and resumes it when there is room. `active()` is true of a
stopped socket whose inner socket is reading, and a stop inside of a `DataEvent`
does not hinder the `transfer` that published it from resuming the inner socket.
So the two can meet in a state in which `on_write` takes the socket for one that
delivers. What is shown here is that this is the only way to be left with a
stopped socket: between events a download that waits for more of its response,
with nothing of the file in flight, has a socket that is not stopped, in exactly
the runs in which no write ends in that state.
-/

namespace EcwidDownloader

open Lib

namespace DownloaderSimple

namespace Throttled

variable {P : Type}

/-- The response is being received: its first data has been seen, neither the
response nor the download is at its end, no redirection has been recognised, and
the peer has not closed. -/
structure Receiving (w : Throttled P) : Prop where
  firstData : w.owner.httpParser.isSome = true
  receiveDone : w.owner.receiveDone = false
  state : w.owner.status.state.final = false
  unreported : w.owner.trace.any Mark.reportsFinal = false
  response : ¬ listens (.shutdownDone .reportRedirect) w
  peer : w.sock.eof = false

instance (w : Throttled P) : Decidable (Receiving w) :=
  decidable_of_iff
    (w.owner.httpParser.isSome = true ∧ w.owner.receiveDone = false ∧
      w.owner.status.state.final = false ∧
      w.owner.trace.any Mark.reportsFinal = false ∧
      ¬ listens (.shutdownDone .reportRedirect) w ∧ w.sock.eof = false)
    ⟨fun ⟨h₁, h₂, h₃, h₄, h₅, h₆⟩ => ⟨h₁, h₂, h₃, h₄, h₅, h₆⟩,
      fun ⟨h₁, h₂, h₃, h₄, h₅, h₆⟩ => ⟨h₁, h₂, h₃, h₄, h₅, h₆⟩⟩

/-- A response that is being received has a socket that is not stopped, unless
the file keeps it back. -/
def Flowing (w : Throttled P) : Prop :=
  Receiving w → w.owner.fileOps = [] → w.sock.stopped = false

/-- A socket that nothing keeps back must not be stopped. -/
def unstopped : Demands TCPSocketBandwidth where
  flows s := s.stopped = false
  stuck := True
  read s := by
    show (TCPSocketBandwidth.read s).stopped = false
    unfold TCPSocketBandwidth.read
    simp only []
    split <;> rfl

/-- A write completes, with nothing left to write of a response that is being
received, while the socket is stopped and yet active. -/
def Stranded (w : Throttled P) : Event → Prop
  | .own (.file _ (.ok size)) => Receiving w ∧ Stalls unstopped size w
  | _ => False

instance (size : Nat) (w : Throttled P) :
    Decidable (Stalls unstopped size w) :=
  decidable_of_iff
    ((∃ chunk ∈ w.owner.buffer, w.owner.buffer = [chunk] ∧
        chunk.offset + size = chunk.length ∧
        w.owner.fileOps = [.write chunk.rest w.owner.offsetFile]) ∧
      w.owner.receiveDone = false ∧ TCPSocket.active w.sock = true ∧
      ¬ w.sock.stopped = false)
    (and_congr_left fun _ =>
      ⟨fun ⟨chunk, _, h⟩ => ⟨chunk, h⟩, fun ⟨chunk, h⟩ =>
        ⟨chunk, h.1 ▸ List.mem_singleton_self _, h⟩⟩)

instance (w : Throttled P) : ∀ event, Decidable (Stranded w event)
  | .own (.file _ (.ok size)) =>
      inferInstanceAs (Decidable (Receiving w ∧ Stalls unstopped size w))
  | .own (.file _ (.error _)) => inferInstanceAs (Decidable False)
  | .own (.resolver _) => inferInstanceAs (Decidable False)
  | .own (.socket _) => inferInstanceAs (Decidable False)
  | .own .timer => inferInstanceAs (Decidable False)
  | .own .stop => inferInstanceAs (Decidable False)
  | .inner _ _ => inferInstanceAs (Decidable False)
  | .transfer _ => inferInstanceAs (Decidable False)

/-- The event is none that strands the download. -/
def Relieved (w : Throttled P) (e : Event × Faults) : Prop :=
  ¬ Stranded w e.1

/-! ## The throttled socket under a downloader -/

/-- The end of the stream is not forwarded by a standing listener. -/
def Wired (s : TCPSocketBandwidth) : Prop :=
  ∀ l ∈ s.socket.listeners,
    l ≠ .onEvent .data ∧ l ≠ .onEvent .endOfStream

theorem abiding_wired : Abiding Wired where
  connect _ _ _ h := h
  connect6 _ _ _ h := h
  read s h := by
    show Wired (TCPSocketBandwidth.read s)
    unfold TCPSocketBandwidth.read
    simp only []
    split <;> exact h
  stop s h := by
    show Wired (TCPSocketBandwidth.stop s)
    unfold TCPSocketBandwidth.stop
    simp only []
    split <;> exact h
  write _ _ h := h
  shutdown _ h := h
  close s h := by
    show Wired (TCPSocketBandwidth.close s)
    unfold TCPSocketBandwidth.close
    split
    · intro l hl
      obtain rfl : l = .publishClose := List.mem_singleton.mp hl
      exact ⟨nofun, nofun⟩
    · exact h

theorem abiding_eof (b : Bool) :
    Abiding fun s : TCPSocketBandwidth => s.eof = b where
  connect _ _ _ h := h
  connect6 _ _ _ h := h
  read s h := by
    show (TCPSocketBandwidth.read s).eof = b
    unfold TCPSocketBandwidth.read
    simp only []
    split <;> exact h
  stop s h := by
    show (TCPSocketBandwidth.stop s).eof = b
    unfold TCPSocketBandwidth.stop
    simp only []
    split <;> exact h
  write _ _ h := h
  shutdown _ h := h
  close s h := by
    show (TCPSocketBandwidth.close s).eof = b
    unfold TCPSocketBandwidth.close
    split <;> exact h

/-! ## The invariant -/

/-- The download has not ended, or has made its final report. -/
def Live (w : Throttled P) : Prop :=
  (∃ n f, n.settled = true ∧ Alive unstopped n f w) ∨
    w.owner.trace.any Mark.reportsFinal = true

/-- What holds between events, and between the pieces of an event. -/
structure Served (w : Throttled P) : Prop where
  wired : Wired w.sock
  live : w.sock.eof = false → w.owner.peerEnded = false ∧ Live w

variable {w w' : Throttled P}

theorem Live.resock {s : TCPSocketBandwidth} (h : Live w)
    (hs : w.sock.stopped = false → s.stopped = false) :
    Live { w with sock := s } := by
  rcases h with ⟨n, f, hn, ha⟩ | h
  · exact .inl ⟨n, f, hn, ⟨ha.online.line, ha.online.state, ha.online.trace⟩,
      ha.pipe, ha.body, ha.ending, fun hfl hf => hs (ha.flows hfl hf),
      ha.stuck⟩
  · exact .inr h

theorem Served.resock {s : TCPSocketBandwidth} (h : Served w) (hw : Wired s)
    (he : s.eof = w.sock.eof)
    (hs : w.sock.stopped = false → s.stopped = false) :
    Served { w with sock := s } where
  wired := hw
  live hopen := (h.live (he.symm.trans hopen)).imp_right (·.resock hs)

/-- After the end of the stream nothing is asked of the socket. -/
theorem Served.ended (hw : Wired w.sock) (he : w.sock.eof = true) :
    Served w where
  wired := hw
  live hopen := absurd (hopen.symm.trans he) Bool.false_ne_true

theorem Served.faulted (h : Served w) (faults : Faults) :
    Served { w with owner.faults := faults } where
  wired := h.wired
  live hopen := by
    refine (h.live hopen).imp_right fun hlive => ?_
    rcases hlive with ⟨n, f, hn, ha⟩ | hlive
    · exact .inl ⟨n, f, hn, ⟨ha.online.line, ha.online.state,
        ha.online.trace⟩, ha.pipe, ha.body, ha.ending, ha.flows, ha.stuck⟩
    · exact .inr hlive

/-- A final report is not taken back. -/
theorem reportsFinal_of_grown {t t' : List Mark} (h : t <+: t')
    (hf : t.any Mark.reportsFinal = true) :
    t'.any Mark.reportsFinal = true := by
  obtain ⟨m, hm, hfinal⟩ := List.any_eq_true.mp hf
  exact List.any_eq_true.mpr ⟨m, h.subset hm, hfinal⟩

theorem reportsFinal_of_invoked {before : List Mark} {r : Report}
    (hr : r.state.final = true) :
    (before ++ [Mark.assigned r, Mark.invoked r]).any Mark.reportsFinal =
      true :=
  List.any_eq_true.mpr ⟨.invoked r,
    List.mem_append_right _ (List.mem_pair.mpr (.inr rfl)), hr⟩

theorem Live.of_reported {state : State} {f : Fil}
    (h : Reported state f w) (hf : state.final = true) : Live w := by
  obtain ⟨before, -, ht⟩ := h.trace
  refine .inr ?_
  rw [ht]
  exact reportsFinal_of_invoked (by rw [← h.state] at hf; exact hf)

variable [HttpParser P]

theorem Live.of_outcome {event : DownloaderSimple.Event}
    (h : Outcome unstopped w event w') : Live w' := by
  cases h with
  | alive hn ha => exact .inl ⟨_, _, hn, ha⟩
  | failed hf _ =>
      obtain ⟨before, r, -, hr, ht⟩ := hf.trace
      refine .inr ?_
      rw [ht]
      exact reportsFinal_of_invoked (by rw [hr]; rfl)
  | lapsed _ hl => exact .inr (reported_failed hl.failed)
  | closed hr => exact .of_reported hr rfl
  | shutDown cb _ _ _ _ _ hr => exact .of_reported hr (by cases cb <;> rfl)

/-! ## What the socket does -/

omit [HttpParser P] in
/-- A piece of the downloader running, where it is known what becomes of a
download that has not ended. -/
theorem Served.within (h : Served w)
    (hw : ∀ {Q : TCPSocketBandwidth → Prop}, Abiding Q → Within Q w w')
    (hlive : w.sock.eof = false → w.owner.peerEnded = false → Live w →
      Live w') : Served w' where
  wired := (hw abiding_wired).sock h.wired
  live hopen := by
    have heof : w.sock.eof = false := by
      refine Bool.eq_false_iff.mpr fun he => ?_
      exact absurd (hopen.symm.trans ((hw (abiding_eof true)).sock he))
        Bool.false_ne_true
    obtain ⟨hpeer, hl⟩ := h.live heof
    have hstands := congrArg Prod.fst (hw abiding_wired).stands
    exact ⟨hstands.trans hpeer, hlive heof hpeer hl⟩

theorem publish_of_ne {event : SocketEvent} (he : event ≠ .endEvent) :
    publish event w = onSocketEvent event w := by
  unfold publish
  rw [if_neg he]

theorem Served.publish (h : Served w) {event : SocketEvent}
    (he : event ≠ .endEvent) : Served (publish event w) := by
  rw [publish_of_ne he]
  refine h.within (fun hQ => hQ.onSocketEvent event w) fun _ hpeer hl => ?_
  rcases hl with ⟨n, f, hn, ha⟩ | hfinal
  · have hout : Outcome unstopped w (.socket event) (onSocketEvent event w) := by
      cases event with
      | dataEvent data => exact ha.onDataEvent hn hpeer fun _ => trivial
      | endEvent => exact absurd rfl he
      | _ => exact ha.onSocketEvent hn nofun nofun
    exact .of_outcome hout
  · exact .inr (reportsFinal_of_grown
      (abiding_wired.onSocketEvent event w).trace hfinal)

theorem Served.publishEnd (h : Served w) (he : w.sock.eof = true) :
    Served (Throttled.publish .endEvent w) := by
  have hkeeps : ∀ {Q : TCPSocketBandwidth → Prop}, Abiding Q → Q w.sock →
      Q (Throttled.publish .endEvent w).sock := fun hQ hq =>
    (hQ.onSocketEvent .endEvent { w with owner.peerEnded := true }).sock hq
  exact .ended (hkeeps abiding_wired h.wired) (hkeeps (abiding_eof true) he)

theorem Served.afterData (h : Served w) :
    Served (TCPSocketBandwidth.afterData Throttled.publish w) := by
  rcases TCPSocketBandwidth.afterData_cases Throttled.publish w with
    ⟨heof, -, heq⟩ | ⟨-, heq⟩ | ⟨-, -, heq⟩
  · rw [heq]
    have hstopped : Served { w with sock.stopped := true } :=
      .ended h.wired heof
    exact hstopped.publishEnd heof
  · rw [heq]
    exact h.resock h.wired rfl id
  · rw [heq]
    exact h

theorem Served.transfer (h : Served w) {n : Nat}
    (ht : TCPSocketBandwidth.transfer Throttled.publish n w = some w') :
    Served w' := by
  rcases TCPSocketBandwidth.transfer_cases ht with
    ⟨-, rfl⟩ | ⟨-, -, data, buffer, -, rfl⟩
  · exact h
  · have hpopped : Served (TCPSocketBandwidth.popped n buffer w) :=
      h.resock h.wired rfl id
    have hdata : SocketEvent.dataEvent data ≠ .endEvent := nofun
    exact (hpopped.publish hdata).afterData

theorem Served.transfers {lengths : List Nat} {w w' : Throttled P}
    (h : Served w) (ht : transfers lengths w = some w') : Served w' :=
  Lib.foldlM_keeps (I := fun _ w => Served w) (fun h h₁ => h.transfer h₁) h ht

omit [HttpParser P] in
/-- A standing listener is registered again. -/
theorem Served.once (h : Served w) {l : InnerListener}
    (hl : l ≠ .onEvent .data ∧ l ≠ .onEvent .endOfStream) :
    Served
      { w with
        sock.socket.listeners := Emitter.once l w.sock.socket.listeners } := by
  refine h.resock (fun l' hl' => ?_) rfl id
  rcases List.mem_append.mp hl' with hl' | hl'
  · exact h.wired l' hl'
  · rw [List.mem_singleton.mp hl']
    exact hl

theorem Served.onData (h : Served w) {sync : List Nat} {data : Bytes}
    (hd : TCPSocketBandwidth.onData (Throttled.transfers sync) data w =
      some w') : Served w' := by
  have hbuffered : Served
      { w with sock := TCPSocketBandwidth.bufferData data w.sock } := by
    unfold TCPSocketBandwidth.bufferData
    simp only []
    split
    · exact h.resock h.wired rfl id
    · exact h.resock h.wired rfl id
  obtain ⟨w₁, h₁, rfl⟩ := Option.map_eq_some_iff.mp hd
  have hmoved := hbuffered.transfers h₁
  split
  · exact hmoved.once ⟨nofun, nofun⟩
  · exact hmoved

theorem Served.runListener (h : Served w) {sync : List Nat}
    {event : SocketEvent} {l : InnerListener}
    (hl : l ≠ .onEvent .data ∧ l ≠ .onEvent .endOfStream)
    (hkind : Listens.kind l = event.kind)
    (hr : TCPSocketBandwidth.runListener Throttled.publish
      (Throttled.transfers sync) event w l = some w') : Served w' := by
  cases l with
  | onEvent k =>
      obtain rfl : k = event.kind := hkind
      have he : event ≠ .endEvent := by
        rintro rfl
        exact hl.2 rfl
      obtain rfl := Option.some.inj hr
      unfold TCPSocketBandwidth.onEvent
      simp only []
      split
      · exact (h.publish he).once hl
      · exact h.publish he
  | onData =>
      cases event with
      | dataEvent data => exact h.onData hr
      | _ =>
          obtain rfl := Option.some.inj hr
          exact h
  | setEof =>
      obtain rfl := Option.some.inj hr
      exact .ended h.wired rfl
  | publishClose =>
      have he : event ≠ .endEvent := by
        rintro rfl
        cases hkind
      obtain rfl := Option.some.inj hr
      exact h.publish he

theorem Served.runListeners {sync : List Nat} {event : SocketEvent}
    {ls : List InnerListener} {w w' : Throttled P} (h : Served w)
    (hls : ∀ l ∈ ls, (l ≠ .onEvent .data ∧ l ≠ .onEvent .endOfStream) ∧
      Listens.kind l = event.kind)
    (hr : ls.foldlM (TCPSocketBandwidth.runListener Throttled.publish
      (Throttled.transfers sync) event) w = some w') : Served w' := by
  refine (Lib.foldlM_keeps (I := fun ls w => Served w ∧
    ∀ l ∈ ls, (l ≠ .onEvent .data ∧ l ≠ .onEvent .endOfStream) ∧
      Listens.kind l = event.kind) (fun h h₁ => ?_) ⟨h, hls⟩ hr).1
  obtain ⟨hl, hkind⟩ := h.2 _ List.mem_cons_self
  exact ⟨h.1.runListener hl hkind h₁,
    fun l' hl' => h.2 l' (List.mem_cons_of_mem _ hl')⟩

theorem Served.innerEvent (h : Served w) {sync : List Nat}
    {event : SocketEvent}
    (hi : TCPSocketBandwidth.innerEvent Throttled.publish
      (Throttled.transfers sync) event w = some w') : Served w' := by
  have hcleared : Served
      { w with
        sock.socket.listeners :=
          Emitter.clearKind event.kind w.sock.socket.listeners } :=
    h.resock (fun l hl => h.wired l (List.mem_of_mem_filter hl)) rfl id
  refine hcleared.runListeners (fun l hl => ?_) hi
  obtain ⟨hmem, hkind⟩ := List.mem_filter.mp (List.mem_reverse.mp hl)
  exact ⟨h.wired l hmem, of_decide_eq_true hkind⟩

/-! ## What comes to the downloader from elsewhere -/

omit [HttpParser P] in
theorem reportsFinal_of_underway {t : List Mark} (h : Underway t) :
    t.any Mark.reportsFinal = false := by
  refine Bool.eq_false_iff.mpr fun hf => ?_
  obtain ⟨m, hm, hfinal⟩ := List.any_eq_true.mp hf
  cases m with
  | assigned r => cases hfinal
  | invoked r => exact absurd ((h _ hm).symm.trans hfinal) Bool.false_ne_true

section

variable {n : Net} {f : Fil}

omit [HttpParser P] in
/-- The phase in which a response is received. -/
theorem Receiving.phase (hr : Receiving w) (ha : Alive unstopped n f w)
    (hn : n.settled = true) : n = .receiving w.owner.peerEnded := by
  have hbody : n.bodily = true :=
    ha.online.line.parsing.symm.trans hr.firstData
  have hdone : n.done = false :=
    ha.online.line.receiveDone.symm.trans hr.receiveDone
  cases n with
  | receiving ended =>
      rw [show w.owner.peerEnded = ended from ha.online.line.peer]
  | reading ended => cases hn
  | shutting cb =>
      cases cb with
      | reportRedirect =>
          exact absurd (ha.online.listens_iff.mpr
            (List.mem_singleton_self _)) hr.response
      | reportDone => cases hdone
  | shut => cases hdone
  | resolving => cases hbody
  | connecting ip => cases hbody
  | requesting => cases hbody
  | waiting => cases hbody

omit [HttpParser P] in
theorem receiving_of_phase (ha : Alive unstopped (.receiving false) f w)
    (hopen : w.sock.eof = false) : Receiving w where
  firstData := ha.online.line.parsing
  receiveDone := ha.online.line.receiveDone
  state := by
    rw [ha.online.state]
    rfl
  unreported := reportsFinal_of_underway ha.online.trace
  response hl := by
    have hmem := ha.online.listens_iff.mp hl
    simp [Net.socket] at hmem
  peer := hopen

omit [HttpParser P] in
/-- A download whose response is being received has not ended. -/
theorem Served.receiving (h : Served w) (hr : Receiving w) :
    ∃ f, Alive unstopped (.receiving false) f w := by
  obtain ⟨hpeer, hlive⟩ := h.live hr.peer
  rcases hlive with ⟨n, f, hn, ha⟩ | hfinal
  · obtain rfl := hr.phase ha hn
    rw [hpeer] at ha
    exact ⟨f, ha⟩
  · exact absurd (hr.unreported.symm.trans hfinal) Bool.false_ne_true

omit [HttpParser P] in
theorem Served.flowing (h : Served w) : Flowing w := by
  intro hr hops
  obtain ⟨f, ha⟩ := h.receiving hr
  refine ha.flows rfl ?_
  have hstored := ha.pipe.stored
  have hnone : (pipeline w).ops = [] := hops
  cases f with
  | none => rfl
  | idle => rfl
  | opening => cases hnone.symm.trans hstored.1
  | writing =>
      obtain ⟨chunk, queue, -, hop, -⟩ := hstored
      cases hnone.symm.trans hop
  | closing => cases hnone.symm.trans hstored.1
  | closed => cases ha.ending rfl

end

/-- A step of the downloader that does not strand the download. -/
theorem Served.own (h : Served w) {event : DownloaderSimple.Event}
    (hsocket : ∀ e, event ≠ .socket e) (hnot : ¬ Stranded w (.own event))
    (hs : handle event w = some w') : Served w' := by
  have hh := handled_of_handle hs
  refine h.within (fun hQ => hQ.handled hh (hsocket _))
    fun hopen hpeer hlive => ?_
  rcases hlive with ⟨n, f, hn, ha⟩ | hfinal
  · refine .of_outcome (ha.step hn hh (fun _ => trivial) ?_)
    rintro index size rfl hfl hstall
    refine hnot ⟨?_, hstall⟩
    obtain ⟨⟨chunk, -, -, hops⟩, -⟩ := hstall
    cases n with
    | receiving ended =>
        cases ended with
        | false => exact receiving_of_phase ha hopen
        | true => cases hfl
    | reading ended => cases hn
    | waiting =>
        obtain rfl := ha.file_none rfl
        cases hops.symm.trans ha.pipe.stored.1
    | _ => cases hfl
  · exact .inr (reportsFinal_of_grown
      (abiding_wired.handled hh (hsocket _)).trace hfinal)

/-- What an event finds. -/
theorem step_cases {e : Event × Faults} (hs : Lib.Graph step w e w') :
    (∃ event sync, e.1 = .inner event sync ∧
      TCPSocketBandwidth.innerEvent publish (transfers sync) event
        { w with owner.faults := e.2 } = some w') ∨
    (∃ length, e.1 = .transfer length ∧
      TCPSocketBandwidth.transfer publish length
        { w with owner.faults := e.2 } = some w') ∨
    ∃ event, e.1 = .own event ∧ (∀ e, event ≠ .socket e) ∧
      handle event { w with owner.faults := e.2 } = some w' := by
  obtain ⟨event, faults⟩ := e
  unfold Lib.Graph step at hs
  cases event with
  | inner event sync =>
      simp only [] at hs
      split at hs
      · exact .inl ⟨event, sync, rfl, hs⟩
      · cases hs
  | transfer length => exact .inr (.inl ⟨length, rfl, hs⟩)
  | own event =>
      cases event with
      | socket e => cases hs
      | _ => exact .inr (.inr ⟨_, rfl, nofun, hs⟩)

theorem Served.step (h : Served w) {e : Event × Faults} (he : Relieved w e)
    (hs : Lib.Graph step w e w') : Served w' := by
  have hfound := h.faulted e.2
  rcases step_cases hs with ⟨event, sync, -, hi⟩ | ⟨length, -, ht⟩ |
    ⟨event, hown, hsocket, hh⟩
  · exact hfound.innerEvent hi
  · exact hfound.transfer ht
  · refine hfound.own hsocket (fun hstranded => he ?_) hh
    rw [hown]
    cases event with
    | file index result =>
        cases result with
        | ok size =>
            obtain ⟨hr, hstall⟩ := hstranded
            exact ⟨⟨hr.firstData, hr.receiveDone, hr.state, hr.unreported,
              hr.response, hr.peer⟩, hstall⟩
        | error err => cases hstranded
    | _ => cases hstranded

omit [HttpParser P] in
/-- The write that empties the queue of a download whose socket is active leaves
the socket as it is. -/
theorem onWritten_active {f : Fil} {size : Nat}
    (ha : Alive unstopped (.receiving false) f w)
    (hstall : Stalls unstopped size w) :
    ∃ op file disk offset, w.owner.fileOps = [op] ∧
      onFileDone op size (completed 0 w) =
        { w with
          owner.file := file
          owner.disk := disk
          owner.offsetFile := offset
          owner.fileOps := []
          owner.buffer := []
          owner.fileOperationStarted := false } := by
  obtain ⟨⟨chunk, hb, hend, hops⟩, hdone, hactive, -⟩ := hstall
  have hwriting : f = .writing := by
    have hstored := ha.pipe.stored
    have hop : (pipeline w).ops = [.write chunk.rest w.owner.offsetFile] :=
      hops
    cases f with
    | writing => rfl
    | none => cases hop.symm.trans hstored.1
    | opening => cases hop.symm.trans hstored.1
    | idle => cases hop.symm.trans hstored.1
    | closing => cases hop.symm.trans hstored.1
    | closed => cases hop.symm.trans hstored.1
  subst hwriting
  have hfile : w.owner.file = some [.writeError, .written] := ha.pipe.file
  have hsome : w.owner.socket.isSome = true := ha.online.socket_isSome rfl
  have htaken : (completed 0 w).owner.file.taken
      (FileOp.write chunk.rest w.owner.offsetFile).kind = [.written] := by
    show Handle.taken .fileWrite w.owner.file = _
    rw [hfile]
    rfl
  have hnone : w.owner.fileOps.eraseIdx 0 = [] := by
    rw [hops]
    rfl
  refine ⟨_, w.owner.file.clearKind .fileWrite,
    (FileOp.write chunk.rest w.owner.offsetFile).apply size w.owner.disk,
    w.owner.offsetFile + size, hops, ?_⟩
  unfold onFileDone
  rw [htaken]
  simp only [List.foldl_cons, List.foldl_nil, runFileListener]
  rw [show (completed 0 w).owner.buffer = [chunk] from hb]
  simp only []
  unfold onWrite
  simp only [if_pos (show chunk.offset + size =
    ({ chunk with offset := chunk.offset + size } : DataChunk).length from
      hend), completed, hnone, hdone, hsome, hactive, FileOp.kind]
  rfl

/-- A stranded download stays with a stopped socket. -/
theorem Served.stranded (h : Served w) {e : Event × Faults}
    (he : ¬ Relieved w e) (hs : Lib.Graph Throttled.step w e w') : ¬ Flowing w' := by
  obtain ⟨event, faults⟩ := e
  have hstranded : Stranded w event := not_not.mp he
  match event, hstranded with
  | .own (.file index (.ok size)), ⟨hr, hstall⟩ =>
      obtain ⟨f, ha⟩ := (h.faulted faults).receiving
        ⟨hr.firstData, hr.receiveDone, hr.state, hr.unreported, hr.response,
          hr.peer⟩
      obtain ⟨op, file, disk, offset, hops, hdone⟩ :=
        onWritten_active ha hstall
      rcases step_cases hs with ⟨_, _, hin, -⟩ | ⟨_, htr, -⟩ |
        ⟨event, hown, -, hh⟩
      · cases hin
      · cases htr
      · cases hown
        cases handled_of_handle hh with
        | fileDone hop _ =>
            obtain ⟨rfl, rfl⟩ : index = 0 ∧ op = _ := by
              have hone : [op][index]? = some _ := hops ▸ hop
              cases index with
              | zero => exact ⟨rfl, Option.some.inj hone⟩
              | succ i => cases hone
            rw [hdone]
            intro hflow
            have hrun := hflow ⟨hr.firstData, hr.receiveDone, hr.state,
              hr.unreported, hr.response, hr.peer⟩ rfl
            exact hstall.2.2.2 hrun

theorem Started.served (h : Started w) : Served w := by
  obtain ⟨conn, bufferMaxLength, backlog, uri, fname, resources, fault, hrun⟩ :=
    h
  have ha : Alive unstopped .resolving .none w :=
    run_alive ⟨rfl, rfl, rfl, fun _ hm => absurd hm List.not_mem_nil,
      ⟨rfl, rfl, rfl, ⟨rfl, rfl, rfl, rfl, rfl⟩,
        fun _ hm => absurd hm List.not_mem_nil⟩⟩ hrun
  obtain ⟨uriParsed, text, rfl⟩ := run_true hrun
  refine ⟨fun l hl => ?_, fun _ => ⟨rfl, .inl ⟨_, _, rfl, ha⟩⟩⟩
  have hmem : l ∈ (TCPSocketBandwidth.create conn).socket.listeners := hl
  simp only [TCPSocketBandwidth.create, List.mem_cons, List.not_mem_nil,
    or_false] at hmem
  rcases hmem with rfl | rfl | rfl | rfl | rfl | rfl <;> exact ⟨nofun, nofun⟩

/-- In a run of a downloader on a throttled socket the socket of a response that
is being received is never stopped while nothing of the file is in flight,
exactly when no write ends over an empty queue with the socket stopped and yet
active. -/
theorem receiving_unstopped_iff {w₀ w : Throttled P}
    {hist : List (Throttled P × Event × Faults)} (h₀ : Started w₀)
    (hr : Runs w₀ hist w) :
    (∀ x, Passes hist w x → Flowing x) ↔ Meets Relieved hist := by
  have hinv : ∀ {hist' t'}, Runs w₀ hist' t' → Meets Relieved hist' →
      Served t' := fun hr' hC => hr'.invariant Served hC h₀.served
    fun w₁ e w₂ hI he hs => hI.step he hs
  exact hr.always_iff (fun hr' hC => (hinv hr' hC).flowing)
    fun hr' hC hs he => (hinv hr' hC).stranded he hs

/-- A response of 40 bytes, two of them its body. -/
def response : Bytes := statusLine ++ lengthLine 50 ++ [120, 121]

/-- The parser gets it in two parts, with one byte of the body in each. -/
def twoParts : List (List Bytes × ResponseParseResult) :=
  [([[120]], { state := .inProgress, contentLength := 2 }),
    ([[121]], { state := .done, contentLength := 2 })]

/-- The first part is delivered, and its byte written. -/
def firstPart : List (Event × Faults) :=
  requested ++
    [plainly (.inner (.dataEvent response) []), plainly (.transfer 39),
      plainly (.own (.file 0 (.ok 0))), plainly (.own (.file 0 (.ok 1)))]

/-- With a buffer of 40 bytes and a backlog of one chunk the socket then stays
stopped. -/
theorem receiving_stopped :
    ¬ ∀ (w₀ w : Throttled (Scripted twoParts))
      (hist : List (Throttled (Scripted twoParts) × Event × Faults)),
      Started w₀ → Runs w₀ hist w → ∀ x, Passes hist w x → Flowing x := by
  intro hall
  obtain ⟨hist, w, hexec, hreceiving, hops, hstopped⟩ : ∃ hist w,
      exec step (begun twoParts 40 1) firstPart = some (hist, w) ∧
        Receiving w ∧ w.owner.fileOps = [] ∧ w.sock.stopped = true := by
    refine ⟨_, _, rfl, ?_, ?_, ?_⟩
    · exact ⟨rfl, rfl, rfl, rfl, by decide, rfl⟩
    · rfl
    · rfl
  have hflow := hall _ w hist (started_begun twoParts 40 1)
    (run_of_exec hexec) w .last hreceiving hops
  exact absurd (hflow.symm.trans hstopped) Bool.false_ne_true

/-- With room for one byte more the socket is told to read again. -/
theorem receiving_resumed : ∃ hist w, Runs (begun twoParts 41 1) hist w ∧
    Receiving w ∧ w.owner.fileOps = [] ∧ ∀ x, Passes hist w x → Flowing x := by
  obtain ⟨hist, w, hexec, hreceiving, hops, hC⟩ : ∃ hist w,
      exec step (begun twoParts 41 1) firstPart = some (hist, w) ∧
        Receiving w ∧ w.owner.fileOps = [] ∧ Meets Relieved hist := by
    refine ⟨_, _, rfl, ?_, ?_, ?_⟩
    · exact ⟨rfl, rfl, rfl, rfl, by decide, rfl⟩
    · rfl
    · unfold Meets Relieved
      decide
  exact ⟨hist, w, run_of_exec hexec, hreceiving, hops,
    (receiving_unstopped_iff (started_begun twoParts 41 1)
      (run_of_exec hexec)).mpr hC⟩

end Throttled

end DownloaderSimple

end EcwidDownloader
