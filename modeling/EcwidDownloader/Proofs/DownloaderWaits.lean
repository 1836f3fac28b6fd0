import EcwidDownloader.Proofs.DownloaderStanding
import EcwidDownloader.Proofs.DownloaderTimer
import EcwidDownloader.Proofs.ListenersInPlace
import EcwidDownloader.Proofs.ResponseBody

/-!
# What a download waits for

A download that goes on has something in flight and a listener for it: the
address of its host, an operation of the socket that the armed timer bounds, the
shutdown of the socket, or an operation of the file. All of them are heard when
they fail, but for the shutdown.

There are two ways to lose the last of them. A shutdown that fails is heard by
nobody. And the file of a complete response is closed from `on_write` alone; if
the shutdown completes while that file is open and idle, nothing is left that
could enter `on_write`, and the callback of the shutdown leaves the report to
the file. There is no third way: `going_waits`.
-/

namespace EcwidDownloader

open Lib

namespace DownloaderSimple

variable {S P : Type}

/-- What a download can go on from. -/
inductive Waits [TCPSocket S] (T : Traffic S) (w : World S P) : Prop
  | address : Heard .addrInfo w.owner.resolver → Waits T w
  | timeout : w.owner.timerArmed = true → Awaits .timer w.owner.netTimer →
      Waits T w
  | shutdown : T.carries .shutdown w.sock → Awaits .shutdown w.owner.socket →
      Waits T w
  | file {op : FileOp} : op ∈ w.owner.fileOps →
      Heard op.kind w.owner.file → Waits T w

/-- The shutdown completes while the download goes on and the file of its
complete response is open and idle. -/
def Abandons (w : World S P) (event : Event) : Prop :=
  Going w ∧ event = .socket .shutdownEvent ∧
    listens (.shutdownDone .reportDone) w ∧ w.owner.fileOpenned = true ∧
    w.owner.fileOperationStarted = false

instance (w : World S P) (event : Event) : Decidable (Abandons w event) :=
  inferInstanceAs (Decidable (_ ∧ _ ∧ _ ∧ _ ∧ _))

instance {L : Type} [Listens L EventKind] (k : EventKind) (h : Handle L) :
    Decidable (Awaits k h) :=
  inferInstanceAs (Decidable (∃ l ∈ _, _))

/-- The shutdown fails: the call raises its error, or it is not in flight any
more when another event comes than that of its success. -/
def LosesShutdown [TCPSocket S] [HttpParser P] (T : Traffic S) (w : World S P)
    (o : Occurrence S) : Prop :=
  Going w ∧
    ((Shuts (found w o) o.event ∧ o.faults.socket.head?.join ≠ none) ∨
      (Awaits .shutdown w.owner.socket ∧ ¬ T.carries .shutdown o.sock ∧
        o.event ≠ .socket .shutdownEvent))

instance [TCPSocket S] [HttpParser P] (T : Traffic S)
    [∀ s, Decidable (T.carries .shutdown s)] (w : World S P)
    (o : Occurrence S) : Decidable (LosesShutdown T w o) :=
  inferInstanceAs (Decidable (_ ∧ (_ ∧ _ ∨ _ ∧ _ ∧ _)))

/-- No event leaves the file to nobody, and no shutdown fails. -/
def Overseen [TCPSocket S] [HttpParser P] (T : Traffic S) (w : World S P)
    (o : Occurrence S) : Prop :=
  ¬ Abandons w o.event ∧ ¬ LosesShutdown T w o

instance [TCPSocket S] [HttpParser P] (T : Traffic S)
    [∀ s, Decidable (T.carries .shutdown s)] (w : World S P)
    (o : Occurrence S) : Decidable (Overseen T w o) :=
  inferInstanceAs (Decidable (_ ∧ _))

/-- A shutdown that is called is in flight afterwards, unless the call raises
its error. -/
def Traffic.Starts [TCPSocket S] [HttpParser P] (T : Traffic S)
    (w : World S P) (o : Occurrence S) : Prop :=
  Shuts (found w o) o.event → ∀ w' ∈ step w o,
    (T.carries .shutdown w'.sock ↔ o.faults.socket.head?.join = none)

instance [TCPSocket S] [HttpParser P] (T : Traffic S)
    [∀ s, Decidable (T.carries .shutdown s)] (w : World S P)
    (o : Occurrence S) : Decidable (T.Starts w o) :=
  inferInstanceAs (Decidable (_ → ∀ w' ∈ step w o, _))

/-- The phases a timeout bounds. -/
def Net.ticking : Net → Bool
  | resolving | shutting _ | shut => false
  | _ => true

/-! ## Work on the file

A completion of the file can start another operation or a read of the socket,
and it can end the download. -/

/-- A property that an error gives, and that the rest of the work on the file
keeps. -/
structure Robust [TCPSocket S] (I : World S P → Prop) : Prop where
  error : ∀ text w, I (onError text w)
  keep : ∀ {w w' : World S P}, I w →
    w'.sock = w.sock ∨ w'.sock = TCPSocket.read w.sock →
    w'.owner.netTimer = w.owner.netTimer →
    w'.owner.timerArmed = w.owner.timerArmed →
    w'.owner.status.state = w.owner.status.state ∨
      w'.owner.status.state ≠ .onTheGo → I w'

namespace Robust

variable [TCPSocket S] {I : World S P → Prop} {w w' : World S P}

/-- An edit of other fields. -/
theorem same (hI : Robust I) (h : I w) (hsock : w'.sock = w.sock := by rfl)
    (htimer : w'.owner.netTimer = w.owner.netTimer := by rfl)
    (harmed : w'.owner.timerArmed = w.owner.timerArmed := by rfl)
    (hstate : w'.owner.status.state = w.owner.status.state := by rfl) : I w' :=
  hI.keep h (.inl hsock) htimer harmed (.inl hstate)

theorem onSocketError (hI : Robust I) (h : I w) (err : ErrorEvent) :
    I (onSocketError err w) := by
  refine List.foldlRecOn _ _ (hI.same h) fun w₁ h₁ l _ => ?_
  split
  · exact hI.error _ w₁
  · exact h₁

theorem onFileError (hI : Robust I) (h : I w) (err : ErrorEvent) :
    I (onFileError err w) := by
  refine List.foldlRecOn _ _ (hI.same h) fun w₁ h₁ l _ => ?_
  cases l with
  | openError | writeError | closeError => exact hI.error _ _
  | _ => exact h₁

theorem fileCall (hI : Robust I) (h : I w) (op : FileOp) :
    I (fileCall op w) := by
  rcases fileCall_cases op w with ⟨-, hc⟩ | ⟨err, -, hc⟩
  · rw [hc]
    exact hI.same h
  · have hrefused : I (refused op w) := hI.same h
    rw [hc]
    exact hI.onFileError hrefused err

theorem read (hI : Robust I) (h : I w) :
    I (DownloaderSimple.socketCall TCPSocket.read w) := by
  by_cases hs : w.owner.socket.isSome = true
  · have hread : I { w with
        sock := TCPSocket.read w.sock
        owner.faults.socket := w.owner.faults.socket.tail } :=
      hI.keep h (.inr rfl) rfl rfl (.inl rfl)
    rcases socketCall_cases TCPSocket.read hs with hc | ⟨err, hc⟩
    · rw [hc]
      exact hread
    · rw [hc]
      exact hI.onSocketError hread err
  · unfold DownloaderSimple.socketCall
    rw [if_neg hs]
    exact hI.same h

theorem onWrite (hI : Robust I) (h : I w) : I (onWrite w) := by
  unfold DownloaderSimple.onWrite
  split
  · split
    · exact hI.fileCall (hI.same h) .close
    · simp only []
      split
      · split
        · exact hI.read (hI.same h)
        · exact hI.same h
      · exact hI.same h
  · exact hI.fileCall (hI.same h) _

theorem onFileDone (hI : Robust I) (h : I w) (op : FileOp) (size : Nat) :
    I (onFileDone op size w) := by
  refine List.foldlRecOn _ _ (hI.same h) fun w₁ h₁ l _ => ?_
  cases l with
  | opened => exact hI.onWrite (hI.same h₁)
  | written =>
      simp only [runFileListener]
      split
      · exact hI.same h₁
      · exact hI.onWrite (hI.same h₁)
  | closed =>
      simp only [runFileListener]
      split
      · exact hI.keep h₁ (.inl rfl) rfl rfl (.inr State.noConfusion)
      · exact hI.same h₁
  | unlinkClosed | openError | writeError | closeError => exact hI.same h₁

end Robust

/-! ## The timer -/

/-- A timeout is listened for only while the timer runs. -/
def Wound (w : World S P) : Prop :=
  ∀ text, .timeout text ∈ w.owner.netTimer.getD [] →
    w.owner.timerArmed = true

theorem wound_of_silent {w : World S P} (h : w.owner.netTimer.getD [] = []) :
    Wound w := fun text hl => by
  rw [h] at hl
  exact absurd hl List.not_mem_nil

theorem wound_of_armed {w : World S P} (h : w.owner.timerArmed = true) :
    Wound w := fun _ _ => h

theorem Wound.congr {w w' : World S P} (h : Wound w)
    (htimer : w'.owner.netTimer = w.owner.netTimer := by rfl)
    (harmed : w'.owner.timerArmed = w.owner.timerArmed := by rfl) :
    Wound w' := fun text hl => by
  rw [harmed]
  exact h text (htimer ▸ hl)

theorem Online.wound {n : Net} {w : World S P} (h : Online n w)
    (hn : n.ticking = false) : Wound w := by
  refine wound_of_silent ?_
  have htimer : n.Timed w.owner.netTimer := h.line.netTimer
  cases n with
  | resolving => rw [show w.owner.netTimer = some [] from htimer]; rfl
  | shutting cb => rw [show w.owner.netTimer = none from htimer]; rfl
  | shut => rw [show w.owner.netTimer = none from htimer]; rfl
  | _ => cases hn

variable [TCPSocket S]

theorem wound_onError (text : String) (w : World S P) :
    Wound (onError text w) :=
  wound_of_silent (failing text w).past.net.netTimer

theorem wound_robust : Robust (Wound (S := S) (P := P)) where
  error := wound_onError
  keep h _ htimer harmed _ := h.congr htimer harmed

/-- A timer that fires has no timeout left to listen for. -/
theorem wound_onTimerEvent (w : World S P) : Wound (onTimerEvent w) := by
  refine List.foldlRecOn _ _ (fun text hl => ?_) fun w₁ h₁ l _ => ?_
  · have htaken := Handle.mem_taken.mpr ⟨hl, (rfl : _ = EventKind.timer)⟩
    cases ht : w.owner.netTimer with
    | none =>
        rw [ht] at htaken
        exact absurd htaken List.not_mem_nil
    | some ls =>
        rw [ht] at htaken
        have hnone : (Handle.clearKind .timer (some ls)).taken .timer = [] :=
          (Emitter.taken_clearKind _ _ _).trans (if_pos rfl)
        rw [hnone] at htaken
        exact absurd htaken List.not_mem_nil
  · cases l with
    | timeout text => exact wound_onError text w₁
    | runError => exact h₁

theorem foldl_onError_failed (text : String) :
    ∀ (ls : List TimerListener) {w : World S P},
    w.owner.status.state = .failed ∨ ls ≠ [] →
    (ls.foldl (fun w _ => onError text w) w).owner.status.state = .failed
  | [], _, h => h.resolve_right fun hne => hne rfl
  | _ :: ls, w, _ =>
      foldl_onError_failed text ls (.inl (failing text w).state)

/-- `net_timer->start` arms the timer, unless it raises its error in the call,
which ends the download if anybody listens for it. -/
theorem timerStart_or (w : World S P) :
    (timerStart w).owner.timerArmed = true ∨
      (timerStart w).owner.status.state = .failed ∨
      (timerStart w).owner.netTimer = w.owner.netTimer ∧
        w.owner.netTimer.taken .error = [] := by
  unfold timerStart
  split
  · unfold beginTimer
    cases hf : w.owner.faults.timer.head?.join with
    | none => exact .inl rfl
    | some err =>
        refine .inr ?_
        simp only [onTimerError]
        by_cases ht : w.owner.netTimer.taken .error = []
        · refine .inr ⟨?_, ht⟩
          rw [ht]
          exact Handle.clearKind_of_taken_nil ht
        · exact .inl (foldl_onError_failed _ _ (.inr ht))
  · next hs =>
      refine .inr (.inr ⟨rfl, ?_⟩)
      rw [Option.not_isSome_iff_eq_none.mp hs]
      rfl

/-- The timer of an operation that was started with it runs. -/
theorem armed_of_started {n : Net} {w : World S P}
    (h : Online n (startUnlessFailed w)) (hn : n.ticking = true) :
    (startUnlessFailed w).owner.timerArmed = true := by
  have hstate := h.state
  have htimer : n.Timed (startUnlessFailed w).owner.netTimer := h.line.netTimer
  unfold startUnlessFailed at hstate htimer ⊢
  split at hstate
  · next hgoes =>
      rw [if_pos hgoes] at htimer ⊢
      rcases timerStart_or w with harmed | hfailed | ⟨hsame, hnone⟩
      · exact harmed
      · rw [hfailed] at hstate
        cases hstate
      · have hlisten : ∃ text, w.owner.netTimer =
            some [.runError, .timeout text] := by
          rw [hsame] at htimer
          cases n <;> first | exact htimer | cases hn
        obtain ⟨text, ht⟩ := hlisten
        rw [ht] at hnone
        cases hnone
  · next hfailed =>
      exact absurd (Classical.not_not.mp hfailed)
        (by rw [hstate]; exact State.noConfusion)

theorem wound_launched {D : Demands S} {n : Net} {f : Fil} {w : World S P}
    {text : String} {onSocket : List SocketListener}
    {onTimer : List TimerListener} {call : S → S} {Q : Prop}
    (hn : n.launched = true)
    (h : Alive D n f (exchange text onSocket onTimer call w) ∨
      Failed (exchange text onSocket onTimer call w) ∧ Q) :
    Wound (exchange text onSocket onTimer call w) := by
  rcases h with ha | ⟨hf, -⟩
  · have hticking : n.ticking = true := by
      cases n <;> first | rfl | cases hn
    exact wound_of_armed (armed_of_started ha.online hticking)
  · exact wound_of_silent hf.past.net.netTimer

/-! ## One event -/

variable [HttpParser P]

/-- What a call of `on_read` leaves waits for the peer with a running timer. -/
theorem wound_onRead {ended : Bool} {f : Fil} {parser : P} {data : Bytes}
    {w : World S P} (h : Alive (anything S) (.reading ended) f w)
    (hp : w.owner.httpParser = some parser) : Wound (onRead data w) := by
  rw [onRead_eq h.online hp]
  rcases onDatas_fed (HttpParser.responseParse parser data).2.1
    (h.parsing (HttpParser.responseParse parser data).1) rfl rfl with
    ⟨ha, -⟩ | ⟨-, hf, -⟩
  · rw [afterParse_alive ha]
    have hsized := ha.sized
      (HttpParser.responseParse parser data).2.2.contentLength
    cases hres : (HttpParser.responseParse parser data).2.2.state with
    | inProgress =>
        cases hfault : (_ : World S P).owner.faults.timer.head?.join with
        | none => exact wound_of_armed (onResult_armed hsized hres hfault).1
        | some err =>
            exact wound_of_silent
              (onResult_lapsed hsized hres hfault).past.net.netTimer
    | redirect => exact (onResult_redirect hsized hres).online.wound rfl
    | done =>
        exact (onResult_done hsized hres fun _ => trivial).online.wound rfl
    | error =>
        exact wound_of_silent
          (onResult_error hsized hres).1.past.net.netTimer
  · unfold afterParse
    rw [if_pos hf.state]
    exact wound_of_silent hf.past.net.netTimer

variable {n : Net} {f : Fil} {w w' : World S P} {event : Event}

theorem Reads.wound (h : Reads (anything S) f w event w') : Wound w' := by
  obtain ⟨ha, hparser, -, -, rfl⟩ := h
  exact wound_onRead ha hparser

theorem Alive.wound_socket {event : SocketEvent}
    (h : Alive (anything S) n f w) (hn : n.settled = true) (hw : Wound w)
    (hdata : event.kind ≠ .data) (hend : event.kind ≠ .endOfStream) :
    Wound (DownloaderSimple.onSocketEvent event w) := by
  have hdeaf : n.socket.taken event.kind = [] →
      Wound (DownloaderSimple.onSocketEvent event w) := fun ht => by
    rw [h.online.deaf ht]
    exact hw
  cases event with
  | errorEvent err => exact wound_robust.onSocketError hw err
  | connectEvent =>
      cases n with
      | connecting ip =>
          obtain rfl := h.file_none rfl
          have hs : w.owner.socket = (Net.connecting ip).socket :=
            h.online.line.socket
          simp only [DownloaderSimple.onSocketEvent, hs]
          exact wound_launched rfl (onConnect_launched h [.connectError ip])
      | reading ended => cases hn
      | receiving ended => cases ended <;> exact hdeaf rfl
      | _ => exact hdeaf rfl
  | writeEvent =>
      cases n with
      | requesting =>
          obtain rfl := h.file_none rfl
          have hs : w.owner.socket = Net.requesting.socket :=
            h.online.line.socket
          simp only [DownloaderSimple.onSocketEvent, hs]
          exact wound_launched rfl
            (onWriteHttpRequest_launched h [.requestError])
      | reading ended => cases hn
      | receiving ended => cases ended <;> exact hdeaf rfl
      | _ => exact hdeaf rfl
  | shutdownEvent =>
      cases n with
      | shutting cb =>
          have hs : w.owner.socket = some [.shutdownDone cb] :=
            h.online.line.socket
          have hgone : Wound (disconnected w) := hw.congr
          rw [onShutdown_eq hs]
          cases cb with
          | reportRedirect => exact hgone.congr
          | reportDone =>
              simp only [runCallback]
              split
              · exact hgone.congr
              · exact hgone
      | reading ended => cases hn
      | receiving ended => cases ended <;> exact hdeaf rfl
      | _ => exact hdeaf rfl
  | dataEvent data => exact absurd rfl hdata
  | endEvent => exact absurd rfl hend
  | closeEvent =>
      cases n with
      | reading ended => cases hn
      | receiving ended => cases ended <;> exact hdeaf rfl
      | _ => exact hdeaf rfl

/-- The timer runs after every event that leaves a timeout to be listened
for. -/
theorem Alive.wound_step (h : Alive (anything S) n f w)
    (hn : n.settled = true) (hw : Wound w) (hh : Handled w event w') :
    Wound w' := by
  cases hh with
  | resolver result hsome =>
      have hresolver : w.owner.resolver = n.resolver := h.online.line.resolver
      cases n with
      | resolving =>
          obtain rfl := h.file_none rfl
          simp only [DownloaderSimple.onResolverEvent, hresolver]
          cases result with
          | ok addr => exact wound_launched rfl (onResolve_launched h addr)
          | error err =>
              have hstate : w.owner.status.state = .onTheGo := h.online.state
              show Wound (if w.owner.status.state = .onTheGo then
                onError _ _ else onErrorWithoutTick _ _)
              rw [if_pos hstate]
              exact wound_onError _ _
      | _ =>
          rw [hresolver] at hsome
          cases hsome
  | data data hpeer =>
      cases n with
      | waiting => exact (h.readsFirst hpeer).wound
      | receiving ended =>
          have hend : w.owner.peerEnded = ended := h.online.line.peer
          rw [hpeer] at hend
          subst hend
          exact h.readsNext.wound
      | reading ended => cases hn
      | _ =>
          rw [h.online.deaf rfl]
          exact hw
  | ended =>
      cases n with
      | waiting =>
          have hs : w.owner.socket = Net.waiting.socket :=
            h.online.line.socket
          simp only [DownloaderSimple.onSocketEvent, hs]
          exact wound_onError _ _
      | reading ended => cases hn
      | receiving ended =>
          cases ended with
          | false => exact h.readsEnd.wound
          | true =>
              rw [(h.noteEnd rfl).online.deaf rfl]
              exact hw.congr
      | _ =>
          rw [(h.noteEnd trivial).online.deaf rfl]
          exact hw.congr
  | socket event hdata hend => exact h.wound_socket hn hw hdata hend
  | timer _ => exact wound_onTimerEvent w
  | fileFailed err hop => exact wound_robust.onFileError hw.congr err
  | fileDone hop hsize => exact wound_robust.onFileDone hw.congr _ _
  | stop _ => exact wound_onError _ w

/-! ## The file after the response -/

/-- With the response complete and the socket gone the file is at work. -/
def Busy (w : World S P) : Prop :=
  w.owner.receiveDone = true → w.owner.socketConnected = false →
    w.owner.fileOpenned = true ∧ w.owner.fileOperationStarted = true

omit [TCPSocket S] [HttpParser P] in
theorem Online.busy (h : Online n w)
    (hn : n.done = false ∨ n.connected = true) : Busy w := by
  intro hdone hgone
  have hdone' : n.done = true := h.line.receiveDone.symm.trans hdone
  have hgone' : n.connected = false := h.line.connected.symm.trans hgone
  rcases hn with hn | hn
  · rw [hdone'] at hn
    cases hn
  · rw [hgone'] at hn
    cases hn

omit [TCPSocket S] [HttpParser P] in
theorem not_going_of_state (h : w.owner.status.state ≠ .onTheGo) :
    ¬ Going w := fun hg => h hg.1

omit [HttpParser P] in
theorem not_going_onError (text : String) (w : World S P) :
    ¬ Going (onError text w) :=
  not_going_of_state (by
    rw [(failing text w).state]
    exact State.noConfusion)

omit [TCPSocket S] [HttpParser P] in
theorem Failed.not_going (h : Failed w) : ¬ Going w :=
  not_going_of_state (by rw [h.state]; exact State.noConfusion)

omit [HttpParser P] in
theorem Writes.busy (h : Writes f w w') (hopen : f.openned = true)
    (hstart : f.started = true) (hg : Going w') : Busy w' := by
  cases h with
  | begun _ _ _ _ _ hp =>
      exact fun _ _ => ⟨hp.openned.trans hopen, hp.started.trans hstart⟩
  | failed _ _ hf _ _ _ =>
      exact absurd hg (not_going_of_state
        (by rw [hf.state]; exact State.noConfusion))

omit [HttpParser P] in
/-- An operation of the file that completes after the shutdown is followed by
another one, or by the report. -/
theorem Alive.busy_fileDone {index size : Nat} {op : FileOp}
    (h : Alive (anything S) .shut f w)
    (hop : w.owner.fileOps[index]? = some op) (hsize : size ≤ op.size)
    (hg : Going (onFileDone op size (completed index w))) :
    Busy (onFileDone op size (completed index w)) := by
  obtain ⟨hin, hops⟩ := h.pipe.inFlight hop
  have hdone : w.owner.receiveDone = true := h.online.line.receiveDone
  cases hin with
  | opening =>
      obtain ⟨hne, w₁, heq, hresumed⟩ :=
        onFileDone_opened h.pipe index size hops
      obtain ⟨chunk, queue, hb⟩ := List.exists_cons_of_ne_nil hne
      rw [heq] at hg ⊢
      exact (onWrite_chunk hresumed.ready
        (hresumed.buffer.trans hb)).busy rfl rfl hg
  | @writing chunk queue hb =>
      obtain ⟨w₁, heq, hresumed⟩ :=
        onFileDone_written h.pipe index hb hsize hops
      have hdone₁ : w₁.owner.receiveDone = true :=
        (congrArg Line.receiveDone hresumed.line).trans hdone
      rw [heq] at hg ⊢
      cases hleft : advanced size chunk queue with
      | nil =>
          exact (onWrite_last hresumed.ready (hresumed.buffer.trans hleft)
            hdone₁).busy rfl rfl hg
      | cons chunk' queue' =>
          exact (onWrite_chunk hresumed.ready
            (hresumed.buffer.trans hleft)).busy rfl rfl hg
  | closing =>
      obtain ⟨w₁, heq, hbeside, -⟩ := onFileDone_closed h.pipe index size hops
      have hgone : w₁.owner.socketConnected = false :=
        (congrArg Line.connected hbeside.line).trans h.online.line.connected
      rw [heq, hgone] at hg
      exact absurd hg (not_going_of_state State.noConfusion)

/-- The shutdown completes with the file at work, or the end is reported. -/
theorem Alive.busy_shutdown {cb : Callback}
    (h : Alive (anything S) (.shutting cb) f w)
    (ho : ¬ Abandons w (.socket .shutdownEvent))
    (hg : Going (DownloaderSimple.onSocketEvent .shutdownEvent w)) :
    Busy (DownloaderSimple.onSocketEvent .shutdownEvent w) := by
  have hs : w.owner.socket = some [.shutdownDone cb] := h.online.line.socket
  rw [onShutdown_eq hs] at hg ⊢
  cases cb with
  | reportRedirect =>
      exact absurd hg (not_going_of_state State.noConfusion)
  | reportDone =>
      simp only [runCallback] at hg ⊢
      split at hg
      · exact absurd hg (not_going_of_state State.noConfusion)
      · next hopen =>
          rw [if_neg hopen]
          have hopen' : w.owner.fileOpenned = true := by
            have hkept : (disconnected w).owner.fileOpenned =
                w.owner.fileOpenned := rfl
            simpa [hkept] using hopen
          have hlistens : listens (.shutdownDone .reportDone) w := by
            rw [listens, hs]
            exact List.mem_cons_self
          refine fun _ _ => ⟨hopen', ?_⟩
          by_contra hidle
          exact ho ⟨h.going, rfl, hlistens, hopen', Bool.eq_false_iff.mpr hidle⟩

omit [TCPSocket S] [HttpParser P] in
theorem Follows.receiving_or {state : ParseState} (h : Follows state n) :
    n.done = false ∨ n.connected = true := by
  cases h with
  | inProgress ended => exact .inl rfl
  | done | redirect => exact .inr rfl

theorem Reads.busy (h : Reads (anything S) f w event w') (hg : Going w') :
    Busy w' := by
  obtain @⟨_, _, data, w₁, ha, hparser, -, -, rfl⟩ := h
  have hread : Read (anything S) f _ w₁ (onRead data w₁) :=
    onRead_read ha hparser fun _ _ _ => trivial
  cases hread with
  | alive hn _ ha' => exact ha'.online.busy hn.receiving_or
  | failed hf _ _ => exact absurd hg hf.not_going
  | lapsed _ _ _ hl =>
      exact absurd (hg.2.symm.trans (reported_failed hl.failed))
        Bool.false_ne_true

omit [HttpParser P] in
/-- The success of the close is listened for when the response is complete. -/
theorem Alive.closed_done (h : Alive (anything S) n f w)
    (hl : .closed ∈ w.owner.file.getD []) : w.owner.receiveDone = true := by
  have hfile : w.owner.file = f.file := h.pipe.file
  rw [hfile] at hl
  have hending : f.ending = true := by
    cases f <;> first | rfl | simp [Fil.file] at hl
  exact h.online.line.receiveDone.trans (h.ending hending)

omit [TCPSocket S] [HttpParser P] in
theorem Net.over_of_done (h : n.done = true) :
    n = .shut ∨ ∃ cb, n = .shutting cb := by
  cases n with
  | shutting cb => exact .inr ⟨cb, rfl⟩
  | shut => exact .inl rfl
  | _ => cases h

/-- After the exchange the socket is heard for its shutdown only. -/
theorem Online.deaf_over {event : SocketEvent} (h : Online n w)
    (hn : n = .shut ∨ ∃ cb, n = .shutting cb)
    (hno : event = .shutdownEvent → ¬ ∃ cb, n = .shutting cb) :
    DownloaderSimple.onSocketEvent event w = w := by
  refine h.deaf ?_
  rcases hn with rfl | ⟨cb, rfl⟩
  · rfl
  · cases event with
    | shutdownEvent => exact absurd ⟨cb, rfl⟩ (hno rfl)
    | _ => rfl

/-- Once the response is complete only the shutdown and the file matter. -/
theorem Alive.busy_done (h : Alive (anything S) n f w)
    (hn : n.settled = true) (hdone : n.done = true) (hb : Busy w)
    (hshut : ¬ (event = .socket .shutdownEvent ∧ ∃ cb, n = .shutting cb))
    (hh : Handled w event w') (hg : Going w') : Busy w' := by
  have hover := Net.over_of_done hdone
  cases hh with
  | resolver result hsome =>
      rw [show w.owner.resolver = n.resolver from h.online.line.resolver]
        at hsome
      rcases hover with rfl | ⟨cb, rfl⟩ <;> cases hsome
  | data data _ =>
      rw [h.online.deaf_over hover SocketEvent.noConfusion]
      exact hb
  | ended =>
      have hpeer : n.Peer true := by
        rcases hover with rfl | ⟨cb, rfl⟩ <;> trivial
      rw [(h.noteEnd hpeer).online.deaf_over hover SocketEvent.noConfusion]
      exact hb
  | socket event _ _ =>
      rw [h.online.deaf_over hover fun he hcb => hshut ⟨congrArg _ he, hcb⟩]
      exact hb
  | timer _ =>
      have htimer : w.owner.netTimer = none := by
        have htimed : n.Timed w.owner.netTimer := h.online.line.netTimer
        rcases hover with rfl | ⟨cb, rfl⟩ <;> exact htimed
      unfold DownloaderSimple.onTimerEvent
      rw [htimer]
      exact hb
  | fileFailed err hop => exact absurd hg (h.fileFailed hop err).1.not_going
  | fileDone hop hsize =>
      rcases hover with rfl | ⟨cb, rfl⟩
      · exact h.busy_fileDone hop hsize hg
      · have hdry : (Net.shutting cb).flowing ≠ true := Bool.false_ne_true
        cases h.fileDone hop hsize fun hfl => absurd hfl hdry with
        | alive ha => exact ha.online.busy (.inr rfl)
        | failed hf _ _ => exact absurd hg hf.not_going
        | reported hshut _ => cases hshut
  | stop _ => exact absurd hg (not_going_onError _ w)

theorem Alive.busy_step (h : Alive (anything S) n f w)
    (hn : n.settled = true) (hb : Busy w) (ho : ¬ Abandons w event)
    (hh : Handled w event w') (hg : Going w') : Busy w' := by
  by_cases hshut : event = .socket .shutdownEvent ∧ ∃ cb, n = .shutting cb
  · obtain ⟨rfl, cb, rfl⟩ := hshut
    cases hh with
    | socket _ _ _ => exact h.busy_shutdown ho hg
  · cases hdone : n.done with
    | true => exact h.busy_done hn hdone hb hshut hh hg
    | false =>
        cases hparsed : parsed w event with
        | some r =>
            exact (h.reads_of_parsed hn hh hparsed).busy hg
        | none =>
            have hu := hh.unparsed hparsed
              (fun he cb hl => hshut ⟨he, cb, h.online.shutting_of_listens hl⟩)
              fun hl => h.closed_done hl
            have hsame : w'.owner.receiveDone = n.done :=
              hu.receiveDone.trans h.online.line.receiveDone
            intro hdone'
            rw [hsame, hdone] at hdone'
            cases hdone'

/-! ## The shutdown -/

/-- A shutdown that is awaited is in flight. -/
def AwaitedInFlight (T : Traffic S) (w : World S P) : Prop :=
  Awaits .shutdown w.owner.socket → T.carries .shutdown w.sock

variable {T : Traffic S}

omit [TCPSocket S] [HttpParser P] in
theorem Online.awaits_shutdown (h : Online n w)
    (ha : Awaits .shutdown w.owner.socket) : ∃ cb, n = .shutting cb := by
  obtain ⟨l, hl, hkind⟩ := ha
  cases l with
  | shutdownDone cb => exact ⟨cb, h.shutting_of_listens hl⟩
  | _ => cases hkind

/-- What `on_read` leaves of a download that goes on, by whether the socket gets
shut down. -/
theorem Reads.shut_or (h : Reads (anything S) f w event w')
    (hpipe : f.Holds (pipeline w)) (hg : Going w') :
    (¬ Shuts w event ∧ ¬ Awaits .shutdown w'.owner.socket) ∨
      Shuts w event ∧
        ∃ cb f', Alive (anything S) (.shutting cb) f' w' := by
  cases h with
  | @intro ended parser data w₁ ha hparser hframe hparsed heq =>
  subst heq
  have hfaults : w₁.owner.faults = w.owner.faults := by
    obtain ⟨_, _, _, rfl⟩ := hframe
    rfl
  have hread : Read (anything S) f (HttpParser.responseParse parser data).2 w₁
      (onRead data w₁) := onRead_read ha hparser fun _ _ _ => trivial
  generalize (HttpParser.responseParse parser data).2 = r at hparsed hread
  cases hread with
  | @alive n' f' hfollows hno ha' =>
      have hkept := not_refused hfaults hpipe hno
      cases hres : r.2.state with
      | inProgress =>
          rw [hres] at hfollows
          cases hfollows with
          | inProgress ended' =>
              refine .inl ⟨?_, fun haw => ?_⟩
              · rintro ⟨r', hr', hends, -⟩
                obtain rfl := Option.some.inj (hparsed.symm.trans hr')
                rcases hends with he | he <;> cases hres.symm.trans he
              · obtain ⟨cb, hcb⟩ := ha'.online.awaits_shutdown haw
                cases hcb
      | done =>
          rw [hres] at hfollows
          cases hfollows
          exact .inr ⟨⟨r, hparsed, .inl hres, hkept⟩, _, _, ha'⟩
      | redirect =>
          rw [hres] at hfollows
          cases hfollows
          exact .inr ⟨⟨r, hparsed, .inr hres, hkept⟩, _, _, ha'⟩
      | error =>
          rw [hres] at hfollows
          cases hfollows
  | failed hf _ _ => exact absurd hg hf.not_going
  | lapsed _ _ _ hl =>
      exact absurd (hg.2.symm.trans (reported_failed hl.failed))
        Bool.false_ne_true

omit [HttpParser P] in
/-- What is so of the socket while the download goes on. -/
theorem robust_of_read {Q : S → Prop}
    (hread : ∀ s, Q s → Q (TCPSocket.read s)) :
    Robust fun w : World S P => w.owner.status.state = .onTheGo → Q w.sock where
  error text w hstate := by
    rw [(failing text w).state] at hstate
    cases hstate
  keep {w w'} h hsock _ _ hstate hgoes := by
    have hq : Q w.sock := by
      rcases hstate with hsame | hne
      · exact h (hsame.symm.trans hgoes)
      · exact absurd hgoes hne
    rcases hsock with hs | hs
    · exact hs ▸ hq
    · exact hs ▸ hread _ hq

/-- While the shutdown is awaited an event changes nothing about what reading
does not change. -/
theorem Alive.shutting_step {Q : S → Prop} {cb : Callback}
    (hread : ∀ s, Q s → Q (TCPSocket.read s))
    (h : Alive (anything S) (.shutting cb) f w) (hq : Q w.sock)
    (hevent : event ≠ .socket .shutdownEvent) (hh : Handled w event w')
    (hg : Going w') :
    Q w'.sock ∧ ∃ f', Alive (anything S) (.shutting cb) f' w' := by
  cases hh with
  | resolver result hsome =>
      rw [show w.owner.resolver = none from h.online.line.resolver] at hsome
      cases hsome
  | data data _ =>
      rw [h.online.deaf_over (.inr ⟨cb, rfl⟩) SocketEvent.noConfusion]
      exact ⟨hq, f, h⟩
  | ended =>
      have hended := h.noteEnd trivial
      rw [hended.online.deaf_over (.inr ⟨cb, rfl⟩) SocketEvent.noConfusion]
      exact ⟨hq, f, hended⟩
  | socket event _ _ =>
      rw [h.online.deaf_over (.inr ⟨cb, rfl⟩)
        fun he _ => hevent (congrArg _ he)]
      exact ⟨hq, f, h⟩
  | timer _ =>
      have htimer : w.owner.netTimer = none := h.online.line.netTimer
      have hsilent : w.owner.netTimer.taken .timer = [] := by
        rw [htimer]
        rfl
      unfold DownloaderSimple.onTimerEvent
      rw [hsilent, Handle.clearKind_of_taken_nil hsilent]
      exact ⟨hq, f, ⟨h.online.line, h.online.state, h.online.trace⟩, h.pipe,
        h.body, h.ending, h.flows, h.stuck⟩
  | fileFailed err hop => exact absurd hg (h.fileFailed hop err).1.not_going
  | fileDone hop hsize =>
      have hdry : (Net.shutting cb).flowing ≠ true := Bool.false_ne_true
      have hkept := (robust_of_read (P := P) hread).onFileDone
        (w := completed _ w) (fun _ => hq) _ _ hg.1
      cases h.fileDone hop hsize fun hfl => absurd hfl hdry with
      | alive ha => exact ⟨hkept, _, ha⟩
      | failed hf _ _ => exact absurd hg hf.not_going
      | reported hshut _ => cases hshut
  | stop _ => exact absurd hg (not_going_onError _ w)

/-! ## Runs -/

/-- A download that goes on, with everything it waits for in place. -/
structure Poised (T : Traffic S) (w : World S P) : Prop where
  alive : ∃ n f, n.settled = true ∧ Alive (anything S) n f w
  wound : Wound w
  busy : Busy w
  carried : AwaitedInFlight T w

omit [HttpParser P] in
theorem Alive.waits_file (h : Alive (anything S) n f w)
    (hops : w.owner.fileOps ≠ []) : Waits T w := by
  obtain ⟨op, hop⟩ := List.exists_mem_of_ne_nil _ hops
  obtain ⟨index, hindex⟩ := List.getElem?_of_mem hop
  have hfile : w.owner.file = f.file := h.pipe.file
  refine .file hop ?_
  rw [hfile]
  exact (h.pipe.inFlight hindex).1.heard

omit [HttpParser P] in
theorem Alive.waits (h : Alive (anything S) n f w) (hn : n.settled = true)
    (hw : Wound w) (hb : Busy w) (hc : AwaitedInFlight T w) : Waits T w := by
  have hresolver : w.owner.resolver = n.resolver := h.online.line.resolver
  have htimed : n.Timed w.owner.netTimer := h.online.line.netTimer
  have hticks : (∃ text, w.owner.netTimer = some [.runError, .timeout text]) →
      Waits T w := by
    intro ⟨text, ht⟩
    have hl : .timeout text ∈ w.owner.netTimer.getD [] := by
      rw [ht]
      simp
    exact .timeout (hw text hl) ⟨_, hl, rfl⟩
  cases n with
  | resolving =>
      refine .address ?_
      rw [hresolver]
      exact Net.heard_resolver rfl
  | shutting cb =>
      have hawaits : Awaits .shutdown w.owner.socket :=
        ⟨.shutdownDone cb, h.online.listens_iff.mpr List.mem_cons_self, rfl⟩
      exact .shutdown (hc hawaits) hawaits
  | shut =>
      obtain ⟨hopen, hstart⟩ := hb h.online.line.receiveDone
        h.online.line.connected
      have hopen' : f.openned = true := h.pipe.openned.symm.trans hopen
      have hstart' : f.started = true := h.pipe.started.symm.trans hstart
      have hworks : w.owner.fileOps ≠ [] := by
        cases f with
        | writing =>
            obtain ⟨chunk, queue, -, hops, -⟩ := h.pipe.stored
            rw [show w.owner.fileOps = [_] from hops]
            exact List.cons_ne_nil _ _
        | closing =>
            rw [show w.owner.fileOps = [_] from h.pipe.stored.1]
            exact List.cons_ne_nil _ _
        | idle => cases hstart'
        | none | opening | closed => cases hopen'
      exact h.waits_file hworks
  | reading ended => cases hn
  | _ => exact hticks htimed

omit [HttpParser P] in
/-- With the exchange over and no shutdown in flight only the file is left. -/
theorem Waits.of_file (h : Waits T w) (hresolver : w.owner.resolver = none)
    (htimer : w.owner.netTimer = none)
    (hlost : T.carries .shutdown w.sock → ¬ Awaits .shutdown w.owner.socket) :
    w.owner.fileOps ≠ [] := by
  cases h with
  | address hh =>
      obtain ⟨⟨l, hl, -⟩, -⟩ := hh
      rw [hresolver] at hl
      exact absurd hl List.not_mem_nil
  | timeout _ ha =>
      obtain ⟨l, hl, -⟩ := ha
      rw [htimer] at hl
      exact absurd hl List.not_mem_nil
  | shutdown hc ha => exact absurd ha (hlost hc)
  | file hop _ => exact List.ne_nil_of_mem hop

omit [HttpParser P] in
/-- A download whose shutdown has failed. -/
theorem Alive.waits_lost {cb : Callback}
    (h : Alive (anything S) (.shutting cb) f w)
    (hlost : ¬ T.carries .shutdown w.sock) :
    Waits T w ↔ w.owner.fileOps ≠ [] :=
  ⟨fun hw => hw.of_file h.online.line.resolver h.online.line.netTimer
    fun hc => absurd hc hlost, h.waits_file⟩

theorem started_poised (h : Started w) : Poised T w := by
  have ha : Alive (anything S) .resolving .none w := started_alive h
  refine ⟨⟨_, _, rfl, ha⟩, ha.online.wound rfl, ha.online.busy (.inl rfl),
    fun haw => ?_⟩
  obtain ⟨cb, hcb⟩ := ha.online.awaits_shutdown haw
  cases hcb

variable {o : Occurrence S}

/-- A shutdown that is awaited after an event that is seen to is in flight. -/
theorem Alive.inFlight_step
    (hread : ∀ s, T.carries .shutdown s →
      T.carries .shutdown (TCPSocket.read s))
    (h : Alive (anything S) n f w) (hn : n.settled = true)
    (hstarts : T.Starts w o) (ho : ¬ LosesShutdown T w o)
    (hs : Lib.Graph DownloaderSimple.step w o w') (hg : Going w') :
    AwaitedInFlight T w' := by
  have hh : Handled (DownloaderSimple.found w o) o.event w' :=
    handled_of_handle hs
  have ha : Alive (anything S) n f (DownloaderSimple.found w o) :=
    h.found trivial
  intro haw
  by_cases hshutting : ∃ cb, n = .shutting cb
  · obtain ⟨cb, rfl⟩ := hshutting
    have hsocket : (DownloaderSimple.found w o).owner.socket =
        some [.shutdownDone cb] := ha.online.line.socket
    by_cases hevent : o.event = .socket .shutdownEvent
    · rw [hevent] at hh
      cases hh with
      | socket _ _ _ =>
          rw [onShutdown_eq hsocket] at haw
          obtain ⟨l, hl, -⟩ := haw
          cases cb with
          | reportRedirect => exact absurd hl List.not_mem_nil
          | reportDone =>
              simp only [runCallback] at hl
              split at hl
              · exact absurd hl List.not_mem_nil
              · exact absurd hl List.not_mem_nil
    · have hawaits : Awaits .shutdown w.owner.socket :=
        ⟨.shutdownDone cb, h.online.listens_iff.mpr List.mem_cons_self, rfl⟩
      have hcarried : T.carries .shutdown o.sock := by
        by_contra hno
        exact ho ⟨h.going, .inr ⟨hawaits, hno, hevent⟩⟩
      exact (ha.shutting_step hread hcarried hevent hh hg).1
  · cases hparsed : parsed (DownloaderSimple.found w o) o.event with
    | some r =>
        rcases (ha.reads_of_parsed hn hh hparsed).shut_or ha.pipe hg with
          ⟨-, hno⟩ | ⟨hshuts, -⟩
        · exact absurd haw hno
        · refine (hstarts hshuts w' hs).mpr ?_
          by_contra hfault
          exact ho ⟨h.going, .inl ⟨hshuts, hfault⟩⟩
    | none =>
        have hu := hh.unparsed hparsed
          (fun _ cb hl => hshutting ⟨cb, ha.online.shutting_of_listens hl⟩)
          fun hl => ha.closed_done hl
        obtain ⟨l, hl, hkind⟩ := haw
        cases l with
        | shutdownDone cb =>
            rcases hu.socket _ hl with hl | hlaunching
            · exact absurd ⟨cb, ha.online.shutting_of_listens hl⟩ hshutting
            · cases hlaunching
        | _ => cases hkind

omit [HttpParser P] in
theorem Poised.waits (h : Poised T w) : Waits T w := by
  obtain ⟨n, f, hn, ha⟩ := h.alive
  exact ha.waits hn h.wound h.busy h.carried

/-- The step lemma: a download that does not end by an event is poised again. -/
theorem Poised.step
    (hread : ∀ s, T.carries .shutdown s →
      T.carries .shutdown (TCPSocket.read s))
    (h : Poised T w) (hstarts : T.Starts w o) (ho : Overseen T w o)
    (hs : Lib.Graph DownloaderSimple.step w o w') : Poised T w' ∨
      w'.owner.trace.any Mark.reportsFinal = true := by
  have hh : Handled (found w o) o.event w' := handled_of_handle hs
  obtain ⟨n, f, hn, ha⟩ := h.alive
  have ha' : Alive (anything S) n f (found w o) := ha.found trivial
  have hwound : Wound (found w o) := h.wound.congr
  have hbusy : Busy (found w o) := h.busy
  obtain ⟨hstanding, hgoing⟩ := ha.going.step (.alive hn ha) hs
  cases hfinal : w'.owner.trace.any Mark.reportsFinal with
  | true => exact .inr rfl
  | false =>
      have hg := hgoing.mpr hfinal
      exact .inl ⟨hstanding.alive_of_going hg,
        ha'.wound_step hn hwound hh, ha'.busy_step hn hbusy ho.1 hh hg,
        ha.inFlight_step hread hn hstarts ho.2 hs hg⟩

/-- After an event that is not seen to at most the file is left. -/
theorem Poised.overlooked (h : Poised T w) (hstarts : T.Starts w o)
    (ho : ¬ Overseen T w o) (hs : Lib.Graph DownloaderSimple.step w o w')
    (hg : Going w') : Waits T w' ↔ w'.owner.fileOps ≠ [] := by
  have hh : Handled (found w o) o.event w' := handled_of_handle hs
  obtain ⟨n, f, hn, ha₀⟩ := h.alive
  have ha : Alive (anything S) n f (found w o) := ha₀.found trivial
  rcases not_and_or.mp ho with habandons | hloses
  · obtain ⟨-, hevent, hl, hopen, hidle⟩ := not_not.mp habandons
    rw [hevent] at hh
    obtain rfl := ha.online.shutting_of_listens hl
    obtain rfl : f = .idle := by
      have hopen' : f.openned = true := ha.pipe.openned.symm.trans hopen
      have hidle' : f.started = false := ha.pipe.started.symm.trans hidle
      cases f with
      | idle => rfl
      | writing | closing => cases hidle'
      | none | opening | closed => cases hopen'
    cases hh with
    | socket _ _ _ =>
        have hsocket : (found w o).owner.socket =
            some [.shutdownDone .reportDone] := ha.online.line.socket
        have hkept : runCallback (disconnected (found w o)) .reportDone =
            disconnected (found w o) := by
          refine if_neg ?_
          show ¬ (!w.owner.fileOpenned) = true
          rw [hopen]
          exact Bool.false_ne_true
        rw [onShutdown_eq hsocket, hkept]
        have hops : (disconnected (found w o)).owner.fileOps = [] :=
          ha.pipe.stored.1
        refine ⟨fun hw => hw.of_file ha.online.line.resolver
          ha.online.line.netTimer fun _ haw => ?_, fun hne => absurd hops hne⟩
        obtain ⟨l, hl, -⟩ := haw
        exact absurd hl List.not_mem_nil
  · obtain ⟨-, ⟨hshuts, hfault⟩ | ⟨haw, hlost, hevent⟩⟩ := not_not.mp hloses
    · have ⟨r, hparsed, _⟩ := hshuts
      rcases (ha.reads_of_parsed hn hh hparsed).shut_or ha.pipe hg with
        ⟨hno, -⟩ | ⟨hshuts, cb, f', ha'⟩
      · exact absurd hshuts hno
      · exact ha'.waits_lost fun hc => hfault ((hstarts hshuts w' hs).mp hc)
    · obtain ⟨cb, rfl⟩ := ha₀.online.awaits_shutdown haw
      obtain ⟨hlost', f', ha'⟩ := ha.shutting_step
        (Q := fun s => ¬ T.carries .shutdown s)
        (fun s hno hc => (T.read hc).elim nofun hno) hlost hevent hh hg
      exact ha'.waits_lost hlost'

/-- A download that goes on waits for something, as long as no shutdown fails
and none completes while the file of a complete response is open and idle. The
first event of these kinds leaves an operation of the file at most. -/
theorem going_waits {w₀ w : World S P}
    {hist : List (World S P × Occurrence S)}
    (hread : ∀ s, T.carries .shutdown s →
      T.carries .shutdown (TCPSocket.read s))
    (h₀ : Started w₀)
    (hr : Run (fun w o w' => Lib.Graph step w o w' ∧ T.Starts w o) w₀ hist w)
    (hC : Meets (Overseen T) hist) :
    (∀ x, Passes hist w x → Going x → Waits T x) ∧
      ∀ o w', Lib.Graph step w o w' → T.Starts w o → ¬ Overseen T w o →
        Going w' → (Waits T w' ↔ w'.owner.fileOps ≠ []) := by
  have hinv : ∀ {hist' t'},
      Run (fun w o w' => Lib.Graph step w o w' ∧ T.Starts w o) w₀ hist' t' →
      Meets (Overseen T) hist' →
      Poised T t' ∨ t'.owner.trace.any Mark.reportsFinal = true :=
    fun hr' hC => hr'.invariant
      (fun x => Poised T x ∨ x.owner.trace.any Mark.reportsFinal = true) hC
      (.inl (started_poised h₀)) fun x o y hI ho hs => by
        rcases hI with hp | hfinal
        · exact hp.step hread hs.2 ho hs.1
        · exact .inr (Throttled.reportsFinal_of_grown (trace_step hs.1) hfinal)
  refine ⟨fun x hx => ?_, fun o w' hs hstarts ho hg => ?_⟩
  · refine hr.always (P := fun x => Going x → Waits T x) hC ?_ hx
    intro hist' x hr' hC' hg
    rcases hinv hr' hC' with hp | hfinal
    · exact hp.waits
    · exact absurd (hg.2.symm.trans hfinal) Bool.false_ne_true
  · rcases hinv hr hC with hp | hfinal
    · exact hp.overlooked hstarts ho hs hg
    · have hgoing : Going w := by
        rcases not_and_or.mp ho with habandons | hloses
        · exact (not_not.mp habandons).1
        · exact (not_not.mp hloses).1
      exact absurd (hgoing.2.symm.trans hfinal) Bool.false_ne_true

instance (s : Wire) : Decidable (Wire.traffic.carries .shutdown s) :=
  inferInstanceAs (Decidable (_ ∈ s.flight))

/-- The last write completes behind the end of the response, and the shutdown
before the close of the file. -/
def closedBehind : List (Occurrence Wire) :=
  [finding [] (.resolver (.ok {})), finding [] (.socket .connectEvent),
    finding [] (.socket .writeEvent),
    finding [.read] (.socket (.dataEvent firstChunk)),
    finding [.read] (.file 0 (.ok 0)),
    finding [.read] (.socket (.dataEvent [48, 13, 10, 13, 10])),
    finding [.shutdown] (.file 0 (.ok 1)),
    finding [] (.socket .shutdownEvent), finding [] (.file 0 (.ok 0))]

/-- The shutdown completes while the file is being closed, and the close reports
the end. -/
theorem going_waits_closing : ∃ hist w,
    Run (fun w o w' => Lib.Graph step w o w' ∧ Wire.traffic.Starts w o)
      (wired markerAlone) hist w ∧
    w.owner.status.state = .done ∧
      ∀ x, Passes hist w x → Going x → Waits Wire.traffic x := by
  obtain ⟨hist, w, hexec, hstate, hstarts, hC⟩ : ∃ hist w,
      exec step (wired markerAlone) closedBehind = some (hist, w) ∧
        w.owner.status.state = .done ∧ Meets Wire.traffic.Starts hist ∧
        Meets (Overseen Wire.traffic) hist :=
    ⟨_, _, rfl, rfl, by
      unfold Meets
      decide, by
      unfold Meets
      decide⟩
  have hr : Run (fun w o w' => Lib.Graph step w o w' ∧ Wire.traffic.Starts w o)
      (wired markerAlone) hist w := (run_of_exec hexec).restrict hstarts
  exact ⟨hist, w, hr, hstate,
    (going_waits (fun _ hs => List.mem_cons_of_mem _ hs)
      (started_wired markerAlone) hr hC).1⟩

end DownloaderSimple

end EcwidDownloader
