import EcwidDownloader.Proofs.DownloaderNet

/-!
# The steps of a download

One event of a download that has not ended: it goes on, in phases the event
determines, or it fails, or it makes its final report. The conditions below name
the events after which it does something else than it should; they are about the
state the event finds and about what the parser makes of the data.
-/

namespace EcwidDownloader

open Lib

namespace DownloaderSimple

variable {S P : Type}

/-- The read timeout cannot be armed for a response that goes on. -/
def TimerFails [HttpParser P] (w : World S P) (event : Event) : Prop :=
  w.owner.faults.timer.head?.join ≠ none ∧
    ∃ r, parsed w event = some r ∧ r.2.state = .inProgress

/-- The read timeout cannot be armed while the file is open and has nothing to
do. -/
def LapsesIdle [HttpParser P] (w : World S P) (event : Event) : Prop :=
  w.owner.fileOpenned = true ∧ w.owner.fileOperationStarted = false ∧
    w.owner.faults.timer.head?.join ≠ none ∧
    ∃ r, parsed w event = some r ∧ r.1 = [] ∧ r.2.state = .inProgress

/-- The response is complete, without a further chunk, while the file is open
and has nothing to do. -/
def EndsUnfed [HttpParser P] (w : World S P) (event : Event) : Prop :=
  w.owner.fileOpenned = true ∧ w.owner.fileOperationStarted = false ∧
    ∃ r, parsed w event = some r ∧ r.1 = [] ∧ r.2.state = .done

/-- The file operations an event starts before the close an error calls for. -/
def place [HttpParser P] (w : World S P) : Event → Nat
  | .file index (.ok size) =>
      match w.owner.fileOps[index]? with
      | some op => FileOp.starts size w op
      | none => 0
  | event =>
      match parsed w event with
      | some r => if r.1 = [] ∨ w.owner.fileOperationStarted then 0 else 1
      | none => 0

/-- The world the listeners of an event find. -/
def during (w : World S P) : Event → World S P
  | .file index _ => completed index w
  | _ => w

/-- The close of the file fails, which is heard of or follows a failure, and no
other close has been or is being made. -/
def ClosesBadly (w : World S P) : Event → Prop
  | .file index (.error _) =>
      w.owner.fileOps[index]? = some .close ∧
        (.closeError ∈ w.owner.file.getD [] ∨
          w.owner.status.state = .failed) ∧
        w.owner.disk.closed = false ∧
        FileOp.close ∉ (completed index w).owner.fileOps
  | _ => False

/-- `stop()` finds the file closed. -/
def StopsLate (w : World S P) (event : Event) : Prop :=
  event = .stop ∧ w.owner.disk.closed = true

/-- An error among these events gets the file closed and unlinked. -/
structure Tended [HttpParser P] (w : World S P) (event : Event) : Prop where
  spared : Spared (place w event) (during w event)
  closes : ¬ ClosesBadly w event
  early : ¬ StopsLate w event

/-- The write that the first of several chunks calls for is refused. -/
def Overruns [HttpParser P] (w : World S P) (event : Event) : Prop :=
  w.owner.fileOpenned = true ∧ w.owner.fileOperationStarted = false ∧
    w.owner.faults.file[0]?.join ≠ none ∧
    ∃ r, parsed w event = some r ∧ 2 ≤ r.1.length

/-- `stop()` finds the file being closed. -/
def StopsClosing (w : World S P) (event : Event) : Prop :=
  event = .stop ∧ FileOp.close ∈ w.owner.fileOps

/-- An error among these events makes no call of the file but its close. -/
structure Frugal [HttpParser P] (w : World S P) (event : Event) : Prop where
  single : ¬ Overruns w event
  early : ¬ StopsClosing w event

/-- The state a callback of `close_handles` reports. -/
def Callback.state : Callback → State
  | .reportRedirect => .redirect
  | .reportDone => .done

variable [TCPSocket S]

/-- What one event makes of a download that has not ended. -/
inductive Outcome [HttpParser P] (D : Demands S) (w : World S P)
    (event : Event) (w' : World S P) : Prop
  | alive {n : Net} {f : Fil} : n.settled = true → Alive D n f w' →
      Outcome D w event w'
  | failed : Failed w' → (Tended w event → Disposed w') →
      (Frugal w event → Rested w') → Outcome D w event w'
  | lapsed {f : Fil} : TimerFails w event → Lapsed f w' →
      (f = .idle → LapsesIdle w event) → Outcome D w event w'
  | closed : Reported .done .closed w' → Outcome D w event w'
  | shutDown {f : Fil} (cb : Callback) : event = .socket .shutdownEvent →
      listens (.shutdownDone cb) w → pipeline w' = pipeline w →
      (cb = .reportDone → w.owner.fileOpenned = false) →
      (f.ending = true → cb = .reportDone) →
      Reported (Callback.state cb) f w' → Outcome D w event w'

section

variable {D : Demands S} {n : Net} {f : Fil} {w : World S P}

/-- Before the body the file has not been asked for. -/
theorem Alive.file_none (h : Alive D n f w) (hn : n.bodily = false) :
    f = .none := by
  by_contra hf
  exact absurd (hn.symm.trans (h.body hf)) Bool.false_ne_true

omit [TCPSocket S] in
theorem Online.listens_iff (h : Online n w) {l : SocketListener} :
    listens l w ↔ l ∈ n.socket.getD [] := by
  unfold listens
  rw [show w.owner.socket = n.socket from h.line.socket]

variable [HttpParser P]

theorem Read.outcome {r : List Bytes × ResponseParseResult}
    {event : Event} {w₀ w w' : World S P} (h : Read D f r w w')
    (hfaults : w.owner.faults = w₀.owner.faults)
    (hr : parsed w₀ event = some r)
    (hspared : Tended w₀ event → Spared (f.startsFor r.1) w)
    (hsingle : Frugal w₀ event → ¬ f.Overruns r.1 w)
    (hpipe : f.Holds (pipeline w₀)) : Outcome D w₀ event w' := by
  cases h with
  | alive hn _ ha => exact .alive hn.settled ha
  | failed hf hd hrest => exact .failed hf (hd ∘ hspared) (hrest ∘ hsingle)
  | lapsed hres hfault _ hl =>
      refine .lapsed ⟨hfaults ▸ hfault, r, hr, hres⟩ hl fun hidle => ?_
      obtain ⟨hnil, rfl⟩ := Fil.after_idle hidle
      exact ⟨hpipe.openned, hpipe.started, hfaults ▸ hfault, r, hr, hnil, hres⟩

omit [HttpParser P] in
/-- An event of the socket that nobody listens for. -/
theorem Online.deaf [HttpParser P] {event : SocketEvent} (h : Online n w)
    (ht : n.socket.taken event.kind = []) : onSocketEvent event w = w := by
  have hs : w.owner.socket = n.socket := h.line.socket
  cases event with
  | errorEvent err => exact onSocketError_deaf err (by rw [hs]; exact ht)
  | _ =>
      simp only [onSocketEvent]
      rw [hs, ht, Handle.clearKind_of_taken_nil ht, ← hs]
      rfl

theorem Alive.deaf {event : SocketEvent} {e : Event} (h : Alive D n f w)
    (hn : n.settled = true) (ht : n.socket.taken event.kind = []) :
    Outcome D w e (onSocketEvent event w) := by
  rw [h.online.deaf ht]
  exact .alive hn h

omit [TCPSocket S] in
/-- The parser has a say in the data of the socket and in its end only. -/
theorem Tended.spared_of_unparsed {event : Event} (h : Tended w event)
    (hparsed : parsed w event = none)
    (hfile : ∀ index result, event ≠ .file index result) : Spared 0 w := by
  have hspared := h.spared
  cases event with
  | file index result => exact absurd rfl (hfile _ _)
  | _ => simpa [place, hparsed, during] using hspared

omit [TCPSocket S] in
/-- An event the parser makes something of. -/
theorem Tended.spared_of_parsed {event : Event} (h : Tended w event)
    {r : List Bytes × ResponseParseResult} (hparsed : parsed w event = some r) :
    Spared
      (if r.1 = [] ∨ w.owner.fileOperationStarted then 0 else 1) w := by
  have hspared := h.spared
  cases event with
  | socket event =>
      simp only [place, hparsed, during] at hspared
      exact hspared
  | _ => cases hparsed

/-- An error no chunk and no operation of the file precedes. -/
theorem Alive.fails (h : Alive D n f w) {event : Event} {w' : World S P}
    (hf : Failing w w') (hparsed : parsed w event = none)
    (hfile : ∀ index result, event ≠ .file index result)
    (hclosed : Tended w event → f ≠ .closed)
    (hclosing : Frugal w event → f ≠ .closing) : Outcome D w event w' :=
  .failed (hf.failed h.online.trace)
    (fun ht => h.disposed hf.disposing (hclosed ht)
      (ht.spared_of_unparsed hparsed hfile))
    fun ho => h.rested hf.disposing (hclosing ho)

omit [HttpParser P] in
theorem Alive.not_closed (h : Alive D n f w) (hn : n.done = false) :
    f ≠ .closed := by
  rintro rfl
  exact absurd (h.ending rfl) (by rw [hn]; exact Bool.false_ne_true)

omit [HttpParser P] in
theorem Alive.not_closing (h : Alive D n f w) (hn : n.done = false) :
    f ≠ .closing := by
  rintro rfl
  exact absurd (h.ending rfl) (by rw [hn]; exact Bool.false_ne_true)

theorem Alive.onSocketError (h : Alive D n f w) (hn : n.settled = true)
    (err : ErrorEvent) :
    Outcome D w (.socket (.errorEvent err))
      (onSocketEvent (.errorEvent err) w) := by
  rcases h.online.onSocketError err with ⟨hd, hf⟩ | hsame
  · exact h.fails hf rfl nofun (fun _ => h.not_closed hd)
      fun _ => h.not_closing hd
  · have hdeaf : onSocketEvent (.errorEvent err) w = w := hsame
    rw [hdeaf]
    exact .alive hn h

theorem Alive.onConnected (h : Alive D n f w) (hn : n.settled = true)
    (e : Event) : Outcome D w e (onSocketEvent .connectEvent w) := by
  cases n with
  | connecting ip =>
      obtain rfl := h.file_none rfl
      have hs : w.owner.socket = (Net.connecting ip).socket :=
        h.online.line.socket
      simp only [onSocketEvent, hs]
      rcases onConnect_launched h [.connectError ip] with ha | ⟨hf, hd, hrest⟩
      · exact .alive rfl ha
      · exact .failed hf (fun _ => hd) fun _ => hrest
  | reading ended => cases hn
  | receiving ended => cases ended <;> exact h.deaf rfl rfl
  | _ => exact h.deaf rfl rfl

theorem Alive.onRequestWritten (h : Alive D n f w) (hn : n.settled = true)
    (e : Event) : Outcome D w e (onSocketEvent .writeEvent w) := by
  cases n with
  | requesting =>
      obtain rfl := h.file_none rfl
      have hs : w.owner.socket = Net.requesting.socket := h.online.line.socket
      simp only [onSocketEvent, hs]
      rcases onWriteHttpRequest_launched h [.requestError] with ha | ⟨hf, hd, hrest⟩
      · exact .alive rfl ha
      · exact .failed hf (fun _ => hd) fun _ => hrest
  | reading ended => cases hn
  | receiving ended => cases ended <;> exact h.deaf rfl rfl
  | _ => exact h.deaf rfl rfl

/-- The event comes to a call of `on_read`, which finds the rest of the download
as the event does. -/
inductive Reads (D : Demands S) (f : Fil) (w : World S P) (event : Event)
    (w' : World S P) : Prop
  | intro {ended : Bool} {parser : P} {data : Bytes} {w₁ : World S P} :
      Alive D (.reading ended) f w₁ → w₁.owner.httpParser = some parser →
      (∃ socket httpParser peerEnded, w₁ =
        { w with
          owner.socket := socket
          owner.httpParser := httpParser
          owner.peerEnded := peerEnded }) →
      parsed w event = some (HttpParser.responseParse parser data).2 →
      w' = onRead data w₁ → Reads D f w event w'

omit [TCPSocket S] [HttpParser P] in
theorem Fil.Holds.startsFor_eq {f : Fil} {w : World S P}
    (h : f.Holds (pipeline w)) (chunks : List Bytes) :
    (if chunks = [] ∨ w.owner.fileOperationStarted then 0 else 1) =
      f.startsFor chunks := by
  rw [show w.owner.fileOperationStarted = f.started from h.started]
  unfold Fil.startsFor Fil.starts
  by_cases hc : chunks = [] <;> simp [hc]

theorem Reads.outcome {event : Event} {w w' : World S P}
    (h : Reads D f w event w') (hpipe : f.Holds (pipeline w))
    (hstuck : EndsUnfed w event → D.stuck) : Outcome D w event w' := by
  obtain ⟨ha, hparser, ⟨_, _, _, rfl⟩, hparsed, rfl⟩ := h
  refine (onRead_read ha hparser fun hnil hres hf => ?_).outcome rfl hparsed
    (fun ht => ?_) (fun ho => ?_) hpipe
  · subst hf
    exact hstuck ⟨hpipe.openned, hpipe.started, _, hparsed, hnil, hres⟩
  · have hspared := ht.spared_of_parsed hparsed
    rw [hpipe.startsFor_eq] at hspared
    exact hspared.of_eq rfl rfl
  · rintro ⟨rfl, hmore, hrefused⟩
    exact ho.single ⟨hpipe.openned, hpipe.started, hrefused, _, hparsed, hmore⟩

/-- The first data of the response. -/
theorem Alive.readsFirst {data : Bytes} (h : Alive D .waiting f w)
    (hpeer : w.owner.peerEnded = false) :
    Reads D f w (.socket (.dataEvent data))
      (onSocketEvent (.dataEvent data) w) := by
  have hs : w.owner.socket = Net.waiting.socket := h.online.line.socket
  have hread : Alive D (.reading false) f
      { w with
        owner.socket := some [.responseError, .endRead]
        owner.httpParser := some (HttpParser.create : P) } :=
    ⟨⟨⟨h.online.line.resolver, rfl, h.online.line.netTimer, rfl,
      h.online.line.receiveDone, h.online.line.connected, hpeer⟩,
      h.online.state, h.online.trace⟩, h.pipe, fun _ => rfl,
      fun hf => absurd (h.ending hf) nofun, fun _ => h.flows rfl, nofun⟩
  refine .intro hread rfl ⟨_, _, _, rfl⟩
    (if_pos (h.online.listens_iff.mpr (by simp [Net.socket]))) ?_
  simp only [onSocketEvent, hs]
  rfl

omit [HttpParser P] in
/-- The phase a download is in while `on_read` runs. -/
theorem Alive.reading {ended ended' peerEnded : Bool}
    {listeners : Handle SocketListener} (h : Alive D (.receiving ended) f w)
    (hl : listeners = (Net.reading ended').socket)
    (hpeer : peerEnded = ended') (hflow : ended' = false → ended = false) :
    Alive D (.reading ended') f
      { w with owner.socket := listeners, owner.peerEnded := peerEnded } := by
  refine ⟨⟨⟨h.online.line.resolver, hl, h.online.line.netTimer,
    h.online.line.parsing, h.online.line.receiveDone, h.online.line.connected,
    hpeer⟩, h.online.state, h.online.trace⟩, h.pipe, fun _ => rfl,
    fun hf => absurd (h.ending hf) nofun, fun hfl => h.flows ?_, nofun⟩
  cases ended' with
  | false => rw [hflow rfl]; rfl
  | true => cases hfl

/-- More data of the response. -/
theorem Alive.readsNext {data : Bytes} (h : Alive D (.receiving false) f w) :
    Reads D f w (.socket (.dataEvent data))
      (onSocketEvent (.dataEvent data) w) := by
  have hs : w.owner.socket = (Net.receiving false).socket :=
    h.online.line.socket
  have hpeer : w.owner.peerEnded = false := h.online.line.peer
  obtain ⟨parser, hparser⟩ :=
    Option.isSome_iff_exists.mp (h.online.line.parsing)
  have hparsed : parsed w (.socket (.dataEvent data)) =
      some (HttpParser.responseParse parser data).2 := by
    refine (if_neg (h.online.listens_iff.not.mpr (by simp [Net.socket]))).trans
      ((if_pos (h.online.listens_iff.mpr (by simp [Net.socket]))).trans ?_)
    rw [show w.owner.httpParser = some parser from hparser]
    rfl
  have hread : Alive D (.reading false) f
      { w with owner.socket := some [.responseError, .endRead] } :=
    h.reading rfl hpeer fun _ => rfl
  refine .intro hread hparser ⟨_, _, _, rfl⟩ hparsed ?_
  simp only [onSocketEvent, hs]
  rfl

/-- The end of the stream while the response is received. -/
theorem Alive.readsEnd (h : Alive D (.receiving false) f w) :
    Reads D f w (.socket .endEvent)
      (onSocketEvent .endEvent { w with owner.peerEnded := true }) := by
  have hs : w.owner.socket = (Net.receiving false).socket :=
    h.online.line.socket
  obtain ⟨parser, hparser⟩ :=
    Option.isSome_iff_exists.mp (h.online.line.parsing)
  have hparsed : parsed w (.socket .endEvent) =
      some (HttpParser.responseParse parser []).2 := by
    refine (if_pos (h.online.listens_iff.mpr (by simp [Net.socket]))).trans ?_
    rw [show w.owner.httpParser = some parser from hparser]
    rfl
  have hread : Alive D (.reading true) f
      { w with
        owner.socket := some [.responseError, .nextData]
        owner.peerEnded := true } :=
    h.reading rfl rfl nofun
  refine .intro hread hparser ⟨_, _, _, rfl⟩ hparsed ?_
  simp only [onSocketEvent, hs]
  rfl

/-- Data of the socket, before its end. -/
theorem Alive.onDataEvent {data : Bytes} (h : Alive D n f w)
    (hn : n.settled = true) (hpeer : w.owner.peerEnded = false)
    (hstuck : EndsUnfed w (.socket (.dataEvent data)) → D.stuck) :
    Outcome D w (.socket (.dataEvent data))
      (onSocketEvent (.dataEvent data) w) := by
  cases n with
  | waiting => exact (h.readsFirst hpeer).outcome h.pipe hstuck
  | reading ended => cases hn
  | receiving ended =>
      have hend : w.owner.peerEnded = ended := h.online.line.peer
      rw [hpeer] at hend
      subst hend
      exact h.readsNext.outcome h.pipe hstuck
  | _ => exact h.deaf rfl rfl

omit [HttpParser P] in
/-- The end of the stream has been noted, in a phase that goes by it or in one
that does not. -/
theorem Alive.noteEnd (h : Alive D n f w) (hpeer : n.Peer true) :
    Alive D n f { w with owner.peerEnded := true } :=
  ⟨⟨⟨h.online.line.resolver, h.online.line.socket, h.online.line.netTimer,
    h.online.line.parsing, h.online.line.receiveDone,
    h.online.line.connected, hpeer⟩, h.online.state, h.online.trace⟩, h.pipe,
    h.body, h.ending, h.flows, h.stuck⟩

/-- The end of the stream. -/
theorem Alive.onEndEvent (h : Alive D n f w) (hn : n.settled = true)
    (hstuck : EndsUnfed w (.socket .endEvent) → D.stuck) :
    Outcome D w (.socket .endEvent)
      (onSocketEvent .endEvent { w with owner.peerEnded := true }) := by
  cases n with
  | waiting =>
      have hs : w.owner.socket = Net.waiting.socket := h.online.line.socket
      simp only [onSocketEvent, hs]
      have hparsed : parsed w (.socket .endEvent) = none :=
        if_neg (h.online.listens_iff.not.mpr (by simp [Net.socket]))
      have hf := fun text => failing text
        { w with
          owner.peerEnded := true
          owner.socket := some [.responseError, .firstData] }
      have hd : ∀ text, Disposing w (onError text _) := fun text =>
        (hf text).disposing.after rfl rfl rfl rfl rfl
      exact .failed ((hf _).failed h.online.trace)
        (fun ht => h.disposed (hd _) (h.not_closed rfl)
          (ht.spared_of_unparsed hparsed (by simp)))
        fun _ => h.rested (hd _) (h.not_closing rfl)
  | reading ended => cases hn
  | receiving ended =>
      cases ended with
      | false => exact h.readsEnd.outcome h.pipe hstuck
      | true =>
          rw [(h.noteEnd rfl).online.deaf rfl]
          exact .alive rfl (h.noteEnd rfl)
  | _ =>
      rw [(h.noteEnd trivial).online.deaf rfl]
      exact .alive rfl (h.noteEnd trivial)

/-- The downloader when the callback of `close_handles` is called. -/
def disconnected (w : World S P) : World S P :=
  { w with
    sock := TCPSocket.close w.sock
    owner.socketConnected := false
    owner.socket := none }

theorem onShutdown_eq {cb : Callback}
    (hs : w.owner.socket = some [.shutdownDone cb]) :
    onSocketEvent .shutdownEvent w = runCallback (disconnected w) cb := by
  simp only [onSocketEvent, hs]
  rfl

/-- The shutdown completes: the callback makes the final report, unless it is
for a response whose file is still open. -/
theorem Alive.onShutdown (h : Alive D n f w) (hn : n.settled = true) :
    Outcome D w (.socket .shutdownEvent) (onSocketEvent .shutdownEvent w) := by
  cases n with
  | shutting cb =>
      have hs : w.owner.socket = some [.shutdownDone cb] := h.online.line.socket
      have hlistens : listens (.shutdownDone cb) w :=
        h.online.listens_iff.mpr (List.mem_singleton_self _)
      have hdone : w.owner.receiveDone = (Net.shutting cb).done :=
        h.online.line.receiveDone
      have hnet : NetSilent (disconnected w) := by
        refine ⟨?_, rfl, ?_⟩
        · show w.owner.resolver.getD [] = []
          rw [show w.owner.resolver = none from h.online.line.resolver]
          rfl
        · show w.owner.netTimer.getD [] = []
          rw [show w.owner.netTimer = none from h.online.line.netTimer]
          rfl
      rw [onShutdown_eq hs]
      cases cb with
      | reportRedirect =>
          exact .shutDown .reportRedirect rfl hlistens rfl nofun
            (fun hf => absurd (h.ending hf) nofun)
            (reported_updateStatus _ hnet hdone h.pipe h.online.trace)
      | reportDone =>
          unfold runCallback
          simp only []
          split
          · next hopen =>
              refine .shutDown .reportDone rfl hlistens rfl (fun _ => ?_)
                (fun _ => rfl)
                (reported_updateStatus _ hnet hdone h.pipe h.online.trace)
              have hopen' : (!w.owner.fileOpenned) = true := hopen
              cases hf : w.owner.fileOpenned with
              | false => rfl
              | true => rw [hf] at hopen'; cases hopen'
          · exact .alive (n := .shut) rfl ⟨⟨⟨h.online.line.resolver, rfl,
              h.online.line.netTimer, h.online.line.parsing, hdone, rfl,
              trivial⟩,
              h.online.state, h.online.trace⟩, h.pipe, fun _ => rfl,
              fun _ => rfl, nofun, fun _ => h.stuck rfl⟩
  | reading ended => cases hn
  | receiving ended => cases ended <;> exact h.deaf rfl rfl
  | _ => exact h.deaf rfl rfl

/-- Any event of the socket. -/
theorem Alive.onSocketEvent {event : SocketEvent} (h : Alive D n f w)
    (hn : n.settled = true) (hdata : event.kind ≠ .data)
    (hend : event.kind ≠ .endOfStream) :
    Outcome D w (.socket event) (onSocketEvent event w) := by
  cases event with
  | errorEvent err => exact h.onSocketError hn err
  | connectEvent => exact h.onConnected hn _
  | writeEvent => exact h.onRequestWritten hn _
  | dataEvent data => exact absurd rfl hdata
  | endEvent => exact absurd rfl hend
  | shutdownEvent => exact h.onShutdown hn
  | closeEvent =>
      refine h.deaf hn ?_
      cases n with
      | reading ended => cases hn
      | receiving ended => cases ended <;> rfl
      | _ => rfl

/-- The resolver answers. -/
theorem Alive.onResolverEvent (h : Alive D n f w)
    (hsome : w.owner.resolver.isSome = true)
    (result : Except ErrorEvent IPAddress) :
    Outcome D w (.resolver result) (onResolverEvent result w) := by
  have hresolver : w.owner.resolver = n.resolver := h.online.line.resolver
  cases n with
  | resolving =>
      obtain rfl := h.file_none rfl
      simp only [DownloaderSimple.onResolverEvent, hresolver]
      cases result with
      | ok addr =>
          rcases onResolve_launched h addr with ha | ⟨hf, hd, hrest⟩
          · exact .alive rfl ha
          · exact .failed hf (fun _ => hd) fun _ => hrest
      | error err =>
          have hstate : w.owner.status.state = .onTheGo := h.online.state
          have hf := fun text => failing text
            { w with owner.resolver := none }
          show Outcome D w _ (if w.owner.status.state = .onTheGo then
            onError _ _ else onErrorWithoutTick _ _)
          rw [if_pos hstate]
          have hd : ∀ text, Disposing w (onError text _) := fun text =>
            (hf text).disposing.after rfl rfl rfl rfl rfl
          exact .failed ((hf _).failed h.online.trace)
            (fun ht => h.disposed (hd _) nofun
              (ht.spared_of_unparsed rfl (by simp)))
            fun _ => h.rested (hd _) nofun
  | _ =>
      rw [hresolver] at hsome
      exact absurd hsome Bool.false_ne_true

/-- A timeout. -/
theorem Alive.onTimerEvent (h : Alive D n f w) (hn : n.settled = true) :
    Outcome D w .timer (onTimerEvent w) := by
  have hquiet : w.owner.netTimer.taken .timer = [] →
      Outcome D w .timer (DownloaderSimple.onTimerEvent w) := by
    intro ht
    unfold DownloaderSimple.onTimerEvent
    rw [ht, Handle.clearKind_of_taken_nil ht]
    exact .alive hn ⟨⟨h.online.line, h.online.state, h.online.trace⟩, h.pipe,
      h.body, h.ending, h.flows, h.stuck⟩
  have hfires : n.done = false → (∃ text,
      w.owner.netTimer = some [.runError, .timeout text]) →
      Outcome D w .timer (DownloaderSimple.onTimerEvent w) := by
    rintro hd ⟨text, ht⟩
    simp only [DownloaderSimple.onTimerEvent, ht]
    have hf := failing text
      { w with
        owner.netTimer := some [.runError]
        owner.timerArmed := false }
    have hdisposing : Disposing w _ :=
      hf.disposing.after rfl rfl rfl rfl rfl
    exact .failed (hf.failed h.online.trace)
      (fun htend => h.disposed hdisposing (h.not_closed hd)
        (htend.spared_of_unparsed rfl (by simp)))
      fun _ => h.rested hdisposing (h.not_closing hd)
  have htimer : n.Timed w.owner.netTimer := h.online.line.netTimer
  cases n with
  | resolving => exact hquiet (by rw [show _ = _ from htimer]; rfl)
  | shutting cb => exact hquiet (by rw [show _ = _ from htimer]; rfl)
  | shut => exact hquiet (by rw [show _ = _ from htimer]; rfl)
  | _ => exact hfires rfl htimer

end

/-- The step lemma: what any event makes of a download that has not ended. -/
theorem Alive.step [HttpParser P] {D : Demands S} {n : Net} {f : Fil}
    {w w' : World S P} {event : Event} (h : Alive D n f w)
    (hn : n.settled = true) (hs : Handled w event w')
    (hstuck : EndsUnfed w event → D.stuck)
    (hstall : ∀ index size, event = .file index (.ok size) →
      n.flowing = true → ¬ Stalls D size w) : Outcome D w event w' := by
  cases hs with
  | resolver result hsome => exact h.onResolverEvent hsome result
  | data data hpeer => exact h.onDataEvent hn hpeer hstuck
  | ended => exact h.onEndEvent hn hstuck
  | socket event hdata hend => exact h.onSocketEvent hn hdata hend
  | timer _ => exact h.onTimerEvent hn
  | fileFailed err hop =>
      obtain ⟨hf, hd⟩ := h.fileFailed hop err
      refine .failed hf (fun ht => hd ?_ ht.spared)
        fun _ => h.pipe.rested hop err
      rintro rfl
      obtain ⟨hlisten, hclosed, hlast⟩ := h.pipe.lastClose hop
      exact ht.closes ⟨hop, .inl hlisten, hclosed, hlast⟩
  | fileDone hop hsize =>
      cases h.fileDone hop hsize (hstall _ _ rfl) with
      | alive ha => exact .alive hn ha
      | failed hf hd hrest =>
          refine .failed hf (fun ht => hd ?_) fun _ => hrest
          have hspared := ht.spared
          simp only [place, hop] at hspared
          exact hspared
      | reported _ hr => exact .closed hr
  | stop _ =>
      refine h.fails (failing _ w) rfl nofun (fun ht => ?_) fun ho => ?_
      · rintro rfl
        exact ht.early ⟨rfl, h.pipe.stored.2.2.2.1⟩
      · rintro rfl
        refine ho.early ⟨rfl, ?_⟩
        rw [show w.owner.fileOps = [.close] from h.pipe.stored.1]
        exact List.mem_singleton_self _

/-- The events the parser has a say in are those that come to `on_read`. -/
theorem Alive.reads_of_parsed [HttpParser P] {D : Demands S} {n : Net}
    {f : Fil} {w w' : World S P} {event : Event} (h : Alive D n f w)
    (hn : n.settled = true) (hs : Handled w event w')
    {r : List Bytes × ResponseParseResult} (hr : parsed w event = some r) :
    Reads D f w event w' := by
  cases hs with
  | data data hpeer =>
      have hdeaf : ¬ listens .firstData w → ¬ listens .nextData w → False := by
        intro h₁ h₂
        cases ((if_neg h₁).trans (if_neg h₂)).symm.trans hr
      rw [h.online.listens_iff, h.online.listens_iff] at hdeaf
      cases n with
      | waiting => exact h.readsFirst hpeer
      | reading ended => cases hn
      | receiving ended =>
          have hend : w.owner.peerEnded = ended := h.online.line.peer
          rw [hpeer] at hend
          subst hend
          exact h.readsNext
      | _ => exact (hdeaf (by simp [Net.socket]) (by simp [Net.socket])).elim
  | ended =>
      have hdeaf : ¬ listens .endRead w → False := by
        intro h₁
        cases (if_neg h₁).symm.trans hr
      rw [h.online.listens_iff] at hdeaf
      cases n with
      | reading ended => cases hn
      | receiving ended =>
          cases ended with
          | false => exact h.readsEnd
          | true => exact (hdeaf (by simp [Net.socket])).elim
      | _ => exact (hdeaf (by simp [Net.socket])).elim
  | socket event hdata hend =>
      cases event <;>
        first
        | exact absurd rfl hdata
        | exact absurd rfl hend
        | cases hr
  | resolver _ _ => cases hr
  | timer _ => cases hr
  | fileFailed _ _ => cases hr
  | fileDone _ _ => cases hr
  | stop _ => cases hr

/-! ## The start -/

omit [TCPSocket S] in
/-- A world before its first status: the object as it was made. -/
structure Unused (w : World S P) : Prop where
  httpParser : w.owner.httpParser.isSome = false
  socketConnected : w.owner.socketConnected = false
  receiveDone : w.owner.receiveDone = false
  trace : Underway w.owner.trace
  pipe : Fil.none.Holds (pipeline w)

/-- What `run` leaves when it returns true. A resolution that fails inside
`nodeAddrInfo` makes it return false. -/
theorem run_true [HttpParser P] {uri fname : String} {resources : Resources}
    {fault : Option ErrorEvent} {w w' : World S P}
    (h : run uri fname resources fault w = (true, w')) :
    ∃ uriParsed text, w' = setStatus .onTheGo text
      { assign .init { w with owner.fname := fname } with
        owner.uriParsed := uriParsed
        owner.socket := some []
        owner.netTimer := some []
        owner.resolver := some [.resolveError, .resolved] } := by
  unfold run at h
  simp only [] at h
  split at h
  · cases h
  · next uriParsed _ =>
      split at h
      · cases h
      · next w₁ hcreate =>
          have hcreated := createHandles_none hcreate
          cases fault with
          | none =>
              simp only [] at h
              split at h
              · cases h
                subst hcreated
                exact ⟨uriParsed, _, rfl⟩
              · cases h
          | some err =>
              simp only [] at h
              split at h
              · next hinit =>
                  subst hcreated
                  exact absurd (hinit.symm.trans
                    (terminated _).unseen.state) nofun
              · cases h

/-- The socket an event finds meets the demands if it is asked to. -/
theorem Alive.found {D : Demands S} {n : Net} {f : Fil} {w : World S P}
    (h : Alive D n f w) {o : Occurrence S} (hflows : D.flows o.sock) :
    Alive D n f (found w o) :=
  ⟨⟨h.online.line, h.online.state, h.online.trace⟩, h.pipe, h.body, h.ending,
    fun _ _ => hflows, h.stuck⟩

theorem run_alive [HttpParser P] {D : Demands S} {uri fname : String}
    {resources : Resources} {fault : Option ErrorEvent} {w w' : World S P}
    (hw : Unused w) (h : run uri fname resources fault w = (true, w')) :
    Alive D .resolving .none w' := by
  obtain ⟨uriParsed, text, rfl⟩ := run_true h
  refine ⟨⟨⟨rfl, rfl, rfl, hw.httpParser, hw.receiveDone, hw.socketConnected,
    trivial⟩, rfl, ?_⟩, hw.pipe, fun hf => absurd rfl hf, nofun, nofun, nofun⟩
  refine (hw.trace.append ?_).append ?_ <;>
    exact fun m hm => by
      rw [List.mem_singleton.mp hm]
      rfl

theorem started_alive [HttpParser P] {D : Demands S} {w : World S P}
    (h : Started w) : Alive D .resolving .none w := by
  obtain ⟨sock, backlog, uri, fname, resources, fault, hrun⟩ := h
  exact run_alive ⟨rfl, rfl, rfl, fun _ hm => absurd hm List.not_mem_nil,
    ⟨rfl, rfl, rfl, ⟨rfl, rfl, rfl, rfl, rfl⟩,
      fun _ hm => absurd hm List.not_mem_nil⟩⟩ hrun

end DownloaderSimple

end EcwidDownloader
