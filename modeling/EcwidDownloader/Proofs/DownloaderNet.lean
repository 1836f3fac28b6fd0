import EcwidDownloader.Proofs.DownloaderDisk

/-!
# The exchange of a download with its server

What the events of the resolver, the socket and the timer do to a download that
has not ended: each either takes it to the next phase of the exchange or fails
it. The one exception is a read timeout that cannot be armed again, after which
`on_read` goes on to report "Data received." for a download it has just failed.
-/

namespace EcwidDownloader

open Lib

namespace DownloaderSimple

variable {S P : Type}

/-! ## Marks of a download underway -/

theorem Underway.updateStatus {w : World S P} (h : Underway w.owner.trace)
    (text : String) :
    Underway (updateStatus .onTheGo text w).owner.trace := by
  have hmarks : ∀ r : Report, r.state = .onTheGo →
      Underway [.assigned r, .invoked r] := by
    intro r hr m hm
    have hrep : Mark.report m = r := by
      rcases List.mem_pair.mp hm with rfl | rfl <;> rfl
    rw [hrep, hr]
    rfl
  have htrace : (DownloaderSimple.updateStatus .onTheGo text w).owner.trace =
      w.owner.trace ++ [.assigned { report w with state := .onTheGo },
        .invoked { report w with state := .onTheGo }] :=
    List.append_assoc _ [_] [_]
  rw [htrace]
  exact h.append (hmarks _ rfl)

/-! ## Handles -/

namespace Handle

variable {L : Type} [Listens L EventKind]

theorem clearKind_of_taken_nil {h : Handle L} {k : EventKind}
    (ht : h.taken k = []) : h.clearKind k = h := by
  cases h with
  | none => rfl
  | some ls =>
      have hnone : ls.filter (fun l => Listens.kind l = k) = [] := by
        simpa [Handle.taken, Emitter.taken] using ht
      have hall : ls.filter (fun l => Listens.kind l ≠ k) = ls := by
        rw [List.filter_eq_self]
        intro l hl
        simpa using List.filter_eq_nil_iff.mp hnone l hl
      exact congrArg some hall

end Handle

variable [TCPSocket S]

/-- An event nobody listens for does nothing. -/
theorem onSocketError_deaf {w : World S P} (err : ErrorEvent)
    (ht : w.owner.socket.taken .error = []) : onSocketError err w = w := by
  unfold onSocketError
  rw [ht, Handle.clearKind_of_taken_nil ht]
  rfl

theorem timerStart_ok {w : World S P} (ht : w.owner.netTimer.isSome = true)
    (hf : w.owner.faults.timer.head?.join = none) :
    timerStart w =
      { w with
        owner.timerArmed := true
        owner.faults.timer := w.owner.faults.timer.tail } := by
  unfold timerStart beginTimer
  rw [if_pos ht, hf]
  rfl

theorem timerStart_fails {w : World S P} {text : String} {err : ErrorEvent}
    (ht : w.owner.netTimer = some [.runError, .timeout text])
    (hf : w.owner.faults.timer.head?.join = some err) :
    Failing w (timerStart w) := by
  unfold timerStart beginTimer
  rw [if_pos (by rw [ht]; rfl), hf]
  simp only [onTimerError, ht]
  have hfail := failing ("Net_timer run failed! " ++ err.toStr)
    { w with
      owner.timerArmed := false
      owner.faults.timer := w.owner.faults.timer.tail
      owner.netTimer :=
        Handle.clearKind .error (some [.runError, .timeout text]) }
  exact ⟨hfail.past, hfail.state, hfail.trace, hfail.receiveDone, hfail.file,
    hfail.httpParser, hfail.resolver, hfail.started, hfail.sock,
    hfail.disposing.after rfl rfl rfl rfl rfl⟩

/-! ## From the resolver to the response -/

/-- The phases that begin with an operation of the socket and a timeout. -/
def Net.launched : Net → Bool
  | .connecting _ | .requesting | .waiting => true
  | _ => false

theorem Net.bodily_of_launched {n : Net} (hn : n.launched = true) :
    n.bodily = false := by
  cases n <;> first | rfl | cases hn

theorem launch {D : Demands S} {n : Net} {w : World S P} {call : S → S}
    (h : Online n w) (hn : n.launched = true)
    (hp : Fil.none.Holds (pipeline w))
    (hfl : n.flowing = true → D.flows (call w.sock)) :
    Alive D n .none (startUnlessFailed (socketCall call w)) ∨
      Failed (startUnlessFailed (socketCall call w)) ∧
        Disposed (startUnlessFailed (socketCall call w)) ∧
        Rested (startUnlessFailed (socketCall call w)) := by
  have hstart : ∀ w' : World S P, Online n w' →
      Fil.none.Holds (pipeline w') → w'.sock = call w.sock →
      Alive D n .none (startUnlessFailed w') ∨
        Failed (startUnlessFailed w') ∧ Disposed (startUnlessFailed w') ∧
          Rested (startUnlessFailed w') := by
    intro w' h' hp' hs
    obtain ⟨text, ht⟩ : ∃ text,
        w'.owner.netTimer = some [.runError, .timeout text] := by
      have ht := h'.line.netTimer
      cases n <;> first | exact ht | cases hn
    have hstate : w'.owner.status.state ≠ .failed := by
      rw [h'.state]
      exact nofun
    unfold startUnlessFailed
    rw [if_pos hstate]
    cases hf : w'.owner.faults.timer.head?.join with
    | none =>
        rw [timerStart_ok (by rw [ht]; rfl) hf]
        refine .inl ⟨⟨h'.line, h'.state, h'.trace⟩, hp', fun hb => absurd rfl hb,
          nofun, fun hfl' _ => ?_, nofun⟩
        exact (show D.flows w'.sock from hs ▸ hfl hfl')
    | some err =>
        have hfail := timerStart_fails ht hf
        exact .inr ⟨hfail.failed h'.trace,
          hfail.disposing.never hp'.openned hp'.stored.2.2.2.2,
          hfail.disposing.rests (fun _ => hp'.openned) hp'.calls.spent⟩
  have hsome : w.owner.socket.isSome = true := h.socket_isSome (by
    cases n <;> first | rfl | cases hn)
  rcases socketCall_cases call hsome with hc | ⟨err, hc⟩
  · rw [hc]
    exact hstart _ ⟨h.line, h.state, h.trace⟩ hp rfl
  · rw [hc]
    have hcalled : Online n
        { w with
          sock := call w.sock
          owner.faults.socket := w.owner.faults.socket.tail } :=
      ⟨h.line, h.state, h.trace⟩
    rcases hcalled.onSocketError err with ⟨-, hf⟩ | hsame
    · unfold startUnlessFailed
      rw [if_neg (by rw [hf.state]; exact not_not_intro rfl)]
      exact .inr ⟨hf.failed h.trace,
        hf.disposing.never hp.openned hp.stored.2.2.2.2,
        hf.disposing.rests (fun _ => hp.openned) hp.calls.spent⟩
    · rw [hsame]
      exact hstart _ hcalled hp rfl

omit [TCPSocket S] in
theorem foldl_once {L : Type} [Listens L EventKind] (ls : List L) :
    ∀ ls₀ : List L,
    ls.foldl (fun (h : Handle L) l => h.once l) (some ls₀) =
      some (ls₀ ++ ls) := by
  induction ls with
  | nil => exact fun ls₀ => by rw [List.append_nil]; rfl
  | cons l ls ih =>
      intro ls₀
      rw [List.foldl_cons]
      refine (ih (ls₀ ++ [l])).trans ?_
      rw [List.append_assoc]
      rfl

/-- The start of an exchange, from handles that have no listeners but that for
errors of the timer. -/
theorem exchange_launched {D : Demands S} {n : Net} {w : World S P}
    {text timeout : String} {onSocket : List SocketListener}
    {timer₀ onTimer : List TimerListener} {call : S → S}
    (hn : n.launched = true) (hr : w.owner.resolver = none)
    (hs : w.owner.socket = some []) (hsocket : some onSocket = n.socket)
    (ht : w.owner.netTimer = some timer₀)
    (htimer : timer₀ ++ onTimer = [.runError, .timeout timeout])
    (hparser : w.owner.httpParser.isSome = false)
    (hd : w.owner.receiveDone = false)
    (hc : w.owner.socketConnected = n.connected)
    (htrace : Underway w.owner.trace) (hp : Fil.none.Holds (pipeline w))
    (hfl : n.flowing = true → D.flows (call w.sock)) :
    Alive D n .none (exchange text onSocket onTimer call w) ∨
      Failed (exchange text onSocket onTimer call w) ∧
        Disposed (exchange text onSocket onTimer call w) ∧
        Rested (exchange text onSocket onTimer call w) := by
  unfold exchange
  refine launch ⟨⟨?_, ?_, ?_, ?_, ?_, hc, ?_⟩, rfl, htrace.updateStatus text⟩
    hn hp hfl
  · cases n <;> first | exact hr | cases hn
  · show onSocket.foldl (fun h l => h.once l) w.owner.socket = n.socket
    rw [hs, foldl_once, List.nil_append, hsocket]
  · have htimer' : onTimer.foldl (fun h l => h.once l) w.owner.netTimer =
        some [.runError, .timeout timeout] := by
      rw [ht, foldl_once, htimer]
    cases n <;> first | exact ⟨timeout, htimer'⟩ | cases hn
  · exact hparser.trans (Net.bodily_of_launched hn).symm
  · cases n <;> first | exact hd | cases hn
  · cases n <;> first | exact trivial | cases hn

theorem onResolve_launched {D : Demands S} {w : World S P}
    (h : Alive D .resolving .none w) (addr : IPAddress) :
    Alive D (.connecting addr.ip) .none
        (onResolve addr { w with owner.resolver := none }) ∨
      Failed (onResolve addr { w with owner.resolver := none }) ∧
        Disposed (onResolve addr { w with owner.resolver := none }) ∧
        Rested (onResolve addr { w with owner.resolver := none }) :=
  exchange_launched (n := .connecting addr.ip) rfl rfl h.online.line.socket
    rfl h.online.line.netTimer rfl h.online.line.parsing
    h.online.line.receiveDone
    h.online.line.connected h.online.trace h.pipe nofun

omit [TCPSocket S] in
/-- The two exchanges over an open connection begin alike. -/
theorem clearExchange_eq {w : World S P} {text : String}
    (ht : w.owner.netTimer = some [.runError, .timeout text]) :
    clearExchange w =
      { w with
        owner.socket := w.owner.socket.clear
        owner.netTimer := some [.runError]
        owner.timerArmed := false } := by
  unfold clearExchange timerStop
  rw [ht]
  rfl

theorem onConnect_launched {D : Demands S} {ip : String} {w : World S P}
    (h : Alive D (.connecting ip) .none w) (listeners : List SocketListener) :
    Alive D .requesting .none
        (onConnect { w with owner.socket := some listeners }) ∨
      Failed (onConnect { w with owner.socket := some listeners }) ∧
        Disposed (onConnect { w with owner.socket := some listeners }) ∧
        Rested (onConnect { w with owner.socket := some listeners }) := by
  obtain ⟨text, ht⟩ := h.online.line.netTimer
  have hclear := clearExchange_eq (w := { w with
    owner.socket := some listeners, owner.socketConnected := true }) ht
  unfold onConnect
  rw [hclear]
  exact exchange_launched (n := .requesting) rfl h.online.line.resolver rfl rfl
    rfl rfl h.online.line.parsing h.online.line.receiveDone rfl h.online.trace
    h.pipe nofun

theorem onWriteHttpRequest_launched {D : Demands S} {w : World S P}
    (h : Alive D .requesting .none w) (listeners : List SocketListener) :
    Alive D .waiting .none
        (onWriteHttpRequest { w with owner.socket := some listeners }) ∨
      Failed (onWriteHttpRequest { w with owner.socket := some listeners }) ∧
        Disposed
          (onWriteHttpRequest { w with owner.socket := some listeners }) ∧
        Rested
          (onWriteHttpRequest { w with owner.socket := some listeners }) := by
  obtain ⟨text, ht⟩ := h.online.line.netTimer
  have hclear := clearExchange_eq
    (w := { w with owner.socket := some listeners }) ht
  unfold onWriteHttpRequest
  rw [hclear]
  exact exchange_launched (n := .waiting) rfl h.online.line.resolver rfl rfl
    rfl rfl h.online.line.parsing h.online.line.receiveDone
    h.online.line.connected h.online.trace h.pipe fun _ => D.read _

/-! ## The response -/

/-- A download whose read timeout could not be armed again: it has failed, and
then reported "Data received.". -/
structure Lapsed (f : Fil) (w : World S P) : Prop where
  past : Over w
  state : w.owner.status.state = .onTheGo
  resolver : w.owner.resolver = none
  left : ∃ w₀ : World S P, f.Holds (pipeline w₀) ∧ Disposing w₀ w
  rested : Rested w
  started : w.owner.fileOperationStarted = f.started
  receiveDone : w.owner.receiveDone = false
  trace : ∀ m ∈ w.owner.trace, (Mark.report m).state ≠ .done
  failed : ∃ r, .invoked r ∈ w.owner.trace ∧ r.state = .failed
  sock : ∃ sock, w.sock = TCPSocket.close sock

omit [TCPSocket S] in
theorem reported_failed {trace : List Mark}
    (h : ∃ r, .invoked r ∈ trace ∧ r.state = .failed) :
    trace.any Mark.reportsFinal = true := by
  obtain ⟨r, hr, hstate⟩ := h
  refine List.any_eq_true.mpr ⟨_, hr, ?_⟩
  simp [Mark.reportsFinal, Report.final, State.final, hstate]

/-- What `close_handles` leaves; an error `shutdown()` raises finds nobody. -/
theorem closeHandles_eq (cb : Callback) {w : World S P}
    (hs : w.owner.socket.isSome = true)
    (ht : w.owner.netTimer.isSome = true) :
    ∃ sock, closeHandles cb w =
      { w with
        sock := sock
        owner.socket := some [.shutdownDone cb]
        owner.netTimer := none
        owner.timerArmed := false
        owner.faults.socket := w.owner.faults.socket.tail } := by
  obtain ⟨listeners, hs⟩ := Option.isSome_iff_exists.mp hs
  have hlist : w.owner.socket.clear.once (.shutdownDone cb) =
      some [.shutdownDone cb] := by
    rw [hs]
    rfl
  have hcall : socketCall TCPSocket.shutdown
      (onceSocket (.shutdownDone cb)
        { w with owner.socket := w.owner.socket.clear }) =
      { w with
        sock := TCPSocket.shutdown w.sock
        owner.socket := some [.shutdownDone cb]
        owner.faults.socket := w.owner.faults.socket.tail } := by
    unfold onceSocket
    rw [hlist]
    rcases socketCall_cases TCPSocket.shutdown
      (w := { w with owner.socket := some [.shutdownDone cb] }) rfl with
      hc | ⟨err, hc⟩
    · exact hc
    · rw [hc]
      exact onSocketError_deaf err rfl
  unfold closeHandles
  simp only []
  rw [hcall, if_pos ht]
  exact ⟨_, rfl⟩

theorem closeHandles_alive {D : Demands S} {cb : Callback} {f : Fil}
    {w : World S P} (hs : w.owner.socket.isSome = true)
    (ht : w.owner.netTimer.isSome = true) (hr : w.owner.resolver = none)
    (hparser : w.owner.httpParser.isSome = true)
    (hd : w.owner.receiveDone = (Net.shutting cb).done)
    (hc : w.owner.socketConnected = true)
    (hstate : w.owner.status.state = .onTheGo)
    (htrace : Underway w.owner.trace) (hp : f.Holds (pipeline w))
    (hf : f.ending = false)
    (hstuck : (Net.shutting cb).done = true → f = .idle → D.stuck) :
    Alive D (.shutting cb) f (closeHandles cb w) := by
  obtain ⟨sock, heq⟩ := closeHandles_eq cb hs ht
  rw [heq]
  exact ⟨⟨⟨hr, rfl, rfl, hparser, hd, hc, trivial⟩, hstate, htrace⟩, hp,
    fun _ => rfl, fun h => absurd (hf.symm.trans h) Bool.false_ne_true, nofun,
    hstuck⟩

section

variable {D : Demands S} {ended : Bool} {f : Fil} {w : World S P}
  {result : ResponseParseResult}

omit [TCPSocket S] in
theorem Online.netTimer_reading (h : Online (.reading ended) w) :
    ∃ text, w.owner.netTimer = some [.runError, .timeout text] :=
  h.line.netTimer

theorem Alive.not_ending (h : Alive D (.reading ended) f w) :
    f.ending = false := by
  cases hf : f.ending with
  | false => rfl
  | true => exact absurd (h.ending hf) nofun

/-- While the body is read the file is not being closed. -/
theorem Alive.no_close (h : Alive D (.reading ended) f w) :
    FileOp.close ∉ w.owner.fileOps := by
  have hf := h.not_ending
  have hs := h.pipe.stored
  have hops : (pipeline w).ops = w.owner.fileOps := rfl
  cases f with
  | none => rw [← hops, hs.1]; exact List.not_mem_nil
  | opening => rw [← hops, hs.1]; simp
  | idle => rw [← hops, hs.1]; exact List.not_mem_nil
  | writing =>
      obtain ⟨_, _, _, hop, _⟩ := hs
      rw [← hops, hop]
      simp
  | closing => cases hf
  | closed => cases hf

omit [TCPSocket S] in
theorem Online.socket_reading (h : Online (.reading ended) w) :
    w.owner.socket.once .nextData = (Net.receiving ended).socket := by
  rw [show w.owner.socket = (Net.reading ended).socket from h.line.socket]
  cases ended <;> rfl

/-- `on_read` waits for more, with its timeout armed. -/
theorem onResult_again (h : Online (.reading ended) w)
    (hres : result.state = .inProgress)
    (hfault : w.owner.faults.timer.head?.join = none) :
    onResult result w =
      updateStatus .onTheGo "Data received."
        { onceSocket .nextData w with
          owner.timerArmed := true
          owner.faults.timer := w.owner.faults.timer.tail } := by
  obtain ⟨text, ht⟩ := h.netTimer_reading
  have hsome : (onceSocket .nextData w).owner.netTimer.isSome = true := by
    show w.owner.netTimer.isSome = true
    rw [ht]
    rfl
  unfold onResult
  rw [hres]
  simp only []
  rw [timerStart_ok hsome hfault]
  rfl

/-- `on_read` goes on when its timeout can be armed. -/
theorem onResult_inProgress (h : Alive D (.reading ended) f w)
    (hres : result.state = .inProgress)
    (hfault : w.owner.faults.timer.head?.join = none) :
    Alive D (.receiving ended) f (onResult result w) := by
  obtain ⟨text, ht⟩ := h.online.netTimer_reading
  rw [onResult_again h.online hres hfault]
  refine ⟨⟨⟨h.online.line.resolver, h.online.socket_reading, ⟨text, ht⟩,
    h.online.line.parsing, h.online.line.receiveDone, h.online.line.connected,
    h.online.line.peer⟩, rfl, ?_⟩, h.pipe, fun _ => rfl,
    fun hf => absurd (h.not_ending.symm.trans hf) Bool.false_ne_true,
    fun hfl hfree => ?_, nofun⟩
  · exact Underway.updateStatus h.online.trace "Data received."
  · refine h.flows ?_ hfree
    cases ended <;> first | rfl | cases hfl

/-- When it cannot, `on_read` reports that it goes on all the same. -/
theorem onResult_lapsed (h : Alive D (.reading ended) f w)
    (hres : result.state = .inProgress) {err : ErrorEvent}
    (hfault : w.owner.faults.timer.head?.join = some err) :
    Lapsed f (onResult result w) := by
  obtain ⟨text, ht⟩ := h.online.netTimer_reading
  have hf := timerStart_fails (w := onceSocket .nextData w) ht hfault
  have hunder : ∀ m ∈ w.owner.trace, (Mark.report m).state ≠ .done := by
    intro m hm hdone
    have hnot := h.online.trace m hm
    rw [hdone] at hnot
    cases hnot
  unfold onResult
  rw [hres]
  have hd := hf.disposing
  have hclosing : f ≠ .closing := by
    rintro rfl
    cases h.not_ending
  have hrest := h.rested (hd.after rfl rfl rfl rfl rfl) hclosing
  refine ⟨⟨hf.past.net.congr, hf.past.file⟩, rfl, ?_, ⟨w, h.pipe, ?_⟩,
    ⟨hrest.silent, hrest.calls⟩, hf.started.trans h.pipe.started,
    hf.receiveDone.trans h.online.line.receiveDone, ?_, ?_, ?_⟩
  · refine hf.resolver.trans ?_
    show w.owner.resolver.clear = none
    rw [show w.owner.resolver = none from h.online.line.resolver]
    rfl
  · exact ⟨hd.stock, hd.ops, hd.begun, hd.silent, hd.letGo, hd.closing,
      hd.calls⟩
  · intro m hm
    have hm' : m ∈ (timerStart (onceSocket .nextData w)).owner.trace ∨
        (Mark.report m).state = .onTheGo := by
      rcases List.mem_append.mp hm with hm | hm
      · rcases List.mem_append.mp hm with hm | hm
        · exact .inl hm
        · obtain rfl := List.mem_singleton.mp hm
          exact .inr rfl
      · obtain rfl := List.mem_singleton.mp hm
        exact .inr rfl
    rcases hm' with hm' | hm'
    · rw [hf.trace] at hm'
      rcases List.mem_append.mp hm' with hm' | hm'
      · exact hunder m hm'
      · rcases List.mem_pair.mp hm' with rfl | rfl <;> exact nofun
    · rw [hm']
      exact nofun
  · have hfailed : .invoked (failedReport (onceSocket .nextData w)) ∈
        (timerStart (onceSocket .nextData w)).owner.trace := by
      rw [hf.trace]
      exact List.mem_append_right _ (List.mem_pair.mpr (.inr rfl))
    exact ⟨_, List.mem_append_left _ (List.mem_append_left _ hfailed), rfl⟩
  · refine ⟨_, hf.sock ?_⟩
    show (w.owner.socket.once .nextData).isSome = true
    rw [Handle.isSome_once]
    exact h.online.socket_isSome rfl

theorem onResult_redirect (h : Alive D (.reading ended) f w)
    (hres : result.state = .redirect) :
    Alive D (.shutting .reportRedirect) f (onResult result w) := by
  obtain ⟨text, ht⟩ := h.online.netTimer_reading
  have hs := h.online.socket_isSome rfl
  unfold onResult
  rw [hres]
  simp only [socketStop]
  rw [if_pos hs]
  exact closeHandles_alive hs (by simp only [ht, Option.isSome_some])
    h.online.line.resolver h.online.line.parsing h.online.line.receiveDone
    h.online.line.connected h.online.state h.online.trace h.pipe h.not_ending
    nofun

theorem onResult_done (h : Alive D (.reading ended) f w)
    (hres : result.state = .done) (hstuck : f = .idle → D.stuck) :
    Alive D (.shutting .reportDone) f (onResult result w) := by
  obtain ⟨text, ht⟩ := h.online.netTimer_reading
  have hs := h.online.socket_isSome rfl
  unfold onResult
  rw [hres]
  simp only [socketStop]
  rw [if_pos hs]
  exact closeHandles_alive hs (by simp only [ht, Option.isSome_some])
    h.online.line.resolver h.online.line.parsing rfl h.online.line.connected
    h.online.state h.online.trace h.pipe h.not_ending fun _ => hstuck

theorem onResult_error (h : Alive D (.reading ended) f w)
    (hres : result.state = .error) :
    Failed (onResult result w) ∧
      (Spared 0 w → Disposed (onResult result w)) ∧
      Rested (onResult result w) := by
  have hclosed : f ≠ .closed := by
    rintro rfl
    cases h.not_ending
  have hclosing : f ≠ .closing := by
    rintro rfl
    cases h.not_ending
  unfold onResult
  rw [hres]
  have hf := fun text => failing text w
  exact ⟨(hf _).failed h.online.trace, h.disposed (hf _).disposing hclosed,
    h.rested (hf _).disposing hclosing⟩

/-- The phase of the exchange after a response that fails neither itself nor the
download. -/
inductive Follows : ParseState → Net → Prop
  | inProgress (ended : Bool) : Follows .inProgress (.receiving ended)
  | done : Follows .done (.shutting .reportDone)
  | redirect : Follows .redirect (.shutting .reportRedirect)

/-- How `on_read` can leave a download whose file is in phase `f`, by what the
parser made of the data. Unless the download has failed, no operation of the file
has been refused. -/
inductive Read (D : Demands S) (f : Fil) (r : List Bytes × ResponseParseResult)
    (w w' : World S P) : Prop
  | alive {n : Net} {f' : Fil} : Follows r.2.state n →
      (f.startsFor r.1 = 1 → w.owner.faults.file[0]?.join = none) →
      Alive D n f' w' → Read D f r w w'
  | failed : Failed w' → (Spared (f.startsFor r.1) w → Disposed w') →
      (¬ f.Overruns r.1 w → Rested w') → Read D f r w w'
  | lapsed : r.2.state = .inProgress →
      w.owner.faults.timer.head?.join ≠ none →
      (f.startsFor r.1 = 1 → w.owner.faults.file[0]?.join = none) →
      Lapsed (f.after r.1) w' → Read D f r w w'

theorem Follows.settled {state : ParseState} {n : Net} (h : Follows state n) :
    n.settled = true := by
  cases h <;> rfl

theorem Fil.after_idle {chunks : List Bytes} (h : f.after chunks = .idle) :
    chunks = [] ∧ f = .idle := by
  unfold Fil.after at h
  split at h
  · next hc => exact ⟨hc, h⟩
  · cases f <;> cases h

theorem onResult_read {r : List Bytes × ResponseParseResult} {f₀ : Fil}
    {w₀ : World S P} (h : Alive D (.reading ended) (f₀.after r.1) w)
    (htimer : w.owner.faults.timer = w₀.owner.faults.timer)
    (hno : f₀.startsFor r.1 = 1 → w₀.owner.faults.file[0]?.join = none)
    (hspared : Spared (f₀.startsFor r.1) w₀ → Spared 0 w)
    (hstuck : r.2.state = .done → f₀.after r.1 = .idle → D.stuck) :
    Read D f₀ r w₀ (onResult r.2 w) := by
  cases hres : r.2.state with
  | inProgress =>
      cases hfault : w.owner.faults.timer.head?.join with
      | none =>
          exact .alive (hres ▸ .inProgress ended) hno
            (onResult_inProgress h hres hfault)
      | some err =>
          refine .lapsed hres ?_ hno (onResult_lapsed h hres hfault)
          rw [← htimer, hfault]
          exact nofun
  | redirect =>
      exact .alive (hres ▸ .redirect) hno (onResult_redirect h hres)
  | done =>
      exact .alive (hres ▸ .done) hno (onResult_done h hres (hstuck hres))
  | error =>
      obtain ⟨hf, hd, hrest⟩ := onResult_error h hres
      exact .failed hf (hd ∘ hspared) fun _ => hrest

/-- The world the chunks of a parse are delivered to. -/
def parsing (parser : P) (w : World S P) : World S P :=
  { w with owner.timerArmed := false, owner.httpParser := some parser }

theorem Alive.parsing (h : Alive D (.reading ended) f w) (parser : P) :
    Alive D (.reading ended) f (DownloaderSimple.parsing parser w) :=
  ⟨⟨⟨h.online.line.resolver, h.online.line.socket, h.online.line.netTimer,
    rfl, h.online.line.receiveDone, h.online.line.connected,
    h.online.line.peer⟩, h.online.state, h.online.trace⟩, h.pipe, h.body,
    h.ending, h.flows, h.stuck⟩

theorem afterParse_alive (h : Alive D (.reading ended) f w) :
    afterParse result w =
      onResult result
        { w with owner.status.size := result.contentLength } := by
  unfold afterParse
  rw [if_neg (by rw [h.online.state]; exact nofun)]

theorem Alive.sized (h : Alive D (.reading ended) f w) (size : Nat) :
    Alive D (.reading ended) f { w with owner.status.size := size } :=
  ⟨⟨h.online.line, h.online.state, h.online.trace⟩, h.pipe, h.body, h.ending,
    h.flows, h.stuck⟩

variable [HttpParser P]

theorem onRead_eq {parser : P} {data : Bytes}
    (h : Online (.reading ended) w) (hp : w.owner.httpParser = some parser) :
    onRead data w =
      afterParse (HttpParser.responseParse parser data).2.2
        ((HttpParser.responseParse parser data).2.1.foldl
          (fun w chunk => onData chunk w)
          (parsing (HttpParser.responseParse parser data).1 w)) := by
  obtain ⟨text, ht⟩ := h.netTimer_reading
  unfold onRead timerStop
  rw [if_pos (by rw [ht]; rfl)]
  simp only [hp]
  rfl

theorem onRead_read {parser : P} {data : Bytes}
    (h : Alive D (.reading ended) f w)
    (hp : w.owner.httpParser = some parser)
    (hstuck : (HttpParser.responseParse parser data).2.1 = [] →
      (HttpParser.responseParse parser data).2.2.state = .done → f = .idle →
      D.stuck) :
    Read D f (HttpParser.responseParse parser data).2 w (onRead data w) := by
  rw [onRead_eq h.online hp]
  rcases onDatas_fed (HttpParser.responseParse parser data).2.1
    (h.parsing (HttpParser.responseParse parser data).1) rfl rfl with
    ⟨ha, htimer, hfile, hno⟩ | ⟨hk, hf, hd, hrest⟩
  · rw [afterParse_alive ha]
    refine onResult_read (ha.sized _) htimer hno (fun hspared => .inl ?_)
      fun hres hidle => ?_
    · dsimp only
      rw [hfile, List.getElem?_drop]
      exact hspared.resolve_right h.no_close
    · obtain ⟨hnil, hf⟩ := Fil.after_idle hidle
      exact hstuck hnil hres hf
  · unfold afterParse
    rw [if_pos hf.state]
    refine .failed hf ?_ hrest
    rw [hk]
    exact hd

/-- A parse without a chunk that reports Done leaves the file as it was. -/
theorem onRead_done_nil {parser : P} {data : Bytes}
    (h : Alive D (.reading ended) f w)
    (hp : w.owner.httpParser = some parser)
    (hnil : (HttpParser.responseParse parser data).2.1 = [])
    (hres : (HttpParser.responseParse parser data).2.2.state = .done)
    (hstuck : f = .idle → D.stuck) :
    Alive D (.shutting .reportDone) f (onRead data w) := by
  have ha := h.parsing (HttpParser.responseParse parser data).1
  rw [onRead_eq h.online hp, hnil, List.foldl_nil, afterParse_alive ha]
  exact onResult_done (ha.sized _) hres hstuck

end

end DownloaderSimple

end EcwidDownloader
