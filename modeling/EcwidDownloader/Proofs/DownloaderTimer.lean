import EcwidDownloader.Proofs.DownloaderNet

/-!
# The timer of a download

`net_timer` is started for each operation of the exchange, and once more by
`on_read` when the response goes on. No other call of the downloader starts it:
the calls are `Calm`. What `on_read` leaves is told by what the chunks of the
data make of the socket, as the queue fills up, and by whether the timer can be
started.
-/

namespace EcwidDownloader

open Lib

namespace DownloaderSimple

variable {S P : Type}

/-! ## What starts no timer -/

/-- The timer has not been started, and the parser is still there. -/
structure Calm (w w' : World S P) : Prop where
  timer : w'.owner.timerArmed = true → w.owner.timerArmed = true
  parser : w'.owner.httpParser = none → w.owner.httpParser = none

theorem Calm.refl (w : World S P) : Calm w w := ⟨id, id⟩

theorem Calm.trans {w₁ w₂ w₃ : World S P} (h : Calm w₁ w₂) (h' : Calm w₂ w₃) :
    Calm w₁ w₃ :=
  ⟨h.timer ∘ h'.timer, h.parser ∘ h'.parser⟩

theorem Calm.foldl {α : Type} {f : World S P → α → World S P}
    (hf : ∀ w a, Calm w (f w a)) :
    ∀ (as : List α) (w : World S P), Calm w (as.foldl f w)
  | [], w => .refl w
  | a :: as, w => (hf w a).trans (Calm.foldl hf as (f w a))

section

variable [TCPSocket S]

theorem calm_terminateHandles (w : World S P) :
    Calm w (terminateHandles w) := by
  unfold terminateHandles
  rw [terminateSocket_eq, terminateTimer_eq]
  rcases terminateFile_cases _ with h | ⟨ops, h⟩
  · rw [h]
    exact ⟨fun ht => (Bool.and_eq_true_iff.mp ht).2, id⟩
  · rw [h]
    exact ⟨fun ht => (Bool.and_eq_true_iff.mp ht).2, id⟩

theorem calm_onError (text : String) (w : World S P) :
    Calm w (onError text w) := by
  have h := calm_terminateHandles (setStatus .failed text w)
  exact ⟨h.timer, h.parser⟩

theorem calm_onSocketError (err : ErrorEvent) (w : World S P) :
    Calm w (onSocketError err w) := by
  have hcleared : Calm w
      { w with owner.socket := w.owner.socket.clearKind .error } := ⟨id, id⟩
  unfold onSocketError
  refine hcleared.trans (Calm.foldl (fun w l => ?_) _ _)
  split
  · exact calm_onError _ w
  · exact .refl w

theorem calm_onFileError (err : ErrorEvent) (w : World S P) :
    Calm w (onFileError err w) := by
  have hrun (w : World S P) (l : FileListener) :
      Calm w (runFileError err w l) := by
    have hidle (file : Handle FileListener) (text : String) : Calm w
        (onError text
          { w with owner.fileOperationStarted := false, owner.file := file }) :=
      let h := calm_onError text
        { w with owner.fileOperationStarted := false, owner.file := file }
      ⟨h.timer, h.parser⟩
    cases l with
    | openError => exact hidle w.owner.file _
    | writeError => exact hidle w.owner.file _
    | closeError => exact hidle none _
    | _ => exact .refl w
  have h := Calm.foldl hrun (w.owner.file.taken .error)
    { w with owner.file := w.owner.file.clearKind .error }
  exact ⟨h.timer, h.parser⟩

theorem calm_fileCall (op : FileOp) (w : World S P) :
    Calm w (fileCall op w) := by
  rcases fileCall_cases op w with ⟨-, hc⟩ | ⟨err, -, hc⟩
  · rw [hc]
    exact ⟨id, id⟩
  · rw [hc]
    have h := calm_onFileError err (refused op w)
    exact ⟨h.timer, h.parser⟩

theorem calm_socketCall (call : S → S) (w : World S P) :
    Calm w (socketCall call w) := by
  by_cases hs : w.owner.socket.isSome = true
  · rcases socketCall_cases call hs with hc | ⟨err, hc⟩
    · rw [hc]
      exact ⟨id, id⟩
    · rw [hc]
      have h := calm_onSocketError err
        { w with
          sock := call w.sock
          owner.faults.socket := w.owner.faults.socket.tail }
      exact ⟨h.timer, h.parser⟩
  · unfold socketCall
    rw [if_neg hs]
    exact ⟨id, id⟩

/-- A timer that cannot be started is not running. -/
theorem calm_timerStart {w : World S P}
    (h : w.owner.faults.timer.head?.join ≠ none) : Calm w (timerStart w) := by
  unfold timerStart beginTimer
  split
  · obtain ⟨err, herr⟩ := Option.ne_none_iff_exists'.mp h
    rw [herr]
    have hrun := Calm.foldl
      (fun w _ => calm_onError ("Net_timer run failed! " ++ err.toStr) w)
      (w.owner.netTimer.taken .error)
      { w with
        owner.timerArmed := false
        owner.faults.timer := w.owner.faults.timer.tail
        owner.netTimer := w.owner.netTimer.clearKind .error }
    exact ⟨fun ht => absurd (hrun.timer ht) Bool.false_ne_true, hrun.parser⟩
  · exact ⟨id, id⟩

theorem calm_onTimerEvent (w : World S P) : Calm w (onTimerEvent w) := by
  have h := Calm.foldl (f := runTimerListener)
    (fun w l => by
      cases l with
      | timeout text => exact calm_onError text w
      | runError => exact .refl w)
    (w.owner.netTimer.taken .timer)
    { w with
      owner.netTimer := w.owner.netTimer.clearKind .timer
      owner.timerArmed := false }
  exact ⟨fun ht => absurd (h.timer ht) Bool.false_ne_true, h.parser⟩

theorem calm_onWrite (w : World S P) : Calm w (onWrite w) := by
  unfold onWrite
  split
  · split
    · have h := calm_fileCall .close (onceFile .closed (onceFile .closeError
        { w with owner.file := w.owner.file.clear }))
      exact ⟨h.timer, h.parser⟩
    · simp only []
      split
      · split
        · have h := calm_socketCall TCPSocket.read
            { w with owner.fileOperationStarted := false }
          exact ⟨h.timer, h.parser⟩
        · exact ⟨id, id⟩
      · exact ⟨id, id⟩
  · next chunk queue _ =>
      have h := calm_fileCall
        (.write chunk.rest (onceFile .written w).owner.offsetFile)
        (onceFile .written w)
      exact ⟨h.timer, h.parser⟩

theorem calm_onFileDone (op : FileOp) (size : Nat) (w : World S P) :
    Calm w (onFileDone op size w) := by
  have hrun (w : World S P) (l : FileListener) :
      Calm w (runFileListener size w l) := by
    cases l with
    | opened =>
        have h := calm_onWrite (onceFile .writeError
          { w with
            owner.fileOpenned := true
            owner.file := w.owner.file.clearKind .error })
        exact ⟨h.timer, h.parser⟩
    | written =>
        simp only [runFileListener]
        split
        · exact ⟨id, id⟩
        · have h (offset : Nat) (buffer : List DataChunk) := calm_onWrite
            { w with owner.offsetFile := offset, owner.buffer := buffer }
          exact ⟨(h _ _).timer, (h _ _).parser⟩
    | closed =>
        simp only [runFileListener]
        split <;> exact ⟨id, id⟩
    | unlinkClosed => exact ⟨id, id⟩
    | openError | writeError | closeError => exact .refl w
  have h := Calm.foldl hrun (w.owner.file.taken op.kind)
    { w with
      owner.disk := op.apply size w.owner.disk
      owner.file := w.owner.file.clearKind op.kind }
  exact ⟨h.timer, h.parser⟩

theorem calm_onData (data : Bytes) (w : World S P) : Calm w (onData data w) := by
  have hqueued : Calm w (enqueue data w) := by
    obtain ⟨sock, misused, heq, -⟩ := enqueue_shape data w
    rw [heq]
    exact ⟨id, id⟩
  have hopens (w : World S P) : Calm w (openFile w) := by
    have h := calm_fileCall .openFile
      (giveName { onceFile .opened (onceFile .openError
        { w with owner.file := some [] }) with
        owner.fileOperationStarted := true })
    exact ⟨h.timer, h.parser⟩
  have hwrites (w : World S P) : Calm w (writeIfIdle w) := by
    unfold writeIfIdle
    split
    · have h := calm_onWrite { w with owner.fileOperationStarted := true }
      exact ⟨h.timer, h.parser⟩
    · exact .refl w
  unfold onData feed
  refine hqueued.trans ?_
  split
  · exact (hopens _).trans (hwrites _)
  · exact hwrites _

theorem calm_closeHandles (cb : Callback) (w : World S P) :
    Calm w (closeHandles cb w) := by
  have h := calm_socketCall TCPSocket.shutdown (onceSocket (.shutdownDone cb)
    { w with owner.socket := w.owner.socket.clear })
  unfold closeHandles
  simp only []
  split
  · exact ⟨nofun, h.parser⟩
  · exact ⟨h.timer, h.parser⟩

/-- The response does not go on, or cannot. -/
theorem calm_onResult {result : ResponseParseResult} {w : World S P}
    (h : result.state = .inProgress →
      w.owner.faults.timer.head?.join ≠ none) : Calm w (onResult result w) := by
  have hstops (w : World S P) : Calm w (socketStop w) := by
    unfold socketStop
    split <;> exact ⟨id, id⟩
  unfold onResult
  cases hres : result.state with
  | inProgress =>
      have hrun := calm_timerStart (w := onceSocket .nextData w) (h hres)
      exact ⟨hrun.timer, hrun.parser⟩
  | redirect =>
      have hrun := (hstops
        { w with owner.status.redirectUri := result.redirectUri }).trans
        (calm_closeHandles .reportRedirect _)
      exact ⟨hrun.timer, hrun.parser⟩
  | done =>
      have hrun := (hstops { w with owner.receiveDone := true }).trans
        (calm_closeHandles .reportDone _)
      exact ⟨hrun.timer, hrun.parser⟩
  | error => exact calm_onError _ w

/-! ## The queue -/

/-- What the chunks of a response make of the socket, from a queue of a given
length. -/
def fill (backlog : Nat) : Nat → List Bytes → S → S
  | _, [], s => s
  | n, _ :: chunks, s =>
      fill backlog (n + 1) chunks
        (if backlog ≤ n + 1 ∧ TCPSocket.active s = true then TCPSocket.stop s
          else s)

/-- The file operation a chunk calls for leaves everything else alone when it is
not refused. -/
theorem feed_frame {w : World S P} (hb : w.owner.buffer ≠ [])
    (hnull : w.owner.file.isNone = true → w.owner.fileOperationStarted = false)
    (hno : w.owner.fileOperationStarted = false →
      w.owner.faults.file[0]?.join = none) :
    (feed w).sock = w.sock ∧ (feed w).owner.buffer = w.owner.buffer ∧
      (feed w).owner.backlog = w.owner.backlog := by
  unfold feed
  split
  · next hnone =>
      have hno' := hno (hnull hnone)
      unfold openFile
      simp only []
      rcases fileCall_cases .openFile
        (giveName { onceFile .opened (onceFile .openError
          { w with owner.file := some [] }) with
          owner.fileOperationStarted := true }) with ⟨-, hc⟩ | ⟨err, herr, -⟩
      · rw [hc]
        unfold writeIfIdle
        rw [if_neg (by simp [giveName])]
        exact ⟨rfl, rfl, rfl⟩
      · exact absurd (herr.symm.trans hno') nofun
  · unfold writeIfIdle
    split
    · next hidle =>
        have hstarted : w.owner.fileOperationStarted = false := by
          simp only [Bool.and_eq_true, Bool.not_eq_true'] at hidle
          exact hidle.2
        obtain ⟨chunk, queue, hqueue⟩ := List.exists_cons_of_ne_nil hb
        have hqueue' : ({ w with owner.fileOperationStarted := true } :
            World S P).owner.buffer = chunk :: queue := hqueue
        unfold onWrite
        rw [hqueue']
        simp only []
        rcases fileCall_cases
          (.write chunk.rest (onceFile .written
            { w with owner.fileOperationStarted := true }).owner.offsetFile)
          (onceFile .written
            { w with owner.fileOperationStarted := true }) with
          ⟨-, hc⟩ | ⟨err, herr, -⟩
        · rw [hc]
          exact ⟨rfl, hqueue, rfl⟩
        · exact absurd (herr.symm.trans (hno hstarted)) nofun
    · exact ⟨rfl, rfl, rfl⟩

theorem enqueue_frame {w : World S P} (data : Bytes)
    (hs : w.owner.socket.isSome = true) :
    enqueue data w =
      { w with
        sock :=
          if w.owner.backlog ≤ w.owner.buffer.length + 1 ∧
              TCPSocket.active w.sock = true then TCPSocket.stop w.sock
          else w.sock
        owner.status.downloaded := w.owner.status.downloaded + data.length
        owner.buffer := w.owner.buffer ++ [{ data := data }]
        owner.received := w.owner.received ++ data } := by
  have hlength : (w.owner.buffer ++ [({ data := data } : DataChunk)]).length =
      w.owner.buffer.length + 1 := List.length_append
  unfold enqueue
  simp only [hlength, hs, if_true, socketStop]
  by_cases hfull : w.owner.backlog ≤ w.owner.buffer.length + 1
  · rw [if_pos hfull]
    by_cases hactive : TCPSocket.active w.sock = true
    · rw [if_pos hactive, if_pos ⟨hfull, hactive⟩]
    · rw [if_neg hactive, if_neg fun hand => hactive hand.2]
  · rw [if_neg hfull, if_neg fun hand => hfull hand.1]

section

variable {D : Demands S} {n : Net} {f : Fil} {w : World S P}

/-- One chunk that is not refused. -/
theorem Alive.onData_frame (h : Alive D n f w) (hn : n.bodily = true)
    (hd : n.done = false)
    (hno : f.starts = 1 → w.owner.faults.file[0]?.join = none) (data : Bytes) :
    Alive D n f.fed (onData data w) ∧
      (onData data w).sock =
        (if w.owner.backlog ≤ w.owner.buffer.length + 1 ∧
            TCPSocket.active w.sock = true then TCPSocket.stop w.sock
          else w.sock) ∧
      (onData data w).owner.buffer.length = w.owner.buffer.length + 1 ∧
      (onData data w).owner.backlog = w.owner.backlog := by
  have hstart : w.owner.fileOperationStarted = f.started := h.pipe.started
  have hfile : w.owner.file = f.file := h.pipe.file
  have henqueued := enqueue_frame data (h.online.socket_isSome hd)
  obtain ⟨hsock, hbuffer, hbacklog⟩ := feed_frame
    (w := enqueue data w)
    (by rw [henqueued]; simp)
    (by
      rw [henqueued]
      intro hnone
      have hnone' : w.owner.file.isNone = true := hnone
      show w.owner.fileOperationStarted = false
      rw [hstart]
      rw [hfile] at hnone'
      cases f <;> first | rfl | cases hnone')
    (by
      rw [henqueued]
      intro hstarted
      refine hno ?_
      have hstarted' : w.owner.fileOperationStarted = false := hstarted
      rw [hstart] at hstarted'
      simp [Fil.starts, hstarted'])
  rw [henqueued] at hsock hbuffer hbacklog
  refine ⟨?_, ?_, ?_, ?_⟩
  · cases onData_fed h hn hd data with
    | alive _ _ _ ha => exact ha
    | failed hk _ _ _ _ hrefused => exact absurd (hno hk) hrefused
  · show (feed (enqueue data w)).sock = _
    rw [henqueued, hsock]
  · show (feed (enqueue data w)).owner.buffer.length = _
    rw [henqueued, hbuffer]
    exact List.length_append
  · show (feed (enqueue data w)).owner.backlog = _
    rw [henqueued, hbacklog]

/-- The chunks of a response that are not refused. -/
theorem Alive.onDatas_frame : ∀ (chunks : List Bytes) {f : Fil}
    {w : World S P}, Alive D n f w → n.bodily = true → n.done = false →
    (f.startsFor chunks = 1 → w.owner.faults.file[0]?.join = none) →
    (chunks.foldl (fun w chunk => onData chunk w) w).owner.status.state =
        .onTheGo ∧
      (chunks.foldl (fun w chunk => onData chunk w) w).sock =
        fill w.owner.backlog w.owner.buffer.length chunks w.sock
  | [], f, w, h, _, _, _ => ⟨h.online.state, rfl⟩
  | chunk :: chunks, f, w, h, hn, hd, hno => by
      obtain ⟨ha, hsock, hlength, hbacklog⟩ := h.onData_frame hn hd hno chunk
      obtain ⟨hstate, hrest⟩ := Alive.onDatas_frame chunks ha hn hd (by
        rw [f.startsFor_fed]
        exact nofun)
      rw [List.foldl_cons, hrest, hsock, hlength, hbacklog, fill]
      exact ⟨hstate, rfl⟩

/-- The timer is started again, and the socket left as it is. -/
theorem onResult_armed {ended : Bool} {result : ResponseParseResult}
    (h : Alive D (.reading ended) f w) (hres : result.state = .inProgress)
    (hfault : w.owner.faults.timer.head?.join = none) :
    (onResult result w).owner.timerArmed = true ∧
      (onResult result w).sock = w.sock := by
  rw [onResult_again h.online hres hfault]
  exact ⟨rfl, rfl⟩

variable [HttpParser P] {ended : Bool} {parser : P} {data : Bytes}

/-- A part of a response that goes on starts the timer, whatever has become of
the socket. -/
theorem Alive.onRead_goes (h : Alive D (.reading ended) f w)
    (hp : w.owner.httpParser = some parser)
    (hres : (HttpParser.responseParse parser data).2.2.state = .inProgress)
    (htimer : w.owner.faults.timer.head?.join = none)
    (hno : f.startsFor (HttpParser.responseParse parser data).2.1 = 1 →
      w.owner.faults.file[0]?.join = none) :
    Alive D (.receiving ended)
        (f.after (HttpParser.responseParse parser data).2.1)
        (onRead data w) ∧
      (onRead data w).owner.timerArmed = true ∧
      (onRead data w).sock =
        fill w.owner.backlog w.owner.buffer.length
          (HttpParser.responseParse parser data).2.1 w.sock := by
  have hparsing := h.parsing (HttpParser.responseParse parser data).1
  obtain ⟨hstate, hsock⟩ := hparsing.onDatas_frame
    (HttpParser.responseParse parser data).2.1 rfl rfl hno
  rw [onRead_eq h.online hp]
  rcases onDatas_fed (HttpParser.responseParse parser data).2.1 hparsing rfl
    rfl with ⟨ha, htimer', -, -⟩ | ⟨-, hf, -⟩
  · have hsized := ha.sized
      (HttpParser.responseParse parser data).2.2.contentLength
    have hfault :=
      (congrArg (fun l => (List.head? l).join) htimer').trans htimer
    rw [afterParse_alive ha]
    obtain ⟨harmed, hkept⟩ := onResult_armed hsized hres hfault
    exact ⟨onResult_inProgress hsized hres hfault, harmed, hkept.trans hsock⟩
  · rw [hf.state] at hstate
    cases hstate

/-- Every other call of `on_read` leaves the timer stopped. -/
theorem Alive.onRead_calm (h : Alive D (.reading ended) f w)
    (hp : w.owner.httpParser = some parser)
    (hnot : (HttpParser.responseParse parser data).2.2.state = .inProgress →
      w.owner.faults.timer.head?.join = none →
      ¬ (f.startsFor (HttpParser.responseParse parser data).2.1 = 1 →
        w.owner.faults.file[0]?.join = none)) :
    Calm (DownloaderSimple.parsing (HttpParser.responseParse parser data).1 w)
      (onRead data w) := by
  have hparsing := h.parsing (HttpParser.responseParse parser data).1
  have hdatas := Calm.foldl (fun w chunk => calm_onData chunk w)
    (HttpParser.responseParse parser data).2.1
    (DownloaderSimple.parsing (HttpParser.responseParse parser data).1 w)
  rw [onRead_eq h.online hp]
  rcases onDatas_fed (HttpParser.responseParse parser data).2.1 hparsing rfl
    rfl with ⟨ha, htimer, -, hno⟩ | ⟨-, hf, -⟩
  · rw [afterParse_alive ha]
    refine hdatas.trans ?_
    have hresult : Calm _
        (onResult (HttpParser.responseParse parser data).2.2 _) := calm_onResult
      (w := { (HttpParser.responseParse parser data).2.1.foldl
          (fun w chunk => onData chunk w)
          (DownloaderSimple.parsing
            (HttpParser.responseParse parser data).1 w) with
        owner.status.size :=
          (HttpParser.responseParse parser data).2.2.contentLength })
      (fun hres hfault => hnot hres
        ((congrArg (fun l => (List.head? l).join) htimer).symm.trans hfault)
        hno)
    exact ⟨hresult.timer, hresult.parser⟩
  · unfold afterParse
    rw [if_pos hf.state]
    exact hdatas

end

end

end DownloaderSimple

end EcwidDownloader
