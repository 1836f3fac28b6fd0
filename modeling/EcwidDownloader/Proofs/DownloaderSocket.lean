import EcwidDownloader.Proofs.DownloaderFile

/-!
# What a downloader keeps

Whatever an event makes a downloader do, it reaches its socket through the
methods of the socket only, it leaves alone the mark that the peer has ended the
stream and the name of its file, and it only adds to what it has shown of itself.
So a property of the socket that every method keeps is kept by every event,
whatever phase the download is in.
-/

namespace EcwidDownloader

open Lib

namespace DownloaderSimple

variable {S P : Type}

/-- A property of a socket that its end keeps. -/
structure Letting [TCPSocket S] (Q : S → Prop) : Prop where
  close : ∀ s, Q s → Q (TCPSocket.close s)

/-- One that reading keeps as well. -/
structure Reading [TCPSocket S] (Q : S → Prop) : Prop extends Letting Q where
  read : ∀ s, Q s → Q (TCPSocket.read s)

/-- One that reading and not reading keep as well. -/
structure Minding [TCPSocket S] (Q : S → Prop) : Prop extends Letting Q where
  read : ∀ s, Q s → Q (TCPSocket.read s)
  stop : ∀ s, Q s → Q (TCPSocket.stop s)

/-- A property of a socket that its methods keep. -/
structure Abiding [TCPSocket S] (Q : S → Prop) : Prop extends Minding Q where
  connect : ∀ ip port s, Q s → Q (TCPSocket.connect ip port s)
  connect6 : ∀ ip port s, Q s → Q (TCPSocket.connect6 ip port s)
  write : ∀ data s, Q s → Q (TCPSocket.write data s)
  shutdown : ∀ s, Q s → Q (TCPSocket.shutdown s)

/-- What was counted, what was received, the queue, and the names of the file and
of the files that were opened. -/
structure Account where
  downloaded : Nat
  received : Bytes
  buffer : List DataChunk
  fname : String
  opened : List String

def account (w : World S P) : Account :=
  { downloaded := w.owner.status.downloaded
    received := w.owner.received
    buffer := w.owner.buffer
    fname := w.owner.fname
    opened := w.owner.opened }

/-- The count is right, only the first chunk of the queue is begun, and no other
file was opened. -/
structure Account.Even (a : Account) : Prop where
  downloaded : a.downloaded = a.received.length
  begun : ∀ chunk ∈ a.buffer.tail, chunk.offset = 0
  opened : ∀ name ∈ a.opened, name = a.fname

/-- The mark that the peer has ended the stream, and the name of the file. -/
def standing (w : World S P) : Bool × String :=
  (w.owner.peerEnded, w.owner.fname)

/-- What every piece of a downloader does to a world. -/
structure Within (Q : S → Prop) (w w' : World S P) : Prop where
  sock : Q w.sock → Q w'.sock
  stands : standing w' = standing w
  trace : w.owner.trace <+: w'.owner.trace
  even : (account w).Even → (account w').Even

theorem Account.Even.enqueue {a : Account} (h : a.Even) (data : Bytes) :
    Account.Even
      { a with
        downloaded := a.downloaded + data.length
        received := a.received ++ data
        buffer := a.buffer ++ [{ data := data }] } := by
  refine ⟨by simp [h.downloaded], fun chunk hc => ?_, h.opened⟩
  dsimp only at hc
  cases hb : a.buffer with
  | nil => simp [hb] at hc
  | cons front queue =>
      rw [hb, List.cons_append, List.tail_cons] at hc
      rcases List.mem_append.mp hc with hc | hc
      · exact h.begun chunk (by rw [hb]; exact hc)
      · rw [List.mem_singleton.mp hc]

/-- The file is opened under its name. -/
theorem Account.Even.giveName {a : Account} (h : a.Even) :
    Account.Even { a with opened := a.opened ++ [a.fname] } := by
  refine ⟨h.downloaded, h.begun, fun name hname => ?_⟩
  rcases List.mem_append.mp hname with hname | hname
  · exact h.opened name hname
  · exact List.mem_singleton.mp hname

/-- Whatever happens to the first chunk. -/
theorem Account.Even.advance {a : Account} (h : a.Even) {front : DataChunk}
    {queue : List DataChunk} (hb : a.buffer = front :: queue)
    (front' : DataChunk) (p : Prop) [Decidable p] :
    Account.Even
      { a with buffer := if p then queue else front' :: queue } := by
  refine ⟨h.downloaded, fun chunk hc => ?_, h.opened⟩
  have hqueue : ∀ chunk ∈ queue, chunk.offset = 0 := by
    simpa [hb] using h.begun
  dsimp only at hc
  split at hc
  · exact hqueue chunk (List.mem_of_mem_tail hc)
  · exact hqueue chunk hc

variable {Q : S → Prop} {w : World S P}

theorem Within.refl (w : World S P) : Within Q w w :=
  ⟨id, rfl, List.prefix_refl _, id⟩

theorem Within.trans {w₁ w₂ w₃ : World S P} (h : Within Q w₁ w₂)
    (h' : Within Q w₂ w₃) : Within Q w₁ w₃ :=
  ⟨h'.sock ∘ h.sock, h'.stands.trans h.stands, h.trace.trans h'.trace,
    h'.even ∘ h.even⟩

/-- An edit of the other fields, before. -/
theorem Within.after {w₁ w₂ w₃ : World S P} (h : Within Q w₂ w₃)
    (hs : w₂.sock = w₁.sock) (hl : standing w₂ = standing w₁)
    (ht : w₂.owner.trace = w₁.owner.trace) (ha : account w₂ = account w₁) :
    Within Q w₁ w₃ :=
  ⟨fun hq => h.sock (hs ▸ hq), h.stands.trans hl, ht ▸ h.trace,
    fun he => h.even (ha ▸ he)⟩

theorem Within.foldl {α : Type} {f : World S P → α → World S P}
    (hf : ∀ w a, Within Q w (f w a)) :
    ∀ (as : List α) (w : World S P), Within Q w (as.foldl f w)
  | [], w => .refl w
  | a :: as, w => (hf w a).trans (Within.foldl hf as (f w a))

theorem within_updateStatus (state : State) (text : String) (w : World S P) :
    Within Q w (updateStatus state text w) :=
  ⟨id, rfl, (List.prefix_append _ _).trans (List.prefix_append _ _), id⟩

theorem within_setStatus (state : State) (text : String) (w : World S P) :
    Within Q w (setStatus state text w) :=
  ⟨id, rfl, List.prefix_append _ _, id⟩

theorem within_beginFile (op : FileOp) (w : World S P) :
    Within Q w (beginFile op w).2 := by
  obtain ⟨ops, h⟩ := beginFile_snd op w
  rw [h]
  exact ⟨id, rfl, List.prefix_refl _, id⟩

theorem within_terminateTimer (w : World S P) :
    Within Q w (terminateTimer w) := by
  unfold terminateTimer
  split
  · exact ⟨id, rfl, List.prefix_refl _, id⟩
  · exact .refl w

theorem within_terminateFile (w : World S P) :
    Within Q w (terminateFile w) := by
  unfold terminateFile
  simp only []
  split
  · exact (within_beginFile .close _).after rfl rfl rfl rfl
  · exact ⟨id, rfl, List.prefix_refl _, id⟩

theorem within_timerStop (w : World S P) : Within Q w (timerStop w) := by
  unfold timerStop
  split
  · exact ⟨id, rfl, List.prefix_refl _, id⟩
  · exact ⟨id, rfl, List.prefix_refl _, id⟩

theorem within_clearExchange (w : World S P) :
    Within Q w (clearExchange w) :=
  (within_timerStop _).after rfl rfl rfl rfl

namespace Letting

variable [TCPSocket S]

/-! ## Errors -/

theorem terminateHandles (hQ : Letting Q) (w : World S P) :
    Within Q w (terminateHandles w) := by
  have hsocket : ∀ w : World S P, Within Q w (terminateSocket w) := by
    intro w
    unfold terminateSocket
    split
    · exact ⟨hQ.close _, rfl, List.prefix_refl _, id⟩
    · exact .refl w
  unfold DownloaderSimple.terminateHandles
  have hclosed : Within Q w (terminateSocket { w with
      owner.resolver := w.owner.resolver.clear }) :=
    (hsocket _).after rfl rfl rfl rfl
  exact (hclosed.trans (within_terminateTimer _)).trans
    (within_terminateFile _)

theorem onErrorWithoutTick (hQ : Letting Q) (text : String) (w : World S P) :
    Within Q w (onErrorWithoutTick text w) :=
  (within_setStatus .failed text w).trans (hQ.terminateHandles _)

theorem onError (hQ : Letting Q) (text : String) (w : World S P) :
    Within Q w (onError text w) :=
  (hQ.onErrorWithoutTick text w).trans ⟨id, rfl, List.prefix_append _ _, id⟩

theorem onSocketError (hQ : Letting Q) (err : ErrorEvent) (w : World S P) :
    Within Q w (onSocketError err w) := by
  refine (Within.foldl (fun w l => ?_) _ _).after rfl rfl rfl rfl
  split
  · exact hQ.onError _ w
  · exact .refl w

theorem onTimerError (hQ : Letting Q) (err : ErrorEvent) (w : World S P) :
    Within Q w (onTimerError err w) :=
  (Within.foldl (fun w _ => hQ.onError _ w) _ _).after rfl rfl rfl rfl

theorem runFileError (hQ : Letting Q) (err : ErrorEvent) (w : World S P)
    (l : FileListener) : Within Q w (runFileError err w l) := by
  cases l with
  | openError => exact (hQ.onError _ _).after rfl rfl rfl rfl
  | writeError => exact (hQ.onError _ _).after rfl rfl rfl rfl
  | closeError => exact (hQ.onError _ _).after rfl rfl rfl rfl
  | _ => exact .refl w

theorem onFileError (hQ : Letting Q) (err : ErrorEvent) (w : World S P) :
    Within Q w (onFileError err w) :=
  (Within.foldl (hQ.runFileError err) _ _).after rfl rfl rfl rfl

/-! ## Calls on the handles -/

theorem fileCall (hQ : Letting Q) (op : FileOp) (w : World S P) :
    Within Q w (fileCall op w) := by
  rcases fileCall_cases op w with ⟨-, hc⟩ | ⟨err, -, hc⟩
  · rw [hc]
    exact ⟨id, rfl, List.prefix_refl _, id⟩
  · rw [hc]
    exact (hQ.onFileError err _).after rfl rfl rfl rfl

theorem socketCall (hQ : Letting Q) {call : S → S}
    (hcall : ∀ s, Q s → Q (call s)) (w : World S P) :
    Within Q w (socketCall call w) := by
  by_cases hs : w.owner.socket.isSome = true
  · have hcalled : Within Q w
        { w with
          sock := call w.sock
          owner.faults.socket := w.owner.faults.socket.tail } :=
      ⟨hcall _, rfl, List.prefix_refl _, id⟩
    rcases socketCall_cases call hs with hc | ⟨err, hc⟩
    · rw [hc]
      exact hcalled
    · rw [hc]
      exact hcalled.trans (hQ.onSocketError err _)
  · unfold DownloaderSimple.socketCall
    rw [if_neg hs]
    exact ⟨id, rfl, List.prefix_refl _, id⟩

theorem timerStart (hQ : Letting Q) (w : World S P) :
    Within Q w (timerStart w) := by
  unfold DownloaderSimple.timerStart beginTimer
  split
  · cases w.owner.faults.timer.head?.join with
    | none => exact ⟨id, rfl, List.prefix_refl _, id⟩
    | some err => exact (hQ.onTimerError err _).after rfl rfl rfl rfl
  · exact ⟨id, rfl, List.prefix_refl _, id⟩

theorem exchange (hQ : Letting Q) {call : S → S}
    (hcall : ∀ s, Q s → Q (call s)) (text : String)
    (onSocket : List SocketListener) (onTimer : List TimerListener)
    (w : World S P) : Within Q w (exchange text onSocket onTimer call w) := by
  have hstart : ∀ w : World S P, Within Q w (startUnlessFailed w) := by
    intro w
    unfold startUnlessFailed
    split
    · exact hQ.timerStart w
    · exact .refl w
  exact (within_updateStatus .onTheGo text w).trans
    (((hQ.socketCall hcall _).trans (hstart _)).after rfl rfl rfl rfl)

theorem onResolve (hQ : Letting Q) {w : World S P} (addr : IPAddress)
    (hc : ∀ s, Q s → Q (TCPSocket.connect addr.ip w.owner.uriParsed.port s))
    (hc6 : ∀ s, Q s → Q (TCPSocket.connect6 addr.ip w.owner.uriParsed.port s)) :
    Within Q w (onResolve addr w) := by
  refine hQ.exchange ?_ _ _ _ w
  split
  · exact hc6
  · exact hc

theorem onConnect (hQ : Letting Q)
    (hwrite : ∀ data s, Q s → Q (TCPSocket.write data s)) (w : World S P) :
    Within Q w (onConnect w) :=
  ((within_clearExchange _).trans
    (hQ.exchange (hwrite _) _ _ _ _)).after rfl rfl rfl rfl

theorem onWriteHttpRequest (hQ : Letting Q)
    (hread : ∀ s, Q s → Q (TCPSocket.read s)) (w : World S P) :
    Within Q w (onWriteHttpRequest w) :=
  (within_clearExchange w).trans (hQ.exchange hread _ _ _ _)

theorem onTimerEvent (hQ : Letting Q) (w : World S P) :
    Within Q w (onTimerEvent w) := by
  refine (Within.foldl (fun w l => ?_) _ _).after rfl rfl rfl rfl
  cases l with
  | timeout text => exact hQ.onError text w
  | runError => exact .refl w

end Letting

namespace Reading

variable [TCPSocket S]

/-! ## The output file -/

theorem onWrite (hQ : Reading Q) (w : World S P) : Within Q w (onWrite w) := by
  unfold DownloaderSimple.onWrite
  split
  · split
    · exact (hQ.fileCall _ _).after rfl rfl rfl rfl
    · simp only []
      split
      · split
        · exact (hQ.socketCall hQ.read _).after rfl rfl rfl rfl
        · exact ⟨id, rfl, List.prefix_refl _, id⟩
      · exact ⟨id, rfl, List.prefix_refl _, id⟩
  · exact (hQ.fileCall _ _).after rfl rfl rfl rfl

theorem onFileDone (hQ : Reading Q) (op : FileOp) (size : Nat)
    (w : World S P) : Within Q w (onFileDone op size w) := by
  refine (Within.foldl (fun w l => ?_) _ _).after rfl rfl rfl rfl
  cases l with
  | opened => exact (hQ.onWrite _).after rfl rfl rfl rfl
  | written =>
      simp only [runFileListener]
      split
      · exact ⟨id, rfl, List.prefix_refl _, id⟩
      · next front queue hb =>
          have hmoved : ∀ (offset : Nat) (front' : DataChunk) (p : Prop)
              [Decidable p], Within Q w
              { w with
                owner.offsetFile := offset
                owner.buffer := if p then queue else front' :: queue } :=
            fun _ front' p _ => ⟨id, rfl, List.prefix_refl _, fun he =>
              he.advance hb front' p⟩
          exact (hmoved _ _ _).trans (hQ.onWrite _)
  | closed =>
      simp only [runFileListener]
      split
      · exact (within_updateStatus _ _ _).after rfl rfl rfl rfl
      · exact ⟨id, rfl, List.prefix_refl _, id⟩
  | unlinkClosed => exact ⟨id, rfl, List.prefix_refl _, id⟩
  | openError => exact .refl w
  | writeError => exact .refl w
  | closeError => exact .refl w

end Reading

namespace Minding

variable [TCPSocket S]

theorem reading (hQ : Minding Q) : Reading Q := ⟨hQ.toLetting, hQ.read⟩

/-! ## Data and the response -/

theorem socketStop (hQ : Minding Q) (w : World S P) :
    Within Q w (socketStop w) := by
  unfold DownloaderSimple.socketStop
  split
  · exact ⟨hQ.stop _, rfl, List.prefix_refl _, id⟩
  · exact ⟨id, rfl, List.prefix_refl _, id⟩

theorem enqueue (hQ : Minding Q) (data : Bytes) (w : World S P) :
    Within Q w (enqueue data w) := by
  have hqueued : Within Q w
      { w with
        owner.status.downloaded := w.owner.status.downloaded + data.length
        owner.buffer := w.owner.buffer ++ [{ data := data }]
        owner.received := w.owner.received ++ data } :=
    ⟨id, rfl, List.prefix_refl _, fun he => he.enqueue data⟩
  unfold DownloaderSimple.enqueue
  simp only []
  split
  · split
    · split
      · exact hqueued.trans (hQ.socketStop _)
      · exact hqueued
    · exact hqueued.trans ⟨id, rfl, List.prefix_refl _, id⟩
  · exact hqueued

theorem onData (hQ : Minding Q) (data : Bytes) (w : World S P) :
    Within Q w (onData data w) := by
  have hopen : ∀ w : World S P, Within Q w (openFile w) := fun w => by
    have hname : Within Q w (giveName { onceFile .opened (onceFile .openError
        { w with owner.file := some [] }) with
        owner.fileOperationStarted := true }) :=
      ⟨id, rfl, List.prefix_refl _, fun he => he.giveName⟩
    exact hname.trans (hQ.fileCall .openFile _)
  have hwrite : ∀ w : World S P, Within Q w (writeIfIdle w) := by
    intro w
    unfold writeIfIdle
    split
    · exact (hQ.reading.onWrite _).after rfl rfl rfl rfl
    · exact .refl w
  unfold DownloaderSimple.onData feed
  refine (hQ.enqueue data w).trans ?_
  split
  · exact (hopen _).trans (hwrite _)
  · exact hwrite _

theorem closeHandles (hQ : Minding Q)
    (hshut : ∀ s, Q s → Q (TCPSocket.shutdown s)) (cb : Callback)
    (w : World S P) :
    Within Q w (closeHandles cb w) := by
  unfold DownloaderSimple.closeHandles
  simp only []
  have hcalled : Within Q w (DownloaderSimple.socketCall TCPSocket.shutdown
      (onceSocket (.shutdownDone cb)
        { w with owner.socket := w.owner.socket.clear })) :=
    (hQ.socketCall hshut _).after rfl rfl rfl rfl
  split
  · exact hcalled.trans ⟨id, rfl, List.prefix_refl _, id⟩
  · exact hcalled.trans ⟨id, rfl, List.prefix_refl _, id⟩

/-- A response that is complete, or is a redirection, shuts the socket down. -/
def Ends (result : ResponseParseResult) : Prop :=
  result.state = .done ∨ result.state = .redirect

theorem afterParse (hQ : Minding Q) {result : ResponseParseResult}
    (hshut : Ends result → ∀ s, Q s → Q (TCPSocket.shutdown s))
    (w : World S P) : Within Q w (afterParse result w) := by
  have hresult : ∀ w : World S P, Within Q w (onResult result w) := by
    intro w
    unfold onResult
    cases hres : result.state with
    | inProgress =>
        exact ((hQ.timerStart _).trans (within_updateStatus _ _ _)).after
          rfl rfl rfl rfl
    | redirect =>
        exact ((hQ.socketStop _).trans
          (hQ.closeHandles (hshut (.inr hres)) _ _)).after rfl rfl rfl rfl
    | done =>
        exact ((hQ.socketStop _).trans
          (hQ.closeHandles (hshut (.inl hres)) _ _)).after rfl rfl rfl rfl
    | error => exact hQ.onError _ w
  unfold DownloaderSimple.afterParse
  split
  · exact .refl w
  · exact (hresult _).after rfl rfl rfl rfl

variable [HttpParser P]

theorem onRead (hQ : Minding Q) {data : Bytes} {w : World S P}
    (hshut : ∀ parser, w.owner.httpParser = some parser →
      Ends (HttpParser.responseParse parser data).2.2 →
      ∀ s, Q s → Q (TCPSocket.shutdown s)) :
    Within Q w (onRead data w) := by
  have hparser : (timerStop w).owner.httpParser = w.owner.httpParser := by
    unfold timerStop
    split <;> rfl
  unfold DownloaderSimple.onRead
  simp only []
  refine (within_timerStop w).trans ?_
  rw [hparser]
  split
  · exact ⟨id, rfl, List.prefix_refl _, id⟩
  · next parser hp =>
      exact ((Within.foldl (fun w chunk => hQ.onData chunk w) _ _).trans
        (hQ.afterParse (hshut parser hp) _)).after rfl rfl rfl rfl

end Minding

namespace Abiding

variable [TCPSocket S]

/-! ## Events -/

theorem onResolverEvent (hQ : Abiding Q) (result : Except ErrorEvent IPAddress)
    (w : World S P) : Within Q w (onResolverEvent result w) := by
  refine (Within.foldl (fun w l => ?_) _ _).after rfl rfl rfl rfl
  cases l with
  | resolveError =>
      cases result with
      | ok addr => exact .refl w
      | error err =>
          simp only [runResolverListener]
          split
          · exact (hQ.onError _ _).after rfl rfl rfl rfl
          · exact (hQ.onErrorWithoutTick _ _).after rfl rfl rfl rfl
  | resolved =>
      cases result with
      | ok addr =>
          exact (hQ.onResolve addr (hQ.connect _ _) (hQ.connect6 _ _)).after
            rfl rfl rfl rfl
      | error err => exact .refl w

variable [HttpParser P]

theorem runSocketListener (hQ : Abiding Q) (event : SocketEvent)
    (w : World S P) (l : SocketListener) :
    Within Q w (runSocketListener event w l) := by
  cases l with
  | connected => exact hQ.onConnect hQ.write w
  | requestWritten => exact hQ.onWriteHttpRequest hQ.read w
  | closedEarly => exact hQ.onError _ w
  | firstData =>
      simp only [DownloaderSimple.runSocketListener]
      split
      · exact (hQ.onRead fun _ _ _ => hQ.shutdown).after rfl rfl rfl rfl
      · exact ⟨id, rfl, List.prefix_refl _, id⟩
  | nextData =>
      simp only [DownloaderSimple.runSocketListener]
      split
      · exact hQ.onRead fun _ _ _ => hQ.shutdown
      · exact .refl w
  | endRead => exact hQ.onRead fun _ _ _ => hQ.shutdown
  | shutdownDone cb =>
      have hclosed : Within Q w
          { w with
            sock := TCPSocket.close w.sock
            owner.socketConnected := false
            owner.socket := none } :=
        ⟨hQ.close _, rfl, List.prefix_refl _, id⟩
      refine hclosed.trans ?_
      cases cb with
      | reportRedirect => exact within_updateStatus _ _ _
      | reportDone =>
          simp only [DownloaderSimple.runSocketListener, runCallback]
          split
          · exact within_updateStatus _ _ _
          · exact .refl _
  | connectError ip => exact .refl w
  | requestError => exact .refl w
  | responseError => exact .refl w

theorem onSocketEvent (hQ : Abiding Q) (event : SocketEvent) (w : World S P) :
    Within Q w (onSocketEvent event w) := by
  cases event with
  | errorEvent err => exact hQ.onSocketError err w
  | _ => exact (Within.foldl (hQ.runSocketListener _) _ _).after rfl rfl rfl rfl

/-- An event other than the end of the stream. -/
theorem handled (hQ : Abiding Q) {w w' : World S P} {event : Event}
    (h : Handled w event w') (hend : event ≠ .socket .endEvent) :
    Within Q w w' := by
  cases h with
  | resolver result _ => exact hQ.onResolverEvent result w
  | data data _ => exact hQ.onSocketEvent _ w
  | ended => exact absurd rfl hend
  | socket event _ _ => exact hQ.onSocketEvent event w
  | timer _ => exact hQ.onTimerEvent w
  | fileFailed err _ => exact (hQ.onFileError err _).after rfl rfl rfl rfl
  | fileDone _ _ => exact (hQ.reading.onFileDone _ _ _).after rfl rfl rfl rfl
  | stop _ => exact hQ.onError _ w

end Abiding

end DownloaderSimple

end EcwidDownloader
