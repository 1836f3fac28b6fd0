import EcwidDownloader.Proofs.DownloaderSteps

/-!
# What leaves the response alone

Only `on_read` calls the parser and takes chunks in. Whatever else a downloader
does leaves the parser and what was received as they are, registers no listener
for more of the response, and reports Done only when the response is complete.
-/

namespace EcwidDownloader

open Lib

namespace DownloaderSimple

variable {S P : Type}

/-- What the reception of a response concerns. -/
structure Reception (P : Type) where
  parser : Option P
  received : Bytes
  receiveDone : Bool
  redirectUri : String
  socket : Handle SocketListener
  file : Handle FileListener
  trace : List Mark

def reception (w : World S P) : Reception P :=
  { parser := w.owner.httpParser
    received := w.owner.received
    receiveDone := w.owner.receiveDone
    redirectUri := w.owner.status.redirectUri
    socket := w.owner.socket
    file := w.owner.file
    trace := w.owner.trace }

/-- A listener of the exchange before the response. -/
def launching : SocketListener → Bool
  | .endRead | .nextData | .shutdownDone _ => false
  | _ => true

namespace Reception

/-- A report that tells of no redirection, and of Done when all that was received
is complete. -/
structure Tells (complete : Bool) (received : Bytes) (r : Report) : Prop where
  redirect : r.state ≠ .redirect
  done : r.state = .done → complete = true ∧ r.received = received

/-- The response is left alone. -/
structure Unparsed (a b : Reception P) : Prop where
  parser : b.parser = a.parser
  received : b.received = a.received
  receiveDone : b.receiveDone = a.receiveDone
  redirectUri : b.redirectUri = a.redirectUri
  socket : ∀ l ∈ b.socket.getD [], l ∈ a.socket.getD [] ∨ launching l = true
  file : .closed ∈ b.file.getD [] →
    .closed ∈ a.file.getD [] ∨ a.receiveDone = true
  marks : ∀ m ∈ b.trace,
    m ∈ a.trace ∨ Tells a.receiveDone a.received (Mark.report m)

theorem Unparsed.refl (a : Reception P) : a.Unparsed a :=
  ⟨rfl, rfl, rfl, rfl, fun _ => .inl, .inl, fun _ => .inl⟩

theorem Unparsed.trans {a b c : Reception P} (h : a.Unparsed b)
    (h' : b.Unparsed c) : a.Unparsed c where
  parser := h'.parser.trans h.parser
  received := h'.received.trans h.received
  receiveDone := h'.receiveDone.trans h.receiveDone
  redirectUri := h'.redirectUri.trans h.redirectUri
  socket l hl := (h'.socket l hl).elim (h.socket l) .inr
  file hc := (h'.file hc).elim h.file fun hr => .inr (h.receiveDone ▸ hr)
  marks m hm := (h'.marks m hm).elim (h.marks m) fun ht =>
    .inr ⟨ht.redirect, fun hd => by
      obtain ⟨hr, hreceived⟩ := ht.done hd
      exact ⟨h.receiveDone ▸ hr, hreceived.trans h.received⟩⟩

/-- A mark of a state that is neither Done nor a redirection. -/
theorem Unparsed.mark (a : Reception P) (m : Mark)
    (hd : (Mark.report m).state ≠ .done)
    (hr : (Mark.report m).state ≠ .redirect) :
    a.Unparsed { a with trace := a.trace ++ [m] } where
  parser := rfl
  received := rfl
  receiveDone := rfl
  redirectUri := rfl
  socket _ := .inl
  file := .inl
  marks m' hm := by
    rcases List.mem_append.mp hm with hm | hm
    · exact .inl hm
    · rw [List.mem_singleton.mp hm]
      exact .inr ⟨hr, fun h => absurd h hd⟩

/-- Listeners of the socket are dropped, or those of the exchange come. -/
theorem Unparsed.resocket (a : Reception P) (socket : Handle SocketListener)
    (h : ∀ l ∈ socket.getD [], l ∈ a.socket.getD [] ∨ launching l = true) :
    a.Unparsed { a with socket := socket } :=
  ⟨rfl, rfl, rfl, rfl, h, .inl, fun _ => .inl⟩

/-- The listeners of the file change. -/
theorem Unparsed.refile (a : Reception P) (file : Handle FileListener)
    (h : .closed ∈ file.getD [] →
      .closed ∈ a.file.getD [] ∨ a.receiveDone = true) :
    a.Unparsed { a with file := file } :=
  ⟨rfl, rfl, rfl, rfl, fun _ => .inl, h, fun _ => .inl⟩

end Reception

/-- What a piece of a downloader does that leaves the response alone. -/
abbrev Unparsed (w w' : World S P) : Prop :=
  (reception w).Unparsed (reception w')

theorem Unparsed.foldl {α : Type} {f : World S P → α → World S P}
    (hf : ∀ w a, Unparsed w (f w a)) :
    ∀ (as : List α) (w : World S P), Unparsed w (as.foldl f w)
  | [], _ => .refl _
  | a :: as, w => (hf w a).trans (Unparsed.foldl hf as (f w a))

theorem not_closed_clear (file : Handle FileListener) :
    FileListener.closed ∉ file.clear.getD [] := by
  rw [Handle.getD_clear]
  exact List.not_mem_nil

/-- A handle of the file gets a listener other than that for its close. -/
theorem not_closed_once {file : Handle FileListener} {l : FileListener}
    (h : .closed ∈ (file.once l).getD []) (hl : l ≠ .closed) :
    .closed ∈ file.getD [] :=
  (Handle.getD_once h).resolve_right hl.symm

/-! ## Errors -/

theorem unparsed_updateStatus {state : State} (hd : state ≠ .done)
    (hr : state ≠ .redirect) (text : String) (w : World S P) :
    Unparsed w (updateStatus state text w) :=
  (Reception.Unparsed.mark (reception w)
    (.assigned { report w with state := state }) hd hr).trans
    (.mark _ (.invoked { report w with state := state }) hd hr)

theorem unparsed_updateOnTheGo (text : String) (w : World S P) :
    Unparsed w (updateStatus .onTheGo text w) :=
  unparsed_updateStatus (by exact nofun) (by exact nofun) text w

variable [TCPSocket S]

theorem unparsed_terminateHandles (w : World S P) :
    Unparsed w (terminateHandles w) := by
  have h := terminated w
  have hreport := h.report
  refine ⟨h.httpParser, congrArg Report.received hreport, h.unseen.receiveDone,
    congrArg StatusDownloader.redirectUri (terminateHandles_status w), ?_, ?_,
    fun m (hm : m ∈ (terminateHandles w).owner.trace) =>
      .inl (show m ∈ w.owner.trace from h.unseen.trace ▸ hm)⟩
  · intro l hl
    have hsocket : (terminateHandles w).owner.socket.getD [] = [] := by
      rw [h.socket, Handle.getD_clear]
    exact absurd (hsocket ▸ hl) List.not_mem_nil
  · intro hc
    have hc' : FileListener.closed ∈ (terminateHandles w).owner.file.getD [] :=
      hc
    rcases h.file with hf | hf <;> rw [hf] at hc'
    · exact absurd hc' (not_closed_clear _)
    · exact absurd (not_closed_once hc' nofun) (not_closed_clear _)

theorem unparsed_onErrorWithoutTick (text : String) (w : World S P) :
    Unparsed w (onErrorWithoutTick text w) :=
  (Reception.Unparsed.mark (reception w) (.assigned (failedReport w))
    (by exact nofun) (by exact nofun)).trans
    (unparsed_terminateHandles (setStatus .failed text w))

theorem unparsed_onError (text : String) (w : World S P) :
    Unparsed w (onError text w) := by
  have hstate : (report (onErrorWithoutTick text w)).state = .failed :=
    (terminated (setStatus .failed text w)).unseen.state
  refine (unparsed_onErrorWithoutTick text w).trans
    (.mark _ (.invoked (report (onErrorWithoutTick text w))) ?_ ?_)
  · exact fun h => absurd (hstate.symm.trans h) nofun
  · exact fun h => absurd (hstate.symm.trans h) nofun

theorem unparsed_onSocketError (err : ErrorEvent) (w : World S P) :
    Unparsed w (onSocketError err w) := by
  have hcleared := Reception.Unparsed.resocket (reception w)
    (w.owner.socket.clearKind .error)
    fun l hl => .inl (Handle.getD_clearKind hl)
  refine hcleared.trans (Unparsed.foldl (fun w l => ?_) _
    { w with owner.socket := w.owner.socket.clearKind .error })
  split
  · exact unparsed_onError _ w
  · exact .refl _

theorem unparsed_onTimerError (err : ErrorEvent) (w : World S P) :
    Unparsed w (onTimerError err w) :=
  Unparsed.foldl
    (fun w _ => unparsed_onError ("Net_timer run failed! " ++ err.toStr) w) _
    { w with owner.netTimer := w.owner.netTimer.clearKind .error }

theorem unparsed_runFileError (err : ErrorEvent) (w : World S P)
    (l : FileListener) : Unparsed w (runFileError err w l) := by
  cases l with
  | openError =>
      exact unparsed_onError _ { w with owner.fileOperationStarted := false }
  | writeError =>
      exact unparsed_onError _ { w with owner.fileOperationStarted := false }
  | closeError =>
      have hgone := Reception.Unparsed.refile (reception w) none
        fun h => absurd h List.not_mem_nil
      exact hgone.trans (unparsed_onError _
        { w with owner.fileOperationStarted := false, owner.file := none })
  | _ => exact .refl _

theorem unparsed_onFileError (err : ErrorEvent) (w : World S P) :
    Unparsed w (onFileError err w) := by
  have hcleared := Reception.Unparsed.refile (reception w)
    (w.owner.file.clearKind .error)
    fun h => .inl (Handle.getD_clearKind h)
  exact hcleared.trans (Unparsed.foldl (unparsed_runFileError err) _
    { w with owner.file := w.owner.file.clearKind .error })

/-! ## Calls on the handles -/

theorem unparsed_fileCall (op : FileOp) (w : World S P) :
    Unparsed w (fileCall op w) := by
  rcases fileCall_cases op w with ⟨-, hc⟩ | ⟨err, -, hc⟩
  · rw [hc]
    exact .refl _
  · rw [hc]
    exact unparsed_onFileError err (refused op w)

theorem unparsed_socketCall (call : S → S) (w : World S P) :
    Unparsed w (socketCall call w) := by
  by_cases hs : w.owner.socket.isSome = true
  · rcases socketCall_cases call hs with hc | ⟨err, hc⟩
    · rw [hc]
      exact .refl _
    · rw [hc]
      exact unparsed_onSocketError err
        { w with
          sock := call w.sock
          owner.faults.socket := w.owner.faults.socket.tail }
  · unfold socketCall
    rw [if_neg hs]
    exact .refl _

theorem unparsed_timerStart (w : World S P) : Unparsed w (timerStart w) := by
  unfold timerStart beginTimer
  split
  · cases w.owner.faults.timer.head?.join with
    | none => exact .refl _
    | some err =>
        exact unparsed_onTimerError err { w with
          owner.timerArmed := false
          owner.faults.timer := w.owner.faults.timer.tail }
  · exact .refl _

/-! ## The exchange with the server -/

theorem mem_foldl_once {onSocket : List SocketListener} : ∀ {h : Handle _},
    ∀ l ∈ (onSocket.foldl (fun h l => h.once l) h).getD [],
      l ∈ h.getD [] ∨ l ∈ onSocket := by
  induction onSocket with
  | nil => exact fun l hl => .inl hl
  | cons l₀ ls ih =>
      intro h l hl
      rcases ih l hl with hl | hl
      · rcases Handle.getD_once hl with hl | rfl
        · exact .inl hl
        · exact .inr List.mem_cons_self
      · exact .inr (List.mem_cons_of_mem _ hl)

theorem unparsed_exchange {onSocket : List SocketListener}
    (hl : ∀ l ∈ onSocket, launching l = true) (text : String)
    (onTimer : List TimerListener) (call : S → S) (w : World S P) :
    Unparsed w (exchange text onSocket onTimer call w) := by
  have hstart (w : World S P) : Unparsed w (startUnlessFailed w) := by
    unfold startUnlessFailed
    split
    · exact unparsed_timerStart w
    · exact .refl _
  have hlisten : Unparsed (updateStatus .onTheGo text w)
      { updateStatus .onTheGo text w with
        owner.socket := onSocket.foldl (fun h l => h.once l) w.owner.socket
        owner.netTimer := onTimer.foldl (fun h l => h.once l)
          w.owner.netTimer } :=
    .resocket _ _ fun l hmem => (mem_foldl_once l hmem).imp_right (hl l)
  exact ((unparsed_updateOnTheGo text w).trans hlisten).trans
    ((unparsed_socketCall call _).trans (hstart _))

omit [TCPSocket S] in
theorem unparsed_clearExchange (w : World S P) :
    Unparsed w (clearExchange w) := by
  have hcleared := Reception.Unparsed.resocket (reception w)
    (w.owner.socket.clear) fun l hl =>
      absurd (Handle.getD_clear w.owner.socket ▸ hl) List.not_mem_nil
  unfold clearExchange timerStop
  split <;> exact hcleared

theorem unparsed_onResolve (addr : IPAddress) (w : World S P) :
    Unparsed w (onResolve addr w) :=
  unparsed_exchange (fun l hl => by
    rcases List.mem_pair.mp hl with rfl | rfl <;> rfl) _ _ _ w

theorem unparsed_onConnect (w : World S P) : Unparsed w (onConnect w) :=
  (unparsed_clearExchange { w with owner.socketConnected := true }).trans
    (unparsed_exchange (fun l hl => by
      rcases List.mem_pair.mp hl with rfl | rfl <;> rfl) _ _ _ _)

theorem unparsed_onWriteHttpRequest (w : World S P) :
    Unparsed w (onWriteHttpRequest w) :=
  (unparsed_clearExchange w).trans (unparsed_exchange (fun l hl => by
    rcases List.mem_cons.mp hl with rfl | hl
    · rfl
    · rcases List.mem_pair.mp hl with rfl | rfl <;> rfl) _ _ _ _)

/-! ## The output file -/

theorem unparsed_onWrite (w : World S P) : Unparsed w (onWrite w) := by
  unfold onWrite
  split
  · split
    · next hdone =>
        have hlisten := Reception.Unparsed.refile (reception w)
          ((w.owner.file.clear.once .closeError).once .closed)
          fun _ => .inr hdone
        exact hlisten.trans (unparsed_fileCall .close
          (onceFile .closed (onceFile .closeError
            { w with owner.file := w.owner.file.clear })))
    · simp only []
      split
      · split
        · exact unparsed_socketCall TCPSocket.read
            { w with owner.fileOperationStarted := false }
        · exact .refl _
      · exact .refl _
  · next chunk queue _ =>
      have hlisten := Reception.Unparsed.refile (reception w)
        (w.owner.file.once .written)
        fun h => .inl (not_closed_once h nofun)
      exact hlisten.trans (unparsed_fileCall
        (.write chunk.rest (onceFile .written w).owner.offsetFile)
        (onceFile .written w))

/-- What holds of all marks so far and of a report holds once it is made. -/
theorem forall_reported {p : Mark → Prop} {trace : List Mark} {r : Report}
    (hp : ∀ m ∈ trace, p m) (hassigned : p (.assigned r))
    (hinvoked : p (.invoked r)) :
    ∀ m ∈ trace ++ [.assigned r] ++ [.invoked r], p m := by
  intro m hm
  rcases List.mem_append.mp hm with hm | hm
  · rcases List.mem_append.mp hm with hm | hm
    · exact hp m hm
    · rw [List.mem_singleton.mp hm]
      exact hassigned
  · rw [List.mem_singleton.mp hm]
    exact hinvoked

/-- A listener of the file that hears of the success of an operation. -/
theorem unparsed_runFileListener (size : Nat) (w : World S P)
    {l : FileListener} (hl : l = .closed → w.owner.receiveDone = true) :
    Unparsed w (runFileListener size w l) := by
  cases l with
  | opened =>
      have hlisten := Reception.Unparsed.refile (reception w)
        ((w.owner.file.clearKind .error).once .writeError)
        fun h => .inl (Handle.getD_clearKind
          (not_closed_once h (by exact FileListener.noConfusion)))
      exact hlisten.trans (unparsed_onWrite (onceFile .writeError
        { w with
          owner.fileOpenned := true
          owner.file := w.owner.file.clearKind .error }))
  | written =>
      simp only [runFileListener]
      split
      · exact .refl _
      · exact unparsed_onWrite { w with
          owner.offsetFile := w.owner.offsetFile + size
          owner.buffer := _ }
  | closed =>
      have hgone := Reception.Unparsed.refile (reception w)
        (w.owner.file.clear) fun h => absurd h (not_closed_clear _)
      simp only [runFileListener]
      split
      · refine hgone.trans ⟨rfl, rfl, rfl, rfl, fun _ => .inl, .inl,
          forall_reported (fun _ => .inl) (.inr ?_) (.inr ?_)⟩
        all_goals exact ⟨State.noConfusion, fun _ => ⟨hl rfl, rfl⟩⟩
      · exact hgone
  | unlinkClosed => exact .refl _
  | openError | writeError | closeError => exact .refl _

theorem unparsed_runFileListeners {size : Nat} : ∀ {ls : List FileListener}
    {w : World S P}, (.closed ∈ ls → w.owner.receiveDone = true) →
    Unparsed w (ls.foldl (runFileListener size) w)
  | [], _, _ => .refl _
  | l :: ls, w, hclosed => by
      have hhead := unparsed_runFileListener size w (l := l)
        fun hl => hclosed (hl ▸ List.mem_cons_self)
      refine hhead.trans (unparsed_runFileListeners fun hc => ?_)
      exact hhead.receiveDone.trans (hclosed (List.mem_cons_of_mem _ hc))

theorem unparsed_onFileDone (op : FileOp) (size : Nat) (w : World S P)
    (hclosed : .closed ∈ w.owner.file.getD [] →
      w.owner.receiveDone = true) :
    Unparsed w (onFileDone op size w) := by
  have hcleared := Reception.Unparsed.refile (reception w)
    (w.owner.file.clearKind op.kind) fun h => .inl (Handle.getD_clearKind h)
  exact hcleared.trans (unparsed_runFileListeners
    (w := { w with
      owner.disk := op.apply size w.owner.disk
      owner.file := w.owner.file.clearKind op.kind })
    fun hc => hclosed (Handle.mem_taken.mp hc).1)

/-! ## Events -/

theorem unparsed_onTimerEvent (w : World S P) :
    Unparsed w (onTimerEvent w) :=
  Unparsed.foldl (fun w l => by
    cases l with
    | timeout text => exact unparsed_onError text w
    | runError => exact .refl _) _
    { w with
      owner.netTimer := w.owner.netTimer.clearKind .timer
      owner.timerArmed := false }

theorem unparsed_onResolverEvent (result : Except ErrorEvent IPAddress)
    (w : World S P) : Unparsed w (onResolverEvent result w) := by
  refine Unparsed.foldl (fun w l => ?_) _
    { w with
      owner.resolver := w.owner.resolver.clearKind (resolveKind result) }
  cases l with
  | resolveError =>
      cases result with
      | ok addr => exact .refl _
      | error err =>
          simp only [runResolverListener]
          split
          · exact unparsed_onError _ { w with owner.resolver := none }
          · exact unparsed_onErrorWithoutTick _ { w with owner.resolver := none }
  | resolved =>
      cases result with
      | ok addr => exact unparsed_onResolve addr { w with owner.resolver := none }
      | error err => exact .refl _

variable [HttpParser P]

/-- Without a parser `on_read` reads nothing. -/
theorem unparsed_onRead {w : World S P} (h : w.owner.httpParser = none)
    (data : Bytes) : Unparsed w (onRead data w) := by
  have hstop : Unparsed w (timerStop w) ∧
      (timerStop w).owner.httpParser = none := by
    unfold timerStop
    split <;> exact ⟨.refl _, h⟩
  unfold onRead
  simp only [hstop.2]
  exact hstop.1

/-- A listener that neither ends the download nor calls the parser. -/
structure Unread (w : World S P) (l : SocketListener) : Prop where
  first : l ≠ .firstData
  more : l = .nextData ∨ l = .endRead → w.owner.httpParser = none
  shut : ∀ cb, l ≠ .shutdownDone cb

theorem Unread.runSocketListener {event : SocketEvent} {w : World S P}
    {l : SocketListener} (h : Unread w l) :
    Unparsed w (runSocketListener event w l) := by
  cases l with
  | connected => exact unparsed_onConnect w
  | requestWritten => exact unparsed_onWriteHttpRequest w
  | closedEarly => exact unparsed_onError _ w
  | firstData => exact absurd rfl h.first
  | nextData =>
      simp only [DownloaderSimple.runSocketListener]
      split
      · exact unparsed_onRead (h.more (.inl rfl)) _
      · exact .refl _
  | endRead => exact unparsed_onRead (h.more (.inr rfl)) []
  | shutdownDone cb => exact absurd rfl (h.shut cb)
  | connectError | requestError | responseError => exact .refl _

theorem unparsed_runSocketListeners {event : SocketEvent} :
    ∀ {ls : List SocketListener} {w : World S P}, (∀ l ∈ ls, Unread w l) →
    Unparsed w (ls.foldl (runSocketListener event) w)
  | [], _, _ => .refl _
  | l :: ls, w, hls => by
      have hhead : Unparsed w (runSocketListener event w l) :=
        (hls l List.mem_cons_self).runSocketListener
      refine hhead.trans (unparsed_runSocketListeners fun l' hl' => ?_)
      have h := hls l' (List.mem_cons_of_mem _ hl')
      exact ⟨h.first, fun hm => hhead.parser.trans (h.more hm), h.shut⟩

theorem unparsed_onSocketEvent {event : SocketEvent} {w : World S P}
    (h : ∀ l ∈ w.owner.socket.getD [], Listens.kind l = event.kind →
      Unread w l) : Unparsed w (onSocketEvent event w) := by
  have hcleared : Unparsed w
      { w with owner.socket := w.owner.socket.clearKind event.kind } :=
    .resocket _ _ fun l hl => .inl (Handle.getD_clearKind hl)
  have hrun : Unparsed w
      ((w.owner.socket.taken event.kind).foldl (runSocketListener event)
        { w with owner.socket := w.owner.socket.clearKind event.kind }) :=
    hcleared.trans (unparsed_runSocketListeners fun l hl => by
      obtain ⟨hmem, hk⟩ := Handle.mem_taken.mp hl
      obtain ⟨hfirst, hmore, hshut⟩ := h l hmem hk
      exact ⟨hfirst, hmore, hshut⟩)
  cases event with
  | errorEvent err => exact unparsed_onSocketError err w
  | _ => exact hrun

/-- An event that comes to no parser, and to no listener for the end of the
download. -/
theorem Handled.unparsed {w w' : World S P} {event : Event}
    (hw : Handled w event w') (hparsed : parsed w event = none)
    (hshut : event = .socket .shutdownEvent →
      ∀ cb, ¬ listens (.shutdownDone cb) w)
    (hclosed : .closed ∈ w.owner.file.getD [] →
      w.owner.receiveDone = true) : Unparsed w w' := by
  cases hw with
  | resolver result _ => exact unparsed_onResolverEvent result w
  | data data _ =>
      refine unparsed_onSocketEvent fun l hl hk => ?_
      have hfirst : ¬ listens .firstData w := fun hf => by
        simp only [parsed, if_pos hf] at hparsed
        cases hparsed
      refine ⟨fun h => hfirst (h ▸ hl), fun hm => ?_, fun cb h => ?_⟩
      · rcases hm with rfl | rfl
        · simp only [parsed, if_neg hfirst, if_pos (show listens _ w from hl)]
            at hparsed
          exact Option.map_eq_none_iff.mp hparsed
        · cases hk
      · subst h
        cases hk
  | ended =>
      refine unparsed_onSocketEvent
        (w := { w with owner.peerEnded := true }) fun l hl hk => ?_
      refine ⟨fun h => ?_, fun hm => ?_, fun cb h => ?_⟩
      · subst h
        cases hk
      · rcases hm with rfl | rfl
        · cases hk
        · simp only [parsed, if_pos (show listens _ w from hl)] at hparsed
          exact Option.map_eq_none_iff.mp hparsed
      · subst h
        cases hk
  | socket event hdata hend =>
      refine unparsed_onSocketEvent fun l hl hk => ⟨fun h => ?_, fun hm => ?_,
        fun cb h => ?_⟩
      · subst h
        exact absurd hk.symm hdata
      · rcases hm with rfl | rfl
        · exact absurd hk.symm hdata
        · exact absurd hk.symm hend
      · subst h
        cases event <;> first | exact hshut rfl cb hl | cases hk
  | timer _ => exact unparsed_onTimerEvent w
  | fileFailed err _ => exact unparsed_onFileError err (completed _ w)
  | fileDone _ _ => exact unparsed_onFileDone _ _ (completed _ w) hclosed
  | stop _ => exact unparsed_onError "Abort." w

/-! ## What takes the response in -/

omit [TCPSocket S] [HttpParser P] in
theorem Reception.Unparsed.receive {a b : Reception P} (h : a.Unparsed b)
    (hdone : a.receiveDone = false) (data : Bytes) :
    Reception.Unparsed { a with received := a.received ++ data }
      { b with received := b.received ++ data } where
  parser := h.parser
  received := congrArg (· ++ data) h.received
  receiveDone := h.receiveDone
  redirectUri := h.redirectUri
  socket := h.socket
  file := h.file
  marks m hm := (h.marks m hm).imp_right fun ht =>
    ⟨ht.redirect, fun hd => absurd ((ht.done hd).1.symm.trans hdone) nofun⟩

omit [HttpParser P] in
theorem onData_taken (data : Bytes) (w : World S P) :
    Reception.Unparsed
      { reception w with received := w.owner.received ++ data }
      (reception (onData data w)) := by
  have hopen (w : World S P) : Unparsed w (openFile w) := by
    have hlisten := Reception.Unparsed.refile (reception w)
      (some [.openError, .opened]) (by simp)
    exact hlisten.trans (unparsed_fileCall .openFile
      (giveName { onceFile .opened (onceFile .openError
        { w with owner.file := some [] }) with
        owner.fileOperationStarted := true }))
  have hwrite (w : World S P) : Unparsed w (writeIfIdle w) := by
    unfold writeIfIdle
    split
    · exact unparsed_onWrite { w with owner.fileOperationStarted := true }
    · exact .refl _
  obtain ⟨sock, misused, heq, -⟩ := enqueue_shape data w
  have hqueued : reception (enqueue data w) =
      { reception w with received := w.owner.received ++ data } := by
    rw [heq]
    rfl
  rw [← hqueued]
  unfold onData feed
  split
  · exact (hopen _).trans (hwrite _)
  · exact hwrite _

omit [HttpParser P] in
theorem onDatas_taken : ∀ (chunks : List Bytes) {w : World S P},
    w.owner.receiveDone = false →
    Reception.Unparsed
      { reception w with received := w.owner.received ++ chunks.flatten }
      (reception (chunks.foldl (fun w chunk => onData chunk w) w))
  | [], w, _ => by
      rw [List.flatten_nil, List.append_nil]
      exact .refl _
  | chunk :: chunks, w, hdone => by
      have hhead := onData_taken chunk w
      have hrest := onDatas_taken chunks (hhead.receiveDone.trans hdone)
      have hmore := hhead.receive hdone chunks.flatten
      rw [List.flatten_cons, ← List.append_assoc]
      exact hmore.trans hrest

/-- What a call of the parser makes of the reception: the chunks are taken in,
and the result decides on what is waited for next. -/
structure Reception.Takes (a : Reception P)
    (r : P × List Bytes × ResponseParseResult) (b : Reception P) : Prop where
  parser : b.parser = some r.1
  received : b.received = a.received ++ r.2.1.flatten
  done : b.receiveDone = true → r.2.2.state = .done
  next : .nextData ∈ b.socket.getD [] →
    .nextData ∈ a.socket.getD [] ∨ r.2.2.state = .inProgress
  finish : .shutdownDone .reportDone ∈ b.socket.getD [] →
    .shutdownDone .reportDone ∈ a.socket.getD [] ∨ b.receiveDone = true
  redirect : .shutdownDone .reportRedirect ∈ b.socket.getD [] →
    .shutdownDone .reportRedirect ∈ a.socket.getD [] ∨
      r.2.2.state = .redirect ∧ b.redirectUri = r.2.2.redirectUri
  file : .closed ∈ b.file.getD [] →
    .closed ∈ a.file.getD [] ∨ b.receiveDone = true
  marks : ∀ m ∈ b.trace,
    m ∈ a.trace ∨ Tells b.receiveDone b.received (Mark.report m)

section

variable {a b c : Reception P} {r : P × List Bytes × ResponseParseResult}

omit [TCPSocket S] [HttpParser P] in
theorem Reception.Unparsed.tells (h : b.Unparsed c) {r : Report}
    (ht : Tells b.receiveDone b.received r) :
    Tells c.receiveDone c.received r :=
  ⟨ht.redirect, fun hd => by
    obtain ⟨hdone, hreceived⟩ := ht.done hd
    exact ⟨h.receiveDone.trans hdone, hreceived.trans h.received.symm⟩⟩

omit [TCPSocket S] [HttpParser P] in
/-- Nothing has been found out about the end yet. -/
theorem Reception.Unparsed.takes
    (h : Reception.Unparsed { a with
      parser := some r.1, received := a.received ++ r.2.1.flatten } b)
    (hdone : a.receiveDone = false) : a.Takes r b where
  parser := h.parser
  received := h.received
  done hd := absurd ((h.receiveDone.trans hdone).symm.trans hd) nofun
  next hl := .inl ((h.socket _ hl).resolve_right nofun)
  finish hl := .inl ((h.socket _ hl).resolve_right nofun)
  redirect hl := .inl ((h.socket _ hl).resolve_right nofun)
  file hc := (h.file hc).imp_right h.receiveDone.trans
  marks m hm := (h.marks m hm).imp_right h.tells

omit [TCPSocket S] [HttpParser P] in
theorem Reception.Takes.unparsed (h : a.Takes r b) (h' : b.Unparsed c) :
    a.Takes r c where
  parser := h'.parser.trans h.parser
  received := h'.received.trans h.received
  done hd := h.done (h'.receiveDone ▸ hd)
  next hl := h.next ((h'.socket _ hl).resolve_right nofun)
  finish hl := (h.finish ((h'.socket _ hl).resolve_right nofun)).imp_right
    h'.receiveDone.trans
  redirect hl := (h.redirect ((h'.socket _ hl).resolve_right nofun)).imp_right
    fun ⟨hstate, huri⟩ => ⟨hstate, h'.redirectUri.trans huri⟩
  file hc := ((h'.file hc).elim h.file .inr).imp_right h'.receiveDone.trans
  marks m hm := (h'.marks m hm).elim
    (fun hm => (h.marks m hm).imp_right h'.tells) fun ht => .inr (h'.tells ht)

end

omit [HttpParser P] in
/-- What `on_read` does at the end of a response, once the listener for the end
of the shutdown is registered. -/
theorem unparsed_closing (cb : Callback) (w : World S P) :
    Reception.Unparsed
      { reception w with
        socket := w.owner.socket.clear.once (.shutdownDone cb) }
      (reception (closeHandles cb (socketStop w))) := by
  have hclose (w : World S P) : Unparsed
      (onceSocket (.shutdownDone cb)
        { w with owner.socket := w.owner.socket.clear })
      (closeHandles cb w) := by
    have hcall := unparsed_socketCall TCPSocket.shutdown
      (onceSocket (.shutdownDone cb)
        { w with owner.socket := w.owner.socket.clear })
    unfold closeHandles
    simp only []
    split <;> exact hcall
  unfold socketStop
  split
  · exact hclose { w with sock := TCPSocket.stop w.sock }
  · exact hclose (misuse w)

omit [TCPSocket S] [HttpParser P] in
theorem Reception.Takes.closing {a b : Reception P}
    {r : P × List Bytes × ResponseParseResult} (h : a.Takes r b)
    (cb : Callback)
    (hfinish : cb = .reportDone → b.receiveDone = true)
    (hredirect : cb = .reportRedirect →
      r.2.2.state = .redirect ∧ b.redirectUri = r.2.2.redirectUri) :
    a.Takes r
      { b with socket := b.socket.clear.once (.shutdownDone cb) } := by
  have hmem : ∀ l ∈ (b.socket.clear.once (.shutdownDone cb)).getD [],
      l = .shutdownDone cb := fun l hl => by
    rcases Handle.getD_once hl with hl | rfl
    · rw [Handle.getD_clear] at hl
      exact absurd hl List.not_mem_nil
    · rfl
  refine ⟨h.parser, h.received, h.done, fun hl => ?_, fun hl => .inr ?_,
    fun hl => .inr ?_, h.file, h.marks⟩
  · cases hmem _ hl
  · exact hfinish (SocketListener.shutdownDone.inj (hmem _ hl)).symm
  · exact hredirect (SocketListener.shutdownDone.inj (hmem _ hl)).symm

omit [HttpParser P] in
theorem onResult_takes {a : Reception P}
    {r : P × List Bytes × ResponseParseResult} {w : World S P}
    (h : a.Takes r (reception w)) :
    a.Takes r (reception (onResult r.2.2 w)) := by
  unfold onResult
  cases hres : r.2.2.state with
  | inProgress =>
      have hnext : a.Takes r (reception (onceSocket .nextData w)) :=
        ⟨h.parser, h.received, h.done, fun _ => .inr hres,
          fun hl => h.finish ((Handle.getD_once hl).resolve_right nofun),
          fun hl => h.redirect ((Handle.getD_once hl).resolve_right nofun),
          h.file, h.marks⟩
      exact (hnext.unparsed (unparsed_timerStart _)).unparsed
        (unparsed_updateOnTheGo "Data received." _)
  | redirect =>
      have hnoted : a.Takes r
          { reception w with redirectUri := r.2.2.redirectUri } :=
        ⟨h.parser, h.received, h.done, h.next, h.finish,
          fun hl => (h.redirect hl).imp_right fun hr => ⟨hr.1, rfl⟩, h.file,
          h.marks⟩
      exact (hnoted.closing .reportRedirect nofun
        fun _ => ⟨hres, rfl⟩).unparsed (unparsed_closing .reportRedirect
          { w with owner.status.redirectUri := r.2.2.redirectUri })
  | done =>
      have hnoted : a.Takes r { reception w with receiveDone := true } := by
        refine ⟨h.parser, h.received, fun _ => hres, h.next, fun _ => .inr rfl,
          h.redirect, fun _ => .inr rfl, fun m hm => ?_⟩
        exact (h.marks m hm).imp_right fun ht =>
          ⟨ht.redirect, fun hd => ⟨rfl, (ht.done hd).2⟩⟩
      exact (hnoted.closing .reportDone (fun _ => rfl) nofun).unparsed
        (unparsed_closing .reportDone { w with owner.receiveDone := true })
  | error => exact h.unparsed (unparsed_onError _ w)

theorem onRead_takes {parser : P} (data : Bytes) {w : World S P}
    (hp : w.owner.httpParser = some parser)
    (hdone : w.owner.receiveDone = false) :
    (reception w).Takes (HttpParser.responseParse parser data)
      (reception (onRead data w)) := by
  have hstop : reception (timerStop w) = reception w := by
    unfold timerStop
    split <;> rfl
  have hparser : (timerStop w).owner.httpParser = some parser :=
    (congrArg Reception.parser hstop).trans hp
  unfold onRead
  simp only [hparser]
  obtain ⟨r, hr⟩ : ∃ r, r = HttpParser.responseParse parser data := ⟨_, rfl⟩
  rw [← hr]
  have hfed := onDatas_taken r.2.1
    (w := { timerStop w with owner.httpParser := some r.1 })
    ((congrArg Reception.receiveDone hstop).trans hdone)
  have hchunks : (reception w).Takes r (reception (r.2.1.foldl
      (fun w chunk => onData chunk w)
      { timerStop w with owner.httpParser := some r.1 })) := by
    rw [← hstop]
    exact Reception.Unparsed.takes hfed
      ((congrArg Reception.receiveDone hstop).trans hdone)
  unfold afterParse
  split
  · exact hchunks
  · exact onResult_takes (w := { r.2.1.foldl (fun w chunk => onData chunk w)
      { timerStop w with owner.httpParser := some r.1 } with
      owner.status.size := r.2.2.contentLength }) hchunks

end DownloaderSimple

end EcwidDownloader
