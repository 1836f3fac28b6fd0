import EcwidDownloader.Downloader.Session

/-!
# A downloader that has let go of its handles

`terminate_handles` leaves every handle without listeners, except that an open
file gets the one that unlinks it. From then on nothing can be reported. What is
shown here is that this is so whatever state the error found the downloader in,
and that it stays so: a write that is started again by the data an event still
had to deliver goes on writing, and keeps silent.
-/

namespace EcwidDownloader

open Lib

namespace DownloaderSimple

variable {S P : Type}

/-- No handle of the network side has a listener. -/
structure NetSilent (w : World S P) : Prop where
  resolver : w.owner.resolver.getD [] = []
  socket : w.owner.socket.getD [] = []
  netTimer : w.owner.netTimer.getD [] = []

theorem NetSilent.congr {w w' : World S P} (h : NetSilent w)
    (hresolver : w'.owner.resolver = w.owner.resolver := by rfl)
    (hsocket : w'.owner.socket = w.owner.socket := by rfl)
    (hnetTimer : w'.owner.netTimer = w.owner.netTimer := by rfl) :
    NetSilent w' := by
  refine ⟨?_, ?_, ?_⟩
  · rw [hresolver]
    exact h.resolver
  · rw [hsocket]
    exact h.socket
  · rw [hnetTimer]
    exact h.netTimer

/-- Nothing the file has in flight can lead to a report. -/
def FileSilent (w : World S P) : Prop :=
  ∀ l ∈ w.owner.file.getD [],
    l = .unlinkClosed ∨ l = .written ∧ w.owner.receiveDone = false

/-- The downloader has let go of its handles. -/
structure Over (w : World S P) : Prop where
  net : NetSilent w
  file : FileSilent w

/-- What an observer sees has not changed, nor what decides on a report. -/
structure Unseen (w w' : World S P) : Prop where
  trace : w'.owner.trace = w.owner.trace
  state : w'.owner.status.state = w.owner.status.state
  receiveDone : w'.owner.receiveDone = w.owner.receiveDone
  file : w'.owner.file.isSome = w.owner.file.isSome

theorem Unseen.refl (w : World S P) : Unseen w w := ⟨rfl, rfl, rfl, rfl⟩

theorem Unseen.trans {w₁ w₂ w₃ : World S P} (h : Unseen w₁ w₂)
    (h' : Unseen w₂ w₃) : Unseen w₁ w₃ :=
  ⟨h'.trace.trans h.trace, h'.state.trans h.state,
    h'.receiveDone.trans h.receiveDone, h'.file.trans h.file⟩

/-! ## Handles -/

namespace Handle

variable {L : Type} [Listens L EventKind]

omit [Listens L EventKind] in
theorem getD_clear (h : Handle L) : h.clear.getD [] = [] := by
  cases h <;> rfl

omit [Listens L EventKind] in
theorem clear_of_null {h : Handle L} (hs : ¬ h.isSome = true) :
    h.clear = h := by
  cases h with
  | none => rfl
  | some ls => exact absurd rfl hs

theorem getD_clearKind {h : Handle L} {k : EventKind} {l : L}
    (hl : l ∈ (h.clearKind k).getD []) : l ∈ h.getD [] := by
  cases h with
  | none => exact hl
  | some ls => exact List.mem_of_mem_filter hl

theorem clearKind_of_silent {h : Handle L} {k : EventKind}
    (hs : h.getD [] = []) : (h.clearKind k).getD [] = [] := by
  cases h with
  | none => rfl
  | some ls =>
      obtain rfl : ls = [] := hs
      rfl

theorem taken_of_silent {h : Handle L} {k : EventKind}
    (hs : h.getD [] = []) : h.taken k = [] := by
  unfold Handle.taken
  rw [hs]
  rfl

theorem mem_taken {h : Handle L} {k : EventKind} {l : L} :
    l ∈ h.taken k ↔ l ∈ h.getD [] ∧ Listens.kind l = k := by
  simp [Handle.taken, Emitter.taken]

theorem getD_once {h : Handle L} {l l' : L}
    (hl : l ∈ (h.once l').getD []) : l ∈ h.getD [] ∨ l = l' := by
  cases h with
  | none => exact absurd hl List.not_mem_nil
  | some ls =>
      rcases List.mem_append.mp hl with hl | hl
      · exact .inl hl
      · exact .inr (List.mem_singleton.mp hl)

omit [Listens L EventKind] in
@[simp] theorem isSome_clear (h : Handle L) : h.clear.isSome = h.isSome := by
  cases h <;> rfl

@[simp] theorem isSome_once (h : Handle L) (l : L) :
    (h.once l).isSome = h.isSome := by
  cases h <;> rfl

@[simp] theorem isSome_clearKind (h : Handle L) (k : EventKind) :
    (h.clearKind k).isSome = h.isSome := by
  cases h <;> rfl

end Handle

/-! ## The end of a downloader -/

/-- Starting a file operation touches only what is in flight. -/
theorem beginFile_snd (op : FileOp) (w : World S P) :
    ∃ ops, (beginFile op w).2 =
      { w with
        owner.fileOps := ops
        owner.fileCalls := w.owner.fileCalls ++ [⟨op, w.owner.fileOps⟩]
        owner.faults.file := w.owner.faults.file.tail } := by
  unfold beginFile
  cases h : w.owner.faults.file.head?.join with
  | none => exact ⟨w.owner.fileOps ++ [op], rfl⟩
  | some err => exact ⟨w.owner.fileOps, rfl⟩

variable [TCPSocket S]

/-- What `terminate_handles` leaves of the handles, and what it leaves alone. -/
structure Terminated (w w' : World S P) : Prop where
  resolver : w'.owner.resolver = w.owner.resolver.clear
  socket : w'.owner.socket = w.owner.socket.clear
  netTimer : w'.owner.netTimer = w.owner.netTimer.clear
  file : w'.owner.file = w.owner.file.clear ∨
    w'.owner.file = w.owner.file.clear.once .unlinkClosed
  unseen : Unseen w w'
  report : report w' = report w
  httpParser : w'.owner.httpParser = w.owner.httpParser
  started : w'.owner.fileOperationStarted = w.owner.fileOperationStarted
  sock : w.owner.socket.isSome → w'.sock = TCPSocket.close w.sock

theorem terminateSocket_eq (w : World S P) :
    terminateSocket w =
      { w with
        sock :=
          if w.owner.socket.isSome then TCPSocket.close w.sock else w.sock
        owner.socket := w.owner.socket.clear } := by
  unfold terminateSocket
  split
  · rfl
  · next hs => rw [Handle.clear_of_null hs]

omit [TCPSocket S] in
theorem terminateTimer_eq (w : World S P) :
    terminateTimer w =
      { w with
        owner.netTimer := w.owner.netTimer.clear
        owner.timerArmed := !w.owner.netTimer.isSome && w.owner.timerArmed } := by
  unfold terminateTimer
  split
  · next hs => rw [hs]; rfl
  · next hs =>
      rw [Handle.clear_of_null hs, Bool.eq_false_iff.mpr hs]
      rfl

omit [TCPSocket S] in
theorem terminateFile_cases (w : World S P) :
    terminateFile w = { w with owner.file := w.owner.file.clear } ∨
      ∃ ops, terminateFile w =
        { w with
          owner.file := w.owner.file.clear.once .unlinkClosed
          owner.fileOps := ops
          owner.fileCalls := w.owner.fileCalls ++ [⟨.close, w.owner.fileOps⟩]
          owner.faults.file := w.owner.faults.file.tail } := by
  unfold terminateFile
  simp only []
  split
  · obtain ⟨ops, hops⟩ := beginFile_snd .close
      { w with owner.file := w.owner.file.clear.once .unlinkClosed }
    exact .inr ⟨ops, hops⟩
  · exact .inl rfl

theorem terminated (w : World S P) : Terminated w (terminateHandles w) := by
  unfold terminateHandles
  rw [terminateSocket_eq, terminateTimer_eq]
  rcases terminateFile_cases _ with h | ⟨ops, h⟩
  · rw [h]
    exact ⟨rfl, rfl, rfl, .inl rfl, ⟨rfl, rfl, rfl, Handle.isSome_clear _⟩,
      rfl, rfl, rfl, fun hs => if_pos hs⟩
  · rw [h]
    refine ⟨rfl, rfl, rfl, .inr rfl, ⟨rfl, rfl, rfl, ?_⟩, rfl, rfl, rfl,
      fun hs => if_pos hs⟩
    exact (Handle.isSome_once _ _).trans (Handle.isSome_clear _)

theorem Terminated.past {w w' : World S P} (h : Terminated w w') : Over w' := by
  refine ⟨⟨?_, ?_, ?_⟩, fun l hl => .inl ?_⟩
  · rw [h.resolver, Handle.getD_clear]
  · rw [h.socket, Handle.getD_clear]
  · rw [h.netTimer, Handle.getD_clear]
  · rcases h.file with hf | hf <;> rw [hf] at hl
    · rw [Handle.getD_clear] at hl
      exact absurd hl List.not_mem_nil
    · rcases Handle.getD_once hl with hl | hl
      · rw [Handle.getD_clear] at hl
        exact absurd hl List.not_mem_nil
      · exact hl

/-- What an error leaves as it is on the way from `on_data` to the disk. -/
structure Stock where
  openned : Bool
  buffer : List DataChunk
  received : Bytes
  offset : Nat
  disk : Disk

omit [TCPSocket S] in
def stock (w : World S P) : Stock :=
  { openned := w.owner.fileOpenned
    buffer := w.owner.buffer
    received := w.owner.received
    offset := w.owner.offsetFile
    disk := w.owner.disk }

/-- What an error does to the output file: one that is open is closed, to be
unlinked then, and any other is let go. -/
structure Disposing (w w' : World S P) : Prop where
  stock : stock w' = stock w
  ops : ∀ op ∈ w.owner.fileOps, op ∈ w'.owner.fileOps
  begun : ∀ op ∈ w'.owner.fileOps, op ∈ w.owner.fileOps ∨ op = .close
  silent : ∀ l ∈ w'.owner.file.getD [], l = .unlinkClosed
  letGo : w.owner.fileOpenned = false →
    w'.owner.file.getD [] = [] ∧ w'.owner.fileOps = w.owner.fileOps
  closing : w.owner.fileOpenned = true → w.owner.file.isSome = true →
    .unlinkClosed ∈ w'.owner.file.getD [] ∧
      (w.owner.faults.file.head?.join = none →
        FileOp.close ∈ w'.owner.fileOps)
  calls : w'.owner.fileCalls = w.owner.fileCalls ++
    if w.owner.file.isSome && w.owner.fileOpenned then
      [⟨.close, w.owner.fileOps⟩]
    else []

omit [TCPSocket S] in
theorem Disposing.openned {w w' : World S P} (h : Disposing w w') :
    w'.owner.fileOpenned = w.owner.fileOpenned :=
  congrArg Stock.openned h.stock

omit [TCPSocket S] in
theorem Disposing.disk {w w' : World S P} (h : Disposing w w') :
    w'.owner.disk = w.owner.disk :=
  congrArg Stock.disk h.stock

omit [TCPSocket S] in
theorem disposing_terminateFile (w : World S P) :
    Disposing w (terminateFile w) := by
  unfold terminateFile
  simp only []
  split
  · next hopen =>
      have hboth : w.owner.file.isSome = true ∧ w.owner.fileOpenned = true := by
        simpa using hopen
      have hcall : (if w.owner.file.isSome && w.owner.fileOpenned then
          [FileCall.mk .close w.owner.fileOps] else []) =
            [⟨.close, w.owner.fileOps⟩] := by
        rw [hboth.1, hboth.2]
        rfl
      obtain ⟨ls, hls⟩ := Option.isSome_iff_exists.mp hboth.1
      unfold beginFile
      cases hf : w.owner.faults.file.head?.join with
      | none =>
          refine ⟨rfl, fun op hop => List.mem_append_left _ hop, ?_, ?_,
            fun hno => absurd (hno.symm.trans hboth.2) Bool.false_ne_true,
            fun _ _ => ⟨?_, fun _ => ?_⟩, by rw [hcall]⟩
          · simp
          · simp [hls, Handle.clear, Handle.once, Emitter.once]
          · simp [hls, Handle.clear, Handle.once, Emitter.once]
          · simp
      | some err =>
          refine ⟨rfl, fun op hop => hop, fun op hop => .inl hop,
            by simp [hls, Handle.clear, Handle.once, Emitter.once],
            fun hno => absurd (hno.symm.trans hboth.2) Bool.false_ne_true,
            fun _ _ => ⟨?_, fun hno => absurd (hf.symm.trans hno) nofun⟩,
            by rw [hcall]⟩
          simp [hls, Handle.clear, Handle.once, Emitter.once]
  · next hopen =>
      refine ⟨rfl, fun op hop => hop, fun op hop => .inl hop, fun l hl => ?_,
        fun _ => ⟨Handle.getD_clear _, rfl⟩, fun ho hs => absurd ?_ hopen, ?_⟩
      · rw [Handle.getD_clear] at hl
        exact absurd hl List.not_mem_nil
      · simp only [Handle.isSome_clear, ho, hs]
        rfl
      · simp only [Handle.isSome_clear] at hopen
        rw [if_neg hopen, List.append_nil]

omit [TCPSocket S] in
/-- An edit of the other fields, before. -/
theorem Disposing.after {w₁ w₂ w₃ : World S P} (h : Disposing w₂ w₃)
    (hstock : DownloaderSimple.stock w₂ = DownloaderSimple.stock w₁)
    (hops : w₂.owner.fileOps = w₁.owner.fileOps)
    (hfile : w₂.owner.file.isSome = w₁.owner.file.isSome)
    (hfaults : w₂.owner.faults.file = w₁.owner.faults.file)
    (hcalls : w₂.owner.fileCalls = w₁.owner.fileCalls) :
    Disposing w₁ w₃ := by
  have hopen : w₂.owner.fileOpenned = w₁.owner.fileOpenned :=
    congrArg Stock.openned hstock
  refine ⟨h.stock.trans hstock, ?_, ?_, h.silent, ?_, ?_, ?_⟩
  · rw [← hops]
    exact h.ops
  · rw [← hops]
    exact h.begun
  · rw [← hopen, ← hops]
    exact h.letGo
  · rw [← hopen, ← hfile, ← hfaults]
    exact h.closing
  · rw [← hcalls, ← hfile, ← hopen, ← hops]
    exact h.calls

theorem disposing_terminateHandles (w : World S P) :
    Disposing w (terminateHandles w) := by
  unfold terminateHandles
  rw [terminateSocket_eq, terminateTimer_eq]
  exact (disposing_terminateFile _).after rfl rfl rfl rfl rfl

/-- The two marks an error leaves. -/
def failedReport (w : World S P) : Report := { report w with state := .failed }

/-- What an error does, whatever state it finds. -/
structure Failing (w w' : World S P) : Prop where
  past : Over w'
  state : w'.owner.status.state = .failed
  trace : w'.owner.trace =
    w.owner.trace ++ [.assigned (failedReport w), .invoked (failedReport w)]
  receiveDone : w'.owner.receiveDone = w.owner.receiveDone
  file : w'.owner.file.isSome = w.owner.file.isSome
  httpParser : w'.owner.httpParser = w.owner.httpParser
  resolver : w'.owner.resolver = w.owner.resolver.clear
  started : w'.owner.fileOperationStarted = w.owner.fileOperationStarted
  sock : w.owner.socket.isSome → w'.sock = TCPSocket.close w.sock
  disposing : Disposing w w'

theorem failing (text : String) (w : World S P) :
    Failing w (onError text w) := by
  have h := terminated (setStatus .failed text w)
  have hreport : report (onErrorWithoutTick text w) = failedReport w := h.report
  refine ⟨⟨h.past.net.congr, h.past.file⟩, h.unseen.state, ?_,
    h.unseen.receiveDone, h.unseen.file,
    h.httpParser, h.resolver, h.started, h.sock, ?_⟩
  · show (terminateHandles (setStatus .failed text w)).owner.trace ++
      [.invoked (report (onErrorWithoutTick text w))] = _
    rw [h.unseen.trace, hreport]
    exact List.append_assoc _ [_] [_]
  · have hd : Disposing w (terminateHandles (setStatus .failed text w)) :=
      (disposing_terminateHandles _).after rfl rfl rfl rfl rfl
    exact ⟨hd.stock, hd.ops, hd.begun, hd.silent, hd.letGo, hd.closing,
      hd.calls⟩

/-! ## Nothing follows -/

/-- A call on a downloader that is over keeps it so, unseen. -/
structure Passing (w w' : World S P) : Prop where
  past : Over w'
  unseen : Unseen w w'

omit [TCPSocket S] in
/-- A change of what neither listens nor is seen. -/
theorem Over.aside {w w' : World S P} (h : Over w)
    (hresolver : w'.owner.resolver = w.owner.resolver := by rfl)
    (hsocket : w'.owner.socket = w.owner.socket := by rfl)
    (hnetTimer : w'.owner.netTimer = w.owner.netTimer := by rfl)
    (hfile : w'.owner.file = w.owner.file := by rfl)
    (htrace : w'.owner.trace = w.owner.trace := by rfl)
    (hstate : w'.owner.status.state = w.owner.status.state := by rfl)
    (hdone : w'.owner.receiveDone = w.owner.receiveDone := by rfl) :
    Passing w w' := by
  refine ⟨⟨h.net.congr hresolver hsocket hnetTimer, ?_⟩,
    ⟨htrace, hstate, hdone, by rw [hfile]⟩⟩
  unfold FileSilent
  rw [hfile, hdone]
  exact h.file

omit [TCPSocket S] in
theorem Passing.refl {w : World S P} (h : Over w) : Passing w w :=
  ⟨h, Unseen.refl w⟩

omit [TCPSocket S] in
theorem Passing.trans {w₁ w₂ w₃ : World S P} (h : Passing w₁ w₂)
    (h' : Passing w₂ w₃) : Passing w₁ w₃ :=
  ⟨h'.past, h.unseen.trans h'.unseen⟩

theorem NetSilent.onSocketError {w : World S P} (h : NetSilent w)
    (err : ErrorEvent) :
    onSocketError err w =
      { w with owner.socket := w.owner.socket.clearKind .error } := by
  unfold DownloaderSimple.onSocketError
  rw [Handle.taken_of_silent h.socket]
  rfl

theorem Over.onSocketError {w : World S P} (h : Over w) (err : ErrorEvent) :
    Passing w (onSocketError err w) := by
  rw [h.net.onSocketError]
  exact ⟨⟨⟨h.net.resolver, Handle.clearKind_of_silent h.net.socket,
    h.net.netTimer⟩, h.file⟩, ⟨rfl, rfl, rfl, rfl⟩⟩

omit [TCPSocket S] in
theorem FileSilent.taken_error {w : World S P} (h : FileSilent w) :
    w.owner.file.taken .error = [] := by
  rw [List.eq_nil_iff_forall_not_mem]
  intro l hl
  obtain ⟨hl, hk⟩ := Handle.mem_taken.mp hl
  rcases h l hl with rfl | ⟨rfl, -⟩ <;> cases hk

theorem Over.onFileError {w : World S P} (h : Over w) (err : ErrorEvent) :
    Passing w (onFileError err w) := by
  unfold DownloaderSimple.onFileError
  rw [h.file.taken_error]
  exact ⟨⟨h.net.congr, fun l hl => h.file l (Handle.getD_clearKind hl)⟩,
    ⟨rfl, rfl, rfl, Handle.isSome_clearKind _ _⟩⟩

theorem Over.fileCall {w : World S P} (h : Over w) (op : FileOp) :
    Passing w (fileCall op w) := by
  obtain ⟨ops, hops⟩ := beginFile_snd op w
  have hbegun : Passing w (beginFile op w).2 := by
    rw [hops]
    exact h.aside
  unfold DownloaderSimple.fileCall
  split
  · next err w₁ heq =>
      rw [heq] at hbegun
      exact hbegun.trans (hbegun.past.onFileError err)
  · next w₁ heq =>
      rw [heq] at hbegun
      exact hbegun

theorem Over.socketCall {w : World S P} (h : Over w) (call : S → S) :
    Passing w (socketCall call w) := by
  unfold DownloaderSimple.socketCall
  have hbegun : Passing w (beginSocket call w).2 :=
    h.aside
  split
  · split
    · next err w₁ heq =>
        rw [heq] at hbegun
        exact hbegun.trans (hbegun.past.onSocketError err)
    · next w₁ heq =>
        rw [heq] at hbegun
        exact hbegun
  · exact h.aside

/-- Only a downloader that was still receiving can be writing when it is
over. -/
theorem Over.onWrite {w : World S P} (h : Over w)
    (hr : w.owner.receiveDone = false) : Passing w (onWrite w) := by
  unfold DownloaderSimple.onWrite
  split
  · rw [if_neg (by rw [hr]; exact Bool.false_ne_true)]
    have hidle : Passing w { w with owner.fileOperationStarted := false } :=
      h.aside
    simp only []
    split
    · split
      · exact hidle.trans (hidle.past.socketCall _)
      · exact hidle
    · exact h.aside
  · have hlisten : Passing w (onceFile .written w) := by
      refine ⟨⟨h.net.congr, ?_⟩,
        ⟨rfl, rfl, rfl, Handle.isSome_once _ _⟩⟩
      intro l hl
      rcases Handle.getD_once hl with hl | rfl
      · exact h.file l hl
      · exact .inr ⟨rfl, hr⟩
    exact hlisten.trans (hlisten.past.fileCall _)

/-- A chunk goes into the queue, whatever becomes of the socket. -/
theorem enqueue_shape (data : Bytes) (w : World S P) :
    ∃ sock misused, enqueue data w =
        { w with
          sock := sock
          owner.misused := misused
          owner.status.downloaded := w.owner.status.downloaded + data.length
          owner.buffer := w.owner.buffer ++ [{ data := data }]
          owner.received := w.owner.received ++ data } ∧
      (w.owner.socket.isSome = true → misused = w.owner.misused) := by
  unfold enqueue
  simp only []
  split
  · split
    · next hs =>
        split
        · unfold socketStop
          rw [if_pos hs]
          exact ⟨_, _, rfl, fun _ => rfl⟩
        · exact ⟨_, _, rfl, fun _ => rfl⟩
    · next hs => exact ⟨w.sock, true, rfl, fun h => absurd h hs⟩
  · exact ⟨_, _, rfl, fun _ => rfl⟩

theorem Over.enqueue {w : World S P} (h : Over w) (data : Bytes) :
    Passing w (enqueue data w) := by
  obtain ⟨sock, misused, heq, -⟩ := enqueue_shape data w
  rw [heq]
  exact h.aside

theorem Over.writeIfIdle {w : World S P} (h : Over w)
    (hr : w.owner.receiveDone = false) : Passing w (writeIfIdle w) := by
  unfold DownloaderSimple.writeIfIdle
  split
  · have hstart : Passing w { w with owner.fileOperationStarted := true } :=
      h.aside
    exact hstart.trans (hstart.past.onWrite hr)
  · exact Passing.refl h

theorem Over.onData {w : World S P} (h : Over w)
    (hr : w.owner.receiveDone = false) (hf : w.owner.file.isSome = true)
    (data : Bytes) : Passing w (onData data w) := by
  have hq := h.enqueue data
  unfold DownloaderSimple.onData feed
  rw [if_neg]
  · exact hq.trans (hq.past.writeIfIdle (hq.unseen.receiveDone.trans hr))
  · rw [Option.isNone_iff_eq_none, ← Option.not_isSome_iff_eq_none,
      hq.unseen.file]
    exact not_not_intro hf

theorem Over.runFileListener {w : World S P} (h : Over w) (size : Nat)
    {l : FileListener}
    (hl : l = .unlinkClosed ∨ l = .written ∧ w.owner.receiveDone = false) :
    Passing w (runFileListener size w l) := by
  rcases hl with rfl | ⟨rfl, hr⟩
  · exact h.aside
  · simp only [DownloaderSimple.runFileListener]
    split
    · exact h.aside
    · next chunk queue hq =>
        have hmoved : ∀ (offset : Nat) (buffer : List DataChunk), Passing w
            { w with owner.offsetFile := offset, owner.buffer := buffer } :=
          fun _ _ => h.aside
        exact (hmoved _ _).trans ((hmoved _ _).past.onWrite hr)

theorem Over.runFileListeners {size : Nat} : ∀ {ls : List FileListener}
    {w : World S P}, Over w →
    (∀ l ∈ ls, l = .unlinkClosed ∨ l = .written ∧ w.owner.receiveDone = false) →
    Passing w (ls.foldl (DownloaderSimple.runFileListener size) w)
  | [], w, h, _ => Passing.refl h
  | l :: ls, w, h, hls => by
      have hhead := h.runFileListener size (hls l List.mem_cons_self)
      refine hhead.trans (runFileListeners hhead.past fun l' hl' => ?_)
      rw [hhead.unseen.receiveDone]
      exact hls l' (List.mem_cons_of_mem _ hl')

theorem Over.onFileDone {w : World S P} (h : Over w) (op : FileOp)
    (size : Nat) : Passing w (onFileDone op size w) := by
  have hstart : Passing w
      { w with
        owner.disk := op.apply size w.owner.disk
        owner.file := w.owner.file.clearKind op.kind } :=
    ⟨⟨h.net.congr, fun l hl => h.file l (Handle.getD_clearKind hl)⟩,
      ⟨rfl, rfl, rfl, Handle.isSome_clearKind _ _⟩⟩
  exact hstart.trans (hstart.past.runFileListeners
    fun l hl => h.file l (Handle.mem_taken.mp hl).1)

variable [HttpParser P]

/-! ## The events -/

/-- The world while the completion of a file operation is handled. -/
def completed (index : Nat) (w : World S P) : World S P :=
  { w with owner.fileOps := w.owner.fileOps.eraseIdx index }

omit [TCPSocket S] [HttpParser P] in
theorem Over.completed {w : World S P} (h : Over w) (index : Nat) :
    Passing w (completed index w) := h.aside

/-- What each event comes to. -/
inductive Handled (w : World S P) : Event → World S P → Prop
  | resolver (result : Except ErrorEvent IPAddress) :
      w.owner.resolver.isSome →
      Handled w (.resolver result) (onResolverEvent result w)
  | data (data : Bytes) : w.owner.peerEnded = false →
      Handled w (.socket (.dataEvent data)) (onSocketEvent (.dataEvent data) w)
  | ended : Handled w (.socket .endEvent)
      (onSocketEvent .endEvent { w with owner.peerEnded := true })
  | socket (event : SocketEvent) : event.kind ≠ .data →
      event.kind ≠ .endOfStream →
      Handled w (.socket event) (onSocketEvent event w)
  | timer : w.owner.timerArmed → Handled w .timer (onTimerEvent w)
  | fileFailed {index : Nat} {op : FileOp} (err : ErrorEvent) :
      w.owner.fileOps[index]? = some op →
      Handled w (.file index (.error err)) (onFileError err (completed index w))
  | fileDone {index size : Nat} {op : FileOp} :
      w.owner.fileOps[index]? = some op → size ≤ op.size →
      Handled w (.file index (.ok size))
        (onFileDone op size (completed index w))
  | stop : ¬ w.owner.trace.any Mark.reportsFinal →
      Handled w .stop (stop w)

theorem handled_of_handle {w w' : World S P} {event : Event}
    (h : handle event w = some w') : Handled w event w' := by
  unfold handle at h
  split at h
  · split at h
    · next hr => cases h; exact .resolver _ hr
    · cases h
  · split at h
    · cases h
    · next hp => cases h; exact .data _ (Bool.eq_false_iff.mpr hp)
  · cases h
    exact .ended
  · next event hd he =>
      cases h
      refine .socket event ?_ ?_ <;> cases event <;>
        first
        | exact absurd rfl (hd _)
        | exact absurd rfl he
        | exact fun hk => EventKind.noConfusion hk
  · split at h
    · next ht => cases h; exact .timer ht
    · cases h
  · split at h
    · cases h
    · next index result op hop =>
        simp only [] at h
        split at h
        · next err => cases h; exact .fileFailed err hop
        · next size =>
            split at h
            · next hs => cases h; exact .fileDone hop hs
            · cases h
  · split at h
    · cases h
    · next hf => cases h; exact .stop hf

/-- With the network side silent only a file operation is heard of. -/
theorem NetSilent.onSocketEvent {w : World S P} (h : NetSilent w)
    (event : SocketEvent) :
    onSocketEvent event w =
      { w with owner.socket := w.owner.socket.clearKind event.kind } := by
  cases event with
  | errorEvent err => exact h.onSocketError err
  | _ =>
      simp only [DownloaderSimple.onSocketEvent]
      rw [Handle.taken_of_silent h.socket]
      rfl

/-- What an event other than those of the file and `stop()` can change when the
network side is silent. -/
structure Unheard (w w' : World S P) : Prop where
  net : NetSilent w'
  resolver : w.owner.resolver = none → w'.owner.resolver = none
  timer : w'.owner.timerArmed = true → w.owner.timerArmed = true
  frame : ∃ resolver socket netTimer timerArmed peerEnded,
    w' =
      { w with
        owner.resolver := resolver
        owner.socket := socket
        owner.netTimer := netTimer
        owner.timerArmed := timerArmed
        owner.peerEnded := peerEnded }

/-- What comes of an event when the network side is silent: only the file is
heard. -/
inductive Late (w : World S P) : Event → World S P → Prop
  | unheard {event : Event} {w' : World S P} : Unheard w w' → Late w event w'
  | fileFailed {index : Nat} {op : FileOp} (err : ErrorEvent) :
      w.owner.fileOps[index]? = some op →
      Late w (.file index (.error err)) (onFileError err (completed index w))
  | fileDone {index size : Nat} {op : FileOp} :
      w.owner.fileOps[index]? = some op → size ≤ op.size →
      Late w (.file index (.ok size)) (onFileDone op size (completed index w))

theorem NetSilent.late {w w' : World S P} (h : NetSilent w) {event : Event}
    (hstop : event ≠ .stop) (hw : Handled w event w') : Late w event w' := by
  cases hw with
  | resolver result hsome =>
      refine .unheard ?_
      unfold onResolverEvent
      simp only []
      rw [Handle.taken_of_silent h.resolver]
      refine ⟨⟨Handle.clearKind_of_silent h.resolver, h.socket, h.netTimer⟩,
        fun hnone => ?_, id, _, _, _, _, _, rfl⟩
      rw [hnone] at hsome
      cases hsome
  | data data _ =>
      rw [h.onSocketEvent]
      exact .unheard ⟨⟨h.resolver, Handle.clearKind_of_silent h.socket,
        h.netTimer⟩, id, id, _, _, _, _, _, rfl⟩
  | ended =>
      have h' : NetSilent { w with owner.peerEnded := true } :=
        h.congr
      rw [h'.onSocketEvent]
      exact .unheard ⟨⟨h.resolver, Handle.clearKind_of_silent h.socket,
        h.netTimer⟩, id, id, _, _, _, _, _, rfl⟩
  | socket event _ _ =>
      rw [h.onSocketEvent]
      exact .unheard ⟨⟨h.resolver, Handle.clearKind_of_silent h.socket,
        h.netTimer⟩, id, id, _, _, _, _, _, rfl⟩
  | timer _ =>
      refine .unheard ?_
      unfold onTimerEvent
      rw [Handle.taken_of_silent h.netTimer]
      exact ⟨⟨h.resolver, h.socket, Handle.clearKind_of_silent h.netTimer⟩,
        id, nofun, _, _, _, _, _, rfl⟩
  | fileFailed err hop => exact .fileFailed err hop
  | fileDone hop hsize => exact .fileDone hop hsize
  | stop _ => exact absurd rfl hstop

omit [TCPSocket S] [HttpParser P] in
theorem Over.unheard {w w' : World S P} (h : Over w) (hw : Unheard w w') :
    Passing w w' := by
  obtain ⟨hnet, -, -, resolver, socket, netTimer, timerArmed, peerEnded, rfl⟩ := hw
  exact ⟨⟨hnet, h.file⟩, ⟨rfl, rfl, rfl, rfl⟩⟩

/-- No event of a downloader that is over is seen. -/
theorem Over.handled {w w' : World S P} (h : Over w) {event : Event}
    (hstop : event ≠ .stop) (hw : Handled w event w') : Passing w w' := by
  cases h.net.late hstop hw with
  | unheard hunheard => exact h.unheard hunheard
  | @fileFailed index op err _ =>
      have hstart := h.completed index
      exact hstart.trans (hstart.past.onFileError err)
  | @fileDone index size op _ _ =>
      have hstart := h.completed index
      exact hstart.trans (hstart.past.onFileDone op size)

end DownloaderSimple

end EcwidDownloader
