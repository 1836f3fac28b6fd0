import EcwidDownloader.Proofs.DownloaderFile

/-!
# The completions of the output file

What the end of an open, a write or a close does to a download that has not
ended. A write confirms some bytes of the front chunk, which moves them from the
queue to the disk; the next step depends on what is left in the queue and on
whether the response is complete.
-/

namespace EcwidDownloader

open Lib

namespace DownloaderSimple

variable {S P : Type}

/-- A download that has just reported a final state, with its file in some
phase. -/
structure Reported (state : State) (f : Fil) (w : World S P) : Prop where
  net : NetSilent w
  receiveDone : w.owner.receiveDone = decide (state = .done)
  state : w.owner.status.state = state
  pipe : f.Holds (pipeline w)
  trace : ∃ before, Underway before ∧
    w.owner.trace = before ++ [.assigned (report w), .invoked (report w)]

theorem reported_updateStatus {state : State} {f : Fil} {w : World S P}
    (text : String) (hnet : NetSilent w)
    (hr : w.owner.receiveDone = decide (state = .done))
    (hp : f.Holds (pipeline w)) (ht : Underway w.owner.trace) :
    Reported state f (updateStatus state text w) :=
  ⟨hnet.congr, hr, rfl, hp, w.owner.trace, ht, List.append_assoc _ [_] [_]⟩

/-- With the socket gone nothing is left of the network side. -/
theorem Online.netSilent {w : World S P} (h : Online .shut w) :
    NetSilent w := by
  refine ⟨?_, ?_, ?_⟩
  · rw [show w.owner.resolver = none from h.line.resolver]
    rfl
  · rw [show w.owner.socket = none from h.line.socket]
    rfl
  · rw [show w.owner.netTimer = none from h.line.netTimer]
    rfl

/-! ## What a write has done -/

/-- The queue once `size` more bytes of its front chunk have been written. -/
def advanced (size : Nat) (chunk : DataChunk) (queue : List DataChunk) :
    List DataChunk :=
  if chunk.offset + size = chunk.length then queue
  else { chunk with offset := chunk.offset + size } :: queue

theorem unread_advanced (size : Nat) (chunk : DataChunk)
    (queue : List DataChunk) :
    unread (advanced size chunk queue) =
      chunk.rest.drop size ++ unread queue := by
  unfold advanced
  split
  · next hend =>
      have hempty : chunk.rest.drop size = [] := by
        rw [List.drop_eq_nil_iff, DataChunk.length_rest]
        unfold DataChunk.available
        omega
      rw [hempty, List.nil_append]
  · rw [unread_cons, DataChunk.rest_advance]

/-- A confirmed write keeps the disk up with what was received. -/
theorem Pipeline.Written.advance {p : Pipeline} (h : p.Written)
    {chunk : DataChunk} {queue : List DataChunk}
    (hb : p.buffer = chunk :: queue) {size : Nat}
    (hsize : size ≤ chunk.rest.length) :
    Pipeline.Written
      { p with
        buffer := advanced size chunk queue
        offset := p.offset + size
        disk := p.disk.write chunk.rest p.offset size } := by
  have hcontent : (p.disk.write chunk.rest p.offset size).content =
      p.disk.content ++ chunk.rest.take size := by
    simp [Disk.write, h.offset, List.drop_eq_nil_of_le]
  refine ⟨h.created, h.closed, ?_, ?_⟩
  · show p.offset + size = (p.disk.write chunk.rest p.offset size).content.length
    rw [hcontent, List.length_append, List.length_take, h.offset]
    omega
  · show (p.disk.write chunk.rest p.offset size).content ++
      unread (advanced size chunk queue) = p.received
    rw [hcontent, unread_advanced, ← h.content, hb, unread_cons,
      List.append_assoc, ← List.append_assoc (chunk.rest.take size),
      List.take_append_drop]

variable [TCPSocket S]

/-! ## Completions -/

/-- The file operations the success of one starts before the close an error
calls for. -/
def FileOp.starts (size : Nat) (w : World S P) : FileOp → Nat
  | .openFile => 1
  | .write _ _ =>
      match w.owner.buffer with
      | [] => 0
      | chunk :: queue => preceding (advanced size chunk queue)
  | .close => 0

omit [TCPSocket S] in
theorem FileOp.starts_openFile {size : Nat} {w : World S P}
    (h : w.owner.buffer ≠ []) :
    FileOp.starts size w .openFile = preceding w.owner.buffer :=
  (if_neg (by simpa using h)).symm

omit [TCPSocket S] in
theorem FileOp.starts_write {size : Nat} {w : World S P} {chunk : DataChunk}
    {queue : List DataChunk} (h : w.owner.buffer = chunk :: queue) :
    FileOp.starts size w (.write chunk.rest w.owner.offsetFile) =
      preceding (advanced size chunk queue) := by
  simp only [FileOp.starts, h]

/-- The outcome of a completion of the file in `w`, `k` file operations coming
before the close. -/
inductive Ended (D : Demands S) (n : Net) (k : Nat) (w w' : World S P) : Prop
  | alive {f : Fil} : Alive D n f w' → Ended D n k w w'
  | failed : Failed w' → (Spared k w → Disposed w') → Rested w' →
      Ended D n k w w'
  | reported : n = .shut → Reported .done .closed w' → Ended D n k w w'

theorem Wrote.ended {D : Demands S} {n : Net} {f : Fil} {k : Nat}
    {w₀ w w' : World S P} (h : Wrote D n f w w')
    (hk : preceding w.owner.buffer = k)
    (hfaults : w.owner.faults = w₀.owner.faults)
    (hops : w.owner.fileOps = w₀.owner.fileOps) : Ended D n k w₀ w' := by
  cases h with
  | alive _ _ h => exact .alive h
  | failed h _ _ hd hrest =>
      refine .failed h (fun hspared => hd ?_) hrest
      rw [hk]
      exact hspared.of_eq hfaults hops

/-- The operation in flight in a phase of the file. -/
inductive InFlight (w : World S P) : Fil → FileOp → Prop
  | opening : InFlight w .opening .openFile
  | writing {chunk : DataChunk} {queue : List DataChunk} :
      w.owner.buffer = chunk :: queue →
      InFlight w .writing (.write chunk.rest w.owner.offsetFile)
  | closing : InFlight w .closing .close

omit [TCPSocket S] in
/-- There is one at most, and that in three phases only. -/
theorem Fil.Holds.inFlight {f : Fil} {w : World S P}
    (h : f.Holds (pipeline w)) {index : Nat} {op : FileOp}
    (hop : w.owner.fileOps[index]? = some op) :
    InFlight w f op ∧ (completed index w).owner.fileOps = [] := by
  have hone : ∀ {op' : FileOp}, w.owner.fileOps = [op'] →
      op' = op ∧ (completed index w).owner.fileOps = [] := by
    intro op' hops
    rw [hops] at hop
    cases index with
    | zero =>
        refine ⟨Option.some.inj hop, ?_⟩
        show w.owner.fileOps.eraseIdx 0 = []
        rw [hops]
        rfl
    | succ i => cases hop
  have hnone : w.owner.fileOps = [] → False := by
    intro hops
    rw [hops] at hop
    cases hop
  have hs := h.stored
  cases f with
  | none => exact (hnone hs.1).elim
  | opening =>
      obtain ⟨rfl, hops⟩ := hone hs.1
      exact ⟨.opening, hops⟩
  | idle => exact (hnone hs.1).elim
  | writing =>
      obtain ⟨chunk, queue, hb, hops', -⟩ := hs
      obtain ⟨rfl, hops⟩ := hone hops'
      exact ⟨.writing hb, hops⟩
  | closing =>
      obtain ⟨rfl, hops⟩ := hone hs.1
      exact ⟨.closing, hops⟩
  | closed => exact (hnone hs.1).elim

/-- What the listeners of the file leave as it is before they go on. -/
structure Beside (w w' : World S P) : Prop where
  sock : w'.sock = w.sock
  line : line w' = line w
  state : w'.owner.status.state = w.owner.status.state
  trace : w'.owner.trace = w.owner.trace
  faults : w'.owner.faults = w.owner.faults
  ops : w'.owner.fileOps = w.owner.fileOps
  calls : w'.owner.fileCalls = w.owner.fileCalls

/-- The world a completion calls `on_write` in. -/
structure Resumed (queue : List DataChunk) (w w' : World S P) : Prop extends
    Beside w w' where
  buffer : w'.owner.buffer = queue
  ready : (pipeline w').Ready

/-- The open completes: the chunks that have been waiting get written. -/
theorem onFileDone_opened {w : World S P}
    (h : Fil.opening.Holds (pipeline w)) (index size : Nat)
    (hops : (completed index w).owner.fileOps = []) :
    w.owner.buffer ≠ [] ∧ ∃ w',
      onFileDone .openFile size (completed index w) = onWrite w' ∧
        Resumed w.owner.buffer (completed index w) w' := by
  obtain ⟨-, hbuf, hrec, hoff, hdisk⟩ := h.stored
  have hfile : w.owner.file = some [.openError, .opened] := h.file
  have htaken : (completed index w).owner.file.taken FileOp.openFile.kind =
      [.opened] := by
    show Handle.taken .fileOpen w.owner.file = _
    rw [hfile]
    rfl
  have hlist : ((w.owner.file.clearKind .fileOpen).clearKind .error).once
      .writeError = some [.writeError] := by
    rw [hfile]
    rfl
  have hcreated : (FileOp.apply size w.owner.disk .openFile) =
      { created := true } := by
    rw [show w.owner.disk = {} from hdisk]
    rfl
  unfold onFileDone
  rw [htaken]
  simp only [List.foldl_cons, List.foldl_nil, runFileListener]
  refine ⟨hbuf, _, rfl, ⟨⟨rfl, rfl, rfl, rfl, rfl, rfl, rfl⟩, rfl, ?_⟩⟩
  refine ⟨hlist, rfl, h.started, hops, ⟨congrArg Disk.created hcreated,
    congrArg Disk.closed hcreated, ?_, ?_⟩, h.calls⟩
  · show w.owner.offsetFile =
      (FileOp.apply size w.owner.disk .openFile).content.length
    rw [hcreated]
    exact hoff
  · show (FileOp.apply size w.owner.disk .openFile).content ++
      unread w.owner.buffer = w.owner.received
    rw [hcreated]
    exact hrec

/-- A write completes: the bytes it has confirmed leave the queue. -/
theorem onFileDone_written {w : World S P} {chunk : DataChunk}
    {queue : List DataChunk} (h : Fil.writing.Holds (pipeline w))
    (index : Nat) {size : Nat} (hb : w.owner.buffer = chunk :: queue)
    (hsize : size ≤ chunk.rest.length)
    (hops : (completed index w).owner.fileOps = []) :
    ∃ w', onFileDone (.write chunk.rest w.owner.offsetFile) size
        (completed index w) = onWrite w' ∧
      Resumed (advanced size chunk queue) (completed index w) w' := by
  obtain ⟨-, -, -, -, hwritten⟩ := h.stored
  have hfile : w.owner.file = some [.writeError, .written] := h.file
  have htaken : (completed index w).owner.file.taken
      (FileOp.write chunk.rest w.owner.offsetFile).kind = [.written] := by
    show Handle.taken .fileWrite w.owner.file = _
    rw [hfile]
    rfl
  have hlist : w.owner.file.clearKind .fileWrite = some [.writeError] := by
    rw [hfile]
    rfl
  have hadv := hwritten.advance hb hsize
  unfold onFileDone
  rw [htaken]
  simp only [List.foldl_cons, List.foldl_nil, runFileListener]
  rw [show (completed index w).owner.buffer = chunk :: queue from hb]
  refine ⟨_, rfl, ⟨⟨rfl, rfl, rfl, rfl, rfl, rfl, rfl⟩, rfl, ?_⟩⟩
  exact ⟨hlist, h.openned, h.started, hops, ⟨hadv.created, hadv.closed,
    hadv.offset, hadv.content⟩, h.calls⟩

omit [TCPSocket S] in
theorem Beside.online {n : Net} {w w' : World S P} (h : Beside w w')
    (hw : Online n w) : Online n w' :=
  ⟨h.line ▸ hw.line, h.state.trans hw.state, h.trace ▸ hw.trace⟩

/-- What is left of the queue, and whether the response is complete, decide how
a completion goes on. -/
theorem Resumed.ended {D : Demands S} {n : Net} {queue : List DataChunk}
    {w w' : World S P} (h : Resumed queue w w') (hw : Online n w)
    (hn : n.bodily = true)
    (hflow : queue = [] → n.flowing = true → TCPSocket.active w.sock = true →
      D.flows w.sock) : Ended D n (preceding queue) w (onWrite w') := by
  have h' : Online n w' := h.toBeside.online hw
  have hended : ∀ {f : Fil}, Wrote D n f w' (onWrite w') →
      Ended D n (preceding queue) w (onWrite w') := fun hwrote =>
    hwrote.ended (congrArg preceding h.buffer) h.faults h.ops
  cases queue with
  | cons chunk queue => exact hended (onWrite_write h' hn h.ready h.buffer)
  | nil =>
      cases hd : n.done with
      | true => exact hended (onWrite_close h' hn hd h.ready h.buffer)
      | false =>
          refine hended (onWrite_rest h' hn hd h.ready h.buffer ?_)
          rw [h.sock]
          exact hflow rfl

/-- The close completes: the file holds everything that was received. -/
theorem onFileDone_closed {w : World S P}
    (h : Fil.closing.Holds (pipeline w)) (index size : Nat)
    (hops : (completed index w).owner.fileOps = []) :
    ∃ w', onFileDone .close size (completed index w) =
        (if !w'.owner.socketConnected then
          updateStatus .done "Downloading complete" w' else w') ∧
      Beside (completed index w) w' ∧ Fil.closed.Holds (pipeline w') := by
  obtain ⟨-, hbuf, hwritten⟩ := h.stored
  have hfile : w.owner.file = some [.closeError, .closed] := h.file
  have htaken : (completed index w).owner.file.taken FileOp.close.kind =
      [.closed] := by
    show Handle.taken .fileClose w.owner.file = _
    rw [hfile]
    rfl
  have hlist : (w.owner.file.clearKind .fileClose).clear = some [] := by
    rw [hfile]
    rfl
  have hcontent : w.owner.disk.content = w.owner.received := by
    have hc := hwritten.content
    rw [hbuf, unread_nil, List.append_nil] at hc
    exact hc
  unfold onFileDone
  rw [htaken]
  simp only [List.foldl_cons, List.foldl_nil, runFileListener]
  exact ⟨{ completed index w with
      owner.disk := FileOp.apply size w.owner.disk .close
      owner.fileOperationStarted := false
      owner.fileOpenned := false
      owner.file := (w.owner.file.clearKind .fileClose).clear }, rfl,
    ⟨rfl, rfl, rfl, rfl, rfl, rfl, rfl⟩, hlist, rfl, rfl,
    ⟨hops, hbuf, hwritten.created, rfl, hcontent, hwritten.offset⟩, h.calls⟩

/-- With the socket gone the download is complete then. -/
theorem onClosed_ended {D : Demands S} {n : Net} {w : World S P}
    (h : Alive D n .closing w) (index size : Nat)
    (hops : (completed index w).owner.fileOps = []) :
    Ended D n 0 (completed index w)
      (onFileDone .close size (completed index w)) := by
  have hd := h.ending rfl
  obtain ⟨w', heq, hbeside, hclosed⟩ :=
    onFileDone_closed h.pipe index size hops
  have h' : Online n w' := hbeside.online
    ⟨h.online.line, h.online.state, h.online.trace⟩
  rw [heq]
  split
  · next hconn =>
      have hshut : n = .shut := by
        have hc : n.connected = false := by
          rw [← show w'.owner.socketConnected = n.connected from
            h'.line.connected]
          simpa using hconn
        cases n <;> first | rfl | (cases hc; done) | cases hd
      subst hshut
      exact .reported rfl (reported_updateStatus _ h'.netSilent h'.line.receiveDone
        hclosed h'.trace)
  · exact .alive (f := .closed) ⟨h', hclosed, fun _ => h.body (by decide),
      fun _ => hd, by simp [Fil.free], by simp⟩

omit [TCPSocket S] in
/-- The write in flight is of the front chunk. -/
theorem Fil.Holds.write_only {w : World S P} (h : Fil.writing.Holds (pipeline w))
    {chunk : DataChunk} {queue : List DataChunk}
    (hb : w.owner.buffer = chunk :: queue) :
    w.owner.fileOps = [.write chunk.rest w.owner.offsetFile] := by
  obtain ⟨chunk', queue', hb', hops, -⟩ := h.stored
  obtain ⟨rfl, -⟩ := List.cons.inj (hb.symm.trans hb')
  exact hops

/-- The completion of a write that empties the queue of a download still
receiving finds a socket that is active and yet does not flow. -/
def Stalls (D : Demands S) (size : Nat) (w : World S P) : Prop :=
  (∃ chunk, w.owner.buffer = [chunk] ∧ chunk.offset + size = chunk.length ∧
    w.owner.fileOps = [.write chunk.rest w.owner.offsetFile]) ∧
    w.owner.receiveDone = false ∧ TCPSocket.active w.sock = true ∧
    ¬ D.flows w.sock

/-- The success of a file operation. -/
theorem Alive.fileDone {D : Demands S} {n : Net} {f : Fil} {w : World S P}
    (h : Alive D n f w) {index size : Nat} {op : FileOp}
    (hop : w.owner.fileOps[index]? = some op) (hsize : size ≤ op.size)
    (hstall : n.flowing = true → ¬ Stalls D size w) :
    Ended D n (FileOp.starts size w op) (completed index w)
      (onFileDone op size (completed index w)) := by
  obtain ⟨hin, hops⟩ := h.pipe.inFlight hop
  have honline : Online n (completed index w) :=
    ⟨h.online.line, h.online.state, h.online.trace⟩
  cases hin with
  | opening =>
      obtain ⟨hne, w', heq, hresumed⟩ :=
        onFileDone_opened h.pipe index size hops
      rw [heq, FileOp.starts_openFile hne]
      exact hresumed.ended honline (h.body nofun) fun hnil => absurd hnil hne
  | @writing chunk queue hb =>
      obtain ⟨w', heq, hresumed⟩ :=
        onFileDone_written h.pipe index hb hsize hops
      rw [heq, FileOp.starts_write hb]
      refine hresumed.ended honline (h.body nofun) fun hleft hfl ha => ?_
      by_contra hno
      refine hstall hfl ⟨⟨chunk, ?_⟩, ?_, ha, hno⟩
      · unfold advanced at hleft
        split at hleft
        · next hend =>
            subst hleft
            exact ⟨hb, hend, h.pipe.write_only hb⟩
        · cases hleft
      · rw [show w.owner.receiveDone = n.done from h.online.line.receiveDone]
        cases n <;> first | rfl | cases hfl
  | closing => exact onClosed_ended h index size hops

omit [TCPSocket S] in
/-- A close that fails is the only one. -/
theorem Fil.Holds.lastClose {f : Fil} {w : World S P}
    (h : f.Holds (pipeline w)) {index : Nat}
    (hop : w.owner.fileOps[index]? = some .close) :
    .closeError ∈ w.owner.file.getD [] ∧ w.owner.disk.closed = false ∧
      FileOp.close ∉ (completed index w).owner.fileOps := by
  obtain ⟨hin, hops⟩ := h.inFlight hop
  cases hin with
  | closing =>
      refine ⟨?_, h.stored.2.2.closed, ?_⟩
      · rw [show w.owner.file = some [.closeError, .closed] from h.file]
        exact List.mem_cons_self
      · rw [hops]
        exact List.not_mem_nil

omit [TCPSocket S] in
/-- Somebody listens for the failure of a file operation; an error of one that
is not the close gets rid of the file. -/
theorem Fil.Holds.listens_error {f : Fil} {w : World S P}
    (h : f.Holds (pipeline w)) {index : Nat} {op : FileOp}
    (hop : w.owner.fileOps[index]? = some op) :
    ∃ l, (completed index w).owner.file.taken .error = [l] ∧
      (op ≠ .close → l ≠ .closeError ∧ ∀ w' : World S P,
        Disposing (completed index w) w' → Spared 0 (completed index w) →
        Disposed w') := by
  obtain ⟨hin, -⟩ := h.inFlight hop
  have hfile : (completed index w).owner.file = f.file := h.file
  have hopen : w.owner.fileOpenned = f.openned := h.openned
  have htaken : ∀ l, f.file.taken .error = [l] →
      (completed index w).owner.file.taken .error = [l] := fun l hl => by
    rw [hfile]
    exact hl
  cases hin with
  | opening =>
      exact ⟨.openError, htaken _ rfl, fun _ => ⟨nofun, fun w' hd _ =>
        hd.never hopen h.stored.2.2.2.2⟩⟩
  | writing hb =>
      obtain ⟨_, _, _, _, hwritten⟩ := h.stored
      exact ⟨.writeError, htaken _ rfl, fun _ => ⟨nofun, fun w' hd hspared =>
        hd.disposed hopen (congrArg Option.isSome hfile) hwritten.created
          hwritten.closed hspared⟩⟩
  | closing => exact ⟨.closeError, htaken _ rfl, fun hne => absurd rfl hne⟩

/-- It is the last the file is asked for, but for the close. -/
theorem Fil.Holds.rested {f : Fil} {w : World S P}
    (h : f.Holds (pipeline w)) {index : Nat} {op : FileOp}
    (hop : w.owner.fileOps[index]? = some op) (err : ErrorEvent) :
    Rested (onFileError err (completed index w)) := by
  obtain ⟨hin, hops⟩ := h.inFlight hop
  have hopen : w.owner.fileOpenned = f.openned := h.openned
  have hcalls : f.Called w.owner.fileCalls := h.calls
  have htaken : ∀ l, f.file.taken .error = [l] →
      (completed index w).owner.file.taken .error = [l] := fun l hl => by
    rw [show (completed index w).owner.file = f.file from h.file]
    exact hl
  cases hin with
  | opening =>
      obtain ⟨_, -, -, -, hd⟩ := onFileError_failing err (htaken _ rfl)
      exact (hd nofun).2.rests (fun _ => hopen) hcalls.spent
  | writing hb =>
      obtain ⟨_, -, -, -, hd⟩ := onFileError_failing err (htaken _ rfl)
      exact (hd nofun).2.rested hcalls (.inl hops)
  | closing => exact onFileError_rests err (htaken _ rfl) hcalls.spent

/-- The failure of a file operation. -/
theorem Alive.fileFailed {D : Demands S} {n : Net} {f : Fil} {w : World S P}
    (h : Alive D n f w) {index : Nat} {op : FileOp}
    (hop : w.owner.fileOps[index]? = some op) (err : ErrorEvent) :
    Failed (onFileError err (completed index w)) ∧
      (op ≠ .close → Spared 0 (completed index w) →
        Disposed (onFileError err (completed index w))) := by
  obtain ⟨l, hl, hdispose⟩ := h.pipe.listens_error hop
  obtain ⟨hf, -, hd⟩ := onFileError_fails err hl h.online.trace
  refine ⟨hf, fun hne hspared => ?_⟩
  obtain ⟨hne', hdisposed⟩ := hdispose hne
  exact hdisposed _ (hd hne').2 hspared

end DownloaderSimple

end EcwidDownloader
