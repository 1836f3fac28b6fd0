import EcwidDownloader.Proofs.DownloaderPhases

/-!
# The output file of a download

What `on_data`, `on_write` and the completions of the file do to a download that
has not ended. Either it stays alive, in a phase of the file that the call
determines, or the call has failed it; a file operation that fails
synchronously does so in the middle of `on_data`, with more chunks of the same
parse still to come.
-/

namespace EcwidDownloader

open Lib

namespace DownloaderSimple

variable {S P : Type} [TCPSocket S]

/-! ## Calls and their errors -/

omit [TCPSocket S] in
/-- What a call of the file leaves that is refused. -/
def refused (op : FileOp) (w : World S P) : World S P :=
  { w with
    owner.fileCalls := w.owner.fileCalls ++ [⟨op, w.owner.fileOps⟩]
    owner.faults.file := w.owner.faults.file.tail }

theorem fileCall_cases (op : FileOp) (w : World S P) :
    w.owner.faults.file[0]?.join = none ∧ fileCall op w =
        { w with
          owner.fileOps := w.owner.fileOps ++ [op]
          owner.fileCalls := w.owner.fileCalls ++ [⟨op, w.owner.fileOps⟩]
          owner.faults.file := w.owner.faults.file.tail } ∨
      ∃ err, w.owner.faults.file[0]?.join = some err ∧
        fileCall op w = onFileError err (refused op w) := by
  unfold fileCall beginFile
  rw [← List.head?_eq_getElem?]
  cases w.owner.faults.file.head?.join with
  | none => exact .inl ⟨rfl, rfl⟩
  | some err => exact .inr ⟨err, rfl, rfl⟩

theorem socketCall_cases (call : S → S) {w : World S P}
    (hs : w.owner.socket.isSome = true) :
    socketCall call w =
        { w with
          sock := call w.sock
          owner.faults.socket := w.owner.faults.socket.tail } ∨
      ∃ err, socketCall call w =
        onSocketError err
          { w with
            sock := call w.sock
            owner.faults.socket := w.owner.faults.socket.tail } := by
  unfold socketCall beginSocket
  rw [if_pos hs]
  cases w.owner.faults.socket.head?.join with
  | none => exact .inl rfl
  | some err => exact .inr ⟨err, rfl⟩

/-- An error of the file is one of the download when somebody listens. -/
theorem onFileError_failing (err : ErrorEvent) {w : World S P}
    {l : FileListener} (hl : w.owner.file.taken .error = [l]) :
    ∃ w₁ : World S P, w₁.owner.trace = w.owner.trace ∧
      w₁.owner.receiveDone = w.owner.receiveDone ∧
      Failing w₁ (onFileError err w) ∧
      (l ≠ .closeError → w₁.owner.file.isSome = w.owner.file.isSome ∧
        Disposing w (onFileError err w)) := by
  have hk : Listens.kind l = EventKind.error :=
    (Handle.mem_taken.mp (hl ▸ List.mem_singleton_self l)).2
  have hidle := fun text => failing text
    { w with
      owner.file := w.owner.file.clearKind .error
      owner.fileOperationStarted := false }
  have hnull := fun text => failing text
    { w with owner.file := none, owner.fileOperationStarted := false }
  have hheld := Handle.isSome_clearKind w.owner.file .error
  unfold onFileError
  rw [hl]
  cases l with
  | openError =>
      refine ⟨_, ?_, ?_, hidle ("File <" ++ w.owner.fname ++
        "> can`t open! " ++ err.toStr), fun _ =>
        ⟨hheld, (hidle _).disposing.after rfl rfl hheld rfl rfl⟩⟩ <;> rfl
  | writeError =>
      refine ⟨_, ?_, ?_, hidle ("File <" ++ w.owner.fname ++
        "> write error! " ++ err.toStr), fun _ =>
        ⟨hheld, (hidle _).disposing.after rfl rfl hheld rfl rfl⟩⟩ <;> rfl
  | closeError =>
      refine ⟨_, ?_, ?_, hnull ("File <" ++ w.owner.fname ++
        "> close error! " ++ err.toStr), fun hne => absurd rfl hne⟩ <;> rfl
  | opened => cases hk
  | written => cases hk
  | closed => cases hk
  | unlinkClosed => cases hk

theorem onFileError_fails (err : ErrorEvent) {w : World S P}
    {l : FileListener} (hl : w.owner.file.taken .error = [l])
    (ht : Underway w.owner.trace) :
    Failed (onFileError err w) ∧
      (onFileError err w).owner.receiveDone = w.owner.receiveDone ∧
      (l ≠ .closeError →
        (onFileError err w).owner.file.isSome = w.owner.file.isSome ∧
          Disposing w (onFileError err w)) := by
  obtain ⟨w₁, htrace, hr, hf, hfile⟩ := onFileError_failing err hl
  exact ⟨hf.failed (htrace ▸ ht), hf.receiveDone.trans hr, fun hne =>
    ⟨hf.file.trans (hfile hne).1, (hfile hne).2⟩⟩

/-- An error of the close gives the file up. -/
theorem onFileError_rests (err : ErrorEvent) {w : World S P}
    (hl : w.owner.file.taken .error = [.closeError])
    (hcalls : Spent w.owner.fileCalls) : Rested (onFileError err w) := by
  unfold onFileError
  rw [hl]
  have hnull := fun text => failing text
    { w with owner.file := none, owner.fileOperationStarted := false }
  exact (hnull _).disposing.rests (fun h => absurd h Bool.false_ne_true) hcalls

/-- The socket has an error listener in every phase but the first and the last
two. -/
theorem Online.onSocketError {n : Net} {w : World S P} (h : Online n w)
    (err : ErrorEvent) :
    n.done = false ∧ Failing w (onSocketError err w) ∨
      onSocketError err w = w := by
  have hs : w.owner.socket = n.socket := h.line.socket
  have herror : ∀ l ls, n.socket = some (l :: ls) →
      Handle.taken .error n.socket = [l] →
      (∃ text, SocketListener.errorText err l = some text) →
      Failing w (DownloaderSimple.onSocketError err w) := by
    rintro l ls hn hl ⟨text, htext⟩
    unfold DownloaderSimple.onSocketError
    rw [hs, hl]
    simp only [List.foldl_cons, List.foldl_nil, htext]
    have hf := failing text
      { w with owner.socket := Handle.clearKind .error n.socket }
    exact ⟨hf.past, hf.state, hf.trace, hf.receiveDone, hf.file,
      hf.httpParser, hf.resolver, hf.started,
      fun _ => hf.sock (by rw [hn]; rfl),
      hf.disposing.after rfl rfl rfl rfl rfl⟩
  have hnone : Handle.taken .error n.socket = [] →
      Handle.clearKind .error n.socket = n.socket →
      DownloaderSimple.onSocketError err w = w := by
    intro hl hc
    unfold DownloaderSimple.onSocketError
    rw [hs, hl, hc, ← hs]
    rfl
  cases n with
  | resolving => exact .inr (hnone rfl rfl)
  | connecting ip => exact .inl ⟨rfl, herror _ _ rfl rfl ⟨_, rfl⟩⟩
  | requesting => exact .inl ⟨rfl, herror _ _ rfl rfl ⟨_, rfl⟩⟩
  | waiting => exact .inl ⟨rfl, herror _ _ rfl rfl ⟨_, rfl⟩⟩
  | reading ended =>
      cases ended <;> exact .inl ⟨rfl, herror _ _ rfl rfl ⟨_, rfl⟩⟩
  | receiving ended =>
      cases ended <;> exact .inl ⟨rfl, herror _ _ rfl rfl ⟨_, rfl⟩⟩
  | shutting cb => exact .inr (hnone rfl rfl)
  | shut => exact .inr (hnone rfl rfl)

/-- A file operation starts, or its error fails the download. -/
theorem fileCall_begun (op : FileOp) {w : World S P} {l : FileListener}
    (hl : w.owner.file.taken .error = [l]) (ht : Underway w.owner.trace) :
    w.owner.faults.file[0]?.join = none ∧ fileCall op w =
        { w with
          owner.fileOps := w.owner.fileOps ++ [op]
          owner.fileCalls := w.owner.fileCalls ++ [⟨op, w.owner.fileOps⟩]
          owner.faults.file := w.owner.faults.file.tail } ∨
      Failed (fileCall op w) ∧
        (fileCall op w).owner.receiveDone = w.owner.receiveDone ∧
        w.owner.faults.file[0]?.join ≠ none ∧
        (l ≠ .closeError →
          (fileCall op w).owner.file.isSome = w.owner.file.isSome ∧
            Disposing (refused op w) (fileCall op w)) := by
  rcases fileCall_cases op w with hc | ⟨err, hfault, hc⟩
  · exact .inl hc
  · rw [hc]
    obtain ⟨hf, hr, hfile⟩ := onFileError_fails err
      (w := refused op w) hl ht
    exact .inr ⟨hf, hr, by rw [hfault]; exact nofun, hfile⟩

/-! ## Writing -/

/-- The file is open and listens for write errors, and nothing is in flight. -/
structure Pipeline.Ready (p : Pipeline) : Prop where
  file : p.file = some [.writeError]
  openned : p.openned = true
  started : p.started = true
  ops : p.ops = []
  written : p.Written
  calls : InTurn p.calls

/-- The file operations `on_write` starts before the close an error calls
for. -/
def preceding (queue : List DataChunk) : Nat := if queue.isEmpty then 0 else 1

/-- How `on_write` can leave a download: alive in a phase of the file, or failed
with the file still at hand. -/
inductive Wrote (D : Demands S) (n : Net) (f : Fil) (w w' : World S P) : Prop
  | alive : w'.owner.faults.timer = w.owner.faults.timer →
      (w.owner.buffer ≠ [] → w.owner.faults.file[0]?.join = none ∧
        w'.owner.faults.file = w.owner.faults.file.drop 1) →
      Alive D n f w' → Wrote D n f w w'
  | failed : Failed w' → w'.owner.receiveDone = w.owner.receiveDone →
      (w.owner.buffer ≠ [] → w'.owner.file.isSome ∧
        w.owner.faults.file[0]?.join ≠ none) →
      (Spared (preceding w.owner.buffer) w → Disposed w') → Rested w' →
      Wrote D n f w w'

/-- How a file operation `on_write` starts can begin, whatever the exchange with
the server has come to. -/
inductive Writes (f : Fil) (w w' : World S P) : Prop
  | begun : line w' = line w →
      w'.owner.status.state = w.owner.status.state →
      w'.owner.trace = w.owner.trace →
      w.owner.faults.file[0]?.join = none →
      w'.owner.faults = { w.owner.faults with
        file := w.owner.faults.file.tail } →
      f.Holds (pipeline w') → Writes f w w'
  | failed {w₁ : World S P} : w₁.owner.trace = w.owner.trace →
      w₁.owner.receiveDone = w.owner.receiveDone → Failing w₁ w' →
      (w.owner.buffer ≠ [] → w'.owner.file.isSome ∧
        w.owner.faults.file[0]?.join ≠ none) →
      (Spared (preceding w.owner.buffer) w → Disposed w') → Rested w' →
      Writes f w w'

/-- With something in the queue it is a write of the front chunk. -/
theorem onWrite_chunk {w : World S P} {chunk : DataChunk}
    {queue : List DataChunk} (hp : (pipeline w).Ready)
    (hb : w.owner.buffer = chunk :: queue) :
    Writes .writing w (onWrite w) := by
  have hlist : (onceFile .written w).owner.file =
      some [.writeError, .written] := by
    show w.owner.file.once .written = _
    rw [show w.owner.file = some [.writeError] from hp.file]
    rfl
  unfold onWrite
  rw [hb]
  simp only []
  rcases fileCall_cases (.write chunk.rest (onceFile .written w).owner.offsetFile)
    (onceFile .written w) with ⟨hno, hc⟩ | ⟨err, hfault, hc⟩
  · rw [hc]
    refine .begun rfl rfl rfl hno rfl ⟨hlist, hp.openned, hp.started,
      ⟨chunk, queue, hb, ?_, ⟨hp.written.created, hp.written.closed,
        hp.written.offset, hp.written.content⟩⟩,
      hp.calls.snoc (by simp) hp.ops⟩
    show w.owner.fileOps ++ [_] = _
    rw [show w.owner.fileOps = [] from hp.ops]
    rfl
  · rw [hc]
    obtain ⟨w₁, htrace, hr, hf, hfile⟩ := onFileError_failing err
      (w := refused (.write chunk.rest (onceFile .written w).owner.offsetFile)
        (onceFile .written w))
      (l := .writeError) (by
        show Handle.taken .error (onceFile .written w).owner.file = _
        rw [hlist]
        rfl)
    obtain ⟨hsome, hdisposing⟩ := hfile nofun
    have hheld : w₁.owner.file.isSome = true :=
      hsome.trans (congrArg Option.isSome hlist)
    have hrefused : w.owner.faults.file[0]?.join ≠ none := by
      rw [show w.owner.faults.file[0]?.join = some err from hfault]
      exact nofun
    refine .failed htrace hr hf (fun _ => ⟨hf.file.trans hheld, hrefused⟩)
      (fun hspared => ?_)
      (hdisposing.rested (hp.calls.snoc (by simp) hp.ops) (.inl hp.ops))
    refine hdisposing.disposed hp.openned (congrArg Option.isSome hlist)
      hp.written.created hp.written.closed ?_
    rw [hb] at hspared
    exact hspared.imp_left fun hno =>
      (congrArg Option.join List.getElem?_tail).trans hno

/-- With an empty queue and the response complete it is the close. -/
theorem onWrite_last {w : World S P} (hp : (pipeline w).Ready)
    (hb : w.owner.buffer = []) (hr : w.owner.receiveDone = true) :
    Writes .closing w (onWrite w) := by
  have hlist : (onceFile .closed (onceFile .closeError
      { w with owner.file := w.owner.file.clear })).owner.file =
        some [.closeError, .closed] := by
    show Handle.once .closed (Handle.once .closeError w.owner.file.clear) = _
    rw [show w.owner.file = some [.writeError] from hp.file]
    rfl
  unfold onWrite
  rw [hb]
  simp only []
  rw [if_pos hr]
  rcases fileCall_cases .close (onceFile .closed (onceFile .closeError
    { w with owner.file := w.owner.file.clear })) with
    ⟨hno, hc⟩ | ⟨err, hfault, hc⟩
  · rw [hc]
    refine .begun rfl rfl rfl hno rfl ⟨hlist, hp.openned, hp.started, ?_, ?_⟩
    · refine ⟨?_, hb, ⟨hp.written.created, hp.written.closed,
        hp.written.offset, hp.written.content⟩⟩
      show w.owner.fileOps ++ [_] = _
      rw [show w.owner.fileOps = [] from hp.ops]
      rfl
    · show Closes [] (w.owner.fileCalls ++ [⟨.close, w.owner.fileOps⟩])
      rw [show w.owner.fileOps = [] from hp.ops]
      exact hp.calls.closes []
  · rw [hc]
    have herror : (refused .close (onceFile .closed (onceFile .closeError
        { w with owner.file := w.owner.file.clear }))).owner.file.taken .error =
          [.closeError] := by
      show Handle.taken .error (onceFile .closed (onceFile .closeError
        { w with owner.file := w.owner.file.clear })).owner.file = _
      rw [hlist]
      rfl
    obtain ⟨w₁, htrace, hdone, hf, -⟩ := onFileError_failing err herror
    refine .failed htrace hdone hf (fun hne => absurd hb hne)
      (fun hspared => ?_) (onFileError_rests err herror
        (.inr ⟨_, .inl hp.ops, hp.calls.closes _⟩))
    rw [hb] at hspared
    rcases hspared with hno | hclosing
    · exact absurd (hfault.symm.trans hno) nofun
    · rw [show w.owner.fileOps = [] from hp.ops] at hclosing
      exact absurd hclosing List.not_mem_nil

theorem Writes.wrote {D : Demands S} {n : Net} {f : Fil} {w w' : World S P}
    (h : Writes f w w') (hw : Online n w) (hn : n.bodily = true)
    (hend : f.ending = true → n.done = true) (hbusy : f.free = false) :
    Wrote D n f w w' := by
  cases h with
  | begun hline hstate htrace hno hfaults hpipe =>
      refine .alive (by rw [hfaults])
        (fun _ => ⟨hno, by rw [hfaults, List.drop_one]⟩)
        ⟨⟨hline ▸ hw.line, hstate.trans hw.state, htrace ▸ hw.trace⟩, hpipe,
          fun _ => hn, hend, fun _ hfree => ?_, fun _ hf => ?_⟩
      · exact absurd (hbusy.symm.trans hfree) Bool.false_ne_true
      · rw [hf] at hbusy
        cases hbusy
  | failed htrace hr hf hsome hd hrest =>
      exact .failed (hf.failed (htrace ▸ hw.trace)) (hf.receiveDone.trans hr)
        hsome hd hrest

theorem onWrite_write {D : Demands S} {n : Net} {w : World S P}
    {chunk : DataChunk} {queue : List DataChunk} (h : Online n w)
    (hn : n.bodily = true) (hp : (pipeline w).Ready)
    (hb : w.owner.buffer = chunk :: queue) :
    Wrote D n .writing w (onWrite w) :=
  (onWrite_chunk hp hb).wrote h hn nofun rfl

theorem onWrite_close {D : Demands S} {n : Net} {w : World S P}
    (h : Online n w) (hn : n.bodily = true) (hd : n.done = true)
    (hp : (pipeline w).Ready) (hb : w.owner.buffer = []) :
    Wrote D n .closing w (onWrite w) :=
  (onWrite_last hp hb (h.line.receiveDone.trans hd)).wrote h hn (fun _ => hd)
    rfl

omit [TCPSocket S] in
/-- The socket is there as long as the body is received. -/
theorem Online.socket_isSome {n : Net} {w : World S P} (h : Online n w)
    (hd : n.done = false) : w.owner.socket.isSome = true := by
  rw [show w.owner.socket = n.socket from h.line.socket]
  cases n with
  | shut => cases hd
  | reading ended => cases ended <;> rfl
  | receiving ended => cases ended <;> rfl
  | _ => rfl

/-- With nothing left to write, and more to be received, the socket is resumed
if it is not active. -/
theorem onWrite_rest {D : Demands S} {n : Net} {w : World S P}
    (h : Online n w) (hn : n.bodily = true) (hd : n.done = false)
    (hp : (pipeline w).Ready) (hb : w.owner.buffer = [])
    (hflow : n.flowing = true → TCPSocket.active w.sock = true →
      D.flows w.sock) :
    Wrote D n .idle w (onWrite w) := by
  have hidle : ∀ w' : World S P, Online n w' →
      pipeline w' = { pipeline w with started := false } →
      (n.flowing = true → D.flows w'.sock) → Alive D n .idle w' := by
    intro w' h' hpipe hfl
    refine ⟨h', ?_, fun _ => hn, nofun, fun hn' _ => hfl hn',
      fun hn' => absurd (hd.symm.trans hn') Bool.false_ne_true⟩
    rw [hpipe]
    exact ⟨hp.file, hp.openned, rfl, ⟨hp.ops, hb, ⟨hp.written.created,
      hp.written.closed, hp.written.offset, hp.written.content⟩⟩, hp.calls⟩
  have hsome := h.socket_isSome hd
  unfold onWrite
  rw [hb]
  simp only []
  rw [if_neg (by
    rw [show w.owner.receiveDone = n.done from h.line.receiveDone, hd]
    exact Bool.false_ne_true), if_pos hsome]
  cases ha : TCPSocket.active w.sock with
  | true =>
      rw [if_neg (by exact Bool.false_ne_true)]
      exact .alive rfl (fun hne => absurd hb hne)
        (hidle _ ⟨h.line, h.state, h.trace⟩ rfl fun hn' => hflow hn' ha)
  | false =>
      rw [if_pos (by rfl)]
      rcases socketCall_cases TCPSocket.read
        (w := { w with owner.fileOperationStarted := false }) hsome with
        hc | ⟨err, hc⟩
      · rw [hc]
        exact .alive rfl (fun hne => absurd hb hne)
          (hidle _ ⟨h.line, h.state, h.trace⟩ rfl fun _ => D.read _)
      · rw [hc]
        have hread : Online n
            { w with
              sock := TCPSocket.read w.sock
              owner.fileOperationStarted := false
              owner.faults.socket := w.owner.faults.socket.tail } :=
          ⟨h.line, h.state, h.trace⟩
        rcases hread.onSocketError err with ⟨-, hf⟩ | hsame
        · refine .failed (hf.failed h.trace) hf.receiveDone
            (fun hne => absurd hb hne) (fun hspared => ?_)
            (hf.disposing.rested hp.calls (.inl hp.ops))
          rw [hb] at hspared
          exact hf.disposing.disposed hp.openned
            (congrArg Option.isSome hp.file) hp.written.created
            hp.written.closed hspared
        · rw [hsame]
          exact .alive rfl (fun hne => absurd hb hne)
            (hidle _ hread rfl fun _ => D.read _)

/-! ## Data -/

omit [TCPSocket S] in
theorem Failed.passing {w w' : World S P} (h : Failed w) (hp : Passing w w') :
    Failed w' := by
  obtain ⟨before, r, hb, hr, ht⟩ := h.trace
  exact ⟨hp.past, hp.unseen.state.trans h.state, before, r, hb, hr,
    hp.unseen.trace.trans ht⟩

/-- The phase of the file once a chunk has been queued. -/
def Fil.fed : Fil → Fil
  | none | opening => opening
  | _ => writing

/-- The phase of the file after the chunks of one parse. -/
def Fil.after (chunks : List Bytes) (f : Fil) : Fil :=
  if chunks = [] then f else f.fed

/-- The file operations a chunk starts. -/
def Fil.starts (f : Fil) : Nat := if f.started then 0 else 1

/-- The file operations the chunks of one parse start. -/
def Fil.startsFor (chunks : List Bytes) (f : Fil) : Nat :=
  if chunks = [] then 0 else f.starts

theorem Fil.fed_fed (f : Fil) : f.fed.fed = f.fed := by cases f <;> rfl

theorem Fil.startsFor_fed (chunks : List Bytes) (f : Fil) :
    f.fed.startsFor chunks = 0 := by
  unfold Fil.startsFor
  split
  · rfl
  · cases f <;> rfl

/-- How the chunks of a parse can leave a download, `k` file operations having
been started. -/
inductive Fed (D : Demands S) (n : Net) (f : Fil) (k : Nat) (w w' : World S P) :
    Prop
  | alive : w'.owner.faults.timer = w.owner.faults.timer →
      w'.owner.faults.file = w.owner.faults.file.drop k →
      (k = 1 → w.owner.faults.file[0]?.join = none) → Alive D n f w' →
      Fed D n f k w w'
  | failed : k = 1 → Failed w' → w'.owner.receiveDone = false →
      w'.owner.file.isSome → (Spared 1 w → Disposed w') →
      w.owner.faults.file[0]?.join ≠ none →
      (f = .opening → w'.owner.fileOpenned = false) → Rested w' →
      Fed D n f k w w'

theorem Fed.weaken {D : Demands S} {n : Net} {f : Fil} {k : Nat}
    {w₁ w₂ w' : World S P} (h : Fed D n f k w₂ w')
    (hfaults : w₂.owner.faults = w₁.owner.faults)
    (hops : w₂.owner.fileOps = w₁.owner.fileOps) :
    Fed D n f k w₁ w' := by
  cases h with
  | alive htimer hfile hno ha =>
      exact .alive (by rw [htimer, hfaults]) (by rw [hfile, hfaults])
        (fun hk => by rw [← hfaults]; exact hno hk) ha
  | failed hk hf hr hs hd hrefused hopen hrest =>
      exact .failed hk hf hr hs (fun hspared => hd (hspared.of_eq hfaults hops))
        (hfaults ▸ hrefused) hopen hrest

theorem enqueue_eq {w : World S P} (data : Bytes)
    (hs : w.owner.socket.isSome = true) :
    ∃ sock, enqueue data w =
      { w with
        sock := sock
        owner.status.downloaded := w.owner.status.downloaded + data.length
        owner.buffer := w.owner.buffer ++ [{ data := data }]
        owner.received := w.owner.received ++ data } := by
  obtain ⟨sock, misused, heq, hmisused⟩ := enqueue_shape data w
  refine ⟨sock, ?_⟩
  rw [heq, hmisused hs]

omit [TCPSocket S] in
/-- A chunk behind everything unread keeps the file up with what was
received. -/
theorem Pipeline.Written.enqueue {p : Pipeline} (h : p.Written)
    (data : Bytes) :
    Pipeline.Written
      { p with
        buffer := p.buffer ++ [{ data := data }]
        received := p.received ++ data } := by
  refine ⟨h.created, h.closed, h.offset, ?_⟩
  show p.disk.content ++ unread (p.buffer ++ [{ data := data }]) = _
  rw [unread_emplace, ← List.append_assoc, h.content]

theorem openFile_fed {D : Demands S} {n : Net} {w : World S P}
    (h : Online n w) (hn : n.bodily = true) (hd : n.done = false)
    (hopen : w.owner.fileOpenned = false) (hops : w.owner.fileOps = [])
    (hb : w.owner.buffer ≠ []) (hr : unread w.owner.buffer = w.owner.received)
    (hoff : w.owner.offsetFile = 0) (hdisk : w.owner.disk = {})
    (hcalls : InTurn w.owner.fileCalls) :
    Fed D n .opening 1 w (openFile w) := by
  unfold openFile
  simp only []
  rcases fileCall_begun .openFile
    (w := giveName { onceFile .opened (onceFile .openError
      { w with owner.file := some [] }) with
      owner.fileOperationStarted := true })
    (l := .openError) rfl h.trace with ⟨hno, hc⟩ | ⟨hf, hrd, hrefused, hfile⟩
  · rw [hc]
    refine .alive rfl List.drop_one.symm (fun _ => hno)
      ⟨⟨h.line, h.state, h.trace⟩, ⟨rfl, hopen, rfl,
        ⟨?_, hb, hr, hoff, hdisk⟩, hcalls.snoc (by simp) hops⟩,
        fun _ => hn, nofun, nofun, nofun⟩
    show w.owner.fileOps ++ [_] = _
    rw [hops]
    rfl
  · obtain ⟨hsome, hdisposing⟩ := hfile nofun
    exact .failed rfl hf (hrd.trans (h.line.receiveDone.trans hd)) hsome
      (fun _ => hdisposing.never hopen hdisk) hrefused
      (fun _ => hdisposing.openned.trans hopen)
      (hdisposing.rests (fun _ => hopen)
        (.inl (hcalls.snoc (by simp) hops)))

/-- The first chunk opens the file. -/
theorem feed_none {D : Demands S} {n : Net} {w : World S P}
    (hfile : w.owner.file = none) (h : Fed D n .opening 1 w (openFile w)) :
    Fed D n .opening 1 w (feed w) := by
  unfold feed
  rw [if_pos (by rw [hfile]; rfl)]
  have hidle : ∀ w' : World S P, w'.owner.fileOpenned = false →
      writeIfIdle w' = w' := by
    intro w' hopen'
    unfold writeIfIdle
    rw [hopen']
    exact if_neg Bool.false_ne_true
  cases h with
  | alive htimer hfaults hno ha =>
      rw [hidle _ ha.pipe.openned]
      exact .alive htimer hfaults hno ha
  | failed hk hf hr hs hd hrefused hopen hrest =>
      rw [hidle _ (hopen rfl)]
      exact .failed hk hf hr hs hd hrefused hopen hrest

/-- A chunk for a file that is not idle waits in the queue. -/
theorem feed_busy {D : Demands S} {n : Net} {f : Fil} {w : World S P}
    (h : Alive D n f w) (hfile : f.file.isSome = true)
    (hbusy : f.openned = false ∨ f.started = true) :
    Fed D n f 0 w (feed w) := by
  have hsame : feed w = w := by
    unfold feed
    rw [if_neg (by
      rw [show w.owner.file = f.file from h.pipe.file]
      simp [Option.isSome_iff_ne_none.mp hfile])]
    unfold writeIfIdle
    rw [show w.owner.fileOpenned = f.openned from h.pipe.openned,
      show w.owner.fileOperationStarted = f.started from h.pipe.started]
    exact if_neg (by rcases hbusy with hb | hb <;> rw [hb] <;> simp)
  rw [hsame]
  exact .alive rfl rfl nofun h

/-- A chunk for an idle file is written. -/
theorem feed_idle {D : Demands S} {n : Net} {w : World S P}
    {chunk : DataChunk} {queue : List DataChunk} (h : Online n w)
    (hn : n.bodily = true) (hd : n.done = false)
    (hp : Pipeline.Ready { pipeline w with started := true })
    (hs : w.owner.fileOperationStarted = false)
    (hb : w.owner.buffer = chunk :: queue) :
    Fed D n .writing 1 w (feed w) := by
  have hfile : w.owner.file = some [.writeError] := hp.file
  have hopen : w.owner.fileOpenned = true := hp.openned
  unfold feed
  rw [if_neg (by rw [hfile]; exact Bool.false_ne_true)]
  unfold writeIfIdle
  rw [if_pos (by rw [hopen, hs]; rfl)]
  have hwrote := onWrite_write (D := D)
    (w := { w with owner.fileOperationStarted := true })
    ⟨h.line, h.state, h.trace⟩ hn hp hb
  have hne : w.owner.buffer ≠ [] := ne_of_eq_of_ne hb (List.cons_ne_nil _ _)
  cases hwrote with
  | alive htimer hfaults ha =>
      exact .alive htimer (hfaults hne).2 (fun _ => (hfaults hne).1) ha
  | failed hf hr hsome hdisposed hrest =>
      refine .failed rfl hf (hr.trans (h.line.receiveDone.trans hd))
        (hsome hne).1 (fun hspared => hdisposed ?_) (hsome hne).2 nofun hrest
      rw [show preceding _ = 1 from if_neg (by simpa using hne)]
      exact hspared

/-- One chunk. -/
theorem onData_fed {D : Demands S} {n : Net} {f : Fil} {w : World S P}
    (h : Alive D n f w) (hn : n.bodily = true) (hd : n.done = false)
    (data : Bytes) : Fed D n f.fed f.starts w (onData data w) := by
  obtain ⟨sock, henq⟩ := enqueue_eq data (h.online.socket_isSome hd)
  have hfaults : (enqueue data w).owner.faults = w.owner.faults := by rw [henq]
  have hops : (enqueue data w).owner.fileOps = w.owner.fileOps := by rw [henq]
  unfold onData
  refine Fed.weaken ?_ hfaults hops
  rw [henq]
  have honline := h.online
  have hfile : w.owner.file = f.file := h.pipe.file
  have hopen : w.owner.fileOpenned = f.openned := h.pipe.openned
  have hstart : w.owner.fileOperationStarted = f.started := h.pipe.started
  have hb : w.owner.buffer ++ [{ data := data }] ≠ [] :=
    List.append_ne_nil_of_right_ne_nil _ (List.cons_ne_nil _ _)
  cases f with
  | none =>
      obtain ⟨hops, hbuf, hrec, hoff, hdisk⟩ := h.pipe.stored
      refine feed_none hfile (openFile_fed
        ⟨honline.line, honline.state, honline.trace⟩ hn hd hopen hops hb ?_
        hoff hdisk h.pipe.calls)
      show unread (w.owner.buffer ++ [{ data := data }]) =
        w.owner.received ++ data
      rw [unread_emplace, show w.owner.buffer = [] from hbuf,
        show w.owner.received = [] from hrec]
      rfl
  | opening =>
      obtain ⟨hops, hbuf, hrec, hoff, hdisk⟩ := h.pipe.stored
      refine feed_busy ⟨⟨honline.line, honline.state, honline.trace⟩,
        ⟨hfile, hopen, hstart, ⟨hops, hb, ?_, hoff, hdisk⟩, h.pipe.calls⟩,
        fun _ => hn, nofun, nofun, nofun⟩ rfl (.inl rfl)
      show unread (w.owner.buffer ++ [{ data := data }]) = _
      rw [unread_emplace]
      exact congrArg (· ++ data) hrec
  | idle =>
      obtain ⟨hops, hbuf, hwritten⟩ := h.pipe.stored
      have hqueue : w.owner.buffer ++ [{ data := data }] =
          { data := data } :: ([] : List DataChunk) := by
        rw [show w.owner.buffer = [] from hbuf]
        rfl
      exact feed_idle ⟨honline.line, honline.state, honline.trace⟩ hn hd
        ⟨hfile, hopen, rfl, hops, ⟨hwritten.created, hwritten.closed,
          hwritten.offset, (hwritten.enqueue data).content⟩, h.pipe.calls⟩
        hstart hqueue
  | writing =>
      obtain ⟨chunk, queue, hbuf, hops, hwritten⟩ := h.pipe.stored
      refine feed_busy ⟨⟨honline.line, honline.state, honline.trace⟩,
        ⟨hfile, hopen, hstart, ⟨chunk, queue ++ [{ data := data }], ?_, hops,
          hwritten.enqueue data⟩, h.pipe.calls⟩, fun _ => hn, nofun, nofun,
        nofun⟩ rfl (.inr rfl)
      show w.owner.buffer ++ [_] = _
      rw [show w.owner.buffer = chunk :: queue from hbuf]
      rfl
  | closing => exact absurd ((h.ending rfl).symm.trans hd) nofun
  | closed => exact absurd ((h.ending rfl).symm.trans hd) nofun

/-- The chunks that follow a failure inside a parse are queued unseen. -/
theorem Failed.onDatas : ∀ (chunks : List Bytes) {w : World S P}, Failed w →
    w.owner.receiveDone = false → w.owner.file.isSome = true →
    Failed (chunks.foldl (fun w chunk => onData chunk w) w) ∧
      (Disposed w → Disposed (chunks.foldl (fun w chunk => onData chunk w) w))
  | [], _, h, _, _ => ⟨h, id⟩
  | chunk :: chunks, w, h, hr, hs => by
      have hp := h.past.onData hr hs chunk
      have hd := fun hd => h.past.disposedData hr hs hd chunk
      rw [List.foldl_cons]
      obtain ⟨hf, hrest⟩ := onDatas chunks (h.passing hp)
        (hp.unseen.receiveDone.trans hr) (hp.unseen.file.trans hs)
      exact ⟨hf, hrest ∘ hd⟩

/-- The write the first of several chunks calls for is refused. -/
def Fil.Overruns (f : Fil) (chunks : List Bytes) (w : World S P) : Prop :=
  f = .idle ∧ 2 ≤ chunks.length ∧ w.owner.faults.file[0]?.join ≠ .none

/-- The chunks of one parse. Only the first of them can find the file in need of
an operation. -/
theorem onDatas_fed {D : Demands S} {n : Net} : ∀ (chunks : List Bytes)
    {f : Fil} {w : World S P}, Alive D n f w → n.bodily = true →
    n.done = false →
    (Alive D n (f.after chunks)
        (chunks.foldl (fun w chunk => onData chunk w) w) ∧
      (chunks.foldl (fun w chunk => onData chunk w) w).owner.faults.timer =
        w.owner.faults.timer ∧
      (chunks.foldl (fun w chunk => onData chunk w) w).owner.faults.file =
        w.owner.faults.file.drop (f.startsFor chunks) ∧
      (f.startsFor chunks = 1 → w.owner.faults.file[0]?.join = none)) ∨
    (f.startsFor chunks = 1 ∧
      Failed (chunks.foldl (fun w chunk => onData chunk w) w) ∧
      (Spared 1 w →
        Disposed (chunks.foldl (fun w chunk => onData chunk w) w)) ∧
      (¬ f.Overruns chunks w →
        Rested (chunks.foldl (fun w chunk => onData chunk w) w)))
  | [], f, w, h, _, _ => .inl ⟨h, rfl, rfl, nofun⟩
  | chunk :: chunks, f, w, h, hn, hd => by
      have hafter : f.fed.after chunks = f.after (chunk :: chunks) := by
        unfold Fil.after
        split
        · rfl
        · exact f.fed_fed
      have hstarts : f.startsFor (chunk :: chunks) = f.starts := rfl
      rw [List.foldl_cons, hstarts]
      cases onData_fed h hn hd chunk with
      | alive htimer hfaults hno ha =>
          rcases onDatas_fed chunks ha hn hd with
            ⟨ha', htimer', hfaults', -⟩ | ⟨hk, -⟩
          · rw [f.startsFor_fed, List.drop_zero, hfaults] at hfaults'
            exact .inl ⟨hafter ▸ ha', htimer'.trans htimer, hfaults', hno⟩
          · rw [f.startsFor_fed] at hk
            cases hk
      | failed hk hf hr hs hdisposed hrefused hopen hrest =>
          obtain ⟨hf', hkept⟩ := hf.onDatas chunks hr hs
          refine .inr ⟨hk, hf', hkept ∘ hdisposed, fun hno => ?_⟩
          cases f with
          | none => exact hrest.onDatas chunks (hopen rfl) hs
          | idle =>
              cases chunks with
              | nil => exact hrest
              | cons => exact absurd ⟨rfl, by simp, hrefused⟩ hno
          | opening => cases hk
          | writing => cases hk
          | closing => cases hk
          | closed => exact absurd ((h.ending rfl).symm.trans hd) nofun

end DownloaderSimple

end EcwidDownloader
