import EcwidDownloader.Proofs.DownloaderDisposal

/-!
# The phases of a download

Until its final report a downloader is in a phase of the exchange with the
server and, independently, in a phase of its output file. A phase fixes the
listeners of the handles and the flags, and the phase of the file also says
where the body received so far is: on disk, in the queue, or in the write that
is in flight, and which calls on the file have been made. `Alive` is the
invariant of a download that has not ended.

Two questions about a download are not settled by the phases alone: whether a
socket that nobody holds back hands out data, and whether a complete response
can be left with an idle file. `Demands` makes them parameters of the invariant,
so that each can be asked for, or left open.
-/

namespace EcwidDownloader

open Lib

namespace DownloaderSimple

variable {S P : Type}

/-! ## The exchange -/

/-- The phases of the exchange with the server. While the body is read the flag
says whether the stream has ended. -/
inductive Net
  | resolving
  | connecting (ip : String)
  | requesting
  | waiting
  /-- Inside `on_read`. -/
  | reading (ended : Bool)
  | receiving (ended : Bool)
  | shutting (cb : Callback)
  | shut

/-- The fields of a downloader the exchange goes by. -/
structure Line where
  resolver : Handle ResolverListener
  socket : Handle SocketListener
  netTimer : Handle TimerListener
  parsing : Bool
  receiveDone : Bool
  connected : Bool
  peerEnded : Bool

def line (w : World S P) : Line :=
  { resolver := w.owner.resolver
    socket := w.owner.socket
    netTimer := w.owner.netTimer
    parsing := w.owner.httpParser.isSome
    receiveDone := w.owner.receiveDone
    connected := w.owner.socketConnected
    peerEnded := w.owner.peerEnded }

namespace Net

def resolver : Net → Handle ResolverListener
  | resolving => some [.resolveError, .resolved]
  | _ => none

def socket : Net → Handle SocketListener
  | resolving => some []
  | connecting ip => some [.connectError ip, .connected]
  | requesting => some [.requestError, .requestWritten]
  | waiting => some [.responseError, .closedEarly, .firstData]
  | reading false => some [.responseError, .endRead]
  | reading true => some [.responseError, .nextData]
  | receiving false => some [.responseError, .endRead, .nextData]
  | receiving true => some [.responseError, .nextData, .nextData]
  | shutting cb => some [.shutdownDone cb]
  | shut => none

def Timed : Net → Handle TimerListener → Prop
  | resolving, h => h = some []
  | shutting _, h | shut, h => h = none
  | _, h => ∃ text, h = some [.runError, .timeout text]

def done : Net → Bool
  | shutting .reportDone | shut => true
  | _ => false

def connected : Net → Bool
  | resolving | connecting _ | shut => false
  | _ => true

def Peer : Net → Bool → Prop
  | reading ended, b | receiving ended, b => b = ended
  | _, _ => True

/-- The body can have begun. -/
def bodily : Net → Bool
  | reading _ | receiving _ | shutting _ | shut => true
  | _ => false

/-- A phase a download can be in between events. -/
def settled : Net → Bool
  | reading _ => false
  | _ => true

/-- More of the response can be expected from the socket. -/
def flowing : Net → Bool
  | waiting | reading false | receiving false => true
  | _ => false

structure Holds (n : Net) (l : Line) : Prop where
  resolver : l.resolver = n.resolver
  socket : l.socket = n.socket
  netTimer : n.Timed l.netTimer
  parsing : l.parsing = n.bodily
  receiveDone : l.receiveDone = n.done
  connected : l.connected = n.connected
  peer : n.Peer l.peerEnded

end Net

/-! ## The output file -/

/-- The phases of the output file. -/
inductive Fil
  | none | opening | idle | writing | closing | closed
  deriving DecidableEq

/-- The fields of a downloader on the way from `on_data` to the disk. -/
structure Pipeline where
  file : Handle FileListener
  openned : Bool
  started : Bool
  buffer : List DataChunk
  received : Bytes
  offset : Nat
  ops : List FileOp
  calls : List FileCall
  disk : Disk

def pipeline (w : World S P) : Pipeline :=
  { file := w.owner.file
    openned := w.owner.fileOpenned
    started := w.owner.fileOperationStarted
    buffer := w.owner.buffer
    received := w.owner.received
    offset := w.owner.offsetFile
    ops := w.owner.fileOps
    calls := w.owner.fileCalls
    disk := w.owner.disk }

/-- The file is there, and holds what was received up to the queue. -/
structure Pipeline.Written (p : Pipeline) : Prop where
  created : p.disk.created = true
  closed : p.disk.closed = false
  offset : p.offset = p.disk.content.length
  content : p.disk.content ++ unread p.buffer = p.received

namespace Fil

def file : Fil → Handle FileListener
  | none => .none
  | opening => some [.openError, .opened]
  | idle => some [.writeError]
  | writing => some [.writeError, .written]
  | closing => some [.closeError, .closed]
  | closed => some []

def openned : Fil → Bool
  | idle | writing | closing => true
  | _ => false

def started : Fil → Bool
  | opening | writing | closing => true
  | _ => false

/-- Where the body is, and what is in flight. -/
def Stored : Fil → Pipeline → Prop
  | none, p =>
      p.ops = [] ∧ p.buffer = [] ∧ p.received = [] ∧ p.offset = 0 ∧ p.disk = {}
  | opening, p =>
      p.ops = [.openFile] ∧ p.buffer ≠ [] ∧ unread p.buffer = p.received ∧
        p.offset = 0 ∧ p.disk = {}
  | idle, p => p.ops = [] ∧ p.buffer = [] ∧ p.Written
  | writing, p =>
      ∃ chunk queue, p.buffer = chunk :: queue ∧
        p.ops = [.write chunk.rest p.offset] ∧ p.Written
  | closing, p => p.ops = [.close] ∧ p.buffer = [] ∧ p.Written
  | closed, p =>
      p.ops = [] ∧ p.buffer = [] ∧ p.disk.created = true ∧
        p.disk.closed = true ∧ p.disk.content = p.received ∧
        p.offset = p.disk.content.length

/-- The calls made so far: one at a time, and the close is the last. -/
def Called : Fil → List FileCall → Prop
  | closing, calls | closed, calls => Closes [] calls
  | _, calls => InTurn calls

theorem Called.spent {f : Fil} {calls : List FileCall} (h : f.Called calls) :
    Spent calls := by
  cases f with
  | closing => exact .inr ⟨[], .inl rfl, h⟩
  | closed => exact .inr ⟨[], .inl rfl, h⟩
  | _ => exact .inl h

/-- No operation of the file keeps the socket back. -/
def free : Fil → Bool
  | none | idle => true
  | _ => false

/-- The file is at its end. -/
def ending : Fil → Bool
  | closing | closed => true
  | _ => false

structure Holds (f : Fil) (p : Pipeline) : Prop where
  file : p.file = f.file
  openned : p.openned = f.openned
  started : p.started = f.started
  stored : f.Stored p
  calls : f.Called p.calls

end Fil

/-! ## A download that has not ended -/

def Mark.report : Mark → Report
  | .assigned r | .invoked r => r

/-- No mark so far is of a final state. -/
def Underway (trace : List Mark) : Prop :=
  ∀ m ∈ trace, (Mark.report m).state.final = false

structure Online (n : Net) (w : World S P) : Prop where
  line : n.Holds (line w)
  state : w.owner.status.state = .onTheGo
  trace : Underway w.owner.trace

/-- What an invariant asks of the socket while nothing keeps it back, and
whether a complete response may find its file idle. -/
structure Demands (S : Type) [TCPSocket S] where
  flows : S → Prop
  stuck : Prop
  read : ∀ s, flows (TCPSocket.read s)

/-- The invariant of a download that has not ended. -/
structure Alive [TCPSocket S] (D : Demands S) (n : Net) (f : Fil)
    (w : World S P) : Prop where
  online : Online n w
  pipe : f.Holds (pipeline w)
  body : f ≠ .none → n.bodily = true
  ending : f.ending = true → n.done = true
  flows : n.flowing = true → f.free = true → D.flows w.sock
  stuck : n.done = true → f = .idle → D.stuck

/-- Nothing is asked of the socket or of the end of a response. -/
def anything (S : Type) [TCPSocket S] : Demands S where
  flows _ := True
  stuck := True
  read _ := trivial

theorem Alive.unasked [TCPSocket S] {D : Demands S} {n : Net} {f : Fil}
    {w : World S P} (h : Alive D n f w) :
    Alive (anything S) n f w :=
  ⟨h.online, h.pipe, h.body, h.ending, fun _ _ => trivial, fun _ _ => trivial⟩

/-- A download that has failed: the last two marks say so, and nothing is left
that could be reported. -/
structure Failed (w : World S P) : Prop where
  past : Over w
  state : w.owner.status.state = .failed
  trace : ∃ before r, Underway before ∧ r.state = .failed ∧
    w.owner.trace = before ++ [.assigned r, .invoked r]

theorem Underway.append {t t' : List Mark} (h : Underway t)
    (h' : Underway t') : Underway (t ++ t') := fun m hm =>
  (List.mem_append.mp hm).elim (h m) (h' m)

theorem Failing.failed [TCPSocket S] {w w' : World S P} (h : Failing w w')
    (ht : Underway w.owner.trace) : Failed w' :=
  ⟨h.past, h.state, _, _, ht, rfl, h.trace⟩

/-- An error of a download whose file has not been closed disposes of it. -/
theorem Alive.disposed [TCPSocket S] {D : Demands S} {n : Net} {f : Fil}
    {w w' : World S P} (h : Alive D n f w) (hd : Disposing w w')
    (hclosed : f ≠ .closed) (hspared : Spared 0 w) : Disposed w' := by
  have hfile : w.owner.file = f.file := h.pipe.file
  have hopen : w.owner.fileOpenned = f.openned := h.pipe.openned
  have hs := h.pipe.stored
  have hheld : f.openned = true → f.file.isSome = true →
      (pipeline w).Written → Disposed w' := fun ho hsome hwritten =>
    hd.disposed (hopen.trans ho) (by rw [hfile]; exact hsome) hwritten.created
      hwritten.closed hspared
  cases f with
  | none => exact hd.never hopen hs.2.2.2.2
  | opening => exact hd.never hopen hs.2.2.2.2
  | idle => exact hheld rfl rfl hs.2.2
  | writing =>
      obtain ⟨_, _, _, _, hwritten⟩ := hs
      exact hheld rfl rfl hwritten
  | closing => exact hheld rfl rfl hs.2.2
  | closed => exact absurd rfl hclosed

/-- One that is not being closed gets no call but the close. -/
theorem Alive.rested [TCPSocket S] {D : Demands S} {n : Net} {f : Fil}
    {w w' : World S P} (h : Alive D n f w) (hd : Disposing w w')
    (hclosing : f ≠ .closing) : Rested w' := by
  have hopen : w.owner.fileOpenned = f.openned := h.pipe.openned
  have hcalls : f.Called w.owner.fileCalls := h.pipe.calls
  have hs := h.pipe.stored
  cases f with
  | none => exact hd.rests (fun _ => hopen) hcalls.spent
  | opening => exact hd.rests (fun _ => hopen) hcalls.spent
  | idle => exact hd.rested hcalls (.inl hs.1)
  | writing =>
      obtain ⟨_, _, _, hops, _⟩ := hs
      exact hd.rested hcalls (.inr ⟨_, _, hops⟩)
  | closing => exact absurd rfl hclosing
  | closed => exact hd.rests (fun _ => hopen) hcalls.spent

end DownloaderSimple

end EcwidDownloader
