import EcwidDownloader.Aio.TcpBandwidth

/-!
# What a downloader is made of

The status it reports, the response parser and the socket it works with, and the
listeners it registers on its handles. The socket and the parser are template
parameters of the source and stay parameters here: a class says what a
downloader calls.

A handle is a shared pointer. Since a null handle has no listeners, the pointer
and the registry of the handle are one value.
-/

namespace EcwidDownloader

/-- `StatusDownloader::State`. -/
inductive State
  | init | onTheGo | done | failed | redirect
  deriving DecidableEq, Repr

/-- The states after which a downloader is thrown away. -/
def State.final : State → Bool
  | .done | .failed | .redirect => true
  | .init | .onTheGo => false

structure StatusDownloader where
  downloaded : Nat := 0
  size : Nat := 0
  state : State := .init
  stateStr : String := ""
  redirectUri : String := ""
  deriving DecidableEq, Repr

/-- The parts of a URI `Parser::uri_parse` gives that a downloader uses. -/
structure UriParseResult where
  proto : String := ""
  host : String := ""
  port : Nat := 0
  query : String := ""
  deriving DecidableEq, Repr

/-- `ResponseParseResult::State`. -/
inductive ParseState
  | inProgress | done | redirect | error
  deriving DecidableEq, Repr

structure ResponseParseResult where
  state : ParseState
  redirectUri : String := ""
  errStr : String := ""
  contentLength : Nat := 0
  deriving DecidableEq, Repr

/-- The parser of a downloader. `responseParse` gives the parser it leaves
behind, the chunks it passes to `on_data` on the way, in order, and its
result. -/
class HttpParser (P : Type) where
  uriParse : String → Option UriParseResult
  create : P
  responseParse : P → Bytes → P × List Bytes × ResponseParseResult

/-- `aio::TCPSocket`, less its listeners. -/
class TCPSocket (S : Type) where
  connect : String → Nat → S → S
  connect6 : String → Nat → S → S
  read : S → S
  stop : S → S
  write : Bytes → S → S
  shutdown : S → S
  close : S → S
  active : S → Bool

instance : TCPSocket TCPSocketBandwidth where
  connect := TCPSocketBandwidth.connect
  connect6 := TCPSocketBandwidth.connect6
  read := TCPSocketBandwidth.read
  stop := TCPSocketBandwidth.stop
  write := TCPSocketBandwidth.write
  shutdown := TCPSocketBandwidth.shutdown
  close := TCPSocketBandwidth.close
  active := TCPSocketBandwidth.active

/-- `ErrorEvent2str`. -/
def ErrorEvent.toStr (err : ErrorEvent) : String :=
  "Code => " ++ toString err.code ++ " Reason => " ++ err.what

/-- `AIO::addrinfo2IPAddress` of a resolved address. -/
structure IPAddress where
  v6 : Bool := false
  ip : String := ""
  deriving DecidableEq, Repr

/-! ## Listeners -/

/-- The callback `close_handles` is given. -/
inductive Callback
  | reportRedirect
  | reportDone
  deriving DecidableEq, Repr

/-- The listeners `run` registers on the resolver. -/
inductive ResolverListener
  | resolveError
  | resolved
  deriving DecidableEq, Repr

instance : Lib.Listens ResolverListener EventKind where
  kind
    | .resolveError => .error
    | .resolved => .addrInfo

/-- The listeners a downloader registers on its socket, in the order of the
source: `on_resolve`, `on_connect`, `on_write_http_request`, its first
`DataEvent`, `on_read`, `close_handles`. -/
inductive SocketListener
  | connectError (ip : String)
  | connected
  | requestError
  | requestWritten
  | responseError
  | closedEarly
  | firstData
  | endRead
  | nextData
  | shutdownDone (cb : Callback)
  deriving DecidableEq, Repr

instance : Lib.Listens SocketListener EventKind where
  kind
    | .connectError _ | .requestError | .responseError => .error
    | .connected => .connect
    | .requestWritten => .write
    | .closedEarly | .endRead => .endOfStream
    | .firstData | .nextData => .data
    | .shutdownDone _ => .shutdown

/-- The listeners on `net_timer`: a `TimerEvent` differs in its text only. -/
inductive TimerListener
  | runError
  | timeout (text : String)
  deriving DecidableEq, Repr

instance : Lib.Listens TimerListener EventKind where
  kind
    | .runError => .error
    | .timeout _ => .timer

/-- The listeners on `file`: `open_file`, `on_write`, `terminate_handles`. -/
inductive FileListener
  | openError
  | opened
  | writeError
  | written
  | closeError
  | closed
  | unlinkClosed
  deriving DecidableEq, Repr

instance : Lib.Listens FileListener EventKind where
  kind
    | .openError | .writeError | .closeError => .error
    | .opened => .fileOpen
    | .written => .fileWrite
    | .closed | .unlinkClosed => .fileClose

/-- A handle of the downloader: null, or its registered listeners. -/
abbrev Handle (L : Type) := Option (List L)

namespace Handle

/-- `handle.clear()` of a handle that is there. -/
def clear {L : Type} (h : Handle L) : Handle L := h.map fun _ => []

/-- `handle.once(l)`. -/
def once {L : Type} [Lib.Listens L EventKind] (l : L) (h : Handle L) :
    Handle L :=
  h.map (Lib.Emitter.once l)

/-- `handle.clear<E>()`. -/
def clearKind {L : Type} [Lib.Listens L EventKind] (k : EventKind)
    (h : Handle L) : Handle L :=
  h.map (Lib.Emitter.clearKind k)

/-- The listeners an event of the handle runs, in the order it runs them. -/
def taken {L : Type} [Lib.Listens L EventKind] (k : EventKind)
    (h : Handle L) : List L :=
  Lib.Emitter.taken k (h.getD [])

end Handle

/-! ## The file system -/

/-- What a `FileReq` has in flight. -/
inductive FileOp
  | openFile
  | write (data : Bytes) (offset : Nat)
  | close
  deriving DecidableEq, Repr

/-- The output file: whether its creation, its close and its removal have been
done, and the bytes confirmed written. -/
structure Disk where
  created : Bool := false
  content : Bytes := []
  closed : Bool := false
  unlinked : Bool := false
  deriving DecidableEq, Repr

/-- `n` bytes of `data` written at an offset. -/
def Disk.write (data : Bytes) (offset n : Nat) (disk : Disk) : Disk :=
  { disk with
    content := disk.content.take offset ++ data.take n ++
      disk.content.drop (offset + n) }

namespace FileOp

/-- The event the success of an operation is published as. -/
def kind : FileOp → EventKind
  | openFile => .fileOpen
  | write _ _ => .fileWrite
  | close => .fileClose

/-- The most bytes an operation can confirm. -/
def size : FileOp → Nat
  | write data _ => data.length
  | openFile | close => 0

/-- What the success of an operation does to the file, `n` bytes of a write
being confirmed. -/
def apply (n : Nat) (disk : Disk) : FileOp → Disk
  | openFile => { disk with created := true }
  | write data offset => disk.write data offset n
  | close => { disk with closed := true }

end FileOp

/-- A call of the `FileReq` that starts an operation, and what it has in flight
when it is called. -/
structure FileCall where
  op : FileOp
  inFlight : List FileOp := []
  deriving DecidableEq, Repr

/-- The synchronous outcome of the operations started during one event, in the
order they are started on each kind of handle: `some err` for a call that raises
the error itself, `none`, as at the end of the list, for one that starts. -/
structure Faults where
  socket : List (Option ErrorEvent) := []
  timer : List (Option ErrorEvent) := []
  file : List (Option ErrorEvent) := []
  deriving DecidableEq, Repr

/-- What `on_tick` and an observer of `m_status` can see at one moment. -/
structure Report where
  state : State
  queue : List DataChunk := []
  received : Bytes := []
  disk : Disk := {}
  deriving DecidableEq, Repr

/-- A moment of note: `m_status.state` was assigned, or `on_tick->invoke` was
called. -/
inductive Mark
  | assigned (report : Report)
  | invoked (report : Report)
  deriving DecidableEq, Repr

end EcwidDownloader
