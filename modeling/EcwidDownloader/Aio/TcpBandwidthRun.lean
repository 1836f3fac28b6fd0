import EcwidDownloader.Lib.Run
import EcwidDownloader.Aio.TcpBandwidth

/-!
# A throttled socket between its inner socket, its controller and its owner

The surroundings of one `TCPSocketBandwidth` as events of a run: what the inner
socket publishes, the `transfer` calls of a controller of any make, and the
calls of the owner, from outside or from a listener. A listener is a reaction:
given the socket and everything that was observed so far it answers with the
calls it makes, and every event of a run comes with a reaction of its own.

The observations are the owner's half of the pair. They are what the properties
of a run are stated about.
-/

namespace EcwidDownloader

namespace TCPSocketBandwidth

/-- The calls an owner makes. -/
inductive Call
  | connect (ip : String) (port : Nat)
  | connect6 (ip : String) (port : Nat)
  | read
  | stop
  | write (data : Bytes)
  | shutdown
  | close
  deriving DecidableEq, Repr

def call : Call → TCPSocketBandwidth → TCPSocketBandwidth
  | .connect ip port => connect ip port
  | .connect6 ip port => connect6 ip port
  | .read => read
  | .stop => stop
  | .write data => write data
  | .shutdown => shutdown
  | .close => close

/-- What is observed of a socket: what its inner socket delivered, what it
published itself, and the calls of its owner. -/
inductive Note
  | received (data : Bytes)
  | ended
  | published (event : SocketEvent)
  | called (c : Call)
  deriving DecidableEq, Repr

abbrev Observed := Linked TCPSocketBandwidth (List Note)

def note (n : Note) (w : Observed) : Observed :=
  { w with owner := w.owner ++ [n] }

def doCall (c : Call) (w : Observed) : Observed :=
  note (.called c) { w with sock := call c w.sock }

/-- What the owner's listeners do about an event: the calls they make, given
what was observed before. -/
abbrev React := Observed → SocketEvent → List Call

/-- An owner that does nothing about any event. -/
def quietOwner : React := fun _ _ => []

def publish (react : React) (event : SocketEvent) (w : Observed) : Observed :=
  (react w event).foldl (fun w c => doCall c w) (note (.published event) w)

/-- The transfers a controller makes on the socket inside `shedule_transfer`. -/
def transfers (react : React) (lengths : List Nat) (w : Observed) :
    Option Observed :=
  lengths.foldlM (fun w n => transfer (publish react) n w) w

inductive Event
  /-- A segment from the inner socket, and the transfers the controller makes
  before `shedule_transfer` returns. -/
  | data (segment : Bytes) (sync : List Nat)
  | error (err : ErrorEvent)
  | connected
  | written
  | ended
  | shutDown
  | closed
  | transfer (length : Nat)
  | call (c : Call)
  deriving DecidableEq, Repr

/-- The events the inner socket publishes, as it publishes them. -/
def Event.inner : Event → Option SocketEvent
  | .data segment _ => some (.dataEvent segment)
  | .error err => some (.errorEvent err)
  | .connected => some .connectEvent
  | .written => some .writeEvent
  | .ended => some .endEvent
  | .shutDown => some .shutdownEvent
  | .closed => some .closeEvent
  | .transfer _ | .call _ => none

/-- What is noted about an event when it arrives. -/
def Event.arrival : Event → List Note
  | .data segment _ => [.received segment]
  | .ended => [.ended]
  | _ => []

def Event.sync : Event → List Nat
  | .data _ lengths => lengths
  | _ => []

/-- One event. A closed inner socket has only its `CloseEvent` left, an open one
has none to give. -/
def step (w : Observed) (e : Event × React) : Option Observed :=
  match e.1 with
  | .transfer length => transfer (publish e.2) length w
  | .call c => some (doCall c w)
  | event =>
      match event.inner with
      | none => none
      | some inner =>
          if w.sock.socket.closed = decide (inner = .closeEvent) then
            innerEvent (publish e.2) (transfers e.2 event.sync) inner
              { w with owner := w.owner ++ event.arrival }
          else none

/-- A socket `create` has just made, with the buffer its controller gave it. -/
def created (conn bufferMaxLength : Nat) : Observed :=
  { sock := setBuffer bufferMaxLength (create conn), owner := [] }

/-- The runs of one throttled socket. -/
abbrev Runs := Lib.Run (Lib.Graph step)

/-! ## Readings of the observations -/

def Note.receivedBytes : Note → Bytes
  | .received data => data
  | _ => []

def Note.publishedBytes : Note → Bytes
  | .published (.dataEvent data) => data
  | _ => []

/-- Everything the inner socket delivered. -/
def receivedBytes (notes : List Note) : Bytes :=
  notes.flatMap Note.receivedBytes

/-- Everything the socket published in `DataEvent`s. -/
def publishedBytes (notes : List Note) : Bytes :=
  notes.flatMap Note.publishedBytes

/-- How a note changes whether the owner holds the socket stopped. -/
def Note.hold (held : Bool) : Note → Bool
  | .called .stop => true
  | .called .read => false
  | _ => held

/-- The owner called `stop()` and has not called `read()` since. -/
def held (notes : List Note) : Bool := notes.foldl Note.hold false

end TCPSocketBandwidth

end EcwidDownloader
