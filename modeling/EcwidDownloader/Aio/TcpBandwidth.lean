import EcwidDownloader.Aio.Types

/-!
# TCPSocketBandwidth

The throttled socket of `aio/tcp_bandwidth`: it buffers what the inner socket
delivers and gives it out in the portions the bandwidth controller asks for.

Two things are outside of the object and enter as parameters. `publish` runs
the listeners the owner registered, which may call back into the socket in the
middle of a method. `sheduleTransfer` is `controller->shedule_transfer()`, which
may call `transfer` on this very socket before `onData` is over. What `close`
tells the controller, the removal from its list, concerns no field of the socket
and is added where the controller is modelled.

`none` stands for undefined behaviour, `front()` of an empty queue.
-/

namespace EcwidDownloader

/-- The calls a `TCPSocketBandwidth` makes on the socket it wraps. -/
inductive InnerCall
  | connect (ip : String) (port : Nat)
  | connect6 (ip : String) (port : Nat)
  | read
  | stop
  | write (data : Bytes)
  | shutdown
  | close
  deriving DecidableEq, Repr

/-- The listeners a `TCPSocketBandwidth` registers on the socket it wraps:
`bind_on_event`, `bind_on_data`, the lambda that sets `eof`, and the one that
forwards the `CloseEvent`. -/
inductive InnerListener
  | onEvent (kind : EventKind)
  | onData
  | setEof
  | publishClose
  deriving DecidableEq, Repr

instance : Lib.Listens InnerListener EventKind where
  kind
    | .onEvent k => k
    | .onData => .data
    | .setEof => .endOfStream
    | .publishClose => .close

/-- The wrapped socket as the wrapper sees it: whether it is reading, whether it
was closed, its listeners, and the calls made on it, oldest first. -/
structure InnerSocket where
  reading : Bool := false
  closed : Bool := false
  listeners : List InnerListener := []
  calls : List InnerCall := []
  deriving DecidableEq, Repr

namespace InnerSocket

/-- A closed handle does not start reading again. -/
def read (s : InnerSocket) : InnerSocket :=
  { s with reading := !s.closed, calls := s.calls ++ [.read] }

def stop (s : InnerSocket) : InnerSocket :=
  { s with reading := false, calls := s.calls ++ [.stop] }

def close (s : InnerSocket) : InnerSocket :=
  { s with reading := false, closed := true, calls := s.calls ++ [.close] }

/-- The inner socket is active exactly while it is reading. -/
def active (s : InnerSocket) : Bool := s.reading

def call (c : InnerCall) (s : InnerSocket) : InnerSocket :=
  { s with calls := s.calls ++ [c] }

end InnerSocket

structure TCPSocketBandwidth where
  /-- The node of the controller's list that stands for this socket. -/
  conn : Nat := 0
  closed : Bool := false
  bufferUsed : Nat := 0
  bufferMaxLength : Nat := 0
  paused : Bool := false
  stopped : Bool := true
  eof : Bool := false
  buffer : List DataChunk := []
  socket : InnerSocket := {}
  deriving DecidableEq, Repr

namespace TCPSocketBandwidth

/-! ## TCPSocket implementation -/

/-- The listeners `create` registers on the inner socket. -/
def create (conn : Nat) : TCPSocketBandwidth :=
  { conn := conn
    socket.listeners :=
      [.onEvent .error, .onEvent .connect, .onEvent .write, .onEvent .shutdown,
        .onData, .setEof] }

def connect (ip : String) (port : Nat) (s : TCPSocketBandwidth) :
    TCPSocketBandwidth :=
  { s with socket := s.socket.call (.connect ip port) }

def connect6 (ip : String) (port : Nat) (s : TCPSocketBandwidth) :
    TCPSocketBandwidth :=
  { s with socket := s.socket.call (.connect6 ip port) }

def read (s : TCPSocketBandwidth) : TCPSocketBandwidth :=
  let s := { s with stopped := false }
  if !s.paused then { s with socket := s.socket.read } else s

def stop (s : TCPSocketBandwidth) : TCPSocketBandwidth :=
  let s := { s with stopped := true }
  if !s.paused then { s with socket := s.socket.stop } else s

def write (data : Bytes) (s : TCPSocketBandwidth) : TCPSocketBandwidth :=
  { s with socket := s.socket.call (.write data) }

def shutdown (s : TCPSocketBandwidth) : TCPSocketBandwidth :=
  { s with socket := s.socket.call .shutdown }

def active (s : TCPSocketBandwidth) : Bool := !s.stopped || s.socket.active

def close (s : TCPSocketBandwidth) : TCPSocketBandwidth :=
  if !s.closed then
    { s with
      closed := true
      stopped := true
      socket := { s.socket with listeners := [.publishClose] }.close }
  else s

/-! ## Stream implementation -/

def setBuffer (length : Nat) (s : TCPSocketBandwidth) : TCPSocketBandwidth :=
  { s with bufferMaxLength := length }

def available (s : TCPSocketBandwidth) : Nat := s.bufferUsed

/-- The do-while loop of `pop_buffer`: the bytes copied and the queue left. -/
def popBuffer : Nat → List DataChunk → Option (Bytes × List DataChunk)
  | _, [] => none
  | length, chunk :: queue =>
      if length < chunk.available then
        some (chunk.rest.take length,
          { chunk with offset := chunk.offset + length } :: queue)
      else
        let length := length - chunk.available
        if 0 < length then
          (popBuffer length queue).map fun r => (chunk.rest ++ r.1, r.2)
        else some (chunk.rest, queue)

section

variable {U : Type}
  (publish : SocketEvent → Linked TCPSocketBandwidth U →
    Linked TCPSocketBandwidth U)

/-- What `transfer` does once its `DataEvent` has been handled. -/
def afterData (w : Linked TCPSocketBandwidth U) :
    Linked TCPSocketBandwidth U :=
  if w.sock.eof && w.sock.bufferUsed == 0 then
    publish .endEvent { w with sock.stopped := true }
  else if w.sock.paused && decide (w.sock.bufferUsed < w.sock.bufferMaxLength)
  then { w with sock.paused := false, sock.socket := w.sock.socket.read }
  else w

def transfer (length : Nat) (w : Linked TCPSocketBandwidth U) :
    Option (Linked TCPSocketBandwidth U) :=
  if w.sock.stopped || length == 0 then some w
  else
    let length := min length w.sock.bufferUsed
    match popBuffer length w.sock.buffer with
    | none => none
    | some (data, buffer) =>
        let w :=
          { w with
            sock.buffer := buffer
            sock.bufferUsed := w.sock.bufferUsed - length }
        some (afterData publish (publish (.dataEvent data) w))

/-- `on_event<Event>`: forward, and listen again unless closed meanwhile. -/
def onEvent (event : SocketEvent) (w : Linked TCPSocketBandwidth U) :
    Linked TCPSocketBandwidth U :=
  let w := publish event w
  if !w.sock.closed then
    { w with
      sock.socket.listeners :=
        Lib.Emitter.once (.onEvent event.kind) w.sock.socket.listeners }
  else w

/-- What `on_data` does before it turns to the controller. -/
def bufferData (data : Bytes) (s : TCPSocketBandwidth) : TCPSocketBandwidth :=
  let s :=
    { s with
      buffer := s.buffer ++ [{ data := data }]
      bufferUsed := s.bufferUsed + data.length }
  if s.bufferUsed ≥ s.bufferMaxLength then
    { s with paused := true, socket := s.socket.stop }
  else s

def onData
    (sheduleTransfer : Linked TCPSocketBandwidth U →
      Option (Linked TCPSocketBandwidth U))
    (data : Bytes) (w : Linked TCPSocketBandwidth U) :
    Option (Linked TCPSocketBandwidth U) :=
  (sheduleTransfer { w with sock := bufferData data w.sock }).map fun w =>
    if !w.sock.closed then
      { w with
        sock.socket.listeners :=
          Lib.Emitter.once .onData w.sock.socket.listeners }
    else w

/-- One listener of the inner socket running. -/
def runListener
    (sheduleTransfer : Linked TCPSocketBandwidth U →
      Option (Linked TCPSocketBandwidth U))
    (event : SocketEvent) (w : Linked TCPSocketBandwidth U) :
    InnerListener → Option (Linked TCPSocketBandwidth U)
  | .onEvent _ => some (onEvent publish event w)
  | .onData =>
      match event with
      | .dataEvent data => onData sheduleTransfer data w
      | _ => some w
  | .setEof => some { w with sock.eof := true }
  | .publishClose => some (publish event w)

/-- An event published by the inner socket: its listeners are taken out of the
registry and run. -/
def innerEvent
    (sheduleTransfer : Linked TCPSocketBandwidth U →
      Option (Linked TCPSocketBandwidth U))
    (event : SocketEvent) (w : Linked TCPSocketBandwidth U) :
    Option (Linked TCPSocketBandwidth U) :=
  let registry := w.sock.socket.listeners
  (Lib.Emitter.taken event.kind registry).foldlM
    (runListener publish sheduleTransfer event)
    { w with
      sock.socket.listeners := Lib.Emitter.clearKind event.kind registry }

end

end TCPSocketBandwidth

end EcwidDownloader
