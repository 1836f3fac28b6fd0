import EcwidDownloader.Lib.Run
import EcwidDownloader.Aio.Types

/-!
# TCPSocketSimple

The wrapper of `aio/tcp_simple.h` around a `TcpHandle`: every event of the handle
is published again as the wrapper's own. The wrapper listens once for each kind
of event and listens again when the handlers of its own event have returned.

While a handler runs, the listener that published to it is in the middle of
`on_event`. It may call the wrapper, and a call may make the handle raise another
event at once, so what is running is a stack. A step of the model is what happens
between two of these moments: the handle raises an event, the wrapper is called,
or the handler on top of the stack returns.
-/

namespace EcwidDownloader

/-- The calls of the `TCPSocket` interface, which are passed on to the handle. -/
inductive SocketCall
  | connect (ip : String) (port : Nat)
  | connect6 (ip : String) (port : Nat)
  | read
  | stop
  | write (data : Bytes)
  | shutdown
  | close
  deriving DecidableEq, Repr

/-- What `bind` makes, for one kind of event. -/
inductive HandleListener
  | onEvent (kind : EventKind)
  deriving DecidableEq, Repr

instance : Lib.Listens HandleListener EventKind where
  kind | .onEvent kind => kind

/-- The handle as the wrapper sees it: the listeners registered on it, and the
calls made on it, oldest first. -/
structure TcpHandle where
  listeners : List HandleListener := []
  calls : List SocketCall := []
  deriving DecidableEq, Repr

namespace TcpHandle

def call (c : SocketCall) (h : TcpHandle) : TcpHandle :=
  { h with calls := h.calls ++ [c] }

def once (kind : EventKind) (h : TcpHandle) : TcpHandle :=
  { h with listeners := Lib.Emitter.once (.onEvent kind) h.listeners }

/-- `clear()`: all listeners are forgotten. -/
def clear (h : TcpHandle) : TcpHandle := { h with listeners := [] }

end TcpHandle

structure TCPSocketSimple where
  closed : Bool := false
  tcpHandle : TcpHandle := {}
  deriving DecidableEq, Repr

namespace TCPSocketSimple

/-- `create`; `none` for the handle that could not be made. -/
def create (tcpHandle : Option TcpHandle) : Option TCPSocketSimple :=
  tcpHandle.map fun tcpHandle =>
    { tcpHandle :=
        (((((tcpHandle.once .error).once .connect).once .data).once
          .endOfStream).once .write).once .shutdown }

def close (s : TCPSocketSimple) : TCPSocketSimple :=
  if !s.closed then
    { closed := true
      tcpHandle := (s.tcpHandle.clear.once .close).call .close }
  else s

def call (c : SocketCall) (s : TCPSocketSimple) : TCPSocketSimple :=
  match c with
  | .close => close s
  | c => { s with tcpHandle := s.tcpHandle.call c }

/-- The second half of `on_event`, after the `publish`. -/
def afterPublish (kind : EventKind) (s : TCPSocketSimple) : TCPSocketSimple :=
  if !s.closed then { s with tcpHandle := s.tcpHandle.once kind } else s

/-! ## The wrapper at work -/

/-- A listener whose `publish` is running: the event it forwards, and the
listeners the handle runs after it. -/
structure Frame where
  event : SocketEvent
  rest : List HandleListener := []
  deriving DecidableEq, Repr

/-- What is observed: what the handle raised, what the wrapper published, and the
calls on the wrapper. -/
inductive Note
  | raised (event : SocketEvent)
  | published (event : SocketEvent)
  | called (c : SocketCall)
  deriving DecidableEq, Repr

/-- A wrapper at work. -/
structure Working where
  sock : TCPSocketSimple
  /-- The listeners that are running, the innermost first. -/
  running : List Frame := []
  notes : List Note := []
  deriving DecidableEq, Repr

/-- The handle comes to its next listener, which publishes the event. -/
def forward (event : SocketEvent) (listeners : List HandleListener)
    (w : Working) : Working :=
  match listeners with
  | [] => w
  | _ :: rest =>
      { w with
        running := ⟨event, rest⟩ :: w.running
        notes := w.notes ++ [.published event] }

inductive Event
  /-- The handle raises an event. -/
  | raise (event : SocketEvent)
  | call (c : SocketCall)
  /-- The handler on top of the stack returns. -/
  | handled
  deriving DecidableEq, Repr

def step (w : Working) : Event → Option Working
  | .raise event =>
      let registry := w.sock.tcpHandle.listeners
      some (forward event (Lib.Emitter.taken event.kind registry)
        { w with
          sock.tcpHandle.listeners := Lib.Emitter.clearKind event.kind registry
          notes := w.notes ++ [.raised event] })
  | .call c =>
      some
        { w with
          sock := call c w.sock
          notes := w.notes ++ [.called c] }
  | .handled =>
      match w.running with
      | [] => none
      | frame :: running =>
          some (forward frame.event frame.rest
            { w with
              sock := afterPublish frame.event.kind w.sock
              running := running })

/-- `create` has just made the wrapper. -/
def Created (w : Working) : Prop :=
  ∃ sock, create (some {}) = some sock ∧ w = { sock := sock }

/-- The runs of one wrapper. -/
abbrev Runs := Lib.Run (Lib.Graph step)

end TCPSocketSimple

end EcwidDownloader
