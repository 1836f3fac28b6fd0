import EcwidDownloader.Aio.TcpBandwidthRun
import EcwidDownloader.Aio.BandwidthController

/-!
# A controller with throttled sockets

The world a `ControllerSimple` works in when its streams are
`TCPSocketBandwidth`s. A socket that is asked for a transfer, or whose inner
socket publishes an event, runs the listeners of its owner, and these may call
any socket and create new ones; so a socket is taken out of the world for the
call of its method and put back around every handler.

The number of a socket is its place in the list of all sockets ever made. The
world keeps a record of the `read` calls that a later theorem is about; no
function reads it.
-/

namespace EcwidDownloader

open TCPSocketBandwidth (Call)

structure Sock where
  tcp : TCPSocketBandwidth
  /-- Somebody still holds the object. -/
  alive : Bool := true
  deriving DecidableEq, Repr

structure Net where
  socks : List Sock := []
  /-- The stream whose `transfer` the controller is making. -/
  serving : Option Nat := none
  /-- The sockets that were woken by `read` with bytes in their queue while no
  transfer was scheduled. -/
  woken : List Nat := []
  deriving DecidableEq, Repr

namespace ThrottledStreams

def ops : StreamOps Net where
  lock stream w := w.socks[stream]?.any Sock.alive
  setBuffer stream length w :=
    { w with
      socks := w.socks.modify stream fun s =>
        { s with tcp := s.tcp.setBuffer length } }
  available stream w := (w.socks[stream]?.map fun s => s.tcp.available).getD 0

/-- A change of one socket. -/
def edit (stream : Nat) (f : TCPSocketBandwidth → TCPSocketBandwidth)
    (h : Hosted Net) : Hosted Net :=
  { h with
    world.socks :=
      h.world.socks.modify stream fun s => { s with tcp := f s.tcp } }

def tcpOf (stream : Nat) (h : Hosted Net) : TCPSocketBandwidth :=
  (h.world.socks[stream]?.map Sock.tcp).getD (TCPSocketBandwidth.create 0)

/-- A socket with the rest of the world as its owner. -/
def takeSock (stream : Nat) (h : Hosted Net) :
    Linked TCPSocketBandwidth (Hosted Net) :=
  { sock := tcpOf stream h, owner := h }

def putSock (stream : Nat) (w : Linked TCPSocketBandwidth (Hosted Net)) :
    Hosted Net :=
  edit stream (fun _ => w.sock) w.owner

/-! ## The owner -/

/-- What an owner can do: call a socket, or create one. -/
inductive Act
  | call (stream : Nat) (c : Call)
  | create
  deriving DecidableEq, Repr

/-- `TCPSocketBandwidth::create`: the socket is made and added to its
controller. -/
def createSock (h : Hosted Net) : Hosted Net :=
  let stream := h.world.socks.length
  let h :=
    { h with
      world.socks :=
        h.world.socks ++ [{ tcp := TCPSocketBandwidth.create 0 }] }
  let r := ControllerSimple.addStream ops (some stream) h
  edit stream (fun tcp => { tcp with conn := r.1.getD 0 }) r.2

/-- A `read` that makes a stopped socket with bytes in its queue run again while
no transfer is scheduled, and not from that socket's own transfer. -/
def Wakes (h : Hosted Net) (stream : Nat) (c : Call) : Prop :=
  c = .read ∧ h.ctl.sheduled = false ∧ h.world.serving ≠ some stream ∧
    (tcpOf stream h).closed = false ∧ (tcpOf stream h).stopped = true ∧
    0 < (tcpOf stream h).bufferUsed

instance (h : Hosted Net) (stream : Nat) (c : Call) :
    Decidable (Wakes h stream c) :=
  inferInstanceAs (Decidable (_ ∧ _))

/-- What `close` tells the controller. -/
def leave (stream : Nat) (c : Call) (h : Hosted Net) : Hosted Net :=
  if c = .close ∧ (tcpOf stream h).closed = false then
    { h with
      ctl := ControllerSimple.removeStream (tcpOf stream h).conn h.ctl }
  else h

def act (h : Hosted Net) : Act → Hosted Net
  | .create => createSock h
  | .call stream c =>
      if ops.lock stream h.world then
        let woken :=
          if Wakes h stream c then stream :: h.world.woken else h.world.woken
        let h := edit stream (TCPSocketBandwidth.call c) (leave stream c h)
        { h with world.woken := woken }
      else h

/-- What the listeners registered on a socket do about an event. -/
abbrev React := Hosted Net → Nat → SocketEvent → List Act

def handle (react : React) (stream : Nat) (event : SocketEvent)
    (h : Hosted Net) : Hosted Net :=
  (react h stream event).foldl act h

def publish (react : React) (stream : Nat) (event : SocketEvent)
    (w : Linked TCPSocketBandwidth (Hosted Net)) :
    Linked TCPSocketBandwidth (Hosted Net) :=
  takeSock stream (handle react stream event (putSock stream w))

/-! ## The controller's streams -/

def serve (stream : Option Nat) (h : Hosted Net) : Hosted Net :=
  { h with world.serving := stream }

def transferTo (react : React) (stream length : Nat) (h : Hosted Net) :
    Option (Hosted Net) :=
  (TCPSocketBandwidth.transfer (publish react stream) length
    (takeSock stream (serve (some stream) h))).map fun w =>
      serve none (putSock stream w)

def streams (react : React) : Streams Net :=
  { ops with transfer := transferTo react }

/-! ## Events -/

inductive Event
  | act (a : Act)
  /-- The inner socket of a stream publishes an event; `elapsed` is what the
  clock says if the controller asks it. -/
  | inner (stream : Nat) (event : SocketEvent) (elapsed : Nat)
  | tick (elapsed : Nat)
  /-- The last pointer to a socket goes away. -/
  | release (stream : Nat)
  deriving DecidableEq, Repr

/-- `controller->shedule_transfer()` in the middle of a socket's `on_data`. -/
def sheduleFrom (react : React) (fuel stream elapsed : Nat)
    (w : Linked TCPSocketBandwidth (Hosted Net)) :
    Option (Linked TCPSocketBandwidth (Hosted Net)) :=
  (ControllerSimple.sheduleTransfer (streams react) fuel elapsed
    (putSock stream w)).map (takeSock stream)

def step (fuel : Nat) (h : Hosted Net) (e : Event × React) :
    Option (Hosted Net) :=
  match e.1 with
  | .act a => some (act h a)
  | .inner stream event elapsed =>
      if ops.lock stream h.world = true ∧
          (tcpOf stream h).socket.closed = decide (event = .closeEvent) then
        (TCPSocketBandwidth.innerEvent (publish e.2 stream)
          (sheduleFrom e.2 fuel stream elapsed) event
          (takeSock stream h)).map (putSock stream)
      else none
  | .tick elapsed =>
      ControllerSimple.timerEvent (streams e.2) fuel elapsed h
  | .release stream =>
      some
        { h with
          world.socks := h.world.socks.modify stream fun s =>
            { s with alive := false } }

/-- One event, with fuel enough for the loops it runs. -/
def Step (h : Hosted Net) (e : Event × React) (h' : Hosted Net) : Prop :=
  ∃ fuel, step fuel h e = some h'

def created (limit : Nat) : Hosted Net :=
  { ctl := { limit := limit }, world := {} }

/-- A stream that is open, not stopped, and has bytes in its queue. -/
def Awake (h : Hosted Net) (stream : Nat) : Prop :=
  ∃ s, h.world.socks[stream]? = some s ∧ s.alive = true ∧
    s.tcp.closed = false ∧ s.tcp.stopped = false ∧ 0 < s.tcp.bufferUsed

/-- Where a stream is awake, a transfer is scheduled and the timer is armed. -/
def WokenUp (h : Hosted Net) : Prop :=
  ∀ stream, Awake h stream →
    h.ctl.sheduled = true ∧ h.ctl.timer.armed = true

end ThrottledStreams

end EcwidDownloader
