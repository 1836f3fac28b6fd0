import EcwidDownloader.Aio.BandwidthController

/-!
# The list of streams, turn by turn

The loops of `ControllerSimple::transfer` walk a list that the streams change
while they are walked: whoever is handed its share may add streams to the
controller and remove itself or others. To say what holds at every call the
controller makes, and not only once `transfer` has returned, `transfer` is cut
here into the turns of its inner loop; between two turns the whole state is a
`Moment`.

The streams of this world do whatever their owners like: each call of
`Stream::transfer` comes with the list of what is done in it. The world keeps
the record of who was added and what was removed.
-/

namespace EcwidDownloader

open ControllerSimple

namespace ControllerSimple

/-- The local variables of `transfer` inside its loops. -/
structure Loop where
  chunk : Nat
  it : Option Nat
  total : Nat
  pending : Nat
  deriving DecidableEq, Repr

/-- A controller outside its functions or between two turns of the inner loop;
`waiting` counts the listeners of a timer event that have not run yet. -/
structure Moment (W : Type) where
  host : Hosted W
  loop : Option Loop := none
  waiting : Nat := 0

section

variable {W : Type}

/-- A round of the loop begins. -/
def roundOf (total pending : Nat) (streams : List Node) : Loop :=
  { chunk := max (total / pending) 1
    it := first streams
    total := total
    pending := 0 }

/-- `transfer` up to its loops. -/
def enter (elapsed waiting : Nat) (h : Hosted W) : Moment W :=
  let h := { h with ctl.sheduled := false }
  let pending := h.ctl.streams.length
  if pending = 0 then { host := h, waiting := waiting }
  else
    let h := { h with ctl.ticks := { elapsed := elapsed } :: h.ctl.ticks }
    let total := budget elapsed h.ctl
    if total = 0 then
      { host := { h with ctl := deferTransfer h.ctl }, waiting := waiting }
    else
      { host := h
        loop := some (roundOf total pending h.ctl.streams)
        waiting := waiting }

variable (ops : Streams W)

/-- One turn of the inner loop; at its end the next round or the end of
`transfer`. An iterator without its node is not followed. -/
def turn (l : Loop) (m : Moment W) : Option (Moment W) :=
  match l.it with
  | none =>
      if 0 < l.total ∧ 0 < l.pending then
        some
          { m with
            loop := some (roundOf l.total l.pending m.host.ctl.streams) }
      else some { m with host := finish l.pending m.host, loop := none }
  | some it =>
      match m.host.ctl.streams.find? fun node => node.id = it with
      | none => none
      | some node =>
          let it' := next it m.host.ctl.streams
          match lock ops node m.host with
          | some stream =>
              (visit ops l.chunk stream l.total l.pending m.host).map
                fun r =>
                  { m with
                    host := r.2.2
                    loop := some
                      { l with it := it', total := r.1, pending := r.2.1 } }
          | none =>
              some
                { m with
                  host.ctl.streams := erase it m.host.ctl.streams
                  loop := some { l with it := it' } }

/-- The next turn is at this node and calls `available` of this stream, and
`transfer` if there is something to transfer. -/
def Asks (m : Moment W) (node : Node) (stream : Nat) : Prop :=
  ∃ l it, m.loop = some l ∧ l.it = some it ∧
    m.host.ctl.streams.find? (fun node => node.id = it) = some node ∧
    lock ops node m.host = some stream

end

end ControllerSimple

namespace StreamRegistry

/-- A call of `add_stream` that took the stream: the connection it returned. -/
structure Entry where
  conn : Nat
  stream : Nat
  deriving DecidableEq, Repr

structure World where
  alive : Nat → Bool
  available : Nat → Nat
  /-- Every stream that was added, in the order of the calls. -/
  added : List Entry := []
  /-- Every connection `remove_stream` was called with. -/
  removed : List Nat := []

def streamOps : StreamOps World where
  lock stream w := w.alive stream
  setBuffer _ _ w := w
  available stream w := w.available stream

/-- What the streams and their owners do to the controller and to each other. -/
inductive Act
  | add (stream : Nat)
  | remove (conn : Nat)
  /-- The last owner lets a stream go. -/
  | expire (stream : Nat)
  | put (stream available : Nat)
  deriving DecidableEq, Repr

/-- `add_stream` records what it returns. -/
def addStream (stream : Nat) (h : Hosted World) : Hosted World :=
  match ControllerSimple.addStream streamOps (some stream) h with
  | (none, h) => h
  | (some conn, h) =>
      { h with world.added := h.world.added ++ [⟨conn, stream⟩] }

/-- `remove_stream` writes through the iterator, so its node must be there. -/
def removeStream (conn : Nat) (h : Hosted World) : Option (Hosted World) :=
  if h.ctl.streams.any fun node => node.id = conn then
    some
      { ctl := ControllerSimple.removeStream conn h.ctl
        world := { h.world with removed := conn :: h.world.removed } }
  else none

def act (h : Hosted World) : Act → Option (Hosted World)
  | .add stream => some (addStream stream h)
  | .remove conn => removeStream conn h
  | .expire stream =>
      some
        { h with
          world.alive := fun s => h.world.alive s && decide (s ≠ stream) }
  | .put stream available =>
      some
        { h with
          world.available := fun s =>
            if s = stream then available else h.world.available s }

/-- What is done in the calls of `Stream::transfer`, for each the stream, the
length and the state it is called in. -/
abbrev React := Nat → Nat → Hosted World → List Act

def streams (react : React) : Streams World :=
  { streamOps with
    transfer := fun stream length h =>
      (react stream length h).foldlM act h }

inductive Event
  | act (a : Act)
  /-- Somebody calls `shedule_transfer`. -/
  | shedule (elapsed : Nat)
  /-- The timer fires. -/
  | tick
  /-- The next listener of the timer event calls `transfer`. -/
  | listener (elapsed : Nat)
  /-- One turn of the loop, with what a call of `Stream::transfer` does in it. -/
  | turn (acts : List Act)

def step (m : Moment World) : Event → Option (Moment World)
  | .act a =>
      if m.loop = none ∧ m.waiting = 0 then
        (act m.host a).map fun h => { m with host := h }
      else none
  | .shedule elapsed =>
      if m.loop = none ∧ m.waiting = 0 then
        if m.host.ctl.sheduled then some m else some (enter elapsed 0 m.host)
      else none
  | .tick =>
      if m.loop = none ∧ m.waiting = 0 ∧ m.host.ctl.timer.armed then
        some
          { m with
            host.ctl.timer := {}
            waiting := m.host.ctl.timer.listeners }
      else none
  | .listener elapsed =>
      if m.loop = none ∧ 0 < m.waiting then
        some (enter elapsed (m.waiting - 1) m.host)
      else none
  | .turn acts =>
      m.loop.bind fun l => turn (streams fun _ _ _ => acts) l m

/-- No stream was added yet; those that are there are `alive`. -/
def created (limit : Nat) (alive : Nat → Bool) : Moment World :=
  { host :=
      { ctl := { limit := limit }
        world := { alive := alive, available := fun _ => 0 } } }

/-- Added, still there and not removed. -/
def members (w : World) : List Entry :=
  w.added.filter fun e => w.alive e.stream && decide (e.conn ∉ w.removed)

/-- What a node of the list stands for. -/
def live (w : World) (node : Node) : Option Entry :=
  (node.weak.filter w.alive).map fun stream => ⟨node.id, stream⟩

/-- The list of the controller is the record of who was added, is still there
and was not removed, each in a node of its own. -/
structure Registered (m : Moment World) : Prop where
  listed : m.host.ctl.streams.filterMap (live m.host.world) =
    members m.host.world
  apart : m.host.ctl.streams.Pairwise fun a b => a.id ≠ b.id
  node : ∀ e ∈ members m.host.world,
    { id := e.conn, weak := some e.stream } ∈ m.host.ctl.streams
  asks : ∀ react node stream, Asks (streams react) m node stream →
    ⟨node.id, stream⟩ ∈ members m.host.world
  iterator : ∀ l it, m.loop = some l → l.it = some it →
    ∃ node ∈ m.host.ctl.streams, node.id = it

/-- No stream was given to `add_stream` a second time. -/
def AddedOnce (w : World) : Prop :=
  w.added.Pairwise fun a b => a.stream ≠ b.stream

/-- The stream was added, and its connection given to `remove_stream`. -/
def Removed (w : World) (stream : Nat) : Prop :=
  ∃ e ∈ w.added, e.stream = stream ∧ e.conn ∈ w.removed

end StreamRegistry

end EcwidDownloader
