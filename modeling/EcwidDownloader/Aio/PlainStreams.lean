import Mathlib.Logic.Function.Basic
import EcwidDownloader.Aio.BandwidthController
import EcwidDownloader.Lib.Shares

/-!
# A controller with streams of any amounts

The smallest world a `ControllerSimple` can work in: a stream holds some bytes
and gives up what `transfer` asks for, or, while it is stopped, nothing. Between
the runs of the controller anything may happen to the streams: data arrives, they
stop and start, they go away. Within a run nothing does, since nobody listens to
these streams.
-/

namespace EcwidDownloader

open Lib

structure PlainStream where
  available : Nat
  stopped : Bool := false
  alive : Bool := true
  deriving DecidableEq, Repr

/-- `Stream::transfer`: the stream publishes what it is asked for, unless it is
stopped. -/
def PlainStream.transfer (length : Nat) (s : PlainStream) : PlainStream :=
  if s.stopped then s
  else { s with available := s.available - min length s.available }

namespace PlainStreams

abbrev World := Nat → PlainStream

def ops : Streams World where
  lock stream w := (w stream).alive
  setBuffer _ _ w := w
  available stream w := (w stream).available
  transfer stream length h := some
    { h with
      world := Function.update h.world stream
        ((h.world stream).transfer length) }

inductive Event
  /-- Somebody calls `shedule_transfer`; `elapsed` is what the clock says if it
  is asked. -/
  | shedule (elapsed : Nat)
  | tick (elapsed : Nat)
  /-- A new stream is added to the controller. -/
  | add (s : PlainStream)
  /-- Something happens to a stream. -/
  | put (stream : Nat) (s : PlainStream)
  | remove (conn : Nat)

def step (fuel : Nat) (h : Hosted World) : Event → Option (Hosted World)
  | .shedule elapsed => ControllerSimple.sheduleTransfer ops fuel elapsed h
  | .tick elapsed => ControllerSimple.timerEvent ops fuel elapsed h
  | .add s =>
      let stream := h.ctl.inserted
      some (ControllerSimple.addStream ops.toStreamOps (some stream)
        { h with world := Function.update h.world stream s }).2
  | .put stream s =>
      some { h with world := Function.update h.world stream s }
  | .remove conn =>
      some { h with ctl := ControllerSimple.removeStream conn h.ctl }

/-- The elapsed time an event makes the controller share out. -/
def Event.asks (h : Hosted World) : Event → Option Nat
  | .shedule elapsed => if h.ctl.sheduled then none else some elapsed
  | .tick elapsed => some elapsed
  | _ => none

/-- One event, with fuel enough for the loops it runs. -/
def Step (h : Hosted World) (e : Event) (h' : Hosted World) : Prop :=
  ∃ fuel, step fuel h e = some h'

def created (limit : Nat) : Hosted World :=
  { ctl := { limit := limit }, world := fun _ => { available := 0 } }

/-- The stream of a node as a holder of an amount. -/
def holder (w : World) (node : Node) : Option Holder :=
  (node.weak.filter fun stream => ops.lock stream w).map fun stream =>
    { amount := (w stream).available, keeps := (w stream).stopped }

/-- What the streams of the controller hold, in the order of its list. -/
def holders (h : Hosted World) : List Holder :=
  h.ctl.streams.filterMap (holder h.world)

end PlainStreams

end EcwidDownloader
