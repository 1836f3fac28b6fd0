import Mathlib.Algebra.Group.Nat.Defs
import EcwidDownloader.Lib.Run

/-!
# ControllerSimple

The bandwidth controller of `aio/bandwidth_controller.h`. Its streams are
somebody else's objects, so the model is over a world that holds them, with the
virtual functions of `Stream` given by a `StreamOps`; `Stream::transfer` runs
handlers, which may add streams to the controller and remove them, so it acts on
the controller and the world together.

The list of streams is a `std::list` of weak pointers. A node keeps its identity
while other nodes come and go, and an iterator is the identity of its node,
`none` for the end. The counters are `size_t`. Both loops of `transfer` run on
fuel, and `none` means that the fuel was too short or that an iterator was left
dangling; the loops are ended by the data, so what the fuel must be is said where
the streams are known.

The controller keeps a record of what it handed out. No function reads it.
-/

namespace EcwidDownloader

/-- `SIZE_MAX + 1`. -/
def sizeModulus : Nat := 2 ^ 64

/-- `a - b` in `size_t`. -/
def sizeSub (a b : Nat) : Nat := (a + sizeModulus - b) % sizeModulus

theorem sizeSub_lt (a b : Nat) : sizeSub a b < sizeModulus :=
  Nat.mod_lt _ (by decide)

/-- A node of `StreamsList`: a weak pointer, null once removed. -/
structure Node where
  id : Nat
  weak : Option Nat
  deriving DecidableEq, Repr

/-- One call of `Stream::transfer` by the controller: `total_to_transfer` when
it was made, and the length. -/
structure Handed where
  total : Nat
  length : Nat
  deriving DecidableEq, Repr

/-- One run of `ControllerSimple::transfer` that asked for the time. -/
structure Tick where
  elapsed : Nat
  handed : List Handed := []
  deriving DecidableEq, Repr

/-- A one-shot timer: the listeners for its event, and whether it was started
and has not fired. -/
structure TimerHandle where
  listeners : Nat := 0
  armed : Bool := false
  deriving DecidableEq, Repr

structure ControllerSimple where
  limit : Nat
  timer : TimerHandle := {}
  streams : List Node := []
  /-- How many nodes were ever inserted, the identity of the next one. -/
  inserted : Nat := 0
  sheduled : Bool := false
  /-- The record, latest first. -/
  ticks : List Tick := []
  deriving DecidableEq, Repr

/-- A controller and the world its streams live in. -/
structure Hosted (W : Type) where
  ctl : ControllerSimple
  world : W

/-- Whether a weak pointer still has its stream, and the functions of `Stream`
that run no handlers. -/
structure StreamOps (W : Type) where
  lock : Nat → W → Bool
  setBuffer : Nat → Nat → W → W
  available : Nat → W → Nat

/-- All functions of `Stream`. -/
structure Streams (W : Type) extends StreamOps W where
  transfer : Nat → Nat → Hosted W → Option (Hosted W)

namespace ControllerSimple

/-! ## The list of streams -/

/-- The iterator behind the node `id`. -/
def next (id : Nat) : List Node → Option Nat
  | [] => none
  | node :: streams =>
      if node.id = id then streams.head?.map Node.id else next id streams

/-- `begin`. -/
def first (streams : List Node) : Option Nat := streams.head?.map Node.id

def erase (id : Nat) (streams : List Node) : List Node :=
  streams.filter fun node => node.id ≠ id

/-- `remove_stream`: the weak pointer of the node is swapped with a null one. -/
def removeStream (conn : Nat) (c : ControllerSimple) : ControllerSimple :=
  { c with
    streams := c.streams.map fun node =>
      if node.id = conn then { node with weak := none } else node }

/-- The record of a call of `Stream::transfer`. -/
def record (handed : Handed) (c : ControllerSimple) : ControllerSimple :=
  match c.ticks with
  | [] => c
  | tick :: ticks =>
      { c with ticks := { tick with handed := tick.handed ++ [handed] } :: ticks }

/-- `defer_transfer`: one more listener for the timer, and the timer started. -/
def deferTransfer (c : ControllerSimple) : ControllerSimple :=
  { c with
    sheduled := true
    timer := { listeners := c.timer.listeners + 1, armed := true } }

/-- `total_to_transfer` at the start of `transfer`. -/
def budget (elapsed : Nat) (c : ControllerSimple) : Nat :=
  c.limit * elapsed % sizeModulus / 1000

section

variable {W : Type}

/-- `add_stream`, with the connection it returns, `none` for the end of the
list. -/
def addStream (ops : StreamOps W) (weak : Option Nat) (h : Hosted W) :
    Option Nat × Hosted W :=
  match weak.filter fun stream => ops.lock stream h.world with
  | none => (none, h)
  | some stream =>
      (some h.ctl.inserted,
        { ctl :=
            { h.ctl with
              streams := h.ctl.streams ++
                [{ id := h.ctl.inserted, weak := some stream }]
              inserted := h.ctl.inserted + 1 }
          world :=
            ops.setBuffer stream (h.ctl.limit * 4 % sizeModulus) h.world })

variable (ops : Streams W)

/-- `it->lock()`. -/
def lock (node : Node) (h : Hosted W) : Option Nat :=
  node.weak.filter fun stream => ops.lock stream h.world

/-- What the body of the inner loop does with a stream it could lock, the
iterator having moved on. -/
def visit (chunk stream : Nat) (total pending : Nat) (h : Hosted W) :
    Option (Nat × Nat × Hosted W) :=
  let available := ops.available stream h.world
  let toTransfer := min available chunk
  if toTransfer = 0 then some (total, pending, h)
  else
    (ops.transfer stream toTransfer
      { h with ctl := record ⟨total, toTransfer⟩ h.ctl }).map fun h =>
        (sizeSub total toTransfer,
          if 0 < available - toTransfer then pending + 1 else pending, h)

/-- The inner loop of `transfer`, with `total_to_transfer` and
`pending_streams`. -/
def round (chunk : Nat) : Nat → Option Nat → Nat → Nat → Hosted W →
    Option (Nat × Nat × Hosted W)
  | 0, _, _, _, _ => none
  | _ + 1, none, total, pending, h => some (total, pending, h)
  | fuel + 1, some it, total, pending, h =>
      match h.ctl.streams.find? fun node => node.id = it with
      | none => none
      | some node =>
          let it' := next it h.ctl.streams
          match lock ops node h with
          | some stream =>
              match visit ops chunk stream total pending h with
              | none => none
              | some (total, pending, h) =>
                  round chunk fuel it' total pending h
          | none =>
              round chunk fuel it' total pending
                { h with ctl.streams := erase it h.ctl.streams }

/-- The outer loop of `transfer`. -/
def rounds (visits : Nat) : Nat → Nat → Nat → Hosted W →
    Option (Nat × Hosted W)
  | 0, _, _, _ => none
  | fuel + 1, total, pending, h =>
      let chunk := max (total / pending) 1
      match round ops chunk visits (first h.ctl.streams) total 0 h with
      | none => none
      | some (total, pending, h) =>
          if 0 < total ∧ 0 < pending then rounds visits fuel total pending h
          else some (pending, h)

/-- The end of `transfer`. -/
def finish (pending : Nat) (h : Hosted W) : Hosted W :=
  if 0 < pending then { h with ctl := deferTransfer h.ctl } else h

def transfer (fuel elapsed : Nat) (h : Hosted W) : Option (Hosted W) :=
  let h := { h with ctl.sheduled := false }
  let pending := h.ctl.streams.length
  if pending = 0 then some h
  else
    let h := { h with ctl.ticks := { elapsed := elapsed } :: h.ctl.ticks }
    let total := budget elapsed h.ctl
    if total = 0 then some { h with ctl := deferTransfer h.ctl }
    else (rounds ops fuel fuel total pending h).map fun r => finish r.1 r.2

def sheduleTransfer (fuel elapsed : Nat) (h : Hosted W) : Option (Hosted W) :=
  if h.ctl.sheduled then some h else transfer ops fuel elapsed h

/-- The timer fires: every listener that was waiting runs `transfer`. -/
def timerEvent (fuel elapsed : Nat) (h : Hosted W) : Option (Hosted W) :=
  if h.ctl.timer.armed then
    (List.range h.ctl.timer.listeners).foldlM
      (fun h _ => transfer ops fuel elapsed h)
      { h with ctl.timer := {} }
  else none

end

end ControllerSimple

end EcwidDownloader
