import Mathlib.Data.List.Forall2
import EcwidDownloader.Downloader.Session
import EcwidDownloader.Jobs.DashboardSimple
import EcwidDownloader.Jobs.FactorySimple

/-!
# main

The program in its loop: the list of jobs with the downloaders it has made, the
handler of SIGINT and the idle handler that lets the loop end. A downloader calls
`on_tick->invoke` in the middle of its own methods, and that may make other
downloaders and run them; it reads nothing of the downloader that called but its
status, so the calls of one event are made when the event is over, in their
order, each with the status the downloader had.

A downloader is a number, its place among all that `create` has ever made. Those
`run` has refused keep theirs. How the surroundings of a new downloader behave is
part of the event during which it is made. An exception that a downloader does
not catch ends the program; `uncaught` is what it says.
-/

namespace EcwidDownloader

open Lib

/-- What a call of `factory->create` passes. -/
structure Request where
  id : Nat
  uri : String
  fname : String
  deriving DecidableEq, Repr

def Note.request : Note → Option Request
  | .created id uri fname => some ⟨id, uri, fname⟩
  | _ => none

/-- The calls of `factory->create`, oldest first. -/
def OnTickSimple.requests {D : Type} (w : OnTickSimple D) : List Request :=
  w.notes.filterMap Note.request

/-- What a new downloader meets: the socket the factory of sockets has for it,
what can be made, and how the resolution of the host begins. -/
structure Birth (S : Type) where
  request : Request
  sock : S
  resources : DownloaderSimple.Resources := {}
  fault : Option ErrorEvent := none

namespace Birth

variable {S : Type} [TCPSocket S] (P : Type) [HttpParser P]

/-- What `create` makes, as the downloader of a number. -/
def creation (number : Nat) (b : Birth S) : Creation Nat :=
  FactorySimple.create (P := P) number b.sock b.request.uri b.request.fname
    b.resources b.fault

/-- The downloader after `run`. -/
def world (b : Birth S) : DownloaderSimple.World S P :=
  (DownloaderSimple.run b.request.uri b.request.fname b.resources b.fault
    { sock := b.sock, owner := {} }).2

/-- Several of them, numbered on. -/
def creations : Nat → List (Birth S) → List (Creation Nat)
  | _, [] => []
  | number, b :: bs => b.creation P number :: creations (number + 1) bs

end Birth

structure Program (S P : Type) where
  onTick : OnTickSimple Nat := {}
  downloaders : List (DownloaderSimple.World S P) := []
  /-- `signal` waits for SIGINT. -/
  watching : Bool := true
  /-- The idle handler is there. -/
  idle : Bool := true
  uncaught : Option String := none

namespace Program

/-- One call of `on_tick->invoke`: the status the downloader shows, and the
downloaders that are made. -/
structure Tick (S : Type) where
  status : StatusDownloader
  born : List (Birth S) := []

section

variable {S P : Type} [TCPSocket S] [HttpParser P]

/-- `on_tick->invoke( shared_from_this() )`, and what it throws. -/
def ticked (number : Nat) (t : Tick S) (p : Program S P) : Program S P :=
  let r := OnTickSimple.invoke number t.status
    { p.onTick with
      creations := Birth.creations P p.downloaders.length t.born }
  { p with
    onTick := r.2
    downloaders := p.downloaders ++ t.born.map (Birth.world P)
    uncaught := r.1 }

/-- The downloaders that are said to be made are those `create` is called for.
After an exception nothing more is called. -/
def tick (number : Nat) (p : Program S P) (t : Tick S) :
    Option (Program S P) :=
  if p.uncaught.isSome then some p
  else
    let p' := ticked number t p
    if p'.onTick.requests = p.onTick.requests ++ t.born.map Birth.request then
      some p'
    else none

/-- What a call of `on_tick->invoke` sees. -/
def called : Mark → Option Report
  | .invoked r => some r
  | .assigned _ => none

/-- What a downloader has shown in the calls of one event. -/
def reports (w w' : DownloaderSimple.World S P) : List Report :=
  (w'.owner.trace.drop w.owner.trace.length).filterMap called

/-- The status a call sees in an event that leaves the downloader so. -/
def shown (w' : DownloaderSimple.World S P) (r : Report) : StatusDownloader :=
  { w'.owner.status with state := r.state, downloaded := r.received.length }

/-- What the calls of an event see. A call that another one follows has seen a
text and a size that may not be there any more. -/
def Seen (w' : DownloaderSimple.World S P) (rs : List Report)
    (statuses : List StatusDownloader) : Prop :=
  List.Forall₂ (fun r status => status = { shown w' r with
      stateStr := status.stateStr, size := status.size }) rs statuses ∧
    statuses.getLast? = rs.getLast?.map (shown w')

instance (w' : DownloaderSimple.World S P) (rs : List Report)
    (statuses : List StatusDownloader) : Decidable (Seen w' rs statuses) :=
  inferInstanceAs (Decidable (_ ∧ _))

/-- A downloader comes out of an event, with the calls of `invoke` it has made
on the way. -/
def moved (number : Nat) (w w' : DownloaderSimple.World S P)
    (ts : List (Tick S)) (p : Program S P) : Option (Program S P) :=
  if Seen w' (reports w w') (ts.map Tick.status) then
    ts.foldlM (tick number)
      { p with downloaders := p.downloaders.set number w' }
  else none

/-- What `stop()` finds, and the calls it makes. -/
structure Stop (S : Type) where
  sock : S
  faults : Faults := {}
  ticks : List (Tick S)

/-- The loop of the signal handler over the downloaders it has found. -/
def stopAll : List (Option Nat) → List (Stop S) → Program S P →
    Option (Program S P)
  | [], [], p => some p
  | some number :: numbers, s :: stops, p =>
      if p.uncaught.isSome then some p
      else
        match p.downloaders[number]? with
        | none => none
        | some w =>
            let w' := DownloaderSimple.stop
              (DownloaderSimple.found w ⟨.stop, s.sock, s.faults⟩)
            (moved number w w' s.ticks p).bind (stopAll numbers stops)
  | _, _, _ => none

end

inductive Event (S : Type)
  /-- Something happens to a downloader. -/
  | downloader (number : Nat) (o : DownloaderSimple.Occurrence S)
      (ticks : List (Tick S))
  /-- SIGINT. -/
  | interrupt (stops : List (Stop S))
  | idle

section

variable {S P : Type} [TCPSocket S] [HttpParser P]

/-- `signal_handler`: `factory.reset()`, and every downloader in the list is
stopped. The handle is done after one signal. -/
def onSignal (stops : List (Stop S)) (p : Program S P) :
    Option (Program S P) :=
  stopAll (p.onTick.jobList.map Job.downloader) stops
    { p with onTick.factory := false, watching := false }

/-- `idle_handler`. -/
def onIdle (p : Program S P) : Program S P :=
  if p.onTick.jobList.isEmpty then { p with watching := false, idle := false }
  else p

def step (p : Program S P) (e : Event S) : Option (Program S P) :=
  if p.uncaught.isSome then none
  else
    match e with
    | .downloader number o ts =>
        if o.event = .stop then none
        else
          match p.downloaders[number]? with
          | none => none
          | some w =>
              (DownloaderSimple.step w o).bind fun w' => moved number w w' ts p
    | .interrupt stops => if p.watching then onSignal stops p else none
    | .idle => if p.idle then some (onIdle p) else none

/-- The program when it enters its loop: the start-up loop has run, with these
downloaders. -/
def launch (concurrency : Nat) (tasks : TaskList) (born : List (Birth S)) :
    Option (Program S P) :=
  let w := OnTickSimple.startUp concurrency
    { taskList := tasks, creations := Birth.creations P 0 born }
  if w.requests = born.map Birth.request then
    some { onTick := w, downloaders := born.map (Birth.world P) }
  else none

/-- What is on the screen. -/
def dashboard (clock : Nat → String) (p : Program S P) : DashboardSimple :=
  DashboardSimple.shown clock p.onTick.dashboard

/-- The runs of the program. -/
abbrev Runs : Program S P → List (Program S P × Event S) → Program S P → Prop :=
  Run (Graph step)

/-! ## A program played from a script -/

/-- Something that happens to a downloader, and what is made at its last call. -/
structure Cue (S : Type) where
  number : Nat
  occurrence : DownloaderSimple.Occurrence S
  born : List (Birth S) := []

/-- The event, with the calls the downloader makes in it. -/
def cued (p : Program S P) (cue : Cue S) : Event S :=
  let ts := p.downloaders[cue.number]?.bind fun w =>
    (DownloaderSimple.step w cue.occurrence).map fun w' =>
      let rs := (reports w w').map (shown w')
      rs.dropLast.map (fun status => { status := status }) ++
        rs.getLast?.toList.map fun status =>
          { status := status, born := cue.born }
  .downloader cue.number cue.occurrence (ts.getD [])

def plays (p : Program S P) : List (Cue S) → List (Event S)
  | [] => []
  | cue :: cues =>
      let e := cued p cue
      match step p e with
      | none => [e]
      | some p' => e :: plays p' cues

end

end Program

end EcwidDownloader
