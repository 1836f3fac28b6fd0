import EcwidDownloader.Lib.Run
import EcwidDownloader.Downloader.Simple

/-!
# A downloader among its events

What can happen to a downloader between `run` and its final report: its
operations complete, each with success or an error and in any order, and
`stop()` is called. An event comes with the synchronous outcome of whatever is
started while it is handled, and with what has become of the socket in the
meantime, so a run makes no assumption about how the socket works.
-/

namespace EcwidDownloader

open Lib

def Report.final (r : Report) : Bool := r.state.final

/-- The mark of a final report. -/
def Mark.reportsFinal : Mark → Bool
  | .invoked r => r.final
  | .assigned _ => false

namespace DownloaderSimple

inductive Event
  | resolver (result : Except ErrorEvent IPAddress)
  | socket (event : SocketEvent)
  | timer
  /-- The file operation at a position of `fileOps` completes. -/
  | file (index : Nat) (result : Except ErrorEvent Nat)
  | stop
  deriving DecidableEq

/-- The listeners of an event running. No data follows the end of the stream,
a write confirms no more than it was given, and `stop()` is called before the
final report only. -/
def handle {S P : Type} [TCPSocket S] [HttpParser P] (event : Event)
    (w : World S P) : Option (World S P) :=
  match event with
  | .resolver result =>
      if w.owner.resolver.isSome then some (onResolverEvent result w) else none
  | .socket (.dataEvent data) =>
      if w.owner.peerEnded then none
      else some (onSocketEvent (.dataEvent data) w)
  | .socket .endEvent =>
      some (onSocketEvent .endEvent { w with owner.peerEnded := true })
  | .socket event => some (onSocketEvent event w)
  | .timer => if w.owner.timerArmed then some (onTimerEvent w) else none
  | .file index result =>
      match w.owner.fileOps[index]? with
      | none => none
      | some op =>
          let w := { w with owner.fileOps := w.owner.fileOps.eraseIdx index }
          match result with
          | .error err => some (onFileError err w)
          | .ok size => if size ≤ op.size then some (onFileDone op size w) else none
  | .stop => if w.owner.trace.any Mark.reportsFinal then none else some (stop w)

/-- An event, the socket it finds, and how the operations started during it
begin. -/
structure Occurrence (S : Type) where
  event : Event
  sock : S
  faults : Faults := {}

/-- The world as the event finds it. -/
def found {S P : Type} (w : World S P) (o : Occurrence S) : World S P :=
  { w with sock := o.sock, owner.faults := o.faults }

def step {S P : Type} [TCPSocket S] [HttpParser P] (w : World S P)
    (o : Occurrence S) : Option (World S P) :=
  handle o.event (found w o)

/-- A downloader whose `run()` has just returned true. -/
def Started {S P : Type} [TCPSocket S] [HttpParser P] (w : World S P) : Prop :=
  ∃ sock backlog uri fname resources fault,
    run uri fname resources fault
      { sock := sock, owner := { backlog := backlog } } = (true, w)

/-- The runs of one downloader. -/
abbrev Runs {S P : Type} [TCPSocket S] [HttpParser P] :
    World S P → List (World S P × Occurrence S) → World S P → Prop :=
  Run (Lib.Graph step)

/-! ## Readings of a state and an event -/

def listens {S P : Type} (l : SocketListener) (w : World S P) : Prop :=
  l ∈ w.owner.socket.getD []

instance {S P : Type} (l : SocketListener) (w : World S P) :
    Decidable (listens l w) :=
  inferInstanceAs (Decidable (l ∈ w.owner.socket.getD []))

/-- What the parser makes of an event of the socket: the chunks of the body and
its result. -/
def parsed {S P : Type} [HttpParser P] (w : World S P) :
    Event → Option (List Bytes × ResponseParseResult)
  | .socket (.dataEvent data) =>
      if listens .firstData w then
        some (HttpParser.responseParse (HttpParser.create : P) data).2
      else if listens .nextData w then
        w.owner.httpParser.map fun p => (HttpParser.responseParse p data).2
      else none
  | .socket .endEvent =>
      if listens .endRead w then
        w.owner.httpParser.map fun p => (HttpParser.responseParse p []).2
      else none
  | _ => none

/-! ## A session played from a script

A parser that answers its calls from a list, for runs on fixed inputs: what
`HttpParser` gives for some response, call by call. -/

structure Scripted (script : List (List Bytes × ResponseParseResult)) where
  left : List (List Bytes × ResponseParseResult)

instance (script : List (List Bytes × ResponseParseResult)) :
    HttpParser (Scripted script) where
  uriParse _ :=
    some { proto := "http", host := "www.internet.org", port := 80, query := "/" }
  create := ⟨script⟩
  responseParse p _ :=
    match p.left with
    | [] => (p, [], { state := .error, errStr := "The end" })
    | (chunks, result) :: left => (⟨left⟩, chunks, result)

/-- `HTTP/1.1 200 OK` and the end of the line. -/
def statusLine : Bytes :=
  [72, 84, 84, 80, 47, 49, 46, 49, 32, 50, 48, 48, 32, 79, 75, 13, 10]

/-- `Content-Length: ` with one digit, and the end of the headers. -/
def lengthLine (digit : UInt8) : Bytes :=
  [67, 111, 110, 116, 101, 110, 116, 45, 76, 101, 110, 103, 116, 104, 58,
    32,
    digit, 13, 10, 13, 10]

/-- A response with a body of one byte. -/
def oneByte : Bytes := statusLine ++ lengthLine 49 ++ [120]

/-- It fits into one segment: the parser gives the byte to `on_data` and reports
Done. -/
def oneSegment : List (List Bytes × ResponseParseResult) :=
  [([[120]], { state := .done, contentLength := 1 })]

/-- An event that starts nothing that fails, over an idle socket. -/
def plainly (event : Event) : Occurrence TCPSocketBandwidth :=
  { event := event, sock := {} }

/-- The events before the response. -/
def requested : List (Occurrence TCPSocketBandwidth) :=
  [plainly (.resolver (.ok {})), plainly (.socket .connectEvent),
    plainly (.socket .writeEvent)]

/-- A downloader after `run("http://www.internet.org/", "f")`. -/
def begun (script : List (List Bytes × ResponseParseResult)) :
    World TCPSocketBandwidth (Scripted script) :=
  (run "http://www.internet.org/" "f" {} none
    { sock := TCPSocketBandwidth.create 0, owner := {} }).2

theorem started_begun (script : List (List Bytes × ResponseParseResult)) :
    Started (begun script) :=
  ⟨TCPSocketBandwidth.create 0, 10, "http://www.internet.org/", "f", {}, none,
    rfl⟩

end DownloaderSimple

end EcwidDownloader
