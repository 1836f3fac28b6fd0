import EcwidDownloader.Downloader.Session

/-!
# A downloader on a throttled socket

The downloader is the owner of the throttled socket: what the socket publishes
runs the listeners of the downloader, and these call the socket back in the
middle of its own methods. Around the pair are the inner socket, a controller of
any make that calls `transfer`, and everything else a downloader hears of.
-/

namespace EcwidDownloader

open Lib

namespace DownloaderSimple

/-- A downloader with the throttled socket it reads through. -/
abbrev Throttled (P : Type) := World TCPSocketBandwidth P

namespace Throttled

section

variable {P : Type} [HttpParser P]

/-- An event of the throttled socket comes to the downloader. -/
def publish (event : SocketEvent) (w : Throttled P) : Throttled P :=
  onSocketEvent event
    (if event = .endEvent then { w with owner.peerEnded := true } else w)

/-- The transfers a controller makes inside `shedule_transfer`. -/
def transfers (lengths : List Nat) (w : Throttled P) : Option (Throttled P) :=
  lengths.foldlM (fun w n => TCPSocketBandwidth.transfer publish n w) w

inductive Event
  /-- An event of the inner socket, and for a segment the transfers made before
  `shedule_transfer` returns. -/
  | inner (event : SocketEvent) (sync : List Nat)
  | transfer (length : Nat)
  /-- An event of the downloader other than those of its socket. -/
  | own (event : DownloaderSimple.Event)
  deriving DecidableEq

/-- One event, with how the operations started during it begin. A closed inner
socket has only its `CloseEvent` left, an open one has none to give. -/
def step (w : Throttled P) (e : Event × Faults) : Option (Throttled P) :=
  let w := { w with owner.faults := e.2 }
  match e.1 with
  | .inner event sync =>
      if w.sock.socket.closed = decide (event = .closeEvent) then
        TCPSocketBandwidth.innerEvent publish (transfers sync) event w
      else none
  | .transfer length => TCPSocketBandwidth.transfer publish length w
  | .own (.socket _) => none
  | .own event => handle event w

/-- A downloader whose `run()` has just returned true, on a socket that was just
made and given its buffer. -/
def Started (w : Throttled P) : Prop :=
  ∃ conn bufferMaxLength backlog uri fname resources fault,
    run uri fname resources fault
      { sock := (TCPSocketBandwidth.create conn).setBuffer bufferMaxLength
        owner := { backlog := backlog } } = (true, w)

/-- The runs of a downloader on a throttled socket. -/
abbrev Runs : Throttled P → List (Throttled P × Event × Faults) →
    Throttled P → Prop :=
  Run (Lib.Graph step)

end

/-- A downloader after `run("http://www.internet.org/", "f")`, with a buffer and
a backlog. -/
def begun (script : List (List Bytes × ResponseParseResult))
    (bufferMaxLength backlog : Nat) : Throttled (Scripted script) :=
  (run "http://www.internet.org/" "f" {} none
    { sock := (TCPSocketBandwidth.create 0).setBuffer bufferMaxLength
      owner := { backlog := backlog } }).2

theorem started_begun (script : List (List Bytes × ResponseParseResult))
    (bufferMaxLength backlog : Nat) :
    Started (begun script bufferMaxLength backlog) :=
  ⟨0, bufferMaxLength, backlog, "http://www.internet.org/", "f", {}, none, rfl⟩

/-- An event that starts nothing that fails. -/
def plainly (event : Event) : Event × Faults := (event, {})

/-- The events before the response. -/
def requested : List (Event × Faults) :=
  [plainly (.own (.resolver (.ok {}))), plainly (.inner .connectEvent []),
    plainly (.inner .writeEvent [])]

end Throttled

end DownloaderSimple

end EcwidDownloader
