import Mathlib.Algebra.Group.Nat.Defs
import EcwidDownloader.Proofs.DownloaderAfter

/-!
# A finished download and its open file

The file is closed from `on_write` alone, once the response is complete and the
queue is empty. `on_write` is entered from a completion of the file, or from
`on_data` when the file is idle; so an end of the response that brings no chunk,
and finds the file open and idle, leaves nobody to enter it. `EndsUnfed` is that
event, and every run without it keeps the file at work until the download ends.
-/

namespace EcwidDownloader

open Lib

namespace DownloaderSimple

variable {S P : Type}

/-- A write of the file or its close. -/
def FileOp.finishing : FileOp → Bool
  | .write _ _ | .close => true
  | .openFile => false

/-- A complete response whose file is open and whose status is not final has a
write or the close of the file in flight. -/
def Finishing (w : World S P) : Prop :=
  w.owner.receiveDone = true → w.owner.fileOpenned = true →
    w.owner.status.state.final = false →
    ∃ op ∈ w.owner.fileOps, FileOp.finishing op = true

/-- The response does not end with the file open, idle and unfed. -/
def FeedsEnd [HttpParser P] (w : World S P) (o : Occurrence S) : Prop :=
  ¬ EndsUnfed w o.event

instance [HttpParser P] (w : World S P) (event : Event) :
    Decidable (EndsUnfed w event) :=
  inferInstanceAs (Decidable (_ ∧ _ ∧ ∃ r, parsed w event = some r ∧ _ ∧ _))

variable [TCPSocket S]

/-- A complete response must not find its file idle. -/
def servedFile (S : Type) [TCPSocket S] : Demands S where
  flows _ := True
  stuck := False
  read _ := trivial

/-- Nothing is kept of the socket, nor of the listeners of the file. -/
def unwatched (S : Type) [TCPSocket S] : Leaving S where
  left _ := True
  watched := False
  close _ := trivial
  read _ _ := trivial

theorem Alive.finishing {n : Net} {f : Fil} {w : World S P}
    (h : Alive (servedFile S) n f w) : Finishing w := by
  intro hdone hopen _
  have hdone' : n.done = true := h.online.line.receiveDone.symm.trans hdone
  have hopen' : f.openned = true := h.pipe.openned.symm.trans hopen
  have hops : (pipeline w).ops = w.owner.fileOps := rfl
  cases f with
  | idle => exact (h.stuck hdone' rfl).elim
  | writing =>
      obtain ⟨chunk, queue, -, hop, -⟩ := h.pipe.stored
      rw [← hops, hop]
      exact ⟨_, List.mem_singleton_self _, rfl⟩
  | closing =>
      rw [← hops, h.pipe.stored.1]
      exact ⟨_, List.mem_singleton_self _, rfl⟩
  | none => cases hopen'
  | opening => cases hopen'
  | closed => cases hopen'

theorem Adrift.finishing {w : World S P} (h : Adrift (unwatched S) w) :
    Finishing w := by
  intro hdone _ hnot
  rcases h.ended with hfinal | ⟨hr, -⟩
  · exact absurd (hnot.symm.trans hfinal) Bool.false_ne_true
  · exact absurd (hr.symm.trans hdone) Bool.false_ne_true

/-- What holds in every state of a run that feeds the end. -/
def Finished (w : World S P) : Prop :=
  (∃ n f, n.settled = true ∧ Alive (servedFile S) n f w) ∨
    Adrift (unwatched S) w

theorem Finished.found {w : World S P} (h : Finished w) (o : Occurrence S) :
    Finished (found w o) := by
  rcases h with ⟨n, f, hn, ha⟩ | ha
  · exact .inl ⟨n, f, hn, ha.found trivial⟩
  · exact .inr (ha.found trivial)

variable [HttpParser P]

theorem Finished.step {w w' : World S P} {o : Occurrence S}
    (h : Finished w) (ho : FeedsEnd w o)
    (hs : Lib.Graph DownloaderSimple.step w o w') : Finished w' := by
  have hh : Handled (DownloaderSimple.found w o) o.event w' :=
    handled_of_handle hs
  rcases h.found o with ⟨n, f, hn, ha⟩ | ha
  · cases ha.step hn hh (fun he => ho he)
      (fun _ _ _ _ hstall => hstall.2.2.2 trivial) with
    | alive hn' ha' => exact .inl ⟨_, _, hn', ha'⟩
    | failed hf _ => exact .inr hf.adrift
    | lapsed _ hl => exact .inr hl.adrift
    | closed hr => exact .inr (hr.adrift rfl fun hw => hw.elim)
    | shutDown cb _ _ _ _ _ hr =>
        exact .inr (hr.adrift (by cases cb <;> rfl) fun hw => hw.elim)
  · exact .inr (ha.handled hh)

/-- The end of the response that nobody acts on. -/
theorem Finished.unfed {w w' : World S P} {o : Occurrence S}
    (h : Finished w) (ho : ¬ FeedsEnd w o)
    (hs : Lib.Graph DownloaderSimple.step w o w') : ¬ Finishing w' := by
  have hh : Handled (DownloaderSimple.found w o) o.event w' :=
    handled_of_handle hs
  obtain ⟨hopen, hstart, r, hr, hnil, hres⟩ := not_not.mp ho
  rcases h.found o with ⟨n, f, hn, ha⟩ | ha
  · obtain rfl : f = .idle := by
      have hopen' : f.openned = true := ha.pipe.openned.symm.trans hopen
      have hstart' : f.started = false := ha.pipe.started.symm.trans hstart
      cases f with
      | idle => rfl
      | writing => cases hstart'
      | closing => cases hstart'
      | none => cases hopen'
      | opening => cases hopen'
      | closed => cases hopen'
    obtain ⟨hread, hparser, -, hparsed, rfl⟩ :=
      ha.reads_of_parsed hn hh hr
    obtain rfl := Option.some.inj (hparsed.symm.trans hr)
    have hstuck := onRead_done_nil hread.unasked hparser hnil hres
      fun _ => trivial
    intro hfin
    obtain ⟨op, hop, -⟩ := hfin hstuck.online.line.receiveDone
      hstuck.pipe.openned (by rw [hstuck.online.state]; rfl)
    have hops : (onRead _ _).owner.fileOps = [] := hstuck.pipe.stored.1
    rw [hops] at hop
    exact absurd hop List.not_mem_nil
  · cases (ha.net.parsed o.event).symm.trans hr

/-- In a run of a downloader every complete response with an open file has a
write or the close of the file in flight until the status is final, exactly when
no response ends with the file open, idle and unfed. -/
theorem finished_file_closing_iff {w₀ w : World S P}
    {hist : List (World S P × Occurrence S)} (h₀ : Started w₀)
    (hr : Runs w₀ hist w) :
    (∀ x, Passes hist w x → Finishing x) ↔ Meets FeedsEnd hist := by
  have hinv : ∀ {hist' t'}, Runs w₀ hist' t' → Meets FeedsEnd hist' →
      Finished t' := fun hr' hC => hr'.invariant Finished hC
    (.inl ⟨.resolving, .none, rfl, started_alive h₀⟩)
    fun w₁ o w₂ hI ho hs => hI.step ho hs
  refine hr.always_iff (fun hr' hC => ?_) fun hr' hC hs ho =>
    (hinv hr' hC).unfed ho hs
  rcases hinv hr' hC with ⟨n, f, -, ha⟩ | ha
  · exact ha.finishing
  · exact ha.finishing

/-- `Transfer-Encoding: chunked` and the end of the headers. -/
def chunkedLine : Bytes :=
  [84, 114, 97, 110, 115, 102, 101, 114, 45, 69, 110, 99, 111, 100, 105,
    110, 103, 58, 32, 99, 104, 117, 110, 107, 101, 100, 13, 10, 13, 10]

/-- The first segment of a chunked response, with one chunk of one byte. -/
def firstChunk : Bytes :=
  statusLine ++ chunkedLine ++ [49, 13, 10, 120, 13, 10]

/-- The last chunk marker comes in a segment of its own. -/
def markerAlone : List (List Bytes × ResponseParseResult) :=
  [([[120]], { state := .inProgress, contentLength := 2 ^ 64 - 1 }),
    ([], { state := .done, contentLength := 2 ^ 64 - 1 })]

/-- The body has been written when the marker arrives. -/
def writtenBefore : List (Occurrence TCPSocketBandwidth) :=
  requested ++
    [plainly (.socket (.dataEvent firstChunk)),
      plainly (.file 0 (.ok 0)), plainly (.file 0 (.ok 1)),
      plainly (.socket (.dataEvent [48, 13, 10, 13, 10]))]

/-- Then nothing closes the file. -/
theorem finished_file_left :
    ¬ ∀ (w₀ w : World TCPSocketBandwidth (Scripted markerAlone))
      (hist : List (World TCPSocketBandwidth (Scripted markerAlone) ×
        Occurrence TCPSocketBandwidth)), Started w₀ → Runs w₀ hist w →
      ∀ x, Passes hist w x → Finishing x := by
  intro hall
  obtain ⟨hist, w, hexec, hdone, hopen, hstate, hops⟩ : ∃ hist w,
      exec step (begun markerAlone) writtenBefore = some (hist, w) ∧
        w.owner.receiveDone = true ∧ w.owner.fileOpenned = true ∧
        w.owner.status.state.final = false ∧ w.owner.fileOps = [] :=
    ⟨_, _, rfl, rfl, rfl, rfl, rfl⟩
  obtain ⟨op, hop, -⟩ := hall _ w hist (started_begun markerAlone)
    (run_of_exec hexec) w .last hdone hopen hstate
  rw [hops] at hop
  exact absurd hop List.not_mem_nil

/-- The body is still being written when the marker arrives. -/
def writtenAfter : List (Occurrence TCPSocketBandwidth) :=
  requested ++
    [plainly (.socket (.dataEvent firstChunk)),
      plainly (.file 0 (.ok 0)),
      plainly (.socket (.dataEvent [48, 13, 10, 13, 10])),
      plainly (.file 0 (.ok 1))]

/-- Then the completion of the write closes it. -/
theorem finished_file_closed : ∃ hist w, Runs (begun markerAlone) hist w ∧
    w.owner.fileOps = [.close] ∧ ∀ x, Passes hist w x → Finishing x := by
  obtain ⟨hist, w, hexec, hops, hC⟩ : ∃ hist w,
      exec step (begun markerAlone) writtenAfter = some (hist, w) ∧
        w.owner.fileOps = [.close] ∧ Meets FeedsEnd hist :=
    ⟨_, _, rfl, rfl, by
      unfold Meets FeedsEnd
      decide⟩
  exact ⟨hist, w, run_of_exec hexec, hops,
    (finished_file_closing_iff (started_begun markerAlone)
      (run_of_exec hexec)).mpr hC⟩

end DownloaderSimple

end EcwidDownloader
