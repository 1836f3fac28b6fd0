import EcwidDownloader.Proofs.DownloaderParked

/-!
# One file operation at a time

The one `FileReq` of a download is asked for the open, the writes and the close
from `on_data`, from the completions of the file and from `terminate_handles`,
and two flags stand for what it is doing. `fileCalls` records every call with
what the request had in flight; the phases of a download and what an error
leaves of its file say how that record can look. A call finds the request idle,
and the close is the last call. `terminate_handles` is the exception: it calls
for the close right after `cancel()`, which leaves a write in flight until its
completion arrives.

Three events lead out of this, each by a slip. `stop()` closes a file that is
being closed a second time; a chunk that follows a refused write in the same
parse is written to a file that is being closed; and an idle file is closed
behind a status of a download that goes on, when the read timeout cannot be
armed.
-/

namespace EcwidDownloader

open Lib

namespace DownloaderSimple

variable {S P : Type}

/-- The calls of the file have been made one at a time, but for the close of a
download that has failed. -/
structure OneByOne (w : World S P) : Prop where
  alone : ∀ call ∈ w.owner.fileCalls, call.inFlight = [] ∨
    call.op = .close ∧ (∃ data offset, call.inFlight = [.write data offset]) ∧
      ∃ r, .invoked r ∈ w.owner.trace ∧ r.state = .failed
  /-- At most one call is the close, and none comes after it. -/
  last : ∀ call ∈ w.owner.fileCalls.dropLast, call.op ≠ .close
  started : w.owner.status.state.final = false → w.owner.fileOps ≠ [] →
    w.owner.fileOperationStarted = true

/-! ## The record of the calls -/

theorem Closes.found {ops : List FileOp} {calls : List FileCall}
    (h : Closes ops calls) :
    ∀ call ∈ calls, call.inFlight = [] ∨ call = ⟨.close, ops⟩ := by
  obtain ⟨before, hbefore, rfl⟩ := h
  intro call hcall
  rcases List.mem_append.mp hcall with hcall | hcall
  · exact .inl (hbefore call hcall).1
  · exact .inr (List.mem_singleton.mp hcall)

/-- In the phases of the file every call has found it idle. -/
theorem Fil.Called.alone {f : Fil} {calls : List FileCall}
    (h : f.Called calls) : ∀ call ∈ calls, call.inFlight = [] := by
  have hclose (hc : Closes [] calls) : ∀ call ∈ calls, call.inFlight = [] := by
    intro call hcall
    rcases hc.found call hcall with hidle | rfl
    · exact hidle
    · rfl
  cases f with
  | closing => exact hclose h
  | closed => exact hclose h
  | _ => exact fun call hcall => (h call hcall).1

theorem Spent.alone {calls : List FileCall} (h : Spent calls) :
    ∀ call ∈ calls, call.inFlight = [] ∨ call.op = .close ∧
      ∃ data offset, call.inFlight = [.write data offset] := by
  intro call hcall
  rcases h with hturn | ⟨ops, hops, hclose⟩
  · exact .inl (hturn call hcall).1
  · rcases hclose.found call hcall with hidle | rfl
    · exact .inl hidle
    · exact hops.imp id fun hwrite => ⟨rfl, hwrite⟩

theorem Spent.last {calls : List FileCall} (h : Spent calls) :
    ∀ call ∈ calls.dropLast, call.op ≠ .close := by
  intro call hcall
  rcases h with hturn | ⟨ops, -, before, hbefore, rfl⟩
  · exact (hturn call (List.dropLast_subset _ hcall)).2
  · rw [List.dropLast_concat] at hcall
    exact (hbefore call hcall).2

theorem Fil.Holds.oneByOne {f : Fil} {w : World S P}
    (h : f.Holds (pipeline w)) : OneByOne w := by
  refine ⟨fun call hcall => .inl (h.calls.alone call hcall), h.calls.spent.last,
    fun _ hops => ?_⟩
  have hs := h.stored
  rw [show w.owner.fileOperationStarted = f.started from h.started]
  cases f with
  | none => exact absurd hs.1 hops
  | idle => exact absurd hs.1 hops
  | closed => exact absurd hs.1 hops
  | _ => rfl

/-! ## After a failure -/

/-- A failed download makes no more calls, and one that shows another state is
not idle while its file has something in flight. -/
structure Dropped (w : World S P) : Prop where
  rested : Rested w
  started : w.owner.status.state.final = false → w.owner.fileOps ≠ [] →
    w.owner.fileOperationStarted = true

theorem Dropped.oneByOne {w : World S P} (h : Dropped w) (hc : Ceased w) :
    OneByOne w := by
  refine ⟨fun call hcall => ?_, h.rested.calls.last, h.started⟩
  rcases h.rested.calls.alone call hcall with hidle | ⟨hclose, hwrite⟩
  · exact .inl hidle
  · exact .inr ⟨hclose, hwrite, hc.failed⟩

section

variable [TCPSocket S]

/-- A read timeout that cannot be armed ends a download like any other error,
and leaves it the flag. -/
theorem Lapsed.dropped {f : Fil} {w : World S P} (h : Lapsed f w)
    (hidle : f ≠ .idle) : Dropped w := by
  obtain ⟨w₀, hpipe, hd⟩ := h.left
  have hopen : w₀.owner.fileOpenned = f.openned := hpipe.openned
  have hs := hpipe.stored
  refine ⟨h.rested, fun _ hops => ?_⟩
  have hnone : f.openned = false → w₀.owner.fileOps = [] → f.started = true :=
    fun ho hnil => absurd ((hd.letGo (hopen.trans ho)).2.trans hnil) hops
  rw [h.started]
  cases f with
  | none => exact hnone rfl hs.1
  | closed => exact hnone rfl hs.1
  | idle => exact absurd rfl hidle
  | _ => rfl

variable [HttpParser P]

/-- What is left in flight comes to its end unheard. -/
theorem Dropped.handled {w w' : World S P} {event : Event} (h : Dropped w)
    (hc : Ceased w) (hw : Handled w event w') : Dropped w' := by
  have hops : ∀ index, (completed index w).owner.fileOps ≠ [] →
      w.owner.fileOps ≠ [] := by
    intro index hne hnil
    refine hne ?_
    show w.owner.fileOps.eraseIdx index = []
    rw [hnil]
    rfl
  cases hc.past.net.late (hw.not_stop hc.reported) hw with
  | unheard hunheard =>
      obtain ⟨-, -, -, _, _, _, _, _, rfl⟩ := hunheard
      exact ⟨⟨h.rested.silent, h.rested.calls⟩, h.started⟩
  | @fileFailed index op err _ =>
      rw [(hc.past.completed index).past.onFileError_eq err]
      exact ⟨⟨fun l hl => h.rested.silent l (Handle.getD_clearKind hl),
        h.rested.calls⟩, fun hstate hne => h.started hstate (hops index hne)⟩
  | @fileDone index size op _ _ =>
      rw [onFileDone_unlink (w := completed index w) op size fun l hl =>
        h.rested.silent l (Handle.mem_taken.mp hl).1]
      exact ⟨⟨fun l hl => h.rested.silent l (Handle.getD_clearKind hl),
        h.rested.calls⟩, fun hstate hne => h.started hstate (hops index hne)⟩

/-! ## Runs -/

omit [HttpParser P] in
theorem Lives.oneByOne {w : World S P} (h : Lives Dropped w) : OneByOne w := by
  cases h with
  | alive _ ha => exact ha.pipe.oneByOne
  | parked hp => exact hp.pipe.oneByOne
  | ceased hc hd => exact hd.oneByOne hc

end

/-- An event that keeps the calls of the file in their order. -/
def Steady [HttpParser P] (w : World S P) (o : Occurrence S) : Prop :=
  Frugal (found w o) o.event ∧ ¬ LapsesIdle (found w o) o.event

/-- In every run, whatever the order of data, completions, errors and `stop()`,
the calls of the file are made one at a time. -/
theorem operations_one_by_one [TCPSocket S] [HttpParser P] {w₀ w : World S P}
    {hist : List (World S P × Occurrence S)} (h₀ : Started w₀)
    (hr : Runs w₀ hist w) (hC : Meets Steady hist) :
    ∀ x, Passes hist w x → OneByOne x := by
  intro x hx
  refine hr.always hC (fun hr' hC' => ?_) hx
  refine (hr'.invariant (Lives Dropped) hC' h₀.lives ?_).oneByOne
  intro w₁ o w₂ hI ho hs
  refine hI.step hs (fun _ hstate _ hrest => ⟨hrest ho.1, ?_⟩)
    (fun hidle hl => hl.dropped fun hf => ho.2 (hidle hf))
    fun hc hd hh => Dropped.handled ?_ hc hh
  · rw [hstate]
    exact nofun
  · exact ⟨⟨hd.rested.silent, hd.rested.calls⟩, hd.started⟩

instance [HttpParser P] (w : World S P) (event : Event) :
    Decidable (Overruns w event) :=
  inferInstanceAs
    (Decidable (_ ∧ _ ∧ _ ∧ ∃ r, parsed w event = some r ∧ _))

instance [HttpParser P] (w : World S P) (event : Event) :
    Decidable (LapsesIdle w event) :=
  inferInstanceAs
    (Decidable (_ ∧ _ ∧ _ ∧ ∃ r, parsed w event = some r ∧ _ ∧ _))

instance (w : World S P) (event : Event) : Decidable (StopsClosing w event) :=
  inferInstanceAs (Decidable (_ ∧ _))

instance [HttpParser P] (w : World S P) (event : Event) :
    Decidable (Frugal w event) :=
  decidable_of_iff (¬ Overruns w event ∧ ¬ StopsClosing w event)
    ⟨fun h => ⟨h.1, h.2⟩, fun h => ⟨h.single, h.early⟩⟩

/-- The byte of the response is being written when `stop()` is called. -/
def stoppedMidway : List (Occurrence TCPSocketBandwidth) :=
  requested ++
    [plainly (.socket (.dataEvent oneByte)), plainly (.file 0 (.ok 0)),
      plainly .stop]

/-- What the file is asked for then. -/
def midwayCalls : List FileCall :=
  [⟨.openFile, []⟩, ⟨.write [120] 0, []⟩, ⟨.close, [.write [120] 0]⟩]

/-- The write ends after the close has been called for, and both are heard of no
more. -/
theorem operations_one_by_one_midway : ∃ hist w,
    Runs (begun oneSegment) hist w ∧ w.owner.fileCalls = midwayCalls ∧
      w.owner.fileOps = [] ∧ ∀ x, Passes hist w x → OneByOne x := by
  obtain ⟨hist, w, hexec, hcalls, hops, hC⟩ : ∃ hist w,
      exec step (begun oneSegment) (stoppedMidway ++
        [plainly (.file 0 (.error { code := -125, what := "" })),
          plainly (.file 0 (.ok 0))]) = some (hist, w) ∧
        w.owner.fileCalls = midwayCalls ∧ w.owner.fileOps = [] ∧
        Meets Steady hist :=
    ⟨_, _, rfl, rfl, rfl, by
      unfold Meets Steady
      decide⟩
  exact ⟨hist, w, run_of_exec hexec, hcalls, hops,
    operations_one_by_one (started_begun oneSegment) (run_of_exec hexec) hC⟩

/-- The close is called for while the write is in flight. -/
theorem operations_overlap :
    ¬ ∀ (w₀ w : World TCPSocketBandwidth (Scripted oneSegment))
      (hist : List (World TCPSocketBandwidth (Scripted oneSegment) ×
        Occurrence TCPSocketBandwidth)), Started w₀ → Runs w₀ hist w →
      ∀ x, Passes hist w x → ∀ call ∈ x.owner.fileCalls,
        call.inFlight = [] := by
  intro hall
  obtain ⟨hist, w, hexec, hcalls⟩ : ∃ hist w,
      exec step (begun oneSegment) stoppedMidway = some (hist, w) ∧
        w.owner.fileCalls = midwayCalls := ⟨_, _, rfl, rfl⟩
  have hidle := hall _ w hist (started_begun oneSegment) (run_of_exec hexec) w
    .last
  rw [hcalls] at hidle
  have hclose := hidle ⟨.close, [.write [120] 0]⟩ (by simp [midwayCalls])
  cases hclose

end DownloaderSimple

end EcwidDownloader
