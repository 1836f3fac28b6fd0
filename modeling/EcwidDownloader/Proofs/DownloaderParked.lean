import EcwidDownloader.Proofs.DownloaderSteps

/-!
# A download after its report

Two kinds of download live on after a final report. One has let go of its
handles, because of an error: it has `Ceased`, and keeps its state. The other has
reported Done or a redirection while its file was still at work: it is `Parked`.
Its file goes through its phases as before, and an error of the file is one more
failure of the download.
-/

namespace EcwidDownloader

open Lib

namespace DownloaderSimple

variable {S P : Type}

/-- A download that an error has ended. -/
structure Ceased (w : World S P) : Prop where
  past : Over w
  failed : ∃ r, .invoked r ∈ w.owner.trace ∧ r.state = .failed

/-- A download that has reported its end without an error. -/
structure Retired (w : World S P) : Prop where
  net : NetSilent w
  state : w.owner.status.state = .done ∨ w.owner.status.state = .redirect
  reported : w.owner.trace.any Mark.reportsFinal = true

structure Parked (f : Fil) (w : World S P) : Prop extends Retired w where
  pipe : f.Holds (pipeline w)

theorem Ceased.reported {w : World S P} (h : Ceased w) :
    w.owner.trace.any Mark.reportsFinal = true :=
  reported_failed h.failed

theorem Failed.ceased {w : World S P} (h : Failed w) : Ceased w := by
  obtain ⟨before, r, -, hr, ht⟩ := h.trace
  refine ⟨h.past, r, ?_, hr⟩
  rw [ht]
  simp

theorem Lapsed.ceased [TCPSocket S] {f : Fil} {w : World S P} (h : Lapsed f w) :
    Ceased w :=
  ⟨h.past, h.failed⟩

theorem Reported.parked {state : State} {f : Fil} {w : World S P}
    (h : Reported state f w) (hs : state = .done ∨ state = .redirect) :
    Parked f w := by
  obtain ⟨before, -, ht⟩ := h.trace
  have hfinal : (report w).state = state := h.state
  refine ⟨⟨h.net, h.state.symm ▸ hs, ?_⟩, h.pipe⟩
  rw [ht, List.any_append, Bool.or_eq_true]
  refine .inr ?_
  rcases hs with rfl | rfl <;>
    simp [Mark.reportsFinal, Report.final, State.final, hfinal]

theorem NetSilent.of_line {w w' : World S P} (h : NetSilent w)
    (hline : line w' = line w) : NetSilent w' :=
  h.congr (congrArg Line.resolver hline) (congrArg Line.socket hline)
    (congrArg Line.netTimer hline)

theorem Retired.of_line {w w' : World S P} (h : Retired w)
    (hline : line w' = line w)
    (hstate : w'.owner.status.state = w.owner.status.state)
    (htrace : w'.owner.trace = w.owner.trace) : Retired w' :=
  ⟨h.net.of_line hline, hstate ▸ h.state, htrace ▸ h.reported⟩

variable [TCPSocket S]

theorem Failing.ceased {w w' : World S P} (h : Failing w w') : Ceased w' := by
  refine ⟨h.past, failedReport w, ?_, rfl⟩
  rw [h.trace]
  simp

/-- What the file of a parked download can come to, `k` file operations coming
before the close an error calls for. -/
inductive Goes (k : Nat) (w w' : World S P) : Prop
  | parked {f : Fil} : Parked f w' → Goes k w w'
  | failed : Ceased w' → w'.owner.status.state = .failed →
      (Spared k w → Disposed w') → Rested w' → Goes k w w'

theorem Writes.goes {f : Fil} {w w' : World S P} (h : Writes f w w')
    (hw : Retired w) : Goes (preceding w.owner.buffer) w w' := by
  cases h with
  | begun hline hstate htrace _ _ hpipe =>
      exact .parked ⟨hw.of_line hline hstate htrace, hpipe⟩
  | failed _ _ hf _ hd hrest => exact .failed hf.ceased hf.state hd hrest

/-- With nothing to write the file of a parked download is idle. -/
theorem onWrite_parked {w : World S P} (h : Retired w)
    (hp : (pipeline w).Ready) (hb : w.owner.buffer = [])
    (hr : w.owner.receiveDone = false) : Parked .idle (onWrite w) := by
  have hidle : ∀ w' : World S P, Retired w' →
      pipeline w' = { pipeline w with started := false } →
      Parked .idle w' := by
    intro w' h' hpipe
    refine ⟨h', ?_⟩
    rw [hpipe]
    exact ⟨hp.file, hp.openned, rfl, ⟨hp.ops, hb, ⟨hp.written.created,
      hp.written.closed, hp.written.offset, hp.written.content⟩⟩, hp.calls⟩
  have hrest : NetSilent { w with owner.fileOperationStarted := false } :=
    h.net.congr
  unfold onWrite
  rw [hb]
  simp only []
  rw [if_neg (by rw [hr]; exact Bool.false_ne_true)]
  split
  · next hsome =>
      split
      · rcases socketCall_cases TCPSocket.read
          (w := { w with owner.fileOperationStarted := false }) hsome with
          hc | ⟨err, hc⟩
        · rw [hc]
          exact hidle _ ⟨hrest.congr, h.state, h.reported⟩ rfl
        · have hread : NetSilent
              { w with
                sock := TCPSocket.read w.sock
                owner.fileOperationStarted := false
                owner.faults.socket := w.owner.faults.socket.tail } :=
            h.net.congr
          rw [hc, hread.onSocketError]
          exact hidle _ ⟨⟨hrest.resolver,
            Handle.clearKind_of_silent hrest.socket, hrest.netTimer⟩, h.state,
            h.reported⟩ rfl
      · exact hidle _ ⟨hrest, h.state, h.reported⟩ rfl
  · exact hidle _ ⟨hrest.congr, h.state, h.reported⟩ rfl

theorem Resumed.goes {queue : List DataChunk} {w w' : World S P}
    (h : Resumed queue w w') (hw : Retired w) :
    Goes (preceding queue) w (onWrite w') := by
  have h' : Retired w' := hw.of_line h.line h.state h.trace
  have hgoes : ∀ {f : Fil}, Writes f w' (onWrite w') →
      Goes (preceding queue) w (onWrite w') := fun hwrites => by
    cases hwrites.goes h' with
    | parked hpark => exact .parked hpark
    | failed hc hs hd hrest =>
        refine .failed hc hs (fun hspared => hd ?_) hrest
        rw [h.buffer]
        exact hspared.of_eq h.faults h.ops
  cases queue with
  | cons chunk queue => exact hgoes (onWrite_chunk h.ready h.buffer)
  | nil =>
      cases hr : w'.owner.receiveDone with
      | true => exact hgoes (onWrite_last h.ready h.buffer hr)
      | false => exact .parked (onWrite_parked h' h.ready h.buffer hr)

/-! ## Steps -/

section

variable {f : Fil} {w : World S P}

omit [TCPSocket S] in
theorem Retired.completed (h : Retired w) (index : Nat) :
    Retired (completed index w) :=
  ⟨h.net.congr, h.state, h.reported⟩

/-- The success of a file operation. -/
theorem Parked.fileDone (h : Parked f w) {index size : Nat} {op : FileOp}
    (hop : w.owner.fileOps[index]? = some op) (hsize : size ≤ op.size) :
    Goes (FileOp.starts size w op) (DownloaderSimple.completed index w)
      (onFileDone op size (DownloaderSimple.completed index w)) := by
  obtain ⟨hin, hops⟩ := h.pipe.inFlight hop
  have hretired := h.toRetired.completed index
  cases hin with
  | opening =>
      obtain ⟨hne, w', heq, hresumed⟩ :=
        onFileDone_opened h.pipe index size hops
      rw [heq, FileOp.starts_openFile hne]
      exact hresumed.goes hretired
  | writing hb =>
      obtain ⟨w', heq, hresumed⟩ :=
        onFileDone_written h.pipe index hb hsize hops
      rw [heq, FileOp.starts_write hb]
      exact hresumed.goes hretired
  | closing =>
      obtain ⟨w', heq, hbeside, hclosed⟩ :=
        onFileDone_closed h.pipe index size hops
      have h' := hretired.of_line hbeside.line hbeside.state hbeside.trace
      rw [heq]
      split
      · refine .parked (f := .closed) ⟨⟨h'.net.congr, .inl rfl, ?_⟩, hclosed⟩
        show List.any ((w'.owner.trace ++ [_]) ++ [_]) _ = true
        simp [h'.reported]
      · exact .parked ⟨h', hclosed⟩

/-- The failure of a file operation is one of the download. -/
theorem Parked.fileFailed (h : Parked f w) {index : Nat} {op : FileOp}
    (hop : w.owner.fileOps[index]? = some op) (err : ErrorEvent) :
    Ceased (onFileError err (DownloaderSimple.completed index w)) ∧
      (onFileError err
        (DownloaderSimple.completed index w)).owner.status.state = .failed ∧
      (op ≠ .close → Spared 0 (DownloaderSimple.completed index w) →
        Disposed (onFileError err (DownloaderSimple.completed index w))) := by
  obtain ⟨l, hl, hdispose⟩ := h.pipe.listens_error hop
  obtain ⟨w₁, -, -, hf, hd⟩ := onFileError_failing err hl
  refine ⟨hf.ceased, hf.state, fun hne hspared => ?_⟩
  obtain ⟨hne', hdisposed⟩ := hdispose hne
  exact hdisposed _ (hd hne').2 hspared

variable [HttpParser P]

/-- After a final report nobody calls `stop()`. -/
theorem Handled.not_stop {w' : World S P} {event : Event}
    (h : Handled w event w')
    (hreported : w.owner.trace.any Mark.reportsFinal = true) :
    event ≠ .stop := by
  rintro rfl
  cases h with
  | stop hno => exact hno hreported

theorem Ceased.handled {w' : World S P} {event : Event} (h : Ceased w)
    (hw : Handled w event w') : Ceased w' ∧ Unseen w w' := by
  have hpass := h.past.handled (hw.not_stop h.reported) hw
  exact ⟨⟨hpass.past, hpass.unseen.trace ▸ h.failed⟩, hpass.unseen⟩

/-- What any event makes of a parked download. -/
inductive Parking (w : World S P) (event : Event) (w' : World S P) : Prop
  | parked {f : Fil} : Parked f w' → Parking w event w'
  | failed : Ceased w' → w'.owner.status.state = .failed →
      (Tended w event → Disposed w') → Rested w' → Parking w event w'

theorem Parked.handled {w' : World S P} {event : Event} (h : Parked f w)
    (hw : Handled w event w') : Parking w event w' := by
  cases h.net.late (hw.not_stop h.reported) hw with
  | unheard hunheard =>
      obtain ⟨hnet, -, -, resolver, socket, netTimer, timerArmed,
        peerEnded, rfl⟩ := hunheard
      exact .parked ⟨⟨hnet, h.state, h.reported⟩, h.pipe⟩
  | fileFailed err hop =>
      obtain ⟨hc, hs, hd⟩ := h.fileFailed hop err
      refine .failed hc hs (fun ht => hd ?_ ht.spared) (h.pipe.rested hop err)
      rintro rfl
      obtain ⟨hlisten, hclosed, hlast⟩ := h.pipe.lastClose hop
      exact ht.closes ⟨hop, .inl hlisten, hclosed, hlast⟩
  | fileDone hop hsize =>
      cases h.fileDone hop hsize with
      | parked hpark => exact .parked hpark
      | failed hc hs hd hrest =>
          refine .failed hc hs (fun ht => hd ?_) hrest
          have hspared := ht.spared
          simp only [place, hop] at hspared
          exact hspared

end

/-! ## Whole lives -/

variable [HttpParser P]

/-- The three conditions a download can be in, and what is asked of one that an
error has ended. -/
inductive Lives (I : World S P → Prop) (w : World S P) : Prop
  | alive {n : Net} {f : Fil} : n.settled = true →
      Alive (anything S) n f w → Lives I w
  | parked {f : Fil} : Parked f w → Lives I w
  | ceased : Ceased w → I w → Lives I w

omit [HttpParser P] [TCPSocket S] in
theorem Ceased.found {w : World S P} (h : Ceased w) (o : Occurrence S) :
    Ceased (found w o) :=
  ⟨⟨h.past.net.congr, h.past.file⟩, h.failed⟩

/-- Three things are left to show of what is asked of a download that an error
has ended: that the error leads to it, that a read timeout that cannot be armed
does, and that it lasts. -/
theorem Lives.step {I : World S P → Prop} {w w' : World S P}
    {o : Occurrence S} (h : Lives I w) (hs : Lib.Graph step w o w')
    (hfails : Ceased w' → w'.owner.status.state = .failed →
      (Tended (found w o) o.event → Disposed w') →
      (Frugal (found w o) o.event → Rested w') → I w')
    (hlapses : ∀ {f : Fil}, (f = .idle → LapsesIdle (found w o) o.event) →
      Lapsed f w' → I w')
    (hkeeps : Ceased (found w o) → I w → Handled (found w o) o.event w' →
      I w') : Lives I w' := by
  have hh : Handled (DownloaderSimple.found w o) o.event w' :=
    handled_of_handle hs
  cases h with
  | alive hn ha =>
      cases (ha.found trivial).step hn hh (fun _ => trivial)
        (fun _ _ _ _ hstall => hstall.2.2.2 trivial) with
      | alive hn' ha' => exact .alive hn' ha'
      | failed hf hd hrest =>
          exact .ceased hf.ceased (hfails hf.ceased hf.state hd hrest)
      | lapsed _ hl hidle => exact .ceased hl.ceased (hlapses hidle hl)
      | closed hr => exact .parked (hr.parked (.inl rfl))
      | shutDown cb _ _ _ _ _ hr =>
          refine .parked (hr.parked ?_)
          cases cb with
          | reportDone => exact .inl rfl
          | reportRedirect => exact .inr rfl
  | parked hp =>
      have hfound : Parked _ (DownloaderSimple.found w o) :=
        ⟨⟨hp.net.congr, hp.state, hp.reported⟩, hp.pipe⟩
      cases hfound.handled hh with
      | parked hp' => exact .parked hp'
      | failed hc hstate hd hrest =>
          exact .ceased hc (hfails hc hstate hd fun _ => hrest)
  | ceased hc hI =>
      have hfound := hc.found o
      exact .ceased (hfound.handled hh).1 (hkeeps hfound hI hh)

theorem Started.lives {I : World S P → Prop} {w : World S P}
    (h : Started w) : Lives I w :=
  .alive rfl (started_alive h)

end DownloaderSimple

end EcwidDownloader
