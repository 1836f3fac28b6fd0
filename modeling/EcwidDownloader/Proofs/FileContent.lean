import EcwidDownloader.Proofs.DownloaderParked
import EcwidDownloader.Proofs.DownloaderSocket

/-!
# What the file holds

The bytes of the body are on disk up to `offset_file`, and the rest of them is
in the queue. In the phases of the file this is a matter of one equation, which
every write that is confirmed, in part or not at all, keeps. An error can be
followed by completions nobody listens for; they add to the file behind
`offset_file` and change nothing else.
-/

namespace EcwidDownloader

open Lib

namespace DownloaderSimple

variable {S P : Type}

/-- The file, the queue and the write in flight, by `offset_file`. -/
structure Placed (w : World S P) : Prop where
  written : w.owner.disk.content.take w.owner.offsetFile =
    w.owner.received.take w.owner.offsetFile
  reached : w.owner.offsetFile ≤ w.owner.disk.content.length
  rest : unread w.owner.buffer = w.owner.received.drop w.owner.offsetFile
  request : ∀ data offset, .write data offset ∈ w.owner.fileOps →
    offset = w.owner.offsetFile ∧ ∃ chunk queue,
      w.owner.buffer = chunk :: queue ∧ data = chunk.rest

/-- With what was counted, and with only the first chunk of the queue begun. -/
structure Faithful (w : World S P) : Prop extends Placed w where
  downloaded : w.owner.status.downloaded =
    w.owner.offsetFile + (unread w.owner.buffer).length
  begun : ∀ chunk ∈ w.owner.buffer.tail, chunk.offset = 0

/-- No failure has been reported. -/
def Unfailed (w : World S P) : Prop :=
  ∀ m ∈ w.owner.trace, (Mark.report m).state ≠ .failed

/-! ## The phases of the file -/

/-- The file is written up to `offset_file`, and goes on with the queue. -/
theorem Fil.Holds.whole {f : Fil} {w : World S P}
    (h : f.Holds (pipeline w)) :
    w.owner.offsetFile = w.owner.disk.content.length ∧
      w.owner.disk.content ++ unread w.owner.buffer = w.owner.received := by
  have hs := h.stored
  cases f with
  | none =>
      obtain ⟨-, hb, hr, hoff, hdisk⟩ := hs
      have hempty : w.owner.disk.content = [] := congrArg Disk.content hdisk
      have hb' : w.owner.buffer = [] := hb
      have hr' : w.owner.received = [] := hr
      exact ⟨by rw [hempty]; exact hoff, by rw [hempty, hb', hr']; rfl⟩
  | opening =>
      obtain ⟨-, -, hr, hoff, hdisk⟩ := hs
      have hempty : w.owner.disk.content = [] := congrArg Disk.content hdisk
      exact ⟨by rw [hempty]; exact hoff, by rw [hempty]; exact hr⟩
  | idle => exact ⟨hs.2.2.offset, hs.2.2.content⟩
  | writing =>
      obtain ⟨_, _, _, _, hwritten⟩ := hs
      exact ⟨hwritten.offset, hwritten.content⟩
  | closing => exact ⟨hs.2.2.offset, hs.2.2.content⟩
  | closed =>
      obtain ⟨-, hb, -, -, hcontent, hoff⟩ := hs
      have hb' : w.owner.buffer = [] := hb
      refine ⟨hoff, ?_⟩
      rw [hb', unread_nil, List.append_nil]
      exact hcontent

/-- The only write in flight is of the front chunk. -/
theorem Fil.Holds.request {f : Fil} {w : World S P}
    (h : f.Holds (pipeline w)) {data : Bytes} {offset : Nat}
    (hop : .write data offset ∈ w.owner.fileOps) :
    offset = w.owner.offsetFile ∧ ∃ chunk queue,
      w.owner.buffer = chunk :: queue ∧ data = chunk.rest := by
  obtain ⟨index, hop⟩ := List.getElem?_of_mem hop
  obtain ⟨hin, -⟩ := h.inFlight hop
  cases hin with
  | writing hb => exact ⟨rfl, _, _, hb, rfl⟩

theorem Fil.Holds.placed {f : Fil} {w : World S P}
    (h : f.Holds (pipeline w)) : Placed w := by
  obtain ⟨hoff, hwhole⟩ := h.whole
  refine ⟨?_, Nat.le_of_eq hoff, ?_, fun _ _ hop => h.request hop⟩
  · rw [hoff, ← hwhole]
    simp
  · rw [hoff, ← hwhole]
    simp

theorem Fil.Holds.exact {f : Fil} {w : World S P} (h : f.Holds (pipeline w)) :
    w.owner.disk.content = w.owner.received.take w.owner.offsetFile := by
  obtain ⟨hoff, hwhole⟩ := h.whole
  rw [hoff, ← hwhole]
  simp

theorem Placed.faithful {w : World S P} (h : Placed w)
    (he : (account w).Even) : Faithful w := by
  refine ⟨h, ?_, he.begun⟩
  have hcount : w.owner.status.downloaded = w.owner.received.length :=
    he.downloaded
  have hreached : w.owner.offsetFile ≤ w.owner.received.length := by
    have hlen := congrArg List.length h.written
    rw [List.length_take, List.length_take] at hlen
    have := h.reached
    omega
  rw [hcount, h.rest, List.length_drop]
  omega

/-! ## After a lapse -/

/-- What is asked of a download that an error has ended: unless it shows itself
as failed, it has nothing left but the listener that unlinks the file. -/
def Unheeded (w : World S P) : Prop :=
  w.owner.status.state ≠ .failed → Placed w ∧ ¬ Unfailed w ∧
    ∀ l ∈ w.owner.file.getD [], l = .unlinkClosed

theorem Disposing.placed {f : Fil} {w w' : World S P} (h : Disposing w w')
    (hf : f.Holds (pipeline w)) : Placed w' := by
  have hp := hf.placed
  have hbuffer : w'.owner.buffer = w.owner.buffer :=
    congrArg Stock.buffer h.stock
  have hreceived : w'.owner.received = w.owner.received :=
    congrArg Stock.received h.stock
  have hoffset : w'.owner.offsetFile = w.owner.offsetFile :=
    congrArg Stock.offset h.stock
  refine ⟨?_, ?_, ?_, fun data offset hop => ?_⟩
  · rw [h.disk, hoffset, hreceived]
    exact hp.written
  · rw [h.disk, hoffset]
    exact hp.reached
  · rw [hbuffer, hoffset, hreceived]
    exact hp.rest
  · rw [hbuffer, hoffset]
    exact hp.request data offset ((h.begun _ hop).resolve_right nofun)

variable [TCPSocket S]

theorem Lapsed.unheeded {f : Fil} {w : World S P} (h : Lapsed f w) :
    Unheeded w := by
  intro _
  obtain ⟨w₀, hf, hd⟩ := h.left
  obtain ⟨r, hr, hstate⟩ := h.failed
  exact ⟨hd.placed hf, fun hno => hno _ hr hstate, hd.silent⟩

omit [TCPSocket S] in
/-- A completion nobody listens for changes the file behind `offset_file`. -/
theorem Placed.apply {w : World S P} (h : Placed w) {op : FileOp}
    (hop : op ∈ w.owner.fileOps) (index size : Nat) (unlinked : Bool)
    (file : Handle FileListener) :
    Placed
      { completed index w with
        owner.disk := { op.apply size w.owner.disk with unlinked := unlinked }
        owner.file := file } := by
  have hkept : ∀ disk : Disk,
      disk.content.take w.owner.offsetFile =
        w.owner.disk.content.take w.owner.offsetFile →
      w.owner.offsetFile ≤ disk.content.length →
      Placed
        { completed index w with
          owner.disk := { disk with unlinked := unlinked }
          owner.file := file } := fun disk htake hlen =>
    ⟨htake.trans h.written, hlen, h.rest, fun data offset hop' =>
      h.request data offset (List.mem_of_mem_eraseIdx hop')⟩
  cases op with
  | openFile => exact hkept _ rfl h.reached
  | close => exact hkept _ rfl h.reached
  | write data offset =>
      obtain ⟨rfl, -⟩ := h.request data offset hop
      have hlen : (w.owner.disk.content.take w.owner.offsetFile).length =
          w.owner.offsetFile := by
        rw [List.length_take]
        exact Nat.min_eq_left h.reached
      refine hkept (w.owner.disk.write data w.owner.offsetFile size) ?_ ?_
      · show List.take _ (List.take _ _ ++ _ ++ _) = _
        rw [List.append_assoc]
        exact List.take_left' hlen
      · show _ ≤ (List.take _ _ ++ _ ++ _).length
        rw [List.append_assoc, List.length_append, hlen]
        omega

variable [HttpParser P]

theorem Unheeded.handled {w w' : World S P} {event : Event} (hc : Ceased w)
    (h : Unheeded w) (hw : Handled w event w') : Unheeded w' := by
  obtain ⟨-, hunseen⟩ := hc.handled hw
  intro hstate
  obtain ⟨hp, hfailed, hsilent⟩ := h (hunseen.state ▸ hstate)
  have hfailed' : ¬ Unfailed w' := by
    unfold Unfailed
    rw [hunseen.trace]
    exact hfailed
  cases hc.past.net.late (hw.not_stop hc.reported) hw with
  | unheard hunheard =>
      obtain ⟨hnet, -, -, resolver, socket, netTimer, timerArmed,
        peerEnded, rfl⟩ := hunheard
      exact ⟨⟨hp.written, hp.reached, hp.rest, hp.request⟩, hfailed', hsilent⟩
  | @fileFailed index op err hop =>
      rw [(hc.past.completed index).past.onFileError_eq] at hfailed' ⊢
      exact ⟨⟨hp.written, hp.reached, hp.rest, fun data offset hop' =>
        hp.request data offset (List.mem_of_mem_eraseIdx hop')⟩, hfailed',
        fun l hl => hsilent l (Handle.getD_clearKind hl)⟩
  | @fileDone index size op hop hsize =>
      rw [onFileDone_unlink (w := completed index w) op size
        fun l hl => hsilent l (Handle.mem_taken.mp hl).1] at hfailed' ⊢
      exact ⟨hp.apply (List.mem_of_getElem? hop) index size _ _, hfailed',
        fun l hl => hsilent l (Handle.getD_clearKind hl)⟩

/-! ## Every run -/

/-- Nothing is asked of the socket. -/
theorem abiding_true : Abiding fun _ : S => True :=
  ⟨⟨⟨fun _ _ => trivial⟩, fun _ _ => trivial, fun _ _ => trivial⟩,
    fun _ _ _ _ => trivial, fun _ _ _ _ => trivial, fun _ _ _ => trivial,
    fun _ _ => trivial⟩

/-- The file keeps its name, and the account stays even. -/
theorem account_step {w w' : World S P} {o : Occurrence S}
    (hs : Lib.Graph step w o w') :
    w'.owner.fname = w.owner.fname ∧
      ((account w).Even → (account w').Even) := by
  obtain ⟨event, sock, faults⟩ := o
  have hh : Handled (found w ⟨event, sock, faults⟩) event w' :=
    handled_of_handle hs
  by_cases hend : event = .socket .endEvent
  · subst hend
    cases hh with
    | ended =>
        have hw : Within (fun _ : S => True) _
            (onSocketEvent .endEvent
              { found w ⟨.socket .endEvent, sock, faults⟩ with
                owner.peerEnded := true }) := abiding_true.onSocketEvent _ _
        exact ⟨congrArg Prod.snd hw.stands, hw.even⟩
    | socket _ _ hne => exact absurd rfl hne
  · have hw := abiding_true.handled hh hend
    exact ⟨congrArg Prod.snd hw.stands, hw.even⟩

/-- What holds of the file in every state of every run. -/
structure Preserved (w : World S P) : Prop where
  lives : Lives Unheeded w
  even : (account w).Even

omit [HttpParser P] in
theorem Preserved.faithful {w : World S P} (h : Preserved w)
    (hstate : w.owner.status.state ≠ .failed) :
    Faithful w ∧ (Unfailed w →
      w.owner.disk.content = w.owner.received.take w.owner.offsetFile) := by
  cases h.lives with
  | alive _ ha => exact ⟨ha.pipe.placed.faithful h.even, fun _ => ha.pipe.exact⟩
  | parked hp => exact ⟨hp.pipe.placed.faithful h.even, fun _ => hp.pipe.exact⟩
  | ceased _ hu =>
      obtain ⟨hp, hfailed, -⟩ := hu hstate
      exact ⟨hp.faithful h.even, fun hno => absurd hno hfailed⟩

theorem Started.even {w : World S P} (h : Started w) : (account w).Even := by
  obtain ⟨sock, backlog, uri, fname, resources, fault, hrun⟩ := h
  obtain ⟨uriParsed, text, rfl⟩ := run_true hrun
  exact ⟨rfl, fun chunk hc => absurd hc List.not_mem_nil,
    fun name hn => absurd hn List.not_mem_nil⟩

theorem Started.preserved {w₀ w : World S P}
    {hist : List (World S P × Occurrence S)} (h₀ : Started w₀)
    (hr : Runs w₀ hist w) : Preserved w := by
  refine hr.invariant' Preserved ⟨h₀.lives, h₀.even⟩ fun w₁ o w₂ hI hs => ?_
  have hfound : Unheeded w₁ → Unheeded (found w₁ o) := fun hu hstate => by
    obtain ⟨hp, hrest⟩ := hu hstate
    exact ⟨⟨hp.written, hp.reached, hp.rest, hp.request⟩, hrest⟩
  exact ⟨hI.lives.step hs (fun _ hf _ _ hne => absurd hf hne)
    (fun _ hl => hl.unheeded) fun hc hu hh => (hfound hu).handled hc hh,
    (account_step hs).2 hI.even⟩

/-- In every state of every run of a downloader that does not show itself as
failed the file holds the first `offset_file` bytes of what was received, the
queue the rest, and a write in flight asks for the unwritten part of the front
chunk at `offset_file`. As long as no failure has been reported nothing else has
been written. -/
theorem file_content {w₀ w : World S P}
    {hist : List (World S P × Occurrence S)} (h₀ : Started w₀)
    (hr : Runs w₀ hist w) :
    ∀ x, Passes hist w x → x.owner.status.state ≠ .failed →
      Faithful x ∧ (Unfailed x →
        x.owner.disk.content = x.owner.received.take x.owner.offsetFile) := by
  intro x hx
  refine hr.always (C := fun _ _ => True) (P := fun x =>
    x.owner.status.state ≠ .failed → Faithful x ∧ (Unfailed x →
      x.owner.disk.content = x.owner.received.take x.owner.offsetFile))
    (fun _ _ => trivial) (fun hr' _ => ?_) hx
  exact (h₀.preserved hr').faithful

/-- Two chunks of the body, and the end of the response with the second. -/
def twoChunks : List (List Bytes × ResponseParseResult) :=
  [([[1, 2, 3]], { state := .inProgress, contentLength := 4 }),
    ([[4]], { state := .done, contentLength := 4 })]

/-- The second chunk comes between two partial writes of the first, the former
of no byte. -/
def inParts : List (Occurrence TCPSocketBandwidth) :=
  requested ++
    [plainly (.socket (.dataEvent [0])), plainly (.file 0 (.ok 0)),
      plainly (.file 0 (.ok 0)), plainly (.socket (.dataEvent [0])),
      plainly (.file 0 (.ok 2))]

/-- Then two bytes are on disk and two in the queue. -/
theorem file_content_inParts : ∃ hist w,
    Runs (begun twoChunks) hist w ∧ w.owner.offsetFile = 2 ∧
      w.owner.disk.content = [1, 2] ∧ unread w.owner.buffer = [3, 4] ∧
      Faithful w ∧ (Unfailed w →
        w.owner.disk.content = w.owner.received.take w.owner.offsetFile) := by
  obtain ⟨hist, w, hexec, hoff, hcontent, hrest, hstate⟩ : ∃ hist w,
      exec step (begun twoChunks) inParts = some (hist, w) ∧
        w.owner.offsetFile = 2 ∧ w.owner.disk.content = [1, 2] ∧
        unread w.owner.buffer = [3, 4] ∧ w.owner.status.state = .onTheGo :=
    ⟨_, _, rfl, rfl, rfl, rfl, rfl⟩
  exact ⟨hist, w, run_of_exec hexec, hoff, hcontent, hrest,
    file_content (started_begun twoChunks) (run_of_exec hexec) w .last
      (by rw [hstate]; exact nofun)⟩

end DownloaderSimple

end EcwidDownloader
