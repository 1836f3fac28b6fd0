import EcwidDownloader.Proofs.DownloaderParked

/-!
# The file a failed download leaves

An error closes the output file if the open has succeeded so far, and the end of
that close unlinks it. There are four ways for this to leave a file behind: the
open was still in flight and succeeds all the same, the close fails, in the call
or later, or `stop()` comes when the file has been closed already and only the
shutdown of the socket is outstanding.

In every run without these a download that has failed, and has nothing of its
file in flight, has created no file or has closed and unlinked it. A file that
it has not created is never unlinked.
-/

namespace EcwidDownloader

open Lib

namespace DownloaderSimple

variable {S P : Type}

/-- No file is left of a failed download, and none is unlinked that it has not
created. -/
structure Cleared (w : World S P) : Prop where
  left : w.owner.status.state = .failed → w.owner.fileOps = [] →
    w.owner.disk.created = false ∨
      w.owner.disk.closed = true ∧ w.owner.disk.unlinked = true
  own : w.owner.disk.unlinked = true → w.owner.disk.created = true

/-- The open succeeds when the download has failed. -/
def OpensLate (w : World S P) : Event → Prop
  | .file index (.ok _) =>
      w.owner.fileOps[index]? = some .openFile ∧
        w.owner.status.state = .failed
  | _ => False

/-- None of the ways to leave a file behind. -/
def Tidy [HttpParser P] (w : World S P) (o : Occurrence S) : Prop :=
  ¬ OpensLate (found w o) o.event ∧ Tended (found w o) o.event

/-! ## What an error has ended -/

/-- The listener that unlinks the file stands for a file of this download. -/
structure Entitled (w : World S P) : Prop where
  openned : w.owner.fileOpenned = true → w.owner.disk.created = true
  listening : .unlinkClosed ∈ w.owner.file.getD [] →
    w.owner.disk.created = true
  unlinked : w.owner.disk.unlinked = true → w.owner.disk.created = true

/-- What is asked of a download that an error has ended: that its file has been
seen to, or, when it does not show itself as failed, that it has the listener
for its own file only. -/
def SeenTo (w : World S P) : Prop :=
  w.owner.status.state = .failed ∧ Disposed w ∨
    w.owner.status.state ≠ .failed ∧ Entitled w ∧
      ∀ l ∈ w.owner.file.getD [], l = .unlinkClosed

theorem Fil.Holds.entitled {f : Fil} {w : World S P}
    (h : f.Holds (pipeline w)) : Entitled w := by
  have hfile : w.owner.file = f.file := h.file
  have hopen : w.owner.fileOpenned = f.openned := h.openned
  have hs := h.stored
  have hcreated : f ≠ .none → f ≠ .opening → w.owner.disk.created = true := by
    intro hne hne'
    cases f with
    | none => exact absurd rfl hne
    | opening => exact absurd rfl hne'
    | idle => exact hs.2.2.created
    | writing =>
        obtain ⟨_, _, _, _, hwritten⟩ := hs
        exact hwritten.created
    | closing => exact hs.2.2.created
    | closed => exact hs.2.2.1
  refine ⟨fun ho => ?_, fun hl => ?_, fun hu => ?_⟩
  · rw [hopen] at ho
    exact hcreated (by rintro rfl; cases ho) (by rintro rfl; cases ho)
  · rw [hfile] at hl
    cases f <;> simp [Fil.file] at hl
  · have hfresh : w.owner.disk = {} → False := fun hdisk => by
      rw [hdisk] at hu
      cases hu
    exact hcreated (by rintro rfl; exact hfresh hs.2.2.2.2)
      (by rintro rfl; exact hfresh hs.2.2.2.2)

theorem Disposing.entitled {w w' : World S P} (h : Disposing w w')
    (hw : Entitled w) : Entitled w' := by
  refine ⟨fun ho => ?_, fun hl => ?_, fun hu => ?_⟩
  · rw [h.disk]
    exact hw.openned (h.openned.symm.trans ho)
  · rw [h.disk]
    cases hopen : w.owner.fileOpenned with
    | true => exact hw.openned hopen
    | false =>
        rw [(h.letGo hopen).1] at hl
        exact absurd hl List.not_mem_nil
  · rw [h.disk] at hu ⊢
    exact hw.unlinked hu

theorem Disposed.cleared {w : World S P} (h : Disposed w) : Cleared w := by
  cases h with
  | never hcreated hunlinked _ _ =>
      exact ⟨fun _ _ => .inl hcreated, fun hu =>
        absurd (hunlinked.symm.trans hu) Bool.false_ne_true⟩
  | closing hcreated _ _ hclose =>
      refine ⟨fun _ hops => ?_, fun _ => hcreated⟩
      rw [hops] at hclose
      exact absurd hclose List.not_mem_nil
  | unlinked hcreated hclosed hunlinked =>
      exact ⟨fun _ _ => .inr ⟨hclosed, hunlinked⟩, fun _ => hcreated⟩

instance (w : World S P) : (event : Event) → Decidable (OpensLate w event)
  | .file _ (.ok _) => inferInstanceAs (Decidable (_ ∧ _))
  | .file _ (.error _) | .resolver _ | .socket _ | .timer | .stop =>
      inferInstanceAs (Decidable False)

instance (w : World S P) : (event : Event) → Decidable (ClosesBadly w event)
  | .file _ (.error _) => inferInstanceAs (Decidable (_ ∧ (_ ∨ _) ∧ _ ∧ _))
  | .file _ (.ok _) | .resolver _ | .socket _ | .timer | .stop =>
      inferInstanceAs (Decidable False)

instance (k : Nat) (w : World S P) : Decidable (Spared k w) :=
  inferInstanceAs (Decidable (_ ∨ _))

instance (w : World S P) (event : Event) : Decidable (StopsLate w event) :=
  inferInstanceAs (Decidable (_ ∧ _))

instance [HttpParser P] (w : World S P) (event : Event) :
    Decidable (Tended w event) :=
  decidable_of_iff
    (Spared (place w event) (during w event) ∧ ¬ ClosesBadly w event ∧
      ¬ StopsLate w event)
    ⟨fun h => ⟨h.1, h.2.1, h.2.2⟩, fun h => ⟨h.spared, h.closes, h.early⟩⟩

variable [TCPSocket S]

theorem Lapsed.seenTo {f : Fil} {w : World S P} (h : Lapsed f w) :
    SeenTo w := by
  obtain ⟨w₀, hf, hd⟩ := h.left
  exact .inr ⟨by rw [h.state]; exact nofun, hd.entitled hf.entitled, hd.silent⟩

/-! ## What follows -/

omit [TCPSocket S] in
/-- One operation of several has completed. -/
theorem mem_completed {w : World S P} {index : Nat} {op op' : FileOp}
    (hop : w.owner.fileOps[index]? = some op) (hne : op' ≠ op)
    (hmem : op' ∈ w.owner.fileOps) :
    op' ∈ (completed index w).owner.fileOps := by
  obtain ⟨i, hi⟩ := List.getElem?_of_mem hmem
  refine List.mem_eraseIdx_iff_getElem?.mpr ⟨i, ?_, hi⟩
  rintro rfl
  exact hne (Option.some.inj (hi.symm.trans hop))

/-- The end of a write that a failure has left to go on starts the next. -/
theorem Over.hoardsWritten {w : World S P} (h : Over w)
    (hr : w.owner.receiveDone = false) (size : Nat) :
    Hoarding w (DownloaderSimple.runFileListener size w .written) := by
  simp only [DownloaderSimple.runFileListener]
  split
  · exact ⟨rfl, rfl, fun _ hop => hop, id⟩
  · next chunk queue _ =>
      have hmoved : ∀ (offset : Nat) (buffer : List DataChunk),
          Hoarding w (DownloaderSimple.onWrite
            { w with owner.offsetFile := offset, owner.buffer := buffer }) := by
        intro offset buffer
        have hover : Over
            { w with owner.offsetFile := offset, owner.buffer := buffer } :=
          ⟨h.net.congr, h.file⟩
        have hwrites := hover.hoardsWrite hr
        exact ⟨hwrites.openned, hwrites.disk, hwrites.ops, hwrites.unlink⟩
      exact hmoved _ _

theorem Over.hoardsWrittens (size : Nat) : ∀ {ls : List FileListener}
    {w : World S P}, Over w →
    (∀ l ∈ ls, l = .written ∧ w.owner.receiveDone = false) →
    Hoarding w (ls.foldl (DownloaderSimple.runFileListener size) w)
  | [], w, _, _ => .refl w
  | l :: ls, w, h, hls => by
      obtain ⟨rfl, hr⟩ := hls l List.mem_cons_self
      have hpass := h.runFileListener size (l := .written) (.inr ⟨rfl, hr⟩)
      refine (h.hoardsWritten hr size).trans
        (hoardsWrittens size hpass.past fun l' hl' => ?_)
      obtain ⟨rfl, hr'⟩ := hls l' (List.mem_cons_of_mem _ hl')
      exact ⟨rfl, hpass.unseen.receiveDone.trans hr'⟩

section

variable {w : World S P}

/-- The world in which the listeners of a completion run. -/
def applied (op : FileOp) (index size : Nat) (w : World S P) : World S P :=
  { completed index w with
    owner.disk := op.apply size w.owner.disk
    owner.file := w.owner.file.clearKind op.kind }

omit [TCPSocket S] in
theorem Disposed.applied_write (h : Disposed w) {index : Nat} {data : Bytes}
    {offset : Nat} (size : Nat)
    (hop : w.owner.fileOps[index]? = some (.write data offset)) :
    Disposed (applied (.write data offset) index size w) := by
  cases h with
  | never hcreated hunlinked hopen hfile =>
      exact .never hcreated hunlinked hopen (Handle.clearKind_of_silent hfile)
  | closing hcreated hclosed hlisten hclose =>
      exact .closing hcreated hclosed
        (Handle.unlink_clearKind nofun hlisten)
        (mem_completed hop nofun hclose)
  | unlinked hcreated hclosed hunlinked =>
      exact .unlinked hcreated hclosed hunlinked

/-- A write completes: with nothing created it is not heard, and otherwise
whatever it starts leaves the close on its way. -/
theorem Disposed.written (h : Disposed w) (hover : Over w) {index size : Nat}
    {data : Bytes} {offset : Nat}
    (hop : w.owner.fileOps[index]? = some (.write data offset)) :
    Disposed (onFileDone (.write data offset) size (completed index w)) := by
  have happlied := h.applied_write size hop
  have hover' : Over (applied (.write data offset) index size w) :=
    ⟨hover.net.congr, fun l hl => hover.file l (Handle.getD_clearKind hl)⟩
  have hwrittens : ∀ l ∈ w.owner.file.taken .fileWrite,
      l = .written ∧ w.owner.receiveDone = false := by
    intro l hl
    obtain ⟨hl, hk⟩ := Handle.mem_taken.mp hl
    exact (hover.file l hl).resolve_left (by rintro rfl; cases hk)
  have hhoards : Hoarding (applied (.write data offset) index size w)
      (onFileDone (.write data offset) size (completed index w)) :=
    hover'.hoardsWrittens size hwrittens
  cases h with
  | never hcreated hunlinked hopen hfile =>
      have hnone : w.owner.file.taken .fileWrite = [] :=
        Handle.taken_of_silent hfile
      have heq : onFileDone (.write data offset) size (completed index w) =
          applied (.write data offset) index size w := by
        show List.foldl _ (applied (.write data offset) index size w)
          (w.owner.file.taken .fileWrite) = _
        rw [hnone]
        rfl
      rw [heq]
      exact happlied
  | closing hcreated => exact hhoards.disposed happlied (.inr hcreated)
  | unlinked hcreated => exact hhoards.disposed happlied (.inr hcreated)

/-- A close completes: if there is a file it is unlinked. -/
theorem Disposed.closed (h : Disposed w) (hover : Over w) (index size : Nat) :
    Disposed (onFileDone .close size (completed index w)) := by
  have hunlinks : ∀ l ∈ w.owner.file.taken .fileClose, l = .unlinkClosed := by
    intro l hl
    obtain ⟨hl, hk⟩ := Handle.mem_taken.mp hl
    exact (hover.file l hl).resolve_right (by rintro ⟨rfl, -⟩; cases hk)
  rw [onFileDone_unlink (w := completed index w) .close size hunlinks]
  cases h with
  | never hcreated hunlinked hopen hfile =>
      refine .never hcreated ?_ hopen (Handle.clearKind_of_silent hfile)
      show (w.owner.disk.unlinked || !(w.owner.file.taken .fileClose).isEmpty) =
        false
      rw [hunlinked, Handle.taken_of_silent hfile]
      rfl
  | closing hcreated _ hlisten _ =>
      refine .unlinked hcreated rfl ?_
      show (w.owner.disk.unlinked || !(w.owner.file.taken .fileClose).isEmpty) =
        true
      have htaken : .unlinkClosed ∈ w.owner.file.taken .fileClose :=
        Handle.mem_taken.mpr ⟨hlisten, rfl⟩
      cases hls : w.owner.file.taken .fileClose with
      | nil => rw [hls] at htaken; cases htaken
      | cons l ls => simp
  | unlinked hcreated _ hunlinked =>
      refine .unlinked hcreated rfl ?_
      show (w.owner.disk.unlinked || _) = true
      rw [hunlinked]
      rfl

/-- A failure of the file is not heard any more. -/
theorem Disposed.failed (h : Disposed w) (hover : Over w) {index : Nat}
    {op : FileOp} (hop : w.owner.fileOps[index]? = some op) (err : ErrorEvent)
    (hclose : op = .close → w.owner.disk.closed = false →
      FileOp.close ∈ (completed index w).owner.fileOps) :
    Disposed (onFileError err (completed index w)) := by
  rw [(hover.completed index).past.onFileError_eq]
  cases h with
  | never hcreated hunlinked hopen hfile =>
      exact .never hcreated hunlinked hopen (Handle.clearKind_of_silent hfile)
  | closing hcreated hclosed hlisten hmem =>
      refine .closing hcreated hclosed
        (Handle.unlink_clearKind (by decide) hlisten) ?_
      by_cases hc : op = .close
      · exact hclose hc hclosed
      · exact mem_completed hop (Ne.symm hc) hmem
  | unlinked hcreated hclosed hunlinked =>
      exact .unlinked hcreated hclosed hunlinked

variable [HttpParser P]

/-- Nothing that happens to a failed download without leaving a file behind
takes its disposal back. -/
theorem Disposed.handled {w' : World S P} {event : Event} (h : Disposed w)
    (hc : Ceased w) (hstate : w.owner.status.state = .failed)
    (hlate : ¬ OpensLate w event) (hbad : ¬ ClosesBadly w event)
    (hw : Handled w event w') : Disposed w' := by
  cases hc.past.net.late (hw.not_stop hc.reported) hw with
  | unheard hunheard =>
      obtain ⟨hnet, -, -, resolver, socket, netTimer, timerArmed,
        peerEnded, rfl⟩ := hunheard
      cases h with
      | never h₁ h₂ h₃ h₄ => exact .never h₁ h₂ h₃ h₄
      | closing h₁ h₂ h₃ h₄ => exact .closing h₁ h₂ h₃ h₄
      | unlinked h₁ h₂ h₃ => exact .unlinked h₁ h₂ h₃
  | fileFailed err hop =>
      refine h.failed hc.past hop err fun hclose hclosed => ?_
      subst hclose
      by_contra hlast
      exact hbad ⟨hop, .inr hstate, hclosed, hlast⟩
  | @fileDone index size op hop hsize =>
      cases op with
      | openFile => exact absurd ⟨hop, hstate⟩ hlate
      | write data offset => exact h.written hc.past hop
      | close => exact h.closed hc.past index size

omit [HttpParser P] in
theorem FileOp.apply_created (op : FileOp) (size : Nat) {disk : Disk}
    (h : disk.created = true) : (op.apply size disk).created = true := by
  cases op with
  | openFile => rfl
  | write data offset => exact h
  | close => exact h

omit [HttpParser P] in
theorem FileOp.apply_unlinked (op : FileOp) (size : Nat) (disk : Disk) :
    (op.apply size disk).unlinked = disk.unlinked := by
  cases op <;> rfl

/-- A download that does not show itself as failed only unlinks. -/
theorem Entitled.handled {w' : World S P} {event : Event} (h : Entitled w)
    (hsilent : ∀ l ∈ w.owner.file.getD [], l = .unlinkClosed) (hc : Ceased w)
    (hw : Handled w event w') :
    Entitled w' ∧ ∀ l ∈ w'.owner.file.getD [], l = .unlinkClosed := by
  cases hc.past.net.late (hw.not_stop hc.reported) hw with
  | unheard hunheard =>
      obtain ⟨hnet, -, -, resolver, socket, netTimer, timerArmed,
        peerEnded, rfl⟩ := hunheard
      exact ⟨⟨h.openned, h.listening, h.unlinked⟩, hsilent⟩
  | @fileFailed index op err hop =>
      rw [(hc.past.completed index).past.onFileError_eq]
      exact ⟨⟨h.openned, fun hl => h.listening (Handle.getD_clearKind hl),
        h.unlinked⟩, fun l hl => hsilent l (Handle.getD_clearKind hl)⟩
  | @fileDone index size op hop hsize =>
      rw [onFileDone_unlink (w := completed index w) op size
        fun l hl => hsilent l (Handle.mem_taken.mp hl).1]
      refine ⟨⟨fun ho => FileOp.apply_created op size (h.openned ho), fun hl =>
        FileOp.apply_created op size (h.listening (Handle.getD_clearKind hl)),
        fun hu => FileOp.apply_created op size ?_⟩,
        fun l hl => hsilent l (Handle.getD_clearKind hl)⟩
      have hu' : ((op.apply size w.owner.disk).unlinked ||
          !(w.owner.file.taken op.kind).isEmpty) = true := hu
      rw [FileOp.apply_unlinked, Bool.or_eq_true] at hu'
      rcases hu' with hu' | htaken
      · exact h.unlinked hu'
      · cases hls : w.owner.file.taken op.kind with
        | nil => rw [hls] at htaken; cases htaken
        | cons l ls =>
            have hl : l ∈ w.owner.file.taken op.kind := by
              rw [hls]
              exact List.mem_cons_self
            have hmem := (Handle.mem_taken.mp hl).1
            obtain rfl := hsilent l hmem
            exact h.listening hmem

theorem SeenTo.handled {w' : World S P} {event : Event} (h : SeenTo w)
    (hc : Ceased w) (hlate : ¬ OpensLate w event)
    (hbad : ¬ ClosesBadly w event) (hw : Handled w event w') : SeenTo w' := by
  obtain ⟨-, hunseen⟩ := hc.handled hw
  rcases h with ⟨hstate, hd⟩ | ⟨hstate, he, hsilent⟩
  · exact .inl ⟨hunseen.state.trans hstate,
      hd.handled hc hstate hlate hbad hw⟩
  · exact .inr ⟨hunseen.state.symm ▸ hstate, he.handled hsilent hc hw⟩

omit [HttpParser P] in
theorem Lives.cleared (h : Lives SeenTo w) : Cleared w := by
  cases h with
  | alive _ ha =>
      refine ⟨fun hf => ?_, ha.pipe.entitled.unlinked⟩
      cases ha.online.state.symm.trans hf
  | parked hp =>
      refine ⟨fun hf => ?_, hp.pipe.entitled.unlinked⟩
      rcases hp.state with hs | hs <;> cases hs.symm.trans hf
  | ceased _ hseen =>
      rcases hseen with ⟨_, hd⟩ | ⟨hstate, he, _⟩
      · exact hd.cleared
      · exact ⟨fun hf => absurd hf hstate, he.unlinked⟩

end

variable [HttpParser P]

/-- In a tidy run of a downloader no state shows a failed download with nothing
of its file in flight and a file left behind, or a file unlinked that the
download has not created. -/
theorem leftover_file {w₀ w : World S P}
    {hist : List (World S P × Occurrence S)} (h₀ : Started w₀)
    (hr : Runs w₀ hist w) (hC : Meets Tidy hist) :
    ∀ x, Passes hist w x → Cleared x := by
  intro x hx
  refine hr.always hC (fun hr' hC' => ?_) hx
  refine (hr'.invariant (Lives SeenTo) hC' h₀.lives ?_).cleared
  intro w₁ o w₂ hI ho hs
  have hfound : SeenTo w₁ → SeenTo (found w₁ o) := by
    rintro (⟨hstate, hd⟩ | ⟨hstate, he, hsilent⟩)
    · refine .inl ⟨hstate, ?_⟩
      cases hd with
      | never h₁ h₂ h₃ h₄ => exact .never h₁ h₂ h₃ h₄
      | closing h₁ h₂ h₃ h₄ => exact .closing h₁ h₂ h₃ h₄
      | unlinked h₁ h₂ h₃ => exact .unlinked h₁ h₂ h₃
    · exact .inr ⟨hstate, ⟨he.openned, he.listening, he.unlinked⟩, hsilent⟩
  exact hI.step hs (fun _ hstate hd _ => .inl ⟨hstate, hd ho.2⟩)
    (fun _ hl => hl.seenTo) fun hc hseen hh =>
      (hfound hseen).handled hc ho.1 ho.2.closes hh

/-- The open of the file is in flight when `stop()` is called, and succeeds. -/
def stoppedOpening : List (Occurrence TCPSocketBandwidth) :=
  requested ++
    [plainly (.socket (.dataEvent oneByte)), plainly .stop,
      plainly (.file 0 (.ok 0))]

/-- The file it has created stays. -/
theorem leftover_file_opening :
    ¬ ∀ (w₀ w : World TCPSocketBandwidth (Scripted oneSegment))
      (hist : List (World TCPSocketBandwidth (Scripted oneSegment) ×
        Occurrence TCPSocketBandwidth)), Started w₀ → Runs w₀ hist w →
      ∀ x, Passes hist w x → Cleared x := by
  intro hall
  obtain ⟨hist, w, hexec, hstate, hops, hcreated, hclosed⟩ : ∃ hist w,
      exec step (begun oneSegment) stoppedOpening = some (hist, w) ∧
        w.owner.status.state = .failed ∧ w.owner.fileOps = [] ∧
        w.owner.disk.created = true ∧ w.owner.disk.closed = false :=
    ⟨_, _, rfl, rfl, rfl, rfl, rfl⟩
  have hcleared := hall _ w hist (started_begun oneSegment)
    (run_of_exec hexec) w .last
  rcases hcleared.left hstate hops with hno | ⟨hyes, -⟩
  · exact Bool.false_ne_true (hno.symm.trans hcreated)
  · exact Bool.false_ne_true (hclosed.symm.trans hyes)

/-- The file is open and being written when `stop()` is called; the write is
cancelled, and the close of the file succeeds. -/
def stoppedWriting : List (Occurrence TCPSocketBandwidth) :=
  requested ++
    [plainly (.socket (.dataEvent oneByte)), plainly (.file 0 (.ok 0)),
      plainly .stop, plainly (.file 0 (.error { code := -125, what := "" })),
      plainly (.file 0 (.ok 0))]

/-- The file it has created is unlinked. -/
theorem leftover_file_writing : ∃ hist w,
    Runs (begun oneSegment) hist w ∧ w.owner.status.state = .failed ∧
      w.owner.fileOps = [] ∧ w.owner.disk.created = true ∧
      w.owner.disk.unlinked = true ∧ ∀ x, Passes hist w x → Cleared x := by
  obtain ⟨hist, w, hexec, hstate, hops, hcreated, hunlinked, hC⟩ : ∃ hist w,
      exec step (begun oneSegment) stoppedWriting = some (hist, w) ∧
        w.owner.status.state = .failed ∧ w.owner.fileOps = [] ∧
        w.owner.disk.created = true ∧ w.owner.disk.unlinked = true ∧
        Meets Tidy hist :=
    ⟨_, _, rfl, rfl, rfl, rfl, rfl, by
      unfold Meets Tidy
      decide⟩
  exact ⟨hist, w, run_of_exec hexec, hstate, hops, hcreated, hunlinked,
    leftover_file (started_begun oneSegment) (run_of_exec hexec) hC⟩

end DownloaderSimple

end EcwidDownloader
