import EcwidDownloader.Proofs.DownloaderEnd

/-!
# The file of a download that has failed

An error closes the output file if it is open, and leaves the listener that
unlinks it. From then on three things can be true of the file: it was never
created, its close is on the way, or it has been unlinked; `Disposed` is their
disjunction. Nothing a failed download still does takes that back.
-/

namespace EcwidDownloader

open Lib

namespace DownloaderSimple

variable {S P : Type}

/-- A failed download leaves no file behind. -/
inductive Disposed (w : World S P) : Prop
  | never : w.owner.disk.created = false → w.owner.disk.unlinked = false →
      w.owner.fileOpenned = false → w.owner.file.getD [] = [] → Disposed w
  | closing : w.owner.disk.created = true → w.owner.disk.closed = false →
      .unlinkClosed ∈ w.owner.file.getD [] → FileOp.close ∈ w.owner.fileOps →
      Disposed w
  | unlinked : w.owner.disk.created = true → w.owner.disk.closed = true →
      w.owner.disk.unlinked = true → Disposed w

/-- The file operation that `k` others precede raises no error, or a close is in
flight already. -/
def Spared (k : Nat) (w : World S P) : Prop :=
  w.owner.faults.file[k]?.join = none ∨ FileOp.close ∈ w.owner.fileOps

theorem Spared.of_eq {k : Nat} {w w' : World S P} (h : Spared k w)
    (hfaults : w'.owner.faults = w.owner.faults)
    (hops : w'.owner.fileOps = w.owner.fileOps) : Spared k w' := by
  unfold Spared
  rw [hfaults, hops]
  exact h

theorem Disposing.never {w w' : World S P} (h : Disposing w w')
    (hopen : w.owner.fileOpenned = false) (hdisk : w.owner.disk = {}) :
    Disposed w' := by
  refine .never ?_ ?_ (h.openned.trans hopen) (h.letGo hopen).1
  · rw [h.disk, hdisk]
  · rw [h.disk, hdisk]

theorem Disposing.disposed {w w' : World S P} (h : Disposing w w')
    (hopen : w.owner.fileOpenned = true) (hfile : w.owner.file.isSome = true)
    (hcreated : w.owner.disk.created = true)
    (hclosed : w.owner.disk.closed = false) (hspared : Spared 0 w) :
    Disposed w' := by
  obtain ⟨hlisten, hclose⟩ := h.closing hopen hfile
  refine .closing (h.disk ▸ hcreated) (h.disk ▸ hclosed) hlisten ?_
  rcases hspared with hno | hclosing
  · exact hclose (by rw [List.head?_eq_getElem?]; exact hno)
  · exact h.ops _ hclosing

/-! ## The calls it has made -/

/-- Calls of a file that is not being closed, each made when the one before has
come to its end. -/
def InTurn (calls : List FileCall) : Prop :=
  ∀ call ∈ calls, call.inFlight = [] ∧ call.op ≠ .close

theorem InTurn.snoc {calls : List FileCall} (h : InTurn calls) {op : FileOp}
    (hop : op ≠ .close) {ops : List FileOp} (hops : ops = []) :
    InTurn (calls ++ [⟨op, ops⟩]) := by
  intro call hcall
  rcases List.mem_append.mp hcall with hcall | hcall
  · exact h call hcall
  · obtain rfl := List.mem_singleton.mp hcall
    exact ⟨hops, hop⟩

/-- Calls in turn, and then the close, with some operations in flight. -/
def Closes (ops : List FileOp) (calls : List FileCall) : Prop :=
  ∃ before, InTurn before ∧ calls = before ++ [⟨.close, ops⟩]

theorem InTurn.closes {calls : List FileCall} (h : InTurn calls)
    (ops : List FileOp) : Closes ops (calls ++ [⟨.close, ops⟩]) :=
  ⟨calls, h, rfl⟩

/-- At most a write is in flight. -/
def Writing (ops : List FileOp) : Prop :=
  ops = [] ∨ ∃ data offset, ops = [.write data offset]

/-- The calls of a file that gets no more of them: the last may have been the
close, which an error does not put off until a write has come to its end. -/
def Spent (calls : List FileCall) : Prop :=
  InTurn calls ∨ ∃ ops, Writing ops ∧ Closes ops calls

/-- The file of a download that makes no more calls. -/
structure Rested (w : World S P) : Prop where
  silent : ∀ l ∈ w.owner.file.getD [], l = .unlinkClosed
  calls : Spent w.owner.fileCalls

/-- An error has no close to call for when the file is not open. -/
theorem Disposing.rests {w w' : World S P} (h : Disposing w w')
    (hopen : w.owner.file.isSome = true → w.owner.fileOpenned = false)
    (hcalls : Spent w.owner.fileCalls) : Rested w' := by
  refine ⟨h.silent, ?_⟩
  rw [h.calls, if_neg, List.append_nil]
  · exact hcalls
  · intro hboth
    obtain ⟨hsome, ho⟩ := Bool.and_eq_true_iff.mp hboth
    exact absurd ((hopen hsome).symm.trans ho) Bool.false_ne_true

/-- Otherwise the close is the last call. -/
theorem Disposing.rested {w w' : World S P} (h : Disposing w w')
    (hcalls : InTurn w.owner.fileCalls) (hops : Writing w.owner.fileOps) :
    Rested w' := by
  refine ⟨h.silent, ?_⟩
  rw [h.calls]
  split
  · exact .inr ⟨_, hops, hcalls.closes _⟩
  · rw [List.append_nil]
    exact .inl hcalls

/-! ## Nothing takes it back -/

/-- What the calls of a download that is over leave of its file. -/
structure Hoarding (w w' : World S P) : Prop where
  openned : w'.owner.fileOpenned = w.owner.fileOpenned
  disk : w'.owner.disk = w.owner.disk
  ops : ∀ op ∈ w.owner.fileOps, op ∈ w'.owner.fileOps
  unlink : .unlinkClosed ∈ w.owner.file.getD [] →
    .unlinkClosed ∈ w'.owner.file.getD []

theorem Hoarding.refl (w : World S P) : Hoarding w w :=
  ⟨rfl, rfl, fun _ h => h, id⟩

theorem Hoarding.trans {w₁ w₂ w₃ : World S P} (h : Hoarding w₁ w₂)
    (h' : Hoarding w₂ w₃) : Hoarding w₁ w₃ :=
  ⟨h'.openned.trans h.openned, h'.disk.trans h.disk,
    fun op hop => h'.ops op (h.ops op hop), h'.unlink ∘ h.unlink⟩

/-- Unless nothing was ever created. -/
theorem Hoarding.disposed {w w' : World S P} (h : Hoarding w w')
    (hd : Disposed w)
    (hfile : w.owner.fileOpenned = true ∨ w.owner.disk.created = true) :
    Disposed w' := by
  cases hd with
  | never hno _ hno' _ =>
      rcases hfile with hopen | hcreated
      · exact absurd (hno'.symm.trans hopen) Bool.false_ne_true
      · exact absurd (hno.symm.trans hcreated) Bool.false_ne_true
  | closing hcreated hclosed hlisten hclose =>
      exact .closing (h.disk ▸ hcreated) (h.disk ▸ hclosed) (h.unlink hlisten)
        (h.ops _ hclose)
  | unlinked hcreated hclosed hunlinked =>
      exact .unlinked (h.disk ▸ hcreated) (h.disk ▸ hclosed)
        (h.disk ▸ hunlinked)

theorem Handle.unlink_clearKind {h : Handle FileListener} {k : EventKind}
    (hk : k ≠ .fileClose) (hl : .unlinkClosed ∈ h.getD []) :
    .unlinkClosed ∈ (h.clearKind k).getD [] := by
  cases h with
  | none => exact hl
  | some ls =>
      refine List.mem_filter.mpr ⟨hl, ?_⟩
      simpa [Listens.kind] using Ne.symm hk

theorem Handle.mem_once {L : Type} [Listens L EventKind] {h : Handle L}
    {l l' : L} (hl : l ∈ h.getD []) : l ∈ (h.once l').getD [] := by
  cases h with
  | none => exact absurd hl List.not_mem_nil
  | some ls => exact List.mem_append_left _ hl

theorem hoarding_beginFile (op : FileOp) (w : World S P) :
    Hoarding w (beginFile op w).2 := by
  unfold beginFile
  cases w.owner.faults.file.head?.join with
  | none => exact ⟨rfl, rfl, fun _ h => List.mem_append_left _ h, id⟩
  | some err => exact ⟨rfl, rfl, fun _ h => h, id⟩

variable [TCPSocket S]

theorem Over.onFileError_eq {w : World S P} (h : Over w) (err : ErrorEvent) :
    DownloaderSimple.onFileError err w =
      { w with owner.file := w.owner.file.clearKind .error } := by
  unfold DownloaderSimple.onFileError
  rw [h.file.taken_error]
  rfl

theorem Over.hoardsFileCall {w : World S P} (h : Over w) (op : FileOp) :
    Hoarding w (DownloaderSimple.fileCall op w) := by
  have hbegun := hoarding_beginFile op w
  obtain ⟨ops, hops⟩ := beginFile_snd op w
  unfold DownloaderSimple.fileCall
  split
  · next err w₁ heq =>
      rw [heq] at hbegun hops
      dsimp only at hbegun hops
      have hover : Over w₁ := by
        rw [hops]
        exact ⟨h.net.congr, h.file⟩
      rw [hover.onFileError_eq]
      exact hbegun.trans ⟨rfl, rfl, fun _ hop => hop,
        Handle.unlink_clearKind (by decide)⟩
  · next w₁ heq =>
      rw [heq] at hbegun
      exact hbegun

theorem NetSilent.hoardsSocketCall {w : World S P} (h : NetSilent w)
    (call : S → S) : Hoarding w (DownloaderSimple.socketCall call w) := by
  unfold DownloaderSimple.socketCall
  split
  · have hbegun : NetSilent (beginSocket call w).2 :=
      h.congr
    split
    · next err w₁ heq =>
        rw [heq] at hbegun
        rw [hbegun.onSocketError]
        obtain rfl : _ = w₁ := congrArg Prod.snd heq
        exact ⟨rfl, rfl, fun _ hop => hop, id⟩
    · next w₁ heq =>
        obtain rfl : _ = w₁ := congrArg Prod.snd heq
        exact ⟨rfl, rfl, fun _ hop => hop, id⟩
  · exact ⟨rfl, rfl, fun _ hop => hop, id⟩

theorem Over.hoardsWrite {w : World S P} (h : Over w)
    (hr : w.owner.receiveDone = false) : Hoarding w (DownloaderSimple.onWrite w) := by
  unfold DownloaderSimple.onWrite
  split
  · rw [if_neg (by rw [hr]; exact Bool.false_ne_true)]
    simp only []
    split
    · split
      · have hsilent : NetSilent
            { w with owner.fileOperationStarted := false } :=
          h.net.congr
        have hidle : Hoarding w
            { w with owner.fileOperationStarted := false } :=
          ⟨rfl, rfl, fun _ hop => hop, id⟩
        exact hidle.trans (hsilent.hoardsSocketCall _)
      · exact ⟨rfl, rfl, fun _ hop => hop, id⟩
    · exact ⟨rfl, rfl, fun _ hop => hop, id⟩
  · have hlisten : Over (onceFile .written w) := by
      refine ⟨h.net.congr, ?_⟩
      intro l hl
      rcases Handle.getD_once hl with hl | rfl
      · exact h.file l hl
      · exact .inr ⟨rfl, hr⟩
    have honce : Hoarding w (onceFile .written w) :=
      ⟨rfl, rfl, fun _ hop => hop, Handle.mem_once⟩
    exact honce.trans (hlisten.hoardsFileCall _)

/-- Queueing a chunk leaves the file alone. -/
theorem enqueue_file (data : Bytes) (w : World S P) :
    (enqueue data w).owner.file = w.owner.file ∧
      (enqueue data w).owner.fileCalls = w.owner.fileCalls ∧
      Hoarding w (enqueue data w) := by
  obtain ⟨sock, misused, heq, -⟩ := enqueue_shape data w
  rw [heq]
  exact ⟨rfl, rfl, rfl, rfl, fun _ h => h, id⟩

theorem Over.disposedWrite {w : World S P} (h : Over w)
    (hr : w.owner.receiveDone = false) (hd : Disposed w) :
    Disposed (DownloaderSimple.writeIfIdle w) := by
  unfold DownloaderSimple.writeIfIdle
  split
  · next hidle =>
      have hopen : w.owner.fileOpenned = true := by
        simp only [Bool.and_eq_true] at hidle
        exact hidle.1
      have hstart : Over { w with owner.fileOperationStarted := true } :=
        ⟨h.net.congr, h.file⟩
      have hwrites := hstart.hoardsWrite hr
      exact Hoarding.disposed (w := w)
        ⟨hwrites.openned, hwrites.disk, hwrites.ops, hwrites.unlink⟩ hd
        (.inl hopen)
  · exact hd

/-- The chunks a failure leaves to be delivered do not open the file again. -/
theorem Over.disposedData {w : World S P} (h : Over w)
    (hr : w.owner.receiveDone = false) (hf : w.owner.file.isSome = true)
    (hd : Disposed w) (data : Bytes) :
    Disposed (DownloaderSimple.onData data w) := by
  obtain ⟨hfile, -, hqueued⟩ := enqueue_file data w
  have hpass := h.enqueue data
  have hd' : Disposed (DownloaderSimple.enqueue data w) := by
    cases hd with
    | never hcreated hunlinked hopen hsilent =>
        exact .never (hqueued.disk ▸ hcreated) (hqueued.disk ▸ hunlinked)
          (hqueued.openned.trans hopen) (hfile ▸ hsilent)
    | closing hcreated hclosed hlisten hclose =>
        exact .closing (hqueued.disk ▸ hcreated) (hqueued.disk ▸ hclosed)
          (hqueued.unlink hlisten) (hqueued.ops _ hclose)
    | unlinked hcreated hclosed hunlinked =>
        exact .unlinked (hqueued.disk ▸ hcreated) (hqueued.disk ▸ hclosed)
          (hqueued.disk ▸ hunlinked)
  unfold DownloaderSimple.onData feed
  rw [if_neg (by rw [hfile, Option.isNone_iff_eq_none,
    ← Option.not_isSome_iff_eq_none]; exact not_not_intro hf)]
  exact hpass.past.disposedWrite (hpass.unseen.receiveDone.trans hr) hd'

/-- A file that never opened leaves them in the queue. -/
theorem Rested.onDatas : ∀ (chunks : List Bytes) {w : World S P}, Rested w →
    w.owner.fileOpenned = false → w.owner.file.isSome = true →
    Rested (chunks.foldl (fun w chunk => onData chunk w) w)
  | [], _, h, _, _ => h
  | chunk :: chunks, w, h, hopen, hs => by
      obtain ⟨hfile, hcalls, hqueued⟩ := enqueue_file chunk w
      have hopen' : (enqueue chunk w).owner.fileOpenned = false :=
        hqueued.openned.trans hopen
      have hidle : DownloaderSimple.onData chunk w = enqueue chunk w := by
        unfold DownloaderSimple.onData feed
        rw [if_neg (by rw [hfile]; simpa [Option.isSome_iff_ne_none] using hs)]
        unfold writeIfIdle
        rw [hopen']
        exact if_neg Bool.false_ne_true
      rw [List.foldl_cons, hidle]
      exact onDatas chunks ⟨hfile ▸ h.silent, hcalls ▸ h.calls⟩ hopen'
        (hfile ▸ hs)

/-! ## Listeners that unlink -/

theorem runFileListeners_unlink {size : Nat} : ∀ {ls : List FileListener}
    {w : World S P}, (∀ l ∈ ls, l = .unlinkClosed) →
    ls.foldl (DownloaderSimple.runFileListener size) w =
      { w with owner.disk.unlinked := w.owner.disk.unlinked || !ls.isEmpty }
  | [], w, _ => by simp
  | l :: ls, w, h => by
      obtain rfl := h l List.mem_cons_self
      rw [List.foldl_cons, runFileListeners_unlink
        fun l hl => h l (List.mem_cons_of_mem _ hl)]
      simp [DownloaderSimple.runFileListener]

/-- A completion that only the listener unlinking the file can hear. -/
theorem onFileDone_unlink {w : World S P} (op : FileOp) (size : Nat)
    (h : ∀ l ∈ w.owner.file.taken op.kind, l = .unlinkClosed) :
    DownloaderSimple.onFileDone op size w =
      { w with
        owner.disk :=
          { op.apply size w.owner.disk with
            unlinked := (op.apply size w.owner.disk).unlinked ||
              !(w.owner.file.taken op.kind).isEmpty }
        owner.file := w.owner.file.clearKind op.kind } := by
  unfold DownloaderSimple.onFileDone
  rw [runFileListeners_unlink h]

end DownloaderSimple

end EcwidDownloader
