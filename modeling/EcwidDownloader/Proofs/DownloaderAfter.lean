import EcwidDownloader.Proofs.DownloaderSteps

/-!
# A download after its last word

Once the network side is silent only the file can be heard of. `Adrift` is what
then holds whatever the file still has in flight: the state stays final, or the
response stays incomplete. When it can also be said which listeners are left, no
further report of a finished download is possible.
-/

namespace EcwidDownloader

open Lib

namespace DownloaderSimple

variable {S P : Type}

/-- The file is there, closed, and holds everything that was received. -/
structure Report.Complete (r : Report) : Prop where
  created : r.disk.created = true
  content : r.disk.content = r.received
  queue : r.queue = []
  closed : r.disk.closed = true

/-- Every mark that says Done is made over a complete file. -/
def Vouched (trace : List Mark) : Prop :=
  ∀ m ∈ trace, (Mark.report m).state = .done →
    Report.Complete (Mark.report m)

theorem Vouched.append {t t' : List Mark} (h : Vouched t) (h' : Vouched t') :
    Vouched (t ++ t') := fun m hm =>
  (List.mem_append.mp hm).elim (h m) (h' m)

theorem Underway.vouched {t : List Mark} (h : Underway t) : Vouched t := by
  intro m hm hdone
  have hnot := h m hm
  rw [hdone] at hnot
  cases hnot

theorem vouched_pair {r : Report} (h : r.state = .done → Report.Complete r) :
    Vouched [.assigned r, .invoked r] := by
  intro m hm
  rcases List.mem_pair.mp hm with rfl | rfl <;> exact h

/-- What an invariant keeps of the socket of a downloader that has left it, and
whether it watches the listeners of the file. -/
structure Leaving (S : Type) [TCPSocket S] where
  left : S → Prop
  watched : Prop
  close : ∀ s, left (TCPSocket.close s)
  read : ∀ s, left s → left (TCPSocket.read s)

variable [TCPSocket S]

/-- A downloader without a network side. -/
structure Adrift (L : Leaving S) (w : World S P) : Prop where
  net : NetSilent w
  ended : w.owner.status.state.final = true ∨
    w.owner.receiveDone = false ∧ L.left w.sock
  marks : L.watched → Vouched w.owner.trace
  file : L.watched → ∀ l ∈ w.owner.file.getD [],
    l ≠ .closed ∧ (w.owner.receiveDone = true → l = .unlinkClosed)

/-- A call that leaves a downloader adrift. -/
structure Drifting (L : Leaving S) (w w' : World S P) : Prop where
  adrift : Adrift L w'
  receiveDone : w'.owner.receiveDone = w.owner.receiveDone

section

variable {L : Leaving S} {w w' : World S P}

theorem Drifting.trans {w₁ w₂ w₃ : World S P} (h : Drifting L w₁ w₂)
    (h' : Drifting L w₂ w₃) : Drifting L w₁ w₃ :=
  ⟨h'.adrift, h'.receiveDone.trans h.receiveDone⟩

omit [TCPSocket S] in
theorem FileSilent.watched (h : FileSilent w) : ∀ l ∈ w.owner.file.getD [],
    l ≠ .closed ∧ (w.owner.receiveDone = true → l = .unlinkClosed) := by
  intro l hl
  rcases h l hl with rfl | ⟨rfl, hr⟩
  · exact ⟨nofun, fun _ => rfl⟩
  · exact ⟨nofun, fun hr' =>
      absurd (hr.symm.trans hr') Bool.false_ne_true⟩

/-- An error ends a downloader wherever it is. -/
theorem drifting_onError (text : String)
    (h : L.watched → Vouched w.owner.trace) :
    Drifting L w (onError text w) := by
  have hf := failing text w
  refine ⟨⟨hf.past.net, .inl ?_, fun hw => ?_, fun _ => hf.past.file.watched⟩,
    hf.receiveDone⟩
  · rw [hf.state]
    rfl
  · rw [hf.trace]
    exact (h hw).append (vouched_pair nofun)

omit [TCPSocket S] in
/-- The parser has no say any more. -/
theorem NetSilent.parsed [HttpParser P] (h : NetSilent w) (event : Event) :
    parsed w event = none := by
  have hdeaf : ∀ l, ¬ listens l w := by
    intro l hl
    unfold listens at hl
    rw [h.socket] at hl
    exact absurd hl List.not_mem_nil
  unfold DownloaderSimple.parsed
  split
  · rw [if_neg (hdeaf _), if_neg (hdeaf _)]
  · rw [if_neg (hdeaf _)]
  · rfl

theorem Failed.adrift (h : Failed w) : Adrift L w := by
  obtain ⟨before, r, hb, hr, ht⟩ := h.trace
  refine ⟨h.past.net, .inl ?_, fun _ => ?_, fun _ => h.past.file.watched⟩
  · rw [h.state]
    rfl
  · rw [ht]
    exact hb.vouched.append (vouched_pair fun hdone =>
      absurd (hr.symm.trans hdone) nofun)

theorem Lapsed.adrift {f : Fil} (h : Lapsed f w) : Adrift L w := by
  obtain ⟨sock, hs⟩ := h.sock
  refine ⟨h.past.net, .inr ⟨h.receiveDone, ?_⟩, fun _ m hm hdone =>
    absurd hdone (h.trace m hm), fun _ => h.past.file.watched⟩
  rw [hs]
  exact L.close sock

/-- After its final report a downloader is adrift; its listeners are settled
when it has reported a redirection, or has closed its file. -/
theorem Reported.adrift {state : State} {f : Fil} (h : Reported state f w)
    (hfinal : state.final = true)
    (hw : L.watched → state = .done ∧ f = .closed ∨
      state ≠ .done ∧ f.ending = false) : Adrift L w := by
  obtain ⟨before, hb, ht⟩ := h.trace
  have hfile : w.owner.file = f.file := h.pipe.file
  refine ⟨h.net, .inl (h.state.symm ▸ hfinal), fun hwatch => ?_,
    fun hwatch => ?_⟩
  · rw [ht]
    refine hb.vouched.append (vouched_pair fun hdone => ?_)
    have hdone' : state = .done := h.state.symm.trans hdone
    rcases hw hwatch with ⟨-, rfl⟩ | ⟨hne, -⟩
    · obtain ⟨-, hbuf, hcreated, hclosed, hcontent, -⟩ := h.pipe.stored
      exact ⟨hcreated, hcontent, hbuf, hclosed⟩
    · exact absurd hdone' hne
  · rw [hfile]
    rcases hw hwatch with ⟨-, rfl⟩ | ⟨hne, hf⟩
    · exact fun l hl => absurd hl List.not_mem_nil
    · intro l hl
      refine ⟨?_, fun hr => ?_⟩
      · rintro rfl
        cases f <;> simp [Fil.file] at hl
        cases hf
      · rw [h.receiveDone] at hr
        exact absurd (of_decide_eq_true hr) hne

theorem Adrift.runFileError (h : Adrift L w) (err : ErrorEvent)
    (l : FileListener) : Drifting L w (runFileError err w l) := by
  have hidle : ∀ (file : Handle FileListener) (text : String),
      Drifting L w
        (onError text
          { w with owner.fileOperationStarted := false, owner.file := file }) :=
    fun file text => by
      have hrun := drifting_onError
        (w := { w with
          owner.fileOperationStarted := false, owner.file := file })
        text h.marks
      exact ⟨hrun.adrift, hrun.receiveDone⟩
  cases l with
  | openError => exact hidle w.owner.file _
  | writeError => exact hidle w.owner.file _
  | closeError => exact hidle none _
  | opened => exact ⟨h, rfl⟩
  | written => exact ⟨h, rfl⟩
  | closed => exact ⟨h, rfl⟩
  | unlinkClosed => exact ⟨h, rfl⟩

theorem Adrift.onFileErrors {err : ErrorEvent} : ∀ {ls : List FileListener}
    {w : World S P}, Adrift L w →
    Drifting L w (ls.foldl (DownloaderSimple.runFileError err) w)
  | [], w, h => ⟨h, rfl⟩
  | l :: ls, w, h => by
      have hhead := h.runFileError err l
      exact hhead.trans hhead.adrift.onFileErrors

theorem Adrift.onFileError (h : Adrift L w) (err : ErrorEvent) :
    Drifting L w (onFileError err w) := by
  have hstart : Adrift L { w with owner.file := w.owner.file.clearKind .error } :=
    ⟨h.net.congr, h.ended, h.marks,
      fun hw l hl => h.file hw l (Handle.getD_clearKind hl)⟩
  have hrun : Drifting L _ (DownloaderSimple.onFileError err w) := hstart.onFileErrors
  exact ⟨hrun.adrift, hrun.receiveDone⟩

theorem Adrift.fileCall (h : Adrift L w) (op : FileOp) :
    Drifting L w (fileCall op w) := by
  rcases fileCall_cases op w with ⟨-, hc⟩ | ⟨err, -, hc⟩
  · rw [hc]
    exact ⟨⟨h.net.congr, h.ended, h.marks, h.file⟩, rfl⟩
  · rw [hc]
    have hstart : Adrift L (refused op w) :=
      ⟨h.net.congr, h.ended, h.marks, h.file⟩
    have hrun := hstart.onFileError err
    exact ⟨hrun.adrift, hrun.receiveDone⟩

theorem Adrift.readCall (h : Adrift L w)
    (hs : w.owner.socket.isSome = true) :
    Drifting L w (socketCall TCPSocket.read w) := by
  have hread : Adrift L
      { w with
        sock := TCPSocket.read w.sock
        owner.faults.socket := w.owner.faults.socket.tail } :=
    ⟨h.net.congr, h.ended.imp_right fun hl => ⟨hl.1, L.read _ hl.2⟩, h.marks,
      h.file⟩
  rcases socketCall_cases TCPSocket.read hs with hc | ⟨err, hc⟩
  · rw [hc]
    exact ⟨hread, rfl⟩
  · rw [hc, hread.net.onSocketError]
    exact ⟨⟨⟨h.net.resolver, Handle.clearKind_of_silent h.net.socket,
      h.net.netTimer⟩, hread.ended, h.marks, h.file⟩, rfl⟩

theorem Adrift.onWrite (h : Adrift L w)
    (hr : L.watched → w.owner.receiveDone = false) :
    Drifting L w (onWrite w) := by
  unfold DownloaderSimple.onWrite
  split
  · split
    · next hdone =>
        have hlisten : Adrift L (onceFile .closed (onceFile .closeError
            { w with owner.file := w.owner.file.clear })) :=
          ⟨h.net.congr, h.ended, h.marks,
            fun hw => absurd ((hr hw).symm.trans hdone) Bool.false_ne_true⟩
        have hrun := hlisten.fileCall .close
        exact ⟨hrun.adrift, hrun.receiveDone⟩
    · have hidle : Adrift L { w with owner.fileOperationStarted := false } :=
        ⟨h.net.congr, h.ended, h.marks, h.file⟩
      simp only []
      split
      · next hs =>
          split
          · have hrun := hidle.readCall hs
            exact ⟨hrun.adrift, hrun.receiveDone⟩
          · exact ⟨hidle, rfl⟩
      · exact ⟨⟨h.net.congr, h.ended, h.marks, h.file⟩, rfl⟩
  · next chunk queue _ =>
    have hlisten : Adrift L (onceFile .written w) := by
      refine ⟨h.net.congr, h.ended, h.marks, fun hw l hl => ?_⟩
      rcases Handle.getD_once hl with hl | rfl
      · exact h.file hw l hl
      · exact ⟨nofun, fun hr' =>
          absurd ((hr hw).symm.trans hr') Bool.false_ne_true⟩
    have hrun := hlisten.fileCall
      (.write chunk.rest (onceFile .written w).owner.offsetFile)
    exact ⟨hrun.adrift, hrun.receiveDone⟩

/-- A listener of the file runs. A report of a finished download needs one that
is not there when the listeners are watched. -/
theorem Adrift.runFileListener (h : Adrift L w) (size : Nat)
    {l : FileListener}
    (hl : L.watched →
      l ≠ .closed ∧ (w.owner.receiveDone = true → l = .unlinkClosed)) :
    Drifting L w (runFileListener size w l) := by
  have hopen : l ≠ .unlinkClosed → L.watched →
      w.owner.receiveDone = false := fun hne hw =>
    Bool.eq_false_iff.mpr fun hr => hne ((hl hw).2 hr)
  cases l with
  | opened =>
      have hstart : Adrift L (onceFile .writeError
          { w with
            owner.fileOpenned := true
            owner.file := w.owner.file.clearKind .error }) := by
        refine ⟨h.net.congr, h.ended, h.marks, fun hw l hl => ?_⟩
        rcases Handle.getD_once hl with hl | rfl
        · exact h.file hw l (Handle.getD_clearKind hl)
        · exact ⟨by decide, fun hr => absurd
            ((hopen (by decide) hw).symm.trans hr) Bool.false_ne_true⟩
      have hrun := hstart.onWrite (hopen (by decide))
      exact ⟨hrun.adrift, hrun.receiveDone⟩
  | written =>
      simp only [DownloaderSimple.runFileListener]
      split
      · exact ⟨⟨h.net.congr, h.ended, h.marks, h.file⟩, rfl⟩
      · next chunk queue _ =>
          have hmoved : ∀ (offset : Nat) (buffer : List DataChunk), Adrift L
              { w with owner.offsetFile := offset, owner.buffer := buffer } :=
            fun _ _ => ⟨h.net.congr, h.ended, h.marks, h.file⟩
          have hrun := fun o b => (hmoved o b).onWrite (hopen (by decide))
          exact ⟨(hrun _ _).adrift, (hrun _ _).receiveDone⟩
  | closed =>
      have hstart : Adrift L
          { w with
            owner.fileOperationStarted := false
            owner.fileOpenned := false
            owner.file := w.owner.file.clear } :=
        ⟨h.net.congr, h.ended, h.marks, fun hw => absurd rfl (hl hw).1⟩
      simp only [DownloaderSimple.runFileListener]
      split
      · exact ⟨⟨h.net.congr, .inl rfl,
          fun hw => absurd rfl (hl hw).1, hstart.file⟩, rfl⟩
      · exact ⟨hstart, rfl⟩
  | unlinkClosed =>
      exact ⟨⟨h.net.congr, h.ended, h.marks, h.file⟩, rfl⟩
  | openError => exact ⟨h, rfl⟩
  | writeError => exact ⟨h, rfl⟩
  | closeError => exact ⟨h, rfl⟩

theorem Adrift.runFileListeners {size : Nat} : ∀ {ls : List FileListener}
    {w : World S P}, Adrift L w →
    (L.watched → ∀ l ∈ ls,
      l ≠ .closed ∧ (w.owner.receiveDone = true → l = .unlinkClosed)) →
    Drifting L w (ls.foldl (DownloaderSimple.runFileListener size) w)
  | [], w, h, _ => ⟨h, rfl⟩
  | l :: ls, w, h, hls => by
      have hhead := h.runFileListener size fun hw =>
        hls hw l List.mem_cons_self
      refine hhead.trans (hhead.adrift.runFileListeners fun hw l' hl' => ?_)
      rw [hhead.receiveDone]
      exact hls hw l' (List.mem_cons_of_mem _ hl')

theorem Adrift.onFileDone (h : Adrift L w) (op : FileOp) (size : Nat) :
    Drifting L w (onFileDone op size w) := by
  have hstart : Adrift L
      { w with
        owner.disk := op.apply size w.owner.disk
        owner.file := w.owner.file.clearKind op.kind } :=
    ⟨h.net.congr, h.ended, h.marks,
      fun hw l hl => h.file hw l (Handle.getD_clearKind hl)⟩
  have hrun : Drifting L _ (DownloaderSimple.onFileDone op size w) :=
    hstart.runFileListeners fun hw l hl =>
      h.file hw l (Handle.mem_taken.mp hl).1
  exact ⟨hrun.adrift, hrun.receiveDone⟩

theorem Adrift.found (h : Adrift L w) {o : Occurrence S}
    (hleft : L.left o.sock) : Adrift L (found w o) :=
  ⟨h.net.congr, h.ended.imp_right fun hl => ⟨hl.1, hleft⟩, h.marks, h.file⟩

theorem Adrift.unheard (h : Adrift L w) (hw : Unheard w w') : Adrift L w' := by
  obtain ⟨hnet, -, -, resolver, socket, netTimer, timerArmed, peerEnded, rfl⟩ := hw
  exact ⟨hnet, h.ended, h.marks, h.file⟩

/-- A downloader adrift stays adrift. -/
theorem Adrift.handled [HttpParser P] (h : Adrift L w) {event : Event}
    (hw : Handled w event w') : Adrift L w' := by
  have hcompleted : ∀ index, Adrift L (completed index w) := fun _ =>
    ⟨h.net.congr, h.ended, h.marks, h.file⟩
  by_cases hstop : event = .stop
  · subst hstop
    cases hw with
    | stop _ => exact (drifting_onError _ h.marks).adrift
  · cases h.net.late hstop hw with
    | unheard hunheard => exact h.unheard hunheard
    | fileFailed err _ => exact ((hcompleted _).onFileError err).adrift
    | fileDone _ _ => exact ((hcompleted _).onFileDone _ _).adrift

end

end DownloaderSimple

end EcwidDownloader
