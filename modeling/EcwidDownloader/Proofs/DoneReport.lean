import EcwidDownloader.Proofs.DownloaderAfter

/-!
# What a report of a finished download vouches for

The close of the file reports Done when the socket has been shut down, and the
shutdown of the socket when the file is not open. The first is a sound sign: a
file is closed only after the queue has been written. The second is not: a file
that is not open may never have been opened, for a response without a body, or
not yet. `EmptyHanded` is a shutdown of that kind, and it is the only way for a
report to vouch for more than there is.
-/

namespace EcwidDownloader

open Lib

namespace DownloaderSimple

variable {S P : Type}

/-- The shutdown after a complete response finds no open file, and none that has
been closed. -/
def EmptyHanded (w : World S P) (event : Event) : Prop :=
  event = .socket .shutdownEvent ∧ listens (.shutdownDone .reportDone) w ∧
    w.owner.fileOpenned = false ∧ w.owner.disk.closed = false

instance (w : World S P) (event : Event) : Decidable (EmptyHanded w event) :=
  inferInstanceAs (Decidable (_ ∧ _ ∧ _ ∧ _))

/-- No shutdown of a complete response is empty handed. -/
def HandsOver (w : World S P) (o : Occurrence S) : Prop :=
  ¬ EmptyHanded w o.event

/-- A file that is closed on disk has been closed by this download. -/
theorem Fil.Holds.closed {f : Fil} {p : Pipeline} (h : f.Holds p)
    (hc : p.disk.closed = true) : f = .closed := by
  have hs := h.stored
  cases f with
  | none => rw [hs.2.2.2.2] at hc; cases hc
  | opening => rw [hs.2.2.2.2] at hc; cases hc
  | idle => exact absurd (hs.2.2.closed.symm.trans hc) Bool.false_ne_true
  | writing =>
      obtain ⟨_, _, _, _, hw⟩ := hs
      exact absurd (hw.closed.symm.trans hc) Bool.false_ne_true
  | closing => exact absurd (hs.2.2.closed.symm.trans hc) Bool.false_ne_true
  | closed => rfl

variable [TCPSocket S]

/-- The listeners of the file are watched. -/
def watching (S : Type) [TCPSocket S] : Leaving S where
  left _ := True
  watched := True
  close _ := trivial
  read _ _ := trivial

/-- What holds in every state of a run that hands over its files. -/
def Delivering (w : World S P) : Prop :=
  (∃ n f, n.settled = true ∧ Alive (anything S) n f w) ∨ Adrift (watching S) w

theorem Delivering.vouched {w : World S P} (h : Delivering w) :
    Vouched w.owner.trace := by
  rcases h with ⟨n, f, -, ha⟩ | ha
  · exact ha.online.trace.vouched
  · exact ha.marks trivial

theorem Delivering.found {w : World S P} (h : Delivering w)
    (o : Occurrence S) : Delivering (found w o) := by
  rcases h with ⟨n, f, hn, ha⟩ | ha
  · exact .inl ⟨n, f, hn, ha.found trivial⟩
  · exact .inr (ha.found trivial)

variable [HttpParser P]

theorem Delivering.step {w w' : World S P} {o : Occurrence S}
    (h : Delivering w) (ho : HandsOver w o)
    (hs : Lib.Graph DownloaderSimple.step w o w') : Delivering w' := by
  have hh : Handled (DownloaderSimple.found w o) o.event w' :=
    handled_of_handle hs
  rcases h.found o with ⟨n, f, hn, ha⟩ | ha
  · cases ha.step hn hh (fun _ => trivial)
      (fun _ _ _ _ hstall => hstall.2.2.2 trivial) with
    | alive hn' ha' => exact .inl ⟨_, _, hn', ha'⟩
    | failed hf _ => exact .inr hf.adrift
    | lapsed _ hl => exact .inr hl.adrift
    | closed hr => exact .inr (hr.adrift rfl fun _ => .inl ⟨rfl, rfl⟩)
    | @shutDown f' cb he hl hpipe hopen hending hr =>
        refine .inr (hr.adrift (by cases cb <;> rfl) fun _ => ?_)
        cases cb with
        | reportRedirect =>
            refine .inr ⟨nofun, Bool.eq_false_iff.mpr fun hf => ?_⟩
            cases hending hf
        | reportDone =>
            refine .inl ⟨rfl, hr.pipe.closed ?_⟩
            rw [hpipe]
            by_contra hc
            exact ho ⟨he, hl, hopen rfl, Bool.eq_false_iff.mpr hc⟩
  · exact .inr (ha.handled hh)

/-- A shutdown that is empty handed reports Done all the same. -/
theorem Delivering.emptyHanded {w w' : World S P} {o : Occurrence S}
    (h : Delivering w) (ho : ¬ HandsOver w o)
    (hs : Lib.Graph DownloaderSimple.step w o w') : ¬ Vouched w'.owner.trace := by
  have hh : Handled (DownloaderSimple.found w o) o.event w' :=
    handled_of_handle hs
  obtain ⟨he, hl, hopen, hclosed⟩ := not_not.mp ho
  rw [he] at hh
  rcases h.found o with ⟨n, f, hn, ha⟩ | ha
  · have hl' := ha.online.listens_iff.mp hl
    obtain rfl : n = .shutting .reportDone := by
      cases n with
      | shutting cb => cases cb <;> simp [Net.socket] at hl' ⊢
      | reading ended => cases hn
      | receiving ended => cases ended <;> simp [Net.socket] at hl'
      | _ => simp [Net.socket] at hl'
    cases hh with
    | socket _ _ _ =>
        rw [onShutdown_eq ha.online.line.socket]
        unfold runCallback
        simp only []
        rw [if_pos (by
          show (!w.owner.fileOpenned) = true
          rw [hopen]
          rfl)]
        intro hv
        have hmark := hv (.invoked (report (setStatus .done
          "Downloading complete" (disconnected (DownloaderSimple.found w o)))))
          (List.mem_append_right _ (List.mem_singleton_self _)) rfl
        exact absurd (hclosed.symm.trans hmark.closed) Bool.false_ne_true
  · unfold listens at hl
    rw [show w.owner.socket.getD [] = [] from ha.net.socket] at hl
    exact absurd hl List.not_mem_nil

/-- In a run of a downloader every report of a finished download vouches for a
complete file, exactly when no shutdown of a complete response is empty
handed. -/
theorem done_report_vouched_iff {w₀ w : World S P}
    {hist : List (World S P × Occurrence S)} (h₀ : Started w₀)
    (hr : Runs w₀ hist w) :
    (∀ x, Passes hist w x → Vouched x.owner.trace) ↔ Meets HandsOver hist := by
  have hinv : ∀ {hist' t'}, Runs w₀ hist' t' → Meets HandsOver hist' →
      Delivering t' := fun hr' hC => hr'.invariant Delivering hC
    (.inl ⟨.resolving, .none, rfl, started_alive h₀⟩)
    fun w₁ o w₂ hI ho hs => hI.step ho hs
  exact hr.always_iff (P := fun w => Vouched w.owner.trace)
    (fun hr' hC => (hinv hr' hC).vouched)
    fun hr' hC hs ho => (hinv hr' hC).emptyHanded ho hs

/-- A response without a body. -/
def emptyBody : List (List Bytes × ResponseParseResult) :=
  [([], { state := .done })]

/-- It is reported as done without a file. -/
theorem done_report_empty :
    ¬ ∀ (w₀ w : World TCPSocketBandwidth (Scripted emptyBody))
      (hist : List (World TCPSocketBandwidth (Scripted emptyBody) ×
        Occurrence TCPSocketBandwidth)), Started w₀ → Runs w₀ hist w →
      ∀ x, Passes hist w x → Vouched x.owner.trace := by
  intro hall
  obtain ⟨hist, w, hexec, r, hr, hdone, hcreated⟩ : ∃ hist w,
      exec step (begun emptyBody)
        (requested ++ [plainly (.socket (.dataEvent (statusLine ++ lengthLine 48))),
          plainly (.socket .shutdownEvent)]) = some (hist, w) ∧
      ∃ r, w.owner.trace.getLast? = some (.invoked r) ∧ r.state = .done ∧
        r.disk.created = false :=
    ⟨_, _, rfl, _, rfl, rfl, rfl⟩
  have hv := hall _ w hist (started_begun emptyBody) (run_of_exec hexec) w
    .last (.invoked r) (List.mem_of_getLast? hr) hdone
  exact absurd (hcreated.symm.trans hv.created) Bool.false_ne_true

/-- A response whose file is closed before the socket is shut down. -/
theorem done_report_closed : ∃ hist w, Runs (begun oneSegment) hist w ∧
    w.owner.status.state = .done ∧
      ∀ x, Passes hist w x → Vouched x.owner.trace := by
  obtain ⟨hist, w, hexec, hdone, hC⟩ : ∃ hist w,
      exec step (begun oneSegment)
        (requested ++ [plainly (.socket (.dataEvent oneByte)),
          plainly (.file 0 (.ok 0)), plainly (.file 0 (.ok 1)),
          plainly (.file 0 (.ok 0)), plainly (.socket .shutdownEvent)]) =
          some (hist, w) ∧
        w.owner.status.state = .done ∧ Meets HandsOver hist :=
    ⟨_, _, rfl, rfl, by
      unfold Meets HandsOver
      decide⟩
  exact ⟨hist, w, run_of_exec hexec, hdone,
    (done_report_vouched_iff (started_begun oneSegment) (run_of_exec hexec)).mpr
      hC⟩

end DownloaderSimple

end EcwidDownloader
