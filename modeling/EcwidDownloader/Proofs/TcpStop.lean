import EcwidDownloader.Proofs.TcpBandwidth

/-!
# A stopped throttled socket and its inner socket

`stop()` leaves a paused socket alone, because the pause has already stopped the
inner one. `transfer` ends a pause by reading again, and it does so after its
`DataEvent` has been handled without asking whether the handler has stopped the
socket. The invariant that is to say "stopped means not reading" therefore
survives every move but that one: a handler that stops a paused socket in a
transfer that takes the buffer below its maximum.

`StopsInResume` is that move, seen from the state the transfer finds and the
calls the handler makes. `stop_honoured_iff` says that it is the only way for a
stop to be undone, and that it always undoes it.
-/

namespace EcwidDownloader

open Lib

namespace TCPSocketBandwidth

/-- Between `stop()` and the next `read()` the inner socket does not read and
the socket is not active. -/
def StopHonoured (w : Observed) : Prop :=
  held w.owner = true → w.sock.socket.reading = false ∧ active w.sock = false

/-- The calls of a handler leave the socket stopped, and open. -/
def StopsOpen (calls : List Call) : Prop :=
  held (calls.map Note.called) = true ∧ .close ∉ calls

/-- A transfer that ends the pause of an open socket while its handler stops
it. -/
def StopsInResume (react : React) (n : Nat) (w : Observed) : Prop :=
  w.sock.stopped = false ∧ w.sock.closed = false ∧ n ≠ 0 ∧
    w.sock.paused = true ∧ w.sock.bufferUsed - n < w.sock.bufferMaxLength ∧
    ¬ (w.sock.eof = true ∧ w.sock.bufferUsed ≤ n) ∧
    ∃ data buffer,
      popBuffer (min n w.sock.bufferUsed) w.sock.buffer =
        some (data, buffer) ∧
      StopsOpen (react (popped n buffer w) (.dataEvent data))

/-- None of some transfers made in a row is such a transfer. -/
def HoldsBack (react : React) : List Nat → Observed → Prop
  | [], _ => True
  | n :: lengths, w =>
      ¬ StopsInResume react n w ∧
        ∀ w', transfer (publish react) n w = some w' →
          HoldsBack react lengths w'

/-- No transfer an event consists of is such a transfer. -/
def Obedient (w : Observed) (e : Event × React) : Prop :=
  HoldsBack e.2 (e.1.transfersFrom w).1 (e.1.transfersFrom w).2

/-! ## Reading the notes -/

theorem held_append (notes notes' : List Note) :
    held (notes ++ notes') = notes'.foldl Note.hold (held notes) :=
  List.foldl_append

theorem held_snoc (notes : List Note) (n : Note) :
    held (notes ++ [n]) = n.hold (held notes) := by
  rw [held_append]
  rfl

/-! ## The invariant -/

/-- A pause has stopped the inner socket, and so has a stop. -/
structure Quiet (w : Observed) : Prop where
  paused : w.sock.paused = true → w.sock.socket.reading = false
  stopped : held w.owner = true →
    w.sock.stopped = true ∧ w.sock.socket.reading = false
  closed : w.sock.socket.closed = true → w.sock.socket.reading = false

theorem Quiet.honoured {w : Observed} (h : Quiet w) : StopHonoured w := by
  intro hh
  obtain ⟨hs, hr⟩ := h.stopped hh
  exact ⟨hr, by simp [active, InnerSocket.active, hs, hr]⟩

/-- What a resumption needs: no stop is standing, or reading again does nothing
because the inner socket is closed. -/
def Free (w : Observed) : Prop :=
  held w.owner = true → w.sock.socket.closed = true

theorem Quiet.call {w : Observed} (h : Quiet w) (c : Call) :
    Quiet (doCall c w) := by
  have hheld : held (doCall c w).owner = Note.hold (held w.owner) (.called c) :=
    held_snoc _ _
  cases c with
  | connect ip port => exact ⟨h.paused, hheld ▸ h.stopped, h.closed⟩
  | connect6 ip port => exact ⟨h.paused, hheld ▸ h.stopped, h.closed⟩
  | write data => exact ⟨h.paused, hheld ▸ h.stopped, h.closed⟩
  | shutdown => exact ⟨h.paused, hheld ▸ h.stopped, h.closed⟩
  | read =>
      have hfree : held (doCall .read w).owner ≠ true := by
        rw [hheld]
        exact Bool.false_ne_true
      have hsock : (doCall .read w).sock = read w.sock := rfl
      cases hp : w.sock.paused with
      | true =>
          rw [read_of_paused hp] at hsock
          exact ⟨fun _ => hsock ▸ h.paused hp, fun hh => absurd hh hfree,
            by rw [hsock]; exact h.closed⟩
      | false =>
          rw [read_of_running hp] at hsock
          refine ⟨fun hp' => ?_, fun hh => absurd hh hfree, fun hc => ?_⟩
          · rw [hsock] at hp'
            exact absurd (hp.symm.trans hp') Bool.false_ne_true
          · rw [hsock] at hc ⊢
            simp only [InnerSocket.read] at hc ⊢
            rw [hc]
            rfl
  | stop =>
      have hsock : (doCall .stop w).sock = stop w.sock := rfl
      have hs : (doCall .stop w).sock.stopped = true ∧
          (doCall .stop w).sock.socket.reading = false := by
        cases hp : w.sock.paused with
        | true =>
            rw [hsock, stop_of_paused hp]
            exact ⟨rfl, h.paused hp⟩
        | false =>
            rw [hsock, stop_of_running hp]
            exact ⟨rfl, rfl⟩
      exact ⟨fun _ => hs.2, fun _ => hs, fun _ => hs.2⟩
  | close =>
      have hsock : (doCall .close w).sock = close w.sock := rfl
      cases hc : w.sock.closed with
      | true =>
          rw [close_of_closed hc] at hsock
          exact ⟨hsock ▸ h.paused, by rw [hsock, hheld]; exact h.stopped,
            hsock ▸ h.closed⟩
      | false =>
          rw [close_of_open hc] at hsock
          have hs : (doCall .close w).sock.stopped = true ∧
              (doCall .close w).sock.socket.reading = false := by
            rw [hsock]
            exact ⟨rfl, rfl⟩
          exact ⟨fun _ => hs.2, fun _ => hs, fun _ => hs.2⟩

theorem Quiet.kept : Kept Free Quiet where
  call := fun c _ _ h => h.call c
  deliver := fun n data buffer w h _ _ =>
    ⟨h.paused, by
      simp only [delivered, note, held_snoc]
      exact h.stopped, h.closed⟩
  finish := fun w h _ _ =>
    ⟨h.paused, fun hh => by
      have hw : held w.owner = true := (held_snoc _ _).symm.trans hh
      exact ⟨rfl, (h.stopped hw).2⟩, h.closed⟩
  resume := fun w h _ hfree =>
    ⟨nofun, fun hh => ⟨(h.stopped hh).1, by
      simp only [resumed, InnerSocket.read]
      rw [hfree hh]
      rfl⟩, fun hc => by
      simp only [resumed, InnerSocket.read] at hc ⊢
      rw [hc]
      rfl⟩
  receive := fun data w h _ => by
    refine ⟨?_, ?_, ?_⟩ <;>
      simp only [note, bufferData, held_snoc, Note.hold] <;> split
    · exact fun _ => rfl
    · exact h.paused
    · exact fun hh => ⟨(h.stopped hh).1, rfl⟩
    · exact h.stopped
    · exact fun _ => rfl
    · exact h.closed
  ended := fun w h =>
    ⟨h.paused, by simp only [note, held_snoc]; exact h.stopped, h.closed⟩
  endedAgain := fun w h =>
    ⟨h.paused, by simp only [note, held_snoc]; exact h.stopped, h.closed⟩
  forward := fun event w h _ _ =>
    ⟨h.paused, by simp only [note, held_snoc]; exact h.stopped, h.closed⟩
  listen := fun _ w h => ⟨h.paused, h.stopped, h.closed⟩

theorem Quiet.created (conn bufferMaxLength : Nat) :
    Quiet (created conn bufferMaxLength) :=
  ⟨nofun, nofun, nofun⟩

/-! ## Which resumptions are free -/

/-- What the notes say once a handler has run that found no stop standing. -/
theorem held_publish {react : React} {event : SocketEvent} {w : Observed}
    (h : held w.owner = false) :
    held (publish react event w).owner =
      held ((react w event).map Note.called) := by
  rw [publish_eq, owner_foldl_doCall, held_append]
  show List.foldl Note.hold (held (w.owner ++ [.published event])) _ = _
  rw [held_snoc, h]
  rfl

theorem atResume_of_not {busy : Option EventKind} {react : React} {n : Nat}
    {w : Observed} (hq : Quiet w) (hA : Armed busy w.sock)
    (h : ¬ StopsInResume react n w) : AtResume Free react [n] w := by
  refine ⟨fun data buffer hs hn hpop hres hheld => ?_, fun _ _ => trivial⟩
  have hlevel := level_publish react (.dataEvent data) (popped n buffer w)
  simp only [level, Prod.mk.injEq] at hlevel
  obtain ⟨hpaused, heof, hused, hmax, -⟩ := hlevel
  obtain ⟨hend, hp, hlt⟩ := hres
  have hnot : held w.owner = false := by
    cases hh : held w.owner with
    | false => rfl
    | true => exact absurd (hs.symm.trans (hq.stopped hh).1) Bool.false_ne_true
  rw [publish_eq, sock_foldl_doCall]
  have hA' : Armed busy (popped n buffer w).sock := hA.congr rfl rfl rfl
  refine closed_of_mem hA' ?_
  · by_cases hclosed : w.sock.socket.closed = true
    · exact .inl hclosed
    · by_cases hmem : .close ∈ react (popped n buffer w) (.dataEvent data)
      · exact .inr hmem
      · exfalso
        rw [held_publish (w := popped n buffer w) hnot] at hheld
        refine h ⟨hs, ?_, hn, hpaused.symm.trans hp, ?_, ?_, data, buffer,
          hpop, hheld, hmem⟩
        · rw [← hA.inner]
          simpa using hclosed
        · rw [hused, hmax] at hlt
          simp only [popped] at hlt
          omega
        · rintro ⟨he, hle⟩
          refine hend ⟨heof.trans he, ?_⟩
          rw [hused]
          simp only [popped]
          omega

theorem atResume_of_holdsBack {busy : Option EventKind} {react : React} :
    ∀ {lengths : List Nat} {w : Observed}, Quiet w → Armed busy w.sock →
    HoldsBack react lengths w → AtResume Free react lengths w
  | [], _, _, _, _ => trivial
  | n :: lengths, w, hq, hA, h => by
      have hhead := atResume_of_not hq hA h.1
      refine ⟨hhead.1, fun w' ht => ?_⟩
      have hA' := (Armed.keptInside busy).transfer acts_any atResume_trivial hA ht
      refine atResume_of_holdsBack ?_ hA' (h.2 w' ht)
      exact Quiet.kept.toKeptInside.transfer acts_any hhead hq ht

/-! ## The stop that is undone -/

/-- The owner holds the socket stopped and its inner socket reads. -/
structure Undone (w : Observed) : Prop where
  held : held w.owner = true
  stopped : w.sock.stopped = true
  reading : w.sock.socket.reading = true

theorem Undone.not_honoured {w : Observed} (h : Undone w) :
    ¬ StopHonoured w := fun hh =>
  absurd ((hh h.held).1.symm.trans h.reading) Bool.false_ne_true

theorem Undone.relisten {l : InnerListener} {w : Observed} (h : Undone w) :
    Undone (relisten l w) := by
  unfold TCPSocketBandwidth.relisten
  split
  · exact ⟨h.held, h.stopped, h.reading⟩
  · exact h

theorem undone_of_stopsInResume {busy : Option EventKind} {react : React}
    {n : Nat} {w w' : Observed} (hq : Quiet w) (hA : Armed busy w.sock)
    (h : StopsInResume react n w)
    (ht : transfer (publish react) n w = some w') : Undone w' := by
  obtain ⟨hs, hc, hn, hp, hlt, hend, data, buffer, hpop, hheld, hmem⟩ := h
  have hnot : held w.owner = false := by
    cases hh : held w.owner with
    | false => rfl
    | true => exact absurd (hs.symm.trans (hq.stopped hh).1) Bool.false_ne_true
  rcases transfer_cases ht with ⟨hidle, -⟩ | ⟨-, -, data', buffer', hpop', rfl⟩
  · exact absurd hidle (by simp [hs, hn])
  rw [hpop] at hpop'
  simp only [Option.some.injEq, Prod.mk.injEq] at hpop'
  obtain ⟨rfl, rfl⟩ := hpop'
  have hlevel := level_publish react (.dataEvent data) (popped n buffer w)
  simp only [level, Prod.mk.injEq] at hlevel
  obtain ⟨hpaused, heof, hused, hmax, -⟩ := hlevel
  have hres : Resumes
      (publish react (.dataEvent data) (popped n buffer w)).sock := by
    refine ⟨?_, hpaused.trans hp, ?_⟩
    · rw [heof, hused]
      simp only [popped]
      rintro ⟨he, hz⟩
      exact hend ⟨he, by omega⟩
    · rw [hused, hmax]
      simp only [popped]
      omega
  have hdata : Quiet (publish react (.dataEvent data) (popped n buffer w)) :=
    Quiet.kept.toKeptInside.publish acts_any
      (Quiet.kept.deliver n data buffer w hq hs hpop)
  have hheld' : held (publish react (.dataEvent data)
      (popped n buffer w)).owner = true :=
    (held_publish (w := popped n buffer w) hnot).trans hheld
  have hopen : (publish react (.dataEvent data)
      (popped n buffer w)).sock.socket.closed = false := by
    rw [publish_eq, sock_foldl_doCall, closed_of_not_mem hmem]
    exact hA.inner.trans hc
  rcases afterData_cases (publish react)
      (publish react (.dataEvent data) (popped n buffer w)) with
    ⟨he, hz, -⟩ | ⟨-, heq⟩ | ⟨-, hnres, -⟩
  · exact absurd ⟨he, hz⟩ hres.1
  · rw [heq]
    refine ⟨hheld', (hdata.stopped hheld').1, ?_⟩
    simp only [resumed, InnerSocket.read]
    rw [hopen]
    rfl
  · exact absurd hres hnres

/-- A stopped socket ignores every further transfer. -/
theorem Undone.transfers {react : React} {lengths : List Nat}
    {w w' : Observed} (h : Undone w)
    (ht : transfers react lengths w = some w') : Undone w' := by
  refine Lib.foldlM_keeps (I := fun _ w => Undone w) (fun h h₁ => ?_) h ht
  rcases transfer_cases h₁ with ⟨-, rfl⟩ | ⟨hs, -⟩
  · exact h
  · exact absurd (hs.symm.trans h.stopped) Bool.false_ne_true

theorem undone_of_not_holdsBack {busy : Option EventKind} {react : React} :
    ∀ {lengths : List Nat} {w w' : Observed}, Quiet w → Armed busy w.sock →
    ¬ HoldsBack react lengths w → transfers react lengths w = some w' →
    Undone w'
  | [], _, _, _, _, h, _ => absurd trivial h
  | n :: lengths, w, w', hq, hA, h, ht => by
      simp only [TCPSocketBandwidth.transfers, List.foldlM_cons] at ht
      obtain ⟨w₁, h₁, hrest⟩ := Option.bind_eq_some_iff.mp ht
      by_cases hhead : StopsInResume react n w
      · exact (undone_of_stopsInResume hq hA hhead h₁).transfers hrest
      · have hR := atResume_of_not hq hA hhead
        have hA₁ :=
          (Armed.keptInside busy).transfer acts_any atResume_trivial hA h₁
        refine undone_of_not_holdsBack ?_ hA₁ ?_ hrest
        · exact Quiet.kept.toKeptInside.transfer acts_any hR hq h₁
        · intro htail
          refine h ⟨hhead, fun w₂ h₂ => ?_⟩
          rw [h₁] at h₂
          exact Option.some.inj h₂ ▸ htail

theorem undone_of_not_obedient {react : React} {w w' : Observed} {e : Event}
    (hq : Quiet w) (hA : Armed none w.sock) (h : ¬ Obedient w (e, react))
    (hs : Steps react w e w') : Undone w' := by
  obtain ⟨busy, hbusy⟩ := hA.transfersFrom e
  have hstart := Quiet.kept.transfersFrom hq hs
  cases hs with
  | data _ ht =>
      exact (undone_of_not_holdsBack hstart hbusy h ht).relisten
  | transfer ht =>
      refine undone_of_not_holdsBack hstart hbusy h ?_
      simp only [Event.transfersFrom, TCPSocketBandwidth.transfers,
        List.foldlM_cons, List.foldlM_nil]
      rw [ht]
      rfl
  | @forwarded e event he _ =>
      cases e <;> first
        | exact absurd trivial h
        | (simp [Event.forwarded] at he)
  | ended _ => exact absurd trivial h
  | endedAgain _ _ => exact absurd trivial h
  | closed _ => exact absurd trivial h
  | closedAgain _ => exact absurd trivial h
  | call => exact absurd trivial h

/-- One event keeps the invariant unless it ends a pause against a stop. -/
theorem Quiet.steps {react : React} {w w' : Observed} {e : Event}
    (hq : Quiet w) (hA : Armed none w.sock) (h : Obedient w (e, react))
    (hs : Steps react w e w') : Quiet w' := by
  obtain ⟨busy, hbusy⟩ := hA.transfersFrom e
  have hstart := Quiet.kept.transfersFrom hq hs
  exact Quiet.kept.steps (atResume_of_holdsBack hstart hbusy h) hq hs

theorem Quiet.run {conn bufferMaxLength : Nat} {w : Observed}
    {hist : List (Observed × (Event × React))}
    (hr : Runs (TCPSocketBandwidth.created conn bufferMaxLength) hist w)
    (hC : Meets Obedient hist) : Quiet w ∧ Armed none w.sock := by
  refine hr.invariant (fun w => Quiet w ∧ Armed none w.sock) hC
    ⟨Quiet.created conn bufferMaxLength,
      (Armed.create conn).congr rfl rfl rfl⟩ ?_
  intro w₁ e w₂ hI he hs
  have hsteps := step_cases hI.2 hs
  exact ⟨hI.1.steps hI.2 he hsteps, hI.2.steps hsteps⟩

/-- In a run of a throttled socket every stop is honoured, in every state
between events, exactly when no transfer of the run ends a pause while its
handler stops the socket. -/
theorem stop_honoured_iff {conn bufferMaxLength : Nat} {w : Observed}
    {hist : List (Observed × (Event × React))}
    (hr : Runs (created conn bufferMaxLength) hist w) :
    (∀ x, Passes hist w x → StopHonoured x) ↔ Meets Obedient hist :=
  hr.always_iff (fun hr' hC => (Quiet.run hr' hC).1.honoured)
    fun hr' hC hs he => by
      obtain ⟨hq, hA⟩ := Quiet.run hr' hC
      exact (undone_of_not_obedient hq hA he (step_cases hA hs)).not_honoured

/-- An owner that stops the socket at every `DataEvent`, as a downloader does
whose write queue is full. -/
def stoppingOwner : React := fun _ event =>
  match event with
  | .dataEvent _ => [.stop]
  | _ => []

/-- A buffer of four bytes: a segment of four pauses the stream, and the handler
of the next portion stops it. -/
def undoingEvents : List (Event × React) :=
  [(.call .read, quietOwner), (.data [1, 2, 3, 4] [], quietOwner),
    (.transfer 1, stoppingOwner)]

/-- The stop of that handler is undone: afterwards the inner socket reads. -/
theorem stop_undone :
    ¬ ∀ conn bufferMaxLength hist w,
      Runs (created conn bufferMaxLength) hist w →
      ∀ x, Passes hist w x → StopHonoured x := by
  intro hall
  obtain ⟨hist, w, hexec, hheld, hreading⟩ : ∃ hist w,
      exec step (created 0 4) undoingEvents = some (hist, w) ∧
        held w.owner = true ∧ w.sock.socket.reading = true :=
    ⟨_, _, rfl, rfl, rfl⟩
  have hh := hall 0 4 hist w (run_of_exec hexec) w .last hheld
  exact absurd (hh.1.symm.trans hreading) Bool.false_ne_true

/-- With a segment of five bytes the same handler leaves the buffer full, and
its stop is honoured. -/
theorem stop_honoured_above : ∃ hist w, Runs (created 0 4) hist w ∧
    held w.owner = true ∧ ∀ x, Passes hist w x → StopHonoured x := by
  obtain ⟨hist, w, hexec, hheld⟩ : ∃ hist w,
      exec step (created 0 4)
        [(.call .read, quietOwner), (.data [1, 2, 3, 4, 5] [], quietOwner),
          (.transfer 1, stoppingOwner)] = some (hist, w) ∧
        held w.owner = true :=
    ⟨_, _, rfl, rfl⟩
  refine ⟨hist, w, run_of_exec hexec, hheld,
    (stop_honoured_iff (run_of_exec hexec)).mpr (meets_of_along hexec ?_)⟩
  refine ⟨trivial, fun t ht => ⟨trivial, fun u hu => ⟨⟨?_, fun _ _ => trivial⟩,
    fun _ _ => trivial⟩⟩⟩
  cases ht
  cases hu
  rintro ⟨-, -, -, -, hlt, -⟩
  exact absurd hlt (by decide)

end TCPSocketBandwidth

end EcwidDownloader
