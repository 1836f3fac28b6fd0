import EcwidDownloader.Proofs.TcpBandwidth

/-!
# The pause of a throttled socket

`on_data` pauses the inner socket when the buffer has reached its maximum, and
`transfer` ends the pause when the buffer has fallen below it. Between the two
the buffer can only grow by the segment that reached the maximum, provided the
inner socket delivers nothing while it is not reading.

Two of the three bounds are kept by every single move (`Measured`). That a pause
is not left standing over an emptied buffer is not: a transfer takes the bytes
out first, lets the owner's handlers run, and only then looks whether the pause
is over. `Resumable` is therefore a property of the states between transfers,
and its proof follows a transfer to its end.
-/

namespace EcwidDownloader

open Lib

namespace TCPSocketBandwidth

/-- A segment arrives only while the inner socket reads, and is no longer than
`longest`. -/
def DeliversWhileReading (longest : Nat) (w : Observed) (e : Event × React) :
    Prop :=
  ∀ segment sync, e.1 = .data segment sync →
    w.sock.socket.reading = true ∧ segment.length ≤ longest

/-! ## What every move keeps -/

/-- A socket that is not paused has room, and the inner one reads only then. -/
structure Measured (bufferMaxLength longest : Nat) (s : TCPSocketBandwidth) :
    Prop where
  max : s.bufferMaxLength = bufferMaxLength
  room : s.paused = false → s.bufferUsed < bufferMaxLength
  bound : s.bufferUsed ≤ bufferMaxLength - 1 + longest
  reading : s.socket.reading = true → s.paused = false

/-- A pause that no later transfer would end is one the end of the stream has
made pointless. -/
def Resumable (s : TCPSocketBandwidth) : Prop :=
  s.paused = true → s.eof = true ∨ s.bufferMaxLength ≤ s.bufferUsed

section

variable {bufferMaxLength longest : Nat}

/-- Calls of the owner start the inner socket only where there is no pause. -/
theorem reading_call {s : TCPSocketBandwidth} (c : Call)
    (h : s.socket.reading = true → s.paused = false)
    (hr : (call c s).socket.reading = true) : s.paused = false := by
  cases c with
  | connect ip port => exact h hr
  | connect6 ip port => exact h hr
  | write data => exact h hr
  | shutdown => exact h hr
  | read =>
      cases hp : s.paused with
      | false => rfl
      | true =>
          simp only [call, read_of_paused hp] at hr
          exact hp ▸ h hr
  | stop =>
      cases hp : s.paused with
      | false => rfl
      | true =>
          simp only [call, stop_of_paused hp] at hr
          exact hp ▸ h hr
  | close =>
      cases hc : s.closed with
      | true =>
          simp only [call, close_of_closed hc] at hr
          exact h hr
      | false => simp [call, close_of_open hc, InnerSocket.close] at hr

theorem Measured.call {s : TCPSocketBandwidth}
    (h : Measured bufferMaxLength longest s) (c : Call) :
    Measured bufferMaxLength longest (TCPSocketBandwidth.call c s) := by
  have hlevel := level_call c s
  simp only [level, Prod.mk.injEq] at hlevel
  obtain ⟨hpaused, -, hused, hmax, -⟩ := hlevel
  refine ⟨hmax.trans h.max, ?_, ?_, fun hr => ?_⟩
  · rw [hpaused, hused]
    exact h.room
  · rw [hused]
    exact h.bound
  · rw [hpaused]
    exact reading_call c h.reading hr

theorem Measured.keptInside :
    KeptInside (fun _ => True) (fun _ => True)
      (fun w => Measured bufferMaxLength longest w.sock) where
  call := fun c _ _ h => h.call c
  deliver := fun n data buffer w h _ _ => by
    have hroom := h.room
    have hbound := h.bound
    refine ⟨h.max, fun hp => ?_, ?_, h.reading⟩
    · have hlt := hroom hp
      simp only [delivered, note, popped]
      omega
    · simp only [delivered, note, popped]
      omega
  finish := fun _ h _ _ => ⟨h.max, h.room, h.bound, h.reading⟩
  resume := fun w h hres _ => by
    obtain ⟨-, -, hlt⟩ := hres
    rw [h.max] at hlt
    exact ⟨h.max, fun _ => hlt, h.bound, fun _ => rfl⟩

/-- The segment that reaches the maximum finds the buffer below it. -/
theorem Measured.bufferData {s : TCPSocketBandwidth} {segment : Bytes}
    (h : Measured bufferMaxLength longest s) (hr : s.socket.reading = true)
    (hle : segment.length ≤ longest) :
    Measured bufferMaxLength longest
      (TCPSocketBandwidth.bufferData segment s) := by
  have hroom := h.room (h.reading hr)
  have hmax := h.max
  simp only [TCPSocketBandwidth.bufferData]
  split
  · next hfull =>
      refine ⟨hmax, by simp, ?_, by simp [InnerSocket.stop]⟩
      simp only []
      omega
  · next hfree =>
      simp only [ge_iff_le, Nat.not_le] at hfree
      refine ⟨hmax, fun _ => ?_, ?_, h.reading⟩
      · simp only []
        omega
      · simp only []
        omega

/-! ## The end of a pause -/

theorem Resumable.congr {s s' : TCPSocketBandwidth} (h : Resumable s)
    (hl : level s' = level s) : Resumable s' := by
  simp only [level, Prod.mk.injEq] at hl
  obtain ⟨hpaused, heof, hused, hmax, -⟩ := hl
  unfold Resumable
  rw [hpaused, heof, hused, hmax]
  exact h

theorem Resumable.bufferData {s : TCPSocketBandwidth} (h : Resumable s)
    (segment : Bytes) :
    Resumable (TCPSocketBandwidth.bufferData segment s) := by
  simp only [TCPSocketBandwidth.bufferData]
  split
  · next hfull => exact fun _ => .inr hfull
  · intro hp
    rcases h hp with he | hm
    · exact .inl he
    · refine .inr ?_
      simp only []
      omega

/-- However the handlers leave the socket, the last thing `transfer` does is to
look whether the pause is over. -/
theorem resumable_afterData (react : React) (w : Observed) :
    Resumable (afterData (publish react) w).sock := by
  rcases afterData_cases (publish react) w with
    ⟨heof, -, heq⟩ | ⟨-, heq⟩ | ⟨hend, hres, heq⟩
  · rw [heq]
    have hended : Resumable { w.sock with stopped := true } :=
      fun _ => .inl heof
    exact hended.congr (level_publish react .endEvent _)
  · rw [heq]
    simp [Resumable, resumed]
  · rw [heq]
    intro hp
    refine .inr ?_
    by_contra hlt
    exact hres ⟨hend, hp, by omega⟩

theorem Resumable.transfers {react : React} {lengths : List Nat}
    {w w' : Observed} (h : Resumable w.sock)
    (ht : transfers react lengths w = some w') : Resumable w'.sock := by
  refine Lib.foldlM_keeps (I := fun _ w => Resumable w.sock) (fun h h₁ => ?_)
    h ht
  rcases transfer_cases h₁ with ⟨-, rfl⟩ | ⟨-, -, data, buffer, -, rfl⟩
  · exact h
  · exact resumable_afterData react _

/-! ## Events and runs -/

/-- What holds between events. -/
structure ReadsAhead (bufferMaxLength longest : Nat) (w : Observed) :
    Prop where
  measured : Measured bufferMaxLength longest w.sock
  resumable : Resumable w.sock

theorem ReadsAhead.congr {w w' : Observed}
    (h : ReadsAhead bufferMaxLength longest w)
    (hl : level w'.sock = level w.sock)
    (hr : w'.sock.socket.reading = w.sock.socket.reading) :
    ReadsAhead bufferMaxLength longest w' := by
  refine ⟨?_, h.resumable.congr hl⟩
  have hm := h.measured
  simp only [level, Prod.mk.injEq] at hl
  obtain ⟨hpaused, -, hused, hmax, -⟩ := hl
  constructor
  · exact hmax.trans hm.max
  · rw [hpaused, hused]
    exact hm.room
  · rw [hused]
    exact hm.bound
  · rw [hpaused, hr]
    exact hm.reading

theorem ReadsAhead.relisten {l : InnerListener} {w : Observed}
    (h : ReadsAhead bufferMaxLength longest w) :
    ReadsAhead bufferMaxLength longest (relisten l w) := by
  unfold TCPSocketBandwidth.relisten
  split
  · exact h.congr rfl rfl
  · exact h

theorem ReadsAhead.publish {react : React} {event : SocketEvent}
    {w : Observed} (h : ReadsAhead bufferMaxLength longest w) :
    ReadsAhead bufferMaxLength longest
      (TCPSocketBandwidth.publish react event w) :=
  ⟨Measured.keptInside.publish acts_any h.measured,
    h.resumable.congr (level_publish react event w)⟩

theorem ReadsAhead.transfers {react : React} {lengths : List Nat}
    {w w' : Observed} (h : ReadsAhead bufferMaxLength longest w)
    (ht : transfers react lengths w = some w') :
    ReadsAhead bufferMaxLength longest w' :=
  ⟨Measured.keptInside.transfers acts_any atResume_trivial h.measured ht,
    h.resumable.transfers ht⟩

/-- One event keeps the bounds, a segment if it arrives while the inner socket
reads. -/
theorem ReadsAhead.steps {react : React} {w w' : Observed} {e : Event}
    (h : ReadsAhead bufferMaxLength longest w)
    (hd : DeliversWhileReading longest w (e, react))
    (hs : Steps react w e w') : ReadsAhead bufferMaxLength longest w' := by
  cases hs with
  | @data segment sync w₁ _ ht =>
      obtain ⟨hreading, hle⟩ := hd segment sync rfl
      have htaking : ReadsAhead bufferMaxLength longest (taking .data w) :=
        h.congr rfl rfl
      have hstart : ReadsAhead bufferMaxLength longest
          (Event.transfersFrom w (.data segment sync)).2 :=
        ⟨htaking.measured.bufferData hreading hle,
          htaking.resumable.bufferData segment⟩
      exact (hstart.transfers ht).relisten
  | forwarded _ _ =>
      refine ReadsAhead.relisten (ReadsAhead.publish ?_)
      exact h.congr rfl rfl
  | ended _ =>
      have hm := h.measured
      exact ⟨⟨hm.max, hm.room, hm.bound, hm.reading⟩, fun _ => .inl rfl⟩
  | endedAgain _ _ => exact h.congr rfl rfl
  | closed _ =>
      refine ReadsAhead.publish ?_
      exact h.congr rfl rfl
  | closedAgain _ => exact h.congr rfl rfl
  | @transfer n w' ht =>
      have hts : TCPSocketBandwidth.transfers react [n] w = some w' := by
        simp [TCPSocketBandwidth.transfers, ht]
      exact h.transfers hts
  | @call c =>
      exact ⟨h.measured.call c, h.resumable.congr (level_call c w.sock)⟩

theorem ReadsAhead.created (conn longest : Nat) (hmax : 0 < bufferMaxLength) :
    ReadsAhead bufferMaxLength longest (created conn bufferMaxLength) :=
  ⟨⟨rfl, fun _ => hmax, Nat.zero_le _, by
    simp [TCPSocketBandwidth.created, create, setBuffer]⟩, by
    simp [Resumable, TCPSocketBandwidth.created, create, setBuffer]⟩

/-- In every state of a run whose segments of at most `longest` bytes arrive
only while the inner socket reads, the buffer exceeds its maximum by less than
one segment, the inner socket reads only without a pause, and a pause stands
only over a full buffer, unless the end of the stream or a `close` has made it
pointless. -/
theorem read_ahead_bounded {conn bufferMaxLength longest : Nat} {w : Observed}
    {hist : List (Observed × (Event × React))} (hmax : 0 < bufferMaxLength)
    (hr : Runs (TCPSocketBandwidth.created conn bufferMaxLength) hist w)
    (hd : Meets (DeliversWhileReading longest) hist)
    (x : Observed) (hx : Passes hist w x) :
    x.sock.bufferUsed ≤ bufferMaxLength - 1 + longest ∧
      (x.sock.socket.reading = true → x.sock.paused = false) ∧
      (x.sock.paused = true → x.sock.closed = false → x.sock.eof = false →
        bufferMaxLength ≤ x.sock.bufferUsed) := by
  have hall : ReadsAhead bufferMaxLength longest x := by
    refine hr.always hd (fun {hist' t'} hr' hd' => ?_) hx
    refine (hr'.invariant (fun w => ReadsAhead bufferMaxLength longest w ∧
      Armed none w.sock) hd' ⟨.created conn longest hmax,
        (Armed.create conn).congr rfl rfl rfl⟩ ?_).1
    intro t e u hI he hs
    have hsteps := step_cases hI.2 hs
    exact ⟨hI.1.steps he hsteps, hI.2.steps hsteps⟩
  have hm := hall.measured
  refine ⟨hm.bound, hm.reading, fun hp _ he => ?_⟩
  rcases hall.resumable hp with he' | hfull
  · simp [he] at he'
  · exact hm.max ▸ hfull

end

/-- A segment that reaches the maximum, a transfer that leaves the buffer full
and one, with a handler that stops and reads again, that ends the pause. -/
theorem read_ahead_bounded_resumed : ∃ hist w,
    Runs (created 0 4) hist w ∧ w.sock.paused = false ∧
      ∀ x, Passes hist w x → x.sock.bufferUsed ≤ 4 - 1 + 5 := by
  let events : List (Event × React) :=
    [(.call .read, quietOwner), (.data [1, 2, 3] [], quietOwner),
      (.data [4, 5, 6, 7, 8] [1], quietOwner),
      (.transfer 4, fun _ _ => [.stop, .read])]
  obtain ⟨hist, w, hexec, hpaused⟩ : ∃ hist w,
      exec step (created 0 4) events = some (hist, w) ∧
        w.sock.paused = false :=
    ⟨_, _, rfl, rfl⟩
  have hr := run_of_exec hexec
  refine ⟨hist, w, hr, hpaused, fun x hx =>
    (read_ahead_bounded (by decide) hr (meets_of_along hexec ?_) x hx).1⟩
  refine ⟨by simp [DeliversWhileReading], fun t ht => ⟨?_, fun u hu =>
    ⟨?_, fun v hv => ⟨by simp [DeliversWhileReading], fun _ _ => trivial⟩⟩⟩⟩
  · cases ht
    rintro segment sync ⟨⟩
    exact ⟨rfl, by decide⟩
  · cases ht
    cases hu
    rintro segment sync ⟨⟩
    exact ⟨rfl, by decide⟩

end TCPSocketBandwidth

end EcwidDownloader
