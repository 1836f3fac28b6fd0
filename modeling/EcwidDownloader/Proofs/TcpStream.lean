import Mathlib.Algebra.BigOperators.Group.List.Basic
import Mathlib.Algebra.GroupWithZero.Nat
import EcwidDownloader.Proofs.TcpBandwidth

/-!
# The bytes of a throttled socket

What the socket has received is what it has published and what is still in its
queue, in this order, and `buffer_used` is the size of the queue. Both hold
through every event of a run, whatever the owner's handlers do, because the only
move that takes bytes out of the queue publishes exactly those.

It follows that a transfer of no more than `available()` finds the bytes it was
asked for: `Portion` says what one such transfer does, `byte_stream_faithful`
that in every run all of them do it.
-/

namespace EcwidDownloader

open Lib

namespace TCPSocketBandwidth

@[simp] theorem receivedBytes_snoc (notes : List Note) (n : Note) :
    receivedBytes (notes ++ [n]) = receivedBytes notes ++ n.receivedBytes := by
  simp [receivedBytes]

@[simp] theorem publishedBytes_snoc (notes : List Note) (n : Note) :
    publishedBytes (notes ++ [n]) =
      publishedBytes notes ++ n.publishedBytes := by
  simp [publishedBytes]

/-- The queue holds what was received and not yet published. -/
structure Faithful (w : Observed) : Prop where
  bytes : receivedBytes w.owner =
    publishedBytes w.owner ++ unread w.sock.buffer
  used : w.sock.bufferUsed = (unread w.sock.buffer).length

/-- `buffer_used` is the size of the queue. -/
def Stocked (tcp : TCPSocketBandwidth) : Prop :=
  tcp.bufferUsed = (unread tcp.buffer).length

/-- A queue that gives bytes gives the requested number of them, in order. -/
theorem Stocked.popBuffer {tcp : TCPSocketBandwidth} (h : Stocked tcp) {n : Nat}
    {data : Bytes} {buffer : List DataChunk}
    (hpop : popBuffer (min n tcp.bufferUsed) tcp.buffer =
      some (data, buffer)) :
    data = (unread tcp.buffer).take (min n tcp.bufferUsed) ∧
      unread buffer = (unread tcp.buffer).drop (min n tcp.bufferUsed) := by
  have hne : tcp.buffer ≠ [] := by
    intro hnil
    rw [hnil] at hpop
    cases hpop
  have hle : min n tcp.bufferUsed ≤ (unread tcp.buffer).length := by
    rw [← h]
    exact Nat.min_le_right _ _
  obtain ⟨left, hleft, hrest⟩ := popBuffer_spec hne hle
  rw [hleft] at hpop
  simp only [Option.some.injEq, Prod.mk.injEq] at hpop
  obtain ⟨rfl, rfl⟩ := hpop
  exact ⟨rfl, hrest⟩

theorem Stocked.popped {tcp : TCPSocketBandwidth} (h : Stocked tcp) {n : Nat}
    {data : Bytes} {buffer : List DataChunk}
    (hpop : TCPSocketBandwidth.popBuffer (min n tcp.bufferUsed) tcp.buffer =
      some (data, buffer)) :
    Stocked
      { tcp with
        buffer := buffer
        bufferUsed := tcp.bufferUsed - min n tcp.bufferUsed } := by
  obtain ⟨-, hrest⟩ := h.popBuffer hpop
  show _ - _ = (unread buffer).length
  rw [hrest, List.length_drop, ← h]

/-- A transfer of no more than is there comes to an end. -/
theorem Stocked.transfer {U : Type}
    {publish : SocketEvent → Linked TCPSocketBandwidth U →
      Linked TCPSocketBandwidth U}
    {w : Linked TCPSocketBandwidth U} (h : Stocked w.sock) {n : Nat}
    (hle : n ≤ w.sock.bufferUsed) :
    ∃ w', TCPSocketBandwidth.transfer publish n w = some w' := by
  by_cases hidle : (w.sock.stopped || n == 0) = true
  · exact ⟨w, if_pos hidle⟩
  · have hn : n ≠ 0 := by
      intro hzero
      simp [hzero] at hidle
    have hlength : min n w.sock.bufferUsed ≤ (unread w.sock.buffer).length :=
      h ▸ Nat.min_le_right _ _
    have hne : w.sock.buffer ≠ [] := by
      intro hnil
      rw [Stocked, hnil] at h
      simp at h
      omega
    obtain ⟨left, hpop, -⟩ := popBuffer_spec hne hlength
    unfold TCPSocketBandwidth.transfer
    rw [if_neg hidle]
    simp only []
    rw [hpop]
    exact ⟨_, rfl⟩

theorem bufferData_queue (data : Bytes) (tcp : TCPSocketBandwidth) :
    (bufferData data tcp).buffer = tcp.buffer ++ [{ data := data }] ∧
      (bufferData data tcp).bufferUsed = tcp.bufferUsed + data.length := by
  unfold bufferData
  dsimp only
  split <;> exact ⟨rfl, rfl⟩

theorem Stocked.received {tcp : TCPSocketBandwidth} (h : Stocked tcp)
    (data : Bytes) : Stocked (bufferData data tcp) := by
  obtain ⟨hbuffer, hused⟩ := bufferData_queue data tcp
  unfold Stocked
  rw [hbuffer, hused, unread_emplace, List.length_append, h]

theorem Faithful.deliver {w : Observed} (h : Faithful w) {n : Nat}
    {data : Bytes} {buffer : List DataChunk}
    (hpop : TCPSocketBandwidth.popBuffer (min n w.sock.bufferUsed)
      w.sock.buffer = some (data, buffer)) :
    Faithful (delivered n data buffer w) := by
  have hstocked : Stocked w.sock := h.used
  refine ⟨?_, hstocked.popped hpop⟩
  obtain ⟨rfl, hrest⟩ := hstocked.popBuffer hpop
  simp only [delivered, note, TCPSocketBandwidth.popped, receivedBytes_snoc,
    publishedBytes_snoc, Note.receivedBytes, Note.publishedBytes,
    List.append_nil, List.append_assoc]
  rw [hrest, List.take_append_drop]
  exact h.bytes

/-- A note without bytes, on a socket with the same queue. -/
theorem Faithful.congr {w w' : Observed} {n : Note} (h : Faithful w)
    (howner : w'.owner = w.owner ++ [n]) (hr : n.receivedBytes = [])
    (hp : n.publishedBytes = []) (hb : w'.sock.buffer = w.sock.buffer)
    (hu : w'.sock.bufferUsed = w.sock.bufferUsed) : Faithful w' := by
  refine ⟨?_, ?_⟩
  · rw [howner, receivedBytes_snoc, publishedBytes_snoc, hr, hp, hb,
      List.append_nil, List.append_nil]
    exact h.bytes
  · rw [hb, hu]
    exact h.used

theorem Faithful.receive {w : Observed} (h : Faithful w) (data : Bytes) :
    Faithful
      (note (.received data) { w with sock := bufferData data w.sock }) := by
  have hstocked : Stocked w.sock := h.used
  refine ⟨?_, hstocked.received data⟩
  simp only [note, receivedBytes_snoc, publishedBytes_snoc,
    Note.receivedBytes, Note.publishedBytes, List.append_nil]
  rw [(bufferData_queue data w.sock).1, unread_emplace, h.bytes,
    List.append_assoc]

theorem Faithful.kept : Kept (fun _ => True) Faithful where
  call := fun c w _ h => by
    have hlevel := level_call c w.sock
    simp only [level, Prod.mk.injEq] at hlevel
    obtain ⟨-, -, hused, -, hbuffer⟩ := hlevel
    exact h.congr rfl rfl rfl hbuffer hused
  deliver := fun _ _ _ _ h _ hpop => h.deliver hpop
  finish := fun _ h _ _ => h.congr rfl rfl rfl rfl rfl
  resume := fun _ h _ _ => ⟨h.bytes, h.used⟩
  receive := fun data _ h _ => h.receive data
  ended := fun _ h => h.congr rfl rfl rfl rfl rfl
  endedAgain := fun _ h => h.congr rfl rfl rfl rfl rfl
  forward := fun event _ h hdata _ => by
    refine h.congr rfl rfl ?_ rfl rfl
    cases event <;> first
      | rfl
      | exact absurd rfl (hdata _)
  listen := fun _ _ h => ⟨h.bytes, h.used⟩

theorem Faithful.created (conn bufferMaxLength : Nat) :
    Faithful (created conn bufferMaxLength) := ⟨rfl, rfl⟩

/-- In every run the socket's queue holds what it received and has not yet
published. -/
theorem Faithful.run {conn bufferMaxLength : Nat} {w : Observed}
    {hist : List (Observed × (Event × React))}
    (hr : Runs (TCPSocketBandwidth.created conn bufferMaxLength) hist w) :
    Faithful w ∧ Armed none w.sock :=
  Faithful.kept.run hr (fun _ _ => atResume_trivial)
    ((Armed.create conn).congr rfl rfl rfl)
    (Faithful.created conn bufferMaxLength)

/-! ## The portions of a controller -/

def Note.portion : Note → Option Bytes
  | .published (.dataEvent data) => some data
  | _ => none

/-- The contents of the `DataEvent`s the socket published. -/
def portions (notes : List Note) : List Bytes := notes.filterMap Note.portion

/-- What a transfer of no more than `available()` does: nothing to a stopped
socket, and otherwise it publishes one `DataEvent` of exactly that length. -/
structure Portion (react : React) (n : Nat) (w : Observed) : Prop where
  stopped : w.sock.stopped = true → transfer (publish react) n w = some w
  running : w.sock.stopped = false → ∃ w' data,
    transfer (publish react) n w = some w' ∧
      portions w'.owner = portions w.owner ++ [data] ∧ data.length = n

/-- All of some transfers made in a row, as far as they ask for no more than
`available()`. -/
def Portions (react : React) : List Nat → Observed → Prop
  | [], _ => True
  | n :: lengths, w =>
      (1 ≤ n → n ≤ available w.sock → Portion react n w) ∧
        ∀ w', transfer (publish react) n w = some w' →
          Portions react lengths w'

theorem portions_append (notes notes' : List Note) :
    portions (notes ++ notes') = portions notes ++ portions notes' := by
  simp [portions]

@[simp] theorem portions_called (calls : List Call) :
    portions (calls.map Note.called) = [] := by
  simp [portions, Note.portion]

/-- Whatever the handlers do, a publication adds its own bytes only. -/
theorem portions_publish (react : React) (event : SocketEvent) (w : Observed) :
    portions (publish react event w).owner =
      portions w.owner ++ portions [.published event] := by
  rw [publish_eq, owner_foldl_doCall, portions_append, portions_called,
    List.append_nil]
  exact portions_append _ _

theorem portions_afterData (react : React) (w : Observed) :
    portions (afterData (publish react) w).owner = portions w.owner := by
  rcases afterData_cases (publish react) w with
    ⟨-, -, heq⟩ | ⟨-, heq⟩ | ⟨-, -, heq⟩
  · rw [heq, portions_publish]
    simp [portions, Note.portion]
  · simp [heq, resumed]
  · rw [heq]

theorem length_unread (queue : List DataChunk) :
    (unread queue).length = (queue.map DataChunk.available).sum := by
  induction queue with
  | nil => simp
  | cons chunk queue ih => simp [ih]

theorem Faithful.portion {w : Observed} (h : Faithful w) (react : React)
    {n : Nat} (hn : 1 ≤ n) (hle : n ≤ available w.sock) :
    Portion react n w := by
  refine ⟨fun hs => by simp [transfer, hs], fun hs => ?_⟩
  have hused : n ≤ (unread w.sock.buffer).length := by
    rw [← h.used]
    exact hle
  have hne : w.sock.buffer ≠ [] := by
    intro hnil
    rw [hnil] at hused
    simp at hused
    omega
  have hmin : min n w.sock.bufferUsed = n := Nat.min_eq_left hle
  have hzero : n ≠ 0 := by omega
  obtain ⟨left, hpop, -⟩ := popBuffer_spec hne hused
  refine ⟨afterData (publish react) (publish react
    (.dataEvent ((unread w.sock.buffer).take n)) (popped n left w)),
    (unread w.sock.buffer).take n, ?_, ?_, ?_⟩
  · simp [transfer, hs, hzero, hmin, hpop, popped]
  · rw [portions_afterData, portions_publish]
    simp [portions, Note.portion, popped]
  · rw [List.length_take]
    omega

theorem Faithful.portions {react : React} {lengths : List Nat} {w : Observed}
    (h : Faithful w) : Portions react lengths w := by
  induction lengths generalizing w with
  | nil => trivial
  | cons n lengths ih =>
      refine ⟨h.portion react, fun w' ht => ih ?_⟩
      exact Faithful.kept.toKeptInside.transfer acts_any atResume_trivial h ht

/-- The transfers of an event begin in a state as faithful as the one the event
finds. -/
theorem Faithful.transfersFrom {w : Observed} (h : Faithful w) (e : Event) :
    Faithful (e.transfersFrom w).2 := by
  cases e with
  | data segment sync =>
      have htaking : Faithful (taking .data w) := ⟨h.bytes, h.used⟩
      exact htaking.receive segment
  | error err => exact h
  | connected => exact h
  | written => exact h
  | ended => exact h
  | shutDown => exact h
  | closed => exact h
  | transfer n => exact h
  | call c => exact h

/-- In every state a run passes, the published bytes and the queue are the
received bytes and `buffer_used` counts the queue; and whatever event comes
next, each of its transfers that asks for no more than is available publishes
what it was asked for, or does nothing because the socket is stopped. -/
theorem byte_stream_faithful {conn bufferMaxLength : Nat} {w : Observed}
    {hist : List (Observed × (Event × React))}
    (hr : Runs (TCPSocketBandwidth.created conn bufferMaxLength) hist w)
    (x : Observed) (hx : Passes hist w x) :
    (receivedBytes x.owner = publishedBytes x.owner ++ unread x.sock.buffer ∧
      x.sock.bufferUsed = (x.sock.buffer.map DataChunk.available).sum) ∧
    ∀ e : Event × React,
      Portions e.2 (e.1.transfersFrom x).1 (e.1.transfersFrom x).2 := by
  have hf : Faithful x :=
    hr.always (C := fun _ _ => True) (fun _ _ => trivial)
      (fun hr' _ => (Faithful.run hr').1) hx
  refine ⟨⟨hf.bytes, ?_⟩, fun e => (hf.transfersFrom e.1).portions⟩
  rw [hf.used, length_unread]

/-- Two segments, a transfer across their boundary whose handler stops the
socket, and a transfer on the stopped socket. -/
theorem byte_stream_faithful_split : ∃ hist w,
    Runs (created 0 4) hist w ∧ portions w.owner = [[1, 2, 3]] ∧
      receivedBytes w.owner = publishedBytes w.owner ++ unread w.sock.buffer :=
    by
  obtain ⟨hist, w, hexec, hportions⟩ : ∃ hist w,
      exec step (created 0 4)
        [(.call .read, quietOwner), (.data [1, 2] [], quietOwner),
          (.data [3, 4] [], quietOwner),
          (.transfer 3, fun _ _ => [.stop]),
          (.transfer 1, quietOwner)] = some (hist, w) ∧
        portions w.owner = [[1, 2, 3]] :=
    ⟨_, _, rfl, rfl⟩
  have hr := run_of_exec hexec
  exact ⟨hist, w, hr, hportions, (byte_stream_faithful hr w .last).1.1⟩

/-! ## The front of the queue -/

/-- A transfer that gets as far as `pop_buffer` finds a chunk whenever it looks
for one, and copies as many bytes as the clamped length says. -/
def PopsSafely (n : Nat) (s : TCPSocketBandwidth) : Prop :=
  s.stopped = true ∨ n = 0 ∨
    ∃ data left, popBuffer (min n s.bufferUsed) s.buffer = some (data, left) ∧
      data.length = min n s.bufferUsed

/-- The socket is stopped, nothing is asked for, or the queue has a chunk. -/
def NoEmptyFront (n : Nat) (s : TCPSocketBandwidth) : Prop :=
  s.stopped = true ∨ n = 0 ∨ s.buffer ≠ []

/-- The length is tested before it is clamped, so a running socket whose queue is
empty is asked for nothing and looks for a chunk all the same. -/
theorem Faithful.popsSafely_iff {w : Observed} (h : Faithful w) (n : Nat) :
    PopsSafely n w.sock ↔ NoEmptyFront n w.sock := by
  refine or_congr Iff.rfl (or_congr Iff.rfl ⟨?_, fun hne => ?_⟩)
  · rintro ⟨data, left, hpop, -⟩ hnil
    rw [hnil] at hpop
    cases hpop
  · have hle : min n w.sock.bufferUsed ≤ (unread w.sock.buffer).length := by
      rw [← h.used]
      exact Nat.min_le_right _ _
    obtain ⟨left, hpop, -⟩ := popBuffer_spec hne hle
    exact ⟨_, left, hpop, List.length_take_of_le hle⟩

/-- What the queue's agreement gives for one transfer holds of all transfers made
in a row. -/
theorem Faithful.along {react : React} {C : Observed → Nat → Prop}
    (hC : ∀ {w} n, Faithful w → C w n) {lengths : List Nat} {w : Observed}
    (h : Faithful w) :
    Along (fun w n => transfer (publish react) n w) C w lengths := by
  induction lengths generalizing w with
  | nil => trivial
  | cons n lengths ih =>
      refine ⟨hC n h, fun w' ht => ih ?_⟩
      exact Faithful.kept.toKeptInside.transfer acts_any atResume_trivial h ht

/-- In every state a run passes a transfer of any length takes its bytes from the
queue safely just when the socket is stopped, nothing is asked for, or the queue
has a chunk; and so does each transfer the controller makes in the middle of
whatever event comes next. -/
theorem pop_buffer_safe_iff {conn bufferMaxLength : Nat} {w : Observed}
    {hist : List (Observed × (Event × React))}
    (hr : Runs (TCPSocketBandwidth.created conn bufferMaxLength) hist w)
    (x : Observed) (hx : Passes hist w x) :
    (∀ n, PopsSafely n x.sock ↔ NoEmptyFront n x.sock) ∧
    ∀ e : Event × React, Along (fun y n => transfer (publish e.2) n y)
      (fun y n => PopsSafely n y.sock ↔ NoEmptyFront n y.sock)
      (e.1.transfersFrom x).2 (e.1.transfersFrom x).1 := by
  have hf : Faithful x :=
    hr.always (C := fun _ _ => True) (fun _ _ => trivial)
      (fun hr' _ => (Faithful.run hr').1) hx
  refine ⟨hf.popsSafely_iff, fun e => ?_⟩
  exact (hf.transfersFrom e.1).along fun n h => h.popsSafely_iff n

/-- A running socket with a segment of two bytes in its queue, asked for five. -/
theorem pop_buffer_safe_clamped : ∃ hist w,
    Runs (created 0 4) hist w ∧ w.sock.bufferUsed = 2 ∧
      PopsSafely 5 w.sock := by
  obtain ⟨hist, w, hexec, hused, hbuffer⟩ : ∃ hist w,
      exec step (created 0 4)
        [(.call .read, quietOwner), (.data [1, 2] [], quietOwner)] =
        some (hist, w) ∧ w.sock.bufferUsed = 2 ∧ w.sock.buffer ≠ [] :=
    ⟨_, _, rfl, rfl, by decide⟩
  have hr := run_of_exec hexec
  exact ⟨hist, w, hr, hused,
    ((pop_buffer_safe_iff hr w .last).1 5).mpr (.inr (.inr hbuffer))⟩

/-- A socket that is read and asked for a byte before it has received any. -/
theorem pop_buffer_unsafe : ¬ ∀ (conn bufferMaxLength : Nat)
    (hist : List (Observed × (Event × React))) (w : Observed),
    Runs (created conn bufferMaxLength) hist w → ∀ n, PopsSafely n w.sock := by
  intro hall
  obtain ⟨hist, w, hexec, hsock⟩ : ∃ hist w,
      exec step (created 0 4) [(.call .read, quietOwner)] = some (hist, w) ∧
        w.sock = read (setBuffer 4 (create 0)) := ⟨_, _, rfl, rfl⟩
  rcases hall 0 4 hist w (run_of_exec hexec) 1 with h | h | ⟨_, _, h, -⟩
  · rw [hsock] at h
    cases h
  · cases h
  · rw [hsock] at h
    cases h

end TCPSocketBandwidth

end EcwidDownloader
