import EcwidDownloader.Proofs.TcpStream

/-!
# An event of the inner socket, listener by listener

Between two events every listener of the inner socket stands once, so an event
runs the one listener of its kind, which is registered again unless the socket
was closed meanwhile. The inversion is stated for any owner.
-/

namespace EcwidDownloader

open Lib

namespace TCPSocketBandwidth

/-! ## The queue of the socket -/

/-- No chunk in the queue is used up. -/
def Full (tcp : TCPSocketBandwidth) : Prop :=
  ∀ chunk ∈ tcp.buffer, chunk.rest ≠ []

theorem popBuffer_full : ∀ {queue : List DataChunk} {n : Nat} {data : Bytes}
    {left : List DataChunk}, (∀ chunk ∈ queue, chunk.rest ≠ []) →
    popBuffer n queue = some (data, left) → ∀ chunk ∈ left, chunk.rest ≠ []
  | [], _, _, _, _, hpop => by cases hpop
  | chunk :: queue, n, data, left, h, hpop => by
      have hqueue : ∀ chunk ∈ queue, chunk.rest ≠ [] :=
        fun c hc => h c (List.mem_cons_of_mem _ hc)
      rw [popBuffer] at hpop
      split at hpop
      · next hlt =>
          simp only [Option.some.injEq, Prod.mk.injEq] at hpop
          obtain ⟨-, rfl⟩ := hpop
          intro c hc
          rcases List.mem_cons.mp hc with rfl | hc
          · rw [DataChunk.rest_advance]
            rw [← DataChunk.length_rest] at hlt
            exact fun hnil => absurd (List.drop_eq_nil_iff.mp hnil) (by omega)
          · exact hqueue c hc
      · simp only [] at hpop
        split at hpop
        · obtain ⟨r, hr, heq⟩ := Option.map_eq_some_iff.mp hpop
          simp only [Prod.mk.injEq] at heq
          obtain ⟨-, rfl⟩ := heq
          exact popBuffer_full hqueue hr
        · simp only [Option.some.injEq, Prod.mk.injEq] at hpop
          obtain ⟨-, rfl⟩ := hpop
          exact hqueue

/-- An empty queue has no chunks. -/
theorem Full.buffer_nil {tcp : TCPSocketBandwidth} (h : Full tcp)
    (hnil : unread tcp.buffer = []) : tcp.buffer = [] := by
  cases hb : tcp.buffer with
  | nil => rfl
  | cons chunk queue =>
      rw [hb, unread_cons] at hnil
      exact absurd (List.append_eq_nil_iff.mp hnil).1
        (h chunk (hb ▸ List.mem_cons_self))

/-! ## One listener of the inner socket -/

section

variable {U : Type}
  {pub : SocketEvent → Linked TCPSocketBandwidth U →
    Linked TCPSocketBandwidth U}
  {shed : Linked TCPSocketBandwidth U → Option (Linked TCPSocketBandwidth U)}
  {event : SocketEvent} {w w' : Linked TCPSocketBandwidth U}

/-- The state in which the listeners of a kind run. -/
def unlisted (kind : EventKind) (w : Linked TCPSocketBandwidth U) :
    Linked TCPSocketBandwidth U :=
  { w with
    sock.socket.listeners :=
      Emitter.clearKind kind w.sock.socket.listeners }

/-- A listener is registered again, unless the socket was closed meanwhile. -/
def relisted (l : InnerListener) (w : Linked TCPSocketBandwidth U) :
    Linked TCPSocketBandwidth U :=
  if !w.sock.closed then
    { w with
      sock.socket.listeners := Emitter.once l w.sock.socket.listeners }
  else w

theorem relisted_armed {l : InnerListener} (hl : l ∈ standing)
    (h : Armed (some (Listens.kind l)) w.sock) :
    Armed none (relisted l w).sock := by
  have ha := Armed.relisten (w := { sock := w.sock, owner := [] }) hl h
  unfold relisted
  unfold relisten at ha
  split at ha
  · next hc => rw [if_pos hc]; exact ha
  · next hc => rw [if_neg hc]; exact ha

/-- What an event of the inner socket does: the listener that stands for it
runs. -/
inductive Moved
    (pub : SocketEvent → Linked TCPSocketBandwidth U →
      Linked TCPSocketBandwidth U)
    (shed : Linked TCPSocketBandwidth U →
      Option (Linked TCPSocketBandwidth U))
    (w : Linked TCPSocketBandwidth U) :
    SocketEvent → Linked TCPSocketBandwidth U → Prop
  | data (data : Bytes) {w₁ : Linked TCPSocketBandwidth U} :
      w.sock.closed = false →
      shed { unlisted .data w with
        sock := bufferData data (unlisted .data w).sock } = some w₁ →
      Moved pub shed w (.dataEvent data) (relisted .onData w₁)
  | forwarded (event : SocketEvent) : w.sock.closed = false →
      .onEvent event.kind ∈ standing →
      Moved pub shed w event
        (relisted (.onEvent event.kind) (pub event (unlisted event.kind w)))
  | ended : w.sock.closed = false →
      Moved pub shed w .endEvent
        { unlisted .endOfStream w with sock.eof := true }
  | endedAgain : w.sock.closed = false →
      Emitter.taken .endOfStream w.sock.socket.listeners = [] →
      Moved pub shed w .endEvent (unlisted .endOfStream w)
  | closed : w.sock.closed = true →
      Moved pub shed w .closeEvent (pub .closeEvent (unlisted .close w))
  | closedAgain : w.sock.closed = true →
      Moved pub shed w .closeEvent (unlisted .close w)

theorem innerEvent_taken (event : SocketEvent) {l : InnerListener}
    (h : Emitter.taken event.kind w.sock.socket.listeners = [l]) :
    innerEvent pub shed event w =
      runListener pub shed event (unlisted event.kind w) l := by
  simp only [innerEvent, h, List.foldlM_cons, List.foldlM_nil]
  exact bind_pure _

theorem innerEvent_untaken (event : SocketEvent)
    (h : Emitter.taken event.kind w.sock.socket.listeners = []) :
    innerEvent pub shed event w = some (unlisted event.kind w) := by
  simp only [innerEvent, h, List.foldlM_nil]
  rfl

/-- Between two events a listener is registered once. -/
theorem Armed.taken_one {tcp : TCPSocketBandwidth} (h : Armed none tcp)
    (hc : tcp.closed = false) {l : InnerListener} (hl : l ∈ standing) :
    Emitter.taken (Listens.kind l) tcp.socket.listeners = [l] :=
  (h.once hc l hl).trans (if_neg (Option.some_ne_none _))

/-- After the close of the inner socket no listener stands. -/
theorem Armed.unlisted_close (h : Armed none w.sock)
    (hc : w.sock.closed = true) : Armed none (unlisted .close w).sock :=
  (h.taking .close).unbusy
    fun _ _ hopen => Bool.noConfusion (hc.symm.trans hopen)

theorem innerEvent_forwarded (ha : Armed none w.sock)
    (hl : .onEvent event.kind ∈ standing) (hc : w.sock.closed = false)
    (hi : innerEvent pub shed event w = some w') : Moved pub shed w event w' := by
  rw [innerEvent_taken event (ha.taken_one hc hl)] at hi
  obtain rfl := Option.some.inj hi
  exact .forwarded event hc hl

/-- The inversion of `innerEvent` between events. -/
theorem innerEvent_moved (ha : Armed none w.sock)
    (hc : w.sock.socket.closed = decide (event = .closeEvent))
    (hi : innerEvent pub shed event w = some w') : Moved pub shed w event w' := by
  rw [ha.inner] at hc
  cases event with
  | errorEvent err =>
      exact innerEvent_forwarded ha (by simp [standing, SocketEvent.kind]) hc hi
  | connectEvent => exact innerEvent_forwarded ha (by decide) hc hi
  | writeEvent => exact innerEvent_forwarded ha (by decide) hc hi
  | shutdownEvent => exact innerEvent_forwarded ha (by decide) hc hi
  | dataEvent data =>
      rw [innerEvent_taken (.dataEvent data)
        (ha.taken_one hc (l := .onData) (by decide))] at hi
      obtain ⟨w₁, h₁, rfl⟩ := Option.map_eq_some_iff.mp hi
      exact .data data hc h₁
  | endEvent =>
      rcases ha.eof hc with htaken | htaken
      · rw [innerEvent_taken .endEvent htaken] at hi
        obtain rfl := Option.some.inj hi
        exact .ended hc
      · rw [innerEvent_untaken .endEvent htaken] at hi
        obtain rfl := Option.some.inj hi
        exact .endedAgain hc htaken
  | closeEvent =>
      rcases ha.close hc with hl | hl
      · have htaken : Emitter.taken SocketEvent.closeEvent.kind
            w.sock.socket.listeners = [.publishClose] := by
          rw [hl]
          rfl
        rw [innerEvent_taken .closeEvent htaken] at hi
        obtain rfl := Option.some.inj hi
        exact .closed hc
      · have htaken : Emitter.taken SocketEvent.closeEvent.kind
            w.sock.socket.listeners = [] := by
          rw [hl]
          rfl
        rw [innerEvent_untaken .closeEvent htaken] at hi
        obtain rfl := Option.some.inj hi
        exact .closedAgain hc

end

end TCPSocketBandwidth

end EcwidDownloader
