import EcwidDownloader.Aio.TcpBandwidthRun

/-!
# What a throttled socket does in one event

`transfer` publishes in its middle, so its effect is a chain of smaller moves:
bytes leave the queue and are published, the owner's calls follow, and then the
stream ends, resumes, or does nothing. `Kept` lists those moves, and `Kept.step`
says that a property every move keeps is kept by every event. The only move that
needs care in any of the properties proved from it is the resumption of the
inner socket, so `Kept` lets a proof assume something of the states in which it
happens, to be discharged from what is known of the event (`AtResume`).

The listeners on the inner socket are dealt with once, in `Armed`: each of the
standing listeners is registered exactly once in every state between events, so
an event of the inner socket runs exactly the callback the constructor of the
socket registered for it.
-/

namespace EcwidDownloader

open Lib

namespace TCPSocketBandwidth

/-! ## The queue -/

/-- `pop_buffer` cuts the requested number of bytes off the front of the queue,
whatever the chunk boundaries are. -/
theorem popBuffer_spec : ∀ {queue : List DataChunk} {n : Nat},
    queue ≠ [] → n ≤ (unread queue).length →
    ∃ left, popBuffer n queue = some ((unread queue).take n, left) ∧
      unread left = (unread queue).drop n := by
  intro queue
  induction queue with
  | nil => intro n hne _; exact absurd rfl hne
  | cons chunk queue ih =>
      intro n _ hn
      rw [unread_cons, List.length_append, DataChunk.length_rest] at hn
      rw [popBuffer]
      by_cases hlt : n < chunk.available
      · have htake : n ≤ chunk.rest.length := by
          rw [DataChunk.length_rest]; omega
        refine ⟨_, by rw [if_pos hlt, unread_cons,
          List.take_append_of_le_length htake], ?_⟩
        rw [unread_cons, unread_cons, DataChunk.rest_advance,
          List.drop_append_of_le_length htake]
      · have hge : chunk.rest.length ≤ n := by
          rw [DataChunk.length_rest]; omega
        have htake : (chunk.rest ++ unread queue).take n =
            chunk.rest ++ (unread queue).take (n - chunk.available) := by
          rw [List.take_append, List.take_of_length_le hge,
            DataChunk.length_rest]
        have hdrop : (chunk.rest ++ unread queue).drop n =
            (unread queue).drop (n - chunk.available) := by
          rw [List.drop_append, List.drop_eq_nil_of_le hge,
            DataChunk.length_rest, List.nil_append]
        rw [if_neg hlt, unread_cons, htake, hdrop]
        simp only []
        by_cases hmore : 0 < n - chunk.available
        · have hne : queue ≠ [] := by
            rintro rfl
            rw [unread_nil, List.length_nil] at hn
            omega
          have hle : n - chunk.available ≤ (unread queue).length := by omega
          obtain ⟨left, hleft, hrest⟩ := ih hne hle
          exact ⟨left, by rw [if_pos hmore, hleft]; rfl, hrest⟩
        · have hz : n - chunk.available = 0 := by omega
          refine ⟨queue, by rw [if_neg hmore, hz, List.take_zero,
            List.append_nil], by rw [hz, List.drop_zero]⟩

/-! ## One transfer -/

/-- The state a transfer hands to the owner's listeners. -/
def popped (n : Nat) (buffer : List DataChunk) {U : Type}
    (w : Linked TCPSocketBandwidth U) : Linked TCPSocketBandwidth U :=
  { w with
    sock.buffer := buffer
    sock.bufferUsed := w.sock.bufferUsed - min n w.sock.bufferUsed }

/-- The second test of `transfer` after its `DataEvent`: the pause ends. -/
def Resumes (s : TCPSocketBandwidth) : Prop :=
  ¬ (s.eof = true ∧ s.bufferUsed = 0) ∧ s.paused = true ∧
    s.bufferUsed < s.bufferMaxLength

def resumed {U : Type} (w : Linked TCPSocketBandwidth U) :
    Linked TCPSocketBandwidth U :=
  { w with sock.paused := false, sock.socket := w.sock.socket.read }

section

variable {U : Type}
  {pub : SocketEvent → Linked TCPSocketBandwidth U →
    Linked TCPSocketBandwidth U}

/-- Everything a transfer can do. -/
theorem transfer_cases {n : Nat} {w w' : Linked TCPSocketBandwidth U}
    (h : transfer pub n w = some w') :
    ((w.sock.stopped = true ∨ n = 0) ∧ w' = w) ∨
    (w.sock.stopped = false ∧ n ≠ 0 ∧ ∃ data buffer,
      popBuffer (min n w.sock.bufferUsed) w.sock.buffer = some (data, buffer) ∧
      w' = afterData pub (pub (.dataEvent data) (popped n buffer w))) := by
  rw [transfer] at h
  split at h
  · next hidle =>
      simp only [Bool.or_eq_true, beq_iff_eq] at hidle
      exact .inl ⟨hidle, by simpa using h.symm⟩
  · next hrun =>
      simp only [Bool.or_eq_true, beq_iff_eq, not_or,
        Bool.not_eq_true] at hrun
      simp only [] at h
      split at h
      · cases h
      · next data buffer hpop =>
          exact .inr ⟨hrun.1, hrun.2, data, buffer, hpop,
            (Option.some.inj h).symm⟩

/-- Everything `transfer` can do after its `DataEvent`. -/
theorem afterData_cases
    (pub : SocketEvent → Linked TCPSocketBandwidth U →
      Linked TCPSocketBandwidth U) (w : Linked TCPSocketBandwidth U) :
    (w.sock.eof = true ∧ w.sock.bufferUsed = 0 ∧
      afterData pub w = pub .endEvent { w with sock.stopped := true }) ∨
    (Resumes w.sock ∧ afterData pub w = resumed w) ∨
    (¬ (w.sock.eof = true ∧ w.sock.bufferUsed = 0) ∧ ¬ Resumes w.sock ∧
      afterData pub w = w) := by
  unfold afterData Resumes
  split
  · next hend =>
      simp only [Bool.and_eq_true, beq_iff_eq] at hend
      exact .inl ⟨hend.1, hend.2, rfl⟩
  · next hend =>
      simp only [Bool.and_eq_true, beq_iff_eq] at hend
      split
      · next hres =>
          simp only [Bool.and_eq_true, decide_eq_true_eq] at hres
          exact .inr (.inl ⟨⟨hend, hres⟩, rfl⟩)
      · next hres =>
          simp only [Bool.and_eq_true, decide_eq_true_eq] at hres
          exact .inr (.inr ⟨hend, fun hc => hres hc.2, rfl⟩)

end

/-! ## The owner's calls -/

theorem read_of_paused {s : TCPSocketBandwidth} (h : s.paused = true) :
    read s = { s with stopped := false } := by
  simp [read, h]

theorem read_of_running {s : TCPSocketBandwidth} (h : s.paused = false) :
    read s = { s with stopped := false, socket := s.socket.read } := by
  simp [read, h]

theorem stop_of_paused {s : TCPSocketBandwidth} (h : s.paused = true) :
    stop s = { s with stopped := true } := by
  simp [stop, h]

theorem stop_of_running {s : TCPSocketBandwidth} (h : s.paused = false) :
    stop s = { s with stopped := true, socket := s.socket.stop } := by
  simp [stop, h]

theorem close_of_open {s : TCPSocketBandwidth} (h : s.closed = false) :
    close s =
      { s with
        closed := true
        stopped := true
        socket := { s.socket with listeners := [.publishClose] }.close } := by
  simp [close, h]

theorem close_of_closed {s : TCPSocketBandwidth} (h : s.closed = true) :
    close s = s := by
  simp [close, h]

theorem publish_eq (react : React) (event : SocketEvent) (w : Observed) :
    publish react event w =
      (react w event).foldl (fun w c => doCall c w)
        (note (.published event) w) := rfl

/-- A property the calls keep is kept by any list of them. -/
theorem foldl_doCall_inv {Q : Call → Prop} {I : Observed → Prop}
    (hcall : ∀ c w, Q c → I w → I (doCall c w)) {calls : List Call}
    {w : Observed} (hQ : ∀ c ∈ calls, Q c) (h : I w) :
    I (calls.foldl (fun w c => doCall c w) w) := by
  induction calls generalizing w with
  | nil => exact h
  | cons c calls ih =>
      exact ih (fun c' hc' => hQ c' (List.mem_cons_of_mem _ hc'))
        (hcall c w (hQ c List.mem_cons_self) h)

/-- A handler's calls are noted behind what was observed before. -/
theorem owner_foldl_doCall : ∀ {calls : List Call} {w : Observed},
    (calls.foldl (fun w c => doCall c w) w).owner =
      w.owner ++ calls.map Note.called
  | [], w => (List.append_nil _).symm
  | c :: calls, w => by
      rw [List.foldl_cons, owner_foldl_doCall]
      simp [doCall, note]

/-- A handler's calls act on the socket in order. -/
theorem sock_foldl_doCall : ∀ {calls : List Call} {w : Observed},
    (calls.foldl (fun w c => doCall c w) w).sock =
      calls.foldl (fun s c => call c s) w.sock
  | [], _ => rfl
  | c :: calls, w => by
      rw [List.foldl_cons, sock_foldl_doCall]
      rfl

/-- The fields no call of the owner changes. -/
def level (s : TCPSocketBandwidth) : Bool × Bool × Nat × Nat × List DataChunk :=
  (s.paused, s.eof, s.bufferUsed, s.bufferMaxLength, s.buffer)

theorem level_call (c : Call) (s : TCPSocketBandwidth) :
    level (call c s) = level s := by
  cases c with
  | connect ip port => rfl
  | connect6 ip port => rfl
  | write data => rfl
  | shutdown => rfl
  | read =>
      show level (read s) = level s
      unfold read
      dsimp only
      split <;> rfl
  | stop =>
      show level (stop s) = level s
      unfold stop
      dsimp only
      split <;> rfl
  | close =>
      show level (close s) = level s
      unfold close
      split <;> rfl

theorem level_publish (react : React) (event : SocketEvent) (w : Observed) :
    level (publish react event w).sock = level w.sock := by
  rw [publish_eq, sock_foldl_doCall]
  show _ = level (note (.published event) w).sock
  generalize (note (.published event) w).sock = s
  induction react w event generalizing s with
  | nil => rfl
  | cons c calls ih => rw [List.foldl_cons, ih, level_call]

/-! ## Listeners -/

/-- The listeners that stand for the whole life of an open socket. -/
def standing : List InnerListener :=
  [.onEvent .error, .onEvent .connect, .onEvent .write, .onEvent .shutdown,
    .onData]

/-- Between events every standing listener of an open socket is registered
exactly once, and nothing but the forwarder of the `CloseEvent` is left on a
closed one. `busy` is the kind whose listener is running. -/
structure Armed (busy : Option EventKind) (s : TCPSocketBandwidth) : Prop where
  inner : s.socket.closed = s.closed
  once : s.closed = false → ∀ l ∈ standing,
    Emitter.taken (Listens.kind l) s.socket.listeners =
      if some (Listens.kind l) = busy then [] else [l]
  eof : s.closed = false →
    Emitter.taken .endOfStream s.socket.listeners = [.setEof] ∨
      Emitter.taken .endOfStream s.socket.listeners = []
  close : s.closed = true →
    s.socket.listeners = [.publishClose] ∨ s.socket.listeners = []

theorem Armed.create (conn : Nat) : Armed none (create conn) where
  inner := rfl
  once := by
    intro _ l hl
    simp only [standing, List.mem_cons, List.not_mem_nil, or_false] at hl
    rcases hl with rfl | rfl | rfl | rfl | rfl <;> rfl
  eof := fun _ => .inl rfl
  close := fun h => absurd h (Bool.false_ne_true)

/-- Being armed is about the listeners and the two flags that say closed. -/
theorem Armed.congr {busy : Option EventKind} {s s' : TCPSocketBandwidth}
    (h : Armed busy s) (hc : s'.closed = s.closed)
    (hs : s'.socket.closed = s.socket.closed)
    (hl : s'.socket.listeners = s.socket.listeners) : Armed busy s' where
  inner := by rw [hc, hs]; exact h.inner
  once := by rw [hc, hl]; exact h.once
  eof := by rw [hc, hl]; exact h.eof
  close := by rw [hc, hl]; exact h.close

theorem Armed.call {busy : Option EventKind} {s : TCPSocketBandwidth}
    (h : Armed busy s) (c : Call) : Armed busy (TCPSocketBandwidth.call c s) := by
  cases c with
  | connect ip port => exact h.congr rfl rfl rfl
  | connect6 ip port => exact h.congr rfl rfl rfl
  | write data => exact h.congr rfl rfl rfl
  | shutdown => exact h.congr rfl rfl rfl
  | read =>
      show Armed busy (read s)
      cases hp : s.paused with
      | true => rw [read_of_paused hp]; exact h.congr rfl rfl rfl
      | false => rw [read_of_running hp]; exact h.congr rfl rfl rfl
  | stop =>
      show Armed busy (stop s)
      cases hp : s.paused with
      | true => rw [stop_of_paused hp]; exact h.congr rfl rfl rfl
      | false => rw [stop_of_running hp]; exact h.congr rfl rfl rfl
  | close =>
      show Armed busy (TCPSocketBandwidth.close s)
      cases hc : s.closed with
      | true => rw [close_of_closed hc]; exact h
      | false =>
          rw [close_of_open hc]
          exact ⟨rfl, nofun, nofun, fun _ => .inl rfl⟩

/-! ## Moves and events -/

/-- `delivered`: a transfer took some bytes out of the queue and published
them; the owner's listeners have not run yet. -/
def delivered (n : Nat) (data : Bytes) (buffer : List DataChunk)
    (w : Observed) : Observed :=
  note (.published (.dataEvent data)) (popped n buffer w)

/-- A property kept by everything a transfer consists of. `Q` is what may be
assumed of the calls of the owner, `R` of the states in which the inner socket
is resumed. -/
structure KeptInside (Q : Call → Prop) (R I : Observed → Prop) : Prop where
  call : ∀ c w, Q c → I w → I (doCall c w)
  deliver : ∀ n data buffer w, I w → w.sock.stopped = false →
    popBuffer (min n w.sock.bufferUsed) w.sock.buffer = some (data, buffer) →
    I (delivered n data buffer w)
  finish : ∀ w, I w → w.sock.eof = true → w.sock.bufferUsed = 0 →
    I (note (.published .endEvent) { w with sock.stopped := true })
  resume : ∀ w, I w → Resumes w.sock → R w → I (resumed w)

/-- A property kept by everything a socket can do. -/
structure Kept (R I : Observed → Prop) : Prop
    extends KeptInside (fun _ => True) R I where
  receive : ∀ data w, I w → w.sock.closed = false →
    I (note (.received data) { w with sock := bufferData data w.sock })
  ended : ∀ w, I w → I (note .ended { w with sock.eof := true })
  endedAgain : ∀ w, I w → I (note .ended w)
  forward : ∀ event w, I w → (∀ data, event ≠ .dataEvent data) →
    event ≠ .endEvent → I (note (.published event) w)
  listen : ∀ listeners w, I w →
    I { w with sock.socket.listeners := listeners }

/-- What is assumed of the calls a handler makes. -/
def Acts (Q : Call → Prop) (react : React) : Prop :=
  ∀ w event, ∀ c ∈ react w event, Q c

theorem acts_any {react : React} : Acts (fun _ => True) react :=
  fun _ _ _ _ => trivial

/-- What is assumed of the resumptions among some transfers made in a row. -/
def AtResume (R : Observed → Prop) (react : React) :
    List Nat → Observed → Prop
  | [], _ => True
  | n :: lengths, w =>
      (∀ data buffer, w.sock.stopped = false → n ≠ 0 →
        popBuffer (min n w.sock.bufferUsed) w.sock.buffer =
          some (data, buffer) →
        Resumes (publish react (.dataEvent data) (popped n buffer w)).sock →
        R (publish react (.dataEvent data) (popped n buffer w))) ∧
      ∀ w', transfer (publish react) n w = some w' →
        AtResume R react lengths w'

/-- The transfers an event consists of, with the state the first one finds. -/
def Event.transfersFrom (w : Observed) : Event → List Nat × Observed
  | .data segment sync =>
      (sync, note (.received segment)
        { w with
          sock := bufferData segment { w.sock with
            socket.listeners :=
              Emitter.clearKind .data w.sock.socket.listeners } })
  | .transfer n => ([n], w)
  | _ => ([], w)

section

variable {Q : Call → Prop} {R I : Observed → Prop}

theorem KeptInside.publish (hK : KeptInside Q R I) {react : React}
    (hQ : Acts Q react) {event : SocketEvent} {w : Observed}
    (h : I (note (.published event) w)) : I (publish react event w) := by
  rw [publish_eq]
  exact foldl_doCall_inv hK.call (hQ w event) h

theorem KeptInside.transfer (hK : KeptInside Q R I) {react : React}
    (hQ : Acts Q react) {n : Nat} {w w' : Observed}
    (hR : AtResume R react [n] w) (h : I w)
    (ht : TCPSocketBandwidth.transfer (TCPSocketBandwidth.publish react) n w =
      some w') : I w' := by
  rcases transfer_cases ht with ⟨_, rfl⟩ | ⟨hs, hn, data, buffer, hpop, rfl⟩
  · exact h
  · have hdata : I (TCPSocketBandwidth.publish react (.dataEvent data)
        (popped n buffer w)) :=
      hK.publish hQ (hK.deliver n data buffer w h hs hpop)
    rcases afterData_cases (TCPSocketBandwidth.publish react)
        (TCPSocketBandwidth.publish react (.dataEvent data)
          (popped n buffer w)) with
      ⟨heof, hused, heq⟩ | ⟨hres, heq⟩ | ⟨_, _, heq⟩
    · rw [heq]
      exact hK.publish hQ (hK.finish _ hdata heof hused)
    · rw [heq]
      exact hK.resume _ hdata hres (hR.1 data buffer hs hn hpop hres)
    · rw [heq]
      exact hdata

theorem KeptInside.transfers (hK : KeptInside Q R I) {react : React}
    (hQ : Acts Q react) {lengths : List Nat} {w w' : Observed}
    (hR : AtResume R react lengths w) (h : I w)
    (ht : TCPSocketBandwidth.transfers react lengths w = some w') : I w' := by
  refine (Lib.foldlM_keeps
    (I := fun lengths w => AtResume R react lengths w ∧ I w)
    (fun h h₁ => ⟨h.1.2 _ h₁, ?_⟩) ⟨hR, h⟩ ht).2
  exact hK.transfer hQ ⟨h.1.1, fun _ _ => trivial⟩ h.2 h₁

end

/-- The pieces of an event of the inner socket, `none` where it has no
listener. -/
theorem innerEvent_of_taken {react : React}
    {shed : Observed → Option Observed} (event : SocketEvent) (w : Observed)
    {l : InnerListener}
    (h : Emitter.taken event.kind w.sock.socket.listeners = [l]) :
    innerEvent (publish react) shed event w =
      runListener (publish react) shed event
        { w with
          sock.socket.listeners :=
            Emitter.clearKind event.kind w.sock.socket.listeners } l := by
  simp only [innerEvent, h, List.foldlM_cons, List.foldlM_nil]
  exact bind_pure _

theorem innerEvent_of_nil {react : React}
    {shed : Observed → Option Observed} (event : SocketEvent) (w : Observed)
    (h : Emitter.taken event.kind w.sock.socket.listeners = []) :
    innerEvent (publish react) shed event w = some
      { w with
        sock.socket.listeners :=
          Emitter.clearKind event.kind w.sock.socket.listeners } := by
  simp only [innerEvent, h, List.foldlM_nil]
  rfl

/-- `on_event` and `on_data` listen again unless they find the socket closed. -/
def relisten (l : InnerListener) (w : Observed) : Observed :=
  if !w.sock.closed then
    { w with
      sock.socket.listeners := Emitter.once l w.sock.socket.listeners }
  else w

/-- The state in which the listeners of an event of the inner socket run. -/
def taking (kind : EventKind) (w : Observed) : Observed :=
  { w with
    sock.socket.listeners :=
      Emitter.clearKind kind w.sock.socket.listeners }

/-- The events `on_event` forwards. -/
def Event.forwarded : Event → Option SocketEvent
  | .error err => some (.errorEvent err)
  | .connected => some .connectEvent
  | .written => some .writeEvent
  | .shutDown => some .shutdownEvent
  | _ => none

/-- Everything one event can do, between events. -/
inductive Steps (react : React) (w : Observed) : Event → Observed → Prop
  | data {segment sync w₁} : w.sock.closed = false →
      transfers react sync (Event.transfersFrom w (.data segment sync)).2 =
        some w₁ →
      Steps react w (.data segment sync) (relisten .onData w₁)
  | forwarded {e : Event} {event} : e.forwarded = some event →
      w.sock.closed = false →
      Steps react w e
        (relisten (.onEvent event.kind)
          (publish react event (taking event.kind w)))
  | ended : w.sock.closed = false →
      Steps react w .ended
        (note .ended (taking .endOfStream { w with sock.eof := true }))
  | endedAgain : w.sock.closed = false →
      Emitter.taken .endOfStream w.sock.socket.listeners = [] →
      Steps react w .ended (note .ended (taking .endOfStream w))
  | closed : w.sock.closed = true →
      Steps react w .closed (publish react .closeEvent (taking .close w))
  | closedAgain : w.sock.closed = true →
      Steps react w .closed (taking .close w)
  | transfer {n w'} :
      TCPSocketBandwidth.transfer (publish react) n w = some w' →
      Steps react w (.transfer n) w'
  | call {c} : Steps react w (.call c) (doCall c w)

theorem step_forwarded {react : React} {w w' : Observed} {e : Event}
    {event : SocketEvent} (hA : Armed none w.sock)
    (he : e.forwarded = some event) (hs : step w (e, react) = some w') :
    Steps react w e w' := by
  have hinner : e.inner = some event ∧ e.arrival = [] ∧
      event ≠ .closeEvent ∧ .onEvent event.kind ∈ standing := by
    cases e <;> simp only [Event.forwarded, Option.some.injEq, reduceCtorEq]
      at he <;> subst he <;> simp [Event.inner, Event.arrival, standing,
        SocketEvent.kind]
  obtain ⟨hi, harr, hne, hmem⟩ := hinner
  have hstep : step w (e, react) =
      if w.sock.socket.closed = decide (event = .closeEvent) then
        innerEvent (publish react) (transfers react e.sync) event
          { w with owner := w.owner ++ e.arrival }
      else none := by
    cases e <;> simp only [Event.forwarded, reduceCtorEq] at he <;>
      simp only [Event.inner, Option.some.injEq] at hi <;> subst hi <;> rfl
  rw [hstep, harr, List.append_nil, decide_eq_false hne, hA.inner] at hs
  split at hs
  · next hc =>
      have htaken := hA.once hc _ hmem
      rw [if_neg (by simp)] at htaken
      rw [innerEvent_of_taken event w htaken] at hs
      have hw' := Option.some.inj hs
      subst hw'
      exact .forwarded he hc
  · cases hs

/-- The `CloseEvent` of the inner socket is forwarded once. -/
theorem step_closed {react : React} {w w' : Observed} (hA : Armed none w.sock)
    (hs : step w (.closed, react) = some w') :
    w.sock.closed = true ∧
      ((w.sock.socket.listeners = [.publishClose] ∧
          w' = publish react .closeEvent (taking .close w)) ∨
        (w.sock.socket.listeners = [] ∧ w' = taking .close w)) := by
  simp only [step, Event.inner, decide_true, hA.inner, Event.arrival,
    Event.sync, List.append_nil] at hs
  split at hs
  · next hc =>
      refine ⟨hc, ?_⟩
      rcases hA.close hc with hl | hl
      · have htaken : Emitter.taken SocketEvent.closeEvent.kind
            w.sock.socket.listeners = [.publishClose] := by
          rw [hl]; rfl
        rw [innerEvent_of_taken .closeEvent w htaken] at hs
        exact .inl ⟨hl, (Option.some.inj hs).symm⟩
      · have htaken : Emitter.taken SocketEvent.closeEvent.kind
            w.sock.socket.listeners = [] := by
          rw [hl]; rfl
        rw [innerEvent_of_nil .closeEvent w htaken] at hs
        exact .inr ⟨hl, (Option.some.inj hs).symm⟩
  · cases hs

/-- The inversion of `step`: between events an event runs exactly the callback
the socket's constructor registered for it. -/
theorem step_cases {react : React} {w w' : Observed} {e : Event}
    (hA : Armed none w.sock) (hs : step w (e, react) = some w') :
    Steps react w e w' := by
  cases e with
  | transfer n => exact .transfer hs
  | call c =>
      have hw' := Option.some.inj hs
      subst hw'
      exact .call
  | error err => exact step_forwarded hA rfl hs
  | connected => exact step_forwarded hA rfl hs
  | written => exact step_forwarded hA rfl hs
  | shutDown => exact step_forwarded hA rfl hs
  | data segment sync =>
      simp only [step, Event.inner, reduceCtorEq, decide_false, hA.inner,
        Event.arrival, Event.sync] at hs
      split at hs
      · next hc =>
          have htaken := hA.once hc .onData (by simp [standing])
          rw [if_neg (by simp)] at htaken
          rw [innerEvent_of_taken (.dataEvent segment) { w with
            owner := w.owner ++ [.received segment] } htaken] at hs
          simp only [runListener, onData, Option.map_eq_some_iff] at hs
          obtain ⟨w₁, h₁, rfl⟩ := hs
          exact .data hc h₁
      · cases hs
  | ended =>
      simp only [step, Event.inner, reduceCtorEq, decide_false, hA.inner,
        Event.arrival, Event.sync] at hs
      split at hs
      · next hc =>
          rcases hA.eof hc with htaken | htaken
          · rw [innerEvent_of_taken .endEvent { w with
              owner := w.owner ++ [.ended] } htaken] at hs
            have hw' := Option.some.inj hs
            subst hw'
            exact .ended hc
          · rw [innerEvent_of_nil .endEvent { w with
              owner := w.owner ++ [.ended] } htaken] at hs
            have hw' := Option.some.inj hs
            subst hw'
            exact .endedAgain hc htaken
      · cases hs
  | closed =>
      obtain ⟨hc, ⟨-, rfl⟩ | ⟨-, rfl⟩⟩ := step_closed hA hs
      · exact .closed hc
      · exact .closedAgain hc

/-- The resumptions an event may contain. -/
def EventAtResume (R : Observed → Prop) (w : Observed) (e : Event × React) :
    Prop :=
  AtResume R e.2 (e.1.transfersFrom w).1 (e.1.transfersFrom w).2

theorem atResume_trivial {react : React} :
    ∀ {lengths : List Nat} {w : Observed},
    AtResume (fun _ => True) react lengths w
  | [], _ => trivial
  | _ :: _, _ => ⟨fun _ _ _ _ _ _ => trivial, fun _ _ => atResume_trivial⟩

section

variable {R I : Observed → Prop}

theorem Kept.relisten (hK : Kept R I) {l : InnerListener} {w : Observed}
    (h : I w) : I (relisten l w) := by
  unfold TCPSocketBandwidth.relisten
  split
  · exact hK.listen _ w h
  · exact h

/-- What every move keeps, every event keeps. -/
theorem Kept.steps (hK : Kept R I) {react : React} {w w' : Observed}
    {e : Event} (hR : EventAtResume R w (e, react)) (h : I w)
    (hs : Steps react w e w') : I w' := by
  cases hs with
  | data hc ht =>
      refine hK.relisten (hK.toKeptInside.transfers acts_any hR ?_ ht)
      exact hK.receive _ _ (hK.listen _ w h) hc
  | @forwarded e event he hc =>
      refine hK.relisten (hK.toKeptInside.publish acts_any ?_)
      refine hK.forward event _ (hK.listen _ w h) ?_ ?_
      · rintro data rfl
        cases e <;> simp [Event.forwarded] at he
      · rintro rfl
        cases e <;> simp [Event.forwarded] at he
  | ended _ => exact hK.ended _ (hK.listen _ w h)
  | endedAgain _ _ => exact hK.endedAgain _ (hK.listen _ w h)
  | closed _ =>
      refine hK.toKeptInside.publish acts_any ?_
      exact hK.forward _ _ (hK.listen _ w h) nofun nofun
  | closedAgain _ => exact hK.listen _ w h
  | transfer ht => exact hK.toKeptInside.transfer acts_any hR h ht
  | call => exact hK.call _ w trivial h

end

theorem closed_call {s : TCPSocketBandwidth} (h : s.socket.closed = true)
    (c : Call) : (call c s).socket.closed = true := by
  cases c with
  | connect ip port => exact h
  | connect6 ip port => exact h
  | write data => exact h
  | shutdown => exact h
  | read =>
      show (read s).socket.closed = true
      unfold read
      dsimp only
      split <;> exact h
  | stop =>
      show (stop s).socket.closed = true
      unfold stop
      dsimp only
      split <;> exact h
  | close =>
      show (close s).socket.closed = true
      unfold close
      split
      · rfl
      · exact h

theorem closed_call_of_ne {s : TCPSocketBandwidth} {c : Call}
    (h : c ≠ .close) : (call c s).socket.closed = s.socket.closed := by
  cases c with
  | connect ip port => rfl
  | connect6 ip port => rfl
  | write data => rfl
  | shutdown => rfl
  | read =>
      show (read s).socket.closed = _
      unfold read
      dsimp only
      split <;> rfl
  | stop =>
      show (stop s).socket.closed = _
      unfold stop
      dsimp only
      split <;> rfl
  | close => exact absurd rfl h

/-- A handler that does not close the socket leaves the inner one as it is. -/
theorem closed_of_not_mem : ∀ {calls : List Call} {s : TCPSocketBandwidth},
    .close ∉ calls →
    (calls.foldl (fun s c => call c s) s).socket.closed = s.socket.closed
  | [], _, _ => rfl
  | c :: calls, s, h => by
      rw [List.foldl_cons, closed_of_not_mem
        (fun hm => h (List.mem_cons_of_mem _ hm))]
      refine closed_call_of_ne ?_
      rintro rfl
      exact h List.mem_cons_self

/-- A handler that closes the socket leaves its inner socket closed. -/
theorem closed_of_mem {busy : Option EventKind} :
    ∀ {calls : List Call} {s : TCPSocketBandwidth}, Armed busy s →
    s.socket.closed = true ∨ .close ∈ calls →
    (calls.foldl (fun s c => call c s) s).socket.closed = true
  | [], s, _, h => h.resolve_right List.not_mem_nil
  | c :: calls, s, hA, h => by
      rw [List.foldl_cons]
      refine closed_of_mem (hA.call c) ?_
      rcases h with h | h
      · exact .inl (closed_call h c)
      · rcases List.mem_cons.mp h with rfl | h
        · left
          show (close s).socket.closed = true
          cases hc : s.closed with
          | true => rw [close_of_closed hc, hA.inner, hc]
          | false => rw [close_of_open hc]; rfl
        · exact .inr h

theorem Armed.keptInside (busy : Option EventKind) :
    KeptInside (fun _ => True) (fun _ => True)
      (fun w => Armed busy w.sock) where
  call := fun c _ _ h => h.call c
  deliver := fun _ _ _ _ h _ _ => h.congr rfl rfl rfl
  finish := fun _ h _ _ => h.congr rfl rfl rfl
  resume := fun _ h _ _ => h.congr rfl rfl rfl

theorem Armed.taking {s : TCPSocketBandwidth} (h : Armed none s)
    (kind : EventKind) :
    Armed (some kind) { s with
      socket.listeners := Emitter.clearKind kind s.socket.listeners } where
  inner := h.inner
  once := by
    intro hc l hl
    have hold := h.once hc l hl
    rw [if_neg (by simp)] at hold
    dsimp only
    rw [Emitter.taken_clearKind, hold]
    simp only [Option.some.injEq]
  eof := by
    intro hc
    dsimp only
    rw [Emitter.taken_clearKind]
    split
    · exact .inr rfl
    · exact h.eof hc
  close := by
    intro hc
    rcases h.close hc with hl | hl
    · dsimp only
      rw [hl]
      cases kind <;> simp [Emitter.clearKind, Listens.kind]
    · dsimp only
      rw [hl]
      exact .inr rfl

/-- Once the callback has run, its listener is registered again, or the socket
is closed and listens to nothing. -/
theorem Armed.relisten {l : InnerListener} (hl : l ∈ standing) {w : Observed}
    (h : Armed (some (Listens.kind l)) w.sock) :
    Armed none (relisten l w).sock := by
  unfold TCPSocketBandwidth.relisten
  split
  · next hopen =>
      have hc : w.sock.closed = false := by simpa using hopen
      refine ⟨h.inner, ?_, ?_, fun hc' => absurd (hc.symm.trans hc') (by simp)⟩
      · intro _ l' hl'
        have hold := h.once hc l' hl'
        have hidle : (if some (Listens.kind l') = (none : Option EventKind)
            then [] else [l']) = [l'] := if_neg nofun
        dsimp only
        rw [Emitter.taken_once, hold, hidle]
        by_cases heq : Listens.kind l = Listens.kind l'
        · have hsame : l = l' := by
            simp only [standing, List.mem_cons, List.not_mem_nil,
              or_false] at hl hl'
            rcases hl with rfl | rfl | rfl | rfl | rfl <;>
              rcases hl' with rfl | rfl | rfl | rfl | rfl <;>
                first
                  | rfl
                  | exact absurd heq (by decide)
          subst hsame
          rw [if_pos rfl, if_pos rfl]
        · rw [if_neg heq, if_neg]
          intro hk
          exact heq (Option.some.inj hk).symm
      · intro _
        have hne : Listens.kind l ≠ EventKind.endOfStream := by
          simp only [standing, List.mem_cons, List.not_mem_nil,
            or_false] at hl
          rcases hl with rfl | rfl | rfl | rfl | rfl <;> decide
        dsimp only
        rw [Emitter.taken_once, if_neg hne]
        exact h.eof hc
  · next hclosed =>
      have hc : w.sock.closed = true := by simpa using hclosed
      exact ⟨h.inner, fun hc' => absurd (hc.symm.trans hc') (by simp),
        fun hc' => absurd (hc.symm.trans hc') (by simp), h.close⟩

/-- An event that leaves its kind without a listener it had no standing one
for. -/
theorem Armed.unbusy {kind : EventKind} {s : TCPSocketBandwidth}
    (h : Armed (some kind) s)
    (hk : ∀ l ∈ standing, s.closed = false → Listens.kind l ≠ kind) :
    Armed none s where
  inner := h.inner
  once := by
    intro hc l hl
    rw [h.once hc l hl, if_neg, if_neg (by simp)]
    intro heq
    exact hk l hl hc (Option.some.inj heq)
  eof := h.eof
  close := h.close

/-- No standing listener waits for the end of the stream. -/
theorem Armed.ended {s : TCPSocketBandwidth} (h : Armed none s) :
    Armed none { s with
      socket.listeners :=
        Emitter.clearKind .endOfStream s.socket.listeners } := by
  refine (h.taking .endOfStream).unbusy ?_
  intro l hl _
  simp only [standing, List.mem_cons, List.not_mem_nil, or_false] at hl
  rcases hl with rfl | rfl | rfl | rfl | rfl <;> decide

theorem Armed.steps {react : React} {w w' : Observed} {e : Event}
    (h : Armed none w.sock) (hs : Steps react w e w') :
    Armed none w'.sock := by
  cases hs with
  | data hc ht =>
      refine Armed.relisten (by simp [standing]) ?_
      refine (Armed.keptInside _).transfers acts_any atResume_trivial ?_ ht
      refine (h.taking .data).congr ?_ ?_ ?_
      all_goals
        simp only [Event.transfersFrom, note, bufferData]
        split <;> rfl
  | @forwarded e event he hc =>
      refine Armed.relisten ?_ ?_
      · cases e <;> simp only [Event.forwarded, Option.some.injEq,
          reduceCtorEq] at he <;> subst he <;> simp [standing,
            SocketEvent.kind]
      · exact (Armed.keptInside _).publish acts_any
          ((h.taking event.kind).congr rfl rfl rfl)
  | ended hc => exact h.ended.congr rfl rfl rfl
  | endedAgain hc _ => exact h.ended.congr rfl rfl rfl
  | closed hc =>
      refine (Armed.keptInside _).publish acts_any ?_
      refine ((h.taking .close).unbusy ?_).congr rfl rfl rfl
      exact fun _ _ hc' => absurd (hc.symm.trans hc') (by simp)
  | closedAgain hc =>
      refine (h.taking .close).unbusy ?_
      exact fun _ _ hc' => absurd (hc.symm.trans hc') (by simp)
  | transfer ht =>
      exact (Armed.keptInside none).transfer acts_any
        ⟨fun _ _ _ _ _ _ => trivial, fun _ _ => trivial⟩ h ht
  | call => exact h.call _

/-- What every move keeps holds when the transfers of an event begin. -/
theorem Kept.transfersFrom {R I : Observed → Prop} (hK : Kept R I)
    {w w' : Observed} {react : React} {e : Event} (h : I w)
    (hs : Steps react w e w') : I (e.transfersFrom w).2 := by
  cases hs with
  | data hc _ => exact hK.receive _ _ (hK.listen _ w h) hc
  | @forwarded e event he _ =>
      cases e <;> first
        | exact h
        | (simp [Event.forwarded] at he)
  | ended _ => exact h
  | endedAgain _ _ => exact h
  | closed _ => exact h
  | closedAgain _ => exact h
  | transfer _ => exact h
  | call => exact h

theorem Armed.transfersFrom {w : Observed} (hA : Armed none w.sock)
    (e : Event) : ∃ busy, Armed busy (e.transfersFrom w).2.sock := by
  cases e with
  | data segment sync =>
      refine ⟨some .data, (hA.taking .data).congr ?_ ?_ ?_⟩
      all_goals
        simp only [Event.transfersFrom, note, bufferData]
        split <;> rfl
  | transfer n => exact ⟨none, hA⟩
  | error err => exact ⟨none, hA⟩
  | connected => exact ⟨none, hA⟩
  | written => exact ⟨none, hA⟩
  | ended => exact ⟨none, hA⟩
  | shutDown => exact ⟨none, hA⟩
  | closed => exact ⟨none, hA⟩
  | call c => exact ⟨none, hA⟩

/-- The rule for runs: what every move keeps, given what is assumed of the
resumptions, every run keeps, and between events the listeners are in place. -/
theorem Kept.run {R I : Observed → Prop} (hK : Kept R I) {w₀ w : Observed}
    {hist : List (Observed × (Event × React))} (hr : Runs w₀ hist w)
    (hR : Meets (EventAtResume R) hist) (hA : Armed none w₀.sock)
    (h : I w₀) : I w ∧ Armed none w.sock :=
  hr.invariant (fun w => I w ∧ Armed none w.sock) hR ⟨h, hA⟩
    fun _ _ _ hI hC hs =>
      ⟨hK.steps hC hI.1 (step_cases hI.2 hs), hI.2.steps (step_cases hI.2 hs)⟩

end TCPSocketBandwidth

end EcwidDownloader
