import EcwidDownloader.Proofs.SocketRounds

/-!
# The ticks of throttled sockets

An open socket listens for data with one listener, which is off the list while
it runs. So an event makes the controller run `transfer` once at most, from the
state `begins` tells: the timer has fired, or a segment is in the queue and no
transfer was scheduled. Whatever the owners do in the course of it, they leave
the controller's timer, its limit and its record alone.
-/

namespace EcwidDownloader

open Lib ControllerSimple
open TCPSocketBandwidth (Call)

namespace ThrottledStreams

/-- A segment in the queue of its socket, the listener that brought it gone. -/
def arrived (stream : Nat) (data : Bytes) (h : Hosted Net) : Hosted Net :=
  edit stream (fun tcp => TCPSocketBandwidth.bufferData data
    (setListeners (fun tcp =>
      Lib.Emitter.clearKind .data tcp.socket.listeners) tcp)) h

/-- The state from which an event makes the controller run `transfer`, with the
time that has gone by. -/
def begins (h : Hosted Net) : Event → Option (Nat × Hosted Net)
  | .tick elapsed => some (elapsed, { h with ctl.timer := {} })
  | .inner stream (.dataEvent data) elapsed =>
      if h.ctl.sheduled then none
      else some (elapsed, arrived stream data h)
  | _ => none

/-! ## The books of the controller -/

/-- The owners have no access to these. -/
structure Unmoved (h h' : Hosted Net) : Prop where
  timer : h'.ctl.timer = h.ctl.timer
  sheduled : h'.ctl.sheduled = h.ctl.sheduled
  limit : h'.ctl.limit = h.ctl.limit
  ticks : h'.ctl.ticks = h.ctl.ticks

section

variable {h h' : Hosted Net} {react : React} {i n : Nat}

theorem Unmoved.of_eq (heq : h'.ctl = h.ctl) : Unmoved h h' := by
  refine ⟨?_, ?_, ?_, ?_⟩ <;> rw [heq]

theorem Unmoved.trans {h₁ h₂ h₃ : Hosted Net} (h : Unmoved h₁ h₂)
    (h' : Unmoved h₂ h₃) : Unmoved h₁ h₃ :=
  ⟨h'.timer.trans h.timer, h'.sheduled.trans h.sheduled,
    h'.limit.trans h.limit, h'.ticks.trans h.ticks⟩

theorem unmoved_act (h : Hosted Net) (a : Act) : Unmoved h (act h a) := by
  cases a with
  | create =>
      change Unmoved h (createSock h)
      rw [createSock_eq]
      exact ⟨rfl, rfl, rfl, rfl⟩
  | call i c =>
      by_cases hl : ops.lock i h.world = true
      · rw [act_call hl]
        unfold leave
        split <;> exact ⟨rfl, rfl, rfl, rfl⟩
      · rw [act_call_gone hl]
        exact .of_eq rfl

theorem Unmoved.handle (hu : Unmoved h h') (react : React) (i : Nat)
    (event : SocketEvent) :
    Unmoved h (ThrottledStreams.handle react i event h') :=
  handle_inv (I := Unmoved h) (fun h₁ a hu => hu.trans (unmoved_act h₁ a)) hu

theorem unmoved_transferTo (ht : transferTo react i n h = some h') :
    Unmoved h h' := by
  obtain ⟨w, htw, rfl⟩ := Option.map_eq_some_iff.mp ht
  have hput : Unmoved h (putSock i w) := by
    rcases transfer_put htw with ⟨-, heq⟩ | ⟨data, buffer, h₂, -, rfl, hcases⟩
    · rw [heq]
      exact .of_eq rfl
    · have hpopped : Unmoved h
          (edit i (popTcp n buffer) (serve (some i) h)) := .of_eq rfl
      have hdata := hpopped.handle react i (.dataEvent data)
      rcases hcases with ⟨-, heq⟩ | heq | heq
      · rw [heq]
        refine Unmoved.handle ?_ react i .endEvent
        exact hdata.trans (.of_eq rfl)
      · rw [heq]
        exact hdata.trans (.of_eq rfl)
      · rw [heq]
        exact hdata
  exact hput.trans (.of_eq rfl)

/-- The loops put their calls on record, and change nothing else about it. -/
theorem serves_recorded : Serves (streams react) Wired Recorded where
  refl := Recorded.refl
  trans := Recorded.trans
  erase := by
    intro h node hw hnode hl
    exact ⟨hw.erase hnode hl, rfl, rfl, rfl,
      fun tick ticks hticks => by simp [hticks]⟩
  serve := by
    intro h h' node stream total n hw _ _ _ _ ht
    have hu := unmoved_transferTo (h := { h with
      ctl := record ⟨total, n⟩ h.ctl }) ht
    exact ⟨hw.turn ht, Recorded.one
      (hu.timer.trans (record_timer _ _))
      (hu.sheduled.trans (record_sheduled _ _))
      (hu.limit.trans (record_limit _ _)) hu.ticks⟩

end

/-! ## The listener for data -/

/-- A socket that is open listens for data with `onData`, unless `busy` says
that it has an event in hand. -/
def OnData (busy : Option Nat) (i : Nat) (tcp : TCPSocketBandwidth) : Prop :=
  tcp.socket.closed = tcp.closed ∧
    (tcp.closed = false →
      Lib.Emitter.taken .data tcp.socket.listeners =
        if busy = some i then [] else [.onData])

theorem OnData.congr {busy : Option Nat} {i : Nat}
    {tcp tcp' : TCPSocketBandwidth} (hd : OnData busy i tcp)
    (hsocket : tcp'.socket.closed = tcp.socket.closed)
    (hclosed : tcp'.closed = tcp.closed)
    (hlisteners : Lib.Emitter.taken .data tcp'.socket.listeners =
      Lib.Emitter.taken .data tcp.socket.listeners) : OnData busy i tcp' := by
  obtain ⟨hagree, htaken⟩ := hd
  refine ⟨hsocket.trans (hagree.trans hclosed.symm), fun hc => ?_⟩
  rw [hlisteners]
  exact htaken (hclosed.symm.trans hc)

theorem onData_endures {limit first : Nat} {busy : Option Nat}
    (hbusy : ∀ i, busy = some i → i < first) :
    Enduring limit first (OnData busy) where
  fresh i conn hfirst := by
    refine ⟨rfl, fun _ => ?_⟩
    rw [if_neg]
    · rfl
    · intro heq
      have := hbusy i heq
      omega
  call {i tcp} c hd := by
    cases c with
    | close =>
        simp only [TCPSocketBandwidth.call, TCPSocketBandwidth.close]
        split
        · exact ⟨rfl, fun hc => by cases hc⟩
        · exact hd
    | read =>
        simp only [TCPSocketBandwidth.call, TCPSocketBandwidth.read]
        split <;> exact hd.congr rfl rfl rfl
    | stop =>
        simp only [TCPSocketBandwidth.call, TCPSocketBandwidth.stop]
        split <;> exact hd.congr rfl rfl rfl
    | connect ip port => exact hd.congr rfl rfl rfl
    | connect6 ip port => exact hd.congr rfl rfl rfl
    | write data => exact hd.congr rfl rfl rfl
    | shutdown => exact hd.congr rfl rfl rfl
  popped hd _ := hd.congr rfl rfl rfl
  halted hd := hd.congr rfl rfl rfl
  resumed hd := hd.congr rfl rfl rfl
  received data hd := by
    unfold TCPSocketBandwidth.bufferData
    dsimp only
    split <;> exact hd.congr rfl rfl rfl

/-! ## Events -/

/-- The tail of `on_event` and `on_data`: a listener is put back unless the
socket was closed. -/
def relisten (l : InnerListener) (tcp : TCPSocketBandwidth) :
    TCPSocketBandwidth :=
  if !tcp.closed then
    { tcp with
      socket.listeners := Lib.Emitter.once l tcp.socket.listeners }
  else tcp

section

variable {h h' : Hosted Net} {react : React} {limit i : Nat}

theorem putSock_relisten (l : InnerListener)
    (w : Linked TCPSocketBandwidth (Hosted Net)) :
    putSock i (if !w.sock.closed then
      { w with
        sock.socket.listeners := Lib.Emitter.once l w.sock.socket.listeners }
      else w) = edit i (relisten l) (putSock i w) := by
  rw [← putSock_with]
  unfold relisten
  split <;> rfl

theorem relisten_kept {busy : Option Nat} {l : InnerListener}
    {tcp : TCPSocketBandwidth} (hl : Listens.kind l ≠ EventKind.data)
    (hd : OnData busy i tcp) : OnData busy i (relisten l tcp) := by
  unfold relisten
  split
  · refine hd.congr rfl rfl ?_
    rw [Emitter.taken_once, if_neg hl]
  · exact hd

/-- A listener that was not for data keeps the listeners for data. -/
theorem runListener_other {fuel elapsed : Nat} {event : SocketEvent}
    {l : InnerListener} {w w' : Linked TCPSocketBandwidth (Hosted Net)}
    (hevent : event.kind ≠ .data)
    (ht : Throughout limit 0 (OnData none) (putSock i w))
    (hu : Unmoved h (putSock i w))
    (hr : TCPSocketBandwidth.runListener (publish react i)
      (sheduleFrom react fuel i elapsed) event w l = some w') :
    Throughout limit 0 (OnData none) (putSock i w') ∧
      Unmoved h (putSock i w') := by
  have hend : Enduring limit 0 (OnData none) := onData_endures nofun
  cases l with
  | onEvent kind =>
      cases hr
      unfold TCPSocketBandwidth.onEvent
      rw [putSock_relisten, putSock_publish]
      refine ⟨(ht.handle hend event).edit fun _ _ => relisten_kept hevent, ?_⟩
      exact (hu.handle react i event).trans (.of_eq rfl)
  | onData =>
      cases event with
      | dataEvent data => exact absurd rfl hevent
      | errorEvent | connectEvent | writeEvent | endEvent | shutdownEvent
      | closeEvent =>
          have heq := Option.some.inj hr
          subst heq
          exact ⟨ht, hu⟩
  | setEof =>
      cases hr
      rw [putSock_with fun tcp => { tcp with eof := true }]
      exact ⟨ht.edit fun _ _ hd => hd.congr rfl rfl rfl,
        hu.trans (.of_eq rfl)⟩
  | publishClose =>
      cases hr
      rw [putSock_publish]
      exact ⟨ht.handle hend event, hu.handle react i event⟩

/-- The listener for data is taken off the list. -/
theorem Throughout.arrived (ht : Throughout limit 0 (OnData none) h)
    {s : Sock} (hs : h.world.socks[i]? = some s) (data : Bytes) :
    Throughout limit (i + 1) (OnData (some i)) (arrived i data h) := by
  have hlast : i < h.world.socks.length :=
    (List.getElem?_eq_some_iff.mp hs).1
  refine ⟨ht.own, ?_, fun j s' hs' => ?_⟩
  · have hlength : (ThrottledStreams.arrived i data h).world.socks.length =
        h.world.socks.length := List.length_modify ..
    omega
  · have hendures : Enduring limit (i + 1) (OnData (some i)) := by
      refine onData_endures ?_
      intro k hk
      cases hk
      exact Nat.lt_succ_self _
    have hbuffered : ∀ {tcp}, OnData (some i) j tcp →
        OnData (some i) j (TCPSocketBandwidth.bufferData data tcp) :=
      hendures.received data
    rcases edit_cases hs' with ⟨s₀, rfl, hs₀, rfl⟩ | ⟨hne, hs₀⟩
    · refine hbuffered ⟨(ht.each i s₀ hs₀).1, fun _ => ?_⟩
      rw [if_pos rfl]
      exact (Emitter.taken_clearKind ..).trans (if_pos rfl)
    · obtain ⟨hagree, htaken⟩ := ht.each j s' hs₀
      refine ⟨hagree, fun hc => ?_⟩
      rw [htaken hc, if_neg nofun, if_neg]
      intro heq
      exact hne (Option.some.inj heq)

/-- It is put back. -/
theorem Throughout.relistened {first : Nat}
    (ht : Throughout limit first (OnData (some i)) h) :
    Throughout limit 0 (OnData none)
      (ThrottledStreams.edit i (ThrottledStreams.relisten .onData) h) := by
  refine ⟨ht.own, Nat.zero_le _, fun j s' hs' => ?_⟩
  rcases edit_cases hs' with ⟨s, rfl, hs, rfl⟩ | ⟨hne, hs⟩
  · obtain ⟨hagree, htaken⟩ := ht.each i s hs
    show OnData none i (ThrottledStreams.relisten .onData s.tcp)
    unfold ThrottledStreams.relisten
    split
    · next hopen =>
        have hnone := htaken (by simpa using hopen)
        rw [if_pos rfl] at hnone
        refine ⟨hagree, fun _ => ?_⟩
        rw [Emitter.taken_once, hnone]
        rfl
    · next hshut => exact ⟨hagree, fun hc => absurd hc (by simpa using hshut)⟩
  · obtain ⟨hagree, htaken⟩ := ht.each j s' hs
    have hother : ¬ some i = some j := fun heq => hne (Option.some.inj heq)
    refine ⟨hagree, fun hopen => ?_⟩
    rw [htaken hopen, if_neg hother, if_neg nofun]

/-- What is known between events. -/
structure Steadfast (limit : Nat) (h : Hosted Net) : Prop where
  alert : Alert h
  onData : Throughout limit 0 (OnData none) h
  stocked : Throughout limit 0 (fun _ => TCPSocketBandwidth.Stocked) h

/-- What an event does: it leaves the record alone, or it makes the controller
run `transfer` from the state `begins` tells, behind which at most the listener
for data is put back. -/
def Makes (h : Hosted Net) (e : Event × React) (h' : Hosted Net) : Prop :=
  (begins h e.1 = none ∧ h'.ctl.ticks = h.ctl.ticks) ∨
    ∃ elapsed h₀ fuel h₁, begins h e.1 = some (elapsed, h₀) ∧
      ControllerSimple.transfer (streams e.2) fuel elapsed h₀ = some h₁ ∧
      (h' = h₁ ∨ ∃ i, h' = edit i (relisten .onData) h₁)

/-- A segment arrives at an open socket: its listener runs alone. -/
theorem step_data {fuel elapsed : Nat} {data : Bytes}
    (ht : Throughout limit 0 (OnData none) h)
    (hlock : ops.lock i h.world = true)
    (hopen : (tcpOf i h).socket.closed = false) :
    step fuel h (.inner i (.dataEvent data) elapsed, react) =
      (ControllerSimple.sheduleTransfer (streams react) fuel elapsed
        (arrived i data h)).map (edit i (relisten .onData)) := by
  obtain ⟨s, hsock, -⟩ := lock_iff.mp hlock
  have htake : (takeSock i h).sock = s.tcp := tcpOf_eq hsock
  obtain ⟨hagree, htaken⟩ := ht.each i s hsock
  rw [tcpOf_eq hsock] at hopen
  have hone : Lib.Emitter.taken (SocketEvent.dataEvent data).kind
      s.tcp.socket.listeners = [.onData] := by
    refine (htaken (hagree.symm.trans hopen)).trans ?_
    exact if_neg nofun
  have harrived : putSock i { takeSock i h with
      sock := TCPSocketBandwidth.bufferData data
        { s.tcp with
          socket.listeners := Emitter.clearKind .data
            s.tcp.socket.listeners } } = arrived i data h := by
    refine edit_congr fun s' hs' => ?_
    have heq : s = s' := Option.some.inj (hsock.symm.trans hs')
    subst heq
    rfl
  have hdue : ops.lock i h.world = true ∧ (tcpOf i h).socket.closed =
      decide (SocketEvent.dataEvent data = .closeEvent) :=
    ⟨hlock, by rw [tcpOf_eq hsock]; exact hopen⟩
  unfold ThrottledStreams.step
  dsimp only
  rw [if_pos hdue]
  unfold TCPSocketBandwidth.innerEvent
  rw [htake]
  dsimp only
  rw [hone]
  simp only [List.foldlM_cons, List.foldlM_nil, bind_pure]
  change ((((ControllerSimple.sheduleTransfer (streams react) fuel elapsed
    (putSock i { takeSock i h with
      sock := TCPSocketBandwidth.bufferData data
        { s.tcp with
          socket.listeners := Emitter.clearKind .data
            s.tcp.socket.listeners } })).map (takeSock i)).map _).map _) = _
  rw [harrived, Option.map_map, Option.map_map]
  refine congrArg (Option.map · _) (funext fun h₁ => ?_)
  show putSock i (if _ then _ else _) = _
  rw [putSock_relisten, putSock_takeSock]

theorem Steadfast.step {e : Event × React} (hf : Steadfast limit h)
    (hs : Step h e h') : Steadfast limit h' ∧ Makes h e h' := by
  have halert := hf.alert.step hs
  have hst := hf.stocked.step (stocked_endures limit) hs
  have ht := hf.onData
  have hend : Enduring limit 0 (OnData none) := onData_endures nofun
  obtain ⟨fuel, hs⟩ := hs
  obtain ⟨e, react⟩ := e
  cases e with
  | act a =>
      cases hs
      exact ⟨⟨halert, ht.act hend a, hst⟩, .inl ⟨rfl, (unmoved_act h a).ticks⟩⟩
  | inner i event elapsed =>
      by_cases hevent : event.kind = .data
      · obtain ⟨data, rfl⟩ : ∃ data, event = .dataEvent data := by
          cases event with
          | dataEvent data => exact ⟨data, rfl⟩
          | errorEvent | connectEvent | writeEvent | endEvent | shutdownEvent
          | closeEvent => cases hevent
        obtain ⟨hlock, hopen⟩ : ops.lock i h.world = true ∧
            (tcpOf i h).socket.closed = false := by
          simp only [ThrottledStreams.step] at hs
          split at hs
          · next hdue => exact hdue
          · cases hs
        obtain ⟨s, hsock, -⟩ := lock_iff.mp hlock
        rw [step_data ht hlock hopen] at hs
        obtain ⟨h₁, htrans, rfl⟩ := Option.map_eq_some_iff.mp hs
        have harrived := ht.arrived hsock data
        have hbusy : Enduring limit (i + 1) (OnData (some i)) :=
          onData_endures (by
            intro k hk
            cases hk
            exact Nat.lt_succ_self _)
        unfold sheduleTransfer at htrans
        cases hsh : h.ctl.sheduled with
        | true =>
            rw [if_pos (show (arrived i data h).ctl.sheduled = true from hsh)]
              at htrans
            cases htrans
            exact ⟨⟨halert, harrived.relistened, hst⟩, .inl ⟨if_pos hsh, rfl⟩⟩
        | false =>
            rw [if_neg (show ¬ (arrived i data h).ctl.sheduled = true by
              rw [show (arrived i data h).ctl.sheduled = false from hsh]
              exact Bool.false_ne_true)] at htrans
            refine ⟨⟨halert, (harrived.transfer hbusy htrans).relistened, hst⟩,
              .inr ⟨elapsed, _, fuel, h₁, ?_, htrans, .inr ⟨i, rfl⟩⟩⟩
            simp [begins, hsh]
      · simp only [ThrottledStreams.step] at hs
        split at hs
        · obtain ⟨w, hinner, rfl⟩ := Option.map_eq_some_iff.mp hs
          obtain ⟨ht', hu⟩ := foldlM_keeps
            (I := fun _ w => Throughout limit 0 (OnData none) (putSock i w) ∧
              Unmoved h (putSock i w))
            (fun hI hr => runListener_other hevent hI.1 hI.2 hr)
            (by
              rw [putSock_with fun tcp => { tcp with
                socket.listeners :=
                  Emitter.clearKind event.kind tcp.socket.listeners }]
              rw [putSock_takeSock]
              refine ⟨ht.edit fun _ _ hd => hd.congr rfl rfl ?_, .of_eq rfl⟩
              exact (Emitter.taken_clearKind ..).trans
                (if_neg (Ne.symm hevent))) hinner
          refine ⟨⟨halert, ht', hst⟩, .inl ⟨?_, hu.ticks⟩⟩
          cases event with
          | dataEvent data => exact absurd rfl hevent
          | errorEvent | connectEvent | writeEvent | endEvent | shutdownEvent
          | closeEvent => rfl
        · cases hs
  | tick elapsed =>
      simp only [ThrottledStreams.step, timerEvent] at hs
      cases hsh : h.ctl.sheduled with
      | false =>
          have htimer : h.ctl.timer = {} := by
            simpa [Timed, hsh] using hf.alert.timed
          rw [htimer] at hs
          cases hs
      | true =>
          have htimer : h.ctl.timer = { listeners := 1, armed := true } := by
            simpa [Timed, hsh] using hf.alert.timed
          simp only [htimer, if_true, List.range_one, List.foldlM_cons,
            List.foldlM_nil, bind_pure] at hs
          have hfired : Throughout limit 0 (OnData none)
              { h with ctl.timer := {} } := ht.of_eq rfl rfl
          exact ⟨⟨halert, hfired.transfer hend hs, hst⟩,
            .inr ⟨elapsed, _, fuel, h', rfl, hs, .inl rfl⟩⟩
  | release i =>
      cases hs
      refine ⟨⟨halert, ⟨ht.own, Nat.zero_le _, fun j s hs => ?_⟩, hst⟩,
        .inl ⟨rfl, rfl⟩⟩
      rw [List.getElem?_modify] at hs
      obtain ⟨s₀, hs₀, rfl⟩ := Option.map_eq_some_iff.mp hs
      have hd := ht.each j s₀ hs₀
      split
      · exact hd
      · exact hd

theorem Steadfast.created (limit : Nat) :
    Steadfast limit (ThrottledStreams.created limit) :=
  ⟨.created limit, ⟨rfl, Nat.le_refl _, fun _ _ hs => nomatch hs⟩,
    ⟨rfl, Nat.le_refl _, fun _ _ hs => nomatch hs⟩⟩

theorem Steadfast.reached {hist : List (Hosted Net × (Event × React))}
    (hr : Run Step (ThrottledStreams.created limit) hist h) :
    Steadfast limit h :=
  hr.invariant' (Steadfast limit) (.created limit)
    fun _ _ _ hf hs => (hf.step hs).1

/-! ## Where a transfer begins -/

theorem begins_finds {e : Event} {elapsed : Nat} {h₀ : Hosted Net}
    (hb : begins h e = some (elapsed, h₀)) : Finds h h₀ := by
  cases e with
  | tick elapsed =>
      cases hb
      exact .tick
  | inner stream event elapsed =>
      cases event with
      | dataEvent data =>
          simp only [begins] at hb
          split at hb
          · cases hb
          · cases hb
            exact .data stream data _
      | errorEvent | connectEvent | writeEvent | endEvent | shutdownEvent
      | closeEvent => cases hb
  | act a => cases hb
  | release i => cases hb

/-- The controller as it was, but for the timer. -/
theorem begins_ctl {e : Event} {elapsed : Nat} {h₀ : Hosted Net}
    (hb : begins h e = some (elapsed, h₀)) :
    h₀.ctl.limit = h.ctl.limit ∧ h₀.ctl.ticks = h.ctl.ticks := by
  cases begins_finds hb with
  | tick => exact ⟨rfl, rfl⟩
  | data stream segment listeners => exact ⟨rfl, rfl⟩

/-- What the loops of the transfer find. -/
theorem Steadfast.turning (hf : Steadfast limit h) {e : Event} {elapsed : Nat}
    {h₀ : Hosted Net} (hb : begins h e = some (elapsed, h₀)) :
    Turning limit h₀ := by
  cases begins_finds hb with
  | tick => exact ⟨hf.alert.wired.congr rfl rfl rfl, hf.stocked.of_eq rfl rfl⟩
  | data stream segment listeners =>
      refine ⟨hf.alert.wired.edit fun tcp => flags_bufferData segment _,
        hf.stocked.edit fun _ _ hs => ?_⟩
      exact ((stocked_endures limit).listening (i := stream) _ hs).received
        segment

end

end ThrottledStreams

end EcwidDownloader
