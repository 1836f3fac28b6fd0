import EcwidDownloader.Proofs.WakeUp

/-!
# What holds of every socket

The sockets of a controller come into being in one way, with a buffer of four
times its limit, and everything that happens to them afterwards is one of a few
changes of one of them. So a property of a single socket that holds at first and
through these changes holds of every socket in every run, whatever the owners'
handlers do.
-/

namespace EcwidDownloader

open Lib ControllerSimple

namespace ThrottledStreams

/-- A property that a new socket has, from the number `first` on, and that the
calls of owners and controllers keep. -/
structure Enduring (limit first : Nat) (Q : Nat → TCPSocketBandwidth → Prop) :
    Prop where
  fresh : ∀ i conn, first ≤ i → Q i { (TCPSocketBandwidth.create 0).setBuffer
    (limit * 4 % sizeModulus) with conn := conn }
  call : ∀ {i tcp} c, Q i tcp → Q i (TCPSocketBandwidth.call c tcp)
  popped : ∀ {i tcp n data buffer}, Q i tcp →
    TCPSocketBandwidth.popBuffer (min n tcp.bufferUsed) tcp.buffer =
      some (data, buffer) → Q i (popTcp n buffer tcp)
  halted : ∀ {i tcp}, Q i tcp → Q i (haltTcp tcp)
  resumed : ∀ {i tcp}, Q i tcp → Q i (resumeTcp tcp)
  received : ∀ {i tcp} data, Q i tcp →
    Q i (TCPSocketBandwidth.bufferData data tcp)

/-- A property that is also kept by what else an event does to a socket. -/
structure Lasting (limit : Nat) (Q : Nat → TCPSocketBandwidth → Prop) : Prop
    extends Enduring limit 0 Q where
  ended : ∀ {i tcp}, Q i tcp → Q i { tcp with eof := true }
  listening : ∀ {i tcp} listeners, Q i tcp →
    Q i { tcp with socket.listeners := listeners }

/-- The controller has its limit and every socket the property. -/
structure Throughout (limit first : Nat)
    (Q : Nat → TCPSocketBandwidth → Prop) (h : Hosted Net) : Prop where
  own : h.ctl.limit = limit
  bound : first ≤ h.world.socks.length
  each : ∀ (i : Nat) (s : Sock), h.world.socks[i]? = some s → Q i s.tcp

section

variable {limit first i n : Nat} {Q : Nat → TCPSocketBandwidth → Prop}
  {h h' : Hosted Net} {react : React}

theorem Throughout.of_eq (ht : Throughout limit first Q h)
    (hlimit : h'.ctl.limit = h.ctl.limit)
    (hsocks : h'.world.socks = h.world.socks) : Throughout limit first Q h' where
  own := hlimit.trans ht.own
  bound := hsocks ▸ ht.bound
  each := by
    rw [hsocks]
    exact ht.each

theorem Throughout.edit {f : TCPSocketBandwidth → TCPSocketBandwidth}
    (ht : Throughout limit first Q h)
    (hf : ∀ s, h.world.socks[i]? = some s → Q i s.tcp → Q i (f s.tcp)) :
    Throughout limit first Q (ThrottledStreams.edit i f h) where
  own := ht.own
  bound := by
    have hlength : (ThrottledStreams.edit i f h).world.socks.length =
        h.world.socks.length := List.length_modify ..
    rw [hlength]
    exact ht.bound
  each := by
    intro j s' hs'
    rcases edit_cases hs' with ⟨s, rfl, hs, rfl⟩ | ⟨-, hs⟩
    · exact hf s hs (ht.each i s hs)
    · exact ht.each j s' hs

/-! ## Handlers -/

theorem Throughout.createSock (hQ : Enduring limit first Q)
    (ht : Throughout limit first Q h) : Throughout limit first Q (createSock h) := by
  rw [createSock_eq]
  refine ⟨ht.own, ?_, fun j s hs => ?_⟩
  · rw [List.length_append]
    exact Nat.le_trans ht.bound (Nat.le_add_right _ _)
  dsimp only at hs
  rw [List.getElem?_append] at hs
  split at hs
  · exact ht.each j s hs
  · rw [List.getElem?_singleton] at hs
    split at hs
    · next hlength _ =>
      cases hs
      have hnew := hQ.fresh j h.ctl.inserted
        (Nat.le_trans ht.bound (Nat.le_of_not_lt hlength))
      rw [← ht.own] at hnew
      exact hnew
    · cases hs

theorem Throughout.act (hQ : Enduring limit first Q) (ht : Throughout limit first Q h)
    (a : Act) : Throughout limit first Q (ThrottledStreams.act h a) := by
  cases a with
  | create => exact ht.createSock hQ
  | call i c =>
      by_cases hlock : ops.lock i h.world = true
      · rw [act_call hlock]
        have hleave : Throughout limit first Q (leave i c h) :=
          ht.of_eq (by unfold leave; split <;> rfl)
            (congrArg Net.socks (sheduled_leave i c h).2.2)
        have hcall := hleave.edit (i := i) fun _ _ => hQ.call c
        exact hcall.of_eq rfl rfl
      · rw [act_call_gone hlock]
        exact ht

theorem Throughout.handle (hQ : Enduring limit first Q) (ht : Throughout limit first Q h)
    (event : SocketEvent) :
    Throughout limit first Q (ThrottledStreams.handle react i event h) :=
  handle_inv (fun _ a ht => ht.act hQ a) ht

/-! ## The rounds -/

theorem Throughout.transferTo (hQ : Enduring limit first Q)
    (ht : Throughout limit first Q h) (htr : transferTo react i n h = some h') :
    Throughout limit first Q h' := by
  obtain ⟨w, htw, rfl⟩ := Option.map_eq_some_iff.mp htr
  have hserve : Throughout limit first Q (serve (some i) h) := ht.of_eq rfl rfl
  refine Throughout.of_eq (h := putSock i w) ?_ rfl rfl
  rcases transfer_put htw with
    ⟨-, heq⟩ | ⟨data, buffer, h₂, hpop, hh₂, hcases⟩
  · rw [heq]
    exact hserve
  · have hpopped : Throughout limit first Q (ThrottledStreams.edit i
        (popTcp n buffer) (serve (some i) h)) := by
      refine hserve.edit fun s hs hs' => ?_
      rw [tcpOf_eq hs] at hpop
      exact hQ.popped hs' hpop
    have hdata : Throughout limit first Q h₂ :=
      hh₂ ▸ hpopped.handle hQ (.dataEvent data)
    rcases hcases with ⟨-, heq⟩ | heq | heq
    · have hhalt : Throughout limit first Q (ThrottledStreams.edit i haltTcp h₂) :=
        hdata.edit fun _ _ => hQ.halted
      rw [heq]
      exact hhalt.handle hQ .endEvent
    · rw [heq]
      exact hdata.edit fun _ _ => hQ.resumed
    · rw [heq]
      exact hdata

theorem serves_throughout (hQ : Enduring limit first Q) :
    Serves (streams react) (Throughout limit first Q) fun _ _ _ => True where
  refl _ := trivial
  trans _ _ := trivial
  erase ht _ _ := ⟨ht.of_eq rfl rfl, trivial⟩
  serve {h _ _ _ total n} ht _ _ _ _ htr := by
    have hrecord : Throughout limit first Q
        { h with ctl := record ⟨total, n⟩ h.ctl } :=
      ht.of_eq (record_limit _ _) rfl
    exact ⟨hrecord.transferTo hQ htr, trivial⟩

theorem Throughout.transfer (hQ : Enduring limit first Q) {fuel elapsed : Nat}
    (ht : Throughout limit first Q h)
    (htr : ControllerSimple.transfer (streams react) fuel elapsed h =
      some h') : Throughout limit first Q h' := by
  rw [transfer_eq] at htr
  split at htr
  · cases htr
    exact ht.of_eq rfl rfl
  · split at htr
    · cases htr
      exact ht.of_eq rfl rfl
    · obtain ⟨⟨pend, h₁⟩, hrounds, rfl⟩ := Option.map_eq_some_iff.mp htr
      have hbegun : Throughout limit first Q (begun elapsed h) := ht.of_eq rfl rfl
      have ht₁ :=
        ((serves_throughout hQ).rounds hbegun hrounds).1
      exact ht₁.of_eq (finish_limit pend h₁)
        (congrArg Net.socks (finish_world pend h₁))

/-! ## Events -/

theorem Throughout.relisten (hQ : Lasting limit Q) {l : InnerListener}
    {w : Linked TCPSocketBandwidth (Hosted Net)}
    (ht : Throughout limit 0 Q (putSock i w)) :
    Throughout limit 0 Q (putSock i (if !w.sock.closed then
      { w with
        sock.socket.listeners := Lib.Emitter.once l w.sock.socket.listeners }
      else w)) := by
  split
  · rw [putSock_with fun tcp => { tcp with
      socket.listeners := Lib.Emitter.once l tcp.socket.listeners }]
    exact ht.edit fun _ _ => hQ.listening _
  · exact ht

theorem Throughout.onData (hQ : Lasting limit Q) {fuel elapsed : Nat}
    {data : Bytes} {w w' : Linked TCPSocketBandwidth (Hosted Net)}
    (ht : Throughout limit 0 Q (putSock i w))
    (hd : TCPSocketBandwidth.onData (sheduleFrom react fuel i elapsed) data
      w = some w') : Throughout limit 0 Q (putSock i w') := by
  obtain ⟨w₁, hshed, rfl⟩ := Option.map_eq_some_iff.mp hd
  obtain ⟨h₁, htrans, rfl⟩ := Option.map_eq_some_iff.mp hshed
  refine Throughout.relisten hQ ?_
  rw [putSock_takeSock]
  rw [putSock_with (TCPSocketBandwidth.bufferData data)] at htrans
  have hdata := ht.edit (i := i) fun _ _ => hQ.received data
  unfold sheduleTransfer at htrans
  split at htrans
  · exact Option.some.inj htrans ▸ hdata
  · exact hdata.transfer hQ.toEnduring htrans

theorem Throughout.runListener (hQ : Lasting limit Q) {fuel elapsed : Nat}
    {event : SocketEvent} {l : InnerListener}
    {w w' : Linked TCPSocketBandwidth (Hosted Net)}
    (ht : Throughout limit 0 Q (putSock i w))
    (hr : TCPSocketBandwidth.runListener (publish react i)
      (sheduleFrom react fuel i elapsed) event w l = some w') :
    Throughout limit 0 Q (putSock i w') := by
  cases l with
  | onEvent kind =>
      cases hr
      refine Throughout.relisten hQ ?_
      rw [putSock_publish]
      exact ht.handle hQ.toEnduring event
  | onData =>
      cases event with
      | dataEvent data => exact ht.onData hQ hr
      | errorEvent | connectEvent | writeEvent | endEvent | shutdownEvent
      | closeEvent => exact Option.some.inj hr ▸ ht
  | setEof =>
      cases hr
      rw [putSock_with fun tcp => { tcp with eof := true }]
      exact ht.edit fun _ _ => hQ.ended
  | publishClose =>
      cases hr
      rw [putSock_publish]
      exact ht.handle hQ.toEnduring event

theorem Throughout.release (ht : Throughout limit 0 Q h) (i : Nat) :
    Throughout limit 0 Q { h with
      world.socks := h.world.socks.modify i fun s =>
        { s with alive := false } } where
  own := ht.own
  bound := Nat.zero_le _
  each := by
    intro j s hs
    rw [List.getElem?_modify] at hs
    obtain ⟨s₀, hs₀, rfl⟩ := Option.map_eq_some_iff.mp hs
    split
    · exact ht.each j s₀ hs₀
    · exact ht.each j s₀ hs₀

theorem Throughout.step (hQ : Lasting limit Q) {e : Event × React}
    (ht : Throughout limit 0 Q h) (hs : Step h e h') :
    Throughout limit 0 Q h' := by
  obtain ⟨fuel, hs⟩ := hs
  obtain ⟨e, react⟩ := e
  cases e with
  | act a =>
      cases hs
      exact ht.act hQ.toEnduring a
  | inner i event elapsed =>
      simp only [ThrottledStreams.step] at hs
      split at hs
      · obtain ⟨w, hinner, rfl⟩ := Option.map_eq_some_iff.mp hs
        refine foldlM_keeps (I := fun _ w => Throughout limit 0 Q (putSock i w))
          (fun ht hr => ht.runListener hQ hr) ?_ hinner
        rw [putSock_with fun tcp => { tcp with
          socket.listeners :=
            Emitter.clearKind event.kind tcp.socket.listeners }]
        rw [putSock_takeSock]
        exact ht.edit fun _ _ => hQ.listening _
      · cases hs
  | tick elapsed =>
      simp only [ThrottledStreams.step, timerEvent] at hs
      split at hs
      · have hfired : Throughout limit 0 Q { h with ctl.timer := {} } :=
          ht.of_eq rfl rfl
        exact foldlM_keeps (I := fun _ => Throughout limit 0 Q)
          (fun ht htr => ht.transfer hQ.toEnduring htr) hfired hs
      · cases hs
  | release i =>
      cases hs
      exact ht.release i

/-- What endures holds of every socket in every state of every run. -/
theorem Lasting.run (hQ : Lasting limit Q) {x : Hosted Net}
    {hist : List (Hosted Net × (Event × React))}
    (hr : Run Step (created limit) hist h) (hx : Passes hist h x) :
    Throughout limit 0 Q x :=
  hr.always (C := fun _ _ => True) (fun _ _ => trivial)
    (fun hr' _ => hr'.invariant' (Throughout limit 0 Q)
      ⟨rfl, Nat.le_refl _, fun _ _ hs => nomatch hs⟩
      fun _ _ _ ht hs => ht.step hQ hs) hx

end

end ThrottledStreams

end EcwidDownloader
