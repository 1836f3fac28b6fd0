import EcwidDownloader.Proofs.EachSocket
import EcwidDownloader.Proofs.RoundsEnd
import EcwidDownloader.Proofs.TcpStream
import EcwidDownloader.Proofs.WorkConserving

/-!
# The redistribution ends for sockets

What the loops of `transfer` need of their streams, the sockets give: no socket
has more in its queue after it was served, whatever its owner and the other
owners do in their handlers, since data only come from the network, and a socket
that a handler creates has nothing. And a socket answers: `buffer_used` is the
size of its queue, so `pop_buffer` finds what `available` has promised.
-/

namespace EcwidDownloader

open Lib ControllerSimple
open TCPSocketBandwidth (Call)

namespace ThrottledStreams

/-! ## The queues -/

/-- What a stream has in its queue, if it is still there. -/
def held (h : Hosted Net) (stream : Nat) : Nat :=
  if ops.lock stream h.world then ops.available stream h.world else 0

section

variable {react : React} {i n : Nat} {h h' : Hosted Net}

theorem held_eq {s : Sock} (hs : h.world.socks[i]? = some s) :
    held h i = if s.alive then s.tcp.bufferUsed else 0 := by
  simp [held, ops, hs, TCPSocketBandwidth.available]

theorem held_none (hs : h.world.socks[i]? = none) : held h i = 0 := by
  simp [held, ops, hs]

theorem amount_eq (node : Node) :
    amount (streams react) h node = node.weak.elim 0 (held h) :=
  ControllerSimple.amount_eq (streams react) h node

/-- No node holds more, and none is lost. -/
structure Lessens (react : React) (h h' : Hosted Net) : Prop where
  wanes : Wanes (streams react) h h'
  keeps : ∀ a ∈ h.ctl.streams, ∃ a' ∈ h'.ctl.streams, a'.id = a.id

theorem Lessens.refl (h : Hosted Net) : Lessens react h h :=
  ⟨.refl _ h, fun a ha => ⟨a, ha, rfl⟩⟩

theorem Lessens.trans {h₁ h₂ h₃ : Hosted Net} (h : Lessens react h₁ h₂)
    (h' : Lessens react h₂ h₃) : Lessens react h₁ h₃ := by
  refine ⟨h.wanes.trans h'.wanes, fun a ha => ?_⟩
  obtain ⟨a₂, ha₂, hid⟩ := h.keeps a ha
  obtain ⟨a₃, ha₃, hid'⟩ := h'.keeps a₂ ha₂
  exact ⟨a₃, ha₃, hid'.trans hid⟩

/-- Nodes are nulled at most, and new ones are for streams that hold nothing. -/
theorem lessens_of (hheld : ∀ stream, held h' stream ≤ held h stream)
    (hback : ∀ node' ∈ h'.ctl.streams,
      (∃ node ∈ h.ctl.streams, node.id = node'.id ∧
        (node'.weak = node.weak ∨ node'.weak = none)) ∨
      node'.weak.elim 0 (held h') = 0)
    (hkeeps : ∀ a ∈ h.ctl.streams, ∃ a' ∈ h'.ctl.streams, a'.id = a.id) :
    Lessens react h h' := by
  refine ⟨fun node' hnode' hpos => ?_, hkeeps⟩
  rw [amount_eq] at hpos
  rcases hback node' hnode' with ⟨node, hnode, hid, hweak | hweak⟩ | hzero
  · refine ⟨node, hnode, hid, ?_⟩
    rw [amount_eq, amount_eq, hweak]
    cases node.weak with
    | none => exact Nat.le_refl _
    | some stream => exact hheld stream
  · rw [hweak] at hpos
    exact absurd hpos (Nat.lt_irrefl 0)
  · omega

theorem lessens_of_eq (hstreams : h'.ctl.streams = h.ctl.streams)
    (hsocks : h'.world.socks = h.world.socks) : Lessens react h h' := by
  refine lessens_of (fun stream => Nat.le_of_eq ?_) (fun node' hnode' => ?_)
    fun a ha => ⟨a, hstreams ▸ ha, rfl⟩
  · cases hs : h.world.socks[stream]? with
    | none => rw [held_none hs, held_none (hsocks ▸ hs)]
    | some s => rw [held_eq hs, held_eq (hsocks ▸ hs)]
  · exact .inl ⟨node', hstreams ▸ hnode', rfl, .inl rfl⟩

theorem held_edit {f : TCPSocketBandwidth → TCPSocketBandwidth}
    (hf : ∀ tcp, (f tcp).bufferUsed ≤ tcp.bufferUsed) (stream : Nat) :
    held (edit i f h) stream ≤ held h stream := by
  cases hs : (edit i f h).world.socks[stream]? with
  | none =>
      rw [held_none hs]
      exact Nat.zero_le _
  | some s' =>
      rw [held_eq hs]
      rcases edit_cases hs with ⟨s, rfl, hs₀, rfl⟩ | ⟨-, hs₀⟩
      · rw [held_eq hs₀]
        split
        · exact hf s.tcp
        · exact Nat.le_refl _
      · exact Nat.le_of_eq (held_eq hs₀).symm

theorem lessens_edit {f : TCPSocketBandwidth → TCPSocketBandwidth}
    (hf : ∀ tcp, (f tcp).bufferUsed ≤ tcp.bufferUsed) :
    Lessens react h (edit i f h) :=
  lessens_of (held_edit hf) (fun node' hnode' =>
    .inl ⟨node', hnode', rfl, .inl rfl⟩) fun a ha => ⟨a, ha, rfl⟩

theorem lessens_createSock : Lessens react h (createSock h) := by
  have hold : ∀ stream, held (createSock h) stream ≤ held h stream := by
    intro stream
    cases hs : (createSock h).world.socks[stream]? with
    | none =>
        rw [held_none hs]
        exact Nat.zero_le _
    | some s =>
        rw [held_eq hs]
        rw [createSock_eq] at hs
        dsimp only at hs
        rw [List.getElem?_append] at hs
        split at hs
        · exact Nat.le_of_eq (held_eq hs).symm
        · rw [List.getElem?_singleton] at hs
          split at hs
          · cases hs
            exact Nat.zero_le _
          · cases hs
  refine lessens_of hold (fun node' hnode' => ?_) fun a ha => ⟨a, ?_, rfl⟩
  · rw [createSock_eq] at hnode'
    rcases List.mem_append.mp hnode' with hnode' | hnode'
    · exact .inl ⟨node', hnode', rfl, .inl rfl⟩
    · rw [List.mem_singleton.mp hnode']
      have hnone : held h h.world.socks.length = 0 :=
        held_none (List.getElem?_eq_none (Nat.le_refl _))
      have hle := hold h.world.socks.length
      exact .inr (by simpa [hnone] using hle)
  · rw [createSock_eq]
    exact List.mem_append_left _ ha

theorem lessens_leave (c : Call) : Lessens react h (leave i c h) := by
  unfold leave
  split
  · refine lessens_of (fun _ => Nat.le_refl _) (fun node' hnode' => ?_)
      fun a ha => ?_
    · obtain ⟨node, hnode, rfl⟩ := List.mem_map.mp hnode'
      refine .inl ⟨node, hnode, ?_, ?_⟩
      · split <;> rfl
      · split
        · exact .inr rfl
        · exact .inl rfl
    · refine ⟨_, List.mem_map.mpr ⟨a, ha, rfl⟩, ?_⟩
      split <;> rfl
  · exact .refl h

theorem lessens_act (a : Act) : Lessens react h (act h a) := by
  cases a with
  | create => exact lessens_createSock
  | call i c =>
      by_cases hl : ops.lock i h.world = true
      · rw [act_call hl]
        have hcalled : Lessens react h
            (edit i (TCPSocketBandwidth.call c) (leave i c h)) :=
          (lessens_leave c).trans
            (lessens_edit fun tcp => Nat.le_of_eq (used_call c tcp))
        exact hcalled.trans (lessens_of_eq rfl rfl)
      · rw [act_call_gone hl]
        exact .refl h

theorem Lessens.handle (hl : Lessens react h h') (event : SocketEvent) :
    Lessens react h (ThrottledStreams.handle react i event h') :=
  handle_inv (I := Lessens react h)
    (fun _ a hl => hl.trans (lessens_act a)) hl

theorem lessens_transferTo (ht : transferTo react i n h = some h') :
    Lessens react h h' := by
  obtain ⟨w, htw, rfl⟩ := Option.map_eq_some_iff.mp ht
  have hput : Lessens react h (putSock i w) := by
    rcases transfer_put htw with
      ⟨-, heq⟩ | ⟨data, buffer, h₂, -, rfl, hcases⟩
    · rw [heq]
      exact lessens_of_eq rfl rfl
    · have hserve : Lessens react h (serve (some i) h) :=
        lessens_of_eq rfl rfl
      have hdata := (hserve.trans (lessens_edit (i := i)
        (f := popTcp n buffer) fun tcp => Nat.sub_le _ _)).handle
          (i := i) (.dataEvent data)
      rcases hcases with ⟨-, heq⟩ | heq | heq
      · have hhalt := hdata.trans (lessens_edit (i := i) (f := haltTcp)
          fun _ => Nat.le_refl _)
        rw [heq]
        exact hhalt.handle .endEvent
      · rw [heq]
        exact hdata.trans (lessens_edit fun _ => Nat.le_refl _)
      · rw [heq]
        exact hdata
  exact hput.trans (lessens_of_eq rfl rfl)

end

/-! ## The loops -/

theorem stocked_endures (limit : Nat) :
    Lasting limit fun _ => TCPSocketBandwidth.Stocked where
  fresh _ _ _ := rfl
  call {_ tcp} c hs := by
    have hlevel := TCPSocketBandwidth.level_call c tcp
    simp only [TCPSocketBandwidth.level, Prod.mk.injEq] at hlevel
    obtain ⟨-, -, hused, -, hbuffer⟩ := hlevel
    unfold TCPSocketBandwidth.Stocked
    rw [hused, hbuffer]
    exact hs
  popped hs hpop := hs.popped hpop
  halted := id
  resumed := id
  received data hs := hs.received data
  ended := id
  listening _ := id

/-- What is known of the world while the loops of `transfer` run. -/
structure Turning (limit : Nat) (h : Hosted Net) : Prop where
  wired : Wired h
  stocked : Throughout limit 0 (fun _ => TCPSocketBandwidth.Stocked) h

section

variable {react : React} {limit i n : Nat} {h h' : Hosted Net}

/-- A stream that is asked for no more than it has answers. -/
theorem transferTo_answers {s : Sock} (hs : h.world.socks[i]? = some s)
    (hst : TCPSocketBandwidth.Stocked s.tcp) (hle : n ≤ s.tcp.bufferUsed) :
    ∃ h', transferTo react i n h = some h' := by
  have htake : (takeSock i (serve (some i) h)).sock = s.tcp :=
    tcpOf_eq (h := serve (some i) h) hs
  have hstocked : (takeSock i (serve (some i) h)).sock.Stocked := by
    rw [htake]
    exact hst
  obtain ⟨w, hw⟩ : ∃ w, TCPSocketBandwidth.transfer (publish react i) n
      (takeSock i (serve (some i) h)) = some w :=
    hstocked.transfer (by rw [htake]; exact hle)
  exact ⟨_, congrArg (Option.map _) hw⟩

/-- What the loops need of the streams. -/
theorem sockets_yield : Yields (streams react) (Turning limit) where
  ordered ht := ht.wired.ordered
  erase ht hnode hl :=
    ⟨ht.wired.erase hnode hl, ht.stocked.of_eq rfl rfl⟩
  serve := by
    intro h node stream n total ht hnode hl hn hle
    obtain ⟨s, hs, -⟩ := lock_iff.mp (Option.filter_eq_some_iff.mp hl).2
    rw [available_eq hs] at hle
    have hrecord : Turning limit { h with ctl := record ⟨total, n⟩ h.ctl } :=
      ⟨ht.wired.handed ⟨total, n⟩, ht.stocked.of_eq (record_limit _ _) rfl⟩
    have hsame : Lessens react h { h with ctl := record ⟨total, n⟩ h.ctl } :=
      lessens_of_eq (record_streams _ _) rfl
    obtain ⟨h', htr⟩ : ∃ h', transferTo react stream n
        { h with ctl := record ⟨total, n⟩ h.ctl } = some h' :=
      transferTo_answers hs (ht.stocked.each stream s hs) hle
    have hless := hsame.trans (lessens_transferTo htr)
    have hstocked :=
      hrecord.stocked.transferTo (stocked_endures limit).toEnduring htr
    exact ⟨h', htr, ⟨hrecord.wired.transferTo htr, hstocked⟩, hless.wanes,
      hless.keeps⟩

theorem Turning.begun (ht : Turning limit h) (elapsed : Nat) :
    Turning limit (begun elapsed h) :=
  ⟨ht.wired.congr rfl rfl rfl, ht.stocked.of_eq rfl rfl⟩

/-- No socket has `2 ^ 32` bytes in its queue, and fewer than `2 ^ 31` of them
are in the list. -/
structure Small (h : Hosted Net) : Prop where
  few : h.ctl.streams.length < 2 ^ 31
  used : ∀ (i : Nat) (s : Sock), h.world.socks[i]? = some s →
    s.tcp.bufferUsed < 2 ^ 32

theorem Small.transfer (hs : Small h) (ht : Turning limit h) (react : React)
    (elapsed : Nat) :
    ∃ N h', ∀ fuel ≥ N,
      ControllerSimple.transfer (streams react) fuel elapsed h = some h' := by
  refine sockets_yield.transfer (ht.begun elapsed) hs.few fun node _ => ?_
  rw [amount_eq]
  cases node.weak with
  | none => exact Nat.two_pow_pos 32
  | some stream =>
      show held h stream < 2 ^ 32
      cases hsock : h.world.socks[stream]? with
      | none =>
          rw [held_none hsock]
          exact Nat.two_pow_pos 32
      | some s =>
          rw [held_eq hsock]
          split
          · exact hs.used stream s hsock
          · exact Nat.two_pow_pos 32

end

/-- Wherever `transfer` begins in a run, it comes to an end, whatever the owners
do in their handlers. -/
theorem transfer_ends {limit : Nat} {h₀ h : Hosted Net}
    {hist : List (Hosted Net × (Event × React))}
    (hr : Run Step (created limit) hist h₀) (hf : Finds h₀ h) (hs : Small h)
    (react : React) (elapsed : Nat) :
    ∃ N h', ∀ fuel ≥ N,
      ControllerSimple.transfer (streams react) fuel elapsed h = some h' := by
  have hst := (stocked_endures limit).run hr .last
  have hstocked : Throughout limit 0 (fun _ => TCPSocketBandwidth.Stocked) h := by
    cases hf with
    | tick => exact hst.of_eq rfl rfl
    | data stream segment listeners =>
        exact hst.edit fun _ _ hs => ((stocked_endures limit).listening
          (i := stream) _ hs).received segment
  exact hs.transfer ⟨hf.wired hr, hstocked⟩ react elapsed

end ThrottledStreams

end EcwidDownloader
