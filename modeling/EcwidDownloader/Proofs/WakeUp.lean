import EcwidDownloader.Aio.ThrottledStreams
import EcwidDownloader.Proofs.TcpBandwidth
import EcwidDownloader.Proofs.BandwidthController

/-!
# Wake-ups in the throttle

A transfer is scheduled when data arrives and at the end of a transfer that
leaves streams pending. So the statement that an awake stream never waits for
nothing has to be carried through the loop of the controller, with handlers
running in its middle: `Owed P` says that every awake stream is one the
controller still owes something, `P` being what the loop knows about it. In the
round a stream is owed as long as the iterator has not passed it, and afterwards
if it was counted as pending.

Handlers keep `Owed P` whatever `P` is, because nothing they do makes a stream
awake, except `read` on a stopped socket with bytes in its queue. If no transfer
is scheduled then, nothing will schedule one for these bytes.
-/

namespace EcwidDownloader

open Lib ControllerSimple
open TCPSocketBandwidth (Call)

namespace ThrottledStreams

/-! ## Reading and changing a socket -/

section

variable {h : Hosted Net} {i j : Nat} {s : Sock}
  {f : TCPSocketBandwidth → TCPSocketBandwidth}

theorem tcpOf_eq (hs : h.world.socks[i]? = some s) : tcpOf i h = s.tcp := by
  rw [tcpOf, hs]
  rfl

theorem edit_self (hs : h.world.socks[i]? = some s) :
    (edit i f h).world.socks[i]? = some { s with tcp := f s.tcp } := by
  simp only [edit, List.getElem?_modify_eq, hs]
  rfl

theorem edit_other (hne : i ≠ j) :
    (edit i f h).world.socks[j]? = h.world.socks[j]? := by
  simp only [edit]
  exact List.getElem?_modify_ne _ _ hne

/-- A socket found after a change is the changed one or another. -/
theorem edit_cases {s' : Sock} (hs : (edit i f h).world.socks[j]? = some s') :
    (∃ s, i = j ∧ h.world.socks[i]? = some s ∧
        s' = { s with tcp := f s.tcp }) ∨
      i ≠ j ∧ h.world.socks[j]? = some s' := by
  by_cases hij : i = j
  · subst hij
    cases hs₀ : h.world.socks[i]? with
    | none =>
        simp only [edit, List.getElem?_modify_eq, hs₀] at hs
        cases hs
    | some s =>
        rw [edit_self hs₀] at hs
        exact .inl ⟨s, rfl, rfl, (Option.some.inj hs).symm⟩
  · rw [edit_other hij] at hs
    exact .inr ⟨hij, hs⟩

theorem edit_edit (g : TCPSocketBandwidth → TCPSocketBandwidth) :
    edit i g (edit i f h) = edit i (fun tcp => g (f tcp)) h := by
  simp only [edit, List.modify_modify_eq]
  rfl

/-- Only what a change does to the socket as it is counts. -/
theorem edit_congr {g : TCPSocketBandwidth → TCPSocketBandwidth}
    (hfg : ∀ s : Sock, h.world.socks[i]? = some s → f s.tcp = g s.tcp) :
    edit i f h = edit i g h := by
  obtain ⟨ctl, world⟩ := h
  simp only [edit]
  congr 2
  apply List.ext_getElem?
  intro j
  by_cases hij : i = j
  · subst hij
    rw [List.getElem?_modify_eq, List.getElem?_modify_eq]
    cases hs : world.socks[i]? with
    | none => rfl
    | some s =>
        show some { s with tcp := f s.tcp } = some { s with tcp := g s.tcp }
        rw [hfg s hs]
  · rw [List.getElem?_modify_ne _ _ hij, List.getElem?_modify_ne _ _ hij]

theorem edit_id : edit i id h = h := by
  obtain ⟨ctl, world⟩ := h
  simp only [edit]
  congr 2
  exact List.modify_id i world.socks

/-- A change that leaves the socket as it is changes nothing. -/
theorem edit_eq_self
    (hf : ∀ s : Sock, h.world.socks[i]? = some s → f s.tcp = s.tcp) :
    edit i f h = h :=
  (edit_congr hf).trans edit_id

/-- Putting a socket back as it was taken changes nothing. -/
theorem edit_tcpOf : edit i (fun _ => tcpOf i h) h = h :=
  edit_eq_self fun _ hs => tcpOf_eq hs

theorem putSock_takeSock : putSock i (takeSock i h) = h := edit_tcpOf

end

/-! ## What the world looks like -/

/-- The list of nodes is in order, every node is for the socket of its number,
and every open socket has its node. -/
structure Wired (h : Hosted Net) : Prop where
  ordered : Ordered h.ctl.streams
  inserted : h.ctl.inserted = h.world.socks.length
  below : ∀ node ∈ h.ctl.streams, node.id < h.ctl.inserted
  own : ∀ node ∈ h.ctl.streams, ∀ stream, node.weak = some stream →
    stream = node.id
  conn : ∀ (i : Nat) (s : Sock), h.world.socks[i]? = some s → s.tcp.conn = i
  node : ∀ (i : Nat) (s : Sock), h.world.socks[i]? = some s →
    s.alive = true → s.tcp.closed = false → { id := i, weak := some i } ∈ h.ctl.streams

/-- Every awake stream is one a transfer is scheduled for, or one that `P` says
is owed something, or the one being served; unless a `read` has woken a stream
when nothing was scheduled. -/
def Owed (P : Nat → Prop) (h : Hosted Net) : Prop :=
  h.world.woken ≠ [] ∨
    ∀ i, Awake h i → h.world.serving ≠ some i → h.ctl.sheduled = true ∨ P i

/-- The changes of a socket that keep it where it is. -/
def Stays (f : TCPSocketBandwidth → TCPSocketBandwidth) : Prop :=
  ∀ tcp, (f tcp).conn = tcp.conn ∧ (f tcp).closed = tcp.closed

/-- The changes of a socket that wake nobody up. -/
def Lulls (f : TCPSocketBandwidth → TCPSocketBandwidth) : Prop :=
  ∀ tcp, (f tcp).closed = false → (f tcp).stopped = false →
    0 < (f tcp).bufferUsed →
    tcp.closed = false ∧ tcp.stopped = false ∧ 0 < tcp.bufferUsed

section

variable {h : Hosted Net} {i : Nat} {P : Nat → Prop}
  {f : TCPSocketBandwidth → TCPSocketBandwidth}

theorem Wired.edit (hw : Wired h) (hf : Stays f) : Wired (edit i f h) := by
  have hback : ∀ (j : Nat) (s : Sock),
      (ThrottledStreams.edit i f h).world.socks[j]? = some s →
      ∃ s₀ : Sock, h.world.socks[j]? = some s₀ ∧ s.alive = s₀.alive ∧
        s.tcp.conn = s₀.tcp.conn ∧ s.tcp.closed = s₀.tcp.closed := by
    intro j s hs
    rcases edit_cases hs with ⟨s₀, rfl, hs₀, rfl⟩ | ⟨-, hs⟩
    · exact ⟨s₀, hs₀, rfl, hf s₀.tcp⟩
    · exact ⟨s, hs, rfl, rfl, rfl⟩
  refine ⟨hw.ordered, ?_, hw.below, hw.own, fun j s hs => ?_,
    fun j s hs ha hc => ?_⟩
  · rw [show (ThrottledStreams.edit i f h).ctl.inserted = h.ctl.inserted from
      rfl, hw.inserted]
    exact (List.length_modify _ _ _).symm
  · obtain ⟨s₀, hs₀, -, hconn, -⟩ := hback j s hs
    exact hconn.trans (hw.conn j s₀ hs₀)
  · obtain ⟨s₀, hs₀, halive, -, hclosed⟩ := hback j s hs
    exact hw.node j s₀ hs₀ (halive ▸ ha) (hclosed ▸ hc)

theorem Awake.of_edit (hf : Lulls f) {j : Nat} (ha : Awake (edit i f h) j) :
    Awake h j := by
  obtain ⟨s, hs, halive, hclosed, hstopped, hused⟩ := ha
  rcases edit_cases hs with ⟨s₀, rfl, hs₀, rfl⟩ | ⟨-, hs⟩
  · exact ⟨s₀, hs₀, halive, hf s₀.tcp hclosed hstopped hused⟩
  · exact ⟨s, hs, halive, hclosed, hstopped, hused⟩

theorem Owed.edit (ho : Owed P h) (hf : Lulls f) : Owed P (edit i f h) :=
  ho.imp id fun ho j ha hne => ho j (Awake.of_edit hf ha) hne

/-- A change of the socket being served. -/
theorem Owed.edit_serving (ho : Owed P h) (hi : h.world.serving = some i) :
    Owed P (ThrottledStreams.edit i f h) := by
  refine ho.imp id fun ho j ha hne => ?_
  have hij : i ≠ j := by
    rintro rfl
    exact hne hi
  refine ho j ?_ hne
  obtain ⟨s, hs, hrest⟩ := ha
  rw [edit_other hij] at hs
  exact ⟨s, hs, hrest⟩

end

/-! ## Handlers -/

theorem conn_call (c : Call) (s : TCPSocketBandwidth) :
    (TCPSocketBandwidth.call c s).conn = s.conn := by
  cases c with
  | connect ip port => rfl
  | connect6 ip port => rfl
  | write data => rfl
  | shutdown => rfl
  | read =>
      show (TCPSocketBandwidth.read s).conn = s.conn
      unfold TCPSocketBandwidth.read
      dsimp only
      split <;> rfl
  | stop =>
      show (TCPSocketBandwidth.stop s).conn = s.conn
      unfold TCPSocketBandwidth.stop
      dsimp only
      split <;> rfl
  | close =>
      show (TCPSocketBandwidth.close s).conn = s.conn
      unfold TCPSocketBandwidth.close
      split <;> rfl

/-- What a call does to the flags that make a stream awake. -/
theorem flags_call (c : Call) (s : TCPSocketBandwidth) :
    ((TCPSocketBandwidth.call c s).closed =
      if c = .close then true else s.closed) ∧
    ((TCPSocketBandwidth.call c s).stopped = true ∨
      (TCPSocketBandwidth.call c s).stopped = s.stopped ∨ c = .read) := by
  cases c with
  | connect ip port => exact ⟨rfl, .inr (.inl rfl)⟩
  | connect6 ip port => exact ⟨rfl, .inr (.inl rfl)⟩
  | write data => exact ⟨rfl, .inr (.inl rfl)⟩
  | shutdown => exact ⟨rfl, .inr (.inl rfl)⟩
  | read =>
      refine ⟨?_, .inr (.inr rfl)⟩
      show (TCPSocketBandwidth.read s).closed = s.closed
      unfold TCPSocketBandwidth.read
      dsimp only
      split <;> rfl
  | stop =>
      have hs : (TCPSocketBandwidth.stop s).closed = s.closed ∧
          (TCPSocketBandwidth.stop s).stopped = true := by
        unfold TCPSocketBandwidth.stop
        dsimp only
        split <;> exact ⟨rfl, rfl⟩
      exact ⟨hs.1, .inl hs.2⟩
  | close =>
      show (TCPSocketBandwidth.close s).closed = true ∧
        ((TCPSocketBandwidth.close s).stopped = true ∨
          (TCPSocketBandwidth.close s).stopped = s.stopped ∨ _)
      unfold TCPSocketBandwidth.close
      split
      · exact ⟨rfl, .inl rfl⟩
      · next hc => exact ⟨by simpa using hc, .inr (.inl rfl)⟩

theorem used_call (c : Call) (s : TCPSocketBandwidth) :
    (TCPSocketBandwidth.call c s).bufferUsed = s.bufferUsed := by
  have hlevel := TCPSocketBandwidth.level_call c s
  simp only [TCPSocketBandwidth.level, Prod.mk.injEq] at hlevel
  exact hlevel.2.2.1

theorem lock_iff {i : Nat} {h : Hosted Net} :
    ops.lock i h.world = true ↔
      ∃ s, h.world.socks[i]? = some s ∧ s.alive = true := by
  show (h.world.socks[i]?.any Sock.alive) = true ↔ _
  cases h.world.socks[i]? <;> simp

theorem sheduled_leave (i : Nat) (c : Call) (h : Hosted Net) :
    (leave i c h).ctl.sheduled = h.ctl.sheduled ∧
      (leave i c h).ctl.timer = h.ctl.timer ∧
      (leave i c h).world = h.world := by
  unfold leave
  split <;> exact ⟨rfl, rfl, rfl⟩

/-- What a call on a socket that is there does. -/
theorem act_call {h : Hosted Net} {i : Nat} {c : Call}
    (hl : ops.lock i h.world = true) :
    act h (.call i c) =
      { edit i (TCPSocketBandwidth.call c) (leave i c h) with
        world.woken := if Wakes h i c then i :: h.world.woken
          else h.world.woken } :=
  if_pos hl

theorem act_call_gone {h : Hosted Net} {i : Nat} {c : Call}
    (hl : ¬ ops.lock i h.world = true) : act h (.call i c) = h :=
  if_neg hl

/-- The socket `create` makes. -/
def freshSock (h : Hosted Net) : Sock :=
  { tcp :=
      { (TCPSocketBandwidth.create 0).setBuffer
          (h.ctl.limit * 4 % sizeModulus) with conn := h.ctl.inserted } }

theorem modify_last {α : Type} (l : List α) (a : α) (f : α → α) :
    (l ++ [a]).modify l.length f = l ++ [f a] := by
  induction l with
  | nil => rfl
  | cons b l ih =>
      rw [List.cons_append, List.length_cons, List.modify_succ_cons, ih]
      rfl

/-- `create` puts a socket behind all others and a node for it behind all
nodes. -/
theorem createSock_eq (h : Hosted Net) :
    createSock h =
      { ctl :=
          { h.ctl with
            streams := h.ctl.streams ++
              [{ id := h.ctl.inserted, weak := some h.world.socks.length }]
            inserted := h.ctl.inserted + 1 }
        world := { h.world with socks := h.world.socks ++ [freshSock h] } } := by
  have hlock : Option.filter (fun stream => ops.lock stream
      { h.world with
        socks := h.world.socks ++ [{ tcp := TCPSocketBandwidth.create 0 }] })
      (some h.world.socks.length) = some h.world.socks.length := by
    simp [Option.filter, ops]
  simp only [createSock, ControllerSimple.addStream, hlock]
  simp only [edit, ops, Option.getD_some, modify_last]
  rfl

theorem Wired.createSock {h : Hosted Net} (hw : Wired h) :
    Wired (createSock h) := by
  rw [createSock_eq]
  have hcase : ∀ (i : Nat) (s : Sock),
      (h.world.socks ++ [freshSock h])[i]? = some s →
      h.world.socks[i]? = some s ∨
        (i = h.world.socks.length ∧ s = freshSock h) := by
    intro i s hs
    rw [List.getElem?_append] at hs
    split at hs
    · exact .inl hs
    · next hge =>
        rw [List.getElem?_singleton] at hs
        split at hs
        · exact .inr ⟨by omega, (Option.some.inj hs).symm⟩
        · cases hs
  refine ⟨hw.ordered.insert hw.below, ?_, fun node hn => ?_,
    fun node hn stream hweak => ?_, fun i s hs => ?_, fun i s hs ha hc => ?_⟩
  · simp only [List.length_append, List.length_singleton, hw.inserted]
  · rcases List.mem_append.mp hn with hn | hn
    · exact Nat.lt_succ_of_lt (hw.below node hn)
    · rw [List.mem_singleton] at hn
      subst hn
      exact Nat.lt_succ_self _
  · rcases List.mem_append.mp hn with hn | hn
    · exact hw.own node hn stream hweak
    · rw [List.mem_singleton] at hn
      subst hn
      exact (Option.some.inj hweak).symm.trans hw.inserted.symm
  · rcases hcase i s hs with hs | ⟨rfl, rfl⟩
    · exact hw.conn i s hs
    · exact hw.inserted
  · rcases hcase i s hs with hs | ⟨rfl, rfl⟩
    · exact List.mem_append_left _ (hw.node i s hs ha hc)
    · refine List.mem_append_right _ (List.mem_singleton.mpr ?_)
      rw [hw.inserted]

/-- Closing a socket nulls the node of that socket and no other. -/
theorem Wired.close {h : Hosted Net} {i : Nat} {s : Sock} (hw : Wired h)
    (hs : h.world.socks[i]? = some s) :
    Wired (ThrottledStreams.edit i (TCPSocketBandwidth.call .close)
      (leave i .close h)) := by
  cases hc : s.tcp.closed with
  | true =>
      have hleave : leave i .close h = h := by
        rw [leave, if_neg]
        rw [tcpOf_eq hs, hc]
        exact fun hand => Bool.noConfusion hand.2
      have hsame :
          ThrottledStreams.edit i (TCPSocketBandwidth.call .close) h = h := by
        refine edit_eq_self fun s' hs' => ?_
        rw [hs] at hs'
        cases hs'
        exact TCPSocketBandwidth.close_of_closed hc
      rw [hleave, hsame]
      exact hw
  | false =>
      have hleave : leave i .close h =
          { h with ctl := removeStream i h.ctl } := by
        rw [leave, if_pos ⟨rfl, by rw [tcpOf_eq hs]; exact hc⟩, tcpOf_eq hs,
          hw.conn i s hs]
      rw [hleave]
      refine ⟨hw.ordered.removeStream i, ?_, fun node hn => ?_,
        fun node hn stream hweak => ?_, fun j s' hs' => ?_,
        fun j s' hs' ha hc' => ?_⟩
      · show h.ctl.inserted = _
        rw [hw.inserted]
        exact (List.length_modify _ _ _).symm
      · obtain ⟨a, ha, rfl⟩ := List.mem_map.mp hn
        split <;> exact hw.below a ha
      · obtain ⟨a, ha, rfl⟩ := List.mem_map.mp hn
        split at hweak
        · cases hweak
        · next hne =>
            rw [if_neg hne]
            exact hw.own a ha stream hweak
      · rcases edit_cases hs' with ⟨s₀, rfl, hs₀, rfl⟩ | ⟨-, hs'⟩
        · exact (conn_call .close s₀.tcp).trans (hw.conn i s₀ hs₀)
        · exact hw.conn j s' hs'
      · rcases edit_cases hs' with ⟨s₀, rfl, -, rfl⟩ | ⟨hij, hs'⟩
        · rw [(flags_call .close s₀.tcp).1, if_pos rfl] at hc'
          cases hc'
        · refine List.mem_map.mpr ⟨_, hw.node j s' hs' ha hc', ?_⟩
          exact if_neg (Ne.symm hij)

theorem leave_of_ne {i : Nat} {c : Call} {h : Hosted Net} (hc : c ≠ .close) :
    leave i c h = h :=
  if_neg fun hand => hc hand.1

/-- The nodes and the sockets are all it is about. -/
theorem Wired.congr {h h' : Hosted Net} (hw : Wired h)
    (hstreams : h'.ctl.streams = h.ctl.streams)
    (hinserted : h'.ctl.inserted = h.ctl.inserted)
    (hsocks : h'.world.socks = h.world.socks) : Wired h' where
  ordered := hstreams ▸ hw.ordered
  inserted := by rw [hinserted, hsocks, hw.inserted]
  below := by
    rw [hstreams, hinserted]
    exact hw.below
  own := hstreams ▸ hw.own
  conn := hsocks ▸ hw.conn
  node := by
    rw [hstreams, hsocks]
    exact hw.node

theorem Wired.act {h : Hosted Net} (hw : Wired h) (a : Act) :
    Wired (act h a) := by
  cases a with
  | create => exact hw.createSock
  | call i c =>
      by_cases hl : ops.lock i h.world = true
      · obtain ⟨s, hs, -⟩ := lock_iff.mp hl
        have hcalled : Wired (ThrottledStreams.edit i
            (TCPSocketBandwidth.call c) (leave i c h)) := by
          by_cases hc : c = .close
          · subst hc
            exact hw.close hs
          · rw [leave_of_ne hc]
            refine hw.edit fun tcp => ⟨conn_call c tcp, ?_⟩
            rw [(flags_call c tcp).1, if_neg hc]
        rw [act_call hl]
        exact hcalled.congr rfl rfl rfl
      · rw [act_call_gone hl]
        exact hw

/-- What a handler leaves alone. -/
structure Handled (h h' : Hosted Net) : Prop where
  sheduled : h'.ctl.sheduled = h.ctl.sheduled
  timer : h'.ctl.timer = h.ctl.timer
  serving : h'.world.serving = h.world.serving
  sock : ∀ (i : Nat) (s : Sock), h.world.socks[i]? = some s →
    ∃ s' : Sock, h'.world.socks[i]? = some s' ∧
      s'.tcp.bufferUsed = s.tcp.bufferUsed

theorem Handled.refl (h : Hosted Net) : Handled h h :=
  ⟨rfl, rfl, rfl, fun _ s hs => ⟨s, hs, rfl⟩⟩

theorem Handled.trans {h₁ h₂ h₃ : Hosted Net} (h : Handled h₁ h₂)
    (h' : Handled h₂ h₃) : Handled h₁ h₃ := by
  refine ⟨h'.sheduled.trans h.sheduled, h'.timer.trans h.timer,
    h'.serving.trans h.serving, fun i s hs => ?_⟩
  obtain ⟨s₂, hs₂, hused⟩ := h.sock i s hs
  obtain ⟨s₃, hs₃, hused'⟩ := h'.sock i s₂ hs₂
  exact ⟨s₃, hs₃, hused'.trans hused⟩

theorem Handled.act (h : Hosted Net) (a : Act) :
    Handled h (ThrottledStreams.act h a) := by
  cases a with
  | create =>
      show Handled h (createSock h)
      rw [createSock_eq]
      refine ⟨rfl, rfl, rfl, fun i s hs => ⟨s, ?_, rfl⟩⟩
      obtain ⟨hlt, -⟩ := List.getElem?_eq_some_iff.mp hs
      exact (List.getElem?_append_left hlt).trans hs
  | call i c =>
      by_cases hl : ops.lock i h.world = true
      · rw [act_call hl]
        obtain ⟨hsh, htimer, hworld⟩ := sheduled_leave i c h
        have hserving : (leave i c h).world.serving = h.world.serving := by
          rw [hworld]
        refine ⟨hsh, htimer, hserving, fun j s hs => ?_⟩
        have hs' : (leave i c h).world.socks[j]? = some s := by
          rw [hworld]
          exact hs
        by_cases hij : i = j
        · subst hij
          exact ⟨_, edit_self hs', used_call c s.tcp⟩
        · exact ⟨s, (edit_other hij).trans hs', rfl⟩
      · rw [act_call_gone hl]
        exact Handled.refl h

theorem awake_of_create {h : Hosted Net} {j : Nat}
    (ha : Awake (createSock h) j) : Awake h j := by
  rw [createSock_eq] at ha
  obtain ⟨s, hs, hrest⟩ := ha
  simp only [List.getElem?_append] at hs
  split at hs
  · exact ⟨s, hs, hrest⟩
  · rw [List.getElem?_singleton] at hs
    split at hs
    · cases hs
      exact absurd hrest.2.2.2 (Nat.lt_irrefl 0)
    · cases hs

/-- A call wakes a socket up only by reading, and if a transfer is not scheduled
then, it is noted. -/
theorem awake_of_call {h : Hosted Net} {i j : Nat} {c : Call}
    (hl : ops.lock i h.world = true) (hwakes : ¬ Wakes h i c)
    (hne : h.world.serving ≠ some j)
    (ha : Awake (ThrottledStreams.act h (.call i c)) j) :
    Awake h j ∨ h.ctl.sheduled = true := by
  obtain ⟨-, -, hworld⟩ := sheduled_leave i c h
  obtain ⟨s', hs', halive, hclosed, hstopped, hused⟩ := ha
  rw [act_call hl] at hs'
  change (ThrottledStreams.edit i (TCPSocketBandwidth.call c)
    (leave i c h)).world.socks[j]? = some s' at hs'
  by_cases hij : i = j
  · subst hij
    obtain ⟨s, hs, hlive⟩ := lock_iff.mp hl
    rw [edit_self (by rw [hworld]; exact hs)] at hs'
    cases hs'
    simp only [used_call] at hused
    obtain ⟨hcl, hst⟩ := flags_call c s.tcp
    by_cases hc : c = .close
    · rw [hcl, if_pos hc] at hclosed
      cases hclosed
    · rw [hcl, if_neg hc] at hclosed
      by_cases hrun : s.tcp.stopped = false
      · exact .inl ⟨s, hs, hlive, hclosed, hrun, hused⟩
      · rw [Bool.not_eq_false] at hrun
        have hread : c = .read := by
          rcases hst with hst | hst | hst
          · rw [hst] at hstopped
            cases hstopped
          · rw [hst, hrun] at hstopped
            cases hstopped
          · exact hst
        cases hshed : h.ctl.sheduled with
        | true => exact .inr rfl
        | false =>
            refine absurd ⟨hread, hshed, hne, ?_⟩ hwakes
            rw [tcpOf_eq hs]
            exact ⟨hclosed, hrun, hused⟩
  · rw [edit_other hij, hworld] at hs'
    exact .inl ⟨s', hs', halive, hclosed, hstopped, hused⟩

/-- A handler's call leaves what is owed as it is. -/
theorem Owed.act {h : Hosted Net} {P : Nat → Prop} (ho : Owed P h) (a : Act) :
    Owed P (ThrottledStreams.act h a) := by
  have hhandled := Handled.act h a
  cases a with
  | create =>
      show Owed P (createSock h)
      refine ho.imp ?_ fun ho i ha hne => ?_
      · rw [createSock_eq]
        exact id
      · rw [createSock_eq] at hne ⊢
        exact ho i (awake_of_create ha) hne
  | call i c =>
      by_cases hl : ops.lock i h.world = true
      · have hact := act_call (c := c) hl
        by_cases hwakes : Wakes h i c
        · left
          rw [hact]
          dsimp only
          rw [if_pos hwakes]
          exact List.cons_ne_nil _ _
        · rcases ho with hwoken | ho
          · left
            rw [hact]
            dsimp only
            rw [if_neg hwakes]
            exact hwoken
          · right
            intro j ha hne
            rw [hhandled.sheduled]
            rw [hhandled.serving] at hne
            rcases awake_of_call hl hwakes hne ha with ha | hsh
            · exact ho j ha hne
            · exact .inl hsh
      · rw [act_call_gone hl]
        exact ho

section

variable {react : React} {i : Nat} {event : SocketEvent} {h : Hosted Net}

/-- What every call of a handler keeps, the handler keeps. -/
theorem handle_inv {I : Hosted Net → Prop} (hact : ∀ h a, I h → I (act h a))
    (hI : I h) : I (handle react i event h) := by
  unfold handle
  generalize react h i event = acts
  induction acts generalizing h with
  | nil => exact hI
  | cons a acts ih => exact ih (hact h a hI)

theorem Wired.handle (hw : Wired h) :
    Wired (handle react i event h) :=
  handle_inv (fun _ a hw => hw.act a) hw

theorem Owed.handle {P : Nat → Prop} (ho : Owed P h) :
    Owed P (handle react i event h) :=
  handle_inv (fun _ a ho => ho.act a) ho

theorem Handled.handle : Handled h (handle react i event h) :=
  handle_inv (I := Handled h) (fun h₁ a hh => hh.trans (Handled.act h₁ a))
    (Handled.refl h)

end

/-! ## A transfer -/

section

variable {react : React} {i n : Nat} {h : Hosted Net}

/-- A change that looks at the socket as it is. -/
theorem edit_const (f : TCPSocketBandwidth → TCPSocketBandwidth) :
    edit i (fun _ => f (tcpOf i h)) h = edit i f h :=
  edit_congr fun _ hs => congrArg f (tcpOf_eq hs)

theorem putSock_publish {event : SocketEvent}
    {w : Linked TCPSocketBandwidth (Hosted Net)} :
    putSock i (publish react i event w) =
      handle react i event (putSock i w) :=
  putSock_takeSock

def popTcp (n : Nat) (buffer : List DataChunk) (tcp : TCPSocketBandwidth) :
    TCPSocketBandwidth :=
  { tcp with
    buffer := buffer
    bufferUsed := tcp.bufferUsed - min n tcp.bufferUsed }

def haltTcp (tcp : TCPSocketBandwidth) : TCPSocketBandwidth :=
  { tcp with stopped := true }

def resumeTcp (tcp : TCPSocketBandwidth) : TCPSocketBandwidth :=
  { tcp with paused := false, socket := tcp.socket.read }

/-- A transfer as changes of the world: bytes leave the queue, the handlers
run, and then the stream ends, resumes, or does nothing. -/
theorem transfer_put {w : Linked TCPSocketBandwidth (Hosted Net)}
    (ht : TCPSocketBandwidth.transfer (publish react i) n (takeSock i h) =
      some w) :
    (((tcpOf i h).stopped = true ∨ n = 0) ∧ putSock i w = h) ∨
    ∃ data buffer h₂,
      TCPSocketBandwidth.popBuffer (min n (tcpOf i h).bufferUsed)
        (tcpOf i h).buffer = some (data, buffer) ∧
      h₂ = handle react i (.dataEvent data) (edit i (popTcp n buffer) h) ∧
      (((tcpOf i h₂).bufferUsed = 0 ∧
          putSock i w = handle react i .endEvent (edit i haltTcp h₂)) ∨
        putSock i w = edit i resumeTcp h₂ ∨ putSock i w = h₂) := by
  rcases TCPSocketBandwidth.transfer_cases ht with
    ⟨hidle, rfl⟩ | ⟨-, -, data, buffer, hpop, rfl⟩
  · exact .inl ⟨hidle, putSock_takeSock⟩
  · right
    have hpopped : putSock i
        (TCPSocketBandwidth.popped n buffer (takeSock i h)) =
        edit i (popTcp n buffer) h := edit_const (popTcp n buffer)
    generalize hw₂ : publish react i (.dataEvent data)
      (TCPSocketBandwidth.popped n buffer (takeSock i h)) = w₂
    have hput : putSock i w₂ = handle react i (.dataEvent data)
        (edit i (popTcp n buffer) h) := by
      rw [← hw₂, putSock_publish, hpopped]
    have htake : w₂ = takeSock i (handle react i (.dataEvent data)
        (edit i (popTcp n buffer) h)) := by
      rw [← hw₂, ← hpopped]
      rfl
    refine ⟨data, buffer, _, hpop, rfl, ?_⟩
    rcases TCPSocketBandwidth.afterData_cases (publish react i) w₂ with
      ⟨-, hused, heq⟩ | ⟨-, heq⟩ | ⟨-, -, heq⟩
    · left
      rw [htake] at hused
      refine ⟨hused, ?_⟩
      rw [heq, putSock_publish, htake]
      exact congrArg _ (edit_const haltTcp)
    · right; left
      rw [heq, htake]
      exact edit_const resumeTcp
    · right; right
      rw [heq, hput]

end

/-- No transfer is scheduled and none is being made. -/
structure Idle (h : Hosted Net) : Prop where
  sheduled : h.ctl.sheduled = false
  timer : h.ctl.timer = {}
  serving : h.world.serving = none

/-- Every awake stream is one that `P` says is owed something, unless a `read`
has woken one when nothing was scheduled. -/
def Owes (P : Nat → Prop) (h : Hosted Net) : Prop :=
  h.world.woken ≠ [] ∨ ∀ i, Awake h i → P i

/-- What is left in the queue of a socket that is served. -/
structure Serving (i used : Nat) (P : Nat → Prop) (h : Hosted Net) : Prop where
  wired : Wired h
  sheduled : h.ctl.sheduled = false
  timer : h.ctl.timer = {}
  serving : h.world.serving = some i
  owed : Owed P h
  used : ∃ s : Sock, h.world.socks[i]? = some s ∧ s.tcp.bufferUsed = used

section

variable {react : React} {i n used : Nat} {h : Hosted Net} {P : Nat → Prop}

theorem Serving.handle (event : SocketEvent) (hs : Serving i used P h) :
    Serving i used P (handle react i event h) := by
  have hh : Handled h (ThrottledStreams.handle react i event h) :=
    Handled.handle
  refine ⟨hs.wired.handle, hh.sheduled.trans hs.sheduled,
    hh.timer.trans hs.timer, hh.serving.trans hs.serving, hs.owed.handle, ?_⟩
  obtain ⟨s, hs, hused⟩ := hs.used
  obtain ⟨s', hs', hused'⟩ := hh.sock i s hs
  exact ⟨s', hs', hused'.trans hused⟩

theorem Serving.edit {used' : Nat}
    {f : TCPSocketBandwidth → TCPSocketBandwidth} (hs : Serving i used P h)
    (hf : Stays f)
    (hused : ∀ tcp, tcp.bufferUsed = used → (f tcp).bufferUsed = used') :
    Serving i used' P (edit i f h) := by
  refine ⟨hs.wired.edit hf, hs.sheduled, hs.timer, hs.serving,
    hs.owed.edit_serving hs.serving, ?_⟩
  obtain ⟨s, hs, hu⟩ := hs.used
  exact ⟨_, edit_self hs, hused s.tcp hu⟩

/-- The stream that has been served is awake afterwards only if `Q` says so. -/
theorem Serving.ends {Q : Prop} (hs : Serving i used P h)
    (hself : Awake h i → Q) :
    Wired (serve none h) ∧ Idle (serve none h) ∧
      Owes (fun j => (j ≠ i ∧ P j) ∨ Q) (serve none h) := by
  refine ⟨hs.wired.congr rfl rfl rfl, ⟨hs.sheduled, hs.timer, rfl⟩, ?_⟩
  refine hs.owed.imp id fun ho j ha => ?_
  by_cases hji : j = i
  · subst hji
    exact .inr (hself ha)
  · refine .inl ⟨hji, (ho j ha ?_).resolve_left ?_⟩
    · rw [hs.serving]
      exact fun hc => hji (Option.some.inj hc).symm
    · rw [hs.sheduled]
      exact Bool.false_ne_true

theorem Serving.awake (hs : Serving i used P h)
    (ha : Awake h i) : 0 < used := by
  obtain ⟨s₁, hs₁, hused⟩ := hs.used
  obtain ⟨s₂, hs₂, -, -, -, hpos⟩ := ha
  rw [hs₁] at hs₂
  cases hs₂
  omega

/-- A transfer in the controller's loop: it keeps what the loop knows of the
other streams, and the stream itself is awake afterwards only if it had more
than it was asked for. -/
theorem transferTo_spec {s : Sock} {h' : Hosted Net} (hw : Wired h)
    (hi : Idle h) (hs : h.world.socks[i]? = some s) (hn : n ≠ 0)
    (ho : Owes P h) (ht : transferTo react i n h = some h') :
    Wired h' ∧ Idle h' ∧
      Owes (fun j => (j ≠ i ∧ P j) ∨ n < s.tcp.bufferUsed) h' := by
  obtain ⟨w, htw, rfl⟩ := Option.map_eq_some_iff.mp ht
  have hstart : Serving i s.tcp.bufferUsed P (serve (some i) h) := by
    refine ⟨hw.congr rfl rfl rfl, hi.sheduled, hi.timer, rfl, ?_, s, hs, rfl⟩
    exact ho.imp id fun ho j ha _ => .inr (ho j ha)
  rcases transfer_put htw with ⟨hidle, heq⟩ | ⟨data, buffer, h₂, -, hh₂, hcases⟩
  · rw [heq]
    refine hstart.ends fun ha => ?_
    obtain ⟨s', hs', -, -, hstopped, -⟩ := ha
    rcases hidle with hst | hz
    · rw [tcpOf_eq hs', hstopped] at hst
      cases hst
    · exact absurd hz hn
  · have hpop : Serving i (s.tcp.bufferUsed - min n s.tcp.bufferUsed) P
        (ThrottledStreams.edit i (popTcp n buffer) (serve (some i) h)) :=
      hstart.edit (fun _ => ⟨rfl, rfl⟩) fun tcp hu => by
        simp only [popTcp, hu]
    have hdata : Serving i _ P h₂ := hh₂ ▸ hpop.handle (.dataEvent data)
    have hend : ∀ {h₁ : Hosted Net},
        Serving i (s.tcp.bufferUsed - min n s.tcp.bufferUsed) P h₁ →
        Wired (serve none h₁) ∧ Idle (serve none h₁) ∧
          Owes (fun j => (j ≠ i ∧ P j) ∨ n < s.tcp.bufferUsed)
            (serve none h₁) := by
      intro h₁ h₁s
      refine h₁s.ends fun ha => ?_
      have hpos := h₁s.awake ha
      omega
    rcases hcases with ⟨-, heq⟩ | heq | heq
    · rw [heq]
      have hhalt : Serving i _ P
          (handle react i .endEvent (ThrottledStreams.edit i haltTcp h₂)) :=
        (hdata.edit (f := haltTcp) (fun _ => ⟨rfl, rfl⟩)
          fun tcp hu => hu).handle .endEvent
      exact hend hhalt
    · rw [heq]
      have hres := hdata.edit (f := resumeTcp) (fun _ => ⟨rfl, rfl⟩)
        fun tcp hu => hu
      exact hend hres
    · rw [heq]
      exact hend hdata

end

/-! ## The loops of the controller -/

section

variable {react : React} {h : Hosted Net}

/-- An awake stream has its node in the list. -/
theorem Wired.node_of_awake (hw : Wired h) {i : Nat} (ha : Awake h i) :
    { id := i, weak := some i } ∈ h.ctl.streams := by
  obtain ⟨s, hs, halive, hclosed, -⟩ := ha
  exact hw.node i s hs halive hclosed

/-- What the loops know of the streams when no `read` has woken one. -/
def Wants (h : Hosted Net) (i : Nat) : Prop := h.world.woken = [] ∧ Awake h i

theorem owes_iff {P : Nat → Prop} :
    Owes P h ↔ ∀ i, Wants h i → P i := by
  constructor
  · rintro (hwoken | ho) i ⟨hnone, ha⟩
    · exact absurd hnone hwoken
    · exact ho i ha
  · intro ho
    by_cases hnone : h.world.woken = []
    · exact .inr fun i ha => ho i ⟨hnone, ha⟩
    · exact .inl hnone

theorem available_eq {i : Nat} {s : Sock} (hs : h.world.socks[i]? = some s) :
    (streams react).available i h.world = s.tcp.bufferUsed := by
  show (h.world.socks[i]?.map fun s => s.tcp.available).getD 0 = _
  rw [hs]
  rfl

/-- The record of a transfer is nobody's concern. -/
theorem Wired.handed (hw : Wired h) (handed : Handed) :
    Wired { h with ctl := ControllerSimple.record handed h.ctl } :=
  hw.congr (record_streams _ _) (record_inserted _ _) rfl

/-- An expired node is the node of no stream that is there. -/
theorem Wired.erase (hw : Wired h) {node : Node}
    (hmem : node ∈ h.ctl.streams)
    (hl : ControllerSimple.lock (streams react) node h = none) :
    Wired { h with
      ctl.streams := ControllerSimple.erase node.id h.ctl.streams } := by
  have hsub : List.Sublist (ControllerSimple.erase node.id h.ctl.streams)
      h.ctl.streams := List.filter_sublist
  refine ⟨hw.ordered.sublist hsub, hw.inserted,
    fun a ha => hw.below a (hsub.subset ha),
    fun a ha => hw.own a (hsub.subset ha), hw.conn, ?_⟩
  intro i s hs ha hcl
  have hin := hw.node i s hs ha hcl
  refine List.mem_filter.mpr ⟨hin, ?_⟩
  simp only [ne_eq, decide_eq_true_eq]
  intro hid
  have hsame := node_unique hw.ordered hin hmem hid
  have hlock : ops.lock i h.world = true := lock_iff.mpr ⟨s, hs, ha⟩
  rw [← hsame] at hl
  simp [ControllerSimple.lock, Option.filter, streams, hlock] at hl

/-- An awake stream is left awake by the loops only if it was counted as
pending. -/
theorem heeds : Heeds (streams react) (fun h => Wired h ∧ Idle h) Wants where
  ordered := fun hI => hI.1.ordered
  own := fun hI hnode hweak => hI.1.own _ hnode _ hweak
  node := fun hI hw => hI.1.node_of_awake hw.2
  lock := by
    rintro h i - ⟨-, s, hs, halive, -⟩
    exact lock_iff.mpr ⟨s, hs, halive⟩
  erase := fun hI hnode hl =>
    ⟨⟨hI.1.erase hnode hl, hI.2.sheduled, hI.2.timer, hI.2.serving⟩,
      fun _ hw => hw⟩
  skip := by
    rintro h i - hz ⟨-, s, hs, -, -, -, hpos⟩
    rw [available_eq hs] at hz
    omega
  serve := by
    rintro h h' node stream total n ⟨hw, hi⟩ - hl hn - ht
    obtain ⟨s, hs, -⟩ := lock_iff.mp (Option.filter_eq_some_iff.mp hl).2
    obtain ⟨hw', hi', ho'⟩ := transferTo_spec (P := Wants h)
      (hw.handed ⟨total, n⟩)
      ⟨(record_sheduled _ _).trans hi.sheduled,
        (record_timer _ _).trans hi.timer, hi.serving⟩ hs hn
      (owes_iff.mpr fun i hi => hi) ht
    rw [available_eq hs]
    exact ⟨⟨hw', hi'⟩, owes_iff.mp ho'⟩

/-- What is known between events, and after every listener. -/
structure Alert (h : Hosted Net) : Prop where
  wired : Wired h
  timed : Timed h.ctl
  serving : h.world.serving = none
  owed : Owes (fun _ => h.ctl.sheduled = true) h

/-- After a run of `transfer` somebody is awake only if a transfer is
scheduled again. -/
theorem transfer_alert {fuel elapsed : Nat} {h h' : Hosted Net} (hw : Wired h)
    (htimer : h.ctl.timer = {}) (hserving : h.world.serving = none)
    (ht : ControllerSimple.transfer (streams react) fuel elapsed h =
      some h') : Alert h' := by
  rw [transfer_eq] at ht
  split at ht
  · next hempty =>
      have heq := Option.some.inj ht
      subst heq
      refine ⟨hw.congr rfl rfl rfl, ?_, hserving, .inr fun i ha => ?_⟩
      · simp [Timed, htimer]
      · have hnode := hw.node_of_awake (h := h) ha
        rw [List.length_eq_zero_iff.mp hempty] at hnode
        cases hnode
  · split at ht
    · have heq := Option.some.inj ht
      subst heq
      refine ⟨hw.congr rfl rfl rfl, ?_, hserving, .inr fun _ _ => rfl⟩
      simp [Timed, deferTransfer, begun, htimer]
    · obtain ⟨⟨pend, h₁⟩, hrounds, rfl⟩ := Option.map_eq_some_iff.mp ht
      have hbegun : Wired (begun elapsed h) ∧ Idle (begun elapsed h) :=
        ⟨hw.congr rfl rfl rfl, rfl, htimer, hserving⟩
      obtain ⟨⟨hw₁, hi₁⟩, hwants⟩ := heeds.rounds hbegun hrounds
      have ho₁ := owes_iff.mpr hwants
      dsimp only at hw₁ hi₁ ho₁ ⊢
      have htimed : Timed (finish pend h₁).ctl :=
        finish_timed hi₁.timer hi₁.sheduled
      unfold finish at htimed ⊢
      by_cases hz : 0 < pend
      · rw [if_pos hz] at htimed ⊢
        exact ⟨hw₁.congr rfl rfl rfl, htimed, hi₁.serving,
          .inr fun _ _ => rfl⟩
      · rw [if_neg hz] at htimed ⊢
        exact ⟨hw₁, htimed, hi₁.serving, ho₁.imp id fun ho i ha =>
          absurd (ho i ha) hz⟩

end

/-! ## Events -/

section

variable {react : React} {h : Hosted Net}

/-- A listener's calls between events. -/
theorem Alert.of_handled {h' : Hosted Net} (ha : Alert h) (hw : Wired h')
    (hh : Handled h h')
    (ho : Owed (fun _ => False) h → Owed (fun _ => False) h') : Alert h' := by
  refine ⟨hw, ?_, hh.serving.trans ha.serving, ?_⟩
  · have := ha.timed
    unfold Timed at this ⊢
    rw [hh.sheduled, hh.timer]
    exact this
  · have howed : Owed (fun _ => False) h :=
      ha.owed.imp id fun ho i hi _ => .inl (ho i hi)
    refine (ho howed).imp id fun ho i hi => ?_
    have hserving : h'.world.serving ≠ some i := by
      rw [hh.serving, ha.serving]
      exact nofun
    exact (ho i hi hserving).resolve_right id

theorem Alert.act (ha : Alert h) (a : Act) :
    Alert (ThrottledStreams.act h a) :=
  ha.of_handled (ha.wired.act a) (Handled.act h a) fun ho => ho.act a

theorem Alert.handle {i : Nat} (event : SocketEvent) (ha : Alert h) :
    Alert (handle react i event h) :=
  ha.of_handled ha.wired.handle Handled.handle fun ho => ho.handle

theorem Alert.edit {i : Nat} {f : TCPSocketBandwidth → TCPSocketBandwidth}
    (ha : Alert h) (hf : Stays f) (hl : Lulls f) :
    Alert (ThrottledStreams.edit i f h) :=
  ⟨ha.wired.edit hf, ha.timed, ha.serving,
    ha.owed.imp id fun ho j hj => ho j (Awake.of_edit hl hj)⟩

/-- A change of the listeners on the inner socket. -/
def setListeners (listeners : TCPSocketBandwidth → List InnerListener)
    (tcp : TCPSocketBandwidth) : TCPSocketBandwidth :=
  { tcp with socket.listeners := listeners tcp }

theorem Alert.listen {i : Nat}
    (listeners : TCPSocketBandwidth → List InnerListener) (ha : Alert h) :
    Alert (ThrottledStreams.edit i (setListeners listeners) h) :=
  ha.edit (fun _ => ⟨rfl, rfl⟩) fun _ hc hs hu => ⟨hc, hs, hu⟩

/-- The tail of `on_event` and `on_data`: a listener is put back unless the
socket was closed. -/
theorem Alert.relisten {i : Nat} {l : InnerListener} (ha : Alert h) :
    Alert (putSock i (if !(takeSock i h).sock.closed then
      { takeSock i h with
        sock.socket.listeners :=
          Lib.Emitter.once l (takeSock i h).sock.socket.listeners }
      else takeSock i h)) := by
  split
  · have := ha.listen (i := i) fun tcp =>
      Lib.Emitter.once l tcp.socket.listeners
    rw [← edit_const] at this
    exact this
  · rw [putSock_takeSock]
    exact ha

theorem flags_bufferData (data : Bytes) (tcp : TCPSocketBandwidth) :
    (TCPSocketBandwidth.bufferData data tcp).conn = tcp.conn ∧
      (TCPSocketBandwidth.bufferData data tcp).closed = tcp.closed := by
  unfold TCPSocketBandwidth.bufferData
  dsimp only
  split <;> exact ⟨rfl, rfl⟩

/-- Changing a socket that was taken out. -/
theorem putSock_with {i : Nat} {w : Linked TCPSocketBandwidth (Hosted Net)}
    (f : TCPSocketBandwidth → TCPSocketBandwidth) :
    putSock i { w with sock := f w.sock } =
      ThrottledStreams.edit i f (putSock i w) :=
  (edit_edit f).symm

/-- `on_data`: the data make a stream awake, and then a transfer is scheduled,
or made at once. -/
theorem Alert.onData {fuel i elapsed : Nat} {data : Bytes}
    {w w' : Linked TCPSocketBandwidth (Hosted Net)} (ha : Alert (putSock i w))
    (hd : TCPSocketBandwidth.onData (sheduleFrom react fuel i elapsed) data
      w = some w') : Alert (putSock i w') := by
  obtain ⟨w₁, hshed, rfl⟩ := Option.map_eq_some_iff.mp hd
  obtain ⟨h₁, htrans, rfl⟩ := Option.map_eq_some_iff.mp hshed
  refine Alert.relisten ?_
  rw [putSock_with (TCPSocketBandwidth.bufferData data)] at htrans
  generalize putSock i w = h at ha htrans
  have hw := ha.wired.edit (i := i)
    (f := TCPSocketBandwidth.bufferData data) (flags_bufferData data)
  unfold sheduleTransfer at htrans
  cases hsh : h.ctl.sheduled with
  | true =>
      rw [if_pos (show (ThrottledStreams.edit i _ h).ctl.sheduled = true from
        hsh)] at htrans
      have heq := Option.some.inj htrans
      subst heq
      exact ⟨hw, ha.timed, ha.serving, .inr fun _ _ => hsh⟩
  | false =>
      rw [if_neg (show ¬ (ThrottledStreams.edit i _ h).ctl.sheduled = true by
        rw [show (ThrottledStreams.edit i _ h).ctl.sheduled = false from hsh]
        exact Bool.false_ne_true)] at htrans
      have htimer : h.ctl.timer = {} := by
        simpa [Timed, hsh] using ha.timed
      exact transfer_alert hw htimer ha.serving htrans

/-- One listener of the inner socket. -/
theorem Alert.runListener {fuel i elapsed : Nat} {event : SocketEvent}
    {l : InnerListener} {w w' : Linked TCPSocketBandwidth (Hosted Net)}
    (ha : Alert (putSock i w))
    (hr : TCPSocketBandwidth.runListener (publish react i)
      (sheduleFrom react fuel i elapsed) event w l = some w') :
    Alert (putSock i w') := by
  cases l with
  | onEvent kind =>
      have heq := Option.some.inj hr
      subst heq
      exact Alert.relisten (ha.handle event)
  | onData =>
      cases event with
      | dataEvent data => exact ha.onData hr
      | errorEvent err =>
          have heq := Option.some.inj hr
          exact heq ▸ ha
      | connectEvent =>
          have heq := Option.some.inj hr
          exact heq ▸ ha
      | writeEvent =>
          have heq := Option.some.inj hr
          exact heq ▸ ha
      | endEvent =>
          have heq := Option.some.inj hr
          exact heq ▸ ha
      | shutdownEvent =>
          have heq := Option.some.inj hr
          exact heq ▸ ha
      | closeEvent =>
          have heq := Option.some.inj hr
          exact heq ▸ ha
  | setEof =>
      have heq := Option.some.inj hr
      subst heq
      rw [putSock_with fun tcp => { tcp with eof := true }]
      exact ha.edit (fun _ => ⟨rfl, rfl⟩) fun _ hc hs hu => ⟨hc, hs, hu⟩
  | publishClose =>
      have heq := Option.some.inj hr
      subst heq
      rw [putSock_publish]
      exact ha.handle _

theorem Alert.listeners {fuel i elapsed : Nat} {event : SocketEvent}
    {ls : List InnerListener}
    {w w' : Linked TCPSocketBandwidth (Hosted Net)} (ha : Alert (putSock i w))
    (hr : ls.foldlM (TCPSocketBandwidth.runListener (publish react i)
      (sheduleFrom react fuel i elapsed) event) w = some w') :
    Alert (putSock i w') :=
  Lib.foldlM_keeps (I := fun _ w => Alert (putSock i w))
    (fun ha h₁ => ha.runListener h₁) ha hr

theorem Alert.release (ha : Alert h) (i : Nat) :
    Alert { h with
      world.socks := h.world.socks.modify i fun s =>
        { s with alive := false } } := by
  have hback : ∀ (j : Nat) (s : Sock),
      (h.world.socks.modify i fun s => { s with alive := false })[j]? =
        some s → ∃ s₀ : Sock, h.world.socks[j]? = some s₀ ∧
          s.tcp = s₀.tcp ∧ (s.alive = true → s₀.alive = true) := by
    intro j s hs
    rw [List.getElem?_modify] at hs
    obtain ⟨s₀, hs₀, rfl⟩ := Option.map_eq_some_iff.mp hs
    refine ⟨s₀, hs₀, ?_, ?_⟩ <;> split
    · rfl
    · rfl
    · exact nofun
    · exact id
  refine ⟨⟨ha.wired.ordered, ?_, ha.wired.below, ha.wired.own,
    fun j s hs => ?_, fun j s hs hal hc => ?_⟩, ha.timed, ha.serving, ?_⟩
  · exact ha.wired.inserted.trans (List.length_modify _ _ _).symm
  · obtain ⟨s₀, hs₀, htcp, -⟩ := hback j s hs
    rw [htcp]
    exact ha.wired.conn j s₀ hs₀
  · obtain ⟨s₀, hs₀, htcp, hlive⟩ := hback j s hs
    exact ha.wired.node j s₀ hs₀ (hlive hal) (htcp ▸ hc)
  · refine ha.owed.imp id fun ho j hj => ho j ?_
    obtain ⟨s, hs, hal, hrest⟩ := hj
    obtain ⟨s₀, hs₀, htcp, hlive⟩ := hback j s hs
    exact ⟨s₀, hs₀, hlive hal, htcp ▸ hrest⟩

/-- Every event keeps what is known between events. -/
theorem Alert.step {e : Event × React} {h' : Hosted Net} (ha : Alert h)
    (hs : Step h e h') : Alert h' := by
  obtain ⟨fuel, hs⟩ := hs
  obtain ⟨e, react⟩ := e
  cases e with
  | act a =>
      have heq := Option.some.inj hs
      subst heq
      exact ha.act a
  | inner i event elapsed =>
      simp only [ThrottledStreams.step] at hs
      split at hs
      · obtain ⟨w, hinner, rfl⟩ := Option.map_eq_some_iff.mp hs
        refine Alert.listeners ?_ hinner
        have hput : putSock i { takeSock i h with
            sock.socket.listeners := Lib.Emitter.clearKind event.kind
              (takeSock i h).sock.socket.listeners } =
            ThrottledStreams.edit i (setListeners fun tcp =>
              Lib.Emitter.clearKind event.kind tcp.socket.listeners) h :=
          edit_const (setListeners fun tcp =>
            Lib.Emitter.clearKind event.kind tcp.socket.listeners)
        rw [hput]
        exact ha.listen _
      · cases hs
  | tick elapsed =>
      simp only [ThrottledStreams.step, timerEvent] at hs
      cases hsh : h.ctl.sheduled with
      | false =>
          have htimer : h.ctl.timer = {} := by
            simpa [Timed, hsh] using ha.timed
          rw [htimer] at hs
          cases hs
      | true =>
          have htimer : h.ctl.timer = { listeners := 1, armed := true } := by
            simpa [Timed, hsh] using ha.timed
          simp only [htimer, if_true, List.range_one, List.foldlM_cons,
            List.foldlM_nil, bind_pure] at hs
          exact transfer_alert (h := { h with ctl.timer := {} })
            (ha.wired.congr rfl rfl rfl) rfl ha.serving hs
  | release i =>
      have heq := Option.some.inj hs
      subst heq
      exact ha.release i

end

theorem Alert.created (limit : Nat) :
    Alert (ThrottledStreams.created limit) := by
  refine ⟨⟨List.Pairwise.nil, rfl, fun _ hn => absurd hn List.not_mem_nil,
    fun _ hn => absurd hn List.not_mem_nil, fun _ _ hs => ?_,
    fun _ _ hs => ?_⟩, rfl, rfl, .inr fun _ ha => ?_⟩
  · cases hs
  · cases hs
  · obtain ⟨s, hs, -⟩ := ha
    cases hs

theorem Alert.run {limit : Nat} {h x : Hosted Net}
    {hist : List (Hosted Net × (Event × React))}
    (hr : Run Step (ThrottledStreams.created limit) hist h)
    (hx : Passes hist h x) : Alert x :=
  hr.always (C := fun _ _ => True) (fun _ _ => trivial)
    (fun hr' _ => hr'.invariant' Alert (.created limit)
      fun _ _ _ ha hs => ha.step hs) hx

theorem Alert.wokenUp {h : Hosted Net} (ha : Alert h)
    (hw : h.world.woken = []) : WokenUp h := by
  intro i hi
  have hsh := ha.owed.resolve_left (fun hne => hne hw) i hi
  refine ⟨hsh, ?_⟩
  have htimer := ha.timed
  rw [Timed, if_pos hsh] at htimer
  rw [htimer]

/-- No `read` made in the event, by the owner or by a handler, finds bytes in
the queue of a stopped socket while no transfer is scheduled; a handler called
by the transfer of a socket may read that socket. -/
def ReadsInTime (h : Hosted Net) (e : Event × React) : Prop :=
  ∀ h', Step h e h' → h'.world.woken = h.world.woken

/-- Between events, such a `read` leaves a stream awake with nothing
scheduled. -/
theorem not_wokenUp_of_read {h : Hosted Net} {i : Nat} {react : React}
    (hr : ¬ ReadsInTime h (.act (.call i .read), react)) :
    ¬ WokenUp (act h (.call i .read)) := by
  simp only [ReadsInTime, not_forall] at hr
  obtain ⟨h', ⟨fuel, hs⟩, hwoken⟩ := hr
  have heq := Option.some.inj hs
  subst heq
  by_cases hl : ops.lock i h.world = true
  · rw [act_call hl] at hwoken ⊢
    by_cases hw : Wakes h i .read
    · obtain ⟨s, hs, halive⟩ := lock_iff.mp hl
      obtain ⟨-, hsh, -, hc, -, hu⟩ := hw
      rw [tcpOf_eq hs] at hc hu
      rw [leave_of_ne (by simp)]
      intro hall
      refine absurd ((hall i ⟨_, edit_self hs, halive, ?_, ?_, ?_⟩).1.symm.trans
        hsh) (by simp)
      · exact ((flags_call .read s.tcp).1).trans hc
      · show (TCPSocketBandwidth.read s.tcp).stopped = false
        unfold TCPSocketBandwidth.read
        dsimp only
        split <;> rfl
      · exact (used_call .read s.tcp).symm ▸ hu
    · exact absurd (if_neg hw) hwoken
  · rw [act_call_gone hl] at hwoken
    exact absurd rfl hwoken

/-- In every run of a controller with any number of throttled sockets whose
reads are made in time no wake-up is lost; and a `read` between events that is
not in time always loses one. -/
theorem woken_up_if {limit : Nat} {h : Hosted Net}
    {hist : List (Hosted Net × (Event × React))}
    (hr : Run Step (created limit) hist h) :
    (Meets ReadsInTime hist → ∀ x, Passes hist h x → WokenUp x) ∧
      ∀ x i react, Passes hist h x →
        ¬ ReadsInTime x (.act (.call i .read), react) →
        ¬ WokenUp (act x (.call i .read)) := by
  refine ⟨fun hC x hx => ?_, fun x i react _ hread => not_wokenUp_of_read hread⟩
  refine hr.always hC (fun hr' hC' => ?_) hx
  have hI := hr'.invariant (fun h => Alert h ∧ h.world.woken = []) hC'
    ⟨Alert.created limit, rfl⟩
    fun _ _ _ hI hC hs => ⟨hI.1.step hs, (hC _ hs).trans hI.2⟩
  exact hI.1.wokenUp hI.2

theorem step_of_graph {fuel : Nat} (h : Hosted Net) (e : Event × React)
    (h' : Hosted Net) (hs : Lib.Graph (step fuel) h e h') : Step h e h' :=
  ⟨fuel, hs⟩

def quietOwner : React := fun _ _ _ => []

/-- An owner that stops a socket at every `DataEvent`. -/
def stoppingOwner : React := fun _ stream event =>
  match event with
  | .dataEvent _ => [.call stream .stop]
  | _ => []

/-- A stream that is stopped with three bytes in its queue, the tick that finds
it so, and the `read` that comes after. -/
def sleepingEvents : List (Event × React) :=
  [(.act .create, quietOwner), (.act (.call 0 .read), quietOwner),
    (.inner 0 (.dataEvent [1, 2, 3, 4]) 1, stoppingOwner),
    (.tick 10, quietOwner), (.act (.call 0 .read), quietOwner)]

/-- The tick counts the three bytes as handed over although the stopped stream
keeps them, so that nothing is scheduled when the stream is read again. -/
theorem wake_up_lost :
    ¬ ∀ limit hist h, Run Step (created limit) hist h →
      ∀ x, Passes hist h x → WokenUp x := by
  intro hall
  obtain ⟨hist, h, hexec, hsock, hsheduled⟩ : ∃ hist h,
      exec (step 3) (created 1000) sleepingEvents = some (hist, h) ∧
        (h.world.socks[0]?.map fun s => (s.alive, s.tcp.closed, s.tcp.stopped,
          s.tcp.bufferUsed)) = some (true, false, false, 3) ∧
        h.ctl.sheduled = false :=
    ⟨_, _, rfl, by decide, by decide⟩
  have hw := hall 1000 hist h ((run_of_exec hexec).mono step_of_graph) h .last
  obtain ⟨s, hs, hflags⟩ := Option.map_eq_some_iff.mp hsock
  simp only [Prod.mk.injEq] at hflags
  obtain ⟨halive, hclosed, hstopped, hused⟩ := hflags
  have hsh := (hw 0 ⟨s, hs, halive, hclosed, hstopped, by omega⟩).1
  exact absurd (hsh.symm.trans hsheduled) (by simp)

/-- A stream that is stopped and read again while a transfer is scheduled. -/
theorem woken_up_before_tick : ∃ hist h,
    Run Step (created 1000) hist h ∧ Awake h 0 ∧
      ∀ x, Passes hist h x → WokenUp x := by
  obtain ⟨hist, h, hexec, hsock⟩ : ∃ hist h,
      exec (step 0) (created 1000)
        [(.act .create, quietOwner), (.act (.call 0 .read), quietOwner),
          (.inner 0 (.dataEvent [1, 2, 3, 4]) 0, quietOwner),
          (.act (.call 0 .stop), quietOwner),
          (.act (.call 0 .read), quietOwner)] = some (hist, h) ∧
        (h.world.socks[0]?.map fun s => (s.alive, s.tcp.closed, s.tcp.stopped,
          s.tcp.bufferUsed)) = some (true, false, false, 4) :=
    ⟨_, _, rfl, by decide⟩
  have hr := (run_of_exec hexec).mono step_of_graph
  obtain ⟨s, hs, hflags⟩ := Option.map_eq_some_iff.mp hsock
  simp only [Prod.mk.injEq] at hflags
  obtain ⟨halive, hclosed, hstopped, hused⟩ := hflags
  refine ⟨hist, h, hr, ⟨s, hs, halive, hclosed, hstopped, by omega⟩,
    (woken_up_if hr).1 (meets_of_along hexec ?_)⟩
  refine ⟨?_, fun h₁ hs₁ => ⟨?_, fun h₂ hs₂ => ⟨?_, fun h₃ hs₃ =>
    ⟨?_, fun h₄ hs₄ => ⟨?_, fun _ _ => trivial⟩⟩⟩⟩⟩
  · rintro h' ⟨fuel, hs'⟩
    cases hs'
    rfl
  · cases hs₁
    rintro h' ⟨fuel, hs'⟩
    cases hs'
    rfl
  · cases hs₁
    cases hs₂
    rintro h' ⟨fuel, hs'⟩
    cases hs'
    rfl
  · cases hs₁
    cases hs₂
    cases hs₃
    rintro h' ⟨fuel, hs'⟩
    cases hs'
    rfl
  · cases hs₁
    cases hs₂
    cases hs₃
    cases hs₄
    rintro h' ⟨fuel, hs'⟩
    cases hs'
    rfl

end ThrottledStreams

end EcwidDownloader
