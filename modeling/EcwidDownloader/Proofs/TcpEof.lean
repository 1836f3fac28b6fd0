import EcwidDownloader.Proofs.TcpStream

/-!
# The end of the stream through a throttled socket

The `EndEvent` of the inner socket only sets `eof`. It is `transfer` that turns
the flag into an `EndEvent` of its own, when it has published the last byte of
the queue, and a controller asks for transfers only where there are bytes. So
the end is passed on exactly when it arrives before the last byte has left the
queue: an end that finds the queue empty stays where it is.

The theorem is about a socket that is open and not stopped when the events
begin, and whose owner does not stop, close or reread it among them.
-/

namespace EcwidDownloader

open Lib

namespace TCPSocketBandwidth

/-- The end of the stream is published after all the bytes, once, and as soon as
it was received and every byte was published. -/
structure EndPassedOn (w : Observed) : Prop where
  after : ∀ before rest,
    w.owner = before ++ .published .endEvent :: rest →
    publishedBytes before = receivedBytes before
  once : w.owner.count (.published .endEvent) ≤ 1
  passed : .ended ∈ w.owner → publishedBytes w.owner = receivedBytes w.owner →
    .published .endEvent ∈ w.owner

/-- The calls that leave a socket open and not stopped as it is. -/
def Calm (c : Call) : Prop := c ≠ .read ∧ c ≠ .stop ∧ c ≠ .close

/-- Everything that can happen to a socket whose owner does not stop, close or
reread it. -/
def Flowing (e : Event × React) : Prop :=
  (∀ c, e.1 = .call c → Calm c) ∧ Acts Calm e.2

/-- The first end that arrives finds bytes in the queue. -/
def EndsBuffered (w : Observed) (e : Event × React) : Prop :=
  e.1 = .ended → .ended ∉ w.owner → 0 < w.sock.bufferUsed

/-- The steps of such a socket. -/
def FlowStep (w : Observed) (e : Event × React) (w' : Observed) : Prop :=
  Lib.Graph step w e w' ∧ Flowing e

/-! ## Before the end -/

/-- The listener that sets `eof` waits until the end arrives. -/
def EndArmed (s : TCPSocketBandwidth) : Prop :=
  s.closed = false → s.eof = false →
    Emitter.taken .endOfStream s.socket.listeners = [.setEof]

theorem EndArmed.congr {s s' : TCPSocketBandwidth} (h : EndArmed s)
    (hc : s'.closed = s.closed) (he : s'.eof = s.eof)
    (hl : s'.socket.listeners = s.socket.listeners) : EndArmed s' := by
  intro hc' he'
  rw [hl]
  exact h (hc ▸ hc') (he ▸ he')

theorem EndArmed.call {s : TCPSocketBandwidth} (h : EndArmed s) (c : Call) :
    EndArmed (TCPSocketBandwidth.call c s) := by
  cases c with
  | connect ip port => exact h
  | connect6 ip port => exact h
  | write data => exact h
  | shutdown => exact h
  | read =>
      show EndArmed (read s)
      unfold TCPSocketBandwidth.read
      dsimp only
      split <;> exact h
  | stop =>
      show EndArmed (stop s)
      unfold TCPSocketBandwidth.stop
      dsimp only
      split <;> exact h
  | close =>
      show EndArmed (close s)
      cases hc : s.closed with
      | true => rw [close_of_closed hc]; exact h
      | false =>
          rw [close_of_open hc]
          exact nofun

theorem EndArmed.keptInside :
    KeptInside (fun _ => True) (fun _ => True) (fun w => EndArmed w.sock) where
  call := fun c _ _ h => h.call c
  deliver := fun _ _ _ _ h _ _ => h.congr rfl rfl rfl
  finish := fun _ h _ _ => h.congr rfl rfl rfl
  resume := fun _ h _ _ => h.congr rfl rfl rfl

theorem EndArmed.taking {s : TCPSocketBandwidth} (h : EndArmed s)
    (kind : EventKind) (hk : kind ≠ .endOfStream) :
    EndArmed { s with
      socket.listeners := Emitter.clearKind kind s.socket.listeners } := by
  intro hc he
  dsimp only
  rw [Emitter.taken_clearKind, if_neg (Ne.symm hk)]
  exact h hc he

theorem EndArmed.relisten {l : InnerListener} {w : Observed}
    (hl : Listens.kind l ≠ .endOfStream) (h : EndArmed w.sock) :
    EndArmed (relisten l w).sock := by
  unfold TCPSocketBandwidth.relisten
  split
  · intro hc he
    dsimp only
    rw [Emitter.taken_once, if_neg hl]
    exact h hc he
  · exact h

theorem eof_bufferData (data : Bytes) (s : TCPSocketBandwidth) :
    (bufferData data s).eof = s.eof ∧
      (bufferData data s).closed = s.closed ∧
      (bufferData data s).stopped = s.stopped ∧
      (bufferData data s).socket.listeners = s.socket.listeners ∧
      (bufferData data s).bufferUsed = s.bufferUsed + data.length := by
  unfold bufferData
  dsimp only
  split <;> exact ⟨rfl, rfl, rfl, rfl, rfl⟩

theorem kind_of_forwarded {e : Event} {event : SocketEvent}
    (he : e.forwarded = some event) :
    event.kind ≠ .endOfStream ∧ event ≠ .endEvent ∧
      (∀ data, event ≠ .dataEvent data) := by
  cases e <;> simp only [Event.forwarded, Option.some.injEq, reduceCtorEq]
    at he <;> subst he <;>
    exact ⟨by simp [SocketEvent.kind], by simp, fun _ => by simp⟩

theorem EndArmed.steps {react : React} {w w' : Observed} {e : Event}
    (h : EndArmed w.sock) (hs : Steps react w e w') : EndArmed w'.sock := by
  cases hs with
  | data hc ht =>
      refine EndArmed.relisten nofun ?_
      refine EndArmed.keptInside.transfers acts_any atResume_trivial ?_ ht
      refine (h.taking .data nofun).congr ?_ ?_ ?_
      · exact (eof_bufferData _ _).2.1
      · exact (eof_bufferData _ _).1
      · exact (eof_bufferData _ _).2.2.2.1
  | forwarded he _ =>
      have hk := (kind_of_forwarded he).1
      refine EndArmed.relisten hk ?_
      exact EndArmed.keptInside.publish acts_any (h.taking _ hk)
  | ended _ => exact nofun
  | endedAgain hc hnil =>
      intro _ he
      have htaken := h hc he
      rw [hnil] at htaken
      cases htaken
  | closed hc =>
      exact EndArmed.keptInside.publish acts_any
        (h.taking .close nofun)
  | closedAgain _ => exact h.taking .close nofun
  | transfer ht =>
      exact EndArmed.keptInside.transfer acts_any
        ⟨fun _ _ _ _ _ _ => trivial, fun _ _ => trivial⟩ h ht
  | call => exact h.call _

/-- Where no end was received, none was published and `eof` is unset. -/
structure Unended (w : Observed) : Prop where
  eof : w.sock.eof = true → .ended ∈ w.owner
  published : .published .endEvent ∈ w.owner → .ended ∈ w.owner

theorem mem_snoc_of_ne {notes : List Note} {n m : Note} (h : m ≠ n) :
    m ∈ notes ++ [n] ↔ m ∈ notes := by
  simp [h]

theorem Unended.kept : Kept (fun _ => True) Unended where
  call := fun c w _ h => by
    have hlevel := level_call c w.sock
    simp only [level, Prod.mk.injEq] at hlevel
    refine ⟨fun he => ?_, fun hp => ?_⟩
    · exact List.mem_append_left _ (h.eof (hlevel.2.1.symm.trans he))
    · exact List.mem_append_left _
        (h.published ((mem_snoc_of_ne (by simp)).mp hp))
  deliver := fun _ _ _ _ h _ _ =>
    ⟨fun he => List.mem_append_left _ (h.eof he), fun hp =>
      List.mem_append_left _
        (h.published ((mem_snoc_of_ne (by simp)).mp hp))⟩
  finish := fun _ h he _ =>
    ⟨fun _ => List.mem_append_left _ (h.eof he),
      fun _ => List.mem_append_left _ (h.eof he)⟩
  resume := fun _ h _ _ => ⟨h.eof, h.published⟩
  receive := fun data w h _ =>
    ⟨fun he => List.mem_append_left _
        (h.eof ((eof_bufferData data w.sock).1.symm.trans he)),
      fun hp => List.mem_append_left _
        (h.published ((mem_snoc_of_ne (by simp)).mp hp))⟩
  ended := fun _ _ =>
    ⟨fun _ => List.mem_append_right _ (List.mem_singleton_self _),
      fun _ => List.mem_append_right _ (List.mem_singleton_self _)⟩
  endedAgain := fun _ _ =>
    ⟨fun _ => List.mem_append_right _ (List.mem_singleton_self _),
      fun _ => List.mem_append_right _ (List.mem_singleton_self _)⟩
  forward := fun event _ h _ hne =>
    ⟨fun he => List.mem_append_left _ (h.eof he), fun hp =>
      List.mem_append_left _ (h.published ((mem_snoc_of_ne (by
        simpa using hne.symm)).mp hp))⟩
  listen := fun _ _ h => ⟨h.eof, h.published⟩

/-- A socket on which data flows: open, not stopped, and without an end so far,
whatever happened to it before. -/
def Flows (w : Observed) : Prop :=
  (∃ conn bufferMaxLength hist, Runs (created conn bufferMaxLength) hist w) ∧
    .ended ∉ w.owner ∧ w.sock.closed = false ∧ w.sock.stopped = false

/-! ## The invariant -/

/-- What holds at every moment of the flow, also inside a transfer. -/
structure Passing (w : Observed) : Prop where
  faithful : Faithful w
  opened : w.sock.closed = false
  eof : w.sock.eof = true ↔ .ended ∈ w.owner
  unpublished : .published .endEvent ∉ w.owner → w.sock.stopped = false
  published : .published .endEvent ∈ w.owner →
    w.sock.eof = true ∧ w.sock.stopped = true
  after : ∀ before rest,
    w.owner = before ++ .published .endEvent :: rest →
    publishedBytes before = receivedBytes before
  once : w.owner.count (.published .endEvent) ≤ 1

/-- What holds between the moves of an event: an end that is still to be passed
on has bytes before it. -/
def EndBehindBytes (w : Observed) : Prop :=
  .published .endEvent ∉ w.owner → w.sock.eof = true → 0 < w.sock.bufferUsed

/-- A note that stands in a longer list of notes is the last one or stood there
before. -/
theorem split_snoc {notes before rest : List Note} {n m : Note}
    (h : notes ++ [n] = before ++ m :: rest) :
    (n = m ∧ notes = before) ∨ ∃ rest', notes = before ++ m :: rest' := by
  rcases List.eq_nil_or_concat' rest with rfl | ⟨rest', r, rfl⟩
  · obtain ⟨hb, hn⟩ := List.append_inj' h rfl
    exact .inl ⟨by simpa using hn, hb⟩
  · rw [← List.cons_append, ← List.append_assoc] at h
    exact .inr ⟨rest', (List.append_inj' h rfl).1⟩

/-- A note of anything but the end, on a socket with the same flags. -/
theorem Passing.congr {w w' : Observed} {n : Note} (h : Passing w)
    (hf : Faithful w') (howner : w'.owner = w.owner ++ [n])
    (hn : n ≠ .published .endEvent) (hn' : n ≠ .ended)
    (hc : w'.sock.closed = w.sock.closed) (he : w'.sock.eof = w.sock.eof)
    (hs : w'.sock.stopped = w.sock.stopped) : Passing w' where
  faithful := hf
  opened := hc.trans h.opened
  eof := by rw [he, howner, mem_snoc_of_ne hn'.symm]; exact h.eof
  unpublished := by
    rw [hs, howner, mem_snoc_of_ne hn.symm]; exact h.unpublished
  published := by
    rw [he, hs, howner, mem_snoc_of_ne hn.symm]; exact h.published
  after := by
    intro before rest hsplit
    rw [howner] at hsplit
    rcases split_snoc hsplit with ⟨rfl, -⟩ | ⟨rest', hrest⟩
    · exact absurd rfl hn
    · exact h.after before rest' hrest
  once := by
    rw [howner, List.count_append, List.count_singleton,
      beq_eq_false_iff_ne.mpr hn]
    exact h.once

theorem stopped_call_of_calm {c : Call} {s : TCPSocketBandwidth}
    (hc : Calm c) : (call c s).stopped = s.stopped ∧
      (call c s).closed = s.closed := by
  cases c with
  | connect ip port => exact ⟨rfl, rfl⟩
  | connect6 ip port => exact ⟨rfl, rfl⟩
  | write data => exact ⟨rfl, rfl⟩
  | shutdown => exact ⟨rfl, rfl⟩
  | read => exact absurd rfl hc.1
  | stop => exact absurd rfl hc.2.1
  | close => exact absurd rfl hc.2.2

theorem Passing.finish {w : Observed} (h : Passing w)
    (hs : w.sock.stopped = false) (he : w.sock.eof = true)
    (hu : w.sock.bufferUsed = 0) :
    Passing (note (.published .endEvent) { w with sock.stopped := true }) := by
  have hnot : .published .endEvent ∉ w.owner := by
    intro hp
    exact absurd (hs.symm.trans (h.published hp).2) Bool.false_ne_true
  refine ⟨Faithful.kept.finish w h.faithful he hu, h.opened, ?_, ?_, ?_, ?_, ?_⟩
  · rw [note, mem_snoc_of_ne (by simp)]
    exact h.eof
  · exact fun hp => absurd (List.mem_append_right _
      (List.mem_singleton_self _)) hp
  · exact fun _ => ⟨he, rfl⟩
  · intro before rest hsplit
    rcases split_snoc hsplit with ⟨-, hb⟩ | ⟨rest', hb⟩
    · have hempty : unread w.sock.buffer = [] := by
        rw [← List.length_eq_zero_iff, ← h.faithful.used, hu]
      have hbytes := h.faithful.bytes
      rw [hempty, List.append_nil] at hbytes
      exact hb ▸ hbytes.symm
    · exact h.after before rest' hb
  · simp only [note, List.count_append, List.count_singleton_self]
    exact Nat.le_of_eq (congrArg (· + 1) (List.count_eq_zero.mpr hnot))

theorem Passing.call {w : Observed} {c : Call} (h : Passing w) (hc : Calm c) :
    Passing (doCall c w) := by
  have hlevel := level_call c w.sock
  simp only [level, Prod.mk.injEq] at hlevel
  obtain ⟨hs, hcl⟩ := stopped_call_of_calm (s := w.sock) hc
  exact h.congr (Faithful.kept.call c w trivial h.faithful) rfl (by simp)
    (by simp) hcl hlevel.2.1 hs

/-- A handler that makes calm calls. -/
theorem Passing.publish {w : Observed} {react : React} {event : SocketEvent}
    (hQ : Acts Calm react) (h : Passing (note (.published event) w)) :
    Passing (publish react event w) ∧
      (publish react event w).sock.stopped = w.sock.stopped := by
  rw [publish_eq]
  refine foldl_doCall_inv (Q := Calm)
    (I := fun w' => Passing w' ∧ w'.sock.stopped = w.sock.stopped)
    ?_ (hQ w event) ⟨h, rfl⟩
  rintro c w' hc ⟨hw', hs⟩
  exact ⟨hw'.call hc, (stopped_call_of_calm (s := w'.sock) hc).1.trans hs⟩

theorem Passing.transfer {w w' : Observed} {react : React} {n : Nat}
    (hQ : Acts Calm react) (h : Passing w) (hset : EndBehindBytes w)
    (ht : TCPSocketBandwidth.transfer (TCPSocketBandwidth.publish react) n w =
      some w') : Passing w' ∧ EndBehindBytes w' := by
  rcases transfer_cases ht with ⟨-, rfl⟩ | ⟨hs, -, data, buffer, hpop, rfl⟩
  · exact ⟨h, hset⟩
  have hdeliver : Passing (delivered n data buffer w) :=
    h.congr (h.faithful.deliver hpop) rfl (by simp) (by simp) rfl rfl rfl
  obtain ⟨hdata, hsame⟩ := Passing.publish hQ hdeliver
  have hrun : (TCPSocketBandwidth.publish react (.dataEvent data)
      (popped n buffer w)).sock.stopped = false := hsame.trans hs
  rcases afterData_cases (TCPSocketBandwidth.publish react)
      (TCPSocketBandwidth.publish react (.dataEvent data)
        (popped n buffer w)) with
    ⟨he, hu, heq⟩ | ⟨hres, heq⟩ | ⟨hnot, -, heq⟩
  · rw [heq]
    have hend := (Passing.publish hQ (hdata.finish hrun he hu)).1
    refine ⟨hend, fun hp => absurd ?_ hp⟩
    rw [publish_eq, owner_foldl_doCall]
    exact List.mem_append_left _ (List.mem_append_right _
      (List.mem_singleton_self _))
  · rw [heq]
    refine ⟨⟨⟨hdata.faithful.bytes, hdata.faithful.used⟩, hdata.opened,
      hdata.eof, hdata.unpublished, hdata.published, hdata.after, hdata.once⟩,
      fun _ he => ?_⟩
    exact Nat.pos_of_ne_zero fun hz => hres.1 ⟨he, hz⟩
  · rw [heq]
    exact ⟨hdata, fun _ he => Nat.pos_of_ne_zero fun hz => hnot ⟨he, hz⟩⟩

theorem Passing.transfers {react : React} (hQ : Acts Calm react)
    {lengths : List Nat} {w w' : Observed} (h : Passing w)
    (hset : EndBehindBytes w) (ht : transfers react lengths w = some w') :
    Passing w' ∧ EndBehindBytes w' :=
  Lib.foldlM_keeps (I := fun _ w => Passing w ∧ EndBehindBytes w)
    (fun h h₁ => h.1.transfer hQ h.2 h₁) ⟨h, hset⟩ ht

/-- What concerns only the listeners of the inner socket. -/
theorem Passing.listen {w : Observed} (h : Passing w)
    (listeners : List InnerListener) :
    Passing { w with sock.socket.listeners := listeners } :=
  ⟨⟨h.faithful.bytes, h.faithful.used⟩, h.opened, h.eof, h.unpublished,
    h.published, h.after, h.once⟩

theorem Passing.relisten {l : InnerListener} {w : Observed}
    (h : Passing w ∧ EndBehindBytes w) :
    Passing (relisten l w) ∧ EndBehindBytes (relisten l w) := by
  unfold TCPSocketBandwidth.relisten
  split
  · exact ⟨h.1.listen _, h.2⟩
  · exact h

theorem Passing.ended {w : Observed} (h : Passing w) :
    Passing (note .ended { w with sock.eof := true }) := by
  refine ⟨Faithful.kept.ended w h.faithful, h.opened, ?_, ?_, ?_, ?_, ?_⟩
  · exact iff_of_true rfl (List.mem_append_right _ (List.mem_singleton_self _))
  · rw [note, mem_snoc_of_ne (by simp)]
    exact h.unpublished
  · rw [note, mem_snoc_of_ne (by simp)]
    exact fun hp => ⟨rfl, (h.published hp).2⟩
  · intro before rest hsplit
    rcases split_snoc hsplit with ⟨hn, -⟩ | ⟨rest', hb⟩
    · cases hn
    · exact h.after before rest' hb
  · simp only [note, List.count_append]
    exact h.once

section

variable {w w' : Observed} {react : React}

/-- Data of the inner socket. -/
theorem Passing.received (hQ : Acts Calm react) (h : Passing w)
    (hset : EndBehindBytes w) {segment : Bytes} {sync : List Nat}
    (ht : TCPSocketBandwidth.transfers react sync
      (Event.transfersFrom w (.data segment sync)).2 = some w') :
    Passing w' ∧ EndBehindBytes w' := by
  refine Passing.transfers hQ ?_ ?_ ht
  · have htaking := h.listen
      (Emitter.clearKind .data w.sock.socket.listeners)
    obtain ⟨he, hcl, hst, -, -⟩ := eof_bufferData segment { w.sock with
      socket.listeners := Emitter.clearKind .data w.sock.socket.listeners }
    have hreceive := htaking.faithful.receive segment
    exact htaking.congr hreceive rfl (by simp) (by simp) hcl he hst
  · intro hp he
    simp only [Event.transfersFrom, note] at hp he ⊢
    rw [mem_snoc_of_ne (by simp)] at hp
    rw [(eof_bufferData _ _).1] at he
    rw [(eof_bufferData _ _).2.2.2.2]
    exact Nat.lt_of_lt_of_le (hset hp he) (Nat.le_add_right _ _)

/-- An event that is passed on as it is. -/
theorem Passing.forwarded (hQ : Acts Calm react) (h : Passing w)
    (hset : EndBehindBytes w) {e : Event} {event : SocketEvent}
    (he : e.forwarded = some event) :
    Passing
        (TCPSocketBandwidth.publish react event (taking event.kind w)) ∧
      EndBehindBytes
        (TCPSocketBandwidth.publish react event (taking event.kind w)) := by
  obtain ⟨-, hne, hdata⟩ := kind_of_forwarded he
  have hnote : Passing (note (.published event) (taking event.kind w)) :=
    (h.listen _).congr (Faithful.kept.forward _ _ (h.listen _).faithful
      hdata hne) rfl (by simpa using hne) (by simp) rfl rfl rfl
  refine ⟨(Passing.publish hQ hnote).1, ?_⟩
  have hlevel := level_publish react event (taking event.kind w)
  simp only [level, Prod.mk.injEq] at hlevel
  intro hp he'
  rw [hlevel.2.2.1]
  rw [hlevel.2.1] at he'
  refine hset (fun hmem => hp ?_) he'
  rw [publish_eq, owner_foldl_doCall]
  exact List.mem_append_left _ (List.mem_append_left _ hmem)

/-- The end of the stream, with something left in the queue. -/
theorem Passing.endedBuffered (h : Passing w) (hset : EndBehindBytes w)
    (hC : EndsBuffered w (.ended, react)) :
    Passing (note .ended (taking .endOfStream { w with sock.eof := true })) ∧
      EndBehindBytes
        (note .ended (taking .endOfStream { w with sock.eof := true })) := by
  refine ⟨(h.listen _).ended, fun hp _ => ?_⟩
  simp only [note, taking] at hp
  rw [mem_snoc_of_ne (by simp)] at hp
  by_cases hend : .ended ∈ w.owner
  · exact hset hp (h.eof.mpr hend)
  · exact hC rfl hend

/-- A second end has been seen before. -/
theorem Passing.endedAgain (h : Passing w) (hset : EndBehindBytes w)
    (heof : w.sock.eof = true) :
    Passing (note .ended (taking .endOfStream w)) ∧
      EndBehindBytes (note .ended (taking .endOfStream w)) := by
  have hsame : { w with sock.eof := true } = w := by
    rw [← heof]
  refine ⟨?_, fun hp _ => ?_⟩
  · have hend := h.ended
    rw [hsame] at hend
    exact hend.listen _
  · simp only [note, taking] at hp
    rw [mem_snoc_of_ne (by simp)] at hp
    exact hset hp heof

/-- A call of the owner between events. -/
theorem Passing.called {c : Call} (hc : Calm c) (h : Passing w)
    (hset : EndBehindBytes w) :
    Passing (doCall c w) ∧ EndBehindBytes (doCall c w) := by
  have hlevel := level_call c w.sock
  simp only [level, Prod.mk.injEq] at hlevel
  refine ⟨h.call hc, fun hp he => ?_⟩
  simp only [doCall, note] at hp he ⊢
  rw [mem_snoc_of_ne (by simp)] at hp
  rw [hlevel.2.1] at he
  rw [hlevel.2.2.1]
  exact hset hp he

/-- One event keeps the invariant, unless it is an end that finds the queue
empty. -/
theorem Passing.steps {e : Event} (hF : Flowing (e, react))
    (hC : EndsBuffered w (e, react)) (h : Passing w) (hset : EndBehindBytes w)
    (hA : EndArmed w.sock) (hs : Steps react w e w') :
    Passing w' ∧ EndBehindBytes w' := by
  obtain ⟨hcalm, hQ⟩ := hF
  cases hs with
  | data _ ht => exact Passing.relisten (h.received hQ hset ht)
  | forwarded he _ => exact Passing.relisten (h.forwarded hQ hset he)
  | ended _ => exact h.endedBuffered hset hC
  | endedAgain hc hnil =>
      refine h.endedAgain hset ?_
      by_contra he
      have htaken := hA hc (by simpa using he)
      rw [hnil] at htaken
      cases htaken
  | closed hc => exact absurd (hc.symm.trans h.opened) (by simp)
  | closedAgain hc => exact absurd (hc.symm.trans h.opened) (by simp)
  | transfer ht => exact h.transfer hQ hset ht
  | @call c => exact h.called (hcalm c rfl) hset

end

theorem Passing.passedOn {w : Observed} (h : Passing w)
    (hset : EndBehindBytes w) :
    EndPassedOn w := by
  refine ⟨h.after, h.once, fun hend hbytes => ?_⟩
  by_contra hp
  have hpos := hset hp (h.eof.mpr hend)
  have hrest := h.faithful.bytes
  rw [← hbytes, List.self_eq_append_right] at hrest
  rw [h.faithful.used, hrest] at hpos
  exact absurd hpos (by decide)

/-- An end that finds the queue empty is not passed on. -/
theorem Passing.not_passedOn {w w' : Observed} {e : Event} {react : React}
    (h : Passing w) (hC : ¬ EndsBuffered w (e, react))
    (hs : Steps react w e w') : ¬ EndPassedOn w' := by
  simp only [EndsBuffered, not_forall] at hC
  obtain ⟨rfl, hend, hused⟩ := hC
  have hempty : unread w.sock.buffer = [] := by
    rw [← List.length_eq_zero_iff, ← h.faithful.used]
    omega
  have hbytes := h.faithful.bytes
  rw [hempty, List.append_nil] at hbytes
  have howner : w'.owner = w.owner ++ [.ended] := by
    cases hs with
    | ended _ => rfl
    | endedAgain _ _ => rfl
    | forwarded he _ => cases he
  intro hw'
  have hp := hw'.passed (by rw [howner]; simp) (by
    rw [howner, publishedBytes_snoc, receivedBytes_snoc, hbytes]
    rfl)
  rw [howner, mem_snoc_of_ne (by simp)] at hp
  exact hend (h.eof.mp (h.published hp).1)

theorem Flows.start {w : Observed} (h : Flows w) :
    (Passing w ∧ EndBehindBytes w) ∧ EndArmed w.sock ∧ Armed none w.sock := by
  obtain ⟨⟨conn, bufferMaxLength, hist, hr⟩, hend, hopen, hrun⟩ := h
  have hA := (Faithful.run hr).2
  have hU : Unended w := (Unended.kept.run hr (fun _ _ => atResume_trivial)
    ((Armed.create conn).congr rfl rfl rfl) ⟨nofun, nofun⟩).1
  have hE : EndArmed w.sock ∧ Armed none w.sock :=
    hr.invariant' (fun w => EndArmed w.sock ∧ Armed none w.sock)
      ⟨fun _ _ => rfl, (Armed.create conn).congr rfl rfl rfl⟩
      fun _ _ _ hI hs =>
        ⟨hI.1.steps (step_cases hI.2 hs), hI.2.steps (step_cases hI.2 hs)⟩
  have hnp : .published .endEvent ∉ w.owner := fun hp => hend (hU.published hp)
  refine ⟨⟨⟨(Faithful.run hr).1, hopen, ⟨hU.eof, fun he => absurd he hend⟩,
    fun _ => hrun, fun hp => absurd hp hnp, ?_, ?_⟩,
    fun _ he => absurd (hU.eof he) hend⟩, hE⟩
  · intro before rest hsplit
    refine absurd ?_ hnp
    rw [hsplit]
    exact List.mem_append_right _ List.mem_cons_self
  · rw [List.count_eq_zero.mpr hnp]
    exact Nat.zero_le 1

theorem Passing.run {w₀ w : Observed}
    {hist : List (Observed × (Event × React))} (h₀ : Flows w₀)
    (hr : Run FlowStep w₀ hist w) (hC : Meets EndsBuffered hist) :
    (Passing w ∧ EndBehindBytes w) ∧ EndArmed w.sock ∧ Armed none w.sock := by
  refine hr.invariant (fun w => (Passing w ∧ EndBehindBytes w) ∧
    EndArmed w.sock ∧ Armed none w.sock) hC h₀.start ?_
  rintro w₁ e w₂ ⟨⟨h, hset⟩, hE, hA⟩ he ⟨hs, hF⟩
  have hsteps := step_cases hA hs
  exact ⟨h.steps hF he hset hE hsteps, hE.steps hsteps, hA.steps hsteps⟩

/-- In every interleaving of data, the end of the stream and transfers on an
open socket that is not stopped, the end is passed on in every state between
events exactly when it does not arrive at an empty queue. -/
theorem end_passedOn_iff {w₀ w : Observed}
    {hist : List (Observed × (Event × React))} (h₀ : Flows w₀)
    (hr : Run FlowStep w₀ hist w) :
    (∀ x, Passes hist w x → EndPassedOn x) ↔ Meets EndsBuffered hist :=
  hr.always_iff
    (fun hr' hC => by
      obtain ⟨⟨h, hset⟩, -, -⟩ := Passing.run h₀ hr' hC
      exact h.passedOn hset)
    fun hr' hC hs he => by
      obtain ⟨⟨h, -⟩, -, hA⟩ := Passing.run h₀ hr' hC
      exact h.not_passedOn he (step_cases hA hs.1)

theorem acts_quietOwner {Q : Call → Prop} : Acts Q quietOwner :=
  fun _ _ _ hc => absurd hc List.not_mem_nil

theorem flowing_of_not_call {e : Event} (h : ∀ c, e ≠ .call c) :
    Flowing (e, quietOwner) :=
  ⟨fun c hc => absurd hc (h c), acts_quietOwner⟩

/-- A socket that has just been asked to read. -/
def startedReading : Observed := doCall .read (created 0 4)

theorem flows_startedReading : Flows startedReading := by
  have hr : Runs (created 0 4)
      ([] ++ [(created 0 4, (.call .read, quietOwner))]) startedReading :=
    Run.nil.snoc rfl
  exact ⟨⟨0, 4, _, hr⟩, by decide, rfl, rfl⟩

/-- A stream whose last byte is out when its end arrives. -/
def emptiedEvents : List (Event × React) :=
  [(.data [1] [], quietOwner), (.transfer 1, quietOwner), (.ended, quietOwner)]

/-- The end of such a stream is lost: all bytes are published, the end was
received, and it is not published. -/
theorem end_lost :
    ¬ ∀ w₀ hist w, Flows w₀ → Run FlowStep w₀ hist w →
      ∀ x, Passes hist w x → EndPassedOn x := by
  intro hall
  obtain ⟨hist, w, hexec, howner⟩ : ∃ hist w,
      exec step startedReading emptiedEvents = some (hist, w) ∧
        w.owner = [.called .read, .received [1], .published (.dataEvent [1]),
          .ended] :=
    ⟨_, _, rfl, rfl⟩
  have hF : Meets (fun _ e => Flowing e) hist := by
    refine meets_of_forall hexec fun e hmem => ?_
    simp only [emptiedEvents, List.mem_cons, List.not_mem_nil, or_false]
      at hmem
    rcases hmem with rfl | rfl | rfl <;> exact flowing_of_not_call nofun
  have hend := hall startedReading hist w flows_startedReading
    ((run_of_exec hexec).restrict hF) w .last
  exact absurd (hend.passed (by rw [howner]; decide) (by rw [howner]; decide))
    (by rw [howner]; decide)

/-- An end that arrives while a byte is still in the queue is passed on by the
transfer that takes it out. -/
theorem end_passedOn_behind : ∃ hist w,
    Run FlowStep startedReading hist w ∧
      .published .endEvent ∈ w.owner ∧
      ∀ x, Passes hist w x → EndPassedOn x := by
  obtain ⟨hist, w, hexec, hend⟩ : ∃ hist w,
      exec step startedReading [(.data [1] [], quietOwner),
        (.ended, quietOwner), (.transfer 1, quietOwner)] = some (hist, w) ∧
        .published .endEvent ∈ w.owner :=
    ⟨_, _, rfl, by decide⟩
  have hF : Meets (fun _ e => Flowing e) hist := by
    refine meets_of_forall hexec fun e hmem => ?_
    simp only [List.mem_cons, List.not_mem_nil, or_false] at hmem
    rcases hmem with rfl | rfl | rfl <;> exact flowing_of_not_call nofun
  have hr : Run FlowStep startedReading hist w :=
    (run_of_exec hexec).restrict hF
  refine ⟨hist, w, hr, hend,
    (end_passedOn_iff flows_startedReading hr).mpr
      (meets_of_along hexec ?_)⟩
  refine ⟨nofun, fun t ht => ⟨fun _ _ => ?_, fun u hu => ⟨nofun, fun _ _ =>
    trivial⟩⟩⟩
  cases ht
  decide

end TCPSocketBandwidth

end EcwidDownloader
