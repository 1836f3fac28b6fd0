import Mathlib.Algebra.BigOperators.Group.List.Basic
import Mathlib.Algebra.GroupWithZero.Nat
import EcwidDownloader.Proofs.WakeUp

/-!
# Work conservation

The controller charges its budget with what it asks for. A stopped socket gives
nothing, and its share is lost to the others. As long as no stream is asked that
is stopped, what is charged is what is delivered: then the rounds of a tick end
with the budget delivered or with nobody left who has data. Where somebody is
left, and the counter has not wrapped, a single call to a stopped stream is what
is missing from the budget.

So the condition is about the calls of the tick, `AllRunning`: none of them is
made to a stopped stream. The handlers that run inside the tick may do anything.
-/

namespace EcwidDownloader

open Lib ControllerSimple
open TCPSocketBandwidth (Call)

namespace ThrottledStreams

/-- The bytes in the queues of all sockets. They only leave a queue in a
`DataEvent`. -/
def buffered (h : Hosted Net) : Nat :=
  (h.world.socks.map fun s => s.tcp.bufferUsed).sum

/-- A tick with the budget `total` delivers it, or leaves no stream awake. -/
def WorkConserving (total : Nat) (h h' : Hosted Net) : Prop :=
  buffered h' + total ≤ buffered h ∨ ∀ stream, ¬ Awake h' stream

/-- The states in which `transfer` begins: the timer has fired, or a socket has
put a segment into its queue. -/
inductive Finds (h : Hosted Net) : Hosted Net → Prop
  | tick : Finds h { h with ctl.timer := {} }
  | data (stream : Nat) (segment : Bytes)
      (listeners : TCPSocketBandwidth → List InnerListener) :
      Finds h (edit stream (fun tcp =>
        TCPSocketBandwidth.bufferData segment (setListeners listeners tcp)) h)

/-- No stream is stopped when the controller asks it. It asks streams that hold
data only. -/
def AllRunning (l : List (Ask Net)) : Prop :=
  ∀ a ∈ l, (tcpOf a.stream a.host).stopped = false

instance (l : List (Ask Net)) : Decidable (AllRunning l) :=
  inferInstanceAs (Decidable (∀ a ∈ l, _))

/-- The bytes of the calls to streams that are not stopped. -/
def delivered (l : List (Ask Net)) : Nat :=
  (l.map fun a =>
    if (tcpOf a.stream a.host).stopped then 0 else a.length).sum

/-- A stream that is there, open and holds data. -/
def Laden (h : Hosted Net) (stream : Nat) : Prop :=
  ∃ s, h.world.socks[stream]? = some s ∧ s.alive = true ∧
    s.tcp.closed = false ∧ 0 < s.tcp.bufferUsed

theorem Awake.laden {h : Hosted Net} {i : Nat} (ha : Awake h i) :
    Laden h i := by
  obtain ⟨s, hs, halive, hclosed, -, hused⟩ := ha
  exact ⟨s, hs, halive, hclosed, hused⟩

/-! ## Changes of one socket -/

section

variable {h : Hosted Net} {i n : Nat} {s : Sock}
  {f : TCPSocketBandwidth → TCPSocketBandwidth}

theorem sum_modify {l : List Sock} (hs : l[i]? = some s)
    (hf : (f s.tcp).bufferUsed + n = s.tcp.bufferUsed) :
    ((l.modify i fun s => { s with tcp := f s.tcp }).map
        fun s => s.tcp.bufferUsed).sum + n =
      (l.map fun s => s.tcp.bufferUsed).sum := by
  induction l generalizing i with
  | nil => simp at hs
  | cons a l ih =>
      cases i with
      | zero =>
          simp only [List.getElem?_cons_zero, Option.some.injEq] at hs
          subst hs
          simp only [List.modify_zero_cons, List.map_cons, List.sum_cons]
          omega
      | succ i =>
          simp only [List.getElem?_cons_succ] at hs
          have hrest := ih hs
          simp only [List.modify_succ_cons, List.map_cons, List.sum_cons]
          omega

theorem buffered_edit (hs : h.world.socks[i]? = some s)
    (hf : (f s.tcp).bufferUsed + n = s.tcp.bufferUsed) :
    buffered (edit i f h) + n = buffered h :=
  sum_modify hs hf

/-- A change that keeps the level of a queue. -/
theorem buffered_edit_same (hf : ∀ tcp, (f tcp).bufferUsed = tcp.bufferUsed) :
    buffered (edit i f h) = buffered h := by
  cases hs : h.world.socks[i]? with
  | some s => simpa using buffered_edit (n := 0) hs (hf s.tcp)
  | none =>
      have hsame : edit i f h = h :=
        edit_eq_self fun s hs' => by simp [hs] at hs'
      rw [hsame]

/-- A change that opens nothing and fills nothing. -/
theorem Laden.of_edit {j : Nat}
    (hf : ∀ tcp, (f tcp).closed = false → tcp.closed = false)
    (hu : ∀ tcp, (f tcp).bufferUsed ≤ tcp.bufferUsed)
    (hl : Laden (ThrottledStreams.edit i f h) j) : Laden h j := by
  obtain ⟨s, hs, halive, hclosed, hused⟩ := hl
  rcases edit_cases hs with ⟨s₀, rfl, hs₀, rfl⟩ | ⟨-, hs⟩
  · have hle := hu s₀.tcp
    dsimp only at hused
    exact ⟨s₀, hs₀, halive, hf s₀.tcp hclosed, by omega⟩
  · exact ⟨s, hs, halive, hclosed, hused⟩

end

/-! ## Handlers -/

section

variable {h : Hosted Net} {react : React} {i : Nat} {event : SocketEvent}

theorem buffered_act (h : Hosted Net) (a : Act) :
    buffered (act h a) = buffered h := by
  cases a with
  | create =>
      change buffered (createSock h) = buffered h
      simp [createSock_eq, buffered, freshSock, TCPSocketBandwidth.create,
        TCPSocketBandwidth.setBuffer]
  | call i c =>
      by_cases hl : ops.lock i h.world = true
      · rw [act_call hl]
        have hedit := buffered_edit_same (h := leave i c h) (i := i)
          (used_call c)
        simp only [buffered] at hedit ⊢
        rw [hedit, (sheduled_leave i c h).2.2]
      · rw [act_call_gone hl]

theorem buffered_handle :
    buffered (handle react i event h) = buffered h :=
  handle_inv (I := fun h' => buffered h' = buffered h)
    (fun h₁ a hb => (buffered_act h₁ a).trans hb) rfl

/-- No call of an owner puts data into a queue or opens a socket again. -/
theorem Laden.of_act {j : Nat} {a : Act} (hl : Laden (act h a) j) :
    Laden h j := by
  cases a with
  | create =>
      change Laden (createSock h) j at hl
      rw [createSock_eq] at hl
      obtain ⟨s, hs, halive, hclosed, hused⟩ := hl
      simp only [List.getElem?_append] at hs
      split at hs
      · exact ⟨s, hs, halive, hclosed, hused⟩
      · rw [List.getElem?_singleton] at hs
        split at hs
        · cases hs
          simp [freshSock, TCPSocketBandwidth.create,
            TCPSocketBandwidth.setBuffer] at hused
        · cases hs
  | call i c =>
      by_cases hlock : ops.lock i h.world = true
      · rw [act_call hlock] at hl
        have hedit : Laden (ThrottledStreams.edit i
            (TCPSocketBandwidth.call c) (leave i c h)) j := hl
        have hleave := hedit.of_edit
          (fun tcp hc => by
            rw [(flags_call c tcp).1] at hc
            split at hc
            · cases hc
            · exact hc)
          (fun tcp => Nat.le_of_eq (used_call c tcp))
        unfold Laden at hleave ⊢
        rw [(sheduled_leave i c h).2.2] at hleave
        exact hleave
      · rw [act_call_gone hlock] at hl
        exact hl

theorem Laden.of_handle {j : Nat} (hl : Laden (handle react i event h) j) :
    Laden h j :=
  handle_inv (I := fun h' => Laden h' j → Laden h j)
    (fun _ _ hback hl => hback hl.of_act) id hl

end

/-! ## A transfer -/

section

variable {h : Hosted Net} {react : React} {i n : Nat}

theorem Wired.transferTo (hw : Wired h) (ht : transferTo react i n h = some h') :
    Wired h' := by
  obtain ⟨w, htw, rfl⟩ := Option.map_eq_some_iff.mp ht
  have hserve : Wired (serve (some i) h) := hw.congr rfl rfl rfl
  have hput : Wired (putSock i w) := by
    rcases transfer_put htw with
      ⟨-, heq⟩ | ⟨data, buffer, h₂, -, rfl, hcases⟩
    · rw [heq]
      exact hserve
    · have hpopped : Wired (ThrottledStreams.edit i (popTcp n buffer)
          (serve (some i) h)) := hserve.edit fun _ => ⟨rfl, rfl⟩
      have hdata : Wired (ThrottledStreams.handle react i (.dataEvent data)
          (ThrottledStreams.edit i (popTcp n buffer) (serve (some i) h))) :=
        hpopped.handle
      rcases hcases with ⟨-, heq⟩ | heq | heq
      · have hhalt : Wired (ThrottledStreams.edit i haltTcp
            (ThrottledStreams.handle react i (.dataEvent data)
              (ThrottledStreams.edit i (popTcp n buffer)
                (serve (some i) h)))) := hdata.edit fun _ => ⟨rfl, rfl⟩
        rw [heq]
        exact hhalt.handle
      · rw [heq]
        exact hdata.edit fun _ => ⟨rfl, rfl⟩
      · rw [heq]
        exact hdata
  exact hput.congr rfl rfl rfl

/-- A part of a transfer that moves no data. -/
structure Steady (h h' : Hosted Net) : Prop where
  buffered : ThrottledStreams.buffered h' = ThrottledStreams.buffered h
  laden : ∀ j, Laden h' j → Laden h j

theorem buffered_popped {s : Sock} {buffer : List DataChunk} {data : Bytes}
    (hs : h.world.socks[i]? = some s) (hle : n ≤ s.tcp.bufferUsed) :
    buffered (handle react i (.dataEvent data) (edit i (popTcp n buffer) h)) +
      n = buffered h := by
  rw [buffered_handle]
  refine buffered_edit hs ?_
  simp only [popTcp]
  omega

theorem Laden.of_popped {s : Sock} {buffer : List DataChunk} {data : Bytes}
    {j : Nat} (hs : h.world.socks[i]? = some s)
    (hl : Laden (handle react i (.dataEvent data)
      (edit i (popTcp n buffer) h)) j) :
    (j ≠ i ∧ Laden h j) ∨ n < s.tcp.bufferUsed := by
  obtain ⟨s₁, hs₁, halive, hclosed, hused⟩ := hl.of_handle
  by_cases hji : j = i
  · subst hji
    rw [edit_self hs] at hs₁
    cases hs₁
    simp only [popTcp] at hused
    exact .inr (by omega)
  · rw [edit_other (Ne.symm hji)] at hs₁
    exact .inl ⟨hji, s₁, hs₁, halive, hclosed, hused⟩

/-- The end of the stream is published when the queue is empty. -/
theorem steady_halted :
    Steady h (handle react i .endEvent (edit i haltTcp h)) := by
  refine ⟨?_, fun j hl => ?_⟩
  · rw [buffered_handle]
    exact buffered_edit_same fun _ => rfl
  · exact Laden.of_edit (f := haltTcp) (fun _ hc => hc)
      (fun _ => Nat.le_refl _) hl.of_handle

theorem steady_resumed : Steady h (edit i resumeTcp h) :=
  ⟨buffered_edit_same fun _ => rfl, fun _ hl =>
    Laden.of_edit (f := resumeTcp) (fun _ hc => hc)
      (fun _ => Nat.le_refl _) hl⟩

/-- A transfer to a stream that is not stopped takes what was asked for, and
nothing but that, out of the queues. -/
theorem transferTo_running {s : Sock} {h' : Hosted Net}
    (hs : h.world.socks[i]? = some s) (hgoing : s.tcp.stopped = false)
    (hn : n ≠ 0) (hle : n ≤ s.tcp.bufferUsed)
    (ht : transferTo react i n h = some h') :
    buffered h' + n = buffered h ∧
      ∀ j, Laden h' j → (j ≠ i ∧ Laden h j) ∨ n < s.tcp.bufferUsed := by
  obtain ⟨w, htw, rfl⟩ := Option.map_eq_some_iff.mp ht
  have hs' : (serve (some i) h).world.socks[i]? = some s := hs
  rcases transfer_put htw with ⟨hidle, -⟩ | ⟨data, buffer, h₂, -, rfl, hcases⟩
  · rw [tcpOf_eq hs', hgoing] at hidle
    simp [hn] at hidle
  have hend : ∀ {h₁ : Hosted Net}, Steady (handle react i (.dataEvent data)
        (edit i (popTcp n buffer) (serve (some i) h))) h₁ →
      buffered (serve none h₁) + n = buffered h ∧
        ∀ j, Laden (serve none h₁) j →
          (j ≠ i ∧ Laden h j) ∨ n < s.tcp.bufferUsed := by
    intro h₁ hsteady
    refine ⟨?_, fun j hl => ?_⟩
    · change buffered h₁ + n = buffered (serve (some i) h)
      rw [hsteady.buffered, buffered_popped hs' hle]
    · exact Laden.of_popped (h := serve (some i) h) hs' (hsteady.laden j hl)
  rcases hcases with ⟨-, heq⟩ | heq | heq
  · rw [heq]
    exact hend steady_halted
  · rw [heq]
    exact hend steady_resumed
  · rw [heq]
    exact hend ⟨rfl, fun _ hl => hl⟩

/-- A transfer to a stopped stream does nothing. -/
theorem transferTo_stopped {h' : Hosted Net}
    (hstopped : (tcpOf i h).stopped = true)
    (ht : transferTo react i n h = some h') : h' = serve none h := by
  have htake : (takeSock i (serve (some i) h)).sock.stopped = true := hstopped
  unfold transferTo TCPSocketBandwidth.transfer at ht
  rw [htake] at ht
  simp only [Bool.true_or, if_true, Option.map_some, Option.some.injEq] at ht
  rw [← ht, putSock_takeSock]
  rfl

/-! ## The loops -/

theorem Wired.turn {h' : Hosted Net} {stream total : Nat} (hw : Wired h)
    (ht : (streams react).transfer stream n
      { h with ctl := record ⟨total, n⟩ h.ctl } = some h') : Wired h' :=
  (hw.handed ⟨total, n⟩).transferTo ht

/-- The turn of the loop at a stream that is there. -/
theorem turn_delivers {h' : Hosted Net} {node : Node} {stream total : Nat}
    (hl : ControllerSimple.lock (streams react) node h = some stream)
    (hn : n ≠ 0) (hle : n ≤ (streams react).available stream h.world)
    (ht : (streams react).transfer stream n
      { h with ctl := record ⟨total, n⟩ h.ctl } = some h') :
    (buffered h' + if (tcpOf stream h).stopped then 0 else n) = buffered h ∧
      ((tcpOf stream h).stopped = false → ∀ j, Laden h' j →
        (j ≠ stream ∧ Laden h j) ∨
          n < (streams react).available stream h.world) := by
  obtain ⟨s, hs, -⟩ := lock_iff.mp (Option.filter_eq_some_iff.mp hl).2
  rw [available_eq hs] at hle ⊢
  rw [tcpOf_eq hs]
  cases hst : s.tcp.stopped with
  | false =>
      obtain ⟨hbuffered, hladen⟩ := transferTo_running (h := { h with
        ctl := record ⟨total, n⟩ h.ctl }) hs hst hn hle ht
      exact ⟨hbuffered, fun _ => hladen⟩
  | true =>
      have heq := transferTo_stopped (h := { h with
        ctl := record ⟨total, n⟩ h.ctl }) ((tcpOf_eq hs).symm ▸ hst) ht
      subst heq
      exact ⟨rfl, fun hf => by cases hf⟩

/-- The queues lose what is asked of streams that are not stopped. -/
theorem serves_delivered : Serves (streams react) Wired fun l h h' =>
    buffered h' + delivered l = buffered h ∧ ∀ a ∈ l, a.length ≠ 0 where
  refl := fun h => ⟨rfl, by simp⟩
  trans := by
    rintro l m h₁ h₂ h₃ ⟨hsum, hpos⟩ ⟨hsum', hpos'⟩
    refine ⟨?_, List.forall_mem_append.mpr ⟨hpos, hpos'⟩⟩
    unfold delivered at *
    rw [List.map_append, List.sum_append]
    omega
  erase := fun hw hnode hl => ⟨hw.erase hnode hl, rfl, by simp⟩
  serve := by
    intro h h' node stream total n hw _ hl hn hle ht
    refine ⟨hw.turn ht, ?_, fun a ha => ?_⟩
    · exact (turn_delivers hl hn hle ht).1
    · rw [List.mem_singleton.mp ha]
      exact hn

/-- The calls to streams that are not stopped. -/
abbrev awakeOnly (react : React) : Streams Net :=
  only (fun stream _ h => (tcpOf stream h).stopped = false) (streams react)

/-- Whoever is left with data after such calls was counted as pending. -/
theorem heeds_running : Heeds (awakeOnly react) Wired Laden where
  ordered := fun hw => hw.ordered
  own := fun hw hnode hweak => hw.own _ hnode _ hweak
  node := by
    rintro h i hw ⟨s, hs, halive, hclosed, -⟩
    exact hw.node i s hs halive hclosed
  lock := by
    rintro h i - ⟨s, hs, halive, -⟩
    exact lock_iff.mpr ⟨s, hs, halive⟩
  erase := by
    intro h node hw hnode hl
    have hgone : ControllerSimple.lock (streams react) node h = none := hl
    exact ⟨hw.erase hnode hgone, fun _ hl => hl⟩
  skip := by
    rintro h i - hz ⟨s, hs, -, -, hpos⟩
    change (streams react).available i h.world = 0 at hz
    rw [available_eq hs] at hz
    omega
  serve := by
    intro h h' node stream total n hw _ hl hn hle ht
    obtain ⟨hgoing, ht⟩ := only_transfer.mp ht
    have hthere : ControllerSimple.lock (streams react) node h = some stream :=
      hl
    exact ⟨hw.turn ht, (turn_delivers hthere hn hle ht).2 hgoing⟩

theorem delivered_le (l : List (Ask Net)) : delivered l ≤ asked l := by
  induction l with
  | nil => exact Nat.le_refl _
  | cons a l ih =>
      have hcons : delivered (a :: l) =
          (if (tcpOf a.stream a.host).stopped then 0 else a.length) +
            delivered l := rfl
      rw [hcons, asked_cons]
      split <;> omega

/-- Everything that is asked for is delivered if nobody is stopped, and
only then. -/
theorem delivered_eq_iff {l : List (Ask Net)} (hpos : ∀ a ∈ l, a.length ≠ 0) :
    delivered l = asked l ↔ AllRunning l := by
  induction l with
  | nil => simp [delivered, AllRunning]
  | cons a l ih =>
      have ih := ih fun b hb => hpos b (List.mem_cons_of_mem _ hb)
      have hcons : delivered (a :: l) =
          (if (tcpOf a.stream a.host).stopped then 0 else a.length) +
            delivered l := rfl
      have hle := delivered_le l
      have hne := hpos a List.mem_cons_self
      have hall : AllRunning (a :: l) ↔
          (tcpOf a.stream a.host).stopped = false ∧ AllRunning l :=
        List.forall_mem_cons
      rw [hall, ← ih, hcons, asked_cons]
      cases (tcpOf a.stream a.host).stopped with
      | false => simp
      | true =>
          simp only [if_true]
          constructor
          · intro heq
            omega
          · rintro ⟨hf, -⟩
            cases hf

/-- What a tick does to the queues. -/
theorem transfer_delivers {fuel elapsed : Nat} {h' : Hosted Net}
    (hw : Wired h)
    (ht : ControllerSimple.transfer (streams react) fuel elapsed h =
      some h') :
    buffered h' + delivered (asks (streams react) fuel elapsed h) =
        buffered h ∧
      (∀ a ∈ asks (streams react) fuel elapsed h, a.length ≠ 0) ∧
      ((∃ i, Awake h' i) → AllRunning (asks (streams react) fuel elapsed h) →
        budget elapsed h.ctl ≤ asked (asks (streams react) fuel elapsed h) ∧
          (asked (asks (streams react) fuel elapsed h) < sizeModulus →
            asked (asks (streams react) fuel elapsed h) =
              budget elapsed h.ctl)) := by
  rw [transfer_eq] at ht
  by_cases hempty : h.ctl.streams.length = 0
  · rw [if_pos hempty] at ht
    cases ht
    have hasks : asks (streams react) fuel elapsed h = [] :=
      if_pos (.inl hempty)
    rw [hasks]
    refine ⟨rfl, by simp, ?_⟩
    rintro ⟨i, ha⟩
    have hnode := hw.node_of_awake (h := h) ha
    simp [List.length_eq_zero_iff.mp hempty] at hnode
  · by_cases hzero : budget elapsed h.ctl = 0
    · rw [if_neg hempty, if_pos hzero] at ht
      cases ht
      have hasks : asks (streams react) fuel elapsed h = [] :=
        if_pos (.inr hzero)
      rw [hasks, hzero]
      exact ⟨rfl, by simp, fun _ _ => ⟨Nat.le_refl _, fun _ => rfl⟩⟩
    · rw [if_neg hempty, if_neg hzero] at ht
      obtain ⟨⟨pend, h₁⟩, hrounds, rfl⟩ := Option.map_eq_some_iff.mp ht
      have hasks : asks (streams react) fuel elapsed h =
          roundsAsks (streams react) fuel fuel (budget elapsed h.ctl)
            h.ctl.streams.length (begun elapsed h) :=
        if_neg (by simp [hempty, hzero])
      have hbegun : Wired (begun elapsed h) := hw.congr rfl rfl rfl
      have hlt := budget_lt elapsed h.ctl
      obtain ⟨-, hbuffered, hpos⟩ := serves_delivered.rounds hbegun hrounds
      have hfinish : buffered (finish pend h₁) = buffered h₁ ∧
          ∀ i, Awake (finish pend h₁) i → Awake h₁ i := by
        unfold finish
        split <;> exact ⟨rfl, fun _ ha => ha⟩
      rw [hasks]
      refine ⟨?_, hpos, ?_⟩
      · rw [hfinish.1]
        exact hbuffered
      · rintro ⟨i, ha⟩ hrun
        have honly : rounds (awakeOnly react) fuel fuel (budget elapsed h.ctl)
            h.ctl.streams.length (begun elapsed h) = some (pend, h₁) := by
          rw [awakeOnly, rounds_only fun a ha => hrun a ha]
          exact hrounds
        obtain ⟨-, hladen⟩ := heeds_running.rounds hbegun honly
        have hpend := hladen i (hfinish.2 i ha).laden
        exact rounds_asked hlt hrounds (Nat.ne_of_gt hpend)

end

/-! ## Runs -/

/-- The list of the controller is in order wherever `transfer` begins. -/
theorem Finds.wired {limit : Nat} {h₀ h : Hosted Net}
    {hist : List (Hosted Net × (Event × React))}
    (hr : Run Step (created limit) hist h₀) (hf : Finds h₀ h) : Wired h := by
  have hw : Wired h₀ := (Alert.run hr .last).wired
  cases hf with
  | tick => exact hw.congr rfl rfl rfl
  | data stream segment listeners =>
      exact hw.edit fun tcp => flags_bufferData segment _

/-- A tick in which no stream that is asked is stopped delivers its budget or
leaves nobody awake. And a tick that leaves somebody awake, and in which no call
asks for more than is left of the budget, only delivers it then. -/
theorem work_conserving_iff {limit fuel elapsed : Nat} {react : React}
    {h₀ h h' : Hosted Net} {hist : List (Hosted Net × (Event × React))}
    (hr : Run Step (created limit) hist h₀) (hf : Finds h₀ h)
    (hfit : h.ctl.limit * elapsed < sizeModulus)
    (ht : ControllerSimple.transfer (streams react) fuel elapsed h =
      some h') :
    (AllRunning (asks (streams react) fuel elapsed h) →
        WorkConserving (h.ctl.limit * elapsed / 1000) h h') ∧
      ((∀ a ∈ asks (streams react) fuel elapsed h, a.length ≤ a.total) →
        (∃ stream, Awake h' stream) →
        (WorkConserving (h.ctl.limit * elapsed / 1000) h h' ↔
          AllRunning (asks (streams react) fuel elapsed h))) := by
  have hbudget : budget elapsed h.ctl = h.ctl.limit * elapsed / 1000 := by
    rw [budget, Nat.mod_eq_of_lt hfit]
  obtain ⟨hbuffered, hne, hawake⟩ := transfer_delivers (hf.wired hr) ht
  have hfits := asks_fit ht
  rw [hbudget] at hfits hawake
  have hconserves : AllRunning (asks (streams react) fuel elapsed h) →
      WorkConserving (h.ctl.limit * elapsed / 1000) h h' := by
    intro hrun
    by_cases ha : ∃ i, Awake h' i
    · have hall := (delivered_eq_iff hne).mpr hrun
      obtain ⟨hle, -⟩ := hawake ha hrun
      exact .inl (by omega)
    · exact .inr fun i hi => ha ⟨i, hi⟩
  refine ⟨hconserves, fun hwithin ⟨i, hi⟩ => ⟨fun hc => ?_, hconserves⟩⟩
  rcases hc with hle | hnone
  · have hfit := hfits.mpr hwithin
    have hless := delivered_le (asks (streams react) fuel elapsed h)
    exact (delivered_eq_iff hne).mp (by omega)
  · exact absurd hi (hnone i)

/-- Two sockets with five and ten bytes in their queues; the segments came while
a transfer was scheduled. -/
def twoSockets : List (Event × React) :=
  [(.act .create, quietOwner), (.act .create, quietOwner),
    (.act (.call 0 .read), quietOwner), (.act (.call 1 .read), quietOwner),
    (.inner 0 (.dataEvent [1, 2, 3, 4, 5]) 0, quietOwner),
    (.inner 1 (.dataEvent [1, 2, 3, 4, 5, 6, 7, 8, 9, 10]) 0, quietOwner)]

/-- What is left of the second socket. -/
def second (h : Hosted Net) : Option (Bool × Bool × Bool × Nat) :=
  h.world.socks[1]?.map fun s =>
    (s.alive, s.tcp.closed, s.tcp.stopped, s.tcp.bufferUsed)

theorem awake_of_second {h : Hosted Net} {used : Nat}
    (hsock : second h = some (true, false, false, used)) (hpos : 0 < used) :
    Awake h 1 := by
  obtain ⟨s, hs, hflags⟩ := Option.map_eq_some_iff.mp hsock
  simp only [Prod.mk.injEq] at hflags
  obtain ⟨halive, hclosed, hstopped, rfl⟩ := hflags
  exact ⟨s, hs, halive, hclosed, hstopped, hpos⟩

/-- The first of the two sockets is stopped, and a tick has ten bytes to share:
five are charged to the stopped socket, and the other one gets five. -/
theorem work_not_conserved : ¬ ∀ limit hist h₀ h react fuel elapsed h',
    Run Step (created limit) hist h₀ → Finds h₀ h →
    1 ≤ h.ctl.limit * elapsed / 1000 →
    ControllerSimple.transfer (streams react) fuel elapsed h = some h' →
    WorkConserving (h.ctl.limit * elapsed / 1000) h h' := by
  intro hall
  obtain ⟨hist, h₀, hexec, hbudget, htransfer, hsecond⟩ : ∃ hist h₀,
      exec (step 4) (created 10)
        (twoSockets ++ [(.act (.call 0 .stop), quietOwner)]) =
        some (hist, h₀) ∧ h₀.ctl.limit * 1000 / 1000 = 10 ∧
      (ControllerSimple.transfer (streams quietOwner) 4 1000
        { h₀ with ctl.timer := {} }).map (fun h' =>
          (buffered h₀, buffered h')) = some (15, 10) ∧
      (ControllerSimple.transfer (streams quietOwner) 4 1000
        { h₀ with ctl.timer := {} }).bind second =
        some (true, false, false, 5) :=
    ⟨_, _, rfl, by decide, by decide, by decide⟩
  obtain ⟨h', ht, hfacts⟩ := Option.map_eq_some_iff.mp htransfer
  have hsock : second h' = some (true, false, false, 5) := by
    simpa [ht] using hsecond
  simp only [Prod.mk.injEq] at hfacts
  obtain ⟨hbefore, hafter⟩ := hfacts
  have hc := hall 10 hist h₀ { h₀ with ctl.timer := {} } quietOwner 4 1000 h'
    ((run_of_exec hexec).mono step_of_graph) .tick (by simp [hbudget]) ht
  rcases hc with hle | hnone
  · change buffered h' + h₀.ctl.limit * 1000 / 1000 ≤ buffered h₀ at hle
    omega
  · exact hnone 1 (awake_of_second hsock (by omega))

/-- The same tick with nobody stopped: both sockets get five bytes. -/
theorem work_conserving_running : ∃ h h',
    ControllerSimple.transfer (streams quietOwner) 4 1000 h = some h' ∧
      buffered h = 15 ∧ buffered h' = 5 ∧ WorkConserving 10 h h' := by
  obtain ⟨hist, h₀, hexec, hlimit, htransfer, hrun⟩ : ∃ hist h₀,
      exec (step 4) (created 10) twoSockets = some (hist, h₀) ∧
      h₀.ctl.limit = 10 ∧
      (ControllerSimple.transfer (streams quietOwner) 4 1000
        { h₀ with ctl.timer := {} }).map (fun h' =>
          (buffered h₀, buffered h')) = some (15, 5) ∧
      AllRunning (asks (streams quietOwner) 4 1000
        { h₀ with ctl.timer := {} }) :=
    ⟨_, _, rfl, by decide, by decide, by decide⟩
  obtain ⟨h', ht, hfacts⟩ := Option.map_eq_some_iff.mp htransfer
  simp only [Prod.mk.injEq] at hfacts
  have hc := (work_conserving_iff (h := { h₀ with ctl.timer := {} })
    ((run_of_exec hexec).mono step_of_graph) .tick
    (by simp [hlimit, sizeModulus]) ht).1 hrun
  simp only [hlimit] at hc
  exact ⟨{ h₀ with ctl.timer := {} }, h', ht, hfacts.1, hfacts.2, hc⟩

end ThrottledStreams

end EcwidDownloader
