import EcwidDownloader.Proofs.TcpEvents

/-!
# Owners of any make

In the runs of a throttled socket an owner is no more than the calls it makes
about what the socket publishes. That loses nothing: an owner with a state of
its own, which handles an event as it likes and touches the socket by its calls
only, is seen by the socket as one of these. What it does in one event of the
inner socket is a number of pieces, a handler or a method each; the calls it
makes in a piece are planned by how much was observed before, and the plans of
two pieces that follow each other fit together.

So what holds in every run of the socket holds of it under every owner.
-/

namespace EcwidDownloader

open Lib

namespace TCPSocketBandwidth

/-! ## Planned calls -/

/-- The calls made about an event are planned by the number of observations. -/
def planned (plan : Nat → List Call) : React := fun w _ => plan w.owner.length

/-- The pieces of an event, run by the socket with some owner. -/
abbrev Piece := React → Observed → Option Observed

/-- A piece leads from one state to another for all plans that agree with one of
them on what is observed in between. -/
structure Mimics (piece : Piece) (o o' : Observed) : Prop where
  grows : ∃ notes, o'.owner = o.owner ++ notes ∧
    ∀ n ∈ notes, Note.receivedBytes n = []
  plan : ∃ p : Nat → List Call, ∀ p' : Nat → List Call,
    (∀ k, o.owner.length ≤ k → k < o'.owner.length → p' k = p k) →
    piece (planned p') o = some o'

namespace Mimics

variable {piece piece' : Piece} {o o₁ o' : Observed}

theorem length_le (h : Mimics piece o o') :
    o.owner.length ≤ o'.owner.length := by
  obtain ⟨notes, hnotes, -⟩ := h.grows
  rw [hnotes, List.length_append]
  exact Nat.le_add_right _ _

/-- A piece that publishes nothing. -/
theorem silent (h : ∀ react, piece react o = some o')
    (howner : o'.owner = o.owner) : Mimics piece o o' where
  grows := ⟨[], by rw [howner, List.append_nil], fun _ hn =>
    absurd hn List.not_mem_nil⟩
  plan := ⟨fun _ => [], fun _ _ => h _⟩

/-- One piece after the other. -/
theorem trans (h : Mimics piece o o₁) (h' : Mimics piece' o₁ o') :
    Mimics (fun react o => (piece react o).bind (piece' react)) o o' := by
  obtain ⟨notes, hnotes, hquiet⟩ := h.grows
  obtain ⟨notes', hnotes', hquiet'⟩ := h'.grows
  obtain ⟨plan, hplan⟩ := h.plan
  obtain ⟨plan', hplan'⟩ := h'.plan
  have hle := h.length_le
  have hle' := h'.length_le
  refine ⟨⟨notes ++ notes', ?_, fun n hn => ?_⟩,
    fun k => if k < o₁.owner.length then plan k else plan' k,
    fun p hp => ?_⟩
  · rw [hnotes', hnotes, List.append_assoc]
  · exact (List.mem_append.mp hn).elim (hquiet n) (hquiet' n)
  · have hfirst : piece (planned p) o = some o₁ := by
      refine hplan p fun k hk hk' => ?_
      exact (hp k hk (Nat.lt_of_lt_of_le hk' hle')).trans (if_pos hk')
    show (piece (planned p) o).bind _ = some o'
    rw [hfirst]
    refine hplan' p fun k hk hk' => ?_
    exact (hp k (Nat.le_trans hle hk) hk').trans (if_neg (Nat.not_lt.mpr hk))

/-- A handler: what it calls is its plan. -/
theorem handler (calls : List Call) (event : SocketEvent) (o : Observed) :
    Mimics (fun react o => some (publish react event o)) o
      (calls.foldl (fun w c => doCall c w) (note (.published event) o)) := by
  have howner : (calls.foldl (fun w c => doCall c w)
      (note (.published event) o)).owner =
      o.owner ++ .published event :: calls.map Note.called := by
    rw [owner_foldl_doCall]
    exact List.append_assoc _ _ _
  refine ⟨⟨_, howner, fun n hn => ?_⟩, fun _ => calls, fun p hp => ?_⟩
  · rcases List.mem_cons.mp hn with rfl | hn
    · rfl
    · obtain ⟨c, -, rfl⟩ := List.mem_map.mp hn
      rfl
  · have hcalls : planned p o event = calls := by
      refine hp _ (Nat.le_refl _) ?_
      rw [howner, List.length_append, List.length_cons]
      exact Nat.lt_add_of_pos_right (Nat.succ_pos _)
    rw [publish_eq, hcalls]

theorem congr (h : Mimics piece o o')
    (heq : ∀ react, piece' react o = piece react o) : Mimics piece' o o' where
  grows := h.grows
  plan := by
    obtain ⟨plan, hplan⟩ := h.plan
    exact ⟨plan, fun p hp => (heq _).trans (hplan p hp)⟩

theorem received (h : Mimics piece o o') :
    receivedBytes o'.owner = receivedBytes o.owner := by
  obtain ⟨notes, hnotes, hquiet⟩ := h.grows
  have hnone : notes.flatMap Note.receivedBytes = [] :=
    List.flatMap_eq_nil_iff.mpr hquiet
  rw [hnotes, receivedBytes, List.flatMap_append, hnone, List.append_nil]
  rfl

end Mimics

/-! ## The socket under an owner -/

section

variable {U : Type}

/-- The handlers of an owner touch the socket by calls only. -/
def Owns (pub : SocketEvent → Linked TCPSocketBandwidth U →
    Linked TCPSocketBandwidth U) : Prop :=
  ∀ event w, ∃ calls : List Call,
    (pub event w).sock = calls.foldl (fun s c => call c s) w.sock

/-- What happens to the socket under an owner happens in a piece of a run. -/
def Shadowed (piece : Piece) (w w' : Linked TCPSocketBandwidth U) : Prop :=
  ∀ o : Observed, o.sock = w.sock →
    ∃ o', o'.sock = w'.sock ∧ Mimics piece o o'

variable {pub : SocketEvent → Linked TCPSocketBandwidth U →
    Linked TCPSocketBandwidth U}
  {piece piece' : Piece} {w w₁ w' : Linked TCPSocketBandwidth U}

theorem Shadowed.trans (h : Shadowed piece w w₁)
    (h' : Shadowed piece' w₁ w') :
    Shadowed (fun react o => (piece react o).bind (piece' react)) w w' := by
  intro o ho
  obtain ⟨o₁, ho₁, hm⟩ := h o ho
  obtain ⟨o', ho', hm'⟩ := h' o₁ ho₁
  exact ⟨o', ho', hm.trans hm'⟩

theorem Shadowed.congr (h : Shadowed piece w w')
    (heq : ∀ react o, o.sock = w.sock → piece' react o = piece react o) :
    Shadowed piece' w w' := by
  intro o ho
  obtain ⟨o', ho', hm⟩ := h o ho
  exact ⟨o', ho', hm.congr fun react => heq react o ho⟩

theorem shadowed_refl (w : Linked TCPSocketBandwidth U) :
    Shadowed (fun _ o => some o) w w :=
  fun o ho => ⟨o, ho, .silent (fun _ => rfl) rfl⟩

/-- The socket works on its own fields. -/
theorem shadowed_change (f : TCPSocketBandwidth → TCPSocketBandwidth)
    (hf : w'.sock = f w.sock) :
    Shadowed (fun _ o => some { o with sock := f o.sock }) w w' := by
  intro o ho
  refine ⟨{ o with sock := f o.sock }, ?_, .silent (fun _ => rfl) rfl⟩
  rw [hf, ho]

theorem Owns.publish (hpub : Owns pub) (event : SocketEvent)
    (w : Linked TCPSocketBandwidth U) :
    Shadowed
      (fun react o => some (TCPSocketBandwidth.publish react event o)) w
      (pub event w) := by
  intro o ho
  obtain ⟨calls, hcalls⟩ := hpub event w
  refine ⟨_, ?_, .handler calls event o⟩
  rw [sock_foldl_doCall, hcalls, ← ho]
  rfl

theorem Owns.afterData (hpub : Owns pub)
    (w : Linked TCPSocketBandwidth U) :
    Shadowed (fun react o => some
        (TCPSocketBandwidth.afterData (TCPSocketBandwidth.publish react) o)) w
      (TCPSocketBandwidth.afterData pub w) := by
  unfold TCPSocketBandwidth.afterData
  split
  · next hend =>
      refine ((shadowed_change (fun s => { s with stopped := true })
        rfl).trans (hpub.publish .endEvent _)).congr fun react o ho => ?_
      rw [ho, if_pos hend]
      rfl
  · next hend =>
      split
      · next hpaused =>
          refine (shadowed_change (fun s =>
            { s with paused := false, socket := s.socket.read })
            rfl).congr fun react o ho => ?_
          rw [ho, if_neg hend, if_pos hpaused, ← ho]
      · next hpaused =>
          refine (shadowed_refl w).congr fun react o ho => ?_
          rw [ho, if_neg hend, if_neg hpaused]

theorem Owns.transfer (hpub : Owns pub) {n : Nat}
    (ht : TCPSocketBandwidth.transfer pub n w = some w') :
    Shadowed (fun react o =>
      TCPSocketBandwidth.transfer (TCPSocketBandwidth.publish react) n o) w
      w' := by
  rcases transfer_cases ht with ⟨hidle, rfl⟩ |
    ⟨hstopped, hn, data, buffer, hpop, rfl⟩
  · refine (shadowed_refl w').congr fun react o ho => ?_
    have hidle' : (o.sock.stopped || n == 0) = true := by
      rw [ho]
      simpa using hidle
    exact if_pos hidle'
  · refine ((shadowed_change (fun s => { s with
        buffer := buffer
        bufferUsed := s.bufferUsed - min n s.bufferUsed }) rfl).trans
      ((hpub.publish (.dataEvent data) (popped n buffer w)).trans
        (hpub.afterData _))).congr fun react o ho => ?_
    have hrun : ¬ (o.sock.stopped || n == 0) = true := by
      rw [ho, hstopped]
      simpa using hn
    unfold TCPSocketBandwidth.transfer
    rw [if_neg hrun]
    simp only []
    rw [ho, hpop, ← ho]
    rfl

/-- The pieces of a loop, one for each element. -/
theorem shadowed_foldlM {α : Type} {f : α → Piece}
    {g : Linked TCPSocketBandwidth U → α →
      Option (Linked TCPSocketBandwidth U)}
    (h : ∀ {a w w'}, g w a = some w' → Shadowed (f a) w w') :
    ∀ {as : List α} {w w' : Linked TCPSocketBandwidth U},
    as.foldlM g w = some w' →
    Shadowed (fun react o => as.foldlM (fun o a => f a react o) o) w w'
  | [], w, w', hw => by
      obtain rfl := Option.some.inj hw
      exact shadowed_refl w
  | a :: as, w, w', hw => by
      rw [List.foldlM_cons] at hw
      obtain ⟨w₁, h₁, hrest⟩ := Option.bind_eq_some_iff.mp hw
      have hboth := (h h₁).trans (shadowed_foldlM (f := f) h hrest)
      exact hboth.congr fun react o _ => rfl

/-- The transfers a controller makes, under an owner. -/
def transfersBy (pub : SocketEvent → Linked TCPSocketBandwidth U →
    Linked TCPSocketBandwidth U) (lengths : List Nat)
    (w : Linked TCPSocketBandwidth U) : Option (Linked TCPSocketBandwidth U) :=
  lengths.foldlM (fun w n => TCPSocketBandwidth.transfer pub n w) w

variable {lengths : List Nat}

theorem Owns.transfers (hpub : Owns pub)
    (ht : transfersBy pub lengths w = some w') :
    Shadowed (fun react => TCPSocketBandwidth.transfers react lengths) w w' :=
  shadowed_foldlM (fun h => hpub.transfer h) ht

theorem shadowed_relisted (l : InnerListener)
    (w : Linked TCPSocketBandwidth U) :
    Shadowed (fun _ o => some (relisted l o)) w (relisted l w) := by
  intro o ho
  refine ⟨relisted l o, ?_, .silent (fun _ => rfl) ?_⟩
  · unfold relisted
    rw [ho]
    split
    · rfl
    · exact ho
  · unfold relisted
    split <;> rfl

theorem Owns.onData (hpub : Owns pub) {data : Bytes}
    (hd : TCPSocketBandwidth.onData (transfersBy pub lengths) data w =
      some w') :
    Shadowed (fun react =>
      TCPSocketBandwidth.onData (TCPSocketBandwidth.transfers react lengths)
        data) w w' := by
  obtain ⟨w₁, h₁, rfl⟩ := Option.map_eq_some_iff.mp hd
  refine ((shadowed_change (bufferData data) rfl).trans
    ((hpub.transfers h₁).trans (shadowed_relisted .onData w₁))).congr
    fun react o _ => ?_
  exact Option.map_eq_bind

theorem Owns.onEvent (hpub : Owns pub) (event : SocketEvent)
    (w : Linked TCPSocketBandwidth U) :
    Shadowed (fun react o => some (TCPSocketBandwidth.onEvent
        (TCPSocketBandwidth.publish react) event o)) w
      (TCPSocketBandwidth.onEvent pub event w) :=
  (hpub.publish event w).trans
    (shadowed_relisted (.onEvent event.kind) (pub event w))

/-- A listener of the inner socket. -/
theorem Owns.runListener (hpub : Owns pub) {event : SocketEvent}
    {l : InnerListener}
    (hl : TCPSocketBandwidth.runListener pub (transfersBy pub lengths) event w
      l = some w') :
    Shadowed (fun react o => TCPSocketBandwidth.runListener
      (TCPSocketBandwidth.publish react)
      (TCPSocketBandwidth.transfers react lengths) event o l) w w' := by
  cases l with
  | onEvent k =>
      obtain rfl := Option.some.inj hl
      exact hpub.onEvent event w
  | onData =>
      cases event with
      | dataEvent data => exact hpub.onData hl
      | _ =>
          obtain rfl := Option.some.inj hl
          exact shadowed_refl w
  | setEof =>
      obtain rfl := Option.some.inj hl
      exact shadowed_change (fun s => { s with eof := true }) rfl
  | publishClose =>
      obtain rfl := Option.some.inj hl
      exact hpub.publish event w

/-- An event of the inner socket. -/
theorem Owns.innerEvent (hpub : Owns pub) {event : SocketEvent}
    (hi : TCPSocketBandwidth.innerEvent pub (transfersBy pub lengths) event w =
      some w') :
    Shadowed (fun react => TCPSocketBandwidth.innerEvent
      (TCPSocketBandwidth.publish react)
      (TCPSocketBandwidth.transfers react lengths) event) w w' := by
  have hlisteners := shadowed_foldlM (U := U)
    (f := fun l react o => TCPSocketBandwidth.runListener
      (TCPSocketBandwidth.publish react)
      (TCPSocketBandwidth.transfers react lengths) event o l)
    (fun h => hpub.runListener h) hi
  refine ((shadowed_change (fun s => { s with
    socket.listeners := Emitter.clearKind event.kind s.socket.listeners })
    rfl).trans hlisteners).congr fun react o ho => ?_
  unfold TCPSocketBandwidth.innerEvent
  rw [ho]
  rfl

end

/-! ## Runs -/

/-- An event of the inner socket as an event of a run. -/
def Event.ofInner (sync : List Nat) : SocketEvent → Event
  | .errorEvent err => .error err
  | .connectEvent => .connected
  | .writeEvent => .written
  | .dataEvent segment => .data segment sync
  | .endEvent => .ended
  | .shutdownEvent => .shutDown
  | .closeEvent => .closed

/-- The segment in an event. -/
def segmentOf : SocketEvent → Bytes
  | .dataEvent data => data
  | _ => []

section

variable {U : Type}
  {pub : SocketEvent → Linked TCPSocketBandwidth U →
    Linked TCPSocketBandwidth U}
  {w w' : Linked TCPSocketBandwidth U} {o : Observed}

theorem step_ofInner (o : Observed) (event : SocketEvent) (sync : List Nat)
    (react : React)
    (hc : o.sock.socket.closed = decide (event = .closeEvent)) :
    step o (Event.ofInner sync event, react) =
      TCPSocketBandwidth.innerEvent (TCPSocketBandwidth.publish react)
        (TCPSocketBandwidth.transfers react sync) event
        { o with owner := o.owner ++ (Event.ofInner sync event).arrival } := by
  cases event <;> exact if_pos hc

/-- An event of the inner socket, under an owner and in a run. -/
theorem Owns.step_inner (hpub : Owns pub) {event : SocketEvent}
    {sync : List Nat} (ho : o.sock = w.sock)
    (hc : w.sock.socket.closed = decide (event = .closeEvent))
    (hi : TCPSocketBandwidth.innerEvent pub (transfersBy pub sync) event w =
      some w') :
    ∃ react o', step o (Event.ofInner sync event, react) = some o' ∧
      o'.sock = w'.sock ∧
      receivedBytes o'.owner = receivedBytes o.owner ++ segmentOf event := by
  obtain ⟨o', ho', hm⟩ := hpub.innerEvent hi
    { o with owner := o.owner ++ (Event.ofInner sync event).arrival } ho
  obtain ⟨plan, hplan⟩ := hm.plan
  refine ⟨planned plan, o', ?_, ho', ?_⟩
  · rw [step_ofInner o event sync _ (ho ▸ hc)]
    exact hplan plan fun _ _ _ => rfl
  · rw [hm.received]
    show receivedBytes (o.owner ++ _) = _
    unfold receivedBytes
    rw [List.flatMap_append]
    refine congrArg _ ?_
    cases event <;> simp [Event.ofInner, Event.arrival, segmentOf,
      Note.receivedBytes]

theorem Owns.step_transfer (hpub : Owns pub) {n : Nat} (ho : o.sock = w.sock)
    (ht : TCPSocketBandwidth.transfer pub n w = some w') :
    ∃ react o', step o (.transfer n, react) = some o' ∧ o'.sock = w'.sock ∧
      receivedBytes o'.owner = receivedBytes o.owner := by
  obtain ⟨o', ho', hm⟩ := hpub.transfer ht o ho
  obtain ⟨plan, hplan⟩ := hm.plan
  exact ⟨planned plan, o', hplan plan fun _ _ _ => rfl, ho', hm.received⟩

end

/-- Calls from outside, one after the other. -/
theorem Runs.calls {o₀ o : Observed}
    {seen : List (Observed × (Event × React))} (hr : Runs o₀ seen o) :
    ∀ calls : List Call, ∃ seen' o', Runs o₀ seen' o' ∧
      o'.sock = calls.foldl (fun s c => call c s) o.sock ∧
      receivedBytes o'.owner = receivedBytes o.owner := by
  intro calls
  induction calls generalizing seen o with
  | nil => exact ⟨seen, o, hr, rfl, rfl⟩
  | cons c calls ih =>
      have hcall : Lib.Graph step o (.call c, quietOwner) (doCall c o) := rfl
      obtain ⟨seen', o', hr', hsock, hreceived⟩ := ih (hr.snoc hcall)
      refine ⟨seen', o', hr', hsock, hreceived.trans ?_⟩
      show receivedBytes (o.owner ++ [.called c]) = _
      unfold receivedBytes
      rw [List.flatMap_append]
      exact List.append_nil _

end TCPSocketBandwidth

end EcwidDownloader
