import EcwidDownloader.Proofs.DownloaderOpening
import EcwidDownloader.Proofs.TcpEvents

/-!
# A download through a throttled socket, seen by the downloader

What the throttled socket publishes while it runs its own methods are events of
the downloader. So to every run of the two together there is a run of the
downloader alone, which hears these events in the same order and finds the
socket as they left it. What was proved of every run of a downloader holds of
the two together.

The downloader's run has the stream the inner socket delivers, less what is
still queued. That no part of it comes before the request was written is the
downloader's own doing: it does not ask the socket to read any earlier.
-/

namespace EcwidDownloader

open Lib

namespace DownloaderSimple

open TCPSocketBandwidth (Armed Full Moved Stocked level level_call popped
  relisted unlisted)

/-! ## The socket of a downloader -/

theorem abiding_of_call {Q : TCPSocketBandwidth → Prop}
    (h : ∀ c s, Q s → Q (TCPSocketBandwidth.call c s)) : Abiding Q where
  connect ip port := h (.connect ip port)
  connect6 ip port := h (.connect6 ip port)
  read := h .read
  stop := h .stop
  write data := h (.write data)
  shutdown := h .shutdown
  close s := h .close s

theorem abiding_level (l : Bool × Bool × Nat × Nat × List DataChunk) :
    Abiding fun s : TCPSocketBandwidth => level s = l :=
  abiding_of_call fun c s h => (level_call c s).trans h

theorem abiding_armed (busy : Option EventKind) : Abiding (Armed busy) :=
  abiding_of_call fun c _ h => h.call c

theorem opening_stopped :
    Opening fun s : TCPSocketBandwidth => s.stopped = true where
  close s h := by
    show (TCPSocketBandwidth.close s).stopped = true
    unfold TCPSocketBandwidth.close
    split
    · rfl
    · exact h
  connect _ _ _ h := h
  connect6 _ _ _ h := h
  write _ _ h := h

/-- The socket after an event is the one before it, less some calls. -/
theorem Handled.keeps {P : Type} [HttpParser P] {Q : TCPSocketBandwidth → Prop}
    {w w' : Throttled P} {event : Event} (hQ : Abiding Q)
    (hh : Handled w event w') (hq : Q w.sock) : Q w'.sock := by
  by_cases hend : event = .socket .endEvent
  · subst hend
    cases hh with
    | ended =>
        exact (hQ.onSocketEvent .endEvent
          { w with owner.peerEnded := true }).sock hq
    | socket _ _ hne => exact absurd rfl hne
  · exact (hQ.handled hh hend).sock hq

/-! ## The downloader's side -/

variable {L : Type} [Http.HttpParserLibrary L]

/-- The downloader of the two has heard these events, as in a run of its own. -/
structure Hearing (mild : Prop) (w₀ : Throttled (Http.LibraryParser L))
    (heard : List (Throttled (Http.LibraryParser L) ×
      Occurrence TCPSocketBandwidth))
    (w : Throttled (Http.LibraryParser L)) : Prop where
  run : ∃ x, Runs w₀ heard x ∧
    w = { x with sock := w.sock, owner.faults := w.owner.faults }
  comes : Meets Comes heard
  hands : mild → Meets HandsOver heard
  early : Early w → w.sock.stopped = true
  ended : w.owner.peerEnded = true → w.sock.eof = true ∧ w.sock.buffer = []

section

variable {mild : Prop} {w₀ w w' : Throttled (Http.LibraryParser L)}
  {heard : List (Throttled (Http.LibraryParser L) ×
    Occurrence TCPSocketBandwidth)}

/-- The socket works on its own fields. -/
theorem Hearing.resock {s : TCPSocketBandwidth} (h : Hearing mild w₀ heard w)
    (hstopped : w.sock.stopped = true → s.stopped = true)
    (hended : w.sock.eof = true → w.sock.buffer = [] →
      s.eof = true ∧ s.buffer = []) :
    Hearing mild w₀ heard { w with sock := s } := by
  obtain ⟨x, hr, heq⟩ := h.run
  have heq' : { w with sock := s } =
      ({ x with sock := s, owner.faults := w.owner.faults } :
        Throttled (Http.LibraryParser L)) :=
    congrArg (fun w : Throttled _ => { w with sock := s }) heq
  exact ⟨⟨x, hr, heq'⟩, h.comes, h.hands, fun he => hstopped (h.early he),
    fun hp => hended (h.ended hp).1 (h.ended hp).2⟩

theorem Hearing.faulted (h : Hearing mild w₀ heard w) (faults : Faults) :
    Hearing mild w₀ heard { w with owner.faults := faults } := by
  obtain ⟨x, hr, heq⟩ := h.run
  have heq' : { w with owner.faults := faults } =
      ({ x with sock := w.sock, owner.faults := faults } :
        Throttled (Http.LibraryParser L)) :=
    congrArg (fun w : Throttled _ => { w with owner.faults := faults }) heq
  exact ⟨⟨x, hr, heq'⟩, h.comes, h.hands, h.early, h.ended⟩

theorem Hearing.fetching (h₀ : Started w₀) (h : Hearing mild w₀ heard w) :
    Fetching (brought heard) w := by
  obtain ⟨x, hr, heq⟩ := h.run
  rw [heq]
  exact (Fetching.run h₀ hr h.comes).found
    { event := .stop, sock := w.sock, faults := w.owner.faults }

/-- An event comes to the downloader. -/
theorem Hearing.hears {event : Event} (h₀ : Started w₀)
    (h : Hearing mild w₀ heard w) (hs : handle event w = some w')
    (hdata : ∀ data, event = .socket (.dataEvent data) →
      data ≠ [] ∧ w.sock.stopped = false)
    (hend : event = .socket .endEvent →
      w.sock.eof = true ∧ w.sock.buffer = [])
    (hhands : mild → ¬ EmptyHanded w event) :
    ∃ heard', Hearing mild w₀ heard' w' ∧
      brought heard' = brought heard ++ brings event := by
  obtain ⟨x, hr, heq⟩ := h.run
  have hh : Handled w event w' := handled_of_handle hs
  have hcomes : ∀ data, event = .socket (.dataEvent data) →
      data ≠ [] ∧ ¬ Early w := fun data he =>
    ⟨(hdata data he).1, fun hearly =>
      absurd ((hdata data he).2.symm.trans (h.early hearly)) nofun⟩
  let o : Occurrence TCPSocketBandwidth :=
    { event := event, sock := w.sock, faults := w.owner.faults }
  have hstep : Lib.Graph step x o w' := by
    show handle event (found x o) = some w'
    rw [← hs, heq]
    rfl
  have hlast : Comes x o := fun data he => by
    have hcome := hcomes data he
    rw [heq] at hcome
    exact hcome
  have hgives : mild → HandsOver x o := fun hmild he => by
    have hhand := hhands hmild
    rw [heq] at hhand
    exact hhand he
  have hf := h.fetching h₀
  refine ⟨heard ++ [(x, o)], ⟨⟨w', .snoc hr hstep, rfl⟩,
    Meets.snoc_iff.mpr ⟨h.comes, hlast⟩,
    fun hmild => Meets.snoc_iff.mpr ⟨h.hands hmild, hgives hmild⟩, ?_, ?_⟩,
    brought_snoc _ _ _⟩
  · exact hf.opening opening_stopped h.early hh (hf.handled hh hcomes)
  · have hlevel : level w'.sock = level w.sock :=
      hh.keeps (abiding_level (level w.sock)) rfl
    simp only [level, Prod.mk.injEq] at hlevel
    obtain ⟨-, heof, -, -, hbuffer⟩ := hlevel
    rw [heof, hbuffer]
    intro hp
    by_cases hlast : event = .socket .endEvent
    · exact hend hlast
    · have hstands := (abiding_true.handled hh hlast).stands
      exact h.ended ((congrArg Prod.fst hstands).symm.trans hp)

/-! ## The socket's side -/

/-- What the inner socket has delivered has been heard of, or is still in the
queue. The listener that is running is not registered. -/
structure Carried (mild : Prop) (w₀ : Throttled (Http.LibraryParser L))
    (delivered : Bytes) (busy : Option EventKind) (w : Throttled (Http.LibraryParser L)) :
    Prop where
  hearing : ∃ heard, Hearing mild w₀ heard w ∧
    brought heard ++ unread w.sock.buffer = delivered
  stocked : Stocked w.sock
  full : Full w.sock
  armed : Armed busy w.sock

variable {delivered : Bytes} {busy busy' : Option EventKind}

theorem Carried.resock {s : TCPSocketBandwidth}
    (h : Carried mild w₀ delivered busy w) (ha : Armed busy' s)
    (hstopped : w.sock.stopped = true → s.stopped = true)
    (heof : w.sock.eof = true → s.eof = true)
    (hbuffer : s.buffer = w.sock.buffer)
    (hused : s.bufferUsed = w.sock.bufferUsed) :
    Carried mild w₀ delivered busy' { w with sock := s } := by
  obtain ⟨heard, hh, hbytes⟩ := h.hearing
  have hh' := hh.resock hstopped fun he hb => ⟨heof he, hbuffer.trans hb⟩
  refine ⟨⟨heard, hh', ?_⟩, ?_, ?_, ha⟩
  · rw [hbuffer]
    exact hbytes
  · show s.bufferUsed = (unread s.buffer).length
    rw [hbuffer, hused]
    exact h.stocked
  · show ∀ chunk ∈ s.buffer, chunk.rest ≠ []
    rw [hbuffer]
    exact h.full

theorem Carried.mono {mild' : Prop} (h : Carried mild w₀ delivered busy w)
    (hmild : mild' → mild) : Carried mild' w₀ delivered busy w := by
  obtain ⟨heard, hh, hbytes⟩ := h.hearing
  exact ⟨⟨heard, ⟨hh.run, hh.comes, hh.hands ∘ hmild, hh.early, hh.ended⟩,
    hbytes⟩, h.stocked, h.full, h.armed⟩

/-- An event comes to the downloader, which calls the socket back. -/
theorem Hearing.carried {event : Event} (h₀ : Started w₀)
    (h : Hearing mild w₀ heard w) (hs : handle event w = some w')
    (hstocked : Stocked w.sock) (hfull : Full w.sock)
    (harmed : Armed busy w.sock)
    (hdata : ∀ data, event = .socket (.dataEvent data) →
      data ≠ [] ∧ w.sock.stopped = false)
    (hend : event = .socket .endEvent →
      w.sock.eof = true ∧ w.sock.buffer = [])
    (hhands : mild → ¬ EmptyHanded w event) :
    Carried mild w₀ (brought heard ++ brings event ++ unread w.sock.buffer) busy
      w' := by
  obtain ⟨heard', hheard, hbrought⟩ :=
    h.hears h₀ hs hdata hend hhands
  have hh : Handled w event w' := handled_of_handle hs
  have hlevel : level w'.sock = level w.sock :=
    hh.keeps (abiding_level (level w.sock)) rfl
  simp only [level, Prod.mk.injEq] at hlevel
  obtain ⟨-, -, hused, -, hbuffer⟩ := hlevel
  refine ⟨⟨heard', hheard, ?_⟩, ?_, ?_, hh.keeps (abiding_armed busy) harmed⟩
  · rw [hbuffer, hbrought]
  · show w'.sock.bufferUsed = (unread w'.sock.buffer).length
    rw [hbuffer, hused]
    exact hstocked
  · show ∀ chunk ∈ w'.sock.buffer, chunk.rest ≠ []
    rw [hbuffer]
    exact hfull

theorem handle_publish {P : Type} [HttpParser P] {w : Throttled P}
    {event : SocketEvent}
    (hpeer : ∀ data, event = .dataEvent data → w.owner.peerEnded = false) :
    handle (.socket event) w = some (Throttled.publish event w) := by
  cases event with
  | dataEvent data =>
      show (if w.owner.peerEnded then none else _) = _
      rw [hpeer data rfl]
      rfl
  | _ => rfl

/-- The socket passes on an event that brings no data. -/
theorem Carried.publish (h₀ : Started w₀) (h : Carried mild w₀ delivered busy w)
    {event : SocketEvent} (hdata : ∀ data, event ≠ .dataEvent data)
    (hend : event = .endEvent → w.sock.eof = true ∧ w.sock.buffer = [])
    (hhands : mild → ¬ EmptyHanded w (.socket event)) :
    Carried mild w₀ delivered busy (Throttled.publish event w) := by
  obtain ⟨heard, hh, hbytes⟩ := h.hearing
  have hbrings : brings (.socket event) = [] := by
    cases event with
    | dataEvent data => exact absurd rfl (hdata data)
    | _ => rfl
  have hc := hh.carried h₀ (handle_publish fun data he => absurd he (hdata data))
    h.stocked h.full h.armed
    (fun data he => absurd (Event.socket.inj he) (hdata data))
    (fun he => hend (Event.socket.inj he)) hhands
  rw [hbrings, List.append_nil, hbytes] at hc
  exact hc

/-- The socket delivers from its queue. -/
theorem Carried.deliver (h₀ : Started w₀) (h : Carried mild w₀ delivered busy w)
    {n : Nat} {data : Bytes} {buffer : List DataChunk}
    (hstopped : w.sock.stopped = false) (hn : n ≠ 0)
    (hpop : TCPSocketBandwidth.popBuffer (min n w.sock.bufferUsed)
      w.sock.buffer = some (data, buffer)) :
    Carried mild w₀ delivered busy
      (Throttled.publish (.dataEvent data) (popped n buffer w)) := by
  obtain ⟨heard, hh, hbytes⟩ := h.hearing
  obtain ⟨hdata, hrest⟩ := h.stocked.popBuffer hpop
  have hbuffer : w.sock.buffer ≠ [] := by
    intro hnil
    rw [hnil] at hpop
    cases hpop
  have hne : data ≠ [] := by
    have hunread : unread w.sock.buffer ≠ [] :=
      fun hnil => hbuffer (h.full.buffer_nil hnil)
    have hlength := List.length_pos_iff.mpr hunread
    have hstocked : w.sock.bufferUsed = (unread w.sock.buffer).length :=
      h.stocked
    refine List.length_pos_iff.mp ?_
    rw [hdata, List.length_take]
    omega
  have hpopped := hh.resock (s := (popped n buffer w).sock) id
    fun _ hb => absurd hb hbuffer
  have hpeer : w.owner.peerEnded = false :=
    Bool.eq_false_iff.mpr fun hp => hbuffer (hh.ended hp).2
  have hs : handle (.socket (.dataEvent data)) (popped n buffer w) =
      some (Throttled.publish (.dataEvent data) (popped n buffer w)) :=
    handle_publish fun _ _ => hpeer
  have hc := hpopped.carried h₀ hs (h.stocked.popped hpop)
    (TCPSocketBandwidth.popBuffer_full h.full hpop)
    (h.armed.congr rfl rfl rfl)
    (fun d he => by
      cases he
      exact ⟨hne, hstopped⟩) nofun fun _ h => nomatch h.1
  have hall : brought heard ++ data ++ unread buffer = delivered := by
    rw [hdata, hrest, List.append_assoc, List.take_append_drop, hbytes]
  rw [← hall]
  exact hc

theorem Carried.afterData (h₀ : Started w₀)
    (h : Carried mild w₀ delivered busy w) :
    Carried mild w₀ delivered busy
      (TCPSocketBandwidth.afterData Throttled.publish w) := by
  rcases TCPSocketBandwidth.afterData_cases Throttled.publish w with
    ⟨heof, hused, heq⟩ | ⟨-, heq⟩ | ⟨-, -, heq⟩
  · rw [heq]
    have hnil : unread w.sock.buffer = [] :=
      List.length_eq_zero_iff.mp (h.stocked.symm.trans hused)
    have hstopped : Carried mild w₀ delivered busy
        { w with sock.stopped := true } :=
      h.resock (h.armed.congr rfl rfl rfl) (fun _ => rfl) id rfl rfl
    exact hstopped.publish h₀ nofun (fun _ => ⟨heof, h.full.buffer_nil hnil⟩)
      fun _ h => nomatch h.1
  · rw [heq]
    exact h.resock (h.armed.congr rfl rfl rfl) id id rfl rfl
  · rw [heq]
    exact h

theorem Carried.transfer (h₀ : Started w₀) (h : Carried mild w₀ delivered busy w)
    {n : Nat}
    (ht : TCPSocketBandwidth.transfer Throttled.publish n w = some w') :
    Carried mild w₀ delivered busy w' := by
  rcases TCPSocketBandwidth.transfer_cases ht with
    ⟨-, rfl⟩ | ⟨hstopped, hn, data, buffer, hpop, rfl⟩
  · exact h
  · exact (h.deliver h₀ hstopped hn hpop).afterData h₀

theorem Carried.transfers (h₀ : Started w₀) {lengths : List Nat}
    {w w' : Throttled (Http.LibraryParser L)}
    (h : Carried mild w₀ delivered busy w)
    (ht : Throttled.transfers lengths w = some w') :
    Carried mild w₀ delivered busy w' :=
  Lib.foldlM_keeps (I := fun _ w => Carried mild w₀ delivered busy w)
    (fun h h₁ => h.transfer h₀ h₁) h ht

/-! ## What the inner socket does -/

theorem Carried.unlisted (h : Carried mild w₀ delivered none w)
    (kind : EventKind) : Carried mild w₀ delivered (some kind) (unlisted kind w) :=
  h.resock (h.armed.taking kind) id id rfl rfl

theorem Carried.relisted {l : InnerListener}
    (hl : l ∈ TCPSocketBandwidth.standing)
    (h : Carried mild w₀ delivered (some (Listens.kind l)) w) :
    Carried mild w₀ delivered none (relisted l w) := by
  have ha := TCPSocketBandwidth.relisted_armed hl h.armed
  unfold TCPSocketBandwidth.relisted at ha ⊢
  split at ha
  · next hc =>
      rw [if_pos hc]
      exact h.resock ha id id rfl rfl
  · next hc =>
      rw [if_neg hc]
      exact ⟨h.hearing, h.stocked, h.full, ha⟩

/-- A segment is put into the queue. -/
theorem Carried.received (h : Carried mild w₀ delivered busy w) {data : Bytes}
    (hne : data ≠ []) (heof : w.sock.eof = false) :
    Carried mild w₀ (delivered ++ data) busy
      { w with sock := TCPSocketBandwidth.bufferData data w.sock } := by
  obtain ⟨heard, hh, hbytes⟩ := h.hearing
  have hbuffer := (TCPSocketBandwidth.bufferData_queue data w.sock).1
  refine ⟨⟨heard, hh.resock (fun hs => ?_) fun he => ?_, ?_⟩,
    h.stocked.received data, ?_, ?_⟩
  · unfold TCPSocketBandwidth.bufferData
    simp only []
    split <;> exact hs
  · exact absurd (heof.symm.trans he) nofun
  · show brought heard ++ unread _ = _
    rw [hbuffer, unread_emplace, ← List.append_assoc, hbytes]
  · intro chunk hchunk
    rw [hbuffer] at hchunk
    rcases List.mem_append.mp hchunk with hc | hc
    · exact h.full chunk hc
    · rw [List.mem_singleton.mp hc]
      exact hne
  · refine h.armed.congr ?_ ?_ ?_ <;>
      · simp only [TCPSocketBandwidth.bufferData]
        split <;> rfl

/-- The inner socket publishes an event. -/
theorem Carried.moved (h₀ : Started w₀) (h : Carried mild w₀ delivered none w)
    {event : SocketEvent} {sync : List Nat}
    (hdata : ∀ data, event = .dataEvent data →
      data ≠ [] ∧ w.sock.eof = false)
    (hhands : mild → ¬ EmptyHanded w (.socket event))
    (hm : Moved Throttled.publish (Throttled.transfers sync) w event w') :
    Carried mild w₀ (delivered ++ brings (.socket event)) none w' := by
  cases hm with
  | data data hc h₁ =>
      obtain ⟨hne, heof⟩ := hdata data rfl
      have hreceived := (h.unlisted .data).received hne heof
      exact (hreceived.transfers h₀ h₁).relisted (by decide)
  | forwarded event hc hl =>
      have hkind : ∀ data, event ≠ .dataEvent data := by
        rintro data rfl
        simp [TCPSocketBandwidth.standing, SocketEvent.kind] at hl
      have hend : event ≠ .endEvent := by
        rintro rfl
        simp [TCPSocketBandwidth.standing, SocketEvent.kind] at hl
      have hbrings : brings (.socket event) = [] := by
        cases event with
        | dataEvent data => exact absurd rfl (hkind data)
        | _ => rfl
      rw [hbrings, List.append_nil]
      exact ((h.unlisted event.kind).publish h₀ hkind
        (fun he => absurd he hend) hhands).relisted hl
  | ended _ =>
      rw [show brings (.socket .endEvent) = [] from rfl, List.append_nil]
      exact h.resock (h.armed.ended.congr rfl rfl rfl) id (fun _ => rfl) rfl
        rfl
  | endedAgain _ _ =>
      rw [show brings (.socket .endEvent) = [] from rfl, List.append_nil]
      exact h.resock h.armed.ended id id rfl rfl
  | closed hc =>
      rw [show brings (.socket .closeEvent) = [] from rfl, List.append_nil]
      have hgone := h.resock (h.armed.unlisted_close hc) id id rfl rfl
      exact hgone.publish h₀ (fun _ => SocketEvent.noConfusion)
        SocketEvent.noConfusion fun _ hempty =>
          SocketEvent.noConfusion (Event.socket.inj hempty.1)
  | closedAgain hc =>
      rw [show brings (.socket .closeEvent) = [] from rfl, List.append_nil]
      exact h.resock (h.armed.unlisted_close hc) id id rfl rfl

theorem Carried.faulted (h : Carried mild w₀ delivered busy w) (faults : Faults) :
    Carried mild w₀ delivered busy { w with owner.faults := faults } := by
  obtain ⟨heard, hh, hbytes⟩ := h.hearing
  exact ⟨⟨heard, hh.faulted faults, hbytes⟩, h.stocked, h.full, h.armed⟩

/-- What comes to the downloader from elsewhere. -/
theorem Carried.own (h₀ : Started w₀) (h : Carried mild w₀ delivered busy w)
    {event : Event} (hs : handle event w = some w')
    (hsocket : ∀ e, event ≠ .socket e) : Carried mild w₀ delivered busy w' := by
  obtain ⟨heard, hh, hbytes⟩ := h.hearing
  have hbrings : brings event = [] := by
    cases event with
    | socket e => exact absurd rfl (hsocket e)
    | _ => rfl
  have hc := hh.carried h₀ hs h.stocked h.full h.armed
    (fun _ he => absurd he (hsocket _)) (fun he => absurd he (hsocket _))
    fun _ h => hsocket _ h.1
  rw [hbrings, List.append_nil, hbytes] at hc
  exact hc

end

namespace Throttled

/-- What the inner socket publishes. -/
def Event.raised : Event → Option SocketEvent
  | .inner event _ => some event
  | _ => none

/-- The segment the inner socket delivers. -/
def Event.segment : Event → Option Bytes
  | .inner (.dataEvent data) _ => some data
  | _ => none

/-- The segments of the inner socket are not empty, and none comes after the end
of the stream. -/
def Delivers {P : Type} (w : Throttled P) (e : Event × Faults) : Prop :=
  ∀ data ∈ e.1.segment, data ≠ [] ∧ w.sock.eof = false

instance {P : Type} (w : Throttled P) (e : Event × Faults) :
    Decidable (Delivers w e) :=
  inferInstanceAs
    (Decidable (∀ data ∈ e.1.segment, data ≠ [] ∧ w.sock.eof = false))

/-- No shutdown completes while the file of a complete response is still to be
opened. -/
def HandsOver {P : Type} (w : Throttled P) (e : Event × Faults) : Prop :=
  e.1.raised = some .shutdownEvent → ¬ EmptyHanded w (.socket .shutdownEvent)

instance {P : Type} (w : Throttled P) (e : Event × Faults) :
    Decidable (HandsOver w e) :=
  inferInstanceAs (Decidable (e.1.raised = some .shutdownEvent →
    ¬ EmptyHanded w (.socket .shutdownEvent)))

/-- Everything the inner socket has delivered. -/
def deliveredBytes {P : Type} (hist : List (Throttled P × Event × Faults)) :
    Bytes :=
  hist.flatMap fun p => p.2.1.segment.getD []

theorem Started.alone {P : Type} [HttpParser P] {w : Throttled P}
    (h : Started w) : DownloaderSimple.Started w := by
  obtain ⟨conn, bufferMaxLength, backlog, uri, fname, resources, fault, hrun⟩ :=
    h
  exact ⟨_, backlog, uri, fname, resources, fault, hrun⟩

variable {mild : Prop} {w₀ w w' : Throttled (Http.LibraryParser L)}
  {delivered : Bytes}

theorem Started.carried (h : Started w) : Carried mild w [] none w := by
  have hf := h.alone.fetching
  have ha : Alive (anything TCPSocketBandwidth) .resolving .none w :=
    started_alive h.alone
  obtain ⟨conn, bufferMaxLength, backlog, uri, fname, resources, fault, hrun⟩ :=
    h
  obtain ⟨uriParsed, text, hw⟩ := run_true hrun
  have hsock : w.sock =
      (TCPSocketBandwidth.create conn).setBuffer bufferMaxLength := by
    rw [hw]
    rfl
  have hpeer : w.owner.peerEnded = false := by
    rw [hw]
    rfl
  have hhearing : Hearing mild w [] w :=
    ⟨⟨w, .nil, rfl⟩, .nil, fun _ => .nil, fun _ => hsock ▸ rfl,
      fun hp => absurd (hpeer.symm.trans hp) nofun⟩
  have hbuffer : w.sock.buffer = [] := hsock ▸ rfl
  have hused : w.sock.bufferUsed = 0 := hsock ▸ rfl
  refine ⟨⟨[], hhearing, ?_⟩, ?_, ?_, ?_⟩
  · rw [hbuffer]
    rfl
  · show w.sock.bufferUsed = (unread w.sock.buffer).length
    rw [hused, hbuffer]
    rfl
  · show ∀ chunk ∈ w.sock.buffer, chunk.rest ≠ []
    rw [hbuffer]
    exact fun _ hc => absurd hc List.not_mem_nil
  · rw [hsock]
    exact (Armed.create conn).congr rfl rfl rfl

theorem step_carried (h₀ : DownloaderSimple.Started w₀)
    (h : Carried mild w₀ delivered none w) {e : Event × Faults}
    (hin : Delivers w e) (hhands : mild → HandsOver w e)
    (hs : Lib.Graph step w e w') :
    Carried mild w₀ (delivered ++ e.1.segment.getD []) none w' := by
  have hfound := h.faulted e.2
  obtain ⟨event, faults⟩ := e
  unfold Lib.Graph step at hs
  cases event with
  | inner event sync =>
      simp only [] at hs
      split at hs
      · next hc =>
          have hbrings : (Event.inner event sync).segment.getD [] =
              brings (.socket event) := by
            cases event <;> rfl
          rw [hbrings]
          refine hfound.moved h₀ (fun data he => ?_) (fun hmild hempty => ?_)
            (TCPSocketBandwidth.innerEvent_moved hfound.armed hc hs)
          · exact hin data (he ▸ rfl)
          · obtain rfl := Event.socket.inj hempty.1
            exact hhands hmild rfl hempty
      · cases hs
  | transfer length =>
      rw [show (Event.transfer length).segment.getD [] = [] from rfl,
        List.append_nil]
      exact hfound.transfer h₀ hs
  | own event =>
      rw [show (Event.own event).segment.getD [] = [] from rfl,
        List.append_nil]
      cases event with
      | socket e => cases hs
      | _ =>
          have hown : handle _ { w with owner.faults := faults } = some w' := hs
          exact hfound.own h₀ hown nofun

/-- The run of the downloader alone in a run of the two. -/
theorem Runs.carried {hist : List (Throttled (Http.LibraryParser L) ×
    Event × Faults)} (h₀ : Started w₀) (hr : Runs w₀ hist w)
    (hin : Meets Delivers hist) :
    Carried (Meets HandsOver hist) w₀ (deliveredBytes hist) none w := by
  induction hr with
  | nil => exact h₀.carried
  | @snoc t u e hist hr hs ih =>
      obtain ⟨hin, hlast⟩ := Meets.snoc_iff.mp hin
      have hbytes : deliveredBytes (hist ++ [(t, e)]) =
          deliveredBytes hist ++ e.1.segment.getD [] := by
        simp [deliveredBytes]
      rw [hbytes]
      refine step_carried h₀.alone ((ih hin).mono ?_) hlast ?_ hs
      · exact fun hmild => (Meets.snoc_iff.mp hmild).1
      · exact fun hmild => (Meets.snoc_iff.mp hmild).2

end Throttled

end DownloaderSimple

end EcwidDownloader
