import EcwidDownloader.Proofs.DownloaderParked
import EcwidDownloader.Proofs.DownloaderSocket

/-!
# The outcomes a downloader listens for

Every operation of a downloader ends in a success or an error, and one of them
that nobody listens for leaves the download where it is for good. Each method
that starts an operation registers a listener for both, but `close_handles`,
which has none for an error of the shutdown; and the read timeout that cannot be
armed reports an error, and then that the download goes on, with the file let go.

Until one of the two happens every operation in flight of a download whose status
is not final has both listeners. What is in flight on a socket is the socket's to
know; `Traffic` is what its methods are known to do to it.
-/

namespace EcwidDownloader

open Lib

namespace DownloaderSimple

/-- The operations of a socket that can be in flight. -/
inductive SocketOp
  | connect | write | read | shutdown
  deriving DecidableEq, Repr

/-- The event the success of an operation is published as. -/
def SocketOp.kind : SocketOp → EventKind
  | connect => .connect
  | write => .write
  | read => .data
  | shutdown => .shutdown

/-- What is in flight on a socket. A method starts one operation at most, and a
socket that has been closed has none. -/
structure Traffic (S : Type) [TCPSocket S] where
  carries : SocketOp → S → Prop
  connect : ∀ {op ip port s}, carries op (TCPSocket.connect ip port s) →
    op = .connect ∨ carries op s
  connect6 : ∀ {op ip port s}, carries op (TCPSocket.connect6 ip port s) →
    op = .connect ∨ carries op s
  write : ∀ {op data s}, carries op (TCPSocket.write data s) →
    op = .write ∨ carries op s
  read : ∀ {op s}, carries op (TCPSocket.read s) → op = .read ∨ carries op s
  shutdown : ∀ {op s}, carries op (TCPSocket.shutdown s) →
    op = .shutdown ∨ carries op s
  stop : ∀ {op s}, carries op (TCPSocket.stop s) → carries op s
  close : ∀ {op s}, ¬ carries op (TCPSocket.close s)

variable {S P : Type}

/-- The operation of the socket an event is the success of. -/
def Event.completes : Event → Option SocketOp
  | .socket .connectEvent => some .connect
  | .socket .writeEvent => some .write
  | .socket .endEvent => some .read
  | .socket .shutdownEvent => some .shutdown
  | _ => none

/-- A listener is registered for a kind of event. -/
def Awaits {L : Type} [Listens L EventKind] (k : EventKind) (h : Handle L) :
    Prop :=
  ∃ l ∈ h.getD [], Listens.kind l = k

/-- A listener is registered for the success of an operation, and one for its
error. -/
def Heard {L : Type} [Listens L EventKind] (k : EventKind) (h : Handle L) :
    Prop :=
  Awaits k h ∧ Awaits .error h

variable [TCPSocket S]

/-- Every operation in flight is listened for. The resolver is held until it has
answered, and a read can also come to the end of the stream. -/
structure Attended (T : Traffic S) (w : World S P) : Prop where
  resolver : w.owner.resolver.isSome = true → Heard .addrInfo w.owner.resolver
  socket : ∀ op, T.carries op w.sock → Heard op.kind w.owner.socket
  ending : T.carries .read w.sock → w.owner.peerEnded = false →
    Awaits .endOfStream w.owner.socket
  file : ∀ op ∈ w.owner.fileOps, Heard op.kind w.owner.file

/-- Between two events the operations of a socket only end, that of the next
event among them. -/
def Traffic.Passes (T : Traffic S) (w : World S P) (o : Occurrence S) : Prop :=
  ∀ op, T.carries op o.sock →
    T.carries op w.sock ∧ o.event.completes ≠ some op

/-- The runs of one downloader over a socket that is known to that extent. -/
abbrev Traffic.Runs [HttpParser P] (T : Traffic S) :
    World S P → List (World S P × Occurrence S) → World S P → Prop :=
  Run fun w o w' => Lib.Graph step w o w' ∧ T.Passes w o

/-! ## The phases -/

/-- The operation of the socket a phase is about. -/
def Net.carries : Net → Option SocketOp
  | connecting _ => some .connect
  | requesting => some .write
  | waiting | reading _ | receiving _ => some .read
  | resolving | shutting _ | shut => none

/-- The phases before the response is complete. -/
def Net.early : Net → Bool
  | resolving | connecting _ | requesting | waiting | receiving _ => true
  | reading _ | shutting _ | shut => false

/-- The body can only have begun with the response being received. -/
theorem Net.carries_of_bodily {n : Net} (h : n.early = true)
    (hb : n.bodily = true) : n.carries = some .read := by
  cases n <;> first | rfl | (cases h; done) | cases hb

/-- Nothing but one operation is in flight on the socket. -/
def Traffic.Only (T : Traffic S) (op : Option SocketOp) (s : S) : Prop :=
  ∀ op', T.carries op' s → op = some op'

theorem Traffic.letting (T : Traffic S) (op : Option SocketOp) :
    Letting (T.Only op) :=
  ⟨fun _ _ _ hc => absurd hc T.close⟩

theorem Traffic.minding (T : Traffic S) : Minding (T.Only (some .read)) :=
  { toLetting := T.letting _
    read := fun _ h op hc =>
      (T.read hc).elim (fun he => congrArg some he.symm) (h op)
    stop := fun _ h op hc => h op (T.stop hc) }

variable {D : Demands S} {n : Net} {f : Fil} {w : World S P} {T : Traffic S}

omit [TCPSocket S] in
/-- Every phase of the file listens for what it has in flight. -/
theorem InFlight.heard {op : FileOp} (h : InFlight w f op) :
    Heard op.kind f.file := by
  cases h with
  | opening => exact ⟨⟨.opened, by decide, rfl⟩, ⟨.openError, by decide, rfl⟩⟩
  | writing _ => exact ⟨⟨.written, by decide, rfl⟩, ⟨.writeError, by decide, rfl⟩⟩
  | closing => exact ⟨⟨.closed, by decide, rfl⟩, ⟨.closeError, by decide, rfl⟩⟩

theorem Net.heard_resolver (h : n.resolver.isSome = true) :
    Heard .addrInfo n.resolver := by
  cases n with
  | resolving =>
      exact ⟨⟨.resolved, by decide, rfl⟩, ⟨.resolveError, by decide, rfl⟩⟩
  | _ => cases h

/-- So does every early phase of the network side for its operation. -/
theorem Net.heard {op : SocketOp} (hn : n.early = true)
    (hc : n.carries = some op) : Heard op.kind n.socket := by
  cases n with
  | connecting ip =>
      cases hc
      exact ⟨⟨.connected, by simp [Net.socket], rfl⟩,
        ⟨.connectError ip, by simp [Net.socket], rfl⟩⟩
  | requesting =>
      cases hc
      exact ⟨⟨.requestWritten, by decide, rfl⟩, ⟨.requestError, by decide, rfl⟩⟩
  | waiting =>
      cases hc
      exact ⟨⟨.firstData, by decide, rfl⟩, ⟨.responseError, by decide, rfl⟩⟩
  | receiving ended =>
      cases hc
      cases ended <;>
        exact ⟨⟨.nextData, by decide, rfl⟩, ⟨.responseError, by decide, rfl⟩⟩
  | reading ended => cases hn
  | resolving => cases hc
  | shutting cb => cases hc
  | shut => cases hc

theorem Net.awaits_end (hn : n.early = true) (hc : n.carries = some .read)
    (hp : n.Peer false) : Awaits .endOfStream n.socket := by
  cases n with
  | waiting => exact ⟨.closedEarly, by decide, rfl⟩
  | receiving ended =>
      cases ended with
      | false => exact ⟨.endRead, by decide, rfl⟩
      | true => cases hp
  | reading ended => cases hn
  | _ => cases hc

/-- In the early phases everything in flight is listened for. -/
theorem Alive.attended (h : Alive D n f w) (hn : n.early = true)
    (honly : T.Only n.carries w.sock) : Attended T w := by
  have hresolver : w.owner.resolver = n.resolver := h.online.line.resolver
  have hsocket : w.owner.socket = n.socket := h.online.line.socket
  have hpeer : n.Peer w.owner.peerEnded := h.online.line.peer
  have hfile : w.owner.file = f.file := h.pipe.file
  refine ⟨fun hsome => ?_, fun op hop => ?_, fun hop hnot => ?_,
    fun op hop => ?_⟩
  · rw [hresolver] at hsome ⊢
    exact Net.heard_resolver hsome
  · rw [hsocket]
    exact Net.heard hn (honly op hop)
  · rw [hsocket]
    rw [hnot] at hpeer
    exact Net.awaits_end hn (honly .read hop) hpeer
  · obtain ⟨index, hop⟩ := List.getElem?_of_mem hop
    rw [hfile]
    exact (h.pipe.inFlight hop).1.heard

/-! ## Steps -/

/-- What an event makes of a download before its response is complete. -/
inductive Attends (T : Traffic S) (w' : World S P) : Prop
  | alive {n : Net} {f : Fil} : n.early = true → T.Only n.carries w'.sock →
      Alive (anything S) n f w' → Attends T w'
  | failed : Failed w' → Attends T w'
  | lapsed : Lapsed .none w' → Attends T w'

variable [HttpParser P]

/-- The operation of the file the chunks of a response call for raises its error
in the call. -/
def Refused (w : World S P) (r : List Bytes × ResponseParseResult) : Prop :=
  r.1 ≠ [] ∧ w.owner.fileOperationStarted = false ∧
    w.owner.faults.file[0]?.join ≠ none

/-- The response is complete, or is a redirection, and the socket gets shut
down. -/
def Shuts (w : World S P) (event : Event) : Prop :=
  ∃ r, parsed w event = some r ∧ Minding.Ends r.2 ∧ ¬ Refused w r

/-- The read timeout cannot be armed, and there is a file. -/
def LapsesBusy (w : World S P) (event : Event) : Prop :=
  ∃ r, parsed w event = some r ∧ r.2.state = .inProgress ∧
    w.owner.faults.timer.head?.join ≠ none ∧
    (r.1 ≠ [] ∨ w.owner.file.isSome = true) ∧ ¬ Refused w r

section

variable {f : Fil} {w : World S P}

theorem attends_deaf {event : SocketEvent}
    (h : Alive (anything S) n f w) (hn : n.early = true)
    (honly : T.Only n.carries w.sock) (ht : n.socket.taken event.kind = []) :
    Attends T (onSocketEvent event w) := by
  rw [h.online.deaf ht]
  exact .alive hn honly h

theorem attends_connected (h : Alive (anything S) n f w)
    (hn : n.early = true) (honly : T.Only n.carries w.sock)
    (hended : ¬ T.carries .connect w.sock) :
    Attends T (onSocketEvent .connectEvent w) := by
  cases n with
  | connecting ip =>
      obtain rfl := h.file_none rfl
      have hs : w.owner.socket = (Net.connecting ip).socket :=
        h.online.line.socket
      have hfree : T.Only (some .write) w.sock := fun op hop => by
        obtain rfl := Option.some.inj (honly op hop)
        exact absurd hop hended
      have hwrites : ∀ w' : World S P, T.Only (some .write) w'.sock →
          T.Only (some .write) (onConnect w').sock := fun w' =>
        ((T.letting _).onConnect (fun data s hs op hop =>
          (T.write hop).elim (fun he => congrArg some he.symm) (hs op)) w').sock
      simp only [onSocketEvent, hs]
      rcases onConnect_launched h [.connectError ip] with ha | ⟨hf, -⟩
      · exact .alive (n := .requesting) rfl (hwrites _ hfree) ha
      · exact .failed hf
  | reading ended => cases hn
  | receiving ended => cases ended <;> exact attends_deaf h hn honly rfl
  | _ => exact attends_deaf h hn honly rfl

theorem attends_requestWritten (h : Alive (anything S) n f w)
    (hn : n.early = true) (honly : T.Only n.carries w.sock)
    (hended : ¬ T.carries .write w.sock) :
    Attends T (onSocketEvent .writeEvent w) := by
  cases n with
  | requesting =>
      obtain rfl := h.file_none rfl
      have hs : w.owner.socket = Net.requesting.socket := h.online.line.socket
      have hfree : T.Only (some .read) w.sock := fun op hop => by
        obtain rfl := Option.some.inj (honly op hop)
        exact absurd hop hended
      have hreads : ∀ w' : World S P, T.Only (some .read) w'.sock →
          T.Only (some .read) (onWriteHttpRequest w').sock := fun w' =>
        ((T.letting _).onWriteHttpRequest T.minding.read w').sock
      simp only [onSocketEvent, hs]
      rcases onWriteHttpRequest_launched h [.requestError] with ha | ⟨hf, -⟩
      · exact .alive (n := .waiting) rfl (hreads _ hfree) ha
      · exact .failed hf
  | reading ended => cases hn
  | receiving ended => cases ended <;> exact attends_deaf h hn honly rfl
  | _ => exact attends_deaf h hn honly rfl

omit [HttpParser P] in
theorem attends_resolved (h : Alive (anything S) n f w)
    (honly : T.Only n.carries w.sock)
    (hsome : w.owner.resolver.isSome = true)
    (result : Except ErrorEvent IPAddress) :
    Attends T (onResolverEvent result w) := by
  have hresolver : w.owner.resolver = n.resolver := h.online.line.resolver
  cases n with
  | resolving =>
      obtain rfl := h.file_none rfl
      have hfree : T.Only (some .connect) w.sock := fun op hop =>
        nomatch honly op hop
      have hconnects : ∀ (w' : World S P) (addr : IPAddress),
          T.Only (some .connect) w'.sock →
          T.Only (some .connect) (onResolve addr w').sock := fun w' addr =>
        ((T.letting _).onResolve (w := w') addr
          (fun s hs op hop =>
            (T.connect hop).elim (fun he => congrArg some he.symm) (hs op))
          fun s hs op hop =>
            (T.connect6 hop).elim (fun he => congrArg some he.symm)
              (hs op)).sock
      simp only [onResolverEvent, hresolver]
      cases result with
      | ok addr =>
          rcases onResolve_launched h addr with ha | ⟨hf, -⟩
          · exact .alive (n := .connecting addr.ip) rfl (hconnects _ addr hfree)
              ha
          · exact .failed hf
      | error err =>
          refine .failed ?_
          have hstate : w.owner.status.state = .onTheGo := h.online.state
          show Failed (if w.owner.status.state = .onTheGo then onError _ _
            else onErrorWithoutTick _ _)
          rw [if_pos hstate]
          exact (failing _ _).failed h.online.trace
  | _ =>
      rw [hresolver] at hsome
      exact absurd hsome Bool.false_ne_true

omit [TCPSocket S] [HttpParser P] in
/-- An operation that was not refused has found no fault. -/
theorem not_refused {w₁ : World S P} {r : List Bytes × ResponseParseResult}
    (hfaults : w₁.owner.faults = w.owner.faults)
    (hpipe : f.Holds (pipeline w))
    (hno : f.startsFor r.1 = 1 → w₁.owner.faults.file[0]?.join = none) :
    ¬ Refused w r := by
  rintro ⟨hne, hidle, hfault⟩
  rw [hfaults] at hno
  refine hfault (hno ?_)
  rw [← hpipe.startsFor_eq, if_neg (by simp [hne, hidle])]

/-- The response goes on, unless it is the end of the download. -/
theorem Reads.attends {event : Event} {w' : World S P}
    (h : Reads (anything S) f w event w') (hpipe : f.Holds (pipeline w))
    (honly : T.Only (some .read) w.sock) (hshut : ¬ Shuts w event)
    (hlapse : ¬ LapsesBusy w event) : Attends T w' := by
  cases h with
  | @intro ended parser data w₁ ha hparser hframe hparsed heq =>
  subst heq
  obtain ⟨hsock, hfaults⟩ : w₁.sock = w.sock ∧
      w₁.owner.faults = w.owner.faults := by
    obtain ⟨_, _, _, rfl⟩ := hframe
    exact ⟨rfl, rfl⟩
  have hread : Read (anything S) f (HttpParser.responseParse parser data).2 w₁
      (onRead data w₁) := onRead_read ha hparser fun _ _ _ => trivial
  generalize hr : (HttpParser.responseParse parser data).2 = r
    at hparsed hread
  have hkept : (f.startsFor r.1 = 1 → w₁.owner.faults.file[0]?.join = none) →
      ¬ Refused w r := not_refused hfaults hpipe
  cases hread with
  | @alive n' f' hfollows hno ha' =>
      cases hres : r.2.state with
      | inProgress =>
          rw [hres] at hfollows
          cases hfollows with
          | inProgress ended' =>
              have hwithin : Within (T.Only (some .read)) w₁ (onRead data w₁) := by
                refine T.minding.onRead fun parser' hp' hends => ?_
                obtain rfl := Option.some.inj (hparser.symm.trans hp')
                rw [hr] at hends
                rcases hends with he | he <;> cases hres.symm.trans he
              exact .alive (n := .receiving ended') rfl
                (hwithin.sock (hsock ▸ honly)) ha'
      | done => exact absurd ⟨r, hparsed, .inl hres, hkept hno⟩ hshut
      | redirect => exact absurd ⟨r, hparsed, .inr hres, hkept hno⟩ hshut
      | error =>
          rw [hres] at hfollows
          cases hfollows
  | failed hf _ => exact .failed hf
  | lapsed hres htimer hno hl =>
      rw [hfaults] at htimer
      by_cases hbusy : r.1 ≠ [] ∨ w.owner.file.isSome = true
      · exact absurd ⟨r, hparsed, hres, htimer, hbusy, hkept hno⟩ hlapse
      · obtain ⟨hnil, hnone⟩ := not_or.mp hbusy
        have hf : f = .none := by
          have hfile : w.owner.file = f.file := hpipe.file
          rw [hfile] at hnone
          cases f <;> first | rfl | exact absurd rfl hnone
        subst hf
        rw [not_not.mp hnil] at hl
        exact .lapsed hl

theorem attends_ended (h : Alive (anything S) n f w) (hn : n.early = true)
    (honly : T.Only n.carries w.sock)
    (hshut : ¬ Shuts w (.socket .endEvent))
    (hlapse : ¬ LapsesBusy w (.socket .endEvent)) :
    Attends T (onSocketEvent .endEvent { w with owner.peerEnded := true }) := by
  cases n with
  | waiting =>
      have hs : w.owner.socket = Net.waiting.socket := h.online.line.socket
      simp only [onSocketEvent, hs]
      exact .failed ((failing _ _).failed h.online.trace)
  | receiving ended =>
      cases ended with
      | false => exact h.readsEnd.attends h.pipe honly hshut hlapse
      | true => exact attends_deaf (h.noteEnd rfl) hn honly rfl
  | reading ended => cases hn
  | _ => exact attends_deaf (h.noteEnd trivial) hn honly rfl

omit [HttpParser P] in
theorem attends_timer (h : Alive (anything S) n f w) (hn : n.early = true)
    (honly : T.Only n.carries w.sock) : Attends T (onTimerEvent w) := by
  have htimer : n.Timed w.owner.netTimer := h.online.line.netTimer
  have hfires : (∃ text, w.owner.netTimer = some [.runError, .timeout text]) →
      Attends T (onTimerEvent w) := by
    rintro ⟨text, ht⟩
    simp only [onTimerEvent, ht]
    exact .failed ((failing text _).failed h.online.trace)
  cases n with
  | resolving =>
      have ht : w.owner.netTimer = some [] := htimer
      simp only [onTimerEvent, ht]
      exact .alive (n := .resolving) rfl honly ⟨⟨⟨h.online.line.resolver,
        h.online.line.socket, rfl, h.online.line.parsing,
        h.online.line.receiveDone, h.online.line.connected,
        h.online.line.peer⟩, h.online.state, h.online.trace⟩, h.pipe, h.body,
        h.ending, h.flows, h.stuck⟩
  | reading ended => cases hn
  | shutting cb => cases hn
  | shut => cases hn
  | _ => exact hfires htimer

omit [HttpParser P] in
/-- A completion of the file leaves the socket with a read at most. -/
theorem attends_fileDone (h : Alive (anything S) n f w) (hn : n.early = true)
    (honly : T.Only n.carries w.sock) {index size : Nat} {op : FileOp}
    (hop : w.owner.fileOps[index]? = some op) (hsize : size ≤ op.size) :
    Attends T (onFileDone op size (completed index w)) := by
  cases h.fileDone hop hsize (fun _ hstall => hstall.2.2.2 trivial) with
  | alive ha =>
      have hfile : f ≠ .none := by
        rintro rfl
        cases (h.pipe.inFlight hop).1
      have hcarries := Net.carries_of_bodily hn (h.body hfile)
      refine .alive hn ?_ ha
      rw [hcarries] at honly ⊢
      exact (T.minding.reading.onFileDone op size (completed index w)).sock honly
  | failed hf _ => exact .failed hf
  | reported hshut _ =>
      subst hshut
      cases hn

/-- Any event before the response is complete. -/
theorem attends_handled {w' : World S P} {event : Event}
    (h : Alive (anything S) n f w) (hn : n.early = true)
    (honly : T.Only n.carries w.sock)
    (hended : ∀ op, event.completes = some op → ¬ T.carries op w.sock)
    (hshut : ¬ Shuts w event) (hlapse : ¬ LapsesBusy w event)
    (hw : Handled w event w') : Attends T w' := by
  cases hw with
  | resolver result hsome => exact attends_resolved h honly hsome result
  | data data hpeer =>
      cases n with
      | waiting =>
          exact (h.readsFirst hpeer).attends h.pipe honly hshut hlapse
      | receiving ended =>
          have hend : w.owner.peerEnded = ended := h.online.line.peer
          rw [hpeer] at hend
          subst hend
          exact h.readsNext.attends h.pipe honly hshut hlapse
      | reading ended => cases hn
      | _ => exact attends_deaf h hn honly rfl
  | ended => exact attends_ended h hn honly hshut hlapse
  | socket event hdata hend =>
      cases event with
      | errorEvent err =>
          rcases h.online.onSocketError err with ⟨-, hf⟩ | hsame
          · exact .failed (hf.failed h.online.trace)
          · have hdeaf : onSocketEvent (.errorEvent err) w = w := hsame
            rw [hdeaf]
            exact .alive hn honly h
      | connectEvent => exact attends_connected h hn honly (hended _ rfl)
      | writeEvent => exact attends_requestWritten h hn honly (hended _ rfl)
      | dataEvent data => exact absurd rfl hdata
      | endEvent => exact absurd rfl hend
      | shutdownEvent =>
          refine attends_deaf h hn honly ?_
          cases n with
          | receiving ended => cases ended <;> rfl
          | reading ended => cases hn
          | shutting cb => cases hn
          | _ => rfl
      | closeEvent =>
          refine attends_deaf h hn honly ?_
          cases n with
          | receiving ended => cases ended <;> rfl
          | reading ended => cases hn
          | _ => rfl
  | timer _ => exact attends_timer h hn honly
  | fileFailed err hop => exact .failed (h.fileFailed hop err).1
  | fileDone hop hsize => exact attends_fileDone h hn honly hop hsize
  | stop _ => exact .failed ((failing _ w).failed h.online.trace)

end

/-! ## Runs -/

/-- The response is not complete, and no read timeout takes a file away. -/
def Answering (w : World S P) (o : Occurrence S) : Prop :=
  ¬ Shuts (found w o) o.event ∧ ¬ LapsesBusy (found w o) o.event

instance (w : World S P) (r : List Bytes × ResponseParseResult) :
    Decidable (Refused w r) :=
  inferInstanceAs (Decidable (_ ∧ _ ∧ _))

instance (result : ResponseParseResult) : Decidable (Minding.Ends result) :=
  inferInstanceAs (Decidable (_ ∨ _))

instance (w : World S P) (event : Event) : Decidable (Shuts w event) :=
  inferInstanceAs (Decidable (∃ r ∈ parsed w event, _ ∧ _))

instance (w : World S P) (event : Event) : Decidable (LapsesBusy w event) :=
  inferInstanceAs (Decidable (∃ r ∈ parsed w event, _ ∧ _ ∧ _ ∧ _))

instance (w : World S P) (o : Occurrence S) : Decidable (Answering w o) :=
  inferInstanceAs (Decidable (_ ∧ _))

/-- Nothing is in flight. -/
structure Bare (T : Traffic S) (w : World S P) : Prop where
  resolver : w.owner.resolver = none
  socket : T.Only none w.sock
  file : w.owner.fileOps = []

omit [HttpParser P] in
theorem Bare.attended {w : World S P} (h : Bare T w) : Attended T w := by
  refine ⟨fun hsome => ?_, fun op hop => ?_, fun hop => ?_, fun op hop => ?_⟩
  · rw [h.resolver] at hsome
    cases hsome
  · cases h.socket op hop
  · cases h.socket .read hop
  · rw [h.file] at hop
    cases hop

omit [HttpParser P] in
theorem Lapsed.bare {w : World S P} (h : Lapsed .none w) : Bare T w := by
  obtain ⟨w₀, hf, hd⟩ := h.left
  obtain ⟨sock, hsock⟩ := h.sock
  refine ⟨h.resolver, fun op hop => ?_, ?_⟩
  · rw [hsock] at hop
    exact absurd hop T.close
  · rw [(hd.letGo hf.openned).2]
    exact hf.stored.1

theorem Bare.handled {w w' : World S P} {event : Event} (h : Bare T w)
    (hc : Ceased w) (hw : Handled w event w') : Bare T w' := by
  have hidle : ∀ {index : Nat} {op : FileOp},
      w.owner.fileOps[index]? ≠ some op := by
    intro index op hop
    rw [h.file] at hop
    cases hop
  cases hc.past.net.late (hw.not_stop hc.reported) hw with
  | unheard hunheard =>
      obtain ⟨-, hresolver, -, resolver, socket, netTimer, timerArmed,
        peerEnded, rfl⟩ := hunheard
      exact ⟨hresolver h.resolver, h.socket, h.file⟩
  | fileFailed err hop => exact absurd hop hidle
  | fileDone hop hsize => exact absurd hop hidle

/-- What holds of every state until the response is complete. -/
inductive Tuned (T : Traffic S) (w : World S P) : Prop
  | alive {n : Net} {f : Fil} : n.early = true → T.Only n.carries w.sock →
      Alive (anything S) n f w → Tuned T w
  | failed : Ceased w → w.owner.status.state = .failed → Tuned T w
  | bare : Ceased w → Bare T w → Tuned T w

omit [HttpParser P] in
theorem Attends.tuned {w : World S P} (h : Attends T w) : Tuned T w := by
  cases h with
  | alive hn honly ha => exact .alive hn honly ha
  | failed hf => exact .failed hf.ceased hf.state
  | lapsed hl => exact .bare hl.ceased hl.bare

omit [HttpParser P] in
theorem Tuned.attended {w : World S P} (h : Tuned T w)
    (hgoes : w.owner.status.state.final = false) : Attended T w := by
  cases h with
  | alive hn honly ha => exact ha.attended hn honly
  | failed _ hstate =>
      rw [hstate] at hgoes
      cases hgoes
  | bare _ hb => exact hb.attended

omit [HttpParser P] in
theorem Traffic.Passes.only {w : World S P} {o : Occurrence S}
    (h : T.Passes w o) {op : Option SocketOp} (honly : T.Only op w.sock) :
    T.Only op (found w o).sock :=
  fun op' hop => honly op' (h op' hop).1

theorem Tuned.step {w w' : World S P} {o : Occurrence S} (h : Tuned T w)
    (hpass : T.Passes w o) (hanswer : Answering w o)
    (hs : Lib.Graph step w o w') : Tuned T w' := by
  have hh : Handled (found w o) o.event w' := handled_of_handle hs
  cases h with
  | alive hn honly ha =>
      refine (attends_handled (ha.found trivial) hn (hpass.only honly)
        (fun op hop hc => ?_) hanswer.1 hanswer.2 hh).tuned
      exact (hpass op hc).2 hop
  | failed hc hstate =>
      obtain ⟨hc', hunseen⟩ := (hc.found o).handled hh
      exact .failed hc' (hunseen.state.trans hstate)
  | bare hc hb =>
      have hb' : Bare T (found w o) :=
        ⟨hb.resolver, hpass.only hb.socket, hb.file⟩
      exact .bare ((hc.found o).handled hh).1 (hb'.handled (hc.found o) hh)

/-- In a run of a downloader over a fresh socket in which the response is not
yet complete, and no read timeout takes a file away, every operation in flight
of a state that is not final is listened for. -/
theorem listeners_in_place {w₀ w : World S P}
    {hist : List (World S P × Occurrence S)} (h₀ : Started w₀)
    (hfresh : ∀ op, ¬ T.carries op w₀.sock) (hr : T.Runs w₀ hist w)
    (hC : Meets Answering hist) :
    ∀ x, Passes hist w x → x.owner.status.state.final = false →
      Attended T x := by
  intro x hx
  refine (hr.always (P := Tuned T) hC (fun hr' hC' => ?_) hx).attended
  refine hr'.invariant (Tuned T) hC' ?_ ?_
  · exact .alive rfl (fun op hop => absurd hop (hfresh op)) (started_alive h₀)
  · intro w₁ o w₂ hI ho hs
    exact hI.step hs.2 ho hs.1

/-! ## A socket that keeps count -/

/-- A socket as its operations in flight. -/
structure Wire where
  flight : List SocketOp := []
  deriving DecidableEq

instance : TCPSocket Wire where
  connect _ _ s := ⟨.connect :: s.flight⟩
  connect6 _ _ s := ⟨.connect :: s.flight⟩
  write _ s := ⟨.write :: s.flight⟩
  read s := ⟨.read :: s.flight⟩
  stop s := ⟨s.flight.filter (· ≠ .read)⟩
  shutdown s := ⟨.shutdown :: s.flight⟩
  close _ := ⟨[]⟩
  active s := s.flight.contains .read

def Wire.traffic : Traffic Wire where
  carries op s := op ∈ s.flight
  connect h := List.mem_cons.mp h
  connect6 h := List.mem_cons.mp h
  write h := List.mem_cons.mp h
  read h := List.mem_cons.mp h
  shutdown h := List.mem_cons.mp h
  stop h := List.mem_of_mem_filter h
  close h := List.not_mem_nil h

instance {P : Type} (w : World Wire P) (o : Occurrence Wire) :
    Decidable (Wire.traffic.Passes w o) :=
  inferInstanceAs (Decidable (∀ op ∈ o.sock.flight,
    op ∈ w.sock.flight ∧ o.event.completes ≠ some op))

/-- A downloader after `run("http://www.internet.org/", "f")`. -/
def wired (script : List (List Bytes × ResponseParseResult)) :
    World Wire (Scripted script) :=
  (run "http://www.internet.org/" "f" {} none
    { sock := {}, owner := {} }).2

theorem started_wired (script : List (List Bytes × ResponseParseResult)) :
    Started (wired script) :=
  ⟨{}, 10, "http://www.internet.org/", "f", {}, none, rfl⟩

theorem wired_fresh (script : List (List Bytes × ResponseParseResult)) :
    ∀ op, ¬ Wire.traffic.carries op (wired script).sock :=
  fun _ hop => List.not_mem_nil hop

/-- An event that starts nothing that fails, and what it finds in flight. -/
def finding (flight : List SocketOp) (event : Event) : Occurrence Wire :=
  { event := event, sock := ⟨flight⟩ }

/-- The first bytes of a response. -/
def answered : List (Occurrence Wire) :=
  [finding [] (.resolver (.ok {})), finding [] (.socket .connectEvent),
    finding [] (.socket .writeEvent),
    finding [.read] (.socket (.dataEvent oneByte))]

/-- The response is complete, and nobody listens for an error of the
shutdown. -/
theorem listeners_in_place_shutting :
    ¬ ∀ (w₀ w : World Wire (Scripted oneSegment))
      (hist : List (World Wire (Scripted oneSegment) × Occurrence Wire)),
      Started w₀ → (∀ op, ¬ Wire.traffic.carries op w₀.sock) →
      Wire.traffic.Runs w₀ hist w → ∀ x, Passes hist w x →
      x.owner.status.state.final = false → Attended Wire.traffic x := by
  intro hall
  obtain ⟨hist, w, hexec, hgoes, hsocket, hflight, hpass⟩ : ∃ hist w,
      exec step (wired oneSegment) answered = some (hist, w) ∧
        w.owner.status.state.final = false ∧
        w.owner.socket = some [.shutdownDone .reportDone] ∧
        SocketOp.shutdown ∈ w.sock.flight ∧
        Meets Wire.traffic.Passes hist :=
    ⟨_, _, rfl, rfl, rfl, by decide, by
      unfold Meets
      decide⟩
  have hattended := hall (wired oneSegment) w hist (started_wired oneSegment)
    (wired_fresh oneSegment) ((run_of_exec hexec).restrict hpass) w .last hgoes
  obtain ⟨l, hl, hkind⟩ := (hattended.socket .shutdown hflight).2
  rw [hsocket] at hl
  obtain rfl := List.mem_singleton.mp hl
  cases hkind

/-- A response of which one byte of the body has come. -/
def halfway : List (List Bytes × ResponseParseResult) :=
  [([[120]], { state := .inProgress, contentLength := 2 })]

/-- The byte is being written, and more is awaited. -/
theorem listeners_in_place_writing : ∃ hist w,
    Wire.traffic.Runs (wired halfway) hist w ∧
      w.owner.fileOps = [.write [120] 0] ∧ w.sock.flight = [.read] ∧
      Attended Wire.traffic w := by
  obtain ⟨hist, w, hexec, hgoes, hops, hflight, hpass, hC⟩ : ∃ hist w,
      exec step (wired halfway)
          (answered ++ [finding [.read] (.file 0 (.ok 0))]) =
        some (hist, w) ∧
        w.owner.status.state.final = false ∧
        w.owner.fileOps = [.write [120] 0] ∧ w.sock.flight = [.read] ∧
        Meets Wire.traffic.Passes hist ∧ Meets Answering hist :=
    ⟨_, _, rfl, rfl, rfl, rfl, by
      unfold Meets
      decide, by
      unfold Meets
      decide⟩
  have hr : Wire.traffic.Runs (wired halfway) hist w :=
    (run_of_exec hexec).restrict hpass
  exact ⟨hist, w, hr, hops, hflight,
    listeners_in_place (started_wired halfway) (wired_fresh halfway) hr hC w
      .last hgoes⟩

end DownloaderSimple

end EcwidDownloader
