import EcwidDownloader.Proofs.DoneReport
import EcwidDownloader.Proofs.FlowControl
import EcwidDownloader.Proofs.ResponseBody

/-!
# Before the request is written

Until its request is written a downloader asks the socket for a connection and
to write, and never to read. So a socket that does not read by itself has not
delivered anything when the first stage of a reception ends.
-/

namespace EcwidDownloader

open Lib

namespace DownloaderSimple

variable {S P : Type}

/-! ## Until the request is written -/

/-- The socket is asked for anything but to read. -/
structure Opening [TCPSocket S] (Q : S → Prop) : Prop extends Letting Q where
  connect : ∀ ip port s, Q s → Q (TCPSocket.connect ip port s)
  connect6 : ∀ ip port s, Q s → Q (TCPSocket.connect6 ip port s)
  write : ∀ data s, Q s → Q (TCPSocket.write data s)

theorem NetSilent.not_early {w : World S P} (h : NetSilent w) : ¬ Early w := by
  unfold Early listens
  rw [h.resolver, h.socket]
  simp

theorem Online.not_early {n : Net} {w : World S P} (h : Online n w)
    (hn : n.bodily = true ∨ n = .waiting) : ¬ Early w := by
  have hresolver : w.owner.resolver = n.resolver := h.line.resolver
  unfold Early
  rw [h.listens_iff, h.listens_iff, hresolver]
  rcases hn with hn | rfl
  · cases n with
    | reading ended => cases ended <;> simp [Net.socket, Net.resolver]
    | receiving ended => cases ended <;> simp [Net.socket, Net.resolver]
    | shutting cb => simp [Net.socket, Net.resolver]
    | shut => simp [Net.socket, Net.resolver]
    | _ => cases hn
  · simp [Net.socket, Net.resolver]

theorem Follows.bodily {state : ParseState} {n : Net} (h : Follows state n) :
    n.bodily = true := by
  cases h <;> rfl

variable [TCPSocket S]

section

variable [HttpParser P] {D : Demands S} {f : Fil} {w w' : World S P}
  {event : Event}

theorem Reads.not_early (h : Reads D f w event w') : ¬ Early w' := by
  obtain @⟨_, _, data, w₁, ha, hparser, -, -, rfl⟩ := h
  have hread : Read (anything S) f _ w₁ (onRead data w₁) :=
    onRead_read ha.unasked hparser fun _ _ _ => trivial
  cases hread with
  | alive hn _ ha' =>
      exact ha'.online.not_early (.inl hn.bodily)
  | failed hf _ _ => exact hf.past.net.not_early
  | lapsed _ _ _ hl => exact hl.past.net.not_early

omit [HttpParser P] in
/-- Without a file nothing of it is in flight. -/
theorem Alive.fileOps_nil {n : Net} (h : Alive D n f w)
    (hn : n.bodily = false) : w.owner.fileOps = [] := by
  obtain rfl := h.file_none hn
  exact h.pipe.stored.1

theorem Alive.waiting_step (h : Alive D .waiting f w)
    (hh : Handled w event w') : ¬ Early w' := by
  have hs : w.owner.socket = Net.waiting.socket := h.online.line.socket
  have hfails : ∀ (text : String) (w₁ : World S P), ¬ Early (onError text w₁) :=
    fun text w₁ => (failing text w₁).past.net.not_early
  have hops := h.fileOps_nil rfl
  cases hh with
  | resolver result hsome =>
      rw [show w.owner.resolver = none from h.online.line.resolver] at hsome
      cases hsome
  | data data hpeer => exact (h.readsFirst hpeer).not_early
  | ended =>
      simp only [DownloaderSimple.onSocketEvent, hs]
      exact hfails _ _
  | socket event hdata hend =>
      have hsame : ¬ Early w := h.online.not_early (.inr rfl)
      cases event with
      | errorEvent err =>
          rcases h.online.onSocketError err with ⟨-, hf⟩ | hdeaf
          · exact hf.past.net.not_early
          · show ¬ Early (DownloaderSimple.onSocketError err w)
            rw [hdeaf]
            exact hsame
      | dataEvent data => exact absurd rfl hdata
      | endEvent => exact absurd rfl hend
      | _ =>
          rw [h.online.deaf rfl]
          exact hsame
  | timer _ =>
      obtain ⟨text, ht⟩ : ∃ text, w.owner.netTimer =
        some [.runError, .timeout text] := h.online.line.netTimer
      simp only [DownloaderSimple.onTimerEvent, ht]
      exact hfails _ _
  | fileFailed err hop => rw [hops] at hop; cases hop
  | fileDone hop _ => rw [hops] at hop; cases hop
  | stop _ => exact hfails _ w

/-- Before its request is written a downloader does not ask the socket to
read. -/
theorem Alive.opening_step {Q : S → Prop} {n : Net} (hQ : Opening Q)
    (h : Alive D n f w) (hn : n.bodily = false) (hq : Early w → Q w.sock)
    (hh : Handled w event w') (hearly : Early w') : Q w'.sock := by
  have hops := h.fileOps_nil hn
  by_cases hwait : n = .waiting
  · subst hwait
    exact absurd hearly (h.waiting_step hh)
  replace hq : Q w.sock :=
    hq ((h.online.waiting_or_early hn).resolve_left hwait)
  cases hh with
  | resolver result hsome =>
      have hresolver : w.owner.resolver = n.resolver := h.online.line.resolver
      cases n with
      | resolving =>
          simp only [DownloaderSimple.onResolverEvent, hresolver]
          cases result with
          | ok addr =>
              exact (hQ.onResolve (w := { w with owner.resolver := none }) addr
                (hQ.connect _ _) (hQ.connect6 _ _)).sock hq
          | error err =>
              have hstate : w.owner.status.state = .onTheGo := h.online.state
              show Q (if w.owner.status.state = .onTheGo then
                onError _ _ else onErrorWithoutTick _ _).sock
              rw [if_pos hstate]
              exact (hQ.onError _ { w with owner.resolver := none }).sock hq
      | _ =>
          rw [hresolver] at hsome
          cases hsome
  | data data _ =>
      have hdeaf : n.socket.taken (SocketEvent.dataEvent data).kind = [] := by
        cases n <;> first | rfl | exact absurd rfl hwait | cases hn
      rw [h.online.deaf hdeaf]
      exact hq
  | ended =>
      have hnoted : Online n { w with owner.peerEnded := true } :=
        (h.noteEnd (by cases n <;> trivial)).online
      have hdeaf : n.socket.taken SocketEvent.endEvent.kind = [] := by
        cases n with
        | waiting => exact absurd rfl hwait
        | reading ended | receiving ended | shutting cb | shut => cases hn
        | _ => rfl
      rw [hnoted.deaf hdeaf]
      exact hq
  | socket event hdata hend =>
      cases event with
      | errorEvent err => exact (hQ.onSocketError err w).sock hq
      | connectEvent =>
          cases n with
          | connecting ip =>
              have hs : w.owner.socket = (Net.connecting ip).socket :=
                h.online.line.socket
              simp only [DownloaderSimple.onSocketEvent, hs]
              exact (hQ.onConnect hQ.write
                { w with owner.socket := some [.connectError ip] }).sock hq
          | reading ended | receiving ended | shutting cb | shut => cases hn
          | _ => rw [h.online.deaf rfl]; exact hq
      | writeEvent =>
          cases n with
          | requesting =>
              obtain rfl := h.file_none rfl
              have hs : w.owner.socket = Net.requesting.socket :=
                h.online.line.socket
              simp only [DownloaderSimple.onSocketEvent, hs] at hearly
              rcases onWriteHttpRequest_launched h.unasked [.requestError] with
                ha | ⟨hf, -⟩
              · exact absurd hearly (ha.online.not_early (.inr rfl))
              · exact absurd hearly hf.past.net.not_early
          | reading ended | receiving ended | shutting cb | shut => cases hn
          | _ => rw [h.online.deaf rfl]; exact hq
      | dataEvent data => exact absurd rfl hdata
      | endEvent => exact absurd rfl hend
      | _ =>
          rw [h.online.deaf (by cases n <;> first | rfl | cases hn)]
          exact hq
  | timer _ => exact (hQ.onTimerEvent w).sock hq
  | fileFailed err hop => rw [hops] at hop; cases hop
  | fileDone hop _ => rw [hops] at hop; cases hop
  | stop _ => exact (hQ.onError _ w).sock hq

end

/-! ## The stages of a reception -/

theorem Past.not_early {w : World S P} (h : Past w) : ¬ Early w := by
  rcases h with ⟨n, f, hn, ha⟩ | hadrift
  · exact ha.online.not_early (.inl (by cases n <;> first | rfl | cases hn))
  · exact hadrift.net.not_early

variable {L : Type} [Http.HttpParserLibrary L]

section

variable {Q : S → Prop}
  {w w' : World S (Http.LibraryParser L)} {event : Event} {stream : Bytes}

/-- Nothing of the stream has come to a downloader that has not written its
request. -/
theorem Fetching.stream_nil (h : Fetching stream w) (hearly : Early w) :
    stream = [] := by
  cases h with
  | begun _ _ _ _ hs => exact hs
  | receiving ha _ _ _ _ _ =>
      exact absurd hearly (ha.online.not_early (.inl rfl))
  | past _ _ hpast _ _ _ _ => exact absurd hearly hpast.not_early

theorem Fetching.opening (hQ : Opening Q) (h : Fetching stream w)
    (hq : Early w → Q w.sock) (hh : Handled w event w')
    (h' : Fetching (stream ++ brings event) w') (hearly : Early w') :
    Q w'.sock := by
  cases h with
  | begun _ hb ha _ _ => exact ha.opening_step hQ hb hq hh hearly
  | receiving ha _ hne hpieces _ hs =>
      have hnil : stream = [] := (List.append_eq_nil_iff.mp
        (h'.stream_nil hearly)).1
      obtain ⟨data, rest, rfl⟩ := List.exists_cons_of_ne_nil hne
      rw [hnil, List.flatten_cons] at hs
      exact absurd (List.append_eq_nil_iff.mp hs).1
        (hpieces data List.mem_cons_self)
  | past _ _ hpast hp _ _ _ =>
      exact absurd hearly (hpast.handled hp hh).1.not_early

end

/-- What the socket of a run has delivered. -/
def brought {P : Type} (heard : List (World S P × Occurrence S)) : Bytes :=
  heard.flatMap fun p => brings p.2.event

omit [TCPSocket S] in
theorem brought_snoc {P : Type} (heard : List (World S P × Occurrence S))
    (w : World S P) (o : Occurrence S) :
    brought (heard ++ [(w, o)]) = brought heard ++ brings o.event := by
  simp [brought]

/-- How far a downloader is that has heard a number of events. -/
theorem Fetching.run {w₀ w : World S (Http.LibraryParser L)}
    {heard : List (World S (Http.LibraryParser L) × Occurrence S)}
    (h₀ : Started w₀) (hr : Runs w₀ heard w) (hcomes : Meets Comes heard) :
    Fetching (brought heard) w := by
  induction hr with
  | nil => exact h₀.fetching
  | snoc hr hs ih =>
      obtain ⟨hcomes, hlast⟩ := Meets.snoc_iff.mp hcomes
      rw [brought_snoc]
      exact (ih hcomes).step hs hlast

end DownloaderSimple

end EcwidDownloader
