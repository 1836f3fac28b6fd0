import EcwidDownloader.Proofs.DownloaderUnparsed
import EcwidDownloader.Proofs.FileContent
import EcwidDownloader.Proofs.FinishedFile
import EcwidDownloader.Proofs.ResponseFragments

/-!
# What is received of a response

A downloader whose socket delivers a stream makes of it calls of the parser: one
for each portion that comes while it listens, and one without data when the
stream ends. Until the parser has come to a result the calls make up all of the
stream; after that what still comes is dropped. So what was received is at any
time what the parser gives for some first part of the stream, and what the
downloader reports is the result it has come to. Data that comes before the
request was written would be lost, so the stream must not begin earlier.
-/

namespace EcwidDownloader

open Lib

namespace Http

/-! ## The body only grows -/

open ResponseParser

theorem callback_data (cb : HttpCallback) (p : ResponseParser) :
    p.data <+: (p.callback cb).data := by
  have h := callback_effect cb p
  obtain ⟨q, hq⟩ : ∃ q, q = p.callback cb := ⟨_, rfl⟩
  rw [← hq] at h ⊢
  cases h with
  | body data => exact List.prefix_append _ _
  | field _ ha | value _ ha => exact ha.data ▸ List.prefix_refl _
  | complete _ ha _ _ | located _ ha _ _ _ | missing _ ha _ _ _ =>
      exact ha.data ▸ List.prefix_refl _
  | _ => exact List.prefix_refl _

theorem callbacks_data : ∀ (cbs : List HttpCallback) (p : ResponseParser),
    p.data <+: (p.callbacks cbs).data
  | [], _ => List.prefix_refl _
  | cb :: cbs, p => by
      unfold callbacks
      split
      · exact (callback_data cb p).trans (callbacks_data cbs _)
      · exact List.prefix_refl _

variable {L : Type} [HttpParserLibrary L]

theorem responseParse_data (p : LibraryParser L) (data : Bytes) :
    p.data <+: (LibraryParser.responseParse p data).data := by
  unfold LibraryParser.responseParse LibraryParser.execute
  simp only [settle_data]
  split
  · simp only [(endWith_result _ _).2]
    exact callbacks_data _ _
  · exact List.prefix_refl _

theorem foldl_data : ∀ (calls : List Bytes) (p : LibraryParser L),
    p.data <+: (calls.foldl LibraryParser.responseParse p).data
  | [], _ => List.prefix_refl _
  | data :: calls, p =>
      (responseParse_data p data).trans (foldl_data calls _)

theorem parse_data (before after : List Bytes) :
    (LibraryParser.parse before : LibraryParser L).data <+:
      (LibraryParser.parse (before ++ after) : LibraryParser L).data := by
  rw [parse_append]
  exact foldl_data after _

end Http

namespace DownloaderSimple

variable {S L : Type} [Http.HttpParserLibrary L]

open Http (LibraryParser)

/-! ## The calls of the parser -/

/-- The reception of a response that the parser was called with so far: what is
said about the response, by a listener or in a report, is what the parser says. -/
structure Reception.Parsed (calls : List Bytes)
    (a : Reception (LibraryParser L)) : Prop where
  parser : a.parser =
    if calls = [] then none else some (LibraryParser.parse calls)
  received : a.received = (LibraryParser.parse calls : LibraryParser L).data.flatten
  done : a.receiveDone = true →
    (LibraryParser.parse calls : LibraryParser L).result.state = .done
  finish : .shutdownDone .reportDone ∈ a.socket.getD [] → a.receiveDone = true
  redirect : .shutdownDone .reportRedirect ∈ a.socket.getD [] →
    (LibraryParser.parse calls : LibraryParser L).result.state = .redirect ∧
      a.redirectUri =
        (LibraryParser.parse calls : LibraryParser L).result.redirectUri
  file : .closed ∈ a.file.getD [] → a.receiveDone = true
  marks : ∀ m ∈ a.trace,
    ((Mark.report m).state = .done →
      a.receiveDone = true ∧ (Mark.report m).received = a.received) ∧
    ((Mark.report m).state = .redirect →
      (LibraryParser.parse calls : LibraryParser L).result.state = .redirect ∧
        a.redirectUri =
          (LibraryParser.parse calls : LibraryParser L).result.redirectUri)

section

variable {calls : List Bytes} {a b : Reception (LibraryParser L)}

theorem Reception.Parsed.unparsed (h : a.Parsed calls) (h' : a.Unparsed b) :
    b.Parsed calls where
  parser := h'.parser.trans h.parser
  received := h'.received.trans h.received
  done hd := h.done (h'.receiveDone ▸ hd)
  finish hl := h'.receiveDone.trans
    (h.finish ((h'.socket _ hl).resolve_right nofun))
  redirect hl := by
    obtain ⟨hstate, huri⟩ := h.redirect ((h'.socket _ hl).resolve_right nofun)
    exact ⟨hstate, h'.redirectUri.trans huri⟩
  file hc := h'.receiveDone.trans ((h'.file hc).elim h.file id)
  marks m hm := by
    rcases h'.marks m hm with hm | ht
    · obtain ⟨hdone, hredirect⟩ := h.marks m hm
      refine ⟨fun hd => ?_, fun hr => ?_⟩
      · obtain ⟨hr, hreceived⟩ := hdone hd
        exact ⟨h'.receiveDone.trans hr, hreceived.trans h'.received.symm⟩
      · obtain ⟨hstate, huri⟩ := hredirect hr
        exact ⟨hstate, h'.redirectUri.trans huri⟩
    · refine ⟨fun hd => ?_, fun hr => absurd hr ht.redirect⟩
      obtain ⟨hr, hreceived⟩ := ht.done hd
      exact ⟨h'.receiveDone.trans hr, hreceived.trans h'.received.symm⟩

theorem responseParse_parse (calls : List Bytes) (data : Bytes) :
    LibraryParser.responseParse
        (LibraryParser.parse calls : LibraryParser L) data =
      LibraryParser.parse (calls ++ [data]) :=
  (Http.parse_append calls [data]).symm

theorem result_parse (calls : List Bytes) (data : Bytes) :
    (LibraryParser.parse (calls ++ [data]) : LibraryParser L).result =
      (HttpParser.responseParse
        (LibraryParser.parse calls : LibraryParser L) data).2.2 :=
  congrArg (fun p : LibraryParser L => p.result)
    (responseParse_parse calls data).symm

/-- The parser is called once more, by a downloader that has come to no result. -/
theorem Reception.Parsed.takes (calls : List Bytes) {data : Bytes}
    (h : a.Takes (HttpParser.responseParse
      (LibraryParser.parse calls : LibraryParser L) data) b)
    (hreceived : a.received =
      (LibraryParser.parse calls : LibraryParser L).data.flatten)
    (hsocket : ∀ cb, .shutdownDone cb ∉ a.socket.getD [])
    (hfile : .closed ∉ a.file.getD [])
    (hmarks : ∀ m ∈ a.trace, (Mark.report m).state.final = false) :
    b.Parsed (calls ++ [data]) := by
  have hparse := responseParse_parse (L := L) calls data
  have hstate := result_parse (L := L) calls data
  refine ⟨?_, ?_, fun hd => ?_, fun hl => ?_, fun hl => ?_, fun hc => ?_,
    fun m hm => ?_⟩
  · rw [if_neg (List.append_ne_nil_of_right_ne_nil _ (List.cons_ne_nil _ _)),
      ← hparse]
    exact h.parser
  · obtain ⟨more, hmore⟩ := Http.parse_data (L := L) calls [data]
    have hchunks : (HttpParser.responseParse
        (LibraryParser.parse calls : LibraryParser L) data).2.1 = more := by
      show (LibraryParser.responseParse _ data).data.drop _ = more
      rw [hparse, ← hmore, List.drop_left]
    rw [h.received, hreceived, hchunks, ← hmore, List.flatten_append]
  · rw [hstate]
    exact h.done hd
  · exact (h.finish hl).resolve_left (hsocket _)
  · rw [hstate]
    exact (h.redirect hl).resolve_left (hsocket _)
  · exact (h.file hc).resolve_left hfile
  · rcases h.marks m hm with hm | ht
    · have hnot := hmarks m hm
      exact ⟨fun hd => absurd (hd ▸ hnot) nofun,
        fun hr => absurd (hr ▸ hnot) nofun⟩
    · exact ⟨ht.done, fun hr => absurd hr ht.redirect⟩

end

/-! ## The stages of a reception -/

/-- The bytes an event of the socket brings. -/
def brings : Event → Bytes
  | .socket (.dataEvent data) => data
  | _ => []

/-- The request has not been written yet. -/
def Early {P : Type} (w : World S P) : Prop :=
  w.owner.resolver.getD [] ≠ [] ∨ listens .connected w ∨
    listens .requestWritten w

/-- Nothing more of the response is waited for. -/
def Net.past : Net → Bool
  | .receiving true | .shutting _ | .shut => true
  | _ => false

variable [TCPSocket S]

/-- The response is over for this download, by its result or by an error. -/
def Past {P : Type} (w : World S P) : Prop :=
  (∃ n f, n.past = true ∧ Alive (anything S) n f w) ∨ Adrift (unwatched S) w

/-- How far a download is with a stream of which its socket has delivered a first
part. -/
inductive Fetching (stream : Bytes) (w : World S (LibraryParser L)) : Prop
  | begun {n : Net} {f : Fil} : n.settled = true → n.bodily = false →
      Alive (anything S) n f w → (reception w).Parsed [] → stream = [] →
      Fetching stream w
  | receiving {f : Fil} {pieces : List Bytes} :
      Alive (anything S) (.receiving false) f w →
      (reception w).Parsed pieces → pieces ≠ [] → (∀ data ∈ pieces, data ≠ []) →
      (LibraryParser.parse pieces : LibraryParser L).result.state =
        .inProgress → pieces.flatten = stream → Fetching stream w
  | past (pieces tail : List Bytes) : Past w →
      (reception w).Parsed (pieces ++ tail) → (∀ data ∈ pieces, data ≠ []) →
      pieces.flatten <+: stream →
      (tail ≠ [] → tail = [[]] ∧ pieces.flatten = stream ∧
        w.owner.peerEnded = true) → Fetching stream w

section

variable {P : Type} [HttpParser P] {w w' : World S P} {event : Event}
  {n : Net} {f : Fil}

theorem Alive.outcome (h : Alive (anything S) n f w) (hn : n.settled = true)
    (hh : Handled w event w') : Outcome (anything S) w event w' :=
  h.step hn hh (fun _ => trivial) fun _ _ _ _ hstall =>
    hstall.2.2.2 trivial

theorem Outcome.lands (h : Outcome (anything S) w event w') :
    (∃ n f, n.settled = true ∧ Alive (anything S) n f w') ∨
      Adrift (unwatched S) w' := by
  cases h with
  | alive hn ha => exact .inl ⟨_, _, hn, ha⟩
  | failed hf _ _ => exact .inr hf.adrift
  | lapsed _ hl _ => exact .inr hl.adrift
  | closed hr => exact .inr (hr.adrift rfl fun h => h.elim)
  | shutDown cb _ _ _ _ _ hr =>
      exact .inr (hr.adrift (by cases cb <;> rfl) fun h => h.elim)

theorem peerEnded_end (w : World S P) :
    (onSocketEvent .endEvent
      { w with owner.peerEnded := true }).owner.peerEnded = true := by
  have hw : Within (fun _ : S => True) { w with owner.peerEnded := true }
      (onSocketEvent .endEvent { w with owner.peerEnded := true }) :=
    abiding_true.onSocketEvent _ _
  exact congrArg Prod.fst hw.stands

theorem Handled.peerEnded (hh : Handled w event w')
    (h : w.owner.peerEnded = true) : w'.owner.peerEnded = true := by
  by_cases hend : event = .socket .endEvent
  · subst hend
    cases hh with
    | ended => exact peerEnded_end w
    | socket _ _ hne => exact absurd rfl hne
  · exact (congrArg Prod.fst (abiding_true.handled hh hend).stands).trans h

/-- The events the parser may be called for, and the others. -/
inductive Parses (w : World S P) : Event → World S P → Prop
  | data (data : Bytes) : w.owner.peerEnded = false →
      Parses w (.socket (.dataEvent data)) (onSocketEvent (.dataEvent data) w)
  | ended : Parses w (.socket .endEvent)
      (onSocketEvent .endEvent { w with owner.peerEnded := true })
  | none {event : Event} {w' : World S P} : parsed w event = .none →
      brings event = [] → Parses w event w'

theorem Handled.parses (hh : Handled w event w') : Parses w event w' := by
  cases hh with
  | data data hpeer => exact .data data hpeer
  | ended => exact .ended
  | socket event hdata hend =>
      cases event with
      | dataEvent data => exact absurd rfl hdata
      | endEvent => exact absurd rfl hend
      | _ => exact .none rfl rfl
  | _ => exact .none rfl rfl

/-- Where an event leads that leaves the parser there and nobody to hear of the
end of the stream. -/
theorem Outcome.past (h : Outcome (anything S) w event w')
    (hsome : w'.owner.httpParser.isSome = true)
    (hdeaf : ¬ listens .endRead w') : Past w' := by
  rcases h.lands with ⟨n, f, hn, ha⟩ | hadrift
  · have hbodily : n.bodily = true := ha.online.line.parsing.symm.trans hsome
    have hnot := ha.online.listens_iff.not.mp hdeaf
    refine .inl ⟨n, f, ?_, ha⟩
    cases n with
    | receiving ended =>
        cases ended with
        | true => rfl
        | false => exact absurd (by simp [Net.socket]) hnot
    | reading ended => cases hn
    | shutting cb => rfl
    | shut => rfl
    | _ => cases hbodily
  · exact .inr hadrift

omit [TCPSocket S] [HttpParser P] in
theorem Online.deaf_past (h : Online n w) (hn : n.past = true) :
    ¬ listens .endRead w := by
  rw [h.listens_iff]
  cases n with
  | receiving ended => cases ended <;> simp_all [Net.socket, Net.past]
  | shutting cb => simp [Net.socket]
  | shut => simp [Net.socket]
  | _ => cases hn

omit [TCPSocket S] [HttpParser P] in
/-- Only the phase of the shutdown waits for its end. -/
theorem Online.shutting_of_listens {cb : Callback} (h : Online n w)
    (hl : listens (.shutdownDone cb) w) : n = .shutting cb := by
  have hl' := h.listens_iff.mp hl
  cases n with
  | shutting cb' => simpa [Net.socket, eq_comm] using hl'
  | reading ended | receiving ended =>
      cases ended <;> simp [Net.socket] at hl'
  | _ => simp [Net.socket] at hl'

omit [TCPSocket S] in
theorem Online.unparsed_past (h : Online n w) (hn : n.past = true)
    (hpeer : n = .receiving true → ∀ data, event ≠ .socket (.dataEvent data)) :
    parsed w event = none := by
  unfold parsed
  split
  · next data =>
      cases n with
      | receiving ended =>
          cases ended with
          | true => exact absurd rfl (hpeer rfl data)
          | false => cases hn
      | shutting cb =>
          rw [if_neg (h.listens_iff.not.mpr (by simp [Net.socket])),
            if_neg (h.listens_iff.not.mpr (by simp [Net.socket]))]
      | shut =>
          rw [if_neg (h.listens_iff.not.mpr (by simp [Net.socket])),
            if_neg (h.listens_iff.not.mpr (by simp [Net.socket]))]
      | _ => cases hn
  · exact if_neg (h.deaf_past hn)
  · rfl

omit [TCPSocket S] [HttpParser P] in
theorem Online.not_shutting (h : Online n w) (hn : n.settled = true)
    (hp : n.past = false) (cb : Callback) : ¬ listens (.shutdownDone cb) w := by
  rw [h.listens_iff]
  cases n with
  | receiving ended => cases ended <;> simp [Net.socket]
  | reading ended => cases hn
  | shutting cb => cases hp
  | _ => simp [Net.socket]

end

variable {w w' : World S (LibraryParser L)} {event : Event} {stream : Bytes}

/-- The stage after an event that found more to come. -/
theorem Outcome.fetching (ho : Outcome (anything S) w event w')
    (pieces tail : List Bytes)
    (hp : (reception w').Parsed (pieces ++ tail)) (hne : pieces ++ tail ≠ [])
    (hpieces : ∀ data ∈ pieces, data ≠ [])
    (hnext : .nextData ∈ w'.owner.socket.getD [] →
      w'.owner.peerEnded = false → tail = [] ∧
        (LibraryParser.parse pieces : LibraryParser L).result.state =
          .inProgress)
    (hs : pieces.flatten = stream)
    (htail : tail ≠ [] → tail = [[]] ∧ w'.owner.peerEnded = true) :
    Fetching stream w' := by
  have hpast (h : Past w') : Fetching stream w' :=
    .past pieces tail h hp hpieces (hs ▸ List.prefix_refl _)
      fun ht => ⟨(htail ht).1, hs, (htail ht).2⟩
  have hsome : w'.owner.httpParser.isSome = true := by
    have hparser : w'.owner.httpParser =
        if pieces ++ tail = [] then none
        else some (LibraryParser.parse (pieces ++ tail)) := hp.parser
    rw [hparser, if_neg hne]
    rfl
  rcases ho.lands with ⟨n, f, hn, ha⟩ | hadrift
  · have hbodily : n.bodily = true := ha.online.line.parsing.symm.trans hsome
    cases n with
    | receiving ended =>
        cases ended with
        | true => exact hpast (.inl ⟨_, f, rfl, ha⟩)
        | false =>
            have hl : SocketListener.nextData ∈ w'.owner.socket.getD [] :=
              ha.online.listens_iff.mpr (by simp [Net.socket])
            obtain ⟨rfl, hstate⟩ := hnext hl ha.online.line.peer
            rw [List.append_nil] at hp hne
            exact .receiving ha hp hne hpieces hstate hs
    | shutting cb => exact hpast (.inl ⟨_, f, rfl, ha⟩)
    | shut => exact hpast (.inl ⟨_, f, rfl, ha⟩)
    | reading ended => cases hn
    | _ => cases hbodily
  · exact hpast (.inr hadrift)

section

variable {P : Type} [HttpParser P] {w : World S P} {event : Event} {n : Net}
  {f : Fil} {data : Bytes}

/-- The calls of `on_read`: on the first data, on more data, and at the end of
the stream. -/
theorem onFirstData_eq (h : Alive (anything S) .waiting f w) :
    onSocketEvent (.dataEvent data) w =
      onRead data { w with
        owner.socket := some [.responseError, .endRead]
        owner.httpParser := some HttpParser.create } := by
  have hs : w.owner.socket = Net.waiting.socket := h.online.line.socket
  simp only [onSocketEvent, hs]
  rfl

theorem onNextData_eq (h : Alive (anything S) (.receiving false) f w) :
    onSocketEvent (.dataEvent data) w =
      onRead data
        { w with owner.socket := some [.responseError, .endRead] } := by
  have hs : w.owner.socket = (Net.receiving false).socket :=
    h.online.line.socket
  simp only [onSocketEvent, hs]
  rfl

theorem onLastEnd_eq (h : Alive (anything S) (.receiving false) f w) :
    onSocketEvent .endEvent { w with owner.peerEnded := true } =
      onRead [] { w with
        owner.socket := some [.responseError, .nextData]
        owner.peerEnded := true } := by
  have hs : w.owner.socket = (Net.receiving false).socket :=
    h.online.line.socket
  simp only [onSocketEvent, hs]
  rfl

omit [TCPSocket S] in
/-- Before the response the parser is called by its first data alone. -/
theorem Online.parsed_or (h : Online n w) (hb : n.bodily = false)
    (event : Event) :
    (n = .waiting ∧ ∃ data, event = .socket (.dataEvent data)) ∨
      parsed w event = none := by
  unfold parsed
  split
  · next data =>
      cases n with
      | waiting => exact .inl ⟨rfl, data, rfl⟩
      | reading ended | receiving ended | shutting cb | shut => cases hb
      | _ =>
          refine .inr ?_
          rw [if_neg (h.listens_iff.not.mpr (by simp [Net.socket])),
            if_neg (h.listens_iff.not.mpr (by simp [Net.socket]))]
  · refine .inr (if_neg (h.listens_iff.not.mpr ?_))
    cases n with
    | reading ended | receiving ended | shutting cb | shut => cases hb
    | _ => simp [Net.socket]
  · exact .inr rfl

omit [TCPSocket S] [HttpParser P] in
theorem Online.waiting_or_early (h : Online n w) (hb : n.bodily = false) :
    n = .waiting ∨ Early w := by
  have hresolver : w.owner.resolver = n.resolver := h.line.resolver
  cases n with
  | resolving =>
      refine .inr (.inl ?_)
      rw [hresolver]
      exact List.cons_ne_nil _ _
  | connecting ip =>
      exact .inr (.inr (.inl (h.listens_iff.mpr (by simp [Net.socket]))))
  | requesting =>
      exact .inr (.inr (.inr (h.listens_iff.mpr (by simp [Net.socket]))))
  | waiting => exact .inl rfl
  | reading ended | receiving ended | shutting cb | shut => cases hb

end

/-- The first data, or whatever else may come before it. -/
theorem Fetching.begun_step {n : Net} {f : Fil} (hn : n.settled = true)
    (hb : n.bodily = false) (ha : Alive (anything S) n f w)
    (hp : (reception w).Parsed []) (hh : Handled w event w')
    (hdata : ∀ data, event = .socket (.dataEvent data) →
      data ≠ [] ∧ ¬ Early w) : Fetching (brings event) w' := by
  have hopen : w.owner.receiveDone = false :=
    ha.online.line.receiveDone.trans (by cases n <;> first | rfl | cases hb)
  have ho := ha.outcome hn hh
  rcases ha.online.parsed_or hb event with ⟨rfl, data, rfl⟩ | hparsed
  · cases hh with
    | socket _ hkind _ => exact absurd rfl hkind
    | data _ _ =>
        rw [onFirstData_eq ha] at ho ⊢
        have htakes := onRead_takes data
          (w := { w with
            owner.socket := some [.responseError, .endRead]
            owner.httpParser := some (HttpParser.create : LibraryParser L) })
          rfl hopen
        have hp' := Reception.Parsed.takes [] htakes hp.received
          (fun cb => by simp [reception])
          (fun hc => absurd (hopen.symm.trans (hp.file hc)) nofun)
          ha.online.trace
        refine ho.fetching [data] [] hp'
          (List.cons_ne_nil _ _) (fun d hd => ?_) (fun hl _ => ⟨rfl, ?_⟩)
          (List.append_nil data) (fun h => absurd rfl h)
        · rw [List.mem_singleton.mp hd]
          exact (hdata data rfl).1
        · exact (htakes.next hl).resolve_left (by simp [reception])
  · have hnothing : brings event = [] := by
      unfold brings
      split
      · next data =>
          refine absurd ?_ (hdata data rfl).2
          refine (ha.online.waiting_or_early hb).resolve_left fun h => ?_
          subst h
          rw [parsed, if_pos (ha.online.listens_iff.mpr (by simp [Net.socket]))]
            at hparsed
          cases hparsed
      · rfl
    have hp' := hp.unparsed (hh.unparsed hparsed
      (fun _ => ha.online.not_shutting hn (by cases n <;> first | rfl | cases hb))
      hp.file)
    have hnone : w'.owner.httpParser = none := hp'.parser
    rw [hnothing]
    rcases ho.lands with ⟨n', f', hn', ha'⟩ | hadrift
    · refine .begun hn' ?_ ha' hp' rfl
      exact ha'.online.line.parsing.symm.trans (congrArg Option.isSome hnone)
    · exact .past [] [] (.inr hadrift) hp'
        (fun _ h => absurd h List.not_mem_nil) (List.nil_prefix)
        fun h => absurd rfl h

/-- More data, the end of the stream, or whatever else may come while the
response is received. -/
theorem Fetching.receiving_step {f : Fil} {pieces : List Bytes}
    (ha : Alive (anything S) (.receiving false) f w)
    (hp : (reception w).Parsed pieces) (hne : pieces ≠ [])
    (hpieces : ∀ data ∈ pieces, data ≠ [])
    (hstate : (LibraryParser.parse pieces : LibraryParser L).result.state =
      .inProgress) (hs : pieces.flatten = stream) (hh : Handled w event w')
    (hdata : ∀ data, event = .socket (.dataEvent data) → data ≠ []) :
    Fetching (stream ++ brings event) w' := by
  have hopen : w.owner.receiveDone = false := ha.online.line.receiveDone
  have hfile : FileListener.closed ∉ w.owner.file.getD [] :=
    fun hc => absurd (hopen.symm.trans (hp.file hc)) nofun
  have hparser : w.owner.httpParser = some (LibraryParser.parse pieces) :=
    hp.parser.trans (if_neg hne)
  have ho := ha.outcome rfl hh
  cases hh.parses with
  | data data _ =>
      rw [onNextData_eq ha] at ho ⊢
      have htakes := onRead_takes data
        (w := { w with owner.socket := some [.responseError, .endRead] })
        hparser hopen
      have hp' := Reception.Parsed.takes pieces htakes hp.received
        (fun cb => by simp [reception]) hfile ha.online.trace
      refine ho.fetching (pieces ++ [data]) []
        ((List.append_nil (pieces ++ [data])).symm ▸ hp') (by simp)
        (fun d hd => ?_) (fun hl _ => ⟨rfl, ?_⟩) ?_ (fun h => absurd rfl h)
      · rcases List.mem_append.mp hd with hd | hd
        · exact hpieces d hd
        · rw [List.mem_singleton.mp hd]
          exact hdata data rfl
      · rw [result_parse]
        exact (htakes.next hl).resolve_left (by simp [reception])
      · rw [List.flatten_append, hs]
        exact congrArg (stream ++ ·) (List.append_nil data)
  | ended =>
      have hended := peerEnded_end w
      rw [onLastEnd_eq ha] at ho hended ⊢
      have htakes := onRead_takes []
        (w := { w with
          owner.socket := some [.responseError, .nextData]
          owner.peerEnded := true }) hparser hopen
      have hp' := Reception.Parsed.takes pieces htakes hp.received
        (fun cb => by simp [reception]) hfile ha.online.trace
      refine ho.fetching pieces [[]] hp' (by simp) hpieces
        (fun _ hpeer => absurd (hended.symm.trans hpeer) nofun) ?_
        fun _ => ⟨rfl, hended⟩
      exact hs.trans (List.append_nil stream).symm
  | none hparsed hnothing =>
      have hp' := hp.unparsed (hh.unparsed hparsed
        (fun _ => ha.online.not_shutting rfl rfl) hp.file)
      refine ho.fetching pieces [] ((List.append_nil pieces).symm ▸ hp')
        (by simpa using hne) hpieces (fun _ _ => ⟨rfl, hstate⟩) ?_
        fun h => absurd rfl h
      rw [hnothing, List.append_nil]
      exact hs

/-- The end of the shutdown after a response: what is reported is its result. -/
theorem Reception.Parsed.callback {calls : List Bytes} {cb : Callback}
    (h : (reception w).Parsed calls) (hl : listens (.shutdownDone cb) w) :
    (reception (runCallback (disconnected w) cb)).Parsed calls := by
  have hgone : (reception (disconnected w)).Parsed calls :=
    ⟨h.parser, h.received, h.done, fun hl => absurd hl List.not_mem_nil,
      fun hl => absurd hl List.not_mem_nil, h.file, h.marks⟩
  cases cb with
  | reportRedirect =>
      refine ⟨h.parser, h.received, h.done, fun hl => absurd hl List.not_mem_nil,
        fun hl => absurd hl List.not_mem_nil, h.file,
        forall_reported h.marks ?_ ?_⟩
      all_goals exact ⟨State.noConfusion, fun _ => h.redirect hl⟩
  | reportDone =>
      simp only [runCallback]
      split
      · refine ⟨h.parser, h.received, h.done,
          fun hl => absurd hl List.not_mem_nil,
          fun hl => absurd hl List.not_mem_nil, h.file,
          forall_reported h.marks ?_ ?_⟩
        all_goals exact ⟨fun _ => ⟨h.finish hl, rfl⟩, State.noConfusion⟩
      · exact hgone

/-- After the result the parser is not called any more. -/
theorem Past.handled {calls : List Bytes} (h : Past w)
    (hp : (reception w).Parsed calls) (hh : Handled w event w') :
    Past w' ∧ (reception w').Parsed calls := by
  rcases h with ⟨n, f, hn, ha⟩ | hadrift
  · have hsettled : n.settled = true := by cases n <;> first | rfl | cases hn
    have hbodily : n.bodily = true := by cases n <;> first | rfl | cases hn
    have ho := ha.outcome hsettled hh
    have hland : (reception w').Parsed calls → ¬ listens .endRead w' →
        Past w' ∧ (reception w').Parsed calls := fun hp' hdeaf => by
      refine ⟨ho.past ?_ hdeaf, hp'⟩
      rw [← hbodily, ← ha.online.line.parsing]
      exact congrArg Option.isSome (hp'.parser.trans hp.parser.symm)
    by_cases hshut : event = .socket .shutdownEvent ∧
        ∃ cb, listens (.shutdownDone cb) w
    · obtain ⟨rfl, cb, hl⟩ := hshut
      obtain rfl := ha.online.shutting_of_listens hl
      cases hh with
      | socket _ _ _ =>
          have hs : w.owner.socket = some [.shutdownDone cb] :=
            ha.online.line.socket
          rw [onShutdown_eq hs] at hland ⊢
          refine hland (hp.callback hl) ?_
          have hnone : (runCallback (disconnected w) cb).owner.socket =
              none := by
            cases cb with
            | reportRedirect => rfl
            | reportDone => simp only [runCallback]; split <;> rfl
          rw [listens, hnone]
          exact List.not_mem_nil
    · have hparsed : parsed w event = none := by
        refine ha.online.unparsed_past hn fun hr data he => ?_
        subst hr he
        cases hh with
        | data _ hpeer =>
            have hended : w.owner.peerEnded = true := ha.online.line.peer
            rw [hpeer] at hended
            cases hended
        | socket _ hkind _ => exact absurd rfl hkind
      have hu := hh.unparsed hparsed (fun he cb hl => hshut ⟨he, cb, hl⟩)
        hp.file
      refine hland (hp.unparsed hu) fun hl => ?_
      have hlisten := (hu.socket _ hl).resolve_right Bool.noConfusion
      exact ha.online.deaf_past hn hlisten
  · have hdeaf : ∀ l, ¬ listens l w := fun l hl => by
      rw [listens, hadrift.net.socket] at hl
      exact absurd hl List.not_mem_nil
    have hu := hh.unparsed (hadrift.net.parsed event) (fun _ cb => hdeaf _)
      hp.file
    exact ⟨.inr (hadrift.handled hh), hp.unparsed hu⟩

/-! ## Runs -/

/-- A portion of the stream is not empty, and comes when the request has been
written. -/
def Comes {P : Type} (w : World S P) (o : Occurrence S) : Prop :=
  ∀ data, o.event = .socket (.dataEvent data) → data ≠ [] ∧ ¬ Early w

theorem Fetching.handled (h : Fetching stream w) (hh : Handled w event w')
    (hdata : ∀ data, event = .socket (.dataEvent data) →
      data ≠ [] ∧ ¬ Early w) : Fetching (stream ++ brings event) w' := by
  cases h with
  | begun hn hb ha hp hs =>
      rw [hs, List.nil_append]
      exact begun_step hn hb ha hp hh hdata
  | receiving ha hp hne hpieces hstate hs =>
      exact receiving_step ha hp hne hpieces hstate hs hh
        fun data he => (hdata data he).1
  | past pieces tail hpast hp hpieces hs htail =>
      obtain ⟨hpast', hp'⟩ := hpast.handled hp hh
      refine .past pieces tail hpast' hp' hpieces
        (hs.trans (List.prefix_append _ _)) fun ht => ?_
      obtain ⟨hlast, hall, hpeer⟩ := htail ht
      refine ⟨hlast, ?_, hh.peerEnded hpeer⟩
      have hnothing : brings event = [] := by
        cases hh.parses with
        | data data hopen => exact absurd (hopen.symm.trans hpeer) nofun
        | ended => rfl
        | none _ hnothing => exact hnothing
      rw [hnothing, List.append_nil]
      exact hall

theorem Fetching.found (h : Fetching stream w) (o : Occurrence S) :
    Fetching stream (found w o) := by
  cases h with
  | begun hn hb ha hp hs => exact .begun hn hb (ha.found trivial) hp hs
  | receiving ha hp hne hpieces hstate hs =>
      exact .receiving (ha.found trivial) hp hne hpieces hstate hs
  | past pieces tail hpast hp hpieces hs htail =>
      refine .past pieces tail ?_ hp hpieces hs htail
      rcases hpast with ⟨n, f, hn, ha⟩ | hadrift
      · exact .inl ⟨n, f, hn, ha.found trivial⟩
      · exact .inr (hadrift.found trivial)

theorem Fetching.step {o : Occurrence S} (h : Fetching stream w)
    (hs : Lib.Graph step w o w') (hcomes : Comes w o) :
    Fetching (stream ++ brings o.event) w' :=
  (h.found o).handled (handled_of_handle hs) hcomes

/-- A download before its first event. -/
theorem Started.fetching (h : Started w) : Fetching [] w := by
  have ha : Alive (anything S) .resolving .none w := started_alive h
  have hparser : w.owner.httpParser = none :=
    Option.isNone_iff_eq_none.mp (by
      rw [← Option.not_isSome, show w.owner.httpParser.isSome = false from
        ha.online.line.parsing]
      rfl)
  have hreceived : w.owner.received = [] := ha.pipe.stored.2.2.1
  have hfile : ∀ l, l ∉ w.owner.file.getD [] := fun l hl => by
    rw [show w.owner.file = none from ha.pipe.file] at hl
    exact absurd hl List.not_mem_nil
  have hsocket : ∀ l, l ∉ w.owner.socket.getD [] := fun l hl => by
    rw [show w.owner.socket = some [] from ha.online.line.socket] at hl
    exact absurd hl List.not_mem_nil
  refine .begun rfl rfl ha ⟨hparser, hreceived, fun hd => ?_, fun hl => ?_,
    fun hl => ?_, fun hc => ?_, fun m hm => ?_⟩ rfl
  · exact absurd (ha.online.line.receiveDone.symm.trans hd) nofun
  · exact absurd hl (hsocket _)
  · exact absurd hl (hsocket _)
  · exact absurd hc (hfile _)
  · have hnot := ha.online.trace m hm
    exact ⟨fun hd => absurd (hd ▸ hnot) nofun,
      fun hr => absurd (hr ▸ hnot) nofun⟩

end DownloaderSimple

end EcwidDownloader
