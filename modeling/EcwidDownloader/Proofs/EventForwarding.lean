import EcwidDownloader.Aio.TcpSimple

/-!
# The wrapper forwards every event

Before `close` each event of the handle but the `CloseEvent` is to be published
once, and after it a single `CloseEvent` and nothing else. A listener that is
running is not registered: it comes back when the handler has returned. So an
event that is raised while another of its kind is being handled finds no
listener, and is lost; the condition is that this does not happen while the
wrapper is open.

`Forwarding` is what holds until `close` is called, with one listener for each
kind that is not running, and `Closing` what holds from then on.
-/

namespace EcwidDownloader

open Lib

namespace TCPSocketSimple

/-! ## Readings of the notes -/

def Note.raisedEvent : Note → Option SocketEvent
  | .raised event => some event
  | _ => none

def Note.publishedEvent : Note → Option SocketEvent
  | .published event => some event
  | _ => none

/-- The events the handle raised. -/
def raised (notes : List Note) : List SocketEvent :=
  notes.filterMap Note.raisedEvent

/-- The events the wrapper published. -/
def published (notes : List Note) : List SocketEvent :=
  notes.filterMap Note.publishedEvent

@[simp] theorem raised_append (notes notes' : List Note) :
    raised (notes ++ notes') = raised notes ++ raised notes' :=
  List.filterMap_append

@[simp] theorem published_append (notes notes' : List Note) :
    published (notes ++ notes') = published notes ++ published notes' :=
  List.filterMap_append

@[simp] theorem raised_cons (n : Note) (notes : List Note) :
    raised (n :: notes) = n.raisedEvent.toList ++ raised notes := by
  cases n <;> rfl

@[simp] theorem published_cons (n : Note) (notes : List Note) :
    published (n :: notes) = n.publishedEvent.toList ++ published notes := by
  cases n <;> rfl

@[simp] theorem raised_nil : raised [] = [] := rfl

@[simp] theorem published_nil : published [] = [] := rfl

/-- What was observed before the first `close`. -/
def beforeClose (notes : List Note) : List Note :=
  notes.takeWhile fun n => n ≠ .called .close

/-- What was observed from the first `close` on. -/
def sinceClose (notes : List Note) : List Note :=
  notes.dropWhile fun n => n ≠ .called .close

/-- The events that are forwarded. -/
def forwarded (events : List SocketEvent) : List SocketEvent :=
  events.filter fun event => event ≠ .closeEvent

def closeEvents (events : List SocketEvent) : List SocketEvent :=
  events.filter fun event => event = .closeEvent

/-- Before `close` everything but a `CloseEvent` is published, once and in order,
and after it nothing but the first `CloseEvent` there is. -/
structure Forwards (notes : List Note) : Prop where
  before : published (beforeClose notes) = forwarded (raised (beforeClose notes))
  after : published (sinceClose notes) =
    (closeEvents (raised (sinceClose notes))).take 1

/-- The notes up to the first `close` and those from there on. -/
theorem split_at_close {before since : List Note}
    (h : .called .close ∉ before)
    (hsince : since = [] ∨ ∃ rest, since = .called .close :: rest) :
    beforeClose (before ++ since) = before ∧
      sinceClose (before ++ since) = since := by
  have hall : ∀ n ∈ before, decide (n ≠ .called .close) = true := by
    intro n hn
    rw [decide_eq_true_eq]
    rintro rfl
    exact h hn
  rw [beforeClose, sinceClose, List.takeWhile_append_of_pos hall,
    List.dropWhile_append_of_pos hall]
  rcases hsince with rfl | ⟨rest, rfl⟩ <;> simp

/-! ## What the condition is -/

/-- No event is raised before `close` while one of its kind is being handled. -/
def Apart (w : Working) : Event → Prop
  | .raise event => w.sock.closed = false → event ≠ .closeEvent →
      ∀ frame ∈ w.running, frame.event.kind ≠ event.kind
  | _ => True

instance (w : Working) : (e : Event) → Decidable (Apart w e)
  | .raise _ => inferInstanceAs (Decidable (_ → _ → _))
  | .call _ => isTrue trivial
  | .handled => isTrue trivial

/-! ## Until close -/

def kinds (running : List Frame) : List EventKind :=
  running.map fun frame => frame.event.kind

/-- The wrapper is open, every kind has its listener unless it is running, and
whatever was raised was published. -/
structure Forwarding (w : Working) : Prop where
  closed : w.sock.closed = false
  listening : ∀ event : SocketEvent, event ≠ .closeEvent →
    event.kind ∉ kinds w.running →
    Emitter.taken event.kind w.sock.tcpHandle.listeners =
      [.onEvent event.kind]
  busy : ∀ kind ∈ kinds w.running,
    Emitter.taken kind w.sock.tcpHandle.listeners = []
  deaf : Emitter.taken .close w.sock.tcpHandle.listeners = []
  apart : (kinds w.running).Nodup
  alone : ∀ frame ∈ w.running, frame.event ≠ .closeEvent ∧ frame.rest = []
  opened : .called .close ∉ w.notes
  forwards : published w.notes = forwarded (raised w.notes)

/-- The wrapper is closed, and listens for a `CloseEvent` until there is one. -/
structure Closing (w : Working) : Prop where
  closed : w.sock.closed = true
  alone : ∀ frame ∈ w.running, frame.rest = []
  notes : ∃ before since, w.notes = before ++ .called .close :: since ∧
    .called .close ∉ before ∧ published before = forwarded (raised before) ∧
    (w.sock.tcpHandle.listeners = [.onEvent .close] ∧ published since = [] ∧
        closeEvents (raised since) = [] ∨
      w.sock.tcpHandle.listeners = [] ∧ published since = [.closeEvent] ∧
        (closeEvents (raised since)).take 1 = [.closeEvent])

theorem Forwarding.all {w : Working} (hf : Forwarding w) :
    Forwards w.notes := by
  obtain ⟨hbefore, hsince⟩ := split_at_close hf.opened (.inl rfl)
  rw [List.append_nil] at hbefore hsince
  refine ⟨?_, ?_⟩
  · rw [hbefore]
    exact hf.forwards
  · rw [hsince]
    rfl

theorem Closing.all {w : Working} (hc : Closing w) : Forwards w.notes := by
  obtain ⟨before, since, hnotes, hopen, hforwards, hcases⟩ := hc.notes
  obtain ⟨hbefore, hsince⟩ := split_at_close hopen (.inr ⟨since, rfl⟩)
  rw [← hnotes] at hbefore hsince
  refine ⟨by rw [hbefore]; exact hforwards, ?_⟩
  rw [hsince]
  rcases hcases with ⟨-, hpub, hraised⟩ | ⟨-, hpub, hraised⟩
  · simp [Note.publishedEvent, Note.raisedEvent, hpub, hraised]
  · simp [Note.publishedEvent, Note.raisedEvent, hpub, hraised]

theorem Forwarding.created {w : Working} (hw : Created w) : Forwarding w := by
  obtain ⟨sock, hcreate, rfl⟩ := hw
  obtain rfl := (Option.some.inj hcreate).symm
  refine ⟨rfl, fun event he _ => ?_, fun _ h => absurd h List.not_mem_nil, rfl,
    List.nodup_nil, by simp, by simp, rfl⟩
  cases event with
  | closeEvent => exact absurd rfl he
  | errorEvent | connectEvent | writeEvent | dataEvent | endEvent
  | shutdownEvent => rfl

/-! ## One step -/

theorem kind_eq_close {event : SocketEvent} :
    event.kind = .close ↔ event = .closeEvent := by
  cases event <;> simp [SocketEvent.kind]

theorem forwarded_append (events events' : List SocketEvent) :
    forwarded (events ++ events') = forwarded events ++ forwarded events' :=
  List.filter_append ..

theorem closeEvents_append (events events' : List SocketEvent) :
    closeEvents (events ++ events') = closeEvents events ++ closeEvents events' :=
  List.filter_append ..

theorem taken_once (kind k : EventKind) (h : TcpHandle) :
    Emitter.taken k (h.once kind).listeners =
      if kind = k then .onEvent kind :: Emitter.taken k h.listeners
      else Emitter.taken k h.listeners := Emitter.taken_once ..

/-- An event whose kind is not being handled finds its listener. -/
theorem Forwarding.raise {w w' : Working} {event : SocketEvent}
    (hf : Forwarding w) (ha : Apart w (.raise event))
    (hs : step w (.raise event) = some w') : Forwarding w' := by
  cases hs
  by_cases he : event = .closeEvent
  · subst he
    rw [show SocketEvent.kind .closeEvent = .close from rfl, hf.deaf]
    refine ⟨hf.closed, fun event' he' hfree => ?_, fun kind hbusy => ?_, ?_,
      hf.apart, hf.alone, ?_, ?_⟩
    · have hkind : event'.kind ≠ .close := mt kind_eq_close.mp he'
      simp only [forward]
      rw [Emitter.taken_clearKind, if_neg hkind]
      exact hf.listening event' he' hfree
    · simp only [forward]
      rw [Emitter.taken_clearKind, hf.busy kind hbusy, ite_self]
    · simp only [forward]
      rw [Emitter.taken_clearKind, if_pos rfl]
    · simpa [forward] using hf.opened
    · simp [forward, Note.publishedEvent, Note.raisedEvent, hf.forwards,
        forwarded]
  · have hfree : event.kind ∉ kinds w.running := by
      intro hmem
      obtain ⟨frame, hframe, hkind⟩ := List.mem_map.mp hmem
      exact ha hf.closed he frame hframe hkind
    rw [hf.listening event he hfree]
    refine ⟨hf.closed, fun event' he' hfree' => ?_, fun kind hbusy => ?_, ?_,
      List.nodup_cons.mpr ⟨hfree, hf.apart⟩, ?_, ?_, ?_⟩
    · obtain ⟨hkind, hfree'⟩ := not_or.mp (mt List.mem_cons.mpr hfree')
      simp only [forward]
      rw [Emitter.taken_clearKind, if_neg hkind]
      exact hf.listening event' he' hfree'
    · simp only [forward]
      rw [Emitter.taken_clearKind]
      rcases List.mem_cons.mp hbusy with rfl | hbusy
      · exact if_pos rfl
      · rw [hf.busy kind hbusy, ite_self]
    · simp only [forward]
      rw [Emitter.taken_clearKind, hf.deaf, ite_self]
    · intro frame hframe
      rcases List.mem_cons.mp hframe with rfl | hframe
      · exact ⟨he, rfl⟩
      · exact hf.alone frame hframe
    · simpa [forward] using hf.opened
    · simp only [forward, published_append, raised_append, forwarded_append,
        hf.forwards]
      simp [Note.publishedEvent, Note.raisedEvent, forwarded, he]

theorem Forwarding.call {w w' : Working} {c : SocketCall} (hf : Forwarding w)
    (hs : step w (.call c) = some w') : Forwarding w' ∨ Closing w' := by
  cases hs
  by_cases hc : c = .close
  · subst hc
    right
    have hclose : TCPSocketSimple.call .close w.sock =
        { closed := true
          tcpHandle := (w.sock.tcpHandle.clear.once .close).call .close } := by
      simp [TCPSocketSimple.call, close, hf.closed]
    refine ⟨by rw [hclose], fun frame hframe => (hf.alone frame hframe).2,
      w.notes, [], rfl, hf.opened, hf.forwards, .inl ⟨?_, rfl, rfl⟩⟩
    rw [hclose]
    rfl
  · left
    have hcall : TCPSocketSimple.call c w.sock =
        { w.sock with tcpHandle := w.sock.tcpHandle.call c } := by
      cases c with
      | close => exact absurd rfl hc
      | connect | connect6 | read | stop | write | shutdown => rfl
    rw [hcall]
    refine ⟨hf.closed, hf.listening, hf.busy, hf.deaf, hf.apart, hf.alone,
      ?_, ?_⟩
    · simpa [hc, Ne.symm hc] using hf.opened
    · simp [Note.publishedEvent, Note.raisedEvent, hf.forwards]

/-- The handler that returns leaves its listener registered again. -/
theorem Forwarding.handled {w w' : Working} (hf : Forwarding w)
    (hs : step w .handled = some w') : Forwarding w' := by
  simp only [step] at hs
  split at hs
  · cases hs
  · next frame running hrunning =>
      cases hs
      have hmem : frame ∈ w.running := by simp [hrunning]
      obtain ⟨he, hrest⟩ := hf.alone frame hmem
      have hapart := hf.apart
      rw [hrunning] at hapart
      obtain ⟨hfree, hapart⟩ := List.nodup_cons.mp hapart
      have hrearm : afterPublish frame.event.kind w.sock =
          { w.sock with
            tcpHandle := w.sock.tcpHandle.once frame.event.kind } := by
        simp [afterPublish, hf.closed]
      rw [hrest, hrearm]
      refine ⟨hf.closed, fun event he' hfree' => ?_, fun kind hbusy => ?_, ?_,
        hapart, fun frame' hframe' => hf.alone frame' ?_, hf.opened,
        hf.forwards⟩
      · simp only [forward]
        rw [taken_once]
        by_cases hkind : frame.event.kind = event.kind
        · rw [if_pos hkind, ← hkind, hf.busy _ (List.mem_map_of_mem hmem)]
        · rw [if_neg hkind]
          refine hf.listening event he' fun hmem' => ?_
          rw [hrunning] at hmem'
          rcases List.mem_cons.mp hmem' with heq | hmem'
          · exact hkind heq.symm
          · exact hfree' hmem'
      · simp only [forward]
        rw [taken_once, if_neg]
        · refine hf.busy kind ?_
          rw [hrunning]
          exact List.mem_cons_of_mem _ hbusy
        · rintro rfl
          exact hfree hbusy
      · simp only [forward]
        rw [taken_once, hf.deaf]
        exact if_neg (mt kind_eq_close.mp he)
      · rw [hrunning]
        exact List.mem_cons_of_mem _ hframe'

/-- An event that no listener is left for. -/
theorem taken_other {event : SocketEvent} (he : event ≠ .closeEvent) :
    Emitter.taken event.kind [HandleListener.onEvent .close] = [] ∧
      Emitter.clearKind event.kind [HandleListener.onEvent .close] =
        [.onEvent .close] := by
  have hkind : Listens.kind (HandleListener.onEvent .close) ≠ event.kind :=
    fun h => he (kind_eq_close.mp h.symm)
  simp [Emitter.taken, Emitter.clearKind, hkind]

/-- A closed wrapper takes no listener up again, and its only listener is for the
`CloseEvent`. -/
theorem Closing.step {w w' : Working} {e : Event} (hc : Closing w)
    (hs : TCPSocketSimple.step w e = some w') : Closing w' := by
  obtain ⟨hclosed, halone, before, since, hnotes, hopen, hforwards, hcases⟩ := hc
  cases e with
  | raise event =>
      cases hs
      rcases hcases with ⟨hlisteners, hpub, hraised⟩ | ⟨hlisteners, hpub, hraised⟩
      · by_cases he : event = .closeEvent
        · subst he
          rw [hlisteners]
          refine ⟨hclosed, fun frame hframe => ?_, before,
            since ++ [.raised .closeEvent, .published .closeEvent], ?_, hopen,
            hforwards, .inr ⟨rfl, ?_, ?_⟩⟩
          · rcases List.mem_cons.mp hframe with rfl | hframe
            · rfl
            · exact halone frame hframe
          · show w.notes ++ [_] ++ [_] = _
            simp [hnotes]
          · simp [hpub, Note.publishedEvent]
          · rw [raised_append, closeEvents_append, hraised]
            rfl
        · obtain ⟨htaken, hclear⟩ := taken_other he
          rw [hlisteners, htaken, hclear]
          refine ⟨hclosed, halone, before, since ++ [.raised event], ?_, hopen,
            hforwards, .inl ⟨rfl, ?_, ?_⟩⟩
          · show w.notes ++ [_] = _
            simp [hnotes]
          · simp [hpub, Note.publishedEvent]
          · rw [raised_append, closeEvents_append, hraised]
            simp [closeEvents, Note.raisedEvent, he]
      · rw [hlisteners]
        refine ⟨hclosed, halone, before, since ++ [.raised event], ?_, hopen,
          hforwards, .inr ⟨rfl, ?_, ?_⟩⟩
        · show w.notes ++ [_] = _
          simp [hnotes]
        · simp [hpub, Note.publishedEvent]
        · rw [raised_append, closeEvents_append]
          cases hevents : closeEvents (raised since) with
          | nil =>
              rw [hevents] at hraised
              cases hraised
          | cons a l =>
              rw [hevents] at hraised
              exact hraised
  | call c =>
      cases hs
      have hsock : (TCPSocketSimple.call c w.sock).closed = true ∧
          (TCPSocketSimple.call c w.sock).tcpHandle.listeners =
            w.sock.tcpHandle.listeners := by
        cases c with
        | close => simp [TCPSocketSimple.call, close, hclosed]
        | connect | connect6 | read | stop | write | shutdown =>
            exact ⟨hclosed, rfl⟩
      refine ⟨hsock.1, halone, before, since ++ [.called c], by simp [hnotes],
        hopen, hforwards, ?_⟩
      rw [hsock.2]
      simpa [Note.publishedEvent, Note.raisedEvent] using hcases
  | handled =>
      simp only [TCPSocketSimple.step] at hs
      split at hs
      · cases hs
      · next frame running hrunning =>
          cases hs
          have hrest : frame.rest = [] := halone frame (by simp [hrunning])
          have hafter : afterPublish frame.event.kind w.sock = w.sock := by
            simp [afterPublish, hclosed]
          rw [hrest, hafter]
          refine ⟨hclosed, fun frame' hframe' => halone frame' ?_, before, since,
            hnotes, hopen, hforwards, hcases⟩
          rw [hrunning]
          exact List.mem_cons_of_mem _ hframe'

/-! ## Every run -/

theorem forwards_of_apart {w₀ w : Working} {hist : List (Working × Event)}
    (h₀ : Created w₀) (hr : Runs w₀ hist w) (hC : Meets Apart hist) :
    Forwarding w ∨ Closing w := by
  refine hr.invariant (fun w => Forwarding w ∨ Closing w) hC
    (.inl (.created h₀)) ?_
  rintro w e w' (hf | hc) ha hs
  · cases e with
    | raise event => exact .inl (hf.raise ha hs)
    | call c => exact hf.call hs
    | handled => exact .inl (hf.handled hs)
  · exact .inr (hc.step hs)

/-- An event that is raised while one of its kind is being handled is lost. -/
theorem Forwarding.lost {w w' : Working} {e : Event} (hf : Forwarding w)
    (hs : step w e = some w') (ha : ¬ Apart w e) : ¬ Forwards w'.notes := by
  cases e with
  | raise event =>
      simp only [Apart, not_forall] at ha
      obtain ⟨-, he, frame, hframe, hkind⟩ := ha
      rw [not_ne_iff] at hkind
      cases hs
      rw [← hkind, hf.busy _ (List.mem_map_of_mem hframe)]
      intro hall
      have hopen : .called .close ∉ w.notes ++ [.raised event] := by
        simpa using hf.opened
      have hbefore := (split_at_close hopen (.inl rfl)).1
      rw [List.append_nil] at hbefore
      have hsame := hall.before
      simp only [forward] at hsame
      rw [hbefore] at hsame
      simp [Note.publishedEvent, Note.raisedEvent, hf.forwards,
        forwarded_append] at hsame
      simp [forwarded, he] at hsame
  | call c => exact absurd trivial ha
  | handled => exact absurd trivial ha

/-- In every run of a wrapper every event is forwarded as it should be, just when
no event is raised before `close` while one of its kind is being handled. -/
theorem forwards_iff {w₀ w : Working} {hist : List (Working × Event)}
    (h₀ : Created w₀) (hr : Runs w₀ hist w) :
    (∀ x, Passes hist w x → Forwards x.notes) ↔ Meets Apart hist := by
  refine hr.always_iff (fun hr' hC => ?_) fun {_ _ e _} hr' hC hs ha => ?_
  · rcases forwards_of_apart h₀ hr' hC with hf | hc
    · exact hf.all
    · exact hc.all
  · rcases forwards_of_apart h₀ hr' hC with hf | hc
    · exact hf.lost hs ha
    · refine absurd ?_ ha
      cases e with
      | raise event =>
          intro hopen
          rw [hc.closed] at hopen
          cases hopen
      | call c => trivial
      | handled => trivial

def refused : SocketEvent := .errorEvent ⟨-111, "connection refused"⟩

def broken : SocketEvent := .errorEvent ⟨-32, "broken pipe"⟩

/-- A segment whose handler writes, which fails at once, and whose error's handler
closes the wrapper twice. -/
theorem forwards_nested : ∃ w₀ hist w, Created w₀ ∧ Runs w₀ hist w ∧
    published w.notes = [.dataEvent [1], broken, .closeEvent] ∧
      ∀ x, Passes hist w x → Forwards x.notes := by
  obtain ⟨w₀, hist, w, h₀, hexec, hpublished, hC⟩ : ∃ w₀ hist w, Created w₀ ∧
      exec step w₀ [.raise (.dataEvent [1]), .call (.write [2]), .raise broken,
        .call .close, .call .close, .handled, .handled, .raise .closeEvent] =
        some (hist, w) ∧
      published w.notes = [.dataEvent [1], broken, .closeEvent] ∧
      ∀ p ∈ hist, Apart p.1 p.2 :=
    ⟨_, _, _, ⟨_, rfl, rfl⟩, rfl, rfl, by decide⟩
  have hr := run_of_exec hexec
  exact ⟨w₀, hist, w, h₀, hr, hpublished, (forwards_iff h₀ hr).mpr hC⟩

/-- A handler of an error that writes, which fails at once. -/
theorem error_lost : ¬ ∀ w₀ hist w, Created w₀ → Runs w₀ hist w →
    ∀ x, Passes hist w x → Forwards x.notes := by
  intro hall
  obtain ⟨w₀, hist, w, h₀, hexec, hnotes⟩ : ∃ w₀ hist w, Created w₀ ∧
      exec step w₀ [.raise refused, .call (.write [2]), .raise broken,
        .handled] = some (hist, w) ∧
      w.notes = [.raised refused, .published refused, .called (.write [2]),
        .raised broken] :=
    ⟨_, _, _, ⟨_, rfl, rfl⟩, rfl, rfl⟩
  have hsame := (hall w₀ hist w h₀ (run_of_exec hexec) w .last).before
  rw [hnotes] at hsame
  revert hsame
  decide

end TCPSocketSimple

end EcwidDownloader
