import EcwidDownloader.Proofs.TcpBandwidth

/-!
# A throttled socket after `close()`

`on_event` and `on_data` look at `closed` once the handlers have run, and leave
a closed socket alone. `transfer` does not: a handler of its `DataEvent` that
closes the socket is followed by the `EndEvent` if the last byte has left the
queue, or by a `read()` on the closed inner socket if the pause is over.

A run is in one of three phases. The socket is `Open` until its first `close()`;
it is `Hushed` while the owner makes no further call; and once he has made one,
`Spoken`, what follows is no longer the socket's doing. `ClosesMidway` is the
one move that leaves the phases, and it always shows.
-/

namespace EcwidDownloader

open Lib

namespace TCPSocketBandwidth

/-- The calls a closed socket does not ignore. -/
def Note.further : Note → Bool
  | .called c => decide (c ≠ .close)
  | _ => false

/-- What is observed after the first `close()`. -/
def sinceClose (notes : List Note) : List Note :=
  (notes.dropWhile fun n => decide (n ≠ .called .close)).tail

/-- What is observed after the first `close()` until the owner makes another
call. -/
def hush (notes : List Note) : List Note :=
  (sinceClose notes).takeWhile fun n => !n.further

/-- After `close()`, while the owner makes no further call, one `CloseEvent` at
most is published and nothing is asked of the closed inner socket. -/
structure CloseFinal (w : Observed) : Prop where
  published : ∀ event, .published event ∈ hush w.owner → event = .closeEvent
  once : (hush w.owner).count (.published .closeEvent) ≤ 1
  calls : .called .close ∈ w.owner →
    (∀ n ∈ sinceClose w.owner, n.further = false) →
    ∃ earlier, w.sock.socket.calls = earlier ++ [.close] ∧ .close ∉ earlier

/-- The calls of a handler end with the first `close()` among them. -/
def Closes (calls : List Call) : Prop :=
  .close ∈ calls ∧
    ∀ c ∈ calls.dropWhile fun c => decide (c ≠ .close), c = .close

/-- A transfer whose handler closes the socket, and which then has the end of
the stream to publish or a pause to end. -/
def ClosesMidway (react : React) (n : Nat) (w : Observed) : Prop :=
  w.sock.stopped = false ∧ w.sock.closed = false ∧ n ≠ 0 ∧
    ((w.sock.eof = true ∧ w.sock.bufferUsed ≤ n) ∨
      (w.sock.paused = true ∧
        w.sock.bufferUsed - n < w.sock.bufferMaxLength)) ∧
    ∃ data buffer,
      popBuffer (min n w.sock.bufferUsed) w.sock.buffer =
        some (data, buffer) ∧
      Closes (react (popped n buffer w) (.dataEvent data))

/-- None of some transfers made in a row is such a transfer. -/
def ClosesOutside (react : React) : List Nat → Observed → Prop
  | [], _ => True
  | n :: lengths, w =>
      ¬ ClosesMidway react n w ∧
        ∀ w', transfer (publish react) n w = some w' →
          ClosesOutside react lengths w'

/-- No transfer an event consists of is such a transfer. -/
def Orderly (w : Observed) (e : Event × React) : Prop :=
  ClosesOutside e.2 (e.1.transfersFrom w).1 (e.1.transfersFrom w).2

/-! ## Reading the notes -/

theorem sinceClose_of_first {before after : List Note}
    (h : .called .close ∉ before) :
    sinceClose (before ++ .called .close :: after) = after := by
  have hdrop : ∀ n ∈ before, decide (n ≠ .called .close) = true := by
    intro n hn
    simp only [ne_eq, decide_eq_true_eq]
    rintro rfl
    exact h hn
  rw [sinceClose, List.dropWhile_append_of_pos hdrop]
  simp

theorem sinceClose_of_not_mem {notes : List Note}
    (h : .called .close ∉ notes) : sinceClose notes = [] := by
  have hdrop : ∀ n ∈ notes, decide (n ≠ .called .close) = true := by
    intro n hn
    simp only [ne_eq, decide_eq_true_eq]
    rintro rfl
    exact h hn
  rw [sinceClose, ← List.append_nil notes, List.dropWhile_append_of_pos hdrop]
  simp

theorem hush_of_first {before after rest : List Note}
    (h : .called .close ∉ before) (hafter : ∀ n ∈ after, n.further = false) :
    hush (before ++ .called .close :: (after ++ rest)) =
      after ++ rest.takeWhile fun n => !n.further := by
  rw [hush, sinceClose_of_first h, List.takeWhile_append_of_pos]
  intro n hn
  simp [hafter n hn]

/-- The observations so far begin with what `P` describes. -/
def Began (P : List Note → Prop) (w : Observed) : Prop :=
  ∃ start, start <+: w.owner ∧ P start

theorem Began.append {P : List Note → Prop} {w w' : Observed}
    (h : Began P w) (hw : w.owner <+: w'.owner) : Began P w' := by
  obtain ⟨start, hstart, hP⟩ := h
  exact ⟨start, hstart.trans hw, hP⟩

theorem Began.kept {P : List Note → Prop} : Kept (fun _ => True) (Began P) where
  call := fun _ _ _ h => h.append (List.prefix_append _ _)
  deliver := fun _ _ _ _ h _ _ => h.append (List.prefix_append _ _)
  finish := fun _ h _ _ => h.append (List.prefix_append _ _)
  resume := fun _ h _ _ => h.append List.prefix_rfl
  receive := fun _ _ h _ => h.append (List.prefix_append _ _)
  ended := fun _ h => h.append (List.prefix_append _ _)
  endedAgain := fun _ h => h.append (List.prefix_append _ _)
  forward := fun _ _ h _ _ => h.append (List.prefix_append _ _)
  listen := fun _ _ h => h.append List.prefix_rfl

theorem owner_relisten (l : InnerListener) (w : Observed) :
    (relisten l w).owner = w.owner := by
  simp only [relisten]
  split <;> rfl

theorem relisten_of_closed {l : InnerListener} {w : Observed}
    (h : w.sock.closed = true) : relisten l w = w := by
  simp [relisten, h]

/-! ## The phases -/

/-- Before the first `close()`. -/
structure Open (w : Observed) : Prop where
  owner : .called .close ∉ w.owner
  flag : w.sock.closed = false
  calls : .close ∉ w.sock.socket.calls

/-- After the first `close()`, with no further call of the owner: `before` and
`after` is what was observed around it. -/
structure Hushed (before after : List Note) (w : Observed) : Prop where
  owner : w.owner = before ++ .called .close :: after
  first : .called .close ∉ before
  quiet : ∀ n ∈ after, n.further = false
  published : ∀ event, .published event ∈ after → event = .closeEvent
  once : after.count (.published .closeEvent) +
    w.sock.socket.listeners.length ≤ 1
  flag : w.sock.closed = true
  stopped : w.sock.stopped = true
  calls : ∃ earlier,
    w.sock.socket.calls = earlier ++ [.close] ∧ .close ∉ earlier

/-- What was observed until the first further call. -/
def SpokenAt (start : List Note) : Prop :=
  ∃ before after c, start = before ++ .called .close :: (after ++ [.called c]) ∧
    .called .close ∉ before ∧ (∀ n ∈ after, n.further = false) ∧ c ≠ .close ∧
    (∀ event, .published event ∈ after → event = .closeEvent) ∧
    after.count (.published .closeEvent) ≤ 1

/-- After a further call. -/
structure Spoken (w : Observed) : Prop where
  flag : w.sock.closed = true
  start : Began SpokenAt w

inductive Phase (w : Observed) : Prop
  | opened (h : Open w)
  | hushed (before after : List Note) (h : Hushed before after w)
  | spoken (h : Spoken w)

theorem Phase.open_of {w : Observed} (h : Phase w)
    (hc : w.sock.closed = false) : Open w := by
  cases h with
  | opened h => exact h
  | hushed before after h => simp [h.flag] at hc
  | spoken h => simp [h.flag] at hc

theorem Phase.closeFinal {w : Observed} (h : Phase w) : CloseFinal w := by
  cases h with
  | opened h =>
      have hsince := sinceClose_of_not_mem h.owner
      constructor
      · simp [hush, hsince]
      · simp [hush, hsince]
      · intro hmem
        exact absurd hmem h.owner
  | hushed before after h =>
      have hhush : hush w.owner = after := by
        have hall := @hush_of_first before after [] h.first h.quiet
        simpa [h.owner] using hall
      have honce := h.once
      constructor
      · rw [hhush]
        exact h.published
      · rw [hhush]
        omega
      · intro _ _
        exact h.calls
  | spoken h =>
      obtain ⟨start, ⟨rest, hstart⟩, before, after, c, rfl, hfirst, hquiet, hc,
        hpub, honce⟩ := h.start
      have howner : w.owner =
          before ++ .called .close :: (after ++ (.called c :: rest)) := by
        simp [← hstart]
      have hhush : hush w.owner = after := by
        rw [howner, hush_of_first hfirst hquiet]
        simp [Note.further, hc]
      constructor
      · rw [hhush]
        exact hpub
      · rw [hhush]
        exact honce
      · intro _ hall
        rw [howner, sinceClose_of_first hfirst] at hall
        have hspoke := hall (.called c) (by simp)
        simp [Note.further, hc] at hspoke

/-! ## The owner's calls -/

theorem flag_call {s : TCPSocketBandwidth} (h : s.closed = true) (c : Call) :
    (call c s).closed = true := by
  cases c with
  | connect ip port => exact h
  | connect6 ip port => exact h
  | write data => exact h
  | shutdown => exact h
  | read => cases hp : s.paused <;> simp [call, read, hp, h]
  | stop => cases hp : s.paused <;> simp [call, stop, hp, h]
  | close => simp [call, close, h]

/-- No call but `close` closes. -/
theorem open_call {s : TCPSocketBandwidth} {c : Call} (hne : c ≠ .close)
    (hflag : s.closed = false) (hcalls : .close ∉ s.socket.calls) :
    (call c s).closed = false ∧ .close ∉ (call c s).socket.calls := by
  cases c with
  | close => exact absurd rfl hne
  | read =>
      cases hp : s.paused <;>
        simp [call, read, hp, InnerSocket.read, hflag, hcalls]
  | stop =>
      cases hp : s.paused <;>
        simp [call, stop, hp, InnerSocket.stop, hflag, hcalls]
  | connect ip port => simp [call, connect, InnerSocket.call, hflag, hcalls]
  | connect6 ip port => simp [call, connect6, InnerSocket.call, hflag, hcalls]
  | write data => simp [call, write, InnerSocket.call, hflag, hcalls]
  | shutdown => simp [call, shutdown, InnerSocket.call, hflag, hcalls]

theorem Open.call {w : Observed} (h : Open w) {c : Call} (hne : c ≠ .close) :
    Open (doCall c w) := by
  obtain ⟨hflag, hcalls⟩ := open_call hne h.flag h.calls
  refine ⟨?_, hflag, hcalls⟩
  simp [doCall, note, h.owner, Ne.symm hne]

theorem Open.close {w : Observed} (h : Open w) :
    Hushed w.owner [] (doCall .close w) where
  owner := rfl
  first := h.owner
  quiet := by simp
  published := by simp
  once := by simp [doCall, note, TCPSocketBandwidth.call,
    close_of_open h.flag, InnerSocket.close]
  flag := by simp [doCall, note, TCPSocketBandwidth.call,
    close_of_open h.flag]
  stopped := by simp [doCall, note, TCPSocketBandwidth.call,
    close_of_open h.flag]
  calls := ⟨w.sock.socket.calls, by
    simp [doCall, note, TCPSocketBandwidth.call, close_of_open h.flag,
      InnerSocket.close], h.calls⟩

theorem Hushed.quiet_snoc {before after : List Note} {w : Observed}
    (h : Hushed before after w) {n : Note} (hn : n.further = false) :
    ∀ m ∈ after ++ [n], m.further = false := by
  intro m hm
  rcases List.mem_append.mp hm with hm | hm
  · exact h.quiet m hm
  · rw [List.mem_singleton.mp hm]
    exact hn

theorem Hushed.close {before after : List Note} {w : Observed}
    (h : Hushed before after w) :
    Hushed before (after ++ [.called .close]) (doCall .close w) := by
  have hsock : (doCall .close w).sock = w.sock := close_of_closed h.flag
  have honce := h.once
  have hpublished := h.published
  constructor
  · simp [doCall, note, h.owner]
  · exact h.first
  · exact h.quiet_snoc rfl
  · intro event hmem
    simp only [List.mem_append, List.mem_singleton, reduceCtorEq,
      or_false] at hmem
    exact hpublished event hmem
  · rw [hsock, List.count_append]
    simp only [List.count_singleton]
    simpa using honce
  · rw [hsock]
    exact h.flag
  · rw [hsock]
    exact h.stopped
  · rw [hsock]
    exact h.calls

theorem Hushed.call {before after : List Note} {w : Observed}
    (h : Hushed before after w) {c : Call} (hne : c ≠ .close) :
    Spoken (doCall c w) := by
  have honce := h.once
  refine ⟨flag_call h.flag c, (doCall c w).owner, List.prefix_rfl, before,
    after, c, ?_, h.first, h.quiet, hne, h.published, by omega⟩
  simp [doCall, note, h.owner]

theorem Spoken.kept : Kept (fun _ => True) Spoken where
  call := fun c w hc h => ⟨flag_call h.flag c, Began.kept.call c w hc h.start⟩
  deliver := fun n data buffer w h hs hpop =>
    ⟨h.flag, Began.kept.deliver n data buffer w h.start hs hpop⟩
  finish := fun w h he hu => ⟨h.flag, Began.kept.finish w h.start he hu⟩
  resume := fun w h hr hR => ⟨h.flag, Began.kept.resume w h.start hr hR⟩
  receive := fun data w h hc => by simp [h.flag] at hc
  ended := fun w h => ⟨h.flag, Began.kept.ended w h.start⟩
  endedAgain := fun w h => ⟨h.flag, Began.kept.endedAgain w h.start⟩
  forward := fun event w h hd he =>
    ⟨h.flag, Began.kept.forward event w h.start hd he⟩
  listen := fun l w h => ⟨h.flag, Began.kept.listen l w h.start⟩

theorem Spoken.handler {w : Observed} (h : Spoken w) (calls : List Call) :
    Spoken (calls.foldl (fun w c => doCall c w) w) :=
  foldl_doCall_inv Spoken.kept.call (fun _ _ => trivial) h

theorem Hushed.handler {before after : List Note} {w : Observed}
    (h : Hushed before after w) (calls : List Call) :
    ((∀ c ∈ calls, c = .close) ∧ ∃ after',
      Hushed before after' (calls.foldl (fun w c => doCall c w) w)) ∨
    ((¬ ∀ c ∈ calls, c = .close) ∧
      Spoken (calls.foldl (fun w c => doCall c w) w)) := by
  induction calls generalizing w after with
  | nil => exact .inl ⟨by simp, after, h⟩
  | cons c calls ih =>
      by_cases hc : c = .close
      · subst hc
        rcases ih h.close with ⟨hall, hhush⟩ | ⟨hnot, hspoken⟩
        · exact .inl ⟨by simpa using hall, hhush⟩
        · exact .inr ⟨by simpa using hnot, hspoken⟩
      · exact .inr ⟨fun hall => hc (hall c List.mem_cons_self),
          (h.call hc).handler calls⟩

/-- A handler that finds the socket open leaves it open, or closes it and says
nothing more, or speaks on. -/
theorem Open.handler {w : Observed} (h : Open w) (calls : List Call) :
    (¬ Closes calls ∧
      Open (calls.foldl (fun w c => doCall c w) w)) ∨
    (Closes calls ∧ ∃ before after,
      Hushed before after (calls.foldl (fun w c => doCall c w) w)) ∨
    (¬ Closes calls ∧
      Spoken (calls.foldl (fun w c => doCall c w) w)) := by
  induction calls generalizing w with
  | nil => exact .inl ⟨fun hc => by simp [Closes] at hc, h⟩
  | cons c calls ih =>
      by_cases hc : c = .close
      · subst hc
        have hcloses : Closes (.close :: calls) ↔ ∀ c ∈ calls, c = .close := by
          simp [Closes]
        rw [hcloses]
        rcases h.close.handler calls with
          ⟨hall, after, hhush⟩ | ⟨hnot, hspoken⟩
        · exact .inr (.inl ⟨hall, w.owner, after, hhush⟩)
        · exact .inr (.inr ⟨hnot, hspoken⟩)
      · have hcloses : Closes (c :: calls) ↔ Closes calls := by
          simp [Closes, hc, Ne.symm hc]
        rw [hcloses]
        exact ih (h.call hc)

/-! ## Transfers -/

theorem Open.note {w : Observed} (h : Open w) {n : Note}
    (hn : n ≠ .called .close) : Open (note n w) :=
  ⟨by simp [TCPSocketBandwidth.note, h.owner, Ne.symm hn], h.flag, h.calls⟩

/-- Moves that concern neither the notes nor what is asked of the inner
socket. -/
theorem Open.congr {w w' : Observed} (h : Open w) (ho : w'.owner = w.owner)
    (hf : w'.sock.closed = w.sock.closed)
    (hc : w'.sock.socket.calls = w.sock.socket.calls) : Open w' :=
  ⟨ho ▸ h.owner, hf ▸ h.flag, hc ▸ h.calls⟩

theorem Open.publish {w : Observed} (h : Open w) (react : React)
    (event : SocketEvent) :
    Phase (TCPSocketBandwidth.publish react event w) := by
  have hnoted : Open (TCPSocketBandwidth.note (.published event) w) :=
    h.note (by simp)
  rw [publish_eq]
  rcases hnoted.handler (react w event) with
    ⟨-, hopen⟩ | ⟨-, before, after, hhush⟩ | ⟨-, hspoken⟩
  · exact .opened hopen
  · exact .hushed before after hhush
  · exact .spoken hspoken

theorem Open.afterData {w : Observed} (h : Open w) (react : React) :
    Phase (afterData (TCPSocketBandwidth.publish react) w) := by
  rcases afterData_cases (TCPSocketBandwidth.publish react) w with
    ⟨-, -, heq⟩ | ⟨-, heq⟩ | ⟨-, -, heq⟩
  · rw [heq]
    have hstopped : Open { w with sock.stopped := true } :=
      h.congr rfl rfl rfl
    exact hstopped.publish react .endEvent
  · rw [heq]
    exact .opened ⟨h.owner, h.flag, by
      simp [resumed, InnerSocket.read, h.calls]⟩
  · rw [heq]
    exact .opened h

theorem Spoken.afterData {w : Observed} (h : Spoken w) (react : React) :
    Spoken (afterData (TCPSocketBandwidth.publish react) w) := by
  rcases afterData_cases (TCPSocketBandwidth.publish react) w with
    ⟨heof, hused, heq⟩ | ⟨hres, heq⟩ | ⟨-, -, heq⟩
  · rw [heq]
    exact Spoken.kept.toKeptInside.publish acts_any
      (Spoken.kept.finish w h heof hused)
  · rw [heq]
    exact Spoken.kept.resume w h hres trivial
  · rw [heq]
    exact h

/-- What the handler of a transfer's `DataEvent` finds, it finds as the transfer
left it. -/
theorem level_popped (react : React) (n : Nat) (data : Bytes)
    (buffer : List DataChunk) (w : Observed) :
    level (publish react (.dataEvent data) (popped n buffer w)).sock =
      (w.sock.paused, w.sock.eof,
        w.sock.bufferUsed - min n w.sock.bufferUsed, w.sock.bufferMaxLength,
        buffer) :=
  level_publish react (.dataEvent data) (popped n buffer w)

/-- A transfer keeps the phases unless it is closed midway. -/
theorem Phase.transfer {react : React} {n : Nat} {w w' : Observed}
    (h : Phase w) (hm : ¬ ClosesMidway react n w)
    (ht : transfer (publish react) n w = some w') : Phase w' := by
  rcases transfer_cases ht with ⟨-, rfl⟩ | ⟨hs, hn, data, buffer, hpop, rfl⟩
  · exact h
  cases h with
  | hushed before after h => simp [h.stopped] at hs
  | spoken h =>
      refine .spoken (Spoken.afterData ?_ react)
      exact Spoken.kept.toKeptInside.publish acts_any
        (Spoken.kept.deliver n data buffer w h hs hpop)
  | opened h =>
      have hdelivered : Open (delivered n data buffer w) :=
        (h.congr rfl rfl rfl : Open (popped n buffer w)).note (by simp)
      rcases hdelivered.handler (react (popped n buffer w) (.dataEvent data))
        with ⟨-, hopen⟩ | ⟨hcloses, before, after, hhush⟩ | ⟨-, hspoken⟩
      · exact hopen.afterData react
      · have hlevel := level_popped react n data buffer w
        simp only [level, Prod.mk.injEq] at hlevel
        obtain ⟨hpaused, heof, hused, hmax, -⟩ := hlevel
        rcases afterData_cases (publish react)
            (publish react (.dataEvent data) (popped n buffer w)) with
          ⟨he, hz, -⟩ | ⟨⟨-, hp, hlt⟩, -⟩ | ⟨-, -, heq⟩
        · refine absurd ⟨hs, h.flag, hn, .inl ⟨heof ▸ he, ?_⟩, data, buffer,
            hpop, hcloses⟩ hm
          rw [hused] at hz
          omega
        · refine absurd ⟨hs, h.flag, hn, .inr ⟨hpaused ▸ hp, ?_⟩, data,
            buffer, hpop, hcloses⟩ hm
          rw [hused, hmax] at hlt
          omega
        · rw [heq]
          exact .hushed before after hhush
      · exact .spoken (Spoken.afterData hspoken react)

theorem Phase.transfers {react : React} {lengths : List Nat}
    {w w' : Observed} (h : Phase w) (hm : ClosesOutside react lengths w)
    (ht : transfers react lengths w = some w') : Phase w' := by
  refine (Lib.foldlM_keeps
    (I := fun lengths w => Phase w ∧ ClosesOutside react lengths w)
    (fun h h₁ => ?_) ⟨h, hm⟩ ht).1
  exact ⟨h.1.transfer h.2.1 h₁, h.2.2 _ h₁⟩

/-! ## Events -/

theorem Phase.relisten {w : Observed} (h : Phase w) (l : InnerListener) :
    Phase (relisten l w) := by
  cases hc : w.sock.closed with
  | true =>
      rw [relisten_of_closed hc]
      exact h
  | false =>
      refine .opened ((h.open_of hc).congr (owner_relisten l w) ?_ ?_) <;>
        simp [TCPSocketBandwidth.relisten, hc]

/-- The `CloseEvent` is published once, because its listener is not registered
again. -/
theorem Phase.closed {react : React} {w w' : Observed} (h : Phase w)
    (hA : Armed none w.sock) (hs : step w (.closed, react) = some w') :
    Phase w' := by
  obtain ⟨hc, hcases⟩ := step_closed hA hs
  cases h with
  | opened h => simp [h.flag] at hc
  | spoken h =>
      refine .spoken ?_
      have htaking : Spoken (taking .close w) := Spoken.kept.listen _ w h
      rcases hcases with ⟨-, rfl⟩ | ⟨-, rfl⟩
      · exact Spoken.kept.toKeptInside.publish acts_any
          (Spoken.kept.forward .closeEvent _ htaking (by simp) (by simp))
      · exact htaking
  | hushed before after h =>
      have honce := h.once
      rcases hcases with ⟨hl, rfl⟩ | ⟨hl, rfl⟩
      · rw [hl] at honce
        have hnoted : Hushed before (after ++ [.published .closeEvent])
            (note (.published .closeEvent) (taking .close w)) := by
          constructor
          · simp [note, taking, h.owner]
          · exact h.first
          · exact h.quiet_snoc rfl
          · intro event hmem
            rcases List.mem_append.mp hmem with hmem | hmem
            · exact h.published event hmem
            · simpa using hmem
          · rw [List.count_append]
            simp only [List.length_cons, List.length_nil] at honce
            simp [note, taking, hl, Emitter.clearKind, Listens.kind]
            omega
          · exact h.flag
          · exact h.stopped
          · exact h.calls
        rw [publish_eq]
        rcases hnoted.handler (react (taking .close w) .closeEvent) with
          ⟨-, after', hhush⟩ | ⟨-, hspoken⟩
        · exact .hushed before after' hhush
        · exact .spoken hspoken
      · refine .hushed before after ⟨h.owner, h.first, h.quiet, h.published,
          ?_, h.flag, h.stopped, h.calls⟩
        simp only [taking, hl, Emitter.clearKind, List.filter_nil]
        rw [hl] at honce
        exact honce

theorem Phase.received {w : Observed} (h : Phase w)
    (hc : w.sock.closed = false) (segment : Bytes) (sync : List Nat) :
    Phase (Event.transfersFrom w (.data segment sync)).2 := by
  have hopen := h.open_of hc
  have hbuffered : Open { w with
      sock := bufferData segment (taking .data w).sock } := by
    have hcalls := hopen.calls
    refine ⟨hopen.owner, ?_, ?_⟩
    · simp only [bufferData]
      split <;> exact hc
    · simp only [bufferData]
      split
      · simp [taking, InnerSocket.stop, hcalls]
      · exact hcalls
  exact .opened (hbuffered.note (n := .received segment) (by simp))

/-- One event keeps the phases unless one of its transfers is closed midway. -/
theorem Phase.step {react : React} {w w' : Observed} {e : Event}
    (h : Phase w) (hA : Armed none w.sock) (hm : Orderly w (e, react))
    (hs : step w (e, react) = some w') : Phase w' := by
  by_cases hclosed : e = .closed
  · subst hclosed
    exact h.closed hA hs
  cases step_cases hA hs with
  | @data segment sync w₁ hc ht =>
      exact ((h.received hc segment sync).transfers hm ht).relisten _
  | forwarded he hc =>
      have hopen := h.open_of hc
      exact ((hopen.congr rfl rfl rfl : Open (taking _ w)).publish react
        _).relisten _
  | ended hc =>
      have hopen : Open (taking .endOfStream { w with sock.eof := true }) :=
        (h.open_of hc).congr rfl rfl rfl
      exact .opened (hopen.note (by simp))
  | endedAgain hc _ =>
      have hopen : Open (taking .endOfStream w) :=
        (h.open_of hc).congr rfl rfl rfl
      exact .opened (hopen.note (by simp))
  | closed _ => exact absurd rfl hclosed
  | closedAgain _ => exact absurd rfl hclosed
  | @transfer n w' ht => exact h.transfer hm.1 ht
  | @call c =>
      cases h with
      | opened h =>
          rcases h.handler [c] with
            ⟨-, hopen⟩ | ⟨-, before, after, hhush⟩ | ⟨-, hspoken⟩
          · exact .opened hopen
          · exact .hushed before after hhush
          · exact .spoken hspoken
      | hushed before after h =>
          rcases h.handler [c] with ⟨-, after', hhush⟩ | ⟨-, hspoken⟩
          · exact .hushed before after' hhush
          · exact .spoken hspoken
      | spoken h => exact .spoken (h.handler [c])

/-! ## The close that is not final -/

/-- What was observed until an event followed the `close()`. -/
def LoudAt (start : List Note) : Prop :=
  ∃ before after event,
    start = before ++ .called .close :: (after ++ [.published event]) ∧
    .called .close ∉ before ∧ (∀ n ∈ after, n.further = false) ∧
    event ≠ .closeEvent

/-- The closed inner socket was told to read. -/
structure Reread (w : Observed) : Prop where
  quiet : ∃ before after, w.owner = before ++ .called .close :: after ∧
    .called .close ∉ before ∧ ∀ n ∈ after, n.further = false
  flag : w.sock.closed = true
  stopped : w.sock.stopped = true
  calls : ∃ earlier, w.sock.socket.calls = earlier ++ [.read]

inductive Broken (w : Observed) : Prop
  | loud (h : Began LoudAt w)
  | reread (h : Reread w)

theorem Broken.not_closeFinal {w : Observed} (h : Broken w) :
    ¬ CloseFinal w := by
  intro hf
  cases h with
  | loud h =>
      obtain ⟨start, ⟨rest, hstart⟩, before, after, event, rfl, hfirst, hquiet,
        hne⟩ := h
      have howner : w.owner =
          before ++ .called .close :: (after ++ (.published event :: rest)) := by
        simp [← hstart]
      refine hne (hf.published event ?_)
      rw [howner, hush_of_first hfirst hquiet]
      simp [Note.further]
  | reread h =>
      obtain ⟨before, after, howner, hfirst, hquiet⟩ := h.quiet
      obtain ⟨earlier, hread⟩ := h.calls
      have hsince : sinceClose w.owner = after := by
        rw [howner, sinceClose_of_first hfirst]
      obtain ⟨earlier', hclose, -⟩ :=
        hf.calls (by simp [howner]) (hsince ▸ hquiet)
      have hlast := congrArg List.getLast? (hread.symm.trans hclose)
      simp at hlast

theorem Broken.transfers {react : React} {lengths : List Nat}
    {w w' : Observed} (h : Broken w)
    (ht : transfers react lengths w = some w') : Broken w' := by
  cases h with
  | loud h =>
      exact .loud (Began.kept.toKeptInside.transfers acts_any atResume_trivial
        h ht)
  | reread h =>
      refine .reread ?_
      refine Lib.foldlM_keeps (I := fun _ w => Reread w) (fun h h₁ => ?_) h ht
      rcases transfer_cases h₁ with ⟨-, rfl⟩ | ⟨hs, -⟩
      · exact h
      · exact absurd (hs.symm.trans h.stopped) Bool.false_ne_true

theorem Broken.relisten {w : Observed} (h : Broken w) (l : InnerListener) :
    Broken (relisten l w) := by
  cases h with
  | loud h =>
      exact .loud (h.append (by simp [owner_relisten]))
  | reread h =>
      rw [relisten_of_closed h.flag]
      exact .reread h

/-- A transfer that is closed midway publishes the end all the same, or tells
the closed inner socket to read. -/
theorem broken_of_closesMidway {react : React} {n : Nat} {w w' : Observed}
    (h : Phase w) (hm : ClosesMidway react n w)
    (ht : transfer (publish react) n w = some w') : Broken w' := by
  obtain ⟨hs, hc, hn, hafter, data, buffer, hpop, hcloses⟩ := hm
  have hopen := h.open_of hc
  rcases transfer_cases ht with ⟨hidle, -⟩ | ⟨-, -, data', buffer', hpop', rfl⟩
  · simp [hs, hn] at hidle
  rw [hpop] at hpop'
  simp only [Option.some.injEq, Prod.mk.injEq] at hpop'
  obtain ⟨rfl, rfl⟩ := hpop'
  have hdelivered : Open (delivered n data buffer w) :=
    (hopen.congr rfl rfl rfl : Open (popped n buffer w)).note (by simp)
  obtain ⟨before, after, hhush⟩ : ∃ before after, Hushed before after
      (publish react (.dataEvent data) (popped n buffer w)) := by
    rcases hdelivered.handler (react (popped n buffer w) (.dataEvent data))
      with ⟨hnot, -⟩ | ⟨-, hhush⟩ | ⟨hnot, -⟩
    · exact absurd hcloses hnot
    · exact hhush
    · exact absurd hcloses hnot
  have hlevel := level_popped react n data buffer w
  simp only [level, Prod.mk.injEq] at hlevel
  obtain ⟨hpaused, heof, hused, hmax, -⟩ := hlevel
  rcases afterData_cases (publish react)
      (publish react (.dataEvent data) (popped n buffer w)) with
    ⟨-, -, heq⟩ | ⟨-, heq⟩ | ⟨hend, hres, -⟩
  · rw [heq]
    refine .loud ⟨before ++ .called .close :: (after ++ [.published .endEvent]),
      ?_, before, after, .endEvent, rfl, hhush.first, hhush.quiet, by simp⟩
    rw [publish_eq, owner_foldl_doCall]
    refine List.IsPrefix.trans ?_ (List.prefix_append _ _)
    simp [note, hhush.owner]
  · rw [heq]
    exact .reread ⟨⟨before, after, hhush.owner, hhush.first, hhush.quiet⟩,
      hhush.flag, hhush.stopped, _, rfl⟩
  · exfalso
    rw [heof, hused] at hend
    rcases hafter with ⟨he, hle⟩ | ⟨hp, hlt⟩
    · exact hend ⟨he, by omega⟩
    · refine hres ⟨?_, hpaused.trans hp, ?_⟩
      · rw [heof, hused]
        exact hend
      · rw [hused, hmax]
        omega

theorem broken_of_not_closesOutside {react : React} {lengths : List Nat}
    {w w' : Observed} (h : Phase w) (hm : ¬ ClosesOutside react lengths w)
    (ht : transfers react lengths w = some w') : Broken w' := by
  induction lengths generalizing w with
  | nil => exact absurd trivial hm
  | cons n lengths ih =>
      simp only [TCPSocketBandwidth.transfers, List.foldlM_cons] at ht
      obtain ⟨w₁, h₁, hrest⟩ := Option.bind_eq_some_iff.mp ht
      by_cases hhead : ClosesMidway react n w
      · exact (broken_of_closesMidway h hhead h₁).transfers hrest
      · refine ih (h.transfer hhead h₁) (fun htail => ?_) hrest
        refine hm ⟨hhead, fun w₂ h₂ => ?_⟩
        rw [h₁] at h₂
        exact Option.some.inj h₂ ▸ htail

theorem broken_of_not_orderly {react : React} {w w' : Observed} {e : Event}
    (h : Phase w) (hm : ¬ Orderly w (e, react)) (hs : Steps react w e w') :
    Broken w' := by
  cases hs with
  | @data segment sync w₁ hc ht =>
      exact (broken_of_not_closesOutside (h.received hc segment sync) hm
        ht).relisten _
  | transfer ht =>
      refine broken_of_not_closesOutside h hm ?_
      simp [Event.transfersFrom, TCPSocketBandwidth.transfers, ht]
  | @forwarded e event he _ =>
      cases e <;> first
        | exact absurd trivial hm
        | (simp [Event.forwarded] at he)
  | ended _ => exact absurd trivial hm
  | endedAgain _ _ => exact absurd trivial hm
  | closed _ => exact absurd trivial hm
  | closedAgain _ => exact absurd trivial hm
  | call => exact absurd trivial hm

/-! ## Runs -/

theorem Phase.created (conn bufferMaxLength : Nat) :
    Phase (created conn bufferMaxLength) := by
  refine .opened ⟨?_, ?_, ?_⟩ <;>
    simp [TCPSocketBandwidth.created, create, setBuffer]

/-- `close()` is final in every state a run passes exactly if no transfer of the
run is closed midway by the handler of its `DataEvent`. -/
theorem close_final_iff {conn bufferMaxLength : Nat} {w : Observed}
    {hist : List (Observed × (Event × React))}
    (hr : Runs (TCPSocketBandwidth.created conn bufferMaxLength) hist w) :
    (∀ x, Passes hist w x → CloseFinal x) ↔ Meets Orderly hist := by
  have hphase : ∀ {hist' t}, Runs (TCPSocketBandwidth.created conn
      bufferMaxLength) hist' t → Meets Orderly hist' →
      Phase t ∧ Armed none t.sock := by
    intro hist' t hr' hm
    refine hr'.invariant (fun w => Phase w ∧ Armed none w.sock) hm
      ⟨Phase.created conn bufferMaxLength,
        (Armed.create conn).congr rfl rfl rfl⟩ ?_
    intro t e u hI he hs
    exact ⟨hI.1.step hI.2 he hs, hI.2.steps (step_cases hI.2 hs)⟩
  refine hr.always_iff (fun hr' hm => (hphase hr' hm).1.closeFinal) ?_
  intro hist' t e u hr' hm hs he
  obtain ⟨ht, hA⟩ := hphase hr' hm
  exact (broken_of_not_orderly ht he (step_cases hA hs)).not_closeFinal

/-- An owner that closes the socket as soon as it gets data. -/
def closingOwner : React
  | _, .dataEvent _ => [.close]
  | _, _ => []

/-- The last byte is handed out to an owner who closes the socket, after the end
of the stream was seen: he is told the end all the same. -/
theorem close_not_final : ¬ ∀ (conn bufferMaxLength : Nat)
    (hist : List (Observed × (Event × React))) (w : Observed),
    Runs (TCPSocketBandwidth.created conn bufferMaxLength) hist w →
    ∀ x, Passes hist w x → CloseFinal x := by
  intro hall
  obtain ⟨hist, w, hexec, hmem⟩ : ∃ hist w,
      exec step (TCPSocketBandwidth.created 0 4)
        [(.call .read, quietOwner), (.data [1] [], quietOwner),
          (.ended, quietOwner), (.transfer 1, closingOwner)] =
        some (hist, w) ∧ .published .endEvent ∈ hush w.owner :=
    ⟨_, _, rfl, by decide⟩
  have hfinal := hall 0 4 hist w (run_of_exec hexec) w .last
  exact absurd (hfinal.published .endEvent hmem) (by simp)

/-- The same owner closing the socket while bytes are left in its queue, and the
`CloseEvent` that follows. -/
theorem close_final_early : ∃ hist w,
    Runs (TCPSocketBandwidth.created 0 4) hist w ∧
      hush w.owner = [.published .closeEvent] ∧
      ∀ x, Passes hist w x → CloseFinal x := by
  obtain ⟨hist, w, hexec, hhush⟩ : ∃ hist w,
      exec step (TCPSocketBandwidth.created 0 4)
        [(.call .read, quietOwner), (.data [1, 2] [], quietOwner),
          (.transfer 1, closingOwner), (.closed, quietOwner)] =
        some (hist, w) ∧ hush w.owner = [.published .closeEvent] :=
    ⟨_, _, rfl, by decide⟩
  have hr := run_of_exec hexec
  refine ⟨hist, w, hr, hhush,
    (close_final_iff hr).mpr (meets_of_along hexec ?_)⟩
  refine ⟨trivial, fun t ht => ⟨trivial, fun u hu => ⟨⟨?_, fun _ _ => trivial⟩,
    fun _ _ => ⟨trivial, fun _ _ => trivial⟩⟩⟩⟩
  cases ht
  cases hu
  rintro ⟨-, -, -, ⟨heof, -⟩ | ⟨hpaused, -⟩, -⟩
  · exact absurd heof (by decide)
  · exact absurd hpaused (by decide)

end TCPSocketBandwidth

end EcwidDownloader
