import EcwidDownloader.Proofs.Sharing
import EcwidDownloader.Proofs.SocketTicks

/-!
# What a tick of the controller hands out

Between the rounds of a tick the owners of the sockets run their handlers. As
long as these leave the stock alone, every call gives what it asks for and the
tick is rounds of sharing: it stays within its budget exactly if the budget is
`Shareable`, and if it is not the counter wraps and everything that is buffered
is handed out.
-/

namespace EcwidDownloader

open Lib ControllerSimple

namespace ControllerSimple

/-- What a run of `transfer` handed to `Stream::transfer`. -/
def handedBytes (tick : Tick) : Nat := (tick.handed.map Handed.length).sum

/-- What the limit allows for the time of a tick. -/
def allowed (c : ControllerSimple) (tick : Tick) : Nat :=
  c.limit * tick.elapsed / 1000

/-- Every run of `transfer` has handed out at most what the limit allows for its
time, all of them together at most the sum of that, and the counter never
wrapped. -/
structure WithinBudget (c : ControllerSimple) : Prop where
  tick : ∀ tick ∈ c.ticks, handedBytes tick ≤ allowed c tick
  whole : (c.ticks.map handedBytes).sum ≤ (c.ticks.map (allowed c)).sum
  counter : ∀ tick ∈ c.ticks, ∀ x ∈ tick.handed, x.length ≤ x.total

theorem WithinBudget.cons {c c' : ControllerSimple} {tick : Tick}
    (hw : WithinBudget c) (hlimit : c'.limit = c.limit)
    (hticks : c'.ticks = tick :: c.ticks)
    (hsum : handedBytes tick ≤ c.limit * tick.elapsed / 1000)
    (hbelow : ∀ x ∈ tick.handed, x.length ≤ x.total) : WithinBudget c' := by
  have hallowed : allowed c' = allowed c := by
    funext tick
    rw [allowed, allowed, hlimit]
  refine ⟨?_, ?_, ?_⟩
  · intro t ht
    rw [hticks] at ht
    rw [hallowed]
    rcases List.mem_cons.mp ht with rfl | ht
    · exact hsum
    · exact hw.tick t ht
  · rw [hticks, hallowed, List.map_cons, List.map_cons, List.sum_cons,
      List.sum_cons]
    exact Nat.add_le_add hsum hw.whole
  · intro t ht
    rw [hticks] at ht
    rcases List.mem_cons.mp ht with rfl | ht
    · exact hbelow
    · exact hw.counter t ht

theorem WithinBudget.congr {c c' : ControllerSimple} (hw : WithinBudget c)
    (hlimit : c'.limit = c.limit) (hticks : c'.ticks = c.ticks) :
    WithinBudget c' := by
  have hallowed : allowed c' = allowed c := by
    funext tick
    rw [allowed, allowed, hlimit]
  exact ⟨by rw [hticks, hallowed]; exact hw.tick,
    by rw [hticks, hallowed]; exact hw.whole,
    by rw [hticks]; exact hw.counter⟩

end ControllerSimple

namespace ThrottledStreams

/-! ## Conditions on an event -/

abbrev stopped (stream : Nat) (w : Net) : Bool :=
  w.socks[stream]?.any fun s => s.tcp.stopped

/-- The budget of the run of `transfer` that an event starts can be shared among
the streams: it covers all they hold, or it is what they hold cut at some level,
above which no stopped stream that holds anything is asked for more than it
has. -/
def SharesOut (h : Hosted Net) (e : Event × React) : Prop :=
  ∀ elapsed h₀, begins h e.1 = some (elapsed, h₀) →
    Shareable (h.ctl.limit * elapsed / 1000)
      (holders (streams e.2) stopped h₀)

/-- No stream that holds anything is stopped when the controller begins. -/
def NoneStopped (h : Hosted Net) (e : Event × React) : Prop :=
  ∀ elapsed h₀, begins h e.1 = some (elapsed, h₀) →
    Willing (holders (streams e.2) stopped h₀)

/-- Every call of the run of `transfer` that an event starts gives what it asks
for: the handlers that run inside it stop no stream that holds anything, close
none and let none run again. -/
def GivesAllAsked (h : Hosted Net) (e : Event × React) : Prop :=
  ∀ elapsed h₀, begins h e.1 = some (elapsed, h₀) →
    ∀ fuel, AllGive (streams e.2) stopped (asks (streams e.2) fuel elapsed h₀)

/-- The product of the limit and the elapsed time fits into `size_t`. -/
def FitsSize (h : Hosted Net) (e : Event × React) : Prop :=
  ∀ elapsed h₀, begins h e.1 = some (elapsed, h₀) →
    h.ctl.limit * elapsed < sizeModulus

/-- The steps whose budgets can be computed. -/
def SizedStep (h : Hosted Net) (e : Event × React) (h' : Hosted Net) : Prop :=
  Step h e h' ∧ FitsSize h e

/-! ## Owners that leave the stock alone -/

/-- What an owner may do within a tick: anything but to stop a stream, to close
one and to let one run again. -/
def Act.Harmless : Act → Prop
  | .call _ .stop | .call _ .close | .call _ .read => False
  | _ => True

def Harmless (react : React) : Prop :=
  ∀ h stream event, ∀ a ∈ react h stream event, a.Harmless

/-- A socket in the stock. -/
def entry (stream : Nat) (s : Sock) : Option (Nat × Holder) :=
  if s.alive = true ∧ 0 < s.tcp.bufferUsed then
    some (stream, { amount := s.tcp.bufferUsed, keeps := s.tcp.stopped })
  else none

section

variable {react : React} {i n : Nat} {h h' : Hosted Net} {a : Act}

theorem holding_eq (h : Hosted Net) (node : Node) :
    holding (streams react) stopped h node =
      node.weak.bind fun j => h.world.socks[j]?.bind (entry j) := by
  cases hweak : node.weak with
  | none =>
      have hl : lock (streams react) node h = none := by
        rw [lock, hweak]
        rfl
      exact holding_of_not_lock hl
  | some j =>
      by_cases hlock : ops.lock j h.world = true
      · have hl : lock (streams react) node h = some j := by
          rw [lock, hweak]
          exact Option.filter_some_pos hlock
        obtain ⟨s, hs, halive⟩ := lock_iff.mp hlock
        have hstopped : stopped j h.world = s.tcp.stopped := by
          simp [stopped, hs]
        rw [holding_of_lock hl, available_eq hs, hstopped, Option.bind_some,
          hs, Option.bind_some, entry]
        simp only [halive, true_and]
      · have hl : lock (streams react) node h = none := by
          rw [lock, hweak]
          exact Option.filter_some_neg (Bool.eq_false_iff.mpr hlock)
        rw [holding_of_not_lock hl, Option.bind_some]
        cases hs : h.world.socks[j]? with
        | none => rfl
        | some s =>
            have hgone : ¬ s.alive = true := fun halive =>
              hlock (lock_iff.mpr ⟨s, hs, halive⟩)
            rw [Option.bind_some, entry, if_neg fun hc => hgone hc.1]

theorem stock_congr (hstreams : h'.ctl.streams = h.ctl.streams)
    (hsocks : ∀ j, h'.world.socks[j]?.bind (entry j) =
      h.world.socks[j]?.bind (entry j)) :
    stock (streams react) stopped h' = stock (streams react) stopped h := by
  unfold stock
  rw [hstreams]
  refine List.filterMap_congr fun node _ => ?_
  rw [holding_eq, holding_eq]
  simp only [hsocks]

/-- A change of a socket that the stock does not show. -/
theorem stock_edit {f : TCPSocketBandwidth → TCPSocketBandwidth}
    (hf : ∀ s, h.world.socks[i]? = some s →
      entry i { s with tcp := f s.tcp } = entry i s) :
    stock (streams react) stopped (edit i f h) =
      stock (streams react) stopped h := by
  refine stock_congr rfl fun j => ?_
  by_cases hij : i = j
  · subst hij
    cases hs : h.world.socks[i]? with
    | none => simp [edit, hs]
    | some s =>
        rw [edit_self hs]
        exact hf s hs
  · rw [edit_other hij]

theorem stock_create : stock (streams react) stopped (createSock h) =
    stock (streams react) stopped h := by
  have hfresh : entry h.world.socks.length (freshSock h) = none := if_neg nofun
  have hsocks : ∀ j, (createSock h).world.socks[j]?.bind (entry j) =
      h.world.socks[j]?.bind (entry j) := by
    intro j
    rw [createSock_eq]
    dsimp only
    rw [List.getElem?_append]
    split
    · rfl
    · next hlength =>
        rw [List.getElem?_eq_none (Nat.le_of_not_lt hlength),
          List.getElem?_singleton]
        split
        · next hzero =>
            have hj : j = h.world.socks.length := by omega
            subst hj
            exact hfresh
        · rfl
  have hold : ∀ node, holding (streams react) stopped (createSock h) node =
      holding (streams react) stopped h node := by
    intro node
    rw [holding_eq, holding_eq]
    simp only [hsocks]
  unfold stock
  rw [show (createSock h).ctl.streams = h.ctl.streams ++
      [{ id := h.ctl.inserted, weak := some h.world.socks.length }] by
    rw [createSock_eq], List.filterMap_append]
  have hnew : holding (streams react) stopped (createSock h)
      { id := h.ctl.inserted, weak := some h.world.socks.length } = none := by
    rw [hold, holding_eq, Option.bind_some,
      List.getElem?_eq_none (Nat.le_refl _)]
    rfl
  rw [List.filterMap_cons_none hnew, List.filterMap_nil, List.append_nil]
  exact List.filterMap_congr fun node _ => hold node

theorem stock_act (ha : a.Harmless) :
    stock (streams react) stopped (act h a) =
      stock (streams react) stopped h := by
  cases a with
  | create => exact stock_create
  | call j c =>
      by_cases hlock : ops.lock j h.world = true
      · have hleave : leave j c h = h := by
          refine if_neg fun hc => ?_
          rw [hc.1] at ha
          exact ha
        rw [act_call hlock, hleave]
        refine Eq.trans (stock_congr rfl fun _ => rfl)
          (stock_edit (i := j) (f := TCPSocketBandwidth.call c) ?_)
        intro s _
        cases c with
        | read | stop | close => exact ha.elim
        | connect | connect6 | write | shutdown => rfl
      · rw [act_call_gone hlock]

theorem stock_handle (hr : Harmless react) (event : SocketEvent) :
    stock (streams react) stopped (handle react i event h) =
      stock (streams react) stopped h := by
  unfold handle
  have hall := hr h i event
  generalize react h i event = acts at hall
  induction acts generalizing h with
  | nil => rfl
  | cons a acts ih =>
      obtain ⟨ha, hall⟩ := List.forall_mem_cons.mp hall
      exact (ih hall).trans (stock_act ha)

/-- What a socket that is asked for `n` bytes is to hold afterwards. -/
theorem stock_asked {f : TCPSocketBandwidth → TCPSocketBandwidth}
    (hf : ∀ s, h.world.socks[i]? = some s →
      entry i { s with tcp := f s.tcp } =
        ((entry i s).map fun e => (e.1, e.2.left n)).filter
          fun e => 0 < e.2.amount) :
    stock (streams react) stopped (edit i f h) =
      drawn i n (stock (streams react) stopped h) := by
  refine stock_drawn rfl fun node _ => ?_
  rw [holding_eq, holding_eq]
  cases node.weak with
  | none => rfl
  | some j =>
      rw [Option.bind_some, Option.bind_some]
      by_cases hij : i = j
      · subst hij
        cases hs : h.world.socks[i]? with
        | none => simp [edit, hs]
        | some s =>
            rw [edit_self hs, Option.bind_some, Option.bind_some, hf s hs]
            unfold entry
            split <;> simp
      · rw [edit_other hij]
        cases hs : h.world.socks[j]? with
        | none => rfl
        | some s =>
            unfold entry
            rw [Option.bind_some]
            split
            · next hpos => simp [Option.filter, Ne.symm hij, hpos.2]
            · rfl

/-- Who is stopped keeps what is there, and so does who is asked for nothing. -/
theorem stock_idle (hidle : (tcpOf i h).stopped = true ∨ n = 0) :
    stock (streams react) stopped h =
      drawn i n (stock (streams react) stopped h) := by
  have hasked : stock (streams react) stopped (edit i id h) =
      drawn i n (stock (streams react) stopped h) := by
    refine stock_asked fun s hs => ?_
    rw [tcpOf_eq hs] at hidle
    show entry i s = _
    unfold entry
    split
    · next hpos =>
        rcases hidle with hst | rfl
        · simp [Holder.left, Option.filter, hst, hpos.2]
        · simp [Holder.left, Option.filter, hpos.2]
    · rfl
  have hsame : edit i id h = h := edit_eq_self fun _ _ => rfl
  rw [hsame] at hasked
  exact hasked

theorem stock_popped (hgoing : (tcpOf i h).stopped = false)
    (buffer : List DataChunk) :
    stock (streams react) stopped (edit i (popTcp n buffer) h) =
      drawn i n (stock (streams react) stopped h) := by
  refine stock_asked fun s hs => ?_
  rw [tcpOf_eq hs] at hgoing
  unfold entry
  by_cases hpos : s.alive = true ∧ 0 < s.tcp.bufferUsed
  · rw [if_pos hpos]
    simp [Holder.left, Option.filter, popTcp, hgoing, hpos.1,
      Nat.min_comm s.tcp.bufferUsed n]
  · rw [if_neg hpos, if_neg fun hc => hpos ⟨hc.1, by
      have hless : 0 < s.tcp.bufferUsed - min n s.tcp.bufferUsed := hc.2
      omega⟩]
    rfl

/-- An empty socket is not in the stock, stopped or not. -/
theorem stock_halted (hempty : (tcpOf i h).bufferUsed = 0) :
    stock (streams react) stopped (edit i haltTcp h) =
      stock (streams react) stopped h := by
  refine stock_edit fun s hs => ?_
  rw [tcpOf_eq hs] at hempty
  have hzero : ¬ (s.alive = true ∧ 0 < s.tcp.bufferUsed) := by omega
  exact (if_neg hzero).trans (if_neg hzero).symm

/-- A transfer gives what it is asked for if the owners are harmless. -/
theorem gives_of_harmless (hr : Harmless react) (h : Hosted Net) :
    GivesAsked (streams react) stopped i n h := by
  intro h' ht
  cases hst : (tcpOf i h).stopped with
  | true =>
      rw [transferTo_stopped hst ht, ← stock_idle (.inl hst)]
      exact stock_congr rfl fun _ => rfl
  | false =>
      obtain ⟨w, htw, rfl⟩ := Option.map_eq_some_iff.mp ht
      have hnone : ∀ h₁ : Hosted Net,
          stock (streams react) stopped (serve none h₁) =
            stock (streams react) stopped h₁ :=
        fun h₁ => stock_congr rfl fun _ => rfl
      have hserve : stock (streams react) stopped (serve (some i) h) =
          stock (streams react) stopped h := stock_congr rfl fun _ => rfl
      rw [hnone, ← hserve]
      rcases transfer_put htw with
        ⟨hidle, heq⟩ | ⟨data, buffer, h₂, -, rfl, hcases⟩
      · rw [heq]
        exact stock_idle hidle
      · have hpopped : stock (streams react) stopped
            (edit i (popTcp n buffer) (serve (some i) h)) =
              drawn i n (stock (streams react) stopped (serve (some i) h)) :=
          @stock_popped react _ _ _ hst buffer
        have hdata := (stock_handle (i := i) hr (.dataEvent data)).trans
          hpopped
        rcases hcases with ⟨hempty, heq⟩ | heq | heq
        · rw [heq, stock_handle hr, stock_halted hempty]
          exact hdata
        · rw [heq, stock_edit fun _ _ => rfl]
          exact hdata
        · rw [heq]
          exact hdata

theorem givesAllAsked_of_harmless {e : Event × React} (hr : Harmless e.2) :
    GivesAllAsked h e :=
  fun _ _ _ _ a _ => gives_of_harmless hr a.host

end

/-! ## One event -/

theorem keeps {react : React} {limit : Nat} :
    KeepsOrder (streams react) (Turning limit) :=
  sockets_yield.keeps fun ht => ht.wired.own

section

variable {limit : Nat} {h h' : Hosted Net} {e : Event × React}

/-- What one event does to the record: it adds a run of `transfer` to it at
most. -/
theorem step_ticks (hf : Steadfast limit h) (hfit : FitsSize h e)
    (hgives : GivesAllAsked h e) (hs : Step h e h') :
    h'.ctl.limit = h.ctl.limit ∧
      ((h'.ctl.ticks = h.ctl.ticks ∧ (NoneStopped h e → SharesOut h e)) ∨
        ∃ tick, h'.ctl.ticks = tick :: h.ctl.ticks ∧
          (handedBytes tick ≤ h.ctl.limit * tick.elapsed / 1000 →
            ∀ x ∈ tick.handed, x.length ≤ x.total) ∧
          (SharesOut h e →
            handedBytes tick ≤ h.ctl.limit * tick.elapsed / 1000) ∧
          (NoneStopped h e →
            handedBytes tick ≤ h.ctl.limit * tick.elapsed / 1000 →
            SharesOut h e)) := by
  obtain ⟨hf', hmakes⟩ := hf.step hs
  refine ⟨hf'.onData.own.trans hf.onData.own.symm, ?_⟩
  rcases hmakes with
    ⟨hnone, hticks⟩ | ⟨elapsed, h₀, fuel, h₁, hb, ht, hend⟩
  · exact .inl ⟨hticks, fun _ _ _ hb => by simp [hnone] at hb⟩
  · have hctl : h'.ctl = h₁.ctl := by
      rcases hend with rfl | ⟨i, rfl⟩ <;> rfl
    obtain ⟨hlimit, hticks₀⟩ := begins_ctl hb
    have hturn : Turning limit (begun elapsed h₀) :=
      (hf.turning hb).begun elapsed
    have hbudget : budget elapsed h₀.ctl = h.ctl.limit * elapsed / 1000 := by
      rw [budget_eq (hlimit.symm ▸ hfit elapsed h₀ hb), hlimit]
    obtain ⟨hfits, honly⟩ :=
      keeps.transfer_shared hturn (hgives elapsed h₀ hb fuel) ht
    have hbelow := asks_fit ht
    rw [hbudget] at hfits honly hbelow
    have hshares : SharesOut h e ↔
        Shareable (h.ctl.limit * elapsed / 1000)
          (holders (streams e.2) stopped h₀) := by
      constructor
      · exact fun hC => hC elapsed h₀ hb
      · intro hC elapsed' h₀' hb'
        rw [hb] at hb'
        cases hb'
        exact hC
    obtain ⟨-, -, ⟨hasks, hticks⟩ | hticks⟩ :=
      serves_recorded.transfer hturn.wired ht
    · refine .inl ⟨by rw [hctl, hticks, hticks₀], fun hN => ?_⟩
      rw [hshares]
      refine honly (hN elapsed h₀ hb) ?_
      rw [hasks]
      exact Nat.zero_le _
    · refine .inr ⟨_, by rw [hctl, hticks, hticks₀], ?_⟩
      have hsum : handedBytes
          { elapsed := elapsed
            handed := (asks (streams e.2) fuel elapsed h₀).map
              Ask.toHanded } =
          asked (asks (streams e.2) fuel elapsed h₀) := by
        rw [handedBytes, List.map_map]
        rfl
      rw [hsum, hshares]
      refine ⟨fun hle x hx => ?_, hfits, fun hN => honly (hN elapsed h₀ hb)⟩
      obtain ⟨a, ha, rfl⟩ := List.mem_map.mp hx
      exact hbelow.mp hle a ha

/-- A tick that shares out a shareable budget stays within it. -/
theorem withinBudget_step (hf : Steadfast limit h) (hfit : FitsSize h e)
    (hgives : GivesAllAsked h e) (hs : Step h e h') (hC : SharesOut h e)
    (hw : WithinBudget h.ctl) : WithinBudget h'.ctl := by
  obtain ⟨hlimit, ⟨hticks, -⟩ | ⟨tick, hticks, hbelow, hfits, -⟩⟩ :=
    step_ticks hf hfit hgives hs
  · exact hw.congr hlimit hticks
  · exact hw.cons hlimit hticks (hfits hC) (hbelow (hfits hC))

/-- Among streams that are not stopped, a tick whose budget cannot be shared
out exceeds it. -/
theorem not_withinBudget (hf : Steadfast limit h) (hfit : FitsSize h e)
    (hgives : GivesAllAsked h e) (hs : Step h e h') (hN : NoneStopped h e)
    (hC : ¬ SharesOut h e) : ¬ WithinBudget h'.ctl := by
  obtain ⟨hlimit, ⟨-, honly⟩ | ⟨tick, hticks, -, -, honly⟩⟩ :=
    step_ticks hf hfit hgives hs
  · exact fun _ => hC (honly hN)
  · intro hin
    have htick := hin.tick tick (hticks ▸ List.mem_cons_self)
    rw [allowed, hlimit] at htick
    exact hC (honly hN htick)

/-- An event that can happen now: the timer is armed, the socket is there and
open. -/
def Due (h : Hosted Net) : Event → Prop
  | .tick _ => h.ctl.timer.armed = true
  | .inner stream event _ => ops.lock stream h.world = true ∧
      (tcpOf stream h).socket.closed = decide (event = .closeEvent)
  | _ => True

/-- A transfer that begins comes to an end. -/
theorem step_ends (hf : Steadfast limit h) (hdue : Due h e.1)
    (hbegins : (begins h e.1).isSome = true) (hfit : FitsSize h e)
    (hgives : GivesAllAsked h e) (hC : SharesOut h e ∨ NoneStopped h e) :
    ∃ h', Step h e h' := by
  obtain ⟨⟨elapsed, h₀⟩, hb⟩ := Option.isSome_iff_exists.mp hbegins
  have hbudget : budget elapsed h₀.ctl = h.ctl.limit * elapsed / 1000 := by
    obtain ⟨hlimit, -⟩ := begins_ctl hb
    rw [budget_eq (hlimit.symm ▸ hfit elapsed h₀ hb), hlimit]
  obtain ⟨N, h₁, hends⟩ := keeps.transfer_ends sockets_yield
    ((hf.turning hb).begun elapsed) (hgives elapsed h₀ hb)
    (hC.imp (fun hs => hbudget ▸ hs elapsed h₀ hb) fun hw => hw elapsed h₀ hb)
  have hend := hends N (Nat.le_refl N)
  obtain ⟨event, react⟩ := e
  cases event with
  | tick elapsed =>
      cases hb
      have htimer : h.ctl.timer = { listeners := 1, armed := true } := by
        have htimed := hf.alert.timed
        unfold Timed at htimed
        split at htimed
        · exact htimed
        · have harmed : h.ctl.timer.armed = true := hdue
          rw [htimed] at harmed
          cases harmed
      refine ⟨h₁, N, ?_⟩
      simpa [step, timerEvent, htimer] using hend
  | inner i event elapsed =>
      cases event with
      | dataEvent data =>
          simp only [begins] at hb
          split at hb
          · cases hb
          · next hidle =>
              cases hb
              have hshed : sheduleTransfer (streams react) N elapsed
                  (arrived i data h) = some h₁ := (if_neg hidle).trans hend
              refine ⟨edit i (relisten .onData) h₁, N, ?_⟩
              rw [step_data hf.onData hdue.1 hdue.2, hshed]
              rfl
      | errorEvent | connectEvent | writeEvent | endEvent | shutdownEvent
      | closeEvent => cases hb
  | act a => cases hb
  | release i => cases hb

end

/-! ## Runs -/

theorem Steadfast.sized {limit : Nat} {h : Hosted Net}
    {hist : List (Hosted Net × (Event × React))}
    (hr : Run SizedStep (ThrottledStreams.created limit) hist h) :
    Steadfast limit h :=
  .reached (hr.mono fun _ _ _ hs => hs.1)

/-- In a run whose budgets can all be shared out and whose calls all give what
they ask for, every run of `transfer` ends and stays within its budget; and among
streams that are not stopped a run stays within its budgets only if they can be
shared out. -/
theorem within_budget_iff {limit : Nat} {h : Hosted Net}
    {hist : List (Hosted Net × (Event × React))}
    (hr : Run SizedStep (created limit) hist h) :
    (Meets (fun h e => SharesOut h e ∧ GivesAllAsked h e) hist →
        ∀ x, Passes hist h x → WithinBudget x.ctl) ∧
      (Meets (fun h e => NoneStopped h e ∧ GivesAllAsked h e) hist →
        ((∀ x, Passes hist h x → WithinBudget x.ctl) ↔
          Meets SharesOut hist)) ∧
      ∀ e, Due h e.1 → (begins h e.1).isSome = true → FitsSize h e →
        GivesAllAsked h e → (SharesOut h e ∨ NoneStopped h e) →
        ∃ h', Step h e h' := by
  have hkeeps : ∀ {hist' h'}, Run SizedStep (created limit) hist' h' →
      Meets (fun h e => SharesOut h e ∧ GivesAllAsked h e) hist' →
      WithinBudget h'.ctl := by
    intro hist' h' hr' hC
    have hI : Steadfast limit h' ∧ WithinBudget h'.ctl := by
      refine hr'.invariant
        (fun h => Steadfast limit h ∧ WithinBudget h.ctl) hC
        ⟨.created limit, ?_⟩ ?_
      · exact ⟨fun _ ht => absurd ht List.not_mem_nil, Nat.le_refl _,
          fun _ ht => absurd ht List.not_mem_nil⟩
      · rintro h₁ e h₂ ⟨hf, hw⟩ ⟨hshares, hgives⟩ ⟨hs, hfit⟩
        exact ⟨(hf.step hs).1, withinBudget_step hf hfit hgives hs hshares hw⟩
    exact hI.2
  refine ⟨fun hC x hx => hr.always hC hkeeps hx, fun hN => ?_, ?_⟩
  · refine Run.always_iff (hr.restrict hN) (fun hr' hC => ?_) ?_
    · refine hkeeps (hr'.mono fun _ _ _ hs => hs.1) fun p hp => ?_
      exact ⟨hC p hp, (hr'.meets p hp).2⟩
    · rintro hist' h₁ e h₂ hr' - ⟨⟨hs, hfit⟩, hnone, hgives⟩ hC
      have hf := Steadfast.sized (hr'.mono fun _ _ _ hs => hs.1)
      exact not_withinBudget hf hfit hgives hs hnone hC
  · intro e hdue hbegins hfit hgives hC
    exact step_ends (Steadfast.sized hr) hdue hbegins hfit hgives hC

/-- Three sockets of five bytes, which came while a transfer was scheduled,
and a tick. -/
def threeSockets : List (Event × React) :=
  [(.act .create, quietOwner), (.act .create, quietOwner),
    (.act .create, quietOwner), (.act (.call 0 .read), quietOwner),
    (.act (.call 1 .read), quietOwner), (.act (.call 2 .read), quietOwner),
    (.inner 0 (.dataEvent ([1, 2, 3, 4, 5])) 0, quietOwner),
    (.inner 1 (.dataEvent ([1, 2, 3, 4, 5])) 0, quietOwner),
    (.inner 2 (.dataEvent ([1, 2, 3, 4, 5])) 0, quietOwner),
    (.tick 1000, quietOwner)]

theorem harmless_quietOwner : Harmless quietOwner :=
  fun _ _ _ _ ha => absurd ha List.not_mem_nil

/-- The clock of an event. -/
def Event.clock : Event → Nat
  | .inner _ _ elapsed | .tick elapsed => elapsed
  | _ => 0

theorem begins_clock {h h₀ : Hosted Net} {e : Event} {elapsed : Nat}
    (hb : begins h e = some (elapsed, h₀)) : e.clock = elapsed := by
  cases e with
  | tick elapsed =>
      cases hb
      rfl
  | inner stream event elapsed =>
      cases event with
      | dataEvent data =>
          simp only [begins] at hb
          split at hb
          · cases hb
          · cases hb
            rfl
      | errorEvent | connectEvent | writeEvent | endEvent | shutdownEvent
      | closeEvent => cases hb
  | act a => cases hb
  | release i => cases hb

theorem sized_of_clock {fuel limit : Nat} (most : Nat) {h : Hosted Net}
    {hist : List (Hosted Net × (Event × React))}
    {es : List (Event × React)} (hlimit : limit * most < sizeModulus)
    (hclock : ∀ e ∈ es, e.1.clock ≤ most)
    (hexec : exec (step fuel) (created limit) es = some (hist, h)) :
    Run SizedStep (created limit) hist h := by
  have hr : Run Step (created limit) hist h :=
    (run_of_exec hexec).mono step_of_graph
  refine hr.restrict fun p hp elapsed h₀ hb => ?_
  obtain ⟨pre, hpre, -⟩ := hr.prefix_of_mem hp
  have hown := (Steadfast.reached hpre).onData.own
  have hmost : p.2.1.clock ≤ most := meets_of_forall hexec hclock p hp
  rw [begins_clock hb] at hmost
  rw [hown]
  exact Nat.lt_of_le_of_lt (Nat.mul_le_mul_left limit hmost) hlimit

/-- With ten bytes to hand out the first round takes three from each stream and
the second takes three more bytes from the one byte that is left: the counter
wraps, and the third round hands out everything. -/
theorem budget_exceeded :
    ¬ ∀ limit hist h, Run SizedStep (created limit) hist h →
      ∀ x, Passes hist h x → WithinBudget x.ctl := by
  intro hall
  obtain ⟨hist, h, hexec, hticks⟩ : ∃ hist h,
      exec (step 4) (created 10) threeSockets = some (hist, h) ∧
        h.ctl.ticks.map (fun tick =>
          (handedBytes tick, allowed h.ctl tick)) = [(15, 10), (0, 0)] :=
    ⟨_, _, rfl, by decide⟩
  have hr : Run SizedStep (created 10) hist h :=
    sized_of_clock 1000 (by decide) (by decide) hexec
  have hin := hall 10 hist h hr h .last
  cases hlist : h.ctl.ticks with
  | nil =>
      rw [hlist] at hticks
      cases hticks
  | cons tick ticks =>
      rw [hlist, List.map_cons, List.cons.injEq, Prod.mk.injEq] at hticks
      have hle := hin.tick tick (hlist ▸ List.mem_cons_self)
      omega

/-- With nine bytes to hand out every stream gets three. -/
theorem within_budget_thirds : ∃ hist h,
    Run SizedStep (created 9) hist h ∧
      h.ctl.ticks.map handedBytes = [9, 0] ∧
      ∀ x, Passes hist h x → WithinBudget x.ctl := by
  obtain ⟨hist, h, hexec, hticks, hthirds⟩ : ∃ hist h,
      exec (step 4) (created 9) threeSockets = some (hist, h) ∧
        h.ctl.ticks.map handedBytes = [9, 0] ∧
        ∀ p ∈ hist, ∀ b ∈ begins p.1 p.2.1,
          p.1.ctl.limit * b.1 / 1000 = 0 ∨
            (∀ x ∈ holders (streams p.2.2) stopped b.2, x.keeps = false) ∧
              shared 3 (holders (streams p.2.2) stopped b.2) =
                p.1.ctl.limit * b.1 / 1000 :=
    ⟨_, _, rfl, by decide, by decide⟩
  have hr : Run SizedStep (created 9) hist h :=
    sized_of_clock 1000 (by decide) (by decide) hexec
  have hquiet : ∀ e ∈ threeSockets, Harmless e.2 := by
    simp [threeSockets, harmless_quietOwner]
  refine ⟨hist, h, hr, hticks, (within_budget_iff hr).1 fun p hp =>
    ⟨fun elapsed h₀ hb => ?_, ?_⟩⟩
  · rcases hthirds p hp (elapsed, h₀) hb with hzero | ⟨hgoing, hthree⟩
    · rw [hzero]
      exact shareable_zero
    · exact .inr ⟨3, fun x hx hkeeps => by simp [hgoing x hx] at hkeeps, hthree⟩
  · have hharmless : Harmless p.2.2 := meets_of_forall hexec hquiet p hp
    exact givesAllAsked_of_harmless hharmless

end ThrottledStreams

end EcwidDownloader
