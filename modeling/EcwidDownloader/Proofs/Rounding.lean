import EcwidDownloader.Proofs.Fairness
import EcwidDownloader.Proofs.SocketTicks

/-!
# What rounding loses

A tick shares out `limit * elapsed / 1000` bytes, rounded down, and the clock
starts anew with it. The remainder is not carried to the next tick. A tick that
leaves somebody hungry has handed out its whole budget, so over any number of
ticks the bytes delivered fall behind the limit by the sum of the remainders,
and by nothing else: `pace_iff` says of plain streams when that is less than two
bytes, and `sockets_keep_pace_iff` of sockets whose owners run handlers.
-/

namespace EcwidDownloader

open Lib ControllerSimple

namespace ControllerSimple

theorem budget_le (elapsed : Nat) (c : ControllerSimple) :
    1000 * budget elapsed c ≤ c.limit * elapsed := by
  have hmod := Nat.mod_le (c.limit * elapsed) sizeModulus
  unfold budget
  omega

/-- A thousandth of what was lost is what is missing to the limit. -/
theorem pace_of_sums {limit time budgeted lost poured : Nat}
    (hsum : 1000 * budgeted + lost = limit * time) (hle : budgeted ≤ poured) :
    (lost < 2000 → limit * time / 1000 - 1 ≤ poured) ∧
      (poured = budgeted →
        (limit * time / 1000 - 1 ≤ poured ↔ lost < 2000)) := by
  rw [← hsum]
  refine ⟨fun hlost => by omega, fun heq => ?_⟩
  constructor <;> intro h <;> omega

end ControllerSimple

namespace PlainStreams

/-- A stream of the list that is not stopped and holds data. -/
def Hungry (h : Hosted World) (stream : Nat) : Prop :=
  Listed h stream ∧ (h.world stream).stopped = false ∧
    0 < (h.world stream).available

/-- The steps in which every run of `transfer` leaves somebody hungry. -/
def HungryStep (h : Hosted World) (e : Event) (h' : Hosted World) : Prop :=
  Step h e h' ∧ ((e.asks h).isSome = true → ∃ stream, Hungry h' stream)

/-! ## The sums along a run -/

/-- The elapsed time an event shares out. -/
def time (h : Hosted World) (e : Event) (_ : Hosted World) : Nat :=
  (e.asks h).getD 0

/-- The bytes the streams give up in an event. -/
def poured (h : Hosted World) (e : Event) (h' : Hosted World) : Nat :=
  if (e.asks h).isSome then held (holders h) - held (holders h') else 0

/-- The budget of an event. -/
def budgeted (h : Hosted World) (e : Event) (h' : Hosted World) : Nat :=
  budget (time h e h') h.ctl

/-- What the budget of an event drops, in thousandths of a byte: the remainder
of the division, and where the product of the limit and the time does not fit
into `size_t`, what does not fit. -/
def lost (h : Hosted World) (e : Event) (h' : Hosted World) : Nat :=
  h.ctl.limit * time h e h' - 1000 * budgeted h e h'

/-- The bytes delivered fall behind the limit by one at most. -/
def KeepsPace (limit : Nat) (hist : List (Hosted World × Event))
    (h : Hosted World) : Prop :=
  limit * tally time hist h / 1000 - 1 ≤ tally poured hist h

/-- What is buffered can be counted in `size_t`. -/
def Countable (h : Hosted World) (_ : Event) : Prop :=
  held (holders h) < sizeModulus

/-! ## A tick -/

/-- Whoever is hungry after a tick was counted as pending. -/
theorem heeds : Heeds ops Good Hungry where
  ordered := fun hg => hg.ordered
  own := fun hg hnode hweak => hg.own _ hnode _ hweak
  node := by
    rintro h i hg ⟨⟨node, hnode, hl⟩, -, -⟩
    obtain ⟨hid, hweak, -⟩ := lock_spec (hg.own node hnode) hl
    obtain ⟨id, weak⟩ := node
    simp only at hid hweak
    subst hid
    subst hweak
    exact hnode
  lock := by
    rintro h i hg ⟨⟨node, hnode, hl⟩, -, -⟩
    exact (lock_spec (hg.own node hnode) hl).2.2
  erase := by
    intro h node hg hnode hl
    refine ⟨(serves.erase hg hnode hl).1, ?_⟩
    rintro i ⟨⟨node', hnode', hl'⟩, hrest⟩
    exact ⟨⟨node', List.mem_of_mem_filter hnode', hl'⟩, hrest⟩
  skip := by
    rintro h i - hz ⟨-, -, hpos⟩
    change (h.world i).available = 0 at hz
    omega
  serve := by
    intro h h' node stream total n hg hnode hl hn hle ht
    refine ⟨(serves.serve hg hnode hl hn hle ht).1, ?_⟩
    cases ht
    rintro i ⟨⟨node', hnode', hl'⟩, hgoing, hpos⟩
    dsimp only at hnode' hgoing hpos
    rw [record_streams] at hnode'
    rw [lock_update rfl] at hl'
    by_cases hi : i = stream
    · subst hi
      right
      rw [Function.update_self] at hgoing hpos
      rw [stopped_transfer] at hgoing
      simp only [PlainStream.transfer, hgoing, Bool.false_eq_true,
        if_false] at hpos
      change n < (h.world i).available
      omega
    · rw [Function.update_of_ne hi] at hgoing hpos
      exact .inl ⟨hi, ⟨node', hnode', hl'⟩, hgoing, hpos⟩

/-- A tick that leaves somebody hungry has delivered its budget, and no more if
the counter cannot have wrapped. -/
theorem transfer_poured {fuel elapsed : Nat} {h h' : Hosted World}
    (hg : Good h) (hw : Willing (holders h))
    (ht : ControllerSimple.transfer ops fuel elapsed h = some h')
    {stream : Nat} (hh : Hungry h' stream) :
    budget elapsed h.ctl ≤ held (holders h) - held (holders h') ∧
      (held (holders h) < sizeModulus →
        held (holders h) - held (holders h') = budget elapsed h.ctl) := by
  rw [transfer_eq] at ht
  split at ht
  · next hempty =>
      cases ht
      obtain ⟨⟨node, hnode, -⟩, -⟩ := hh
      simp [List.length_eq_zero_iff.mp hempty] at hnode
  · split at ht
    · next hzero =>
        cases ht
        have hsame : holders ({ h with
            ctl := deferTransfer (begun elapsed h).ctl } : Hosted World) =
            holders h := rfl
        rw [hsame, hzero]
        omega
    · obtain ⟨⟨pend, h₁⟩, hrounds, rfl⟩ := Option.map_eq_some_iff.mp ht
      have hstart : holders (begun elapsed h) = holders h := rfl
      have hheld := keeps.rounds_held hg.begun (allGive _)
        (by rw [holders_eq, willing_stocked]; exact hw) hrounds
      simp only [holders_eq, held_stocked, hstart] at hheld
      obtain ⟨-, hpend⟩ := heeds.rounds hg.begun hrounds
      have hsame : holders (finish pend h₁) = holders h₁ ∧
          (Hungry (finish pend h₁) stream → Hungry h₁ stream) := by
        unfold finish
        split <;> exact ⟨rfl, id⟩
      have hpos := hpend stream (hsame.2 hh)
      obtain ⟨hle, heq⟩ := rounds_asked (budget_lt _ _) hrounds (by omega)
      rw [hsame.1]
      refine ⟨by omega, fun hlt => ?_⟩
      have := heq (by omega)
      omega

/-! ## Runs -/

theorem budgeted_le (h : Hosted World) (e : Event) (h' : Hosted World) :
    1000 * budgeted h e h' + lost h e h' = h.ctl.limit * time h e h' := by
  have hle := budget_le (time h e h') h.ctl
  unfold lost budgeted
  omega

/-- One event delivers its budget if it leaves somebody hungry. -/
theorem step_poured {limit : Nat} {h h' : Hosted World} {e : Event}
    (ha : Regular limit h) (hs : HungryStep h e h') (hn : NoneStopped h e) :
    budgeted h e h' ≤ poured h e h' ∧
      (Countable h e → poured h e h' = budgeted h e h') := by
  obtain ⟨hs, hh⟩ := hs
  unfold budgeted time poured
  cases hasks : e.asks h with
  | none =>
      have hzero : budget 0 h.ctl = 0 := by simp [budget]
      simp [hzero]
  | some elapsed =>
      have hsome : (e.asks h).isSome = true := by rw [hasks]; rfl
      obtain ⟨stream, hhungry⟩ := hh hsome
      obtain ⟨fuel, ht⟩ := step_asks ha.timed hasks hs
      have hg := ha.good
      exact transfer_poured (h := { h with ctl.timer := {} })
        ⟨hg.ordered, hg.inserted, hg.own⟩ (hn hsome) ht hhungry

/-- As long as no stream that holds data is stopped when the controller asks, the
bytes delivered keep pace with the limit if what the budgets dropped is less than
two bytes; and where all that is buffered can be counted, only then. -/
theorem pace_iff {limit : Nat} {h₀ h : Hosted World}
    {hist₀ hist : List (Hosted World × Event)}
    (hr₀ : Run Step (created limit) hist₀ h₀)
    (hr : Run HungryStep h₀ hist h) (hn : Meets NoneStopped hist) :
    (tally lost hist h < 2000 → KeepsPace limit hist h) ∧
      (Meets Countable hist →
        (KeepsPace limit hist h ↔ tally lost hist h < 2000)) := by
  have hrun := (hr.restrict hn).along (Regular.reached hr₀)
    fun _ _ _ ha hs => ha.step hs.1.1
  have hsum : 1000 * tally budgeted hist h + tally lost hist h =
      limit * tally time hist h := by
    refine hrun.tally_balance fun t e u hs => ?_
    rw [← hs.1.limit]
    exact budgeted_le t e u
  have hle : tally budgeted hist h ≤ tally poured hist h :=
    hrun.tally_le fun t e u hs => (step_poured hs.1 hs.2.1 hs.2.2).1
  obtain ⟨hkeeps, honly⟩ := pace_of_sums hsum hle
  refine ⟨hkeeps, fun hc => honly ?_⟩
  exact (hrun.restrict hc).tally_congr
    fun t e u hs => (step_poured hs.1.1 hs.1.2.1 hs.1.2.2).2 hs.2

/-! ## Two limits and the timer of fifty milliseconds -/

def isHungry (h : Hosted World) (stream : Nat) : Bool :=
  !(h.world stream).stopped && decide (0 < (h.world stream).available)

def someHungry (h : Hosted World) : Bool :=
  h.ctl.streams.any fun node => (lock ops node h).any (isHungry h)

theorem hungry_of_someHungry {h : Hosted World} (hh : someHungry h = true) :
    ∃ stream, Hungry h stream := by
  obtain ⟨node, hnode, hlock⟩ := List.any_eq_true.mp hh
  cases hl : lock ops node h with
  | none => simp [hl] at hlock
  | some stream =>
      simp only [hl, Option.any_some, isHungry, Bool.and_eq_true,
        Bool.not_eq_true', decide_eq_true_eq] at hlock
      exact ⟨stream, ⟨node, hnode, hl⟩, hlock.1, hlock.2⟩

/-- A step that is tested for leaving somebody hungry. -/
def hungryStep (h : Hosted World) (e : Event) : Option (Hosted World) :=
  (step 2 h e).filter someHungry

theorem hungryStep_spec (h : Hosted World) (e : Event) (h' : Hosted World)
    (hs : Lib.Graph hungryStep h e h') : HungryStep h e h' := by
  obtain ⟨hstep, hh⟩ := Option.filter_eq_some_iff.mp hs
  exact ⟨⟨2, hstep⟩, fun _ => hungry_of_someHungry hh⟩

/-- A limit of nineteen bytes a second allows less than a byte for the fifty
milliseconds of the timer: nothing is ever delivered. -/
theorem pace_lost : ¬ ∀ limit hist₀ h₀ hist h, 1 ≤ limit →
    Run Step (created limit) hist₀ h₀ → Run HungryStep h₀ hist h →
    KeepsPace limit hist h := by
  intro hall
  obtain ⟨hist₀, h₀, hist, h, hexec₀, hexec, hpace⟩ : ∃ hist₀ h₀ hist h,
      exec (step 2) (created 19) [.add { available := 100 }] =
        some (hist₀, h₀) ∧
      exec hungryStep h₀ [.shedule 50, .tick 50, .tick 50] =
        some (hist, h) ∧
      ¬ 19 * tally time hist h / 1000 - 1 ≤ tally poured hist h :=
    ⟨_, _, _, _, rfl, rfl, by decide⟩
  exact hpace (hall 19 hist₀ h₀ hist h (by decide)
    ((run_of_exec hexec₀).mono step_of_graph)
    ((run_of_exec hexec).mono hungryStep_spec))

/-- A limit of thirty bytes a second allows one byte and a half: two ticks lose
one byte together. -/
theorem pace_iff_thirty : ∃ hist₀ h₀ hist h,
    Run Step (created 30) hist₀ h₀ ∧ Run HungryStep h₀ hist h ∧
      tally lost hist h = 1000 ∧ tally poured hist h = 2 ∧
      KeepsPace 30 hist h := by
  obtain ⟨hist₀, h₀, hist, h, hexec₀, hexec, hlost, hpoured, hkeeps⟩ :
      ∃ hist₀ h₀ hist h,
      exec (step 2) (created 30) [.add { available := 100 }] =
        some (hist₀, h₀) ∧
      exec hungryStep h₀ [.shedule 50, .tick 50] = some (hist, h) ∧
      tally lost hist h = 1000 ∧ tally poured hist h = 2 ∧
      ∀ p ∈ hist, ∀ x ∈ holders p.1, x.keeps = false :=
    ⟨_, _, _, _, rfl, rfl, by decide, by decide, by decide⟩
  have hr₀ := (run_of_exec hexec₀).mono step_of_graph
  have hr := (run_of_exec hexec).mono hungryStep_spec
  refine ⟨hist₀, h₀, hist, h, hr₀, hr, hlost, hpoured,
    (pace_iff hr₀ hr ?_).1 (by omega)⟩
  intro p hp _ x hx hk
  simp [hkeeps p hp x hx] at hk

end PlainStreams

/-! ## Sockets

The owners of sockets run their handlers in the course of a tick. They put
nothing into the queues, so the account is the same as long as the controller
asks no socket that is stopped. -/

namespace ThrottledStreams

/-- The steps in which every run of `transfer` leaves somebody awake. -/
def AwakeStep (h : Hosted Net) (e : Event × React) (h' : Hosted Net) : Prop :=
  Step h e h' ∧ ((begins h e.1).isSome = true → ∃ stream, Awake h' stream)

/-- No socket that holds data is stopped when the controller asks it. -/
def AsksRunning (h : Hosted Net) (e : Event × React) : Prop :=
  ∀ elapsed h₀, begins h e.1 = some (elapsed, h₀) →
    ∀ fuel, AllRunning (asks (streams e.2) fuel elapsed h₀)

/-- What is buffered can be counted in `size_t`. -/
def Countable (h : Hosted Net) (e : Event × React) : Prop :=
  ∀ elapsed h₀, begins h e.1 = some (elapsed, h₀) →
    buffered h₀ < sizeModulus

def time (h : Hosted Net) (e : Event × React) (_ : Hosted Net) : Nat :=
  (begins h e.1).elim 0 Prod.fst

/-- The bytes that leave the queues in the course of an event. -/
def poured (h : Hosted Net) (e : Event × React) (h' : Hosted Net) : Nat :=
  (begins h e.1).elim 0 fun b => buffered b.2 - buffered h'

def budgeted (h : Hosted Net) (e : Event × React) (h' : Hosted Net) : Nat :=
  budget (time h e h') h.ctl

def lost (h : Hosted Net) (e : Event × React) (h' : Hosted Net) : Nat :=
  h.ctl.limit * time h e h' - 1000 * budgeted h e h'

def KeepsPace (limit : Nat) (hist : List (Hosted Net × (Event × React)))
    (h : Hosted Net) : Prop :=
  limit * tally time hist h / 1000 - 1 ≤ tally poured hist h

theorem flags_relisten (l : InnerListener) (tcp : TCPSocketBandwidth) :
    (relisten l tcp).closed = tcp.closed ∧
      (relisten l tcp).stopped = tcp.stopped ∧
      (relisten l tcp).bufferUsed = tcp.bufferUsed := by
  unfold relisten
  split <;> exact ⟨rfl, rfl, rfl⟩

theorem awake_relisten {h : Hosted Net} {i stream : Nat} {l : InnerListener}
    (ha : Awake (edit i (relisten l) h) stream) : Awake h stream := by
  obtain ⟨s, hs, halive, hclosed, hgoing, hused⟩ := ha
  rcases edit_cases hs with ⟨s₀, rfl, hs₀, rfl⟩ | ⟨-, hs⟩
  · obtain ⟨hc, hst, hu⟩ := flags_relisten l s₀.tcp
    exact ⟨s₀, hs₀, halive, hc ▸ hclosed, hst ▸ hgoing, hu ▸ hused⟩
  · exact ⟨s, hs, halive, hclosed, hgoing, hused⟩

/-- One event delivers its budget if it leaves somebody awake. -/
theorem step_poured {limit : Nat} {h h' : Hosted Net} {e : Event × React}
    (hf : Steadfast limit h) (hs : AwakeStep h e h') (hn : AsksRunning h e) :
    budgeted h e h' ≤ poured h e h' ∧
      (Countable h e → poured h e h' = budgeted h e h') := by
  obtain ⟨hs, hawake⟩ := hs
  obtain ⟨-, hmakes⟩ := hf.step hs
  rcases hmakes with
    ⟨hnone, -⟩ | ⟨elapsed, h₀, fuel, h₁, hb, ht, hend⟩
  · simp [budgeted, time, poured, hnone, budget]
  · obtain ⟨stream, ha⟩ := hawake (by rw [hb]; rfl)
    have hsame : buffered h' = buffered h₁ ∧ Awake h₁ stream := by
      rcases hend with rfl | ⟨i, rfl⟩
      · exact ⟨rfl, ha⟩
      · exact ⟨buffered_edit_same fun tcp => (flags_relisten _ tcp).2.2,
          awake_relisten ha⟩
    have hrun := hn elapsed h₀ hb fuel
    obtain ⟨hbuffered, hpos, hdelivers⟩ :=
      transfer_delivers (hf.turning hb).wired ht
    obtain ⟨hle, heq⟩ := hdelivers ⟨stream, hsame.2⟩ hrun
    rw [(delivered_eq_iff hpos).mpr hrun] at hbuffered
    have hbudget : budget elapsed h₀.ctl = budget elapsed h.ctl := by
      unfold budget
      rw [(begins_ctl hb).1]
    have htime : time h e h' = elapsed := by
      rw [time, hb]
      rfl
    have hpoured : poured h e h' = buffered h₀ - buffered h₁ := by
      rw [poured, hb, ← hsame.1]
      rfl
    rw [budgeted, htime, hpoured, ← hbudget]
    refine ⟨by omega, fun hc => ?_⟩
    have hcount := hc elapsed h₀ hb
    have hfits := heq (by omega)
    omega

/-- As long as no socket that holds data is stopped when the controller asks it,
whatever else the owners do, the bytes delivered keep pace with the limit if what
the budgets dropped is less than two bytes; and where all that is buffered can be
counted, only then. -/
theorem sockets_keep_pace_iff {limit : Nat} {h₀ h : Hosted Net}
    {hist₀ hist : List (Hosted Net × (Event × React))}
    (hr₀ : Run Step (created limit) hist₀ h₀)
    (hr : Run AwakeStep h₀ hist h) (hn : Meets AsksRunning hist) :
    (tally lost hist h < 2000 → KeepsPace limit hist h) ∧
      (Meets Countable hist →
        (KeepsPace limit hist h ↔ tally lost hist h < 2000)) := by
  have hrun := (hr.restrict hn).along (Steadfast.reached hr₀)
    fun _ _ _ hf hs => (hf.step hs.1.1).1
  have hsum : 1000 * tally budgeted hist h + tally lost hist h =
      limit * tally time hist h := by
    refine hrun.tally_balance fun t e u hs => ?_
    have hle := budget_le (time t e u) t.ctl
    rw [hs.1.onData.own] at hle
    rw [budgeted, lost, budgeted, hs.1.onData.own]
    omega
  have hle : tally budgeted hist h ≤ tally poured hist h :=
    hrun.tally_le fun t e u hs => (step_poured hs.1 hs.2.1 hs.2.2).1
  obtain ⟨hkeeps, honly⟩ := pace_of_sums hsum hle
  refine ⟨hkeeps, fun hc => honly ?_⟩
  exact (hrun.restrict hc).tally_congr
    fun t e u hs => (step_poured hs.1.1 hs.1.2.1 hs.1.2.2).2 hs.2

end ThrottledStreams

end EcwidDownloader
