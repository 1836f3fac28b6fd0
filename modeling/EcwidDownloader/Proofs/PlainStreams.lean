import EcwidDownloader.Aio.PlainStreams
import EcwidDownloader.Proofs.Sharing

/-!
# The runs of a controller with plain streams

The list of the controller holds each stream under its own number, and the timer
runs while a transfer is scheduled. A plain stream gives what it is asked for and
does nothing else, so its ticks are rounds of sharing.
-/

namespace EcwidDownloader

open Lib ControllerSimple

namespace PlainStreams

/-! ## The state between events -/

/-- Nodes in order, each for the stream of its number. -/
structure Good (h : Hosted World) : Prop where
  ordered : Ordered h.ctl.streams
  inserted : ∀ node ∈ h.ctl.streams, node.id < h.ctl.inserted
  own : ∀ node ∈ h.ctl.streams, ∀ stream, node.weak = some stream →
    stream = node.id

theorem lock_eq {node : Node} {h : Hosted World} :
    lock ops node h = node.weak.filter fun stream => (h.world stream).alive :=
  rfl

/-- The stream a node locks is alive, and is the one of the node's number. -/
theorem lock_spec {node : Node} {h : Hosted World} {stream : Nat}
    (hown : ∀ stream, node.weak = some stream → stream = node.id)
    (hl : lock ops node h = some stream) :
    stream = node.id ∧ node.weak = some stream ∧
      (h.world stream).alive = true := by
  rw [lock_eq, Option.filter_eq_some_iff] at hl
  exact ⟨hown stream hl.1, hl.1, hl.2⟩

theorem Good.created (limit : Nat) : Good (created limit) :=
  ⟨List.Pairwise.nil, fun _ hn => absurd hn List.not_mem_nil,
    fun _ hn => absurd hn List.not_mem_nil⟩

theorem Good.begun {elapsed : Nat} {h : Hosted World} (hg : Good h) :
    Good (begun elapsed h) :=
  ⟨hg.ordered, hg.inserted, hg.own⟩

theorem Good.finish {pend : Nat} {h : Hosted World} (hg : Good h) :
    Good (finish pend h) := by
  refine ⟨?_, ?_, ?_⟩
  · simpa using hg.ordered
  · simpa using hg.inserted
  · simpa using hg.own

/-! ## A stream that is asked -/

theorem alive_transfer (n : Nat) (s : PlainStream) :
    (s.transfer n).alive = s.alive := by
  unfold PlainStream.transfer
  split <;> rfl

theorem stopped_transfer (n : Nat) (s : PlainStream) :
    (s.transfer n).stopped = s.stopped := by
  unfold PlainStream.transfer
  split <;> rfl

theorem available_transfer (n : Nat) (s : PlainStream) :
    (s.transfer n).available =
      if s.stopped then s.available else s.available - min s.available n := by
  unfold PlainStream.transfer
  split
  · rfl
  · rw [Nat.min_comm]

/-- The rounds keep the list of streams good and record what they hand out. -/
theorem serves : Serves ops Good Recorded where
  refl := Recorded.refl
  trans := Recorded.trans
  erase := by
    intro h node hg _ _
    have hsub : List.Sublist (ControllerSimple.erase node.id h.ctl.streams)
        h.ctl.streams := List.filter_sublist
    refine ⟨⟨hg.ordered.sublist hsub,
      fun a ha => hg.inserted a (hsub.subset ha),
      fun a ha => hg.own a (hsub.subset ha)⟩, rfl, rfl, rfl, ?_⟩
    exact fun tick ticks hticks => by simp [hticks]
  serve := by
    intro h h' node stream total n hg _ _ _ _ ht
    cases ht
    refine ⟨⟨?_, ?_, ?_⟩, Recorded.one ?_ ?_ ?_ rfl⟩
    · simpa using hg.ordered
    · simpa using hg.inserted
    · simpa using hg.own
    · exact record_timer _ _
    · exact record_sheduled _ _
    · exact record_limit _ _

/-- The nodes of a good list are in order, which is all the loops need. -/
theorem yields_good : Yields ops Good where
  ordered := Good.ordered
  erase hg hnode hl := (serves.erase hg hnode hl).1
  serve total hg hnode hl hn hle := by
    obtain ⟨h', ht, -, hw, hkeeps⟩ :=
      yields.serve total hg.ordered hnode hl hn hle
    exact ⟨h', ht, (serves.serve hg hnode hl hn hle ht).1, hw, hkeeps⟩

theorem keeps : KeepsOrder ops Good := yields_good.keeps Good.own

/-! ## The stock -/

abbrev stopped (stream : Nat) (w : World) : Bool := (w stream).stopped

/-- A stream in the stock. -/
def entry (stream : Nat) (s : PlainStream) : Option (Nat × Holder) :=
  if 0 < s.available then
    some (stream, { amount := s.available, keeps := s.stopped })
  else none

theorem holding_eq (h : Hosted World) (node : Node) :
    holding ops stopped h node =
      (node.weak.filter fun stream => (h.world stream).alive).bind
        fun stream => entry stream (h.world stream) := by
  cases hl : lock ops node h with
  | none =>
      rw [holding_of_not_lock hl]
      rw [lock_eq] at hl
      rw [hl]
      rfl
  | some stream =>
      rw [holding_of_lock hl]
      rw [lock_eq] at hl
      rw [hl]
      rfl

/-- The holders of the stock are the streams that hold something. -/
theorem holders_eq (h : Hosted World) :
    ControllerSimple.holders ops stopped h = stocked (holders h) := by
  unfold ControllerSimple.holders stock holders
  induction h.ctl.streams with
  | nil => rfl
  | cons node nodes ih =>
      cases hl : lock ops node h with
      | none =>
          have hnone : holder h.world node = none := by
            unfold holder
            rw [show node.weak.filter (fun stream => ops.lock stream h.world) =
              none from hl]
            rfl
          rw [List.filterMap_cons_none (holding_of_not_lock hl),
            List.filterMap_cons_none hnone, ih]
      | some stream =>
          have hsome : holder h.world node = some
              { amount := (h.world stream).available
                keeps := (h.world stream).stopped } := by
            unfold holder
            rw [show node.weak.filter (fun stream => ops.lock stream h.world) =
              some stream from hl]
            rfl
          rw [List.filterMap_cons_some hsome, stocked_cons, ← ih]
          have hholding : holding ops stopped h node = _ :=
            holding_of_lock hl
          by_cases hpos : 0 < (h.world stream).available
          · rw [if_pos (show 0 < ops.available stream h.world from hpos)]
              at hholding
            rw [List.filterMap_cons_some hholding, if_pos hpos]
            rfl
          · rw [if_neg (show ¬ 0 < ops.available stream h.world from hpos)]
              at hholding
            rw [List.filterMap_cons_none hholding, if_neg hpos]

theorem entry_transfer (stream n : Nat) (s : PlainStream) :
    entry stream (s.transfer n) =
      ((entry stream s).map fun e => (e.1, e.2.left n)).filter
        fun e => 0 < e.2.amount := by
  unfold entry
  rw [available_transfer, stopped_transfer]
  by_cases hpos : 0 < s.available
  · rw [if_pos hpos]
    cases hs : s.stopped <;> simp [Holder.left, Option.filter, hpos]
  · rw [if_neg hpos, if_neg (by split <;> omega)]
    rfl

/-- What a node holds after its stream, or another one, was asked. -/
theorem holding_transfer {h h' : Hosted World} {stream n : Nat}
    (hworld : h'.world =
      Function.update h.world stream ((h.world stream).transfer n))
    (node : Node) :
    holding ops stopped h' node =
      ((holding ops stopped h node).map fun e =>
        if e.1 = stream then (e.1, e.2.left n) else e).filter
          fun e => 0 < e.2.amount := by
  have halive : ∀ i, (h'.world i).alive = (h.world i).alive := by
    intro i
    rw [hworld]
    by_cases hi : i = stream
    · subst hi
      rw [Function.update_self, alive_transfer]
    · rw [Function.update_of_ne hi]
  rw [holding_eq, holding_eq]
  simp only [halive]
  cases node.weak.filter fun i => (h.world i).alive with
  | none => rfl
  | some i =>
      rw [Option.bind_some, Option.bind_some, hworld]
      by_cases hi : i = stream
      · subst hi
        rw [Function.update_self, entry_transfer]
        unfold entry
        split <;> simp
      · rw [Function.update_of_ne hi]
        unfold entry
        split
        · next hpos => simp [Option.filter, hi, hpos]
        · rfl

/-- A plain stream gives what it is asked for, whoever asks. -/
theorem gives (stream n : Nat) (h : Hosted World) :
    GivesAsked ops stopped stream n h := by
  intro h' ht
  cases ht
  exact stock_drawn rfl fun node _ => holding_transfer rfl node

theorem allGive (l : List (Ask World)) : AllGive ops stopped l :=
  fun a _ => gives a.stream a.length a.host

/-- Streams none of which is stopped are emptied by and by. -/
theorem transfer_ends_of_willing {elapsed : Nat} {h : Hosted World}
    (hg : Good h) (hw : Willing (holders h)) :
    ∃ fuel h', ControllerSimple.transfer ops fuel elapsed h = some h' := by
  have hbegun : Good (begun elapsed h) := hg.begun
  have hwilling : Willing (ControllerSimple.holders ops stopped h) := by
    rw [holders_eq, willing_stocked]
    exact hw
  obtain ⟨N, h', hends⟩ := keeps.transfer_ends yields_good hbegun
    (fun _ => allGive _) (.inr hwilling)
  exact ⟨N, h', hends N (Nat.le_refl _)⟩

/-! ## Runs -/

/-- No stream that holds anything is stopped when the controller asks. -/
def NoneStopped (h : Hosted World) (e : Event) : Prop :=
  (e.asks h).isSome = true → Willing (holders h)

/-- What `add_stream` leaves alone. -/
theorem addStream_eq (weak : Option Nat) (h : Hosted World) :
    (addStream ops.toStreamOps weak h).2.ctl.timer = h.ctl.timer ∧
      (addStream ops.toStreamOps weak h).2.ctl.sheduled = h.ctl.sheduled ∧
      (addStream ops.toStreamOps weak h).2.ctl.limit = h.ctl.limit := by
  unfold addStream
  split <;> exact ⟨rfl, rfl, rfl⟩

theorem Good.add {h : Hosted World} (hg : Good h) (s : PlainStream) :
    Good (addStream ops.toStreamOps (some h.ctl.inserted)
      { h with world := Function.update h.world h.ctl.inserted s }).2 := by
  simp only [addStream]
  cases hl : Option.filter (fun stream => ops.lock stream
      (Function.update h.world h.ctl.inserted s)) (some h.ctl.inserted) with
  | none => exact ⟨hg.ordered, hg.inserted, hg.own⟩
  | some stream =>
      have hstream := (Option.filter_eq_some_iff.mp hl).1
      simp only [Option.some.injEq] at hstream
      subst hstream
      refine ⟨hg.ordered.insert hg.inserted, fun node hn => ?_,
        fun node hn stream hw => ?_⟩
      · rcases List.mem_append.mp hn with hn | hn
        · exact Nat.lt_succ_of_lt (hg.inserted node hn)
        · rw [List.mem_singleton] at hn
          subst hn
          exact Nat.lt_succ_self _
      · rcases List.mem_append.mp hn with hn | hn
        · exact hg.own node hn stream hw
        · rw [List.mem_singleton] at hn
          subst hn
          exact (Option.some.inj hw).symm

theorem Good.remove {h : Hosted World} (hg : Good h) (conn : Nat) :
    Good { h with ctl := removeStream conn h.ctl } := by
  refine ⟨hg.ordered.removeStream conn, fun node hn => ?_,
    fun node hn stream hw => ?_⟩
  · obtain ⟨a, ha, rfl⟩ := List.mem_map.mp hn
    split <;> exact hg.inserted a ha
  · obtain ⟨a, ha, rfl⟩ := List.mem_map.mp hn
    split at hw
    · cases hw
    · next hne =>
        rw [if_neg hne]
        exact hg.own a ha stream hw

/-- An event that makes the controller ask for the time is one run of
`transfer`, with the timer at rest. -/
theorem step_asks {h h' : Hosted World} {e : Event} {elapsed : Nat}
    (ht : Timed h.ctl) (hasks : e.asks h = some elapsed) (hs : Step h e h') :
    ∃ fuel, ControllerSimple.transfer ops fuel elapsed
      { h with ctl.timer := {} } = some h' := by
  obtain ⟨fuel, hs⟩ := hs
  refine ⟨fuel, ?_⟩
  cases e with
  | shedule elapsed =>
      simp only [Event.asks] at hasks
      split at hasks
      · cases hasks
      · next hsh =>
          cases hasks
          have htimer : h.ctl.timer = {} := by simpa [Timed, hsh] using ht
          simp only [step, sheduleTransfer, hsh, Bool.false_eq_true,
            if_false] at hs
          rw [← htimer]
          exact hs
  | tick elapsed =>
      cases hasks
      simp only [step, timerEvent] at hs
      cases hsh : h.ctl.sheduled with
      | false =>
          have htimer : h.ctl.timer = {} := by simpa [Timed, hsh] using ht
          rw [htimer] at hs
          cases hs
      | true =>
          have htimer : h.ctl.timer = { listeners := 1, armed := true } := by
            simpa [Timed, hsh] using ht
          simpa [htimer] using hs
  | add s => cases hasks
  | put stream s => cases hasks
  | remove conn => cases hasks

/-- An event that does not ask leaves the timer alone. -/
theorem step_idle {h h' : Hosted World} {e : Event} (hg : Good h)
    (hasks : e.asks h = none) (hs : Step h e h') :
    Good h' ∧ h'.ctl.timer = h.ctl.timer ∧
      h'.ctl.sheduled = h.ctl.sheduled ∧ h'.ctl.limit = h.ctl.limit := by
  obtain ⟨fuel, hs⟩ := hs
  cases e with
  | shedule elapsed =>
      simp only [Event.asks] at hasks
      split at hasks
      · next hsh =>
          simp only [step, sheduleTransfer, hsh, if_true,
            Option.some.injEq] at hs
          subst hs
          exact ⟨hg, rfl, rfl, rfl⟩
      · cases hasks
  | tick elapsed => cases hasks
  | add s =>
      cases hs
      exact ⟨hg.add s, addStream_eq _ _⟩
  | put stream s =>
      cases hs
      exact ⟨⟨hg.ordered, hg.inserted, hg.own⟩, rfl, rfl, rfl⟩
  | remove conn =>
      cases hs
      exact ⟨hg.remove conn, rfl, rfl, rfl⟩

/-- Whatever the limit and the time, a tick leaves the list good and the timer
in step with the flag. -/
theorem transfer_kept {fuel elapsed : Nat} {h h' : Hosted World}
    (hg : Good h)
    (ht : ControllerSimple.transfer ops fuel elapsed h = some h') :
    Good h' ∧ (h.ctl.timer = {} → Timed h'.ctl) ∧
      h'.ctl.limit = h.ctl.limit := by
  obtain ⟨hlimit, htimed, -⟩ := serves.transfer hg.begun ht
  refine ⟨?_, htimed, hlimit⟩
  rw [transfer_eq] at ht
  split at ht
  · cases ht
    exact ⟨hg.ordered, hg.inserted, hg.own⟩
  · split at ht
    · cases ht
      exact ⟨hg.ordered, hg.inserted, hg.own⟩
    · obtain ⟨⟨pend, h₁⟩, hrounds, rfl⟩ := Option.map_eq_some_iff.mp ht
      exact (serves.rounds hg.begun hrounds).1.finish

/-- What is known between events. -/
structure Regular (limit : Nat) (h : Hosted World) : Prop where
  good : Good h
  timed : Timed h.ctl
  limit : h.ctl.limit = limit

theorem Regular.step {limit : Nat} {h h' : Hosted World} {e : Event}
    (ha : Regular limit h) (hs : Step h e h') : Regular limit h' := by
  have hg := ha.good
  cases hasks : e.asks h with
  | none =>
      obtain ⟨hg', htimer, hsh, hlimit⟩ := step_idle hg hasks hs
      refine ⟨hg', ?_, hlimit.trans ha.limit⟩
      have ht := ha.timed
      unfold Timed at ht ⊢
      rw [htimer, hsh]
      exact ht
  | some elapsed =>
      obtain ⟨fuel, ht⟩ := step_asks ha.timed hasks hs
      obtain ⟨hg', htimed, hlimit⟩ := transfer_kept
        (h := { h with ctl.timer := {} })
        ⟨hg.ordered, hg.inserted, hg.own⟩ ht
      exact ⟨hg', htimed rfl, hlimit.trans ha.limit⟩

theorem Regular.reached {limit : Nat} {h : Hosted World}
    {hist : List (Hosted World × Event)}
    (hr : Run Step (created limit) hist h) : Regular limit h :=
  hr.invariant' (Regular limit) ⟨Good.created limit, rfl, rfl⟩
    fun _ _ _ ha hs => ha.step hs

theorem step_of_graph {fuel : Nat} (h : Hosted World) (e : Event)
    (h' : Hosted World) (hs : Lib.Graph (step fuel) h e h') : Step h e h' :=
  ⟨fuel, hs⟩

end PlainStreams

end EcwidDownloader
