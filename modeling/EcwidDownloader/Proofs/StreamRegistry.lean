import Mathlib.Data.List.Pairwise
import EcwidDownloader.Aio.StreamRegistry
import EcwidDownloader.Proofs.BandwidthController

/-!
# The registry under re-entrancy

Nobody who runs inside `transfer` takes a node out of the list: `add_stream`
puts one at its end, `remove_stream` clears the pointer of one, and only the
loop itself erases, behind its own iterator. So the iterator stays valid, and
what the nodes stand for is at any time the record of the calls, cleared of the
streams that were removed or are gone. The second half of the module says that
the turns are those of `transfer`.
-/

namespace EcwidDownloader

open Lib ControllerSimple

namespace StreamRegistry

/-! ## What the nodes stand for -/

theorem filterMap_remove {w : World} {conn : Nat} (streams : List Node) :
    (streams.map fun node =>
      if node.id = conn then { node with weak := none } else node).filterMap
        (live w) =
      (streams.filterMap (live w)).filter fun e => decide (e.conn ≠ conn) := by
  induction streams with
  | nil => rfl
  | cons node streams ih =>
      rw [List.map_cons, List.filterMap_cons, List.filterMap_cons, ih]
      by_cases hid : node.id = conn
      · rw [if_pos hid]
        cases hl : live w node with
        | none => simp [live]
        | some e =>
            have he : e.conn = conn := by
              obtain ⟨s, -, rfl⟩ := Option.map_eq_some_iff.mp hl
              exact hid
            simp [live, he]
      · rw [if_neg hid]
        cases hl : live w node with
        | none => rfl
        | some e =>
            have he : e.conn ≠ conn := by
              obtain ⟨s, -, rfl⟩ := Option.map_eq_some_iff.mp hl
              exact hid
            simp [he]

theorem live_expire {w : World} {stream : Nat} {node : Node} :
    live { w with alive := fun s => w.alive s && decide (s ≠ stream) } node =
      (live w node).filter fun e => decide (e.stream ≠ stream) := by
  cases hw : node.weak with
  | none => simp [live, hw]
  | some s =>
      rw [live, live, hw]
      by_cases hs : s = stream
      · subst hs
        cases ha : w.alive s <;> simp [Option.filter, ha]
      · cases ha : w.alive s <;> simp [Option.filter, ha, hs]

theorem filterMap_filter {α β : Type} {f : α → Option β} {p : β → Bool}
    (l : List α) :
    l.filterMap (fun a => (f a).filter p) = (l.filterMap f).filter p := by
  induction l with
  | nil => rfl
  | cons a l ih =>
      rw [List.filterMap_cons, List.filterMap_cons, ih]
      cases hf : f a with
      | none => rfl
      | some b => by_cases hp : p b = true <;> simp [Option.filter, hp]

/-- The node of an expired or removed stream stands for nothing. -/
theorem live_eq_none {react : React} {h : Hosted World} {node : Node}
    (hl : lock (streams react) node h = none) : live h.world node = none := by
  rw [live, show node.weak.filter h.world.alive = none from hl]
  rfl

theorem live_of_lock {react : React} {h : Hosted World} {node : Node}
    {stream : Nat} (hl : lock (streams react) node h = some stream) :
    live h.world node = some ⟨node.id, stream⟩ := by
  rw [live, show node.weak.filter h.world.alive = some stream from hl]
  rfl

/-! ## What the handlers keep -/

/-- The list is in order, and is the record of the calls. -/
structure Sound (h : Hosted World) : Prop where
  ordered : Ordered h.ctl.streams
  below : ∀ node ∈ h.ctl.streams, node.id < h.ctl.inserted
  fresh : ∀ conn ∈ h.world.removed, conn < h.ctl.inserted
  listed : h.ctl.streams.filterMap (live h.world) = members h.world

theorem Sound.congr {h h' : Hosted World} (hs : Sound h)
    (hstreams : h'.ctl.streams = h.ctl.streams)
    (hinserted : h'.ctl.inserted = h.ctl.inserted)
    (hworld : h'.world = h.world) : Sound h' := by
  constructor
  · rw [hstreams]
    exact hs.ordered
  · rw [hstreams, hinserted]
    exact hs.below
  · rw [hworld, hinserted]
    exact hs.fresh
  · rw [hstreams, hworld]
    exact hs.listed

theorem addStream_expired {stream : Nat} {h : Hosted World}
    (ha : h.world.alive stream = false) : addStream stream h = h := by
  simp [addStream, ControllerSimple.addStream, streamOps, Option.filter, ha]

theorem addStream_alive {stream : Nat} {h : Hosted World}
    (ha : h.world.alive stream = true) :
    addStream stream h =
      { ctl :=
          { h.ctl with
            streams := h.ctl.streams ++
              [{ id := h.ctl.inserted, weak := some stream }]
            inserted := h.ctl.inserted + 1 }
        world :=
          { h.world with
            added := h.world.added ++ [⟨h.ctl.inserted, stream⟩] } } := by
  simp [addStream, ControllerSimple.addStream, streamOps, Option.filter, ha]

theorem Sound.add {h : Hosted World} (hs : Sound h) (stream : Nat) :
    Sound (addStream stream h) := by
  cases ha : h.world.alive stream with
  | false =>
      rw [addStream_expired ha]
      exact hs
  | true =>
      rw [addStream_alive ha]
      have hnew : h.ctl.inserted ∉ h.world.removed := fun hm =>
        Nat.lt_irrefl _ (hs.fresh _ hm)
      refine ⟨hs.ordered.insert hs.below, ?_, ?_, ?_⟩
      · intro node hnode
        rcases List.mem_append.mp hnode with hnode | hnode
        · exact Nat.lt_succ_of_lt (hs.below node hnode)
        · rw [List.mem_singleton.mp hnode]
          exact Nat.lt_succ_self _
      · intro conn hconn
        exact Nat.lt_succ_of_lt (hs.fresh conn hconn)
      · have hlisted := hs.listed
        simp only [members] at hlisted ⊢
        rw [List.filterMap_append, List.filter_append]
        exact congrArg₂ _ hlisted (by simp [live, Option.filter, ha, hnew])

theorem Sound.remove {h h' : Hosted World} {conn : Nat} (hs : Sound h)
    (hr : removeStream conn h = some h') : Sound h' := by
  simp only [removeStream, Option.ite_none_right_eq_some, Option.some.injEq,
    List.any_eq_true, decide_eq_true_eq] at hr
  obtain ⟨⟨node, hnode, rfl⟩, rfl⟩ := hr
  refine ⟨hs.ordered.removeStream _, ?_, ?_, ?_⟩
  · intro a ha
    obtain ⟨b, hb, rfl⟩ := List.mem_map.mp ha
    have hlt := hs.below b hb
    split <;> exact hlt
  · intro c hc
    rcases List.mem_cons.mp hc with rfl | hc
    · exact hs.below node hnode
    · exact hs.fresh c hc
  · have hlisted := hs.listed
    simp only [members] at hlisted ⊢
    refine (filterMap_remove (w := h.world) h.ctl.streams).trans ?_
    rw [hlisted, List.filter_filter]
    congr 1
    funext e
    by_cases he : e.conn = node.id <;> simp [he]

theorem Sound.act {h h' : Hosted World} {a : Act} (hs : Sound h)
    (hr : act h a = some h') : Sound h' := by
  cases a with
  | add stream =>
      cases hr
      exact hs.add stream
  | remove conn => exact hs.remove hr
  | expire stream =>
      cases hr
      refine ⟨hs.ordered, hs.below, hs.fresh, ?_⟩
      have hlisted := hs.listed
      simp only [members] at hlisted ⊢
      simp only [live_expire]
      rw [filterMap_filter, hlisted, List.filter_filter]
      congr 1
      funext e
      by_cases he : e.stream = stream <;> simp [he]
  | put stream available =>
      cases hr
      exact ⟨hs.ordered, hs.below, hs.fresh, hs.listed⟩

/-- What handlers do not undo: the nodes keep their places, and the record only
grows. -/
structure Later (h h' : Hosted World) : Prop where
  ids : h.ctl.streams.map Node.id <+: h'.ctl.streams.map Node.id
  added : h.world.added <+: h'.world.added
  removed : h.world.removed <:+ h'.world.removed

theorem Later.refl (h : Hosted World) : Later h h :=
  ⟨List.prefix_refl _, List.prefix_refl _, List.suffix_refl _⟩

theorem Later.trans {h₁ h₂ h₃ : Hosted World} (ha : Later h₁ h₂)
    (hb : Later h₂ h₃) : Later h₁ h₃ :=
  ⟨ha.ids.trans hb.ids, ha.added.trans hb.added, ha.removed.trans hb.removed⟩

theorem act_later {h h' : Hosted World} {a : Act} (hr : act h a = some h') :
    Later h h' := by
  cases a with
  | add stream =>
      cases hr
      cases ha : h.world.alive stream with
      | false =>
          rw [addStream_expired ha]
          exact Later.refl h
      | true =>
          rw [addStream_alive ha]
          exact ⟨by simp, List.prefix_append _ _, List.suffix_refl _⟩
  | remove conn =>
      simp only [act, removeStream, Option.ite_none_right_eq_some,
        Option.some.injEq] at hr
      obtain ⟨-, rfl⟩ := hr
      have hid : (Node.id ∘ fun node =>
          if node.id = conn then { node with weak := none } else node) =
          Node.id := by
        funext node
        by_cases h : node.id = conn <;> simp [h]
      refine ⟨?_, List.prefix_refl _, List.suffix_cons _ _⟩
      simp [ControllerSimple.removeStream, hid]
  | expire stream =>
      cases hr
      exact ⟨List.prefix_refl _, List.prefix_refl _, List.suffix_refl _⟩
  | put stream available =>
      cases hr
      exact ⟨List.prefix_refl _, List.prefix_refl _, List.suffix_refl _⟩

theorem acts_kept {acts : List Act} {h h' : Hosted World} (hs : Sound h)
    (hr : acts.foldlM StreamRegistry.act h = some h') :
    Sound h' ∧ Later h h' :=
  Lib.foldlM_keeps (I := fun _ h' => Sound h' ∧ Later h h')
    (fun hkept ha => ⟨hkept.1.act ha, hkept.2.trans (act_later ha)⟩)
    ⟨hs, Later.refl h⟩ hr

theorem visit_kept {react : React} {c stream total pend : Nat}
    {h : Hosted World} {r : Nat × Nat × Hosted World} (hs : Sound h)
    (hv : visit (streams react) c stream total pend h = some r) :
    Sound r.2.2 ∧ Later h r.2.2 := by
  simp only [visit] at hv
  split at hv
  · cases hv
    exact ⟨hs, Later.refl h⟩
  · obtain ⟨h', ht, rfl⟩ := Option.map_eq_some_iff.mp hv
    have hs' : ∀ x, Sound { h with ctl := record x h.ctl } := fun x =>
      hs.congr (record_streams x h.ctl) (record_inserted x h.ctl) rfl
    obtain ⟨hkept, hlater⟩ := acts_kept (hs' _) ht
    have hids := hlater.ids
    rw [record_streams] at hids
    exact ⟨hkept, hids, hlater.added, hlater.removed⟩

theorem Sound.erase {react : React} {h : Hosted World} {node : Node}
    (hs : Sound h) (hnode : node ∈ h.ctl.streams)
    (hl : lock (streams react) node h = none) :
    Sound { h with ctl.streams := erase node.id h.ctl.streams } := by
  have ho := hs.ordered
  have hlisted := hs.listed
  have hbelow := hs.below
  obtain ⟨pre, suf, hsplit⟩ := List.append_of_mem hnode
  rw [hsplit] at ho hlisted hbelow ⊢
  rw [ho.erase]
  refine ⟨ho.erased, ?_, hs.fresh, ?_⟩
  · intro a ha
    refine hbelow a ?_
    rcases List.mem_append.mp ha with ha | ha
    · exact List.mem_append_left _ ha
    · exact List.mem_append_right _ (List.mem_cons_of_mem _ ha)
  · rw [← hlisted, List.filterMap_append, List.filterMap_append,
      List.filterMap_cons_none (live_eq_none hl)]

/-! ## Turns -/

theorem first_mem {streams : List Node} {it : Nat}
    (hf : first streams = some it) : ∃ node ∈ streams, node.id = it := by
  obtain ⟨node, hhead, rfl⟩ := Option.map_eq_some_iff.mp hf
  exact ⟨node, List.mem_of_head? hhead, rfl⟩

theorem next_mem {streams : List Node} {id it : Nat}
    (hn : next id streams = some it) : ∃ node ∈ streams, node.id = it := by
  induction streams with
  | nil => cases hn
  | cons node streams ih =>
      rw [next] at hn
      split at hn
      · obtain ⟨a, ha, hid⟩ := first_mem hn
        exact ⟨a, List.mem_cons_of_mem _ ha, hid⟩
      · obtain ⟨a, ha, hid⟩ := ih hn
        exact ⟨a, List.mem_cons_of_mem _ ha, hid⟩

theorem Later.node {h h' : Hosted World} (hl : Later h h') {it : Nat}
    (hnode : ∃ node ∈ h.ctl.streams, node.id = it) :
    ∃ node ∈ h'.ctl.streams, node.id = it := by
  have hmem := hl.ids.subset (List.mem_map.mpr hnode)
  exact List.mem_map.mp hmem

/-- The list is in order, and the iterator of the loop, unless it is at the end,
has its node in it. -/
structure Kept (m : Moment World) : Prop where
  sound : Sound m.host
  iterator : ∀ l it, m.loop = some l → l.it = some it →
    ∃ node ∈ m.host.ctl.streams, node.id = it

theorem Kept.idle {m : Moment World} (hs : Sound m.host)
    (hl : m.loop = none) : Kept m :=
  ⟨hs, fun l _ h => by rw [hl] at h; cases h⟩

theorem Kept.enter {h : Hosted World} (hs : Sound h) (elapsed waiting : Nat) :
    Kept (enter elapsed waiting h) := by
  have hbegun : Sound (begun elapsed h) := hs.congr rfl rfl rfl
  simp only [ControllerSimple.enter]
  split
  · exact Kept.idle (hs.congr rfl rfl rfl) rfl
  · split
    · exact Kept.idle (hbegun.congr rfl rfl rfl) rfl
    · refine ⟨hbegun, fun l it hl hit => ?_⟩
      cases hl
      exact first_mem hit

theorem Kept.turn {react : React} {l : Loop} {m m' : Moment World}
    (hk : Kept m) (ht : turn (streams react) l m = some m') :
    Kept m' ∧ m.host.world.added <+: m'.host.world.added ∧
      m.host.world.removed <:+ m'.host.world.removed := by
  rw [ControllerSimple.turn] at ht
  split at ht
  · split at ht
    · cases ht
      refine ⟨⟨hk.sound, fun l it hl hit => ?_⟩, List.prefix_refl _,
        List.suffix_refl _⟩
      cases hl
      exact first_mem hit
    · cases ht
      have hs := hk.sound.congr (finish_streams l.pending m.host)
        (finish_inserted l.pending m.host) (finish_world l.pending m.host)
      refine ⟨Kept.idle hs rfl, ?_, ?_⟩ <;> simp
  · split at ht
    · cases ht
    · next node hfind =>
        obtain ⟨hnode, rfl⟩ := node_of_find hfind
        split at ht
        · obtain ⟨r, hv, rfl⟩ := Option.map_eq_some_iff.mp ht
          obtain ⟨hs, hlater⟩ := visit_kept hk.sound hv
          refine ⟨⟨hs, fun l it hl hit => ?_⟩, hlater.added, hlater.removed⟩
          cases hl
          exact hlater.node (next_mem hit)
        · next hlock =>
            cases ht
            refine ⟨⟨hk.sound.erase hnode hlock, fun l it hl hit => ?_⟩,
              List.prefix_refl _, List.suffix_refl _⟩
            cases hl
            have ho := hk.sound.ordered
            obtain ⟨pre, suf, hsplit⟩ := List.append_of_mem hnode
            simp only [hsplit] at ho hit ⊢
            rw [ho.next] at hit
            rw [ho.erase]
            obtain ⟨a, ha, hid⟩ := first_mem hit
            exact ⟨a, List.mem_append_right _ ha, hid⟩

theorem enter_world (elapsed waiting : Nat) (h : Hosted World) :
    (enter elapsed waiting h).host.world = h.world := by
  simp only [ControllerSimple.enter]
  split
  · rfl
  · split <;> rfl

/-- Whatever happens next keeps the list and the iterator, and the record of
the calls only grows. -/
theorem Kept.step {m m' : Moment World} {e : Event} (hk : Kept m)
    (hs : StreamRegistry.step m e = some m') :
    Kept m' ∧ m.host.world.added <+: m'.host.world.added ∧
      m.host.world.removed <:+ m'.host.world.removed := by
  cases e with
  | act a =>
      simp only [StreamRegistry.step, Option.ite_none_right_eq_some] at hs
      obtain ⟨⟨hidle, -⟩, hs⟩ := hs
      obtain ⟨h, ha, rfl⟩ := Option.map_eq_some_iff.mp hs
      have hlater := act_later ha
      exact ⟨Kept.idle (hk.sound.act ha) hidle, hlater.added, hlater.removed⟩
  | shedule elapsed =>
      simp only [StreamRegistry.step, Option.ite_none_right_eq_some] at hs
      obtain ⟨-, hs⟩ := hs
      split at hs <;> cases hs
      · exact ⟨hk, List.prefix_refl _, List.suffix_refl _⟩
      · refine ⟨Kept.enter hk.sound elapsed 0, ?_, ?_⟩ <;>
          simp [enter_world]
  | tick =>
      simp only [StreamRegistry.step, Option.ite_none_right_eq_some,
        Option.some.injEq] at hs
      obtain ⟨⟨hidle, -, -⟩, rfl⟩ := hs
      exact ⟨Kept.idle (hk.sound.congr rfl rfl rfl) hidle,
        List.prefix_refl _, List.suffix_refl _⟩
  | listener elapsed =>
      simp only [StreamRegistry.step, Option.ite_none_right_eq_some,
        Option.some.injEq] at hs
      obtain ⟨-, rfl⟩ := hs
      refine ⟨Kept.enter hk.sound elapsed _, ?_, ?_⟩ <;> simp [enter_world]
  | turn acts =>
      obtain ⟨l, -, ht⟩ := Option.bind_eq_some_iff.mp hs
      exact hk.turn ht

theorem Kept.created (limit : Nat) (alive : Nat → Bool) :
    Kept (created limit alive) :=
  Kept.idle ⟨List.Pairwise.nil, by simp [StreamRegistry.created],
    by simp [StreamRegistry.created], rfl⟩ rfl

theorem Kept.registered {m : Moment World} (hk : Kept m) : Registered m := by
  have hlisted := hk.sound.listed
  refine ⟨hlisted, hk.sound.ordered.imp Nat.ne_of_lt, ?_, ?_, hk.iterator⟩
  · intro e he
    rw [← hlisted] at he
    obtain ⟨node, hnode, hl⟩ := List.mem_filterMap.mp he
    obtain ⟨stream, hweak, rfl⟩ := Option.map_eq_some_iff.mp hl
    have hsame : node = { id := node.id, weak := some stream } := by
      rw [← (Option.filter_eq_some_iff.mp hweak).1]
    rw [← hsame]
    exact hnode
  · intro react node stream hasks
    obtain ⟨l, it, -, -, hfind, hlock⟩ := hasks
    rw [← hlisted]
    exact List.mem_filterMap.mpr ⟨node, (node_of_find hfind).1,
      live_of_lock hlock⟩

/-- A stream that was added once stands in the list once. -/
theorem Registered.once {m : Moment World} (hr : Registered m)
    (ho : AddedOnce m.host.world) {e : Entry}
    (he : e ∈ members m.host.world) :
    (m.host.ctl.streams.countP fun node => node.weak = some e.stream) = 1 := by
  have halive : m.host.world.alive e.stream = true := by
    have hkeep := (List.mem_filter.mp he).2
    simp only [Bool.and_eq_true] at hkeep
    exact hkeep.1
  have hcount : (m.host.ctl.streams.countP fun node =>
      decide (node.weak = some e.stream)) =
      (members m.host.world).countP fun a => decide (a.stream = e.stream) := by
    rw [← hr.listed, List.countP_filterMap]
    congr 1
    funext node
    cases hw : node.weak with
    | none => simp [live, hw]
    | some s =>
        by_cases hs : s = e.stream
        · subst hs
          simp [live, hw, Option.filter, halive]
        · cases ha : m.host.world.alive s <;>
            simp [live, hw, Option.filter, ha, hs]
  have hapart : (members m.host.world).Pairwise fun a b =>
      a.stream ≠ b.stream := ho.sublist List.filter_sublist
  obtain ⟨pre, suf, hsplit⟩ := List.append_of_mem he
  rw [hsplit] at hapart
  obtain ⟨-, hcons, hacross⟩ := List.pairwise_append.mp hapart
  have hpre : pre.countP (fun a => decide (a.stream = e.stream)) = 0 := by
    rw [List.countP_eq_zero]
    intro a ha
    simpa using hacross a ha e List.mem_cons_self
  have hsuf : suf.countP (fun a => decide (a.stream = e.stream)) = 0 := by
    rw [List.countP_eq_zero]
    intro a ha
    simpa using Ne.symm ((List.pairwise_cons.mp hcons).1 a ha)
  rw [hcount, hsplit, List.countP_append, List.countP_cons, hpre, hsuf]
  simp

theorem removed_stays {stream : Nat} {m m' : Moment World} {e : Event}
    (hr : Kept m ∧ Removed m.host.world stream) (hs : step m e = some m') :
    Kept m' ∧ Removed m'.host.world stream := by
  obtain ⟨hk, a, ha, hstream, hremoved⟩ := hr
  obtain ⟨hk', hadded, hgrown⟩ := hk.step hs
  exact ⟨hk', a, hadded.subset ha, hstream, hgrown.subset hremoved⟩

/-- Between any two calls the controller makes, whatever the streams do in them,
its list is the record of who was added, is there and was not removed, in that
order and, where nobody is added twice, each once; the connections denote their
own nodes; and a stream whose connection was given to `remove_stream` is not
asked any more. -/
theorem registry_sound {limit : Nat} {alive : Nat → Bool}
    {hist : List (Moment World × Event)} {m : Moment World}
    (hr : Run (Lib.Graph step) (created limit alive) hist m) :
    Registered m ∧ (AddedOnce m.host.world →
      (∀ e ∈ members m.host.world, (m.host.ctl.streams.countP fun node =>
        node.weak = some e.stream) = 1) ∧
      ∀ earlier, Passes hist m earlier → ∀ stream,
        Removed earlier.host.world stream → ∀ react node,
        ¬ Asks (streams react) m node stream) := by
  have hkept : ∀ {hist m}, Run (Lib.Graph step) (created limit alive) hist m →
      Kept m := fun hr =>
    hr.invariant' Kept (Kept.created limit alive) fun _ _ _ hk hs =>
      (hk.step hs).1
  have hreg := (hkept hr).registered
  refine ⟨hreg, fun ho => ⟨fun e he => hreg.once ho he, ?_⟩⟩
  intro earlier hpass stream hremoved react node hasks
  have hk₀ : Kept earlier :=
    hr.always (C := fun _ _ => True) (fun _ _ => trivial)
      (fun hr _ => hkept hr) hpass
  obtain ⟨-, a, ha, hstream, hconn⟩ :=
    hr.stays (P := fun m => Kept m ∧ Removed m.host.world stream)
      removed_stays hpass ⟨hk₀, hremoved⟩
  have hmember := hreg.asks react node stream hasks
  obtain ⟨hadded, hkeep⟩ := List.mem_filter.mp hmember
  have hsame : a = ⟨node.id, stream⟩ := by
    have : Std.Symm fun a b : Entry => a.stream ≠ b.stream :=
      ⟨fun _ _ hne => Ne.symm hne⟩
    by_contra hne
    exact ho.forall ha hadded hne hstream
  subst hsame
  simp [hconn] at hkeep

/-! ## The turns are those of transfer -/

section

variable {react : React} {n : Nat}

/-- One step in front of a run. -/
theorem run_cons {m₁ m₂ m₃ : Moment World} {e : Event}
    {hist : List (Moment World × Event)} (hs : step m₁ e = some m₂)
    (hr : Run (Lib.Graph step) m₂ hist m₃) :
    ∃ hist', Run (Lib.Graph step) m₁ hist' m₃ :=
  ⟨_, (Run.nil.snoc hs).append hr⟩

/-- What happens in a call of `Stream::transfer` is all the turn needs to know of
the handlers. -/
theorem visit_acts (react : React) (c stream total pend : Nat) (h : Hosted World) :
    ∃ acts, visit (streams fun _ _ _ => acts) c stream total pend h =
      visit (streams react) c stream total pend h :=
  let length := min (h.world.available stream) c
  ⟨react stream length { h with ctl := record ⟨total, length⟩ h.ctl }, rfl⟩

theorem round_run {c fuel : Nat} :
    ∀ {it : Option Nat} {total pend : Nat} {h : Hosted World}
      {r : Nat × Nat × Hosted World},
    round (streams react) c fuel it total pend h = some r →
    ∃ hist, Run (Lib.Graph step)
      { host := h, loop := some ⟨c, it, total, pend⟩, waiting := n } hist
      { host := r.2.2, loop := some ⟨c, none, r.1, r.2.1⟩, waiting := n } := by
  induction fuel with
  | zero => intro it total pend h r hr; cases hr
  | succ fuel ih =>
      intro it total pend h r hr
      cases it with
      | none =>
          cases hr
          exact ⟨[], .nil⟩
      | some it =>
          obtain ⟨node, rfl, hfind, hcases⟩ := round_cases hr
          rcases hcases with ⟨hl, hr⟩ | ⟨stream, r₁, hl, hv, hr⟩
          · obtain ⟨hist, hrest⟩ := ih hr
            refine run_cons (e := .turn []) ?_ hrest
            have hl' : lock (streams fun _ _ _ => []) node h = none := hl
            simp [step, turn, hfind, hl']
          · obtain ⟨hist, hrest⟩ := ih hr
            obtain ⟨acts, hacts⟩ := visit_acts react c stream total pend h
            refine run_cons (e := .turn acts) ?_ hrest
            have hl' : lock (streams fun _ _ _ => acts) node h =
                some stream := hl
            simp [step, turn, hfind, hl', hacts, hv]

theorem rounds_run {visits fuel : Nat} :
    ∀ {total pend : Nat} {h : Hosted World} {r : Nat × Hosted World},
    rounds (streams react) visits fuel total pend h = some r →
    ∃ hist, Run (Lib.Graph step)
      { host := h
        loop := some (roundOf total pend h.ctl.streams)
        waiting := n } hist
      { host := finish r.1 r.2, waiting := n } := by
  induction fuel with
  | zero => intro total pend h r hr; cases hr
  | succ fuel ih =>
      intro total pend h r hr
      obtain ⟨total₁, pend₁, h₁, hround, hcases⟩ := rounds_cases hr
      obtain ⟨hist, hrun⟩ := round_run (n := n) hround
      rcases hcases with ⟨hmore, hr⟩ | ⟨hdone, rfl⟩
      · have hturn : step
            { host := h₁
              loop := some ⟨max (total / pend) 1, none, total₁, pend₁⟩
              waiting := n } (.turn []) =
            some { host := h₁
                   loop := some (roundOf total₁ pend₁ h₁.ctl.streams)
                   waiting := n } := by
          simp [step, turn, hmore]
        obtain ⟨hist', hrest⟩ := ih hr
        obtain ⟨hist'', hrest⟩ := run_cons hturn hrest
        exact ⟨_, hrun.append hrest⟩
      · refine ⟨_, hrun.snoc (e := .turn []) ?_⟩
        simp [Lib.Graph, step, turn, hdone]

theorem enter_eq (elapsed : Nat) (h : Hosted World) :
    enter elapsed n h =
      if h.ctl.streams.length = 0 then
        { host := { h with ctl.sheduled := false }, waiting := n }
      else if budget elapsed h.ctl = 0 then
        { host := { h with ctl := deferTransfer (begun elapsed h).ctl }
          waiting := n }
      else
        { host := begun elapsed h
          loop := some (roundOf (budget elapsed h.ctl) h.ctl.streams.length
            h.ctl.streams)
          waiting := n } := rfl

/-- A call of `transfer` that returns is a run of turns. -/
theorem transfer_run {fuel elapsed : Nat} {h h' : Hosted World}
    (ht : transfer (streams react) fuel elapsed h = some h') :
    ∃ hist, Run (Lib.Graph step) (enter elapsed n h) hist
      { host := h', waiting := n } := by
  rw [transfer_eq] at ht
  rw [enter_eq]
  split at ht
  · next hempty =>
      cases ht
      rw [if_pos hempty]
      exact ⟨[], .nil⟩
  · next hsome =>
      rw [if_neg hsome]
      split at ht
      · next hzero =>
          cases ht
          rw [if_pos hzero]
          exact ⟨[], .nil⟩
      · next hbudget =>
          obtain ⟨r, hrounds, rfl⟩ := Option.map_eq_some_iff.mp ht
          rw [if_neg hbudget]
          exact rounds_run hrounds

theorem sheduleTransfer_run {fuel elapsed : Nat} {h h' : Hosted World}
    (ht : sheduleTransfer (streams react) fuel elapsed h = some h') :
    ∃ hist, Run (Lib.Graph step) { host := h } hist { host := h' } := by
  unfold sheduleTransfer at ht
  split at ht
  · cases ht
    exact ⟨[], .nil⟩
  · next hs =>
      obtain ⟨hist, hrest⟩ := transfer_run (n := 0) ht
      refine run_cons (e := .shedule elapsed) ?_ hrest
      simp [step, hs]

theorem listeners_run {α : Type} {fuel elapsed : Nat} {l : List α} :
    ∀ {h h' : Hosted World},
    l.foldlM (fun h _ => transfer (streams react) fuel elapsed h) h = some h' →
    ∃ hist, Run (Lib.Graph step) { host := h, waiting := l.length } hist
      { host := h' } := by
  induction l with
  | nil =>
      intro h h' ht
      cases ht
      exact ⟨[], .nil⟩
  | cons a l ih =>
      intro h h' ht
      rw [List.foldlM_cons] at ht
      obtain ⟨h₁, ht, hrest⟩ := Option.bind_eq_some_iff.mp ht
      obtain ⟨hist₁, hrun₁⟩ := transfer_run (n := l.length) ht
      obtain ⟨hist₂, hrun₂⟩ := ih hrest
      refine run_cons (e := .listener elapsed) ?_ (hrun₁.append hrun₂)
      simp [step]

theorem timerEvent_run {fuel elapsed : Nat} {h h' : Hosted World}
    (ht : timerEvent (streams react) fuel elapsed h = some h') :
    ∃ hist, Run (Lib.Graph step) { host := h } hist { host := h' } := by
  simp only [timerEvent, Option.ite_none_right_eq_some] at ht
  obtain ⟨harmed, ht⟩ := ht
  obtain ⟨hist, hrest⟩ := listeners_run ht
  rw [List.length_range] at hrest
  refine run_cons (e := .tick) ?_ hrest
  simp [step, harmed]

end

/-- The second of three streams removes the third one in its `transfer`, and adds
a fourth: the fourth has its turn in the same round, the third none. -/
theorem registry_sound_nested : ∃ hist m,
    exec step (created 60 fun _ => true)
      [.act (.add 10), .act (.add 11), .act (.add 12), .act (.put 10 5),
        .act (.put 11 5), .act (.put 12 5), .shedule 1000, .turn [.put 10 0],
        .turn [.put 11 0, .remove 2, .add 13]] = some (hist, m) ∧
      m.host.world.removed = [2] ∧
      members m.host.world = [⟨0, 10⟩, ⟨1, 11⟩, ⟨3, 13⟩] ∧
      Registered m ∧ ∀ react node, ¬ Asks (streams react) m node 12 := by
  obtain ⟨hist, m, hexec, hremoved, hmembers, hadded⟩ : ∃ hist m,
    exec step (created 60 fun _ => true)
      [.act (.add 10), .act (.add 11), .act (.add 12), .act (.put 10 5),
        .act (.put 11 5), .act (.put 12 5), .shedule 1000, .turn [.put 10 0],
        .turn [.put 11 0, .remove 2, .add 13]] = some (hist, m) ∧
      m.host.world.removed = [2] ∧
      members m.host.world = [⟨0, 10⟩, ⟨1, 11⟩, ⟨3, 13⟩] ∧
      m.host.world.added = [⟨0, 10⟩, ⟨1, 11⟩, ⟨2, 12⟩, ⟨3, 13⟩] :=
    ⟨_, _, rfl, by decide, by decide, by decide⟩
  obtain ⟨hreg, hsound⟩ := registry_sound (run_of_exec hexec)
  have ho : AddedOnce m.host.world := by
    rw [AddedOnce, hadded]
    decide
  have hrm : Removed m.host.world 12 :=
    ⟨⟨2, 12⟩, by simp [hadded], rfl, by simp [hremoved]⟩
  exact ⟨hist, m, hexec, hremoved, hmembers, hreg,
    (hsound ho).2 m .last 12 hrm⟩

end StreamRegistry

end EcwidDownloader
