import EcwidDownloader.Proofs.PlainStreams

/-!
# Fairness of a tick

A round serves every stream that is still there with the same share, so the
rounds of a tick together take the same amount, the *level*, from every stream
that has it, and empty the others. Which shares the rounds had, and whether the
counter wrapped between them, does not matter for that.
-/

namespace EcwidDownloader

open Lib ControllerSimple

namespace PlainStreams

/-- A stream of the controller's list that is still there. -/
def Listed (h : Hosted World) (stream : Nat) : Prop :=
  ∃ node ∈ h.ctl.streams, lock ops node h = some stream

/-- What a stream gave up between two states. -/
def given (h h' : Hosted World) (stream : Nat) : Nat :=
  (h.world stream).available - (h'.world stream).available

/-- What a round with the share `c` does to the streams of the nodes `suf`:
each is served once, and the nodes of the expired ones leave the list. -/
structure Served (c : Nat) (pre suf : List Node) (h h' : Hosted World) :
    Prop where
  listed : ∀ node ∈ suf, ∀ stream, lock ops node h = some stream →
    h'.world stream =
      (h.world stream).transfer (min (h.world stream).available c)
  others : ∀ stream, (∀ node ∈ suf, lock ops node h ≠ some stream) →
    h'.world stream = h.world stream
  nodes : h'.ctl.streams =
    pre ++ suf.filter fun node => (lock ops node h).isSome
  inserted : h'.ctl.inserted = h.ctl.inserted

theorem transfer_zero (s : PlainStream) : s.transfer 0 = s := by
  unfold PlainStream.transfer
  split <;> simp

/-- A stream stays there while others, or it itself, are served. -/
theorem lock_update {node : Node} {h h' : Hosted World} {stream n : Nat}
    (hw : h'.world =
      Function.update h.world stream ((h.world stream).transfer n)) :
    lock ops node h' = lock ops node h := by
  simp only [lock_eq, hw]
  congr 1
  funext s
  by_cases hs : s = stream
  · subst hs
    rw [Function.update_self, alive_transfer]
  · rw [Function.update_of_ne hs]

/-- The turn at a stream that is there. -/
theorem visit_eq {c stream total pend : Nat} {h : Hosted World}
    {r : Nat × Nat × Hosted World}
    (hv : visit ops c stream total pend h = some r) :
    r.2.2.world = Function.update h.world stream
      ((h.world stream).transfer (min (h.world stream).available c)) ∧
      r.2.2.ctl.streams = h.ctl.streams ∧
      r.2.2.ctl.inserted = h.ctl.inserted := by
  rcases visit_cases hv with ⟨hz, rfl, -⟩ | ⟨n, h', hn, -, ht, rfl, -⟩
  · change min (h.world stream).available c = 0 at hz
    rw [hz, transfer_zero, Function.update_eq_self]
    exact ⟨rfl, rfl, rfl⟩
  · subst hn
    cases ht
    exact ⟨rfl, record_streams _ _, record_inserted _ _⟩

/-- A node whose stream is gone leaves the list, and the rest is served. -/
theorem Served.expired {c : Nat} {pre suf : List Node} {node : Node}
    {h h' : Hosted World} {streams : List Node}
    (hl : lock ops node h = none)
    (hs : Served c pre suf { h with ctl.streams := streams } h') :
    Served c pre (node :: suf) h h' := by
  constructor
  · intro a ha stream hla
    rcases List.mem_cons.mp ha with rfl | ha
    · rw [hl] at hla
      cases hla
    · exact hs.listed a ha stream hla
  · intro stream hne
    exact hs.others stream fun a ha => hne a (List.mem_cons_of_mem _ ha)
  · rw [hs.nodes, List.filter_cons_of_neg (by simp [hl])]
    rfl
  · exact hs.inserted

/-- A stream that is there is served, and no other one by that. -/
theorem Served.visited {c n : Nat} {pre suf : List Node} {node : Node}
    {h h₁ h' : Hosted World} (hl : lock ops node h = some node.id)
    (hn : n = min (h.world node.id).available c)
    (hworld : h₁.world =
      Function.update h.world node.id ((h.world node.id).transfer n))
    (hins : h₁.ctl.inserted = h.ctl.inserted)
    (hne : ∀ a ∈ suf, ∀ stream, lock ops a h = some stream → stream ≠ node.id)
    (hs : Served c (pre ++ [node]) suf h₁ h') :
    Served c pre (node :: suf) h h' := by
  have hlocks : ∀ a, lock ops a h₁ = lock ops a h :=
    fun a => lock_update hworld
  constructor
  · intro a ha stream hla
    rcases List.mem_cons.mp ha with rfl | ha
    · obtain rfl := Option.some.inj (hl.symm.trans hla)
      rw [hs.others _ fun b hb => ?_, hworld, Function.update_self, hn]
      rw [hlocks]
      intro hlb
      exact hne b hb _ hlb rfl
    · rw [hs.listed a ha stream (by rw [hlocks]; exact hla), hworld,
        Function.update_of_ne (hne a ha stream hla)]
  · intro stream hnone
    have hrest : h'.world stream = h₁.world stream := by
      refine hs.others stream fun a ha => ?_
      rw [hlocks]
      exact hnone a (List.mem_cons_of_mem _ ha)
    rw [hrest, hworld]
    refine Function.update_of_ne ?_ _ _
    rintro rfl
    exact hnone node List.mem_cons_self hl
  · simp only [hs.nodes, hlocks, List.append_assoc, List.singleton_append]
    rw [List.filter_cons_of_pos (by simp [hl])]
  · exact hs.inserted.trans hins

/-- The loop over the nodes to come serves each of their streams. -/
theorem round_served {c : Nat} {suf : List Node} :
    ∀ {pre : List Node} {fuel total pend : Nat} {h : Hosted World}
      {r : Nat × Nat × Hosted World}, Ordered (pre ++ suf) →
    h.ctl.streams = pre ++ suf →
    (∀ node ∈ suf, ∀ stream, node.weak = some stream → stream = node.id) →
    round ops c fuel (first suf) total pend h = some r →
    Served c pre suf h r.2.2 := by
  induction suf with
  | nil =>
      intro pre fuel total pend h r _ hstreams _ hr
      cases fuel with
      | zero => cases hr
      | succ fuel =>
          cases hr
          exact ⟨by simp, fun _ _ => rfl, by simpa using hstreams, rfl⟩
  | cons node suf ih =>
      intro pre fuel total pend h r hord hstreams hown hr
      cases fuel with
      | zero => cases hr
      | succ fuel =>
          have hfind := hord.find
          have hnext := hord.next
          rw [← hstreams] at hfind hnext
          have hown' : ∀ a ∈ suf, ∀ stream, a.weak = some stream →
              stream = a.id := fun a ha => hown a (List.mem_cons_of_mem _ ha)
          change round ops c (fuel + 1) (some node.id) total pend h =
            some r at hr
          cases hl : lock ops node h with
          | none =>
              rw [round_expired hfind hl, hnext] at hr
              exact .expired hl (ih hord.erased
                (by rw [hstreams]; exact hord.erase) hown' hr)
          | some stream =>
              rw [round_locked hfind hl, hnext] at hr
              obtain ⟨⟨total₁, pend₁, h₁⟩, hv, hrest⟩ :=
                Option.bind_eq_some_iff.mp hr
              obtain ⟨hworld, hlist, hins⟩ := visit_eq hv
              obtain ⟨rfl, -, -⟩ := lock_spec (hown node List.mem_cons_self) hl
              have hassoc : pre ++ node :: suf = (pre ++ [node]) ++ suf := by
                rw [List.append_assoc, List.singleton_append]
              refine .visited hl rfl hworld hins ?_ (ih (hassoc ▸ hord)
                (hlist.trans (hstreams.trans hassoc)) hown' hrest)
              intro a ha s hla
              have hid := (lock_spec (hown' a ha) hla).1
              exact hid ▸ hord.suf_ne a ha

/-- What the rounds of a tick do to the streams that are there: each loses the
same amount, as far as it has it. -/
structure Levelled (level : Nat) (h h' : Hosted World) : Prop where
  amount : ∀ stream, Listed h stream →
    (h'.world stream).available = (h.world stream).available - level
  stopped : ∀ stream, (h'.world stream).stopped = (h.world stream).stopped
  listed : ∀ stream, Listed h' stream ↔ Listed h stream
  good : Good h'

/-- A round is a level of its own. -/
theorem round_levelled {c fuel total pend : Nat} {h : Hosted World}
    {r : Nat × Nat × Hosted World} (hg : Good h)
    (hrun : ∀ stream, Listed h stream → (h.world stream).stopped = false)
    (hr : round ops c fuel (first h.ctl.streams) total pend h = some r) :
    Levelled c h r.2.2 := by
  have hs : Served c [] h.ctl.streams h r.2.2 :=
    round_served hg.ordered rfl hg.own hr
  have hfields : ∀ stream,
      (r.2.2.world stream).alive = (h.world stream).alive ∧
        (r.2.2.world stream).stopped = (h.world stream).stopped := by
    intro stream
    by_cases hl : ∃ node ∈ h.ctl.streams, lock ops node h = some stream
    · obtain ⟨node, hnode, hl⟩ := hl
      rw [hs.listed node hnode stream hl, alive_transfer, stopped_transfer]
      exact ⟨rfl, rfl⟩
    · rw [hs.others stream fun node hnode hl' => hl ⟨node, hnode, hl'⟩]
      exact ⟨rfl, rfl⟩
  have hlocks : ∀ node, lock ops node r.2.2 = lock ops node h := by
    intro node
    simp only [lock_eq, hfields]
  have hsub : List.Sublist r.2.2.ctl.streams h.ctl.streams := by
    rw [hs.nodes]
    exact List.filter_sublist
  refine ⟨?_, fun stream => (hfields stream).2, ?_, hg.ordered.sublist hsub,
    ?_, fun node hn => hg.own node (hsub.subset hn)⟩
  · intro stream hlisted
    have hgoing := hrun stream hlisted
    obtain ⟨node, hnode, hl⟩ := hlisted
    rw [hs.listed node hnode stream hl]
    simp only [PlainStream.transfer, hgoing, Bool.false_eq_true, if_false]
    omega
  · intro stream
    constructor
    · rintro ⟨node, hnode, hl⟩
      exact ⟨node, hsub.subset hnode, hlocks node ▸ hl⟩
    · rintro ⟨node, hnode, hl⟩
      refine ⟨node, ?_, by rw [hlocks]; exact hl⟩
      rw [hs.nodes]
      exact List.mem_filter.mpr ⟨hnode, by simp [hl]⟩
  · intro node hn
    rw [hs.inserted]
    exact hg.inserted node (hsub.subset hn)

/-- The rounds of a tick are together one round at the sum of their shares. The
induction is on the rounds still to come. -/
theorem rounds_levelled {visits fuel total pend : Nat} {h : Hosted World}
    {r : Nat × Hosted World} (hg : Good h)
    (hrun : ∀ stream, Listed h stream → (h.world stream).stopped = false)
    (hr : rounds ops visits fuel total pend h = some r) :
    ∃ level, Levelled level h r.2 := by
  induction fuel generalizing total pend h with
  | zero => cases hr
  | succ fuel ih =>
      rw [rounds] at hr
      generalize max (total / pend) 1 = c at hr
      cases hround : round ops c visits (first h.ctl.streams) total 0 h with
      | none => rw [hround] at hr; cases hr
      | some r₁ =>
          obtain ⟨total₁, pend₁, h₁⟩ := r₁
          rw [hround] at hr
          have hlev : Levelled c h h₁ := round_levelled hg hrun hround
          simp only [] at hr
          split at hr
          · obtain ⟨level, hrest⟩ := ih hlev.good (fun stream hs => by
              rw [hlev.stopped]
              exact hrun stream ((hlev.listed stream).mp hs)) hr
            refine ⟨c + level, ?_, ?_, ?_, hrest.good⟩
            · intro stream hs
              rw [hrest.amount stream ((hlev.listed stream).mpr hs),
                hlev.amount stream hs]
              omega
            · exact fun stream =>
                (hrest.stopped stream).trans (hlev.stopped stream)
            · exact fun stream =>
                (hrest.listed stream).trans (hlev.listed stream)
          · cases hr
            exact ⟨c, hlev⟩

/-! ## A tick -/

theorem Levelled.zero {h h' : Hosted World} (hg : Good h')
    (hworld : h'.world = h.world) (hlist : h'.ctl.streams = h.ctl.streams) :
    Levelled 0 h h' := by
  refine ⟨fun stream _ => by simp [hworld], fun stream => by rw [hworld],
    fun stream => ?_, hg⟩
  simp only [Listed, hlist, lock_eq, hworld]

theorem listed_finish {pend : Nat} {h : Hosted World} {stream : Nat} :
    Listed (finish pend h) stream ↔ Listed h stream := by
  simp only [Listed, finish_streams, lock_eq, finish_world]

/-- A tick among streams that are not stopped takes the same from all of
them. -/
theorem transfer_levelled {fuel elapsed : Nat} {h h' : Hosted World}
    (hg : Good h)
    (hrun : ∀ stream, Listed h stream → (h.world stream).stopped = false)
    (ht : ControllerSimple.transfer ops fuel elapsed h = some h') :
    ∃ level, Levelled level h h' := by
  rw [transfer_eq] at ht
  split at ht
  · cases ht
    exact ⟨0, .zero ⟨hg.ordered, hg.inserted, hg.own⟩ rfl rfl⟩
  · split at ht
    · cases ht
      exact ⟨0, .zero ⟨hg.ordered, hg.inserted, hg.own⟩ rfl rfl⟩
    · obtain ⟨⟨pend, h₁⟩, hrounds, rfl⟩ := Option.map_eq_some_iff.mp ht
      have hbegun : Good (begun elapsed h) := hg.begun
      obtain ⟨level, hlev⟩ := rounds_levelled hbegun hrun hrounds
      refine ⟨level, fun stream hs => ?_, fun stream => ?_, fun stream => ?_,
        hlev.good.finish⟩
      · rw [finish_world]
        exact hlev.amount stream hs
      · rw [finish_world]
        exact hlev.stopped stream
      · rw [listed_finish]
        exact hlev.listed stream

/-! ## Runs -/

theorem willing_of_running {h : Hosted World}
    (hrun : ∀ stream, Listed h stream → (h.world stream).stopped = false) :
    Willing (holders h) := by
  intro x hx hk
  obtain ⟨node, hnode, hx⟩ := List.mem_filterMap.mp hx
  obtain ⟨stream, hl, rfl⟩ := Option.map_eq_some_iff.mp hx
  simp [hrun stream ⟨node, hnode, hl⟩] at hk

/-- Among streams that are not stopped a tick comes to an end, and a stream it
leaves with data was given as much as any other. -/
theorem tick_max_min_fair {limit elapsed : Nat} {h : Hosted World}
    {hist : List (Hosted World × Event)}
    (hr : Run Step (created limit) hist h)
    (hrun : ∀ stream, Listed h stream → (h.world stream).stopped = false) :
    (∃ fuel h', ControllerSimple.transfer ops fuel elapsed h = some h') ∧
      ∀ fuel h', ControllerSimple.transfer ops fuel elapsed h = some h' →
        ∀ i j, Listed h i → Listed h j → 0 < (h'.world i).available →
          given h h' j ≤ given h h' i := by
  have hg := (Regular.reached hr).good
  refine ⟨transfer_ends_of_willing hg (willing_of_running hrun), ?_⟩
  intro fuel h' ht i j hi hj hleft
  obtain ⟨level, hlev⟩ := transfer_levelled hg hrun ht
  have hamount := hlev.amount i hi
  have hamount' := hlev.amount j hj
  simp only [given]
  omega

/-- Ten bytes for a stream of two bytes and two streams of twenty: the short one
is emptied, and what it left goes to the others in equal parts. -/
theorem tick_max_min_fair_short : ∃ h h',
    ControllerSimple.transfer ops 4 1000 h = some h' ∧
      (given h h' 0, given h h' 1, given h h' 2) = (2, 4, 4) ∧
      ∀ i j, Listed h i → Listed h j → 0 < (h'.world i).available →
        given h h' j ≤ given h h' i := by
  obtain ⟨hist, h, hexec, htransfer, hrun⟩ : ∃ hist h,
      exec (step 4) (created 10)
        [.add { available := 2 }, .add { available := 20 },
          .add { available := 20 }] = some (hist, h) ∧
        (ControllerSimple.transfer ops 4 1000 h).map (fun h' =>
          (given h h' 0, given h h' 1, given h h' 2)) = some (2, 4, 4) ∧
        ∀ node ∈ h.ctl.streams, ∀ stream ∈ node.weak,
          (h.world stream).stopped = false :=
    ⟨_, _, rfl, by decide, by decide⟩
  obtain ⟨h', ht, hgiven⟩ := Option.map_eq_some_iff.mp htransfer
  have hr := (run_of_exec hexec).mono step_of_graph
  refine ⟨h, h', ht, hgiven, (tick_max_min_fair hr ?_).2 4 h' ht⟩
  rintro stream ⟨node, hnode, hl⟩
  exact hrun node hnode stream (Option.filter_eq_some_iff.mp hl).1

end PlainStreams

end EcwidDownloader
