import Mathlib.Algebra.Order.BigOperators.Group.List
import Mathlib.Algebra.Order.Ring.Nat
import Mathlib.Data.List.Perm.Subperm
import EcwidDownloader.Aio.PlainStreams
import EcwidDownloader.Proofs.BandwidthController

/-!
# The redistribution ends

The loop of `transfer` goes on while something is left to hand out and a stream
was found that holds more. Neither is a measure: a stopped stream ignores what it
is asked for, so it is pending for ever, and the counter is decreased unchecked.

What helps is that no stream comes to hold more on the way. Then a round hands out
less than `2 ^ 63`, and something if a stream is left pending. Where the counter
covers that, it has become smaller. Where it does not, it wraps to more than
`2 ^ 63`, and the next round, with a share of `2 ^ 32` for each stream, finds
nobody who holds more than that. A single round ends since whoever is asked for
something is passed, and a stream that is new holds nothing.
-/

namespace EcwidDownloader

namespace ControllerSimple

section

variable {W : Type} {ops : Streams W} {h h' : Hosted W}

/-! ## What the nodes hold -/

/-- What `available` says of a node's stream. A stream that is gone has
nothing. -/
def amount (ops : Streams W) (h : Hosted W) (node : Node) : Nat :=
  ((lock ops node h).map fun stream => ops.available stream h.world).getD 0

theorem amount_eq (ops : Streams W) (h : Hosted W) (node : Node) :
    amount ops h node = node.weak.elim 0 fun stream =>
      if ops.lock stream h.world then ops.available stream h.world else 0 := by
  unfold amount lock
  cases node.weak with
  | none => rfl
  | some stream =>
      cases hlock : ops.lock stream h.world with
      | true => simp [Option.filter, hlock]
      | false => simp [Option.filter, hlock]

/-- No node holds more than it did, and a new node holds nothing. -/
def Wanes (ops : Streams W) (h h' : Hosted W) : Prop :=
  ∀ node' ∈ h'.ctl.streams, 0 < amount ops h' node' →
    ∃ node ∈ h.ctl.streams, node.id = node'.id ∧
      amount ops h' node' ≤ amount ops h node

theorem Wanes.refl (ops : Streams W) (h : Hosted W) : Wanes ops h h :=
  fun node hnode _ => ⟨node, hnode, rfl, Nat.le_refl _⟩

theorem Wanes.trans {h₁ h₂ h₃ : Hosted W} (h : Wanes ops h₁ h₂)
    (h' : Wanes ops h₂ h₃) : Wanes ops h₁ h₃ := by
  intro node₃ hnode₃ hpos
  obtain ⟨node₂, hnode₂, hid, hle⟩ := h' node₃ hnode₃ hpos
  obtain ⟨node₁, hnode₁, hid', hle'⟩ := h node₂ hnode₂ (by omega)
  exact ⟨node₁, hnode₁, hid'.trans hid, Nat.le_trans hle hle'⟩

theorem Wanes.erase (ops : Streams W) (h : Hosted W) (id : Nat) :
    Wanes ops h { h with ctl.streams := erase id h.ctl.streams } :=
  fun node hnode _ =>
    ⟨node, (List.mem_filter.mp hnode).1, rfl, Nat.le_refl _⟩

/-- The nodes that hold something. -/
def laden (ops : Streams W) (h : Hosted W) (nodes : List Node) : Nat :=
  (nodes.filter fun node => 0 < amount ops h node).length

theorem laden_cons_of_pos {node : Node} {nodes : List Node}
    (hpos : 0 < amount ops h node) :
    laden ops h (node :: nodes) = laden ops h nodes + 1 := by
  simp [laden, hpos]

theorem laden_le_cons (node : Node) (nodes : List Node) :
    laden ops h nodes ≤ laden ops h (node :: nodes) :=
  ((List.sublist_cons_self node nodes).filter _).length_le

theorem laden_le_length (nodes : List Node) :
    laden ops h nodes ≤ nodes.length := List.length_filter_le _ _

/-- Different nodes that hold something come from different ones that did. -/
theorem laden_le {nodes nodes' : List Node} (ho : Ordered nodes')
    (hfrom : ∀ node' ∈ nodes', 0 < amount ops h' node' →
      ∃ node ∈ nodes, node.id = node'.id ∧ 0 < amount ops h node) :
    laden ops h' nodes' ≤ laden ops h nodes := by
  have hnodup : ((nodes'.filter fun node => 0 < amount ops h' node).map
      Node.id).Nodup := by
    refine List.pairwise_map.mpr ((ho.filter _).imp ?_)
    intro a b hlt
    exact Nat.ne_of_lt hlt
  have hsub : (nodes'.filter fun node => 0 < amount ops h' node).map Node.id ⊆
      (nodes.filter fun node => 0 < amount ops h node).map Node.id := by
    intro i hi
    obtain ⟨node', hnode', rfl⟩ := List.mem_map.mp hi
    obtain ⟨hmem, hpos⟩ := List.mem_filter.mp hnode'
    obtain ⟨node, hnode, hid, hpos⟩ := hfrom node' hmem (by simpa using hpos)
    exact List.mem_map.mpr
      ⟨node, List.mem_filter.mpr ⟨hnode, by simpa using hpos⟩, hid⟩
  simpa [laden] using (List.subperm_of_subset hnodup hsub).length_le

theorem Wanes.laden (hw : Wanes ops h h') (ho : Ordered h'.ctl.streams) :
    laden ops h' h'.ctl.streams ≤ laden ops h h.ctl.streams := by
  refine laden_le ho fun node' hnode' hpos => ?_
  obtain ⟨node, hnode, hid, hle⟩ := hw node' hnode' hpos
  exact ⟨node, hnode, hid, by omega⟩

/-- A bound on what the nodes hold stays one. -/
theorem Wanes.bounded {most : Nat} (hw : Wanes ops h h')
    (hb : ∀ node ∈ h.ctl.streams, amount ops h node ≤ most) :
    ∀ node ∈ h'.ctl.streams, amount ops h' node ≤ most := by
  intro node' hnode'
  rcases Nat.eq_zero_or_pos (amount ops h' node') with hz | hpos
  · omega
  · obtain ⟨node, hnode, -, hle⟩ := hw node' hnode' hpos
    exact Nat.le_trans hle (hb node hnode)

/-! ## Streams that hold no more than they did -/

/-- Streams for which the loops keep `I`. A stream that is asked for no more than
it has answers, to the effect that no node holds more than before. -/
structure Yields (ops : Streams W) (I : Hosted W → Prop) : Prop where
  ordered : ∀ {h}, I h → Ordered h.ctl.streams
  erase : ∀ {h node}, I h → node ∈ h.ctl.streams → lock ops node h = none →
    I { h with ctl.streams := ControllerSimple.erase node.id h.ctl.streams }
  serve : ∀ {h node stream n} (total : Nat), I h →
    node ∈ h.ctl.streams → lock ops node h = some stream → n ≠ 0 →
    n ≤ ops.available stream h.world →
    ∃ h', ops.transfer stream n { h with ctl := record ⟨total, n⟩ h.ctl } =
        some h' ∧ I h' ∧ Wanes ops h h' ∧
      ∀ a ∈ h.ctl.streams, ∃ a' ∈ h'.ctl.streams, a'.id = a.id

variable {I : Hosted W → Prop} {most c count total pend : Nat}

/-- Behind a node that was asked for something the loop goes on where it would
have, with one node less that holds anything. -/
theorem Yields.resume (hY : Yields ops I) {pre suf : List Node} {node : Node}
    (hI : I h) (hI' : I h') (hstreams : h.ctl.streams = pre ++ node :: suf)
    (hw : Wanes ops h h') (hpos : 0 < amount ops h node)
    (hkeeps : ∀ a ∈ h.ctl.streams, ∃ a' ∈ h'.ctl.streams, a'.id = a.id) :
    ∃ pre' suf', h'.ctl.streams = pre' ++ suf' ∧ first suf' = first suf ∧
      laden ops h' suf' + 1 ≤ laden ops h (node :: suf) := by
  have hord := hY.ordered hI
  rw [hstreams] at hord
  rw [laden_cons_of_pos hpos]
  cases suf with
  | nil =>
      exact ⟨h'.ctl.streams, [], (List.append_nil _).symm, rfl,
        by simp [laden]⟩
  | cons a suf =>
      obtain ⟨a', ha', hid⟩ := hkeeps a (by simp [hstreams])
      obtain ⟨pre', suf', hstreams'⟩ := List.append_of_mem ha'
      have hord' := hY.ordered hI'
      rw [hstreams'] at hord'
      refine ⟨pre', a' :: suf', hstreams', congrArg some hid,
        Nat.succ_le_succ (laden_le (List.pairwise_append.mp hord').2.1 ?_)⟩
      intro b' hb' hpos'
      obtain ⟨b, hb, hbid, hle⟩ :=
        hw b' (hstreams' ▸ List.mem_append_right _ hb') hpos'
      refine ⟨b, ?_, hbid, by omega⟩
      -- The identities tell on which side of the iterator a node stands.
      have hge : a.id ≤ b.id := by
        rw [hbid, ← hid]
        rcases List.mem_cons.mp hb' with rfl | hb'
        · exact Nat.le_refl _
        · exact Nat.le_of_lt ((List.pairwise_cons.mp
            (List.pairwise_append.mp hord').2.1).1 b' hb')
      obtain ⟨-, hcons, hacross⟩ := List.pairwise_append.mp hord
      have hnode := (List.pairwise_cons.mp hcons).1 a List.mem_cons_self
      rw [hstreams] at hb
      rcases List.mem_append.mp hb with hb | hb
      · have hlt := hacross b hb a (List.mem_cons_of_mem _ List.mem_cons_self)
        omega
      · rcases List.mem_cons.mp hb with rfl | hb
        · omega
        · exact hb

/-- What a stretch of a round with `count` nodes that hold something, each of
them no more than `most`, does to the counter and to the pending streams. -/
structure Stretch (ops : Streams W) (most c count total pend : Nat)
    (h : Hosted W) (r : Nat × Nat × Hosted W) : Prop where
  wanes : Wanes ops h r.2.2
  counter : ∃ n, (r.1 + n) % sizeModulus = total % sizeModulus ∧
    n ≤ count * most ∧ (pend < r.2.1 → 0 < n)
  small : total < sizeModulus → r.1 < sizeModulus
  pending : r.2.1 ≤ pend + count
  emptied : most ≤ c → r.2.1 = pend

theorem Stretch.nil : Stretch ops most c count total pend h (total, pend, h)
    where
  wanes := .refl ops h
  counter := ⟨0, rfl, Nat.zero_le _, fun hlt => absurd hlt (Nat.lt_irrefl _)⟩
  small := id
  pending := Nat.le_add_right _ _
  emptied := fun _ => rfl

theorem Stretch.after {h₁ : Hosted W} {r : Nat × Nat × Hosted W}
    (hw : Wanes ops h h₁) (hs : Stretch ops most c count total pend h₁ r) :
    Stretch ops most c count total pend h r :=
  { hs with wanes := hw.trans hs.wanes }

/-- One more node that was asked for something. -/
theorem Stretch.served {available : Nat} {h₁ : Hosted W}
    {r : Nat × Nat × Hosted W} (hw : Wanes ops h h₁) (hmost : available ≤ most)
    (hlt : c < sizeModulus) (hpos : min available c ≠ 0)
    (hs : Stretch ops most c count (sizeSub total (min available c))
      (if 0 < available - min available c then pend + 1 else pend) h₁ r) :
    Stretch ops most c (count + 1) total pend h r := by
  obtain ⟨n, hn, hle, -⟩ := hs.counter
  refine ⟨hw.trans hs.wanes, ⟨n + min available c, ?_, ?_, fun _ => by omega⟩,
    fun _ => hs.small (sizeSub_lt _ _), ?_, fun hc => ?_⟩
  · rw [← Nat.add_assoc, Nat.add_mod, hn, ← Nat.add_mod]
    exact sizeSub_add (by omega)
  · rw [Nat.succ_mul]
    omega
  · have hpending := hs.pending
    split at hpending <;> omega
  · have hemptied := hs.emptied hc
    rwa [if_neg (by omega)] at hemptied

/-- A stretch of a round ends. The induction is on the nodes that hold something,
and between two of them on the nodes still to come. -/
theorem Yields.round (hY : Yields ops I) (hlt : c < sizeModulus) :
    ∀ (suf pre : List Node) (total pend : Nat) {h : Hosted W}, I h →
    h.ctl.streams = pre ++ suf → laden ops h suf ≤ count →
    (∀ node ∈ h.ctl.streams, amount ops h node ≤ most) →
    ∃ N r, (∀ fuel ≥ N,
        ControllerSimple.round ops c fuel (first suf) total pend h = some r) ∧
      I r.2.2 ∧ Stretch ops most c count total pend h r := by
  induction count using Nat.strongRecOn with
  | ind count ihcount =>
  intro suf
  induction suf with
  | nil =>
      intro pre total pend h hI _ _ _
      refine ⟨1, (total, pend, h), fun fuel hfuel => ?_, hI, .nil⟩
      obtain ⟨fuel, rfl⟩ : ∃ f, fuel = f + 1 := ⟨fuel - 1, by omega⟩
      rfl
  | cons node suf ih =>
      intro pre total pend h hI hstreams hcount hmost
      have hord := hY.ordered hI
      rw [hstreams] at hord
      have hfind := hord.find
      have hnext := hord.next
      rw [← hstreams] at hfind hnext
      have hmem : node ∈ h.ctl.streams := by simp [hstreams]
      have hcount' := Nat.le_trans (laden_le_cons node suf) hcount
      cases hl : lock ops node h with
      | none =>
          obtain ⟨N, r, hr, hI', hs⟩ := ih pre total pend
            (hY.erase hI hmem hl) (by rw [hstreams]; exact hord.erase)
            hcount' ((Wanes.erase ops h node.id).bounded hmost)
          refine ⟨N + 1, r, fun fuel hfuel => ?_, hI',
            hs.after (.erase ops h node.id)⟩
          obtain ⟨fuel, rfl⟩ : ∃ f, fuel = f + 1 := ⟨fuel - 1, by omega⟩
          show ControllerSimple.round ops c (fuel + 1) (some node.id) total
            pend h = some r
          rw [round_expired hfind hl, hnext]
          exact hr fuel (by omega)
      | some stream =>
          have hamount : amount ops h node = ops.available stream h.world := by
            rw [amount, hl]
            rfl
          by_cases hz : min (ops.available stream h.world) c = 0
          · obtain ⟨N, r, hr, hI', hs⟩ := ih (pre ++ [node]) total pend
              hI (by rw [hstreams, List.append_assoc, List.singleton_append])
              hcount' hmost
            refine ⟨N + 1, r, fun fuel hfuel => ?_, hI', hs⟩
            obtain ⟨fuel, rfl⟩ : ∃ f, fuel = f + 1 := ⟨fuel - 1, by omega⟩
            show ControllerSimple.round ops c (fuel + 1) (some node.id) total
              pend h = some r
            rw [round_locked hfind hl, hnext, visit, if_pos hz]
            exact hr fuel (by omega)
          · obtain ⟨h₁, htransfer, hI₁, hw, hkeeps⟩ := hY.serve total
              hI hmem hl hz (Nat.min_le_left _ _)
            obtain ⟨pre₁, suf₁, hstreams₁, hfirst, hless⟩ :=
              hY.resume hI hI₁ hstreams hw (by omega) hkeeps
            obtain ⟨less, rfl⟩ : ∃ n, count = n + 1 := ⟨count - 1, by omega⟩
            obtain ⟨N, r, hr, hI', hs⟩ := ihcount less (Nat.lt_succ_self _)
              suf₁ pre₁ (sizeSub total (min (ops.available stream h.world) c))
              (if 0 < ops.available stream h.world -
                min (ops.available stream h.world) c then pend + 1 else pend)
              hI₁ hstreams₁ (by omega) (hw.bounded hmost)
            refine ⟨N + 1, r, fun fuel hfuel => ?_, hI',
              hs.served hw (hamount ▸ hmost node hmem) hlt hz⟩
            obtain ⟨fuel, rfl⟩ : ∃ f, fuel = f + 1 := ⟨fuel - 1, by omega⟩
            show ControllerSimple.round ops c (fuel + 1) (some node.id) total
              pend h = some r
            rw [round_locked hfind hl, hnext, visit, if_neg hz, htransfer,
              ← hfirst]
            exact hr fuel (by omega)

/-- Fewer than `2 ^ 31` nodes hold something, each of them less than
`2 ^ 32`. -/
structure Bounded (ops : Streams W) (h : Hosted W) : Prop where
  few : laden ops h h.ctl.streams < 2 ^ 31
  amounts : ∀ node ∈ h.ctl.streams, amount ops h node ≤ 2 ^ 32 - 1

theorem Wanes.bounds (hw : Wanes ops h h') (ho : Ordered h'.ctl.streams)
    (hb : Bounded ops h) : Bounded ops h' where
  few := Nat.lt_of_le_of_lt (hw.laden ho) hb.few
  amounts := hw.bounded hb.amounts

/-- A round with what comes after it: another round, while there is something to
hand out and a stream to take it. -/
theorem rounds_of_round {N total' pend' : Nat}
    (hround : ∀ visits ≥ N, ControllerSimple.round ops (max (total / pend) 1)
      visits (first h.ctl.streams) total 0 h = some (total', pend', h'))
    (hrest : 0 < total' ∧ 0 < pend' → ∃ N r, ∀ fuel ≥ N, ∀ visits ≥ N,
      rounds ops visits fuel total' pend' h' = some r) :
    ∃ N r, ∀ fuel ≥ N, ∀ visits ≥ N,
      rounds ops visits fuel total pend h = some r := by
  by_cases hmore : 0 < total' ∧ 0 < pend'
  · obtain ⟨N', r, hr⟩ := hrest hmore
    refine ⟨max N N' + 1, r, fun fuel hfuel visits hvisits => ?_⟩
    obtain ⟨fuel, rfl⟩ : ∃ f, fuel = f + 1 := ⟨fuel - 1, by omega⟩
    rw [rounds, hround visits (by omega)]
    simp only [if_pos hmore]
    exact hr fuel (by omega) visits (by omega)
  · refine ⟨N + 1, (pend', h'), fun fuel hfuel visits hvisits => ?_⟩
    obtain ⟨fuel, rfl⟩ : ∃ f, fuel = f + 1 := ⟨fuel - 1, by omega⟩
    rw [rounds, hround visits (by omega)]
    simp only [if_neg hmore]

/-- A round over the whole list ends, and what it does. -/
theorem Yields.turn (hY : Yields ops I) (pend : Nat)
    (hlt : total < sizeModulus) (hI : I h)
    (hmost : ∀ node ∈ h.ctl.streams, amount ops h node ≤ most) :
    ∃ N total' pend' h',
      (∀ visits ≥ N, ControllerSimple.round ops (max (total / pend) 1) visits
        (first h.ctl.streams) total 0 h = some (total', pend', h')) ∧
      I h' ∧ Stretch ops most (max (total / pend) 1)
        (laden ops h h.ctl.streams) total 0 h (total', pend', h') := by
  obtain ⟨N, ⟨total', pend', h'⟩, hround, hI', hs⟩ :=
    hY.round (share_lt pend hlt) h.ctl.streams [] total 0 hI rfl
      (Nat.le_refl _) hmost
  exact ⟨N, total', pend', h', hround, hI', hs⟩

/-- A round whose share nobody holds more than is the last. -/
theorem Yields.last_round (hY : Yields ops I) (hlt : total < sizeModulus)
    (hI : I h) (hb : Bounded ops h)
    (hshare : 2 ^ 32 - 1 ≤ max (total / pend) 1) :
    ∃ N r, ∀ fuel ≥ N, ∀ visits ≥ N,
      rounds ops visits fuel total pend h = some r := by
  obtain ⟨N, total', pend', h', hround, -, hs⟩ :=
    hY.turn pend hlt hI hb.amounts
  refine rounds_of_round hround fun hmore => ?_
  have hzero : pend' = 0 := hs.emptied hshare
  omega

/-- A measure that every round makes smaller which leaves something to hand out
and a stream to take it. `P` is what is known at the beginning of a round. -/
theorem Yields.rounds_of_measure (hY : Yields ops I)
    (P : Nat → Nat → Hosted W → Prop) (m : Nat → Hosted W → Nat)
    (hP : ∀ {N total pend h total' pend' h'}, P total pend h → I h →
      0 < total → total < sizeModulus →
      (∀ visits ≥ N, ControllerSimple.round ops (max (total / pend) 1) visits
        (first h.ctl.streams) total 0 h = some (total', pend', h')) →
      0 < total' ∧ 0 < pend' → P total' pend' h' ∧ m total' h' < m total h)
    (hI : I h) (hpos : 0 < total) (hlt : total < sizeModulus)
    (hp : P total pend h) :
    ∃ N r, ∀ fuel ≥ N, ∀ visits ≥ N,
      rounds ops visits fuel total pend h = some r := by
  induction hm : m total h using Nat.strongRecOn generalizing total pend h with
  | ind k ih =>
  subst hm
  have hmost : ∀ node ∈ h.ctl.streams,
      amount ops h node ≤ (h.ctl.streams.map (amount ops h)).sum :=
    fun node hnode => List.le_sum_of_mem (List.mem_map_of_mem hnode)
  obtain ⟨N, total', pend', h', hround, hI', hs⟩ := hY.turn pend hlt hI hmost
  refine rounds_of_round hround fun hmore => ?_
  obtain ⟨hp', hless⟩ := hP hp hI hpos hlt hround hmore
  exact ih _ hless hI' hmore.1 (hs.small hlt) hp' rfl

/-- The rounds end. The induction is on the counter: a round that leaves somebody
pending makes it smaller, or makes it wrap, and then the next round is the
last. -/
theorem Yields.rounds (hY : Yields ops I) :
    ∀ {total pend : Nat} {h : Hosted W}, total < sizeModulus → I h →
    Bounded ops h → ∃ N r, ∀ fuel ≥ N, ∀ visits ≥ N,
      ControllerSimple.rounds ops visits fuel total pend h = some r := by
  intro total
  induction total using Nat.strongRecOn with
  | ind total ih =>
  intro pend h hlt hI hb
  obtain ⟨N, total', pend', h', hround, hI', hs⟩ :=
    hY.turn pend hlt hI hb.amounts
  have hb' := hs.wanes.bounds (hY.ordered hI') hb
  refine rounds_of_round hround fun ⟨_, hpend⟩ => ?_
  obtain ⟨n, hn, hle, hpos⟩ := hs.counter
  have hlt' := hs.small hlt
  have hfew := hb.few
  have hpending := hs.pending
  have hn0 := hpos hpend
  dsimp only at hn hlt' hpending
  have hmost : n ≤ (2 ^ 31 - 1) * (2 ^ 32 - 1) :=
    Nat.le_trans hle (Nat.mul_le_mul_right _ (by omega))
  by_cases hcovers : n ≤ total
  · have hless : total' = total - n := by
      rw [sizeModulus] at hn hlt hlt'
      omega
    exact ih total' (by omega) hlt' hI' hb'
  · have hwraps : 2 ^ 63 ≤ total' := by
      rw [sizeModulus] at hn hlt hlt'
      omega
    refine hY.last_round hlt' hI' hb'
      (Nat.le_trans ?_ (Nat.le_max_left _ _))
    rw [Nat.le_div_iff_mul_le hpend]
    have hshares : (2 ^ 32 - 1) * pend' ≤ (2 ^ 32 - 1) * (2 ^ 31 - 1) :=
      Nat.mul_le_mul_left _ (by omega)
    omega

/-- So does `transfer`. -/
theorem Yields.transfer (hY : Yields ops I) {elapsed : Nat}
    (hI : I (begun elapsed h)) (hlength : h.ctl.streams.length < 2 ^ 31)
    (hamounts : ∀ node ∈ h.ctl.streams, amount ops h node < 2 ^ 32) :
    ∃ N h', ∀ fuel ≥ N,
      ControllerSimple.transfer ops fuel elapsed h = some h' := by
  by_cases hempty : h.ctl.streams.length = 0
  · refine ⟨0, { h with ctl.sheduled := false }, fun fuel _ => ?_⟩
    rw [transfer_eq, if_pos hempty]
  · by_cases hzero : budget elapsed h.ctl = 0
    · refine ⟨0, { h with ctl := deferTransfer (begun elapsed h).ctl },
        fun fuel _ => ?_⟩
      rw [transfer_eq, if_neg hempty, if_pos hzero]
    · have hb : Bounded ops (begun elapsed h) :=
        ⟨Nat.lt_of_le_of_lt (laden_le_length _) hlength,
          fun node hnode => Nat.le_sub_one_of_lt (hamounts node hnode)⟩
      obtain ⟨N, r, hr⟩ : ∃ N r, ∀ fuel ≥ N, ∀ visits ≥ N,
          ControllerSimple.rounds ops visits fuel (budget elapsed h.ctl)
            h.ctl.streams.length (begun elapsed h) = some r :=
        hY.rounds (budget_lt elapsed h.ctl) hI hb
      refine ⟨N, finish r.1 r.2, fun fuel hfuel => ?_⟩
      rw [transfer_eq, if_neg hempty, if_neg hzero, hr fuel hfuel fuel hfuel]
      rfl

/-- The loop of `transfer` ends for every list of fewer than `2 ^ 31` streams
that hold less than `2 ^ 32` each, and no more in the course of the call, and for
every budget in `size_t`. -/
theorem redistribution_ends {W : Type} {ops : Streams W}
    {I : Hosted W → Prop} (hY : Yields ops I) {h : Hosted W} (hI : I h)
    (hlength : h.ctl.streams.length < 2 ^ 31)
    (hamounts : ∀ node ∈ h.ctl.streams, amount ops h node < 2 ^ 32)
    {total : Nat} (htotal : total < 2 ^ 64) :
    ∃ N r, ∀ fuel ≥ N, ∀ visits ≥ N,
      rounds ops visits fuel total h.ctl.streams.length h = some r := by
  refine hY.rounds htotal hI ⟨?_, fun node hnode => ?_⟩
  · exact Nat.lt_of_le_of_lt (laden_le_length _) hlength
  · exact Nat.le_sub_one_of_lt (hamounts node hnode)

end

end ControllerSimple

namespace PlainStreams

theorem amount_eq (h : Hosted World) (node : Node) :
    ControllerSimple.amount ops h node =
      node.weak.elim 0 fun stream =>
        if (h.world stream).alive then (h.world stream).available else 0 :=
  ControllerSimple.amount_eq ops h node

theorem transfer_le (n : Nat) (s : PlainStream) :
    (s.transfer n).alive = s.alive ∧
      (s.transfer n).available ≤ s.available := by
  unfold PlainStream.transfer
  split
  · exact ⟨rfl, Nat.le_refl _⟩
  · exact ⟨rfl, Nat.sub_le _ _⟩

/-- A plain stream gives up what it is asked for, or ignores it. -/
theorem yields : ControllerSimple.Yields ops fun h =>
    ControllerSimple.Ordered h.ctl.streams where
  ordered := id
  erase := fun hord _ _ => hord.sublist List.filter_sublist
  serve := by
    intro h node stream n total hord _ _ _ _
    refine ⟨_, rfl, ?_, fun node' hnode' _ => ?_, fun a ha => ?_⟩
    · simpa using hord
    · simp only [ControllerSimple.record_streams] at hnode'
      refine ⟨node', hnode', rfl, ?_⟩
      rw [amount_eq, amount_eq]
      cases node'.weak with
      | none => exact Nat.le_refl _
      | some stream' =>
          simp only [Option.elim_some]
          by_cases heq : stream' = stream
          · subst heq
            obtain ⟨halive, hle⟩ := transfer_le n (h.world stream')
            rw [Function.update_self, halive]
            split
            · exact hle
            · exact Nat.le_refl _
          · exact Nat.le_of_eq (by rw [Function.update_of_ne heq])
    · exact ⟨a, by simpa using ha, rfl⟩

/-- A stream with five bytes, one that is gone, and a stopped one with seven, for
a budget of three. -/
theorem redistribution_ends_stopped : ∃ h : Hosted World,
    h.ctl.streams = [⟨0, some 0⟩, ⟨1, some 1⟩, ⟨2, some 2⟩] ∧
      (h.world 2).stopped = true ∧
      ∃ N r, ∀ fuel ≥ N, ∀ visits ≥ N,
        ControllerSimple.rounds ops visits fuel 3 3 h = some r := by
  let h : Hosted World :=
    { ctl :=
        { limit := 0, streams := [⟨0, some 0⟩, ⟨1, some 1⟩, ⟨2, some 2⟩] }
      world := fun stream =>
        if stream = 0 then { available := 5 }
        else if stream = 1 then { available := 6, alive := false }
        else { available := 7, stopped := true } }
  have hord : ControllerSimple.Ordered h.ctl.streams := by
    simp [h, ControllerSimple.Ordered]
  exact ⟨h, rfl, rfl, ControllerSimple.redistribution_ends yields hord
    (by decide) (by decide) (by decide)⟩

end PlainStreams

end EcwidDownloader
