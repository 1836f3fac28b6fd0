import EcwidDownloader.Lib.Shares
import EcwidDownloader.Proofs.RoundsEnd

/-!
# A tick as sharing

What the streams of the list hold is a stock, and a round of `transfer` is a
round of sharing it out: `KeepsOrder.round`. The share of a round is the budget
divided by the streams counted as pending, which in the first round are all nodes
of the list. Once the share is down to one byte the round asks for as many bytes
as there are pending streams, and if that is more than is left, the counter
wraps. So a tick asks for no more than its budget exactly if the budget is
`Shareable`.

The streams may do anything else when they are asked, with one condition on the
calls of the tick: `GivesAsked`, a call takes out of the stock what it asks for,
or nothing where the stream is stopped, and changes nothing else about the
stock.
-/

namespace EcwidDownloader

open Lib

namespace ControllerSimple

section

variable {W : Type} (ops : Streams W) (stopped : Nat → W → Bool)

/-- What the stream of a node holds, if it holds something. -/
def holding (h : Hosted W) (node : Node) : Option (Nat × Holder) :=
  ((lock ops node h).map fun stream =>
    (stream,
      { amount := ops.available stream h.world
        keeps := stopped stream h.world })).filter fun e => 0 < e.2.amount

/-- What the streams of the list hold, in the order of the list. -/
def stock (h : Hosted W) : List (Nat × Holder) :=
  h.ctl.streams.filterMap (holding ops stopped h)

def holders (h : Hosted W) : List Holder :=
  (stock ops stopped h).map Prod.snd

/-- What is left of a stock of which one stream was asked for `n` bytes. -/
def drawn (stream n : Nat) (xs : List (Nat × Holder)) : List (Nat × Holder) :=
  (xs.map fun e => if e.1 = stream then (e.1, e.2.left n) else e).filter
    fun e => 0 < e.2.amount

/-- A call that takes what it asks for out of the stock, unless the stream is
stopped, and does nothing else to it. -/
def GivesAsked (stream n : Nat) (h : Hosted W) : Prop :=
  ∀ h' ∈ ops.transfer stream n h,
    stock ops stopped h' = drawn stream n (stock ops stopped h)

instance (stream n : Nat) (h : Hosted W) :
    Decidable (GivesAsked ops stopped stream n h) :=
  inferInstanceAs (Decidable (∀ h' ∈ ops.transfer stream n h, _))

/-- All calls of a list give. -/
def AllGive (l : List (Ask W)) : Prop :=
  ∀ a ∈ l, GivesAsked ops stopped a.stream a.length a.host

instance (l : List (Ask W)) : Decidable (AllGive ops stopped l) :=
  inferInstanceAs (Decidable (∀ a ∈ l, _))

end

section

variable {W : Type} {ops : Streams W} {stopped : Nat → W → Bool}
  {h h' : Hosted W} {node : Node} {e : Nat × Holder}

/-! ## The stock -/

theorem holding_eq_some (he : holding ops stopped h node = some e) :
    lock ops node h = some e.1 ∧ node.weak = some e.1 ∧
      e.2 = { amount := ops.available e.1 h.world
              keeps := stopped e.1 h.world } ∧ 0 < e.2.amount := by
  obtain ⟨hmap, hpos⟩ := Option.filter_eq_some_iff.mp he
  obtain ⟨stream, hl, rfl⟩ := Option.map_eq_some_iff.mp hmap
  exact ⟨hl, (Option.filter_eq_some_iff.mp hl).1, rfl, by simpa using hpos⟩

theorem holding_of_lock {stream : Nat} (hl : lock ops node h = some stream) :
    holding ops stopped h node =
      if 0 < ops.available stream h.world then
        some (stream,
          { amount := ops.available stream h.world
            keeps := stopped stream h.world })
      else none := by
  unfold holding
  rw [hl, Option.map_some]
  split
  · next hpos => exact Option.filter_some_pos (by simpa using hpos)
  · next hpos => exact Option.filter_some_neg (by simpa using hpos)

/-- A node that is gone or empty is not in the stock. -/
theorem holding_of_not_lock (hl : lock ops node h = none) :
    holding ops stopped h node = none := by
  rw [holding, hl]
  rfl

/-- What stands in the stock does so under the identity of its node. -/
theorem mem_stock (hown : ∀ node ∈ h.ctl.streams, ∀ stream,
      node.weak = some stream → stream = node.id)
    (he : e ∈ stock ops stopped h) :
    ∃ node ∈ h.ctl.streams, node.id = e.1 ∧
      holding ops stopped h node = some e := by
  obtain ⟨node, hnode, hholding⟩ := List.mem_filterMap.mp he
  exact ⟨node, hnode,
    (hown node hnode e.1 (holding_eq_some hholding).2.1).symm, hholding⟩

theorem stock_pos (he : e ∈ stock ops stopped h) : 0 < e.2.amount := by
  obtain ⟨node, -, hholding⟩ := List.mem_filterMap.mp he
  exact (holding_eq_some hholding).2.2.2

/-- The stock stands in the order of the list. -/
theorem stock_sorted (ho : Ordered h.ctl.streams)
    (hown : ∀ node ∈ h.ctl.streams, ∀ stream, node.weak = some stream →
      stream = node.id) :
    (stock ops stopped h).Pairwise fun a b => a.1 < b.1 := by
  refine List.pairwise_filterMap.mpr (ho.imp_of_mem ?_)
  intro a b ha hb hlt x hx y hy
  have hxa := hown a ha x.1 (holding_eq_some hx).2.1
  have hyb := hown b hb y.1 (holding_eq_some hy).2.1
  omega

/-- A node with nothing in the stock can be taken out of the list. -/
theorem stock_erase (ho : Ordered h.ctl.streams)
    (hnode : node ∈ h.ctl.streams) (hl : lock ops node h = none) :
    stock ops stopped
      { h with ctl.streams := erase node.id h.ctl.streams } =
      stock ops stopped h := by
  obtain ⟨pre, suf, hstreams⟩ := List.append_of_mem hnode
  have hnone : holding ops stopped h node = none := holding_of_not_lock hl
  rw [hstreams] at ho
  unfold stock
  rw [hstreams, ho.erase, List.filterMap_append, List.filterMap_append,
    List.filterMap_cons_none hnone]
  rfl

/-- The stock knows nothing of the record. -/
theorem stock_record (x : Handed) :
    stock ops stopped { h with ctl := record x h.ctl } =
      stock ops stopped h := by
  unfold stock
  rw [record_streams]
  rfl

/-! ## A round -/

/-- Streams for which the loops keep `I`, which has the nodes of the list in
order, each for the stream of its number. -/
structure KeepsOrder (ops : Streams W) (I : Hosted W → Prop) : Prop where
  serves : Serves ops I fun _ _ _ => True
  ordered : ∀ {h}, I h → Ordered h.ctl.streams
  own : ∀ {h}, I h → ∀ node ∈ h.ctl.streams, ∀ stream,
    node.weak = some stream → stream = node.id

theorem Yields.keeps {I : Hosted W → Prop} (hY : Yields ops I)
    (hown : ∀ {h}, I h → ∀ node ∈ h.ctl.streams, ∀ stream,
      node.weak = some stream → stream = node.id) : KeepsOrder ops I where
  serves :=
    { refl := fun _ => trivial
      trans := fun _ _ => trivial
      erase := fun hI hnode hl => ⟨hY.erase hI hnode hl, trivial⟩
      serve := by
        intro h h' node stream total n hI hnode hl hn hle ht
        obtain ⟨h₁, ht₁, hI₁, -⟩ := hY.serve total hI hnode hl hn hle
        rw [ht] at ht₁
        cases ht₁
        exact ⟨hI₁, trivial⟩ }
  ordered := hY.ordered
  own := hown

/-- The iterator has not passed the node `i`. -/
def NotPassed (it : Option Nat) (i : Nat) : Prop := ∃ k, it = some k ∧ k ≤ i

/-- A part of the stock after a round with the share `c`. -/
def swept (c : Nat) (xs : List (Nat × Holder)) : List (Nat × Holder) :=
  (xs.map fun e => (e.1, e.2.left c)).filter fun e => 0 < e.2.amount

theorem swept_cons (c : Nat) (e : Nat × Holder) (xs : List (Nat × Holder)) :
    swept c (e :: xs) = swept c [e] ++ swept c xs := by
  simp only [swept, List.map_cons, List.map_nil, List.filter_cons,
    List.filter_nil]
  split <;> rfl

theorem swept_holders (c : Nat) (xs : List (Nat × Holder)) :
    (swept c xs).map Prod.snd =
      stocked ((xs.map Prod.snd).map (Holder.left c)) := by
  induction xs with
  | nil => rfl
  | cons e xs ih =>
      rw [swept_cons, List.map_append, ih, List.map_cons, List.map_cons,
        stocked_cons]
      simp only [swept, List.map_cons, List.map_nil, List.filter_cons,
        List.filter_nil, decide_eq_true_eq]
      split <;> rfl

/-- A call that takes from every node what it is to give. -/
theorem stock_drawn {stream n : Nat}
    (hstreams : h'.ctl.streams = h.ctl.streams)
    (hholding : ∀ node ∈ h.ctl.streams, holding ops stopped h' node =
      ((holding ops stopped h node).map fun e =>
        if e.1 = stream then (e.1, e.2.left n) else e).filter
          fun e => 0 < e.2.amount) :
    stock ops stopped h' = drawn stream n (stock ops stopped h) := by
  unfold stock drawn
  rw [hstreams, List.map_filterMap, List.filter_filterMap]
  exact List.filterMap_congr hholding

/-- A draw of the share of an entry touches no other entry. -/
theorem drawn_append {c n : Nat} {A B : List (Nat × Holder)}
    {e : Nat × Holder} (hn : n = min e.2.amount c)
    (hA : ∀ a ∈ A, a.1 ≠ e.1 ∧ 0 < a.2.amount)
    (hB : ∀ b ∈ B, b.1 ≠ e.1 ∧ 0 < b.2.amount) :
    drawn e.1 n (A ++ e :: B) = A ++ swept c [e] ++ B := by
  have hrest : ∀ xs : List (Nat × Holder),
      (∀ a ∈ xs, a.1 ≠ e.1 ∧ 0 < a.2.amount) → drawn e.1 n xs = xs := by
    intro xs hxs
    have hmap : xs.map (fun a => if a.1 = e.1 then (a.1, a.2.left n) else a) =
        xs := by
      refine (List.map_congr_left fun a ha => ?_).trans (List.map_id xs)
      exact if_neg (hxs a ha).1
    unfold drawn
    rw [hmap]
    exact List.filter_eq_self.mpr fun a ha => by simpa using (hxs a ha).2
  have hleft : e.2.left n = e.2.left c := by
    unfold Holder.left
    split
    · rfl
    · congr 1
      omega
  have hself : drawn e.1 n [e] = swept c [e] := by
    simp only [drawn, swept, List.map_cons, List.map_nil, if_true, hleft]
  have happend : ∀ xs ys, drawn e.1 n (xs ++ ys) =
      drawn e.1 n xs ++ drawn e.1 n ys := by
    intro xs ys
    simp only [drawn, List.map_append, List.filter_append]
  rw [show A ++ e :: B = A ++ [e] ++ B by simp, happend, happend, hself,
    hrest A hA, hrest B hB]

variable {I : Hosted W → Prop} {c fuel total pend : Nat}

theorem KeepsOrder.stock_sorted (hK : KeepsOrder ops I) (hI : I h) :
    (stock ops stopped h).Pairwise fun a b => a.1 < b.1 :=
  ControllerSimple.stock_sorted (hK.ordered hI) (hK.own hI)

/-- Behind a node the loop goes on with what comes behind it in the stock. -/
theorem KeepsOrder.passes (hK : KeepsOrder ops I) (hI : I h)
    (hnode : node ∈ h.ctl.streams) {A B : List (Nat × Holder)}
    (hstock : stock ops stopped h = A ++ B) (hA : ∀ a ∈ A, a.1 ≤ node.id)
    (hB : ∀ b ∈ B, node.id < b.1) :
    (∀ a ∈ A, ¬ NotPassed (next node.id h.ctl.streams) a.1) ∧
      ∀ b ∈ B, NotPassed (next node.id h.ctl.streams) b.1 := by
  have ho := hK.ordered hI
  constructor
  · rintro a ha ⟨k, hk, hle⟩
    obtain ⟨pre, suf, hstreams⟩ := List.append_of_mem hnode
    rw [hstreams] at ho hk
    rw [ho.next] at hk
    obtain ⟨b, hb, rfl⟩ : ∃ b ∈ suf, b.id = k := by
      cases suf with
      | nil => cases hk
      | cons b suf => exact ⟨b, List.mem_cons_self, Option.some.inj hk⟩
    have hlt := (List.pairwise_cons.mp
      (List.pairwise_append.mp ho).2.1).1 b hb
    have := hA a ha
    omega
  · intro b hb
    obtain ⟨m, hm, hid, -⟩ := mem_stock (hK.own hI)
      (hstock ▸ List.mem_append_right A hb)
    have hlt := hB b hb
    obtain ⟨k, hk, hkle⟩ := ho.next_le hnode hm (by omega)
    exact ⟨k, hk, by omega⟩

/-- A stream that has something stands in the stock, as the first of the part
that is to come. -/
theorem KeepsOrder.entry (hK : KeepsOrder ops I) (hI : I h) {stream : Nat}
    (hnode : node ∈ h.ctl.streams) (hl : lock ops node h = some stream)
    (hpos : 0 < ops.available stream h.world) {A B : List (Nat × Holder)}
    (hstock : stock ops stopped h = A ++ B) (hA : ∀ a ∈ A, a.1 < node.id)
    (hB : ∀ b ∈ B, node.id ≤ b.1) :
    ∃ e B', B = e :: B' ∧ e.1 = stream ∧ e.1 = node.id ∧
      e.2.amount = ops.available stream h.world ∧ ∀ b ∈ B', node.id < b.1 := by
  obtain rfl := hK.own hI node hnode stream
    (Option.filter_eq_some_iff.mp hl).1
  have hentry : holding ops stopped h node = _ := holding_of_lock hl
  rw [if_pos hpos] at hentry
  have hmem := List.mem_filterMap.mpr ⟨node, hnode, hentry⟩
  change _ ∈ stock ops stopped h at hmem
  have hsorted : (stock ops stopped h).Pairwise fun a b => a.1 < b.1 :=
    hK.stock_sorted hI
  rw [hstock] at hmem hsorted
  have hsortedB := (List.pairwise_append.mp hsorted).2.1
  rcases List.mem_append.mp hmem with hmem | hmem
  · exact absurd (hA _ hmem) (Nat.lt_irrefl _)
  · cases B with
    | nil => cases hmem
    | cons b B' =>
        obtain ⟨hbehind, -⟩ := List.pairwise_cons.mp hsortedB
        rcases List.mem_cons.mp hmem with rfl | hmem
        · exact ⟨_, B', rfl, rfl, rfl, rfl, hbehind⟩
        · have hlt := hbehind _ hmem
          have hle := hB b List.mem_cons_self
          dsimp only at hlt
          omega

/-- What a stretch of a round does that has the part `A` of the stock behind it
and the part `B` before it: each holder of `B` is asked for its share. The
induction is on the fuel, since the handlers change the list. -/
theorem KeepsOrder.stretch (hK : KeepsOrder ops I) (hc : 0 < c)
    {it : Option Nat} {A B : List (Nat × Holder)} {r : Nat × Nat × Hosted W}
    (hI : I h) (hstock : stock ops stopped h = A ++ B)
    (hA : ∀ a ∈ A, ¬ NotPassed it a.1) (hB : ∀ b ∈ B, NotPassed it b.1)
    (hgive : AllGive ops stopped (roundAsks ops c fuel it total pend h))
    (hr : ControllerSimple.round ops c fuel it total pend h = some r) :
    I r.2.2 ∧ stock ops stopped r.2.2 = A ++ swept c B ∧
      asked (roundAsks ops c fuel it total pend h) =
        shared c (B.map Prod.snd) ∧
      r.2.1 = pend + pending c (B.map Prod.snd) := by
  induction fuel generalizing it total pend h A B with
  | zero => cases hr
  | succ fuel ih =>
  cases it with
  | none =>
      cases hr
      have hempty : B = [] := by
        refine List.eq_nil_iff_forall_not_mem.mpr fun b hb => ?_
        obtain ⟨k, hk, -⟩ := hB b hb
        cases hk
      subst hempty
      exact ⟨hI, hstock, rfl, rfl⟩
  | some it =>
  obtain ⟨node, rfl, hfind, hcases⟩ := round_cases hr
  have hnode := (node_of_find hfind).1
  have hbefore : ∀ a ∈ A, a.1 < node.id := fun a ha =>
    Nat.lt_of_not_le fun hle => hA a ha ⟨node.id, rfl, hle⟩
  have hcomes : ∀ b ∈ B, node.id ≤ b.1 := by
    intro b hb
    obtain ⟨k, hk, hle⟩ := hB b hb
    cases hk
    exact hle
  -- A node with nothing in the stock is passed, and the parts stay.
  have hpass : holding ops stopped h node = none →
      (∀ a ∈ A, ¬ NotPassed (ControllerSimple.next node.id h.ctl.streams) a.1) ∧
        ∀ b ∈ B,
          NotPassed (ControllerSimple.next node.id h.ctl.streams) b.1 := by
    intro hnone
    refine hK.passes hI hnode hstock (fun a ha => Nat.le_of_lt (hbefore a ha))
      fun b hb => Nat.lt_of_le_of_ne (hcomes b hb) fun hid => ?_
    obtain ⟨m, hm, hmid, hholding⟩ := mem_stock (hK.own hI)
      (hstock ▸ List.mem_append_right A hb)
    rw [node_unique (hK.ordered hI) hm hnode (hmid.trans hid.symm), hnone]
      at hholding
    cases hholding
  rcases hcases with ⟨hl, hrest⟩ | ⟨stream, r₁, hl, hv, hrest⟩
  · rw [roundAsks_expired hfind hl] at hgive ⊢
    obtain ⟨hA', hB'⟩ := hpass (holding_of_not_lock hl)
    exact ih (hK.serves.erase hI hnode hl).1
      ((stock_erase (hK.ordered hI) hnode hl).trans hstock) hA' hB' hgive hrest
  · rw [roundAsks_visited hfind hl hv] at hgive ⊢
    rcases visit_cases hv with
      ⟨hz, rfl, hasks⟩ | ⟨n, h', hn, hpos, ht, rfl, hasks⟩
    · rw [hasks, List.nil_append] at hgive ⊢
      obtain ⟨hA', hB'⟩ := hpass (by
        rw [holding_of_lock hl, if_neg (by omega)])
      exact ih hI hstock hA' hB' hgive hrest
    · rw [hasks] at hgive ⊢
      obtain ⟨e, B', rfl, rfl, hid, hamount, hbehind⟩ :=
        hK.entry hI hnode hl (by omega) hstock hbefore hcomes
      have hpositive : ∀ a ∈ A ++ e :: B', 0 < a.2.amount := fun a ha =>
        stock_pos (hstock ▸ ha)
      have hstock' : stock ops stopped h' = A ++ swept c [e] ++ B' := by
        have hgives := hgive _ (List.mem_append_left _ List.mem_cons_self) h' ht
        simp only [ask] at hgives
        rw [stock_record, hstock, drawn_append (c := c) (by omega)] at hgives
        · exact hgives
        · intro a ha
          have hlt := hbefore a ha
          exact ⟨by omega, hpositive a (List.mem_append_left _ ha)⟩
        · intro b hb
          have hlt := hbehind b hb
          exact ⟨by omega, hpositive b
            (List.mem_append_right _ (List.mem_cons_of_mem _ hb))⟩
      obtain ⟨hA', hB'⟩ := hK.passes hI hnode (A := A ++ [e]) (B := B')
        (by rw [hstock, List.append_assoc, List.singleton_append])
        (fun a ha => by
          rcases List.mem_append.mp ha with ha | ha
          · exact Nat.le_of_lt (hbefore a ha)
          · rw [List.mem_singleton.mp ha]
            exact Nat.le_of_eq hid)
        hbehind
      obtain ⟨hI', hstock'', hasked, hpend⟩ := ih
        (hK.serves.serve hI hnode hl hpos (by omega) ht).1 hstock'
        (fun a ha => by
          rcases List.mem_append.mp ha with ha | ha
          · exact hA' a (List.mem_append_left _ ha)
          · obtain ⟨x, hx, rfl⟩ := List.mem_map.mp (List.mem_filter.mp ha).1
            rw [List.mem_singleton.mp hx]
            exact hA' e (List.mem_append_right _ List.mem_cons_self))
        hB' (fun a ha => hgive a (List.mem_append_right _ ha)) hrest
      refine ⟨hI', ?_, ?_, ?_⟩
      · rw [hstock'', swept_cons c e B', List.append_assoc]
      · rw [asked_append, hasked, List.map_cons, shared_cons]
        simp only [ask, asked_cons, asked_nil]
        omega
      · rw [hpend, List.map_cons, pending_cons]
        dsimp only
        split <;> split <;> omega

/-- A round over the whole list is a round of sharing among its streams. -/
theorem KeepsOrder.round (hK : KeepsOrder ops I) (hc : 0 < c)
    {r : Nat × Nat × Hosted W} (hI : I h)
    (hgive : AllGive ops stopped
      (roundAsks ops c fuel (first h.ctl.streams) total 0 h))
    (hr : ControllerSimple.round ops c fuel (first h.ctl.streams) total 0 h =
      some r) :
    I r.2.2 ∧ holders ops stopped r.2.2 =
        stocked ((holders ops stopped h).map (Holder.left c)) ∧
      asked (roundAsks ops c fuel (first h.ctl.streams) total 0 h) =
        shared c (holders ops stopped h) ∧
      r.2.1 = pending c (holders ops stopped h) := by
  have hcomes : ∀ b ∈ stock ops stopped h,
      NotPassed (first h.ctl.streams) b.1 := by
    intro b hb
    obtain ⟨m, hm, hid, -⟩ := mem_stock (hK.own hI) hb
    exact hid ▸ (hK.ordered hI).first_le hm
  obtain ⟨hI', hstock, hasked, hpend⟩ := hK.stretch hc (A := [])
    (B := stock ops stopped h) hI rfl
    (fun _ ha => absurd ha List.not_mem_nil) hcomes hgive hr
  refine ⟨hI', ?_, hasked, ?_⟩
  · unfold holders
    rw [hstock, List.nil_append, swept_holders]
  · rw [hpend, Nat.zero_add]
    rfl

end

/-! ## The rounds of a tick -/

section

variable {W : Type} {ops : Streams W} {stopped : Nat → W → Bool}
  {I : Hosted W → Prop} {h : Hosted W} {visits fuel total pend : Nat}

/-- The rounds keep the streams, and what streams that are not stopped give up is
what they are asked for. -/
theorem KeepsOrder.rounds_held (hK : KeepsOrder ops I) {r : Nat × Hosted W}
    (hI : I h)
    (hgive : AllGive ops stopped (roundsAsks ops visits fuel total pend h))
    (hw : Willing (holders ops stopped h))
    (hr : rounds ops visits fuel total pend h = some r) :
    held (holders ops stopped r.2) +
        asked (roundsAsks ops visits fuel total pend h) =
      held (holders ops stopped h) := by
  induction fuel generalizing total pend h with
  | zero => cases hr
  | succ fuel ih =>
      obtain ⟨total₁, pend₁, h₁, hround, hcases⟩ := rounds_cases hr
      rw [roundsAsks_cases hround] at hgive ⊢
      obtain ⟨hI₁, hholders, hasked, -⟩ := hK.round (by omega) hI
        (fun a ha => hgive a (List.mem_append_left _ ha)) hround
      have hheld := hw.held_left (c := max (total / pend) 1)
      rw [← held_stocked, ← hholders, ← hasked] at hheld
      rcases hcases with ⟨hmore, hrest⟩ | ⟨hdone, rfl⟩
      · rw [if_pos hmore] at hgive ⊢
        have hw₁ : Willing (holders ops stopped h₁) := by
          rw [hholders, willing_stocked]
          exact hw.left
        have hsum := ih hI₁ (fun a ha => hgive a (List.mem_append_right _ ha))
          hw₁ hrest
        rw [asked_append]
        dsimp only at hheld hsum ⊢
        omega
      · rw [if_neg hdone, List.append_nil]
        exact hheld

/-- What the rounds of a tick ask for, where the counter is shareable, and what
it says of the counter that they stay within it. The induction is on the rounds
still to come. -/
theorem KeepsOrder.rounds_shared (hK : KeepsOrder ops I) {r : Nat × Hosted W}
    (hI : I h) (hpos : 0 < total) (hlt : total < sizeModulus)
    (hgive : AllGive ops stopped (roundsAsks ops visits fuel total pend h))
    (hr : rounds ops visits fuel total pend h = some r) :
    (Shareable total (holders ops stopped h) →
        pending 0 (holders ops stopped h) ≤ pend →
        asked (roundsAsks ops visits fuel total pend h) ≤ total) ∧
      (Willing (holders ops stopped h) →
        asked (roundsAsks ops visits fuel total pend h) ≤ total →
        Shareable total (holders ops stopped h)) := by
  induction fuel generalizing total pend h with
  | zero => cases hr
  | succ fuel ih =>
      obtain ⟨total₁, pend₁, h₁, hround, hcases⟩ := rounds_cases hr
      have hcount := round_counted (share_lt pend hlt) hround
      rw [roundsAsks_cases hround] at hgive ⊢
      obtain ⟨hI₁, hholders, hasked, hpend⟩ := hK.round (by omega) hI
        (fun a ha => hgive a (List.mem_append_left _ ha)) hround
      dsimp only at hI₁ hholders hpend hcount
      rw [asked_append]
      have hleft := hcount.left hlt
      rw [hasked] at hleft ⊢
      rcases hcases with ⟨hmore, hrest⟩ | ⟨hdone, rfl⟩
      · rw [if_pos hmore] at hgive ⊢
        obtain ⟨hfits, honly⟩ := ih hI₁ hmore.1 (hcount.small hlt)
          (fun a ha => hgive a (List.mem_append_right _ ha)) hrest
        rw [hholders, shareable_stocked] at hfits honly
        rw [pending_stocked] at hfits
        rw [willing_stocked] at honly
        constructor
        · intro hs hp
          have hfit := hs.fits hpos hp
          have htotal := hleft hfit
          have hrest := hs.left hpos hp
          rw [← htotal] at hrest
          have hpending : pending 0 ((holders ops stopped h).map
              (Holder.left (max (total / pend) 1))) ≤ pend₁ := by
            rw [hpend]
            refine hs.pending_left ?_
            omega
          have hsum := hfits hrest hpending
          omega
        · intro hw hsum
          have hfit : shared (max (total / pend) 1)
              (holders ops stopped h) ≤ total := by omega
          have htotal := hleft hfit
          refine Shareable.of_left hw hfit ?_
          rw [← htotal]
          exact honly hw.left (by omega)
      · rw [if_neg hdone, asked_nil, Nat.add_zero]
        refine ⟨fun hs hp => hs.fits hpos hp, fun hw hsum => ?_⟩
        by_cases hzero : pend₁ = 0
        · exact shareable_of_pending_eq_zero hw (hpend.symm.trans hzero) hsum
        · have htotal := hleft hsum
          exact shareable_of_shared_eq hw (c := max (total / pend) 1)
            (by omega)

/-! ## A tick -/

theorem budget_eq {elapsed : Nat} {c : ControllerSimple}
    (hlt : c.limit * elapsed < sizeModulus) :
    budget elapsed c = c.limit * elapsed / 1000 := by
  unfold budget
  rw [Nat.mod_eq_of_lt hlt]

theorem pending_le_length (h : Hosted W) :
    pending 0 (holders ops stopped h) ≤ h.ctl.streams.length := by
  refine Nat.le_trans List.countP_le_length ?_
  unfold holders stock
  rw [List.length_map]
  exact List.length_filterMap_le _ _

theorem holders_begun (elapsed : Nat) (h : Hosted W) :
    holders ops stopped (begun elapsed h) = holders ops stopped h := rfl

/-- A tick whose budget can be shared asks for no more than that; and where
nobody is stopped a tick that asks for no more than its budget has one that can
be shared. -/
theorem KeepsOrder.transfer_shared (hK : KeepsOrder ops I) {elapsed : Nat}
    {h' : Hosted W} (hI : I (begun elapsed h))
    (hgive : AllGive ops stopped (asks ops fuel elapsed h))
    (ht : transfer ops fuel elapsed h = some h') :
    (Shareable (budget elapsed h.ctl) (holders ops stopped h) →
        asked (asks ops fuel elapsed h) ≤ budget elapsed h.ctl) ∧
      (Willing (holders ops stopped h) →
        asked (asks ops fuel elapsed h) ≤ budget elapsed h.ctl →
        Shareable (budget elapsed h.ctl) (holders ops stopped h)) := by
  rw [transfer_eq] at ht
  by_cases hempty : h.ctl.streams.length = 0
  · have hasks : asks ops fuel elapsed h = [] := if_pos (.inl hempty)
    have hnone : holders ops stopped h = [] := by
      rw [holders, stock, List.length_eq_zero_iff.mp hempty]
      rfl
    rw [hasks, hnone]
    exact ⟨fun _ => Nat.zero_le _, fun hw _ => .inl ⟨hw, Nat.zero_le _⟩⟩
  · by_cases hzero : budget elapsed h.ctl = 0
    · have hasks : asks ops fuel elapsed h = [] := if_pos (.inr hzero)
      rw [hasks, hzero]
      exact ⟨fun _ => Nat.le_refl _, fun _ _ => shareable_zero⟩
    · rw [if_neg hempty, if_neg hzero] at ht
      obtain ⟨r, hrounds, -⟩ := Option.map_eq_some_iff.mp ht
      have hasks : asks ops fuel elapsed h = roundsAsks ops fuel fuel
          (budget elapsed h.ctl) h.ctl.streams.length (begun elapsed h) :=
        if_neg (by simp [hempty, hzero])
      rw [hasks] at hgive ⊢
      obtain ⟨hfits, honly⟩ := hK.rounds_shared hI (Nat.pos_of_ne_zero hzero)
        (budget_lt _ _) hgive hrounds
      rw [holders_begun] at hfits honly
      exact ⟨fun hs => hfits hs (pending_le_length h), honly⟩

end

/-! ## The rounds come to an end -/

section

variable {W : Type} {ops : Streams W} {stopped : Nat → W → Bool}
  {I : Hosted W → Prop} {h h' : Hosted W} {total pend : Nat}

/-- A round behind which the rounds go on. -/
theorem KeepsOrder.turn (hK : KeepsOrder ops I) {N total' pend' : Nat}
    (hI : I h) (hlt : total < sizeModulus)
    (hgive : ∀ fuel, AllGive ops stopped
      (roundsAsks ops fuel fuel total pend h))
    (hround : ∀ visits ≥ N, ControllerSimple.round ops (max (total / pend) 1)
      visits (first h.ctl.streams) total 0 h = some (total', pend', h'))
    (hmore : 0 < total' ∧ 0 < pend') :
    holders ops stopped h' = stocked ((holders ops stopped h).map
        (Holder.left (max (total / pend) 1))) ∧
      (shared (max (total / pend) 1) (holders ops stopped h) ≤ total →
        total' =
          total - shared (max (total / pend) 1) (holders ops stopped h)) ∧
      pend' = pending (max (total / pend) 1) (holders ops stopped h) ∧
      ∀ fuel, AllGive ops stopped
        (roundsAsks ops fuel fuel total' pend' h') := by
  have hall : ∀ fuel, AllGive ops stopped
      (roundAsks ops (max (total / pend) 1) (max N fuel + 1)
          (first h.ctl.streams) total 0 h ++
        roundsAsks ops (max N fuel + 1) (max N fuel) total' pend' h') := by
    intro fuel
    have hfuel := hgive (max N fuel + 1)
    rw [roundsAsks_cases (hround _ (by omega)), if_pos hmore] at hfuel
    exact hfuel
  obtain ⟨-, hholders, hasked, hpend⟩ := hK.round (by omega) hI
    (fun a ha => hall N a (List.mem_append_left _ ha)) (hround _ (by omega))
  have hcount := round_counted (share_lt pend hlt)
    (hround (max N N + 1) (by omega))
  have hleft := hcount.left hlt
  rw [hasked] at hleft
  refine ⟨hholders, hleft, hpend, fun fuel a ha => ?_⟩
  exact hall fuel a (List.mem_append_right _
    (roundsAsks_mono (by omega) (by omega) ha))

/-- Streams that are not stopped are empty some day, whatever the counter
says. -/
theorem KeepsOrder.rounds_end_of_willing (hK : KeepsOrder ops I)
    (hY : Yields ops I) (hI : I h) (hpos : 0 < total)
    (hlt : total < sizeModulus)
    (hgive : ∀ fuel, AllGive ops stopped
      (roundsAsks ops fuel fuel total pend h))
    (hw : Willing (holders ops stopped h)) :
    ∃ N r, ∀ fuel ≥ N, ∀ visits ≥ N,
      rounds ops visits fuel total pend h = some r := by
  refine hY.rounds_of_measure
    (fun total pend h => Willing (holders ops stopped h) ∧
      ∀ fuel, AllGive ops stopped (roundsAsks ops fuel fuel total pend h))
    (fun _ h => held (holders ops stopped h)) ?_ hI hpos hlt ⟨hw, hgive⟩
  rintro N total pend h total' pend' h' ⟨hw, hgive⟩ hI - hlt hround hmore
  obtain ⟨hholders, -, hpend, hgive'⟩ := hK.turn hI hlt hgive hround hmore
  rw [hholders, willing_stocked, held_stocked]
  refine ⟨⟨hw.left, hgive'⟩, ?_⟩
  have hheld := hw.held_left (c := max (total / pend) 1)
  have hsome : pending (max (total / pend) 1) (holders ops stopped h) ≤
      shared (max (total / pend) 1) (holders ops stopped h) :=
    pending_le_shared (by omega)
  omega

/-- A shareable counter is used up some day. -/
theorem KeepsOrder.rounds_end_of_shareable (hK : KeepsOrder ops I)
    (hY : Yields ops I) (hI : I h) (hpos : 0 < total)
    (hlt : total < sizeModulus)
    (hgive : ∀ fuel, AllGive ops stopped
      (roundsAsks ops fuel fuel total pend h))
    (hs : Shareable total (holders ops stopped h))
    (hp : pending 0 (holders ops stopped h) ≤ pend) :
    ∃ N r, ∀ fuel ≥ N, ∀ visits ≥ N,
      rounds ops visits fuel total pend h = some r := by
  refine hY.rounds_of_measure
    (fun total pend h => (Shareable total (holders ops stopped h) ∧
      pending 0 (holders ops stopped h) ≤ pend) ∧
      ∀ fuel, AllGive ops stopped (roundsAsks ops fuel fuel total pend h))
    (fun total _ => total) ?_ hI hpos hlt ⟨⟨hs, hp⟩, hgive⟩
  rintro N total pend h total' pend' h' ⟨⟨hs, hp⟩, hgive⟩ hI hpos hlt hround
    hmore
  obtain ⟨hholders, hleft, hpend, hgive'⟩ := hK.turn hI hlt hgive hround hmore
  have htotal := hleft (hs.fits hpos hp)
  have hsome : pending (max (total / pend) 1) (holders ops stopped h) ≤
      shared (max (total / pend) 1) (holders ops stopped h) :=
    pending_le_shared (by omega)
  rw [hholders, shareable_stocked, pending_stocked]
  refine ⟨⟨⟨?_, ?_⟩, hgive'⟩, by omega⟩
  · rw [htotal]
    exact hs.left hpos hp
  · rw [hpend]
    exact hs.pending_left (by omega)

/-- A tick comes to an end, if its budget can be shared or nobody is stopped. -/
theorem KeepsOrder.transfer_ends (hK : KeepsOrder ops I) (hY : Yields ops I)
    {elapsed : Nat} (hI : I (begun elapsed h))
    (hgive : ∀ fuel, AllGive ops stopped (asks ops fuel elapsed h))
    (hs : Shareable (budget elapsed h.ctl) (holders ops stopped h) ∨
      Willing (holders ops stopped h)) :
    ∃ N h', ∀ fuel ≥ N, transfer ops fuel elapsed h = some h' := by
  by_cases hempty : h.ctl.streams.length = 0
  · exact ⟨0, _, fun fuel _ => by rw [transfer_eq, if_pos hempty]⟩
  by_cases hzero : budget elapsed h.ctl = 0
  · exact ⟨0, _, fun fuel _ => by
      rw [transfer_eq, if_neg hempty, if_pos hzero]⟩
  have hgive' : ∀ fuel, AllGive ops stopped (roundsAsks ops fuel fuel
      (budget elapsed h.ctl) h.ctl.streams.length (begun elapsed h)) := by
    intro fuel
    have hfuel := hgive fuel
    rw [asks, if_neg (by simp [hempty, hzero])] at hfuel
    exact hfuel
  have hpos := Nat.pos_of_ne_zero hzero
  have hlt := budget_lt elapsed h.ctl
  obtain ⟨N, r, hr⟩ : ∃ N r, ∀ fuel ≥ N, ∀ visits ≥ N,
      rounds ops visits fuel (budget elapsed h.ctl) h.ctl.streams.length
        (begun elapsed h) = some r := by
    rcases hs with hs | hw
    · exact hK.rounds_end_of_shareable hY hI hpos hlt hgive' hs
        (pending_le_length h)
    · exact hK.rounds_end_of_willing hY hI hpos hlt hgive' hw
  refine ⟨N, finish r.1 r.2, fun fuel hfuel => ?_⟩
  rw [transfer_eq, if_neg hempty, if_neg hzero, hr fuel hfuel fuel hfuel]
  rfl

end

end ControllerSimple

end EcwidDownloader
