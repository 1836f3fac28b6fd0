import Mathlib.Algebra.GroupWithZero.Nat
import EcwidDownloader.Aio.BandwidthController

/-!
# The loops of ControllerSimple

The list of streams only ever grows at its end, so its nodes stand in the order
of their identities, and an iterator cuts it into the nodes behind it and those
still to come. The first lemmas here are about this cut, for streams of any kind.

The calls of `Stream::transfer` that the loops make are listed by `asks`. The
counter is decreased by what they ask for, up to the size of `size_t`, whatever
the streams do: `rounds_counted`. What the streams do is the business of two
rules. `Serves` puts together what the calls do to the world. `Heeds` is about
the pending streams: whoever still wants something when the loops end was
counted. Streams that only deserve a rule in some of the calls are restricted to
these by `only`.
-/

namespace EcwidDownloader

namespace ControllerSimple

/-- The nodes stand in the order in which they were inserted. -/
def Ordered (streams : List Node) : Prop :=
  streams.Pairwise fun a b => a.id < b.id

section

variable {pre suf : List Node} {node : Node}

theorem Ordered.pre_ne (h : Ordered (pre ++ node :: suf)) :
    ∀ a ∈ pre, a.id ≠ node.id := by
  intro a ha
  have := (List.pairwise_append.mp h).2.2 a ha node List.mem_cons_self
  omega

theorem Ordered.suf_ne (h : Ordered (pre ++ node :: suf)) :
    ∀ a ∈ suf, a.id ≠ node.id := by
  intro a ha
  have hcons := (List.pairwise_append.mp h).2.1
  have := (List.pairwise_cons.mp hcons).1 a ha
  omega

theorem Ordered.find (h : Ordered (pre ++ node :: suf)) :
    (pre ++ node :: suf).find? (fun a => a.id = node.id) = some node := by
  rw [List.find?_append, List.find?_eq_none.mpr]
  · rw [List.find?_cons_of_pos (by simp)]
    rfl
  · intro a ha
    simpa using h.pre_ne a ha

theorem Ordered.next (h : Ordered (pre ++ node :: suf)) :
    next node.id (pre ++ node :: suf) = first suf := by
  have hne := h.pre_ne
  clear h
  induction pre with
  | nil =>
      rw [List.nil_append, ControllerSimple.next, if_pos rfl]
      rfl
  | cons a pre ih =>
      rw [List.cons_append, ControllerSimple.next,
        if_neg (hne a List.mem_cons_self)]
      exact ih fun b hb => hne b (List.mem_cons_of_mem _ hb)

theorem Ordered.erase (h : Ordered (pre ++ node :: suf)) :
    erase node.id (pre ++ node :: suf) = pre ++ suf := by
  have hpre : pre.filter (fun a => a.id ≠ node.id) = pre :=
    List.filter_eq_self.mpr fun a ha => by simpa using h.pre_ne a ha
  have hsuf : suf.filter (fun a => a.id ≠ node.id) = suf :=
    List.filter_eq_self.mpr fun a ha => by simpa using h.suf_ne a ha
  rw [ControllerSimple.erase, List.filter_append, hpre,
    List.filter_cons_of_neg (by simp), hsuf]

theorem Ordered.erased (h : Ordered (pre ++ node :: suf)) :
    Ordered (pre ++ suf) :=
  List.Pairwise.sublist
    (List.Sublist.append_left (List.sublist_cons_self node suf) pre) h

end

/-- The first node of an ordered list comes before or is any other. -/
theorem Ordered.first_le {streams : List Node} {m : Node}
    (h : Ordered streams) (hm : m ∈ streams) :
    ∃ k, first streams = some k ∧ k ≤ m.id := by
  cases streams with
  | nil => exact absurd hm List.not_mem_nil
  | cons a streams =>
      refine ⟨a.id, rfl, ?_⟩
      rcases List.mem_cons.mp hm with rfl | hm
      · exact Nat.le_refl _
      · exact Nat.le_of_lt ((List.pairwise_cons.mp h).1 m hm)

/-- The iterator behind a node does not skip any node that comes later. -/
theorem Ordered.next_le {streams : List Node} {node m : Node}
    (h : Ordered streams) (hnode : node ∈ streams) (hm : m ∈ streams)
    (hlt : node.id < m.id) :
    ∃ k, ControllerSimple.next node.id streams = some k ∧ k ≤ m.id := by
  obtain ⟨pre, suf, rfl⟩ := List.append_of_mem hnode
  rw [h.next]
  obtain ⟨-, hcons, hacross⟩ := List.pairwise_append.mp h
  have hsuf : m ∈ suf := by
    rcases List.mem_append.mp hm with hpre | hm
    · have := hacross m hpre node List.mem_cons_self
      omega
    · rcases List.mem_cons.mp hm with rfl | hm
      · exact absurd hlt (Nat.lt_irrefl _)
      · exact hm
  exact Ordered.first_le (List.pairwise_cons.mp hcons).2 hsuf

/-- Nodes of one identity are the same. -/
theorem node_unique {streams : List Node} (ho : Ordered streams) {a b : Node}
    (ha : a ∈ streams) (hb : b ∈ streams) (hid : a.id = b.id) : a = b := by
  obtain ⟨pre, suf, rfl⟩ := List.append_of_mem ha
  rcases List.mem_append.mp hb with hb | hb
  · exact absurd hid.symm (ho.pre_ne b hb)
  · rcases List.mem_cons.mp hb with rfl | hb
    · rfl
    · exact absurd hid.symm (ho.suf_ne b hb)

theorem Ordered.removeStream {c : ControllerSimple} (h : Ordered c.streams)
    (conn : Nat) : Ordered (removeStream conn c).streams := by
  refine List.pairwise_map.mpr (h.imp ?_)
  intro a b hab
  split <;> split <;> exact hab

/-- A node inserted at the end comes behind all others. -/
theorem Ordered.insert {streams : List Node} {inserted : Nat}
    {weak : Option Nat} (h : Ordered streams)
    (hlt : ∀ a ∈ streams, a.id < inserted) :
    Ordered (streams ++ [{ id := inserted, weak := weak }]) := by
  refine List.pairwise_append.mpr ⟨h, List.pairwise_singleton _ _, ?_⟩
  intro a ha b hb
  rw [List.mem_singleton] at hb
  subst hb
  exact hlt a ha

/-! ## A run of transfer -/

section

variable {W : Type}

/-- The state in which `transfer` has asked for the time. -/
def begun (elapsed : Nat) (h : Hosted W) : Hosted W :=
  { h with
    ctl.sheduled := false
    ctl.ticks := { elapsed := elapsed } :: h.ctl.ticks }

theorem budget_lt (elapsed : Nat) (c : ControllerSimple) :
    budget elapsed c < sizeModulus := by
  have hlt : c.limit * elapsed % sizeModulus < sizeModulus :=
    Nat.mod_lt _ (by decide)
  have hdiv := Nat.div_le_self (c.limit * elapsed % sizeModulus) 1000
  unfold budget
  omega

theorem transfer_eq (ops : Streams W) (fuel elapsed : Nat) (h : Hosted W) :
    transfer ops fuel elapsed h =
      if h.ctl.streams.length = 0 then some { h with ctl.sheduled := false }
      else if budget elapsed h.ctl = 0 then
        some
          { h with ctl := deferTransfer (begun elapsed h).ctl }
      else
        (rounds ops fuel fuel (budget elapsed h.ctl) h.ctl.streams.length
          (begun elapsed h)).map fun r => finish r.1 r.2 :=
  rfl

end

section

variable {W : Type}

@[simp] theorem record_streams (x : Handed) (c : ControllerSimple) :
    (record x c).streams = c.streams := by
  unfold record
  split <;> rfl

@[simp] theorem record_inserted (x : Handed) (c : ControllerSimple) :
    (record x c).inserted = c.inserted := by
  unfold record
  split <;> rfl

@[simp] theorem record_sheduled (x : Handed) (c : ControllerSimple) :
    (record x c).sheduled = c.sheduled := by
  unfold record
  split <;> rfl

@[simp] theorem record_timer (x : Handed) (c : ControllerSimple) :
    (record x c).timer = c.timer := by
  unfold record
  split <;> rfl

@[simp] theorem record_limit (x : Handed) (c : ControllerSimple) :
    (record x c).limit = c.limit := by
  unfold record
  split <;> rfl

@[simp] theorem finish_streams (pend : Nat) (h : Hosted W) :
    (finish pend h).ctl.streams = h.ctl.streams := by
  unfold finish
  split <;> rfl

@[simp] theorem finish_inserted (pend : Nat) (h : Hosted W) :
    (finish pend h).ctl.inserted = h.ctl.inserted := by
  unfold finish
  split <;> rfl

@[simp] theorem finish_limit (pend : Nat) (h : Hosted W) :
    (finish pend h).ctl.limit = h.ctl.limit := by
  unfold finish
  split <;> rfl

@[simp] theorem finish_world (pend : Nat) (h : Hosted W) :
    (finish pend h).world = h.world := by
  unfold finish
  split <;> rfl

@[simp] theorem finish_ticks (pend : Nat) (h : Hosted W) :
    (finish pend h).ctl.ticks = h.ctl.ticks := by
  unfold finish
  split <;> rfl

end

/-- The timer is started, with one listener, while a transfer is scheduled. -/
def Timed (c : ControllerSimple) : Prop :=
  c.timer = if c.sheduled then { listeners := 1, armed := true } else {}

/-- `transfer` leaves the timer started with the next one scheduled. -/
theorem finish_timed {W : Type} {pend : Nat} {h : Hosted W}
    (htimer : h.ctl.timer = {}) (hs : h.ctl.sheduled = false) :
    Timed (finish pend h).ctl := by
  unfold Timed finish
  split
  · simp [deferTransfer, htimer]
  · simp [htimer, hs]

/-! ## One turn of the inner loop -/

section

variable {W : Type} {ops : Streams W} {c fuel total pend : Nat}
  {h : Hosted W} {node : Node}

/-- The turn at a node whose stream is gone takes the node out of the list. -/
theorem round_expired
    (hfind : h.ctl.streams.find? (fun a => a.id = node.id) = some node)
    (hl : lock ops node h = none) :
    round ops c (fuel + 1) (some node.id) total pend h =
      round ops c fuel (next node.id h.ctl.streams) total pend
        { h with ctl.streams := erase node.id h.ctl.streams } := by
  rw [round, hfind]
  simp only [hl]

/-- The turn at a node whose stream is there. -/
theorem round_locked {stream : Nat}
    (hfind : h.ctl.streams.find? (fun a => a.id = node.id) = some node)
    (hl : lock ops node h = some stream) :
    round ops c (fuel + 1) (some node.id) total pend h =
      (visit ops c stream total pend h).bind fun r =>
        round ops c fuel (next node.id h.ctl.streams) r.1 r.2.1 r.2.2 := by
  rw [round, hfind]
  simp only [hl]
  cases visit ops c stream total pend h <;> rfl

theorem node_of_find {streams : List Node} {it : Nat} {node : Node}
    (h : streams.find? (fun a => a.id = it) = some node) :
    node ∈ streams ∧ node.id = it :=
  ⟨List.mem_of_find?_eq_some h, by simpa using List.find?_some h⟩

/-- What a turn of the inner loop that returns has been. -/
theorem round_cases {it : Nat} {r : Nat × Nat × Hosted W}
    (hr : round ops c (fuel + 1) (some it) total pend h = some r) :
    ∃ node, node.id = it ∧
      h.ctl.streams.find? (fun a => a.id = node.id) = some node ∧
      (lock ops node h = none ∧
          round ops c fuel (next node.id h.ctl.streams) total pend
            { h with ctl.streams := erase node.id h.ctl.streams } = some r ∨
        ∃ stream r₁, lock ops node h = some stream ∧
          visit ops c stream total pend h = some r₁ ∧
          round ops c fuel (next node.id h.ctl.streams) r₁.1 r₁.2.1 r₁.2.2 =
            some r) := by
  cases hfind : h.ctl.streams.find? (fun a => a.id = it) with
  | none =>
      rw [round, hfind] at hr
      cases hr
  | some node =>
      obtain ⟨-, rfl⟩ := node_of_find hfind
      refine ⟨node, rfl, hfind, ?_⟩
      cases hl : lock ops node h with
      | none =>
          rw [round_expired hfind hl] at hr
          exact .inl ⟨rfl, hr⟩
      | some stream =>
          rw [round_locked hfind hl] at hr
          obtain ⟨r₁, hv, hrest⟩ := Option.bind_eq_some_iff.mp hr
          exact .inr ⟨stream, r₁, rfl, hv, hrest⟩

/-- What a turn of the outer loop that returns has been: a round, and the turns
after it while there is something to hand out and a stream to take it. -/
theorem rounds_cases {visits : Nat} {r : Nat × Hosted W}
    (hr : rounds ops visits (fuel + 1) total pend h = some r) :
    ∃ total₁ pend₁ h₁,
      round ops (max (total / pend) 1) visits (first h.ctl.streams) total 0 h =
        some (total₁, pend₁, h₁) ∧
      ((0 < total₁ ∧ 0 < pend₁) ∧
          rounds ops visits fuel total₁ pend₁ h₁ = some r ∨
        ¬ (0 < total₁ ∧ 0 < pend₁) ∧ r = (pend₁, h₁)) := by
  rw [rounds] at hr
  cases hround : round ops (max (total / pend) 1) visits
      (first h.ctl.streams) total 0 h with
  | none => rw [hround] at hr; cases hr
  | some r₁ =>
      obtain ⟨total₁, pend₁, h₁⟩ := r₁
      rw [hround] at hr
      simp only [] at hr
      refine ⟨total₁, pend₁, h₁, rfl, ?_⟩
      split at hr
      · next hmore => exact .inl ⟨hmore, hr⟩
      · next hdone =>
          cases hr
          exact .inr ⟨hdone, rfl⟩

end

/-! ## What the loops ask for -/

/-- A call of `Stream::transfer`, with the counter when it is made and the state
it is made in, which has the call on record. -/
structure Ask (W : Type) extends Handed where
  stream : Nat
  host : Hosted W

section

variable {W : Type} (ops : Streams W)

/-- The call for `n` bytes that is made in the state `h`. -/
def ask (total stream n : Nat) (h : Hosted W) : Ask W :=
  { total := total
    length := n
    stream := stream
    host := { h with ctl := record ⟨total, n⟩ h.ctl } }

/-- The call made at a stream that could be locked. -/
def visitAsks (chunk stream total : Nat) (h : Hosted W) : List (Ask W) :=
  let n := min (ops.available stream h.world) chunk
  if n = 0 then [] else [ask total stream n h]

/-- The calls of the inner loop, in order. -/
def roundAsks (chunk : Nat) : Nat → Option Nat → Nat → Nat → Hosted W →
    List (Ask W)
  | 0, _, _, _, _ => []
  | _ + 1, none, _, _, _ => []
  | fuel + 1, some it, total, pending, h =>
      match h.ctl.streams.find? fun node => node.id = it with
      | none => []
      | some node =>
          let it' := next it h.ctl.streams
          match lock ops node h with
          | some stream =>
              visitAsks ops chunk stream total h ++
                match visit ops chunk stream total pending h with
                | none => []
                | some (total, pending, h) =>
                    roundAsks chunk fuel it' total pending h
          | none =>
              roundAsks chunk fuel it' total pending
                { h with ctl.streams := erase it h.ctl.streams }

/-- The calls of the outer loop. -/
def roundsAsks (visits : Nat) : Nat → Nat → Nat → Hosted W → List (Ask W)
  | 0, _, _, _ => []
  | fuel + 1, total, pending, h =>
      let chunk := max (total / pending) 1
      roundAsks ops chunk visits (first h.ctl.streams) total 0 h ++
        match round ops chunk visits (first h.ctl.streams) total 0 h with
        | none => []
        | some (total, pending, h) =>
            if 0 < total ∧ 0 < pending then
              roundsAsks visits fuel total pending h
            else []

/-- The calls of a run of `transfer`. -/
def asks (fuel elapsed : Nat) (h : Hosted W) : List (Ask W) :=
  if h.ctl.streams.length = 0 ∨ budget elapsed h.ctl = 0 then []
  else
    roundsAsks ops fuel fuel (budget elapsed h.ctl) h.ctl.streams.length
      (begun elapsed h)

/-- The bytes that are asked for. -/
def asked (l : List (Ask W)) : Nat := (l.map fun a => a.length).sum

end

section

variable {W : Type} {ops : Streams W} {c fuel total pend : Nat}
  {h : Hosted W} {node : Node} {a : Ask W} {l m : List (Ask W)}

@[simp] theorem asked_nil : asked ([] : List (Ask W)) = 0 := rfl

@[simp] theorem asked_cons : asked (a :: l) = a.length + asked l := rfl

@[simp] theorem asked_append : asked (l ++ m) = asked l + asked m := by
  rw [asked, List.map_append, List.sum_append]
  rfl

theorem roundAsks_expired
    (hfind : h.ctl.streams.find? (fun a => a.id = node.id) = some node)
    (hl : lock ops node h = none) :
    roundAsks ops c (fuel + 1) (some node.id) total pend h =
      roundAsks ops c fuel (next node.id h.ctl.streams) total pend
        { h with ctl.streams := erase node.id h.ctl.streams } := by
  rw [roundAsks, hfind]
  simp only [hl]

theorem roundAsks_locked {stream : Nat}
    (hfind : h.ctl.streams.find? (fun a => a.id = node.id) = some node)
    (hl : lock ops node h = some stream) :
    roundAsks ops c (fuel + 1) (some node.id) total pend h =
      visitAsks ops c stream total h ++
        ((visit ops c stream total pend h).map fun r =>
          roundAsks ops c fuel (next node.id h.ctl.streams) r.1 r.2.1
            r.2.2).getD [] := by
  rw [roundAsks, hfind]
  simp only [hl]
  cases visit ops c stream total pend h <;> rfl

theorem roundsAsks_succ {visits : Nat} :
    roundsAsks ops visits (fuel + 1) total pend h =
      roundAsks ops (max (total / pend) 1) visits (first h.ctl.streams) total
          0 h ++
        ((round ops (max (total / pend) 1) visits (first h.ctl.streams) total 0
          h).map fun r =>
            if 0 < r.1 ∧ 0 < r.2.1 then
              roundsAsks ops visits fuel r.1 r.2.1 r.2.2
            else []).getD [] := by
  rw [roundsAsks]
  cases round ops (max (total / pend) 1) visits (first h.ctl.streams) total 0 h
    <;> rfl

/-- The calls of a turn of the inner loop that returns. -/
theorem roundAsks_visited {stream : Nat} {r : Nat × Nat × Hosted W}
    (hfind : h.ctl.streams.find? (fun a => a.id = node.id) = some node)
    (hl : lock ops node h = some stream)
    (hv : visit ops c stream total pend h = some r) :
    roundAsks ops c (fuel + 1) (some node.id) total pend h =
      visitAsks ops c stream total h ++
        roundAsks ops c fuel (next node.id h.ctl.streams) r.1 r.2.1 r.2.2 := by
  rw [roundAsks_locked hfind hl, hv]
  rfl

/-- The visit of a stream: it has nothing for the share, or it is asked. -/
theorem visit_cases {stream : Nat} {r : Nat × Nat × Hosted W}
    (hv : visit ops c stream total pend h = some r) :
    (min (ops.available stream h.world) c = 0 ∧ r = (total, pend, h) ∧
        visitAsks ops c stream total h = []) ∨
      ∃ n h', n = min (ops.available stream h.world) c ∧ n ≠ 0 ∧
        ops.transfer stream n { h with ctl := record ⟨total, n⟩ h.ctl } =
          some h' ∧
        r = (sizeSub total n,
          if c < ops.available stream h.world then pend + 1 else pend, h') ∧
        visitAsks ops c stream total h = [ask total stream n h] := by
  simp only [visit] at hv
  split at hv
  · next hz =>
      cases hv
      exact .inl ⟨hz, rfl, if_pos hz⟩
  · next hn =>
      obtain ⟨h', ht, rfl⟩ := Option.map_eq_some_iff.mp hv
      refine .inr ⟨_, h', rfl, hn, ht, ?_, if_neg hn⟩
      have hiff : 0 < ops.available stream h.world -
          min (ops.available stream h.world) c ↔
          c < ops.available stream h.world := by
        omega
      simp only [hiff]

/-! More fuel changes nothing about a loop that returned, and only adds calls to
one that did not. -/

theorem round_mono {it : Option Nat} {fuel' : Nat} {r : Nat × Nat × Hosted W}
    (hr : round ops c fuel it total pend h = some r) (hle : fuel ≤ fuel') :
    round ops c fuel' it total pend h = some r := by
  induction fuel generalizing fuel' it total pend h with
  | zero => cases hr
  | succ fuel ih =>
      obtain ⟨fuel', rfl⟩ : ∃ f, fuel' = f + 1 := ⟨fuel' - 1, by omega⟩
      cases it with
      | none => exact hr
      | some it =>
          obtain ⟨node, rfl, hfind, hcases⟩ := round_cases hr
          rcases hcases with ⟨hl, hrest⟩ | ⟨stream, r₁, hl, hv, hrest⟩
          · rw [round_expired hfind hl]
            exact ih hrest (by omega)
          · rw [round_locked hfind hl, hv, Option.bind_some]
            exact ih hrest (by omega)

theorem roundAsks_mono {it : Option Nat} {fuel' : Nat} (hle : fuel ≤ fuel') :
    roundAsks ops c fuel it total pend h ⊆
      roundAsks ops c fuel' it total pend h := by
  induction fuel generalizing fuel' it total pend h with
  | zero => exact List.nil_subset _
  | succ fuel ih =>
      obtain ⟨fuel', rfl⟩ : ∃ f, fuel' = f + 1 := ⟨fuel' - 1, by omega⟩
      have hle' : fuel ≤ fuel' := by omega
      cases it with
      | none => exact List.nil_subset _
      | some it =>
          cases hfind : h.ctl.streams.find? (fun a => a.id = it) with
          | none =>
              rw [roundAsks, hfind]
              exact List.nil_subset _
          | some node =>
              obtain ⟨-, rfl⟩ := node_of_find hfind
              cases hl : lock ops node h with
              | none =>
                  rw [roundAsks_expired hfind hl, roundAsks_expired hfind hl]
                  exact ih hle'
              | some stream =>
                  rw [roundAsks_locked hfind hl, roundAsks_locked hfind hl]
                  cases visit ops c stream total pend h with
                  | none => exact List.Subset.refl _
                  | some r =>
                      refine List.append_subset.mpr
                        ⟨List.subset_append_left _ _, ?_⟩
                      exact List.Subset.trans (ih hle')
                        (List.subset_append_right _ _)

theorem roundsAsks_mono {visits visits' fuel' : Nat} (hv : visits ≤ visits')
    (hle : fuel ≤ fuel') :
    roundsAsks ops visits fuel total pend h ⊆
      roundsAsks ops visits' fuel' total pend h := by
  induction fuel generalizing fuel' total pend h with
  | zero => exact List.nil_subset _
  | succ fuel ih =>
      obtain ⟨fuel', rfl⟩ : ∃ f, fuel' = f + 1 := ⟨fuel' - 1, by omega⟩
      rw [roundsAsks_succ, roundsAsks_succ]
      refine List.append_subset.mpr ⟨?_, ?_⟩
      · exact List.Subset.trans (roundAsks_mono hv)
          (List.subset_append_left _ _)
      cases hround : round ops (max (total / pend) 1) visits
          (first h.ctl.streams) total 0 h with
      | none => exact List.nil_subset _
      | some r =>
          rw [round_mono hround hv]
          simp only [Option.map_some, Option.getD_some]
          split
          · exact List.Subset.trans (ih (by omega))
              (List.subset_append_right _ _)
          · exact List.nil_subset _

end

/-! ## The counter -/

theorem sizeSub_add {a b : Nat} (hb : b ≤ sizeModulus) :
    (sizeSub a b + b) % sizeModulus = a % sizeModulus := by
  rw [sizeSub, Nat.mod_add_mod, Nat.sub_add_cancel (by omega),
    Nat.add_mod_right]

section

variable {W : Type} {ops : Streams W} {total total' : Nat}
  {l : List (Ask W)}

/-- What the calls `l` make of the counter `total`: it is decreased by what they
ask for, in `size_t`, and wraps exactly if that is more than it was. -/
structure Counted (l : List (Ask W)) (total total' : Nat) : Prop where
  modulo : (total' + asked l) % sizeModulus = total % sizeModulus
  small : total < sizeModulus → total' < sizeModulus
  fits : total < sizeModulus →
    (asked l ≤ total ↔ ∀ a ∈ l, a.length ≤ a.total)

theorem Counted.nil : Counted ([] : List (Ask W)) total total :=
  ⟨rfl, id, fun _ => by simp⟩

/-- A counter that is not overdrawn is what is left. -/
theorem Counted.left (hc : Counted l total total') (hlt : total < sizeModulus)
    (hfit : asked l ≤ total) : total' = total - asked l := by
  have hmod := hc.modulo
  have hlt' := hc.small hlt
  unfold sizeModulus at *
  omega

theorem Counted.append {m : List (Ask W)} {total₁ : Nat}
    (hl : Counted l total total₁) (hm : Counted m total₁ total') :
    Counted (l ++ m) total total' := by
  refine ⟨?_, fun hlt => hm.small (hl.small hlt), fun hlt => ?_⟩
  · have hmod := hl.modulo
    have hmod' := hm.modulo
    rw [asked_append]
    unfold sizeModulus at *
    omega
  · have hfits := hl.fits hlt
    have hfits' := hm.fits (hl.small hlt)
    simp only [asked_append, List.forall_mem_append, ← hfits, ← hfits']
    constructor
    · intro hsum
      have hleft := hl.left hlt (by omega)
      omega
    · rintro ⟨hle, hle'⟩
      have hleft := hl.left hlt hle
      omega

/-- One call. -/
theorem Counted.one (a : Ask W) (ha : a.length ≤ sizeModulus) :
    Counted [a] a.total (sizeSub a.total a.length) :=
  ⟨by simpa using sizeSub_add ha, fun _ => sizeSub_lt _ _, fun _ => by simp⟩

variable {c fuel pend : Nat} {h : Hosted W}

theorem visit_counted {stream : Nat} {r : Nat × Nat × Hosted W}
    (hc : c < sizeModulus) (hv : visit ops c stream total pend h = some r) :
    Counted (visitAsks ops c stream total h) total r.1 := by
  rcases visit_cases hv with ⟨-, rfl, hasks⟩ | ⟨n, h', hn, -, -, rfl, hasks⟩
  · rw [hasks]
    exact .nil
  · rw [hasks]
    exact .one (ask total stream n h) (by simp only [ask]; omega)

/-- A stretch of a round decreases the counter by what it asks for. The
induction is on the fuel, since the handlers change the list. -/
theorem round_counted {it : Option Nat} {r : Nat × Nat × Hosted W}
    (hc : c < sizeModulus) (hr : round ops c fuel it total pend h = some r) :
    Counted (roundAsks ops c fuel it total pend h) total r.1 := by
  induction fuel generalizing it total pend h with
  | zero => cases hr
  | succ fuel ih =>
      cases it with
      | none =>
          cases hr
          exact .nil
      | some it =>
          obtain ⟨node, rfl, hfind, hcases⟩ := round_cases hr
          rcases hcases with ⟨hl, hrest⟩ | ⟨stream, r₁, hl, hv, hrest⟩
          · rw [roundAsks_expired hfind hl]
            exact ih hrest
          · rw [roundAsks_visited hfind hl hv]
            exact (visit_counted hc hv).append (ih hrest)

/-- The share of a round is a `size_t`. -/
theorem share_lt (pend : Nat) (ht : total < sizeModulus) :
    max (total / pend) 1 < sizeModulus := by
  have hdiv := Nat.div_le_self total pend
  have hone : 1 < sizeModulus := by decide
  omega

/-- The calls of a turn of the outer loop. -/
theorem roundsAsks_cases {visits total₁ pend₁ : Nat} {h₁ : Hosted W}
    (hround : round ops (max (total / pend) 1) visits (first h.ctl.streams)
      total 0 h = some (total₁, pend₁, h₁)) :
    roundsAsks ops visits (fuel + 1) total pend h =
      roundAsks ops (max (total / pend) 1) visits (first h.ctl.streams) total
          0 h ++
        if 0 < total₁ ∧ 0 < pend₁ then
          roundsAsks ops visits fuel total₁ pend₁ h₁
        else [] := by
  rw [roundsAsks_succ, hround]
  rfl

/-- The rounds end with the counter used up or with no stream pending. -/
theorem rounds_counted {visits : Nat} {r : Nat × Hosted W}
    (ht : total < sizeModulus)
    (hr : rounds ops visits fuel total pend h = some r) :
    ∃ total', Counted (roundsAsks ops visits fuel total pend h) total total' ∧
      (r.1 ≠ 0 → total' = 0) := by
  induction fuel generalizing total pend h with
  | zero => cases hr
  | succ fuel ih =>
      obtain ⟨total₁, pend₁, h₁, hround, hcases⟩ := rounds_cases hr
      have hcount := round_counted (share_lt pend ht) hround
      rw [roundsAsks_cases hround]
      rcases hcases with ⟨hmore, hrest⟩ | ⟨hdone, rfl⟩
      · obtain ⟨total', hcount', hzero⟩ := ih (hcount.small ht) hrest
        rw [if_pos hmore]
        exact ⟨total', hcount.append hcount', hzero⟩
      · rw [if_neg hdone, List.append_nil]
        exact ⟨total₁, hcount, fun hp => by dsimp only at hp; omega⟩

/-- The calls of a run of `transfer` fit into its budget exactly if the counter
does not wrap. -/
theorem asks_fit {elapsed : Nat} {h' : Hosted W}
    (ht : transfer ops fuel elapsed h = some h') :
    asked (asks ops fuel elapsed h) ≤ budget elapsed h.ctl ↔
      ∀ a ∈ asks ops fuel elapsed h, a.length ≤ a.total := by
  rw [transfer_eq] at ht
  by_cases hempty : h.ctl.streams.length = 0
  · have hasks : asks ops fuel elapsed h = [] := if_pos (.inl hempty)
    simp [hasks]
  by_cases hzero : budget elapsed h.ctl = 0
  · have hasks : asks ops fuel elapsed h = [] := if_pos (.inr hzero)
    simp [hasks]
  rw [if_neg hempty, if_neg hzero] at ht
  obtain ⟨r, hrounds, -⟩ := Option.map_eq_some_iff.mp ht
  have hlt := budget_lt elapsed h.ctl
  obtain ⟨total', hcount, -⟩ := rounds_counted hlt hrounds
  rw [asks, if_neg (by simp [hempty, hzero])]
  exact hcount.fits hlt

/-- Where streams are left pending at least the budget was asked for, and no more
if that can be counted. -/
theorem rounds_asked {visits : Nat} {r : Nat × Hosted W}
    (ht : total < sizeModulus)
    (hr : rounds ops visits fuel total pend h = some r) (hp : r.1 ≠ 0) :
    total ≤ asked (roundsAsks ops visits fuel total pend h) ∧
      (asked (roundsAsks ops visits fuel total pend h) < sizeModulus →
        asked (roundsAsks ops visits fuel total pend h) = total) := by
  obtain ⟨total', hcount, hzero⟩ := rounds_counted ht hr
  have hmod := hcount.modulo
  rw [hzero hp, Nat.zero_add, Nat.mod_eq_of_lt ht] at hmod
  have hle := Nat.mod_le
    (asked (roundsAsks ops visits fuel total pend h)) sizeModulus
  refine ⟨by omega, fun hlt => ?_⟩
  rw [Nat.mod_eq_of_lt hlt] at hmod
  exact hmod

end

/-! ## What the calls do -/

section

variable {W : Type} {ops : Streams W}

/-- Streams for which the loops keep `I`. `R l h h'` says that the calls `l` were
made between `h` and `h'`. -/
structure Serves (ops : Streams W) (I : Hosted W → Prop)
    (R : List (Ask W) → Hosted W → Hosted W → Prop) : Prop where
  refl : ∀ h, R [] h h
  trans : ∀ {l m h₁ h₂ h₃}, R l h₁ h₂ → R m h₂ h₃ → R (l ++ m) h₁ h₃
  erase : ∀ {h node}, I h → node ∈ h.ctl.streams → lock ops node h = none →
    I { h with ctl.streams := erase node.id h.ctl.streams } ∧
      R [] h { h with ctl.streams := erase node.id h.ctl.streams }
  serve : ∀ {h h' node stream total n}, I h → node ∈ h.ctl.streams →
    lock ops node h = some stream → n ≠ 0 →
    n ≤ ops.available stream h.world →
    ops.transfer stream n { h with ctl := record ⟨total, n⟩ h.ctl } = some h' →
    I h' ∧ R [ask total stream n h] h h'

variable {I : Hosted W → Prop} {R : List (Ask W) → Hosted W → Hosted W → Prop}
  {c fuel total pend : Nat} {h : Hosted W}

theorem Serves.visit (hS : Serves ops I R) {node : Node} {stream : Nat}
    {r : Nat × Nat × Hosted W} (hI : I h) (hnode : node ∈ h.ctl.streams)
    (hl : lock ops node h = some stream)
    (hv : visit ops c stream total pend h = some r) :
    I r.2.2 ∧ R (visitAsks ops c stream total h) h r.2.2 := by
  rcases visit_cases hv with
    ⟨-, rfl, hasks⟩ | ⟨n, h', hn, hpos, ht, rfl, hasks⟩
  · rw [hasks]
    exact ⟨hI, hS.refl h⟩
  · rw [hasks]
    exact hS.serve hI hnode hl hpos (by omega) ht

theorem Serves.round (hS : Serves ops I R) {it : Option Nat}
    {r : Nat × Nat × Hosted W} (hI : I h)
    (hr : round ops c fuel it total pend h = some r) :
    I r.2.2 ∧ R (roundAsks ops c fuel it total pend h) h r.2.2 := by
  induction fuel generalizing it total pend h with
  | zero => cases hr
  | succ fuel ih =>
      cases it with
      | none =>
          cases hr
          exact ⟨hI, hS.refl h⟩
      | some it =>
          obtain ⟨node, rfl, hfind, hcases⟩ := round_cases hr
          have hnode := (node_of_find hfind).1
          rcases hcases with ⟨hl, hrest⟩ | ⟨stream, r₁, hl, hv, hrest⟩
          · obtain ⟨hI₁, hR₁⟩ := hS.erase hI hnode hl
            obtain ⟨hI', hR⟩ := ih hI₁ hrest
            rw [roundAsks_expired hfind hl]
            exact ⟨hI', hS.trans hR₁ hR⟩
          · obtain ⟨hI₁, hR₁⟩ := hS.visit hI hnode hl hv
            obtain ⟨hI', hR⟩ := ih hI₁ hrest
            rw [roundAsks_visited hfind hl hv]
            exact ⟨hI', hS.trans hR₁ hR⟩

theorem Serves.rounds (hS : Serves ops I R) {visits : Nat}
    {r : Nat × Hosted W} (hI : I h)
    (hr : rounds ops visits fuel total pend h = some r) :
    I r.2 ∧ R (roundsAsks ops visits fuel total pend h) h r.2 := by
  induction fuel generalizing total pend h with
  | zero => cases hr
  | succ fuel ih =>
      obtain ⟨total₁, pend₁, h₁, hround, hcases⟩ := rounds_cases hr
      obtain ⟨hI₁, hR₁⟩ := hS.round hI hround
      rw [roundsAsks_cases hround]
      rcases hcases with ⟨hmore, hrest⟩ | ⟨hdone, rfl⟩
      · obtain ⟨hI', hR⟩ := ih hI₁ hrest
        rw [if_pos hmore]
        exact ⟨hI', hS.trans hR₁ hR⟩
      · rw [if_neg hdone, List.append_nil]
        exact ⟨hI₁, hR₁⟩

/-- What the calls `l` leave of the controller: the timer and the limit are the
same, and the calls are on record. -/
structure Recorded (l : List (Ask W)) (h h' : Hosted W) : Prop where
  timer : h'.ctl.timer = h.ctl.timer
  sheduled : h'.ctl.sheduled = h.ctl.sheduled
  limit : h'.ctl.limit = h.ctl.limit
  ticks : ∀ tick ticks, h.ctl.ticks = tick :: ticks → h'.ctl.ticks =
    { tick with handed := tick.handed ++ l.map Ask.toHanded } :: ticks

theorem Recorded.refl (h : Hosted W) : Recorded [] h h :=
  ⟨rfl, rfl, rfl, fun tick ticks hticks => by simp [hticks]⟩

theorem Recorded.trans {l m : List (Ask W)} {h₁ h₂ h₃ : Hosted W}
    (h : Recorded l h₁ h₂) (h' : Recorded m h₂ h₃) :
    Recorded (l ++ m) h₁ h₃ := by
  refine ⟨h'.timer.trans h.timer, h'.sheduled.trans h.sheduled,
    h'.limit.trans h.limit, fun tick ticks hticks => ?_⟩
  rw [h'.ticks _ _ (h.ticks tick ticks hticks), List.map_append]
  simp only [List.append_assoc]

/-- A call that leaves these alone. -/
theorem Recorded.one {total stream n : Nat} {h h' : Hosted W}
    (htimer : h'.ctl.timer = h.ctl.timer)
    (hsheduled : h'.ctl.sheduled = h.ctl.sheduled)
    (hlimit : h'.ctl.limit = h.ctl.limit)
    (hticks : h'.ctl.ticks = (record ⟨total, n⟩ h.ctl).ticks) :
    Recorded [ask total stream n h] h h' := by
  refine ⟨htimer, hsheduled, hlimit, fun tick ticks heq => ?_⟩
  rw [hticks, record]
  simp only [heq]
  rfl

/-- A run of `transfer` puts its calls on record and leaves the timer started
with the next one scheduled. -/
theorem Serves.transfer (hS : Serves ops I Recorded) {elapsed : Nat}
    {h' : Hosted W} (hI : I (begun elapsed h))
    (ht : transfer ops fuel elapsed h = some h') :
    h'.ctl.limit = h.ctl.limit ∧ (h.ctl.timer = {} → Timed h'.ctl) ∧
      ((asks ops fuel elapsed h = [] ∧ h'.ctl.ticks = h.ctl.ticks) ∨
        h'.ctl.ticks =
          { elapsed := elapsed
            handed := (asks ops fuel elapsed h).map Ask.toHanded } ::
            h.ctl.ticks) := by
  rw [transfer_eq] at ht
  split at ht
  · next hempty =>
      cases ht
      exact ⟨rfl, fun htimer => by simp [Timed, htimer],
        .inl ⟨if_pos (.inl hempty), rfl⟩⟩
  · next hlist =>
      split at ht
      · next hzero =>
          cases ht
          have hasks : asks ops fuel elapsed h = [] := if_pos (.inr hzero)
          refine ⟨rfl, fun htimer => ?_, .inr ?_⟩
          · simp [Timed, deferTransfer, begun, htimer]
          · rw [hasks]
            rfl
      · next hbudget =>
          obtain ⟨⟨pend, h₁⟩, hrounds, rfl⟩ := Option.map_eq_some_iff.mp ht
          obtain ⟨-, hrec⟩ := hS.rounds hI hrounds
          have hasks : asks ops fuel elapsed h = roundsAsks ops fuel fuel
              (budget elapsed h.ctl) h.ctl.streams.length (begun elapsed h) :=
            if_neg (by simp [hlist, hbudget])
          refine ⟨?_, fun htimer => ?_, .inr ?_⟩
          · rw [finish_limit]
            exact hrec.limit
          · exact finish_timed (hrec.timer.trans htimer) hrec.sheduled
          · rw [finish_ticks, hasks]
            exact hrec.ticks _ _ rfl

/-! ## The pending streams -/

/-- Streams for which the loops keep `I` and wake no wishes: a stream that wants
something has its node, and a transfer leaves it wanting only if it had more
than it was asked for. -/
structure Heeds (ops : Streams W) (I : Hosted W → Prop)
    (Wants : Hosted W → Nat → Prop) : Prop where
  ordered : ∀ {h}, I h → Ordered h.ctl.streams
  own : ∀ {h node stream}, I h → node ∈ h.ctl.streams →
    node.weak = some stream → stream = node.id
  node : ∀ {h i}, I h → Wants h i →
    { id := i, weak := some i } ∈ h.ctl.streams
  lock : ∀ {h i}, I h → Wants h i → ops.lock i h.world = true
  erase : ∀ {h node}, I h → node ∈ h.ctl.streams →
    ControllerSimple.lock ops node h = none →
    I { h with ctl.streams := erase node.id h.ctl.streams } ∧
      ∀ i, Wants { h with ctl.streams := erase node.id h.ctl.streams } i →
        Wants h i
  skip : ∀ {h i}, I h → ops.available i h.world = 0 → ¬ Wants h i
  serve : ∀ {h h' node stream total n}, I h → node ∈ h.ctl.streams →
    ControllerSimple.lock ops node h = some stream → n ≠ 0 →
    n ≤ ops.available stream h.world →
    ops.transfer stream n { h with ctl := record ⟨total, n⟩ h.ctl } = some h' →
    I h' ∧ ∀ i, Wants h' i →
      (i ≠ stream ∧ Wants h i) ∨ n < ops.available stream h.world

/-- What the loop over the list owes to the streams: something to those the
iterator has not passed, and to all once one was counted as pending. -/
def Ahead (it : Option Nat) (pend : Nat) (i : Nat) : Prop :=
  0 < pend ∨ ∃ k, it = some k ∧ k ≤ i

variable {Wants : Hosted W → Nat → Prop}

theorem Heeds.visit (hH : Heeds ops I Wants) {P : Nat → Prop} {node : Node}
    {stream : Nat} {r : Nat × Nat × Hosted W} (hc : 0 < c) (hI : I h)
    (hnode : node ∈ h.ctl.streams)
    (hl : ControllerSimple.lock ops node h = some stream)
    (hP : ∀ i, Wants h i → P i)
    (hv : visit ops c stream total pend h = some r) :
    I r.2.2 ∧ pend ≤ r.2.1 ∧
      ∀ i, Wants r.2.2 i → (i ≠ stream ∧ P i) ∨ 0 < r.2.1 := by
  rcases visit_cases hv with ⟨hz, rfl, -⟩ | ⟨n, h', hn, hpos, ht, rfl, -⟩
  · refine ⟨hI, Nat.le_refl _, fun i hi => .inl ⟨?_, hP i hi⟩⟩
    rintro rfl
    exact hH.skip hI (by omega) hi
  · obtain ⟨hI', hwants⟩ := hH.serve hI hnode hl hpos (by omega) ht
    refine ⟨hI', ?_, fun i hi => ?_⟩
    · dsimp only
      split <;> omega
    · rcases hwants i hi with ⟨hne, hi⟩ | hlt
      · exact .inl ⟨hne, hP i hi⟩
      · right
        dsimp only
        rw [if_pos (by omega)]
        exact Nat.succ_pos _

/-- A round visits every stream it owes something, so what it leaves wanting was
counted as pending. -/
theorem Heeds.round (hH : Heeds ops I Wants) {fuel : Nat} {it : Option Nat}
    {r : Nat × Nat × Hosted W} (hc : 0 < c) (hI : I h)
    (ho : ∀ i, Wants h i → Ahead it pend i)
    (hr : round ops c fuel it total pend h = some r) :
    I r.2.2 ∧ ∀ i, Wants r.2.2 i → 0 < r.2.1 := by
  induction fuel generalizing it total pend h with
  | zero => cases hr
  | succ fuel ih =>
      cases it with
      | none =>
          cases hr
          refine ⟨hI, fun i hi => (ho i hi).resolve_right ?_⟩
          rintro ⟨k, hk, -⟩
          cases hk
      | some it =>
          obtain ⟨node, rfl, hfind, hcases⟩ := round_cases hr
          have hnode := (node_of_find hfind).1
          have hstep : ∀ i, Wants h i → i ≠ node.id →
              Ahead (next node.id h.ctl.streams) pend i := by
            intro i hi hne
            rcases ho i hi with hp | ⟨k, hk, hle⟩
            · exact .inl hp
            · cases hk
              obtain ⟨k, hk, hki⟩ := (hH.ordered hI).next_le hnode
                (hH.node hI hi) (by dsimp only; omega)
              exact .inr ⟨k, hk, hki⟩
          rcases hcases with ⟨hl, hrest⟩ | ⟨stream, r₁, hl, hv, hrest⟩
          · obtain ⟨hI₁, hback⟩ := hH.erase hI hnode hl
            refine ih hI₁ (fun i hi => hstep i (hback i hi) ?_) hrest
            rintro rfl
            have hsame := node_unique (hH.ordered hI)
              (hH.node hI (hback _ hi)) hnode rfl
            have hlock := hH.lock hI (hback _ hi)
            rw [← hsame] at hl
            simp [ControllerSimple.lock, Option.filter, hlock] at hl
          · have hweak : node.weak = some stream :=
              (Option.filter_eq_some_iff.mp hl).1
            have hstream := hH.own hI hnode hweak
            subst hstream
            obtain ⟨hI₁, hle, ho₁⟩ := hH.visit
              (P := fun i => i ≠ node.id →
                Ahead (next node.id h.ctl.streams) pend i)
              hc hI hnode hl hstep hv
            refine ih hI₁ (fun i hi => ?_) hrest
            rcases ho₁ i hi with ⟨hne, hp⟩ | hp
            · rcases hp hne with hp | hp
              · exact .inl (Nat.lt_of_lt_of_le hp hle)
              · exact .inr hp
            · exact .inl hp

theorem Heeds.rounds (hH : Heeds ops I Wants) {visits fuel : Nat}
    {r : Nat × Hosted W} (hI : I h)
    (hr : rounds ops visits fuel total pend h = some r) :
    I r.2 ∧ ∀ i, Wants r.2 i → 0 < r.1 := by
  induction fuel generalizing total pend h with
  | zero => cases hr
  | succ fuel ih =>
      have hc : 0 < max (total / pend) 1 := by omega
      obtain ⟨total₁, pend₁, h₁, hround, hcases⟩ := rounds_cases hr
      obtain ⟨hI₁, hwants⟩ := hH.round hc hI
        (fun i hi => .inr ((hH.ordered hI).first_le (hH.node hI hi))) hround
      rcases hcases with ⟨-, hrest⟩ | ⟨-, rfl⟩
      · exact ih hI₁ hrest
      · exact ⟨hI₁, hwants⟩

end

/-! ## Streams in some of their calls -/

section

variable {W : Type} {ops : Streams W}

/-- Streams that answer only where `P` holds of the stream, the length and the
state of the call. -/
def only (P : Nat → Nat → Hosted W → Prop)
    [∀ stream n h, Decidable (P stream n h)] (ops : Streams W) : Streams W :=
  { ops with
    transfer := fun stream n h =>
      if P stream n h then ops.transfer stream n h else none }

variable {P : Nat → Nat → Hosted W → Prop}
  [∀ stream n h, Decidable (P stream n h)]
  {c fuel visits total pend : Nat} {h : Hosted W}

/-- An answer is one of a call for which `P` holds. -/
theorem only_transfer {stream n : Nat} {h' : Hosted W} :
    (only P ops).transfer stream n h = some h' ↔
      P stream n h ∧ ops.transfer stream n h = some h' := by
  simp [only]

theorem visit_only {stream : Nat}
    (hP : ∀ a ∈ visitAsks ops c stream total h, P a.stream a.length a.host) :
    visit (only P ops) c stream total pend h =
      visit ops c stream total pend h := by
  by_cases hz : min (ops.available stream h.world) c = 0
  · have hsame : min ((only P ops).available stream h.world) c = 0 := hz
    rw [visit, visit, if_pos hz, if_pos hsame]
  · have hone := hP
      (ask total stream (min (ops.available stream h.world) c) h) (by
        rw [visitAsks, if_neg hz]
        exact List.mem_singleton.mpr rfl)
    simp only [ask] at hone
    simp only [visit, only, if_pos hone]
    rfl

/-- Where `P` holds of all calls of a round the restriction changes nothing. -/
theorem round_only {it : Option Nat}
    (hP : ∀ a ∈ roundAsks ops c fuel it total pend h,
      P a.stream a.length a.host) :
    round (only P ops) c fuel it total pend h =
      round ops c fuel it total pend h := by
  induction fuel generalizing it total pend h with
  | zero => rfl
  | succ fuel ih =>
      cases it with
      | none => rfl
      | some it =>
          cases hfind : h.ctl.streams.find? (fun a => a.id = it) with
          | none => simp only [round, hfind]
          | some node =>
              obtain ⟨-, rfl⟩ := node_of_find hfind
              cases hl : lock ops node h with
              | none =>
                  have hl' : lock (only P ops) node h = none := hl
                  rw [roundAsks_expired hfind hl] at hP
                  rw [round_expired hfind hl, round_expired hfind hl', ih hP]
              | some stream =>
                  have hl' : lock (only P ops) node h = some stream := hl
                  rw [roundAsks_locked hfind hl] at hP
                  rw [round_locked hfind hl, round_locked hfind hl',
                    visit_only fun a ha => hP a (List.mem_append_left _ ha)]
                  cases hv : visit ops c stream total pend h with
                  | none => rfl
                  | some r =>
                      rw [hv] at hP
                      exact ih fun a ha => hP a (List.mem_append_right _ ha)

theorem rounds_only
    (hP : ∀ a ∈ roundsAsks ops visits fuel total pend h,
      P a.stream a.length a.host) :
    rounds (only P ops) visits fuel total pend h =
      rounds ops visits fuel total pend h := by
  induction fuel generalizing total pend h with
  | zero => rfl
  | succ fuel ih =>
      rw [roundsAsks_succ] at hP
      rw [rounds, rounds,
        round_only fun a ha => hP a (List.mem_append_left _ ha)]
      cases hround : round ops (max (total / pend) 1) visits
          (first h.ctl.streams) total 0 h with
      | none => rfl
      | some r =>
          obtain ⟨total₁, pend₁, h₁⟩ := r
          by_cases hmore : 0 < total₁ ∧ 0 < pend₁
          · simp only [if_pos hmore]
            refine ih fun a ha => hP a (List.mem_append_right _ ?_)
            simpa [hround, if_pos hmore] using ha
          · simp only [if_neg hmore]

end

end ControllerSimple

end EcwidDownloader
