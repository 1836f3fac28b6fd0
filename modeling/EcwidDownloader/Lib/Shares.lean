import Mathlib.Data.List.Basic
import Mathlib.Algebra.BigOperators.Group.List.Basic
import Mathlib.Algebra.GroupWithZero.Nat

/-!
# Sharing a budget in rounds

A budget is handed out to holders of some amounts in rounds. In a round every
holder is handed the same share, or all it has left where that is less, and the
next round goes to those who had more. If every round fits into what is left of
the budget then the rounds together are one round with a larger share, the
*level*: `min x.amount L` for every holder. So a budget can be shared in rounds
only if it is the sum of the amounts cut at some level, or covers all of them.
`Shareable` says this, `Shareable.fits` that it is enough for a round whose share
is `max (T / p) 1`, and `Shareable.left` and `Shareable.of_left` that a round
changes nothing about it.

A holder that `keeps` is handed its share like the others but does not get
smaller by it. A holder of nothing does not count: `stocked` leaves these out.
-/

namespace EcwidDownloader.Lib

structure Holder where
  amount : Nat
  keeps : Bool := false
  deriving DecidableEq, Repr

namespace Holder

/-- What a holder is handed in a round. -/
def share (c : Nat) (x : Holder) : Nat := min x.amount c

/-- A holder after a round. -/
def left (c : Nat) (x : Holder) : Holder :=
  if x.keeps then x else { x with amount := x.amount - min x.amount c }

end Holder

open Holder

/-- What all holders are handed in a round. -/
def shared (c : Nat) (xs : List Holder) : Nat := (xs.map (share c)).sum

def held (xs : List Holder) : Nat := (xs.map amount).sum

/-- The holders who had more than they were handed. -/
def pending (c : Nat) (xs : List Holder) : Nat :=
  xs.countP fun x => c < x.amount

/-- Nobody keeps anything. -/
def Willing (xs : List Holder) : Prop :=
  ∀ x ∈ xs, x.keeps = true → x.amount = 0

/-- The budget covers everything, or is the sum of the amounts cut at a level
that no keeper is below. -/
def Shareable (T : Nat) (xs : List Holder) : Prop :=
  (Willing xs ∧ held xs ≤ T) ∨
    ∃ L, (∀ x ∈ xs, x.keeps = true → x.amount = 0 ∨ L ≤ x.amount) ∧
      shared L xs = T

section

variable {c L T p : Nat} {x : Holder} {xs : List Holder}

@[simp] theorem shared_nil : shared c [] = 0 := rfl

@[simp] theorem shared_cons :
    shared c (x :: xs) = min x.amount c + shared c xs := rfl

@[simp] theorem held_nil : held [] = 0 := rfl

@[simp] theorem held_cons : held (x :: xs) = x.amount + held xs := rfl

@[simp] theorem pending_nil : pending c [] = 0 := rfl

@[simp] theorem pending_cons :
    pending c (x :: xs) = pending c xs + if c < x.amount then 1 else 0 := by
  simp [pending, List.countP_cons]

theorem shared_zero : shared 0 xs = 0 := by
  induction xs with
  | nil => rfl
  | cons x xs ih => rw [shared_cons, ih, Nat.min_zero]

theorem shared_mono (h : c ≤ L) : shared c xs ≤ shared L xs := by
  induction xs with
  | nil => exact Nat.le_refl 0
  | cons x xs ih =>
      rw [shared_cons, shared_cons]
      omega

theorem shared_le_held : shared c xs ≤ held xs := by
  induction xs with
  | nil => exact Nat.le_refl 0
  | cons x xs ih =>
      rw [shared_cons, held_cons]
      omega

/-- A round hands nothing to those who have nothing. -/
theorem shared_le_mul : shared L xs ≤ L * pending 0 xs := by
  induction xs with
  | nil => exact Nat.le_refl 0
  | cons x xs ih =>
      rw [shared_cons, pending_cons]
      split
      · rw [Nat.mul_add, Nat.mul_one]
        omega
      · rw [Nat.add_zero]
        omega

theorem pending_le_shared (hc : 0 < c) : pending c xs ≤ shared c xs := by
  induction xs with
  | nil => exact Nat.le_refl 0
  | cons x xs ih =>
      rw [shared_cons, pending_cons]
      split <;> omega

/-- The share of a round is at most the level of the budget. -/
theorem share_le_level (hT : 0 < T) (hp : pending 0 xs ≤ p)
    (hL : shared L xs = T) : max (T / p) 1 ≤ L := by
  have hle : T ≤ p * L := by
    rw [← hL, Nat.mul_comm]
    exact Nat.le_trans shared_le_mul (Nat.mul_le_mul_left L hp)
  have hpos : 0 < L := by
    rcases Nat.eq_zero_or_pos L with rfl | hpos
    · rw [shared_zero] at hL
      omega
    · exact hpos
  exact Nat.max_le.mpr ⟨Nat.div_le_of_le_mul hle, hpos⟩

/-- A shareable budget has room for the next round. -/
theorem Shareable.fits (h : Shareable T xs) (hT : 0 < T)
    (hp : pending 0 xs ≤ p) : shared (max (T / p) 1) xs ≤ T := by
  rcases h with ⟨-, hheld⟩ | ⟨L, -, hL⟩
  · exact Nat.le_trans shared_le_held hheld
  · rw [← hL]
    conv_lhs => rw [hL]
    exact shared_mono (share_le_level hT hp hL)

/-! ## One round -/

theorem Holder.keeps_of_left {x : Holder} (h : (x.left c).keeps = true) :
    x.keeps = true := by
  unfold Holder.left at h
  split at h <;> assumption

theorem Willing.left (h : Willing xs) : Willing (xs.map (Holder.left c)) := by
  intro y hy hk
  obtain ⟨x, hx, rfl⟩ := List.mem_map.mp hy
  have hkeeps := Holder.keeps_of_left hk
  rw [Holder.left, if_pos hkeeps]
  exact h x hx hkeeps

theorem Willing.held_left (h : Willing xs) :
    held (xs.map (Holder.left c)) + shared c xs = held xs := by
  induction xs with
  | nil => rfl
  | cons x xs ih =>
      have ih := ih fun y hy => h y (List.mem_cons_of_mem _ hy)
      have hx : (Holder.left c x).amount + min x.amount c = x.amount := by
        unfold Holder.left
        split
        · next hk =>
            have := h x List.mem_cons_self hk
            omega
        · dsimp only
          omega
      rw [List.map_cons, held_cons, held_cons, shared_cons]
      omega

/-- A round at one share and then one at another are together a round at their
sum, for holders no keeper of whom is below it. -/
theorem shared_add
    (h : ∀ x ∈ xs, x.keeps = true → x.amount = 0 ∨ c + L ≤ x.amount) :
    shared L (xs.map (Holder.left c)) + shared c xs = shared (c + L) xs := by
  induction xs with
  | nil => rfl
  | cons x xs ih =>
      have ih := ih fun y hy => h y (List.mem_cons_of_mem _ hy)
      have hx : min (Holder.left c x).amount L + min x.amount c =
          min x.amount (c + L) := by
        unfold Holder.left
        split
        · next hk =>
            have := h x List.mem_cons_self hk
            omega
        · dsimp only
          omega
      rw [List.map_cons, shared_cons, shared_cons, shared_cons]
      omega

/-- A round leaves a shareable budget shareable. -/
theorem Shareable.left (h : Shareable T xs) (hT : 0 < T)
    (hp : pending 0 xs ≤ p) :
    Shareable (T - shared (max (T / p) 1) xs)
      (xs.map (Holder.left (max (T / p) 1))) := by
  generalize hc : max (T / p) 1 = c
  rcases h with ⟨hw, hheld⟩ | ⟨L, hkeep, hL⟩
  · refine .inl ⟨hw.left, ?_⟩
    have := hw.held_left (c := c)
    omega
  · have hle : c ≤ L := hc ▸ share_le_level hT hp hL
    refine .inr ⟨L - c, ?_, ?_⟩
    · intro y hy hk
      obtain ⟨x, hx, rfl⟩ := List.mem_map.mp hy
      have hkeeps := Holder.keeps_of_left hk
      rw [Holder.left, if_pos hkeeps]
      have := hkeep x hx hkeeps
      omega
    · have hadd : shared (L - c) (xs.map (Holder.left c)) + shared c xs =
          shared (c + (L - c)) xs := shared_add (by
        intro x hx hk
        have := hkeep x hx hk
        omega)
      rw [show c + (L - c) = L by omega, hL] at hadd
      omega

/-- A budget is shareable if what a round that fits leaves of it is. -/
theorem Shareable.of_left (hw : Willing xs) (hfit : shared c xs ≤ T)
    (h : Shareable (T - shared c xs) (xs.map (Holder.left c))) :
    Shareable T xs := by
  rcases h with ⟨-, hheld⟩ | ⟨L, -, hL⟩
  · refine .inl ⟨hw, ?_⟩
    have := hw.held_left (c := c)
    omega
  · refine .inr ⟨c + L, fun x hx hk => .inl (hw x hx hk), ?_⟩
    rw [← shared_add fun x hx hk => .inl (hw x hx hk)]
    omega

/-- Those counted in a round of a shareable budget are all that still have
something, as long as some of the budget is left. -/
theorem Shareable.pending_left (h : Shareable T xs)
    (hT : 0 < T - shared c xs) :
    pending 0 (xs.map (Holder.left c)) ≤ pending c xs := by
  have hkeep : ∀ x ∈ xs, x.keeps = true → x.amount = 0 ∨ c < x.amount := by
    rcases h with ⟨hw, -⟩ | ⟨L, hkeep, hL⟩
    · exact fun x hx hk => .inl (hw x hx hk)
    · have hlt : c < L := by
        by_contra hge
        have : shared L xs ≤ shared c xs :=
          shared_mono (Nat.le_of_not_lt hge)
        omega
      intro x hx hk
      have := hkeep x hx hk
      omega
  clear h hT
  induction xs with
  | nil => exact Nat.le_refl 0
  | cons x xs ih =>
      have ih := ih fun y hy => hkeep y (List.mem_cons_of_mem _ hy)
      have hx : (if 0 < (Holder.left c x).amount then 1 else 0) ≤
          (if c < x.amount then 1 else 0) := by
        unfold Holder.left
        split
        · next hk =>
            have := hkeep x List.mem_cons_self hk
            split <;> split <;> omega
        · dsimp only
          split <;> split <;> omega
      rw [List.map_cons, pending_cons, pending_cons]
      omega

/-- Where nobody had more than the share of a round that fits, the budget covers
everything. -/
theorem shareable_of_pending_eq_zero (hw : Willing xs)
    (hp : pending c xs = 0) (hfit : shared c xs ≤ T) : Shareable T xs := by
  refine .inl ⟨hw, Nat.le_trans (Nat.le_of_eq ?_) hfit⟩
  clear hfit hw
  induction xs with
  | nil => rfl
  | cons x xs ih =>
      rw [pending_cons] at hp
      split at hp
      · omega
      · rw [held_cons, shared_cons, ih (by omega)]
        omega

/-- A budget that one round uses up is shareable. -/
theorem shareable_of_shared_eq (hw : Willing xs) (h : shared c xs = T) :
    Shareable T xs :=
  .inr ⟨c, fun x hx hk => .inl (hw x hx hk), h⟩

theorem shareable_zero : Shareable 0 xs :=
  .inr ⟨0, fun _ _ _ => .inr (Nat.zero_le _), shared_zero⟩

/-! ## Holders of something -/

/-- The holders who have something. To the sums of a round the others do not
matter. -/
def stocked (xs : List Holder) : List Holder := xs.filter fun x => 0 < x.amount

theorem stocked_cons : stocked (x :: xs) =
    if 0 < x.amount then x :: stocked xs else stocked xs := by
  simp [stocked, List.filter_cons]

theorem shared_stocked : shared c (stocked xs) = shared c xs := by
  induction xs with
  | nil => rfl
  | cons x xs ih =>
      rw [stocked_cons]
      split
      · rw [shared_cons, shared_cons, ih]
      · rw [shared_cons, ih]
        omega

theorem held_stocked : held (stocked xs) = held xs := by
  induction xs with
  | nil => rfl
  | cons x xs ih =>
      rw [stocked_cons]
      split
      · rw [held_cons, held_cons, ih]
      · rw [held_cons, ih]
        omega

theorem pending_stocked : pending c (stocked xs) = pending c xs := by
  induction xs with
  | nil => rfl
  | cons x xs ih =>
      rw [stocked_cons]
      split
      · rw [pending_cons, pending_cons, ih]
      · rw [pending_cons, if_neg (by omega), ih]
        rfl

/-- What is asked of all holders is asked of those who have something. -/
theorem forall_stocked {P : Holder → Prop} (h : ∀ x, x.amount = 0 → P x) :
    (∀ x ∈ stocked xs, P x) ↔ ∀ x ∈ xs, P x := by
  constructor
  · intro hP x hx
    rcases Nat.eq_zero_or_pos x.amount with hz | hpos
    · exact h x hz
    · exact hP x (List.mem_filter.mpr ⟨hx, by simpa using hpos⟩)
  · exact fun hP x hx => hP x (List.mem_filter.mp hx).1

theorem willing_stocked : Willing (stocked xs) ↔ Willing xs :=
  forall_stocked fun _ hz _ => hz

theorem shareable_stocked : Shareable T (stocked xs) ↔ Shareable T xs := by
  have hkeep : ∀ L, (∀ x ∈ stocked xs, x.keeps = true →
      x.amount = 0 ∨ L ≤ x.amount) ↔
      ∀ x ∈ xs, x.keeps = true → x.amount = 0 ∨ L ≤ x.amount :=
    fun L => forall_stocked fun _ hz _ => .inl hz
  simp only [Shareable, willing_stocked, held_stocked, shared_stocked, hkeep]

end

end EcwidDownloader.Lib
