import Mathlib.Data.List.Nodup
import Mathlib.Logic.Relation

/-!
# A ledger of numbered items

Items get consecutive numbers. One that is started runs until it ends, one that
is turned away ends at once, and about an item that has ended a verdict may be
due. The ledger is balanced when no number occurs twice, every number taken is
either running or has ended, and every verdict that is due has been given once,
after the end of its item. Every way of keeping such books that is made of the
four entries below keeps them balanced.
-/

namespace EcwidDownloader.Lib

structure Ledger where
  next : Nat
  running : List Nat
  ended : List Nat := []
  /-- The items that have ended and about which a verdict was due. -/
  owed : List Nat := []
  verdicts : List Nat := []
  /-- How many items were taken on, besides those running at the beginning. -/
  taken : Nat := 0

namespace Ledger

/-- A new item that runs. -/
def start (l : Ledger) : Ledger :=
  { l with
    next := l.next + 1
    running := l.running ++ [l.next]
    taken := l.taken + 1 }

/-- A new item that is turned away, with its verdict. -/
def reject (l : Ledger) : Ledger :=
  { l with
    next := l.next + 1
    ended := l.ended ++ [l.next]
    owed := l.owed ++ [l.next]
    verdicts := l.verdicts ++ [l.next]
    taken := l.taken + 1 }

/-- A running item ends. -/
def finish (before : List Nat) (id : Nat) (after : List Nat) (due given : Bool)
    (l : Ledger) : Ledger :=
  { l with
    running := before ++ after
    ended := l.ended ++ [id]
    owed := if due then l.owed ++ [id] else l.owed
    verdicts := if given then l.verdicts ++ [id] else l.verdicts }

/-- The entries of a ledger. A verdict that is due is given. -/
inductive Step (l : Ledger) : Ledger → Prop
  | start : Step l l.start
  | reject : Step l l.reject
  | finish {before after : List Nat} {id : Nat} {due given : Bool} :
      l.running = before ++ id :: after → (due = true → given = true) →
      Step l (l.finish before id after due given)

abbrev Steps : Ledger → Ledger → Prop := Relation.ReflTransGen Step

/-- The books are balanced, for some number of items to begin with. -/
structure Balanced (initial : Nat) (l : Ledger) : Prop where
  nodup : (l.running ++ l.ended).Nodup
  numbered : ∀ id ∈ l.running ++ l.ended, id < l.next
  count : initial + l.taken = l.running.length + l.ended.length
  verdicts : l.verdicts.Nodup
  given : ∀ id ∈ l.verdicts, id ∈ l.ended
  owed : ∀ id ∈ l.owed, id ∈ l.verdicts

variable {initial : Nat} {l l' : Ledger}

/-- An item that ends moves from one list to the other. -/
theorem finish_perm {before after ended : List Nat} {id : Nat} :
    ((before ++ id :: after) ++ ended).Perm
      ((before ++ after) ++ (ended ++ [id])) := by
  rw [← List.append_assoc]
  refine List.Perm.trans ?_ (List.perm_append_singleton id _).symm
  rw [List.append_assoc, List.cons_append, List.append_assoc]
  exact List.perm_middle

theorem Balanced.not_next_mem (h : Balanced initial l) :
    l.next ∉ l.running ++ l.ended := fun hmem =>
  absurd (h.numbered _ hmem) (Nat.lt_irrefl _)

/-- A new item, wherever it is put, takes a number of its own. -/
theorem Balanced.numbers (h : Balanced initial l) {ids : List Nat}
    (hperm : ids.Perm (l.next :: (l.running ++ l.ended))) :
    ids.Nodup ∧ ∀ id ∈ ids, id < l.next + 1 := by
  refine ⟨hperm.nodup_iff.mpr (List.nodup_cons.mpr ⟨h.not_next_mem, h.nodup⟩),
    fun id hid => ?_⟩
  rcases List.mem_cons.mp (hperm.mem_iff.mp hid) with rfl | hid
  · exact Nat.lt_succ_self _
  · exact Nat.lt_succ_of_lt (h.numbered id hid)

/-- An entry made in two lists at once keeps one within the other. -/
theorem mem_append_of {ids ids' added : List Nat}
    (h : ∀ id ∈ ids, id ∈ ids') : ∀ id ∈ ids ++ added, id ∈ ids' ++ added := by
  intro id hid
  rcases List.mem_append.mp hid with hid | hid
  · exact List.mem_append_left _ (h id hid)
  · exact List.mem_append_right _ hid

theorem Balanced.start (h : Balanced initial l) :
    Balanced initial l.start := by
  have hperm : (l.running ++ [l.next] ++ l.ended).Perm
      (l.next :: (l.running ++ l.ended)) := by
    rw [List.append_assoc, List.singleton_append]
    exact List.perm_middle
  obtain ⟨hnodup, hnumbered⟩ := h.numbers hperm
  refine ⟨hnodup, hnumbered, ?_, h.verdicts, h.given, h.owed⟩
  have hcount := h.count
  simp only [Ledger.start, List.length_append, List.length_singleton]
  omega

theorem Balanced.reject (h : Balanced initial l) :
    Balanced initial l.reject := by
  have hnew : l.next ∉ l.ended := fun hmem =>
    h.not_next_mem (List.mem_append_right _ hmem)
  have hperm : (l.running ++ (l.ended ++ [l.next])).Perm
      (l.next :: (l.running ++ l.ended)) := by
    rw [← List.append_assoc]
    exact List.perm_append_singleton _ _
  obtain ⟨hnodup, hnumbered⟩ := h.numbers hperm
  refine ⟨hnodup, hnumbered, ?_, ?_, mem_append_of h.given,
    mem_append_of h.owed⟩
  · have hcount := h.count
    simp only [Ledger.reject, List.length_append, List.length_singleton]
    omega
  · exact (List.perm_append_singleton _ _).nodup_iff.mpr
      (List.nodup_cons.mpr ⟨fun hmem => hnew (h.given _ hmem), h.verdicts⟩)

theorem Balanced.finish {before after : List Nat} {id : Nat}
    {due given : Bool} (h : Balanced initial l)
    (hrun : l.running = before ++ id :: after)
    (hdue : due = true → given = true) :
    Balanced initial (l.finish before id after due given) := by
  have hperm : (l.running ++ l.ended).Perm
      ((before ++ after) ++ (l.ended ++ [id])) := hrun ▸ finish_perm
  have hnew : id ∉ l.verdicts := by
    intro hmem
    have hdisj := (List.nodup_append.mp h.nodup).2.2
    exact hdisj id (hrun ▸ List.mem_append_right _ List.mem_cons_self) id
      (h.given id hmem) rfl
  refine ⟨hperm.nodup_iff.mp h.nodup, ?_, ?_, ?_, ?_, ?_⟩
  · exact fun id' hid => h.numbered id' (hperm.mem_iff.mpr hid)
  · have hcount := h.count
    rw [hrun] at hcount
    simp only [Ledger.finish, List.length_append, List.length_cons,
      List.length_nil] at hcount ⊢
    omega
  · cases given with
    | false => exact h.verdicts
    | true =>
        have hcons : (id :: l.verdicts).Nodup :=
          List.nodup_cons.mpr ⟨hnew, h.verdicts⟩
        exact (List.perm_append_singleton id l.verdicts).nodup_iff.mpr hcons
  · cases given with
    | false => exact fun id' hid => List.mem_append_left _ (h.given id' hid)
    | true => exact mem_append_of h.given
  · cases due with
    | false =>
        cases given with
        | false => exact h.owed
        | true => exact fun id' hid => List.mem_append_left _ (h.owed id' hid)
    | true =>
        obtain rfl := hdue rfl
        exact mem_append_of h.owed

theorem Balanced.step (h : Balanced initial l) (hs : Step l l') :
    Balanced initial l' := by
  cases hs with
  | start => exact h.start
  | reject => exact h.reject
  | finish hrun hdue => exact h.finish hrun hdue

/-- Any sequence of entries keeps the books balanced. -/
theorem Balanced.steps (h : Balanced initial l) (hs : Steps l l') :
    Balanced initial l' := by
  induction hs with
  | refl => exact h
  | tail _ hs ih => exact ih.step hs

/-- A verdict is not taken back. -/
theorem Step.verdicts_subset (h : Step l l') : l.verdicts ⊆ l'.verdicts := by
  cases h with
  | start => exact List.Subset.refl _
  | reject => exact List.subset_append_left _ _
  | @finish _ _ _ _ given _ _ =>
      cases given with
      | false => exact List.Subset.refl _
      | true => exact List.subset_append_left _ _

theorem Steps.verdicts_subset (h : Steps l l') :
    l.verdicts ⊆ l'.verdicts := by
  induction h with
  | refl => exact List.Subset.refl _
  | tail _ hs ih => exact List.Subset.trans ih hs.verdicts_subset

/-- An item with a verdict has ended, and no other is given on it. -/
theorem Balanced.settled (h : Balanced initial l) {id : Nat}
    (hid : id ∈ l.verdicts) : l.verdicts.count id = 1 ∧ id ∉ l.running := by
  have hdisj := (List.nodup_append.mp h.nodup).2.2
  exact ⟨List.count_eq_one_of_mem h.verdicts hid,
    fun hmem => hdisj id hmem id (h.given id hid) rfl⟩

/-- A verdict that was due has been given exactly once. -/
theorem Balanced.count_verdicts (h : Balanced initial l) {id : Nat}
    (hid : id ∈ l.owed) : l.verdicts.count id = 1 :=
  (h.settled (h.owed id hid)).1

end Ledger

end EcwidDownloader.Lib
