import Mathlib.Data.List.Forall2
import EcwidDownloader.Lib.Run

/-!
# Systems of components

A system that grows: its state has a list of components, an event of the system
lets some of them take a step of their own, one after the other, and new ones
are appended. Whatever order the components take their turns in, each is then
where a run of its own leads, from the start it was given. `Reached` says so for
all of them at once, and it is kept by the two things that can happen to the
list. What is known of the runs of one component is known of every component of
the system by `Reached.get`.
-/

namespace EcwidDownloader.Lib

section

variable {β τ η : Type*} {Step : τ → η → τ → Prop} {start : β → τ}

/-- Every component is where some run leads from the start at its place. -/
def Reached (Step : τ → η → τ → Prop) (start : β → τ) (bs : List β)
    (xs : List τ) : Prop :=
  List.Forall₂ (fun b x => ∃ hist, Run Step (start b) hist x) bs xs

variable {bs bs' : List β} {xs : List τ}

theorem Reached.starts : ∀ bs : List β, Reached Step start bs (bs.map start)
  | [] => .nil
  | _ :: bs => .cons ⟨[], .nil⟩ (Reached.starts bs)

/-- New components. -/
theorem Reached.spawn (h : Reached Step start bs xs) (bs' : List β) :
    Reached Step start (bs ++ bs') (xs ++ bs'.map start) :=
  List.rel_append h (Reached.starts bs')

/-- A step of the component at a place. -/
theorem Reached.move : ∀ {bs : List β} {xs : List τ} {i : Nat} {x x' : τ}
    {e : η}, Reached Step start bs xs → xs[i]? = some x → Step x e x' →
    Reached Step start bs (xs.set i x')
  | _, _, 0, _, _, _, .cons ⟨hist, hr⟩ htail, hx, hs => by
      cases hx
      exact .cons ⟨_, hr.snoc hs⟩ htail
  | _, _, i + 1, _, _, _, .cons hhead htail, hx, hs => by
      rw [List.getElem?_cons_succ] at hx
      exact .cons hhead (Reached.move htail hx hs)

theorem Reached.get : ∀ {bs : List β} {xs : List τ} {i : Nat} {x : τ},
    Reached Step start bs xs → xs[i]? = some x →
    ∃ b hist, bs[i]? = some b ∧ Run Step (start b) hist x
  | _, _, 0, _, .cons ⟨hist, hr⟩ _, hx => by
      cases hx
      exact ⟨_, hist, rfl, hr⟩
  | _, _, _ + 1, _, .cons _ htail, hx => by
      rw [List.getElem?_cons_succ] at hx
      obtain ⟨b, hist, hb, hr⟩ := Reached.get htail hx
      exact ⟨b, hist, hb, hr⟩

theorem Reached.length_eq (h : Reached Step start bs xs) :
    bs.length = xs.length :=
  List.Forall₂.length_eq h

/-- The invariant rule: what holds of every start and is kept by every step of a
component holds of every component. -/
theorem Reached.invariant {I : τ → Prop} (h : Reached Step start bs xs)
    (h0 : ∀ b ∈ bs, I (start b)) (hstep : ∀ t e u, I t → Step t e u → I u)
    {x : τ} (hx : x ∈ xs) : I x := by
  obtain ⟨i, hi⟩ := List.getElem?_of_mem hx
  obtain ⟨b, hist, hb, hr⟩ := h.get hi
  exact hr.invariant' I (h0 b (List.mem_of_getElem? hb)) hstep

/-- What is collected from all components grows by what one of them adds. -/
theorem collected_set {γ : Type*} {f : τ → List γ} {x x' : τ}
    {more : List γ} (hf : f x' = f x ++ more) :
    ∀ {xs : List τ} {i : Nat}, xs[i]? = some x →
    ((xs.set i x').flatMap f).Perm (xs.flatMap f ++ more)
  | y :: xs, 0, hx => by
      cases hx
      rw [List.set_cons_zero, List.flatMap_cons, List.flatMap_cons, hf,
        List.append_assoc, List.append_assoc]
      exact List.Perm.append_left _ List.perm_append_comm
  | y :: xs, i + 1, hx => by
      rw [List.getElem?_cons_succ] at hx
      rw [List.set_cons_succ, List.flatMap_cons, List.flatMap_cons,
        List.append_assoc]
      exact List.Perm.append_left _ (collected_set hf hx)

end

end EcwidDownloader.Lib
