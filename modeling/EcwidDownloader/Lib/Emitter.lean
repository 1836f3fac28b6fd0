import Mathlib.Data.List.Basic

/-!
# One-shot listeners

An event emitter in the style of `uvw::Emitter`: a listener is registered for
one kind of event, publishing that kind takes its listeners out of the registry
before any of them runs, and the latest registered one runs first. A registry is
the list of its listeners in order of registration, so all of this is list
filtering; what a listener does when it runs is the business of the model that
owns the registry.
-/

namespace EcwidDownloader.Lib

/-- Listeners know the kind of event they were registered for. -/
class Listens (α : Type*) (κ : outParam Type*) where
  kind : α → κ

namespace Emitter

variable {α κ : Type*} [Listens α κ] [DecidableEq κ]

/-- `once`: register a listener. -/
def once (l : α) (registry : List α) : List α := registry ++ [l]

/-- `clear<E>()`: forget the listeners of one kind. -/
def clearKind (k : κ) (registry : List α) : List α :=
  registry.filter fun l => Listens.kind l ≠ k

/-- The listeners a published event runs, in the order it runs them. -/
def taken (k : κ) (registry : List α) : List α :=
  (registry.filter fun l => Listens.kind l = k).reverse

@[simp] theorem taken_nil (k : κ) : taken k ([] : List α) = [] := rfl

@[simp] theorem clearKind_nil (k : κ) : clearKind k ([] : List α) = [] := rfl

theorem taken_once (k : κ) (l : α) (registry : List α) :
    taken k (once l registry) =
      if Listens.kind l = k then l :: taken k registry
      else taken k registry := by
  unfold taken once
  by_cases h : Listens.kind l = k <;> simp [List.filter_append, h]

theorem taken_clearKind (k k' : κ) (registry : List α) :
    taken k (clearKind k' registry) =
      if k = k' then [] else taken k registry := by
  unfold taken clearKind
  rw [List.filter_filter]
  by_cases h : k = k'
  · subst h
    rw [if_pos rfl, List.reverse_eq_nil_iff, List.filter_eq_nil_iff]
    intro l _
    simp
  · rw [if_neg h]
    congr 1
    apply List.filter_congr
    intro l _
    by_cases hl : Listens.kind l = k
    · simp [hl, h]
    · simp [hl]

end Emitter

end EcwidDownloader.Lib
