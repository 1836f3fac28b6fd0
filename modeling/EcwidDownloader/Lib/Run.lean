import Mathlib.Data.List.Basic

/-!
# Runs of an event driven system

A system here is a relation `Step s e t`: in state `s` the event `e` may
occur, and the callbacks it triggers leave the system in `t`. What a single
threaded event loop can do from a state is then a `Run`, and a run keeps its
whole history, the state each event found together with the event itself.

The history is what makes a conditional safety claim expressible: "every step
of the run met the condition" is a statement about the pairs of the history,
and `Run.invariant` turns a step lemma under that condition into a statement
about the last state. `Run.prefix_of_mem` hands the same argument to every
state passed on the way, since a prefix of a run is a run.
-/

namespace EcwidDownloader.Lib

/-- The runs of a system from a state, with the history of the states the
events found. -/
inductive Run {σ ε : Type*} (Step : σ → ε → σ → Prop) (s : σ) :
    List (σ × ε) → σ → Prop
  | nil : Run Step s [] s
  | snoc {t u : σ} {e : ε} {hist : List (σ × ε)} :
      Run Step s hist t → Step t e u → Run Step s (hist ++ [(t, e)]) u

/-- Every event of a history met the condition in the state it found. -/
def Meets {σ ε : Type*} (C : σ → ε → Prop) (hist : List (σ × ε)) : Prop :=
  ∀ p ∈ hist, C p.1 p.2

section

variable {σ ε : Type*} {Step : σ → ε → σ → Prop} {C : σ → ε → Prop}

theorem Meets.nil : Meets C [] := fun _ hp => absurd hp List.not_mem_nil

theorem Meets.snoc_iff {hist : List (σ × ε)} {t : σ} {e : ε} :
    Meets C (hist ++ [(t, e)]) ↔ Meets C hist ∧ C t e := by
  constructor
  · intro h
    refine ⟨fun p hp => h p (List.mem_append_left _ hp), ?_⟩
    exact h (t, e) (List.mem_append_right _ (List.mem_singleton_self _))
  · rintro ⟨h, he⟩ p hp
    rcases List.mem_append.mp hp with hp | hp
    · exact h p hp
    · rw [List.mem_singleton] at hp
      subst hp
      exact he

/-- The invariant rule: what holds at the start and is kept by every step that
meets the condition holds at the end of every run all of whose steps meet it. -/
theorem Run.invariant {s t : σ} {hist : List (σ × ε)} (I : σ → Prop)
    (h : Run Step s hist t) (hC : Meets C hist) (h0 : I s)
    (hstep : ∀ t e u, I t → C t e → Step t e u → I u) : I t := by
  induction h with
  | nil => exact h0
  | snoc _ hs ih =>
      obtain ⟨hC, he⟩ := Meets.snoc_iff.mp hC
      exact hstep _ _ _ (ih hC) he hs

/-- The invariant rule without a condition on the steps. -/
theorem Run.invariant' {s t : σ} {hist : List (σ × ε)} (I : σ → Prop)
    (h : Run Step s hist t) (h0 : I s)
    (hstep : ∀ t e u, I t → Step t e u → I u) : I t :=
  h.invariant (C := fun _ _ => True) I (fun _ _ => trivial) h0
    (fun t e u hI _ hs => hstep t e u hI hs)

/-- The states a run passes: those its events found, and the one it ends in. -/
def Passes (hist : List (σ × ε)) (t x : σ) : Prop :=
  x = t ∨ ∃ e, (x, e) ∈ hist

theorem Passes.last {hist : List (σ × ε)} {t : σ} : Passes hist t t := .inl rfl

theorem Passes.snoc {hist : List (σ × ε)} {t u x : σ} {e : ε}
    (h : Passes hist t x) : Passes (hist ++ [(t, e)]) u x := by
  rcases h with rfl | ⟨e', he⟩
  · exact .inr ⟨e, List.mem_append_right _ (List.mem_singleton_self _)⟩
  · exact .inr ⟨e', List.mem_append_left _ he⟩

/-- A run passes the state it starts in. -/
theorem Run.passes_start {s t : σ} {hist : List (σ × ε)}
    (h : Run Step s hist t) : Passes hist t s := by
  induction h with
  | nil => exact .last
  | snoc _ _ ih => exact ih.snoc

/-- A state of the history was itself reached by a run, whose history is an
initial part of the whole. -/
theorem Run.prefix_of_mem {s t : σ} {hist : List (σ × ε)}
    (h : Run Step s hist t) {p : σ × ε} (hp : p ∈ hist) :
    ∃ pre, Run Step s pre p.1 ∧ ∀ q ∈ pre, q ∈ hist := by
  induction h with
  | nil => exact absurd hp List.not_mem_nil
  | @snoc t u e hist hr hs ih =>
      rcases List.mem_append.mp hp with hp | hp
      · obtain ⟨pre, hpre, hsub⟩ := ih hp
        exact ⟨pre, hpre, fun q hq => List.mem_append_left _ (hsub q hq)⟩
      · rw [List.mem_singleton] at hp
        subst hp
        exact ⟨hist, hr, fun q hq => List.mem_append_left _ hq⟩

/-- What holds at the end of every run that meets the condition holds in every
state such a run passes. -/
theorem Run.always {s t : σ} {hist : List (σ × ε)} {P : σ → Prop}
    (h : Run Step s hist t) (hC : Meets C hist)
    (hP : ∀ {hist' t'}, Run Step s hist' t' → Meets C hist' → P t') {x : σ}
    (hx : Passes hist t x) : P x := by
  rcases hx with rfl | ⟨e, he⟩
  · exact hP h hC
  · obtain ⟨pre, hpre, hsub⟩ := h.prefix_of_mem he
    exact hP hpre (fun q hq => hC q (hsub q hq))

/-- When a step that misses the condition always leads to a state without the
property, the condition is not only enough but what the property comes to. -/
theorem Run.always_iff {s t : σ} {hist : List (σ × ε)} {P : σ → Prop}
    (h : Run Step s hist t)
    (hP : ∀ {hist' t'}, Run Step s hist' t' → Meets C hist' → P t')
    (hbad : ∀ {hist' t' e u}, Run Step s hist' t' → Meets C hist' →
      Step t' e u → ¬ C t' e → ¬ P u) :
    (∀ x, Passes hist t x → P x) ↔ Meets C hist := by
  constructor
  · intro hall
    induction h with
    | nil => exact Meets.nil
    | @snoc t u e hist hr hs ih =>
        have hC := ih fun x hx => hall x hx.snoc
        refine Meets.snoc_iff.mpr ⟨hC, ?_⟩
        by_contra he
        exact hbad hr hC hs he (hall u .last)
  · intro hC x hx
    exact h.always hC hP hx

/-- What no step ends holds from then on. -/
theorem Run.stays {s t x : σ} {hist : List (σ × ε)} {P : σ → Prop}
    (h : Run Step s hist t) (hP : ∀ {t e u}, P t → Step t e u → P u)
    (hx : Passes hist t x) (hpx : P x) : P t := by
  induction h with
  | nil =>
      rcases hx with rfl | ⟨e, he⟩
      · exact hpx
      · exact absurd he List.not_mem_nil
  | @snoc t u e hist _ hs ih =>
      rcases hx with rfl | ⟨e', he⟩
      · exact hpx
      · rcases List.mem_append.mp he with he | he
        · exact hP (ih (.inr ⟨e', he⟩)) hs
        · simp only [List.mem_singleton, Prod.mk.injEq] at he
          obtain ⟨rfl, -⟩ := he
          exact hP hpx hs

/-- What an event brings about and no step ends holds from then on. -/
theorem Run.since {s t x : σ} {e : ε} {hist : List (σ × ε)} {P : σ → Prop}
    (h : Run Step s hist t) (hP : ∀ {t e u}, P t → Step t e u → P u)
    (hx : (x, e) ∈ hist) (he : ∀ u, Step x e u → P u) : P t := by
  induction h with
  | nil => exact absurd hx List.not_mem_nil
  | @snoc t u e' hist _ hs ih =>
      rcases List.mem_append.mp hx with hx | hx
      · exact hP (ih hx) hs
      · simp only [List.mem_singleton, Prod.mk.injEq] at hx
        obtain ⟨rfl, rfl⟩ := hx
        exact he u hs

/-- A run of a system is a run of every system that can do as much. -/
theorem Run.mono {Step' : σ → ε → σ → Prop} {s t : σ} {hist : List (σ × ε)}
    (h : Run Step s hist t) (hstep : ∀ s e t, Step s e t → Step' s e t) :
    Run Step' s hist t := by
  induction h with
  | nil => exact .nil
  | snoc _ hs ih => exact ih.snoc (hstep _ _ _ hs)

/-- A run all of whose events satisfy a condition is a run of the system that
has only such events. -/
theorem Run.restrict {s t : σ} {hist : List (σ × ε)} {F : σ → ε → Prop}
    (h : Run Step s hist t) (hF : Meets F hist) :
    Run (fun s e t => Step s e t ∧ F s e) s hist t := by
  induction h with
  | nil => exact .nil
  | snoc _ hs ih =>
      obtain ⟨hF, he⟩ := Meets.snoc_iff.mp hF
      exact (ih hF).snoc ⟨hs, he⟩

theorem Run.meets {s t : σ} {hist : List (σ × ε)} {F : σ → ε → Prop}
    (h : Run (fun s e t => Step s e t ∧ F s e) s hist t) : Meets F hist := by
  induction h with
  | nil => exact Meets.nil
  | snoc _ hs ih => exact Meets.snoc_iff.mpr ⟨ih, hs.2⟩

/-- The steps of a run start in states with its invariant. -/
theorem Run.along {s t : σ} {hist : List (σ × ε)} {I : σ → Prop}
    (h : Run Step s hist t) (h0 : I s)
    (hstep : ∀ t e u, I t → Step t e u → I u) :
    Run (fun s e t => I s ∧ Step s e t) s hist t := by
  induction h with
  | nil => exact .nil
  | snoc hr hs ih => exact ih.snoc ⟨hr.invariant' I h0 hstep, hs⟩

/-- Runs compose. -/
theorem Run.append {s t u : σ} {h₁ h₂ : List (σ × ε)} (ha : Run Step s h₁ t)
    (hb : Run Step t h₂ u) : Run Step s (h₁ ++ h₂) u := by
  induction hb with
  | nil => rw [List.append_nil]; exact ha
  | snoc _ hs ih => rw [← List.append_assoc]; exact ih.snoc hs

end

/-! ## Sums along a run -/

/-- What the steps of a history that ends in `last` contribute together. -/
def tally {σ ε : Type*} (f : σ → ε → σ → Nat) : List (σ × ε) → σ → Nat
  | [], _ => 0
  | (s, e) :: hist, last =>
      f s e ((hist.head?.map Prod.fst).getD last) + tally f hist last

theorem tally_snoc {σ ε : Type*} {f : σ → ε → σ → Nat} {t u : σ} {e : ε}
    {hist : List (σ × ε)} :
    tally f (hist ++ [(t, e)]) u = tally f hist t + f t e u := by
  induction hist with
  | nil => simp [tally]
  | cons p hist ih =>
      have hnext : (((hist ++ [(t, e)]).head?.map Prod.fst).getD u) =
          ((hist.head?.map Prod.fst).getD t) := by
        cases hist <;> rfl
      rw [List.cons_append, tally, tally, hnext, ih, Nat.add_assoc]

section

variable {σ ε : Type*} {Step : σ → ε → σ → Prop} {s t : σ}
  {hist : List (σ × ε)} {f g k : σ → ε → σ → Nat}

theorem Run.tally_le (h : Run Step s hist t)
    (hle : ∀ t e u, Step t e u → f t e u ≤ g t e u) :
    tally f hist t ≤ tally g hist t := by
  induction h with
  | nil => exact Nat.le_refl _
  | snoc _ hs ih =>
      rw [tally_snoc, tally_snoc]
      exact Nat.add_le_add ih (hle _ _ _ hs)

theorem Run.tally_congr (h : Run Step s hist t)
    (heq : ∀ t e u, Step t e u → f t e u = g t e u) :
    tally f hist t = tally g hist t :=
  Nat.le_antisymm (h.tally_le fun t e u hs => Nat.le_of_eq (heq t e u hs))
    (h.tally_le fun t e u hs => Nat.le_of_eq (heq t e u hs).symm)

/-- Accounts that balance in every step balance over the run. -/
theorem Run.tally_balance {a b : Nat} (h : Run Step s hist t)
    (heq : ∀ t e u, Step t e u → a * f t e u + g t e u = b * k t e u) :
    a * tally f hist t + tally g hist t = b * tally k hist t := by
  induction h with
  | nil => rfl
  | snoc _ hs ih =>
      have hstep := heq _ _ _ hs
      rw [tally_snoc, tally_snoc, tally_snoc, Nat.mul_add, Nat.mul_add]
      omega

end

/-! ## Systems given by a function

Where the events carry every choice the surroundings make, the step relation is
the graph of a partial function, and a run can be computed. -/

/-- The step relation of a partial function. -/
def Graph {σ ε : Type*} (f : σ → ε → Option σ) (s : σ) (e : ε) (t : σ) : Prop :=
  f s e = some t

/-- The history and the last state after a list of events. -/
def exec {σ ε : Type*} (f : σ → ε → Option σ) :
    σ → List ε → Option (List (σ × ε) × σ)
  | s, [] => some ([], s)
  | s, e :: es =>
      match f s e with
      | none => none
      | some t => (exec f t es).map fun r => ((s, e) :: r.1, r.2)

theorem exec_cons {σ ε : Type*} {f : σ → ε → Option σ} {e : ε} {es : List ε}
    {s t : σ} {hist : List (σ × ε)} (h : exec f s (e :: es) = some (hist, t)) :
    ∃ s₁ rest, f s e = some s₁ ∧ exec f s₁ es = some (rest, t) ∧
      hist = (s, e) :: rest := by
  rw [exec] at h
  cases hf : f s e with
  | none => rw [hf] at h; cases h
  | some s₁ =>
      rw [hf] at h
      obtain ⟨⟨rest, t'⟩, hrest, heq⟩ := Option.map_eq_some_iff.mp h
      cases heq
      exact ⟨s₁, rest, rfl, hrest, rfl⟩

theorem run_of_exec {σ ε : Type*} {f : σ → ε → Option σ} :
    ∀ {es : List ε} {s t : σ} {hist : List (σ × ε)},
    exec f s es = some (hist, t) → Run (Graph f) s hist t
  | [], s, t, hist, h => by
      cases h
      exact .nil
  | e :: es, s, t, hist, h => by
      obtain ⟨s₁, rest, hf, hrest, rfl⟩ := exec_cons h
      have hhead : Run (Graph f) s [(s, e)] s₁ := Run.nil.snoc hf
      exact hhead.append (run_of_exec hrest)

/-- The condition holds of every event of a list, each in the state it finds. -/
def Along {σ ε : Type*} (f : σ → ε → Option σ) (C : σ → ε → Prop) :
    σ → List ε → Prop
  | _, [] => True
  | s, e :: es => C s e ∧ ∀ t, f s e = some t → Along f C t es

theorem meets_of_along {σ ε : Type*} {f : σ → ε → Option σ}
    {C : σ → ε → Prop} : ∀ {es : List ε} {s t : σ} {hist : List (σ × ε)},
    exec f s es = some (hist, t) → Along f C s es → Meets C hist
  | [], s, t, hist, h, _ => by
      cases h
      exact Meets.nil
  | e :: es, s, t, hist, h, ha => by
      obtain ⟨s₁, rest, hf, hrest, rfl⟩ := exec_cons h
      intro p hp
      rcases List.mem_cons.mp hp with rfl | hp
      · exact ha.1
      · exact meets_of_along hrest (ha.2 s₁ hf) p hp

/-- A condition on the events of a list, whatever state they find. -/
theorem meets_of_forall {σ ε : Type*} {f : σ → ε → Option σ} {C : ε → Prop} :
    ∀ {es : List ε} {s t : σ} {hist : List (σ × ε)},
    exec f s es = some (hist, t) → (∀ e ∈ es, C e) → Meets (fun _ => C) hist
  | [], s, t, hist, h, _ => by
      cases h
      exact Meets.nil
  | e :: es, s, t, hist, h, hC => by
      obtain ⟨s₁, rest, -, hrest, rfl⟩ := exec_cons h
      intro p hp
      rcases List.mem_cons.mp hp with rfl | hp
      · exact hC e List.mem_cons_self
      · exact meets_of_forall hrest
          (fun e he => hC e (List.mem_cons_of_mem _ he)) p hp

/-- A loop over a list keeps what each of its turns keeps. What is kept may speak
of the elements still to come. -/
theorem foldlM_keeps {σ ε : Type*} {f : σ → ε → Option σ}
    {I : List ε → σ → Prop}
    (hturn : ∀ {e es s t}, I (e :: es) s → f s e = some t → I es t) :
    ∀ {es : List ε} {s t : σ}, I es s → es.foldlM f s = some t → I [] t
  | [], s, t, h, ht => by
      have heq : s = t := Option.some.inj ht
      exact heq ▸ h
  | e :: es, s, t, h, ht => by
      rw [List.foldlM_cons] at ht
      obtain ⟨s₁, h₁, hrest⟩ := Option.bind_eq_some_iff.mp ht
      exact foldlM_keeps hturn (hturn h h₁) hrest

end EcwidDownloader.Lib
