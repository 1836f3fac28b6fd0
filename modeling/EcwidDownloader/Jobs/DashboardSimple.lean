import Mathlib.Algebra.BigOperators.Group.List.Basic
import Mathlib.Algebra.GroupWithZero.Nat
import EcwidDownloader.Aio.BandwidthController
import EcwidDownloader.Jobs.OnTickSimple

/-!
# DashboardSimple

What the user sees. A line for every task that ends or is redirected, and two
counters that `main` prints at the end. The time of day in front of a line is the
clock's, a parameter here.
-/

namespace EcwidDownloader

structure DashboardSimple where
  doneTasks : Nat := 0
  totalDownloaded : Nat := 0
  /-- The lines written to `std::cout`. -/
  out : List String := []
  deriving DecidableEq, Repr

namespace DashboardSimple

/-- `update`, at a time. -/
def update (time : String) (jobId : Nat) (status : StatusDownloader)
    (d : DashboardSimple) : DashboardSimple :=
  let head := time ++ "#" ++ toString jobId
  match status.state with
  | .done =>
      { doneTasks := (d.doneTasks + 1) % sizeModulus
        totalDownloaded := (d.totalDownloaded + status.downloaded) % sizeModulus
        out := d.out ++ [head ++ " State: Done"] }
  | .failed =>
      { d with
        out := d.out ++ [head ++ " State: Failed, error: " ++ status.stateStr] }
  | .redirect =>
      { d with
        out := d.out ++
          [head ++ " State: Redirect, status: " ++ status.stateStr] }
  | .init | .onTheGo => d

/-- The dashboard after some calls of `update`, each at its time. -/
def shown (clock : Nat → String) (updates : List (Nat × StatusDownloader)) :
    DashboardSimple :=
  updates.zipIdx.foldl (fun d u => update (clock u.2) u.1.1 u.1.2 d) {}

/-- The last two lines of `main`. -/
def summary (seconds : Nat) (d : DashboardSimple) : List String :=
  ["---------------",
    "Done tasks: " ++ toString d.doneTasks ++ ", total downloaded: " ++
      toString d.totalDownloaded ++ " bytes, time elapsed: " ++
      toString seconds ++ " seconds"]

/-- The bytes an update adds to the counter. -/
def counted (u : Nat × StatusDownloader) : Option Nat :=
  if u.2.state = .done then some u.2.downloaded else none

/-- The line an update writes. -/
def line (time : String) (u : Nat × StatusDownloader) : Option String :=
  let head := time ++ "#" ++ toString u.1
  match u.2.state with
  | .done => some (head ++ " State: Done")
  | .failed => some (head ++ " State: Failed, error: " ++ u.2.stateStr)
  | .redirect => some (head ++ " State: Redirect, status: " ++ u.2.stateStr)
  | .init | .onTheGo => none

theorem update_eq (time : String) (u : Nat × StatusDownloader)
    (d : DashboardSimple) :
    update time u.1 u.2 d =
      { doneTasks := if u.2.state = .done then (d.doneTasks + 1) % sizeModulus
          else d.doneTasks
        totalDownloaded := if u.2.state = .done then
          (d.totalDownloaded + u.2.downloaded) % sizeModulus
          else d.totalDownloaded
        out := d.out ++ (line time u).toList } := by
  unfold update line
  cases u.2.state <;> simp

/-- The counters in terms of the updates, in `size_t`. -/
theorem counters_foldl (clock : Nat → String) :
    ∀ (updates : List ((Nat × StatusDownloader) × Nat)) {d : DashboardSimple}
      {n b : Nat}, d.doneTasks = n % sizeModulus →
    d.totalDownloaded = b % sizeModulus →
    let d' := updates.foldl (fun d u => update (clock u.2) u.1.1 u.1.2 d) d
    d'.doneTasks =
        (n + (updates.filterMap fun u => counted u.1).length) % sizeModulus ∧
      d'.totalDownloaded =
        (b + (updates.filterMap fun u => counted u.1).sum) % sizeModulus
  | [], d, n, b, hn, hb => ⟨hn, hb⟩
  | u :: updates, d, n, b, hn, hb => by
      have heq := update_eq (clock u.2) u.1 d
      by_cases hdone : u.1.2.state = .done
      · have hcounted : counted u.1 = some u.1.2.downloaded := if_pos hdone
        simp only [if_pos hdone] at heq
        have hn' : (update (clock u.2) u.1.1 u.1.2 d).doneTasks =
            (n + 1) % sizeModulus := by
          rw [heq, hn, Nat.mod_add_mod]
        have hb' : (update (clock u.2) u.1.1 u.1.2 d).totalDownloaded =
            (b + u.1.2.downloaded) % sizeModulus := by
          rw [heq, hb, Nat.mod_add_mod]
        have hrest := counters_foldl clock updates hn' hb'
        simp only [List.foldl_cons, List.filterMap_cons, hcounted,
          List.length_cons, List.sum_cons] at hrest ⊢
        rw [Nat.add_right_comm n, Nat.add_assoc b] at hrest
        exact hrest
      · have hcounted : counted u.1 = none := if_neg hdone
        simp only [if_neg hdone] at heq
        have hrest := counters_foldl clock updates
          (d := update (clock u.2) u.1.1 u.1.2 d) (by rw [heq]; exact hn)
          (by rw [heq]; exact hb)
        simp only [List.foldl_cons, List.filterMap_cons, hcounted] at hrest ⊢
        exact hrest

/-- What the two counters are: the updates with `Done`, and what these say was
downloaded. -/
theorem counters_shown (clock : Nat → String)
    (updates : List (Nat × StatusDownloader)) :
    (shown clock updates).doneTasks =
        (updates.filterMap counted).length % sizeModulus ∧
      (shown clock updates).totalDownloaded =
        (updates.filterMap counted).sum % sizeModulus := by
  have hfirst : (updates.zipIdx.filterMap fun u => counted u.1) =
      updates.filterMap counted := by
    have hmap : updates.zipIdx.map Prod.fst = updates :=
      List.zipIdx_map_fst 0 updates
    conv_rhs => rw [← hmap, List.filterMap_map]
    rfl
  have hall := counters_foldl clock updates.zipIdx (d := {}) (n := 0) (b := 0)
    rfl rfl
  rw [hfirst, Nat.zero_add, Nat.zero_add] at hall
  exact hall

end DashboardSimple

end EcwidDownloader
