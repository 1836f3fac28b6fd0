import EcwidDownloader.Downloader.Types
import EcwidDownloader.Lib.Run

/-!
# OnTickSimple

The list of the running jobs and what a tick of a downloader does to it. The
list, the task list, the dashboard and the counter of the job ids are objects of
`main` that the source holds by reference; here they are the state the methods
work on. `notes` records what the dashboard does not show.

A position in the list of jobs is kept as the source keeps it, as an iterator:
the jobs before it, the job it stands at, and the jobs after. A method that
throws leaves the state it has reached behind.
-/

namespace EcwidDownloader

structure Task where
  uri : String
  fname : String
  deriving DecidableEq, Repr

/-- A `TaskList` is what it has left to give; at its end `get` gives null. -/
abbrev TaskList := List Task

/-- `Job`, with the downloader as a pointer that may be null. -/
structure Job (D : Type) where
  id : Nat
  fname : String
  redirectCount : Nat := 0
  downloader : Option D := none
  deriving DecidableEq, Repr

/-- The downloader a call of `FactorySimple::create` makes: the pointer it
returns, null when `run` has returned false, and the status `run` has left. -/
structure Creation (D : Type) where
  downloader : Option D := none
  status : StatusDownloader := { state := .failed }
  state : status.state = if downloader.isSome then .onTheGo else .failed := by
    rfl

/-- `create` returned null. -/
def Creation.null {D : Type} : Creation D := {}

/-- `create` returned a downloader, which `run` has set going. -/
def Creation.made {D : Type} (downloader : D) : Creation D :=
  { downloader := some downloader, status := { state := .onTheGo } }

/-- What happens to a task besides its updates: it is taken from the task list,
given to `factory->create`, refused by it, or erased as a job, and whether the
factory was still there. -/
inductive Note
  | took (task : Task)
  | exhausted
  | created (id : Nat) (uri fname : String)
  | rejected (id : Nat)
  | left (id : Nat) (factory : Bool)
  deriving DecidableEq, Repr

structure OnTickSimple (D : Type) where
  jobList : List (Job D) := []
  /-- `weak_factory` has not expired. -/
  factory : Bool := true
  taskList : TaskList := []
  /-- The calls of `dashboard.update`, oldest first. -/
  dashboard : List (Nat × StatusDownloader) := []
  maxRedirect : Nat := 10
  -- the surroundings
  nextId : Nat := 1
  creations : List (Creation D) := []
  notes : List Note := []

namespace OnTickSimple

section

variable {D : Type}

def note (n : Note) (w : OnTickSimple D) : OnTickSimple D :=
  { w with notes := w.notes ++ [n] }

/-- `dashboard.update(id, status)`. -/
def update (id : Nat) (status : StatusDownloader) (w : OnTickSimple D) :
    OnTickSimple D :=
  { w with dashboard := w.dashboard ++ [(id, status)] }

/-- `task_list.get()`, when a task is left. -/
def takeTask (task : Task) (tasks : TaskList) (w : OnTickSimple D) :
    OnTickSimple D :=
  note (.took task) { w with taskList := tasks }

/-- `Job job{fname}`, which counts `generate_id` on. The counter does not come
round: a task takes some bytes of the task file. -/
def makeJob (fname : String) (w : OnTickSimple D) : Job D × OnTickSimple D :=
  ({ id := w.nextId, fname := fname }, { w with nextId := w.nextId + 1 })

/-- What the next call of `create` makes. -/
def creation (w : OnTickSimple D) : Creation D := w.creations.headD .null

/-- `FactorySimple::create`. -/
def create (id : Nat) (uri fname : String) (w : OnTickSimple D) :
    Option D × OnTickSimple D :=
  (w.creation.downloader,
    update id w.creation.status
      (note (.created id uri fname)
        { w with creations := w.creations.tail }))

/-- The lines that the start-up loop of `main` and the loop of `next_task` have in
common: a task is taken, and given to the factory under the id of a new job. -/
def offer (task : Task) (tasks : TaskList) (w : OnTickSimple D) :
    Job D × OnTickSimple D :=
  let w := takeTask task tasks w
  let (job, w) := makeJob task.fname w
  let (downloader, w) := create job.id task.uri task.fname w
  ({ job with downloader := downloader }, w)

/-- An iterator into the list of jobs. -/
structure It (D : Type) where
  before : List (Job D)
  job : Job D
  after : List (Job D)

/-- `job_list.erase(job_it)`. -/
def erase (it : It D) (w : OnTickSimple D) : OnTickSimple D :=
  note (.left it.job.id w.factory)
    { w with jobList := it.before ++ it.after }

/-- The job of the iterator written back to the list. -/
def store (it : It D) (w : OnTickSimple D) : OnTickSimple D :=
  { w with jobList := it.before ++ it.job :: it.after }

/-- The loop of `next_task`, on the task list it finds. -/
def nextTaskLoop : TaskList → OnTickSimple D → OnTickSimple D
  | [], w => note .exhausted w
  | task :: tasks, w =>
      let (job, w) := offer task tasks w
      if job.downloader.isNone then
        nextTaskLoop tasks (note (.rejected job.id) w)
      else { w with jobList := w.jobList ++ [job] }

def nextTask (it : It D) (w : OnTickSimple D) : OnTickSimple D :=
  let w := erase it w
  if !w.factory then w else nextTaskLoop w.taskList w

def redirect (it : It D) (uri : String) (w : OnTickSimple D) :
    OnTickSimple D :=
  let it := { it with job.redirectCount := it.job.redirectCount + 1 }
  let w := store it w
  if w.maxRedirect < it.job.redirectCount then
    let status : StatusDownloader :=
      { state := .failed, stateStr := "Maximum count redirect" }
    nextTask it (update it.job.id status w)
  else if w.factory then
    let (downloader, w) := create it.job.id uri it.job.fname w
    let it := { it with job.downloader := downloader }
    let w := store it w
    if it.job.downloader.isNone then nextTask it w else w
  else erase it w

variable [DecidableEq D]

/-- `find_job`. -/
def findJob (downloader : D) : List (Job D) → Except String (It D)
  | [] => .error "OnTickSimple => invalid Downloader"
  | job :: jobs =>
      if job.downloader = some downloader then .ok ⟨[], job, jobs⟩
      else (findJob downloader jobs).map fun it =>
        { it with before := job :: it.before }

/-- `invoke`, for a downloader with its `status()`: what it throws, and the
state it leaves. -/
def invoke (downloader : D) (status : StatusDownloader)
    (w : OnTickSimple D) : Option String × OnTickSimple D :=
  match findJob downloader w.jobList with
  | .error what => (some what, w)
  | .ok it =>
      let w := update it.job.id status w
      match status.state with
      | .done | .failed => (none, nextTask it w)
      | .redirect => (none, redirect it status.redirectUri w)
      | .init | .onTheGo => (none, w)

/-! ## The runs -/

inductive Event (D : Type)
  /-- A downloader ticks; the downloaders made meanwhile are given. -/
  | invoke (downloader : D) (status : StatusDownloader)
      (creations : List (Creation D))
  /-- The factory is given up. -/
  | expire

/-- No downloader is made in the place of one that is still there. -/
def Fresh (creations : List (Creation D)) (downloader : D)
    (w : OnTickSimple D) : Prop :=
  ∀ creation ∈ creations, creation.downloader ≠ some downloader ∧
    ∀ job ∈ w.jobList, creation.downloader.isSome = true →
      creation.downloader ≠ job.downloader

instance (creations : List (Creation D)) (downloader : D)
    (w : OnTickSimple D) : Decidable (Fresh creations downloader w) :=
  inferInstanceAs (Decidable (∀ creation ∈ creations, _ ∧ ∀ job ∈ w.jobList,
    _ → _))

def step (w : OnTickSimple D) : Event D → Option (OnTickSimple D)
  | .invoke downloader status creations =>
      if Fresh creations downloader w then
        some (invoke downloader status { w with creations := creations }).2
      else none
  | .expire => some { w with factory := false }

abbrev Runs : OnTickSimple D → List (OnTickSimple D × Event D) →
    OnTickSimple D → Prop :=
  Lib.Run (Lib.Graph step)

/-! ## main -/

/-- The start-up loop of `main`. -/
def startUp : Nat → OnTickSimple D → OnTickSimple D
  | 0, w => w
  | n + 1, w =>
      match w.taskList with
      | [] => note .exhausted w
      | task :: tasks =>
          let (job, w) := offer task tasks w
          if job.downloader.isNone then
            startUp n (note (.rejected job.id) w)
          else startUp n { w with jobList := w.jobList ++ [job] }

end

end OnTickSimple

end EcwidDownloader
