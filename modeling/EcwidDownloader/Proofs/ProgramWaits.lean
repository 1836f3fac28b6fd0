import EcwidDownloader.Proofs.DownloaderWaits
import EcwidDownloader.Proofs.ProgramStaff

/-!
# What the jobs wait for

Every job of the program has a download that goes on. So in a run in which no
shutdown fails, and none completes while the file of a complete response is open
and idle, no job is left alone: whatever else the surroundings do, something of
its download is in flight and is listened for.
-/

namespace EcwidDownloader

open Lib

namespace Program

variable {S P : Type} [TCPSocket S] [HttpParser P]
  {T : DownloaderSimple.Traffic S} {concurrency : Nat} {tasks : TaskList}
  {born : List (Birth S)}
  {p₀ p : Program S P} {hist : List (Program S P × Event S)}

/-- What a downloader is to do: its shutdown is in flight or fails in the call,
and it does nothing that leaves it with its file at most. -/
def Heeded (T : DownloaderSimple.Traffic S) (w : DownloaderSimple.World S P)
    (o : DownloaderSimple.Occurrence S) : Prop :=
  T.Starts w o ∧ DownloaderSimple.Overseen T w o

instance [∀ s, Decidable (T.carries .shutdown s)]
    (w : DownloaderSimple.World S P) (o : DownloaderSimple.Occurrence S) :
    Decidable (Heeded T w o) :=
  inferInstanceAs (Decidable (_ ∧ _))

/-- A downloader is poised, or its download does not go on. -/
def PoisedIfGoing (T : DownloaderSimple.Traffic S)
    (w : DownloaderSimple.World S P) : Prop :=
  DownloaderSimple.Poised T w ∨
    DownloaderSimple.Standing w ∧ ¬ DownloaderSimple.Going w

theorem poised_birth (b : Birth S) : PoisedIfGoing T (b.world P) := by
  rcases b.run_or P with ⟨-, hstarted⟩ | ⟨-, hrefused⟩
  · exact .inl (DownloaderSimple.started_poised hstarted)
  · exact .inr ⟨.unstarted hrefused, hrefused.not_going⟩

theorem PoisedIfGoing.step {w w' : DownloaderSimple.World S P}
    {o : DownloaderSimple.Occurrence S}
    (hread : ∀ s, T.carries .shutdown s →
      T.carries .shutdown (TCPSocket.read s))
    (h : PoisedIfGoing T w) (hd : StepUnder (Heeded T) w o w') :
    PoisedIfGoing T w' := by
  obtain ⟨hs, ⟨hstarts, ho⟩, hstop⟩ := hd
  rcases h with hp | ⟨hstanding, hno⟩
  · rcases hp.step hread hstarts ho hs with hp' | hfinal
    · exact .inl hp'
    · exact .inr ⟨.reported hfinal, fun hg =>
        absurd (hg.2.symm.trans hfinal) Bool.false_ne_true⟩
  · exact .inr (hstanding.step_idle hno (fun he => hno (hstop he)) hs)

/-- Every job has a download that goes on and has something in flight. -/
def JobsWait (T : DownloaderSimple.Traffic S) (p : Program S P) : Prop :=
  ∀ job ∈ p.onTick.jobList, ∃ number w, job.downloader = some number ∧
    p.downloaders[number]? = some w ∧ DownloaderSimple.Going w ∧
    DownloaderSimple.Waits T w

/-- No job is left alone in a run in which no shutdown fails, and none completes
while the file of a complete response is open and idle. -/
theorem jobs_wait
    (hread : ∀ s, T.carries .shutdown s →
      T.carries .shutdown (TCPSocket.read s))
    (h₀ : launch concurrency tasks born = some p₀)
    (hr : Runs p₀ hist p) (hC : Meets (Meeting (Heeded T)) hist) :
    ∀ x, Passes hist p x → JobsWait T x := by
  intro x hx
  refine hr.always hC ?_ hx
  intro hist' x hr' hC' job hjob
  have hemploys := employs_of_runs h₀ hr'
  obtain ⟨number, hnumber⟩ :=
    Option.ne_none_iff_exists'.mp (hemploys.running job hjob)
  obtain ⟨w, hw, hg⟩ :=
    (hemploys.downloads number).mp ⟨job, hjob, hnumber⟩
  obtain ⟨bs, -, hreached⟩ := (parts_of_runs h₀ hr' hC').downloaders
  have hpoised : PoisedIfGoing T w := hreached.invariant
    (I := PoisedIfGoing T) (fun b _ => poised_birth b)
    (fun w o w' h hd => h.step hread hd) (List.mem_of_getElem? hw)
  refine ⟨number, w, hnumber, hw, hg, ?_⟩
  rcases hpoised with hp | ⟨-, hno⟩
  · exact hp.waits
  · exact absurd hg hno

/-- A page that is to be had over a socket that keeps count. -/
def wirePage (id : Nat) (fname : String) (tcp : Bool) :
    Birth DownloaderSimple.Wire where
  request := ⟨id, "http://www.internet.org/", fname⟩
  sock := {}
  resources := { tcp := tcp }

/-- The host of the second is resolved, the first is received, and the third is
refused. -/
def wireTurn : List (Cue DownloaderSimple.Wire) :=
  ⟨1, DownloaderSimple.finding [] (.resolver (.ok {})), []⟩ ::
    ((DownloaderSimple.answered ++
      [DownloaderSimple.finding [.shutdown] (.file 0 (.ok 0)),
        DownloaderSimple.finding [.shutdown] (.file 0 (.ok 1)),
        DownloaderSimple.finding [] (.socket .shutdownEvent)]).map
          fun o => ⟨0, o, []⟩) ++
    [⟨0, DownloaderSimple.finding [] (.file 0 (.ok 0)),
      [wirePage 3 "c" false]⟩]

theorem jobs_wait_wireTurn : ∃ (p₀ p : Program DownloaderSimple.Wire
      (DownloaderSimple.Scripted DownloaderSimple.oneSegment)) (hist : _),
    Runs p₀ hist p ∧ p.onTick.jobList.map Job.id = [2] ∧
      ∀ x, Passes hist p x → JobsWait DownloaderSimple.Wire.traffic x := by
  obtain ⟨p₀, hist, p, hlaunch, hexec, hjobs, hC⟩ :
      ∃ (p₀ : Program DownloaderSimple.Wire
        (DownloaderSimple.Scripted DownloaderSimple.oneSegment)) (hist : _)
      (p : _), launch 2 threePages [wirePage 1 "a" true, wirePage 2 "b" true] =
          some p₀ ∧
        exec step p₀ (plays p₀ wireTurn) = some (hist, p) ∧
        p.onTick.jobList.map Job.id = [2] ∧
        Meets (Meeting (Heeded DownloaderSimple.Wire.traffic)) hist :=
    ⟨_, _, _, rfl, rfl, rfl, by
      unfold Meets
      decide⟩
  exact ⟨p₀, p, hist, run_of_exec hexec, hjobs,
    jobs_wait (fun _ hs => List.mem_cons_of_mem _ hs) hlaunch
      (run_of_exec hexec) hC⟩

end Program

end EcwidDownloader
