import EcwidDownloader.Proofs.DownloaderStanding
import EcwidDownloader.Proofs.JobStaff

/-!
# A tick in the program

The list of jobs and the downloaders are kept in step by the calls of `invoke`
alone. Between events the staff is exactly the downloads that go on. During an
event this holds of every downloader but the one that calls, and that one is on
the staff until it tells its end: the call with a final state takes it off, and
any call after that finds no job and throws.

The loop over the calls of an event therefore carries one bit, whether the end
was told. `late` is what this bit makes of the calls: one of them comes too late.
-/

namespace EcwidDownloader

open Lib

/-- Whether a call comes after the end was told, given which calls tell it. -/
def late : Bool → List Bool → Bool
  | _, [] => false
  | told, final :: finals => told || late (told || final) finals

theorem late_append (told : Bool) (finals finals' : List Bool) :
    late told (finals ++ finals') =
      (late told finals || late (told || finals.any id) finals') := by
  induction finals generalizing told with
  | nil => simp [late]
  | cons final finals ih =>
      simp only [List.cons_append, late, ih, List.any_cons, id_eq,
        Bool.or_assoc]

theorem late_of_told {finals : List Bool} :
    late true finals = !finals.isEmpty := by
  cases finals <;> rfl

namespace Birth

variable {S : Type} [TCPSocket S] {P : Type} [HttpParser P]

theorem length_creations : ∀ (number : Nat) (bs : List (Birth S)),
    (creations P number bs).length = bs.length
  | _, [] => rfl
  | number, _ :: bs =>
      congrArg (· + 1) (length_creations (number + 1) bs)

/-- The downloaders that are returned. -/
def made (P : Type) [HttpParser P] (number : Nat) (bs : List (Birth S)) :
    List Nat :=
  (creations P number bs).filterMap Creation.downloader

theorem made_cons (number : Nat) (b : Birth S) (bs : List (Birth S)) :
    made P number (b :: bs) =
      (if DownloaderSimple.Going (b.world P) then [number] else []) ++
        made P (number + 1) bs := by
  have hhead := b.creation_downloader P number
  show (b.creation P number :: creations P (number + 1) bs).filterMap _ = _
  split
  · next hg =>
      rw [if_pos hg] at hhead
      exact List.filterMap_cons_some hhead
  · next hg =>
      rw [if_neg hg] at hhead
      exact List.filterMap_cons_none hhead

/-- They are numbered on, and their downloads have begun. -/
theorem mem_made {m : Nat} : ∀ {number : Nat} {bs : List (Birth S)},
    m ∈ made P number bs ↔
      number ≤ m ∧ ∃ w, (bs.map (world P))[m - number]? = some w ∧
        DownloaderSimple.Going w
  | number, [] => by
      refine iff_of_false List.not_mem_nil ?_
      rintro ⟨-, w, hw, -⟩
      cases hw
  | number, b :: bs => by
      rw [made_cons, List.mem_append, mem_made, List.map_cons]
      constructor
      · rintro (hm | ⟨hle, hw⟩)
        · split at hm
          · next hg =>
              obtain rfl := List.mem_singleton.mp hm
              refine ⟨Nat.le_refl m, b.world P, ?_, hg⟩
              rw [Nat.sub_self]
              rfl
          · exact absurd hm List.not_mem_nil
        · have hsub : m - number = (m - (number + 1)) + 1 := by omega
          rw [hsub]
          exact ⟨Nat.le_of_succ_le hle, hw⟩
      · rintro ⟨hle, w, hw, hg⟩
        rcases Nat.eq_or_lt_of_le hle with rfl | hlt
        · rw [Nat.sub_self] at hw
          cases hw
          rw [if_pos hg]
          exact .inl (List.mem_singleton_self _)
        · have hsub : m - number = (m - (number + 1)) + 1 := by omega
          rw [hsub] at hw
          exact .inr ⟨hlt, w, hw, hg⟩

theorem nodup_made : ∀ (number : Nat) (bs : List (Birth S)),
    (made P number bs).Nodup
  | _, [] => List.nodup_nil
  | number, b :: bs => by
      rw [made_cons]
      split
      · refine List.nodup_cons.mpr ⟨fun h => ?_, nodup_made (number + 1) bs⟩
        exact absurd (mem_made.mp h).1 (by omega)
      · exact nodup_made (number + 1) bs

/-- The downloads among those there were and the new ones. -/
theorem works_append (xs : List (DownloaderSimple.World S P))
    (bs : List (Birth S)) (m : Nat) :
    (∃ w, (xs ++ bs.map (world P))[m]? = some w ∧ DownloaderSimple.Going w) ↔
      (∃ w, xs[m]? = some w ∧ DownloaderSimple.Going w) ∨
        m ∈ made P xs.length bs := by
  rw [mem_made]
  rcases Nat.lt_or_ge m xs.length with hlt | hge
  · rw [List.getElem?_append_left hlt]
    exact (or_iff_left fun h => absurd h.1 (Nat.not_le_of_lt hlt)).symm
  · rw [List.getElem?_append_right hge, List.getElem?_eq_none hge]
    constructor
    · exact fun h => .inr ⟨hge, h⟩
    · rintro (⟨w, hw, -⟩ | ⟨-, h⟩)
      · cases hw
      · exact h

end Birth

namespace Program

variable {S P : Type} [TCPSocket S] [HttpParser P]

omit [TCPSocket S] [HttpParser P] in
/-- A download of the program goes on. -/
def Works (p : Program S P) (number : Nat) : Prop :=
  ∃ w, p.downloaders[number]? = some w ∧ DownloaderSimple.Going w

/-- What holds at all times: every call of `create` has left a downloader, the
jobs have one each, and no two the same. -/
structure Manned (p : Program S P) : Prop where
  asked : p.onTick.requests.length = p.downloaders.length
  standing : ∀ w ∈ p.downloaders, DownloaderSimple.Standing w
  nodup : p.onTick.staff.Nodup
  running : ∀ job ∈ p.onTick.jobList, job.downloader ≠ none

/-- Between events the staff is the downloads that go on. -/
structure Staffed (p : Program S P) : Prop extends Manned p where
  staff : ∀ number, number ∈ p.onTick.staff ↔ p.Works number

/-- During an event of a downloader that comes out of it as `w'`, and may have
told its end. -/
structure Amid (number : Nat) (w' : DownloaderSimple.World S P) (told : Bool)
    (p : Program S P) : Prop extends Manned p where
  others : ∀ m, m ≠ number → (m ∈ p.onTick.staff ↔ p.Works m)
  own : number ∈ p.onTick.staff ↔ told = false
  world : p.downloaders[number]? = some w'

variable {number : Nat} {w' : DownloaderSimple.World S P} {told : Bool}
  {p p' : Program S P} {t : Tick S}

omit [HttpParser P] in
theorem Amid.known (h : Amid number w' told p) {m : Nat}
    (hm : m ∈ p.onTick.staff) : m < p.downloaders.length := by
  by_cases heq : m = number
  · subst heq
    exact (List.getElem?_eq_some_iff.mp h.world).1
  · obtain ⟨w, hw, -⟩ := (h.others m heq).mp hm
    exact (List.getElem?_eq_some_iff.mp hw).1

/-- Before an exception a call is made, with the downloaders it makes. -/
theorem tick_some (hu : p.uncaught = none) (ht : tick number p t = some p') :
    p' = ticked number t p ∧
      p'.onTick.requests = p.onTick.requests ++ t.born.map Birth.request := by
  unfold tick at ht
  rw [hu] at ht
  simp only [Option.isSome_none, Bool.false_eq_true, if_false] at ht
  split at ht
  · next hasked =>
      cases ht
      exact ⟨rfl, hasked⟩
  · cases ht

omit [TCPSocket S] in
/-- A call that makes nothing leaves the downloaders as they are. -/
theorem nothing_born {bs : List (Birth S)} {rs : List Request}
    (h : rs = rs ++ bs.map Birth.request) : bs = [] :=
  List.map_eq_nil_iff.mp (List.self_eq_append_right.mp h)

/-- A downloader without a job throws, and nothing else happens. -/
theorem Amid.tick_told (h : Amid number w' true p) (hu : p.uncaught = none)
    (ht : tick number p t = some p') :
    Amid number w' true p' ∧ p'.uncaught.isSome = true := by
  obtain ⟨rfl, hasked⟩ := tick_some hu ht
  have hno : ∀ job ∈ p.onTick.jobList, job.downloader ≠ some number :=
    fun job hjob hd => absurd
      (h.own.mp (OnTickSimple.mem_staff.mpr ⟨job, hjob, hd⟩)) nofun
  have hinvoke := OnTickSimple.invoke_unknown
    (w := { p.onTick with
      creations := Birth.creations P p.downloaders.length t.born })
    t.status hno
  unfold ticked at hasked ⊢
  simp only [hinvoke] at hasked ⊢
  have hborn := nothing_born hasked
  rw [hborn, List.map_nil, List.append_nil]
  exact ⟨⟨⟨h.asked, h.standing, h.nodup, h.running⟩, h.others, h.own, h.world⟩,
    rfl⟩

omit [HttpParser P] in
/-- A downloader with a job finds it. -/
theorem Amid.found (h : Amid number w' false p)
    (creations : List (Creation Nat)) :
    ∃ it, OnTickSimple.findJob number
      { p.onTick with creations := creations }.jobList = .ok it :=
  OnTickSimple.findJob_of_mem (OnTickSimple.mem_staff.mp (h.own.mpr rfl))

/-- A call with a download that goes on is shown. -/
theorem Amid.tick_underway (h : Amid number w' false p)
    (hu : p.uncaught = none) (hfinal : t.status.state.final = false)
    (ht : tick number p t = some p') :
    Amid number w' false p' ∧ p'.uncaught = none := by
  obtain ⟨rfl, hasked⟩ := tick_some hu ht
  obtain ⟨it, hit⟩ := h.found
    (Birth.creations P p.downloaders.length t.born)
  have hinvoke := OnTickSimple.invoke_underway hit hfinal
  unfold ticked at hasked ⊢
  simp only [hinvoke] at hasked ⊢
  have hborn := nothing_born hasked
  rw [hborn, List.map_nil, List.append_nil]
  exact ⟨⟨⟨h.asked, h.standing, h.nodup, h.running⟩, h.others, h.own, h.world⟩,
    trivial⟩

/-- The call that tells the end takes the downloader off the staff, and the
downloaders made meanwhile come on. -/
theorem Amid.tick_final (h : Amid number w' false p)
    (hu : p.uncaught = none) (hfinal : t.status.state.final = true)
    (ht : tick number p t = some p') :
    Amid number w' true p' ∧ p'.uncaught = none := by
  obtain ⟨rfl, hasked⟩ := tick_some hu ht
  obtain ⟨w₀, hw₀⟩ : ∃ w₀ : OnTickSimple Nat, w₀ =
    { p.onTick with
      creations := Birth.creations P p.downloaders.length t.born } := ⟨_, rfl⟩
  obtain ⟨it, hit⟩ : ∃ it, OnTickSimple.findJob number w₀.jobList = .ok it := by
    rw [hw₀]
    exact h.found _
  have hstaff₀ : w₀.staff = p.onTick.staff := by rw [hw₀]; rfl
  have hkept := OnTickSimple.staff_perm hit
  rw [hstaff₀] at hkept
  obtain ⟨hnot, hnodup⟩ := List.nodup_cons.mp (hkept.nodup_iff.mp h.nodup)
  obtain ⟨asked, hr⟩ := OnTickSimple.recruited_invoke hit hfinal
  have hthrown := (OnTickSimple.invoke_ticked t.status hit).1
  have hrunning := OnTickSimple.running_invoke (w := w₀) number t.status
    (by rw [hw₀]; exact h.running)
  have hticked : ticked number t p =
      { p with
        onTick := (OnTickSimple.invoke number t.status w₀).2
        downloaders := p.downloaders ++ t.born.map (Birth.world P)
        uncaught := none } := by
    unfold ticked
    rw [← hw₀]
    simp only [hthrown]
  rw [hticked] at hasked ⊢
  have hupdate : (OnTickSimple.update it.job.id t.status w₀).requests =
      p.onTick.requests := by
    rw [hw₀]
    rfl
  have heq : asked = t.born.map Birth.request := by
    have hrequests := hr.requests
    rw [hupdate] at hrequests
    exact List.append_cancel_left (hrequests.symm.trans hasked)
  have hperm : (OnTickSimple.invoke number t.status w₀).2.staff.Perm
      (OnTickSimple.staffed (it.before ++ it.after) ++
        Birth.made P p.downloaders.length t.born) := by
    have hcreations : (OnTickSimple.update it.job.id t.status w₀).creations =
        Birth.creations P p.downloaders.length t.born := by
      rw [hw₀]
      rfl
    have hstaff := hr.staff
    rw [hcreations, heq, List.length_map,
      ← Birth.length_creations (P := P) p.downloaders.length,
      OnTickSimple.hired, List.take_length] at hstaff
    exact hstaff
  have hknown : ∀ m ∈ OnTickSimple.staffed (it.before ++ it.after),
      m < p.downloaders.length := fun m hm =>
    h.known (hkept.mem_iff.mpr (List.mem_cons_of_mem _ hm))
  have hworld := (List.getElem?_eq_some_iff.mp h.world).1
  refine ⟨⟨⟨?_, ?_, ?_, hrunning⟩, ?_, ?_, ?_⟩, rfl⟩
  · rw [hasked, List.length_append, List.length_append, List.length_map,
      List.length_map, h.asked]
  · intro w hw
    rcases List.mem_append.mp hw with hw | hw
    · exact h.standing w hw
    · obtain ⟨b, -, rfl⟩ := List.mem_map.mp hw
      exact b.standing P
  · refine hperm.nodup_iff.mpr (List.Nodup.append hnodup
      (Birth.nodup_made _ _) fun m hm hm' => ?_)
    exact absurd (hknown m hm) (Nat.not_lt.mpr (Birth.mem_made.mp hm').1)
  · intro m hne
    have hsame : m ∈ OnTickSimple.staffed (it.before ++ it.after) ↔
        m ∈ p.onTick.staff := by
      rw [hkept.mem_iff, List.mem_cons]
      exact (or_iff_right hne).symm
    rw [hperm.mem_iff, List.mem_append, hsame, h.others m hne]
    exact (Birth.works_append _ _ m).symm
  · refine iff_of_false (fun hm => ?_) nofun
    rcases List.mem_append.mp (hperm.mem_iff.mp hm) with hm | hm
    · exact hnot hm
    · exact absurd hworld (Nat.not_lt.mpr (Birth.mem_made.mp hm).1)
  · exact (List.getElem?_append_left hworld).trans h.world

/-- The loop over the calls of an event. -/
theorem Amid.ticks : ∀ {ts : List (Tick S)} {told : Bool}
    {p p' : Program S P}, Amid number w' told p → p.uncaught = none →
    ts.foldlM (tick number) p = some p' →
    Amid number w' (told || (ts.map fun t => t.status.state.final).any id) p' ∧
      (p'.uncaught.isSome = true ↔
        late told (ts.map fun t => t.status.state.final) = true)
  | [], told, p, p', h, hu, ht => by
      cases ht
      rw [hu]
      simp [late, h]
  | t :: ts, told, p, p', h, hu, ht => by
      rw [List.foldlM_cons] at ht
      obtain ⟨p₁, h₁, hrest⟩ := Option.bind_eq_some_iff.mp ht
      cases told with
      | true =>
          obtain ⟨ha, hthrown⟩ := h.tick_told hu h₁
          have hstop : ts.foldlM (tick number) p₁ = some p₁ := by
            clear hrest ht
            induction ts with
            | nil => rfl
            | cons t ts ih =>
                rw [List.foldlM_cons]
                unfold tick at ih ⊢
                rw [if_pos hthrown]
                exact ih
          rw [hstop] at hrest
          cases hrest
          simp [late, ha, hthrown]
      | false =>
          cases hfinal : t.status.state.final with
          | true =>
              obtain ⟨ha, hu₁⟩ := h.tick_final hu hfinal h₁
              have hih := ha.ticks hu₁ hrest
              simpa [late, hfinal] using hih
          | false =>
              obtain ⟨ha, hu₁⟩ := h.tick_underway hu hfinal h₁
              have hih := ha.ticks hu₁ hrest
              simpa [late, hfinal] using hih

end Program

end EcwidDownloader
