import EcwidDownloader.Jobs.TaskListSimple

/-!
# The grammar of the task file

A line is a task if it has two words. The loop of `get` takes the lines one by
one, so what is left of the text has as many lines as `getline` calls to come,
and on a stream that ends with its file they are used up.

The loop looks at `eofbit` alone. A read that fails sets another bit and keeps
`getline` from ever setting this one: from then on every line is empty and the
loop goes on for ever.
-/

namespace EcwidDownloader

open Lib

namespace TaskListSimple

open TextStream

/-- The task a line stands for. -/
def taskOf (path : String) (line : List Char) : Option Task :=
  match words line with
  | uri :: fname :: _ =>
      some ⟨String.ofList uri, path ++ String.ofList fname⟩
  | _ => none

/-- The tasks of a text, in the order of its lines. -/
def tasksOf (path : String) (text : List Char) : List Task :=
  (lines text).filterMap (taskOf path)

/-- The two reads of a line find its first two words. -/
theorem taskOfLine_eq (path : String) (line : List Char) :
    taskOfLine path line = taskOf path line := by
  have hgood : ({ rest := line } : TextStream).left = words line := rfl
  obtain ⟨huri, hrest⟩ := word_left { rest := line }
  obtain ⟨hfname, -⟩ := word_left ({ rest := line } : TextStream).word.2
  rw [hrest, hgood] at hfname
  rw [hgood] at huri
  unfold taskOfLine taskOf
  simp only []
  rw [huri, hfname]
  match hwords : words line with
  | [] => simp
  | [uri] => simp
  | uri :: fname :: _ =>
      have hline : line.isEmpty = false := by
        cases line with
        | nil =>
            have hempty : words [] = [] := rfl
            simp [hempty] at hwords
        | cons _ _ => rfl
      have hne : ∀ word ∈ words line, word.isEmpty = false := by
        intro word hmem
        have hword := words_ne_nil hmem
        simpa using hword
      rw [hwords] at hne
      simp [hline, hne]

/-- A line with less than two words is no task. -/
theorem taskOf_isSome (path : String) (line : List Char) :
    (taskOf path line).isSome = true ↔ 2 ≤ (words line).length := by
  unfold taskOf
  split
  · next heq => simp [heq]
  · next hne =>
      match hwords : words line with
      | [] => simp
      | [_] => simp
      | uri :: fname :: rest => exact absurd hwords (hne uri fname rest)

/-! ## A stream that ends with its file -/

/-- The stream has a task list left to give. -/
structure Gives (tasks : TaskList) (l : TaskListSimple) : Prop where
  ended : l.stream.eof = true → tasks = []
  going : l.stream.eof = false → l.stream.good = true ∧
    l.stream.faulty = false ∧ tasks = tasksOf l.path l.stream.rest

/-- How many `getline` calls are left. -/
def remaining (l : TaskListSimple) : Nat :=
  if l.stream.eof then 0 else (lines l.stream.rest).length

/-- The loop of `get`, once a line is read. -/
theorem get_succ {n : Nat} {l : TaskListSimple} (h : l.stream.eof = false) :
    get (n + 1) l =
      match taskOf l.path l.stream.getline.1 with
      | none => get n { l with stream := l.stream.getline.2 }
      | some task => some (some task, { l with stream := l.stream.getline.2 }) := by
  have hget : get (n + 1) l =
      if l.stream.eof then some (none, l)
      else
        match taskOfLine l.path l.stream.getline.1 with
        | none => get n { l with stream := l.stream.getline.2 }
        | some task =>
            some (some task, { l with stream := l.stream.getline.2 }) := rfl
  rw [hget, if_neg (by simp [h]), taskOfLine_eq]

theorem get_eof (n : Nat) {l : TaskListSimple} (h : l.stream.eof = true) :
    get n l = some (none, l) := by
  cases n <;> simp [get, h]

theorem remaining_pos {l : TaskListSimple} (h : l.stream.eof = false) :
    0 < l.remaining := by
  rw [remaining, if_neg (by simp [h])]
  exact List.length_pos_iff.mpr (List.splitOn_ne_nil _ _)

/-- A line is read: it is the first one of the tasks, or no task. -/
theorem Gives.getline {tasks : TaskList} {l : TaskListSimple}
    (h : Gives tasks l) (heof : l.stream.eof = false) :
    ∃ rest, tasks = (taskOf l.path l.stream.getline.1).toList ++ rest ∧
      Gives rest { l with stream := l.stream.getline.2 } ∧
      remaining { l with stream := l.stream.getline.2 } < l.remaining := by
  obtain ⟨hgood, hfaulty, htasks⟩ := h.going heof
  have hcons (line : List Char) (lines : List (List Char)) :
      (line :: lines).filterMap (taskOf l.path) =
        (taskOf l.path line).toList ++ lines.filterMap (taskOf l.path) := by
    rw [List.filterMap_cons]
    cases taskOf l.path line <;> rfl
  have hpos := remaining_pos heof
  rcases getline_cases hgood with ⟨line, rest, hrest, hline, heq⟩ | ⟨hlast, heq⟩
  · rw [heq]
    refine ⟨tasksOf l.path rest, ?_, ?_, ?_⟩
    · rw [htasks, tasksOf, hrest, lines_line rest hline, hcons]
      rfl
    · exact ⟨fun h' => absurd h' (by simp [heof]),
        fun _ => ⟨hgood, hfaulty, rfl⟩⟩
    · simp [remaining, heof, hrest, lines_line rest hline]
  · rw [heq]
    have hpast : (l.stream.pastEnd l.stream.rest.isEmpty).eof = true := by
      simp [pastEnd, hfaulty]
    refine ⟨[], ?_, ?_, ?_⟩
    · rw [htasks, tasksOf, lines_last hlast, hcons]
      rfl
    · exact ⟨fun _ => rfl, fun h' => absurd h' (by simp [hpast])⟩
    · rw [remaining, if_pos hpast]
      exact hpos

/-- `get` gives the first task that is left, and leaves the others. -/
theorem get_gives : ∀ {n : Nat} {tasks : TaskList} {l : TaskListSimple},
    Gives tasks l → l.remaining ≤ n →
    ∃ l', get n l = some (tasks.head?, l') ∧ Gives tasks.tail l' ∧
      l'.remaining ≤ l.remaining := by
  intro n
  induction n with
  | zero =>
      intro tasks l h hn
      cases heof : l.stream.eof with
      | false => exact absurd (remaining_pos heof) (by omega)
      | true =>
          obtain rfl := h.ended heof
          exact ⟨l, get_eof 0 heof, h, Nat.le_refl _⟩
  | succ n ih =>
      intro tasks l h hn
      cases heof : l.stream.eof with
      | true =>
          obtain rfl := h.ended heof
          exact ⟨l, get_eof _ heof, h, Nat.le_refl _⟩
      | false =>
          obtain ⟨rest, htasks, hrest, hless⟩ := h.getline heof
          rw [get_succ heof]
          cases htask : taskOf l.path l.stream.getline.1 with
          | none =>
              rw [htask] at htasks
              obtain ⟨l', hget, hgives, hle⟩ := ih hrest (by omega)
              rw [htasks]
              exact ⟨l', hget, hgives, by omega⟩
          | some task =>
              rw [htask] at htasks
              rw [htasks]
              exact ⟨_, rfl, hrest, Nat.le_of_lt hless⟩

/-- The results of `get` are the tasks in order, and null from then on. -/
theorem calls_gives : ∀ {m n : Nat} {tasks : TaskList} {l : TaskListSimple},
    Gives tasks l → l.remaining ≤ n →
    calls n (tasks.length + m) l =
      some (tasks.map some ++ List.replicate m none)
  | 0, n, [], l, _, _ => rfl
  | m + 1, n, [], l, h, hn => by
      obtain ⟨l', hget, hgives, hle⟩ := get_gives h hn
      have hrest := calls_gives (m := m) (n := n) hgives (by omega)
      simp only [List.tail_nil, List.length_nil, List.map_nil,
        List.nil_append, Nat.zero_add] at hrest ⊢
      simp [calls, hget, hrest, List.replicate_succ]
  | m, n, task :: tasks, l, h, hn => by
      obtain ⟨l', hget, hgives, hle⟩ := get_gives h hn
      have hrest := calls_gives (m := m) (n := n) hgives (by omega)
      rw [List.tail_cons] at hrest
      rw [List.length_cons, Nat.add_right_comm]
      simp [calls, hget, hrest]

theorem gives_opened (text : List Char) (path : String) :
    Gives (tasksOf path text) (opened text path) :=
  ⟨nofun, fun _ => ⟨rfl, rfl, rfl⟩⟩

/-- The task file grammar: the results of `get` on a file that can be read are
one task for each line with two words, in the order of the file, and null from
then on. As many `getline` calls are enough as the text has lines. -/
theorem tasks_in_order (text : List Char) (path : String) (m n : Nat) :
    calls ((lines text).length + n) ((tasksOf path text).length + m)
        (opened text path) =
      some ((tasksOf path text).map some ++ List.replicate m none) := by
  refine calls_gives (gives_opened text path) ?_
  exact Nat.le_add_right _ _

/-! ## Every stream -/

/-- `get` comes to an end: the end of the file has been seen, or the stream is
good and ends with its file or has a task before the read that fails. The last
line before that read need not be complete. -/
def Ends (l : TaskListSimple) : Prop :=
  l.stream.eof = true ∨ l.stream.good = true ∧ (l.stream.faulty = false ∨
    ∃ line ∈ lines l.stream.rest, 2 ≤ (words line).length)

instance (l : TaskListSimple) : Decidable (Ends l) :=
  inferInstanceAs (Decidable (_ ∨ _ ∧ (_ ∨ ∃ line ∈ lines l.stream.rest, _)))

/-- A line with a task is come to. -/
theorem get_found : ∀ {n : Nat} {l : TaskListSimple}, l.stream.good = true →
    (lines l.stream.rest).length ≤ n →
    (∃ line ∈ lines l.stream.rest, 2 ≤ (words line).length) →
    ∃ r, get n l = some r := by
  intro n
  induction n with
  | zero =>
      intro l _ hn _
      have hpos : 0 < (lines l.stream.rest).length :=
        List.length_pos_iff.mpr (List.splitOn_ne_nil _ _)
      omega
  | succ n ih =>
      intro l hgood hn hline
      have heof : l.stream.eof = false := by
        simp [good] at hgood
        exact hgood.1.1
      rw [get_succ heof]
      cases htask : taskOf l.path l.stream.getline.1 with
      | some task => exact ⟨_, rfl⟩
      | none =>
          have hshort : ¬ 2 ≤ (words l.stream.getline.1).length := by
            rw [← taskOf_isSome l.path, htask]
            simp
          obtain ⟨line, hmem, hlong⟩ := hline
          rcases getline_cases hgood with
            ⟨first, rest, hrest, hfirst, heq⟩ | ⟨hlast, heq⟩
          · rw [heq] at hshort ⊢
            rw [hrest, lines_line rest hfirst] at hn hmem
            refine ih hgood (Nat.le_of_succ_le_succ hn) ?_
            rcases List.mem_cons.mp hmem with rfl | hmem
            · exact absurd hlong hshort
            · exact ⟨line, hmem, hlong⟩
          · rw [heq] at hshort
            rw [lines_last hlast] at hmem
            rw [List.mem_singleton.mp hmem] at hlong
            exact absurd hlong hshort

/-- Otherwise no number of `getline` calls is enough. -/
theorem get_stuck : ∀ {n : Nat} {l : TaskListSimple}, ¬ l.Ends →
    get n l = none := by
  intro n
  induction n with
  | zero =>
      intro l h
      have heof : l.stream.eof = false := by
        simpa using fun h' => h (.inl h')
      rw [get, if_neg (by simp [heof])]
  | succ n ih =>
      intro l h
      have heof : l.stream.eof = false := by
        simpa using fun h' => h (.inl h')
      rw [get_succ heof]
      cases hgood : l.stream.good with
      | false =>
          have hline : l.stream.getline =
              ([], { l.stream with fail := true }) := by
            simp [TextStream.getline, hgood]
          rw [hline]
          refine ih ?_
          rintro (heof' | ⟨hgood', -⟩)
          · simp [heof] at heof'
          · simp [good] at hgood'
      | true =>
          have hshort : ∀ line ∈ lines l.stream.rest,
              taskOf l.path line = none := by
            intro line hmem
            rw [← Option.not_isSome_iff_eq_none, taskOf_isSome]
            exact fun hlong => h (.inr ⟨hgood, .inr ⟨line, hmem, hlong⟩⟩)
          have hfaulty : l.stream.faulty = true := by
            simpa using fun h' => h (.inr ⟨hgood, .inl h'⟩)
          rcases getline_cases hgood with
            ⟨first, rest, hrest, hfirst, heq⟩ | ⟨hlast, heq⟩
          · rw [hrest, lines_line rest hfirst] at hshort
            rw [heq, hshort first List.mem_cons_self]
            refine ih ?_
            rintro (heof' | ⟨-, hfile | ⟨line, hmem, hlong⟩⟩)
            · simp [heof] at heof'
            · simp [hfaulty] at hfile
            · have hnone := hshort line (List.mem_cons_of_mem _ hmem)
              have hsome := (taskOf_isSome l.path line).mpr hlong
              simp [hnone] at hsome
          · rw [lines_last hlast] at hshort
            rw [heq, hshort _ (List.mem_singleton_self _)]
            refine ih ?_
            rintro (heof' | ⟨hgood', -⟩)
            · simp [pastEnd, hfaulty] at heof'
            · simp [pastEnd_not_good] at hgood'

/-- `get` returns after finitely many `getline` calls exactly on a stream that
is at its end, or good and either ending with its file or with a task before the
read that fails. -/
theorem get_returns_iff (l : TaskListSimple) :
    (∃ n r, get n l = some r) ↔ l.Ends := by
  constructor
  · rintro ⟨n, r, hget⟩
    by_contra h
    rw [get_stuck h] at hget
    cases hget
  · rintro (heof | ⟨hgood, hfile | hline⟩)
    · exact ⟨0, _, get_eof 0 heof⟩
    · have heof : l.stream.eof = false := by
        simp [good] at hgood
        exact hgood.1.1
      have hgives : Gives (tasksOf l.path l.stream.rest) l :=
        ⟨fun h => absurd h (by simp [heof]), fun _ => ⟨hgood, hfile, rfl⟩⟩
      obtain ⟨l', hget, -⟩ := get_gives hgives (Nat.le_refl _)
      exact ⟨_, _, hget⟩
    · obtain ⟨r, hget⟩ := get_found hgood (Nat.le_refl _) hline
      exact ⟨_, r, hget⟩

/-- An opened directory: there is nothing in it, and the first read fails. -/
def directory : TaskListSimple :=
  { stream := { rest := [], faulty := true }, path := "" }

theorem get_frozen : ¬ ∀ l : TaskListSimple, ∃ n r, get n l = some r := by
  intro hall
  obtain ⟨n, r, hget⟩ := hall directory
  rw [get_stuck (by decide)] at hget
  cases hget

end TaskListSimple

end EcwidDownloader
