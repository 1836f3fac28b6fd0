import Mathlib.Data.List.TakeWhile

/-!
# Input streams of text

What a reader of lines and words sees of a `std::istream`: the text that is left,
what comes after it, and the three bits of its state. Past the text is the end of
the file, or, when the stream is faulty, a read that fails. A stream with any of
the bits set gives nothing, and only says once more that it has failed.

A line ends at a newline or where the text does; a word is what stands between
white space. `getline` and `word` take lines and words off the front.
-/

namespace EcwidDownloader.Lib

structure TextStream where
  rest : List Char
  /-- The read past the text fails. -/
  faulty : Bool := false
  eof : Bool := false
  fail : Bool := false
  bad : Bool := false
  deriving DecidableEq, Repr

namespace TextStream

def good (s : TextStream) : Bool := !s.eof && !s.fail && !s.bad

/-- `std::isspace`, in the locale a program starts with. -/
def isSpace (c : Char) : Bool :=
  c == ' ' || c == '\t' || c == '\n' || c == '\x0b' || c == '\x0c' || c == '\r'

/-- The state after a read that went past the text, having found nothing or
something. -/
def pastEnd (nothing : Bool) (s : TextStream) : TextStream :=
  { s with rest := [], eof := !s.faulty, fail := nothing, bad := s.faulty }

/-- `std::getline`, into an empty string. -/
def getline (s : TextStream) : List Char × TextStream :=
  if s.good then
    let line := s.rest.takeWhile (· != '\n')
    match s.rest.dropWhile (· != '\n') with
    | [] => (line, s.pastEnd line.isEmpty)
    | _ :: rest => (line, { s with rest := rest })
  else ([], { s with fail := true })

/-- `operator>>`, into an empty string. -/
def word (s : TextStream) : List Char × TextStream :=
  if s.good then
    match s.rest.dropWhile isSpace with
    | [] => ([], s.pastEnd true)
    | c :: rest =>
        let word := (c :: rest).takeWhile (!isSpace ·)
        match (c :: rest).dropWhile (!isSpace ·) with
        | [] => (word, s.pastEnd false)
        | c :: rest => (word, { s with rest := c :: rest })
  else ([], { s with fail := true })

/-! ## Lines -/

/-- The lines of a text; the last one is what stands after the last newline. -/
def lines (text : List Char) : List (List Char) := text.splitOn '\n'

theorem lines_line {line : List Char} (rest : List Char) (h : '\n' ∉ line) :
    lines (line ++ '\n' :: rest) = line :: lines rest :=
  List.splitOn_append_cons_self_of_not_mem h rest

theorem lines_last {text : List Char} (h : '\n' ∉ text) :
    lines text = [text] :=
  List.splitOn_eq_singleton h

/-- Where `dropWhile` stops. -/
theorem stops {p : Char → Bool} {text rest : List Char} {c : Char}
    (h : text.dropWhile p = c :: rest) :
    text = text.takeWhile p ++ c :: rest ∧ p c = false := by
  have happ := List.takeWhile_append_dropWhile (p := p) (l := text)
  have hhead := List.head_dropWhile_not p (l := text)
    (by rw [h]; exact List.cons_ne_nil _ _)
  simp only [h, List.head_cons] at hhead
  exact ⟨by rw [← h, happ], hhead⟩

/-- `getline` on a good stream takes a line and its newline, or the last line. -/
theorem getline_cases {s : TextStream} (h : s.good = true) :
    (∃ line rest, s.rest = line ++ '\n' :: rest ∧ '\n' ∉ line ∧
      s.getline = (line, { s with rest := rest })) ∨
    ('\n' ∉ s.rest ∧ s.getline = (s.rest, s.pastEnd s.rest.isEmpty)) := by
  have hline : '\n' ∉ s.rest.takeWhile (· != '\n') := by
    intro hmem
    have hne := List.mem_takeWhile_imp hmem
    simp at hne
  cases hdrop : s.rest.dropWhile (· != '\n') with
  | nil =>
      have happ := List.takeWhile_append_dropWhile
        (p := (· != '\n')) (l := s.rest)
      rw [hdrop, List.append_nil] at happ
      refine .inr ⟨happ ▸ hline, ?_⟩
      simp only [getline, h, if_true, hdrop, happ]
  | cons c rest =>
      obtain ⟨hsplit, hc⟩ := stops hdrop
      have hnewline : c = '\n' := by simpa using hc
      refine .inl ⟨_, rest, hnewline ▸ hsplit, hline, ?_⟩
      simp only [getline, h, if_true, hdrop]

/-! ## Words -/

/-- The words of a line. -/
def words (line : List Char) : List (List Char) :=
  (line.splitOnP isSpace).filter (!·.isEmpty)

theorem words_ne_nil {line word : List Char} (h : word ∈ words line) :
    word ≠ [] := by
  have hne := (List.mem_filter.mp h).2
  simpa using hne

theorem words_space {c : Char} (line : List Char) (h : isSpace c = true) :
    words (c :: line) = words line := by
  unfold words
  rw [List.splitOnP_cons_eq_if_modifyHead, if_pos h]
  simp

theorem words_dropWhile (line : List Char) :
    words (line.dropWhile isSpace) = words line := by
  induction line with
  | nil => rfl
  | cons c line ih =>
      rw [List.dropWhile_cons]
      split
      · next h => rw [ih, words_space line h]
      · rfl

theorem words_word {word : List Char} (hne : word ≠ [])
    (h : ∀ c ∈ word, isSpace c = false) : words word = [word] := by
  unfold words
  rw [List.splitOnP_eq_singleton h]
  simp [hne]

theorem words_cons {word : List Char} {c : Char} (rest : List Char)
    (hne : word ≠ []) (h : ∀ c ∈ word, isSpace c = false)
    (hc : isSpace c = true) :
    words (word ++ c :: rest) = word :: words (c :: rest) := by
  rw [words_space rest hc]
  unfold words
  rw [List.splitOnP_append_cons_of_forall_mem h c hc]
  simp [hne]

theorem word_of_not_good {s : TextStream} (h : s.good = false) :
    s.word = ([], { s with fail := true }) := by
  simp [word, h]

/-- What `word` leaves of the words. -/
def left (s : TextStream) : List (List Char) :=
  if s.good then words s.rest else []

theorem pastEnd_not_good (nothing : Bool) (s : TextStream) :
    (s.pastEnd nothing).good = false := by
  cases h : s.faulty <;> simp [good, pastEnd, h]

theorem left_of_not_good {s : TextStream} (h : s.good = false) :
    s.left = [] := by
  simp [left, h]

/-- `word` takes the first word that is left. -/
theorem word_left (s : TextStream) :
    s.word.1 = s.left.headD [] ∧ s.word.2.left = s.left.tail := by
  cases h : s.good with
  | false =>
      rw [word_of_not_good h, left_of_not_good h]
      exact ⟨rfl, left_of_not_good (by simp [good])⟩
  | true =>
      have hleft : s.left = words (s.rest.dropWhile isSpace) := by
        rw [left, if_pos h, words_dropWhile]
      rw [hleft]
      unfold word
      rw [if_pos h]
      cases hdrop : s.rest.dropWhile isSpace with
      | nil => exact ⟨rfl, left_of_not_good (pastEnd_not_good true s)⟩
      | cons c rest =>
          have hc := (stops hdrop).2
          have hne : (c :: rest).takeWhile (!isSpace ·) ≠ [] := by
            simp [hc]
          have hword : ∀ c' ∈ (c :: rest).takeWhile (!isSpace ·),
              isSpace c' = false := by
            intro c' hmem
            have hnot := List.mem_takeWhile_imp hmem
            simpa using hnot
          simp only []
          cases hafter : (c :: rest).dropWhile (!isSpace ·) with
          | nil =>
              have happ := List.takeWhile_append_dropWhile
                (p := (!isSpace ·)) (l := c :: rest)
              rw [hafter, List.append_nil] at happ
              have hwords := words_word hne hword
              rw [happ] at hwords
              rw [hwords]
              exact ⟨happ, left_of_not_good (pastEnd_not_good false s)⟩
          | cons c' after =>
              obtain ⟨hsplit, hc'⟩ := stops hafter
              have hwords := words_cons after hne hword (by simpa using hc')
              rw [← hsplit] at hwords
              rw [hwords]
              exact ⟨rfl, if_pos h⟩

end TextStream

end EcwidDownloader.Lib
