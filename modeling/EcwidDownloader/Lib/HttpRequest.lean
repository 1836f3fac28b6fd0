import Mathlib.Data.List.DropRight
import Mathlib.Data.List.TakeWhile

/-!
# Requests of HTTP/1.1

A request without a body as a reader of the protocol sees it: three words of a
request line, and fields of a name and a value, on lines that end with CR LF, up
to an empty one. A reader allows neither half of a line end alone, no empty word,
no blank in the name of a field, and nothing after the request; blanks around a
value do not belong to it. What a well formed request is written as is read back
as that request.
-/

namespace EcwidDownloader.Lib

structure HttpRequest where
  method : List UInt8
  target : List UInt8
  version : List UInt8
  fields : List (List UInt8 × List UInt8) := []
  deriving DecidableEq, Repr

namespace HttpRequest

def cr : UInt8 := 13
def lf : UInt8 := 10
def sp : UInt8 := 32
def tab : UInt8 := 9
def colon : UInt8 := 58

def isEnd (b : UInt8) : Bool := b == cr || b == lf

def isBlank (b : UInt8) : Bool := b == sp || b == tab

/-! ## Reading -/

/-- The first line, and what comes after it. -/
def takeLine (s : List UInt8) : Option (List UInt8 × List UInt8) :=
  match s.dropWhile (!isEnd ·) with
  | b :: b' :: rest =>
      if b = cr ∧ b' = lf then some (s.takeWhile (!isEnd ·), rest) else none
  | _ => none

def readRequestLine (line : List UInt8) :
    Option (List UInt8 × List UInt8 × List UInt8) :=
  match line.splitOn sp with
  | [method, target, version] =>
      if method = [] ∨ target = [] ∨ version = [] then none
      else some (method, target, version)
  | _ => none

/-- A value without the blanks around it. -/
def trim (value : List UInt8) : List UInt8 :=
  (value.dropWhile isBlank).rdropWhile isBlank

def readField (line : List UInt8) : Option (List UInt8 × List UInt8) :=
  let name := line.takeWhile (· != colon)
  match line.dropWhile (· != colon) with
  | [] => none
  | _ :: value =>
      if name = [] ∨ name.any isBlank then none else some (name, trim value)

/-- The fields up to the empty line, and what comes after it. -/
def readFields : Nat → List UInt8 →
    Option (List (List UInt8 × List UInt8) × List UInt8)
  | 0, _ => none
  | n + 1, s => do
      let (line, rest) ← takeLine s
      if line = [] then return ([], rest)
      let field ← readField line
      let (fields, rest) ← readFields n rest
      return (field :: fields, rest)

/-- A text that is one request. -/
def read (s : List UInt8) : Option HttpRequest := do
  let (line, rest) ← takeLine s
  let (method, target, version) ← readRequestLine line
  let (fields, rest) ← readFields rest.length rest
  if rest = [] then return { method, target, version, fields } else none

/-! ## Writing -/

def writeField (field : List UInt8 × List UInt8) : List UInt8 :=
  field.1 ++ colon :: sp :: field.2 ++ [cr, lf]

def write (r : HttpRequest) : List UInt8 :=
  r.method ++ sp :: r.target ++ sp :: r.version ++ [cr, lf] ++
    r.fields.flatMap writeField ++ [cr, lf]

/-- A word of the request line. -/
def IsWord (word : List UInt8) : Prop :=
  word ≠ [] ∧ ∀ b ∈ word, isEnd b = false ∧ b ≠ sp

structure IsField (field : List UInt8 × List UInt8) : Prop where
  name_ne : field.1 ≠ []
  name : ∀ b ∈ field.1, isEnd b = false ∧ isBlank b = false ∧ b ≠ colon
  value : ∀ b ∈ field.2, isEnd b = false
  trimmed : trim field.2 = field.2

structure WellFormed (r : HttpRequest) : Prop where
  method : IsWord r.method
  target : IsWord r.target
  version : IsWord r.version
  fields : ∀ field ∈ r.fields, IsField field

/-! ## What is written is read back -/

theorem trim_eq {value : List UInt8} (h : ∀ b ∈ value, isBlank b = false) :
    trim value = value := by
  have hdrop : value.dropWhile isBlank = value := by
    cases value with
    | nil => rfl
    | cons b rest => simp [h b List.mem_cons_self]
  rw [trim, hdrop, List.rdropWhile_eq_self_iff]
  intro hne
  simp [h _ (List.getLast_mem hne)]

theorem takeLine_line {line : List UInt8} (rest : List UInt8)
    (h : ∀ b ∈ line, isEnd b = false) :
    takeLine (line ++ cr :: lf :: rest) = some (line, rest) := by
  have hline : ∀ b ∈ line, (!isEnd b) = true := by
    intro b hb
    simp [h b hb]
  have hcr : isEnd cr = true := rfl
  have htake : (line ++ cr :: lf :: rest).takeWhile (!isEnd ·) =
      line ++ (cr :: lf :: rest).takeWhile (!isEnd ·) :=
    List.takeWhile_append_of_pos hline
  have hdrop : (line ++ cr :: lf :: rest).dropWhile (!isEnd ·) =
      (cr :: lf :: rest).dropWhile (!isEnd ·) :=
    List.dropWhile_append_of_pos hline
  rw [List.takeWhile_cons, hcr] at htake
  rw [List.dropWhile_cons, hcr] at hdrop
  simp only [Bool.not_true, Bool.false_eq_true, if_false, List.append_nil]
    at htake hdrop
  simp [takeLine, hdrop, htake]

theorem readRequestLine_words {method target version : List UInt8}
    (hm : IsWord method) (ht : IsWord target) (hv : IsWord version) :
    readRequestLine (method ++ sp :: target ++ sp :: version) =
      some (method, target, version) := by
  have hnot {word : List UInt8} (h : IsWord word) : sp ∉ word :=
    fun hmem => (h.2 sp hmem).2 rfl
  have hsplit : (method ++ sp :: target ++ sp :: version).splitOn sp =
      [method, target, version] := by
    rw [List.append_assoc, List.cons_append,
      List.splitOn_append_cons_self_of_not_mem (hnot hm),
      List.splitOn_append_cons_self_of_not_mem (hnot ht),
      List.splitOn_eq_singleton (hnot hv)]
  rw [readRequestLine, hsplit]
  simp [hm.1, ht.1, hv.1]

theorem readField_field {name value : List UInt8}
    (h : IsField (name, value)) :
    readField (name ++ colon :: sp :: value) = some (name, value) := by
  have hname : ∀ b ∈ name, (b != colon) = true := by
    intro b hb
    simpa using (h.name b hb).2.2
  have hblank : name.any isBlank = false := by
    rw [List.any_eq_false]
    intro b hb
    simp [(h.name b hb).2.1]
  have htrim : trim (sp :: value) = value := h.trimmed
  have htake : (name ++ colon :: sp :: value).takeWhile (· != colon) =
      name ++ (colon :: sp :: value).takeWhile (· != colon) :=
    List.takeWhile_append_of_pos hname
  have hdrop : (name ++ colon :: sp :: value).dropWhile (· != colon) =
      (colon :: sp :: value).dropWhile (· != colon) :=
    List.dropWhile_append_of_pos hname
  rw [List.takeWhile_cons] at htake
  rw [List.dropWhile_cons] at hdrop
  simp only [bne_self_eq_false, Bool.false_eq_true, if_false,
    List.append_nil] at htake hdrop
  have hne : name ≠ [] := h.name_ne
  simp [readField, htake, hdrop, hblank, htrim, hne]

theorem readFields_fields : ∀ {fields : List (List UInt8 × List UInt8)}
    {n : Nat} (rest : List UInt8), fields.length < n →
    (∀ field ∈ fields, IsField field) →
    readFields n (fields.flatMap writeField ++ cr :: lf :: rest) =
      some (fields, rest)
  | [], 0, _, hn, _ => absurd hn (Nat.lt_irrefl 0)
  | [], n + 1, rest, _, _ => by
      have hline : takeLine ([] ++ cr :: lf :: rest) = some ([], rest) :=
        takeLine_line rest (by simp)
      rw [List.nil_append] at hline
      simp [readFields, hline]
  | field :: fields, 0, _, hn, _ => absurd hn (Nat.not_lt_zero _)
  | field :: fields, n + 1, rest, hn, h => by
      have hfield := h field List.mem_cons_self
      have hends : ∀ b ∈ field.1 ++ colon :: sp :: field.2,
          isEnd b = false := by
        intro b hb
        simp only [List.mem_append, List.mem_cons] at hb
        rcases hb with hb | rfl | rfl | hb
        · exact (hfield.name b hb).1
        · rfl
        · rfl
        · exact hfield.value b hb
      have hline := takeLine_line
        (fields.flatMap writeField ++ cr :: lf :: rest) hends
      have hrest := @readFields_fields fields n rest
        (Nat.lt_of_succ_lt_succ hn)
        fun f hf => h f (List.mem_cons_of_mem _ hf)
      have hwritten : (field :: fields).flatMap writeField ++
          cr :: lf :: rest =
          (field.1 ++ colon :: sp :: field.2) ++
            cr :: lf :: (fields.flatMap writeField ++ cr :: lf :: rest) := by
        simp [writeField]
      rw [hwritten, readFields, hline]
      simp [readField_field hfield, hrest]

theorem length_le_writeFields (fields : List (List UInt8 × List UInt8)) :
    fields.length ≤ (fields.flatMap writeField).length := by
  induction fields with
  | nil => simp
  | cons field fields ih =>
      simp only [List.flatMap_cons, List.length_append, List.length_cons,
        writeField, List.length_nil]
      omega

/-- A well formed request is read back. -/
theorem read_write {r : HttpRequest} (h : r.WellFormed) :
    read r.write = some r := by
  have hends : ∀ b ∈ r.method ++ sp :: r.target ++ sp :: r.version,
      isEnd b = false := by
    intro b hb
    simp only [List.append_assoc, List.cons_append, List.mem_append,
      List.mem_cons] at hb
    rcases hb with hb | rfl | hb | rfl | hb
    · exact (h.method.2 b hb).1
    · rfl
    · exact (h.target.2 b hb).1
    · rfl
    · exact (h.version.2 b hb).1
  have hline := takeLine_line (r.fields.flatMap writeField ++ [cr, lf]) hends
  have hlength : r.fields.length <
      (r.fields.flatMap writeField ++ [cr, lf]).length := by
    have hle := length_le_writeFields r.fields
    simp only [List.length_append, List.length_cons]
    omega
  have hfields := readFields_fields [] hlength h.fields
  have hwritten : r.write =
      (r.method ++ sp :: r.target ++ sp :: r.version) ++
        cr :: lf :: (r.fields.flatMap writeField ++ [cr, lf]) := by
    simp [write]
  rw [hwritten, read, hline]
  simp only [Option.bind_eq_bind, Option.bind_some, hfields,
    readRequestLine_words h.method h.target h.version, if_pos]
  rfl

end HttpRequest

end EcwidDownloader.Lib
