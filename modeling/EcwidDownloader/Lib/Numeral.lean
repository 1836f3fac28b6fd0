import EcwidDownloader.Lib.TextStream

/-!
# Numbers at the front of a text

How the conversions of the C library read a number: white space is skipped, a
sign may follow, and then come digits, as many as there are. What is behind them
is left alone. `scan` finds the number and `Front` says what was found; there is
never more than one way to read it.
-/

namespace EcwidDownloader.Lib

/-- A number as it is written: its sign and its digits. -/
structure Numeral where
  negative : Bool := false
  digits : List Char
  deriving DecidableEq, Repr

namespace Numeral

open TextStream (isSpace)

/-- The number some digits stand for. -/
def decimal (digits : List Char) : Nat := Nat.ofDigitChars 10 digits 0

def value (n : Numeral) : Int :=
  if n.negative then -(decimal n.digits : Int) else decimal n.digits

/-- The sign, and what follows it. -/
def sign : List Char → Bool × List Char
  | '-' :: text => (true, text)
  | '+' :: text => (false, text)
  | text => (false, text)

/-- The number at the front of a text, with what is left. -/
def scan (text : List Char) : Option (Numeral × List Char) :=
  let (negative, text) := sign (text.dropWhile isSpace)
  let digits := text.takeWhile Char.isDigit
  if digits.isEmpty then none
  else some (⟨negative, digits⟩, text.dropWhile Char.isDigit)

/-- The ways to write a sign. -/
def Signs (negative : Bool) (sgn : List Char) : Prop :=
  sgn = ['-'] ∧ negative = true ∨
    (sgn = ['+'] ∨ sgn = []) ∧ negative = false

/-- A text begins with a number, and goes on with something else. -/
structure Front (n : Numeral) (text rest : List Char) : Prop where
  read : ∃ spaces sgn, text = spaces ++ (sgn ++ (n.digits ++ rest)) ∧
    (∀ c ∈ spaces, isSpace c = true) ∧ Signs n.negative sgn
  digits : ∀ c ∈ n.digits, c.isDigit = true
  nonempty : n.digits ≠ []
  ends : ∀ c ∈ rest.head?, c.isDigit = false

theorem isDigit_of_mem_takeWhile {text : List Char} :
    ∀ c ∈ text.takeWhile Char.isDigit, c.isDigit = true :=
  fun _ hc => List.mem_takeWhile_imp hc

/-- A digit is neither white space nor a sign. -/
theorem of_isDigit {c : Char} (h : c.isDigit = true) :
    isSpace c = false ∧ c ≠ '-' ∧ c ≠ '+' := by
  refine ⟨?_, ?_, ?_⟩
  · cases hs : isSpace c with
    | false => rfl
    | true =>
        simp only [isSpace, Bool.or_eq_true, beq_iff_eq] at hs
        rcases hs with ((((rfl | rfl) | rfl) | rfl) | rfl) | rfl <;> cases h
  · rintro rfl
    cases h
  · rintro rfl
    cases h

theorem takeWhile_digits {digits rest : List Char}
    (hdigits : ∀ c ∈ digits, c.isDigit = true)
    (hends : ∀ c ∈ rest.head?, c.isDigit = false) :
    (digits ++ rest).takeWhile Char.isDigit = digits ∧
      (digits ++ rest).dropWhile Char.isDigit = rest := by
  rw [List.takeWhile_append_of_pos hdigits, List.dropWhile_append_of_pos hdigits]
  cases rest with
  | nil => exact ⟨List.append_nil digits, rfl⟩
  | cons c rest =>
      have hc := hends c rfl
      simp [hc]

/-- `sign` and what it takes off. -/
theorem sign_spec (text : List Char) : ∃ sgn, text = sgn ++ (sign text).2 ∧
    Signs (sign text).1 sgn := by
  unfold sign
  split
  · exact ⟨['-'], rfl, .inl ⟨rfl, rfl⟩⟩
  · exact ⟨['+'], rfl, .inr ⟨.inl rfl, rfl⟩⟩
  · exact ⟨[], rfl, .inr ⟨.inr rfl, rfl⟩⟩

theorem sign_digit {c : Char} (h : c.isDigit = true) (text : List Char) :
    sign (c :: text) = (false, c :: text) := by
  obtain ⟨-, hminus, hplus⟩ := of_isDigit h
  unfold sign
  split
  · next heq => exact absurd (List.cons.inj heq).1 hminus
  · next heq => exact absurd (List.cons.inj heq).1 hplus
  · rfl

theorem front_of_scan {text rest : List Char} {n : Numeral}
    (h : scan text = some (n, rest)) : Front n text rest := by
  obtain ⟨sgn, hsgn, hsigns⟩ := sign_spec (text.dropWhile isSpace)
  unfold scan at h
  generalize sign (text.dropWhile isSpace) = found at h hsgn hsigns
  obtain ⟨negative, body⟩ := found
  simp only [List.isEmpty_iff] at h hsgn hsigns
  split at h
  · cases h
  · next hne =>
      cases h
      refine ⟨⟨text.takeWhile isSpace, sgn, ?_, fun c hc => ?_, hsigns⟩,
        isDigit_of_mem_takeWhile, hne, fun c hc => ?_⟩
      · rw [List.takeWhile_append_dropWhile, ← hsgn,
          List.takeWhile_append_dropWhile]
      · exact List.mem_takeWhile_imp hc
      · cases hrest : body.dropWhile Char.isDigit with
        | nil =>
            rw [hrest] at hc
            cases hc
        | cons c' rest =>
            rw [hrest] at hc
            cases hc
            exact (TextStream.stops hrest).2

theorem scan_of_front {text rest : List Char} {n : Numeral}
    (h : Front n text rest) : scan text = some (n, rest) := by
  obtain ⟨negative, digits⟩ := n
  obtain ⟨⟨spaces, sgn, rfl, hspaces, hsigns⟩, hdigits, hne, hends⟩ := h
  obtain ⟨htake, hdrop⟩ := takeWhile_digits hdigits hends
  dsimp only at hsigns hdigits hne htake hdrop
  obtain ⟨c, digits, rfl⟩ := List.exists_cons_of_ne_nil hne
  have hc := hdigits c List.mem_cons_self
  have hsign : sign ((spaces ++ (sgn ++ (c :: digits ++ rest))).dropWhile
      isSpace) = (negative, c :: digits ++ rest) := by
    rw [List.dropWhile_append_of_pos hspaces]
    rcases hsigns with ⟨rfl, rfl⟩ | ⟨rfl | rfl, rfl⟩
    · rfl
    · rfl
    · rw [List.nil_append, List.cons_append, List.dropWhile_cons,
        (of_isDigit hc).1]
      exact sign_digit hc _
  unfold scan
  rw [hsign]
  simp only []
  rw [htake, hdrop]
  rfl

/-- Digits alone are a number of their own. -/
theorem front_digits {digits : List Char} (hne : digits ≠ [])
    (h : ∀ c ∈ digits, c.isDigit = true) : Front ⟨false, digits⟩ digits [] where
  read := ⟨[], [], by simp, by simp, .inr ⟨.inr rfl, rfl⟩⟩
  digits := h
  nonempty := hne
  ends := by simp

end Numeral

end EcwidDownloader.Lib
