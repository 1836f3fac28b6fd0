import Mathlib.Tactic.IntervalCases
import EcwidDownloader.Jobs.ProgramOptions

/-!
# The options are exact or refused

The arguments go through three conversions: `stol` with docopt's check behind it,
a regular expression, and `stoul` with a multiplication behind that. Here each is
said once in terms of the strings alone. A string with the format of a limit is
some digits and a suffix; what becomes of it depends on whether the digits fit
into `size_t` and the product still does.

Two things go wrong. What `stol` and `stoul` throw is no `std::runtime_error`, so
it passes the `catch` clause; and a product that does not fit is taken modulo the
size of `size_t`, with nothing but zero refused afterwards.
-/

namespace EcwidDownloader

open Lib

namespace ProgramOptions

/-! ## The format of a limit -/

/-- The suffixes of a limit and what they stand for. -/
def factors : List (List Char × Nat) :=
  [([], 1), (['k'], 1024), (['K'], 1024), (['m'], 1024 * 1024),
    (['M'], 1024 * 1024)]

/-- Digits with one of the suffixes. -/
structure Measure (s : String) (digits : List Char) (factor : Nat) : Prop where
  read : ∃ suffix, s.toList = digits ++ suffix ∧ (suffix, factor) ∈ factors
  isDigit : ∀ c ∈ digits, c.isDigit = true
  nonempty : digits ≠ []

/-- No suffix begins with a digit. -/
theorem factors_ends {suffix : List Char} {factor : Nat}
    (h : (suffix, factor) ∈ factors) : ∀ c ∈ suffix.head?, c.isDigit = false := by
  simp only [factors, List.mem_cons, Prod.mk.injEq, List.not_mem_nil,
    or_false] at h
  rcases h with ⟨rfl, -⟩ | ⟨rfl, -⟩ | ⟨rfl, -⟩ | ⟨rfl, -⟩ | ⟨rfl, -⟩ <;>
    simp

theorem factors_inj {suffix : List Char} {f f' : Nat}
    (h : (suffix, f) ∈ factors) (h' : (suffix, f') ∈ factors) : f = f' := by
  simp only [factors, List.mem_cons, Prod.mk.injEq, List.not_mem_nil,
    or_false] at h h'
  rcases h with ⟨rfl, rfl⟩ | ⟨rfl, rfl⟩ | ⟨rfl, rfl⟩ | ⟨rfl, rfl⟩ | ⟨rfl, rfl⟩ <;>
    simp_all

/-- A limit is read in one way only. -/
theorem Measure.unique {s : String} {d d' : List Char} {f f' : Nat}
    (h : Measure s d f) (h' : Measure s d' f') : d = d' ∧ f = f' := by
  obtain ⟨suffix, hs, hf⟩ := h.read
  obtain ⟨suffix', hs', hf'⟩ := h'.read
  obtain ⟨htake, hdrop⟩ := Numeral.takeWhile_digits h.isDigit (factors_ends hf)
  obtain ⟨htake', hdrop'⟩ :=
    Numeral.takeWhile_digits h'.isDigit (factors_ends hf')
  rw [← hs] at htake hdrop
  rw [← hs'] at htake' hdrop'
  obtain rfl : d = d' := htake.symm.trans htake'
  obtain rfl : suffix = suffix' := hdrop.symm.trans hdrop'
  exact ⟨rfl, factors_inj hf hf'⟩

/-! ## The regular expression -/

theorem mem_oneOf (chars : List Char) (x : List Char) :
    x ∈ (oneOf chars).matches' ↔ ∃ c ∈ chars, x = [c] := by
  induction chars with
  | nil => simp [oneOf, RegularExpression.matches', Language.notMem_zero]
  | cons c chars ih =>
      rw [show oneOf (c :: chars) = .plus (.char c) (oneOf chars) from rfl]
      simp only [RegularExpression.matches', Language.mem_add, ih,
        List.mem_cons, exists_eq_or_imp]
      rfl

theorem isDigit_iff (c : Char) :
    c.isDigit = true ↔
      c ∈ ['0', '1', '2', '3', '4', '5', '6', '7', '8', '9'] := by
  constructor
  · intro h
    obtain ⟨hlow, hhigh⟩ := Char.isDigit_iff_toNat.mp h
    rw [← Char.ofNat_toNat c]
    generalize c.toNat = n at hlow hhigh ⊢
    change 48 ≤ n at hlow
    change n ≤ 57 at hhigh
    interval_cases n <;> simp
  · intro h
    simp only [List.mem_cons, List.not_mem_nil, or_false] at h
    rcases h with rfl | rfl | rfl | rfl | rfl | rfl | rfl | rfl | rfl | rfl <;>
      rfl

theorem mem_digit (x : List Char) :
    x ∈ digit.matches' ↔ ∃ c : Char, c.isDigit = true ∧ x = [c] := by
  simp only [digit, mem_oneOf, isDigit_iff]

/-- Any number of digits, one after the other. -/
theorem mem_star_digit (x : List Char) :
    x ∈ (RegularExpression.star digit).matches' ↔
      ∀ c ∈ x, c.isDigit = true := by
  rw [RegularExpression.matches', Language.mem_kstar]
  constructor
  · rintro ⟨pieces, rfl, hpieces⟩ c hc
    obtain ⟨piece, hpiece, hc⟩ := List.mem_flatten.mp hc
    obtain ⟨c', hc', rfl⟩ := (mem_digit piece).mp (hpieces piece hpiece)
    rw [List.mem_singleton] at hc
    rwa [hc]
  · intro h
    have hx : x = (x.map fun c => [c]).flatten := by
      simp [← List.flatMap_def]
    refine ⟨x.map fun c => [c], hx, fun piece hpiece => ?_⟩
    obtain ⟨c, hc, rfl⟩ := List.mem_map.mp hpiece
    exact (mem_digit [c]).mpr ⟨c, h c hc, rfl⟩

theorem mem_suffix (x : List Char) :
    x ∈ (RegularExpression.plus .epsilon
        (oneOf ['k', 'K', 'm', 'M'])).matches' ↔
      ∃ factor, (x, factor) ∈ factors := by
  simp only [RegularExpression.matches', Language.mem_add, Language.mem_one,
    mem_oneOf, factors, List.mem_cons, Prod.mk.injEq, List.not_mem_nil, or_false]
  constructor
  · rintro (rfl | ⟨c, rfl | rfl | rfl | rfl, rfl⟩) <;> simp
  · rintro ⟨factor, ⟨rfl, -⟩ | ⟨rfl, -⟩ | ⟨rfl, -⟩ | ⟨rfl, -⟩ | ⟨rfl, -⟩⟩ <;>
      simp

/-- The regular expression accepts the limits as they are to be written. -/
theorem rmatch_iff (s : String) :
    re.rmatch s.toList = true ↔ ∃ digits factor, Measure s digits factor := by
  rw [RegularExpression.rmatch_iff_matches', re, RegularExpression.matches',
    Language.mem_mul]
  constructor
  · rintro ⟨body, hbody, suffix, hsuffix, hs⟩
    rw [RegularExpression.matches', Language.mem_mul] at hbody
    obtain ⟨first, hfirst, more, hmore, rfl⟩ := hbody
    obtain ⟨c, hc, rfl⟩ := (mem_digit first).mp hfirst
    obtain ⟨factor, hf⟩ := (mem_suffix suffix).mp hsuffix
    have hmore := (mem_star_digit more).mp hmore
    refine ⟨[c] ++ more, factor, ⟨suffix, hs.symm, hf⟩, ?_, by simp⟩
    intro c' hc'
    rcases List.mem_cons.mp hc' with rfl | hc'
    · exact hc
    · exact hmore c' hc'
  · rintro ⟨digits, factor, ⟨suffix, hs, hf⟩, hdigits, hne⟩
    obtain ⟨c, more, rfl⟩ := List.exists_cons_of_ne_nil hne
    refine ⟨c :: more, ?_, suffix, (mem_suffix suffix).mpr ⟨factor, hf⟩,
      hs.symm⟩
    rw [RegularExpression.matches', Language.mem_mul]
    exact ⟨[c], (mem_digit [c]).mpr ⟨c, hdigits c List.mem_cons_self, rfl⟩,
      more, (mem_star_digit more).mpr fun c' hc' =>
        hdigits c' (List.mem_cons_of_mem c hc'), rfl⟩

/-! ## The speed limit -/

theorem stoul_digits {s : String} {digits : List Char} (hs : s.toList = digits)
    (hdigits : ∀ c ∈ digits, c.isDigit = true) (hne : digits ≠ []) :
    stoul s = if Numeral.decimal digits < sizeModulus then
        .ok (Numeral.decimal digits)
      else .error .outOfRange := by
  unfold stoul
  rw [hs, Numeral.scan_of_front (Numeral.front_digits hne hdigits)]
  rfl

theorem withoutSuffix_spec {s : String} {digits : List Char} {c : Char}
    (hs : s.toList = digits ++ [c]) : (withoutSuffix s).toList = digits := by
  rw [withoutSuffix, String.toList_ofList, hs, List.dropLast_concat]

/-- What becomes of digits and a suffix. -/
theorem convertLimit_spec {s : String} {digits : List Char} {factor : Nat}
    (h : Measure s digits factor) :
    convertLimit s = if Numeral.decimal digits < sizeModulus then
        .ok (Numeral.decimal digits * factor % sizeModulus)
      else .error .outOfRange := by
  obtain ⟨⟨suffix, hs, hf⟩, hdigits, hne⟩ := h
  have hstoul {c : Char} (hc : s.toList = digits ++ [c]) :=
    stoul_digits (withoutSuffix_spec hc) hdigits hne
  have hlast {c : Char} (hc : s.toList = digits ++ [c]) :
      s.toList.getLast? = some c := by rw [hc, List.getLast?_concat]
  simp only [factors, List.mem_cons, Prod.mk.injEq, List.not_mem_nil,
    or_false] at hf
  unfold convertLimit
  rcases hf with ⟨rfl, rfl⟩ | hf
  · rw [List.append_nil] at hs
    have hdigit : ∀ c ∈ digits.getLast?, c.isDigit = true :=
      fun c hc => hdigits c (List.mem_of_getLast? hc)
    rw [hs, stoul_digits hs hdigits hne, Nat.mul_one]
    split
    · next heq => cases hdigit 'k' heq
    · next heq => cases hdigit 'K' heq
    · next heq => cases hdigit 'm' heq
    · next heq => cases hdigit 'M' heq
    · split
      · next hlt => rw [Nat.mod_eq_of_lt hlt]
      · rfl
  · by_cases hfits : Numeral.decimal digits < sizeModulus
    · simp only [if_pos hfits] at hstoul ⊢
      rcases hf with ⟨rfl, rfl⟩ | ⟨rfl, rfl⟩ | ⟨rfl, rfl⟩ | ⟨rfl, rfl⟩ <;>
        simp only [hlast hs, hstoul hs, Except.map, Nat.mod_mul_mod,
          Nat.mul_assoc]
    · simp only [if_neg hfits] at hstoul ⊢
      rcases hf with ⟨rfl, rfl⟩ | ⟨rfl, rfl⟩ | ⟨rfl, rfl⟩ | ⟨rfl, rfl⟩ <;>
        simp only [hlast hs, hstoul hs, Except.map]

/-- The product is only looked at once it is reduced. -/
theorem parseSpeedLimit_spec {s : String} {digits : List Char} {factor : Nat}
    (h : Measure s digits factor) :
    parseSpeedLimit s = if Numeral.decimal digits < sizeModulus then
        if Numeral.decimal digits * factor % sizeModulus = 0 then
          .error (.runtimeError "Invalid sped limit")
        else .ok (Numeral.decimal digits * factor % sizeModulus)
      else .error .outOfRange := by
  have hre : re.rmatch s.toList = true := (rmatch_iff s).mpr ⟨digits, factor, h⟩
  unfold parseSpeedLimit
  rw [hre, convertLimit_spec h]
  by_cases hfits : Numeral.decimal digits < sizeModulus
  · rw [if_pos hfits, if_pos hfits]
    by_cases hzero : Numeral.decimal digits * factor % sizeModulus = 0
    · rw [if_pos hzero, hzero]
      rfl
    · rw [if_neg hzero]
      change (if _ = 0 then _ else _) = _
      rw [if_neg hzero]
      rfl
  · rw [if_neg hfits, if_neg hfits]
    rfl

theorem parseSpeedLimit_other {s : String}
    (h : ¬ ∃ digits factor, Measure s digits factor) :
    parseSpeedLimit s = .error (.runtimeError "Invalid sped limit") := by
  have hre : re.rmatch s.toList = false := by
    rw [Bool.eq_false_iff]
    exact fun hre => h ((rmatch_iff s).mp hre)
  unfold parseSpeedLimit
  rw [hre]
  rfl

/-- A limit that is accepted is positive. -/
theorem parseSpeedLimit_pos {s : String} {limit : Nat}
    (h : parseSpeedLimit s = .ok limit) : 0 < limit := by
  by_cases hm : ∃ digits factor, Measure s digits factor
  · obtain ⟨digits, factor, hm⟩ := hm
    rw [parseSpeedLimit_spec hm] at h
    split at h
    · split at h
      · cases h
      · next hne =>
          cases h
          exact Nat.pos_of_ne_zero hne
    · cases h
  · rw [parseSpeedLimit_other hm] at h
    cases h

/-! ## The concurrency -/

/-- `stol` uses the whole string when nothing follows the number. -/
theorem used_iff {s : String} {n : Numeral} {rest : List Char}
    (h : Numeral.Front n s.toList rest) :
    s.length - rest.length = s.length ↔ rest = [] := by
  obtain ⟨⟨spaces, sgn, hs, -⟩, -, hne, -⟩ := h
  have hlength : s.length = spaces.length +
      (sgn.length + (n.digits.length + rest.length)) := by
    rw [← String.length_toList, hs]
    simp only [List.length_append]
  have hpos : 0 < n.digits.length := List.length_pos_iff.mpr hne
  rw [← List.length_eq_zero_iff]
  omega

theorem asLong_spec (nonNumeric : String → String) {s : String} {n : Numeral}
    {rest : List Char} (h : Numeral.Front n s.toList rest) :
    asLong nonNumeric s = if FitsLong n.value then
        if rest = [] then .ok n.value
        else .error (.runtimeError (nonNumeric s))
      else .error .outOfRange := by
  unfold asLong stol
  rw [Numeral.scan_of_front h]
  dsimp only
  by_cases hfits : FitsLong n.value
  · rw [if_pos hfits, if_pos hfits]
    change (if s.length - rest.length ≠ s.length then _ else _) = _
    by_cases hrest : rest = []
    · rw [if_neg (not_not_intro ((used_iff h).mpr hrest)), if_pos hrest]
      rfl
    · rw [if_pos (mt (used_iff h).mp hrest), if_neg hrest]
      rfl
  · rw [if_neg hfits, if_neg hfits]
    rfl

theorem parseConcurrency_spec (nonNumeric : String → String) {s : String}
    {n : Numeral} {rest : List Char} (h : Numeral.Front n s.toList rest) :
    parseConcurrency nonNumeric s = if FitsLong n.value then
        if rest = [] then
          if n.value < 0 then .error (.runtimeError "Invalid concurrency")
          else .ok n.value.toNat
        else .error (.runtimeError (nonNumeric s))
      else .error .outOfRange := by
  unfold parseConcurrency
  rw [asLong_spec nonNumeric h]
  by_cases hfits : FitsLong n.value
  · rw [if_pos hfits, if_pos hfits]
    by_cases hrest : rest = []
    · rw [if_pos hrest, if_pos hrest]
      rfl
    · rw [if_neg hrest, if_neg hrest]
      rfl
  · rw [if_neg hfits, if_neg hfits]
    rfl

theorem parseConcurrency_other (nonNumeric : String → String) {s : String}
    (h : ¬ ∃ n rest, Numeral.Front n s.toList rest) :
    parseConcurrency nonNumeric s = .error .invalidArgument := by
  have hscan : Numeral.scan s.toList = none := by
    cases hscan : Numeral.scan s.toList with
    | none => rfl
    | some found => exact absurd ⟨_, _, Numeral.front_of_scan hscan⟩ h
  unfold parseConcurrency asLong stol
  rw [hscan]
  rfl

/-! ## What the options are to be -/

/-- The options are what the arguments say. -/
structure Exact (args : Arguments) (o : ProgramOptions) : Prop where
  concurrency : ∃ n, Numeral.Front n args.concurrency.toList [] ∧
    (o.concurrency : Int) = n.value
  limit : ∃ digits factor, Measure args.speedLimit digits factor ∧
    o.limit = Numeral.decimal digits * factor
  positive : 0 < o.limit
  path : o.path = args.outputPath
  taskFname : o.taskFname = args.taskFileName

def messages (nonNumeric : String → String) (args : Arguments) : List String :=
  [nonNumeric args.concurrency, "Invalid concurrency", "Invalid sped limit"]

/-- Exact options, or a message with the usage and the exit code 1. -/
def ExactOrRefused (nonNumeric : String → String) (args : Arguments) :
    Outcome → Prop
  | .returned o => Exact args o
  | .exited code output => code = 1 ∧
      ∃ message ∈ messages nonNumeric args, output = message ++ "\n" ++ usage
  | .escaped _ => False

/-- The concurrency begins with a number for `long`; and if it is one that is
accepted, the limit's digits are a number for `size_t` and with the suffix still
one, or a multiple of its modulus. -/
structure Convertible (args : Arguments) : Prop where
  concurrency : ∃ n rest, Numeral.Front n args.concurrency.toList rest ∧
    FitsLong n.value
  speedLimit : ∀ n, Numeral.Front n args.concurrency.toList [] → 0 ≤ n.value →
    ∀ digits factor, Measure args.speedLimit digits factor →
      Numeral.decimal digits < sizeModulus ∧
        (Numeral.decimal digits * factor < sizeModulus ∨
          sizeModulus ∣ Numeral.decimal digits * factor)

section

variable {nonNumeric : String → String} {args : Arguments}

theorem parse_of_concurrency {e : Exception}
    (h : parseConcurrency nonNumeric args.concurrency = .error e) :
    parse nonNumeric args = caught e := by
  unfold parse
  rw [h]
  rfl

theorem parse_of_limit {c : Nat} {e : Exception}
    (hc : parseConcurrency nonNumeric args.concurrency = .ok c)
    (hl : parseSpeedLimit args.speedLimit = .error e) :
    parse nonNumeric args = caught e := by
  unfold parse
  rw [hc, hl]
  rfl

theorem parse_of_both {c limit : Nat}
    (hc : parseConcurrency nonNumeric args.concurrency = .ok c)
    (hl : parseSpeedLimit args.speedLimit = .ok limit) :
    parse nonNumeric args =
      .returned ⟨c, limit, args.outputPath, args.taskFileName⟩ := by
  unfold parse
  rw [hc, hl]
  rfl

/-- The two names are returned as they are. -/
theorem parse_returned {o : ProgramOptions}
    (h : parse nonNumeric args = .returned o) :
    parseSpeedLimit args.speedLimit = .ok o.limit ∧
      o.path = args.outputPath ∧ o.taskFname = args.taskFileName := by
  have hcaught (e : Exception) : caught e ≠ .returned o := by
    cases e <;> exact nofun
  cases hc : parseConcurrency nonNumeric args.concurrency with
  | error e =>
      rw [parse_of_concurrency hc] at h
      exact absurd h (hcaught e)
  | ok c =>
      cases hl : parseSpeedLimit args.speedLimit with
      | error e =>
          rw [parse_of_limit hc hl] at h
          exact absurd h (hcaught e)
      | ok limit =>
          rw [parse_of_both hc hl] at h
          cases h
          exact ⟨rfl, rfl, rfl⟩

theorem parse_limit_pos {o : ProgramOptions}
    (h : parse nonNumeric args = .returned o) : 0 < o.limit :=
  parseSpeedLimit_pos (parse_returned h).1

theorem refused {what : String} (h : what ∈ messages nonNumeric args) :
    ExactOrRefused nonNumeric args (caught (.runtimeError what)) :=
  ⟨rfl, what, h, rfl⟩

/-- What is returned has the limit's own product only when that fits. -/
theorem exact_iff {n : Numeral} {digits : List Char} {factor : Nat}
    (hn : Numeral.Front n args.concurrency.toList []) (hpos : 0 ≤ n.value)
    (hm : Measure args.speedLimit digits factor)
    (hne : Numeral.decimal digits * factor % sizeModulus ≠ 0) :
    Exact args ⟨n.value.toNat, Numeral.decimal digits * factor % sizeModulus,
        args.outputPath, args.taskFileName⟩ ↔
      Numeral.decimal digits * factor < sizeModulus := by
  constructor
  · intro h
    obtain ⟨digits', factor', hm', hlimit⟩ := h.limit
    obtain ⟨rfl, rfl⟩ := hm.unique hm'
    rw [← hlimit]
    exact Nat.mod_lt _ (by decide)
  · intro hlt
    exact
      { concurrency := ⟨n, hn, Int.toNat_of_nonneg hpos⟩
        limit := ⟨digits, factor, hm, Nat.mod_eq_of_lt hlt⟩
        positive := Nat.pos_of_ne_zero hne
        path := rfl
        taskFname := rfl }

/-- Once the concurrency is accepted, the limit decides. -/
theorem exactOrRefused_of_concurrency {n : Numeral}
    (hn : Numeral.Front n args.concurrency.toList []) (hpos : 0 ≤ n.value)
    (hc : parseConcurrency nonNumeric args.concurrency = .ok n.value.toNat) :
    ExactOrRefused nonNumeric args (parse nonNumeric args) ↔
      ∀ digits factor, Measure args.speedLimit digits factor →
        Numeral.decimal digits < sizeModulus ∧
          (Numeral.decimal digits * factor < sizeModulus ∨
            sizeModulus ∣ Numeral.decimal digits * factor) := by
  by_cases hm : ∃ digits factor, Measure args.speedLimit digits factor
  · obtain ⟨digits, factor, hm⟩ := hm
    have hspec := parseSpeedLimit_spec hm
    have hone : (∀ d f, Measure args.speedLimit d f →
        Numeral.decimal d < sizeModulus ∧
          (Numeral.decimal d * f < sizeModulus ∨
            sizeModulus ∣ Numeral.decimal d * f)) ↔
        Numeral.decimal digits < sizeModulus ∧
          (Numeral.decimal digits * factor < sizeModulus ∨
            sizeModulus ∣ Numeral.decimal digits * factor) := by
      refine ⟨fun h => h digits factor hm, fun h d f hdf => ?_⟩
      obtain ⟨rfl, rfl⟩ := hm.unique hdf
      exact h
    rw [hone]
    by_cases hfits : Numeral.decimal digits < sizeModulus
    · rw [if_pos hfits] at hspec
      by_cases hzero : Numeral.decimal digits * factor % sizeModulus = 0
      · rw [if_pos hzero] at hspec
        rw [parse_of_limit hc hspec]
        refine iff_of_true (refused (by simp [messages])) ⟨hfits, .inr ?_⟩
        exact Nat.dvd_of_mod_eq_zero hzero
      · rw [if_neg hzero] at hspec
        rw [parse_of_both hc hspec]
        refine (exact_iff hn hpos hm hzero).trans ⟨fun h => ⟨hfits, .inl h⟩, ?_⟩
        rintro ⟨-, h | h⟩
        · exact h
        · exact absurd (Nat.mod_eq_zero_of_dvd h) hzero
    · rw [if_neg hfits] at hspec
      rw [parse_of_limit hc hspec]
      exact iff_of_false id fun h => hfits h.1
  · rw [parse_of_limit hc (parseSpeedLimit_other hm)]
    refine iff_of_true (refused (by simp [messages])) fun digits factor h => ?_
    exact absurd ⟨digits, factor, h⟩ hm

/-- The options are exact or refused just when the two strings can be
converted. -/
theorem exactOrRefused_iff (nonNumeric : String → String) (args : Arguments) :
    ExactOrRefused nonNumeric args (parse nonNumeric args) ↔
      Convertible args := by
  have hfronts {n n' rest rest'}
      (h : Numeral.Front n args.concurrency.toList rest)
      (h' : Numeral.Front n' args.concurrency.toList rest') :
      n = n' ∧ rest = rest' := by
    have heq := (Numeral.scan_of_front h).symm.trans (Numeral.scan_of_front h')
    exact Prod.mk.inj (Option.some.inj heq)
  by_cases hfront : ∃ n rest, Numeral.Front n args.concurrency.toList rest
  · obtain ⟨n, rest, hn⟩ := hfront
    have hspec := parseConcurrency_spec nonNumeric hn
    by_cases hfits : FitsLong n.value
    · rw [if_pos hfits] at hspec
      by_cases hrest : rest = []
      · subst hrest
        rw [if_pos rfl] at hspec
        by_cases hneg : n.value < 0
        · rw [if_pos hneg] at hspec
          rw [parse_of_concurrency hspec]
          refine iff_of_true (refused (by simp [messages]))
            ⟨⟨n, [], hn, hfits⟩, fun n' hn' hpos => ?_⟩
          obtain ⟨rfl, -⟩ := hfronts hn hn'
          exact absurd hneg (Int.not_lt.mpr hpos)
        · rw [if_neg hneg] at hspec
          have hpos := Int.not_lt.mp hneg
          rw [exactOrRefused_of_concurrency hn hpos hspec]
          refine ⟨fun h => ⟨⟨n, [], hn, hfits⟩, fun _ _ _ => h⟩, fun h => ?_⟩
          exact h.speedLimit n hn hpos
      · rw [if_neg hrest] at hspec
        rw [parse_of_concurrency hspec]
        refine iff_of_true (refused (by simp [messages]))
          ⟨⟨n, rest, hn, hfits⟩, fun n' hn' => ?_⟩
        exact absurd (hfronts hn hn').2 hrest
    · rw [if_neg hfits] at hspec
      rw [parse_of_concurrency hspec]
      refine iff_of_false id fun h => ?_
      obtain ⟨n', rest', hn', hfits'⟩ := h.concurrency
      obtain ⟨rfl, -⟩ := hfronts hn hn'
      exact hfits hfits'
  · rw [parse_of_concurrency (parseConcurrency_other nonNumeric hfront)]
    refine iff_of_false id fun h => ?_
    obtain ⟨n, rest, hn, -⟩ := h.concurrency
    exact hfront ⟨n, rest, hn⟩

end

/-- What docopt says of an argument that goes on after its number. -/
def nonNumericText (s : String) : String :=
  s ++ " contains non-numeric characters."

/-- A limit of `18014398509481985k` is taken for 1024, and a concurrency that is
no number is not refused. -/
theorem not_exactOrRefused :
    ¬ ExactOrRefused nonNumericText
        ⟨"5", "18014398509481985k", "out/", "links.txt"⟩
        (parse nonNumericText
          ⟨"5", "18014398509481985k", "out/", "links.txt"⟩) ∧
      ¬ ExactOrRefused nonNumericText ⟨"five", "2000k", "out/", "links.txt"⟩
        (parse nonNumericText ⟨"five", "2000k", "out/", "links.txt"⟩) := by
  have hproduct : parse nonNumericText
      ⟨"5", "18014398509481985k", "out/", "links.txt"⟩ =
      .returned ⟨5, 1024, "out/", "links.txt"⟩ := by decide
  have hfive : parse nonNumericText ⟨"five", "2000k", "out/", "links.txt"⟩ =
      .escaped .invalidArgument := by decide
  rw [hproduct, hfive]
  refine ⟨fun h => ?_, id⟩
  obtain ⟨digits, factor, hm, hlimit⟩ := Exact.limit h
  have hm' : Measure "18014398509481985k" "18014398509481985".toList 1024 :=
    ⟨⟨['k'], rfl, by simp [factors]⟩, by simp, by simp⟩
  obtain ⟨rfl, rfl⟩ := hm.unique hm'
  revert hlimit
  decide

end ProgramOptions

end EcwidDownloader
