import EcwidDownloader.Proofs.EachSocket
import EcwidDownloader.Proofs.ProgramOptions

/-!
# The arithmetic of the throttle

The limit is multiplied twice in `size_t`: by four for the buffers, when a stream
is added, and by the milliseconds that have passed, when the streams are given
their bytes. In every run with throttled sockets the limit stays what the
controller was made with, and the buffer of every socket is what the first product
leaves of it. The options allow any limit in `size_t`, so both products wrap for
limits that are accepted; up to 4294967297 neither does.
-/

namespace EcwidDownloader

open Lib ControllerSimple

namespace ThrottledStreams

/-! ## What the limit is in a run -/

/-- The socket has the buffer that `add_stream` makes of the limit. -/
def Limited (limit : Nat) (tcp : TCPSocketBandwidth) : Prop :=
  tcp.bufferMaxLength = limit * 4 % sizeModulus

theorem max_bufferData (data : Bytes) (tcp : TCPSocketBandwidth) :
    (TCPSocketBandwidth.bufferData data tcp).bufferMaxLength =
      tcp.bufferMaxLength := by
  unfold TCPSocketBandwidth.bufferData
  dsimp only
  split <;> rfl

/-- No socket gets another one. -/
theorem limited_endures (limit : Nat) :
    Lasting limit fun _ => Limited limit where
  fresh _ _ _ := rfl
  call {_ tcp} c hl := by
    have hlevel := TCPSocketBandwidth.level_call c tcp
    simp only [TCPSocketBandwidth.level, Prod.mk.injEq] at hlevel
    exact hlevel.2.2.2.1.trans hl
  popped hl _ := hl
  halted := id
  resumed := id
  received {_ tcp} data hl := (max_bufferData data tcp).trans hl
  ended := id
  listening _ := id

/-! ## The products -/

/-- In every run with the limit, every stream has a buffer of four times the
limit, and some room in it, and the budget of that many milliseconds is the
limit's share of a second. -/
def Unwrapped (limit elapsed : Nat) : Prop :=
  ∀ hist h, Run Step (created limit) hist h → ∀ x, Passes hist h x →
    (∀ (i : Nat) (s : Sock), x.world.socks[i]? = some s →
      s.tcp.bufferMaxLength = limit * 4 ∧ 0 < s.tcp.bufferMaxLength) ∧
    budget elapsed x.ctl = limit * elapsed / 1000

/-- A remainder in place of a number shows in its thousandths. -/
theorem thousandth_iff (n : Nat) :
    n % sizeModulus / 1000 = n / 1000 ↔ n < sizeModulus := by
  rw [sizeModulus]
  omega

theorem unwrapped_iff {limit elapsed : Nat} (hpos : 0 < limit) :
    Unwrapped limit elapsed ↔
      limit * 4 < sizeModulus ∧ limit * elapsed < sizeModulus := by
  constructor
  · intro h
    have hcreate : Run Step (created limit)
        ([] ++ [(created limit, (.act .create, fun _ _ _ => []))])
        (createSock (created limit)) :=
      .snoc .nil ⟨0, rfl⟩
    obtain ⟨hbuffer, hbudget⟩ := h _ _ hcreate _ .last
    have hsock : (createSock (created limit)).world.socks[0]? =
        some (freshSock (created limit)) := by
      rw [createSock_eq]
      rfl
    have hmax : limit * 4 % sizeModulus = limit * 4 :=
      (hbuffer 0 _ hsock).1
    refine ⟨?_, (thousandth_iff _).mp hbudget⟩
    rw [← hmax]
    exact Nat.mod_lt _ (by decide)
  · rintro ⟨hmax, hbudget⟩ hist h hr x hx
    have hl := (limited_endures limit).run hr hx
    refine ⟨fun i s hs => ?_, ?_⟩
    · have hbuffer : s.tcp.bufferMaxLength = limit * 4 % sizeModulus :=
        hl.each i s hs
      rw [hbuffer, Nat.mod_eq_of_lt hmax]
      exact ⟨rfl, by omega⟩
    · rw [budget, hl.own, Nat.mod_eq_of_lt hbudget]

/-- 4294967297 is the largest limit for which no number of milliseconds below
`2 ^ 32` makes the product wrap. -/
theorem product_fits_iff (limit : Nat) :
    (∀ elapsed < 2 ^ 32, limit * elapsed < sizeModulus) ↔
      limit ≤ 4294967297 := by
  have hsize : sizeModulus = 2 ^ 64 := rfl
  constructor
  · intro h
    have hmost := h (2 ^ 32 - 1) (by decide)
    omega
  · intro hle elapsed hlt
    have hmost : limit * elapsed ≤ 4294967297 * (2 ^ 32 - 1) :=
      Nat.mul_le_mul hle (by omega)
    omega

/-- For every limit the options allow: the products for a number of milliseconds
are exact while both fit into `size_t`, and they are for every number of
milliseconds up to a limit of 4294967297. -/
theorem throttle_unwrapped_iff {nonNumeric : String → String} {args : Arguments}
    {o : ProgramOptions}
    (hparse : ProgramOptions.parse nonNumeric args = .returned o) :
    (∀ elapsed < 2 ^ 32, (Unwrapped o.limit elapsed ↔
      o.limit < 2 ^ 62 ∧ o.limit * elapsed < 2 ^ 64)) ∧
    ((∀ elapsed < 2 ^ 32, Unwrapped o.limit elapsed) ↔
      o.limit ≤ 4294967297) := by
  have hpos := ProgramOptions.parse_limit_pos hparse
  have hsize : sizeModulus = 2 ^ 64 := rfl
  have hfour : o.limit * 4 < sizeModulus ↔ o.limit < 2 ^ 62 := by omega
  refine ⟨fun elapsed _ => ?_, ?_⟩
  · rw [unwrapped_iff hpos, hfour, hsize]
  · rw [← product_fits_iff]
    constructor
    · intro h elapsed hlt
      exact ((unwrapped_iff hpos).mp (h elapsed hlt)).2
    · intro h elapsed hlt
      have hle := (product_fits_iff o.limit).mp h
      exact (unwrapped_iff hpos).mpr ⟨by omega, h elapsed hlt⟩

/-- The limit of the documented call. -/
theorem throttle_unwrapped_2000k : ∃ o : ProgramOptions,
    ProgramOptions.parse id ⟨"5", "2000k", "output_folder", "links.txt"⟩ =
      .returned o ∧
    ∀ elapsed < 2 ^ 32, Unwrapped o.limit elapsed := by
  have hparse : ProgramOptions.parse id
      ⟨"5", "2000k", "output_folder", "links.txt"⟩ =
      .returned ⟨5, 2048000, "output_folder", "links.txt"⟩ := by decide
  exact ⟨_, hparse, (throttle_unwrapped_iff hparse).2.mpr (by decide)⟩

/-- With a limit of `2 ^ 62` the buffers have no room. -/
theorem throttle_wraps : ∃ o : ProgramOptions,
    ProgramOptions.parse id
        ⟨"5", "4611686018427387904", "out/", "links.txt"⟩ = .returned o ∧
      ¬ ∀ elapsed < 2 ^ 32, Unwrapped o.limit elapsed := by
  have hparse : ProgramOptions.parse id
      ⟨"5", "4611686018427387904", "out/", "links.txt"⟩ =
      .returned ⟨5, 4611686018427387904, "out/", "links.txt"⟩ := by decide
  refine ⟨_, hparse, fun h => ?_⟩
  have hfits := (unwrapped_iff (by decide)).mp (h 0 (by decide))
  exact absurd hfits.1 (by decide)

end ThrottledStreams

end EcwidDownloader
