import Mathlib.Data.List.Basic

/-!
# Strings of chars

A `std::string` holds chars, which are bytes: it has one character here for each
of them. Bytes become a text and a text becomes bytes one by one, whatever a
reader takes the text to be encoded in.
-/

namespace EcwidDownloader.Lib

/-- `std::string{data, length}`. -/
def text (data : List UInt8) : String :=
  String.ofList (data.map fun b => Char.ofNat b.toNat)

/-- The chars of a string. A character beyond them, which no string of a program
has, counts as the last one. -/
def bytes (s : String) : List UInt8 :=
  s.toList.map fun c => UInt8.ofNat (min c.toNat 255)

example : bytes (text [71, 0, 195, 164, 255]) = [71, 0, 195, 164, 255] := by
  decide

theorem text_append (a b : List UInt8) : text (a ++ b) = text a ++ text b := by
  simp [text]

theorem text_ne_empty {data : List UInt8} (h : data ≠ []) : text data ≠ "" := by
  cases data with
  | nil => exact absurd rfl h
  | cons b data => simp [text]

theorem bytes_append (s t : String) : bytes (s ++ t) = bytes s ++ bytes t := by
  simp [bytes, String.toList_append]

theorem bytes_ne_nil {s : String} (h : s ≠ "") : bytes s ≠ [] := by
  intro hnil
  exact h (String.toList_eq_nil_iff.mp (List.map_eq_nil_iff.mp hnil))

/-- A bound on the characters is one on the bytes. -/
theorem lt_byte {s : String} {n : Nat} (hn : n < 255)
    (h : ∀ c ∈ s.toList, n < c.toNat) : ∀ b ∈ bytes s, n < b.toNat := by
  intro b hb
  obtain ⟨c, hc, rfl⟩ := List.mem_map.mp hb
  have hlt := h c hc
  rw [UInt8.toNat_ofNat']
  omega

end EcwidDownloader.Lib
