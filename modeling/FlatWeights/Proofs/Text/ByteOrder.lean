import FlatWeights.Bytes
import Mathlib.Order.Basic

/-!
The order of names and the order of their bytes. Names are compared character by character
everywhere, and a store of tensors enumerates its keys in the order of their bytes. The two orders
are one (`bytes_lt_iff`), and that is a fact about the encoding: of two characters the smaller one
never has more bytes than the other, where it has fewer its first byte is smaller, and where the
two have as many the bytes hold the digits of the characters to base 64, highest digit first.

Nothing here follows from the encoding being injective. A code that stored the digits of a
character lowest first would be as injective and would have another order.
-/

set_option autoImplicit false

namespace FlatWeights.Text

/-- The bytes of a text. -/
def bytes (s : String) : Bytes := s.toUTF8.data.toList

/-- The bytes of a text are those of its characters, one after the other. -/
theorem bytes_eq_flatMap (s : String) : bytes s = s.toList.flatMap String.utf8EncodeChar := by
  rw [bytes, String.toUTF8_eq_toByteArray, ← String.utf8Encode_toList, List.utf8Encode,
    List.toList_data_toByteArray]

/-! ## One character -/

/-- The bytes of a smaller character come first, whatever follows the two. -/
theorem encode_append_lt {c d : Char} (h : c < d) (s t : Bytes) :
    String.utf8EncodeChar c ++ s < String.utf8EncodeChar d ++ t := by
  have hlt : c.val.toNat < d.val.toNat := h
  have hbound : d.val.toNat < 0x110000 := by
    rcases d.valid with hd | hd <;> omega
  unfold String.utf8EncodeChar
  generalize c.val.toNat = m at hlt
  generalize d.val.toNat = n at hlt hbound
  -- the divisors of the encoding are powers of 64, and the mark of a byte leaves its digit alone
  have hm : m / 4096 = m / 64 / 64 := by omega
  have hn : n / 4096 = n / 64 / 64 := by omega
  have hmtop : (m / 262144 % 8 + 240) % 256 = m / 64 / 64 / 64 + 240 := by omega
  have hntop : (n / 262144 % 8 + 240) % 256 = n / 64 / 64 / 64 + 240 := by omega
  have hone (k : Nat) : (k % 64 + 128) % 256 = k % 64 + 128 := by omega
  have htwo (k : Nat) : (k % 32 + 192) % 256 = k % 32 + 192 := by omega
  have hthree (k : Nat) : (k % 16 + 224) % 256 = k % 16 + 224 := by omega
  simp only [hm, hn]
  -- one goal for each pair of lengths, in which the bytes are compared as numbers
  repeat' split
  all_goals
    simp only [List.cons_append, List.nil_append, List.cons_lt_cons_iff, UInt8.lt_iff_toNat_lt,
      ← UInt8.toNat_inj, UInt8.toNat_ofNat', Nat.reducePow, hone, htwo, hthree, hmtop, hntop,
      Nat.add_lt_add_iff_right, Nat.add_right_cancel_iff]
  all_goals omega

/-! ## Texts -/

theorem flatMap_encode_lt {xs ys : List Char} (h : xs < ys) :
    xs.flatMap String.utf8EncodeChar < ys.flatMap String.utf8EncodeChar := by
  induction xs generalizing ys with
  | nil =>
    cases ys with
    | nil => exact absurd h (List.lt_irrefl [])
    | cons d ys =>
      obtain ⟨b, rest, hd⟩ := List.exists_cons_of_ne_nil (String.utf8EncodeChar_ne_nil (c := d))
      rw [List.flatMap_nil, List.flatMap_cons, hd]
      exact List.nil_lt_cons ..
  | cons c xs ih =>
    cases ys with
    | nil => exact absurd h (List.not_lt_nil _)
    | cons d ys =>
      rw [List.flatMap_cons, List.flatMap_cons]
      -- the first characters decide as soon as they differ, as no code is the front of another
      rcases List.cons_lt_cons_iff.1 h with hcd | ⟨rfl, hrest⟩
      · exact encode_append_lt hcd _ _
      · exact List.append_left_lt (ih hrest)

/-- **Texts are in the order of their bytes.** -/
theorem bytes_lt_iff {a b : String} : bytes a < bytes b ↔ a < b := by
  have hmono {a b : String} (h : a < b) : bytes a < bytes b := by
    rw [bytes_eq_flatMap, bytes_eq_flatMap]
    exact flatMap_encode_lt (String.lt_iff.1 h)
  refine ⟨fun h => ?_, hmono⟩
  by_contra hab
  by_cases heq : b = a
  · exact List.lt_irrefl _ (heq ▸ h)
  · exact List.lt_asymm h (hmono (Std.lt_of_le_of_ne (String.not_lt.1 hab) heq))

end FlatWeights.Text
