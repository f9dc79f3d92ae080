import FlatWeights.Blocks

/-!
Bytes and the numbers that they stand for. Every number of more than one byte is written with its
lowest byte first. `ofBytes_toBytes` and `toBytes_ofBytes` say that the numbers that have room in
`width` bytes and the lists of `width` bytes correspond.
-/

set_option autoImplicit false

namespace FlatWeights

/-- The content of a file. -/
abbrev Bytes := List UInt8

namespace LittleEndian

/-- The lowest `width` bytes of a number, lowest first. -/
def toBytes : Nat → Nat → Bytes
  | 0, _ => []
  | width + 1, n => UInt8.ofNat (n % 256) :: toBytes width (n / 256)

/-- The number that bytes stand for, lowest first. -/
def ofBytes : Bytes → Nat
  | [] => 0
  | b :: rest => b.toNat + 256 * ofBytes rest

/-- The first number that has no room in `width` bytes. -/
def capacity : Nat → Nat
  | 0 => 1
  | width + 1 => 256 * capacity width

/-- The numbers that consecutive groups of `width` bytes stand for; bytes of an unfinished last
group are left out. -/
def words (width : Nat) (bytes : Bytes) : List Nat :=
  (blocks width (bytes.length / width) bytes).map ofBytes

/-! ## Numbers and bytes correspond -/

/-- A number is written with as many bytes as asked for. -/
@[simp] theorem length_toBytes (width n : Nat) : (toBytes width n).length = width := by
  induction width generalizing n with
  | zero => rfl
  | succ width ih => simp [toBytes, ih]

/-- A number read is one of its width. -/
theorem ofBytes_lt (bytes : Bytes) : ofBytes bytes < capacity bytes.length := by
  induction bytes with
  | nil => simp [ofBytes, capacity]
  | cons b rest ih =>
    have hb : b.toNat < 256 := b.toNat_lt
    simp only [ofBytes, List.length_cons, capacity]
    omega

/-- A number that fits its width is read back. -/
theorem ofBytes_toBytes (width n : Nat) (h : n < capacity width) :
    ofBytes (toBytes width n) = n := by
  induction width generalizing n with
  | zero =>
    have hn : n = 0 := Nat.lt_one_iff.1 h
    simp [toBytes, ofBytes, hn]
  | succ width ih =>
    have hq : n / 256 < capacity width := Nat.div_lt_of_lt_mul h
    have hm : (UInt8.ofNat (n % 256)).toNat = n % 256 := by
      simp [UInt8.toNat_ofNat']
    simp only [toBytes, ofBytes, ih _ hq, hm]
    omega

/-- Bytes are written back as they were read. -/
theorem toBytes_ofBytes (bytes : Bytes) : toBytes bytes.length (ofBytes bytes) = bytes := by
  induction bytes with
  | nil => rfl
  | cons b rest ih =>
    have hb : b.toNat < 256 := b.toNat_lt
    have hm : (b.toNat + 256 * ofBytes rest) % 256 = b.toNat := by omega
    have hq : (b.toNat + 256 * ofBytes rest) / 256 = ofBytes rest := by omega
    simp only [List.length_cons, toBytes, ofBytes, hm, hq, ih]
    simp

end LittleEndian

end FlatWeights
