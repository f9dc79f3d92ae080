/-!
Element types that a checkpoint may declare, with their names in the header and their widths.
-/

set_option autoImplicit false

namespace FlatWeights

/-- The type of the elements of a stored tensor. -/
inductive Dtype where
  | bool | u8 | i8 | f8e5m2 | f8e4m3
  | i16 | u16 | f16 | bf16
  | i32 | u32 | f32
  | i64 | u64 | f64
deriving DecidableEq, Repr

namespace Dtype

/-- Every element type. -/
def all : List Dtype :=
  [bool, u8, i8, f8e5m2, f8e4m3, i16, u16, f16, bf16, i32, u32, f32, i64, u64, f64]

/-- The name of an element type in a header. -/
def name : Dtype → String
  | bool => "BOOL"
  | u8 => "U8"
  | i8 => "I8"
  | f8e5m2 => "F8_E5M2"
  | f8e4m3 => "F8_E4M3"
  | i16 => "I16"
  | u16 => "U16"
  | f16 => "F16"
  | bf16 => "BF16"
  | i32 => "I32"
  | u32 => "U32"
  | f32 => "F32"
  | i64 => "I64"
  | u64 => "U64"
  | f64 => "F64"

/-- The element type with a given name. -/
def ofName? (s : String) : Option Dtype := all.find? (fun d => d.name == s)

/-- The number of bytes of one element. -/
def width : Dtype → Nat
  | bool | u8 | i8 | f8e5m2 | f8e4m3 => 1
  | i16 | u16 | f16 | bf16 => 2
  | i32 | u32 | f32 => 4
  | i64 | u64 | f64 => 8

end Dtype

end FlatWeights
