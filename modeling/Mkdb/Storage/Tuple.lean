import Mkdb.Sql.Statement

/-!
# Tuple (de)serialization

Rendering of `storage/tuple.rs`: a row is the concatenation of its columns' encodings in
schema order; integers are the low bytes of the `i128`'s big-endian two's complement, a
`VARCHAR` is a little-endian `u32` byte length followed by its UTF-8 bytes.

A panic of the code (`unreachable!`, `todo!`, a failed `assert!`, `debug_assert_eq!`, an
out-of-range slice or `unwrap`) is `none`.
-/

namespace Mkdb.Tuple

/-! ## Byte order -/

/-- The `w` low bytes of `v`, most significant first. -/
def beBytes : Nat → Nat → List UInt8
  | 0, _ => []
  | w + 1, v => beBytes w (v / 256) ++ [UInt8.ofNat v]

/-- The `w` low bytes of `v`, least significant first. -/
def leBytes : Nat → Nat → List UInt8
  | 0, _ => []
  | w + 1, v => UInt8.ofNat v :: leBytes w (v / 256)

/-- The unsigned value of big-endian bytes. -/
def beValue (bs : List UInt8) : Nat := bs.foldl (fun acc b => acc * 256 + b.toNat) 0

/-- The unsigned value of little-endian bytes (`u32::from_le_bytes`). -/
def leValue : List UInt8 → Nat
  | [] => 0
  | b :: bs => b.toNat + 256 * leValue bs

/-- `i128::to_be_bytes`: the sixteen bytes of the two's complement. -/
def i128ToBeBytes (n : Int) : List UInt8 := beBytes 16 (n % ((2 ^ 128 : Nat) : Int)).toNat

/-- `i128::from_be_bytes`: sixteen big-endian bytes read as two's complement. -/
def i128FromBeBytes (bs : List UInt8) : Int :=
  if beValue bs < 2 ^ 127 then beValue bs else (beValue bs : Int) - ((2 ^ 128 : Nat) : Int)

/-- `u32::MAX`. -/
def u32Max : Nat := 2 ^ 32 - 1

/-- `&buf[start..stop]`; `none` is the out-of-range panic. -/
def slice (buf : List UInt8) (start stop : Nat) : Option (List UInt8) :=
  if start ≤ stop ∧ stop ≤ buf.length then some ((buf.drop start).take (stop - start)) else none

/-! ## The codec -/

/-- `deserialize_row_id` (`tuple.rs:16-18`): the first eight bytes read as a big-endian
`RowId`, modelled from the spec as a 64-bit identifier; `none` is the out-of-range slice of a
shorter buffer. -/
def deserializeRowId (buf : List UInt8) : Option UInt64 := do
  let bytes ← slice buf 0 8
  some (UInt64.ofNat (beValue bytes))

/-- `serialize_row_id` (`tuple.rs:20-22`): `RowId::to_be_bytes`. -/
def serializeRowId (rowId : UInt64) : List UInt8 := beBytes 8 rowId.toNat

/-- `byte_length_of_integer_type` (`tuple.rs:24-30`); `none` is its `unreachable!`. -/
def byteLengthOfIntegerType : DataType → Option Nat
  | .int | .unsignedInt => some 4
  | .bigInt | .unsignedBigInt => some 8
  | _ => none

/-- The `bounds` of `serialize` (`tuple.rs:83-89`) as an inclusive pair; `none` is the
`unreachable!`. -/
def integerBounds : DataType → Option (Int × Int)
  | .int => some (-2147483648, 2147483647)
  | .unsignedInt => some (0, 4294967295)
  | .bigInt => some (-9223372036854775808, 9223372036854775807)
  | .unsignedBigInt => some (0, 18446744073709551615)
  | _ => none

/-- Modelled from the spec: `integer_is_within_range`, which this excerpt of `tuple.rs` does
not contain; the analyzer calls it on the integer types only, against the same bounds that
`serialize` asserts. -/
def integerIsWithinRange (integer : Int) (dataType : DataType) : Bool :=
  match integerBounds dataType with
  | some (lo, hi) => lo ≤ integer && integer ≤ hi
  | none => false

/-- One column's summand in `size_of` (`tuple.rs:37-53`): `none` is the `panic!` on a
`VARCHAR` column whose value is not a string, or is missing. -/
def columnSize (tuple : List Value) (i : Nat) (col : Column) : Option Nat :=
  match col.dataType with
  | .bool => some 1
  | .varchar _ =>
    match tuple[i]? with
    | some (.string s) => some (4 + s.utf8ByteSize)
    | _ => none
  | integerType => byteLengthOfIntegerType integerType

/-- The `enumerate().map(..).sum()` of `size_of`, from column index `i` on. -/
def sizeOfFrom (tuple : List Value) : Nat → List Column → Option Nat
  | _, [] => some 0
  | i, col :: cols => do
    let n ← columnSize tuple i col
    let rest ← sizeOfFrom tuple (i + 1) cols
    some (n + rest)

/-- `size_of` (`tuple.rs:32-55`). -/
def sizeOf (tuple : List Value) (schema : Schema) : Option Nat :=
  sizeOfFrom tuple 0 schema.columns

/-- The bytes one `(column, value)` pair appends in `serialize` (`tuple.rs:68-102`): `none`
is the `todo!` on strings over `u32::MAX` bytes, the range `assert!` and the
`unreachable!`s. -/
def serializeValue : DataType → Value → Option (List UInt8)
  | .varchar _, .string s =>
    if s.utf8ByteSize > u32Max then none
    else some (leBytes 4 s.utf8ByteSize ++ s.toUTF8.data.toList)
  | .bool, .bool b => some [if b then 1 else 0]
  | integerType, .number num => do
    let (lo, hi) ← integerBounds integerType
    if lo ≤ num ∧ num ≤ hi then
      let byteLength ← byteLengthOfIntegerType integerType
      let bigEndianBytes := i128ToBeBytes num
      some (bigEndianBytes.drop (bigEndianBytes.length - byteLength))
    else none
  | _, _ => none

/-- The loop of `serialize` over `schema.columns.iter().zip(values)`. -/
def serializeColumns : List Column → List Value → Option (List UInt8)
  | col :: cols, val :: vals => do
    let bytes ← serializeValue col.dataType val
    let rest ← serializeColumns cols vals
    some (bytes ++ rest)
  | _, _ => some []

/-- `serialize` (`tuple.rs:57-106`), with its `debug_assert_eq!` on the lengths. -/
def serialize (schema : Schema) (values : List Value) : Option (List UInt8) :=
  if schema.len ≠ values.length then none else serializeColumns schema.columns values

/-- One column of `deserialize` (`tuple.rs:114-148`) read at `cursor`: the value and the
next cursor. `none` is an out-of-range slice or a failed UTF-8 `unwrap`. -/
def deserializeValue (buf : List UInt8) (cursor : Nat) : DataType → Option (Value × Nat)
  | .varchar _ => do
    let lengthBytes ← slice buf cursor (cursor + 4)
    let length := leValue lengthBytes
    let bytes ← slice buf (cursor + 4) (cursor + 4 + length)
    let string ← String.fromUTF8? ⟨bytes.toArray⟩
    some (.string string, cursor + 4 + length)
  | .bool => do
    let b ← buf[cursor]?
    some (.bool (b != 0), cursor + 1)
  | integerType => do
    let byteLength ← byteLengthOfIntegerType integerType
    let bytes ← slice buf cursor (cursor + byteLength)
    let bigEndianBuf := List.replicate (16 - byteLength) 0 ++ bytes
    some (.number (i128FromBeBytes bigEndianBuf), cursor + byteLength)

/-- The loop of `deserialize` over the schema's columns, from `cursor` on. -/
def deserializeFrom (buf : List UInt8) : Nat → List Column → Option (List Value)
  | _, [] => some []
  | cursor, col :: cols => do
    let (val, cursor) ← deserializeValue buf cursor col.dataType
    let vals ← deserializeFrom buf cursor cols
    some (val :: vals)

/-- `deserialize` (`tuple.rs:108-153`). -/
def deserialize (buf : List UInt8) (schema : Schema) : Option (List Value) :=
  deserializeFrom buf 0 schema.columns

/-- A value fits its column's type as `serialize` requires: matching tag, an integer within
the type's range, a string of at most `u32::MAX` bytes. -/
def conformsTo : DataType → Value → Bool
  | .varchar _, .string s => s.utf8ByteSize ≤ u32Max
  | .bool, .bool _ => true
  | integerType, .number num =>
    match integerBounds integerType with
    | some (lo, hi) => lo ≤ num && num ≤ hi
    | none => false
  | _, _ => false

/-- A tuple conforms to a schema: one fitting value per column, in order. -/
def Conforms (schema : Schema) (tuple : List Value) : Prop :=
  List.Forall₂ (fun col val => conformsTo col.dataType val = true) schema.columns tuple

end Mkdb.Tuple
