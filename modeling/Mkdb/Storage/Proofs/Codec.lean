import Mkdb.Storage.Tuple
import Mathlib.Data.Int.Defs
import Mathlib.Tactic.Ring
import Mathlib.Tactic.Positivity
import Mathlib.Tactic.NormNum

/-!
# The codec's lengths and its integer round trip

`size_of` measures exactly what `serialize` writes, for every conforming row. An integer
column decodes to its value reduced modulo `2^(8·width)`: `deserialize` zero-fills the high
bytes of the `i128` where two's complement needs sign extension, so the round trip holds for
exactly the non-negative values.
-/

namespace Mkdb.Tuple

/-! ## Byte-order lemmas -/

@[simp] theorem toNat_ofNat_byte (v : Nat) : (UInt8.ofNat v).toNat = v % 256 := rfl

@[simp] theorem beBytes_length (w v : Nat) : (beBytes w v).length = w := by
  induction w generalizing v <;> simp [beBytes, *]

@[simp] theorem leBytes_length (w v : Nat) : (leBytes w v).length = w := by
  induction w generalizing v <;> simp [leBytes, *]

theorem beValue_append_byte (bs : List UInt8) (b : UInt8) :
    beValue (bs ++ [b]) = beValue bs * 256 + b.toNat := by
  simp [beValue, List.foldl_append]

/-- Peeling the low byte off `v % 2^(8(w+1))`. -/
theorem mod_two_pow_succ (v w : Nat) :
    v % 2 ^ (8 * (w + 1)) = v % 256 + 256 * (v / 256 % 2 ^ (8 * w)) := by
  rw [show 2 ^ (8 * (w + 1)) = 256 * 2 ^ (8 * w) by ring, Nat.mod_mul]

theorem beValue_beBytes (w v : Nat) : beValue (beBytes w v) = v % 2 ^ (8 * w) := by
  induction w generalizing v with
  | zero => simp [beBytes, beValue, Nat.mod_one]
  | succ w ih =>
    rw [beBytes, beValue_append_byte, ih, mod_two_pow_succ, toNat_ofNat_byte]
    ring

theorem leValue_leBytes (w v : Nat) : leValue (leBytes w v) = v % 2 ^ (8 * w) := by
  induction w generalizing v with
  | zero => simp [leBytes, leValue, Nat.mod_one]
  | succ w ih => rw [leBytes, leValue, ih, mod_two_pow_succ, toNat_ofNat_byte]

/-- The big-endian bytes of a wide integer end with those of a narrower one. -/
theorem beBytes_add (a b v : Nat) :
    beBytes (a + b) v = beBytes a (v / 2 ^ (8 * b)) ++ beBytes b v := by
  induction b generalizing v with
  | zero => simp [beBytes]
  | succ b ih =>
    rw [← Nat.add_assoc, beBytes, ih, beBytes, List.append_assoc, Nat.div_div_eq_div_mul,
      show 256 * 2 ^ (8 * b) = 2 ^ (8 * (b + 1)) by ring]

theorem beValue_replicate_zero_append (k : Nat) (bs : List UInt8) :
    beValue (List.replicate k 0 ++ bs) = beValue bs := by
  have : (List.replicate k (0 : UInt8)).foldl (fun acc b => acc * 256 + b.toNat) 0 = 0 := by
    induction k <;> simp_all [List.replicate_succ]
  simp only [beValue, List.foldl_append, this]

/-- The `byteLength` low bytes of `to_be_bytes`, the slice `serialize` appends. -/
theorem i128ToBeBytes_drop (n : Int) {w : Nat} (hw : w ≤ 16) :
    (i128ToBeBytes n).drop ((i128ToBeBytes n).length - w) =
      beBytes w (n % ((2 ^ 128 : Nat) : Int)).toNat := by
  have split : ∀ v, beBytes 16 v = beBytes (16 - w) (v / 2 ^ (8 * w)) ++ beBytes w v := by
    intro v
    rw [← beBytes_add, Nat.sub_add_cancel hw]
  simp only [i128ToBeBytes, split]
  exact List.drop_left' (by simp)

/-- The unsigned value of the low `w` bytes of an `i128`'s two's complement is the integer
reduced modulo `2^(8w)`. -/
theorem toNat_emod_two_pow (n : Int) {w : Nat} (hw : w ≤ 16) :
    (((n % ((2 ^ 128 : Nat) : Int)).toNat % 2 ^ (8 * w) : Nat) : Int) =
      n % ((2 ^ (8 * w) : Nat) : Int) := by
  have hdvd : ((2 ^ (8 * w) : Nat) : Int) ∣ ((2 ^ 128 : Nat) : Int) :=
    Int.natCast_dvd_natCast.mpr (Nat.pow_dvd_pow 2 (by omega))
  have hnn : 0 ≤ n % ((2 ^ 128 : Nat) : Int) := Int.emod_nonneg _ (by positivity)
  rw [Int.natCast_mod, Int.toNat_of_nonneg hnn, Int.emod_emod_of_dvd _ hdvd]

@[simp] theorem length_toUTF8 (s : String) : s.toUTF8.data.toList.length = s.utf8ByteSize :=
  String.size_toUTF8 s

theorem slice_prefix (pre bs r : List UInt8) :
    slice (pre ++ bs ++ r) pre.length (pre.length + bs.length) = some bs := by
  simp [slice, List.drop_left']

/-! ## One column -/

theorem byteLength_le_eight {t : DataType} {w : Nat} (hw : byteLengthOfIntegerType t = some w) :
    w ≤ 8 := by
  cases t <;> simp [byteLengthOfIntegerType] at hw <;> omega

/-- The integer types, once: their width, their range, which fits in that width, and what
`serialize`, `deserialize`, `size_of` and the conformance check do on them. -/
theorem integerType_spec {t : DataType} {w : Nat} (hw : byteLengthOfIntegerType t = some w) :
    ∃ lo hi, integerBounds t = some (lo, hi) ∧ w ≤ 8 ∧
      -((2 ^ (8 * w) : Nat) : Int) < lo ∧ hi < ((2 ^ (8 * w) : Nat) : Int) ∧
      hi < lo + ((2 ^ (8 * w) : Nat) : Int) ∧
      (∀ n, conformsTo t (.number n) = (decide (lo ≤ n) && decide (n ≤ hi))) ∧
      (∀ n, serializeValue t (.number n) = if lo ≤ n ∧ n ≤ hi then
        some ((i128ToBeBytes n).drop ((i128ToBeBytes n).length - w)) else none) ∧
      (∀ buf cursor, deserializeValue buf cursor t = do
        let bytes ← slice buf cursor (cursor + w)
        some (.number (i128FromBeBytes (List.replicate (16 - w) 0 ++ bytes)), cursor + w)) ∧
      ∀ tuple i name constraints, columnSize tuple i ⟨name, t, constraints⟩ = some w := by
  cases t <;> cases hw <;>
    exact ⟨_, _, rfl, by norm_num, by norm_num, by norm_num, by norm_num, fun _ => rfl, fun _ => rfl,
      fun _ _ => rfl, fun _ _ _ _ => rfl⟩

/-- An integer in its column's range is written as the low `width` bytes of its two's
complement. -/
theorem serializeValue_number {t : DataType} {w : Nat} {n : Int}
    (hw : byteLengthOfIntegerType t = some w) (hn : conformsTo t (.number n) = true) :
    serializeValue t (.number n) = some (beBytes w (n % ((2 ^ 128 : Nat) : Int)).toNat) := by
  obtain ⟨lo, hi, -, hw8, -, -, -, hconf, hser, -⟩ := integerType_spec hw
  rw [hconf, Bool.and_eq_true, decide_eq_true_eq, decide_eq_true_eq] at hn
  rw [hser, if_pos hn, i128ToBeBytes_drop n (by omega)]

/-- Reading `width` big-endian bytes into the low end of a zeroed `i128` yields their
unsigned value. -/
theorem deserializeValue_beBytes {t : DataType} {w : Nat} (hw : byteLengthOfIntegerType t = some w)
    (pre r : List UInt8) (v : Nat) :
    deserializeValue (pre ++ beBytes w v ++ r) pre.length t =
      some (.number ((v % 2 ^ (8 * w) : Nat) : Int), pre.length + w) := by
  obtain ⟨-, -, -, hw8, -, -, -, -, -, hde, -⟩ := integerType_spec hw
  have hsmall : v % 2 ^ (8 * w) < 2 ^ 127 :=
    lt_of_lt_of_le (Nat.mod_lt _ (by positivity)) (Nat.pow_le_pow_right (by omega) (by omega))
  have hslice := slice_prefix pre (beBytes w v) r
  rw [beBytes_length] at hslice
  rw [hde, hslice]
  dsimp only [bind, Option.bind]
  rw [i128FromBeBytes, beValue_replicate_zero_append, beValue_beBytes, if_pos hsmall]

/-- The integer round trip: an in-range integer comes back reduced modulo `2^(8·width)`,
from wherever in the buffer it sits and whatever follows it. -/
theorem deserializeValue_serializeValue_number {t : DataType} {w : Nat} {n : Int}
    (hw : byteLengthOfIntegerType t = some w) (hn : conformsTo t (.number n) = true)
    (pre r : List UInt8) :
    ∃ bytes, serializeValue t (.number n) = some bytes ∧
      deserializeValue (pre ++ bytes ++ r) pre.length t =
        some (.number (n % ((2 ^ (8 * w) : Nat) : Int)), pre.length + w) := by
  refine ⟨_, serializeValue_number hw hn, ?_⟩
  obtain ⟨-, -, -, hw8, -⟩ := integerType_spec hw
  rw [deserializeValue_beBytes hw, toNat_emod_two_pow n (by omega)]

/-- An in-range integer is smaller in magnitude than `2^(8·width)`. -/
theorem abs_lt_of_conformsTo {t : DataType} {w : Nat} {n : Int}
    (hw : byteLengthOfIntegerType t = some w) (hn : conformsTo t (.number n) = true) :
    -((2 ^ (8 * w) : Nat) : Int) < n ∧ n < ((2 ^ (8 * w) : Nat) : Int) := by
  obtain ⟨lo, hi, -, -, hlo, hhi, -, hconf, -⟩ := integerType_spec hw
  rw [hconf, Bool.and_eq_true, decide_eq_true_eq, decide_eq_true_eq] at hn
  omega

/-- The integer round trip is exact precisely on the non-negative values: the decoder returns
the value reduced modulo `2^(8·width)`, so a negative one comes back that much larger. -/
theorem integer_roundtrip_iff_nonneg {t : DataType} {w : Nat} {n : Int}
    (hw : byteLengthOfIntegerType t = some w) (hn : conformsTo t (.number n) = true)
    (pre r : List UInt8) :
    ∃ bytes, serializeValue t (.number n) = some bytes ∧
      deserializeValue (pre ++ bytes ++ r) pre.length t =
        some (.number (n % ((2 ^ (8 * w) : Nat) : Int)), pre.length + w) ∧
      (n % ((2 ^ (8 * w) : Nat) : Int) = n ↔ 0 ≤ n) := by
  obtain ⟨bytes, hser, hde⟩ := deserializeValue_serializeValue_number hw hn pre r
  have hpos : (0 : Int) < ((2 ^ (8 * w) : Nat) : Int) := by positivity
  exact ⟨bytes, hser, hde, fun h => h ▸ Int.emod_nonneg _ hpos.ne',
    fun h => Int.emod_eq_of_lt h (abs_lt_of_conformsTo hw hn).2⟩

/-- The failing input of the round trip: `-1` in an `INT` column is written as four `0xFF`
bytes and read back as `-1 mod 2^32 = 4294967295`. -/
theorem serialize_deserialize_minus_one :
    serialize ⟨[Column.new "c" .int]⟩ [.number (-1)] = some [255, 255, 255, 255] ∧
      deserialize [255, 255, 255, 255] ⟨[Column.new "c" .int]⟩ = some [.number 4294967295] := by
  obtain ⟨bytes, hser, hde, -⟩ := integer_roundtrip_iff_nonneg (t := .int) (n := -1)
    (w := 4) rfl (by decide) [] []
  obtain rfl : bytes = [255, 255, 255, 255] := Option.some.inj (hser.symm.trans rfl)
  refine ⟨rfl, ?_⟩
  simp only [deserialize, deserializeFrom, hde]
  rfl

/-- Each conforming column's bytes are as many as its summand in `size_of`. -/
theorem serializeValue_columnSize {t : DataType} {v : Value} {tuple : List Value} {i : Nat}
    (name : String) (cs : List Constraint) (h : conformsTo t v = true) (hi : tuple[i]? = some v) :
    ∃ bytes, serializeValue t v = some bytes ∧
      columnSize tuple i ⟨name, t, cs⟩ = some bytes.length := by
  cases v with
  | bool b =>
    cases t with
    | bool => exact ⟨_, rfl, rfl⟩
    | _ => cases h
  | string s =>
    cases t with
    | varchar m =>
      refine ⟨_, if_neg (Nat.not_lt.mpr (of_decide_eq_true h)), ?_⟩
      simp [columnSize, hi]
    | _ => cases h
  | number n =>
    obtain ⟨w, hw⟩ : ∃ w, byteLengthOfIntegerType t = some w := by
      cases t with
      | bool | varchar _ => cases h
      | _ => exact ⟨_, rfl⟩
    obtain ⟨-, -, -, -, -, -, -, -, -, -, hsize⟩ := integerType_spec hw
    exact ⟨_, serializeValue_number hw h, by rw [hsize, beBytes_length]⟩

/-! ## Whole rows -/

theorem serializeColumns_sizeOfFrom (tuple : List Value) :
    ∀ {cols : List Column} {vals : List Value} {i : Nat},
      List.Forall₂ (fun col val => conformsTo col.dataType val = true) cols vals →
      vals = tuple.drop i →
      ∃ bytes, serializeColumns cols vals = some bytes ∧ sizeOfFrom tuple i cols = some bytes.length
  | [], [], _, .nil, _ => ⟨[], rfl, rfl⟩
  | col :: cols, v :: vs, i, .cons hcv hrest, hdrop => by
    have hi : tuple[i]? = some v := by
      rw [← List.head?_drop, ← hdrop]; rfl
    have htail : vs = tuple.drop (i + 1) := by
      rw [← List.drop_drop, ← hdrop]; rfl
    obtain ⟨bytes, hser, hsize⟩ := serializeValue_columnSize col.name col.constraints hcv hi
    obtain ⟨rest, hrest', hsize'⟩ := serializeColumns_sizeOfFrom tuple hrest htail
    refine ⟨bytes ++ rest, by simp [serializeColumns, hser, hrest'], ?_⟩
    simp [sizeOfFrom, hsize, hsize']

/-- `size_of` agrees with `serialize`: on every conforming row both return, and `size_of`
is the length of the bytes `serialize` writes. -/
theorem sizeOf_eq_serialize_length (schema : Schema) (tuple : List Value)
    (h : Conforms schema tuple) :
    ∃ bytes, serialize schema tuple = some bytes ∧ sizeOf tuple schema = some bytes.length := by
  obtain ⟨bytes, hser, hsize⟩ := serializeColumns_sizeOfFrom tuple h (List.drop_zero _).symm
  exact ⟨bytes, by simp [serialize, Schema.len, h.length_eq, hser], hsize⟩

theorem sizeOf_eq_serialize_length_of_id_name_row :
    Conforms ⟨[Column.new "id" .int, Column.new "name" (.varchar 8)]⟩ [.number (-7), .string "ab"] ∧
      ∃ bytes, serialize ⟨[Column.new "id" .int, Column.new "name" (.varchar 8)]⟩
          [.number (-7), .string "ab"] = some bytes ∧
        sizeOf [.number (-7), .string "ab"]
          ⟨[Column.new "id" .int, Column.new "name" (.varchar 8)]⟩ = some bytes.length :=
  have h : Conforms ⟨[Column.new "id" .int, Column.new "name" (.varchar 8)]⟩
      [.number (-7), .string "ab"] := by
    unfold Conforms; decide
  ⟨h, sizeOf_eq_serialize_length _ _ h⟩

end Mkdb.Tuple
