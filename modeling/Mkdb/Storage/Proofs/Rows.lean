import Mkdb.Storage.Proofs.Codec
import Mkdb.Storage.Proofs.Utf8

/-!
# The row round trip

`deserialize` inverts `serialize` (`tuple.rs:57-153`) on every conforming row, wherever the
row's bytes sit in a buffer and whatever follows them, up to one thing: an integer column
comes back as its value modulo `2^(8·width)`, since `deserialize` zero-fills the high bytes
of the `i128` where two's complement needs sign extension. So a row survives the round trip
exactly when it holds no negative integer.

Each column is read back by `deserializeValue_serializeValue` (strings through
`Utf8.fromUTF8?_toUTF8`), and the loop over the schema by induction on the conformance.
-/

namespace Mkdb.Tuple

/-- What `deserialize` returns for a value `serialize` wrote in a column of type `t`: an
integer reduced modulo `2^(8·width)`, any other value unchanged. -/
def readBack (t : DataType) : Value → Value
  | .number n =>
    match byteLengthOfIntegerType t with
    | some w => .number (n % ((2 ^ (8 * w) : Nat) : Int))
    | none => .number n
  | v => v

theorem deserializeValue_string (pre r : List UInt8) (s : String) (m : Nat)
    (hlen : s.utf8ByteSize ≤ u32Max) :
    deserializeValue (pre ++ (leBytes 4 s.utf8ByteSize ++ s.toUTF8.data.toList) ++ r) pre.length
        (.varchar m) = some (.string s, pre.length + (4 + s.utf8ByteSize)) := by
  have hhead := slice_prefix pre (leBytes 4 s.utf8ByteSize) (s.toUTF8.data.toList ++ r)
  have hbody := slice_prefix (pre ++ leBytes 4 s.utf8ByteSize) s.toUTF8.data.toList r
  simp only [leBytes_length, List.length_append, List.append_assoc, length_toUTF8] at hhead hbody
  have hvalue : leValue (leBytes 4 s.utf8ByteSize) = s.utf8ByteSize := by
    rw [leValue_leBytes]
    exact Nat.mod_eq_of_lt (by simp only [u32Max] at hlen; omega)
  simp only [deserializeValue, List.append_assoc, hhead, Option.bind_eq_bind, Option.some_bind,
    hvalue, hbody, List.toArray_toList]
  rw [show (⟨s.toUTF8.data⟩ : ByteArray) = s.toUTF8 from rfl, Utf8.fromUTF8?_toUTF8, Nat.add_assoc]
  rfl

/-- One column's round trip: the bytes `serialize` writes for a conforming value are read back
as `readBack`, wherever they sit, and the cursor moves past exactly them. -/
theorem deserializeValue_serializeValue {t : DataType} {v : Value} (h : conformsTo t v = true) :
    ∃ bytes, serializeValue t v = some bytes ∧ ∀ pre r,
      deserializeValue (pre ++ bytes ++ r) pre.length t =
        some (readBack t v, pre.length + bytes.length) := by
  cases v with
  | bool b =>
    cases t with
    | bool =>
      refine ⟨_, rfl, fun pre r => ?_⟩
      have hbyte : (pre ++ [if b then 1 else 0] ++ r)[pre.length]? = some (if b then 1 else 0) := by
        rw [List.append_assoc, List.getElem?_append_right (Nat.le_refl _), Nat.sub_self,
          List.singleton_append, List.getElem?_cons_zero]
      rw [deserializeValue, hbyte]
      cases b <;> rfl
    | _ => cases h
  | string s =>
    cases t with
    | varchar m =>
      have hlen : s.utf8ByteSize ≤ u32Max := of_decide_eq_true h
      refine ⟨_, if_neg (Nat.not_lt.mpr hlen), fun pre r => ?_⟩
      rw [deserializeValue_string pre r s m hlen, List.length_append, leBytes_length, length_toUTF8]
      rfl
    | _ => cases h
  | number n =>
    obtain ⟨w, hw⟩ : ∃ w, byteLengthOfIntegerType t = some w := by
      cases t with
      | bool | varchar _ => cases h
      | _ => exact ⟨_, rfl⟩
    refine ⟨_, serializeValue_number hw h, fun pre r => ?_⟩
    obtain ⟨-, -, -, hw8, -⟩ := integerType_spec hw
    rw [deserializeValue_beBytes hw, beBytes_length, toNat_emod_two_pow n (by omega)]
    simp [readBack, hw]

/-- The loop of `deserialize` over the columns that `serializeColumns` wrote. -/
theorem deserializeFrom_serializeColumns {cols : List Column} {vals : List Value}
    (h : List.Forall₂ (fun col val => conformsTo col.dataType val = true) cols vals) :
    ∃ bytes, serializeColumns cols vals = some bytes ∧ ∀ pre rest,
      deserializeFrom (pre ++ bytes ++ rest) pre.length cols =
        some (List.zipWith (fun col v => readBack col.dataType v) cols vals) := by
  induction h with
  | nil => exact ⟨[], rfl, fun _ _ => rfl⟩
  | cons hcv _ ih =>
    obtain ⟨bytes, hser, hvalue⟩ := deserializeValue_serializeValue hcv
    obtain ⟨restBytes, hrest, hcols⟩ := ih
    refine ⟨bytes ++ restBytes, by simp only [serializeColumns, hser, hrest]; rfl, fun pre rest => ?_⟩
    have hhead := hvalue pre (restBytes ++ rest)
    have htail := hcols (pre ++ bytes) rest
    rw [List.length_append] at htail
    simp only [List.append_assoc] at hhead htail ⊢
    simp only [deserializeFrom, hhead, Option.bind_eq_bind, Option.some_bind, htail]
    rfl

theorem serialize_of_conforms {schema : Schema} {row : List Value} {bytes : List UInt8}
    (h : Conforms schema row) (hser : serializeColumns schema.columns row = some bytes) :
    serialize schema row = some bytes := by
  simp [serialize, Schema.len, h.length_eq, hser]

/-- The codec's round trip. `serialize` writes every conforming row, and `deserialize` reads
its bytes back, whatever follows them in the buffer, as the row with each integer reduced
modulo `2^(8·width)`: strings and booleans come back unchanged. -/
theorem deserialize_serialize {schema : Schema} {row : List Value} (h : Conforms schema row) :
    ∃ bytes, serialize schema row = some bytes ∧ ∀ rest,
      deserialize (bytes ++ rest) schema =
        some (List.zipWith (fun col v => readBack col.dataType v) schema.columns row) := by
  obtain ⟨bytes, hser, hde⟩ := deserializeFrom_serializeColumns h
  exact ⟨bytes, serialize_of_conforms h hser, fun rest => hde [] rest⟩

/-- `id INT, name VARCHAR(8), active BOOL` holding `(-7, 'né', true)`: `-7` comes back as
`-7 mod 2^32`, the two-byte `é` unchanged. -/
theorem deserialize_serialize_of_user_row :
    let schema : Schema :=
      ⟨[Column.new "id" .int, Column.new "name" (.varchar 8), Column.new "active" .bool]⟩
    let row : List Value := [.number (-7), .string "né", .bool true]
    Conforms schema row ∧ ∃ bytes, serialize schema row = some bytes ∧ ∀ rest,
      deserialize (bytes ++ rest) schema =
        some (List.zipWith (fun col v => readBack col.dataType v) schema.columns row) := by
  intro schema row
  have h : Conforms schema row := by unfold Conforms; decide
  exact ⟨h, deserialize_serialize h⟩

/-- A conforming value reads back as itself exactly when it is not a negative integer. -/
theorem readBack_eq_self_iff {t : DataType} {v : Value} (h : conformsTo t v = true) :
    readBack t v = v ↔ ∀ n, .number n = v → 0 ≤ n := by
  cases v with
  | number n =>
    obtain ⟨w, hw⟩ : ∃ w, byteLengthOfIntegerType t = some w := by
      cases t with
      | bool | varchar _ => cases h
      | _ => exact ⟨_, rfl⟩
    obtain ⟨hlo, hhi⟩ := abs_lt_of_conformsTo hw h
    have hpos : (0 : Int) < ((2 ^ (8 * w) : Nat) : Int) := by positivity
    simp only [readBack, hw, Value.number.injEq, forall_eq, forall_eq']
    exact ⟨fun he => he ▸ Int.emod_nonneg _ hpos.ne', fun hn => Int.emod_eq_of_lt hn hhi⟩
  | bool | string => simp [readBack]

theorem zipWith_readBack_eq_iff {cols : List Column} {vals : List Value}
    (h : List.Forall₂ (fun col val => conformsTo col.dataType val = true) cols vals) :
    List.zipWith (fun col v => readBack col.dataType v) cols vals = vals ↔
      ∀ n, .number n ∈ vals → 0 ≤ n := by
  induction h with
  | nil => simp
  | cons hcv _ ih =>
    rw [List.zipWith_cons_cons, List.cons.injEq, readBack_eq_self_iff hcv, ih]
    simp only [List.mem_cons, or_imp, forall_and]

/-- A row survives the round trip exactly when it holds no negative integer. -/
theorem deserialize_serialize_eq_iff {schema : Schema} {row : List Value} (h : Conforms schema row) :
    ∃ bytes, serialize schema row = some bytes ∧ ∀ rest,
      (deserialize (bytes ++ rest) schema = some row ↔ ∀ n, .number n ∈ row → 0 ≤ n) := by
  obtain ⟨bytes, hser, hde⟩ := deserializeFrom_serializeColumns h
  refine ⟨bytes, serialize_of_conforms h hser, fun rest => ?_⟩
  rw [show deserialize (bytes ++ rest) schema = _ from hde [] rest, Option.some.injEq,
    zipWith_readBack_eq_iff h]

theorem deserialize_serialize_eq_iff_of_user_row :
    let schema : Schema :=
      ⟨[Column.new "id" .int, Column.new "name" (.varchar 8), Column.new "active" .bool]⟩
    let row : List Value := [.number (-7), .string "né", .bool true]
    Conforms schema row ∧ ∃ bytes, serialize schema row = some bytes ∧ ∀ rest,
      (deserialize (bytes ++ rest) schema = some row ↔ ∀ n, .number n ∈ row → 0 ≤ n) := by
  intro schema row
  have h : Conforms schema row := by unfold Conforms; decide
  exact ⟨h, deserialize_serialize_eq_iff h⟩

/-! ## No two rows share an encoding -/

theorem readBack_of_none {t : DataType} (hw : byteLengthOfIntegerType t = none) (v : Value) :
    readBack t v = v := by
  cases v <;> simp [readBack, hw]

theorem exists_number_of_conformsTo {t : DataType} {w : Nat} {v : Value}
    (hw : byteLengthOfIntegerType t = some w) (h : conformsTo t v = true) : ∃ n, v = .number n := by
  cases v with
  | number n => exact ⟨n, rfl⟩
  | bool | string => cases t <;> simp [byteLengthOfIntegerType, conformsTo] at hw h

/-- Reducing modulo `2^(8·width)` loses nothing on a type's range, which is narrower than
`2^(8·width)`: two conforming values that read back alike are equal. -/
theorem readBack_injective {t : DataType} {v v' : Value} (h : conformsTo t v = true)
    (h' : conformsTo t v' = true) (he : readBack t v = readBack t v') : v = v' := by
  cases hw : byteLengthOfIntegerType t with
  | none => simpa only [readBack_of_none hw] using he
  | some w =>
    obtain ⟨n, rfl⟩ := exists_number_of_conformsTo hw h
    obtain ⟨n', rfl⟩ := exists_number_of_conformsTo hw h'
    obtain ⟨lo, hi, -, -, -, -, hwidth, hconf, -⟩ := integerType_spec hw
    simp only [hconf, Bool.and_eq_true, decide_eq_true_eq] at h h'
    simp only [readBack, hw, Value.number.injEq] at he ⊢
    have hzero := Int.eq_zero_of_abs_lt_dvd
      (Int.dvd_of_emod_eq_zero (Int.emod_eq_emod_iff_emod_sub_eq_zero.mp he))
      (abs_sub_lt_iff.mpr ⟨by omega, by omega⟩)
    omega

theorem zipWith_readBack_injective {cols : List Column} {vals vals' : List Value}
    (h : List.Forall₂ (fun col val => conformsTo col.dataType val = true) cols vals)
    (h' : List.Forall₂ (fun col val => conformsTo col.dataType val = true) cols vals')
    (he : List.zipWith (fun col v => readBack col.dataType v) cols vals =
      List.zipWith (fun col v => readBack col.dataType v) cols vals') : vals = vals' := by
  induction h generalizing vals' with
  | nil => cases h'; rfl
  | cons hcv _ ih =>
    cases h' with
    | cons hcv' htail' =>
      rw [List.zipWith_cons_cons, List.zipWith_cons_cons, List.cons.injEq] at he
      rw [readBack_injective hcv hcv' he.1, ih htail' he.2]

/-- Rows are stored self-delimited and without loss, although `deserialize` does not give a
negative integer back: when the bytes of two conforming rows of one schema, each followed by
anything, make the same buffer, the rows are the same and so is what follows them. -/
theorem serialize_prefix_unique {schema : Schema} {row row' : List Value}
    (h : Conforms schema row) (h' : Conforms schema row') :
    ∃ bytes bytes', serialize schema row = some bytes ∧ serialize schema row' = some bytes' ∧
      ∀ rest rest', bytes ++ rest = bytes' ++ rest' → row = row' ∧ rest = rest' := by
  obtain ⟨bytes, hser, hde⟩ := deserializeFrom_serializeColumns h
  obtain ⟨bytes', hser', hde'⟩ := deserializeFrom_serializeColumns h'
  refine ⟨bytes, bytes', serialize_of_conforms h hser, serialize_of_conforms h' hser',
    fun rest rest' he => ?_⟩
  have hread := (hde [] rest).symm.trans
    ((congrArg (fun buf => deserializeFrom buf 0 schema.columns) he).trans (hde' [] rest'))
  obtain rfl := zipWith_readBack_injective h h' (Option.some.inj hread)
  obtain rfl : bytes = bytes' := Option.some.inj (hser.symm.trans hser')
  exact ⟨rfl, List.append_cancel_left he⟩

/-- `(-7, 'né', true)` and `(7, 'né', true)` under `id INT, name VARCHAR(8), active BOOL`. -/
theorem serialize_prefix_unique_of_user_rows :
    let schema : Schema :=
      ⟨[Column.new "id" .int, Column.new "name" (.varchar 8), Column.new "active" .bool]⟩
    let row : List Value := [.number (-7), .string "né", .bool true]
    let row' : List Value := [.number 7, .string "né", .bool true]
    Conforms schema row ∧ Conforms schema row' ∧ ∃ bytes bytes',
      serialize schema row = some bytes ∧ serialize schema row' = some bytes' ∧
      ∀ rest rest', bytes ++ rest = bytes' ++ rest' → row = row' ∧ rest = rest' := by
  intro schema row row'
  have h : Conforms schema row := by unfold Conforms; decide
  have h' : Conforms schema row' := by unfold Conforms; decide
  exact ⟨h, h', serialize_prefix_unique h h'⟩

end Mkdb.Tuple
