import Mkdb.Storage.Proofs.Codec
import Mathlib.Order.Compare

/-!
# The fixed-width key comparator

Integer-keyed tables compare their serialized keys with `FixedSizeMemCmp`, a byte-wise
`memcmp` (`planner.rs:527` builds one over the `INT` key). The comparator lives in the
storage layer, outside this excerpt, and is modelled from the spec.

Big-endian bytes compare like the numbers they encode, so the comparator orders unsigned
keys, and signed keys of one sign, as integers. Across zero the order is reversed: a
negative key's two's complement starts with a set bit.
-/

namespace Mkdb.Tuple

/-- Unsigned bytes compared lexicographically, a shorter prefix first. -/
def memcmp : List UInt8 → List UInt8 → Ordering
  | [], [] => .eq
  | [], _ :: _ => .lt
  | _ :: _, [] => .gt
  | a :: as, b :: bs => (compare a.toNat b.toNat).then (memcmp as bs)

/-- Modelled from the spec: `FixedSizeMemCmp(width)`, "fixed-width memcmp for integer keys":
the first `width` bytes of both keys compared with `memcmp`; `none` is the out-of-range
slice of a key shorter than `width`. -/
def fixedSizeMemCmp (width : Nat) (a b : List UInt8) : Option Ordering :=
  if width ≤ a.length ∧ width ≤ b.length then some (memcmp (a.take width) (b.take width))
  else none

private theorem then_assoc (o p q : Ordering) : (o.then p).then q = o.then (p.then q) := by
  cases o <;> rfl

theorem memcmp_append {p q : List UInt8} (s t : List UInt8) (h : p.length = q.length) :
    memcmp (p ++ s) (q ++ t) = (memcmp p q).then (memcmp s t) := by
  induction p generalizing q with
  | nil => cases q <;> simp_all [memcmp]; rfl
  | cons a p ih =>
    cases q with
    | nil => simp at h
    | cons b q => simp_all [memcmp, then_assoc]

/-- Two orderings agree when the strict orders and the equalities do. -/
theorem compare_eq_compare {α β : Type} [LinearOrder α] [LinearOrder β] {x y : α} {u v : β}
    (hlt : x < y ↔ u < v) (heq : x = y ↔ u = v) : compare x y = compare u v := by
  rcases lt_trichotomy x y with h | h | h
  · rw [compare_lt_iff_lt.mpr h, compare_lt_iff_lt.mpr (hlt.mp h)]
  · rw [compare_eq_iff_eq.mpr h, compare_eq_iff_eq.mpr (heq.mp h)]
  · have hvu : v < u := lt_of_le_of_ne (not_lt.mp (mt hlt.mpr (not_lt.mpr h.le)))
      (fun e => h.ne' (heq.mpr e.symm))
    rw [compare_gt_iff_gt.mpr h, compare_gt_iff_gt.mpr hvu]

/-- A number written as a low digit below 256 and the rest compares on the rest first. -/
theorem compare_digits {a b q r : Nat} (ha : a < 256) (hb : b < 256) :
    compare (a + 256 * q) (b + 256 * r) = (compare q r).then (compare a b) := by
  rcases lt_trichotomy q r with h | rfl | h
  · rw [compare_lt_iff_lt.mpr h, compare_lt_iff_lt.mpr (by omega)]; rfl
  · rw [compare_eq_iff_eq.mpr rfl]
    exact compare_eq_compare (by omega) (by omega)
  · rw [compare_gt_iff_gt.mpr h, compare_gt_iff_gt.mpr (by omega)]; rfl

/-- `memcmp` on big-endian bytes compares the encoded numbers. -/
theorem memcmp_beBytes (w x y : Nat) :
    memcmp (beBytes w x) (beBytes w y) = compare (x % 2 ^ (8 * w)) (y % 2 ^ (8 * w)) := by
  induction w generalizing x y with
  | zero => simp [beBytes, memcmp, Nat.mod_one]; rfl
  | succ w ih =>
    rw [beBytes, beBytes, memcmp_append _ _ (by simp), ih, mod_two_pow_succ,
      mod_two_pow_succ, compare_digits (Nat.mod_lt _ (by omega)) (Nat.mod_lt _ (by omega))]
    simp only [memcmp, toNat_ofNat_byte]
    cases compare (x % 256) (y % 256) <;> rfl

/-- Reduction modulo `2^(8·width)` of an in-range integer adds the modulus to negatives. -/
theorem emod_of_conformsTo {t : DataType} {w : Nat} {a : Int}
    (hw : byteLengthOfIntegerType t = some w) (ha : conformsTo t (.number a) = true) :
    a % ((2 ^ (8 * w) : Nat) : Int) = if 0 ≤ a then a else a + ((2 ^ (8 * w) : Nat) : Int) := by
  obtain ⟨hlo, hhi⟩ := abs_lt_of_conformsTo hw ha
  split_ifs with h
  · exact Int.emod_eq_of_lt h hhi
  · rw [← Int.add_emod_self]
    exact Int.emod_eq_of_lt (by omega) (by omega)

/-- Two values of an integer column differ by less than the modulus: every range, signed
or not, spans less than `2^(8·width)`. -/
theorem lt_add_of_conformsTo {t : DataType} {w : Nat} {a b : Int}
    (hw : byteLengthOfIntegerType t = some w) (ha : conformsTo t (.number a) = true)
    (hb : conformsTo t (.number b) = true) :
    b < a + ((2 ^ (8 * w) : Nat) : Int) := by
  obtain ⟨lo, hi, -, -, -, -, hspan, hconf, -⟩ := integerType_spec hw
  rw [hconf, Bool.and_eq_true, decide_eq_true_eq, decide_eq_true_eq] at ha hb
  omega

/-- The comparator on two serialized keys of an integer column: the numeric order when both
keys have the same sign, the reversed order across zero. -/
theorem fixedSizeMemCmp_serializeValue {t : DataType} {w : Nat} {a b : Int}
    (hw : byteLengthOfIntegerType t = some w) (ha : conformsTo t (.number a) = true)
    (hb : conformsTo t (.number b) = true) :
    ∃ ka kb, serializeValue t (.number a) = some ka ∧ serializeValue t (.number b) = some kb ∧
      fixedSizeMemCmp w ka kb = some (if (0 ≤ a ↔ 0 ≤ b) then compare a b else compare b a) := by
  refine ⟨_, _, serializeValue_number hw ha, serializeValue_number hw hb, ?_⟩
  have h16 : w ≤ 16 := by have := byteLength_le_eight hw; omega
  rw [fixedSizeMemCmp, if_pos (by simp), List.take_of_length_le (by simp),
    List.take_of_length_le (by simp), memcmp_beBytes, Option.some.injEq,
    compare_eq_compare Int.ofNat_lt.symm Int.ofNat_inj.symm, toNat_emod_two_pow a h16,
    toNat_emod_two_pow b h16, emod_of_conformsTo hw ha, emod_of_conformsTo hw hb]
  have hab := lt_add_of_conformsTo hw ha hb
  have hba := lt_add_of_conformsTo hw hb ha
  split_ifs <;> apply compare_eq_compare <;> omega

/-- Keys `-1` and `5` of an `INT` column: opposite signs, so the comparator reverses them. -/
theorem fixedSizeMemCmp_serializeValue_of_int_keys :
    byteLengthOfIntegerType .int = some 4 ∧ conformsTo .int (.number (-1)) = true ∧
      conformsTo .int (.number 5) = true ∧
      ∃ ka kb, serializeValue .int (.number (-1)) = some ka ∧
        serializeValue .int (.number 5) = some kb ∧
        fixedSizeMemCmp 4 ka kb = some (if ((0 : Int) ≤ -1 ↔ (0 : Int) ≤ 5) then
          compare (-1 : Int) 5 else compare (5 : Int) (-1)) :=
  ⟨rfl, by decide, by decide, fixedSizeMemCmp_serializeValue rfl (by decide) (by decide)⟩

/-- The failing input of the order agreement: in an `INT` column `-1 < 0`, but its key
`FF FF FF FF` sorts after `00 00 00 00`. -/
theorem fixedSizeMemCmp_minus_one_zero :
    serialize ⟨[Column.new "c" .int]⟩ [.number (-1)] = some [255, 255, 255, 255] ∧
      serialize ⟨[Column.new "c" .int]⟩ [.number 0] = some [0, 0, 0, 0] ∧
      fixedSizeMemCmp 4 [255, 255, 255, 255] [0, 0, 0, 0] = some .gt ∧
      compare (-1 : Int) 0 = .lt := by
  decide

/-- Row ids are keys whose bytes sort like the ids. For every two row ids and whatever
follows them, `deserialize_row_id` reads back the id `serialize_row_id` wrote, and the
fixed-width comparator on the eight bytes orders two ids as numbers. -/
theorem rowId_roundtrip_ordered (a b : UInt64) (r r' : List UInt8) :
    deserializeRowId (serializeRowId a ++ r) = some a ∧
      fixedSizeMemCmp 8 (serializeRowId a ++ r) (serializeRowId b ++ r') =
        some (compare a.toNat b.toNat) := by
  have hmod : ∀ x : UInt64, x.toNat % 2 ^ (8 * 8) = x.toNat := fun x => Nat.mod_eq_of_lt x.toNat_lt_size
  have hslice : slice (serializeRowId a ++ r) 0 8 = some (serializeRowId a) := by
    simpa [serializeRowId] using slice_prefix [] (serializeRowId a) r
  constructor
  · simp only [deserializeRowId, hslice, Option.bind_eq_bind, Option.some_bind, Option.some.injEq]
    apply UInt64.toNat.inj
    rw [serializeRowId, beValue_beBytes, hmod]
    exact Nat.mod_eq_of_lt a.toNat_lt_size
  · rw [fixedSizeMemCmp, if_pos (by simp [serializeRowId]), serializeRowId, serializeRowId,
      List.take_left' (beBytes_length _ _), List.take_left' (beBytes_length _ _), memcmp_beBytes,
      hmod, hmod]

end Mkdb.Tuple
