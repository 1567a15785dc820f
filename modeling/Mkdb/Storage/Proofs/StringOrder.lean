import Mkdb.Storage.Proofs.Utf8
import Mkdb.Storage.Comparator
import Mkdb.Sql.Statement

/-!
# Strings compare as their bytes

`PartialOrd for Value` (`statement.rs:235-242`) compares two strings with `str::partial_cmp`,
which orders their UTF-8 bytes lexicographically, a shorter prefix first. The model compares
them as Lean strings, code point by code point (`Value.partialCmp`). The two orders agree
because UTF-8 preserves the order of code points:

* an encoding's length grows with the code point, and its lead byte tells the length, so
  characters of different lengths are told apart by their lead bytes;
* encodings of one length, read as big-endian numbers, grow with the code point.

Each character's encoding therefore compares like the character whatever follows it
(`memcmp_utf8EncodeChar`), and whole strings follow by induction on their characters.
-/

namespace Mkdb.Utf8

open Mkdb.Tuple (memcmp beValue)

/-! ## Bytes as numbers -/

/-- A payload below `2^k` or-ed with a tag above it: the tag plus the payload. -/
theorem toNat_tag {m t : UInt8} {k : Nat} (hm : m.toNat = 2 ^ k - 1)
    (htag : ∀ n, n < 2 ^ k → (UInt8.ofNat n ||| t).toNat = t.toNat + (UInt8.ofNat n).toNat)
    (x : UInt8) : (x &&& m ||| t).toNat = t.toNat + x.toNat % 2 ^ k := by
  have hlt : (x &&& m).toNat < 2 ^ k :=
    and_toNat_lt x (by rw [hm]; exact Nat.sub_lt (Nat.two_pow_pos k) Nat.one_pos)
  rw [forall_byte_lt (P := fun y => (y ||| t).toNat = t.toNat + y.toNat) htag _ hlt,
    UInt8.and_toNat, hm, Nat.and_pow_two_sub_one_eq_mod]

theorem toNat_lead_two (x : UInt8) : (x &&& 0x1f ||| 0xc0).toNat = 192 + x.toNat % 32 :=
  toNat_tag (m := 0x1f) (t := 0xc0) (k := 5) rfl (by decide) x

theorem toNat_lead_three (x : UInt8) : (x &&& 0x0f ||| 0xe0).toNat = 224 + x.toNat % 16 :=
  toNat_tag (m := 0x0f) (t := 0xe0) (k := 4) rfl (by decide) x

theorem toNat_lead_four (x : UInt8) : (x &&& 0x07 ||| 0xf0).toNat = 240 + x.toNat % 8 :=
  toNat_tag (m := 0x07) (t := 0xf0) (k := 3) rfl (by decide) x

theorem toNat_continuation (x : UInt8) : (x &&& 0x3f ||| 0x80).toNat = 128 + x.toNat % 64 :=
  toNat_tag (m := 0x3f) (t := 0x80) (k := 6) rfl (by decide) x

/-- The first `k` bits of a payload: a shifted code point cut to a byte. -/
theorem toNat_shift_toUInt8 (v : UInt32) {k : Nat} (hk : k < 32) :
    (v >>> (no_index (OfNat.ofNat k) : UInt32)).toUInt8.toNat = v.toNat / 2 ^ k % 256 := by
  rw [toNat_toUInt8, toNat_shiftRight v hk]

/-- Unsigned bytes of one length compare like the big-endian numbers they spell. -/
theorem memcmp_eq_compare_beValue {bs bs' : List UInt8} (h : bs.length = bs'.length) :
    memcmp bs bs' = compare (beValue bs) (beValue bs') := by
  induction bs using List.reverseRecOn generalizing bs' with
  | nil =>
    cases bs' with
    | nil => rfl
    | cons => simp at h
  | append_singleton init b ih =>
    obtain ⟨init', b', rfl⟩ : ∃ init' b', bs' = init' ++ [b'] := by
      cases bs' using List.reverseRecOn with
      | nil => simp at h
      | append_singleton init' b' _ => exact ⟨init', b', rfl⟩
    have hlen : init.length = init'.length := by simpa using h
    rw [Tuple.memcmp_append _ _ hlen, ih hlen, Tuple.beValue_append_byte,
      Tuple.beValue_append_byte, Nat.add_comm _ b.toNat, Nat.add_comm _ b'.toNat, Nat.mul_comm,
      Nat.mul_comm (beValue init'), Tuple.compare_digits b.toNat_lt_size b'.toNat_lt_size]
    simp only [Tuple.memcmp]
    cases compare (beValue init) (beValue init') <;> cases compare b.toNat b'.toNat <;> rfl


/-! ## One character -/

/-- The number of bytes `String.utf8EncodeChar` writes for the code point `v`. -/
def width (v : Nat) : Nat :=
  if v ≤ 0x7f then 1 else if v ≤ 0x7ff then 2 else if v ≤ 0xffff then 3 else 4

/-- The code point ranges of the four widths. -/
theorem width_cases (v : Nat) :
    (width v = 1 ∧ v ≤ 0x7f) ∨ (width v = 2 ∧ 0x7f < v ∧ v ≤ 0x7ff) ∨
      (width v = 3 ∧ 0x7ff < v ∧ v ≤ 0xffff) ∨ (width v = 4 ∧ 0xffff < v) := by
  unfold width
  split_ifs <;> omega

/-- The lead byte of the encoding of `v`: the code point itself, or a tag and its top bits. -/
def leadValue (v : Nat) : Nat :=
  match width v with
  | 1 => v
  | 2 => 192 + v / 64
  | 3 => 224 + v / 4096
  | _ => 240 + v / 262144

/-- `v` with each 6-bit group below the top `k` moved into a byte of its own, as UTF-8 lays out
the payload of a `k + 1`-byte encoding. -/
def spread : Nat → Nat → Nat
  | 0, v => v
  | k + 1, v => 256 * spread k (v / 64) + v % 64

/-- The tag bits of a `w`-byte encoding, read as one big-endian number. -/
def tagValue : Nat → Nat
  | 1 => 0
  | 2 => 0xc080
  | 3 => 0xe08080
  | _ => 0xf0808080

/-- The encoding of `v` read as one big-endian number. -/
def encodedValue (v : Nat) : Nat :=
  tagValue (width v) + spread (width v - 1) v

/-- What the encoding of a character is made of: a lead byte and the rest, the number they
spell, and how many there are. -/
theorem utf8EncodeChar_view (c : Char) : ∃ lead rest, String.utf8EncodeChar c = lead :: rest ∧
    lead.toNat = leadValue c.val.toNat ∧ beValue (lead :: rest) = encodedValue c.val.toNat ∧
    (lead :: rest).length = width c.val.toNat := by
  rcases width_cases c.val.toNat with ⟨hw, hv⟩ | ⟨hw, hv⟩ | ⟨hw, hv⟩ | ⟨hw, hv⟩
  · refine ⟨_, _, utf8EncodeChar_one c hv, ?_⟩
    simp only [leadValue, encodedValue, hw, tagValue, spread, toNat_toUInt8, beValue, List.foldl,
      List.length_singleton, and_true]
    omega
  · refine ⟨_, _, utf8EncodeChar_two c (Nat.not_le.mpr hv.1) hv.2, ?_⟩
    have htop : c.val.toNat / 64 % 32 = c.val.toNat / 64 := Nat.mod_eq_of_lt (by omega)
    simp only [leadValue, encodedValue, hw, tagValue, spread, Nat.reduceSub, toNat_lead_two,
      toNat_continuation, toNat_shift_toUInt8 _ (show 6 < 32 by decide), toNat_toUInt8,
      Nat.mod_mod_of_dvd _ (show 32 ∣ 256 by decide),
      Nat.mod_mod_of_dvd _ (show 64 ∣ 256 by decide), Nat.reducePow, htop, beValue, List.foldl,
      List.length_cons, List.length_singleton, List.length_nil, true_and, and_true]
    omega
  · refine ⟨_, _, utf8EncodeChar_three c (Nat.not_le.mpr hv.1) hv.2, ?_⟩
    have htop : c.val.toNat / 4096 % 16 = c.val.toNat / 4096 := Nat.mod_eq_of_lt (by omega)
    simp only [leadValue, encodedValue, hw, tagValue, spread, Nat.reduceSub,
      Nat.div_div_eq_div_mul, Nat.reduceMul, toNat_lead_three, toNat_continuation,
      toNat_shift_toUInt8 _ (show 12 < 32 by decide),
      toNat_shift_toUInt8 _ (show 6 < 32 by decide), toNat_toUInt8,
      Nat.mod_mod_of_dvd _ (show 16 ∣ 256 by decide),
      Nat.mod_mod_of_dvd _ (show 64 ∣ 256 by decide), Nat.reducePow, htop, beValue, List.foldl,
      List.length_cons, List.length_singleton, List.length_nil, true_and, and_true]
    omega
  · refine ⟨_, _, utf8EncodeChar_four c (Nat.not_le.mpr hv), ?_⟩
    have hmax : c.val.toNat < 1114112 := by
      rcases c.valid with h | h <;> omega
    have htop : c.val.toNat / 262144 % 8 = c.val.toNat / 262144 := Nat.mod_eq_of_lt (by omega)
    simp only [leadValue, encodedValue, hw, tagValue, spread, Nat.reduceSub,
      Nat.div_div_eq_div_mul, Nat.reduceMul, toNat_lead_four, toNat_continuation,
      toNat_shift_toUInt8 _ (show 18 < 32 by decide),
      toNat_shift_toUInt8 _ (show 12 < 32 by decide),
      toNat_shift_toUInt8 _ (show 6 < 32 by decide), toNat_toUInt8,
      Nat.mod_mod_of_dvd _ (show 8 ∣ 256 by decide),
      Nat.mod_mod_of_dvd _ (show 64 ∣ 256 by decide), Nat.reducePow, htop, beValue, List.foldl,
      List.length_cons, List.length_singleton, List.length_nil, true_and, and_true]
    omega

/-- Spreading the groups keeps the order: the higher groups decide, then the last one. -/
theorem spread_lt {v v' : Nat} (k : Nat) (h : v < v') : spread k v < spread k v' := by
  induction k generalizing v v' with
  | zero => exact h
  | succ k ih =>
    simp only [spread]
    rcases (Nat.div_le_div_right h.le : v / 64 ≤ v' / 64).lt_or_eq with hq | hq
    · have := ih hq
      omega
    · rw [hq]
      omega

/-- Encodings of one width, read as numbers, grow with the code point. -/
theorem encodedValue_lt {v v' : Nat} (h : width v = width v') (hlt : v < v') :
    encodedValue v < encodedValue v' := by
  unfold encodedValue
  rw [h]
  exact Nat.add_lt_add_left (spread_lt _ hlt) _

theorem lt_of_width_lt {v v' : Nat} (h : width v < width v') : v < v' := by
  rcases width_cases v with ⟨hw, hv⟩ | ⟨hw, hv⟩ | ⟨hw, hv⟩ | ⟨hw, hv⟩ <;>
  rcases width_cases v' with ⟨hw', hv'⟩ | ⟨hw', hv'⟩ | ⟨hw', hv'⟩ | ⟨hw', hv'⟩ <;>
  omega

/-- A wider encoding starts with a larger lead byte. -/
theorem leadValue_lt {v v' : Nat} (h : width v < width v') : leadValue v < leadValue v' := by
  rcases width_cases v with ⟨hw, hv⟩ | ⟨hw, hv⟩ | ⟨hw, hv⟩ | ⟨hw, hv⟩ <;>
  rcases width_cases v' with ⟨hw', hv'⟩ | ⟨hw', hv'⟩ | ⟨hw', hv'⟩ | ⟨hw', hv'⟩ <;>
  simp only [leadValue, hw, hw'] <;> omega

theorem compare_encodedValue {v v' : Nat} (h : width v = width v') :
    compare (encodedValue v) (encodedValue v') = compare v v' := by
  rcases lt_trichotomy v v' with hlt | rfl | hgt
  · rw [compare_lt_iff_lt.mpr hlt, compare_lt_iff_lt.mpr (encodedValue_lt h hlt)]
  · rw [compare_eq_iff_eq.mpr rfl, compare_eq_iff_eq.mpr rfl]
  · rw [compare_gt_iff_gt.mpr hgt, compare_gt_iff_gt.mpr (encodedValue_lt h.symm hgt)]

/-- Code points of different widths compare like their lead bytes, and never as equal. -/
theorem compare_leadValue {v v' : Nat} (h : width v ≠ width v') :
    compare (leadValue v) (leadValue v') = compare v v' ∧ compare v v' ≠ .eq := by
  rcases Nat.lt_or_gt_of_ne h with h | h
  · rw [compare_lt_iff_lt.mpr (lt_of_width_lt h), compare_lt_iff_lt.mpr (leadValue_lt h)]
    exact ⟨rfl, by decide⟩
  · rw [compare_gt_iff_gt.mpr (lt_of_width_lt h), compare_gt_iff_gt.mpr (leadValue_lt h)]
    exact ⟨rfl, by decide⟩

/-- A character's encoding compares like the character, whatever bytes follow it. -/
theorem memcmp_utf8EncodeChar (c d : Char) (x y : List UInt8) :
    memcmp (String.utf8EncodeChar c ++ x) (String.utf8EncodeChar d ++ y) =
      (compare c.val.toNat d.val.toNat).then (memcmp x y) := by
  obtain ⟨l, r, hc, hl, hv, hw⟩ := utf8EncodeChar_view c
  obtain ⟨l', r', hd, hl', hv', hw'⟩ := utf8EncodeChar_view d
  rw [hc, hd]
  by_cases hwidth : width c.val.toNat = width d.val.toNat
  · have hlen := hw.trans (hwidth.trans hw'.symm)
    rw [Tuple.memcmp_append _ _ hlen, memcmp_eq_compare_beValue hlen, hv, hv',
      compare_encodedValue hwidth]
  · obtain ⟨hlead, hne⟩ := compare_leadValue hwidth
    simp only [List.cons_append, Tuple.memcmp, hl, hl', hlead]
    generalize compare c.val.toNat d.val.toNat = o at hne ⊢
    cases o <;> first | rfl | exact absurd rfl hne

/-! ## Strings -/

/-- `compare` on strings, with its order spelled out: core's `List.lt` on the characters. -/
theorem compare_def (a b : String) :
    compare a b =
      @ite _ (List.lt a.data b.data) (List.hasDecidableLt _ _) .lt (if a = b then .eq else .gt) :=
  rfl

theorem compare_mk_nil_cons (d : Char) (ds : List Char) :
    compare (String.mk []) ⟨d :: ds⟩ = .lt := rfl

theorem compare_mk_cons_nil (c : Char) (cs : List Char) :
    compare (String.mk (c :: cs)) ⟨[]⟩ = .gt := rfl

/-- Strings compare lexicographically, by code point. -/
theorem compare_mk_cons (c d : Char) (cs ds : List Char) :
    compare (String.mk (c :: cs)) ⟨d :: ds⟩ =
      (compare c.val.toNat d.val.toNat).then (compare (String.mk cs) ⟨ds⟩) := by
  rw [compare_def, compare_def]
  rcases lt_trichotomy c.val.toNat d.val.toNat with h | h | h
  · rw [compare_lt_iff_lt.mpr h, if_pos (List.lt.head (a := c) (b := d) cs ds h)]
    rfl
  · obtain rfl : c = d := Char.ext (UInt32.toNat.inj h)
    rw [compare_eq_iff_eq.mpr rfl]
    by_cases hr : List.lt cs ds
    · rw [if_pos (List.lt.tail (a := c) (b := c) (Nat.lt_irrefl _) (Nat.lt_irrefl _) hr),
        if_pos hr]
      rfl
    · have hlt : ¬ List.lt (c :: cs) (c :: ds) := fun h => by
        cases h with
        | head _ _ h => exact Nat.lt_irrefl _ h
        | tail _ _ h => exact hr h
      simp only [if_neg hlt, if_neg hr, String.ext_iff, List.cons.injEq, true_and, Ordering.then]
  · have hlt : ¬ List.lt (c :: cs) (d :: ds) := fun h' => by
      cases h' with
      | head _ _ h' => exact Nat.lt_asymm h h'
      | tail _ h' _ => exact h' h
    have hne : String.mk (c :: cs) ≠ ⟨d :: ds⟩ := fun he => by
      simp only [String.ext_iff, List.cons.injEq] at he
      rw [he.1] at h
      exact Nat.lt_irrefl _ h
    rw [compare_gt_iff_gt.mpr h, if_neg hlt, if_neg hne]
    rfl

/-- The UTF-8 bytes of two strings compare as the strings do. -/
theorem memcmp_flatMap_utf8EncodeChar : ∀ cs ds : List Char,
    memcmp (cs.flatMap String.utf8EncodeChar) (ds.flatMap String.utf8EncodeChar) =
      compare (String.mk cs) ⟨ds⟩
  | [], [] => rfl
  | [], d :: ds => by
    obtain ⟨l, r, hd, -⟩ := utf8EncodeChar_view d
    rw [List.flatMap_cons, hd, compare_mk_nil_cons]
    rfl
  | c :: cs, [] => by
    obtain ⟨l, r, hc, -⟩ := utf8EncodeChar_view c
    rw [List.flatMap_cons, hc, compare_mk_cons_nil]
    rfl
  | c :: cs, d :: ds => by
    rw [List.flatMap_cons, List.flatMap_cons, memcmp_utf8EncodeChar,
      memcmp_flatMap_utf8EncodeChar cs ds, compare_mk_cons]

/-- Strings compare as their UTF-8 bytes do. -/
theorem compare_eq_memcmp_toUTF8 (a b : String) :
    compare a b = memcmp a.toUTF8.data.toList b.toUTF8.data.toList :=
  (memcmp_flatMap_utf8EncodeChar a.data b.data).symm

end Mkdb.Utf8

namespace Mkdb

/-- `PartialOrd for Value` (`statement.rs:235-242`) as Rust evaluates it: `str::partial_cmp`
orders two strings by their UTF-8 bytes. -/
def Value.partialCmpBytes : Value → Value → Option Ordering
  | .string a, .string b => some (Tuple.memcmp a.toUTF8.data.toList b.toUTF8.data.toList)
  | a, b => a.partialCmp b

/-- Comparing strings by code point, as the model does, orders every pair of values as Rust's
byte order does. -/
theorem Value.partialCmp_eq_partialCmpBytes (a b : Value) :
    a.partialCmp b = a.partialCmpBytes b := by
  cases a <;> cases b <;> first | rfl | exact congrArg some (Utf8.compare_eq_memcmp_toUTF8 _ _)

/-- `é` (U+00E9, bytes `C3 A9`) sorts after `z` (U+007A, byte `7A`). -/
example : Value.partialCmpBytes (.string "é") (.string "z") = some .gt := by decide

end Mkdb
