import Mkdb.Storage.Tuple

/-!
# UTF-8 decoding inverts encoding

`serialize` writes a `VARCHAR` as `string.as_bytes()` and `deserialize` reads it back with
`std::str::from_utf8(..).unwrap()` (`tuple.rs:71-77`, `tuple.rs:127-131`), rendered as
`String.toUTF8` and `String.fromUTF8?`. The codec's round trip needs the decoder to invert the
encoder, which Lean's library does not state: `fromUTF8? s.toUTF8 = some s`.

A character is encoded in one to four bytes. The guards `utf8DecodeChar?` runs on each byte
depend only on the byte's payload bits, so they are checked on every payload by `decide`; the
code point it reassembles from the payloads is the character's, by arithmetic on `Nat`. The
decoder's two loops (`validateUTF8`, `fromUTF8`) then walk the characters one at a time.
-/

namespace Mkdb.Utf8

/-! ## Machine words as numbers -/

theorem toNat_toUInt32 (b : UInt8) : b.toUInt32.toNat = b.toNat := rfl

theorem toNat_toUInt8 (v : UInt32) : v.toUInt8.toNat = v.toNat % 256 := rfl

theorem toNat_or (a b : UInt32) : (a ||| b).toNat = a.toNat ||| b.toNat := BitVec.toNat_or _ _

theorem toNat_lit {n : Nat} (h : n < 4294967296) :
    (no_index (OfNat.ofNat n) : UInt32).toNat = (OfNat.ofNat n : Nat) :=
  Nat.mod_eq_of_lt h

theorem lt_iff {a b : UInt32} : a < b ↔ a.toNat < b.toNat := Iff.rfl

theorem le_iff {a b : UInt32} : a ≤ b ↔ a.toNat ≤ b.toNat := Iff.rfl

theorem toNat_shiftRight (v : UInt32) {k : Nat} (hk : k < 32) :
    (v >>> (no_index (OfNat.ofNat k) : UInt32)).toNat = v.toNat / 2 ^ k := by
  show (v.toBitVec >>> (BitVec.ofNat 32 k % 32)).toNat = v.toBitVec.toNat / 2 ^ k
  have hk' : k % 4294967296 % 32 = k := by omega
  simp [BitVec.toNat_ushiftRight, Nat.shiftRight_eq_div_pow, hk']

theorem toNat_shiftLeft (v : UInt32) {k : Nat} (hk : k < 32) :
    (v <<< (no_index (OfNat.ofNat k) : UInt32)).toNat = v.toNat * 2 ^ k % 2 ^ 32 := by
  show (v.toBitVec <<< (BitVec.ofNat 32 k % 32)).toNat = v.toBitVec.toNat * 2 ^ k % 2 ^ 32
  have hk' : k % 4294967296 % 32 = k := by omega
  simp [BitVec.toNat_shiftLeft, Nat.shiftLeft_eq, hk']

/-- A byte shifted left by at most `24` stays within the word. -/
theorem toNat_shiftLeft_byte (x : UInt8) {k : Nat} (hk : k ≤ 24) :
    (x.toUInt32 <<< (no_index (OfNat.ofNat k) : UInt32)).toNat = x.toNat * 2 ^ k := by
  rw [toNat_shiftLeft _ (by omega), toNat_toUInt32]
  apply Nat.mod_eq_of_lt
  calc x.toNat * 2 ^ k < 2 ^ 8 * 2 ^ k :=
        Nat.mul_lt_mul_of_pos_right x.toNat_lt_size (Nat.two_pow_pos k)
    _ = 2 ^ (8 + k) := (Nat.pow_add 2 8 k).symm
    _ ≤ 2 ^ 32 := Nat.pow_le_pow_right (by decide) (by omega)

theorem and_7 (x : Nat) : x &&& 7 = x % 8 := Nat.and_pow_two_sub_one_eq_mod x 3

theorem and_15 (x : Nat) : x &&& 15 = x % 16 := Nat.and_pow_two_sub_one_eq_mod x 4

theorem and_31 (x : Nat) : x &&& 31 = x % 32 := Nat.and_pow_two_sub_one_eq_mod x 5

theorem and_63 (x : Nat) : x &&& 63 = x % 64 := Nat.and_pow_two_sub_one_eq_mod x 6

/-- Or-ing in a value below `2^k` adds it to a multiple of `2^k`. -/
theorem or_eq_add {m b n : Nat} (k : Nat) (hn : 2 ^ k = n) (hm : m % n = 0) (hb : b < n) :
    m ||| b = m + b := by
  subst hn
  obtain ⟨q, rfl⟩ : 2 ^ k ∣ m := Nat.dvd_of_mod_eq_zero hm
  exact (Nat.mul_add_lt_is_or hb q).symm

/-! ## Byte arrays as lists -/

theorem getElem?_mk (l : List UInt8) (i : Nat) : (ByteArray.mk ⟨l⟩)[i]? = l[i]? := by
  simp only [getElem?, decidableGetElem?, ByteArray.size, Array.size]
  split <;> rfl

theorem size_mk (l : List UInt8) : (ByteArray.mk ⟨l⟩).size = l.length := rfl

theorem getElem?_mk_append (pre l rest : List UInt8) (k : Nat) :
    (ByteArray.mk ⟨pre ++ l ++ rest⟩)[pre.length + k]? = (l ++ rest)[k]? := by
  rw [getElem?_mk, List.append_assoc, List.getElem?_append_right (Nat.le_add_right _ _),
    Nat.add_sub_cancel_left]

/-! ## The guards on each byte -/

section Guards

/-- A byte below `k` satisfies `P` when the `k` values below it do. -/
theorem forall_byte_lt {P : UInt8 → Prop} {k : Nat} (h : ∀ n, n < k → P (UInt8.ofNat n))
    (x : UInt8) (hx : x.toNat < k) : P x := by
  have hx' : UInt8.ofNat x.toNat = x := UInt8.toNat.inj (Nat.mod_eq_of_lt x.toNat_lt_size)
  exact hx' ▸ h _ hx

theorem and_toNat_lt (x : UInt8) {m : UInt8} {k : Nat} (hm : m.toNat < 2 ^ k) :
    (x &&& m).toNat < 2 ^ k := by
  rw [UInt8.and_toNat]
  exact Nat.and_lt_two_pow _ hm

/-- The lead byte of a two-byte encoding: not ASCII, tagged `110`, payload kept. -/
theorem guards_lead_two (x : UInt8) : ((x &&& 0x1f ||| 0xc0) &&& 0x80 == 0) = false ∧
    ((x &&& 0x1f ||| 0xc0) &&& 0xe0 == 0xc0) = true ∧ (x &&& 0x1f ||| 0xc0) &&& 0x1f = x &&& 0x1f :=
  forall_byte_lt (P := fun y => ((y ||| 0xc0) &&& 0x80 == 0) = false ∧
    ((y ||| 0xc0) &&& 0xe0 == 0xc0) = true ∧ (y ||| 0xc0) &&& 0x1f = y) (by decide) _
    (and_toNat_lt x (k := 5) (by decide))

/-- The lead byte of a three-byte encoding: tagged `1110`, payload kept. -/
theorem guards_lead_three (x : UInt8) : ((x &&& 0x0f ||| 0xe0) &&& 0x80 == 0) = false ∧
    ((x &&& 0x0f ||| 0xe0) &&& 0xe0 == 0xc0) = false ∧ ((x &&& 0x0f ||| 0xe0) &&& 0xf0 == 0xe0) = true ∧
    (x &&& 0x0f ||| 0xe0) &&& 0x0f = x &&& 0x0f :=
  forall_byte_lt (P := fun y => ((y ||| 0xe0) &&& 0x80 == 0) = false ∧
    ((y ||| 0xe0) &&& 0xe0 == 0xc0) = false ∧ ((y ||| 0xe0) &&& 0xf0 == 0xe0) = true ∧
    (y ||| 0xe0) &&& 0x0f = y) (by decide) _ (and_toNat_lt x (k := 4) (by decide))

/-- The lead byte of a four-byte encoding: tagged `11110`, payload kept. -/
theorem guards_lead_four (x : UInt8) : ((x &&& 0x07 ||| 0xf0) &&& 0x80 == 0) = false ∧
    ((x &&& 0x07 ||| 0xf0) &&& 0xe0 == 0xc0) = false ∧ ((x &&& 0x07 ||| 0xf0) &&& 0xf0 == 0xe0) = false ∧
    ((x &&& 0x07 ||| 0xf0) &&& 0xf8 == 0xf0) = true ∧ (x &&& 0x07 ||| 0xf0) &&& 0x07 = x &&& 0x07 :=
  forall_byte_lt (P := fun y => ((y ||| 0xf0) &&& 0x80 == 0) = false ∧
    ((y ||| 0xf0) &&& 0xe0 == 0xc0) = false ∧ ((y ||| 0xf0) &&& 0xf0 == 0xe0) = false ∧
    ((y ||| 0xf0) &&& 0xf8 == 0xf0) = true ∧ (y ||| 0xf0) &&& 0x07 = y) (by decide) _
    (and_toNat_lt x (k := 3) (by decide))

/-- A continuation byte: tagged `10`, payload kept. -/
theorem guards_continuation (x : UInt8) : ((x &&& 0x3f ||| 0x80) &&& 0xc0 == 0x80) = true ∧
    (x &&& 0x3f ||| 0x80) &&& 0x3f = x &&& 0x3f :=
  forall_byte_lt (P := fun y => ((y ||| 0x80) &&& 0xc0 == 0x80) = true ∧ (y ||| 0x80) &&& 0x3f = y)
    (by decide) _ (and_toNat_lt x (k := 6) (by decide))

theorem guard_ascii (x : UInt8) (hx : x.toNat < 128) : (x &&& 0x80 == 0) = true :=
  forall_byte_lt (P := fun y => (y &&& 0x80 == 0) = true) (by decide) x hx

end Guards

/-! ## The code point from the payloads -/

theorem codePoint_two (v : UInt32) (h : v.toNat < 2048) :
    ((v >>> 6).toUInt8 &&& 0x1f).toUInt32 <<< 6 ||| (v.toUInt8 &&& 0x3f).toUInt32 = v := by
  apply UInt32.toNat.inj
  simp only [toNat_or, toNat_shiftLeft_byte _ (show 6 ≤ 24 by decide), toNat_toUInt32,
    UInt8.and_toNat, toNat_toUInt8, toNat_shiftRight _ (show 6 < 32 by decide),
    show UInt8.toNat 31 = 31 from rfl, show UInt8.toNat 63 = 63 from rfl, and_31, and_63,
    Nat.reducePow, Nat.mod_mod_of_dvd _ (show 32 ∣ 256 by decide),
    Nat.mod_mod_of_dvd _ (show 64 ∣ 256 by decide)]
  rw [or_eq_add (n := 64) 6 rfl (by omega) (by omega)]
  omega

theorem codePoint_three (v : UInt32) (h : v.toNat < 65536) :
    ((v >>> 12).toUInt8 &&& 0x0f).toUInt32 <<< 12 ||| ((v >>> 6).toUInt8 &&& 0x3f).toUInt32 <<< 6 |||
      (v.toUInt8 &&& 0x3f).toUInt32 = v := by
  apply UInt32.toNat.inj
  simp only [toNat_or, toNat_shiftLeft_byte _ (show 12 ≤ 24 by decide),
    toNat_shiftLeft_byte _ (show 6 ≤ 24 by decide), toNat_toUInt32, UInt8.and_toNat, toNat_toUInt8,
    toNat_shiftRight _ (show 12 < 32 by decide), toNat_shiftRight _ (show 6 < 32 by decide),
    show UInt8.toNat 15 = 15 from rfl, show UInt8.toNat 63 = 63 from rfl, and_15, and_63,
    Nat.reducePow, Nat.mod_mod_of_dvd _ (show 16 ∣ 256 by decide),
    Nat.mod_mod_of_dvd _ (show 64 ∣ 256 by decide)]
  rw [or_eq_add (m := _ * 4096) (n := 4096) 12 rfl (by omega) (by omega),
    or_eq_add (n := 64) 6 rfl (by omega) (by omega)]
  omega

theorem codePoint_four (v : UInt32) (h : v.toNat < 2097152) :
    ((v >>> 18).toUInt8 &&& 0x07).toUInt32 <<< 18 ||| ((v >>> 12).toUInt8 &&& 0x3f).toUInt32 <<< 12 |||
      ((v >>> 6).toUInt8 &&& 0x3f).toUInt32 <<< 6 ||| (v.toUInt8 &&& 0x3f).toUInt32 = v := by
  apply UInt32.toNat.inj
  simp only [toNat_or, toNat_shiftLeft_byte _ (show 18 ≤ 24 by decide),
    toNat_shiftLeft_byte _ (show 12 ≤ 24 by decide), toNat_shiftLeft_byte _ (show 6 ≤ 24 by decide),
    toNat_toUInt32, UInt8.and_toNat, toNat_toUInt8, toNat_shiftRight _ (show 18 < 32 by decide),
    toNat_shiftRight _ (show 12 < 32 by decide), toNat_shiftRight _ (show 6 < 32 by decide),
    show UInt8.toNat 7 = 7 from rfl, show UInt8.toNat 63 = 63 from rfl, and_7, and_63,
    Nat.reducePow, Nat.mod_mod_of_dvd _ (show 8 ∣ 256 by decide),
    Nat.mod_mod_of_dvd _ (show 64 ∣ 256 by decide)]
  rw [or_eq_add (m := _ * 262144) (n := 262144) 18 rfl (by omega) (by omega),
    or_eq_add (m := _ + _) (n := 4096) 12 rfl (by omega) (by omega),
    or_eq_add (n := 64) 6 rfl (by omega) (by omega)]
  omega

/-! ## One character -/

section Decode

variable (c : Char) (pre rest : List UInt8)

theorem utf8EncodeChar_one (h1 : c.val ≤ 0x7f) : String.utf8EncodeChar c = [c.val.toUInt8] :=
  if_pos h1

theorem utf8EncodeChar_two (h1 : ¬ c.val ≤ 0x7f) (h2 : c.val ≤ 0x7ff) :
    String.utf8EncodeChar c =
      [(c.val >>> 6).toUInt8 &&& 0x1f ||| 0xc0, c.val.toUInt8 &&& 0x3f ||| 0x80] := by
  simp only [String.utf8EncodeChar, if_neg h1, if_pos h2]

theorem utf8EncodeChar_three (h2 : ¬ c.val ≤ 0x7ff) (h3 : c.val ≤ 0xffff) :
    String.utf8EncodeChar c = [(c.val >>> 12).toUInt8 &&& 0x0f ||| 0xe0,
      (c.val >>> 6).toUInt8 &&& 0x3f ||| 0x80, c.val.toUInt8 &&& 0x3f ||| 0x80] := by
  have h1 : ¬ c.val ≤ 0x7f := fun h => h2 (UInt32.le_trans h (by decide))
  simp only [String.utf8EncodeChar, if_neg h1, if_neg h2, if_pos h3]

theorem utf8EncodeChar_four (h3 : ¬ c.val ≤ 0xffff) :
    String.utf8EncodeChar c = [(c.val >>> 18).toUInt8 &&& 0x07 ||| 0xf0,
      (c.val >>> 12).toUInt8 &&& 0x3f ||| 0x80, (c.val >>> 6).toUInt8 &&& 0x3f ||| 0x80,
      c.val.toUInt8 &&& 0x3f ||| 0x80] := by
  have h2 : ¬ c.val ≤ 0x7ff := fun h => h3 (UInt32.le_trans h (by decide))
  have h1 : ¬ c.val ≤ 0x7f := fun h => h2 (UInt32.le_trans h (by decide))
  simp only [String.utf8EncodeChar, if_neg h1, if_neg h2, if_neg h3]

theorem utf8DecodeChar?_one (h1 : c.val ≤ 0x7f) :
    String.utf8DecodeChar? ⟨⟨pre ++ String.utf8EncodeChar c ++ rest⟩⟩ pre.length = some c := by
  have hbytes := utf8EncodeChar_one c h1
  simp only [le_iff, toNat_lit, Nat.reduceLT] at h1
  have h0 := getElem?_mk_append pre [c.val.toUInt8] rest 0
  have h80 := guard_ascii c.val.toUInt8 (by rw [toNat_toUInt8]; omega)
  have hv : c.val.toUInt8.toUInt32 = c.val :=
    UInt32.toNat.inj (by rw [toNat_toUInt32, toNat_toUInt8]; omega)
  rw [Nat.add_zero, List.cons_append, List.getElem?_cons_zero] at h0
  rw [hbytes, String.utf8DecodeChar?, h0]
  dsimp only [Option.bind_eq_bind, Option.some_bind]
  rw [if_pos h80]
  exact congrArg some (Char.ext hv)

theorem utf8DecodeChar?_two (h1 : ¬ c.val ≤ 0x7f) (h2 : c.val ≤ 0x7ff) :
    String.utf8DecodeChar? ⟨⟨pre ++ String.utf8EncodeChar c ++ rest⟩⟩ pre.length = some c := by
  have hbytes := utf8EncodeChar_two c h1 h2
  simp only [le_iff, toNat_lit, Nat.reduceLT] at h1 h2
  obtain ⟨h80, he0, h1f⟩ := guards_lead_two (c.val >>> 6).toUInt8
  obtain ⟨hc0, h3f⟩ := guards_continuation c.val.toUInt8
  have hlo : 128 ≤ c.val.toNat := by omega
  have hlt : c.val.toNat < 55296 := by omega
  have h0 := getElem?_mk_append pre (String.utf8EncodeChar c) rest 0
  have h1 := getElem?_mk_append pre (String.utf8EncodeChar c) rest 1
  rw [Nat.add_zero] at h0
  rw [hbytes] at h0 h1 ⊢
  simp only [List.cons_append, List.getElem?_cons_zero, List.getElem?_cons_succ] at h0 h1
  rw [String.utf8DecodeChar?, h0]
  dsimp only [Option.bind_eq_bind, Option.some_bind]
  rw [if_neg (Bool.eq_false_iff.mp h80), if_pos he0, h1]
  simp only [Option.bind_eq_bind, Option.some_bind, h1f, hc0, h3f, codePoint_two c.val (by omega),
    Option.pure_def, guard, if_true, le_iff, lt_iff, toNat_lit, Nat.reduceLT, if_pos hlo, dif_pos hlt]

theorem utf8DecodeChar?_three (h2 : ¬ c.val ≤ 0x7ff) (h3 : c.val ≤ 0xffff) :
    String.utf8DecodeChar? ⟨⟨pre ++ String.utf8EncodeChar c ++ rest⟩⟩ pre.length = some c := by
  have hbytes := utf8EncodeChar_three c h2 h3
  simp only [le_iff, toNat_lit, Nat.reduceLT] at h2 h3
  obtain ⟨h80, he0, hf0, h0f⟩ := guards_lead_three (c.val >>> 12).toUInt8
  obtain ⟨hc1, h3f1⟩ := guards_continuation (c.val >>> 6).toUInt8
  obtain ⟨hc2, h3f2⟩ := guards_continuation c.val.toUInt8
  have hlo : 2048 ≤ c.val.toNat := by omega
  have hvalid : c.val.toNat < 55296 ∨ 57343 < c.val.toNat ∧ c.val.toNat < 1114112 := c.valid
  have h0 := getElem?_mk_append pre (String.utf8EncodeChar c) rest 0
  have h1 := getElem?_mk_append pre (String.utf8EncodeChar c) rest 1
  have h2 := getElem?_mk_append pre (String.utf8EncodeChar c) rest 2
  rw [Nat.add_zero] at h0
  rw [hbytes] at h0 h1 h2 ⊢
  simp only [List.cons_append, List.getElem?_cons_zero, List.getElem?_cons_succ] at h0 h1 h2
  rw [String.utf8DecodeChar?, h0]
  dsimp only [Option.bind_eq_bind, Option.some_bind]
  rw [if_neg (Bool.eq_false_iff.mp h80), if_neg (Bool.eq_false_iff.mp he0), if_pos hf0, h1, h2]
  simp only [Option.bind_eq_bind, Option.some_bind, h0f, hc1, h3f1, hc2, h3f2,
    codePoint_three c.val (by omega), Bool.and_self, Option.pure_def, guard, if_true, le_iff, lt_iff,
    toNat_lit, Nat.reduceLT, if_pos hlo, dif_pos hvalid]

theorem utf8DecodeChar?_four (h3 : ¬ c.val ≤ 0xffff) :
    String.utf8DecodeChar? ⟨⟨pre ++ String.utf8EncodeChar c ++ rest⟩⟩ pre.length = some c := by
  have hbytes := utf8EncodeChar_four c h3
  simp only [le_iff, toNat_lit, Nat.reduceLT] at h3
  have hvalid : c.val.toNat < 55296 ∨ 57343 < c.val.toNat ∧ c.val.toNat < 1114112 := c.valid
  obtain ⟨h80, he0, hf0, hf8, h07⟩ := guards_lead_four (c.val >>> 18).toUInt8
  obtain ⟨hc1, h3f1⟩ := guards_continuation (c.val >>> 12).toUInt8
  obtain ⟨hc2, h3f2⟩ := guards_continuation (c.val >>> 6).toUInt8
  obtain ⟨hc3, h3f3⟩ := guards_continuation c.val.toUInt8
  have hrange : 65536 ≤ c.val.toNat ∧ c.val.toNat < 1114112 := by omega
  have h0 := getElem?_mk_append pre (String.utf8EncodeChar c) rest 0
  have h1 := getElem?_mk_append pre (String.utf8EncodeChar c) rest 1
  have h2 := getElem?_mk_append pre (String.utf8EncodeChar c) rest 2
  have h3 := getElem?_mk_append pre (String.utf8EncodeChar c) rest 3
  rw [Nat.add_zero] at h0
  rw [hbytes] at h0 h1 h2 h3 ⊢
  simp only [List.cons_append, List.getElem?_cons_zero, List.getElem?_cons_succ] at h0 h1 h2 h3
  rw [String.utf8DecodeChar?, h0]
  dsimp only [Option.bind_eq_bind, Option.some_bind]
  rw [if_neg (Bool.eq_false_iff.mp h80), if_neg (Bool.eq_false_iff.mp he0),
    if_neg (Bool.eq_false_iff.mp hf0), if_pos hf8, h1, h2, h3]
  simp only [Option.bind_eq_bind, Option.some_bind, h07, hc1, h3f1, hc2, h3f2, hc3, h3f3,
    codePoint_four c.val (by omega), Bool.and_self, Option.pure_def, guard, if_true, le_iff, lt_iff,
    toNat_lit, Nat.reduceLT, dif_pos hrange]

/-- The decoder reads back the character whose encoding sits at the cursor, whatever comes
before or after it. -/
theorem utf8DecodeChar?_utf8EncodeChar :
    String.utf8DecodeChar? ⟨⟨pre ++ String.utf8EncodeChar c ++ rest⟩⟩ pre.length = some c := by
  by_cases h1 : c.val ≤ 0x7f
  · exact utf8DecodeChar?_one c pre rest h1
  by_cases h2 : c.val ≤ 0x7ff
  · exact utf8DecodeChar?_two c pre rest h1 h2
  by_cases h3 : c.val ≤ 0xffff
  · exact utf8DecodeChar?_three c pre rest h2 h3
  · exact utf8DecodeChar?_four c pre rest h3

end Decode

/-! ## The decoder's loops -/

/-- The bytes of a list of characters, as `String.toUTF8` lays them out. -/
def encode (cs : List Char) : List UInt8 := cs.flatMap String.utf8EncodeChar

theorem encode_cons (c : Char) (cs : List Char) (pre : List UInt8) :
    pre ++ encode (c :: cs) = pre ++ String.utf8EncodeChar c ++ encode cs := by
  simp [encode]

theorem encode_snoc (done : List Char) (c : Char) :
    encode (done ++ [c]) = encode done ++ String.utf8EncodeChar c := by
  simp [encode]

theorem length_lt_of_cons (done cs : List Char) (c : Char) :
    (encode done).length < (encode done ++ String.utf8EncodeChar c ++ encode cs).length := by
  simp only [List.length_append, String.length_utf8EncodeChar]
  have := c.utf8Size_pos
  omega

/-- Validation accepts the encoding of the characters left, from any point between two
characters. -/
theorem validateUTF8_loop (done cs : List Char) :
    String.validateUTF8.loop ⟨⟨encode done ++ encode cs⟩⟩ (encode done).length = some () := by
  induction cs generalizing done with
  | nil => rw [String.validateUTF8.loop, size_mk, if_neg (by simp [encode])]; rfl
  | cons c cs ih =>
    have hnext := ih (done ++ [c])
    rw [encode_snoc, List.length_append, String.length_utf8EncodeChar] at hnext
    rw [String.validateUTF8.loop, encode_cons, size_mk, if_pos (length_lt_of_cons done cs c),
      utf8DecodeChar?_utf8EncodeChar]
    exact hnext

/-- Conversion appends the characters left to those already read. -/
theorem fromUTF8_loop (done cs : List Char) :
    String.fromUTF8.loop ⟨⟨encode done ++ encode cs⟩⟩ (encode done).length ⟨done⟩ = ⟨done ++ cs⟩ := by
  induction cs generalizing done with
  | nil => rw [String.fromUTF8.loop, size_mk, if_neg (by simp [encode]), List.append_nil]
  | cons c cs ih =>
    have hnext := ih (done ++ [c])
    rw [encode_snoc, List.length_append, String.length_utf8EncodeChar] at hnext
    rw [String.fromUTF8.loop, encode_cons, size_mk, if_pos (length_lt_of_cons done cs c),
      utf8DecodeChar?_utf8EncodeChar, List.append_cons]
    exact hnext

/-- Decoding a string's UTF-8 bytes gives the string back. -/
theorem fromUTF8?_toUTF8 (s : String) : String.fromUTF8? s.toUTF8 = some s := by
  have hbytes : s.toUTF8 = ⟨⟨encode [] ++ encode s.data⟩⟩ := rfl
  have hvalid : String.validateUTF8 s.toUTF8 = true := by
    rw [String.validateUTF8, hbytes, show 0 = (encode []).length from rfl, validateUTF8_loop]
    rfl
  rw [String.fromUTF8?, dif_pos hvalid, String.fromUTF8, hbytes,
    show 0 = (encode []).length from rfl, show "" = ⟨[]⟩ from rfl, fromUTF8_loop]
  rfl

end Mkdb.Utf8
