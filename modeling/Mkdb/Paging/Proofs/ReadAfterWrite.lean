import Mkdb.Paging.PageStore
import Mathlib.Data.Nat.Bitwise
import Mathlib.Tactic.Ring
import Mathlib.Tactic.Positivity

/-!
# Read after write on a BlockIo file

A `BlockIo` file refines the page store of the writes made to it: byte `i` of its vector is
byte `i` of the store's pages laid end to end (`Refines`). `write` keeps the relation
(`Refines.write`), so every run of writes from an empty file does (`writeAll_refines`), and
`read` of a page inside the store returns that page in both layouts (`Refines.read`). In the
block layout this rests on the mask: `x & !(2^k - 1)` rounds `x` down to a multiple of `2^k`,
and a page lies inside its block because a multiple of the page size stays a whole page
below the next block boundary.
-/

namespace Mkdb

/-! ## The cursor -/

theorem MemBuf.write_inner_getElem? (c : MemBuf) (buf : List UInt8) (i : Nat) :
    (c.write buf).1.inner[i]? =
      if i < c.pos then some (c.inner[i]?.getD 0)
      else if i < c.pos + buf.length then buf[i - c.pos]?
      else c.inner[i]? := by
  have hmin : min c.pos (c.inner.length + (c.pos - c.inner.length)) = c.pos := by omega
  simp only [MemBuf.write, List.getElem?_append, List.getElem?_take, List.getElem?_drop,
    List.getElem?_replicate, List.length_append, List.length_take, List.length_replicate, hmin]
  rcases Nat.lt_or_ge i c.pos with hpos | hpos
  · have hbuf : i < c.pos + buf.length := by omega
    simp only [hpos, hbuf, if_true]
    by_cases hi : i < c.inner.length
    · simp only [hi, if_true, List.getElem?_eq_getElem hi, Option.getD_some]
    · simp only [hi, if_false, List.getElem?_eq_none (Nat.le_of_not_lt hi), Option.getD_none,
        show i - c.inner.length < c.pos - c.inner.length by omega, if_true]
  · have hpos' : ¬i < c.pos := by omega
    rcases Nat.lt_or_ge i (c.pos + buf.length) with hbuf | hbuf
    · simp only [hpos', hbuf, if_true, if_false]
    · simp only [hpos', show ¬i < c.pos + buf.length by omega, if_false,
        show c.pos + buf.length + (i - (c.pos + buf.length)) = i by omega]
      by_cases hi : i < c.inner.length
      · simp only [hi, if_true]
      · simp only [hi, if_false, List.getElem?_eq_none (Nat.le_of_not_lt hi),
          show ¬i - c.inner.length < c.pos - c.inner.length by omega]

/-! ## The mask -/

/-- Masking with the complement of `2^k - 1` rounds down to a multiple of `2^k`. -/
theorem and_usizeNot_two_pow_sub_one {x : Nat} (hx : x < 2 ^ 64) (k : Nat) :
    x &&& usizeNot (2 ^ k - 1) = 2 ^ k * (x / 2 ^ k) := by
  rcases Nat.lt_or_ge 64 k with hk | hk
  · have hnot : usizeNot (2 ^ k - 1) = 0 := by
      have := Nat.pow_lt_pow_right (by omega : 1 < 2) hk
      unfold usizeNot; omega
    rw [hnot, Nat.and_zero, Nat.div_eq_of_lt (lt_trans hx (Nat.pow_lt_pow_right (by omega) hk)),
      Nat.mul_zero]
  · have hnot : usizeNot (2 ^ k - 1) = 2 ^ k * (2 ^ (64 - k) - 1) := by
      have h := Nat.pow_add 2 k (64 - k)
      rw [Nat.add_sub_cancel' hk] at h
      have := Nat.one_le_two_pow (n := k)
      unfold usizeNot; rw [Nat.mul_sub_one, ← h]; omega
    apply Nat.eq_of_testBit_eq
    intro i
    rw [hnot, Nat.testBit_land, Nat.testBit_mul_pow_two, Nat.testBit_mul_pow_two,
      Nat.testBit_two_pow_sub_one, ← Nat.shiftRight_eq_div_pow, Nat.testBit_shiftRight]
    by_cases hik : k ≤ i
    · rw [Nat.add_sub_cancel' hik]
      by_cases hi : i < 64
      · simp [hik, show i - k < 64 - k by omega]
      · simp [Nat.testBit_eq_false_of_lt (lt_of_lt_of_le hx (Nat.pow_le_pow_right (by omega)
          (by omega : 64 ≤ i)))]
    · simp [show ¬ i ≥ k by omega]

/-- The layout `read` computes, for power-of-two sizes: the block offset and the inner offset
add up to the page's offset, and the page ends inside the block read. -/
theorem BlockIo.layout_spec {b : BlockIo} {n : Nat} (hps : ∃ a, b.pageSize = 2 ^ a)
    (hbs : ∃ k, b.blockSize = 2 ^ k) (hx : n * b.pageSize < 2 ^ 64) :
    (b.layout n).2.1 + (b.layout n).2.2 = n * b.pageSize ∧
      (b.layout n).2.2 + b.pageSize ≤ (b.layout n).1 := by
  unfold BlockIo.layout
  split_ifs with hge
  · exact ⟨by simp [Nat.mul_comm], by simp⟩
  · obtain ⟨a, ha⟩ := hps
    obtain ⟨k, hk⟩ := hbs
    have hak : a < k := (Nat.pow_lt_pow_iff_right (show 1 < 2 by omega)).mp (by omega)
    have hsplit : 2 ^ k = 2 ^ a * 2 ^ (k - a) := by rw [← Nat.pow_add, Nat.add_sub_cancel' hak.le]
    simp only [hk, and_usizeNot_two_pow_sub_one hx]
    have hmod : n * 2 ^ a % 2 ^ k = 2 ^ a * (n % 2 ^ (k - a)) := by
      rw [hsplit, Nat.mul_comm n, Nat.mul_mod_mul_left]
    have hlt : n % 2 ^ (k - a) < 2 ^ (k - a) := Nat.mod_lt _ (by positivity)
    have hdiv := Nat.div_add_mod (n * 2 ^ a) (2 ^ k)
    refine ⟨by rw [ha]; omega, ?_⟩
    rw [ha, show n * 2 ^ a - 2 ^ k * (n * 2 ^ a / 2 ^ k) = n * 2 ^ a % 2 ^ k by omega, hmod, hsplit]
    calc 2 ^ a * (n % 2 ^ (k - a)) + 2 ^ a = 2 ^ a * (n % 2 ^ (k - a) + 1) := by ring
      _ ≤ 2 ^ a * 2 ^ (k - a) := Nat.mul_le_mul_left _ hlt

/-! ## Refinement of the page store -/

/-- A BlockIo file holds a page store: same page size, and byte for byte the store's pages
laid end to end. -/
structure Refines (b : BlockIo) (s : PageStore) : Prop where
  pageSize_eq : b.pageSize = s.pageSize
  wellFormed : s.WellFormed
  bytes : ∀ i, b.io.inner[i]? = s.byteAt i

section Division

variable {ps n i : Nat}

private theorem div_mod_of_page (h1 : ps * n ≤ i) (h2 : i < ps * n + ps) :
    i / ps = n ∧ i % ps = i - ps * n := by
  have hd : i / ps = n := Nat.div_eq_of_lt_le (by rw [Nat.mul_comm]; exact h1)
    (by rw [Nat.succ_mul, Nat.mul_comm]; exact h2)
  exact ⟨hd, by rw [Nat.mod_def, hd]⟩

private theorem lt_mul_of_lt_max {a b c : Nat} : i < max a b * c ↔ i < a * c ∨ i < b * c := by
  rcases Nat.le_total a b with h | h
  · have := Nat.mul_le_mul_right c h
    rw [Nat.max_eq_right h]; omega
  · have := Nat.mul_le_mul_right c h
    rw [Nat.max_eq_left h]; omega

end Division

theorem PageStore.getElem?_read {s : PageStore} (hs : s.WellFormed) (m : Nat) {j : Nat}
    (hj : j < s.pageSize) : ∃ x, (s.read m)[j]? = some x :=
  ⟨_, List.getElem?_eq_getElem (by rw [PageStore.read_length hs]; exact hj)⟩

theorem Refines.length {b : BlockIo} {s : PageStore} (h : Refines b s) :
    b.io.inner.length = s.extent * s.pageSize := by
  apply Nat.le_antisymm
  · by_contra hlt
    have := h.bytes (s.extent * s.pageSize)
    rw [List.getElem?_eq_getElem (by omega), PageStore.byteAt, if_neg (by omega)] at this
    simp at this
  · by_contra hlt
    have hi := h.bytes b.io.inner.length
    have hps : 0 < s.pageSize := Nat.pos_of_ne_zero (by rintro h0; simp [h0] at hlt)
    obtain ⟨x, hx⟩ := PageStore.getElem?_read h.wellFormed (b.io.inner.length / s.pageSize)
      (Nat.mod_lt b.io.inner.length hps)
    rw [List.getElem?_eq_none (le_refl _), PageStore.byteAt, if_pos (by omega), hx] at hi
    simp at hi

/-- Byte `j` of page `n` of the file is byte `j` of the store's page `n`. -/
theorem Refines.getElem?_page {b : BlockIo} {s : PageStore} (h : Refines b s) {n j : Nat}
    (hn : n < s.extent) (hj : j < s.pageSize) :
    b.io.inner[s.pageSize * n + j]? = (s.read n)[j]? := by
  obtain ⟨hd, hm⟩ := div_mod_of_page (show s.pageSize * n ≤ s.pageSize * n + j by omega)
    (show s.pageSize * n + j < s.pageSize * n + s.pageSize by omega)
  have hlt : s.pageSize * n + j < s.extent * s.pageSize := by
    have h1 := Nat.mul_le_mul_right s.pageSize (Nat.succ_le_of_lt hn)
    have h2 := Nat.mul_comm s.pageSize n
    rw [Nat.succ_mul] at h1; omega
  rw [h.bytes, PageStore.byteAt, if_pos hlt, hd, hm, Nat.add_sub_cancel_left]

/-- Writing a page into the store changes its bytes exactly as writing the page's bytes at
the page's offset changes a vector: zeros fill a gap, the page replaces its range, and
nothing else moves. -/
theorem PageStore.byteAt_write {s : PageStore} (hs : s.WellFormed) (n : Nat)
    {buf : List UInt8} (hbuf : buf.length = s.pageSize) (i : Nat) :
    (s.write n buf).byteAt i =
      if i < s.pageSize * n then some ((s.byteAt i).getD 0)
      else if i < s.pageSize * n + buf.length then buf[i - s.pageSize * n]?
      else s.byteAt i := by
  simp only [PageStore.byteAt, write_pageSize, write_extent, hbuf, PageStore.read_write]
  rcases Nat.eq_zero_or_pos s.pageSize with h0 | hps
  · simp [h0]
  have hmax : i < max s.extent (n + 1) * s.pageSize ↔
      i < s.extent * s.pageSize ∨ i < s.pageSize * n + s.pageSize := by
    rw [lt_mul_of_lt_max, Nat.succ_mul, Nat.mul_comm n]
  by_cases hA : i < s.pageSize * n
  · rw [if_pos (hmax.mpr (.inr (by omega))), if_pos hA, if_neg (Nat.div_lt_of_lt_mul hA).ne]
    by_cases hE : i < s.extent * s.pageSize
    · obtain ⟨x, hx⟩ := PageStore.getElem?_read hs (i / s.pageSize) (Nat.mod_lt i hps)
      rw [if_pos hE, hx]; rfl
    · have hext : s.extent ≤ i / s.pageSize := (Nat.le_div_iff_mul_le hps).mpr (by omega)
      simp [hE, PageStore.read, hs.none_of_extent_le _ hext, Nat.mod_lt i hps]
  by_cases hB : i < s.pageSize * n + s.pageSize
  · obtain ⟨hd, hm⟩ := div_mod_of_page (by omega) hB
    rw [if_pos (hmax.mpr (.inr hB)), if_neg hA, if_pos hB, if_pos hd, hm]
  · have hnext : n + 1 ≤ i / s.pageSize :=
      (Nat.le_div_iff_mul_le hps).mpr (by rw [Nat.succ_mul, Nat.mul_comm]; omega)
    have hE : i < max s.extent (n + 1) * s.pageSize ↔ i < s.extent * s.pageSize := by
      rw [hmax]; omega
    rw [if_neg hA, if_neg hB, if_neg (show i / s.pageSize ≠ n by omega)]
    simp only [hE]

/-- One `write` keeps the refinement: the file then holds the store with the page written,
and the write reports a whole page. -/
theorem Refines.write {b : BlockIo} {s : PageStore} (h : Refines b s) {n : Nat}
    {buf : List UInt8} (hbuf : buf.length = b.pageSize) (hn : b.pageSize * n < 100 <<< 20) :
    ∃ b', b.write n buf = some (b', b.pageSize) ∧ Refines b' (s.write n buf) ∧
      b'.pageSize = b.pageSize ∧ b'.blockSize = b.blockSize := by
  have hlim : b.pageSize * n < 104857600 := hn
  refine ⟨{ b with io := ((b.io.seekStart (b.pageSize * n)).write buf).1 },
    by simp [BlockIo.write, BlockIo.debugAssertArgsAreCorrect, hbuf, hlim, MemBuf.write], ?_, rfl,
    rfl⟩
  have hbuf' : buf.length = s.pageSize := h.pageSize_eq ▸ hbuf
  refine ⟨h.pageSize_eq, PageStore.wellFormed_write h.wellFormed n hbuf', fun i => ?_⟩
  show ((b.io.seekStart (b.pageSize * n)).write buf).1.inner[i]? = _
  rw [MemBuf.write_inner_getElem?, PageStore.byteAt_write h.wellFormed n hbuf', ← h.bytes i]
  simp [MemBuf.seekStart, h.pageSize_eq]

/-- A run of writes of whole pages, each below the debug limit, returns on an empty file and
leaves it holding the store those writes build. -/
theorem writeAll_refines {ps bs : Nat} (ws : List (Nat × List UInt8))
    (hws : ∀ w ∈ ws, w.2.length = ps ∧ ps * w.1 < 100 <<< 20) :
    ∃ b, (BlockIo.new ⟨[], 0⟩ ps bs).writeAll ws = some b ∧
      Refines b (PageStore.ofWrites ps ws) ∧ b.pageSize = ps ∧ b.blockSize = bs := by
  suffices ∀ (b : BlockIo) (s : PageStore), Refines b s → b.pageSize = ps → b.blockSize = bs →
      ∃ b', b.writeAll ws = some b' ∧ Refines b' (ws.foldl (fun s w => s.write w.1 w.2) s) ∧
        b'.pageSize = ps ∧ b'.blockSize = bs from
    this _ _ ⟨rfl, PageStore.wellFormed_empty ps,
      fun i => by simp [BlockIo.new, PageStore.byteAt, PageStore.empty]⟩ rfl rfl
  induction ws with
  | nil => exact fun b s h hp hb => ⟨b, rfl, h, hp, hb⟩
  | cons w ws ih =>
    intro b s h hp hb
    obtain ⟨hlen, hlim⟩ := hws w (List.mem_cons_self w ws)
    obtain ⟨b', hw, h', hp', hb'⟩ := h.write (n := w.1) (hp ▸ hlen) (hp ▸ hlim)
    obtain ⟨b'', hrun, h'', hp'', hb''⟩ :=
      ih (fun v hv => hws v (List.mem_cons_of_mem w hv)) b' _ h' (hp'.trans hp) (hb'.trans hb)
    exact ⟨b'', by simp [BlockIo.writeAll, hw, hrun], h'', hp'', hb''⟩

/-- Page `n` read out of any window of the file that covers it: `c` bytes from offset `o`,
padded with anything. Both layouts of `read` copy the page out of such a window. -/
theorem Refines.take_drop_window {b : BlockIo} {s : PageStore} (h : Refines b s) {n o c : Nat}
    (hn : n < s.extent) (ho : o ≤ s.pageSize * n) (hc : s.pageSize * n + s.pageSize ≤ o + c)
    (pad : List UInt8) :
    ((((b.io.inner.drop o).take c) ++ pad).drop (s.pageSize * n - o)).take s.pageSize =
      s.read n := by
  have hlen := h.length
  have hend : s.pageSize * n + s.pageSize ≤ s.extent * s.pageSize := by
    have := Nat.mul_le_mul_right s.pageSize (Nat.succ_le_of_lt hn)
    rw [Nat.succ_mul, Nat.mul_comm n] at this; exact this
  apply List.ext_getElem?
  intro j
  rw [List.getElem?_take, List.getElem?_drop]
  split_ifs with hj
  · rw [List.getElem?_append_left (by simp; omega), List.getElem?_take_of_lt (by omega),
      List.getElem?_drop, show o + (s.pageSize * n - o + j) = s.pageSize * n + j by omega,
      h.getElem?_page hn hj]
  · rw [List.getElem?_eq_none (by rw [PageStore.read_length h.wellFormed]; omega)]

/-- `read` of a page inside the store returns that page in full, in both layouts. -/
theorem Refines.read {b : BlockIo} {s : PageStore} (h : Refines b s)
    (hps : ∃ a, b.pageSize = 2 ^ a) (hbs : ∃ k, b.blockSize = 2 ^ k) {n : Nat}
    (hn : n < s.extent) (hlim : b.pageSize * n < 100 <<< 20) {buf : List UInt8}
    (hbuf : buf.length = b.pageSize) :
    ∃ b', b.read n buf = some (b', b.pageSize, s.read n) := by
  have hlim' : b.pageSize * n < 104857600 := hlim
  have hps_eq := h.pageSize_eq
  have hlen := h.length
  have hend : s.pageSize * n + s.pageSize ≤ s.extent * s.pageSize := by
    have := Nat.mul_le_mul_right s.pageSize (Nat.succ_le_of_lt hn)
    rw [Nat.succ_mul, Nat.mul_comm n] at this; exact this
  have hcomm : n * b.pageSize = s.pageSize * n := by rw [hps_eq, Nat.mul_comm]
  have hcomm' : b.pageSize * n = s.pageSize * n := by rw [hps_eq]
  unfold BlockIo.read
  rw [if_neg (by simp [BlockIo.debugAssertArgsAreCorrect, hbuf, hlim'])]
  by_cases hge : b.pageSize ≥ b.blockSize
  · have hwin := h.take_drop_window hn (le_refl _) (le_refl _) []
    simp only [Nat.sub_self, List.drop_zero, List.append_nil, List.take_take, Nat.min_self]
      at hwin
    rw [hps_eq] at hge
    simp only [BlockIo.layout, hps_eq, if_pos hge, MemBuf.seekStart, MemBuf.read, List.length_drop,
      hbuf, Nat.min_eq_left (show s.pageSize ≤ b.io.inner.length - s.pageSize * n by omega),
      List.drop_eq_nil_of_le (show buf.length ≤ s.pageSize by omega), List.append_nil, hwin]
    exact ⟨_, rfl⟩
  · obtain ⟨hsum, hinner⟩ := BlockIo.layout_spec hps hbs (n := n) (by omega)
    simp only [BlockIo.layout, if_neg hge] at hsum hinner ⊢
    set o := n * b.pageSize &&& usizeNot (b.blockSize - 1)
    have hwin := h.take_drop_window hn (o := o) (c := min b.blockSize (b.io.inner.length - o))
      (by omega) (by omega) ((List.replicate b.blockSize 0).drop (min b.blockSize (b.io.inner.length - o)))
    rw [← hcomm, ← hps_eq] at hwin
    simp only [MemBuf.seekStart, MemBuf.read, List.length_replicate, List.length_drop, if_neg hge]
    rw [if_pos (by simp only [List.length_append, List.length_take, List.length_drop,
      List.length_replicate]; omega), hwin]
    exact ⟨_, rfl⟩

/-- Read after write on a `BlockIo` over an empty `MemBuf`, for power-of-two page and block
sizes in either layout: a run of whole-page writes (each within the debug build's 100 MiB
limit) returns, and afterwards every page up to the highest one written reads back, as a full
page, the buffer last written there, or zeros if it never was. The layout `read` computes
puts the masked block offset plus the inner offset at `n * page_size` and the copied slice
inside the block. -/
theorem blockIo_read_after_write {ps bs : Nat} (hps : ∃ a, ps = 2 ^ a) (hbs : ∃ k, bs = 2 ^ k)
    (ws : List (Nat × List UInt8)) (hws : ∀ w ∈ ws, w.2.length = ps ∧ ps * w.1 < 100 <<< 20) :
    ∃ b, (BlockIo.new ⟨[], 0⟩ ps bs).writeAll ws = some b ∧
      ∀ n, (∃ w ∈ ws, n ≤ w.1) →
        ((b.layout n).2.1 + (b.layout n).2.2 = n * ps ∧ (b.layout n).2.2 + ps ≤ (b.layout n).1) ∧
        ∀ buf : List UInt8, buf.length = ps →
          ∃ b', b.read n buf = some (b', ps, (PageStore.lastWrite ws n).getD (List.replicate ps 0))
  := by
  obtain ⟨b, hrun, href, hp, hb⟩ := @writeAll_refines ps bs ws hws
  refine ⟨b, hrun, fun n hn => ?_⟩
  have hlim : ps * n < 100 <<< 20 := by
    obtain ⟨w, hw, hle⟩ := hn
    exact lt_of_le_of_lt (Nat.mul_le_mul_left ps hle) (hws w hw).2
  have hlim' : ps * n < 104857600 := hlim
  refine ⟨?_, fun buf hbuf => ?_⟩
  · have := BlockIo.layout_spec (b := b) (n := n) (hp ▸ hps) (hb ▸ hbs)
      (by rw [hp, Nat.mul_comm]; omega)
    rwa [hp] at this
  · obtain ⟨b', hb'⟩ := href.read (hp ▸ hps) (hb ▸ hbs) (PageStore.lt_extent_ofWrites ps ws n hn)
      (hp ▸ hlim) (hp ▸ hbuf)
    rw [PageStore.ofWrites_read, hp] at hb'
    exact ⟨b', hb'⟩

/-- Two writes to page 2 around one to page 0, with 4-byte pages in 16-byte blocks: page 2
reads back its second image, page 0 its image and page 1 zeros. -/
theorem blockIo_read_after_write_overwrite :
    ((∃ a, 4 = 2 ^ a) ∧ (∃ k, 16 = 2 ^ k) ∧
      ∀ w ∈ ([(2, [1, 2, 3, 4]), (0, [5, 6, 7, 8]), (2, [9, 9, 9, 9])] : List (Nat × List UInt8)),
        w.2.length = 4 ∧ 4 * w.1 < 100 <<< 20) ∧
    ∃ b, (BlockIo.new ⟨[], 0⟩ 4 16).writeAll
        [(2, [1, 2, 3, 4]), (0, [5, 6, 7, 8]), (2, [9, 9, 9, 9])] = some b ∧
      ∀ n, (∃ w ∈ ([(2, [1, 2, 3, 4]), (0, [5, 6, 7, 8]), (2, [9, 9, 9, 9])] :
          List (Nat × List UInt8)), n ≤ w.1) →
        ((b.layout n).2.1 + (b.layout n).2.2 = n * 4 ∧ (b.layout n).2.2 + 4 ≤ (b.layout n).1) ∧
        ∀ buf : List UInt8, buf.length = 4 →
          ∃ b', b.read n buf = some (b', 4, (PageStore.lastWrite
            [(2, [1, 2, 3, 4]), (0, [5, 6, 7, 8]), (2, [9, 9, 9, 9])] n).getD
              (List.replicate 4 0)) :=
  have hps : ∃ a, 4 = 2 ^ a := ⟨2, rfl⟩
  have hbs : ∃ k, 16 = 2 ^ k := ⟨4, rfl⟩
  have hws : ∀ w ∈ ([(2, [1, 2, 3, 4]), (0, [5, 6, 7, 8]), (2, [9, 9, 9, 9])] :
      List (Nat × List UInt8)), w.2.length = 4 ∧ 4 * w.1 < 100 <<< 20 := by decide
  ⟨⟨hps, hbs, hws⟩, blockIo_read_after_write hps hbs _ hws⟩

/-- The 100 MiB bound is the code's: a write whose offset reaches it fails
`debug_assert_args_are_correct` and panics, so nothing can be read back after it. Page 25600
of 4 KiB pages starts at exactly 100 MiB. -/
theorem blockIo_write_past_debug_limit :
    (BlockIo.new ⟨[], 0⟩ 4096 4096).writeAll [(25600, List.replicate 4096 0)] = none := by
  have hrefuse : (BlockIo.new ⟨[], 0⟩ 4096 4096).debugAssertArgsAreCorrect 25600
      (List.replicate 4096 0) = false := by
    simp only [BlockIo.debugAssertArgsAreCorrect, BlockIo.new, List.length_replicate]
    decide
  rw [BlockIo.writeAll, BlockIo.write, hrefuse]
  rfl

end Mkdb
