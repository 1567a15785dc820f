import Mkdb.Paging.Proofs.ReadAfterWrite

/-!
# The two layouts of `read`, compared

`BlockIo::read` takes one of two paths. With pages at least as large as blocks it reads the
page straight into the caller's buffer; with smaller pages it reads the enclosing block into
a zeroed buffer and copies the page out of it. On a page the file holds, both return that
page (`Refines.read`). Past the end of the file they part. The direct read finds no bytes:
it reports `0` and leaves the buffer as it was (`Refines.read_past_end_direct`). The block
read copies the page out of its zeroed buffer and reports a whole page of zeros
(`Refines.read_past_end_block`).
-/

namespace Mkdb

/-- A run of writes, all below page `n`, builds a store that ends at or before `n`. -/
theorem PageStore.extent_ofWrites_le (pageSize : Nat) (ws : List (Nat × List UInt8)) (n : Nat)
    (hn : ∀ w ∈ ws, w.1 < n) : (ofWrites pageSize ws).extent ≤ n := by
  suffices ∀ s : PageStore, s.extent ≤ n →
      (ws.foldl (fun s w => s.write w.1 w.2) s).extent ≤ n from this _ (Nat.zero_le n)
  induction ws with
  | nil => exact fun _ h => h
  | cons w ws ih =>
    intro s h
    have hw := hn w (List.mem_cons_self w ws)
    exact ih (fun v hv => hn v (List.mem_cons_of_mem w hv)) _ (by rw [write_extent]; omega)

section PastEnd

variable {b : BlockIo} {s : PageStore} {n : Nat} {buf : List UInt8}

/-- A read the debug checks refuse panics, in either layout. -/
theorem BlockIo.read_eq_none (h : ¬(buf.length = b.pageSize ∧ b.pageSize * n < 100 <<< 20)) :
    b.read n buf = none := by
  unfold BlockIo.read
  rw [if_pos (by simpa only [BlockIo.debugAssertArgsAreCorrect, Bool.not_eq_true',
    Bool.eq_false_iff, ne_eq, Bool.and_eq_true, beq_iff_eq, decide_eq_true_eq] using h)]

/-- The refinement does not look at the block size: the same file read through any block size
refines the same store. -/
theorem Refines.withBlockSize (h : Refines b s) (blockSize : Nat) :
    Refines (BlockIo.new b.io b.pageSize blockSize) s :=
  ⟨h.pageSize_eq, h.wellFormed, h.bytes⟩

/-- The file ends at or before page `n`. -/
theorem Refines.length_le_of_extent_le (h : Refines b s) (hn : s.extent ≤ n) :
    b.io.inner.length ≤ b.pageSize * n := by
  rw [h.length, h.pageSize_eq, Nat.mul_comm]
  exact Nat.mul_le_mul_left _ hn

/-- Past the end of the file, the direct layout reads nothing: it reports `0` bytes and leaves
the buffer as it was. -/
theorem Refines.read_past_end_direct (h : Refines b s) (hge : b.blockSize ≤ b.pageSize)
    (hn : s.extent ≤ n) (hlim : b.pageSize * n < 100 <<< 20) (hbuf : buf.length = b.pageSize) :
    ∃ b', b.read n buf = some (b', 0, buf) := by
  have hlim' : b.pageSize * n < 104857600 := hlim
  unfold BlockIo.read
  rw [if_neg (by simp [BlockIo.debugAssertArgsAreCorrect, hbuf, hlim'])]
  simp only [BlockIo.layout, if_pos hge, MemBuf.seekStart, MemBuf.read,
    List.drop_eq_nil_of_le (h.length_le_of_extent_le hn), List.length_nil, Nat.min_zero,
    List.take_zero, List.drop_zero, List.nil_append]
  exact ⟨_, rfl⟩

/-- A page that starts past the `c` bytes a read supplied lies in the zero padding behind
them. -/
theorem take_drop_window_past_data (data : List UInt8) {c k size ps : Nat}
    (hc : c ≤ data.length) (hk : c ≤ k) (hsize : k + ps ≤ size) :
    ((data.take c ++ (List.replicate size 0).drop c).drop k).take ps = List.replicate ps 0 := by
  have hlen : (data.take c).length = c := List.length_take_of_le hc
  rw [List.drop_append_eq_append_drop, List.drop_eq_nil_of_le (by omega), List.nil_append, hlen,
    List.drop_replicate, List.drop_replicate, List.take_replicate]
  congr 1
  omega

/-- Past the end of the file, the block layout copies the page out of its zeroed block
buffer: it reports a whole page, of zeros. -/
theorem Refines.read_past_end_block (h : Refines b s) (hps : ∃ a, b.pageSize = 2 ^ a)
    (hbs : ∃ k, b.blockSize = 2 ^ k) (hlt : b.pageSize < b.blockSize) (hn : s.extent ≤ n)
    (hlim : b.pageSize * n < 100 <<< 20) (hbuf : buf.length = b.pageSize) :
    ∃ b', b.read n buf = some (b', b.pageSize, List.replicate b.pageSize 0) := by
  have hlim' : b.pageSize * n < 104857600 := hlim
  have hcomm : n * b.pageSize = b.pageSize * n := Nat.mul_comm _ _
  have hend := h.length_le_of_extent_le hn
  have hge : ¬b.pageSize ≥ b.blockSize := by omega
  obtain ⟨hsum, hinner⟩ := BlockIo.layout_spec hps hbs (n := n) (by omega)
  simp only [BlockIo.layout, if_neg hge] at hsum hinner
  unfold BlockIo.read
  rw [if_neg (by simp [BlockIo.debugAssertArgsAreCorrect, hbuf, hlim'])]
  simp only [BlockIo.layout, if_neg hge, MemBuf.seekStart, MemBuf.read, List.length_replicate,
    List.length_drop]
  generalize n * b.pageSize &&& usizeNot (b.blockSize - 1) = o at hsum hinner ⊢
  rw [if_pos (by simp only [List.length_append, List.length_take, List.length_drop,
    List.length_replicate]; omega)]
  refine ⟨_, congrArg some (Prod.ext rfl (Prod.ext rfl ?_))⟩
  -- the page starts past everything the file supplied
  exact take_drop_window_past_data _ (by rw [List.length_drop]; exact Nat.min_le_right _ _)
    (by omega) hinner

end PastEnd

/-- Block I/O read agrees across its two layouts on the pages the file holds, and only there.
Take the file a run of whole-page writes builds, a power-of-two page size and power-of-two
block sizes `b1 ≤ page_size < b2`. A read the debug checks refuse panics through both. A page
at or below the highest one written reads, through either block size, as a whole page: the
buffer last written there, or zeros. A page past it reads through `b1` as `0` bytes with the
buffer left as it was, and through `b2` as a whole page of zeros. -/
theorem blockIo_read_layouts {ps b1 b2 bs : Nat} (hps : ∃ a, ps = 2 ^ a) (hb1 : ∃ k, b1 = 2 ^ k)
    (hb2 : ∃ k, b2 = 2 ^ k) (h1 : b1 ≤ ps) (h2 : ps < b2) (ws : List (Nat × List UInt8))
    (hws : ∀ w ∈ ws, w.2.length = ps ∧ ps * w.1 < 100 <<< 20) :
    ∃ b, (BlockIo.new ⟨[], 0⟩ ps bs).writeAll ws = some b ∧
      ∀ n (buf : List UInt8),
        let direct := ((BlockIo.new b.io ps b1).read n buf).map (·.2)
        let block := ((BlockIo.new b.io ps b2).read n buf).map (·.2)
        (¬(buf.length = ps ∧ ps * n < 100 <<< 20) → direct = none ∧ block = none) ∧
        (buf.length = ps → ps * n < 100 <<< 20 →
          ((∃ w ∈ ws, n ≤ w.1) →
            direct = some (ps, (PageStore.lastWrite ws n).getD (List.replicate ps 0)) ∧
              block = direct) ∧
          ((∀ w ∈ ws, w.1 < n) → direct = some (0, buf) ∧ block = some (ps, List.replicate ps 0)))
  := by
  obtain ⟨b, hrun, href, rfl, -⟩ := @writeAll_refines ps bs ws hws
  have href1 := href.withBlockSize b1
  have href2 := href.withBlockSize b2
  refine ⟨b, hrun, fun n buf => ⟨fun hcheck => ?_, fun hbuf hlim => ⟨fun hn => ?_, fun hn => ?_⟩⟩⟩
  · have hfail : ∀ blockSize, (BlockIo.new b.io b.pageSize blockSize).read n buf = none :=
      fun _ => BlockIo.read_eq_none hcheck
    simp only [hfail, Option.map_none', and_self]
  · have hin := PageStore.lt_extent_ofWrites b.pageSize ws n hn
    obtain ⟨b1', hread1⟩ := href1.read hps hb1 hin hlim hbuf
    obtain ⟨b2', hread2⟩ := href2.read hps hb2 hin hlim hbuf
    simp only [hread1, hread2, Option.map_some', PageStore.ofWrites_read]
    exact ⟨rfl, rfl⟩
  · have hpast := PageStore.extent_ofWrites_le b.pageSize ws n hn
    obtain ⟨b1', hread1⟩ := href1.read_past_end_direct h1 hpast hlim hbuf
    obtain ⟨b2', hread2⟩ := href2.read_past_end_block hps hb2 h2 hpast hlim hbuf
    rw [hread1, hread2]
    exact ⟨rfl, rfl⟩

/-- The layouts compared at 4-byte pages, through 4- and 16-byte blocks, after one write of
page `0`. -/
theorem blockIo_read_layouts_of_one_page :
    ((∃ a, 4 = 2 ^ a) ∧ (∃ k, 4 = 2 ^ k) ∧ (∃ k, 16 = 2 ^ k) ∧ 4 ≤ 4 ∧ 4 < 16 ∧
      ∀ w ∈ ([(0, [1, 2, 3, 4])] : List (Nat × List UInt8)),
        w.2.length = 4 ∧ 4 * w.1 < 100 <<< 20) ∧
    ∃ b, (BlockIo.new ⟨[], 0⟩ 4 4).writeAll [(0, [1, 2, 3, 4])] = some b ∧
      ∀ n (buf : List UInt8),
        let direct := ((BlockIo.new b.io 4 4).read n buf).map (·.2)
        let block := ((BlockIo.new b.io 4 16).read n buf).map (·.2)
        (¬(buf.length = 4 ∧ 4 * n < 100 <<< 20) → direct = none ∧ block = none) ∧
        (buf.length = 4 → 4 * n < 100 <<< 20 →
          ((∃ w ∈ ([(0, [1, 2, 3, 4])] : List (Nat × List UInt8)), n ≤ w.1) →
            direct = some (4, (PageStore.lastWrite [(0, [1, 2, 3, 4])] n).getD
              (List.replicate 4 0)) ∧ block = direct) ∧
          ((∀ w ∈ ([(0, [1, 2, 3, 4])] : List (Nat × List UInt8)), w.1 < n) →
            direct = some (0, buf) ∧ block = some (4, List.replicate 4 0))) :=
  have hps : ∃ a, 4 = 2 ^ a := ⟨2, rfl⟩
  have hb2 : ∃ k, 16 = 2 ^ k := ⟨4, rfl⟩
  have hws : ∀ w ∈ ([(0, [1, 2, 3, 4])] : List (Nat × List UInt8)),
      w.2.length = 4 ∧ 4 * w.1 < 100 <<< 20 := by decide
  ⟨⟨hps, hps, hb2, le_refl 4, by decide, hws⟩,
    blockIo_read_layouts hps hps hb2 (le_refl 4) (by decide) _ hws⟩

/-- A file with `1 2 3 4` written as page `0`, in 4-byte pages. -/
def writtenPageZero : MemBuf := ⟨[1, 2, 3, 4], 4⟩

/-- The failing input of the layout agreement: after a write of page `0`, page `1` lies past
the end of the file. Read with 4-byte blocks (the direct layout) it reports `0` bytes and
leaves the buffer `9 9 9 9`; read with 16-byte blocks (the block layout) it reports `4` bytes
and fills the buffer with zeros. -/
theorem blockIo_read_past_end_layouts_differ :
    ((BlockIo.new ⟨[], 0⟩ 4 4).writeAll [(0, [1, 2, 3, 4])]).map (·.io) = some writtenPageZero ∧
      ((BlockIo.new writtenPageZero 4 4).read 1 [9, 9, 9, 9]).map (·.2) = some (0, [9, 9, 9, 9]) ∧
      ((BlockIo.new writtenPageZero 4 16).read 1 [9, 9, 9, 9]).map (·.2) =
        some (4, [0, 0, 0, 0]) := by
  decide

end Mkdb
