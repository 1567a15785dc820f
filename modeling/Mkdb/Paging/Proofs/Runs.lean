import Mkdb.Paging.Proofs.Layouts

/-!
# Runs of reads and writes

A caller drives a `BlockIo` through any sequence of `read` and `write` calls, in any order.
One call is one step of the page store (`PageStore.call`): a write stores the page, a read
answers from the store, and past the store's extent in the way of the file's layout; a call
that fails the debug checks panics (`Refines.call`, `BlockIo.call_eq_none`). By induction,
every run from an empty file answers as the page store does and leaves the file holding the
store's bytes (`blockIo_run_refines_pageStore`).
-/

namespace Mkdb

section Call

variable {b b' : BlockIo} {s : PageStore} {n : Nat} {buf : List UInt8}

/-- The debug checks pass exactly on a whole page below the 100 MiB limit. -/
theorem BlockIo.debugAssertArgsAreCorrect_eq_true :
    b.debugAssertArgsAreCorrect n buf = true ↔
      buf.length = b.pageSize ∧ b.pageSize * n < 100 <<< 20 := by
  simp only [BlockIo.debugAssertArgsAreCorrect, Bool.and_eq_true, beq_iff_eq, decide_eq_true_eq]

/-- The debug checks read the page size only. -/
theorem BlockIo.debugAssertArgsAreCorrect_congr (hp : b'.pageSize = b.pageSize) :
    b'.debugAssertArgsAreCorrect = b.debugAssertArgsAreCorrect := by
  unfold BlockIo.debugAssertArgsAreCorrect
  rw [hp]

/-- A write the debug checks refuse panics. -/
theorem BlockIo.write_eq_none (h : b.debugAssertArgsAreCorrect n buf = false) :
    b.write n buf = none := by
  unfold BlockIo.write
  rw [if_pos (by rw [h]; rfl)]

/-- A call the debug checks refuse panics, whichever call it is. -/
theorem BlockIo.call_eq_none {c : BlockIo.Call}
    (h : b.debugAssertArgsAreCorrect c.pageNumber c.buf = false) : b.call c = none := by
  cases c with
  | read n buf =>
    have hrefuse : ¬(buf.length = b.pageSize ∧ b.pageSize * n < 100 <<< 20) :=
      fun hpass => Bool.eq_false_iff.mp h (BlockIo.debugAssertArgsAreCorrect_eq_true.mpr hpass)
    simp only [BlockIo.call, BlockIo.read_eq_none hrefuse, Option.map_none']
  | write n buf =>
    simp only [BlockIo.call, BlockIo.write_eq_none (show b.debugAssertArgsAreCorrect n buf = false
      from h), Option.map_none']

/-- A read moves the cursor and nothing else: the file's bytes and the sizes stay. -/
theorem BlockIo.read_frame {r : Nat × List UInt8} (h : b.read n buf = some (b', r)) :
    b'.io.inner = b.io.inner ∧ b'.pageSize = b.pageSize ∧ b'.blockSize = b.blockSize := by
  unfold BlockIo.read at h
  obtain ⟨capacity, blockOffset, innerOffset⟩ := b.layout n
  split_ifs at h <;>
    simp only [MemBuf.read, MemBuf.seekStart, Option.some.injEq, Prod.mk.injEq] at h
  · exact h.1 ▸ ⟨rfl, rfl, rfl⟩
  · split at h
    · simp only [Option.some.injEq, Prod.mk.injEq] at h
      exact h.1 ▸ ⟨rfl, rfl, rfl⟩
    · cases h

/-- The refinement reads the file's bytes and its page size only. -/
theorem Refines.of_frame (h : Refines b s) (hinner : b'.io.inner = b.io.inner)
    (hp : b'.pageSize = b.pageSize) : Refines b' s :=
  ⟨hp.trans h.pageSize_eq, h.wellFormed, fun i => hinner ▸ h.bytes i⟩

/-- A read on a file that refines `s` answers as `s` does and keeps the refinement. -/
theorem Refines.read_reply (h : Refines b s) (hps : ∃ a, b.pageSize = 2 ^ a)
    (hbs : ∃ k, b.blockSize = 2 ^ k) (hpass : b.debugAssertArgsAreCorrect n buf = true) :
    ∃ b', b.call (.read n buf) =
        some (b', (s.call (decide (b.blockSize ≤ b.pageSize)) (.read n buf)).2) ∧
      Refines b' s ∧ b'.pageSize = b.pageSize ∧ b'.blockSize = b.blockSize := by
  obtain ⟨hbuf, hlim⟩ := BlockIo.debugAssertArgsAreCorrect_eq_true.mp hpass
  have hread : ∃ r, b.read n buf = some r ∧
      (r.2.1, r.2.2) = (if n < s.extent then (s.pageSize, s.read n)
        else if b.blockSize ≤ b.pageSize then (0, buf)
        else (s.pageSize, List.replicate s.pageSize 0)) := by
    rw [← h.pageSize_eq]
    by_cases hin : n < s.extent
    · obtain ⟨b', hb'⟩ := h.read hps hbs hin hlim hbuf
      exact ⟨_, hb', by rw [if_pos hin, h.pageSize_eq]⟩
    by_cases hge : b.blockSize ≤ b.pageSize
    · obtain ⟨b', hb'⟩ := h.read_past_end_direct hge (Nat.le_of_not_lt hin) hlim hbuf
      exact ⟨_, hb', by rw [if_neg hin, if_pos hge]⟩
    · obtain ⟨b', hb'⟩ := h.read_past_end_block hps hbs (Nat.lt_of_not_le hge)
        (Nat.le_of_not_lt hin) hlim hbuf
      exact ⟨_, hb', by rw [if_neg hin, if_neg hge]⟩
  obtain ⟨⟨b', count, out⟩, hb', hreply⟩ := hread
  obtain ⟨hinner, hp, hb⟩ := BlockIo.read_frame hb'
  refine ⟨b', ?_, h.of_frame hinner hp, hp, hb⟩
  simp only [BlockIo.call, hb', Option.map_some', PageStore.call, decide_eq_true_eq]
  split_ifs at hreply ⊢ <;> simp_all

/-- One call on a file that refines `s`, with power-of-two sizes: a call the debug checks
pass answers as `s` does and leaves a file that refines `s` after the call. -/
theorem Refines.call (h : Refines b s) (hps : ∃ a, b.pageSize = 2 ^ a)
    (hbs : ∃ k, b.blockSize = 2 ^ k) (c : BlockIo.Call)
    (hpass : b.debugAssertArgsAreCorrect c.pageNumber c.buf = true) :
    ∃ b', b.call c = some (b', (s.call (decide (b.blockSize ≤ b.pageSize)) c).2) ∧
      Refines b' (s.call (decide (b.blockSize ≤ b.pageSize)) c).1 ∧
      b'.pageSize = b.pageSize ∧ b'.blockSize = b.blockSize := by
  cases c with
  | read n buf => exact h.read_reply hps hbs hpass
  | write n buf =>
    obtain ⟨hbuf, hlim⟩ := BlockIo.debugAssertArgsAreCorrect_eq_true.mp
      (show b.debugAssertArgsAreCorrect n buf = true from hpass)
    obtain ⟨b', hw, h', hp, hb⟩ := h.write hbuf hlim
    exact ⟨b', by simp [BlockIo.call, hw, PageStore.call, hbuf], h', hp, hb⟩

end Call

/-- Every run of calls on a file that refines `s`, with power-of-two sizes: it panics exactly
when one of its calls fails the debug checks, and otherwise answers as the page store does,
call by call, and leaves a file that refines the store after the run. -/
theorem Refines.run {b : BlockIo} {s : PageStore} (h : Refines b s)
    (hps : ∃ a, b.pageSize = 2 ^ a) (hbs : ∃ k, b.blockSize = 2 ^ k) (calls : List BlockIo.Call) :
    let direct := decide (b.blockSize ≤ b.pageSize)
    ((calls.all fun c => b.debugAssertArgsAreCorrect c.pageNumber c.buf) = false →
      b.run calls = none) ∧
    ((calls.all fun c => b.debugAssertArgsAreCorrect c.pageNumber c.buf) = true →
      ∃ b', b.run calls = some (b', (s.run direct calls).2) ∧ Refines b' (s.run direct calls).1) := by
  induction calls generalizing b s with
  | nil => exact ⟨nofun, fun _ => ⟨b, rfl, h⟩⟩
  | cons c calls ih =>
    simp only [List.all_cons, Bool.and_eq_false_iff, Bool.and_eq_true]
    by_cases hpass : b.debugAssertArgsAreCorrect c.pageNumber c.buf = true
    · obtain ⟨b', hcall, h', hp, hb⟩ := h.call hps hbs c hpass
      have hrest := ih h' (hp ▸ hps) (hb ▸ hbs)
      rw [BlockIo.debugAssertArgsAreCorrect_congr hp, hp, hb] at hrest
      refine ⟨fun hfail => ?_, fun hall => ?_⟩
      · rcases hfail with hfail | hfail
        · rw [hpass] at hfail; cases hfail
        · simp only [BlockIo.run, hcall, hrest.1 hfail, Option.bind_eq_bind, Option.some_bind,
            Option.none_bind]
      · obtain ⟨b'', hrun, h''⟩ := hrest.2 hall.2
        exact ⟨b'', by simp [BlockIo.run, hcall, hrun, PageStore.run], h''⟩
    · have hfail : b.debugAssertArgsAreCorrect c.pageNumber c.buf = false := by simpa using hpass
      refine ⟨fun _ => ?_, fun ⟨hc, _⟩ => absurd hc hpass⟩
      simp only [BlockIo.run, BlockIo.call_eq_none hfail, Option.bind_eq_bind, Option.none_bind]

/-- A `BlockIo` over an empty in-memory file holds the empty store. -/
theorem Refines.new_empty (ps bs : Nat) : Refines (BlockIo.new ⟨[], 0⟩ ps bs) (PageStore.empty ps) :=
  ⟨rfl, PageStore.wellFormed_empty ps, fun i => by simp [BlockIo.new, PageStore.byteAt, PageStore.empty]⟩

/-- Block I/O refines the page store over every run. Start from a `BlockIo` over an empty
in-memory file, with power-of-two page and block sizes, and make any sequence of `read` and
`write` calls, reads and writes interleaved in any order. The run panics exactly when one of
its calls fails the debug checks. Otherwise every call answers as the page store does: a
write reports a whole page; a read of a page inside the store returns the page last written
there, or zeros; a read past the store reports `0` bytes with the buffer as it was when pages
are at least as large as blocks, and a whole page of zeros otherwise. After the run the file
holds the store's bytes. -/
theorem blockIo_run_refines_pageStore {ps bs : Nat} (hps : ∃ a, ps = 2 ^ a)
    (hbs : ∃ k, bs = 2 ^ k) (calls : List BlockIo.Call) :
    let b := BlockIo.new ⟨[], 0⟩ ps bs
    let store := (PageStore.empty ps).run (decide (bs ≤ ps)) calls
    ((b.run calls).map (·.2) =
      if calls.all (fun c => b.debugAssertArgsAreCorrect c.pageNumber c.buf) then some store.2
      else none) ∧
    ∀ b' replies, b.run calls = some (b', replies) → Refines b' store.1 := by
  obtain ⟨hfail, hpass⟩ := (Refines.new_empty ps bs).run hps hbs calls
  refine ⟨?_, fun b' replies hrun => ?_⟩
  · cases hall : calls.all fun c => (BlockIo.new ⟨[], 0⟩ ps bs).debugAssertArgsAreCorrect
        c.pageNumber c.buf
    · rw [hfail hall]; rfl
    · obtain ⟨b', hrun, -⟩ := hpass hall
      rw [hrun]; rfl
  · cases hall : calls.all fun c => (BlockIo.new ⟨[], 0⟩ ps bs).debugAssertArgsAreCorrect
        c.pageNumber c.buf
    · rw [hfail hall] at hrun; cases hrun
    · obtain ⟨b'', hrun', h''⟩ := hpass hall
      rw [hrun', Option.some.injEq, Prod.mk.injEq] at hrun
      exact hrun.1 ▸ h''

/-- A write of page 1 between reads of pages 0, 1 and 2, with 4-byte pages in 16-byte
blocks. -/
theorem blockIo_run_refines_pageStore_of_interleaved :
    ((∃ a, 4 = 2 ^ a) ∧ ∃ k, 16 = 2 ^ k) ∧
    let calls : List BlockIo.Call :=
      [.read 1 [9, 9, 9, 9], .write 1 [1, 2, 3, 4], .read 0 [9, 9, 9, 9], .read 1 [0, 0, 0, 0],
        .read 2 [9, 9, 9, 9]]
    let b := BlockIo.new ⟨[], 0⟩ 4 16
    let store := (PageStore.empty 4).run (decide (16 ≤ 4)) calls
    ((b.run calls).map (·.2) =
      if calls.all (fun c => b.debugAssertArgsAreCorrect c.pageNumber c.buf) then some store.2
      else none) ∧
    ∀ b' replies, b.run calls = some (b', replies) → Refines b' store.1 :=
  ⟨⟨⟨2, rfl⟩, ⟨4, rfl⟩⟩, blockIo_run_refines_pageStore ⟨2, rfl⟩ ⟨4, rfl⟩ _⟩

example : ((BlockIo.new ⟨[], 0⟩ 4 16).run
    [.read 1 [9, 9, 9, 9], .write 1 [1, 2, 3, 4], .read 0 [9, 9, 9, 9], .read 1 [0, 0, 0, 0],
      .read 2 [9, 9, 9, 9]]).map (·.2) =
    some [.read 4 [0, 0, 0, 0], .write 4, .read 4 [0, 0, 0, 0], .read 4 [1, 2, 3, 4],
      .read 4 [0, 0, 0, 0]] := by
  decide

/-- Writing pages back in any order leaves the same file. From a `BlockIo` over an empty
in-memory file, with power-of-two page and block sizes, two runs that write the same images to
pairwise distinct pages, in two orders, both panic or both return, and leave the same bytes in
the file. -/
theorem blockIo_writes_any_order {ps bs : Nat} (hps : ∃ a, ps = 2 ^ a) (hbs : ∃ k, bs = 2 ^ k)
    {ws ws' : List (Nat × List UInt8)} (hperm : ws.Perm ws') (hnodup : (ws.map Prod.fst).Nodup) :
    let b : BlockIo := BlockIo.new ⟨[], 0⟩ ps bs
    let run := fun ws : List (Nat × List UInt8) => b.run (ws.map fun w => .write w.1 w.2)
    (run ws).isSome = (run ws').isSome ∧
      ∀ r r', run ws = some r → run ws' = some r' → r.1.io.inner = r'.1.io.inner := by
  intro b run
  have hcalls := hperm.map fun w => BlockIo.Call.write w.1 w.2
  have hall : ∀ check : BlockIo.Call → Bool, ((ws.map fun w => BlockIo.Call.write w.1 w.2).all check) =
      ((ws'.map fun w => BlockIo.Call.write w.1 w.2).all check) := fun check =>
    Bool.eq_iff_iff.mpr (by simp only [List.all_eq_true, hcalls.mem_iff])
  obtain ⟨hfail, hpass⟩ := (Refines.new_empty ps bs).run hps hbs (ws.map fun w => .write w.1 w.2)
  obtain ⟨hfail', hpass'⟩ := (Refines.new_empty ps bs).run hps hbs (ws'.map fun w => .write w.1 w.2)
  rw [← hall] at hfail' hpass'
  cases hcheck : (ws.map fun w => BlockIo.Call.write w.1 w.2).all fun c =>
      b.debugAssertArgsAreCorrect c.pageNumber c.buf
  · exact ⟨by simp only [run, hfail hcheck, hfail' hcheck],
      fun r _ hr => by simp [run, hfail hcheck] at hr⟩
  · obtain ⟨b₁, hrun, hb₁⟩ := hpass hcheck
    obtain ⟨b₂, hrun', hb₂⟩ := hpass' hcheck
    refine ⟨by simp only [run, hrun, hrun', Option.isSome_some], fun r r' hr hr' => ?_⟩
    obtain rfl := Option.some.inj (hr.symm.trans hrun)
    obtain rfl := Option.some.inj (hr'.symm.trans hrun')
    rw [PageStore.run_writes] at hb₁ hb₂
    rw [PageStore.foldl_write_perm hperm hnodup] at hb₁
    exact List.ext_getElem? fun i => (hb₁.bytes i).trans (hb₂.bytes i).symm

/-- Pages 2 and 0 written in both orders, with 4-byte pages in 16-byte blocks. -/
theorem blockIo_writes_any_order_of_two_pages :
    ((∃ a, 4 = 2 ^ a) ∧ (∃ k, 16 = 2 ^ k) ∧
      List.Perm [(2, [1, 2, 3, 4]), (0, [5, 6, 7, 8])] [(0, [5, 6, 7, 8]), (2, [1, 2, 3, 4])] ∧
      ([(2, [1, 2, 3, 4]), (0, [5, 6, 7, 8])].map Prod.fst).Nodup) ∧
    let b : BlockIo := BlockIo.new ⟨[], 0⟩ 4 16
    let run := fun ws : List (Nat × List UInt8) => b.run (ws.map fun w => .write w.1 w.2)
    (run [(2, [1, 2, 3, 4]), (0, [5, 6, 7, 8])]).isSome =
        (run [(0, [5, 6, 7, 8]), (2, [1, 2, 3, 4])]).isSome ∧
      ∀ r r', run [(2, [1, 2, 3, 4]), (0, [5, 6, 7, 8])] = some r →
        run [(0, [5, 6, 7, 8]), (2, [1, 2, 3, 4])] = some r' → r.1.io.inner = r'.1.io.inner :=
  ⟨⟨⟨2, rfl⟩, ⟨4, rfl⟩, List.Perm.swap _ _ _, by decide⟩,
    blockIo_writes_any_order ⟨2, rfl⟩ ⟨4, rfl⟩ (List.Perm.swap _ _ _) (by decide)⟩

end Mkdb
