import Mkdb.Paging.Io
import Mathlib.Logic.Function.Basic
import Mathlib.Data.List.Nodup

/-!
# Pages, abstractly

What a page file is for: page number `n` holds the image last written at `n`, pages never
written read as zeros, and the file reaches one page past the highest page written. The
BlockIo file refines this store (`Mkdb.Paging.Proofs.ReadAfterWrite`).
-/

namespace Mkdb

/-- A page store: the image last written at each page number, and the number of pages up to
the highest one written. -/
structure PageStore where
  pageSize : Nat
  pages : Nat → Option (List UInt8)
  extent : Nat

namespace PageStore

/-- The store nothing was written to. -/
def empty (pageSize : Nat) : PageStore := ⟨pageSize, fun _ => none, 0⟩

/-- Writing the image `buf` at page `n`. -/
def write (s : PageStore) (n : Nat) (buf : List UInt8) : PageStore :=
  { s with pages := Function.update s.pages n (some buf), extent := max s.extent (n + 1) }

/-- The image of page `n`: the last one written there, or a zero page. -/
def read (s : PageStore) (n : Nat) : List UInt8 :=
  (s.pages n).getD (List.replicate s.pageSize 0)

/-- The store's bytes laid out page after page: byte `i` of the file it describes. -/
def byteAt (s : PageStore) (i : Nat) : Option UInt8 :=
  if i < s.extent * s.pageSize then (s.read (i / s.pageSize))[i % s.pageSize]? else none

/-- The store's answer to a call, for a file read directly (`direct`: pages at least as
large as blocks) or through larger blocks. A write stores the image and reports its length.
A read inside the extent returns the page; past the extent there is no page: the direct read
reports no bytes and leaves the buffer as it was, the block read a page of zeros. -/
def call (direct : Bool) (s : PageStore) : BlockIo.Call → PageStore × BlockIo.Reply
  | .read n buf =>
    (s, if n < s.extent then .read s.pageSize (s.read n)
      else if direct then .read 0 buf else .read s.pageSize (List.replicate s.pageSize 0))
  | .write n buf => (s.write n buf, .write buf.length)

/-- The store after a sequence of calls, and its answers. -/
def run (direct : Bool) : PageStore → List BlockIo.Call → PageStore × List BlockIo.Reply
  | s, [] => (s, [])
  | s, c :: calls =>
    let (s, reply) := s.call direct c
    let (s, replies) := s.run direct calls
    (s, reply :: replies)

/-- The store a sequence of writes builds. -/
def ofWrites (pageSize : Nat) (ws : List (Nat × List UInt8)) : PageStore :=
  ws.foldl (fun s w => s.write w.1 w.2) (empty pageSize)

/-- A well-formed store: every image is a whole page and nothing lies past the extent. -/
structure WellFormed (s : PageStore) : Prop where
  page_length : ∀ n buf, s.pages n = some buf → buf.length = s.pageSize
  none_of_extent_le : ∀ n, s.extent ≤ n → s.pages n = none

@[simp] theorem write_pageSize (s : PageStore) (n : Nat) (buf : List UInt8) :
    (s.write n buf).pageSize = s.pageSize := rfl

@[simp] theorem write_extent (s : PageStore) (n : Nat) (buf : List UInt8) :
    (s.write n buf).extent = max s.extent (n + 1) := rfl

/-- Writes to distinct pages commute. -/
theorem write_comm (s : PageStore) {n m : Nat} (h : n ≠ m) (buf buf' : List UInt8) :
    (s.write n buf).write m buf' = (s.write m buf').write n buf := by
  simp only [write, PageStore.mk.injEq, Function.update_comm h]
  exact ⟨trivial, trivial, sup_right_comm _ _ _⟩

theorem read_write (s : PageStore) (n m : Nat) (buf : List UInt8) :
    (s.write n buf).read m = if m = n then buf else s.read m := by
  by_cases h : m = n
  · subst h; simp [read, write]
  · simp [read, write, Function.update_noteq h, h]

theorem read_length {s : PageStore} (hs : s.WellFormed) (n : Nat) :
    (s.read n).length = s.pageSize := by
  unfold read
  cases h : s.pages n with
  | none => simp
  | some buf => exact hs.page_length n buf h

theorem wellFormed_empty (pageSize : Nat) : (empty pageSize).WellFormed :=
  ⟨fun _ _ h => by simp [empty] at h, fun _ _ => rfl⟩

theorem wellFormed_write {s : PageStore} (hs : s.WellFormed) (n : Nat) {buf : List UInt8}
    (hbuf : buf.length = s.pageSize) : (s.write n buf).WellFormed := by
  constructor
  · intro m b hm
    by_cases h : m = n
    · subst h
      simp only [PageStore.write, Function.update_same, Option.some.injEq] at hm
      exact hm ▸ hbuf
    · simp only [PageStore.write, Function.update_noteq h] at hm
      exact hs.page_length m b hm
  · intro m hm
    rw [write_extent, Nat.max_le] at hm
    simp only [PageStore.write, Function.update_noteq (show m ≠ n by omega)]
    exact hs.none_of_extent_le m hm.1

/-- The spec's reading of a write sequence: the buffer of the last write to page `n`. -/
def lastWrite (ws : List (Nat × List UInt8)) (n : Nat) : Option (List UInt8) :=
  ws.foldl (fun acc w => if w.1 = n then some w.2 else acc) none

theorem foldl_write_pages (ws : List (Nat × List UInt8)) (s : PageStore) (n : Nat) :
    (ws.foldl (fun s w => s.write w.1 w.2) s).pages n =
      ws.foldl (fun acc w => if w.1 = n then some w.2 else acc) (s.pages n) := by
  induction ws generalizing s with
  | nil => rfl
  | cons w ws ih =>
    rw [List.foldl_cons, ih, List.foldl_cons]
    congr 1
    by_cases h : w.1 = n
    · subst h; simp [PageStore.write]
    · simp [PageStore.write, Function.update_noteq (Ne.symm h), h]

@[simp] theorem foldl_write_pageSize (ws : List (Nat × List UInt8)) (s : PageStore) :
    (ws.foldl (fun s w => s.write w.1 w.2) s).pageSize = s.pageSize := by
  induction ws generalizing s <;> simp_all

/-- The store of a write sequence holds, at each page, the last image written there. -/
theorem ofWrites_read (pageSize : Nat) (ws : List (Nat × List UInt8)) (n : Nat) :
    (ofWrites pageSize ws).read n = (lastWrite ws n).getD (List.replicate pageSize 0) := by
  simp only [read, ofWrites, foldl_write_pages, foldl_write_pageSize, lastWrite]
  rfl

/-- A run of writes builds the store their sequence describes; the replies play no part. -/
theorem run_writes (direct : Bool) (s : PageStore) (ws : List (Nat × List UInt8)) :
    (s.run direct (ws.map fun w => .write w.1 w.2)).1 = ws.foldl (fun s w => s.write w.1 w.2) s := by
  induction ws generalizing s with
  | nil => rfl
  | cons w ws ih => exact ih _

/-- The store built by writes to pairwise distinct pages does not depend on their order. -/
theorem foldl_write_perm {ws ws' : List (Nat × List UInt8)} (hperm : ws.Perm ws')
    (hnodup : (ws.map Prod.fst).Nodup) (s : PageStore) :
    ws.foldl (fun s w => s.write w.1 w.2) s = ws'.foldl (fun s w => s.write w.1 w.2) s := by
  refine hperm.foldl_eq' (fun x hx y hy z => ?_) s
  by_cases hxy : x.1 = y.1
  · rw [List.inj_on_of_nodup_map hnodup hx hy hxy]
  · exact write_comm z hxy x.2 y.2

/-- Every page up to the highest one written lies inside the store of a write sequence. -/
theorem lt_extent_ofWrites (pageSize : Nat) (ws : List (Nat × List UInt8)) (n : Nat)
    (hn : ∃ w ∈ ws, n ≤ w.1) : n < (ofWrites pageSize ws).extent := by
  suffices ∀ s : PageStore, (n < s.extent ∨ ∃ w ∈ ws, n ≤ w.1) →
      n < (ws.foldl (fun s w => s.write w.1 w.2) s).extent from this _ (.inr hn)
  clear hn
  induction ws with
  | nil => simp
  | cons w ws ih =>
    intro s h
    apply ih
    rcases h with h | ⟨v, hv, hle⟩
    · left; rw [write_extent]; omega
    · rcases List.mem_cons.mp hv with rfl | hv
      · left; rw [write_extent]; omega
      · right; exact ⟨v, hv, hle⟩

end PageStore

end Mkdb
