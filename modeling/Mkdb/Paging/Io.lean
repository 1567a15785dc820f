import Mathlib.Data.List.Basic
import Mathlib.Algebra.Group.Nat.Basic

/-!
# Block size based IO

Rendering of `paging/io.rs` over its in-memory handle `MemBuf = io::Cursor<Vec<u8>>`, the
file the tests use. `BlockIo` reads whole pages: directly when pages are at
least as large as blocks, and otherwise by reading the enclosing block, found by masking the
page's offset down to a block boundary, and copying the page out of it.

This is the debug build the tests run: `debug_assert_args_are_correct` is checked and its
failure, like any other panic, is `none`. Once it holds, `page_size * page_number` is below
100 MiB, so the `usize` arithmetic below cannot overflow and `Nat` computes it exactly; `!`
on a `usize` is the 64-bit complement.
-/

namespace Mkdb

/-- `MemBuf` (`io.rs:81`), an `io::Cursor<Vec<u8>>`: the vector and the position. -/
structure MemBuf where
  inner : List UInt8
  pos : Nat
  deriving DecidableEq, Repr

namespace MemBuf

/-- `Seek for Cursor` with `SeekFrom::Start(pos)`. -/
def seekStart (c : MemBuf) (pos : Nat) : MemBuf := { c with pos }

/-- `Read for Cursor<Vec<u8>>`: copies `min(buf.len(), remaining)` bytes to the front of
`buf`, keeps the rest of `buf`, and moves the position past them. Returns the cursor, the
count and the buffer. -/
def read (c : MemBuf) (buf : List UInt8) : MemBuf × Nat × List UInt8 :=
  let remaining := c.inner.drop c.pos
  let n := min buf.length remaining.length
  ({ c with pos := c.pos + n }, n, remaining.take n ++ buf.drop n)

/-- `Write for Cursor<Vec<u8>>`: pads the vector with zeros up to the position, overwrites
or appends `buf` there and moves the position past it. Returns the cursor and the count. -/
def write (c : MemBuf) (buf : List UInt8) : MemBuf × Nat :=
  let padded := c.inner ++ List.replicate (c.pos - c.inner.length) 0
  ({ inner := padded.take c.pos ++ buf ++ padded.drop (c.pos + buf.length),
     pos := c.pos + buf.length }, buf.length)

end MemBuf

/-- `!x` on a 64-bit `usize`. -/
def usizeNot (x : Nat) : Nat := 2 ^ 64 - 1 - x

/-- `BlockIo<MemBuf>` (`io.rs:141-148`). -/
structure BlockIo where
  io : MemBuf
  blockSize : Nat
  pageSize : Nat
  deriving DecidableEq, Repr

namespace BlockIo

/-- `BlockIo::new` (`io.rs:151-157`). -/
def new (io : MemBuf) (pageSize blockSize : Nat) : BlockIo := ⟨io, blockSize, pageSize⟩

/-- `debug_assert_args_are_correct` (`io.rs:160-177`): a whole page, and an offset below
100 MiB. -/
def debugAssertArgsAreCorrect (b : BlockIo) (pageNumber : Nat) (buf : List UInt8) : Bool :=
  buf.length == b.pageSize && b.pageSize * pageNumber < 100 <<< 20

/-- The `(capacity, block_offset, inner_offset)` of `read` (`io.rs:259-273`). -/
def layout (b : BlockIo) (pageNumber : Nat) : Nat × Nat × Nat :=
  if b.pageSize ≥ b.blockSize then (b.pageSize, b.pageSize * pageNumber, 0)
  else
    let offset := (pageNumber * b.pageSize) &&& usizeNot (b.blockSize - 1)
    (b.blockSize, offset, pageNumber * b.pageSize - offset)

/-- `BlockIo::read` (`io.rs:255-291`): the new state, the byte count and the buffer. The
block branch's `copy_from_slice` out of the block read is `none` when the slice leaves the
block. -/
def read (b : BlockIo) (pageNumber : Nat) (buf : List UInt8) :
    Option (BlockIo × Nat × List UInt8) :=
  if !b.debugAssertArgsAreCorrect pageNumber buf then none
  else
    let (capacity, blockOffset, innerOffset) := b.layout pageNumber
    let io := b.io.seekStart blockOffset
    if b.pageSize ≥ b.blockSize then
      let (io, n, buf) := io.read buf
      some ({ b with io }, n, buf)
    else
      let (io, _, block) := io.read (List.replicate capacity 0)
      if innerOffset + b.pageSize ≤ block.length then
        some ({ b with io }, b.pageSize, (block.drop innerOffset).take b.pageSize)
      else none

/-- `BlockIo::write` (`io.rs:296-306`): the new state and the byte count. -/
def write (b : BlockIo) (pageNumber : Nat) (buf : List UInt8) : Option (BlockIo × Nat) :=
  if !b.debugAssertArgsAreCorrect pageNumber buf then none
  else
    let (io, n) := (b.io.seekStart (b.pageSize * pageNumber)).write buf
    some ({ b with io }, n)

/-- A sequence of `write` calls, stopping at the first panic. -/
def writeAll (b : BlockIo) : List (Nat × List UInt8) → Option BlockIo
  | [] => some b
  | (pageNumber, buf) :: ws => do
    let (b, _) ← b.write pageNumber buf
    writeAll b ws

/-- One call a caller makes on the file: `read(page_number, buf)` or
`write(page_number, buf)`. -/
inductive Call where
  | read (pageNumber : Nat) (buf : List UInt8)
  | write (pageNumber : Nat) (buf : List UInt8)
  deriving DecidableEq, Repr

/-- What a call returns: the byte count, and for `read` the buffer it filled. -/
inductive Reply where
  | read (count : Nat) (buf : List UInt8)
  | write (count : Nat)
  deriving DecidableEq, Repr

/-- The page number a call names. -/
def Call.pageNumber : Call → Nat
  | .read pageNumber _ | .write pageNumber _ => pageNumber

/-- The buffer a call passes. -/
def Call.buf : Call → List UInt8
  | .read _ buf | .write _ buf => buf

/-- One call on the file. -/
def call (b : BlockIo) : Call → Option (BlockIo × Reply)
  | .read pageNumber buf =>
    (b.read pageNumber buf).map fun (b, count, buf) => (b, .read count buf)
  | .write pageNumber buf => (b.write pageNumber buf).map fun (b, count) => (b, .write count)

/-- A sequence of calls, stopping at the first panic: the file after them and their replies. -/
def run (b : BlockIo) : List Call → Option (BlockIo × List Reply)
  | [] => some (b, [])
  | c :: calls => do
    let (b, reply) ← b.call c
    let (b, replies) ← b.run calls
    some (b, reply :: replies)

end BlockIo

end Mkdb
