import CoopKernel.Memory.Error
import CoopKernel.Memory.Stats

/-!
# Memory pools

A pool hands out address ranges of one fixed region. It never touches the memory, it only keeps
books: the free segments and the live allocations, both in ascending order of their addresses.

## Allocation and release

An allocation is rounded up to the pool's granularity and carved from the front of the first free
segment that can hold it (`carve`). A release gives the range back (`restore`) and joins it with the
free neighbours on either side, so that two free segments are never adjacent.
-/

namespace CoopKernel.Memory

/-- A range of addresses. -/
structure Segment where
  base : Nat
  size : Nat
deriving DecidableEq, Repr

namespace Segment

/-- The first address past the segment. -/
def stop (segment : Segment) : Nat := segment.base + segment.size

/-- Takes `size` bytes from the front of the first segment that has them, and answers their address
and the segments that are left. -/
def carve (size : Nat) : List Segment → Option (Nat × List Segment)
  | [] => none
  | segment :: rest =>
    if size ≤ segment.size then
      some (segment.base,
        if segment.size = size then rest else ⟨segment.base + size, segment.size - size⟩ :: rest)
    else
      (carve size rest).map fun (address, rest) => (address, segment :: rest)

/-- Puts a segment in front of others, joined with the first of them if they touch. -/
def join (segment : Segment) : List Segment → List Segment
  | [] => [segment]
  | next :: rest =>
    if segment.stop = next.base then ⟨segment.base, segment.size + next.size⟩ :: rest
    else segment :: next :: rest

/-- Puts a segment back among ascending segments, joined with those that touch it. -/
def restore (segment : Segment) : List Segment → List Segment
  | [] => [segment]
  | first :: rest =>
    if first.base < segment.base then
      if first.stop = segment.base then join ⟨first.base, first.size + segment.size⟩ rest
      else first :: restore segment rest
    else join segment (first :: rest)

/-- Puts a segment among ascending segments as it is. -/
def insert (segment : Segment) : List Segment → List Segment
  | [] => [segment]
  | first :: rest =>
    if first.base < segment.base then first :: insert segment rest else segment :: first :: rest

/-- The number of bytes in a list of segments. -/
def total (segments : List Segment) : Nat :=
  segments.foldr (fun segment bytes => segment.size + bytes) 0

end Segment

/-- The books of one pool. -/
structure Pool where
  base : Nat
  size : Nat
  /-- The granularity of allocations, a power of two. -/
  alignment : Nat
  /-- The free segments, in ascending order. -/
  free : List Segment
  /-- The live allocations with their granted sizes, in ascending order. -/
  live : List Segment
  /-- The least number of free bytes there has ever been. -/
  minFree : Nat
deriving DecidableEq, Repr

namespace Pool

/-- A pool over a region, all of it free. -/
def new (base size alignment : Nat) : Except PoolError Pool :=
  if !isPowerOfTwo alignment then
    .error (.badAlignment alignment)
  else if base = 0 ∨ size = 0 ∨ addressSpace ≤ base + size then
    .error (.invalidRegion base size)
  else
    .ok { base, size, alignment, free := [⟨base, size⟩], live := [], minFree := size }

/-- Whether an address lies in the region. -/
def contains (pool : Pool) (address : Nat) : Bool :=
  pool.base ≤ address && address < pool.base + pool.size

/-- The bytes set aside for a request, unless there are no such numbers. -/
def grantedSize (pool : Pool) (size : Nat) : Option Nat := roundUp size pool.alignment

/-- Whether a request fits into the pool when nothing is allocated. -/
def canEverFit (pool : Pool) (size : Nat) : Bool :=
  (pool.grantedSize size).any fun granted => granted ≤ pool.size

/-- The number of free bytes. -/
def freeBytes (pool : Pool) : Nat := Segment.total pool.free

/-- Whether nothing is allocated. -/
def isPristine (pool : Pool) : Bool := pool.live.isEmpty

/-- Allocates at the lowest address where a free segment can hold the rounded request. -/
def allocate (pool : Pool) (size : Nat) : Except PoolError (Nat × Pool) :=
  if size = 0 then
    .error .zeroSize
  else
    match pool.grantedSize size with
    | none => .error (.exhausted size)
    | some granted =>
      match Segment.carve granted pool.free with
      | none => .error (.exhausted granted)
      | some (address, free) =>
        .ok (address,
          { pool with
            free
            live := Segment.insert ⟨address, granted⟩ pool.live
            minFree := min pool.minFree (Segment.total free) })

/-- Releases the allocation that starts at an address, and answers its granted size. -/
def deallocate (pool : Pool) (address : Nat) : Except PoolError (Nat × Pool) :=
  if !pool.contains address then
    .error (.outOfBounds address)
  else
    match pool.live.find? fun segment => segment.base == address with
    | none => .error (.notAllocated address)
    | some segment =>
      .ok (segment.size,
        { pool with
          free := segment.restore pool.free
          live := pool.live.eraseP fun segment => segment.base == address })

/-- The figures of the pool now. -/
def stats (pool : Pool) : Stats where
  size := pool.size
  freeBytes := pool.freeBytes
  usedBytes := pool.size - pool.freeBytes
  freeSegments := pool.free.length
  liveAllocations := pool.live.length
  minFreeBytes := pool.minFree

end Pool

end CoopKernel.Memory
