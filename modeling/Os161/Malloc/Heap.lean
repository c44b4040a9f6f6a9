import Os161.Library.Program
import Mathlib.Logic.Function.Basic

/-!
# The user heap

`malloc` keeps its blocks end to end between the base and the top of the heap. A block
starts with a header of eight bytes that has the offsets to the headers above and below
it. Blocks are found first-fit by walking the headers, split when they are larger than
needed, and merged with free neighbours when they are freed; the heap grows at its top
through `sbrk`.

Memory is a map from the addresses of eight-byte cells to their contents. The fields of
a header have 64 bits together, so the contents of any cell are those of some header,
and a user who writes into a block may leave any header there. Addresses and sizes are
numbers, with the remainder taken wherever the arithmetic of the source can wrap. The
system call is a parameter.
-/
namespace Os161.Malloc

open Os161.Library Os161.Library.Program

/-- `MBLOCKSIZE`, which is also the size of a header. -/
abbrev mblocksize : Nat := 8

abbrev mmagic : BitVec 2 := 2#2

abbrev pageSize : Nat := 4096

/-- The number of addresses, and of values of a `size_t`. -/
abbrev sizeRange : Nat := 4294967296

/-- `struct mheader`, in its 32-bit form. -/
structure Mheader where
  mhPrevblock : BitVec 29
  mhPad : BitVec 1
  mhMagic1 : BitVec 2
  mhNextblock : BitVec 29
  mhInuse : Bool
  mhMagic2 : BitVec 2
  deriving DecidableEq

def mNextoff (mh : Mheader) : Nat := mh.mhNextblock.toNat * mblocksize

def mPrevoff (mh : Mheader) : Nat := mh.mhPrevblock.toNat * mblocksize

def mSize (mh : Mheader) : Nat := (mNextoff mh + sizeRange - mblocksize) % sizeRange

def mOk (mh : Mheader) : Prop := mh.mhMagic1 = mmagic ∧ mh.mhMagic2 = mmagic

instance (mh : Mheader) : Decidable (mOk mh) :=
  inferInstanceAs (Decidable (_ ∧ _))

def mMkfield (off : Nat) : BitVec 29 := BitVec.ofNat 29 (off / mblocksize)

def mData (mh : Nat) : Nat := (mh + mblocksize) % sizeRange

/-- The variables of the allocator, the memory of the process, and what the kernel knows
about its break. -/
structure Heap (Kernel : Type) where
  heapbase : Nat
  heaptop : Nat
  memory : Nat → Mheader
  kernel : Kernel

/-- Why the allocator gives up, one reason for each of its messages. The last is a walk
over the headers that does not end. -/
inductive Abort
  | badInit
  | initialSbrkFailed
  | heapBeganAtZero
  | sbrkFailedAligning
  | heapBaseMoved
  | heapTopMoved (old new : Nat)
  | sizePassedToSplit (size : Nat)
  | splitScrewedUp
  | localDataCorrupt (heapbase heaptop : Nat)
  | badMagicBits (header : Nat)
  | badPreviousBlock (header size right : Nat)
  | ranOffEnd
  | assertion
  | outOfRange (x : Nat)
  | corruptHeader (x : Nat)
  | alreadyFree (x : Nat)
  | inconsistent (mh mhnext : Nat)
  | endless
  deriving DecidableEq

/-- The programs of the allocator. They return or give up. -/
abbrev HeapProgram (Kernel Value : Type) : Type := Program Abort Empty (Heap Kernel) Value

section

variable {Kernel : Type}

def Heap.mNext (heap : Heap Kernel) (mh : Nat) : Nat := (mh + mNextoff (heap.memory mh)) % sizeRange

def Heap.mPrev (heap : Heap Kernel) (mh : Nat) : Nat :=
  (mh + sizeRange - mPrevoff (heap.memory mh)) % sizeRange

/-- Write to the header at an address. -/
def Heap.setHeader (heap : Heap Kernel) (mh : Nat) (update : Mheader → Mheader) : Heap Kernel :=
  { heap with memory := Function.update heap.memory mh (update (heap.memory mh)) }

theorem set_header_self (heap : Heap Kernel) (mh : Nat) (update : Mheader → Mheader) :
    (heap.setHeader mh update).memory mh = update (heap.memory mh) :=
  Function.update_self _ _ _

theorem set_header_of_ne {heap : Heap Kernel} {mh a : Nat} {update : Mheader → Mheader} (other : a ≠ mh) :
    (heap.setHeader mh update).memory a = heap.memory a :=
  Function.update_of_ne other _ _

variable (sbrk : Nat → Kernel → Option Nat × Kernel)

/-- Ask the kernel to move the break. A failure is what the library function returns as
minus one. -/
def callSbrk (size : Nat) : HeapProgram Kernel (Option Nat) :=
  fun heap => .done (sbrk size heap.kernel).1 { heap with kernel := (sbrk size heap.kernel).2 }

/-- `__malloc_init`. The checks of the sizes of types are left out. -/
def mallocInit : HeapProgram Kernel PUnit := do
  let heap ← inspect id
  check (heap.heapbase = 0 ∧ heap.heaptop = 0) .badInit
  match ← callSbrk sbrk 0 with
  | none => stopWith .initialSbrkFailed
  | some x => do
    check (x ≠ 0) .heapBeganAtZero
    change (fun heap => { heap with heapbase := x, heaptop := x })
    if x % mblocksize ≠ 0 then do
      let adjust := mblocksize - x % mblocksize
      match ← callSbrk sbrk adjust with
      | none => stopWith .sbrkFailedAligning
      | some y => do
        check (y = x) .heapBaseMoved
        change (fun heap => { heap with
          heapbase := (x + adjust) % sizeRange, heaptop := (x + adjust) % sizeRange })
    else pure PUnit.unit

def mallocSbrk (size : Nat) : HeapProgram Kernel (Option Nat) := do
  match ← callSbrk sbrk size with
  | none => pure none
  | some x => do
    let heap ← inspect id
    check (x = heap.heaptop) (.heapTopMoved heap.heaptop x)
    change (fun heap => { heap with heaptop := (heap.heaptop + size) % sizeRange })
    pure (some x)

def mallocSplit (mh size : Nat) : HeapProgram Kernel PUnit := do
  check (size % mblocksize = 0) (.sizePassedToSplit size)
  let heap ← inspect id
  if (mSize (heap.memory mh) + sizeRange - size) % sizeRange < 2 * mblocksize then pure PUnit.unit
  else do
    let mhnext := heap.mNext mh
    let oldsize := mSize (heap.memory mh)
    change (fun heap => heap.setHeader mh (fun header =>
      { header with mhNextblock := mMkfield (size + mblocksize) }))
    let heap ← inspect id
    let mhnew := heap.mNext mh
    check (mhnew ≠ mhnext) .splitScrewedUp
    change (fun heap => heap.setHeader mhnew (fun _ => {
      mhPrevblock := mMkfield (size + mblocksize)
      mhPad := 0#1
      mhMagic1 := mmagic
      mhNextblock := mMkfield ((oldsize + sizeRange - size) % sizeRange)
      mhInuse := false
      mhMagic2 := mmagic }))
    onlyIf (mhnext ≠ heap.heaptop) (change (fun heap => heap.setHeader mhnext (fun header =>
      { header with mhPrevblock := (heap.memory mhnew).mhNextblock })))

/-- How the first-fit search ends: at a block, or behind the last one, with the last
header it has seen and the offset a block there has to have behind it. -/
inductive Search
  | found (mh : Nat)
  | ended (i : Nat) (mh : Option Nat) (rightprevblock : BitVec 29)

/-- The search loop of `malloc`, for at most so many rounds. -/
def search (size : Nat) : Nat → Nat → Option Nat → BitVec 29 → HeapProgram Kernel Search
  | 0, _, _, _ => stopWith .endless
  | rounds + 1, i, mh, rightprevblock => do
    let heap ← inspect id
    if i < heap.heaptop then do
      let header := heap.memory i
      check (mOk header) (.badMagicBits i)
      check (header.mhPrevblock = rightprevblock)
        (.badPreviousBlock i (mPrevoff header) (rightprevblock.toNat * mblocksize))
      if header.mhInuse = true ∨ mSize header < size then
        search size rounds ((i + mNextoff header) % sizeRange) (some i) header.mhNextblock
      else pure (.found i)
    else pure (.ended i mh rightprevblock)

/-- The end of the search in `malloc`: take the block that was found, or get more space,
for the last block if it is free and else for a new one. -/
def finish (size : Nat) : Search → HeapProgram Kernel Nat
  | .found mh => do
    mallocSplit mh size
    change (fun heap => heap.setHeader mh (fun header => { header with mhInuse := true }))
    pure (mData mh)
  | .ended i last rightprevblock => do
    let heap ← inspect id
    check (i = heap.heaptop) .ranOffEnd
    let top := last.filter (fun mh => !(heap.memory mh).mhInuse)
    check (∀ mh ∈ top, mSize (heap.memory mh) < size) .assertion
    let morespace := match top with
      | some mh => size - mSize (heap.memory mh)
      | none => (mblocksize + size) % sizeRange
    let morespace := pageSize * ((morespace + pageSize - 1) % sizeRange / pageSize)
    match ← mallocSbrk sbrk morespace with
    | none => pure 0
    | some p => do
      let mh := top.getD p
      change (fun heap => heap.setHeader mh (fun header => match top with
        | some _ => { header with
            mhNextblock := mMkfield ((mNextoff header + morespace) % sizeRange)
            mhInuse := true }
        | none => {
            mhPrevblock := rightprevblock
            mhPad := 0#1
            mhMagic1 := mmagic
            mhNextblock := mMkfield morespace
            mhInuse := true
            mhMagic2 := mmagic }))
      mallocSplit mh size
      pure (mData mh)

/-- `malloc`. The null pointer is zero. -/
def malloc (size : Nat) : HeapProgram Kernel Nat := do
  let heap ← inspect id
  onlyIf (heap.heapbase = 0) (mallocInit sbrk)
  let heap ← inspect id
  check (heap.heapbase ≠ 0 ∧ heap.heaptop ≠ 0 ∧ heap.heapbase ≤ heap.heaptop)
    (.localDataCorrupt heap.heapbase heap.heaptop)
  let size := (size + mblocksize - 1) % sizeRange / mblocksize * mblocksize
  let rounds := (heap.heaptop - heap.heapbase) / mblocksize + 1
  let ended ← search size rounds heap.heapbase none 0#29
  finish sbrk size ended

/-- A cell full of `0xdeadbeef`. -/
def deadbeef : Mheader where
  mhPrevblock := BitVec.extractLsb 31 3 0xdeadbeef#32
  mhPad := BitVec.extractLsb 2 2 0xdeadbeef#32
  mhMagic1 := BitVec.extractLsb 1 0 0xdeadbeef#32
  mhNextblock := BitVec.extractLsb 31 3 0xdeadbeef#32
  mhInuse := BitVec.getLsbD 0xdeadbeef#32 2
  mhMagic2 := BitVec.extractLsb 1 0 0xdeadbeef#32

/-- `__malloc_deadbeef`, on whole cells. -/
def mallocDeadbeef (ptr size : Nat) : HeapProgram Kernel PUnit :=
  change (fun heap => { heap with
    memory := fun address =>
      if ptr ≤ address ∧ address < ptr + size then deadbeef else heap.memory address })

def mallocTrymerge (mh mhnext : Nat) : HeapProgram Kernel PUnit := do
  let heap ← inspect id
  check ((heap.memory mh).mhNextblock = (heap.memory mhnext).mhPrevblock) (.inconsistent mh mhnext)
  if (heap.memory mh).mhInuse = true ∨ (heap.memory mhnext).mhInuse = true then pure PUnit.unit
  else do
    let mhnextnext := heap.mNext mhnext
    change (fun heap => heap.setHeader mh (fun header => { header with
      mhNextblock := mMkfield ((mblocksize + mSize (heap.memory mh) +
        mblocksize + mSize (heap.memory mhnext)) % sizeRange) }))
    onlyIf (mhnextnext ≠ heap.heaptop) (change (fun heap => heap.setHeader mhnextnext (fun header =>
      { header with mhPrevblock := (heap.memory mh).mhNextblock })))
    mallocDeadbeef mhnext mblocksize

def free (x : Nat) : HeapProgram Kernel PUnit := do
  if x = 0 then pure PUnit.unit
  else do
    let heap ← inspect id
    check (heap.heapbase ≠ 0 ∧ heap.heaptop ≠ 0 ∧ heap.heapbase ≤ heap.heaptop)
      (.localDataCorrupt heap.heapbase heap.heaptop)
    check (heap.heapbase ≤ x ∧ x < heap.heaptop) (.outOfRange x)
    let mh := (x + sizeRange - mblocksize) % sizeRange
    check (mOk (heap.memory mh)) (.corruptHeader x)
    check ((heap.memory mh).mhInuse = true) (.alreadyFree x)
    change (fun heap => heap.setHeader mh (fun header => { header with mhInuse := false }))
    mallocDeadbeef (mData mh) (mSize (heap.memory mh))
    let heap ← inspect id
    let mhnext := heap.mNext mh
    onlyIf (mhnext ≠ heap.heaptop) (mallocTrymerge mh mhnext)
    let heap ← inspect id
    onlyIf (mh ≠ heap.heapbase) (mallocTrymerge (heap.mPrev mh) mh)

end

end Os161.Malloc
