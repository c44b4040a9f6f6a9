import Os161.Library.Program
import Mathlib.Logic.Function.Basic

/-!
# The kernel heap

`kmalloc` cuts pages into blocks of one size. The free blocks of a page are linked
through their first words, and a page reference has the page's address and block size,
the offset of its first free block and the number of its free blocks. Page references
are linked twice, with those of the same block size and with all others; they live in
pages of their own, of which `kheaproots` keeps the addresses and a bit for every
reference that is in use. `kfree` finds the reference of a block by its page and gives a
page back once all of its blocks are free.

Memory is one map from addresses to the words and halfwords that start there, so that
the fields of a page reference, the links of free blocks and what a client writes into a
block are kept in the same place. Addresses are numbers, with the remainder taken where
the arithmetic of the source can wrap. The page allocator is a parameter; a call of it
may also be left unanswered, which ends the run of the program there. The debugging modes
are off, as in the source, and the spin lock is left out, as calls run one after another.
-/
namespace Os161.Kmalloc

open Os161.Library Os161.Library.Program

abbrev pageSize : Nat := 4096

/-- The number of addresses, and of values of a `size_t`. -/
abbrev addressRange : Nat := 4294967296

/-- The number of values of a `uint16_t`. -/
abbrev halfwordRange : Nat := 65536

abbrev nsizes : Nat := 8

def sizes (blktype : Nat) : Nat := [16, 32, 64, 128, 256, 512, 1024, 2048].getD blktype 0

abbrev largestSubpageSize : Nat := 2048

abbrev invalidOffset : Nat := 0xffff

/-- The size of a `struct pageref`. -/
abbrev pagerefSize : Nat := 16

abbrev npagerefsPerPage : Nat := 256

abbrev inuseWords : Nat := 8

abbrev numPagerefpages : Nat := 16

abbrev totalPagerefs : Nat := 4096

def mkpab (pa blk : Nat) : Nat := pa / pageSize * pageSize + blk % pageSize

/-- `struct kheap_root`. -/
structure KheapRoot where
  page : Nat
  pagerefsInuse : Nat → BitVec 32
  numinuse : Nat

/-- Memory, the variables of the allocator, and what the page allocator knows. -/
structure Kheap (Kernel : Type) where
  memory : Nat → Nat
  kheaproots : Nat → KheapRoot
  sizebases : Nat → Nat
  allbase : Nat
  kernel : Kernel

/-- Why the allocator gives up: an assertion, one of its two panics, or a walk over a
list that does not end. -/
inductive Abort
  | assertion
  | cannotHandle (clientsz : Nat)
  | invalidAddr (ptr : Nat)
  | endless
  deriving DecidableEq

/-- A call of the page allocator does not come back. -/
inductive Unanswered
  | allocKpages
  deriving DecidableEq

/-- The programs of the allocator. -/
abbrev KheapProgram (Kernel Value : Type) : Type := Program Abort Unanswered (Kheap Kernel) Value

/-- The lists that page references are on. -/
inductive Listing
  | samesize (blktype : Nat)
  | all
  deriving DecidableEq

section

variable {Kernel : Type}

section

variable (heap : Kheap Kernel)

def Kheap.nextSamesize (pr : Nat) : Nat := heap.memory pr

def Kheap.nextAll (pr : Nat) : Nat := heap.memory (pr + 4)

def Kheap.pageaddrAndBlocktype (pr : Nat) : Nat := heap.memory (pr + 8)

def Kheap.freelistOffset (pr : Nat) : Nat := heap.memory (pr + 12)

def Kheap.nfree (pr : Nat) : Nat := heap.memory (pr + 14)

def Kheap.prPageaddr (pr : Nat) : Nat :=
  heap.pageaddrAndBlocktype pr / pageSize * pageSize

def Kheap.prBlocktype (pr : Nat) : Nat := heap.pageaddrAndBlocktype pr % pageSize

/-- Write to memory. -/
def Kheap.store (address value : Nat) : Kheap Kernel :=
  { heap with memory := Function.update heap.memory address value }

/-- Write `freelist_offset`. -/
def Kheap.setFreelistOffset (pr offset : Nat) : Kheap Kernel :=
  heap.store (pr + 12) (offset % halfwordRange)

/-- Write `nfree`. -/
def Kheap.setNfree (pr nfree : Nat) : Kheap Kernel :=
  heap.store (pr + 14) (nfree % halfwordRange)

/-- Change one of `kheaproots`. -/
def Kheap.setRoot (whichroot : Nat) (update : KheapRoot → KheapRoot) : Kheap Kernel :=
  { heap with
    kheaproots := Function.update heap.kheaproots whichroot (update (heap.kheaproots whichroot)) }

/-- `*guy`, where `guy` points to the base of a list or into a page reference on it. -/
def Kheap.link : Listing → Option Nat → Nat
  | .samesize blktype, none => heap.sizebases blktype
  | .samesize _, some pr => heap.nextSamesize pr
  | .all, none => heap.allbase
  | .all, some pr => heap.nextAll pr

/-- Write `*guy`. -/
def Kheap.setLink (value : Nat) : Listing → Option Nat → Kheap Kernel
  | .samesize blktype, none => { heap with sizebases := Function.update heap.sizebases blktype value }
  | .samesize _, some pr => heap.store pr value
  | .all, none => { heap with allbase := value }
  | .all, some pr => heap.store (pr + 4) value

end

def fillDeadbeef (ptr len : Nat) : KheapProgram Kernel PUnit :=
  change (fun heap => { heap with
    memory := fun address =>
      if ptr ≤ address ∧ address < ptr + len / 4 * 4 ∧ (address - ptr) % 4 = 0 then 0xdeadbeef
      else heap.memory address })

/-- `p - page->refs`, as an unsigned number. -/
def pagerefIndex (p page : Nat) : Nat := (((p : Int) - page) / pagerefSize % addressRange).toNat

/-- The part of `freepageref` that clears the bit of the page reference. -/
def dropPageref (whichroot j : Nat) : KheapProgram Kernel PUnit := do
  let heap ← inspect id
  let root := heap.kheaproots whichroot
  let k := 1#32 <<< (j % 32)
  check (root.pagerefsInuse (j / 32) &&& k ≠ 0#32) .assertion
  change (fun heap => heap.setRoot whichroot (fun root => { root with
    pagerefsInuse := Function.update root.pagerefsInuse (j / 32)
      (root.pagerefsInuse (j / 32) &&& ~~~ k) }))
  check (0 < root.numinuse) .assertion
  change (fun heap => heap.setRoot whichroot (fun root => { root with
    numinuse := root.numinuse - 1 }))

/-- Release a page reference, from the listed roots on. -/
def freepagerefFrom (p : Nat) : List Nat → KheapProgram Kernel PUnit
  | [] => stopWith .assertion
  | whichroot :: rest => do
    let heap ← inspect id
    let root := heap.kheaproots whichroot
    if root.page = 0 then do
      check (root.numinuse = 0) .assertion
      freepagerefFrom p rest
    else if pagerefIndex p root.page < npagerefsPerPage then
      dropPageref whichroot (pagerefIndex p root.page)
    else freepagerefFrom p rest

def freepageref (p : Nat) : KheapProgram Kernel PUnit := freepagerefFrom p (List.range numPagerefpages)

/-- One of the loops of `remove_lists`, for at most so many rounds. -/
def removeList (listing : Listing) (pr : Nat) : Nat → Option Nat → KheapProgram Kernel PUnit
  | 0, _ => stopWith .endless
  | rounds + 1, guy => do
    let heap ← inspect id
    if heap.link listing guy = 0 then pure PUnit.unit
    else if heap.link listing guy = pr then
      change (fun heap => heap.setLink (heap.link listing (some pr)) listing guy)
    else removeList listing pr rounds (some (heap.link listing guy))

def removeLists (pr blktype : Nat) : KheapProgram Kernel PUnit := do
  check (blktype < nsizes) .assertion
  removeList (.samesize blktype) pr (totalPagerefs + 1) none
  removeList .all pr (totalPagerefs + 1) none

def blocktype (clientsz : Nat) : KheapProgram Kernel Nat :=
  match (List.range nsizes).find? (fun i => clientsz ≤ sizes i) with
  | some i => pure i
  | none => stopWith (.cannotHandle clientsz)

/-- The search in `subpage_kmalloc` for a page of the right size with a free block, for
at most so many rounds. -/
def findFree (blktype : Nat) : Nat → Nat → KheapProgram Kernel (Option Nat)
  | 0, _ => stopWith .endless
  | rounds + 1, pr => do
    if pr = 0 then pure none
    else do
      let heap ← inspect id
      check (heap.prBlocktype pr = blktype) .assertion
      if 0 < heap.nfree pr then pure (some pr)
      else findFree blktype rounds (heap.nextSamesize pr)

/-- `subpage_kmalloc` from its label `doalloc` on. -/
def doalloc (pr : Nat) : KheapProgram Kernel Nat := do
  let heap ← inspect id
  check (heap.freelistOffset pr < pageSize) .assertion
  let prpage := heap.prPageaddr pr
  let retptr := (prpage + heap.freelistOffset pr) % addressRange
  let fl := heap.memory retptr
  change (fun heap => heap.setNfree pr (heap.nfree pr + halfwordRange - 1))
  let heap ← inspect id
  if fl ≠ 0 then do
    check (0 < heap.nfree pr) .assertion
    let offset := (fl + addressRange - prpage) % addressRange
    check (offset < pageSize) .assertion
    change (fun heap => heap.setFreelistOffset pr offset)
    pure retptr
  else do
    check (heap.nfree pr = 0) .assertion
    change (fun heap => heap.setFreelistOffset pr invalidOffset)
    pure retptr

/-- The loop in `subpage_kmalloc` that links the blocks of a new page, from the second
one on and for at most so many rounds. It returns the last block. -/
def linkBlocks (pr fla size : Nat) : Nat → Nat → Nat → KheapProgram Kernel Nat
  | 0, _, _ => stopWith .endless
  | rounds + 1, i, fl => do
    let heap ← inspect id
    if i < heap.nfree pr then do
      let fl := (fla + i * size) % addressRange
      change (fun heap => heap.store fl ((fla + (i - 1) * size) % addressRange))
      let heap ← inspect id
      check (fl ≠ heap.memory fl) .assertion
      linkBlocks pr fla size rounds (i + 1) fl
    else pure fl

/-- The part of `subpage_kmalloc` that sets up a new page. -/
def setUpPage (prpage pr blktype : Nat) : KheapProgram Kernel PUnit := do
  change (fun heap => heap.store (pr + 8) (mkpab prpage blktype))
  change (fun heap => heap.setNfree pr (pageSize / sizes blktype))
  change (fun heap => heap.store prpage 0)
  let fl ← linkBlocks pr prpage (sizes blktype) halfwordRange 1 prpage
  change (fun heap => heap.setFreelistOffset pr ((fl + addressRange - prpage) % addressRange))
  let heap ← inspect id
  check (heap.freelistOffset pr =
    (heap.nfree pr + addressRange - 1) * sizes blktype % addressRange) .assertion
  change (fun heap => heap.setLink (heap.sizebases blktype) (.samesize blktype) (some pr))
  change (fun heap => heap.setLink pr (.samesize blktype) none)
  change (fun heap => heap.setLink heap.allbase .all (some pr))
  change (fun heap => heap.setLink pr .all none)

/-- The search in `subpage_kfree` for the page an address is on, for at most so many
rounds. -/
def findPage (ptraddr : Nat) : Nat → Nat → KheapProgram Kernel (Option Nat)
  | 0, _ => stopWith .endless
  | rounds + 1, pr => do
    if pr = 0 then pure none
    else do
      let heap ← inspect id
      let prpage := heap.prPageaddr pr
      check (heap.prBlocktype pr < nsizes) .assertion
      if prpage ≤ ptraddr ∧ ptraddr < (prpage + pageSize) % addressRange then pure (some pr)
      else findPage ptraddr rounds (heap.nextAll pr)

/-- The part of `subpage_kfree` that puts a block on the free list of its page. -/
def linkFree (pr prpage fl : Nat) : KheapProgram Kernel PUnit := do
  let heap ← inspect id
  if heap.freelistOffset pr = invalidOffset then change (fun heap => heap.store fl 0)
  else do
    change (fun heap => heap.store fl ((prpage + heap.freelistOffset pr) % addressRange))
    let heap ← inspect id
    check (fl ≠ heap.memory fl) .assertion

variable (allocKpages : Nat → Kernel → Option (Nat × Kernel)) (freeKpages : Nat → Kernel → Kernel)

/-- Call `alloc_kpages`. -/
def callAllocKpages (npages : Nat) : KheapProgram Kernel Nat :=
  fun heap => match allocKpages npages heap.kernel with
    | some (address, kernel) => .done address { heap with kernel := kernel }
    | none => .fail .allocKpages heap

/-- Call `free_kpages`. -/
def callFreeKpages (address : Nat) : KheapProgram Kernel PUnit :=
  change (fun heap => { heap with kernel := freeKpages address heap.kernel })

def allocpagerefpage (whichroot : Nat) : KheapProgram Kernel PUnit := do
  let heap ← inspect id
  check ((heap.kheaproots whichroot).page = 0) .assertion
  let va ← callAllocKpages allocKpages 1
  if va = 0 then pure PUnit.unit
  else do
    check (va % pageSize = 0) .assertion
    let heap ← inspect id
    if (heap.kheaproots whichroot).page ≠ 0 then do
      callFreeKpages freeKpages va
      let heap ← inspect id
      check ((heap.kheaproots whichroot).page ≠ 0) .assertion
    else change (fun heap => heap.setRoot whichroot (fun root => { root with page := va }))

/-- The part of `allocpageref` that takes the page reference of a bit that is clear. -/
def takePageref (whichroot i j : Nat) : KheapProgram Kernel Nat := do
  change (fun heap => heap.setRoot whichroot (fun root => { root with
    pagerefsInuse := Function.update root.pagerefsInuse i (root.pagerefsInuse i ||| 1#32 <<< j)
    numinuse := root.numinuse + 1 }))
  let heap ← inspect id
  onlyIf ((heap.kheaproots whichroot).page = 0) (allocpagerefpage allocKpages freeKpages whichroot)
  let heap ← inspect id
  if (heap.kheaproots whichroot).page = 0 then pure 0
  else pure (((heap.kheaproots whichroot).page + (i * 32 + j) * pagerefSize) % addressRange)

/-- Allocate a page reference, from the listed roots on. -/
def allocpagerefFrom : List Nat → KheapProgram Kernel Nat
  | [] => pure 0
  | whichroot :: rest => do
    let heap ← inspect id
    let root := heap.kheaproots whichroot
    if npagerefsPerPage ≤ root.numinuse then allocpagerefFrom rest
    else
      match (List.range inuseWords).find? (fun i => root.pagerefsInuse i ≠ 0xffffffff#32) with
      | none => allocpagerefFrom rest
      | some i =>
        match (List.range 32).find? (fun j => root.pagerefsInuse i &&& 1#32 <<< j = 0#32) with
        | none => stopWith .assertion
        | some j => takePageref allocKpages freeKpages whichroot i j

/-- `allocpageref`. The null pointer is zero. -/
def allocpageref : KheapProgram Kernel Nat :=
  allocpagerefFrom allocKpages freeKpages (List.range numPagerefpages)

/-- The part of `subpage_kmalloc` that gets a new page when no page of the right size has
a free block. -/
def makePage (blktype : Nat) : KheapProgram Kernel Nat := do
  let prpage ← callAllocKpages allocKpages 1
  if prpage = 0 then pure 0
  else do
    check (prpage % pageSize = 0) .assertion
    let pr ← allocpageref allocKpages freeKpages
    if pr = 0 then do
      callFreeKpages freeKpages prpage
      pure 0
    else do
      setUpPage prpage pr blktype
      doalloc pr

def subpageKmalloc (sz : Nat) : KheapProgram Kernel Nat := do
  let blktype ← blocktype sz
  let heap ← inspect id
  match ← findFree blktype (totalPagerefs + 1) (heap.sizebases blktype) with
  | some pr => doalloc pr
  | none => makePage allocKpages freeKpages blktype

/-- `subpage_kfree`. It returns zero, or minus one when the pointer is on none of its
pages. -/
def subpageKfree (ptr : Nat) : KheapProgram Kernel Int := do
  let heap ← inspect id
  match ← findPage ptr (totalPagerefs + 1) heap.allbase with
  | none => pure (-1)
  | some pr => do
    let prpage := heap.prPageaddr pr
    let blktype := heap.prBlocktype pr
    let offset := (ptr + addressRange - prpage) % addressRange
    check (offset < pageSize ∧ offset % sizes blktype = 0) (.invalidAddr ptr)
    fillDeadbeef ptr (sizes blktype)
    linkFree pr prpage ((prpage + offset) % addressRange)
    change (fun heap => heap.setFreelistOffset pr offset)
    change (fun heap => heap.setNfree pr (heap.nfree pr + 1))
    let heap ← inspect id
    check (heap.nfree pr ≤ pageSize / sizes blktype) .assertion
    onlyIf (heap.nfree pr = pageSize / sizes blktype) (do
      removeLists pr blktype
      freepageref pr
      callFreeKpages freeKpages prpage)
    pure 0

def kmalloc (sz : Nat) : KheapProgram Kernel Nat := do
  if largestSubpageSize ≤ sz then do
    let npages := (sz + pageSize - 1) % addressRange / pageSize
    let address ← callAllocKpages allocKpages npages
    if address = 0 then pure 0
    else do
      check (address % pageSize = 0) .assertion
      pure address
  else subpageKmalloc allocKpages freeKpages sz

def kfree (ptr : Nat) : KheapProgram Kernel PUnit := do
  if ptr = 0 then pure PUnit.unit
  else do
    let result ← subpageKfree freeKpages ptr
    onlyIf (result ≠ 0) (do
      check (ptr % pageSize = 0) .assertion
      callFreeKpages freeKpages ptr)

end

end Os161.Kmalloc
