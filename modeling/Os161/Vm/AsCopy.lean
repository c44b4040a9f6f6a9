import Os161.Vm.Fault

/-!
# Copying an address space

`as_copy` makes a new address space with the regions of the old one, sets contiguous
frames aside for it with `as_prepare_load`, and copies the contiguous frames of the old
one into them. A user program never sees those frames: its pages are where `vm_fault`
puts them.

`as_prepare_load` clears the frames it sets aside and `as_copy` fills them. The frames of
one allocation lie one behind the other, as `vm_bootstrap` has numbered them, so the bytes
that are written are those of the frames that have just been taken, and memory stays the
same in every other frame.

A user access goes through `vm_fault` every time here. The TLB in between only holds
what `vm_fault` has installed, and `as_activate` empties it at every change of address
space.

The kernel heap is not modelled; a `struct addrspace` has 49192 bytes, so `kmalloc`
passes its allocation on to `alloc_kpages` as thirteen pages.
-/
namespace Os161.Vm

open Os161.Library Os161.Library.Program
open Ensures (bind_done attempt_bind bind_check)

def kvaddrToPaddr (vaddr : BitVec 32) : BitVec 32 := vaddr - mipsKseg0

/-- Run a program of the coremap. -/
def onCoremap {Value : Type} (program : CoremapProgram Value) : VmProgram Value :=
  fun machine => match program machine.coremap with
    | .stop reason => .stop reason
    | .fail error after => .fail error { machine with coremap := after }
    | .done value after => .done value { machine with coremap := after }

/-- Change an address space. -/
def setSpace (as : AsPtr) (update : AddrSpace → AddrSpace) : VmProgram PUnit :=
  change (fun machine =>
    { machine with spaces := Function.update machine.spaces as (update (machine.spaces as)) })

/-- The kernel writes to memory through its own addresses, which reach 512 megabytes. A
frame address beyond that comes out as a user address nobody has mapped. -/
def kernelWrite (paddr length : BitVec 32)
    (contents : (BitVec 32 → BitVec 8) → BitVec 32 → BitVec 8) : VmProgram PUnit := do
  check (paddr.toNat + length.toNat ≤ 512 * 1024 * 1024) .panic
  change (fun machine => { machine with
    memory := fun address =>
      if address - paddr < length then contents machine.memory (address - paddr)
      else machine.memory address })

/-- The fields `as_create` sets. The heap bounds are what the memory held. -/
def AddrSpace.cleared (space : AddrSpace) : AddrSpace :=
  { space with
    asVbase1 := 0#32, asPbase1 := 0#32, asNpages1 := 0#32
    asVbase2 := 0#32, asPbase2 := 0#32, asNpages2 := 0#32
    asStackpbase := 0#32
    ptable := fun _ => emptySlot }

variable {machine before after origin : Machine} {npages paddr addr : BitVec 32}
  {start rest k : Nat} {space : AddrSpace}

section

variable (cur : Option AsPtr)

def asCreate : VmProgram AsPtr := do
  let addr ← onCoremap (allocKpages cur 13)
  if addr = 0#32 then failWith .ENOMEM
  else do
    setSpace addr AddrSpace.cleared
    pure addr

/-- The pages of a region, from the alignment in `as_define_region`. -/
def regionPages (vaddr sz : BitVec 32) : BitVec 32 :=
  ((sz + (vaddr &&& ~~~pageFrame) + 4096#32 - 1#32) &&& pageFrame) / 4096#32

/-- `as_define_region`; there are no more than two regions. -/
def asDefineRegion (space : AddrSpace) (vaddr sz : BitVec 32) : Option AddrSpace :=
  if space.asVbase1 = 0#32 then
    some { space with asVbase1 := vaddr &&& pageFrame, asNpages1 := regionPages vaddr sz }
  else if space.asVbase2 = 0#32 then
    some { space with asVbase2 := vaddr &&& pageFrame, asNpages2 := regionPages vaddr sz }
  else none

/-- Allocations one after the other, as far as the coremap is concerned. -/
def takeFrames : List Nat → CoremapProgram PUnit
  | [] => pure PUnit.unit
  | npages :: rest => do
    let _ ← allocKpages cur npages
    takeFrames rest

/-- Set the frames of one region aside. A failed allocation is not noticed: the null
address comes out as the physical address 0x80000000. -/
def allocRegion (as : AsPtr) (npages : BitVec 32) (record : AddrSpace → BitVec 32 → AddrSpace) :
    VmProgram PUnit := do
  let addr ← onCoremap (allocKpages cur npages.toNat)
  setSpace as (fun space => record space (kvaddrToPaddr addr))
  if kvaddrToPaddr addr = 0#32 then failWith .ENOMEM else pure PUnit.unit

def asZeroRegion (paddr npages : BitVec 32) : VmProgram PUnit :=
  kernelWrite paddr (npages * 4096#32) (fun _ _ => 0#8)

def asPrepareLoad (as : AsPtr) : VmProgram PUnit := do
  let space ← inspect (fun machine => machine.spaces as)
  check (space.asPbase1 = 0#32 ∧ space.asPbase2 = 0#32 ∧ space.asStackpbase = 0#32) .assertion
  allocRegion cur as space.asNpages1 (fun space pbase => { space with asPbase1 := pbase })
  allocRegion cur as space.asNpages2 (fun space pbase => { space with asPbase2 := pbase })
  allocRegion cur as stackPages (fun space pbase => { space with asStackpbase := pbase })
  let space ← inspect (fun machine => machine.spaces as)
  asZeroRegion space.asPbase1 space.asNpages1
  asZeroRegion space.asPbase2 space.asNpages2
  asZeroRegion space.asStackpbase stackPages

/-- `memmove` between frames. -/
def moveRegion (target source npages : BitVec 32) : VmProgram PUnit := do
  check (source.toNat + (npages * 4096#32).toNat ≤ 512 * 1024 * 1024) .panic
  kernelWrite target (npages * 4096#32) (fun memory offset => memory (source + offset))

/-- `as_copy`, by a process that has the old address space. -/
def asCopy (old : AsPtr) : VmProgram AsPtr := do
  let new ← asCreate (some old)
  let source ← inspect (fun machine => machine.spaces old)
  setSpace new (fun space => { space with
    asVbase1 := source.asVbase1, asNpages1 := source.asNpages1
    asVbase2 := source.asVbase2, asNpages2 := source.asNpages2 })
  match ← attempt (asPrepareLoad (some old) new) with
  | .error _ => do
    onCoremap (freeKpages new)
    failWith .ENOMEM
  | .ok _ => do
    let space ← inspect (fun machine => machine.spaces new)
    check (space.asPbase1 ≠ 0#32 ∧ space.asPbase2 ≠ 0#32 ∧ space.asStackpbase ≠ 0#32) .assertion
    moveRegion space.asPbase1 source.asPbase1 source.asNpages1
    moveRegion space.asPbase2 source.asPbase2 source.asNpages2
    moveRegion space.asStackpbase source.asStackpbase stackPages
    pure new

/-- The two regions `load_elf` defines, and the frames it sets aside. The address space is the
process's own by then. -/
def loadRegions (as : AsPtr) (vaddr1 sz1 vaddr2 sz2 : BitVec 32) : VmProgram PUnit := do
  let space ← inspect (fun machine => machine.spaces as)
  match (asDefineRegion space vaddr1 sz1).bind (fun space => asDefineRegion space vaddr2 sz2) with
  | none => failWith .ENOSYS
  | some defined => do
    setSpace as (fun _ => defined)
    asPrepareLoad (some as) as

/-- Start a program with two regions, as `runprogram` and `load_elf` do. -/
def loadSpace (vaddr1 sz1 vaddr2 sz2 : BitVec 32) : VmProgram AsPtr := do
  let as ← asCreate cur
  loadRegions as vaddr1 sz1 vaddr2 sz2
  pure as

/-- The physical address a user access goes to, through `vm_fault`. -/
def access (faulttype : FaultType) (as : AsPtr) (address : BitVec 32) (slot : Nat) :
    VmProgram (BitVec 32) := do
  let pa ← vmFault faulttype address (some (some as)) slot
  pure (pa + (address &&& ~~~pageFrame))

/-- A user reads a byte. -/
def readByte (as : AsPtr) (address : BitVec 32) (slot : Nat) : VmProgram (BitVec 8) := do
  let place ← access .read as address slot
  inspect (fun machine => machine.memory place)

/-- A user writes a byte. -/
def writeByte (as : AsPtr) (address : BitVec 32) (value : BitVec 8) (slot : Nat) :
    VmProgram PUnit := do
  let place ← access .write as address slot
  change (fun machine => { machine with memory := Function.update machine.memory place value })

section

variable {first second third : Machine}

theorem Grown.trans (grown : Grown first second) (more : Grown second third) :
    Grown first third where
  size := more.size.trans grown.size
  kept := by
    intro k used
    have same := grown.kept k used
    rw [more.kept k (by rw [same]; exact used), same]
  pa := fun k => (more.pa k).trans (grown.pa k)
  taken := by
    intro k taken
    by_cases free : (second.coremap.entries k).st = .free
    · rw [← grown.size]
      exact more.taken k ⟨free, taken.2⟩
    · exact grown.taken k ⟨taken.1, free⟩
  tlb := more.tlb.trans grown.tlb
  tables := by
    intro as
    rcases more.tables as with same | fresh
    · rw [same]
      exact grown.tables as
    · exact Or.inr fresh

theorem Grown.still_taken (more : Grown second third)
    (taken : Taken first.coremap second.coremap k) :
    Taken first.coremap third.coremap k := by
  refine ⟨taken.1, ?_⟩
  rw [more.kept k taken.2]
  exact taken.2

/-- Memory has been written to and nothing else has changed. -/
structure OnlyMemory (before after : Machine) : Prop where
  coremap : after.coremap = before.coremap
  spaces : after.spaces = before.spaces
  tlb : after.tlb = before.tlb

theorem OnlyMemory.trans (written : OnlyMemory first second) (more : OnlyMemory second third) :
    OnlyMemory first third :=
  ⟨more.coremap.trans written.coremap, more.spaces.trans written.spaces, more.tlb.trans written.tlb⟩

theorem OnlyMemory.grown (written : OnlyMemory first second) : Grown first second where
  size := by rw [written.coremap]
  kept := fun k _ => by rw [written.coremap]
  pa := fun k => by rw [written.coremap]
  taken := fun k taken => absurd taken.1 (by rw [← written.coremap]; exact taken.2)
  tlb := written.tlb
  tables := fun as => Or.inl (by rw [written.spaces])

/-- The frames lie one behind the other. -/
def Contiguous (coremap : Coremap) : Prop :=
  ∀ k, k < coremap.size → (coremap.entries k).pa.toNat = (coremap.entries 0).pa.toNat + pageSize * k

/-- Two memories have the same bytes in a frame. -/
def SameIn (pa : BitVec 32) (first second : BitVec 32 → BitVec 8) : Prop :=
  ∀ offset : BitVec 32, offset.toNat < pageSize → second (pa + offset) = first (pa + offset)

theorem SameIn.trans {pa : BitVec 32} {first second third : BitVec 32 → BitVec 8}
    (earlier : SameIn pa first second) (later : SameIn pa second third) : SameIn pa first third :=
  fun offset inside => (later offset inside).trans (earlier offset inside)

/-- Frames have been taken, and memory has changed in no other frame. -/
structure Fills (before after : Machine) : Prop where
  grown : Grown before after
  memory : ∀ k, k < before.coremap.size → ¬ Taken before.coremap after.coremap k →
    SameIn (before.coremap.entries k).pa before.memory after.memory

theorem fills_of_memory (grown : Grown before after) (same : after.memory = before.memory) :
    Fills before after :=
  ⟨grown, fun _ _ _ _ _ => by rw [same]⟩

theorem Grown.taken_before (grown : Grown first second)
    (taken : Taken second.coremap third.coremap k) : Taken first.coremap third.coremap k := by
  refine ⟨?_, taken.2⟩
  by_contra used
  have same := grown.kept k used
  rw [← same] at used
  exact used taken.1

theorem Fills.trans (earlier : Fills first second) (later : Fills second third) :
    Fills first third := by
  refine ⟨earlier.grown.trans later.grown, fun k inside untaken => ?_⟩
  have before := earlier.memory k inside (fun taken => untaken (later.grown.still_taken taken))
  have after := later.memory k (by rw [earlier.grown.size]; exact inside)
    (fun taken => untaken (earlier.grown.taken_before taken))
  rw [earlier.grown.pa k] at after
  exact before.trans after

theorem Grown.contiguous (grown : Grown before after) (contiguous : Contiguous before.coremap) :
    Contiguous after.coremap := by
  intro k inside
  rw [grown.pa k, grown.pa 0]
  exact contiguous k (grown.size ▸ inside)

/-- A run of frames that has been set aside, given by its first address. -/
def SetAside (before after : Machine) (paddr npages : BitVec 32) : Prop :=
  npages = 0#32 ∨ ∃ i, paddr = (before.coremap.entries i).pa ∧
    i + npages.toNat ≤ before.coremap.size ∧
    ∀ k, i ≤ k → k < i + npages.toNat → Taken before.coremap after.coremap k

theorem SetAside.later (aside : SetAside first second paddr npages) (grown : Grown second third) :
    SetAside first third paddr npages := by
  rcases aside with none_asked | ⟨i, place, fits, taken⟩
  · exact Or.inl none_asked
  · exact Or.inr ⟨i, place, fits, fun k above below => grown.still_taken (taken k above below)⟩

theorem SetAside.earlier (aside : SetAside second third paddr npages) (grown : Grown first second) :
    SetAside first third paddr npages := by
  rcases aside with none_asked | ⟨i, place, fits, taken⟩
  · exact Or.inl none_asked
  · refine Or.inr ⟨i, ?_, ?_, fun k above below => grown.taken_before (taken k above below)⟩
    · rw [place, grown.pa i]
    · rw [← grown.size]
      exact fits

/-- A byte of a run of frames is in one of its frames. -/
theorem frame_of_run {coremap : Coremap} (contiguous : Contiguous coremap) {i : Nat}
    {offset : BitVec 32} (fits : i + npages.toNat ≤ coremap.size) (inside : k < coremap.size)
    (inPage : offset.toNat < pageSize)
    (inRun : (coremap.entries k).pa + offset - (coremap.entries i).pa < npages * 4096#32) :
    i ≤ k ∧ k < i + npages.toNat := by
  have positive : npages.toNat ≠ 0 := by
    intro zero
    have none_asked : npages = 0#32 := BitVec.eq_of_toNat_eq zero
    rw [none_asked] at inRun
    simp at inRun
  have placeK := contiguous k inside
  have placeI := contiguous i (by omega)
  have placeLast := contiguous (coremap.size - 1) (by omega)
  rw [BitVec.lt_def, BitVec.toNat_sub, BitVec.toNat_add, BitVec.toNat_mul] at inRun
  simp only [pageSize, BitVec.toNat_ofNat] at *
  omega

/-- Memory after a write to a run of frames that has been set aside. -/
theorem fills_of_write (contiguous : Contiguous origin.coremap) (fills : Fills origin machine)
    (aside : SetAside origin machine paddr npages)
    (contents : (BitVec 32 → BitVec 8) → BitVec 32 → BitVec 8) :
    Fills origin { machine with
      memory := fun address =>
        if address - paddr < npages * 4096#32 then contents machine.memory (address - paddr)
        else machine.memory address } := by
  refine ⟨fills.grown.trans (OnlyMemory.grown ⟨rfl, rfl, rfl⟩), ?_⟩
  intro k inside untaken offset inPage
  have before := fills.memory k inside untaken offset inPage
  by_cases inRun : (origin.coremap.entries k).pa + offset - paddr < npages * 4096#32
  · rcases aside with none_asked | ⟨i, rfl, fits, taken⟩
    · rw [none_asked] at inRun
      simp at inRun
    · have run := frame_of_run contiguous fits inside inPage inRun
      exact absurd (taken k run.1 run.2) untaken
  · simp only [inRun, if_false]
    exact before

/-- The address of a frame that has just been taken. -/
def NewBlock (before after : Machine) (addr : BitVec 32) : Prop :=
  ∃ i, i < before.coremap.size ∧ addr = paddrToKvaddr (before.coremap.entries i).pa ∧
    Taken before.coremap after.coremap i

theorem NewBlock.later (block : NewBlock first second addr) (grown : Grown second third) :
    NewBlock first third addr := by
  obtain ⟨i, inside, address, taken⟩ := block
  exact ⟨i, inside, address, grown.still_taken taken⟩

/-- The address of the first of some frames that have just been taken. -/
def NewRun (before after : Machine) (addr : BitVec 32) (npages : Nat) : Prop :=
  ∃ i, i + npages ≤ before.coremap.size ∧ addr = paddrToKvaddr (before.coremap.entries i).pa ∧
    ∀ k, i ≤ k → k < i + npages → Taken before.coremap after.coremap k

theorem NewRun.block {npages : Nat} (run : NewRun before after addr npages)
    (positive : 1 ≤ npages) :
    NewBlock before after addr := by
  obtain ⟨i, inside, address, taken⟩ := run
  exact ⟨i, by omega, address, taken i (Nat.le_refl i) (by omega)⟩

theorem kvaddr_back (pa : BitVec 32) : kvaddrToPaddr (paddrToKvaddr pa) = pa := by
  exact BitVec.add_sub_cancel _ _

/-- The frames of an allocation have been set aside. -/
theorem set_aside_of_run (run : 1 ≤ npages.toNat → NewRun before after addr npages.toNat) :
    SetAside before after (kvaddrToPaddr addr) npages := by
  by_cases positive : 1 ≤ npages.toNat
  · obtain ⟨i, inside, rfl, taken⟩ := run positive
    exact Or.inr ⟨i, kvaddr_back _, inside, taken⟩
  · refine Or.inl (BitVec.eq_of_toNat_eq ?_)
    show npages.toNat = 0
    omega

/-- An allocation out of a free run takes the first frames it can, leaves the rest of the run
and writes nothing. -/
theorem alloc_ensures {npages : Nat} (run : FreeRun machine.coremap start (npages + rest)) :
    Ensures True (onCoremap (allocKpages cur npages)) machine
      (fun addr after => Grown machine after ∧ after.spaces = machine.spaces ∧
        after.memory = machine.memory ∧ FreeRun after.coremap (start + npages) rest ∧
        (1 ≤ npages → NewRun machine after addr npages) ∧
        allocKpages cur npages machine.coremap = .done addr after.coremap)
      (fun _ _ => True) := by
  have fits := run.1
  have shorter : FreeRun machine.coremap start npages :=
    ⟨by omega, fun k above below => run.2 k above (by omega)⟩
  have remains {after : Coremap} {i : Nat} (early : i ≤ start)
      (marks : Marks cur i npages machine.coremap after) : FreeRun after (start + npages) rest := by
    refine ⟨by rw [marks.size]; omega, fun k above below => ?_⟩
    rw [marks.kept k (by omega)]
    exact run.2 k (by omega) (by omega)
  by_cases positive : 1 ≤ npages
  · obtain ⟨i, after, early, inside, returned, marks, available⟩ :=
      alloc_kpages_first_fit cur npages positive shorter
    have grown := grown_of_alloc (Or.inl ⟨start, shorter⟩) returned
    constructor
    simp only [onCoremap, returned]
    have taken (k : Nat) (above : i ≤ k) (below : k < i + npages) :
        Taken machine.coremap after k := (marks.taken_iff available k).mpr ⟨above, below⟩
    exact ⟨grown, rfl, rfl, remains early marks, fun _ => ⟨i, by omega, rfl, taken⟩, rfl⟩
  · have none_asked : npages = 0 := by omega
    subst none_asked
    constructor
    cases returned : allocKpages cur 0 machine.coremap with
    | stop reason | fail error after => simp only [onCoremap, returned]; trivial
    | done addr after =>
      have grown := grown_of_alloc (Or.inl ⟨start, shorter⟩) returned
      simp only [onCoremap, returned]
      refine ⟨grown, rfl, rfl, ?_, fun some_asked => absurd some_asked positive, rfl⟩
      rcases alloc_kpages_done returned with
        ⟨_, rfl⟩ | ⟨i, _, _, _, marks, _⟩
      · refine ⟨?_, fun k above below => run.2 k (by omega) (by omega)⟩
        show start + 0 + rest ≤ machine.coremap.size
        omega
      · refine ⟨by rw [marks.size]; omega, fun k above below => ?_⟩
        rw [marks.kept k (by omega)]
        exact run.2 k (by omega) (by omega)

theorem read_space (machine : Machine) (as : AsPtr) :
    inspect (fun machine : Machine => machine.spaces as) machine =
      (.done (machine.spaces as) machine : Outcome Halt Errno Machine AddrSpace) :=
  rfl

/-- Changing an address space keeps its page table or starts a new one. -/
theorem grown_set_space (machine : Machine) (as : AsPtr) (update : AddrSpace → AddrSpace)
    (table : (update (machine.spaces as)).ptable = (machine.spaces as).ptable ∨
      (update (machine.spaces as)).ptable = fun _ => emptySlot) :
    Grown machine
      { machine with spaces := Function.update machine.spaces as (update (machine.spaces as)) } where
  size := rfl
  kept := fun _ _ => rfl
  pa := fun _ => rfl
  taken := fun _ taken => absurd taken.1 taken.2
  tlb := rfl
  tables := by
    intro other
    obtain rfl | same := eq_or_ne other as
    · simpa using table
    · simp [same]

theorem new_block_aligned (block : NewBlock before after addr) :
    (kvaddrToPaddr addr).toNat % pageSize = 0 := by
  obtain ⟨i, inside, rfl, _⟩ := block
  rw [kvaddr_back]
  exact before.coremap.aligned i inside

/-- Setting frames aside for a region out of a free run. Nothing is written. -/
theorem alloc_region_ensures (as : AsPtr) {record : AddrSpace → BitVec 32 → AddrSpace}
    (keeps : ∀ space pbase, (record space pbase).ptable = space.ptable)
    (run : FreeRun machine.coremap start (npages.toNat + rest)) :
    Ensures True (allocRegion cur as npages record) machine
      (fun _ after => Fills machine after ∧ FreeRun after.coremap (start + npages.toNat) rest ∧
        ∃ pbase, after.spaces = Function.update machine.spaces as (record (machine.spaces as) pbase) ∧
          (npages ≠ 0#32 → pbase.toNat % pageSize = 0) ∧ SetAside machine after pbase npages ∧
          ∃ addr, allocKpages cur npages.toNat machine.coremap = .done addr after.coremap)
      (fun _ _ => True) := by
  refine Ensures.bind (alloc_ensures cur run) ?_
  intro addr middle ⟨grown, spaces, memory, remains, taken, allocated⟩
  refine bind_done rfl ?_
  by_cases null : kvaddrToPaddr addr = 0#32
  · rw [if_pos null]
    exact ensures_fail trivial
  rw [if_neg null]
  have reset := grown_set_space middle as (fun space => record space (kvaddrToPaddr addr))
    (Or.inl (keeps _ _))
  refine ensures_pure ⟨fills_of_memory (grown.trans reset) memory, remains, kvaddrToPaddr addr,
    ?_, ?_, (set_aside_of_run taken).later reset, addr, allocated⟩
  · simp [spaces]
  · intro some_asked
    have positive : 1 ≤ npages.toNat := by
      have nonzero : npages.toNat ≠ 0 := fun zero => some_asked (BitVec.eq_of_toNat_eq zero)
      omega
    exact new_block_aligned ((taken positive).block positive)

/-- Frames have been taken, and if they lie one behind the other, memory has changed in no other
frame. -/
structure Filled (before after : Machine) : Prop where
  grown : Grown before after
  fills : Contiguous before.coremap → Fills before after

theorem Fills.filled (fills : Fills before after) : Filled before after :=
  ⟨fills.grown, fun _ => fills⟩

theorem Filled.trans (earlier : Filled first second) (later : Filled second third) :
    Filled first third :=
  ⟨earlier.grown.trans later.grown, fun contiguous =>
    (earlier.fills contiguous).trans (later.fills (earlier.grown.contiguous contiguous))⟩

end

/-- Writing to a run of frames that has been set aside changes memory only. -/
theorem kernel_write_ensures {contents : (BitVec 32 → BitVec 8) → BitVec 32 → BitVec 8}
    (filled : Filled origin machine) (aside : SetAside origin machine paddr npages) :
    Ensures True (kernelWrite paddr (npages * 4096#32) contents) machine
      (fun _ after => Filled origin after ∧ OnlyMemory machine after) (fun _ _ => True) := by
  refine bind_check (Or.inr trivial) (ensures_change ⟨⟨?_, fun contiguous => ?_⟩, rfl, rfl, rfl⟩)
  · exact filled.grown.trans (OnlyMemory.grown ⟨rfl, rfl, rfl⟩)
  · exact fills_of_write contiguous (filled.fills contiguous) aside contents

theorem move_region_ensures {target : BitVec 32} {source : BitVec 32}
    (filled : Filled origin machine) (aside : SetAside origin machine target npages) :
    Ensures True (moveRegion target source npages) machine
      (fun _ after => Filled origin after ∧ OnlyMemory machine after) (fun _ _ => True) :=
  bind_check (Or.inr trivial) (kernel_write_ensures filled aside)

/-- The frames of the three regions have been set aside. -/
structure RegionsAside (before after : Machine) (space : AddrSpace)
    (pbase1 pbase2 stackpbase : BitVec 32) : Prop where
  first : SetAside before after pbase1 space.asNpages1
  second : SetAside before after pbase2 space.asNpages2
  stack : SetAside before after stackpbase stackPages

theorem RegionsAside.later {first second third : Machine} {pbase1 pbase2 stackpbase : BitVec 32}
    (aside : RegionsAside first second space pbase1 pbase2 stackpbase)
    (grown : Grown second third) : RegionsAside first third space pbase1 pbase2 stackpbase :=
  ⟨aside.first.later grown, aside.second.later grown, aside.stack.later grown⟩

theorem RegionsAside.earlier {first second third : Machine} {pbase1 pbase2 stackpbase : BitVec 32}
    (aside : RegionsAside second third space pbase1 pbase2 stackpbase)
    (grown : Grown first second) : RegionsAside first third space pbase1 pbase2 stackpbase :=
  ⟨aside.first.earlier grown, aside.second.earlier grown, aside.stack.earlier grown⟩

/-- An address space with frames set aside for its regions. -/
def AddrSpace.prepared (space : AddrSpace) (pbase1 pbase2 stackpbase : BitVec 32) : AddrSpace :=
  { space with asPbase1 := pbase1, asPbase2 := pbase2, asStackpbase := stackpbase }

/-- The bases of an address space are page-aligned where it has pages. -/
structure BasesAligned (space : AddrSpace) : Prop where
  pbase1 : space.asNpages1 ≠ 0#32 → space.asPbase1.toNat % pageSize = 0
  pbase2 : space.asNpages2 ≠ 0#32 → space.asPbase2.toNat % pageSize = 0
  stackpbase : space.asStackpbase.toNat % pageSize = 0

/-- The frames `as_prepare_load` sets aside. -/
def AddrSpace.frames (space : AddrSpace) : Nat :=
  space.asNpages1.toNat + (space.asNpages2.toNat + (stackPages.toNat + 0))

/-- `as_prepare_load` out of a free run writes only to frames it has set aside. -/
theorem as_prepare_load_ensures {as : AsPtr}
    (run : FreeRun machine.coremap start (machine.spaces as).frames) :
    Ensures True (asPrepareLoad cur as) machine
      (fun _ after => Filled machine after ∧ ∃ pbase1 pbase2 stackpbase,
        after.spaces = Function.update machine.spaces as
          ((machine.spaces as).prepared pbase1 pbase2 stackpbase) ∧
        BasesAligned ((machine.spaces as).prepared pbase1 pbase2 stackpbase) ∧
        RegionsAside machine after (machine.spaces as) pbase1 pbase2 stackpbase ∧
        takeFrames cur [(machine.spaces as).asNpages1.toNat, (machine.spaces as).asNpages2.toNat,
          stackPages.toNat] machine.coremap = .done PUnit.unit after.coremap)
      (fun _ _ => True) := by
  refine bind_done rfl ?_
  refine bind_check (Or.inr trivial) ?_
  refine Ensures.bind (alloc_region_ensures cur as (fun _ _ => rfl) run) ?_
  rintro _ first ⟨fillsFirst, runFirst, pbase1, spacesFirst, aligned1, aside1, _, allocated1⟩
  refine Ensures.bind (alloc_region_ensures cur as (fun _ _ => rfl) runFirst) ?_
  rintro _ second ⟨fillsSecond, runSecond, pbase2, spacesSecond, aligned2, aside2, _, allocated2⟩
  refine Ensures.bind (alloc_region_ensures cur as (fun _ _ => rfl) runSecond) ?_
  rintro _ third ⟨fillsThird, _, stackpbase, spacesThird, aligned3, aside3, _, allocated3⟩
  have spaces : third.spaces = Function.update machine.spaces as
      ((machine.spaces as).prepared pbase1 pbase2 stackpbase) := by
    rw [spacesThird, spacesSecond, spacesFirst]
    simp only [Function.update_idem, Function.update_self]
    rfl
  have aside : RegionsAside machine third (machine.spaces as) pbase1 pbase2 stackpbase :=
    ⟨(aside1.later fillsSecond.grown).later fillsThird.grown,
      (aside2.earlier fillsFirst.grown).later fillsThird.grown,
      aside3.earlier (fillsFirst.trans fillsSecond).grown⟩
  have filled := ((fillsFirst.trans fillsSecond).trans fillsThird).filled
  refine bind_done (read_space third as) ?_
  rw [spaces, Function.update_self]
  refine Ensures.bind (kernel_write_ensures filled aside.first) ?_
  rintro _ fourth ⟨filledFourth, written4⟩
  refine Ensures.bind (kernel_write_ensures filledFourth (aside.second.later written4.grown)) ?_
  rintro _ fifth ⟨filledFifth, written5⟩
  refine (kernel_write_ensures filledFifth
    (aside.stack.later (written4.trans written5).grown)).weaken ?_ (fun _ _ _ => trivial)
  rintro _ last ⟨filledLast, written6⟩
  have written := (written4.trans written5).trans written6
  refine ⟨filledLast, pbase1, pbase2, stackpbase, written.spaces.trans spaces,
    ⟨aligned1, aligned2, aligned3 (by decide)⟩, aside.later written.grown, ?_⟩
  rw [written.coremap]
  simp only [takeFrames, run_bind_done allocated1, run_bind_done allocated2,
    run_bind_done allocated3]
  rfl

theorem as_create_ensures (run : FreeRun machine.coremap start (13 + rest)) :
    Ensures True (asCreate cur) machine
      (fun as after => Fills machine after ∧ NewBlock machine after as ∧
        FreeRun after.coremap (start + 13) rest ∧
        after.spaces = Function.update machine.spaces as (machine.spaces as).cleared ∧
        allocKpages cur 13 machine.coremap = .done as after.coremap)
      (fun _ _ => True) := by
  refine Ensures.bind (alloc_ensures cur run) ?_
  rintro addr middle ⟨grown, spaces, memory, remains, taken, allocated⟩
  by_cases null : addr = 0#32
  · rw [if_pos null]
    exact ensures_fail trivial
  rw [if_neg null]
  refine bind_done rfl ?_
  have reset := grown_set_space middle addr AddrSpace.cleared (Or.inr rfl)
  refine ensures_pure ⟨fills_of_memory (grown.trans reset) memory,
    ((taken (by decide)).block (by decide)).later reset, remains, ?_, allocated⟩
  simp [spaces]

/-- A new address space is not where another one is. -/
def Elsewhere (machine : Machine) (as : AsPtr) : Prop :=
  ∀ i, i < machine.coremap.size → (machine.coremap.entries i).st = .free →
    as ≠ paddrToKvaddr (machine.coremap.entries i).pa

theorem NewBlock.ne {new as : AsPtr} (block : NewBlock before after new)
    (elsewhere : Elsewhere before as) : as ≠ new := by
  obtain ⟨i, inside, rfl, taken⟩ := block
  exact elsewhere i inside taken.1

/-- The address space `as_copy` makes, before frames are set aside for it. -/
def AddrSpace.copied (space source : AddrSpace) : AddrSpace :=
  { space.cleared with
    asVbase1 := source.asVbase1, asNpages1 := source.asNpages1
    asVbase2 := source.asVbase2, asNpages2 := source.asNpages2 }

/-- What a copy that succeeds has made. -/
structure Copied (before after : Machine) (old new : AsPtr) : Prop where
  grown : Grown before after
  block : NewBlock before after new
  prepared : ∃ pbase1 pbase2 stackpbase, after.spaces = Function.update before.spaces new
    (((before.spaces new).copied (before.spaces old)).prepared pbase1 pbase2 stackpbase)
  aligned : BasesAligned (after.spaces new)
  based : (after.spaces new).asPbase1 ≠ 0#32 ∧ (after.spaces new).asPbase2 ≠ 0#32 ∧
    (after.spaces new).asStackpbase ≠ 0#32
  taken : takeFrames (some old) [13, (before.spaces old).asNpages1.toNat,
    (before.spaces old).asNpages2.toNat, stackPages.toNat] before.coremap =
      .done PUnit.unit after.coremap

/-- `as_copy` out of a free run writes only to frames it has taken. -/
theorem as_copy_ensures {old : AsPtr} (elsewhere : Elsewhere machine old)
    (run : FreeRun machine.coremap start (13 + (machine.spaces old).frames)) :
    Ensures True (asCopy old) machine
      (fun new after => Copied machine after old new ∧ Filled machine after) (fun _ _ => True) := by
  refine Ensures.bind (as_create_ensures (some old) run) ?_
  rintro new first ⟨fillsFirst, block, runFirst, spacesFirst, created⟩
  have different : old ≠ new := block.ne elsewhere
  have source : first.spaces old = machine.spaces old := by
    rw [spacesFirst, Function.update_of_ne different]
  have target : first.spaces new = (machine.spaces new).cleared := by
    rw [spacesFirst, Function.update_self]
  let define (space : AddrSpace) : AddrSpace := { space with
    asVbase1 := (first.spaces old).asVbase1, asNpages1 := (first.spaces old).asNpages1
    asVbase2 := (first.spaces old).asVbase2, asNpages2 := (first.spaces old).asNpages2 }
  let second : Machine := { first with
    spaces := Function.update first.spaces new (define (first.spaces new)) }
  have defined : second.spaces new = (machine.spaces new).copied (machine.spaces old) := by
    show Function.update first.spaces new (define (first.spaces new)) new = _
    rw [Function.update_self, target]
    show AddrSpace.copied (machine.spaces new) (first.spaces old) = _
    rw [source]
  have fillsSecond : Fills first second :=
    fills_of_memory (grown_set_space first new define (Or.inl rfl)) rfl
  have filledSecond := (fillsFirst.trans fillsSecond).filled
  refine bind_done (read_space first old) ?_
  refine bind_done rfl ?_
  have runSecond : FreeRun second.coremap (start + 13) (second.spaces new).frames := by
    rw [defined]
    exact runFirst
  refine attempt_bind (as_prepare_load_ensures (some old) runSecond) ?_ ?_
  · rintro _ third ⟨filledThird, pbase1, pbase2, stackpbase, spacesThird, aligned, asideThird, taken⟩
    have filled := filledSecond.trans filledThird
    have aside := asideThird.earlier filledSecond.grown
    rw [defined] at aligned aside taken
    refine bind_done (read_space third new) ?_
    have final : third.spaces = Function.update machine.spaces new
        (((machine.spaces new).copied (machine.spaces old)).prepared pbase1 pbase2 stackpbase) := by
      rw [spacesThird, defined]
      show Function.update (Function.update first.spaces new _) new _ = _
      rw [Function.update_idem, spacesFirst, Function.update_idem]
    have own : third.spaces new =
        ((machine.spaces new).copied (machine.spaces old)).prepared pbase1 pbase2 stackpbase := by
      rw [final, Function.update_self]
    by_cases based : (third.spaces new).asPbase1 ≠ 0#32 ∧ (third.spaces new).asPbase2 ≠ 0#32 ∧
        (third.spaces new).asStackpbase ≠ 0#32
    · refine bind_done (check_passes based) ?_
      rw [own, source]
      refine Ensures.bind (move_region_ensures filled aside.first) ?_
      rintro _ fourth ⟨filledFourth, written4⟩
      refine Ensures.bind (move_region_ensures filledFourth (aside.second.later written4.grown)) ?_
      rintro _ fifth ⟨filledFifth, written5⟩
      refine Ensures.bind (move_region_ensures filledFifth
        (aside.stack.later (written4.trans written5).grown)) ?_
      rintro _ last ⟨filledLast, written6⟩
      have written := (written4.trans written5).trans written6
      have later := (fillsSecond.grown.trans filledThird.grown).trans written.grown
      refine ensures_pure ⟨⟨filledLast.grown, block.later later,
        ⟨pbase1, pbase2, stackpbase, written.spaces.trans final⟩, ?_, ?_, ?_⟩, filledLast⟩
      · rw [written.spaces, own]
        exact aligned
      · rw [written.spaces]
        exact based
      · rw [takeFrames, run_bind_done created, written.coremap]
        exact taken
    · constructor
      simp only [bind, andThen, check, based, if_false]
      trivial
  · intro error third _
    refine Ensures.bind (ensures_anything _ third) (fun _ fourth _ => ?_)
    exact ensures_fail trivial

/-- Two regions defined in a new address space have no more pages than were asked for. -/
theorem defined_frames {defined : AddrSpace} {vaddr1 sz1 vaddr2 sz2 : BitVec 32}
    (define : (asDefineRegion space.cleared vaddr1 sz1).bind
      (fun space => asDefineRegion space vaddr2 sz2) = some defined) :
    defined.ptable = (fun _ => emptySlot) ∧ defined.frames ≤
      (regionPages vaddr1 sz1).toNat + (regionPages vaddr2 sz2).toNat + stackPages.toNat := by
  have first : asDefineRegion space.cleared vaddr1 sz1 = some { space.cleared with
      asVbase1 := vaddr1 &&& pageFrame, asNpages1 := regionPages vaddr1 sz1 } := by
    simp [asDefineRegion, AddrSpace.cleared]
  rw [first, Option.bind_some] at define
  by_cases null : vaddr1 &&& pageFrame = 0#32
  · simp only [asDefineRegion, null, if_true, Option.some.injEq] at define
    subst define
    refine ⟨rfl, ?_⟩
    simp only [AddrSpace.frames, AddrSpace.cleared, BitVec.toNat_zero]
    omega
  · simp only [asDefineRegion, null, if_false, AddrSpace.cleared, if_true, Option.some.injEq] at define
    subst define
    refine ⟨rfl, ?_⟩
    simp only [AddrSpace.frames]
    omega

/-- A program is loaded out of a free run. -/
theorem load_regions_ensures {as : AsPtr} {vaddr1 sz1 vaddr2 sz2 : BitVec 32}
    (fresh : machine.spaces as = space.cleared) (run : FreeRun machine.coremap start
      ((regionPages vaddr1 sz1).toNat + (regionPages vaddr2 sz2).toNat + stackPages.toNat)) :
    Ensures True (loadRegions as vaddr1 sz1 vaddr2 sz2) machine (fun _ => Filled machine)
      (fun _ _ => True) := by
  refine bind_done (read_space machine as) ?_
  rw [fresh]
  cases define : (asDefineRegion space.cleared vaddr1 sz1).bind
      (fun space => asDefineRegion space vaddr2 sz2) with
  | none => exact ensures_fail trivial
  | some defined =>
    obtain ⟨table, few⟩ := defined_frames define
    refine bind_done rfl ?_
    have grown := grown_set_space machine as (fun _ => defined) (Or.inr table)
    have runDefined : FreeRun machine.coremap start
        ((Function.update machine.spaces as defined) as).frames := by
      rw [Function.update_self]
      exact ⟨by have := run.1; omega, fun k above below => run.2 k above (by omega)⟩
    refine (as_prepare_load_ensures (some as) runDefined).on_return ?_
    rintro _ after ⟨filled, _⟩
    exact (fills_of_memory grown rfl).filled.trans filled

/-- Starting a program out of a free run writes only to frames that have been taken for it. -/
theorem load_space_ensures {vaddr1 sz1 vaddr2 sz2 : BitVec 32}
    (run : FreeRun machine.coremap start (13 +
      ((regionPages vaddr1 sz1).toNat + (regionPages vaddr2 sz2).toNat + stackPages.toNat))) :
    Ensures True (loadSpace cur vaddr1 sz1 vaddr2 sz2) machine
      (fun as after => Filled machine after ∧ NewBlock machine after as) (fun _ _ => True) := by
  refine Ensures.bind (as_create_ensures cur run) ?_
  rintro as created ⟨fills, block, runLeft, spaces, _⟩
  refine Ensures.bind (load_regions_ensures (spaces ▸ Function.update_self as _ _) runLeft) ?_
  intro _ after filled
  exact ensures_pure ⟨fills.filled.trans filled, block.later filled.grown⟩

end

end Os161.Vm
