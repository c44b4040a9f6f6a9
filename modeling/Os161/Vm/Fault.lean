import Os161.Vm.Bootstrap

/-!
# Page faults

Every address space has a page table of its own: an unordered list of pages with the
frames they are in. `vm_fault` looks for the page in it, and for a coremap entry that
names the page; then it loads the frame the page table has into the TLB. Otherwise it
takes a table slot and a frame: a free one, or else any frame that is not the address
space's own, without telling whoever had it. When the table is full, or every frame is
its own already, it falls back on the contiguous frames `as_prepare_load` has set
aside.

The coremap, the page tables and the TLB are separate, and this module follows them
over runs of faults and of kernel allocations.
-/
namespace Os161.Vm

open Os161.Library Os161.Library.Program Os161.Library.Runs Function

abbrev pageFrame : BitVec 32 := 0xfffff000#32

abbrev tlbloDirty : BitVec 32 := 0x400#32

abbrev tlbloValid : BitVec 32 := 0x200#32

abbrev numTlb : Nat := 64

abbrev ptableSize : Nat := 4096

abbrev userStack : BitVec 32 := mipsKseg0

/-- `DUMBVM_STACKPAGES`. -/
abbrev stackPages : BitVec 32 := 18#32

/-- `struct page_table_entry`. -/
structure PageTableEntry where
  va : BitVec 32
  pa : BitVec 32
  valid : Bool

/-- A slot of a page table as `as_create` leaves it. -/
def emptySlot : PageTableEntry where
  va := 0xdeadbeef#32
  pa := 0xdeadbeef#32
  valid := false

/-- `struct addrspace`, without the unused `pages`. -/
structure AddrSpace where
  asVbase1 : BitVec 32
  asPbase1 : BitVec 32
  asNpages1 : BitVec 32
  asVbase2 : BitVec 32
  asPbase2 : BitVec 32
  asNpages2 : BitVec 32
  asHeapstart : BitVec 32
  asHeapend : BitVec 32
  asStackpbase : BitVec 32
  ptable : Nat → PageTableEntry

/-- The two words of a TLB entry. -/
structure TlbEntry where
  ehi : BitVec 32
  elo : BitVec 32

/-- Memory management as a whole: the coremap, the address spaces by their addresses,
the TLB, and physical memory. -/
structure Machine where
  coremap : Coremap
  spaces : AsPtr → AddrSpace
  tlb : Nat → TlbEntry
  memory : BitVec 32 → BitVec 8

/-- The programs of the virtual memory system. -/
abbrev VmProgram (Value : Type) : Type := Program Halt Errno Machine Value

/-- The fault types the trap handler passes on, and anything else. -/
inductive FaultType
  | read
  | write
  | readonly
  | other

/-- The assertions of `vm_fault` on an address space. -/
def AddrSpace.SetUp (space : AddrSpace) : Prop :=
  space.asVbase1 ≠ 0#32 ∧ space.asPbase1 ≠ 0#32 ∧ space.asNpages1 ≠ 0#32 ∧
    space.asVbase2 ≠ 0#32 ∧ space.asPbase2 ≠ 0#32 ∧ space.asNpages2 ≠ 0#32 ∧
    space.asStackpbase ≠ 0#32 ∧
    space.asVbase1 &&& pageFrame = space.asVbase1 ∧
    space.asPbase1 &&& pageFrame = space.asPbase1 ∧
    space.asVbase2 &&& pageFrame = space.asVbase2 ∧
    space.asPbase2 &&& pageFrame = space.asPbase2 ∧
    space.asStackpbase &&& pageFrame = space.asStackpbase

instance (space : AddrSpace) : Decidable space.SetUp :=
  inferInstanceAs (Decidable (_ ∧ _))

/-- The place of a page in the contiguous frames of its region, if it is in one. -/
def AddrSpace.regionPaddr (space : AddrSpace) (page : BitVec 32) : Option (BitVec 32) :=
  let vtop1 := space.asVbase1 + space.asNpages1 * 4096#32
  let vtop2 := space.asVbase2 + space.asNpages2 * 4096#32
  let stackbase := userStack - stackPages * 4096#32
  if page ≥ space.asVbase1 ∧ page < vtop1 then
    some ((page - space.asVbase1) + space.asPbase1)
  else if page ≥ space.asVbase2 ∧ page < vtop2 then
    some ((page - space.asVbase2) + space.asPbase2)
  else if page ≥ stackbase ∧ page < userStack then
    some ((page - stackbase) + space.asStackpbase)
  else none

/-- The coremap has an entry for a page of an address space. -/
def present (coremap : Coremap) (as : AsPtr) (page : BitVec 32) : Bool :=
  (List.range coremap.size).any (fun j =>
    decide ((coremap.entries j).as = some as) && decide ((coremap.entries j).va = page))

/-- The first loop of `vm_fault`: the first slot with the page, when the coremap has the
page too. -/
def lookup (machine : Machine) (as : AsPtr) (page : BitVec 32) : Option Nat :=
  (List.range ptableSize).find? (fun i =>
    decide (((machine.spaces as).ptable i).va = page) && present machine.coremap as page)

/-- The frame a new page gets: the first free one, frame 0 apart, or else the first that
is not the address space's own. -/
def pickFrame (coremap : Coremap) (as : AsPtr) : Option Nat :=
  match (List.range' 1 (coremap.size - 1)).find?
      (fun j => decide ((coremap.entries j).st = .free)) with
  | some j => some j
  | none => (List.range coremap.size).find? (fun j => decide ((coremap.entries j).as ≠ some as))

/-- Fill a slot of a page table. -/
def Machine.setSlot (machine : Machine) (as : AsPtr) (i : Nat) (entry : PageTableEntry) : Machine :=
  { machine with
    spaces := update machine.spaces as { machine.spaces as with
      ptable := update (machine.spaces as).ptable i entry } }

/-- `tlb_write`, and `tlb_random` at the slot the hardware chooses. -/
def Machine.setTlb (machine : Machine) (slot : Nat) (page pa : BitVec 32) : Machine :=
  { machine with
    tlb := update machine.tlb slot { ehi := page, elo := pa ||| tlbloDirty ||| tlbloValid } }

/-- A new page in a slot and a frame, and in the TLB. -/
def Machine.place (machine : Machine) (as : AsPtr) (page : BitVec 32) (i j slot : Nat) : Machine :=
  ({ machine.setSlot as i { va := page, pa := (machine.coremap.entries j).pa, valid := true } with
    coremap := machine.coremap.assign j (some as) page .dirty }).setTlb slot page
      (machine.coremap.entries j).pa

attribute [local simp] Machine.setTlb Machine.place Machine.setSlot Coremap.assign

/-- The second loop of `vm_fault`, for so many slots from one on. A slot that is not in
use is taken even if there is no frame for it. The result is the frame. -/
def newEntry (as : AsPtr) (page : BitVec 32) (slot : Nat) : Nat → Nat → VmProgram (Option (BitVec 32))
  | 0, _ => pure none
  | rounds + 1, i => do
    let machine ← inspect id
    if ((machine.spaces as).ptable i).valid then newEntry as page slot rounds (i + 1)
    else
      match pickFrame machine.coremap as with
      | some j => do
        change (fun machine => machine.place as page i j slot)
        pure (some (machine.coremap.entries j).pa)
      | none => do
        change (fun machine => machine.setSlot as i
          { va := page, pa := ((machine.spaces as).ptable i).pa, valid := true })
        newEntry as page slot rounds (i + 1)

/-- The end of `vm_fault`: the contiguous frame of the page, in a TLB entry that is not
valid. -/
def fallBack (page paddr : BitVec 32) : VmProgram (BitVec 32) := do
  let machine ← inspect id
  match (List.range numTlb).find? (fun i => decide ((machine.tlb i).elo &&& tlbloValid = 0#32)) with
  | some i => do
    change (fun machine => machine.setTlb i page paddr)
    pure paddr
  | none => failWith .EFAULT

/-- `vm_fault` for a process with an address space. -/
def userFault (as : AsPtr) (page : BitVec 32) (slot : Nat) : VmProgram (BitVec 32) := do
  let machine ← inspect id
  check (machine.spaces as).SetUp .assertion
  match (machine.spaces as).regionPaddr page with
  | none => failWith .EFAULT
  | some paddr => do
    check (paddr &&& pageFrame = paddr) .assertion
    match lookup machine as page with
    | some i => do
      change (fun machine => machine.setTlb slot page ((machine.spaces as).ptable i).pa)
      pure ((machine.spaces as).ptable i).pa
    | none => do
      match ← newEntry as page slot ptableSize 0 with
      | some pa => pure pa
      | none => fallBack page paddr

/-- `vm_fault` for a process without an address space: whatever frame has the page. -/
def kernelFault (page : BitVec 32) (slot : Nat) : VmProgram (BitVec 32) := do
  let machine ← inspect id
  match (List.range machine.coremap.size).find?
      (fun i => decide ((machine.coremap.entries i).va = page)) with
  | some i => do
    change (fun machine => machine.setTlb slot page (machine.coremap.entries i).pa)
    pure (machine.coremap.entries i).pa
  | none => failWith .EFAULT

/-- `vm_fault`, given the address space of the current process, if there is one. Where
the source returns zero the result is the frame of the translation it has installed. -/
def vmFault (faulttype : FaultType) (faultaddress : BitVec 32) (cur : Option (Option AsPtr))
    (slot : Nat) : VmProgram (BitVec 32) :=
  match faulttype with
  | .readonly => stopWith .panic
  | .other => failWith .EINVAL
  | .read | .write =>
    match cur with
    | none => failWith .EFAULT
    | some none => kernelFault (faultaddress &&& pageFrame) slot
    | some (some as) => userFault as (faultaddress &&& pageFrame) slot

variable {machine after : Machine} {as : AsPtr} {pa page address paddr : BitVec 32} {slot j i : Nat}

/-- Without a frame to give there is no new entry, and with one the first slot that is
not in use gets it. -/
theorem new_entry_placed (page : BitVec 32) {k : Nat} (slot rounds i : Nat) (above : i ≤ k)
    (below : k < i + rounds) (unused : ((machine.spaces as).ptable k).valid = false)
    (earlier : ∀ m, i ≤ m → m < k → ((machine.spaces as).ptable m).valid = true)
    (picked : pickFrame machine.coremap as = some j) :
    newEntry as page slot rounds i machine =
      .done (some (machine.coremap.entries j).pa) (machine.place as page k j slot) := by
  induction rounds generalizing i with
  | zero => omega
  | succ rounds ih =>
    obtain rfl | here := eq_or_ne i k
    · simp only [newEntry, inspect, bind, andThen, id, unused, Bool.false_eq_true, if_false, picked,
        change]
      rfl
    · have used := earlier i (Nat.le_refl _) (by omega)
      simp only [newEntry, inspect, bind, andThen, id, used, if_true]
      exact ih (i + 1) (by omega) (by omega) (fun m from_next => earlier m (by omega))

/-- The first slot of a page table that is not in use. -/
def FirstUnused (space : AddrSpace) (i : Nat) : Prop :=
  i < ptableSize ∧ (space.ptable i).valid = false ∧
    ∀ m, m < i → (space.ptable m).valid = true

/-- A page table is full or has a first slot that is not in use. -/
theorem full_or_first_unused (space : AddrSpace) :
    (∀ m, m < ptableSize → (space.ptable m).valid = true) ∨ ∃ i, FirstUnused space i := by
  cases found : (List.range ptableSize).find? (fun i => !(space.ptable i).valid) with
  | none =>
    left
    intro m below
    simpa using List.find?_eq_none.mp found m (List.mem_range.mpr below)
  | some i =>
    right
    obtain ⟨unused, member, earlier⟩ := List.find?_range_eq_some.mp found
    exact ⟨i, List.mem_range.mp member, by simpa using unused,
      fun m below => by simpa using earlier m below⟩

section

variable (slot : Nat) (setUp : (machine.spaces as).SetUp)
  (region : (machine.spaces as).regionPaddr page = some paddr)
  (aligned : paddr &&& pageFrame = paddr)

include setUp region aligned

/-- A fault on a page that is in the page table and in the coremap. -/
theorem user_fault_hit (found : lookup machine as page = some i) :
    userFault as page slot machine = .done ((machine.spaces as).ptable i).pa
      (machine.setTlb slot page ((machine.spaces as).ptable i).pa) := by
  simp only [userFault, inspect, bind, andThen, id, check, setUp, if_true, region, aligned, found,
    change]
  rfl

/-- A fault on a new page for which there are a slot and a frame. -/
theorem user_fault_placed (missing : lookup machine as page = none)
    (unused : FirstUnused (machine.spaces as) i) (picked : pickFrame machine.coremap as = some j) :
    userFault as page slot machine =
      .done (machine.coremap.entries j).pa (machine.place as page i j slot) := by
  have placed := new_entry_placed page slot ptableSize 0 (Nat.zero_le _)
    (by have := unused.1; omega) unused.2.1 (fun m _ below => unused.2.2 m below) picked
  simp only [userFault, inspect, bind, andThen, id, check, setUp, if_true, region, aligned, missing,
    placed]
  rfl

end

/-- A fault that succeeds has passed the assertions and has found the page's region. -/
theorem user_fault_checks (faulted : userFault as page slot machine = .done pa after) :
    (machine.spaces as).SetUp ∧ ∃ paddr, (machine.spaces as).regionPaddr page = some paddr ∧
      paddr &&& pageFrame = paddr := by
  by_cases setUp : (machine.spaces as).SetUp
  · cases region : (machine.spaces as).regionPaddr page with
    | none =>
      simp only [userFault, inspect, bind, andThen, id, check, setUp, if_true, region] at faulted
      cases faulted
    | some paddr =>
      refine ⟨setUp, paddr, rfl, by_contra fun unaligned => ?_⟩
      simp only [userFault, inspect, bind, andThen, id, check, setUp, if_true, region, unaligned,
        if_false] at faulted
      cases faulted
  · simp only [userFault, inspect, bind, andThen, id, check, setUp, if_false] at faulted
    cases faulted

/-- What a fault that succeeds has done: it has found the page, it has placed it, or it
has fallen back because there was no slot or no frame. -/
theorem user_fault_cases (as : AsPtr) {page : BitVec 32} (pa : BitVec 32) (slot : Nat)
    (machine after : Machine)
    (faulted : userFault as page slot machine = .done pa after) :
    (∃ i, lookup machine as page = some i ∧ pa = ((machine.spaces as).ptable i).pa ∧
      after = machine.setTlb slot page pa) ∨
    (∃ i j, lookup machine as page = none ∧ FirstUnused (machine.spaces as) i ∧
      pickFrame machine.coremap as = some j ∧ pa = (machine.coremap.entries j).pa ∧
      after = machine.place as page i j slot) ∨
    (lookup machine as page = none ∧ (pickFrame machine.coremap as = none ∨
      ∀ m, m < ptableSize → ((machine.spaces as).ptable m).valid = true)) := by
  obtain ⟨setUp, paddr, region, aligned⟩ := user_fault_checks faulted
  cases found : lookup machine as page with
  | some i =>
    rw [user_fault_hit slot setUp region aligned found] at faulted
    obtain ⟨same_pa, same_after⟩ := Outcome.done.inj faulted
    exact Or.inl ⟨i, rfl, same_pa.symm, by rw [← same_after, same_pa]⟩
  | none =>
    cases picked : pickFrame machine.coremap as with
    | none => exact Or.inr (Or.inr ⟨rfl, Or.inl rfl⟩)
    | some j =>
      rcases full_or_first_unused (machine.spaces as) with full | ⟨i, unused⟩
      · exact Or.inr (Or.inr ⟨rfl, Or.inr full⟩)
      · rw [user_fault_placed slot setUp region aligned found unused picked] at faulted
        obtain ⟨same_pa, same_after⟩ := Outcome.done.inj faulted
        exact Or.inr (Or.inl ⟨i, j, rfl, unused, rfl, same_pa.symm, same_after.symm⟩)

/-- Memory management with a record of what has happened: which frames `alloc_kpages`
has handed out, and the address space, page and frame of the translation the last call
has installed, if it was a fault. -/
structure System where
  machine : Machine
  handed : Nat → Bool
  installed : Option (AsPtr × BitVec 32 × BitVec 32)

variable {system : System}

/-- A page fault of an address space, at a TLB slot the hardware chooses, or an
allocation by the kernel. -/
inductive Action
  | vmFault (faulttype : FaultType) (faultaddress : BitVec 32) (as : AsPtr) (slot : Nat)
  | allocKpages (cur : Option AsPtr) (npages : Nat)

/-- The frames an allocation has taken are handed out. -/
def handOut (handed : Nat → Bool) (before after : Coremap) (k : Nat) : Bool :=
  handed k || (decide ((before.entries k).st = .free) && decide ((after.entries k).st ≠ .free))

/-- A fault that succeeds, or an allocation that returns. -/
def next (system : System) : Action → Option System
  | .vmFault faulttype faultaddress as slot =>
    match vmFault faulttype faultaddress (some (some as)) slot system.machine with
    | .done pa after => some { system with
        machine := after
        installed := some (as, faultaddress &&& pageFrame, pa) }
    | _ => none
  | .allocKpages cur npages =>
    match allocKpages cur npages system.machine.coremap with
    | .done _ after => some {
        machine := { system.machine with coremap := after }
        handed := handOut system.handed system.machine.coremap after
        installed := none }
    | _ => none

/-- The coremap as `vm_bootstrap` leaves it, empty page tables, and an empty TLB. -/
def Initial (system : System) : Prop :=
  Fresh system.machine.coremap ∧ (∀ as i, (system.machine.spaces as).ptable i = emptySlot) ∧
    (∀ slot, (system.machine.tlb slot).elo &&& tlbloValid = 0#32) ∧
    (∀ k, system.handed k = false) ∧ system.installed = none

/-- A translation a later fault on an address would install from the page table. -/
def Usable (machine : Machine) (as : AsPtr) (address pa : BitVec 32) : Prop :=
  lookup machine as (address &&& pageFrame) ≠ none ∧
    ∃ slot after, vmFault .read address (some (some as)) slot machine = .done pa after

/-- Address spaces are isolated: a translation that has just been installed goes to a
frame whose coremap entry names the address space and the page; no translation in the
TLB and no usable one goes to a frame the kernel has been handed; and no two address
spaces have usable translations to the same frame. -/
structure Isolated (system : System) : Prop where
  named : ∀ as page pa, system.installed = some (as, page, pa) →
    ∃ j, j < system.machine.coremap.size ∧ (system.machine.coremap.entries j).pa = pa ∧
      (system.machine.coremap.entries j).as = some as ∧
      (system.machine.coremap.entries j).va = page
  unmapped : ∀ k slot, system.handed k = true →
    (system.machine.tlb slot).elo &&& tlbloValid ≠ 0#32 →
    (system.machine.tlb slot).elo &&& pageFrame ≠ (system.machine.coremap.entries k).pa
  unusable : ∀ k as address pa, system.handed k = true → Usable system.machine as address pa →
    pa ≠ (system.machine.coremap.entries k).pa
  apart : ∀ first second address other pa otherPa, first ≠ second →
    Usable system.machine first address pa → Usable system.machine second other otherPa →
    pa ≠ otherPa

/-- A fault with room: it finds its page, or a free frame other than frame 0 and a slot that is
not in use. -/
def FaultRoom (machine : Machine) (as : AsPtr) (page : BitVec 32) : Prop :=
  lookup machine as page = none →
    (∃ j, 1 ≤ j ∧ j < machine.coremap.size ∧ (machine.coremap.entries j).st = .free) ∧
    ∃ i, i < ptableSize ∧ ((machine.spaces as).ptable i).valid = false

/-- A step has room: a fault has, or an allocation finds a run of free entries or a map that
does not end with one. -/
def Roomy (system : System) : Action → Prop
  | .vmFault _ faultaddress as _ => FaultRoom system.machine as (faultaddress &&& pageFrame)
  | .allocKpages _ npages => HasRoom system.machine.coremap npages

/-- A frame that a page of an address space is in. -/
structure Holding (system : System) (as : AsPtr) (page pa : BitVec 32) (j : Nat) : Prop where
  inside : j < system.machine.coremap.size
  pa : (system.machine.coremap.entries j).pa = pa
  as : (system.machine.coremap.entries j).as = some as
  va : (system.machine.coremap.entries j).va = page
  used : (system.machine.coremap.entries j).st ≠ .free
  kept : system.handed j = false

/-- The invariant of runs with room. -/
structure Coherent (system : System) : Prop where
  backed : ∀ as i, ((system.machine.spaces as).ptable i).valid = true →
    ∃ j, Holding system as ((system.machine.spaces as).ptable i).va
      ((system.machine.spaces as).ptable i).pa j
  marked : ∀ as i, ((system.machine.spaces as).ptable i).valid = false →
    ((system.machine.spaces as).ptable i).va = 0xdeadbeef#32
  cached : ∀ slot, (system.machine.tlb slot).elo &&& tlbloValid ≠ 0#32 →
    ∃ as page j, Holding system as page ((system.machine.tlb slot).elo &&& pageFrame) j
  handed : ∀ k, system.handed k = true → k < system.machine.coremap.size ∧
    (system.machine.coremap.entries k).st ≠ .free
  installed : ∀ as page pa, system.installed = some (as, page, pa) →
    ∃ j, Holding system as page pa j

/-- A page address is never the mark of an unused slot. -/
theorem masked_ne_deadbeef (address : BitVec 32) : address &&& pageFrame ≠ 0xdeadbeef#32 := by
  intro same
  have again : address &&& pageFrame &&& pageFrame = address &&& pageFrame := by
    rw [BitVec.and_assoc, BitVec.and_self]
  rw [same] at again
  exact absurd again (by decide)

theorem offset_toNat (address : BitVec 32) :
    (address &&& ~~~pageFrame).toNat = address.toNat % 4096 := by
  exact Nat.and_two_pow_sub_one_eq_mod address.toNat 12

/-- An address is the base of its page and an offset. -/
theorem masked_toNat (address : BitVec 32) :
    (address &&& pageFrame).toNat = address.toNat / 4096 * 4096 := by
  have split : (address &&& pageFrame) + (address &&& ~~~pageFrame) = address := by
    rw [BitVec.add_eq_or_of_and_eq_zero, ← BitVec.and_or_distrib_left,
      show pageFrame ||| ~~~pageFrame = BitVec.allOnes 32 by decide, BitVec.and_allOnes]
    rw [BitVec.and_comm address, BitVec.and_assoc, ← BitVec.and_assoc address, BitVec.and_self,
      BitVec.and_comm address, ← BitVec.and_assoc, show pageFrame &&& ~~~pageFrame = 0#32 by decide,
      BitVec.zero_and]
  have sum := congrArg BitVec.toNat split
  rw [BitVec.toNat_add, offset_toNat] at sum
  omega

theorem page_frame_of_aligned {pa : BitVec 32} (aligned : pa.toNat % pageSize = 0) :
    pa &&& pageFrame = pa := by
  refine BitVec.eq_of_toNat_eq ?_
  rw [masked_toNat]
  unfold pageSize at aligned
  omega

/-- The TLB entry of a frame is valid and has the frame's address. -/
theorem tlb_word (aligned : pa.toNat % pageSize = 0) :
    (pa ||| tlbloDirty ||| tlbloValid) &&& pageFrame = pa := by
  have dirty : tlbloDirty &&& pageFrame = 0#32 := by decide
  have valid : tlbloValid &&& pageFrame = 0#32 := by decide
  rw [BitVec.and_or_distrib_right, BitVec.and_or_distrib_right, dirty, valid,
    page_frame_of_aligned aligned, BitVec.or_zero, BitVec.or_zero]

/-- A page that is found is in a valid slot, so it is in a frame. -/
theorem Coherent.found (coherent : Coherent system) (as : AsPtr) (address : BitVec 32) (i : Nat)
    (found : lookup system.machine as (address &&& pageFrame) = some i) :
    ∃ j, Holding system as (address &&& pageFrame) ((system.machine.spaces as).ptable i).pa j := by
  have matched : ((system.machine.spaces as).ptable i).va = address &&& pageFrame := by
    have found := (List.find?_range_eq_some.mp found).1
    simp only [Bool.and_eq_true, decide_eq_true_eq] at found
    exact found.1
  cases valid : ((system.machine.spaces as).ptable i).valid with
  | false =>
    have mark := coherent.marked as i valid
    rw [matched] at mark
    exact absurd mark (masked_ne_deadbeef address)
  | true =>
    obtain ⟨j, holding⟩ := coherent.backed as i valid
    rw [matched] at holding
    exact ⟨j, holding⟩

/-- A usable translation goes to a frame the page is in. -/
theorem Coherent.usable (coherent : Coherent system)
    (usable : Usable system.machine as address pa) :
    ∃ j, Holding system as (address &&& pageFrame) pa j := by
  obtain ⟨found, slot, after, faulted⟩ := usable
  rcases user_fault_cases as pa slot system.machine after faulted with
    ⟨i, found, same, _⟩ | ⟨_, _, missing, _⟩ | ⟨missing, _⟩
  · rw [same]
    exact coherent.found as address i found
  · exact absurd missing found
  · exact absurd missing found

/-- Usable translations go to frames whose entries name the space, so spaces are isolated. -/
theorem Coherent.isolated (coherent : Coherent system) : Isolated system where
  named := by
    intro as page pa installed
    obtain ⟨j, holding⟩ := coherent.installed as page pa installed
    exact ⟨j, holding.inside, holding.pa, holding.as, holding.va⟩
  unmapped := by
    intro k slot handed valid same
    obtain ⟨as, page, j, holding⟩ := coherent.cached slot valid
    have equal := system.machine.coremap.distinct j k holding.inside (coherent.handed k handed).1
      (holding.pa.trans same)
    rw [← equal, holding.kept] at handed
    cases handed
  unusable := by
    intro k as address pa handed usable same
    obtain ⟨j, holding⟩ := coherent.usable usable
    have equal := system.machine.coremap.distinct j k holding.inside (coherent.handed k handed).1
      (holding.pa.trans same)
    rw [← equal, holding.kept] at handed
    cases handed
  apart := by
    intro first second address other pa otherPa different usable usableOther same
    obtain ⟨j, holding⟩ := coherent.usable usable
    obtain ⟨k, holdingOther⟩ := coherent.usable usableOther
    have equal := system.machine.coremap.distinct j k holding.inside holdingOther.inside
      ((holding.pa.trans same).trans holdingOther.pa.symm)
    subst equal
    exact different (Option.mem_unique holding.as holdingOther.as)

/-- With a free frame other than frame 0 the frame that is picked is free. -/
theorem pick_frame_free {coremap : Coremap} (as : AsPtr) {free : Nat} (above : 1 ≤ free)
    (inside : free < coremap.size) (is_free : (coremap.entries free).st = .free) :
    ∃ j, pickFrame coremap as = some j ∧ 1 ≤ j ∧ j < coremap.size ∧
      (coremap.entries j).st = .free := by
  cases found : (List.range' 1 (coremap.size - 1)).find?
      (fun j => decide ((coremap.entries j).st = .free)) with
  | none =>
    have missed := List.find?_range'_eq_none.mp found free above (by omega)
    simp [is_free] at missed
  | some j =>
    obtain ⟨chosen, member, _⟩ := List.find?_range'_eq_some.mp found
    have range := List.mem_range'_1.mp member
    refine ⟨j, ?_, range.1, by omega, by simpa using chosen⟩
    unfold pickFrame
    rw [found]

/-- A page stays in its frame when neither the entry of the frame nor who has it
changes. -/
theorem Holding.kept_by {after : System} (holding : Holding system as page pa j)
    (size : after.machine.coremap.size = system.machine.coremap.size)
    (entry : after.machine.coremap.entries j = system.machine.coremap.entries j)
    (handed : after.handed j = system.handed j) : Holding after as page pa j where
  inside := by
    rw [size]
    exact holding.inside
  pa := by
    rw [entry]
    exact holding.pa
  as := by
    rw [entry]
    exact holding.as
  va := by
    rw [entry]
    exact holding.va
  used := by
    rw [entry]
    exact holding.used
  kept := by
    rw [handed]
    exact holding.kept

/-- Loading the translation of a page that is in a frame. -/
theorem Coherent.refilled (coherent : Coherent system) (slot : Nat)
    (holding : Holding system as page pa j) :
    Coherent { system with
      machine := system.machine.setTlb slot page pa, installed := some (as, page, pa) } where
  backed := by
    intro other i valid
    obtain ⟨k, held⟩ := coherent.backed other i valid
    exact ⟨k, held.kept_by rfl rfl rfl⟩
  marked := coherent.marked
  cached := by
    intro other valid
    obtain rfl | same := eq_or_ne other slot
    · have aligned : pa.toNat % pageSize = 0 := by
        rw [← holding.pa]
        exact system.machine.coremap.aligned j holding.inside
      refine ⟨as, page, j, ?_⟩
      simp only [Machine.setTlb, update_self, tlb_word aligned]
      exact holding.kept_by rfl rfl rfl
    · simp only [Machine.setTlb, update_of_ne same] at valid ⊢
      obtain ⟨owner, cachedPage, k, held⟩ := coherent.cached other valid
      exact ⟨owner, cachedPage, k, held.kept_by rfl rfl rfl⟩
  handed := coherent.handed
  installed := by
    intro owner other frame same
    cases same
    exact ⟨j, holding.kept_by rfl rfl rfl⟩

/-- A page put into a free frame keeps the system coherent. -/
theorem Coherent.placed (coherent : Coherent system) (as : AsPtr) (page : BitVec 32) (i slot : Nat)
    (inside : j < system.machine.coremap.size)
    (free : (system.machine.coremap.entries j).st = .free) :
    Coherent { system with
      machine := system.machine.place as page i j slot,
      installed := some (as, page, (system.machine.coremap.entries j).pa) } := by
  have unhanded : system.handed j = false := by
    cases handed : system.handed j with
    | false => rfl
    | true => exact absurd free (coherent.handed j handed).2
  have fresh : Holding { system with
      machine := system.machine.place as page i j slot,
      installed := some (as, page, (system.machine.coremap.entries j).pa) } as page
      (system.machine.coremap.entries j).pa j := by
    refine ⟨inside, ?_, ?_, ?_, ?_, unhanded⟩ <;>
      simp [assigned]
  have stays {owner : AsPtr} {other pa : BitVec 32} {k : Nat} (held : Holding system owner other pa k) :
      Holding { system with
        machine := system.machine.place as page i j slot,
        installed := some (as, page, (system.machine.coremap.entries j).pa) } owner other pa k := by
    have apart : k ≠ j := by
      rintro rfl
      exact held.used free
    refine held.kept_by rfl ?_ rfl
    simp [assigned, apart]
  refine ⟨?_, ?_, ?_, ?_, ?_⟩
  · intro owner slotIndex valid
    by_cases here : owner = as ∧ slotIndex = i
    · obtain ⟨rfl, rfl⟩ := here
      refine ⟨j, ?_⟩
      simpa using fresh
    have same : ((system.machine.place as page i j slot).spaces owner).ptable slotIndex =
        (system.machine.spaces owner).ptable slotIndex := by
      by_cases own : owner = as
      · have other : slotIndex ≠ i := fun equal => here ⟨own, equal⟩
        simp [own, other]
      · simp [own]
    simp only [same] at valid ⊢
    obtain ⟨k, held⟩ := coherent.backed owner slotIndex valid
    exact ⟨k, stays held⟩
  · intro owner slotIndex unused
    by_cases own : owner = as
    · by_cases other : slotIndex = i
      · simp [own, other] at unused
      · simp only [Machine.place, Machine.setTlb, Machine.setSlot, own, update_self,
          update_of_ne other] at unused ⊢
        exact coherent.marked as slotIndex unused
    · simp only [Machine.place, Machine.setTlb, Machine.setSlot, update_of_ne own] at unused ⊢
      exact coherent.marked owner slotIndex unused
  · intro other valid
    obtain rfl | same := eq_or_ne other slot
    · refine ⟨as, page, j, ?_⟩
      have word := tlb_word (system.machine.coremap.aligned j inside)
      simp only [Machine.place, Machine.setTlb, update_self, word]
      exact fresh
    · simp only [Machine.place, Machine.setTlb, update_of_ne same] at valid ⊢
      obtain ⟨owner, cachedPage, k, held⟩ := coherent.cached other valid
      exact ⟨owner, cachedPage, k, stays held⟩
  · intro k handed
    obtain ⟨within, used⟩ := coherent.handed k handed
    have apart : k ≠ j := by
      rintro rfl
      exact used free
    refine ⟨within, ?_⟩
    simpa [assigned, apart] using used
  · intro owner other frame same
    cases same
    exact ⟨j, fresh⟩

/-- What the kernel does to the machine without page faults: it takes free frames of the
map for itself and sets up new page tables. -/
structure Grown (before after : Machine) : Prop where
  size : after.coremap.size = before.coremap.size
  kept : ∀ k, (before.coremap.entries k).st ≠ .free →
    after.coremap.entries k = before.coremap.entries k
  pa : ∀ k, (after.coremap.entries k).pa = (before.coremap.entries k).pa
  taken : ∀ k, Taken before.coremap after.coremap k → k < before.coremap.size
  tlb : after.tlb = before.tlb
  tables : ∀ as, (after.spaces as).ptable = (before.spaces as).ptable ∨
    (after.spaces as).ptable = fun _ => emptySlot

/-- Taking free frames keeps the invariant, and they are the kernel's. -/
theorem Coherent.grown (coherent : Coherent system) (grown : Grown system.machine after) :
    Coherent {
      machine := after
      handed := handOut system.handed system.machine.coremap after.coremap
      installed := none } := by
  have stays {owner : AsPtr} {other pa : BitVec 32} {k : Nat} (held : Holding system owner other pa k) :
      Holding {
        machine := after
        handed := handOut system.handed system.machine.coremap after.coremap
        installed := none } owner other pa k := by
    refine held.kept_by grown.size (grown.kept k held.used) ?_
    simp [handOut, held.used]
  refine ⟨?_, ?_, ?_, ?_, ?_⟩
  · intro owner i valid
    rcases grown.tables owner with same | fresh
    · simp only [same] at valid ⊢
      obtain ⟨k, held⟩ := coherent.backed owner i valid
      exact ⟨k, stays held⟩
    · simp only [fresh] at valid
      cases valid
  · intro owner i unused
    rcases grown.tables owner with same | fresh
    · simp only [same] at unused ⊢
      exact coherent.marked owner i unused
    · simp [fresh, emptySlot]
  · intro slot valid
    simp only [grown.tlb] at valid ⊢
    obtain ⟨owner, page, k, held⟩ := coherent.cached slot valid
    exact ⟨owner, page, k, stays held⟩
  · intro k handed
    simp only [handOut, Bool.or_eq_true, Bool.and_eq_true, decide_eq_true_eq] at handed
    rcases handed with before | now
    · obtain ⟨within, used⟩ := coherent.handed k before
      refine ⟨grown.size ▸ within, ?_⟩
      rw [grown.kept k used]
      exact used
    · exact ⟨grown.size ▸ grown.taken k now, now.2⟩
  · intro owner page pa installed
    cases installed

/-- An allocation with room takes free frames of the map. -/
theorem grown_of_alloc {cur : Option AsPtr} {npages : Nat} {addr : BitVec 32} {after : Coremap}
    (room : HasRoom machine.coremap npages)
    (returned : allocKpages cur npages machine.coremap = .done addr after) :
    Grown machine { machine with coremap := after } := by
  rcases alloc_kpages_done returned with
    ⟨_, rfl⟩ | ⟨start, _, _, _, marks, available⟩
  · exact ⟨rfl, fun _ _ => rfl, fun _ => rfl, fun k taken => absurd taken.1 taken.2, rfl,
      fun _ => Or.inl rfl⟩
  refine ⟨marks.size, fun k used => ?_, marks.same_addresses.pa, fun k taken => ?_, rfl,
    fun _ => Or.inl rfl⟩
  · refine marks.kept k ?_
    by_contra within
    exact used (available k (by omega) (by omega)).2
  · have member := (marks.taken_iff available k).mp taken
    have allocates := alloc_kpages_with_room cur npages machine.coremap (by omega) room
    rw [returned] at allocates
    rcases allocates with ⟨_, other, run, _, marked⟩ | ⟨_, same, _⟩
    · have inside := (marked.taken_iff run.available k).mp taken
      have fits := run.1
      omega
    · simp only [same] at taken
      exact absurd taken.1 taken.2

/-- A fault with room has found its page, or has placed it in a free frame. -/
theorem user_fault_with_room (room : FaultRoom machine as page)
    (faulted : userFault as page slot machine = .done pa after) :
    (∃ i, lookup machine as page = some i ∧ pa = ((machine.spaces as).ptable i).pa ∧
      after = machine.setTlb slot page pa) ∨
    ∃ i j, j < machine.coremap.size ∧ (machine.coremap.entries j).st = .free ∧
      pa = (machine.coremap.entries j).pa ∧ after = machine.place as page i j slot := by
  rcases user_fault_cases as pa slot machine after faulted with
    found | ⟨i, j, missing, _, picked, place, same⟩ | ⟨missing, stuck⟩
  · exact Or.inl found
  · obtain ⟨⟨free, above, inside, is_free⟩, _⟩ := room missing
    obtain ⟨k, chosen, _, within, chosen_free⟩ :=
      pick_frame_free as above inside is_free
    obtain rfl : k = j := Option.mem_unique chosen picked
    exact Or.inr ⟨i, k, within, chosen_free, place, same⟩
  · obtain ⟨⟨free, above, inside, is_free⟩, i, below, unused⟩ := room missing
    obtain ⟨k, chosen, _⟩ := pick_frame_free as above inside is_free
    rcases stuck with none_picked | full
    · rw [chosen] at none_picked
      cases none_picked
    · rw [full i below] at unused
      cases unused

theorem Coherent.faulted (coherent : Coherent system)
    (room : FaultRoom system.machine as (address &&& pageFrame))
    (faulted : userFault as (address &&& pageFrame) slot system.machine = .done pa after) :
    Coherent { system with machine := after, installed := some (as, address &&& pageFrame, pa) } := by
  rcases user_fault_with_room room faulted with
    ⟨i, found, rfl, rfl⟩ | ⟨i, j, inside, is_free, rfl, rfl⟩
  · obtain ⟨j, holding⟩ := coherent.found as address i found
    exact coherent.refilled slot holding
  · exact coherent.placed as _ i slot inside is_free

theorem vm_fault_user {faulttype : FaultType}
    (faulted : vmFault faulttype address (some (some as)) slot machine = .done pa after) :
    userFault as (address &&& pageFrame) slot machine = .done pa after := by
  cases faulttype with
  | read | write => exact faulted
  | readonly | other => cases faulted

/-- Every step with room keeps the system coherent. One case per action. -/
theorem next_coherent (system : System) (action : Action) (after : System)
    (coherent : Coherent system) (room : Roomy system action)
    (taken : next system action = some after) : Coherent after := by
  cases action with
  | vmFault faulttype faultaddress as slot =>
    cases faulted : vmFault faulttype faultaddress (some (some as)) slot system.machine with
    | stop reason | fail error machine => simp [next, faulted] at taken
    | done pa machine =>
      simp only [next, faulted, Option.some.injEq] at taken
      subst taken
      exact coherent.faulted room (vm_fault_user faulted)
  | allocKpages cur npages =>
    cases returned : allocKpages cur npages system.machine.coremap with
    | stop reason | fail error coremap => simp [next, returned] at taken
    | done addr coremap =>
      simp only [next, returned, Option.some.injEq] at taken
      subst taken
      exact coherent.grown (grown_of_alloc room returned)

theorem initial_coherent (system : System) (initial : Initial system) : Coherent system := by
  obtain ⟨_, empty, flushed, unhanded, nothing⟩ := initial
  refine ⟨?_, ?_, ?_, ?_, ?_⟩
  · intro as i valid
    rw [empty] at valid
    cases valid
  · intro as i _
    rw [empty]
    rfl
  · intro slot valid
    exact absurd (flushed slot) valid
  · intro k handed
    rw [unhanded] at handed
    cases handed
  · intro as page pa installed
    rw [nothing] at installed
    cases installed

/-- In every run whose steps all have room, address spaces are isolated in every state
that is reached. -/
theorem isolated_in_roomy_runs (system : System) (reached : Reaches next Roomy Initial system) :
    Isolated system :=
  (reached.invariant initial_coherent next_coherent).isolated

/-- An address space with one page in each region and an empty page table. -/
def emptySpace : AddrSpace where
  asVbase1 := 0x400000#32
  asPbase1 := 0x10000#32
  asNpages1 := 1#32
  asVbase2 := 0x10000000#32
  asPbase2 := 0x11000#32
  asNpages2 := 1#32
  asHeapstart := 0#32
  asHeapend := 0#32
  asStackpbase := 0x12000#32
  ptable := fun _ => emptySlot

/-- Nothing in use, and memory full of zeros. -/
def booted (coremap : Coremap) : System where
  machine := {
    coremap := coremap
    spaces := fun _ => emptySpace
    tlb := fun _ => { ehi := 0#32, elo := 0#32 }
    memory := fun _ => 0#8 }
  handed := fun _ => false
  installed := none

theorem booted_initial {coremap : Coremap} (fresh : Fresh coremap) : Initial (booted coremap) :=
  ⟨fresh, fun _ _ => rfl, fun _ => show 0#32 &&& tlbloValid = 0#32 by decide, fun _ => rfl, rfl⟩

def bootedSystem : System := booted twoFrames

/-- A frame for the kernel and a page for each of two address spaces. -/
def sharing : List Action :=
  [.allocKpages none 1, .vmFault .read 0x400123#32 1#32 0, .vmFault .write 0x400123#32 2#32 1]

/-- A test for room that takes the last frame and the last slot. -/
def roomTest (system : System) : Action → Bool
  | .vmFault _ _ as _ => decide (2 ≤ system.machine.coremap.size ∧
      (system.machine.coremap.entries (system.machine.coremap.size - 1)).st = .free ∧
      ((system.machine.spaces as).ptable 4095).valid = false)
  | .allocKpages _ npages => decide (FreeRun system.machine.coremap 0 npages)

theorem roomy_of_test (system : System) (action : Action) (passed : roomTest system action = true) :
    Roomy system action := by
  cases action with
  | vmFault faulttype faultaddress as slot =>
    obtain ⟨two, last, unused⟩ := of_decide_eq_true passed
    exact fun _ => ⟨⟨_, by omega, by omega, last⟩, 4095, by decide, unused⟩
  | allocKpages cur npages => exact Or.inl ⟨0, of_decide_eq_true passed⟩

/-- Four frames are shared by the kernel and two address spaces. -/
theorem isolated_after_faults :
    ∃ system, Reaches next Roomy Initial system ∧ system.handed 0 = true ∧
      (system.machine.coremap.entries 1).as = some 1#32 ∧
      system.installed = some (2#32, 0x400000#32, 0x3000#32) ∧ Isolated system := by
  obtain ⟨system, evaluated, handed, owner, installed⟩ : ∃ system ∈ exec next
      (booted (freeFrames 4 4 (by decide) (by decide))) sharing, system.handed 0 = true ∧
      (system.machine.coremap.entries 1).as = some 1#32 ∧
      system.installed = some (2#32, 0x400000#32, 0x3000#32) := by
    decide +kernel
  have reached : Reaches next Roomy Initial system :=
    reaches_of_permitted roomy_of_test (.start _ (booted_initial free_frames_fresh))
      (by decide +kernel) evaluated
  exact ⟨system, reached, handed, owner, installed, isolated_in_roomy_runs system reached⟩

/-- A frame for the kernel, a page for one address space and two for another, and then
the first page again, twice. -/
def pressure : List Action :=
  [.allocKpages none 1, .vmFault .read 0x400000#32 1#32 0, .vmFault .read 0x400000#32 2#32 1,
    .vmFault .read 0x10000000#32 2#32 2, .vmFault .read 0x400000#32 1#32 3,
    .vmFault .read 0x400000#32 1#32 4]

/-- What that leaves: frame 1 is the second address space's, but the first one has just
got it again from its old slot; and frame 0, which the kernel has, is in the TLB. -/
def Overlap (system : System) : Prop :=
  system.installed = some (1#32, 0x400000#32, 0x2000#32) ∧ system.machine.coremap.size = 2 ∧
    (system.machine.coremap.entries 0).pa = 0x1000#32 ∧
    (system.machine.coremap.entries 1).as = some 2#32 ∧
    system.handed 0 = true ∧
    (system.machine.tlb 1).elo &&& tlbloValid ≠ 0#32 ∧
    (system.machine.tlb 1).elo &&& pageFrame = (system.machine.coremap.entries 0).pa ∧
    (system.machine.spaces 1#32).SetUp ∧ (system.machine.spaces 2#32).SetUp ∧
    (system.machine.spaces 1#32).regionPaddr 0x400000#32 = some 0x10000#32 ∧
    (system.machine.spaces 2#32).regionPaddr 0x10000000#32 = some 0x11000#32 ∧
    lookup system.machine 1#32 0x400000#32 = some 0 ∧
    lookup system.machine 2#32 0x10000000#32 = some 1 ∧
    ((system.machine.spaces 1#32).ptable 0).pa = 0x2000#32 ∧
    ((system.machine.spaces 2#32).ptable 1).pa = 0x2000#32

instance (system : System) : Decidable (Overlap system) :=
  inferInstanceAs (Decidable (_ ∧ _))

theorem usable_of_hit (masked : page &&& pageFrame = page) (setUp : (machine.spaces as).SetUp)
    (region : (machine.spaces as).regionPaddr page = some paddr)
    (aligned : paddr &&& pageFrame = paddr) (found : lookup machine as page = some i) :
    Usable machine as page ((machine.spaces as).ptable i).pa := by
  refine ⟨?_, 0, machine.setTlb 0 page ((machine.spaces as).ptable i).pa, ?_⟩
  · rw [masked, found]
    exact Option.some_ne_none i
  · simp only [vmFault, masked]
    exact user_fault_hit 0 setUp region aligned found

/-- Under memory pressure isolation is lost in every respect. -/
theorem isolation_lost_under_pressure :
    ∃ system, exec next bootedSystem pressure = some system ∧
      Reaches next Anything Initial system ∧ Overlap system ∧
      Usable system.machine 1#32 0x400000#32 0x2000#32 ∧
      Usable system.machine 2#32 0x10000000#32 0x2000#32 ∧ ¬ Isolated system := by
  obtain ⟨system, evaluated, overlap⟩ : ∃ system ∈ exec next bootedSystem pressure, Overlap system
      := by
    decide +kernel
  have reached := reaches_of_exec Initial pressure (booted_initial free_frames_fresh) evaluated
  refine ⟨system, evaluated, reached, overlap, ?_⟩
  obtain ⟨_, _, _, _, handed, valid, same, setUp, setUpOther, region, regionOther, found, foundOther,
    pa, paOther⟩ := overlap
  have first := usable_of_hit (by decide) setUp region (by decide) found
  have second := usable_of_hit (by decide) setUpOther regionOther (by decide) foundOther
  rw [pa] at first
  rw [paOther] at second
  exact ⟨first, second, fun isolated => isolated.unmapped 0 1 handed valid same⟩

end Os161.Vm
