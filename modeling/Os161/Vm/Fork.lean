import Os161.Vm.AsCopy

/-!
# Programs that start, fork and use their memory

Programs are started, fork, and read and write their memory through `vm_fault`, in any
order. While every step has room, memory stays coherent and address spaces stay in frames
the kernel has.
-/
namespace Os161.Vm

open Os161.Library Os161.Library.Program Os161.Library.Runs Function

/-- The system, and the address spaces that programs have. -/
structure World where
  system : System
  live : AsPtr → Bool

abbrev World.machine (world : World) : Machine := world.system.machine

/-- Programs are started, fork, read and write their memory, and the kernel allocates. -/
inductive Event
  | load (cur : Option AsPtr) (vaddr1 sz1 vaddr2 sz2 : BitVec 32)
  | fork (old : AsPtr)
  | read (as : AsPtr) (address : BitVec 32) (slot : Nat)
  | write (as : AsPtr) (address : BitVec 32) (value : BitVec 8) (slot : Nat)
  | allocKpages (cur : Option AsPtr) (npages : Nat)

/-- The kernel has taken frames. -/
def System.grow (system : System) (after : Machine) : System where
  machine := after
  handed := handOut system.handed system.machine.coremap after.coremap
  installed := none

/-- A user access is over. -/
def System.accessed (system : System) (after : Machine) : System :=
  { system with machine := after, installed := none }

/-- A call that succeeds. -/
def step (world : World) : Event → Option World
  | .load cur vaddr1 sz1 vaddr2 sz2 =>
    match loadSpace cur vaddr1 sz1 vaddr2 sz2 world.machine with
    | .done as after => some {
        system := world.system.grow after
        live := update world.live as true }
    | _ => none
  | .fork old =>
    if world.live old then
      match asCopy old world.machine with
      | .done new after => some {
          system := world.system.grow after
          live := update world.live new true }
      | _ => none
    else none
  | .read as address slot =>
    if world.live as then
      match readByte as address slot world.machine with
      | .done _ after => some { world with system := world.system.accessed after }
      | _ => none
    else none
  | .write as address value slot =>
    if world.live as then
      match writeByte as address value slot world.machine with
      | .done _ after => some { world with system := world.system.accessed after }
      | _ => none
    else none
  | .allocKpages cur npages =>
    match onCoremap (allocKpages cur npages) world.machine with
    | .done _ after => some { world with system := world.system.grow after }
    | _ => none

/-- A step has room: frames for a new address space are free in one piece, a fault finds
its page or a free frame and slot, and an allocation has room in the map. -/
def HasRoomFor (world : World) : Event → Prop
  | .load _ vaddr1 sz1 vaddr2 sz2 => ∃ start, FreeRun world.machine.coremap start (13 +
      ((regionPages vaddr1 sz1).toNat + (regionPages vaddr2 sz2).toNat + stackPages.toNat))
  | .fork old => ∃ start, FreeRun world.machine.coremap start
      (13 + (world.machine.spaces old).frames)
  | .read as address _ | .write as address _ _ => FaultRoom world.machine as (address &&& pageFrame)
  | .allocKpages _ npages => HasRoom world.machine.coremap npages

/-- Nothing has been started. -/
def Started (world : World) : Prop :=
  Initial world.system ∧ ∀ as, world.live as = false

/-- The invariant: memory is coherent, and address spaces are in frames the kernel has. -/
structure Housed (world : World) : Prop where
  coherent : Coherent world.system
  housed : ∀ as, world.live as = true →
    ∃ k, world.system.handed k = true ∧ as = paddrToKvaddr (world.machine.coremap.entries k).pa

variable {after machine : Machine} {address pa page : BitVec 32} {world : World} {as : AsPtr}
  {slot : Nat}

theorem access_done {faulttype : FaultType} {place : BitVec 32}
    (accessed : access faulttype as address slot machine = .done place after) :
    ∃ pa, userFault as (address &&& pageFrame) slot machine = .done pa after ∧
      place = pa + (address &&& ~~~pageFrame) := by
  obtain ⟨pa, middle, faulted, returned⟩ := bind_returned accessed
  obtain ⟨same_place, same_after⟩ := Outcome.done.inj returned
  subst same_after
  exact ⟨pa, vm_fault_user faulted, same_place.symm⟩

theorem read_byte_done {byte : BitVec 8}
    (read : readByte as address slot machine = .done byte after) :
    ∃ pa, userFault as (address &&& pageFrame) slot machine = .done pa after ∧
      byte = after.memory (pa + (address &&& ~~~pageFrame)) := by
  obtain ⟨place, middle, accessed, returned⟩ := bind_returned read
  obtain ⟨same_byte, same_after⟩ := Outcome.done.inj returned
  subst same_after
  obtain ⟨pa, faulted, rfl⟩ := access_done accessed
  exact ⟨pa, faulted, same_byte.symm⟩

theorem write_byte_done {value : BitVec 8}
    (wrote : writeByte as address value slot machine = .done PUnit.unit after) :
    ∃ pa middle, userFault as (address &&& pageFrame) slot machine = .done pa middle ∧
      after = { middle with
        memory := update middle.memory (pa + (address &&& ~~~pageFrame)) value } := by
  obtain ⟨place, middle, accessed, returned⟩ := bind_returned wrote
  obtain ⟨_, same_after⟩ := Outcome.done.inj returned
  obtain ⟨pa, faulted, rfl⟩ := access_done accessed
  exact ⟨pa, middle, faulted, same_after.symm⟩

/-- What a fault with room leaves alone: memory, the entries of frames in use, and the
addresses of frames. -/
structure Faulted (before after : Machine) : Prop where
  memory : after.memory = before.memory
  size : after.coremap.size = before.coremap.size
  kept : ∀ k, (before.coremap.entries k).st ≠ .free →
    after.coremap.entries k = before.coremap.entries k

theorem faulted_of_room (room : FaultRoom machine as page)
    (faulted : userFault as page slot machine = .done pa after) : Faulted machine after := by
  rcases user_fault_with_room room faulted with
    ⟨i, _, _, rfl⟩ | ⟨i, j, _, is_free, _, rfl⟩
  · exact ⟨rfl, rfl, fun _ _ => rfl⟩
  · refine ⟨rfl, rfl, fun k used => ?_⟩
    have apart : k ≠ j := by
      rintro rfl
      exact used is_free
    simp [Machine.place, Machine.setTlb, Coremap.assign, assigned, apart]

theorem Coherent.written {system : System} (coherent : Coherent system)
    (written : OnlyMemory system.machine after) : Coherent (system.accessed after) := by
  have grown := coherent.grown written.grown
  have same : handOut system.handed system.machine.coremap after.coremap = system.handed := by
    funext k
    rw [written.coremap]
    simp [handOut, decide_not, Bool.and_not_self, Bool.or_false]
  rw [same] at grown
  exact grown

/-- A user access with room, whatever it does to memory, keeps the invariant. -/
theorem Housed.accessed (housed : Housed world) {middle : Machine} (after : Machine)
    (room : FaultRoom world.machine as (address &&& pageFrame))
    (faulted : userFault as (address &&& pageFrame) slot world.machine = .done pa middle)
    (written : OnlyMemory middle after) :
    Housed { world with system := world.system.accessed after } where
  coherent := (housed.coherent.faulted room faulted).written written
  housed := by
    intro other live
    obtain ⟨k, handed, place⟩ := housed.housed other live
    have kept := (faulted_of_room room faulted).kept k (housed.coherent.handed k handed).2
    refine ⟨k, handed, ?_⟩
    show other = paddrToKvaddr (after.coremap.entries k).pa
    rw [written.coremap, kept]
    exact place

theorem Housed.grow (housed : Housed world) (grown : Grown world.machine after) :
    Housed { world with system := world.system.grow after } where
  coherent := housed.coherent.grown grown
  housed := by
    intro other live
    obtain ⟨k, handed, place⟩ := housed.housed other live
    refine ⟨k, by simp only [System.grow, handOut, handed, Bool.true_or], ?_⟩
    show other = paddrToKvaddr (after.coremap.entries k).pa
    rw [grown.pa k]
    exact place

/-- A new address space in a block that has just been taken. -/
theorem Housed.born (housed : Housed world) {new : AsPtr} (grown : Grown world.machine after)
    (block : NewBlock world.machine after new) :
    Housed {
      system := world.system.grow after
      live := update world.live new true } where
  coherent := housed.coherent.grown grown
  housed := by
    intro other live
    obtain rfl | same := eq_or_ne other new
    · obtain ⟨i, inside, place, taken⟩ := block
      refine ⟨i, ?_, ?_⟩
      · simp [System.grow, handOut, taken.1, taken.2, Bool.and_self, Bool.or_true]
      · show other = paddrToKvaddr (after.coremap.entries i).pa
        rw [grown.pa i]
        exact place
    · have before : world.live other = true := by
        simpa only [update_of_ne same] using live
      exact (housed.grow grown).housed other before

/-- An address space that is housed is not in a free frame. -/
theorem Housed.elsewhere (housed : Housed world) (as : AsPtr) (live : world.live as = true) :
    Elsewhere world.machine as := by
  intro i inside free place
  obtain ⟨k, handed, house⟩ := housed.housed as live
  obtain ⟨within, used⟩ := housed.coherent.handed k handed
  have frames : (world.machine.coremap.entries i).pa =
      (world.machine.coremap.entries k).pa := by
    have same := place.symm.trans house
    exact (BitVec.add_left_inj _).mp same
  have equal := world.machine.coremap.distinct i k inside within frames
  subst equal
  exact used free

/-- What a step that is taken has run, and the world after it. -/
theorem step_cases {after : World} {event : Event} (taken : step world event = some after) :
    match event with
    | .load cur vaddr1 sz1 vaddr2 sz2 => ∃ as machine,
      loadSpace cur vaddr1 sz1 vaddr2 sz2 world.machine = .done as machine ∧
        after = ⟨world.system.grow machine, update world.live as true⟩
    | .fork old => world.live old = true ∧ ∃ new machine,
      asCopy old world.machine = .done new machine ∧
        after = ⟨world.system.grow machine, update world.live new true⟩
    | .read as address slot => world.live as = true ∧ ∃ byte machine,
      readByte as address slot world.machine = .done byte machine ∧
        after = { world with system := world.system.accessed machine }
    | .write as address value slot => world.live as = true ∧ ∃ done machine,
      writeByte as address value slot world.machine = .done done machine ∧
        after = { world with system := world.system.accessed machine }
    | .allocKpages cur npages => ∃ addr coremap,
      allocKpages cur npages world.machine.coremap = .done addr coremap ∧
        after = { world with
          system := world.system.grow { world.machine with coremap := coremap } } := by
  cases event with
  | allocKpages cur npages =>
    cases returned : allocKpages cur npages world.machine.coremap <;>
      simp [step, onCoremap, returned] at taken
    cases taken
    exact ⟨_, _, returned, rfl⟩
  | load cur vaddr1 sz1 vaddr2 sz2 =>
    simp only [step] at taken
    split at taken <;> cases taken
    exact ⟨_, _, by assumption, rfl⟩
  | _ =>
    simp only [step] at taken
    split_ifs at taken with live
    split at taken <;> cases taken
    exact ⟨live, _, _, by assumption, rfl⟩

/-- Every event with room keeps memory coherent and the spaces in the kernel's frames. -/
theorem step_housed (world : World) (event : Event) (after : World) (housed : Housed world)
    (room : HasRoomFor world event) (taken : step world event = some after) : Housed after := by
  cases event with
  | load cur vaddr1 sz1 vaddr2 sz2 =>
    obtain ⟨start, run⟩ := room
    obtain ⟨as, machine, loaded, rfl⟩ := step_cases taken
    obtain ⟨filled, block⟩ := (load_space_ensures cur run).of_done loaded
    exact housed.born filled.grown block
  | fork old =>
    obtain ⟨start, run⟩ := room
    obtain ⟨live, new, machine, copied, rfl⟩ := step_cases taken
    have copy := ((as_copy_ensures (housed.elsewhere old live) run).of_done copied).1
    exact housed.born copy.grown copy.block
  | read as address slot =>
    obtain ⟨_, byte, machine, read, rfl⟩ := step_cases taken
    obtain ⟨pa, faulted, _⟩ := read_byte_done read
    exact housed.accessed machine room faulted ⟨rfl, rfl, rfl⟩
  | write as address value slot =>
    obtain ⟨_, done, machine, wrote, rfl⟩ := step_cases taken
    obtain ⟨pa, middle, faulted, rfl⟩ := write_byte_done wrote
    exact housed.accessed _ room faulted ⟨rfl, rfl, rfl⟩
  | allocKpages cur npages =>
    obtain ⟨addr, coremap, returned, rfl⟩ := step_cases taken
    exact housed.grow (grown_of_alloc room returned)

theorem started_housed (world : World) (started : Started world) : Housed world where
  coherent := initial_coherent world.system started.1
  housed := by
    intro as live
    rw [started.2 as] at live
    cases live

theorem page_offset_lt (address : BitVec 32) : (address &&& ~~~pageFrame).toNat < pageSize := by
  rw [offset_toNat]
  exact Nat.mod_lt _ (by decide)

/-- Places in frames are the same only in the same frame. -/
theorem frame_of_place {otherPa offset other : BitVec 32} (aligned : pa.toNat % pageSize = 0)
    (otherAligned : otherPa.toNat % pageSize = 0) (inside : offset.toNat < pageSize)
    (otherInside : other.toNat < pageSize) (same : pa + offset = otherPa + other) :
    pa = otherPa := by
  have first : (pa + offset).toNat = pa.toNat + offset.toNat := by
    refine BitVec.toNat_add_of_lt ?_
    unfold pageSize at aligned inside
    omega
  have second : (otherPa + other).toNat = otherPa.toNat + other.toNat := by
    refine BitVec.toNat_add_of_lt ?_
    unfold pageSize at otherAligned otherInside
    omega
  have sums : pa.toNat + offset.toNat = otherPa.toNat + other.toNat := by
    rw [← first, ← second, same]
  refine BitVec.eq_of_toNat_eq ?_
  unfold pageSize at aligned otherAligned inside otherInside
  omega

/-- Eighty frames, nothing in use, and memory full of zeros. -/
def bootedWorld : World where
  system := booted eightyFrames
  live := fun _ => false

theorem booted_world_started : Started bootedWorld :=
  ⟨booted_initial free_frames_fresh, fun _ => rfl⟩

/-- A program with one page of text and one page of data. -/
def startProgram : Event := .load none 0x400000#32 1#32 0x10000000#32 1#32

/-- Where its address space is. -/
def firstSpace : AsPtr := 0x80001000#32

end Os161.Vm
