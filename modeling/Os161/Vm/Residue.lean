import Os161.Vm.Calls
import Os161.Vm.Fork

/-!
# What is left in a frame that is used again

A frame that `vm_fault` gives to a process is not cleared. Two runs are compared here
that differ only in values which other processes and the kernel have written. The
coremap, the page tables and the TLB do not depend on memory, so the two runs keep
the same books, and it remains to follow the bytes: as long as every fault finds a
free frame, the frames of a process and the free frames hold the same bytes in both.
Once frames in use are taken away from their owners this is lost.
-/
namespace Os161.Vm.Residue

open Os161.Library Os161.Library.Program Os161.Library.Runs

variable {address place pa : BitVec 32} {world : World} {second first after : Machine} {as : AsPtr}
  {slot k j : Nat}

/-- A world, and the bytes that one address space has read, the last one first. -/
structure Watched where
  world : World
  seen : List (BitVec 8)

abbrev Watched.machine (watched : Watched) : Machine := watched.world.machine

/-- What happens in a run: what programs do and what the kernel allocates, a store by
the kernel, and a call of `free_kpages`. -/
inductive Happening
  | event (event : Event)
  | kernelStore (place : BitVec 32) (value : BitVec 8)
  | freeKpages (addr : BitVec 32)

/-- The byte an event shows to the observer. -/
def observed (observer : AsPtr) (machine : Machine) : Event → List (BitVec 8)
  | .read as address slot =>
    if as = observer then ((readByte as address slot machine).result.map Prod.fst).toList else []
  | .load _ _ _ _ _ | .fork _ | .write _ _ _ _ | .allocKpages _ _ => []

/-- The machine has changed without anything being handed out. -/
def Watched.accessed (watched : Watched) (after : Machine) : Watched :=
  { watched with world := { watched.world with system := watched.world.system.accessed after } }

/-- A byte of memory has changed. -/
def stored (machine : Machine) (place : BitVec 32) (value : BitVec 8) : Machine :=
  { machine with memory := Function.update machine.memory place value }

/-- One run. -/
def happen (observer : AsPtr) (watched : Watched) : Happening → Option Watched
  | .event event => (step watched.world event).map (fun after =>
      { world := after, seen := observed observer watched.machine event ++ watched.seen })
  | .kernelStore place value =>
    some (watched.accessed (stored watched.machine place value))
  | .freeKpages addr =>
    (onCoremap (Vm.freeKpages addr) watched.machine).result.map
      (fun result => watched.accessed result.2)

/-- What happens in two runs: the same, or a write of another process or a store of the
kernel with two values. -/
inductive Twin
  | same (happening : Happening)
  | writes (as : AsPtr) (address : BitVec 32) (slot : Nat) (value other : BitVec 8)
  | stores (place : BitVec 32) (value other : BitVec 8)

/-- What happens in the first run. -/
def Twin.left : Twin → Happening
  | .same happening => happening
  | .writes as address slot value _ => .event (.write as address value slot)
  | .stores place value _ => .kernelStore place value

/-- What happens in the second run. -/
def Twin.right : Twin → Happening
  | .same happening => happening
  | .writes as address slot _ other => .event (.write as address other slot)
  | .stores place _ other => .kernelStore place other

/-- Two runs side by side. -/
structure Pair where
  left : Watched
  right : Watched

/-- Both runs go on. -/
def both (observer : AsPtr) (pair : Pair) (twin : Twin) : Option Pair :=
  (happen observer pair.left twin.left).bind fun left =>
    (happen observer pair.right twin.right).map fun right => { left := left, right := right }

/-- A place in the frame at an address. -/
abbrev InFrame (pa place : BitVec 32) : Prop :=
  pa.toNat ≤ place.toNat ∧ place.toNat < pa.toNat + pageSize

/-- A place is in no frame of the observer. -/
def Foreign (observer : AsPtr) (machine : Machine) (place : BitVec 32) : Prop :=
  ∀ k, k < machine.coremap.size → (machine.coremap.entries k).as = some observer →
    ¬ InFrame (machine.coremap.entries k).pa place

/-- The two runs differ only in what other processes and the kernel write into frames
that are not the observer's. -/
def Differs (observer : AsPtr) (pair : Pair) : Twin → Prop
  | .same _ => True
  | .writes as address slot _ _ => as ≠ observer ∧ ∀ place after,
      access .write as address slot pair.left.machine = .done place after →
        Foreign observer after place
  | .stores place _ _ => Foreign observer pair.left.machine place

/-- No frame changes hands: every step has room, the kernel stores into frames it has
been handed, and `free_kpages` finds nothing to release. -/
def Uncontended (watched : Watched) : Happening → Prop
  | .event event => HasRoomFor watched.world event
  | .kernelStore place _ => ∃ k, watched.world.system.handed k = true ∧
      InFrame (watched.machine.coremap.entries k).pa place
  | .freeKpages addr => ∀ k, k < watched.machine.coremap.size →
      (watched.machine.coremap.entries k).va ≠ addr

/-- Steps in which the two runs differ as they may and no frame changes hands. -/
def Calm (observer : AsPtr) (pair : Pair) (twin : Twin) : Prop :=
  Differs observer pair twin ∧ Uncontended pair.left twin.left

/-- Steps in which at most other programs and the kernel write two values and no frame changes
hands. -/
def Quiet (observer : AsPtr) (pair : Pair) (twin : Twin) : Prop :=
  (∀ as address slot value other, twin = .writes as address slot value other → as ≠ observer) ∧
    Uncontended pair.left twin.left

theorem quiet_of_calm {observer : AsPtr} {pair : Pair} {twin : Twin}
    (calm : Calm observer pair twin) : Quiet observer pair twin := by
  refine ⟨?_, calm.2⟩
  rintro as address slot value other rfl
  exact calm.1.1

/-- Both runs start in the same state, with frames as `vm_bootstrap` numbers them. -/
def Alike (pair : Pair) : Prop :=
  pair.left = pair.right ∧ Started pair.left.world ∧
    Contiguous pair.left.machine.coremap ∧ pair.left.seen = []

/-- A frame that is free or that the observer has a page in. -/
def Clean (observer : AsPtr) (world : World) (k : Nat) : Prop :=
  (world.machine.coremap.entries k).st = .free ∨
    ((world.machine.coremap.entries k).as = some observer ∧ world.system.handed k = false)

/-- The invariant: the two runs keep the same books, frames that are clean hold the same
bytes, and the observer has read the same bytes. -/
structure Matched (observer : AsPtr) (pair : Pair) : Prop where
  housed : Housed pair.left.world
  contiguous : Contiguous pair.left.machine.coremap
  books : OnlyMemory pair.left.machine pair.right.machine
  handed : pair.right.world.system.handed = pair.left.world.system.handed
  live : pair.right.world.live = pair.left.world.live
  agree : ∀ k, k < pair.left.machine.coremap.size → Clean observer pair.left.world k →
    SameIn (pair.left.machine.coremap.entries k).pa
      pair.left.machine.memory pair.right.machine.memory
  seen : pair.right.seen = pair.left.seen

/-- A run beside itself. -/
theorem matched_self {observer : AsPtr} {pair : Pair} (same : pair.left = pair.right)
    (housed : Housed pair.left.world)
    (contiguous : Contiguous pair.left.machine.coremap) : Matched observer pair := by
  obtain ⟨left, right⟩ := pair
  simp only at same
  subst same
  exact ⟨housed, contiguous, ⟨rfl, rfl, rfl⟩, rfl, rfl, fun _ _ _ _ _ => rfl, rfl⟩

theorem alike_matched (observer : AsPtr) (pair : Pair) (alike : Alike pair) :
    Matched observer pair :=
  matched_self alike.1 (started_housed _ alike.2.1) alike.2.2.1

variable {observer : AsPtr} {pair : Pair}

/-- Frames that are clean after an allocation were clean before and have not been taken. -/
theorem clean_before_grow {live : AsPtr → Bool} (grown : Grown world.machine after)
    (clean : Clean observer { system := world.system.grow after, live := live } k) :
    Clean observer world k ∧ ¬ Taken world.machine.coremap after.coremap k := by
  have untaken : ¬ Taken world.machine.coremap after.coremap k := by
    rintro ⟨free, used⟩
    rcases clean with freeAfter | ⟨_, unhanded⟩
    · exact used freeAfter
    · simp [System.grow, handOut, free, used] at unhanded
  refine ⟨?_, untaken⟩
  by_cases free : (world.machine.coremap.entries k).st = .free
  · exact Or.inl free
  have kept := grown.kept k free
  rcases clean with freeAfter | ⟨owner, unhanded⟩
  · exact absurd (kept ▸ freeAfter) free
  · refine Or.inr ⟨kept ▸ owner, ?_⟩
    simp only [System.grow, handOut, Bool.or_eq_false_iff] at unhanded
    exact unhanded.1

/-- Both runs take the same frames. -/
theorem Matched.grow (matched : Matched observer pair) {left right : Machine}
    {live : AsPtr → Bool} (fillsLeft : Fills pair.left.machine left)
    (fillsRight : Fills pair.right.machine right) (books : OnlyMemory left right)
    (housed : Housed { system := pair.left.world.system.grow left, live := live })
    (seen : List (BitVec 8)) :
    Matched observer {
      left := ⟨⟨pair.left.world.system.grow left, live⟩, seen⟩
      right := ⟨⟨pair.right.world.system.grow right, live⟩, seen⟩ } where
  housed := housed
  contiguous := fillsLeft.grown.contiguous matched.contiguous
  books := books
  handed := by
    simp [System.grow, matched.handed, matched.books.coremap, books.coremap]
  live := rfl
  agree := by
    intro k inside clean
    have size := fillsLeft.grown.size
    obtain ⟨before, untaken⟩ := clean_before_grow fillsLeft.grown clean
    have within : k < pair.left.machine.coremap.size := size ▸ inside
    have inLeft := fillsLeft.memory k within untaken
    have inRight := fillsRight.memory k (by rw [matched.books.coremap]; exact within)
      (by rw [matched.books.coremap, books.coremap]; exact untaken)
    have between := matched.agree k within before
    rw [matched.books.coremap] at inRight
    intro offset inPage
    show right.memory ((left.coremap.entries k).pa + offset) =
      left.memory ((left.coremap.entries k).pa + offset)
    rw [fillsLeft.grown.pa k, inRight offset inPage, between offset inPage, inLeft offset inPage]
  seen := rfl

/-- Frames stay where they are through a fault with room. -/
theorem fault_places {page : BitVec 32} {machine : Machine} (room : FaultRoom machine as page)
    (faulted : userFault as page slot machine = .done pa after) (k : Nat) :
    (after.coremap.entries k).pa = (machine.coremap.entries k).pa := by
  rcases user_fault_with_room room faulted with
    ⟨i, _, _, rfl⟩ | ⟨i, j, _, _, _, rfl⟩
  · rfl
  · exact pa_assigned _ _ _ _ _ _

/-- Frames that are clean after a fault with room were clean before. -/
theorem clean_before_fault (faulted : Faulted world.machine after)
    (clean : Clean observer { world with system := world.system.accessed after } k) :
    Clean observer world k := by
  by_cases free : (world.machine.coremap.entries k).st = .free
  · exact Or.inl free
  · have kept := faulted.kept k free
    rcases clean with freeAfter | ⟨owner, unhanded⟩
    · exact absurd (kept ▸ freeAfter) free
    · exact Or.inr ⟨kept ▸ owner, unhanded⟩

/-- A fault with room takes the same frame in both runs. -/
theorem Matched.faulted (matched : Matched observer pair) {left : Machine}
    (room : FaultRoom pair.left.machine as (address &&& pageFrame))
    (fault : userFault as (address &&& pageFrame) slot pair.left.machine = .done pa left) :
    ∃ right, userFault as (address &&& pageFrame) slot pair.right.machine =
        .done pa right ∧
      Matched observer { left := pair.left.accessed left, right := pair.right.accessed right } := by
  obtain ⟨right, otherFault, books⟩ :=
    (agrees_books fun _ => user_fault_agrees as _ slot).of_done matched.books fault
  have otherRoom : FaultRoom pair.right.machine as (address &&& pageFrame) := by
    unfold FaultRoom
    rw [lookup_same matched.books, matched.books.coremap, matched.books.spaces]
    exact room
  have stays := faulted_of_room room fault
  have otherStays := faulted_of_room otherRoom otherFault
  have places := fault_places room fault
  refine ⟨right, otherFault, ?_, ?_, books, matched.handed, matched.live, ?_, matched.seen⟩
  · exact matched.housed.accessed left room fault ⟨rfl, rfl, rfl⟩
  · intro k inside
    show (left.coremap.entries k).pa.toNat = (left.coremap.entries 0).pa.toNat + pageSize * k
    rw [places k, places 0]
    exact matched.contiguous k (stays.size ▸ inside)
  · intro k inside clean offset inPage
    have before := matched.agree k (stays.size ▸ inside) (clean_before_fault stays clean) offset inPage
    show right.memory ((left.coremap.entries k).pa + offset) =
      left.memory ((left.coremap.entries k).pa + offset)
    rw [places k, otherStays.memory, stays.memory]
    exact before

/-- Two memories that have the same byte somewhere still have it after a change of each,
unless different values are written just there. -/
theorem update_agree {left right : BitVec 32 → BitVec 8} {spot : BitVec 32} {value other : BitVec 8}
    (before : right spot = left spot) (harmless : spot = place → value = other) :
    Function.update right place other spot = Function.update left place value spot := by
  by_cases here : spot = place
  · rw [harmless here, here, Function.update_self, Function.update_self]
  · rw [Function.update_of_ne here, Function.update_of_ne here]
    exact before

/-- Whatever happens to memory keeps the invariant if clean frames stay alike. -/
theorem Matched.with_memory (matched : Matched observer pair) {left right : BitVec 32 → BitVec 8}
    (agree : ∀ k, k < pair.left.machine.coremap.size →
      Clean observer pair.left.world k →
      SameIn (pair.left.machine.coremap.entries k).pa left right) :
    Matched observer {
      left := pair.left.accessed { pair.left.machine with memory := left }
      right := pair.right.accessed { pair.right.machine with memory := right } } :=
  { matched with
    housed := {
      coherent := matched.housed.coherent.written ⟨rfl, rfl, rfl⟩
      housed := matched.housed.housed }
    books := { matched.books with }
    agree := agree }

/-- A byte of memory is written in both runs, with one value or outside the clean
frames. -/
theorem Matched.stored (matched : Matched observer pair) (place : BitVec 32)
    (value other : BitVec 8)
    (harmless : value = other ∨ ∀ k, k < pair.left.machine.coremap.size →
      Clean observer pair.left.world k → ∀ offset : BitVec 32, offset.toNat < pageSize →
        (pair.left.machine.coremap.entries k).pa + offset ≠ place) :
    Matched observer {
      left := pair.left.accessed (stored pair.left.machine place value)
      right := pair.right.accessed (stored pair.right.machine place other) } := by
  refine matched.with_memory fun k inside clean offset inPage => ?_
  refine update_agree (matched.agree k inside clean offset inPage) fun here => ?_
  rcases harmless with same | apart
  · exact same
  · exact absurd here (apart k inside clean offset inPage)

/-- A place in a frame that is used and is not the observer's is in no clean frame. -/
theorem not_clean_apart {offset : BitVec 32} (inside : j < world.machine.coremap.size)
    (unclean : ¬ Clean observer world j) (inPage : offset.toNat < pageSize) (k : Nat)
    (within : k < world.machine.coremap.size) (clean : Clean observer world k)
    (other : BitVec 32) (otherInPage : other.toNat < pageSize) :
    (world.machine.coremap.entries k).pa + other ≠
      (world.machine.coremap.entries j).pa + offset := by
  intro same
  have frames := frame_of_place (world.machine.coremap.aligned k within)
    (world.machine.coremap.aligned j inside) otherInPage inPage same
  have equal := world.machine.coremap.distinct k j within inside frames
  subst equal
  exact unclean clean

/-- A frame that another address space has a page in is not clean. -/
theorem not_clean_of_owner (different : as ≠ observer)
    (owner : (world.machine.coremap.entries j).as = some as)
    (used : (world.machine.coremap.entries j).st ≠ .free) : ¬ Clean observer world j := by
  rintro (free | ⟨other, _⟩)
  · exact used free
  · exact different (Option.mem_unique owner other)

/-- A frame the kernel has been handed is not clean. -/
theorem not_clean_of_handed (housed : Housed world) (handed : world.system.handed j = true) :
    ¬ Clean observer world j := by
  rintro (free | ⟨_, unhanded⟩)
  · exact (housed.coherent.handed j handed).2 free
  · rw [handed] at unhanded
    cases unhanded

section

variable (matched : Matched observer pair)

include matched

/-- A page that has just been accessed is in a frame of its address space. -/
theorem Matched.holding {left : Machine}
    (room : FaultRoom pair.left.machine as (address &&& pageFrame))
    (fault : userFault as (address &&& pageFrame) slot pair.left.machine = .done pa left) :
    ∃ j, j < left.coremap.size ∧ (left.coremap.entries j).pa = pa ∧
      (left.coremap.entries j).as = some as ∧ (left.coremap.entries j).st ≠ .free ∧
      pair.left.world.system.handed j = false := by
  have coherent := matched.housed.coherent.faulted room fault
  obtain ⟨j, holding⟩ := coherent.installed as _ pa rfl
  exact ⟨j, holding.inside, holding.pa, holding.as, holding.used, holding.kept⟩

/-- Both runs read: the observer sees the same byte. -/
theorem Matched.read {byte : BitVec 8} {left : Machine}
    (room : FaultRoom pair.left.machine observer (address &&& pageFrame))
    (read : readByte observer address slot pair.left.machine = .done byte left) :
    ∃ right, readByte observer address slot pair.right.machine = .done byte right := by
  obtain ⟨pa, fault, rfl⟩ := read_byte_done read
  obtain ⟨right, otherFault, after⟩ := matched.faulted room fault
  obtain ⟨j, inside, place, owner, used, unhanded⟩ := matched.holding room fault
  have same := after.agree j inside (Or.inr ⟨owner, unhanded⟩) (address &&& ~~~pageFrame)
    (page_offset_lt address)
  refine ⟨right, ?_⟩
  have bytes : right.memory (pa + (address &&& ~~~pageFrame)) =
      left.memory (pa + (address &&& ~~~pageFrame)) := by
    rw [← place]
    exact same
  rw [← bytes]
  simp only [readByte, access, vmFault, bind, andThen, otherFault, inspect]
  rfl

theorem Matched.load {cur : Option AsPtr} {vaddr1 sz1 vaddr2 sz2 : BitVec 32} {left right : World}
    (room : HasRoomFor pair.left.world (.load cur vaddr1 sz1 vaddr2 sz2))
    (taken : step pair.left.world (.load cur vaddr1 sz1 vaddr2 sz2) = some left)
    (other : step pair.right.world (.load cur vaddr1 sz1 vaddr2 sz2) = some right)
    (seen : List (BitVec 8)) :
    Matched observer { left := ⟨left, seen⟩, right := ⟨right, seen⟩ } := by
  have housed := step_housed _ _ _ matched.housed room taken
  obtain ⟨start, run⟩ := room
  obtain ⟨as, machine, loaded, rfl⟩ := step_cases taken
  obtain ⟨otherMachine, otherLoaded, books⟩ :=
    (load_space_agrees vaddr1 sz1 vaddr2 sz2).of_done matched.books loaded
  simp only [step, otherLoaded, Option.some.injEq] at other
  subst other
  have filled := ((load_space_ensures cur run).of_done loaded).1
  have otherFilled := ((load_space_ensures cur (matched.books.coremap ▸ run)).of_done otherLoaded).1
  rw [matched.live]
  exact matched.grow (filled.fills matched.contiguous)
    (otherFilled.fills (matched.books.coremap ▸ matched.contiguous)) books housed seen

theorem Matched.fork {old : AsPtr} {left right : World}
    (room : HasRoomFor pair.left.world (.fork old))
    (taken : step pair.left.world (.fork old) = some left)
    (other : step pair.right.world (.fork old) = some right) (seen : List (BitVec 8)) :
    Matched observer { left := ⟨left, seen⟩, right := ⟨right, seen⟩ } := by
  have housed := step_housed _ _ _ matched.housed room taken
  obtain ⟨start, run⟩ := room
  obtain ⟨live, new, machine, copied, rfl⟩ := step_cases taken
  have otherLive : pair.right.world.live old = true := by rw [matched.live, live]
  obtain ⟨otherMachine, otherCopied, books⟩ :=
    (agrees_books fun _ => as_copy_agrees old).of_done matched.books copied
  simp only [step, otherLive, if_true, otherCopied, Option.some.injEq] at other
  subst other
  have elsewhere := matched.housed.elsewhere old live
  have otherElsewhere : Elsewhere pair.right.machine old := by
    unfold Elsewhere
    rw [matched.books.coremap]
    exact elsewhere
  have otherRun : FreeRun pair.right.machine.coremap start
      (13 + (pair.right.machine.spaces old).frames) := by
    rw [matched.books.coremap, matched.books.spaces]
    exact run
  have filled := ((as_copy_ensures elsewhere run).of_done copied).2
  have otherFilled := ((as_copy_ensures otherElsewhere otherRun).of_done otherCopied).2
  rw [matched.live]
  exact matched.grow (filled.fills matched.contiguous)
    (otherFilled.fills (matched.books.coremap ▸ matched.contiguous)) books housed seen

theorem Matched.alloc {cur : Option AsPtr} {npages : Nat} {left right : World}
    (room : HasRoomFor pair.left.world (.allocKpages cur npages))
    (taken : step pair.left.world (.allocKpages cur npages) = some left)
    (other : step pair.right.world (.allocKpages cur npages) = some right) (seen : List (BitVec 8)) :
    Matched observer { left := ⟨left, seen⟩, right := ⟨right, seen⟩ } := by
  have housed := step_housed _ _ _ matched.housed room taken
  obtain ⟨addr, coremap, returned, rfl⟩ := step_cases taken
  have otherReturned : allocKpages cur npages pair.right.machine.coremap =
      .done addr coremap := by rw [matched.books.coremap, returned]
  simp only [step, onCoremap, otherReturned, Option.some.injEq] at other
  subst other
  have grown := grown_of_alloc room returned
  have otherGrown := grown_of_alloc (matched.books.coremap ▸ room) otherReturned
  rw [matched.live]
  exact matched.grow (fills_of_memory grown rfl) (fills_of_memory otherGrown rfl)
    ⟨rfl, matched.books.spaces, matched.books.tlb⟩ housed seen

/-- Both runs write, the same value or, in another address space than the observer's,
two values. -/
theorem Matched.write {value otherValue : BitVec 8} {left right : World}
    (room : FaultRoom pair.left.machine as (address &&& pageFrame))
    (allowed : value = otherValue ∨ as ≠ observer)
    (taken : step pair.left.world (.write as address value slot) = some left)
    (other : step pair.right.world (.write as address otherValue slot) = some right) :
    Matched observer { left := ⟨left, pair.left.seen⟩, right := ⟨right, pair.right.seen⟩ } := by
  obtain ⟨live, done, machine, wrote, rfl⟩ := step_cases taken
  have otherLive : pair.right.world.live as = true := by rw [matched.live, live]
  obtain ⟨pa, middle, fault, rfl⟩ := write_byte_done wrote
  obtain ⟨otherMiddle, otherFault, after⟩ := matched.faulted room fault
  have otherWrote : writeByte as address otherValue slot pair.right.machine =
      .done PUnit.unit (Residue.stored otherMiddle (pa + (address &&& ~~~pageFrame)) otherValue) := by
    simp only [writeByte, access, vmFault, bind, andThen, otherFault]
    rfl
  simp only [step, otherLive, if_true, otherWrote, Option.some.injEq] at other
  subst other
  refine after.stored (pa + (address &&& ~~~pageFrame)) value otherValue ?_
  rcases allowed with same | different
  · exact Or.inl same
  · obtain ⟨j, inside, place, owner, used, _⟩ := matched.holding room fault
    right
    rw [← place]
    exact not_clean_apart inside (not_clean_of_owner different owner used) (page_offset_lt address)

theorem Matched.reads {left right : World}
    (room : FaultRoom pair.left.machine as (address &&& pageFrame))
    (taken : step pair.left.world (.read as address slot) = some left)
    (other : step pair.right.world (.read as address slot) = some right) :
    Matched observer {
      left := ⟨left, observed observer pair.left.machine (.read as address slot) ++
        pair.left.seen⟩
      right := ⟨right, observed observer pair.right.machine (.read as address slot) ++
        pair.right.seen⟩ } := by
  obtain ⟨live, byte, machine, read, rfl⟩ := step_cases taken
  have otherLive : pair.right.world.live as = true := by rw [matched.live, live]
  obtain ⟨pa, fault, _⟩ := read_byte_done read
  obtain ⟨otherMachine, otherFault, after⟩ := matched.faulted room fault
  have otherRead : readByte as address slot pair.right.machine =
      .done (otherMachine.memory (pa + (address &&& ~~~pageFrame))) otherMachine := by
    simp only [readByte, access, vmFault, bind, andThen, otherFault, inspect]
    rfl
  simp only [step, otherLive, if_true, otherRead, Option.some.injEq] at other
  subst other
  refine { after with seen := ?_ }
  show observed observer _ (.read as address slot) ++ pair.right.seen =
    observed observer _ (.read as address slot) ++ pair.left.seen
  rw [matched.seen]
  obtain rfl | own := eq_or_ne as observer
  · obtain ⟨again, same⟩ := matched.read room read
    simp [observed, read, same, Outcome.result]
  · simp [observed, own]

/-- The kernel stores into a frame it has been handed, in both runs. -/
theorem Matched.kernel_stored (value other : BitVec 8)
    (handed : pair.left.world.system.handed k = true)
    (inFrame : InFrame (pair.left.machine.coremap.entries k).pa place) :
    Matched observer {
      left := pair.left.accessed (Residue.stored pair.left.machine place value)
      right := pair.right.accessed (Residue.stored pair.right.machine place other) } := by
  refine matched.stored place value other (Or.inr ?_)
  have inside := (matched.housed.coherent.handed k handed).1
  obtain ⟨above, below⟩ := inFrame
  have offset : (place - (pair.left.machine.coremap.entries k).pa).toNat < pageSize := by
    rw [BitVec.toNat_sub_of_le (by simpa [BitVec.le_def] using above)]
    omega
  have split : place = (pair.left.machine.coremap.entries k).pa +
      (place - (pair.left.machine.coremap.entries k).pa) := by
    rw [BitVec.add_comm, BitVec.sub_add_cancel]
  rw [split]
  exact not_clean_apart inside (not_clean_of_handed matched.housed handed) offset

/-- Both runs call `free_kpages` with an address no frame has. -/
theorem Matched.freed {addr : BitVec 32} {left right : Watched}
    (unnamed : ∀ k, k < pair.left.machine.coremap.size →
      (pair.left.machine.coremap.entries k).va ≠ addr)
    (taken : happen observer pair.left (.freeKpages addr) = some left)
    (other : happen observer pair.right (.freeKpages addr) = some right) :
    Matched observer { left := left, right := right } := by
  have returned : freeKpages addr pair.left.machine.coremap =
      .done PUnit.unit pair.left.machine.coremap := by
    rcases free_kpages_cases addr pair.left.machine.coremap with
      ⟨returned, _⟩ | ⟨i, inside, same, _⟩
    · exact returned
    · exact absurd same (unnamed i inside)
  have otherReturned := returned
  rw [← matched.books.coremap] at otherReturned
  simp only [happen, onCoremap, returned, Outcome.result, Option.map_some, Option.some.injEq] at taken
  simp only [happen, onCoremap, otherReturned, Outcome.result, Option.map_some, Option.some.injEq]
    at other
  subst taken
  subst other
  exact matched.with_memory matched.agree

theorem Matched.event {event : Event} {left right : World} (room : HasRoomFor pair.left.world event)
    (taken : step pair.left.world event = some left)
    (other : step pair.right.world event = some right) :
    Matched observer {
      left := ⟨left, observed observer pair.left.machine event ++ pair.left.seen⟩
      right := ⟨right, observed observer pair.right.machine event ++
        pair.right.seen⟩ } := by
  cases event with
  | load cur vaddr1 sz1 vaddr2 sz2 =>
    simp only [observed, List.nil_append, matched.seen]
    exact matched.load room taken other _
  | fork old =>
    simp only [observed, List.nil_append, matched.seen]
    exact matched.fork room taken other _
  | read as address slot => exact matched.reads room taken other
  | write as address value slot => exact matched.write room (Or.inl rfl) taken other
  | allocKpages cur npages =>
    simp only [observed, List.nil_append, matched.seen]
    exact matched.alloc room taken other _

end

/-- One step of both runs keeps them matched. One case per event. -/
theorem both_matched {twin : Twin} {after : Pair} (matched : Matched observer pair)
    (quiet : Quiet observer pair twin) (taken : both observer pair twin = some after) :
    Matched observer after := by
  obtain ⟨left, tookLeft, rest⟩ := Option.bind_eq_some_iff.mp taken
  obtain ⟨right, tookRight, rfl⟩ := Option.map_eq_some_iff.mp rest
  obtain ⟨differs, uncontended⟩ := quiet
  cases twin with
  | same happening =>
    cases happening with
    | event event =>
      obtain ⟨left, stepLeft, rfl⟩ := Option.map_eq_some_iff.mp tookLeft
      obtain ⟨right, stepRight, rfl⟩ := Option.map_eq_some_iff.mp tookRight
      exact matched.event uncontended stepLeft stepRight
    | kernelStore place value =>
      obtain ⟨k, handed, inFrame⟩ := uncontended
      cases tookLeft
      cases tookRight
      exact matched.kernel_stored value value handed inFrame
    | freeKpages addr => exact matched.freed uncontended tookLeft tookRight
  | writes as address slot value other =>
    obtain ⟨left, stepLeft, rfl⟩ := Option.map_eq_some_iff.mp tookLeft
    obtain ⟨right, stepRight, rfl⟩ := Option.map_eq_some_iff.mp tookRight
    exact matched.write uncontended (Or.inr (differs _ _ _ _ _ rfl)) stepLeft stepRight
  | stores place value other =>
    obtain ⟨k, handed, inFrame⟩ := uncontended
    cases tookLeft
    cases tookRight
    exact matched.kernel_stored value other handed inFrame

/-- Two runs that start alike are matched at the end of every pair of runs. -/
theorem matched_of_reached (reached : Reaches (both observer) (Calm observer) Alike pair) :
    Matched observer pair :=
  reached.invariant (alike_matched observer) fun _ _ _ matched calm taken =>
    both_matched matched (quiet_of_calm calm) taken

instance (observer : AsPtr) (machine : Machine) (place : BitVec 32) :
    Decidable (Foreign observer machine place) :=
  inferInstanceAs (Decidable (∀ k, k < machine.coremap.size → _ → _))

/-- Two runs that differ at most in what the kernel stores. -/
def differsTest (observer : AsPtr) (pair : Pair) : Twin → Bool
  | .same _ => true
  | .writes _ _ _ _ _ => false
  | .stores place _ _ => decide (Foreign observer pair.left.machine place)

theorem differs_of_test (pair : Pair) (twin : Twin)
    (passed : differsTest observer pair twin = true) : Differs observer pair twin := by
  cases twin with
  | same happening => trivial
  | writes as address slot value other => cases passed
  | stores place value other =>
    have foreign : Foreign observer pair.left.machine place := of_decide_eq_true passed
    exact foreign

/-- Steps of runs in which one program is started, with frames left over: the kernel
stores into the first frame, which is the kernel's. -/
def calmTest (pair : Pair) : Twin → Bool
  | .same (.event (.load _ vaddr1 sz1 vaddr2 sz2)) =>
    decide (FreeRun pair.left.machine.coremap 0 (13 +
      ((regionPages vaddr1 sz1).toNat + (regionPages vaddr2 sz2).toNat + stackPages.toNat)))
  | .same (.event (.read as _ _)) =>
    decide (79 < pair.left.machine.coremap.size ∧
      (pair.left.machine.coremap.entries 79).st = .free ∧
      ((pair.left.machine.spaces as).ptable 0).valid = false)
  | .stores place _ _ =>
    decide (pair.left.world.system.handed 0 = true ∧
      InFrame (pair.left.machine.coremap.entries 0).pa place)
  | _ => false

theorem calm_of_test (pair : Pair) (twin : Twin)
    (passed : (differsTest observer pair twin && calmTest pair twin) = true) :
    Calm observer pair twin := by
  rw [Bool.and_eq_true] at passed
  refine ⟨differs_of_test pair twin passed.1, ?_⟩
  have passed := passed.2
  cases twin with
  | same happening =>
    cases happening with
    | event event =>
      cases event with
      | load cur vaddr1 sz1 vaddr2 sz2 => exact ⟨0, of_decide_eq_true passed⟩
      | read as address slot =>
        obtain ⟨inside, is_free, unused⟩ := of_decide_eq_true passed
        exact fun _ => ⟨⟨79, by decide, inside, is_free⟩, 0, by decide, unused⟩
      | fork old | write as address value slot | allocKpages cur npages => cases passed
    | kernelStore place value | freeKpages addr => cases passed
  | writes as address slot value other => cases passed
  | stores place value other =>
    exact ⟨0, of_decide_eq_true passed⟩

/-- Two runs from eighty free frames. -/
def bootedPair : Pair where
  left := ⟨bootedWorld, []⟩
  right := ⟨bootedWorld, []⟩

theorem booted_pair_alike : Alike bootedPair := by
  refine ⟨rfl, booted_world_started, ?_, rfl⟩
  have numbered : (List.range 80).all (fun k =>
      decide ((bootedWorld.machine.coremap.entries k).pa.toNat =
        (bootedWorld.machine.coremap.entries 0).pa.toNat + pageSize * k)) = true := by
    decide +kernel
  intro k inside
  exact of_decide_eq_true (List.all_eq_true.mp numbered k (List.mem_range.mpr inside))

/-- While no frame changes hands, what the observer reads does not depend on what other
processes and the kernel have written. -/
theorem same_bytes_in_calm_runs (observer : AsPtr) (pair : Pair)
    (reached : Reaches (both observer) (Calm observer) Alike pair) :
    pair.right.seen = pair.left.seen :=
  (matched_of_reached reached).seen

/-- The kernel stores two values in a frame of its own, and the program reads the same. -/
theorem same_byte_after_kernel_store :
    ∃ pair : Pair, pair.left.seen = [0#8] ∧ pair.left.machine.memory 0x1000#32 = 1#8 ∧
      pair.right.machine.memory 0x1000#32 = 2#8 ∧
      pair.right.seen = pair.left.seen := by
  obtain ⟨pair, evaluated, seen, left, right⟩ : ∃ pair ∈ exec (both firstSpace) bootedPair
      [.same (.event startProgram), .stores 0x1000#32 1#8 2#8,
        .same (.event (.read firstSpace 0x400000#32 0))],
      pair.left.seen = [0#8] ∧ pair.left.machine.memory 0x1000#32 = 1#8 ∧
      pair.right.machine.memory 0x1000#32 = 2#8 := by
    decide +kernel
  have reached : Reaches (both firstSpace) (Calm firstSpace) Alike pair :=
    reaches_of_permitted calm_of_test (.start bootedPair booted_pair_alike)
      (by decide +kernel) evaluated
  exact ⟨pair, seen, left, right, same_bytes_in_calm_runs firstSpace pair reached⟩

/-- Two programs and an allocation use up the frames; the kernel stores two values in
its first frame; the second program's first fault is given that frame, and it reads what
the kernel has stored. -/
theorem kernel_bytes_read :
    ∃ pair : Pair, Reaches (both 0x80022000#32) (Differs 0x80022000#32) Alike pair ∧
      pair.left.seen = [1#8] ∧ pair.right.seen = [2#8] := by
  obtain ⟨pair, evaluated, ended⟩ : ∃ pair ∈ exec (both 0x80022000#32) bootedPair
      [.same (.event startProgram), .same (.event startProgram),
        .same (.event (.allocKpages none 14)), .stores 0x1000#32 1#8 2#8,
        .same (.event (.read 0x80022000#32 0x400000#32 0))],
      pair.left.seen = [1#8] ∧ pair.right.seen = [2#8] := by
    decide +kernel
  exact ⟨pair, reaches_of_permitted differs_of_test (.start bootedPair booted_pair_alike)
    (by decide +kernel) evaluated, ended⟩

end Os161.Vm.Residue
