import Os161.Library.Runs
import Os161.Malloc.Free
import Mathlib.Algebra.Group.Nat.Defs

/-!
# Runs of the user heap

Any sequence of calls of `malloc` and of `free` of pointers that are live, between which
the program writes into its blocks as it likes. In every state that is reached the
headers tile the heap, live blocks are where they should be, and the next call neither
finds the heap corrupt nor writes into a live block.
-/
namespace Os161.Malloc

open Os161.Library Os161.Library.Layout Os161.Library.Program Os161.Library.Runs Function

variable {Kernel : Type}

/-- The reasons that have to do with the heap. The others are that there is no heap to
begin with. -/
def Abort.corruption : Abort → Bool
  | .initialSbrkFailed | .heapBeganAtZero | .sbrkFailedAligning => false
  | _ => true

/-- A heap, and the sizes that were asked for of the pointers that are live. -/
structure World (Kernel : Type) where
  heap : Heap Kernel
  live : Nat → Option Nat

/-- Calls of the allocator, and a write to a cell of a live block by the program. -/
inductive Event
  | malloc (size : Nat)
  | free (x : Nat)
  | write (x a : Nat) (cell : Mheader)

section

variable (sbrk : Nat → Kernel → Option Nat × Kernel)

/-- A call that returns. -/
def next (world : World Kernel) : Event → Option (World Kernel)
  | .malloc size =>
    match malloc sbrk size world.heap with
    | .done p after => some {
        heap := after
        live := if p = 0 then world.live else update world.live p (some size) }
    | _ => none
  | .free x =>
    if world.live x = none then none
    else match free x world.heap with
      | .done _ after => some { heap := after, live := update world.live x none }
      | _ => none
  | .write x a cell =>
    if ∃ size ∈ world.live x, x ≤ a ∧ a < x + size ∧ a % mblocksize = 0 then
      some { world with heap := { world.heap with memory := update world.heap.memory a cell } }
    else none

/-- The rounding in `malloc` does not wrap. -/
def NoWrap (_world : World Kernel) : Event → Prop
  | .malloc size =>
    mblocksize + (size + mblocksize - 1) / mblocksize * mblocksize + pageSize - 1 < sizeRange
  | _ => True

/-- Before the first call. -/
def Started (world : World Kernel) : Prop :=
  world.heap.heapbase = 0 ∧ world.heap.heaptop = 0 ∧ ∀ x, world.live x = none

/-- The header of a block, from the pointer to its contents. -/
def World.header (world : World Kernel) (x : Nat) : Mheader := world.heap.memory (x - mblocksize)

/-- What holds between calls: the headers tile the heap from its base to its top and no
two neighbours are free; and live blocks lie within it, are aligned, as large as asked
for, and do not overlap, their headers included. -/
structure HeapSound (world : World Kernel) : Prop where
  tiled : (world.heap.heapbase = 0 ∧ world.heap.heaptop = 0) ∨ (world.heap.heaptop < sizeRange ∧
      ∃ blocks, Tiles world.heap.memory world.heap.heapbase 0 blocks world.heap.heaptop ∧ Apart blocks)
  within : ∀ x size, world.live x = some size → world.heap.heapbase + mblocksize ≤ x ∧
    x + mSize (world.header x) ≤ world.heap.heaptop
  aligned : ∀ x size, world.live x = some size → x % mblocksize = 0
  large : ∀ x size, world.live x = some size → size ≤ mSize (world.header x)
  disjoint : ∀ x y size other, world.live x = some size → world.live y = some other → x ≠ y →
    x + mSize (world.header x) ≤ y - mblocksize ∨ y + mSize (world.header y) ≤ x - mblocksize

/-- The contents of the blocks that stay live are the same. -/
def Untouched (before after : World Kernel) : Prop :=
  ∀ x size, before.live x = some size → after.live x ≠ none →
    ∀ a, x ≤ a → a < x + mSize (before.header x) → after.heap.memory a = before.heap.memory a

/-- The next call neither finds the heap corrupt nor writes into a live block. -/
def CallSound (world : World Kernel) : Event → Prop
  | .malloc size => (∀ reason, malloc sbrk size world.heap = .stop reason → reason.corruption = false) ∧
      ∀ after, next sbrk world (.malloc size) = some after → Untouched world after
  | .free x => world.live x ≠ none → (∀ reason, free x world.heap ≠ .stop reason) ∧
      ∀ after, next sbrk world (.free x) = some after → Untouched world after
  | .write _ _ _ => True

end

/-- The invariant once the heap is set up. -/
structure Managed (brk : Kernel → Nat) (world : World Kernel) (blocks : List Block) : Prop where
  tidy : Tidy world.heap blocks
  at_top : brk world.heap.kernel = world.heap.heaptop
  housed : ∀ x size, world.live x = some size → ∃ a len, x = a + mblocksize ∧
    size + mblocksize ≤ len ∧ Used world.heap.heapbase blocks a len

variable {world : World Kernel} {heap : Heap Kernel} {blocks : List Block} {size : Nat}

theorem Managed.header {brk : Kernel → Nat} (managed : Managed brk world blocks) {a len : Nat}
    (used : Used world.heap.heapbase blocks a len) :
    mSize (world.header (a + mblocksize)) = len - mblocksize ∧ mblocksize ≤ len ∧
      world.heap.heapbase ≤ a ∧ a + len ≤ world.heap.heaptop ∧ a % mblocksize = 0 := by
  obtain ⟨block, placed, _, rfl⟩ := used
  obtain ⟨⟨below, header⟩, whole, aligned⟩ := managed.tidy.tiles.placed placed
  have bounds := placed.bounds
  have top_is := managed.tidy.tiles.top_eq
  have small := managed.tidy.small
  refine ⟨?_, whole, bounds.1, by omega, managed.tidy.tiles.aligned managed.tidy.start placed⟩
  unfold World.header
  rw [Nat.add_sub_cancel, header, size_header whole aligned (by omega)]

theorem Managed.sound {brk : Kernel → Nat} (managed : Managed brk world blocks) :
    HeapSound world where
  tiled := Or.inr ⟨managed.tidy.small, blocks, managed.tidy.tiles, managed.tidy.apart⟩
  within := by
    intro x size live
    obtain ⟨a, len, rfl, fits, used⟩ := managed.housed x size live
    obtain ⟨size_is, whole, low, high, _⟩ := managed.header used
    omega
  aligned := by
    intro x size live
    obtain ⟨a, len, rfl, fits, used⟩ := managed.housed x size live
    obtain ⟨_, _, _, _, aligned⟩ := managed.header used
    unfold mblocksize at *
    omega
  large := by
    intro x size live
    obtain ⟨a, len, rfl, fits, used⟩ := managed.housed x size live
    obtain ⟨size_is, _⟩ := managed.header used
    omega
  disjoint := by
    intro x y size other live otherLive different
    obtain ⟨a, len, rfl, fits, used⟩ := managed.housed x size live
    obtain ⟨b, otherLen, rfl, otherFits, otherUsed⟩ := managed.housed y other otherLive
    obtain ⟨size_is, whole, _⟩ := managed.header used
    obtain ⟨otherSize_is, otherWhole, _⟩ := managed.header otherUsed
    obtain ⟨block, placed, _, rfl⟩ := used
    obtain ⟨otherBlock, otherPlaced, _, rfl⟩ := otherUsed
    rcases placed_disjoint Block.len placed otherPlaced with ⟨same, _⟩ | below | above
    · exact absurd (by rw [same]) different
    · left
      omega
    · right
      omega

section

variable {sbrk : Nat → Kernel → Option Nat × Kernel} {brk : Kernel → Nat}

theorem tidy_empty {heap : Heap Kernel} (positive : 0 < heap.heapbase)
    (start : heap.heapbase % mblocksize = 0) (top : heap.heapbase = heap.heaptop)
    (small : heap.heaptop < sizeRange) : Tidy heap [] where
  positive := positive
  start := start
  small := small
  tiles := top
  apart := List.isChain_nil
  topped := fun some_block => absurd rfl some_block

attribute [local simp] mallocInit bind andThen inspect check callSbrk change in
/-- Setting the heap up succeeds, or there is no heap to begin with. -/
theorem malloc_init_ends (contiguous : Contiguous sbrk brk) (base : heap.heapbase = 0)
    (top : heap.heaptop = 0) :
    (∃ reason, mallocInit sbrk heap = .stop reason ∧ reason.corruption = false) ∨
      ∃ ready, mallocInit sbrk heap = .done PUnit.unit ready ∧ Tidy ready [] ∧
        brk ready.kernel = ready.heaptop := by
  rcases first : sbrk 0 heap.kernel with ⟨_ | x, kernel⟩
  · refine Or.inl ⟨.initialSbrkFailed, ?_, rfl⟩
    simp [base, top, first]
    rfl
  · obtain ⟨x_is, moved, small⟩ := contiguous.granted 0 heap.kernel x kernel first
    by_cases zero : x = 0
    · refine Or.inl ⟨.heapBeganAtZero, ?_, rfl⟩
      simp [base, top, first, zero]
    by_cases aligned : x % mblocksize = 0
    · refine Or.inr ⟨{ heap with heapbase := x, heaptop := x, kernel := kernel }, ?_,
        tidy_empty (Nat.pos_of_ne_zero zero) aligned rfl (by show x < sizeRange; omega), ?_⟩
      · simp [base, top, first, zero, aligned]
        rfl
      · show brk kernel = x
        omega
    · rcases second : sbrk (mblocksize - x % mblocksize) kernel with ⟨_ | y, later⟩
      · refine Or.inl ⟨.sbrkFailedAligning, ?_, rfl⟩
        simp [base, top, first, zero, aligned, second]
        rfl
      · obtain ⟨y_is, moved_on, still_small⟩ := contiguous.granted _ kernel y later second
        have same : y = x := by omega
        have no_wrap : (x + (mblocksize - x % mblocksize)) % sizeRange =
            x + (mblocksize - x % mblocksize) := Nat.mod_eq_of_lt (by omega)
        refine Or.inr ⟨{ heap with
          heapbase := x + (mblocksize - x % mblocksize)
          heaptop := x + (mblocksize - x % mblocksize)
          kernel := later }, ?_, tidy_empty ?_ ?_ rfl ?_, ?_⟩
        · simp [base, top, first, zero, aligned, second, same, no_wrap]
        · show 0 < x + (mblocksize - x % mblocksize)
          omega
        · show (x + (mblocksize - x % mblocksize)) % mblocksize = 0
          unfold mblocksize at *
          omega
        · show x + (mblocksize - x % mblocksize) < sizeRange
          omega
        · show brk later = x + (mblocksize - x % mblocksize)
          omega

/-- The first call of `malloc` goes on as if the heap had been set up before. -/
theorem malloc_after_init (size : Nat) {ready : Heap Kernel} (base : heap.heapbase = 0)
    (set_up : mallocInit sbrk heap = .done PUnit.unit ready) (positive : 0 < ready.heapbase) :
    malloc sbrk size heap = malloc sbrk size ready := by
  have nonzero : ¬ ready.heapbase = 0 := by omega
  simp [malloc, bind, andThen, inspect, id, onlyIf, base, set_up, nonzero, ret]

theorem malloc_not_set_up (size : Nat) {reason : Abort} (base : heap.heapbase = 0)
    (stopped : mallocInit sbrk heap = .stop reason) : malloc sbrk size heap = .stop reason := by
  simp [malloc, bind, andThen, inspect, id, onlyIf, base, stopped]

theorem Tidy.same {other : Heap Kernel} (tidy : Tidy heap blocks)
    (base : other.heapbase = heap.heapbase) (top : other.heaptop = heap.heaptop)
    (memory : other.memory = heap.memory) : Tidy other blocks where
  positive := base ▸ tidy.positive
  start := base ▸ tidy.start
  small := top ▸ tidy.small
  tiles := by
    rw [base, top, memory]
    exact tidy.tiles
  apart := tidy.apart
  topped := tidy.topped

section

variable {world : World Kernel} {blocks : List Block}

theorem Managed.untouched (managed : Managed brk world blocks) {after : World Kernel}
    {others : List Block} (unwritten : Unwritten world.heap after.heap others)
    (still : ∀ a len, Used world.heap.heapbase blocks a len → after.live (a + mblocksize) ≠ none →
      Used world.heap.heapbase others a len) : Untouched world after := by
  intro x size live stays a low high
  obtain ⟨place, len, rfl, _, used⟩ := managed.housed x size live
  obtain ⟨size_is, whole, _⟩ := managed.header used
  exact unwritten place len a (still place len used stays) low (by omega)

/-- The world after `malloc`. -/
def World.allocated (world : World Kernel) (size p : Nat) (after : Heap Kernel) : World Kernel where
  heap := after
  live := if p = 0 then world.live else update world.live p (some size)

/-- `malloc` keeps the invariant, returns no pointer that is live and leaves live blocks
alone. -/
theorem Managed.malloc (managed : Managed brk world blocks) (contiguous : Contiguous sbrk brk)
    (small : NoWrap world (.malloc size)) :
    ∃ p after, malloc sbrk size world.heap = .done p after ∧ (p = 0 ∨ world.live p = none) ∧
      (∃ others, Managed brk (world.allocated size p after) others) ∧
      Untouched world (world.allocated size p after) := by
  obtain ⟨p, after, returned, at_top, answer⟩ :=
    (malloc_ensures contiguous managed.tidy managed.at_top small).returned
  refine ⟨p, after, returned, ?_⟩
  rcases answer with ⟨rfl, base, top, memory⟩ | ⟨others, allocated⟩
  · refine ⟨Or.inl rfl, ⟨blocks, managed.tidy.same base top memory, at_top, ?_⟩, ?_⟩
    · intro x size live
      obtain ⟨a, len, place, fits, used⟩ := managed.housed x size live
      refine ⟨a, len, place, fits, ?_⟩
      show Used after.heapbase blocks a len
      rw [base]
      exact used
    · intro x _ _ _ a _ _
      exact congrFun memory a
  · obtain ⟨a, len, rfl, large, fresh, used⟩ := allocated.placed
    have nonzero : ¬ a + mblocksize = 0 := by
      unfold mblocksize
      omega
    refine ⟨Or.inr ?_, ⟨others, allocated.tidy, at_top, ?_⟩, ?_⟩
    · by_contra live
      obtain ⟨asked, was_live⟩ := Option.ne_none_iff_exists'.mp live
      obtain ⟨b, other, place, _, was_used⟩ := managed.housed _ asked was_live
      cases Nat.add_right_cancel place
      exact fresh other was_used
    · intro x asked live
      simp only [World.allocated, nonzero, if_false] at live ⊢
      rw [allocated.heapbase]
      by_cases new : x = a + mblocksize
      · subst new
        rw [update_self] at live
        cases live
        refine ⟨a, len, rfl, ?_, (used a len).mpr (Or.inr ⟨rfl, rfl⟩)⟩
        unfold mblocksize at *
        omega
      · rw [update_of_ne new] at live
        obtain ⟨b, other, place, fits, was_used⟩ := managed.housed x asked live
        exact ⟨b, other, place, fits, (used b other).mpr (Or.inl was_used)⟩
    · exact managed.untouched allocated.unwritten (fun _ _ was_used _ => was_used)

/-- The world after `free`. -/
def World.freed (world : World Kernel) (x : Nat) (after : Heap Kernel) : World Kernel where
  heap := after
  live := update world.live x none

/-- `free` of a live pointer keeps the invariant and leaves the other blocks alone. -/
theorem Managed.free (managed : Managed brk world blocks) (x : Nat) (live : world.live x ≠ none) :
    ∃ after, free x world.heap = .done PUnit.unit after ∧
      (∃ others, Managed brk (world.freed x after) others) ∧
      Untouched world (world.freed x after) := by
  obtain ⟨size, asked⟩ := Option.ne_none_iff_exists'.mp live
  obtain ⟨a, len, rfl, fits, block, placed, in_use, rfl⟩ := managed.housed x size asked
  obtain ⟨before, after, rfl, rfl⟩ := (placed_iff _ _ _ _ _).mp placed
  obtain ⟨_, result, returned, others, freed⟩ :=
    (free_ensures managed.tidy in_use).returned
  refine ⟨result, returned, ⟨others, freed.tidy, ?_, ?_⟩, ?_⟩
  · show brk result.kernel = result.heaptop
    rw [freed.kernel, freed.heaptop]
    exact managed.at_top
  · intro y other_size other_live
    have different : y ≠ world.heap.heapbase + extent Block.len before + mblocksize := by
      rintro rfl
      simp [World.freed] at other_live
    have was_live : world.live y = some other_size := by
      simpa only [World.freed, update_of_ne different] using other_live
    obtain ⟨b, other, place, other_fits, used⟩ := managed.housed y other_size was_live
    refine ⟨b, other, place, other_fits, ?_⟩
    show Used result.heapbase others b other
    rw [freed.heapbase]
    refine (freed.used b other).mpr ⟨used, fun same => different ?_⟩
    rw [place, same]
    rfl
  · refine managed.untouched freed.unwritten (fun b other used stays => ?_)
    refine (freed.used b other).mpr ⟨used, fun same => stays ?_⟩
    rw [same]
    exact update_self _ _ _

theorem Managed.write (managed : Managed brk world blocks) {x a : Nat} (cell : Mheader)
    (live : world.live x = some size) (low : x ≤ a) (high : a < x + size) :
    Managed brk { world with
      heap := { world.heap with memory := update world.heap.memory a cell } } blocks := by
  obtain ⟨place, len, rfl, fits, block, placed, _, rfl⟩ := managed.housed x size live
  have tiles : Tiles (update world.heap.memory a cell) world.heap.heapbase 0 blocks
      world.heap.heaptop := by
    refine managed.tidy.tiles.same_headers (fun header other other_placed => ?_)
    refine update_of_ne ?_ _ _
    rintro rfl
    obtain ⟨before, after, rfl, rfl⟩ := (placed_iff _ _ _ _ _).mp other_placed
    have boundary : Boundary world.heap.heapbase (before ++ other :: after)
        (world.heap.heapbase + extent Block.len before) := ⟨before, other :: after, rfl, rfl⟩
    exact boundary.not_inside placed low (by omega)
  exact ⟨⟨{ managed.tidy with tiles := tiles }, managed.tidy.apart,
    managed.tidy.topped⟩, managed.at_top, managed.housed⟩

end

/-- The invariant: nothing has been called, or the heap is managed. -/
def Maintained (brk : Kernel → Nat) (world : World Kernel) : Prop :=
  Started world ∨ ∃ blocks, Managed brk world blocks

theorem managed_empty (world : World Kernel) {ready : Heap Kernel} (started : Started world)
    (tidy : Tidy ready []) (at_top : brk ready.kernel = ready.heaptop) :
    Managed brk { world with heap := ready } [] where
  tidy := tidy
  at_top := at_top
  housed := by
    intro x size live
    rw [show world.live x = none from started.2.2 x] at live
    cases live

/-- How `malloc` ends: it gives up because there is no heap to begin with, or it returns
and keeps the invariant. -/
theorem malloc_ends (contiguous : Contiguous sbrk brk) (maintained : Maintained brk world)
    (small : NoWrap world (.malloc size)) :
    (∃ reason, malloc sbrk size world.heap = .stop reason ∧ reason.corruption = false) ∨
      ∃ p after, malloc sbrk size world.heap = .done p after ∧ (p = 0 ∨ world.live p = none) ∧
        Maintained brk (world.allocated size p after) ∧
        Untouched world (world.allocated size p after) := by
  rcases maintained with started | ⟨blocks, managed⟩
  · obtain ⟨base, top, none_live⟩ := started
    rcases malloc_init_ends contiguous base top with
      ⟨reason, stopped, harmless⟩ | ⟨ready, set_up, tidy, at_top⟩
    · exact Or.inl ⟨reason, malloc_not_set_up size base stopped, harmless⟩
    have managed : Managed brk { world with heap := ready } [] :=
      managed_empty world ⟨base, top, none_live⟩ tidy at_top
    obtain ⟨p, after, returned, fresh, ⟨others, kept⟩, _⟩ := managed.malloc contiguous small
    refine Or.inr ⟨p, after, ?_, fresh, Or.inr ⟨others, kept⟩, ?_⟩
    · rw [malloc_after_init size base set_up tidy.positive]
      exact returned
    · intro x asked live
      rw [none_live x] at live
      cases live
  · obtain ⟨p, after, returned, fresh, ⟨others, kept⟩, untouched⟩ := managed.malloc contiguous small
    exact Or.inr ⟨p, after, returned, fresh, Or.inr ⟨others, kept⟩, untouched⟩

theorem free_ends {x : Nat} (maintained : Maintained brk world) (live : world.live x ≠ none) :
    ∃ after, free x world.heap = .done PUnit.unit after ∧ Maintained brk (world.freed x after) ∧
      Untouched world (world.freed x after) := by
  rcases maintained with started | ⟨blocks, managed⟩
  · exact absurd (started.2.2 x) live
  · obtain ⟨after, returned, ⟨others, kept⟩, untouched⟩ := managed.free x live
    exact ⟨after, returned, Or.inr ⟨others, kept⟩, untouched⟩

/-- One call of the program keeps the heap managed. -/
theorem next_maintained (contiguous : Contiguous sbrk brk) (world : World Kernel) (event : Event)
    (after : World Kernel) (maintained : Maintained brk world) (small : NoWrap world event)
    (taken : next sbrk world event = some after) : Maintained brk after := by
  cases event with
  | malloc size =>
    rcases malloc_ends contiguous maintained small with
      ⟨reason, stopped, _⟩ | ⟨p, heap, returned, _, kept, _⟩
    · simp [next, stopped] at taken
    · simp only [next, returned, Option.some.injEq] at taken
      subst taken
      exact kept
  | free x =>
    by_cases live : world.live x = none
    · simp [next, live] at taken
    · obtain ⟨heap, returned, kept, _⟩ := free_ends maintained live
      simp only [next, live, if_false, returned, Option.some.injEq] at taken
      subst taken
      exact kept
  | write x a cell =>
    simp only [next, guard_some] at taken
    obtain ⟨⟨size, live, low, high, _⟩, rfl⟩ := taken
    rcases maintained with started | ⟨blocks, managed⟩
    · rw [started.2.2 x] at live
      cases live
    · exact Or.inr ⟨blocks, managed.write cell live low high⟩

theorem Maintained.sound (maintained : Maintained brk world) : HeapSound world := by
  rcases maintained with ⟨base, top, none_live⟩ | ⟨blocks, managed⟩
  · refine ⟨Or.inl ⟨base, top⟩, ?_, ?_, ?_, ?_⟩
    all_goals
      intro x
      simp [none_live]
  · exact managed.sound

theorem reached_maintained (contiguous : Contiguous sbrk brk)
    (reached : Reaches (next sbrk) NoWrap Started world) : Maintained brk world :=
  reached.invariant (fun _ started => Or.inl started) (next_maintained contiguous)

/-- In every run of calls whose sizes do not wrap, over a system call that extends the
heap contiguously or fails, the heap is sound in every state that is reached and every
next call is sound. -/
theorem user_heap_sound (contiguous : Contiguous sbrk brk) (world : World Kernel)
    (reached : Reaches (next sbrk) NoWrap Started world) :
    HeapSound world ∧ ∀ event, NoWrap world event → CallSound sbrk world event := by
  have maintained := reached_maintained contiguous reached
  refine ⟨maintained.sound, fun event small => ?_⟩
  cases event with
  | malloc size =>
    rcases malloc_ends contiguous maintained small with
      ⟨reason, stopped, harmless⟩ | ⟨p, heap, returned, _, _, untouched⟩
    · refine ⟨fun other same => ?_, fun after taken => ?_⟩
      · rw [stopped] at same
        cases same
        exact harmless
      · simp [next, stopped] at taken
    · refine ⟨fun reason same => ?_, fun after taken => ?_⟩
      · rw [returned] at same
        cases same
      · simp only [next, returned, Option.some.injEq] at taken
        subst taken
        exact untouched
  | free x =>
    intro live
    obtain ⟨heap, returned, _, untouched⟩ := free_ends maintained live
    refine ⟨fun reason same => ?_, fun after taken => ?_⟩
    · rw [returned] at same
      cases same
    · simp only [next, live, if_false, returned, Option.some.injEq] at taken
      subst taken
      exact untouched
  | write x a cell => trivial

variable (sbrk) in
/-- `malloc` returns the null pointer or a pointer that is not live to so many bytes within
the heap, and no live block overlaps them; or there is no heap to begin with. -/
def Honours (world : World Kernel) (size : Nat) : Prop :=
  (∀ reason, malloc sbrk size world.heap = .stop reason → reason.corruption = false) ∧
    ∀ p after, malloc sbrk size world.heap = .done p after → p = 0 ∨
      world.live p = none ∧ after.heapbase ≤ p ∧ p + size ≤ after.heaptop ∧
        ∀ y other, world.live y = some other → p + size ≤ y ∨ y + other ≤ p

/-- On a managed heap `malloc` honours every request whose rounding does not wrap. -/
theorem maintained_honours (contiguous : Contiguous sbrk brk) (maintained : Maintained brk world)
    (small : NoWrap world (.malloc size)) : Honours sbrk world size := by
  rcases malloc_ends contiguous maintained small with
    ⟨reason, stopped, harmless⟩ | ⟨p, heap, returned, fresh, kept, _⟩
  · refine ⟨fun other same => ?_, fun p after same => ?_⟩
    · rw [stopped] at same
      cases same
      exact harmless
    · rw [stopped] at same
      cases same
  · refine ⟨fun reason same => ?_, fun p after same => ?_⟩
    · rw [returned] at same
      cases same
    rw [returned] at same
    cases same
    rcases Nat.eq_zero_or_pos p with null | positive
    · exact Or.inl null
    have apart := fresh.resolve_left (by omega)
    have lives : (world.allocated size p heap).live = update world.live p (some size) :=
      if_neg (by omega)
    have live : (world.allocated size p heap).live p = some size := by
      rw [lives, update_self]
    have sound := kept.sound
    have within : heap.heapbase + mblocksize ≤ p ∧ _ ≤ heap.heaptop := sound.within p size live
    have large := sound.large p size live
    refine Or.inr ⟨apart, by omega, by omega, fun y other was_live => ?_⟩
    have different : p ≠ y := by
      rintro rfl
      rw [apart] at was_live
      cases was_live
    have still_live : (world.allocated size p heap).live y = some other := by
      rw [lives, update_of_ne different.symm, was_live]
    have disjoint := sound.disjoint p y size other live still_live different
    have also_large := sound.large y other still_live
    omega

end

/-- A system call that extends the heap up to 64 kilobytes. -/
def boundedSbrk (size brk : Nat) : Option Nat × Nat :=
  if brk + size < 65536 then (some brk, brk + size) else (none, brk)

theorem bounded_sbrk_contiguous : Contiguous boundedSbrk (id : Nat → Nat) where
  granted := by
    intro size brk x after answered
    unfold boundedSbrk at answered
    split at answered
    · cases answered
      refine ⟨rfl, rfl, ?_⟩
      show brk + size < sizeRange
      unfold sizeRange
      omega
    · cases answered
  refused := by
    intro size brk after answered
    unfold boundedSbrk at answered
    split at answered
    · cases answered
    · cases answered
      rfl

/-- A process that has not called `malloc` yet. -/
def freshWorld : World Nat where
  heap := { heapbase := 0, heaptop := 0, memory := fun _ => deadbeef, kernel := 4096 }
  live := fun _ => none

/-- Where the first block of a process is, and the top of the heap above it. -/
def firstBlock (size : Nat) : Option (Nat × Nat) :=
  match malloc boundedSbrk size freshWorld.heap with
  | .done p after => some (p, after.heaptop)
  | _ => none

/-- Every size that wraps is rounded like one of these, and they get a page or nothing. -/
theorem first_block_wrapped : ∀ blocks < 513,
    ∃ block ∈ firstBlock (sizeRange - blocks * mblocksize), block.1 = 4104 ∧ block.2 ≤ 8192 := by
  decide +kernel

theorem first_block_unhonoured {size p top : Nat} (found : firstBlock size = some (p, top))
    (nonnull : p ≠ 0) (short : top < p + size) : ¬ Honours boundedSbrk freshWorld size := by
  intro honours
  unfold firstBlock at found
  split at found
  · rename_i _ after returned
    cases found
    have inside := (honours.2 p after returned).resolve_left nonnull
    omega
  · cases found

/-- Whatever has been allocated and freed before, `malloc` returns as many bytes as it is
asked for, exactly if rounding the size up to blocks and to pages does not wrap. -/
theorem malloc_honours_iff (size : BitVec 32) :
    (∀ (Kernel : Type) (sbrk : Nat → Kernel → Option Nat × Kernel) (brk : Kernel → Nat)
      (world : World Kernel), Contiguous sbrk brk → Reaches (next sbrk) NoWrap Started world →
      Honours sbrk world size.toNat) ↔ size.toNat + 4104 ≤ 2 ^ 32 := by
  constructor
  · intro honours
    by_contra wrapped
    -- The size is rounded like a multiple of eight.
    generalize count : sizeRange / mblocksize - (size.toNat + 7) / mblocksize = blocks
    have same : firstBlock size.toNat = firstBlock (sizeRange - blocks * mblocksize) := by
      unfold firstBlock malloc
      rw [show (size.toNat + mblocksize - 1) % sizeRange / mblocksize * mblocksize =
        (sizeRange - blocks * mblocksize + mblocksize - 1) % sizeRange / mblocksize * mblocksize by
          unfold sizeRange mblocksize at *
          omega]
    obtain ⟨⟨p, top⟩, placed, at_start, low⟩ :=
      first_block_wrapped blocks (by unfold sizeRange mblocksize at *; omega)
    exact first_block_unhonoured (same.trans placed) (by omega) (by omega)
      (honours Nat boundedSbrk id freshWorld bounded_sbrk_contiguous
        (.start freshWorld ⟨rfl, rfl, fun _ => rfl⟩))
  · intro small Kernel sbrk brk world contiguous reached
    refine maintained_honours contiguous (reached_maintained contiguous reached) ?_
    unfold NoWrap mblocksize pageSize sizeRange
    omega

/-- The largest size is rounded up to nothing. -/
theorem largest_size_unhonoured : firstBlock 4294967295 = some (4104, 8192) ∧
    ¬ Honours boundedSbrk freshWorld 4294967295 := by
  have found : firstBlock 4294967295 = some (4104, 8192) := by
    decide +kernel
  exact ⟨found, first_block_unhonoured found (by decide) (by decide)⟩

instance (world : World Nat) (event : Event) : Decidable (NoWrap world event) := by
  cases event <;> unfold NoWrap <;> infer_instance

/-- Two blocks, one of them empty; the first is freed, and a smaller one takes its place. -/
theorem reused_block_sound :
    ∃ world, exec (next boundedSbrk) freshWorld [.malloc 20, .malloc 0, .free 4104, .malloc 5] =
        some world ∧
      world.live 4104 = some 5 ∧ world.live 4136 = some 0 ∧
      HeapSound world ∧ ∀ event, NoWrap world event → CallSound boundedSbrk world event := by
  obtain ⟨world, evaluated, first, second⟩ : ∃ world ∈ exec (next boundedSbrk) freshWorld [.malloc
      20, .malloc 0, .free 4104, .malloc 5], world.live 4104 = some 5 ∧ world.live 4136 = some 0 :=
      by
    decide +kernel
  have reached : Reaches (next boundedSbrk) NoWrap Started world :=
    reaches_of_permitted (fun _ _ => id) (.start freshWorld ⟨rfl, rfl, fun _ => rfl⟩)
      (by decide +kernel) evaluated
  exact ⟨world, evaluated, first, second, user_heap_sound bounded_sbrk_contiguous world reached⟩

end Os161.Malloc
