import Os161.Library.Program
import Os161.Library.Runs
import Mathlib.Data.List.Range

/-!
# The coremap and the page allocator

The coremap has an entry for every frame the kernel manages: the address space and
the page the frame is used for, its physical address, and its state. `alloc_kpages`
looks for consecutive free entries and marks them, `free_kpages` looks for an entry
by its virtual address and clears it. This is their behaviour once `vm_bootstrap`
has run; each call holds `cm_lock` from beginning to end and is one program.

Neither search loop checks the end of the array for every access, so the memory
behind the array is part of the model: it is read as further entries, up to where
nothing answers and the access is a bus error.
-/
namespace Os161.Vm

open Os161.Library Os161.Library.Program Os161.Library.Runs

abbrev pageSize : Nat := 4096

abbrev mipsKseg0 : BitVec 32 := 0x80000000#32

theorem kseg0_nat : mipsKseg0.toNat = 2147483648 := rfl

def paddrToKvaddr (paddr : BitVec 32) : BitVec 32 := paddr + mipsKseg0

/-- The address of a `struct addrspace`. -/
abbrev AsPtr : Type := BitVec 32

/-- `page_state_t`. -/
inductive PageState
  | free
  | dirty
  | fixed
  | clean
  deriving DecidableEq

/-- `struct coremap_entry`. -/
structure CoremapEntry where
  as : Option AsPtr
  va : BitVec 32
  pa : BitVec 32
  st : PageState
  deriving DecidableEq

/-- The ways the kernel stops: a failed assertion, an access nothing answers to, and
a call of `panic`. -/
inductive Halt
  | assertion
  | busError
  | panic
  deriving DecidableEq

/-- The error numbers of the virtual memory system. -/
inductive Errno
  | EFAULT
  | EINVAL
  | ENOMEM
  | ENOSYS
  deriving DecidableEq

/-- `struct coremap` and the memory its array is in. Entries from `size` on are the
memory behind the array, up to `readable`. The frames have different page-aligned
addresses below `MIPS_KSEG0`, as `vm_bootstrap` assigns them once and for all. -/
structure Coremap where
  size : Nat
  entries : Nat → CoremapEntry
  readable : Nat
  inside : size ≤ readable
  aligned : ∀ i, i < size → (entries i).pa.toNat % pageSize = 0
  distinct : ∀ i j, i < size → j < size → (entries i).pa = (entries j).pa → i = j
  low : ∀ i, i < size → (entries i).pa < mipsKseg0

/-- The programs of the virtual memory system that only use the coremap. -/
abbrev CoremapProgram (Value : Type) : Type := Program Halt Errno Coremap Value

/-- The entries with one of them changed in everything but its physical address. -/
def assigned (entries : Nat → CoremapEntry) (index : Nat) (as : Option AsPtr) (va : BitVec 32)
    (st : PageState) : Nat → CoremapEntry :=
  Function.update entries index { as := as, va := va, pa := (entries index).pa, st := st }

theorem pa_assigned (entries : Nat → CoremapEntry) (index other : Nat) (as : Option AsPtr)
    (va : BitVec 32) (st : PageState) :
    (assigned entries index as va st other).pa = (entries other).pa := by
  by_cases same : other = index
  · simp [assigned, same]
  · simp [assigned, same]

/-- Change an entry in everything but its physical address. -/
def Coremap.assign (coremap : Coremap) (index : Nat) (as : Option AsPtr) (va : BitVec 32)
    (st : PageState) : Coremap where
  size := coremap.size
  entries := assigned coremap.entries index as va st
  readable := coremap.readable
  inside := coremap.inside
  aligned := by
    intro i inside
    rw [pa_assigned]
    exact coremap.aligned i inside
  distinct := by
    intro i j inside other same
    rw [pa_assigned, pa_assigned] at same
    exact coremap.distinct i j inside other same
  low := by
    intro i inside
    rw [pa_assigned]
    exact coremap.low i inside

theorem assign_elsewhere {coremap : Coremap} {index k : Nat} {as : Option AsPtr} {va : BitVec 32}
    {st : PageState} (other : k ≠ index) :
    (coremap.assign index as va st).entries k = coremap.entries k :=
  Function.update_of_ne other _ _

/-- Use an entry; behind the readable memory this is a bus error. -/
def touch (index : Nat) : CoremapProgram PUnit :=
  fun coremap => if index < coremap.readable then .done PUnit.unit coremap else .stop .busError

/-- `page_alloc`. The entry keeps its virtual address. -/
def pageAlloc (cur : Option AsPtr) (pnum : Nat) : CoremapProgram PUnit := do
  touch pnum
  let entry ← inspect (fun coremap => coremap.entries pnum)
  check (entry.st = .free) .assertion
  change (fun coremap => coremap.assign pnum cur entry.va .dirty)

/-- The inner loop of `alloc_kpages`: the first offset at which the search has to
stop, because the entry there is not free or cannot be read. -/
def firstObstacle (coremap : Coremap) (i npages : Nat) : Option Nat :=
  (List.range npages).find? (fun j =>
    !(decide (i + j < coremap.readable) && decide ((coremap.entries (i + j)).st = .free)))

/-- The outer loop of `alloc_kpages`, for so many rounds, with the index it is left
with. -/
def searchLoop (npages : Nat) : Nat → Nat → CoremapProgram Nat
  | 0, i => pure i
  | rounds + 1, i => do
    let coremap ← inspect id
    if i < coremap.size then
      match firstObstacle coremap i npages with
      | none => pure i
      | some j => do
        touch (i + j)
        searchLoop npages rounds (i + j + 1)
    else pure i

variable {before coremap after : Coremap} {start i npages : Nat} {cur : Option AsPtr}

section

variable (cur : Option AsPtr) (npages : Nat)

/-- `alloc_kpages`. Every round of the search moves the index up, so there are at most
as many rounds as entries. -/
def allocKpages : CoremapProgram (BitVec 32) := do
  let size ← inspect Coremap.size
  let i ← searchLoop npages size 0
  if i = size then pure 0#32
  else do
    touch i
    let entry ← inspect (fun coremap => coremap.entries i)
    let _ ← countUp (fun j _ => pageAlloc cur (i + j)) npages PUnit.unit
    pure (paddrToKvaddr entry.pa)

/-- `free_kpages`: the first entry with that virtual address. The TLB entry of a freed
user page is invalidated too, which the coremap does not show. -/
def freeKpages (addr : BitVec 32) : CoremapProgram PUnit := do
  let coremap ← inspect id
  match (List.range coremap.size).find? (fun i => decide ((coremap.entries i).va = addr)) with
  | none => pure PUnit.unit
  | some i => change (fun coremap => coremap.assign i none (coremap.entries i).va .free)

/-- A run of free entries that lies in the map. -/
def FreeRun (coremap : Coremap) (start npages : Nat) : Prop :=
  start + npages ≤ coremap.size ∧
    ∀ k, start ≤ k → k < start + npages → (coremap.entries k).st = .free

instance (coremap : Coremap) (start npages : Nat) : Decidable (FreeRun coremap start npages) :=
  inferInstanceAs (Decidable (_ ∧ _))

/-- A run of entries has been marked as used and nothing else has changed. -/
structure Marks (cur : Option AsPtr) (start npages : Nat) (before after : Coremap) : Prop where
  size : after.size = before.size
  readable : after.readable = before.readable
  taken : ∀ k, start ≤ k → k < start + npages →
    after.entries k = { before.entries k with as := cur, st := .dirty }
  kept : ∀ k, (k < start ∨ start + npages ≤ k) → after.entries k = before.entries k

/-- What an allocation should do: mark a free run of the map and return the kernel
address of its first frame, or find that there is none and change nothing. -/
def Allocates (before : Coremap) : Outcome Halt Errno Coremap (BitVec 32) → Prop
  | .done addr after =>
    (addr ≠ 0#32 ∧ ∃ start, FreeRun before start npages ∧
      addr = paddrToKvaddr (before.entries start).pa ∧ Marks cur start npages before after) ∨
      (addr = 0#32 ∧ after = before ∧ ¬ ∃ start, FreeRun before start npages)
  | .fail _ _ | .stop _ => False

theorem kvaddr_ne_zero (inside : i < coremap.size) :
    paddrToKvaddr (coremap.entries i).pa ≠ 0#32 := by
  have low := coremap.low i inside
  unfold paddrToKvaddr
  bv_omega

theorem touch_readable (index : Nat) (coremap : Coremap) (readable : index < coremap.readable) :
    touch index coremap = .done PUnit.unit coremap := by
  unfold touch
  rw [if_pos readable]

/-- An entry is free and can be read. -/
def Available (coremap : Coremap) (k : Nat) : Prop :=
  k < coremap.readable ∧ (coremap.entries k).st = .free

abbrev AllAvailable (coremap : Coremap) (start npages : Nat) : Prop :=
  ∀ k, start ≤ k → k < start + npages → Available coremap k

theorem first_obstacle_none {npages : Nat} (clear : firstObstacle coremap i npages = none) :
    AllAvailable coremap i npages := by
  intro k above below
  have reached := List.find?_eq_none.mp clear (k - i) (List.mem_range.mpr (by omega))
  have index : i + (k - i) = k := by omega
  simpa [Available, index] using reached

/-- The first obstacle is not available, and everything before it is. -/
theorem first_obstacle_some {npages j : Nat} (found : firstObstacle coremap i npages = some j) :
    j < npages ∧ ¬ Available coremap (i + j) ∧ AllAvailable coremap i j := by
  obtain ⟨obstacle, member, earlier⟩ := List.find?_range_eq_some.mp found
  refine ⟨List.mem_range.mp member, ?_, ?_⟩
  · rintro ⟨readable, free⟩
    simp [readable, free] at obstacle
  · intro k above below
    have passed := earlier (k - i) (by omega)
    have index : i + (k - i) = k := by omega
    simpa [Available, index] using passed

/-- How the search can end. It finds the first available run; it comes out exactly at
the end of a map that has no free run; or such a map ends with a free entry, and the
search has left it. -/
inductive SearchEnds (coremap : Coremap) (npages : Nat) : Outcome Halt Errno Coremap Nat → Prop
  | found (i : Nat) (inside : i < coremap.size)
      (available : ∀ k, i ≤ k → k < i + npages → Available coremap k)
      (first : ∀ start, start < i → ¬ ∀ k, start ≤ k → k < start + npages → Available coremap k) :
      SearchEnds coremap npages (.done i coremap)
  | exhausted (none_free : ∀ start, ¬ FreeRun coremap start npages)
      (last : coremap.size = 0 ∨ (coremap.entries (coremap.size - 1)).st ≠ .free) :
      SearchEnds coremap npages (.done coremap.size coremap)
  | overshot (i : Nat) (outside : coremap.size < i)
      (none_free : ∀ start, ¬ FreeRun coremap start npages)
      (last : (coremap.entries (coremap.size - 1)).st = .free) (nonempty : 0 < coremap.size) :
      SearchEnds coremap npages (.done i coremap)
  | faulted (none_free : ∀ start, ¬ FreeRun coremap start npages)
      (last : (coremap.entries (coremap.size - 1)).st = .free) (nonempty : 0 < coremap.size) :
      SearchEnds coremap npages (.stop .busError)

theorem FreeRun.available {npages : Nat} (run : FreeRun coremap start npages) :
    AllAvailable coremap start npages := by
  intro k above below
  have inside := coremap.inside
  exact ⟨by have := run.1; omega, run.2 k above below⟩

/-- The search, from an index up to which no run starts and before which an entry is
in use. -/
theorem search_loop_ends (coremap : Coremap) {npages : Nat} (positive : 1 ≤ npages)
    (rounds i : Nat) (enough : coremap.size ≤ i + rounds) (within : i ≤ coremap.size)
    (behind : i = 0 ∨ (coremap.entries (i - 1)).st ≠ .free)
    (passed : ∀ start, start < i → ¬ AllAvailable coremap start npages) :
    SearchEnds coremap npages (searchLoop npages rounds i coremap) := by
  have ended (at_end : i = coremap.size) : SearchEnds coremap npages (.done i coremap) := by
    subst at_end
    refine .exhausted (fun start run => ?_) behind
    exact passed start (by have := run.1; omega) run.available
  induction rounds generalizing i with
  | zero => exact ended (by omega)
  | succ rounds ih =>
    by_cases below : i < coremap.size
    · cases obstacle : firstObstacle coremap i npages with
      | none =>
        have stays : searchLoop npages (rounds + 1) i coremap = .done i coremap := by
          simp only [searchLoop, inspect, bind, andThen, id, below, if_true, obstacle]
          rfl
        rw [stays]
        exact .found i below (first_obstacle_none obstacle) passed
      | some j =>
        obtain ⟨short, blocked, clear⟩ := first_obstacle_some obstacle
        have skipped : ∀ start, start < i + j + 1 → ¬ AllAvailable coremap start npages := by
          intro start before run
          by_cases earlier : start < i
          · exact passed start earlier run
          · exact blocked (run (i + j) (by omega) (by omega))
        have none_free (outside : coremap.size ≤ i + j) (start : Nat) :
            ¬ FreeRun coremap start npages := by
          intro run
          exact skipped start (by have := run.1; omega) run.available
        have last (outside : coremap.size ≤ i + j) :
            (coremap.entries (coremap.size - 1)).st = .free :=
          (clear (coremap.size - 1) (by omega) (by omega)).2
        by_cases readable : i + j < coremap.readable
        · have goes_on : searchLoop npages (rounds + 1) i coremap =
              searchLoop npages rounds (i + j + 1) coremap := by
            simp [searchLoop, inspect, bind, andThen, id, below, obstacle,
              touch_readable _ _ readable]
          rw [goes_on]
          by_cases outside : coremap.size ≤ i + j
          · have left : searchLoop npages rounds (i + j + 1) coremap =
                .done (i + j + 1) coremap := by
              cases rounds with
              | zero => rfl
              | succ rounds =>
                have beyond : ¬ i + j + 1 < coremap.size := by omega
                simp only [searchLoop, inspect, bind, andThen, id, beyond, if_false]
                rfl
            rw [left]
            exact .overshot (i + j + 1) (by omega) (none_free outside) (last outside) (by omega)
          · apply ih (i + j + 1) (by omega) (by omega)
            · refine Or.inr (fun free => blocked ⟨readable, ?_⟩)
              simpa using free
            · exact skipped
            · intro at_end
              rw [at_end]
              refine .exhausted (fun start run => ?_) (Or.inr (fun free => blocked ⟨readable, ?_⟩))
              · exact skipped start (by have := run.1; omega) run.available
              · rw [← at_end] at free
                simpa using free
        · have faults : searchLoop npages (rounds + 1) i coremap = .stop .busError := by
            simp [searchLoop, inspect, bind, andThen, id, below, obstacle, touch, readable]
          have outside : coremap.size ≤ i + j := by
            have inside := coremap.inside
            omega
          rw [faults]
          exact .faulted (none_free outside) (last outside) (by omega)
    · have stays : searchLoop npages (rounds + 1) i coremap = .done i coremap := by
        simp only [searchLoop, inspect, bind, andThen, id, below, if_false]
        rfl
      rw [stays]
      exact ended (by omega)

theorem Marks.extend {cur : Option AsPtr} {npages : Nat} {middle : Coremap}
    (marks : Marks cur start npages before middle) :
    Marks cur start (npages + 1) before
      (middle.assign (start + npages) cur (before.entries (start + npages)).va .dirty) where
  size := marks.size
  readable := marks.readable
  taken := by
    intro k above below
    by_cases same : k = start + npages
    · subst same
      have here := marks.kept (start + npages) (Or.inr (Nat.le_refl _))
      simp [Coremap.assign, assigned, here]
    · rw [← marks.taken k above (by omega)]
      simp [Coremap.assign, assigned, same]
  kept := by
    intro k outside
    have apart : k ≠ start + npages := by omega
    rw [← marks.kept k (by omega)]
    simp [Coremap.assign, assigned, apart]

/-- The marking loop of `alloc_kpages`. It only gets through when all entries are
available. -/
theorem mark_loop_ensures (cur : Option AsPtr) (start npages : Nat) (before : Coremap) :
    Ensures (¬ AllAvailable before start npages)
      (countUp (fun j _ => pageAlloc cur (start + j)) npages PUnit.unit : CoremapProgram PUnit)
      before
      (fun _ after => Marks cur start npages before after ∧ AllAvailable before start npages)
      (fun _ _ => False) := by
  refine ensures_count_up (fun j _ => pageAlloc cur (start + j))
    (fun j _ middle => Marks cur start j before middle ∧ AllAvailable before start j) PUnit.unit ?_ ?_
  · exact ⟨⟨rfl, rfl, fun k above below => by omega, fun _ _ => rfl⟩, fun k above below => by omega⟩
  · intro j _ middle short ⟨marks, available⟩
    have here : middle.entries (start + j) = before.entries (start + j) :=
      marks.kept (start + j) (Or.inr (Nat.le_refl _))
    by_cases readable : start + j < before.readable
    · have answers : start + j < middle.readable := by
        rw [marks.readable]
        exact readable
      refine Ensures.bind_done (touch_readable (start + j) middle answers) ?_
      have inspected : inspect (fun coremap : Coremap => coremap.entries (start + j)) middle =
          (.done (before.entries (start + j)) middle : Outcome Halt Errno _ _) := by
        rw [← here]
        rfl
      refine Ensures.bind_done inspected ?_
      by_cases free : (before.entries (start + j)).st = .free
      · refine Ensures.bind_done (check_passes free) (ensures_change ⟨marks.extend, ?_⟩)
        intro k above below
        by_cases same : k = start + j
        · exact same ▸ ⟨readable, free⟩
        · exact available k above (by omega)
      · constructor
        simp only [bind, andThen, check, free, if_false]
        exact fun all => free (all (start + j) (by omega) (by omega)).2
    · have silent : ¬ start + j < middle.readable := by
        rw [marks.readable]
        exact readable
      constructor
      simp only [pageAlloc, bind, andThen, touch, silent, if_false]
      exact fun all => readable (all (start + j) (by omega) (by omega)).1

/-- What `alloc_kpages` does with the index its search has found. -/
def takeFrom (i : Nat) (before : Coremap) : CoremapProgram (BitVec 32) := do
  touch i
  countUp (fun j _ => pageAlloc cur (i + j)) npages PUnit.unit
  pure (paddrToKvaddr (before.entries i).pa)

theorem alloc_kpages_of_search
    (searched : searchLoop npages before.size 0 before = .done i before) :
    allocKpages cur npages before =
      if i = before.size then .done 0#32 before
      else takeFrom cur npages i before before := by
  simp only [allocKpages, takeFrom, inspect, bind, andThen, searched]
  by_cases at_end : i = before.size
  · simp only [at_end, if_true]
    rfl
  · simp only [at_end, if_false]
    by_cases readable : i < before.readable
    · simp [andThen, inspect, touch_readable i before readable]
    · simp [andThen, touch, readable]

/-- It gets through only when everything there is available, and then it has marked it. -/
theorem take_from_ensures (i : Nat) (before : Coremap) :
    Ensures (¬ (i < before.readable ∧ AllAvailable before i npages)) (takeFrom cur npages i before)
      before
      (fun addr after => addr = paddrToKvaddr (before.entries i).pa ∧
        Marks cur i npages before after ∧ AllAvailable before i npages)
      (fun _ _ => False) := by
  unfold takeFrom
  by_cases readable : i < before.readable
  · refine Ensures.bind_done (touch_readable i before readable) ?_
    refine Ensures.bind ((mark_loop_ensures cur i npages before).allow (mt And.right)) ?_
    intro _ after marked
    exact ensures_pure ⟨rfl, marked⟩
  · constructor
    simp only [bind, andThen, touch, readable, if_false]
    exact And.left

theorem taken_available {i : Nat} (positive : 1 ≤ npages) (available : AllAvailable before i npages) :
    ∃ after, takeFrom cur npages i before before = .done (paddrToKvaddr (before.entries i).pa) after ∧
      Marks cur i npages before after := by
  have readable := (available i (Nat.le_refl _) (by omega)).1
  obtain ⟨addr, after, ran, rfl, marks, _⟩ := ((take_from_ensures cur npages i before).allow
    (fun obstructed => obstructed ⟨readable, available⟩)).returned
  exact ⟨after, ran, marks⟩

/-- An allocation has room: the map has a free run that is long enough, or it has none
and does not end with a free entry. -/
def HasRoom (coremap : Coremap) (npages : Nat) : Prop :=
  (∃ start, FreeRun coremap start npages) ∨ coremap.size = 0 ∨
    (coremap.entries (coremap.size - 1)).st ≠ .free

theorem search_ends (coremap : Coremap) {npages : Nat} (positive : 1 ≤ npages) :
    SearchEnds coremap npages (searchLoop npages coremap.size 0 coremap) :=
  search_loop_ends coremap positive coremap.size 0 (by omega) (by omega) (Or.inl rfl)
    (fun start early => by omega)

/-- Without a free run, and with a free entry at the end, there is no room. -/
theorem no_room (npages : Nat) (nonempty : 0 < coremap.size)
    (none_free : ∀ start, ¬ FreeRun coremap start npages)
    (last : (coremap.entries (coremap.size - 1)).st = .free) : ¬ HasRoom coremap npages := by
  rintro (⟨start, run⟩ | empty | used)
  · exact none_free start run
  · omega
  · exact used last

/-- With room `alloc_kpages` takes a free run of the map. -/
theorem alloc_kpages_with_room (before : Coremap) (positive : 1 ≤ npages)
    (room : HasRoom before npages) :
    Allocates cur npages before (allocKpages cur npages before) := by
  have ends := search_ends before positive
  generalize searched : searchLoop npages before.size 0 before = outcome at ends
  cases ends with
  | found i inside available first =>
    rw [alloc_kpages_of_search cur npages searched, if_neg (by omega)]
    have fits : i + npages ≤ before.size := by
      by_contra long
      refine no_room npages (by omega) (fun start run => ?_)
        (available (before.size - 1) (by omega) (by omega)).2 room
      exact first start (by have := run.1; omega) run.available
    obtain ⟨after, ran, marks⟩ := taken_available cur npages positive available
    rw [ran]
    exact Or.inl ⟨kvaddr_ne_zero inside, i,
      ⟨fits, fun k above below => (available k above below).2⟩, rfl, marks⟩
  | exhausted none_free last =>
    rw [alloc_kpages_of_search cur npages searched, if_pos rfl]
    refine Or.inr ⟨rfl, rfl, ?_⟩
    rintro ⟨start, run⟩
    exact none_free start run
  | overshot i outside none_free last nonempty | faulted none_free last nonempty =>
    exact absurd room (no_room npages nonempty none_free last)

/-- With a free run the allocation takes the first one. -/
theorem alloc_kpages_first_fit (positive : 1 ≤ npages) (run : FreeRun before start npages) :
    ∃ i after, i ≤ start ∧ i < before.size ∧
      allocKpages cur npages before = .done (paddrToKvaddr (before.entries i).pa) after ∧
      Marks cur i npages before after ∧ AllAvailable before i npages := by
  have ends := search_ends before positive
  generalize searched : searchLoop npages before.size 0 before = outcome at ends
  cases ends with
  | found i inside available first =>
    obtain ⟨after, ran, marks⟩ := taken_available cur npages positive available
    refine ⟨i, after, ?_, inside, ?_, marks, available⟩
    · by_contra later
      exact first start (by omega) run.available
    · rw [alloc_kpages_of_search cur npages searched, if_neg (by omega), ran]
  | exhausted none_free last
  | overshot i outside none_free last nonempty
  | faulted none_free last nonempty => exact absurd run (none_free start)

/-- An allocation that marks entries although there is no free run in the map. -/
theorem marks_spoil (i : Nat) (before : Coremap) (positive : 1 ≤ npages)
    (none_free : ∀ start, ¬ FreeRun before start npages) :
    ¬ Allocates cur npages before (takeFrom cur npages i before before) := by
  have marked := (take_from_ensures cur npages i before).tolerate.outcome
  intro allocated
  generalize takeFrom cur npages i before before = outcome at marked allocated
  cases outcome with
  | stop reason | fail error after => exact allocated
  | done addr after =>
    rcases allocated with ⟨_, start, run, _⟩ | ⟨_, same, _⟩
    · exact none_free start run
    obtain ⟨_, marks, available⟩ := marked
    have now := marks.taken i (Nat.le_refl _) (by omega)
    have was := (available i (Nat.le_refl _) (by omega)).2
    rw [same] at now
    rw [now] at was
    cases was

/-- Without room it does not: it runs into the memory behind the array. -/
theorem alloc_kpages_without_room (positive : 1 ≤ npages) (full : ¬ HasRoom before npages) :
    ¬ Allocates cur npages before (allocKpages cur npages before) := by
  have ends := search_ends before positive
  have none_free (start : Nat) : ¬ FreeRun before start npages := fun run => full (Or.inl ⟨start, run⟩)
  generalize searched : searchLoop npages before.size 0 before = outcome at ends
  cases ends with
  | found i inside available first | overshot i outside _ last nonempty =>
    rw [alloc_kpages_of_search cur npages searched, if_neg (by omega)]
    exact marks_spoil cur npages i before positive none_free
  | exhausted _ last => exact absurd (Or.inr last) full
  | faulted _ last nonempty =>
    have stopped : allocKpages cur npages before = .stop .busError := by
      simp [allocKpages, inspect, bind, andThen, searched]
    rw [stopped]
    exact id

end

/-- An allocation does what it should exactly when the map has a free run that is long
enough, or it has none and does not end with a free entry. -/
theorem alloc_kpages_allocates_iff (cur : Option AsPtr) (npages : Nat) (before : Coremap)
    (positive : 1 ≤ npages) :
    Allocates cur npages before (allocKpages cur npages before) ↔
      (∃ start, FreeRun before start npages) ∨ before.size = 0 ∨
        (before.entries (before.size - 1)).st ≠ .free := by
  constructor
  · intro allocated
    by_contra full
    exact alloc_kpages_without_room cur npages positive full allocated
  · exact alloc_kpages_with_room cur npages before positive

/-- An entry as `vm_bootstrap` fills it in. -/
def freshEntry (firstaddr : BitVec 32) (i : Nat) : CoremapEntry where
  as := none
  va := 0xffffffff#32
  pa := BitVec.ofNat 32 (pageSize * i) + firstaddr
  st := .free

theorem fresh_entry_pa {firstaddr : BitVec 32} {size : Nat}
    (low : firstaddr.toNat + pageSize * size ≤ mipsKseg0.toNat) (inside : i < size) :
    (freshEntry firstaddr i).pa.toNat = pageSize * i + firstaddr.toNat := by
  simp only [freshEntry, pageSize, BitVec.toNat_add, BitVec.toNat_ofNat] at low ⊢
  omega

/-- A map in which every frame is free, from some address on. -/
def freshCoremap (firstaddr : BitVec 32) (size readable : Nat) (behind : Nat → CoremapEntry)
    (inside : size ≤ readable) (aligned : firstaddr.toNat % pageSize = 0)
    (low : firstaddr.toNat + pageSize * size ≤ mipsKseg0.toNat) : Coremap where
  size := size
  entries := fun i => if i < size then freshEntry firstaddr i else behind i
  readable := readable
  inside := inside
  aligned := by
    intro i within
    rw [if_pos within, fresh_entry_pa low within, Nat.mul_add_mod]
    exact aligned
  distinct := by
    intro i j within other same
    rw [if_pos within, if_pos other] at same
    have equal := congrArg BitVec.toNat same
    rw [fresh_entry_pa low within, fresh_entry_pa low other] at equal
    unfold pageSize at equal
    omega
  low := by
    intro i within
    rw [if_pos within, BitVec.lt_def, fresh_entry_pa low within]
    unfold pageSize at low ⊢
    omega

/-- A map as `vm_bootstrap` leaves it: nothing is in use. -/
def Fresh (coremap : Coremap) : Prop :=
  ∀ i, i < coremap.size → (coremap.entries i).st = .free ∧ (coremap.entries i).as = none ∧
    (coremap.entries i).va = 0xffffffff#32

theorem fresh_coremap_fresh {firstaddr : BitVec 32} {size readable : Nat} {behind : Nat → CoremapEntry}
    (inside : size ≤ readable) (aligned : firstaddr.toNat % pageSize = 0)
    (low : firstaddr.toNat + pageSize * size ≤ mipsKseg0.toNat) :
    Fresh (freshCoremap firstaddr size readable behind inside aligned low) := by
  intro i within
  have entry : (freshCoremap firstaddr size readable behind inside aligned low).entries i =
      freshEntry firstaddr i := if_pos within
  rw [entry]
  exact ⟨rfl, rfl, rfl⟩

/-- Free frames from 0x1000 on, in memory that is clear behind the array. -/
def freeFrames (size readable : Nat) (inside : size ≤ readable)
    (low : 0x1000 + pageSize * size ≤ mipsKseg0.toNat) : Coremap :=
  freshCoremap 0x1000#32 size readable (fun _ => ⟨none, 0#32, 0#32, .free⟩) inside (by decide) low

theorem free_frames_fresh {size readable : Nat} {inside : size ≤ readable}
    {low : 0x1000 + pageSize * size ≤ mipsKseg0.toNat} : Fresh (freeFrames size readable inside low) :=
  fresh_coremap_fresh _ _ _

def twoFrames : Coremap := freeFrames 2 8 (by decide) (by decide)

def eightyFrames : Coremap := freeFrames 80 80 (by decide) (by decide)

/-- Two frames are found and marked. -/
theorem two_frames_allocated :
    1 ≤ 2 ∧ Allocates none 2 twoFrames (allocKpages none 2 twoFrames) := by
  refine ⟨by decide, (alloc_kpages_allocates_iff none 2 twoFrames (by decide)).mpr (Or.inl ⟨0, ?_⟩)⟩
  refine ⟨by decide, fun k _ below => ?_⟩
  exact (free_frames_fresh k below).1

/-- Three frames are allocated although there are two: the third entry is the memory
behind the array. -/
theorem third_of_two_frames :
    ∃ after, allocKpages none 3 twoFrames = .done 0x80001000#32 after ∧
      (twoFrames.entries twoFrames.size).st = .free ∧
      (after.entries twoFrames.size).st = .dirty ∧
      ¬ Allocates none 3 twoFrames (allocKpages none 3 twoFrames) := by
  refine ⟨_, rfl, rfl, rfl, ?_⟩
  rintro (⟨_, start, run, _⟩ | ⟨null, _⟩)
  · have short : start + 3 ≤ 2 := run.1
    omega
  · cases null

/-- Calls of the allocator. -/
inductive BlockCall
  | alloc (cur : Option AsPtr) (npages : Nat)
  | free (addr : BitVec 32)

/-- A call that returns. -/
def BlockCall.next (coremap : Coremap) : BlockCall → Option Coremap
  | .alloc cur npages =>
    match allocKpages cur npages coremap with
    | .done _ after => some after
    | _ => none
  | .free addr =>
    match freeKpages addr coremap with
    | .done _ after => some after
    | _ => none

attribute [local simp] Coremap.assign assigned BlockCall.next

theorem search_loop_reads (npages rounds i r : Nat) (before after : Coremap)
    (searched : searchLoop npages rounds i before = .done r after) : after = before := by
  induction rounds generalizing i with
  | zero => cases searched; rfl
  | succ rounds ih =>
    by_cases below : i < before.size
    · cases obstacle : firstObstacle before i npages with
      | none =>
        simp only [searchLoop, inspect, bind, andThen, id, below, if_true, obstacle] at searched
        exact (Outcome.done.inj searched).2.symm
      | some j =>
        simp only [searchLoop, inspect, bind, andThen, id, below, if_true, obstacle] at searched
        by_cases readable : i + j < before.readable
        · simp only [touch_readable _ _ readable] at searched
          exact ih (i + j + 1) searched
        · simp only [touch, readable, if_false] at searched
          cases searched
    · simp only [searchLoop, inspect, bind, andThen, id, below, if_false] at searched
      exact (Outcome.done.inj searched).2.symm

/-- An allocation that returns has found nothing and changed nothing, or it has marked
entries that were available. -/
theorem alloc_kpages_done {addr : BitVec 32}
    (allocated : allocKpages cur npages before = .done addr after) :
    (addr = 0#32 ∧ after = before) ∨
      ∃ i, searchLoop npages before.size 0 before = .done i before ∧ i ≠ before.size ∧
        addr = paddrToKvaddr (before.entries i).pa ∧ Marks cur i npages before after ∧
        AllAvailable before i npages := by
  cases searched : searchLoop npages before.size 0 before with
  | stop reason
  | fail error middle => simp [allocKpages, inspect, bind, andThen, searched] at allocated
  | done i middle =>
    have same := search_loop_reads npages before.size 0 i before middle searched
    subst same
    rw [alloc_kpages_of_search cur npages searched] at allocated
    by_cases at_end : i = middle.size
    · rw [if_pos at_end] at allocated
      cases allocated
      exact Or.inl ⟨rfl, rfl⟩
    rw [if_neg at_end] at allocated
    exact Or.inr ⟨i, rfl, at_end, (take_from_ensures cur npages i middle).of_done allocated⟩

/-- `free_kpages` frees the first frame that has the address, if one has. -/
theorem free_kpages_cases (addr : BitVec 32) (before : Coremap) :
    (freeKpages addr before = .done PUnit.unit before ∧
      ∀ k, k < before.size → (before.entries k).va ≠ addr) ∨
    ∃ i, i < before.size ∧ (before.entries i).va = addr ∧
      (∀ k, k < i → (before.entries k).va ≠ addr) ∧
      freeKpages addr before = .done PUnit.unit (before.assign i none addr .free) := by
  cases found : (List.range before.size).find? (fun i => decide ((before.entries i).va = addr)) with
  | none =>
    refine Or.inl ⟨?_, ?_⟩
    · simp only [freeKpages, inspect, bind, andThen, id, found]
      rfl
    · intro k inside same
      exact List.find?_eq_none.mp found k (List.mem_range.mpr inside) (by simpa using same)
  | some i =>
    obtain ⟨here, member, earlier⟩ := List.find?_range_eq_some.mp found
    have same : (before.entries i).va = addr := by simpa using here
    refine Or.inr ⟨i, List.mem_range.mp member, same, ?_, ?_⟩
    · intro k below
      simpa using earlier k below
    · simp [freeKpages, inspect, bind, andThen, id, found, change, same]

/-- A call that returns keeps the size of the map and the addresses in its entries. -/
structure SameAddresses (before after : Coremap) : Prop where
  size : after.size = before.size
  va : ∀ k, (after.entries k).va = (before.entries k).va
  pa : ∀ k, (after.entries k).pa = (before.entries k).pa

theorem Marks.same_addresses (marks : Marks cur start npages before after) :
    SameAddresses before after := by
  have same (k : Nat) : (after.entries k).va = (before.entries k).va ∧
      (after.entries k).pa = (before.entries k).pa := by
    by_cases within : start ≤ k ∧ k < start + npages
    · rw [marks.taken k within.1 within.2]
      exact ⟨rfl, rfl⟩
    · rw [marks.kept k (by omega)]
      exact ⟨rfl, rfl⟩
  exact ⟨marks.size, fun k => (same k).1, fun k => (same k).2⟩

/-- What a call that returns can do: nothing, mark available entries, or clear the
first entry with the virtual address it is given. -/
theorem block_call_cases {call : BlockCall} (returned : call.next before = some after) :
    after = before ∨
      (∃ cur start npages, Marks cur start npages before after ∧ AllAvailable before start npages) ∨
      ∃ addr i, call = .free addr ∧ (before.entries i).va = addr ∧
        after = before.assign i none addr .free := by
  cases call with
  | alloc cur npages =>
    cases allocated : allocKpages cur npages before with
    | stop reason | fail error middle => simp [allocated] at returned
    | done addr middle =>
      have same : middle = after := by simpa [allocated] using returned
      subst same
      rcases alloc_kpages_done allocated with
        ⟨_, unchanged⟩ | ⟨start, _, _, _, marks, available⟩
      · exact Or.inl unchanged
      · exact Or.inr (Or.inl ⟨cur, start, npages, marks, available⟩)
  | free addr =>
    rcases free_kpages_cases addr before with ⟨freed, _⟩ | ⟨i, _, same, _, freed⟩
    · have unchanged : before = after := by simpa [freed] using returned
      exact Or.inl unchanged.symm
    · have changed : before.assign i none addr .free = after := by
        simpa [freed] using returned
      exact Or.inr (Or.inr ⟨addr, i, rfl, same, changed.symm⟩)

theorem block_call_same_addresses (before after : Coremap) (call : BlockCall)
    (returned : call.next before = some after) : SameAddresses before after := by
  rcases block_call_cases returned with
    rfl | ⟨cur, start, npages, marks, _⟩ | ⟨addr, i, _, same, rfl⟩
  · exact ⟨rfl, fun _ => rfl, fun _ => rfl⟩
  · exact marks.same_addresses
  · refine ⟨rfl, fun k => ?_, fun k => pa_assigned _ _ _ _ _ _⟩
    by_cases here : k = i
    · simp [here, same]
    · simp [here]

/-- An entry in use stays in use as long as nothing with its virtual address is freed. -/
theorem block_call_keeps_used (before after : Coremap) (call : BlockCall) (i : Nat)
    (used : (before.entries i).st ≠ .free) (other : call ≠ .free (before.entries i).va)
    (returned : call.next before = some after) : (after.entries i).st ≠ .free := by
  rcases block_call_cases returned with
    rfl | ⟨cur, start, npages, marks, available⟩ | ⟨addr, found, rfl, same, rfl⟩
  · exact used
  · by_cases within : start ≤ i ∧ i < start + npages
    · exact absurd (available i within.1 within.2).2 used
    · rw [marks.kept i (by omega)]
      exact used
  · have apart : i ≠ found := by
      rintro rfl
      exact other (by rw [same])
    simpa [apart] using used

theorem block_calls_same_addresses (before after : Coremap) (calls : List BlockCall)
    (returned : exec BlockCall.next before calls = some after) : SameAddresses before after := by
  refine (reaches_of_exec (· = before) calls rfl returned).invariant ?_ ?_
  · rintro _ rfl
    exact ⟨rfl, fun _ => rfl, fun _ => rfl⟩
  · intro middle call next same _ taken
    have later := block_call_same_addresses middle next call taken
    exact ⟨later.size.trans same.size, fun k => (later.va k).trans (same.va k),
      fun k => (later.pa k).trans (same.pa k)⟩

/-- Calls that do not free the virtual address of an entry in use leave it in use. -/
theorem block_calls_keep_used (before after : Coremap) (calls : List BlockCall) (i : Nat)
    (used : (before.entries i).st ≠ .free)
    (others : ∀ call, call ∈ calls → call ≠ .free (before.entries i).va)
    (returned : exec BlockCall.next before calls = some after) :
    (after.entries i).st ≠ .free := by
  induction calls generalizing before with
  | nil =>
    cases returned
    exact used
  | cons call rest ih =>
    simp only [exec, Option.bind_eq_some_iff] at returned
    obtain ⟨middle, first, remaining⟩ := returned
    have same := block_call_same_addresses before middle call first
    refine ih middle ?_ ?_ remaining
    · exact block_call_keeps_used before middle call i used (others call List.mem_cons_self) first
    · intro other member
      rw [same.va]
      exact others other (List.mem_cons_of_mem _ member)

/-- The entries an allocation has taken. -/
def Taken (before after : Coremap) (k : Nat) : Prop :=
  (before.entries k).st = .free ∧ (after.entries k).st ≠ .free

/-- A call makes exactly the entries of a block free and touches no other. -/
structure Releases (block : Nat → Prop) (before after : Coremap) : Prop where
  freed : ∀ k, block k ↔ (before.entries k).st ≠ .free ∧ (after.entries k).st = .free
  kept : ∀ k, ¬ block k → after.entries k = before.entries k

/-- The first free entry of the map. -/
def FirstFree (coremap : Coremap) (i : Nat) : Prop :=
  i < coremap.size ∧ (coremap.entries i).st = .free ∧
    ∀ k, k < i → (coremap.entries k).st ≠ .free

/-- The entries that are marked are the ones that are taken. -/
theorem Marks.taken_iff (marks : Marks cur start npages before after)
    (available : AllAvailable before start npages) (k : Nat) :
    Taken before after k ↔ start ≤ k ∧ k < start + npages := by
  constructor
  · rintro ⟨free, used⟩
    by_contra outside
    rw [marks.kept k (by omega)] at used
    exact used free
  · rintro ⟨above, below⟩
    refine ⟨(available k above below).2, ?_⟩
    rw [marks.taken k above below]
    simp

/-- The search for one page ends at the first free entry. -/
theorem search_one_page (searched : searchLoop 1 before.size 0 before = .done i before) :
    (i < before.size → FirstFree before i) ∧ ∀ first, FirstFree before first → i = first := by
  have ends := search_ends before (Nat.le_refl 1)
  have single (first : Nat) (free : FirstFree before first) : FreeRun before first 1 := by
    refine ⟨free.1, fun k above below => ?_⟩
    have same : k = first := by omega
    exact same ▸ free.2.1
  rw [searched] at ends
  generalize ended : (Outcome.done i before : Outcome Halt Errno Coremap Nat) = outcome at ends
  cases ends with
  | found found inside available first =>
    obtain ⟨rfl, _⟩ := Outcome.done.inj ended
    have in_use (k : Nat) (below : k < i) : (before.entries k).st ≠ .free := by
      intro free
      refine first k below (fun other above before_next => ?_)
      have same : other = k := by omega
      have readable := before.inside
      exact same ▸ ⟨by omega, free⟩
    have free := (available i (Nat.le_refl _) (by omega)).2
    refine ⟨fun _ => ⟨inside, free, in_use⟩, fun other first_free => ?_⟩
    rcases Nat.lt_trichotomy i other with below | same | above
    · exact absurd free (first_free.2.2 i below)
    · exact same
    · exact absurd first_free.2.1 (in_use other above)
  | exhausted none_free last | overshot found outside none_free last nonempty =>
    obtain ⟨rfl, _⟩ := Outcome.done.inj ended
    exact ⟨fun below => by omega, fun first free => absurd (single first free) (none_free first)⟩
  | faulted none_free last nonempty => cases ended

section Release

variable {cur : Option AsPtr} {start npages : Nat} {before middle later after : Coremap}
  {addr : BitVec 32}

/-- If the entries an allocation has marked are what a call of `free_kpages` frees, there is
one of them, and it is the first entry with the address. -/
theorem marked_of_released (positive : 1 ≤ npages) (marks : Marks cur start npages before middle)
    (available : AllAvailable before start npages)
    (freed : freeKpages addr later = .done PUnit.unit after)
    (releases : Releases (Taken before middle) later after) :
    npages = 1 ∧ start < later.size ∧ (later.entries start).va = addr ∧
      ∀ k, k < start → (later.entries k).va ≠ addr := by
  have block := marks.taken_iff available
  rcases free_kpages_cases addr later with ⟨unchanged, _⟩ | ⟨i, inside, here, earlier, changed⟩
  · obtain ⟨_, same_map⟩ := Outcome.done.inj (freed.symm.trans unchanged)
    obtain ⟨used, free⟩ := (releases.freed start).mp ((block start).mpr ⟨Nat.le_refl _, by omega⟩)
    rw [same_map] at free
    exact absurd free used
  · obtain ⟨_, same_map⟩ := Outcome.done.inj (freed.symm.trans changed)
    have only (k : Nat) (member : start ≤ k ∧ k < start + npages) : k = i := by
      by_contra apart
      obtain ⟨used, free⟩ := (releases.freed k).mp ((block k).mpr member)
      rw [same_map] at free
      exact used (by simpa [apart] using free)
    have first := only start ⟨Nat.le_refl _, by omega⟩
    have single : npages = 1 := by
      by_contra several
      have second := only (start + 1) ⟨by omega, by omega⟩
      omega
    exact ⟨single, first ▸ inside, first ▸ here, first ▸ earlier⟩

/-- A single entry that is still in use is given back if it is the first with the address. -/
theorem released_of_first (marks : Marks cur start 1 before middle)
    (available : AllAvailable before start 1)
    (still : (later.entries start).st ≠ .free) (inside : start < later.size)
    (here : (later.entries start).va = addr)
    (earlier : ∀ k, k < start → (later.entries k).va ≠ addr) :
    ∃ after, freeKpages addr later = .done PUnit.unit after ∧
      Releases (Taken before middle) later after := by
  have block := marks.taken_iff available
  rcases free_kpages_cases addr later with ⟨_, absent⟩ | ⟨i, _, matches_addr, before_i, changed⟩
  · exact absurd here (absent start inside)
  have here_found : i = start := by
    rcases Nat.lt_trichotomy i start with below | equal | above
    · exact absurd matches_addr (earlier i below)
    · exact equal
    · exact absurd here (before_i start above)
  subst here_found
  refine ⟨_, changed, ?_, ?_⟩
  · intro k
    rw [block k]
    obtain rfl | equal := eq_or_ne k i
    · simp [still]
    · rw [assign_elsewhere equal]
      exact ⟨fun within => absurd within (by omega), fun ⟨used, free⟩ => absurd free used⟩
  · intro k outside
    have equal : k ≠ i := by
      rintro rfl
      exact outside ((block k).mpr ⟨Nat.le_refl _, by omega⟩)
    exact assign_elsewhere equal

end Release

/-- A block is given back exactly when it is a single frame whose entry already had the
kernel address of the frame as its virtual address, and no earlier entry had it. Calls
in between, as long as they free other addresses, make no difference. -/
theorem free_kpages_releases_iff (cur : Option AsPtr) (npages : Nat)
    (before middle later : Coremap) (addr : BitVec 32) (positive : 1 ≤ npages)
    (allocated : allocKpages cur npages before = .done addr middle) (succeeded : addr ≠ 0#32)
    (calls : List BlockCall) (others : ∀ call, call ∈ calls → call ≠ .free addr)
    (returned : exec BlockCall.next middle calls = some later) :
    (∃ after, freeKpages addr later = .done PUnit.unit after ∧
      Releases (Taken before middle) later after) ↔
      npages = 1 ∧ ∃ i, FirstFree before i ∧
        (before.entries i).va = paddrToKvaddr (before.entries i).pa ∧
        ∀ k, k < i → (before.entries k).va ≠ paddrToKvaddr (before.entries i).pa := by
  rcases alloc_kpages_done allocated with
    ⟨null, _⟩ | ⟨start, searched, _, address, marks, available⟩
  · exact absurd null succeeded
  have marked := marks.same_addresses
  have same := block_calls_same_addresses middle later calls returned
  have va (k : Nat) : (later.entries k).va = (before.entries k).va :=
    (same.va k).trans (marked.va k)
  have size : later.size = before.size := same.size.trans marked.size
  constructor
  · rintro ⟨after, freed, releases⟩
    obtain ⟨rfl, inside, here, earlier⟩ := marked_of_released positive marks available freed releases
    refine ⟨rfl, start, (search_one_page searched).1 (size ▸ inside), ?_, ?_⟩
    · rw [← va start, here, address]
    · intro k below
      rw [← va k, ← address]
      exact earlier k below
  · rintro ⟨rfl, i, first, here, earlier⟩
    obtain rfl := (search_one_page searched).2 i first
    have in_use : (middle.entries start).st ≠ .free := by
      rw [marks.taken start (Nat.le_refl _) (by omega)]
      simp
    have still : (later.entries start).st ≠ .free := by
      refine block_calls_keep_used middle later calls start in_use (fun call member => ?_) returned
      rw [marked.va, here, ← address]
      exact others call member
    refine released_of_first marks available still (size ▸ first.1) ?_ fun k below => ?_
    · rw [va, here, address]
    · rw [va, address]
      exact earlier k below

/-- A frame whose entry has its kernel address as virtual address. -/
def recordedFrame : Coremap :=
  twoFrames.assign 0 none 0x80001000#32 .free

/-- Such a frame is given back, also after the other one has been allocated and freed. -/
theorem recorded_frame_released :
    ∃ middle later, allocKpages none 1 recordedFrame = .done 0x80001000#32 middle ∧
      exec BlockCall.next middle [.alloc none 1, .free 0x80002000#32] = some later ∧
      (later.entries 1).st = .dirty ∧
      ∃ after, freeKpages 0x80001000#32 later = .done PUnit.unit after ∧
        Releases (Taken recordedFrame middle) later after := by
  refine ⟨_, _, rfl, rfl, by decide, (free_kpages_releases_iff none 1 recordedFrame _ _
    0x80001000#32 (by decide) rfl (by decide) [.alloc none 1, .free 0x80002000#32] (by simp)
    rfl).mpr ⟨rfl, 0, ?_, by decide, ?_⟩⟩
  · exact ⟨by decide, by decide, fun k below => by omega⟩
  · intro k below
    omega

/-- After `vm_bootstrap` no entry has the kernel address of a frame, and a frame that is
freed stays in use. -/
theorem freed_frame_stays_used :
    ∃ middle after, allocKpages none 1 twoFrames = .done 0x80001000#32 middle ∧
      freeKpages 0x80001000#32 middle = .done PUnit.unit after ∧
      Taken twoFrames middle 0 ∧ (after.entries 0).st = .dirty ∧
      ¬ Releases (Taken twoFrames middle) middle after := by
  refine ⟨_, _, rfl, rfl, ⟨rfl, by decide⟩, rfl, ?_⟩
  intro releases
  have freed := ((releases.freed 0).mp ⟨rfl, by decide⟩).2
  exact absurd freed (by decide)

end Os161.Vm
