import Os161.Proc.ExitWait

/-!
# What forks, waits and exits keep in every run

Whatever the processes do, a process with a thread has its two semaphores, what stands in
the table has been forked, and a process that has been forked is in the list of the process
that forked it only when its semaphores exist. A child's `p_childsem` is raised by the child
alone, after it has stored its exit code.
-/
namespace Os161.Proc.ExitWait

open Os161.Library.Runs Function
open Os161.Proc.ProcTable (pidMax scan memsetChildren)

variable {Addr : Type}

/-- How far a process is in `sys__exit`. -/
def Place.stage : Place Addr → Nat
  | .exitCalled => 1
  | .exitPosted => 2
  | .exitLet => 3
  | .exitLoop _ | .exitEntry _ _ | .exitSem _ _ => 4
  | .exitWoken => 5
  | .exitFreed => 6
  | .gone => 7
  | _ => 0

/-- The semaphores of a process have been made. -/
def Made (state : State Addr) (addr : Addr) : Prop :=
  state.sems (.childsem addr) ≠ .absent

/-- A process has raised its `p_childsem`. -/
def Posted (state : State Addr) (addr : Addr) : Prop :=
  ∃ process, state.procs addr = some process ∧ 2 ≤ process.place.stage

/-- A structure without a thread that a process has allocated. -/
def Newborn (state : State Addr) (parent child : Addr) (created : Process Addr) : Prop :=
  state.procs child = some created ∧ created.place = .unborn ∧ created.offspring = [] ∧
    state.forkedBy child = some parent

/-- What a process relies on where it is. -/
def PlaceFormed (state : State Addr) (addr : Addr) : Place Addr → Prop
  | .forkCalled child | .forkScan child _ =>
      ¬ Made state child ∧ ∃ created, Newborn state addr child created
  | .forkEntered child pid | .forkAllocated child pid => ¬ Made state child ∧
      ∃ created, Newborn state addr child created ∧ created.pId = pid
  | .forkCreated child pid | .forkListed child pid | .forkUnlocked child pid => Made state child ∧
      ∃ created, Newborn state addr child created ∧ created.pId = pid
  | .waitChecked _ entry | .waitEntry _ entry => ∃ parent, state.forkedBy entry = some parent ∧
      (parent = addr → Made state entry)
  | .waitSem _ entry sem => ∃ parent, state.forkedBy entry = some parent ∧
      (parent = addr → sem = some (.childsem entry))
  | .waitWoken _ entry | .waitFound _ entry => ∃ parent, state.forkedBy entry = some parent ∧
      (parent = addr → Posted state entry)
  | .exitEntry _ entry => Made state entry
  | .exitSem _ sem => ∃ owner, sem = some (.parsem owner)
  | _ => True

/-- The invariant of every run. -/
structure Formed (state : State Addr) : Prop where
  made : ∀ addr, Made state addr → ∃ process, state.procs addr = some process ∧
    process.pParsem = some (.parsem addr) ∧ process.pChildsem = some (.childsem addr)
  threaded : ∀ addr process, state.procs addr = some process → process.place ≠ .unborn →
    Made state addr
  known : ∀ child parent, state.forkedBy child = some parent →
    (∃ created, state.procs child = some created) ∧ ∃ forker, state.procs parent = some forker
  offspring : ∀ addr process pid child, state.procs addr = some process →
    (pid, child) ∈ process.offspring → state.forkedBy child = some addr ∧ Made state child ∧
      ∃ created, state.procs child = some created ∧ created.pId = pid
  codes : ∀ addr process, state.procs addr = some process → 1 ≤ process.place.stage →
    process.tf.v0 = callExit ∧ process.pExitcode = process.tf.a0
  posts : ∀ addr count sleepers, state.sems (.childsem addr) = .live (count + 1) sleepers →
    Posted state addr
  entries : ∀ pid entry, state.procArray pid = some entry → ∃ parent,
    state.forkedBy entry = some parent ∧ (Made state entry ∨ ∃ process,
      state.procs parent = some process ∧
        (process.place = .forkEntered entry pid ∨ process.place = .forkAllocated entry pid))
  places : ∀ addr process, state.procs addr = some process → PlaceFormed state addr process.place

/-- What no step undoes. -/
structure Onward (state after : State Addr) : Prop where
  stays : ∀ addr process, state.procs addr = some process → ∃ later,
    after.procs addr = some later ∧ process.place.stage ≤ later.place.stage ∧
      (Made state addr → later.pId = process.pId ∧ later.pParsem = process.pParsem ∧
        later.pChildsem = process.pChildsem)
  made : ∀ addr, Made state addr → Made after addr
  forkedBy : ∀ child parent, state.forkedBy child = some parent → after.forkedBy child = some parent

/-- What a step of one process leaves as it is: all structures but its own and those it has
allocated for children without a thread. -/
def Untouched (state after : State Addr) (addr : Addr) : Prop :=
  ∀ other process, state.procs other = some process → other ≠ addr →
    (process.place = .unborn → state.forkedBy other ≠ some addr) →
    after.procs other = some process ∧ (Made after other → Made state other)

variable {state after : State Addr} {process created : Process Addr} {addr child : Addr}
  {action : Action Addr} {pid : Nat}

attribute [local simp] runprogram forkCreate Process.made Process.lists

theorem Onward.posted (onward : Onward state after) (addr : Addr) (posted : Posted state addr) :
    Posted after addr := by
  grind [Onward, Posted]

/-- What a process relies on stays, if the structures it has allocated do. -/
theorem PlaceFormed.later (onward : Onward state after) (addr : Addr)
    (newborn : ∀ child created, Newborn state addr child created →
      Newborn after addr child created ∧ (Made after child → Made state child)) (place : Place Addr)
    (formed : PlaceFormed state addr place) : PlaceFormed after addr place := by
  cases place with
  | forkCalled child | forkScan child _ | forkEntered child pid | forkAllocated child pid =>
      grind [PlaceFormed]
  | forkCreated child pid | forkListed child pid | forkUnlocked child pid =>
    grind [Onward, PlaceFormed]
  | waitChecked _ entry | waitEntry _ entry | waitSem _ entry sem => grind [Onward, PlaceFormed]
  | waitWoken _ entry | waitFound _ entry => grind [Onward, PlaceFormed, Onward.posted]
  | exitEntry _ entry => exact onward.made entry formed
  | exitSem _ sem => exact formed
  | _ => trivial

/-- The structures another process has allocated stay. -/
theorem Untouched.newborn (onward : Onward state after) (untouched : Untouched state after addr)
    (actor : ∀ process, state.procs addr = some process → process.place ≠ .unborn) {other : Addr}
    (differs : other ≠ addr) (child : Addr) (created : Process Addr)
    (born : Newborn state other child created) :
    Newborn after other child created ∧ (Made after child → Made state child) := by
  obtain ⟨present, unborn, childless, parent⟩ := born
  have apart : child ≠ addr := by
    rintro rfl
    exact actor created present unborn
  have foreign : state.forkedBy child ≠ some addr := by
    rw [parent]
    exact fun same => differs (Option.some.inj same)
  obtain ⟨still, unmade⟩ := untouched child created present apart (fun _ => foreign)
  exact ⟨⟨still, unborn, childless, onward.forkedBy child other parent⟩, unmade⟩

/-- What has to be shown of a structure that a step has written. -/
structure Settled (state after : State Addr) (addr : Addr) (process : Process Addr) : Prop where
  threaded : process.place ≠ .unborn → Made after addr
  offspring : ∀ pid child, (pid, child) ∈ process.offspring →
    (∃ before, state.procs addr = some before ∧ (pid, child) ∈ before.offspring) ∨
      (after.forkedBy child = some addr ∧ Made after child ∧
        ∃ created, after.procs child = some created ∧ created.pId = pid)
  codes : 1 ≤ process.place.stage → process.tf.v0 = callExit ∧ process.pExitcode = process.tf.a0
  place : PlaceFormed after addr process.place

/-- A process that is making the entry of a child goes on making it, or is done. -/
def KeepsMaking (state after : State Addr) (addr : Addr) : Prop :=
  ∀ process entry pid, state.procs addr = some process →
    (process.place = .forkEntered entry pid ∨ process.place = .forkAllocated entry pid) →
    Made after entry ∨ ∃ later, after.procs addr = some later ∧
      (later.place = .forkEntered entry pid ∨ later.place = .forkAllocated entry pid)

/-- A step keeps the invariant when what it has written is right. -/
theorem Formed.advance (formed : Formed state) (addr : Addr) (onward : Onward state after)
    (untouched : Untouched state after addr)
    (actor : ∀ process, state.procs addr = some process → process.place ≠ .unborn)
    (made : ∀ other, Made after other → Made state other ∨ ∃ process,
      after.procs other = some process ∧ process.pParsem = some (.parsem other) ∧
        process.pChildsem = some (.childsem other))
    (written : ∀ other process, after.procs other = some process →
      (state.procs other = some process ∧ other ≠ addr) ∨ Settled state after other process)
    (known : ∀ child parent, after.forkedBy child = some parent →
      state.forkedBy child = some parent ∨
        (∃ created, after.procs child = some created) ∧ ∃ forker, after.procs parent = some forker)
    (posts : ∀ other count sleepers, after.sems (.childsem other) = .live (count + 1) sleepers →
      Posted after other ∨ ∃ before queue, state.sems (.childsem other) = .live (before + 1) queue)
    (entries : ∀ pid entry, after.procArray pid = some entry →
      state.procArray pid = some entry ∨ ∃ process, after.procs addr = some process ∧
        process.place = .forkEntered entry pid ∧ after.forkedBy entry = some addr)
    (making : KeepsMaking state after addr) : Formed after where
  made := by grind [Formed, Onward]
  threaded := by grind [Formed, Onward, Settled]
  known := by grind [Formed, Onward]
  offspring := by
    have old (other : Addr) (before : Process Addr) (pid : Nat) (child : Addr)
        (found : state.procs other = some before) (member : (pid, child) ∈ before.offspring) :
        after.forkedBy child = some other ∧ Made after child ∧
          ∃ created, after.procs child = some created ∧ created.pId = pid := by
      grind [Formed, Onward]
    intro other process pid child present member
    rcases written other process present with ⟨before, _⟩ | settled
    · exact old other process pid child before member
    · grind [Settled]
  codes := by grind [Formed, Settled]
  posts := by grind [Formed, Onward.posted]
  entries := by
    intro pid entry present
    rcases entries pid entry present with before | ⟨process, found, place, forked⟩
    · grind [Formed, Onward, Untouched, KeepsMaking]
    · exact ⟨addr, forked, Or.inr ⟨process, found, Or.inl place⟩⟩
  places := by
    intro other process present
    rcases written other process present with ⟨before, differs⟩ | settled
    · exact PlaceFormed.later onward other (untouched.newborn onward actor differs) _
        (formed.places other process before)
    · exact settled.place

/-- A step that writes the structure of its own process only, and makes no semaphore. -/
structure Own (state after : State Addr) (addr : Addr) (process later : Process Addr) : Prop where
  found : state.procs addr = some process
  threaded : process.place ≠ .unborn
  written : after.procs addr = some later
  others : ∀ other, other ≠ addr → after.procs other = state.procs other
  forkedBy : after.forkedBy = state.forkedBy
  made : ∀ other, Made after other ↔ Made state other
  pId : later.pId = process.pId
  pParsem : later.pParsem = process.pParsem
  pChildsem : later.pChildsem = process.pChildsem
  offspring : ∀ pid child, (pid, child) ∈ later.offspring → (pid, child) ∈ process.offspring ∨
    (state.forkedBy child = some addr ∧ Made state child ∧
      ∃ created, state.procs child = some created ∧ created.pId = pid)
  stage : process.place.stage ≤ later.place.stage

section

variable {later : Process Addr} (own : Own state after addr process later)

include own

theorem Own.onward : Onward state after where
  stays := by grind [Own]
  made := fun other => (own.made other).mpr
  forkedBy := fun child parent forked => own.forkedBy ▸ forked

theorem Own.newborn (parent child : Addr) (created : Process Addr)
    (born : Newborn state parent child created) :
    Newborn after parent child created ∧ (Made after child → Made state child) := by
  grind [Own, Newborn]

/-- A step of one process on its own structure keeps the invariant. -/
theorem Own.formed (formed : Formed state)
    (codes : 1 ≤ later.place.stage → later.tf.v0 = callExit ∧ later.pExitcode = later.tf.a0)
    (relies : PlaceFormed state addr later.place)
    (posts : ∀ other count sleepers, after.sems (.childsem other) = .live (count + 1) sleepers →
      Posted after other ∨ ∃ before queue, state.sems (.childsem other) = .live (before + 1) queue)
    (entries : ∀ pid entry, after.procArray pid = some entry → state.procArray pid = some entry)
    (settled : ∀ entry pid, process.place ≠ .forkEntered entry pid ∧
      process.place ≠ .forkAllocated entry pid) : Formed after := by
  have only (before : Process Addr) (found : state.procs addr = some before) : process = before :=
    Option.mem_unique own.found found
  refine formed.advance addr own.onward ?_ ?_ ?_ ?_ ?_ posts ?_ ?_
  · intro other before found differs _
    exact ⟨(own.others other differs).trans found, (own.made other).mp⟩
  · intro before found
    exact only before found ▸ own.threaded
  · exact fun other made => Or.inl ((own.made other).mp made)
  · intro other written present
    obtain rfl | same := eq_or_ne other addr
    · have equal : later = written := Option.mem_unique own.written present
      subst equal
      refine Or.inr ⟨fun _ => ?_, fun pid child member => ?_, codes, ?_⟩
      · exact (own.made other).mpr (formed.threaded other process own.found own.threaded)
      · grind [Own]
      · exact PlaceFormed.later own.onward other (own.newborn other) _ relies
    · exact Or.inl ⟨(own.others other same).symm.trans present, same⟩
  · exact fun child parent forked => Or.inl (own.forkedBy ▸ forked)
  · exact fun pid entry present => Or.inl (entries pid entry present)
  · intro before entry pid found making
    have equal := only before found
    subst equal
    rcases making with place | place
    · exact absurd place (settled entry pid).1
    · exact absurd place (settled entry pid).2

end

/-- A process that takes a turn relies on what it has found. -/
theorem turn_place {later : Process Addr} (formed : Formed state)
    (found : state.procs addr = some process) (turn : Turn state addr process action later) :
    PlaceFormed state addr later.place := by
  have relied := formed.places addr process found
  cases turn with
  | waitCheck was number argument inside present => grind [Formed, PlaceFormed]
  | lock was | scan was | unlock was | checked was | found was =>
    rw [was] at relied
    exact relied
  | childsem was present => grind [Formed, PlaceFormed]
  | loop was listed =>
    exact (formed.offspring addr process _ _ found (List.mem_of_getElem? listed)).2.1
  | parsem was present => grind [Formed, PlaceFormed]
  | user was =>
    show PlaceFormed state addr process.place
    exact relied
  | _ => trivial

/-- What a process relies on once it has got a semaphore. -/
theorem waits_place {sem : Sem Addr} {place : Place Addr} {count : Nat} {sleepers : List Addr}
    (formed : Formed state) (found : state.procs addr = some process)
    (live : state.sems sem = .live (count + 1) sleepers) (waits : Waits process sem place) :
    PlaceFormed state addr place := by
  grind [Formed, Waits, PlaceFormed]

/-- A step that writes the structure of its own process and that of a child of it that has
no thread yet. -/
structure Pair (state after : State Addr) (addr child : Addr)
    (process later created new : Process Addr) : Prop where
  found : state.procs addr = some process
  born : Newborn state addr child created
  threaded : process.place ≠ .unborn
  written : after.procs addr = some later
  writtenChild : after.procs child = some new
  others : ∀ other, other ≠ addr → other ≠ child → after.procs other = state.procs other
  forkedBy : after.forkedBy = state.forkedBy
  sems : ∀ sem, sem ≠ .parsem child → sem ≠ .childsem child → after.sems sem = state.sems sem
  kept : Made state child → Made after child ∧ new.pId = created.pId ∧
    new.pParsem = created.pParsem ∧ new.pChildsem = created.pChildsem
  pId : later.pId = process.pId
  pParsem : later.pParsem = process.pParsem
  pChildsem : later.pChildsem = process.pChildsem
  offspring : later.offspring = process.offspring
  stages : process.place.stage = 0 ∧ later.place.stage = 0
  childless : new.offspring = []
  place : new.place = .unborn ∨ new.place = .user

section

variable {later new : Process Addr} (pair : Pair state after addr child process later created new)

include pair

theorem Pair.made (other : Addr) (older : other ≠ child) : Made after other ↔ Made state other := by
  unfold Made
  rw [pair.sems (.childsem other) (by simp) (by simpa using older)]

theorem Pair.onward : Onward state after where
  stays := by
    intro other before found
    by_cases same : other = addr
    · grind [Pair]
    obtain rfl | young := eq_or_ne other child
    · have equal : created = before := Option.mem_unique pair.born.1 found
      subst equal
      exact ⟨new, pair.writtenChild, by simp [pair.born.2.1, Place.stage], fun made => (pair.kept made).2⟩
    · grind [Pair]
  made := by grind [Pair, Pair.made]
  forkedBy := fun child parent forked => pair.forkedBy ▸ forked

/-- A step of a parent on itself and a child without a thread keeps the invariant. -/
theorem Pair.formed (formed : Formed state) (pointers : Made after child → Made state child ∨
      new.pParsem = some (.parsem child) ∧ new.pChildsem = some (.childsem child))
    (threaded : new.place ≠ .unborn → Made after child)
    (place : PlaceFormed after addr later.place)
    (posts : ∀ other count sleepers, after.sems (.childsem other) = .live (count + 1) sleepers →
      state.sems (.childsem other) = .live (count + 1) sleepers)
    (entries : ∀ pid entry, after.procArray pid = some entry →
      state.procArray pid = some entry ∨ (later.place = .forkEntered entry pid ∧ entry = child))
    (making : KeepsMaking state after addr) : Formed after := by
  refine formed.advance addr pair.onward ?_ ?_ ?_ ?_ ?_ ?_ ?_ making
  · intro other before found differs foreign
    have older : other ≠ child := by
      rintro rfl
      have equal : created = before := Option.mem_unique pair.born.1 found
      exact foreign (equal ▸ pair.born.2.1) pair.born.2.2.2
    exact ⟨(pair.others other differs older).trans found, (pair.made other older).mp⟩
  · grind [Pair]
  · grind [Pair, Pair.made]
  · intro other written present
    obtain rfl | same := eq_or_ne other addr
    · have equal : later = written := Option.mem_unique pair.written present
      subst equal
      refine Or.inr ⟨fun _ => ?_, fun pid member listed => Or.inl ⟨process, pair.found, ?_⟩, ?_, place⟩
      · grind [Pair, Formed, Pair.made]
      · exact pair.offspring ▸ listed
      · simp [pair.stages.2]
    · by_cases same' : other = child
      · subst same'
        have equal : new = written := Option.mem_unique pair.writtenChild present
        subst equal
        refine Or.inr ⟨threaded, by simp [pair.childless], ?_, ?_⟩ <;>
          rcases pair.place with place | place <;> simp [place, Place.stage, PlaceFormed]
      · exact Or.inl ⟨(pair.others other same same').symm.trans present, same⟩
  · exact fun child parent forked => Or.inl (pair.forkedBy ▸ forked)
  · exact fun other count sleepers live => Or.inr ⟨count, sleepers, posts other count sleepers live⟩
  · intro pid entry present
    refine (entries pid entry present).imp id ?_
    rintro ⟨place, rfl⟩
    exact ⟨later, pair.written, place, pair.forkedBy ▸ pair.born.2.2.2⟩

end

/-- A structure that did not exist has no semaphores and was not forked. -/
theorem Formed.fresh (formed : Formed state) (fresh : state.procs addr = none) :
    ¬ Made state addr ∧ state.forkedBy addr = none := by
  constructor
  · grind [Formed]
  · by_contra forked
    obtain ⟨parent, known⟩ := Option.ne_none_iff_exists'.mp forked
    obtain ⟨⟨process, found⟩, _⟩ := formed.known addr parent known
    simp [fresh] at found

/-- A process with a thread has pointers to its own semaphores. -/
theorem Formed.own_sems (formed : Formed state) (found : state.procs addr = some process)
    (threaded : process.place ≠ .unborn) :
    process.pParsem = some (.parsem addr) ∧ process.pChildsem = some (.childsem addr) := by
  obtain ⟨same, known, right⟩ := formed.made addr (formed.threaded addr process found threaded)
  obtain rfl : process = same := Option.mem_unique found known
  exact right

theorem initial_formed (state : State Addr) (initial : Initial state) : Formed state where
  made := fun addr made => absurd (initial.sems _) made
  threaded := fun addr process found => by simp [initial.procs] at found
  known := fun child parent forked => by simp [initial.forkedBy] at forked
  offspring := fun addr process pid child found => by simp [initial.procs] at found
  codes := fun addr process found => by simp [initial.procs] at found
  posts := fun addr count sleepers live => by simp [initial.sems] at live
  entries := fun pid entry present => by simp [initial.procArray] at present
  places := fun addr process found => by simp [initial.procs] at found

/-- What a process relies on at the place where it is. -/
theorem Formed.relied (formed : Formed state) (found : state.procs addr = some process)
    {place : Place Addr} (was : process.place = place) : PlaceFormed state addr place :=
  was ▸ formed.places addr process found

/-- A structure at a new address, with or without a thread and semaphores. -/
structure Added (state after : State Addr) (addr : Addr) (new : Process Addr) : Prop where
  fresh : state.procs addr = none
  written : after.procs addr = some new
  others : ∀ other, other ≠ addr → after.procs other = state.procs other
  procArray : after.procArray = state.procArray
  forkedBy : ∀ other, other ≠ addr → after.forkedBy other = state.forkedBy other
  parsems : ∀ other, other ≠ addr → after.sems (.parsem other) = state.sems (.parsem other)
  childsems : ∀ other, other ≠ addr → after.sems (.childsem other) = state.sems (.childsem other)
  childless : new.offspring = []
  forker : ∀ parent, after.forkedBy addr = some parent →
    ∃ process, state.procs parent = some process
  place : new.place = .unborn ∧ ¬ Made after addr ∨ new.place = .user ∧ after.forkedBy addr = none ∧
    after.sems (.childsem addr) = .live 0 [] ∧ (∃ count, after.sems (.parsem addr) = .live count []) ∧
    new.pParsem = some (.parsem addr) ∧ new.pChildsem = some (.childsem addr)

section

variable {new : Process Addr} (added : Added state after addr new)

include added

theorem Added.older {other : Addr} {before : Process Addr} (known : state.procs other = some before) :
    other ≠ addr := by
  rintro rfl
  simp [added.fresh] at known

theorem Added.made (other : Addr) (differs : other ≠ addr) :
    Made after other ↔ Made state other := by
  unfold Made
  rw [added.childsems other differs]

theorem Added.formed (formed : Formed state) : Formed after := by
  obtain ⟨unmade, unforked⟩ := formed.fresh added.fresh
  have stage : new.place.stage = 0 := by
    rcases added.place with ⟨place, _⟩ | ⟨place, _⟩ <;> simp [place, Place.stage]
  refine formed.advance addr ⟨?_, ?_, ?_⟩ ?_ ?_ ?_ ?_ ?_ ?_ ?_ ?_
  · grind [Added]
  · grind [Added.made]
  · grind [Added]
  · intro other before known differs _
    exact ⟨(added.others other differs).trans known, (added.made other differs).mp⟩
  · intro before known
    exact absurd rfl (added.older known)
  · grind [Added, Added.made]
  · intro other now present
    obtain rfl | same := eq_or_ne other addr
    · obtain rfl := Option.mem_unique added.written present
      refine Or.inr ⟨fun threaded => ?_, by simp [added.childless], by simp [stage], ?_⟩
      · grind [Added, Made]
      · rcases added.place with ⟨place, _⟩ | ⟨place, _⟩ <;> rw [place] <;> trivial
    · exact Or.inl ⟨(added.others other same).symm.trans present, same⟩
  · grind [Added]
  · grind [Added, Made]
  · intro pid entry present
    exact Or.inl (added.procArray ▸ present)
  · intro before entry pid known
    exact absurd rfl (added.older known)

end

attribute [local simp] Place.stage

/-- How a process goes on from a semaphore. -/
structure Passes (process : Process Addr) (place : Place Addr) : Prop where
  threaded : process.place ≠ .unborn
  stage : process.place.stage ≤ place.stage
  exiting : 1 ≤ place.stage → 1 ≤ process.place.stage
  settled : ∀ entry pid, process.place ≠ .forkEntered entry pid ∧
    process.place ≠ .forkAllocated entry pid

section

variable {sem : Sem Addr} {place : Place Addr}

theorem waits_passes (waits : Waits process sem place) : Passes process place := by
  constructor <;> cases waits <;> simp_all

theorem posts_passes (posts : Posts process sem place) : Passes process place := by
  constructor <;> cases posts <;> simp_all

theorem frees_passes (frees : Frees process sem place) : Passes process place := by
  constructor <;> cases frees <;> simp_all

theorem Passes.stays (passes : Passes process place) : Passes process process.place :=
  ⟨passes.threaded, Nat.le_refl _, id, passes.settled⟩

end

section

variable [DecidableEq Addr]

section

variable (lock : Option Addr) (found : state.procs addr = some process)

include found

theorem own_put (later : Process Addr) (threaded : process.place ≠ .unborn)
    (pId : later.pId = process.pId) (pParsem : later.pParsem = process.pParsem)
    (pChildsem : later.pChildsem = process.pChildsem)
    (offspring : ∀ pid child, (pid, child) ∈ later.offspring → (pid, child) ∈ process.offspring ∨
      (state.forkedBy child = some addr ∧ Made state child ∧
        ∃ created, state.procs child = some created ∧ created.pId = pid))
    (stage : process.place.stage ≤ later.place.stage) :
    Own state { state.put addr later with lock := lock } addr process later where
  found := found
  threaded := threaded
  written := update_self _ _ _
  others := fun _ differs => update_of_ne differs _ _
  forkedBy := rfl
  made := fun _ => Iff.rfl
  pId := pId
  pParsem := pParsem
  pChildsem := pChildsem
  offspring := offspring
  stage := stage

theorem turn_own {later : Process Addr} (turn : Turn state addr process action later) :
    Own state { state.put addr later with lock := lock } addr process later := by
  refine own_put lock found later ?_ ?_ ?_ ?_ ?_ ?_ <;>
    cases turn <;> simp_all

theorem turn_formed {later : Process Addr} (formed : Formed state)
    (turn : Turn state addr process action later) :
    Formed { state.put addr later with lock := lock } := by
  have codes := formed.codes addr process found
  have own := turn_own lock found turn
  refine own.formed formed ?_ ?_ ?_ (fun _ _ present => present) ?_
  · cases turn <;> simp_all
  · exact turn_place formed found turn
  · exact fun _ count sleepers live => Or.inr ⟨count, sleepers, live⟩
  · cases turn <;> simp_all

end

section

variable {sem : Sem Addr} {place : Place Addr}

theorem uses_here {value : Semaphore Addr} {asleep : Addr → Bool}
    (found : state.procs addr = some process) :
    state.uses addr process process.place sem value asleep =
      { state with sems := update state.sems sem value, asleep := asleep } := by
  simp [State.uses, State.goes, State.put, ← found, update_eq_self]

section

variable (value : Semaphore Addr) (asleep : Addr → Bool) (found : state.procs addr = some process)
  (passes : Passes process place) {before : Nat} {queue : List Addr}
  (live : state.sems sem = .live before queue) (kept : value ≠ .absent)

include found passes live kept

theorem sem_own : Own state (state.uses addr process place sem value asleep) addr process
    { process with place := place } where
  found := found
  threaded := passes.threaded
  written := update_self _ _ _
  others := fun _ differs => update_of_ne differs _ _
  forkedBy := rfl
  made := by
    unfold Made State.uses
    grind
  pId := rfl
  pParsem := rfl
  pChildsem := rfl
  offspring := fun _ _ member => Or.inl member
  stage := passes.stage

theorem sem_formed (formed : Formed state) (relies : PlaceFormed state addr place)
    (posts : ∀ other count sleepers, Sem.childsem other = sem → value = .live (count + 1) sleepers →
      Posted (state.uses addr process place sem value asleep) other ∨
        ∃ before queue, state.sems sem = .live (before + 1) queue) :
    Formed (state.uses addr process place sem value asleep) := by
  have own := sem_own value asleep found passes live kept
  refine own.formed formed (fun exiting => formed.codes addr process found (passes.exiting exiting))
    relies ?_ (fun _ _ present => present) passes.settled
  intro other count sleepers now
  by_cases same : Sem.childsem other = sem
  · subst same
    exact posts other count sleepers rfl (by simpa [State.uses] using now)
  · exact Or.inr ⟨count, sleepers, by simpa [State.uses, same] using now⟩

end

variable {count : Nat} {sleepers : List Addr} (formed : Formed state)
  (found : state.procs addr = some process)

include formed found

theorem taken_formed (live : state.sems sem = .live (count + 1) sleepers)
    (waits : Waits process sem place) :
    Formed (state.uses addr process place sem (.live count sleepers) state.asleep) :=
  sem_formed _ _ found (waits_passes waits) live (by simp) formed
    (waits_place formed found live waits) (fun _ _ _ _ _ => Or.inr ⟨count, sleepers, live⟩)

theorem slept_formed (live : state.sems sem = .live 0 sleepers) (waits : Waits process sem place) :
    Formed (state.uses addr process process.place sem (.live 0 (sleepers ++ [addr]))
      (update state.asleep addr true)) :=
  sem_formed _ _ found (waits_passes waits).stays live (by simp) formed
    (formed.places addr process found) nofun

/-- A `V` keeps the invariant: only a process that exits raises its own `p_childsem`. -/
theorem posted_formed (live : state.sems sem = .live count sleepers)
    (posts : Posts process sem place) :
    Formed (state.uses addr process place sem (.live (count + 1) sleepers.tail)
      (wakeone state.asleep sleepers)) := by
  have passes := posts_passes posts
  refine sem_formed _ _ found passes live (by simp) formed (by cases posts <;> trivial) ?_
  intro other later queue same _
  cases posts with
  | own was pointer =>
    obtain rfl : other = addr := Sem.childsem.inj
      (same.trans (Option.mem_unique pointer (formed.own_sems found passes.threaded).2))
    exact Or.inl ⟨_, update_self _ _ _, Nat.le_refl 2⟩
  | child was =>
    obtain ⟨owner, pointer⟩ := formed.relied found was
    rw [← same] at pointer
    cases pointer

theorem freed_formed (live : state.sems sem = .live count sleepers) (frees : Frees process sem place) :
    Formed (state.uses addr process place sem .freed state.asleep) :=
  sem_formed _ _ found (frees_passes frees) live (by simp) formed
    (by cases frees <;> trivial) nofun

end

theorem cleared_own (found : state.procs addr = some process) (was : process.place = .exitLet)
    (index : Nat) :
    Own state (state.clears addr process index) addr process
      { process with place := .exitLoop 0 } :=
  { own_put state.lock found { process with place := .exitLoop 0 }
      (by simp [was]) rfl rfl rfl (fun _ _ member => Or.inl member)
      (by simp [was]) with }

theorem cleared_formed (formed : Formed state) (found : state.procs addr = some process)
    (was : process.place = .exitLet) (index : Nat) :
    Formed (state.clears addr process index) := by
  have codes := formed.codes addr process found
  have own := cleared_own found was index
  refine own.formed formed ?_ trivial ?_ ?_ (by simp [was])
  · simp_all
  · exact fun _ count sleepers live => Or.inr ⟨count, sleepers, live⟩
  · unfold State.clears
    grind

/-- A process and a child of it are written, and perhaps the child's semaphores are made. -/
theorem pair_put {later new : Process Addr} (found : state.procs addr = some process)
    (born : Newborn state addr child created)
    (procs : after.procs = update (update state.procs child (some new)) addr
      (some later)) (forkedBy : after.forkedBy = state.forkedBy)
    (sems : ∀ sem, sem ≠ .parsem child → sem ≠ .childsem child → after.sems sem = state.sems sem)
    (kept : Made state child → Made after child ∧ new.pId = created.pId ∧
      new.pParsem = created.pParsem ∧ new.pChildsem = created.pChildsem)
    (threaded : process.place ≠ .unborn)
    (stages : process.place.stage = 0 ∧ later.place.stage = 0)
    (alike : later.pId = process.pId ∧ later.pParsem = process.pParsem ∧
      later.pChildsem = process.pChildsem ∧ later.offspring = process.offspring)
    (childless : new.offspring = created.offspring)
    (place : new.place = created.place ∨ new.place = .user) :
    Pair state after addr child process later created new := by
  have apart : child ≠ addr := by grind [Newborn]
  refine ⟨found, born, threaded, ?_, ?_, ?_, forkedBy, sems, kept, alike.1, alike.2.1,
    alike.2.2.1, alike.2.2.2, stages, childless.trans born.2.2.1, born.2.1 ▸ place⟩
  · rw [procs, update_self]
  · rw [procs, update_of_ne apart, update_self]
  · intro other differs older
    rw [procs, update_of_ne differs, update_of_ne older]

section

variable (formed : Formed state) (found : state.procs addr = some process)
  (present : state.procs child = some created)

include formed found present

theorem entered_pair {index : Nat} (was : process.place = .forkScan child index) :
    Pair state (forkEnter state addr child process created index) addr child process
      { process with place := .forkEntered child index } created { created with pId := index } := by
  obtain ⟨unmade, newborn, born⟩ := formed.relied found was
  obtain rfl : created = newborn := Option.mem_unique present born.1
  exact pair_put found born rfl rfl (fun _ _ _ => rfl) (fun made => absurd made unmade)
    (by simp [was]) (by simp [was]) ⟨rfl, rfl, rfl, rfl⟩ rfl (Or.inl rfl)

theorem entered_formed {index : Nat} (was : process.place = .forkScan child index) :
    Formed (forkEnter state addr child process created index) := by
  have pair := entered_pair formed found present was
  have unmade := (formed.relied found was).1
  have born := pair.born
  refine pair.formed formed (fun made => absurd made unmade) (absurd born.2.1) ?_
    (fun _ _ _ live => live) ?_ ?_
  · exact ⟨unmade, { created with pId := index },
      ⟨pair.writtenChild, born.2.1, born.2.2.1, born.2.2.2⟩, rfl⟩
  · unfold forkEnter
    grind
  · intro before entry pid same making
    obtain rfl : process = before := Option.mem_unique found same
    simp [was] at making

theorem allocated_pair (was : process.place = .forkEntered child pid) :
    Pair state (forkAllocate state addr child process created pid) addr child process
      { process with place := .forkAllocated child pid } created
      { created with pParsem := none, pChildsem := none } := by
  obtain ⟨unmade, newborn, born, _⟩ := formed.relied found was
  obtain rfl : created = newborn := Option.mem_unique present born.1
  exact pair_put found born rfl rfl (fun _ _ _ => rfl) (fun made => absurd made unmade)
    (by simp [was]) (by simp [was]) ⟨rfl, rfl, rfl, rfl⟩ rfl (Or.inl rfl)

theorem allocated_formed (was : process.place = .forkEntered child pid) :
    Formed (forkAllocate state addr child process created pid) := by
  obtain ⟨unmade, newborn, born, number⟩ := formed.relied found was
  obtain rfl : created = newborn := Option.mem_unique present born.1
  have pair := allocated_pair formed found present was
  refine pair.formed formed (fun made => absurd made unmade) (absurd born.2.1) ?_
    (fun _ _ _ live => live) (fun _ _ here => Or.inl here) ?_
  · exact ⟨unmade, { created with pParsem := none, pChildsem := none },
      ⟨pair.writtenChild, born.2.1, born.2.2.1, born.2.2.2⟩, number⟩
  · intro before entry index same making
    obtain rfl : process = before := Option.mem_unique found same
    have place : Place.forkEntered child pid = .forkEntered entry index := by simpa [was] using making
    exact Or.inr ⟨_, pair.written, Or.inr (by cases place; rfl)⟩

theorem created_pair (was : process.place = .forkAllocated child pid) :
    Pair state (forkCreate state addr child process created pid) addr child process
      { process with place := .forkCreated child pid } created (created.made child) := by
  obtain ⟨unmade, newborn, born, _⟩ := formed.relied found was
  obtain rfl : created = newborn := Option.mem_unique present born.1
  exact pair_put found born rfl rfl (fun sem first second => by simp [first, second])
    (fun made => absurd made unmade) (by simp [was]) (by simp [was]) ⟨rfl, rfl, rfl, rfl⟩ rfl
    (Or.inl rfl)

theorem created_formed (was : process.place = .forkAllocated child pid) :
    Formed (forkCreate state addr child process created pid) := by
  obtain ⟨unmade, newborn, born, number⟩ := formed.relied found was
  obtain rfl : created = newborn := Option.mem_unique present born.1
  have made : Made (forkCreate state addr child process created pid) child := by
    simp [Made]
  have pair := created_pair formed found present was
  refine pair.formed formed (fun _ => Or.inr ⟨rfl, rfl⟩) (fun _ => made) ?_ ?_
    (fun _ _ here => Or.inl here) ?_
  · exact ⟨made, _, ⟨pair.writtenChild, born.2.1, born.2.2.1, born.2.2.2⟩, number⟩
  · intro other count sleepers live
    by_cases older : other = child
    · simp [older] at live
    · simpa [older] using live
  · intro before entry index same making
    obtain rfl : process = before := Option.mem_unique found same
    have place : Place.forkAllocated child pid = .forkAllocated entry index := by
      simpa [was] using making
    cases place
    exact Or.inl made

theorem ended_pair (succeeds : Bool) (was : process.place = .forkUnlocked child pid) :
    Made state child ∧ Pair state (forkEnd state addr child process created pid succeeds) addr child
      process { process with tf := process.tf.succeed (BitVec.ofNat 32 pid), place := .user } created
      { created with place := if succeeds then .user else .unborn } := by
  obtain ⟨made, newborn, born, _⟩ := formed.relied found was
  obtain rfl : created = newborn := Option.mem_unique present born.1
  refine ⟨made, pair_put found born rfl rfl (fun _ _ _ => rfl) (fun made => ⟨made, rfl, rfl, rfl⟩)
    (by simp [was]) (by simp [was]) ⟨rfl, rfl, rfl, rfl⟩ rfl ?_⟩
  cases succeeds
  · exact Or.inl born.2.1.symm
  · exact Or.inr rfl

theorem ended_formed (succeeds : Bool) (was : process.place = .forkUnlocked child pid) :
    Formed (forkEnd state addr child process created pid succeeds) := by
  obtain ⟨made, pair⟩ := ended_pair formed found present succeeds was
  refine pair.formed formed (fun _ => Or.inl made) (fun _ => made) trivial
    (fun _ _ _ live => live) (fun _ _ here => Or.inl here) ?_
  intro before entry index same making
  obtain rfl : process = before := Option.mem_unique found same
  simp [was] at making

end

section

variable (index : Nat) (formed : Formed state) (found : state.procs addr = some process)
  (was : process.place = .forkCreated child pid)

include formed found was

theorem listed_own : Own state (state.put addr (process.lists child pid index)) addr process
    (process.lists child pid index) := by
  obtain ⟨made, created, born, number⟩ := formed.relied found was
  refine own_put state.lock found _ (by simp [was]) rfl rfl rfl ?_ (by simp [was])
  intro other member listed
  rcases List.mem_append.mp listed with old | new
  · exact Or.inl old
  · obtain ⟨rfl, rfl⟩ := Prod.mk.inj (List.mem_singleton.mp new)
    exact Or.inr ⟨born.2.2.2, made, created, born.1, number⟩

theorem listed_formed : Formed (state.put addr (process.lists child pid index)) := by
  have own := listed_own index formed found was
  have relied := formed.relied found was
  exact own.formed formed (by simp) relied
    (fun _ count sleepers live => Or.inr ⟨count, sleepers, live⟩) (fun _ _ present => present)
    (by simp [was])

end

theorem started_added (raw : Process Addr) (formed : Formed state) (fresh : state.procs addr = none) :
    Added state (runprogram state addr raw) addr
      { raw.made addr with offspring := [], place := .user } where
  fresh := fresh
  written := update_self _ _ _
  others := fun _ differs => update_of_ne differs _ _
  procArray := rfl
  forkedBy := fun _ _ => rfl
  parsems := fun other differs => by simp [differs]
  childsems := fun other differs => by simp [differs]
  childless := rfl
  forker := fun parent forked => by
    have free : state.forkedBy addr = none := (formed.fresh fresh).2
    exact absurd (free.symm.trans forked) (by simp)
  place := by
    refine Or.inr ⟨rfl, (formed.fresh fresh).2, ?_, ⟨1, ?_⟩, rfl, rfl⟩
    · simp
    · simp

/-- The first half of a call of `sys_fork`: the structure exists. -/
def allocateChild (state : State Addr) (addr child : Addr) (process raw : Process Addr) :
    State Addr :=
  { state.put child { raw with
      tf := process.tf.succeed 0#32
      offspring := []
      place := .unborn } with
    forkedBy := update state.forkedBy child (some addr) }

section

variable (raw : Process Addr) (found : state.procs addr = some process)
  (fresh : state.procs child = none)

include found fresh

theorem called_added (formed : Formed state) :
    Added state (allocateChild state addr child process raw) child
      { raw with tf := process.tf.succeed 0#32, offspring := [], place := .unborn } where
  fresh := fresh
  written := update_self _ _ _
  others := fun _ differs => update_of_ne differs _ _
  procArray := rfl
  forkedBy := fun _ differs => update_of_ne differs _ _
  parsems := fun _ _ => rfl
  childsems := fun _ _ => rfl
  childless := rfl
  forker := fun parent forked => by
    have own : addr = parent := by simpa [allocateChild] using forked
    exact ⟨process, own ▸ found⟩
  place := Or.inl ⟨rfl, (formed.fresh fresh).1⟩

theorem called_own (was : process.place = .user) :
    Own (allocateChild state addr child process raw) (forkCall state addr child process raw) addr
      process { process with place := .forkCalled child } := by
  have apart : addr ≠ child := by
    rintro rfl
    simp [fresh] at found
  have still : (allocateChild state addr child process raw).procs addr = some process :=
    (update_of_ne apart _ _).trans found
  exact own_put
    state.lock still { process with place := .forkCalled child } (by simp [was]) rfl rfl rfl
    (fun _ _ member => Or.inl member) (by simp [was])

theorem called_formed (formed : Formed state) (was : process.place = .user) :
    Formed (forkCall state addr child process raw) := by
  have added := called_added raw found fresh formed
  have own := called_own raw found fresh was
  exact own.formed (added.formed formed) (by simp)
    ⟨(formed.fresh fresh).1, _, added.written, rfl, rfl, update_self _ _ _⟩
    (fun _ count sleepers live => Or.inr ⟨count, sleepers, live⟩) (fun _ _ present => present)
    (by simp [was])

end

/-- Every step keeps the invariant. One case per step. -/
theorem step_formed (formed : Formed state) (step : Step state action after) : Formed after := by
  cases step with
  | misused misuse => exact { formed with }
  | turned lock found turn => exact turn_formed lock found formed turn
  | slept found live waits => exact uses_here found ▸ slept_formed formed found live waits
  | taken found live waits => exact taken_formed formed found live waits
  | posted found live posts => exact posted_formed formed found live posts
  | freed found live frees => exact freed_formed formed found live frees
  | cleared found was inside => exact cleared_formed formed found was _
  | started fresh => exact (started_added _ formed fresh).formed formed
  | called found was number fresh => exact called_formed _ found fresh formed was
  | entered found was born inside free => exact entered_formed formed found born was
  | allocated found was born => exact allocated_formed formed found born was
  | created found was born => exact created_formed formed found born was
  | listed found was room => exact listed_formed _ formed found was
  | ended found was born => exact ended_formed formed found born _ was

theorem step_forked_by (formed : Formed state) (step : Step state action after) {parent : Addr}
    (forked : state.forkedBy child = some parent) : after.forkedBy child = some parent := by
  cases step with
  | @called _ new _ _ found was number fresh =>
    have differs : child ≠ new := by
      rintro rfl
      simp [(formed.fresh fresh).2] at forked
    exact (update_of_ne differs _ _).trans forked
  | _ => exact forked

/-- In every reachable state the invariant holds, whatever the processes do. -/
theorem reached_formed {permitted : State Addr → Action Addr → Prop}
    (reached : Reaches next permitted Initial state) : Formed state :=
  reached.invariant initial_formed
    (fun _ _ _ formed _ taken => step_formed formed (next_cases taken))

end

end Os161.Proc.ExitWait
