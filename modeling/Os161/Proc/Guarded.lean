import Os161.Proc.Formed

/-!
# Children that have still to be let go

While processes wait only for children of their own, lists of children end where they should,
and no program from the menu clears another's entry, every process that still has to be let
go by its parent is in the table with its semaphores. Every permitted step keeps that, unless
it misuses something.
-/
namespace Os161.Proc.ExitWait

open Os161.Library.Runs Function
open Os161.Proc.ProcTable (pidMax scan memsetChildren entryAt entry_at_iff scan_found scan_none
  scan_first)

variable {Addr : Type}

/-- An exiting process has let its child at this index go. -/
def Place.released (place : Place Addr) (index : Nat) : Prop :=
  match place with
  | .exitLoop reached | .exitEntry reached _ | .exitSem reached _ => index < reached
  | .exitWoken | .exitFreed | .gone => True
  | _ => False

/-- The `p_children` of a process are the pids of its children and then minus ones. -/
structure Listing (process : Process Addr) : Prop where
  short : process.offspring.length ≤ 8190
  pids : ∀ index, index < 8191 → process.pChildren index =
    ((process.offspring[index]?).map (fun member => (member.1 : Int))).getD (-1)
  distinct : (process.offspring.map Prod.snd).Nodup

/-- A child waits, or will wait, for its parent to exit. -/
def Held (state : State Addr) (child : Addr) : Prop :=
  (∃ process, state.procs child = some process ∧ process.place.stage < 3) ∧
    ∃ sleepers, state.sems (.parsem child) = .live 0 sleepers

/-- A child has still to be let go by its parent. -/
def Due (state : State Addr) (child : Addr) : Prop :=
  ∃ parent process, state.procs parent = some process ∧
    ((∃ index pid, process.offspring[index]? = some (pid, child) ∧
      ¬ process.place.released index) ∨ ∃ pid, process.place = .forkCreated child pid)

/-- What a process relies on where it is, besides `PlaceFormed`. -/
def PlaceGuarded (state : State Addr) (process : Process Addr) : Prop :=
  match process.place with
  | .forkCalled _ | .forkScan _ _ => process.offspring.length < 8190
  | .forkEntered child pid | .forkAllocated child pid | .forkCreated child pid =>
      process.offspring.length < 8190 ∧
      state.procArray pid = some child ∧ child ∉ process.offspring.map Prod.snd
  | .waitChecked pid entry | .waitEntry pid entry | .waitSem pid entry _ | .waitWoken pid entry
  | .waitFound pid entry => (pid, entry) ∈ process.offspring
  | .exitLoop index => index ≤ process.offspring.length
  | .exitEntry index entry => ∃ pid, process.offspring[index]? = some (pid, entry)
  | .exitSem index sem => ∃ pid entry, process.offspring[index]? = some (pid, entry) ∧
      sem = some (.parsem entry)
  | _ => True

/-- A process is making this entry. -/
def Makes (process : Process Addr) (pid : Nat) (entry : Addr) : Prop :=
  process.place = .forkEntered entry pid ∨ process.place = .forkAllocated entry pid ∨
    process.place = .forkCreated entry pid

attribute [local simp] Place.stage Place.released Makes PlaceGuarded forkCreate forkEnter
  Process.made Process.lists State.clears

/-- The invariant of runs in which processes wait only for their own children. -/
structure Guarded (state : State Addr) : Prop where
  formed : Formed state
  safe : state.misuse = none
  tabled : ∀ pid entry, state.procArray pid = some entry → pid < pidMax ∧
    ∃ process, state.procs entry = some process ∧ process.pId = pid ∧ process.place.stage < 4
  entered : ∀ entry parent process, state.forkedBy entry = some parent → Made state entry →
    state.procs entry = some process → process.place.stage < 4 →
    ∃ pid : Nat, process.pId = pid ∧ state.procArray pid = some entry
  childsems : ∀ addr process, state.procs addr = some process → Made state addr →
    process.place.stage < 7 → ∃ count sleepers, state.sems (.childsem addr) = .live count sleepers
  parsems : ∀ addr process, state.procs addr = some process → Made state addr →
    process.place.stage < 6 → ∃ count sleepers, state.sems (.parsem addr) = .live count sleepers
  lists : ∀ addr process, state.procs addr = some process → Made state addr → Listing process
  held : ∀ child, Due state child → Held state child
  members : ∀ pid entry parent process, state.procArray pid = some entry →
    state.forkedBy entry = some parent → state.procs parent = some process →
    (pid, entry) ∈ process.offspring ∨ Makes process pid entry
  places : ∀ addr process, state.procs addr = some process → PlaceGuarded state process

/-- A process waits only for a child it forked, forks only while its list is short, and, if
it was started from the menu, exits only when the pid its memory held is not in use. -/
def Permitted (state : State Addr) : Action Addr → Prop
  | .trap addr _ _ => ∀ process ∈ state.procs addr,
      (process.tf.v0 = callWaitpid → (0 ≤ process.tf.a0.toInt ∧ process.tf.a0.toInt < pidMax) ∧
          ∀ entry ∈ entryAt state.procArray process.tf.a0.toInt, state.forkedBy entry = some addr) ∧
        (process.tf.v0 = callFork → process.offspring.length < 8190)
  | .run addr => ∀ process ∈ state.procs addr, process.place = .exitLet →
      state.forkedBy addr = none → (0 ≤ process.pId ∧ process.pId < pidMax) ∧
        entryAt state.procArray process.pId = none
  | _ => True

variable {process created : Process Addr} {state after : State Addr} {addr child : Addr}
  {pid index count : Nat} {sleepers : List Addr} {action : Action Addr}

theorem Place.unreleased {place : Place Addr} (early : place.stage < 4) :
    ¬ place.released index := by
  cases place <;> simp_all

section

variable (guarded : Guarded state) (found : state.procs addr = some process)

include guarded found

/-- A child that has still to be let go is in the table. -/
theorem Guarded.due_entry (listed : process.offspring[index]? = some (pid, child))
    (unreleased : ¬ process.place.released index) :
    Held state child ∧ pid < pidMax ∧ state.procArray pid = some child := by
  have due : Due state child := ⟨addr, process, found, Or.inl ⟨index, pid, listed, unreleased⟩⟩
  have held := guarded.held child due
  obtain ⟨forked, made, created, present, number⟩ :=
    guarded.formed.offspring addr process pid child found (List.mem_of_getElem? listed)
  obtain ⟨⟨again, same, early⟩, _⟩ := held
  obtain rfl : created = again := Option.mem_unique present same
  obtain ⟨entry, numbered, entered⟩ :=
    guarded.entered child addr created forked made present (by omega)
  have equal : entry = pid := by
    have cast : (entry : Int) = pid := numbered.symm.trans number
    exact_mod_cast cast
  subst equal
  exact ⟨guarded.held child due, (guarded.tabled entry child entered).1, entered⟩

/-- The entry of a process in the table is at its pid. -/
theorem Guarded.numbered (pid : Nat) (entry : Addr) (entered : state.procArray pid = some entry) :
    state.procArray pid = some entry ∧ (entry = addr → process.pId = pid) := by
  refine ⟨entered, ?_⟩
  rintro rfl
  obtain ⟨_, known, same, number, _⟩ := guarded.tabled pid entry entered
  obtain rfl : process = known := Option.mem_unique found same
  exact number

/-- A process that waits for a listed child finds it in the table. -/
theorem Guarded.waited_entry (listed : (pid, child) ∈ process.offspring)
    (unreleased : ∀ index, ¬ process.place.released index) :
    Held state child ∧ pid < pidMax ∧ state.procArray pid = some child := by
  obtain ⟨index, at_index⟩ := List.mem_iff_getElem?.mp listed
  exact guarded.due_entry found at_index (unreleased index)

end

theorem Listing.of_same {later : Process Addr} (children : later.pChildren = process.pChildren)
    (offspring : later.offspring = process.offspring) (listing : Listing process) : Listing later :=
  ⟨offspring ▸ listing.short, offspring ▸ children ▸ listing.pids, offspring ▸ listing.distinct⟩

/-- A child whose entry is being made has no thread yet. -/
theorem Formed.makes_newborn (formed : Formed state) (found : state.procs addr = some process)
    (makes : Makes process pid child) :
    ∃ created, Newborn state addr child created ∧ created.pId = pid := by
  rcases makes with place | place | place <;> exact (formed.relied found place).2

/-- What a process relies on depends on the entry it makes, and on nothing else. -/
theorem PlaceGuarded.later
    (entries : ∀ pid child, Makes process pid child → state.procArray pid = some child →
      after.procArray pid = some child) (guarded : PlaceGuarded state process) :
    PlaceGuarded after process := by
  unfold PlaceGuarded at *
  split at guarded
  case h_3 child pid was =>
    exact ⟨guarded.1, entries pid child (Or.inl was) guarded.2.1, guarded.2.2⟩
  case h_4 child pid was =>
    exact ⟨guarded.1, entries pid child (Or.inr (Or.inl was)) guarded.2.1, guarded.2.2⟩
  case h_5 child pid was =>
    exact ⟨guarded.1, entries pid child (Or.inr (Or.inr was)) guarded.2.1, guarded.2.2⟩
  all_goals exact guarded

section

variable {later : Process Addr} (own : Own state after addr process later)

include own

/-- A step of one process on its own structure keeps the invariant when its entry, its
semaphores and the children it has still to let go are right. -/
theorem Own.guarded (guarded : Guarded state) (formed : Formed after) (safe : after.misuse = none)
    (listing : Listing process → Listing later)
    (grows : ∀ pid entry, (pid, entry) ∈ process.offspring ∨ Makes process pid entry →
      (pid, entry) ∈ later.offspring) (entries : ∀ pid entry, after.procArray pid = some entry ↔
      state.procArray pid = some entry ∧ (entry = addr → later.place.stage < 4))
    (sems : ∀ sem count sleepers, state.sems sem = .live count sleepers →
      (∃ now queue, after.sems sem = .live now queue) ∨
        (sem = .parsem addr ∧ 6 ≤ later.place.stage) ∨
        (sem = .childsem addr ∧ 7 ≤ later.place.stage))
    (due : ∀ child, Due after child → Due state child)
    (held : ∀ child, Due after child → Held state child → Held after child)
    (place : PlaceGuarded after later) : Guarded after := by
  have own_is (now : Process Addr) (present : after.procs addr = some now) : later = now :=
    Option.mem_unique own.written present
  refine ⟨formed, safe, ?_, ?_, ?_, ?_, ?_, ?_, ?_, ?_⟩
  · grind [Own, Guarded]
  · intro entry parent now forked made present early
    rw [own.forkedBy] at forked
    obtain rfl | same := eq_or_ne entry addr
    · obtain rfl := own_is now present
      obtain ⟨pid, number, entered⟩ := guarded.entered entry parent process forked
        ((own.made entry).mp made) own.found (Nat.lt_of_le_of_lt own.stage early)
      exact ⟨pid, own.pId.trans number, (entries pid entry).mpr ⟨entered, fun _ => early⟩⟩
    · obtain ⟨pid, number, entered⟩ := guarded.entered entry parent now forked
        ((own.made entry).mp made) ((own.others entry same).symm.trans present) early
      exact ⟨pid, number, (entries pid entry).mpr ⟨entered, fun equal => absurd equal same⟩⟩
  · intro other now present made early
    by_cases same : other = addr
    · grind [Own, Guarded]
    obtain ⟨count, sleepers, live⟩ := guarded.childsems other now
      ((own.others other same).symm.trans present) ((own.made other).mp made) early
    rcases sems _ count sleepers live with still | ⟨wrong, _⟩ | ⟨wrong, _⟩
    · exact still
    · cases wrong
    · exact absurd (Sem.childsem.inj wrong) same
  · intro other now present made early
    by_cases same : other = addr
    · grind [Own, Guarded]
    · grind [Own, Guarded]
  · grind [Own, Guarded]
  · exact fun child late => held child late (guarded.held child (due child late))
  · grind [Own, Guarded]
  · intro other now present
    obtain rfl | same := eq_or_ne other addr
    · exact own_is now present ▸ place
    have known := (own.others other same).symm.trans present
    refine PlaceGuarded.later (fun pid child makes entered => ?_) (guarded.places other now known)
    refine (entries pid child).mpr ⟨entered, ?_⟩
    rintro rfl
    obtain ⟨created, born, _⟩ := guarded.formed.makes_newborn known makes
    obtain rfl : process = created := Option.mem_unique own.found born.1
    exact absurd born.2.1 own.threaded

/-- After such a step no more children have to be let go than before. -/
theorem Own.due (offspring : later.offspring = process.offspring)
    (released : ∀ index, process.place.released index → later.place.released index)
    (uncreated : ∀ child pid, later.place ≠ .forkCreated child pid) (due : Due after child) :
    Due state child := by
  grind [Own, Due]

/-- A child stays held when its semaphore is not raised and it does not get past it. -/
theorem Own.held (child : Addr)
    (early : child = addr → process.place.stage < 3 → later.place.stage < 3)
    (sem : ∀ sleepers, state.sems (.parsem child) = .live 0 sleepers →
      ∃ queue, after.sems (.parsem child) = .live 0 queue) (held : Held state child) :
    Held after child := by
  grind [Own, Held]

end

theorem Listing.room (listing : Listing process) (short : process.offspring.length < 8190) :
    scan (fun index => process.pChildren index == -1) 0 pidMax ≠ none := by
  intro full
  have passed := scan_none _ 0 pidMax process.offspring.length full (by omega)
    (by unfold pidMax; omega)
  have ends := listing.pids process.offspring.length (by omega)
  simp [ends] at passed

/-- What a process relies on after a turn. A waiter relies on the child being its own. -/
theorem turn_place_guarded (state : State Addr) (addr : Addr) (process later : Process Addr)
    (guarded : Guarded state) (permitted : Permitted state action)
    (found : state.procs addr = some process) (turn : Turn state addr process action later) :
    PlaceGuarded state later := by
  have relied := guarded.places addr process found
  unfold PlaceGuarded at relied
  cases turn with
  | user was => simp [was]
  | @waitCheck _ _ pid entry was number argument inside present =>
    have stands : entryAt state.procArray process.tf.a0.toInt = some entry := by
      rw [entry_at_iff, argument, Int.toNat_natCast]
      exact ⟨⟨by omega, by exact_mod_cast inside⟩, present⟩
    have forked := ((permitted process found).1 number).2 entry stands
    rcases guarded.members pid entry addr process present forked found with listed | makes
    · exact listed
    · simp [was] at makes
  | lock was | scan was | checked was | childsem was | found was =>
    rw [was] at relied
    exact relied
  | loop was listed => exact ⟨_, listed⟩
  | @parsem index entry child was present =>
    rw [was] at relied
    obtain ⟨pid, listed⟩ := relied
    have made := guarded.formed.relied found was
    obtain ⟨same, known, pointer, _⟩ := guarded.formed.made entry made
    obtain rfl : child = same := Option.mem_unique present known
    exact ⟨pid, entry, listed, pointer⟩
  | _ => trivial

section

variable (guarded : Guarded state) (found : state.procs addr = some process)

include guarded found

/-- The semaphore a process is in `P` on is its own `p_parsem`, or a child's `p_childsem`. -/
theorem Guarded.waits_sem {sem : Sem Addr} {place : Place Addr} (waits : Waits process sem place) :
    (sem = .parsem addr ∧ process.place = .exitPosted ∧ place = .exitLet) ∨
      ∃ pid entry, sem = .childsem entry ∧ place = .waitWoken pid entry ∧
        (pid, entry) ∈ process.offspring ∧
        process.place = .waitSem pid entry (some (.childsem entry)) := by
  cases waits with
  | @child pid entry _ was =>
    have listed := guarded.places addr process found
    simp only [PlaceGuarded, was] at listed
    obtain ⟨parent, forked, own⟩ := guarded.formed.relied found was
    have forkedToo := (guarded.formed.offspring addr process pid entry found listed).1
    have same := Option.some.inj (own (Option.some.inj (forked.symm.trans forkedToo)))
    exact Or.inr ⟨pid, entry, same, rfl, listed, same ▸ was⟩
  | parent was own =>
    have pointer := (guarded.formed.own_sems found (by simp [was])).1
    exact Or.inl ⟨Option.mem_unique own pointer, was, rfl⟩

/-- Steps that keep a process out of `sys__exit`, or in the part of it before it clears its
entry, keep the entries. -/
theorem Guarded.entries_same (later : Process Addr)
    (early : process.place.stage < 4 → later.place.stage < 4) (pid : Nat) (entry : Addr) :
    state.procArray pid = some entry ↔
      state.procArray pid = some entry ∧ (entry = addr → later.place.stage < 4) := by
  grind [Guarded]

/-- The semaphore a process is in `V` on is its own `p_childsem`, or the `p_parsem` of the child
its loop is at. -/
theorem Guarded.posts_sem {sem : Sem Addr} {place : Place Addr} (posts : Posts process sem place) :
    (sem = .childsem addr ∧ process.place = .exitCalled ∧ place = .exitPosted) ∨
      ∃ index pid entry, sem = .parsem entry ∧ place = .exitLoop (index + 1) ∧
        process.offspring[index]? = some (pid, entry) ∧
        process.place = .exitSem index (some (.parsem entry)) := by
  cases posts with
  | own was own =>
    have pointer := (guarded.formed.own_sems found (by simp [was])).2
    exact Or.inl ⟨Option.mem_unique own pointer, was, rfl⟩
  | @child index _ was =>
    have relied := guarded.places addr process found
    simp only [PlaceGuarded, was] at relied
    obtain ⟨pid, entry, listed, pointer⟩ := relied
    have same := Option.some.inj pointer
    exact Or.inr ⟨index, pid, entry, same, rfl, listed, same ▸ was⟩

end

section

variable {later new : Process Addr} (pair : Pair state after addr child process later created new)

include pair

theorem Pair.young : new.place.stage = 0 := by
  rcases pair.place with place | place <;> simp [place]

/-- A step of a process on its own structure and on a child without a thread keeps the
invariant when what it makes of the child is right. -/
theorem Pair.guarded (guarded : Guarded state) (formed : Formed after) (safe : after.misuse = none)
    (children : later.pChildren = process.pChildren)
    (kept : ∀ pid entry, state.procArray pid = some entry →
      after.procArray pid = some entry ∧ (entry = child → new.pId = pid))
    (tabled : ∀ pid entry, after.procArray pid = some entry →
      state.procArray pid = some entry ∨ (entry = child ∧ new.pId = pid ∧ pid < pidMax))
    (childSems : Made after child →
      (∃ count sleepers, after.sems (.childsem child) = .live count sleepers) ∧
        ∃ count sleepers, after.sems (.parsem child) = .live count sleepers)
    (childEntered : Made after child →
      ∃ pid : Nat, new.pId = pid ∧ after.procArray pid = some child)
    (childListing : Made after child → Listing new)
    (due : ∀ other, Due after other → Held after other)
    (members : ∀ pid entry, after.procArray pid = some entry → state.forkedBy entry = some addr →
      (pid, entry) ∈ process.offspring ∨ Makes later pid entry) (place : PlaceGuarded after later) :
    Guarded after := by
  have young := pair.young
  have own_is (now : Process Addr) (present : after.procs addr = some now) : later = now :=
    Option.mem_unique pair.written present
  have new_is (now : Process Addr) (present : after.procs child = some now) : new = now :=
    Option.mem_unique pair.writtenChild present
  have earlier (other : Addr) (older : other ≠ child) (now : Process Addr)
      (present : after.procs other = some now) : ∃ was, state.procs other = some was ∧
        now.pId = was.pId ∧ was.place.stage ≤ now.place.stage := by
    obtain rfl | same := eq_or_ne other addr
    · obtain rfl := own_is now present
      exact ⟨process, pair.found, pair.pId, pair.stages.1 ▸ Nat.zero_le _⟩
    · exact ⟨now, (pair.others other same older).symm.trans present, rfl, le_rfl⟩
  refine ⟨formed, safe, ?_, ?_, ?_, ?_, ?_, due, ?_, ?_⟩
  · intro pid entry present
    rcases tabled pid entry present with before | ⟨rfl, number, inside⟩
    · obtain ⟨inside, known, found, number, stage⟩ := guarded.tabled pid entry before
      refine ⟨inside, ?_⟩
      by_cases same : entry = addr
      · grind [Pair]
      · grind [Pair, Pair.others]
    · exact ⟨inside, new, pair.writtenChild, number, by omega⟩
  · intro entry parent now forked made present early
    rw [pair.forkedBy] at forked
    by_cases young' : entry = child
    · subst young'
      exact new_is now present ▸ childEntered made
    · obtain ⟨was, found, same, stage⟩ := earlier entry young' now present
      obtain ⟨pid, number, entered⟩ := guarded.entered entry parent was forked
        ((pair.made entry young').mp made) found (by omega)
      exact ⟨pid, same.trans number, (kept pid entry entered).1⟩
  · intro other now present made early
    by_cases young' : other = child
    · subst young'
      exact (childSems made).1
    · obtain ⟨was, found, _, stage⟩ := earlier other young' now present
      rw [pair.sems (.childsem other) (by simp) (fun same => young' (Sem.childsem.inj same))]
      exact guarded.childsems other was found ((pair.made other young').mp made) (by omega)
  · intro other now present made early
    by_cases young' : other = child
    · subst young'
      exact (childSems made).2
    · obtain ⟨was, found, _, stage⟩ := earlier other young' now present
      rw [pair.sems (.parsem other) (fun same => young' (Sem.parsem.inj same)) (by simp)]
      exact guarded.parsems other was found ((pair.made other young').mp made) (by omega)
  · intro other now present made
    by_cases young' : other = child
    · subst young'
      exact new_is now present ▸ childListing made
    · have madeBefore := (pair.made other young').mp made
      by_cases same : other = addr
      · grind [Pair, Guarded, Listing]
      · exact guarded.lists other now ((pair.others other same young').symm.trans present) madeBefore
  · intro pid entry parent now present forked known
    rw [pair.forkedBy] at forked
    by_cases same : parent = addr
    · grind [Pair]
    have before : state.procArray pid = some entry := by
      rcases tabled pid entry present with before | ⟨rfl, _, _⟩
      · exact before
      · exact absurd (Option.mem_unique forked pair.born.2.2.2) same
    by_cases young' : parent = child
    · subst young'
      rcases guarded.members pid entry parent created before forked pair.born.1 with listed | makes
      · simp [pair.born.2.2.1] at listed
      · simp [pair.born.2.1] at makes
    · exact guarded.members pid entry parent now before forked
        ((pair.others parent same young').symm.trans known)
  · intro other now present
    obtain rfl | same := eq_or_ne other addr
    · exact own_is now present ▸ place
    · by_cases young' : other = child
      · subst young'
        obtain rfl := new_is now present
        rcases pair.place with place | place <;> simp [place]
      · exact PlaceGuarded.later (fun pid entry _ entered => (kept pid entry entered).1)
          (guarded.places other now ((pair.others other same young').symm.trans present))

/-- What is still due after such a step was due before, or is the child whose semaphores have
been made. -/
theorem Pair.due {other : Addr} (due : Due after other) :
    Due state other ∨ ∃ pid, later.place = .forkCreated other pid := by
  have unreleased (index : Nat) : ¬ process.place.released index :=
    Place.unreleased (pair.stages.1 ▸ by decide)
  obtain ⟨parent, now, present, cases⟩ := due
  by_cases same : parent = addr
  · grind [Pair, Due]
  · grind [Pair, Due]

theorem Pair.held (parsem : ∀ sleepers, state.sems (.parsem child) = .live 0 sleepers →
      ∃ queue, after.sems (.parsem child) = .live 0 queue) (other : Addr) (held : Held state other) :
    Held after other := by
  obtain ⟨⟨known, found, stage⟩, sleepers, live⟩ := held
  by_cases young' : other = child
  · subst young'
    exact ⟨⟨new, pair.writtenChild, pair.young ▸ by decide⟩, parsem sleepers live⟩
  · grind [Pair, Held]

/-- Where no semaphore is made, everything that is still due is held. -/
theorem Pair.held_due (guarded : Guarded state)
    (parsem : after.sems (.parsem child) = state.sems (.parsem child))
    (uncreated : ∀ other pid, later.place ≠ .forkCreated other pid) (other : Addr)
    (due : Due after other) : Held after other := by
  refine pair.held (fun sleepers live => ⟨sleepers, parsem.trans live⟩) other
    (guarded.held other ((pair.due due).resolve_right ?_))
  rintro ⟨pid, created⟩
  exact uncreated other pid created

end

theorem listing_memset {children : Nat → Int} (list : process.pChildren = memsetChildren children)
    (empty : process.offspring = []) : Listing process := by
  refine ⟨by simp [empty], fun index short => ?_, by simp [empty]⟩
  simp [list, empty, memsetChildren, short]

theorem Listing.free (listing : Listing process) (index : Nat)
    (short : process.offspring.length < 8190)
    (room : scan (fun index => process.pChildren index == -1) 0 pidMax = some index) :
    index = process.offspring.length := by
  have ends : process.pChildren process.offspring.length = -1 := by
    simpa using listing.pids process.offspring.length (by omega)
  have free : process.pChildren index = -1 := by
    simpa using (scan_found _ _ _ _ room).1
  rcases Nat.lt_trichotomy index process.offspring.length with below | same | above
  · grind [Listing]
  · exact same
  · have earlier := scan_first _ 0 pidMax index process.offspring.length room (by omega) above
    simp [ends] at earlier

theorem Listing.append (listing : Listing process) (pid : Nat)
    (short : process.offspring.length < 8190) (new : child ∉ process.offspring.map Prod.snd) :
    Listing (process.lists child pid process.offspring.length) := by
  unfold Process.lists
  refine ⟨by grind, fun index inside => ?_, ?_⟩
  · obtain rfl | same := eq_or_ne index process.offspring.length
    · simp
    · grind [Listing]
  · grind [Listing]

theorem Added.guarded {new : Process Addr} (added : Added state after addr new)
    (guarded : Guarded state) (safe : after.misuse = none)
    (listing : Made after addr → Listing new) :
    Guarded after := by
  obtain ⟨unmade, unforked⟩ := guarded.formed.fresh added.fresh
  have new_is (now : Process Addr) (present : after.procs addr = some now) : new = now :=
    Option.mem_unique added.written present
  have unentered (pid : Nat) : state.procArray pid ≠ some addr := by grind [Added, Guarded]
  refine ⟨added.formed guarded.formed, safe, ?_, ?_, ?_, ?_, ?_, ?_, ?_, ?_⟩
  · intro pid entry entered
    rw [added.procArray] at entered
    obtain ⟨inside, known, found, right⟩ := guarded.tabled pid entry entered
    exact ⟨inside, known, (added.others entry (added.older found)).trans found, right⟩
  · intro entry parent now forked made present early
    by_cases same : entry = addr
    · grind [Added]
    · grind [Added, Guarded, Added.made]
  · intro other now present made early
    by_cases same : other = addr
    · grind [Added]
    · grind [Added, Guarded, Added.made]
  · intro other now present made early
    by_cases same : other = addr
    · grind [Added]
    · grind [Added, Guarded, Added.made]
  · grind [Added, Guarded, Made]
  · rintro child ⟨parent, now, present, cases⟩
    by_cases same : parent = addr
    · grind [Added]
    · have known := (added.others parent same).symm.trans present
      obtain ⟨⟨process, found, early⟩, sleepers, live⟩ := guarded.held child ⟨parent, now, known, cases⟩
      have differs := added.older found
      exact ⟨⟨process, (added.others child differs).trans found, early⟩, sleepers,
        (added.parsems child differs).trans live⟩
  · intro pid entry parent now entered forked known
    rw [added.procArray] at entered
    have differs : entry ≠ addr := by
      rintro rfl
      exact unentered pid entered
    have forkedBefore := (added.forkedBy entry differs).symm.trans forked
    by_cases same : parent = addr
    · obtain ⟨_, forker, exists_before⟩ := guarded.formed.known entry parent forkedBefore
      exact absurd same (added.older exists_before)
    · grind [Added, Guarded]
  · grind [Added, Guarded, PlaceGuarded]

/-- The child that has just been let go is not one that has still to be. -/
theorem Guarded.due_differs {later : Process Addr} (guarded : Guarded state)
    (own : Own state after addr process later) (offspring : later.offspring = process.offspring)
    {entry : Addr} (listed : process.offspring[index]? = some (pid, entry))
    (place : later.place = .exitLoop (index + 1)) (due : Due after child) : child ≠ entry := by
  have forked := (guarded.formed.offspring addr process pid entry own.found
    (List.mem_of_getElem? listed)).1
  have listing := guarded.lists addr process own.found
    (guarded.formed.threaded addr process own.found own.threaded)
  rintro rfl
  obtain ⟨parent, now, present, cases⟩ := due
  obtain rfl | same := eq_or_ne parent addr
  · obtain rfl : later = now := Option.mem_unique own.written present
    rcases cases with ⟨other, number, here, unreleased⟩ | ⟨number, created⟩
    · have first : (process.offspring.map Prod.snd)[index]? = some child := by simp [listed]
      have second : (process.offspring.map Prod.snd)[other]? = some child := by
        simp [← offspring, here]
      have equal : index = other := (List.getElem?_inj
        (List.getElem?_eq_some_iff.mp first).1 listing.distinct).mp (first.trans second.symm)
      rw [place, ← equal] at unreleased
      exact unreleased (Nat.lt_succ_self index)
    · rw [place] at created
      cases created
  · have known := (own.others parent same).symm.trans present
    have forkedToo : state.forkedBy child = some parent := by
      rcases cases with ⟨other, number, here, _⟩ | ⟨number, created⟩
      · exact (guarded.formed.offspring parent now number child known (List.mem_of_getElem? here)).1
      · obtain ⟨_, born, _⟩ := guarded.formed.makes_newborn known (Or.inr (Or.inr created))
        exact born.2.2.2
    exact same (Option.mem_unique forkedToo forked)

section

variable [DecidableEq Addr]

theorem turn_guarded {later : Process Addr} (lock : Option Addr) (guarded : Guarded state)
    (permitted : Permitted state action) (found : state.procs addr = some process)
    (turn : Turn state addr process action later) :
    Guarded { state.put addr later with lock := lock } := by
  have own := turn_own lock found turn
  have room (child : Addr) (pid : Nat) (was : process.place = .forkCreated child pid) :
      scan (fun index => process.pChildren index == -1) 0 pidMax ≠ none := by
    have relied := guarded.places addr process found
    simp only [PlaceGuarded, was] at relied
    exact (guarded.lists addr process found ((own.made addr).mp
      (guarded.formed.threaded addr process found own.threaded))).room relied.1
  have offspring : later.offspring = process.offspring := by cases turn <;> rfl
  refine own.guarded guarded (turn_formed lock found guarded.formed turn)
    guarded.safe (Listing.of_same (by cases turn <;> rfl) offspring) ?_ ?_ ?_ ?_ ?_ ?_
  · rintro pid entry (listed | makes)
    · exact offspring ▸ listed
    · cases turn <;> simp_all
  · exact guarded.entries_same found later (by cases turn <;> simp_all)
  · exact fun sem count sleepers live => Or.inl ⟨count, sleepers, live⟩
  · exact fun _ => own.due offspring (by cases turn <;> simp_all) (by cases turn <;> simp_all)
  · refine fun child _ => own.held child ?_ (fun sleepers live => ⟨sleepers, live⟩)
    rintro rfl
    cases turn <;> simp_all
  · exact turn_place_guarded state addr process later guarded permitted found turn

/-- A change of a semaphore that exists leaves those of the others live. -/
theorem update_live {sems : Sem Addr → Semaphore Addr} {sem : Sem Addr} {count : Nat}
    {sleepers : List Addr} (other : Sem Addr) {before : Nat} {queue : List Addr}
    (live : sems other = .live before queue) :
    ∃ now sleeping, update sems sem (.live count sleepers) other = .live now sleeping := by
  grind

section

variable {sem : Sem Addr} {place : Place Addr} (guarded : Guarded state)

include guarded

theorem slept_guarded (found : state.procs addr = some process)
    (live : state.sems sem = .live 0 sleepers) (waits : Waits process sem place) :
    Guarded (state.uses addr process process.place sem (.live 0 (sleepers ++ [addr]))
      (update state.asleep addr true)) := by
  have own := sem_own (.live 0 (sleepers ++ [addr])) (update state.asleep addr true) found
    (waits_passes waits).stays live (by simp)
  refine own.guarded guarded (slept_formed guarded.formed found live waits)
    guarded.safe id (by cases waits <;> simp_all)
    (guarded.entries_same found process id)
    (fun other before queue was => Or.inl (update_live other was))
    (fun _ => own.due rfl (fun _ released => released) (by cases waits <;> simp_all)) ?_ ?_
  · refine fun child _ => own.held child (fun _ early => early) (fun queue was => ?_)
    by_cases same : Sem.parsem child = sem
    · subst same
      exact ⟨sleepers ++ [addr], update_self _ _ _⟩
    · exact ⟨queue, (update_of_ne same _ _).trans was⟩
  · exact PlaceGuarded.later (fun _ _ _ entered => entered) (guarded.places addr process found)

theorem taken_guarded (found : state.procs addr = some process)
    (live : state.sems sem = .live (count + 1) sleepers) (waits : Waits process sem place) :
    Guarded (state.uses addr process place sem (.live count sleepers) state.asleep) := by
  have own := sem_own (.live count sleepers) state.asleep found (waits_passes waits) live (by simp)
  have which := guarded.waits_sem found waits
  refine own.guarded guarded (taken_formed guarded.formed found live waits)
    guarded.safe (Listing.of_same rfl rfl) (by cases waits <;> simp_all)
    (guarded.entries_same found { process with place := place } ?_)
    (fun other before queue was => Or.inl (update_live other was))
    (fun _ => own.due rfl (by cases waits <;> simp_all) (by cases waits <;> simp_all)) ?_ ?_
  · cases waits <;> simp_all
  · intro child _ held
    obtain ⟨queue, zero⟩ := held.2
    have differs : Sem.parsem child ≠ sem := by
      rintro rfl
      rw [zero] at live
      cases live
    refine own.held child ?_ (fun queue was => ⟨queue, (update_of_ne differs _ _).trans was⟩) held
    rintro rfl early
    rcases which with ⟨rfl, _, _⟩ | ⟨pid, entry, _, rfl, _, _⟩
    · exact absurd rfl differs
    · simp
  · rcases which with ⟨_, _, rfl⟩ | ⟨pid, entry, _, rfl, listed, _⟩
    · trivial
    · exact listed

/-- A `V` of an exiting parent lets one child go, the one its loop is at. -/
theorem posted_guarded (found : state.procs addr = some process)
    (live : state.sems sem = .live count sleepers) (posts : Posts process sem place) :
    Guarded (state.uses addr process place sem (.live (count + 1) sleepers.tail)
      (wakeone state.asleep sleepers)) := by
  have own := sem_own (.live (count + 1) sleepers.tail) (wakeone state.asleep sleepers) found
    (posts_passes posts) live (by simp)
  have which := guarded.posts_sem found posts
  refine own.guarded guarded (posted_formed guarded.formed found live posts)
    guarded.safe (Listing.of_same rfl rfl) (by cases posts <;> simp_all)
    (guarded.entries_same found { process with place := place } ?_)
    (fun other before queue was => Or.inl (update_live other was)) ?_ ?_ ?_
  · cases posts <;> simp_all
  · refine fun _ => own.due rfl ?_ (by cases posts <;> simp_all)
    cases posts with
    | own was _ => simp [was]
    | child was =>
      simp only [was, Place.released]
      intro other
      exact Nat.lt_succ_of_lt
  · intro child due
    have differs : Sem.parsem child ≠ sem := by
      rcases which with ⟨rfl, _, _⟩ | ⟨index, pid, entry, rfl, rfl, listed, _⟩
      · intro same
        cases same
      · intro same
        exact guarded.due_differs own rfl listed rfl due (Sem.parsem.inj same)
    refine own.held child ?_ (fun queue was => ⟨queue, (update_of_ne differs _ _).trans was⟩)
    rintro rfl
    cases posts <;> simp_all
  · rcases which with ⟨_, _, rfl⟩ | ⟨index, pid, entry, _, rfl, listed, _⟩
    · trivial
    · exact (List.getElem?_eq_some_iff.mp listed).1

/-- A process frees its semaphores only when nobody has still to let it go. -/
theorem freed_guarded (found : state.procs addr = some process)
    (live : state.sems sem = .live count sleepers) (frees : Frees process sem place) :
    Guarded (state.uses addr process place sem .freed state.asleep) := by
  have own := sem_own .freed state.asleep found (frees_passes frees) live (by simp)
  have which : (sem = .parsem addr ∧ 6 ≤ place.stage) ∨ (sem = .childsem addr ∧ 7 ≤ place.stage) := by
    obtain ⟨parsem, childsem⟩ := guarded.formed.own_sems found own.threaded
    cases frees with
    | parent was pointer =>
      exact Or.inl ⟨Option.mem_unique pointer parsem, Nat.le_refl 6⟩
    | child was pointer =>
      exact Or.inr ⟨Option.mem_unique pointer childsem, Nat.le_refl 7⟩
  have late : 5 ≤ process.place.stage := by
    cases frees <;> simp_all
  refine own.guarded guarded (freed_formed guarded.formed found live frees)
    guarded.safe (Listing.of_same rfl rfl) (by cases frees <;> simp_all)
    (guarded.entries_same found { process with place := place } (by omega)) ?_
    (fun _ => own.due rfl (by cases frees <;> simp_all) (by cases frees <;> simp_all)) ?_ ?_
  · intro other before queue was
    by_cases same : other = sem
    · exact Or.inr (same ▸ which)
    · exact Or.inl ⟨before, queue, (update_of_ne same _ _).trans was⟩
  · intro child _ held
    have older : child ≠ addr := by
      rintro rfl
      obtain ⟨⟨known, same, early⟩, _⟩ := held
      obtain rfl : process = known := Option.mem_unique found same
      omega
    have differs : Sem.parsem child ≠ sem := by
      rcases which with ⟨rfl, _⟩ | ⟨rfl, _⟩
      · exact fun same => older (Sem.parsem.inj same)
      · intro same
        cases same
    exact own.held child (fun same => absurd same older)
      (fun queue was => ⟨queue, (update_of_ne differs _ _).trans was⟩) held
  · cases frees <;> trivial

end

/-- An exiting process clears its own entry and no other. -/
theorem cleared_guarded (guarded : Guarded state) (permitted : Permitted state (.run addr))
    (found : state.procs addr = some process) (was : process.place = .exitLet)
    (inside : 0 ≤ process.pId ∧ process.pId < pidMax) :
    Guarded (state.clears addr process process.pId.toNat) := by
  have own := cleared_own found was process.pId.toNat
  have only (entry : Addr) (present : state.procArray process.pId.toNat = some entry) :
      entry = addr := by
    cases forked : state.forkedBy addr with
    | none =>
      have unused := (permitted process found was forked).2
      rw [(entry_at_iff _ _ _).mpr ⟨inside, present⟩] at unused
      cases unused
    | some parent =>
      obtain ⟨pid, number, entered⟩ := guarded.entered addr parent process forked
        (guarded.formed.threaded addr process found own.threaded) found
        (by simp [was])
      rw [number, Int.toNat_natCast, entered] at present
      exact (Option.some.inj present).symm
  refine own.guarded guarded (cleared_formed guarded.formed found was process.pId.toNat)
    guarded.safe (Listing.of_same rfl rfl) (by simp [was]) ?_
    (fun sem count sleepers live => Or.inl ⟨count, sleepers, live⟩)
    (fun _ => own.due rfl (by simp [was]) (by simp)) ?_ ?_
  · intro pid entry
    obtain rfl | same := eq_or_ne pid process.pId.toNat
    · refine ⟨fun present => ?_, fun both => ?_⟩
      · simp at present
      · exact absurd (both.2 (only entry both.1)) (by simp)
    · have unchanged := update_of_ne same none state.procArray
      refine ⟨fun present => ⟨unchanged.symm.trans present, ?_⟩,
        fun present => unchanged.trans present.1⟩
      rintro rfl
      obtain ⟨_, known, again, number, _⟩ := guarded.tabled pid entry (unchanged.symm.trans present)
      obtain rfl : process = known := Option.mem_unique found again
      rw [number, Int.toNat_natCast] at same
      exact absurd rfl same
  · refine fun child _ => own.held child ?_ (fun queue live => ⟨queue, live⟩)
    rintro rfl early
    simp [was] at early
  · exact Nat.zero_le _

section

variable (guarded : Guarded state) (found : state.procs addr = some process)

include guarded found

section

variable (present : state.procs child = some created)

include present

theorem entered_guarded (was : process.place = .forkScan child index)
    (inside : index < pidMax) (free : state.procArray index = none) :
    Guarded (forkEnter state addr child process created index) := by
  have pair := entered_pair guarded.formed found present was
  have unmade := (guarded.formed.relied found was).1
  have born := pair.born
  have short := guarded.places addr process found
  simp only [PlaceGuarded, was] at short
  have unlisted (pid : Nat) : (pid, child) ∉ process.offspring := fun listed =>
    unmade (guarded.formed.offspring addr process pid child found listed).2.1
  have unentered (pid : Nat) : state.procArray pid ≠ some child := by
    intro entered
    rcases guarded.members pid child addr process entered born.2.2.2 found with listed | makes
    · exact unlisted pid listed
    · simp [was] at makes
  refine pair.guarded guarded (entered_formed guarded.formed found present was) guarded.safe rfl
    ?_ ?_ (fun made => absurd made unmade) (fun made => absurd made unmade)
    (fun made => absurd made unmade) (pair.held_due guarded rfl (by simp)) ?_ ?_
  · intro pid entry entered
    have differs : pid ≠ index := by
      rintro rfl
      simp [free] at entered
    refine ⟨(update_of_ne differs _ _).trans entered, ?_⟩
    rintro rfl
    exact absurd entered (unentered pid)
  · intro pid entry entered
    obtain rfl | same := eq_or_ne pid index
    · have own : child = entry := by simpa using entered
      exact Or.inr ⟨own.symm, rfl, inside⟩
    · exact Or.inl ((update_of_ne same _ _).symm.trans entered)
  · intro pid entry entered forked
    obtain rfl | same := eq_or_ne pid index
    · have own : child = entry := by simpa using entered
      exact Or.inr (Or.inl (own ▸ rfl))
    · refine Or.inl ?_
      rcases guarded.members pid entry addr process
        ((update_of_ne same _ _).symm.trans entered) forked found with listed | makes
      · exact listed
      · simp [was] at makes
  · refine ⟨short, update_self _ _ _, ?_⟩
    intro member
    obtain ⟨⟨pid, entry⟩, listed, rfl⟩ := List.mem_map.mp member
    exact unlisted pid listed

theorem allocated_guarded (was : process.place = .forkEntered child pid) :
    Guarded (forkAllocate state addr child process created pid) := by
  have pair := allocated_pair guarded.formed found present was
  have unmade := (guarded.formed.relied found was).1
  have relied := guarded.places addr process found
  simp only [PlaceGuarded, was] at relied
  have numbered := guarded.numbered present
  refine pair.guarded guarded (allocated_formed guarded.formed found present was) guarded.safe rfl
    numbered (fun _ _ entered => Or.inl entered) (fun made => absurd made unmade)
    (fun made => absurd made unmade) (fun made => absurd made unmade)
    (pair.held_due guarded rfl (by simp)) ?_ relied
  intro number entry entered forked
  refine (guarded.members number entry addr process entered forked found).imp id ?_
  intro makes
  have same : Place.forkEntered child pid = .forkEntered entry number := by
    simpa [was] using makes
  cases same
  exact Or.inr (Or.inl rfl)

theorem created_guarded (was : process.place = .forkAllocated child pid) :
    Guarded (forkCreate state addr child process created pid) := by
  have pair := created_pair guarded.formed found present was
  have born := pair.born
  have relied := guarded.places addr process found
  simp only [PlaceGuarded, was] at relied
  have parsem : (forkCreate state addr child process created pid).sems (.parsem child) =
      .live 0 [] := by simp
  have childsem : (forkCreate state addr child process created pid).sems (.childsem child) =
      .live 0 [] := by simp
  have numbered := guarded.numbered present
  refine pair.guarded guarded (created_formed guarded.formed found present was) guarded.safe rfl
    numbered (fun _ _ entered => Or.inl entered) (fun _ => ⟨⟨0, [], childsem⟩, 0, [], parsem⟩)
    (fun _ => ⟨pid, (numbered pid child relied.2.1).2 rfl, relied.2.1⟩)
    (fun _ => listing_memset rfl born.2.2.1) ?_ ?_ relied
  · intro other due
    rcases pair.due due with before | ⟨number, place⟩
    · exact pair.held (fun _ _ => ⟨[], parsem⟩) other (guarded.held other before)
    · cases place
      exact ⟨⟨_, pair.writtenChild, by simp [born.2.1]⟩, [], parsem⟩
  · intro number entry entered forked
    refine (guarded.members number entry addr process entered forked found).imp id ?_
    intro makes
    have same : Place.forkAllocated child pid = .forkAllocated entry number := by
      simpa [was] using makes
    cases same
    exact Or.inr (Or.inr rfl)

theorem ended_guarded (succeeds : Bool) (was : process.place = .forkUnlocked child pid) :
    Guarded (forkEnd state addr child process created pid succeeds) := by
  obtain ⟨made, pair⟩ := ended_pair guarded.formed found present succeeds was
  have born := pair.born
  have early : created.place.stage = 0 := by simp [born.2.1]
  have numbered := guarded.numbered present
  refine pair.guarded guarded (ended_formed guarded.formed found present succeeds was)
    guarded.safe rfl numbered (fun _ _ entered => Or.inl entered)
    (fun _ => ⟨guarded.childsems child created present made (by omega),
      guarded.parsems child created present made (by omega)⟩)
    (fun _ => guarded.entered child addr created born.2.2.2 made present (by omega)) ?_
    (pair.held_due guarded rfl (by simp)) ?_ trivial
  · intro _
    have listing := guarded.lists child created present made
    exact { listing with }
  · intro number entry entered forked
    refine (guarded.members number entry addr process entered forked found).imp id ?_
    intro makes
    simp [was] at makes

end

theorem listed_guarded (was : process.place = .forkCreated child pid)
    (room : scan (fun index => process.pChildren index == -1) 0 pidMax = some index) :
    Guarded (state.put addr (process.lists child pid index)) := by
  have own := listed_own index guarded.formed found was
  have relied := guarded.places addr process found
  simp only [PlaceGuarded, was] at relied
  obtain ⟨short, _, unlisted⟩ := relied
  have last (listing : Listing process) : index = process.offspring.length :=
    listing.free index short room
  refine own.guarded guarded (listed_formed index guarded.formed found was) guarded.safe
    (fun listing => last listing ▸ listing.append pid short unlisted) ?_
    (guarded.entries_same found _ (fun _ => by simp))
    (fun sem count sleepers live => Or.inl ⟨count, sleepers, live⟩) ?_
    (fun other _ => own.held other (fun _ _ => by simp) (fun sleepers live => ⟨sleepers, live⟩))
    trivial
  · rintro number entry (listed | makes)
    · exact List.mem_append_left _ listed
    · have same : Place.forkCreated child pid = .forkCreated entry number := by
        simpa [was] using makes
      cases same
      simp
  · rintro other ⟨parent, now, present, cases⟩
    obtain rfl | same := eq_or_ne parent addr
    · obtain rfl := Option.mem_unique own.written present
      rcases cases with ⟨position, number, listed, _⟩ | ⟨number, created⟩
      · refine ⟨parent, process, found, ?_⟩
        rcases List.mem_append.mp (List.mem_of_getElem? listed) with old | new
        · obtain ⟨earlier, here⟩ := List.mem_iff_getElem?.mp old
          exact Or.inl ⟨earlier, number, here, by simp [was]⟩
        · obtain ⟨rfl, rfl⟩ := Prod.mk.inj (List.mem_singleton.mp new)
          exact Or.inr ⟨number, was⟩
      · cases created
    · exact ⟨parent, now, (own.others parent same).symm.trans present, cases⟩

theorem called_guarded {raw : Process Addr} (permitted : Permitted state (.trap addr child raw))
    (was : process.place = .user) (number : process.tf.v0 = callFork)
    (fresh : state.procs child = none) : Guarded (forkCall state addr child process raw) := by
  have added := called_added raw found fresh guarded.formed
  have own := called_own raw found fresh was
  have allocated := added.guarded guarded guarded.safe
    (fun made => absurd made (guarded.formed.fresh fresh).1)
  exact own.guarded allocated (called_formed raw found fresh guarded.formed was) guarded.safe
    (Listing.of_same rfl rfl) (by simp [was])
    (allocated.entries_same own.found _ (fun _ => by simp))
    (fun sem count sleepers live => Or.inl ⟨count, sleepers, live⟩)
    (fun _ => own.due rfl (by simp [was]) (by simp))
    (fun other _ => own.held other (fun _ _ => by simp) (fun sleepers live => ⟨sleepers, live⟩))
    ((permitted process found).2 number)

end

theorem started_guarded (raw : Process Addr) (guarded : Guarded state)
    (fresh : state.procs addr = none) : Guarded (runprogram state addr raw) :=
  (started_added raw guarded.formed fresh).guarded guarded guarded.safe
    (fun _ => listing_memset rfl rfl)

/-- Every permitted step without misuse keeps the invariant. One case per step. -/
theorem step_guarded (guarded : Guarded state) (permitted : Permitted state action)
    (safe : after.misuse = none) (step : Step state action after) : Guarded after := by
  cases step with
  | misused misuse => cases safe
  | turned lock found turn => exact turn_guarded lock guarded permitted found turn
  | slept found live waits => exact uses_here found ▸ slept_guarded guarded found live waits
  | taken found live waits => exact taken_guarded guarded found live waits
  | posted found live posts => exact posted_guarded guarded found live posts
  | freed found live frees => exact freed_guarded guarded found live frees
  | cleared found was inside => exact cleared_guarded guarded permitted found was inside
  | started fresh => exact started_guarded _ guarded fresh
  | called found was number fresh => exact called_guarded guarded found permitted was number fresh
  | entered found was born inside free => exact entered_guarded guarded found born was inside free
  | allocated found was born => exact allocated_guarded guarded found born was
  | created found was born => exact created_guarded guarded found born was
  | listed found was room => exact listed_guarded guarded found was room
  | ended found was born => exact ended_guarded guarded found born _ was

end

end Os161.Proc.ExitWait
