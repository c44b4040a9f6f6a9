import Os161.Proc.Guarded
import Os161.Proc.WaitStatus

/-!
# Entries and semaphores of processes that exit

A process that exits raises its `p_childsem` for a waiter and then waits on its `p_parsem`
for its parent to exit; after that it clears its entry and frees both semaphores. Its parent
can therefore wait for it at leisure. Anybody else can be too late: once the parent has
exited, nothing keeps the entry and the semaphores for a waiter that is not the parent.
-/
namespace Os161.Proc.ExitWait

open Os161.Library.Runs
open Os161.Proc.ProcTable (pidMax entryAt)

variable {Addr : Type}

variable {state : State Addr} {process : Process Addr} {addr : Addr}

theorem use_sem_safe {sem : Sem Addr} {use : Sem Addr → Nat → List Addr → State Addr}
    (live : ∃ count sleepers, state.sems sem = .live count sleepers)
    (used : ∀ count sleepers, (use sem count sleepers).misuse = state.misuse) :
    (useSem state (some sem) use).misuse = state.misuse := by
  obtain ⟨count, sleepers, live⟩ := live
  simp [useSem, live, used]

section

variable [DecidableEq Addr]

attribute [local simp] Place.stage Place.released State.goes

theorem use_entry_safe (addr : Addr) (process : Process Addr) {pid : Nat} {meant : Addr}
    {place : Place Addr} (inside : pid < pidMax) (present : state.procArray pid = some meant) :
    (useEntry state addr process pid meant place).misuse = state.misuse := by
  have range : (0 : Int) ≤ pid ∧ (pid : Int) < pidMax := ⟨by omega, by exact_mod_cast inside⟩
  rw [useEntry, if_pos range, Int.toNat_natCast, if_pos present]
  rfl

theorem sem_p_safe (state : State Addr) (addr : Addr) (process : Process Addr) (sem : Sem Addr)
    (place : Place Addr) (live : ∃ count sleepers, state.sems sem = .live count sleepers) :
    (semP state addr process (some sem) place).misuse = state.misuse :=
  use_sem_safe live fun count _ => by cases count <;> rfl

/-- Every child in the list is in the table when the loop comes to it, and the list ends. -/
theorem exit_loop_safe {index : Nat} (guarded : Guarded state)
    (found : state.procs addr = some process) (was : process.place = .exitLoop index) :
    (exitLoop state addr process index).misuse = state.misuse := by
  have listing := guarded.lists addr process found
    (guarded.formed.threaded addr process found (by simp [was]))
  have reached := guarded.places addr process found
  simp only [PlaceGuarded, was] at reached
  have short := listing.short
  have pids := listing.pids index (by omega)
  have inside : index < pidMax := by unfold pidMax; omega
  rw [exitLoop, if_pos inside]
  cases listed : process.offspring[index]? with
  | none =>
    have ends : process.pChildren index = -1 := by simpa [listed] using pids
    rw [if_pos ends]
    rfl
  | some member =>
    obtain ⟨pid, child⟩ := member
    have pid_is : process.pChildren index = pid := by simpa [listed] using pids
    have proper : process.pChildren index ≠ -1 := by omega
    obtain ⟨_, range, present⟩ := guarded.due_entry found listed (by simp [was])
    rw [if_neg proper, pid_is]
    exact use_entry_safe addr process range present

/-- A process that exits has an entry to clear, or a pid that nobody else has. -/
theorem exit_clear_safe (guarded : Guarded state) (found : state.procs addr = some process)
    (was : process.place = .exitLet) (permitted : Permitted state (.run addr)) :
    (exitClear state addr process).misuse = state.misuse := by
  have range : 0 ≤ process.pId ∧ process.pId < pidMax := by
    cases forked : state.forkedBy addr with
    | none => exact (permitted process found was forked).1
    | some parent =>
      obtain ⟨pid, number, entered⟩ := guarded.entered addr parent process forked
        (guarded.formed.threaded addr process found (by simp [was])) found
        (by simp [was])
      have inside := (guarded.tabled pid addr entered).1
      rw [number]
      exact ⟨by omega, by exact_mod_cast inside⟩
  rw [exitClear, if_pos range]
  rfl

theorem fork_scan_safe (state : State Addr) (addr child : Addr) (process created : Process Addr)
    (index : Nat) : (forkScan state addr child process created index).misuse = state.misuse := by
  unfold forkScan
  split
  · split <;> rfl
  · rfl

theorem fork_list_safe (state : State Addr) (addr child : Addr) (process : Process Addr)
    (pid : Nat) : (forkList state addr child process pid).misuse = state.misuse := by
  unfold forkList
  split <;> rfl

/-- No step of a process in the kernel misuses anything. -/
theorem resume_safe {after : State Addr} (guarded : Guarded state)
    (found : state.procs addr = some process) (permitted : Permitted state (.run addr))
    (taken : resume state addr process = some after) : after.misuse = state.misuse := by
  have relied := guarded.places addr process found
  have pointers := guarded.formed.own_sems found
  have parsem (threaded : process.place ≠ .unborn) (early : process.place.stage < 6) :=
    guarded.parsems addr process found (guarded.formed.threaded addr process found threaded) early
  have childsem (threaded : process.place ≠ .unborn) (early : process.place.stage < 7) :=
    guarded.childsems addr process found (guarded.formed.threaded addr process found threaded) early
  unfold resume at taken
  unfold PlaceGuarded at relied
  split at taken
  case h_1 | h_2 | h_9 | h_23 => cases taken
  case h_3 child was =>
    split at taken
    · cases taken
      rfl
    · cases taken
  case h_4 child index was =>
    obtain ⟨created, _, rfl⟩ := Option.map_eq_some_iff.mp taken
    exact fork_scan_safe state addr child process created index
  case h_5 child pid was | h_6 child pid was =>
    obtain ⟨created, _, rfl⟩ := Option.map_eq_some_iff.mp taken
    rfl
  case h_7 child pid was =>
    cases taken
    exact fork_list_safe state addr child process pid
  case h_8 child pid was =>
    cases taken
    rfl
  case h_10 pid entry was | h_13 pid entry was =>
    obtain rfl := Option.some.inj taken
    rw [was] at relied
    obtain ⟨_, inside, present⟩ := guarded.waited_entry found relied (by simp [was])
    exact use_entry_safe addr process inside present
  case h_11 pid entry was | h_14 pid entry was | h_19 index entry was =>
    obtain ⟨child, _, rfl⟩ := Option.map_eq_some_iff.mp taken
    rfl
  case h_12 pid entry sem was =>
    cases taken
    rw [was] at relied
    obtain ⟨⟨⟨child, present, early⟩, _⟩, _⟩ := guarded.waited_entry found relied (by simp [was])
    obtain ⟨forked, made, _⟩ := guarded.formed.offspring addr process pid entry found relied
    obtain ⟨parent, forkedAgain, own⟩ := guarded.formed.relied found was
    rw [own (Option.mem_unique forkedAgain forked)]
    exact sem_p_safe state addr process _ _ (guarded.childsems entry child present made (by omega))
  case h_15 was =>
    cases taken
    rw [(pointers (by simp [was])).2]
    exact use_sem_safe (childsem (by simp [was]) (by simp [was])) fun _ _ => rfl
  case h_16 was =>
    cases taken
    rw [(pointers (by simp [was])).1]
    exact sem_p_safe state addr process _ _ (parsem (by simp [was]) (by simp [was]))
  case h_17 was =>
    cases taken
    exact exit_clear_safe guarded found was permitted
  case h_18 index was =>
    cases taken
    exact exit_loop_safe guarded found was
  case h_20 index sem was =>
    cases taken
    rw [was] at relied
    obtain ⟨pid, entry, listed, rfl⟩ := relied
    obtain ⟨⟨_, sleepers, live⟩, _⟩ := guarded.due_entry found listed (by simp [was])
    exact use_sem_safe ⟨0, sleepers, live⟩ fun _ _ => rfl
  case h_21 was =>
    cases taken
    rw [(pointers (by simp [was])).1]
    exact use_sem_safe (parsem (by simp [was]) (by simp [was])) fun _ _ => rfl
  case h_22 was =>
    cases taken
    rw [(pointers (by simp [was])).2]
    exact use_sem_safe (childsem (by simp [was]) (by simp [was])) fun _ _ => rfl

/-- A permitted step misuses nothing: each semaphore and entry it touches is guarded. -/
theorem next_safe {after : State Addr} {action : Action Addr} (guarded : Guarded state)
    (permitted : Permitted state action) (taken : next state action = some after) :
    after.misuse = none := by
  refine Eq.trans ?_ guarded.safe
  unfold next at taken
  split at taken
  · cases taken
  cases action with
  | runprogram addr raw =>
    simp only [guard_some] at taken
    obtain ⟨_, rfl⟩ := taken
    rfl
  | user addr tf memory =>
    simp only [Option.bind_eq_bind, Option.bind_eq_some_iff, guard_some] at taken
    obtain ⟨process, _, _, rfl⟩ := taken
    rfl
  | trap addr child raw =>
    simp only [Option.bind_eq_bind, Option.bind_eq_some_iff, Option.ite_none_right_eq_some]
      at taken
    obtain ⟨process, found, _, called⟩ := taken
    unfold syscall at called
    split at called
    · split at called
      · cases called
        rfl
      · cases called
    · split at called
      · rename_i number
        cases called
        rw [waitCheck, if_pos ((permitted process found).1 number).1]
        split <;> rfl
      · split at called
        · cases called
          rfl
        · cases called
  | run addr =>
    simp only [Option.bind_eq_bind, Option.bind_eq_some_iff, Option.ite_none_left_eq_some]
      at taken
    obtain ⟨process, found, _, resumed⟩ := taken
    exact resume_safe guarded found permitted resumed
  | threadFork addr succeeds =>
    simp only [Option.bind_eq_bind, Option.bind_eq_some_iff] at taken
    obtain ⟨process, _, forked⟩ := taken
    split at forked
    · obtain ⟨created, _, rfl⟩ := Option.map_eq_some_iff.mp forked
      rfl
    · cases forked

/-- In every run in which processes wait only for children of their own, fork only while their
lists are short, and, when they come from the menu, exit only with a pid nobody uses, no step
uses a cleared entry or a freed semaphore, or anything else that is not what it is taken for. -/
theorem no_misuse_in_permitted_runs (state : State Addr)
    (reached : Reaches next Permitted Initial state) : state.misuse = none := by
  have guarded : Guarded state := by
    refine reached.invariant (fun fresh initial => ?_) ?_
    · exact ⟨initial_formed fresh initial, initial.misuse,
        fun pid entry entered => by simp [initial.procArray] at entered,
        fun entry parent process forked => by simp [initial.forkedBy] at forked,
        fun addr process found => by simp [initial.procs] at found,
        fun addr process found => by simp [initial.procs] at found,
        fun addr process found => by simp [initial.procs] at found,
        fun child due => by
          obtain ⟨parent, process, found, _⟩ := due
          simp [initial.procs] at found,
        fun pid entry parent process entered => by simp [initial.procArray] at entered,
        fun addr process found => by simp [initial.procs] at found⟩
    · intro before action after guarded permitted taken
      exact step_guarded guarded permitted (next_safe guarded permitted taken) (next_cases taken)
  exact guarded.safe

instance (state : State Addr) (action : Action Addr) : Decidable (Permitted state action) := by
  cases action <;> unfold Permitted <;> infer_instance

end

/-- A process calls `_exit` and takes so many steps in it. -/
def exitActions (addr steps : Nat) : List (Action Nat) :=
  .user addr (registers callExit 0#32 0#32) (fun _ => 0#8) :: .trap addr 0 blank ::
    List.replicate steps (.run addr)

/-- A process calls `waitpid` on a pid and takes so many steps in it. -/
def waitActions (addr : Nat) (pid : BitVec 32) (steps : Nat) : List (Action Nat) :=
  .user addr (registers callWaitpid pid 0#32) (fun _ => 0#8) :: .trap addr 0 blank ::
    List.replicate steps (.run addr)

/-- A program forks a child and waits for it, and both exit. -/
def familyExits : List (Action Nat) :=
  .runprogram 1 blank :: forkActions 1 2 0 ++ waitActions 1 1#32 3 ++ exitActions 2 2 ++
    List.replicate 3 (.run 1) ++ exitActions 1 9 ++ List.replicate 5 (.run 2)

/-- Both are gone. -/
theorem family_without_misuse :
    ∃ state, exec next booted familyExits = some state ∧
      Permits next Permitted booted familyExits ∧
      ((state.procs 1).map (·.place) = some .gone ∧ (state.procs 2).map (·.place) = some .gone) ∧
      state.misuse = none := by
  obtain ⟨state, evaluated, finished⟩ : ∃ state ∈ exec next booted familyExits,
      (state.procs 1).map (·.place) = some .gone ∧ (state.procs 2).map (·.place) = some .gone := by
    decide +kernel
  have permitted : Permits next Permitted booted familyExits := by
    decide +kernel
  have reached : Reaches next Permitted Initial state :=
    reaches_of_permitted (fun _ _ => id) (.start booted booted_initial) permitted evaluated
  exact ⟨state, evaluated, permitted, finished, no_misuse_in_permitted_runs state reached⟩

/-- A program forks two children and exits, and the second child waits for the first. The
first exits before the second goes on. -/
def orphansWait : List (Action Nat) :=
  .runprogram 1 blank :: forkActions 1 2 0 ++
    .user 1 (registers callFork 0#32 0#32) (fun _ => 0#8) :: forkActions 1 3 1 ++
    exitActions 1 12 ++ waitActions 3 1#32 3 ++ exitActions 2 3

/-- The waiter has been woken, and the entry it waited on is clear; or, when the exit goes on
for three more steps before the waiter does, the semaphore it was woken from has been freed. -/
theorem woken_waiter_too_late :
    (∃ before after process, exec next booted (orphansWait ++ [.run 3]) = some before ∧
      Reaches next Anything Initial before ∧ before.procs 3 = some process ∧
      process.place = .waitWoken 1 2 ∧ before.procArray 1 = none ∧
      next before (.run 3) = some after ∧ after.misuse = some .entry) ∧
    ∃ before after process, exec next booted (orphansWait ++ List.replicate 3 (.run 2)) = some before ∧
      Reaches next Anything Initial before ∧ before.procs 3 = some process ∧
      process.place = .waitSem 1 2 (some (.childsem 2)) ∧
      next before (.run 3) = some after ∧ after.misuse = some .freed := by
  obtain ⟨before, evaluated, ⟨process, found, place⟩, clear, after, taken, misuse⟩ :
      ∃ before ∈ exec next booted (orphansWait ++ [.run 3]),
        (∃ process ∈ before.procs 3, process.place = .waitWoken 1 2) ∧ before.procArray 1 = none ∧
          ∃ after ∈ next before (.run 3), after.misuse = some .entry := by
    decide +kernel
  obtain ⟨later, evaluatedLater, ⟨waiter, foundLater, placeLater⟩, afterLater, takenLater,
      misuseLater⟩ : ∃ before ∈ exec next booted (orphansWait ++ List.replicate 3 (.run 2)),
        (∃ process ∈ before.procs 3, process.place = .waitSem 1 2 (some (.childsem 2))) ∧
          ∃ after ∈ next before (.run 3), after.misuse = some .freed := by
    decide +kernel
  exact ⟨⟨before, after, process, evaluated,
    reaches_of_exec Initial _ booted_initial evaluated, found, place, clear, taken,
    misuse⟩, later, afterLater, waiter, evaluatedLater,
    reaches_of_exec Initial _ booted_initial evaluatedLater, foundLater, placeLater,
    takenLater, misuseLater⟩

end Os161.Proc.ExitWait
