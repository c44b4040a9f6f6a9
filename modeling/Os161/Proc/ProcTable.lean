import Os161.Library.Runs
import Mathlib.Data.List.Range

/-!
# Process identifiers and the process table

`proc_Array` maps pids to process structures. `sys_fork` enters the child at the
first free pid from one on, stores that pid in the child and appends it to the
parent's `p_children`, a list that ends at its first minus one. `sys__exit` clears
the entry at its own pid. `proc_create` and `runprogram` neither choose a pid nor
make an entry, so a program started from the menu carries whatever its memory
held, and the table never shows it.

Every call is one step. `proc_Lock` stays held by the error returns that forget
it, and a step that would have to wait, or that follows a null pointer, is not
taken.
-/
namespace Os161.Proc.ProcTable

open Os161.Library.Runs Function

variable {Addr : Type}

abbrev pidMax : Nat := 32767

/-- The fields of a process structure the three calls use. A live process is in
user mode. -/
structure Process where
  pId : Int
  pParent : Int
  pChildren : Nat → Int
  pParsem : Nat
  live : Bool

/-- The process structures, `proc_Array`, whether `proc_Lock` is held between
calls, and which process forked which. -/
structure State (Addr : Type) where
  procs : Addr → Option Process
  procArray : Nat → Option Addr
  locked : Bool
  forkedBy : Addr → Option Addr

/-- A program is started in a new structure with some memory, successfully or not;
a process forks; a process exits. -/
inductive Action (Addr : Type)
  | runprogram (addr : Addr) (memory : Process) (succeeds : Bool)
  | sysFork (addr child : Addr) (memory : Process)
  | sysExit (addr : Addr)

/-- The kernel has cleared `proc_Array` and there is no user process. -/
def Initial (state : State Addr) : Prop :=
  (∀ addr, state.procs addr = none) ∧ (∀ pid, state.procArray pid = none) ∧
    state.locked = false ∧ ∀ addr, state.forkedBy addr = none

/-- The first index of a range that satisfies a test. -/
def scan (test : Nat → Bool) : Nat → Nat → Option Nat
  | _, 0 => none
  | index, count + 1 => if test index then some index else scan test (index + 1) count

/-- `memset(p_children, -1, __PID_MAX)`: the length is in bytes, so 8191 entries
become minus one, the next keeps its last byte, and the others keep their value. -/
def memsetChildren (children : Nat → Int) (index : Nat) : Int :=
  if index < 8191 then -1
  else if index = 8191 then -256 + children index % 256
  else children index

/-- The entries of a `p_children` list before its first minus one, if it has one. -/
def listed (children : Nat → Int) : Option (List Int) :=
  (scan (fun index => children index == -1) 0 pidMax).map
    (fun length => (List.range length).map children)

/-- An entry of `proc_Array`, if the pid is one of its indices. -/
def entryAt (procArray : Nat → Option Addr) (pid : Int) : Option Addr :=
  if 0 ≤ pid ∧ pid < pidMax then procArray pid.toNat else none

section

variable [DecidableEq Addr] (state : State Addr) (addr : Addr)

/-- `proc_create` and `runprogram` on new memory. The pid is not set. A failure
leaves the structure without a process and `proc_Lock` held. -/
def runprogram (memory : Process) (succeeds : Bool) : State Addr :=
  { state with
    procs := update state.procs addr (some {
      memory with
      pChildren := if succeeds then memsetChildren memory.pChildren else memory.pChildren
      pParsem := if succeeds then 1 else memory.pParsem
      live := succeeds })
    locked := !succeeds }

/-- `sys_fork`. The table may be full, and the parent's list may be; in the second
case the entry stays although there is no process. -/
def sysFork (child : Addr) (parent memory : Process) : State Addr :=
  match scan (fun pid => (state.procArray pid).isNone) 1 (pidMax - 1) with
  | none => { state with locked := true }
  | some pid =>
    let created : Process := {
      pId := pid
      pParent := parent.pId
      pChildren := memsetChildren memory.pChildren
      pParsem := 0
      live := false }
    let entered := { state with
      procs := update state.procs child (some created)
      procArray := update state.procArray pid (some child)
      forkedBy := update state.forkedBy child (some addr) }
    match scan (fun index => parent.pChildren index == -1) 0 pidMax with
    | none => { entered with locked := true }
    | some index =>
      { entered with
        procs := update (update state.procs child (some { created with live := true })) addr
          (some { parent with pChildren := update parent.pChildren index pid }) }

/-- The loop of `sys__exit` over the children: each child's semaphore is raised. A
child that is not in the table is a null pointer. -/
def wakeChildren (procArray : Nat → Option Addr) (procs : Addr → Option Process) :
    List Int → Option (Addr → Option Process)
  | [] => some procs
  | pid :: rest => do
    let addr ← entryAt procArray pid
    let child ← procs addr
    wakeChildren procArray
      (update procs addr (some { child with pParsem := child.pParsem + 1 })) rest

/-- `sys__exit`, from where the process has been let go by its parent. -/
def sysExit (process : Process) : Option (State Addr) := do
  if 0 ≤ process.pId ∧ process.pId < pidMax then
    let procArray := update state.procArray process.pId.toNat none
    let children ← listed process.pChildren
    let procs ← wakeChildren procArray state.procs children
    let last ← procs addr
    some { state with
      procArray := procArray
      procs := update procs addr (some { last with live := false }) }
  else none

/-- The transition function. -/
def next : Action Addr → Option (State Addr)
  | .runprogram addr memory succeeds =>
    if state.procs addr = none ∧ state.locked = false then
      some (runprogram state addr memory succeeds)
    else none
  | .sysFork addr child memory => do
    let parent ← state.procs addr
    if parent.live = true ∧ state.procs child = none ∧ state.locked = false then
      some (sysFork state addr child parent memory)
    else none
  | .sysExit addr => do
    let process ← state.procs addr
    if process.live = true ∧ 0 < process.pParsem then sysExit state addr process else none

end

/-- A live process of a state. -/
def Live (state : State Addr) (addr : Addr) (process : Process) : Prop :=
  state.procs addr = some process ∧ process.live = true

/-- Live processes have different pids and stand in the table at their own; the
table has no other entries; and the list of a live process is the pids at which
the table has children it forked. -/
def Tabled (state : State Addr) : Prop :=
  (∀ first second process other, Live state first process → Live state second other →
    process.pId = other.pId → first = second) ∧
    (∀ addr process, Live state addr process → entryAt state.procArray process.pId = some addr) ∧
    (∀ pid addr, entryAt state.procArray pid = some addr →
      ∃ process, Live state addr process ∧ process.pId = pid) ∧
    ∀ addr process, Live state addr process → ∃ pids, listed process.pChildren = some pids ∧
      ∀ pid, pid ∈ pids ↔ ∃ child, entryAt state.procArray pid = some child ∧
        state.forkedBy child = some addr

/-- A program gets into user mode. -/
def Starts : Action Addr → Prop
  | .runprogram _ _ succeeds => succeeds = true
  | _ => False

/-- Entries of the table are structures that exist. -/
def Allocated (state : State Addr) : Prop :=
  ∀ pid addr, state.procArray pid = some addr → ∃ process, state.procs addr = some process

/-- A search finds an index of its range that satisfies the test. -/
theorem scan_found (test : Nat → Bool) (index count found : Nat)
    (result : scan test index count = some found) :
    test found = true ∧ index ≤ found ∧ found < index + count := by
  induction count generalizing index with
  | zero => cases result
  | succ count ih =>
    simp only [scan] at result
    split at result
    · cases result
      exact ⟨by assumption, Nat.le_refl _, by omega⟩
    · have later := ih (index + 1) result
      exact ⟨later.1, by omega, by omega⟩

theorem scan_none (test : Nat → Bool) (index count other : Nat)
    (failed : scan test index count = none) (low : index ≤ other) (high : other < index + count) :
    test other = false := by
  induction count generalizing index with
  | zero => omega
  | succ count ih =>
    simp only [scan] at failed
    split at failed
    · cases failed
    · rename_i fails
      by_cases same : other = index
      · simpa [same] using fails
      · exact ih (index + 1) failed (by omega) (by omega)

/-- A search finds the first index that satisfies the test. -/
theorem scan_first (test : Nat → Bool) (index count found other : Nat)
    (result : scan test index count = some found) (low : index ≤ other) (before : other < found) :
    test other = false := by
  induction count generalizing index with
  | zero => cases result
  | succ count ih =>
    simp only [scan] at result
    split at result
    · cases result
      omega
    · rename_i fails
      by_cases same : other = index
      · simpa [same] using fails
      · exact ih (index + 1) result (by omega)

theorem entry_at_iff (procArray : Nat → Option Addr) (pid : Int) (addr : Addr) :
    entryAt procArray pid = some addr ↔
      (0 ≤ pid ∧ pid < pidMax) ∧ procArray pid.toNat = some addr := by
  simp [entryAt]

/-- Nothing is live and the table is empty. -/
def Quiet (state : State Addr) : Prop :=
  (∀ addr process, state.procs addr = some process → process.live = false) ∧
    ∀ pid, state.procArray pid = none

theorem quiet_tabled (state : State Addr) (quiet : Quiet state) : Tabled state := by
  have none_live (addr : Addr) (process : Process) : ¬ Live state addr process := by
    rintro ⟨found, live⟩
    simp [quiet.1 addr process found] at live
  refine ⟨?_, ?_, ?_, ?_⟩
  · intro first second process other live
    exact absurd live (none_live first process)
  · intro addr process live
    exact absurd live (none_live addr process)
  · intro pid addr present
    simp [entryAt, quiet.2] at present
  · intro addr process live
    exact absurd live (none_live addr process)

section

variable [DecidableEq Addr]

/-- The loop over the children changes semaphores only. By induction on the pids. -/
theorem wake_children_same (procArray : Nat → Option Addr)
    (procs after : Addr → Option Process) (pids : List Int)
    (woken : wakeChildren procArray procs pids = some after) (addr : Addr) :
    (∀ process, procs addr = some process →
      ∃ count, after addr = some { process with pParsem := count }) ∧
      (procs addr = none → after addr = none) := by
  induction pids generalizing procs with
  | nil =>
    cases woken
    exact ⟨fun process found => ⟨process.pParsem, found⟩, id⟩
  | cons pid rest ih =>
    simp only [wakeChildren, Option.bind_eq_bind, Option.bind_eq_some_iff] at woken
    obtain ⟨entry, _, child, found, woken⟩ := woken
    have later := ih _ woken
    obtain rfl | same := eq_or_ne addr entry
    · simp only [update_self, Option.some.injEq] at later
      refine ⟨fun process was => ?_, fun absent => by simp [absent] at found⟩
      have same_process : child = process := by simpa [found] using was
      obtain ⟨count, after_is⟩ := later.1 _ rfl
      exact ⟨count, same_process ▸ after_is⟩
    · simpa [same] using later

variable {state : State Addr} {addr : Addr}

/-- What an exit leaves: the entry at its own pid is clear, the process is not
live, and of the other structures only semaphores have changed. -/
theorem sys_exit_cases {after : State Addr} {process : Process}
    (found : state.procs addr = some process) (exits : sysExit state addr process = some after) :
    (0 ≤ process.pId ∧ process.pId < pidMax) ∧
      after.procArray = update state.procArray process.pId.toNat none ∧
      after.locked = state.locked ∧ after.forkedBy = state.forkedBy ∧
      (∃ count, after.procs addr = some { process with pParsem := count, live := false }) ∧
      ∀ other, other ≠ addr → (∀ process, state.procs other = some process →
          ∃ count, after.procs other = some { process with pParsem := count }) ∧
        (state.procs other = none → after.procs other = none) := by
  unfold sysExit at exits
  split at exits
  · rename_i inside
    simp only [Option.bind_eq_bind, Option.bind_eq_some_iff] at exits
    obtain ⟨children, _, procs, woken, last, found_last, exits⟩ := exits
    cases exits
    have same := wake_children_same _ _ _ _ woken
    obtain ⟨count, own⟩ := (same addr).1 process found
    have last_is : last = { process with pParsem := count } := by
      simpa [own] using found_last.symm
    refine ⟨inside, rfl, rfl, rfl, ⟨count, by simp [last_is]⟩, ?_⟩
    intro other differs
    simpa [differs] using same other
  · cases exits

/-- What a fork leaves. Either the table is full, or the first free pid has the
child, which is live when its parent's list had room. -/
theorem sys_fork_cases {child : Addr} {parent : Process} (memory : Process)
    (found : state.procs addr = some parent) (fresh : state.procs child = none) :
    sysFork state addr child parent memory = { state with locked := true } ∨
      ∃ pid created, state.procArray pid = none ∧ 1 ≤ pid ∧ pid < pidMax ∧
        (sysFork state addr child parent memory).procArray =
          update state.procArray pid (some child) ∧
        (sysFork state addr child parent memory).forkedBy =
          update state.forkedBy child (some addr) ∧
        (sysFork state addr child parent memory).procs child = some created ∧
        created.pId = pid ∧
        ∀ other, other ≠ child → (∀ process, state.procs other = some process → ∃ children,
            (sysFork state addr child parent memory).procs other =
              some { process with pChildren := children }) ∧
          (state.procs other = none →
            (sysFork state addr child parent memory).procs other = none) := by
  have apart : addr ≠ child := by
    rintro rfl
    simp [found] at fresh
  unfold sysFork
  split
  · exact Or.inl rfl
  rename_i pid free
  obtain ⟨empty, low, high⟩ := scan_found _ _ _ _ free
  have unentered : state.procArray pid = none := by simpa using empty
  refine Or.inr ?_
  split
  · refine ⟨pid, _, unentered, low, by omega, rfl, rfl, update_self _ _ _, rfl, ?_⟩
    intro other differs
    refine ⟨fun process was => ⟨process.pChildren, ?_⟩, fun absent => ?_⟩
    · simpa [differs] using was
    · simpa [differs] using absent
  · rename_i index room
    refine ⟨pid, _, unentered, low, by omega, rfl, rfl,
      (update_of_ne (Ne.symm apart) _ _).trans (update_self _ _ _), rfl, ?_⟩
    intro other differs
    obtain rfl | own := eq_or_ne other addr
    · refine ⟨fun process was => ⟨update parent.pChildren index pid, ?_⟩,
        fun absent => by simp [found] at absent⟩
      have same : parent = process := by simpa [found] using was
      exact same ▸ update_self _ _ _
    · refine ⟨fun process was => ⟨process.pChildren, ?_⟩, fun absent => ?_⟩
      · simpa [differs, own] using was
      · simpa [differs, own] using absent

/-- No step enters a structure that does not exist, and structures stay. -/
theorem next_allocated (action : Action Addr) (after : State Addr)
    (allocated : Allocated state) (advanced : next state action = some after) :
    Allocated after := by
  cases action with
    simp only [next, Option.bind_eq_bind, Option.bind_eq_some_iff, Option.ite_none_right_eq_some,
      Option.some.injEq] at advanced
  | runprogram addr memory succeeds =>
    obtain ⟨_, rfl⟩ := advanced
    intro pid entry found
    obtain rfl | same := eq_or_ne entry addr
    · exact ⟨_, update_self _ _ _⟩
    · simpa [runprogram, same] using allocated pid entry found
  | sysFork addr child memory =>
    obtain ⟨parent, found, ⟨_, fresh, _⟩, rfl⟩ := advanced
    rcases sys_fork_cases memory found fresh with
      full | ⟨pid, created, _, _, _, entries, _, born, _, others⟩
    · rw [full]
      exact allocated
    intro index entry present
    rw [entries] at present
    by_cases same : entry = child
    · exact ⟨created, same ▸ born⟩
    by_cases here : index = pid
    · have own : child = entry := by simpa [here] using present
      exact absurd own.symm same
    · obtain ⟨process, was⟩ := allocated index entry (by simpa [here] using present)
      obtain ⟨children, now⟩ := (others entry same).1 process was
      exact ⟨_, now⟩
  | sysExit addr =>
    obtain ⟨process, found, _, advanced⟩ := advanced
    obtain ⟨_, entries, _, _, ⟨count, own⟩, others⟩ := sys_exit_cases found advanced
    intro index entry present
    rw [entries] at present
    by_cases here : index = process.pId.toNat
    · simp [here] at present
    · by_cases same : entry = addr
      · exact ⟨_, same ▸ own⟩
      · obtain ⟨other, was⟩ := allocated index entry (by simpa [here] using present)
        obtain ⟨count, now⟩ := (others entry same).1 other was
        exact ⟨_, now⟩

/-- A program that has just been started is not in the table. -/
theorem started_not_tabled (memory : Process) (allocated : Allocated state)
    (fresh : state.procs addr = none) : ¬ Tabled (runprogram state addr memory true) := by
  intro tabled
  have entered := tabled.2.1 addr _ ⟨update_self _ _ _, rfl⟩
  obtain ⟨_, entered⟩ := (entry_at_iff _ _ _).mp entered
  obtain ⟨process, found⟩ := allocated _ addr entered
  simp [fresh] at found

/-- While no program gets into user mode, nothing is ever entered. -/
theorem next_quiet (state : State Addr) (action : Action Addr)
    (after : State Addr) (quiet : Quiet state) (idle : ¬ Starts action)
    (advanced : next state action = some after) : Quiet after := by
  cases action with
    simp only [next, guard_some, Option.bind_eq_bind, Option.bind_eq_some_iff] at advanced
  | runprogram addr memory succeeds =>
    obtain ⟨_, rfl⟩ := advanced
    refine ⟨?_, quiet.2⟩
    intro other process found
    by_cases same : other = addr
    · have failed : succeeds = false := by simpa [Starts] using idle
      subst same
      simp only [runprogram, update_self, Option.some.injEq] at found
      simp [← found, failed]
    · exact quiet.1 other process (by simpa [runprogram, same] using found)
  | sysFork addr child memory | sysExit addr =>
    obtain ⟨process, found, advanced⟩ := advanced
    simp [quiet.1 addr process found] at advanced

end

/-- A run keeps its table right in all the states it visits exactly when it never
gets a program into user mode. -/
theorem tabled_iff_nothing_started [DecidableEq Addr] (boot state : State Addr)
    (actions : List (Action Addr)) (initial : Initial boot)
    (evaluated : exec next boot actions = some state) :
    (∀ before rest visited, actions = before ++ rest → exec next boot before = some visited →
      Tabled visited) ↔ ∀ action, action ∈ actions → ¬ Starts action := by
  constructor
  · intro tabled action member starts
    obtain ⟨before, rest, rfl⟩ := List.append_of_mem member
    cases action with
    | runprogram addr memory succeeds =>
      have succeeded : succeeds = true := starts
      subst succeeded
      rw [exec_append, Option.bind_eq_some_iff] at evaluated
      obtain ⟨middle, reached_middle, evaluated⟩ := evaluated
      have allocated : Allocated middle :=
        (reaches_of_exec Initial before initial reached_middle).invariant
          (fun state fresh pid addr present => by simp [fresh.2.1] at present)
          (fun state action after allocated _ => next_allocated action after allocated)
      simp only [exec, Option.bind_eq_some_iff] at evaluated
      obtain ⟨started, taken, _⟩ := evaluated
      have visited : exec next boot (before ++ [.runprogram addr memory true]) = some started := by
        rw [exec_append, reached_middle]
        simp [exec, taken]
      have right := tabled (before ++ [.runprogram addr memory true]) rest started (by simp) visited
      simp only [next, guard_some] at taken
      obtain ⟨⟨fresh, _⟩, rfl⟩ := taken
      exact started_not_tabled memory allocated fresh right
    | sysFork addr child memory | sysExit addr => exact starts
  · intro idle before rest visited split reached
    have permitted : Permits next (fun _ action => ¬ Starts action) boot before :=
      permits_of_forall before boot (fun action member _ => idle action (by simp [split, member]))
    refine quiet_tabled visited ((reaches_of_permitted (fun _ _ => id)
      (.start boot initial) permitted reached).invariant ?_ next_quiet)
    intro fresh admitted
    exact ⟨fun addr process found => by simp [admitted.1] at found, admitted.2.1⟩

/-- No user process, and clear memory. -/
def booted : State Nat where
  procs := fun _ => none
  procArray := fun _ => none
  locked := false
  forkedBy := fun _ => none

theorem booted_initial : Initial booted :=
  ⟨fun _ => rfl, fun _ => rfl, rfl, fun _ => rfl⟩

/-- Memory that happens to be clear. -/
def clearMemory : Process where
  pId := 0
  pParent := 0
  pChildren := fun _ => 0
  pParsem := 0
  live := false

/-- A program that cannot be loaded leaves an empty table. -/
theorem tabled_when_load_fails : exec next booted [.runprogram 7 clearMemory false] =
        some (runprogram booted 7 clearMemory false) ∧
      ∀ before rest visited, [.runprogram 7 clearMemory false] = before ++ rest →
        exec next booted before = some visited → Tabled visited := by
  refine ⟨rfl, (tabled_iff_nothing_started booted (runprogram booted 7 clearMemory false)
    [.runprogram 7 clearMemory false] booted_initial rfl).mpr ?_⟩
  intro action member starts
  rw [List.mem_singleton.mp member] at starts
  exact Bool.false_ne_true starts

/-- A program starts in clear memory: it is live with pid zero, and the table is
empty. -/
theorem untabled_after_start :
    ∃ state process, exec next booted [.runprogram 7 clearMemory true] = some state ∧
      Reaches next Anything Initial state ∧ Live state 7 process ∧ process.pId = 0 ∧
      state.procArray 0 = none ∧ ¬ Tabled state := by
  refine ⟨_, _, rfl, reaches_of_exec Initial [.runprogram 7 clearMemory true]
    booted_initial rfl, ⟨rfl, rfl⟩, rfl, rfl, ?_⟩
  intro tabled
  have entered := tabled.2.1 7 _ ⟨rfl, rfl⟩
  cases entered

end Os161.Proc.ProcTable
