import Os161.Vm.Calls

/-!
# Frames and the address spaces that own them

A coremap entry names the address space of the process that took the frame, for a
page or for the kernel, by the address of its structure. Nobody goes through the
coremap when the structure is freed: `as_destroy` is a call of `kfree`, so the
entries stay behind. `sys_execv` and `sys__exit` also leave the pointer in the
process, and `sys_execv` goes on allocating in its name.

This module follows the owners over interleaved runs in which processes start,
fork, load and execute programs, fault, allocate and exit.
-/
namespace Os161.Vm.Owners

open Os161.Library Os161.Library.Program Os161.Library.Runs

variable {Value : Type}

/-! ## Processes -/

/-- Where a process is: it has no program yet, `sys_execv` has destroyed its address
space and opens the new program, `load_elf` has not set its frames aside yet, it is
running, or it has exited. -/
inductive Phase
  | fresh
  | opening
  | loading
  | running
  | exited
  deriving DecidableEq

/-- The machine, the phase and the `p_addrspace` of each process, and the address
spaces that exist. The last field records which frames an address space has
obtained since it was created. -/
structure State (Pid : Type) where
  machine : Machine
  phase : Pid → Phase
  addrspace : Pid → Option AsPtr
  live : AsPtr → Bool
  obtained : AsPtr → Nat → Bool

/-- What processes do. `sys_execv` is three events with a fourth for a program that
cannot be opened; an unsuccessful `as_copy` leaves the child with whatever the
variable held. -/
inductive Event (Pid : Type)
  | runprogram (pid : Pid)
  | load (pid : Pid) (vaddr1 sz1 vaddr2 sz2 : BitVec 32)
  | fault (pid : Pid) (faulttype : FaultType) (address : BitVec 32) (slot : Nat)
  | alloc (pid : Pid) (npages : Nat)
  | free (addr : BitVec 32)
  | fork (parent child : Pid) (junk : Option AsPtr)
  | execv (pid : Pid)
  | execvFails (pid : Pid)
  | execvCreate (pid : Pid)
  | sysExit (pid : Pid)

/-- The value of a program, if it returned, and the machine it has left. -/
def ended : Outcome Halt Errno Machine Value → Option (Option Value × Machine)
  | .stop _ => none
  | .fail _ after => some (none, after)
  | .done value after => some (some value, after)

/-- `as_destroy`. A structure of thirteen pages goes back to `free_kpages`. -/
def asDestroy (as : AsPtr) : VmProgram PUnit :=
  onCoremap (freeKpages as)

/-- The frames address spaces have obtained, after the coremap has changed. -/
def gains (obtained : AsPtr → Nat → Bool) (before after : Coremap) (as : AsPtr) (k : Nat) : Bool :=
  obtained as k ||
    (decide ((after.entries k).as = some as) && decide ((before.entries k).as ≠ some as))

variable {Pid : Type}

section

variable (state : State Pid)

/-- A call has left the machine in another state. -/
def State.moved (after : Machine) : State Pid :=
  { state with
    machine := after
    obtained := gains state.obtained state.machine.coremap after.coremap }

/-- An address space is new. It has obtained nothing, unless it existed before. -/
def State.born (new : AsPtr) : State Pid :=
  { state with
    live := Function.update state.live new true
    obtained := if state.live new then state.obtained
      else Function.update state.obtained new (fun _ => false) }

/-- What `as_create` or `as_copy` has returned is an address space. -/
def State.bornFrom : Option AsPtr → State Pid
  | none => state
  | some new => state.born new

/-- Entries name address spaces that exist, and frames these have obtained since they
were created. -/
structure Owned (state : State Pid) : Prop where
  live : ∀ k as, k < state.machine.coremap.size → (state.machine.coremap.entries k).as = some as →
    state.live as = true
  obtained : ∀ k as, k < state.machine.coremap.size →
    (state.machine.coremap.entries k).as = some as → state.obtained as k = true

/-- The address space a process has, if any, exists. -/
def Exists (pid : Pid) : Prop :=
  ∀ as, state.addrspace pid = some as → state.live as = true

/-- The address space a process has, if any, owns no frame. -/
def Unowned (pid : Pid) : Prop :=
  ∀ as k, state.addrspace pid = some as → k < state.machine.coremap.size →
    (state.machine.coremap.entries k).as ≠ some as

/-- Address spaces are destroyed without frames, and processes create address spaces,
fault and allocate only with an address space that exists. -/
def Careful : Event Pid → Prop
  | .runprogram pid | .load pid _ _ _ _ | .fault pid _ _ _ | .alloc pid _ => Exists state pid
  | .fork parent _ _ => Exists state parent
  | .execvCreate pid => Exists state pid
  | .execv pid | .sysExit pid => Unowned state pid
  | .free _ | .execvFails _ => True

/-- Nothing is in use and there are no programs. -/
def Initial : Prop :=
  Fresh state.machine.coremap ∧ (∀ pid, state.phase pid = .fresh) ∧
    (∀ pid, state.addrspace pid = none) ∧ (∀ as, state.live as = false) ∧
    ∀ as k, state.obtained as k = false

theorem takes_of_ended {cur : Option AsPtr} {program : VmProgram Value}
    (agrees : ∀ start, Agrees (Beside cur start) program) {machine after : Machine}
    {value : Option Value} (ran : ended (program machine) = some (value, after)) :
    Takes cur machine.coremap after.coremap := by
  have same := agrees machine.coremap machine machine ⟨⟨rfl, rfl, rfl⟩, refl _⟩
  generalize program machine = result at same ran
  cases same with
  | stop reason => cases ran
  | fail error beside | done returned beside =>
    cases ran
    exact beside.takes

/-- A call that takes frames for an address space that exists. -/
theorem Owned.moved {state : State Pid} (owned : Owned state) {after : Machine}
    {cur : Option AsPtr} (claims : Takes cur state.machine.coremap after.coremap)
    (alive : ∀ as, cur = some as → state.live as = true) : Owned (state.moved after) where
  live := by
    intro k as inside owner
    have before : k < state.machine.coremap.size := claims.size ▸ inside
    rcases claims.owner k with kept | taken | freed
    · exact owned.live k as before (kept.symm.trans owner)
    · exact alive as (taken.symm.trans owner)
    · cases freed.symm.trans owner
  obtained := by
    intro k as inside owner
    have before : k < state.machine.coremap.size := claims.size ▸ inside
    show gains state.obtained state.machine.coremap after.coremap as k = true
    by_cases had : (state.machine.coremap.entries k).as = some as
    · simp [gains, owned.obtained k as before had, Bool.true_or]
    · have owns : (after.coremap.entries k).as = some as := owner
      simp [gains, owns, had]

/-- A new address space owns nothing, if there was none at its address. -/
theorem Owned.born {state : State Pid} (owned : Owned state) (new : AsPtr) :
    Owned (state.born new) where
  live := by
    intro k as inside owner
    show Function.update state.live new true as = true
    by_cases same : as = new
    · rw [same, Function.update_self]
    · rw [Function.update_of_ne same]
      exact owned.live k as inside owner
  obtained := by
    intro k as inside owner
    have had := owned.obtained k as inside owner
    show (if state.live new then state.obtained
      else Function.update state.obtained new (fun _ => false)) as k = true
    by_cases existed : state.live new = true
    · rw [if_pos existed]
      exact had
    · have other : as ≠ new := by
        rintro rfl
        exact existed (owned.live k as inside owner)
      rw [if_neg existed, Function.update_of_ne other]
      exact had

theorem Owned.born_from {state : State Pid} (owned : Owned state) (made : Option AsPtr) :
    Owned (state.bornFrom made) := by
  cases made with
  | none => exact owned
  | some new => exact owned.born new

/-- `as_destroy(p_addrspace)`, which leaves the pointer. -/
def destroy (pid : Pid) : Option (State Pid) :=
  match state.addrspace pid with
  | none => some state
  | some as => do
    let (_, after) ← ended (asDestroy as state.machine)
    some { state.moved after with live := Function.update state.live as false }

/-- A process that owns no frame destroys its address space, which no entry names then. -/
theorem destroy_owned {state after : State Pid} {pid : Pid} (owned : Owned state)
    (unowned : Unowned state pid) (taken : destroy state pid = some after) : Owned after := by
  unfold destroy at taken
  cases has : state.addrspace pid with
  | none =>
    simp only [has, Option.some.injEq] at taken
    exact taken ▸ owned
  | some as =>
    simp only [has, bind, Option.bind_eq_some_iff, Prod.exists, Option.some.injEq] at taken
    obtain ⟨_, machine, ran, rfl⟩ := taken
    have claims : Takes none state.machine.coremap machine.coremap :=
      takes_of_ended (fun _ => on_coremap_agrees (free_kpages_moves as)) ran
    have moved := owned.moved claims (by simp)
    refine ⟨?_, moved.obtained⟩
    intro k other inside owner
    have before : k < state.machine.coremap.size := claims.size ▸ inside
    have different : other ≠ as := by
      rintro rfl
      rcases claims.owner k with kept | freed
      · exact unowned other k has before (kept.symm.trans owner)
      · cases (or_self_iff.mp freed).symm.trans owner
    show Function.update state.live as false other = true
    rw [Function.update_of_ne different]
    exact moved.live k other inside owner

theorem initial_owned (initial : Initial state) : Owned state := by
  have unowned (k : Nat) (as : AsPtr) (inside : k < state.machine.coremap.size) :
      (state.machine.coremap.entries k).as ≠ some as := by
    rw [(initial.1 k inside).2.1]
    simp
  exact ⟨fun k as inside owner => absurd owner (unowned k as inside),
    fun k as inside owner => absurd owner (unowned k as inside)⟩

end

variable [DecidableEq Pid]

/-- A process gets an address space and goes on. -/
def State.enter (state : State Pid) (pid : Pid) (as : Option AsPtr) (phase : Phase) : State Pid :=
  { state with
    addrspace := Function.update state.addrspace pid as
    phase := Function.update state.phase pid phase }

/-- A process goes on with the address space it has. -/
def State.proceed (state : State Pid) (pid : Pid) (phase : Phase) : State Pid :=
  { state with phase := Function.update state.phase pid phase }

/-- `p_addrspace = as_create()`. -/
def create (state : State Pid) (pid : Pid) : Option (State Pid) := do
  let (made, after) ← ended (asCreate (state.addrspace pid) state.machine)
  some (((state.moved after).bornFrom made).enter pid made .loading)

/-- The transition function. A call that stops the kernel ends the run. -/
def next (state : State Pid) : Event Pid → Option (State Pid)
  | .runprogram pid =>
    if state.phase pid = .fresh ∧ state.addrspace pid = none then create state pid else none
  | .load pid vaddr1 sz1 vaddr2 sz2 => do
    let as ← state.addrspace pid
    if state.phase pid = .loading then
      let (_, after) ← ended (loadRegions as vaddr1 sz1 vaddr2 sz2 state.machine)
      some ((state.moved after).proceed pid .running)
    else none
  | .fault pid faulttype address slot =>
    if state.phase pid = .loading ∨ state.phase pid = .running then do
      let (_, after) ← ended (vmFault faulttype address (some (state.addrspace pid)) slot state.machine)
      some (state.moved after)
    else none
  | .alloc pid npages =>
    if state.phase pid ≠ .exited then do
      let (_, after) ← ended (onCoremap (allocKpages (state.addrspace pid) npages) state.machine)
      some (state.moved after)
    else none
  | .free addr => do
    let (_, after) ← ended (onCoremap (freeKpages addr) state.machine)
    some (state.moved after)
  | .fork parent child junk => do
    let old ← state.addrspace parent
    if state.phase parent = .running ∧ state.phase child = .fresh then
      let (made, after) ← ended (asCopy old state.machine)
      some (((state.moved after).bornFrom made).enter child (made <|> junk) .running)
    else none
  | .execv pid =>
    if state.phase pid = .running then
      (destroy state pid).map (fun after => after.proceed pid .opening)
    else none
  | .execvFails pid =>
    if state.phase pid = .opening then some (state.proceed pid .running) else none
  | .execvCreate pid =>
    if state.phase pid = .opening then create state pid else none
  | .sysExit pid =>
    if state.phase pid = .running then
      (destroy state pid).map (fun after => after.proceed pid .exited)
    else none

/-- An address space is created by a process that has none, or one that exists. -/
theorem create_owned {state after : State Pid} {pid : Pid} (owned : Owned state)
    (alive : Exists state pid) (taken : create state pid = some after) : Owned after := by
  simp only [create, bind, Option.bind_eq_some_iff, Prod.exists, Option.some.injEq] at taken
  obtain ⟨made, machine, ran, rfl⟩ := taken
  have moved := owned.moved (takes_of_ended (fun _ => as_create_agrees) ran) alive
  have born := moved.born_from made
  exact ⟨born.live, born.obtained⟩

/-- Every careful event leaves entries that name existing spaces. One case per event. -/
theorem next_owned (state : State Pid) (event : Event Pid) (after : State Pid)
    (owned : Owned state) (careful : Careful state event) (taken : next state event = some after) :
    Owned after := by
  cases event with
    simp only [next, Option.ite_none_right_eq_some, bind, Option.bind_eq_some_iff, Prod.exists,
      Option.some.injEq, Option.map_eq_some_iff] at taken
  | runprogram pid | execvCreate pid =>
    exact create_owned owned careful taken.2
  | load pid vaddr1 sz1 vaddr2 sz2 =>
    obtain ⟨as, has, _, _, machine, ran, rfl⟩ := taken
    have moved := owned.moved (takes_of_ended (fun _ => load_regions_agrees as _ _ _ _) ran)
      (fun other same => careful other (has.trans same))
    exact ⟨moved.live, moved.obtained⟩
  | fault pid faulttype address slot =>
    obtain ⟨_, _, machine, ran, rfl⟩ := taken
    exact owned.moved (takes_of_ended (fun _ => vm_fault_agrees faulttype address _ slot) ran) careful
  | alloc pid npages =>
    obtain ⟨_, _, machine, ran, rfl⟩ := taken
    exact owned.moved (takes_of_ended (fun _ => on_coremap_agrees (alloc_kpages_moves npages)) ran) careful
  | free addr =>
    obtain ⟨_, machine, ran, rfl⟩ := taken
    have claims : Takes none state.machine.coremap machine.coremap :=
      takes_of_ended (fun _ => on_coremap_agrees (free_kpages_moves addr)) ran
    exact owned.moved claims (by simp)
  | fork parent child junk =>
    obtain ⟨old, has, _, made, machine, ran, rfl⟩ := taken
    have moved := owned.moved (takes_of_ended (fun _ => as_copy_agrees old) ran)
      (fun other same => careful other (has.trans same))
    have born := moved.born_from made
    exact ⟨born.live, born.obtained⟩
  | execv pid | sysExit pid =>
    obtain ⟨_, middle, destroyed, rfl⟩ := taken
    have left := destroy_owned owned careful destroyed
    exact ⟨left.live, left.obtained⟩
  | execvFails pid =>
    obtain ⟨_, rfl⟩ := taken
    exact ⟨owned.live, owned.obtained⟩

/-- In every run in which address spaces are destroyed without frames and nobody acts
with an address space that does not exist, every entry of every state names an
address space that exists and has obtained the frame since it was created. -/
theorem owners_exist_in_careful_runs (state : State Pid)
    (reached : Reaches next Careful Initial state) : Owned state :=
  reached.invariant initial_owned next_owned

/-- Eighty frames, nothing in use, and no programs. -/
def bootedState : State Nat where
  machine := (booted eightyFrames).machine
  phase := fun _ => .fresh
  addrspace := fun _ => none
  live := fun _ => false
  obtained := fun _ _ => false

theorem booted_state_initial : Initial bootedState :=
  ⟨(booted_initial free_frames_fresh).1, fun _ => rfl, fun _ => rfl, fun _ => rfl, fun _ _ => rfl⟩

/-- A program starts and touches its first page. -/
def startAndFault : List (Event Nat) :=
  [.runprogram 0, .load 0 0x400000#32 1#32 0x10000000#32 1#32, .fault 0 .read 0x400000#32 0]

instance (state : State Nat) (pid : Nat) : Decidable (Exists state pid) :=
  decidable_of_iff ((state.addrspace pid).all state.live = true) (Option.all_eq_true _ _)

instance (state : State Nat) (pid : Nat) : Decidable (Unowned state pid) :=
  decidable_of_iff ((state.addrspace pid).all fun as => (List.range state.machine.coremap.size).all
      fun k => decide ((state.machine.coremap.entries k).as ≠ some as)) (by
    simp only [Unowned, Option.all_eq_true, List.all_eq_true, List.mem_range, decide_eq_true_eq]
    exact ⟨fun unowned as k has => unowned as has k, fun unowned as has k => unowned as k has⟩)

instance (state : State Nat) (event : Event Nat) : Decidable (Careful state event) := by
  cases event <;> unfold Careful <;> infer_instance

/-- A program forks, and its child exits before it has a page: the frames that were taken for
the child are in the name of the parent, which still exists. -/
theorem owners_exist_after_exit :
    ∃ state : State Nat, Reaches next Careful Initial state ∧ state.phase 1 = .exited ∧
      state.addrspace 1 = some 0x80023000#32 ∧ state.live 0x80023000#32 = false ∧
      (state.machine.coremap.entries 34).as = some 0x80001000#32 ∧ Owned state := by
  obtain ⟨state, evaluated, exited, child, destroyed, owner⟩ : ∃ state ∈ exec next
      bootedState (startAndFault ++ [.fork 0 1 none, .sysExit 1]), state.phase 1 = .exited ∧
      state.addrspace 1 = some 0x80023000#32 ∧ state.live 0x80023000#32 = false ∧
      (state.machine.coremap.entries 34).as = some 0x80001000#32 := by
    decide +kernel
  have reached : Reaches next Careful Initial state :=
    reaches_of_permitted (fun _ _ => id) (.start bootedState booted_state_initial)
      (by decide +kernel) evaluated
  exact ⟨state, reached, exited, child, destroyed, owner, owners_exist_in_careful_runs state reached⟩

/-- What is left of a program that has exited: its address space does not exist, and
entries name it. -/
def Orphaned (state : State Nat) : Prop :=
  33 < state.machine.coremap.size ∧ (state.machine.coremap.entries 33).as = some 0x80001000#32 ∧
    state.live 0x80001000#32 = false

instance (state : State Nat) : Decidable (Orphaned state) :=
  inferInstanceAs (Decidable (_ ∧ _))

/-- A program that starts, touches a page and exits leaves the frame behind with a
destroyed owner. -/
theorem frame_outlives_owner :
    ∃ state : State Nat, Reaches next Anything Initial state ∧ Orphaned state ∧ ¬ Owned state := by
  obtain ⟨state, evaluated, left⟩ : ∃ state ∈ exec next bootedState (startAndFault ++ [.sysExit 0]),
      Orphaned state := by
    decide +kernel
  refine ⟨state, reaches_of_exec Initial _ booted_state_initial evaluated,
    left, ?_⟩
  intro owned
  have live := owned.live 33 0x80001000#32 left.1 left.2.1
  rw [left.2.2] at live
  cases live

end Os161.Vm.Owners
