import Os161.Proc.Formed

/-!
# What a waiting parent is told

A parent calls `waitpid` on a child it forked, the child calls `_exit`, and the steps of
the two, and of all other processes, come in any order. The parent gets through only after
the child has stored its exit code, and the call returns the child's pid. But `syscall`
passes `sys_waitpid` the address of the saved register `a1` where it should pass its value:
the exit code ends up in that register, and the word the parent asked for is not written.
-/
namespace Os161.Proc.ExitWait

open Os161.Library.Runs Function
open Os161.Proc.ProcTable (pidMax entryAt entry_at_iff)

variable {Addr : Type}

/-- The pid and the process that a process in `sys_waitpid` waits for. -/
def Place.waitsFor : Place Addr → Option (Nat × Addr)
  | .waitChecked pid entry | .waitEntry pid entry | .waitSem pid entry _ | .waitWoken pid entry
  | .waitFound pid entry => some (pid, entry)
  | _ => none

/-- A process is in a system call. -/
def InCall (addr : Addr) (state : State Addr) (_action : Action Addr) : Prop :=
  ∃ process, state.procs addr = some process ∧ process.place ≠ .user

/-- The word at an address of a program's memory. -/
def wordAt (memory : BitVec 32 → BitVec 8) (addr : BitVec 32) : BitVec 32 :=
  memory addr ++ memory (addr + 1#32) ++ memory (addr + 2#32) ++ memory (addr + 3#32)

/-- The registers after the call are those before it, but for what every successful call
sets, and the return value is the pid that was asked for; the word at the second argument
is the exit code; and no byte outside that word has changed. -/
structure Delivered (caller returned : Process Addr) (code : BitVec 32) : Prop where
  registers : returned.tf = caller.tf.succeed caller.tf.a0
  status : wordAt returned.memory caller.tf.a1 = code
  memory : ∀ addr, 4 ≤ (addr - caller.tf.a1).toNat → returned.memory addr = caller.memory addr

/-- The end of the call leaves the memory as it was and the exit code in `a1`. -/
theorem delivered_iff {caller process : Process Addr} (code : BitVec 32) {pid : Nat}
    (argument : caller.tf.a0.toInt = pid) (registers : process.tf = caller.tf)
    (memory : process.memory = caller.memory) :
    Delivered caller { process with
        tf := { process.tf with a1 := code }.succeed (BitVec.ofNat 32 pid), place := .user } code ↔
      caller.tf.a1 = code ∧ wordAt caller.memory caller.tf.a1 = code := by
  have word : BitVec.ofNat 32 pid = caller.tf.a0 := by
    apply BitVec.eq_of_toNat_eq
    rw [BitVec.toNat_ofNat]
    rw [BitVec.toInt_eq_toNat_cond] at argument
    split at argument <;> omega
  constructor
  · intro delivered
    have register := congrArg Trapframe.a1 delivered.registers
    have status := delivered.status
    simp only [memory] at status
    exact ⟨register.symm, status⟩
  · rintro ⟨register, status⟩
    refine ⟨?_, ?_, ?_⟩
    · simp [registers, word, ← register, Trapframe.succeed]
    · rw [memory]
      exact status
    · intro addr _
      rw [memory]

section

variable [DecidableEq Addr]

/-- One step of the system, seen by a process in `sys_waitpid`: it waits on for the same
child, with its registers and its memory as they were, or it returns with the exit code. -/
theorem waiting_step {action : Action Addr} {state after : State Addr} (formed : Formed state)
    (step : Step state action after) {addr : Addr} {process : Process Addr} {pid : Nat} {entry : Addr}
    (found : state.procs addr = some process)
    (waits : process.place.waitsFor = some (pid, entry)) :
    (∃ place, after.procs addr = some { process with place := place } ∧
      place.waitsFor = some (pid, entry)) ∨
      ∃ child, state.procs entry = some child ∧ process.place = .waitFound pid entry ∧
        after.procs addr = some { process with
          tf := { process.tf with a1 := child.pExitcode }.succeed (BitVec.ofNat 32 pid)
          place := .user } := by
  have stays (same : after.procs addr = state.procs addr) :
      ∃ place, after.procs addr = some { process with place := place } ∧
        place.waitsFor = some (pid, entry) :=
    ⟨process.place, same.trans found, waits⟩
  have elsewhere (actor : Addr) (before : Process Addr) (known : state.procs actor = some before)
      (other : before.place.waitsFor = none) : addr ≠ actor := by
    rintro rfl
    have equal : process = before := Option.mem_unique found known
    simp [equal, other] at waits
  have pair (actor child : Addr) (before created : Process Addr)
      (known : state.procs actor = some before) (other : before.place.waitsFor = none)
      (born : Newborn state actor child created) (new later : Option (Process Addr)) :
      update (update state.procs child new) actor later addr = state.procs addr := by
    have young : created.place.waitsFor = none := by
      rw [born.2.1]
      rfl
    exact (update_of_ne (elsewhere actor before known other) _ _).trans
      (update_of_ne (elsewhere child created born.1 young) _ _)
  have older (child : Addr) (fresh : state.procs child = none) : addr ≠ child := by
    rintro rfl
    simp [fresh] at found
  cases step with
  | misused misuse => exact Or.inl (stays rfl)
  | @turned _ actor before later lock known turn =>
    obtain rfl | same := eq_or_ne addr actor
    · obtain rfl : process = before := Option.mem_unique found known
      have written : (state.put addr later).procs addr = some later := update_self _ _ _
      cases turn <;> simp_all [Place.waitsFor]
    · exact Or.inl (stays (update_of_ne same _ _))
  | slept known live waits => exact Or.inl (stays rfl)
  | @taken actor before _ place _ _ known live got =>
    obtain rfl | same := eq_or_ne addr actor
    · obtain rfl : process = before := Option.mem_unique found known
      refine Or.inl ⟨place, update_self _ _ _, ?_⟩
      cases got <;> simp_all [Place.waitsFor]
    · exact Or.inl (stays (update_of_ne same _ _))
  | posted known live acts | freed known live acts =>
    refine Or.inl (stays (update_of_ne (elsewhere _ _ known ?_) _ _))
    cases acts <;> simp_all [Place.waitsFor]
  | cleared known was inside | listed known was free =>
    exact Or.inl (stays (update_of_ne (elsewhere _ _ known (by rw [was]; rfl)) _ _))
  | started fresh =>
    exact Or.inl (stays (update_of_ne (older _ fresh) _ _))
  | called known was number fresh =>
    exact Or.inl (stays ((update_of_ne (elsewhere _ _ known (by rw [was]; rfl)) _ _).trans
      (update_of_ne (older _ fresh) _ _)))
  | entered known was born inside free =>
    obtain ⟨_, _, newborn⟩ := was ▸ formed.places _ _ known
    exact Or.inl (stays (pair _ _ _ _ known (by rw [was]; rfl) newborn _ _))
  | allocated known was born | created known was born | ended known was born =>
    obtain ⟨_, _, newborn, _⟩ := was ▸ formed.places _ _ known
    exact Or.inl (stays (pair _ _ _ _ known (by rw [was]; rfl) newborn _ _))

/-- A call of `waitpid` on a pid with an entry goes past the first check. -/
theorem wait_called {state inside : State Addr} {addr child other : Addr}
    {process raw : Process Addr} (found : state.procs addr = some process)
    (number : process.tf.v0 = callWaitpid)
    (entry : entryAt state.procArray process.tf.a0.toInt = some child)
    (called : next state (.trap addr other raw) = some inside) :
    inside = state.goes addr process (.waitChecked process.tf.a0.toInt.toNat child) := by
  obtain ⟨range, present⟩ := (entry_at_iff _ _ _).mp entry
  unfold next at called
  split at called
  · cases called
  · simp only [found, Option.bind_eq_bind, Option.bind_some, Option.ite_none_right_eq_some] at called
    obtain ⟨_, called⟩ := called
    rw [syscall, number] at called
    rw [← Option.some.inj called, waitCheck, if_pos range, present]

/-- During a call of `waitpid` on a child, and when it has returned. -/
structure Waiting (parent child : Addr) (pid : Nat) (caller : Process Addr) (state : State Addr) :
    Prop where
  formed : Formed state
  forked : state.forkedBy child = some parent
  place : ∃ process, state.procs parent = some process ∧
    (process.place = .user ∨ process.place.waitsFor = some (pid, child) ∧
      process.tf = caller.tf ∧ process.memory = caller.memory)

theorem waiting_run {start before : State Addr} {parent child : Addr} {caller : Process Addr}
    {pid : Nat} (waiting : Waiting parent child pid caller start)
    (waited : Reaches next (InCall parent) (fun state => state = start) before) :
    Waiting parent child pid caller before := by
  refine waited.invariant (fun state same => same ▸ waiting) ?_
  rintro state action after ⟨formed, forked, process, found, cases⟩ ⟨same, known, busy⟩ taken
  obtain rfl : process = same := Option.mem_unique found known
  have step := next_cases taken
  refine ⟨step_formed formed step, step_forked_by formed step forked, ?_⟩
  obtain ⟨waits, registers, memory⟩ := cases.resolve_left busy
  rcases waiting_step formed step found waits with
    ⟨place, present, onward⟩ | ⟨_, _, _, present⟩
  · exact ⟨_, present, Or.inr ⟨onward, registers, memory⟩⟩
  · exact ⟨_, present, Or.inl rfl⟩

/-- In whatever order the steps come, a call of `waitpid` on a child of the caller returns
after the child has called `_exit`; it returns the child's pid, puts the code at the address
that was passed, and changes nothing else, exactly when the code was there already and is
itself that address. -/
theorem status_delivered_iff (start inside before after : State Addr) (parent child other : Addr)
    (caller raw returned : Process Addr) (action : Action Addr)
    (reached : Reaches next Anything Initial start) (found : start.procs parent = some caller)
    (number : caller.tf.v0 = callWaitpid)
    (entry : entryAt start.procArray caller.tf.a0.toInt = some child)
    (forked : start.forkedBy child = some parent)
    (called : next start (.trap parent other raw) = some inside)
    (waited : Reaches next (InCall parent) (fun state => state = inside) before)
    (busy : InCall parent before action) (taken : next before action = some after)
    (back : after.procs parent = some returned) (user : returned.place = .user) :
    ∃ exited, before.procs child = some exited ∧ 1 ≤ exited.place.stage ∧ exited.tf.v0 = callExit ∧
      (Delivered caller returned exited.tf.a0 ↔
        caller.tf.a1 = exited.tf.a0 ∧ wordAt caller.memory caller.tf.a1 = exited.tf.a0) := by
  obtain ⟨range, present⟩ := (entry_at_iff _ _ _).mp entry
  have inside_is := wait_called found number entry called
  have formed := reached_formed reached
  have step := next_cases called
  have checked : Waiting parent child caller.tf.a0.toInt.toNat caller inside := by
    refine ⟨step_formed formed step, step_forked_by formed step forked,
      { caller with place := .waitChecked caller.tf.a0.toInt.toNat child }, ?_,
      Or.inr ⟨rfl, rfl, rfl⟩⟩
    rw [inside_is]
    exact update_self _ _ _
  obtain ⟨sound, stillForked, process, waiting, cases⟩ := waiting_run checked waited
  obtain ⟨same, known, notUser⟩ := busy
  obtain rfl : process = same := Option.mem_unique waiting known
  obtain ⟨waits, registers, memory⟩ := cases.resolve_left notUser
  rcases waiting_step sound (next_cases taken) waiting waits with
    ⟨place, still, onward⟩ | ⟨exited, left, was, done⟩
  · obtain rfl := Option.mem_unique still back
    have user : place = .user := user
    rw [user] at onward
    cases onward
  · have relied := sound.places parent process waiting
    rw [was] at relied
    obtain ⟨forker, forkedBefore, posted⟩ := relied
    have own : forker = parent := Option.mem_unique forkedBefore stillForked
    obtain ⟨again, leftAgain, far⟩ := posted own
    obtain rfl : exited = again := Option.mem_unique left leftAgain
    obtain ⟨exits, code⟩ := sound.codes child exited left (by omega)
    obtain rfl := Option.mem_unique done back
    refine ⟨exited, left, by omega, exits, ?_⟩
    rw [code]
    exact delivered_iff exited.tf.a0 (Int.toNat_of_nonneg range.1).symm registers memory

end

/-- No process yet. -/
def booted : State Nat where
  procs := fun _ => none
  procArray := fun _ => none
  sems := fun _ => .absent
  lock := none
  asleep := fun _ => false
  forkedBy := fun _ => none
  misuse := none

theorem booted_initial : Initial booted :=
  ⟨fun _ => rfl, fun _ => rfl, fun _ => rfl, rfl, fun _ => rfl, rfl⟩

/-- The registers of a program that makes a call with two arguments. -/
def registers (number a0 a1 : BitVec 32) : Trapframe where
  v0 := number
  a0 := a0
  a1 := a1
  a2 := 0#32
  a3 := 0#32
  epc := 0x400000#32
  others := fun _ => 0#32

/-- Clear memory, about to fork. -/
def blank : Process Nat where
  pId := 0
  pExitcode := 0#32
  pChildren := fun _ => 0
  pParsem := none
  pChildsem := none
  tf := registers callFork 0#32 0#32
  memory := fun _ => 0#8
  offspring := []
  place := .unborn

/-- A process forks: the call, the steps in the kernel when so many entries are taken, and
the start of the child. -/
def forkActions (addr child taken : Nat) : List (Action Nat) :=
  .trap addr child blank :: List.replicate (taken + 6) (.run addr) ++ [.threadFork addr true]

/-- A first program has forked a child and waited for it with this address, and the child has
exited with this code. -/
structure WaitedOnce (status code : BitVec 32) (start inside before after : State Nat)
    (caller returned exited : Process Nat) : Prop where
  reached : Reaches next Anything Initial start
  found : start.procs 1 = some caller
  number : caller.tf.v0 = callWaitpid
  entry : entryAt start.procArray caller.tf.a0.toInt = some 2
  forked : start.forkedBy 2 = some 1
  called : next start (.trap 1 0 blank) = some inside
  waited : Reaches next (InCall 1) (fun state => state = inside) before
  busy : InCall 1 before (.run 1)
  taken : next before (.run 1) = some after
  back : after.procs 1 = some returned
  user : returned.place = .user
  child : before.procs 2 = some exited
  address : caller.tf.a1 = status
  code : exited.tf.a0 = code

/-- The parent goes to sleep, the child exits, and the parent goes on. -/
def childExits (code : BitVec 32) : List (Action Nat) :=
  [.run 1, .run 1, .run 1, .user 2 (registers callExit code 0#32) (fun _ => 0#8), .trap 2 0 blank,
    .run 2, .run 1, .run 1]

/-- The parent has this memory, and it is asleep when the child exits. -/
theorem waited_once (status code word : BitVec 32) (memory : BitVec 32 → BitVec 8)
    (ran : ∃ start ∈ exec next booted (.runprogram 1 blank :: forkActions 1 2 0 ++
        [.user 1 (registers callWaitpid 1#32 status) memory]),
      ∃ inside ∈ next start (.trap 1 0 blank),
      Permits next (fun state _ => (state.procs 1).any (·.place ≠ .user)) inside
        (childExits code) ∧
      ∃ before ∈ exec next inside (childExits code),
      ∃ after ∈ next before (.run 1), ∃ caller ∈ start.procs 1, ∃ returned ∈ after.procs 1,
      ∃ exited ∈ before.procs 2, ∃ process ∈ before.procs 1, caller.tf.v0 = callWaitpid ∧
        entryAt start.procArray caller.tf.a0.toInt = some 2 ∧ start.forkedBy 2 = some 1 ∧
        returned.place = .user ∧ process.place ≠ .user ∧ caller.tf.a1 = status ∧
        exited.tf.a0 = code ∧ returned.tf.a3 = 0#32 ∧ wordAt caller.memory status = word ∧
        wordAt returned.memory status = word) :
    ∃ start inside before after caller returned exited,
      WaitedOnce status code start inside before after caller returned exited ∧
        returned.tf.a3 = 0#32 ∧ wordAt caller.memory status = word ∧
        wordAt returned.memory status = word := by
  obtain ⟨start, booting, inside, called, inCall, before, waited, after, taken, caller, found,
    returned, back, exited, child, process, waiting, number, entry, forked, user, notUser, address, code_is,
    words⟩ := ran
  refine ⟨start, inside, before, after, caller, returned, exited, ⟨?_, found, number, entry, forked,
    called, ?_, ⟨process, waiting, notUser⟩, taken, back, user, child, address, code_is⟩, words⟩
  · exact reaches_of_exec Initial _ booted_initial booting
  · refine reaches_of_permitted ?_ (.start _ rfl) inCall waited
    intro state _ passed
    simpa [InCall, Option.any_eq_true] using passed

set_option synthInstance.maxSize 1000

/-- The memory of a program that keeps the number `0x400000` at that address. -/
def selfAddressed (addr : BitVec 32) : BitVec 8 :=
  if addr = 0x400001#32 then 0x40#8 else 0#8

/-- The status word holds the exit code, and is at the address that is the exit code. -/
theorem status_delivered_when_there :
    ∃ start inside before after caller returned exited,
      WaitedOnce 0x400000#32 0x400000#32 start inside before after caller returned exited ∧
        Delivered caller returned exited.tf.a0 := by
  obtain ⟨start, inside, before, after, caller, returned, exited, run, _, word, _⟩ :=
    waited_once 0x400000#32 0x400000#32 0x400000#32 selfAddressed (by decide +kernel)
  refine ⟨start, inside, before, after, caller, returned, exited, run, ?_⟩
  obtain ⟨again, same, _, _, delivered⟩ := status_delivered_iff start inside before after 1 2 0 caller
    blank returned (.run 1) run.reached run.found run.number run.entry run.forked run.called
    run.waited run.busy run.taken run.back run.user
  obtain rfl : exited = again := Option.mem_unique run.child same
  refine delivered.mpr ⟨run.address.trans run.code.symm, ?_⟩
  rw [run.address, run.code]
  exact word

/-- A child exits with seven, its parent asks for the status in a clear word of its stack: the
call succeeds and the word is still clear. -/
theorem status_not_delivered :
    ∃ start inside before after caller returned exited,
      WaitedOnce 0x7ffffff0#32 7#32 start inside before after caller returned exited ∧
        returned.tf.a3 = 0#32 ∧ wordAt returned.memory 0x7ffffff0#32 = 0#32 ∧
        ¬ Delivered caller returned exited.tf.a0 := by
  obtain ⟨start, inside, before, after, caller, returned, exited, run, success, _, word⟩ :=
    waited_once 0x7ffffff0#32 7#32 0#32 (fun _ => 0#8) (by decide +kernel)
  refine ⟨start, inside, before, after, caller, returned, exited, run, success, word, ?_⟩
  intro delivered
  have status := delivered.status
  rw [run.address, word, run.code] at status
  cases status

end Os161.Proc.ExitWait
