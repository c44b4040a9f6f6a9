import Mathlib.Data.List.Basic

/-!
# Threads, run queues and wait channels on several CPUs

`thread_make_runnable`, the end of `thread_fork`, `thread_switch`, `exorcise`, `thread_exit`,
`thread_consider_migration` and the wait channels, as steps of any number of CPUs. A step is
one access to something another CPU can see: a thread list, a `t_state`, a `t_cpu`, a
`c_curthread` or a spinlock. What a CPU does to its own counters and private lists goes
with the access next to it. Where a CPU is in the code is its program counter, and a CPU
that spins on a lock has no step until the lock is free.

The local variables `next`, `target`, `t` and `z`, through which a thread goes from one list
to another, are spots of their own next to the lists, so that it can be said where a thread
is between two lists.

A thread that exists is known by its number: the memory of a destroyed thread can be used
for a new one, which then has another number. `ipi_send` is left out, since an idle CPU may
wake up at any time; so are `t_wchan_name`, the stacks, the address spaces and the processes,
and two assertions of `wchan_sleep`, that the CPU is not in an interrupt handler and holds no
other spinlock, so that there are more runs here than in the kernel.
-/
namespace Os161.Thread.System

open Function (update)

/-- `threadstate_t`. -/
inductive ThreadState
  | run
  | ready
  | sleep
  | zombie
  deriving DecidableEq

/-- How far a thread has come. Only bookkeeping, apart from numbers not being used twice. -/
inductive Life
  | unborn
  | created
  | started
  | exited
  deriving DecidableEq

/-- The local variables a thread goes through: `next` in `thread_switch`, `target` in
`thread_make_runnable`, `t` in `thread_consider_migration` and `z` in `exorcise`. -/
inductive Variable
  | next
  | target
  | t
  | z
  deriving DecidableEq

/-- The thread lists `wc_threads`, `c_runqueue` and `c_zombies`, the private lists `list` of
`wchan_wakeall` and `victims` of `thread_consider_migration`, and the local variables. -/
inductive Spot (Cpu Chan : Type)
  | wchan (wc : Chan)
  | runqueue (cpu : Cpu)
  | zombies (cpu : Cpu)
  | list (cpu : Cpu)
  | victims (cpu : Cpu)
  | hand (which : Variable) (cpu : Cpu)
  deriving DecidableEq

/-- The first argument of `thread_switch`, with the wait channel for `S_SLEEP`. -/
inductive NewState (Chan : Type)
  | ready
  | sleep (wc : Chan)
  | zombie
  deriving DecidableEq

/-- The state a thread is given when it has been put away. -/
def NewState.threadState {Chan : Type} : NewState Chan → ThreadState
  | .ready => .ready
  | .sleep _ => .sleep
  | .zombie => .zombie

/-- Where a CPU is. `free` is outside of all this code; if the CPU is idle, it is in
`cpu_idle`. -/
inductive Pc (Cpu Chan : Type)
  | free
  -- `thread_switch`, with the run queue of the CPU locked until `resumed`
  | entered (newstate : NewState Chan)
  | readied
  | listed (wc : Chan)
  | leaving (newstate : NewState Chan)
  | looking
  | picked
  | switched
  | resumed
  | exorcising
  | destroying
  -- `wchan_wakeall`, and `thread_make_runnable` for it, `wchan_wakeone` and `thread_fork`
  | gathering (wc : Chan)
  | dispatching
  | making
  | waiting (targetcpu : Cpu)
  | locked (targetcpu : Cpu)
  | marked (targetcpu : Cpu)
  | queued (targetcpu : Cpu)
  -- `thread_consider_migration`
  | counting (todo : List Cpu) (totalCount myCount : Nat)
  | collecting (left oneShare toSend : Nat)
  | sending (todo : List Cpu) (oneShare toSend : Nat)
  | filling (targetcpu : Cpu) (todo : List Cpu) (oneShare toSend : Nat)
  | handing (targetcpu : Cpu) (todo : List Cpu) (oneShare toSend : Nat)
  | assigned (targetcpu : Cpu) (todo : List Cpu) (oneShare toSend : Nat)
  | returning
  deriving DecidableEq

/-- The lists and local variables, `c_curthread`, `c_isidle` and the holder of
`c_runqueue_lock` of each CPU, the holders of the spinlocks of the wait channels, `t_state`
and `t_cpu` of each thread, and where each CPU is. How far a thread has come and how often
it has been destroyed are bookkeeping. -/
structure State (Cpu Chan Spin Thread : Type) where
  nodes : Spot Cpu Chan → List Thread
  curthread : Cpu → Thread
  isidle : Cpu → Bool
  runqueueLock : Cpu → Option Cpu
  spinlock : Spin → Option Cpu
  tState : Thread → ThreadState
  tCpu : Thread → Cpu
  pc : Cpu → Pc Cpu Chan
  life : Thread → Life
  destroyed : Thread → Nat

/-- What a CPU that is outside can begin. Interrupts can be taken by an idle CPU as well. -/
inductive Call (Chan Spin Thread : Type)
  | create (thread : Thread)
  | start (thread : Thread)
  | acquire (lk : Spin)
  | release (lk : Spin)
  | threadYield
  | wchanSleep (wc : Chan)
  | threadExit
  | wchanWakeone (wc : Chan)
  | wchanWakeall (wc : Chan)
  | considerMigration

/-- A CPU begins something, or goes on. -/
inductive Action (Cpu Chan Spin Thread : Type)
  | call (cpu : Cpu) (call : Call Chan Spin Thread)
  | go (cpu : Cpu)

/-- Every CPU runs a thread of its own, and nothing has happened. -/
structure Booted {Cpu Chan Spin Thread : Type} (state : State Cpu Chan Spin Thread) : Prop where
  nodes : ∀ spot, state.nodes spot = []
  own : ∀ cpu, state.tCpu (state.curthread cpu) = cpu
  awake : ∀ cpu, state.isidle cpu = false
  unlocked : ∀ cpu, state.runqueueLock cpu = none
  outside : ∀ cpu, state.pc cpu = .free
  started : ∀ cpu, state.life (state.curthread cpu) = .started
  others : ∀ thread, (∀ cpu, state.curthread cpu ≠ thread) → state.life thread = .unborn
  undestroyed : ∀ thread, state.destroyed thread = 0

section Steps

variable {Cpu Chan Spin Thread : Type} [DecidableEq Cpu] [DecidableEq Chan] [DecidableEq Thread]

section

variable (state : State Cpu Chan Spin Thread)

/-- Change a `t_state`. -/
def State.setState (thread : Thread) (newstate : ThreadState) : State Cpu Chan Spin Thread :=
  { state with tState := update state.tState thread newstate }

/-- Go on somewhere else. -/
def State.goto (cpu : Cpu) (pc : Pc Cpu Chan) : State Cpu Chan Spin Thread :=
  { state with pc := update state.pc cpu pc }

/-- `spinlock_acquire` of a `c_runqueue_lock`. -/
def State.lock (cpu queue : Cpu) (pc : Pc Cpu Chan) : Option (State Cpu Chan Spin Thread) :=
  if state.runqueueLock queue = none then
    some { state.goto cpu pc with
      runqueueLock := update state.runqueueLock queue (some cpu) }
  else none

/-- `spinlock_release` of a `c_runqueue_lock`. -/
def State.unlock (cpu queue : Cpu) (pc : Pc Cpu Chan) : State Cpu Chan Spin Thread :=
  { state.goto cpu pc with runqueueLock := update state.runqueueLock queue none }

/-- `threadlist_addtail` of a thread that is on no list. -/
def State.join (spot : Spot Cpu Chan) (thread : Thread) : State Cpu Chan Spin Thread :=
  { state with nodes := update state.nodes spot (state.nodes spot ++ [thread]) }

/-- A thread is removed from one list or variable, which leaves `rest`, and added to
another, which gives `arrived`. -/
def State.transfer (source dest : Spot Cpu Chan) (rest arrived : List Thread) :
    State Cpu Chan Spin Thread :=
  { state with
    nodes := update (update state.nodes source rest) dest arrived }

/-- `threadlist_remhead` of one list and `threadlist_addtail` to another. -/
def State.shift (source dest : Spot Cpu Chan) (thread : Thread) (rest : List Thread) :
    State Cpu Chan Spin Thread :=
  state.transfer source dest rest (state.nodes dest ++ [thread])

end

/-- The steps of `thread_switch`, and of `exorcise` at its end. -/
def State.goSwitch [DecidableEq Spin] (guard : Chan → Spin) (state : State Cpu Chan Spin Thread)
    (cpu : Cpu) : Option (State Cpu Chan Spin Thread) :=
  match state.pc cpu with
  | .free =>
    -- `cpu_idle` has returned
    if state.isidle cpu then state.lock cpu cpu .looking else none
  | .entered .ready =>
    if state.nodes (.runqueue cpu) = [] then some (state.unlock cpu cpu .free)
    else some ((state.setState (state.curthread cpu) .ready).goto cpu .readied)
  | .entered (.sleep wc) =>
    some ((state.join (.wchan wc) (state.curthread cpu)).goto cpu (.listed wc))
  | .entered .zombie =>
    some ({ state.join (.zombies cpu) (state.curthread cpu) with
      life := update state.life (state.curthread cpu) .exited }.goto cpu (.leaving .zombie))
  | .readied =>
    some ((state.join (.runqueue cpu) (state.curthread cpu)).goto cpu (.leaving .ready))
  | .listed wc =>
    some ({ state with spinlock := update state.spinlock (guard wc) none }.goto cpu
      (.leaving (.sleep wc)))
  | .leaving newstate =>
    some ({ state.setState (state.curthread cpu) newstate.threadState with
      isidle := update state.isidle cpu true }.goto cpu .looking)
  | .looking =>
    match state.nodes (.runqueue cpu) with
    | [] => some (state.unlock cpu cpu .free)
    | next :: rest =>
      some ((state.shift (.runqueue cpu) (.hand .next cpu) next rest).goto cpu .picked)
  | .picked =>
    match state.nodes (.hand .next cpu) with
    | [] => none
    | next :: rest => some ({ state with
        nodes := update state.nodes (.hand .next cpu) rest
        isidle := update state.isidle cpu false
        curthread := update state.curthread cpu next }.goto cpu .switched)
  | .switched => some ((state.setState (state.curthread cpu) .run).goto cpu .resumed)
  | .resumed => some (state.unlock cpu cpu .exorcising)
  | .exorcising =>
    match state.nodes (.zombies cpu) with
    | [] => some (state.goto cpu .free)
    | z :: rest => some ((state.shift (.zombies cpu) (.hand .z cpu) z rest).goto cpu .destroying)
  | .destroying =>
    match state.nodes (.hand .z cpu) with
    | [] => none
    | z :: rest =>
      if z ≠ state.curthread cpu ∧ state.tState z = .zombie then
        some ({ state with
          nodes := update state.nodes (.hand .z cpu) rest
          destroyed := update state.destroyed z (state.destroyed z + 1) }.goto cpu .exorcising)
      else none
  | _ => none

/-- The steps of `wchan_wakeall` and of `thread_make_runnable`. -/
def State.goWake (state : State Cpu Chan Spin Thread) (cpu : Cpu) :
    Option (State Cpu Chan Spin Thread) :=
  match state.pc cpu with
  | .gathering wc =>
    match state.nodes (.wchan wc) with
    | [] => some (state.goto cpu .dispatching)
    | target :: rest =>
      some ((state.shift (.wchan wc) (.list cpu) target rest).goto cpu (.gathering wc))
  | .dispatching =>
    match state.nodes (.list cpu) with
    | [] => some (state.goto cpu .free)
    | target :: rest =>
      some ((state.shift (.list cpu) (.hand .target cpu) target rest).goto cpu .making)
  | .making =>
    match state.nodes (.hand .target cpu) with
    | [] => none
    | target :: _ => some (state.goto cpu (.waiting (state.tCpu target)))
  | .waiting targetcpu => state.lock cpu targetcpu (.locked targetcpu)
  | .locked targetcpu =>
    match state.nodes (.hand .target cpu) with
    | [] => none
    | target :: _ => some ((state.setState target .ready).goto cpu (.marked targetcpu))
  | .marked targetcpu =>
    match state.nodes (.hand .target cpu) with
    | [] => none
    | target :: rest =>
      some ((state.shift (.hand .target cpu) (.runqueue targetcpu) target rest).goto cpu
        (.queued targetcpu))
  | .queued targetcpu => some (state.unlock cpu targetcpu .dispatching)
  | _ => none

variable (allcpus : List Cpu)

def divRoundUp (a b : Nat) : Nat := (a + b - 1) / b

/-- The steps of `thread_consider_migration`. -/
def State.goMigrate (state : State Cpu Chan Spin Thread) (cpu : Cpu) :
    Option (State Cpu Chan Spin Thread) :=
  match state.pc cpu with
  | .counting (c :: todo) totalCount myCount =>
    if state.runqueueLock c = none then
      let count := (state.nodes (.runqueue c)).length
      some (state.goto cpu
        (.counting todo (totalCount + count) (if c = cpu then count else myCount)))
    else none
  | .counting [] totalCount myCount =>
    let oneShare := divRoundUp totalCount allcpus.length
    if myCount < oneShare then some (state.goto cpu .free)
    else state.lock cpu cpu (.collecting (myCount - oneShare) oneShare (myCount - oneShare))
  | .collecting 0 oneShare toSend => some (state.unlock cpu cpu (.sending allcpus oneShare toSend))
  | .collecting (left + 1) oneShare toSend =>
    match (state.nodes (.runqueue cpu)).getLast? with
    | none => none
    | some t => some ((state.transfer (.runqueue cpu) (.victims cpu)
        (state.nodes (.runqueue cpu)).dropLast (t :: state.nodes (.victims cpu))).goto cpu
          (.collecting left oneShare toSend))
  | .sending (c :: todo) oneShare (toSend + 1) =>
    if c = cpu then some (state.goto cpu (.sending todo oneShare (toSend + 1)))
    else state.lock cpu c (.filling c todo oneShare (toSend + 1))
  | .sending _ _ _ =>
    if state.nodes (.victims cpu) = [] then some (state.goto cpu .free)
    else state.lock cpu cpu .returning
  | .filling c todo oneShare (toSend + 1) =>
    if (state.nodes (.runqueue c)).length < oneShare then
      match state.nodes (.victims cpu) with
      | [] => none
      | t :: rest =>
        if t = state.curthread cpu then
          some ({ state with
            nodes := update state.nodes (.victims cpu) (rest ++ [t]) }.goto cpu
              (.filling c todo oneShare toSend))
        else some ((state.shift (.victims cpu) (.hand .t cpu) t rest).goto cpu
          (.handing c todo oneShare (toSend + 1)))
    else some (state.unlock cpu c (.sending todo oneShare (toSend + 1)))
  | .filling c todo oneShare 0 => some (state.unlock cpu c (.sending todo oneShare 0))
  | .handing c todo oneShare toSend =>
    match state.nodes (.hand .t cpu) with
    | [] => none
    | t :: _ => some ({ state with tCpu := update state.tCpu t c }.goto cpu
        (.assigned c todo oneShare toSend))
  | .assigned c todo oneShare toSend =>
    match state.nodes (.hand .t cpu) with
    | [] => none
    | t :: rest => some ((state.shift (.hand .t cpu) (.runqueue c) t rest).goto cpu
        (.filling c todo oneShare (toSend - 1)))
  | .returning =>
    match state.nodes (.victims cpu) with
    | [] => some (state.unlock cpu cpu .free)
    | t :: rest => some ((state.shift (.victims cpu) (.runqueue cpu) t rest).goto cpu .returning)
  | _ => none

variable [DecidableEq Spin] (guard : Chan → Spin)

/-- What a CPU begins. `thread_fork` runs up to the lock in two steps, since nobody else
knows the new thread before. A `thread_fork` that fails destroys it again and leaves
nothing. -/
def State.begin (state : State Cpu Chan Spin Thread) (cpu : Cpu) :
    Call Chan Spin Thread → Option (State Cpu Chan Spin Thread)
  | .create thread =>
    if state.isidle cpu = false ∧ state.life thread = .unborn then
      some { state with
        tState := update state.tState thread .ready
        tCpu := update state.tCpu thread (state.tCpu (state.curthread cpu))
        life := update state.life thread .created }
    else none
  | .start thread =>
    if state.isidle cpu = false ∧ state.life thread = .created then
      some ({ state.join (.hand .target cpu) thread with
        life := update state.life thread .started }.goto cpu (.waiting (state.tCpu thread)))
    else none
  | .acquire lk =>
    if state.spinlock lk = none then
      some { state with spinlock := update state.spinlock lk (some cpu) }
    else none
  | .release lk =>
    if state.spinlock lk = some cpu then
      some { state with spinlock := update state.spinlock lk none }
    else none
  | .threadYield =>
    if state.isidle cpu then some state else state.lock cpu cpu (.entered .ready)
  | .wchanSleep wc =>
    if state.isidle cpu = false ∧ state.spinlock (guard wc) = some cpu then
      state.lock cpu cpu (.entered (.sleep wc))
    else none
  | .threadExit =>
    if state.isidle cpu = false then state.lock cpu cpu (.entered .zombie) else none
  | .wchanWakeone wc =>
    if state.spinlock (guard wc) = some cpu then
      match state.nodes (.wchan wc) with
      | [] => some state
      | target :: rest =>
        some ((state.shift (.wchan wc) (.hand .target cpu) target rest).goto cpu .making)
    else none
  | .wchanWakeall wc =>
    if state.spinlock (guard wc) = some cpu then some (state.goto cpu (.gathering wc)) else none
  | .considerMigration => some (state.goto cpu (.counting allcpus 0 0))

/-- One step of one CPU. -/
def next (state : State Cpu Chan Spin Thread) :
    Action Cpu Chan Spin Thread → Option (State Cpu Chan Spin Thread)
  | .call cpu call => if state.pc cpu = .free then state.begin allcpus guard cpu call else none
  | .go cpu => ((state.goSwitch guard cpu).or (state.goWake cpu)).or (state.goMigrate allcpus cpu)

end Steps

end Os161.Thread.System
