import Os161.Library.Places
import Os161.Library.Runs
import Os161.Thread.System

/-!
# Where threads are

The invariant behind `thread.c`. Every thread is on at most one list or local variable. A
thread that is on none is the current thread of its CPU, or has not been started, or has
been destroyed. The current thread of a CPU is on none while it runs, and on one from the
moment it has been put away until the next thread has been picked.

Two facts carry it. A run queue changes, and the state of a thread changes, only while the
lock of that thread's run queue is held; so between going on a wait channel and having its
state set, a thread can be taken off the channel but cannot reach the run queue. And
`thread_consider_migration` does not move its own current thread, so that `t_cpu` of a current
thread never changes.
-/
namespace Os161.Thread.System

open Os161.Library.Places Os161.Library.Runs
open Function (update update_self update_of_ne)

/-! ## What a program counter says -/

section Definitions

variable {Cpu Chan Spin Thread : Type}

/-- The run queue a CPU has locked. -/
def Pc.lock (cpu : Cpu) : Pc Cpu Chan → Option Cpu
  | .entered _ | .readied | .listed _ | .leaving _ | .looking | .picked | .switched | .resumed
  | .collecting _ _ _ | .returning => some cpu
  | .locked targetcpu | .marked targetcpu | .queued targetcpu | .filling targetcpu _ _ _
  | .handing targetcpu _ _ _ | .assigned targetcpu _ _ _ => some targetcpu
  | .free | .exorcising | .destroying | .gathering _ | .dispatching | .making | .waiting _
  | .counting _ _ _ | .sending _ _ _ => none

/-- The current thread has been put on a list, and the CPU is not marked idle yet. -/
def Pc.putAway : Pc Cpu Chan → Bool
  | .listed _ | .leaving _ => true
  | _ => false

/-- `exorcise` has run since the last switch, if the CPU is not idle. -/
def Pc.swept : Pc Cpu Chan → Bool
  | .leaving _ | .looking | .picked | .switched | .resumed | .exorcising | .destroying => false
  | _ => true

/-- The local variable that has a thread in it. -/
def Pc.inHand : Pc Cpu Chan → Option Variable
  | .picked => some .next
  | .making | .waiting _ | .locked _ | .marked _ => some .target
  | .handing _ _ _ _ | .assigned _ _ _ _ => some .t
  | .destroying => some .z
  | _ => none

/-- How many threads a local variable has in it. -/
def Pc.held (pc : Pc Cpu Chan) (which : Variable) : Nat :=
  if pc.inHand = some which then 1 else 0

/-- Where a thread is that sleeps or is being woken up. -/
def Spot.Dormant : Spot Cpu Chan → Prop
  | .wchan _ | .list _ | .hand .target _ => True
  | _ => False

/-- How far the threads in a spot have come. -/
def Spot.life : Spot Cpu Chan → Life
  | .zombies _ | .hand .z _ => .exited
  | _ => .started

/-- The list a thread is put on. -/
def NewState.spot (cpu : Cpu) : NewState Chan → Spot Cpu Chan
  | .ready => .runqueue cpu
  | .sleep wc => .wchan wc
  | .zombie => .zombies cpu

/-- Where `thread_switch` is before it puts the thread on that list. -/
def NewState.before : NewState Chan → Pc Cpu Chan
  | .ready => .readied
  | .sleep wc => .entered (.sleep wc)
  | .zombie => .entered .zombie

/-- Where it is afterwards. -/
def NewState.after : NewState Chan → Pc Cpu Chan
  | .ready => .leaving .ready
  | .sleep wc => .listed wc
  | .zombie => .leaving .zombie

/-- The ways from one list or variable to another that a CPU uses, given the run queue it
has locked. -/
inductive Route (cpu : Cpu) (locked : Option Cpu) : Spot Cpu Chan → Spot Cpu Chan → Prop
  | pick : Route cpu locked (.runqueue cpu) (.hand .next cpu)
  | bury : Route cpu locked (.zombies cpu) (.hand .z cpu)
  | gather (wc : Chan) : Route cpu locked (.wchan wc) (.list cpu)
  | take (wc : Chan) : Route cpu locked (.wchan wc) (.hand .target cpu)
  | dispatch : Route cpu locked (.list cpu) (.hand .target cpu)
  | queue (targetcpu : Cpu) (held : locked = some targetcpu) :
    Route cpu locked (.hand .target cpu) (.runqueue targetcpu)
  | collect : Route cpu locked (.runqueue cpu) (.victims cpu)
  | choose : Route cpu locked (.victims cpu) (.hand .t cpu)
  | send (targetcpu : Cpu) (held : locked = some targetcpu) :
    Route cpu locked (.hand .t cpu) (.runqueue targetcpu)
  | giveBack (held : locked = some cpu) : Route cpu locked (.victims cpu) (.runqueue cpu)

/-! ## The invariant -/

section

variable (state : State Cpu Chan Spin Thread)

/-- The current thread of a CPU is not on any list. -/
def Present (cpu : Cpu) : Prop :=
  state.isidle cpu = false ∧ (state.pc cpu).putAway = false

/-- A CPU has destroyed its zombies. -/
def Swept (cpu : Cpu) : Prop :=
  state.isidle cpu = false ∧ (state.pc cpu).swept = true

/-- What a CPU can rely on where it is. -/
def Demand (seat : Thread → Option (Spot Cpu Chan)) (cpu : Cpu) : Pc Cpu Chan → Prop
  | .entered _ | .switched | .resumed | .exorcising | .destroying => state.isidle cpu = false
  | .readied => state.isidle cpu = false ∧ state.tState (state.curthread cpu) = .ready
  | .listed _ | .leaving (.sleep _) => state.isidle cpu = false ∧
      ∃ spot, seat (state.curthread cpu) = some spot ∧ spot.Dormant
  | .leaving .ready => state.isidle cpu = false ∧ seat (state.curthread cpu) = some (.runqueue cpu)
  | .leaving .zombie => state.isidle cpu = false ∧ seat (state.curthread cpu) = some (.zombies cpu)
  | .looking | .picked => state.isidle cpu = true
  | .waiting targetcpu | .locked targetcpu =>
      ∀ thread, seat thread = some (.hand .target cpu) → state.tCpu thread = targetcpu
  | .marked targetcpu => ∀ thread, seat thread = some (.hand .target cpu) →
      state.tCpu thread = targetcpu ∧ state.tState thread = .ready
  | .handing _ _ _ _ => ∀ thread, seat thread = some (.hand .t cpu) →
      state.tCpu thread = cpu ∧ state.curthread cpu ≠ thread
  | .assigned targetcpu _ _ _ => ∀ thread, seat thread = some (.hand .t cpu) →
      state.tCpu thread = targetcpu ∧ ∀ other, state.curthread other ≠ thread
  | _ => True

/-- What is known of a thread on a list or in a variable. -/
def Suits (thread : Thread) : Spot Cpu Chan → Prop
  | .runqueue cpu | .victims cpu => state.tCpu thread = cpu ∧ state.tState thread = .ready
  | .hand .t _ => state.tState thread = .ready
  | .hand .next cpu => state.tCpu thread = cpu
  | .zombies cpu => state.tCpu thread = cpu ∧ (state.tState thread = .zombie ∨
      (state.curthread cpu = thread ∧ state.pc cpu = .leaving .zombie))
  | .hand .z cpu => state.tCpu thread = cpu ∧ state.tState thread = .zombie
  | .wchan _ | .list _ | .hand .target _ => True

/-- What is known of a thread that is on no list. -/
def OffLists (thread : Thread) : Prop :=
  match state.life thread with
  | .unborn | .created => state.destroyed thread = 0
  | .started => state.curthread (state.tCpu thread) = thread ∧ state.destroyed thread = 0
  | .exited => state.destroyed thread = 1

end

/-- The invariant, for the list or variable each thread is in. -/
structure Sound (state : State Cpu Chan Spin Thread) (seat : Thread → Option (Spot Cpu Chan)) :
    Prop where
  arranged : Arranged state.nodes seat
  hands : ∀ cpu which, (state.nodes (.hand which cpu)).length = (state.pc cpu).held which
  locks : ∀ queue cpu, state.runqueueLock queue = some cpu ↔ (state.pc cpu).lock cpu = some queue
  demands : ∀ cpu, Demand state seat cpu (state.pc cpu)
  own : ∀ cpu, state.tCpu (state.curthread cpu) = cpu
  present : ∀ cpu, Present state cpu → seat (state.curthread cpu) = none ∧
    state.life (state.curthread cpu) = .started
  away : ∀ cpu, ¬ Present state cpu → seat (state.curthread cpu) ≠ none
  on : ∀ thread spot, seat thread = some spot → state.life thread = spot.life ∧
    state.destroyed thread = 0 ∧ Suits state thread spot
  off : ∀ thread, seat thread = none → OffLists state thread
  swept : ∀ cpu, Swept state cpu → ∀ thread, seat thread ≠ some (.zombies cpu)

/-- A CPU can go on somewhere else without disturbing what the invariant says about its
current thread and its zombies. -/
structure Passes (state : State Cpu Chan Spin Thread) (cpu : Cpu) (pc : Pc Cpu Chan) : Prop where
  putAway : pc.putAway = (state.pc cpu).putAway
  settled : state.pc cpu ≠ .leaving .zombie
  swept : state.isidle cpu = false → pc.swept = true →
    (state.pc cpu).swept = true ∨ state.nodes (.zombies cpu) = []

/-- Two program counters a CPU can go between in this way. -/
def Pc.passesTo (before after : Pc Cpu Chan) : Bool :=
  (before.putAway == after.putAway) && (!before.putAway || before.swept) &&
    (!after.swept || before.swept)

end Definitions

variable {which : Variable}

section Invariant

variable {Cpu Chan Spin Thread : Type} {state : State Cpu Chan Spin Thread}
  {seat : Thread → Option (Spot Cpu Chan)} {cpu : Cpu}

/-- After boot the queues are empty, so no thread has a seat. -/
theorem booted_sound (booted : Booted state) : Sound state (fun _ => none) where
  arranged := by
    intro spot
    rw [booted.nodes spot]
    exact Lists.nobody (by simp)
  hands := by
    intro cpu which
    rw [booted.nodes, booted.outside cpu]
    rfl
  locks := by
    intro queue cpu
    simp [booted.unlocked queue, booted.outside cpu, Pc.lock]
  demands := by
    intro cpu
    rw [booted.outside cpu]
    trivial
  own := booted.own
  present := fun cpu _ => ⟨rfl, booted.started cpu⟩
  away := by
    intro cpu gone
    refine absurd ⟨booted.awake cpu, ?_⟩ gone
    rw [booted.outside cpu]
    rfl
  on := fun _ _ here => absurd here (by simp)
  off := by
    intro thread _
    by_cases current : ∃ cpu, state.curthread cpu = thread
    · obtain ⟨cpu, rfl⟩ := current
      simp [OffLists, booted.started cpu, booted.own cpu, booted.undestroyed]
    · have unborn := booted.others thread (fun cpu same => current ⟨cpu, same⟩)
      simp [OffLists, unborn, booted.undestroyed]
  swept := fun _ _ _ => by simp

/-! ## What the invariant gives -/

variable {thread : Thread}

section

variable (sound : Sound state seat)

include sound

theorem Sound.one_cpu {first second : Cpu} (same : state.curthread first = state.curthread second) :
    first = second := by
  rw [← sound.own first, same, sound.own second]

theorem Sound.one_holder {first second queue : Cpu} (one : (state.pc first).lock first = some queue)
    (other : (state.pc second).lock second = some queue) : first = second := by
  have held := (sound.locks queue first).mpr one
  rw [(sound.locks queue second).mpr other] at held
  exact (Option.some.inj held).symm

theorem Sound.current_alive (cpu : Cpu) :
    state.life (state.curthread cpu) = .started ∨ state.life (state.curthread cpu) = .exited := by
  cases here : seat (state.curthread cpu) with
  | none =>
    by_cases present : Present state cpu
    · exact Or.inl (sound.present cpu present).2
    · exact absurd here (sound.away cpu present)
  | some spot =>
    rw [(sound.on _ _ here).1]
    unfold Spot.life
    split <;> simp

/-- A thread that has not been started is on no list and is no CPU's current thread. -/
theorem Sound.unstarted (life : state.life thread = .unborn ∨ state.life thread = .created) :
    seat thread = none ∧ ∀ cpu, state.curthread cpu ≠ thread := by
  constructor
  · cases here : seat thread with
    | none => rfl
    | some spot =>
      rw [(sound.on thread spot here).1] at life
      unfold Spot.life at life
      split at life <;> simp at life
  · rintro cpu rfl
    rcases sound.current_alive cpu with started | exited
    · simp [started] at life
    · simp [exited] at life

theorem Sound.current_undestroyed (cpu : Cpu) : state.destroyed (state.curthread cpu) = 0 := by
  cases here : seat (state.curthread cpu) with
  | none =>
    have offLists := sound.off _ here
    by_cases present : Present state cpu
    · simp only [OffLists, (sound.present cpu present).2] at offLists
      exact offLists.2
    · exact absurd here (sound.away cpu present)
  | some spot => exact (sound.on _ _ here).2.1

/-- A local variable with a thread in it has no other. -/
theorem Sound.hand_alone {rest : List Thread}
    (first : state.nodes (.hand which cpu) = thread :: rest) :
    rest = [] ∧ ∀ other, seat other = some (.hand which cpu) → other = thread := by
  have one := sound.hands cpu which
  have few : (state.pc cpu).held which ≤ 1 := by
    unfold Pc.held
    split <;> omega
  rw [first, List.length_cons] at one
  have empty : rest = [] := List.length_eq_zero_iff.mp (by omega)
  refine ⟨empty, fun other here => ?_⟩
  have member := ((sound.arranged (.hand which cpu)).members other).mpr here
  rw [first, empty] at member
  exact List.mem_singleton.mp member

/-- A local variable that is not in use has no thread in it. -/
theorem Sound.hand_empty (unused : (state.pc cpu).inHand ≠ some which) (thread : Thread) :
    seat thread ≠ some (.hand which cpu) := by
  intro here
  have member := ((sound.arranged _).members thread).mpr here
  have length := sound.hands cpu which
  rw [Pc.held, if_neg unused, List.length_eq_zero_iff] at length
  rw [length] at member
  cases member

theorem Sound.head_seat {spot : Spot Cpu Chan} {rest : List Thread}
    (first : state.nodes spot = thread :: rest) : seat thread = some spot :=
  ((sound.arranged spot).members thread).mp (by rw [first]; exact List.mem_cons_self)

/-- A thread assigned to a CPU is not the current thread of another. -/
theorem Sound.not_current (assigned : state.tCpu thread = cpu) (other : Cpu)
    (different : other ≠ cpu) : state.curthread other ≠ thread := by
  rintro rfl
  exact different ((sound.own other).symm.trans assigned)

/-- The current thread is on no list until `thread_switch` puts it on one. -/
theorem Sound.present_before {newstate : NewState Chan} (there : state.pc cpu = newstate.before) :
    Present state cpu := by
  have demand := sound.demands cpu
  rw [there] at demand
  constructor
  · cases newstate with
    | ready => exact demand.1
    | sleep wc | zombie => exact demand
  · rw [there]
    cases newstate <;> rfl

end

/-- Nothing more is known of a thread that sleeps or is being woken up. -/
theorem suits_of_dormant {spot : Spot Cpu Chan} (dormant : spot.Dormant) :
    Suits state thread spot := by
  cases spot with
  | wchan wc | list owner => trivial
  | runqueue owner | victims owner | zombies owner => exact dormant.elim
  | hand which owner =>
    cases which with
    | target => trivial
    | next | t | z => exact dormant.elim

/-- What is known of a thread on a list is kept by a step that leaves it its state and
its CPU. -/
theorem Suits.keep {after : State Cpu Chan Spin Thread} {spot : Spot Cpu Chan}
    (suits : Suits state thread spot) (assigned : after.tCpu thread = state.tCpu thread)
    (same : after.tState thread = state.tState thread)
    (leaving : ∀ owner, spot = .zombies owner → state.pc owner = .leaving .zombie →
      state.curthread owner = thread → after.tState thread = .zombie ∨
        (after.curthread owner = thread ∧ after.pc owner = .leaving .zombie)) :
    Suits after thread spot := by
  cases spot with
  | wchan wc | list owner => trivial
  | runqueue owner | victims owner => exact ⟨assigned.trans suits.1, same.trans suits.2⟩
  | zombies owner =>
    refine ⟨assigned.trans suits.1, ?_⟩
    rcases suits.2 with zombie | ⟨current, there⟩
    · exact Or.inl (same.trans zombie)
    · exact leaving owner rfl there current
  | hand which owner =>
    cases which with
    | next => exact assigned.trans suits
    | target => trivial
    | t => exact same.trans suits
    | z => exact ⟨assigned.trans suits.1, same.trans suits.2⟩

/-- What is known of a thread on no list is kept by a step that leaves it running. -/
theorem OffLists.keep {after : State Cpu Chan Spin Thread} (offLists : OffLists state thread)
    (life : after.life thread = state.life thread)
    (destroyed : after.destroyed thread = state.destroyed thread)
    (current : state.curthread (state.tCpu thread) = thread →
      after.curthread (after.tCpu thread) = thread) : OffLists after thread := by
  unfold OffLists at offLists ⊢
  rw [life, destroyed]
  cases alive : state.life thread with
  | unborn | created | exited => simpa [alive] using offLists
  | started =>
    simp only [alive] at offLists
    exact ⟨current offLists.1, offLists.2⟩

/-! ## What other CPUs rely on -/

/-- What a CPU relies on is kept by a step of another one that leaves it its current
thread, its local variables and, while it holds the lock, the list its thread is on. -/
theorem Demand.keep {after : State Cpu Chan Spin Thread} {moved : Thread → Option (Spot Cpu Chan)}
    {pc : Pc Cpu Chan} (demand : Demand state seat cpu pc)
    (idle : after.isidle cpu = state.isidle cpu) (current : after.curthread cpu = state.curthread cpu)
    (ready : pc = .readied →
      after.tState (state.curthread cpu) = state.tState (state.curthread cpu))
    (seated : pc.lock cpu = some cpu → ∀ spot, seat (state.curthread cpu) = some spot →
      moved (state.curthread cpu) = some spot ∨
        (spot.Dormant ∧ ∃ other, moved (state.curthread cpu) = some other ∧ other.Dormant))
    (targets : ∀ thread, moved thread = some (.hand .target cpu) →
      seat thread = some (.hand .target cpu) ∧ after.tCpu thread = state.tCpu thread ∧
        (pc.lock cpu = some (state.tCpu thread) → state.tState thread = .ready →
          after.tState thread = .ready))
    (migrants : ∀ thread, moved thread = some (.hand .t cpu) →
      seat thread = some (.hand .t cpu) ∧ after.tCpu thread = state.tCpu thread ∧
        ∀ other, after.curthread other = thread → state.curthread other = thread) :
    Demand after moved cpu pc := by
  have stays : pc.lock cpu = some cpu → ∀ spot : Spot Cpu Chan, ¬ spot.Dormant →
      seat (state.curthread cpu) = some spot → moved (after.curthread cpu) = some spot := by
    intro locked spot awake here
    rw [current]
    exact (seated locked spot here).resolve_right fun moves => awake moves.1
  have sleeps : pc.lock cpu = some cpu →
      (∃ spot, seat (state.curthread cpu) = some spot ∧ spot.Dormant) →
        ∃ spot, moved (after.curthread cpu) = some spot ∧ spot.Dormant := by
    rintro locked ⟨spot, here, dormant⟩
    rw [current]
    rcases seated locked spot here with same | ⟨_, other, there, still⟩
    · exact ⟨spot, same, dormant⟩
    · exact ⟨other, there, still⟩
  cases pc with
  | entered newstate | switched | resumed | exorcising | destroying
  | looking | picked => exact idle.trans demand
  | readied =>
    refine ⟨idle.trans demand.1, ?_⟩
    rw [current, ready rfl]
    exact demand.2
  | listed wc => exact ⟨idle.trans demand.1, sleeps rfl demand.2⟩
  | leaving newstate =>
    cases newstate with
    | ready | zombie => exact ⟨idle.trans demand.1, stays rfl _ not_false demand.2⟩
    | sleep wc => exact ⟨idle.trans demand.1, sleeps rfl demand.2⟩
  | waiting targetcpu | locked targetcpu =>
    intro thread here
    obtain ⟨before, same, _⟩ := targets thread here
    rw [same]
    exact demand thread before
  | marked targetcpu =>
    intro thread here
    obtain ⟨before, same, still⟩ := targets thread here
    obtain ⟨assigned, marked⟩ := demand thread before
    refine ⟨same.trans assigned, still ?_ marked⟩
    rw [assigned]
    rfl
  | handing targetcpu todo oneShare toSend =>
    intro thread here
    obtain ⟨before, same, _⟩ := migrants thread here
    rw [same, current]
    exact demand thread before
  | assigned targetcpu todo oneShare toSend =>
    intro thread here
    obtain ⟨before, same, still⟩ := migrants thread here
    rw [same]
    exact ⟨(demand thread before).1, fun other there => (demand thread before).2 other (still other there)⟩
  | _ => trivial

/-- The spinlocks of wait channels are nothing the invariant talks about. -/
theorem Sound.spin (sound : Sound state seat) {spinlock : Spin → Option Cpu} :
    Sound { state with spinlock := spinlock } seat :=
  { sound with on := fun thread spot here => (sound.on thread spot here).imp_right (And.imp_right
      fun suits => suits.keep rfl rfl fun _ _ there current => Or.inr ⟨current, there⟩) }

theorem passes_of_pcs {before pc : Pc Cpu Chan} (there : state.pc cpu = before)
    (passes : before.passesTo pc = true) : Passes state cpu pc := by
  simp only [Pc.passesTo, Bool.and_eq_true, Bool.or_eq_true, beq_iff_eq, Bool.not_eq_true'] at passes
  obtain ⟨⟨putAway, settled⟩, swept⟩ := passes
  subst there
  refine ⟨putAway.symm, ?_, ?_⟩
  · intro leaving
    rw [leaving] at settled
    simp [Pc.putAway, Pc.swept] at settled
  · intro _ clean
    rw [clean] at swept
    exact Or.inl (swept.resolve_left (by simp))

end Invariant

/-! ## Steps that move no thread -/

section Quiet

variable {Cpu Chan Spin Thread : Type} [DecidableEq Cpu] {state : State Cpu Chan Spin Thread}
  {seat : Thread → Option (Spot Cpu Chan)} {cpu : Cpu} {pc : Pc Cpu Chan}

theorem Sound.locks_goto (sound : Sound state seat) (same : pc.lock cpu = (state.pc cpu).lock cpu)
    (queue other : Cpu) : state.runqueueLock queue = some other ↔
      (update state.pc cpu pc other).lock other = some queue := by
  rw [sound.locks queue other]
  obtain rfl | here := eq_or_ne other cpu
  · simp [same]
  · simp [here]

variable {queue : Cpu}

theorem Sound.locks_lock (sound : Sound state seat) (vacant : state.runqueueLock queue = none)
    (before : (state.pc cpu).lock cpu = none) (after : pc.lock cpu = some queue)
    (place other : Cpu) :
    update state.runqueueLock queue (some cpu) place = some other ↔
      (update state.pc cpu pc other).lock other = some place := by
  obtain rfl | here := eq_or_ne other cpu
  · by_cases there : place = queue
    · simp [there, after]
    · have nowhere : state.runqueueLock place ≠ some other := by
        rw [Ne, sound.locks, before]
        simp
      simp [there, after, nowhere, Ne.symm there]
  · by_cases there : place = queue
    · have elsewhere : (state.pc other).lock other ≠ some queue := by
        rw [Ne, ← sound.locks, vacant]
        simp
      simp [there, here, Ne.symm here, elsewhere]
    · simpa [there, here] using sound.locks place other

theorem Sound.locks_unlock (sound : Sound state seat)
    (before : (state.pc cpu).lock cpu = some queue) (after : pc.lock cpu = none)
    (place other : Cpu) :
    update state.runqueueLock queue none place = some other ↔
      (update state.pc cpu pc other).lock other = some place := by
  obtain rfl | here := eq_or_ne other cpu
  · by_cases there : place = queue
    · simp [there, after]
    · have nowhere : state.runqueueLock place ≠ some other := by
        rw [Ne, sound.locks, before]
        simpa using Ne.symm there
      simp [there, after, nowhere]
  · by_cases there : place = queue
    · have elsewhere : (state.pc other).lock other ≠ some queue := by
        intro held
        exact here (sound.one_holder held before)
      simp [there, here, elsewhere]
    · simpa [there, here] using sound.locks place other

/-- A CPU that was present is present, and one that was away is away. -/
theorem Passes.present_iff (passes : Passes state cpu pc) (other : Cpu) :
    (state.isidle other = false ∧ (update state.pc cpu pc other).putAway = false) ↔
      Present state other := by
  obtain rfl | here := eq_or_ne other cpu
  · simp [Present, passes.putAway]
  · simp [Present, here]

/-- A thread on a list is as it was when a CPU goes on that has not just put its own on its
zombie list. -/
theorem suits_goto (settled : state.pc cpu ≠ .leaving .zombie) {thread : Thread}
    {spot : Spot Cpu Chan} (suits : Suits state thread spot) :
    Suits (state.goto cpu pc) thread spot := by
  refine suits.keep rfl rfl fun owner _ there current => Or.inr ⟨current, ?_⟩
  have other : owner ≠ cpu := fun same => settled (same ▸ there)
  exact (update_of_ne other _ _).trans there

/-- What local variables have in them, when one CPU has gone on. -/
theorem Sound.hands_update (sound : Sound state seat) {nodes : Spot Cpu Chan → List Thread}
    (here : ∀ which, (nodes (.hand which cpu)).length = pc.held which)
    (there : ∀ other which, other ≠ cpu →
      nodes (.hand which other) = state.nodes (.hand which other)) (other : Cpu) (which : Variable) :
    (nodes (.hand which other)).length = (update state.pc cpu pc other).held which := by
  obtain rfl | mine := eq_or_ne other cpu
  · rw [update_self]
    exact here which
  · rw [update_of_ne mine, there other which mine]
    exact sound.hands other which

/-- A thread leaves the local variable of a CPU, which goes on. -/
theorem Sound.hands_exit [DecidableEq Chan] (sound : Sound state seat) {thread : Thread}
    {rest : List Thread} (first : state.nodes (.hand which cpu) = thread :: rest)
    {before : Pc Cpu Chan} (there : state.pc cpu = before) (full : before.inHand = some which)
    (empty : pc.inHand = none) (other : Cpu) (used : Variable) :
    (update state.nodes (.hand which cpu) rest (.hand used other)).length =
      (update state.pc cpu pc other).held used := by
  refine sound.hands_update (fun used => ?_) (fun other used mine => ?_) other used
  · rw [Pc.held, empty]
    by_cases left : used = which
    · rw [left, update_self, (sound.hand_alone first).1]
      rfl
    · rw [update_of_ne (by simpa using left), sound.hands cpu used, there, Pc.held, full]
      simp [Ne.symm left]
  · exact update_of_ne (by simp [mine]) _ _

/-- A CPU that goes on with the same local variable in use. -/
theorem Sound.hands_goto (sound : Sound state seat) (hand : pc.inHand = (state.pc cpu).inHand) :
    ∀ other which, (state.nodes (.hand which other)).length =
      (update state.pc cpu pc other).held which := by
  refine sound.hands_update (fun which => ?_) fun _ _ _ => rfl
  rw [sound.hands cpu which, Pc.held, Pc.held, hand]

/-- A CPU whose zombies are gone when another has gone on had none before. -/
theorem Sound.swept_after (sound : Sound state seat) (passes : Passes state cpu pc) {other : Cpu}
    (awake : state.isidle other = false)
    (clean : (update state.pc cpu pc other).swept = true) (thread : Thread) :
    seat thread ≠ some (.zombies other) := by
  obtain rfl | here := eq_or_ne other cpu
  · rw [update_self] at clean
    rcases passes.swept awake clean with before | empty
    · exact sound.swept other ⟨awake, before⟩ thread
    · intro there
      have member := ((sound.arranged _).members thread).mpr there
      rw [empty] at member
      cases member
  · rw [update_of_ne here] at clean
    exact sound.swept other ⟨awake, clean⟩ thread

/-- What every CPU relies on, when one of them has gone on. -/
theorem demands_update {after : State Cpu Chan Spin Thread}
    {moved : Thread → Option (Spot Cpu Chan)} (here : Demand after moved cpu pc)
    (there : ∀ other, other ≠ cpu → Demand after moved other (state.pc other)) (other : Cpu) :
    Demand after moved other (update state.pc cpu pc other) := by
  obtain rfl | same := eq_or_ne other cpu
  · rw [update_self]
    exact here
  · rw [update_of_ne same]
    exact there other same

/-- A CPU goes on, and takes or releases a lock or keeps what it has. -/
theorem Sound.pass (sound : Sound state seat) (passes : Passes state cpu pc)
    (hand : pc.inHand = (state.pc cpu).inHand) (demand : Demand state seat cpu pc)
    {locks : Cpu → Option Cpu}
    (held : ∀ queue other, locks queue = some other ↔
      (update state.pc cpu pc other).lock other = some queue) :
    Sound { state.goto cpu pc with runqueueLock := locks } seat :=
  { sound with
    hands := sound.hands_goto hand
    locks := held
    demands := demands_update demand fun other _ => sound.demands other
    present := fun other there => sound.present other ((passes.present_iff other).mp there)
    away := fun other gone => sound.away other (gone ∘ (passes.present_iff other).mpr)
    on := fun thread spot here =>
      (sound.on thread spot here).imp_right (And.imp_right (suits_goto passes.settled))
    swept := fun _ clean => sound.swept_after passes clean.1 clean.2 }

section

variable (sound : Sound state seat) (pc : Pc Cpu Chan) {before : Pc Cpu Chan}
  (there : state.pc cpu = before) (passes : before.passesTo pc = true)
  (hand : pc.inHand = before.inHand)

include sound there passes hand

theorem Sound.goto (same : pc.lock cpu = before.lock cpu) (demand : Demand state seat cpu pc) :
    Sound (state.goto cpu pc) seat :=
  sound.pass (passes_of_pcs there passes) (there ▸ hand) demand (sound.locks_goto (there ▸ same))

/-- A CPU goes on when it has got the lock of a run queue. -/
theorem Sound.lock (unlocked : before.lock cpu = none) (locked : pc.lock cpu = some queue)
    (demand : Demand state seat cpu pc) {next : State Cpu Chan Spin Thread}
    (taken : state.lock cpu queue pc = some next) : Sound next seat := by
  unfold State.lock at taken
  split at taken
  case isTrue vacant =>
    cases taken
    exact sound.pass (passes_of_pcs there passes) (there ▸ hand) demand
      (sound.locks_lock vacant (there ▸ unlocked) locked)
  case isFalse => cases taken

/-- A CPU goes on when it has released the lock of a run queue. -/
theorem Sound.unlock (locked : before.lock cpu = some queue) (unlocked : pc.lock cpu = none)
    (demand : Demand state seat cpu pc) : Sound (state.unlock cpu queue pc) seat :=
  sound.pass (passes_of_pcs there passes) (there ▸ hand) demand
    (sound.locks_unlock (there ▸ locked) unlocked)

end

/-- A CPU whose thread has been put away and has its new state is marked idle. -/
theorem Sound.settle (sound : Sound state seat) {newstate : NewState Chan}
    (there : state.pc cpu = .leaving newstate)
    (zombies : ∀ thread, seat thread = some (.zombies cpu) → state.tState thread = .zombie) :
    Sound ({ state with isidle := update state.isidle cpu true }.goto cpu .looking) seat := by
  have gone : ¬ Present state cpu := by
    rintro ⟨_, present⟩
    rw [there] at present
    cases present
  refine ⟨sound.arranged, sound.hands_goto (by rw [there]; rfl),
    sound.locks_goto (by rw [there]; rfl),
    demands_update (update_self ..) fun other different => ?_, sound.own, ?_, ?_, ?_,
    sound.off, ?_⟩
  · exact (sound.demands other).keep (update_of_ne different _ _) rfl (fun _ => rfl)
      (fun _ spot here => Or.inl here) (fun target here => ⟨here, rfl, fun _ marked => marked⟩)
      (fun migrant here => ⟨here, rfl, fun _ current => current⟩)
  · intro other here
    obtain rfl | mine := eq_or_ne other cpu
    · have idle := here.1
      simp [State.goto] at idle
    · exact sound.present other (by simpa [Present, State.goto, mine] using here)
  · intro other away
    obtain rfl | mine := eq_or_ne other cpu
    · exact sound.away other gone
    · exact sound.away other (by simpa [Present, State.goto, mine] using away)
  · intro thread spot here
    obtain ⟨life, undestroyed, suits⟩ := sound.on thread spot here
    refine ⟨life, undestroyed, suits.keep rfl rfl fun owner zombie leaving current => ?_⟩
    obtain rfl | mine := eq_or_ne owner cpu
    · exact Or.inl (zombies thread (zombie ▸ here))
    · exact Or.inr ⟨current, (update_of_ne mine _ _).trans leaving⟩
  · intro other clean
    obtain rfl | mine := eq_or_ne other cpu
    · have swept := clean.2
      simp [State.goto, Pc.swept] at swept
    · exact sound.swept other (by simpa [Swept, State.goto, mine] using clean)

theorem Sound.reorder [DecidableEq Chan] (sound : Sound state seat) {reordered : List Thread} {owner : Cpu}
    (same : reordered.Perm (state.nodes (.victims owner))) :
    Sound { state with nodes := update state.nodes (.victims owner) reordered } seat :=
  { sound with
    arranged := sound.arranged.reorder same
    hands := fun other which => by simpa using sound.hands other which
    on := fun thread spot here => (sound.on thread spot here).imp_right (And.imp_right
      fun suits => suits.keep rfl rfl fun _ _ there current => Or.inr ⟨current, there⟩) }

end Quiet

end Os161.Thread.System
