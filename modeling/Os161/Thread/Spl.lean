import Os161.Library.Runs

/-!
# Interrupt priority levels

A spinlock raises the priority of the thread that acquires it, and so does `splx`, and they
need not nest. `t_iplhigh_count` is how often the priority has been raised: interrupts go
off with the first raise and come on again with the last lower.

One thread runs, on a CPU that exists. An assertion that fails and the panic about a
deadlock have no successor, and the wait for a spinlock of another CPU is over when
`spinlock_acquire` returns.

What the thread has acquired and not released is recorded from its calls alone, beside the
fields of the code, and the count is compared with that record.
-/
namespace Os161.Thread.Spl

open Os161.Library.Runs

/-- `IPL_NONE` and `IPL_HIGH`. -/
inductive Ipl
  | none
  | high
  deriving DecidableEq

/-- `t_curspl` and `t_iplhigh_count` of the thread, whether interrupts are off, the
`c_spinlocks` of the CPU, and the spinlocks whose `splk_holder` is the CPU. -/
structure State (Spinlock : Type) where
  curspl : Ipl
  iplhighCount : Int
  irqoff : Bool
  spinlocks : Nat
  held : List Spinlock

/-- The thread, with the spinlocks that its calls have acquired and not released since. The code
has no such record. -/
structure Course (Spinlock : Type) where
  state : State Spinlock
  acquired : List Spinlock

inductive Action (Spinlock : Type)
  | acquire (splk : Spinlock)
  | release (splk : Spinlock)
  | splx (spl : Ipl)

variable {Spinlock : Type} {state : State Spinlock}

section

variable (state : State Spinlock)

def splraise : State Spinlock :=
  { state with
    irqoff := if state.iplhighCount = 0 then true else state.irqoff
    iplhighCount := state.iplhighCount + 1 }

def spllower : State Spinlock :=
  { state with
    iplhighCount := state.iplhighCount - 1
    irqoff := if state.iplhighCount - 1 = 0 then false else state.irqoff }

/-- `splx` and what it returns. -/
def splx (spl : Ipl) : Ipl × State Spinlock :=
  match state.curspl, spl with
  | .none, .high => (.none, { splraise state with curspl := .high })
  | .high, .none => (.high, spllower { state with curspl := .none })
  | _, _ => (spl, state)

end

/-- A thread that runs in user mode or has just been made, before it takes a spinlock. -/
def Initial (course : Course Spinlock) : Prop :=
  course.acquired = [] ∧ course.state.held = [] ∧ course.state.spinlocks = 0 ∧
    (course.state.curspl = .none ∧ course.state.iplhighCount = 0 ∧ course.state.irqoff = false ∨
      course.state.curspl = .high ∧ course.state.iplhighCount = 1 ∧ course.state.irqoff = true)

/-- How often a level raises the priority. -/
def Ipl.raises : Ipl → Nat
  | .none => 0
  | .high => 1

/-- The count is one for every spinlock acquired and not released and one for a high spl, and
says whether interrupts are off. The CPU is the holder of these spinlocks and of no other. -/
structure Masked (course : Course Spinlock) : Prop where
  off : course.state.irqoff = true ↔ 0 < course.state.iplhighCount
  count : course.state.iplhighCount = course.acquired.length + course.state.curspl.raises
  spinlocks : course.state.spinlocks = course.acquired.length
  holder : course.state.held = course.acquired

theorem initial_masked (course : Course Spinlock) (initial : Initial course) : Masked course := by
  obtain ⟨acquired, held, spinlocks, ⟨spl, count, off⟩ | ⟨spl, count, off⟩⟩ := initial <;>
    constructor <;> simp [acquired, held, spinlocks, spl, count, off, Ipl.raises]

theorem splraise_off (off : state.irqoff = true ↔ 0 < state.iplhighCount)
    (counted : 0 ≤ state.iplhighCount) :
    (splraise state).irqoff = true ↔ 0 < (splraise state).iplhighCount := by
  simp only [splraise]
  split
  · simp
    omega
  · rw [off]
    omega

theorem spllower_off (off : state.irqoff = true ↔ 0 < state.iplhighCount) :
    (spllower state).irqoff = true ↔ 0 < (spllower state).iplhighCount := by
  simp only [spllower]
  split
  · simp
    omega
  · rw [off]
    omega

theorem splx_masked {acquired : List Spinlock} (masked : Masked ⟨state, acquired⟩) (spl : Ipl) :
    Masked ⟨(splx state spl).2, acquired⟩ := by
  obtain ⟨off, count, spinlocks, holder⟩ := masked
  dsimp only at off count spinlocks holder
  unfold splx
  split
  next level =>
    rw [level] at count
    exact ⟨splraise_off off (by omega), by simp [splraise, count, Ipl.raises], spinlocks, holder⟩
  next level =>
    rw [level] at count
    exact ⟨spllower_off off, by simp [spllower, count, Ipl.raises], spinlocks, holder⟩
  · exact ⟨off, count, spinlocks, holder⟩

variable [DecidableEq Spinlock]

def spinlockAcquire (state : State Spinlock) (splk : Spinlock) : Option (State Spinlock) :=
  if splk ∈ state.held then none
  else some { splraise state with
    spinlocks := state.spinlocks + 1
    held := splk :: state.held }

def spinlockRelease (state : State Spinlock) (splk : Spinlock) : Option (State Spinlock) :=
  if splk ∈ state.held ∧ 0 < state.spinlocks then
    some (spllower { state with
      spinlocks := state.spinlocks - 1
      held := state.held.erase splk })
  else none

/-- A call, and what it adds to the record or takes from it. -/
def next : Course Spinlock → Action Spinlock → Option (Course Spinlock)
  | ⟨state, acquired⟩, .acquire splk =>
    (spinlockAcquire state splk).map fun after => ⟨after, splk :: acquired⟩
  | ⟨state, acquired⟩, .release splk =>
    (spinlockRelease state splk).map fun after => ⟨after, acquired.erase splk⟩
  | ⟨state, acquired⟩, .splx spl => some ⟨(splx state spl).2, acquired⟩

/-- Every step keeps the count in line with the spinlocks held and the interrupts. -/
theorem next_masked (course : Course Spinlock) (action : Action Spinlock) (after : Course Spinlock)
    (masked : Masked course) (taken : next course action = some after) : Masked after := by
  obtain ⟨state, acquired⟩ := course
  obtain ⟨off, count, spinlocks, holder⟩ := masked
  dsimp only at off count spinlocks holder
  cases action with
  | acquire splk =>
    obtain ⟨_, got, rfl⟩ := Option.map_eq_some_iff.mp taken
    obtain ⟨_, rfl⟩ : splk ∉ state.held ∧ _ := by
      simpa only [spinlockAcquire, Option.ite_none_left_eq_some, Option.some.injEq] using got
    refine ⟨splraise_off off (by omega), ?_, congrArg (· + 1) spinlocks, congrArg _ holder⟩
    simp only [splraise, count, List.length_cons]
    omega
  | release splk =>
    obtain ⟨_, let_go, rfl⟩ := Option.map_eq_some_iff.mp taken
    obtain ⟨⟨member, _⟩, rfl⟩ := guard_some.mp let_go
    have length := List.length_erase_add_one (holder ▸ member)
    refine ⟨spllower_off off, ?_, ?_, congrArg (List.erase · splk) holder⟩
    · simp only [spllower, count]
      omega
    · simp only [spllower]
      omega
  | splx spl =>
    obtain rfl := Option.some.inj taken
    exact splx_masked ⟨off, count, spinlocks, holder⟩ spl

/-- After any calls, in any order: interrupts are off exactly while the count is positive, it
is the number of spinlocks acquired and not released plus one if the spl is high, each of these
spinlocks can be released, and `splx` returns a level with which a later `splx` restores the one
before it.

Proof: by induction on the run; each of the three calls changes the record and the count by the
same number. -/
theorem masked_in_every_run (course : Course Spinlock)
    (reached : Reaches next Anything Initial course) :
    Masked course ∧ 0 ≤ course.state.iplhighCount ∧
      (∀ splk ∈ course.acquired, (spinlockRelease course.state splk).isSome) ∧
      ∀ spl (later : State Spinlock), (splx course.state spl).2.curspl = spl ∧
        (splx later (splx course.state spl).1).2.curspl = course.state.curspl := by
  have masked : Masked course := reached.invariant initial_masked
    fun course action after masked _ taken => next_masked course action after masked taken
  refine ⟨masked, by have := masked.count; omega, fun splk member => ?_, fun spl later => ?_⟩
  · have positive := List.length_pos_of_mem member
    simp [spinlockRelease, masked.holder, member, masked.spinlocks, positive]
  · cases here : course.state.curspl <;> cases there : later.curspl <;> cases spl <;>
      simp [splx, here, there, spllower]

def unmasked : Course Bool :=
  ⟨⟨.none, 0, false, 0, []⟩, []⟩

/-- A spinlock is let go under a high spl, which ends under another spinlock. -/
def crossed : List (Action Bool) :=
  [.acquire false, .splx .high, .release false, .acquire true, .splx .none]

/-- One spinlock is left, interrupts are off because of it alone, and its release turns them on. -/
theorem crossed_raises_masked : ∃ course, exec next unmasked crossed = some course ∧
    course.acquired = [true] ∧ course.state.iplhighCount = 1 ∧ course.state.irqoff = true ∧
    ((spinlockRelease course.state true).map State.irqoff) = some false ∧
    Masked course ∧ 0 ≤ course.state.iplhighCount ∧
      (∀ splk ∈ course.acquired, (spinlockRelease course.state splk).isSome) ∧
      ∀ spl (later : State Bool), (splx course.state spl).2.curspl = spl ∧
        (splx later (splx course.state spl).1).2.curspl = course.state.curspl := by
  have initial : Initial unmasked := ⟨rfl, rfl, rfl, .inl ⟨rfl, rfl, rfl⟩⟩
  exact ⟨_, rfl, rfl, rfl, rfl, rfl,
    masked_in_every_run _ (reaches_of_exec Initial crossed initial rfl)⟩

end Os161.Thread.Spl
