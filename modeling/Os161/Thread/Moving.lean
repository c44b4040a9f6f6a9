import Os161.Thread.Placing

/-!
# How threads move

What each kind of step does to the invariant: a thread changes its state or its CPU and
stays where it is, goes from one list to another, is put away by `thread_switch`, is taken
up again, or is destroyed. The ways between lists are those of `Route`, and one theorem
covers all of them.
-/
namespace Os161.Thread.System

open Os161.Library.Places Os161.Library.Runs
open Function (update update_self update_of_ne update_eq_self)

/-! ## A thread changes and stays where it is -/

section States

variable {Cpu Chan Spin Thread : Type} [DecidableEq Thread] {state : State Cpu Chan Spin Thread}
  {seat : Thread → Option (Spot Cpu Chan)} {cpu : Cpu} {thread : Thread} {rest : List Thread}

/-- A thread can be created at any time: nothing refers to it yet. -/
theorem Sound.created (sound : Sound state seat) (unborn : state.life thread = .unborn)
    (tstate : ThreadState) (tcpu : Cpu) :
    Sound { state with
      tState := update state.tState thread tstate
      tCpu := update state.tCpu thread tcpu
      life := update state.life thread .created } seat := by
  obtain ⟨off, apart⟩ := sound.unstarted (Or.inl unborn)
  have seated : ∀ other spot, seat other = some spot → other ≠ thread :=
    fun other spot here => ne_of_apply_ne seat (by simp [here, off])
  refine { sound with demands := fun other => ?_, own := ?_, present := ?_, on := ?_, off := ?_ }
  · exact (sound.demands other).keep rfl rfl (fun _ => update_of_ne (apart other) _ _)
      (fun _ spot here => Or.inl here)
      (fun target here => ⟨here, update_of_ne (seated target _ here) _ _,
        fun _ marked => (update_of_ne (seated target _ here) _ _).trans marked⟩)
      (fun migrant here => ⟨here, update_of_ne (seated migrant _ here) _ _,
        fun _ current => current⟩)
  · exact fun other => (update_of_ne (apart other) _ _).trans (sound.own other)
  · exact fun other present => ⟨(sound.present other present).1,
      (update_of_ne (apart other) _ _).trans (sound.present other present).2⟩
  · intro other spot here
    obtain ⟨life, undestroyed, suits⟩ := sound.on other spot here
    have unlike := seated other spot here
    exact ⟨(update_of_ne unlike _ _).trans life, undestroyed,
      suits.keep (update_of_ne unlike _ _) (update_of_ne unlike _ _)
        fun _ _ leaving current => Or.inr ⟨current, leaving⟩⟩
  · intro other here
    obtain rfl | new := eq_or_ne other thread
    · have before := sound.off other off
      simp only [OffLists, unborn] at before
      simpa [OffLists] using before
    · have same : update state.tCpu thread tcpu other = state.tCpu other :=
        update_of_ne new _ _
      exact (sound.off other here).keep (update_of_ne new _ _) rfl fun current =>
        (congrArg state.curthread same).trans current

/-- A CPU changes the state of a thread while it holds the lock of the thread's run
queue. -/
theorem Sound.set_state (sound : Sound state seat) {tstate : ThreadState}
    (held : (state.pc cpu).lock cpu = some (state.tCpu thread))
    (demand : Demand (state.setState thread tstate) seat cpu (state.pc cpu))
    (suits : ∀ spot, seat thread = some spot → Suits (state.setState thread tstate) thread spot) :
    Sound (state.setState thread tstate) seat := by
  refine { sound with demands := fun other => ?_, on := ?_ }
  · obtain rfl | mine := eq_or_ne other cpu
    · exact demand
    have free : ∀ queue, (state.pc other).lock other = some queue → queue ≠ state.tCpu thread := by
      rintro queue locked rfl
      exact mine (sound.one_holder locked held)
    refine (sound.demands other).keep rfl rfl (fun readied => ?_) (fun _ spot here => Or.inl here)
      (fun target here => ⟨here, rfl, fun locked marked => ?_⟩)
      (fun migrant here => ⟨here, rfl, fun _ current => current⟩)
    · have different : state.curthread other ≠ thread := by
        intro current
        refine free other (by rw [readied]; rfl) ?_
        rw [← current, sound.own]
      exact update_of_ne different _ _
    · have different : target ≠ thread := by
        rintro rfl
        exact free _ locked rfl
      exact (update_of_ne different _ _).trans marked
  · intro other spot here
    obtain ⟨life, undestroyed, before⟩ := sound.on other spot here
    refine ⟨life, undestroyed, ?_⟩
    obtain rfl | changed := eq_or_ne other thread
    · exact suits spot here
    · exact before.keep rfl (update_of_ne changed _ _) fun _ _ there current =>
        Or.inr ⟨current, there⟩

/-- The current thread of a CPU that holds its run queue's lock is on no list. -/
theorem Sound.set_current (sound : Sound state seat) (tstate : ThreadState)
    (present : Present state cpu) (held : (state.pc cpu).lock cpu = some cpu)
    (demand : Demand (state.setState (state.curthread cpu) tstate) seat cpu (state.pc cpu)) :
    Sound (state.setState (state.curthread cpu) tstate) seat := by
  refine sound.set_state (held.trans (congrArg some (sound.own cpu).symm)) demand fun spot here => ?_
  rw [(sound.present cpu present).1] at here
  cases here

variable [DecidableEq Cpu]

/-- `thread_consider_migration` gives a thread to another CPU. -/
theorem Sound.assigned (sound : Sound state seat) {targetcpu : Cpu} {todo : List Cpu}
    {oneShare toSend : Nat} (there : state.pc cpu = .handing targetcpu todo oneShare toSend)
    (first : state.nodes (.hand .t cpu) = thread :: rest) :
    Sound ({ state with tCpu := update state.tCpu thread targetcpu }.goto cpu
      (.assigned targetcpu todo oneShare toSend)) seat := by
  have here := sound.head_seat first
  have demand := sound.demands cpu
  rw [there] at demand
  obtain ⟨mine, unlike⟩ := demand thread here
  have passes : Passes state cpu (.assigned targetcpu todo oneShare toSend) :=
    passes_of_pcs there rfl
  have apart : ∀ other, state.curthread other ≠ thread := by
    rintro other rfl
    have same : other = cpu := (sound.own other).symm.trans mine
    exact unlike (by rw [same])
  refine ⟨sound.arranged, sound.hands_goto (by rw [there]; rfl),
    sound.locks_goto (by rw [there]; rfl), demands_update ?_ fun other different => ?_, ?_, ?_, ?_,
    ?_, ?_, ?_⟩
  · intro migrant seated
    obtain rfl := (sound.hand_alone first).2 migrant seated
    exact ⟨update_self .., apart⟩
  · refine (sound.demands other).keep rfl rfl (fun _ => rfl) (fun _ spot seated => Or.inl seated) ?_ ?_
    · intro target seated
      have different : target ≠ thread := ne_of_apply_ne seat (by simp [here, seated])
      exact ⟨seated, update_of_ne different _ _, fun _ marked => marked⟩
    · intro migrant seated
      have elsewhere : migrant ≠ thread := ne_of_apply_ne seat (by simp [here, seated, different])
      exact ⟨seated, update_of_ne elsewhere _ _, fun _ current => current⟩
  · intro other
    exact (update_of_ne (apart other) _ _).trans (sound.own other)
  · exact fun other present => sound.present other ((passes.present_iff other).mp present)
  · exact fun other away => sound.away other (away ∘ (passes.present_iff other).mpr)
  · intro other spot seated
    obtain ⟨life, undestroyed, suits⟩ := sound.on other spot seated
    refine ⟨life, undestroyed, ?_⟩
    obtain rfl | moved := eq_or_ne other thread
    · rw [here] at seated
      obtain rfl := Option.some.inj seated
      exact suits
    · refine suits.keep (update_of_ne moved _ _) rfl fun owner _ leaving current =>
        Or.inr ⟨current, ?_⟩
      have unlike : owner ≠ cpu := fun same => passes.settled (same ▸ leaving)
      exact (update_of_ne unlike _ _).trans leaving
  · intro other seated
    have unlike : other ≠ thread := ne_of_apply_ne seat (by simp [here, seated])
    have same : update state.tCpu thread targetcpu other = state.tCpu other :=
      update_of_ne unlike _ _
    exact (sound.off other seated).keep rfl rfl fun current =>
      (congrArg state.curthread same).trans current
  · exact fun other clean zombie => sound.swept_after passes clean.1 clean.2 zombie

/-- `thread_switch` sets the state of the thread it has put away. -/
theorem Sound.leave (sound : Sound state seat) {newstate : NewState Chan}
    (there : state.pc cpu = .leaving newstate) :
    Sound ({ state.setState (state.curthread cpu) newstate.threadState with
      isidle := update state.isidle cpu true }.goto cpu .looking) seat := by
  have demand := sound.demands cpu
  rw [there] at demand
  have set : Sound (state.setState (state.curthread cpu) newstate.threadState) seat := by
    refine sound.set_state (by rw [there, sound.own]; rfl) ?_ ?_
    · rw [there]
      cases newstate <;> exact demand
    · intro spot here
      cases newstate with
      | ready =>
        rw [demand.2] at here
        obtain rfl := Option.some.inj here
        exact ⟨sound.own cpu, update_self ..⟩
      | sleep wc =>
        obtain ⟨_, place, seated, dormant⟩ := demand
        rw [seated] at here
        obtain rfl := Option.some.inj here
        exact suits_of_dormant dormant
      | zombie =>
        rw [demand.2] at here
        obtain rfl := Option.some.inj here
        exact ⟨sound.own cpu, Or.inl (update_self ..)⟩
  refine set.settle there fun thread here => ?_
  obtain ⟨_, _, _, zombie | ⟨current, leaving⟩⟩ := set.on thread _ here
  · exact zombie
  · have same : newstate = .zombie := by
      have both := there.symm.trans leaving
      exact Pc.leaving.inj both
    subst same
    subst current
    exact update_self ..

end States

/-! ## A thread moves from one list to another -/

section Routes

variable {Cpu Chan : Type} {cpu : Cpu} {locked : Option Cpu} {source dest : Spot Cpu Chan}

section

variable (route : Route cpu locked source dest)

include route

theorem Route.apart : source ≠ dest := by
  cases route <;> simp

theorem Route.life : dest.life = source.life := by
  cases route <;> rfl

theorem Route.not_zombies (other : Cpu) : dest ≠ .zombies other := by
  cases route <;> simp

theorem Route.hand_source {which : Variable} {owner : Cpu} (hand : source = .hand which owner) :
    owner = cpu := by
  cases route <;> simp_all

theorem Route.hand_dest {which : Variable} {owner : Cpu} (hand : dest = .hand which owner) :
    owner = cpu := by
  cases route <;> simp_all

/-- A thread that sleeps or is being woken up gets to a run queue only under its lock. -/
theorem Route.dormant (dormant : source.Dormant) :
    dest.Dormant ∨ ∃ queue, dest = .runqueue queue ∧ locked = some queue := by
  cases route with
  | gather wc | take wc | dispatch => exact Or.inl trivial
  | queue targetcpu held => exact Or.inr ⟨targetcpu, rfl, held⟩
  | pick | bury | collect | choose | send targetcpu held | giveBack held => exact dormant.elim

end

end Routes

section Moves

variable {Cpu Chan Spin Thread : Type} [DecidableEq Thread] {state : State Cpu Chan Spin Thread}
  {seat : Thread → Option (Spot Cpu Chan)} {cpu : Cpu} {pc : Pc Cpu Chan}
  {source dest : Spot Cpu Chan} {thread : Thread} {rest arrived : List Thread}

/-- Where a thread is after one thread has been moved. -/
theorem moved_cases {mover : Thread} {whereto found : Option (Spot Cpu Chan)}
    (there : update seat mover whereto thread = found) :
    (thread = mover ∧ whereto = found) ∨ (thread ≠ mover ∧ seat thread = found) := by
  obtain rfl | moved := eq_or_ne thread mover
  · rw [update_self] at there
    exact Or.inl ⟨rfl, there⟩
  · rw [update_of_ne moved] at there
    exact Or.inr ⟨moved, there⟩

theorem moved_elsewhere {mover : Thread} {whereto found : Option (Spot Cpu Chan)}
    (outside : whereto ≠ found) (there : update seat mover whereto thread = found) :
    thread ≠ mover ∧ seat thread = found :=
  (moved_cases there).resolve_left fun arrived => outside arrived.2

/-- What another CPU relies on when a thread that is not its own is moved to somewhere
that is not one of its local variables. -/
theorem Sound.demand_moved (sound : Sound state seat) {whereto : Option (Spot Cpu Chan)} {other : Cpu}
    (unlike : state.curthread other ≠ thread) (outside : ∀ which, whereto ≠ some (.hand which other)) :
    Demand state (update seat thread whereto) other (state.pc other) := by
  refine (sound.demands other).keep rfl rfl (fun _ => rfl) ?_ ?_ ?_
  · intro _ spot seated
    exact Or.inl ((update_of_ne unlike _ _).trans seated)
  · intro target seated
    obtain ⟨_, before⟩ := moved_elsewhere (outside _) seated
    exact ⟨before, rfl, fun _ marked => marked⟩
  · intro migrant seated
    obtain ⟨_, before⟩ := moved_elsewhere (outside _) seated
    exact ⟨before, rfl, fun _ current => current⟩

/-- What another CPU relies on when a thread is moved. -/
theorem Sound.demand_transfer (sound : Sound state seat)
    (route : Route cpu ((state.pc cpu).lock cpu) source dest) (here : seat thread = some source)
    (suits : Suits state thread dest)
    (alone : ¬ source.Dormant → ∀ other, other ≠ cpu → state.curthread other ≠ thread)
    {other : Cpu} (apart : other ≠ cpu) :
    Demand state (update seat thread (some dest)) other (state.pc other) := by
  have outside : ∀ which, some dest ≠ some (.hand which other) :=
    fun which hand => apart (route.hand_dest (Option.some.inj hand))
  by_cases current : state.curthread other = thread
  · refine (sound.demands other).keep rfl rfl (fun _ => rfl) ?_ ?_ ?_
    · intro held spot there
      have dormant : source.Dormant := by
        by_contra awake
        exact alone awake other apart current
      rw [current, here] at there
      obtain rfl := Option.some.inj there
      rcases route.dormant dormant with still | ⟨queue, rfl, locked⟩
      · refine Or.inr ⟨dormant, dest, ?_, still⟩
        rw [current, update_self]
      · have same : queue = other := by
          rw [← suits.1, ← current, sound.own]
        subst same
        exact absurd (sound.one_holder held locked) apart
    · intro target there
      obtain ⟨_, before⟩ := moved_elsewhere (outside _) there
      exact ⟨before, rfl, fun _ marked => marked⟩
    · intro migrant there
      obtain ⟨_, before⟩ := moved_elsewhere (outside _) there
      exact ⟨before, rfl, fun _ current => current⟩
  · exact sound.demand_moved current outside

variable [DecidableEq Cpu]

/-- A CPU that has just put its current thread away as a zombie is not done with
`exorcise`, and another CPU's zombies are the same as before. -/
theorem Sound.swept_put_away (sound : Sound state seat) {newstate : NewState Chan}
    (there : state.pc cpu = newstate.before) (other : Cpu)
    (clean : Swept (state.goto cpu newstate.after) other) (thread : Thread) :
    update seat (state.curthread cpu) (some (newstate.spot cpu)) thread ≠
      some (.zombies other) := by
  intro here
  obtain ⟨idle, swept⟩ := clean
  obtain rfl | mine := eq_or_ne other cpu
  · simp only [State.goto, update_self] at swept
    cases newstate with
    | ready | zombie => cases swept
    | sleep wc =>
      obtain ⟨_, before⟩ := moved_elsewhere (by simp [NewState.spot]) here
      exact sound.swept other ⟨idle, by rw [there]; rfl⟩ thread before
  · simp only [State.goto, update_of_ne mine] at swept
    rcases moved_cases here with ⟨_, arrival⟩ | ⟨_, before⟩
    · cases newstate with
      | ready | sleep wc => cases arrival
      | zombie =>
        cases arrival
        exact mine rfl
    · exact sound.swept other ⟨idle, swept⟩ thread before

variable [DecidableEq Chan]

/-- A CPU moves a thread from one list or variable to another. -/
theorem Sound.transfer (sound : Sound state seat)
    (route : Route cpu ((state.pc cpu).lock cpu) source dest)
    (left : (state.nodes source).Perm (thread :: rest))
    (joined : arrived.Perm (state.nodes dest ++ [thread])) (passes : Passes state cpu pc)
    (same : pc.lock cpu = (state.pc cpu).lock cpu) (suits : Suits state thread dest)
    (alone : ¬ source.Dormant → ∀ other, other ≠ cpu → state.curthread other ≠ thread)
    (demand : Demand state (update seat thread (some dest)) cpu pc)
    (hands : ∀ which, (update (update state.nodes source rest) dest arrived
      (.hand which cpu)).length = pc.held which) :
    Sound ((state.transfer source dest rest arrived).goto cpu pc)
      (update seat thread (some dest)) := by
  have here : seat thread = some source :=
    ((sound.arranged source).members thread).mp (left.mem_iff.mpr List.mem_cons_self)
  obtain ⟨life, undestroyed, _⟩ := sound.on thread source here
  refine ⟨sound.arranged.transfer route.apart left joined,
    sound.hands_update hands fun other which mine => ?_, sound.locks_goto same,
    demands_update demand fun other => sound.demand_transfer route here suits alone, sound.own,
    ?_, ?_, ?_, ?_, ?_⟩
  · have fromElsewhere : Spot.hand which other ≠ source :=
      fun hand => mine (route.hand_source hand.symm)
    have toElsewhere : Spot.hand which other ≠ dest :=
      fun hand => mine (route.hand_dest hand.symm)
    exact (update_of_ne toElsewhere _ _).trans (update_of_ne fromElsewhere _ _)
  · intro other there
    obtain ⟨off, started⟩ := sound.present other ((passes.present_iff other).mp there)
    have different : state.curthread other ≠ thread := ne_of_apply_ne seat (by simp [here, off])
    exact ⟨(update_of_ne different _ _).trans off, started⟩
  · intro other gone
    have before := sound.away other (gone ∘ (passes.present_iff other).mpr)
    by_cases current : state.curthread other = thread
    · simp [State.goto, State.transfer, current]
    · simpa [State.goto, State.transfer, current] using before
  · intro other spot there
    rcases moved_cases there with ⟨rfl, arrival⟩ | ⟨_, before⟩
    · obtain rfl := Option.some.inj arrival
      exact ⟨life.trans route.life.symm, undestroyed, suits_goto passes.settled suits⟩
    · obtain ⟨life, undestroyed, suits⟩ := sound.on other spot before
      exact ⟨life, undestroyed, suits_goto passes.settled suits⟩
  · intro other off
    obtain ⟨_, before⟩ := moved_elsewhere (by simp) off
    exact sound.off other before
  · intro other clean zombie there
    rcases moved_cases there with ⟨_, arrival⟩ | ⟨_, before⟩
    · exact route.not_zombies other (Option.some.inj arrival)
    · exact sound.swept_after passes clean.1 clean.2 zombie before

section

variable (sound : Sound state seat) (pc : Pc Cpu Chan) {before : Pc Cpu Chan}
  (there : state.pc cpu = before) (passes : before.passesTo pc = true)

include sound there passes

/-- A CPU takes the thread at the head of a list into a local variable. -/
theorem Sound.take {which : Variable} (empty : before.inHand = none) (full : pc.inHand = some which)
    (same : pc.lock cpu = before.lock cpu)
    (route : Route cpu (before.lock cpu) source (.hand which cpu))
    (first : state.nodes source = thread :: rest) (suits : Suits state thread (.hand which cpu))
    (alone : ¬ source.Dormant → ∀ other, other ≠ cpu → state.curthread other ≠ thread)
    (demand : Demand state (update seat thread (some (.hand which cpu))) cpu pc) :
    Sound ((state.shift source (.hand which cpu) thread rest).goto cpu pc)
      (update seat thread (some (.hand which cpu))) := by
  have none : ∀ used, (state.nodes (.hand used cpu)).length = 0 := by
    intro used
    rw [sound.hands cpu used, Pc.held, there, empty]
    rfl
  refine sound.transfer (there ▸ route) (by rw [first]) (List.Perm.refl _)
    (passes_of_pcs there passes) (there ▸ same) suits alone demand ?_
  intro used
  obtain rfl | target := eq_or_ne used which
  · rw [update_self, List.length_append, none used, Pc.held, full]
    simp
  have elsewhere : Spot.hand used cpu ≠ source := by
    intro hand
    have length := none used
    rw [hand, first] at length
    cases length
  rw [update_of_ne (by simpa using target), update_of_ne elsewhere, none used, Pc.held, full]
  simp [Ne.symm target]

/-- A CPU puts the thread in a local variable at the tail of a run queue. -/
theorem Sound.put {which : Variable} (full : before.inHand = some which) (empty : pc.inHand = none)
    (same : pc.lock cpu = before.lock cpu) {queue : Cpu}
    (route : Route cpu (before.lock cpu) (Spot.hand which cpu : Spot Cpu Chan) (.runqueue queue))
    (first : state.nodes (.hand which cpu) = thread :: rest)
    (suits : Suits state thread (.runqueue queue))
    (alone : ¬ (Spot.hand which cpu : Spot Cpu Chan).Dormant →
      ∀ other, other ≠ cpu → state.curthread other ≠ thread)
    (demand : Demand state (update seat thread (some (.runqueue queue))) cpu pc) :
    Sound ((state.shift (.hand which cpu) (.runqueue queue) thread rest).goto cpu pc)
      (update seat thread (some (.runqueue queue))) := by
  refine sound.transfer (there ▸ route) (by rw [first]) (List.Perm.refl _)
    (passes_of_pcs there passes) (there ▸ same) suits alone demand ?_
  intro used
  rw [update_of_ne (by simp), Pc.held, empty]
  obtain rfl | source := eq_or_ne used which
  · rw [update_self, (sound.hand_alone first).1]
    rfl
  · rw [update_of_ne (by simpa using source), sound.hands cpu used, Pc.held, there, full]
    simp [Ne.symm source]

theorem Sound.relay (hand : pc.inHand = before.inHand) (same : pc.lock cpu = before.lock cpu)
    (route : Route cpu (before.lock cpu) source dest)
    (lists : ∀ used, source ≠ .hand used cpu ∧ dest ≠ .hand used cpu)
    (left : (state.nodes source).Perm (thread :: rest))
    (joined : arrived.Perm (state.nodes dest ++ [thread])) (suits : Suits state thread dest)
    (alone : ¬ source.Dormant → ∀ other, other ≠ cpu → state.curthread other ≠ thread)
    (demand : Demand state (update seat thread (some dest)) cpu pc) :
    Sound ((state.transfer source dest rest arrived).goto cpu pc)
      (update seat thread (some dest)) := by
  refine sound.transfer (there ▸ route) left joined (passes_of_pcs there passes) (there ▸ same)
    suits alone demand ?_
  intro used
  rw [update_of_ne (Ne.symm (lists used).2), update_of_ne (Ne.symm (lists used).1),
    sound.hands cpu used, Pc.held, Pc.held, hand, there]

end

/-! ## The current thread is put away -/

/-- `thread_switch` puts the current thread on a list. -/
theorem Sound.put_away (sound : Sound state seat) (newstate : NewState Chan)
    (there : state.pc cpu = newstate.before) :
    Sound ({ state.join (newstate.spot cpu) (state.curthread cpu) with
        life := update state.life (state.curthread cpu) (newstate.spot cpu).life }.goto cpu
          newstate.after)
      (update seat (state.curthread cpu) (some (newstate.spot cpu))) := by
  have demand := sound.demands cpu
  rw [there] at demand
  have present := sound.present_before there
  have awake := present.1
  have settled : state.pc cpu ≠ .leaving .zombie := by
    rw [there]
    cases newstate <;> simp [NewState.before]
  obtain ⟨off, started⟩ := sound.present cpu present
  have undestroyed := sound.current_undestroyed cpu
  have apart : ∀ other, other ≠ cpu → state.curthread other ≠ state.curthread cpu :=
    fun other different same => different (sound.one_cpu same)
  have elsewhere : ∀ which other, Spot.hand which other ≠ newstate.spot cpu := by
    cases newstate <;> simp [NewState.spot]
  refine ⟨sound.arranged.enter off, sound.hands_update (fun which => ?_) fun other which _ => ?_, ?_,
    demands_update ?_ fun other different => ?_, sound.own, ?_, ?_, ?_, ?_, ?_⟩
  · simp only [State.goto, State.join]
    rw [update_of_ne (elsewhere which cpu), sound.hands cpu which, there]
    cases newstate <;> rfl
  · exact update_of_ne (elsewhere which other) _ _
  · refine sound.locks_goto ?_
    rw [there]
    cases newstate <;> rfl
  · cases newstate with
    | ready | zombie => exact ⟨awake, update_self ..⟩
    | sleep wc => exact ⟨awake, .wchan wc, update_self .., trivial⟩
  · refine sound.demand_moved (apart other different) fun which hand => ?_
    exact elsewhere which other (Option.some.inj hand).symm
  · intro other here
    obtain rfl | mine := eq_or_ne other cpu
    · have still := here.2
      simp only [State.goto, update_self] at still
      cases newstate <;> cases still
    · have before : Present state other := by
        simpa [Present, State.goto, State.join, mine] using here
      obtain ⟨offBefore, startedBefore⟩ := sound.present other before
      exact ⟨(update_of_ne (apart other mine) _ _).trans offBefore,
        (update_of_ne (apart other mine) _ _).trans startedBefore⟩
  · intro other gone
    obtain rfl | mine := eq_or_ne other cpu
    · simp [State.goto, State.join]
    · have before : ¬ Present state other := by
        simpa [Present, State.goto, State.join, mine] using gone
      have current := update_of_ne (apart other mine) (some (newstate.spot cpu)) seat
      exact fun off => sound.away other before (current.symm.trans off)
  · intro thread spot here
    rcases moved_cases here with ⟨rfl, arrival⟩ | ⟨other, before⟩
    · obtain rfl := Option.some.inj arrival
      refine ⟨update_self .., undestroyed, ?_⟩
      cases newstate with
      | ready => exact ⟨sound.own cpu, demand.2⟩
      | sleep wc => trivial
      | zombie => exact ⟨sound.own cpu, Or.inr ⟨rfl, update_self ..⟩⟩
    · obtain ⟨life, undestroyed, suits⟩ := sound.on thread spot before
      exact ⟨(update_of_ne other _ _).trans life, undestroyed, suits_goto settled suits⟩
  · intro thread here
    obtain ⟨other, before⟩ := moved_elsewhere (by simp) here
    exact (sound.off thread before).keep (update_of_ne other _ _) rfl fun current => current
  · exact sound.swept_put_away there

/-- `thread_switch` puts a current thread that has not exited on a list. -/
theorem Sound.put_away_alive (sound : Sound state seat) (newstate : NewState Chan)
    (there : state.pc cpu = newstate.before) (alive : (newstate.spot cpu).life = .started) :
    Sound ((state.join (newstate.spot cpu) (state.curthread cpu)).goto cpu newstate.after)
      (update seat (state.curthread cpu) (some (newstate.spot cpu))) := by
  have placed := sound.put_away newstate there
  rw [alive, ← (sound.present cpu (sound.present_before there)).2, update_eq_self] at placed
  exact placed

/-! ## The other steps -/

/-- The thread taken from the run queue becomes the current one. -/
theorem Sound.switched (sound : Sound state seat) (there : state.pc cpu = .picked)
    (first : state.nodes (.hand .next cpu) = thread :: rest) :
    Sound ({ state with
        nodes := update state.nodes (.hand .next cpu) rest
        isidle := update state.isidle cpu false
        curthread := update state.curthread cpu thread }.goto cpu .switched)
      (update seat thread none) := by
  have here := sound.head_seat first
  obtain ⟨life, undestroyed, suits⟩ := sound.on thread _ here
  have started : state.life thread = .started := life
  have assigned : state.tCpu thread = cpu := suits
  have idle : state.isidle cpu = true := by simpa [there, Demand] using sound.demands cpu
  have gone : ¬ Present state cpu := by
    rintro ⟨awake, _⟩
    rw [idle] at awake
    cases awake
  have apart := sound.not_current assigned
  refine ⟨sound.arranged.exit first, sound.hands_exit first there rfl rfl,
    sound.locks_goto (by rw [there]; rfl),
    demands_update (update_self ..) fun other different => ?_, ?_, ?_, ?_, ?_, ?_, ?_⟩
  · refine (sound.demands other).keep (update_of_ne different _ _)
      (update_of_ne different _ _) (fun _ => rfl) ?_ ?_ ?_
    · intro _ spot seated
      exact Or.inl ((update_of_ne (apart other different) _ _).trans seated)
    · intro target seated
      obtain ⟨_, before⟩ := moved_elsewhere (by simp) seated
      exact ⟨before, rfl, fun _ marked => marked⟩
    · intro migrant seated
      obtain ⟨unlike, before⟩ := moved_elsewhere (by simp) seated
      refine ⟨before, rfl, fun holder current => ?_⟩
      obtain rfl | mine := eq_or_ne holder cpu
      · simp only [State.goto, update_self] at current
        exact absurd current.symm unlike
      · simpa [State.goto, mine] using current
  · intro other
    obtain rfl | mine := eq_or_ne other cpu
    · simpa [State.goto] using assigned
    · simpa [State.goto, mine] using sound.own other
  · intro other present
    obtain rfl | mine := eq_or_ne other cpu
    · simpa [State.goto] using started
    · have before : Present state other := by simpa [Present, State.goto, mine] using present
      simpa [State.goto, mine, apart other mine] using sound.present other before
  · intro other away
    obtain rfl | mine := eq_or_ne other cpu
    · refine absurd ?_ away
      simp [Present, State.goto, Pc.putAway]
    · have before : ¬ Present state other := by simpa [Present, State.goto, mine] using away
      simpa [State.goto, mine, apart other mine] using sound.away other before
  · intro other spot seated
    obtain ⟨_, before⟩ := moved_elsewhere (by simp) seated
    obtain ⟨life, undestroyed, suits⟩ := sound.on other spot before
    refine ⟨life, undestroyed, suits.keep rfl rfl fun owner _ leaving current => Or.inr ?_⟩
    have different : owner ≠ cpu := ne_of_apply_ne state.pc (by simp [there, leaving])
    exact ⟨(update_of_ne different _ _).trans current, (update_of_ne different _ _).trans leaving⟩
  · intro other seated
    rcases moved_cases seated with ⟨rfl, _⟩ | ⟨unlike, before⟩
    · simp [OffLists, State.goto, started, assigned, undestroyed]
    refine (sound.off other before).keep rfl rfl fun current => ?_
    have different : state.tCpu other ≠ cpu := by
      intro mine
      rw [mine] at current
      exact sound.away cpu gone (current ▸ before)
    exact (update_of_ne different _ _).trans current
  · intro other clean zombie seated
    obtain ⟨_, before⟩ := moved_elsewhere (by simp) seated
    obtain rfl | mine := eq_or_ne other cpu
    · have swept := clean.2
      simp [State.goto, Pc.swept] at swept
    · exact sound.swept other (by simpa [Swept, State.goto, mine] using clean) zombie before

/-- A zombie that is destroyed is on no list any more. -/
theorem Sound.destroyed (sound : Sound state seat) (there : state.pc cpu = .destroying)
    (first : state.nodes (.hand .z cpu) = thread :: rest) :
    Sound ({ state with
        nodes := update state.nodes (.hand .z cpu) rest
        destroyed := update state.destroyed thread (state.destroyed thread + 1) }.goto cpu
          .exorcising)
      (update seat thread none) := by
  have here := sound.head_seat first
  obtain ⟨life, undestroyed, suits⟩ := sound.on thread _ here
  have exited : state.life thread = .exited := life
  have awake : state.isidle cpu = false := by simpa [there, Demand] using sound.demands cpu
  have passes : Passes state cpu .exorcising := passes_of_pcs there rfl
  have apart : ∀ other, state.curthread other ≠ thread := by
    rintro other rfl
    have mine : other = cpu := (sound.own other).symm.trans suits.1
    subst mine
    have present : Present state other := ⟨awake, by rw [there]; rfl⟩
    rw [(sound.present other present).1] at here
    cases here
  refine ⟨sound.arranged.exit first, sound.hands_exit first there rfl rfl,
    sound.locks_goto (by rw [there]; rfl), demands_update awake fun other different => ?_,
    sound.own, ?_, ?_, ?_, ?_, ?_⟩
  · exact sound.demand_moved (apart other) (by simp)
  · intro other present
    obtain ⟨off, started⟩ := sound.present other ((passes.present_iff other).mp present)
    exact ⟨(update_of_ne (apart other) _ _).trans off, started⟩
  · intro other away off
    refine sound.away other (away ∘ (passes.present_iff other).mpr) ?_
    exact (update_of_ne (apart other) _ _).symm.trans off
  · intro other spot seated
    obtain ⟨unlike, before⟩ := moved_elsewhere (by simp) seated
    obtain ⟨life, undestroyed, suits⟩ := sound.on other spot before
    exact ⟨life, (update_of_ne unlike _ _).trans undestroyed, suits_goto passes.settled suits⟩
  · intro other seated
    rcases moved_cases seated with ⟨rfl, _⟩ | ⟨unlike, before⟩
    · simp [OffLists, State.goto, exited, undestroyed]
    · exact (sound.off other before).keep rfl (update_of_ne unlike _ _) fun current => current
  · intro other clean zombie seated
    obtain ⟨_, before⟩ := moved_elsewhere (by simp) seated
    exact sound.swept_after passes clean.1 clean.2 zombie before

/-- `thread_fork` is about to make its new thread runnable. -/
theorem Sound.started (sound : Sound state seat) (there : state.pc cpu = .free)
    (created : state.life thread = .created) :
    Sound ({ state.join (.hand .target cpu) thread with
        life := update state.life thread .started }.goto cpu (.waiting (state.tCpu thread)))
      (update seat thread (some (.hand .target cpu))) := by
  obtain ⟨off, apart⟩ := sound.unstarted (Or.inr created)
  have passes : Passes state cpu (.waiting (state.tCpu thread)) := passes_of_pcs there rfl
  have unused : (state.pc cpu).inHand ≠ some .target := by simp [there, Pc.inHand]
  have empty : state.nodes (.hand .target cpu) = [] := by
    have length := sound.hands cpu .target
    rwa [Pc.held, if_neg unused, List.length_eq_zero_iff] at length
  refine ⟨sound.arranged.enter off, sound.hands_update (fun which => ?_) fun other which mine => ?_,
    sound.locks_goto (by rw [there]; rfl), demands_update ?_ fun other different => ?_, sound.own,
    ?_, ?_, ?_, ?_, ?_⟩
  · by_cases target : which = .target
    · simp [State.goto, State.join, target, empty, Pc.held, Pc.inHand]
    · have before := sound.hands cpu which
      rw [there] at before
      simpa [State.goto, State.join, target, Pc.held, Pc.inHand, Ne.symm target] using before
  · exact update_of_ne (by simp [mine]) _ _
  · intro target seated
    rcases moved_cases seated with ⟨rfl, _⟩ | ⟨_, before⟩
    · rfl
    · exact absurd before (sound.hand_empty unused target)
  · exact sound.demand_moved (apart other) (by simp [Ne.symm different])
  · intro other present
    obtain ⟨offBefore, started⟩ := sound.present other ((passes.present_iff other).mp present)
    exact ⟨(update_of_ne (apart other) _ _).trans offBefore,
      (update_of_ne (apart other) _ _).trans started⟩
  · intro other away offAfter
    refine sound.away other (away ∘ (passes.present_iff other).mpr) ?_
    exact (update_of_ne (apart other) _ _).symm.trans offAfter
  · intro other spot seated
    rcases moved_cases seated with ⟨rfl, arrival⟩ | ⟨unlike, before⟩
    · obtain rfl := Option.some.inj arrival
      have before := sound.off other off
      simp only [OffLists, created] at before
      exact ⟨update_self .., before, trivial⟩
    · obtain ⟨life, undestroyed, suits⟩ := sound.on other spot before
      exact ⟨(update_of_ne unlike _ _).trans life, undestroyed, suits_goto passes.settled suits⟩
  · intro other seated
    obtain ⟨unlike, before⟩ := moved_elsewhere (by simp) seated
    exact (sound.off other before).keep (update_of_ne unlike _ _) rfl fun current => current
  · intro other clean zombie seated
    obtain ⟨_, before⟩ := moved_elsewhere (by simp) seated
    exact sound.swept_after passes clean.1 clean.2 zombie before

end Moves

end Os161.Thread.System
