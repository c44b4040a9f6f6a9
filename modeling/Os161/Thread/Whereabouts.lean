import Os161.Thread.Moving

/-!
# Threads do not get lost

Every step of every CPU keeps the invariant, so it holds after any interleaving of thread
creation, context switches, wake-ups and migration, on any number of CPUs. In particular a
thread is never the current thread of two CPUs, is on at most one list, and is on one
unless it is a current thread, a CPU has it in a local variable, or it has been destroyed.
-/
namespace Os161.Thread.System

open Os161.Library.Places Os161.Library.Runs

/-- There is nobody left to send to, or nothing to send, or a next CPU. -/
theorem sending_cases {Cpu : Type} (todo : List Cpu) (toSend : Nat) :
    (todo = [] ∨ toSend = 0) ∨ ∃ c rest left, todo = c :: rest ∧ toSend = left + 1 := by
  cases todo with
  | nil => exact Or.inl (Or.inl rfl)
  | cons c rest =>
    cases toSend with
    | zero => exact Or.inl (Or.inr rfl)
    | succ left => exact Or.inr ⟨c, rest, left, rfl, rfl⟩

section Steps

variable {Cpu Chan Spin Thread : Type} [DecidableEq Cpu] [DecidableEq Chan] [DecidableEq Thread]
  {state after : State Cpu Chan Spin Thread} {seat : Thread → Option (Spot Cpu Chan)} {cpu : Cpu}

variable {allcpus : List Cpu} {guard : Chan → Spin}

/-- Every step of `thread_switch` keeps each thread in one seat. One case per place. -/
theorem go_switch_sound [DecidableEq Spin] (sound : Sound state seat)
    (taken : state.goSwitch guard cpu = some after) : ∃ moved, Sound after moved := by
  have demand := sound.demands cpu
  cases there : state.pc cpu with
    (rw [there] at demand
     simp only [State.goSwitch, there, Option.some.injEq, reduceCtorEq] at taken)
  | free =>
    split at taken
    case isTrue idle => exact ⟨seat, sound.lock .looking there rfl rfl rfl rfl idle taken⟩
    case isFalse => cases taken
  | entered newstate =>
    cases newstate with simp only [Option.some.injEq] at taken
    | ready =>
      split at taken
      case isTrue =>
        cases taken
        exact ⟨seat, sound.unlock .free there rfl rfl rfl rfl trivial⟩
      case isFalse =>
        cases taken
        have marked := sound.set_current .ready ⟨demand, by rw [there]; rfl⟩ (by rw [there]; rfl)
          (by rw [there]; exact demand)
        exact ⟨seat, marked.goto .readied there rfl rfl rfl ⟨demand, Function.update_self ..⟩⟩
    | sleep wc =>
      subst taken
      exact ⟨_, sound.put_away_alive (.sleep wc) there rfl⟩
    | zombie =>
      subst taken
      exact ⟨_, sound.put_away .zombie there⟩
  | readied =>
    subst taken
    exact ⟨_, sound.put_away_alive .ready there rfl⟩
  | listed wc =>
    subst taken
    exact ⟨seat, (sound.spin).goto (.leaving (.sleep wc)) there rfl rfl rfl demand⟩
  | leaving newstate =>
    subst taken
    exact ⟨seat, sound.leave there⟩
  | looking =>
    split at taken
    case h_1 =>
      cases taken
      have idle : state.isidle cpu = true := demand
      have passes : Passes state cpu .free :=
        ⟨by rw [there]; rfl, by simp [there], by simp [idle]⟩
      exact ⟨seat, sound.pass passes (by rw [there]; rfl) trivial
        (sound.locks_unlock (by rw [there]; rfl) rfl)⟩
    case h_2 next rest first =>
      cases taken
      obtain ⟨_, _, assigned, _⟩ := sound.on next _ (sound.head_seat first)
      exact ⟨_, sound.take .picked there rfl rfl rfl rfl .pick first assigned
        (fun _ => sound.not_current assigned) demand⟩
  | picked =>
    split at taken
    case h_1 => cases taken
    case h_2 next rest first =>
      cases taken
      exact ⟨_, sound.switched there first⟩
  | switched =>
    subst taken
    have running := sound.set_current .run ⟨demand, by rw [there]; rfl⟩ (by rw [there]; rfl)
      (by rw [there]; exact demand)
    exact ⟨seat, running.goto .resumed there rfl rfl rfl demand⟩
  | resumed =>
    subst taken
    exact ⟨seat, sound.unlock .exorcising there rfl rfl rfl rfl demand⟩
  | exorcising =>
    split at taken
    case h_1 empty =>
      cases taken
      have passes : Passes state cpu .free :=
        ⟨by rw [there]; rfl, by simp [there], fun _ _ => Or.inr empty⟩
      exact ⟨seat, sound.pass passes (by rw [there]; rfl) trivial
        (sound.locks_goto (by rw [there]; rfl))⟩
    case h_2 z rest first =>
      cases taken
      obtain ⟨_, _, assigned, zombie⟩ := sound.on z _ (sound.head_seat first)
      have dead : state.tState z = .zombie := zombie.resolve_right fun leaving => by
        rw [there] at leaving
        cases leaving.2
      exact ⟨_, sound.take .destroying there rfl rfl rfl rfl .bury first ⟨assigned, dead⟩
        (fun _ => sound.not_current assigned) demand⟩
  | destroying =>
    split at taken
    case h_1 => cases taken
    case h_2 z rest first =>
      split at taken
      case isTrue =>
        cases taken
        exact ⟨_, sound.destroyed there first⟩
      case isFalse => cases taken

/-- A step of `wchan_wakeall` or `thread_make_runnable` keeps the invariant. -/
theorem go_wake_sound (sound : Sound state seat) (taken : state.goWake cpu = some after) :
    ∃ moved, Sound after moved := by
  have demand := sound.demands cpu
  cases there : state.pc cpu with
    (rw [there] at demand
     simp only [State.goWake, there, Option.some.injEq, reduceCtorEq] at taken)
  | gathering wc =>
    split at taken
    case h_1 =>
      cases taken
      exact ⟨seat, sound.goto .dispatching there rfl rfl rfl trivial⟩
    case h_2 target rest first =>
      cases taken
      exact ⟨_, sound.relay (.gathering wc) there rfl rfl rfl (.gather wc) (by simp) (by rw [first])
        (List.Perm.refl _) trivial (fun awake => absurd trivial awake) trivial⟩
  | dispatching =>
    split at taken
    case h_1 =>
      cases taken
      exact ⟨seat, sound.goto .free there rfl rfl rfl trivial⟩
    case h_2 target rest first =>
      cases taken
      exact ⟨_, sound.take .making there rfl rfl rfl rfl .dispatch first trivial
        (fun awake => absurd trivial awake) trivial⟩
  | making =>
    split at taken
    case h_1 => cases taken
    case h_2 target rest first =>
      cases taken
      refine ⟨seat, sound.goto (.waiting (state.tCpu target)) there rfl rfl rfl fun thread here => ?_⟩
      rw [(sound.hand_alone first).2 thread here]
  | waiting targetcpu =>
    exact ⟨seat, sound.lock (.locked targetcpu) there rfl rfl rfl rfl demand taken⟩
  | locked targetcpu =>
    split at taken
    case h_1 => cases taken
    case h_2 target rest first =>
      cases taken
      have here := sound.head_seat first
      have set : Sound (state.setState target .ready) seat := by
        refine sound.set_state (by rw [there, demand target here]; rfl) ?_ fun spot seated => ?_
        · rw [there]
          exact demand
        · rw [here] at seated
          obtain rfl := Option.some.inj seated
          trivial
      refine ⟨seat, set.goto (.marked targetcpu) there rfl rfl rfl fun thread seated => ?_⟩
      rw [(sound.hand_alone first).2 thread seated]
      exact ⟨demand target here, Function.update_self ..⟩
  | marked targetcpu =>
    split at taken
    case h_1 => cases taken
    case h_2 target rest first =>
      cases taken
      exact ⟨_, sound.put (.queued targetcpu) there rfl rfl rfl rfl (.queue targetcpu rfl) first
        (demand target (sound.head_seat first)) (fun awake => absurd trivial awake) trivial⟩
  | queued targetcpu =>
    subst taken
    exact ⟨seat, sound.unlock .dispatching there rfl rfl rfl rfl trivial⟩

/-- `thread_consider_migration` puts back what is left over. -/
theorem go_left_over (allcpus : List Cpu) {todo : List Cpu} {oneShare toSend : Nat}
    (there : state.pc cpu = .sending todo oneShare toSend) (done : todo = [] ∨ toSend = 0) :
    state.goMigrate allcpus cpu =
      if state.nodes (.victims cpu) = [] then some (state.goto cpu .free)
      else state.lock cpu cpu .returning := by
  rcases done with rfl | rfl
  · simp [State.goMigrate, there]
  · cases todo <;> simp only [State.goMigrate, there]

/-- `thread_consider_migration` goes on to the next CPU, or to the threads left over. -/
theorem go_sending_sound (sound : Sound state seat) {todo : List Cpu} {oneShare toSend : Nat}
    (there : state.pc cpu = .sending todo oneShare toSend)
    (taken : state.goMigrate allcpus cpu = some after) : Sound after seat := by
  rcases sending_cases todo toSend with done | ⟨c, rest, left, rfl, rfl⟩
  · rw [go_left_over allcpus there done] at taken
    split at taken
    case isTrue =>
      cases taken
      exact sound.goto .free there rfl rfl rfl trivial
    case isFalse => exact sound.lock .returning there rfl rfl rfl rfl trivial taken
  · simp only [State.goMigrate, there] at taken
    split at taken
    case isTrue =>
      cases taken
      exact sound.goto (.sending _ _ _) there rfl rfl rfl trivial
    case isFalse => exact sound.lock (.filling c _ _ _) there rfl rfl rfl rfl trivial taken

/-- A step of `thread_consider_migration` keeps the invariant. -/
theorem go_migrate_sound (sound : Sound state seat)
    (taken : state.goMigrate allcpus cpu = some after) : ∃ moved, Sound after moved := by
  have demand := sound.demands cpu
  have went := taken
  cases there : state.pc cpu with
    (rw [there] at demand
     simp only [State.goMigrate, there, reduceCtorEq] at taken)
  | counting todo totalCount myCount =>
    cases todo with simp only at taken
    | nil =>
      split at taken
      case isTrue =>
        cases taken
        exact ⟨seat, sound.goto .free there rfl rfl rfl trivial⟩
      case isFalse => exact ⟨seat, sound.lock (.collecting _ _ _) there rfl rfl rfl rfl trivial taken⟩
    | cons c todo =>
      split at taken
      case isTrue =>
        cases taken
        exact ⟨seat, sound.goto (.counting _ _ _) there rfl rfl rfl trivial⟩
      case isFalse => cases taken
  | collecting left oneShare toSend =>
    cases left with simp only [Option.some.injEq] at taken
    | zero =>
      subst taken
      exact ⟨seat, sound.unlock (.sending _ _ _) there rfl rfl rfl rfl trivial⟩
    | succ left =>
      split at taken
      case h_1 => cases taken
      case h_2 t last =>
        cases taken
        have taken : (state.nodes (.runqueue cpu)).Perm
            (t :: (state.nodes (.runqueue cpu)).dropLast) := by
          obtain ⟨front, split⟩ := List.getLast?_eq_some_iff.mp last
          rw [split, List.dropLast_concat]
          exact List.perm_append_singleton t front
        have here : seat t = some (.runqueue cpu) :=
          ((sound.arranged _).members t).mp (taken.mem_iff.mpr List.mem_cons_self)
        obtain ⟨_, _, assigned, ready⟩ := sound.on t _ here
        exact ⟨_, sound.relay (.collecting left oneShare toSend) there rfl rfl rfl .collect (by simp)
          taken (List.perm_append_singleton t _).symm ⟨assigned, ready⟩
          (fun _ => sound.not_current assigned) trivial⟩
  | sending todo oneShare toSend => exact ⟨seat, go_sending_sound sound there went⟩
  | filling c todo oneShare toSend =>
    cases toSend with simp only [Option.some.injEq] at taken
    | zero =>
      subst taken
      exact ⟨seat, sound.unlock (.sending _ _ _) there rfl rfl rfl rfl trivial⟩
    | succ toSend =>
      split at taken
      case isFalse =>
        cases taken
        exact ⟨seat, sound.unlock (.sending _ _ _) there rfl rfl rfl rfl trivial⟩
      case isTrue =>
        split at taken
        case h_1 => cases taken
        case h_2 t rest first =>
          split at taken
          case isTrue =>
            cases taken
            have rotated : (rest ++ [t]).Perm (state.nodes (.victims cpu)) := by
              rw [first]
              exact List.perm_append_singleton t rest
            exact ⟨seat, (sound.reorder rotated).goto (.filling _ _ _ _) there rfl rfl rfl trivial⟩
          case isFalse unlike =>
            cases taken
            have here := sound.head_seat first
            obtain ⟨_, _, assigned, ready⟩ := sound.on t _ here
            refine ⟨_, sound.take (.handing c todo oneShare (toSend + 1)) there rfl rfl rfl rfl .choose
              first ready (fun _ => sound.not_current assigned) fun migrant seated => ?_⟩
            rcases moved_cases seated with ⟨rfl, _⟩ | ⟨_, before⟩
            · exact ⟨assigned, Ne.symm unlike⟩
            · exact absurd before (sound.hand_empty (by simp [there, Pc.inHand]) migrant)
  | handing c todo oneShare toSend =>
    split at taken
    case h_1 => cases taken
    case h_2 t rest first =>
      cases taken
      exact ⟨seat, sound.assigned there first⟩
  | assigned c todo oneShare toSend =>
    split at taken
    case h_1 => cases taken
    case h_2 t rest first =>
      cases taken
      have here := sound.head_seat first
      obtain ⟨_, _, ready⟩ := sound.on t _ here
      obtain ⟨given, unlike⟩ := demand t here
      exact ⟨_, sound.put (.filling c todo oneShare (toSend - 1)) there rfl rfl rfl rfl (.send c rfl)
        first ⟨given, ready⟩ (fun _ other _ => unlike other) trivial⟩
  | returning =>
    split at taken
    case h_1 =>
      cases taken
      exact ⟨seat, sound.unlock .free there rfl rfl rfl rfl trivial⟩
    case h_2 t rest first =>
      cases taken
      obtain ⟨_, _, assigned, ready⟩ := sound.on t _ (sound.head_seat first)
      exact ⟨_, sound.relay .returning there rfl rfl rfl (.giveBack rfl) (by simp) (by rw [first])
        (List.Perm.refl _) ⟨assigned, ready⟩ (fun _ => sound.not_current assigned) trivial⟩

/-- Every call a thread can begin keeps each thread in one seat. One case per call. -/
theorem begin_sound [DecidableEq Spin] (sound : Sound state seat) (there : state.pc cpu = .free)
    {call : Call Chan Spin Thread} (taken : state.begin allcpus guard cpu call = some after) :
    ∃ moved, Sound after moved := by
  cases call with
    simp only [State.begin, Option.ite_none_right_eq_some, Option.some.injEq] at taken
  | create thread =>
    obtain ⟨⟨_, unborn⟩, rfl⟩ := taken
    exact ⟨seat, sound.created unborn .ready _⟩
  | start thread =>
    obtain ⟨⟨_, created⟩, rfl⟩ := taken
    exact ⟨_, sound.started there created⟩
  | acquire lk | release lk =>
    obtain ⟨_, rfl⟩ := taken
    exact ⟨seat, sound.spin⟩
  | threadYield =>
    split at taken
    case isTrue =>
      cases taken
      exact ⟨seat, sound⟩
    case isFalse busy =>
      have awake : state.isidle cpu = false := by simpa using busy
      exact ⟨seat, sound.lock (.entered .ready) there rfl rfl rfl rfl awake taken⟩
  | wchanSleep wc =>
    obtain ⟨⟨awake, _⟩, taken⟩ := taken
    exact ⟨seat, sound.lock (.entered (.sleep wc)) there rfl rfl rfl rfl awake taken⟩
  | threadExit =>
    obtain ⟨awake, taken⟩ := taken
    exact ⟨seat, sound.lock (.entered .zombie) there rfl rfl rfl rfl awake taken⟩
  | wchanWakeone wc =>
    obtain ⟨_, taken⟩ := taken
    split at taken
    case h_1 =>
      cases taken
      exact ⟨seat, sound⟩
    case h_2 target rest first =>
      cases taken
      exact ⟨_, sound.take .making there rfl rfl rfl rfl (.take wc) first trivial
        (fun awake => absurd trivial awake) trivial⟩
  | wchanWakeall wc =>
    obtain ⟨_, rfl⟩ := taken
    exact ⟨seat, sound.goto (.gathering wc) there rfl rfl rfl trivial⟩
  | considerMigration =>
    subst taken
    exact ⟨seat, sound.goto (.counting _ _ _) there rfl rfl rfl trivial⟩

theorem next_sound [DecidableEq Spin] {action : Action Cpu Chan Spin Thread}
    (sound : Sound state seat) (taken : next allcpus guard state action = some after) :
    ∃ moved, Sound after moved := by
  cases action with
  | call cpu call =>
    simp only [next, Option.ite_none_right_eq_some] at taken
    exact begin_sound sound taken.1 taken.2
  | go cpu =>
    simp only [next, Option.or_eq_some_iff] at taken
    rcases taken with (switch | ⟨_, wake⟩) | ⟨_, migrate⟩
    · exact go_switch_sound sound switch
    · exact go_wake_sound sound wake
    · exact go_migrate_sound sound migrate

end Steps

/-! ## Where threads are after any run -/

section Runs

variable {Cpu Chan Spin Thread : Type}

/-- A thread that has been started, whether or not it has exited. -/
def Life.Begun (life : Life) : Prop := life = .started ∨ life = .exited

/-- The thread lists, as opposed to local variables. -/
def Spot.IsList : Spot Cpu Chan → Prop
  | .hand _ _ => False
  | _ => True

/-- What holds of threads at any time. No thread is the current thread of two CPUs; each is
at most once on at most one list or variable, and a variable has one only while it is in
use; a thread that has begun and is neither a current thread nor destroyed is on exactly one
of them; a thread on an unlocked run queue is ready and belongs to its CPU; a thread is
destroyed only after it has exited, once, and not while it is a current thread; until then
it is with the zombies of a CPU that has yet to leave `thread_switch`. -/
structure WellPlaced (state : State Cpu Chan Spin Thread) : Prop where
  oneCpu : ∀ first second, state.curthread first = state.curthread second → first = second
  once : ∀ spot, (state.nodes spot).Nodup
  oneSpot : ∀ thread first second, thread ∈ state.nodes first → thread ∈ state.nodes second →
    first = second
  inUse : ∀ cpu which, (state.nodes (.hand which cpu)).length = (state.pc cpu).held which
  somewhere : ∀ thread, (state.life thread).Begun → state.destroyed thread = 0 →
    (∀ cpu, state.curthread cpu ≠ thread) → ∃! spot, thread ∈ state.nodes spot
  queued : ∀ cpu thread, state.runqueueLock cpu = none → thread ∈ state.nodes (.runqueue cpu) →
    state.tState thread = .ready ∧ state.tCpu thread = cpu
  destroyedOnce : ∀ thread, state.destroyed thread ≤ 1 ∧
    (0 < state.destroyed thread → state.life thread = .exited)
  notCurrent : ∀ cpu, state.destroyed (state.curthread cpu) = 0
  awaited : ∀ thread, state.life thread = .exited → state.destroyed thread = 0 →
    ∃ cpu, thread ∈ state.nodes (.zombies cpu) ∨ thread ∈ state.nodes (.hand .z cpu)
  swept : ∀ cpu, state.pc cpu = .free → state.isidle cpu = false → state.nodes (.zombies cpu) = []

/-- The invariant holds of some account of where the threads are. -/
def Kept (state : State Cpu Chan Spin Thread) : Prop := ∃ seat, Sound state seat

/-- The seats say where threads are, and the places of the CPUs what they have in hand. -/
theorem Sound.well_placed {state : State Cpu Chan Spin Thread}
    {seat : Thread → Option (Spot Cpu Chan)} (sound : Sound state seat) : WellPlaced state where
  oneCpu := fun _ _ same => sound.one_cpu same
  once := fun spot => (sound.arranged spot).distinct
  oneSpot := fun _ _ _ one other => sound.arranged.one_spot one other
  inUse := sound.hands
  somewhere := by
    intro thread begun undestroyed notCurrent
    cases here : seat thread with
    | none =>
      have off := sound.off thread here
      unfold OffLists at off
      rcases begun with started | exited
      · rw [started] at off
        exact absurd off.1 (notCurrent _)
      · rw [exited, undestroyed] at off
        cases off
    | some spot =>
      have member := ((sound.arranged spot).members thread).mpr here
      exact ⟨spot, member, fun other there => sound.arranged.one_spot there member⟩
  queued := by
    intro cpu thread _ member
    obtain ⟨_, _, assigned, ready⟩ := sound.on thread _ (((sound.arranged _).members thread).mp member)
    exact ⟨ready, assigned⟩
  destroyedOnce := by
    intro thread
    cases here : seat thread with
    | none =>
      have off := sound.off thread here
      unfold OffLists at off
      cases life : state.life thread <;> simp_all
    | some spot => simp [(sound.on thread spot here).2.1]
  notCurrent := sound.current_undestroyed
  awaited := by
    intro thread exited undestroyed
    cases here : seat thread with
    | none =>
      have off := sound.off thread here
      unfold OffLists at off
      rw [exited, undestroyed] at off
      cases off
    | some spot =>
      have member := ((sound.arranged spot).members thread).mpr here
      have life := (sound.on thread spot here).1
      rw [exited] at life
      cases spot with
      | zombies cpu => exact ⟨cpu, Or.inl member⟩
      | hand which cpu =>
        cases which with
        | z => exact ⟨cpu, Or.inr member⟩
        | next | target | t => cases life
      | wchan wc | runqueue cpu | list cpu | victims cpu => cases life
  swept := by
    intro cpu there awake
    refine List.eq_nil_iff_forall_not_mem.mpr fun thread member => ?_
    have here := ((sound.arranged _).members thread).mp member
    exact sound.swept cpu ⟨awake, by rw [there]; rfl⟩ thread here

variable [DecidableEq Cpu] [DecidableEq Chan] [DecidableEq Thread] [DecidableEq Spin]

theorem sound_of_reached {allcpus : List Cpu} {guard : Chan → Spin}
    {state : State Cpu Chan Spin Thread}
    (reached : Reaches (next allcpus guard) Anything Booted state) : Kept state := by
  refine reached.invariant (fun start booted => ⟨_, booted_sound booted⟩) ?_
  intro before action after kept _ taken
  obtain ⟨seat, sound⟩ := kept
  exact next_sound sound taken

/-- However the CPUs interleave, threads are where they should be. -/
theorem threads_well_placed (allcpus : List Cpu) (guard : Chan → Spin)
    (state : State Cpu Chan Spin Thread)
    (reached : Reaches (next allcpus guard) Anything Booted state) : WellPlaced state := by
  obtain ⟨seat, sound⟩ := sound_of_reached reached
  exact sound.well_placed

/-- Two CPUs, numbered by truth values, with the threads 0 and 1 and one wait channel. -/
def bootedTwo : State Bool Unit Unit Nat where
  nodes := fun _ => []
  curthread := fun cpu => if cpu then 1 else 0
  isidle := fun _ => false
  runqueueLock := fun _ => none
  spinlock := fun _ => none
  tState := fun _ => .ready
  tCpu := fun thread => decide (thread = 1)
  pc := fun _ => .free
  life := fun thread => if thread ≤ 1 then .started else .unborn
  destroyed := fun _ => 0

theorem booted_two_booted : Booted bootedTwo where
  nodes := fun _ => rfl
  own := by decide
  awake := fun _ => rfl
  unlocked := fun _ => rfl
  outside := fun _ => rfl
  started := by decide
  others := by
    intro thread unlike
    have zero : 0 ≠ thread := unlike false
    have one : 1 ≠ thread := unlike true
    have large : ¬ thread ≤ 1 := by omega
    simp [bootedTwo, large]
  undestroyed := fun _ => rfl

/-- Thread 0 forks thread 2 and goes to sleep, thread 2 runs in its place, and thread 1
on the other CPU takes thread 0 off its wait channel. -/
def takenOff : List (Action Bool Unit Unit Nat) :=
  [.call false (.create 2), .call false (.start 2)] ++ List.replicate 5 (.go false) ++
    [.call false (.acquire ()), .call false (.wchanSleep ())] ++ List.replicate 8 (.go false) ++
    [.call true (.acquire ()), .call true (.wchanWakeone ())]

/-- Thread 0 is queued, thread 2 exits, and thread 0 comes back and destroys it. -/
def broughtBack : List (Action Bool Unit Unit Nat) :=
  takenOff ++ List.replicate 6 (.go true) ++ [.call false .threadExit] ++
    List.replicate 9 (.go false)

/-- Thread 0 is back, and thread 2 has been destroyed. -/
theorem well_placed_after_exit :
    ∃ state : State Bool Unit Unit Nat, state.curthread false = 0 ∧ state.destroyed 2 = 1 ∧
      state.pc false = .free ∧ WellPlaced state := by
  obtain ⟨state, evaluated, current, destroyed, outside⟩ : ∃ state ∈ exec (next [false, true] (fun _
      => ())) bootedTwo broughtBack, state.curthread false = 0 ∧ state.destroyed 2 = 1 ∧ state.pc
      false = .free := by
    decide +kernel
  have reached := reaches_of_exec Booted broughtBack booted_two_booted evaluated
  exact ⟨state, current, destroyed, outside, threads_well_placed [false, true] _ state reached⟩

/-- The lists of two CPUs and one wait channel. -/
def listsOfTwo : List (Spot Bool Unit) :=
  [.wchan (), .runqueue false, .runqueue true, .zombies false, .zombies true, .list false, .list true,
    .victims false, .victims true]

theorem mem_lists_of_two {spot : Spot Bool Unit} (is_list : spot.IsList) : spot ∈ listsOfTwo := by
  cases spot with
  | wchan wc => simp [listsOfTwo]
  | runqueue cpu | zombies cpu | list cpu | victims cpu => cases cpu <;> simp [listsOfTwo]
  | hand which cpu => exact is_list.elim

/-- While `wchan_wakeone` waits for the lock of the run queue, the thread it has taken off
the wait channel is no CPU's current thread and is on no list. -/
theorem woken_thread_on_no_list :
    ∃ state : State Bool Unit Unit Nat,
      Reaches (next [false, true] (fun _ => ())) Anything Booted state ∧
      state.life 0 = .started ∧ state.destroyed 0 = 0 ∧ (∀ cpu, state.curthread cpu ≠ 0) ∧
      ∀ spot : Spot Bool Unit, spot.IsList → 0 ∉ state.nodes spot := by
  obtain ⟨state, evaluated, started, undestroyed, first, second, nowhere⟩ : ∃ state ∈ exec (next
      [false, true] (fun _ => ())) bootedTwo takenOff, state.life 0 = .started ∧ state.destroyed 0 =
      0 ∧ state.curthread false ≠ 0 ∧ state.curthread true ≠ 0 ∧ ∀ spot ∈ listsOfTwo, 0 ∉
      state.nodes spot := by
    decide +kernel
  refine ⟨state, reaches_of_exec Booted takenOff booted_two_booted evaluated,
    started, undestroyed, ?_, fun spot is_list => nowhere spot (mem_lists_of_two is_list)⟩
  intro cpu
  cases cpu with
  | false => exact first
  | true => exact second

end Runs

end Os161.Thread.System
