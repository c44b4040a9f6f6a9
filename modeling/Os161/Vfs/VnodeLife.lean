import Os161.Library.Places
import Os161.Library.Runs

/-!
# The life of a vnode

Any number of threads take and drop references to the vnode of one SFS inode, look the
inode up, and reclaim its vnode. `vnode_decref` does not drop the last reference: it hands
it to `sfs_reclaim`, which looks again under the big lock whether somebody has picked up
the vnode in the meantime. A step is a section of the vnode's spinlock, or what a thread
does between two such sections while it has the big lock, which is taken as exclusive and
recursive.

References are not tied to threads: whoever has been given one may drop it. Each vnode
that is loaded for the inode has a number of its own, so that the memory of a destroyed
vnode is never confused with a later one.
-/
namespace Os161.Vfs.VnodeLife

open Os161.Library.Runs Os161.Library.Places Function

variable {Thread : Type}

/-- The part of a `struct sfs_vnode` that decides its life: `vn_refcount`, the link count of
its inode, and `sv_dirty`. -/
structure Vnode where
  refcount : Int32
  linkcount : UInt16
  dirty : Bool

/-- Where a thread is: in `sfs_loadvnode` after its search, or in `vnode_decref` with the
last reference, or in `sfs_reclaim` before the count is looked at, before the inode is
written, or before the memory is freed. -/
inductive Place
  | outside
  | found (vnode : Nat)
  | loading
  | handed (vnode : Nat)
  | reclaiming (vnode : Nat)
  | erasing (vnode : Nat)
  | freeing (vnode : Nat)
  deriving DecidableEq

/-- A thread with a reference that `vnode_decref` has handed to `sfs_reclaim`. -/
def Place.Hands (vnode : Nat) (place : Place) : Prop :=
  place = .handed vnode ∨ place = .reclaiming vnode ∨ place = .erasing vnode

/-- A thread that relies on having the big lock. -/
def Place.UnderBigLock (place : Place) : Prop :=
  (∃ vnode, place = .found vnode ∨ place = .reclaiming vnode ∨ place = .erasing vnode) ∨
    place = .loading

/-- The big lock and its depth, the vnodes in memory, those in `sfs_vnodes` for this inode,
the inode's bit in the freemap, the number for the next vnode, and the place of each
thread; then for each vnode the references held and how often it has been destroyed. -/
structure State (Thread : Type) where
  biglock : Option Thread
  depth : Nat
  memory : Nat → Option Vnode
  vnodes : List Nat
  bused : Bool
  fresh : Nat
  place : Thread → Place
  held : Nat → Nat
  destroyed : Nat → Nat

/-- Nothing is loaded, and no thread is inside any of the functions. -/
def Initial (state : State Thread) : Prop :=
  state.biglock = none ∧ state.vnodes = [] ∧ state.fresh = 0 ∧
    (∀ thread, state.place thread = .outside) ∧ (∀ vnode, state.held vnode = 0) ∧
    ∀ vnode, state.destroyed vnode = 0

/-- The steps of a thread. Where a call inside a step can fail, its result is part of the
action. -/
inductive Action (Thread : Type)
  | enter (thread : Thread)
  | leave (thread : Thread)
  | incref (thread : Thread) (vnode : Nat)
  | decref (thread : Thread) (vnode : Nat)
  | change (thread : Thread) (vnode : Nat) (linkcount : UInt16)
  | allocate (thread : Thread)
  | search (thread : Thread) (forced : Bool)
  | pickUp (thread : Thread)
  | load (thread : Thread) (forced : Bool) (linkcount : UInt16)
  | loadFails (thread : Thread)
  | reclaim (thread : Thread)
  | look (thread : Thread)
  | erase (thread : Thread) (truncated synced : Bool)
  | free (thread : Thread)

/-- The count of a loaded vnode is the references held plus those handed to a reclaim, and is
not zero. -/
def Tally (state : State Thread) (vnode : Nat) (contents : Vnode) : Prop :=
  ∃ pending : List Thread, Lists pending state.place (Place.Hands vnode) ∧
    contents.refcount.toInt = state.held vnode + pending.length ∧ 0 < contents.refcount.toInt

/-- What a thread at a place has found out stays true, under the big lock or once the vnode is
destroyed. -/
structure Fits (biglock : Option Thread) (vnodes : List Nat) (fresh : Nat) (thread : Thread)
    (place : Place) : Prop where
  locked : place.UnderBigLock → biglock = some thread
  found : ∀ vnode, place = .found vnode → vnode ∈ vnodes
  missing : place = .loading → vnodes = []
  freed : ∀ vnode, place = .freeing vnode → vnode < fresh ∧ vnode ∉ vnodes

abbrev State.Fits (state : State Thread) : Thread → Place → Prop :=
  VnodeLife.Fits state.biglock state.vnodes state.fresh

/-- What every step keeps. At most one vnode is loaded, and its count is right. A vnode that is
not loaded has no references, and has been destroyed once if it was ever loaded. -/
structure Sound (state : State Thread) : Prop where
  single : state.vnodes = [] ∨ ∃ vnode, state.vnodes = [vnode]
  tallied : ∀ vnode, vnode ∈ state.vnodes → ∃ contents, state.memory vnode = some contents ∧
    Tally state vnode contents
  born : ∀ vnode, vnode ∈ state.vnodes → vnode < state.fresh ∧ state.destroyed vnode = 0
  gone : ∀ vnode, vnode ∉ state.vnodes → state.held vnode = 0 ∧
    (∀ thread, ¬ (state.place thread).Hands vnode) ∧
      state.destroyed vnode = if vnode < state.fresh then 1 else 0
  fits : ∀ thread, state.Fits thread (state.place thread)
  last : ∀ thread vnode contents, state.place thread = .erasing vnode →
    state.memory vnode = some contents → contents.refcount = 1

variable {thread : Thread} {vnode : Nat} {after state : State Thread} {contents : Vnode}
  {onward : Place}

/-- Where nobody relies on the big lock. -/
theorem idle_fits (idle : ∀ actor, ¬ (state.place actor).UnderBigLock)
    (freed : ∀ thread vnode, state.place thread = .freeing vnode →
      vnode < state.fresh ∧ vnode ∉ state.vnodes) (actor : Thread) :
    state.Fits actor (state.place actor) where
  locked := fun under => absurd under (idle actor)
  found := fun vnode here => absurd (Or.inl ⟨vnode, Or.inl here⟩) (idle actor)
  missing := fun here => absurd (Or.inr here) (idle actor)
  freed := freed actor

theorem idle_last (idle : ∀ actor, ¬ (state.place actor).UnderBigLock) (actor : Thread)
    (vnode : Nat) (contents : Vnode) (here : state.place actor = .erasing vnode) :
    state.memory vnode = some contents → contents.refcount = 1 :=
  absurd (Or.inl ⟨vnode, Or.inr (Or.inr here)⟩) (idle actor)

theorem initial_sound (state : State Thread) (initial : Initial state) : Sound state := by
  obtain ⟨_, empty, none, outside, noHeld, noDestroyed⟩ := initial
  have idle (thread : Thread) : ¬ (state.place thread).UnderBigLock := by
    simp [outside thread, Place.UnderBigLock]
  refine ⟨Or.inl empty, by simp [empty], by simp [empty], ?_, idle_fits idle ?_, idle_last idle⟩
  · intro vnode _
    refine ⟨noHeld vnode, ?_, by simp [none, noDestroyed vnode]⟩
    intro thread
    simp [outside thread, Place.Hands]
  · intro thread vnode here
    simp [outside thread] at here

section

variable {state : State Thread} (sound : Sound state)

include sound

theorem Sound.loaded_of_held (held : 0 < state.held vnode) : vnode ∈ state.vnodes := by
  by_contra absent
  have none := (sound.gone vnode absent).1
  omega

theorem Sound.loaded_of_hands (hands : (state.place thread).Hands vnode) :
    vnode ∈ state.vnodes := by
  by_contra absent
  exact (sound.gone vnode absent).2.1 thread hands

theorem Sound.same {first second : Nat} (firstLoaded : first ∈ state.vnodes)
    (secondLoaded : second ∈ state.vnodes) : first = second := by
  rcases sound.single with none | ⟨vnode, only⟩
  · simp [none] at firstLoaded
  · rw [only, List.mem_singleton] at firstLoaded secondLoaded
    exact firstLoaded.trans secondLoaded.symm

theorem Sound.not_erasing (held : 0 < state.held vnode) (thread : Thread) :
    state.place thread ≠ .erasing vnode := by
  intro erasing
  obtain ⟨contents, stored, pending, listed, tally, _⟩ :=
    sound.tallied vnode (sound.loaded_of_held held)
  have one := sound.last thread vnode contents erasing stored
  have member : thread ∈ pending := (listed.members thread).mpr (Or.inr (Or.inr erasing))
  have positive := List.length_pos_of_mem member
  rw [one, Int32.toInt_one] at tally
  omega

/-- Two threads do not rely on the big lock at the same time. -/
theorem Sound.alone {first second : Thread} (firstUnder : (state.place first).UnderBigLock)
    (secondUnder : (state.place second).UnderBigLock) : first = second :=
  Option.mem_unique ((sound.fits first).locked firstUnder) ((sound.fits second).locked secondUnder)

theorem Sound.tally (loaded : vnode ∈ state.vnodes) (stored : state.memory vnode = some contents) :
    Tally state vnode contents := by
  obtain ⟨known, same, tally⟩ := sound.tallied vnode loaded
  obtain rfl : contents = known := Option.mem_unique stored same
  exact tally

/-- The big lock may change hands while nobody relies on it but its owner. -/
theorem Sound.relock (biglock : Option Thread) (depth : Nat)
    (locked : ∀ thread, (state.place thread).UnderBigLock → biglock = some thread) :
    Sound { state with biglock := biglock, depth := depth } :=
  { sound with fits := fun thread => { sound.fits thread with locked := locked thread } }

end

/-- `vfs_biglock_release` by the thread that has it. -/
def State.release (state : State Thread) : State Thread :=
  if state.depth = 1 then { state with biglock := none, depth := 0 }
  else { state with depth := state.depth - 1 }

/-- Change a vnode in memory. -/
def State.store (state : State Thread) (vnode : Nat) (contents : Vnode) : State Thread :=
  { state with memory := update state.memory vnode (some contents) }

/-- Change the number of references held on a vnode. -/
def State.hold (state : State Thread) (vnode count : Nat) : State Thread :=
  { state with held := update state.held vnode count }

attribute [local simp] Place.Hands Place.UnderBigLock State.store State.hold

theorem succ_to_int {count : Int32} (small : count < 0x7fffffff) :
    (count + 1).toInt = count.toInt + 1 := by
  have bound := Int32.lt_iff_toInt_lt.mp small
  have low := count.le_toInt
  have top : Int32.toInt 0x7fffffff = 2147483647 := by decide
  rw [Int32.toInt_add, Int32.toInt_one, Int.bmod_eq_of_le (by omega) (by omega)]

theorem pred_to_int {count : Int32} (several : 1 < count) :
    (count - 1).toInt = count.toInt - 1 ∧ 1 < count.toInt := by
  have bound := Int32.lt_iff_toInt_lt.mp several
  have high := count.toInt_lt
  rw [Int32.toInt_one] at bound
  rw [Int32.toInt_sub, Int32.toInt_one, Int.bmod_eq_of_le (by omega) (by omega)]
  exact ⟨rfl, bound⟩

theorem outside_fits (state : State Thread) (thread : Thread) : state.Fits thread .outside := by
  refine ⟨?_, ?_, ?_, ?_⟩ <;> simp

theorem store_self (stored : state.memory vnode = some contents) :
    state.store vnode contents = state := by
  rw [State.store, ← stored, update_eq_self]

theorem hold_store_self (state : State Thread) (vnode : Nat) (contents : Vnode) :
    (state.store vnode contents).hold vnode (state.held vnode) = state.store vnode contents := by
  simp only [State.hold, State.store, update_eq_self]

theorem Sound.release (sound : Sound state)
    (nobody : ∀ thread, ¬ (state.place thread).UnderBigLock) :
    Sound state.release := by
  have free : ∀ biglock : Option Thread, ∀ thread, (state.place thread).UnderBigLock →
      biglock = some thread := fun _ thread under => absurd under (nobody thread)
  unfold State.release
  split
  · exact sound.relock none 0 (free none)
  · exact sound.relock state.biglock (state.depth - 1) (free state.biglock)

variable [DecidableEq Thread]

section

variable (state : State Thread) (thread : Thread)

/-- `vfs_biglock_acquire`, which waits while another thread has the lock. -/
def State.acquire : Option (State Thread) :=
  if state.biglock = none then some { state with biglock := some thread, depth := 1 }
  else if state.biglock = some thread then some { state with depth := state.depth + 1 }
  else none

/-- Move a thread. -/
def State.goTo (place : Place) : State Thread :=
  { state with place := update state.place thread place }

/-- The section of `vnode_decref`. -/
def vnodeDecref (vnode : Nat) (contents : Vnode) : Option (State Thread) :=
  if contents.refcount ≤ 0 then none
  else if 1 < contents.refcount then
    some ((state.store vnode { contents with refcount := contents.refcount - 1 }).hold vnode
      (state.held vnode - 1))
  else some ((state.hold vnode (state.held vnode - 1)).goTo thread (.handed vnode))

/-- The first section of `sfs_reclaim` under the big lock. Somebody may have picked up the
vnode; the reference is then consumed and the caller gets `EBUSY`. -/
def reclaimLook (vnode : Nat) (contents : Vnode) : Option (State Thread) :=
  if contents.refcount ≠ 1 then
    if 1 < contents.refcount then
      some ((state.store vnode { contents with refcount := contents.refcount - 1 }).goTo thread
        .outside).release
    else none
  else some (state.goTo thread (.erasing vnode))

/-- The rest of `sfs_reclaim` under the big lock, given the results of `sfs_itrunc` and of
the write of the inode. Truncating makes the inode dirty. -/
def reclaimErase (vnode : Nat) (contents : Vnode) (truncated synced : Bool) :
    Option (State Thread) :=
  if contents.linkcount = 0 ∧ truncated = false then
    some (state.goTo thread .outside).release
  else if (contents.dirty = true ∨ contents.linkcount = 0) ∧ synced = false then
    some (state.goTo thread .outside).release
  else if vnode ∈ state.vnodes ∧ contents.refcount = 1 then
    some ({ state with
      bused := if contents.linkcount = 0 then false else state.bused
      vnodes := state.vnodes.erase vnode
      memory := update state.memory vnode (some { contents with refcount := 0, dirty := false })
      destroyed := update state.destroyed vnode (state.destroyed vnode + 1) }.goTo
        thread (.freeing vnode)).release
  else none

/-- The end of `sfs_loadvnode` for an inode that is not loaded. -/
def loadFresh (forced : Bool) (linkcount : UInt16) : State Thread :=
  { state with
    memory := update state.memory state.fresh (some ⟨1, linkcount, forced⟩)
    vnodes := state.vnodes ++ [state.fresh]
    fresh := state.fresh + 1
    held := update state.held state.fresh 1
    place := update state.place thread .outside }

end

section

variable (state : State Thread)

/-- The transition function. A reference is needed to take or drop one; the file system
operations, which change inodes and look them up, have the big lock. -/
def next : Action Thread → Option (State Thread)
  | .enter thread => if state.place thread = .outside then state.acquire thread else none
  | .leave thread =>
    if state.place thread = .outside ∧ state.biglock = some thread then some state.release else none
  | .incref thread vnode => do
    let contents ← state.memory vnode
    if state.place thread = .outside ∧ 0 < state.held vnode then
      some ((state.store vnode { contents with refcount := contents.refcount + 1 }).hold vnode
        (state.held vnode + 1))
    else none
  | .decref thread vnode => do
    let contents ← state.memory vnode
    if state.place thread = .outside ∧ 0 < state.held vnode then
      vnodeDecref state thread vnode contents
    else none
  | .change thread vnode linkcount => do
    let contents ← state.memory vnode
    if state.place thread = .outside ∧ state.biglock = some thread ∧ 0 < state.held vnode then
      some (state.store vnode { contents with linkcount := linkcount, dirty := true })
    else none
  | .allocate thread =>
    if state.biglock = some thread ∧ state.bused = false then some { state with bused := true }
    else none
  | .search thread forced =>
    if state.place thread = .outside ∧ state.biglock = some thread then
      match state.vnodes with
      | [] => some (state.goTo thread .loading)
      | vnode :: _ =>
        if state.bused = true ∧ forced = false then some (state.goTo thread (.found vnode)) else none
    else none
  | .pickUp thread =>
    match state.place thread with
    | .found vnode => do
      let contents ← state.memory vnode
      some (((state.store vnode { contents with refcount := contents.refcount + 1 }).hold vnode
        (state.held vnode + 1)).goTo thread .outside)
    | _ => none
  | .load thread forced linkcount =>
    if state.place thread = .loading ∧ state.bused = true then
      some (loadFresh state thread forced linkcount)
    else none
  | .loadFails thread =>
    if state.place thread = .loading then some (state.goTo thread .outside) else none
  | .reclaim thread =>
    match state.place thread with
    | .handed vnode => (state.acquire thread).map (fun locked =>
        locked.goTo thread (.reclaiming vnode))
    | _ => none
  | .look thread =>
    match state.place thread with
    | .reclaiming vnode => do
      let contents ← state.memory vnode
      reclaimLook state thread vnode contents
    | _ => none
  | .erase thread truncated synced =>
    match state.place thread with
    | .erasing vnode => do
      let contents ← state.memory vnode
      reclaimErase state thread vnode contents truncated synced
    | _ => none
  | .free thread =>
    match state.place thread with
    | .freeing vnode => some ({ state with
        memory := update state.memory vnode none }.goTo thread .outside)
    | _ => none

variable {state}

/-- Every thread fits where it is after one has moved to where it fits. -/
theorem Sound.fitting (sound : Sound state)
    (fits : state.Fits thread onward) (actor : Thread) :
    state.Fits actor (update state.place thread onward actor) := by
  by_cases self : actor = thread
  · rw [self, update_self]
    exact fits
  · rw [update_of_ne self]
    exact sound.fits actor

/-- One thread moves and the loaded vnode changes with its references, such that the count
comes out right again. -/
theorem Sound.retally (sound : Sound state) (loaded : vnode ∈ state.vnodes)
    (thread : Thread) (onward : Place) (contents : Vnode) (held : Nat) {pending : List Thread}
    (listed : Lists pending (update state.place thread onward) (Place.Hands vnode))
    (tally : contents.refcount.toInt = held + pending.length)
    (positive : 0 < contents.refcount.toInt)
    (fits : state.Fits thread onward) (hands : ∀ other, onward.Hands other → other = vnode)
    (last : onward = .erasing vnode → contents.refcount = 1)
    (others : ∀ other, other ≠ thread → state.place other ≠ .erasing vnode) :
    Sound (((state.store vnode contents).hold vnode held).goTo thread onward) := by
  have elsewhere : ∀ other, other ∉ state.vnodes → other ≠ vnode := by
    rintro other absent rfl
    exact absent loaded
  refine ⟨sound.single, ?_, sound.born, ?_, sound.fitting fits, ?_⟩
  · intro other member
    have same := sound.same member loaded
    subst same
    exact ⟨contents, by simp [State.goTo], pending, listed, by simpa [State.goTo] using tally, positive⟩
  · intro other absent
    have different := elsewhere other absent
    obtain ⟨none, nobody, count⟩ := sound.gone other absent
    refine ⟨by simpa [State.goTo, different] using none, ?_, count⟩
    intro actor reclaims
    obtain rfl | self := eq_or_ne actor thread
    · exact different (hands other (by simpa [State.goTo] using reclaims))
    · exact nobody actor (by simpa [State.goTo, self] using reclaims)
  · intro actor other stored here memory
    obtain rfl | self := eq_or_ne actor thread
    · have erasing : onward = .erasing other := by simpa [State.goTo] using here
      have same : other = vnode := hands other (by simp [erasing])
      subst same
      have now : contents = stored := by simpa [State.goTo] using memory
      rw [← now]
      exact last erasing
    · have before : state.place actor = .erasing other := by
        simpa [State.goTo, self] using here
      have member := sound.loaded_of_hands (Or.inr (Or.inr before))
      have same := sound.same member loaded
      subst same
      exact absurd before (others actor self)

theorem go_to_self {place : Place} (here : state.place thread = place) :
    state.goTo thread place = state := by
  rw [State.goTo, ← here, update_eq_self]

/-- A move that neither takes nor gives up a handed reference. -/
theorem Sound.go_to (sound : Sound state)
    (fits : state.Fits thread onward) (before : ∀ vnode, ¬ (state.place thread).Hands vnode)
    (after : ∀ vnode, ¬ onward.Hands vnode) : Sound (state.goTo thread onward) := by
  have hands : ∀ vnode other, (state.place other).Hands vnode ↔
      (update state.place thread onward other).Hands vnode := by
    intro vnode other
    obtain rfl | same := eq_or_ne other thread
    · rw [update_self]
      exact iff_of_false (before vnode) (after vnode)
    · rw [update_of_ne same]
  refine ⟨sound.single, ?_, sound.born, ?_, sound.fitting fits, ?_⟩
  · intro vnode loaded
    obtain ⟨contents, stored, pending, listed, tally⟩ := sound.tallied vnode loaded
    exact ⟨contents, stored, pending, listed.all_unaffected (hands vnode), tally⟩
  · intro vnode absent
    obtain ⟨none, nobody, count⟩ := sound.gone vnode absent
    exact ⟨none, fun other reclaims => nobody other ((hands vnode other).mpr reclaims), count⟩
  · intro actor vnode contents here stored
    have erasing := (hands vnode actor).mpr (Or.inr (Or.inr here))
    by_cases self : actor = thread
    · exact absurd (self ▸ erasing) (before vnode)
    · exact sound.last actor vnode contents (by simpa [State.goTo, self] using here) stored

/-- Nobody relies on the big lock once the thread that has it does not. -/
theorem Sound.nobody_under (sound : Sound state)
    (owner : state.biglock = some thread) (idle : ¬ onward.UnderBigLock) (actor : Thread) :
    ¬ (update state.place thread onward actor).UnderBigLock := by
  intro under
  by_cases self : actor = thread
  · rw [self, update_self] at under
    exact idle under
  · rw [update_of_ne self] at under
    exact self (Option.mem_unique ((sound.fits actor).locked under) owner)

theorem acquire_cases (taken : state.acquire thread = some after) :
    (state.biglock = none ∨ state.biglock = some thread) ∧
      ∃ depth, after = { state with biglock := some thread, depth := depth } := by
  by_cases free : state.biglock = none
  · simp only [State.acquire, if_pos free, Option.some.injEq] at taken
    exact ⟨Or.inl free, 1, taken.symm⟩
  · by_cases own : state.biglock = some thread
    · simp only [State.acquire, if_neg free, if_pos own, Option.some.injEq] at taken
      exact ⟨Or.inr own, state.depth + 1, by rw [← taken, own]⟩
    · simp [State.acquire, free, own] at taken

theorem Sound.acquire (sound : Sound state)
    (taken : state.acquire thread = some after) : Sound after := by
  obtain ⟨owner, depth, rfl⟩ := acquire_cases taken
  apply sound.relock
  intro actor under
  have locked := (sound.fits actor).locked under
  rcases owner with free | own
  · simp [free] at locked
  · rw [← locked, own]

/-- The loaded vnode changes with its references while nobody moves. -/
theorem Sound.recount (sound : Sound state)
    (outside : state.place thread = .outside) (held : 0 < state.held vnode) {before : Vnode}
    {references : Nat} (stored : state.memory vnode = some before)
    (tally : contents.refcount.toInt + state.held vnode = before.refcount.toInt + references)
    (positive : 0 < contents.refcount.toInt) :
    Sound ((state.store vnode contents).hold vnode references) := by
  have loaded := sound.loaded_of_held held
  obtain ⟨pending, listed, count, _⟩ := sound.tally loaded stored
  have unmoved : update state.place thread .outside = state.place := by
    rw [← outside, update_eq_self]
  have moved := sound.retally loaded thread .outside contents references
    (by rw [unmoved]; exact listed) (by omega) positive (outside_fits state thread)
    (by simp) (by simp) (fun other _ => sound.not_erasing held other)
  have unchanged : ((state.store vnode contents).hold vnode references).goTo thread .outside =
      (state.store vnode contents).hold vnode references := go_to_self outside
  rwa [unchanged] at moved

variable (state)

section

variable (sound : Sound state) (stored : state.memory vnode = some contents)

include sound stored

/-- The section of `vnode_decref`: a reference fewer, or the last one handed on. -/
theorem decref_sound (outside : state.place thread = .outside) (held : 0 < state.held vnode)
    (taken : vnodeDecref state thread vnode contents = some after) : Sound after := by
  by_cases zero : contents.refcount ≤ 0
  · simp [vnodeDecref, zero] at taken
  by_cases several : 1 < contents.refcount
  · simp only [vnodeDecref, if_neg zero, if_pos several, Option.some.injEq] at taken
    subst taken
    have fewer := pred_to_int several
    exact sound.recount outside held stored (by simp only; omega) (by simp only; omega)
  simp only [vnodeDecref, if_neg zero, if_neg several, Option.some.injEq] at taken
  subst taken
  have loaded := sound.loaded_of_held held
  obtain ⟨pending, listed, tally, _⟩ := sound.tally loaded stored
  have joined : Lists (pending ++ [thread])
      (update state.place thread (.handed vnode)) (Place.Hands vnode) :=
    listed.join (by simp [outside]) (by simp)
  have handed := sound.retally loaded thread (.handed vnode) contents (state.held vnode - 1)
    joined (by simp only [List.length_append, List.length_singleton]; omega) (by omega) ?_
    (by simp) (by simp) (fun other _ => sound.not_erasing held other)
  · rwa [store_self stored] at handed
  · refine ⟨?_, ?_, ?_, ?_⟩ <;> simp

theorem pick_up_sound (here : state.place thread = .found vnode)
    (small : contents.refcount < 0x7fffffff) :
    Sound (((state.store vnode { contents with refcount := contents.refcount + 1 }).hold vnode
      (state.held vnode + 1)).goTo thread .outside) := by
  have loaded := (sound.fits thread).found vnode here
  obtain ⟨pending, listed, tally, _⟩ := sound.tally loaded stored
  have under : (state.place thread).UnderBigLock := Or.inl ⟨vnode, Or.inl here⟩
  have more := succ_to_int small
  refine sound.retally loaded thread .outside _ _ (listed.unaffected (by simp [here]))
    (by simp only; omega) (by simp only; omega) (outside_fits state thread) (by simp)
    (by simp) ?_
  intro other different erasing
  exact different (sound.alone (Or.inl ⟨vnode, Or.inr (Or.inr erasing)⟩) under)

/-- `sfs_reclaim` looks at the count under the big lock. -/
theorem look_sound (here : state.place thread = .reclaiming vnode)
    (taken : reclaimLook state thread vnode contents = some after) : Sound after := by
  have hands : (state.place thread).Hands vnode := Or.inr (Or.inl here)
  have loaded := sound.loaded_of_hands hands
  obtain ⟨pending, listed, tally, positive⟩ := sound.tally loaded stored
  have under : (state.place thread).UnderBigLock := Or.inl ⟨vnode, Or.inr (Or.inl here)⟩
  have owner := (sound.fits thread).locked under
  have member : thread ∈ pending := (listed.members thread).mpr hands
  have some := List.length_pos_of_mem member
  have others : ∀ other, other ≠ thread → state.place other ≠ .erasing vnode :=
    fun other different erasing =>
      different (sound.alone (Or.inl ⟨vnode, Or.inr (Or.inr erasing)⟩) under)
  by_cases busy : contents.refcount ≠ 1
  · by_cases several : 1 < contents.refcount
    · simp only [reclaimLook, if_pos busy, if_pos several, Option.some.injEq] at taken
      subst taken
      have fewer := pred_to_int several
      have dropped := sound.retally loaded thread .outside
        { contents with refcount := contents.refcount - 1 } (state.held vnode)
        (listed.leave thread (by simp)) (by
          rw [List.length_erase_of_mem member]
          simp only
          omega) (by simp only; omega) (outside_fits state thread) (by simp)
        (by simp) others
      rw [hold_store_self] at dropped
      exact dropped.release (sound.nobody_under owner (by simp))
    · simp [reclaimLook, busy, several] at taken
  · simp only [reclaimLook, if_neg busy, Option.some.injEq] at taken
    subst taken
    have one : contents.refcount = 1 := not_not.mp busy
    have erasing := sound.retally loaded thread (.erasing vnode) contents (state.held vnode)
      (listed.unaffected (by simp [here])) tally positive ?_ ?_ ?_ others
    · rwa [hold_store_self, store_self stored] at erasing
    · refine ⟨fun _ => owner, ?_, ?_, ?_⟩ <;> simp
    · simp
    · intro _
      exact one

end

theorem reclaim_sound {locked : State Thread} (sound : Sound state)
    (here : state.place thread = .handed vnode) (acquired : state.acquire thread = some locked) :
    Sound (locked.goTo thread (.reclaiming vnode)) := by
  have free := sound.acquire acquired
  obtain ⟨_, depth, rfl⟩ := acquire_cases acquired
  have loaded := sound.loaded_of_hands (Or.inl here)
  obtain ⟨contents, stored, pending, listed, tally, positive⟩ := free.tallied vnode loaded
  have others : ∀ other, other ≠ thread → state.place other ≠ .erasing vnode := by
    intro other different erasing
    have owner := (free.fits other).locked (Or.inl ⟨vnode, Or.inr (Or.inr erasing)⟩)
    exact different (Option.some.inj owner).symm
  have moved := free.retally loaded thread (.reclaiming vnode) contents _
    (listed.unaffected (by simp [here])) tally positive
    ⟨fun _ => rfl, by simp, by simp, by simp⟩ (by simp) (by simp) others
  rwa [hold_store_self, store_self stored] at moved

/-- The disk operations that the reclaim of this state calls for succeed. -/
def Erases (contents : Vnode) (truncated synced : Bool) : Prop :=
  (contents.linkcount = 0 → truncated = true) ∧
    (contents.dirty = true ∨ contents.linkcount = 0 → synced = true)

/-- A reclaim whose disk operations succeed takes the vnode out of the table and destroys
it. Nobody has a reference then, and nobody else is reclaiming it. -/
theorem erase_sound {truncated synced : Bool} (sound : Sound state)
    (here : state.place thread = .erasing vnode) (stored : state.memory vnode = some contents)
    (erases : Erases contents truncated synced)
    (taken : reclaimErase state thread vnode contents truncated synced = some after) :
    Sound after := by
  have hands : (state.place thread).Hands vnode := Or.inr (Or.inr here)
  have loaded := sound.loaded_of_hands hands
  obtain ⟨pending, listed, tally, _⟩ := sound.tally loaded stored
  have under : (state.place thread).UnderBigLock := Or.inl ⟨vnode, Or.inr (Or.inr here)⟩
  have owner := (sound.fits thread).locked under
  have one := sound.last thread vnode contents here stored
  have member : thread ∈ pending := (listed.members thread).mpr hands
  have some := List.length_pos_of_mem member
  rw [one, Int32.toInt_one] at tally
  have only : state.vnodes = [vnode] := by
    rcases sound.single with none | ⟨other, single⟩
    · simp [none] at loaded
    · rw [single, List.mem_singleton] at loaded
      rw [single, loaded]
  have alone : ∀ other, (state.place other).Hands vnode → other = thread := by
    intro other alsoHands
    have single : pending.length = 1 := by omega
    obtain ⟨actor, rfl⟩ := List.length_eq_one_iff.mp single
    have first := List.mem_singleton.mp ((listed.members other).mpr alsoHands)
    exact first.trans (List.mem_singleton.mp member).symm
  obtain ⟨younger, intact⟩ := sound.born vnode loaded
  have truncates : ¬ (contents.linkcount = 0 ∧ truncated = false) := by
    rintro ⟨unlinked, failed⟩
    simp [erases.1 unlinked] at failed
  have syncs : ¬ ((contents.dirty = true ∨ contents.linkcount = 0) ∧ synced = false) := by
    rintro ⟨needed, failed⟩
    simp [erases.2 needed] at failed
  simp only [reclaimErase, if_neg truncates, if_neg syncs, if_pos (And.intro loaded one),
    Option.some.injEq] at taken
  subst taken
  have idle := sound.nobody_under owner (by simp : ¬ (Place.freeing vnode).UnderBigLock)
  refine Sound.release ?_ idle
  refine ⟨Or.inl (by simp [State.goTo, only]), by simp [State.goTo, only], by simp [State.goTo, only],
    ?_, idle_fits idle ?_, idle_last idle⟩
  · intro other _
    obtain rfl | self := eq_or_ne other vnode
    · refine ⟨by simp only [State.goTo]; omega, ?_, by simp [State.goTo, intact, younger]⟩
      intro actor
      by_cases same : actor = thread
      · simp [State.goTo, same]
      · simpa [State.goTo, same] using fun alsoHands => same (alone actor alsoHands)
    · obtain ⟨none, nobody, count⟩ := sound.gone other (by simp [only, self])
      refine ⟨none, ?_, by simpa [State.goTo, self] using count⟩
      intro actor
      by_cases same : actor = thread
      · simp [State.goTo, same]
      · simpa [State.goTo, same] using nobody actor
  · intro actor other freeing
    refine ⟨?_, by simp [State.goTo, only]⟩
    by_cases same : actor = thread
    · have here : vnode = other := by simpa [State.goTo, same] using freeing
      exact here ▸ younger
    · exact ((sound.fits actor).freed other (by simpa [State.goTo, same] using freeing)).1

/-- A lookup that found nothing loads a new vnode, with one reference. -/
theorem load_sound (forced : Bool) (linkcount : UInt16) (sound : Sound state)
    (here : state.place thread = .loading) : Sound (loadFresh state thread forced linkcount) := by
  have empty := (sound.fits thread).missing here
  have absent : state.fresh ∉ state.vnodes := by simp [empty]
  obtain ⟨_, nobody, unborn⟩ := sound.gone state.fresh absent
  have owner := (sound.fits thread).locked (Or.inr here)
  have places : ∀ actor, (loadFresh state thread forced linkcount).place actor =
      update state.place thread .outside actor := fun _ => rfl
  have idle := sound.nobody_under owner (by simp : ¬ Place.outside.UnderBigLock)
  have hands : ∀ vnode actor, ¬ ((loadFresh state thread forced linkcount).place actor).Hands vnode := by
    intro vnode actor
    rw [places]
    by_cases same : actor = thread
    · simp [same]
    · rw [update_of_ne same]
      exact (sound.gone vnode (by simp [empty])).2.1 actor
  refine ⟨Or.inr ⟨state.fresh, by simp [loadFresh, empty]⟩, ?_, ?_, ?_, idle_fits idle ?_,
    idle_last idle⟩
  · intro vnode member
    have new : vnode = state.fresh := by simpa [loadFresh, empty] using member
    subst new
    refine ⟨⟨1, linkcount, forced⟩, by simp [loadFresh], [], Lists.nobody (hands _), ?_,
      show 0 < Int32.toInt 1 by decide⟩
    simp [loadFresh]
  · intro vnode member
    have new : vnode = state.fresh := by simpa [loadFresh, empty] using member
    subst new
    exact ⟨Nat.lt_succ_self _, by simpa [loadFresh] using unborn⟩
  · intro vnode missing
    have different : vnode ≠ state.fresh := by simpa [loadFresh, empty] using missing
    obtain ⟨none, _, count⟩ := sound.gone vnode (by simp [empty])
    refine ⟨by simpa [loadFresh, different] using none, hands vnode, ?_⟩
    have order : vnode < state.fresh + 1 ↔ vnode < state.fresh := by omega
    simpa [loadFresh, order] using count
  · intro actor vnode freeing
    rw [places] at freeing
    by_cases same : actor = thread
    · simp [same] at freeing
    · rw [update_of_ne same] at freeing
      have older := ((sound.fits actor).freed vnode freeing).1
      refine ⟨Nat.lt_succ_of_lt older, ?_⟩
      simpa [loadFresh, empty] using Nat.ne_of_lt older

/-- Freeing the memory of a vnode that is no longer loaded. -/
theorem free_sound (sound : Sound state) (here : state.place thread = .freeing vnode) :
    Sound ({ state with memory := update state.memory vnode none }.goTo thread .outside) := by
  have absent := ((sound.fits thread).freed vnode here).2
  have intact : Sound { state with memory := update state.memory vnode none } := by
    refine { sound with tallied := ?_, last := ?_ }
    · intro other loaded
      have different : other ≠ vnode := fun same => absent (same ▸ loaded)
      obtain ⟨contents, stored, tally⟩ := sound.tallied other loaded
      exact ⟨contents, by simpa [different] using stored, tally⟩
    · intro actor other contents erasing stored
      have loaded := sound.loaded_of_hands (Or.inr (Or.inr erasing))
      have different : other ≠ vnode := fun same => absent (same ▸ loaded)
      exact sound.last actor other contents erasing (by simpa [different] using stored)
  refine intact.go_to (outside_fits _ thread) ?_ (by simp)
  intro other
  simp [here]

/-- The disk operations of every reclaim succeed, and a count that is raised is not the
largest `int` already. -/
def Orderly : Action Thread → Prop
  | .erase thread truncated synced => ∀ vnode contents, state.place thread = .erasing vnode →
      state.memory vnode = some contents → Erases contents truncated synced
  | .incref _ vnode => ∀ contents, state.memory vnode = some contents →
      contents.refcount < 0x7fffffff
  | .pickUp thread => ∀ vnode contents, state.place thread = .found vnode →
      state.memory vnode = some contents → contents.refcount < 0x7fffffff
  | _ => True

/-- Every orderly step keeps the invariant. One case per action. -/
theorem next_sound (action : Action Thread) (after : State Thread) (sound : Sound state)
    (orderly : Orderly state action) (taken : next state action = some after) : Sound after := by
  cases action with
    simp only [next, Option.ite_none_right_eq_some, Option.some.injEq, Option.bind_eq_bind,
      Option.bind_eq_some_iff] at taken
  | enter thread =>
    exact sound.acquire taken.2
  | leave thread =>
    obtain ⟨⟨outside, owner⟩, rfl⟩ := taken
    refine sound.release ?_
    have idle := sound.nobody_under owner (by simp : ¬ Place.outside.UnderBigLock)
    rwa [← outside, update_eq_self] at idle
  | incref thread vnode =>
    obtain ⟨contents, stored, ⟨outside, held⟩, rfl⟩ := taken
    obtain ⟨_, _, _, positive⟩ := sound.tally (sound.loaded_of_held held) stored
    have more := succ_to_int (orderly contents stored)
    exact sound.recount outside held stored (by simp only; omega) (by simp only; omega)
  | decref thread vnode =>
    obtain ⟨contents, stored, ⟨outside, held⟩, decref⟩ := taken
    exact decref_sound state sound stored outside held decref
  | change thread vnode linkcount =>
    obtain ⟨contents, stored, ⟨outside, _, held⟩, rfl⟩ := taken
    obtain ⟨_, _, _, positive⟩ := sound.tally (sound.loaded_of_held held) stored
    rw [← hold_store_self]
    exact sound.recount outside held stored rfl positive
  | allocate thread =>
    obtain ⟨_, rfl⟩ := taken
    exact { sound with }
  | search thread forced =>
    obtain ⟨⟨outside, owner⟩, taken⟩ := taken
    have idle : ∀ vnode, ¬ (state.place thread).Hands vnode := by simp [outside]
    cases table : state.vnodes with
    | nil =>
      simp only [table, Option.some.injEq] at taken
      subst taken
      exact sound.go_to ⟨fun _ => owner, by simp, fun _ => table, by simp⟩ idle (by simp)
    | cons vnode rest =>
      simp only [table, guard_some] at taken
      obtain ⟨_, rfl⟩ := taken
      refine sound.go_to ⟨fun _ => owner, ?_, by simp, by simp⟩ idle (by simp)
      intro other same
      rw [← Place.found.inj same, table]
      exact List.mem_cons_self
  | pickUp thread =>
    cases here : state.place thread with
    | found vnode =>
      simp only [here, Option.bind_eq_some_iff, Option.some.injEq] at taken
      obtain ⟨contents, stored, rfl⟩ := taken
      exact pick_up_sound state sound stored here (orderly vnode contents here stored)
    | _ => simp [here] at taken
  | load thread forced linkcount =>
    obtain ⟨⟨here, _⟩, rfl⟩ := taken
    exact load_sound state forced linkcount sound here
  | loadFails thread =>
    obtain ⟨here, rfl⟩ := taken
    exact sound.go_to (outside_fits state thread) (by simp [here]) (by simp)
  | reclaim thread =>
    cases here : state.place thread with
    | handed vnode =>
      simp only [here, Option.map_eq_some_iff] at taken
      obtain ⟨locked, acquired, rfl⟩ := taken
      exact reclaim_sound state sound here acquired
    | _ => simp [here] at taken
  | look thread =>
    cases here : state.place thread with
    | reclaiming vnode =>
      simp only [here, Option.bind_eq_some_iff] at taken
      obtain ⟨contents, stored, looked⟩ := taken
      exact look_sound state sound stored here looked
    | _ => simp [here] at taken
  | erase thread truncated synced =>
    cases here : state.place thread with
    | erasing vnode =>
      simp only [here, Option.bind_eq_some_iff] at taken
      obtain ⟨contents, stored, erased⟩ := taken
      exact erase_sound state sound here stored (orderly vnode contents here stored) erased
    | _ => simp [here] at taken
  | free thread =>
    cases here : state.place thread with
    | freeing vnode =>
      simp only [here, Option.some.injEq] at taken
      subst taken
      exact free_sound state sound here
    | _ => simp [here] at taken

end

/-- The count is the references held plus those handed to a pending reclaim; a vnode that
has been loaded is in the table until it is destroyed, which happens once, when it has no
references left, and while it is in the table it has a reference or a reclaim is pending;
and the table has at most one vnode for the inode. -/
structure Accounted (state : State Thread) : Prop where
  counted : ∀ vnode, vnode ∈ state.vnodes → ∃ contents, ∃ pending : List Thread,
    state.memory vnode = some contents ∧ pending.Nodup ∧
      (∀ thread, thread ∈ pending ↔ (state.place thread).Hands vnode) ∧
      contents.refcount.toInt = state.held vnode + pending.length
  once : ∀ vnode, vnode < state.fresh → (vnode ∈ state.vnodes ∧ state.destroyed vnode = 0 ∧
        (0 < state.held vnode ∨ ∃ thread, (state.place thread).Hands vnode)) ∨
      (vnode ∉ state.vnodes ∧ state.destroyed vnode = 1 ∧ state.held vnode = 0)
  single : state.vnodes.length ≤ 1

/-- In every run in which the disk operations of the reclaims succeed and no count passes the
largest `int`, every state reached is accounted for. -/
theorem accounted_in_orderly_runs (state : State Thread)
    (reached : Reaches next Orderly Initial state) : Accounted state := by
  have sound : Sound state := reached.invariant initial_sound next_sound
  refine ⟨?_, ?_, ?_⟩
  · intro vnode loaded
    obtain ⟨contents, stored, pending, listed, tally, _⟩ := sound.tallied vnode loaded
    exact ⟨contents, pending, stored, listed.distinct, listed.members, tally⟩
  · intro vnode born
    by_cases loaded : vnode ∈ state.vnodes
    · obtain ⟨contents, _, pending, listed, tally, positive⟩ := sound.tallied vnode loaded
      refine Or.inl ⟨loaded, (sound.born vnode loaded).2, ?_⟩
      cases pending with
      | nil => exact Or.inl (by simpa [tally] using positive)
      | cons thread rest => exact Or.inr ⟨thread, (listed.members thread).mp List.mem_cons_self⟩
    · obtain ⟨none, _, count⟩ := sound.gone vnode loaded
      exact Or.inr ⟨loaded, by simpa [born] using count, none⟩
  · rcases sound.single with none | ⟨vnode, only⟩
    · simp [none]
    · simp [only]

/-- Two threads, an inode in use, and nothing loaded. -/
def unloaded : State Bool where
  biglock := none
  depth := 0
  memory := fun _ => none
  vnodes := []
  bused := true
  fresh := 0
  place := fun _ => .outside
  held := fun _ => 0
  destroyed := fun _ => 0

theorem unloaded_initial : Initial unloaded :=
  ⟨rfl, rfl, rfl, fun _ => rfl, fun _ => rfl, fun _ => rfl⟩

/-- A thread creates the file and drops its reference, which is the last. Another thread picks
the vnode up before the reclaim has the big lock, the reclaim finds it busy, and the second
drop destroys it. -/
def revived : List (Action Bool) :=
  [.enter true, .search true true, .load true true 1, .leave true, .decref true 0,
    .enter false, .search false false, .pickUp false, .leave false, .reclaim true,
    .look true, .decref false 0, .reclaim false, .look false, .erase false true true, .free false]

/-- Both disk operations of a reclaim succeed, and a count that is raised is one. -/
def answers (state : State Bool) : Action Bool → Bool
  | .erase _ truncated synced => truncated && synced
  | .incref .. => false
  | .pickUp thread => match state.place thread with
    | .found vnode => (state.memory vnode).all (·.refcount = 1)
    | _ => true
  | _ => true

/-- The vnode that was picked up again has been destroyed once, and no other was made. -/
theorem accounted_after_revival :
    ∃ state : State Bool, Reaches next Orderly Initial state ∧ state.fresh = 1 ∧
      state.destroyed 0 = 1 ∧ Accounted state := by
  obtain ⟨state, evaluated, one, destroyed⟩ : ∃ state ∈ exec next unloaded revived,
      state.fresh = 1 ∧ state.destroyed 0 = 1 := by
    decide +kernel
  have reached : Reaches next Orderly Initial state := by
    refine @reaches_of_permitted _ _ _ _ (answers · · = true) _ _ _ ?_ _
      (.start unloaded unloaded_initial) (by decide +kernel) evaluated
    intro state action passed
    cases action with
    | erase thread truncated synced =>
      have both : truncated = true ∧ synced = true := by simpa [answers] using passed
      intro vnode contents _ _
      exact ⟨fun _ => both.1, fun _ => both.2⟩
    | incref thread vnode => cases passed
    | pickUp thread =>
      intro vnode contents here stored
      have one : contents.refcount = 1 := by simpa [answers, here, stored] using passed
      rw [one]
      decide
    | _ => trivial
  exact ⟨state, reached, one, destroyed, accounted_in_orderly_runs state reached⟩

/-- A file is created and unlinked, and its last reference is dropped; `sfs_itrunc` fails to
read the indirect block. -/
def unlinkedAndUnread : List (Action Bool) :=
  [.enter true, .search true true, .load true true 1, .change true 0 0, .leave true,
    .decref true 0, .reclaim true, .look true, .erase true false true]

/-- The reclaim gives up, and the reference it was handed is still in the count although
nobody has it; the vnode stays for good. -/
theorem reference_lost_on_disk_error :
    ∃ state, Reaches next Anything Initial state ∧
      exec next unloaded unlinkedAndUnread = some state ∧
      0 ∈ state.vnodes ∧ state.held 0 = 0 ∧ (∀ thread, state.place thread = .outside) ∧
      (state.memory 0).map Vnode.refcount = some 1 ∧ ¬ Accounted state := by
  obtain ⟨state, evaluated, loaded, none, outside, one, born⟩ : ∃ state ∈ exec next unloaded
      unlinkedAndUnread, 0 ∈ state.vnodes ∧ state.held 0 = 0 ∧
      (∀ thread, state.place thread = .outside) ∧
      (state.memory 0).map Vnode.refcount = some 1 ∧ state.fresh = 1 := by
    decide +kernel
  refine ⟨state, reaches_of_exec Initial _ unloaded_initial evaluated, evaluated,
    loaded, none, outside, one, ?_⟩
  intro accounted
  rcases accounted.once 0 (by omega) with ⟨_, _, held | ⟨thread, hands⟩⟩ | ⟨absent, _⟩
  · omega
  · simp [outside thread] at hands
  · exact absent loaded

end Os161.Vfs.VnodeLife
