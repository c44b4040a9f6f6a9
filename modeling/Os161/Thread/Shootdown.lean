import Os161.Vm.Fault

/-!
# TLB shootdown requests

A CPU asks another to drop TLB entries by writing the request into an array of the
target and raising an interprocessor interrupt; the target works through the array when
it takes the interrupt. Both sides hold the target's IPI lock throughout, so each is one
step. The counter of pending requests doubles as a marker: it is set to
`TLBSHOOTDOWN_ALL` when a request finds the array full, and the handler then drops the
whole TLB.

The words of `struct cpu` that matter here are adjacent: the word of pending interrupts,
the array, and the counter. A store at index minus one is a store to the pending word.
-/
namespace Os161.Thread.Shootdown

open Os161.Library.Runs Os161.Vm Function

/-- `TLBSHOOTDOWN_MAX`. -/
abbrev shootdownMax : Nat := 16

/-- `TLBSHOOTDOWN_ALL`. -/
abbrev shootdownAll : Int := -1

/-- `struct tlbshootdown`: the index of a TLB entry. -/
structure Tlbshootdown where
  placeholder : BitVec 32
  deriving DecidableEq

/-- The interprocessor interrupts. -/
inductive Ipi
  | panic
  | offline
  | unidle
  | tlbshootdown
  deriving DecidableEq

/-- The number of an interrupt, which is its bit in the pending word. -/
def Ipi.code : Ipi → Nat
  | .panic => 0
  | .offline => 1
  | .unidle => 2
  | .tlbshootdown => 3

/-- The fields of `struct cpu` under the IPI lock, and the CPU's TLB. -/
structure Cpu where
  ipiPending : BitVec 32
  shootdown : Nat → Tlbshootdown
  numshootdown : Int
  tlb : Nat → TlbEntry

/-- The TLB entry a request names. The index register has six bits for it. -/
def Tlbshootdown.slot (mapping : Tlbshootdown) : Nat := mapping.placeholder.toNat % numTlb

def vmTlbshootdown (tlb : Nat → TlbEntry) (mapping : Tlbshootdown) : Nat → TlbEntry :=
  update tlb mapping.slot { tlb mapping.slot with elo := (tlb mapping.slot).elo &&& ~~~tlbloValid }

def vmTlbshootdownAll (tlb : Nat → TlbEntry) : Nat → TlbEntry :=
  ((List.range 64).map (fun i => Tlbshootdown.mk (BitVec.ofNat 32 i))).foldl vmTlbshootdown tlb

/-- Store a request at an index of the array. The word before the array is the pending
word; no other word outside is ever addressed. -/
def Cpu.store (cpu : Cpu) (index : Int) (mapping : Tlbshootdown) : Option Cpu :=
  if 0 ≤ index ∧ index < shootdownMax then
    some { cpu with shootdown := update cpu.shootdown index.toNat mapping }
  else if index = -1 then some { cpu with ipiPending := mapping.placeholder }
  else none

/-- Set the bit of an interrupt in the pending word. -/
def Cpu.raise (cpu : Cpu) (ipi : Ipi) : Cpu :=
  { cpu with ipiPending := cpu.ipiPending ||| 1#32 <<< ipi.code }

/-- `ipi_send`, under the IPI lock of the target. -/
def ipiSend (ipi : Ipi) (target : Cpu) : Cpu := target.raise ipi

/-- `ipi_tlbshootdown`, under the IPI lock of the target. -/
def ipiTlbshootdown (mapping : Tlbshootdown) (target : Cpu) : Option Cpu :=
  let n := target.numshootdown
  if n = shootdownMax then
    some ({ target with numshootdown := shootdownAll }.raise .tlbshootdown)
  else
    (target.store n mapping).map (fun stored =>
      { stored with numshootdown := n + 1 }.raise .tlbshootdown)

/-- The bit of an interrupt is set in the pending word. -/
def Cpu.Pending (cpu : Cpu) (ipi : Ipi) : Prop := cpu.ipiPending.getLsbD ipi.code = true

instance (cpu : Cpu) (ipi : Ipi) : Decidable (cpu.Pending ipi) :=
  inferInstanceAs (Decidable (_ = _))

/-- The shootdown part of the handler. -/
def serve (cpu : Cpu) : Cpu :=
  if cpu.numshootdown = shootdownAll then
    { cpu with tlb := vmTlbshootdownAll cpu.tlb, numshootdown := 0 }
  else
    { cpu with
      tlb := ((List.range cpu.numshootdown.toNat).map cpu.shootdown).foldl vmTlbshootdown cpu.tlb
      numshootdown := 0 }

/-- `interprocessor_interrupt`. A panic elsewhere and a request to go offline halt the
CPU, and there is no state after that. -/
def interprocessorInterrupt (cpu : Cpu) : Option Cpu :=
  if cpu.Pending .panic then none
  else if cpu.Pending .offline then none
  else
    let served := if cpu.Pending .tlbshootdown then serve cpu else cpu
    some { served with ipiPending := 0#32 }

/-- One target, what has been requested of it since its handler last ran, and every
index at which a request has been stored. -/
structure State where
  cpu : Cpu
  requested : List Tlbshootdown
  stored : List Int

/-- What happens to the target. -/
inductive Event
  | request (mapping : Tlbshootdown)
  | unidle
  | interrupt

/-- The transition function. -/
def next (state : State) : Event → Option State
  | .request mapping => (ipiTlbshootdown mapping state.cpu).map (fun cpu =>
      { cpu := cpu
        requested := state.requested ++ [mapping]
        stored := if state.cpu.numshootdown = shootdownMax then state.stored
          else state.stored ++ [state.cpu.numshootdown] })
  | .unidle => some { state with cpu := ipiSend .unidle state.cpu }
  | .interrupt => (interprocessorInterrupt state.cpu).map (fun cpu =>
      { state with cpu := cpu, requested := [] })

/-- A CPU as `cpu_create` leaves it, with anything in its TLB. -/
def Initial (state : State) : Prop :=
  state.cpu.ipiPending = 0#32 ∧ state.cpu.numshootdown = 0 ∧ state.requested = [] ∧
    state.stored = []

/-- An entry that translates nothing. -/
def Invalid (tlb : Nat → TlbEntry) (slot : Nat) : Prop := (tlb slot).elo &&& tlbloValid = 0#32

instance (tlb : Nat → TlbEntry) (slot : Nat) : Decidable (Invalid tlb slot) :=
  inferInstanceAs (Decidable (_ = _))

/-- Requests are honoured: if the handler ran now it would return and leave no requested
mapping valid, and no request has been stored outside the array. -/
def Honoured (state : State) : Prop :=
  (∃ after, interprocessorInterrupt state.cpu = some after ∧
    ∀ mapping, mapping ∈ state.requested → Invalid after.tlb mapping.slot) ∧
  ∀ index, index ∈ state.stored → 0 ≤ index ∧ index < shootdownMax

/-- At most one request more than the array has room for comes in between two runs of
the handler. -/
def Spaced (state : State) : Event → Prop
  | .request _ => state.requested.length ≤ shootdownMax
  | _ => True

section

variable (tlb : Nat → TlbEntry)

theorem shootdown_invalidates (mapping : Tlbshootdown) :
    Invalid (vmTlbshootdown tlb mapping) mapping.slot := by
  simp only [Invalid, vmTlbshootdown, update_self]
  rw [BitVec.and_assoc, BitVec.and_comm (~~~tlbloValid)]
  have nothing : tlbloValid &&& ~~~tlbloValid = 0#32 := by decide
  rw [nothing, BitVec.and_zero]

theorem shootdown_keeps_invalid (mapping : Tlbshootdown) (slot : Nat)
    (invalid : Invalid tlb slot) : Invalid (vmTlbshootdown tlb mapping) slot := by
  obtain rfl | same := eq_or_ne slot mapping.slot
  · exact shootdown_invalidates tlb mapping
  · simpa only [Invalid, vmTlbshootdown, update_of_ne same] using invalid

theorem shootdowns_keep_invalid (mappings : List Tlbshootdown) (slot : Nat)
    (invalid : Invalid tlb slot) : Invalid (mappings.foldl vmTlbshootdown tlb) slot := by
  induction mappings generalizing tlb with
  | nil => exact invalid
  | cons mapping rest ih =>
    exact ih _ (shootdown_keeps_invalid tlb mapping slot invalid)

/-- After a loop of shootdowns every mapping it went through is invalid. -/
theorem shootdowns_invalidate {mappings : List Tlbshootdown}
    {mapping : Tlbshootdown} (listed : mapping ∈ mappings) :
    Invalid (mappings.foldl vmTlbshootdown tlb) mapping.slot := by
  induction mappings generalizing tlb with
  | nil => cases listed
  | cons first rest ih =>
    rcases List.mem_cons.mp listed with rfl | later
    · exact shootdowns_keep_invalid _ rest _ (shootdown_invalidates tlb mapping)
    · exact ih _ later

/-- Dropping the whole TLB drops the entry of any mapping. -/
theorem shootdown_all_invalidates (mapping : Tlbshootdown) :
    Invalid (vmTlbshootdownAll tlb) mapping.slot := by
  have small : mapping.slot < 64 := Nat.mod_lt _ (by decide)
  have listed : Tlbshootdown.mk (BitVec.ofNat 32 mapping.slot) ∈
      (List.range 64).map (fun i => Tlbshootdown.mk (BitVec.ofNat 32 i)) :=
    List.mem_map.mpr ⟨mapping.slot, List.mem_range.mpr small, rfl⟩
  have same : (Tlbshootdown.mk (BitVec.ofNat 32 mapping.slot)).slot = mapping.slot := by
    have word : mapping.slot < 2 ^ 32 := by omega
    have modulus : mapping.slot % numTlb = mapping.slot := Nat.mod_eq_of_lt small
    rw [Tlbshootdown.slot, BitVec.toNat_ofNat, Nat.mod_eq_of_lt word, modulus]
  have invalid := shootdowns_invalidate tlb listed
  rwa [same] at invalid

end

/-- Neither of the interrupts that halt the CPU is pending. -/
def Cpu.Running (cpu : Cpu) : Prop := ¬ cpu.Pending .panic ∧ ¬ cpu.Pending .offline

/-- What the array and the counter say about the requests: all of them in order while
they fit, the marker after one more. -/
structure Recorded (state : State) : Prop where
  few : state.requested.length ≤ shootdownMax + 1
  counted : state.requested.length ≤ shootdownMax →
    state.cpu.numshootdown = state.requested.length ∧
      (List.range state.requested.length).map state.cpu.shootdown = state.requested
  marked : state.requested.length = shootdownMax + 1 → state.cpu.numshootdown = shootdownAll
  raised : state.requested ≠ [] → state.cpu.Pending .tlbshootdown
  running : state.cpu.Running
  inside : ∀ index, index ∈ state.stored → 0 ≤ index ∧ index < shootdownMax

theorem initial_recorded (state : State) (initial : Initial state) : Recorded state := by
  obtain ⟨quiet, none, nothing, unstored⟩ := initial
  refine ⟨by simp [nothing], ?_, by simp [nothing], by simp [nothing], ?_, by simp [unstored]⟩
  · intro _
    simp [nothing, none]
  · simp [Cpu.Running, Cpu.Pending, quiet]

/-- Raising an interrupt sets its own bit and no other. -/
theorem pending_raise (cpu : Cpu) (raised ipi : Ipi) :
    (cpu.raise raised).Pending ipi ↔ cpu.Pending ipi ∨ raised = ipi := by
  have bit : (1#32 <<< raised.code).getLsbD ipi.code = decide (raised = ipi) := by
    cases raised <;> cases ipi <;> decide
  simp [Cpu.Pending, Cpu.raise, BitVec.getLsbD_or, bit]

/-- Raising one of the other interrupts does not halt the CPU. -/
theorem running_raise {cpu : Cpu} {raised : Ipi} (running : cpu.Running)
    (harmless : raised = .unidle ∨ raised = .tlbshootdown) : (cpu.raise raised).Running := by
  constructor
  · rw [pending_raise]
    rintro (before | rfl)
    · exact running.1 before
    · simp at harmless
  · rw [pending_raise]
    rintro (before | rfl)
    · exact running.2 before
    · simp at harmless

/-- The first entries of an array after one more has been stored behind them. -/
theorem map_range_store (entries : Nat → Tlbshootdown) (count : Nat) (mapping : Tlbshootdown) :
    (List.range (count + 1)).map (update entries count mapping) =
      (List.range count).map entries ++ [mapping] := by
  rw [List.range_succ, List.map_append]
  congr 1
  · apply List.map_congr_left
    intro i inside
    have below := List.mem_range.mp inside
    rw [update_of_ne (by omega)]
  · simp

variable {state after : State}

/-- A request that finds room is stored behind the earlier ones; one that finds the
array full sets the marker. -/
theorem request_recorded {mapping : Tlbshootdown} (recorded : Recorded state)
    (spaced : state.requested.length ≤ shootdownMax)
    (taken : next state (.request mapping) = some after) : Recorded after := by
  obtain ⟨counter, array⟩ := recorded.counted spaced
  by_cases full : state.requested.length = shootdownMax
  · have marker : state.cpu.numshootdown = shootdownMax := by rw [counter, full]
    simp only [next, ipiTlbshootdown, marker, if_true, Option.map_some, Option.some.injEq] at taken
    subst taken
    refine ⟨?_, ?_, ?_, ?_, ?_, recorded.inside⟩
    · simp [full]
    · simp only [List.length_append, List.length_singleton, full]
      omega
    · intro _
      rfl
    · intro _
      exact (pending_raise _ _ _).mpr (Or.inr rfl)
    · exact running_raise recorded.running (Or.inr rfl)
  · have notMarker : state.cpu.numshootdown ≠ shootdownMax := by omega
    have inside : 0 ≤ state.cpu.numshootdown ∧ state.cpu.numshootdown < shootdownMax := by omega
    have index : state.cpu.numshootdown.toNat = state.requested.length := by omega
    simp only [next, ipiTlbshootdown, if_neg notMarker, Cpu.store, if_pos inside, Option.map_some,
      Option.some.injEq, index] at taken
    subst taken
    refine ⟨?_, ?_, ?_, ?_, ?_, ?_⟩
    · simp only [List.length_append, List.length_singleton]
      omega
    · intro _
      simp only [Cpu.raise, List.length_append, List.length_singleton]
      refine ⟨by omega, ?_⟩
      rw [map_range_store, array]
    · simp only [List.length_append, List.length_singleton]
      omega
    · intro _
      exact (pending_raise _ _ _).mpr (Or.inr rfl)
    · exact running_raise recorded.running (Or.inr rfl)
    · intro other member
      rcases List.mem_append.mp member with before | here
      · exact recorded.inside other before
      · rw [List.mem_singleton.mp here]
        exact inside

/-- The loop over the array, or dropping the whole TLB, covers every request. -/
theorem serve_invalidates (recorded : Recorded state) (mapping : Tlbshootdown)
    (requested : mapping ∈ state.requested) : Invalid (serve state.cpu).tlb mapping.slot := by
  have few := recorded.few
  by_cases fits : state.requested.length ≤ shootdownMax
  · obtain ⟨counter, array⟩ := recorded.counted fits
    have notMarker : state.cpu.numshootdown ≠ shootdownAll := by
      unfold shootdownAll
      omega
    have index : state.cpu.numshootdown.toNat = state.requested.length := by omega
    simp only [serve, if_neg notMarker, index, array]
    exact shootdowns_invalidate _ requested
  · have marker := recorded.marked (by omega)
    simp only [serve, if_pos marker]
    exact shootdown_all_invalidates _ _

/-- The handler of a CPU that is not told to halt returns, and the requested mappings
are gone. -/
theorem interrupt_serves (recorded : Recorded state) :
    ∃ after, interprocessorInterrupt state.cpu = some after ∧ after.ipiPending = 0#32 ∧
      after.numshootdown = 0 ∧
      ∀ mapping, mapping ∈ state.requested → Invalid after.tlb mapping.slot := by
  obtain ⟨noPanic, noOffline⟩ := recorded.running
  simp only [interprocessorInterrupt, if_neg noPanic, if_neg noOffline, Option.some.injEq,
    exists_eq_left', true_and]
  by_cases pending : state.cpu.Pending .tlbshootdown
  · simp only [if_pos pending]
    refine ⟨?_, serve_invalidates recorded⟩
    unfold serve
    split <;> rfl
  · have nothing : state.requested = [] := by
      by_contra something
      exact pending (recorded.raised something)
    obtain ⟨counter, _⟩ := recorded.counted (by simp [nothing])
    simp only [if_neg pending, nothing, List.not_mem_nil, false_implies, implies_true, and_true]
    simpa [nothing] using counter

theorem interrupt_recorded (recorded : Recorded state)
    (taken : next state .interrupt = some after) :
    Recorded after := by
  obtain ⟨cpu, returned, quiet, empty, _⟩ := interrupt_serves recorded
  simp only [next, returned, Option.map_some, Option.some.injEq] at taken
  subst taken
  refine ⟨by simp, by simp [empty], by simp, by simp, ?_, recorded.inside⟩
  simp [Cpu.Running, Cpu.Pending, quiet]

theorem unidle_recorded (recorded : Recorded state) (taken : next state .unidle = some after) :
    Recorded after := by
  simp only [next, Option.some.injEq] at taken
  subst taken
  refine { recorded with raised := ?_, running := ?_ }
  · intro something
    exact (pending_raise _ _ _).mpr (Or.inl (recorded.raised something))
  · exact running_raise recorded.running (Or.inl rfl)

theorem next_recorded (state : State) (event : Event) (after : State) (recorded : Recorded state)
    (spaced : Spaced state event) (taken : next state event = some after) : Recorded after := by
  cases event with
  | request mapping => exact request_recorded recorded spaced taken
  | unidle => exact unidle_recorded recorded taken
  | interrupt => exact interrupt_recorded recorded taken

/-- In every run in which at most seventeen requests come in between two runs of the
handler, every run of the handler returns and invalidates all that was requested since
the one before, and every request is stored inside the array. -/
theorem honoured_in_spaced_runs (state : State) (reached : Reaches next Spaced Initial state) :
    Honoured state := by
  have recorded : Recorded state := reached.invariant initial_recorded next_recorded
  obtain ⟨after, returned, _, _, invalid⟩ := interrupt_serves recorded
  exact ⟨⟨after, returned, invalid⟩, recorded.inside⟩

/-- A CPU whose TLB entries are all valid, before any request. -/
def fresh : State where
  cpu := {
    ipiPending := 0#32
    shootdown := fun _ => ⟨0#32⟩
    numshootdown := 0
    tlb := fun slot => { ehi := BitVec.ofNat 32 slot <<< 12, elo := tlbloValid } }
  requested := []
  stored := []

theorem fresh_initial : Initial fresh := ⟨rfl, rfl, rfl, rfl⟩

/-- Requests for so many entries in a row, from entry 3 on. -/
def burst (count : Nat) : List Event :=
  (List.range count).map (fun i => .request ⟨BitVec.ofNat 32 (i + 3)⟩)

/-- Seventeen requests in a row fill the array and set the marker; the handler drops the
whole TLB. -/
theorem honoured_after_seventeen :
    ∃ state, Reaches next Spaced Initial state ∧ state.requested.length = 17 ∧ Honoured state := by
  obtain ⟨state, evaluated, long⟩ : ∃ state ∈ exec next fresh (burst 17),
      state.requested.length = 17 := by
    decide +kernel
  have few : Permits next (fun state _ => state.requested.length ≤ 16) fresh (burst 17) := by
    decide +kernel
  have reached : Reaches next Spaced Initial state := by
    refine reaches_of_permitted ?_ (.start fresh fresh_initial) few evaluated
    intro state event few
    cases event with
    | request mapping => exact few
    | unidle | interrupt => trivial
  exact ⟨state, reached, long, honoured_in_spaced_runs state reached⟩

/-- The eighteenth request in a row finds the marker where it expects the count. It is
stored in the word before the array, the count becomes zero, and the handler that runs
next invalidates none of the eighteen mappings. -/
theorem requests_lost_after_overflow :
    ∃ state after, Reaches next Anything Initial state ∧
      exec next fresh (burst 18) = some state ∧ -1 ∈ state.stored ∧
      interprocessorInterrupt state.cpu = some after ∧ state.requested.length = 18 ∧
      (∀ mapping, mapping ∈ state.requested → ¬ Invalid after.tlb mapping.slot) ∧
      ¬ Honoured state := by
  obtain ⟨state, evaluated, outside, long, after, returned, kept⟩ :
      ∃ state ∈ exec next fresh (burst 18), -1 ∈ state.stored ∧ state.requested.length = 18 ∧
        ∃ after ∈ interprocessorInterrupt state.cpu,
          ∀ mapping ∈ state.requested, ¬ Invalid after.tlb mapping.slot := by
    decide +kernel
  refine ⟨state, after, reaches_of_exec Initial (burst 18) fresh_initial evaluated,
    evaluated, outside, returned, long, kept, ?_⟩
  intro honoured
  have inside := honoured.2 (-1) outside
  omega

end Os161.Thread.Shootdown
