import Os161.Sfs.Fsops

/-!
# What a sync puts on the disk

`sfs_sync` goes over the vnodes, the freemap and the superblock and writes what is dirty
with `sfs_writeblock`. On a disk that has the blocks it makes one request for each dirty
block, in order, and returns 0 whatever the disk answers: `sfs_writeblock` reports success
after a request that failed, since it tries again with a uio that has nothing left, and
the results of `VOP_FSYNC` are not looked at. The dirty blocks are on the disk exactly if it
has answered their requests with success.
-/
namespace Os161.Sfs

open Os161.Kern Os161.Library Os161.Library.Program

/-- A block to be written, with its data. -/
abbrev BlockWrite := Ino × Block

/-- Write blocks in order with `sfs_writeblock`, and collect the requests to the disk. -/
def writeAll : List BlockWrite → Device → Except Panic (Device × List Transfer)
  | [], device => .ok (device, [])
  | write :: rest, device => do
    let io ← sfsWriteblock device write.1 write.2
    let later ← writeAll rest io.device
    .ok (later.1, io.transfers ++ later.2)

/-- The inode of a vnode, if it is dirty. -/
def dirtyInode (fs : Fs) (ino : Ino) : List BlockWrite :=
  match fs.heap ino with
  | some sv => if sv.dirty = true then [(ino, sv.i.encode)] else []
  | none => []

/-- The blocks of the freemap, if it is dirty. -/
def dirtyFreemap (fs : Fs) : List BlockWrite :=
  if fs.freemapdirty = true then
    (List.range (sfsFreemapblocks fs.sb.nblocks).toNat).map
      (fun j => (BitVec.ofNat 32 (freemapStart + j), freemapBlock fs.freemap j))
  else []

/-- The superblock, if it is dirty. -/
def dirtySuperblock (fs : Fs) : List BlockWrite :=
  if fs.superdirty = true then [(0, fs.sb.encode)] else []

/-- Everything that is dirty. -/
def dirtyBlocks (fs : Fs) : List BlockWrite :=
  fs.vnodes.flatMap (dirtyInode fs) ++ dirtyFreemap fs ++ dirtySuperblock fs

/-- The outcome of a program that makes some writes and otherwise leaves a given state. -/
def writesOutcome (after : Fs) :
    Except Panic (Device × List Transfer) → Outcome Panic Errno Fs PUnit
  | .error panic => .stop panic
  | .ok done => .done PUnit.unit { after with device := done.1 }

/-- A program makes exactly these writes with `sfs_writeblock`, whatever the disk, and
otherwise turns one state into another. -/
def Performs (program : FsProgram PUnit) (fs : Fs) (writes : List BlockWrite) (after : Fs) : Prop :=
  ∀ device, program { fs with device := device } = writesOutcome after (writeAll writes device)

theorem write_all_append (first second : List BlockWrite) (device : Device) :
    writeAll (first ++ second) device = (do
      let done ← writeAll first device
      let later ← writeAll second done.1
      .ok (later.1, done.2 ++ later.2)) := by
  induction first generalizing device with
  | nil =>
    simp only [List.nil_append, writeAll, bind, Except.bind]
    cases writeAll second device with
    | error panic | ok later => rfl
  | cons write rest ih =>
    simp only [List.cons_append, writeAll, bind, Except.bind, ih]
    cases sfsWriteblock device write.1 write.2 with
    | error panic => rfl
    | ok io =>
      dsimp only
      cases writeAll rest io.device with
      | error panic => rfl
      | ok done =>
        dsimp only
        cases writeAll second done.1 with
        | error panic => rfl
        | ok later => simp only [List.append_assoc]

section performs

variable {fs middle after : Fs} {first second : List BlockWrite}

theorem performs_pure : Performs (pure ()) fs [] fs := fun _ => rfl

/-- Two programs in sequence make their writes in sequence. -/
theorem Performs.bind {program : FsProgram PUnit} {next : PUnit → FsProgram PUnit}
    (performs : Performs program fs first middle) (then_ : Performs (next ()) middle second after) :
    Performs (program >>= next) fs (first ++ second) after := by
  intro device
  show andThen program next _ = _
  unfold andThen
  rw [performs device, write_all_append]
  cases ended : writeAll first device with
  | error panic => rfl
  | ok done =>
    simp only [writesOutcome, then_ done.1, Bind.bind, Except.bind]
    cases writeAll second done.1 with
    | error panic | ok later => rfl

/-- A program that makes its writes does not fail, so trying it is running it. -/
theorem Performs.attempt_bind {program : FsProgram PUnit}
    {next : Except Errno PUnit → FsProgram PUnit} (performs : Performs program fs first middle)
    (then_ : Performs (next (.ok ())) middle second after) :
    Performs (attempt program >>= next) fs (first ++ second) after := by
  intro device
  have bound : Performs (program >>= fun _ => next (.ok ())) fs (first ++ second) after :=
    performs.bind then_
  rw [← bound device]
  show andThen (attempt program) next _ = andThen program _ _
  unfold andThen attempt
  rw [performs device]
  cases writeAll first device <;> rfl

/-- `sfs_writeblock` does not fail: it returns, or it panics. -/
theorem performs_writeblock {block : Ino} {data : Block} :
    Performs (writeblock block data) fs [(block, data)] fs := by
  intro device
  by_cases below : block.toNat < device.nsect
  · obtain ⟨io, evaluated, returned, _, _⟩ := sfs_writeblock_returns device block data below
    simp only [writeAll, Bind.bind, Except.bind, evaluated]
    unfold sfsWriteblock at evaluated
    simp only [writeblockBy, Bind.bind, andThen, evaluated, deviceResult, returned, writesOutcome]
    rfl
  · have panics := sfs_writeblock_panics device block data (by omega)
    simp only [writeAll, Bind.bind, Except.bind, panics]
    unfold sfsWriteblock at panics
    simp [writeblockBy, Bind.bind, andThen, panics, deviceResult,
      writesOutcome]

/-- The loop of `sfs_freemapio` writes the blocks of the freemap in order. -/
theorem performs_freemap_rounds (bound : Nat) :
    Performs (countUp (sfsFreemapioRound .write) bound ()) fs ((List.range bound).map
        (fun j => (BitVec.ofNat 32 (freemapStart + j), freemapBlock fs.freemap j))) fs := by
  induction bound with
  | zero => exact performs_pure
  | succ bound ih =>
    rw [List.range_succ, List.map_append]
    exact Performs.bind ih (fun device => performs_writeblock device)

theorem performs_inspect {Value : Type} {look : Fs → Value} {next : Value → FsProgram PUnit}
    (blind : ∀ device, look { fs with device := device } = look fs)
    (then_ : Performs (next (look fs)) fs first after) :
    Performs (inspect look >>= next) fs first after := by
  intro device
  rw [run_bind_inspect, blind]
  exact then_ device

/-- `sfs_sync_freemap` writes the free map when it is dirty, and nothing else. -/
theorem performs_sync_freemap :
    Performs sfsSyncFreemap fs (dirtyFreemap fs) { fs with freemapdirty := false } := by
  refine performs_inspect (fun _ => rfl) ?_
  unfold dirtyFreemap
  by_cases dirty : fs.freemapdirty = true
  · rw [if_pos dirty, if_pos dirty]
    have written : Performs (sfsFreemapio .write) fs _ fs :=
      performs_inspect (fun _ => rfl) (performs_freemap_rounds _)
    have cleared : Performs (change (fun fs => { fs with freemapdirty := false })) fs []
        { fs with freemapdirty := false } := fun _ => rfl
    have both : Performs (sfsFreemapio .write >>= fun _ =>
        change (fun fs => { fs with freemapdirty := false })) fs _ _ := written.bind cleared
    rw [List.append_nil] at both
    exact both
  · rw [if_neg dirty, if_neg dirty]
    intro device
    have clean : fs.freemapdirty = false := eq_false_of_ne_true dirty
    simp only [clean, writesOutcome, writeAll]
    rfl

theorem performs_sync_superblock :
    Performs sfsSyncSuperblock fs (dirtySuperblock fs) { fs with superdirty := false } := by
  refine performs_inspect (fun _ => rfl) ?_
  unfold dirtySuperblock
  by_cases dirty : fs.superdirty = true
  · rw [if_pos dirty, if_pos dirty]
    have cleared : Performs (change (fun fs => { fs with superdirty := false })) fs []
        { fs with superdirty := false } := fun _ => rfl
    exact performs_inspect (fun _ => rfl) ((performs_writeblock).bind cleared)
  · rw [if_neg dirty, if_neg dirty]
    intro device
    have clean : fs.superdirty = false := eq_false_of_ne_true dirty
    simp only [clean, writesOutcome, writeAll]
    rfl

/-- The vnodes in memory, with some of them clean. -/
def cleanedHeap (heap : Ino → Option Vnode) (inos : List Ino) (ino : Ino) : Option Vnode :=
  if inos.any (fun other => decide (ino = other)) then
    (heap ino).map (fun sv => { sv with dirty := false })
  else heap ino

theorem cleaned_heap_single {heap : Ino → Option Vnode} {ino : Ino} {sv : Vnode}
    (found : heap ino = some sv) :
    cleanedHeap heap [ino] = Function.update heap ino (some { sv with dirty := false }) := by
  funext other
  unfold cleanedHeap
  obtain rfl | same := eq_or_ne other ino
  · simp [found]
  · simp [same]

theorem cleaned_heap_cons {heap : Ino → Option Vnode} {ino : Ino} {rest : List Ino}
    (apart : ino ∉ rest) :
    cleanedHeap (cleanedHeap heap [ino]) rest = cleanedHeap heap (ino :: rest) := by
  funext other
  unfold cleanedHeap
  obtain rfl | same := eq_or_ne other ino
  · simp [apart]
  · simp [same]

/-- The file system with some of its vnodes clean. -/
def Fs.cleaned (fs : Fs) (inos : List Ino) : Fs := { fs with heap := cleanedHeap fs.heap inos }

/-- `sfs_sync_inode` writes the inode when it is dirty, and nothing else. -/
theorem performs_sync_inode {ino : Ino} (loaded : fs.heap ino ≠ none) :
    Performs (sfsSyncInode ino) fs (dirtyInode fs ino) (fs.cleaned [ino]) := by
  obtain ⟨sv, found⟩ := Option.ne_none_iff_exists'.mp loaded
  have edited : Performs (editVnode ino (fun sv => { sv with dirty := false })) fs []
      (fs.cleaned [ino]) := by
    intro device
    have ran := edit_vnode_returns ino (fun sv => { sv with dirty := false }) sv
      (show ({ fs with device := device } : Fs).heap ino = some sv from found)
    rw [ran]
    unfold Fs.cleaned
    rw [cleaned_heap_single found]
    rfl
  have looked : ∀ device, vnode ino { fs with device := device } =
      .done sv { fs with device := device } := fun device => vnode_returns found
  intro device
  unfold sfsSyncInode dirtyInode
  rw [run_bind_done (looked device), found]
  dsimp only
  by_cases dirty : sv.dirty = true
  · rw [if_pos dirty, if_pos dirty]
    exact (performs_writeblock).bind edited device
  rw [if_neg dirty, if_neg dirty]
  have same : ({ sv with dirty := false } : Vnode) = sv := by
    obtain ⟨i, clean, ops, refcount⟩ := sv
    have clean : clean = false := eq_false_of_ne_true dirty
    rw [clean]
  unfold Fs.cleaned
  rw [cleaned_heap_single found, same, Function.update_eq_self_iff.mpr found.symm]
  rfl

theorem dirty_inode_cleaned {ino : Ino} {inos : List Ino} (other : ino ∉ inos) :
    dirtyInode (fs.cleaned inos) ino = dirtyInode fs ino := by
  have same : (fs.cleaned inos).heap ino = fs.heap ino := if_neg (by simpa using other)
  unfold dirtyInode
  rw [same]

theorem cleaned_cons {ino : Ino} {rest : List Ino} (other : ino ∉ rest) :
    (fs.cleaned [ino]).cleaned rest = fs.cleaned (ino :: rest) := by
  unfold Fs.cleaned
  rw [cleaned_heap_cons other]

/-- The loop over the vnodes writes the dirty ones, each once. -/
theorem performs_sync_vnodes {vnodes : List Ino} (nodup : vnodes.Nodup)
    (loaded : ∀ ino, ino ∈ vnodes → fs.heap ino ≠ none) :
    Performs (sfsSyncVnodes vnodes) fs (vnodes.flatMap (dirtyInode fs)) (fs.cleaned vnodes) := by
  induction vnodes generalizing fs with
  | nil =>
    have same : cleanedHeap fs.heap [] = fs.heap := by
      funext ino
      exact if_neg Bool.false_ne_true
    exact performs_pure
  | cons ino rest ih =>
    obtain ⟨other, nodup⟩ := List.nodup_cons.mp nodup
    have synced := performs_sync_inode (loaded ino List.mem_cons_self)
    have still : ∀ index, index ∈ rest → (fs.cleaned [ino]).heap index ≠ none := by
      intro index member
      have different : index ≠ ino := by
        rintro rfl
        exact other member
      have same : (fs.cleaned [ino]).heap index = fs.heap index := if_neg (by simpa using different)
      rw [same]
      exact loaded index (List.mem_cons_of_mem _ member)
    have later := ih nodup still
    have dirty : rest.flatMap (dirtyInode (fs.cleaned [ino])) = rest.flatMap (dirtyInode fs) := by
      refine List.flatMap_congr (fun index member => dirty_inode_cleaned ?_)
      rw [List.mem_singleton]
      rintro rfl
      exact other member
    rw [dirty, cleaned_cons other] at later
    exact synced.attempt_bind later

/-- The file system after a sync, apart from the disk. -/
def Fs.synced (fs : Fs) : Fs :=
  { fs.cleaned fs.vnodes with freemapdirty := false, superdirty := false }

/-- `sfs_sync` writes what is dirty, in order and with `sfs_writeblock`. -/
theorem performs_sync (nodup : fs.vnodes.Nodup)
    (loaded : ∀ ino, ino ∈ fs.vnodes → fs.heap ino ≠ none) :
    Performs sfsSync fs (dirtyBlocks fs) fs.synced := by
  refine performs_inspect (fun _ => rfl) ?_
  have rest : Performs (sfsSyncFreemap >>= fun _ => sfsSyncSuperblock) (fs.cleaned fs.vnodes)
      (dirtyFreemap fs ++ dirtySuperblock fs) fs.synced :=
    Performs.bind performs_sync_freemap performs_sync_superblock
  unfold dirtyBlocks
  rw [List.append_assoc]
  exact Performs.bind (performs_sync_vnodes nodup loaded) rest

end performs

/-- The requests that writes make of the disk: one for each, which takes the next of the
answers to come. -/
theorem write_all_requests {writes : List BlockWrite} {device later : Device}
    {transfers : List Transfer} (wrote : writeAll writes device = .ok (later, transfers)) :
    transfers = writes.mapIdx (fun index write =>
      ⟨write.1.toNat, .write, write.2, device.answers index⟩) := by
  induction writes generalizing device transfers with
  | nil =>
    cases wrote
    rfl
  | cons write rest ih =>
    by_cases below : write.1.toNat < device.nsect
    · obtain ⟨io, evaluated, _, submitted, after⟩ :=
        sfs_writeblock_returns device write.1 write.2 below
      simp only [writeAll, bind, Except.bind, evaluated] at wrote
      cases ended : writeAll rest io.device with
      | error panic =>
        rw [ended] at wrote
        cases wrote
      | ok done =>
        rw [ended] at wrote
        cases wrote
        have answers : io.device.answers = fun index => device.answers (index + 1) := by
          rw [after]
          split <;> rfl
        rw [submitted, ih ended, answers, List.mapIdx_cons]
        rfl
    · have panics := sfs_writeblock_panics device write.1 write.2 (by omega)
      simp only [writeAll, bind, Except.bind, panics] at wrote
      cases wrote

/-- When `sfs_sync` returns 0, every inode, the freemap and the superblock, if they were dirty, have
been written as they stood in memory by requests the disk answered with success, exactly if for each
of these blocks the answer to its request, the one with the same place in the order, is success.

Proof: the call is the sequence of its writes (`performs_sync`), and the requests these make are
known with their answers (`write_all_requests`). -/
theorem sync_on_disk_iff (fs after : Fs) (nodup : fs.vnodes.Nodup)
    (loaded : ∀ ino, ino ∈ fs.vnodes → fs.heap ino ≠ none)
    (returned : sfsSync fs = .done () after) :
    (∃ transfers, writeAll (dirtyBlocks fs) fs.device = .ok (after.device, transfers)
      ∧ ∀ write, write ∈ dirtyBlocks fs → ⟨write.1.toNat, .write, write.2, true⟩ ∈ transfers) ↔
    ∀ write, write ∈ dirtyBlocks fs →
      ∃ index, (dirtyBlocks fs)[index]? = some write ∧ fs.device.answers index = true := by
  have ran : sfsSync fs = writesOutcome fs.synced (writeAll (dirtyBlocks fs) fs.device) :=
    performs_sync nodup loaded fs.device
  rw [returned] at ran
  cases wrote : writeAll (dirtyBlocks fs) fs.device with
  | error panic =>
    rw [wrote] at ran
    cases ran
  | ok done =>
    rw [wrote] at ran
    cases ran
    have requests := write_all_requests wrote
    constructor
    · rintro ⟨transfers, same, written⟩ write member
      have listed : done.2 = transfers := congrArg Prod.snd (Except.ok.inj same)
      have submitted := written write member
      rw [← listed, requests, List.mem_mapIdx] at submitted
      obtain ⟨index, below, request⟩ := submitted
      injection request with block _ data answer
      refine ⟨index, ?_, answer⟩
      rw [List.getElem?_eq_getElem below]
      exact congrArg some (Prod.ext (BitVec.eq_of_toNat_eq block) data)
    · refine fun answered => ⟨done.2, rfl, fun write member => ?_⟩
      obtain ⟨index, here, answer⟩ := answered write member
      obtain ⟨below, here⟩ := List.getElem?_eq_some_iff.mp here
      rw [requests, List.mem_mapIdx]
      exact ⟨index, below, by rw [here, answer]⟩

/-- The root directory is loaded and dirty, on a disk of eight empty sectors. -/
def oneDirty (answers : Nat → Bool) : Fs where
  sb := ⟨0, 8, fun _ => 0⟩
  superdirty := false
  device := ⟨fun _ _ => 0, 8, answers⟩
  vnodes := [1]
  vnodesMax := 4
  heap := fun ino => if ino = 1 then
    some ⟨⟨1, typeDir, 1, fun _ => 0, 0, fun _ => 0⟩, true, .dirops, 1⟩ else none
  freemap := ⟨4096, fun _ => 0⟩
  freemapdirty := false
  memory := fun _ => true

theorem one_dirty_loaded (answers : Nat → Bool) (ino : Ino)
    (member : ino ∈ (oneDirty answers).vnodes) : (oneDirty answers).heap ino ≠ none := by
  rw [List.mem_singleton.mp member]
  exact Option.some_ne_none _

/-- The inode is written when the disk answers with success. -/
theorem sync_on_disk_of_one : ∃ after, sfsSync (oneDirty fun _ => true) = .done () after
    ∧ ∃ transfers, writeAll (dirtyBlocks (oneDirty fun _ => true)) (oneDirty fun _ => true).device =
        .ok (after.device, transfers)
      ∧ ∀ write, write ∈ dirtyBlocks (oneDirty fun _ => true) →
        ⟨write.1.toNat, .write, write.2, true⟩ ∈ transfers := by
  obtain ⟨⟨_, after⟩, ended⟩ := Option.isSome_iff_exists.mp
    (show (sfsSync (oneDirty fun _ => true)).result.isSome = true by decide +kernel)
  have returned := Outcome.done_of_result ended
  refine ⟨after, returned, (sync_on_disk_iff (oneDirty fun _ => true) after
    (List.nodup_singleton _) (one_dirty_loaded _) returned).mpr fun write member => ?_⟩
  exact ⟨0, congrArg some (List.mem_singleton.mp member).symm, rfl⟩

/-- The disk answers the only request with an error. `sfs_sync` returns 0, the disk is as
it was, and the inode that was dirty is not on it. -/
theorem synced_without_writing : ∃ after block data,
    sfsSync (oneDirty fun _ => false) = .done () after
      ∧ (block, data) ∈ dirtyBlocks (oneDirty fun _ => false)
      ∧ after.device.sectors block.toNat ≠ data
      ∧ ∀ transfers, writeAll (dirtyBlocks (oneDirty fun _ => false))
          (oneDirty fun _ => false).device = .ok (after.device, transfers) →
        ⟨block.toNat, .write, data, true⟩ ∉ transfers := by
  obtain ⟨⟨_, after⟩, ended, differs⟩ : ∃ ended ∈ (sfsSync (oneDirty fun _ => false)).result,
      (dirtyBlocks (oneDirty fun _ => false)).all (fun write =>
        ended.2.device.sectors write.1.toNat 3 != write.2 3) = true := by
    decide +kernel
  refine ⟨after, 1, _, Outcome.done_of_result ended, List.mem_singleton.mpr rfl, ?_,
    fun transfers wrote member => ?_⟩
  · intro same
    have apart := List.all_eq_true.mp differs _ (List.mem_singleton.mpr rfl)
    exact ne_of_apply_ne (· 3) (bne_iff_ne.mp apart) same
  · rw [write_all_requests wrote, List.mem_mapIdx] at member
    obtain ⟨index, below, same⟩ := member
    exact absurd (congrArg Transfer.success same) Bool.false_ne_true

end Os161.Sfs
