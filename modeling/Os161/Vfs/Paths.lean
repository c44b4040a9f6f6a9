import Os161.Library.Program
import Os161.Vfs.Devices

/-!
# References held by operations on pathnames

`vfs_open` and its relatives find their way from a path to vnodes through the table of
devices, the current directory, the boot file system and calls of the file system, and
every one of these hands out a reference. The programs below follow the source call by
call. What the calls of the file system return is not known: each takes an answer from a
list, and one that hands out a vnode adds a reference to it exactly when it succeeds.

A reference that is dropped may be the last one. `vnode_decref` then leaves the count
alone and hands the reference to `VOP_RECLAIM`, which consumes it, unless it fails with
an error other than `EBUSY`. Apart from that, an operation gives back every reference it
took and keeps the one it hands out.
-/
namespace Os161.Vfs.Paths

open Os161.Kern Os161.Library Os161.Library.Program Os161.Vfs.Devices
open Ensures (bind_done attempt_bind bind_check)

/-- A vnode, by a number of its own. -/
abbrev Vnode := Nat

/-- The errors of the operations: their own, those of the device table, and those of the
file system. -/
inductive VfsError
  | EINVAL
  | ENOENT
  | ENOTDIR
  | EXDEV
  | device (error : DeviceError)
  | filesystem (error : Errno)
  deriving DecidableEq

/-- What a call of the file system returns: an error, or success with the vnode it hands
out and with whether the vnode it was made on is a directory. -/
structure Reply where
  error : Option Errno
  vnode : Vnode
  directory : Bool

/-- The `vn_refcount` of each vnode, zero where there is none in memory, and its `vn_fs`;
`p_cwd` of the current process, `bootfs_vnode` and the table of devices; then the replies
of the file system to the calls to come and the results of the reclaims to come. The counts are
`int`s; each reference is a pointer in memory, so there are never 2 ^ 31. -/
structure Layer where
  refcount : Vnode → Nat
  vnFs : Vnode → Option Nat
  cwd : Option Vnode
  bootfs : Option Vnode
  knowndevs : List Knowndev
  replies : Nat → Reply
  reclaims : Nat → Option Errno

/-- Programs of the layer. -/
abbrev VfsProgram := Program Panic VfsError Layer

/-- Make a call of the file system. -/
def fsCall : VfsProgram Reply := fun layer =>
  match (layer.replies 0).error with
  | some error => .fail (.filesystem error) { layer with replies := fun index => layer.replies (index + 1) }
  | none => .done (layer.replies 0) { layer with replies := fun index => layer.replies (index + 1) }

/-- A call of the file system that hands out nothing: `VOP_REMOVE`, `VOP_RENAME`,
`VOP_LINK`, `VOP_EACHOPEN` and `VOP_TRUNCATE`. -/
def fsCallPlain : VfsProgram PUnit := do
  let _ ← fsCall
  pure ()

/-- The counts with one of them changed. -/
def Layer.recount (layer : Layer) (vn : Vnode) (count : Nat) : Layer :=
  { layer with refcount := Function.update layer.refcount vn count }

def vopIncref (vn : Vnode) : VfsProgram PUnit :=
  change (fun layer => layer.recount vn (layer.refcount vn + 1))

/-- A call of the file system that hands out a vnode: `FSOP_GETROOT`, `VOP_LOOKUP`,
`VOP_LOOKPARENT` and `VOP_CREAT`. -/
def fsCallVnode : VfsProgram Vnode := do
  let reply ← fsCall
  vopIncref reply.vnode
  pure reply.vnode

/-- `VOP_RECLAIM` with the reference that `vnode_decref` hands it. It consumes it when it
succeeds, and when it finds the vnode busy. -/
def vopReclaim (vn : Vnode) : VfsProgram PUnit := do
  let result ← inspect (fun layer => layer.reclaims 0)
  change (fun layer => { layer with reclaims := fun index => layer.reclaims (index + 1) })
  if result = none ∨ result = some .EBUSY then
    change (fun layer => layer.recount vn (layer.refcount vn - 1))
  else pure ()

def vopDecref (vn : Vnode) : VfsProgram PUnit := do
  let count ← inspect (fun layer => layer.refcount vn)
  check (0 < count) .assertion
  if 1 < count then change (fun layer => layer.recount vn (layer.refcount vn - 1))
  else vopReclaim vn

/-- Return what an earlier call returned. -/
def finish {Value : Type} : Except VfsError Value → VfsProgram Value
  | .ok value => pure value
  | .error error => failWith error

def vfsGetcurdir : VfsProgram Vnode := do
  match ← inspect Layer.cwd with
  | some vn => do
    vopIncref vn
    pure vn
  | none => failWith .ENOENT

def vfsGetroot (devname : Name) : VfsProgram Vnode := do
  match ← inspect (fun layer => Devices.vfsGetroot layer.knowndevs devname) with
  | .root _ => fsCallVnode
  | .vnode vn => do
    vopIncref vn
    pure vn
  | .error error => failWith (.device error)
  | .assertion => stopWith .assertion

/-- The characters `:` and `/`. -/
abbrev colonByte : Byte := 0x3a
abbrev slashByte : Byte := 0x2f

/-- The part of `getdevice` for a path that begins with `/`. -/
def getdeviceBoot : VfsProgram Vnode := do
  match ← inspect Layer.bootfs with
  | none => failWith .ENOENT
  | some vn => do
    vopIncref vn
    pure vn

/-- The part of `getdevice` for a path that begins with `:`. -/
def getdeviceCurrent : VfsProgram Vnode := do
  let vn ← vfsGetcurdir
  let fs ← inspect (fun layer => layer.vnFs vn)
  check (fs ≠ none) .assertion
  let startvn ← attempt fsCallVnode
  vopDecref vn
  finish startvn

/-- The loop that looks for the first colon or slash, over the characters that are left. It
leaves `colon` and `slash`. -/
def locate : Name → Nat → Option Nat × Option Nat
  | [], _ => (none, none)
  | byte :: rest, i =>
    if byte = colonByte then (some i, none)
    else if byte = slashByte then (none, some i)
    else locate rest (i + 1)

/-- The loops that move an index past the slashes behind it. -/
def skipSlashes (path : Name) (index : Nat) : Nat :=
  if more : path[index + 1]? = some slashByte then skipSlashes path (index + 1) else index
termination_by path.length - index
decreasing_by
  have inside := (List.getElem?_eq_some_iff.mp more).1
  omega

/-- `getdevice`, in the memory of the string, which ends at the first zero: the rest of the path
and the vnode to begin with. -/
def getdevice (path : Name) : VfsProgram (Name × Vnode) :=
  let colon := (locate path 0).1
  let slash := (locate path 0).2
  if colon = none ∧ slash ≠ some 0 then do
    let startvn ← vfsGetcurdir
    pure (path, startvn)
  else match colon with
    | some (before + 1) => do
      let cut := path.set (before + 1) 0
      let startvn ← vfsGetroot (cut.takeWhile (· ≠ 0))
      pure (cut.drop (skipSlashes cut (before + 1) + 1), startvn)
    | _ => do
      check (colon = some 0 ∨ slash = some 0) .assertion
      if path[0]? = some slashByte then do
        let startvn ← getdeviceBoot
        pure (path.drop (skipSlashes path 0 + 1), startvn)
      else do
        check (path[0]? = some colonByte) .assertion
        let startvn ← getdeviceCurrent
        pure (path.drop (skipSlashes path 0 + 1), startvn)

/-- `vfs_lookparent`. The name it copies out does not matter here. -/
def vfsLookparent (path : Name) : VfsProgram Vnode := do
  let (subpath, startvn) ← getdevice path
  let result ← attempt (if subpath.length = 0 then failWith .EINVAL else fsCallVnode)
  vopDecref startvn
  finish result

def vfsLookup (path : Name) : VfsProgram Vnode := do
  let (subpath, startvn) ← getdevice path
  if subpath.length = 0 then pure startvn
  else do
    let result ← attempt fsCallVnode
    vopDecref startvn
    finish result

/-- The flags of `open`. -/
abbrev oAccmode : BitVec 32 := 3
abbrev oCreat : BitVec 32 := 4
abbrev oTrunc : BitVec 32 := 16

/-- The part of `vfs_open` that finds or creates the file. -/
def vfsOpenFind (path : Name) (openflags : BitVec 32) : VfsProgram Vnode :=
  if openflags &&& oCreat ≠ 0 then do
    let dir ← vfsLookparent path
    let result ← attempt fsCallVnode
    vopDecref dir
    finish result
  else vfsLookup path

def vfsOpen (path : Name) (openflags : BitVec 32) : VfsProgram Vnode := do
  let how := openflags &&& oAccmode
  if how = 3 then failWith .EINVAL
  else do
    let vn ← vfsOpenFind path openflags
    match ← attempt fsCallPlain with
    | .error error => do
      vopDecref vn
      failWith error
    | .ok _ =>
      if openflags &&& oTrunc ≠ 0 then do
        match ← attempt (if how = 0 then failWith .EINVAL else fsCallPlain) with
        | .error error => do
          vopDecref vn
          failWith error
        | .ok _ => pure vn
      else pure vn

def vfsClose (vn : Vnode) : VfsProgram PUnit := vopDecref vn

def vfsRemove (path : Name) : VfsProgram PUnit := do
  let dir ← vfsLookparent path
  let result ← attempt fsCallPlain
  vopDecref dir
  finish result

/-- The last part of `vfs_rename` and of `vfs_link`, which call the file system on two
vnodes if they are on the same one. -/
def onSameFs (first second : Vnode) : VfsProgram PUnit := do
  let firstFs ← inspect (fun layer => layer.vnFs first)
  let secondFs ← inspect (fun layer => layer.vnFs second)
  if firstFs = none ∨ secondFs = none ∨ firstFs ≠ secondFs then do
    vopDecref second
    vopDecref first
    failWith .EXDEV
  else do
    let result ← attempt fsCallPlain
    vopDecref second
    vopDecref first
    finish result

def vfsRename (oldpath newpath : Name) : VfsProgram PUnit := do
  let olddir ← vfsLookparent oldpath
  match ← attempt (vfsLookparent newpath) with
  | .error error => do
    vopDecref olddir
    failWith error
  | .ok newdir => onSameFs olddir newdir

def vfsLink (oldpath newpath : Name) : VfsProgram PUnit := do
  let oldfile ← vfsLookup oldpath
  match ← attempt (vfsLookparent newpath) with
  | .error error => do
    vopDecref oldfile
    failWith error
  | .ok newdir => onSameFs oldfile newdir

def vfsSetcurdir (dir : Vnode) : VfsProgram PUnit := do
  let vtype ← fsCall
  if vtype.directory = false then failWith .ENOTDIR
  else do
    vopIncref dir
    let old ← inspect Layer.cwd
    change (fun layer => { layer with cwd := some dir })
    match old with
    | some old => vopDecref old
    | none => pure ()

def vfsChdir (path : Name) : VfsProgram PUnit := do
  let vn ← vfsLookup path
  let result ← attempt (vfsSetcurdir vn)
  vopDecref vn
  finish result

theorem locate_pos (path : Name) (i : Nat) :
    (locate path (i + 1)).1 ≠ some 0 ∧ (locate path (i + 1)).2 ≠ some 0 := by
  induction path generalizing i with
  | nil => simp [locate]
  | cons byte rest ih =>
    unfold locate
    split
    · simp
    split
    · simp
    · exact ih (i + 1)

/-- A path with a mark in front begins with a slash or a colon. -/
theorem colon_first {path : Name} (marked : (locate path 0).1 = some 0 ∨ (locate path 0).2 = some 0)
    (noSlash : path[0]? ≠ some slashByte) : path[0]? = some colonByte := by
  cases path with
  | nil => simp [locate] at marked
  | cons byte rest =>
    unfold locate at marked
    split at marked
    · next colon => simp [colon]
    split at marked
    · next slash => simp [slash] at noSlash
    · exact (marked.elim (locate_pos rest 0).1 (locate_pos rest 0).2).elim

/-- One for a vnode, and zero for the others. -/
def one (vn other : Vnode) : Int := if other = vn then 1 else 0

theorem one_nonneg (vn other : Vnode) : 0 ≤ one vn other := by
  unfold one
  split <;> decide

theorem one_self (vn : Vnode) : one vn vn = 1 := if_pos rfl

/-- No reclaim fails otherwise than with `EBUSY`. -/
def Tame (layer : Layer) : Prop :=
  ∀ index, layer.reclaims index = none ∨ layer.reclaims index = some .EBUSY

/-- The current directory is on a file system, and the table of devices answers. -/
structure Proper (layer : Layer) : Prop where
  cwd : ∀ vn, layer.cwd = some vn → layer.vnFs vn ≠ none
  devices : ∀ devname, Devices.vfsGetroot layer.knowndevs devname ≠ .assertion

/-- The counts have moved by the given numbers, and the rest is as it was. -/
structure Moved (before after : Layer) (moved : Vnode → Int) : Prop where
  counts : ∀ vn, (after.refcount vn : Int) = before.refcount vn + moved vn
  vnFs : after.vnFs = before.vnFs
  cwd : after.cwd = before.cwd
  knowndevs : after.knowndevs = before.knowndevs
  tame : Tame after

theorem Moved.refl {layer : Layer} (tame : Tame layer) : Moved layer layer (fun _ => 0) :=
  ⟨fun _ => (Int.add_zero _).symm, rfl, rfl, rfl, tame⟩

theorem Moved.trans {first second third : Layer} {one two total : Vnode → Int}
    (moved : Moved first second one) (again : Moved second third two)
    (sum : ∀ vn, total vn = one vn + two vn) : Moved first third total := by
  refine ⟨fun vn => ?_, again.vnFs.trans moved.vnFs, again.cwd.trans moved.cwd,
    again.knowndevs.trans moved.knowndevs, again.tame⟩
  rw [again.counts, moved.counts, sum]
  omega

theorem Moved.plain {first second third : Layer} {gain : Vnode → Int}
    (moved : Moved first second gain) (again : Moved second third fun _ => 0) :
    Moved first third gain :=
  moved.trans again fun _ => (Int.add_zero _).symm

theorem Moved.proper {before after : Layer} {moved : Vnode → Int} (changed : Moved before after moved)
    (proper : Proper before) : Proper after := by
  constructor
  · rw [changed.cwd, changed.vnFs]
    exact proper.cwd
  · rw [changed.knowndevs]
    exact proper.devices

/-- A program gives back every reference it takes, except that it hands out some when it
returns. -/
def Balances {Value : Type} (tolerated : Prop) (program : VfsProgram Value) (layer : Layer)
    (handed : Value → Vnode → Int) : Prop :=
  Ensures tolerated program layer (fun value after => Moved layer after (handed value))
    (fun _ after => Moved layer after (fun _ => 0))

variable {fails : VfsError → Layer → Prop} {middle : Layer} {vn : Vnode}

section references

variable {tolerated : Prop} {layer : Layer} (tame : Tame layer)

include tame

theorem fs_call_balances : Balances tolerated fsCall layer (fun _ _ => 0) := by
  have moved : Moved layer { layer with replies := fun index => layer.replies (index + 1) }
      (fun _ => 0) := ⟨fun _ => (Int.add_zero _).symm, rfl, rfl, rfl, tame⟩
  constructor
  unfold fsCall
  cases (layer.replies 0).error with
  | some error | none => exact moved

theorem fs_call_plain_balances : Balances tolerated fsCallPlain layer (fun _ _ => 0) :=
  Ensures.bind (fs_call_balances tame) (fun _ _ moved => ensures_pure moved)

theorem recount_moved (vn : Vnode) {count : Nat} {difference : Int}
    (counted : (count : Int) = layer.refcount vn + difference) :
    Moved layer (layer.recount vn count) (fun other => if other = vn then difference else 0) := by
  refine ⟨fun other => ?_, rfl, rfl, rfl, tame⟩
  unfold Layer.recount
  obtain rfl | same := eq_or_ne other vn
  · simp [counted]
  · simp [same]

theorem vop_incref_ensures (vn : Vnode) :
    Ensures tolerated (vopIncref vn) layer (fun _ after => Moved layer after (one vn)) fails :=
  ensures_change (recount_moved tame vn rfl)

theorem fs_call_vnode_balances : Balances tolerated fsCallVnode layer one := by
  refine Ensures.bind (fs_call_balances tame) fun reply middle moved => ?_
  refine Ensures.bind (vop_incref_ensures moved.tame reply.vnode) fun _ after counted => ?_
  exact ensures_pure (moved.trans counted (fun _ => (Int.zero_add _).symm))

theorem vop_decref_ensures (held : 0 < layer.refcount vn) : Ensures tolerated (vopDecref vn) layer
      (fun _ after => Moved layer after (fun other => - one vn other)) fails := by
  have dropped : ∀ (middle : Layer), Moved layer middle (fun _ => 0) →
      Moved layer (middle.recount vn (middle.refcount vn - 1)) (fun other => - one vn other) := by
    intro middle moved
    have count := moved.counts vn
    have less : ((middle.refcount vn - 1 : Nat) : Int) = middle.refcount vn + -1 := by omega
    refine moved.trans (recount_moved moved.tame vn less) (fun other => ?_)
    unfold one
    by_cases same : other = vn
    · rw [if_pos same, if_pos same]
      rfl
    · rw [if_neg same, if_neg same]
      rfl
  refine bind_done rfl (bind_done (check_passes held) ?_)
  split
  · exact ensures_change (dropped layer (Moved.refl tame))
  · refine bind_done rfl (bind_done rfl ?_)
    rw [if_pos (tame 0)]
    refine ensures_change (dropped _ ?_)
    exact ⟨fun _ => (Int.add_zero _).symm, rfl, rfl, rfl, fun index => tame (index + 1)⟩

theorem vop_decref_tolerated (held : tolerated ∨ 0 < layer.refcount vn) :
    Ensures tolerated (vopDecref vn) layer
      (fun _ after => Moved layer after (fun other => - one vn other)) fails := by
  by_cases positive : 0 < layer.refcount vn
  · exact vop_decref_ensures tame positive
  have stopped : Ensures tolerated
      (check (0 < layer.refcount vn) .assertion : VfsProgram PUnit) layer
      (fun _ _ => False) fails := by
    constructor
    unfold check
    rw [if_neg positive]
    exact held.resolve_right positive
  exact bind_done rfl (Ensures.bind stopped nofun)

omit tame in
/-- Dropping one of the references that were taken. -/
theorem Moved.decref {gain rest : Vnode → Int} (moved : Moved layer middle gain)
    (parts : ∀ other, gain other = rest other + one vn other) (left : 0 ≤ rest vn) :
    Ensures tolerated (vopDecref vn) middle (fun _ after => Moved layer after rest) fails := by
  have here := one_self vn
  have count := moved.counts vn
  have own := parts vn
  refine (vop_decref_ensures moved.tame (by omega)).on_return fun _ after dropped => ?_
  refine moved.trans dropped fun other => ?_
  have shared := parts other
  omega

omit tame in
/-- Dropping a reference that was taken, and failing. -/
theorem decref_and_fail_ensures {Value : Type} {error : VfsError} {returns : Value → Layer → Prop}
    (moved : Moved layer middle (one vn)) :
    Ensures tolerated (vopDecref vn >>= fun _ => failWith error) middle returns
      (fun _ after => Moved layer after (fun _ => 0)) := by
  exact Ensures.bind (moved.decref (fun _ => (Int.zero_add _).symm) (Int.le_refl 0)) fun _ _ left =>
    ensures_fail left

omit tame in
/-- A call made while a reference is held, which is dropped after it. -/
theorem decref_after_ensures {Value : Type} {program : VfsProgram Value}
    {handed : Value → Vnode → Int} (moved : Moved layer middle (one vn))
    (balanced : Balances tolerated program middle handed)
    (gains : ∀ value other, 0 ≤ handed value other) :
    Ensures tolerated (attempt program >>= fun result => vopDecref vn >>= fun _ => finish result)
      middle (fun value after => Moved layer after (handed value))
      (fun _ after => Moved layer after (fun _ => 0)) := by
  refine attempt_bind balanced ?_ ?_
  · intro value after changed
    have total := moved.trans changed fun _ => Int.add_comm _ _
    exact Ensures.bind (total.decref (fun _ => rfl) (gains value vn)) fun _ _ left => ensures_pure left
  · exact fun error after changed => decref_and_fail_ensures (moved.plain changed)

theorem vfs_getcurdir_balances : Ensures tolerated vfsGetcurdir layer
      (fun vn after => Moved layer after (one vn) ∧ layer.cwd = some vn)
      (fun _ after => Moved layer after (fun _ => 0)) := by
  refine bind_done rfl ?_
  cases cwd : layer.cwd with
  | none => exact ensures_fail (Moved.refl tame)
  | some vn =>
    refine Ensures.bind (vop_incref_ensures tame vn) fun _ after moved => ?_
    exact ensures_pure ⟨moved, rfl⟩

theorem getdevice_boot_balances : Balances tolerated getdeviceBoot layer one := by
  refine bind_done rfl ?_
  cases layer.bootfs with
  | none => exact ensures_fail (Moved.refl tame)
  | some vn =>
    refine Ensures.bind (vop_incref_ensures tame vn) fun _ after moved => ?_
    exact ensures_pure moved

section proper

variable (proper : tolerated ∨ Proper layer)

include proper

theorem vfs_getroot_balances (devname : Name) :
    Balances tolerated (vfsGetroot devname) layer one := by
  refine bind_done rfl ?_
  dsimp only
  cases answer : Devices.vfsGetroot layer.knowndevs devname with
  | root fs => exact fs_call_vnode_balances tame
  | vnode vn =>
    refine Ensures.bind (vop_incref_ensures tame vn) fun _ after moved => ?_
    exact ensures_pure moved
  | error error => exact ensures_fail (Moved.refl tame)
  | assertion =>
    rcases proper with panics | proper
    · exact ⟨panics⟩
    · exact absurd answer (proper.devices devname)

theorem getdevice_current_balances : Balances tolerated getdeviceCurrent layer one := by
  refine Ensures.bind (vfs_getcurdir_balances tame) fun vn middle ⟨moved, current⟩ => ?_
  refine bind_done rfl (bind_check ?_ ?_)
  · rcases proper with panics | proper
    · exact Or.inr panics
    · refine Or.inl ?_
      dsimp only
      rw [moved.vnFs]
      exact proper.cwd vn current
  · exact decref_after_ensures moved (fs_call_vnode_balances moved.tame) one_nonneg

/-- However the path begins, the vnode to begin with is handed out once. -/
theorem getdevice_balances (path : Name) :
    Balances tolerated (getdevice path) layer (fun result => one result.2) := by
  have paired : ∀ (program : VfsProgram Vnode) (subpath : Name),
      Balances tolerated program layer one →
        Balances tolerated (program >>= fun startvn => pure (subpath, startvn)) layer
          (fun result => one result.2) :=
    fun program subpath balanced =>
      Ensures.bind balanced (fun startvn _ moved => ensures_pure moved)
  unfold getdevice
  dsimp only
  split
  · exact paired _ _ ((vfs_getcurdir_balances tame).on_return (fun _ _ got => got.1))
  next absolute =>
  split
  · exact paired _ _ (vfs_getroot_balances tame proper _)
  next noDevice =>
  have marked : (locate path 0).1 = some 0 ∨ (locate path 0).2 = some 0 := by
    cases colon : (locate path 0).1 with
    | none => exact Or.inr (by simpa [colon] using absolute)
    | some index =>
      cases index with
      | zero => exact Or.inl rfl
      | succ before => exact (noDevice before colon).elim
  refine bind_check (Or.inl marked) ?_
  split
  · exact paired _ _ (getdevice_boot_balances tame)
  next noSlash =>
  exact bind_check (Or.inl (colon_first marked noSlash))
    (paired _ _ (getdevice_current_balances tame proper))

theorem vfs_lookparent_balances (path : Name) :
    Balances tolerated (vfsLookparent path) layer one := by
  refine Ensures.bind (getdevice_balances tame proper path) fun ⟨subpath, startvn⟩ middle moved => ?_
  have called : Balances tolerated
      (if subpath.length = 0 then failWith .EINVAL else fsCallVnode) middle one := by
    split
    · exact ensures_fail (Moved.refl moved.tame)
    · exact fs_call_vnode_balances moved.tame
  exact decref_after_ensures moved called one_nonneg

theorem vfs_lookup_balances (path : Name) : Balances tolerated (vfsLookup path) layer one := by
  refine Ensures.bind (getdevice_balances tame proper path) fun ⟨subpath, startvn⟩ middle moved => ?_
  dsimp only
  split
  · exact ensures_pure moved
  · exact decref_after_ensures moved (fs_call_vnode_balances moved.tame) one_nonneg

theorem vfs_open_find_balances (path : Name) (openflags : BitVec 32) :
    Balances tolerated (vfsOpenFind path openflags) layer one := by
  unfold vfsOpenFind
  split
  · refine Ensures.bind (vfs_lookparent_balances tame proper path) fun dir middle moved => ?_
    exact decref_after_ensures moved (fs_call_vnode_balances moved.tame) one_nonneg
  · exact vfs_lookup_balances tame proper path

/-- `vfs_open` keeps one reference, to the file it returns, and none when it fails. -/
theorem vfs_open_balances (path : Name) (openflags : BitVec 32) :
    Balances tolerated (vfsOpen path openflags) layer one := by
  unfold vfsOpen
  by_cases invalid : openflags &&& oAccmode = 3
  · rw [if_pos invalid]
    exact ensures_fail (Moved.refl tame)
  rw [if_neg invalid]
  refine Ensures.bind (vfs_open_find_balances tame proper path openflags) fun vn first found => ?_
  refine attempt_bind (fs_call_plain_balances found.tame) ?_ ?_
  · intro _ second opened
    have held : Moved layer second (one vn) := found.plain opened
    by_cases truncating : openflags &&& oTrunc ≠ 0
    · rw [if_pos truncating]
      have called : Balances tolerated
          (if openflags &&& oAccmode = 0 then failWith .EINVAL else fsCallPlain) second
          (fun _ _ => 0) := by
        split
        · exact ensures_fail (Moved.refl held.tame)
        · exact fs_call_plain_balances held.tame
      refine attempt_bind called ?_ ?_
      · exact fun _ third truncated =>
          ensures_pure (held.plain truncated)
      · exact fun _ third failed =>
          decref_and_fail_ensures (held.plain failed)
    · rw [if_neg truncating]
      exact ensures_pure held
  · exact fun _ second failed =>
      decref_and_fail_ensures (found.plain failed)

theorem vfs_remove_balances (path : Name) :
    Balances tolerated (vfsRemove path) layer (fun _ _ => 0) := by
  refine Ensures.bind (vfs_lookparent_balances tame proper path) fun dir middle moved => ?_
  exact decref_after_ensures moved (fs_call_plain_balances moved.tame) (fun _ _ => Int.le_refl 0)

omit tame proper in
/-- Both references are given back, whether the two vnodes are on one file system or not,
also when they are the same vnode. -/
theorem on_same_fs_ensures {first second : Vnode}
    (moved : Moved layer middle (fun other => one first other + one second other)) :
    Ensures tolerated (onSameFs first second) middle (fun _ after => Moved layer after (fun _ => 0))
      (fun _ after => Moved layer after (fun _ => 0)) := by
  have both {start : Layer} {finish : VfsProgram PUnit}
      (held : Moved layer start fun other => one first other + one second other)
      (rest : ∀ after, Moved layer after (fun _ => 0) → Ensures tolerated finish after
        (fun _ last => Moved layer last fun _ => 0) fun _ last => Moved layer last fun _ => 0) :
      Ensures tolerated (vopDecref second >>= fun _ => vopDecref first >>= fun _ => finish) start
        (fun _ last => Moved layer last fun _ => 0) fun _ last => Moved layer last fun _ => 0 := by
    refine Ensures.bind (held.decref (fun _ => rfl) (one_nonneg first second)) fun _ next one => ?_
    exact Ensures.bind (one.decref (fun _ => (Int.zero_add _).symm) (Int.le_refl 0)) fun _ => rest
  refine bind_done rfl (bind_done rfl ?_)
  split
  · exact both moved fun _ left => ensures_fail left
  · refine attempt_bind (fs_call_plain_balances moved.tame) ?_ ?_
    · exact fun _ called same => both (moved.plain same) fun _ left => ensures_pure left
    · exact fun _ called same => both (moved.plain same) fun _ left => ensures_fail left

omit tame in
/-- The second half of `vfs_rename` and of `vfs_link`, with the first vnode held. -/
theorem second_path_ensures {first : Vnode} (moved : Moved layer middle (one first))
    (newpath : Name) :
    Ensures tolerated (attempt (vfsLookparent newpath) >>= fun result => match result with
        | .error error => vopDecref first >>= fun _ => failWith error
        | .ok newdir => onSameFs first newdir) middle
      (fun _ after => Moved layer after (fun _ => 0))
      (fun _ after => Moved layer after (fun _ => 0)) := by
  refine attempt_bind
    (vfs_lookparent_balances moved.tame (proper.imp id moved.proper) newpath) ?_ ?_
  · exact fun newdir second found => on_same_fs_ensures (moved.trans found (fun _ => rfl))
  · exact fun _ second failed =>
      decref_and_fail_ensures (moved.plain failed)

theorem vfs_rename_balances (oldpath newpath : Name) :
    Balances tolerated (vfsRename oldpath newpath) layer (fun _ _ => 0) := by
  refine Ensures.bind (vfs_lookparent_balances tame proper oldpath) fun olddir middle moved => ?_
  exact second_path_ensures proper moved newpath

theorem vfs_link_balances (oldpath newpath : Name) :
    Balances tolerated (vfsLink oldpath newpath) layer (fun _ _ => 0) := by
  refine Ensures.bind (vfs_lookup_balances tame proper oldpath) fun oldfile middle moved => ?_
  exact second_path_ensures proper moved newpath

end proper

/-- The reference that the current directory stands for. -/
def Layer.held (layer : Layer) (vn : Vnode) : Int :=
  match layer.cwd with
  | none => 0
  | some dir => one dir vn

omit tame in
theorem held_some {dir : Vnode} (cwd : layer.cwd = some dir) (vn : Vnode) :
    layer.held vn = one dir vn := by
  unfold Layer.held
  rw [cwd]

omit tame in
theorem held_none (cwd : layer.cwd = none) (vn : Vnode) : layer.held vn = 0 := by
  unfold Layer.held
  rw [cwd]

omit tame in
theorem held_le_one (layer : Layer) (vn : Vnode) : layer.held vn ≤ 1 := by
  unfold Layer.held one
  split
  · decide
  · split <;> decide

/-- The counts without the reference of the current directory are as they were, and the
current directory is the given one. -/
structure Turned (before after : Layer) (dir : Vnode) : Prop where
  counts : ∀ vn, after.refcount vn - after.held vn = before.refcount vn - before.held vn
  cwd : after.cwd = some dir
  tame : Tame after

section counted

variable (counted : tolerated ∨ ∀ old, layer.cwd = some old → 0 < layer.refcount old)

include counted

/-- The reference of the current directory moves to the new directory, or nothing
changes. -/
theorem vfs_setcurdir_ensures (dir : Vnode) : Ensures tolerated (vfsSetcurdir dir) layer
      (fun _ after => Turned layer after dir)
      (fun _ after => Moved layer after (fun _ => 0)) := by
  refine Ensures.bind (fs_call_balances tame) fun vtype called moved => ?_
  by_cases file : vtype.directory = false
  · rw [if_pos file]
    exact ensures_fail moved
  rw [if_neg file]
  refine Ensures.bind (vop_incref_ensures moved.tame dir) fun _ taken again => ?_
  have total : Moved layer taken (one dir) := moved.trans again (fun _ => (Int.zero_add _).symm)
  refine bind_done rfl (bind_done rfl ?_)
  rw [total.cwd]
  have turned : Tame { taken with cwd := some dir } := total.tame
  cases cwd : layer.cwd with
  | none =>
    refine ensures_pure ⟨fun vn => ?_, rfl, turned⟩
    have count := total.counts vn
    rw [held_none cwd, held_some rfl]
    dsimp only
    omega
  | some old =>
    -- the new reference is counted already, also when both directories are the same
    have held : tolerated ∨ 0 < taken.refcount old := by
      refine counted.imp id (fun counted => ?_)
      have count := total.counts old
      have gain := one_nonneg dir old
      have positive := counted old cwd
      omega
    refine (vop_decref_tolerated turned held).on_return (fun _ after dropped => ?_)
    refine ⟨fun vn => ?_, dropped.cwd, dropped.tame⟩
    have before := total.counts vn
    have last := dropped.counts vn
    dsimp only at last
    rw [held_some cwd, held_some dropped.cwd]
    omega

/-- `vfs_chdir` moves the reference of the current directory, or none. -/
theorem vfs_chdir_ensures (proper : tolerated ∨ Proper layer) (path : Name) :
    Ensures tolerated (vfsChdir path) layer (fun _ after => ∃ dir, Turned layer after dir)
      (fun _ after => Moved layer after (fun _ => 0)) := by
  refine Ensures.bind (vfs_lookup_balances tame proper path) fun vn middle moved => ?_
  have here := one_self vn
  have found := moved.counts vn
  have still : tolerated ∨ ∀ old, middle.cwd = some old → 0 < middle.refcount old := by
    refine counted.imp id (fun counted old cwd => ?_)
    have positive := counted old (moved.cwd.symm.trans cwd)
    have count := moved.counts old
    have gain := one_nonneg vn old
    omega
  refine attempt_bind (vfs_setcurdir_ensures moved.tame still vn) ?_ ?_
  · intro _ after turned
    -- the vnode is the current directory now, and the path's own reference to it goes
    have held : 0 < after.refcount vn := by
      have counts := turned.counts vn
      rw [held_some turned.cwd] at counts
      have known := held_le_one middle vn
      omega
    refine Ensures.bind (vop_decref_ensures turned.tame held) fun _ last dropped => ?_
    refine ensures_pure ⟨vn, fun other => ?_, dropped.cwd.trans turned.cwd, dropped.tame⟩
    have first := moved.counts other
    have second := turned.counts other
    have third := dropped.counts other
    have same : last.held other = after.held other := by
      unfold Layer.held
      rw [dropped.cwd]
    have unchanged : middle.held other = layer.held other := by
      unfold Layer.held
      rw [moved.cwd]
    omega
  · exact fun error after failed => decref_and_fail_ensures (moved.plain failed)

end counted

end references


/-- Every operation on paths gives back the references it takes, whatever the file system
answers: a vnode that is handed out has one more, changing the directory moves the one
of the current directory, and closing a vnode takes one away. A panic takes a current
directory that is on no file system or is not counted, a device that its table cannot
answer for, or a vnode that is closed and not counted. -/
theorem references_balance (layer : Layer) (tame : Tame layer) :
    (∀ path openflags, Balances (¬ Proper layer) (vfsOpen path openflags) layer one)
    ∧ (∀ path, Balances (¬ Proper layer) (vfsLookup path) layer one)
    ∧ (∀ path, Balances (¬ Proper layer) (vfsLookparent path) layer one)
    ∧ (∀ path, Balances (¬ Proper layer) (vfsRemove path) layer (fun _ _ => 0))
    ∧ (∀ oldpath newpath,
        Balances (¬ Proper layer) (vfsRename oldpath newpath) layer (fun _ _ => 0))
    ∧ (∀ oldpath newpath, Balances (¬ Proper layer) (vfsLink oldpath newpath) layer (fun _ _ => 0))
    ∧ (∀ path, Ensures
        (¬ (Proper layer ∧ ∀ old, layer.cwd = some old → 0 < layer.refcount old)) (vfsChdir path)
        layer (fun _ after => ∃ dir, Turned layer after dir)
        (fun _ after => Moved layer after (fun _ => 0)))
    ∧ (∀ vn, Balances (layer.refcount vn = 0) (vfsClose vn) layer (fun _ other => - one vn other)) := by
  have proper : ¬ Proper layer ∨ Proper layer := (Classical.em _).symm
  refine ⟨vfs_open_balances tame proper, vfs_lookup_balances tame proper,
    vfs_lookparent_balances tame proper, vfs_remove_balances tame proper,
    vfs_rename_balances tame proper, vfs_link_balances tame proper, fun path => ?_, fun vn => ?_⟩
  · by_cases sane : Proper layer ∧ ∀ old, layer.cwd = some old → 0 < layer.refcount old
    · exact vfs_chdir_ensures tame (Or.inr sane.2) (Or.inr sane.1) path
    · exact vfs_chdir_ensures tame (Or.inl sane) (Or.inl sane) path
  · exact vop_decref_tolerated tame (by omega)

/-- A process in the directory of vnode 1, with a file system whose calls all return
vnode 2, and reclaims with one result. -/
def sampleLayer (result : Option Errno) : Layer where
  refcount := fun vn => if vn = 1 then 2 else 0
  vnFs := fun _ => some 0
  cwd := some 1
  bootfs := none
  knowndevs := []
  replies := fun _ => ⟨none, 2, false⟩
  reclaims := fun _ => result

/-- Opening a file in the current directory leaves one reference to it. -/
theorem references_balance_open : ∃ after, vfsOpen [0x61] 0 (sampleLayer none) = .done 2 after
      ∧ Moved (sampleLayer none) after (one 2) :=
  ⟨_, rfl, ((references_balance (sampleLayer none) (fun _ => Or.inl rfl)).1 [0x61] 0).of_done rfl⟩

/-- Closing a vnode changes its count, although nothing is handed back. A removal that
succeeds leaves a reference to the parent directory when its reclaim fails. -/
theorem references_move : (∃ after, vfsClose 1 (sampleLayer none) = .done PUnit.unit after
      ∧ after.refcount 1 ≠ (sampleLayer none).refcount 1)
    ∧ (∃ after, vfsRemove [0x61, 0x2f, 0x62] (sampleLayer (some Errno.EIO)) = .done PUnit.unit after
      ∧ after.refcount 2 ≠ (sampleLayer (some Errno.EIO)).refcount 2) :=
  ⟨⟨_, rfl, by decide⟩, ⟨_, rfl, by decide⟩⟩

end Os161.Vfs.Paths
