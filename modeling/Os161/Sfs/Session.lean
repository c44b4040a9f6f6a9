import Os161.Library.Runs
import Os161.Sfs.Mksfs

/-!
# Sessions on a volume

A session is a mounted file system and the references its users hold. Users call
the operations of the file system and of its vnodes, on vnodes they hold; the
operations table of the vnode decides which function runs. An operation that hands
out a vnode hands out a reference with it.

Every operation takes a consistent file system to a consistent one, and never
panics. So from a mount of a new volume on, in every state of every session, the
freemap accounts for exactly the blocks that are in use, unless the size of the
volume is so close to the largest number that the size of its freemap wraps to
zero.
-/
namespace Os161.Sfs

open Os161.Kern Os161.Library Os161.Library.Program Os161.Library.Runs Function

/-- The operations on a mounted file system and its vnodes. -/
inductive Operation
  | getroot
  | lookup (v : Ino) (path : CString)
  | lookparent (v : Ino) (path : CString) (buflen : Nat)
  | creat (dir : Ino) (name : CString) (excl : Bool)
  | link (dir : Ino) (name : CString) (file : Ino)
  | remove (dir : Ino) (name : CString)
  | rename (d1 : Ino) (n1 : CString) (d2 : Ino) (n2 : CString)
  | read (v : Ino) (uio : Uio)
  | write (v : Ino) (uio : Uio)
  | truncate (v : Ino) (len : Int)
  | fsync (v : Ino)
  | incref (v : Ino)
  | decref (v : Ino)
  | sync

/-- Call an operation through the table of a vnode. -/
def dispatch (v : Ino) (fileop dirop : FsProgram (Option Ino)) : FsProgram (Option Ino) := do
  let sv ← vnode v
  match sv.ops with
  | .fileops => fileop
  | .dirops => dirop

/-- An operation that hands out a vnode. -/
def handOut (program : FsProgram Ino) : FsProgram (Option Ino) := do
  let v ← program
  pure (some v)

/-- An operation that hands out nothing. -/
def handNothing (program : FsProgram PUnit) : FsProgram (Option Ino) := do
  program
  pure none

/-- The operations, by the tables `sfs_fileops` and `sfs_dirops`. -/
def perform : Operation → FsProgram (Option Ino)
  | .getroot => handOut sfsGetroot
  | .lookup v path => dispatch v (failWith .ENOTDIR) (handOut (sfsLookup v path))
  | .lookparent v path buflen =>
    dispatch v (failWith .ENOTDIR) (handOut (sfsLookparent v path buflen))
  | .creat dir name excl => dispatch dir (failWith .ENOTDIR) (handOut (sfsCreat dir name excl))
  | .link dir name file => dispatch dir (failWith .ENOTDIR) (handNothing (sfsLink dir name file))
  | .remove dir name => dispatch dir (failWith .ENOTDIR) (handNothing (sfsRemove dir name))
  | .rename d1 n1 d2 n2 =>
    dispatch d1 (failWith .ENOTDIR) (handNothing (sfsRename d1 n1 d2 n2))
  | .read v uio => dispatch v (handNothing (sfsRead v uio)) (failWith .EISDIR)
  | .write v uio => dispatch v (handNothing (sfsWrite v uio)) (failWith .EISDIR)
  | .truncate v len => dispatch v (handNothing (sfsTruncate v len)) (failWith .EISDIR)
  | .fsync v => handNothing (sfsFsync v)
  | .incref v => handOut (do
      vnodeIncref v
      pure v)
  | .decref v => handNothing (vnodeDecref v)
  | .sync => handNothing sfsSync

/-- A mounted file system and how many references to each vnode its users hold. -/
structure Session where
  fs : Fs
  held : Ino → Nat

/-- The vnodes an operation is called on. -/
def Operation.vnodes : Operation → List Ino
  | .getroot | .sync => []
  | .lookup v _ | .lookparent v _ _ | .creat v _ _ | .remove v _ | .read v _ | .write v _
  | .truncate v _ | .fsync v | .incref v | .decref v => [v]
  | .link dir _ file => [dir, file]
  | .rename d1 _ d2 _ => [d1, d2]

/-- What the callers of an operation see to, besides holding its vnodes: a uio has
room for its residue and the right direction, and the second vnode of a rename is a
directory, as it comes from `VOP_LOOKPARENT`. -/
def Operation.Proper (fs : Fs) : Operation → Prop
  | .read _ uio => uio.rw = .read ∧ Fitting uio
  | .write _ uio => uio.rw = .write ∧ Fitting uio
  | .rename _ _ d2 _ => (fs.heap d2).map Vnode.ops = some .dirops
  | _ => True

/-- An operation that users may call. -/
structure Allowed (session : Session) (operation : Operation) : Prop where
  holds : ∀ v, v ∈ operation.vnodes → 0 < session.held v
  proper : operation.Proper session.fs

/-- The references held after an operation: those given up are gone before, and one
is added for what was handed out. -/
def handed (held : Ino → Nat) : Operation → Option Ino → Ino → Nat
  | .decref v, _ => update held v (held v - 1)
  | _, some v => update held v (held v + 1)
  | _, none => held

/-- A step of a session. A panic ends it. -/
def next (session : Session) (operation : Operation) : Option Session :=
  match perform operation session.fs with
  | .stop _ => none
  | .fail _ after => some ⟨after, session.held⟩
  | .done result after => some ⟨after, handed session.held operation result⟩

/-- A session that begins with mounting a volume. -/
def Begins (device : Device) (session : Session) : Prop :=
  Mounted device session.fs ∧ session.held = fun _ => 0

/-- The invariant of a session: the file system is consistent, and its counts of
references are those of the users. -/
structure Orderly (session : Session) : Prop where
  consistent : Consistent session.fs
  references : references session.fs = session.held

section dispatching

variable {fs : Fs} (consistent : Consistent fs) {v : Ino} (held : 0 < references fs v)
  {returns : Option Ino → Fs → Prop} {fails : Errno → Fs → Prop}

include consistent held

/-- The directory operations run on the root directory, the file operations on all
other vnodes. -/
theorem dispatch_ensures {fileop dirop : FsProgram (Option Ino)}
    (file : v ≠ rootdirIno → Ensures False fileop fs returns fails)
    (directory : v = rootdirIno → Ensures False dirop fs returns fails) :
    Ensures False (dispatch v fileop dirop) fs returns fails := by
  obtain ⟨sv, found⟩ := consistent.find v held
  have ops := consistent.table.ops v sv found
  refine Ensures.bind_done (vnode_returns found) ?_
  cases table : sv.ops with
  | fileops =>
    refine file ?_
    rintro rfl
    have type := consistent.tidy.root
    rw [node_disk found] at type
    have dirops := ops.mpr type
    rw [table] at dirops
    cases dirops
  | dirops => exact directory (root_of_directory consistent found (ops.mp table))

theorem directory_op_ensures {dirop : FsProgram (Option Ino)}
    (directory : v = rootdirIno → DoneOrUndone dirop fs returns) :
    DoneOrUndone (dispatch v (failWith .ENOTDIR) dirop) fs returns :=
  dispatch_ensures consistent held
    (fun _ => ensures_fail ((Undisturbed.refl consistent).undone rfl)) directory

theorem file_op_ensures {fileop : FsProgram (Option Ino)}
    (file : v ≠ rootdirIno → DoneOrUndone fileop fs returns) :
    DoneOrUndone (dispatch v fileop (failWith .EISDIR)) fs returns :=
  dispatch_ensures consistent held file
    (fun _ => ensures_fail ((Undisturbed.refl consistent).undone rfl))

end dispatching

theorem hand_out_ensures {fs : Fs} {program : FsProgram Ino} {held : Ino → Nat}
    {operation : Operation} (handing : ∀ v, handed held operation (some v) =
      update held v (held v + 1))
    (ensured : DoneOrUndone program fs
      (fun v after => Consistent after ∧ references after = update held v (held v + 1))) :
    DoneOrUndone (handOut program) fs
      (fun result after => Consistent after ∧ references after = handed held operation result) := by
  refine ensured.bind ?_
  rintro v after ⟨consistent, references⟩
  exact ensures_pure ⟨consistent, by rw [references, handing]⟩

theorem hand_nothing_ensures {fs : Fs} {program : FsProgram PUnit} {held after : Ino → Nat}
    {operation : Operation} (handing : handed held operation none = after)
    (ensured : DoneOrUndone program fs
      (fun _ middle => Consistent middle ∧ references middle = after)) :
    DoneOrUndone (handNothing program) fs
      (fun result middle => Consistent middle ∧ references middle = handed held operation result) := by
  refine ensured.bind ?_
  rintro _ middle ⟨consistent, references⟩
  exact ensures_pure ⟨consistent, by rw [references, handing]⟩

/-- Every operation returns or fails, and keeps the session in order; one that fails
has no effect on the directory, the link counts and the references. -/
theorem perform_ensures {session : Session} (orderly : Orderly session) {operation : Operation}
    (allowed : Allowed session operation) :
    DoneOrUndone (perform operation) session.fs (fun result after => Consistent after ∧
        references after = handed session.held operation result) := by
  obtain ⟨fs, held⟩ := session
  obtain ⟨consistent, refs⟩ := orderly
  obtain ⟨holds, proper⟩ := allowed
  dsimp only at consistent refs holds proper ⊢
  subst refs
  cases operation with
  | getroot =>
    refine hand_out_ensures (fun _ => rfl) ((sfs_getroot_ensures consistent).weaken ?_ ?_)
    · exact fun _ _ got => ⟨got.2.1.consistent, got.2.2⟩
    · exact fun _ _ failed => failed.1.undone failed.2
  | lookup v path =>
    have heldV := holds v List.mem_cons_self
    refine directory_op_ensures consistent heldV ?_
    rintro rfl
    exact hand_out_ensures (fun _ => rfl) (sfs_lookup_ensures consistent heldV path)
  | lookparent v path buflen =>
    have heldV := holds v List.mem_cons_self
    refine directory_op_ensures consistent heldV ?_
    rintro rfl
    exact hand_out_ensures (fun _ => rfl) (sfs_lookparent_ensures consistent heldV path buflen)
  | creat dir name excl =>
    have heldV := holds dir List.mem_cons_self
    refine directory_op_ensures consistent heldV ?_
    rintro rfl
    exact hand_out_ensures (fun _ => rfl) (sfs_creat_ensures consistent heldV name excl)
  | link dir name file =>
    have heldV := holds dir List.mem_cons_self
    have heldFile := holds file (List.mem_cons_of_mem _ List.mem_cons_self)
    refine directory_op_ensures consistent heldV ?_
    rintro rfl
    exact hand_nothing_ensures rfl (sfs_link_ensures consistent heldV name heldFile)
  | remove dir name =>
    have heldV := holds dir List.mem_cons_self
    refine directory_op_ensures consistent heldV ?_
    rintro rfl
    exact hand_nothing_ensures rfl (sfs_remove_ensures consistent heldV name)
  | rename d1 n1 d2 n2 =>
    have heldV := holds d1 List.mem_cons_self
    have heldD2 := holds d2 (List.mem_cons_of_mem _ List.mem_cons_self)
    refine directory_op_ensures consistent heldV (fun root => ?_)
    obtain ⟨sv, found⟩ := consistent.find d2 heldD2
    have ops : (fs.heap d2).map Vnode.ops = some .dirops := proper
    rw [found] at ops
    have root' := root_of_directory consistent found
      ((consistent.table.ops d2 sv found).mp (Option.some.inj ops))
    subst root root'
    exact hand_nothing_ensures rfl (sfs_rename_ensures consistent heldV n1 n2)
  | read v uio | write v uio =>
    have heldV := holds v List.mem_cons_self
    refine file_op_ensures consistent heldV (fun regular => ?_)
    refine hand_nothing_ensures rfl (Ensures.bind_done (check_passes proper.1) ?_)
    exact sfs_io_result_ensures consistent regular heldV proper.2
  | truncate v len =>
    have heldV := holds v List.mem_cons_self
    refine file_op_ensures consistent heldV (fun regular => ?_)
    exact hand_nothing_ensures rfl (sfs_truncate_ensures consistent regular heldV len)
  | fsync v =>
    have heldV := holds v List.mem_cons_self
    refine hand_nothing_ensures rfl ((sfs_fsync_ensures consistent heldV).weaken ?_
      nofun)
    exact fun _ _ synced => ⟨synced.1.consistent, synced.2.references⟩
  | incref v =>
    obtain ⟨sv, found⟩ := consistent.find v (holds v List.mem_cons_self)
    refine hand_out_ensures (fun _ => rfl) ((vnode_incref_ensures found consistent).unfailing.bind ?_)
    rintro _ after ⟨undisturbed, refs⟩
    exact ensures_pure ⟨undisturbed.consistent, refs⟩
  | decref v =>
    obtain ⟨sv, found⟩ := consistent.find v (holds v List.mem_cons_self)
    refine hand_nothing_ensures rfl ((vnode_decref_ensures found consistent).weaken ?_
      nofun)
    exact fun _ _ dropped => ⟨dropped.1, dropped.2.2⟩
  | sync =>
    exact hand_nothing_ensures rfl (sfs_sync_ensures consistent).unfailing

end Os161.Sfs
