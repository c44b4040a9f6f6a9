import Os161.Sfs.Accounts

/-!
# Link counts over whole sessions

In every state of every session on a new volume the link count of a regular file
is the number of entries that name it. A block that an operation frees is not an
inode that is still named or held, and an operation that fails leaves the directory
and all link counts as they were.

This includes the volumes whose freemap size wraps to zero. There no block can be
allocated, so the root directory stays empty and is the only thing that is ever
loaded; an operation may panic, as the block of the root inode is not marked.
-/
namespace Os161.Sfs

open Os161.Kern Os161.Library Os161.Library.Program Os161.Library.Runs Function
open Ensures (bind_done bind_check)

/-- The vnode of an empty root directory. -/
def rootVnode (refcount : Nat) : Vnode := ⟨rootInode, false, .dirops, refcount⟩

/-- The file system of a wrapped volume: the freemap has no bits, and only the vnode
of the empty root directory can be loaded. -/
structure Barren (refcount : Nat) (fs : Fs) : Prop where
  nbits : fs.freemap.nbits = 0
  answers : fs.device.answers = fun _ => true
  inside : 1 < fs.device.nsect
  stored : fs.device.sectors 1 = rootInode.encode
  clean : fs.superdirty = false ∧ fs.freemapdirty = false
  vnodes : fs.vnodes = if refcount = 0 then [] else [rootdirIno]
  root : fs.heap rootdirIno = if refcount = 0 then none else some (rootVnode refcount)
  others : ∀ ino, ino ≠ rootdirIno → fs.heap ino = none

variable {session : Session} {v : Ino}

section barren

variable {fs : Fs} {refcount : Nat} (barren : Barren refcount fs)

include barren

theorem Barren.references : references fs = update (fun _ => 0) rootdirIno refcount := by
  funext ino
  unfold Sfs.references
  by_cases root : ino = rootdirIno
  · rw [root, barren.root]
    by_cases unloaded : refcount = 0
    · rw [unloaded]
      rfl
    · rw [if_neg unloaded]
      rfl
  · rw [barren.others ino root, update_of_ne root]
    rfl

theorem Barren.node_root : node (disk fs) rootdirIno = rootInode := by
  unfold node disk
  rw [barren.root]
  by_cases unloaded : refcount = 0
  · rw [if_pos unloaded]
    show Dinode.decode (fs.device.sectors 1) = rootInode
    rw [barren.stored, Dinode.decode_encode]
  · rw [if_neg unloaded]
    exact Dinode.decode_encode rootInode

theorem Barren.directory_empty : directory (disk fs) = [] := by
  unfold directory nentries
  rw [barren.node_root]
  rfl

theorem Barren.root_of_live {ino : Ino} (alive : live fs ino) : ino = rootdirIno := by
  unfold live Live at alive
  rw [barren.directory_empty] at alive
  rcases alive with root | ⟨_, direntry, member, _⟩ | loaded
  · exact root
  · exact absurd member List.not_mem_nil
  · by_contra other
    unfold Loaded at loaded
    rw [barren.others ino other] at loaded
    cases loaded

theorem Barren.not_in_use (block : Ino) : ¬ InUse fs block := by
  intro used
  have below := used.2.1
  rw [barren.nbits] at below
  omega

theorem Barren.found (held : 0 < Sfs.references fs v) :
    v = rootdirIno ∧ 0 < refcount ∧ fs.heap rootdirIno = some (rootVnode refcount) := by
  rw [barren.references] at held
  by_cases root : v = rootdirIno
  · rw [root, update_self] at held
    refine ⟨root, held, ?_⟩
    rw [barren.root, if_neg (by omega)]
  · rw [update_of_ne root] at held
    omega

theorem Barren.grown (memory : Nat → Bool) (vnodesMax : Nat) :
    Barren refcount (fs.grown memory vnodesMax) :=
  { barren with }

/-- The root directory with another count of references. -/
theorem Barren.recounted (loaded : refcount ≠ 0) (count : Nat) (positive : count ≠ 0) :
    Barren count (fs.edited rootdirIno (rootVnode count)) := by
  have vnodes := barren.vnodes
  rw [if_neg loaded] at vnodes
  refine { barren with vnodes := ?_, root := ?_, others := ?_ }
  · rw [if_neg positive]
    exact vnodes
  · rw [if_neg positive]
    exact update_self rootdirIno (some (rootVnode count)) fs.heap
  · intro ino other
    exact (update_of_ne other _ _).trans (barren.others ino other)

theorem Barren.entered (unloaded : refcount = 0) :
    Barren 1 (fs.entered rootdirIno (rootVnode 1)) := by
  have vnodes := barren.vnodes
  rw [if_pos unloaded] at vnodes
  refine { barren with vnodes := ?_, root := ?_, others := ?_ }
  · show fs.vnodes ++ [rootdirIno] = _
    rw [vnodes]
    rfl
  · exact update_self rootdirIno (some (rootVnode 1)) fs.heap
  · intro ino other
    exact (update_of_ne other _ _).trans (barren.others ino other)

theorem Barren.unloaded (loaded : refcount ≠ 0) : Barren 0 (fs.unloaded rootdirIno) := by
  have vnodes := barren.vnodes
  rw [if_neg loaded] at vnodes
  refine { barren with vnodes := ?_, root := ?_, others := ?_ }
  · show fs.vnodes.erase rootdirIno = _
    rw [vnodes]
    rfl
  · exact update_self rootdirIno none fs.heap
  · intro ino other
    exact (update_of_ne other _ _).trans (barren.others ino other)

theorem Barren.vnode_root (loaded : refcount ≠ 0) :
    vnode rootdirIno fs = .done (rootVnode refcount) fs := by
  have found := barren.root
  rw [if_neg loaded] at found
  exact vnode_returns found

omit barren in
theorem is_directory : (rootVnode refcount).i.type = typeDir :=
  rfl

theorem Barren.balloc_fails : sfsBalloc fs = .fail .ENOSPC fs := by
  have nbits := barren.nbits
  rcases bitmap_alloc_cases fs.freemap (by omega) (by omega) with ⟨full, _⟩ | ⟨index, _, below, _⟩
  · simp only [sfsBallocBy, bind, andThen, inspect, full]
    rfl
  · omega

theorem Barren.findname (loaded : refcount ≠ 0) (name : CString) :
    sfsDirFindname rootdirIno name fs = .done ⟨none, none⟩ fs := by
  have size : (rootVnode refcount).i.size.toNat = 0 := rfl
  simp only [sfsDirFindname, sfsDirNentries, bind, andThen, barren.vnode_root loaded, check,
    is_directory, size, if_true, Nat.zero_mod, Nat.zero_div]
  rfl

theorem Barren.lookonce (loaded : refcount ≠ 0) (name : CString) :
    sfsLookonce rootdirIno name fs = .fail .ENOENT fs := by
  simp only [sfsLookonce, bind, andThen, barren.findname loaded name]
  rfl

omit barren in
theorem sfs_bused_tolerant (fs : Fs) (block : Ino) :
    Ensures True (sfsBused block) fs (fun _ after => after = fs) (fun _ => Barren refcount) :=
  bind_done rfl (bind_check (Or.inr True.intro) (ensures_inspect rfl))

/-- Loading the root directory takes a reference, fails or panics. -/
theorem Barren.loadvnode :
    Ensures True (sfsLoadvnode rootdirIno typeInval) fs (fun _ after => Barren (refcount + 1) after)
      (fun _ => Barren refcount) := by
  have vnodes := barren.vnodes
  refine bind_done rfl ?_
  by_cases unloaded : refcount = 0
  · rw [if_pos unloaded] at vnodes
    rw [vnodes]
    refine bind_done rfl ?_
    rw [if_neg (by decide)]
    refine bind_done rfl ?_
    split
    · have grown := barren.grown (fun index => fs.memory (index + 1)) fs.vnodesMax
      refine (sfs_bused_tolerant (fs.grown (fun index => fs.memory (index + 1)) fs.vnodesMax)
        rootdirIno).bind ?_
      rintro used _ rfl
      refine bind_check (Or.inr True.intro) ?_
      refine bind_done (readblock_answered grown.answers rootdirIno grown.inside) ?_
      have made : makeVnode (Dinode.decode ((fs.grown (fun index => fs.memory (index + 1))
          fs.vnodesMax).device.sectors rootdirIno.toNat)) typeInval = .ok (rootVnode 1) := by
        rw [show rootdirIno.toNat = 1 from rfl, grown.stored, Dinode.decode_encode]
        rfl
      rw [made]
      refine bind_done rfl (((array_preallocate_ensures).tolerate.on_failure ?_).bind ?_)
      · rintro _ after ⟨memory, vnodesMax, rfl⟩
        exact barren.grown memory vnodesMax
      · rintro _ middle ⟨memory, vnodesMax, rfl⟩
        refine ensures_change ?_
        rw [unloaded]
        exact (barren.grown memory vnodesMax).entered unloaded
    · exact ensures_fail (barren.grown (fun index => fs.memory (index + 1)) fs.vnodesMax)
  · rw [if_neg unloaded] at vnodes
    have found := barren.root
    rw [if_neg unloaded] at found
    rw [vnodes]
    have search : Ensures True (sfsFindvnode rootdirIno [rootdirIno]) fs
        (fun found after => found = true ∧ after = fs) (fun _ => Barren refcount) := by
      refine (sfs_bused_tolerant fs rootdirIno).bind ?_
      rintro used _ rfl
      refine bind_check (Or.inr True.intro) ?_
      rw [if_pos rfl]
      exact ensures_pure ⟨rfl, rfl⟩
    refine search.bind ?_
    rintro _ _ ⟨rfl, rfl⟩
    rw [if_pos rfl]
    refine bind_done (check_passes rfl)
      (ensures_of_done (edit_vnode_returns rootdirIno _ _ found) ?_)
    exact barren.recounted unloaded (refcount + 1) (Nat.succ_ne_zero refcount)

theorem Barren.sync_inode (loaded : refcount ≠ 0) : sfsSyncInode rootdirIno fs = .done () fs := by
  simp only [sfsSyncInode, bind, andThen, barren.vnode_root loaded]
  rfl

theorem Barren.sync : sfsSync fs = .done () fs := by
  have synced : sfsSyncVnodes fs.vnodes fs = .done () fs := by
    rw [barren.vnodes]
    by_cases unloaded : refcount = 0
    · rw [if_pos unloaded]
      rfl
    · rw [if_neg unloaded]
      have once := attempt_of_done (barren.sync_inode unloaded)
      simp only [sfsSyncVnodes, sfsFsync, bind, andThen, once]
      rfl
  have freemap : sfsSyncFreemap fs = .done () fs := by
    simp only [sfsSyncFreemap, bind, andThen, inspect, barren.clean.2]
    rfl
  have superblock : sfsSyncSuperblock fs = .done () fs := by
    simp only [sfsSyncSuperblock, bind, andThen, inspect, barren.clean.1]
    rfl
  simp [sfsSync, bind, andThen, inspect, synced, freemap, superblock]

theorem Barren.decref (loaded : refcount ≠ 0) :
    ∃ after, vnodeDecref rootdirIno fs = .done () after ∧ Barren (refcount - 1) after := by
  have found := barren.root
  rw [if_neg loaded] at found
  have looked := barren.vnode_root loaded
  have count : (rootVnode refcount).refcount = refcount := rfl
  by_cases several : 1 < refcount
  · refine ⟨_, ?_, barren.recounted loaded (refcount - 1) (by omega)⟩
    simp only [vnodeDecref, bind, andThen, looked, check, count, Nat.pos_of_ne_zero loaded, if_true,
      several, edit_vnode_returns rootdirIno _ _ found]
    rfl
  · have single : refcount = 1 := by omega
    subst single
    refine ⟨_, ?_, barren.unloaded loaded⟩
    have vnodes := barren.vnodes
    rw [if_neg loaded] at vnodes
    have linked (erase : FsProgram PUnit) : whenUnlinked (rootVnode 1) erase fs = .done () fs := rfl
    have reclaimed : sfsReclaim rootdirIno fs = .done () (fs.unloaded rootdirIno) := by
      simp only [sfsReclaim, sfsReclaimRemove, bind, andThen, looked, count, ne_eq, not_true,
        if_false, linked, barren.sync_inode loaded, inspect, vnodes, List.mem_singleton, check,
        if_true, change, Fs.unloaded]
    simp only [vnodeDecref, bind, andThen, looked, check, count, Nat.one_pos, if_true,
      Nat.lt_irrefl, if_false, attempt_of_done reclaimed]
    rfl

theorem Barren.incref (loaded : refcount ≠ 0) : vnodeIncref rootdirIno fs =
      .done () (fs.edited rootdirIno (rootVnode (refcount + 1))) := by
  have found := barren.root
  rw [if_neg loaded] at found
  exact edit_vnode_returns rootdirIno _ _ found

end barren

/-- What every operation on a barren file system does: it may panic; if it returns,
the file system is barren with the references that were handed out, and if it fails,
nothing has changed. -/
def StaysBarren (refcount : Nat) (operation : Operation) (program : FsProgram (Option Ino))
    (fs : Fs) : Prop :=
  Ensures True program fs (fun result after => ∃ count, Barren count after ∧
      references after = handed (references fs) operation result)
    (fun _ after => Barren refcount after)

section operations

variable {fs : Fs} {refcount : Nat} (barren : Barren refcount fs) {operation : Operation}

include barren

/-- The directory operations run, and only on the root directory. -/
theorem Barren.dispatches (held : 0 < Sfs.references fs v) (fileop dirop : FsProgram (Option Ino)) :
    v = rootdirIno ∧ refcount ≠ 0 ∧ dispatch v fileop dirop fs = dirop fs := by
  obtain ⟨rfl, positive, found⟩ := barren.found held
  refine ⟨rfl, by omega, ?_⟩
  simp only [dispatch, bind, andThen, vnode_returns found]
  rfl

omit barren in
theorem StaysBarren.dispatched {program dirop : FsProgram (Option Ino)}
    (same : program fs = dirop fs) (ensured : StaysBarren refcount operation dirop fs) :
    StaysBarren refcount operation program fs := by
  constructor
  rw [same]
  exact ensured.outcome

/-- An operation that directories refuse. -/
theorem Barren.refused_by (held : 0 < Sfs.references fs v) {fileop dirop : FsProgram (Option Ino)}
    (error : Errno) (refused : v = rootdirIno → refcount ≠ 0 → dirop fs = .fail error fs) :
    StaysBarren refcount operation (dispatch v fileop dirop) fs := by
  obtain ⟨root, loaded, dispatched⟩ := barren.dispatches held fileop dirop
  have failed := dispatched.trans (refused root loaded)
  constructor
  rw [failed]
  exact barren

theorem Barren.changes_nothing {program : FsProgram PUnit}
    (handing : handed (Sfs.references fs) operation none = Sfs.references fs)
    (returned : program fs = .done () fs) :
    StaysBarren refcount operation (handNothing program) fs :=
  bind_done returned (ensures_pure ⟨refcount, barren, handing.symm⟩)

theorem Barren.hands_out_root {program : FsProgram Ino}
    (handing : handed (Sfs.references fs) operation (some rootdirIno) =
      update (Sfs.references fs) rootdirIno (Sfs.references fs rootdirIno + 1))
    (ensured : Ensures True program fs (fun v after => v = rootdirIno ∧ Barren (refcount + 1) after)
      (fun _ => Barren refcount)) :
    StaysBarren refcount operation (handOut program) fs := by
  refine ensured.bind ?_
  rintro _ after ⟨rfl, taken⟩
  refine ensures_pure ⟨refcount + 1, taken, ?_⟩
  rw [handing]
  rw [taken.references, barren.references, update_idem, update_self]

theorem Barren.lookup_fails (loaded : refcount ≠ 0) (path : CString) :
    sfsLookup rootdirIno path fs = .fail .ENOENT fs := by
  simp only [sfsLookup, bind, andThen, barren.vnode_root loaded]
  rw [if_neg (not_not_intro is_directory)]
  simp only [andThen, barren.lookonce loaded path]

theorem Barren.creat_fails (loaded : refcount ≠ 0) (name : CString) (excl : Bool) :
    sfsCreat rootdirIno name excl fs = .fail .ENOSPC fs := by
  have searched := barren.findname loaded name
  have made : sfsMakeobj typeFile fs = .fail .ENOSPC fs := by
    simp only [sfsMakeobj, bind, andThen, barren.balloc_fails]
  simp only [sfsCreat, bind, andThen, searched, made]

/-- Every operation leaves a barren file system barren. One case per operation. -/
theorem Barren.perform {held : Ino → Nat} (refs : Sfs.references fs = held)
    (allowed : Allowed ⟨fs, held⟩ operation) :
    StaysBarren refcount operation (Sfs.perform operation) fs := by
  obtain ⟨holds, proper⟩ := allowed
  subst refs
  dsimp only at holds
  cases operation with
  | getroot =>
    refine barren.hands_out_root rfl (barren.loadvnode.bind ?_)
    intro _ after taken
    refine bind_done (taken.vnode_root (Nat.succ_ne_zero refcount)) ?_
    rw [if_neg (not_not_intro is_directory)]
    exact ensures_pure ⟨rfl, taken⟩
  | lookup v path =>
    refine barren.refused_by (holds v List.mem_cons_self) .ENOENT ?_
    rintro rfl loaded
    simp only [handOut, bind, andThen, barren.lookup_fails loaded path]
  | lookparent v path buflen =>
    obtain ⟨rfl, loaded, dispatched⟩ := barren.dispatches (holds v List.mem_cons_self)
      (failWith .ENOTDIR) (handOut (sfsLookparent v path buflen))
    refine StaysBarren.dispatched dispatched (barren.hands_out_root rfl
      (bind_done (barren.vnode_root loaded) ?_))
    rw [if_neg (not_not_intro is_directory)]
    split
    · exact ensures_fail barren
    · refine bind_done (barren.incref loaded) (ensures_pure ⟨rfl, ?_⟩)
      exact barren.recounted loaded (refcount + 1) (Nat.succ_ne_zero refcount)
  | creat dir name excl =>
    refine barren.refused_by (holds dir List.mem_cons_self) .ENOSPC ?_
    rintro rfl loaded
    simp only [handOut, bind, andThen, barren.creat_fails loaded name excl]
  | link dir name file =>
    obtain ⟨rfl, _⟩ := barren.found (holds file (List.mem_cons_of_mem _ List.mem_cons_self))
    refine barren.refused_by (holds dir List.mem_cons_self) .EINVAL ?_
    rintro rfl loaded
    simp only [handNothing, sfsLink, bind, andThen, barren.vnode_root loaded, is_directory]
    rfl
  | remove dir name =>
    refine barren.refused_by (holds dir List.mem_cons_self) .ENOENT ?_
    rintro rfl loaded
    simp only [handNothing, sfsRemove, bind, andThen, barren.lookonce loaded name]
  | rename d1 n1 d2 n2 =>
    obtain ⟨rfl, _⟩ := barren.found (holds d2 (List.mem_cons_of_mem _ List.mem_cons_self))
    refine barren.refused_by (holds d1 List.mem_cons_self) .ENOENT ?_
    rintro rfl loaded
    simp only [handNothing, sfsRename, bind, andThen, check, if_true, barren.lookonce loaded n1]
  | read v _ | write v _ | truncate v _ =>
    exact barren.refused_by (holds v List.mem_cons_self) .EISDIR fun _ _ => rfl
  | fsync v =>
    obtain ⟨rfl, positive, _⟩ := barren.found (holds v List.mem_cons_self)
    exact barren.changes_nothing rfl (barren.sync_inode (by omega))
  | incref v =>
    obtain ⟨rfl, positive, _⟩ := barren.found (holds v List.mem_cons_self)
    refine barren.hands_out_root rfl (bind_done (barren.incref (by omega)) (ensures_pure ⟨rfl, ?_⟩))
    exact barren.recounted (by omega) (refcount + 1) (Nat.succ_ne_zero refcount)
  | decref v =>
    obtain ⟨rfl, positive, _⟩ := barren.found (holds v List.mem_cons_self)
    obtain ⟨after, dropped, left⟩ := barren.decref (by omega)
    refine bind_done dropped (ensures_pure ⟨refcount - 1, left, ?_⟩)
    show Sfs.references after = update (Sfs.references fs) rootdirIno _
    rw [left.references, barren.references, update_idem, update_self]
  | sync => exact barren.changes_nothing rfl barren.sync

end operations

/-- What a wrapped volume keeps to over a session. -/
def Desolate (session : Session) : Prop :=
  ∃ refcount, Barren refcount session.fs ∧ references session.fs = session.held

/-- So does every operation of a session. -/
theorem next_desolate {after : Session} (desolate : Desolate session) {operation : Operation}
    (allowed : Allowed session operation) (taken : next session operation = some after) :
    Desolate after := by
  obtain ⟨refcount, barren, refs⟩ := desolate
  have ensured := (barren.perform refs allowed).outcome
  unfold next at taken
  cases ended : perform operation session.fs with
  | stop reason =>
    rw [ended] at taken
    cases taken
  | fail error fs =>
    rw [ended] at taken ensured
    cases taken
    have left : Barren refcount fs := ensured
    exact ⟨refcount, left, left.references.trans (barren.references.symm.trans refs)⟩
  | done result fs =>
    rw [ended] at taken ensured
    cases taken
    obtain ⟨count, left, handing⟩ := ensured
    exact ⟨count, left, by rw [handing, refs]⟩

theorem Fresh.barren {nblocks : BitVec 32} {image : Nat → Block} {fs : Fs}
    (fresh : Fresh nblocks image fs) (formatted : Formatted nblocks image)
    (wrapped : 2 ^ 32 ≤ nblocks.toNat + 4095) : Barren 0 fs := by
  have bits := freemapbits_to_nat nblocks
  have nbits := fresh.nbits
  refine ⟨by omega, ?_, ?_, ?_, fresh.clean, fresh.vnodes, ?_, ?_⟩
  · rw [fresh.device]
    rfl
  · rw [fresh.device]
    show 1 < nblocks.toNat
    omega
  · rw [fresh.device]
    exact formatted.root
  · rw [fresh.heap]
    rfl
  · intro ino _
    rw [fresh.heap]

/-- Every state of a session on a wrapped volume is desolate. -/
theorem desolate_of_reached {nblocks : BitVec 32} {image : Nat → Block}
    (formatted : Formatted nblocks image) (wrapped : 2 ^ 32 ≤ nblocks.toNat + 4095)
    (reached : Reaches next Allowed (Begins (steadyDisk nblocks image)) session) :
    Desolate session := by
  refine reached.invariant ?_ ?_
  · rintro session ⟨mounted, unheld⟩
    have fresh := fresh_of_mounted formatted mounted
    exact ⟨0, fresh.barren formatted wrapped, fresh.unreferenced.trans unheld.symm⟩
  · intro session operation after desolate allowed taken
    exact next_desolate desolate allowed taken

/-- The link counts are right, and the next operation, whichever it is, frees no block
that is then an inode with a name or a holder, and has no effect on the directory
and the link counts if it fails. -/
structure Linkage (session : Session) : Prop where
  counted : Counted (disk session.fs) (Loaded session.fs)
  freed : ∀ operation, Allowed session operation → ∀ after, next session operation = some after →
    ∀ ino, InUse session.fs ino → ¬ InUse after.fs ino →
      ¬ Named (directory (disk after.fs)) ino ∧ after.held ino = 0
  failed : ∀ operation, Allowed session operation → ∀ error after,
    perform operation session.fs = .fail error after → Steady session.fs after

/-- A block that is not in use is no inode with a name or a holder. -/
theorem Orderly.unused (orderly : Orderly session) {ino : Ino} (unused : ¬ InUse session.fs ino) :
    ¬ Named (directory (disk session.fs)) ino ∧ session.held ino = 0 := by
  have dead : ¬ live session.fs ino := by
    intro alive
    exact unused (orderly.consistent.books.used_of_owns (.inode ino) ⟨alive, rfl⟩)
  constructor
  · intro named
    exact dead (Or.inr (Or.inl named))
  · rw [← orderly.references]
    unfold Sfs.references
    cases found : session.fs.heap ino with
    | none => rfl
    | some sv => exact absurd (live_of_loaded found) dead

theorem Orderly.linkage (orderly : Orderly session) : Linkage session where
  counted := orderly.consistent.counted
  freed := by
    intro operation allowed after taken ino _ unused
    exact (next_orderly orderly allowed taken).unused unused
  failed := by
    intro operation allowed error after failed
    have ensured := (perform_ensures orderly allowed).outcome
    rw [failed] at ensured
    exact ensured.steady

theorem Desolate.linkage (desolate : Desolate session) : Linkage session := by
  obtain ⟨refcount, barren, refs⟩ := desolate
  constructor
  · intro ino alive regular
    exact absurd (barren.root_of_live alive) regular
  · intro operation allowed after taken ino used _
    exact absurd used (barren.not_in_use ino)
  · intro operation allowed error after failed
    have ensured := (barren.perform refs allowed).outcome
    rw [failed] at ensured
    have left : Barren refcount after := ensured
    constructor
    · rw [left.directory_empty, barren.directory_empty]
    · intro ino alive
      rw [barren.root_of_live alive, left.node_root, barren.node_root]

/-- In every state of every session on a new volume, whatever its size, the link
counts are right, and every operation frees and fails as it should. -/
theorem link_counts_in_every_session (nblocks : BitVec 32) (sectors image : Nat → Block)
    (volname : CString) (made : mksfs nblocks sectors volname = some image) (session : Session)
    (reached : Reaches next Allowed (Begins (steadyDisk nblocks image)) session) :
    Linkage session := by
  have formatted := formatted_of_mksfs made
  by_cases unwrapped : nblocks.toNat + 4095 < 2 ^ 32
  · exact (orderly_of_reached formatted unwrapped reached).linkage
  · exact (desolate_of_reached formatted (Nat.le_of_not_lt unwrapped) reached).linkage

/-- Someone asks for the root directory, creates the file `a` there, which gets block 3, and links
it under the name `b`. -/
def creatAndLink : List Operation :=
  [.getroot, .creat rootdirIno ⟨[0x61], by simp⟩ false, .link rootdirIno ⟨[0x62], by simp⟩ 3]

/-- Such calls, with vnodes their caller holds. -/
def creating (session : Session) : Operation → Bool
  | .getroot => true
  | .creat v _ _ => decide (0 < session.held v)
  | .link v _ file => decide (0 < session.held v ∧ 0 < session.held file)
  | _ => false

theorem allowed_of_creating (session : Session) (operation : Operation)
    (passed : creating session operation = true) : Allowed session operation := by
  cases operation with
  | getroot => exact ⟨fun _ member => absurd member List.not_mem_nil, True.intro⟩
  | creat v name excl =>
    refine ⟨fun other member => ?_, True.intro⟩
    rw [List.mem_singleton.mp member]
    exact of_decide_eq_true passed
  | link v name file =>
    have held : 0 < session.held v ∧ 0 < session.held file := of_decide_eq_true passed
    exact ⟨by simpa [Operation.vnodes] using held, True.intro⟩
  | _ => cases passed

/-- After these calls on a new volume of 4096 blocks the link count of the file is 2, as are the
entries that name it. -/
theorem link_counts_after_link :
    ∃ image fs session, mksfs 4096 (fun _ => zeroBlock) ⟨[], by simp⟩ = some image ∧
      Mounted (steadyDisk 4096 image) fs ∧
      exec next ⟨fs, fun _ => 0⟩ creatAndLink = some session ∧
      (node (disk session.fs) 3).linkcount.toNat = 2 ∧
      links (directory (disk session.fs)) 3 = 2 ∧ Linkage session := by
  obtain ⟨image, made, created, create, ⟨_, fs⟩, ran, permitted, session, taken, count,
      entries⟩ :
      ∃ image ∈ mksfs 4096 (fun _ => zeroBlock) ⟨[], by simp⟩,
      ∃ created ∈ sfsFsCreate (steadyDisk 4096 image) (fun _ => true),
      ∃ mounted ∈ (sfsDomount (fun _ => 0) created).result,
      Permits next (fun session operation => creating session operation = true)
        ⟨mounted.2, fun _ => 0⟩ creatAndLink ∧
      ∃ session ∈ exec next ⟨mounted.2, fun _ => 0⟩ creatAndLink,
        (node (disk session.fs) 3).linkcount.toNat = 2 ∧
        links (directory (disk session.fs)) 3 = 2 := by
    decide +kernel
  have mounted : Mounted (steadyDisk 4096 image) fs :=
    ⟨_, _, created, create, Outcome.done_of_result ran⟩
  have reached : Reaches next Allowed (Begins (steadyDisk 4096 image)) session :=
    reaches_of_permitted allowed_of_creating (.start _ ⟨mounted, rfl⟩) permitted taken
  exact ⟨image, fs, session, made, mounted, taken, count, entries,
    link_counts_in_every_session 4096 _ image _ made session reached⟩

end Os161.Sfs
