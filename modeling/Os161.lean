import Os161.Kern.Memmove
import Os161.Kern.Printf
import Os161.Kern.Moves
import Os161.Vfs.BigLock
import Os161.Semfs.Listing
import Os161.Semfs.Semaphore
import Os161.Proc.OpenFiles
import Os161.Proc.ForkSnapshot
import Os161.Kern.BitSet
import Os161.Sfs.LinkCounts
import Os161.Malloc.Runs
import Os161.Malloc.Sbrk
import Os161.Proc.Lifetime
import Os161.Kmalloc.Runs
import Os161.Thread.Shootdown
import Os161.Thread.Whereabouts
import Os161.Synch.RwLock
import Os161.Synch.Cv
import Os161.Vfs.VnodeLife
import Os161.Proc.Bounds
import Os161.Proc.Errors
import Os161.Vm.Owners
import Os161.Vm.ForkCopies
import Os161.Vm.Regions
import Os161.Vm.PrepareLoad
import Os161.Sfs.Sync
import Os161.Sfs.AnyDevice
import Os161.Sfsck.InodeBlocks
import Os161.Thread.Spl
import Os161.Vfs.Prefixes
