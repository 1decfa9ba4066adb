import Nucleus.Kernel.Start
import Nucleus.Kernel.Transcript
import Nucleus.Memory.Direct
import Nucleus.Proofs.Alignment
import Nucleus.Proofs.Boot.Reporting
import Nucleus.Proofs.Boot.Scanning
import Nucleus.Proofs.Boot.Tables
import Nucleus.Proofs.Boot.TagOrder
import Nucleus.Proofs.Device.Pic
import Nucleus.Proofs.Device.Serial
import Nucleus.Proofs.Kernel.FaultStacks
import Nucleus.Proofs.Kernel.SelfTest
import Nucleus.Proofs.Kernel.TrapEntry
import Nucleus.Proofs.Memory.Gaps
import Nucleus.Proofs.Memory.Listing
import Nucleus.Proofs.Memory.Minimal
import Nucleus.Proofs.Paging.FailedMapping
import Nucleus.Proofs.Paging.Fields
import Nucleus.Proofs.Paging.HeapPages
import Nucleus.Proofs.Paging.PageMap
import Nucleus.Proofs.Paging.Pruning
import Nucleus.Proofs.Paging.ReleasedTables
import Nucleus.Proofs.Paging.Restoration
import Nucleus.Proofs.Paging.Slots
import Nucleus.Proofs.Ranges
import Nucleus.Proofs.Trap.Interrupts
