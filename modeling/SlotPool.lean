import SlotPool.Main
import SlotPool.Rehearsal.Fault
import SlotPool.World.Answer
import SlotPool.Proofs.Slot.Memory
import SlotPool.Proofs.Address.Names
import SlotPool.Proofs.Allocator.Complete
import SlotPool.Proofs.Pool.Balance
import SlotPool.Proofs.Pool.Custody
import SlotPool.Proofs.Pool.Identities
import SlotPool.Proofs.Pool.Policy
import SlotPool.Proofs.Pool.Connected
import SlotPool.Proofs.Allocator.Permits
import SlotPool.Proofs.Slot.Independent
import SlotPool.Proofs.Slot.Recovery
import SlotPool.Proofs.Slot.Removed
import SlotPool.Proofs.Slot.Reaped
import SlotPool.Proofs.Pool.Accounting
import SlotPool.Proofs.Allocator.Fair
import SlotPool.Proofs.Pool.Shutdown
import SlotPool.Proofs.Pool.Published
import SlotPool.Proofs.Pool.WorkerDeath
import SlotPool.Proofs.Slot.Built
import SlotPool.Proofs.World.Moored
import SlotPool.Proofs.World.Upheld
import SlotPool.Proofs.Slot.Errand
import SlotPool.Proofs.Slot.Between
import SlotPool.Proofs.Slot.Lasting
import SlotPool.Proofs.Slot.Undone
import SlotPool.Proofs.Primitive.Scoped
import SlotPool.Proofs.Slot.Scopes
import SlotPool.Proofs.Slot.Returning
import SlotPool.Proofs.Primitive.Recorded
import SlotPool.Proofs.Slot.Chores
import SlotPool.Proofs.Slot.Obeying
import SlotPool.Proofs.Slot.Creation
import SlotPool.Proofs.Slot.Clearance
import SlotPool.Proofs.World.Relics
import SlotPool.Proofs.Slot.Held
import SlotPool.Proofs.Slot.Rebuilt
import SlotPool.Proofs.Address.Blocks
import SlotPool.Proofs.Address.Numbering
import SlotPool.Proofs.Pool.Environment
import SlotPool.Proofs.Operator.Arguments
import SlotPool.Proofs.Operator.Reaping
import SlotPool.Proofs.Slot.Interfaces
import SlotPool.Proofs.Failure.Absence
import SlotPool.Proofs.Failure.Outcome
import SlotPool.Proofs.Text.Words
import SlotPool.Proofs.Linux.DefaultRoute
import SlotPool.Proofs.Pool.Registration
import SlotPool.Proofs.Linux.FileTree
import SlotPool.Proofs.Linux.Markers
import SlotPool.Proofs.Slot.Past
