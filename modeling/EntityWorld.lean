import EntityWorld.Access
import EntityWorld.Archetype.Collection
import EntityWorld.Archetype.Id
import EntityWorld.Archetype.Index
import EntityWorld.Archetype.Store
import EntityWorld.Component.Column
import EntityWorld.Component.Definition
import EntityWorld.Component.Kind
import EntityWorld.Component.Registry
import EntityWorld.Component.Sequence
import EntityWorld.Component.Type
import EntityWorld.Duration
import EntityWorld.Entity.Allocator
import EntityWorld.Entity.Id
import EntityWorld.Error
import EntityWorld.Fault
import EntityWorld.Fence.Admission
import EntityWorld.Fence.Batch
import EntityWorld.Fence.Id
import EntityWorld.Fence.LockTable
import EntityWorld.Fence.Order
import EntityWorld.Fence.Report
import EntityWorld.Fence.Scheduler
import EntityWorld.Fence.Update
import EntityWorld.Loop.FrameLoop
import EntityWorld.Loop.Stats
import EntityWorld.Main
import EntityWorld.Particles.Components
import EntityWorld.Particles.Demo
import EntityWorld.Particles.Systems
import EntityWorld.Program
import EntityWorld.Proofs.Archetype.Collection
import EntityWorld.Proofs.Archetype.Column
import EntityWorld.Proofs.Archetype.Generation
import EntityWorld.Proofs.Archetype.Store
import EntityWorld.Proofs.Component.Registry
import EntityWorld.Proofs.Component.Sequence
import EntityWorld.Proofs.Entity.Allocator
import EntityWorld.Proofs.Fence.Admission
import EntityWorld.Proofs.Fence.BatchAccount
import EntityWorld.Proofs.Fence.BatchRun
import EntityWorld.Proofs.Fence.Columns
import EntityWorld.Proofs.Fence.Completion
import EntityWorld.Proofs.Fence.Exclusion
import EntityWorld.Proofs.Fence.LockTable
import EntityWorld.Proofs.Fence.Order
import EntityWorld.Proofs.Fence.Progress
import EntityWorld.Proofs.Fence.Rounds
import EntityWorld.Proofs.Fence.Serial
import EntityWorld.Proofs.Lists
import EntityWorld.Proofs.Program
import EntityWorld.Proofs.Shared
import EntityWorld.Proofs.World.Boundary
import EntityWorld.Proofs.World.Callbacks
import EntityWorld.Proofs.World.Chronicle
import EntityWorld.Proofs.World.Commit
import EntityWorld.Proofs.World.Effects
import EntityWorld.Proofs.World.Frames
import EntityWorld.Proofs.World.Identity
import EntityWorld.Proofs.World.Lifetimes
import EntityWorld.Proofs.World.Machine
import EntityWorld.Proofs.World.Start
import EntityWorld.Text.Decimal
import EntityWorld.Text.Hex
import EntityWorld.Text.Hidden
import EntityWorld.Text.Inspect
import EntityWorld.Text.Quoted
import EntityWorld.Toml.Document
import EntityWorld.Toml.Grammar
import EntityWorld.Toml.Line
import EntityWorld.Toml.Moment
import EntityWorld.Toml.Number
import EntityWorld.Toml.Reader
import EntityWorld.Toml.Text
import EntityWorld.Total
import EntityWorld.Trace.Event
import EntityWorld.Trace.Filter
import EntityWorld.Trace.Line
import EntityWorld.World.Basic
import EntityWorld.World.Config
import EntityWorld.World.ConfigFile
import EntityWorld.World.Frame
import EntityWorld.World.Lifecycle
import EntityWorld.World.System
import EntityWorld.Proofs.World.Requests
import EntityWorld.Proofs.Archetype.Stock
import EntityWorld.Proofs.Foresight
import EntityWorld.Proofs.Fence.Foresight
import EntityWorld.Proofs.World.Ahead
import EntityWorld.Proofs.World.Discovery
import EntityWorld.Proofs.World.Asks
import EntityWorld.Proofs.World.Deferral
import EntityWorld.Proofs.World.Provision
import EntityWorld.Proofs.Fence.Placement
import EntityWorld.Proofs.Fence.Walk
import EntityWorld.Proofs.Fence.Grounded
import EntityWorld.Proofs.Fence.Calls
import EntityWorld.Proofs.Fence.Standing
import EntityWorld.Proofs.Fence.Obedience
import EntityWorld.Proofs.Archetype.Rest
import EntityWorld.Proofs.Fence.Numbers
import EntityWorld.Proofs.World.Prepared
import EntityWorld.Proofs.World.Declarations
import EntityWorld.Proofs.World.Postponed
import EntityWorld.Proofs.World.Stutter
import EntityWorld.Fence.LockSteps
import EntityWorld.Proofs.Fence.LockHistory
import EntityWorld.Proofs.Fence.LockRace
import EntityWorld.Proofs.Archetype.Rows
import EntityWorld.Proofs.Archetype.Sweep
import EntityWorld.Proofs.Archetype.Calls
import EntityWorld.Proofs.Archetype.Conservation
import EntityWorld.Proofs.Archetype.StoreHistory
import EntityWorld.Proofs.Archetype.Catalog
import EntityWorld.Proofs.Fence.Heard
import EntityWorld.Proofs.World.Queries
import EntityWorld.Proofs.World.Unfailing
import EntityWorld.Proofs.Archetype.Index
import EntityWorld.Proofs.Relabel
import EntityWorld.Proofs.World.Sent
import EntityWorld.Proofs.Archetype.Relabelled
import EntityWorld.Proofs.Alike
import EntityWorld.Proofs.Mirror
import EntityWorld.Proofs.Corresponding
import EntityWorld.Proofs.Fence.MirroredBatch
import EntityWorld.Proofs.Fence.MirroredScheduler
import EntityWorld.Proofs.World.Mirrored
import EntityWorld.Proofs.World.MirroredFrames
import EntityWorld.Proofs.World.MirroredRun
import EntityWorld.Proofs.World.Shuffled
import EntityWorld.Proofs.World.Inert
import EntityWorld.Proofs.Archetype.Query
import EntityWorld.Proofs.Archetype.Bindings
import EntityWorld.Proofs.Fence.Phases
import EntityWorld.Proofs.Fence.Alone
import EntityWorld.Proofs.Archetype.Handles
import EntityWorld.Proofs.Archetype.Updates
import EntityWorld.Proofs.Archetype.Refusals
import EntityWorld.Proofs.World.Refusals
import EntityWorld.Proofs.World.Live
import EntityWorld.Proofs.World.Figures
import EntityWorld.Proofs.World.Reports
import EntityWorld.Proofs.Entity.Ledger
import EntityWorld.Proofs.Component.Numbering
import EntityWorld.Proofs.Fence.Misuse
import EntityWorld.Proofs.Archetype.Interrupted
import EntityWorld.Proofs.Fence.Attempts
import EntityWorld.Proofs.Fence.Shares
import EntityWorld.Proofs.World.Passes
import EntityWorld.Proofs.Loop.Statistics
import EntityWorld.Proofs.Loop.Accounting
import EntityWorld.Entity.Word
import EntityWorld.Proofs.Entity.Transition
import EntityWorld.Proofs.Entity.Word
import EntityWorld.Proofs.Entity.Fields
