import BlockMachine.Barrier.Drill
import BlockMachine.Config.Printer
import BlockMachine.Document.ValueReader
import BlockMachine.Interleaving.Grid
import BlockMachine.Lane.Solo
import BlockMachine.LogTarget
import BlockMachine.Memory.ViewBoard
import BlockMachine.Release
import BlockMachine.Script
import BlockMachine.Session
import BlockMachine.Proofs.Lane.Segment
import BlockMachine.Proofs.Block.Stage
import BlockMachine.Proofs.Block.Run
import BlockMachine.Interleaving.Log
import BlockMachine.Proofs.Interleaving.Crew
import BlockMachine.Proofs.Interleaving.Course
import BlockMachine.Proofs.BlockScan.Rounds
import BlockMachine.Proofs.BlockScan.Window
import BlockMachine.Proofs.BlockScan.Interleaving
import BlockMachine.Proofs.Decomposition
import BlockMachine.Proofs.Launch.Plan
import BlockMachine.Proofs.Memory.Pieces
import BlockMachine.Proofs.Interleaving.Grid
import BlockMachine.Proofs.Lane.Share
import BlockMachine.Proofs.Memory.Writes
import BlockMachine.Proofs.BlockCopy.Requests
import BlockMachine.Proofs.BlockCopy.Writes
import BlockMachine.Proofs.BlockScan.Sums
import BlockMachine.Proofs.Lane.Items
import BlockMachine.Proofs.BlockScan.Chunk
import BlockMachine.Proofs.Reduction.Block
import BlockMachine.Proofs.Launch.Intervals
import BlockMachine.Proofs.Reduction.Launch
import BlockMachine.Proofs.Reduction.Tree
import BlockMachine.Proofs.Compaction.Offsets
import BlockMachine.Proofs.Compaction.Selected
import BlockMachine.Proofs.Compaction.Chunk
import BlockMachine.Proofs.Compaction.Block
import BlockMachine.Proofs.Compaction.DenseChunks
import BlockMachine.Proofs.Compaction.Launch
import BlockMachine.Proofs.Compaction.Arrivals
import BlockMachine.Proofs.Compaction.Result
import BlockMachine.Proofs.Interleaving.Writers
import BlockMachine.Proofs.Interleaving.Turn
import BlockMachine.Proofs.Interleaving.Panics
import BlockMachine.Proofs.Launch.Answers
import BlockMachine.Proofs.Interleaving.Standstill
import BlockMachine.Proofs.Launch.Matched
import BlockMachine.Proofs.Launch.Faults
import BlockMachine.Proofs.Compaction.Interleaving
import BlockMachine.Proofs.Compaction.SecondAnswers
import BlockMachine.Proofs.Launch.Stricter
import BlockMachine.Proofs.Launch.Length
import BlockMachine.Proofs.Reduction.Panics
import BlockMachine.Proofs.Compaction.Patched
import BlockMachine.Proofs.Compaction.Failures
import BlockMachine.Proofs.Interleaving.InOrder
import BlockMachine.Proofs.Launch.InOrder
import BlockMachine.Barrier.Ledger
import BlockMachine.Proofs.Barrier.Moves
import BlockMachine.Proofs.Barrier.Phases
import BlockMachine.Proofs.Barrier.Lock
import BlockMachine.Proofs.Barrier.Accounts
import BlockMachine.Proofs.Barrier.Balance
import BlockMachine.Proofs.BlockCopy.Interleaving
import BlockMachine.Proofs.Compaction.HostCalls
import BlockMachine.Proofs.Launch.Pace
import BlockMachine.Proofs.Compaction.Pace
import BlockMachine.Proofs.Interleaving.Peaceful
import BlockMachine.Proofs.Launch.Segments
import BlockMachine.Proofs.Launch.Alone
import BlockMachine.Proofs.Launch.Independent
import BlockMachine.Proofs.Launch.Agreement
import BlockMachine.Proofs.Compaction.Independent
import BlockMachine.Proofs.Launch.Alarms
import BlockMachine.Proofs.Reduction.Alarms
import BlockMachine.Proofs.Compaction.PredicateFaults
import BlockMachine.Proofs.Compaction.Deliveries
import BlockMachine.Proofs.Compaction.CloneFaults
import BlockMachine.Proofs.Decomposition.Partition
import BlockMachine.Proofs.Compaction.Outcome
import BlockMachine.Proofs.Reduction.CheckedSums
import BlockMachine.Proofs.Lane.Only
import BlockMachine.Proofs.Reduction.Asked
import BlockMachine.Proofs.Compaction.Asked
import BlockMachine.Proofs.Launch.Alike
import BlockMachine.Proofs.Compaction.Masks
import BlockMachine.Proofs.Compaction.Dense
import BlockMachine.Proofs.Launch.Accounts
import BlockMachine.Proofs.Compaction.Accounting
import BlockMachine.Proofs.Reduction.Results
import BlockMachine.Proofs.Reduction.Containment
import BlockMachine.Proofs.HostScan.Agreement
import BlockMachine.Proofs.BlockCopy.Shares
import BlockMachine.Proofs.Compaction.FullChunks
import BlockMachine.Proofs.Compaction.FastPath
import BlockMachine.Proofs.Document.Grammar
import BlockMachine.Proofs.Document.Takes
import BlockMachine.Proofs.Document.Texts
import BlockMachine.Proofs.Document.Numbers
import BlockMachine.Proofs.Document.Members
import BlockMachine.Proofs.Config.Documents
import BlockMachine.Proofs.Config.RoundTrip
import BlockMachine.Proofs.Document.Written
import BlockMachine.Proofs.Lane.Among
import BlockMachine.Proofs.BlockScan.Among
import BlockMachine.Proofs.Launch.Hosts
import BlockMachine.Proofs.Compaction.Hosts
import BlockMachine.Interleaving.ThreadedGrid
import BlockMachine.Proofs.Barrier.Rounds
import BlockMachine.Proofs.Interleaving.Team
import BlockMachine.Proofs.Interleaving.TeamWeight
import BlockMachine.Proofs.Interleaving.Echoes
import BlockMachine.Proofs.Interleaving.TeamRest
import BlockMachine.Proofs.Launch.ThreadedGrid
import BlockMachine.Proofs.Launch.ThreadFaults
import BlockMachine.Proofs.Launch.Threads
import BlockMachine.Proofs.Compaction.Threads
