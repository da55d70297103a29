import SystemcTlm.Loop.Checked
import SystemcTlm.Loop.Range
import SystemcTlm.Loop.Scan
import SystemcTlm.Loop.Cyclic
import SystemcTlm.Loop.Tables
import SystemcTlm.Loop.Window
import SystemcTlm.Container.Channels
import SystemcTlm.Container.PriorityQueue
import SystemcTlm.Container.Roster
import SystemcTlm.Container.StableSort
import SystemcTlm.Container.Threaded
import SystemcTlm.Container.Cursor
import SystemcTlm.Copy.Bursts
import SystemcTlm.Simulation.Stamp
import SystemcTlm.Simulation.Event
import SystemcTlm.Transition.Run
import SystemcTlm.Matching.Round
import SystemcTlm.Matching.Greedy
import SystemcTlm.Matching.RoundRobin
import SystemcTlm.Ring.Tokens
import SystemcTlm.Fairness.Credits
import SystemcTlm.Fairness.Turns
import SystemcTlm.Tree.Descendants
import SystemcTlm.Text.Scan
import SystemcTlm.Text.Split
import SystemcTlm.Islip.Fifo
import SystemcTlm.Islip.PriorityIslip
import SystemcTlm.Islip.VoqArbiter
import SystemcTlm.Islip.Wrr
import SystemcTlm.Islip.Booksim
import SystemcTlm.Islip.FifoHeads
import SystemcTlm.Islip.PriorityRound
import SystemcTlm.Islip.VoqRound
import SystemcTlm.Islip.WrrRound
import SystemcTlm.Islip.BooksimRound
import SystemcTlm.Islip.PrioritySchedule
import SystemcTlm.Islip.VoqSlot
import SystemcTlm.Islip.WrrRuns
import SystemcTlm.Islip.BooksimRefinement
import SystemcTlm.Islip.PriorityLevels
import SystemcTlm.Islip.RoundRobin
import SystemcTlm.Islip.WrrFairness
import SystemcTlm.Islip.BooksimMaxMatch
import SystemcTlm.Islip.IslipSp
import SystemcTlm.Islip.PairAccounting
import SystemcTlm.Islip.Refinement
import SystemcTlm.Islip.SlipPointers
import SystemcTlm.Islip.BooksimFairness
import SystemcTlm.Islip.Enqueue
import SystemcTlm.Islip.GrantPointers
import SystemcTlm.Islip.IslipBasicRuns
import SystemcTlm.Islip.IslipSpAccept
import SystemcTlm.Islip.IslipSpRuns
import SystemcTlm.Islip.Pim
import SystemcTlm.Islip.RrmSaturated
import SystemcTlm.Islip.Threshold
import SystemcTlm.Islip.TopLevel
import SystemcTlm.Islip.ThresholdFairness
import SystemcTlm.Dpa.DpaScheduler
import SystemcTlm.Dpa.Wavefront
import SystemcTlm.Dpa.DpaRuns
import SystemcTlm.Dpa.Diagonals
import SystemcTlm.Pcie.Arbitrator
import SystemcTlm.Pcie.Arbitration
import SystemcTlm.Pcie.Conservation
import SystemcTlm.Pcie.Service
import SystemcTlm.Pcie.Drain
import SystemcTlm.Pcie.PortTurns
import SystemcTlm.Pcie.FlowOrder
import SystemcTlm.Pcie.TopFlow
import SystemcTlm.PcieVc.Engine
import SystemcTlm.PcieVc.Traffic
import SystemcTlm.PcieVc.Progress
import SystemcTlm.PcieVc.SchemeChoice
import SystemcTlm.PcieVc.CreditLimit
import SystemcTlm.PcieVc.RoundRobinService
import SystemcTlm.PcieVc.WeightedRounds
import SystemcTlm.Pci.ConfigSpace
import SystemcTlm.Pci.Enumerator
import SystemcTlm.Pci.Topology
import SystemcTlm.Pci.Exploration
import SystemcTlm.Pci.Enumeration
import SystemcTlm.Pci.BusNumbering
import SystemcTlm.BankedBuffer.Process
import SystemcTlm.BankedBuffer.Memory
import SystemcTlm.BankedBuffer.Integrity
import SystemcTlm.BankedBuffer.Runs
import SystemcTlm.BankedBuffer.ReadBanks
import SystemcTlm.BankedBuffer.Banks
import SystemcTlm.BankedBuffer.BankClash
import SystemcTlm.BankedBuffer.SliceChains
import SystemcTlm.Lsu.LoadStoreUnit
import SystemcTlm.Lsu.Reference
import SystemcTlm.Lsu.CompletionOrder
import SystemcTlm.Lsu.StoreConvergence
import SystemcTlm.EventQueue.Peq
import SystemcTlm.EventQueue.PeqLoop
import SystemcTlm.EventQueue.PeqWithCb
import SystemcTlm.EventQueue.OnTime
import SystemcTlm.CreditLoop.Node
import SystemcTlm.CreditLoop.Tower
import SystemcTlm.AtProtocol.MemoryManager
import SystemcTlm.AtProtocol.Modules
import SystemcTlm.AtProtocol.Stages
import SystemcTlm.AtProtocol.Handshake
import SystemcTlm.AtProtocol.Interleavings
import SystemcTlm.AtProtocol.Exclusion
import SystemcTlm.AtProtocol.Completion
import SystemcTlm.TlmMemory.Transport
import SystemcTlm.TlmMemory.Bounds
import SystemcTlm.TlmMemory.Paths
import SystemcTlm.TlmMemory.Window
import SystemcTlm.Dma.Controllers
import SystemcTlm.Dma.Demodma
import SystemcTlm.Dma.Control
import SystemcTlm.Dma.Transfer
import SystemcTlm.TrafficGen.Transfers
import SystemcTlm.TrafficGen.DataString
import SystemcTlm.TrafficGen.Threads
import SystemcTlm.TrafficGen.DataTokens
import SystemcTlm.TrafficGen.Generator
import SystemcTlm.Test.Qos
import SystemcTlm.Test.QosDrain
