import DreamCore.Lib.Clocked
import DreamCore.Rtl.Basic
import DreamCore.Cpp.Rob
import DreamCore.Cpp.Rename
import DreamCore.Proofs.RobGrants
import DreamCore.Rtl.Fetch
import DreamCore.Proofs.CheckpointContents
import DreamCore.Rtl.Rename
import DreamCore.Rtl.Rat
import DreamCore.Rtl.PhyRegfile
import DreamCore.Rtl.Commit
import DreamCore.Proofs.AliasTable
import DreamCore.Proofs.SequentialTable
import DreamCore.Model.ReorderBuffer
import DreamCore.Model.Backend
import DreamCore.Model.RenameCycle
import DreamCore.Proofs.RetireCycle
import DreamCore.Proofs.RenameBundle
import DreamCore.Proofs.RenameSlots
import DreamCore.Proofs.CppRename
import DreamCore.Proofs.RenameOrder
import DreamCore.Model.FetchStream
import DreamCore.Proofs.FetchContinuity
import DreamCore.Proofs.InFlight
import DreamCore.Proofs.WriteBack
import DreamCore.Proofs.RobRefinement
import DreamCore.Proofs.BackendInvariant
import DreamCore.Proofs.BackendStep
import DreamCore.Proofs.RegisterMap
import DreamCore.Model.Recovery
import DreamCore.Model.LoadStore
import DreamCore.Proofs.StoreQueue
import DreamCore.Proofs.StoreFlow
import DreamCore.Proofs.StoreRetire
import DreamCore.Proofs.StoreOrder
import DreamCore.Proofs.RetireBundle
import DreamCore.Proofs.CppCommit
import DreamCore.Rtl.CsrFile
import DreamCore.Model.Traps
import DreamCore.Proofs.TrapRuns
import DreamCore.Proofs.InstructionCount
import DreamCore.Proofs.InterruptEnable
import DreamCore.Proofs.Misprediction
import DreamCore.Proofs.PreciseTraps
import DreamCore.Lib.Bytes
import DreamCore.Lib.Compaction
import DreamCore.Rtl.IssueQueue
import DreamCore.Rtl.Tcm
import DreamCore.Proofs.TcmBytes
import DreamCore.Model.FrontEnd
import DreamCore.Proofs.FenceFresh
import DreamCore.Proofs.IssueList
import DreamCore.Rtl.Execute
import DreamCore.Proofs.RejectedTraps
import DreamCore.Proofs.MExtension
import DreamCore.Cpp.StoreBuffer
import DreamCore.Proofs.StoreForward
import DreamCore.Rtl.ExecuteCsr
import DreamCore.Cpp.ExecuteCsr
import DreamCore.Model.Zicsr
import DreamCore.Proofs.Zicsr
import DreamCore.Lib.RunLength
import DreamCore.Rtl.Ras
import DreamCore.Rtl.BranchPredictor
import DreamCore.Cpp.Ras
import DreamCore.Cpp.BranchPredictor
import DreamCore.Proofs.ReturnStack
import DreamCore.Rtl.IssueDispatch
import DreamCore.Proofs.Dispatch
import DreamCore.Lib.Segments
import DreamCore.Rtl.Readreg
import DreamCore.Cpp.IssueInput
import DreamCore.Model.IssueInput
import DreamCore.Proofs.SegmentedInput
import DreamCore.Rtl.MultiFifoBanks
import DreamCore.Model.PortQueue
import DreamCore.Proofs.MultiFifo
import DreamCore.Lib.InstructionFormats
import DreamCore.Cpp.Decode
import DreamCore.Model.Encoding
import DreamCore.Proofs.DecodeInverse
import DreamCore.Cpp.IssueSelect
import DreamCore.Model.IssueSelection
import DreamCore.Proofs.IssueSelection
import DreamCore.Lib.Framing
import DreamCore.Software.BootloaderIsp
import DreamCore.Software.Bootloader
import DreamCore.Proofs.BootloaderTransfer
import DreamCore.Proofs.EnabledItems
import DreamCore.Cpp.Bus
import DreamCore.Proofs.AddressMap
import DreamCore.Cpp.Fifo
import DreamCore.Model.BoundedQueue
import DreamCore.Proofs.FifoQueue
import DreamCore.Cpp.Compress
import DreamCore.Proofs.Compress
import DreamCore.Lib.Resync
import DreamCore.Proofs.FrameResync
import DreamCore.Proofs.WriteCheck
import DreamCore.Software.BankFile
import DreamCore.Proofs.TcmMemory
import DreamCore.Rtl.Uart
import DreamCore.Model.Loopback
import DreamCore.Model.Predictors
import DreamCore.Model.Speculation
import DreamCore.Proofs.BranchFlow
import DreamCore.Proofs.BranchTracking
import DreamCore.Proofs.HistoryRestored
import DreamCore.Model.Checkpoints
import DreamCore.Proofs.CheckpointAccounting
import DreamCore.Model.ProgramOrder
import DreamCore.Proofs.ProgramOrder
import DreamCore.Proofs.RetiredPath
import DreamCore.Proofs.UartLoopback
import DreamCore.Proofs.PredictionAgrees
import DreamCore.Rtl.Clint
import DreamCore.Model.LoadPath
import DreamCore.Proofs.LoadPath
import DreamCore.Lib.Rv32i
import DreamCore.Cpp.Execute
import DreamCore.Model.Instruction
import DreamCore.Proofs.Instruction
import DreamCore.Proofs.InstructionAgrees
import DreamCore.Lib.Scoreboard
import DreamCore.Model.Dataflow
import DreamCore.Proofs.OperandFlow
import DreamCore.Proofs.SentOperations
import DreamCore.Model.UnitFlow
import DreamCore.Proofs.UnitFlow
import DreamCore.Proofs.RetiredValues
