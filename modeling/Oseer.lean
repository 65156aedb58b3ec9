import Oseer.Library.Ring
import Oseer.Library.MemoryList
import Oseer.Library.Tiling
import Oseer.Library.WordMemory
import Oseer.Library.Results
import Oseer.Library.ParamStack
import Oseer.FirstFit
import Oseer.FirstFitLayout
import Oseer.FirstFitRelease
import Oseer.FirstFitAlloc
import Oseer.FirstFitRun
import Oseer.FirstFitInvariant
import Oseer.FirstFitClient
import Oseer.LinkedList
import Oseer.SortedList
import Oseer.ReadyMask
import Oseer.Sched
import Oseer.SchedSound
import Oseer.Schedule
import Oseer.Kernel
import Oseer.KernelSound
import Oseer.Lifecycle
import Oseer.Cancel
import Oseer.Time
import Oseer.Alarm
import Oseer.AlarmList
import Oseer.RoundRobin
import Oseer.Syscalls
import Oseer.ProgramRules
import Oseer.TimedKernel
import Oseer.TimedInvariant
import Oseer.TimedSchedule
import Oseer.TimedAlarms
import Oseer.TimedSteady
import Oseer.TimedEntries
import Oseer.ArchTimer
import Oseer.SystemTime
import Oseer.UniqueId
import Oseer.TimedEnd
import Oseer.TimedParams
import Oseer.TimedCalls
import Oseer.TimedRun
import Oseer.TimedStart
import Oseer.RoundRobinRuns
import Oseer.AlarmRuns
import Oseer.AlarmRecord
import Oseer.SliceRuns
import Oseer.SyscallStubs
import Oseer.Isolation
import Oseer.BestFit
import Oseer.BestFitSort
import Oseer.BestFitRuns
import Oseer.Signals
import Oseer.MsgQueues
import Oseer.AlarmFrame
import Oseer.LifeEntries
import Oseer.Lifetimes
import Oseer.Monitors
import Oseer.Handles
import Oseer.HandleRuns
import Oseer.ScheduleWatch
import Oseer.ScheduleRuns
import Oseer.Library.Bitmap
import Oseer.Library.TaggedWord
import Oseer.Grid
import Oseer.Library.ListStores
import Oseer.Library.RingBuffer
import Oseer.Keyboard
import Oseer.Uart
import Oseer.VgaText
import Oseer.Library.Terminal
import Oseer.VgaTerminal
import Oseer.HandlerTable
import Oseer.DeviceLock
import Oseer.Countdown
import Oseer.Cancellation
import Oseer.AlarmLoop
import Oseer.IdTable
import Oseer.FirstFitRequest
import Oseer.MessageCopy
import Oseer.ThreadMemory
import Oseer.ProgramStart
import Oseer.Library.SizeClasses
import Oseer.GridPlaces
import Oseer.GridLists
import Oseer.GridIndex
import Oseer.GridChunks
import Oseer.GridFree
import Oseer.GridAlloc
import Oseer.GridLayout
import Oseer.GridStart
import Oseer.GridSearch
import Oseer.GridCalls
import Oseer.GridRuns
import Oseer.FreeOrder
import Oseer.GridInvariant
import Oseer.SchedRuns
import Oseer.Segments
import Oseer.TimeArithmetic
import Oseer.ScanCodes
import Oseer.UartConfig
import Oseer.HeapPlacement
import Oseer.Library.ByteMemory
import Oseer.CStrings
import Oseer.ProgramList
import Oseer.Library.StringVector
import Oseer.Arguments
import Oseer.ShellParser
import Oseer.Printing
import Oseer.Library.Fuel
import Oseer.SliceProgress
import Oseer.CancelOnce
import Oseer.Waiting
import Oseer.Semaphores
import Oseer.SemaphorePrograms
import Oseer.ProducerConsumer
import Oseer.ProducerConsumerRuns
import Oseer.ProducerConsumerEnd
import Oseer.Library.TypedQueue
import Oseer.MessageDelivery
import Oseer.JoinProtocol
import Oseer.MessageWakes
import Oseer.Library.Halving
import Oseer.BitIndex
import Oseer.Substring
import Oseer.MemoryMove
import Oseer.Library.Positional
import Oseer.NumberText
import Oseer.ListHeaders
import Oseer.Library.MonitorRooms
import Oseer.Library.SemaphoreUnits
import Oseer.MonitorRuns
import Oseer.MonitorExclusion
import Oseer.Library.RoomPrograms
import Oseer.MonitorPrograms
import Oseer.Philosophers
import Oseer.PhilosopherRuns
import Oseer.PhilosopherEnd
import Oseer.Library.Turns
import Oseer.Library.CellStack
import Oseer.Library.InterruptChip
import Oseer.InterruptController
import Oseer.IrqHandlers
import Oseer.DeviceTable
import Oseer.DeviceRuns
import Oseer.ThreadContext
import Oseer.ThreadContextRuns
import Oseer.UserThreads
import Oseer.UserThreadRuns
import Oseer.DispatchRuns
