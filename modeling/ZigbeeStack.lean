import ZigbeeStack.Runs
import ZigbeeStack.Collections
import ZigbeeStack.WriteBack
import ZigbeeStack.FrameRoundTrip
import ZigbeeStack.DeviceQueueRuns
import ZigbeeStack.PendingTableSlots
import ZigbeeStack.PendingMirror
import ZigbeeStack.DataRequests
import ZigbeeStack.IndirectSends
import ZigbeeStack.SequenceNumbers
import ZigbeeStack.PendingSets
import ZigbeeStack.MacService
import ZigbeeStack.DeviceQueueRetries
import ZigbeeStack.RawRadioStream
import ZigbeeStack.RadioTasks
import ZigbeeStack.RadioParameters
import ZigbeeStack.MacFrames
import ZigbeeStack.MacCompletions
import ZigbeeStack.DerivedCodecs
import ZigbeeStack.SecuredPayloads
import ZigbeeStack.RawRadioEnds
import ZigbeeStack.RawRadioDecoding
import ZigbeeStack.RawRadioSink
import ZigbeeStack.MlmeRequests
import ZigbeeStack.PibResets
import ZigbeeStack.RadioValues
import ZigbeeStack.PackTargets
import ZigbeeStack.PendingTableVectors
import ZigbeeStack.MmoPadding
import ZigbeeStack.NwkFrame
import ZigbeeStack.KeySeparation
import ZigbeeStack.ApsFrame
import ZigbeeStack.PollReturns
import ZigbeeStack.PendingWakes
import ZigbeeStack.MruRuns
import ZigbeeStack.StartUp
import ZigbeeStack.CoordinatorEnds
import ZigbeeStack.StackTables
import ZigbeeStack.StackDeadlock
import ZigbeeStack.StackOrder
import ZigbeeStack.SerialReads
import ZigbeeStack.RadioBridge
import ZigbeeStack.OldFrame
import ZigbeeStack.FrameGenerations
import ZigbeeStack.DelayQueue
import ZigbeeStack.OldDeviceQueue
import ZigbeeStack.OldQueue
import ZigbeeStack.OldQueueRuns
import ZigbeeStack.OldService
import ZigbeeStack.OldServiceRuns
import ZigbeeStack.RadioBridgeCalls
