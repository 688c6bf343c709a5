import Marina.AddFlowAtomic
import Marina.BloomCounts
import Marina.BloomFilter
import Marina.BloomIndices
import Marina.Classification
import Marina.CounterTotals
import Marina.Crc
import Marina.Dataplane
import Marina.DnsDb
import Marina.DnsDispatch
import Marina.DnsHashtable
import Marina.DnsLearning
import Marina.DnsMap
import Marina.DnsRefresh
import Marina.EgressSlots
import Marina.ExportLoop
import Marina.ExportSlots
import Marina.ExportText
import Marina.ExportedTraffic
import Marina.FalseNegatives
import Marina.FeatureRounds
import Marina.Features
import Marina.FlowDb
import Marina.FlowDbLedger
import Marina.FlowHashtable
import Marina.FlowMap
import Marina.FlowRuns
import Marina.Forwarding
import Marina.HashIndex
import Marina.HeaderLength
import Marina.Heap
import Marina.Heuristic
import Marina.IdReuse
import Marina.IdleSessions
import Marina.IdleTimeout
import Marina.Ledger
import Marina.Lib.BitLinear
import Marina.Lib.Bytes
import Marina.Lib.Cyclic
import Marina.Lib.Delimited
import Marina.Lib.Exec
import Marina.Lib.HeapOrder
import Marina.Lib.IdPool
import Marina.Lib.LinearProbing
import Marina.Lib.Marks
import Marina.Lib.MatchTable
import Marina.Lib.Mean
import Marina.Lib.PendingQueue
import Marina.Lib.PrefixMatch
import Marina.Lib.RingQueue
import Marina.Lib.Run
import Marina.Lib.Slices
import Marina.Lib.WordPerm
import Marina.Lockstep
import Marina.LogAccuracy
import Marina.Murmur
import Marina.Orientation
import Marina.P4Parser
import Marina.PacketHandler
import Marina.Pipeline
import Marina.PrematureTimeouts
import Marina.Removals
import Marina.Residency
import Marina.Ringbuffer
import Marina.SameKey
import Marina.SamePipe
import Marina.SessionCount
import Marina.SessionExport
import Marina.SessionHashtable
import Marina.Settling
import Marina.Sharing
import Marina.SquareTable
import Marina.Structs
import Marina.Threads
import Marina.Traffic
import Marina.Uuids
