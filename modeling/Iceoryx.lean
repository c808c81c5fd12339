import Iceoryx.Lib.Fifo
import Iceoryx.Lib.Loop
import Iceoryx.Lib.Refine
import Iceoryx.Lib.Run
import Iceoryx.Hoofs.Loffli
import Iceoryx.Hoofs.LoffliStack
import Iceoryx.Hoofs.LoffliThreads
import Iceoryx.Capro.Message
import Iceoryx.Popo.Ports
import Iceoryx.Lib.Fold
import Iceoryx.Lib.Sum
import Iceoryx.Roudi.FixedPositionContainer
import Iceoryx.Roudi.ServiceRegistry
import Iceoryx.Lib.Rendezvous
import Iceoryx.Roudi.Operations
import Iceoryx.Popo.PortLaws
import Iceoryx.Roudi.ClientServer
import Iceoryx.Lib.Mesh
import Iceoryx.Roudi.PubSub
import Iceoryx.Roudi.ManyToMany
import Iceoryx.Roudi.OneToMany
import Iceoryx.Roudi.RegistryMirror
import Iceoryx.Roudi.ProtocolViolations
import Iceoryx.Hoofs.Convert
import Iceoryx.Hoofs.Memory
import Iceoryx.Hoofs.PointerRepository
import Iceoryx.Hoofs.Serialization
import Iceoryx.Hoofs.SoFi
import Iceoryx.Lib.Hoare
import Iceoryx.Mepoo.ChunkHeader
import Iceoryx.Mepoo.Configuration
import Iceoryx.Mepoo.MemorySizing
import Iceoryx.Popo.Accounting
import Iceoryx.Popo.ConditionVariable
import Iceoryx.Popo.Options
import Iceoryx.Popo.UsedChunkCrash
import Iceoryx.Popo.ZeroCopy
import Iceoryx.Roudi.ProcessManager
import Iceoryx.Runtime.RequestChannel
import Iceoryx.Hoofs.IndexQueue
import Iceoryx.Hoofs.SerialIndexQueue
import Iceoryx.Hoofs.ResizeableLockFreeQueue
import Iceoryx.Hoofs.SerialFiFo
import Iceoryx.Mepoo.ChunkThreads
import Iceoryx.Popo.DistributorSections
import Iceoryx.Roudi.Gateways
import Iceoryx.Roudi.RuntimeMessages
import Iceoryx.Roudi.Ownership
import Iceoryx.Roudi.Acknowledgements
import Iceoryx.Popo.Recycling
import Iceoryx.Hoofs.NamedPipe
import Iceoryx.Popo.BlockingDelivery
import Iceoryx.Popo.Responses
import Iceoryx.Runtime.Registration
import Iceoryx.Mepoo.ChunkLayout
import Iceoryx.Mepoo.PoolRuns
import Iceoryx.Popo.QueueResize
import Iceoryx.Popo.UsedChunkBag
import Iceoryx.Popo.Listener
import Iceoryx.Hoofs.Algorithm
import Iceoryx.Popo.WaitSet
import Iceoryx.Popo.WaitSetDelivery
import Iceoryx.Roudi.InitialOffers
import Iceoryx.Hoofs.RelativePointerData
import Iceoryx.Mepoo.ShmSafeUnmanagedChunk
import Iceoryx.Hoofs.DirectedAcyclicGraph
import Iceoryx.Mepoo.ChunkSelection
import Iceoryx.Mepoo.SegmentManager
import Iceoryx.Roudi.OfferedServices
import Iceoryx.Roudi.IntrospectionLinks
import Iceoryx.Roudi.IntrospectionNews
import Iceoryx.Lib.Words
import Iceoryx.Lib.Buffer
import Iceoryx.Lib.Keyed
import Iceoryx.Lib.Circle
import Iceoryx.Hoofs.Duration
import Iceoryx.Hoofs.FixedString
import Iceoryx.Hoofs.BoundedText
import Iceoryx.Hoofs.FilePath
import Iceoryx.Hoofs.ObjectPool
import Iceoryx.Hoofs.Taco
import Iceoryx.Hoofs.Vector
import Iceoryx.Hoofs.SlotSeq
import Iceoryx.Hoofs.ListRun
import Iceoryx.Hoofs.List
import Iceoryx.Hoofs.ForwardList
import Iceoryx.Gw.GatewayGeneric
import Iceoryx.Roudi.MemoryProvider
import Iceoryx.Roudi.ProviderLifecycle
import Iceoryx.Mepoo.OptimizedConfig
import Iceoryx.Mepoo.SharedPointer
import Iceoryx.Mepoo.TypedMemPool
import Iceoryx.Mepoo.ObjectLifetime
import Iceoryx.Hoofs.CyclicIndex
import Iceoryx.Hoofs.RawObjectPool
import Iceoryx.Hoofs.SortedMerge
import Iceoryx.Hoofs.FiFo
import Iceoryx.Lib.Lifetime
import Iceoryx.Hoofs.StorableFunction
import Iceoryx.Hoofs.FunctionLifetime
import Iceoryx.Lib.BigEndian
import Iceoryx.Gw.Datagram
import Iceoryx.Gw.Forwarding
import Iceoryx.Runtime.ServiceDiscovery
import Iceoryx.Popo.HeldChunks
import Iceoryx.Popo.Samples
import Iceoryx.Lib.Notification
import Iceoryx.Popo.ListenerThreads
import Iceoryx.Lib.Circulation
import Iceoryx.Hoofs.LockFreeQueue
