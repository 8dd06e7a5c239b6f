import NativeChannel.Library.BlockHeap
import NativeChannel.Library.ByteMemory
import NativeChannel.Library.Counts
import NativeChannel.Library.Exchange
import NativeChannel.Library.Quiescence
import NativeChannel.Library.Registry
import NativeChannel.Library.Runs
import NativeChannel.Library.SignedBytes
import NativeChannel.Library.Simulation
import NativeChannel.Source.ConcurrentChannel
import NativeChannel.Source.ConcurrentMessenger
import NativeChannel.Source.DartApiDl
import NativeChannel.Source.Finalizer
import NativeChannel.Source.FinalizerSteps
import NativeChannel.Source.HandlerLookup
import NativeChannel.Source.JniHelper
import NativeChannel.Source.MessageHandlers
import NativeChannel.Source.MethodChannel
import NativeChannel.Source.ReplyResources
import NativeChannel.Source.RequestPayloads
import NativeChannel.Source.SynchronousMessenger
import NativeChannel.Source.WorkerPool
import NativeChannel.Source.Wrapper
import NativeChannel.Proofs.ApiInit
import NativeChannel.Proofs.ApiPointers
import NativeChannel.Proofs.ChannelIds
import NativeChannel.Proofs.Components
import NativeChannel.Proofs.ConcurrentCalls
import NativeChannel.Proofs.Conservation
import NativeChannel.Proofs.DeletedOnce
import NativeChannel.Proofs.EraseRace
import NativeChannel.Proofs.Exchanges
import NativeChannel.Proofs.Framing
import NativeChannel.Proofs.FuturesOnce
import NativeChannel.Proofs.LocalCalls
import NativeChannel.Proofs.LocalReferences
import NativeChannel.Proofs.LookedUpOnce
import NativeChannel.Proofs.OpenFutures
import NativeChannel.Proofs.Outcome
import NativeChannel.Proofs.PayloadPlaces
import NativeChannel.Proofs.PayloadsArrive
import NativeChannel.Proofs.PayloadsOwed
import NativeChannel.Proofs.PendingExceptions
import NativeChannel.Proofs.PoolDrains
import NativeChannel.Proofs.ProcessInvariants
import NativeChannel.Proofs.Reclaimed
import NativeChannel.Proofs.Registration
import NativeChannel.Proofs.ReleaseSteps
import NativeChannel.Proofs.ReplyLeaks
import NativeChannel.Proofs.ReplyOwnership
import NativeChannel.Proofs.ReplyRouting
import NativeChannel.Proofs.RequestAnswered
import NativeChannel.Proofs.ScopeBalance
import NativeChannel.Proofs.ServedInOrder
import NativeChannel.Proofs.SingleReply
import NativeChannel.Proofs.TypedDataViews
import NativeChannel.Proofs.ViewLifetime
import NativeChannel.Proofs.ViewsHeld
import NativeChannel.Proofs.Wakeup
import NativeChannel.Proofs.WorkerPops
import NativeChannel.Proofs.WrappersByValue
