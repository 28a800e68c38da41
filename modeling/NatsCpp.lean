import NatsCpp.BatchResults
import NatsCpp.CMemory
import NatsCpp.ConfigCalls
import NatsCpp.ConnectCall
import NatsCpp.ConnectionEnds
import NatsCpp.ConnectionEvents
import NatsCpp.ConnectionHolding
import NatsCpp.ConnectionModel
import NatsCpp.ConnectionOptions
import NatsCpp.ConnectionProgress
import NatsCpp.ConnectionRegistry
import NatsCpp.ConnectionSteps
import NatsCpp.ConnectionUsable
import NatsCpp.Contracts
import NatsCpp.Coroutines
import NatsCpp.EquivalentOptions
import NatsCpp.Errors
import NatsCpp.EventDispatch
import NatsCpp.FutureAwaitable
import NatsCpp.HandleOwnership
import NatsCpp.HandlePrograms
import NatsCpp.KvConfig
import NatsCpp.Machine
import NatsCpp.MessageTrace
import NatsCpp.NativeCalls
import NatsCpp.NativeHandles
import NatsCpp.NativeResults
import NatsCpp.NestedRelease
import NatsCpp.OnCompleteCalls
import NatsCpp.OwningCalls
import NatsCpp.OwningWrappers
import NatsCpp.PairMoves
import NatsCpp.PayloadLength
import NatsCpp.RegisterAsync
import NatsCpp.RegistryKeys
import NatsCpp.RequestAsync
import NatsCpp.ResultCopies
import NatsCpp.SecurityOptions
import NatsCpp.SharedHeap
import NatsCpp.SharedMember
import NatsCpp.StoreLifetimes
import NatsCpp.StringPayload
import NatsCpp.SubscriptionClosing
import NatsCpp.SubscriptionCompletions
import NatsCpp.SubscriptionCustody
import NatsCpp.SubscriptionDelivery
import NatsCpp.SubscriptionEnds
import NatsCpp.SubscriptionHolding
import NatsCpp.SubscriptionInstalls
import NatsCpp.SubscriptionModel
import NatsCpp.SubscriptionPending
import NatsCpp.SubscriptionRegistry
import NatsCpp.SubscriptionRunning
import NatsCpp.SubscriptionSteps
import NatsCpp.TraceContext
