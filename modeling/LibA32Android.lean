import LibA32Android.Memory.GuestMemory
import LibA32Android.Memory.Mapped
import LibA32Android.Memory.HostPages
import LibA32Android.Memory.PageOperations
import LibA32Android.Memory.PageStore
import LibA32Android.Memory.LinearBackend
import LibA32Android.Elf.Bytes
import LibA32Android.Elf.LoadPlan
import LibA32Android.Elf.PlanShape
import LibA32Android.Elf.WellFormedImage
import LibA32Android.Elf.CheckedPlanner
import LibA32Android.Memory.Transaction
import LibA32Android.Memory.HostCalls
import LibA32Android.Elf.Loader
import LibA32Android.Elf.BiasedPlan
import LibA32Android.Elf.LoadedImage
import LibA32Android.Elf.LoadEffect
import LibA32Android.Elf.Relro
import LibA32Android.Memory.GuestVaAllocator
import LibA32Android.Memory.FirstFit
import LibA32Android.Elf.DynamicPlacement
import LibA32Android.Elf.LoadFailures
import LibA32Android.Elf.RelroLoaded
import LibA32Android.Elf.LinkerMetadata
import LibA32Android.Elf.DynamicOrder
import LibA32Android.Elf.LoadedDynamic
import LibA32Android.Elf.LinkerStrings
import LibA32Android.Elf.StringScan
import LibA32Android.Elf.DependencyResolver
import LibA32Android.Elf.DependencyLoader
import LibA32Android.Elf.Lifecycle
import LibA32Android.Elf.InitOrder
import LibA32Android.Elf.MetadataConsumers
import LibA32Android.Elf.LinkMap
import LibA32Android.Elf.ProviderLog
import LibA32Android.Elf.GraphRun
import LibA32Android.Elf.GraphInvariant
import LibA32Android.Elf.LinkMapCheck
import LibA32Android.Elf.GraphTransaction
import LibA32Android.Elf.GraphCalls
import LibA32Android.Elf.LeakReport
import LibA32Android.Elf.ResourceCeilings
import LibA32Android.Elf.GraphShape
import LibA32Android.Elf.LinkMapRuns
import LibA32Android.Elf.SymbolIndex
import LibA32Android.Elf.SymbolLookup
import LibA32Android.Elf.GraphScope
import LibA32Android.Elf.HashLookup
import LibA32Android.Elf.StableLookup
import LibA32Android.Elf.LookupCeilings
import LibA32Android.Elf.BuiltIndex
import LibA32Android.Elf.IndexedLookup
import LibA32Android.Elf.GnuSymbolCount
import LibA32Android.Elf.VersionAgreement
import LibA32Android.Elf.ConservativeAppend
import LibA32Android.Elf.Relocation
import LibA32Android.Elf.RelocationApply
import LibA32Android.Elf.RelocationPrepared
import LibA32Android.Elf.RelocationTransaction
import LibA32Android.Elf.RelocationEffect
import LibA32Android.Elf.CombinedRelocation
import LibA32Android.Cpu.A32Cpu
import LibA32Android.Runtime.ServiceDispatch
import LibA32Android.Runtime.ServiceTransparency
import LibA32Android.Runtime.ServiceBounds
import LibA32Android.Memory.MemoryProgram
import LibA32Android.Cpu.Callbacks
import LibA32Android.Cpu.LoadStore
import LibA32Android.Runtime.DispatchSimulation
import LibA32Android.Compat.AndroidLogWrite
import LibA32Android.Runtime.GuestIsolation
import LibA32Android.Runtime.ServiceInvariant
import LibA32Android.Runtime.ServiceRegistry
import LibA32Android.Compat.LogRuns
import LibA32Android.Memory.Preservation
import LibA32Android.Elf.InitExecution
import LibA32Android.Elf.CallPreservation
import LibA32Android.Elf.Residency
import LibA32Android.Elf.EdgeOrigin
import LibA32Android.Elf.DependencyProviders
import LibA32Android.Compat.PlatformProvider
import LibA32Android.Elf.LoadCeilings
import LibA32Android.Elf.LookupSoundness
import LibA32Android.Elf.RelocationOrder
import LibA32Android.Elf.MetadataAcceptance
import LibA32Android.Runtime.Session
