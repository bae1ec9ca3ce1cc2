import QuantumLlm.Runtime.ActiveExpert.Attribution
import QuantumLlm.Runtime.Gather.Completion
import QuantumLlm.Runtime.Governor
import QuantumLlm.Runtime.Executor.AllOrNothing
import QuantumLlm.Runtime.RouteCensus.Saves
import QuantumLlm.Runtime.Executor.Parking
import QuantumLlm.Runtime.ExpertStore.Batches
import QuantumLlm.Runtime.Provider.Snapshots
import QuantumLlm.Server.Conservation
import QuantumLlm.Server.Durable.Index
import QuantumLlm.Core.Json.Canonical
import QuantumLlm.Runtime.ExpertDirectory
import QuantumLlm.Runtime.Mtp.Commit
import QuantumLlm.Runtime.Slots.Conservation
import QuantumLlm.ExpertPack.ReclaimSafety
import QuantumLlm.Runtime.ActiveExpert.Deadlines
import QuantumLlm.Runtime.ActiveExpert.Telemetry
import QuantumLlm.Runtime.Cache.Priorities
import QuantumLlm.Runtime.Cache.References
import QuantumLlm.Runtime.Cache.Trim
import QuantumLlm.Runtime.RouteCensus.WarmSet
import QuantumLlm.Runtime.SamplingTolerance
import QuantumLlm.Runtime.Scheduler.Batches
import QuantumLlm.Runtime.Cache.Displacement
import QuantumLlm.Runtime.Cache.Runs
import QuantumLlm.Runtime.Program.Optimal
import QuantumLlm.ExpertPack.Safetensors
import QuantumLlm.Runtime.Catalog.Gatherable
import QuantumLlm.Server.Text.TokenDecoder
import QuantumLlm.ExpertPack.MtpUpgraded
import QuantumLlm.Runtime.Worker.PrefillPaths
import QuantumLlm.ExpertPack.ActivationRows
import QuantumLlm.ExpertPack.DenseAgreement
import QuantumLlm.Server.Text.ArtifactCodec
import QuantumLlm.Lib.Fips180
import QuantumLlm.Lib.Ring
import QuantumLlm.Runtime.CpuExecutors
import QuantumLlm.Runtime.Hasher
import QuantumLlm.Runtime.HybridDispatch
import QuantumLlm.Lib.ByteLanes
import QuantumLlm.Runtime.HostPools
import QuantumLlm.Runtime.PackedDot
