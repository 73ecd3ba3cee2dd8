import OcorRuntime.Actions.Fsm
import OcorRuntime.Actions.GovernedRuns
import OcorRuntime.Actions.HumanGate
import OcorRuntime.Agent.BudgetRuns
import OcorRuntime.Agent.Dissent
import OcorRuntime.Agent.SandboxBounds
import OcorRuntime.Canonical.NumberLayout
import OcorRuntime.Capabilities.Usage
import OcorRuntime.Commits.Reconciliation
import OcorRuntime.Compiler.Rejections
import OcorRuntime.Compiler.ReleaseGovernance
import OcorRuntime.Emission.Drain
import OcorRuntime.Events.PoisonGate
import OcorRuntime.Identity.ProvisioningRuns
import OcorRuntime.Identity.Registration
import OcorRuntime.Kernel.RefusalLaws
import OcorRuntime.Marking.SchemeLaws
import OcorRuntime.Memory.GuardedMemory
import OcorRuntime.Memory.IndexPool
import OcorRuntime.Memory.Lineage
import OcorRuntime.Memory.MergeLaws
import OcorRuntime.Memory.RenderingLaws
import OcorRuntime.Memory.RestoredService
import OcorRuntime.Memory.TombstoneLaws
import OcorRuntime.Projection.Gateway
import OcorRuntime.Projection.MarkingSafety
import OcorRuntime.Projection.Reconciliation
import OcorRuntime.Safety.BreakGlassRuns
import OcorRuntime.Safety.OutcomeReconciler
import OcorRuntime.Safety.StopFencing
import OcorRuntime.Scenario.SealedRuns
import OcorRuntime.Scenario.Sensitivity
import OcorRuntime.Security.ActorChain
import OcorRuntime.Security.Malleability
import OcorRuntime.Security.PolicyReferences
import OcorRuntime.Security.PolicyRuns
import OcorRuntime.Security.WorkloadIdentity
import OcorRuntime.Store.Replays
import OcorRuntime.Temporal.EffectRuns
import OcorRuntime.Temporal.LeaseRefinement
