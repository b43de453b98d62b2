import CodeFabric.Command.Pages
import CodeFabric.Command.Ingress
import CodeFabric.Identity.Canonical
import CodeFabric.Identity.PublicId
import CodeFabric.Identity.WorkspacePath
import CodeFabric.Budget.Limits
import CodeFabric.Activation.CrashPoints
import CodeFabric.Derived.Gaps
import CodeFabric.Derived.ControlDependence
import CodeFabric.Derived.Invalidation
import CodeFabric.Query.Fairness
import CodeFabric.Query.Replays
import CodeFabric.Result.Cleanup
import CodeFabric.Result.CrashSafety
import CodeFabric.Result.Reading
import CodeFabric.Ipc.Framing
import CodeFabric.Work.Scheduler
import CodeFabric.Freshness.Verdicts
import CodeFabric.Session.Authority
import CodeFabric.Store.Writer
