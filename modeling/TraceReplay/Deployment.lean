import TraceReplay.Function
import TraceReplay.Notice

/-!
# Deployment

Makes the functions of a trace invocable and fills in their endpoints.
-/

namespace TraceReplay

/-- From the configuration, the functions and the path of the platform manifest to
the deployed functions; a failure makes the experiment impossible. -/
structure Deployer where
  deploy : Configuration → List Function → String →
    List Notice × Except ReplayError (List Function)

/-- The endpoint of a function that runs already, by its name if it has none. -/
def Function.withEndpoint (f : Function) : Function :=
  if f.endpoint.isEmpty then { f with endpoint := f.name ++ ".default.svc.cluster.local" } else f

/-- For functions that already run on the target. -/
def Deployer.preDeployed : Deployer where
  deploy _ functions _ := ([.preDeployed functions.length], .ok (functions.map (·.withEndpoint)))

end TraceReplay
