import RemoteHost.Evaluation

/-!
# Calls on proxies

A call either runs now or stays pending. A pending call is resolved by one program for the whole
chain, and a pending proxy is materialized by one program that stores its object.
-/

namespace RemoteHost

variable {F : Type}

inductive Call where
  | resolved (outcome : Outcome)
  | pending (call : PendingCall)

def refuseReleased (receiver : Proxy) : Job F Unit :=
  match receiver with
  | .pending _ => pure ()
  | .resolved key => do
    if ← Job.isReleased key then throw (.usage (.releasedHandle key))

def call (s : Settings) (receiver : Proxy) (op : Operation) (step : Option LineageId) :
    Job F Call := do
  refuseReleased receiver
  match dispatch s receiver op step with
  | .error fault => throw (.usage fault)
  | .ok (.eager source lineage) => do
    let outcome ← evaluate s source op.shape lineage
    pure (.resolved outcome)
  | .ok (.deferred pending) => pure (.pending pending)

/-- Resolves a call. Without a step this needs a resolved receiver, and the program then runs in a
lineage of its own. -/
def PendingCall.resolve (s : Settings) (pending : PendingCall) (step : Option LineageId) :
    Job F Outcome := do
  match step with
  | some lineage => evaluate s pending.source pending.shape lineage
  | none =>
    if pending.onHandle then do
      let lineage ← Job.newLineage ""
      evaluate s pending.source pending.shape lineage
    else throw (.usage (.missingStep pending.suffix))

def materialize (s : Settings) (object : Proxy) (lineage : LineageId) : Job F Proxy := do
  match object with
  | .resolved key => pure (.resolved key)
  | .pending chain =>
    match ← evaluate s chain.source .handle lineage with
    | .handle key => pure (.resolved key)
    | other => throw (.transport (.unexpectedKind .handle other.kind))

end RemoteHost
