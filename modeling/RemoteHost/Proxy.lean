import RemoteHost.Program.Source

/-!
# Proxies

A proxy stands for an object inside the host. It is resolved when the object is stored under a
known key; otherwise it is pending and carries the expression that produces the object. Operations
on pending proxies make the expression longer, so that a whole chain runs in one program.
-/

namespace RemoteHost

/-- An expression of the host and the number of links it is made of. -/
structure Chain where
  source : String
  links : Nat
  deriving DecidableEq, Repr

inductive Proxy where
  | resolved (key : String)
  | pending (chain : Chain)
  deriving DecidableEq, Repr

namespace Proxy

/-- A proxy for the value of an expression, which counts as one link. -/
def root (source : String) : Proxy := .pending ⟨source, 1⟩

def key? : Proxy → Option String
  | .resolved key => some key
  | .pending _ => none

def isResolved : Proxy → Bool
  | .resolved _ => true
  | .pending _ => false

def links : Proxy → Nat
  | .resolved _ => 0
  | .pending chain => chain.links

def source (s : Settings) : Proxy → String
  | .resolved key => Program.handleRef s key
  | .pending chain => chain.source

end Proxy

/-- What is appended to a receiver, and what that returns. -/
structure Operation where
  suffix : String
  shape : ResultShape
  deriving DecidableEq, Repr

namespace Operation

/-- The call of a method with arguments that are literals already. -/
def method (name : String) (arguments : List String) (shape : ResultShape := .value) : Operation :=
  ⟨"." ++ name ++ "(" ++ ", ".intercalate arguments ++ ")", shape⟩

def member (name : String) (shape : ResultShape := .value) : Operation :=
  ⟨"." ++ name, shape⟩

end Operation

structure PendingCall where
  receiver : String
  suffix : String
  shape : ResultShape
  links : Nat
  onHandle : Bool
  deriving DecidableEq, Repr

namespace PendingCall

/-- The expression that produces the receiver and applies the operation at once. -/
def source (call : PendingCall) : String := call.receiver ++ call.suffix

def proxy (call : PendingCall) : Proxy := .pending ⟨call.source, call.links⟩

end PendingCall

/-- How an operation is run: by evaluating an expression now, in a step, or later as part of a
chain. -/
inductive Dispatch (σ : Type) where
  | eager (source : String) (step : σ)
  | deferred (call : PendingCall)

/-- The pending call of an operation, whatever its length. -/
def deferredCall (s : Settings) (receiver : Proxy) (op : Operation) : PendingCall :=
  ⟨receiver.source s, op.suffix, op.shape, receiver.links + 1, receiver.isResolved⟩

/-- Defers an operation. The chain may not exceed the limit. -/
def defer (s : Settings) (receiver : Proxy) (op : Operation) : Except UsageFault PendingCall :=
  let call := deferredCall s receiver op
  match s.maxChainLength with
  | none => .ok call
  | some most => if most < call.links then .error (.chainTooLong call.links most) else .ok call

/-- Decides how an operation is run. It runs now only on a resolved receiver and with a step. -/
def dispatch {σ : Type} (s : Settings) (receiver : Proxy) (op : Operation) (step : Option σ) :
    Except UsageFault (Dispatch σ) :=
  match receiver, step with
  | .resolved key, some step => .ok (.eager (Program.handleRef s key ++ op.suffix) step)
  | _, _ => (defer s receiver op).map .deferred

end RemoteHost
