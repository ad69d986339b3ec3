import Comqtt.Cluster.Message

/-! # Starting and stopping the RPC server

`StartRpcServer` listens on the configured address, creates a gRPC server with
the keepalive policies, registers the relay handlers and serves in the
background. `StopRpcServer` gracefully stops the server the service records.
The server `StartRpcServer` creates is held in a local variable, so the service's
`grpcServer` stays nil and a stop finds nothing to stop.
-/

namespace Comqtt.Cluster

/-- `keepalive.EnforcementPolicy` (durations in milliseconds). -/
structure EnforcementPolicy where
  minTime : Nat
  permitWithoutStream : Bool
  deriving DecidableEq, Repr

/-- `kaep`. -/
def kaep : EnforcementPolicy := { minTime := 5000, permitWithoutStream := true }

/-- `keepalive.ServerParameters` (durations in milliseconds). -/
structure ServerParameters where
  maxConnectionIdle : Nat
  maxConnectionAge : Nat
  maxConnectionAgeGrace : Nat
  time : Nat
  timeout : Nat
  deriving DecidableEq, Repr

/-- `kasp`. -/
def kasp : ServerParameters :=
  { maxConnectionIdle := 15000, maxConnectionAge := 30000, maxConnectionAgeGrace := 5000,
    time := 5000, timeout := 1000 }

/-- A gRPC server of the process: its handle, the address it serves and the
keepalive policies it was created with. -/
structure Server where
  id : Nat
  addr : String
  enforcement : EnforcementPolicy
  params : ServerParameters
  deriving DecidableEq, Repr

/-- The gRPC servers that still serve, and the handle of the next one. -/
structure Servers where
  serving : List Server
  next : Nat
  deriving DecidableEq, Repr

/-- `RpcService`: its agent and the handle of the server it records, if any. -/
structure RpcService where
  agent : Agent
  grpcServer : Option Nat

/-- `NewRpcService`. -/
def newRpcService (a : Agent) : RpcService := { agent := a, grpcServer := none }

/-- `StartRpcServer`. `listen` answers `net.Listen("tcp", addr)`, `some err` on
failure. On success the new server serves; it is kept in a local variable, and
the service comes back as it was. -/
def startRpcServer (listen : String → Option String) (s : RpcService) (rt : Servers) :
    Option String × RpcService × Servers :=
  let addr := Go.joinHostPort s.agent.bindAddr (Go.itoa s.agent.grpcPort)
  match listen addr with
  | some err => (some err, s, rt)
  | none =>
      let grpcServer : Server := { id := rt.next, addr := addr, enforcement := kaep, params := kasp }
      (none, s, { serving := rt.serving ++ [grpcServer], next := rt.next + 1 })

/-- `StopRpcServer`: nothing to stop for a nil service or one without a server;
otherwise the recorded server stops gracefully. -/
def stopRpcServer : Option RpcService → Servers → Servers
  | none, rt => rt
  | some s, rt =>
      match s.grpcServer with
      | none => rt
      | some id => { rt with serving := rt.serving.filter (·.id ≠ id) }

/-- A call on the service: a start, with what `net.Listen` answers, or a stop. -/
inductive ServerOp where
  | start (listen : String → Option String)
  | stop

/-- Whether the call is a start whose listen succeeds. -/
def ServerOp.started (s : RpcService) : ServerOp → Bool
  | .start listen => (listen (Go.joinHostPort s.agent.bindAddr (Go.itoa s.agent.grpcPort))).isNone
  | .stop => false

/-- One call on the service and the process's servers. -/
def serverStep : RpcService × Servers → ServerOp → RpcService × Servers
  | (s, rt), .start listen => (startRpcServer listen s rt).2
  | (s, rt), .stop => (s, stopRpcServer (some s) rt)

/-- A sequence of calls on a new service, in a process with no server yet. -/
def serverRun (a : Agent) (ops : List ServerOp) : RpcService × Servers :=
  ops.foldl serverStep (newRpcService a, { serving := [], next := 0 })

/-- One call on a new service leaves it new, and adds a serving server exactly
when it is a start whose listen succeeds. -/
theorem serverStep_new (a : Agent) (rt : Servers) (op : ServerOp) :
    (serverStep (newRpcService a, rt) op).1 = newRpcService a ∧
      (serverStep (newRpcService a, rt) op).2.serving.length =
        rt.serving.length + if op.started (newRpcService a) then 1 else 0 := by
  cases op with
  | start listen =>
      simp only [serverStep, startRpcServer, ServerOp.started]
      split <;> simp [*]
  | stop => simp [serverStep, stopRpcServer, newRpcService, ServerOp.started]

/-- The run lemma, from any servers of the process. -/
theorem foldl_serverStep_new (a : Agent) (ops : List ServerOp) (rt : Servers) :
    (ops.foldl serverStep (newRpcService a, rt)).1 = newRpcService a ∧
      (ops.foldl serverStep (newRpcService a, rt)).2.serving.length =
        rt.serving.length + ops.countP (ServerOp.started (newRpcService a)) := by
  induction ops generalizing rt with
  | nil => simp
  | cons op ops ih =>
      obtain ⟨same, grown⟩ := serverStep_new a rt op
      have pair : serverStep (newRpcService a, rt) op =
          (newRpcService a, (serverStep (newRpcService a, rt) op).2) := Prod.ext same rfl
      obtain ⟨kept, count⟩ := ih (serverStep (newRpcService a, rt) op).2
      rw [List.foldl_cons, pair]
      refine ⟨kept, ?_⟩
      rw [count, grown, List.countP_cons]
      omega

/-- Over every sequence of starts and stops the service records no server, and
every server a start created still serves. -/
theorem started_servers_keep_serving (a : Agent) (ops : List ServerOp) :
    (serverRun a ops).1 = newRpcService a ∧
      (serverRun a ops).2.serving.length = ops.countP (ServerOp.started (newRpcService a)) := by
  simpa using foldl_serverStep_new a ops { serving := [], next := 0 }

/-- A start that listens, then a stop: the started server still serves. -/
theorem stop_after_start_leaves_server :
    let a : Agent := { localName := "A", bindAddr := "10.0.0.1", grpcPort := 17946, raftPort := 8946 }
    (serverRun a [.start fun _ => none, .stop]).1.grpcServer = none ∧
      (serverRun a [.start fun _ => none, .stop]).2.serving.map Server.id = [0] :=
  ⟨rfl, rfl⟩

end Comqtt.Cluster
