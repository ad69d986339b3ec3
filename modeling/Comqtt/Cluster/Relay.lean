import Comqtt.Cluster.Pool

/-! # The relay operations

The four unicast relays share one shape: get the peer's client, log when that
fails, otherwise send one request under a deadline and log when the call fails.
The three broadcasts share another: take one `Members()` snapshot and make one
unicast relay toward every entry not named like the local node, in order.

Three of the unicast relays log `getClient`'s failure as "get grpc client" with
the error alone; `ConnectNotifyToNode` returns without a line.

A run is any sequence of the operations a caller may invoke on the manager.
-/

namespace Comqtt.Cluster

/-- An RPC toward `nodeId` on `client`: the world answers, the call is recorded. -/
def ClientManager.call (w : World) (nodeId : String) (client : Client) (req : Request)
    (timeout : Nat) (c : ClientManager) : Option String × ClientManager :=
  let err := w.call c.now client.conn req timeout
  (err, c.emit [.call nodeId client.conn req timeout err])

/-- Record log lines. -/
def ClientManager.logs (c : ClientManager) (lines : List Line) : ClientManager :=
  c.emit (lines.map .log)

/-- `log.Error(msg, kv...)`. -/
def errorLine (msg : String) (fields : List (String × String)) : Line :=
  { level := .error, msg := msg, fields := fields }

/-- Modelled from the spec: `OnConnectPacketLog`, not part of the modelled sources.
It records a connect packet crossing the node; successes are not logged at info
level, so it is a debug line. -/
def onConnectPacketLog (direction nodeId clientId : String) : Line :=
  { level := .debug, msg := "connect packet",
    fields := [("direction", direction), ("node", nodeId), ("cid", clientId)] }

/-- Modelled from the spec: `OnApplyLog`, not part of the modelled sources, takes
what `RelayRaftApply` passes it. A failure path emits one structured event with
the operation, the target node and the underlying error. -/
def onApplyLog (nodeId origin : String) (type : UInt8) (payload : List UInt8) (msg err : String) :
    Line :=
  errorLine msg [("to", nodeId), ("from", origin), ("type", toString type.toNat),
    ("payload", toString payload), ("error", err)]

/-- Modelled from the spec: `OnJoinLog`, not part of the modelled sources, like
`onApplyLog`. -/
def onJoinLog (nodeId addr msg err : String) : Line :=
  errorLine msg [("to", nodeId), ("addr", addr), ("error", err)]

/-- The shape of the unicast relays: get the client for `nodeId` and log
`onGetError err` when that fails; otherwise log `before`, send `req` and log
`onCallError err` when the call fails. -/
def relay (w : World) (nodeId : String) (onGetError : String → List Line)
    (before : List Line) (req : Request) (timeout : Nat) (onCallError : String → List Line)
    (c : ClientManager) : ClientManager :=
  match getClient w nodeId c with
  | (.error err, c) => c.logs (onGetError err)
  | (.ok client, c) =>
      match (c.logs before).call w nodeId client req timeout with
      | (some err, c) => c.logs (onCallError err)
      | (none, c) => c

/-- The line the relays log when `getClient` fails. -/
def getGrpcClientError (err : String) : List Line :=
  [errorLine "get grpc client" [("error", err)]]

/-- `RelayPublishPacket`. -/
def relayPublishPacket (w : World) (nodeId : String) (msg : Message) :
    ClientManager → ClientManager :=
  relay w nodeId getGrpcClientError []
    (.publishPacket
      { nodeId := msg.nodeID, clientId := msg.clientID,
        protocolVersion := msg.protocolVersion.toUInt32, payload := msg.payload })
    reqTimeout
    (fun err => [errorLine "relay publish packet"
      [("error", err), ("to", nodeId), ("cid", msg.clientID)]])

/-- `ConnectNotifyToNode`. It returns silently when `getClient` fails, and logs the
outbound connect packet before the call. -/
def connectNotifyToNode (a : Agent) (w : World) (nodeId clientId : String) :
    ClientManager → ClientManager :=
  relay w nodeId (fun _ => []) [onConnectPacketLog "outbound" nodeId clientId]
    (.connectNotify { nodeId := a.localName, clientId := clientId })
    reqTimeout
    (fun err => [errorLine "connection notification"
      [("error", err), ("to", nodeId), ("cid", clientId)]])

/-- `RelayRaftApply`, under ten times the deadline. -/
def relayRaftApply (w : World) (nodeId : String) (msg : Message) :
    ClientManager → ClientManager :=
  relay w nodeId getGrpcClientError []
    (.raftApply { action := msg.type.toUInt32, nodeId := msg.nodeID, filter := msg.payload })
    (10 * reqTimeout)
    (fun err => [onApplyLog nodeId msg.nodeID msg.type msg.payload "to leader do apply" err])

/-- `RelayRaftJoin`. -/
def relayRaftJoin (a : Agent) (w : World) (nodeId : String) : ClientManager → ClientManager :=
  relay w nodeId getGrpcClientError []
    (.raftJoin
      { nodeId := a.localName, addr := a.bindAddr, port := Go.uint32OfInt a.raftPort })
    reqTimeout
    (fun err => [onJoinLog nodeId (a.bindAddr ++ ":" ++ Go.itoa a.raftPort) "raft join" err])

/-- The loop of the broadcasts: one `Members()` snapshot, then `attempt` toward
every entry whose name differs from the local node's, in snapshot order. -/
def toOthers (a : Agent) (w : World) (attempt : String → ClientManager → ClientManager)
    (c : ClientManager) : ClientManager :=
  let ms := w.members c.now
  ms.foldl (fun c m => if m.name = a.localName then c else attempt m.name c)
    (c.emit [.members ms])

/-- `ConnectNotifyToOthers`. -/
def connectNotifyToOthers (a : Agent) (w : World) (msg : Message) :
    ClientManager → ClientManager :=
  toOthers a w (fun nodeId => connectNotifyToNode a w nodeId msg.clientID)

/-- `RaftApplyToOthers`. -/
def raftApplyToOthers (a : Agent) (w : World) (msg : Message) :
    ClientManager → ClientManager :=
  toOthers a w (fun nodeId => relayRaftApply w nodeId msg)

/-- `RaftJoinToOthers`. -/
def raftJoinToOthers (a : Agent) (w : World) : ClientManager → ClientManager :=
  toOthers a w (relayRaftJoin a w)

/-! ## What a relay records -/

/-- Everything a unicast relay can do: one `getClient` call, then either the log
lines of its failure, or the lines before the call, the call with its request,
and the log lines of the call's failure. -/
theorem relay_trace (w : World) (nodeId : String) (onGetError : String → List Line)
    (before : List Line) (req : Request) (timeout : Nat) (onCallError : String → List Line)
    (c : ClientManager) :
    ∃ rest, (relay w nodeId onGetError before req timeout onCallError c).trace =
        c.trace ++ .getClient nodeId (resolve w nodeId c) :: rest ∧
      ((∃ err, (resolve w nodeId c).result = .error err ∧ rest = (onGetError err).map .log) ∨
        (∃ client, (resolve w nodeId c).result = .ok client ∧
          rest = before.map .log ++ [.call nodeId client.conn req timeout none]) ∨
        (∃ client err, (resolve w nodeId c).result = .ok client ∧
          rest = before.map .log ++ .call nodeId client.conn req timeout (some err) ::
            (onCallError err).map .log)) := by
  unfold relay
  split
  case h_1 err c' h =>
      obtain ⟨hr, rfl⟩ := Prod.mk.inj h
      exact ⟨_, by simp [ClientManager.logs], .inl ⟨err, by simpa using hr, rfl⟩⟩
  case h_2 client c' h =>
      obtain ⟨hr, rfl⟩ := Prod.mk.inj h
      split
      case h_1 err c'' hc =>
          obtain ⟨he, rfl⟩ := Prod.mk.inj hc
          exact ⟨_, by rw [he]; simp [ClientManager.logs],
            .inr (.inr ⟨client, err, hr, rfl⟩)⟩
      case h_2 c'' hc =>
          obtain ⟨he, rfl⟩ := Prod.mk.inj hc
          exact ⟨_, by rw [he]; simp [ClientManager.logs], .inr (.inl ⟨client, hr, rfl⟩)⟩

/-! ## What the relays log when `getClient` fails -/

/-- Toward a node the directory does not know, `ConnectNotifyToNode` records the
failed `getClient` and no log line, and `RelayPublishPacket` logs the failure with
the error alone, naming neither the node nor the client. -/
theorem relays_unknown_node_logging :
    let a : Agent := { localName := "A", bindAddr := "10.0.0.1", grpcPort := 17946, raftPort := 8946 }
    let w : World := { members := fun _ => [], getNodeMember := fun _ _ => none,
                       dial := fun _ _ _ => none, call := fun _ _ _ _ => none }
    (connectNotifyToNode a w "B" "c1" .empty).trace = [.getClient "B" .notFound] ∧
    (relayPublishPacket w "B" { type := 3, nodeID := "A", clientID := "c1" } .empty).trace =
      [.getClient "B" .notFound, .log (errorLine "get grpc client" [("error", "node not found")])] :=
  ⟨rfl, rfl⟩

/-! ## Runs -/

/-- An operation a caller may invoke on the manager. -/
inductive Op where
  | getClient (nodeId : String)
  | removeGrpcClient (nodeId : String)
  | relayPublishPacket (nodeId : String) (msg : Message)
  | connectNotifyToNode (nodeId clientId : String)
  | connectNotifyToOthers (msg : Message)
  | relayRaftApply (nodeId : String) (msg : Message)
  | raftApplyToOthers (msg : Message)
  | relayRaftJoin (nodeId : String)
  | raftJoinToOthers
  deriving DecidableEq, Repr

/-- One operation, run to completion. -/
def step (a : Agent) (w : World) (c : ClientManager) : Op → ClientManager
  | .getClient nodeId => (getClient w nodeId c).2
  | .removeGrpcClient nodeId => removeGrpcClient nodeId c
  | .relayPublishPacket nodeId msg => relayPublishPacket w nodeId msg c
  | .connectNotifyToNode nodeId clientId => connectNotifyToNode a w nodeId clientId c
  | .connectNotifyToOthers msg => connectNotifyToOthers a w msg c
  | .relayRaftApply nodeId msg => relayRaftApply w nodeId msg c
  | .raftApplyToOthers msg => raftApplyToOthers a w msg c
  | .relayRaftJoin nodeId => relayRaftJoin a w nodeId c
  | .raftJoinToOthers => raftJoinToOthers a w c

/-- A run of operations from `NewClientManager`. -/
def run (a : Agent) (w : World) (ops : List Op) : ClientManager :=
  ops.foldl (step a w) ClientManager.empty

/-- The states the manager reaches from `NewClientManager`. -/
inductive Reachable (a : Agent) (w : World) : ClientManager → Prop
  | empty : Reachable a w ClientManager.empty
  | step {c : ClientManager} (op : Op) : Reachable a w c → Reachable a w (step a w c op)

theorem reachable_run (a : Agent) (w : World) (ops : List Op) : Reachable a w (run a w ops) := by
  suffices ∀ c, Reachable a w c → Reachable a w (ops.foldl (step a w) c) from
    this _ .empty
  induction ops with
  | nil => exact fun _ h => h
  | cons op ops ih => exact fun c h => ih _ (.step op h)

end Comqtt.Cluster
