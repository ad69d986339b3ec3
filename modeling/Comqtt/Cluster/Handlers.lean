import Comqtt.Cluster.Message

/-! # The RPC handlers

Each handler of `RpcService` lifts its request into a `Message`, sends it on the
agent's `grpcMsgCh` and answers `{Ok: true}` with a nil error. The channel is a
FIFO queue and a send appends to it; a send on a full channel blocks the handler
until the router consumes, so a handler answers only once its message is queued.
-/

namespace Comqtt.Cluster.RpcService

/-- What every handler does with the message it built: send it on `grpcMsgCh`,
then answer `{Ok: true}` with a nil error. -/
def deliver (msg : Message) (grpcMsgCh : List Message) : Except String Response × List Message :=
  (.ok { ok := true }, grpcMsgCh ++ [msg])

/-- `PublishPacket`. -/
def publishPacket (kinds : Kinds) (req : PublishRequest) :
    List Message → Except String Response × List Message :=
  deliver { type := kinds.publish, nodeID := req.nodeId, clientID := req.clientId,
            protocolVersion := req.protocolVersion.toUInt8, payload := req.payload }

/-- `ConnectNotify`. -/
def connectNotify (kinds : Kinds) (req : ConnectRequest) :
    List Message → Except String Response × List Message :=
  deliver { type := kinds.connect, nodeID := req.nodeId, clientID := req.clientId }

/-- `RaftApply`. Unlike the other handlers it takes the kind from the request,
`uint8(req.Action)`. -/
def raftApply (req : ApplyRequest) : List Message → Except String Response × List Message :=
  deliver { type := req.action.toUInt8, nodeID := req.nodeId, payload := req.filter }

/-- `RaftJoin`. -/
def raftJoin (kinds : Kinds) (req : JoinRequest) :
    List Message → Except String Response × List Message :=
  let addr := Go.joinHostPort req.addr (Go.itoa (Go.intOfUint32 req.port))
  deliver { type := kinds.raftJoin, nodeID := req.nodeId, payload := addr.toUTF8.toList }

/-- The service's dispatch: a request goes to the handler of its method. -/
def serve (kinds : Kinds) : Request → List Message → Except String Response × List Message
  | .publishPacket req => publishPacket kinds req
  | .connectNotify req => connectNotify kinds req
  | .raftApply req => raftApply req
  | .raftJoin req => raftJoin kinds req

/-- Every handler queues exactly one message and answers `{Ok: true}`; the kind
of the message is fixed by the method, except for `RaftApply`, where it is the
request's `Action` reduced to a byte: two `RaftApply` requests whose actions agree
modulo 256 deliver the same kind, and an action `uint32(t)` delivers the kind `t`,
whatever byte `t` is. -/
theorem kind_of_method (kinds : Kinds) :
    (∀ (req : PublishRequest) ch, ∃ m, serve kinds (.publishPacket req) ch =
        (.ok { ok := true }, ch ++ [m]) ∧ m.type = kinds.publish) ∧
    (∀ (req : ConnectRequest) ch, ∃ m, serve kinds (.connectNotify req) ch =
        (.ok { ok := true }, ch ++ [m]) ∧ m.type = kinds.connect) ∧
    (∀ (req : JoinRequest) ch, ∃ m, serve kinds (.raftJoin req) ch =
        (.ok { ok := true }, ch ++ [m]) ∧ m.type = kinds.raftJoin) ∧
    (∀ (req : ApplyRequest) ch, ∃ m, serve kinds (.raftApply req) ch =
        (.ok { ok := true }, ch ++ [m]) ∧ m.type = req.action.toUInt8) ∧
    (∀ (t : UInt8) (req : ApplyRequest) ch, req.action = t.toUInt32 → ∃ m,
        serve kinds (.raftApply req) ch = (.ok { ok := true }, ch ++ [m]) ∧ m.type = t) :=
  ⟨fun _ _ => ⟨_, rfl, rfl⟩, fun _ _ => ⟨_, rfl, rfl⟩, fun _ _ => ⟨_, rfl, rfl⟩,
    fun _ _ => ⟨_, rfl, rfl⟩, fun t _ _ ht => ⟨_, rfl, by simp [ht]⟩⟩

/-- Two `RaftApply` requests that differ only in `Action` deliver messages of
different kinds. -/
theorem raftApply_kind_varies :
    (raftApply { action := 0, nodeId := "A", filter := [] } []).2.map Message.type ≠
      (raftApply { action := 1, nodeId := "A", filter := [] } []).2.map Message.type := by
  decide

end Comqtt.Cluster.RpcService
