import Comqtt.Go

/-! # Messages and the relay wire schema

`message.Message` is the record an RPC handler puts on the agent's channel. The
four requests are the wire messages of the `Relays` service, one per method, and
every method answers with one `Response`. Byte slices are lists of bytes; a
`uint32` field is a `UInt32`, so the conversions on the way are Go's.
-/

namespace Comqtt.Cluster

/-- `message.Message`. A field a handler leaves out keeps Go's zero value. -/
structure Message where
  type : UInt8
  nodeID : String
  clientID : String := ""
  protocolVersion : UInt8 := 0
  payload : List UInt8 := []
  deriving DecidableEq, Repr

/-- `crpc.PublishRequest`. -/
structure PublishRequest where
  nodeId : String
  clientId : String
  protocolVersion : UInt32
  payload : List UInt8
  deriving DecidableEq, Repr

/-- `crpc.ConnectRequest`. -/
structure ConnectRequest where
  nodeId : String
  clientId : String
  deriving DecidableEq, Repr

/-- `crpc.ApplyRequest`. -/
structure ApplyRequest where
  action : UInt32
  nodeId : String
  filter : List UInt8
  deriving DecidableEq, Repr

/-- `crpc.JoinRequest`. -/
structure JoinRequest where
  nodeId : String
  addr : String
  port : UInt32
  deriving DecidableEq, Repr

/-- A call of one of the four methods of the `Relays` service, with its request. -/
inductive Request where
  | publishPacket (req : PublishRequest)
  | connectNotify (req : ConnectRequest)
  | raftApply (req : ApplyRequest)
  | raftJoin (req : JoinRequest)
  deriving DecidableEq, Repr

/-- `crpc.Response`. -/
structure Response where
  ok : Bool
  deriving DecidableEq, Repr

/-- The message kinds the handlers stamp on what they deliver: `packets.Publish`,
`packets.Connect` and `message.RaftJoin`. The packages that define them are not
part of the modelled sources, so their values are parameters. -/
structure Kinds where
  publish : UInt8
  connect : UInt8
  raftJoin : UInt8

/-- What the relay code reads of its `Agent`: `GetLocalName()` and the
`BindAddr`, `GrpcPort` and `RaftPort` of its configuration (Go `int`s). -/
structure Agent where
  localName : String
  bindAddr : String
  grpcPort : Int
  raftPort : Int

end Comqtt.Cluster
