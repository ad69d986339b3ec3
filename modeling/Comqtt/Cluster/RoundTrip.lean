import Comqtt.Cluster.Relay
import Comqtt.Cluster.Handlers

/-! # Relay requests round-trip through the handlers

A relay builds its request from the message it relays, or from the local
configuration; the peer's handler lifts it back into a `Message`. The widening
`uint8` to `uint32` and back, and `int` to `uint32` and back for a port in range,
lose nothing, so every field comes back as it left.
-/

namespace Comqtt.Cluster

open RpcService

/-- The requests of the RPCs among some events, in order. -/
def sent (es : List Event) : List Request :=
  es.filterMap fun
    | .call _ _ req _ _ => some req
    | _ => none

@[simp] theorem sent_nil : sent [] = [] := rfl

@[simp] theorem sent_append (xs ys : List Event) : sent (xs ++ ys) = sent xs ++ sent ys :=
  List.filterMap_append _ _ _

@[simp] theorem sent_logs (lines : List Line) : sent (lines.map .log) = [] := by
  simp [sent, List.filterMap_map, Function.comp_def]

@[simp] theorem sent_cons_getClient (n : String) (res : Resolution) (es : List Event) :
    sent (.getClient n res :: es) = sent es := rfl

@[simp] theorem sent_cons_call (n : String) (conn : Nat) (req : Request) (timeout : Nat)
    (err : Option String) (es : List Event) :
    sent (.call n conn req timeout err :: es) = req :: sent es := rfl

/-- A unicast relay sends no request other than the one it builds, and sends that
one exactly once when `getClient` returns a client. -/
theorem relay_sent (w : World) (n : String) (onGetError : String → List Line)
    (before : List Line) (req : Request) (timeout : Nat) (onCallError : String → List Line)
    (c : ClientManager) {es : List Event}
    (h : (relay w n onGetError before req timeout onCallError c).trace = c.trace ++ es) :
    (∀ r ∈ sent es, r = req) ∧ ∀ sc, (getClient w n c).1 = .ok sc → sent es = [req] := by
  obtain ⟨rest, htr, shape⟩ := relay_trace w n onGetError before req timeout onCallError c
  rw [htr, List.append_cancel_left_eq] at h
  subst h
  rcases shape with ⟨err, failed, rfl⟩ | ⟨client, -, rfl⟩ | ⟨client, err, -, rfl⟩
  · simp [failed]
  · simp
  · simp

theorem relays_round_trip (kinds : Kinds) (a : Agent) (w : World) (c : ClientManager)
    (n clientId : String) (m : Message) (port : 0 ≤ a.raftPort ∧ a.raftPort < 2 ^ 32) :
    (∀ es, (relayPublishPacket w n m c).trace = c.trace ++ es →
      (∀ sc, (getClient w n c).1 = .ok sc → (sent es).length = 1) ∧ ∀ req ∈ sent es, ∀ ch,
        serve kinds req ch = (.ok { ok := true }, ch ++
          [{ type := kinds.publish, nodeID := m.nodeID, clientID := m.clientID,
             protocolVersion := m.protocolVersion, payload := m.payload }])) ∧
    (∀ es, (relayRaftApply w n m c).trace = c.trace ++ es →
      (∀ sc, (getClient w n c).1 = .ok sc → (sent es).length = 1) ∧ ∀ req ∈ sent es, ∀ ch,
        serve kinds req ch = (.ok { ok := true }, ch ++
          [{ type := m.type, nodeID := m.nodeID, payload := m.payload }])) ∧
    (∀ es, (connectNotifyToNode a w n clientId c).trace = c.trace ++ es →
      (∀ sc, (getClient w n c).1 = .ok sc → (sent es).length = 1) ∧ ∀ req ∈ sent es, ∀ ch,
        serve kinds req ch = (.ok { ok := true }, ch ++
          [{ type := kinds.connect, nodeID := a.localName, clientID := clientId }])) ∧
    (∀ es, (relayRaftJoin a w n c).trace = c.trace ++ es →
      (∀ sc, (getClient w n c).1 = .ok sc → (sent es).length = 1) ∧ ∀ req ∈ sent es, ∀ ch,
        serve kinds req ch = (.ok { ok := true }, ch ++
          [{ type := kinds.raftJoin, nodeID := a.localName,
             payload := (Go.joinHostPort a.bindAddr (Go.itoa a.raftPort)).toUTF8.toList }])) := by
  refine ⟨fun es h => ?_, fun es h => ?_, fun es h => ?_, fun es h => ?_⟩
  all_goals
    obtain ⟨only, once⟩ := relay_sent _ _ _ _ _ _ _ c h
    refine ⟨fun sc ok => by simp [once sc ok], fun req hr ch => ?_⟩
    rw [only req hr]
  · simp [serve, publishPacket, deliver]
  · simp [serve, raftApply, deliver]
  · rfl
  · simp [serve, raftJoin, deliver, Go.intOfUint32_uint32OfInt port.1 port.2]

theorem relays_round_trip_join_port :
    let kinds : Kinds := { publish := 3, connect := 1, raftJoin := 20 }
    let a : Agent := { localName := "D", bindAddr := "10.0.0.4", grpcPort := 17946, raftPort := 8946 }
    let w : World := { members := fun _ => [], getNodeMember := fun _ n => some ⟨n, n⟩,
                       dial := fun _ _ _ => none, call := fun _ _ _ _ => none }
    let m : Message := { type := 3, nodeID := "A", clientID := "c1", protocolVersion := 5 }
    (0 ≤ a.raftPort ∧ a.raftPort < 2 ^ 32) ∧
    (∀ es, (relayPublishPacket w "B" m .empty).trace = [] ++ es →
      (∀ sc, (getClient w "B" .empty).1 = .ok sc → (sent es).length = 1) ∧ ∀ req ∈ sent es, ∀ ch,
        serve kinds req ch = (.ok { ok := true }, ch ++
          [{ type := kinds.publish, nodeID := m.nodeID, clientID := m.clientID,
             protocolVersion := m.protocolVersion, payload := m.payload }])) ∧
    (∀ es, (relayRaftApply w "B" m .empty).trace = [] ++ es →
      (∀ sc, (getClient w "B" .empty).1 = .ok sc → (sent es).length = 1) ∧ ∀ req ∈ sent es, ∀ ch,
        serve kinds req ch = (.ok { ok := true }, ch ++
          [{ type := m.type, nodeID := m.nodeID, payload := m.payload }])) ∧
    (∀ es, (connectNotifyToNode a w "B" "c2" .empty).trace = [] ++ es →
      (∀ sc, (getClient w "B" .empty).1 = .ok sc → (sent es).length = 1) ∧ ∀ req ∈ sent es, ∀ ch,
        serve kinds req ch = (.ok { ok := true }, ch ++
          [{ type := kinds.connect, nodeID := a.localName, clientID := "c2" }])) ∧
    (∀ es, (relayRaftJoin a w "B" .empty).trace = [] ++ es →
      (∀ sc, (getClient w "B" .empty).1 = .ok sc → (sent es).length = 1) ∧ ∀ req ∈ sent es, ∀ ch,
        serve kinds req ch = (.ok { ok := true }, ch ++
          [{ type := kinds.raftJoin, nodeID := a.localName,
             payload := (Go.joinHostPort a.bindAddr (Go.itoa a.raftPort)).toUTF8.toList }])) :=
  ⟨by decide, relays_round_trip _ _ _ .empty "B" "c2" _ (by decide)⟩

end Comqtt.Cluster
