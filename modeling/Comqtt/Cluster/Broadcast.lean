import Comqtt.Cluster.Relay
import Mathlib.Data.List.Forall2

/-! # Broadcasts reach every other member once

A broadcast takes one `Members()` snapshot and makes, for each entry not named
like the local node and in snapshot order, one relay attempt: a `getClient` of the
entry's name followed, when it yields a client, by exactly one RPC carrying the
broadcast's request. A failure toward one entry does not stop the loop.
-/

namespace Comqtt.Cluster

/-- Whether the event is a log line. -/
def Event.isLog : Event → Bool
  | .log _ => true
  | _ => false

/-- `seg` is one relay attempt toward `nodeId` with `req` under `timeout`: a
`getClient(nodeId)` and, exactly when it returned a client, one RPC on that
client; besides these, only log lines. -/
def Attempt (nodeId : String) (req : Request) (timeout : Nat) (seg : List Event) : Prop :=
  ∃ res, ((∃ err, res.result = .error err) ∧ seg.filter (!·.isLog) = [.getClient nodeId res]) ∨
    (∃ client err, res.result = .ok client ∧
      seg.filter (!·.isLog) = [.getClient nodeId res, .call nodeId client.conn req timeout err])

/-- A unicast relay is one attempt. -/
theorem relay_attempt (w : World) (n : String) (onGetError : String → List Line)
    (before : List Line) (req : Request) (timeout : Nat) (onCallError : String → List Line)
    (c : ClientManager) :
    ∃ seg, (relay w n onGetError before req timeout onCallError c).trace = c.trace ++ seg ∧
      Attempt n req timeout seg := by
  obtain ⟨rest, htr, shape⟩ := relay_trace w n onGetError before req timeout onCallError c
  refine ⟨_, htr, resolve w n c, ?_⟩
  rcases shape with ⟨err, hr, rfl⟩ | ⟨client, hr, rfl⟩ | ⟨client, err, hr, rfl⟩
  · exact .inl ⟨⟨err, hr⟩, by simp [List.filter_map, Function.comp_def, Event.isLog]⟩
  · exact .inr ⟨client, none, hr, by simp [List.filter_map, Function.comp_def, Event.isLog]⟩
  · exact .inr ⟨client, some err, hr, by simp [List.filter_map, Function.comp_def, Event.isLog]⟩

/-- The broadcast loop: the snapshot, then one segment per entry not named like the
local node, in order, each what `attempt` records for that entry's name. -/
theorem toOthers_segments (a : Agent) (w : World) (attempt : String → ClientManager → ClientManager)
    (P : String → List Event → Prop)
    (each : ∀ n c, ∃ seg, (attempt n c).trace = c.trace ++ seg ∧ P n seg) (c : ClientManager) :
    ∃ segs, (toOthers a w attempt c).trace =
        c.trace ++ .members (w.members c.now) :: segs.flatten ∧
      List.Forall₂ (fun m seg => P m.name seg)
        ((w.members c.now).filter (·.name ≠ a.localName)) segs := by
  suffices loop : ∀ (rest : List Member) (c' : ClientManager), ∃ segs,
      (rest.foldl (fun c m => if m.name = a.localName then c else attempt m.name c) c').trace =
        c'.trace ++ segs.flatten ∧
      List.Forall₂ (fun m seg => P m.name seg) (rest.filter (·.name ≠ a.localName)) segs by
    obtain ⟨segs, htr, hall⟩ := loop (w.members c.now) (c.emit [.members (w.members c.now)])
    exact ⟨segs, by simp [toOthers, htr], hall⟩
  intro rest
  induction rest with
  | nil => exact fun c' => ⟨[], by simp, .nil⟩
  | cons m rest ih =>
      intro c'
      by_cases self : m.name = a.localName
      · obtain ⟨segs, htr, hall⟩ := ih c'
        exact ⟨segs, by simpa [self] using htr, by simpa [self] using hall⟩
      · obtain ⟨seg, hseg, hp⟩ := each m.name c'
        obtain ⟨segs, htr, hall⟩ := ih (attempt m.name c')
        refine ⟨seg :: segs, by simp [self, htr, hseg], ?_⟩
        have cons : List.Forall₂ (fun m seg => P m.name seg)
            (m :: rest.filter (·.name ≠ a.localName)) (seg :: segs) := .cons hp hall
        simpa [self] using cons

theorem broadcasts_reach_every_other_member (a : Agent) (w : World) (msg : Message)
    (c : ClientManager) :
    (∃ segs, (connectNotifyToOthers a w msg c).trace =
        c.trace ++ .members (w.members c.now) :: segs.flatten ∧
      List.Forall₂ (fun m seg => Attempt m.name
          (.connectNotify { nodeId := a.localName, clientId := msg.clientID }) reqTimeout seg)
        ((w.members c.now).filter (·.name ≠ a.localName)) segs) ∧
    (∃ segs, (raftApplyToOthers a w msg c).trace =
        c.trace ++ .members (w.members c.now) :: segs.flatten ∧
      List.Forall₂ (fun m seg => Attempt m.name
          (.raftApply { action := msg.type.toUInt32, nodeId := msg.nodeID, filter := msg.payload })
          (10 * reqTimeout) seg)
        ((w.members c.now).filter (·.name ≠ a.localName)) segs) ∧
    (∃ segs, (raftJoinToOthers a w c).trace =
        c.trace ++ .members (w.members c.now) :: segs.flatten ∧
      List.Forall₂ (fun m seg => Attempt m.name
          (.raftJoin { nodeId := a.localName, addr := a.bindAddr,
                       port := Go.uint32OfInt a.raftPort }) reqTimeout seg)
        ((w.members c.now).filter (·.name ≠ a.localName)) segs) :=
  ⟨toOthers_segments a w _ _ (fun n c => relay_attempt w n _ _ _ _ _ c) c,
    toOthers_segments a w _ _ (fun n c => relay_attempt w n _ _ _ _ _ c) c,
    toOthers_segments a w _ _ (fun n c => relay_attempt w n _ _ _ _ _ c) c⟩

/-- A snapshot with no entry but the local node's leaves the loop with the
snapshot recorded and nothing else attempted. -/
theorem toOthers_of_self_only (a : Agent) (w : World)
    (attempt : String → ClientManager → ClientManager) (c : ClientManager)
    (selfOnly : ∀ m ∈ w.members c.now, m.name = a.localName) :
    toOthers a w attempt c = c.emit [.members (w.members c.now)] := by
  suffices skip : ∀ (rest : List Member) (c' : ClientManager), (∀ m ∈ rest, m.name = a.localName) →
      rest.foldl (fun c m => if m.name = a.localName then c else attempt m.name c) c' = c' from
    skip _ _ selfOnly
  intro rest
  induction rest with
  | nil => exact fun _ _ => rfl
  | cons m rest ih =>
      intro c' self
      simp only [List.foldl_cons, self m (.head _), if_true]
      exact ih c' fun m' hm => self m' (.tail _ hm)

/-- A snapshot with no entry but the local node's, the empty one included, makes
a broadcast record the snapshot and nothing else: no `getClient`, no RPC. -/
theorem broadcasts_skip_self_only (a : Agent) (w : World) (msg : Message) (c : ClientManager)
    (selfOnly : ∀ m ∈ w.members c.now, m.name = a.localName) :
    (connectNotifyToOthers a w msg c).trace = c.trace ++ [.members (w.members c.now)] ∧
    (raftApplyToOthers a w msg c).trace = c.trace ++ [.members (w.members c.now)] ∧
    (raftJoinToOthers a w c).trace = c.trace ++ [.members (w.members c.now)] := by
  simp only [connectNotifyToOthers, raftApplyToOthers, raftJoinToOthers,
    toOthers_of_self_only a w _ c selfOnly, ClientManager.emit_trace, and_self]

theorem broadcasts_skip_self_only_alone :
    let a : Agent := { localName := "A", bindAddr := "10.0.0.1", grpcPort := 17946, raftPort := 8946 }
    let w : World := { members := fun _ => [⟨"A", "10.0.0.1:17946"⟩], getNodeMember := fun _ _ => none,
                       dial := fun _ _ _ => none, call := fun _ _ _ _ => none }
    let msg : Message := { type := 3, nodeID := "A", clientID := "c1" }
    (∀ m ∈ w.members ClientManager.empty.now, m.name = a.localName) ∧
      (connectNotifyToOthers a w msg .empty).trace = [] ++ [.members (w.members 0)] ∧
      (raftApplyToOthers a w msg .empty).trace = [] ++ [.members (w.members 0)] ∧
      (raftJoinToOthers a w .empty).trace = [] ++ [.members (w.members 0)] :=
  ⟨by decide, broadcasts_skip_self_only _ _ _ .empty (by decide)⟩

end Comqtt.Cluster
