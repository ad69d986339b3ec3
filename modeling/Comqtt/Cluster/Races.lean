import Comqtt.Cluster.Linearizable

/-! # What the mutex does not cover

`RemoveGrpcClient` reads, deletes and closes without the mutex, and a relay sends
its RPC after `getClient` has released it. Two schedules show what follows. Two
removals of one node that overlap around a `getClient` of that node close the old
connection twice and drop the new one from the map unclosed. And even when removals
of a node never overlap, a relay can send its RPC on a connection a removal has
already closed.
-/

namespace Comqtt.Cluster

/-! ## The relay's own events -/

@[simp] theorem RelayCall.closeCount_finish (sc : Client) (w : World) (rc : RelayCall)
    (result : Except String Client) (c : ClientManager) :
    closeCount sc (rc.finish w result c).trace = closeCount sc c.trace := by
  obtain ⟨es, finish, events⟩ := rc.finish_emits w result c
  have unclosed : es.countP (Event.closes sc) = 0 := List.countP_eq_zero.mpr fun e he => by
    rcases e with _ | _ | ⟨m, _ | closed⟩ | _ | _
    case removeGrpcClient.some => simpa [Event.quiet, Event.isCall] using events _ he
    all_goals simp [Event.closes]
  rw [finish, closeCount, ClientManager.emit_trace, List.countP_append, unclosed, Nat.add_zero]
  rfl

theorem RelayCall.mem_finish_trace {e : Event} (w : World) (rc : RelayCall)
    (result : Except String Client) {c : ClientManager} (h : e ∈ c.trace) :
    e ∈ (rc.finish w result c).trace := by
  obtain ⟨es, finish, -⟩ := rc.finish_emits w result c
  exact finish ▸ List.mem_append_left es h

/-! ## Handles of a safe pool -/

namespace Pool

theorem Safe.entry_below {w : World} {p : Pool} (safe : p.Safe w) {n : String} {sc : Client}
    (h : p.mgr.cs n = some sc) : sc.conn < p.mgr.nextConn :=
  safe.owned.entry_below h

/-- The next handle is in no event of the trace, so it was never closed. -/
theorem Safe.next_unclosed {w : World} {p : Pool} (safe : p.Safe w) :
    closeCount ⟨p.mgr.nextConn⟩ p.mgr.trace = 0 := by
  rw [← closeCount_filter_calls]
  exact closeCount_of_fresh fun e he hc => lt_irrefl _ (safe.owned.below e he _ hc)

end Pool

/-! ## Overlapping removals -/

/-- Two removals of one node overlap, and a relay to that node gets its client
between the first `delete` and the second. The node's connection `x` is closed
twice, and the connection the relay dials is deleted by the second removal, which
closes `x` again in its place: it is in no entry and nothing ever closes it. -/
theorem overlapping_removals_leak {w : World} {p : Pool} (reach : p.Reachable w Pool.NoOverlap)
    {x : Client} {m : Member} (rc : RelayCall) (entry : p.mgr.cs rc.nodeId = some x)
    (free : p.lock = none) (member : ∀ k, w.getNodeMember k rc.nodeId = some m)
    (addr : m.grpcAddr ≠ "") (dials : ∀ k, w.dial k m.grpcAddr dialOptions = none) :
    ∃ q, p.exec w [.spawn (.remove rc.nodeId), .spawn (.remove rc.nodeId), .step p.spawned,
        .step (p.spawned + 1), .step p.spawned, .spawn (.relay rc), .step (p.spawned + 2),
        .step (p.spawned + 2), .step (p.spawned + 2), .step (p.spawned + 2),
        .step (p.spawned + 1), .step p.spawned, .step (p.spawned + 1), .step (p.spawned + 2)] =
        some q ∧
      closeCount x q.mgr.trace = 2 ∧
      .getClient rc.nodeId (.dialed m.grpcAddr ⟨p.mgr.nextConn⟩) ∈ q.mgr.trace ∧
      closeCount ⟨p.mgr.nextConn⟩ q.mgr.trace = 0 ∧ ∀ n, q.mgr.cs n ≠ some ⟨p.mgr.nextConn⟩ := by
  have safe := reach.safe
  have below := safe.entry_below entry
  have unclosed := (safe.entry_open entry).2
  have fresh := safe.next_unclosed
  have other : x ≠ ⟨p.mgr.nextConn⟩ := fun h => by simp [h] at below
  simp only [closeCount] at unclosed fresh
  simp [Pool.exec, Pool.step, Pool.spawn, Pool.move, Call.start, entry, free, resolve, member,
    getNodeAddr, getGrpcAddr, addr, dials, ClientManager.store, Function.update_apply, Nat.add_assoc]
  refine ⟨by simp [closeCount, List.countP_append, Event.closes, unclosed],
    RelayCall.mem_finish_trace _ _ _ (by simp),
    by simp [closeCount, List.countP_append, Event.closes, fresh, other], fun n => ?_⟩
  by_cases hn : n = rc.nodeId
  · simp [hn]
  · simpa [hn] using fun h => lt_irrefl _ (safe.entry_below h)

theorem overlapping_removals_leak_dialed :
    let w : World := { members := fun _ => [], getNodeMember := fun _ n => some ⟨n, "10.0.0.2:17946"⟩,
                       dial := fun _ _ _ => none, call := fun _ _ _ _ => none }
    let rc : RelayCall := { nodeId := "B", onGetError := fun _ => [], before := [],
                            req := .connectNotify { nodeId := "A", clientId := "c1" },
                            timeout := reqTimeout, onCallError := fun _ => [] }
    let p := (Pool.empty.exec w [.spawn (.relay rc), .step 0, .step 0, .step 0, .step 0, .step 0]).getD
      Pool.empty
    p.Reachable w Pool.NoOverlap ∧ p.mgr.cs rc.nodeId = some ⟨0⟩ ∧ p.lock = none ∧
      (∀ k, w.getNodeMember k rc.nodeId = some ⟨"B", "10.0.0.2:17946"⟩) ∧
      ∃ q, p.exec w [.spawn (.remove rc.nodeId), .spawn (.remove rc.nodeId), .step p.spawned,
          .step (p.spawned + 1), .step p.spawned, .spawn (.relay rc), .step (p.spawned + 2),
          .step (p.spawned + 2), .step (p.spawned + 2), .step (p.spawned + 2),
          .step (p.spawned + 1), .step p.spawned, .step (p.spawned + 1), .step (p.spawned + 2)] =
          some q ∧
        closeCount ⟨0⟩ q.mgr.trace = 2 ∧
        .getClient rc.nodeId (.dialed "10.0.0.2:17946" ⟨p.mgr.nextConn⟩) ∈ q.mgr.trace ∧
        closeCount ⟨p.mgr.nextConn⟩ q.mgr.trace = 0 ∧ ∀ n, q.mgr.cs n ≠ some ⟨p.mgr.nextConn⟩ := by
  intro w rc p
  have reach : p.Reachable w Pool.NoOverlap := Pool.Reachable.exec_relays .empty (by simp) rfl
  have entry : p.mgr.cs rc.nodeId = some ⟨0⟩ := rfl
  have free : p.lock = none := rfl
  have member : ∀ k, w.getNodeMember k rc.nodeId = some ⟨"B", "10.0.0.2:17946"⟩ := fun _ => rfl
  exact ⟨reach, entry, free, member, overlapping_removals_leak reach rc entry free member
    (by decide) fun _ => rfl⟩

/-! ## Sends on closed connections -/

/-- Even when removals of a node never overlap, a relay can send its RPC on a
connection a removal has already closed: the relay gets the node's entry `x` and
releases the mutex, a removal of the node runs to its end and closes `x`, and the
relay then sends its request on `x`. -/
theorem rpc_after_close {w : World} {p : Pool} (reach : p.Reachable w Pool.NoOverlap)
    {x : Client} (rc : RelayCall) (entry : p.mgr.cs rc.nodeId = some x) (free : p.lock = none)
    (idle : p.NoOverlap (.remove rc.nodeId)) :
    ∃ q, p.exec w [.spawn (.relay rc), .step p.spawned, .step p.spawned, .step p.spawned,
        .spawn (.remove rc.nodeId), .step (p.spawned + 1), .step (p.spawned + 1),
        .step (p.spawned + 1), .step p.spawned] = some q ∧
      q.Reachable w Pool.NoOverlap ∧
      ∃ pre mid err post, q.mgr.trace =
        pre ++ .removeGrpcClient rc.nodeId (some x) :: mid ++
          .call rc.nodeId x.conn rc.req rc.timeout err :: post := by
  refine reach.exec_of ?_ ?_
  · simp [Pool.Allows, Pool.step, Pool.spawn, Pool.move, Call.start, entry, free, resolve,
      Function.update_apply, Pool.NoOverlap]
    intro i pc h
    split_ifs at h
    · cases h
    · exact idle i pc h
  · simp [Pool.exec, Pool.step, Pool.spawn, Pool.move, Call.start, entry, free, resolve,
      Function.update_apply, Resolution.result]
    obtain ⟨err, lines, finish⟩ := RelayCall.finish_ok w rc x
      (ClientManager.emit
        { cs := Function.update p.mgr.cs rc.nodeId none, nextConn := p.mgr.nextConn,
          trace := p.mgr.trace ++ [.getClient rc.nodeId (.cached x)] }
        [.removeGrpcClient rc.nodeId (some x)])
    exact ⟨p.mgr.trace ++ [.getClient rc.nodeId (.cached x)], rc.before.map Event.log, err,
      lines.map Event.log, (congrArg ClientManager.trace finish).trans (by simp)⟩

theorem rpc_after_close_dialed :
    let w : World := { members := fun _ => [], getNodeMember := fun _ n => some ⟨n, "10.0.0.2:17946"⟩,
                       dial := fun _ _ _ => none, call := fun _ _ _ _ => none }
    let rc : RelayCall := { nodeId := "B", onGetError := fun _ => [], before := [],
                            req := .connectNotify { nodeId := "A", clientId := "c1" },
                            timeout := reqTimeout, onCallError := fun _ => [] }
    let p := (Pool.empty.exec w [.spawn (.relay rc), .step 0, .step 0, .step 0, .step 0, .step 0]).getD
      Pool.empty
    p.Reachable w Pool.NoOverlap ∧ p.mgr.cs rc.nodeId = some ⟨0⟩ ∧ p.lock = none ∧
      p.NoOverlap (.remove rc.nodeId) ∧
      ∃ q, p.exec w [.spawn (.relay rc), .step p.spawned, .step p.spawned, .step p.spawned,
          .spawn (.remove rc.nodeId), .step (p.spawned + 1), .step (p.spawned + 1),
          .step (p.spawned + 1), .step p.spawned] = some q ∧
        q.Reachable w Pool.NoOverlap ∧
        ∃ pre mid err post, q.mgr.trace =
          pre ++ .removeGrpcClient rc.nodeId (some ⟨0⟩) :: mid ++
            .call rc.nodeId 0 rc.req rc.timeout err :: post := by
  intro w rc p
  have reach : p.Reachable w Pool.NoOverlap := Pool.Reachable.exec_relays .empty (by simp) rfl
  have entry : p.mgr.cs rc.nodeId = some ⟨0⟩ := rfl
  have free : p.lock = none := rfl
  have idle : p.NoOverlap (.remove rc.nodeId) := by
    rintro (_ | i) pc h <;> cases h
  exact ⟨reach, entry, free, idle, rpc_after_close reach rc entry free idle⟩

end Comqtt.Cluster
