import Comqtt.Cluster.Invariant
import Comqtt.Cluster.Lifecycle

/-! # The laws of the pool over whole runs

Every run of the manager, with any membership changes and any dial and RPC
outcomes, pins a node's client from the `getClient` that hands it out to the
next `RemoveGrpcClient`, re-dials only after a removal or a failure, and owns
every connection it dials until it closes it once.
-/

namespace Comqtt.Cluster

/-- A connection closed in a valid trace is mentioned by no later event. -/
theorem Valid.unused_after_close {tr pre mid : List Event} {n : String} {sc : Client}
    (valid : Valid tr) (htr : tr = pre ++ .removeGrpcClient n (some sc) :: mid) :
    ∀ e ∈ mid, sc.conn ∉ e.conns := by
  intro e he
  obtain ⟨m₁, m₂, rfl⟩ := List.append_of_mem he
  rw [htr, show pre ++ .removeGrpcClient n (some sc) :: (m₁ ++ e :: m₂) =
    (pre ++ .removeGrpcClient n (some sc) :: m₁) ++ e :: m₂ by simp] at valid
  obtain ⟨before, step, -⟩ := valid.split
  refine before.lifecycle.closed_unused ?_ step
  exact List.countP_pos_iff.mpr ⟨.removeGrpcClient n (some sc), by simp, by simp [Event.closes]⟩

theorem pool_owns_its_connections (a : Agent) (w : World) (ops : List Op) :
    (∀ n sc, (run a w ops).cs n = some sc →
        (∃ addr, Event.getClient n (.dialed addr sc) ∈ (run a w ops).trace) ∧
          closeCount sc (run a w ops).trace = 0) ∧
    (∀ n addr sc, Event.getClient n (.dialed addr sc) ∈ (run a w ops).trace →
        ((run a w ops).cs n = some sc ∧ closeCount sc (run a w ops).trace = 0) ∨
          ((run a w ops).cs n ≠ some sc ∧ closeCount sc (run a w ops).trace = 1 ∧
            Event.removeGrpcClient n (some sc) ∈ (run a w ops).trace)) ∧
    (∀ pre n sc mid, (run a w ops).trace = pre ++ .removeGrpcClient n (some sc) :: mid →
        ∀ e ∈ mid, sc.conn ∉ e.conns) ∧
    (∀ (w' : World) n (c : ClientManager) err, (getClient w' n c).1 = .error err →
        (getClient w' n c).2.cs = c.cs) ∧
    (∀ (w' : World) n m (c : ClientManager), m ≠ n → (getClient w' n c).2.cs m = c.cs m) ∧
    (∀ n (c : ClientManager), c.cs n = none →
        removeGrpcClient n c = c.emit [.removeGrpcClient n none]) ∧
    (∀ n (c : ClientManager),
        removeGrpcClient n (removeGrpcClient n c) =
          (removeGrpcClient n c).emit [.removeGrpcClient n none]) := by
  have own := (reachable_run a w ops).owned
  have life := own.valid.lifecycle
  refine ⟨fun n sc h => ?_, fun n addr sc h => ?_, fun pre n sc mid htr =>
    own.valid.unused_after_close htr, fun w' n c err h => getClient_cs_of_error h,
    fun w' n m c ne => getClient_cs_of_ne w' c ne, fun n c h => removeGrpcClient_of_absent h,
    fun n c => removeGrpcClient_of_absent (removeGrpcClient_cs_self n c)⟩
  · rw [own.cs_eq] at h
    exact life.entry n sc h
  · rw [own.cs_eq]
    exact life.dialed n addr sc h

/-- No two node ids ever hold the same client: a connection serves one node only. -/
theorem pool_entries_distinct (a : Agent) (w : World) (ops : List Op) :
    ∀ n m sc, n ≠ m → (run a w ops).cs n = some sc → (run a w ops).cs m ≠ some sc := by
  have own := (reachable_run a w ops).owned
  intro n m sc ne hn hm
  rw [own.cs_eq] at hn hm
  exact ne (own.valid.lifecycle.entry_unique hn hm)

theorem pool_entries_distinct_dialed :
    let a : Agent := { localName := "A", bindAddr := "10.0.0.1", grpcPort := 17946, raftPort := 8946 }
    let w : World := { members := fun _ => [], getNodeMember := fun _ n => some ⟨n, n ++ ":17946"⟩,
                       dial := fun _ _ _ => none, call := fun _ _ _ _ => none }
    (run a w [.getClient "B", .getClient "C"]).cs "B" = some ⟨0⟩ ∧
      (run a w [.getClient "B", .getClient "C"]).cs "C" = some ⟨1⟩ ∧
      "B" ≠ "C" ∧ (run a w [.getClient "B", .getClient "C"]).cs "C" ≠ some ⟨0⟩ := by
  intro a w
  have entry : (run a w [.getClient "B", .getClient "C"]).cs "B" = some ⟨0⟩ := rfl
  have ne : "B" ≠ "C" := by decide
  exact ⟨entry, rfl, ne, pool_entries_distinct a w _ "B" "C" ⟨0⟩ ne entry⟩

end Comqtt.Cluster
