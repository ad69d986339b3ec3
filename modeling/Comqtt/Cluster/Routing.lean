import Comqtt.Cluster.Linearizable

/-! # Every interleaving sends a node's requests on that node's connections

The map only ever gains an entry through a `getClient` store, which writes the
client it has just dialed for that node, and a relay sends its request on the
client its own `getClient` returned. Neither depends on the discipline on
removals: whatever the callers start and however the statements interleave, every
entry and every RPC's connection was dialed for the node it serves, even where
overlapping removals close it twice or leave it unclosed.
-/

namespace Comqtt.Cluster

/-- A `getClient(n)` of the trace dialed `sc`. -/
def DialedFor (n : String) (sc : Client) (tr : List Event) : Prop :=
  ∃ addr, .getClient n (.dialed addr sc) ∈ tr

theorem DialedFor.mono {n : String} {sc : Client} {tr : List Event} (h : DialedFor n sc tr)
    (es : List Event) : DialedFor n sc (tr ++ es) :=
  let ⟨addr, mem⟩ := h
  ⟨addr, List.mem_append_left es mem⟩

/-- What a relay at `pc` will send its request on: a client dialed for its node. -/
def RelayPc.Hands (n : String) (tr : List Event) : RelayPc → Prop
  | .store res => ∃ addr sc, res = .dialed addr sc
  | .unlock res | .finish res => ∀ sc, res.result = .ok sc → DialedFor n sc tr
  | _ => True

theorem RelayPc.Hands.mono {n : String} {tr : List Event} {pc : RelayPc} (h : pc.Hands n tr)
    (es : List Event) : pc.Hands n (tr ++ es) := by
  cases pc with
  | unlock res | finish res => exact fun sc ok => (h sc ok).mono es
  | _ => exact h

theorem cs_of_resolve_cached {w : World} {n : String} {c : ClientManager} {sc : Client}
    (h : resolve w n c = .cached sc) : c.cs n = some sc := by
  cases entry : c.cs n with
  | none =>
      have looked := (resolve_of_absent w entry).1
      simp [h, Resolution.lookedUp] at looked
  | some sc' =>
      rw [resolve_of_cached entry] at h
      cases h
      rfl

namespace Moves

variable {w : World} {i : Nat} {t t' : Thread} {c c' : ClientManager} {l l' : Option Nat}

/-- The trace only grows: by RPC-free events, or by what a relay records after `getClient`. -/
theorem trace_cases (m : Moves w i t c l t' c' l') :
    (∃ es, c'.trace = c.trace ++ es ∧ ∀ e ∈ es, e.isCall = false) ∨
    (∃ rc res, t = .relay rc (.finish res) ∧ c' = rc.finish w res.result c) := by
  cases m
  case finish rc res => exact .inr ⟨rc, res, rfl, rfl⟩
  case store rc res => exact .inl ⟨[.getClient rc.nodeId res], by simp, by simp [Event.isCall]⟩
  case lock | dial | unlock | read | close => exact .inl ⟨[], by simp, by simp⟩
  all_goals exact .inl ⟨_, rfl, by simp [Event.isCall]⟩

theorem trace_extends (m : Moves w i t c l t' c' l') : ∃ es, c'.trace = c.trace ++ es := by
  rcases m.trace_cases with ⟨es, grows, -⟩ | ⟨rc, res, -, rfl⟩
  · exact ⟨es, grows⟩
  · obtain ⟨es, finish, -⟩ := rc.finish_emits w res.result c
    exact ⟨es, by rw [finish]; rfl⟩

end Moves

namespace Pool

/-- What every pool keeps, whatever calls its callers start. -/
structure Routed (p : Pool) : Prop where
  /-- Every entry was dialed for its node. -/
  entries : ∀ n sc, p.mgr.cs n = some sc → DialedFor n sc p.mgr.trace
  /-- Every relay in flight holds, or will store, a client dialed for its node. -/
  pending : ∀ i rc pc, p.threads i = some (.relay rc pc) → pc.Hands rc.nodeId p.mgr.trace
  /-- Every RPC went over a connection dialed for its target. -/
  calls : ∀ n conn req timeout err, .call n conn req timeout err ∈ p.mgr.trace →
    DialedFor n ⟨conn⟩ p.mgr.trace

theorem Routed.empty : Routed empty where
  entries := by simp [Pool.empty, ClientManager.empty]
  pending := by simp [Pool.empty]
  calls := by simp [Pool.empty, ClientManager.empty]

theorem Routed.spawn {p : Pool} (routed : p.Routed) (call : Call) : (p.spawn call).Routed where
  entries := routed.entries
  pending j rc pc hj := by
    rcases threads_spawn hj with ⟨-, start⟩ | ⟨-, hj⟩
    · cases call <;> cases start
      trivial
    · exact routed.pending j rc pc hj
  calls := routed.calls

section Step

variable {w : World} {p : Pool} {i : Nat} {t t' : Thread} {c' : ClientManager} {l' : Option Nat}

theorem Routed.entries_move (routed : p.Routed) (thread : p.threads i = some t)
    (moves : Moves w i t p.mgr p.lock t' c' l') :
    ∀ n sc, c'.cs n = some sc → DialedFor n sc c'.trace := by
  obtain ⟨es, grows⟩ := moves.trace_extends
  intro n sc entry
  rcases moves.cs_cases with ⟨rc, res, rfl, rfl⟩ | ⟨m, client, -, cs, -⟩ | ⟨cs, -⟩
  · obtain ⟨addr, sc', rfl⟩ := routed.pending i rc _ thread
    by_cases hn : n = rc.nodeId
    · subst hn
      simp [ClientManager.store] at entry
      subst entry
      exact ⟨addr, by simp⟩
    · rw [ClientManager.emit_cs, ClientManager.store_cs_of_ne _ _ hn] at entry
      obtain ⟨a, mem⟩ := routed.entries n sc entry
      exact ⟨a, by simp [mem]⟩
  · by_cases hn : n = m
    · simp [cs, hn] at entry
    · rw [cs, Function.update_noteq hn] at entry
      exact grows ▸ (routed.entries n sc entry).mono es
  · rw [cs] at entry
    exact grows ▸ (routed.entries n sc entry).mono es

theorem Routed.pending_move (routed : p.Routed) (thread : p.threads i = some t)
    (moves : Moves w i t p.mgr p.lock t' c' l') :
    ∀ j rc pc, (p.move i t' c' l').threads j = some (.relay rc pc) → pc.Hands rc.nodeId c'.trace := by
  obtain ⟨es, grows⟩ := moves.trace_extends
  intro j rc pc hj
  rcases threads_move hj with ⟨rfl, rfl⟩ | ⟨-, old⟩
  · generalize p.lock = l at moves
    cases moves
    case dial addr sc dialed => exact ⟨addr, sc, rfl⟩
    case resolve notDialed =>
      intro sc ok
      rcases resolve_result_ok ok with cached | ⟨addr, dialed⟩
      · exact (routed.entries _ sc (cs_of_resolve_cached cached)).mono _
      · exact absurd dialed (notDialed addr sc)
    case store res =>
      obtain ⟨addr, sc, rfl⟩ := routed.pending j rc _ thread
      intro sc' ok
      cases ok
      exact ⟨addr, by simp⟩
    case unlock res => exact routed.pending j rc (.unlock res) thread
    all_goals trivial
  · exact grows ▸ (routed.pending j rc pc old).mono es

theorem Routed.calls_move (routed : p.Routed) (thread : p.threads i = some t)
    (moves : Moves w i t p.mgr p.lock t' c' l') :
    ∀ n conn req timeout err, .call n conn req timeout err ∈ c'.trace →
      DialedFor n ⟨conn⟩ c'.trace := by
  intro n conn req timeout err sent
  rcases moves.trace_cases with ⟨es, grows, quiet⟩ | ⟨rc, res, rfl, rfl⟩
  · rw [grows] at sent ⊢
    rcases List.mem_append.mp sent with old | new
    · exact (routed.calls n conn req timeout err old).mono es
    · simpa [Event.isCall] using quiet _ new
  · have hands : ∀ sc, res.result = .ok sc → DialedFor rc.nodeId sc p.mgr.trace :=
      routed.pending i rc (.finish res) thread
    cases ok : res.result with
    | error e =>
        rw [ok] at sent
        have old : Event.call n conn req timeout err ∈ p.mgr.trace := by
          simpa [RelayCall.finish, ClientManager.logs] using sent
        exact (routed.calls n conn req timeout err old).mono _
    | ok sc =>
        obtain ⟨e, lines, finish⟩ := rc.finish_ok w sc p.mgr
        rw [ok, finish] at sent
        rw [finish]
        simp only [ClientManager.emit_trace, List.mem_append, List.mem_cons, List.mem_map,
          Event.call.injEq, reduceCtorEq, and_false, exists_false, or_false, false_or] at sent
        rcases sent with old | ⟨rfl, rfl, -⟩
        · exact (routed.calls n conn req timeout err old).mono _
        · exact (hands sc ok).mono _

/-- Every statement of every call keeps the routing. -/
theorem Routed.step {p' : Pool} (routed : p.Routed) (h : p.step w i = some p') : p'.Routed := by
  obtain ⟨t, t', c', l', thread, moves, rfl⟩ := step_moves h
  exact ⟨routed.entries_move thread moves, routed.pending_move thread moves,
    routed.calls_move thread moves⟩

end Step

theorem Reachable.routed {w : World} {may : Pool → Call → Prop} {p : Pool}
    (reach : p.Reachable w may) : p.Routed := by
  induction reach with
  | empty => exact Routed.empty
  | spawn call _ _ ih => exact ih.spawn call
  | step i _ h ih => exact ih.step h

end Pool

/-- Whatever calls the callers start and however their statements interleave, with
removals of one node overlapping or not: every entry of the map, and every
connection an RPC goes over, was dialed for the node it serves. -/
theorem interleavings_route_to_their_node {w : World} {may : Pool → Call → Prop} {p : Pool}
    (reach : p.Reachable w may) :
    (∀ n sc, p.mgr.cs n = some sc → ∃ addr, .getClient n (.dialed addr sc) ∈ p.mgr.trace) ∧
    ∀ n conn req timeout err, .call n conn req timeout err ∈ p.mgr.trace →
      ∃ addr, .getClient n (.dialed addr ⟨conn⟩) ∈ p.mgr.trace :=
  ⟨reach.routed.entries, reach.routed.calls⟩

theorem interleavings_route_to_their_node_dialed :
    let w : World := { members := fun _ => [], getNodeMember := fun _ n => some ⟨n, "10.0.0.2:17946"⟩,
                       dial := fun _ _ _ => none, call := fun _ _ _ _ => none }
    let rc : RelayCall := { nodeId := "B", onGetError := fun _ => [], before := [],
                            req := .connectNotify { nodeId := "A", clientId := "c1" },
                            timeout := reqTimeout, onCallError := fun _ => [] }
    let p := (Pool.empty.exec w [.spawn (.relay rc), .step 0, .step 0, .step 0, .step 0, .step 0]).getD
      Pool.empty
    p.Reachable w Pool.NoOverlap ∧
      (∀ n sc, p.mgr.cs n = some sc → ∃ addr, .getClient n (.dialed addr sc) ∈ p.mgr.trace) ∧
      ∀ n conn req timeout err, .call n conn req timeout err ∈ p.mgr.trace →
        ∃ addr, .getClient n (.dialed addr ⟨conn⟩) ∈ p.mgr.trace := by
  intro w rc p
  have reach : p.Reachable w Pool.NoOverlap := Pool.Reachable.exec_relays .empty (by simp) rfl
  exact ⟨reach, interleavings_route_to_their_node reach⟩

end Comqtt.Cluster
