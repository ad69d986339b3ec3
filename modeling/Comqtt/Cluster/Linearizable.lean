import Comqtt.Cluster.Threads
import Comqtt.Cluster.Invariant
import Comqtt.Cluster.Lifecycle

/-! # Interleaved calls linearize while removals of one node do not overlap

Leave the RPCs out of the trace of an interleaved run and what remains is a valid
history of the sequential pool, whose entries are the map: every call takes effect
at one statement, the mutex keeps two `getClient` calls apart, and a removal's
`delete` clears the entry its map read found. That last step needs no other
removal of the same node in between: `delete` clears whatever the entry is by then.
-/

namespace Comqtt.Cluster

/-- The world frozen at moment `t`: it answers every question as at `t`. -/
def World.frozen (w : World) (t : Nat) : World :=
  { members := fun _ => w.members t, getNodeMember := fun _ => w.getNodeMember t,
    dial := fun _ => w.dial t, call := fun _ => w.call t }

/-- In the world frozen at a call's moment, `getClient`'s decisions are the call's,
over any manager with the same entry for the node and the same next handle. -/
theorem resolve_frozen (w : World) (n : String) {c c' : ClientManager}
    (entry : c'.cs n = c.cs n) (next : c'.nextConn = c.nextConn) :
    resolve (w.frozen c.now) n c' = resolve w n c := by
  simp only [resolve, entry, next]
  rfl

theorem resolve_frozen_congr (w : World) (t : Nat) (n : String) {c c' : ClientManager}
    (entry : c'.cs n = c.cs n) (next : c'.nextConn = c.nextConn) :
    resolve (w.frozen t) n c' = resolve (w.frozen t) n c := by
  simp only [resolve, entry, next]
  rfl

theorem cs_of_resolve_dialed {w : World} {n addr : String} {c : ClientManager} {sc : Client}
    (h : resolve w n c = .dialed addr sc) : c.cs n = none := by
  cases entry : c.cs n with
  | none => rfl
  | some sc' => rw [resolve_of_cached entry] at h; cases h

/-- Whether the event is an RPC. -/
def Event.isCall : Event → Bool
  | .call .. => true
  | _ => false

/-- The manager with the RPCs left out of its trace. -/
def ClientManager.linear (c : ClientManager) : ClientManager :=
  { c with trace := c.trace.filter fun e => !e.isCall }

namespace ClientManager

@[simp] theorem linear_cs (c : ClientManager) : c.linear.cs = c.cs := rfl
@[simp] theorem linear_nextConn (c : ClientManager) : c.linear.nextConn = c.nextConn := rfl

theorem linear_emit (c : ClientManager) {es : List Event} (h : ∀ e ∈ es, e.isCall = false) :
    (c.emit es).linear = c.linear.emit es := by
  simpa [linear, emit] using h

theorem linear_store (c : ClientManager) (n : String) (res : Resolution) :
    (c.store n res).linear = c.linear.store n res := by
  cases res <;> rfl

theorem linear_emit_filter (c : ClientManager) (es : List Event) :
    (c.emit es).linear = c.linear.emit (es.filter fun e => !e.isCall) := by
  simp [linear, emit]

end ClientManager

/-- A relay that got a client logs `before`, sends its request on that client, and
logs whatever its RPC failure gives. -/
theorem RelayCall.finish_ok (w : World) (rc : RelayCall) (client : Client) (c : ClientManager) :
    ∃ (err : Option String) (lines : List Line), rc.finish w (.ok client) c =
      c.emit (rc.before.map .log ++
        .call rc.nodeId client.conn rc.req rc.timeout err :: lines.map .log) := by
  simp only [RelayCall.finish]
  split
  next err c' h =>
    obtain rfl : _ = c' := congrArg Prod.snd h
    exact ⟨w.call (c.logs rc.before).now client.conn rc.req rc.timeout, rc.onCallError err,
      by simp [ClientManager.logs, ClientManager.call, ClientManager.emit]⟩
  next c' h =>
    obtain rfl : _ = c' := congrArg Prod.snd h
    exact ⟨w.call (c.logs rc.before).now client.conn rc.req rc.timeout, [],
      by simp [ClientManager.logs, ClientManager.call, ClientManager.emit]⟩

/-- After `getClient`, a relay only records events: log lines and at most one RPC. -/
theorem RelayCall.finish_emits (w : World) (rc : RelayCall) (result : Except String Client)
    (c : ClientManager) :
    ∃ es, rc.finish w result c = c.emit es ∧ ∀ e ∈ es, e.quiet ∨ e.isCall := by
  cases result with
  | error err => exact ⟨_, rfl, by simp [Event.quiet]⟩
  | ok client =>
      obtain ⟨err, lines, finish⟩ := rc.finish_ok w client c
      refine ⟨_, finish, ?_⟩
      simp only [List.mem_append, List.mem_cons, List.mem_map]
      rintro e (⟨_, -, rfl⟩ | rfl | ⟨_, -, rfl⟩) <;> simp [Event.quiet, Event.isCall]

@[simp] theorem RelayCall.finish_cs (w : World) (rc : RelayCall) (result : Except String Client)
    (c : ClientManager) : (rc.finish w result c).cs = c.cs := by
  obtain ⟨es, finish, -⟩ := rc.finish_emits w result c
  rw [finish]
  rfl

@[simp] theorem RelayCall.finish_nextConn (w : World) (rc : RelayCall)
    (result : Except String Client) (c : ClientManager) :
    (rc.finish w result c).nextConn = c.nextConn := by
  obtain ⟨es, finish, -⟩ := rc.finish_emits w result c
  rw [finish]
  rfl

/-- After the relay's own logs and RPC, the history without RPCs gained log lines only. -/
theorem Owned.finish {c : ClientManager} (own : Owned c.linear) (w : World) (rc : RelayCall)
    (result : Except String Client) : Owned (rc.finish w result c).linear := by
  obtain ⟨es, finish, events⟩ := rc.finish_emits w result c
  rw [finish, ClientManager.linear_emit_filter]
  refine own.emit_quiet fun e he => ?_
  obtain ⟨he, kept⟩ := List.mem_filter.mp he
  exact (events e he).resolve_right (by simpa using kept)

theorem cached_filter_calls (n : String) (tr : List Event) :
    cached n (tr.filter fun e => !e.isCall) = cached n tr := by
  induction tr using List.reverseRecOn with
  | nil => rfl
  | append_singleton tr e ih =>
      rw [List.filter_append, cached_snoc, ← ih]
      cases e
      case call => exact congrArg (cached n) (List.append_nil _)
      all_goals exact cached_snoc n _ _

theorem closeCount_filter_calls (sc : Client) (tr : List Event) :
    closeCount sc (tr.filter fun e => !e.isCall) = closeCount sc tr := by
  rw [closeCount, closeCount, List.countP_filter]
  exact List.countP_congr fun e _ => by cases e <;> simp [Event.closes, Event.isCall]

/-- A valid history closes no connection twice. -/
theorem Valid.closeCount_le_one {tr : List Event} (valid : Valid tr) (sc : Client) :
    closeCount sc tr ≤ 1 := by
  by_cases unclosed : closeCount sc tr = 0
  · omega
  obtain ⟨e, he, closes⟩ := List.countP_pos_iff.mp (Nat.pos_of_ne_zero unclosed)
  obtain ⟨pre, post, rfl⟩ := List.append_of_mem he
  obtain ⟨before, removal, -⟩ := valid.split
  obtain ⟨m, entry⟩ : ∃ m, cached m pre = some sc := by
    rcases e with _ | _ | ⟨m, _ | closed⟩ | _ | _ <;> simp [Event.closes] at closes
    subst closes
    exact ⟨m, (show some closed = cached m pre from removal).symm⟩
  obtain ⟨addr, dialed⟩ := (before.lifecycle.entry m sc entry).1
  rcases valid.lifecycle.dialed m addr sc (List.mem_append_left _ dialed) with ⟨-, h⟩ | ⟨-, h, -⟩ <;>
    omega

namespace ClientManager

/-- A `getClient` in a frozen world, on the history without RPCs, records what the
same `getClient` records on the whole manager. -/
theorem linear_getClient_frozen (w : World) (k : Nat) (n : String) (c : ClientManager) :
    (getClient (w.frozen k) n c.linear).2 =
      ((c.store n (resolve (w.frozen k) n c)).emit
        [.getClient n (resolve (w.frozen k) n c)]).linear := by
  have same : resolve (w.frozen k) n c.linear = resolve (w.frozen k) n c :=
    resolve_frozen_congr w k n rfl rfl
  simp only [getClient, same]
  rw [linear_emit _ (by simp [Event.isCall]), linear_store]

theorem linear_remove (c : ClientManager) {n : String} {client : Client}
    (entry : c.cs n = some client) :
    ({ c with cs := Function.update c.cs n none }.emit [.removeGrpcClient n (some client)]).linear =
      removeGrpcClient n c.linear := by
  simp [removeGrpcClient, entry, linear, emit, Event.isCall]

theorem store_of_not_dialed (c : ClientManager) (n : String) {res : Resolution}
    (h : ∀ addr sc, res ≠ .dialed addr sc) : c.store n res = c := by
  cases res with
  | dialed addr sc => exact absurd rfl (h addr sc)
  | _ => rfl

end ClientManager

/-- Whether the call holds the manager's mutex. -/
def Thread.holdsLock : Thread → Bool
  | .relay _ pc => pc.holdsLock
  | .remove _ _ => false

/-- The node a removal in flight removes. -/
def Thread.removing : Thread → Option String
  | .remove n .read | .remove n (.delete _) | .remove n (.close _) => some n
  | _ => none

theorem Thread.removing_eq_some {t : Thread} {n : String} (h : t.removing = some n) :
    ∃ pc, t = .remove n pc ∧ pc ≠ .done := by
  rcases t with _ | ⟨m, _ | _ | _ | _⟩ <;> simp_all [removing]

namespace Moves

variable {w : World} {i : Nat} {t t' : Thread} {c c' : ClientManager} {l l' : Option Nat}

/-- A statement takes the mutex, releases it, or keeps both the mutex and the call's hold. -/
theorem lock_cases (m : Moves w i t c l t' c' l') :
    (t.holdsLock = false ∧ t'.holdsLock = true ∧ l = none ∧ l' = some i) ∨
    (t.holdsLock = true ∧ t'.holdsLock = false ∧ l' = none) ∨
    (t'.holdsLock = t.holdsLock ∧ l' = l) := by
  cases m <;> simp [Thread.holdsLock, RelayPc.holdsLock]

/-- A statement keeps the node a removal removes, or ends the removal. -/
theorem removing_cases (m : Moves w i t c l t' c' l') :
    t'.removing = t.removing ∨ t'.removing = none := by
  cases m <;> simp [Thread.removing]

/-- What a statement does to the map: a relay's store, a removal's `delete`, or nothing. -/
theorem cs_cases (m : Moves w i t c l t' c' l') :
    (∃ rc res, t = .relay rc (.store res) ∧
      c' = (c.store rc.nodeId res).emit [.getClient rc.nodeId res]) ∨
    (∃ n client, t = .remove n (.delete client) ∧
      c'.cs = Function.update c.cs n none ∧ c'.nextConn = c.nextConn) ∨
    (c'.cs = c.cs ∧ c'.nextConn = c.nextConn) := by
  cases m
  case store => exact .inl ⟨_, _, rfl, rfl⟩
  case delete => exact .inr (.inl ⟨_, _, rfl, rfl, rfl⟩)
  case finish rc res => exact .inr (.inr ⟨RelayCall.finish_cs w rc res.result c,
    RelayCall.finish_nextConn w rc res.result c⟩)
  all_goals exact .inr (.inr ⟨rfl, rfl⟩)

end Moves

namespace Pool

/-- What every pool keeps that its callers reach without overlapping removals of a node. -/
structure Safe (w : World) (p : Pool) : Prop where
  /-- Without its RPCs the trace is a history of the sequential pool, whose map is `cs`. -/
  owned : Owned p.mgr.linear
  /-- A call that holds the mutex is its holder. -/
  exclusive : ∀ i t, p.threads i = some t → t.holdsLock → p.lock = some i
  /-- The holder of the mutex is a call inside `getClient`. -/
  held : ∀ i, p.lock = some i → ∃ t, p.threads i = some t ∧ t.holdsLock
  /-- A relay about to store has dialed what `getClient` would dial now. -/
  dialing : ∀ i rc res, p.threads i = some (.relay rc (.store res)) →
    ∃ k addr sc, res = .dialed addr sc ∧ resolve (w.frozen k) rc.nodeId p.mgr = res
  /-- A removal about to `delete` finds the entry its map read found. -/
  deleting : ∀ i n client, p.threads i = some (.remove n (.delete client)) →
    p.mgr.cs n = some client
  /-- At most one removal of a node is in flight. -/
  single : ∀ i j t t' n, p.threads i = some t → p.threads j = some t' →
    t.removing = some n → t'.removing = some n → i = j
  /-- Calls are numbered in the order they started. -/
  fresh : ∀ i, p.spawned ≤ i → p.threads i = none

theorem Safe.empty (w : World) : Safe w empty where
  owned := Owned.empty
  exclusive := by simp [Pool.empty]
  held := by simp [Pool.empty]
  dialing := by simp [Pool.empty]
  deleting := by simp [Pool.empty]
  single := by simp [Pool.empty]
  fresh := by simp [Pool.empty]

theorem threads_spawn {p : Pool} {call : Call} {j : Nat} {u : Thread}
    (h : (p.spawn call).threads j = some u) :
    (j = p.spawned ∧ u = call.start) ∨ (j ≠ p.spawned ∧ p.threads j = some u) := by
  by_cases hj : j = p.spawned
  · subst hj
    simp_all [spawn]
  · simp_all [spawn, Function.update_noteq hj]

theorem threads_move {p : Pool} {i j : Nat} {t : Thread} {mgr : ClientManager} {lock : Option Nat}
    {u : Thread} (h : (p.move i t mgr lock).threads j = some u) :
    (j = i ∧ u = t) ∨ (j ≠ i ∧ p.threads j = some u) := by
  by_cases hj : j = i
  · subst hj
    simp_all
  · simp_all [move_threads_of_ne]

/-- A started call holds no lock and is at none of the statements the invariant
speaks of but a removal's map read. -/
theorem Safe.spawn {w : World} {p : Pool} (safe : p.Safe w) {call : Call}
    (may : p.NoOverlap call) : (p.spawn call).Safe w := by
  have old : ∀ {j u}, p.threads j = some u → j ≠ p.spawned := fun h hj =>
    by simp [safe.fresh _ hj.ge] at h
  constructor
  · exact safe.owned
  · intro j u hj hold
    rcases threads_spawn hj with ⟨-, rfl⟩ | ⟨-, hj⟩
    · cases call <;> simp [Call.start, Thread.holdsLock, RelayPc.holdsLock] at hold
    · exact safe.exclusive j u hj hold
  · intro j hl
    obtain ⟨u, hj, hold⟩ := safe.held j hl
    exact ⟨u, by simp [Pool.spawn, Function.update_noteq (old hj), hj], hold⟩
  · intro j rc res hj
    rcases threads_spawn hj with ⟨-, start⟩ | ⟨-, hj⟩
    · cases call <;> cases start
    · exact safe.dialing j rc res hj
  · intro j n client hj
    rcases threads_spawn hj with ⟨-, start⟩ | ⟨-, hj⟩
    · cases call <;> cases start
    · exact safe.deleting j n client hj
  · intro j k u u' n hj hk hu hu'
    have startRemoving : ∀ {m v}, call.start.removing = some n → p.threads m = some v →
        v.removing = some n → False := fun hs hm hm' => by
      obtain ⟨pc, rfl, running⟩ := Thread.removing_eq_some hm'
      cases call with
      | relay rc => simp [Call.start, Thread.removing] at hs
      | remove n' =>
          simp only [Call.start, Thread.removing, Option.some.injEq] at hs
          subst hs
          exact running (may _ pc hm)
    rcases threads_spawn hj with ⟨rfl, rfl⟩ | ⟨-, hj⟩ <;>
      rcases threads_spawn hk with ⟨rfl, rfl⟩ | ⟨-, hk⟩
    · rfl
    · exact (startRemoving hu hk hu').elim
    · exact (startRemoving hu' hj hu).elim
    · exact safe.single j k u u' n hj hk hu hu'
  · intro j hj
    simp only [Pool.spawn] at hj ⊢
    rw [Function.update_noteq (by omega)]
    exact safe.fresh j (by omega)

/-- Two calls that hold the mutex are one call. -/
theorem Safe.holder_unique {w : World} {p : Pool} (safe : p.Safe w) {i j : Nat} {t u : Thread}
    (hi : p.threads i = some t) (hj : p.threads j = some u) (ti : t.holdsLock) (uj : u.holdsLock) :
    i = j :=
  Option.some.inj ((safe.exclusive i t hi ti).symm.trans (safe.exclusive j u hj uj))

/-! ## One statement keeps the invariant -/

section Step

variable {w : World} {p : Pool} {i : Nat} {t t' : Thread} {c' : ClientManager} {l' : Option Nat}

theorem Safe.owned_move (safe : p.Safe w) (thread : p.threads i = some t)
    (moves : Moves w i t p.mgr p.lock t' c' l') : Owned c'.linear := by
  generalize p.lock = l at moves
  cases moves
  case lock | dial | unlock | read | close => exact safe.owned
  case resolve rc notDialed =>
    have same : resolve (w.frozen p.mgr.now) rc.nodeId p.mgr = resolve w rc.nodeId p.mgr :=
      resolve_frozen w rc.nodeId rfl rfl
    have own := safe.owned.getClient (w.frozen p.mgr.now) rc.nodeId
    rwa [ClientManager.linear_getClient_frozen, same,
      ClientManager.store_of_not_dialed _ _ notDialed] at own
  case store rc res =>
    obtain ⟨k, -, -, -, dialed⟩ := safe.dialing i rc res thread
    have own := safe.owned.getClient (w.frozen k) rc.nodeId
    rwa [ClientManager.linear_getClient_frozen, dialed] at own
  case finish rc res => exact safe.owned.finish w rc res.result
  case readAbsent n absent =>
    have absent' : p.mgr.linear.cs n = none := absent
    rw [ClientManager.linear_emit _ (by simp [Event.isCall]), ← removeGrpcClient_of_absent absent']
    exact safe.owned.removeGrpcClient n
  case delete n client =>
    rw [ClientManager.linear_remove _ (safe.deleting i n client thread)]
    exact safe.owned.removeGrpcClient n

theorem Safe.lock_move (safe : p.Safe w) (thread : p.threads i = some t)
    (moves : Moves w i t p.mgr p.lock t' c' l') :
    (∀ j u, (p.move i t' c' l').threads j = some u → u.holdsLock → l' = some j) ∧
    (∀ j, l' = some j → ∃ u, (p.move i t' c' l').threads j = some u ∧ u.holdsLock) := by
  rcases moves.lock_cases with ⟨-, takes, free, rfl⟩ | ⟨gives, released, rfl⟩ | ⟨same, rfl⟩
  case inl =>
    refine ⟨fun j u hj hold => ?_, fun j hj => ?_⟩
    · rcases threads_move hj with ⟨rfl, -⟩ | ⟨-, hj⟩
      · rfl
      · simp [safe.exclusive j u hj hold] at free
    · cases hj
      exact ⟨t', by simp, takes⟩
  case inr.inl =>
    refine ⟨fun j u hj hold => ?_, fun j hj => by cases hj⟩
    rcases threads_move hj with ⟨rfl, rfl⟩ | ⟨ne, hj⟩
    · simp [released] at hold
    · exact absurd (safe.holder_unique thread hj gives hold) ne.symm
  case inr.inr =>
    refine ⟨fun j u hj hold => ?_, fun j hj => ?_⟩
    · rcases threads_move hj with ⟨rfl, rfl⟩ | ⟨-, hj⟩
      · exact safe.exclusive j t thread (same ▸ hold)
      · exact safe.exclusive j u hj hold
    · obtain ⟨u, hu, hold⟩ := safe.held j hj
      by_cases ji : j = i
      · subst ji
        obtain rfl := Option.some.inj (thread.symm.trans hu)
        exact ⟨t', by simp, same ▸ hold⟩
      · exact ⟨u, by rwa [move_threads_of_ne _ _ _ _ ji], hold⟩

theorem Safe.dialing_move (safe : p.Safe w) (thread : p.threads i = some t)
    (moves : Moves w i t p.mgr p.lock t' c' l') :
    ∀ j rc res, (p.move i t' c' l').threads j = some (.relay rc (.store res)) →
      ∃ k addr sc, res = .dialed addr sc ∧ resolve (w.frozen k) rc.nodeId c' = res := by
  intro j rc res hj
  rcases threads_move hj with ⟨rfl, rfl⟩ | ⟨ne, old⟩
  · generalize p.lock = l at moves
    cases moves with
    | dial dialed => exact ⟨p.mgr.now, _, _, rfl, (resolve_frozen w rc.nodeId rfl rfl).trans dialed⟩
  · obtain ⟨k, addr, sc, rfl, dialed⟩ := safe.dialing j rc _ old
    refine ⟨k, addr, sc, rfl, Eq.trans ?_ dialed⟩
    rcases moves.cs_cases with ⟨rc', res', rfl, rfl⟩ | ⟨n, client, rfl, cs, next⟩ | ⟨cs, next⟩
    · exact absurd (safe.holder_unique thread old rfl rfl) ne.symm
    · have absent := cs_of_resolve_dialed dialed
      refine resolve_frozen_congr w k rc.nodeId ?_ next
      by_cases hn : rc.nodeId = n
      · rw [cs, hn, Function.update_same, ← hn, absent]
      · rw [cs, Function.update_noteq hn]
    · exact resolve_frozen_congr w k rc.nodeId (by rw [cs]) next

theorem Safe.deleting_move (safe : p.Safe w) (thread : p.threads i = some t)
    (moves : Moves w i t p.mgr p.lock t' c' l') :
    ∀ j n client, (p.move i t' c' l').threads j = some (.remove n (.delete client)) →
      c'.cs n = some client := by
  intro j n client hj
  rcases threads_move hj with ⟨rfl, rfl⟩ | ⟨ne, old⟩
  · generalize p.lock = l at moves
    cases moves with
    | read entry => exact entry
  · have entry := safe.deleting j n client old
    rcases moves.cs_cases with ⟨rc, res, rfl, rfl⟩ | ⟨m, client', rfl, cs, -⟩ | ⟨cs, -⟩
    · obtain ⟨k, addr, sc, rfl, dialed⟩ := safe.dialing i rc _ thread
      have hn : n ≠ rc.nodeId := fun hn => by
        rw [hn, cs_of_resolve_dialed dialed] at entry
        cases entry
      simpa [ClientManager.store_cs_of_ne _ _ hn] using entry
    · have hn : n ≠ m := fun hn => ne (safe.single j i _ _ n old thread rfl (by simp [hn, Thread.removing]))
      rwa [cs, Function.update_noteq hn]
    · rwa [cs]

theorem Safe.single_move (safe : p.Safe w) (thread : p.threads i = some t)
    (moves : Moves w i t p.mgr p.lock t' c' l') :
    ∀ j k u u' n, (p.move i t' c' l').threads j = some u → (p.move i t' c' l').threads k = some u' →
      u.removing = some n → u'.removing = some n → j = k := by
  have before : ∀ {j u n}, (p.move i t' c' l').threads j = some u → u.removing = some n →
      ∃ v, p.threads j = some v ∧ v.removing = some n := fun hj hu => by
    rcases threads_move hj with ⟨rfl, rfl⟩ | ⟨-, hj⟩
    · rcases moves.removing_cases with same | ended
      · exact ⟨t, thread, same ▸ hu⟩
      · simp [ended] at hu
    · exact ⟨_, hj, hu⟩
  intro j k u u' n hj hk hu hu'
  obtain ⟨v, hv, vn⟩ := before hj hu
  obtain ⟨v', hv', vn'⟩ := before hk hu'
  exact safe.single j k v v' n hv hv' vn vn'

theorem Safe.fresh_move (safe : p.Safe w) (thread : p.threads i = some t) :
    ∀ j, (p.move i t' c' l').spawned ≤ j → (p.move i t' c' l').threads j = none := by
  intro j hj
  have ne : j ≠ i := fun ji => by simp [safe.fresh i (ji ▸ hj)] at thread
  rw [move_threads_of_ne _ _ _ _ ne]
  exact safe.fresh j hj

/-- Every statement of every call keeps the invariant. -/
theorem Safe.step {p' : Pool} (safe : p.Safe w) (h : p.step w i = some p') : p'.Safe w := by
  obtain ⟨t, t', c', l', thread, moves, rfl⟩ := step_moves h
  obtain ⟨exclusive, held⟩ := safe.lock_move thread moves
  exact ⟨safe.owned_move thread moves, exclusive, held, safe.dialing_move thread moves,
    safe.deleting_move thread moves, safe.single_move thread moves, safe.fresh_move thread⟩

end Step

/-- Every pool the callers reach without overlapping removals of a node keeps the invariant. -/
theorem Reachable.safe {w : World} {p : Pool} (reach : p.Reachable w NoOverlap) : p.Safe w := by
  induction reach with
  | empty => exact Safe.empty w
  | spawn call _ may ih => exact ih.spawn may
  | step i _ h ih => exact ih.step h

/-- The map is what the history without RPCs leaves. -/
theorem Safe.cs_eq {w : World} {p : Pool} (safe : p.Safe w) (n : String) :
    p.mgr.cs n = cached n (p.mgr.trace.filter fun e => !e.isCall) :=
  safe.owned.cs_eq n

/-- An entry was dialed for its node and is still open. -/
theorem Safe.entry_open {w : World} {p : Pool} (safe : p.Safe w) {n : String} {sc : Client}
    (h : p.mgr.cs n = some sc) :
    (∃ addr, .getClient n (.dialed addr sc) ∈ p.mgr.trace) ∧ closeCount sc p.mgr.trace = 0 := by
  have valid : Valid (p.mgr.trace.filter fun e => !e.isCall) := safe.owned.valid
  obtain ⟨⟨addr, dialed⟩, unclosed⟩ :=
    valid.lifecycle.entry n sc ((safe.cs_eq n).symm.trans h)
  exact ⟨⟨addr, (List.mem_filter.mp dialed).1⟩, by rwa [← closeCount_filter_calls]⟩

/-- What the callers see of a pool, however the statements of their calls interleave. -/
structure Linearized (p : Pool) : Prop where
  /-- At most one call holds the mutex. -/
  mutex : ∀ i j t u, p.threads i = some t → p.threads j = some u → t.holdsLock → u.holdsLock →
    i = j
  /-- Leaving the RPCs out, the trace is a valid history of the sequential pool. -/
  history : Valid (p.mgr.trace.filter fun e => !e.isCall)
  /-- The map is what that history leaves. -/
  map : ∀ n, p.mgr.cs n = cached n p.mgr.trace
  /-- No connection is closed twice. -/
  closedOnce : ∀ sc, closeCount sc p.mgr.trace ≤ 1
  /-- Every entry was dialed for its node and is still open. -/
  entries : ∀ n sc, p.mgr.cs n = some sc →
    (∃ addr, .getClient n (.dialed addr sc) ∈ p.mgr.trace) ∧ closeCount sc p.mgr.trace = 0
  /-- No connection leaks: one a `getClient` dialed is its node's entry, or was closed. -/
  dialed : ∀ n addr sc, .getClient n (.dialed addr sc) ∈ p.mgr.trace →
    p.mgr.cs n = some sc ∨ closeCount sc p.mgr.trace = 1
  /-- No two nodes hold the same connection. -/
  distinct : ∀ n m sc, p.mgr.cs n = some sc → p.mgr.cs m = some sc → n = m

end Pool

/-- As long as removals of one node do not overlap, the calls linearize however their
statements interleave, each statement taken as atomic. -/
theorem interleavings_linearize {w : World} {p : Pool} (reach : p.Reachable w Pool.NoOverlap) :
    p.Linearized := by
  have safe := reach.safe
  have valid : Valid (p.mgr.trace.filter fun e => !e.isCall) := safe.owned.valid
  have life := valid.lifecycle
  refine ⟨fun i j t u => safe.holder_unique, valid, fun n => ?_, fun sc => ?_,
    fun n sc => safe.entry_open, fun n addr sc dialed => ?_, fun n m sc hn hm => ?_⟩
  · rw [← cached_filter_calls]
    exact safe.cs_eq n
  · rw [← closeCount_filter_calls]
    exact valid.closeCount_le_one sc
  · rw [safe.cs_eq n, ← closeCount_filter_calls]
    rcases life.dialed n addr sc (List.mem_filter.mpr ⟨dialed, rfl⟩) with ⟨entry, -⟩ | ⟨-, once, -⟩
    · exact .inl entry
    · exact .inr once
  · rw [safe.cs_eq] at hn hm
    exact life.entry_unique hn hm

/-- A relay to `B` dials and returns from `getClient`, a removal of `B` then runs to
its end, and the relay sends its RPC on the connection the removal closed. -/
theorem interleavings_linearize_rpc_after_removal :
    let w : World := { members := fun _ => [], getNodeMember := fun _ n => some ⟨n, "10.0.0.2:17946"⟩,
                       dial := fun _ _ _ => none, call := fun _ _ _ _ => none }
    let rc : RelayCall := { nodeId := "B", onGetError := fun _ => [], before := [],
                            req := .connectNotify { nodeId := "A", clientId := "c1" },
                            timeout := reqTimeout, onCallError := fun _ => [] }
    let p := (Pool.empty.exec w [.spawn (.relay rc), .step 0, .step 0, .step 0, .step 0]).getD
      Pool.empty
    let q := ((p.spawn (.remove "B")).exec w [.step 1, .step 1, .step 1, .step 0]).getD Pool.empty
    q.Reachable w Pool.NoOverlap ∧
      q.mgr.trace = [.getClient "B" (.dialed "10.0.0.2:17946" ⟨0⟩),
        .removeGrpcClient "B" (some ⟨0⟩), .call "B" 0 rc.req reqTimeout none] ∧
      q.Linearized := by
  intro w rc p q
  have relayed : p.Reachable w Pool.NoOverlap := Pool.Reachable.exec_relays .empty (by simp) rfl
  have removing : (p.spawn (.remove "B")).Reachable w Pool.NoOverlap :=
    .spawn _ relayed (by rintro (_ | i) pc h <;> cases h)
  have reach : q.Reachable w Pool.NoOverlap := removing.exec_relays (by simp) rfl
  exact ⟨reach, rfl, interleavings_linearize reach⟩

/-- However the calls interleave, as long as removals of a node do not overlap: from a
`getClient(n)` that returned `sc` up to the next removal of `n`, `sc` is `n`'s entry
and every `getClient(n)` is a hit on it, so concurrent callers share one connection. -/
theorem interleaved_getClients_share {w : World} {p : Pool} (reach : p.Reachable w Pool.NoOverlap)
    {pre mid : List Event} {n : String} {res : Resolution} {sc : Client}
    (trace : p.mgr.trace = pre ++ .getClient n res :: mid) (got : res.result = .ok sc)
    (kept : ∀ closed, .removeGrpcClient n closed ∉ mid) :
    p.mgr.cs n = some sc ∧ ∀ res', .getClient n res' ∈ mid → res' = .cached sc := by
  have safe := reach.safe
  have split : p.mgr.linear.trace = (pre.filter fun e => !e.isCall) ++ .getClient n res ::
      mid.filter fun e => !e.isCall := by
    simp [ClientManager.linear, trace, Event.isCall]
  have valid := safe.owned.valid
  rw [split] at valid
  obtain ⟨-, -, rest⟩ := valid.split
  have got' : cached n ((pre.filter fun e => !e.isCall) ++ [.getClient n res]) = some sc := by
    simp [Event.entryAfter, got, Except.toOption]
  have notCall : ∀ {e}, e ∈ mid → e.isCall = false → e ∈ mid.filter fun e => !e.isCall :=
    fun he hc => List.mem_filter.mpr ⟨he, by simp [hc]⟩
  obtain ⟨entry, hits⟩ := rest.stable got' fun closed hc => kept closed (List.mem_filter.mp hc).1
  refine ⟨?_, fun res' hres => hits res' (notCall hres rfl)⟩
  calc p.mgr.cs n = cached n p.mgr.linear.trace := safe.cs_eq n
    _ = some sc := by rw [split, ← entry]; simp

/-- Two relays to `B`: the first dials and returns from `getClient`, the second gets
its client before the first sends, and both send on the first one's connection. -/
theorem interleaved_getClients_share_second_caller :
    let w : World := { members := fun _ => [], getNodeMember := fun _ n => some ⟨n, "10.0.0.2:17946"⟩,
                       dial := fun _ _ _ => none, call := fun _ _ _ _ => none }
    let rc : RelayCall := { nodeId := "B", onGetError := fun _ => [], before := [],
                            req := .connectNotify { nodeId := "A", clientId := "c1" },
                            timeout := reqTimeout, onCallError := fun _ => [] }
    let p := (Pool.empty.exec w [.spawn (.relay rc), .step 0, .step 0, .step 0, .step 0,
      .spawn (.relay rc), .step 1, .step 1, .step 1, .step 0, .step 1]).getD Pool.empty
    p.Reachable w Pool.NoOverlap ∧
      p.mgr.trace = [] ++ .getClient "B" (.dialed "10.0.0.2:17946" ⟨0⟩) ::
        [.getClient "B" (.cached ⟨0⟩), .call "B" 0 rc.req reqTimeout none,
          .call "B" 0 rc.req reqTimeout none] ∧
      p.mgr.cs "B" = some ⟨0⟩ ∧
        ∀ res', .getClient "B" res' ∈ [Event.getClient "B" (.cached ⟨0⟩),
          .call "B" 0 rc.req reqTimeout none, .call "B" 0 rc.req reqTimeout none] →
          res' = .cached ⟨0⟩ := by
  intro w rc p
  have reach : p.Reachable w Pool.NoOverlap := Pool.Reachable.exec_relays .empty (by simp) rfl
  have trace : p.mgr.trace = [] ++ .getClient "B" (.dialed "10.0.0.2:17946" ⟨0⟩) ::
      [.getClient "B" (.cached ⟨0⟩), .call "B" 0 rc.req reqTimeout none,
        .call "B" 0 rc.req reqTimeout none] := rfl
  exact ⟨reach, trace, interleaved_getClients_share reach trace rfl (by simp)⟩

/-- Whether the call has returned. -/
def Thread.done : Thread → Bool
  | .relay _ .done | .remove _ .done => true
  | _ => false

/-- A call in flight that does not wait for a held mutex can run its next statement. -/
theorem Pool.step_enabled (w : World) (p : Pool) {i : Nat} {t : Thread}
    (thread : p.threads i = some t) (running : t.done = false)
    (free : ∀ rc, t = .relay rc .lock → p.lock = none) : ∃ p', p.step w i = some p' := by
  rcases t with ⟨rc, _ | _ | _ | _ | _ | _⟩ | ⟨n, _ | _ | _ | _⟩
  case relay.lock => simp [Pool.step, thread, free rc rfl]
  case relay.resolve =>
    simp only [Pool.step, thread]
    split <;> exact ⟨_, rfl⟩
  case remove.read =>
    simp only [Pool.step, thread]
    split <;> exact ⟨_, rfl⟩
  all_goals simp_all [Pool.step, Thread.done]

/-- No interleaving deadlocks, each statement taken as atomic: while a call is in
flight, it can run its next statement, or it waits for the mutex and the mutex's
holder can run its next one. -/
theorem interleavings_never_deadlock {w : World} {p : Pool} (reach : p.Reachable w Pool.NoOverlap)
    {i : Nat} {t : Thread} (thread : p.threads i = some t) (running : t.done = false) :
    (∃ p', p.step w i = some p') ∨ ∃ j p', p.lock = some j ∧ p.step w j = some p' := by
  cases held : p.lock with
  | none => exact .inl (Pool.step_enabled w p thread running fun _ _ => held)
  | some j =>
      obtain ⟨u, hu, hold⟩ := reach.safe.held j held
      have inGetClient : u.done = false ∧ ∀ rc, u ≠ .relay rc .lock := by
        rcases u with ⟨rc, _ | _ | _ | _ | _ | _⟩ | _ <;>
          simp_all [Thread.holdsLock, RelayPc.holdsLock, Thread.done]
      obtain ⟨p', stepped⟩ :=
        Pool.step_enabled w p hu inGetClient.1 fun rc hrc => (inGetClient.2 rc hrc).elim
      exact .inr ⟨j, p', rfl, stepped⟩

/-- A relay to `B` holds the mutex inside `getClient` while a second relay waits for
it: the second cannot move, and the holder can. -/
theorem interleavings_never_deadlock_waiting :
    let w : World := { members := fun _ => [], getNodeMember := fun _ n => some ⟨n, "10.0.0.2:17946"⟩,
                       dial := fun _ _ _ => none, call := fun _ _ _ _ => none }
    let rc : RelayCall := { nodeId := "B", onGetError := fun _ => [], before := [],
                            req := .connectNotify { nodeId := "A", clientId := "c1" },
                            timeout := reqTimeout, onCallError := fun _ => [] }
    let p := (Pool.empty.exec w [.spawn (.relay rc), .step 0, .spawn (.relay rc)]).getD Pool.empty
    p.Reachable w Pool.NoOverlap ∧ p.threads 1 = some (.relay rc .lock) ∧
      (Thread.relay rc .lock).done = false ∧ p.lock = some 0 ∧ p.step w 1 = none ∧
      ((∃ p', p.step w 1 = some p') ∨ ∃ j p', p.lock = some j ∧ p.step w j = some p') := by
  intro w rc p
  have reach : p.Reachable w Pool.NoOverlap := Pool.Reachable.exec_relays .empty (by simp) rfl
  have thread : p.threads 1 = some (.relay rc .lock) := rfl
  exact ⟨reach, thread, rfl, rfl, rfl, interleavings_never_deadlock reach thread rfl⟩

end Comqtt.Cluster
