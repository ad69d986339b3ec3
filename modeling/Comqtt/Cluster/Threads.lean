import Comqtt.Cluster.Relay

/-! # The pool under concurrent callers

The relays and `RemoveGrpcClient` run on their callers' goroutines, concurrently.
`getClient` takes the manager's mutex before its map read and releases it when it
returns, so two `getClient` calls never overlap. `RemoveGrpcClient` takes no lock:
its map read, its `delete` and its `Close` may fall between any two statements of
any other call. A relay sends its RPC after `getClient` has released the mutex.

A thread is one call in flight, with a program counter before each statement that
reads or writes the map or the mutex; a step of the pool runs one statement of one
thread, and callers start new calls at any moment. The shared state is the
sequential manager: its map, its next handle, and its trace, which records each
call where it takes effect on the map (a `getClient` at its map read, or at its
store when it dials; a removal at its map read when the node has no entry, at its
`delete` otherwise).

A broadcast is its relays, started one after another by one caller; its `Members()`
snapshot touches neither the map nor the mutex and is left out here.

Each statement is taken as atomic. `RemoveGrpcClient` reads and writes `cs`
without the mutex, so its map accesses race those of `getClient`; Go's maps are not
safe for concurrent use, and the runtime may then stop the process with the fatal
error "concurrent map read and map write". That abort is outside the model, which
lets the two statements take effect one after the other.
-/

namespace Comqtt.Cluster

/-- The arguments of one `relay`. -/
structure RelayCall where
  nodeId : String
  onGetError : String → List Line
  before : List Line
  req : Request
  timeout : Nat
  onCallError : String → List Line

/-- What `relay` does once `getClient` has returned `result`. -/
def RelayCall.finish (w : World) (rc : RelayCall) (result : Except String Client)
    (c : ClientManager) : ClientManager :=
  match result with
  | .error err => c.logs (rc.onGetError err)
  | .ok client =>
      match (c.logs rc.before).call w rc.nodeId client rc.req rc.timeout with
      | (some err, c) => c.logs (rc.onCallError err)
      | (none, c) => c

/-- `relay` is `getClient` followed by what the relay does with its result. -/
theorem relay_eq_finish (w : World) (n : String) (onGetError : String → List Line)
    (before : List Line) (req : Request) (timeout : Nat) (onCallError : String → List Line)
    (c : ClientManager) :
    relay w n onGetError before req timeout onCallError c =
      RelayCall.finish w ⟨n, onGetError, before, req, timeout, onCallError⟩
        (getClient w n c).1 (getClient w n c).2 := by
  unfold relay
  generalize getClient w n c = g
  rcases g with ⟨_ | client, c'⟩ <;> rfl

/-- Where a relay is. -/
inductive RelayPc where
  /-- Before `c.Lock()`. -/
  | lock
  /-- Holding the mutex, before the map read and, on a miss, the lookup and the dial. -/
  | resolve
  /-- Holding the mutex with a dialed client, before `c.cs[nodeId] = wrapClient`. -/
  | store (res : Resolution)
  /-- Holding the mutex as `getClient` returns, before the deferred `c.Unlock()`. -/
  | unlock (res : Resolution)
  /-- Back in the relay with `getClient`'s result: its logs and its RPC. -/
  | finish (res : Resolution)
  | done

/-- Whether a relay at this point holds the manager's mutex. -/
def RelayPc.holdsLock : RelayPc → Bool
  | .resolve | .store _ | .unlock _ => true
  | _ => false

/-- Where a `RemoveGrpcClient` is. -/
inductive RemovePc where
  /-- Before `client, ok := c.cs[nodeId]`. -/
  | read
  /-- Before `delete(c.cs, nodeId)`, with the client it read. -/
  | delete (client : Client)
  /-- Before `client.conn.Close()`. -/
  | close (client : Client)
  | done

/-- A call in flight. -/
inductive Thread where
  | relay (rc : RelayCall) (pc : RelayPc)
  | remove (nodeId : String) (pc : RemovePc)

/-- A call a caller may start. -/
inductive Call where
  | relay (rc : RelayCall)
  | remove (nodeId : String)

/-- A call as it starts. -/
def Call.start : Call → Thread
  | .relay rc => .relay rc .lock
  | .remove n => .remove n .read

/-- The manager shared by the calls in flight, the holder of its mutex, and the
calls started so far, numbered in the order they started. -/
structure Pool where
  mgr : ClientManager
  lock : Option Nat
  threads : Nat → Option Thread
  spawned : Nat

namespace Pool

/-- `NewClientManager`, before any call. -/
def empty : Pool := { mgr := .empty, lock := none, threads := fun _ => none, spawned := 0 }

/-- A caller starts `call`. -/
def spawn (p : Pool) (call : Call) : Pool :=
  { p with threads := Function.update p.threads p.spawned (some call.start),
           spawned := p.spawned + 1 }

/-- Thread `i` moves to `t`, leaving the manager `mgr` and the mutex `lock`. -/
def move (p : Pool) (i : Nat) (t : Thread) (mgr : ClientManager) (lock : Option Nat) : Pool :=
  { p with mgr := mgr, lock := lock, threads := Function.update p.threads i (some t) }

/-- Thread `i` runs one statement; `none` when it is blocked on the mutex or finished. -/
def step (w : World) (p : Pool) (i : Nat) : Option Pool :=
  match p.threads i with
  | some (.relay rc .lock) =>
      match p.lock with
      | none => some (p.move i (.relay rc .resolve) p.mgr (some i))
      | some _ => none
  | some (.relay rc .resolve) =>
      match resolve w rc.nodeId p.mgr with
      | .dialed addr sc => some (p.move i (.relay rc (.store (.dialed addr sc))) p.mgr p.lock)
      | res => some (p.move i (.relay rc (.unlock res))
          (p.mgr.emit [.getClient rc.nodeId res]) p.lock)
  | some (.relay rc (.store res)) =>
      some (p.move i (.relay rc (.unlock res))
        ((p.mgr.store rc.nodeId res).emit [.getClient rc.nodeId res]) p.lock)
  | some (.relay rc (.unlock res)) => some (p.move i (.relay rc (.finish res)) p.mgr none)
  | some (.relay rc (.finish res)) =>
      some (p.move i (.relay rc .done) (rc.finish w res.result p.mgr) p.lock)
  | some (.remove n .read) =>
      match p.mgr.cs n with
      | some client => some (p.move i (.remove n (.delete client)) p.mgr p.lock)
      | none => some (p.move i (.remove n .done) (p.mgr.emit [.removeGrpcClient n none]) p.lock)
  | some (.remove n (.delete client)) =>
      some (p.move i (.remove n (.close client))
        ({ p.mgr with cs := Function.update p.mgr.cs n none }.emit
          [.removeGrpcClient n (some client)]) p.lock)
  | some (.remove n (.close _)) => some (p.move i (.remove n .done) p.mgr p.lock)
  | _ => none

end Pool

/-- One statement of a thread: thread `i` at `t`, over the manager `c` and the mutex
`lock`, moves to `t'`, leaving `c'` and `lock'`. -/
inductive Moves (w : World) (i : Nat) :
    Thread → ClientManager → Option Nat → Thread → ClientManager → Option Nat → Prop
  | lock {rc : RelayCall} {c : ClientManager} :
      Moves w i (.relay rc .lock) c none (.relay rc .resolve) c (some i)
  | dial {rc : RelayCall} {c : ClientManager} {lock : Option Nat} {addr : String} {sc : Client} :
      resolve w rc.nodeId c = .dialed addr sc →
      Moves w i (.relay rc .resolve) c lock (.relay rc (.store (.dialed addr sc))) c lock
  | resolve {rc : RelayCall} {c : ClientManager} {lock : Option Nat} :
      (∀ addr sc, resolve w rc.nodeId c ≠ .dialed addr sc) →
      Moves w i (.relay rc .resolve) c lock (.relay rc (.unlock (resolve w rc.nodeId c)))
        (c.emit [.getClient rc.nodeId (resolve w rc.nodeId c)]) lock
  | store {rc : RelayCall} {c : ClientManager} {lock : Option Nat} {res : Resolution} :
      Moves w i (.relay rc (.store res)) c lock (.relay rc (.unlock res))
        ((c.store rc.nodeId res).emit [.getClient rc.nodeId res]) lock
  | unlock {rc : RelayCall} {c : ClientManager} {lock : Option Nat} {res : Resolution} :
      Moves w i (.relay rc (.unlock res)) c lock (.relay rc (.finish res)) c none
  | finish {rc : RelayCall} {c : ClientManager} {lock : Option Nat} {res : Resolution} :
      Moves w i (.relay rc (.finish res)) c lock (.relay rc .done) (rc.finish w res.result c) lock
  | read {n : String} {c : ClientManager} {lock : Option Nat} {client : Client} :
      c.cs n = some client →
      Moves w i (.remove n .read) c lock (.remove n (.delete client)) c lock
  | readAbsent {n : String} {c : ClientManager} {lock : Option Nat} :
      c.cs n = none →
      Moves w i (.remove n .read) c lock (.remove n .done) (c.emit [.removeGrpcClient n none]) lock
  | delete {n : String} {c : ClientManager} {lock : Option Nat} {client : Client} :
      Moves w i (.remove n (.delete client)) c lock (.remove n (.close client))
        ({ c with cs := Function.update c.cs n none }.emit [.removeGrpcClient n (some client)]) lock
  | close {n : String} {c : ClientManager} {lock : Option Nat} {client : Client} :
      Moves w i (.remove n (.close client)) c lock (.remove n .done) c lock

namespace Pool

/-- Every step of the pool is one statement of the thread it runs. -/
theorem step_moves {w : World} {p p' : Pool} {i : Nat} (h : p.step w i = some p') :
    ∃ t t' c' lock', p.threads i = some t ∧ Moves w i t p.mgr p.lock t' c' lock' ∧
      p' = p.move i t' c' lock' := by
  unfold step at h
  split at h
  case h_1 rc thread =>
    split at h
    case h_1 free => exact ⟨_, _, _, _, thread, free ▸ .lock, (Option.some.inj h).symm⟩
    case h_2 => cases h
  case h_2 rc thread =>
    split at h
    case h_1 addr sc dialed => exact ⟨_, _, _, _, thread, .dial dialed, (Option.some.inj h).symm⟩
    case h_2 res other => exact ⟨_, _, _, _, thread, .resolve other, (Option.some.inj h).symm⟩
  case h_3 rc res thread => exact ⟨_, _, _, _, thread, .store, (Option.some.inj h).symm⟩
  case h_4 rc res thread => exact ⟨_, _, _, _, thread, .unlock, (Option.some.inj h).symm⟩
  case h_5 rc res thread => exact ⟨_, _, _, _, thread, .finish, (Option.some.inj h).symm⟩
  case h_6 n thread =>
    split at h
    case h_1 client entry => exact ⟨_, _, _, _, thread, .read entry, (Option.some.inj h).symm⟩
    case h_2 absent => exact ⟨_, _, _, _, thread, .readAbsent absent, (Option.some.inj h).symm⟩
  case h_7 n client thread => exact ⟨_, _, _, _, thread, .delete, (Option.some.inj h).symm⟩
  case h_8 n client thread => exact ⟨_, _, _, _, thread, .close, (Option.some.inj h).symm⟩
  case h_9 => cases h

@[simp] theorem move_threads_self (p : Pool) (i : Nat) (t : Thread) (mgr : ClientManager)
    (lock : Option Nat) : (p.move i t mgr lock).threads i = some t := by
  simp [move]

theorem move_threads_of_ne (p : Pool) {i j : Nat} (t : Thread) (mgr : ClientManager)
    (lock : Option Nat) (ne : j ≠ i) : (p.move i t mgr lock).threads j = p.threads j := by
  simp [move, Function.update_noteq ne]

/-- What a caller does: start a call, or run one statement of a call in flight. -/
inductive Action where
  | spawn (call : Call)
  | step (i : Nat)

/-- Run the actions in order; `none` when one of them is a step that cannot run. -/
def exec (w : World) : Pool → List Action → Option Pool
  | p, [] => some p
  | p, .spawn call :: rest => exec w (p.spawn call) rest
  | p, .step i :: rest =>
      match p.step w i with
      | some p' => exec w p' rest
      | none => none

/-- A call that runs from start to end with no statement of another call in between
does to the manager what the sequential function does: a relay that finds the mutex
free does what `relay` does, a removal what `RemoveGrpcClient` does. -/
theorem calls_alone_are_sequential (w : World) (p : Pool) (i : Nat) :
    (∀ rc, p.threads i = some (.relay rc .lock) → p.lock = none →
      ∃ k, p.exec w (List.replicate k (.step i)) =
        some { p with
          mgr := relay w rc.nodeId rc.onGetError rc.before rc.req rc.timeout rc.onCallError p.mgr
          threads := Function.update p.threads i (some (.relay rc .done)) }) ∧
    (∀ n, p.threads i = some (.remove n .read) →
      ∃ k, p.exec w (List.replicate k (.step i)) =
        some { p with mgr := removeGrpcClient n p.mgr
                      threads := Function.update p.threads i (some (.remove n .done)) }) := by
  refine ⟨fun rc start free => ?_, fun n start => ?_⟩
  case refine_1 =>
    rw [relay_eq_finish]
    cases resolved : resolve w rc.nodeId p.mgr with
    | dialed addr sc =>
        refine ⟨5, ?_⟩
        simp [exec, step, move, start, free, resolved, getClient]
    | cached sc | notFound | dialFailed addr e =>
        refine ⟨4, ?_⟩
        simp [exec, step, move, start, free, resolved, getClient, ClientManager.store]
  case refine_2 =>
    cases entry : p.mgr.cs n with
    | some client =>
        refine ⟨3, ?_⟩
        simp [exec, step, move, start, entry, removeGrpcClient]
    | none =>
        refine ⟨1, ?_⟩
        simp [exec, step, move, start, entry, removeGrpcClient]

/-- The pools the callers reach from `NewClientManager`, starting a call only when
`may` allows it. -/
inductive Reachable (w : World) (may : Pool → Call → Prop) : Pool → Prop
  | empty : Reachable w may empty
  | spawn {p : Pool} (call : Call) : Reachable w may p → may p call → Reachable w may (p.spawn call)
  | step {p p' : Pool} (i : Nat) : Reachable w may p → p.step w i = some p' → Reachable w may p'

/-- A removal of a node starts only when no other removal of that node is in flight. -/
def NoOverlap (p : Pool) : Call → Prop
  | .remove n => ∀ i pc, p.threads i = some (.remove n pc) → pc = .done
  | .relay _ => True

/-- Every call the schedule starts is one `may` allows where it starts. -/
def Allows (w : World) (may : Pool → Call → Prop) : Pool → List Action → Prop
  | _, [] => True
  | p, .spawn call :: rest => may p call ∧ Allows w may (p.spawn call) rest
  | p, .step i :: rest =>
      match p.step w i with
      | some p' => Allows w may p' rest
      | none => True

/-- A schedule run from a reachable pool, starting only calls `may` allows, reaches its end. -/
theorem Reachable.exec {w : World} {may : Pool → Call → Prop} :
    ∀ {acts : List Action} {p q : Pool}, p.Reachable w may → Allows w may p acts →
      p.exec w acts = some q → q.Reachable w may
  | [], _, _, reach, _, run => Option.some.inj run ▸ reach
  | .spawn call :: _, _, _, reach, ⟨may, rest⟩, run => exec (.spawn call reach may) rest run
  | .step i :: _, p, _, reach, allows, run => by
      simp only [Pool.exec] at run
      simp only [Allows] at allows
      split at run
      next p' stepped =>
        rw [stepped] at allows
        exact exec (.step i reach stepped) allows run
      next => cases run

theorem Reachable.exec_of {w : World} {may : Pool → Call → Prop} {p : Pool} {acts : List Action}
    {P : Pool → Prop} (reach : p.Reachable w may) (allows : Allows w may p acts)
    (run : ∃ q, p.exec w acts = some q ∧ P q) :
    ∃ q, p.exec w acts = some q ∧ q.Reachable w may ∧ P q := by
  obtain ⟨q, h, hq⟩ := run
  exact ⟨q, h, reach.exec allows h, hq⟩

/-- A schedule that starts relays only keeps removals from overlapping. -/
theorem allows_relays {w : World} : ∀ {p : Pool} {acts : List Action},
    (∀ call, .spawn call ∈ acts → ∃ rc, call = .relay rc) → Allows w NoOverlap p acts
  | _, [], _ => trivial
  | _, .spawn call :: _, relays => by
      obtain ⟨rc, rfl⟩ := relays call (List.mem_cons_self _ _)
      exact ⟨trivial, allows_relays fun c h => relays c (List.mem_cons_of_mem _ h)⟩
  | p, .step i :: _, relays => by
      simp only [Allows]
      split
      · exact allows_relays fun c h => relays c (List.mem_cons_of_mem _ h)
      · trivial

/-- Running to its end a schedule that starts relays only, from a reachable pool,
reaches a reachable pool. -/
theorem Reachable.exec_relays {w : World} {p : Pool} {acts : List Action}
    (reach : p.Reachable w NoOverlap) (relays : ∀ call, .spawn call ∈ acts → ∃ rc, call = .relay rc)
    (runs : (p.exec w acts).isSome) : ((p.exec w acts).getD Pool.empty).Reachable w NoOverlap := by
  obtain ⟨q, run⟩ := Option.isSome_iff_exists.mp runs
  rw [run]
  exact reach.exec (allows_relays relays) run

end Pool

end Comqtt.Cluster
