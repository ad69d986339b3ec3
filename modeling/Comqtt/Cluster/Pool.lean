import Comqtt.Cluster.Message
import Mathlib.Logic.Function.Basic

/-! # The client pool

`ClientManager` keeps one `client` per node id in `cs`. `getClient` returns the
cached client, or resolves the node through the membership directory and dials
it; `RemoveGrpcClient` evicts and closes. `getClient` holds the manager's mutex
for the whole call, so each call is one atomic step here.

What the pool asks of the world (the membership directory, the outcome of a dial
and of an RPC) is answered by a `World` indexed by the moment of the call, so the
directory may change and every dial or RPC may fail between any two calls. Each
call is recorded as one `Event` with what it consulted and what it got: properties
of whole runs are properties of the trace.
-/

namespace Comqtt.Cluster

/-- `ReqTimeout`, in milliseconds. -/
def reqTimeout : Nat := 1000

/-- `keepalive.ClientParameters` (durations in milliseconds). -/
structure ClientParameters where
  time : Nat
  timeout : Nat
  permitWithoutStream : Bool
  deriving DecidableEq, Repr

/-- `kacp`. -/
def kacp : ClientParameters := { time := 10000, timeout := 1000, permitWithoutStream := true }

/-- The options `getClient` dials with: the context deadline, insecure transport
credentials, wait-for-ready calls, the retry interceptor's exponential backoff
and attempt bound, and the keepalive parameters. -/
structure DialOptions where
  timeout : Nat
  insecure : Bool
  waitForReady : Bool
  retryBackoff : Nat
  retryMax : Nat
  keepalive : ClientParameters
  deriving DecidableEq, Repr

/-- The options of `getClient`'s `grpc.DialContext`. -/
def dialOptions : DialOptions :=
  { timeout := 3 * reqTimeout, insecure := true, waitForReady := true,
    retryBackoff := reqTimeout, retryMax := 3, keepalive := kacp }

/-- A record of the membership directory as far as the relay code reads it: its
`Name` and the address `getGrpcAddr` projects from it. -/
structure Member where
  name : String
  grpcAddr : String
  deriving DecidableEq, Repr

/-- `getGrpcAddr`. -/
def getGrpcAddr (m : Member) : String := m.grpcAddr

/-- `client`: a dialed connection and the stub bound to it. The stub is a function
of the connection, so the connection's handle identifies the client. -/
@[ext] structure Client where
  conn : Nat
  deriving DecidableEq, Repr

/-- The world's answers at each moment `t`: the `Members()` snapshot, the
`getNodeMember` lookup, and the error of a dial of an address or of an RPC on a
connection with a deadline (`none` when it succeeds). -/
structure World where
  members : Nat → List Member
  getNodeMember : Nat → String → Option Member
  dial : Nat → String → DialOptions → Option String
  call : Nat → Nat → Request → Nat → Option String

/-- What one `getClient` call did. -/
inductive Resolution where
  /-- The node was in `cs`: nothing was consulted. -/
  | cached (sc : Client)
  /-- The directory had no member, or the member's address was empty. -/
  | notFound
  /-- The dial of `addr` failed with `err`. -/
  | dialFailed (addr err : String)
  /-- The dial of `addr` succeeded and `sc` was stored. -/
  | dialed (addr : String) (sc : Client)
  deriving DecidableEq, Repr

namespace Resolution

/-- What `getClient` returns: the client, or its error. -/
def result : Resolution → Except String Client
  | .cached sc | .dialed _ sc => .ok sc
  | .notFound => .error "node not found"
  | .dialFailed _ err => .error ("dialing failed: " ++ err)

/-- Whether the call consulted the membership directory. -/
def lookedUp : Resolution → Bool
  | .cached _ => false
  | _ => true

end Resolution

/-- A log level. -/
inductive Level where
  | debug | info | warn | error
  deriving DecidableEq, Repr

/-- One structured log line. -/
structure Line where
  level : Level
  msg : String
  fields : List (String × String)
  deriving DecidableEq, Repr

/-- One recorded call of the client side. -/
inductive Event where
  /-- `Members()` returned the snapshot `ms`. -/
  | members (ms : List Member)
  /-- A `getClient(nodeId)` call and what it did. -/
  | getClient (nodeId : String) (res : Resolution)
  /-- A `RemoveGrpcClient(nodeId)` call and the client it closed, if any. -/
  | removeGrpcClient (nodeId : String) (closed : Option Client)
  /-- An RPC toward `nodeId` on `conn` with a deadline, and its error, if any. -/
  | call (nodeId : String) (conn : Nat) (req : Request) (timeout : Nat) (err : Option String)
  /-- A log line. -/
  | log (line : Line)
  deriving DecidableEq, Repr

/-- The client side of one node: the manager's map `cs`, the next connection
handle a successful dial allocates, and the trace of every call so far. -/
structure ClientManager where
  cs : String → Option Client
  nextConn : Nat
  trace : List Event

namespace ClientManager

/-- `NewClientManager`: an empty map, nothing dialed, nothing recorded. -/
def empty : ClientManager := { cs := fun _ => none, nextConn := 0, trace := [] }

/-- The moment of the next call: how many calls came before it. -/
def now (c : ClientManager) : Nat := c.trace.length

/-- Record the events `es`. -/
def emit (c : ClientManager) (es : List Event) : ClientManager :=
  { c with trace := c.trace ++ es }

/-- `c.cs[nodeId] = wrapClient` for a newly dialed client; nothing otherwise. -/
def store (c : ClientManager) (nodeId : String) : Resolution → ClientManager
  | .dialed _ sc =>
      { c with cs := Function.update c.cs nodeId (some sc), nextConn := c.nextConn + 1 }
  | _ => c

@[simp] theorem emit_cs (c : ClientManager) (es : List Event) : (c.emit es).cs = c.cs := rfl
@[simp] theorem emit_nextConn (c : ClientManager) (es : List Event) :
    (c.emit es).nextConn = c.nextConn := rfl
@[simp] theorem emit_trace (c : ClientManager) (es : List Event) :
    (c.emit es).trace = c.trace ++ es := rfl
@[simp] theorem store_trace (c : ClientManager) (nodeId : String) (res : Resolution) :
    (c.store nodeId res).trace = c.trace := by
  cases res <;> rfl

theorem store_cs_of_ne (c : ClientManager) {nodeId other : String} (res : Resolution)
    (ne : other ≠ nodeId) : (c.store nodeId res).cs other = c.cs other := by
  cases res <;> simp [store, Function.update_noteq ne]

end ClientManager

/-- `getNodeAddr`, given what `getNodeMember(nodeId)` answered. -/
def getNodeAddr : Option Member → String × Option String
  | none => ("", some "node not found")
  | some m => (getGrpcAddr m, none)

/-- The decisions of `getClient(nodeId)`: the cached client; otherwise the
address, the not-found exit when it is empty or unknown, and the dial. -/
def resolve (w : World) (nodeId : String) (c : ClientManager) : Resolution :=
  match c.cs nodeId with
  | some sc => .cached sc
  | none =>
      let (addr, err) := getNodeAddr (w.getNodeMember c.now nodeId)
      if addr = "" ∨ err.isSome then .notFound
      else
        match w.dial c.now addr dialOptions with
        | some e => .dialFailed addr e
        | none => .dialed addr ⟨c.nextConn⟩

/-- `getClient`: resolve, store a newly dialed client under `nodeId`, return. -/
def getClient (w : World) (nodeId : String) (c : ClientManager) :
    Except String Client × ClientManager :=
  let res := resolve w nodeId c
  (res.result, (c.store nodeId res).emit [.getClient nodeId res])

/-- `RemoveGrpcClient`: delete the entry and close its connection, when there is one. -/
def removeGrpcClient (nodeId : String) (c : ClientManager) : ClientManager :=
  match c.cs nodeId with
  | some client =>
      { c with cs := Function.update c.cs nodeId none }.emit
        [.removeGrpcClient nodeId (some client)]
  | none => c.emit [.removeGrpcClient nodeId none]

/-! ## What `getClient` can do -/

theorem resolve_of_cached {w : World} {nodeId : String} {c : ClientManager} {sc : Client}
    (h : c.cs nodeId = some sc) : resolve w nodeId c = .cached sc := by
  simp [resolve, h]

/-- Without an entry, `getClient` consults the directory, and a client it
returns is a new one, under the next handle. -/
theorem resolve_of_absent (w : World) {nodeId : String} {c : ClientManager}
    (h : c.cs nodeId = none) :
    (resolve w nodeId c).lookedUp ∧
      ∀ addr sc, resolve w nodeId c = .dialed addr sc → sc.conn = c.nextConn := by
  simp only [resolve, h]
  split
  · simp [Resolution.lookedUp]
  · split
    · simp [Resolution.lookedUp]
    · refine ⟨rfl, fun _ _ dialed => ?_⟩
      cases dialed
      rfl

theorem resolve_result_ok {w : World} {nodeId : String} {c : ClientManager} {sc : Client}
    (h : (resolve w nodeId c).result = .ok sc) :
    resolve w nodeId c = .cached sc ∨ ∃ addr, resolve w nodeId c = .dialed addr sc := by
  generalize resolve w nodeId c = res at h
  cases res <;> simp_all [Resolution.result]

/-- A `getClient` changes no other node's entry. -/
theorem getClient_cs_of_ne (w : World) {nodeId other : String} (c : ClientManager)
    (ne : other ≠ nodeId) : (getClient w nodeId c).2.cs other = c.cs other :=
  c.store_cs_of_ne _ ne

/-- A failed `getClient` leaves the map exactly as it was. -/
theorem getClient_cs_of_error {w : World} {nodeId : String} {c : ClientManager} {err : String}
    (h : (getClient w nodeId c).1 = .error err) : (getClient w nodeId c).2.cs = c.cs := by
  simp only [getClient] at h ⊢
  generalize resolve w nodeId c = res at h
  cases res <;> simp_all [Resolution.result, ClientManager.store]

@[simp] theorem getClient_fst (w : World) (nodeId : String) (c : ClientManager) :
    (getClient w nodeId c).1 = (resolve w nodeId c).result := rfl

@[simp] theorem getClient_trace (w : World) (nodeId : String) (c : ClientManager) :
    (getClient w nodeId c).2.trace = c.trace ++ [.getClient nodeId (resolve w nodeId c)] := by
  simp [getClient]

/-- After `getClient(nodeId)` the entry for `nodeId` is the client it returned, if any. -/
theorem getClient_cs_self (w : World) (nodeId : String) (c : ClientManager) :
    (getClient w nodeId c).2.cs nodeId = (resolve w nodeId c).result.toOption := by
  cases h : c.cs nodeId with
  | some sc =>
      simp [getClient, resolve_of_cached h, ClientManager.store, h, Resolution.result,
        Except.toOption]
  | none =>
      have looked := (resolve_of_absent w h).1
      simp only [getClient]
      generalize resolve w nodeId c = res at looked
      cases res <;> simp_all [ClientManager.store, Resolution.result, Resolution.lookedUp,
        Except.toOption]

/-- Only a dial allocates a handle, and it allocates the next one. -/
theorem getClient_nextConn (w : World) (nodeId : String) (c : ClientManager) :
    (getClient w nodeId c).2.nextConn =
      match resolve w nodeId c with
      | .dialed _ _ => c.nextConn + 1
      | _ => c.nextConn := by
  simp only [getClient, ClientManager.emit_nextConn]
  generalize resolve w nodeId c = res
  cases res <;> rfl

theorem getClient_nextConn_le (w : World) (nodeId : String) (c : ClientManager) :
    c.nextConn ≤ (getClient w nodeId c).2.nextConn := by
  rw [getClient_nextConn]
  split <;> simp

/-- `RemoveGrpcClient` of a node without an entry closes nothing and changes nothing. -/
theorem removeGrpcClient_of_absent {nodeId : String} {c : ClientManager}
    (h : c.cs nodeId = none) :
    removeGrpcClient nodeId c = c.emit [.removeGrpcClient nodeId none] := by
  simp [removeGrpcClient, h]

/-- After `RemoveGrpcClient(nodeId)` there is no entry for `nodeId`. -/
@[simp] theorem removeGrpcClient_cs_self (nodeId : String) (c : ClientManager) :
    (removeGrpcClient nodeId c).cs nodeId = none := by
  unfold removeGrpcClient
  split <;> simp_all

end Comqtt.Cluster
