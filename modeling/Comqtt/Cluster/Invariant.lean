import Comqtt.Cluster.Ownership

/-! # The manager refines its trace

`Owned` is what every reachable manager keeps: its map is the one its trace
leaves, its trace is valid, and every handle the trace mentions is below the
next one a dial allocates. Each call of the pool keeps it, hence each relay,
each broadcast and each run.
-/

namespace Comqtt.Cluster

/-- The invariant of a reachable manager. -/
structure Owned (c : ClientManager) : Prop where
  cs_eq : ∀ n, c.cs n = cached n c.trace
  valid : Valid c.trace
  below : ∀ e ∈ c.trace, ∀ k ∈ e.conns, k < c.nextConn

namespace Owned

variable {c : ClientManager}

theorem empty : Owned ClientManager.empty where
  cs_eq _ := rfl
  valid := trivial
  below := by simp [ClientManager.empty]

/-- An entry's handle is below the next one. -/
theorem entry_below (own : Owned c) {n : String} {sc : Client} (h : c.cs n = some sc) :
    sc.conn < c.nextConn := by
  obtain ⟨e, he, hk⟩ := cached_mem ((own.cs_eq n).symm.trans h)
  exact own.below e he _ hk

theorem emit_quiet (own : Owned c) {es : List Event} (hq : ∀ e ∈ es, e.quiet) :
    Owned (c.emit es) where
  cs_eq n := by simp [own.cs_eq n, cached_append_quiet hq]
  valid := validFrom_append.mpr ⟨own.valid, validFrom_quiet hq _⟩
  below e he k hk := by
    rcases List.mem_append.mp he with he | he
    · exact own.below e he k hk
    · simp [Event.conns_of_quiet (hq e he)] at hk

theorem logs (own : Owned c) (lines : List Line) : Owned (c.logs lines) :=
  own.emit_quiet (by simp [Event.quiet])

/-- The call `getClient` records is valid after the trace. -/
theorem resolve_validAfter (own : Owned c) (w : World) (n : String) :
    (Event.getClient n (resolve w n c)).ValidAfter c.trace := by
  simp only [Event.ValidAfter, ← own.cs_eq n]
  cases h : c.cs n with
  | some sc => exact resolve_of_cached h
  | none =>
      obtain ⟨looked, fresh⟩ := resolve_of_absent w h
      refine ⟨looked, fun addr sc hd e he hk => ?_⟩
      have := own.below e he _ hk
      rw [fresh addr sc hd] at this
      exact lt_irrefl _ this

/-- The handle `getClient` records is below the next one after it. -/
theorem resolve_conns_below (own : Owned c) (w : World) (n : String) :
    ∀ k ∈ (Event.getClient n (resolve w n c)).conns, k < (getClient w n c).2.nextConn := by
  rw [getClient_nextConn]
  cases h : c.cs n with
  | some sc =>
      simp [resolve_of_cached h, Event.conns, own.entry_below h]
  | none =>
      obtain ⟨looked, fresh⟩ := resolve_of_absent w h
      generalize resolve w n c = res at looked fresh
      cases res <;> simp_all [Event.conns, Resolution.lookedUp]

theorem getClient (own : Owned c) (w : World) (n : String) : Owned (getClient w n c).2 where
  cs_eq m := by
    by_cases hm : m = n
    · subst hm
      simp [getClient_cs_self, Event.entryAfter]
    · simp [getClient_cs_of_ne w c hm, own.cs_eq m, Event.entryAfter, Ne.symm hm]
  valid := by
    simpa using And.intro own.valid (own.resolve_validAfter w n)
  below e he k hk := by
    rw [getClient_trace] at he
    rcases List.mem_append.mp he with he | he
    · exact lt_of_lt_of_le (own.below e he k hk) (getClient_nextConn_le w n c)
    · rw [List.mem_singleton.mp he] at hk
      exact own.resolve_conns_below w n k hk

/-- Recording one event valid after the trace, whose handles are below the next
one, with the map the event leaves, keeps the invariant. -/
theorem snoc (own : Owned c) (e : Event) (cs : String → Option Client)
    (entries : ∀ n, cs n = e.entryAfter n (c.cs n)) (valid : e.ValidAfter c.trace)
    (below : ∀ k ∈ e.conns, k < c.nextConn) : Owned ({ c with cs := cs }.emit [e]) where
  cs_eq n := by simp [entries, own.cs_eq n]
  valid := valid_snoc.mpr ⟨own.valid, valid⟩
  below x hx k hk := by
    rcases List.mem_append.mp hx with hx | hx
    · exact own.below x hx k hk
    · rw [List.mem_singleton.mp hx] at hk
      exact below k hk

/-- An RPC over the target's entry keeps the invariant. -/
theorem call (own : Owned c) {n : String} {client : Client} (h : c.cs n = some client)
    (w : World) (req : Request) (timeout : Nat) : Owned (c.call w n client req timeout).2 :=
  own.snoc (.call n client.conn req timeout _) c.cs (fun _ => rfl)
    ((own.cs_eq n).symm.trans h) (by simpa [Event.conns] using own.entry_below h)

theorem removeGrpcClient (own : Owned c) (n : String) : Owned (removeGrpcClient n c) := by
  have closes : c.cs n = cached n c.trace := own.cs_eq n
  unfold Cluster.removeGrpcClient
  split
  case h_1 client h =>
    refine own.snoc _ _ (fun m => ?_) (closes.symm.trans h).symm
      (by simpa [Event.conns] using own.entry_below h)
    by_cases hm : n = m
    · subst hm
      simp [Event.entryAfter]
    · simp [Event.entryAfter, hm, Function.update_noteq (Ne.symm hm)]
  case h_2 h =>
    refine own.snoc _ c.cs (fun m => ?_) (closes.symm.trans h).symm (by simp [Event.conns])
    by_cases hm : n = m
    · subst hm
      simp [Event.entryAfter, h]
    · simp [Event.entryAfter, hm]

/-- A `getClient` that returns a client leaves it as the entry. -/
theorem getClient_entry {w : World} {n : String} {client : Client}
    (h : (Cluster.getClient w n c).1 = .ok client) :
    (Cluster.getClient w n c).2.cs n = some client := by
  rw [getClient_cs_self, ← getClient_fst, h]
  rfl

theorem relay (own : Owned c) (w : World) (n : String) (onGetError : String → List Line)
    (before : List Line) (req : Request) (timeout : Nat) (onCallError : String → List Line) :
    Owned (Cluster.relay w n onGetError before req timeout onCallError c) := by
  unfold Cluster.relay
  have got := own.getClient w n
  split
  case h_1 err c' h => exact (h ▸ got).logs _
  case h_2 client c' h =>
      have entry : (c'.logs before).cs n = some client := by
        simpa [ClientManager.logs, h] using getClient_entry (congrArg Prod.fst h)
      have called := (h ▸ got).logs before |>.call entry w req timeout
      split
      case h_1 err c'' hc =>
          rw [hc] at called
          exact called.logs _
      case h_2 c'' hc =>
          rw [hc] at called
          exact called

theorem toOthers (own : Owned c) (a : Agent) (w : World)
    {attempt : String → ClientManager → ClientManager}
    (kept : ∀ n c, Owned c → Owned (attempt n c)) : Owned (Cluster.toOthers a w attempt c) := by
  unfold Cluster.toOthers
  generalize w.members c.now = ms
  suffices ∀ (rest : List Member) c', Owned c' →
      Owned (rest.foldl (fun c m => if m.name = a.localName then c else attempt m.name c) c') from
    this ms _ (own.emit_quiet (by simp [Event.quiet]))
  intro rest
  induction rest with
  | nil => exact fun _ h => h
  | cons m rest ih =>
      intro c' h
      apply ih
      dsimp only
      split
      · exact h
      · exact kept _ _ h

theorem step (own : Owned c) (a : Agent) (w : World) (op : Op) : Owned (Cluster.step a w c op) := by
  cases op with
  | getClient n => exact own.getClient w n
  | removeGrpcClient n => exact own.removeGrpcClient n
  | relayPublishPacket n msg => exact own.relay ..
  | connectNotifyToNode n clientId => exact own.relay ..
  | connectNotifyToOthers msg =>
      simp only [Cluster.step, connectNotifyToOthers]
      exact own.toOthers a w fun _ _ h => h.relay ..
  | relayRaftApply n msg => exact own.relay ..
  | raftApplyToOthers msg =>
      simp only [Cluster.step, raftApplyToOthers]
      exact own.toOthers a w fun _ _ h => h.relay ..
  | relayRaftJoin n => exact own.relay ..
  | raftJoinToOthers => exact own.toOthers a w fun _ _ h => h.relay ..

end Owned

theorem Reachable.owned {a : Agent} {w : World} {c : ClientManager} (h : Reachable a w c) :
    Owned c := by
  induction h with
  | empty => exact .empty
  | step op _ own => exact own.step a w op

end Comqtt.Cluster
