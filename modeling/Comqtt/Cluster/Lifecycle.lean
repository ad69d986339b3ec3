import Comqtt.Cluster.Ownership

/-! # The lifecycle of a pooled connection

Along a valid trace a connection a dial hands out is the entry of the node it
was dialed for until one `RemoveGrpcClient` of that node closes it. It is never
both, never closed twice, never dialed for two nodes, and once closed no later
call mentions it.
-/

namespace Comqtt.Cluster

/-- What a valid trace keeps of the connections it dials. -/
structure Lifecycle (tr : List Event) : Prop where
  /-- An entry is a connection dialed for its node and never closed. -/
  entry : ∀ n sc, cached n tr = some sc →
    (∃ addr, .getClient n (.dialed addr sc) ∈ tr) ∧ closeCount sc tr = 0
  /-- A dialed connection is its node's entry, or was closed once by its node's removal. -/
  dialed : ∀ n addr sc, .getClient n (.dialed addr sc) ∈ tr →
    (cached n tr = some sc ∧ closeCount sc tr = 0) ∨
      (cached n tr ≠ some sc ∧ closeCount sc tr = 1 ∧ .removeGrpcClient n (some sc) ∈ tr)
  /-- A connection is dialed for one node only. -/
  once : ∀ n n' addr addr' sc, .getClient n (.dialed addr sc) ∈ tr →
    .getClient n' (.dialed addr' sc) ∈ tr → n = n'

theorem closeCount_snoc (sc : Client) (tr : List Event) (e : Event) :
    closeCount sc (tr ++ [e]) = closeCount sc tr + if e.closes sc then 1 else 0 := by
  simp [closeCount, List.countP_append]
  split <;> simp_all

theorem Event.conn_mem_of_closes {e : Event} {sc : Client} (h : e.closes sc) :
    sc.conn ∈ e.conns := by
  cases e with
  | removeGrpcClient n closed =>
      cases closed <;> simp_all [closes, conns]
  | _ => simp [closes] at h

/-- A connection no event mentions was never closed. -/
theorem closeCount_of_fresh {sc : Client} {tr : List Event} (h : ∀ e ∈ tr, sc.conn ∉ e.conns) :
    closeCount sc tr = 0 :=
  List.countP_eq_zero.mpr fun e he hc => h e he (Event.conn_mem_of_closes hc)

theorem Event.validAfter_dialed {pre : List Event} {n addr : String} {sc : Client}
    (h : (Event.getClient n (.dialed addr sc)).ValidAfter pre) :
    cached n pre = none ∧ ∀ e ∈ pre, sc.conn ∉ e.conns := by
  simp only [ValidAfter] at h
  split at h
  · cases h
  · exact ⟨‹_›, h.2 addr sc rfl⟩

/-- A dial recorded after appending a dial is an earlier one, or the new one. -/
theorem mem_snoc_dialed {tr : List Event} {n a m addr : String} {sc sc' : Client} :
    Event.getClient n (.dialed a sc) ∈ tr ++ [.getClient m (.dialed addr sc')] ↔
      Event.getClient n (.dialed a sc) ∈ tr ∨ n = m ∧ a = addr ∧ sc = sc' := by
  simp

namespace Lifecycle

variable {tr : List Event}

theorem nil : Lifecycle [] where
  entry := by simp
  dialed := by simp
  once := by simp

/-- An event that changes no entry, closes nothing and dials nothing keeps the lifecycle. -/
theorem snoc_passive (life : Lifecycle tr) {e : Event}
    (kept : ∀ n, cached n (tr ++ [e]) = cached n tr) (noClose : ∀ sc, e.closes sc = false)
    (noDial : ∀ n addr sc, e ≠ .getClient n (.dialed addr sc)) : Lifecycle (tr ++ [e]) := by
  have count : ∀ sc, closeCount sc (tr ++ [e]) = closeCount sc tr := by
    simp [closeCount_snoc, noClose]
  have old : ∀ n addr sc, .getClient n (.dialed addr sc) ∈ tr ++ [e] →
      .getClient n (.dialed addr sc) ∈ tr := by
    intro n addr sc h
    simpa [(noDial n addr sc).symm] using h
  refine ⟨fun n sc h => ?_, fun n addr sc h => ?_, fun n n' addr addr' sc h h' => ?_⟩
  · rw [kept] at h
    obtain ⟨⟨addr, hd⟩, hc⟩ := life.entry n sc h
    exact ⟨⟨addr, List.mem_append_left _ hd⟩, by rw [count, hc]⟩
  · rw [kept, count]
    rcases life.dialed n addr sc (old n addr sc h) with live | ⟨gone, once, hr⟩
    · exact .inl live
    · exact .inr ⟨gone, once, List.mem_append_left _ hr⟩
  · exact life.once n n' addr addr' sc (old n addr sc h) (old n' addr' sc h')

/-- A dial of a handle no earlier event mentions, for a node without an entry,
makes it that node's entry. -/
theorem snoc_dial (life : Lifecycle tr) {m addr : String} {sc' : Client}
    (valid : (Event.getClient m (.dialed addr sc')).ValidAfter tr) :
    Lifecycle (tr ++ [.getClient m (.dialed addr sc')]) := by
  obtain ⟨absent, fresh⟩ := Event.validAfter_dialed valid
  have count : ∀ sc, closeCount sc (tr ++ [.getClient m (.dialed addr sc')]) = closeCount sc tr := by
    simp [closeCount_snoc, Event.closes]
  have other : ∀ n addr sc, .getClient n (.dialed addr sc) ∈ tr → sc ≠ sc' := by
    rintro n a sc hd rfl
    exact fresh _ hd (by simp [Event.conns])
  have entry : ∀ n, cached n (tr ++ [.getClient m (.dialed addr sc')]) =
      if m = n then some sc' else cached n tr := by
    intro n
    simp [Event.entryAfter, Resolution.result, Except.toOption]
  refine ⟨fun n sc h => ?_, fun n a sc h => ?_, fun n n' a a' sc h h' => ?_⟩
  · rw [entry] at h
    split at h
    · cases h
      subst m
      exact ⟨⟨addr, by simp⟩, by rw [count, closeCount_of_fresh fresh]⟩
    · obtain ⟨⟨a, hd⟩, hc⟩ := life.entry n sc h
      exact ⟨⟨a, List.mem_append_left _ hd⟩, by rw [count, hc]⟩
  · rw [entry, count]
    rcases mem_snoc_dialed.mp h with h | ⟨rfl, rfl, rfl⟩
    · rcases life.dialed n a sc h with ⟨live, hc⟩ | ⟨gone, hc, hr⟩
      · have hm : m ≠ n := by
          rintro rfl
          simp [absent] at live
        exact .inl ⟨by simpa [hm] using live, hc⟩
      · refine .inr ⟨?_, hc, List.mem_append_left _ hr⟩
        split
        · exact fun hs => other n a sc h (Option.some.inj hs).symm
        · exact gone
    · exact .inl ⟨by simp, closeCount_of_fresh fresh⟩
  · rcases mem_snoc_dialed.mp h with old | ⟨rfl, -, rfl⟩ <;>
      rcases mem_snoc_dialed.mp h' with old' | ⟨rfl, -, same⟩
    · exact life.once n n' a a' sc old old'
    · exact absurd same (other n a sc old)
    · exact absurd rfl (other n' a' _ old')
    · rfl

/-- Two nodes never share an entry. -/
theorem entry_unique (life : Lifecycle tr) {n m : String} {sc : Client}
    (hn : cached n tr = some sc) (hm : cached m tr = some sc) : n = m := by
  obtain ⟨⟨a, ha⟩, -⟩ := life.entry n sc hn
  obtain ⟨⟨b, hb⟩, -⟩ := life.entry m sc hm
  exact life.once n m a b sc ha hb

/-- Removing a node's entry closes it for good. -/
theorem snoc_close (life : Lifecycle tr) {m : String} {sc' : Client}
    (valid : (Event.removeGrpcClient m (some sc')).ValidAfter tr) :
    Lifecycle (tr ++ [.removeGrpcClient m (some sc')]) := by
  have live : cached m tr = some sc' := valid.symm
  obtain ⟨⟨a', hd'⟩, hc'⟩ := life.entry m sc' live
  have count : ∀ sc, closeCount sc (tr ++ [.removeGrpcClient m (some sc')]) =
      closeCount sc tr + if sc' = sc then 1 else 0 := by
    simp [closeCount_snoc, Event.closes]
  have entry : ∀ n, cached n (tr ++ [.removeGrpcClient m (some sc')]) =
      if m = n then none else cached n tr := by
    intro n
    simp [Event.entryAfter]
  have old : ∀ n addr sc, .getClient n (.dialed addr sc) ∈ tr ++ [.removeGrpcClient m (some sc')] →
      .getClient n (.dialed addr sc) ∈ tr := by
    intro n addr sc h
    simpa using h
  refine ⟨fun n sc h => ?_, fun n a sc h => ?_, fun n n' a a' sc h h' => ?_⟩
  · rw [entry] at h
    split at h
    · cases h
    · obtain ⟨⟨a, hd⟩, hc⟩ := life.entry n sc h
      have ne : sc' ≠ sc := by
        rintro rfl
        exact ‹¬m = n› (life.entry_unique live h)
      exact ⟨⟨a, List.mem_append_left _ hd⟩, by simp [count, hc, ne]⟩
  · have h := old n a sc h
    rw [entry, count]
    by_cases same : sc' = sc
    · subst same
      have hm : m = n := life.once m n a' a sc' hd' h
      subst hm
      exact .inr ⟨by simp, by simp [hc'], by simp⟩
    · simp only [same, if_false, Nat.add_zero]
      rcases life.dialed n a sc h with ⟨hl, hc⟩ | ⟨gone, hc, hr⟩
      · have hm : m ≠ n := by
          rintro rfl
          exact same (Option.some.inj (live.symm.trans hl))
        exact .inl ⟨by simpa [hm] using hl, hc⟩
      · refine .inr ⟨?_, hc, List.mem_append_left _ hr⟩
        split
        · simp
        · exact gone
  · exact life.once n n' a a' sc (old n a sc h) (old n' a' sc h')

/-- A `getClient` that dials nothing leaves every entry as it was. -/
theorem cached_snoc_getClient {m : String} {res : Resolution}
    (valid : (Event.getClient m res).ValidAfter tr) (noDial : ∀ addr sc, res ≠ .dialed addr sc)
    (n : String) : cached n (tr ++ [.getClient m res]) = cached n tr := by
  rw [cached_snoc]
  by_cases hm : m = n
  · subst hm
    simp only [Event.ValidAfter] at valid
    split at valid
    · simp_all [Event.entryAfter, Resolution.result, Except.toOption]
    · cases res <;> simp_all [Event.entryAfter, Resolution.result, Except.toOption,
        Resolution.lookedUp]
  · simp [Event.entryAfter, hm]

/-- Every valid step keeps the lifecycle. -/
theorem snoc (life : Lifecycle tr) {e : Event} (valid : e.ValidAfter tr) :
    Lifecycle (tr ++ [e]) := by
  cases e with
  | getClient m res =>
      cases res with
      | dialed addr sc => exact life.snoc_dial valid
      | cached sc | notFound | dialFailed =>
          exact life.snoc_passive (cached_snoc_getClient valid (by simp))
            (by simp [Event.closes]) (by simp)
  | removeGrpcClient m closed =>
      cases closed with
      | some sc => exact life.snoc_close valid
      | none =>
          refine life.snoc_passive (fun n => ?_) (by simp [Event.closes]) (by simp)
          by_cases hm : m = n
          · subst hm
            simp [Event.entryAfter, show cached m tr = none from valid.symm]
          · simp [Event.entryAfter, hm]
  | members | call | log =>
      exact life.snoc_passive (by simp [Event.entryAfter]) (by simp [Event.closes]) (by simp)

end Lifecycle

/-- Every valid trace keeps the lifecycle. -/
theorem Valid.lifecycle {tr : List Event} (valid : Valid tr) : Lifecycle tr := by
  induction tr using List.reverseRecOn with
  | nil => exact .nil
  | append_singleton tr e ih =>
      rw [valid_snoc] at valid
      exact (ih valid.1).snoc valid.2

/-- Once closed, a connection is no entry, and no valid call mentions it. -/
theorem Lifecycle.closed_unused {tr : List Event} (life : Lifecycle tr) {sc : Client}
    (closed : 0 < closeCount sc tr) {e : Event} (valid : e.ValidAfter tr) : sc.conn ∉ e.conns := by
  have noEntry : ∀ m, cached m tr ≠ some sc := fun m h => by
    rw [(life.entry m sc h).2] at closed
    exact lt_irrefl 0 closed
  have seen : ∃ x ∈ tr, sc.conn ∈ x.conns := by
    obtain ⟨x, hx, hc⟩ := List.countP_pos_iff.mp closed
    exact ⟨x, hx, Event.conn_mem_of_closes hc⟩
  cases e with
  | getClient m res =>
      simp only [Event.ValidAfter] at valid
      split at valid
      · subst valid
        simp only [Event.conns, List.mem_singleton]
        intro h
        exact noEntry m (by rwa [Client.ext h] at *)
      · obtain ⟨x, hx, hc⟩ := seen
        cases res with
        | cached => simp [Resolution.lookedUp] at valid
        | dialed addr sc' =>
            simp only [Event.conns, List.mem_singleton]
            exact fun h => valid.2 addr sc' rfl x hx (h ▸ hc)
        | notFound | dialFailed => simp [Event.conns]
  | removeGrpcClient m closed =>
      cases closed with
      | none => simp [Event.conns]
      | some sc' =>
          simp only [Event.conns, List.mem_singleton]
          intro h
          exact noEntry m (by rw [← (show sc' = sc from Client.ext h.symm)]; exact valid.symm)
  | call m conn req timeout err =>
      have hv : cached m tr = some ⟨conn⟩ := valid
      simp only [Event.conns, List.mem_singleton]
      exact fun h => noEntry m (hv.trans (congrArg some (Client.ext h.symm)))
  | members | log => simp [Event.conns]


end Comqtt.Cluster
