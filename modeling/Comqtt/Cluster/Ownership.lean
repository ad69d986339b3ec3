import Comqtt.Cluster.Relay
import Mathlib.Data.List.Basic

/-! # What the pool owns

The trace determines the pool. `cached n tr` is the client the last
`getClient(n)` of `tr` returned, unless a `RemoveGrpcClient(n)` came after it,
and the map of every reachable manager is exactly that. `ValidAfter` says what
the pool lets a call be after a trace: a hit exactly when there is an entry, a
handle no earlier call mentions from every dial, a removal that closes exactly
the entry, an RPC over the target's entry. Every reachable trace is valid, and
the laws of the pool are laws of valid traces.
-/

namespace Comqtt.Cluster

namespace Event

/-- The entry for `n` after the event, given the entry before it. -/
def entryAfter (n : String) (entry : Option Client) : Event → Option Client
  | .getClient m res => if m = n then res.result.toOption else entry
  | .removeGrpcClient m _ => if m = n then none else entry
  | _ => entry

/-- The connection handles the event mentions. -/
def conns : Event → List Nat
  | .getClient _ (.cached sc) | .getClient _ (.dialed _ sc) => [sc.conn]
  | .removeGrpcClient _ (some sc) => [sc.conn]
  | .call _ conn _ _ _ => [conn]
  | _ => []

/-- Whether the event closes `sc`. -/
def closes (sc : Client) : Event → Bool
  | .removeGrpcClient _ (some closed) => closed = sc
  | _ => false

/-- A snapshot or a log line: it neither touches the pool nor uses a connection. -/
def quiet : Event → Bool
  | .members _ | .log _ => true
  | _ => false

end Event

/-- The entry for `n` that the trace `tr` leaves. -/
def cached (n : String) (tr : List Event) : Option Client :=
  tr.foldl (Event.entryAfter n) none

/-- What the pool lets the event be after the trace `pre`. -/
def Event.ValidAfter (pre : List Event) : Event → Prop
  | .getClient n res =>
      match cached n pre with
      | some sc => res = .cached sc
      | none => res.lookedUp ∧ ∀ addr sc, res = .dialed addr sc → ∀ e ∈ pre, sc.conn ∉ e.conns
  | .removeGrpcClient n closed => closed = cached n pre
  | .call n conn _ _ _ => cached n pre = some ⟨conn⟩
  | _ => True

/-- Every event of `tr` is valid after `pre` and the events of `tr` before it. -/
def ValidFrom (pre : List Event) : List Event → Prop
  | [] => True
  | e :: tr => e.ValidAfter pre ∧ ValidFrom (pre ++ [e]) tr

/-- A valid trace: every event is valid after the events before it. -/
def Valid (tr : List Event) : Prop := ValidFrom [] tr

/-- How many times the trace closes `sc`. -/
def closeCount (sc : Client) (tr : List Event) : Nat := tr.countP (Event.closes sc)

/-! ## Trace lemmas -/

@[simp] theorem cached_nil (n : String) : cached n [] = none := rfl

@[simp] theorem cached_snoc (n : String) (tr : List Event) (e : Event) :
    cached n (tr ++ [e]) = e.entryAfter n (cached n tr) := by
  simp [cached]

theorem validFrom_append {pre xs ys : List Event} :
    ValidFrom pre (xs ++ ys) ↔ ValidFrom pre xs ∧ ValidFrom (pre ++ xs) ys := by
  induction xs generalizing pre with
  | nil => simp [ValidFrom]
  | cons e xs ih => simp [ValidFrom, ih, and_assoc]

@[simp] theorem valid_snoc {tr : List Event} {e : Event} :
    Valid (tr ++ [e]) ↔ Valid tr ∧ e.ValidAfter tr := by
  simp [Valid, validFrom_append, ValidFrom]

/-- An event of a valid trace is valid after the events before it. -/
theorem Valid.split {pre post : List Event} {e : Event} (h : Valid (pre ++ e :: post)) :
    Valid pre ∧ e.ValidAfter pre ∧ ValidFrom (pre ++ [e]) post := by
  obtain ⟨hpre, he, hpost⟩ := validFrom_append.mp h
  exact ⟨hpre, he, hpost⟩

namespace Event

theorem entryAfter_of_quiet {e : Event} (hq : e.quiet) (n : String) (entry : Option Client) :
    e.entryAfter n entry = entry := by
  cases e <;> simp_all [quiet, entryAfter]

theorem validAfter_of_quiet {e : Event} (hq : e.quiet) (pre : List Event) : e.ValidAfter pre := by
  cases e <;> simp_all [quiet, ValidAfter]

theorem conns_of_quiet {e : Event} (hq : e.quiet) : e.conns = [] := by
  cases e <;> simp_all [quiet, conns]

end Event

theorem cached_append_quiet {es : List Event} (hq : ∀ e ∈ es, e.quiet) (n : String)
    (tr : List Event) : cached n (tr ++ es) = cached n tr := by
  induction es using List.reverseRecOn with
  | nil => simp
  | append_singleton es e ih =>
      simp only [List.mem_append, List.mem_singleton] at hq
      rw [← List.append_assoc, cached_snoc, ih (fun x hx => hq x (.inl hx)),
        Event.entryAfter_of_quiet (hq e (.inr rfl))]

theorem validFrom_quiet {es : List Event} (hq : ∀ e ∈ es, e.quiet) (pre : List Event) :
    ValidFrom pre es := by
  induction es generalizing pre with
  | nil => trivial
  | cons e es ih =>
      simp only [List.mem_cons] at hq
      exact ⟨Event.validAfter_of_quiet (hq e (.inl rfl)) pre, ih (fun x hx => hq x (.inr hx)) _⟩

/-- An event sets an entry only to a client it mentions. -/
theorem Event.entryAfter_eq_some {e : Event} {n : String} {entry : Option Client} {sc : Client}
    (h : e.entryAfter n entry = some sc) : entry = some sc ∨ sc.conn ∈ e.conns := by
  cases e with
  | getClient m res =>
      by_cases hm : m = n
      · cases res <;> simp_all [entryAfter, Resolution.result, Except.toOption, conns]
      · simp_all [entryAfter]
  | removeGrpcClient m closed =>
      by_cases hm : m = n <;> simp_all [entryAfter]
  | members | call | log => exact .inl h

/-- A client the trace leaves as an entry was handed out by one of its events. -/
theorem cached_mem {n : String} {sc : Client} {tr : List Event} (h : cached n tr = some sc) :
    ∃ e ∈ tr, sc.conn ∈ e.conns := by
  induction tr using List.reverseRecOn with
  | nil => simp at h
  | append_singleton tr e ih =>
      rw [cached_snoc] at h
      rcases Event.entryAfter_eq_some h with h | h
      · obtain ⟨x, hx, hc⟩ := ih h
        exact ⟨x, List.mem_append_left _ hx, hc⟩
      · exact ⟨e, List.mem_append_right _ (List.mem_singleton_self e), h⟩

/-! ## Hits and re-dials -/

/-- After an event valid where `n`'s entry is `sc`, other than a removal of `n`,
the entry is still `sc`, and a `getClient(n)` there was a hit on it. -/
theorem Event.ValidAfter.keeps_entry {pre : List Event} {e : Event} {n : String} {sc : Client}
    (valid : e.ValidAfter pre) (h : cached n pre = some sc)
    (notRemoved : ∀ closed, e ≠ .removeGrpcClient n closed) :
    cached n (pre ++ [e]) = some sc ∧ ∀ res, e = .getClient n res → res = .cached sc := by
  cases e with
  | getClient m res =>
      by_cases hm : m = n
      · subst hm
        simp only [ValidAfter, h] at valid
        subst valid
        simp [entryAfter, h, Resolution.result, Except.toOption]
      · simp [entryAfter, hm, h]
  | removeGrpcClient m closed =>
      have hm : m ≠ n := fun hm => notRemoved closed (by rw [hm])
      simp [entryAfter, hm, h]
  | members | call | log => simp [entryAfter, h]

/-- From a `getClient(n)` that returned `sc` up to the next `RemoveGrpcClient(n)`,
`n`'s entry is `sc` and every `getClient(n)` is a hit on it. -/
theorem ValidFrom.stable {n : String} {sc : Client} :
    ∀ {pre mid : List Event}, ValidFrom pre mid → cached n pre = some sc →
      (∀ closed, Event.removeGrpcClient n closed ∉ mid) →
      cached n (pre ++ mid) = some sc ∧ ∀ res, Event.getClient n res ∈ mid → res = .cached sc
  | pre, [], _, h, _ => by simpa using h
  | pre, e :: mid, ⟨valid, rest⟩, h, notRemoved => by
      have first := valid.keeps_entry h fun closed he => notRemoved closed (he ▸ List.mem_cons_self _ _)
      have later := rest.stable first.1 fun closed hc => notRemoved closed (List.mem_cons_of_mem _ hc)
      refine ⟨by simpa using later.1, fun res hres => ?_⟩
      rcases List.mem_cons.mp hres with he | hmid
      · exact first.2 res he.symm
      · exact later.2 res hmid

end Comqtt.Cluster
