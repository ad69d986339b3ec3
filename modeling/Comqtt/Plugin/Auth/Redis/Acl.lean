import Comqtt.Plugin.Auth.Redis.Connect

/-! # The ACL check of the Redis auth plugin

`OnACLCheck` allows everything in anonymous mode and defers to the blacklist when
it has a verdict. Otherwise it reads the hash of the client's ACL key, keeps
each filter that matches the topic and whose value `strconv.Atoi` parses, stores
that value converted to an `auth.Access` byte, and hands the map to `CheckAcl`.
The conversion keeps the value's low byte, so the map is the intended one exactly
when no matching value lies outside `0..255`.
-/

namespace Comqtt.Plugin.Auth.Redis

/-- The collaborators of `OnACLCheck`: the blacklist's `CheckBLAcl`, the client's
`HGetAll(...).Result()`, `plugin.MatchTopic` and `pa.CheckAcl`. An ACL map is a
function from filter to access byte. -/
structure AclEnv where
  checkBLAcl : Client → String → Bool → Int × Bool
  hGetAll : String → Hash × Option RedisError
  matchTopic : String → String → Bool
  checkAcl : (String → Option UInt8) → Bool → Bool

variable (modes : AuthModes)

/-- The key `OnACLCheck` reads: the username or the client id, by mode; none in
any other mode. -/
def aclUid (o : Options) (cl : Client) : Option String :=
  if o.aclMode = modes.authUsername then some cl.username
  else if o.aclMode = modes.authClientID then some cl.id
  else none

/-- In client-id mode the ACL key is the client's id. -/
theorem aclUid_of_clientID {o : Options} (cl : Client) (mode : o.aclMode = modes.authClientID) :
    aclUid modes o cl = some cl.id := by
  simp [aclUid, mode, modes.username_ne_clientID.symm]

/-- One iteration of the loop over the hash: skip a filter that does not match
the topic or whose value does not parse, store `auth.Access(access)` otherwise. -/
def aclStep (matchTopic : String → String → Bool) (topic : String)
    (fam : String → Option UInt8) (entry : String × String) : String → Option UInt8 :=
  if !matchTopic entry.1 topic then fam
  else
    match Go.atoi entry.2 with
    | none => fam
    | some access => Function.update fam entry.1 (some (Go.byteOfInt access))

/-- `OnACLCheck`. -/
def onACLCheck (env : AclEnv) (o : Options) (cl : Client) (topic : String) (write : Bool) : Bool :=
  if o.aclMode = modes.authAnonymous then true
  else
    let (n, ok) := env.checkBLAcl cl topic write
    if 0 ≤ n then ok
    else
      match aclUid modes o cl with
      | none => false
      | some key =>
          let (res, err) := env.hGetAll (getAclKey o key)
          if err.isSome ∧ err ≠ some .nil then false
          else env.checkAcl (res.entries.foldl (aclStep env.matchTopic topic) fun _ => none) write

/-- The map `fam` the loop builds from a hash, read entry by entry: each filter
that matches the topic and whose value parses, to the value's low byte. -/
def famOf (matchTopic : String → String → Bool) (topic : String) (res : Hash) (f : String) :
    Option UInt8 :=
  match res.entries.lookup f with
  | some rw => if matchTopic f topic then (Go.atoi rw).map Go.byteOfInt else none
  | none => none

theorem aclStep_of_ne {matchTopic : String → String → Bool} {topic : String}
    {fam : String → Option UInt8} {k v f : String} (hf : f ≠ k) :
    aclStep matchTopic topic fam (k, v) f = fam f := by
  unfold aclStep
  split
  · rfl
  · cases Go.atoi v <;> simp [Function.update_noteq hf]

theorem aclStep_self (matchTopic : String → String → Bool) (topic : String)
    (fam : String → Option UInt8) (k v : String) :
    aclStep matchTopic topic fam (k, v) k =
      if matchTopic k topic then ((Go.atoi v).map Go.byteOfInt).or (fam k) else fam k := by
  unfold aclStep
  cases matchTopic k topic
  · rfl
  · cases Go.atoi v <;> simp

theorem lookup_of_not_mem {k : String} :
    ∀ {l : List (String × String)}, k ∉ l.map Prod.fst → l.lookup k = none
  | [], _ => rfl
  | (k', v) :: rest, h => by
      simp only [List.map_cons, List.mem_cons, not_or] at h
      have ne : (k == k') = false := by simpa using h.1
      simp [List.lookup_cons, ne, lookup_of_not_mem h.2]

/-- The loop stores, for each filter of the hash that matches the topic and whose
value parses, the value's low byte. -/
theorem foldl_aclStep (matchTopic : String → String → Bool) (topic : String) :
    ∀ (entries : List (String × String)) (fam : String → Option UInt8),
      (entries.map Prod.fst).Nodup → ∀ f,
      entries.foldl (aclStep matchTopic topic) fam f =
        match entries.lookup f with
        | some rw => if matchTopic f topic then ((Go.atoi rw).map Go.byteOfInt).or (fam f) else fam f
        | none => fam f
  | [], _, _, _ => rfl
  | (k, v) :: rest, fam, nodup, f => by
      simp only [List.map_cons, List.nodup_cons] at nodup
      rw [List.foldl_cons, foldl_aclStep matchTopic topic rest _ nodup.2 f]
      by_cases hf : f = k
      · subst hf
        simp [lookup_of_not_mem nodup.1, aclStep_self]
      · have ne : (f == k) = false := by simpa using hf
        simp [List.lookup_cons, ne, aclStep_of_ne hf]

/-- Past the anonymous mode and the blacklist, with a key for the mode and a hash
read without error, `OnACLCheck` hands `CheckAcl` the map `famOf` reads off the
hash. -/
theorem onACLCheck_eq_famOf (env : AclEnv) (o : Options) (cl : Client) (topic : String)
    (write : Bool) {key : String} {res : Hash} {err : Option RedisError}
    (mode : o.aclMode ≠ modes.authAnonymous) (listed : (env.checkBLAcl cl topic write).1 < 0)
    (uid : aclUid modes o cl = some key) (read : env.hGetAll (getAclKey o key) = (res, err))
    (noErr : err = none ∨ err = some .nil) :
    onACLCheck modes env o cl topic write = env.checkAcl (famOf env.matchTopic topic res) write := by
  have skip : ¬ (err.isSome ∧ err ≠ some .nil) := by
    rcases noErr with rfl | rfl <;> simp
  simp only [onACLCheck, mode, if_false, not_le.mpr listed, uid, read, skip]
  congr 1
  funext f
  rw [foldl_aclStep _ _ _ _ res.nodup, famOf]
  split <;> simp

/-- Follows the spec, not the source: the map the ACL check is meant to hand
`CheckAcl`, which sends each filter of the hash that matches the topic and whose
value is a decimal integer in the range of `auth.Access` to that integer. -/
def intendedAcl (matchTopic : String → String → Bool) (topic : String) (res : Hash) (f : String) :
    Option UInt8 :=
  match res.entries.lookup f with
  | some rw =>
      if matchTopic f topic then
        match Go.atoi rw with
        | some v => if 0 ≤ v ∧ v < 256 then some (UInt8.ofNat v.toNat) else none
        | none => none
      else none
  | none => none

/-- Every value of a filter matching the topic that `strconv.Atoi` parses lies in
the range of `auth.Access`. -/
def AclValuesInRange (matchTopic : String → String → Bool) (topic : String) (res : Hash) : Prop :=
  ∀ f rw v, res.entries.lookup f = some rw → matchTopic f topic = true → Go.atoi rw = some v →
    0 ≤ v ∧ v < 256

/-- The map the loop builds is the intended one exactly on hashes whose matching
values lie in range. -/
theorem famOf_eq_intendedAcl_iff (matchTopic : String → String → Bool) (topic : String)
    (res : Hash) :
    famOf matchTopic topic res = intendedAcl matchTopic topic res ↔
      AclValuesInRange matchTopic topic res := by
  constructor
  · intro same f rw v hl hm ha
    by_contra out
    have at_f := congrFun same f
    simp [famOf, intendedAcl, hl, hm, ha, out] at at_f
  · intro inRange
    funext f
    unfold famOf intendedAcl
    split
    case h_1 rw hl =>
      split
      case isTrue hm =>
        cases ha : Go.atoi rw with
        | none => rfl
        | some v =>
            obtain ⟨lower, upper⟩ := inRange f rw v hl hm ha
            simp [lower, upper, Go.byteOfInt_of_lt lower upper]
      case isFalse => rfl
    case h_2 => rfl

/-- Past the anonymous mode and the blacklist, with a key for the mode and a hash
read without error, `OnACLCheck` hands every `CheckAcl` the intended map exactly
when every matching value that parses lies in the range of `auth.Access`. -/
theorem onACLCheck_intended_iff_in_range (env : AclEnv) (o : Options) (cl : Client)
    (topic : String) (write : Bool) {key : String} {res : Hash} {err : Option RedisError}
    (mode : o.aclMode ≠ modes.authAnonymous) (listed : (env.checkBLAcl cl topic write).1 < 0)
    (uid : aclUid modes o cl = some key) (read : env.hGetAll (getAclKey o key) = (res, err))
    (noErr : err = none ∨ err = some .nil) :
    (∀ checkAcl : (String → Option UInt8) → Bool → Bool,
        onACLCheck modes { env with checkAcl := checkAcl } o cl topic write =
          checkAcl (intendedAcl env.matchTopic topic res) write) ↔
      AclValuesInRange env.matchTopic topic res := by
  have built : ∀ checkAcl : (String → Option UInt8) → Bool → Bool,
      onACLCheck modes { env with checkAcl := checkAcl } o cl topic write =
        checkAcl (famOf env.matchTopic topic res) write :=
    fun checkAcl => onACLCheck_eq_famOf modes { env with checkAcl := checkAcl } o cl topic write
      mode listed uid read noErr
  rw [← famOf_eq_intendedAcl_iff]
  simp only [built]
  constructor
  · intro same
    funext f
    simpa using same fun fam _ => famOf env.matchTopic topic res f = fam f
  · intro same checkAcl
    rw [same]

theorem onACLCheck_intended_iff_in_range_small :
    let modes : AuthModes := ⟨0, 1, 2, by decide, by decide, by decide⟩
    let env : AclEnv :=
      { checkBLAcl := fun _ _ _ => (-1, false),
        hGetAll := fun _ => (⟨[("t", "2")], by decide⟩, none),
        matchTopic := fun filter topic => filter = topic,
        checkAcl := fun fam _ => (fam "t").isSome }
    let o : Options := { aclMode := modes.authUsername, aclKeyPrefix := "comqtt:acl" }
    let cl : Client := { id := "c1", username := "u1" }
    (o.aclMode ≠ modes.authAnonymous ∧ (env.checkBLAcl cl "t" false).1 < 0 ∧
      aclUid modes o cl = some "u1" ∧
      env.hGetAll (getAclKey o "u1") = (⟨[("t", "2")], by decide⟩, none)) ∧
    ((∀ checkAcl : (String → Option UInt8) → Bool → Bool,
        onACLCheck modes { env with checkAcl := checkAcl } o cl "t" false =
          checkAcl (intendedAcl env.matchTopic "t" ⟨[("t", "2")], by decide⟩) false) ↔
      AclValuesInRange env.matchTopic "t" ⟨[("t", "2")], by decide⟩) := by
  intro modes env o cl
  have mode : o.aclMode ≠ modes.authAnonymous := show (1 : UInt8) ≠ 0 by decide
  have listed : (env.checkBLAcl cl "t" false).1 < 0 := show (-1 : Int) < 0 by decide
  have uid : aclUid modes o cl = some "u1" := rfl
  have read : env.hGetAll (getAclKey o "u1") = (⟨[("t", "2")], by decide⟩, none) := rfl
  exact ⟨⟨mode, listed, uid, read⟩,
    onACLCheck_intended_iff_in_range modes env o cl "t" false mode listed uid read (.inl rfl)⟩

/-- With the hash `{t: "-253"}` in client-id mode and no blacklist verdict,
`OnACLCheck` hands `CheckAcl` the access byte 3 for `t`: `strconv.Atoi` accepts
the value and the conversion to `auth.Access` keeps its low byte. -/
theorem onACLCheck_wraps_out_of_range (checkAcl : (String → Option UInt8) → Bool → Bool) :
    let env : AclEnv :=
      { checkBLAcl := fun _ _ _ => (-1, false),
        hGetAll := fun _ => (⟨[("t", "-253")], by decide⟩, none),
        matchTopic := fun filter topic => filter = topic, checkAcl := checkAcl }
    onACLCheck modes env { aclMode := modes.authClientID, aclKeyPrefix := "comqtt:acl" }
        { id := "c1", username := "" } "t" true =
      checkAcl (fun f => if f = "t" then some 3 else none) true := by
  intro env
  rw [onACLCheck_eq_famOf modes env { aclMode := modes.authClientID, aclKeyPrefix := "comqtt:acl" }
    { id := "c1", username := "" } "t" true modes.anonymous_ne_clientID.symm
    (show (-1 : Int) < 0 by decide) (aclUid_of_clientID modes _ rfl) rfl
    (.inl rfl)]
  refine congrArg (checkAcl · true) (funext fun f => ?_)
  by_cases h : f = "t"
  · subst h
    rfl
  · have absent : [("t", "-253")].lookup f = none := lookup_of_not_mem (by simpa using h)
    simp [famOf, absent, h]

end Comqtt.Plugin.Auth.Redis
