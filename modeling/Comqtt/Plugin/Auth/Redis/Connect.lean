import Comqtt.Plugin.Auth.Redis.Config

/-! # The connect check of the Redis auth plugin

`OnConnectAuthenticate` admits every client in anonymous mode and follows the
blacklist when it has a verdict. Otherwise it reads, from the hash at the auth
key, the rule stored under the username or the client id, by mode. An empty or
unreadable record denies; a record that does not decode denies with one error
line; a rule that does not allow the client denies; otherwise the verdict is
`CompareHash` of the stored password hash and the connect packet's password.
-/

namespace Comqtt.Plugin.Auth.Redis

/-- `auth.AuthRule` as the check reads it. -/
structure AuthRule where
  allow : Bool
  password : String
  deriving DecidableEq, Repr

/-- The collaborators of `OnConnectAuthenticate`: the blacklist's `CheckBLAuth`
(given the client and the connect packet's password), the client's
`HGet(...).Result()`, `json.Unmarshal` into an `AuthRule` with its error text,
and `pa.CompareHash`. -/
structure AuthEnv where
  checkBLAuth : Client → String → Int × Bool
  hGet : String → String → String × Option RedisError
  unmarshal : String → Except String AuthRule
  compareHash : String → String → String → Nat → Bool

variable (modes : AuthModes)

/-- The field `OnConnectAuthenticate` reads: the username or the client id, by
mode; none in any other mode. -/
def authUid (o : Options) (cl : Client) : Option String :=
  if o.authMode = modes.authUsername then some cl.username
  else if o.authMode = modes.authClientID then some cl.id
  else none

/-- The line `OnConnectAuthenticate` logs when the stored rule does not decode. -/
def unmarshalFailed (err data : String) : LogLine :=
  { msg := "failed to unmarshal redis auth data", fields := [("error", err), ("data", data)] }

/-- `OnConnectAuthenticate`, for a connect packet carrying `password`: the verdict,
and the lines logged. -/
def onConnectAuthenticate (env : AuthEnv) (o : Options) (cl : Client) (password : String) :
    Bool × List LogLine :=
  if o.authMode = modes.authAnonymous then (true, [])
  else
    let (n, ok) := env.checkBLAuth cl password
    if 0 ≤ n then (ok, [])
    else
      match authUid modes o cl with
      | none => (false, [])
      | some key =>
          let (res, err) := env.hGet (getAuthKey o) key
          if (err.isSome ∧ err ≠ some .nil) ∨ res = "" then (false, [])
          else
            match env.unmarshal res with
            | .error e => (false, [unmarshalFailed e res])
            | .ok ar =>
                if !ar.allow then (false, [])
                else (env.compareHash ar.password password o.hashKey o.passwordHash, [])

/-- Everything `OnConnectAuthenticate` can do: admit in anonymous mode, follow the
blacklist's verdict, deny silently, deny logging a rule that does not decode, or
follow `CompareHash` on a stored rule that allows the client. -/
theorem onConnectAuthenticate_cases (env : AuthEnv) (o : Options) (cl : Client)
    (password : String) :
    o.authMode = modes.authAnonymous ∧
        onConnectAuthenticate modes env o cl password = (true, []) ∨
      0 ≤ (env.checkBLAuth cl password).1 ∧
        onConnectAuthenticate modes env o cl password = ((env.checkBLAuth cl password).2, []) ∨
      onConnectAuthenticate modes env o cl password = (false, []) ∨
      (∃ key e, authUid modes o cl = some key ∧
        env.unmarshal (env.hGet (getAuthKey o) key).1 = .error e ∧
        onConnectAuthenticate modes env o cl password =
          (false, [unmarshalFailed e (env.hGet (getAuthKey o) key).1])) ∨
      ∃ key ar, authUid modes o cl = some key ∧ (env.hGet (getAuthKey o) key).1 ≠ "" ∧
        env.unmarshal (env.hGet (getAuthKey o) key).1 = .ok ar ∧ ar.allow = true ∧
        onConnectAuthenticate modes env o cl password =
          (env.compareHash ar.password password o.hashKey o.passwordHash, []) := by
  generalize result : onConnectAuthenticate modes env o cl password = r
  simp only [onConnectAuthenticate] at result
  split at result
  next anonymous => exact .inl ⟨anonymous, result.symm⟩
  split at result
  next listed => exact .inr (.inl ⟨listed, result.symm⟩)
  split at result
  next => exact .inr (.inr (.inl result.symm))
  next key uid =>
    split at result
    next => exact .inr (.inr (.inl result.symm))
    next fresh =>
      split at result
      next e decodes => exact .inr (.inr (.inr (.inl ⟨key, e, uid, decodes, result.symm⟩)))
      next ar decodes =>
        split at result
        next => exact .inr (.inr (.inl result.symm))
        next allowed =>
          exact .inr (.inr (.inr (.inr ⟨key, ar, uid, fun h => fresh (.inr h), decodes,
            by simpa using allowed, result.symm⟩)))

/-- `OnConnectAuthenticate` admits a client only in anonymous mode, on the
blacklist's admitting verdict, or by a stored rule that allows it and whose
password hash matches. -/
theorem onConnectAuthenticate_admits_only (env : AuthEnv) (o : Options) (cl : Client)
    (password : String) (admitted : (onConnectAuthenticate modes env o cl password).1 = true) :
    o.authMode = modes.authAnonymous ∨
      (0 ≤ (env.checkBLAuth cl password).1 ∧ (env.checkBLAuth cl password).2 = true) ∨
      ∃ key ar, authUid modes o cl = some key ∧ (env.hGet (getAuthKey o) key).1 ≠ "" ∧
        env.unmarshal (env.hGet (getAuthKey o) key).1 = .ok ar ∧ ar.allow = true ∧
        env.compareHash ar.password password o.hashKey o.passwordHash = true := by
  rcases onConnectAuthenticate_cases modes env o cl password with
    ⟨anonymous, -⟩ | ⟨listed, h⟩ | h | ⟨_, _, -, -, h⟩ | ⟨key, ar, uid, fresh, decodes, allowed, h⟩
  · exact .inl anonymous
  · exact .inr (.inl ⟨listed, by rwa [h] at admitted⟩)
  · simp [h] at admitted
  · simp [h] at admitted
  · exact .inr (.inr ⟨key, ar, uid, fresh, decodes, allowed, by rwa [h] at admitted⟩)

theorem onConnectAuthenticate_admits_only_stored_rule :
    let modes : AuthModes := ⟨0, 1, 2, by decide, by decide, by decide⟩
    let env : AuthEnv :=
      { checkBLAuth := fun _ _ => (-1, false), hGet := fun _ key => ("rule of " ++ key, none),
        unmarshal := fun _ => .ok { allow := true, password := "h" },
        compareHash := fun stored given _ _ => stored == given }
    let o : Options := { authMode := modes.authClientID, authKeyPrefix := "comqtt:auth" }
    let cl : Client := { id := "c1", username := "" }
    (onConnectAuthenticate modes env o cl "h").1 = true ∧ o.authMode ≠ modes.authAnonymous ∧
      (env.checkBLAuth cl "h").1 < 0 ∧
      (o.authMode = modes.authAnonymous ∨
        (0 ≤ (env.checkBLAuth cl "h").1 ∧ (env.checkBLAuth cl "h").2 = true) ∨
        ∃ key ar, authUid modes o cl = some key ∧ (env.hGet (getAuthKey o) key).1 ≠ "" ∧
          env.unmarshal (env.hGet (getAuthKey o) key).1 = .ok ar ∧ ar.allow = true ∧
          env.compareHash ar.password "h" o.hashKey o.passwordHash = true) := by
  intro modes env o cl
  exact ⟨rfl, show (2 : UInt8) ≠ 0 by decide, show (-1 : Int) < 0 by decide,
    onConnectAuthenticate_admits_only modes env o cl "h" rfl⟩

end Comqtt.Plugin.Auth.Redis
