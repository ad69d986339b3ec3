import Comqtt.Go
import Mathlib.Data.List.Nodup

/-! # The configuration of the Redis auth plugin

`Options` selects how clients are authenticated and authorised (anonymous, by
username, by client id), the prefixes of the Redis keys the hooks read, and the
Redis server. `Init` accepts an `*Options` or nil, fills in empty key prefixes,
and pings the server. Handed nil it builds options with the default address and
every other field zero.

The modes are compared with the constants `auth.AuthAnonymous`, `auth.AuthUsername`
and `auth.AuthClientID` of the MQTT server's auth hooks, which are declared outside
the sources. The model does not fix their values: it takes them as parameters and
asks only that they are three different bytes.
-/

namespace Comqtt.Plugin.Auth.Redis

/-- `byte(auth.AuthAnonymous)`, `byte(auth.AuthUsername)` and `byte(auth.AuthClientID)`:
the constants the hooks compare `AuthMode` and `AclMode` with. They are declared in
the auth hooks package, outside the sources, so they are parameters here, three
different bytes whatever their values. -/
structure AuthModes where
  authAnonymous : UInt8
  authUsername : UInt8
  authClientID : UInt8
  anonymous_ne_username : authAnonymous ≠ authUsername
  anonymous_ne_clientID : authAnonymous ≠ authClientID
  username_ne_clientID : authUsername ≠ authClientID

/-- `redisOptions`: the connection settings of the plugin's Redis client. -/
structure RedisOptions where
  addr : String := ""
  username : String := ""
  password : String := ""
  db : Int := 0
  deriving DecidableEq, Repr

/-- `Options`, every field defaulting to Go's zero value. `RedisOptions` is a
pointer, nil when absent. `PasswordHash` is `pa.HashType`, an enumeration
outside the modelled sources, kept as its code; the embedded blacklist is the
hooks' `CheckBLAuth` and `CheckBLAcl` parameters. -/
structure Options where
  redisOptions : Option RedisOptions := none
  authMode : UInt8 := 0
  authKeyPrefix : String := ""
  aclMode : UInt8 := 0
  aclKeyPrefix : String := ""
  passwordHash : Nat := 0
  hashKey : String := ""
  deriving DecidableEq, Repr

/-- What the checks read of an `mqtt.Client`: its id and `Properties.Username`. -/
structure Client where
  id : String
  username : String
  deriving DecidableEq, Repr

/-- A Redis hash as `HGetAll` returns it, a Go map: no field twice. -/
structure Hash where
  entries : List (String × String)
  nodup : (entries.map Prod.fst).Nodup

/-- An error of a Redis command: `redis.Nil`, or another. -/
inductive RedisError where
  | nil
  | other (msg : String)
  deriving DecidableEq, Repr

/-- One line of the plugin's `Log.Error`: its message and key-value fields. -/
structure LogLine where
  msg : String
  fields : List (String × String)
  deriving DecidableEq, Repr

/-! ## Init -/

/-- `defaultAddr`. -/
def defaultAddr : String := "localhost:6379"

/-- `defaultAuthkeyPrefix`. -/
def defaultAuthkeyPrefix : String := "comqtt:auth"

/-- `defaultAclKeyPrefix`. -/
def defaultAclKeyPrefix : String := "comqtt:acl"

/-- The value `Init` is handed: an `*Options`, nil, or a value of another type. -/
inductive Config where
  | options (o : Options)
  | nil
  | other
  deriving DecidableEq, Repr

/-- How `Init` ends. -/
inductive InitOutcome where
  /-- It returns nil; the hooks read these options. -/
  | ok (o : Options)
  /-- It returns `mqtt.ErrInvalidConfigType`. -/
  | invalidConfigType
  /-- It returns this error. -/
  | error (msg : String)
  /-- It reads a field of a nil `RedisOptions` and panics. -/
  | nilRedisOptions
  deriving DecidableEq, Repr

/-- The options `Init` builds when handed nil. -/
def nilOptions : Options := { redisOptions := some { addr := defaultAddr } }

/-- `Init`'s defaulting of the key prefixes: an empty one is replaced. -/
def withDefaultPrefixes (o : Options) : Options :=
  { o with
    authKeyPrefix := if o.authKeyPrefix = "" then defaultAuthkeyPrefix else o.authKeyPrefix
    aclKeyPrefix := if o.aclKeyPrefix = "" then defaultAclKeyPrefix else o.aclKeyPrefix }

/-- `Init` on the options it was handed or built: default the prefixes, then
read the connection settings (for the log line announcing the connection) and
ping the server. `ping` answers the server's `PING` for a client with the given
settings, `some err` on failure. -/
def initOptions (ping : RedisOptions → Option String) (o : Options) : InitOutcome :=
  let o := withDefaultPrefixes o
  match o.redisOptions with
  | none => .nilRedisOptions
  | some r =>
      match ping r with
      | some err => .error ("failed to ping service: " ++ err)
      | none => .ok o

/-- `Init`. -/
def init (ping : RedisOptions → Option String) : Config → InitOutcome
  | .options o => initOptions ping o
  | .nil => initOptions ping nilOptions
  | .other => .invalidConfigType

/-- `getAuthKey`. -/
def getAuthKey (o : Options) : String := o.authKeyPrefix

/-- `getAclKey`. -/
def getAclKey (o : Options) (uid : String) : String := o.aclKeyPrefix ++ ":" ++ uid

end Comqtt.Plugin.Auth.Redis
