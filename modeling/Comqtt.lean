import Comqtt.Go
import Comqtt.Cluster.Message
import Comqtt.Cluster.Handlers
import Comqtt.Cluster.Server
import Comqtt.Cluster.Pool
import Comqtt.Cluster.Relay
import Comqtt.Cluster.Ownership
import Comqtt.Cluster.Invariant
import Comqtt.Cluster.Lifecycle
import Comqtt.Cluster.PoolLaws
import Comqtt.Cluster.RoundTrip
import Comqtt.Cluster.Broadcast
import Comqtt.Cluster.Races
import Comqtt.Cluster.Routing
import Comqtt.Plugin.Auth.Redis.Acl
