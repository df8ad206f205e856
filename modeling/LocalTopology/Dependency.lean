import LocalTopology.Runner.Basic

/-!
# Built-in dependencies

A graph may ask for shared infrastructure by name. Each dependency has a fixed blueprint: the
container that provides it and the scheme by which clients address it.
-/

namespace LocalTopology

/-- Shared infrastructure that a graph may ask for. -/
inductive Dependency
  | mongo
  | redis
  | postgres
  deriving DecidableEq, Inhabited

/-- The fixed shape of the service that provides a dependency. -/
structure Blueprint where
  serviceName : String
  image : String
  containerPort : Port
  hostPort : Port
  /-- The scheme of the URLs by which clients connect. -/
  scheme : String
  /-- The named volume that is mounted at `dataPath`. -/
  volume : String
  dataPath : String
  command : List String
  environment : List (String × String)
  /-- The command by which the container engine checks the container. -/
  healthcheck : List String
  deriving DecidableEq

namespace Dependency

/-- The word that declares the dependency. -/
def kind : Dependency → String
  | mongo => "mongo"
  | redis => "redis"
  | postgres => "postgres"

/-- Every dependency, in the order in which they are named. -/
def all : List Dependency := [mongo, redis, postgres]

/-- The dependency that a word declares. -/
def ofKind? (word : String) : Option Dependency :=
  all.find? (·.kind == word)

/-- Initiates the replica set of one member on the first run and reports its status afterwards. The
member is advertised at an address that means the same inside the container and outside. -/
def replicaSetScript : String :=
  "try \x7b rs.status().ok \x7d catch (e) \x7b " ++
    "rs.initiate(\x7b_id:'rs0',members:[\x7b_id:0,host:'localhost:27217'\x7d]\x7d).ok \x7d"

/-- The fixed shape of the service that provides the dependency. -/
def blueprint : Dependency → Blueprint
  | mongo =>
    { serviceName := "mongo"
      image := "mongo:7.0"
      containerPort := 27217
      hostPort := 27217
      scheme := "mongodb"
      volume := "devstack_mongo_data"
      dataPath := "/data/db"
      command := ["--replSet", "rs0", "--bind_ip_all", "--port", "27217"]
      environment := []
      healthcheck :=
        ["CMD", "mongosh", "--quiet", "--port", "27217", "--eval", replicaSetScript] }
  | redis =>
    { serviceName := "redis"
      image := "redis:7.2-alpine"
      containerPort := 6379
      hostPort := 6380
      scheme := "redis"
      volume := "devstack_redis_data"
      dataPath := "/data"
      command := []
      environment := []
      healthcheck := ["CMD", "redis-cli", "ping"] }
  | postgres =>
    { serviceName := "postgres"
      image := "postgres:16-alpine"
      containerPort := 5432
      hostPort := 5433
      scheme := "postgres"
      volume := "devstack_postgres_data"
      dataPath := "/var/lib/postgresql/data"
      command := []
      environment := [("POSTGRES_PASSWORD", "postgres"), ("POSTGRES_HOST_AUTH_METHOD", "trust")]
      healthcheck := ["CMD", "pg_isready", "-U", "postgres"] }

/-- The runner that provides the dependency. -/
def runner (d : Dependency) : Runner :=
  let b := d.blueprint
  .container
    { image := b.image
      containerPort := b.containerPort
      hostPort := some b.hostPort
      environment := .ofList b.environment
      volumes := [b.volume ++ ":" ++ b.dataPath]
      command := b.command }

end Dependency

end LocalTopology
