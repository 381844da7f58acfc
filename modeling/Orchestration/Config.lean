import Orchestration.Dict
import Orchestration.Queue.Topology
import Orchestration.Text.Case
import Orchestration.Decimal.Integer

/-!
# Configuration

The settings of the engine and of its database are read from variables of the environment. A
variable belongs to a setting if its name, without a fixed beginning and in lower case, is that of
the setting; other variables do not matter. A setting without a variable has a default, one with two
variables is refused, and so is a number that is not spelled as one or does not fit.
-/

namespace Orchestration

inductive DispatchMode where
  /-- Work requests lie on a channel until an executor takes them. -/
  | queue
  /-- The function is called at its address. -/
  | push
deriving DecidableEq, Repr, Inhabited

inductive StorageKind where
  | postgres
  | memory
deriving DecidableEq, Repr, Inhabited

/-- What the engine goes by. Durations are in milliseconds. -/
structure RunnerSettings where
  deploymentTimeout : Nat
  deploymentPollInterval : Nat
  maxDeploymentWatchers : Nat
  retentionKeepDays : Int
  retentionMaxCount : Nat
deriving DecidableEq, Repr, Inhabited

structure AppConfig where
  host : String := "0.0.0.0"
  port : Nat := 8090
  serverName : String := "flowmesh-engine"
  natsUrl : Option String := none
  natsStream : String := "flowmesh_runs"
  natsConsumer : String := "flowmesh-engine"
  workSubject : String := "flowmesh.work"
  resultSubject : String := "flowmesh.results"
  deploymentSubject : String := "flowmesh.deployments"
  notificationSubject : String := "flowmesh.notifications"
  maxConcurrentMessages : Nat := 16
  dispatchMode : DispatchMode := .queue
  storage : StorageKind := .postgres
  callbackUrl : String := "http://localhost:8090/api/callback"
  functionCatalogUrl : String := "http://localhost:8081"
  workflowCatalogUrl : String := "http://localhost:8082"
  httpTimeoutSecs : Nat := 30
  deploymentTimeoutSecs : Nat := 600
  deploymentPollSecs : Nat := 5
  maxDeploymentWatchers : Nat := 8
  retentionKeepDays : Int := 7
  retentionMaxCount : Nat := 30
deriving DecidableEq, Repr, Inhabited

structure DatabaseConfig where
  host : String := "localhost"
  port : String := "5432"
  user : String := "flowmesh"
  password : String := ""
  database : String := "flowmesh"
  maxConnections : Nat := 10
  minConnections : Nat := 1
  acquireTimeout : Nat := 30
deriving DecidableEq, Repr, Inhabited

/-! ## Variables -/

/-- The variables of an environment, by their names. -/
abbrev Environment := List (String × String)

/-- A text without a beginning, which may stand there more than once. -/
def withoutBeginning (beginning : List Char) : Nat → List Char → List Char
  | 0, cs => cs
  | fuel + 1, cs =>
    if !beginning.isEmpty && beginning.isPrefixOf cs then
      withoutBeginning beginning fuel (cs.drop beginning.length)
    else cs

/-- The settings that the variables with a given beginning give values to. -/
def settingsOf (beginning : String) (env : Environment) : List (String × String) :=
  let start := beginning.toList
  let own := env.filter fun (name, _) => start.isPrefixOf name.toList
  own.map fun (name, value) =>
    (Text.lower (String.ofList (withoutBeginning start name.length name.toList)), value)

/-- Reads settings one after another; nothing comes of it if one of them is wrong. -/
abbrev Settings := ReaderT (List (String × String)) Option

namespace Settings

/-- A setting of a type, with its default. -/
def get (name : String) (read? : String → Option α) (default : α) : Settings α := fun vars =>
  match vars.filter fun v => v.1 = name with
  | [] => some default
  | [(_, value)] => read? value
  | _ => none

def text (name default : String) : Settings String := get name some default

def nat (name : String) (bits default : Nat) : Settings Nat :=
  get name (Decimal.naturalBelow? (pow2 bits)) default

def word (name : String) (words : List (String × α)) (default : α) : Settings α :=
  get name (fun s => words.lookup s) default

end Settings

namespace AppConfig

def read : Settings AppConfig := do
  let d : AppConfig := {}
  return {
    host := ← Settings.text "host" d.host
    port := ← Settings.nat "port" 16 d.port
    serverName := ← Settings.text "server_name" d.serverName
    natsUrl := ← Settings.get "nats_url" (fun s => some (some s)) d.natsUrl
    natsStream := ← Settings.text "nats_stream" d.natsStream
    natsConsumer := ← Settings.text "nats_consumer" d.natsConsumer
    workSubject := ← Settings.text "work_subject" d.workSubject
    resultSubject := ← Settings.text "result_subject" d.resultSubject
    deploymentSubject := ← Settings.text "deployment_subject" d.deploymentSubject
    notificationSubject := ← Settings.text "notification_subject" d.notificationSubject
    maxConcurrentMessages := ← Settings.nat "max_concurrent_messages" 64 d.maxConcurrentMessages
    dispatchMode :=
      ← Settings.word "dispatch_mode" [("queue", .queue), ("push", .push)] d.dispatchMode
    storage := ← Settings.word "storage" [("postgres", .postgres), ("memory", .memory)] d.storage
    callbackUrl := ← Settings.text "callback_url" d.callbackUrl
    functionCatalogUrl := ← Settings.text "function_catalog_url" d.functionCatalogUrl
    workflowCatalogUrl := ← Settings.text "workflow_catalog_url" d.workflowCatalogUrl
    httpTimeoutSecs := ← Settings.nat "http_timeout_secs" 64 d.httpTimeoutSecs
    deploymentTimeoutSecs := ← Settings.nat "deployment_timeout_secs" 64 d.deploymentTimeoutSecs
    deploymentPollSecs := ← Settings.nat "deployment_poll_secs" 64 d.deploymentPollSecs
    maxDeploymentWatchers := ← Settings.nat "max_deployment_watchers" 64 d.maxDeploymentWatchers
    retentionKeepDays :=
      ← Settings.get "retention_keep_days" (Decimal.signed? 64) d.retentionKeepDays
    retentionMaxCount := ← Settings.nat "retention_max_count" 64 d.retentionMaxCount }

/-- The settings of the engine in an environment. -/
def ofEnvironment? (env : Environment) : Option AppConfig :=
  read.run (settingsOf "FLOWMESH_" env)

/-- The address that the engine listens at. -/
def bindAddress (c : AppConfig) : String := c.host ++ ":" ++ toString c.port

def settings (c : AppConfig) : RunnerSettings :=
  { deploymentTimeout := c.deploymentTimeoutSecs * 1000
    deploymentPollInterval := c.deploymentPollSecs * 1000
    maxDeploymentWatchers := c.maxDeploymentWatchers
    retentionKeepDays := c.retentionKeepDays
    retentionMaxCount := c.retentionMaxCount }

/-- The names that the engine uses on a broker. -/
def topology (c : AppConfig) : Topology :=
  { stream := c.natsStream
    consumer := c.natsConsumer
    workSubject := c.workSubject
    resultSubject := c.resultSubject
    deploymentSubject := c.deploymentSubject
    notificationSubject := c.notificationSubject }

end AppConfig

namespace DatabaseConfig

/-- Reads the settings of the database. -/
def read : Settings DatabaseConfig := do
  let d : DatabaseConfig := {}
  return {
    host := ← Settings.text "host" d.host
    port := ← Settings.text "port" d.port
    user := ← Settings.text "user" d.user
    password := ← Settings.text "password" d.password
    database := ← Settings.text "database" d.database
    maxConnections := ← Settings.nat "max_connections" 32 d.maxConnections
    minConnections := ← Settings.nat "min_connections" 32 d.minConnections
    acquireTimeout := ← Settings.nat "acquire_timeout" 64 d.acquireTimeout }

/-- The settings of the database in an environment. -/
def ofEnvironment? (env : Environment) : Option DatabaseConfig :=
  read.run (settingsOf "POSTGRES_" env)

/-- The port that the database listens at; a text that spells no port stands for the usual one. -/
def portNumber (c : DatabaseConfig) : Nat := (Decimal.naturalBelow? (pow2 16) c.port).getD 5432

end DatabaseConfig

end Orchestration
