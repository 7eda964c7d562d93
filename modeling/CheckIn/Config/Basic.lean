/-
# Configuration

What an agent has to know before it can run.  A configuration has eleven entries, each with a
default; a `Config.Key` names one of them.  The reader of a file and the reader of a JSON text
fill in a `Config.Draft`, of which missing entries are completed from the defaults.
-/
import CheckIn.Duration
import CheckIn.EdgeId
import CheckIn.Error
import CheckIn.Platform

namespace CheckIn

/-- The configuration of an agent. -/
structure Config where
  /-- The address of the local service to which a tunnel leads. -/
  apiServerAddr : String := "0.0.0.0:9001"
  edgeId : EdgeId := ⟨""⟩
  /-- The identifier that the controller gave to the endpoint. -/
  endpointId : String := ""
  controllerUrl : String := "http://localhost:9000"
  /-- The time from one poll to the next, until the controller asks for another. -/
  pollFrequency : Duration := .ofSeconds 5
  /-- The idle time after which an open tunnel is closed. -/
  inactivityTimeout : Duration := .ofSeconds 300
  /-- Whether certificates go unchecked. -/
  insecurePoll : Bool := false
  /-- Whether the agent manages a tunnel at all. -/
  tunnelCapability : Bool := true
  tunnelServerAddr : String := "localhost:8000"
  tunnelServerFingerprint : String := ""
  platform : Platform := .docker
deriving DecidableEq

namespace Config

instance : Inhabited Config := ⟨{}⟩

/-- The longest interval between two polls. -/
def maxPollFrequency : Duration := .ofSeconds 86400

/-! ## Keys -/

/-- The names of the entries. -/
inductive Key
  | apiServerAddr
  | edgeId
  | endpointId
  | controllerUrl
  | pollFrequency
  | inactivityTimeout
  | insecurePoll
  | tunnelCapability
  | tunnelServerAddr
  | tunnelServerFingerprint
  | platform
deriving DecidableEq, Repr

namespace Key

/-- The keys in the order in which they are written. -/
def all : List Key :=
  [apiServerAddr, edgeId, endpointId, controllerUrl, pollFrequency, inactivityTimeout,
    insecurePoll, tunnelCapability, tunnelServerAddr, tunnelServerFingerprint, platform]

/-- The name of an entry in a file. -/
def name : Key → String
  | apiServerAddr => "api_server_addr"
  | edgeId => "edge_id"
  | endpointId => "endpoint_id"
  | controllerUrl => "controller_url"
  | pollFrequency => "poll_frequency"
  | inactivityTimeout => "inactivity_timeout"
  | insecurePoll => "insecure_poll"
  | tunnelCapability => "tunnel_capability"
  | tunnelServerAddr => "tunnel_server_addr"
  | tunnelServerFingerprint => "tunnel_server_fingerprint"
  | platform => "container_platform"

/-- The key of a name. -/
def ofName? (name : String) : Option Key := all.find? fun key => key.name = name

theorem mem_all (key : Key) : key ∈ all := by cases key <;> simp [all]

@[simp] theorem ofName?_name (key : Key) : ofName? key.name = some key := by
  cases key <;> simp [ofName?, all, name]

end Key

/-! ## Drafts -/

/-- A configuration of which some entries are given. -/
structure Draft where
  apiServerAddr : Option String := none
  edgeId : Option EdgeId := none
  endpointId : Option String := none
  controllerUrl : Option String := none
  pollFrequency : Option Duration := none
  inactivityTimeout : Option Duration := none
  insecurePoll : Option Bool := none
  tunnelCapability : Option Bool := none
  tunnelServerAddr : Option String := none
  tunnelServerFingerprint : Option String := none
  platform : Option Platform := none
deriving DecidableEq

/-- The configuration with the entries of a draft, and another one's where the draft has none. -/
def Draft.over (draft : Draft) (base : Config) : Config where
  apiServerAddr := draft.apiServerAddr.getD base.apiServerAddr
  edgeId := draft.edgeId.getD base.edgeId
  endpointId := draft.endpointId.getD base.endpointId
  controllerUrl := draft.controllerUrl.getD base.controllerUrl
  pollFrequency := draft.pollFrequency.getD base.pollFrequency
  inactivityTimeout := draft.inactivityTimeout.getD base.inactivityTimeout
  insecurePoll := draft.insecurePoll.getD base.insecurePoll
  tunnelCapability := draft.tunnelCapability.getD base.tunnelCapability
  tunnelServerAddr := draft.tunnelServerAddr.getD base.tunnelServerAddr
  tunnelServerFingerprint := draft.tunnelServerFingerprint.getD base.tunnelServerFingerprint
  platform := draft.platform.getD base.platform

/-- The configuration of a draft. -/
def Draft.complete (draft : Draft) : Config := draft.over {}

/-! ## Use -/

/-- The base of the controller's addresses, without slashes at the end. -/
def baseUrl (config : Config) : String :=
  String.ofList ((config.controllerUrl.toList.reverse.dropWhile (· = '/')).reverse)

/-- The address from which the status is fetched. -/
def statusUrl (config : Config) : String :=
  config.baseUrl ++ "/api/endpoints/" ++ config.endpointId ++ "/status"

/-- Whether a configuration can drive the service, and if not, the first reason. -/
def validate (config : Config) : Except ConfigError Unit := do
  if config.edgeId.text = "" then throw (.missingField Key.edgeId.name)
  if config.endpointId = "" then throw (.missingField Key.endpointId.name)
  if config.controllerUrl = "" then throw (.missingField Key.controllerUrl.name)
  if config.pollFrequency.isZero then
    throw (.invalid "poll_frequency must be greater than zero")
  if ¬ config.pollFrequency ≤ maxPollFrequency then
    throw (.invalid ("poll_frequency must not exceed " ++
      decimalNat maxPollFrequency.seconds ++ "s"))
  if config.inactivityTimeout.isZero then
    throw (.invalid "inactivity_timeout must be greater than zero")
  if config.tunnelCapability ∧ config.tunnelServerAddr = "" then
    throw (.missingField Key.tunnelServerAddr.name)

end Config

end CheckIn
