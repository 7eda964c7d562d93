/-
# Polling over the network

A request asks the controller for the status of the endpoint, and says who asks and on which
platform.  Only a body that comes with status 200 is read.  What the network does with a request
is a parameter.
-/
import CheckIn.Config.Basic
import CheckIn.Log
import CheckIn.Url

namespace CheckIn

/-- The header that carries the identifier of the agent. -/
def edgeIdHeader : String := "X-PortainerAgent-EdgeID"

/-- The header that carries the number of the platform. -/
def platformHeader : String := "Portainer-Agent-Platform"

/-- Whether a text can be the value of a header: it has no control characters but tabs. -/
def isHeaderValue (text : String) : Bool :=
  text.toList.all fun c => c = '\t' || (decide (0x20 ≤ c.toNat) && c ≠ '\x7f')

/-- A request for the status. -/
structure StatusRequest where
  url : String
  /-- The value of `edgeIdHeader`. -/
  edgeId : String
  /-- The value of `platformHeader`. -/
  platform : String
  /-- How long the request may take. -/
  timeout : Duration
deriving DecidableEq

/-- What the network answers: a status and a body, or the stage at which it failed.
Redirections are followed by the network. -/
abbrev Network := StatusRequest → Except RequestStage (UInt16 × List UInt8)

/-- A network in which every connection is refused. -/
def Network.refusing : Network := fun _ => .error .connect

/-- A client that polls for one endpoint. -/
structure PollClient where
  statusUrl : String
  edgeId : EdgeId
  platform : Platform
  timeout : Duration
deriving DecidableEq

namespace PollClient

/-- The client that a configuration describes; at first a request may take one interval. -/
def ofConfig (config : Config) : PollClient where
  statusUrl := config.statusUrl
  edgeId := config.edgeId
  platform := config.platform
  timeout := config.pollFrequency

/-- The client with another time that a request may take. -/
def setTimeout (client : PollClient) (timeout : Duration) : PollClient :=
  { client with timeout }

/-- The number of the platform as which the agent presents itself. -/
def wirePlatform (client : PollClient) : Nat := client.platform.canonical.wireValue

/-- The request of a client, if its address and its headers can be sent. -/
def request (client : PollClient) : Except PollError StatusRequest :=
  if Url.isRequestable client.statusUrl ∧ isHeaderValue client.edgeId.text then
    .ok ⟨client.statusUrl, client.edgeId.text, decimalNat client.wirePlatform, client.timeout⟩
  else .error (.request .builder)

/-- Fetches the status. -/
def fetch (client : PollClient) (network : Network) : Except PollError Response × List LogRecord :=
  let sent : LogRecord := .platformSent client.wirePlatform
  match client.request with
  | .error error => (.error error, [sent])
  | .ok request =>
    match network request with
    | .error stage => (.error (.request stage), [sent])
    | .ok (code, body) =>
      if code ≠ 200 then (.error (.status code), [sent, .answerRefused code])
      else ((Response.ofBytes body).mapError .decode, [sent])

end PollClient

end CheckIn
