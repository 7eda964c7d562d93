/-
# Errors of the agent

Every failure of the agent is a value that tells its cause.  Polling, the tunnel, the dispatch of
an answer and the configuration have errors of their own, and `AgentError` is any of them.  What
a collaborator says about its own failure is kept as text.
-/
import CheckIn.Json.Error
import CheckIn.Text.Base64
import CheckIn.Toml.Error

namespace CheckIn

/-! ## Polling -/

/-- At which stage a request failed. -/
inductive RequestStage
  /-- The request could not be built. -/
  | builder
  /-- No answer came in time. -/
  | timeout
  /-- Too many redirections. -/
  | redirect
  /-- No connection. -/
  | connect
  /-- The body could not be read. -/
  | body
  /-- Any other failure while the request was sent. -/
  | request
deriving DecidableEq, Repr

def RequestStage.message : RequestStage → String
  | builder => "builder error"
  | timeout => "error sending request: operation timed out"
  | redirect => "error following redirect"
  | connect => "error sending request: unable to connect"
  | body => "error decoding response body"
  | request => "error sending request"

/-- Why a poll of the controller failed. -/
inductive PollError
  | request (stage : RequestStage)
  /-- The controller answered with another status than 200. -/
  | status (code : UInt16)
  /-- The interval cannot drive a ticker. -/
  | invalidInterval (seconds : Binary64)
  /-- The body is no answer. -/
  | decode (fault : Json.Error)
deriving DecidableEq, Repr

def PollError.message : PollError → String
  | request stage => "Poll request failed: " ++ stage.message
  | status code => "Short poll request failed with status " ++ decimalNat code.toNat
  | invalidInterval seconds =>
    "Invalid poll interval: " ++ NumberStyle.prose.write seconds ++ "s"
  | decode fault => "Invalid poll response: " ++ fault.message

/-! ## The tunnel -/

/-- The message of a fault in base64. -/
def Base64.Fault.message : Base64.Fault → String
  | symbol byte offset =>
    "Invalid symbol " ++ decimalNat byte.toNat ++ ", offset " ++ decimalNat offset ++ "."
  | length count => "Invalid input length: " ++ decimalNat count
  | lastSymbol byte offset =>
    "Invalid last symbol " ++ decimalNat byte.toNat ++ ", offset " ++ decimalNat offset ++ "."
  | padding => "Invalid padding"

/-- Why a tunnel could not be opened or closed. -/
inductive TunnelError
  /-- The credentials are not unpadded base64. -/
  | credentialEncoding (fault : Base64.Fault)
  /-- The credentials do not belong to the key. -/
  | decrypt (reason : String)
  /-- The decrypted credentials are not UTF-8. -/
  | credentialText
  /-- The port does not fit into 16 bits. -/
  | invalidPort (port : Int64)
  /-- The transport refused to open the tunnel. -/
  | refusedOpen (reason : String)
  /-- The transport failed to close the tunnel. -/
  | refusedClose (reason : String)
deriving DecidableEq, Repr

def TunnelError.message : TunnelError → String
  | credentialEncoding fault => "Invalid credentials encoding: " ++ fault.message
  | decrypt reason => "Unable to decrypt credentials: " ++ reason
  | credentialText => "Decrypted credentials are not valid UTF-8"
  | invalidPort port => "Remote port " ++ decimalInt port.toInt ++ " is out of range"
  | refusedOpen reason => "Unable to create tunnel: " ++ reason
  | refusedClose reason => "Unable to shutdown tunnel: " ++ reason

/-! ## Dispatch -/

/-- Why a part of an answer could not be put into effect. -/
inductive DispatchError
  | schedule (reason : String)
  /-- The interval could not be adopted. -/
  | cadence (seconds : Binary64) (cause : PollError)
  | stackReconcile (reason : String)
deriving DecidableEq, Repr

def DispatchError.message : DispatchError → String
  | schedule reason => "Schedule management failed: " ++ reason
  | cadence seconds cause =>
    "Unable to apply poll interval of " ++ NumberStyle.prose.write seconds ++ "s: " ++ cause.message
  | stackReconcile reason => "Stack management failed: " ++ reason

/-! ## Configuration -/

/-- Why a configuration cannot be used, loaded or saved. -/
inductive ConfigError
  /-- There is nothing at the path. -/
  | notFound (path : String)
  | invalid (reason : String)
  /-- The file is no TOML document, or an entry does not fit. -/
  | parse (fault : Toml.Error)
  /-- A value cannot be written in the file format. -/
  | serialize (reason : String)
  | missingField (name : String)
deriving DecidableEq, Repr

def ConfigError.message : ConfigError → String
  | notFound path => "Config file not found: " ++ path
  | invalid reason => "Invalid config: " ++ reason
  | parse fault => "TOML parse error: " ++ fault.message
  | serialize reason => "TOML serialize error: " ++ reason
  | missingField name => "Missing required field: " ++ name

/-! ## Any error -/

/-- Any error of the agent. -/
inductive AgentError
  | poll (error : PollError)
  | tunnel (error : TunnelError)
  | dispatch (error : DispatchError)
  | config (error : ConfigError)
deriving DecidableEq, Repr

def AgentError.message : AgentError → String
  | poll error => "Poll error: " ++ error.message
  | tunnel error => "Tunnel error: " ++ error.message
  | dispatch error => "Dispatch error: " ++ error.message
  | config error => "Configuration error: " ++ error.message

/-! ## Causes

The messages of an error and of what caused it, the outermost first. -/

def PollError.causes (error : PollError) : List String :=
  error.message ::
    match error with
    | request stage => [stage.message]
    | decode fault => [fault.message]
    | status _ | invalidInterval _ => []

def TunnelError.causes (error : TunnelError) : List String :=
  error.message ::
    match error with
    | credentialEncoding fault => [fault.message]
    | decrypt reason | refusedOpen reason | refusedClose reason => [reason]
    | credentialText | invalidPort _ => []

def DispatchError.causes (error : DispatchError) : List String :=
  error.message ::
    match error with
    | schedule reason | stackReconcile reason => [reason]
    | cadence _ cause => cause.causes

def ConfigError.causes (error : ConfigError) : List String :=
  error.message ::
    match error with
    | parse fault => [fault.message]
    | serialize reason => [reason]
    | notFound _ | invalid _ | missingField _ => []

def AgentError.causes (error : AgentError) : List String :=
  error.message ::
    match error with
    | poll error => error.causes
    | tunnel error => error.causes
    | dispatch error => error.causes
    | config error => error.causes

/-! ## Steps that can fail -/

/-- Two steps succeed if the first one does and the second one does on its value. -/
theorem bind_eq_ok_iff {ε α β : Type} {x : Except ε α} {f : α → Except ε β} {b : β} :
    (x >>= f) = .ok b ↔ ∃ a, x = .ok a ∧ f a = .ok b := by
  cases x <;> simp [bind, Except.bind]

end CheckIn
