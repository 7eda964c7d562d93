/-
# Events

What can be seen of a running agent: the calls it makes to its collaborators, in order, and the
records it writes.
-/
import CheckIn.Log

namespace CheckIn

/-- What a transport is told when it shall open a tunnel. -/
structure TunnelParameters where
  /-- The address of the tunnel server. -/
  serverAddr : String
  /-- The fingerprint that the tunnel server must have. -/
  serverFingerprint : String
  /-- The decrypted credentials. -/
  credentials : String
  /-- The port to be exposed on the tunnel server, in decimal digits. -/
  remotePort : String
  /-- The address of the local service to which the tunnel leads. -/
  localAddr : String
deriving DecidableEq, Repr, Inhabited

/-- A call to a collaborator, or a record. -/
inductive Event
  /-- A request for the status, with the time that it may take. -/
  | fetch (timeout : Duration)
  /-- A tunnel shall be opened. -/
  | openTunnel (parameters : TunnelParameters)
  /-- The tunnel shall be closed. -/
  | closeTunnel
  /-- The schedules are handed to the scheduler. -/
  | apply (schedules : List Schedule)
  /-- The logs of these jobs are wanted. -/
  | collect (ids : List Int64)
  /-- The time that a request may take shall be changed. -/
  | setTimeout (timeout : Duration)
  /-- Another interval shall be adopted. -/
  | adopt (seconds : Binary64)
  /-- The stack targets are handed to the reconciler. -/
  | reconcile (versions : StackVersions)
  | log (record : LogRecord)

end CheckIn
