/-
# Tunnels

The agent drives a transport that can open and close one tunnel.  Whether a tunnel is there is
always asked of the transport and never remembered.
-/
import CheckIn.Config.Basic
import CheckIn.Event

namespace CheckIn

/-- Whether a tunnel is there. -/
inductive TunnelState
  | closed
  | opened
deriving DecidableEq, Repr

namespace TunnelState

/-- The state that an open or closed transport is in. -/
def ofOpen (isOpen : Bool) : TunnelState := if isOpen then opened else closed

def name : TunnelState → String
  | closed => "closed"
  | opened => "open"

end TunnelState

/-- What stays the same of all tunnels of an agent. -/
structure TunnelIdentity where
  /-- The identifier of the agent, also the key of the credentials. -/
  edgeId : EdgeId
  serverAddr : String
  serverFingerprint : String
  /-- The address of the local service to which tunnels lead. -/
  localAddr : String
deriving DecidableEq, Repr, Inhabited

/-- The identity that a configuration describes. -/
def Config.tunnelIdentity (config : Config) : TunnelIdentity where
  edgeId := config.edgeId
  serverAddr := config.tunnelServerAddr
  serverFingerprint := config.tunnelServerFingerprint
  localAddr := config.apiServerAddr

/-- A transport, as far as the agent can tell its state and its failures. -/
structure Transport where
  /-- Whether a tunnel is there. -/
  isOpen : Bool := false
  /-- Whether the next opening fails. -/
  refusesOpen : Bool := false
  /-- Whether the next closing fails. -/
  refusesClose : Bool := false
  /-- What the transport says when it refuses to open. -/
  openFault : String := "tunnel server unreachable"
  /-- What the transport says when it fails to close. -/
  closeFault : String := "close refused"
  /-- How often closing was tried. -/
  closeCalls : Nat := 0
  /-- With what tunnels were opened, the last one first. -/
  openings : List TunnelParameters := []
deriving DecidableEq, Repr, Inhabited

namespace Transport

/-- Tries to open a tunnel; a failure changes nothing. -/
def tryOpen (transport : Transport) (parameters : TunnelParameters) :
    Except String Unit × Transport :=
  if transport.refusesOpen then (.error transport.openFault, transport)
  else (.ok (), { transport with isOpen := true, openings := parameters :: transport.openings })

/-- Tries to close the tunnel; a failure leaves it open. -/
def tryClose (transport : Transport) : Except String Unit × Transport :=
  let counted := { transport with closeCalls := transport.closeCalls + 1 }
  if transport.refusesClose then (.error transport.closeFault, counted)
  else (.ok (), { counted with isOpen := false })

/-- The state of the tunnel. -/
def state (transport : Transport) : TunnelState := .ofOpen transport.isOpen

end Transport

end CheckIn
