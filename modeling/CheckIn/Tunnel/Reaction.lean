/-
# Reacting to a status

Each answer of the controller is compared with the state of the transport.  If no tunnel is
wanted but one is there, it is closed; if one is wanted but none is there, it is opened; and
otherwise nothing is done.  Closing may take time, so it is split into its beginning, which is a
call, and its end, at which the transport succeeds or fails.
-/
import CheckIn.Policy
import CheckIn.Tunnel.Activity
import CheckIn.Tunnel.Basic
import CheckIn.Tunnel.Credentials

namespace CheckIn

/-- What was done about a status. -/
inductive TunnelAction
  | none
  | opened
  /-- Closing was asked for, and may have failed. -/
  | closeRequested
deriving DecidableEq, Repr

/-- The transport, and the way to the reaper that watches it. -/
structure TunnelControl where
  transport : Transport
  activity : ActivitySlot
deriving DecidableEq, Repr, Inhabited

/-- A port that fits into 16 bits, in decimal digits. -/
def remotePort (port : Int64) : Except TunnelError Nat :=
  if 0 ≤ port.toInt ∧ port.toInt < 0x10000 then .ok port.toInt.toNat
  else .error (.invalidPort port)

namespace TunnelControl

/-- The calls with which closing begins. -/
def beginClose (status : Status) : List Event := [.log (.idleRequested status), .closeTunnel]

/-- The end of closing on behalf of a cycle or of the reaper. -/
def finishClose (control : TunnelControl) :
    Except TunnelError (Option Unit) × TunnelControl × List Event :=
  let (result, transport) := control.transport.tryClose
  let (handled, records) :=
    CycleStep.tunnelClose.handle TunnelError.message (result.mapError .refusedClose)
  (handled, { control with transport }, records.map .log)

/-- Opens a tunnel with decrypted credentials, and reports its first use. -/
def openWith (identity : TunnelIdentity) (credentials : String) (port : Int64)
    (control : TunnelControl) : Except TunnelError Unit × TunnelControl × List Event :=
  match remotePort port with
  | .error error => (.error error, control, [])
  | .ok port =>
    let parameters : TunnelParameters :=
      { serverAddr := identity.serverAddr
        serverFingerprint := identity.serverFingerprint
        credentials
        remotePort := decimalNat port
        localAddr := identity.localAddr }
    match control.transport.tryOpen parameters with
    | (.error reason, transport) =>
      (.error (.refusedOpen reason), { control with transport },
        [.openTunnel parameters, .log (.tunnelRefused reason)])
    | (.ok (), transport) =>
      let (activity, records) := control.activity.report transport.isOpen
      (.ok (), ⟨transport, activity⟩,
        .openTunnel parameters :: .log (.tunnelEstablished port) :: records.map .log)

/-- Opens the tunnel that an answer asks for. -/
def openFor (decrypt : Decryptor) (identity : TunnelIdentity) (credentials : String)
    (port : Int64) (control : TunnelControl) :
    Except TunnelError TunnelAction × TunnelControl × List Event :=
  let request : Event := .log .tunnelRequested
  match CycleStep.credentials.handle TunnelError.message
      (decodeCredentials decrypt identity.edgeId credentials) with
  | (.error error, records) => (.error error, control, request :: records.map .log)
  | (.ok none, records) => (.ok .none, control, request :: records.map .log)
  | (.ok (some credentials), records) =>
    let (opened, control, events) := control.openWith identity credentials port
    let (handled, more) := CycleStep.tunnelOpen.handle TunnelError.message opened
    (handled.map fun done => if done.isSome then .opened else .none, control,
      request :: (records.map .log ++ events ++ more.map .log))

/-- Whether a status asks for the tunnel to be closed. -/
def mustClose (control : TunnelControl) (status : Status) : Bool :=
  decide (status = .idle ∧ control.transport.state = .opened)

/-- Whether a status asks for a tunnel to be opened. -/
def mustOpen (control : TunnelControl) (status : Status) : Bool :=
  decide (status = .required ∧ control.transport.state = .closed)

/-- Reacts to an answer, with a transport that closes without delay. -/
def react (decrypt : Decryptor) (identity : TunnelIdentity) (status : Status)
    (credentials : String) (port : Int64) (control : TunnelControl) :
    Except TunnelError TunnelAction × TunnelControl × List Event :=
  if control.mustClose status then
    let (handled, control, events) := control.finishClose
    (handled.map fun _ => .closeRequested, control, beginClose status ++ events)
  else if control.mustOpen status then
    control.openFor decrypt identity credentials port
  else (.ok .none, control, [])

end TunnelControl

end CheckIn
