import CoSimIO.Communication.FileSession
import CoSimIO.Communication.TransferProtocol

/-! # A coupled simulation over files

Both partners connect, make their calls, and disconnect. The handshake makes sure that they use
their files in the same way.
-/

namespace CoSimIO.FileSession

open FileProcess FileScript HandShake Serializer

set_option autoImplicit false

variable (c : Communication) (depth : Nat)

/-- A partner with the format `file`, and the calls that it makes when it is connected -/
structure FilePartner extends Partner where
  useAuxFileForFileAvailability : Bool
  useFileSerializer : Bool
  format : configuration.format = .file useAuxFileForFileAvailability useFileSerializer
  calls : List DataCall

/-- On rank 0 -/
def FilePartner.fileCommunication (p : FilePartner) : FileCommunication where
  toCommunication := c
  rank := "0".toList
  useAuxFileForFileAvailability := p.useAuxFileForFileAvailability
  useFileSerializer := p.useFileSerializer
  alwaysUseSerializer := p.configuration.alwaysUseSerializer

/-- The result is what the partner has received. -/
abbrev SimulationScript : Type :=
  Script Text Char LocatedInfo (Except HandShakeError (List (Text × Text)))

def exchange (p : FilePartner) : Except HandShakeError Unit → SimulationScript
  | .error error => .ended (.error error)
  | .ok _ => ((p.fileCommunication c).makeCalls p.calls []).bind fun received =>
    .ended (.ok received)

/-- What the partners receive -/
def received (p : Side → FilePartner) : Side → List (Text × Text) :=
  FileCommunication.delivered fun side => (p side).calls

section Paths

variable {c} {partner : FilePartner} {path tag : Text}

end Paths

theorem Script.bind_assoc {Path Byte Event Result Result' Result'' : Type}
    (script : Script Path Byte Event Result) (next : Result → Script Path Byte Event Result')
    (last : Result' → Script Path Byte Event Result'') :
    (script.bind next).bind last = script.bind fun result => (next result).bind last := by
  induction script with
  | ended result => rfl
  | report event script ih => exact congrArg (Script.report event) ih
  | run instructions script ih => exact congrArg (Script.run instructions) (funext ih)

section Protocols

variable {c} (plan : Plan c LocatedInfo (Except HandShakeError Unit)) {p : Side → FilePartner}
  {sender : Text → Side} {order : List Side}

end Protocols

section Steering

end Steering

end CoSimIO.FileSession
