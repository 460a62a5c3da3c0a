import CoSimIO.Communication.FileCommunication
import CoSimIO.Communication.MyInfo
import CoSimIO.Library.FileScript

/-! # `HandShake`

Each partner writes its own info to one file and loads the one of the other partner from another.
Then both decide on their own whether they are compatible.
-/

namespace CoSimIO

open FileProcess FileScript Serializer

set_option autoImplicit false

inductive HandShakeError
  | serializer (message : Text)
  | get (error : GetError)
  | mismatch (message : Text)

/-- An `Info` with the objects of its process -/
abbrev LocatedInfo : Type := InfoHeap × Info

namespace LocatedInfo

variable (info : LocatedInfo)

def get (type : ScalarType) (key : Text) : Except HandShakeError type.kind.Carrier :=
  (info.2.get info.1 (.scalar type) key).mapError .get

def communicationSettings : Except HandShakeError LocatedInfo := do
  let settings ← (info.2.get info.1 .info "communication_settings".toList).mapError .get
  return (info.1, settings)

end LocatedInfo

namespace HandShake

def boolText (v : Bool) : Text := if v then "true".toList else "false".toList

def intText (v : BitVec 32) : Text := integerText v.toInt

def sizeText (v : BitVec 64) : Text := integerText v.toNat

/-- The message has the own value between the first two texts, and that of the partner between
the others. -/
def check (partnerInfo : LocatedInfo) (type : ScalarType) (key : Text)
    (mine : type.kind.Carrier) (text : type.kind.Carrier → Text)
    (title between ending : Text) : Except HandShakeError Unit := do
  let partners ← partnerInfo.get type key
  if mine ≠ partners then
    .error (.mismatch (title ++ text mine ++ between ++ text partners ++ ending))
  else .ok ()

/-- A check of a value in the communication settings -/
def checkSettings (myInfo partnerInfo : LocatedInfo) (type : ScalarType) (key : Text)
    (text : type.kind.Carrier → Text) (title between ending : Text) :
    Except HandShakeError Unit := do
  let mySettings ← myInfo.communicationSettings
  let mine ← mySettings.get type key
  let partnerSettings ← partnerInfo.communicationSettings
  check partnerSettings type key mine text title between ending

def checkUseAuxFile (myInfo partnerInfo : LocatedInfo) : Except HandShakeError Unit :=
  checkSettings myInfo partnerInfo .bool "use_aux_file_for_file_availability".toList boolText
    ("Mismatch in use_aux_file_for_file_availability!\n" ++
      "My use_aux_file_for_file_availability: ").toList
    "\nPartner use_aux_file_for_file_availability: ".toList
    "\nNote that the default on unix is false, while the default on windows is true!\n".toList

def checkUseFileSerializer (myInfo partnerInfo : LocatedInfo) : Except HandShakeError Unit :=
  checkSettings myInfo partnerInfo .bool "use_file_serializer".toList boolText
    "Mismatch in use_file_serializer!\nMy use_file_serializer: ".toList
    "\nPartner use_file_serializer: ".toList "\n".toList

def checkOperatingSystem (myInfo partnerInfo : LocatedInfo) : Except HandShakeError Unit := do
  let mine ← myInfo.get .string "operating_system".toList
  check partnerInfo .string "operating_system".toList mine (fun _ => [])
    "Pipe communication cannot be used between different operating systems!\n".toList [] []

def checkBufferSize (myInfo partnerInfo : LocatedInfo) : Except HandShakeError Unit :=
  checkSettings myInfo partnerInfo .sizeT "buffer_size".toList sizeText
    "Mismatch in buffer_size!\nMy buffer_size: ".toList "\nPartner buffer_size: ".toList
    "\n".toList

/-- `DerivedHandShake` of the class of the format -/
def derivedHandShake (c : Configuration) (myInfo partnerInfo : LocatedInfo) :
    Except HandShakeError Unit :=
  match c.format with
  | .file _ _ => do
    checkUseAuxFile myInfo partnerInfo
    checkUseFileSerializer myInfo partnerInfo
  | .pipe _ => do
    checkOperatingSystem myInfo partnerInfo
    checkBufferSize myInfo partnerInfo
  | .localSocket => .ok ()
  | .socket _ => .ok ()

/-- The part of `HandShake` after the exchange. Different endianness is only worth a warning. -/
def compatibilityChecks (c : Configuration) (myInfo partnerInfo : LocatedInfo) :
    Except HandShakeError Unit := do
  check partnerInfo .int "version_major".toList c.version.major intText
    "Major version mismatch! My version: ".toList "; partner version: ".toList "\n".toList
  check partnerInfo .int "version_minor".toList c.version.minor intText
    "Minor version mismatch! My version: ".toList "; partner version: ".toList "\n".toList
  check partnerInfo .bool "primary_was_explicitly_specified".toList
    c.primaryWasExplicitlySpecified boolText
    ("Mismatch in how the primary connection was specified!\n" ++
      "Primary connection was explicitly specified for me: ").toList
    "\nPrimary connection was explicitly specified for partner: ".toList "\n".toList
  check partnerInfo .string "communication_format".toList c.format.name id
    "Mismatch in communication_format!\nMy communication_format: ".toList
    "\nPartner communication_format: ".toList "\n".toList
  check partnerInfo .int "num_processes".toList c.size intText
    "Mismatch in num_processes!\nMy num_processes: ".toList "\nPartner num_processes: ".toList
    "\n".toList
  check partnerInfo .bool "always_use_serializer".toList c.alwaysUseSerializer boolText
    "Mismatch in always_use_serializer!\nMy always_use_serializer: ".toList
    "\nPartner always_use_serializer: ".toList "\n".toList
  check partnerInfo .string "serializer_trace_type".toList
    (traceTypeToString c.serializer.trace) id
    "Mismatch in serializer_trace_type!\nMy serializer_trace_type: ".toList
    "\nPartner serializer_trace_type: ".toList "\n".toList
  let _ ← partnerInfo.get .bool "is_big_endian".toList
  derivedHandShake c myInfo partnerInfo

/-- The pieces in which a file is written, and the sizes of those in which another one is read. -/
structure Buffering where
  pieces : Text → List Text
  portions : List Nat
  flatten_pieces : ∀ file, (pieces file).flatten = file

/-- A process that calls `HandShake` -/
structure Partner where
  configuration : Configuration
  state : InfoState
  layout : Nat → BitVec 64
  buffering : Buffering

namespace Partner

variable (p : Partner)

def myInfo : LocatedInfo :=
  ((p.state.run (p.configuration.getMyInfo 0 1)).heap,
    (p.state.run (p.configuration.getMyInfo 0 1)).infos 0)

def side : Side := if p.configuration.isPrimaryConnection then .primary else .secondary

end Partner

variable (c : Communication)

/-- `file_name_p2s` or `file_name_s2p` -/
def infoFile (writer : Side) : Text :=
  let direction := match writer with
    | .primary => "primary_to_secondary".toList
    | .secondary => "secondary_to_primary".toList
  c.getFileName
    ("CoSimIO_".toList ++ c.connectionName ++ "_compatibility_check_".toList ++ direction)
    "dat".toList

def openMyFile (side : Side) : List Step :=
  Communication.waitUntilFileIsRemoved (infoFile c side) ++
    FileCommunication.openFileSerializer (c.getTmpFileName (infoFile c side) true)

def exchangeFiles (side : Side) (buffering : Buffering) (file : Text) : List Step :=
  (buffering.pieces file).map .write ++ [.close] ++
    c.makeFileVisible (infoFile c side) true ++
    Communication.waitForPath (infoFile c side.other) true ++
    FileCommunication.serializeFromFile (infoFile c side.other) buffering.portions

/-- `exchange_data_for_handshake`, then the checks. The files are closed when an error is raised. -/
def handShake (depth : Nat) (p : Partner) :
    Script Text Char LocatedInfo (Except HandShakeError Unit) :=
  .run (openMyFile c p.side) fun _ =>
    match p.configuration.savedInfo p.state p.layout depth with
    | .error message => .ended (.error (.serializer message))
    | .ok file => .run (exchangeFiles c p.side p.buffering file) fun received =>
      match Info.loadFile p.configuration.serializer depth p.myInfo.1 received with
      | .error message => .ended (.error (.serializer message))
      | .ok partnerInfo =>
        .report partnerInfo (.run (Communication.removePath (infoFile c p.side.other)) fun _ =>
          .ended (compatibilityChecks p.configuration p.myInfo partnerInfo))

end HandShake

end CoSimIO
