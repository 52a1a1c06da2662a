import Mathlib.Algebra.Ring.Int.Defs
import Runtt.Codec
import Runtt.Device

/-! # The SMP server over the emulated device

`runtt_mock::server`: a frame is read tolerantly into a request, the request acts on
the device, and the response is framed in the request's own version.

`ciborium` is a `Cbor`: any encoder and any decoder.  Chatter and logging are left out.
-/
namespace Runtt

/-- `ciborium::Value`. -/
inductive Value where
  | integer (n : Int)
  | bytes (b : Bytes)
  | float (bits : UInt64)
  | text (s : String)
  | bool (b : Bool)
  | null
  | tag (n : UInt64) (v : Value)
  | array (vs : List Value)
  | map (entries : List (Value × Value))

/-- `ciborium::into_writer` and `ciborium::from_reader`. -/
structure Cbor where
  encode : Value → Bytes
  decode : Bytes → Option Value

/-! ## The CBOR helpers -/

/-- A map with text keys. -/
def textMap (entries : List (String × Value)) : Value :=
  .map (entries.map fun (k, v) => (.text k, v))

/-- The entries of a payload that is a map, and none of any other payload. -/
def decodeMap (cbor : Cbor) (b : Bytes) : List (Value × Value) :=
  match cbor.decode b with
  | some (.map m) => m
  | _ => []

def lookup (m : List (Value × Value)) (key : String) : Option Value :=
  (m.find? fun (k, _) => match k with
    | .text t => t == key
    | _ => false).map (·.2)

def getStr (m : List (Value × Value)) (key : String) : Option String :=
  match lookup m key with
  | some (.text t) => some t
  | _ => none

def getBool (m : List (Value × Value)) (key : String) : Option Bool :=
  match lookup m key with
  | some (.bool b) => some b
  | _ => none

/-- An integer that fits a `u64`. -/
def getU64 (m : List (Value × Value)) (key : String) : Option Nat :=
  match lookup m key with
  | some (.integer i) => if 0 ≤ i ∧ i < 2 ^ 64 then some i.toNat else none
  | _ => none

def getBytes (m : List (Value × Value)) (key : String) : Option Bytes :=
  match lookup m key with
  | some (.bytes b) => some b
  | _ => none

/-! ## Requests and responses -/

/-- os group command ids. -/
def OS_ECHO : UInt8 := 0
def OS_RESET : UInt8 := 5
def OS_MCUMGR_PARAMS : UInt8 := 6
/-- img group command ids. -/
def IMG_STATE : UInt8 := 0
def IMG_UPLOAD : UInt8 := 1
def IMG_ERASE : UInt8 := 5
/-- Our custom group's only command. -/
def DESCRIBE : UInt8 := 0

/-- MGMT_ERR_EINVAL, as Zephyr numbers it. -/
def ERR_EINVAL : Int := 3
/-- MGMT_ERR_ENOTSUP. -/
def ERR_ENOTSUP : Int := 8

/-- What a frame asks for: the arm of `dispatch` it takes, with the fields that arm
reads. -/
inductive Request where
  | echo (d : String)
  | mcumgrParams
  | reset
  | readState
  | setState (hash : Option Bytes) (confirm : Bool)
  | upload (off : Nat) (len : Option Nat) (sha : Option Bytes) (data : Bytes)
  | erase
  | describe
  | unsupported (group : UInt16) (cmd : UInt8)
  deriving DecidableEq, Repr

/-- The group and command a request is sent under. -/
def Request.command : Request → UInt16 × UInt8
  | echo _ => (GROUP_OS, OS_ECHO)
  | mcumgrParams => (GROUP_OS, OS_MCUMGR_PARAMS)
  | reset => (GROUP_OS, OS_RESET)
  | readState => (GROUP_IMG, IMG_STATE)
  | setState _ _ => (GROUP_IMG, IMG_STATE)
  | upload _ _ _ _ => (GROUP_IMG, IMG_UPLOAD)
  | erase => (GROUP_IMG, IMG_ERASE)
  | describe => (GROUP_PERUSER, DESCRIBE)
  | unsupported group cmd => (group, cmd)

/-- The request in a frame. -/
def Frame.request (cbor : Cbor) (f : Frame) : Request :=
  let payload := decodeMap cbor f.payload
  if (f.group, f.cmd) = (GROUP_OS, OS_ECHO) then .echo ((getStr payload "d").getD "")
  else if (f.group, f.cmd) = (GROUP_OS, OS_MCUMGR_PARAMS) then .mcumgrParams
  else if (f.group, f.cmd) = (GROUP_OS, OS_RESET) then .reset
  else if (f.group, f.cmd) = (GROUP_IMG, IMG_STATE) ∧ f.op = OP_READ then .readState
  else if (f.group, f.cmd) = (GROUP_IMG, IMG_STATE) then
    .setState (getBytes payload "hash") ((getBool payload "confirm").getD false)
  else if (f.group, f.cmd) = (GROUP_IMG, IMG_UPLOAD) then
    .upload ((getU64 payload "off").getD 0) (getU64 payload "len") (getBytes payload "sha")
      ((getBytes payload "data").getD [])
  else if (f.group, f.cmd) = (GROUP_IMG, IMG_ERASE) then .erase
  else if (f.group, f.cmd) = (GROUP_PERUSER, DESCRIBE) then .describe
  else .unsupported f.group f.cmd

/-- What the server puts in a response. -/
inductive Response where
  | echoed (r : String)
  | mcumgrParams (bufSize bufCount : Nat)
  | done
  | states (images : List SlotReport)
  | continueAt (off : Nat)
  | complete (off : Nat) (matched : Bool)
  | described (contract board appVersion : String) (channels : Nat) (img idle : Bool)
  | refused (rc : Int)
  deriving DecidableEq, Repr

/-- An SMP error payload: nested under the group from version 1 on, flat before. -/
def errorPayload (version : UInt8) (group : UInt16) (rc : Int) : Value :=
  if 1 ≤ version then
    textMap [("err", textMap [("group", .integer group.toNat), ("rc", .integer rc)])]
  else textMap [("rc", .integer rc)]

/-- One entry of the img group's state read. -/
def SlotReport.value (r : SlotReport) : Value :=
  textMap [("image", .integer 0), ("slot", .integer r.slot), ("version", .text r.img.version),
    ("hash", .bytes r.img.hash), ("bootable", .bool r.img.bootable),
    ("pending", .bool r.img.pending), ("confirmed", .bool r.img.confirmed),
    ("active", .bool r.active), ("permanent", .bool r.img.permanent)]

def Response.payload (version : UInt8) (group : UInt16) : Response → Value
  | echoed r => textMap [("r", .text r)]
  | mcumgrParams bufSize bufCount =>
    textMap [("buf_size", .integer bufSize), ("buf_count", .integer bufCount)]
  | done => textMap []
  | states images => textMap [("images", .array (images.map SlotReport.value))]
  | continueAt off => textMap [("off", .integer off)]
  | complete off matched => textMap [("off", .integer off), ("match", .bool matched)]
  | described contract board appVersion channels img idle =>
    textMap [("contract", .text contract), ("board", .text board),
      ("app_version", .text appVersion), ("channels", .integer channels), ("img", .bool img),
      ("idle", .bool idle)]
  | refused rc => errorPayload version group rc

structure Server where
  dev : Device
  /-- Once set, stop answering: the emulation of a yanked cable. -/
  silent : Bool
  /-- What `describe` reports as the contract version. -/
  contract : String
  deriving DecidableEq, Repr

namespace Server

/-- The arms of `dispatch`: what is answered, if anything, and what becomes of the
device. -/
def answer (sha256 : Bytes → Bytes) (srv : Server) :
    Request → Except Halt (Option Response × Server)
  | .echo d => .ok (some (.echoed d), srv)
  | .mcumgrParams => .ok (some (.mcumgrParams 384 4), srv)
  | .reset => .ok (some .done, { srv with dev := srv.dev.reset })
  | .readState => .ok (some (.states srv.dev.imageStates), srv)
  | .setState hash confirm =>
    let (r, dev) := srv.dev.setState hash confirm
    match r with
    | .ok () => .ok (some (.states dev.imageStates), { srv with dev })
    | .error _ => .ok (some (.refused ERR_EINVAL), { srv with dev })
  | .upload off len sha data => do
    let (outcome, dev) ← srv.dev.uploadChunk sha256 off len sha data
    match outcome with
    | .goSilent => return (none, { srv with dev, silent := true })
    | .continueAt off => return (some (.continueAt off), { srv with dev })
    | .complete off matched => return (some (.complete off matched), { srv with dev })
  | .erase => .ok (some .done, { srv with dev := srv.dev.erase })
  | .describe => .ok (some (.described srv.contract "runtt-mock" "0.1.0" 2 true false), srv)
  | .unsupported _ _ => .ok (some (.refused ERR_ENOTSUP), srv)

/-- `dispatch`.  The response echoes the request's version. -/
def dispatch (sha256 : Bytes → Bytes) (cbor : Cbor) (srv : Server) (req : Frame) :
    Except Halt (Option Frame × Server) := do
  let (out, srv) ← srv.answer sha256 (req.request cbor)
  return (out.map fun r =>
    { op := req.responseOp, version := req.version, flags := 0, group := req.group,
      seq := req.seq, cmd := req.cmd,
      payload := cbor.encode (r.payload req.version req.group) }, srv)

/-- `Fault::Timeout` withholds the response to one command. -/
def withholds (srv : Server) (command : UInt16 × UInt8) : Bool :=
  match srv.dev.fault with
  | .timeout group cmd => command == (group, cmd)
  | _ => false

/-- One request in the loop of `serve`: a silent server and a withheld command are
not even dispatched. -/
def handle (sha256 : Bytes → Bytes) (srv : Server) (req : Request) :
    Except Halt (Option Response × Server) :=
  if srv.silent || srv.withholds req.command then .ok (none, srv)
  else srv.answer sha256 req

/-- **What a request does to the device.** -/
theorem answer_dev {sha256 : Bytes → Bytes} {srv srv' : Server} {req : Request}
    {resp : Option Response} (h : srv.answer sha256 req = .ok (resp, srv')) :
    match req with
    | .reset => srv'.dev = srv.dev.reset
    | .setState hash confirm => srv'.dev = (srv.dev.setState hash confirm).2
    | .upload off len sha data =>
      ∃ o, srv.dev.uploadChunk sha256 off len sha data = .ok (o, srv'.dev)
    | .erase => srv'.dev = srv.dev.erase
    | _ => srv'.dev = srv.dev := by
  cases req with
  | setState hash confirm =>
    simp only [answer] at h
    split at h <;> cases h <;> rfl
  | upload off len sha data =>
    simp only [answer] at h
    cases hu : srv.dev.uploadChunk sha256 off len sha data with
    | error halt =>
      rw [hu] at h
      cases h
    | ok p =>
      obtain ⟨outcome, dev⟩ := p
      rw [hu, bind_ok] at h
      cases outcome <;> cases h <;> exact ⟨_, hu⟩
  | _ =>
    cases h
    rfl

/-- The frame's other fields only go into the response. -/
theorem dispatch_answer {sha256 : Bytes → Bytes} {cbor : Cbor} {srv srv' : Server} {req : Frame}
    {out : Option Frame} (h : srv.dispatch sha256 cbor req = .ok (out, srv')) :
    ∃ resp, srv.answer sha256 (req.request cbor) = .ok (resp, srv') := by
  unfold dispatch at h
  cases ha : srv.answer sha256 (req.request cbor) with
  | error halt =>
    rw [ha] at h
    cases h
  | ok p =>
    rw [ha] at h
    cases h
    exact ⟨p.1, rfl⟩

end Server
end Runtt
