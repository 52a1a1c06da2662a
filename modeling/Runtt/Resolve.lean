import Mathlib.Data.List.Destutter
import Mathlib.Data.List.Sort
import Mathlib.Data.String.Basic
import Runtt.Target

/-! # Turning a placement label into device paths

`runtt_transport::resolve`.  What it finds out it reads from files, so the host is what
those reads return: sysfs, `/dev`, and the tree the udev rules keep under `/dev/runtt`.
-/
namespace Runtt

def IFACE_MGMT : String := "runtt-mgmt"
def IFACE_LOG : String := "runtt-log"

/-- How far above the node id the device's console frames sit. -/
def LOG_ID_OFFSET : Nat := 2

/-- The largest standard CAN identifier. -/
def MAX_STD_ID : Nat := 0x7ff

/-- The file system of the host, as far as `resolve` looks at it. -/
structure Host where
  isDir : String → Bool
  pathExists : String → Bool
  /-- The file names of a directory; reading an entry can fail on its own. -/
  readDir : String → Except Error (List (Except Error String))
  canonicalize : String → Option String
  readToString : String → Option String

/-- Where one target's channels are. -/
inductive Resolved where
  | serial (mgmt : String) (log : Option String)
  | can (iface : String) (nodeId : Nat) (log : Option String)
  deriving DecidableEq, Repr

/-- Where a target's console output comes from. -/
inductive LogSource where
  | serial (path : String)
  | can (iface : String) (id : Nat)
  deriving DecidableEq, Repr

namespace Resolved

/-- `log_source`: a CAN target has its console on the bus unless one is given. -/
def logSource : Resolved → Option LogSource
  | .serial _ log => log.map .serial
  | .can _ _ (some p) => some (.serial p)
  | .can iface nodeId none => some (.can iface (nodeId + LOG_ID_OFFSET))

/-- `set_log`. -/
def setLog (path : String) : Resolved → Resolved
  | .serial mgmt _ => .serial mgmt (some path)
  | .can iface nodeId _ => .can iface nodeId (some path)

/-- `lock_key`: the path with its links resolved, or the bus address. -/
def lockKey (h : Host) : Resolved → String
  | .serial mgmt _ => (h.canonicalize mgmt).getD mgmt
  | .can iface nodeId _ => "can:" ++ iface ++ "/" ++ Text.hexNumber nodeId

end Resolved

/-- One candidate tty discovered in sysfs. -/
structure Candidate where
  dev : String
  portPath : Option String
  interface : Option String
  serial : Option String
  deriving DecidableEq, Repr

namespace Resolve

/-! ## Scanning sysfs -/

/-- A file read whole, trimmed, and dropped when nothing is left. -/
def readTrimmed (h : Host) (path : String) : Option String :=
  ((h.readToString path).map Text.trim).filter (· ≠ "")

/-- The link from a tty to its USB interface. -/
def deviceLink (tty : String) : String := Text.join (Text.join "/sys/class/tty" tty) "device"

/-- `tty_port_path`: the name of the interface directory up to the colon. -/
def ttyPortPath (h : Host) (tty : String) : Option String := do
  let real ← h.canonicalize (deviceLink tty)
  let iface ← Text.fileName real
  let port := String.ofList (iface.toList.takeWhile (· ≠ ':'))
  if port = "" then none else some port

/-- `tty_interface`. -/
def ttyInterface (h : Host) (tty : String) : Option String :=
  readTrimmed h (Text.join (deviceLink tty) "interface")

/-- `tty_serial`: the serial belongs to the USB device, one directory up. -/
def ttySerial (h : Host) (tty : String) : Option String := do
  let iface ← h.canonicalize (deviceLink tty)
  let device ← Text.parent iface
  readTrimmed h (Text.join device "serial")

/-- What a tty looks like to the scan. -/
def candidate (h : Host) (tty : String) : Candidate where
  dev := Text.join "/dev" tty
  portPath := ttyPortPath h tty
  interface := ttyInterface h tty
  serial := ttySerial h tty

/-- Only USB CDC-ACM devices that are there. -/
def isContractTty (h : Host) (tty : String) : Bool :=
  (Text.startsWith tty "ttyACM" || Text.startsWith tty "ttyUSB") &&
    h.pathExists (Text.join "/dev" tty)

/-- The entries of the class directory. -/
def scanEntries (h : Host) : List (Except Error String) → Except Error (List Candidate)
  | [] => .ok []
  | .error e :: _ => .error e
  | .ok tty :: rest =>
    if isContractTty h tty then do
      let cs ← scanEntries h rest
      .ok (candidate h tty :: cs)
    else scanEntries h rest

/-- `scan_ttys`. -/
def scanTtys (h : Host) : Except Error (List Candidate) :=
  if !h.isDir "/sys/class/tty" then .ok []
  else do
    let entries ← h.readDir "/sys/class/tty"
    scanEntries h entries

/-! ## Picking the channels -/

/-- `sort` and `dedup`. -/
def sortDedup (l : List String) : List String :=
  (l.insertionSort (· ≤ ·)).destutter (· ≠ ·)

/-- `if seen.is_empty() { "none" } else { seen.join(", ") }`. -/
def listing (seen : List String) : String :=
  if seen = [] then "none" else ", ".intercalate seen

/-- The device of the first candidate with that interface descriptor. -/
def channel (iface : String) (matching : List Candidate) : Option String :=
  (matching.find? fun c => c.interface == some iface).map Candidate.dev

/-- What a board's candidates give: by interface descriptor, or the only tty there is. -/
def pick (what : String) (matching : List Candidate) : Except Error Resolved :=
  match channel IFACE_MGMT matching with
  | some mgmt => .ok (.serial mgmt (channel IFACE_LOG matching))
  | none =>
    match matching with
    | [c] => .ok (.serial c.dev none)
    | _ =>
      .error [s!"found {matching.length} tty devices {what} but none advertising the " ++
        s!"{IFACE_MGMT} interface descriptor; is the firmware contract present?"]

/-- `resolve_usb_serial`, over the candidates of a scan. -/
def resolveSerialAmong (serial : String) (candidates : List Candidate) : Except Error Resolved :=
  let matching := candidates.filter fun c => c.serial == some serial
  if matching = [] then
    let seen := sortDedup ((candidates.filter fun c => c.interface == some IFACE_MGMT).filterMap
      Candidate.serial)
    .error [s!"no board with serial {debugStr serial} is attached. runtt boards currently " ++
      s!"attached: {listing seen}. A board only publishes a serial once it has an identity " ++
      "record -- write one with scripts/make-identity.py."]
  else
    let ports := sortDedup (matching.filterMap Candidate.portPath)
    if 1 < ports.length then
      .error [s!"serial {debugStr serial} is claimed by more than one board, on USB ports " ++
        " and ".intercalate ports ++ ". Serials must be unique: re-provision one of them with " ++
        "scripts/make-identity.py, or address them by port path instead."]
    else pick s!"with serial {debugStr serial}" matching

/-- `resolve_usb_serial`. -/
def resolveUsbSerial (h : Host) (serial : String) : Except Error Resolved := do
  let candidates ← context "failed to scan sysfs for tty devices" (scanTtys h)
  resolveSerialAmong serial candidates

/-- `resolve_usb` without the udev tree, over the candidates of a scan. -/
def resolvePortAmong (port : String) (candidates : List Candidate) : Except Error Resolved :=
  let matching := candidates.filter fun c => c.portPath == some port
  if matching = [] then
    let seen := candidates.filterMap Candidate.portPath
    .error [s!"no contract device at usb:{port}. Ports currently present: {listing seen}. " ++
      "A board without our firmware contract shows up as exactly this error, which is the " ++
      "correct legible symptom."]
  else pick s!"at usb:{port}" matching

/-- The entries of `/dev/runtt`, behind the links found so far. -/
def udevEntries (h : Host) (port : String) (mgmt log : Option String) :
    List (Except Error String) → Except Error (Option String × Option String)
  | [] => .ok (mgmt, log)
  | .error e :: _ => .error e
  | .ok name :: rest =>
    let path := Text.join "/dev/runtt" name
    let resolved := (h.canonicalize path).getD path
    match Text.fileName resolved with
    | none => udevEntries h port mgmt log rest
    | some devName =>
      if ttyPortPath h devName ≠ some port then udevEntries h port mgmt log rest
      else if Text.endsWith name "-mgmt" then udevEntries h port (some resolved) log rest
      else if Text.endsWith name "-log" then udevEntries h port mgmt (some resolved) rest
      else udevEntries h port mgmt log rest

/-- `from_udev_tree`. -/
def fromUdevTree (h : Host) (port : String) : Except Error (Option Resolved) :=
  if !h.isDir "/dev/runtt" then .ok none
  else do
    let entries ← h.readDir "/dev/runtt"
    let (mgmt, log) ← udevEntries h port none none entries
    .ok (mgmt.map fun mgmt => .serial mgmt log)

/-- `resolve_usb`: the udev tree if it knows the port, else a scan. -/
def resolveUsb (h : Host) (port : String) : Except Error Resolved := do
  match ← fromUdevTree h port with
  | some r => .ok r
  | none =>
    let candidates ← context "failed to scan sysfs for tty devices" (scanTtys h)
    resolvePortAmong port candidates

/-! ## CAN node ids -/

/-- The number a node id stands for: hexadecimal behind `0x` or `0X`, else decimal. -/
def nodeNumber (s : String) : Option Nat :=
  let t := Text.trim s
  match (Text.stripPrefix t "0x").or (Text.stripPrefix t "0X") with
  | some hex => Text.u32FromStrRadix hex 16
  | none => Text.u32FromStrRadix t 10

/-- `parse_node_id`. -/
def parseNodeId (s : String) : Except Error Nat :=
  match nodeNumber s with
  | none =>
    .error [s!"CAN node id {debugStr s} is not a number; expected e.g. `0x42` or `66`"]
  | some id =>
    if MAX_STD_ID < id then
      .error [s!"CAN node id {debugStr s} ({Text.hexNumber id}) is larger than the maximum " ++
        s!"standard CAN identifier ({Text.hexNumber MAX_STD_ID}). The firmware filters on " ++
        "11-bit ids; extended ids are not part of the contract."]
    else if MAX_STD_ID < id + LOG_ID_OFFSET then
      .error [s!"CAN node id {debugStr s} leaves no room for the two ids the device also " ++
        s!"owns -- replies on {Text.hexNumber (id + 1)} and its console on " ++
        s!"{Text.hexNumber (id + LOG_ID_OFFSET)} -- and the 11-bit maximum is " ++
        s!"{Text.hexNumber MAX_STD_ID}"]
    else .ok id

/-- `resolve`. -/
def resolve (h : Host) : Target → Except Error Resolved
  | .tty device =>
    let path := if Text.startsWith device "/" then device else Text.join "/dev" device
    if !h.pathExists path then .error [s!"{path} does not exist"] else .ok (.serial path none)
  | .usb (.portPath p) => resolveUsb h p
  | .usb (.serial serial) => resolveUsbSerial h serial
  | .can iface nodeId => do
    let nodeId ← parseNodeId nodeId
    if !h.isDir (Text.join "/sys/class/net" iface) then
      .error [s!"no network interface named {debugStr iface}. For a virtual bus: " ++
        s!"`sudo modprobe vcan can-isotp && sudo ip link add dev {iface} type vcan && sudo ip " ++
        s!"link set {iface} up`"]
    else .ok (.can iface nodeId none)

/-! ## Facts about picking -/

theorem length_destutter_le_one {a : String} {l : List String} :
    (l.destutter' (· ≠ ·) a).length ≤ 1 ↔ ∀ b ∈ l, b = a := by
  induction l with
  | nil => simp
  | cons b l ih =>
    by_cases hab : a = b
    · subst hab
      rw [List.destutter'_cons_neg _ (not_not.mpr rfl), ih]
      simp
    · rw [List.destutter'_cons_pos _ hab, List.length_cons]
      have hpos : 0 < (l.destutter' (· ≠ ·) b).length :=
        List.length_pos_iff.mpr (List.destutter'_ne_nil _ _)
      constructor
      · intro hle
        omega
      · intro hall
        exact absurd (hall b List.mem_cons_self).symm hab

/-- Sorting and removing repetitions leaves at most one exactly when all are equal. -/
theorem length_sortDedup_le_one {l : List String} :
    (sortDedup l).length ≤ 1 ↔ ∀ a ∈ l, ∀ b ∈ l, a = b := by
  have hmem : ∀ a, a ∈ l.insertionSort (· ≤ ·) ↔ a ∈ l := fun a =>
    (List.perm_insertionSort (· ≤ ·) l).mem_iff
  unfold sortDedup
  simp only [← hmem]
  generalize l.insertionSort (· ≤ ·) = s
  cases s with
  | nil => simp
  | cons a s =>
    rw [List.destutter_cons', length_destutter_le_one]
    constructor
    · intro hall b hb c hc
      have hba : b = a := (List.mem_cons.mp hb).elim id (hall b)
      have hca : c = a := (List.mem_cons.mp hc).elim id (hall c)
      rw [hba, hca]
    · intro hall b hb
      exact hall b (List.mem_cons_of_mem _ hb) a List.mem_cons_self

/-- When `c` is the only match with the descriptor, it is the one that is found. -/
theorem channel_eq_some {iface : String} {matching : List Candidate} {c : Candidate}
    (hc : c ∈ matching) (hiface : c.interface = some iface)
    (honly : ∀ d ∈ matching, d.interface = some iface → d.dev = c.dev) :
    channel iface matching = some c.dev := by
  have hfound : (matching.find? fun c => c.interface == some iface).isSome := by
    rw [List.find?_isSome]
    exact ⟨c, hc, by rw [hiface]; exact beq_self_eq_true _⟩
  obtain ⟨d, hd⟩ := Option.isSome_iff_exists.mp hfound
  have hmatch : d.interface = some iface := by simpa using List.find?_some hd
  rw [channel, hd, Option.map_some, honly d (List.mem_of_find?_eq_some hd) hmatch]

theorem pick_of_channel {what mgmt : String} {matching : List Candidate}
    (h : channel IFACE_MGMT matching = some mgmt) :
    pick what matching = .ok (.serial mgmt (channel IFACE_LOG matching)) := by
  unfold pick
  rw [h]

/-- `resolve_usb_serial` returns what is picked from the matching candidates, behind the check
for a second port. -/
theorem resolveSerialAmong_picks {serial : String} {cs : List Candidate} {r : Resolved}
    (h : resolveSerialAmong serial cs = .ok r) :
    (cs.filter fun c => c.serial == some serial) ≠ [] ∧
      (sortDedup ((cs.filter fun c => c.serial == some serial).filterMap
        Candidate.portPath)).length ≤ 1 ∧
      pick s!"with serial {debugStr serial}" (cs.filter fun c => c.serial == some serial) =
        .ok r := by
  unfold resolveSerialAmong at h
  simp only at h
  split at h
  · cases h
  · rename_i hsome
    split at h
    · cases h
    · rename_i hports
      exact ⟨hsome, Nat.not_lt.mp hports, h⟩

/-- What `resolve_usb_serial` returns is what the matching candidates give, and they are on
one port. -/
theorem resolveSerialAmong_eq_ok {serial : String} {cs : List Candidate} {r : Resolved}
    (h : resolveSerialAmong serial cs = .ok r) :
    (∃ c ∈ cs, c.serial = some serial) ∧
      ∀ c ∈ cs, c.serial = some serial → ∀ d ∈ cs, d.serial = some serial →
        ∀ p q, c.portPath = some p → d.portPath = some q → p = q := by
  obtain ⟨hsome, hports, -⟩ := resolveSerialAmong_picks h
  have hmatch {c : Candidate} (hc : c ∈ cs) (hcs : c.serial = some serial) :
      c ∈ cs.filter fun c => c.serial == some serial :=
    List.mem_filter.mpr ⟨hc, by rw [hcs]; exact beq_self_eq_true _⟩
  constructor
  · obtain ⟨c, hc⟩ := List.exists_mem_of_ne_nil _ hsome
    rw [List.mem_filter, beq_iff_eq] at hc
    exact ⟨c, hc⟩
  · intro c hc hcs d hd hds p q hp hq
    refine length_sortDedup_le_one.mp hports p ?_ q ?_
    · exact List.mem_filterMap.mpr ⟨c, hmatch hc hcs, hp⟩
    · exact List.mem_filterMap.mpr ⟨d, hmatch hd hds, hq⟩

/-- A serial that only one port publishes is resolved from that port's candidates. -/
theorem resolveSerialAmong_of_one_port {serial : String} {cs : List Candidate} {c : Candidate}
    (hc : c ∈ cs) (hserial : c.serial = some serial)
    (hports : ∀ d ∈ cs, d.serial = some serial → d.portPath = c.portPath) :
    resolveSerialAmong serial cs =
      pick s!"with serial {debugStr serial}" (cs.filter fun c => c.serial == some serial) := by
  have hsome : (cs.filter fun c => c.serial == some serial) ≠ [] := by
    have hmem : c ∈ cs.filter fun c => c.serial == some serial :=
      List.mem_filter.mpr ⟨hc, by rw [hserial]; exact beq_self_eq_true _⟩
    exact List.ne_nil_of_mem hmem
  have hone : (sortDedup ((cs.filter fun c => c.serial == some serial).filterMap
      Candidate.portPath)).length ≤ 1 := by
    rw [length_sortDedup_le_one]
    intro p hp q hq
    obtain ⟨d, hd, hdp⟩ := List.mem_filterMap.mp hp
    obtain ⟨e, he, heq⟩ := List.mem_filterMap.mp hq
    rw [List.mem_filter, beq_iff_eq] at hd he
    rw [hports d hd.1 hd.2] at hdp
    rw [hports e he.1 he.2] at heq
    exact Option.some.inj (hdp.symm.trans heq)
  unfold resolveSerialAmong
  simp only [if_neg hsome, if_neg (Nat.not_lt.mpr hone)]

end Resolve
end Runtt
