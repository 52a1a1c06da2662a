import Runtt.Text

/-! # Placement labels

`runtt_transport::Target`: what a service writes to say which board it means.  A label is a
transport prefix, a colon, and what that transport makes of the rest; under `usb:` the rest
is a port path if it has the shape of one, and a board serial otherwise.
-/
namespace Runtt

/-- Which board a `usb:` label means. -/
inductive UsbSelector where
  | portPath (path : String)
  | serial (serial : String)
  deriving DecidableEq, Repr

/-- A placement label. -/
inductive Target where
  | usb (selector : UsbSelector)
  | tty (device : String)
  | can (iface nodeId : String)
  deriving DecidableEq, Repr

/-- Only ASCII digits. -/
def allDigits (s : List Char) : Bool := s.all Char.isDigit

/-- Does this look like a kernel USB port path? -/
def isPortPath (s : String) : Bool :=
  match Text.splitOnce s '-' with
  | none => false
  | some (bus, ports) =>
    if bus.toList.isEmpty || !allDigits bus.toList then false
    else
      !ports.toList.isEmpty &&
        (ports.toList.splitOn '.').all fun p => !p.isEmpty && allDigits p

/-- `UsbSelector::parse`. -/
def UsbSelector.parse (s : String) : UsbSelector :=
  if isPortPath s then .portPath s else .serial s

/-- `Display` of a selector. -/
def UsbSelector.display : UsbSelector → String
  | .portPath s | .serial s => s

namespace Target

/-- `Target::parse`. -/
def parse (label : String) : Except Error Target :=
  match Text.splitOnce label ':' with
  | none =>
    .error [s!"placement label {debugStr label} has no transport prefix; expected e.g. " ++
      "`usb:3-6`"]
  | some (pre, rest) =>
    if pre = "usb" then .ok (.usb (UsbSelector.parse rest))
    else if pre = "tty" then .ok (.tty rest)
    else if pre = "can" then
      match Text.splitOnce rest '/' with
      | none => .error [s!"can target {debugStr rest} must be `can:<iface>/<node-id>`"]
      | some (iface, nodeId) => .ok (.can iface nodeId)
    else
      .error [s!"unknown transport prefix {debugStr pre} in {debugStr label}; " ++
        "known: usb, tty, can"]

/-- `Display` of a target. -/
def display : Target → String
  | .usb selector => "usb:" ++ selector.display
  | .tty device => "tty:" ++ device
  | .can iface nodeId => "can:" ++ iface ++ "/" ++ nodeId

/-- A label with a prefix is split behind it. -/
theorem splitOnce_label {pre : List Char} (h : ':' ∉ pre) (rest : String) :
    Text.splitOnce (String.ofList pre ++ ":" ++ rest) ':' = some (String.ofList pre, rest) := by
  have hlabel : String.ofList pre ++ ":" ++ rest = String.ofList (pre ++ ':' :: rest.toList) := by
    apply String.toList_injective
    simp
  rw [hlabel, Text.splitOnce_append h, String.ofList_toList]

/-- A `usb:` label. -/
theorem parse_usb (rest : String) :
    parse ("usb:" ++ rest) = .ok (.usb (UsbSelector.parse rest)) := by
  have hsplit : Text.splitOnce ("usb:" ++ rest) ':' = some ("usb", rest) :=
    splitOnce_label (by decide : ':' ∉ ['u', 's', 'b']) rest
  unfold parse
  rw [hsplit]
  rfl

/-- A `tty:` label. -/
theorem parse_tty (device : String) : parse ("tty:" ++ device) = .ok (.tty device) := by
  have hsplit : Text.splitOnce ("tty:" ++ device) ':' = some ("tty", device) :=
    splitOnce_label (by decide : ':' ∉ ['t', 't', 'y']) device
  unfold parse
  rw [hsplit]
  rfl

/-- A `can:` label, the interface ending at the first slash. -/
theorem parse_can {iface : String} (h : '/' ∉ iface.toList) (nodeId : String) :
    parse ("can:" ++ iface ++ "/" ++ nodeId) = .ok (.can iface nodeId) := by
  have hlabel : "can:" ++ iface ++ "/" ++ nodeId = "can:" ++ (iface ++ "/" ++ nodeId) := by
    apply String.toList_injective
    simp
  have hsplit : Text.splitOnce ("can:" ++ (iface ++ "/" ++ nodeId)) ':' =
      some ("can", iface ++ "/" ++ nodeId) :=
    splitOnce_label (by decide : ':' ∉ ['c', 'a', 'n']) _
  have hslash : Text.splitOnce (iface ++ "/" ++ nodeId) '/' = some (iface, nodeId) := by
    have hrest : iface ++ "/" ++ nodeId = String.ofList (iface.toList ++ '/' :: nodeId.toList) := by
      apply String.toList_injective
      simp
    rw [hrest, Text.splitOnce_append h, String.ofList_toList, String.ofList_toList]
  unfold parse
  rw [hlabel, hsplit]
  simp only [hslash]
  rfl

end Target
end Runtt
