import Runtt.Resolve

/-! # Provisioning a serial

`scripts/make-identity.py` writes the record a board takes its serial from.  It refuses a
serial that a placement label would read as a port path, and anything that is not printable
ASCII; the board then publishes the serial, and `usb:<serial>` is meant to find the board.

The two ends disagree about spaces.  The script accepts them anywhere; `tty_serial` trims
what sysfs shows, and so a serial with a space at either end is never found, while a board
whose serial differs from another's by such a space only takes the other's name.
-/
namespace Runtt
namespace Provision

def SERIAL_LEN : Nat := 16
def MAGIC : Nat := 0x74746E72
def VERSION : Nat := 1
def NO_NODE_ID : Nat := 0xFFFF

/-- What Python's Unicode tables say about the characters beyond ASCII. -/
structure UnicodeTables where
  decimal : Char → Bool
  printable : Char → Bool

variable (u : UnicodeTables)

/-- `\d`. -/
def isDecimal (c : Char) : Bool := c.isDigit || (128 ≤ c.toNat && u.decimal c)

/-- Where a match of `PORT_PATH_RE` is: what it needs next. -/
inductive PathState where
  /-- The first digit of the bus. -/
  | bus
  /-- A digit of the bus, or the hyphen. -/
  | busMore
  /-- The first digit of a port. -/
  | port
  /-- A digit of the port, a dot, or the end. -/
  | portMore
  deriving DecidableEq, Repr

/-- `PORT_PATH_RE.match`: `^\d+-\d+(\.\d+)*$`, the three kinds of character being disjoint.
The `$` also matches before a newline that ends the text. -/
def matchPath : PathState → List Char → Bool
  | .bus, c :: cs => isDecimal u c && matchPath .busMore cs
  | .busMore, c :: cs =>
    if isDecimal u c then matchPath .busMore cs else c == '-' && matchPath .port cs
  | .port, c :: cs => isDecimal u c && matchPath .portMore cs
  | .portMore, [] => true
  | .portMore, c :: cs =>
    if isDecimal u c then matchPath .portMore cs
    else (c == '.' && matchPath .port cs) || (c == '\n' && cs.isEmpty)
  | _, [] => false

/-- `{text!r}`. -/
def pyRepr (s : String) : String :=
  let single := Char.ofNat 39
  let double := Char.ofNat 34
  let quote := if single ∈ s.toList ∧ double ∉ s.toList then double else single
  let hexOf (n width : Nat) : List Char :=
    (List.range width).reverse.map fun i => hexDigit (n / 16 ^ i % 16)
  String.ofList (quote :: s.toList.flatMap (fun c =>
    if c = quote ∨ c = '\\' then ['\\', c]
    else if c = '\n' then ['\\', 'n']
    else if c = '\r' then ['\\', 'r']
    else if c = '\t' then ['\\', 't']
    else if c.toNat < 0x20 ∨ c.toNat = 0x7f then ['\\', 'x'] ++ hexOf c.toNat 2
    else if c.toNat < 0x80 ∨ u.printable c = true then [c]
    else if c.toNat < 0x100 then ['\\', 'x'] ++ hexOf c.toNat 2
    else if c.toNat < 0x10000 then ['\\', 'u'] ++ hexOf c.toNat 4
    else ['\\', 'U'] ++ hexOf c.toNat 8) ++ [quote])

/-- `text.isascii()`. -/
def isAscii (s : String) : Bool := s.toList.all fun c => c.toNat < 128

/-- `text.isprintable()`, of an ASCII text. -/
def isPrintable (s : String) : Bool := s.toList.all fun c => 0x20 ≤ c.toNat && c.toNat < 0x7f

/-- `parse_serial`. -/
def parseSerial (text : String) : Except Error String :=
  if matchPath u .bus text.toList then
    .error [s!"serial {pyRepr u text} has the shape of a USB port path, so a placement label " ++
      s!"`usb:{text}` would address a physical port rather than this board. Choose a serial " ++
      "that is not <digits>-<digits>[.<digits>]."]
  else if !isAscii text || !isPrintable text then
    .error [s!"serial {pyRepr u text} must be printable ASCII: it is published as a USB " ++
      "string descriptor and read back through sysfs."]
  else .ok text

/-! ## The record -/

/-- `width` bytes of `n`, the least significant first. -/
def littleEndian (n : Nat) : Nat → Bytes
  | 0 => []
  | width + 1 => UInt8.ofNat n :: littleEndian (n / 256) width

/-- One bit of `binascii.crc32`. -/
def crcShift (crc : UInt32) : UInt32 :=
  if crc &&& 1 = 1 then (crc >>> 1) ^^^ 0xEDB88320 else crc >>> 1

/-- `binascii.crc32`. -/
def crc32 (data : Bytes) : UInt32 :=
  (data.foldl (fun crc b => crcShift^[8] (crc ^^^ b.toUInt32)) 0xFFFFFFFF) ^^^ 0xFFFFFFFF

/-- `serial.encode("ascii")`. -/
def encodeAscii (s : String) : Bytes := s.toList.map fun c => UInt8.ofNat c.toNat

/-- `build`: the 32 bytes of a record. -/
def build (canNodeId : Option Nat) (serial : String) : Except Error Bytes :=
  let serialBytes := encodeAscii serial
  if SERIAL_LEN < serialBytes.length then
    .error [s!"serial {pyRepr u serial} is {serialBytes.length} bytes; the field is {SERIAL_LEN}"]
  else
    let padded := serialBytes ++ List.replicate (SERIAL_LEN - serialBytes.length) 0
    let body := littleEndian MAGIC 4 ++ littleEndian VERSION 1 ++ [0, 0, 0] ++
      littleEndian (canNodeId.getD NO_NODE_ID) 2 ++ littleEndian 0 2 ++ padded
    .ok (body ++ littleEndian (crc32 body).toNat 4)

/-- The serial field of a record, up to its padding. -/
def serialField (record : Bytes) : Bytes := ((record.drop 12).take SERIAL_LEN).takeWhile (· ≠ 0)

variable {u : UnicodeTables}

theorem isDecimal_of_isDigit {c : Char} (h : c.isDigit = true) : isDecimal u c = true := by
  simp [isDecimal, h]

theorem not_isDecimal_dot : isDecimal u '.' = false := rfl

theorem not_isDecimal_hyphen : isDecimal u '-' = false := rfl

/-- Numbers between dots, from the start of one of them and from the middle. -/
theorem matchPath_ports (ports : List Char) :
    ((∀ p ∈ ports.splitOn '.', p ≠ [] ∧ allDigits p = true) → matchPath u .port ports = true) ∧
      ∀ p ps, ports.splitOn '.' = p :: ps → allDigits p = true →
        (∀ q ∈ ps, q ≠ [] ∧ allDigits q = true) → matchPath u .portMore ports = true := by
  induction ports with
  | nil =>
    constructor
    · intro h
      exact absurd rfl (h [] (by simp)).1
    · intro p ps _ _ _
      rfl
  | cons c cs ih =>
    obtain ⟨ihPort, ihMore⟩ := ih
    by_cases hdot : c = '.'
    · subst hdot
      have hsplit : ('.' :: cs).splitOn '.' = [] :: cs.splitOn '.' := by
        simp [List.splitOn_cons_eq_if_modifyHead]
      rw [hsplit]
      constructor
      · intro h
        exact absurd rfl (h [] List.mem_cons_self).1
      · intro p ps heq _ hrest
        obtain ⟨rfl, rfl⟩ := List.cons.inj heq
        rw [matchPath, not_isDecimal_dot]
        simp [ihPort hrest]
    · obtain ⟨q, qs, hq⟩ := List.exists_cons_of_ne_nil (List.splitOn_ne_nil '.' cs)
      have hsplit : (c :: cs).splitOn '.' = (c :: q) :: qs := by
        rw [List.splitOn_cons_eq_if_modifyHead, if_neg (by simpa using hdot), hq]
        rfl
      have hstep (hdigits : allDigits (c :: q) = true)
          (hrest : ∀ p ∈ qs, p ≠ [] ∧ allDigits p = true) :
          isDecimal u c = true ∧ matchPath u .portMore cs = true := by
        rw [allDigits, List.all_cons, Bool.and_eq_true] at hdigits
        exact ⟨isDecimal_of_isDigit hdigits.1, ihMore q qs hq hdigits.2 hrest⟩
      rw [hsplit]
      constructor
      · intro h
        obtain ⟨hc, hmore⟩ := hstep (h _ List.mem_cons_self).2
          fun p hp => h p (List.mem_cons_of_mem _ hp)
        rw [matchPath, hc, hmore]
        rfl
      · intro p ps heq hdigits hrest
        obtain ⟨rfl, rfl⟩ := List.cons.inj heq
        obtain ⟨hc, hmore⟩ := hstep hdigits hrest
        rw [matchPath, if_pos hc]
        exact hmore

theorem matchPath_bus {bus ports : List Char} (hbus : allDigits bus = true)
    (hports : matchPath u .port ports = true) :
    matchPath u .busMore (bus ++ '-' :: ports) = true := by
  induction bus with
  | nil =>
    rw [List.nil_append, matchPath, not_isDecimal_hyphen]
    simp [hports]
  | cons c cs ih =>
    rw [allDigits, List.all_cons, Bool.and_eq_true] at hbus
    rw [List.cons_append, matchPath, if_pos (isDecimal_of_isDigit hbus.1)]
    exact ih hbus.2

/-- What the runtime reads as a port path, the script refuses as one. -/
theorem matchPath_of_isPortPath {s : String} (h : isPortPath s = true) :
    matchPath u .bus s.toList = true := by
  unfold isPortPath at h
  split at h
  · cases h
  · rename_i bus ports hsplit
    split at h
    · cases h
    · rename_i hbus
      rw [Bool.or_eq_true, not_or, Bool.not_eq_true', Bool.not_eq_false] at hbus
      rw [Bool.and_eq_true] at h
      obtain ⟨hnonempty, hdigits⟩ := hbus
      have hports : matchPath u .port ports.toList = true := by
        apply (matchPath_ports ports.toList).1
        intro p hp
        have hpart := List.all_eq_true.mp h.2 p hp
        simpa using hpart
      rw [Text.toList_of_splitOnce hsplit]
      cases hcs : bus.toList with
      | nil => simp [hcs] at hnonempty
      | cons c cs =>
        rw [hcs, allDigits, List.all_cons, Bool.and_eq_true] at hdigits
        rw [List.cons_append, matchPath, isDecimal_of_isDigit hdigits.1, Bool.true_and]
        exact matchPath_bus hdigits.2 hports

/-! ## One shape on both sides

On printable ASCII the expression and the runtime's splitting accept the same texts. -/

/-- Printable ASCII. -/
def PrintableAscii (cs : List Char) : Prop := ∀ c ∈ cs, 0x20 ≤ c.toNat ∧ c.toNat < 0x7f

theorem isPrintable_iff (s : String) : isPrintable s = true ↔ PrintableAscii s.toList := by
  simp [isPrintable, PrintableAscii]

theorem isAscii_of_printable {s : String} (h : PrintableAscii s.toList) : isAscii s = true := by
  rw [isAscii, List.all_eq_true]
  intro c hc
  rw [decide_eq_true_eq]
  exact Nat.lt_trans (h c hc).2 (by omega)

theorem isDecimal_iff {c : Char} (h : c.toNat < 0x7f) :
    isDecimal u c = true ↔ c.isDigit = true := by
  have hascii : ¬ 128 ≤ c.toNat := by omega
  simp [isDecimal, hascii]

/-- What the end of the expression accepts is numbers between dots: the converse of
`matchPath_ports`. -/
theorem ports_of_matchPath (ports : List Char) (hs : PrintableAscii ports) :
    (matchPath u .port ports = true → ∀ p ∈ ports.splitOn '.', p ≠ [] ∧ allDigits p = true) ∧
      (matchPath u .portMore ports = true → ∃ p ps, ports.splitOn '.' = p :: ps ∧
        allDigits p = true ∧ ∀ q ∈ ps, q ≠ [] ∧ allDigits q = true) := by
  induction ports with
  | nil =>
    constructor
    · intro h
      cases h
    · intro _
      exact ⟨[], [], by simp, rfl, by simp⟩
  | cons c cs ih =>
    obtain ⟨ihPort, ihMore⟩ := ih fun d hd => hs d (List.mem_cons_of_mem _ hd)
    obtain ⟨hlow, hhigh⟩ := hs c List.mem_cons_self
    have hdigit (hc : isDecimal u c = true) (hmore : matchPath u .portMore cs = true) :
        ∃ p ps, (c :: cs).splitOn '.' = (c :: p) :: ps ∧ allDigits (c :: p) = true ∧
          ∀ q ∈ ps, q ≠ [] ∧ allDigits q = true := by
      have hc' : c.isDigit = true := (isDecimal_iff hhigh).mp hc
      obtain ⟨p, ps, hsplit, hp, hps⟩ := ihMore hmore
      have hdot : ¬ c = '.' := by
        rintro rfl
        cases hc'
      refine ⟨p, ps, ?_, ?_, hps⟩
      · rw [List.splitOn_cons_eq_if_modifyHead, if_neg (by simpa using hdot), hsplit]
        rfl
      · rw [allDigits, List.all_cons, hc', Bool.true_and]
        exact hp
    constructor
    · intro h
      rw [matchPath, Bool.and_eq_true] at h
      obtain ⟨p, ps, hsplit, hp, hps⟩ := hdigit h.1 h.2
      rw [hsplit]
      exact List.forall_mem_cons.mpr ⟨⟨List.cons_ne_nil _ _, hp⟩, hps⟩
    · intro h
      rw [matchPath] at h
      split at h
      · rename_i hc
        obtain ⟨p, ps, hsplit, hp, hps⟩ := hdigit hc h
        exact ⟨c :: p, ps, hsplit, hp, hps⟩
      · rw [Bool.or_eq_true, Bool.and_eq_true, Bool.and_eq_true, beq_iff_eq, beq_iff_eq] at h
        rcases h with ⟨rfl, hport⟩ | ⟨rfl, -⟩
        · refine ⟨[], cs.splitOn '.', ?_, rfl, ihPort hport⟩
          simp [List.splitOn_cons_eq_if_modifyHead]
        · -- The newline that `$` allows before the end is not printable.
          exact absurd hlow (by decide)

theorem bus_of_matchPath (cs : List Char) (hs : PrintableAscii cs)
    (h : matchPath u .busMore cs = true) :
    ∃ bus ports, cs = bus ++ '-' :: ports ∧ allDigits bus = true ∧
      matchPath u .port ports = true := by
  induction cs with
  | nil => cases h
  | cons c cs ih =>
    rw [matchPath] at h
    split at h
    · rename_i hc
      obtain ⟨bus, ports, rfl, hbus, hports⟩ :=
        ih (fun d hd => hs d (List.mem_cons_of_mem _ hd)) h
      refine ⟨c :: bus, ports, rfl, ?_, hports⟩
      rw [allDigits, List.all_cons, (isDecimal_iff (hs c List.mem_cons_self).2).mp hc,
        Bool.true_and]
      exact hbus
    · rw [Bool.and_eq_true, beq_iff_eq] at h
      obtain ⟨rfl, hports⟩ := h
      exact ⟨[], cs, rfl, rfl, hports⟩

/-- What the script refuses as a port path, the runtime reads as one. -/
theorem isPortPath_of_matchPath {s : String} (hs : PrintableAscii s.toList)
    (h : matchPath u .bus s.toList = true) : isPortPath s = true := by
  cases hcs : s.toList with
  | nil =>
    rw [hcs] at h
    cases h
  | cons c cs =>
    rw [hcs] at h hs
    rw [matchPath, Bool.and_eq_true] at h
    obtain ⟨hc, hmore⟩ := h
    obtain ⟨bus, ports, rfl, hbus, hports⟩ :=
      bus_of_matchPath cs (fun d hd => hs d (List.mem_cons_of_mem _ hd)) hmore
    have hc' : c.isDigit = true := (isDecimal_iff (hs c List.mem_cons_self).2).mp hc
    have hdigits : allDigits (c :: bus) = true := by
      rw [allDigits, List.all_cons, hc', Bool.true_and]
      exact hbus
    have hhyphen : '-' ∉ c :: bus := by
      intro hmem
      cases List.all_eq_true.mp hdigits '-' hmem
    have hsplit : Text.splitOnce s '-' = some (String.ofList (c :: bus), String.ofList ports) := by
      rw [← Text.splitOnce_append hhyphen, List.cons_append, ← hcs, String.ofList_toList]
    have hparts := (ports_of_matchPath (u := u) ports fun d hd =>
      hs d (List.mem_cons_of_mem _ (List.mem_append_right _ (List.mem_cons_of_mem _ hd)))).1 hports
    unfold isPortPath
    rw [hsplit]
    simp only [String.toList_ofList, hdigits]
    have hne : ports ≠ [] := by
      rintro rfl
      cases hports
    have hall : (ports.splitOn '.').all (fun p => !p.isEmpty && allDigits p) = true := by
      rw [List.all_eq_true]
      intro p hp
      simpa using hparts p hp
    simp [hne, hall]

/-- **The script accepts exactly what is printable ASCII and no port path to the runtime**, and
the runtime reads what it accepts as a serial. -/
theorem parseSerial_accepts_iff (u : UnicodeTables) (s : String) :
    ((∃ serial, parseSerial u s = .ok serial) ↔
        PrintableAscii s.toList ∧ isPortPath s = false) ∧
      ∀ serial, parseSerial u s = .ok serial →
        serial = s ∧ UsbSelector.parse serial = .serial serial := by
  have haccepted (serial : String) (h : parseSerial u s = .ok serial) :
      serial = s ∧ PrintableAscii s.toList ∧ isPortPath s = false := by
    unfold parseSerial at h
    split at h
    · cases h
    · rename_i hmatch
      split at h
      · cases h
      · rename_i hprintable
        cases h
        rw [Bool.or_eq_true, not_or, Bool.not_eq_true', Bool.not_eq_false, Bool.not_eq_true',
          Bool.not_eq_false] at hprintable
        refine ⟨rfl, (isPrintable_iff s).mp hprintable.2, ?_⟩
        rw [Bool.eq_false_iff]
        intro hport
        exact hmatch (matchPath_of_isPortPath hport)
  constructor
  · constructor
    · rintro ⟨serial, h⟩
      exact (haccepted serial h).2
    · rintro ⟨hs, hport⟩
      have hmatch : ¬ matchPath u .bus s.toList = true := by
        intro hmatch
        rw [isPortPath_of_matchPath hs hmatch] at hport
        cases hport
      refine ⟨s, ?_⟩
      unfold parseSerial
      rw [if_neg hmatch, if_neg]
      simp [isAscii_of_printable hs, (isPrintable_iff s).mpr hs]
  · intro serial h
    obtain ⟨rfl, -, hport⟩ := haccepted serial h
    refine ⟨rfl, ?_⟩
    rw [UsbSelector.parse, hport]
    rfl

/-- An Arabic-Indic digit: a port path to the script, but nothing the record could hold. -/
example : (isPortPath "\u0663-6" = false) ∧
    ¬ ∃ serial, parseSerial ⟨fun c => c == Char.ofNat 0x663, fun _ => true⟩ "\u0663-6" =
      .ok serial := by
  refine ⟨by decide +kernel, ?_⟩
  rintro ⟨serial, h⟩
  cases h

/-! ## What the script accepts -/

/-- A serial that the script accepts and the record holds. -/
structure Provisioned (u : UnicodeTables) (serial : String) : Prop where
  accepted : parseSerial u serial = .ok serial
  nonempty : serial ≠ ""
  fits : serial.toList.length ≤ SERIAL_LEN

namespace Provisioned
variable {serial : String} (h : Provisioned u serial)
include h

theorem not_isPortPath : isPortPath serial = false := by
  have haccepted := h.accepted
  unfold parseSerial at haccepted
  split at haccepted
  · cases haccepted
  · rename_i hmatch
    rw [Bool.eq_false_iff]
    intro hport
    exact hmatch (matchPath_of_isPortPath hport)

theorem printable : ∀ c ∈ serial.toList, 0x20 ≤ c.toNat ∧ c.toNat < 0x7f := by
  have haccepted := h.accepted
  unfold parseSerial at haccepted
  split at haccepted
  · cases haccepted
  · split at haccepted
    · cases haccepted
    · rename_i hprintable
      rw [Bool.or_eq_true, not_or, Bool.not_eq_true', Bool.not_eq_true', Bool.not_eq_false,
        Bool.not_eq_false, isPrintable, List.all_eq_true] at hprintable
      intro c hc
      simpa using hprintable.2 c hc

/-- The only white space in it is the space. -/
theorem isWhiteSpace_iff {c : Char} (hc : c ∈ serial.toList) :
    Text.isWhiteSpace c = true ↔ c = ' ' := by
  obtain ⟨hlow, hhigh⟩ := h.printable c hc
  have hspace : c = ' ' ↔ c.toNat = 0x20 := by
    constructor
    · rintro rfl
      rfl
    · intro hnat
      exact Char.toNat_inj.mp hnat
  rw [hspace]
  simp only [Text.isWhiteSpace, Bool.or_eq_true, Bool.and_eq_true, decide_eq_true_eq, beq_iff_eq]
  omega

/-- **The record carries the serial.** -/
theorem build_serialField (canNodeId : Option Nat) :
    ∃ record, build u canNodeId serial = .ok record ∧ serialField record = encodeAscii serial := by
  have hlength : (encodeAscii serial).length ≤ SERIAL_LEN := by
    rw [encodeAscii, List.length_map]
    exact h.fits
  have hnonzero : ∀ b ∈ encodeAscii serial, decide (b ≠ 0) = true := by
    intro b hb
    obtain ⟨c, hc, rfl⟩ := List.mem_map.mp hb
    obtain ⟨hlow, hhigh⟩ := h.printable c hc
    rw [decide_eq_true_iff]
    intro hzero
    have hnat : (UInt8.ofNat c.toNat).toNat = 0 := by
      rw [hzero]
      rfl
    rw [UInt8.toNat_ofNat'] at hnat
    omega
  refine ⟨_, if_neg (Nat.not_lt.mpr hlength), ?_⟩
  have hfield : (encodeAscii serial ++
      List.replicate (SERIAL_LEN - (encodeAscii serial).length) 0).length = SERIAL_LEN := by
    rw [List.length_append, List.length_replicate]
    omega
  have hheader : (littleEndian MAGIC 4 ++ littleEndian VERSION 1 ++ [0, 0, 0] ++
      littleEndian (canNodeId.getD NO_NODE_ID) 2 ++ littleEndian 0 2).length = 12 := by
    simp [littleEndian]
  unfold serialField
  rw [List.append_assoc, List.drop_left' hheader, List.take_left' hfield,
    List.takeWhile_append_of_pos hnonzero]
  cases SERIAL_LEN - (encodeAscii serial).length <;> simp [List.replicate_succ]

end Provisioned

/-! ## The boards on the host -/

open Resolve

/-- The USB serial string descriptor of a tty's board, as sysfs shows it. -/
def serialText (h : Host) (tty : String) : Option String := do
  let iface ← h.canonicalize (deviceLink tty)
  let device ← Text.parent iface
  h.readToString (Text.join device "serial")

/-- The ttys the scan finds, each on a USB port. -/
structure Attached (h : Host) (ttys : List String) : Prop where
  scan : scanTtys h = .ok (ttys.map (candidate h))
  onPort : ∀ t ∈ ttys, ∃ p, ttyPortPath h t = some p

/-- The board on `port` is the only one that publishes the serial on a management
interface, and `mgmt` is that interface. -/
structure PublishedBy (h : Host) (ttys : List String) (serial port mgmt : String) : Prop where
  mem : mgmt ∈ ttys
  onPort : ttyPortPath h mgmt = some port
  isMgmt : ttyInterface h mgmt = some IFACE_MGMT
  publishes : serialText h mgmt = some (serial ++ "\n")
  only : ∀ t ∈ ttys, serialText h t = some (serial ++ "\n") →
    ttyInterface h t = some IFACE_MGMT → ttyPortPath h t = some port
  oneMgmt : ∀ t ∈ ttys, ttyPortPath h t = some port → ttyInterface h t = some IFACE_MGMT →
    t = mgmt

/-- No space at either end. -/
def NoOuterSpace (s : String) : Prop :=
  s.toList.head? ≠ some ' ' ∧ s.toList.getLast? ≠ some ' '

/-- A tty on another port shows a serial that is `serial` once trimmed. -/
def ShadowedBy (h : Host) (serial port tty : String) : Prop :=
  (∃ text, serialText h tty = some text ∧ Text.trim text = serial) ∧
    ttyPortPath h tty ≠ some port

theorem ttySerial_eq (h : Host) (tty : String) :
    ttySerial h tty = ((serialText h tty).map Text.trim).filter (· ≠ "") := by
  unfold ttySerial serialText readTrimmed
  cases h.canonicalize (deviceLink tty) with
  | none => rfl
  | some iface =>
    cases hparent : Text.parent iface with
    | none => simp [hparent]
    | some device => simp [hparent]

/-- A serial is trimmed to itself exactly when it has no space at either end. -/
theorem Provisioned.trim_eq_self_iff {serial : String} (h : Provisioned u serial) :
    Text.trim serial = serial ↔ NoOuterSpace serial := by
  have hchars : Text.trim serial = serial ↔ Text.trimChars serial.toList = serial.toList := by
    rw [Text.trim]
    constructor
    · intro htrim
      have hlist := congrArg String.toList htrim
      rwa [String.toList_ofList] at hlist
    · intro htrim
      rw [htrim, String.ofList_toList]
  rw [hchars, Text.trimChars_eq_self_iff, NoOuterSpace]
  constructor
  · rintro ⟨hfirst, hlast⟩
    refine ⟨fun hspace => ?_, fun hspace => ?_⟩
    · exact absurd (hfirst ' ' hspace) (by decide)
    · exact absurd (hlast ' ' hspace) (by decide)
  · rintro ⟨hfirst, hlast⟩
    constructor
    · intro c hc
      rw [Bool.eq_false_iff]
      intro hwhite
      rw [(h.isWhiteSpace_iff (List.mem_of_head? hc)).mp hwhite] at hc
      exact hfirst hc
    · intro c hc
      rw [Bool.eq_false_iff]
      intro hwhite
      rw [(h.isWhiteSpace_iff (List.mem_of_getLast? hc)).mp hwhite] at hc
      exact hlast hc

/-- The newline sysfs adds is trimmed away. -/
theorem trim_newline (s : String) : Text.trim (s ++ "\n") = Text.trim s := by
  have hnewline : ∀ c ∈ "\n".toList, Text.isWhiteSpace c = true :=
    List.forall_mem_singleton.mpr rfl
  unfold Text.trim
  rw [String.toList_append, Text.trimChars_append hnewline]

theorem trim_trim (s : String) : Text.trim (Text.trim s) = Text.trim s := by
  unfold Text.trim
  rw [String.toList_ofList, Text.trimChars_trimChars]

theorem ttySerial_eq_some_iff {h : Host} {tty serial : String} (hne : serial ≠ "") :
    ttySerial h tty = some serial ↔
      ∃ text, serialText h tty = some text ∧ Text.trim text = serial := by
  rw [ttySerial_eq, Option.filter_eq_some_iff, Option.map_eq_some_iff]
  constructor
  · rintro ⟨htext, -⟩
    exact htext
  · intro htext
    exact ⟨htext, by simpa using hne⟩

/-- A scanned candidate has a serial that trimming does not change. -/
theorem trim_of_ttySerial {h : Host} {tty serial : String}
    (hserial : ttySerial h tty = some serial) : Text.trim serial = serial := by
  rw [ttySerial_eq, Option.filter_eq_some_iff, Option.map_eq_some_iff] at hserial
  obtain ⟨⟨text, -, rfl⟩, -⟩ := hserial
  exact trim_trim text

/-- The label of a provisioned serial is looked up among the scanned ttys. -/
theorem Provisioned.resolve_label {h : Host} {ttys : List String} {serial : String}
    (hserial : Provisioned u serial) (hatt : Attached h ttys) :
    (Target.parse ("usb:" ++ serial) >>= resolve h) =
      resolveSerialAmong serial (ttys.map (candidate h)) := by
  have hselector : UsbSelector.parse serial = .serial serial := by
    rw [UsbSelector.parse, hserial.not_isPortPath]
    rfl
  rw [Target.parse_usb, hselector, bind_ok, resolve, resolveUsbSerial, hatt.scan]
  rfl

/-- **A provisioned serial addresses its board** exactly when it neither begins nor ends
with a space and no tty on another port shows it with white space around it, or shows it
without being a management interface.  The record that the script writes carries the serial
in any case. -/
theorem addressable_iff {h : Host} {ttys : List String} {serial port mgmt : String}
    (hserial : Provisioned u serial) (hatt : Attached h ttys)
    (hboard : PublishedBy h ttys serial port mgmt) :
    (∀ canNodeId, ∃ record, build u canNodeId serial = .ok record ∧
      serialField record = encodeAscii serial) ∧
    ((∃ log, (Target.parse ("usb:" ++ serial) >>= resolve h) =
        .ok (.serial (Text.join "/dev" mgmt) log)) ↔
      NoOuterSpace serial ∧ ∀ tty ∈ ttys, ¬ ShadowedBy h serial port tty) := by
  refine ⟨hserial.build_serialField, ?_⟩
  rw [hserial.resolve_label hatt, ← hserial.trim_eq_self_iff]
  have hmem : candidate h mgmt ∈ ttys.map (candidate h) := List.mem_map_of_mem hboard.mem
  have hown (htrim : Text.trim serial = serial) : ttySerial h mgmt = some serial :=
    (ttySerial_eq_some_iff hserial.nonempty).mpr
      ⟨_, hboard.publishes, (trim_newline serial).trans htrim⟩
  constructor
  · rintro ⟨log, hok⟩
    obtain ⟨⟨c, hc, hcserial⟩, hone⟩ := resolveSerialAmong_eq_ok hok
    obtain ⟨t, -, rfl⟩ := List.mem_map.mp hc
    have htrim : Text.trim serial = serial := trim_of_ttySerial hcserial
    refine ⟨htrim, fun tty htty hshadow => ?_⟩
    obtain ⟨htext, hother⟩ := hshadow
    obtain ⟨p, hp⟩ := hatt.onPort tty htty
    have hsame := hone (candidate h tty) (List.mem_map_of_mem htty)
      ((ttySerial_eq_some_iff hserial.nonempty).mpr htext) (candidate h mgmt) hmem (hown htrim)
      p port hp hboard.onPort
    exact hother (hsame ▸ hp)
  · rintro ⟨htrim, halone⟩
    have hport : ∀ t ∈ ttys, ttySerial h t = some serial → ttyPortPath h t = some port := by
      intro t ht htserial
      by_contra hother
      exact halone t ht ⟨(ttySerial_eq_some_iff hserial.nonempty).mp htserial, hother⟩
    have hone : ∀ d ∈ ttys.map (candidate h), d.serial = some serial →
        d.portPath = (candidate h mgmt).portPath := by
      intro d hd hdserial
      obtain ⟨t, ht, rfl⟩ := List.mem_map.mp hd
      exact (hport t ht hdserial).trans hboard.onPort.symm
    rw [resolveSerialAmong_of_one_port hmem (hown htrim) hone]
    have hmatching : candidate h mgmt ∈
        (ttys.map (candidate h)).filter fun c => c.serial == some serial :=
      List.mem_filter.mpr ⟨hmem, beq_iff_eq.mpr (hown htrim)⟩
    have hfound := channel_eq_some hmatching hboard.isMgmt (fun d hd hdiface => by
      rw [List.mem_filter, beq_iff_eq] at hd
      obtain ⟨t, ht, rfl⟩ := List.mem_map.mp hd.1
      rw [hboard.oneMgmt t ht (hport t ht hd.2) hdiface])
    exact ⟨_, pick_of_channel hfound⟩

/-- A host with one board, on port 3-6. -/
def oneBoard (serial : String) : Host where
  isDir path := path = "/sys/class/tty"
  pathExists path := path = "/dev/ttyACM0"
  readDir _ := .ok [.ok "ttyACM0"]
  canonicalize _ := some "/sys/devices/usb3/3-6/3-6:1.0"
  readToString path :=
    if path = "/sys/devices/usb3/3-6/serial" then some (serial ++ "\n")
    else if path = "/sys/class/tty/ttyACM0/device/interface" then some "runtt-mgmt\n"
    else none

/-- Python without characters beyond ASCII. -/
def asciiTables : UnicodeTables := ⟨fun _ => false, fun _ => false⟩

theorem oneBoard_attached (serial : String) : Attached (oneBoard serial) ["ttyACM0"] where
  scan := rfl
  onPort t ht := ⟨"3-6", by
    rw [List.mem_singleton.mp ht]
    rfl⟩

theorem oneBoard_publishes (serial : String) :
    PublishedBy (oneBoard serial) ["ttyACM0"] serial "3-6" "ttyACM0" where
  mem := List.mem_singleton_self _
  onPort := rfl
  isMgmt := rfl
  publishes := rfl
  only t ht _ _ := by
    rw [List.mem_singleton.mp ht]
    rfl
  oneMgmt t ht _ _ := List.mem_singleton.mp ht

theorem addressable_iff_arm01 :
    (∀ canNodeId, ∃ record, build asciiTables canNodeId "arm-01" = .ok record ∧
      serialField record = encodeAscii "arm-01") ∧
    ((∃ log, (Target.parse ("usb:" ++ "arm-01") >>= resolve (oneBoard "arm-01")) =
        .ok (.serial (Text.join "/dev" "ttyACM0") log)) ↔
      NoOuterSpace "arm-01" ∧
        ∀ tty ∈ ["ttyACM0"], ¬ ShadowedBy (oneBoard "arm-01") "arm-01" "3-6" tty) :=
  addressable_iff (u := asciiTables) ⟨rfl, by decide, by decide⟩ (oneBoard_attached "arm-01")
    (oneBoard_publishes "arm-01")

/-- The script accepts `arm-01` with a space behind it, and no label finds the board. -/
theorem outer_space_not_addressable :
    Provisioned asciiTables "arm-01 " ∧ Attached (oneBoard "arm-01 ") ["ttyACM0"] ∧
      PublishedBy (oneBoard "arm-01 ") ["ttyACM0"] "arm-01 " "3-6" "ttyACM0" ∧
      ∀ r, (Target.parse ("usb:" ++ "arm-01 ") >>= resolve (oneBoard "arm-01 ")) ≠ .ok r := by
  refine ⟨⟨rfl, by decide, by decide⟩, oneBoard_attached _, oneBoard_publishes _, ?_⟩
  intro r hr
  cases hr

end Provision
end Runtt
