import Runtt.Basic

/-! # SMP console-transport framing

`runtt_mock::codec`.  Wire format, outermost first:

```text
line := marker || base64( len_be16 || body || crc16_be16 ) || '\n'
body := smp_header(8) || cbor_payload
```

The base64 text and the checksum come from crates the source only calls
(`base64`, `crc`); here they are an `Engine`, about which this module assumes
nothing.
-/
namespace Runtt

/-- Start-of-packet marker. -/
def MARKER_START : Bytes := [0x06, 0x09]
/-- Continuation marker. -/
def MARKER_CONT : Bytes := [0x04, 0x14]
/-- 127 bytes per line, marker and newline included. -/
def MAX_LINE : Nat := 127
/-- `b'\n'`. -/
def NEWLINE : UInt8 := 10

def OP_READ : UInt8 := 0
def OP_READ_RSP : UInt8 := 1
def OP_WRITE : UInt8 := 2
def OP_WRITE_RSP : UInt8 := 3

def GROUP_OS : UInt16 := 0
def GROUP_IMG : UInt16 := 1
/-- User-defined groups start here; `describe` lives at this id. -/
def GROUP_PERUSER : UInt16 := 64

/-- What the framing takes from the `base64` and `crc` crates. -/
structure Engine where
  /-- `b64().encode`. -/
  encode : Bytes → Bytes
  /-- `b64().decode`. -/
  decode : Bytes → Option Bytes
  /-- `CRC.checksum`. -/
  checksum : Bytes → UInt16

/-- `u16::to_be_bytes`. -/
def toBeBytes (n : UInt16) : Bytes := [(n >>> 8).toUInt8, n.toUInt8]

/-- `u16::from_be_bytes`. -/
def fromBeBytes (hi lo : UInt8) : UInt16 := hi.toUInt16 <<< 8 ||| lo.toUInt16

/-- `demux.rs`: does this line belong to the SMP stream rather than the log? -/
def isSmpLine (line : Bytes) : Bool :=
  line.take 2 == MARKER_START || line.take 2 == MARKER_CONT

/-- An SMP header plus its CBOR payload. -/
structure Frame where
  /-- Low 3 bits of byte 0. -/
  op : UInt8
  /-- Bits 3-4 of byte 0. -/
  version : UInt8
  flags : UInt8
  group : UInt16
  seq : UInt8
  cmd : UInt8
  payload : Bytes
  deriving DecidableEq, Repr

namespace Frame

/-- The payload's length `as u16`. -/
def declaredLen (f : Frame) : UInt16 := UInt16.ofNat f.payload.length

def headerBytes (f : Frame) : Bytes :=
  [(f.op &&& (0x07 : UInt8)) ||| ((f.version &&& (0x03 : UInt8)) <<< (3 : UInt8)), f.flags,
    (f.declaredLen >>> 8).toUInt8, (f.declaredLen &&& 0xff).toUInt8, (f.group >>> 8).toUInt8,
    (f.group &&& 0xff).toUInt8, f.seq, f.cmd]

def parse (body : Bytes) : Except Error Frame :=
  match body with
  | b₀ :: b₁ :: b₂ :: b₃ :: b₄ :: b₅ :: b₆ :: b₇ :: payload =>
    let declared := (fromBeBytes b₂ b₃).toNat
    if payload.length ≠ declared then
      .error ["SMP length mismatch: header declares " ++ toString declared ++
        " payload bytes, got " ++ toString payload.length]
    else
      .ok { op := b₀ &&& 0x07, version := (b₀ >>> 3) &&& 0x03, flags := b₁,
            group := fromBeBytes b₄ b₅, seq := b₆, cmd := b₇, payload }
  | _ => .error ["SMP body too short: " ++ toString body.length ++ " bytes, need at least 8"]

/-- The response op for this request's op. -/
def responseOp (f : Frame) : UInt8 :=
  if f.op = OP_READ then OP_READ_RSP
  else if f.op = OP_WRITE then OP_WRITE_RSP
  else f.op

/-- Header and payload: what the checksum covers. -/
def body (f : Frame) : Bytes := f.headerBytes ++ f.payload

end Frame

/-- `slice::chunks`: pieces of `n`, the last one possibly shorter.  Each step takes at
least one element, so the list's length is fuel enough. -/
def chunks (n : Nat) (l : Bytes) : List Bytes := go l.length l
where
  go : Nat → Bytes → List Bytes
  | 0, _ => []
  | fuel + 1, l => if l = [] then [] else l.take n :: go fuel (l.drop n)

/-- The lines of a packet: the first chunk behind `marker`, the rest behind the
continuation marker. -/
def markLines (marker : Bytes) : List Bytes → List Bytes
  | [] => []
  | chunk :: rest => (marker ++ chunk) :: markLines MARKER_CONT rest

section
variable (e : Engine)

/-- Length, body and checksum: what is sent as base64. -/
def packet (f : Frame) : Bytes :=
  toBeBytes (UInt16.ofNat (f.body.length + 2)) ++ f.body ++ toBeBytes (e.checksum f.body)

/-- Frame a packet into wire lines. -/
def encode (f : Frame) (maxLine : Nat) : Except Error Bytes :=
  if maxLine < 16 then
    .error ["max_line " ++ toString maxLine ++ " is implausibly small"]
  else
    -- Each line spends 2 bytes on its marker and 1 on the newline.
    let perLine := maxLine - 3
    .ok ((markLines MARKER_START (chunks perLine (e.encode (packet e f)))).flatMap
      fun line => line ++ [NEWLINE])

/-- Reassembles wire lines into packets. -/
structure Decoder where
  /-- Accumulated base64 text of the packet currently being assembled. -/
  acc : Bytes
  inPacket : Bool
  deriving DecidableEq, Repr

namespace Decoder

def new : Decoder := ⟨[], false⟩

/-- `push_line` from the point where the line has joined the text. -/
def complete (d : Decoder) : Except Error (Option Bytes) × Decoder :=
  match e.decode d.acc with
  -- Not yet valid base64: more continuation lines to come.
  | none => (.ok none, d)
  | some (hi :: lo :: rest) =>
    let declared := (fromBeBytes hi lo).toNat
    if rest.length < declared then (.ok none, d)
    else
      let d := { d with inPacket := false }
      let payloadAndCrc := rest.take declared
      if payloadAndCrc.length < 2 then
        (.error ["packet too short to contain a CRC"], d)
      else
        let split := payloadAndCrc.length - 2
        let body := payloadAndCrc.take split
        -- both indices are in range here
        let got := fromBeBytes (payloadAndCrc.getD split 0) (payloadAndCrc.getD (split + 1) 0)
        let want := e.checksum body
        if got ≠ want then
          (.error ["CRC16 mismatch: got " ++ hexHalf got.toNat ++ ", computed " ++
            hexHalf want.toNat], d)
        else (.ok (some body), d)
  | some _ => (.ok none, d)

/-- Feed one complete line, without its trailing newline.  Returns a body once a
packet is complete and its CRC verifies. -/
def pushLine (d : Decoder) (line : Bytes) : Except Error (Option Bytes) × Decoder :=
  match line with
  | m₀ :: m₁ :: rest =>
    if [m₀, m₁] = MARKER_START then
      complete e { acc := rest, inPacket := true }
    else if [m₀, m₁] = MARKER_CONT then
      -- A continuation with no start is dropped rather than mis-assembled.
      if !d.inPacket then (.ok none, d)
      else complete e { d with acc := d.acc ++ rest }
    else (.ok none, d)
  | _ => (.ok none, d)

/-- One line after another. -/
def pushLines (d : Decoder) : List Bytes → List (Except Error (Option Bytes)) × Decoder
  | [] => ([], d)
  | line :: rest =>
    let (r, d) := d.pushLine e line
    let (rs, d) := pushLines d rest
    (r :: rs, d)

end Decoder
end
end Runtt
