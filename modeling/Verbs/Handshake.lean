import Verbs.QueuePair.Endpoint
import Verbs.Wire

/-!
Handshakes: what one side of a connection sends to the other. The written form is the endpoint in
ten bytes, then user data up to the end of the message.
-/

namespace Verbs

/-- The message that sets up one side of a connection. -/
structure Handshake where
  endpoint : Endpoint := {}
  userData : Bytes := []
  deriving DecidableEq, Repr

namespace Handshake

instance : Inhabited Handshake := ⟨{}⟩

/-- The size of the fixed fields. -/
def headerSize : Nat := 10

def encode (h : Handshake) : Bytes :=
  Bytes.ofNatBE 2 h.endpoint.lid.toNat ++ Bytes.ofNatBE 4 h.endpoint.qpn.toNat ++
    Bytes.ofNatBE 4 h.endpoint.psn.toNat ++ h.userData

/-- All that is left after the fixed fields is user data. -/
def reader : Wire.Reader Handshake := do
  .ensure headerSize
  let lid ← .u16
  let qpn ← .u32
  let psn ← .u32
  let userData ← .bytes (← get).length
  return ⟨⟨lid, qpn, psn⟩, userData⟩

/-- The handshake that a whole message spells. -/
def decode (input : Bytes) : Except Truncated Handshake := (reader.read input).1

def record (h : Handshake) : String :=
  Text.record "QpHandshake"
    [("lid", toString h.endpoint.lid), ("qp_num", toString h.endpoint.qpn),
      ("sq_psn", toString h.endpoint.psn), ("user_data", Text.quoted h.userData)]

end Handshake

/-- How far a connection attempt has come. -/
inductive SetupStage where
  | listening | accepted | connecting | sent | received | ready
  deriving DecidableEq, Repr

namespace SetupStage

def all : List SetupStage := [listening, accepted, connecting, sent, received, ready]

def name : SetupStage → String
  | listening => "Listening"
  | accepted => "Accepted"
  | connecting => "Connecting"
  | sent => "Sent"
  | received => "Received"
  | ready => "Ready"

end SetupStage

namespace Wire

inductive Item where
  | u16 (value : UInt16)
  | u32 (value : UInt32)
  | u64 (value : UInt64)
  | remote (value : RemoteSlice)
  | handshake (value : Handshake)
  deriving DecidableEq, Repr

inductive Shape where
  | u16 | u32 | u64 | remote | handshake
  deriving DecidableEq, Repr

def Item.shape : Item → Shape
  | .u16 _ => .u16
  | .u32 _ => .u32
  | .u64 _ => .u64
  | .remote _ => .remote
  | .handshake _ => .handshake

def Item.encode : Item → Bytes
  | .u16 v => Bytes.ofNatBE 2 v.toNat
  | .u32 v => Bytes.ofNatBE 4 v.toNat
  | .u64 v => Bytes.ofNatBE 8 v.toNat
  | .remote v => v.encode
  | .handshake v => v.encode

/-- The number of bytes that must be left for an item of a given type. -/
def Shape.width : Shape → Nat
  | .u16 => 2
  | .u32 => 4
  | .u64 => 8
  | .remote => RemoteSlice.wireSize
  | .handshake => Handshake.headerSize

def encodeAll (items : List Item) : Bytes := items.flatMap Item.encode

end Wire

end Verbs
