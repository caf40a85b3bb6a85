import Verbs.Handshake

/-!
Messages of several items, read one after another from one cursor.
-/

namespace Verbs.Wire

def Shape.reader : Shape → Reader Item
  | .u16 => .u16 <$> Reader.u16
  | .u32 => .u32 <$> Reader.u32
  | .u64 => .u64 <$> Reader.u64
  | .remote => .remote <$> RemoteSlice.reader
  | .handshake => .handshake <$> Handshake.reader

def readAll : List Shape → Reader (List Item)
  | [] => return []
  | s :: ss => do
    let v ← s.reader
    let vs ← readAll ss
    return v :: vs

end Verbs.Wire
