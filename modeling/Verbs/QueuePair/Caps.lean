import Verbs.Text

/-!
Capabilities of queue pairs and limits of devices.
-/

namespace Verbs

/-- What a queue pair can hold: requests outstanding on each side, and entries in one list. -/
structure Caps where
  maxSendWr : UInt32 := 128
  maxRecvWr : UInt32 := 128
  maxSendSge : UInt32 := 16
  maxRecvSge : UInt32 := 16
  deriving DecidableEq, Repr

instance : Inhabited Caps := ⟨{}⟩

def Caps.record (c : Caps) : String :=
  Text.record "QpCaps"
    [("max_send_wr", toString c.maxSendWr), ("max_recv_wr", toString c.maxRecvWr),
      ("max_send_sge", toString c.maxSendSge), ("max_recv_sge", toString c.maxRecvSge)]

/-- The limits of a network adapter: entries in a completion queue, requests in a queue, entries
in a scatter/gather list. -/
structure DeviceAttr where
  maxCqe : UInt32 := 4096
  maxQpWr : UInt32 := 1024
  maxSge : UInt32 := 16
  deriving DecidableEq, Repr

instance : Inhabited DeviceAttr := ⟨{}⟩

def DeviceAttr.record (a : DeviceAttr) : String :=
  Text.record "DeviceAttr"
    [("max_cqe", toString a.maxCqe), ("max_qp_wr", toString a.maxQpWr),
      ("max_sge", toString a.maxSge)]

/-- The first capability that a device does not reach: its name, the device's limit and what was
asked for. -/
def Caps.firstExcess (c : Caps) (a : DeviceAttr) : Option (String × UInt32 × UInt32) :=
  [("max_send_wr", a.maxQpWr, c.maxSendWr), ("max_recv_wr", a.maxQpWr, c.maxRecvWr),
    ("max_send_sge", a.maxSge, c.maxSendSge), ("max_recv_sge", a.maxSge, c.maxRecvSge)].find?
      fun (_, max, required) => max < required

end Verbs
