import Verbs.Session.Objects

/-!
Objects of a session as text.
-/

namespace Verbs.Session

def deviceCqText (id : CqId) : Act String := do
  return Text.wrapped "SoftCq" ((← cq id).record (← get).device)

def builderText (b : Builder) : Act String := do
  let sendCq ← b.sendCq.mapM deviceCqText
  let recvCq ← b.recvCq.mapM deviceCqText
  return Text.record "QpBuilder"
    [("nic", (← nic b.nic).record), ("send_cq", Text.optional sendCq),
      ("recv_cq", Text.optional recvCq), ("caps", b.caps.record), ("sq_psn", toString b.psn)]

/-- An object as text. The address of a region is left out. -/
def render (what : Shown) (id : String) : Act Answer := do
  let d := (← get).device
  let text ← match what with
    | .fabric => do
      let f ← fabric id
      pure (Text.record "Fabric"
        [("qps", toString (d.routes.keys.filter (·.fabric = f)).length)])
    | .nic => return .text (← nic (← nicId id)).record
    | .cq => return .text ((← cq (← cqId id)).record d)
    | .deviceCq => deviceCqText (← cqId id)
    | .builder => builderText (← find builders id id)
    | .executor => return .text (← executor (← executorId id)).executor.record
    | .poller => do
      let p ← pollerHandle id
      pure (Text.record "CqPoller"
        [("cq", (← cq p.cq).record d), ("stopped", Text.bool p.status.isGone)])
    | .link => return .text ((← qpHandle id).link.record d)
    | .deviceQp => do
      match (← qpHandle id).link.source with
      | .device q => return .text (← find (·.device.qps) q id).record
      | .scripted _ => throw (.unknown id)
    | .future => return .text (← find futures (← futureId id) id).record
    | .region => do
      let h ← regionHandle id
      pure (Text.record "SoftMr"
        [("addr", "ADDR"), ("len", toString h.window.len), ("lkey", toString h.lkey),
          ("rkey", toString h.rkey)])
  return .text text

end Verbs.Session
