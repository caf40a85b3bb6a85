import Verbs.QueuePair
import Verbs.Table

/-!
Failing queue pairs. A queue pair that fails gives up its receives and refuses the messages that
wait for it; each refused message fails its sender in turn. The messages still to be refused are
kept in a list, those of a newly failed sender before the others, so the reports come in
depth-first order; the list and the inboxes together lose one message at every step.
-/

namespace Verbs

abbrev QueuePairs := Table QpId QueuePair

namespace QueuePairs

def waiting (qps : QueuePairs) : Nat := (qps.values.map (·.inbox.length)).foldr (· + ·) 0

theorem waiting_failed_le {qps : QueuePairs} {id : QpId} {q : QueuePair}
    (h : qps.get? id = some q) :
    waiting (qps.modify id fun _ => q.failed) + q.inbox.length ≤ waiting qps := by
  have := qps.sum_modify_add_le id q q.failed (·.inbox.length) h
    (fun _ => by simp [QueuePair.failed])
  simpa [waiting, QueuePair.failed] using this

/-- Refuse messages one after another, failing each sender that is still there. -/
def refuse (qps : QueuePairs) : List Message → QueuePairs × List Report
  | [] => (qps, [])
  | m :: rest =>
    match _h : qps.get? m.sender with
    | none =>
      let (qps', out) := refuse qps rest
      (qps', m.report .rnrRetryExcErr :: out)
    | some s =>
      let (qps', out) := refuse (qps.modify m.sender fun _ => s.failed) (s.inbox ++ rest)
      (qps', m.report .rnrRetryExcErr :: (s.flushes ++ out))
  termination_by ms => waiting qps + ms.length
  decreasing_by
    · simp
    · have := waiting_failed_le _h
      simp only [List.length_append, List.length_cons]
      omega

/-- Fail a queue pair, and with it the senders of all messages that this refuses. -/
def fail (qps : QueuePairs) (id : QpId) : QueuePairs × List Report :=
  match qps.get? id with
  | none => (qps, [])
  | some q =>
    let (qps', out) := refuse (qps.modify id fun _ => q.failed) q.inbox
    (qps', q.flushes ++ out)

/-- Tell the sender of a message its outcome; an outcome without success fails the sender. -/
def finish (qps : QueuePairs) (m : Message) (s : Status) : QueuePairs × List Report :=
  if s.isSuccess then (qps, [m.report s])
  else
    let (qps', out) := fail qps m.sender
    (qps', m.report s :: out)

/-- Report the completion of a request on the send queue; one without success fails the queue
pair. -/
def complete (qps : QueuePairs) (id : QpId) (r : Report) : QueuePairs × List Report :=
  if r.completion.status.isSuccess then (qps, [r])
  else
    let (qps', out) := fail qps id
    (qps', r :: out)

/-- Take a queue pair away; it gives up what it holds as when it fails. -/
def drop (qps : QueuePairs) (id : QpId) : QueuePairs × List Report :=
  match qps.get? id with
  | none => (qps, [])
  | some q =>
    let (qps', out) := refuse (qps.erase id) q.inbox
    (qps', q.flushes ++ out)

end QueuePairs

end Verbs
