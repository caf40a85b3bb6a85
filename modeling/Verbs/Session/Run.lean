import Verbs.Session.Connecting
import Verbs.Session.Dispatching
import Verbs.Session.Rendering

/-!
Running sessions. Each step is carried out, or refused, and then the session comes to rest; the
answer to the step comes with the events that it led to.
-/

namespace Verbs.Session

def act : Step → Act Answer
  | .fabric id => addFabric id
  | .nic id fabric attr => addNic id fabric attr
  | .skipLids fabric count => skipLids fabric count
  | .cq id nic depth => addCq id nic depth
  | .scriptedCq id capacity => addScriptedCq id capacity
  | .feedCq cq cs => modifyScript cq fun s => { s with entries := s.entries ++ cs }
  | .failCq cq errno => modifyScript cq ({ · with errno })
  | .breakCq cq broken => modifyScript cq ({ · with broken })
  | .region id nic len perm => addRegion id nic len perm
  | .fill region off data => fill region off data
  | .dump region => dump region
  | .word region off => word region off
  | .narrow region n => narrow region n
  | .descriptor region => descriptor region
  | .dropRegion region => dropRegion region
  | .builder id nic sendCq recvCq caps psn => addBuilder id nic sendCq recvCq caps psn
  | .qp id builder executor => addQp id builder executor
  | .scriptedQp id executor script => addScriptedQp id executor script
  | .posted qp => posted qp
  | .describe qp hides => describe qp hides
  | .dropQp qp => dropQp qp
  | .render what id => render what id
  | .connect qp peer => connect qp peer
  | .post qp wrId work => post qp wrId work
  | .poll cq mode => poll cq mode
  | .executor id workers => addExecutor id workers
  | .register executor label reaction => register executor label reaction
  | .process executor c => process executor c
  | .cancel executor token => cancel executor token
  | .executorState ref => executorState ref
  | .shutdown executor => shutdown executor
  | .join executor => join executor
  | .dropExecutor executor => dropExecutor executor
  | .pump cq executor mode => pump cq executor mode
  | .poller id cq executor batch => addPoller id cq executor batch
  | .stopPoller poller => stopPoller poller
  | .dropPoller poller => dropPoller poller
  | .pollerState poller => pollerState poller
  | .claimed cq => claimed cq
  | .submit qp id work => submit qp id work
  | .submitWith qp label reaction work => submitWith qp label reaction work
  | .await future => await future
  | .dropFuture future => dropFuture future
  | .bind qp peer userData => bind qp peer userData
  | .bindBoth first second => bindBoth first second
  | .attempt part side script => attempt part side script
  | .pair acceptor connector capacity => pair acceptor connector capacity
  | .acceptDetached side => acceptDetached side

/-- Carry out a step and come to rest: the answer, the events and the session afterwards. -/
def step (s : Session) (x : Step) : (Except Refusal Answer × List Event) × Session :=
  let (answer, s) := (act x).run.run s
  let s := s.settle
  ((answer, s.orderedEvents), { s with notices := [] })

end Verbs.Session
