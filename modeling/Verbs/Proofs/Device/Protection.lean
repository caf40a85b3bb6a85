import Mathlib.Tactic
import Verbs.Proofs.Device.Turns
import Verbs.Proofs.Memory.Access

/-!
Memory protection. Whatever windows a request names, the bytes that it changes are bytes of the
windows of the receive that its message meets or of its own, or bytes of the peer that the peer's
region lets it change; and what it moves comes from such bytes.
-/

namespace Verbs

def Operation.isPost : Operation → Bool
  | .postSend _ _ | .postRecv _ _ => true
  | _ => false

/-- Keys name regions of their adapter, under names that have been used. -/
structure Memory.Sound (n : Nat) (m : Memory) : Prop where
  keyed : m.Keyed
  named : ∀ nic key id, m.keys.get? (nic, key) = some id → id < n

namespace Memory.Sound

variable {n n' : Nat} {m m' : Memory}

lemma same (h : m.Sound n) (hs : SameRegions m m') (hn : n ≤ n') : m'.Sound n' :=
  ⟨hs.keyed h.keyed, fun nic key id hkey => (h.named nic key id (hs.keys ▸ hkey)).trans_le hn⟩

lemma insert (h : m.Sound n) (r : Region) : (m.insert n r).Sound (n + 1) := by
  have hkeys : ∀ nic key id, (m.insert n r).keys.get? (nic, key) = some id →
      (nic = r.nic ∧ id = n) ∨ m.keys.get? (nic, key) = some id := by
    intro nic key id hkey
    simp only [Memory.insert, Table.get?_set] at hkey
    split at hkey
    · rename_i heq
      exact Or.inl ⟨congrArg Prod.fst heq, (Option.some.inj hkey).symm⟩
    · split at hkey
      · rename_i heq
        exact Or.inl ⟨congrArg Prod.fst heq, (Option.some.inj hkey).symm⟩
      · exact Or.inr hkey
  refine ⟨fun nic key id r' hkey hr' => ?_, fun nic key id hkey => ?_⟩
  · simp only [Memory.insert, Table.get?_set] at hr'
    rcases hkeys nic key id hkey with ⟨rfl, rfl⟩ | hkey
    · rw [if_pos rfl] at hr'
      rw [← Option.some.inj hr']
    · rw [if_neg (h.named nic key id hkey).ne] at hr'
      exact h.keyed nic key id r' hkey hr'
  · rcases hkeys nic key id hkey with ⟨-, rfl⟩ | hkey
    · exact Nat.lt_succ_self _
    · exact (h.named nic key id hkey).trans (Nat.lt_succ_self n)

lemma remove (h : m.Sound n) (id : RegionId) : (m.remove id).Sound n := by
  unfold Memory.remove
  split
  · exact h
  · rename_i r hr
    have hkeys : ∀ nic key j, ((m.keys.erase (r.nic, r.lkey)).erase (r.nic, r.rkey)).get?
        (nic, key) = some j → m.keys.get? (nic, key) = some j := by
      intro nic key j hkey
      rw [Table.get?_erase, Table.get?_erase] at hkey
      split at hkey
      · cases hkey
      · split at hkey
        · cases hkey
        · exact hkey
    refine ⟨fun nic key j r' hkey hr' => ?_, fun nic key j hkey => h.named nic key j (hkeys _ _ _ hkey)⟩
    dsimp only at hr'
    rw [Table.get?_erase] at hr'
    split at hr'
    · cases hr'
    · exact h.keyed nic key j r' (hkeys _ _ _ hkey) hr'

end Memory.Sound

namespace Device

open Memory (Confined SameRegions)

variable {d : Device} {b id : QpId} {q : QueuePair} {m : Message} {r : Receive} {op : Operation}
  {w : SendRequest} {ops : List Operation}

/-- The queue pair that the requests of a connected one go to. -/
def peerOf (d : Device) (q : QueuePair) : Option (QpId × QueuePair) :=
  q.remote.bind fun e => d.route ⟨q.fabric, e.lid, e.qpn⟩

inductive Permitted (d : Device) : Operation → Spot → Option UInt8 → Prop where
  /-- A message has met a receive whose windows lead there. -/
  | received {op : Operation} {b : QpId} {q : QueuePair} {m : Message} {r : Receive} {bytes : Bytes}
      {x : Spot} {v : UInt8} (met : (m, r) ∈ d.landings b op) (found : d.qps.get? b = some q)
      (payload : m.payload = .data bytes) (byte : v ∈ bytes)
      (target : d.memory.LocalAccess q.nic r.sgl .localWrite x) : Permitted d op x (some v)
  /-- A one-sided operation between a queue pair and its peer may. -/
  | moved {id : QpId} {w : SendRequest} {q : QueuePair} {peerId : QpId} {peer : QueuePair} {x : Spot}
      {v : Option UInt8} (found : d.qps.get? id = some q) (bound : d.peerOf q = some (peerId, peer))
      (moved : d.memory.Moved q.nic peer.nic w.sgl w.op x v) : Permitted d (.postSend id w) x v

/-! ### Requests -/

lemma dispatch_confined (hk : d.memory.Keyed) (hq : d.qps.get? id = some q) {remote : Endpoint}
    (hremote : q.remote = some remote) (w : SendRequest) :
    Confined d.memory (d.dispatch id q w remote).1 (d.Permitted (.postSend id w)) := by
  rcases hroute : d.route ⟨q.fabric, remote.lid, remote.qpn⟩ with - | ⟨peerId, peer⟩
  · simp only [dispatch, hroute]
    exact .refl _ _
  · have hbound : d.peerOf q = some (peerId, peer) := by simp [peerOf, hremote, hroute]
    have hmoved : Confined d.memory (d.memory.oneSided q.nic peer.nic w.sgl w.op).1
        (d.Permitted (.postSend id w)) :=
      (Memory.oneSided_confined hk q.nic peer.nic w.sgl w.op).mono fun x v h =>
        .moved hq hbound h
    simp only [dispatch, hroute]
    split
    · exact .refl _ _
    · split
      · split <;> exact .refl _ _
      all_goals
        split
        all_goals
          rename_i heq
          rw [heq] at hmoved
          exact hmoved

lemma land_confined (hk : d.memory.Keyed) (id : QpId) (q : QueuePair) (m : Message) (r : Receive) :
    Confined d.memory (d.land id q m r).1.memory fun x v => ∃ bytes, m.payload = .data bytes ∧
      d.memory.LocalAccess q.nic r.sgl .localWrite x ∧ ∃ c ∈ bytes, v = some c := by
  rcases hm : m.payload with bytes | len
  · have hscatter := Memory.scatter_confined hk q.nic r.sgl bytes
    have hmemory : (d.land id q m r).1.memory = (d.memory.scatter q.nic r.sgl bytes).1 := by
      rcases hs : d.memory.scatter q.nic r.sgl bytes with ⟨memory, status | ⟨⟩⟩ <;>
        simp [land, hm, hs]
    rw [hmemory]
    exact hscatter.mono fun x v h => ⟨bytes, rfl, h⟩
  · have hmemory : (d.land id q m r).1.memory = d.memory := by simp [land, hm]
    rw [hmemory]
    exact .refl _ _

lemma postSend_confined (hk : d.memory.Keyed) (id : QpId) (w : SendRequest) :
    Confined d.memory (d.perform (.postSend id w)).memory (d.Permitted (.postSend id w)) := by
  rcases hreports : d.sendReports id w with e | ⟨d', out⟩
  · rw [(postSend_of_error hreports).1]
    exact .refl _ _
  · rw [(postSend_of_ok hreports).1, record_memory]
    obtain ⟨q, hq, ⟨remote, hstate, hremote, hexecute⟩ | ⟨-, rfl, -⟩⟩ := sendReports_cases hreports
    · have hdispatched := dispatch_confined hk hq hremote w
      rcases execute_cases d id q w remote with ⟨memory, peerId, peer, m, hdispatch, hdone⟩ |
        ⟨memory, status, len, hdispatch, hdone⟩
      · obtain ⟨hroute, haccepts, -⟩ := dispatch_message hdispatch
        have hpeer := (get?_of_route hroute).2
        have halive := alive_of_acceptsFrom haccepts
        have hsends : d.sends (.postSend id w) = some (peerId, peer, m) := by
          simp [sends, hreports, hq, hstate, hremote, hdispatch]
        rw [hdispatch] at hdispatched
        rcases deliver_cases (d.posted memory) peerId halive m with
          ⟨-, hdeliver⟩ | ⟨r, rest, hrecvs, hdeliver⟩
        · rw [← posted, hdeliver] at hdone
          cases hexecute.symm.trans hdone
          exact hdispatched
        · have hafter : d' = (d.posted memory |>.deliver peerId peer m).1 :=
            congrArg Prod.fst (hexecute.symm.trans hdone)
          have hmet : (m, r) ∈ d.landings peerId (.postSend id w) := by
            simp [landings_of_sends hsends hpeer halive.1, hrecvs]
          have hlanded := land_confined
            (d := { d.posted memory with qps := d.qps.set peerId { peer with recvs := rest } })
            (hdispatched.same.keyed hk) peerId { peer with recvs := rest } m r
          rw [hafter, hdeliver]
          refine hdispatched.trans (hlanded.mono ?_)
          rintro x v ⟨bytes, hpayload, htarget, c, hc, rfl⟩
          -- a message with data has left the memory as it was
          cases dispatch_memory hdispatch hpayload
          exact .received hmet hpeer hpayload hc htarget
      · rw [hdispatch] at hdispatched
        cases hexecute.symm.trans hdone
        exact hdispatched
    · exact .refl _ _

lemma postRecv_confined (hk : d.memory.Keyed) (hp : d.qps.Every fun _ q => q.Proper) (id : QpId)
    (w : RecvRequest) :
    Confined d.memory (d.perform (.postRecv id w)).memory (d.Permitted (.postRecv id w)) := by
  rcases hreports : d.recvReports id w with e | ⟨d', out⟩
  · rw [(postRecv_of_error hreports).1]
    exact .refl _ _
  · rw [(postRecv_of_ok hreports).1, record_memory]
    obtain ⟨q, hq, ⟨-, rfl, -⟩ | ⟨hcan, halive, ⟨m, rest, hinbox, hland⟩ | ⟨-, -, -, rfl⟩⟩⟩ :=
      recvReports_cases hreports
    · exact .refl _ _
    · have hrts := (hp _ _ hq).rts hcan halive
      have hmet : (m, d.receive w) ∈ d.landings id (.postRecv id w) := by
        simp [landings_of_recvReports hreports hq hrts, hinbox]
      have hconfined := land_confined (d := d.unboxed id q rest) hk id { q with inbox := rest } m
        (d.receive w)
      rw [hland] at hconfined
      refine hconfined.mono ?_
      rintro x v ⟨bytes, hpayload, htarget, c, hc, rfl⟩
      exact .received hmet hq hpayload hc htarget
    · exact .refl _ _

/-! ### Runs -/

lemma perform_memory (hk : d.memory.Keyed) (hp : d.qps.Every fun _ q => q.Proper)
    (op : Operation) :
    SameRegions d.memory (d.perform op).memory ∨
      (∃ r base len perm, op = .register r.nic base len perm ∧
        (d.perform op).memory = d.memory.insert d.nextId r ∧
        (d.perform op).nextId = d.nextId + 1) ∨
      ∃ id, (d.perform op).memory = d.memory.remove id := by
  have h := perform_change d op
  generalize d.perform op = d' at h ⊢
  cases h with
  | refused | addFabric | openNic | skipLids | createCq | poll | overflow | createQp | connect |
    dropQp => exact Or.inl (.refl _)
  | register n there fits r own =>
    subst own
    exact Or.inr (Or.inl ⟨r, _, _, _, rfl, rfl, rfl⟩)
  | @deregister region => exact Or.inr (Or.inr ⟨region, rfl⟩)
  | fill r r' found filled =>
    unfold Region.fill? at filled
    split at filled
    · rename_i hlen
      cases filled
      exact Or.inl (Memory.write_confined found hlen).same
    · cases filled
  | postSend => exact Or.inl (postSend_confined hk _ _).same
  | postRecv => exact Or.inl (postRecv_confined hk hp _ _).same

lemma sound (ops : List Operation) : (run ops).memory.Sound (run ops).nextId := by
  induction ops using List.reverseRecOn with
  | nil => exact ⟨fun _ _ _ _ h => (nomatch h), fun _ _ _ h => (nomatch h)⟩
  | append_singleton ops op ih =>
    rw [run_snoc]
    have hle := (perform_effect (run ops) op).nextId_le
    rcases perform_memory ih.keyed (proper ops) op with
      hsame | ⟨r, -, -, -, -, hmemory, hnext⟩ | ⟨id, hmemory⟩
    · exact ih.same hsame hle
    · rw [hmemory, hnext]
      exact ih.insert r
    · rw [hmemory]
      exact (ih.remove id).same (.refl _) hle

lemma sent_of_mem_hands (hk : d.memory.Keyed) (h : m ∈ d.hands b op) {data : Bytes}
    (hdata : m.payload = .data data) :
    ∃ w q, op = .postSend m.sender w ∧ d.qps.get? m.sender = some q ∧
      d.memory.contents q.nic w.sgl = data.map some ∧
      ∀ y, some y ∈ d.memory.spots q.nic w.sgl → d.memory.LocalAccess q.nic w.sgl .none y := by
  obtain ⟨peer, hsends, -⟩ := sends_of_mem_hands h
  obtain ⟨id, w, q, remote, memory, rfl, hq, -, hdispatch, -⟩ := sends_spec hsends
  obtain ⟨-, -, hcarries⟩ := dispatch_message hdispatch
  cases hcarries.sender
  refine ⟨w, q, rfl, hq, ?_, fun y hy => Memory.localAccess_of_mem_spots hk hy⟩
  have hpayload := hcarries.payload
  split at hpayload
  · obtain ⟨data', hgather, hdata'⟩ := hpayload
    cases hdata.symm.trans hdata'
    exact Memory.contents_of_gather hgather
  · obtain ⟨len, hlen⟩ := hpayload
    cases hdata.symm.trans hlen
  · exact hpayload.elim

/-- **Memory is protected.** Posting a request, whatever it names and whether or not it succeeds,
leaves all regions and their keys as they are, and every byte too unless the request may change it:
a byte in a window of the receive that its message meets, or of its own, that is writable there, or a
byte of the peer that the peer's region lets it write to. What a one-sided operation puts there comes
from a byte that it may read, and what a message carries from windows of its sender. -/
theorem memory_protected (ops : List Operation) (op : Operation) (hop : op.isPost) :
    SameRegions (run ops).memory ((run ops).perform op).memory ∧
    (∀ x, ((run ops).perform op).memory.byte? x ≠ (run ops).memory.byte? x →
      (run ops).Permitted op x (((run ops).perform op).memory.byte? x)) ∧
    ∀ b, ∀ m ∈ (run ops).hands b op, ∀ data, m.payload = .data data →
      ∃ w q, op = .postSend m.sender w ∧ (run ops).qps.get? m.sender = some q ∧
        (run ops).memory.contents q.nic w.sgl = data.map some ∧
        ∀ y, some y ∈ (run ops).memory.spots q.nic w.sgl →
          (run ops).memory.LocalAccess q.nic w.sgl .none y := by
  have hk := (sound ops).keyed
  have hconfined : Confined (run ops).memory ((run ops).perform op).memory
      ((run ops).Permitted op) := by
    cases op with
    | postSend id w => exact postSend_confined hk id w
    | postRecv id w => exact postRecv_confined hk (proper ops) id w
    | addFabric | openNic | skipLids | createCq | poll | register | deregister | fill | createQp
    | connect | dropQp => cases hop
  exact ⟨hconfined.same, fun x hx => (hconfined.bytes x).resolve_left hx,
    fun b m hm data hdata => sent_of_mem_hands hk hm hdata⟩

/-- Two connected queue pairs, the first with a region that its requests may read and the second with
one that its peer may write to. -/
def sharing : List Operation :=
  [.addFabric, .openNic 0 {}, .createCq {} 8, .createQp ⟨1, some 2, some 2, {}, 0⟩,
    .createQp ⟨1, some 2, some 2, {}, 0⟩, .connect 3 ⟨1, 2, 0⟩, .connect 4 ⟨1, 1, 0⟩,
    .register 1 4096 4 .none, .register 1 8192 4 .remoteWrite, .fill 5 0 [7, 8]]

theorem memory_protected_sharing :
    ∃ w, ((run sharing).perform (.postSend 3 w)).memory.byte? (6, 1) = some 7 ∧
      (run sharing).Permitted (.postSend 3 w) (6, 1) (some 7) := by
  obtain ⟨w, hbefore, hafter⟩ : ∃ w, (run sharing).memory.byte? (6, 1) = some 0 ∧
      ((run sharing).perform (.postSend 3 w)).memory.byte? (6, 1) = some 7 :=
    ⟨⟨10, [⟨⟨4096, 2⟩, 1⟩], .write ⟨⟨8193, 2⟩, 4⟩ none⟩, by cbv, by cbv⟩
  refine ⟨w, hafter, ?_⟩
  have hpermitted := (memory_protected sharing (.postSend 3 w) rfl).2.1 (6, 1) (by
    rw [hbefore, hafter]
    decide)
  rwa [hafter] at hpermitted

end Device

end Verbs
