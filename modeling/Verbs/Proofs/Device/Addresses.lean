import Mathlib.Tactic
import Verbs.Proofs.Device.Identity

/-!
The addresses of a device: which identifier a fabric gives out next, what adapters have been given,
where queue pairs are reached and where the routes lead. Most operations leave all of this alone;
the others change it in one of five ways.
-/

namespace Verbs

namespace Table

variable {κ α β : Type} [DecidableEq κ] {t : Table κ α} {k : κ} {a : α}

/-- What one part of the values says, key by key. -/
def view (t : Table κ α) (f : α → β) (k : κ) : Option β := (t.get? k).map f

lemma view_set (t : Table κ α) (k : κ) (a : α) (f : α → β) :
    (t.set k a).view f = Function.update (t.view f) k (some (f a)) := by
  funext j
  rw [view, get?_set, Function.update_apply]
  split <;> rfl

lemma view_erase (t : Table κ α) (k : κ) (f : α → β) :
    (t.erase k).view f = Function.update (t.view f) k none := by
  funext j
  rw [view, get?_erase, Function.update_apply]
  split <;> rfl

lemma view_set_same {b : α} {f : α → β} (h : t.get? k = some a) (hf : f b = f a) :
    (t.set k b).view f = t.view f := by
  have hview : t.view f k = some (f a) := congrArg (Option.map f) h
  rw [view_set, hf, ← hview, Function.update_eq_self]

lemma view_modify (h : t.get? k = some a) (g : α → α) (f : α → β) :
    (t.modify k g).view f = Function.update (t.view f) k (some (f (g a))) := by
  funext j
  rw [view, get?_modify, Function.update_apply]
  split
  · rename_i hj
    rw [hj, h]
    rfl
  · rfl

lemma view_modify_same {g : α → α} {f : α → β} (h : ∀ a, t.get? k = some a → f (g a) = f a) :
    (t.modify k g).view f = t.view f := by
  rcases hk : t.get? k with - | a
  · funext j
    rw [view, view, get?_modify]
    split
    · rename_i hj
      rw [hj, hk]
      rfl
    · rfl
  · have hview : t.view f k = some (f a) := congrArg (Option.map f) hk
    rw [view_modify hk, h a hk, ← hview, Function.update_eq_self]

lemma view_self (t : Table κ α) : (t.view fun a => a) = t.get? := by
  funext k
  exact Option.map_id_apply

end Table

/-- An adapter, as far as addresses go. -/
structure Port where
  fabric : FabricId
  lid : UInt16
  nextQpn : UInt32

def Nic.port (n : Nic) : Port := ⟨n.fabric, n.lid, n.nextQpn⟩

def QueuePair.route (q : QueuePair) : Route := ⟨q.fabric, q.endpoint.lid, q.endpoint.qpn⟩

/-- The adapter of a queue pair, and where it is reached. -/
def QueuePair.home (q : QueuePair) : NicId × Route := (q.nic, q.route)

@[ext]
structure Net where
  lids : FabricId → Option UInt16
  ports : NicId → Option Port
  homes : QpId → Option (NicId × Route)
  routes : Route → Option QpId
  nextId : Nat

/-! ### Homes -/

namespace QueuePairs

def homes (qps : QueuePairs) : QpId → Option (NicId × Route) := Table.view qps QueuePair.home

lemma homes_of_failed {qps qps' : QueuePairs} (hf : Failed qps qps') : qps'.homes = qps.homes := by
  funext id
  rcases hf id with h | h <;> rw [homes, homes, Table.view, Table.view, h]
  rw [Option.map_map]
  rfl

lemma homes_drop (qps : QueuePairs) (id : QpId) :
    (qps.drop id).1.homes = Function.update qps.homes id none := by
  rw [homes_of_failed (drop_failed qps id)]
  exact Table.view_erase qps id _

end QueuePairs

namespace Device

variable {d d' : Device} {id : QpId} {q : QueuePair} {op : Operation}

lemma deliver_homes (hq : d.qps.get? id = some q) (m : Message) :
    (d.deliver id q m).1.qps.homes = d.qps.homes := by
  unfold deliver
  split
  · exact QueuePairs.homes_of_failed (QueuePairs.finish_failed d.qps m _)
  · split
    · rename_i r rest hrecvs
      exact (QueuePairs.homes_of_failed
        (land_failed { d with qps := d.qps.set id _ } id _ m r)).trans (Table.view_set_same hq rfl)
    · exact Table.view_set_same hq rfl

lemma execute_homes (d : Device) (id : QpId) (q : QueuePair) (w : SendRequest)
    (remote : Endpoint) : (d.execute id q w remote).1.qps.homes = d.qps.homes := by
  rcases execute_cases d id q w remote with ⟨memory, peerId, peer, m, hd, he⟩ |
    ⟨memory, status, len, -, he⟩
  · rw [he]
    exact deliver_homes (by exact (get?_of_route (dispatch_message hd).1).2) m
  · rw [he]
    exact QueuePairs.homes_of_failed (QueuePairs.complete_failed d.qps id _)

/-! ### Operations -/

def net (d : Device) : Net where
  lids := d.fabrics.view (·.nextLid)
  ports := d.nics.view Nic.port
  homes := d.qps.homes
  routes := d.routes.get?
  nextId := d.nextId

/-- Whether an adapter that is opened is attached to a fabric that there is. -/
def attaches (d : Device) : Operation → Bool
  | .openNic fabric _ => d.fabrics.contains fabric
  | _ => true

def makes (d : Device) : Operation → List (NicId × QpId)
  | .createQp plan =>
    match d.createQp plan with
    | .ok (_, id) => [(plan.nic, id)]
    | .error _ => []
  | _ => []

end Device

/-- What an operation can do to the addresses: the queue pairs that it makes and the addresses after
it. -/
inductive Net.Step (t : Net) : Operation → List (NicId × QpId) → Net → Prop where
  | same {op : Operation} (n : Nat) (later : t.nextId ≤ n) : Step t op [] { t with nextId := n }
  | addFabric :
      Step t .addFabric []
        { t with lids := Function.update t.lids t.nextId (some 1), nextId := t.nextId + 1 }
  | openNic {fabric : FabricId} {attr : DeviceAttr} (lid : UInt16)
      (there : t.lids fabric = some lid) :
      Step t (.openNic fabric attr) []
        { t with
          lids := Function.update t.lids fabric (some (lid + 1))
          ports := Function.update t.ports t.nextId (some ⟨fabric, lid, 1⟩)
          nextId := t.nextId + 1 }
  | skipLids {fabric : FabricId} {count : Nat} (lid : UInt16) (there : t.lids fabric = some lid) :
      Step t (.skipLids fabric count) []
        { t with lids := Function.update t.lids fabric (some (lid + UInt16.ofNat count)) }
  | createQp {plan : QpPlan} (p : Port) (there : t.ports plan.nic = some p) (r : Route)
      (route : r = ⟨p.fabric, p.lid, p.nextQpn⟩) :
      Step t (.createQp plan) [(plan.nic, t.nextId)]
        { t with
          ports := Function.update t.ports plan.nic (some { p with nextQpn := p.nextQpn + 1 })
          homes := Function.update t.homes t.nextId (some (plan.nic, r))
          routes := Function.update t.routes r (some t.nextId)
          nextId := t.nextId + 1 }
  | dropQp {id : QpId} (nic : NicId) (r : Route) (there : t.homes id = some (nic, r)) :
      Step t (.dropQp id) []
        { t with
          homes := Function.update t.homes id none
          routes := Function.update t.routes r none }

lemma Net.Step.of_eq {t u u' : Net} {op : Operation} {made : List (NicId × QpId)}
    (h : t.Step op made u) (hu : u = u') : t.Step op made u' := hu ▸ h

namespace Device

variable {d d' : Device} {id : QpId} {q : QueuePair} {op : Operation}

lemma step_same (hlids : d'.net.lids = d.net.lids) (hports : d'.net.ports = d.net.ports)
    (hhomes : d'.qps.homes = d.qps.homes) (hroutes : d'.routes = d.routes)
    (hnextId : d.nextId ≤ d'.nextId) : d.net.Step op [] d'.net := by
  have hnet : d'.net = { d.net with nextId := d'.nextId } := by
    ext1
    · exact hlids
    · exact hports
    · exact hhomes
    · exact congrArg Table.get? hroutes
    · rfl
  rw [hnet]
  exact .same _ hnextId

lemma step_refl (d : Device) (op : Operation) : d.net.Step op [] d.net :=
  step_same rfl rfl rfl rfl le_rfl

lemma postSend_step (d : Device) (id : QpId) (w : SendRequest) :
    d.net.Step (.postSend id w) [] (d.perform (.postSend id w)).net := by
  rcases h : d.sendReports id w with e | ⟨d', out⟩
  · rw [(postSend_of_error h).1]
    exact step_refl d _
  · rw [(postSend_of_ok h).1]
    obtain ⟨q, hq, ⟨remote, -, -, hexecute⟩ | ⟨-, rfl, -⟩⟩ := sendReports_cases h
    · have hhomes := execute_homes d id q w remote
      obtain ⟨memory, qps, hframe⟩ := execute_frame d id q w remote
      rw [hexecute] at hhomes hframe
      dsimp only at hhomes hframe
      subst hframe
      exact step_same rfl rfl hhomes rfl le_rfl
    · exact step_same rfl rfl rfl rfl le_rfl

lemma postRecv_step (d : Device) (id : QpId) (w : RecvRequest) :
    d.net.Step (.postRecv id w) [] (d.perform (.postRecv id w)).net := by
  rcases h : d.recvReports id w with e | ⟨d', out⟩
  · rw [(postRecv_of_error h).1]
    exact step_refl d _
  · rw [(postRecv_of_ok h).1]
    obtain ⟨q, hq, ⟨-, rfl, -⟩ | ⟨-, -, ⟨m, rest, -, hland⟩ | ⟨-, -, -, rfl⟩⟩⟩ :=
      recvReports_cases h
    · exact step_same rfl rfl rfl rfl le_rfl
    · have hfailed := land_failed (d.unboxed id q rest) id { q with inbox := rest } m (d.receive w)
      obtain ⟨memory, qps, hframe⟩ :=
        land_frame (d.unboxed id q rest) id { q with inbox := rest } m (d.receive w)
      rw [hland] at hfailed hframe
      have hhomes := (QueuePairs.homes_of_failed hfailed).trans (Table.view_set_same hq rfl)
      dsimp only at hhomes hframe
      subst hframe
      exact step_same rfl rfl hhomes rfl le_rfl
    · exact step_same rfl rfl (Table.view_set_same hq rfl) rfl le_rfl

lemma addFabric_step (d : Device) : d.net.Step .addFabric [] d.addFabric.1.net := by
  refine Net.Step.addFabric.of_eq (Net.ext ?_ rfl rfl rfl rfl)
  exact (Table.view_set d.fabrics d.nextId {} (·.nextLid)).symm

lemma openNic_step (d : Device) (fabric : FabricId) (attr : DeviceAttr)
    (hattached : d.attaches (.openNic fabric attr) = true) :
    d.net.Step (.openNic fabric attr) [] (d.openNic fabric attr).1.net := by
  obtain ⟨f, hf⟩ := Option.isSome_iff_exists.mp hattached
  have hlid : d.net.lids fabric = some f.nextLid := by
    show (d.fabrics.get? fabric).map _ = _
    rw [hf]
    rfl
  refine (Net.Step.openNic _ hlid).of_eq (Net.ext ?_ ?_ rfl rfl rfl)
  · show _ = (d.fabrics.modify fabric _).view _
    rw [Table.view_modify hf]
    rfl
  · simp only [openNic, hf]
    show _ = (d.nics.set d.nextId _).view _
    rw [Table.view_set]
    rfl

lemma skipLids_step (d : Device) (fabric : FabricId) (count : Nat) :
    d.net.Step (.skipLids fabric count) [] { d with
      fabrics := d.fabrics.modify fabric fun f =>
        { f with nextLid := f.nextLid + UInt16.ofNat count } }.net := by
  rcases hf : d.fabrics.get? fabric with - | f
  · refine step_same (Table.view_modify_same fun f hf' => ?_) rfl rfl rfl le_rfl
    cases hf.symm.trans hf'
  · have hlid : d.net.lids fabric = some f.nextLid := by
      show (d.fabrics.get? fabric).map _ = _
      rw [hf]
      rfl
    refine (Net.Step.skipLids _ hlid).of_eq (Net.ext ?_ rfl rfl rfl rfl)
    show _ = (d.fabrics.modify fabric _).view _
    rw [Table.view_modify hf]
    rfl

lemma createQp_step (d : Device) (plan : QpPlan) :
    d.net.Step (.createQp plan) (d.makes (.createQp plan)) (d.perform (.createQp plan)).net := by
  rcases h : d.createQp plan with e | ⟨d', id⟩
  · simp only [perform, makes, h]
    exact step_refl d _
  · simp only [perform, makes, h]
    obtain ⟨rfl, n, q, hn, -, hnic, hfabric, hendpoint, rfl⟩ := createQp_spec h
    have hport : d.net.ports plan.nic = some n.port := by
      show (d.nics.get? plan.nic).map _ = _
      rw [hn]
      rfl
    have hroute : q.route = ⟨n.fabric, n.lid, n.nextQpn⟩ := by
      rw [QueuePair.route, hfabric, hendpoint]
    refine (Net.Step.createQp _ hport q.route hroute).of_eq (Net.ext rfl ?_ ?_ ?_ rfl)
    · show _ = (d.nics.modify plan.nic _).view _
      rw [Table.view_modify hn]
      rfl
    · show _ = Table.view (d.qps.set d.nextId q) _
      rw [Table.view_set, ← hnic]
      rfl
    · have hroutes := Table.view_set d.routes q.route d.nextId fun i => i
      rw [Table.view_self, Table.view_self] at hroutes
      exact hroutes.symm

lemma dropQp_step (hq : d.qps.get? id = some q) :
    d.net.Step (.dropQp id) []
      ({ d with qps := (d.qps.drop id).1, routes := d.routes.erase q.route }.record
        (d.qps.drop id).2).net := by
  have hhome : d.net.homes id = some (q.nic, q.route) := by
    show (d.qps.get? id).map QueuePair.home = _
    rw [hq]
    rfl
  refine (Net.Step.dropQp _ _ hhome).of_eq (Net.ext rfl rfl ?_ ?_ rfl)
  · exact (QueuePairs.homes_drop _ _).symm
  · have hroutes := Table.view_erase d.routes q.route fun i => i
    rw [Table.view_self, Table.view_self] at hroutes
    exact hroutes.symm

lemma perform_step (d : Device) (op : Operation) (hattached : d.attaches op = true) :
    d.net.Step op (d.makes op) (d.perform op).net := by
  by_cases hplan : ∃ plan, op = .createQp plan
  · obtain ⟨plan, rfl⟩ := hplan
    exact createQp_step d plan
  · have hmakes : d.makes op = [] := by
      cases op <;> first | rfl | exact absurd ⟨_, rfl⟩ hplan
    rw [hmakes]
    have h := perform_change d op
    generalize d.perform op = d' at h ⊢
    cases h with
    | refused => exact step_refl d op
    | addFabric => exact addFabric_step d
    | openNic => exact openNic_step d _ _ hattached
    | skipLids => exact skipLids_step d _ _
    | createCq => exact step_same rfl rfl rfl rfl (Nat.le_succ _)
    | poll | deregister | fill => exact step_same rfl rfl rfl rfl le_rfl
    -- Registering uses up keys of an adapter, which no address depends on.
    | overflow => exact step_same rfl (Table.view_modify_same fun _ _ => rfl) rfl rfl le_rfl
    | register =>
      exact step_same rfl (Table.view_modify_same fun _ _ => rfl) rfl rfl (Nat.le_succ _)
    | createQp => exact absurd ⟨_, rfl⟩ hplan
    | connect q found => exact step_same rfl rfl (Table.view_set_same found rfl) rfl le_rfl
    | postSend => exact postSend_step d _ _
    | postRecv => exact postRecv_step d _ _
    | dropQp q found => exact dropQp_step found

end Device

end Verbs
