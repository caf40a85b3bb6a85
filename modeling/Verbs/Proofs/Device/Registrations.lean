import Mathlib.Tactic
import Verbs.Proofs.Device.Addresses
import Verbs.Proofs.Device.Protection
import Verbs.Proofs.Memory.Keys

/-!
Registered memory over a whole run. An adapter counts its keys upwards in pairs and never gives one
out twice, as long as the counter lasts; so a key leads to the one region that was registered under
it, and to nothing after that region is gone.
-/

namespace Verbs.Device

open Memory (SameRegions Exact)

variable {d : Device} {nic : NicId} {op : Operation} {n : Nat} {base len : UInt64}
  {perm : Permission}

def draws (nic : NicId) (d : Device) : Operation → Bool
  | .register i _ len _ => i = nic ∧ (d.nics.get? nic).isSome ∧ len.toNat < UInt32.size
  | _ => false

def registrations (nic : NicId) (ops : List Operation) : List Operation :=
  along (fun d op => if d.draws nic op then [op] else []) ops

def issues (nic : NicId) (d : Device) : Operation → List UInt32
  | .register i base len perm =>
    match d.register i base len perm with
    | (d', .ok id) =>
      if i = nic then (d'.memory.regions.get? id).toList.flatMap fun r => [r.lkey, r.rkey] else []
    | (_, .error _) => []
  | _ => []

/-- All keys that an adapter has given out in a run, in order. -/
def issued (nic : NicId) (ops : List Operation) : List UInt32 := along (issues nic) ops

/-! ### One registration -/

def registered (d : Device) (nic : NicId) (r : Region) : Device :=
  { d with
    nics := d.nics.modify nic fun n => { n with nextKey := n.nextKey + 2 }
    memory := d.memory.insert d.nextId r
    nextId := d.nextId + 1 }

lemma eq_register_of_draws (hdraws : d.draws nic op = true) :
    ∃ base len perm, op = .register nic base len perm := by
  cases op with
  | register i base len perm =>
    simp only [draws, decide_eq_true_eq] at hdraws
    exact ⟨base, len, perm, by rw [hdraws.1]⟩
  | _ => cases hdraws

lemma register_of_draws (hdraws : d.draws nic (.register nic base len perm) = true)
    (hlast : ∀ a, d.nics.get? nic = some a → a.nextKey.toNat + 1 < UInt32.size) :
    ∃ a r, d.nics.get? nic = some a ∧ r.nic = nic ∧ r.lkey = a.nextKey ∧
      r.rkey = a.nextKey + 1 ∧
      d.register nic base len perm = (d.registered nic r, .ok d.nextId) := by
  simp only [draws, decide_eq_true_eq] at hdraws
  obtain ⟨-, hsome, hlen⟩ := hdraws
  obtain ⟨a, ha⟩ := Option.isSome_iff_exists.mp hsome
  exact ⟨a, _, ha, rfl, rfl, rfl, by
    simp only [register, ha, if_neg (Nat.not_le.mpr hlen), if_neg (Nat.not_le.mpr (hlast a ha))]
    rfl⟩

lemma register_of_not_draws (hdraws : d.draws nic (.register nic base len perm) = false) :
    (d.register nic base len perm).1 = d ∧
      ∃ e, (d.register nic base len perm).2 = .error e ∧ e ≠ .fault .overflow := by
  unfold register
  split
  · exact ⟨rfl, _, rfl, by decide⟩
  · rename_i a ha
    split
    · exact ⟨rfl, _, rfl, nofun⟩
    · rename_i hlen
      simp [draws, ha, Nat.lt_of_not_le hlen] at hdraws

/-! ### The counter of keys -/

/-- Only a registration that takes keys moves the counter of an adapter, which begins with one. -/
lemma perform_nextKey (d : Device) (op : Operation) (hdraws : d.draws nic op = false) :
    (d.perform op).nics.view (·.nextKey) nic = d.nics.view (·.nextKey) nic ∨
      (nic = d.nextId ∧ (d.perform op).nextId = d.nextId + 1 ∧
        (d.perform op).nics.view (·.nextKey) nic = some 1) := by
  have h := perform_change d op
  generalize d.perform op = d' at h ⊢
  have helsewhere : ∀ {i : NicId} {a : Nic}, d.nics.get? i = some a → i ≠ nic →
      (d.nics.modify i fun n => { n with nextKey := n.nextKey + 2 }).view (·.nextKey) nic =
        d.nics.view (·.nextKey) nic := by
    intro i a ha hi
    rw [Table.view_modify ha, Function.update_of_ne (Ne.symm hi)]
  have hother : ∀ {i : NicId} {base len : UInt64} {perm : Permission} {a : Nic},
      op = .register i base len perm → d.nics.get? i = some a → len.toNat < UInt32.size →
        i ≠ nic := by
    rintro i base len perm a rfl ha hlen rfl
    simp [draws, ha, hlen] at hdraws
  cases h with
  | refused | addFabric | skipLids | createCq | poll | deregister | fill | connect | dropQp =>
    exact Or.inl rfl
  | openNic =>
    simp only [openNic, Table.view_set, Function.update_apply]
    split
    · rename_i hnic
      exact Or.inr ⟨hnic, trivial, rfl⟩
    · exact Or.inl rfl
  | overflow a ha hlen => exact Or.inl (helsewhere ha (hother rfl ha hlen))
  | register a ha hlen => exact Or.inl (helsewhere ha (hother rfl ha hlen))
  | createQp => exact Or.inl (congrFun (Table.view_modify_same fun a _ => by rfl) nic)
  | postSend =>
    obtain ⟨memory, qps, nextPosting, rings, hframe⟩ := postSend_frame d _ _
    exact Or.inl (by rw [hframe])
  | postRecv =>
    obtain ⟨memory, qps, nextPosting, rings, hframe⟩ := postRecv_frame d _ _
    exact Or.inl (by rw [hframe])

/-- An adapter has given out `n` pairs of keys, from one upwards, and its regions go by some of
them. -/
structure Keyring (nic : NicId) (n : Nat) (d : Device) : Prop where
  counter : ∀ key, d.nics.view (·.nextKey) nic = some key → key.toNat = 2 * n + 1
  unopened : d.nextId ≤ nic → d.nics.get? nic = none ∧ n = 0
  exact : d.memory.Exact nic (2 * n + 1)
  named : ∀ id r, d.memory.regions.get? id = some r → id < d.nextId

/-- What an operation can do to the regions and keys of an adapter that has given out `n` pairs: how
many there are after it, and the keys that it gives out. -/
inductive Drawing (nic : NicId) (n : Nat) (m m' : Memory) : Nat → List UInt32 → Prop where
  | same (same : SameRegions m m') : Drawing nic n m m' n []
  | elsewhere (id : RegionId) (r : Region) (new : m.regions.get? id = none) (other : r.nic ≠ nic)
      (memory : m' = m.insert id r) : Drawing nic n m m' n []
  | removed (id : RegionId) (memory : m' = m.remove id) : Drawing nic n m m' n []
  | drawn (id : RegionId) (r : Region) (new : m.regions.get? id = none) (own : r.nic = nic)
      (lkey : r.lkey.toNat = 2 * n + 1) (rkey : r.rkey.toNat = 2 * n + 2)
      (memory : m' = m.insert id r) : Drawing nic n m m' (n + 1) [r.lkey, r.rkey]

namespace Drawing

variable {m m' : Memory} {n' : Nat} {keys : List UInt32}

lemma exact (h : Drawing nic n m m' n' keys) (he : m.Exact nic (2 * n + 1)) :
    m'.Exact nic (2 * n' + 1) := by
  cases h with
  | same same => exact he.same same
  | elsewhere id r new other memory =>
    rw [memory]
    exact he.insert_other new other
  | removed id memory =>
    rw [memory]
    exact he.remove id
  | drawn id r new own lkey rkey memory =>
    rw [memory]
    exact he.insert new (Nat.succ_pos _) lkey rkey

lemma stale (h : Drawing nic n m m' n' keys) {key : UInt32} (hold : key.toNat < 2 * n + 1)
    (hkey : m.keys.get? (nic, key) = none) : m'.keys.get? (nic, key) = none := by
  cases h with
  | same same =>
    rw [same.keys]
    exact hkey
  | elsewhere id r new other memory =>
    rw [memory, Memory.keys_insert, if_neg fun h => other h.1]
    exact hkey
  | removed id memory =>
    rw [memory]
    rcases hr : m.regions.get? id with - | r
    · simp only [Memory.remove, hr]
      exact hkey
    · rw [Memory.keys_remove hr]
      split
      · rfl
      · exact hkey
  | drawn id r new own lkey rkey memory =>
    rw [memory, Memory.keys_insert, if_neg]
    · exact hkey
    · rintro ⟨-, rfl | rfl⟩ <;> omega

lemma keys_eq (h : Drawing nic n m m' n' keys) :
    List.range' 1 (2 * n') = List.range' 1 (2 * n) ++ keys.map UInt32.toNat := by
  cases h with
  | same | elsewhere | removed => simp
  | drawn id r new own lkey rkey memory =>
    have hkeys : List.range' (1 + 2 * n) 2 = [r.lkey.toNat, r.rkey.toNat] := by
      rw [lkey, rkey, Nat.add_comm 1]
      rfl
    rw [List.map_cons, List.map_cons, List.map_nil, ← hkeys, List.range'_append_1, Nat.mul_succ]

end Drawing

lemma issues_of_not_draws (hdraws : d.draws nic op = false) : d.issues nic op = [] := by
  cases op with
  | register i base len perm =>
    simp only [issues]
    split
    · rename_i hregister
      split
      · rename_i hi
        subst hi
        obtain ⟨-, e, he, -⟩ := register_of_not_draws hdraws
        rw [hregister] at he
        cases he
      · rfl
    · rfl
  | _ => rfl

/-- Regions are named by numbers that have been used. -/
def RegionsNamed (d : Device) : Prop := ∀ id r, d.memory.regions.get? id = some r → id < d.nextId

lemma RegionsNamed.perform (h : d.RegionsNamed) (hk : d.memory.Keyed)
    (hp : d.qps.Every fun _ q => q.Proper) (op : Operation) : (d.perform op).RegionsNamed := by
  intro id r hr
  have hle := (perform_effect d op).nextId_le
  rcases perform_memory hk hp op with hsame | ⟨r', base, len, perm, -, hmemory, hnext⟩ |
    ⟨j, hmemory⟩
  · obtain ⟨r₀, hr₀, -⟩ := hsame.get? hr
    exact (h id r₀ hr₀).trans_le hle
  · rw [hmemory] at hr
    rw [hnext]
    rcases Memory.goesBy_insert.mp ⟨hr, rfl, Or.inl rfl⟩ with ⟨rfl, -⟩ | ⟨-, hr⟩
    · exact Nat.lt_succ_self _
    · exact (h id r hr.found).trans (Nat.lt_succ_self _)
  · rw [hmemory] at hr
    exact (h id r (Memory.goesBy_remove.mp ⟨hr, rfl, Or.inl rfl⟩).2.found).trans_le hle

lemma regionsNamed (ops : List Operation) : (run ops).RegionsNamed := by
  induction ops using List.reverseRecOn with
  | nil => exact fun _ _ h => nomatch h
  | append_singleton ops op ih =>
    rw [run_snoc]
    exact ih.perform (sound ops).keyed (proper ops) op

namespace Keyring

lemma nextKey_lt (h : d.Keyring nic n) (hn : n + 1 < 2 ^ 31) {a : Nic}
    (ha : d.nics.get? nic = some a) : a.nextKey.toNat + 1 < UInt32.size := by
  have hcounter := h.counter a.nextKey (congrArg (Option.map _) ha)
  rw [hcounter]
  show 2 * n + 1 + 1 < 4294967296
  omega

lemma new (h : d.Keyring nic n) : d.memory.regions.get? d.nextId = none := by
  by_contra hsome
  obtain ⟨r, hr⟩ := Option.ne_none_iff_exists'.mp hsome
  exact absurd (h.named _ r hr) (Nat.lt_irrefl _)

lemma drawing (h : d.Keyring nic n) (hk : d.memory.Keyed) (hp : d.qps.Every fun _ q => q.Proper)
    (op : Operation) (hlast : d.draws nic op = true → n + 1 < 2 ^ 31) :
    Drawing nic n d.memory (d.perform op).memory (if d.draws nic op then n + 1 else n)
      (d.issues nic op) := by
  rcases hdraws : d.draws nic op
  · rw [issues_of_not_draws hdraws]
    rcases perform_memory hk hp op with hsame | ⟨r, base, len, perm, rfl, hmemory, hnext⟩ |
      ⟨id, hmemory⟩
    · exact .same hsame
    · refine .elsewhere d.nextId r h.new (fun hnic => ?_) hmemory
      -- a registration that takes no keys of the adapter leaves the device as it was
      subst hnic
      rw [perform, (register_of_not_draws hdraws).1] at hnext
      omega
    · exact .removed id hmemory
  · obtain ⟨base, len, perm, rfl⟩ := eq_register_of_draws hdraws
    obtain ⟨a, r, ha, hnic, hlkey, hrkey, hregister⟩ :=
      register_of_draws hdraws fun a => h.nextKey_lt (hlast hdraws)
    have hcounter := h.counter a.nextKey (congrArg (Option.map _) ha)
    have hfound : (d.registered nic r).memory.regions.get? d.nextId = some r :=
      Table.get?_set_self ..
    have hissues : d.issues nic (.register nic base len perm) = [r.lkey, r.rkey] := by
      simp [issues, hregister, hfound]
    rw [hissues]
    refine .drawn d.nextId r h.new hnic (by rw [hlkey, hcounter]) ?_ ?_
    · rw [hrkey, UInt32.toNat_add, hcounter]
      have := hlast hdraws
      exact Nat.mod_eq_of_lt (by show 2 * n + 1 + 1 < 4294967296; omega)
    · rw [perform, hregister]
      rfl

lemma counter_perform (h : d.Keyring nic n) (op : Operation)
    (hlast : d.draws nic op = true → n + 1 < 2 ^ 31) (key : UInt32)
    (hkey : (d.perform op).nics.view (·.nextKey) nic = some key) :
    key.toNat = 2 * (if d.draws nic op then n + 1 else n) + 1 := by
  rcases hdraws : d.draws nic op
  · rcases perform_nextKey d op hdraws with hsame | ⟨hnic, -, hone⟩
    · exact h.counter key (hsame.symm.trans hkey)
    · obtain ⟨-, rfl⟩ := h.unopened hnic.ge
      rw [hone] at hkey
      cases hkey
      rfl
  · obtain ⟨base, len, perm, rfl⟩ := eq_register_of_draws hdraws
    obtain ⟨a, r, ha, -, -, -, hregister⟩ :=
      register_of_draws hdraws fun a => h.nextKey_lt (hlast hdraws)
    have hcounter := h.counter a.nextKey (congrArg (Option.map _) ha)
    have hview : (d.registered nic r).nics.view (·.nextKey) nic = some (a.nextKey + 2) := by
      show (d.nics.modify nic _).view _ nic = _
      rw [Table.view_modify ha, Function.update_self]
    rw [Device.perform, hregister, hview] at hkey
    cases hkey
    rw [UInt32.toNat_add, hcounter]
    have := hlast hdraws
    exact Nat.mod_eq_of_lt (by show 2 * n + 1 + 2 < 4294967296; omega)

lemma unopened_perform (h : d.Keyring nic n) (op : Operation)
    (hnic : (d.perform op).nextId ≤ nic) :
    (d.perform op).nics.get? nic = none ∧ (if d.draws nic op then n + 1 else n) = 0 := by
  have hle := (perform_effect d op).nextId_le
  obtain ⟨hnone, hn⟩ := h.unopened (hle.trans hnic)
  have hdraws : d.draws nic op = false := by
    cases op <;> simp [draws, hnone]
  refine ⟨?_, by rw [hdraws]; exact hn⟩
  rcases perform_nextKey d op hdraws with hsame | ⟨rfl, hnext, -⟩
  · have hview : d.nics.view (·.nextKey) nic = none := congrArg (Option.map _) hnone
    exact Option.map_eq_none_iff.mp (hsame.trans hview)
  · rw [hnext] at hnic
    exact absurd hnic (Nat.not_succ_le_self _)

lemma perform (h : d.Keyring nic n) (hk : d.memory.Keyed) (hp : d.qps.Every fun _ q => q.Proper)
    (op : Operation) (hlast : d.draws nic op = true → n + 1 < 2 ^ 31) :
    (d.perform op).Keyring nic (if d.draws nic op then n + 1 else n) :=
  ⟨h.counter_perform op hlast, h.unopened_perform op,
    (h.drawing hk hp op hlast).exact h.exact, RegionsNamed.perform h.named hk hp op⟩

end Keyring

/-! ### Runs -/

lemma length_registrations_snoc (nic : NicId) (ops : List Operation) (op : Operation) :
    (registrations nic (ops ++ [op])).length =
      if (run ops).draws nic op then (registrations nic ops).length + 1
      else (registrations nic ops).length := by
  rw [registrations, along_snoc, List.length_append]
  split <;> rfl

lemma length_registrations_le (nic : NicId) (ops later : List Operation) :
    (registrations nic ops).length ≤ (registrations nic (ops ++ later)).length := by
  rw [registrations, registrations, along, along, steps_append, List.flatMap_append,
    List.length_append]
  exact Nat.le_add_right _ _

lemma keyring (nic : NicId) (ops : List Operation) (h : (registrations nic ops).length < 2 ^ 31) :
    (run ops).Keyring nic (registrations nic ops).length ∧
      (issued nic ops).map UInt32.toNat =
        List.range' 1 (2 * (registrations nic ops).length) := by
  induction ops using List.reverseRecOn with
  | nil =>
    exact ⟨⟨nofun, fun _ => ⟨rfl, rfl⟩,
      ⟨fun _ _ => ⟨nofun, fun ⟨_, hr⟩ => (nomatch hr.found)⟩, nofun⟩, nofun⟩, rfl⟩
  | append_singleton ops op ih =>
    rw [length_registrations_snoc] at h ⊢
    have hlast : (run ops).draws nic op = true → (registrations nic ops).length + 1 < 2 ^ 31 := by
      intro hdraws
      rwa [if_pos hdraws] at h
    obtain ⟨hring, hissued⟩ := ih (by split at h <;> omega)
    have hk := (sound ops).keyed
    rw [run_snoc]
    refine ⟨hring.perform hk (proper ops) op hlast, ?_⟩
    rw [issued, along_snoc, List.map_append, (hring.drawing hk (proper ops) op hlast).keys_eq,
      ← hissued]
    rfl

lemma stale_run (before after : List Operation)
    (h : (registrations nic (before ++ after)).length < 2 ^ 31) {key : UInt32}
    (hold : key.toNat < 2 * (registrations nic before).length + 1)
    (hkey : (run before).memory.keys.get? (nic, key) = none) :
    (run (before ++ after)).memory.keys.get? (nic, key) = none := by
  induction after using List.reverseRecOn with
  | nil => rwa [List.append_nil]
  | append_singleton after op ih =>
    rw [← List.append_assoc] at h ⊢
    have hle := length_registrations_le nic (before ++ after) [op]
    have hbefore := length_registrations_le nic before after
    have hlast : (run (before ++ after)).draws nic op = true →
        (registrations nic (before ++ after)).length + 1 < 2 ^ 31 := by
      intro hdraws
      rwa [length_registrations_snoc, if_pos hdraws] at h
    have hring := (keyring nic (before ++ after) (hle.trans_lt h)).1
    have hdrawing := hring.drawing (sound _).keyed (proper _) op hlast
    rw [run_snoc]
    exact hdrawing.stale (by omega) (ih (hle.trans_lt h))

lemma revoked_run {before after : List Operation} {id : RegionId} {r : Region}
    (h : (registrations nic (before ++ .deregister id :: after)).length < 2 ^ 31)
    (hr : (run before).memory.regions.get? id = some r) (hnic : r.nic = nic) {key : UInt32}
    (hkey : r.lkey = key ∨ r.rkey = key) :
    (run (before ++ .deregister id :: after)).memory.Revoked nic key := by
  rw [List.append_cons] at h ⊢
  have hle := length_registrations_le nic before [.deregister id]
  have hle' := length_registrations_le nic (before ++ [.deregister id]) after
  have hring := (keyring nic before (by omega)).1
  have hpair := hring.exact.pair id r hr hnic
  have hnone : (run (before ++ [.deregister id])).memory.keys.get? (nic, key) = none := by
    rw [run_snoc]
    show ((run before).memory.remove id).keys.get? (nic, key) = none
    rw [Memory.keys_remove hr, if_pos ⟨hnic, hkey⟩]
  have hstale := stale_run (before ++ [.deregister id]) after h
    (by rcases hkey with rfl | rfl <;> omega) hnone
  exact Memory.revoked_of_lookup_none (by rw [Memory.lookup, hstale]; rfl)

/-- **Keys identify one region and die with it.** As long as at most `2 ^ 31 - 1` registrations have
taken keys of an adapter, registering never overflows, and no key of the adapter is given out twice.
A local key leads to the region that has it as its local key, a remote key to the region that has it
as its remote key, and no other leads anywhere. Deregistering a region changes nothing for any other
key, and its own two lead nowhere for the rest of the run. -/
theorem keys_identify_regions (nic : NicId) (ops : List Operation)
    (h : (registrations nic ops).length ≤ 2 ^ 31 - 1) :
    (∀ s ∈ steps {} ops, ∀ base len perm, s.2 = .register nic base len perm →
      (s.1.register nic base len perm).2 ≠ .error (.fault .overflow) ∧
      (s.1.draws nic s.2 = true → ∃ id, (s.1.register nic base len perm).2 = .ok id)) ∧
    (issued nic ops).Nodup ∧
    (∀ id r, (run ops).memory.regions.get? id = some r → r.nic = nic →
      r.lkey ∈ issued nic ops ∧ r.rkey ∈ issued nic ops) ∧
    (∀ s id r off, (run ops).memory.resolveLocal nic s = .ok (id, r, off) ↔
      (run ops).memory.regions.get? id = some r ∧ r.nic = nic ∧ r.lkey = s.lkey ∧
        r.offsetOf s.addr s.len.toNat = some off) ∧
    (∀ s len perm id r off, (run ops).memory.resolveRemote nic s len perm = .ok (id, r, off) ↔
      (run ops).memory.regions.get? id = some r ∧ r.nic = nic ∧ r.rkey = s.rkey ∧
        len ≤ s.len.toNat ∧ r.perm.contains perm ∧ r.offsetOf s.addr len = some off) ∧
    (∀ id r, (run ops).memory.regions.get? id = some r → r.nic = nic → ∀ nic' s,
      (nic' = nic → r.lkey ≠ s.lkey ∧ r.rkey ≠ s.lkey) →
        ((run ops).deregister id).memory.resolveLocal nic' s =
          (run ops).memory.resolveLocal nic' s) ∧
    (∀ id r, (run ops).memory.regions.get? id = some r → r.nic = nic → ∀ nic' s len perm,
      (nic' = nic → r.lkey ≠ s.rkey ∧ r.rkey ≠ s.rkey) →
        ((run ops).deregister id).memory.resolveRemote nic' s len perm =
          (run ops).memory.resolveRemote nic' s len perm) ∧
    ∀ before after id r, ops = before ++ .deregister id :: after →
      (run before).memory.regions.get? id = some r → r.nic = nic →
        (run ops).memory.Revoked nic r.lkey ∧ (run ops).memory.Revoked nic r.rkey := by
  have hlt : (registrations nic ops).length < 2 ^ 31 := by omega
  obtain ⟨hring, hissued⟩ := keyring nic ops hlt
  have hk := (sound ops).keyed
  refine ⟨fun s hs base len perm hop => ?_, ?_, fun id r hr hnic => ?_,
    fun s id r off => hring.exact.resolveLocal_iff, fun s len perm id r off =>
      hring.exact.resolveRemote_iff, fun id r hr hnic nic' s hkey =>
      Memory.resolveLocal_congr (Memory.lookup_remove hk hring.exact hr hnic hkey),
    fun id r hr hnic nic' s len perm hkey =>
      Memory.resolveRemote_congr (Memory.lookup_remove hk hring.exact hr hnic hkey) len perm, ?_⟩
  · -- up to this registration there were no more of them than in the whole run
    obtain ⟨before, after, hops, hbefore⟩ := split_of_mem_steps hs
    have hle : (registrations nic (before ++ [s.2])).length < 2 ^ 31 := by
      have hle := length_registrations_le nic (before ++ [s.2]) after
      rw [← List.append_cons, ← hops] at hle
      exact hle.trans_lt hlt
    have hbefore' := length_registrations_le nic before [s.2]
    have hring := (keyring nic before (hbefore'.trans_lt hle)).1
    rw [hbefore, hop]
    rw [length_registrations_snoc, hop] at hle
    rcases hdraws : (run before).draws nic (.register nic base len perm)
    · obtain ⟨-, e, he, hoverflow⟩ := register_of_not_draws hdraws
      rw [he]
      exact ⟨fun h => hoverflow (Except.error.inj h), nofun⟩
    · rw [if_pos hdraws] at hle
      obtain ⟨a, r, -, -, -, -, hregister⟩ :=
        register_of_draws hdraws fun a => hring.nextKey_lt hle
      rw [hregister]
      exact ⟨nofun, fun _ => ⟨_, rfl⟩⟩
  · refine List.Nodup.of_map UInt32.toNat ?_
    rw [hissued]
    exact List.nodup_range'
  · have hpair := hring.exact.pair id r hr hnic
    have hmem : ∀ key : UInt32, 0 < key.toNat →
        key.toNat < 2 * (registrations nic ops).length + 1 → key ∈ issued nic ops := by
      intro key hpos hkey
      have hmem : key.toNat ∈ (issued nic ops).map UInt32.toNat := by
        rw [hissued, List.mem_range'_1]
        omega
      obtain ⟨key', hmem, heq⟩ := List.mem_map.mp hmem
      exact UInt32.toNat_inj.mp heq ▸ hmem
    exact ⟨hmem _ (by omega) (by omega), hmem _ (by omega) (by omega)⟩
  · rintro before after id r rfl hr hnic
    exact ⟨revoked_run hlt hr hnic (Or.inl rfl), revoked_run hlt hr hnic (Or.inr rfl)⟩

def replaced : List Operation :=
  [.addFabric, .openNic 0 {}, .register 1 4096 8 .full, .deregister 2, .register 1 4096 8 .full]

theorem keys_identify_regions_replaced :
    (registrations 1 replaced).length = 2 ∧ issued 1 replaced = [1, 2, 3, 4] ∧
      (issued 1 replaced).Nodup ∧ (run replaced).memory.gather 1 [⟨⟨4096, 0⟩, 1⟩] =
        .error .locProtErr ∧
      (run replaced).memory.readRemote 1 ⟨⟨4096, 8⟩, 2⟩ 8 = .error .remAccessErr := by
  have hlength : (registrations 1 replaced).length = 2 := by cbv
  obtain ⟨-, hnodup, -, -, -, -, -, hrevoked⟩ :=
    keys_identify_regions 1 replaced (by rw [hlength]; decide)
  obtain ⟨r, hr, hnic, hlkey, hrkey⟩ : ∃ r,
      (run [.addFabric, .openNic 0 {}, .register 1 4096 8 .full]).memory.regions.get? 2 = some r ∧
        r.nic = 1 ∧ r.lkey = 1 ∧ r.rkey = 2 :=
    ⟨⟨1, 4096, List.replicate 8 0, 1, 2, .full⟩, by cbv, rfl, rfl, rfl⟩
  obtain ⟨hlocal, hremote⟩ := hrevoked _ [.register 1 4096 8 .full] 2 r rfl hr hnic
  exact ⟨hlength, by cbv, hnodup, hlocal.gather _ _ (List.mem_singleton_self _) hlkey.symm,
    hremote.readRemote _ hrkey.symm 8⟩

end Verbs.Device
