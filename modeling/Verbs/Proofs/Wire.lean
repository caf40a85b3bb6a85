import Mathlib.Tactic
import Verbs.Handshake

/-!
Reading what was written. A number of a fixed width is read back from its written form, whatever
follows it, and a handshake from its whole message.
-/

namespace Verbs

namespace Bytes

lemma foldl_eq (bs : Bytes) (acc : Nat) :
    bs.foldl (fun n b => 256 * n + b.toNat) acc = acc * 256 ^ bs.length + toNatBE bs := by
  induction bs generalizing acc with
  | nil => simp [toNatBE]
  | cons b bs ih =>
    rw [toNatBE, List.foldl_cons, List.foldl_cons, ih, ih (256 * 0 + b.toNat), List.length_cons]
    ring

lemma toNatBE_cons (b : UInt8) (bs : Bytes) :
    toNatBE (b :: bs) = b.toNat * 256 ^ bs.length + toNatBE bs := by
  rw [toNatBE, List.foldl_cons, foldl_eq, Nat.mul_zero, Nat.zero_add]

lemma toNatBE_ofNatBE (w n : Nat) : toNatBE (ofNatBE w n) = n % 256 ^ w := by
  induction w with
  | zero => simp [ofNatBE, toNatBE, Nat.mod_one]
  | succ w ih =>
    have hbyte : (UInt8.ofNat (n / 256 ^ w)).toNat = n / 256 ^ w % 256 := by simp
    calc toNatBE (ofNatBE (w + 1) n)
        = (UInt8.ofNat (n / 256 ^ w)).toNat * 256 ^ (ofNatBE w n).length + toNatBE (ofNatBE w n) :=
          toNatBE_cons _ _
      _ = n / 256 ^ w % 256 * 256 ^ w + n % 256 ^ w := by rw [hbyte, length_ofNatBE, ih]
      _ = n % 256 ^ (w + 1) := by
          rw [pow_succ, Nat.mod_mul]
          ring

end Bytes

namespace Wire

namespace Reader

variable {α β : Type} {r : Reader α} {f : α → Reader β} {input mid : Bytes}

@[simp] lemma read_pure (a : α) (input : Bytes) : (pure a : Reader α).read input = (.ok a, input) :=
  rfl

lemma read_bind_ok {a : α} (h : r.read input = (.ok a, mid)) :
    (r >>= f).read input = (f a).read mid := by
  simp only [read, ExceptT.run_bind, StateT.run_bind] at h ⊢
  rw [h]
  rfl

lemma read_bind_error {t : Truncated} (h : r.read input = (.error t, mid)) :
    (r >>= f).read input = (.error t, mid) := by
  simp only [read, ExceptT.run_bind, StateT.run_bind] at h ⊢
  rw [h]
  rfl

lemma read_map_ok {g : α → β} {a : α} (h : r.read input = (.ok a, mid)) :
    (g <$> r).read input = (.ok (g a), mid) := by
  rw [map_eq_pure_bind, read_bind_ok h, read_pure]

lemma read_map_error {g : α → β} {t : Truncated} (h : r.read input = (.error t, mid)) :
    (g <$> r).read input = (.error t, mid) := by
  rw [map_eq_pure_bind, read_bind_error h]

lemma read_bytes (n : Nat) (input : Bytes) :
    (bytes n).read input = (.ok (input.take n), input.drop n) := rfl

lemma read_ensure (need : Nat) (input : Bytes) : (ensure need).read input =
    (if input.length < need then .error ⟨need, input.length⟩ else .ok (), input) := by
  show (if input.length < need then (throw ⟨need, input.length⟩ : Reader Unit) else pure ()).read
    input = _
  split <;> rfl

lemma read_ensure_bind {need : Nat} (f : Unit → Reader β) (h : need ≤ input.length) :
    (ensure need >>= f).read input = (f ()).read input := by
  refine read_bind_ok ?_
  rw [read_ensure, if_neg (by omega)]

lemma read_ensure_short {need : Nat} (f : Unit → Reader β) (h : input.length < need) :
    (ensure need >>= f).read input = (.error ⟨need, input.length⟩, input) := by
  refine read_bind_error ?_
  rw [read_ensure, if_pos h]

lemma read_number_append (w n : Nat) (rest : Bytes) :
    (number w).read (Bytes.ofNatBE w n ++ rest) = (.ok (n % 256 ^ w), rest) := by
  have hlength := Bytes.length_ofNatBE w n
  rw [number, read_ensure_bind _ (by simp), read_bind_ok (read_bytes _ _), read_pure,
    List.take_left' hlength, List.drop_left' hlength, Bytes.toNatBE_ofNatBE]

lemma read_u16_append (v : UInt16) (rest : Bytes) :
    u16.read (Bytes.ofNatBE 2 v.toNat ++ rest) = (.ok v, rest) := by
  have hlt : v.toNat < 256 ^ 2 := v.toNat_lt
  rw [u16, read_bind_ok (read_number_append _ _ _), read_pure, Nat.mod_eq_of_lt hlt,
    UInt16.ofNat_toNat]

lemma read_u32_append (v : UInt32) (rest : Bytes) :
    u32.read (Bytes.ofNatBE 4 v.toNat ++ rest) = (.ok v, rest) := by
  have hlt : v.toNat < 256 ^ 4 := v.toNat_lt
  rw [u32, read_bind_ok (read_number_append _ _ _), read_pure, Nat.mod_eq_of_lt hlt,
    UInt32.ofNat_toNat]

lemma read_u64_append (v : UInt64) (rest : Bytes) :
    u64.read (Bytes.ofNatBE 8 v.toNat ++ rest) = (.ok v, rest) := by
  have hlt : v.toNat < 256 ^ 8 := v.toNat_lt
  rw [u64, read_bind_ok (read_number_append _ _ _), read_pure, Nat.mod_eq_of_lt hlt,
    UInt64.ofNat_toNat]

end Reader

end Wire

open Wire.Reader

lemma RemoteSlice.read_append (v : RemoteSlice) (rest : Bytes) :
    reader.read (v.encode ++ rest) = (.ok v, rest) := by
  have hroom : wireSize ≤ (v.encode ++ rest).length := by
    simp only [encode, List.length_append, Bytes.length_ofNatBE, wireSize]
    omega
  rw [reader, read_ensure_bind _ hroom]
  simp only [encode, List.append_assoc]
  rw [read_bind_ok (read_u64_append _ _), read_bind_ok (read_u32_append _ _),
    read_bind_ok (read_u32_append _ _), read_pure]

namespace Handshake

@[simp] lemma length_encode (h : Handshake) :
    h.encode.length = headerSize + h.userData.length := by
  simp only [encode, List.length_append, Bytes.length_ofNatBE, headerSize]

lemma read_encode (h : Handshake) : reader.read h.encode = (.ok h, []) := by
  have hroom : headerSize ≤ h.encode.length := by simp
  rw [reader, read_ensure_bind _ hroom]
  simp only [encode, List.append_assoc]
  rw [read_bind_ok (read_u16_append _ _), read_bind_ok (read_u32_append _ _),
    read_bind_ok (read_u32_append _ _)]
  show Prod.mk (Except.ok (⟨⟨_, _, _⟩, h.userData.take h.userData.length⟩ : Handshake))
    (h.userData.drop h.userData.length) = _
  rw [List.take_length, List.drop_length]

lemma decode_encode (h : Handshake) : decode h.encode = .ok h :=
  congrArg Prod.fst h.read_encode

lemma decode_short {input : Bytes} (h : input.length < headerSize) :
    decode input = .error ⟨headerSize, input.length⟩ :=
  congrArg Prod.fst (read_ensure_short _ h)

end Handshake

end Verbs
