import Mathlib.Tactic
import Verbs.Proofs.Wire
import Verbs.Wire.Cursor

/-!
Messages of several items. There is no framing, so it is the widths that carry the argument: any
bytes that are as long as a type is wide begin with the written form of an item of that type, a
reader gives back the item whose written form comes first, and where the bytes are fewer it stops
before it takes any.
-/

namespace Verbs

/-! ### The bytes of a number -/

namespace Bytes

lemma toNatBE_lt (bs : Bytes) : toNatBE bs < 256 ^ bs.length := by
  induction bs with
  | nil => simp [toNatBE]
  | cons b bs ih =>
    have hb : b.toNat < 256 := b.toNat_lt
    calc toNatBE (b :: bs) = b.toNat * 256 ^ bs.length + toNatBE bs := toNatBE_cons b bs
      _ < b.toNat * 256 ^ bs.length + 256 ^ bs.length := by omega
      _ = (b.toNat + 1) * 256 ^ bs.length := by ring
      _ ≤ 256 * 256 ^ bs.length := Nat.mul_le_mul_right _ hb
      _ = 256 ^ (b :: bs).length := by rw [List.length_cons]; ring

lemma ofNatBE_add_mul (w n k : Nat) : ofNatBE w (k * 256 ^ w + n) = ofNatBE w n := by
  induction w generalizing k with
  | zero => rfl
  | succ w ih =>
    have hrest : k * 256 ^ (w + 1) + n = k * 256 * 256 ^ w + n := by ring
    have hbyte : UInt8.ofNat ((k * 256 * 256 ^ w + n) / 256 ^ w) = UInt8.ofNat (n / 256 ^ w) := by
      rw [Nat.add_comm, Nat.add_mul_div_right _ _ (by positivity)]
      apply UInt8.toNat_inj.mp
      simp
    rw [hrest, ofNatBE, ofNatBE, ih]
    exact congrArg (· :: ofNatBE w n) hbyte

lemma ofNatBE_toNatBE (bs : Bytes) : ofNatBE bs.length (toNatBE bs) = bs := by
  induction bs with
  | nil => rfl
  | cons b bs ih =>
    have hbyte : (b.toNat * 256 ^ bs.length + toNatBE bs) / 256 ^ bs.length = b.toNat := by
      rw [Nat.add_comm, Nat.add_mul_div_right _ _ (by positivity),
        Nat.div_eq_of_lt (toNatBE_lt bs), Nat.zero_add]
    rw [toNatBE_cons, List.length_cons, ofNatBE, ofNatBE_add_mul, ih]
    exact congrArg (· :: bs) ((congrArg UInt8.ofNat hbyte).trans UInt8.ofNat_toNat)

lemma split {w : Nat} {bs : Bytes} (h : w ≤ bs.length) :
    ∃ n < 256 ^ w, ofNatBE w n ++ bs.drop w = bs := by
  have hlength : (bs.take w).length = w := by rw [List.length_take, Nat.min_eq_left h]
  have hlt := toNatBE_lt (bs.take w)
  have hwritten := ofNatBE_toNatBE (bs.take w)
  rw [hlength] at hlt hwritten
  exact ⟨toNatBE (bs.take w), hlt, by rw [hwritten, List.take_append_drop]⟩

lemma split_u16 (bs : Bytes) (h : 2 ≤ bs.length) :
    ∃ v : UInt16, ofNatBE 2 v.toNat ++ bs.drop 2 = bs := by
  obtain ⟨n, hn, hbs⟩ := split h
  refine ⟨UInt16.ofNat n, ?_⟩
  rwa [UInt16.toNat_ofNat_of_lt' hn]

lemma split_u32 (bs : Bytes) (h : 4 ≤ bs.length) :
    ∃ v : UInt32, ofNatBE 4 v.toNat ++ bs.drop 4 = bs := by
  obtain ⟨n, hn, hbs⟩ := split h
  refine ⟨UInt32.ofNat n, ?_⟩
  rwa [UInt32.toNat_ofNat_of_lt' hn]

lemma split_u64 (bs : Bytes) (h : 8 ≤ bs.length) :
    ∃ v : UInt64, ofNatBE 8 v.toNat ++ bs.drop 8 = bs := by
  obtain ⟨n, hn, hbs⟩ := split h
  refine ⟨UInt64.ofNat n, ?_⟩
  rwa [UInt64.toNat_ofNat_of_lt' hn]

end Bytes

namespace Wire

/-! ### Items -/

def Item.size : Item → Nat
  | .u16 _ => 2
  | .u32 _ => 4
  | .u64 _ => 8
  | .remote _ => 16
  | .handshake h => 10 + h.userData.length

lemma Item.length_encode (i : Item) : i.encode.length = i.size := by
  cases i with
  | u16 v => exact Bytes.length_ofNatBE _ _
  | u32 v => exact Bytes.length_ofNatBE _ _
  | u64 v => exact Bytes.length_ofNatBE _ _
  | remote v => simp only [Item.encode, RemoteSlice.encode, List.length_append,
      Bytes.length_ofNatBE, Item.size]
  | handshake h => exact h.length_encode

lemma Item.read_encode (i : Item) (rest : Bytes) (hlast : i.shape = .handshake → rest = []) :
    i.shape.reader.read (i.encode ++ rest) = (.ok i, rest) := by
  cases i with
  | u16 v => exact Reader.read_map_ok (Reader.read_u16_append v rest)
  | u32 v => exact Reader.read_map_ok (Reader.read_u32_append v rest)
  | u64 v => exact Reader.read_map_ok (Reader.read_u64_append v rest)
  | remote v => exact Reader.read_map_ok (v.read_append rest)
  | handshake h =>
    rw [hlast rfl, List.append_nil]
    exact Reader.read_map_ok (h.read_encode)

lemma Shape.read_short {s : Shape} {input : Bytes} (h : input.length < s.width) :
    s.reader.read input = (.error ⟨s.width, input.length⟩, input) := by
  cases s with
  | u16 => exact Reader.read_map_error (Reader.read_bind_error (Reader.read_ensure_short _ h))
  | u32 => exact Reader.read_map_error (Reader.read_bind_error (Reader.read_ensure_short _ h))
  | u64 => exact Reader.read_map_error (Reader.read_bind_error (Reader.read_ensure_short _ h))
  | remote => exact Reader.read_map_error (Reader.read_ensure_short _ h)
  | handshake => exact Reader.read_map_error (Reader.read_ensure_short _ h)

lemma Shape.split (s : Shape) {input : Bytes} (h : s.width ≤ input.length) :
    ∃ (i : Item) (rest : Bytes),
      i.shape = s ∧ (i.shape = .handshake → rest = []) ∧ i.encode ++ rest = input := by
  cases s with
  | u16 =>
    obtain ⟨v, hv⟩ := Bytes.split_u16 input h
    exact ⟨.u16 v, _, rfl, nofun, hv⟩
  | u32 =>
    obtain ⟨v, hv⟩ := Bytes.split_u32 input h
    exact ⟨.u32 v, _, rfl, nofun, hv⟩
  | u64 =>
    obtain ⟨v, hv⟩ := Bytes.split_u64 input h
    exact ⟨.u64 v, _, rfl, nofun, hv⟩
  | remote =>
    replace h : 16 ≤ input.length := h
    obtain ⟨addr, haddr⟩ := Bytes.split_u64 input (by omega)
    obtain ⟨len, hlen⟩ := Bytes.split_u32 (input.drop 8) (by simp; omega)
    obtain ⟨rkey, hrkey⟩ := Bytes.split_u32 ((input.drop 8).drop 4) (by simp; omega)
    refine ⟨.remote ⟨⟨addr, len⟩, rkey⟩, ((input.drop 8).drop 4).drop 4, rfl, nofun, ?_⟩
    simp only [Item.encode, RemoteSlice.encode, List.append_assoc]
    rw [hrkey, hlen, haddr]
  | handshake =>
    replace h : 10 ≤ input.length := h
    obtain ⟨lid, hlid⟩ := Bytes.split_u16 input (by omega)
    obtain ⟨qpn, hqpn⟩ := Bytes.split_u32 (input.drop 2) (by simp; omega)
    obtain ⟨psn, hpsn⟩ := Bytes.split_u32 ((input.drop 2).drop 4) (by simp; omega)
    refine ⟨.handshake ⟨⟨lid, qpn, psn⟩, ((input.drop 2).drop 4).drop 4⟩, [], rfl, fun _ => rfl, ?_⟩
    simp only [Item.encode, Handshake.encode, List.append_assoc, List.append_nil]
    rw [hpsn, hqpn, hlid]

inductive Shape.Reads (s : Shape) (input : Bytes) : Prop where
  | item (i : Item) (rest : Bytes) (room : s.width ≤ input.length) (shape : i.shape = s)
    (written : i.encode ++ rest = input) (read : s.reader.read input = (.ok i, rest))
  | short (room : input.length < s.width)
    (read : s.reader.read input = (.error ⟨s.width, input.length⟩, input))

lemma Shape.reads (s : Shape) (input : Bytes) : s.Reads input := by
  rcases Nat.lt_or_ge input.length s.width with hshort | hroom
  · exact .short hshort (read_short hshort)
  · obtain ⟨i, rest, rfl, hlast, rfl⟩ := s.split hroom
    exact .item i rest hroom rfl rfl (i.read_encode rest hlast)

/-! ### Messages -/

lemma readAll_cons_ok {s : Shape} {ss : List Shape} {input mid : Bytes} {i : Item}
    (h : s.reader.read input = (.ok i, mid)) :
    (readAll (s :: ss)).read input = (List.cons i <$> readAll ss).read mid := by
  rw [readAll, Reader.read_bind_ok h, map_eq_pure_bind]

lemma readAll_append {fields rest : List Item} {input : Bytes}
    (hfields : ∀ i ∈ fields, i.shape ≠ .handshake)
    (hrest : (readAll (rest.map Item.shape)).read (encodeAll rest ++ input) = (.ok rest, input)) :
    (readAll ((fields ++ rest).map Item.shape)).read (encodeAll (fields ++ rest) ++ input) =
      (.ok (fields ++ rest), input) := by
  induction fields with
  | nil => exact hrest
  | cons i fields ih =>
    have hi : i.shape = .handshake → encodeAll (fields ++ rest) ++ input = [] :=
      fun h => absurd h (hfields i List.mem_cons_self)
    have hread := i.read_encode (encodeAll (fields ++ rest) ++ input) hi
    have htail := ih fun j hj => hfields j (List.mem_cons_of_mem _ hj)
    rw [List.cons_append, List.map_cons, encodeAll, List.flatMap_cons, List.append_assoc]
    exact (readAll_cons_ok hread).trans (Reader.read_map_ok htail)

lemma encodeAll_of_readAll {shapes : List Shape} {input rest : Bytes} {items : List Item}
    (h : (readAll shapes).read input = (.ok items, rest)) :
    items.map Item.shape = shapes ∧ encodeAll items ++ rest = input := by
  induction shapes generalizing input items with
  | nil =>
    obtain ⟨rfl, rfl⟩ : items = [] ∧ input = rest := by
      simpa [readAll, eq_comm] using h
    exact ⟨rfl, rfl⟩
  | cons s ss ih =>
    cases s.reads input with
    | short _ hread =>
      rw [readAll, Reader.read_bind_error hread] at h
      simp at h
    | item i mid _ hshape hwritten hread =>
      rw [readAll_cons_ok hread] at h
      rcases htail : (readAll ss).read mid with ⟨t | vs, left⟩
      · rw [Reader.read_map_error htail] at h
        simp at h
      · rw [Reader.read_map_ok htail] at h
        obtain ⟨rfl, rfl⟩ : i :: vs = items ∧ left = rest := by simpa using h
        obtain ⟨hshapes, hbytes⟩ := ih htail
        refine ⟨by rw [List.map_cons, hshape, hshapes], ?_⟩
        rw [encodeAll, List.flatMap_cons, List.append_assoc, ← hwritten, ← hbytes]
        rfl

/-! ### The round trip -/

/-- **Messages are read back as they were written.** Written after others, an item adds its size.
Numbers, descriptors and at most one handshake at the end, with whatever else may follow if there
is none, are read back from one cursor, which then stands before what follows. Conversely, what a
successful reading took is what the items look like when they are written again. And reading one
item fails exactly where fewer bytes are left than its type is wide; it then says how wide that is
and how many are left, and takes none. -/
theorem readAll_encodeAll :
    (∀ (written : List Item) (i : Item),
      encodeAll (written ++ [i]) = encodeAll written ++ i.encode ∧ i.encode.length = i.size) ∧
    (∀ (fields : List Item) (last : Option Handshake) (rest : Bytes),
      (∀ i ∈ fields, i.shape ≠ .handshake) → (last.isSome → rest = []) →
        let items := fields ++ last.toList.map .handshake
        (readAll (items.map Item.shape)).read (encodeAll items ++ rest) = (.ok items, rest)) ∧
    (∀ (shapes : List Shape) (input rest : Bytes) (items : List Item),
      (readAll shapes).read input = (.ok items, rest) →
        items.map Item.shape = shapes ∧ encodeAll items ++ rest = input) ∧
    [Shape.u16, .u32, .u64, .remote, .handshake].map Shape.width = [2, 4, 8, 16, 10] ∧
    ∀ (s : Shape) (input : Bytes),
      ((∃ t, (s.reader.read input).1 = .error t) ↔ input.length < s.width) ∧
      ∀ t, (s.reader.read input).1 = .error t →
        t = ⟨s.width, input.length⟩ ∧ (s.reader.read input).2 = input := by
  refine ⟨fun written i => ⟨?_, i.length_encode⟩, fun fields last rest hfields hlast => ?_,
    fun _ _ _ _ => encodeAll_of_readAll, rfl, fun s input => ?_⟩
  · rw [encodeAll, List.flatMap_append, List.flatMap_singleton]
    rfl
  · refine readAll_append hfields ?_
    cases last with
    | none => rfl
    | some h =>
      have hread := Item.read_encode (.handshake h) rest fun _ => hlast rfl
      rw [Option.toList_some, List.map_singleton, List.map_singleton, encodeAll,
        List.flatMap_singleton]
      exact (readAll_cons_ok hread).trans (Reader.read_map_ok (Reader.read_pure [] rest))
  · cases s.reads input with
    | item i rest hroom _ _ hread =>
      rw [hread]
      exact ⟨⟨nofun, fun h => absurd h (by omega)⟩, nofun⟩
    | short hroom hread =>
      rw [hread]
      refine ⟨⟨fun _ => hroom, fun _ => ⟨_, rfl⟩⟩, fun t ht => ?_⟩
      cases ht
      exact ⟨rfl, rfl⟩

/-- A port, a descriptor and a handshake with a word of user data, as bytes and back; and a
descriptor of which one byte is missing. -/
theorem readAll_encodeAll_mixed :
    let items : List Item :=
      [.u16 515, .remote ⟨⟨4096, 64⟩, 9⟩, .handshake ⟨⟨1, 2, 3⟩, [104, 105]⟩]
    let bytes : Bytes := [2, 3, 0, 0, 0, 0, 0, 0, 16, 0, 0, 0, 0, 64, 0, 0, 0, 9, 0, 1, 0, 0, 0, 2,
      0, 0, 0, 3, 104, 105]
    encodeAll items = bytes ∧
    (readAll [.u16, .remote, .handshake]).read bytes = (.ok items, []) ∧
    (Shape.remote.reader.read (bytes.take 15)).2 = bytes.take 15 :=
  ⟨by decide,
    readAll_encodeAll.2.1 [.u16 515, .remote ⟨⟨4096, 64⟩, 9⟩] (some ⟨⟨1, 2, 3⟩, [104, 105]⟩) []
      (by decide) fun _ => rfl,
    ((readAll_encodeAll.2.2.2.2 .remote _).2 ⟨16, 15⟩ (by rfl)).2⟩

end Wire

end Verbs
