/-!
Byte strings, and whole numbers as byte strings of a fixed width. Numbers travel with the most
significant byte first; a word of memory is read and written with the least significant byte
first.
-/

namespace Verbs

abbrev Bytes := List UInt8

namespace Bytes

/-- The number that some bytes spell, most significant byte first. -/
def toNatBE (bs : Bytes) : Nat := bs.foldl (fun n b => 256 * n + b.toNat) 0

/-- The lowest `width` bytes of a number, most significant byte first. -/
def ofNatBE : (width : Nat) → Nat → Bytes
  | 0, _ => []
  | w + 1, n => UInt8.ofNat (n / Nat.pow 256 w) :: ofNatBE w n

def toNatLE : Bytes → Nat
  | [] => 0
  | b :: bs => b.toNat + 256 * toNatLE bs

/-- The lowest `width` bytes of a number, least significant byte first. -/
def ofNatLE : (width : Nat) → Nat → Bytes
  | 0, _ => []
  | w + 1, n => UInt8.ofNat n :: ofNatLE w (n / 256)

@[simp] theorem length_ofNatBE (w n : Nat) : (ofNatBE w n).length = w := by
  induction w with
  | zero => rfl
  | succ w ih => simp [ofNatBE, ih]

@[simp] theorem length_ofNatLE (w n : Nat) : (ofNatLE w n).length = w := by
  induction w generalizing n with
  | zero => rfl
  | succ w ih => simp [ofNatLE, ih]

/-- The `len` bytes that start at `off`. -/
def window (bs : Bytes) (off len : Nat) : Bytes := (bs.drop off).take len

/-- The bytes with `data` written over those that start at `off`. -/
def overwrite (bs : Bytes) (off : Nat) (data : Bytes) : Bytes :=
  bs.take off ++ data ++ bs.drop (off + data.length)

theorem length_overwrite {bs data : Bytes} {off : Nat} (h : off + data.length ≤ bs.length) :
    (bs.overwrite off data).length = bs.length := by
  simp only [overwrite, List.length_append, List.length_take, List.length_drop]
  omega

end Bytes

end Verbs
