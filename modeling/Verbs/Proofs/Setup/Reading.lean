import Mathlib.Tactic
import Verbs.Proofs.Setup.Scripts

/-!
Reading a handshake from a script. However the bytes are cut into chunks, at most one more than the
longest accepted message is read of them, and the result follows from the bytes, from how the script
ends and from the limit.
-/

namespace Verbs

namespace Setup

variable {maxUserData : UInt64} {s s' : Script} {got : Bytes}

/-! ### One read after another -/

lemma receive_counted {g : Going Bytes (Except HandshakeError Handshake)}
    (h : receive Script.stream maxUserData got s = some (g, s')) :
    s'.consumed + s'.unread.length = s.consumed + s.unread.length := by
  unfold receive at h
  split at h
  · cases h
    rfl
  · have hcounted := s.read_counted (readLimit maxUserData - got.length)
    have hstream : Script.stream.read s (readLimit maxUserData - got.length) =
        some (s.read (readLimit maxUserData - got.length)) := rfl
    rw [hstream] at h
    split at h
    · cases h
    all_goals
      rename_i hread
      cases h
      rwa [Option.some.inj hread] at hcounted

/-- Reads that go on as long as there is something to read come to what the message means, with all
of it read up to the limit. -/
lemma receiveAll_heard {fuel : Nat} (hunread : got ++ s'.unread = s.unread)
    (herror : s'.readError = s.readError) (hlimit : got.length ≤ readLimit maxUserData)
    (hcounted : s'.consumed + s'.unread.length = s.consumed + s.unread.length)
    (hfuel : s'.unread.length < fuel) :
    ∃ s'', receiveAll Script.stream maxUserData fuel got s' = (heard maxUserData s, s'') ∧
      s''.unread = s.unread.drop (readLimit maxUserData) ∧
      s''.consumed + s''.unread.length = s.consumed + s.unread.length := by
  induction fuel generalizing got s' with
  | zero => exact absurd hfuel (Nat.not_lt_zero _)
  | succ fuel ih =>
    obtain ⟨g, s₁, hreceive, -, -, ⟨rfl, hleft⟩ | ⟨bs, hsome, rfl, hlimit', hsplit, herror'⟩⟩ :=
      receive_heard (p := { maxUserData }) hunread herror hlimit
    · exact ⟨s₁, by rw [receiveAll, hreceive], hleft, (receive_counted hreceive).trans hcounted⟩
    · have hshorter : s₁.unread.length < fuel := by
        have hpos := List.length_pos_iff.mpr hsome
        rw [hsplit, List.length_append] at hfuel
        omega
      obtain ⟨s'', hrest, hleft, hcounted'⟩ :=
        ih (by rw [List.append_assoc, ← hsplit, hunread]) herror' hlimit'
          ((receive_counted hreceive).trans hcounted) hshorter
      exact ⟨s'', by rw [receiveAll, hreceive]; exact hrest, hleft, hcounted'⟩

lemma readHandshake_heard (maxUserData : UInt64) (s : Script) :
    (s.readHandshake maxUserData).1 = heard maxUserData s ∧
      (s.readHandshake maxUserData).2.consumed =
        s.consumed + min s.unread.length (readLimit maxUserData) := by
  obtain ⟨s', hread, hleft, hcounted⟩ :=
    @receiveAll_heard maxUserData s s [] _ rfl rfl (Nat.zero_le _) rfl (length_unread_le s)
  have hwhole : s.readHandshake maxUserData = (heard maxUserData s, s') := hread
  rw [hleft, List.length_drop] at hcounted
  rw [hwhole]
  refine ⟨rfl, ?_⟩
  dsimp only
  omega

/-! ### What the bytes mean -/

/-- The length of the bytes of a script can be compared with the limits: it is below the largest
number of 64 bits, or the limit is. -/
def Countable (maxUserData : UInt64) (s : Script) : Prop :=
  s.unread.length < UInt64.size - 1 ∨ messageLimit maxUserData < UInt64.size - 1

lemma Countable.within (h : Countable maxUserData s)
    (hfits : s.unread.length ≤ messageLimit maxUserData) :
    s.unread.length < readLimit maxUserData := by
  unfold readLimit
  rcases h with h | h <;> omega

lemma Countable.beyond (h : Countable maxUserData s)
    (hlong : messageLimit maxUserData < s.unread.length) :
    messageLimit maxUserData < readLimit maxUserData ∧
      readLimit maxUserData ≤ s.unread.length := by
  have hlimit : messageLimit maxUserData ≤ UInt64.size - 1 := Nat.min_le_right _ _
  unfold readLimit
  rcases h with h | h <;> omega

lemma heard_long (h : Countable maxUserData s)
    (hlong : messageLimit maxUserData < s.unread.length) :
    heard maxUserData s = .error (.userDataTooLarge maxUserData) := by
  obtain ⟨hmore, hread⟩ := h.beyond hlong
  have hlength : (s.unread.take (readLimit maxUserData)).length = readLimit maxUserData := by
    rw [List.length_take, Nat.min_eq_left hread]
  rw [heard, if_pos hread, conclude, hlength, if_pos hmore]

lemma heard_fits (h : Countable maxUserData s)
    (hfits : s.unread.length ≤ messageLimit maxUserData) :
    heard maxUserData s =
      match s.readError with
      | some e => .error (.io e)
      | none => conclude maxUserData s.unread := by
  have hmissing : ¬ readLimit maxUserData ≤ s.unread.length := Nat.not_le.mpr (h.within hfits)
  cases herror : s.readError with
  | none => simp only [heard, if_neg hmissing, herror]
  | some e => simp only [heard, if_neg hmissing, herror]

lemma conclude_short (hfits : got.length ≤ messageLimit maxUserData)
    (hshort : got.length < Handshake.headerSize) :
    conclude maxUserData got = .error (.decode ⟨Handshake.headerSize, got.length⟩) := by
  rw [conclude, if_neg (Nat.not_lt.mpr hfits), Handshake.decode_short hshort]

lemma conclude_whole (hfits : got.length ≤ messageLimit maxUserData)
    (hroom : Handshake.headerSize ≤ got.length) :
    ∃ h : Handshake, h.encode = got ∧ conclude maxUserData got = .ok h := by
  obtain ⟨_ | _ | _ | _ | h, rest, hshape, hlast, hgot⟩ := Wire.Shape.split .handshake hroom <;>
    cases hshape
  rw [hlast rfl, List.append_nil] at hgot
  exact ⟨h, hgot, conclude_ok_iff.mpr ⟨hgot.symm, hfits⟩⟩

/-- **Reading a handshake depends only on the bytes.** How they are cut into chunks makes no
difference to the result, and exactly the bytes up to one more than the limit are consumed, counted
in 64 bits. A message that is longer than the limit is too long, also where an error would follow;
otherwise an error at the end of the bytes is the result, or what the message lacks of the fixed
fields, or the handshake whose message it is. Only where the limit is the largest number of 64 bits,
so that one more cannot be asked for, must the bytes be fewer than that, as bytes that are stored
somewhere always are. -/
theorem reading_depends_on_bytes (maxUserData : UInt64) (s : Script)
    (hcountable : Countable maxUserData s) :
    (∀ s' : Script, s'.unread = s.unread → s'.readError = s.readError →
      (s'.readHandshake maxUserData).1 = (s.readHandshake maxUserData).1) ∧
    (s.readHandshake maxUserData).2.consumed =
      s.consumed + min s.unread.length (readLimit maxUserData) ∧
    if messageLimit maxUserData < s.unread.length then
      (s.readHandshake maxUserData).1 = .error (.userDataTooLarge maxUserData)
    else
      match s.readError with
      | some e => (s.readHandshake maxUserData).1 = .error (.io e)
      | none =>
        if s.unread.length < Handshake.headerSize then
          (s.readHandshake maxUserData).1 =
            .error (.decode ⟨Handshake.headerSize, s.unread.length⟩)
        else ∃ h : Handshake, h.encode = s.unread ∧ (s.readHandshake maxUserData).1 = .ok h := by
  obtain ⟨hresult, hconsumed⟩ := readHandshake_heard maxUserData s
  refine ⟨fun s' hunread herror => ?_, hconsumed, ?_⟩
  · rw [(readHandshake_heard maxUserData s').1, hresult, heard, heard, hunread, herror]
  · rw [hresult]
    split
    · rename_i hlong
      exact heard_long hcountable hlong
    · rename_i hfits
      rw [Nat.not_lt] at hfits
      rw [heard_fits hcountable hfits]
      split
      · rfl
      · split
        · rename_i hshort
          exact conclude_short hfits hshort
        · rename_i hroom
          exact conclude_whole hfits (Nat.not_lt.mp hroom)

/-- A message of three chunks, one of them empty, that is one byte too long, and an error behind. -/
def tooMuch : Script :=
  { chunks := [[0, 1, 0, 0, 0, 2], [], [0, 0, 0, 3, 8, 9]], readError := some .queueOverrun }

theorem reading_depends_on_bytes_tooMuch :
    Countable 1 tooMuch ∧ messageLimit 1 < tooMuch.unread.length ∧
      (tooMuch.readHandshake 1).1 = .error (.userDataTooLarge 1) ∧
      (tooMuch.readHandshake 1).2.consumed = 12 := by
  have hcountable : Countable 1 tooMuch := Or.inl (by decide)
  have hlong : messageLimit 1 < tooMuch.unread.length := by decide
  obtain ⟨-, hconsumed, hresult⟩ := reading_depends_on_bytes 1 tooMuch hcountable
  rw [if_pos hlong] at hresult
  exact ⟨hcountable, hlong, hresult, hconsumed.trans (by decide)⟩

end Setup

end Verbs
