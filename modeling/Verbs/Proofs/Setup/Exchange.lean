import Mathlib.Tactic
import Verbs.Proofs.Wire
import Verbs.Setup.Pairing

/-!
Messages over a connection in memory. A read or a write may move any number of bytes that are there
and that fit; what one of them comes to, and what a message means once it is read, whole or in part.
-/

namespace Verbs

/-- Ends of connections that move at most `k + 1` bytes at a time. -/
def PipeEnd.upTo (k : Nat) : Stream PipeEnd where
  read e n := PipeEnd.stream.read e (min n (k + 1))
  write e data := PipeEnd.stream.write e (data.take (k + 1))
  shutdown := PipeEnd.stream.shutdown

lemma Pipe.read_min (p : Pipe) (n : Nat) : p.read (min n (p.content.length + 1)) = p.read n := by
  rcases Nat.le_total n (p.content.length + 1) with hle | hle
  · rw [Nat.min_eq_left hle]
  · rw [Nat.min_eq_right hle, Pipe.read, Pipe.read, List.take_of_length_le (Nat.le_succ _),
      List.take_of_length_le (by omega), List.drop_of_length_le (Nat.le_succ _),
      List.drop_of_length_le (by omega)]

namespace Setup

variable {maxUserData : UInt64} {got rest : Bytes} {e e' : PipeEnd} {k : Nat} {h : Handshake}

/-! ### Writing -/

inductive Sent (rest : Bytes) (e : PipeEnd) :
    Going Bytes (Except HandshakeError Unit) → PipeEnd → Prop where
  | ended (whole : rest = []) :
      Sent rest e (.result (.ok ())) { e with outgoing := e.outgoing.close }
  | broken (closed : e.outgoing.closed = true) :
      Sent rest e (.result (.error (.io (.kind .brokenPipe none)))) e
  | wrote (sent left : Bytes) (split : rest = sent ++ left) (some : sent ≠ [])
      (isOpen : e.outgoing.closed = false)
      (room : e.outgoing.content.length < e.outgoing.capacity) :
      Sent rest e (.on left) { e with outgoing.content := e.outgoing.content ++ sent }

lemma Sent.moved {left : Bytes} (hs : Sent rest e (.on left) e') (got : Bytes) :
    got ++ e'.outgoing.content ++ left = got ++ e.outgoing.content ++ rest ∧
      e.outgoing.closed = false ∧ e'.outgoing.closed = false ∧ e'.incoming = e.incoming := by
  cases hs with
  | wrote sent _ split some isOpen =>
    exact ⟨by simp only [split, List.append_assoc], isOpen, isOpen, rfl⟩

lemma send_spec {g : Going Bytes (Except HandshakeError Unit)}
    (hs : send (PipeEnd.upTo k) rest e = some (g, e')) : Sent rest e g e' := by
  cases rest with
  | nil =>
    simp only [send, PipeEnd.upTo, PipeEnd.stream] at hs
    cases hs
    exact .ended rfl
  | cons b bs =>
    obtain ⟨incoming, ⟨capacity, content, closed⟩⟩ := e
    cases closed with
    | false =>
      by_cases hfull : capacity ≤ content.length
      · simp [send, PipeEnd.upTo, PipeEnd.stream, Pipe.write, hfull] at hs
      · -- as many bytes are written as fit, at most `k + 1`, and at least one
        obtain ⟨n, hn⟩ : ∃ n, min (min (k + 1) (bs.length + 1)) (capacity - content.length) =
            n + 1 := Nat.exists_eq_add_one_of_ne_zero (by omega)
        have hle : n + 1 ≤ k + 1 := by omega
        simp only [send, PipeEnd.upTo, PipeEnd.stream, Pipe.write, hfull, List.length_take,
          List.length_cons, hn, List.take_take, Nat.min_eq_left hle] at hs
        cases hs
        exact .wrote ((b :: bs).take (n + 1)) ((b :: bs).drop (n + 1))
          (List.take_append_drop _ _).symm (by simp) rfl (Nat.lt_of_not_le hfull)
    | true =>
      simp only [send, PipeEnd.upTo, PipeEnd.stream, Pipe.write] at hs
      cases hs
      exact .broken rfl

lemma send_isSome_iff : (send (PipeEnd.upTo k) rest e).isSome = true ↔
    rest = [] ∨ e.outgoing.closed = true ∨
      e.outgoing.content.length < e.outgoing.capacity := by
  refine ⟨fun hsome => ?_, fun hgo => ?_⟩
  · obtain ⟨⟨g, e'⟩, hsend⟩ := Option.isSome_iff_exists.mp hsome
    cases send_spec hsend with
    | ended whole => exact Or.inl whole
    | broken closed => exact Or.inr (Or.inl closed)
    | wrote _ _ _ _ _ room => exact Or.inr (Or.inr room)
  · cases rest with
    | nil => rfl
    | cons b bs =>
      rcases hclosed : e.outgoing.closed with - | -
      · have hroom : e.outgoing.content.length < e.outgoing.capacity := by
          simpa [hclosed] using hgo
        rcases hsend : send (PipeEnd.upTo k) (b :: bs) e with - | _
        · simp only [send, PipeEnd.upTo, PipeEnd.stream, Pipe.write, hclosed,
            if_neg (Nat.not_le.mpr hroom)] at hsend
          split at hsend <;> simp_all
        · rfl
      · simp [send, PipeEnd.upTo, PipeEnd.stream, Pipe.write, hclosed]

/-! ### Reading -/

inductive Got (maxUserData : UInt64) (got : Bytes) (e : PipeEnd) :
    Going Bytes (Except HandshakeError Handshake) → PipeEnd → Prop where
  | full (r : Except HandshakeError Handshake) (limit : readLimit maxUserData ≤ got.length)
      (means : conclude maxUserData got = r) : Got maxUserData got e (.result r) e
  | ended (r : Except HandshakeError Handshake) (empty : e.incoming.content = [])
      (closed : e.incoming.closed = true) (means : conclude maxUserData got = r) :
      Got maxUserData got e (.result r) e
  | read (bs left : Bytes) (split : e.incoming.content = bs ++ left) (some : bs ≠ []) :
      Got maxUserData got e (.on (got ++ bs)) { e with incoming.content := left }

lemma Got.moved {got' : Bytes} (hg : Got maxUserData got e (.on got') e') :
    got' ++ e'.incoming.content = got ++ e.incoming.content ∧
      e'.incoming.closed = e.incoming.closed ∧ e'.outgoing = e.outgoing := by
  cases hg with
  | read bs left split =>
    exact ⟨by rw [split, List.append_assoc], rfl, rfl⟩

lemma receive_spec {g : Going Bytes (Except HandshakeError Handshake)}
    (hr : receive (PipeEnd.upTo k) maxUserData got e = some (g, e')) :
    Got maxUserData got e g e' := by
  by_cases hlimit : readLimit maxUserData ≤ got.length
  · simp only [receive, if_pos hlimit] at hr
    cases hr
    exact .full _ hlimit rfl
  · rcases hcontent : e.incoming.content with - | ⟨b, bs⟩
    · rcases hclosed : e.incoming.closed with - | -
      · simp [receive, hlimit, PipeEnd.upTo, PipeEnd.stream, Pipe.read, hcontent, hclosed] at hr
      · simp only [receive, if_neg hlimit, PipeEnd.upTo, PipeEnd.stream, Pipe.read, hcontent,
          hclosed] at hr
        cases hr
        exact .ended _ hcontent hclosed rfl
    · obtain ⟨n, hn⟩ : ∃ n, min (readLimit maxUserData - got.length) (k + 1) = n + 1 :=
        Nat.exists_eq_add_one_of_ne_zero (by omega)
      simp only [receive, if_neg hlimit, PipeEnd.upTo, PipeEnd.stream, Pipe.read, hcontent, hn]
        at hr
      cases hr
      exact .read ((b :: bs).take (n + 1)) ((b :: bs).drop (n + 1))
        (hcontent.trans (List.take_append_drop _ _).symm) (by simp)

lemma receive_isSome_iff : (receive (PipeEnd.upTo k) maxUserData got e).isSome = true ↔
    readLimit maxUserData ≤ got.length ∨ e.incoming.content ≠ [] ∨ e.incoming.closed = true := by
  refine ⟨fun hsome => ?_, fun hgo => ?_⟩
  · obtain ⟨⟨g, e'⟩, hreceive⟩ := Option.isSome_iff_exists.mp hsome
    cases receive_spec hreceive with
    | full _ limit => exact Or.inl limit
    | ended _ _ closed => exact Or.inr (Or.inr closed)
    | read bs left split some => exact Or.inr (Or.inl (by simp [split, some]))
  · by_cases hlimit : readLimit maxUserData ≤ got.length
    · simp [receive, hlimit]
    · rcases hcontent : e.incoming.content with - | ⟨b, bs⟩
      · have hclosed : e.incoming.closed = true := by simpa [hlimit, hcontent] using hgo
        simp [receive, hlimit, PipeEnd.upTo, PipeEnd.stream, Pipe.read, hcontent, hclosed]
      · simp only [receive, if_neg hlimit, PipeEnd.upTo, PipeEnd.stream, Pipe.read, hcontent]
        split <;> simp_all

/-! ### Moving as much as possible -/

lemma send_stream (rest : Bytes) (e : PipeEnd) :
    send PipeEnd.stream rest e = send (PipeEnd.upTo rest.length) rest e := by
  cases rest with
  | nil => rfl
  | cons b bs =>
    simp only [send, PipeEnd.upTo]
    rw [List.take_of_length_le (Nat.le_succ _)]

lemma receive_stream (maxUserData : UInt64) (got : Bytes) (e : PipeEnd) :
    receive PipeEnd.stream maxUserData got e =
      receive (PipeEnd.upTo e.incoming.content.length) maxUserData got e := by
  have hread : ∀ n, (PipeEnd.upTo e.incoming.content.length).read e n =
      PipeEnd.stream.read e n := fun n => by
    simp only [PipeEnd.upTo, PipeEnd.stream, Pipe.read_min]
  simp only [receive, hread]

/-! ### What a message means -/

lemma readLimit_pos (maxUserData : UInt64) : 0 < readLimit maxUserData := by
  have hsize : UInt64.size = 2 ^ 64 := rfl
  simp only [readLimit, messageLimit, hsize]
  omega

lemma conclude_fits (small : h.userData.length < 2 ^ 63)
    (fits : h.userData.length ≤ maxUserData.toNat) : conclude maxUserData h.encode = .ok h := by
  have hsize : UInt64.size = 2 ^ 64 := rfl
  have hbelow : ¬ messageLimit maxUserData < h.encode.length := by
    simp only [messageLimit, Handshake.length_encode, Handshake.headerSize, hsize]
    omega
  rw [conclude, if_neg hbelow, Handshake.decode_encode]

lemma conclude_exceeds (small : h.userData.length < 2 ^ 63)
    (exceeds : maxUserData.toNat < h.userData.length) :
    conclude maxUserData h.encode = .error (.userDataTooLarge maxUserData) := by
  have hsize : UInt64.size = 2 ^ 64 := rfl
  have habove : messageLimit maxUserData < h.encode.length := by
    simp only [messageLimit, Handshake.length_encode, Handshake.headerSize, hsize]
    omega
  rw [conclude, if_pos habove]

lemma conclude_full (small : h.userData.length < 2 ^ 63) (part : got ++ rest = h.encode)
    (limit : readLimit maxUserData ≤ got.length) : maxUserData.toNat < h.userData.length ∧
      conclude maxUserData got = .error (.userDataTooLarge maxUserData) := by
  have hsize : UInt64.size = 2 ^ 64 := rfl
  have hlength : got.length + rest.length = Handshake.headerSize + h.userData.length := by
    rw [← List.length_append, part, Handshake.length_encode]
  simp only [readLimit, messageLimit, Handshake.headerSize, hsize] at limit hlength
  have habove : messageLimit maxUserData < got.length := by
    simp only [messageLimit, Handshake.headerSize, hsize]
    omega
  exact ⟨by omega, by rw [conclude, if_pos habove]⟩

lemma Got.meaning {r : Except HandshakeError Handshake}
    (hg : Got maxUserData got e (.result r) e') (small : h.userData.length < 2 ^ 63)
    (message : got ++ e.incoming.content ++ rest = h.encode)
    (whole : e.incoming.closed = true → rest = []) :
    e' = e ∧
      (e.incoming.closed = true ∧ h.userData.length ≤ maxUserData.toNat ∧ r = .ok h ∨
        maxUserData.toNat < h.userData.length ∧
          r = .error (.userDataTooLarge maxUserData)) := by
  cases hg with
  | full _ limit means =>
    obtain ⟨hlt, hconclude⟩ := conclude_full small (List.append_assoc _ _ _ ▸ message) limit
    exact ⟨rfl, Or.inr ⟨hlt, means.symm.trans hconclude⟩⟩
  | ended _ empty closed means =>
    rw [empty, whole closed, List.append_nil, List.append_nil] at message
    rw [message] at means
    refine ⟨rfl, ?_⟩
    rcases Nat.lt_or_ge maxUserData.toNat h.userData.length with hlt | hge
    · exact Or.inr ⟨hlt, means.symm.trans (conclude_exceeds small hlt)⟩
    · exact Or.inl ⟨closed, hge, means.symm.trans (conclude_fits small hge)⟩

lemma Got.nothing {r : Except HandshakeError Handshake} (hg : Got maxUserData [] e (.result r) e') :
    r = .error (.decode ⟨Handshake.headerSize, 0⟩) := by
  have hbelow : ¬ messageLimit maxUserData < ([] : Bytes).length := Nat.not_lt_zero _
  have hshort : ([] : Bytes).length < Handshake.headerSize := Nat.succ_pos 9
  have hconclude : conclude maxUserData [] = .error (.decode ⟨Handshake.headerSize, 0⟩) := by
    rw [conclude, if_neg hbelow, Handshake.decode_short hshort]
    rfl
  cases hg with
  | full _ limit => exact absurd limit (Nat.not_le.mpr (readLimit_pos _))
  | ended _ _ _ means => exact means.symm.trans hconclude

lemma Got.not_on_of_empty {got' : Bytes} (empty : e.incoming.content = []) :
    ¬ Got maxUserData got e (.on got') e' := by
  intro hg
  cases hg with
  | read bs left split some => exact some (List.append_eq_nil_iff.mp (split.symm.trans empty)).1

lemma Got.not_of_fresh {g : Going Bytes (Except HandshakeError Handshake)}
    (empty : e.incoming.content = []) (isOpen : e.incoming.closed = false) :
    ¬ Got maxUserData [] e g e' := by
  cases g with
  | on got' => exact Got.not_on_of_empty empty
  | result r =>
    intro hg
    cases hg with
    | full _ limit => exact absurd limit (Nat.not_le.mpr (readLimit_pos _))
    | ended _ _ closed => cases closed.symm.trans isOpen

end Setup

end Verbs
