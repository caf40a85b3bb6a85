import Mathlib.Tactic
import Verbs.Proofs.Setup.Turns
import Verbs.Proofs.Wire.Roundtrip
import Verbs.Setup.Scripted

/-!
Attempts over scripted streams. A script never makes an attempt wait, and every read and write moves
bytes, so an attempt comes to its end. What it has made, connected, read and written by then follows
from the one thing that each of its steps does; where it fails, what it made is taken away again.
-/

namespace Verbs

namespace Script

variable {s s' : Script} {data bs : Bytes} {n : Nat}

def unread (s : Script) : Bytes := s.chunks.flatten

lemma readChunks_nil {chunks rest : List Bytes} (hn : 0 < n)
    (h : readChunks chunks n = ([], rest)) : chunks.flatten = [] ∧ rest.flatten = [] := by
  induction chunks with
  | nil =>
    cases h
    exact ⟨rfl, rfl⟩
  | cons c chunks ih =>
    cases c with
    | nil => exact ih h
    | cons b bs =>
      obtain ⟨m, rfl⟩ := Nat.exists_eq_add_one_of_ne_zero hn.ne'
      simp [readChunks] at h

lemma readChunks_append (chunks : List Bytes) (n : Nat) :
    (readChunks chunks n).1 ++ (readChunks chunks n).2.flatten = chunks.flatten ∧
      (readChunks chunks n).1.length ≤ n := by
  induction chunks with
  | nil => exact ⟨rfl, Nat.zero_le _⟩
  | cons c chunks ih =>
    cases c with
    | nil => exact ih
    | cons b bs =>
      simp only [readChunks, List.flatten_cons, ← List.append_assoc, List.take_append_drop]
      exact ⟨trivial, List.length_take_le _ _⟩

/-- What a read comes to: some bytes, or the end, which may be an error. Nothing is written. -/
inductive Reads (s : Script) (n : Nat) : Except IoError Bytes → Script → Prop where
  | some {bs : Bytes} {s' : Script} (some : bs ≠ []) (room : bs.length ≤ n)
      (split : s.unread = bs ++ s'.unread) (readError : s'.readError = s.readError)
      (written : s'.written = s.written) (isShutdown : s'.isShutdown = s.isShutdown) :
      Reads s n (.ok bs) s'
  | ended {s' : Script} (empty : s.unread = []) (left : s'.unread = [])
      (readError : s.readError = none) (written : s'.written = s.written)
      (isShutdown : s'.isShutdown = s.isShutdown) : Reads s n (.ok []) s'
  | failed {e : IoError} {s' : Script} (empty : s.unread = []) (left : s'.unread = [])
      (readError : s.readError = some e) (written : s'.written = s.written)
      (isShutdown : s'.isShutdown = s.isShutdown) : Reads s n (.error e) s'

lemma reads (s : Script) (hn : 0 < n) : Reads s n (s.read n).1 (s.read n).2 := by
  obtain ⟨hsplit, hroom⟩ := readChunks_append s.chunks n
  rcases hread : readChunks s.chunks n with ⟨bs, chunks⟩
  rw [hread] at hsplit hroom
  cases bs with
  | nil =>
    obtain ⟨hempty, hleft⟩ := readChunks_nil hn hread
    rcases herror : s.readError with - | e
    · simp only [read, hread, herror]
      exact .ended hempty hleft herror rfl rfl
    · simp only [read, hread, herror]
      exact .failed hempty hleft herror rfl rfl
  | cons b bs =>
    simp only [read, hread]
    exact .some (List.cons_ne_nil b bs) hroom hsplit.symm rfl rfl rfl

lemma read_counted (s : Script) (n : Nat) :
    (s.read n).2.consumed + (s.read n).2.unread.length = s.consumed + s.unread.length := by
  have hsplit := (readChunks_append s.chunks n).1
  rcases hread : readChunks s.chunks n with ⟨_ | ⟨b, bs⟩, chunks⟩
  · rw [hread, List.nil_append] at hsplit
    rcases herror : s.readError with - | e <;> simp only [read, hread, herror, unread, hsplit]
  · rw [hread] at hsplit
    simp only [read, hread, unread, ← hsplit, List.length_append]
    omega

inductive Writes (s : Script) (data : Bytes) : Except IoError Nat → Script → Prop where
  | wrote {n : Nat} {s' : Script} (written : s'.written = s.written ++ data.take n)
      (chunks : s'.chunks = s.chunks) (readError : s'.readError = s.readError) :
      Writes s data (.ok n) s'
  | failed {e : IoError} : Writes s data (.error e) s

lemma writes (s : Script) (data : Bytes) : Writes s data (s.write data).1 (s.write data).2 := by
  unfold write
  split
  · exact .failed
  · exact .wrote rfl rfl rfl

end Script

namespace Setup

/-- What the message on a script means: the handshake that it spells, as far as it is read, unless
the script ends with an error before. -/
def heard (maxUserData : UInt64) (s : Script) : Except HandshakeError Handshake :=
  if readLimit maxUserData ≤ s.unread.length then
    conclude maxUserData (s.unread.take (readLimit maxUserData))
  else
    match s.readError with
    | some e => .error (.io e)
    | none => conclude maxUserData s.unread

lemma encode_of_decode {input : Bytes} {h : Handshake}
    (hdecode : Handshake.decode input = .ok h) : input = h.encode := by
  rcases Nat.lt_or_ge input.length Handshake.headerSize with hshort | hroom
  · cases (Handshake.decode_short hshort).symm.trans hdecode
  · obtain ⟨_ | _ | _ | _ | h', rest, hshape, hlast, rfl⟩ := Wire.Shape.split .handshake hroom <;>
      cases hshape
    rw [hlast rfl, List.append_nil] at hdecode ⊢
    cases h'.decode_encode.symm.trans hdecode
    rfl

lemma conclude_ok_iff {maxUserData : UInt64} {got : Bytes} {h : Handshake} :
    conclude maxUserData got = .ok h ↔ got = h.encode ∧ got.length ≤ messageLimit maxUserData := by
  constructor
  · intro hmeans
    unfold conclude at hmeans
    split at hmeans
    · cases hmeans
    · rename_i hlength
      split at hmeans
      · rename_i hdecode
        cases hmeans
        exact ⟨encode_of_decode hdecode, Nat.le_of_not_lt hlength⟩
      · cases hmeans
  · rintro ⟨rfl, hlength⟩
    rw [conclude, if_neg (Nat.not_lt.mpr hlength), h.decode_encode]

end Setup

/-- A script spells a handshake: what can be read of it, up to the limit, is the message of the
handshake, whole and not too long, and no error comes before the end of it. -/
structure Script.Spells (s : Script) (maxUserData : UInt64) (peer : Handshake) : Prop where
  message : s.unread.take (Setup.readLimit maxUserData) = peer.encode
  fits : peer.encode.length ≤ Setup.messageLimit maxUserData
  whole : s.unread.length < Setup.readLimit maxUserData → s.readError = none

namespace Setup

variable {p : Party} {s s' s'' : Script} {peer : Handshake} {got rest : Bytes}

lemma heard_ok_iff {maxUserData : UInt64} :
    heard maxUserData s = .ok peer ↔ s.Spells maxUserData peer := by
  unfold heard
  split
  · rename_i hroom
    refine conclude_ok_iff.trans ⟨fun ⟨hmessage, hfits⟩ => ?_, fun h => ⟨h.message, ?_⟩⟩
    · exact ⟨hmessage, hmessage ▸ hfits, fun hshort => absurd hroom (Nat.not_le.mpr hshort)⟩
    · rw [h.message]
      exact h.fits
  · rename_i hshort
    have htake : s.unread.take (readLimit maxUserData) = s.unread :=
      List.take_of_length_le (Nat.le_of_not_le hshort)
    rcases herror : s.readError with - | e
    · refine conclude_ok_iff.trans ⟨fun ⟨hmessage, hfits⟩ => ?_, fun h => ?_⟩
      · exact ⟨htake.trans hmessage, hmessage ▸ hfits, fun _ => herror⟩
      · have hmessage := htake.symm.trans h.message
        exact ⟨hmessage, hmessage ▸ h.fits⟩
    · refine ⟨fun h => (nomatch h), fun h => ?_⟩
      rw [h.whole (Nat.lt_of_not_le hshort)] at herror
      cases herror

/-! ### One read or write -/

lemma receive_heard (hunread : got ++ s'.unread = s.unread) (herror : s'.readError = s.readError)
    (hlimit : got.length ≤ readLimit p.maxUserData) :
    ∃ g s'', receive Script.stream p.maxUserData got s' = some (g, s'') ∧
      s''.written = s'.written ∧ s''.isShutdown = s'.isShutdown ∧
      ((g = .result (heard p.maxUserData s) ∧
          s''.unread = s.unread.drop (readLimit p.maxUserData)) ∨
        ∃ bs, bs ≠ [] ∧ g = .on (got ++ bs) ∧ (got ++ bs).length ≤ readLimit p.maxUserData ∧
          s'.unread = bs ++ s''.unread ∧ s''.readError = s.readError) := by
  rcases Nat.lt_or_ge got.length (readLimit p.maxUserData) with hroom | hfull
  · have hreads := s'.reads (Nat.sub_pos_of_lt hroom)
    rcases hread : s'.read (readLimit p.maxUserData - got.length) with ⟨result, s''⟩
    rw [hread] at hreads
    have hstream : Script.stream.read s' (readLimit p.maxUserData - got.length) =
        some (result, s'') := congrArg some hread
    simp only [receive, if_neg (Nat.not_le.mpr hroom), hstream]
    cases hreads with
    | @some bs _ hsome hbs hsplit hsame hwritten hshut =>
      obtain ⟨b, bs, rfl⟩ := List.exists_cons_of_ne_nil hsome
      refine ⟨_, s'', rfl, hwritten, hshut, Or.inr ⟨_, hsome, rfl, ?_, hsplit,
        hsame.trans herror⟩⟩
      rw [List.length_append]
      omega
    | ended hempty hleft hnone hwritten hshut =>
      have hwhole : s.unread = got := by rw [← hunread, hempty, List.append_nil]
      refine ⟨_, s'', rfl, hwritten, hshut, Or.inl ⟨?_, ?_⟩⟩
      · rw [heard, hwhole, if_neg (Nat.not_le.mpr hroom), ← herror, hnone]
      · rw [hleft, hwhole, List.drop_eq_nil_of_le hroom.le]
    | @failed e _ hempty hleft hsome hwritten hshut =>
      have hwhole : s.unread = got := by rw [← hunread, hempty, List.append_nil]
      refine ⟨_, s'', rfl, hwritten, hshut, Or.inl ⟨?_, ?_⟩⟩
      · rw [heard, hwhole, if_neg (Nat.not_le.mpr hroom), ← herror, hsome]
      · rw [hleft, hwhole, List.drop_eq_nil_of_le hroom.le]
  · have hlength : got.length = readLimit p.maxUserData := Nat.le_antisymm hlimit hfull
    refine ⟨_, s', by rw [receive, if_pos hfull], rfl, rfl, Or.inl ⟨?_, ?_⟩⟩
    · have htake : s.unread.take (readLimit p.maxUserData) = got := by
        rw [← hunread, ← hlength, List.take_left]
      have hle : readLimit p.maxUserData ≤ s.unread.length := by
        rw [← hunread, List.length_append]
        omega
      rw [heard, if_pos hle, htake]
    · rw [← hunread, ← hlength, List.drop_left]

inductive Writing (rest : Bytes) (s : Script) :
    Going Bytes (Except HandshakeError Unit) → Script → Prop where
  | ended {s' : Script} (whole : rest = []) (written : s'.written = s.written)
      (unread : s'.unread = s.unread) (readError : s'.readError = s.readError)
      (isShutdown : s'.isShutdown = true) : Writing rest s (.result (.ok ())) s'
  | failed {e : HandshakeError} {s' : Script} : Writing rest s (.result (.error e)) s'
  | wrote {left : Bytes} {s' : Script} (shorter : left.length < rest.length)
      (written : s'.written ++ left = s.written ++ rest) (unread : s'.unread = s.unread)
      (readError : s'.readError = s.readError) : Writing rest s (.on left) s'

lemma send_writing (rest : Bytes) (s : Script) :
    ∃ g s', send Script.stream rest s = some (g, s') ∧ Writing rest s g s' := by
  cases rest with
  | nil =>
    rcases hshut : s.shutdownError with - | e
    · exact ⟨.result (.ok ()), { s with isShutdown := true }, by
        simp [send, Script.stream, Script.shutdown, hshut], .ended rfl rfl rfl rfl rfl⟩
    · exact ⟨.result (.error (.io e)), s, by
        simp [send, Script.stream, Script.shutdown, hshut], .failed⟩
  | cons b bs =>
    have hwrites := s.writes (b :: bs)
    rcases hwrite : s.write (b :: bs) with ⟨result, s'⟩
    rw [hwrite] at hwrites
    have hstream : Script.stream.write s (b :: bs) = some (result, s') := congrArg some hwrite
    simp only [send, hstream]
    cases hwrites with
    | @wrote n _ hwritten hchunks herror =>
      cases n with
      | zero => exact ⟨_, _, rfl, .failed⟩
      | succ n =>
        refine ⟨_, _, rfl, .wrote ?_ ?_ (congrArg List.flatten hchunks) herror⟩
        · rw [List.length_drop, List.length_cons]
          omega
        · rw [hwritten, List.append_assoc, List.take_append_drop]
    | failed => exact ⟨_, _, rfl, .failed⟩

/-! ### Steps of an attempt -/

end Setup

namespace Host

variable {ω ρ : Type}

/-- Connecting a queue pair leaves it where it is reached. -/
def Steady (host : Host ω ρ) : Prop :=
  ∀ w w' qp peer, host.connect w qp peer = .ok w' → host.endpoint w' qp = host.endpoint w qp

/-- The world after a queue pair was made, if it was, and taken away again. -/
inductive Undone (host : Host ω ρ) (w : ω) : ω → Prop where
  | unmade : Undone host w w
  | made {w' : ω} {qp : ρ} (made : host.create w = .ok (qp, w')) :
      Undone host w (host.discard w' qp)
  | bound {w' w'' : ω} {qp : ρ} {peer : Endpoint} (made : host.create w = .ok (qp, w'))
      (bound : host.connect w' qp peer = .ok w'') : Undone host w (host.discard w'' qp)

end Host

namespace Setup

variable {ω ρ : Type} {host : Host ω ρ} {p : Party} {start phase phase' : Phase ρ} {w w' w'' : ω}
  {s s' s'' : Script}

/-- How far an attempt has come that began in a world `w` with a script `s`. The handshake of the
other side is what the script spells, and what is written, with what is left to write, is the own
one. -/
inductive Progress (host : Host ω ρ) (p : Party) (start : Phase ρ) (w : ω) (s : Script) :
    Phase ρ → ω → Script → Prop where
  | opening (connector : start = .connector) : Progress host p start w s .opening w s
  | asking {qp : ρ} {rest : Bytes} {w' : ω} {s' : Script} (connector : start = .connector)
      (made : host.create w = .ok (qp, w')) (unread : s'.unread = s.unread)
      (readError : s'.readError = s.readError)
      (written : s'.written ++ rest = s.written ++ announce host p w' qp) :
      Progress host p start w s (.sending qp none rest) w' s'
  | hearing {qp : ρ} {got : Bytes} {w' : ω} {s' : Script} (connector : start = .connector)
      (made : host.create w = .ok (qp, w')) (unread : got ++ s'.unread = s.unread)
      (readError : s'.readError = s.readError) (limit : got.length ≤ readLimit p.maxUserData)
      (written : s'.written = s.written ++ announce host p w' qp)
      (isShutdown : s'.isShutdown = true) :
      Progress host p start w s (.receiving (some qp) got) w' s'
  | listening {got : Bytes} {s' : Script} (acceptor : start = .acceptor)
      (unread : got ++ s'.unread = s.unread) (readError : s'.readError = s.readError)
      (limit : got.length ≤ readLimit p.maxUserData) (written : s'.written = s.written)
      (isShutdown : s'.isShutdown = s.isShutdown) :
      Progress host p start w s (.receiving none got) w s'
  | answering {qp : ρ} {peer : Handshake} {rest : Bytes} {w' w'' : ω} {s' : Script}
      (made : host.create w = .ok (qp, w')) (bound : host.connect w' qp peer.endpoint = .ok w'')
      (heard : heard p.maxUserData s = .ok peer)
      (written : s'.written ++ rest = s.written ++ announce host p w'' qp) :
      Progress host p start w s (.sending qp (some peer) rest) w'' s'
  | ready {qp : ρ} {peer : Handshake} {w' w'' : ω} {s' : Script}
      (made : host.create w = .ok (qp, w')) (bound : host.connect w' qp peer.endpoint = .ok w'')
      (heard : heard p.maxUserData s = .ok peer)
      (written : s'.written = s.written ++ announce host p w'' qp)
      (isShutdown : s'.isShutdown = true) :
      Progress host p start w s (.done (.ok (qp, peer))) w'' s'
  | failed {e : HandshakeError} {w' : ω} {s' : Script} (undone : host.Undone w w')
      (silent : start = .acceptor → (∀ peer, heard p.maxUserData s ≠ .ok peer) →
        w' = w ∧ s'.written = s.written ∧ s'.isShutdown = s.isShutdown) :
      Progress host p start w s (.done (.error e)) w' s'

/-- A bound on the steps that are left: each of them moves a byte, or begins, ends or turns the
attempt around. -/
def stepsLeft (p : Party) : Phase ρ → Script → Nat
  | .opening, s => Handshake.headerSize + p.userData.length + s.unread.length + 3
  | .sending _ none rest, s => rest.length + s.unread.length + 2
  | .sending _ (some _) rest, _ => rest.length + 1
  | .receiving (some _) _, s => s.unread.length + 1
  | .receiving none _, s => s.unread.length + Handshake.headerSize + p.userData.length + 2
  | .done _, _ => 0

namespace Progress

lemma silent_connector (h : start = .connector) {P : Prop} (hstart : start = .acceptor) : P := by
  rw [h] at hstart
  cases hstart

lemma received_connector {qp : ρ} {peer : Handshake} (hsteady : host.Steady)
    (connector : start = .connector) (made : host.create w = .ok (qp, w'))
    (hheard : heard p.maxUserData s = .ok peer)
    (written : s'.written = s.written ++ announce host p w' qp)
    (isShutdown : s'.isShutdown = true) :
    Progress host p start w s (received host p w' peer (some qp)).1
        (received host p w' peer (some qp)).2 s' ∧
      stepsLeft p (received host p w' peer (some qp)).1 s' = 0 := by
  rcases hbound : host.connect w' qp peer.endpoint with e | w''
  · simp only [received, hbound]
    exact ⟨.failed (.made made) (silent_connector connector), rfl⟩
  · simp only [received, hbound]
    refine ⟨.ready made hbound hheard ?_ isShutdown, rfl⟩
    rw [written, announce, announce, hsteady _ _ _ _ hbound]

lemma received_acceptor (host : Host ω ρ) (start : Phase ρ) (w : ω) {peer : Handshake}
    (hheard : heard p.maxUserData s = .ok peer) (written : s'.written = s.written) :
    Progress host p start w s (received host p w peer none).1 (received host p w peer none).2 s' ∧
      stepsLeft p (received host p w peer none).1 s' ≤
        Handshake.headerSize + p.userData.length + 1 := by
  have hnot : ¬ ∀ peer, heard p.maxUserData s ≠ .ok peer := fun h => h peer hheard
  rcases hmade : host.create w with e | ⟨qp, w'⟩
  · simp only [received, hmade]
    exact ⟨.failed .unmade fun _ h => absurd h hnot, Nat.zero_le _⟩
  · rcases hbound : host.connect w' qp peer.endpoint with e | w''
    · simp only [received, hmade, hbound]
      exact ⟨.failed (.made hmade) fun _ h => absurd h hnot, Nat.zero_le _⟩
    · simp only [received, hmade, hbound]
      exact ⟨.answering hmade hbound hheard (by rw [written]),
        (congrArg (· + 1) (length_announce host p w'' qp)).le⟩

/-- An attempt that is not over goes on, and comes closer to its end. -/
lemma step (hsteady : host.Steady) (h : Progress host p start w s phase w' s') :
    (∃ r, phase = .done r) ∨
      ∃ phase' w'' s'', step host Script.stream p phase w' s' = some (phase', w'', s'') ∧
        Progress host p start w s phase' w'' s'' ∧
        stepsLeft p phase' s'' < stepsLeft p phase s' := by
  cases h with
  | opening connector =>
    right
    rcases hmade : host.create w with e | ⟨qp, w'⟩
    · exact ⟨_, _, _, by rw [Setup.step, hmade],
        .failed .unmade (silent_connector connector), Nat.succ_pos _⟩
    · refine ⟨_, _, _, by rw [Setup.step, hmade], .asking connector hmade rfl rfl rfl, ?_⟩
      simp only [stepsLeft, length_announce]
      omega
  | @asking qp rest _ _ connector made unread readError written =>
    right
    obtain ⟨g, s₁, hsend, hwriting⟩ := send_writing rest s'
    cases hwriting with
    | ended whole hwritten hunread herror hshut =>
      refine ⟨_, _, _, by rw [Setup.step, hsend],
        .hearing connector made ?_ (herror.trans readError) (Nat.zero_le _) ?_ hshut, ?_⟩
      · rw [List.nil_append, hunread, unread]
      · rw [hwritten, ← written, whole, List.append_nil]
      · simp only [stepsLeft, hunread]
        omega
    | failed =>
      exact ⟨_, _, _, by rw [Setup.step, hsend],
        .failed (.made made) (silent_connector connector), Nat.succ_pos _⟩
    | wrote shorter hwritten hunread herror =>
      refine ⟨_, _, _, by rw [Setup.step, hsend],
        .asking connector made (hunread.trans unread) (herror.trans readError)
          (hwritten.trans written), ?_⟩
      simp only [stepsLeft, hunread]
      omega
  | @hearing qp got _ _ connector made unread readError limit written isShutdown =>
    -- a read brings some bytes, or the message is complete and means what `heard` says
    right
    obtain ⟨g, s₁, hreceive, hwritten, hshut, ⟨rfl, -⟩ |
      ⟨bs, hsome, rfl, hlimit, hsplit, herror⟩⟩ :=
      receive_heard unread readError limit
    · rcases hheard : heard p.maxUserData s with e | peer
      · rw [hheard] at hreceive
        exact ⟨_, _, _, by rw [Setup.step, hreceive],
          .failed (.made made) (silent_connector connector), Nat.succ_pos _⟩
      · rw [hheard] at hreceive
        obtain ⟨hprogress, hleft⟩ := received_connector hsteady connector made hheard
          (hwritten.trans written) (hshut.trans isShutdown)
        exact ⟨_, _, _, by rw [Setup.step, hreceive], hprogress,
          hleft.trans_lt (Nat.succ_pos _)⟩
    · refine ⟨_, _, _, by rw [Setup.step, hreceive],
        .hearing connector made ?_ herror hlimit (hwritten.trans written)
          (hshut.trans isShutdown), ?_⟩
      · rw [List.append_assoc, ← hsplit, unread]
      · have hpos := List.length_pos_iff.mpr hsome
        simp only [stepsLeft, hsplit, List.length_append]
        omega
  | @listening got _ acceptor unread readError limit written isShutdown =>
    right
    obtain ⟨g, s₁, hreceive, hwritten, hshut, ⟨rfl, -⟩ |
      ⟨bs, hsome, rfl, hlimit, hsplit, herror⟩⟩ :=
      receive_heard unread readError limit
    · rcases hheard : heard p.maxUserData s with e | peer
      · rw [hheard] at hreceive
        exact ⟨_, _, _, by rw [Setup.step, hreceive], .failed .unmade fun _ _ =>
          ⟨rfl, hwritten.trans written, hshut.trans isShutdown⟩, Nat.succ_pos _⟩
      · rw [hheard] at hreceive
        obtain ⟨hprogress, hleft⟩ :=
          received_acceptor host start w hheard (hwritten.trans written)
        refine ⟨_, _, _, by rw [Setup.step, hreceive], hprogress, hleft.trans_lt ?_⟩
        simp only [stepsLeft]
        omega
    · refine ⟨_, _, _, by rw [Setup.step, hreceive],
        .listening acceptor ?_ herror hlimit (hwritten.trans written)
          (hshut.trans isShutdown), ?_⟩
      · rw [List.append_assoc, ← hsplit, unread]
      · have hpos := List.length_pos_iff.mpr hsome
        simp only [stepsLeft, hsplit, List.length_append]
        omega
  | @answering qp peer rest w₁ _ _ made bound hheard written =>
    right
    have hnot : ¬ ∀ peer, heard p.maxUserData s ≠ .ok peer := fun h => h peer hheard
    obtain ⟨g, s₁, hsend, hwriting⟩ := send_writing rest s'
    cases hwriting with
    | ended whole hwritten hunread herror hshut =>
      refine ⟨_, _, _, by rw [Setup.step, hsend], .ready made bound hheard ?_ hshut,
        Nat.succ_pos _⟩
      rw [hwritten, ← written, whole, List.append_nil]
    | failed =>
      exact ⟨_, _, _, by rw [Setup.step, hsend],
        .failed (.bound made bound) fun _ h => absurd h hnot, Nat.succ_pos _⟩
    | wrote shorter hwritten =>
      refine ⟨_, _, _, by rw [Setup.step, hsend],
        .answering made bound hheard (hwritten.trans written), ?_⟩
      simp only [stepsLeft]
      omega
  | ready | failed => exact Or.inl ⟨_, rfl⟩

lemma run (hsteady : host.Steady) {fuel : Nat} (h : Progress host p start w s phase w' s')
    (hfuel : stepsLeft p phase s' ≤ fuel) :
    ∃ r w'' s'', run host Script.stream p fuel phase w' s' = (.done r, w'', s'') ∧
      Progress host p start w s (.done r) w'' s'' := by
  induction fuel generalizing phase w' s' with
  | zero =>
    rcases h.step hsteady with ⟨r, rfl⟩ | ⟨_, _, _, -, -, hlt⟩
    · exact ⟨r, w', s', rfl, h⟩
    · omega
  | succ fuel ih =>
    rcases h.step hsteady with ⟨r, rfl⟩ | ⟨phase', w'', s'', hstep, hprogress, hlt⟩
    · exact ⟨r, w', s', rfl, h⟩
    · obtain ⟨r, w₁, s₁, hrun, hdone⟩ := ih hprogress (by omega)
      exact ⟨r, w₁, s₁, by simp only [Setup.run, hstep, hrun], hdone⟩

end Progress

lemma length_unread_le (s : Script) : s.unread.length + 1 ≤ s.length := by
  have hlength : s.length = s.chunks.length + (s.chunks.map List.length).sum + 1 := rfl
  rw [Script.unread, List.length_flatten, hlength]
  omega

lemma run_script (hsteady : host.Steady) (hstart : start = .acceptor ∨ start = .connector)
    (p : Party) (w : ω) (s : Script) :
    ∃ r w' s', Setup.run host Script.stream p (scriptBound p s) start w s = (.done r, w', s') ∧
      Progress host p start w s (.done r) w' s' := by
  have hunread := length_unread_le s
  rcases hstart with rfl | rfl
  · refine Progress.run hsteady (.listening rfl rfl rfl (Nat.zero_le _) rfl rfl) ?_
    simp only [Phase.acceptor, stepsLeft, scriptBound]
    omega
  · refine Progress.run hsteady (.opening rfl) ?_
    simp only [Phase.connector, stepsLeft, scriptBound]
    omega

end Setup

end Verbs
