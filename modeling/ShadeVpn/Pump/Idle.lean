import ShadeVpn.Pump.FrameStream
import ShadeVpn.Pump.Inbound

/-!
# An idle tunnel

The inbound half of the pump on a socket with a read timeout, as `run_connect` of
`native/src/lib.rs` sets it and its clones share it.  The peer keeps the
connection open; every byte comes with the time a read waits for it.

A read that waits too long is an error like any other: `read_frame` passes it on,
and the loop ends.

* `listen_iff_lively` — the loop goes on, and every record that is there is opened
  and delivered, exactly if no wait reaches the timeout.
-/

namespace ShadeVpn.Pump

open Octets Checked Handshake Transport Vless

/-! ## A socket with a read timeout -/

/-- What is set on a socket: the longest a read waits, in milliseconds. -/
structure Socket where
  readTimeout : Option ℕ

/-- `TcpStream::try_clone`: the timeout belongs to the socket that both share. -/
def Socket.tryClone (s : Socket) : Socket := s

/-- The socket that `run_connect` stores. -/
def connectedSocket : Socket := ⟨some 10000⟩

/-- A read that has waited so long for a byte fails. -/
def Socket.expires (s : Socket) (wait : ℕ) : Bool :=
  match s.readTimeout with
  | none => false
  | some t => decide (t ≤ wait)

/-- A byte of the peer, and how long a read waits for it. -/
structure TimedByte where
  wait : ℕ
  byte : UInt8

/-- What the peer has sent, and how long a read has waited for more. -/
structure Line where
  bytes : List TimedByte
  idle : ℕ

/-- How a read ends without its bytes. -/
inductive ReadStop where
  | timedOut
  /-- Not at all yet: it waits. -/
  | blocked
  deriving DecidableEq, Repr

/-- `read_exact` on a connection that stays open. -/
def readExact (socket : Socket) (idle : ℕ) :
    ℕ → List TimedByte → Except ReadStop (Bytes × List TimedByte)
  | 0, bytes => .ok ([], bytes)
  | _ + 1, [] => .error (if socket.expires idle then .timedOut else .blocked)
  | n + 1, b :: bytes =>
    if socket.expires b.wait then .error .timedOut
    else
      match readExact socket idle n bytes with
      | .error e => .error e
      | .ok (out, rest) => .ok (b.byte :: out, rest)

/-- What a read of a frame comes to. -/
inductive FrameRead where
  | frame (payload : Bytes) (rest : List TimedByte)
  | failed (e : FrameError)
  | blocked

/-- `read_frame` on a connection that stays open. -/
def readFrameTimed (socket : Socket) (idle : ℕ) (bytes : List TimedByte) : FrameRead :=
  match readExact socket idle 4 bytes with
  | .error .timedOut => .failed .io
  | .error .blocked => .blocked
  | .ok (field, bytes) =>
    let len := ofBE field
    if len > MAX_FRAME_LEN then .failed (.tooLarge len)
    else
      match readExact socket idle len bytes with
      | .error .timedOut => .failed .closedMidFrame
      | .error .blocked => .blocked
      | .ok (payload, rest) => .frame payload rest

theorem length_readExact {socket : Socket} {idle n : ℕ} {bytes rest : List TimedByte} {out : Bytes}
    (h : readExact socket idle n bytes = .ok (out, rest)) : rest.length + n = bytes.length := by
  induction n generalizing bytes out with
  | zero =>
    cases h
    rfl
  | succ n ih =>
    cases bytes with
    | nil => cases h
    | cons b bytes =>
      rw [readExact] at h
      split_ifs at h
      split at h
      · cases h
      · next hread =>
        cases h
        have := ih hread
        rw [List.length_cons]
        omega

theorem length_readFrameTimed {socket : Socket} {idle : ℕ} {bytes rest : List TimedByte}
    {payload : Bytes} (h : readFrameTimed socket idle bytes = .frame payload rest) :
    rest.length < bytes.length := by
  unfold readFrameTimed at h
  split at h
  · cases h
  · cases h
  · next hfield =>
    have hlen := length_readExact hfield
    dsimp only at h
    split_ifs at h
    split at h
    · cases h
    · cases h
    · next hpayload =>
      cases h
      have := length_readExact hpayload
      omega

/-! ## The loop -/

variable {κ : Type} (C : Crypto κ UInt8) (st : HandshakeState κ UInt8)

/-- The inbound loop on what the peer has sent, until it ends or waits: the half,
and the plaintexts it has opened.  Nobody calls `stop` and the TUN takes what it gets. -/
def Inbound.listen (socket : Socket) (idle : ℕ) (s : Inbound) (bytes : List TimedByte) :
    Inbound × List Bytes :=
  match _h : readFrameTimed socket idle bytes with
  | .frame payload rest =>
    let (s, plaintext) := s.turn C st (.frame payload true)
    if s.exit.isSome then (s, plaintext.toList)
    else
      let (s, opened) := Inbound.listen socket idle s rest
      (s, plaintext.toList ++ opened)
  | .failed _ => ((s.turn C st .failed).1, [])
  | .blocked => (s, [])
termination_by bytes.length
decreasing_by exact length_readFrameTimed _h

/-- The server's records, sealed one after the other. -/
def sealRecords (session : ServerSession UInt8) : UInt64 → List Bytes → Option (List Bytes)
  | _, [] => some []
  | seq, pt :: pts => do
    let frame ← session.sealRecord C seq pt
    let frames ← sealRecords session (seq + 1) pts
    some (frame :: frames)

/-- The packets in plaintexts that `VlessIn` accepts. -/
def unwrapAll : Option VlessIn → List Bytes → Option (List Bytes)
  | _, [] => some []
  | v, pt :: pts =>
    match unwrap v pt with
    | (.ok packet, v) => (unwrapAll v pts).map (packet :: ·)
    | (.error _, _) => none

/-- No byte keeps a read waiting until its timeout. -/
def Quick (socket : Socket) (bytes : List TimedByte) : Prop :=
  ∀ b ∈ bytes, socket.expires b.wait = false

/-- No read waits until its timeout, the one that waits now included. -/
def Line.Lively (socket : Socket) (line : Line) : Prop :=
  Quick socket line.bytes ∧ socket.expires line.idle = false

instance (socket : Socket) (bytes : List TimedByte) : Decidable (Quick socket bytes) := by
  unfold Quick
  infer_instance

/-! ## Reads in time and too late -/

variable {socket : Socket} {idle : ℕ}

/-- A read of what is there in time. -/
theorem readExact_quick {bytes : List TimedByte} (h : Quick socket bytes) {n : ℕ}
    (hn : n ≤ bytes.length) :
    readExact socket idle n bytes = .ok ((bytes.map TimedByte.byte).take n, bytes.drop n) := by
  induction n generalizing bytes with
  | zero => rfl
  | succ n ih =>
    cases bytes with
    | nil => simp at hn
    | cons b bytes =>
      have hb : socket.expires b.wait = false := h b List.mem_cons_self
      have htail : Quick socket bytes := fun c hc => h c (List.mem_cons_of_mem b hc)
      rw [readExact, if_neg (by simp [hb]), ih htail (by simpa using hn)]
      rfl

/-- A read of more than is there waits. -/
theorem readExact_short {bytes : List TimedByte} (h : Quick socket bytes) {n : ℕ}
    (hn : bytes.length < n) : readExact socket idle n bytes
      = .error (if socket.expires idle then .timedOut else .blocked) := by
  induction n generalizing bytes with
  | zero => simp at hn
  | succ n ih =>
    cases bytes with
    | nil => rfl
    | cons b bytes =>
      have hb : socket.expires b.wait = false := h b List.mem_cons_self
      have htail : Quick socket bytes := fun c hc => h c (List.mem_cons_of_mem b hc)
      rw [readExact, if_neg (by simp [hb]), ih htail (by simpa using hn)]

/-- A byte that comes too late fails the read. -/
theorem readExact_slow {bytes : List TimedByte} {n : ℕ} (h : ¬ Quick socket (bytes.take n)) :
    readExact socket idle n bytes = .error .timedOut := by
  induction n generalizing bytes with
  | zero => exact absurd (by simp [Quick]) h
  | succ n ih =>
    cases bytes with
    | nil => exact absurd (by simp [Quick]) h
    | cons b bytes =>
      rw [readExact]
      split_ifs with hb
      · rfl
      · rw [ih]
        intro htail
        apply h
        rw [List.take_succ_cons]
        intro c hc
        rcases List.mem_cons.1 hc with rfl | hmem
        · simpa using hb
        · exact htail c hmem

theorem readExact_append {bytes rest : List TimedByte} {n : ℕ} {out : Bytes}
    (h : readExact socket idle n bytes = .ok (out, rest)) (more : List TimedByte) :
    readExact socket idle n (bytes ++ more) = .ok (out, rest ++ more) := by
  induction n generalizing bytes out with
  | zero =>
    cases h
    rfl
  | succ n ih =>
    cases bytes with
    | nil => cases h
    | cons b bytes =>
      rw [readExact] at h
      split_ifs at h with hb
      split at h
      · cases h
      · next hread =>
        cases h
        rw [List.cons_append, readExact, if_neg hb, ih hread]

/-- **In time, a frame is read as on a closed connection**, but at the end of what
is there the read waits. -/
theorem readFrameTimed_quick {bytes : List TimedByte} (h : Quick socket bytes) :
    readFrameTimed socket idle bytes = match readFrame (bytes.map TimedByte.byte) with
      | .ok (some (payload, _)) => .frame payload (bytes.drop (4 + payload.length))
      | .ok none => if socket.expires idle then .failed .io else .blocked
      | .error (.tooLarge len) => .failed (.tooLarge len)
      | .error _ => if socket.expires idle then .failed .closedMidFrame else .blocked := by
  unfold readFrameTimed readFrame
  rw [List.length_map]
  by_cases hshort : bytes.length < 4
  · rw [readExact_short h hshort, if_pos hshort]
    rcases socket.expires idle <;> rfl
  · have hrest : Quick socket (bytes.drop 4) := fun b hb => h b (List.mem_of_mem_drop hb)
    rw [readExact_quick h (not_lt.1 hshort), if_neg hshort]
    dsimp only
    by_cases hlarge : ofBE ((bytes.map TimedByte.byte).take 4) > MAX_FRAME_LEN
    · rw [if_pos hlarge, if_pos hlarge]
    · rw [if_neg hlarge, if_neg hlarge, ← List.map_drop, List.length_map]
      by_cases hcut : (bytes.drop 4).length < ofBE ((bytes.map TimedByte.byte).take 4)
      · rw [readExact_short hrest hcut, if_pos hcut]
        rcases socket.expires idle <;> rfl
      · rw [readExact_quick hrest (not_lt.1 hcut), if_neg hcut]
        dsimp only
        have hlen : (((bytes.drop 4).map TimedByte.byte).take
            (ofBE ((bytes.map TimedByte.byte).take 4))).length
            = ofBE ((bytes.map TimedByte.byte).take 4) := by
          rw [List.length_take, List.length_map]
          omega
        rw [hlen, List.drop_drop]

theorem readFrameTimed_append {bytes rest : List TimedByte} {payload : Bytes}
    (h : readFrameTimed socket idle bytes = .frame payload rest) (more : List TimedByte) :
    readFrameTimed socket idle (bytes ++ more) = .frame payload (rest ++ more) := by
  unfold readFrameTimed at h ⊢
  split at h
  · cases h
  · cases h
  · next hfield =>
    rw [readExact_append hfield]
    dsimp only at h ⊢
    split_ifs at h ⊢
    split at h
    · cases h
    · cases h
    · next hpayload =>
      cases h
      rw [readExact_append hpayload]

/-- A whole frame in time. -/
theorem readFrameTimed_frame {payload : Bytes} (hfit : payload.length ≤ MAX_FRAME_LEN)
    {bytes : List TimedByte} (h : Quick socket bytes)
    (hframe : bytes.map TimedByte.byte = frameBytes payload) (more : List TimedByte) :
    readFrameTimed socket idle (bytes ++ more) = .frame payload more := by
  have hread := readFrame_frameBytes hfit []
  have hlen : bytes.length ≤ 4 + payload.length := by
    rw [← List.length_map TimedByte.byte, hframe, length_frameBytes]
  rw [List.append_nil, ← hframe] at hread
  have htimed : readFrameTimed socket idle bytes = _ := readFrameTimed_quick h
  rw [hread] at htimed
  dsimp only at htimed
  rw [List.drop_of_length_le hlen] at htimed
  exact readFrameTimed_append htimed more

/-- The bytes that are there are a front of the frame, as far as it goes. -/
theorem take_of_sent {payload : Bytes} {bytes : List TimedByte} {tail : Bytes}
    (hsent : bytes.map TimedByte.byte <+: frameBytes payload ++ tail) {n : ℕ}
    (hn : n ≤ bytes.length) (hframe : n ≤ (frameBytes payload).length) :
    (bytes.map TimedByte.byte).take n = (frameBytes payload).take n := by
  obtain ⟨rest, hrest⟩ := hsent
  have htake := congrArg (List.take n) hrest
  rwa [List.take_append_of_le_length (by rwa [List.length_map]),
    List.take_append_of_le_length hframe] at htake

/-- A frame with a byte that comes too late. -/
theorem readFrameTimed_slow {payload : Bytes} (hfit : payload.length ≤ MAX_FRAME_LEN)
    {bytes : List TimedByte} {tail : Bytes}
    (hsent : bytes.map TimedByte.byte <+: frameBytes payload ++ tail)
    (h : ¬ Quick socket (bytes.take (frameBytes payload).length)) :
    ∃ e, readFrameTimed socket idle bytes = .failed e := by
  have hmax : MAX_FRAME_LEN < 256 ^ 4 := by decide
  have hframe := length_frameBytes payload
  unfold readFrameTimed
  by_cases hfield : Quick socket (bytes.take 4)
  · by_cases hshort : bytes.length < 4
    · -- then nothing is too late
      exfalso
      apply h
      rw [List.take_of_length_le (by omega)]
      rwa [List.take_of_length_le hshort.le] at hfield
    · have hread : readExact socket idle 4 bytes = .ok (toBE 4 payload.length, bytes.drop 4) := by
        have hfour : 4 ≤ (bytes.take 4).length := by
          rw [List.length_take]
          omega
        have hquick : readExact socket idle 4 (bytes.take 4 ++ bytes.drop 4) = _ :=
          readExact_append (readExact_quick hfield hfour) (bytes.drop 4)
        rw [List.take_append_drop] at hquick
        rw [hquick, List.drop_of_length_le (by rw [List.length_take]; omega), List.nil_append,
          List.map_take, List.take_take, Nat.min_self,
          take_of_sent hsent (not_lt.1 hshort) (by omega), frameBytes, List.take_left' (by simp)]
      have hslow : ¬ Quick socket ((bytes.drop 4).take payload.length) := by
        intro hpayload
        apply h
        rw [hframe, List.take_add]
        intro b hb
        rcases List.mem_append.1 hb with hb | hb
        · exact hfield b hb
        · exact hpayload b hb
      rw [hread]
      dsimp only
      rw [ofBE_toBE_of_lt (by omega), if_neg (by omega), readExact_slow hslow]
      exact ⟨_, rfl⟩
  · rw [readExact_slow hfield]
    exact ⟨_, rfl⟩

/-- A frame that is not all there. -/
theorem readFrameTimed_part {payload : Bytes} (hfit : payload.length ≤ MAX_FRAME_LEN)
    {bytes : List TimedByte} {tail : Bytes} (h : Quick socket bytes)
    (hsent : bytes.map TimedByte.byte <+: frameBytes payload ++ tail)
    (hlen : bytes.length < (frameBytes payload).length) :
    (socket.expires idle = true → ∃ e, readFrameTimed socket idle bytes = .failed e) ∧
      (socket.expires idle = false → readFrameTimed socket idle bytes = .blocked) := by
  have hcut : bytes.map TimedByte.byte = (frameBytes payload).take bytes.length := by
    rw [← take_of_sent hsent le_rfl hlen.le, List.take_of_length_le (by rw [List.length_map])]
  have hread := readFrame_take_frame hfit hlen
  rw [readFrameTimed_quick h, hcut, hread]
  by_cases hshort : bytes.length < 4
  · rw [if_pos hshort]
    exact ⟨fun hexp => ⟨.io, by simp [hexp]⟩, fun hexp => by simp [hexp]⟩
  · rw [if_neg hshort]
    exact ⟨fun hexp => ⟨.closedMidFrame, by simp [hexp]⟩, fun hexp => by simp [hexp]⟩

/-! ## Turns of the loop -/

section Listen

variable {C st} {s : Inbound} {bytes : List TimedByte}

theorem listen_blocked (h : readFrameTimed socket idle bytes = .blocked) :
    s.listen C st socket idle bytes = (s, []) := by
  rw [Inbound.listen.eq_def]
  split
  · next heq => rw [h] at heq; cases heq
  · next heq => rw [h] at heq; cases heq
  · rfl

/-- A read that fails ends the loop. -/
theorem listen_failed {e : FrameError} (h : readFrameTimed socket idle bytes = .failed e) :
    (s.listen C st socket idle bytes).1.exit ≠ none := by
  rw [Inbound.listen.eq_def]
  split
  · next heq => rw [h] at heq; cases heq
  · unfold Inbound.turn Inbound.turnOf
    split_ifs with hexit
    · exact Option.isSome_iff_ne_none.1 hexit
    · simp
  · next heq => rw [h] at heq; cases heq

/-- A frame that the loop goes on from. -/
theorem listen_frame {payload : Bytes} {rest : List TimedByte} {s' : Inbound} {plaintext : Bytes}
    (h : readFrameTimed socket idle bytes = .frame payload rest)
    (hturn : s.turn C st (.frame payload true) = (s', some plaintext)) (hexit : s'.exit = none) :
    s.listen C st socket idle bytes
      = ((s'.listen C st socket idle rest).1, plaintext :: (s'.listen C st socket idle rest).2) := by
  rw [Inbound.listen.eq_def]
  split
  · next heq =>
    rw [h] at heq
    cases heq
    simp [hturn, hexit]
  · next heq => rw [h] at heq; cases heq
  · next heq => rw [h] at heq; cases heq

/-- A record that opens and that `VlessIn` accepts is delivered. -/
theorem turn_accepted {frame plaintext packet : Bytes} {v : Option VlessIn} (hexit : s.exit = none)
    (hne : frame ≠ []) (h : st.openRecord C s.seqIn frame = .ok plaintext)
    (hv : unwrap s.vlessIn plaintext = (.ok packet, v)) :
    ∃ s', s.turn C st (.frame frame true) = (s', some plaintext) ∧ s'.exit = none ∧
      s'.seqIn = s.seqIn + 1 ∧ s'.vlessIn = v ∧ s'.delivered = s.delivered ++ [packet] := by
  rw [Inbound.turn_frame hexit, Inbound.frame, Inbound.frameOf, if_neg hne]
  simp only [hexit, h, hv, if_true]
  exact ⟨_, rfl, rfl, rfl, rfl, rfl⟩

theorem sealRecords_cons {session : ServerSession UInt8} {seq : UInt64} {pt : Bytes}
    {pts frames : List Bytes} (h : sealRecords C session seq (pt :: pts) = some frames) :
    ∃ f fs, session.sealRecord C seq pt = some f ∧ sealRecords C session (seq + 1) pts = some fs ∧
      frames = f :: fs := by
  simp only [sealRecords, Option.bind_eq_bind, Option.bind_eq_some_iff] at h
  obtain ⟨f, hf, fs, hfs, heq⟩ := h
  exact ⟨f, fs, hf, hfs, (Option.some.inj heq).symm⟩

theorem unwrapAll_cons {v : Option VlessIn} {pt : Bytes} {pts packets : List Bytes}
    (h : unwrapAll v (pt :: pts) = some packets) :
    ∃ packet v' rest, unwrap v pt = (.ok packet, v') ∧ unwrapAll v' pts = some rest ∧
      packets = packet :: rest := by
  unfold unwrapAll at h
  split at h
  · next packet v' hv =>
    obtain ⟨rest, hrest, heq⟩ := Option.map_eq_some_iff.1 h
    exact ⟨packet, v', rest, hv, hrest, heq.symm⟩
  · cases h

/-- A record is never empty. -/
theorem sealRecord_ne_nil {session : ServerSession UInt8} (hC : C.Lawful) {seq : UInt64}
    {pt frame : Bytes} (h : session.sealRecord C seq pt = some frame) : frame ≠ [] := by
  have hlen := hC.encrypt_length h
  rw [Crypto.AES_TAG] at hlen
  rintro rfl
  simp at hlen

/-- Where the loop waits or fails on the frame it is at, it has opened nothing more. -/
theorem listen_at_end (hexit : s.exit = none) {pts packets : List Bytes} {P : Prop}
    (hfailed : ¬ P → ∃ e, readFrameTimed socket idle bytes = .failed e)
    (hblocked : P → readFrameTimed socket idle bytes = .blocked) :
    ((s.listen C st socket idle bytes).1.exit = none ∧
        (s.listen C st socket idle bytes).2 = pts.take 0 ∧
        (s.listen C st socket idle bytes).1.delivered = s.delivered ++ packets.take 0) ↔ P := by
  by_cases h : P
  · rw [listen_blocked (hblocked h)]
    simp [hexit, h]
  · obtain ⟨e, he⟩ := hfailed h
    exact ⟨fun hrun => absurd hrun.1 (listen_failed he), fun hp => absurd hp h⟩

/-- **From any point of the stream**: the loop goes on and delivers what is there
exactly if nothing comes too late. -/
theorem listen_iff_quick {session : ServerSession UInt8} (hC : C.Lawful)
    (hpeer : PeeredWith st session) {pts packets frames : List Bytes} (hexit : s.exit = none)
    (hseal : sealRecords C session s.seqIn pts = some frames)
    (hfit : ∀ f ∈ frames, f.length ≤ MAX_FRAME_LEN)
    (hwell : unwrapAll s.vlessIn pts = some packets)
    (hsent : bytes.map TimedByte.byte <+: writeFrames frames) :
    ((s.listen C st socket idle bytes).1.exit = none ∧
        (s.listen C st socket idle bytes).2 = pts.take (framesBefore frames bytes.length).length ∧
        (s.listen C st socket idle bytes).1.delivered
          = s.delivered ++ packets.take (framesBefore frames bytes.length).length) ↔
      Quick socket bytes ∧ socket.expires idle = false := by
  induction pts generalizing s bytes packets frames with
  | nil =>
    obtain rfl : [] = frames := Option.some.inj hseal
    obtain rfl : bytes = [] := by simpa [writeFrames] using hsent
    have hquick : Quick socket [] := by simp [Quick]
    have hread : readFrameTimed socket idle [] = _ := readFrameTimed_quick hquick
    refine listen_at_end hexit ?_ ?_
    · intro hbad
      exact ⟨.io, by rw [hread]; simpa [readFrame, hquick] using hbad⟩
    · rintro ⟨-, hidle⟩
      rw [hread]
      simp [readFrame, hidle]
  | cons pt pts ih =>
    obtain ⟨f, fs, hf, hfs, rfl⟩ := sealRecords_cons hseal
    obtain ⟨packet, v, rest, hv, hrest, rfl⟩ := unwrapAll_cons hwell
    have hfit' := hfit f List.mem_cons_self
    rw [writeFrames_cons hfit'] at hsent
    by_cases hlen : (frameBytes f).length ≤ bytes.length
    · rw [framesBefore, if_pos hlen]
      by_cases hquick : Quick socket (bytes.take (frameBytes f).length)
      · -- the frame is there in time
        have hframe : (bytes.take (frameBytes f).length).map TimedByte.byte = frameBytes f := by
          rw [List.map_take, take_of_sent hsent hlen le_rfl, List.take_of_length_le le_rfl]
        have hread : readFrameTimed socket idle bytes
            = .frame f (bytes.drop (frameBytes f).length) := by
          have happend : readFrameTimed socket idle (bytes.take (frameBytes f).length
              ++ bytes.drop (frameBytes f).length) = .frame f (bytes.drop (frameBytes f).length) :=
            readFrameTimed_frame hfit' hquick hframe _
          rwa [List.take_append_drop] at happend
        obtain ⟨s', hturn, hexit', hseq, hvless, hdelivered⟩ :=
          turn_accepted hexit (sealRecord_ne_nil hC hf) (hpeer.open_sealed hC hf) hv
        have hsent' : (bytes.drop (frameBytes f).length).map TimedByte.byte <+: writeFrames fs := by
          rw [List.map_drop]
          have hdrop := hsent.drop (frameBytes f).length
          rwa [List.drop_left' rfl] at hdrop
        have hnext := ih hexit' (by rwa [hseq]) (fun g hg => hfit g (List.mem_cons_of_mem f hg))
          (by rwa [hvless]) hsent'
        have hall : Quick socket bytes ↔ Quick socket (bytes.drop (frameBytes f).length) := by
          rw [← List.take_append_drop (frameBytes f).length bytes, Quick, List.forall_mem_append,
            List.take_append_drop]
          exact and_iff_right hquick
        rw [List.length_drop, hdelivered, ← hall] at hnext
        rw [listen_frame hread hturn hexit', ← hnext]
        simp
      · -- a byte of the frame comes too late
        obtain ⟨e, he⟩ : ∃ e, readFrameTimed socket idle bytes = .failed e :=
          readFrameTimed_slow hfit' hsent hquick
        refine ⟨fun hrun => absurd hrun.1 (listen_failed he), fun h => absurd ?_ hquick⟩
        exact fun b hb => h.1 b (List.mem_of_mem_take hb)
    · have hshort := not_le.1 hlen
      rw [framesBefore, if_neg hlen]
      refine listen_at_end hexit ?_ ?_
      · intro hbad
        by_cases hquick : Quick socket bytes
        · refine (readFrameTimed_part hfit' hquick hsent hshort).1 ?_
          simpa [hquick] using hbad
        · refine readFrameTimed_slow hfit' hsent ?_
          rwa [List.take_of_length_le hshort.le]
      · rintro ⟨hquick, hidle⟩
        exact (readFrameTimed_part hfit' hquick hsent hshort).2 hidle

end Listen

/-! ## The inbound pump on the stored socket -/

variable {C st}

/-- **When an idle tunnel stays up.**  The server sends records that `VlessIn`
accepts, with any waits between their bytes, and keeps the connection open.  The
inbound loop goes on, and all records that are there are opened and delivered in
order, if and only if no read waits ten seconds, neither between two records nor
within one. -/
theorem listen_iff_lively {session : ServerSession UInt8} (hC : C.Lawful)
    (hpeer : PeeredWith st session) (config : PumpConfig) (stats : PumpStats) {nextInSeq : UInt64}
    {pts packets frames : List Bytes} (line : Line)
    (hseal : sealRecords C session nextInSeq pts = some frames)
    (hfit : ∀ f ∈ frames, f.length ≤ MAX_FRAME_LEN)
    (hwell : unwrapAll (config.vless.map fun p => .new p.uuid) pts = some packets)
    (hsent : line.bytes.map TimedByte.byte <+: writeFrames frames) :
    let half := (Inbound.start config stats nextInSeq).listen C st connectedSocket.tryClone
      line.idle line.bytes
    let there := (framesBefore frames line.bytes.length).length
    (half.1.exit = none ∧ half.2 = pts.take there ∧ half.1.delivered = packets.take there) ↔
      line.Lively connectedSocket := by
  intro half there
  have hrun : (half.1.exit = none ∧ half.2 = pts.take there ∧
      half.1.delivered = [] ++ packets.take there) ↔ line.Lively connectedSocket :=
    listen_iff_quick hC hpeer rfl hseal hfit hwell hsent
  rwa [List.nil_append] at hrun

/-- Two records of the server, the first with the VLESS response header. -/
def sampleRecords : List Bytes := [[0, 10, 1, 0, 69], [69, 0]]

/-- Their frames. -/
def sampleFrames : List Bytes :=
  (sealRecords Crypto.toy sampleSession 3 sampleRecords).getD []

theorem listen_iff_lively_sample :
    let half := (Inbound.start ⟨true, some sampleVless⟩ .zero 3).listen Crypto.toy sampleState
      connectedSocket.tryClone 9999 ((writeFrames sampleFrames).map (TimedByte.mk 9999))
    half.1.exit = none ∧ half.2 = sampleRecords ∧ half.1.delivered = [[69], [69, 0]] := by
  have hseal : sealRecords Crypto.toy sampleSession 3 sampleRecords = some sampleFrames := by
    decide +kernel
  have hfit : ∀ f ∈ sampleFrames, f.length ≤ MAX_FRAME_LEN := by decide +kernel
  have hsent : ((writeFrames sampleFrames).map (TimedByte.mk 9999)).map TimedByte.byte
      <+: writeFrames sampleFrames := by
    simp [Function.comp_def]
  have hlively : Line.Lively connectedSocket
      ⟨(writeFrames sampleFrames).map (TimedByte.mk 9999), 9999⟩ := by
    refine ⟨?_, rfl⟩
    intro b hb
    obtain ⟨c, -, rfl⟩ := List.mem_map.1 hb
    rfl
  have hall : (framesBefore sampleFrames
      ((writeFrames sampleFrames).map (TimedByte.mk 9999)).length).length = 2 := by
    decide +kernel
  have hwell : unwrapAll (some (.new sampleVless.uuid)) sampleRecords = some [[69], [69, 0]] := by
    decide +kernel
  have hrun := (listen_iff_lively Crypto.toy_lawful sampleState_peered ⟨true, some sampleVless⟩ .zero
    ⟨(writeFrames sampleFrames).map (TimedByte.mk 9999), 9999⟩ hseal hfit hwell hsent).2 hlively
  rw [hall] at hrun
  exact hrun

/-- A peer that is silent for ten seconds between two records. -/
theorem not_listen_idle :
    let half := (Inbound.start ⟨true, some sampleVless⟩ .zero 3).listen Crypto.toy sampleState
      connectedSocket.tryClone 0 ((writeFrames (sampleFrames.take 1)).map (TimedByte.mk 0)
        ++ (writeFrames (sampleFrames.drop 1)).map (TimedByte.mk 10000))
    half.1.exit = some .socketFailed ∧ half.2 = [[0, 10, 1, 0, 69]] ∧ half.1.delivered = [[69]] := by
  decide +kernel

end ShadeVpn.Pump
