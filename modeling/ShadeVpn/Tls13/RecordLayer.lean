import ShadeVpn.Tls13.AppKeys
import ShadeVpn.Tls13.Reassembly
import ShadeVpn.Tls13.Rfc8446

/-!
# The record layer and its peer

`Peer` is the other end of one direction in the words of RFC 8446: it counts records
from 0, pads the number to the length of the IV, binds the header as associated data and
finds the content type behind the content.  The client agrees with it record by record:

* `receive_sealed` — a peer reads what the client seals;
* `open_sent` — the client reads what a peer sends, with any content type and padding;
* `nonces_nodup` — whatever is called, no nonce comes twice under one key.

The three together are `recordLayer_correct`.
-/

namespace ShadeVpn.Tls13

open Octets Checked Fallible

variable (k : Crates)

/-! ## The peer -/

/-- The traffic keys of one direction: the suite, the key of its AEAD and the static IV. -/
structure TrafficKeys where
  suite : CipherSuite
  key : Bytes
  iv : Bytes
  length_key : key.length = suite.keyLen
  length_iv : iv.length = IV_LEN

/-- The traffic keys of a secret. -/
def trafficKeys (suite : CipherSuite) (secret : Bytes) : TrafficKeys where
  suite := suite
  key := Rfc8446.trafficKey k suite secret
  iv := Rfc8446.trafficIv k suite secret
  length_key := by
    rw [Rfc8446.trafficKey_eq]
    exact length_hkdfExpandLabel ..
  length_iv := by
    rw [Rfc8446.trafficIv_eq]
    exact length_hkdfExpandLabel ..

namespace Peer

/-- The nonce of record `n`: the number in 64 bits, padded on the left to the length of
the IV, XOR the IV. -/
def nonce (iv : Bytes) (n : ℕ) : Bytes :=
  List.zipWith (· ^^^ ·) iv (List.replicate (iv.length - 8) 0 ++ toBE 8 n)

/-- `TLSInnerPlaintext`: content, a content type that is not zero, and zeros. -/
structure Plaintext where
  content : Bytes
  type : UInt8
  zeros : ℕ
  typed : type ≠ 0

def Plaintext.encode (m : Plaintext) : Bytes := m.content ++ m.type :: List.replicate m.zeros 0

/-- The type and the content of an inner plaintext: its last octet that is not zero is the
type. -/
def decode : Bytes → Option (UInt8 × Bytes)
  | [] => none
  | b :: bs =>
    match decode bs with
    | some (type, content) => some (type, b :: content)
    | none => if b = 0 then none else some (b, [])

/-- The header of a protected record. -/
def header (length : ℕ) : Bytes := [23, 3, 3] ++ toBE 2 length

/-- Record `n`, if its length fits the header. -/
def protect (s : TrafficKeys) (n : ℕ) (m : Plaintext) : Option Bytes :=
  let length := m.encode.length + 16
  if length < 2 ^ 16 then
    (k.encrypt s.suite s.key (nonce s.iv n) m.encode (header length)).map (header length ++ ·)
  else none

/-- What record `n` holds.  Any length that the header can state is taken. -/
def unprotect (s : TrafficKeys) (n : ℕ) (record : Bytes) : Option (UInt8 × Bytes) :=
  let body := record.drop 5
  if body.length < 2 ^ 16 ∧ record.take 5 = header body.length then
    (k.decrypt s.suite s.key (nonce s.iv n) body (record.take 5)).bind decode
  else none

/-- The records of a peer that is at record `n`. -/
def send (s : TrafficKeys) : ℕ → List Plaintext → Option (List Bytes)
  | _, [] => some []
  | n, m :: ms => do
    let record ← protect k s n m
    let records ← send s (n + 1) ms
    some (record :: records)

/-- What a peer that is at record `n` reads. -/
def receive (s : TrafficKeys) : ℕ → List Bytes → Option (List (UInt8 × Bytes))
  | _, [] => some []
  | n, record :: records => do
    let message ← unprotect k s n record
    let messages ← receive s (n + 1) records
    some (message :: messages)

theorem decode_zeros (zeros : ℕ) : decode (List.replicate zeros 0) = none := by
  induction zeros with
  | zero => rfl
  | succ n ih => simp [List.replicate_succ, decode, ih]

theorem decode_encode (m : Plaintext) : decode m.encode = some (m.type, m.content) := by
  rw [Plaintext.encode]
  induction m.content with
  | nil => simp [decode, decode_zeros, m.typed]
  | cons b bs ih => simp [decode, ih]

@[simp] theorem length_header (length : ℕ) : (header length).length = 5 := by
  simp [header]

end Peer

/-! ## Nonces -/

theorem zipWith_xor_zeros (bs : Bytes) :
    List.zipWith (· ^^^ ·) bs (List.replicate bs.length 0) = bs := by
  induction bs with
  | nil => rfl
  | cons b bs ih => simp [List.replicate_succ, ih]

theorem zipWith_xor_inj {iv a b : Bytes} (ha : a.length = iv.length) (hb : b.length = iv.length)
    (h : List.zipWith (· ^^^ ·) iv a = List.zipWith (· ^^^ ·) iv b) : a = b := by
  induction iv generalizing a b with
  | nil => rw [List.eq_nil_of_length_eq_zero ha, List.eq_nil_of_length_eq_zero hb]
  | cons v iv ih =>
    obtain ⟨x, a, rfl⟩ := List.exists_cons_of_length_eq_add_one ha
    obtain ⟨y, b, rfl⟩ := List.exists_cons_of_length_eq_add_one hb
    simp only [List.zipWith_cons_cons, List.cons.injEq, UInt8.xor_right_inj] at h
    rw [h.1, ih (by simpa using ha) (by simpa using hb) h.2]

/-- The client makes the nonce of the peer. -/
theorem recordNonce_eq {iv : Bytes} (hiv : iv.length = IV_LEN) (n : ℕ) :
    recordNonce iv (UInt64.ofNat n) = .ok (Peer.nonce iv n) := by
  have hseq : toBE 8 (UInt64.ofNat n).toNat = toBE 8 n := by
    have hwrap := toBE_add_mul 8 (n / 256 ^ 8) (n % 256 ^ 8)
    rw [Nat.mod_add_div'] at hwrap
    rw [hwrap, UInt64.toNat_ofNat']
    rfl
  have hsplit : Peer.nonce iv n = iv.take 4 ++ List.zipWith (· ^^^ ·) (iv.drop 4) (toBE 8 n) := by
    have htake : (iv.take 4).length = 4 := by rw [List.length_take, hiv]; rfl
    have hzeros := zipWith_xor_zeros (iv.take 4)
    rw [htake] at hzeros
    conv_lhs => rw [Peer.nonce, hiv, ← List.take_append_drop 4 iv]
    rw [List.zipWith_append (by simp [htake, IV_LEN])]
    exact congrArg (· ++ _) hzeros
  rw [recordNonce, sub_eq_ok (by rw [hiv]; decide), hiv, hsplit, ← hseq]
  rfl

/-- Below 2^64 a nonce says which record it is of. -/
theorem Peer.nonce_inj {iv : Bytes} (hiv : iv.length = IV_LEN) {i j : ℕ} (hi : i < 2 ^ 64)
    (hj : j < 2 ^ 64) (h : nonce iv i = nonce iv j) : i = j := by
  have hpadded := zipWith_xor_inj (by simp [hiv, IV_LEN]) (by simp [hiv, IV_LEN]) h
  exact toBE_injOn (lt_of_lt_of_eq hi (by norm_num)) (lt_of_lt_of_eq hj (by norm_num))
    (List.append_cancel_left hpadded)

/-! ## Record by record -/

/-- What the record layer relies on in the AEADs: they take messages up to their limit,
add a tag, and open what they sealed. -/
structure AeadCorrect : Prop where
  takes : ∀ {suite key nonce msg aad}, key.length = suite.keyLen → nonce.length = IV_LEN →
    aad.length = 5 → msg.length ≤ 2 ^ 36 → (k.encrypt suite key nonce msg aad).isSome
  overhead : ∀ {suite key nonce msg aad sealed}, k.encrypt suite key nonce msg aad = some sealed →
    sealed.length = msg.length + TAG_LEN
  opens : ∀ {suite key nonce msg aad sealed}, k.encrypt suite key nonce msg aad = some sealed →
    k.decrypt suite key nonce sealed aad = some msg

variable {k} {t : Target} {s : TrafficKeys} {c : Tls13Client} {n : ℕ}

/-- The protection of a client that is at record `n`. -/
def TrafficKeys.at (s : TrafficKeys) (n : ℕ) : Protection := ⟨⟨s.suite, s.key⟩, s.iv, .ofNat n⟩

@[simp] theorem TrafficKeys.next_at (s : TrafficKeys) (n : ℕ) : (s.at n).next = s.at (n + 1) := by
  simp [TrafficKeys.at, Protection.next]

theorem TrafficKeys.recordNonce_at (s : TrafficKeys) (n : ℕ) :
    recordNonce (s.at n).iv (s.at n).seq = .ok (Peer.nonce s.iv n) :=
  recordNonce_eq s.length_iv n

/-- The client starts at record 0 of its secret. -/
theorem protectionOf_eq (k : Crates) (suite : CipherSuite) (secret : Bytes) :
    protectionOf k suite secret = .ok ((trafficKeys k suite secret).at 0) := by
  have hkey : (keyIvFromSecret k suite secret).1.length = suite.keyLen := length_hkdfExpandLabel ..
  simp only [protectionOf, cipherFromKey, if_pos hkey, bind, Except.bind, TrafficKeys.at,
    trafficKeys, Rfc8446.trafficKey_eq, Rfc8446.trafficIv_eq]
  rfl

theorem length_nonce {iv : Bytes} (hiv : iv.length = IV_LEN) (n : ℕ) :
    (Peer.nonce iv n).length = IV_LEN := by
  simp [Peer.nonce, hiv, IV_LEN]

/-- The peer reads what is sealed with its keys. -/
theorem unprotect_sealWith (hk : AeadCorrect k) {missing : Tls13Error}
    {field : Tls13Client → Option Protection}
    {update : Protection → Tls13Client → Tls13Client} (hp : field c = some (s.at n))
    {type : UInt8} (htype : type ≠ 0) {data : Bytes} (hdata : data.length ≤ 65518) :
    ∃ record, exec (sealWith k missing field update type data) c =
        (.ok record, update (s.at (n + 1)) c) ∧
      Peer.unprotect k s n record = some (type, data) := by
  let head := Peer.header (data.length + 1 + TAG_LEN)
  have hhead : head.length = 5 := Peer.length_header _
  have htakes : (k.encrypt s.suite s.key (Peer.nonce s.iv n) (data ++ [type])
      head).isSome :=
    hk.takes s.length_key (length_nonce s.length_iv n) hhead (by simp; omega)
  obtain ⟨sealed, hsealed⟩ := Option.isSome_iff_exists.1 htakes
  have hlen : sealed.length = data.length + 1 + TAG_LEN := by
    rw [hk.overhead hsealed, List.length_append, List.length_singleton]
  refine ⟨head ++ sealed, ?_, ?_⟩
  · rw [exec_sealWith hp (s.recordNonce_at n), s.next_at,
      RecordCipher.seal_of_length k _ (length_nonce s.length_iv n)]
    have hencrypt : k.encrypt (s.at n).cipher.suite (s.at n).cipher.key
        (Peer.nonce s.iv n) (data ++ [type])
        (CONTENT_APPDATA :: 0x03 :: 0x03 :: toBE 2 (data.length + 1 + TAG_LEN)) = some sealed :=
      hsealed
    rw [hencrypt]
    rfl
  · let m : Peer.Plaintext := ⟨data, type, 0, htype⟩
    have hdecode : Peer.decode (data ++ [type]) = some (type, data) := Peer.decode_encode m
    have hsmall : sealed.length < 2 ^ 16 := by
      rw [hlen, TAG_LEN]
      omega
    rw [Peer.unprotect, List.drop_left' hhead, List.take_left' hhead,
      if_pos ⟨hsmall, congrArg Peer.header hlen.symm⟩, hk.opens hsealed]
    exact hdecode

/-- **The peer reads a record that the client seals.** -/
theorem unprotect_sealed (hk : AeadCorrect k) (hp : c.appWrite = some (s.at n)) {data : Bytes}
    (hdata : data.length ≤ 65518) :
    ∃ record, exec (sealAppRecord k data) c =
        (.ok record, { c with appWrite := some (s.at (n + 1)) }) ∧
      Peer.unprotect k s n record = some (CONTENT_APPDATA, data) :=
  unprotect_sealWith hk hp (by decide) hdata

/-- **The client reads a record that the peer sends.** -/
theorem open_protected (hk : AeadCorrect k) (hp : c.appRead = some (s.at n)) {m : Peer.Plaintext}
    {record : Bytes} (hrecord : Peer.protect k s n m = some record) :
    exec (openRecord k record) c =
      (.ok (m.type, m.content), { c with appRead := some (s.at (n + 1)) }) := by
  simp only [Peer.protect] at hrecord
  split_ifs at hrecord with hsmall
  obtain ⟨sealed, hsealed, rfl⟩ := Option.map_eq_some_iff.1 hrecord
  have hlen : sealed.length = m.encode.length + 16 := hk.overhead hsealed
  have hbody : recordBody CONTENT_APPDATA .unexpectedRecord
      (Peer.header (m.encode.length + 16) ++ sealed) = .ok sealed := by
    rw [← hlen]
    exact @recordBody_encrypted (3, 3) sealed m.content m.zeros (hlen ▸ hsmall) .unexpectedRecord
  rw [openRecord, exec_openWith hbody hp (s.recordNonce_at n), s.next_at,
    RecordCipher.open_of_length k _ (length_nonce s.length_iv n),
    List.take_left' (Peer.length_header _)]
  have hdecrypt : k.decrypt (s.at n).cipher.suite (s.at n).cipher.key (Peer.nonce s.iv n) sealed
      (Peer.header (m.encode.length + 16)) = some m.encode := hk.opens hsealed
  rw [hdecrypt]
  exact congrArg (·, _) (stripInnerPadding_fragment m.typed m.content m.zeros)

/-! ## Runs -/

/-- **The peer reads what the client seals**, in order. -/
theorem receive_sealed (hk : AeadCorrect k) (hp : c.appWrite = some (s.at n))
    {payloads : List Bytes} (hsized : ∀ data ∈ payloads, data.length ≤ 65518) :
    ∃ records c', exec (payloads.mapM (sealAppRecord k)) c = (.ok records, c') ∧
      Peer.receive k s n records = some (payloads.map (CONTENT_APPDATA, ·)) := by
  induction payloads generalizing c n with
  | nil => exact ⟨[], c, rfl, rfl⟩
  | cons data payloads ih =>
    rw [List.forall_mem_cons] at hsized
    obtain ⟨record, hseal, hread⟩ := unprotect_sealed hk hp hsized.1
    obtain ⟨records, c', hrun, hreceive⟩ :=
      ih (c := { c with appWrite := some (s.at (n + 1)) }) rfl hsized.2
    refine ⟨record :: records, c', ?_, ?_⟩
    · simp only [List.mapM_cons, exec_bind, hseal, hrun, exec_pure]
    · simp only [Peer.receive, hread, hreceive, Option.bind_eq_bind, Option.bind_some,
        List.map_cons]

/-- **The client reads what the peer sends**, in order. -/
theorem open_sent (hk : AeadCorrect k) (hp : c.appRead = some (s.at n))
    {messages : List Peer.Plaintext} {records : List Bytes}
    (hsent : Peer.send k s n messages = some records) :
    ∃ c', exec (records.mapM (openRecord k)) c =
      (.ok (messages.map fun m => (m.type, m.content)), c') := by
  induction messages generalizing c n records with
  | nil =>
    cases hsent
    exact ⟨c, rfl⟩
  | cons m messages ih =>
    simp only [Peer.send, Option.bind_eq_bind, Option.bind_eq_some_iff] at hsent
    obtain ⟨record, hrecord, records', hsent, heq⟩ := hsent
    cases heq
    obtain ⟨c', hrun⟩ := ih (c := { c with appRead := some (s.at (n + 1)) }) rfl hsent
    refine ⟨c', ?_⟩
    simp only [List.mapM_cons, exec_bind, open_protected hk hp hrecord, hrun, exec_pure,
      List.map_cons]

/-! ## The nonces of a run -/

theorem frames_sealAppRecord (data : Bytes) :
    Frames Tls13Client.appRead (sealAppRecord k data) := by
  have hupdate : ∀ (p : Protection) (c : Tls13Client),
      Tls13Client.appRead { c with appWrite := some p } = c.appRead := fun _ _ => rfl
  exact frames_sealWith hupdate CONTENT_APPDATA data

theorem frames_openRecord (wire : Bytes) : Frames Tls13Client.appWrite (openRecord k wire) := by
  have hupdate : ∀ (p : Protection) (c : Tls13Client),
      Tls13Client.appWrite { c with appRead := some p } = c.appWrite := fun _ _ => rfl
  exact frames_openWith hupdate wire

/-- The directions of application records. -/
inductive Direction where
  | read
  | write

namespace Direction

/-- The protection of a direction. -/
def field : Direction → Tls13Client → Option Protection
  | read => Tls13Client.appRead
  | write => Tls13Client.appWrite

/-- A call that comes to the key check of a direction. -/
def Uses : Direction → Call → Bool
  | write, .sealAppRecord _ => true
  | read, .openRecord wire | read, .openAppRecord wire =>
    (recordBody CONTENT_APPDATA .unexpectedRecord wire).isOk
  | _, _ => false

/-- The nonces that the calls of a run use in a direction. -/
def nonces (k : Crates) (t : Target) (d : Direction) : Tls13Client → List Call → List Bytes
  | _, [] => []
  | c, call :: calls =>
    let nonce := if d.Uses call then
        (d.field c).bind fun p => (recordNonce p.iv p.seq).toOption
      else none
    nonce.toList ++ nonces k t d (call.step k t c) calls

variable {d : Direction}

/-- **A call moves a direction on by the record it uses**, unless it installs other keys. -/
theorem field_step (hp : d.field c = some (s.at n)) {call : Call} (hflight : ¬ call.Accepts k t c) :
    d.field (call.step k t c) = some (s.at (if d.Uses call then n + 1 else n)) := by
  by_cases hrecord : call.IsRecord
  swap
  · have huse : d.Uses call = false := by
      cases call <;> first | exact absurd rfl hrecord | cases d <;> rfl
    have hkeys := Prod.mk.inj (Call.appKeys_step hrecord hflight)
    rw [huse]
    cases d with
    | read => exact hkeys.1.trans hp
    | write => exact hkeys.2.trans hp
  cases call with
  | sealAppRecord data =>
    cases d with
    | read =>
      rw [Call.step, Call.method, Call.discard_snd]
      exact (frames_sealAppRecord data c).trans hp
    | write =>
      rw [Call.step_sealAppRecord hp s.length_iv, s.next_at]
      rfl
  | openRecord wire | openAppRecord wire =>
    cases d with
    | read =>
      by_cases hbody : (recordBody CONTENT_APPDATA .unexpectedRecord wire).isOk
      · obtain ⟨hopen, hopenApp⟩ := Call.step_openRecord (k := k) (t := t) hbody hp s.length_iv
        simp only [hopen, hopenApp, s.next_at, Uses, hbody, if_true]
        rfl
      · rw [Call.step_of_not_pastKeyCheck hrecord fun h => hbody h.1, Uses, if_neg hbody]
        exact hp
    | write =>
      simp only [Call.step, Call.method, Call.discard_snd, openAppRecord_snd]
      exact (frames_openRecord wire c).trans hp
  | _ => cases hrecord

/-- While no other keys are installed, a run uses the nonces of consecutive records. -/
theorem nonces_eq {calls : List Call} (hp : d.field c = some (s.at n))
    (hkept : Machine.Along (Call.step k t) (fun c call => ¬ call.Accepts k t c) c calls) :
    ∃ m, d.nonces k t c calls = (List.range' n m).map (Peer.nonce s.iv) := by
  induction calls generalizing c n with
  | nil => exact ⟨0, rfl⟩
  | cons call calls ih =>
    obtain ⟨m, hm⟩ := ih (field_step hp hkept.1) hkept.2
    rw [nonces, hm, hp]
    split_ifs with huse
    · exact ⟨m + 1, by simp [s.recordNonce_at, Except.toOption, List.range'_succ]⟩
    · exact ⟨m, rfl⟩

/-- **No nonce comes twice under one key** in up to 2^64 records. -/
theorem nonces_nodup {calls : List Call} (hp : d.field c = some (s.at 0))
    (hkept : Machine.Along (Call.step k t) (fun c call => ¬ call.Accepts k t c) c calls)
    (hcount : (d.nonces k t c calls).length ≤ 2 ^ 64) : (d.nonces k t c calls).Nodup := by
  obtain ⟨m, hm⟩ := nonces_eq hp hkept
  rw [hm] at hcount ⊢
  rw [List.length_map, List.length_range'] at hcount
  refine List.Nodup.map_on ?_ List.nodup_range'
  intro i hi j hj h
  have hi' := (List.mem_range'_1.1 hi).2
  have hj' := (List.mem_range'_1.1 hj).2
  exact Peer.nonce_inj s.length_iv (by omega) (by omega) h

end Direction

/-- **The record layer.**  For every suite and secret the client has a protection with
which a peer of the same key and IV reads what the client seals, the client reads what the
peer sends, and no two records of a direction share a nonce while its key is kept. -/
theorem recordLayer_correct (hk : AeadCorrect k) (t : Target) (suite : CipherSuite)
    (secret : Bytes) :
    let s := trafficKeys k suite secret
    ∃ p, protectionOf k suite secret = .ok p ∧
      (∀ (c : Tls13Client) (payloads : List Bytes), c.appWrite = some p →
        (∀ data ∈ payloads, data.length ≤ 65518) →
        ∃ records c', exec (payloads.mapM (sealAppRecord k)) c = (.ok records, c') ∧
          Peer.receive k s 0 records = some (payloads.map (CONTENT_APPDATA, ·))) ∧
      (∀ (c : Tls13Client) (messages : List Peer.Plaintext) (records : List Bytes),
        c.appRead = some p → Peer.send k s 0 messages = some records →
        ∃ c', exec (records.mapM (openRecord k)) c =
          (.ok (messages.map fun m => (m.type, m.content)), c')) ∧
      ∀ (c : Tls13Client) (d : Direction) (calls : List Call), d.field c = some p →
        Machine.Along (Call.step k t) (fun c call => ¬ call.Accepts k t c) c calls →
        (d.nonces k t c calls).length ≤ 2 ^ 64 → (d.nonces k t c calls).Nodup :=
  ⟨_, protectionOf_eq k suite secret, fun _ _ hp hsized => receive_sealed hk hp hsized,
    fun _ _ _ hp hsent => open_sent hk hp hsent,
    fun _ _ _ hp hkept hcount => Direction.nonces_nodup hp hkept hcount⟩

/-- The sample AEAD is one. -/
theorem aeadCorrect_sampleCrates : AeadCorrect sampleCrates where
  takes := fun _ _ _ _ => rfl
  overhead := by
    rintro suite key nonce msg aad sealed ⟨⟩
    simp [sampleTag]
  opens := by
    rintro suite key nonce msg aad sealed ⟨⟩
    have hmsg : (msg ++ sampleTag key nonce msg aad).take
        ((msg ++ sampleTag key nonce msg aad).length - TAG_LEN) = msg :=
      List.take_left' (by simp [sampleTag])
    simp only [sampleCrates]
    rw [hmsg, if_pos rfl]

/-- Two payloads, one of zeros, from a client with fresh keys. -/
theorem recordLayer_correct_sample : ∃ p records c',
    protectionOf sampleCrates .aes128GcmSha256 [1] = .ok p ∧
    exec ([[1, 0, 0], [0]].mapM (sealAppRecord sampleCrates))
      { Tls13Client.new with appWrite := some p } = (.ok records, c') ∧
    Peer.receive sampleCrates (trafficKeys sampleCrates .aes128GcmSha256 [1]) 0 records =
      some [(CONTENT_APPDATA, [1, 0, 0]), (CONTENT_APPDATA, [0])] := by
  obtain ⟨p, hp, hseal, -⟩ :=
    recordLayer_correct aeadCorrect_sampleCrates .aarch64 .aes128GcmSha256 [1]
  obtain ⟨records, c', hrun, hread⟩ := hseal { Tls13Client.new with appWrite := some p }
    [[1, 0, 0], [0]] rfl (by decide)
  exact ⟨p, records, c', hp, hrun, hread⟩

end ShadeVpn.Tls13
