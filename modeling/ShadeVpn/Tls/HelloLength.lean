import ShadeVpn.Tls.ClientHello

/-!
# How long a ClientHello is

The padding of `build_client_hello` is measured against a total that counts the host
name twice: in the extensions written so far and again in `sni_overhead`.

* `sound_buildClientHello_iff` — the total is even, and of the two guards `total < 512`
  and `512 - 4 - total` only a total of 510 comes between: a host of 141 bytes.
* `inWindow_iff` — every byte of the host takes two bytes off the padding, so that a
  padded hello gets shorter as the host gets longer, and is in the window that the
  padding is for only for hosts of 37 to 100 bytes.
-/

namespace ShadeVpn.Tls

open Octets Checked

variable {σ : Type} [Alphabet σ]

/-! ## Lengths -/

theorem length_pushExtension (e : Extension σ) : (pushExtension e).length = 4 + e.2.length := by
  simp [pushExtension]
  omega

theorem length_helloRecord (body : List σ) : (helloRecord body).length = 9 + body.length := by
  simp [helloRecord]
  omega

theorem length_helloBody (random : List.Vector σ 32) (sid exts : List σ) :
    (helloBody random sid exts).length = 73 + sid.length + exts.length := by
  have hsuites : cipherSuites.length = 32 := rfl
  simp [helloBody, helloTail, hsuites]
  omega

theorem length_flatMap_pushExtension (es : List (Extension σ)) :
    (es.flatMap pushExtension).length = (es.map fun e => 4 + e.2.length).sum := by
  rw [List.length_flatMap]
  simp only [length_pushExtension]

theorem length_le_flatMap {es : List (Extension σ)} {e : Extension σ} (h : e ∈ es) :
    e.2.length ≤ (es.flatMap pushExtension).length := by
  have hmem : (pushExtension e).length ∈ es.map fun e => (pushExtension e).length :=
    List.mem_map_of_mem h
  have := List.single_le_sum (fun _ _ => Nat.zero_le _) _ hmem
  rw [List.length_flatMap]
  rw [length_pushExtension] at this
  omega

theorem length_fixedExtensions : (fixedExtensions.map fun e => 4 + e.2.length).sum = 164 := by
  decide

/-- `sni_overhead`, which is also what the server name takes among the extensions. -/
def sniOverhead (sni : Option String) : ℕ := if sni.isSome then 9 + sniLen sni else 0

@[simp] theorem sniOverhead_none : sniOverhead none = 0 := rfl

@[simp] theorem sniOverhead_some (host : String) :
    sniOverhead (some host) = 9 + (utf8 host).length := rfl

theorem length_serverNameExtensions (sni : Option String) :
    ((serverNameExtensions sni : List (Extension σ)).map fun e => 4 + e.2.length).sum =
      sniOverhead sni := by
  cases sni with
  | none => rfl
  | some host =>
    simp only [serverNameExtensions, serverNameBody, List.map_cons, List.map_nil, List.sum_cons,
      List.sum_nil, length_lits, List.length_append, List.length_cons, length_toBE,
      sniOverhead_some]
    omega

/-- The extensions before the padding. -/
theorem length_unpadded (sni : Option String) (pub : List.Vector σ 32) :
    ((helloExtensions sni pub).flatMap pushExtension).length = 210 + sniOverhead sni := by
  have hfixed : ((fixedExtensions.map fun e => ((e.1, lits e.2) : Extension σ)).map
      fun e => 4 + e.2.length).sum = 164 := by
    rw [List.map_map, ← length_fixedExtensions]
    simp only [Function.comp_def, length_lits]
  have hshare : (keyShareBody pub).length = 38 := by simp [keyShareBody]
  rw [length_flatMap_pushExtension, helloExtensions, List.map_cons, List.map_append,
    List.map_append, List.sum_cons, List.sum_append, List.sum_append, hfixed,
    length_serverNameExtensions]
  simp only [List.map_cons, List.map_nil, List.sum_cons, List.sum_nil, hshare, List.length_nil]
  omega

/-- **The padding length**: the total is even, so that it is above 508 and below 512 only
at 510. -/
theorem helloPaddingLen_eq (sni : Option String) :
    helloPaddingLen sni (210 + sniOverhead sni) =
      if sniOverhead sni = 150 then .error .subOverflow
      else .ok (508 - (210 + 2 * sniOverhead sni)) := by
  have htotal : 210 + sniOverhead sni + (if sni.isSome then 9 + sniLen sni else 0) =
      210 + 2 * sniOverhead sni := by
    rw [sniOverhead]
    omega
  rw [helloPaddingLen, htotal]
  split_ifs with hlt hfault hfault
  · rw [sub, if_neg (by omega)]
  · rw [sub_eq_ok (by omega)]
  · omega
  · congr 1
    omega

theorem length_paddingExtensions (n : ℕ) :
    ((paddingExtensions n : List (Extension σ)).flatMap pushExtension).length =
      if 0 < n then 4 + n else 0 := by
  rw [paddingExtensions]
  split_ifs
  · simp only [List.flatMap_cons, List.flatMap_nil, List.append_nil, length_pushExtension,
      length_lits, List.length_replicate]
  · rfl

theorem length_helloExtensionsBlock (sni : Option String) (pub : List.Vector σ 32) (n : ℕ) :
    (helloExtensionsBlock sni pub n).length =
      210 + sniOverhead sni + if 0 < n then 4 + n else 0 := by
  rw [helloExtensionsBlock, List.flatMap_append, List.length_append, length_unpadded,
    length_paddingExtensions]

/-- The body of a hello whose server name takes `overhead` bytes. -/
def bodyLen (overhead sidLen : ℕ) : ℕ :=
  73 + sidLen + if overhead < 149 then 512 - overhead else 210 + overhead

theorem length_helloBody_padded (sni : Option String) (pub random : List.Vector σ 32)
    (sid : List σ) :
    (helloBody random sid (helloExtensionsBlock sni pub
      (508 - (210 + 2 * sniOverhead sni)))).length = bodyLen (sniOverhead sni) sid.length := by
  rw [length_helloBody, length_helloExtensionsBlock, bodyLen]
  split_ifs <;> omega

/-- **What the builder does**, told from lengths alone. -/
theorem buildClientHello_eq (sni : Option String) (pub random : List.Vector σ 32)
    (sid : List σ) :
    buildClientHello sni pub random sid =
      if MAX_SESSION_ID_LEN < sid.length then .error (.err .shortIdTooLong)
      else if sniOverhead sni = 150 then .error .subOverflow
      else if 0xFFFFFF < bodyLen (sniOverhead sni) sid.length then .error .panic
      else .ok (helloRecord (helloBody random sid
        (helloExtensionsBlock sni pub (508 - (210 + 2 * sniOverhead sni))))) := by
  rw [buildClientHello, length_unpadded, helloPaddingLen_eq]
  by_cases hsid : MAX_SESSION_ID_LEN < sid.length
  · rw [if_pos hsid, if_pos hsid]
  rw [if_neg hsid, if_neg hsid]
  by_cases hfault : sniOverhead sni = 150
  · rw [if_pos hfault, if_pos hfault]
    rfl
  rw [if_neg hfault, if_neg hfault, ← length_helloBody_padded]
  rfl

/-- **The builder returns** a hello whose message fits the record for every host
name of sensible length but one: at 141 bytes the padding length is negative. -/
theorem buildClientHello_ok {host : String} (pub random : List.Vector σ 32) {sid : List σ}
    (hhost : (utf8 host).length < 64000) (hfault : (utf8 host).length ≠ 141)
    (hsid : sid.length ≤ 32) :
    ∃ record, buildClientHello (some host) pub random sid = .ok record ∧
      record.length < 5 + 65536 := by
  have hbody := length_helloBody_padded (some host) pub random sid
  have hlen : bodyLen (sniOverhead (some host)) sid.length ≤ 65000 := by
    rw [bodyLen, sniOverhead_some]
    split_ifs <;> omega
  refine ⟨_, by rw [buildClientHello_eq, if_neg (by rw [MAX_SESSION_ID_LEN]; omega),
    if_neg (by rw [sniOverhead_some]; omega), if_neg (by omega)], ?_⟩
  rw [length_helloRecord, hbody]
  omega

/-! ## Totality -/

/-- The lengths with which the builder comes to an end. -/
def Constructible (sni : Option String) (sidLen : ℕ) : Prop :=
  MAX_SESSION_ID_LEN < sidLen ∨
    ∀ host ∈ sni, (utf8 host).length ≠ 141 ∧ sidLen + (utf8 host).length ≤ 16776923

theorem constructible_iff (sni : Option String) (sidLen : ℕ) :
    Constructible sni sidLen ↔ MAX_SESSION_ID_LEN < sidLen ∨
      (sniOverhead sni ≠ 150 ∧ bodyLen (sniOverhead sni) sidLen ≤ 0xFFFFFF) := by
  rw [Constructible]
  refine or_congr_right' fun hsid => ?_
  rw [MAX_SESSION_ID_LEN] at hsid
  cases sni with
  | none =>
    refine iff_of_true (by simp) ⟨by decide, ?_⟩
    rw [bodyLen, sniOverhead_none, if_pos (by decide)]
    omega
  | some host =>
    have hbody : bodyLen (sniOverhead (some host)) sidLen ≤ 0xFFFFFF ↔
        sidLen + (utf8 host).length ≤ 16776923 := by
      rw [bodyLen, sniOverhead_some]
      split_ifs <;> omega
    rw [hbody, sniOverhead_some]
    simp only [Option.mem_some_iff, forall_eq']
    omega

/-- **The builder returns `Ok` or `Err`** unless the host has 141 bytes, or the body is too
long for the assertion of `push_u24`. -/
theorem sound_buildClientHello_iff (sni : Option String) (pub random : List.Vector σ 32)
    (sid : List σ) :
    Sound (buildClientHello sni pub random sid) ↔ Constructible sni sid.length := by
  rw [buildClientHello_eq, constructible_iff]
  split_ifs with hsid hfault hlong
  · exact iff_of_true (sound_err _) (Or.inl hsid)
  · exact iff_of_false (fun hs => by simpa using hs _ rfl) fun h => by omega
  · exact iff_of_false (fun hs => by simpa using hs _ rfl) fun h => by omega
  · exact iff_of_true (sound_ok _) (Or.inr ⟨hfault, not_lt.1 hlong⟩)

/-- A host of 141 bytes. -/
def longHost : String := String.ofList (List.replicate 141 'a')

theorem not_sound_buildClientHello : ¬ ∀ (sni : Option String)
    (pub random : List.Vector UInt8 32) (sid : List UInt8),
    Sound (buildClientHello sni pub random sid) := by
  intro hall
  have hs := hall (some longHost) (List.Vector.replicate 32 0) (List.Vector.replicate 32 0) []
  have hlen : (utf8 longHost).length = 141 := by decide +kernel
  rw [buildClientHello_eq, sniOverhead_some, hlen] at hs
  obtain ⟨v, hv⟩ := hs _ rfl
  cases hv

/-! ## The window -/

/-- The builder emits the padding extension. -/
def EmitsPadding (sni : Option String) (pub : List.Vector σ 32) : Prop :=
  ∃ n, 0 < n ∧
    helloPaddingLen sni ((helloExtensions sni pub).flatMap pushExtension).length = .ok n

theorem emitsPadding_iff (sni : Option String) (pub : List.Vector σ 32) :
    EmitsPadding sni pub ↔ sniOverhead sni < 149 := by
  rw [EmitsPadding, length_unpadded, helloPaddingLen_eq]
  split_ifs with hfault
  · exact iff_of_false (by rintro ⟨n, -, hn⟩; cases hn) (by omega)
  · constructor
    · rintro ⟨n, hpos, hn⟩
      cases hn
      omega
    · exact fun h => ⟨_, by omega, rfl⟩

/-- The handshake message of a record is as long as a padded one should be. -/
def InWindow (record : List σ) : Prop := 512 ≤ record.length - 5 ∧ record.length - 5 < 576

/-- **A padded hello is the shorter the longer the host.** -/
theorem length_padded {host : String} {pub random : List.Vector σ 32} {sid record : List σ}
    (hsid : sid.length = 32) (hpad : EmitsPadding (some host) pub)
    (h : buildClientHello (some host) pub random sid = .ok record) :
    record.length + (utf8 host).length = 617 := by
  rw [emitsPadding_iff, sniOverhead_some] at hpad
  rw [buildClientHello_eq, sniOverhead_some] at h
  split_ifs at h
  cases h
  rw [length_helloRecord, length_helloBody, length_helloExtensionsBlock, sniOverhead_some, hsid]
  split_ifs <;> omega

/-- **The window is reached** for hosts of 37 to 100 bytes. -/
theorem inWindow_iff {host : String} {pub random sid : List.Vector σ 32} {record : List σ}
    (hpad : EmitsPadding (some host) pub)
    (h : buildClientHello (some host) pub random sid.toList = .ok record) :
    InWindow record ↔ 37 ≤ (utf8 host).length ∧ (utf8 host).length ≤ 100 := by
  have hlen := length_padded sid.toList_length hpad h
  rw [emitsPadding_iff, sniOverhead_some] at hpad
  rw [InWindow]
  omega

/-- Thirty-two zeros. -/
def zeros : List.Vector UInt8 32 := List.Vector.replicate 32 0

theorem inWindow_forty : ∃ record,
    buildClientHello (some "a-host-name-that-has-forty-bytes.example") zeros zeros zeros.toList =
      .ok record ∧ InWindow record := by
  have hlen : (utf8 "a-host-name-that-has-forty-bytes.example").length = 40 := by decide +kernel
  obtain ⟨record, h, -⟩ := @buildClientHello_ok _ _ "a-host-name-that-has-forty-bytes.example" zeros
    zeros _ (by omega) (by omega) zeros.toList_length.le
  have hpad : EmitsPadding (some "a-host-name-that-has-forty-bytes.example") zeros :=
    (emitsPadding_iff _ _).2 (by rw [sniOverhead_some, hlen]; decide)
  exact ⟨record, h, (inWindow_iff hpad h).2 (hlen ▸ by decide)⟩

theorem not_inWindow : ¬ ∀ (host : String) (pub random sid : List.Vector UInt8 32)
    (record : List UInt8), EmitsPadding (some host) pub →
    buildClientHello (some host) pub random sid.toList = .ok record → InWindow record := by
  intro hall
  have hlen : (utf8 "example.com").length = 11 := by decide +kernel
  obtain ⟨record, h, -⟩ := @buildClientHello_ok _ _ "example.com" zeros
    zeros _ (by omega) (by omega) zeros.toList_length.le
  have hpad : EmitsPadding (some "example.com") zeros :=
    (emitsPadding_iff _ _).2 (by rw [sniOverhead_some, hlen]; decide)
  have hrecord := length_padded zeros.toList_length hpad h
  have hwindow := hall _ _ _ _ _ hpad h
  rw [InWindow] at hwindow
  omega

end ShadeVpn.Tls
