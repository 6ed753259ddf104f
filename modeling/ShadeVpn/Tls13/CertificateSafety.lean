import ShadeVpn.Tls13.Certificate

/-!
# The key parsers on hostile certificates

`Der.value` is the value at a cursor with no machine word in the way; `Der.tlv`
reads it wherever the declared end is a `usize` (`Der.tlv_eq_value`), and faults
where it is not.  The key parsers slice nothing out of bounds on their own
(`safe_parseLeafKey`), so they can fault only at the cursors they read a value at
(`keyCursors`): `parseLeafKey_sound`.
-/

namespace ShadeVpn.Tls13

open Octets Checked

/-! ## What the walker reads -/

namespace Der

/-- The header of the value at the cursor: its tag, the position behind the length
bytes and the declared length. -/
def header (d : Der) : Option (UInt8 × ℕ × ℕ) :=
  if h : d.pos + 2 ≤ d.buf.length then
    let first := d.buf[d.pos + 1].toNat
    let n := first &&& 0x7f
    if first > 0x80 then
      if n = 0 ∨ n > 4 ∨ d.pos + 2 + n > d.buf.length then none
      else some (d.buf[d.pos], d.pos + 2 + n, ofBE ((d.buf.drop (d.pos + 2)).take n))
    else some (d.buf[d.pos], d.pos + 2, first)
  else none

/-- The value at the cursor, whatever the width of `usize`. -/
def value (d : Der) : Except (Stop Unit) (UInt8 × Bytes × Der) :=
  match d.header with
  | none => .error (.err ())
  | some (tag, p, l) =>
    if p + l > d.buf.length then .error (.err ())
    else .ok (tag, (d.buf.drop p).take l, ⟨d.buf, p + l⟩)

/-- The end of the value, as its header declares it, is a `usize`. -/
def Fits (t : Target) (d : Der) : Prop :=
  ∀ tag p l, d.header = some (tag, p, l) → p + l < 2 ^ t.bits

/-- **`tlv` reads the value** if its declared end is a `usize`. -/
theorem tlv_eq_value {t : Target} {d : Der} (h : d.Fits t) : d.tlv t = d.value := by
  by_cases hshort : d.pos + 2 > d.buf.length
  · have hnone : d.header = none := dif_neg (by omega)
    rw [tlv, if_pos hshort, value, hnone]
  have hlong : d.pos + 2 ≤ d.buf.length := by omega
  have hheader : d.header = _ := dif_pos hlong
  rw [tlv, if_neg hshort, index_eq_ok (by omega), index_eq_ok (by omega), value]
  simp only [bind, Except.bind] at hheader ⊢
  by_cases hform : d.buf[d.pos + 1].toNat > 0x80
  · rw [if_pos hform] at hheader ⊢
    split_ifs at hheader ⊢ with hbad
    · rw [hheader]
    · rw [hheader]
      have hfits := h _ _ _ hheader
      rw [slice_add_eq_ok (by omega)]
      simp only
      rw [add_eq_ok hfits]
      simp only
      split_ifs with hpast
      · rfl
      · rw [slice_add_eq_ok (by omega)]
  · rw [if_neg hform] at hheader ⊢
    rw [hheader]
    dsimp only
    split_ifs with hpast
    · rfl
    · rw [slice_add_eq_ok (by omega)]

/-- `tlv` faults on a value whose declared end is not a `usize`, in a buffer that is
not near the end of the address space. -/
theorem tlv_not_sound {t : Target} {d : Der} (hbuf : d.buf.length + 256 ≤ 2 ^ t.bits)
    (h : ¬ d.Fits t) : ¬ Sound (d.tlv t) := by
  simp only [Fits, not_forall, not_lt] at h
  obtain ⟨tag, p, l, hheader, hpast⟩ := h
  rw [header] at hheader
  split_ifs at hheader with hlong
  dsimp only at hheader
  rw [tlv, if_neg (by omega), index_eq_ok (by omega), index_eq_ok (by omega)]
  simp only [bind, Except.bind]
  by_cases hform : d.buf[d.pos + 1].toNat > 0x80
  · rw [if_pos hform] at hheader ⊢
    split_ifs at hheader ⊢ with hbad
    cases hheader
    rw [slice_add_eq_ok (by omega)]
    simp only
    rw [add_eq_overflow hpast]
    exact fun hs => by simpa using hs _ rfl
  · rw [if_neg hform] at hheader
    cases hheader
    omega

/-- What a header declares, and where it ends. -/
theorem header_bounds {d : Der} {tag : UInt8} {p l : ℕ} (h : d.header = some (tag, p, l)) :
    d.pos + 2 ≤ p ∧ p ≤ d.buf.length ∧ l < 2 ^ 32 := by
  rw [header] at h
  split_ifs at h with hlong
  dsimp only at h
  split_ifs at h with hform hbad
  · cases h
    have hlt := ofBE_lt ((d.buf.drop (d.pos + 2)).take (d.buf[d.pos + 1].toNat &&& 0x7f))
    refine ⟨by omega, by omega, lt_of_lt_of_le hlt ?_⟩
    calc 256 ^ ((d.buf.drop (d.pos + 2)).take (d.buf[d.pos + 1].toNat &&& 0x7f)).length
        ≤ 256 ^ 4 := Nat.pow_le_pow_right (by decide) (by rw [List.length_take]; omega)
      _ = 2 ^ 32 := by norm_num
  · cases h
    have := UInt8.toNat_lt d.buf[d.pos + 1]
    exact ⟨by omega, hlong, by omega⟩

/-- On 64 bits the end of a value fits, in any buffer there can be. -/
theorem fits_aarch64 {d : Der} (h : d.buf.length < 2 ^ 63) : d.Fits .aarch64 := by
  intro tag p l hheader
  obtain ⟨-, hp, hl⟩ := header_bounds hheader
  have hbits : 2 ^ Target.aarch64.bits = 2 ^ 64 := rfl
  rw [hbits]
  omega

theorem value_sound (d : Der) : Sound d.value := by
  rw [value]
  split
  · exact sound_err ()
  · split_ifs
    · exact sound_err ()
    · exact sound_ok _

/-- What a read value is: a part of the buffer, and the cursor moves on. -/
structure Reads (d : Der) (r : UInt8 × Bytes × Der) : Prop where
  content_le : r.2.1.length ≤ d.buf.length
  buf : r.2.2.buf = d.buf
  le_pos : d.pos ≤ r.2.2.pos
  pos_le : r.2.2.pos ≤ d.buf.length

theorem reads_of_value {d : Der} {r : UInt8 × Bytes × Der} (h : d.value = .ok r) : d.Reads r := by
  rw [value] at h
  split at h
  · cases h
  · next tag p l hheader =>
    obtain ⟨hpos, -, -⟩ := header_bounds hheader
    split_ifs at h with hpast
    cases h
    refine ⟨?_, rfl, ?_, ?_⟩
    · simp only [List.length_take, List.length_drop]
      omega
    · dsimp only
      omega
    · dsimp only
      omega

end Der

/-! ## The key parsers do not fault of themselves -/

/-- A cursor in a buffer of at most `B` bytes. -/
structure Der.Within (B : ℕ) (d : Der) : Prop where
  buf_le : d.buf.length ≤ B
  pos_le : d.pos ≤ d.buf.length

/-- Programs whose cursors stay within `B` bytes and that do not fault. -/
abbrev DerProg.Safe {α : Type} (B : ℕ) (post : α → Prop) (p : DerProg α) : Prop :=
  Query.Prog.Safe (Der.Within B) Der.Reads post p

open Query.Prog

variable {B : ℕ} {d : Der}

theorem within_zero {buf : Bytes} (h : buf.length ≤ B) : Der.Within B ⟨buf, 0⟩ := ⟨h, Nat.zero_le _⟩

theorem Der.Reads.within {r : UInt8 × Bytes × Der} (h : d.Reads r) (hd : d.Within B) :
    r.2.2.Within B := ⟨h.buf ▸ hd.buf_le, h.buf ▸ h.pos_le⟩

theorem safe_expect (hd : d.Within B) (tag : UInt8) :
    DerProg.Safe B (fun r : Bytes × Der => r.1.length ≤ B ∧ r.2.Within B) (expect tag d) := by
  refine Safe.bind (Safe.call hd) fun ⟨found, content, d'⟩ hr => ?_
  dsimp only
  split_ifs
  · exact Safe.fail ()
  · exact Safe.pure ⟨hr.content_le.trans hd.buf_le, hr.within hd⟩

theorem safe_tlvFull (hd : d.Within B) :
    DerProg.Safe B (fun r : UInt8 × Bytes × Der => r.2.1.length ≤ B) (tlvFull d) := by
  refine Safe.bind (Safe.call hd) fun r hr => ?_
  refine Safe.bind (Safe.lift (slice_eq_ok hr.le_pos hr.pos_le) ?_) fun full hfull => Safe.pure hfull
  simp only [List.length_drop, List.length_take]
  have := hd.buf_le
  omega

theorem safe_skipSequences (n : ℕ) (hd : d.Within B) :
    DerProg.Safe B (Der.Within B) (skipSequences n d) := by
  induction n generalizing d with
  | zero => exact Safe.pure hd
  | succ n ih => exact Safe.bind (safe_expect hd 0x30) fun r hr => ih hr.2

theorem safe_parseCertSpki {der : Bytes} (h : der.length ≤ B) :
    DerProg.Safe B (fun spki => spki.length ≤ B) (parseCertSpki der) := by
  refine Safe.bind (safe_expect (within_zero h) 0x30) fun cert hcert => ?_
  refine Safe.bind (safe_expect (within_zero hcert.1) 0x30) fun tbs htbs => ?_
  refine Safe.bind (Safe.call (within_zero htbs.1)) fun r hr => ?_
  have hd : Der.Within B (if r.1 = 0xa0 then r.2.2 else ⟨tbs.1, 0⟩) := by
    split_ifs
    · exact hr.within (within_zero htbs.1)
    · exact within_zero htbs.1
  refine Safe.bind (safe_expect hd 0x02) fun serial hserial => ?_
  refine Safe.bind (safe_skipSequences 4 hserial.2) fun d' hd' => ?_
  refine Safe.bind (safe_tlvFull hd') fun ⟨tag, spki, _⟩ hspki => ?_
  dsimp only
  split_ifs
  · exact Safe.fail ()
  · exact Safe.pure hspki

theorem safe_unsigned (n : Bytes) : DerProg.Safe B (fun _ => True) (liftM (unsigned n)) := by
  rw [unsigned]
  split_ifs with h
  · have hpos : 1 ≤ n.length := List.length_pos_of_ne_nil (by rintro rfl; cases h)
    exact Safe.lift (slice_eq_ok hpos le_rfl) trivial
  · exact Safe.lift rfl trivial

theorem safe_parseRsaSpki {der : Bytes} (h : der.length ≤ B) :
    DerProg.Safe B (fun _ => True) (parseRsaSpki der) := by
  refine Safe.bind (safe_expect (within_zero h) 0x30) fun spki hspki => ?_
  refine Safe.bind (safe_expect (within_zero hspki.1) 0x30) fun alg halg => ?_
  refine Safe.bind (safe_expect halg.2 0x03) fun ⟨bitstr, _⟩ hbitstr => ?_
  dsimp only
  split_ifs with hhead
  · exact Safe.fail ()
  refine Safe.bind (safe_expect (within_zero halg.1) 0x06) fun ⟨oid, _⟩ hoid => ?_
  dsimp only
  split_ifs with hrsa
  · exact Safe.fail ()
  have hpos : 1 ≤ bitstr.length :=
    List.length_pos_of_ne_nil (by rintro rfl; simp at hhead)
  have hkey : ((bitstr.take bitstr.length).drop 1).length ≤ B := by
    rw [List.length_drop, List.take_length]
    exact (Nat.sub_le _ _).trans hbitstr.1
  have hslice : DerProg.Safe B (fun k : Bytes => k.length ≤ B)
      (liftM (slice bitstr 1 bitstr.length : Except (Stop Unit) Bytes)) :=
    Safe.lift (slice_eq_ok hpos le_rfl) hkey
  refine Safe.bind hslice fun keyDer hkeyDer => ?_
  refine Safe.bind (safe_expect (within_zero hkeyDer) 0x30) fun seq hseq => ?_
  refine Safe.bind (safe_expect (within_zero hseq.1) 0x02) fun n hn => ?_
  refine Safe.bind (safe_expect hn.2 0x02) fun e he => ?_
  refine Safe.bind (safe_unsigned n.1) fun _ _ => ?_
  exact Safe.bind (safe_unsigned e.1) fun _ _ => Safe.pure trivial

theorem safe_parseLeafKey {leaf : Bytes} (h : leaf.length ≤ B) :
    DerProg.Safe B (fun _ => True) (parseLeafKey leaf) :=
  Safe.bind (safe_parseCertSpki h) fun _ hspki => safe_parseRsaSpki hspki

/-- The cursors at which the key parsers read a value of the leaf certificate. -/
def keyCursors (leaf : Bytes) : List Der := (parseLeafKey leaf).asked Der.value

theorem parseLeafKey_safe (leaf : Bytes) :
    Sound ((parseLeafKey leaf).run Der.value) ∧ ∀ d ∈ keyCursors leaf, Der.Within leaf.length d :=
  (safe_parseLeafKey le_rfl).run Der.value_sound
    fun _ _ (_ : Der.Within leaf.length _) hr => Der.reads_of_value hr

/-- **The key parsers do not fault** if every value they read has its declared end
within `usize`, and on 64 bits not at all. -/
theorem parseLeafKey_sound {t : Target} {leaf : Bytes} (hleaf : leaf.length < 2 ^ 32)
    (h : t = .armv7 → ∀ d ∈ keyCursors leaf, d.Fits t) :
    Sound ((parseLeafKey leaf).run (Der.tlv t)) := by
  obtain ⟨hsound, hwithin⟩ := parseLeafKey_safe leaf
  have hagree : ∀ d ∈ (parseLeafKey leaf).asked Der.value, d.tlv t = d.value := by
    intro d hd
    refine Der.tlv_eq_value ?_
    cases t with
    | armv7 => exact h rfl d hd
    | aarch64 =>
      have hbuf := lt_of_le_of_lt (hwithin d hd).buf_le hleaf
      exact Der.fits_aarch64 (hbuf.trans (by norm_num))
  rw [run_congr hagree]
  exact hsound

/-- And they do fault if one of those values has not, in a leaf of fewer than 2^24 bytes. -/
theorem not_sound_parseLeafKey {leaf : Bytes} (hleaf : leaf.length < 2 ^ 24)
    (h : ∃ d ∈ keyCursors leaf, ¬ d.Fits .armv7) :
    ¬ Sound ((parseLeafKey leaf).run (Der.tlv .armv7)) := by
  have hfault : ∀ d ∈ keyCursors leaf, ¬ d.Fits .armv7 → ¬ Sound (d.tlv .armv7) := by
    intro d hd hfits
    refine Der.tlv_not_sound ?_ hfits
    have hbits : 2 ^ Target.armv7.bits = 2 ^ 32 := rfl
    have := ((parseLeafKey_safe leaf).2 d hd).buf_le
    omega
  have hagree : ∀ d ∈ (parseLeafKey leaf).asked Der.value,
      d.tlv .armv7 = d.value ∨ ¬ Sound (d.tlv .armv7) := by
    intro d hd
    by_cases hfits : d.Fits .armv7
    · exact Or.inl (Der.tlv_eq_value hfits)
    · exact Or.inr (hfault d hd hfits)
  obtain ⟨d, hd, hfits⟩ := h
  exact not_sound_run hagree ⟨d, hd, hfault d hd hfits⟩

example : (parseLeafKey [0x30, 0x84, 0xff, 0xff, 0xff, 0xff]).run (Der.tlv .armv7) =
    .error .addOverflow := by decide +kernel

example : (parseLeafKey [0x30, 0x84, 0xff, 0xff, 0xff, 0xff]).run (Der.tlv .aarch64) =
    .error (.err ()) := by decide +kernel

end ShadeVpn.Tls13
