import ShellChain.Primitives.WireBijection

/-!
# The decoder on arbitrary bytes

No byte string makes the decoder read out of range or reach the branch behind
the tag gate. Below the envelope every decoder but the payload's fails only as
malformed; the payload decoder adds one error of its own, for a tag that is
neither of the two it knows. The envelope decoder therefore reports an
unsupported variant exactly when both offsets are in order and the payload
section starts with such a tag.
-/

namespace ShellPrimitives.Codec

open ByteCodec Except

/-- The fault is a returned `MalformedSsz` error. -/
def IsMalformed (fault : Fault PrimitiveError) : Prop :=
  ∃ context, fault = .error (.malformedSsz context)

theorem failsOnly_fail {α : Type} (context : String) :
    FailsOnly IsMalformed (fail context : Decode α) :=
  .error ⟨context, rfl⟩

/-! ## Fields -/

theorem failsOnly_readWindow (n : Nat) (context : String) (bytes : List UInt8) (offset : Nat) :
    FailsOnly IsMalformed (readWindow n context bytes offset) := by
  rw [readWindow]
  cases window bytes offset n with
  | none => exact failsOnly_fail context
  | some v => exact .ok v

theorem failsOnly_readU64 (bytes : List UInt8) (offset : Nat) :
    FailsOnly IsMalformed (readU64 bytes offset) :=
  .bind (failsOnly_readWindow 8 _ bytes offset) fun _ _ => .ok _

theorem failsOnly_readU32 (bytes : List UInt8) (offset : Nat) :
    FailsOnly IsMalformed (readU32 bytes offset) :=
  .bind (failsOnly_readWindow 4 _ bytes offset) fun _ _ => .ok _

theorem failsOnly_readBytes32 (bytes : List UInt8) (offset : Nat) :
    FailsOnly IsMalformed (readBytes32 bytes offset) :=
  failsOnly_readWindow 32 _ bytes offset

theorem failsOnly_readAddress (bytes : List UInt8) (offset : Nat) :
    FailsOnly IsMalformed (readAddress bytes offset) :=
  failsOnly_readWindow 20 _ bytes offset

theorem failsOnly_readFees (bytes : List UInt8) (offset : Nat) :
    FailsOnly IsMalformed (readFees bytes offset) := by
  apply FailsOnly.bind (failsOnly_readBytes32 bytes offset)
  intro regular _
  apply FailsOnly.bind (failsOnly_readBytes32 bytes (offset + 32))
  intro priority _
  apply FailsOnly.bind (failsOnly_readBytes32 bytes (offset + 64))
  intro witness _
  exact .ok _

/-- The length check in front of a fixed part is what keeps the slice behind it in range. -/
theorem failsOnly_lastField {α : Type} {bytes : List UInt8} {size : Nat} {offset : UInt32}
    {message : String} (long : ¬ bytes.length < size) (build : List UInt8 → α) :
    FailsOnly IsMalformed (if offset.toNat ≠ size then fail message
      else do
        let rest ← slice bytes size bytes.length
        .ok (build rest) : Decode α) := by
  apply FailsOnly.ite
  · intro _
    exact failsOnly_fail _
  · intro _
    refine FailsOnly.bind (.of_eq_ok (slice_to_end (Nat.le_of_not_lt long))) ?_
    intro rest _
    exact .ok _

theorem failsOnly_index_zero {bytes : List UInt8} (nonempty : 0 < bytes.length) :
    FailsOnly IsMalformed (index bytes 0) := by
  cases bytes with
  | nil => exact absurd nonempty (Nat.lt_irrefl 0)
  | cons first rest => exact .ok first

/-! ## Payloads and authorizations -/

theorem failsOnly_decodeBasic (bytes : List UInt8) :
    FailsOnly IsMalformed (decodeBasic bytes) := by
  apply FailsOnly.ite
  · intro _
    exact failsOnly_fail _
  · intro hsize
    apply FailsOnly.bind (failsOnly_readBytes32 bytes 0)
    intro chainId _
    apply FailsOnly.bind (failsOnly_readU64 bytes 32)
    intro nonce _
    apply FailsOnly.bind (failsOnly_readU64 bytes 40)
    intro gasLimit _
    apply FailsOnly.bind (failsOnly_readFees bytes 48)
    intro fees _
    apply FailsOnly.bind (failsOnly_readAddress bytes 144)
    intro toAddress _
    apply FailsOnly.bind (failsOnly_readBytes32 bytes 164)
    intro value _
    apply FailsOnly.bind (failsOnly_readU32 bytes 196)
    intro inputOffset _
    apply FailsOnly.bind (failsOnly_readBytes32 bytes 200)
    intro accessCommitment _
    exact failsOnly_lastField hsize _

theorem failsOnly_decodeCreate (bytes : List UInt8) :
    FailsOnly IsMalformed (decodeCreate bytes) := by
  apply FailsOnly.ite
  · intro _
    exact failsOnly_fail _
  · intro hsize
    apply FailsOnly.bind (failsOnly_readBytes32 bytes 0)
    intro chainId _
    apply FailsOnly.bind (failsOnly_readU64 bytes 32)
    intro nonce _
    apply FailsOnly.bind (failsOnly_readU64 bytes 40)
    intro gasLimit _
    apply FailsOnly.bind (failsOnly_readFees bytes 48)
    intro fees _
    apply FailsOnly.bind (failsOnly_readBytes32 bytes 144)
    intro value _
    apply FailsOnly.bind (failsOnly_readU32 bytes 176)
    intro initcodeOffset _
    apply FailsOnly.bind (failsOnly_readBytes32 bytes 180)
    intro accessCommitment _
    exact failsOnly_lastField hsize _

theorem failsOnly_decodeAuthorization (bytes : List UInt8) :
    FailsOnly IsMalformed (decodeAuthorization bytes) := by
  apply FailsOnly.ite
  · intro _
    exact failsOnly_fail _
  · intro hsize
    have hpositive : 0 < bytes.length := by
      rw [authorizationFixedSize] at hsize
      omega
    apply FailsOnly.bind (failsOnly_index_zero hpositive)
    intro schemeId _
    apply FailsOnly.bind (failsOnly_readBytes32 bytes 1)
    intro payloadRoot _
    apply FailsOnly.bind (failsOnly_readU32 bytes 33)
    intro signatureOffset _
    exact failsOnly_lastField hsize _

/-! ## The authorization list -/

theorem failsOnly_readElementOffset (bytes : List UInt8) (firstOffset i : Nat) :
    FailsOnly IsMalformed (readElementOffset bytes firstOffset i) := by
  apply FailsOnly.bind (failsOnly_readU32 bytes (i * 4))
  intro offset _
  exact .ite (fun _ => failsOnly_fail _) fun _ => .ok _

/-- The element loop indexes and slices in range when its offsets point into the section. -/
theorem failsOnly_decodeElement {bytes : List UInt8} {offsets : List Nat} {i : Nat}
    (known : i < offsets.length) (inside : ∀ o ∈ offsets, o ≤ bytes.length) :
    FailsOnly IsMalformed (decodeElement bytes offsets i) := by
  have hstop := OffsetTable.getD_offset_le inside (i + 1)
  rw [decodeElement, List.getElem?_eq_getElem known]
  change FailsOnly IsMalformed (if offsets[i + 1]?.getD bytes.length < offsets[i] then _ else _)
  apply FailsOnly.ite
  · intro _
    exact failsOnly_fail _
  · intro horder
    refine FailsOnly.bind (.of_eq_ok (slice_eq_ok (Nat.le_of_not_lt horder) hstop)) ?_
    intro element _
    exact failsOnly_decodeAuthorization element

theorem failsOnly_decodeAuthorizationList (bytes : List UInt8) :
    FailsOnly IsMalformed (decodeAuthorizationList bytes) := by
  apply FailsOnly.ite
  · intro _
    exact .ok []
  · intro _
    apply FailsOnly.bind (failsOnly_readU32 bytes 0)
    intro firstOffset _
    apply FailsOnly.ite
    · intro _
      exact failsOnly_fail _
    · intro _
      apply FailsOnly.ite
      · intro _
        exact failsOnly_fail _
      · intro _
        apply FailsOnly.bind (.mapM fun i _ => failsOnly_readElementOffset bytes _ i)
        intro offsets hoffsets
        obtain ⟨hlength, _, hrange⟩ := (offsetLoop_eq_ok_iff _ _ _ _).mp hoffsets
        apply FailsOnly.mapM
        intro i hi
        apply failsOnly_decodeElement
        · rw [hlength]
          exact List.mem_range.mp hi
        · intro o ho
          exact (hrange o ho).2.2

/-! ## The envelope -/

/-- The offset that stands at the front. -/
def firstOffset (b : List UInt8) : Nat := leNat (b.take 4)

/-- The offset that stands behind it. -/
def secondOffset (b : List UInt8) : Nat := leNat ((b.drop 4).take 4)

/-- What lies between the fixed part and the second offset. -/
def payloadSection (b : List UInt8) : List UInt8 :=
  (b.take (secondOffset b)).drop envelopeFixedSize

/-- Both offsets are in order. -/
structure OffsetsInOrder (b : List UInt8) : Prop where
  fixedPart : envelopeFixedSize ≤ b.length
  first : firstOffset b = envelopeFixedSize
  second_low : envelopeFixedSize ≤ secondOffset b
  second_high : secondOffset b ≤ b.length

instance (b : List UInt8) : Decidable (OffsetsInOrder b) :=
  decidable_of_iff (envelopeFixedSize ≤ b.length ∧ firstOffset b = envelopeFixedSize ∧
    envelopeFixedSize ≤ secondOffset b ∧ secondOffset b ≤ b.length)
    ⟨fun ⟨a, b, c, d⟩ => ⟨a, b, c, d⟩, fun ⟨a, b, c, d⟩ => ⟨a, b, c, d⟩⟩

/-- The payload section starts with a tag the decoder does not know. -/
structure UnsupportedVariant (b : List UInt8) (tag : UInt8) : Prop where
  offsets : OffsetsInOrder b
  first : (payloadSection b).head? = some tag
  not_basic : tag ≠ TransactionPayloadSsz.tagBasic
  not_create : tag ≠ TransactionPayloadSsz.tagCreate

theorem readU32_of_inside {bytes : List UInt8} {offset : Nat} (inside : offset + 4 ≤ bytes.length) :
    ∃ v, readU32 bytes offset = .ok v ∧ v.toNat = leNat ((bytes.drop offset).take 4) := by
  have hsize : ((bytes.drop offset).take 4).length = 4 := by
    rw [List.length_take, List.length_drop]
    omega
  have hlt : leNat ((bytes.drop offset).take 4) < 2 ^ 32 := by
    have h := leNat_lt ((bytes.drop offset).take 4)
    rwa [hsize] at h
  refine ⟨UInt32.ofNat (leNat ((bytes.drop offset).take 4)), ?_, UInt32.toNat_ofNat_of_lt' hlt⟩
  rw [readU32, readWindow, window, dif_pos inside]
  rfl

/-- With both offsets in order the decoder hands the two sections on. -/
theorem decodeEnvelope_of_inOrder {b : List UInt8} (h : OffsetsInOrder b) :
    decodeEnvelope b = (do
      let payload ← decodePayload (payloadSection b)
      let authorizations ← decodeAuthorizationList (b.drop (secondOffset b))
      .ok ⟨payload, authorizations⟩) := by
  have hsize : 8 ≤ b.length := h.fixedPart
  obtain ⟨first, hfirst, hfirstValue⟩ := readU32_of_inside (show 0 + 4 ≤ b.length by omega)
  obtain ⟨second, hsecond, hsecondValue⟩ := readU32_of_inside (show 4 + 4 ≤ b.length by omega)
  have hconst : first.toNat = envelopeFixedSize := hfirstValue.trans h.first
  have hsplit : second.toNat = secondOffset b := hsecondValue
  have hlow := h.second_low
  have hhigh := h.second_high
  rw [decodeEnvelope, if_neg (Nat.not_lt.mpr h.fixedPart), hfirst, hsecond]
  simp only [bind, Except.bind, hconst, hsplit, ne_eq, not_true_eq_false, if_false]
  rw [if_neg (by omega), slice_eq_ok hlow hhigh, slice_to_end hhigh]
  rfl

theorem decodeEnvelope_of_not_inOrder {b : List UInt8} (h : ¬ OffsetsInOrder b) :
    ∃ context, decodeEnvelope b = fail context := by
  rw [decodeEnvelope]
  by_cases hsize : b.length < envelopeFixedSize
  · rw [if_pos hsize]
    exact ⟨_, rfl⟩
  · have hfixed : 8 ≤ b.length := Nat.le_of_not_lt hsize
    obtain ⟨first, hfirst, hfirstValue⟩ := readU32_of_inside (show 0 + 4 ≤ b.length by omega)
    obtain ⟨second, hsecond, hsecondValue⟩ := readU32_of_inside (show 4 + 4 ≤ b.length by omega)
    rw [if_neg hsize, hfirst, hsecond]
    simp only [bind, Except.bind]
    by_cases hconst : first.toNat = envelopeFixedSize
    · rw [if_neg (not_not.mpr hconst), hconst]
      have hrange : second.toNat < envelopeFixedSize ∨ second.toNat > b.length := by
        by_contra hinside
        rw [hsecondValue] at hinside
        apply h
        refine ⟨Nat.le_of_not_lt hsize, hfirstValue.symm.trans hconst, ?_, ?_⟩
        · rw [secondOffset]
          omega
        · rw [secondOffset]
          omega
      rw [if_pos hrange]
      exact ⟨_, rfl⟩
    · rw [if_pos hconst]
      exact ⟨_, rfl⟩

/-- The payload decoder fails as malformed, or on its tag. -/
theorem decodePayload_error {bytes : List UInt8} {fault : Fault PrimitiveError}
    (h : decodePayload bytes = .error fault) :
    IsMalformed fault ∨ ∃ tag, bytes.head? = some tag ∧ tag ≠ TransactionPayloadSsz.tagBasic ∧
      tag ≠ TransactionPayloadSsz.tagCreate ∧ fault = .error (.unsupportedPayloadVariant tag) := by
  cases bytes with
  | nil => exact Or.inl (failsOnly_fail (α := TransactionPayloadSsz) _ fault h)
  | cons tag inner =>
    rw [decodePayload_cons] at h
    by_cases hbasic : tag = TransactionPayloadSsz.tagBasic
    · rw [if_pos hbasic] at h
      exact Or.inl (FailsOnly.bind (failsOnly_decodeBasic inner) (fun _ _ => .ok _) fault h)
    · by_cases hcreate : tag = TransactionPayloadSsz.tagCreate
      · rw [if_neg hbasic, if_pos hcreate] at h
        exact Or.inl (FailsOnly.bind (failsOnly_decodeCreate inner) (fun _ _ => .ok _) fault h)
      · rw [if_neg hbasic, if_neg hcreate] at h
        exact Or.inr ⟨tag, rfl, hbasic, hcreate, (Except.error.inj h).symm⟩

/-- An unknown tag fails the payload before anything behind it is looked at. -/
theorem decodePayload_of_unknown {bytes : List UInt8} {tag : UInt8}
    (first : bytes.head? = some tag) (not_basic : tag ≠ TransactionPayloadSsz.tagBasic)
    (not_create : tag ≠ TransactionPayloadSsz.tagCreate) :
    decodePayload bytes = .error (.error (.unsupportedPayloadVariant tag)) := by
  cases bytes with
  | nil => cases first
  | cons head inner =>
    obtain rfl : head = tag := Option.some.inj first
    rw [decodePayload_cons, if_neg not_basic, if_neg not_create]

/-- Every way the envelope decoder can fail. -/
theorem decodeEnvelope_error {b : List UInt8} {fault : Fault PrimitiveError}
    (h : decodeEnvelope b = .error fault) :
    IsMalformed fault ∨
      ∃ tag, UnsupportedVariant b tag ∧ fault = .error (.unsupportedPayloadVariant tag) := by
  by_cases horder : OffsetsInOrder b
  · rw [decodeEnvelope_of_inOrder horder] at h
    rcases (bind_eq_error_iff _ _ _).mp h with hpayload | ⟨payload, _, hrest⟩
    · rcases decodePayload_error hpayload with hmalformed | ⟨tag, hfirst, hb, hc, hfault⟩
      · exact Or.inl hmalformed
      · exact Or.inr ⟨tag, ⟨horder, hfirst, hb, hc⟩, hfault⟩
    · exact Or.inl (FailsOnly.bind (failsOnly_decodeAuthorizationList _) (fun _ _ => .ok _)
        fault hrest)
  · obtain ⟨context, hfail⟩ := decodeEnvelope_of_not_inOrder horder
    exact Or.inl (failsOnly_fail context fault (hfail.symm.trans h))

theorem decodeEnvelope_of_unsupported {b : List UInt8} {tag : UInt8}
    (h : UnsupportedVariant b tag) :
    decodeEnvelope b = .error (.error (.unsupportedPayloadVariant tag)) := by
  rw [decodeEnvelope_of_inOrder h.offsets,
    decodePayload_of_unknown h.first h.not_basic h.not_create]
  rfl

end ShellPrimitives.Codec

namespace ShellPrimitives.TransactionEnvelope

open Codec

/-- On every byte string the decoder returns, and its errors say exactly what was wrong. -/
theorem fromWireBytes_total_and_classified (b : List UInt8) :
    (∀ site, fromWireBytes b ≠ .error (.panic site)) ∧
      (∀ tag, fromWireBytes b = .error (.error (.unsupportedPayloadVariant tag)) ↔
        UnsupportedVariant b tag) ∧
      ∀ e, fromWireBytes b = .error (.error e) →
        (∃ tag, e = .unsupportedPayloadVariant tag) ∨ ∃ context, e = .malformedSsz context := by
  refine ⟨?_, ?_, ?_⟩
  · intro site h
    rcases decodeEnvelope_error h with ⟨context, hfault⟩ | ⟨tag, _, hfault⟩
    · cases hfault
    · cases hfault
  · intro tag
    constructor
    · intro h
      rcases decodeEnvelope_error h with ⟨context, hfault⟩ | ⟨tag', htag, hfault⟩
      · cases hfault
      · cases hfault
        exact htag
    · exact decodeEnvelope_of_unsupported
  · intro e h
    rcases decodeEnvelope_error h with ⟨context, hfault⟩ | ⟨tag, _, hfault⟩
    · cases hfault
      exact Or.inr ⟨context, rfl⟩
    · cases hfault
      exact Or.inl ⟨tag, rfl⟩

-- One byte of payload behind two good offsets, and the byte is no tag.
example : fromWireBytes [8, 0, 0, 0, 9, 0, 0, 0, 2] =
    .error (.error (.unsupportedPayloadVariant 2)) := by decide

end ShellPrimitives.TransactionEnvelope
