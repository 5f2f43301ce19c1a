import ShellChain.Primitives.WireBijection

/-!
# Bytes behind a transaction

The wire format does not say where a transaction ends. The last authorization
reaches to the end of the input, so bytes behind a signed transaction become
part of its last signature, and bytes behind an unsigned one are read as its
authorizations. Whoever reads transactions from a stream has to know their
lengths beforehand.
-/

namespace ShellPrimitives

/-- The authorization with another signature. -/
def Authorization.withSignature (a : Authorization) (signature : List UInt8) : Authorization :=
  { a with signature := signature }

namespace Codec

open ByteCodec OffsetTable

/-! ## The last signature -/

/-- The last start offset does not depend on what the last part holds. -/
theorem listOffsets_concat (front : List Authorization) (last : Authorization) :
    listOffsets (front ++ [last]) =
      startOffsets ((front.length + 1) * 4) (front.map authorizationBytes) ++
        [(front.length + 1) * 4 + (front.map authorizationBytes).flatten.length] := by
  rw [listOffsets, List.map_append, List.map_cons, List.map_nil, startOffsets_concat,
    List.length_append, List.length_singleton]

/-- A signature that is cut in two. -/
theorem authorizationBytes_append (a : Authorization) (signature more : List UInt8) :
    authorizationBytes (a.withSignature (signature ++ more)) =
      authorizationBytes (a.withSignature signature) ++ more := by
  simp only [authorizationBytes, Authorization.withSignature, List.append_assoc, List.cons_append]

section
variable {front : List Authorization} {last : Authorization} {signature more : List UInt8}

theorem encodeAuthorizationList_append (tail : List UInt8)
    (fits : (tail ++ more).length ≤ usizeMax) :
    encodeAuthorizationList (front ++ [last.withSignature (signature ++ more)]) =
        .ok (tail ++ more) ↔
      encodeAuthorizationList (front ++ [last.withSignature signature]) = .ok tail := by
  have hshort : tail.length ≤ usizeMax := by
    rw [List.length_append] at fits
    omega
  rw [encodeAuthorizationList_eq_ok_iff, encodeAuthorizationList_eq_ok_iff, listOffsets_concat,
    listOffsets_concat, List.map_append, List.map_append, List.map_cons, List.map_cons,
    authorizationBytes_append]
  simp only [fits, hshort, true_and, List.map_nil, List.flatten_append, List.flatten_cons,
    List.flatten_nil, List.append_nil, ← List.append_assoc, List.append_left_inj]

/-- What a longer signature adds stands at the end. -/
theorem encodeAuthorizationList_ends {tail : List UInt8}
    (h : encodeAuthorizationList (front ++ [last.withSignature (signature ++ more)]) = .ok tail) :
    ∃ start, tail = start ++ more := by
  obtain ⟨-, -, rfl⟩ := (encodeAuthorizationList_eq_ok_iff _ _).mp h
  rw [List.map_append, List.map_cons, List.map_nil, authorizationBytes_append,
    List.flatten_append, List.flatten_cons, List.flatten_nil, List.append_nil, ← List.append_assoc,
    ← List.append_assoc]
  exact ⟨_, rfl⟩

/-- The bytes of a transaction whose last signature is longer. -/
theorem encodeEnvelope_append (payload : TransactionPayloadSsz) (b : List UInt8)
    (fits : (b ++ more).length ≤ usizeMax) :
    encodeEnvelope ⟨payload, front ++ [last.withSignature (signature ++ more)]⟩ =
        .ok (b ++ more) ↔
      encodeEnvelope ⟨payload, front ++ [last.withSignature signature]⟩ = .ok b := by
  rw [encodeEnvelope_eq_ok_iff, encodeEnvelope_eq_ok_iff]
  refine and_congr_right fun _ => ?_
  constructor
  · rintro ⟨_, htail, hb⟩
    obtain ⟨tail, rfl⟩ := encodeAuthorizationList_ends htail
    rw [hb] at fits
    have hfits := (List.suffix_append _ (tail ++ more)).length_le.trans fits
    refine ⟨tail, (encodeAuthorizationList_append tail hfits).mp htail, ?_⟩
    rw [← List.append_assoc] at hb
    exact List.append_cancel_right hb
  · rintro ⟨tail, htail, rfl⟩
    rw [List.append_assoc] at fits
    have hfits := (List.suffix_append _ (tail ++ more)).length_le.trans fits
    refine ⟨tail ++ more, (encodeAuthorizationList_append tail hfits).mpr htail, ?_⟩
    rw [List.append_assoc]

end

/-! ## The two sections -/

theorem pushU32_injective {v w : UInt32} (same : pushU32 v = pushU32 w) : v = w :=
  UInt32.toNat_inj.mp (leBytes_injective v.toNat_lt w.toNat_lt same)

/-- The bytes up to the authorizations say which payload it is, whatever follows. -/
theorem payload_eq_of_sections {p q : TransactionPayloadSsz} {rest rest' : List UInt8}
    (hp : envelopeFixedSize + (payloadBytes p).length ≤ u32Max)
    (hq : envelopeFixedSize + (payloadBytes q).length ≤ u32Max)
    (same : pushU32 (UInt32.ofNat envelopeFixedSize) ++
        pushU32 (UInt32.ofNat (envelopeFixedSize + (payloadBytes p).length)) ++
        payloadBytes p ++ rest =
      pushU32 (UInt32.ofNat envelopeFixedSize) ++
        pushU32 (UInt32.ofNat (envelopeFixedSize + (payloadBytes q).length)) ++
        payloadBytes q ++ rest') : p = q ∧ rest = rest' := by
  rw [List.append_assoc, List.append_assoc, List.append_assoc, List.append_assoc,
    List.append_cancel_left_eq] at same
  obtain ⟨hoffset, hrest⟩ := List.append_inj same (by rw [length_pushU32, length_pushU32])
  have hlength : (payloadBytes p).length = (payloadBytes q).length := by
    have htoNat := pushU32_injective hoffset
    rw [← UInt32.toNat_inj, toNat_ofNat_of_le hp, toNat_ofNat_of_le hq] at htoNat
    omega
  obtain ⟨hpayload, hrest⟩ := List.append_inj hrest hlength
  refine ⟨?_, hrest⟩
  have hdecoded := (decodePayload_eq_ok_iff (payloadBytes p) p).mpr (encodePayload_eq p)
  rw [hpayload] at hdecoded
  exact Except.ok.inj (hdecoded.symm.trans
    ((decodePayload_eq_ok_iff (payloadBytes q) q).mpr (encodePayload_eq q)))

/-- Bytes behind a transaction without authorizations are its authorizations. -/
theorem encodeEnvelope_unsigned_append {payload : TransactionPayloadSsz} {b more : List UInt8}
    (unsigned : encodeEnvelope ⟨payload, []⟩ = .ok b) (e : TransactionEnvelope) :
    encodeEnvelope e = .ok (b ++ more) ↔
      e.payload = payload ∧ encodeAuthorizationList e.authorizations = .ok more := by
  obtain ⟨hmax, tail, htail, rfl⟩ := (encodeEnvelope_eq_ok_iff _ _).mp unsigned
  obtain ⟨-, -, htail⟩ := (encodeAuthorizationList_eq_ok_iff _ _).mp htail
  obtain rfl : tail = [] := htail
  rw [List.append_nil, encodeEnvelope_eq_ok_iff]
  constructor
  · rintro ⟨hmax', tail, htail', hbytes⟩
    obtain ⟨rfl, rfl⟩ := payload_eq_of_sections hmax hmax' hbytes
    exact ⟨rfl, htail'⟩
  · rintro ⟨rfl, hmore⟩
    exact ⟨hmax, more, hmore, rfl⟩

/-- The wire format does not delimit transactions. Bytes behind a signed transaction are read as
the rest of its last signature, and the other way round any end of that signature can be cut off;
bytes behind an unsigned transaction are read as its authorizations, so they are accepted exactly
when they are a list of these. -/
theorem trailing_bytes_are_read (b more : List UInt8) (fits : (b ++ more).length ≤ usizeMax) :
    (∀ (payload : TransactionPayloadSsz) (front : List Authorization) (last : Authorization)
        (signature : List UInt8),
      TransactionEnvelope.fromWireBytes (b ++ more) =
          .ok ⟨payload, front ++ [last.withSignature (signature ++ more)]⟩ ↔
        TransactionEnvelope.fromWireBytes b =
          .ok ⟨payload, front ++ [last.withSignature signature]⟩) ∧
    ∀ payload : TransactionPayloadSsz, TransactionEnvelope.fromWireBytes b = .ok ⟨payload, []⟩ →
      ∀ e, TransactionEnvelope.fromWireBytes (b ++ more) = .ok e ↔
        e.payload = payload ∧ decodeAuthorizationList more = .ok e.authorizations := by
  have hshort : b.length ≤ usizeMax := (List.prefix_append b more).length_le.trans fits
  have hmore : more.length ≤ usizeMax := (List.suffix_append b more).length_le.trans fits
  constructor
  · intro payload front last signature
    rw [TransactionEnvelope.fromWireBytes, TransactionEnvelope.fromWireBytes,
      decodeEnvelope_iff_encodeEnvelope fits, decodeEnvelope_iff_encodeEnvelope hshort]
    exact encodeEnvelope_append payload b fits
  · intro payload hb e
    rw [TransactionEnvelope.fromWireBytes, decodeEnvelope_iff_encodeEnvelope hshort] at hb
    rw [TransactionEnvelope.fromWireBytes, decodeEnvelope_iff_encodeEnvelope fits,
      decodeAuthorizationList_eq_ok_iff hmore]
    exact encodeEnvelope_unsigned_append hb e

/-- One more byte makes the one signature of the sample longer. -/
theorem trailing_bytes_are_read_sample :
    TransactionEnvelope.fromWireBytes (sampleBytes ++ [4]) =
      .ok ⟨sampleEnvelope.payload, [⟨1, zeros 32, [3, 4]⟩]⟩ := by
  have hsample : TransactionEnvelope.fromWireBytes sampleBytes = .ok sampleEnvelope :=
    (decodeEnvelope_iff_encodeEnvelope (by decide +kernel) sampleEnvelope).mpr (by decide +kernel)
  exact ((trailing_bytes_are_read sampleBytes [4] (by decide +kernel)).1 sampleEnvelope.payload []
    ⟨1, zeros 32, []⟩ [3]).mpr hsample

end Codec

end ShellPrimitives
