import ShellChain.Primitives.RootBinding
import ShellChain.Primitives.WireBijection

/-!
# The precondition of `merkleize`

`merkleize` asserts a power-of-two limit and at most that many chunks, and past
the limit it reads a prefix only. No list type and no decoder check keeps the
lists of an envelope within the limits, so the assertion holds exactly on the
envelopes whose lists happen to be short enough.
-/

namespace ShellPrimitives.Ssz

open ByteCodec Hashing Codec

/-! ## One call -/

/-- Both debug assertions of the call hold. -/
def MerkleCall.Asserted (c : MerkleCall) : Prop :=
  (c.limit = 0 ∨ c.limit.isPowerOfTwo) ∧ c.chunks.length ≤ c.limit

/-- The chunks that a run reads at the leaves of its trees. -/
def leavesRead {α : Type} (x : Hashing MerkleCall α) : List Root :=
  (sites x).flatMap fun c => if c.limit = 1 then c.chunks.take 1 else []

/-- Every chunk handed to the call is read. -/
def MerkleCall.Complete (sha256 : List UInt8 → Root) (c : MerkleCall) : Prop :=
  leavesRead (merkleize sha256 c.chunks c.limit) = c.chunks

def MerkleCall.Sound (sha256 : List UInt8 → Root) (c : MerkleCall) : Prop :=
  c.Asserted ∧ c.Complete sha256

variable {sha256 : List UInt8 → Root}

@[simp] theorem sites_sha256Pair (a b : Root) : sites (sha256Pair sha256 a b) = [] := rfl

@[simp] theorem sites_zeroHash (depth : Nat) : sites (zeroHash sha256 depth) = [] := by
  induction depth with
  | zero => rfl
  | succ depth ih => simp [zeroHash, ih]

/-- The calls of one tree: itself, then those of its left and right half. -/
theorem sites_merkleize_succ (depth : Nat) (chunks : List Root) :
    sites (merkleize sha256 chunks (2 ^ (depth + 1))) =
      ⟨chunks, 2 ^ (depth + 1)⟩ ::
        sites (merkleize sha256 (chunks.take (min chunks.length (2 ^ depth))) (2 ^ depth)) ++
        (if chunks.length > 2 ^ depth then
          sites (merkleize sha256 (chunks.drop (2 ^ depth)) (2 ^ depth)) else []) := by
  have hhalf : 2 ^ (depth + 1) / 2 = 2 ^ depth := by
    rw [Nat.pow_succ, Nat.mul_div_cancel _ (by decide)]
  have htwo : 2 ≤ 2 ^ (depth + 1) := Nat.le_self_pow (by omega) 2
  rw [merkleize_of_two_le _ _ htwo, hhalf]
  simp only [sites_enter, sites_bind, sites_sha256Pair, List.append_nil, List.cons_append]
  split
  · rfl
  · rw [sites_zeroHash]

/-- A tree reads a prefix of its chunks, as many as it has leaves. -/
theorem leavesRead_merkleize (depth : Nat) (chunks : List Root) :
    leavesRead (merkleize sha256 chunks (2 ^ depth)) = chunks.take (2 ^ depth) := by
  induction depth generalizing chunks with
  | zero => simp [leavesRead, merkleize_one]
  | succ depth ih =>
    have hone : ¬ 2 ^ (depth + 1) = 1 := by
      have := Nat.le_self_pow (n := depth + 1) (by omega) 2
      omega
    have hleft := ih (chunks.take (min chunks.length (2 ^ depth)))
    have hright := ih (chunks.drop (2 ^ depth))
    simp only [leavesRead] at hleft hright
    rw [leavesRead, sites_merkleize_succ, List.flatMap_append, List.flatMap_cons, hleft,
      if_neg hone, List.nil_append, List.take_take, Nat.pow_succ, Nat.mul_two, List.take_add]
    by_cases hbig : chunks.length > 2 ^ depth
    · rw [if_pos hbig, hright, Nat.min_eq_right (Nat.le_of_lt hbig), Nat.min_self]
    · have hsmall : chunks.length ≤ 2 ^ depth := Nat.le_of_not_lt hbig
      rw [if_neg hbig, List.flatMap_nil, List.drop_of_length_le hsmall, List.take_nil,
        Nat.min_eq_left hsmall, Nat.min_eq_right hsmall, List.take_length,
        List.take_of_length_le hsmall]

theorem sound_of_fits {depth : Nat} {chunks : List Root} (fits : chunks.length ≤ 2 ^ depth) :
    MerkleCall.Sound sha256 ⟨chunks, 2 ^ depth⟩ := by
  refine ⟨⟨Or.inr ⟨depth, rfl⟩, fits⟩, ?_⟩
  rw [MerkleCall.Complete, leavesRead_merkleize, List.take_of_length_le fits]

theorem sound_merkleize (depth : Nat) {chunks : List Root} (fits : chunks.length ≤ 2 ^ depth) :
    ∀ c ∈ sites (merkleize sha256 chunks (2 ^ depth)), c.Sound sha256 := by
  induction depth generalizing chunks with
  | zero =>
    intro c hc
    obtain rfl : c = ⟨chunks, 2 ^ 0⟩ := by simpa [merkleize_one] using hc
    exact sound_of_fits fits
  | succ depth ih =>
    intro c hc
    rw [sites_merkleize_succ, List.mem_append, List.mem_cons] at hc
    rcases hc with (rfl | hleft) | hright
    · exact sound_of_fits fits
    · exact ih (by simp) c hleft
    · split at hright
      · apply ih _ c hright
        rw [List.length_drop]
        rw [Nat.pow_succ] at fits
        omega
      · cases hright

theorem self_mem_sites (chunks : List Root) (limit : Nat) :
    ⟨chunks, limit⟩ ∈ sites (merkleize sha256 chunks limit) :=
  List.Mem.head _

/-- All calls behind one tree are sound exactly when the outermost one is within its limit. -/
theorem sound_merkleize_iff (depth : Nat) (chunks : List Root) :
    (∀ c ∈ sites (merkleize sha256 chunks (2 ^ depth)), c.Sound sha256) ↔
      chunks.length ≤ 2 ^ depth := by
  constructor
  · intro h
    exact (h _ (self_mem_sites chunks _)).1.2
  · exact sound_merkleize depth

/-! ## Roots -/

/-- Every call of `merkleize` in the run is sound. -/
def SoundRun (sha256 : List UInt8 → Root) {α : Type} (x : Hashing MerkleCall α) : Prop :=
  ∀ c ∈ sites x, c.Sound sha256

theorem soundRun_bind {α β : Type} (x : Hashing MerkleCall α) (f : α → Hashing MerkleCall β) :
    SoundRun sha256 (x >>= f) ↔ SoundRun sha256 x ∧ SoundRun sha256 (f x.value) := by
  simp only [SoundRun, sites_bind, List.forall_mem_append]

theorem soundRun_sha256Pair (a b : Root) : SoundRun sha256 (sha256Pair sha256 a b) := by
  simp [SoundRun]

theorem soundRun_htrByteList_iff (bytes : List UInt8) :
    SoundRun sha256 (htrByteList sha256 bytes) ↔ bytes.length ≤ mockProgressiveByteListLimit := by
  rw [htrByteList, soundRun_bind, chunkLimit_eq, SoundRun, sound_merkleize_iff, length_packBytes,
    mockProgressiveByteListLimit]
  constructor
  · rintro ⟨h, _⟩
    omega
  · intro h
    exact ⟨by omega, soundRun_sha256Pair _ _⟩

theorem soundRun_htrFees (fees : BasicFeesPerGas) : SoundRun sha256 (htrFees sha256 fees) :=
  sound_merkleize 2 (Nat.le_refl 4)

theorem soundRun_payloadRootRun_iff (p : TransactionPayloadSsz) :
    SoundRun sha256 (payloadRootRun sha256 p) ↔ p.WithinLimit := by
  obtain ⟨p | p⟩ := p
  · simp only [payloadRootRun, htrBasicPayload, soundRun_bind, soundRun_htrByteList_iff,
      soundRun_htrFees, true_and, TransactionPayloadSsz.WithinLimit]
    constructor
    · rintro ⟨⟨h, _⟩, _⟩
      exact h
    · intro h
      exact ⟨⟨h, sound_merkleize 3 (Nat.le_refl 8)⟩, soundRun_sha256Pair _ _⟩
  · simp only [payloadRootRun, htrCreatePayload, soundRun_bind, soundRun_htrByteList_iff,
      soundRun_htrFees, true_and, TransactionPayloadSsz.WithinLimit]
    constructor
    · rintro ⟨⟨h, _⟩, _⟩
      exact h
    · intro h
      exact ⟨⟨h, sound_merkleize 3 (Nat.le_refl 8)⟩, soundRun_sha256Pair _ _⟩

theorem soundRun_htrAuthorization_iff (a : Authorization) :
    SoundRun sha256 (htrAuthorization sha256 a) ↔
      a.signature.length ≤ mockProgressiveByteListLimit := by
  rw [htrAuthorization, soundRun_bind, soundRun_htrByteList_iff]
  constructor
  · rintro ⟨h, _⟩
    exact h
  · intro h
    exact ⟨h, sound_merkleize 2 (Nat.le_refl 4)⟩

theorem soundRun_htrAuthorizationList_iff (as : List Authorization) :
    SoundRun sha256 (htrAuthorizationList sha256 as) ↔
      as.length ≤ mockProgressiveListLimit ∧
        ∀ a ∈ as, a.signature.length ≤ mockProgressiveByteListLimit := by
  have hroots : SoundRun sha256 (Logged.traverse (htrAuthorization sha256) as) ↔
      ∀ a ∈ as, a.signature.length ≤ mockProgressiveByteListLimit := by
    simp only [SoundRun, mem_sites_traverse]
    constructor
    · intro h a ha
      exact (soundRun_htrAuthorization_iff a).mp fun c hc => h c ⟨a, ha, hc⟩
    · rintro h c ⟨a, ha, hc⟩
      exact (soundRun_htrAuthorization_iff a).mpr (h a ha) c hc
  rw [htrAuthorizationList, soundRun_bind, soundRun_bind, hroots, mockProgressiveListLimit_eq,
    SoundRun, sound_merkleize_iff, Logged.value_traverse, List.length_map]
  constructor
  · rintro ⟨hsignatures, hlength, _⟩
    exact ⟨hlength, hsignatures⟩
  · rintro ⟨hlength, hsignatures⟩
    exact ⟨hsignatures, hlength, soundRun_sha256Pair _ _⟩

theorem soundRun_envelopeRootRun_iff (e : TransactionEnvelope) :
    SoundRun sha256 (envelopeRootRun sha256 e) ↔ e.WithinLimits := by
  rw [envelopeRootRun, soundRun_bind, soundRun_bind, soundRun_payloadRootRun_iff,
    soundRun_htrAuthorizationList_iff]
  constructor
  · rintro ⟨hpayload, ⟨hlength, hsignatures⟩, _⟩
    exact ⟨hpayload, hlength, hsignatures⟩
  · rintro ⟨hpayload, hlength, hsignatures⟩
    exact ⟨hpayload, ⟨hlength, hsignatures⟩, sound_merkleize 1 (Nat.le_refl 2)⟩

/-- The envelope is hashable: every call of `merkleize` behind its two roots
meets the assertions and reads all of its chunks. -/
def Hashable (sha256 : List UInt8 → Root) (e : TransactionEnvelope) : Prop :=
  SoundRun sha256 (payloadRootRun sha256 e.payload) ∧ SoundRun sha256 (envelopeRootRun sha256 e)

theorem hashable_iff (e : TransactionEnvelope) : Hashable sha256 e ↔ e.WithinLimits := by
  rw [Hashable, soundRun_payloadRootRun_iff, soundRun_envelopeRootRun_iff]
  exact ⟨fun h => h.2, fun h => ⟨h.payload, h⟩⟩

/-- Accepted bytes give a hashable envelope exactly when its lists are within the
limits; nothing on the way from the bytes to the roots checks them. -/
theorem decoded_hashable_iff (sha256 : List UInt8 → Root) (b : List UInt8) (e : TransactionEnvelope)
    (_accepted : TransactionEnvelope.fromWireBytes b = .ok e) :
    Hashable sha256 e ↔ e.WithinLimits :=
  hashable_iff e

theorem decoded_hashable_iff_sample :
    TransactionEnvelope.fromWireBytes sampleBytes = .ok sampleEnvelope ∧
      Hashable Sha256.digest sampleEnvelope := by
  have haccepted : TransactionEnvelope.fromWireBytes sampleBytes = .ok sampleEnvelope :=
    (decodeEnvelope_iff_encodeEnvelope (by decide +kernel) _).mpr (by decide +kernel)
  refine ⟨haccepted, (decoded_hashable_iff _ _ _ haccepted).mpr ?_⟩
  exact ⟨by decide, by decide, by decide⟩

/-! ## One byte past the limit -/

/-- A transfer that carries only its input. -/
def inputEnvelope (input : List UInt8) : TransactionEnvelope where
  payload := ⟨.basic
    { chainId := ⟨⟨zeros 32⟩⟩, nonce := 0, gasLimit := 0
      fees := ⟨⟨⟨zeros 32⟩⟩, ⟨⟨zeros 32⟩⟩, ⟨⟨zeros 32⟩⟩⟩
      toAddress := zeros 20, value := ⟨⟨zeros 32⟩⟩, input := input
      accessCommitment := zeros 32 }⟩
  authorizations := []

def inputEnvelopeBytes (input : List UInt8) : List UInt8 :=
  pushU32 (UInt32.ofNat envelopeFixedSize) ++
    pushU32 (UInt32.ofNat (envelopeFixedSize + (1 + basicFixedSize + input.length))) ++
    payloadBytes (inputEnvelope input).payload

theorem length_inputPayload (input : List UInt8) :
    (payloadBytes (inputEnvelope input).payload).length = 1 + basicFixedSize + input.length := by
  simp [payloadBytes, inputEnvelope, encodeBasic, basicFixedSize]
  omega

theorem inputEnvelopeBytes_accepted {input : List UInt8} (small : input.length ≤ 2 ^ 31) :
    TransactionEnvelope.fromWireBytes (inputEnvelopeBytes input) = .ok (inputEnvelope input) := by
  have hlength := length_inputPayload input
  have hfixed : envelopeFixedSize = 8 ∧ basicFixedSize = 232 := ⟨rfl, rfl⟩
  apply (decodeEnvelope_iff_encodeEnvelope _ _).mpr
  · refine (encodeEnvelope_eq_ok_iff _ _).mpr ⟨?_, [], rfl, ?_⟩
    · rw [hlength, u32Max]
      omega
    · rw [hlength, List.append_nil, inputEnvelopeBytes]
  · simp only [inputEnvelopeBytes, List.length_append, length_pushU32, hlength, usizeMax]
    omega

def oversizedInput : List UInt8 := List.replicate (mockProgressiveByteListLimit + 1) 0

theorem length_oversizedInput : oversizedInput.length = 1048577 := List.length_replicate

/-- The decoder accepts an input for which `merkleize` is then called with one
chunk too many, and that chunk is dropped. -/
theorem decoded_hashable_oversized :
    TransactionEnvelope.fromWireBytes (inputEnvelopeBytes oversizedInput) =
        .ok (inputEnvelope oversizedInput) ∧
      ∃ c ∈ sites (payloadRootRun Sha256.digest (inputEnvelope oversizedInput).payload),
        ¬ c.chunks.length ≤ c.limit ∧ ¬ c.Complete Sha256.digest := by
  have hlength := length_oversizedInput
  refine ⟨inputEnvelopeBytes_accepted (by omega), ⟨packBytes oversizedInput, chunkLimit⟩, ?_, ?_,
    ?_⟩
  · have hself : ⟨packBytes oversizedInput, chunkLimit⟩ ∈
        sites (merkleize Sha256.digest (packBytes oversizedInput) chunkLimit) :=
      self_mem_sites _ _
    simp only [payloadRootRun, inputEnvelope, htrBasicPayload, htrByteList, sites_bind,
      List.mem_append]
    exact Or.inl (Or.inr (Or.inl (Or.inl hself)))
  · rw [length_packBytes, hlength]
    decide
  · rw [MerkleCall.Complete, chunkLimit_eq, leavesRead_merkleize]
    intro h
    have hread := congrArg List.length h
    simp only [List.length_take, length_packBytes, hlength] at hread
    omega

end ShellPrimitives.Ssz
