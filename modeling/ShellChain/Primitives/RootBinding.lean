import ShellChain.Library.Sha256
import ShellChain.Primitives.Ssz

/-!
# Roots bind whole objects

Within the list limits, two objects with one root are equal, unless two of the
strings hashed for them collide. The length or the tag is mixed in last, so it
is recovered first; it fixes the shape of the tree below, and trees of one
shape are taken apart level by level.
-/

namespace ShellPrimitives.Ssz

open ByteCodec Hashing

variable {sha256 : List UInt8 → Root}

/-! ## Trees -/

theorem binds_sha256Pair :
    Binds sha256 Set.univ fun p : Root × Root => sha256Pair sha256 p.1 p.2 := by
  apply binds_hash.comp
  · rintro ⟨a, b⟩ _ ⟨c, d⟩ _ h
    obtain ⟨hleft, hright⟩ := List.append_inj h (by simp)
    rw [List.Vector.eq a c hleft, List.Vector.eq b d hright]
  · exact Set.mapsTo_univ _ _

/-- Two pairs with one digest, among strings that do not collide, are one pair. -/
theorem sha256Pair_inj {S : Set (List UInt8)} (inj : S.InjOn sha256) {a b c d : Root}
    (hab : Within S (sha256Pair sha256 a b)) (hcd : Within S (sha256Pair sha256 c d))
    (h : (sha256Pair sha256 a b).value = (sha256Pair sha256 c d).value) : a = c ∧ b = d :=
  Prod.mk.inj (binds_sha256Pair inj (a := (a, b)) trivial (b := (c, d)) trivial hab hcd h)

/-- Chunk lists of one length go through trees of one shape. -/
theorem binds_merkleize (depth n : Nat) (fits : n ≤ 2 ^ depth) :
    Binds sha256 {chunks | chunks.length = n}
      fun chunks => merkleize sha256 chunks (2 ^ depth) := by
  induction depth generalizing n with
  | zero =>
    intro S _ a ha b hb _ _ h
    simp only [Nat.pow_zero, merkleize_one, value_enter, Logged.value_pure] at h
    have hn : a.length = b.length := Eq.trans ha (Eq.symm hb)
    have hone : a.length ≤ 1 := by
      have hlen : a.length = n := ha
      omega
    match a, b, hn, hone with
    | [], [], _, _ => rfl
    | [x], [y], _, _ =>
      have hxy : x = y := h
      rw [hxy]
  | succ depth ih =>
    intro S inj a ha b hb hsa hsb h
    have hlen : a.length = n := ha
    have hlen' : b.length = n := hb
    have hhalf : 2 ^ (depth + 1) / 2 = 2 ^ depth := by
      rw [Nat.pow_succ, Nat.mul_div_cancel _ (by decide)]
    have htwo : 2 ≤ 2 ^ (depth + 1) := Nat.le_self_pow (by omega) 2
    simp only [merkleize_of_two_le _ _ htwo, hhalf, within_enter, within_bind, value_enter,
      Logged.value_bind, hlen, hlen'] at hsa hsb h
    obtain ⟨hla, hra, hpa⟩ := hsa
    obtain ⟨hlb, hrb, hpb⟩ := hsb
    obtain ⟨hleft, hright⟩ := sha256Pair_inj inj hpa hpb h
    have htake : a.take (min n (2 ^ depth)) = b.take (min n (2 ^ depth)) :=
      ih (min n (2 ^ depth)) (Nat.min_le_right _ _) inj (by simp [hlen]) (by simp [hlen'])
        hla hlb hleft
    by_cases hbig : n > 2 ^ depth
    · rw [Nat.min_eq_right (Nat.le_of_lt hbig)] at htake
      simp only [hbig, if_true] at hra hrb hright
      have hdrop : a.drop (2 ^ depth) = b.drop (2 ^ depth) :=
        ih (n - 2 ^ depth) (by rw [Nat.pow_succ] at fits; omega) inj (by simp [hlen])
          (by simp [hlen']) hra hrb hright
      rw [← List.take_append_drop (2 ^ depth) a, htake, hdrop, List.take_append_drop]
    · rw [Nat.min_eq_left (Nat.le_of_not_lt hbig)] at htake
      rwa [List.take_of_length_le (Nat.le_of_eq hlen),
        List.take_of_length_le (Nat.le_of_eq hlen')] at htake

/-! ## Byte lists -/

theorem packBytes_eq (bytes : List UInt8) :
    packBytes bytes = (List.range ((bytes.length + 31) / 32)).map fun i =>
      padTo 32 ((bytes.take (min (i * 32 + 32) bytes.length)).drop (i * 32)) := by
  cases bytes with
  | nil => rfl
  | cons b rest => rfl

@[simp] theorem length_packBytes (bytes : List UInt8) :
    (packBytes bytes).length = (bytes.length + 31) / 32 := by
  rw [packBytes_eq, List.length_map, List.length_range]

/-- The zeros that fill the last chunk are told apart by the length alone. -/
theorem packBytes_injective {a b : List UInt8} (same : a.length = b.length)
    (h : packBytes a = packBytes b) : a = b := by
  rw [packBytes_eq, packBytes_eq, ← same] at h
  apply List.ext_getElem same
  intro j hj hj'
  have hwindow : (a.take (min (j / 32 * 32 + 32) a.length)).drop (j / 32 * 32) =
      (b.take (min (j / 32 * 32 + 32) a.length)).drop (j / 32 * 32) := by
    have hmem : j / 32 ∈ List.range ((a.length + 31) / 32) := List.mem_range.mpr (by omega)
    have hchunk := List.map_inj_left.mp h (j / 32) hmem
    apply padTo_injective _ _ hchunk
    · simp only [List.length_drop, List.length_take]
      omega
    · simp only [List.length_drop, List.length_take]
      omega
  have hget := congrArg (fun l => l[j % 32]?) hwindow
  simp only [List.getElem?_drop, Nat.div_add_mod'] at hget
  rw [List.getElem?_take_of_lt (by omega), List.getElem?_take_of_lt (by omega)] at hget
  rwa [List.getElem?_eq_getElem hj, List.getElem?_eq_getElem hj', Option.some.injEq] at hget

/-- A length chunk gives back a length that fits in 64 bits. -/
theorem lengthChunk_injective {m n : Nat} (hm : m < 2 ^ 64) (hn : n < 2 ^ 64)
    (h : padTo 32 (leBytes 8 m) = padTo 32 (leBytes 8 n)) : m = n :=
  leBytes_injective hm hn (padTo_injective (by simp) (by simp) h)

theorem chunkLimit_eq : chunkLimit = 2 ^ 15 := rfl

theorem mockProgressiveListLimit_eq : mockProgressiveListLimit = 2 ^ 13 := rfl

theorem binds_htrByteList :
    Binds sha256 {bytes | bytes.length ≤ mockProgressiveByteListLimit} (htrByteList sha256) := by
  intro S inj a ha b hb hsa hsb h
  simp only [htrByteList, within_bind, Logged.value_bind] at hsa hsb h
  obtain ⟨htree, hlength⟩ := sha256Pair_inj inj hsa.2 hsb.2 h
  simp only [Set.mem_ofPred_eq, mockProgressiveByteListLimit] at ha hb
  have same : a.length = b.length := lengthChunk_injective (by omega) (by omega) hlength
  have hchunks : packBytes a = packBytes b := by
    apply binds_merkleize 15 ((a.length + 31) / 32) (by omega) inj _ _ hsa.1 hsb.1 htree
    · simp
    · simp [same]
  exact packBytes_injective same hchunks

/-! ## Containers -/

theorem htrU64_injective {m n : UInt64} (h : htrU64 m = htrU64 n) : m = n :=
  UInt64.toNat_inj.mp (lengthChunk_injective m.toNat_lt n.toNat_lt h)

theorem htrAddress_injective {a b : ExecutionAddress} (h : htrAddress a = htrAddress b) : a = b :=
  List.Vector.eq a b (padTo_injective (by simp) (by simp) h)

theorem byteChunk_injective {a b : UInt8} (h : padTo 32 [a] = padTo 32 [b]) : a = b :=
  List.singleton_inj.mp (padTo_injective (by simp) (by simp) h)

theorem binds_htrFees : Binds sha256 Set.univ (htrFees sha256) := by
  apply Binds.comp (binds_merkleize 2 4 (by decide))
  · rintro ⟨⟨⟨a⟩⟩, ⟨⟨b⟩⟩, ⟨⟨c⟩⟩⟩ _ ⟨⟨⟨a'⟩⟩, ⟨⟨b'⟩⟩, ⟨⟨c'⟩⟩⟩ _ h
    simp only [htrU256, List.cons.injEq] at h
    obtain ⟨rfl, rfl, rfl, _⟩ := h
    rfl
  · intro fees _
    rfl

theorem binds_htrBasicPayload :
    Binds sha256 {p | p.input.length ≤ mockProgressiveByteListLimit} (htrBasicPayload sha256) := by
  rintro S inj ⟨⟨⟨chain⟩⟩, nonce, gas, fees, target, ⟨⟨value⟩⟩, input, access⟩ ha
    ⟨⟨⟨chain'⟩⟩, nonce', gas', fees', target', ⟨⟨value'⟩⟩, input', access'⟩ hb hsa hsb h
  simp only [htrBasicPayload, within_bind, Logged.value_bind] at hsa hsb h
  have hfields := binds_merkleize 3 8 (by decide) inj rfl rfl hsa.2.2 hsb.2.2 h
  simp only [htrU256, List.cons.injEq, and_true] at hfields
  obtain ⟨rfl, hnonce, hgas, hfees, htarget, rfl, hinput, rfl⟩ := hfields
  obtain rfl := htrU64_injective hnonce
  obtain rfl := htrU64_injective hgas
  obtain rfl := htrAddress_injective htarget
  obtain rfl := binds_htrFees inj trivial trivial hsa.1 hsb.1 hfees
  obtain rfl := binds_htrByteList inj ha hb hsa.2.1 hsb.2.1 hinput
  rfl

theorem binds_htrCreatePayload :
    Binds sha256 {p | p.initcode.length ≤ mockProgressiveByteListLimit}
      (htrCreatePayload sha256) := by
  rintro S inj ⟨⟨⟨chain⟩⟩, nonce, gas, fees, ⟨⟨value⟩⟩, initcode, access⟩ ha
    ⟨⟨⟨chain'⟩⟩, nonce', gas', fees', ⟨⟨value'⟩⟩, initcode', access'⟩ hb hsa hsb h
  simp only [htrCreatePayload, within_bind, Logged.value_bind] at hsa hsb h
  have hfields := binds_merkleize 3 8 (by decide) inj rfl rfl hsa.2.2 hsb.2.2 h
  simp only [htrU256, List.cons.injEq, and_true] at hfields
  obtain ⟨rfl, hnonce, hgas, hfees, rfl, hinitcode, rfl⟩ := hfields
  obtain rfl := htrU64_injective hnonce
  obtain rfl := htrU64_injective hgas
  obtain rfl := binds_htrFees inj trivial trivial hsa.1 hsb.1 hfees
  obtain rfl := binds_htrByteList inj ha hb hsa.2.1 hsb.2.1 hinitcode
  rfl

theorem binds_htrAuthorization :
    Binds sha256 {a | a.signature.length ≤ mockProgressiveByteListLimit}
      (htrAuthorization sha256) := by
  rintro S inj ⟨scheme, root, signature⟩ ha ⟨scheme', root', signature'⟩ hb hsa hsb h
  simp only [htrAuthorization, within_bind, Logged.value_bind] at hsa hsb h
  have hfields := binds_merkleize 2 4 (by decide) inj rfl rfl hsa.2 hsb.2 h
  simp only [List.cons.injEq, and_true] at hfields
  obtain ⟨hscheme, rfl, hsignature⟩ := hfields
  obtain rfl := byteChunk_injective hscheme
  obtain rfl := binds_htrByteList inj ha hb hsa.1 hsb.1 hsignature
  rfl

theorem binds_htrAuthorizationList :
    Binds sha256 {as | as.length ≤ mockProgressiveListLimit ∧
      ∀ a ∈ as, a.signature.length ≤ mockProgressiveByteListLimit}
      (htrAuthorizationList sha256) := by
  intro S inj as has bs hbs hsa hsb h
  simp only [htrAuthorizationList, within_bind, Logged.value_bind] at hsa hsb h
  obtain ⟨htree, hlength⟩ := sha256Pair_inj inj hsa.2.2 hsb.2.2 h
  have hsmall := has.1
  have hsmall' := hbs.1
  rw [mockProgressiveListLimit] at hsmall hsmall'
  have same : as.length = bs.length := lengthChunk_injective (by omega) (by omega) hlength
  have hroots := binds_merkleize 13 as.length (by omega) inj (by simp) (by simp [same])
    hsa.2.1 hsb.2.1 htree
  exact binds_htrAuthorization.traverse inj has.2 hbs.2 hsa.1 hsb.1 hroots

end ShellPrimitives.Ssz

/-! ## Objects -/

namespace ShellPrimitives

/-- The byte list of the payload is within the limit its tree is built for. -/
def TransactionPayloadSsz.WithinLimit (p : TransactionPayloadSsz) : Prop :=
  match p.payload with
  | .basic p => p.input.length ≤ mockProgressiveByteListLimit
  | .create p => p.initcode.length ≤ mockProgressiveByteListLimit

instance (p : TransactionPayloadSsz) : Decidable p.WithinLimit :=
  match p with
  | ⟨.basic q⟩ => inferInstanceAs (Decidable (q.input.length ≤ mockProgressiveByteListLimit))
  | ⟨.create q⟩ => inferInstanceAs (Decidable (q.initcode.length ≤ mockProgressiveByteListLimit))

/-- All three lists of the envelope are within the limits their trees are built for. -/
structure TransactionEnvelope.WithinLimits (e : TransactionEnvelope) : Prop where
  payload : e.payload.WithinLimit
  authorizations : e.authorizations.length ≤ mockProgressiveListLimit
  signatures : ∀ a ∈ e.authorizations, a.signature.length ≤ mockProgressiveByteListLimit

namespace Ssz

open ByteCodec Hashing

variable {sha256 : List UInt8 → Root}

/-- The tag is the outermost chunk, so a transfer never shares a root with a creation. -/
theorem binds_payloadRootRun :
    Binds sha256 {p | p.WithinLimit} (payloadRootRun sha256) := by
  rintro S inj ⟨p | p⟩ ha ⟨q | q⟩ hb hsa hsb h
  all_goals
    simp only [payloadRootRun, within_bind, Logged.value_bind] at hsa hsb h
    obtain ⟨hinner, htag⟩ := sha256Pair_inj inj hsa.2 hsb.2 h
  · rw [binds_htrBasicPayload inj ha hb hsa.1 hsb.1 hinner]
  · exact absurd (byteChunk_injective htag) (by decide)
  · exact absurd (byteChunk_injective htag) (by decide)
  · rw [binds_htrCreatePayload inj ha hb hsa.1 hsb.1 hinner]

theorem binds_envelopeRootRun :
    Binds sha256 {e | e.WithinLimits} (envelopeRootRun sha256) := by
  rintro S inj ⟨p, as⟩ ha ⟨q, bs⟩ hb hsa hsb h
  simp only [envelopeRootRun, within_bind, Logged.value_bind] at hsa hsb h
  have hfields := binds_merkleize 1 2 (by decide) inj rfl rfl hsa.2.2 hsb.2.2 h
  simp only [List.cons.injEq, and_true] at hfields
  have hpayload : p = q := binds_payloadRootRun inj ha.payload hb.payload hsa.1 hsb.1 hfields.1
  have hlist : as = bs := binds_htrAuthorizationList inj ⟨ha.authorizations, ha.signatures⟩
    ⟨hb.authorizations, hb.signatures⟩ hsa.2.1 hsb.2.1 hfields.2
  rw [hpayload, hlist]

/-- Payloads and envelopes within the list limits are determined by their roots,
if no two of the strings hashed for the two roots have one digest. -/
theorem canonical_roots_bind (sha256 : List UInt8 → Root) :
    (∀ p q : TransactionPayloadSsz, p.WithinLimit → q.WithinLimit →
      Set.InjOn sha256 {s | s ∈ preimages (payloadRootRun sha256 p) ∨
        s ∈ preimages (payloadRootRun sha256 q)} →
      p.hashTreeRoot sha256 = q.hashTreeRoot sha256 → p = q) ∧
    ∀ e f : TransactionEnvelope, e.WithinLimits → f.WithinLimits →
      Set.InjOn sha256 {s | s ∈ preimages (envelopeRootRun sha256 e) ∨
        s ∈ preimages (envelopeRootRun sha256 f)} →
      e.canonicalRoot sha256 = f.canonicalRoot sha256 → e = f := by
  constructor
  · intro p q hp hq collisionFree h
    exact binds_payloadRootRun.eq_of_value_eq hp hq collisionFree (Except.ok.inj h)
  · intro e f he hf collisionFree h
    exact binds_envelopeRootRun.eq_of_value_eq he hf collisionFree (Except.ok.inj h)

/-- The strings hashed for a payload are hashed again for its envelope. -/
theorem mem_preimages_envelopeRootRun {e : TransactionEnvelope} {s : List UInt8}
    (hs : s ∈ preimages (payloadRootRun sha256 e.payload)) :
    s ∈ preimages (envelopeRootRun sha256 e) := by
  rw [envelopeRootRun, preimages_bind]
  exact List.mem_append_left _ hs

theorem bareEnvelope_withinLimits : bareEnvelope.WithinLimits :=
  ⟨by decide, by decide, by decide⟩

theorem barePayload_collisionFree :
    Set.InjOn Sha256.digest
      {s | s ∈ preimages (payloadRootRun Sha256.digest bareEnvelope.payload)} :=
  injOn_of_nodup (by decide +kernel)

/-- A transfer with data, authorized once. -/
def dataEnvelope (input signature : MockProgressiveByteList) : TransactionEnvelope where
  payload := ⟨.basic
    { chainId := ⟨⟨zeros 32⟩⟩, nonce := 1, gasLimit := 21000
      fees := ⟨⟨⟨zeros 32⟩⟩, ⟨⟨zeros 32⟩⟩, ⟨⟨zeros 32⟩⟩⟩
      toAddress := zeros 20, value := ⟨⟨zeros 32⟩⟩, input := input
      accessCommitment := zeros 32 }⟩
  authorizations := [{ schemeId := 1, payloadRoot := zeros 32, signature := signature }]

/-- The second one has another last byte in its input. -/
def dataEnvelopes : List TransactionEnvelope :=
  [dataEnvelope [1, 2, 3] [0xAA, 0xBB], dataEnvelope [1, 2, 4] [0xAA, 0xBB]]

theorem dataEnvelopes_withinLimits : ∀ e ∈ dataEnvelopes, e.WithinLimits := by
  intro e he
  rcases List.mem_pair.mp he with rfl | rfl
  · exact ⟨by decide, by decide, by decide⟩
  · exact ⟨by decide, by decide, by decide⟩

theorem dataEnvelopes_collisionFree :
    Set.InjOn Sha256.digest
      {s | s ∈ dataEnvelopes.flatMap fun e => preimages (envelopeRootRun Sha256.digest e)} :=
  injOn_of_nodup (by decide +kernel)

/-- Put together from parts of two others, the envelope is the same one; with one byte of the input
changed, both roots are others. -/
theorem canonical_roots_bind_sample :
    let e := dataEnvelope [1, 2, 3] [0xAA, 0xBB]
    let spliced : TransactionEnvelope :=
      ⟨(dataEnvelope [1, 2, 3] []).payload, (dataEnvelope [] [0xAA, 0xBB]).authorizations⟩
    let changed := dataEnvelope [1, 2, 4] [0xAA, 0xBB]
    (e.payload = spliced.payload ∧ e = spliced) ∧
      e.payload.hashTreeRoot Sha256.digest ≠ changed.payload.hashTreeRoot Sha256.digest ∧
      e.canonicalRoot Sha256.digest ≠ changed.canonicalRoot Sha256.digest := by
  intro e spliced changed
  obtain ⟨hpayload, henvelope⟩ := canonical_roots_bind Sha256.digest
  have he : e ∈ dataEnvelopes := List.mem_cons_self
  have hchanged : changed ∈ dataEnvelopes := List.mem_cons_of_mem _ List.mem_cons_self
  have hlimits := dataEnvelopes_withinLimits e he
  have hlimits' := dataEnvelopes_withinLimits changed hchanged
  have hfree : ∀ f ∈ dataEnvelopes,
      Set.InjOn Sha256.digest {s | s ∈ preimages (envelopeRootRun Sha256.digest e) ∨
        s ∈ preimages (envelopeRootRun Sha256.digest f)} := by
    intro f hf
    apply dataEnvelopes_collisionFree.mono
    rintro s (hs | hs)
    · exact List.mem_flatMap.mpr ⟨e, he, hs⟩
    · exact List.mem_flatMap.mpr ⟨f, hf, hs⟩
  have hpayloadFree : ∀ f ∈ dataEnvelopes,
      Set.InjOn Sha256.digest {s | s ∈ preimages (payloadRootRun Sha256.digest e.payload) ∨
        s ∈ preimages (payloadRootRun Sha256.digest f.payload)} := fun f hf =>
    (hfree f hf).mono fun _ => Or.imp mem_preimages_envelopeRootRun mem_preimages_envelopeRootRun
  refine ⟨⟨?_, ?_⟩, ?_, ?_⟩
  · exact hpayload _ _ hlimits.payload hlimits.payload (hpayloadFree e he) rfl
  · exact henvelope _ _ hlimits hlimits (hfree e he) rfl
  · intro h
    exact absurd (hpayload _ _ hlimits.payload hlimits'.payload (hpayloadFree changed hchanged) h)
      (by decide)
  · intro h
    exact absurd (henvelope _ _ hlimits hlimits' (hfree changed hchanged) h) (by decide)

end Ssz

end ShellPrimitives
