import ShellChain.Crypto.RegistryDispatch

/-!
# Ed25519

The verifier of scheme 0. What it uses of the Ed25519 library is a parameter:
how keys and signatures are read, and which signatures hold. The library reads
exactly the 64-byte strings as signatures, and no signature holds whose second
half, read as a number, is not below the order of the group.
-/

namespace ShellCrypto

open ByteCodec ShellPrimitives KeyedList

/-- The functions of the Ed25519 library that the verifier calls. -/
structure Dalek where
  VerifyingKey : Type
  Signature : Type
  keyFromBytes : FixedBytes 32 → Option VerifyingKey
  signatureFromSlice : List UInt8 → Option Signature
  verify : VerifyingKey → List UInt8 → Signature → Bool

/-- `Signature::BYTE_SIZE`. -/
def signatureByteSize : Nat := 64

/-- The order of the group that the second half of a signature is reduced by. -/
def groupOrder : Nat := 2 ^ 252 + 27742317777372353535851937790883648493

/-- What the library documents of its signatures. -/
structure Dalek.Documented (dalek : Dalek) : Prop where
  signatureSize : ∀ bytes, (dalek.signatureFromSlice bytes).isSome ↔
    bytes.length = signatureByteSize
  reduced : ∀ key message bytes signature, dalek.signatureFromSlice bytes = some signature →
    dalek.verify key message signature = true → leNat (bytes.drop 32) < groupOrder

def schemeIdEd25519 : UInt8 := 0

structure Ed25519Verifier (dalek : Dalek) where

namespace Ed25519Verifier
variable (dalek : Dalek)

/-- `ok_or` with a failure of this scheme. -/
def orFail {α : Type} (context : String) : Option α → Except VerificationFailure α
  | some a => .ok a
  | none => .error ⟨schemeIdEd25519, context⟩

def verify (request : SignatureVerificationRequest) : Except VerificationFailure Unit := do
  let publicKeyBytes ← orFail "Invalid public key length"
    (if h : request.publicKeyMaterial.length = 32 then
      some (⟨request.publicKeyMaterial, h⟩ : FixedBytes 32)
    else none)
  let publicKey ← orFail "Malformed public key" (dalek.keyFromBytes publicKeyBytes)
  let signature ← orFail "Invalid signature length or encoding"
    (dalek.signatureFromSlice request.signature)
  if dalek.verify publicKey request.signingRoot.toList signature then .ok ()
  else .error ⟨schemeIdEd25519, "Signature verification failed"⟩

end Ed25519Verifier

instance (dalek : Dalek) : SignatureVerifier (Ed25519Verifier dalek) where
  schemeId _ := schemeIdEd25519
  maxSignatureSize _ _ := some signatureByteSize
  verify _ request := Ed25519Verifier.verify dalek request

/-- A registry holds verifiers of more than one type. -/
instance {ν ω : Type} [SignatureVerifier ν] [SignatureVerifier ω] : SignatureVerifier (ν ⊕ ω) where
  schemeId
    | .inl v => SignatureVerifier.schemeId v
    | .inr v => SignatureVerifier.schemeId v
  maxSignatureSize
    | .inl v => SignatureVerifier.maxSignatureSize v
    | .inr v => SignatureVerifier.maxSignatureSize v
  verify
    | .inl v => SignatureVerifier.verify v
    | .inr v => SignatureVerifier.verify v

/-! ## What is verified -/

/-- The library reads the key and the signature of a request, and the signature holds. -/
def Dalek.Signed (dalek : Dalek) (request : SignatureVerificationRequest) : Prop :=
  ∃ keyBytes key signature, request.publicKeyMaterial = keyBytes.toList ∧
    dalek.keyFromBytes keyBytes = some key ∧
    dalek.signatureFromSlice request.signature = some signature ∧
    dalek.verify key request.signingRoot.toList signature = true

variable {dalek : Dalek} {request : SignatureVerificationRequest}

theorem Ed25519Verifier.orFail_eq_ok_iff {α : Type} (context : String) (o : Option α) (a : α) :
    orFail context o = .ok a ↔ o = some a := by
  cases o <;> simp [orFail]

theorem Ed25519Verifier.verify_eq_ok_iff :
    verify dalek request = .ok () ↔ dalek.Signed request := by
  simp only [verify, Except.bind_eq_ok_iff, orFail_eq_ok_iff]
  constructor
  · rintro ⟨keyBytes, hbytes, key, hkey, signature, hsignature, hholds⟩
    split at hbytes
    · obtain rfl := Option.some.inj hbytes
      split at hholds
      · exact ⟨_, key, signature, rfl, hkey, hsignature, ‹_›⟩
      · cases hholds
    · cases hbytes
  · rintro ⟨keyBytes, key, signature, hbytes, hkey, hsignature, hholds⟩
    refine ⟨keyBytes, ?_, key, hkey, signature, hsignature, if_pos hholds⟩
    have hlength : request.publicKeyMaterial.length = 32 := by
      rw [hbytes, List.Vector.toList_length]
    rw [dif_pos hlength]
    exact congrArg some (Subtype.ext hbytes)

/-- A signature that holds is 64 bytes long. -/
theorem Dalek.Signed.length_eq (signed : dalek.Signed request) (documented : dalek.Documented) :
    request.signature.length = signatureByteSize := by
  obtain ⟨-, -, signature, -, -, hsignature, -⟩ := signed
  exact (documented.signatureSize _).mp (Option.isSome_iff_exists.mpr ⟨signature, hsignature⟩)

/-- A signature with a second half that is not reduced does not hold. -/
theorem Dalek.Documented.not_signed (documented : dalek.Documented)
    (unreduced : groupOrder ≤ leNat (request.signature.drop 32)) : ¬ dalek.Signed request := by
  rintro ⟨-, key, signature, -, -, hsignature, hholds⟩
  have hreduced := documented.reduced key _ _ signature hsignature hholds
  omega

/-! ## Through the registry -/

/-- Some registrations after which scheme 0 is verified by this library. -/
def Dalek.Registered {ω : Type} [SignatureVerifier ω] (dalek : Dalek)
    (vs : List (Ed25519Verifier dalek ⊕ ω)) : Prop :=
  latest SignatureVerifier.schemeId schemeIdEd25519 vs = some (.inl ⟨⟩)

variable {ω : Type} [SignatureVerifier ω] {vs : List (Ed25519Verifier dalek ⊕ ω)}

/-- On either path scheme 0 passes exactly the signatures that hold, unless the path is limited to
less than a signature. -/
theorem outcome_verifyForPath_ed25519 (documented : dalek.Documented)
    (registered : dalek.Registered vs) (config : DispatcherConfig) (path : VerificationPath) :
    Logged.outcome ((VerifierRegistry.registered config vs).verifyForPath schemeIdEd25519 request
        path) = .ok () ↔
      (∀ limit ∈ config.pathLimit path, signatureByteSize ≤ limit) ∧ dalek.Signed request := by
  have hregisters := VerifierRegistry.registers_registered config vs
  have hfound := (hregisters.stored schemeIdEd25519).trans registered
  rw [VerifierRegistry.outcome_verifyForPath_eq_ok_iff, hregisters.config_eq, hfound]
  constructor
  · rintro ⟨v, hv, hconfigured, -, hverified⟩
    obtain rfl := Option.some.inj hv
    have hsigned : dalek.Signed request := Ed25519Verifier.verify_eq_ok_iff.mp hverified
    refine ⟨fun limit hlimit => ?_, hsigned⟩
    by_contra hsmall
    refine hconfigured ⟨limit, hlimit, ?_⟩
    rw [hsigned.length_eq documented]
    exact Nat.lt_of_not_le hsmall
  · rintro ⟨hwide, hsigned⟩
    have hlength := hsigned.length_eq documented
    refine ⟨.inl ⟨⟩, rfl, ?_, ?_, Ed25519Verifier.verify_eq_ok_iff.mpr hsigned⟩
    · rintro ⟨limit, hlimit, hexceeds⟩
      have hle := hwide limit hlimit
      omega
    · rintro ⟨own, hown, hexceeds⟩
      obtain rfl : signatureByteSize = own := Option.some.inj hown
      omega

theorem verifyTransactionAuthorization_ed25519 (documented : dalek.Documented)
    (registered : dalek.Registered vs) (config : DispatcherConfig) :
    (VerifierRegistry.registered config vs).dispatcher.verifyTransactionAuthorization
        schemeIdEd25519 request = .ok () ↔
      signatureByteSize ≤ config.userPathMaxSignatureSize ∧ dalek.Signed request := by
  refine (outcome_verifyForPath_ed25519 documented registered config
    .transactionAuthorization).trans ?_
  simp only [DispatcherConfig.pathLimit, Option.mem_def, Option.some.injEq, forall_eq']

theorem verifyValidatorMessage_ed25519 (documented : dalek.Documented)
    (registered : dalek.Registered vs) (config : DispatcherConfig) :
    (VerifierRegistry.registered config vs).dispatcher.verifyValidatorMessage
        schemeIdEd25519 request = .ok () ↔
      (∀ limit ∈ config.validatorPathMaxSignatureSize, signatureByteSize ≤ limit) ∧
        dalek.Signed request :=
  outcome_verifyForPath_ed25519 documented registered config .validatorMessage

/-! ## A library with a record of signatures -/

/-- Reads one key, and verifies the recorded messages with their signatures. -/
def Dalek.recorded (key : List UInt8) (record : List (List UInt8 × List UInt8)) : Dalek where
  VerifyingKey := Unit
  Signature := List UInt8
  keyFromBytes bytes := if bytes.toList = key then some () else none
  signatureFromSlice bytes := if bytes.length = signatureByteSize then some bytes else none
  verify _ message signature := (message, signature) ∈ record

theorem Dalek.documented_recorded (key : List UInt8) {record : List (List UInt8 × List UInt8)}
    (reduced : ∀ entry ∈ record, leNat (entry.2.drop 32) < groupOrder) :
    (Dalek.recorded key record).Documented where
  signatureSize bytes := by
    by_cases h : bytes.length = signatureByteSize
    · simp [recorded, h]
    · simp [recorded, h]
  reduced _ message bytes signature hread hholds := by
    by_cases h : bytes.length = signatureByteSize
    · obtain rfl : bytes = signature := Option.some.inj ((if_pos h).symm.trans hread)
      exact reduced _ (of_decide_eq_true hholds)
    · cases (if_neg h).symm.trans hread

theorem Dalek.signed_recorded {key : List UInt8} {record : List (List UInt8 × List UInt8)}
    {root : Root} {signature : List UInt8} (keyLength : key.length = 32)
    (signatureLength : signature.length = signatureByteSize)
    (known : (root.toList, signature) ∈ record) :
    (Dalek.recorded key record).Signed ⟨key, root, signature⟩ := by
  refine ⟨⟨key, keyLength⟩, (), signature, rfl, ?_, ?_, ?_⟩
  · exact if_pos rfl
  · exact if_pos signatureLength
  · exact decide_eq_true known

end ShellCrypto
