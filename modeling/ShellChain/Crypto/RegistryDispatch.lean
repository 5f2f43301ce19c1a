import ShellChain.Crypto.Registry

/-!
# What the registry verifies

A registry after any sequence of registrations stands for the map from scheme
to latest verifier. Verification looks the scheme up, compares the signature
with the smaller one of two limits and only then calls the verifier. Which
limit is reported depends on which one is smaller, not on which is exceeded.
-/

namespace ShellCrypto

open ShellPrimitives ServiceEvent KeyedList SignatureVerifier

/-- The limit the configuration sets on a path. -/
def DispatcherConfig.pathLimit (config : DispatcherConfig) : VerificationPath → Option Nat
  | .transactionAuthorization => some config.userPathMaxSignatureSize
  | .validatorMessage => config.validatorPathMaxSignatureSize

/-- What a breach of that limit is reported as. -/
def VerificationPath.limitKind : VerificationPath → SignatureLimitKind
  | .transactionAuthorization => .repositoryRule
  | .validatorMessage => .localTransportGuard

/-- The signature is longer than a limit that is there. -/
def SignatureVerificationRequest.Exceeds (request : SignatureVerificationRequest)
    (limit : Option Nat) : Prop :=
  ∃ maxSize ∈ limit, maxSize < request.signature.length

namespace VerifierRegistry
variable {ν : Type} [SignatureVerifier ν]

/-! ## Registrations -/

/-- The registry after some registrations, oldest first. -/
def registered (config : DispatcherConfig) (verifiers : List ν) : VerifierRegistry ν :=
  finalState registerVerifier (withConfig config) verifiers

/-- The registry stands for the verifiers that have been registered. -/
structure Registers (config : DispatcherConfig) (done : List ν) (registry : VerifierRegistry ν) :
    Prop where
  config_eq : registry.config = config
  distinct : (registry.verifiers.map schemeId).Nodup
  stored : ∀ id, registry.verifier id = latest schemeId id done

variable {config : DispatcherConfig} {done : List ν} {registry : VerifierRegistry ν}

theorem registers_withConfig : Registers config [] (withConfig config : VerifierRegistry ν) where
  config_eq := rfl
  distinct := List.nodup_nil
  stored _ := rfl

theorem Registers.step (h : Registers config done registry) (v : ν) :
    Registers config (done ++ [v]) (registry.registerVerifier v).2 where
  config_eq := h.config_eq
  distinct := nodup_file h.distinct v
  stored id := by
    rw [latest_concat, ← h.stored id]
    exact lookup_file v registry.verifiers id

theorem Registers.run (h : Registers config done registry) (vs : List ν) :
    Registers config (done ++ vs) (finalState registerVerifier registry vs) := by
  induction vs generalizing done registry with
  | nil =>
    rw [List.append_nil]
    exact h
  | cons v vs ih =>
    have hrest := ih (h.step v)
    rw [List.append_assoc] at hrest
    exact hrest

theorem registers_registered (config : DispatcherConfig) (vs : List ν) :
    Registers config vs (registered config vs) :=
  registers_withConfig.run vs

/-! ## Limits -/

variable {v : ν} {request : SignatureVerificationRequest} {path : VerificationPath}

/-- The smaller limit is the one that counts; of two equal ones it is the configured one. -/
theorem maxSignatureSize_eq (registry : VerifierRegistry ν) (v : ν) (path : VerificationPath) :
    registry.maxSignatureSize v path =
      match registry.config.pathLimit path, SignatureVerifier.maxSignatureSize v path with
      | none, none => none
      | none, some own => some ⟨own, .scheme⟩
      | some configured, none => some ⟨configured, path.limitKind⟩
      | some configured, some own =>
        if own < configured then some ⟨own, .scheme⟩ else some ⟨configured, path.limitKind⟩ := by
  unfold VerifierRegistry.maxSignatureSize
  cases path with
  | transactionAuthorization =>
    cases SignatureVerifier.maxSignatureSize v .transactionAuthorization with
    | none => rfl
    | some own => simp [DispatcherConfig.pathLimit, VerificationPath.limitKind]
  | validatorMessage =>
    rw [DispatcherConfig.pathLimit]
    cases SignatureVerifier.maxSignatureSize v .validatorMessage with
    | none => cases registry.config.validatorPathMaxSignatureSize <;> rfl
    | some own =>
      cases registry.config.validatorPathMaxSignatureSize with
      | none => rfl
      | some configured => simp [VerificationPath.limitKind]

/-- Past the merged limit a signature is within both limits. -/
theorem checkSignatureSize_eq_ok_iff :
    checkSignatureSize (registry.maxSignatureSize v path) request path = .ok () ↔
      ¬ request.Exceeds (registry.config.pathLimit path) ∧
        ¬ request.Exceeds (SignatureVerifier.maxSignatureSize v path) := by
  rw [maxSignatureSize_eq]
  cases registry.config.pathLimit path with
  | none =>
    cases SignatureVerifier.maxSignatureSize v path with
    | none => simp [checkSignatureSize, SignatureVerificationRequest.Exceeds]
    | some own => simp [checkSignatureSize, SignatureVerificationRequest.Exceeds]
  | some configured =>
    cases SignatureVerifier.maxSignatureSize v path with
    | none => simp [checkSignatureSize, SignatureVerificationRequest.Exceeds]
    | some own =>
      by_cases hlt : own < configured
      · simp [checkSignatureSize, SignatureVerificationRequest.Exceeds, hlt]
        omega
      · simp [checkSignatureSize, SignatureVerificationRequest.Exceeds, hlt]
        omega

/-- A breach of the configured limit is reported unless the verifier's own limit is smaller. -/
theorem checkSignatureSize_of_configured {configured : Nat}
    (limit : registry.config.pathLimit path = some configured)
    (smaller : ∀ own ∈ SignatureVerifier.maxSignatureSize v path, configured ≤ own)
    (exceeds : configured < request.signature.length) :
    checkSignatureSize (registry.maxSignatureSize v path) request path =
      .error (.signatureSizeExceeded ⟨configured, request.signature.length, path,
        path.limitKind⟩) := by
  rw [maxSignatureSize_eq, limit]
  cases hown : SignatureVerifier.maxSignatureSize v path with
  | none => exact if_pos exceeds
  | some own =>
    have hle : ¬ own < configured := Nat.not_lt.mpr (smaller own hown)
    simp only [if_neg hle]
    exact if_pos exceeds

/-- A breach of the verifier's own limit is reported when that limit is the smaller one. -/
theorem checkSignatureSize_of_own {own : Nat}
    (limit : SignatureVerifier.maxSignatureSize v path = some own)
    (smaller : ∀ configured ∈ registry.config.pathLimit path, own < configured)
    (exceeds : own < request.signature.length) :
    checkSignatureSize (registry.maxSignatureSize v path) request path =
      .error (.signatureSizeExceeded ⟨own, request.signature.length, path, .scheme⟩) := by
  rw [maxSignatureSize_eq, limit]
  cases hconfigured : registry.config.pathLimit path with
  | none => exact if_pos exceeds
  | some configured =>
    simp only [if_pos (smaller configured hconfigured)]
    exact if_pos exceeds

/-! ## Verification -/

theorem verifyForPath_of_found {id : UInt8} (found : registry.verifier id = some v) :
    registry.verifyForPath id request path =
      (Logged.silent (checkSignatureSize (registry.maxSignatureSize v path) request path) >>=
        fun _ => Logged.invoke ⟨v, request⟩
          ((verify v request).mapError .verificationFailed)) := by
  rw [verifyForPath, found]
  exact Logged.silent_ok_bind _ _

/-- A signature within both limits is verified, by the verifier of its scheme and once. -/
theorem runs_of_within {id : UInt8} (found : registry.verifier id = some v)
    (within : checkSignatureSize (registry.maxSignatureSize v path) request path = .ok ()) :
    Logged.Runs (registry.verifyForPath id request path)
      ((verify v request).mapError .verificationFailed) [⟨v, request⟩] := by
  rw [verifyForPath_of_found found, within, Logged.silent_ok_bind]
  exact Logged.Runs.invoke _ _

/-- A signature that is too long is not verified at all. -/
theorem runs_of_exceeding {id : UInt8} {e : CryptoError} (found : registry.verifier id = some v)
    (exceeding : checkSignatureSize (registry.maxSignatureSize v path) request path = .error e) :
    Logged.Runs (registry.verifyForPath id request path) (.error e) [] := by
  rw [verifyForPath_of_found found, exceeding, Logged.silent_error_bind]
  exact Logged.Runs.silent _

theorem runs_of_unknown {id : UInt8} (unknown : registry.verifier id = none) :
    Logged.Runs (registry.verifyForPath id request path) (.error (.unsupportedScheme ⟨id⟩)) [] := by
  rw [verifyForPath, unknown]
  exact Logged.Runs.error_bind (Logged.Runs.silent _)

theorem outcome_verifyForPath_eq_ok_iff (id : UInt8) :
    Logged.outcome (registry.verifyForPath id request path) = .ok () ↔
      ∃ v, registry.verifier id = some v ∧
        ¬ request.Exceeds (registry.config.pathLimit path) ∧
        ¬ request.Exceeds (SignatureVerifier.maxSignatureSize v path) ∧
        verify v request = .ok () := by
  cases hfound : registry.verifier id with
  | none =>
    rw [(runs_of_unknown hfound).outcome_eq]
    simp
  | some v =>
    simp only [Option.some.injEq, exists_eq_left']
    rw [← and_assoc, ← checkSignatureSize_eq_ok_iff]
    cases hsize : checkSignatureSize (registry.maxSignatureSize v path) request path with
    | error e =>
      rw [(runs_of_exceeding hfound hsize).outcome_eq]
      simp
    | ok u =>
      rw [(runs_of_within hfound hsize).outcome_eq, Except.mapError_eq_ok_iff]
      simp

/-- A verifier is called only when the signature is within both limits, and then it is the one
the registry has for the scheme. -/
theorem mem_calls_verifyForPath {id : UInt8} {call : VerifierCall ν}
    (h : call ∈ Logged.calls (registry.verifyForPath id request path)) :
    call.request = request ∧ registry.verifier id = some call.verifier ∧
      ¬ request.Exceeds (registry.config.pathLimit path) ∧
      ¬ request.Exceeds (SignatureVerifier.maxSignatureSize call.verifier path) := by
  cases hfound : registry.verifier id with
  | none =>
    rw [(runs_of_unknown hfound).calls_eq] at h
    cases h
  | some v =>
    cases hsize : checkSignatureSize (registry.maxSignatureSize v path) request path with
    | error e =>
      rw [(runs_of_exceeding hfound hsize).calls_eq] at h
      cases h
    | ok u =>
      rw [(runs_of_within hfound hsize).calls_eq] at h
      obtain rfl := List.mem_singleton.mp h
      exact ⟨rfl, rfl, checkSignatureSize_eq_ok_iff.mp hsize⟩

/-- A registry is the map from scheme to latest registration: one entry for each scheme, the
latest verifier for each scheme, and each registration hands out what it displaces. A transaction
authorization passes exactly when the latest verifier of its scheme accepts a signature within both
limits, and on either path no other verifier and no longer signature ever comes to `verify`. -/
theorem registry_keeps_last_registration (config : DispatcherConfig) (vs : List ν) :
    let registry := registered config vs
    (registry.verifiers.map schemeId).Nodup ∧
    (∀ id, registry.verifier id = latest schemeId id vs) ∧
    (∀ v, (registry.registerVerifier v).1 = latest schemeId (schemeId v) vs ∧
      ((registry.registerVerifier v).1.toList ++ (registry.registerVerifier v).2.verifiers).Perm
        (v :: registry.verifiers)) ∧
    (∀ id request,
      Logged.outcome (registry.verifyTransactionAuthorization id request) = .ok () ↔
        ∃ v, latest schemeId id vs = some v ∧
          request.signature.length ≤ config.userPathMaxSignatureSize ∧
          (∀ own ∈ SignatureVerifier.maxSignatureSize v .transactionAuthorization,
            request.signature.length ≤ own) ∧
          verify v request = .ok ()) ∧
    ∀ id request path, ∀ call ∈ Logged.calls (registry.verifyForPath id request path),
      call.request = request ∧ latest schemeId id vs = some call.verifier ∧
        (∀ configured ∈ config.pathLimit path, request.signature.length ≤ configured) ∧
        ∀ own ∈ SignatureVerifier.maxSignatureSize call.verifier path,
          request.signature.length ≤ own := by
  intro registry
  have hregisters : Registers config vs registry := registers_registered config vs
  have hwithin : ∀ (request : SignatureVerificationRequest) (limit : Option Nat),
      ¬ request.Exceeds limit ↔ ∀ maxSize ∈ limit, request.signature.length ≤ maxSize := by
    intro request limit
    simp [SignatureVerificationRequest.Exceeds]
  refine ⟨hregisters.distinct, hregisters.stored, ?_, ?_, ?_⟩
  · intro v
    refine ⟨?_, file_perm v registry.verifiers⟩
    rw [← hregisters.stored (schemeId v)]
    exact file_fst v registry.verifiers
  · intro id request
    refine (outcome_verifyForPath_eq_ok_iff id).trans ?_
    simp only [hwithin, hregisters.stored, hregisters.config_eq, DispatcherConfig.pathLimit,
      Option.mem_def, Option.some.injEq, forall_eq']
  · intro id request path call hcall
    obtain ⟨hrequest, hfound, hconfigured, hown⟩ := mem_calls_verifyForPath hcall
    rw [hregisters.stored] at hfound
    rw [hregisters.config_eq] at hconfigured
    exact ⟨hrequest, hfound, (hwithin _ _).mp hconfigured, (hwithin _ _).mp hown⟩

/-! ## The validator path -/

/-- What a validator message is to come back with: rejection past the verifier's own limit, policy
rejection past the transport guard alone, and the verifier's verdict otherwise. -/
structure ValidatorVerdict (config : DispatcherConfig) (v : ν)
    (request : SignatureVerificationRequest) (result : Except CryptoError Unit) : Prop where
  ownLimit : request.Exceeds (SignatureVerifier.maxSignatureSize v .validatorMessage) →
    ∃ e, result = .error e ∧ e.networkValidationOutcome = some .reject
  transportGuard :
    (∃ e, result = .error e ∧ e.networkValidationOutcome = some .policyReject) ↔
      ¬ request.Exceeds (SignatureVerifier.maxSignatureSize v .validatorMessage) ∧
        request.Exceeds config.validatorPathMaxSignatureSize
  verdict : ¬ request.Exceeds (SignatureVerifier.maxSignatureSize v .validatorMessage) →
    ¬ request.Exceeds config.validatorPathMaxSignatureSize →
      result = (verify v request).mapError .verificationFailed ∧
        ∀ e, result = .error e → e.networkValidationOutcome = some .reject

section
variable {result : Except CryptoError Unit}

/-- Past the own limit a rejection is all there is to ask for. -/
theorem ValidatorVerdict.of_reject {e : CryptoError}
    (exceeds : request.Exceeds (SignatureVerifier.maxSignatureSize v .validatorMessage))
    (h : result = .error e) (reject : e.networkValidationOutcome = some .reject) :
    ValidatorVerdict config v request result where
  ownLimit _ := ⟨e, h, reject⟩
  transportGuard := by
    constructor
    · rintro ⟨e', he', hpolicy⟩
      rw [h] at he'
      obtain rfl := Except.error.inj he'
      rw [reject] at hpolicy
      cases hpolicy
    · rintro ⟨hwithin, -⟩
      exact absurd exceeds hwithin
  verdict hwithin := absurd exceeds hwithin

theorem ValidatorVerdict.of_policyReject
    (own : ¬ request.Exceeds (SignatureVerifier.maxSignatureSize v .validatorMessage))
    (exceeds : request.Exceeds config.validatorPathMaxSignatureSize)
    (h : ∃ e, result = .error e ∧ e.networkValidationOutcome = some .policyReject) :
    ValidatorVerdict config v request result where
  ownLimit hexceeds := absurd hexceeds own
  transportGuard := ⟨fun _ => ⟨own, exceeds⟩, fun _ => h⟩
  verdict _ hwithin := absurd exceeds hwithin

theorem ValidatorVerdict.of_verdict
    (own : ¬ request.Exceeds (SignatureVerifier.maxSignatureSize v .validatorMessage))
    (transportGuard : ¬ request.Exceeds config.validatorPathMaxSignatureSize)
    (h : result = (verify v request).mapError .verificationFailed ∧
      ∀ e, result = .error e → e.networkValidationOutcome = some .reject) :
    ValidatorVerdict config v request result where
  ownLimit hexceeds := absurd hexceeds own
  transportGuard := by
    constructor
    · rintro ⟨e, he, hpolicy⟩
      rw [h.2 e he] at hpolicy
      cases hpolicy
    · rintro ⟨-, hexceeds⟩
      exact absurd hexceeds transportGuard
  verdict _ _ := h

end

/-- The signature exceeds the verifier's own limit, and a transport guard that is no larger. -/
def GuardHidesLimit (config : DispatcherConfig) (v : ν) (request : SignatureVerificationRequest) :
    Prop :=
  ∃ transportGuard ∈ config.validatorPathMaxSignatureSize,
    ∃ own ∈ SignatureVerifier.maxSignatureSize v .validatorMessage,
      transportGuard ≤ own ∧ own < request.signature.length

/-- The verdict under a guard that is exceeded and not above the verifier's own limit. -/
theorem verdict_of_guard {id : UInt8} (found : registry.verifier id = some v) {configured : Nat}
    (limit : registry.config.validatorPathMaxSignatureSize = some configured)
    (smaller : ∀ own ∈ SignatureVerifier.maxSignatureSize v .validatorMessage, configured ≤ own)
    (exceeds : configured < request.signature.length) :
    ∃ e, Logged.outcome (registry.verifyValidatorMessage id request) = .error e ∧
      e.networkValidationOutcome = some .policyReject := by
  have hsize : checkSignatureSize (registry.maxSignatureSize v .validatorMessage) request
      .validatorMessage = .error (.signatureSizeExceeded
        ⟨configured, request.signature.length, .validatorMessage, .localTransportGuard⟩) :=
    checkSignatureSize_of_configured limit smaller exceeds
  exact ⟨_, (runs_of_exceeding found hsize).outcome_eq, rfl⟩

/-- The verdict past an own limit that is below the guard, if there is one. -/
theorem verdict_of_own {id : UInt8} (found : registry.verifier id = some v) {own : Nat}
    (limit : SignatureVerifier.maxSignatureSize v .validatorMessage = some own)
    (smaller : ∀ configured ∈ registry.config.validatorPathMaxSignatureSize, own < configured)
    (exceeds : own < request.signature.length) :
    ∃ e, Logged.outcome (registry.verifyValidatorMessage id request) = .error e ∧
      e.networkValidationOutcome = some .reject := by
  have hsize : checkSignatureSize (registry.maxSignatureSize v .validatorMessage) request
      .validatorMessage = .error (.signatureSizeExceeded
        ⟨own, request.signature.length, .validatorMessage, .scheme⟩) :=
    checkSignatureSize_of_own limit smaller exceeds
  exact ⟨_, (runs_of_exceeding found hsize).outcome_eq, rfl⟩

theorem verdict_of_within {id : UInt8} (found : registry.verifier id = some v)
    (own : ¬ request.Exceeds (SignatureVerifier.maxSignatureSize v .validatorMessage))
    (transportGuard : ¬ request.Exceeds registry.config.validatorPathMaxSignatureSize) :
    Logged.outcome (registry.verifyValidatorMessage id request) =
        (verify v request).mapError .verificationFailed ∧
      ∀ e, Logged.outcome (registry.verifyValidatorMessage id request) = .error e →
        e.networkValidationOutcome = some .reject := by
  have hsize : checkSignatureSize (registry.maxSignatureSize v .validatorMessage) request
      .validatorMessage = .ok () := checkSignatureSize_eq_ok_iff.mpr ⟨transportGuard, own⟩
  have houtcome := (runs_of_within found hsize).outcome_eq
  refine ⟨houtcome, ?_⟩
  intro e he
  rw [verifyValidatorMessage, houtcome] at he
  cases hverdict : verify v request with
  | ok u =>
    rw [hverdict] at he
    cases he
  | error failure =>
    rw [hverdict] at he
    obtain rfl := Except.error.inj he
    rfl

/-- The validator path gives every signature the verdict it should have if and only if no
transport guard hides an own limit that the signature exceeds. -/
theorem validator_path_verdict_iff (registry : VerifierRegistry ν) (id : UInt8) (v : ν)
    (found : registry.verifier id = some v) (request : SignatureVerificationRequest) :
    ValidatorVerdict registry.config v request
        (Logged.outcome (registry.verifyValidatorMessage id request)) ↔
      ¬ GuardHidesLimit registry.config v request := by
  constructor
  · rintro hverdict ⟨configured, hconfigured, own, hown, hle, hexceeds⟩
    obtain ⟨e, he, hpolicy⟩ := verdict_of_guard found hconfigured
      (fun own' hown' => by
        rw [Option.mem_unique hown' hown]
        exact hle)
      (Nat.lt_of_le_of_lt hle hexceeds)
    exact (hverdict.transportGuard.mp ⟨e, he, hpolicy⟩).1 ⟨own, hown, hexceeds⟩
  · intro hshown
    -- What the result is follows from which of the two limits the signature exceeds.
    by_cases hown : request.Exceeds (SignatureVerifier.maxSignatureSize v .validatorMessage)
    · obtain ⟨own, hlimit, hexceeds⟩ := hown
      obtain ⟨e, he, hreject⟩ := verdict_of_own found hlimit
        (fun configured hconfigured => by
          by_contra hle
          exact hshown ⟨configured, hconfigured, own, hlimit, Nat.le_of_not_lt hle, hexceeds⟩)
        hexceeds
      exact .of_reject ⟨own, hlimit, hexceeds⟩ he hreject
    · by_cases hguard : request.Exceeds registry.config.validatorPathMaxSignatureSize
      · obtain ⟨configured, hlimit, hexceeds⟩ := hguard
        have hpolicy := verdict_of_guard found hlimit
          (fun own hlimit' => by
            have hwithin : ¬ own < request.signature.length := fun h => hown ⟨own, hlimit', h⟩
            omega)
          hexceeds
        exact .of_policyReject hown ⟨configured, hlimit, hexceeds⟩ hpolicy
      · exact .of_verdict hown hguard (verdict_of_within found hown hguard)

/-! ## A guard of 128 bytes before an own limit of 256 -/

/-- The verifier the tests of the registry register. -/
structure MockVerifier where
  schemeId : UInt8
  maxUserSize : Option Nat
  maxValidatorSize : Option Nat
  shouldFail : Bool
  deriving DecidableEq

instance : SignatureVerifier MockVerifier where
  schemeId v := v.schemeId
  maxSignatureSize v
    | .transactionAuthorization => v.maxUserSize
    | .validatorMessage => v.maxValidatorSize
  verify v _ :=
    if v.shouldFail then .error ⟨v.schemeId, "mock verifier rejected the artifact"⟩ else .ok ()

def sampleVerifier : MockVerifier := ⟨9, none, some 256, false⟩

def sampleRegistry : VerifierRegistry MockVerifier :=
  (registerVerifier (withConfig ⟨defaultUserPathMaxSignatureSize, some 128⟩) sampleVerifier).2

def sampleRequest (signatureLen : Nat) : SignatureVerificationRequest :=
  ⟨List.replicate 32 7, ByteCodec.zeros 32, List.replicate signatureLen 1⟩

@[simp] theorem length_sampleRequest (signatureLen : Nat) :
    (sampleRequest signatureLen).signature.length = signatureLen :=
  List.length_replicate

theorem found_sampleVerifier : sampleRegistry.verifier 9 = some sampleVerifier := rfl

/-- Between the two limits the verdict is the right one. -/
theorem validator_path_verdict_iff_between :
    sampleRegistry.verifier 9 = some sampleVerifier ∧
      ValidatorVerdict sampleRegistry.config sampleVerifier (sampleRequest 129)
        (Logged.outcome (sampleRegistry.verifyValidatorMessage 9 (sampleRequest 129))) := by
  refine ⟨found_sampleVerifier, ?_⟩
  rw [validator_path_verdict_iff sampleRegistry 9 sampleVerifier found_sampleVerifier]
  rintro ⟨_, -, own, hown, -, hexceeds⟩
  obtain rfl : 256 = own := Option.some.inj hown
  rw [length_sampleRequest] at hexceeds
  omega

/-- Past both limits the guard is reported, and the signature is no longer consensus-invalid. -/
theorem guard_softens_scheme_limit :
    Logged.outcome (sampleRegistry.verifyValidatorMessage 9 (sampleRequest 257)) =
        .error (.signatureSizeExceeded ⟨128, 257, .validatorMessage, .localTransportGuard⟩) ∧
      ¬ ValidatorVerdict sampleRegistry.config sampleVerifier (sampleRequest 257)
        (Logged.outcome (sampleRegistry.verifyValidatorMessage 9 (sampleRequest 257))) := by
  have hsize : checkSignatureSize
      (sampleRegistry.maxSignatureSize sampleVerifier .validatorMessage) (sampleRequest 257)
      .validatorMessage = .error (.signatureSizeExceeded
        ⟨128, (sampleRequest 257).signature.length, .validatorMessage, .localTransportGuard⟩) :=
    checkSignatureSize_of_configured rfl (by decide) (by simp)
  have houtcome := (runs_of_exceeding found_sampleVerifier hsize).outcome_eq
  rw [length_sampleRequest] at houtcome
  refine ⟨houtcome, fun hverdict => ?_⟩
  obtain ⟨e, he, hreject⟩ := hverdict.ownLimit ⟨256, rfl, by simp⟩
  rw [verifyValidatorMessage, houtcome] at he
  obtain rfl := Except.error.inj he
  cases hreject

end VerifierRegistry

end ShellCrypto
