import ShellChain.Crypto.Dispatch
import ShellChain.Primitives.Validation

/-!
# Transaction admission

`shell-mempool`: fees, nonces and authorizations of one envelope under a local
policy. Only the last stage calls the dispatcher, and every call is logged.
-/

namespace ShellMempool

open ByteCodec ShellPrimitives ShellCrypto

/-! ## Errors and outcomes -/

inductive FeeLane where
  | payload
  | witness
  deriving DecidableEq

structure FeeFloorError where
  lane : FeeLane
  required : GasPrice
  actual : GasPrice
  deriving DecidableEq

structure NoncePolicyError where
  context : String
  deriving DecidableEq

structure SigningRootUnavailableError where
  context : String
  deriving DecidableEq

structure AuthorizationMaterialCountError where
  expected : Nat
  actual : Nat
  deriving DecidableEq

inductive ValidationError where
  | primitive (error : PrimitiveError)
  | unsupportedScheme (error : UnsupportedSchemeError)
  | signatureSizeExceeded (error : SignatureSizeExceededError)
  | signatureVerification (error : VerificationFailure)
  | feeFloor (error : FeeFloorError)
  | noncePolicy (error : NoncePolicyError)
  | signingRootUnavailable (error : SigningRootUnavailableError)
  | authorizationMaterialCount (error : AuthorizationMaterialCountError)
  deriving DecidableEq

/-- Fees and nonces are local policy; missing material is no verdict on the envelope. -/
def ValidationError.networkValidationOutcome : ValidationError → Option ValidationOutcome
  | .primitive error => error.networkValidationOutcome
  | .unsupportedScheme _ => some .reject
  | .signatureSizeExceeded _ => some .reject
  | .signatureVerification _ => some .reject
  | .feeFloor _ => some .policyReject
  | .noncePolicy _ => some .policyReject
  | .signingRootUnavailable _ => none
  | .authorizationMaterialCount _ => none

structure TentativeAccepted where
  payloadRoot : Root
  authorizationCount : Nat
  deriving DecidableEq

structure AuthorizationValidated where
  payloadRoot : Root
  signingRoot : Root
  verifiedAuthorizationCount : Nat
  deriving DecidableEq

/-! ## Policy -/

structure FeeSchedule where
  payloadLaneBaseFee : GasPrice
  witnessLaneBaseFee : GasPrice
  deriving DecidableEq

structure NoncePolicy where
  maxFutureNonceGap : UInt64
  deriving DecidableEq

inductive TransactionAuthorizationDomain where
  | canonical
  | explicit (domainType : Bytes4)
  deriving DecidableEq

inductive MultiAuthorizationPolicy where
  | requireAll
  deriving DecidableEq

structure AdmissionPolicy where
  feeSchedule : FeeSchedule
  noncePolicy : NoncePolicy
  authorizationDomain : TransactionAuthorizationDomain
  multiAuthorizationPolicy : MultiAuthorizationPolicy
  deriving DecidableEq

structure AuthorizationMaterial where
  publicKeyMaterial : List UInt8
  deriving DecidableEq

/-- `observed_nonce` of a state view. -/
abbrev AdmissionStateView := TransactionEnvelope → Option UInt64

def TransactionAuthorizationDomain.signingRoot (sha256 : List UInt8 → Root)
    (domain : TransactionAuthorizationDomain) (payloadRoot : Root) :
    Except SigningRootUnavailableError Root := do
  let signingData ← match domain with
    | .canonical => (buildSigningData payloadRoot .transactionAuthorization).mapError fun _ =>
        ⟨"failed to construct signing_root from the canonical transaction authorization domain"⟩
    | .explicit domainType => .ok ⟨payloadRoot, domainType⟩
  (Ssz.signingRoot sha256 signingData).mapError fun _ =>
    ⟨"failed to construct signing_root from transaction authorization domain bytes"⟩

/-! ## Fees -/

/-- The loop over byte pairs, most significant first; it stops at the first difference. -/
def compareBytes : List (UInt8 × UInt8) → Ordering
  | [] => .eq
  | (left, right) :: rest =>
    match compareOfLessAndEq left right with
    | .eq => compareBytes rest
    | ordering => ordering

def compareU256 (left right : U256) : Ordering :=
  compareBytes (left.bytes.toList.reverse.zip right.bytes.toList.reverse)

def gasPriceCovers (actual required : GasPrice) : Bool :=
  compareU256 actual.value required.value ≠ .lt

def transactionFees (envelope : TransactionEnvelope) : BasicFeesPerGas :=
  match envelope.payload.payload with
  | .basic payload => payload.fees
  | .create payload => payload.fees

def payloadLaneFee (envelope : TransactionEnvelope) : GasPrice :=
  (transactionFees envelope).regular

def witnessLaneFee (envelope : TransactionEnvelope) : GasPrice :=
  (transactionFees envelope).maxWitnessPriorityFee

def transactionNonce (envelope : TransactionEnvelope) : UInt64 :=
  match envelope.payload.payload with
  | .basic payload => payload.nonce
  | .create payload => payload.nonce

def saturatingAdd (a b : UInt64) : UInt64 :=
  if a.toNat + b.toNat < 2 ^ 64 then a + b else UInt64.ofNat (2 ^ 64 - 1)

def mapCryptoError : CryptoError → ValidationError
  | .unsupportedScheme error => .unsupportedScheme error
  | .signatureSizeExceeded error => .signatureSizeExceeded error
  | .verificationFailed error => .signatureVerification error

/-! ## The pipeline -/

structure AdmissionPipeline where
  dispatcher : SignatureDispatcher
  policy : AdmissionPolicy

namespace AdmissionPipeline
variable (pipeline : AdmissionPipeline)

def checkFeePolicy (envelope : TransactionEnvelope) : Except ValidationError Unit :=
  let schedule := pipeline.policy.feeSchedule
  let payloadFee := payloadLaneFee envelope
  let witnessFee := witnessLaneFee envelope
  if !gasPriceCovers payloadFee schedule.payloadLaneBaseFee then
    .error (.feeFloor ⟨.payload, schedule.payloadLaneBaseFee, payloadFee⟩)
  else if !gasPriceCovers witnessFee schedule.witnessLaneBaseFee then
    .error (.feeFloor ⟨.witness, schedule.witnessLaneBaseFee, witnessFee⟩)
  else .ok ()

def checkNoncePolicy (envelope : TransactionEnvelope) (stateView : Option AdmissionStateView) :
    Except ValidationError Unit :=
  match stateView with
  | none => .ok ()
  | some view =>
    match view envelope with
    | none => .ok ()
    | some observedNonce =>
      let txNonce := transactionNonce envelope
      if txNonce < observedNonce then
        .error (.noncePolicy
          ⟨"transaction nonce is lower than the observed replay lane nonce"⟩)
      else if txNonce >
          saturatingAdd observedNonce pipeline.policy.noncePolicy.maxFutureNonceGap then
        .error (.noncePolicy
          ⟨"transaction nonce exceeds the configured future replay lane gap"⟩)
      else .ok ()

def screenTransaction (sha256 : List UInt8 → Root) (envelope : TransactionEnvelope)
    (stateView : Option AdmissionStateView) : Except ValidationError TentativeAccepted := do
  let payloadRoot ← (envelope.payloadRoot sha256).mapError .primitive
  (TransactionPayloadSsz.ensureSupportedTag envelope.payload.protocolTag).mapError .primitive
  (checkAuthorizationCount envelope.authorizations).mapError .primitive
  (checkAuthorizationPayloadRoots sha256 envelope.payload envelope.authorizations).mapError
    .primitive
  envelope.authorizations.forM fun authorization =>
    (checkUserSignatureSize authorization.signature).mapError .primitive
  pipeline.checkFeePolicy envelope
  pipeline.checkNoncePolicy envelope stateView
  .ok ⟨payloadRoot, envelope.authorizations.length⟩

/-- One round of the authorization loop. -/
def verifyAuthorization (signingRoot : Root) (entry : Authorization × AuthorizationMaterial) :
    ExceptT ValidationError (Logged DispatcherCall) Unit :=
  let request := ⟨entry.2.publicKeyMaterial, signingRoot, entry.1.signature⟩
  Logged.invoke ⟨entry.1.schemeId, request⟩
    ((pipeline.dispatcher.verifyTransactionAuthorization entry.1.schemeId request).mapError
      mapCryptoError)

def verifyAuthorizations (sha256 : List UInt8 → Root) (envelope : TransactionEnvelope)
    (accepted : TentativeAccepted) (materials : List AuthorizationMaterial) :
    ExceptT ValidationError (Logged DispatcherCall) AuthorizationValidated := do
  if materials.length ≠ envelope.authorizations.length then
    throw (.authorizationMaterialCount ⟨envelope.authorizations.length, materials.length⟩)
  else do
    let signingRoot ← Logged.silent
      ((pipeline.policy.authorizationDomain.signingRoot sha256 accepted.payloadRoot).mapError
        .signingRootUnavailable)
    match pipeline.policy.multiAuthorizationPolicy with
    | .requireAll =>
      (envelope.authorizations.zip materials).forM (pipeline.verifyAuthorization signingRoot)
    return ⟨accepted.payloadRoot, signingRoot, envelope.authorizations.length⟩

def admitAndVerify (sha256 : List UInt8 → Root) (envelope : TransactionEnvelope)
    (stateView : Option AdmissionStateView) (materials : List AuthorizationMaterial) :
    ExceptT ValidationError (Logged DispatcherCall) AuthorizationValidated := do
  let accepted ← Logged.silent (pipeline.screenTransaction sha256 envelope stateView)
  pipeline.verifyAuthorizations sha256 envelope accepted materials

end AdmissionPipeline

end ShellMempool
