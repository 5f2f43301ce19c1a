import ShellChain.Crypto.Dispatch
import ShellChain.Library.History
import ShellChain.Library.KeyedList

/-!
# The verifier registry

The dispatcher of `shell-crypto`. Verifiers are of any type, so that two of
them may be told apart by more than what they answer; every call of `verify` is
logged with the verifier it goes to. A registry keeps one verifier for each
scheme, and merges two size limits into one before it verifies anything.
-/

namespace ShellCrypto

open ShellPrimitives ServiceEvent

class SignatureVerifier (ν : Type) where
  schemeId : ν → UInt8
  maxSignatureSize : ν → VerificationPath → Option Nat := fun _ _ => none
  verify : ν → SignatureVerificationRequest → Except VerificationFailure Unit

def defaultUserPathMaxSignatureSize : Nat := 8 * 1024

structure DispatcherConfig where
  userPathMaxSignatureSize : Nat := defaultUserPathMaxSignatureSize
  validatorPathMaxSignatureSize : Option Nat := none
  deriving DecidableEq

structure ResolvedSignatureLimit where
  maxSize : Nat
  kind : SignatureLimitKind
  deriving DecidableEq

/-- One call of `verify`. -/
structure VerifierCall (ν : Type) where
  verifier : ν
  request : SignatureVerificationRequest

structure VerifierRegistry (ν : Type) where
  config : DispatcherConfig
  verifiers : List ν

namespace VerifierRegistry
variable {ν : Type} [SignatureVerifier ν]

omit [SignatureVerifier ν] in
def withConfig (config : DispatcherConfig) : VerifierRegistry ν := ⟨config, []⟩

omit [SignatureVerifier ν] in
def new : VerifierRegistry ν := withConfig {}

/-- Replaces the verifier of the same scheme in its place, or appends. -/
def registerVerifier (registry : VerifierRegistry ν) (verifier : ν) :
    Option ν × VerifierRegistry ν :=
  let filed := KeyedList.file SignatureVerifier.schemeId verifier registry.verifiers
  (filed.1, { registry with verifiers := filed.2 })

def verifier (registry : VerifierRegistry ν) (schemeId : UInt8) : Option ν :=
  KeyedList.lookup SignatureVerifier.schemeId schemeId registry.verifiers

/-! ## Verification -/

/-- The verifier's own limit counts when it is below the limit of the path. -/
def maxSignatureSize (registry : VerifierRegistry ν) (verifier : ν) (path : VerificationPath) :
    Option ResolvedSignatureLimit :=
  let chosen : Option ResolvedSignatureLimit := match path with
    | .transactionAuthorization => some ⟨registry.config.userPathMaxSignatureSize, .repositoryRule⟩
    | .validatorMessage => registry.config.validatorPathMaxSignatureSize.map fun maxSize =>
        ⟨maxSize, .localTransportGuard⟩
  match SignatureVerifier.maxSignatureSize verifier path with
  | none => chosen
  | some maxSize =>
    if (chosen.map fun current => decide (maxSize < current.maxSize)).getD true then
      some ⟨maxSize, .scheme⟩
    else chosen

def checkSignatureSize (limit : Option ResolvedSignatureLimit)
    (request : SignatureVerificationRequest) (path : VerificationPath) : Except CryptoError Unit :=
  match limit with
  | some limit =>
    if request.signature.length > limit.maxSize then
      .error (.signatureSizeExceeded ⟨limit.maxSize, request.signature.length, path, limit.kind⟩)
    else .ok ()
  | none => .ok ()

def verifyForPath (registry : VerifierRegistry ν) (schemeId : UInt8)
    (request : SignatureVerificationRequest) (path : VerificationPath) :
    ExceptT CryptoError (Logged (VerifierCall ν)) Unit := do
  let verifier ← Logged.silent (match registry.verifier schemeId with
    | some verifier => .ok verifier
    | none => .error (.unsupportedScheme ⟨schemeId⟩))
  Logged.silent (checkSignatureSize (registry.maxSignatureSize verifier path) request path)
  Logged.invoke ⟨verifier, request⟩
    ((SignatureVerifier.verify verifier request).mapError .verificationFailed)

def verifyTransactionAuthorization (registry : VerifierRegistry ν) (schemeId : UInt8)
    (request : SignatureVerificationRequest) :
    ExceptT CryptoError (Logged (VerifierCall ν)) Unit :=
  registry.verifyForPath schemeId request .transactionAuthorization

def verifyValidatorMessage (registry : VerifierRegistry ν) (schemeId : UInt8)
    (request : SignatureVerificationRequest) :
    ExceptT CryptoError (Logged (VerifierCall ν)) Unit :=
  registry.verifyForPath schemeId request .validatorMessage

/-- The registry as its callers hold it. -/
def dispatcher (registry : VerifierRegistry ν) : SignatureDispatcher where
  verifyTransactionAuthorization schemeId request :=
    Logged.outcome (registry.verifyTransactionAuthorization schemeId request)
  verifyValidatorMessage schemeId request :=
    Logged.outcome (registry.verifyValidatorMessage schemeId request)

end VerifierRegistry

end ShellCrypto
