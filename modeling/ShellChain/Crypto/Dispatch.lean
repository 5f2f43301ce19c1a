import ShellChain.Primitives.Types

/-!
# Signature verification requests

`shell-crypto` as its callers see it: a dispatcher answers a request for a
scheme on one of two paths.
-/

namespace ShellCrypto

open ShellPrimitives

inductive VerificationPath where
  | transactionAuthorization
  | validatorMessage
  deriving DecidableEq

structure SignatureVerificationRequest where
  publicKeyMaterial : List UInt8
  signingRoot : Root
  signature : List UInt8
  deriving DecidableEq

inductive SignatureLimitKind where
  | repositoryRule
  | localTransportGuard
  | scheme
  deriving DecidableEq

structure UnsupportedSchemeError where
  schemeId : UInt8
  deriving DecidableEq

structure SignatureSizeExceededError where
  maxSize : Nat
  actualSize : Nat
  path : VerificationPath
  kind : SignatureLimitKind
  deriving DecidableEq

structure VerificationFailure where
  schemeId : UInt8
  context : String
  deriving DecidableEq

inductive CryptoError where
  | unsupportedScheme (error : UnsupportedSchemeError)
  | signatureSizeExceeded (error : SignatureSizeExceededError)
  | verificationFailed (error : VerificationFailure)
  deriving DecidableEq

/-- A local transport guard on the validator path is the one limit that is mere policy. -/
def CryptoError.networkValidationOutcome : CryptoError → Option ValidationOutcome
  | .unsupportedScheme _ => some .reject
  | .verificationFailed _ => some .reject
  | .signatureSizeExceeded error =>
    if error.path = .validatorMessage ∧ error.kind = .localTransportGuard then some .policyReject
    else some .reject

/-- A dispatcher's two verification paths as functions of the scheme and the request. -/
structure SignatureDispatcher where
  verifyTransactionAuthorization :
    UInt8 → SignatureVerificationRequest → Except CryptoError Unit
  verifyValidatorMessage : UInt8 → SignatureVerificationRequest → Except CryptoError Unit

/-- One call of a dispatcher. -/
structure DispatcherCall where
  schemeId : UInt8
  request : SignatureVerificationRequest
  deriving DecidableEq

end ShellCrypto
