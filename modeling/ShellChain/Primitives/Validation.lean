import ShellChain.Primitives.Ssz

/-!
# Signing domains and the closed validation rules

What a signature is made over, and the checks every transaction passes before
any signature is looked at.
-/

namespace ShellPrimitives

open ByteCodec

/-! ## Domains -/

def domainTxShell : Bytes4 := ⟨[0x01, 0x00, 0x00, 0x00], rfl⟩
def domainValidatorMessage : Bytes4 := ⟨[0x02, 0x00, 0x00, 0x00], rfl⟩

inductive DomainSelector where
  | transactionAuthorization
  | validatorMessage
  deriving DecidableEq

structure DomainError where
  domainName : String
  deriving DecidableEq

def DomainSelector.domainType : DomainSelector → Except DomainError Bytes4
  | .transactionAuthorization => .ok domainTxShell
  | .validatorMessage => .ok domainValidatorMessage

def buildSigningData (objectRoot : Root) (domain : DomainSelector) :
    Except DomainError SigningData := do
  let domainType ← domain.domainType
  .ok ⟨objectRoot, domainType⟩

/-! ## Checks -/

def maxUserSignatureBytes : Nat := 8 * 1024

def checkAuthorizationCount (authorizations : List Authorization) : Except PrimitiveError Unit :=
  if authorizations.isEmpty then .error (.authorizationCount 1 0) else .ok ()

def checkUserSignatureSize (signatureBytes : List UInt8) : Except PrimitiveError Unit :=
  if signatureBytes.length > maxUserSignatureBytes then
    .error (.signatureSizeExceeded maxUserSignatureBytes signatureBytes.length)
  else .ok ()

def checkAuthorizationPayloadRoots (sha256 : List UInt8 → Root) (payload : TransactionPayloadSsz)
    (authorizations : List Authorization) : Except PrimitiveError Unit := do
  let expectedRoot ← payload.hashTreeRoot sha256
  authorizations.forM fun authorization =>
    if authorization.payloadRoot ≠ expectedRoot then
      .error (.payloadRootMismatch expectedRoot authorization.payloadRoot)
    else .ok ()

theorem checkAuthorizationCount_eq_ok_iff (authorizations : List Authorization) :
    checkAuthorizationCount authorizations = .ok () ↔ authorizations ≠ [] := by
  cases authorizations with
  | nil => simp [checkAuthorizationCount]
  | cons a rest => simp [checkAuthorizationCount]

theorem checkUserSignatureSize_eq_ok_iff (signatureBytes : List UInt8) :
    checkUserSignatureSize signatureBytes = .ok () ↔
      signatureBytes.length ≤ maxUserSignatureBytes := by
  rw [checkUserSignatureSize, Except.ite_error_eq_ok_iff, Nat.not_lt]
  exact and_iff_left rfl

theorem checkAuthorizationPayloadRoots_eq_ok_iff (sha256 : List UInt8 → Root)
    (payload : TransactionPayloadSsz) (authorizations : List Authorization) :
    checkAuthorizationPayloadRoots sha256 payload authorizations = .ok () ↔
      ∀ a ∈ authorizations, payload.hashTreeRoot sha256 = .ok a.payloadRoot := by
  have hroot : ∀ a : Authorization, payload.hashTreeRoot sha256 = .ok a.payloadRoot ↔
      ¬ a.payloadRoot ≠ (Ssz.payloadRootRun sha256 payload).value := by
    intro a
    rw [TransactionPayloadSsz.hashTreeRoot, Except.ok.injEq, not_not, eq_comm]
  refine (Except.forM_eq_ok_iff _ _).trans ?_
  simp only [Except.ite_error_eq_ok_iff, hroot, and_true]

end ShellPrimitives
