import ShellChain.Consensus.Import

/-!
# Consequences for the peer

`shell-network` turns an error into an action against the peer it came from.
The errors are classified a second time here, apart from the outcome each of
them reports for itself. A local origin has no peer to penalise, so every
action against it is to ignore.
-/

namespace ShellNetwork

open ShellPrimitives ShellCrypto ShellMempool ShellConsensus

/-! ## Origins and actions -/

structure PeerId where
  bytes : List UInt8
  deriving DecidableEq

inductive NetworkOrigin where
  | gossip (peerId : PeerId)
  | fetch (peerId : PeerId)
  | sync (peerId : PeerId)
  | localRpc
  | localBuilder
  | testHarness
  deriving DecidableEq

def NetworkOrigin.penalizesPeer : NetworkOrigin → Bool
  | .gossip _ => true
  | .fetch _ => true
  | .sync _ => true
  | .localRpc => false
  | .localBuilder => false
  | .testHarness => false

inductive PeerActionHint where
  | rejectedObject
  | malformedAnnouncement
  | invalidTransaction
  | invalidBlock
  | invalidSignature
  | oversizedObject
  | policyRejected
  | internalError
  deriving DecidableEq

structure ReputationDelta where
  value : Int
  hint : PeerActionHint
  deriving DecidableEq

inductive PeerAction where
  | accept
  | ignore (hint : PeerActionHint)
  | adjustReputation (delta : ReputationDelta)
  | disconnect (hint : PeerActionHint)
  deriving DecidableEq

/-! ## Scoring -/

def policyReputationDelta : Int := -10
def oversizedReputationDelta : Int := -5

def disconnectAction (origin : NetworkOrigin) (hint : PeerActionHint) : PeerAction :=
  if origin.penalizesPeer then .disconnect hint else .ignore hint

def policyAction (origin : NetworkOrigin) (value : Int) (hint : PeerActionHint) : PeerAction :=
  if origin.penalizesPeer then .adjustReputation ⟨value, hint⟩ else .ignore hint

def peerActionForValidationOutcome (origin : NetworkOrigin) : ValidationOutcome → PeerAction
  | .accept => .accept
  | .reject => disconnectAction origin .rejectedObject
  | .policyReject => policyAction origin policyReputationDelta .policyRejected

def peerActionForMempoolError (origin : NetworkOrigin) (stage : ValidationStage) :
    ValidationError → PeerAction
  | .primitive (.malformedSsz _) =>
    if stage = .t0 then disconnectAction origin .malformedAnnouncement
    else disconnectAction origin .invalidTransaction
  | .primitive (.unsupportedPayloadVariant _) => disconnectAction origin .invalidTransaction
  | .primitive (.payloadRootMismatch _ _) => disconnectAction origin .invalidTransaction
  | .primitive (.authorizationCount _ _) => disconnectAction origin .invalidTransaction
  | .primitive (.signatureSizeExceeded _ _) => disconnectAction origin .invalidTransaction
  | .primitive (.signingRootConstruction _) => .ignore .internalError
  | .primitive (.unimplemented _) => .ignore .internalError
  | .unsupportedScheme _ => disconnectAction origin .invalidSignature
  | .signatureSizeExceeded _ => disconnectAction origin .invalidSignature
  | .signatureVerification _ => disconnectAction origin .invalidSignature
  | .feeFloor _ => policyAction origin policyReputationDelta .policyRejected
  | .noncePolicy _ => policyAction origin policyReputationDelta .policyRejected
  | .signingRootUnavailable _ => .ignore .internalError
  | .authorizationMaterialCount _ => .ignore .internalError

def peerActionForProposerCredentialError (origin : NetworkOrigin) :
    ProposerCredentialResolutionError → PeerAction
  | .resolverUnavailable => .ignore .internalError
  | .notFound => disconnectAction origin .invalidBlock
  | .invalidCredentialEncoding _ _ => disconnectAction origin .invalidBlock

def peerActionForConsensusCryptoError (origin : NetworkOrigin) : CryptoError → PeerAction
  | .signatureSizeExceeded sizeError =>
    if sizeError.path = .validatorMessage ∧ sizeError.kind = .localTransportGuard then
      policyAction origin oversizedReputationDelta .oversizedObject
    else disconnectAction origin .invalidSignature
  | .unsupportedScheme _ => disconnectAction origin .invalidSignature
  | .verificationFailed _ => disconnectAction origin .invalidSignature

/-- Every primitive error of a block is taken for a malformed announcement. -/
def peerActionForConsensusError (origin : NetworkOrigin) : ConsensusError → PeerAction
  | .primitive _ => disconnectAction origin .malformedAnnouncement
  | .domain _ => .ignore .internalError
  | .proposerCredentialResolution error => peerActionForProposerCredentialError origin error
  | .crypto error => peerActionForConsensusCryptoError origin error
  | .transactionValidation error => peerActionForMempoolError origin .b3 error
  | .execution _ => disconnectAction origin .invalidBlock
  | .state _ => disconnectAction origin .invalidBlock
  | .witnessByteLimitExceeded _ => policyAction origin oversizedReputationDelta .oversizedObject
  | .headerBodyRootMismatch _ => disconnectAction origin .invalidBlock
  | .sidecarBlockRootMismatch _ => disconnectAction origin .invalidBlock
  | .sidecarCommitmentMismatch _ => disconnectAction origin .invalidBlock

/-! ## Remote origins -/

/-- The action is the one an outcome calls for: disconnect on rejection, a lower reputation on a
policy rejection, and nothing against the peer where there is no verdict. -/
structure FollowsOutcome (action : PeerAction) (outcome : Option ValidationOutcome) : Prop where
  disconnects : (∃ hint, action = .disconnect hint) ↔ outcome = some .reject
  lowersReputation :
    (∃ delta, action = .adjustReputation delta ∧ delta.value < 0) ↔ outcome = some .policyReject
  ignores : action = .ignore .internalError ↔ outcome = none

section
variable {origin : NetworkOrigin} (remote : origin.penalizesPeer = true)
include remote

theorem disconnectAction_follows (hint : PeerActionHint) :
    FollowsOutcome (disconnectAction origin hint) (some .reject) := by
  rw [disconnectAction, if_pos remote]
  exact ⟨by simp, by simp, by simp⟩

theorem policyAction_follows {value : Int} (negative : value < 0) (hint : PeerActionHint) :
    FollowsOutcome (policyAction origin value hint) (some .policyReject) := by
  rw [policyAction, if_pos remote]
  refine ⟨by simp, ?_, by simp⟩
  exact ⟨fun _ => rfl, fun _ => ⟨_, rfl, negative⟩⟩

omit remote in
theorem internal_follows : FollowsOutcome (.ignore .internalError) none :=
  ⟨by simp, by simp, by simp⟩

theorem validationOutcome_follows (outcome : ValidationOutcome) :
    FollowsOutcome (peerActionForValidationOutcome origin outcome) (some outcome) := by
  cases outcome with
  | accept => exact ⟨by simp [peerActionForValidationOutcome],
      by simp [peerActionForValidationOutcome], by simp [peerActionForValidationOutcome]⟩
  | reject => exact disconnectAction_follows remote _
  | policyReject => exact policyAction_follows remote (by decide) _

/-- The stage only picks the hint. -/
theorem mempoolError_follows (stage : ValidationStage) (e : ValidationError) :
    FollowsOutcome (peerActionForMempoolError origin stage e) e.networkValidationOutcome := by
  cases e with
  | primitive error =>
    cases error with
    | malformedSsz context =>
      rw [peerActionForMempoolError]
      split
      · exact disconnectAction_follows remote _
      · exact disconnectAction_follows remote _
    | signingRootConstruction context => exact internal_follows
    | unimplemented context => exact internal_follows
    | _ => exact disconnectAction_follows remote _
  | feeFloor error => exact policyAction_follows remote (by decide) _
  | noncePolicy error => exact policyAction_follows remote (by decide) _
  | signingRootUnavailable error => exact internal_follows
  | authorizationMaterialCount error => exact internal_follows
  | _ => exact disconnectAction_follows remote _

theorem credentialError_follows (e : ProposerCredentialResolutionError) :
    FollowsOutcome (peerActionForProposerCredentialError origin e)
      (ConsensusError.proposerCredentialResolution e).networkValidationOutcome := by
  cases e with
  | resolverUnavailable => exact internal_follows
  | notFound => exact disconnectAction_follows remote _
  | invalidCredentialEncoding schemeId context => exact disconnectAction_follows remote _

theorem cryptoError_follows (e : CryptoError) :
    FollowsOutcome (peerActionForConsensusCryptoError origin e) e.networkValidationOutcome := by
  cases e with
  | signatureSizeExceeded error =>
    rw [peerActionForConsensusCryptoError, CryptoError.networkValidationOutcome]
    split
    · exact policyAction_follows remote (by decide) _
    · exact disconnectAction_follows remote _
  | _ => exact disconnectAction_follows remote _

/-- A primitive error disconnects, which is right where it is a rejection. -/
theorem primitiveError_follows_iff (e : PrimitiveError) :
    FollowsOutcome (peerActionForConsensusError origin (.primitive e))
        e.networkValidationOutcome ↔
      e.networkValidationOutcome = some .reject := by
  constructor
  · intro h
    apply h.disconnects.mp
    exact ⟨_, if_pos remote⟩
  · intro h
    rw [h]
    exact disconnectAction_follows remote _

end

/-- The error comes from the node itself: a signing root that could not be built, or a code path
that is not there yet. -/
def InternalPrimitive : ConsensusError → Prop
  | .primitive (.signingRootConstruction _) => True
  | .primitive (.unimplemented _) => True
  | _ => False

theorem consensusError_follows_iff {origin : NetworkOrigin} (remote : origin.penalizesPeer = true)
    (e : ConsensusError) :
    FollowsOutcome (peerActionForConsensusError origin e) e.networkValidationOutcome ↔
      ¬ InternalPrimitive e := by
  cases e with
  | primitive error =>
    refine (primitiveError_follows_iff remote error).trans ?_
    cases error <;> simp [PrimitiveError.networkValidationOutcome, InternalPrimitive]
  | domain error => exact iff_of_true internal_follows not_false
  | crypto error => exact iff_of_true (cryptoError_follows remote error) not_false
  | transactionValidation error => exact iff_of_true (mempoolError_follows remote _ error) not_false
  | proposerCredentialResolution error =>
    exact iff_of_true (credentialError_follows remote error) not_false
  | witnessByteLimitExceeded error =>
    exact iff_of_true (policyAction_follows remote (by decide) _) not_false
  | _ => exact iff_of_true (disconnectAction_follows remote _) not_false

/-! ## Local origins -/

def Ignored (action : PeerAction) : Prop := ∃ hint, action = .ignore hint

section
variable {origin : NetworkOrigin} (internal : origin.penalizesPeer = false)
include internal

theorem disconnectAction_ignored (hint : PeerActionHint) :
    Ignored (disconnectAction origin hint) := by
  refine ⟨hint, ?_⟩
  rw [disconnectAction, internal]
  rfl

theorem policyAction_ignored (value : Int) (hint : PeerActionHint) :
    Ignored (policyAction origin value hint) := by
  refine ⟨hint, ?_⟩
  rw [policyAction, internal]
  rfl

theorem mempoolError_ignored (stage : ValidationStage) (e : ValidationError) :
    Ignored (peerActionForMempoolError origin stage e) := by
  cases e with
  | primitive error =>
    cases error with
    | malformedSsz context =>
      rw [peerActionForMempoolError]
      split
      · exact disconnectAction_ignored internal _
      · exact disconnectAction_ignored internal _
    | signingRootConstruction context => exact ⟨_, rfl⟩
    | unimplemented context => exact ⟨_, rfl⟩
    | _ => exact disconnectAction_ignored internal _
  | feeFloor error => exact policyAction_ignored internal _ _
  | noncePolicy error => exact policyAction_ignored internal _ _
  | signingRootUnavailable error => exact ⟨_, rfl⟩
  | authorizationMaterialCount error => exact ⟨_, rfl⟩
  | _ => exact disconnectAction_ignored internal _

theorem consensusError_ignored (e : ConsensusError) :
    Ignored (peerActionForConsensusError origin e) := by
  cases e with
  | domain error => exact ⟨_, rfl⟩
  | crypto error =>
    cases error with
    | signatureSizeExceeded error =>
      rw [peerActionForConsensusError, peerActionForConsensusCryptoError]
      split
      · exact policyAction_ignored internal _ _
      · exact disconnectAction_ignored internal _
    | _ => exact disconnectAction_ignored internal _
  | transactionValidation error => exact mempoolError_ignored internal _ error
  | proposerCredentialResolution error =>
    cases error with
    | resolverUnavailable => exact ⟨_, rfl⟩
    | _ => exact disconnectAction_ignored internal _
  | witnessByteLimitExceeded error => exact policyAction_ignored internal _ _
  | _ => exact disconnectAction_ignored internal _

end

/-! ## Every error -/

/-- What the actions for a consensus error and a mempool error at some stage should be: on a
remote origin they follow the outcomes, on a local one they are to ignore. -/
structure ActionsFollow (origin : NetworkOrigin) (stage : ValidationStage) (e : ConsensusError)
    (v : ValidationError) : Prop where
  consensus : origin.penalizesPeer = true →
    FollowsOutcome (peerActionForConsensusError origin e) e.networkValidationOutcome
  mempool : origin.penalizesPeer = true →
    FollowsOutcome (peerActionForMempoolError origin stage v) v.networkValidationOutcome
  localOrigin : origin.penalizesPeer = false →
    Ignored (peerActionForConsensusError origin e) ∧
      Ignored (peerActionForMempoolError origin stage v)

/-- The actions are as they should be unless a remote peer is blamed for an internal primitive
error. -/
theorem peer_actions_follow_outcomes_iff (origin : NetworkOrigin) (stage : ValidationStage)
    (e : ConsensusError) (v : ValidationError) :
    ActionsFollow origin stage e v ↔ ¬ (origin.penalizesPeer = true ∧ InternalPrimitive e) := by
  constructor
  · rintro hfollow ⟨remote, internal⟩
    exact (consensusError_follows_iff remote e).mp (hfollow.consensus remote) internal
  · intro hexternal
    refine ⟨?_, ?_, ?_⟩
    · intro remote
      exact (consensusError_follows_iff remote e).mpr fun internal => hexternal ⟨remote, internal⟩
    · intro remote
      exact mempoolError_follows remote stage v
    · intro internal
      exact ⟨consensusError_ignored internal e, mempoolError_ignored internal stage v⟩

/-- A signing root this node could not build gets a remote peer disconnected. -/
theorem internal_error_disconnects :
    peerActionForConsensusError (.gossip ⟨[3]⟩)
        (.primitive (.signingRootConstruction "no domain")) =
      .disconnect .malformedAnnouncement ∧
    (ConsensusError.primitive (.signingRootConstruction "no domain")).networkValidationOutcome =
      none ∧
    ¬ ∀ origin stage e v, ActionsFollow origin stage e v := by
  refine ⟨rfl, rfl, ?_⟩
  intro hall
  have hfollow := hall (.gossip ⟨[3]⟩) .b3 (.primitive (.signingRootConstruction "no domain"))
    (.primitive (.malformedSsz "truncated header"))
  cases (hfollow.consensus rfl).disconnects.mp ⟨_, rfl⟩

end ShellNetwork
