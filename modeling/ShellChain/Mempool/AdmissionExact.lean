import ShellChain.Library.ByteOrder
import ShellChain.Library.Sha256
import ShellChain.Mempool.Admission

/-!
# What admission accepts

Screening is a conjunction of conditions on the envelope, the policy and the
view, and none of it calls the dispatcher. Past screening the dispatcher is
called once for each authorization, in order, up to the first refusal.
-/

namespace ShellMempool

open ByteCodec ShellPrimitives ShellCrypto Logged

/-! ## Fees and nonces -/

theorem compareBytes_append (high low : List (UInt8 × UInt8)) :
    compareBytes (high ++ low) = (compareBytes high).then (compareBytes low) := by
  induction high with
  | nil => rfl
  | cons pair rest ih =>
    obtain ⟨a, b⟩ := pair
    rw [List.cons_append, compareBytes, compareBytes]
    cases compareOfLessAndEq a b with
    | lt => rfl
    | eq => exact ih
    | gt => rfl

theorem compareBytes_singleton (a b : UInt8) :
    compareBytes [(a, b)] = compareOfLessAndEq a.toNat b.toNat := by
  rw [compareBytes, compareOfLessAndEq_toNat]
  cases compareOfLessAndEq a.toNat b.toNat <;> rfl

/-- Comparing from the most significant byte down compares the numbers. -/
theorem compareBytes_reverse_zip {left right : List UInt8} (same : left.length = right.length) :
    compareBytes (left.reverse.zip right.reverse) =
      compareOfLessAndEq (leNat left) (leNat right) := by
  induction left generalizing right with
  | nil =>
    obtain rfl := List.length_eq_zero_iff.mp same.symm
    rfl
  | cons a left ih =>
    cases right with
    | nil => cases same
    | cons b right =>
      have hlength : left.length = right.length := Nat.succ.inj same
      have hlast : List.zip [a] [b] = [(a, b)] := rfl
      rw [List.reverse_cons, List.reverse_cons, List.zip_append (by simp [hlength]), hlast,
        compareBytes_append, ih hlength, compareBytes_singleton, leNat, leNat]
      exact then_compareOfLessAndEq a.toNat_lt b.toNat_lt _ _

/-- A price covers another when its little-endian value is at least as large. -/
theorem gasPriceCovers_iff (actual required : GasPrice) :
    gasPriceCovers actual required = true ↔
      leNat required.value.bytes.toList ≤ leNat actual.value.bytes.toList := by
  rw [gasPriceCovers, compareU256, compareBytes_reverse_zip (by simp), decide_eq_true_iff,
    compareOfLessAndEq]
  by_cases hlt : leNat actual.value.bytes.toList < leNat required.value.bytes.toList
  · rw [if_pos hlt]
    constructor
    · intro h
      exact absurd rfl h
    · intro h
      omega
  · rw [if_neg hlt]
    constructor
    · intro _
      omega
    · intro _
      split <;> decide

theorem toNat_saturatingAdd (a b : UInt64) :
    (saturatingAdd a b).toNat = min (a.toNat + b.toNat) (2 ^ 64 - 1) := by
  rw [saturatingAdd]
  split
  · rename_i h
    rw [UInt64.toNat_add, Nat.mod_eq_of_lt h]
    omega
  · rename_i h
    change 2 ^ 64 - 1 = _
    omega

namespace AdmissionPipeline
variable {pipeline : AdmissionPipeline} {envelope : TransactionEnvelope}

theorem checkFeePolicy_eq_ok_iff :
    pipeline.checkFeePolicy envelope = .ok () ↔
      leNat pipeline.policy.feeSchedule.payloadLaneBaseFee.value.bytes.toList ≤
          leNat (payloadLaneFee envelope).value.bytes.toList ∧
        leNat pipeline.policy.feeSchedule.witnessLaneBaseFee.value.bytes.toList ≤
          leNat (witnessLaneFee envelope).value.bytes.toList := by
  rw [← gasPriceCovers_iff, ← gasPriceCovers_iff, checkFeePolicy]
  simp only [Except.ite_error_eq_ok_iff, Bool.not_eq_true', Bool.not_eq_false, and_true]

/-- The window is computed with saturation; a nonce never reaches past the saturated bound. -/
theorem checkNoncePolicy_eq_ok_iff (stateView : Option AdmissionStateView) :
    pipeline.checkNoncePolicy envelope stateView = .ok () ↔
      ∀ n ∈ stateView.bind (· envelope),
        n.toNat ≤ (transactionNonce envelope).toNat ∧
          (transactionNonce envelope).toNat ≤
            n.toNat + pipeline.policy.noncePolicy.maxFutureNonceGap.toNat := by
  have hnonce := (transactionNonce envelope).toNat_lt
  cases stateView with
  | none => simp [checkNoncePolicy]
  | some view =>
    rw [checkNoncePolicy, Option.bind_some]
    cases view envelope with
    | none => simp
    | some observed =>
      have hsum := toNat_saturatingAdd observed pipeline.policy.noncePolicy.maxFutureNonceGap
      simp only [Option.mem_def, Option.some.injEq, forall_eq']
      rw [Except.ite_error_eq_ok_iff, Except.ite_error_eq_ok_iff, gt_iff_lt,
        UInt64.lt_iff_toNat_lt, UInt64.lt_iff_toNat_lt]
      constructor
      · rintro ⟨hlow, hhigh, -⟩
        omega
      · intro hwindow
        exact ⟨by omega, by omega, rfl⟩

/-! ## Screening -/

/-- The conditions on an envelope that need no signature work. Fees and nonce are those of the
payload, whichever variant it is. -/
structure Screened (sha256 : List UInt8 → Root) (pipeline : AdmissionPipeline)
    (envelope : TransactionEnvelope) (stateView : Option AdmissionStateView) : Prop where
  authorized : envelope.authorizations ≠ []
  boundToPayload : ∀ a ∈ envelope.authorizations,
    envelope.payload.hashTreeRoot sha256 = .ok a.payloadRoot
  shortSignatures : ∀ a ∈ envelope.authorizations, a.signature.length ≤ 8192
  payloadLane :
    let floor := leNat pipeline.policy.feeSchedule.payloadLaneBaseFee.value.bytes.toList
    match envelope.payload.payload with
    | .basic payload => floor ≤ leNat payload.fees.regular.value.bytes.toList
    | .create payload => floor ≤ leNat payload.fees.regular.value.bytes.toList
  witnessLane :
    let floor := leNat pipeline.policy.feeSchedule.witnessLaneBaseFee.value.bytes.toList
    match envelope.payload.payload with
    | .basic payload => floor ≤ leNat payload.fees.maxWitnessPriorityFee.value.bytes.toList
    | .create payload => floor ≤ leNat payload.fees.maxWitnessPriorityFee.value.bytes.toList
  nonceWindow : ∀ n ∈ stateView.bind (· envelope),
    let last := n.toNat + pipeline.policy.noncePolicy.maxFutureNonceGap.toNat
    match envelope.payload.payload with
    | .basic payload => n.toNat ≤ payload.nonce.toNat ∧ payload.nonce.toNat ≤ last
    | .create payload => n.toNat ≤ payload.nonce.toNat ∧ payload.nonce.toNat ≤ last

variable {sha256 : List UInt8 → Root} {stateView : Option AdmissionStateView}

/-- The accessors of the pipeline read the same fields in both variants. -/
theorem screened_iff :
    Screened sha256 pipeline envelope stateView ↔
      envelope.authorizations ≠ [] ∧
      (∀ a ∈ envelope.authorizations, envelope.payload.hashTreeRoot sha256 = .ok a.payloadRoot) ∧
      (∀ a ∈ envelope.authorizations, a.signature.length ≤ 8192) ∧
      (leNat pipeline.policy.feeSchedule.payloadLaneBaseFee.value.bytes.toList ≤
          leNat (payloadLaneFee envelope).value.bytes.toList ∧
        leNat pipeline.policy.feeSchedule.witnessLaneBaseFee.value.bytes.toList ≤
          leNat (witnessLaneFee envelope).value.bytes.toList) ∧
      ∀ n ∈ stateView.bind (· envelope),
        n.toNat ≤ (transactionNonce envelope).toNat ∧
          (transactionNonce envelope).toNat ≤
            n.toNat + pipeline.policy.noncePolicy.maxFutureNonceGap.toNat := by
  obtain ⟨⟨payload | payload⟩, authorizations⟩ := envelope
  all_goals
    constructor
    · rintro ⟨hcount, hroots, hsizes, hpayload, hwitness, hnonce⟩
      exact ⟨hcount, hroots, hsizes, ⟨hpayload, hwitness⟩, hnonce⟩
    · rintro ⟨hcount, hroots, hsizes, ⟨hpayload, hwitness⟩, hnonce⟩
      exact ⟨hcount, hroots, hsizes, hpayload, hwitness, hnonce⟩

theorem screenTransaction_eq_ok_iff (accepted : TentativeAccepted) :
    pipeline.screenTransaction sha256 envelope stateView = .ok accepted ↔
      Screened sha256 pipeline envelope stateView ∧
        accepted = ⟨(Ssz.payloadRootRun sha256 envelope.payload).value,
          envelope.authorizations.length⟩ := by
  have hsignatures : (envelope.authorizations.forM fun authorization =>
      (checkUserSignatureSize authorization.signature).mapError ValidationError.primitive) =
        .ok () ↔ ∀ a ∈ envelope.authorizations, a.signature.length ≤ 8192 := by
    refine (Except.forM_eq_ok_iff _ _).trans ?_
    simp only [Except.mapError_eq_ok_iff, checkUserSignatureSize_eq_ok_iff]
    rfl
  rw [screenTransaction, TransactionEnvelope.payloadRoot_eq, Except.mapError, Except.ok_bind,
    Except.check_bind_eq_ok_iff, Except.check_bind_eq_ok_iff, Except.check_bind_eq_ok_iff,
    Except.check_bind_eq_ok_iff, Except.check_bind_eq_ok_iff, Except.check_bind_eq_ok_iff,
    hsignatures, Except.mapError_eq_ok_iff, Except.mapError_eq_ok_iff, Except.mapError_eq_ok_iff,
    checkAuthorizationCount_eq_ok_iff, checkAuthorizationPayloadRoots_eq_ok_iff,
    checkFeePolicy_eq_ok_iff, checkNoncePolicy_eq_ok_iff, screened_iff]
  constructor
  · rintro ⟨-, hcount, hroots, hsizes, hfees, hnonce, haccepted⟩
    exact ⟨⟨hcount, hroots, hsizes, hfees, hnonce⟩, (Except.ok.inj haccepted).symm⟩
  · rintro ⟨⟨hcount, hroots, hsizes, hfees, hnonce⟩, rfl⟩
    exact ⟨TransactionPayloadSsz.ensureSupportedTag_protocolTag _, hcount, hroots, hsizes, hfees,
      hnonce, rfl⟩

/-! ## Authorizations -/

/-- The policy's signing root of a payload root. -/
def policySigningRoot (sha256 : List UInt8 → Root) (policy : AdmissionPolicy) (payloadRoot : Root) :
    Root :=
  match policy.authorizationDomain with
  | .canonical => (Ssz.signingDataRootRun sha256 ⟨payloadRoot, domainTxShell⟩).value
  | .explicit domainType => (Ssz.signingDataRootRun sha256 ⟨payloadRoot, domainType⟩).value

theorem signingRoot_eq_policySigningRoot (sha256 : List UInt8 → Root) (policy : AdmissionPolicy)
    (payloadRoot : Root) :
    policy.authorizationDomain.signingRoot sha256 payloadRoot =
      .ok (policySigningRoot sha256 policy payloadRoot) := by
  rw [policySigningRoot]
  cases policy.authorizationDomain <;> rfl

/-- The request made for one authorization and its material. -/
def authorizationCall (signingRoot : Root) (authorization : Authorization)
    (material : AuthorizationMaterial) : DispatcherCall :=
  ⟨authorization.schemeId, ⟨material.publicKeyMaterial, signingRoot, authorization.signature⟩⟩

/-- The requests an envelope gives rise to, in the order of its authorizations. -/
def authorizationCalls (signingRoot : Root) (envelope : TransactionEnvelope)
    (materials : List AuthorizationMaterial) : List DispatcherCall :=
  (envelope.authorizations.zip materials).map fun entry =>
    authorizationCall signingRoot entry.1 entry.2

theorem mem_authorizationCalls {signingRoot : Root} {materials : List AuthorizationMaterial}
    {call : DispatcherCall} :
    call ∈ authorizationCalls signingRoot envelope materials ↔
      ∃ (i : Nat) (a : Authorization) (m : AuthorizationMaterial),
        envelope.authorizations[i]? = some a ∧ materials[i]? = some m ∧
        authorizationCall signingRoot a m = call := by
  rw [authorizationCalls, List.mem_map]
  constructor
  · rintro ⟨⟨a, m⟩, hentry, rfl⟩
    obtain ⟨i, hi⟩ := List.mem_iff_getElem?.mp hentry
    obtain ⟨ha, hm⟩ := List.getElem?_zip_eq_some.mp hi
    exact ⟨i, a, m, ha, hm, rfl⟩
  · rintro ⟨i, a, m, ha, hm, rfl⟩
    exact ⟨(a, m), List.mem_iff_getElem?.mpr ⟨i, List.getElem?_zip_eq_some.mpr ⟨ha, hm⟩⟩, rfl⟩

def answer (pipeline : AdmissionPipeline) (call : DispatcherCall) : Except ValidationError Unit :=
  (pipeline.dispatcher.verifyTransactionAuthorization call.schemeId call.request).mapError
    mapCryptoError

theorem forM_verifyAuthorization (signingRoot : Root) (materials : List AuthorizationMaterial) :
    (envelope.authorizations.zip materials).forM (pipeline.verifyAuthorization signingRoot) =
      forM (authorizationCalls signingRoot envelope materials) fun call =>
        invoke call (pipeline.answer call) := by
  rw [authorizationCalls, List.forM_map]
  rfl

variable {materials : List AuthorizationMaterial}

/-- Past screening and the count check, admission is the loop over the requests. -/
theorem admitAndVerify_of_screened (screened : Screened sha256 pipeline envelope stateView)
    (same : materials.length = envelope.authorizations.length) :
    let payloadRoot := (Ssz.payloadRootRun sha256 envelope.payload).value
    let signingRoot := policySigningRoot sha256 pipeline.policy payloadRoot
    pipeline.admitAndVerify sha256 envelope stateView materials = (do
      forM (authorizationCalls signingRoot envelope materials) fun call =>
        invoke call (pipeline.answer call)
      return ⟨payloadRoot, signingRoot, envelope.authorizations.length⟩) := by
  intro payloadRoot signingRoot
  have haccepted := (screenTransaction_eq_ok_iff _).mpr ⟨screened, rfl⟩
  have hsigning := signingRoot_eq_policySigningRoot sha256 pipeline.policy payloadRoot
  rw [admitAndVerify, haccepted, silent_ok_bind, verifyAuthorizations, if_neg (not_not.mpr same),
    hsigning]
  change silent (.ok _) >>= _ = _
  rw [silent_ok_bind]
  cases pipeline.policy.multiAuthorizationPolicy
  rw [← forM_verifyAuthorization]

/-- Where a check before the loop fails, the dispatcher is not called. -/
theorem admitAndVerify_of_not_ready
    (blocked : ¬ (Screened sha256 pipeline envelope stateView ∧
      materials.length = envelope.authorizations.length)) :
    ∃ e, pipeline.admitAndVerify sha256 envelope stateView materials = silent (.error e) := by
  rw [admitAndVerify]
  cases hscreen : pipeline.screenTransaction sha256 envelope stateView with
  | error e => exact ⟨e, silent_error_bind e _⟩
  | ok accepted =>
    have hcount : materials.length ≠ envelope.authorizations.length := fun same =>
      blocked ⟨((screenTransaction_eq_ok_iff accepted).mp hscreen).1, same⟩
    refine ⟨.authorizationMaterialCount ⟨envelope.authorizations.length, materials.length⟩, ?_⟩
    rw [silent_ok_bind, verifyAuthorizations, if_pos hcount]
    rfl

theorem answer_eq_ok_iff (call : DispatcherCall) :
    pipeline.answer call = .ok () ↔
      pipeline.dispatcher.verifyTransactionAuthorization call.schemeId call.request = .ok () :=
  Except.mapError_eq_ok_iff _ _ _

/-- Every authorization is accepted together with its material. -/
def AllAccepted (dispatcher : SignatureDispatcher) (signingRoot : Root)
    (envelope : TransactionEnvelope) (materials : List AuthorizationMaterial) : Prop :=
  ∀ (i : Nat) (a : Authorization) (m : AuthorizationMaterial),
    envelope.authorizations[i]? = some a → materials[i]? = some m →
      dispatcher.verifyTransactionAuthorization a.schemeId
        ⟨m.publicKeyMaterial, signingRoot, a.signature⟩ = .ok ()

/-- The loop over the requests succeeds when every one of them is accepted. -/
theorem outcome_loop_eq_ok_iff (signingRoot : Root) :
    outcome (forM (authorizationCalls signingRoot envelope materials) fun call =>
        invoke call (pipeline.answer call)) = .ok () ↔
      AllAccepted pipeline.dispatcher signingRoot envelope materials := by
  rw [outcome_forM]
  refine (Except.forM_eq_ok_iff _ _).trans ?_
  constructor
  · intro hall i a m ha hm
    have hcall : authorizationCall signingRoot a m ∈
        authorizationCalls signingRoot envelope materials :=
      mem_authorizationCalls.mpr ⟨i, a, m, ha, hm, rfl⟩
    exact (answer_eq_ok_iff _).mp (hall _ hcall)
  · intro haccepted call hcall
    obtain ⟨i, a, m, ha, hm, rfl⟩ := mem_authorizationCalls.mp hcall
    exact (answer_eq_ok_iff _).mpr (haccepted i a m ha hm)

theorem admitAndVerify_eq_ok_iff (v : AuthorizationValidated) :
    let payloadRoot := (Ssz.payloadRootRun sha256 envelope.payload).value
    let signingRoot := policySigningRoot sha256 pipeline.policy payloadRoot
    outcome (pipeline.admitAndVerify sha256 envelope stateView materials) = .ok v ↔
      (Screened sha256 pipeline envelope stateView ∧
        materials.length = envelope.authorizations.length) ∧
      AllAccepted pipeline.dispatcher signingRoot envelope materials ∧
      v = ⟨payloadRoot, signingRoot, envelope.authorizations.length⟩ := by
  intro payloadRoot signingRoot
  by_cases hready : Screened sha256 pipeline envelope stateView ∧
      materials.length = envelope.authorizations.length
  · have hloop : _ ↔ AllAccepted pipeline.dispatcher signingRoot envelope materials :=
      outcome_loop_eq_ok_iff signingRoot
    rw [admitAndVerify_of_screened hready.1 hready.2, outcome_bind_eq_ok_iff]
    constructor
    · rintro ⟨_, hall, hv⟩
      exact ⟨hready, hloop.mp hall, (Except.ok.inj hv).symm⟩
    · rintro ⟨-, haccepted, rfl⟩
      exact ⟨(), hloop.mpr haccepted, rfl⟩
  · obtain ⟨e, he⟩ := admitAndVerify_of_not_ready hready
    rw [he, outcome_silent]
    constructor
    · intro h
      cases h
    · rintro ⟨h, -⟩
      exact absurd h hready

/-- Every request admission makes carries the policy's signing root of the payload. -/
theorem signingRoot_of_mem_calls {call : DispatcherCall}
    (h : call ∈ calls (pipeline.admitAndVerify sha256 envelope stateView materials)) :
    call.request.signingRoot = policySigningRoot sha256 pipeline.policy
      (Ssz.payloadRootRun sha256 envelope.payload).value := by
  by_cases hready : Screened sha256 pipeline envelope stateView ∧
      materials.length = envelope.authorizations.length
  · rw [admitAndVerify_of_screened hready.1 hready.2, calls_bind_pure, calls_forM_invoke] at h
    obtain ⟨i, a, m, _, _, rfl⟩ := mem_authorizationCalls.mp (mem_of_mem_throughFirst h)
    rfl
  · obtain ⟨e, he⟩ := admitAndVerify_of_not_ready hready
    rw [he] at h
    cases h

/-- An admitted envelope has had all its requests made, in order. -/
theorem calls_of_admitted {v : AuthorizationValidated}
    (admitted : outcome (pipeline.admitAndVerify sha256 envelope stateView materials) = .ok v) :
    calls (pipeline.admitAndVerify sha256 envelope stateView materials) =
      authorizationCalls (policySigningRoot sha256 pipeline.policy
        (Ssz.payloadRootRun sha256 envelope.payload).value) envelope materials := by
  obtain ⟨hready, haccepted, -⟩ := (admitAndVerify_eq_ok_iff v).mp admitted
  rw [admitAndVerify_of_screened hready.1 hready.2, calls_bind_pure, calls_forM_invoke]
  apply throughFirst_eq_self
  intro call hcall
  obtain ⟨i, a, m, ha, hm, rfl⟩ := mem_authorizationCalls.mp hcall
  rw [(answer_eq_ok_iff _).mpr (haccepted i a m ha hm)]
  rfl

/-- Admission succeeds exactly on a screened envelope with one material for each authorization
and every authorization accepted; the dispatcher sees nothing before that and, from then on, the
requests in order up to the first refusal. -/
theorem admission_exact (sha256 : List UInt8 → Root) (pipeline : AdmissionPipeline)
    (envelope : TransactionEnvelope) (stateView : Option AdmissionStateView)
    (materials : List AuthorizationMaterial) :
    let payloadRoot := (Ssz.payloadRootRun sha256 envelope.payload).value
    let signingRoot := policySigningRoot sha256 pipeline.policy payloadRoot
    let run := pipeline.admitAndVerify sha256 envelope stateView materials
    let ready := Screened sha256 pipeline envelope stateView ∧
      materials.length = envelope.authorizations.length
    (∀ v, outcome run = .ok v ↔
      ready ∧ AllAccepted pipeline.dispatcher signingRoot envelope materials ∧
      v = ⟨payloadRoot, signingRoot, envelope.authorizations.length⟩) ∧
    (¬ ready → calls run = []) ∧
    (ready → calls run = throughFirst (fun call =>
        (pipeline.dispatcher.verifyTransactionAuthorization call.schemeId call.request).isOk)
      (authorizationCalls signingRoot envelope materials)) := by
  intro payloadRoot signingRoot run ready
  refine ⟨admitAndVerify_eq_ok_iff, fun hblocked => ?_, fun hready => ?_⟩
  · obtain ⟨e, he⟩ := admitAndVerify_of_not_ready hblocked
    have hrun : run = silent (.error e) := he
    rw [hrun, calls_silent]
  · have hcalls := calls_forM_invoke pipeline.answer
      (authorizationCalls signingRoot envelope materials)
    have hrun := congrArg calls (admitAndVerify_of_screened hready.1 hready.2)
    simp only [answer, Except.isOk_mapError] at hcalls
    rw [← hcalls]
    exact hrun.trans (calls_bind_pure _ _)

/-- A transfer authorized once over its own payload root. -/
def authorizedTransfer : TransactionEnvelope where
  payload := bareEnvelope.payload
  authorizations := [{ schemeId := 1
                       payloadRoot := (Ssz.payloadRootRun Sha256.digest bareEnvelope.payload).value
                       signature := [0xAA] }]

/-- Accepts the public key as the signature, under scheme 1 only. -/
def echo (schemeId : UInt8) (request : SignatureVerificationRequest) : Except CryptoError Unit :=
  if schemeId ≠ 1 then .error (.unsupportedScheme ⟨schemeId⟩)
  else if request.signature ≠ request.publicKeyMaterial then
    .error (.verificationFailed ⟨schemeId, "signature mismatch"⟩)
  else .ok ()

def echoDispatcher : SignatureDispatcher := ⟨echo, echo⟩

def echoPipeline : AdmissionPipeline where
  dispatcher := echoDispatcher
  policy :=
    { feeSchedule := ⟨⟨⟨zeros 32⟩⟩, ⟨⟨zeros 32⟩⟩⟩
      noncePolicy := ⟨4⟩
      authorizationDomain := .canonical
      multiAuthorizationPolicy := .requireAll }

theorem screened_authorizedTransfer :
    Screened Sha256.digest echoPipeline authorizedTransfer (some fun _ => some 1) where
  authorized := List.cons_ne_nil _ _
  boundToPayload a ha := by
    obtain rfl := List.mem_singleton.mp ha
    rfl
  shortSignatures a ha := by
    obtain rfl := List.mem_singleton.mp ha
    decide
  payloadLane := Nat.le_refl _
  witnessLane := Nat.le_refl _
  nonceWindow n hn := by
    obtain rfl := Option.some.inj hn
    exact ⟨by decide, by decide⟩

theorem allAccepted_authorizedTransfer (signingRoot : Root) :
    AllAccepted echoDispatcher signingRoot authorizedTransfer [⟨[0xAA]⟩] := by
  intro i a m ha hm
  cases i with
  | succ i => cases hm
  | zero =>
    obtain rfl := Option.some.inj ha
    obtain rfl := Option.some.inj hm
    rfl

theorem admission_exact_authorizedTransfer :
    let run := echoPipeline.admitAndVerify Sha256.digest authorizedTransfer (some fun _ => some 1)
      [⟨[0xAA]⟩]
    (∃ v, outcome run = .ok v) ∧ (calls run).length = 1 := by
  obtain ⟨hok, -, hcalls⟩ := admission_exact Sha256.digest echoPipeline authorizedTransfer
    (some fun _ => some 1) [⟨[0xAA]⟩]
  refine ⟨⟨_, (hok _).mpr ⟨⟨screened_authorizedTransfer, rfl⟩,
    allAccepted_authorizedTransfer _, rfl⟩⟩, ?_⟩
  exact congrArg List.length (hcalls ⟨screened_authorizedTransfer, rfl⟩)

end AdmissionPipeline

end ShellMempool
