import ShellChain.Library.History
import ShellChain.State.RootBinding

/-!
# One applier shared by many clients

A client that quotes the root its last transition returned asks for its patch
to be applied only if the state is still the one it saw: the comparison of
roots is a compare-and-swap whose token is a hash. Over every order of calls,
failed calls change nothing, successful ones are all there, and a call that
succeeds on a quoted root meets the very leaves that root was returned for.
-/

namespace ShellState

open ByteCodec ShellPrimitives Hashing ServiceEvent

/-- A call of `apply_transition` by one of the clients. -/
structure ApplierCall (κ : Type) where
  client : κ
  preStateRoot : Root
  patch : StatePatch

abbrev ApplierEvent (κ : Type) :=
  ServiceEvent ReferenceStateApplier (ApplierCall κ) (Except StateError StateTransitionOutcome)

variable {κ : Type} (sha256 : List UInt8 → Root)

/-- The applier answers a call whoever makes it. -/
def answerCall (applier : ReferenceStateApplier) (call : ApplierCall κ) :
    Except StateError StateTransitionOutcome × ReferenceStateApplier :=
  applier.applyTransition sha256 call.preStateRoot call.patch

/-- The strings a call hashes: none if it fails, those of the new root otherwise. -/
def callPreimages (event : ApplierEvent κ) : List (List UInt8) :=
  match event.answer with
  | .ok _ => preimages (referenceRootRun sha256 event.after.accumulator.leaves)
  | .error _ => []

/-! ## One call -/

/-- A call fails without a trace, or finds the root it quotes and writes its patch. -/
theorem applyTransition_cases (applier : ReferenceStateApplier) (preStateRoot : Root)
    (patch : StatePatch) :
    (∃ e, applier.applyTransition sha256 preStateRoot patch = (.error e, applier)) ∨
      applier.accumulator.root = preStateRoot ∧
        applier.applyTransition sha256 preStateRoot patch =
          (.ok ⟨computeReferenceRoot sha256 (patch.writeTo applier.accumulator.leaves)⟩,
            ⟨⟨patch.writeTo applier.accumulator.leaves,
              computeReferenceRoot sha256 (patch.writeTo applier.accumulator.leaves)⟩⟩) := by
  rw [ReferenceStateApplier.applyTransition, InMemoryAccumulator.stateRoot]
  by_cases hroot : applier.accumulator.root = preStateRoot
  · rw [if_neg (not_not.mpr hroot)]
    by_cases hcanonical : patch.Canonical
    · rw [applyTransition_of_canonical sha256 _ hcanonical]
      exact Or.inr ⟨hroot, rfl⟩
    · obtain ⟨e, he, _⟩ := applyTransition_of_not_canonical sha256 applier.accumulator hcanonical
      rw [he]
      exact Or.inl ⟨e, rfl⟩
  · rw [if_pos hroot]
    exact Or.inl ⟨_, rfl⟩

theorem serve_error {applier : ReferenceStateApplier} {call : ApplierCall κ} {e : StateError}
    (h : (answerCall sha256 applier call).1 = .error e) :
    (answerCall sha256 applier call).2 = applier := by
  rw [answerCall] at h ⊢
  rcases applyTransition_cases sha256 applier call.preStateRoot call.patch with
    ⟨e', he⟩ | ⟨_, hok⟩
  · rw [he]
  · rw [hok] at h
    cases h

/-- A successful call: the quoted root was current, and the new one is returned. -/
theorem serve_ok {applier : ReferenceStateApplier} {call : ApplierCall κ}
    {outcome : StateTransitionOutcome} (h : (answerCall sha256 applier call).1 = .ok outcome) :
    applier.accumulator.root = call.preStateRoot ∧
      (answerCall sha256 applier call).2.accumulator.leaves =
        call.patch.writeTo applier.accumulator.leaves ∧
      (answerCall sha256 applier call).2.accumulator.root = outcome.postStateRoot ∧
      outcome.postStateRoot =
        computeReferenceRoot sha256 (answerCall sha256 applier call).2.accumulator.leaves := by
  rw [answerCall] at h ⊢
  rcases applyTransition_cases sha256 applier call.preStateRoot call.patch with
    ⟨e', he⟩ | ⟨hroot, hok⟩
  · rw [he] at h
    cases h
  · rw [hok] at h ⊢
    obtain rfl := Except.ok.inj h
    exact ⟨hroot, rfl, rfl, rfl⟩

/-! ## Whole histories -/

/-- The patches of the successful calls, in the order they succeeded. -/
def successfulPatches (events : List (ApplierEvent κ)) : List StatePatch :=
  (events.filter fun event => event.answer.isOk).map fun event => event.request.patch

theorem finalState_leaves (applier : ReferenceStateApplier) (calls : List (ApplierCall κ)) :
    (finalState (answerCall sha256) applier calls).accumulator.leaves =
      (successfulPatches (history (answerCall sha256) applier calls)).foldl
        (fun leaves patch => patch.writeTo leaves) applier.accumulator.leaves := by
  induction calls generalizing applier with
  | nil => rfl
  | cons call calls ih =>
    rw [history, finalState, List.foldl_cons]
    change (finalState (answerCall sha256)
      (answerCall sha256 applier call).2 calls).accumulator.leaves = _
    rw [ih, successfulPatches, successfulPatches, List.filter_cons]
    cases hanswer : (answerCall sha256 applier call).1 with
    | error e =>
      have hskip : (serve (answerCall sha256) applier call).answer.isOk = false := by
        rw [serve, hanswer]
        rfl
      rw [if_neg (by rw [hskip]; decide), serve_error sha256 hanswer]
    | ok outcome =>
      have htake : (serve (answerCall sha256) applier call).answer.isOk = true := by
        rw [serve, hanswer]
        rfl
      rw [if_pos htake, List.map_cons, List.foldl_cons, (serve_ok sha256 hanswer).2.1]
      rfl

/-- The leaves are filed under their keys, the cached root is theirs, and the
strings hashed for it are among those of the run. -/
structure Sealed (S : Set (List UInt8)) (applier : ReferenceStateApplier) : Prop where
  filed : Filed applier.accumulator.leaves
  root : applier.accumulator.root = computeReferenceRoot sha256 applier.accumulator.leaves
  within : Within S (referenceRootRun sha256 applier.accumulator.leaves)

theorem Sealed.leaves_eq {S : Set (List UInt8)} {a b : ReferenceStateApplier}
    (ha : Sealed sha256 S a) (hb : Sealed sha256 S b) (collisionFree : S.InjOn sha256)
    (h : a.accumulator.root = b.accumulator.root) :
    a.accumulator.leaves = b.accumulator.leaves := by
  apply binds_referenceRootRun collisionFree ha.filed hb.filed ha.within hb.within
  calc computeReferenceRoot sha256 a.accumulator.leaves
    _ = a.accumulator.root := ha.root.symm
    _ = b.accumulator.root := h
    _ = computeReferenceRoot sha256 b.accumulator.leaves := hb.root

theorem filed_writeTo {leaves : Leaves} (filed : Filed leaves) (patch : StatePatch) :
    Filed (patch.writeTo leaves) :=
  filed_insertAll filed patch.writes

/-- A failed event leaves the applier it met. -/
theorem after_eq_of_error {event : ApplierEvent κ} {e : StateError}
    (served : event = serve (answerCall sha256) event.before event.request)
    (answer : event.answer = .error e) : event.after = event.before :=
  calc event.after
    _ = (answerCall sha256 event.before event.request).2 := congrArg ServiceEvent.after served
    _ = event.before :=
      serve_error sha256 ((congrArg ServiceEvent.answer served).symm.trans answer)

/-- A successful call seals the state it leaves. -/
theorem sealed_after {S : Set (List UInt8)} {event : ApplierEvent κ}
    {outcome : StateTransitionOutcome}
    (served : event = serve (answerCall sha256) event.before event.request)
    (answer : event.answer = .ok outcome) (filed : Filed event.before.accumulator.leaves)
    (hashed : ∀ s ∈ callPreimages sha256 event, s ∈ S) :
    Sealed sha256 S event.after ∧ event.after.accumulator.root = outcome.postStateRoot ∧
      event.before.accumulator.root = event.request.preStateRoot := by
  have hafter : event.after = (answerCall sha256 event.before event.request).2 :=
    congrArg ServiceEvent.after served
  have hanswer : (answerCall sha256 event.before event.request).1 = .ok outcome :=
    (congrArg ServiceEvent.answer served).symm.trans answer
  obtain ⟨hquoted, hleaves, hroot, hcached⟩ := serve_ok sha256 hanswer
  rw [← hafter] at hleaves hroot hcached
  refine ⟨⟨?_, hroot.trans hcached, ?_⟩, hroot, hquoted⟩
  · rw [hleaves]
    exact filed_writeTo filed event.request.patch
  · rw [callPreimages, answer] at hashed
    exact hashed

theorem sealed_keeps {S : Set (List UInt8)} {event : ApplierEvent κ}
    (served : event = serve (answerCall sha256) event.before event.request)
    (hashed : ∀ s ∈ callPreimages sha256 event, s ∈ S) (before : Sealed sha256 S event.before) :
    Sealed sha256 S event.after := by
  cases hanswer : event.answer with
  | ok outcome => exact (sealed_after sha256 served hanswer before.filed hashed).1
  | error e =>
    rw [after_eq_of_error sha256 served hanswer]
    exact before

theorem filed_keeps {event : ApplierEvent κ}
    (served : event = serve (answerCall sha256) event.before event.request)
    (before : Filed event.before.accumulator.leaves) : Filed event.after.accumulator.leaves := by
  cases hanswer : event.answer with
  | ok outcome =>
    exact (sealed_after sha256 (S := Set.univ) served hanswer before fun _ _ => trivial).1.filed
  | error e => rwa [after_eq_of_error sha256 served hanswer]

/-- No update is lost: over every order of calls on an applier around a
reachable accumulator, failures change nothing, the leaves are the successful
patches in order, and a successful call that quotes a returned root finds the
leaves that root was returned for. -/
theorem shared_applier_no_lost_update {κ : Type} (sha256 : List UInt8 → Root)
    (patches : List StatePatch) (calls : List (ApplierCall κ)) :
    let start : ReferenceStateApplier := ⟨runPatches sha256 .new patches⟩
    let run := history (answerCall sha256) start calls
    (∀ event ∈ run, ∀ e, event.answer = .error e →
      event.after.accumulator.leaves = event.before.accumulator.leaves ∧
        event.after.accumulator.root = event.before.accumulator.root) ∧
    (finalState (answerCall sha256) start calls).accumulator.leaves =
      (successfulPatches run).foldl (fun leaves patch => patch.writeTo leaves)
        start.accumulator.leaves ∧
    (Set.InjOn sha256 {s | ∃ event ∈ run, s ∈ callPreimages sha256 event} →
      ∀ front earlier middle later back r outcome,
        run = front ++ earlier :: (middle ++ later :: back) →
        earlier.answer = .ok ⟨r⟩ → later.answer = .ok outcome → later.request.preStateRoot = r →
        later.before.accumulator.leaves = earlier.after.accumulator.leaves) := by
  intro start run
  refine ⟨?_, finalState_leaves sha256 start calls, ?_⟩
  · intro event hevent e he
    rw [after_eq_of_error sha256 (eq_serve_of_mem hevent) he]
    exact ⟨rfl, rfl⟩
  · intro collisionFree front earlier middle later back r outcome hrun hearlier hlater hquotes
    have hstart : Filed start.accumulator.leaves := (run_tracks sha256 patches).filed sha256
    have hmem : ∀ event ∈ earlier :: (middle ++ later :: back), event ∈ run := by
      intro event hevent
      rw [hrun]
      exact List.mem_append_right front hevent
    have hearlierMem := hmem earlier List.mem_cons_self
    -- The state the earlier call leaves is sealed, and the calls after it keep it so.
    have hfiled := history_invariant (I := fun a => Filed a.accumulator.leaves) hstart
      (fun event hevent => filed_keeps sha256 (eq_serve_of_mem hevent)) earlier hearlierMem
    obtain ⟨hsealed, hreturned, _⟩ := sealed_after sha256
      (S := {s | ∃ event ∈ run, s ∈ callPreimages sha256 event}) (eq_serve_of_mem hearlierMem)
      hearlier hfiled.1 fun s hs => ⟨earlier, hearlierMem, hs⟩
    obtain ⟨rest, hrest⟩ := history_after hrun
    have hlaterMem : later ∈ history (answerCall sha256) earlier.after rest := by
      rw [← hrest]
      simp
    have hbefore := history_invariant (I := Sealed sha256 _) hsealed
      (fun event hevent hsealed => sealed_keeps sha256 (eq_serve_of_mem hevent)
        (fun s hs => ⟨event, hmem event (List.mem_cons_of_mem _ (hrest ▸ hevent)), hs⟩) hsealed)
      later hlaterMem
    obtain ⟨_, _, hcurrent⟩ := sealed_after sha256 (eq_serve_of_mem hlaterMem) hlater
      hbefore.1.filed fun s hs => hs
    apply hbefore.1.leaves_eq sha256 hsealed collisionFree
    rw [hcurrent, hquotes, hreturned]

/-! ## Two clients -/

/-- The root after the first client's first write. -/
def firstPostRoot : Root :=
  computeReferenceRoot Sha256.digest
    ((⟨[sampleAccount], [[1]]⟩ : StatePatch).writeTo InMemoryAccumulator.new.leaves)

def secondPostRoot : Root :=
  computeReferenceRoot Sha256.digest
    ((⟨[sampleAccount, sampleStem], [[1], [3]]⟩ : StatePatch).writeTo
      InMemoryAccumulator.new.leaves)

/-- The second client is late with its root; the first one quotes what it was given. -/
def racingCalls : List (ApplierCall Bool) :=
  [⟨true, zeros 32, ⟨[sampleAccount], [[1]]⟩⟩, ⟨false, zeros 32, ⟨[sampleAccount], [[2]]⟩⟩,
    ⟨true, firstPostRoot, ⟨[sampleStem], [[3]]⟩⟩]

theorem shared_applier_no_lost_update_race :
    ∃ earlier late later,
      history (answerCall Sha256.digest) ⟨.new⟩ racingCalls = [earlier, late, later] ∧
      earlier.answer = .ok ⟨firstPostRoot⟩ ∧ late.answer.isOk = false ∧
      later.answer.isOk = true ∧
      late.after.accumulator.leaves = late.before.accumulator.leaves ∧
      later.before.accumulator.leaves = earlier.after.accumulator.leaves := by
  obtain ⟨hfailed, _, hquoted⟩ := shared_applier_no_lost_update Sha256.digest [] racingCalls
  have hstrings : {s | ∃ event ∈ history (answerCall Sha256.digest) ⟨.new⟩ racingCalls,
      s ∈ callPreimages Sha256.digest event} =
      {s | s ∈ (history (answerCall Sha256.digest) ⟨.new⟩ racingCalls).flatMap
        (callPreimages Sha256.digest)} := by
    ext s
    exact List.mem_flatMap.symm
  have hfree : Set.InjOn Sha256.digest
      {s | ∃ event ∈ history (answerCall Sha256.digest) ⟨.new⟩ racingCalls,
        s ∈ callPreimages Sha256.digest event} := by
    rw [hstrings]
    exact injOn_of_nodup (by decide +kernel)
  have hanswers : (history (answerCall Sha256.digest) ⟨.new⟩ racingCalls).map
      (fun event => (event.answer, event.request.preStateRoot)) =
      [(.ok ⟨firstPostRoot⟩, zeros 32),
        (.error (.rootContinuityMismatch ⟨zeros 32, firstPostRoot⟩), zeros 32),
        (.ok ⟨secondPostRoot⟩, firstPostRoot)] := by decide +kernel
  obtain ⟨earlier, late, later, hrun⟩ : ∃ earlier late later,
      history (answerCall Sha256.digest) ⟨.new⟩ racingCalls = [earlier, late, later] :=
    ⟨_, _, _, rfl⟩
  rw [hrun] at hanswers
  simp only [List.map_cons, List.map_nil, List.cons.injEq, Prod.mk.injEq, and_true] at hanswers
  obtain ⟨⟨hearlier, _⟩, ⟨hlate, _⟩, hlater, hquote⟩ := hanswers
  refine ⟨earlier, late, later, hrun, hearlier, by rw [hlate]; rfl, by rw [hlater]; rfl, ?_, ?_⟩
  · have hmem : late ∈ history (answerCall Sha256.digest) ⟨.new⟩ racingCalls := by
      rw [hrun]
      simp
    exact (hfailed late hmem _ hlate).1
  · exact hquoted hfree [] earlier [late] later [] _ _ hrun hearlier hlater hquote

end ShellState
