import ShellChain.Consensus.ImportExact

/-!
# What is fetched

Before a sidecar is asked for, its size is compared with a limit and a request
may be waited for; transactions are only compared with a limit. Block import
compares the same size with a limit of its own. The two limits are configured
apart, so a node may skip blocks that it would import, or fetch sidecars of
blocks that it cannot.
-/

namespace ShellNetwork

open ByteCodec ShellPrimitives ShellCrypto ShellConsensus

/-! ## Decisions -/

inductive FetchDecision where
  | fetch
  | skip
  | defer
  deriving DecidableEq

/-- Over the limit is skipped, and what has to be requested first is deferred. -/
def fetchDecision (limit : Option UInt64) (requestFirst : Bool) (size : UInt64)
    (wasRequested : Bool) : FetchDecision :=
  match limit with
  | some limit =>
    if size > limit then .skip
    else if requestFirst && !wasRequested then .defer
    else .fetch
  | none => if requestFirst && !wasRequested then .defer else .fetch

structure SidecarFetchPolicy where
  maxWitnessBytes : Option UInt64
  requireExplicitRequest : Bool
  deriving DecidableEq

def SidecarFetchPolicy.decideForHeader (policy : SidecarFetchPolicy) (header : ConsensusHeader)
    (wasRequested : Bool) : FetchDecision :=
  fetchDecision policy.maxWitnessBytes policy.requireExplicitRequest header.witnessBytes
    wasRequested

structure AnnouncementFilter where
  maxTransactionBytes : Option UInt64
  maxSidecarBytes : Option UInt64
  allowUnsolicitedSidecars : Bool
  deriving DecidableEq

namespace AnnouncementFilter

def transactionFetchDecision (filter : AnnouncementFilter) (announcedSize : UInt64) :
    FetchDecision :=
  fetchDecision filter.maxTransactionBytes false announcedSize false

def sidecarFetchDecision (filter : AnnouncementFilter) (announcedSize : UInt64)
    (wasRequested : Bool) : FetchDecision :=
  fetchDecision filter.maxSidecarBytes (!filter.allowUnsolicitedSidecars) announcedSize
    wasRequested

end AnnouncementFilter

/-- The size is over a limit that is there. -/
def Over (limit : Option UInt64) (size : UInt64) : Prop := ∃ maxSize ∈ limit, maxSize < size

theorem fetchDecision_eq_skip_iff (limit : Option UInt64) (requestFirst : Bool) (size : UInt64)
    (wasRequested : Bool) :
    fetchDecision limit requestFirst size wasRequested = .skip ↔ Over limit size := by
  cases limit with
  | none => cases requestFirst <;> cases wasRequested <;> simp [fetchDecision, Over]
  | some maxSize =>
    by_cases hover : maxSize < size
    · simp [fetchDecision, Over, hover]
    · cases requestFirst <;> cases wasRequested <;> simp [fetchDecision, Over, hover]

theorem fetchDecision_eq_fetch_iff (limit : Option UInt64) (requestFirst : Bool) (size : UInt64)
    (wasRequested : Bool) :
    fetchDecision limit requestFirst size wasRequested = .fetch ↔
      ¬ Over limit size ∧ (requestFirst = true → wasRequested = true) := by
  cases limit with
  | none => cases requestFirst <;> cases wasRequested <;> simp [fetchDecision, Over]
  | some maxSize =>
    by_cases hover : maxSize < size
    · simp [fetchDecision, Over, hover]
    · cases requestFirst <;> cases wasRequested <;> simp [fetchDecision, Over, hover]

/-- The first limit is not below the second: where it is no limit at all, because it is absent or
the largest size there is, nothing is asked of the second. -/
def NotBelow (first second : Option UInt64) : Prop :=
  ∀ limit ∈ first, limit.toNat + 1 = 2 ^ 64 ∨ ∃ limit' ∈ second, limit' ≤ limit

theorem forall_over_iff (first second : Option UInt64) :
    (∀ size, Over first size → Over second size) ↔ NotBelow first second := by
  constructor
  · intro h limit hlimit
    by_cases hlargest : limit.toNat + 1 = 2 ^ 64
    · exact Or.inl hlargest
    · have hbound := limit.toNat_lt
      have hnext : (limit + 1).toNat = limit.toNat + 1 := by
        rw [UInt64.toNat_add]
        exact Nat.mod_eq_of_lt (by simp; omega)
      obtain ⟨limit', hlimit', hover⟩ := h (limit + 1) ⟨limit, hlimit, by
        rw [UInt64.lt_iff_toNat_lt, hnext]
        omega⟩
      refine Or.inr ⟨limit', hlimit', ?_⟩
      rw [UInt64.lt_iff_toNat_lt, hnext] at hover
      rw [UInt64.le_iff_toNat_le]
      omega
  · rintro h size ⟨limit, hlimit, hover⟩
    rcases h limit hlimit with hlargest | ⟨limit', hlimit', hle⟩
    · rw [UInt64.lt_iff_toNat_lt] at hover
      have hbound := size.toNat_lt
      omega
    · exact ⟨limit', hlimit', UInt64.lt_of_le_of_lt hle hover⟩

/-! ## Import -/

/-- Some body, sidecar and services get a block with this header imported. -/
def Importable (sha256 : List UInt8 → Root) (pipeline : BlockImportPipeline)
    (header : ConsensusHeader) : Prop :=
  ∃ body sidecar services o,
    Logged.outcome (pipeline.importBlock sha256 header body sidecar services) = .ok o

/-- Services that accept everything and execute a block to the roots its header declares. -/
def acceptingServices : BlockImportServices where
  resolver _ := .ok ⟨0, []⟩
  dispatcher := ⟨fun _ _ => .ok (), fun _ _ => .ok ()⟩
  revalidator _ _ := .ok ()
  preparer _ _ := .ok ()
  executionEngine header _ _ := .ok ⟨header.stateRoot, header.receiptsRoot, []⟩

theorem importable_iff {sha256 : List UInt8 → Root} {pipeline : BlockImportPipeline}
    {header : ConsensusHeader} :
    Importable sha256 pipeline header ↔
      (∃ blockRoot, header.canonicalRoot = .ok blockRoot) ∧
        ¬ Over pipeline.config.headerPrefilter.maxWitnessBytes header.witnessBytes := by
  constructor
  · rintro ⟨body, sidecar, services, o, ho⟩
    obtain ⟨blockRoot, _, _, haccepted, -⟩ := (importBlock_eq_ok_iff o).mp ho
    refine ⟨⟨blockRoot, haccepted.headerRoot⟩, ?_⟩
    rintro ⟨maxBytes, hmax, hover⟩
    exact absurd hover (UInt64.not_lt.mpr (haccepted.witnessBytes maxBytes hmax))
  · rintro ⟨⟨blockRoot, hroot⟩, hwithin⟩
    refine ⟨⟨.ok header.transactionsRoot, []⟩, ⟨blockRoot, header.executionWitnessesRoot⟩,
      acceptingServices, _, (importBlock_eq_ok_iff _).mpr ⟨blockRoot, ⟨0, []⟩,
        ⟨header.stateRoot, header.receiptsRoot, []⟩, ?_, rfl⟩⟩
    exact
      { headerRoot := hroot
        witnessBytes := fun maxBytes hmax =>
          UInt64.not_lt.mp fun hover => hwithin ⟨maxBytes, hmax, hover⟩
        bodyRoot := rfl
        resolved := rfl
        signed := rfl
        revalidated := fun _ h => (List.not_mem_nil h).elim
        sidecarRoot := rfl
        commitment := rfl
        prepared := rfl
        execution := rfl
        postState := rfl
        receipts := rfl }

/-- A header whose witnesses have a given size. -/
def headerOfSize (size : UInt64) : ConsensusHeader :=
  ⟨.ok (zeros 32), size, zeros 32, zeros 32, zeros 32, zeros 32, [], none⟩

section
variable (sha256 : List UInt8 → Root) (pipeline : BlockImportPipeline) (limit : Option UInt64)
variable (requestFirst : Bool)

theorem skips_no_importable_iff :
    (∀ header wasRequested,
        fetchDecision limit requestFirst header.witnessBytes wasRequested = .skip →
          ¬ Importable sha256 pipeline header) ↔
      NotBelow limit pipeline.config.headerPrefilter.maxWitnessBytes := by
  simp only [fetchDecision_eq_skip_iff, importable_iff, ← forall_over_iff]
  constructor
  · intro h size hover
    by_contra hwithin
    exact h (headerOfSize size) true hover ⟨⟨zeros 32, rfl⟩, hwithin⟩
  · rintro h header - hover ⟨-, hwithin⟩
    exact hwithin (h header.witnessBytes hover)

theorem fetches_only_importable_iff :
    (∀ header wasRequested blockRoot, header.canonicalRoot = .ok blockRoot →
        fetchDecision limit requestFirst header.witnessBytes wasRequested = .fetch →
          Importable sha256 pipeline header) ↔
      NotBelow pipeline.config.headerPrefilter.maxWitnessBytes limit := by
  simp only [fetchDecision_eq_fetch_iff, importable_iff, ← forall_over_iff]
  constructor
  · intro h size hover
    by_contra hwithin
    exact (h (headerOfSize size) true (zeros 32) rfl ⟨hwithin, fun _ => rfl⟩).2 hover
  · rintro h header - blockRoot hroot ⟨hwithin, -⟩
    exact ⟨⟨blockRoot, hroot⟩, fun hover => hwithin (h header.witnessBytes hover)⟩

end

/-- A fetch policy skips no block that could be imported if and only if its limit is not below that
of the import, and fetches no sidecar in vain if and only if the limit of the import is not below
its own. The filter for announcements of the true size behaves in the same way. -/
theorem fetch_limits_fit_import_iff (sha256 : List UInt8 → Root) (policy : SidecarFetchPolicy)
    (filter : AnnouncementFilter) (pipeline : BlockImportPipeline) :
    ((∀ header wasRequested, policy.decideForHeader header wasRequested = .skip →
        ¬ Importable sha256 pipeline header) ↔
      NotBelow policy.maxWitnessBytes pipeline.config.headerPrefilter.maxWitnessBytes) ∧
    ((∀ header wasRequested blockRoot, header.canonicalRoot = .ok blockRoot →
        policy.decideForHeader header wasRequested = .fetch → Importable sha256 pipeline header) ↔
      NotBelow pipeline.config.headerPrefilter.maxWitnessBytes policy.maxWitnessBytes) ∧
    ((∀ header wasRequested, filter.sidecarFetchDecision header.witnessBytes wasRequested = .skip →
        ¬ Importable sha256 pipeline header) ↔
      NotBelow filter.maxSidecarBytes pipeline.config.headerPrefilter.maxWitnessBytes) ∧
    ((∀ header wasRequested blockRoot, header.canonicalRoot = .ok blockRoot →
        filter.sidecarFetchDecision header.witnessBytes wasRequested = .fetch →
          Importable sha256 pipeline header) ↔
      NotBelow pipeline.config.headerPrefilter.maxWitnessBytes filter.maxSidecarBytes) :=
  ⟨skips_no_importable_iff sha256 pipeline _ _, fetches_only_importable_iff sha256 pipeline _ _,
    skips_no_importable_iff sha256 pipeline _ _, fetches_only_importable_iff sha256 pipeline _ _⟩

end ShellNetwork
