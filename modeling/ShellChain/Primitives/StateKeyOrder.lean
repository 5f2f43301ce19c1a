import ShellChain.Library.ByteOrder
import ShellChain.Primitives.StateKey

/-!
# The order of state keys

Keys are compared by their encodings, byte by byte. The tag in front is the
rank of the variant, and keys of one variant have fields of the same widths, so
the comparison is that of rank, first field and second field as numbers.
-/

namespace ShellPrimitives

open ByteCodec

namespace StateKey

/-- The position of the variant in the declaration. -/
def variantRank : StateKey → Nat
  | accountHeader _ => 0
  | storageSlot _ _ => 1
  | codeChunk _ _ => 2
  | rawTreeKey _ => 3
  | stem _ => 4

/-- The address, raw key or stem, read as a big-endian number. -/
def firstField : StateKey → Nat
  | accountHeader address => beNat address.toList
  | storageSlot address _ => beNat address.toList
  | codeChunk address _ => beNat address.toList
  | rawTreeKey raw => beNat raw.toList
  | stem bytes => beNat bytes.toList

/-- The slot as a big-endian number or the chunk index; zero where there is no second field. -/
def secondField : StateKey → Nat
  | storageSlot _ slot => beNat slot.toList
  | codeChunk _ chunkIndex => chunkIndex.toNat
  | _ => 0

/-- The lexicographic comparison of variant, first field and second field. -/
def structuralCompare (left right : StateKey) : Ordering :=
  (compare left.variantRank right.variantRank).then
    ((compare left.firstField right.firstField).then
      (compare left.secondField right.secondField))

/-! ## Encodings -/

/-- The bytes of the first field, addresses canonicalised. -/
def firstBytes : StateKey → List UInt8
  | accountHeader address => (canonicalizeExecutionAddress address).toList
  | storageSlot address _ => (canonicalizeExecutionAddress address).toList
  | codeChunk address _ => (canonicalizeExecutionAddress address).toList
  | rawTreeKey raw => raw.toList
  | stem bytes => bytes.toList

def secondBytes : StateKey → List UInt8
  | storageSlot _ slot => slot.toList
  | codeChunk _ chunkIndex => beBytes 4 chunkIndex.toNat
  | _ => []

theorem encodeStateKey_eq (key : StateKey) :
    encodeStateKey key =
      UInt8.ofNat key.variantRank :: (key.firstBytes ++ key.secondBytes) := by
  cases key with
  | accountHeader address => exact congrArg (0 :: ·) (List.append_nil _).symm
  | storageSlot address slot => rfl
  | codeChunk address chunkIndex => rfl
  | rawTreeKey raw => exact congrArg (3 :: ·) (List.append_nil _).symm
  | stem bytes => exact congrArg (4 :: ·) (List.append_nil _).symm

theorem variantRank_lt (key : StateKey) : key.variantRank < 5 := by
  cases key <;> simp [variantRank]

theorem toNat_tag (key : StateKey) : (UInt8.ofNat key.variantRank).toNat = key.variantRank := by
  have hrank := variantRank_lt key
  rw [UInt8.toNat_ofNat']
  omega

theorem beNat_firstBytes (key : StateKey) : beNat key.firstBytes = key.firstField := by
  cases key with
  | accountHeader address => exact beNat_replicate_append 12 address.toList
  | storageSlot address slot => exact beNat_replicate_append 12 address.toList
  | codeChunk address chunkIndex => exact beNat_replicate_append 12 address.toList
  | rawTreeKey raw => rfl
  | stem bytes => rfl

theorem beNat_secondBytes (key : StateKey) : beNat key.secondBytes = key.secondField := by
  cases key with
  | accountHeader address => rfl
  | storageSlot address slot => rfl
  | codeChunk address chunkIndex => exact beNat_beBytes chunkIndex.toNat_lt
  | rawTreeKey raw => rfl
  | stem bytes => rfl

theorem length_firstBytes (key : StateKey) :
    key.firstBytes.length = if key.variantRank = 4 then 31 else 32 := by
  cases key <;> simp [firstBytes, variantRank]

theorem length_secondBytes (key : StateKey) :
    key.secondBytes.length =
      if key.variantRank = 1 then 32 else if key.variantRank = 2 then 4 else 0 := by
  cases key <;> simp [secondBytes, variantRank]

/-- Keys of one variant have fields of the same widths. -/
theorem widths_of_rank_eq {a b : StateKey} (same : a.variantRank = b.variantRank) :
    a.firstBytes.length = b.firstBytes.length ∧ a.secondBytes.length = b.secondBytes.length := by
  rw [length_firstBytes, length_firstBytes, length_secondBytes, length_secondBytes, same]
  exact ⟨rfl, rfl⟩

/-! ## Comparison -/

theorem compareStateKeys_eq (a b : StateKey) : compareStateKeys a b = a.structuralCompare b := by
  rw [compareStateKeys, encodeStateKey_eq, encodeStateKey_eq, compareOfLessAndEq_cons,
    compareOfLessAndEq_toNat, toNat_tag, toNat_tag]
  change (compare a.variantRank b.variantRank).then _ = _
  rw [structuralCompare]
  -- Fields are compared only between keys of one variant, which have the same widths.
  by_cases hrank : a.variantRank = b.variantRank
  · obtain ⟨hfirst, hsecond⟩ := widths_of_rank_eq hrank
    rw [compareOfLessAndEq_append hfirst, compareOfLessAndEq_beNat hfirst,
      compareOfLessAndEq_beNat hsecond, beNat_firstBytes, beNat_firstBytes, beNat_secondBytes,
      beNat_secondBytes]
    rfl
  · cases hcompare : compare a.variantRank b.variantRank with
    | lt => rfl
    | eq => exact absurd (Nat.compare_eq_eq.mp hcompare) hrank
    | gt => rfl

theorem compareStateKeys_eq_lt_iff (a b : StateKey) :
    compareStateKeys a b = .lt ↔ a.Before b :=
  compareOfLessAndEq_eq_lt

theorem compareStateKeys_eq_eq_iff (a b : StateKey) : compareStateKeys a b = .eq ↔ a = b := by
  have hbytes : compareStateKeys a b = .eq ↔ encodeStateKey a = encodeStateKey b :=
    compareOfLessAndEq_eq_eq le_refl not_le
  rw [hbytes]
  constructor
  · intro h
    exact encodeStateKey_injective h
  · rintro rfl
    rfl

theorem compareStateKeys_swap (a b : StateKey) :
    compareStateKeys b a = (compareStateKeys a b).swap :=
  compareOfLessAndEq_eq_swap le_antisymm le_total not_le

/-- The tag of a key tells how long its encoding is. -/
theorem eq_of_encodeStateKey_prefix {a b : StateKey}
    (h : encodeStateKey a <+: encodeStateKey b) : a = b := by
  have hcut := h
  rw [encodeStateKey_eq, encodeStateKey_eq, List.cons_prefix_cons] at hcut
  have hrank : a.variantRank = b.variantRank := by
    rw [← toNat_tag a, ← toNat_tag b, hcut.1]
  obtain ⟨hfirst, hsecond⟩ := widths_of_rank_eq hrank
  have hlength : (encodeStateKey a).length = (encodeStateKey b).length := by
    simp only [encodeStateKey_eq, List.length_cons, List.length_append, hfirst, hsecond]
  exact encodeStateKey_injective (h.eq_of_length hlength)

end StateKey

/-- `compare_state_keys` is the lexicographic comparison of variant, first field and second field.
It is the comparison of a strict total order, the encoding is injective, and no encoding is the
beginning of another key's. -/
theorem compareStateKeys_structural :
    (∀ a b, compareStateKeys a b = a.structuralCompare b) ∧
    (∀ a b, compareStateKeys a b = .eq ↔ a = b) ∧
    (∀ a b, compareStateKeys b a = (compareStateKeys a b).swap) ∧
    (∀ a b c, compareStateKeys a b = .lt → compareStateKeys b c = .lt →
      compareStateKeys a c = .lt) ∧
    Function.Injective encodeStateKey ∧
    ∀ a b, encodeStateKey a <+: encodeStateKey b → a = b := by
  refine ⟨StateKey.compareStateKeys_eq, StateKey.compareStateKeys_eq_eq_iff,
    StateKey.compareStateKeys_swap, ?_, fun _ _ => encodeStateKey_injective,
    fun _ _ => StateKey.eq_of_encodeStateKey_prefix⟩
  intro a b c hab hbc
  rw [StateKey.compareStateKeys_eq_lt_iff] at hab hbc ⊢
  exact List.lt_trans hab hbc

/-- A slot key of the zero address comes before every code chunk, and chunk 255 before chunk 256. -/
theorem compareStateKeys_structural_chunks :
    compareStateKeys (.storageSlot (zeros 20) (zeros 32)) (.codeChunk (zeros 20) 256) = .lt := by
  obtain ⟨hstructural, -, -, htrans, -⟩ := compareStateKeys_structural
  refine htrans _ (.codeChunk (zeros 20) 255) _ ?_ ?_
  · rw [hstructural]
    decide
  · rw [hstructural]
    decide

end ShellPrimitives
