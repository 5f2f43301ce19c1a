import ShellChain.Library.PerfectTree
import ShellChain.Primitives.RootBinding

/-!
# `merkleize` computes the root of a perfect tree

The recursion of `merkleize` stops at the last chunk and puts a precomputed
subtree in the place of every half that has no chunk. The plain definition is a
perfect tree over the chunks and as many zero chunks as are missing; the two
have the same root, for every length of the chunk list.
-/

namespace ShellPrimitives.Ssz

open ByteCodec PerfectTree Hashing

variable (sha256 : List UInt8 → Root)

/-- SHA-256 of two chunks, one after the other. -/
def pairDigest (left right : Root) : Root := sha256 (left.toList ++ right.toList)

/-! ## Zero subtrees -/

theorem value_zeroHash (depth : Nat) :
    (zeroHash sha256 depth).value = (fun h => pairDigest sha256 h h)^[depth] (zeros 32) := by
  induction depth with
  | zero => rfl
  | succ depth ih =>
    rw [Function.iterate_succ_apply', ← ih]
    rfl

/-- A tree of zero chunks has the precomputed root. -/
theorem value_zeroHash_eq_root {depth : Nat} {t : PerfectTree Root depth}
    (h : t.leaves = List.replicate (2 ^ depth) (zeros 32)) :
    (zeroHash sha256 depth).value = t.root (pairDigest sha256) := by
  rw [value_zeroHash, root_replicate (pairDigest sha256) h]

/-- The depth of a subtree is read off its number of leaves. -/
theorem trailingZeros_two_pow {depth : Nat} (bounded : depth < 64) :
    trailingZeros (2 ^ depth) = depth := by
  have hall : ∀ i : Fin 64, trailingZeros (2 ^ i.val) = i.val := by decide +kernel
  exact hall ⟨depth, bounded⟩

/-! ## The recursion -/

theorem value_merkleize_one {chunks : List Root} {a : Root} (fits : chunks.length ≤ 1)
    (h : [a] = padded (zeros 32) 1 chunks) : (merkleize sha256 chunks 1).value = a := by
  rw [merkleize_one, value_enter, Logged.value_pure]
  cases chunks with
  | nil => exact (List.head_eq_of_cons_eq h).symm
  | cons c rest => exact (List.head_eq_of_cons_eq h).symm

theorem value_merkleize_succ (depth : Nat) (chunks : List Root) :
    (merkleize sha256 chunks (2 ^ (depth + 1))).value =
      pairDigest sha256 (merkleize sha256 (chunks.take (2 ^ depth)) (2 ^ depth)).value
        (if chunks.length > 2 ^ depth then
          (merkleize sha256 (chunks.drop (2 ^ depth)) (2 ^ depth)).value
        else (zeroHash sha256 (trailingZeros (2 ^ depth))).value) := by
  have hpositive : 0 < 2 ^ depth := Nat.two_pow_pos depth
  have htwo : 2 ≤ 2 ^ (depth + 1) := by omega
  have hhalf : 2 ^ (depth + 1) / 2 = 2 ^ depth := by omega
  have htake : chunks.take (min chunks.length (2 ^ depth)) = chunks.take (2 ^ depth) := by
    rw [Nat.min_comm, ← List.take_eq_take_min]
  rw [merkleize_of_two_le sha256 chunks htwo, hhalf, htake]
  by_cases hlong : chunks.length > 2 ^ depth
  · simp only [if_pos hlong]
    rfl
  · simp only [if_neg hlong]
    rfl

/-- By induction on the tree: either half is a tree over its share of the chunks, and a half
without chunks is a tree of zeros. -/
theorem value_merkleize_eq_root {depth : Nat} (bounded : depth ≤ 64) {chunks : List Root}
    (fits : chunks.length ≤ 2 ^ depth) {t : PerfectTree Root depth}
    (h : t.leaves = padded (zeros 32) (2 ^ depth) chunks) :
    (merkleize sha256 chunks (2 ^ depth)).value = t.root (pairDigest sha256) := by
  induction t generalizing chunks with
  | tip a => exact value_merkleize_one sha256 fits h
  | @fork depth left right ihl ihr =>
    obtain ⟨hl, hr⟩ := leaves_fork_eq_padded fits h
    have hleft : (merkleize sha256 (chunks.take (2 ^ depth)) (2 ^ depth)).value =
        left.root (pairDigest sha256) := by
      apply ihl (by omega) _ hl
      rw [List.length_take]
      omega
    rw [value_merkleize_succ, hleft, root]
    by_cases hlong : chunks.length > 2 ^ depth
    · have hright : (merkleize sha256 (chunks.drop (2 ^ depth)) (2 ^ depth)).value =
          right.root (pairDigest sha256) := by
        apply ihr (by omega) _ hr
        rw [List.length_drop]
        omega
      rw [if_pos hlong, hright]
    · have hnone : chunks.drop (2 ^ depth) = [] := List.drop_of_length_le (by omega)
      have hzeros : right.leaves = List.replicate (2 ^ depth) (zeros 32) := by
        rw [hr, hnone]
        rfl
      rw [if_neg hlong, trailingZeros_two_pow (by omega), value_zeroHash_eq_root sha256 hzeros]

/-! ## Packing -/

/-- The chunks of a byte string are its first 32 bytes and the chunks of the rest. -/
theorem packBytes_of_ne_nil {bytes : List UInt8} (nonempty : bytes ≠ []) :
    packBytes bytes = padTo 32 (bytes.take 32) :: packBytes (bytes.drop 32) := by
  have hpositive : 0 < bytes.length := List.length_pos_iff.mpr nonempty
  have hcount : (bytes.length + 31) / 32 = ((bytes.drop 32).length + 31) / 32 + 1 := by
    rw [List.length_drop]
    omega
  have hfirst : (bytes.take (min (0 * 32 + 32) bytes.length)).drop (0 * 32) = bytes.take 32 := by
    rw [Nat.zero_mul, Nat.zero_add, List.drop_zero, ← List.take_eq_take_min]
  rw [packBytes_eq, packBytes_eq, hcount, List.range_succ_eq_map, List.map_cons, hfirst,
    List.map_map]
  refine congrArg _ (List.map_congr_left fun i _ => congrArg (padTo 32) ?_)
  -- The window of the rest is the next window of the whole.
  have hstart : 32 + i * 32 = (i + 1) * 32 := by omega
  have hwidth : min ((i + 1) * 32 + 32) bytes.length - (i + 1) * 32 =
      min (i * 32 + 32) (bytes.length - 32) - i * 32 := by omega
  rw [List.drop_take, List.drop_take, List.drop_drop, hstart, List.length_drop, Nat.succ_eq_add_one,
    hwidth]

/-- By induction on the length: a full chunk and the rest, or one last chunk. -/
theorem flatMap_packBytes (bytes : List UInt8) :
    ∃ n, n < 32 ∧
      (packBytes bytes).flatMap List.Vector.toList = bytes ++ List.replicate n 0 := by
  induction hlength : bytes.length using Nat.strong_induction_on generalizing bytes with
  | _ length ih =>
    subst hlength
    by_cases hempty : bytes = []
    · subst hempty
      exact ⟨0, by omega, rfl⟩
    · have hpositive : 0 < bytes.length := List.length_pos_iff.mpr hempty
      rw [packBytes_of_ne_nil hempty, List.flatMap_cons]
      by_cases hlong : 32 ≤ bytes.length
      · have hfull : (bytes.take 32).length = 32 := by
          rw [List.length_take]
          omega
        obtain ⟨n, hn, hrest⟩ := ih _ (by rw [List.length_drop]; omega) (bytes.drop 32) rfl
        refine ⟨n, hn, ?_⟩
        rw [hrest, toList_padTo (by omega), hfull, Nat.sub_self, List.replicate_zero,
          List.append_nil, ← List.append_assoc, List.take_append_drop]
      · have htake : bytes.take 32 = bytes := List.take_of_length_le (by omega)
        have hdrop : bytes.drop 32 = [] := List.drop_of_length_le (by omega)
        refine ⟨32 - bytes.length, by omega, ?_⟩
        rw [htake, hdrop, toList_padTo (by omega)]
        exact List.append_nil _

/-- `merkleize` is the root of the perfect tree over its chunks and the zero chunks up to the
limit, whichever power of two of a machine word the limit is; `zero_hash` is the root of the tree
of zero chunks; packed chunks are the bytes and fewer than 32 zeros. -/
theorem merkleize_is_perfect_tree_root (sha256 : List UInt8 → Root) :
    (∀ (depth : Nat) (chunks : List Root), depth < 64 → chunks.length ≤ 2 ^ depth →
      (∃ t : PerfectTree Root depth,
        t.leaves = chunks ++ List.replicate (2 ^ depth - chunks.length) (zeros 32)) ∧
      ∀ t : PerfectTree Root depth,
        t.leaves = chunks ++ List.replicate (2 ^ depth - chunks.length) (zeros 32) →
        (merkleize sha256 chunks (2 ^ depth)).value = t.root (pairDigest sha256)) ∧
    (∀ (depth : Nat) (t : PerfectTree Root depth),
      t.leaves = List.replicate (2 ^ depth) (zeros 32) →
        (zeroHash sha256 depth).value = t.root (pairDigest sha256)) ∧
    ∀ bytes : List UInt8, ∃ n, n < 32 ∧
      (packBytes bytes).flatMap List.Vector.toList = bytes ++ List.replicate n 0 := by
  refine ⟨?_, fun _ _ ht => value_zeroHash_eq_root sha256 ht, flatMap_packBytes⟩
  intro depth chunks bounded fits
  refine ⟨exists_leaves_eq (length_padded fits), ?_⟩
  intro t ht
  exact value_merkleize_eq_root sha256 (by omega) fits ht

/-- Three chunks against a limit of four. -/
theorem merkleize_is_perfect_tree_root_three :
    (merkleize Sha256.digest [padTo 32 [1], padTo 32 [2], padTo 32 [3]] (2 ^ 2)).value =
      pairDigest Sha256.digest (pairDigest Sha256.digest (padTo 32 [1]) (padTo 32 [2]))
        (pairDigest Sha256.digest (padTo 32 [3]) (zeros 32)) := by
  obtain ⟨-, hroot⟩ := (merkleize_is_perfect_tree_root Sha256.digest).1 2
    [padTo 32 [1], padTo 32 [2], padTo 32 [3]] (by decide) (by decide)
  have hvalue := hroot (.fork (.fork (.tip (padTo 32 [1])) (.tip (padTo 32 [2])))
    (.fork (.tip (padTo 32 [3])) (.tip (zeros 32)))) rfl
  simp only [root] at hvalue
  exact hvalue

end ShellPrimitives.Ssz
