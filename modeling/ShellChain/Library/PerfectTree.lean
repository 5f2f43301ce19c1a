import Mathlib.Algebra.Group.Nat.Defs
import Mathlib.Data.List.Basic
import Mathlib.Logic.Function.Iterate

/-!
# Perfect binary trees

A tree whose leaves all lie at one depth, so that depth `d` means `2 ^ d` leaves.
The depth is part of the type. Every list of that length is the leaves of a tree,
and the value of a tree under a pairing function is what pairwise hashing
computes. Lists that are too short are padded.
-/

universe u

inductive PerfectTree (α : Type u) : Nat → Type u where
  | tip (a : α) : PerfectTree α 0
  | fork {depth : Nat} (left right : PerfectTree α depth) : PerfectTree α (depth + 1)

namespace PerfectTree
variable {α : Type u} {depth : Nat}

/-- The leaves from left to right. -/
def leaves {depth : Nat} : PerfectTree α depth → List α
  | tip a => [a]
  | fork left right => left.leaves ++ right.leaves

/-- The value at the top, each fork being the pair of its two halves. -/
def root {depth : Nat} (pair : α → α → α) : PerfectTree α depth → α
  | tip a => a
  | fork left right => pair (left.root pair) (right.root pair)

@[simp] theorem length_leaves (t : PerfectTree α depth) : t.leaves.length = 2 ^ depth := by
  induction t with
  | tip a => rfl
  | fork left right ihl ihr =>
    rw [leaves, List.length_append, ihl, ihr]
    omega

/-- Every list of the right length is the leaves of a tree. -/
theorem exists_leaves_eq {l : List α} (h : l.length = 2 ^ depth) :
    ∃ t : PerfectTree α depth, t.leaves = l := by
  induction depth generalizing l with
  | zero =>
    obtain ⟨a, rfl⟩ := List.length_eq_one_iff.mp h
    exact ⟨tip a, rfl⟩
  | succ depth ih =>
    have hleft : (l.take (2 ^ depth)).length = 2 ^ depth := by
      rw [List.length_take]
      omega
    have hright : (l.drop (2 ^ depth)).length = 2 ^ depth := by
      rw [List.length_drop]
      omega
    obtain ⟨left, hl⟩ := ih hleft
    obtain ⟨right, hr⟩ := ih hright
    exact ⟨fork left right, by rw [leaves, hl, hr, List.take_append_drop]⟩

/-! ## Padding -/

/-- A list filled up to a length. -/
def padded (a : α) (n : Nat) (l : List α) : List α := l ++ List.replicate (n - l.length) a

@[simp] theorem length_padded {a : α} {n : Nat} {l : List α} (fits : l.length ≤ n) :
    (padded a n l).length = n := by
  rw [padded, List.length_append, List.length_replicate]
  omega

/-- Cut at a half, a padded list is the padded first half and the padded rest. -/
theorem padded_split (a : α) (n : Nat) (l : List α) (fits : l.length ≤ n + n) :
    padded a (n + n) l = padded a n (l.take n) ++ padded a n (l.drop n) := by
  simp only [padded, List.length_take, List.length_drop]
  by_cases hshort : l.length ≤ n
  · -- All of the list is in the first half.
    have htake : l.take n = l := List.take_of_length_le hshort
    have hdrop : l.drop n = [] := List.drop_of_length_le hshort
    have hfill : n + n - l.length = (n - min n l.length) + (n - (l.length - n)) := by omega
    rw [htake, hdrop, hfill, List.replicate_add, List.nil_append, List.append_assoc]
  · have hnone : n - min n l.length = 0 := by omega
    have hfill : n + n - l.length = n - (l.length - n) := by omega
    rw [hnone, hfill, List.replicate_zero, List.append_nil, ← List.append_assoc,
      List.take_append_drop]

/-- The halves of a tree over a padded list are trees over the padded halves. -/
theorem leaves_fork_eq_padded {a : α} {l : List α} {left right : PerfectTree α depth}
    (fits : l.length ≤ 2 ^ (depth + 1))
    (h : (fork left right).leaves = padded a (2 ^ (depth + 1)) l) :
    left.leaves = padded a (2 ^ depth) (l.take (2 ^ depth)) ∧
      right.leaves = padded a (2 ^ depth) (l.drop (2 ^ depth)) := by
  have hdouble : 2 ^ (depth + 1) = 2 ^ depth + 2 ^ depth := by omega
  rw [hdouble] at fits h
  rw [padded_split a (2 ^ depth) l fits, leaves] at h
  apply List.append_inj h
  have hhalf : (l.take (2 ^ depth)).length ≤ 2 ^ depth := by
    rw [List.length_take]
    omega
  rw [length_leaves, length_padded hhalf]

/-- The value of a tree of equal leaves, level by level. -/
theorem root_replicate (pair : α → α → α) {a : α} {t : PerfectTree α depth}
    (h : t.leaves = List.replicate (2 ^ depth) a) :
    t.root pair = (fun x => pair x x)^[depth] a := by
  induction t with
  | tip b => exact List.head_eq_of_cons_eq h
  | @fork depth left right ihl ihr =>
    have hdouble : 2 ^ (depth + 1) = 2 ^ depth + 2 ^ depth := by omega
    rw [hdouble, List.replicate_add, leaves] at h
    obtain ⟨hl, hr⟩ := List.append_inj h (by simp)
    rw [root, ihl hl, ihr hr, Function.iterate_succ_apply']

end PerfectTree
