import ShellChain.Mempool.AdmissionExact

/-!
# The two orders on `U256`

The bytes of a `U256` are little-endian. The mempool compares them from the last
one down and so compares numbers; the derived order compares them in the order
they are stored. Each is decided by one pair of bytes, the highest or the lowest
that differ, and the orders agree on two values exactly when these two pairs do.
-/

namespace ShellPrimitives

/-- The derived `Ord`: arrays are compared lexicographically. -/
def U256.cmp (left right : U256) : Ordering :=
  compareOfLessAndEq left.bytes.toList right.bytes.toList

/-- `left <= right`. -/
def U256.le (left right : U256) : Bool := (left.cmp right).isLE

/-- The lowest pair of bytes that differ. -/
def U256.lowestDifference (left right : U256) : Option (UInt8 × UInt8) :=
  (left.bytes.toList.zip right.bytes.toList).find? fun pair => pair.1 ≠ pair.2

/-- The highest pair of bytes that differ. -/
def U256.highestDifference (left right : U256) : Option (UInt8 × UInt8) :=
  (left.bytes.toList.zip right.bytes.toList).reverse.find? fun pair => pair.1 ≠ pair.2

/-- The lowest and the highest difference, if there are any, point the same way. -/
def U256.DifferencesAgree (left right : U256) : Prop :=
  ∀ low ∈ left.lowestDifference right, ∀ high ∈ left.highestDifference right,
    low.1 < low.2 ↔ high.1 < high.2

end ShellPrimitives

namespace ShellMempool

open ByteCodec ShellPrimitives

/-- The loop is decided by the first pair that differs. -/
theorem isLE_compareBytes_iff (pairs : List (UInt8 × UInt8)) :
    (compareBytes pairs).isLE = true ↔
      ∀ pair ∈ pairs.find? fun pair => pair.1 ≠ pair.2, pair.1 < pair.2 := by
  induction pairs with
  | nil => simp [compareBytes]
  | cons pair rest ih =>
    obtain ⟨a, b⟩ := pair
    by_cases hsame : a = b
    · have hcompare : compareOfLessAndEq a b = .eq :=
        (compareOfLessAndEq_eq_eq le_refl not_le).mpr hsame
      rw [compareBytes, hcompare, List.find?_cons_of_neg (by simp [hsame])]
      exact ih
    · have hdecided : compareBytes ((a, b) :: rest) = compareOfLessAndEq a b := by
        rw [compareBytes]
        cases hcompare : compareOfLessAndEq a b with
        | lt => rfl
        | eq => exact absurd ((compareOfLessAndEq_eq_eq le_refl not_le).mp hcompare) hsame
        | gt => rfl
      rw [hdecided, isLE_compareOfLessAndEq le_antisymm not_le le_total,
        List.find?_cons_of_pos (by simp [hsame])]
      simp only [Option.mem_def, Option.some.injEq, forall_eq']
      constructor
      · intro hle
        exact lt_of_le_of_ne hle hsame
      · exact le_of_lt

/-- Arrays of one length are compared pair by pair, too. -/
theorem compareOfLessAndEq_eq_compareBytes {left right : List UInt8}
    (same : left.length = right.length) :
    compareOfLessAndEq left right = compareBytes (left.zip right) := by
  induction left generalizing right with
  | nil =>
    obtain rfl := List.length_eq_zero_iff.mp same.symm
    rfl
  | cons a left ih =>
    cases right with
    | nil => cases same
    | cons b right =>
      rw [compareOfLessAndEq_cons, ih (Nat.succ.inj same), List.zip_cons_cons, compareBytes]
      cases compareOfLessAndEq a b <;> rfl

theorem le_iff_lowestDifference (a b : U256) :
    a.le b = true ↔ ∀ low ∈ a.lowestDifference b, low.1 < low.2 := by
  have hlength : a.bytes.toList.length = b.bytes.toList.length := by simp
  rw [U256.le, U256.cmp, compareOfLessAndEq_eq_compareBytes hlength]
  exact isLE_compareBytes_iff _

theorem leNat_le_iff_highestDifference (a b : U256) :
    leNat a.bytes.toList ≤ leNat b.bytes.toList ↔
      ∀ high ∈ a.highestDifference b, high.1 < high.2 := by
  have hlength : a.bytes.toList.length = b.bytes.toList.length := by simp
  have hreverse : a.bytes.toList.reverse.zip b.bytes.toList.reverse =
      (a.bytes.toList.zip b.bytes.toList).reverse := (List.reverse_zipWith hlength).symm
  rw [← isLE_compareOfLessAndEq Nat.le_antisymm Nat.not_le Nat.le_total,
    ← compareBytes_reverse_zip hlength, hreverse]
  exact isLE_compareBytes_iff _

/-- Equal values have no difference at either end, others one at both. -/
theorem lowestDifference_eq_none_iff (a b : U256) :
    a.lowestDifference b = none ↔ a.highestDifference b = none := by
  simp only [U256.lowestDifference, U256.highestDifference, List.find?_eq_none, List.mem_reverse]

/-- The type's own order and the mempool's numeric order agree on two values if and only if their
lowest and their highest difference point the same way. -/
theorem u256_orders_agree_iff (a b : U256) :
    ((a.le b = true ↔ gasPriceCovers ⟨b⟩ ⟨a⟩ = true) ∧
      (gasPriceCovers ⟨b⟩ ⟨a⟩ = true ↔ leNat a.bytes.toList ≤ leNat b.bytes.toList)) ↔
        a.DifferencesAgree b := by
  have hnumeric : gasPriceCovers ⟨b⟩ ⟨a⟩ = true ↔
      leNat a.bytes.toList ≤ leNat b.bytes.toList := gasPriceCovers_iff ⟨b⟩ ⟨a⟩
  rw [and_iff_left hnumeric, hnumeric, le_iff_lowestDifference, leNat_le_iff_highestDifference,
    U256.DifferencesAgree]
  have hboth := lowestDifference_eq_none_iff a b
  cases hlow : a.lowestDifference b with
  | none => simp [hboth.mp hlow]
  | some low =>
    cases hhigh : a.highestDifference b with
    | none =>
      rw [hboth.mpr hhigh] at hlow
      cases hlow
    | some high => simp

def one : U256 := ⟨padTo 32 [1]⟩

def twoHundredFiftySix : U256 := ⟨padTo 32 [0, 1]⟩

/-- A price of 256 covers a price of 1, which the derived order puts above it. -/
theorem derived_order_not_numeric :
    one.le twoHundredFiftySix = false ∧ gasPriceCovers ⟨twoHundredFiftySix⟩ ⟨one⟩ = true ∧
      ¬ ∀ a b : U256, a.le b = true ↔ gasPriceCovers ⟨b⟩ ⟨a⟩ = true := by
  have hderived : one.le twoHundredFiftySix = false := by decide
  have hnumeric : gasPriceCovers ⟨twoHundredFiftySix⟩ ⟨one⟩ = true := by decide
  refine ⟨hderived, hnumeric, fun hall => ?_⟩
  have hle := (hall one twoHundredFiftySix).mpr hnumeric
  rw [hderived] at hle
  cases hle

end ShellMempool
