import ShellChain.Library.ByteCodec

/-!
# Comparing byte strings

Byte strings are compared lexicographically from the front. Between strings of
one length that is the comparison of the big-endian numbers they stand for, and
a concatenation is compared part by part. No length is needed where the strings
already differ.
-/

namespace ByteCodec

/-- The number a byte string stands for, most significant byte first. -/
def beNat (bytes : List UInt8) : Nat := leNat bytes.reverse

/-! ## Numbers digit by digit -/

theorem leNat_append (low high : List UInt8) :
    leNat (low ++ high) = leNat low + 256 ^ low.length * leNat high := by
  induction low with
  | nil => simp [leNat]
  | cons b low ih =>
    rw [List.cons_append, leNat, leNat, ih, List.length_cons, Nat.pow_succ', Nat.mul_add,
      Nat.mul_assoc, Nat.add_assoc]

theorem beNat_cons (b : UInt8) (bytes : List UInt8) :
    beNat (b :: bytes) = beNat bytes + 256 ^ bytes.length * b.toNat := by
  rw [beNat, List.reverse_cons, leNat_append, List.length_reverse]
  rfl

theorem beNat_lt (bytes : List UInt8) : beNat bytes < 256 ^ bytes.length := by
  have hbound := leNat_lt bytes.reverse
  rwa [List.length_reverse] at hbound

theorem beNat_beBytes {width n : Nat} (fits : n < 256 ^ width) : beNat (beBytes width n) = n := by
  rw [beNat, beBytes, List.reverse_reverse, leNat_leBytes, Nat.mod_eq_of_lt fits]

/-- Zero bytes in front do not count. -/
theorem beNat_replicate_append (n : Nat) (bytes : List UInt8) :
    beNat (List.replicate n 0 ++ bytes) = beNat bytes := by
  induction n with
  | zero => rfl
  | succ n ih => rw [List.replicate_succ, List.cons_append, beNat_cons, ih, UInt8.toNat_zero,
      Nat.mul_zero, Nat.add_zero]

/-- The higher digits decide a comparison unless they are equal. -/
theorem then_compareOfLessAndEq {base a b : Nat} (ha : a < base) (hb : b < base)
    (high high' : Nat) :
    (compareOfLessAndEq high high').then (compareOfLessAndEq a b) =
      compareOfLessAndEq (a + base * high) (b + base * high') := by
  rcases Nat.lt_trichotomy high high' with hlt | rfl | hgt
  · have hstep : base * (high + 1) ≤ base * high' := Nat.mul_le_mul_left base hlt
    have hsum : a + base * high < b + base * high' := by
      rw [Nat.mul_succ] at hstep
      omega
    simp only [compareOfLessAndEq, if_pos hlt, if_pos hsum, Ordering.then]
  · simp only [compareOfLessAndEq, Nat.lt_irrefl, if_false, if_true, Ordering.then,
      Nat.add_lt_add_iff_right, Nat.add_right_cancel_iff]
  · have hstep : base * (high' + 1) ≤ base * high := Nat.mul_le_mul_left base hgt
    rw [Nat.mul_succ] at hstep
    have hsum : ¬ a + base * high < b + base * high' := by omega
    have hne : ¬ a + base * high = b + base * high' := by omega
    simp only [compareOfLessAndEq, if_neg (Nat.lt_asymm hgt), if_neg (Nat.ne_of_gt hgt),
      if_neg hsum, if_neg hne, Ordering.then]

/-! ## Strings byte by byte -/

theorem compareOfLessAndEq_toNat (a b : UInt8) :
    compareOfLessAndEq a b = compareOfLessAndEq a.toNat b.toNat := by
  simp only [compareOfLessAndEq, UInt8.lt_iff_toNat_lt, ← UInt8.toNat_inj]

theorem compareOfLessAndEq_cons (a b : UInt8) (x y : List UInt8) :
    compareOfLessAndEq (a :: x) (b :: y) =
      (compareOfLessAndEq a b).then (compareOfLessAndEq x y) := by
  rcases lt_trichotomy a b with hlt | rfl | hgt
  · have hlists : a :: x < b :: y := List.cons_lt_cons_iff.mpr (Or.inl hlt)
    simp only [compareOfLessAndEq, if_pos hlt, if_pos hlists, Ordering.then]
  · simp only [compareOfLessAndEq, lt_irrefl, List.cons_lt_cons_iff, List.cons.injEq, true_and,
      false_or, if_false, if_true, Ordering.then]
  · have hlists : ¬ a :: x < b :: y := by
      rw [List.cons_lt_cons_iff]
      rintro (hlt | ⟨heq, -⟩)
      · exact lt_asymm hlt hgt
      · exact ne_of_gt hgt heq
    have hne : ¬ a :: x = b :: y := fun h => ne_of_gt hgt (List.cons.inj h).1
    simp only [compareOfLessAndEq, if_neg (lt_asymm hgt), if_neg (ne_of_gt hgt), if_neg hlists,
      if_neg hne, Ordering.then]

theorem compareOfLessAndEq_append {a b : List UInt8} (same : a.length = b.length)
    (x y : List UInt8) :
    compareOfLessAndEq (a ++ x) (b ++ y) =
      (compareOfLessAndEq a b).then (compareOfLessAndEq x y) := by
  induction a generalizing b with
  | nil =>
    obtain rfl := List.length_eq_zero_iff.mp same.symm
    rfl
  | cons c a ih =>
    cases b with
    | nil => cases same
    | cons d b =>
      rw [List.cons_append, List.cons_append, compareOfLessAndEq_cons, compareOfLessAndEq_cons,
        ih (Nat.succ.inj same), Ordering.then_assoc]

/-- Strings of one length are compared as the numbers they stand for. -/
theorem compareOfLessAndEq_beNat {a b : List UInt8} (same : a.length = b.length) :
    compareOfLessAndEq a b = compareOfLessAndEq (beNat a) (beNat b) := by
  induction a generalizing b with
  | nil =>
    obtain rfl := List.length_eq_zero_iff.mp same.symm
    rfl
  | cons c a ih =>
    cases b with
    | nil => cases same
    | cons d b =>
      have hlength : a.length = b.length := Nat.succ.inj same
      have hbound := beNat_lt b
      rw [← hlength] at hbound
      rw [compareOfLessAndEq_cons, ih hlength, compareOfLessAndEq_toNat, beNat_cons, beNat_cons,
        ← hlength]
      exact then_compareOfLessAndEq (beNat_lt a) hbound _ _

end ByteCodec
