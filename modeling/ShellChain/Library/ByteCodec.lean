import Mathlib.Data.Vector.Basic
import Mathlib.Data.List.Lex
import Mathlib.Data.Nat.ModEq
import ShellChain.Library.Logged

/-!
# Byte strings, fixed arrays and fixed-width integers

Byte strings are lists of `UInt8`, ordered lexicographically. Fixed arrays
carry their length. Integers are written in a given number of bytes, and a
width that is too small truncates, as a machine cast does.

Reading out of bounds is a fault of its own kind, apart from the errors a
reader returns, so that "no read is out of bounds" can be stated and proved.
-/

universe u

instance instLinearOrderUInt8 : LinearOrder UInt8 where
  le_refl := UInt8.le_refl
  le_trans _ _ _ := UInt8.le_trans
  le_antisymm _ _ := UInt8.le_antisymm
  le_total := UInt8.le_total
  lt_iff_le_not_ge a b := by
    simp only [UInt8.lt_iff_toNat_lt, UInt8.le_iff_toNat_le]
    omega
  toDecidableLE := inferInstance
  toDecidableLT := inferInstance
  toDecidableEq := inferInstance

namespace ByteCodec

/-! ## Fixed arrays -/

abbrev FixedBytes (n : Nat) := List.Vector UInt8 n

def zeros (n : Nat) : FixedBytes n := List.Vector.replicate n 0

/-- A zeroed array of `n` bytes whose front has been overwritten with `bytes`. -/
def padTo (n : Nat) (bytes : List UInt8) : FixedBytes n :=
  ⟨(bytes ++ List.replicate n 0).take n, by simp⟩

theorem toList_padTo {n : Nat} {bytes : List UInt8} (fits : bytes.length ≤ n) :
    (padTo n bytes).toList = bytes ++ List.replicate (n - bytes.length) 0 := by
  change (bytes ++ List.replicate n 0).take n = _
  rw [List.take_append, List.take_of_length_le fits, List.take_replicate,
    Nat.min_eq_left (by omega)]

/-- Zero padding is unambiguous between byte strings of one length. -/
theorem padTo_injective {n : Nat} {a b : List UInt8} (ha : a.length ≤ n)
    (same : a.length = b.length) (h : padTo n a = padTo n b) : a = b := by
  have hl := congrArg List.Vector.toList h
  rw [toList_padTo ha, toList_padTo (by omega)] at hl
  exact (List.append_inj hl same).1

/-- Codes that are cut off the same way whatever follows them are cut from a concatenation in one
way only. -/
theorem flatMap_injective_of_cut {α : Type u} {enc : α → List UInt8} {D : Set α}
    (nonempty : ∀ a, enc a ≠ [])
    (cut : ∀ a ∈ D, ∀ b ∈ D, ∀ x y, enc a ++ x = enc b ++ y → a = b ∧ x = y) {as bs : List α}
    (ha : ∀ a ∈ as, a ∈ D) (hb : ∀ b ∈ bs, b ∈ D) (h : as.flatMap enc = bs.flatMap enc) :
    as = bs := by
  induction as generalizing bs with
  | nil =>
    cases bs with
    | nil => rfl
    | cons b bs => exact absurd (List.append_eq_nil_iff.mp h.symm).1 (nonempty b)
  | cons a as ih =>
    cases bs with
    | nil => exact absurd (List.append_eq_nil_iff.mp h).1 (nonempty a)
    | cons b bs =>
      obtain ⟨hhead, htail⟩ := cut a (ha a List.mem_cons_self) b (hb b List.mem_cons_self) _ _ h
      have hrest : as = bs := ih (fun c hc => ha c (List.mem_cons_of_mem a hc))
        (fun c hc => hb c (List.mem_cons_of_mem b hc)) htail
      rw [hhead, hrest]

/-- A concatenation of arrays of one nonzero length is cut in one way only. -/
theorem flatMap_toList_injective {n : Nat} (positive : 0 < n) {as bs : List (FixedBytes n)}
    (h : as.flatMap List.Vector.toList = bs.flatMap List.Vector.toList) : as = bs := by
  apply flatMap_injective_of_cut (D := Set.univ) _ _ (fun _ _ => trivial) (fun _ _ => trivial) h
  · intro a hempty
    have hlength := congrArg List.length hempty
    rw [a.toList_length, List.length_nil] at hlength
    omega
  · intro a _ b _ x y hcut
    obtain ⟨hhead, htail⟩ := List.append_inj hcut (by simp)
    exact ⟨List.Vector.eq a b hhead, htail⟩

/-- A byte-string literal: the characters of a string are its bytes. -/
def ascii (s : String) : List UInt8 := s.toList.map fun c => UInt8.ofNat c.toNat

/-! ## Integers -/

/-- The low `width` bytes of a number, least significant first. -/
def leBytes : Nat → Nat → List UInt8
  | 0, _ => []
  | width + 1, n => UInt8.ofNat (n % 256) :: leBytes width (n / 256)

def leNat : List UInt8 → Nat
  | [] => 0
  | b :: rest => b.toNat + 256 * leNat rest

/-- Most significant byte first. -/
def beBytes (width n : Nat) : List UInt8 := (leBytes width n).reverse

@[simp] theorem length_leBytes (width n : Nat) : (leBytes width n).length = width := by
  induction width generalizing n with
  | zero => rfl
  | succ width ih => simp [leBytes, ih]

@[simp] theorem length_beBytes (width n : Nat) : (beBytes width n).length = width := by
  simp [beBytes]

theorem leNat_leBytes (width n : Nat) : leNat (leBytes width n) = n % 256 ^ width := by
  induction width generalizing n with
  | zero => simp [leBytes, leNat, Nat.mod_one]
  | succ width ih =>
    have hbyte : (UInt8.ofNat (n % 256)).toNat = n % 256 := by simp
    rw [leBytes, leNat, ih, hbyte, Nat.pow_succ', Nat.mod_mul]

theorem leNat_lt (bytes : List UInt8) : leNat bytes < 256 ^ bytes.length := by
  induction bytes with
  | nil => simp [leNat]
  | cons b rest ih =>
    have hb := b.toNat_lt
    rw [leNat, List.length_cons, Nat.pow_succ']
    omega

theorem leBytes_leNat (bytes : List UInt8) : leBytes bytes.length (leNat bytes) = bytes := by
  induction bytes with
  | nil => rfl
  | cons b rest ih =>
    have hb := b.toNat_lt
    have hlow : (b.toNat + 256 * leNat rest) % 256 = b.toNat := by omega
    have hhigh : (b.toNat + 256 * leNat rest) / 256 = leNat rest := by omega
    rw [List.length_cons, leNat, leBytes, hlow, hhigh, ih, UInt8.ofNat_toNat]

/-- Distinct numbers that fit are written differently. -/
theorem leBytes_injective {width m n : Nat} (hm : m < 256 ^ width) (hn : n < 256 ^ width)
    (h : leBytes width m = leBytes width n) : m = n := by
  have hv := congrArg leNat h
  rwa [leNat_leBytes, leNat_leBytes, Nat.mod_eq_of_lt hm, Nat.mod_eq_of_lt hn] at hv

theorem beBytes_injective {width m n : Nat} (hm : m < 256 ^ width) (hn : n < 256 ^ width)
    (h : beBytes width m = beBytes width n) : m = n :=
  leBytes_injective hm hn (List.reverse_injective h)

end ByteCodec

/-! ## Reading -/

/-- A call ends early by returning an error or by an out-of-bounds access. -/
inductive Fault (ε : Type u) where
  | error (e : ε)
  | panic (site : String)
  deriving DecidableEq

abbrev Checked (ε : Type u) (α : Type u) := Except (Fault ε) α

namespace ByteCodec

/-- `bytes.get(offset..offset + n)`: the window when it lies inside the bytes. -/
def window (bytes : List UInt8) (offset n : Nat) : Option (FixedBytes n) :=
  if h : offset + n ≤ bytes.length then
    some ⟨(bytes.drop offset).take n, by simp; omega⟩
  else none

/-- `&bytes[start..stop]`, which faults when the range is not inside the bytes. -/
def slice {ε : Type} (bytes : List UInt8) (start stop : Nat) : Checked ε (List UInt8) :=
  if start ≤ stop ∧ stop ≤ bytes.length then .ok ((bytes.take stop).drop start)
  else .error (.panic "slice index out of range")

/-- `bytes[i]`, which faults past the end. -/
def index {ε : Type} (bytes : List UInt8) (i : Nat) : Checked ε UInt8 :=
  match bytes[i]? with
  | some b => .ok b
  | none => .error (.panic "index out of bounds")

/-- A field stands at an offset when what follows the offset begins with it. -/
def FieldAt (bytes : List UInt8) (offset : Nat) (field : List UInt8) : Prop :=
  ∃ rest, bytes.drop offset = field ++ rest

/-- Two fields stand next to each other exactly when their concatenation stands there. -/
theorem fieldAt_append (bytes : List UInt8) (offset : Nat) (a b : List UInt8) :
    FieldAt bytes offset (a ++ b) ↔
      FieldAt bytes offset a ∧ FieldAt bytes (offset + a.length) b := by
  constructor
  · rintro ⟨rest, h⟩
    rw [List.append_assoc] at h
    exact ⟨⟨b ++ rest, h⟩, rest, by rw [← List.drop_drop, h, List.drop_left]⟩
  · rintro ⟨⟨after, ha⟩, rest, hb⟩
    rw [← List.drop_drop, ha, List.drop_left] at hb
    exact ⟨rest, by rw [ha, hb, List.append_assoc]⟩

/-- A byte string is a fixed part followed by the rest. -/
theorem eq_append_iff (bytes fixed rest : List UInt8) :
    bytes = fixed ++ rest ↔ FieldAt bytes 0 fixed ∧ bytes.drop fixed.length = rest := by
  constructor
  · rintro rfl
    exact ⟨⟨rest, rfl⟩, List.drop_left⟩
  · rintro ⟨⟨after, h⟩, hrest⟩
    rw [List.drop_zero] at h
    rw [h, List.drop_left] at hrest
    rw [h, hrest]

/-- A table of equally wide entries stands at an offset when every entry stands in its slot. -/
theorem fieldAt_flatMap {α : Type u} {width : Nat} (enc : α → List UInt8)
    (fixed : ∀ a, (enc a).length = width) (bytes : List UInt8) (offset : Nat) (as : List α) :
    FieldAt bytes offset (as.flatMap enc) ↔
      ∀ i a, as[i]? = some a → FieldAt bytes (offset + i * width) (enc a) := by
  induction as generalizing offset with
  | nil => simp [FieldAt]
  | cons a rest ih =>
    have hstep : ∀ i, offset + width + i * width = offset + (i + 1) * width := by
      intro i
      rw [Nat.succ_mul]
      omega
    rw [List.flatMap_cons, fieldAt_append, fixed, ih]
    constructor
    · rintro ⟨ha, hrest⟩ i b hb
      cases i with
      | zero =>
        obtain rfl : a = b := by simpa using hb
        simpa using ha
      | succ i =>
        rw [← hstep]
        exact hrest i b (by simpa using hb)
    · intro h
      refine ⟨by simpa using h 0 a rfl, ?_⟩
      intro i b hb
      rw [hstep]
      exact h (i + 1) b (by simpa using hb)

theorem FieldAt.length_le {bytes field : List UInt8} {offset : Nat}
    (h : FieldAt bytes offset field) (positive : 0 < field.length) :
    offset + field.length ≤ bytes.length := by
  obtain ⟨rest, h⟩ := h
  have hlen := congrArg List.length h
  simp only [List.length_drop, List.length_append] at hlen
  omega

theorem window_eq_some_iff {n : Nat} (positive : 0 < n) (bytes : List UInt8) (offset : Nat)
    (v : FixedBytes n) : window bytes offset n = some v ↔ FieldAt bytes offset v.toList := by
  rw [window]
  constructor
  · intro h
    split at h
    · have hv := congrArg List.Vector.toList (Option.some.inj h)
      exact ⟨(bytes.drop offset).drop n, by rw [← hv]; exact (List.take_append_drop _ _).symm⟩
    · cases h
  · intro h
    have hin := h.length_le (by simpa using positive)
    obtain ⟨rest, h⟩ := h
    rw [List.Vector.toList_length] at hin
    rw [dif_pos hin]
    refine congrArg some (List.Vector.eq _ _ ?_)
    change (bytes.drop offset).take n = _
    rw [h, List.take_left' v.toList_length]

theorem slice_eq_ok {ε : Type} {bytes : List UInt8} {start stop : Nat} (h : start ≤ stop)
    (inside : stop ≤ bytes.length) :
    (slice bytes start stop : Checked ε _) = .ok ((bytes.take stop).drop start) :=
  if_pos ⟨h, inside⟩

end ByteCodec
