import Mathlib.Data.List.Forall2
import ShellChain.Library.ByteCodec

/-!
# Hexadecimal text

Strings are read by their UTF-8 bytes. A slice is cut at byte offsets and
exists only where both of them are character boundaries. Two digits make a
byte, and a leading plus sign takes the place of a digit.
-/

namespace HexText

open ByteCodec

/-! ## Strings by their bytes -/

def utf8 (s : String) : List UInt8 := s.toList.flatMap String.utf8EncodeChar

def isContinuation (b : UInt8) : Bool := 0x80 ≤ b && b < 0xC0

/-- `str::is_char_boundary`. -/
def isCharBoundary (bytes : List UInt8) (index : Nat) : Bool :=
  index == 0 || match bytes[index]? with
    | some b => !isContinuation b
    | none => index == bytes.length

/-- `str` indexing with a range, `none` where it panics. -/
def strSlice (bytes : List UInt8) (start stop : Nat) : Option (List UInt8) :=
  if start ≤ stop ∧ isCharBoundary bytes start ∧ isCharBoundary bytes stop then
    some ((bytes.take stop).drop start)
  else none

/-- `str::strip_prefix`. -/
def stripPrefix (start bytes : List UInt8) : Option (List UInt8) :=
  if bytes.take start.length = start then some (bytes.drop start.length) else none

/-- A byte as a character. -/
def charOfByte (b : UInt8) : Char := Char.ofNat b.toNat

theorem stripPrefix_eq_some_iff {start bytes rest : List UInt8} :
    stripPrefix start bytes = some rest ↔ bytes = start ++ rest := by
  rw [stripPrefix]
  constructor
  · intro h
    split at h
    · next hstart =>
      obtain rfl := Option.some.inj h
      conv_lhs => rw [← List.take_append_drop start.length bytes, hstart]
    · cases h
  · rintro rfl
    rw [if_pos (List.take_left), List.drop_left]

theorem utf8EncodeChar_ne_nil (c : Char) : String.utf8EncodeChar c ≠ [] := by
  intro h
  have hlength := congrArg List.length h
  rw [String.length_utf8EncodeChar, List.length_nil] at hlength
  exact absurd hlength c.utf8Size_pos.ne'

/-- Only the first 128 characters have an encoding that starts with an ASCII byte, and there it
is one byte long. -/
theorem utf8EncodeChar_eq_cons {c : Char} {b : UInt8} {rest : List UInt8}
    (h : String.utf8EncodeChar c = b :: rest) (small : b < 0x80) :
    c = charOfByte b ∧ rest = [] := by
  have hsmall : b.toNat < 128 := UInt8.lt_iff_toNat_lt.mp small
  have hmax := c.valid
  rw [String.utf8EncodeChar] at h
  split at h
  · obtain ⟨rfl, rfl⟩ := List.cons.inj h
    refine ⟨?_, rfl⟩
    rw [charOfByte, UInt8.toNat_ofNat', Nat.mod_eq_of_lt (by omega)]
    exact (Char.ofNat_toNat c).symm
  -- A longer encoding starts with a byte of at least 192.
  · exfalso
    split at h
    · obtain ⟨rfl, -⟩ := List.cons.inj h
      rw [UInt8.toNat_ofNat'] at hsmall
      omega
    · split at h
      · obtain ⟨rfl, -⟩ := List.cons.inj h
        rw [UInt8.toNat_ofNat'] at hsmall
        omega
      · obtain ⟨rfl, -⟩ := List.cons.inj h
        rw [UInt8.toNat_ofNat'] at hsmall
        omega

theorem utf8EncodeChar_charOfByte {b : UInt8} (small : b < 0x80) :
    String.utf8EncodeChar (charOfByte b) = [b] := by
  have hsmall : b.toNat < 128 := UInt8.lt_iff_toNat_lt.mp small
  have hval : (charOfByte b).val.toNat = b.toNat := by
    have hvalid : b.toNat.isValidChar := Or.inl (by omega)
    rw [charOfByte, Char.ofNat, dif_pos hvalid]
    rfl
  simp only [String.utf8EncodeChar, hval]
  rw [if_pos (by omega)]
  simp

/-- Below 128 bytes and characters are the same thing. -/
theorem utf8_eq_iff {s : String} {bytes : List UInt8} (small : ∀ b ∈ bytes, b < 0x80) :
    utf8 s = bytes ↔ s.toList = bytes.map charOfByte := by
  rw [utf8]
  generalize s.toList = cs
  induction bytes generalizing cs with
  | nil =>
    rw [List.map_nil]
    constructor
    · intro h
      cases cs with
      | nil => rfl
      | cons c cs => exact absurd (List.append_eq_nil_iff.mp h).1 (utf8EncodeChar_ne_nil c)
    · rintro rfl
      rfl
  | cons b rest ih =>
    have hb := small b List.mem_cons_self
    have hrest := fun cs => ih (fun x hx => small x (List.mem_cons_of_mem b hx)) cs
    rw [List.map_cons]
    constructor
    · intro h
      cases cs with
      | nil => cases h
      | cons c cs =>
        rw [List.flatMap_cons] at h
        cases hencoded : String.utf8EncodeChar c with
        | nil => exact absurd hencoded (utf8EncodeChar_ne_nil c)
        | cons b' more =>
          rw [hencoded] at h
          obtain ⟨rfl, htail⟩ := List.cons.inj h
          obtain ⟨rfl, rfl⟩ := utf8EncodeChar_eq_cons hencoded hb
          rw [(hrest cs).mp htail]
    · rintro rfl
      rw [List.flatMap_cons, utf8EncodeChar_charOfByte hb, (hrest _).mpr rfl]
      rfl

/-! ## Digits -/

/-- `char::to_digit` in base 16. -/
def toDigit (c : Char) : Option Nat :=
  if '0' ≤ c ∧ c ≤ '9' then some (c.toNat - '0'.toNat)
  else if 'a' ≤ c ∧ c ≤ 'f' then some (c.toNat - 'a'.toNat + 10)
  else if 'A' ≤ c ∧ c ≤ 'F' then some (c.toNat - 'A'.toNat + 10)
  else none

/-- One more digit, as long as the number fits a byte. -/
def pushDigit (n : Nat) (b : UInt8) : Option Nat := do
  let digit ← toDigit (charOfByte b)
  if n * 16 + digit < 256 then some (n * 16 + digit) else none

/-- `u8::from_str_radix` in base 16. -/
def u8FromStrRadix16 : List UInt8 → Option UInt8
  | [] => none
  | b :: rest =>
    -- A sign on its own is not a number.
    let digits := if b = 0x2B ∧ rest ≠ [] then rest else b :: rest
    (digits.foldlM pushDigit 0).map UInt8.ofNat

/-- The two characters spell the byte: two digits, or a plus sign and a digit. -/
def Spells (hi lo : Char) (b : UInt8) : Prop :=
  ∃ low, toDigit lo = some low ∧
    (hi = '+' ∧ b.toNat = low ∨ ∃ high, toDigit hi = some high ∧ b.toNat = 16 * high + low)

theorem toDigit_lt {c : Char} {d : Nat} (h : toDigit c = some d) : d < 16 ∧ c.toNat < 128 := by
  have hle : ∀ {a b : Char}, a ≤ b → a.toNat ≤ b.toNat := fun h => h
  rw [toDigit] at h
  split at h
  · next hc =>
    obtain rfl := Option.some.inj h
    have hlow := hle hc.1
    have hhigh := hle hc.2
    simp only [Char.reduceToNat] at hlow hhigh ⊢
    omega
  · split at h
    · next hc =>
      obtain rfl := Option.some.inj h
      have hlow := hle hc.1
      have hhigh := hle hc.2
      simp only [Char.reduceToNat] at hlow hhigh ⊢
      omega
    · split at h
      · next hc =>
        obtain rfl := Option.some.inj h
        have hlow := hle hc.1
        have hhigh := hle hc.2
        simp only [Char.reduceToNat] at hlow hhigh ⊢
        omega
      · cases h

theorem pushDigit_eq_some_iff {n m : Nat} {b : UInt8} :
    pushDigit n b = some m ↔
      ∃ digit, toDigit (charOfByte b) = some digit ∧ n * 16 + digit < 256 ∧ m = n * 16 + digit := by
  simp only [pushDigit, bind, Option.bind_eq_some_iff]
  constructor
  · rintro ⟨digit, hdigit, h⟩
    split at h
    · next hsmall => exact ⟨digit, hdigit, hsmall, (Option.some.inj h).symm⟩
    · cases h
  · rintro ⟨digit, hdigit, hsmall, rfl⟩
    exact ⟨digit, hdigit, if_pos hsmall⟩

theorem charOfByte_toNat (b : UInt8) : (charOfByte b).toNat = b.toNat := by
  have hvalid : b.toNat.isValidChar := Or.inl (by have := b.toNat_lt; omega)
  rw [charOfByte, Char.ofNat, dif_pos hvalid]
  rfl

theorem charOfByte_injective : Function.Injective charOfByte := by
  intro a b h
  have htoNat := congrArg Char.toNat h
  rw [charOfByte_toNat, charOfByte_toNat] at htoNat
  exact UInt8.toNat_inj.mp htoNat

theorem ofNat_eq_iff {n : Nat} (small : n < 256) {b : UInt8} :
    UInt8.ofNat n = b ↔ b.toNat = n := by
  rw [← UInt8.toNat_inj, UInt8.toNat_ofNat', Nat.mod_eq_of_lt small]
  exact eq_comm

/-- A slice of two bytes is read exactly when its characters spell a byte. -/
theorem u8FromStrRadix16_pair {a b v : UInt8} :
    u8FromStrRadix16 [a, b] = some v ↔ Spells (charOfByte a) (charOfByte b) v := by
  have hplus : charOfByte a = '+' ↔ a = 0x2B :=
    ⟨fun h => charOfByte_injective (h.trans (by decide)), fun h => by rw [h]; decide⟩
  rw [Spells, hplus]
  by_cases ha : a = 0x2B
  · have hsign : toDigit (charOfByte a) = none := by
      rw [ha]
      decide
    have hread : u8FromStrRadix16 [a, b] = (pushDigit 0 b).map UInt8.ofNat := by
      rw [u8FromStrRadix16]
      simp [ha]
    rw [hread, hsign]
    simp only [Option.map_eq_some_iff, pushDigit_eq_some_iff]
    constructor
    · rintro ⟨_, ⟨low, hlow, hsmall, rfl⟩, hv⟩
      exact ⟨low, hlow, Or.inl ⟨ha, ((ofNat_eq_iff hsmall).mp hv).trans (by omega)⟩⟩
    · rintro ⟨low, hlow, ⟨-, hv⟩ | ⟨high, hhigh, -⟩⟩
      · have hsmall := (toDigit_lt hlow).1
        exact ⟨_, ⟨low, hlow, by omega, rfl⟩, (ofNat_eq_iff (by omega)).mpr (by omega)⟩
      · cases hhigh
  · have hread : u8FromStrRadix16 [a, b] =
        ((pushDigit 0 a).bind fun n => pushDigit n b).map UInt8.ofNat := by
      rw [u8FromStrRadix16]
      simp [ha]
    rw [hread]
    simp only [Option.map_eq_some_iff, Option.bind_eq_some_iff, pushDigit_eq_some_iff]
    constructor
    · rintro ⟨_, ⟨_, ⟨high, hhigh, -, rfl⟩, low, hlow, hsmall, rfl⟩, hv⟩
      refine ⟨low, hlow, Or.inr ⟨high, hhigh, ((ofNat_eq_iff hsmall).mp hv).trans (by omega)⟩⟩
    · rintro ⟨low, hlow, ⟨habsurd, -⟩ | ⟨high, hhigh, hv⟩⟩
      · exact absurd habsurd ha
      · have hlowSmall := (toDigit_lt hlow).1
        have hhighSmall := (toDigit_lt hhigh).1
        exact ⟨_, ⟨_, ⟨high, hhigh, by omega, rfl⟩, low, hlow, by omega, rfl⟩,
          (ofNat_eq_iff (by omega)).mpr (by omega)⟩

theorem Spells.lt {hi lo : Char} {b : UInt8} (spells : Spells hi lo b) :
    hi.toNat < 128 ∧ lo.toNat < 128 := by
  obtain ⟨low, hlow, ⟨rfl, -⟩ | ⟨high, hhigh, -⟩⟩ := spells
  · exact ⟨by decide, (toDigit_lt hlow).2⟩
  · exact ⟨(toDigit_lt hhigh).2, (toDigit_lt hlow).2⟩

/-! ## Pairs of digits -/

/-- Characters in pairs. -/
def joined (pairs : List (Char × Char)) : List Char := pairs.flatMap fun d => [d.1, d.2]

theorem joined_cons (d : Char × Char) (pairs : List (Char × Char)) :
    joined (d :: pairs) = d.1 :: d.2 :: joined pairs := rfl

theorem length_joined (pairs : List (Char × Char)) : (joined pairs).length = 2 * pairs.length := by
  simp [joined, List.length_flatMap, Nat.mul_comm]

/-- The pairs spell the bytes, one each. -/
def SpellsAll (pairs : List (Char × Char)) (bytes : List UInt8) : Prop :=
  List.Forall₂ (fun d b => Spells d.1 d.2 b) pairs bytes

theorem SpellsAll.lt {pairs : List (Char × Char)} {bytes : List UInt8}
    (spelled : SpellsAll pairs bytes) : ∀ c ∈ joined pairs, c.toNat < 128 := by
  induction spelled with
  | nil =>
    intro c hc
    cases hc
  | cons hspells _ ih =>
    intro c hc
    rcases List.mem_cons.mp hc with rfl | hc
    · exact hspells.lt.1
    · rcases List.mem_cons.mp hc with rfl | hc
      · exact hspells.lt.2
      · exact ih c hc

theorem lt_of_charOfByte {b : UInt8} (small : (charOfByte b).toNat < 128) : b < 0x80 := by
  rw [charOfByte_toNat] at small
  exact UInt8.lt_iff_toNat_lt.mpr small

theorem charOfByte_ofNat {c : Char} (small : c.toNat < 128) :
    charOfByte (UInt8.ofNat c.toNat) = c := by
  rw [charOfByte, UInt8.toNat_ofNat', Nat.mod_eq_of_lt (by omega), Char.ofNat_toNat]

theorem isCharBoundary_length (bytes : List UInt8) :
    isCharBoundary bytes bytes.length = true := by
  simp [isCharBoundary]

theorem isCharBoundary_append {front rest : List UInt8} {b : UInt8} (small : b < 0x80) :
    isCharBoundary (front ++ b :: rest) front.length = true := by
  have hb : ¬ (0x80 ≤ b) := not_le.mpr small
  simp [isCharBoundary, isContinuation, hb]

/-- A slice of two bytes right after some others. -/
theorem strSlice_append (front rest : List UInt8) (a b : UInt8) :
    strSlice (front ++ a :: b :: rest) front.length (front.length + 2) =
      if isCharBoundary (front ++ a :: b :: rest) front.length ∧
          isCharBoundary (front ++ a :: b :: rest) (front.length + 2) then some [a, b]
      else none := by
  have hcut : ((front ++ a :: b :: rest).take (front.length + 2)).drop front.length = [a, b] := by
    rw [List.take_append, List.take_of_length_le (by omega)]
    simp
  rw [strSlice, hcut]
  exact if_congr (and_iff_right (Nat.le_add_right _ _)) rfl rfl

/-! ## Writing -/

def hexChar (n : Nat) : Char :=
  if n < 10 then Char.ofNat ('0'.toNat + n) else Char.ofNat ('a'.toNat + n - 10)

def hexPair (b : UInt8) : Char × Char := (hexChar (b.toNat / 16), hexChar (b.toNat % 16))

theorem toDigit_hexChar {n : Nat} (small : n < 16) : toDigit (hexChar n) = some n := by
  have hall : ∀ i : Fin 16, toDigit (hexChar i) = some i.val := by decide
  exact hall ⟨n, small⟩

theorem spellsAll_hexPair (bytes : List UInt8) : SpellsAll (bytes.map hexPair) bytes := by
  refine List.forall₂_map_left_iff.mpr (List.forall₂_same.mpr ?_)
  intro b _
  have hb := b.toNat_lt
  refine ⟨b.toNat % 16, toDigit_hexChar (by omega), Or.inr ⟨b.toNat / 16, ?_, by omega⟩⟩
  exact toDigit_hexChar (by omega)

end HexText
