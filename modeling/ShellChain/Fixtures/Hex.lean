import ShellChain.Library.HexText
import ShellChain.Primitives.Types

/-!
# Hexadecimal fields of the fixtures

`shell-fixtures`: every byte string of a test vector is written as `0x` and
pairs of digits. The readers panic on anything else; a panic is an error here,
with what its message is formatted from.
-/

namespace ShellFixtures

open ByteCodec HexText ShellPrimitives Except

inductive HexPanic where
  | missingPrefix (value : String)
  | oddLength (value : String)
  -- The slice itself panics when a character is longer than a byte.
  | charBoundary (index : Nat) (value : String)
  | invalidByte (index : Nat) (value : String)
  | wrongLength (expected : Nat) (noun : String) (actual : Nat) (value : String)
  deriving DecidableEq

/-- The byte at an offset of the digits. -/
def hexByteAt (value : String) (hex : List UInt8) (index : Nat) : Except HexPanic UInt8 :=
  match strSlice hex index (index + 2) with
  | none => .error (.charBoundary index value)
  | some digits =>
    match u8FromStrRadix16 digits with
    | none => .error (.invalidByte index value)
    | some byte => .ok byte

def parseHex (value : String) : Except HexPanic (List UInt8) :=
  match stripPrefix (ascii "0x") (utf8 value) with
  | none => .error (.missingPrefix value)
  | some hex =>
    if hex.length % 2 ≠ 0 then .error (.oddLength value)
    else (List.range' 0 (hex.length / 2) 2).mapM (hexByteAt value hex)

/-- The readers of arrays differ in the length they expect and in what they call it. -/
def parseArray (n : Nat) (noun : String) (value : String) : Except HexPanic (FixedBytes n) := do
  let bytes ← parseHex value
  if h : bytes.length = n then .ok ⟨bytes, h⟩
  else .error (.wrongLength n noun bytes.length value)

def parseRoot : String → Except HexPanic Root := parseArray 32 "root"

def parseAddress : String → Except HexPanic ExecutionAddress := parseArray 20 "address"

def parseBytes32 : String → Except HexPanic (FixedBytes 32) := parseArray 32 "hex string"

def parseBytes31 : String → Except HexPanic (FixedBytes 31) := parseArray 31 "hex string"

/-! ## What is read -/

/-- The pair at an offset is read when it is cut at character boundaries and spells a byte. -/
theorem hexByteAt_eq_ok_iff {value : String} {front rest : List UInt8} {a b byte : UInt8} :
    hexByteAt value (front ++ a :: b :: rest) front.length = .ok byte ↔
      isCharBoundary (front ++ a :: b :: rest) front.length ∧
        isCharBoundary (front ++ a :: b :: rest) (front.length + 2) ∧
        Spells (charOfByte a) (charOfByte b) byte := by
  rw [hexByteAt, strSlice_append, ← u8FromStrRadix16_pair, ← and_assoc]
  split
  · next h =>
    split at h
    · cases h
    · next hcut => simp [hcut]
  · next digits h =>
    split at h
    · next hcut =>
      obtain rfl := Option.some.inj h
      cases hread : u8FromStrRadix16 [a, b] with
      | none => simp
      | some v => simp [hcut]
    · cases h

/-- The loop over the offsets of some pairs in the middle, by induction on the pairs that are
left. A pair that spells a byte starts at a boundary, so only the end of the last one is open. -/
theorem mapM_hexByteAt (value : String) {n : Nat} {front pairs back : List UInt8}
    (even : pairs.length = 2 * n) (bytes : List UInt8) :
    (List.range' front.length n 2).mapM (hexByteAt value (front ++ (pairs ++ back))) = .ok bytes ↔
      (∃ spelled, pairs.map charOfByte = joined spelled ∧ SpellsAll spelled bytes) ∧
        (n ≠ 0 → isCharBoundary (front ++ (pairs ++ back)) (front.length + 2 * n)) := by
  rw [mapM_eq_ok_iff]
  induction n generalizing front pairs bytes with
  | zero =>
    obtain rfl := List.length_eq_zero_iff.mp even
    rw [List.range'_zero, List.forall₂_nil_left_iff]
    constructor
    · rintro rfl
      exact ⟨⟨[], rfl, .nil⟩, fun h => absurd rfl h⟩
    · rintro ⟨⟨spelled, hchars, hspelled⟩, -⟩
      cases hspelled with
      | nil => rfl
      | cons _ _ => cases hchars
  | succ n ih =>
    obtain ⟨a, b, tail, rfl⟩ : ∃ a b tail, pairs = a :: b :: tail := by
      match pairs, even with
      | a :: b :: tail, _ => exact ⟨a, b, tail, rfl⟩
    have htail := fun bytes => @ih (front ++ [a, b]) tail (by simp at even; omega) bytes
    have hend : front.length + 2 + 2 * n = front.length + 2 * (n + 1) := by omega
    rw [List.length_append, List.append_assoc] at htail
    change ∀ bytes, List.Forall₂ _ (List.range' (front.length + 2) n 2) bytes ↔
      _ ∧ (_ → isCharBoundary _ (front.length + 2 + 2 * n) = true) at htail
    rw [hend] at htail
    rw [List.range'_succ, List.forall₂_cons_left_iff]
    constructor
    · rintro ⟨byte, more, hbyte, hmore, rfl⟩
      obtain ⟨hstart, hstop, hspells⟩ := hexByteAt_eq_ok_iff.mp hbyte
      obtain ⟨⟨spelled, hchars, hspelled⟩, hlast⟩ := (htail more).mp hmore
      refine ⟨⟨(charOfByte a, charOfByte b) :: spelled, ?_, .cons hspells hspelled⟩, fun _ => ?_⟩
      · rw [List.map_cons, List.map_cons, hchars]
        rfl
      · by_cases hn : n = 0
        · subst hn
          exact hstop
        · exact hlast hn
    · rintro ⟨⟨spelled, hchars, hspelled⟩, hlast⟩
      cases hspelled with
      | nil => cases hchars
      | @cons d byte spelled more hspells hspelled =>
        rw [joined_cons] at hchars
        obtain ⟨ha, hrest⟩ := List.cons.inj hchars
        obtain ⟨hb, hrest⟩ := List.cons.inj hrest
        rw [← ha, ← hb] at hspells
        refine ⟨byte, more, hexByteAt_eq_ok_iff.mpr ⟨?_, ?_, hspells⟩,
          (htail more).mpr ⟨⟨spelled, hrest, hspelled⟩, fun _ => hlast n.succ_ne_zero⟩, rfl⟩
        · exact isCharBoundary_append (lt_of_charOfByte hspells.lt.1)
        · cases tail with
          | nil =>
            obtain rfl : n = 0 := by simp at even; omega
            exact hlast one_ne_zero
          | cons c tail =>
            have hc : c < 0x80 := by
              refine lt_of_charOfByte (SpellsAll.lt hspelled _ ?_)
              rw [← hrest]
              exact List.mem_cons_self
            have hboundary := @isCharBoundary_append (front ++ [a, b]) (tail ++ back) c hc
            rw [List.append_assoc, List.length_append] at hboundary
            exact hboundary

/-- The digits, read to their end. -/
theorem mapM_hexByteAt_all (value : String) {hex : List UInt8} (even : hex.length % 2 = 0)
    (bytes : List UInt8) :
    (List.range' 0 (hex.length / 2) 2).mapM (hexByteAt value hex) = .ok bytes ↔
      ∃ spelled, hex.map charOfByte = joined spelled ∧ SpellsAll spelled bytes := by
  have hloop := @mapM_hexByteAt value (hex.length / 2) [] hex [] (by omega) bytes
  rw [List.append_nil, List.nil_append] at hloop
  refine hloop.trans (and_iff_left fun _ => ?_)
  have hend : ([] : List UInt8).length + 2 * (hex.length / 2) = hex.length := by
    rw [List.length_nil]
    omega
  rw [hend]
  exact isCharBoundary_length hex

/-- Text that spells bytes is ASCII. -/
theorem utf8_eq_iff_of_spelled {value : String} {hex : List UInt8} {spelled : List (Char × Char)}
    {bytes : List UInt8} (chars : hex.map charOfByte = joined spelled)
    (spells : SpellsAll spelled bytes) :
    utf8 value = ascii "0x" ++ hex ↔ value.toList = '0' :: 'x' :: joined spelled := by
  have hsmall : ∀ b ∈ ascii "0x" ++ hex, b < 0x80 := by
    refine List.forall_mem_append.mpr ⟨by decide +kernel, ?_⟩
    intro b hb
    refine lt_of_charOfByte (spells.lt _ ?_)
    rw [← chars]
    exact List.mem_map_of_mem hb
  rw [utf8_eq_iff hsmall, List.map_append, chars]
  exact Iff.rfl

/-- A field is read exactly when it is `0x` and pairs of characters that each spell a byte. -/
theorem parseHex_eq_ok_iff {value : String} {bytes : List UInt8} :
    parseHex value = .ok bytes ↔
      ∃ spelled, value.toList = '0' :: 'x' :: joined spelled ∧ SpellsAll spelled bytes := by
  constructor
  · intro h
    rw [parseHex] at h
    split at h
    · cases h
    · next hex hhex =>
      rw [ite_error_eq_ok_iff, ne_eq, not_not] at h
      obtain ⟨spelled, hchars, hspelled⟩ := (mapM_hexByteAt_all value h.1 bytes).mp h.2
      exact ⟨spelled, (utf8_eq_iff_of_spelled hchars hspelled).mp
        (stripPrefix_eq_some_iff.mp hhex), hspelled⟩
  · rintro ⟨spelled, htext, hspelled⟩
    have hchars : ((joined spelled).map fun c => UInt8.ofNat c.toNat).map charOfByte =
        joined spelled := by
      rw [List.map_map]
      conv_rhs => rw [← List.map_id (joined spelled)]
      exact List.map_congr_left fun c hc => charOfByte_ofNat (hspelled.lt c hc)
    have heven : ((joined spelled).map fun c => UInt8.ofNat c.toNat).length % 2 = 0 := by
      rw [List.length_map, length_joined]
      omega
    rw [parseHex, stripPrefix_eq_some_iff.mpr ((utf8_eq_iff_of_spelled hchars hspelled).mpr htext)]
    simp only
    rw [if_neg (not_not.mpr heven), mapM_hexByteAt_all value heven]
    exact ⟨spelled, hchars, hspelled⟩

/-! ## What is refused -/

/-- Everything before the pair spells bytes. -/
structure StopsAt (hex front : List UInt8) (a b : UInt8) : Prop where
  split : ∃ rest, hex = front ++ a :: b :: rest
  spelled : ∃ spelled bytes, front.map charOfByte = joined spelled ∧ SpellsAll spelled bytes
  boundary : isCharBoundary hex front.length = true

/-- Why a field is refused, and with which panic. -/
inductive Malformed (value : String) : HexPanic → Prop where
  | missingPrefix (text : ∀ hex, utf8 value ≠ ascii "0x" ++ hex) :
    Malformed value (.missingPrefix value)
  | oddLength {hex : List UInt8} (text : utf8 value = ascii "0x" ++ hex)
    (odd : hex.length % 2 ≠ 0) : Malformed value (.oddLength value)
  | charBoundary {hex front : List UInt8} {a b : UInt8} (text : utf8 value = ascii "0x" ++ hex)
    (even : hex.length % 2 = 0) (stops : StopsAt hex front a b)
    (inside : isCharBoundary hex (front.length + 2) = false) :
    Malformed value (.charBoundary front.length value)
  | invalidByte {hex front : List UInt8} {a b : UInt8} (text : utf8 value = ascii "0x" ++ hex)
    (even : hex.length % 2 = 0) (stops : StopsAt hex front a b)
    (boundary : isCharBoundary hex (front.length + 2) = true)
    (unspelled : ∀ byte, ¬ Spells (charOfByte a) (charOfByte b) byte) :
    Malformed value (.invalidByte front.length value)

/-- The panics of one pair that starts at a boundary. -/
theorem hexByteAt_eq_error_iff {value : String} {front rest : List UInt8} {a b : UInt8}
    (start : isCharBoundary (front ++ a :: b :: rest) front.length = true) {p : HexPanic} :
    hexByteAt value (front ++ a :: b :: rest) front.length = .error p ↔
      isCharBoundary (front ++ a :: b :: rest) (front.length + 2) = false ∧
          p = .charBoundary front.length value ∨
        isCharBoundary (front ++ a :: b :: rest) (front.length + 2) = true ∧
          (∀ byte, ¬ Spells (charOfByte a) (charOfByte b) byte) ∧
          p = .invalidByte front.length value := by
  simp only [← u8FromStrRadix16_pair]
  rw [hexByteAt, strSlice_append]
  cases hstop : isCharBoundary (front ++ a :: b :: rest) (front.length + 2) with
  | false => simp [start, eq_comm]
  | true =>
    cases hread : u8FromStrRadix16 [a, b] with
    | none => simp [start, hread, eq_comm]
    | some byte => simp [start, hread]

/-- Reading stops at the first pair that cannot be read. -/
theorem mapM_hexByteAt_eq_error_iff (value : String) {hex : List UInt8}
    (even : hex.length % 2 = 0) (p : HexPanic) :
    (List.range' 0 (hex.length / 2) 2).mapM (hexByteAt value hex) = .error p ↔
      ∃ front a b, StopsAt hex front a b ∧ hexByteAt value hex front.length = .error p := by
  rw [mapM_eq_error_iff]
  constructor
  · rintro ⟨offsets, index, more, bytes, hsplit, hdone, herror⟩
    obtain ⟨k, hk, rfl, hindex⟩ := List.range'_eq_append_iff.mp hsplit
    obtain ⟨rfl, hcount, -⟩ := List.range'_eq_cons_iff.mp hindex.symm
    have hlength : (hex.take (2 * k)).length = 2 * k := by
      rw [List.length_take]
      omega
    obtain ⟨a, b, rest, hrest⟩ : ∃ a b rest, hex.drop (2 * k) = a :: b :: rest := by
      have hleft : (hex.drop (2 * k)).length = hex.length - 2 * k := List.length_drop
      match hdrop : hex.drop (2 * k), hleft with
      | a :: b :: rest, _ => exact ⟨a, b, rest, rfl⟩
      | [_], hleft => simp at hleft; omega
      | [], hleft => simp at hleft; omega
    have hhex : hex = hex.take (2 * k) ++ a :: b :: rest := by
      rw [← hrest, List.take_append_drop]
    have hread := (@mapM_hexByteAt value k [] (hex.take (2 * k)) (a :: b :: rest) hlength
      bytes).mp ((mapM_eq_ok_iff _ _ _).mpr (by rw [List.nil_append, ← hhex]; exact hdone))
    rw [List.nil_append, ← hhex, List.length_nil, Nat.zero_add] at hread
    obtain ⟨⟨spelled, hchars, hspelled⟩, hboundary⟩ := hread
    refine ⟨hex.take (2 * k), a, b, ⟨⟨rest, hhex⟩, ⟨spelled, bytes, hchars, hspelled⟩, ?_⟩, ?_⟩
    · rw [hlength]
      by_cases hk0 : k = 0
      · subst hk0
        rfl
      · exact hboundary hk0
    · rw [hlength]
      rw [Nat.zero_add, Nat.mul_comm] at herror
      exact herror
  · rintro ⟨front, a, b, ⟨⟨rest, rfl⟩, ⟨spelled, bytes, hchars, hspelled⟩, hboundary⟩, herror⟩
    have hlength : front.length = 2 * spelled.length := by
      rw [← length_joined, ← hchars, List.length_map]
    simp only [List.length_append, List.length_cons] at even ⊢
    refine ⟨List.range' 0 spelled.length 2, front.length,
      List.range' (front.length + 2) ((front.length + (rest.length + 1 + 1)) / 2 -
        spelled.length - 1) 2, bytes, ?_, ?_, herror⟩
    · apply List.range'_eq_append_iff.mpr
      refine ⟨spelled.length, by omega, rfl, ?_⟩
      rw [eq_comm, List.range'_eq_cons_iff]
      exact ⟨by omega, by omega, by congr 1⟩
    · rw [← mapM_eq_ok_iff]
      refine (@mapM_hexByteAt value spelled.length [] front (a :: b :: rest) hlength
        bytes).mpr ⟨⟨spelled, hchars, hspelled⟩, fun _ => ?_⟩
      rw [List.length_nil, Nat.zero_add, ← hlength]
      exact hboundary

/-- Reading a field, exactly: `0x` and pairs that each spell a byte are read, digits of either
case and a plus sign in front of a single digit included; everything else panics with the first
rule it breaks, at the first pair that breaks it. -/
theorem parse_hex_exact (value : String) :
    (∀ bytes, parseHex value = .ok bytes ↔
      ∃ spelled, value.toList = '0' :: 'x' :: joined spelled ∧ SpellsAll spelled bytes) ∧
    ∀ p, parseHex value = .error p ↔ Malformed value p := by
  refine ⟨fun bytes => parseHex_eq_ok_iff, fun p => ?_⟩
  rw [parseHex]
  cases hstrip : stripPrefix (ascii "0x") (utf8 value) with
  | none =>
    have htext : ∀ hex, utf8 value ≠ ascii "0x" ++ hex := by
      intro hex hhex
      rw [stripPrefix_eq_some_iff.mpr hhex] at hstrip
      cases hstrip
    constructor
    · intro h
      obtain rfl := Except.error.inj h
      exact .missingPrefix htext
    · rintro (_ | ⟨text, _⟩ | ⟨text, _, _, _⟩ | ⟨text, _, _, _, _⟩)
      · rfl
      all_goals exact absurd text (htext _)
  | some hex =>
    have htext := stripPrefix_eq_some_iff.mp hstrip
    have hunique : ∀ {hex'}, utf8 value = ascii "0x" ++ hex' → hex' = hex := fun h =>
      List.append_cancel_left (h.symm.trans htext)
    by_cases heven : hex.length % 2 = 0
    · simp only [heven, ne_eq, not_true_eq_false, if_false]
      rw [mapM_hexByteAt_eq_error_iff value heven]
      constructor
      · rintro ⟨front, a, b, hstops, herror⟩
        obtain ⟨rest, rfl⟩ := hstops.split
        rcases (hexByteAt_eq_error_iff hstops.boundary).mp herror with
          ⟨hinside, rfl⟩ | ⟨hboundary, hunspelled, rfl⟩
        · exact .charBoundary htext heven hstops hinside
        · exact .invalidByte htext heven hstops hboundary hunspelled
      · rintro (⟨text⟩ | ⟨text, odd⟩ | ⟨text, _, stops, inside⟩ |
          ⟨text, _, stops, boundary, unspelled⟩)
        · exact absurd htext (text hex)
        · rw [hunique text] at odd
          exact absurd heven odd
        · obtain rfl := hunique text
          obtain ⟨rest, rfl⟩ := stops.split
          exact ⟨_, _, _, stops, (hexByteAt_eq_error_iff stops.boundary).mpr
            (Or.inl ⟨inside, rfl⟩)⟩
        · obtain rfl := hunique text
          obtain ⟨rest, rfl⟩ := stops.split
          exact ⟨_, _, _, stops, (hexByteAt_eq_error_iff stops.boundary).mpr
            (Or.inr ⟨boundary, unspelled, rfl⟩)⟩
    · simp only [heven, ne_eq, not_false_eq_true, if_true]
      constructor
      · intro h
        obtain rfl := Except.error.inj h
        exact .oddLength htext heven
      · rintro (⟨text⟩ | ⟨text, odd⟩ | ⟨text, even, _, _⟩ | ⟨text, even, _, _, _⟩)
        · exact absurd htext (text hex)
        · rfl
        all_goals
          rw [hunique text] at even
          exact absurd even heven

/-- A sign is taken for a digit. -/
example : parseHex "0x0aFF+7" = .ok [10, 255, 7] := by decide +kernel

example : parseHex "0x0a-7" = .error (.invalidByte 2 "0x0a-7") := by decide +kernel

/-! ## Writing fields -/

def toHex (bytes : List UInt8) : String := String.ofList ('0' :: 'x' :: joined (bytes.map hexPair))

@[simp] theorem parseHex_toHex (bytes : List UInt8) : parseHex (toHex bytes) = .ok bytes := by
  rw [parseHex_eq_ok_iff]
  exact ⟨bytes.map hexPair, by simp [toHex], spellsAll_hexPair bytes⟩

theorem parseArray_eq_ok_iff {n : Nat} {noun value : String} {array : FixedBytes n} :
    parseArray n noun value = .ok array ↔ parseHex value = .ok array.toList := by
  obtain ⟨bytes, hlength⟩ := array
  refine (bind_eq_ok_iff _ _ _).trans ?_
  constructor
  · rintro ⟨bytes', hread, h⟩
    split at h
    · next hlength' =>
      obtain rfl : bytes' = bytes := congrArg Subtype.val (Except.ok.inj h)
      exact hread
    · cases h
  · intro hread
    exact ⟨bytes, hread, dif_pos hlength⟩

@[simp] theorem parseArray_toHex {n : Nat} (noun : String) (array : FixedBytes n) :
    parseArray n noun (toHex array.toList) = .ok array :=
  parseArray_eq_ok_iff.mpr (parseHex_toHex array.toList)

end ShellFixtures
