import Mathlib.Data.List.Basic

/-!
# Variable-size elements behind an offset table

The layout places the elements back to back after a table of their start
offsets. `startOffsets` is the table an encoder writes, `cuts` is how a
decoder takes the section apart: every element ends where the next one starts
and the last one ends with the section. On offsets that increase and stay
inside the section the two determine each other, with no gap and no overlap.
-/

universe u

namespace OffsetTable
variable {α : Type u}

def startOffsets (base : Nat) : List (List α) → List Nat
  | [] => []
  | part :: rest => base :: startOffsets (base + part.length) rest

/-- Where the element in front of these offsets ends. -/
def nextStart (bytes : List α) (rest : List Nat) : Nat := rest[0]?.getD bytes.length

def cuts (bytes : List α) : List Nat → List (List α)
  | [] => []
  | start :: rest => ((bytes.take (nextStart bytes rest)).drop start) :: cuts bytes rest

/-- The offsets increase weakly and none points past the end. -/
def Monotonic (bytes : List α) : List Nat → Prop
  | [] => True
  | start :: rest =>
    start ≤ nextStart bytes rest ∧ nextStart bytes rest ≤ bytes.length ∧ Monotonic bytes rest

@[simp] theorem length_startOffsets (base : Nat) (parts : List (List α)) :
    (startOffsets base parts).length = parts.length := by
  induction parts generalizing base with
  | nil => rfl
  | cons part rest ih => simp [startOffsets, ih]

@[simp] theorem length_cuts (bytes : List α) (offsets : List Nat) :
    (cuts bytes offsets).length = offsets.length := by
  induction offsets with
  | nil => rfl
  | cons start rest ih => simp [cuts, ih]

/-- A last part starts behind the others, whatever it holds. -/
theorem startOffsets_concat (base : Nat) (parts : List (List α)) (part : List α) :
    startOffsets base (parts ++ [part]) =
      startOffsets base parts ++ [base + parts.flatten.length] := by
  induction parts generalizing base with
  | nil => rfl
  | cons first rest ih =>
    simp only [List.cons_append, startOffsets, ih, List.flatten_cons, List.length_append,
      Nat.add_assoc]

theorem getElem?_cuts (bytes : List α) (offsets : List Nat) (i : Nat) :
    (cuts bytes offsets)[i]? = offsets[i]?.map fun start =>
      (bytes.take (offsets[i + 1]?.getD bytes.length)).drop start := by
  induction offsets generalizing i with
  | nil => rfl
  | cons start rest ih =>
    cases i with
    | zero => rfl
    | succ i => simpa [cuts] using ih i

/-- An element ends inside the section when the offsets point into it. -/
theorem getD_offset_le {bytes : List α} {offsets : List Nat}
    (inside : ∀ o ∈ offsets, o ≤ bytes.length) (i : Nat) :
    offsets[i]?.getD bytes.length ≤ bytes.length := by
  cases hnext : offsets[i]? with
  | none => exact Nat.le_refl _
  | some next => exact inside next (List.mem_of_getElem? hnext)

/-- Monotonicity read index by index, as a decoder's loop checks it. -/
theorem monotonic_iff (bytes : List α) (offsets : List Nat)
    (inside : ∀ o ∈ offsets, o ≤ bytes.length) :
    Monotonic bytes offsets ↔
      ∀ i start, offsets[i]? = some start → start ≤ offsets[i + 1]?.getD bytes.length := by
  induction offsets with
  | nil => simp [Monotonic]
  | cons start rest ih =>
    have hinside : ∀ o ∈ rest, o ≤ bytes.length :=
      fun o ho => inside o (List.mem_cons_of_mem start ho)
    have hnext : nextStart bytes rest ≤ bytes.length := getD_offset_le hinside 0
    have hrest := ih hinside
    constructor
    · rintro ⟨hstart, _, hmono⟩ i s hs
      cases i with
      | zero =>
        obtain rfl : start = s := by simpa using hs
        exact hstart
      | succ i => exact hrest.mp hmono i s (by simpa using hs)
    · intro h
      refine ⟨h 0 start rfl, hnext, hrest.mpr ?_⟩
      intro i s hs
      exact h (i + 1) s (by simpa using hs)

theorem startOffsets_bounds {base o : Nat} {parts : List (List α)}
    (h : o ∈ startOffsets base parts) : base ≤ o ∧ o ≤ base + parts.flatten.length := by
  induction parts generalizing base with
  | nil => cases h
  | cons part rest ih =>
    simp only [List.flatten_cons, List.length_append]
    rcases List.mem_cons.mp h with rfl | h
    · omega
    · have hrest := ih h
      omega

theorem nextStart_startOffsets {bytes : List α} {base : Nat} {parts : List (List α)}
    (inside : base ≤ bytes.length) (h : bytes.drop base = parts.flatten) :
    nextStart bytes (startOffsets base parts) = base := by
  cases parts with
  | nil =>
    have hlen := congrArg List.length h
    simp only [List.length_drop, List.flatten_nil, List.length_nil] at hlen
    change bytes.length = base
    omega
  | cons part rest => rfl

/-- Encoder to decoder: the written offsets cut the section into the elements. -/
theorem cuts_startOffsets {bytes : List α} {base : Nat} {parts : List (List α)}
    (inside : base ≤ bytes.length) (h : bytes.drop base = parts.flatten) :
    cuts bytes (startOffsets base parts) = parts ∧
      Monotonic bytes (startOffsets base parts) := by
  induction parts generalizing base with
  | nil => exact ⟨rfl, trivial⟩
  | cons part rest ih =>
    have hlen := congrArg List.length h
    simp only [List.length_drop, List.flatten_cons, List.length_append] at hlen
    have hinside : base + part.length ≤ bytes.length := by omega
    have htail : bytes.drop (base + part.length) = rest.flatten := by
      rw [← List.drop_drop, h, List.flatten_cons, List.drop_left]
    obtain ⟨hcuts, hmono⟩ := ih hinside htail
    have hnext := nextStart_startOffsets hinside htail
    have hpart : (bytes.take (base + part.length)).drop base = part := by
      rw [List.drop_take, Nat.add_sub_cancel_left, h, List.flatten_cons, List.take_left]
    simp only [startOffsets, cuts, Monotonic, hnext, hcuts, hpart]
    exact ⟨trivial, by omega, hinside, hmono⟩

/-- Decoder to encoder: the elements fill the section from the first offset on,
and their lengths give the offsets back. -/
theorem startOffsets_cuts {bytes : List α} {start : Nat} {rest : List Nat}
    (mono : Monotonic bytes (start :: rest)) :
    startOffsets start (cuts bytes (start :: rest)) = start :: rest ∧
      (cuts bytes (start :: rest)).flatten = bytes.drop start := by
  induction rest generalizing start with
  | nil => simp [cuts, startOffsets, nextStart]
  | cons next rest ih =>
    obtain ⟨hstart, hnext, hmono⟩ := mono
    obtain ⟨hoffsets, hflat⟩ := ih hmono
    change start ≤ next at hstart
    change next ≤ bytes.length at hnext
    have hlen : ((bytes.take next).drop start).length = next - start := by
      simp only [List.length_drop, List.length_take]
      omega
    rw [cuts, show nextStart bytes (next :: rest) = next from rfl, startOffsets, hlen,
      show start + (next - start) = next by omega, hoffsets, List.flatten_cons, hflat]
    refine ⟨rfl, ?_⟩
    have hsplit := List.take_append_drop (next - start) (bytes.drop start)
    rw [List.drop_drop, show start + (next - start) = next by omega, ← List.drop_take] at hsplit
    exact hsplit

end OffsetTable
