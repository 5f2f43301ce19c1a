import Mathlib.Data.List.Nodup
import Mathlib.Data.List.Perm.Basic

/-!
# Lists with one entry for each key

Entries carry their key. A new entry takes the place of the first one with its
key, and goes to the end when there is none. Filed one after the other into the
empty list, entries keep distinct keys, and looking up a key finds the entry
that was filed last under it.
-/

universe u v

namespace KeyedList
variable {α : Type u} {κ : Type v} [DecidableEq κ] (key : α → κ)

/-- The first entry with a key. -/
def lookup (k : κ) (l : List α) : Option α := l.find? fun a => key a = k

/-- Put `a` where the first entry with its key stands, and hand that entry out. -/
def replace (a : α) : List α → Option (α × List α)
  | [] => none
  | b :: rest =>
    if key b = key a then some (b, a :: rest)
    else (replace a rest).map fun replaced => (replaced.1, b :: replaced.2)

/-- Replace, or append where nothing is replaced. -/
def file (a : α) (l : List α) : Option α × List α :=
  match replace key a l with
  | some (displaced, l) => (some displaced, l)
  | none => (none, l ++ [a])

/-- The entry of a history that was filed last under a key. -/
def latest (k : κ) (history : List α) : Option α := lookup key k history.reverse

variable {key} {a : α} {l : List α}

/-! ## One entry -/

theorem lookup_cons (k : κ) (b : α) (rest : List α) :
    lookup key k (b :: rest) = if key b = k then some b else lookup key k rest := by
  rw [lookup, List.find?_cons]
  by_cases hb : key b = k
  · simp [hb]
  · simp [hb, lookup]

theorem lookup_append (k : κ) (l l' : List α) :
    lookup key k (l ++ l') = (lookup key k l).or (lookup key k l') :=
  List.find?_append

/-- Replacing goes through exactly where there is an entry, and hands out that entry. -/
theorem replace_fst (a : α) (l : List α) :
    (replace key a l).map Prod.fst = lookup key (key a) l := by
  induction l with
  | nil => rfl
  | cons b rest ih =>
    rw [replace, lookup_cons]
    by_cases hb : key b = key a
    · rw [if_pos hb, if_pos hb]
      rfl
    · rw [if_neg hb, if_neg hb, ← ih, Option.map_map]
      rfl

/-- Replacing in a list with a head replaces the head or goes on behind it. -/
theorem replace_cons_eq_some {b displaced : α} {l' : List α}
    (h : replace key a (b :: l) = some (displaced, l')) :
    (key b = key a ∧ displaced = b ∧ l' = a :: l) ∨
      (key b ≠ key a ∧ ∃ rest, replace key a l = some (displaced, rest) ∧ l' = b :: rest) := by
  rw [replace] at h
  by_cases hb : key b = key a
  · rw [if_pos hb] at h
    obtain ⟨rfl, rfl⟩ := Prod.mk.inj (Option.some.inj h)
    exact Or.inl ⟨hb, rfl, rfl⟩
  · rw [if_neg hb] at h
    obtain ⟨⟨old, rest⟩, hrest, hpair⟩ := Option.map_eq_some_iff.mp h
    obtain ⟨rfl, rfl⟩ := Prod.mk.inj hpair
    exact Or.inr ⟨hb, rest, hrest, rfl⟩

theorem keys_replace {displaced : α} {l' : List α} (h : replace key a l = some (displaced, l')) :
    l'.map key = l.map key := by
  induction l generalizing l' with
  | nil => cases h
  | cons b rest ih =>
    rcases replace_cons_eq_some h with ⟨hb, rfl, rfl⟩ | ⟨_, rest', hrest, rfl⟩
    · rw [List.map_cons, List.map_cons, hb]
    · rw [List.map_cons, List.map_cons, ih hrest]

theorem lookup_replace {displaced : α} {l' : List α} (h : replace key a l = some (displaced, l'))
    (k : κ) : lookup key k l' = if key a = k then some a else lookup key k l := by
  induction l generalizing l' with
  | nil => cases h
  | cons b rest ih =>
    rcases replace_cons_eq_some h with ⟨hb, rfl, rfl⟩ | ⟨hb, rest', hrest, rfl⟩
    · rw [lookup_cons, lookup_cons, hb]
      by_cases ha : key a = k
      · rw [if_pos ha, if_pos ha]
      · rw [if_neg ha, if_neg ha, if_neg ha]
    · rw [lookup_cons, lookup_cons, ih hrest]
      by_cases ha : key a = k
      · have hbk : ¬ key b = k := fun h => hb (h.trans ha.symm)
        rw [if_neg hbk, if_pos ha, if_pos ha]
      · rw [if_neg ha, if_neg ha]

theorem perm_of_replace {displaced : α} {l' : List α}
    (h : replace key a l = some (displaced, l')) : (displaced :: l').Perm (a :: l) := by
  induction l generalizing l' with
  | nil => cases h
  | cons b rest ih =>
    rcases replace_cons_eq_some h with ⟨_, rfl, rfl⟩ | ⟨_, rest', hrest, rfl⟩
    · exact List.Perm.swap a displaced rest
    · apply (List.Perm.swap b displaced rest').trans
      exact ((ih hrest).cons b).trans (List.Perm.swap a b rest)

theorem file_fst (a : α) (l : List α) : (file key a l).1 = lookup key (key a) l := by
  rw [← replace_fst, file]
  cases replace key a l <;> rfl

theorem lookup_file (a : α) (l : List α) (k : κ) :
    lookup key k (file key a l).2 = if key a = k then some a else lookup key k l := by
  cases hreplaced : replace key a l with
  | some replaced =>
    rw [file, hreplaced]
    exact lookup_replace hreplaced k
  | none =>
    have habsent : lookup key (key a) l = none := by
      rw [← replace_fst, hreplaced]
      rfl
    rw [file, hreplaced, lookup_append, lookup_cons]
    by_cases ha : key a = k
    · rw [if_pos ha, if_pos ha, ← ha, habsent]
      rfl
    · rw [if_neg ha, if_neg ha]
      exact Option.or_none

/-- Nothing is lost: what is handed out and what is kept are the old entries and the new one. -/
theorem file_perm (a : α) (l : List α) :
    ((file key a l).1.toList ++ (file key a l).2).Perm (a :: l) := by
  cases hreplaced : replace key a l with
  | some replaced =>
    rw [file, hreplaced]
    exact perm_of_replace hreplaced
  | none =>
    rw [file, hreplaced]
    exact List.perm_append_singleton a l

theorem nodup_file (distinct : (l.map key).Nodup) (a : α) :
    ((file key a l).2.map key).Nodup := by
  cases hreplaced : replace key a l with
  | some replaced =>
    rw [file, hreplaced]
    exact (keys_replace hreplaced).symm ▸ distinct
  | none =>
    have habsent : lookup key (key a) l = none := by
      rw [← replace_fst, hreplaced]
      rfl
    rw [file, hreplaced, List.map_append, List.map_singleton]
    apply List.Nodup.append distinct (List.nodup_singleton _)
    rw [List.disjoint_singleton]
    intro hmem
    obtain ⟨b, hb, hkey⟩ := List.mem_map.mp hmem
    have hother := List.find?_eq_none.mp habsent b hb
    exact hother (decide_eq_true hkey)

/-! ## Histories -/

theorem latest_append (k : κ) (older newer : List α) :
    latest key k (older ++ newer) = (latest key k newer).or (latest key k older) := by
  rw [latest, List.reverse_append, lookup_append]
  rfl

theorem latest_concat (k : κ) (older : List α) (a : α) :
    latest key k (older ++ [a]) = if key a = k then some a else latest key k older := by
  rw [latest_append, latest, List.reverse_singleton, lookup_cons]
  by_cases ha : key a = k
  · rw [if_pos ha, if_pos ha]
    rfl
  · rw [if_neg ha, if_neg ha]
    rfl

end KeyedList
