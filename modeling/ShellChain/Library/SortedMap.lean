import Mathlib.Data.List.Pairwise
import Mathlib.Order.Lattice

/-!
# Maps kept as sorted lists

A finite map whose entries are stored in increasing key order, so that
iteration order is part of the value. Neighbour queries return the closest
entry strictly below or above a key.
-/

universe u v

@[ext] structure SortedMap (κ : Type u) (ν : Type v) [LinearOrder κ] where
  entries : List (κ × ν)
  sorted : entries.Pairwise fun a b => a.1 < b.1

namespace SortedMap
variable {κ : Type u} {ν : Type v} [LinearOrder κ]

/-! ## Entry lists -/

/-- Insert in key order; an entry with the same key is replaced. -/
def insertEntry (k : κ) (v : ν) : List (κ × ν) → List (κ × ν)
  | [] => [(k, v)]
  | (a, w) :: rest =>
    if k < a then (k, v) :: (a, w) :: rest
    else if k = a then (k, v) :: rest
    else (a, w) :: insertEntry k v rest

def find (k : κ) : List (κ × ν) → Option ν
  | [] => none
  | (a, w) :: rest => if k = a then some w else find k rest

theorem mem_insertEntry {k : κ} {v : ν} {l : List (κ × ν)} {e : κ × ν}
    (h : e ∈ insertEntry k v l) : e = (k, v) ∨ e ∈ l := by
  induction l with
  | nil => exact Or.inl (List.mem_singleton.mp h)
  | cons head rest ih =>
    obtain ⟨a, w⟩ := head
    simp only [insertEntry] at h
    split at h
    · exact List.mem_cons.mp h
    · split at h
      · rcases List.mem_cons.mp h with he | he
        · exact Or.inl he
        · exact Or.inr (List.mem_cons_of_mem _ he)
      · rcases List.mem_cons.mp h with he | he
        · exact Or.inr (he ▸ List.mem_cons_self)
        · rcases ih he with he | he
          · exact Or.inl he
          · exact Or.inr (List.mem_cons_of_mem _ he)

theorem sorted_insertEntry (k : κ) (v : ν) {l : List (κ × ν)}
    (h : l.Pairwise fun a b => a.1 < b.1) :
    (insertEntry k v l).Pairwise fun a b => a.1 < b.1 := by
  induction l with
  | nil => exact List.pairwise_singleton _ _
  | cons head rest ih =>
    obtain ⟨a, w⟩ := head
    obtain ⟨hhead, hrest⟩ := List.pairwise_cons.mp h
    simp only [insertEntry]
    split
    · rename_i hlt
      refine List.pairwise_cons.mpr ⟨?_, h⟩
      intro e he
      rcases List.mem_cons.mp he with rfl | he
      · exact hlt
      · exact lt_trans hlt (hhead e he)
    · rename_i hge
      split
      · rename_i heq
        subst heq
        exact List.pairwise_cons.mpr ⟨hhead, hrest⟩
      · rename_i hne
        refine List.pairwise_cons.mpr ⟨?_, ih hrest⟩
        intro e he
        rcases mem_insertEntry he with rfl | he
        · exact lt_of_le_of_ne (not_lt.mp hge) (Ne.symm hne)
        · exact hhead e he

theorem find_insertEntry (k x : κ) (v : ν) (l : List (κ × ν)) :
    find x (insertEntry k v l) = if x = k then some v else find x l := by
  induction l with
  | nil => rfl
  | cons head rest ih =>
    obtain ⟨a, w⟩ := head
    simp only [insertEntry]
    split
    · rfl
    · split
      · rename_i heq
        subst heq
        simp only [find]
        split <;> rfl
      · rename_i hne
        simp only [find, ih]
        by_cases hx : x = a
        · have hxk : ¬ x = k := fun h => hne (h.symm.trans hx)
          rw [if_pos hx, if_neg hxk, if_pos hx]
        · rw [if_neg hx, if_neg hx]

theorem find_eq_some_iff {l : List (κ × ν)} (sorted : l.Pairwise fun a b => a.1 < b.1)
    (k : κ) (v : ν) : find k l = some v ↔ (k, v) ∈ l := by
  induction l with
  | nil => simp [find]
  | cons head rest ih =>
    obtain ⟨a, w⟩ := head
    obtain ⟨hhead, hrest⟩ := List.pairwise_cons.mp sorted
    simp only [find]
    by_cases hk : k = a
    · subst hk
      rw [if_pos rfl, List.mem_cons]
      constructor
      · intro h
        exact Or.inl (by rw [Option.some.inj h])
      · rintro (h | h)
        · rw [(Prod.mk.inj h).2]
        · exact absurd (hhead _ h) (lt_irrefl k)
    · rw [if_neg hk, ih hrest, List.mem_cons]
      constructor
      · exact Or.inr
      · rintro (h | h)
        · exact absurd (Prod.mk.inj h).1 hk
        · exact h

/-! ## Sequences of writes -/

/-- The value of the last write to a key. -/
def lastWritten {κ : Type u} [DecidableEq κ] (writes : List (κ × ν)) (k : κ) : Option ν :=
  (writes.reverse.find? fun w => w.1 = k).map Prod.snd

theorem lastWritten_append {κ : Type u} [DecidableEq κ] (older newer : List (κ × ν)) (k : κ) :
    lastWritten (older ++ newer) k = (lastWritten newer k).or (lastWritten older k) := by
  rw [lastWritten, List.reverse_append, List.find?_append, Option.map_or]
  rfl

theorem lastWritten_singleton {κ : Type u} [DecidableEq κ] (w : κ × ν) (k : κ) :
    lastWritten [w] k = if w.1 = k then some w.2 else none := by
  by_cases h : w.1 = k
  · simp [lastWritten, h]
  · simp [lastWritten, h]

theorem mem_of_lastWritten {κ : Type u} {_ : DecidableEq κ} {writes : List (κ × ν)} {k : κ} {v : ν}
    (h : lastWritten writes k = some v) : (k, v) ∈ writes := by
  obtain ⟨⟨a, b⟩, hfind, rfl⟩ := Option.map_eq_some_iff.mp h
  have hkey : a = k := of_decide_eq_true (List.find?_some hfind :)
  have hmem := List.mem_reverse.mp (List.mem_of_find?_eq_some hfind)
  rwa [hkey] at hmem

/-! ## Maps -/

def empty : SortedMap κ ν := ⟨[], List.Pairwise.nil⟩

def insert (m : SortedMap κ ν) (k : κ) (v : ν) : SortedMap κ ν :=
  ⟨insertEntry k v m.entries, sorted_insertEntry k v m.sorted⟩

def get? (m : SortedMap κ ν) (k : κ) : Option ν := find k m.entries

/-- Apply a sequence of writes, oldest first. -/
def insertAll (m : SortedMap κ ν) (writes : List (κ × ν)) : SortedMap κ ν :=
  writes.foldl (fun m w => m.insert w.1 w.2) m

/-- The entry with the largest key below `k`. -/
def lastBelow (m : SortedMap κ ν) (k : κ) : Option (κ × ν) :=
  (m.entries.filter fun e => e.1 < k).getLast?

/-- The entry with the smallest key above `k`. -/
def firstAbove (m : SortedMap κ ν) (k : κ) : Option (κ × ν) :=
  (m.entries.filter fun e => k < e.1).head?

@[simp] theorem get?_empty (k : κ) : (empty : SortedMap κ ν).get? k = none := rfl

theorem get?_insert (m : SortedMap κ ν) (k x : κ) (v : ν) :
    (m.insert k v).get? x = if x = k then some v else m.get? x :=
  find_insertEntry k x v m.entries

theorem get?_insert_eq_none_iff (m : SortedMap κ ν) (k x : κ) (v : ν) :
    (m.insert k v).get? x = none ↔ x ≠ k ∧ m.get? x = none := by
  rw [get?_insert]
  by_cases hx : x = k
  · simp [hx]
  · simp [hx]

theorem get?_eq_some_iff (m : SortedMap κ ν) (k : κ) (v : ν) :
    m.get? k = some v ↔ (k, v) ∈ m.entries :=
  find_eq_some_iff m.sorted k v

/-- The last write to a key wins; keys that are not written keep their value. -/
theorem get?_insertAll (m : SortedMap κ ν) (writes : List (κ × ν)) (x : κ) :
    (m.insertAll writes).get? x = (lastWritten writes x).or (m.get? x) := by
  induction writes generalizing m with
  | nil => rfl
  | cons w rest ih =>
    have hrest : (m.insertAll (w :: rest)).get? x =
        (lastWritten rest x).or ((m.insert w.1 w.2).get? x) := ih (m.insert w.1 w.2)
    rw [hrest, ← List.singleton_append, lastWritten_append, get?_insert, lastWritten_singleton]
    by_cases hx : w.1 = x
    · rw [if_pos hx, if_pos hx.symm, Option.or_assoc, Option.some_or]
    · rw [if_neg hx, if_neg (Ne.symm hx), Option.or_none]

theorem insertAll_append (m : SortedMap κ ν) (older newer : List (κ × ν)) :
    m.insertAll (older ++ newer) = (m.insertAll older).insertAll newer :=
  List.foldl_append

theorem mem_insertAll {m : SortedMap κ ν} {writes : List (κ × ν)} {e : κ × ν}
    (h : e ∈ (m.insertAll writes).entries) : e ∈ writes ∨ e ∈ m.entries := by
  obtain ⟨k, v⟩ := e
  rw [← get?_eq_some_iff, get?_insertAll] at h
  cases hw : lastWritten writes k with
  | none =>
    rw [hw, Option.none_or] at h
    exact Or.inr ((m.get?_eq_some_iff k v).mp h)
  | some w =>
    rw [hw, Option.some_or, Option.some.injEq] at h
    subst h
    exact Or.inl (mem_of_lastWritten hw)

theorem lastBelow_spec {m : SortedMap κ ν} {k : κ} {e : κ × ν} (h : m.lastBelow k = some e) :
    e ∈ m.entries ∧ e.1 < k := by
  have hmem := List.mem_of_getLast? h
  obtain ⟨hentry, hlt⟩ := List.mem_filter.mp hmem
  exact ⟨hentry, of_decide_eq_true hlt⟩

theorem firstAbove_spec {m : SortedMap κ ν} {k : κ} {e : κ × ν} (h : m.firstAbove k = some e) :
    e ∈ m.entries ∧ k < e.1 := by
  have hmem := List.mem_of_head? h
  obtain ⟨hentry, hlt⟩ := List.mem_filter.mp hmem
  exact ⟨hentry, of_decide_eq_true hlt⟩

/-- The entries in front of one, the one itself and those behind it. -/
theorem sorted_at {m : SortedMap κ ν} {i : Nat} {e : κ × ν} (h : m.entries[i]? = some e) :
    m.entries = m.entries.take i ++ e :: m.entries.drop (i + 1) ∧
      (∀ e' ∈ m.entries.take i, e'.1 < e.1) ∧ ∀ e' ∈ m.entries.drop (i + 1), e.1 < e'.1 := by
  obtain ⟨hi, rfl⟩ := List.getElem?_eq_some_iff.mp h
  have hsplit : m.entries = m.entries.take i ++ m.entries[i] :: m.entries.drop (i + 1) := by
    rw [← List.drop_eq_getElem_cons hi, List.take_append_drop]
  have hsorted := m.sorted
  rw [hsplit] at hsorted
  obtain ⟨-, hrest, hacross⟩ := List.pairwise_append.mp hsorted
  exact ⟨hsplit, fun e' he' => hacross e' he' _ List.mem_cons_self,
    (List.pairwise_cons.mp hrest).1⟩

theorem lastBelow_at {m : SortedMap κ ν} {i : Nat} {e : κ × ν} (h : m.entries[i]? = some e) :
    m.lastBelow e.1 = (m.entries.take i).getLast? := by
  obtain ⟨hsplit, hfront, hback⟩ := sorted_at h
  rw [lastBelow, hsplit, List.filter_append, List.filter_eq_self.mpr fun e' he' =>
    decide_eq_true (hfront e' he')]
  have hnone : (e :: m.entries.drop (i + 1)).filter (fun e' => e'.1 < e.1) = [] := by
    rw [List.filter_eq_nil_iff]
    intro e' he'
    rw [decide_eq_true_eq]
    rcases List.mem_cons.mp he' with rfl | he'
    · exact lt_irrefl _
    · exact lt_asymm (hback e' he')
  rw [hnone, List.append_nil, ← hsplit]

theorem firstAbove_at {m : SortedMap κ ν} {i : Nat} {e : κ × ν} (h : m.entries[i]? = some e) :
    m.firstAbove e.1 = m.entries[i + 1]? := by
  obtain ⟨hsplit, hfront, hback⟩ := sorted_at h
  have hnone : (m.entries.take i).filter (fun e' => e.1 < e'.1) = [] := by
    rw [List.filter_eq_nil_iff]
    intro e' he'
    rw [decide_eq_true_eq]
    exact lt_asymm (hfront e' he')
  rw [firstAbove, hsplit, List.filter_append, hnone, List.nil_append, List.filter_cons_of_neg
    (by simp), List.filter_eq_self.mpr fun e' he' => decide_eq_true (hback e' he'), ← hsplit,
    List.head?_drop]

/-- The entry whose key is the last one before `k` in an order, if any key is before `k` in it. -/
def Closest (before : κ → κ → Prop) (m : SortedMap κ ν) (k : κ) : Option (κ × ν) → Prop
  | none => ∀ e ∈ m.entries, ¬ before e.1 k
  | some e => e ∈ m.entries ∧ before e.1 k ∧
      ∀ e' ∈ m.entries, before e'.1 k → e' = e ∨ before e'.1 e.1

theorem closest_lastBelow (m : SortedMap κ ν) (k : κ) :
    m.Closest (fun a b => a < b) k (m.lastBelow k) := by
  cases hbelow : m.lastBelow k with
  | none =>
    rw [lastBelow, List.getLast?_eq_none_iff, List.filter_eq_nil_iff] at hbelow
    intro e he hlt
    exact hbelow e he (decide_eq_true hlt)
  | some e =>
    obtain ⟨hmem, hlt⟩ := lastBelow_spec hbelow
    refine ⟨hmem, hlt, ?_⟩
    intro e' he' hlt'
    -- The entries below `k` are sorted, and `e` is the last of them.
    obtain ⟨front, hfront⟩ := List.getLast?_eq_some_iff.mp hbelow
    have hsorted := m.sorted.filter fun e => e.1 < k
    have hentry : e' ∈ m.entries.filter fun e => e.1 < k :=
      List.mem_filter.mpr ⟨he', decide_eq_true hlt'⟩
    rw [hfront] at hsorted hentry
    rcases List.mem_append.mp hentry with hentry | hentry
    · exact Or.inr ((List.pairwise_append.mp hsorted).2.2 e' hentry e List.mem_cons_self)
    · exact Or.inl (List.mem_singleton.mp hentry)

theorem closest_firstAbove (m : SortedMap κ ν) (k : κ) :
    m.Closest (fun a b => b < a) k (m.firstAbove k) := by
  cases habove : m.firstAbove k with
  | none =>
    rw [firstAbove, List.head?_eq_none_iff, List.filter_eq_nil_iff] at habove
    intro e he hlt
    exact habove e he (decide_eq_true hlt)
  | some e =>
    obtain ⟨hmem, hlt⟩ := firstAbove_spec habove
    refine ⟨hmem, hlt, ?_⟩
    intro e' he' hlt'
    obtain ⟨rest, hrest⟩ := List.head?_eq_some_iff.mp habove
    have hsorted := m.sorted.filter fun e => k < e.1
    have hentry : e' ∈ m.entries.filter fun e => k < e.1 :=
      List.mem_filter.mpr ⟨he', decide_eq_true hlt'⟩
    rw [hrest] at hsorted hentry
    rcases List.mem_cons.mp hentry with hentry | hentry
    · exact Or.inl hentry
    · exact Or.inr ((List.pairwise_cons.mp hsorted).1 e' hentry)

/-- Sorted entry lists with the same members are the same list. -/
theorem entries_eq_of_mem_iff {l l' : List (κ × ν)} (hl : l.Pairwise fun a b => a.1 < b.1)
    (hl' : l'.Pairwise fun a b => a.1 < b.1) (same : ∀ e, e ∈ l ↔ e ∈ l') : l = l' := by
  have hne : ∀ {l : List (κ × ν)}, l.Pairwise (fun a b => a.1 < b.1) → l.Nodup := by
    intro l h
    exact h.imp fun hab heq => absurd (heq ▸ hab) (lt_irrefl _)
  have hperm : l.Perm l' := (List.perm_ext_iff_of_nodup (hne hl) (hne hl')).mpr same
  exact hperm.eq_of_pairwise (fun a b _ _ hab hba => absurd hba (lt_asymm hab)) hl hl'

theorem lastWritten_eq_none {κ : Type u} {_ : DecidableEq κ} {writes : List (κ × ν)} {k : κ}
    (unwritten : ∀ w ∈ writes, w.1 ≠ k) : lastWritten writes k = none := by
  rw [Option.eq_none_iff_forall_ne_some]
  intro v hv
  exact unwritten _ (mem_of_lastWritten hv) rfl

theorem lastWritten_ne_none {κ : Type u} {_ : DecidableEq κ} {writes : List (κ × ν)} {k : κ} {v : ν}
    (h : (k, v) ∈ writes) : lastWritten writes k ≠ none := by
  intro hnone
  rw [lastWritten, Option.map_eq_none_iff, List.find?_eq_none] at hnone
  exact hnone (k, v) (List.mem_reverse.mpr h) (decide_eq_true rfl)

/-- Writes are hidden when each of their keys is written again later. -/
theorem lastWritten_append_hidden {κ : Type u} {_ : DecidableEq κ}
    {older hidden newer : List (κ × ν)} (covered : ∀ w ∈ hidden, lastWritten newer w.1 ≠ none)
    (k : κ) : lastWritten (older ++ (hidden ++ newer)) k = lastWritten (older ++ newer) k := by
  rw [lastWritten_append, lastWritten_append, lastWritten_append]
  cases hhidden : lastWritten hidden k with
  | none => rw [Option.or_none]
  | some v =>
    obtain ⟨v', hv'⟩ := Option.ne_none_iff_exists'.mp (covered _ (mem_of_lastWritten hhidden))
    rw [hv', Option.some_or]

/-- Groups of writes that share no key give the same map in any order. -/
theorem lastWritten_flatten_perm {κ : Type u} {_ : DecidableEq κ}
    {groups groups' : List (List (κ × ν))} (perm : groups.Perm groups')
    (disjoint : groups.Pairwise fun a b => ∀ w ∈ a, ∀ w' ∈ b, w.1 ≠ w'.1) (k : κ) :
    lastWritten groups.flatten k = lastWritten groups'.flatten k := by
  induction perm with
  | nil => rfl
  | cons a _ ih =>
    rw [List.flatten_cons, List.flatten_cons, lastWritten_append, lastWritten_append,
      ih (List.pairwise_cons.mp disjoint).2]
  | swap a b rest =>
    simp only [List.flatten_cons, lastWritten_append, Option.or_assoc]
    have hba := (List.pairwise_cons.mp disjoint).1 a List.mem_cons_self
    -- At most one of the two groups writes the key.
    cases ha : lastWritten a k with
    | none => rw [Option.none_or, Option.or_none]
    | some v =>
      have hb : lastWritten b k = none := by
        apply lastWritten_eq_none
        intro w hw hkey
        exact hba w hw _ (mem_of_lastWritten ha) hkey
      rw [hb, Option.none_or, Option.or_none]
  | trans first _ ih ih' =>
    have hsymm : ∀ {a b : List (κ × ν)}, (∀ w ∈ a, ∀ w' ∈ b, w.1 ≠ w'.1) →
        ∀ w ∈ b, ∀ w' ∈ a, w.1 ≠ w'.1 :=
      fun h w hw w' hw' heq => h w' hw' w hw heq.symm
    exact (ih disjoint).trans (ih' ((first.pairwise_iff hsymm).mp disjoint))

/-- Among writes to distinct keys every write is the last one to its key. -/
theorem lastWritten_of_nodup {κ : Type u} {_ : DecidableEq κ} {writes : List (κ × ν)} {k : κ}
    {v : ν} (distinct : (writes.map Prod.fst).Nodup) (h : (k, v) ∈ writes) :
    lastWritten writes k = some v := by
  induction writes with
  | nil => cases h
  | cons w rest ih =>
    obtain ⟨hnew, hrest⟩ := List.nodup_cons.mp distinct
    rw [← List.singleton_append, lastWritten_append, lastWritten_singleton]
    rcases List.mem_cons.mp h with rfl | h
    · have hnone : lastWritten rest k = none := by
        apply lastWritten_eq_none
        intro w hw hkey
        exact hnew (List.mem_map.mpr ⟨w, hw, hkey⟩)
      rw [hnone, Option.none_or, if_pos rfl]
    · rw [ih hrest h, Option.some_or]

/-- A loop that files entries under their keys and stops at a key already
taken: it goes through exactly when the keys are new and distinct. -/
theorem fresh_loop_eq_ok_iff {ε : Type v} {ι : Type u}
    {loop : List ι → SortedMap κ ν → Except ε (SortedMap κ ν)} {key : ι → κ} {value : ι → ν}
    {taken : ι → ε} (done : ∀ m, loop [] m = .ok m)
    (step : ∀ entry rest m, loop (entry :: rest) m =
      if (m.get? (key entry)).isSome then .error (taken entry)
      else loop rest (m.insert (key entry) (value entry)))
    (entries : List ι) (m table : SortedMap κ ν) :
    loop entries m = .ok table ↔
      (entries.map key).Nodup ∧ (∀ entry ∈ entries, m.get? (key entry) = none) ∧
        table = m.insertAll (entries.map fun entry => (key entry, value entry)) := by
  induction entries generalizing m with
  | nil => simp [done, insertAll, eq_comm]
  | cons entry rest ih =>
    rw [step]
    cases hget : m.get? (key entry) with
    | some old => simp [hget]
    | none =>
      simp only [Option.isSome_none, Bool.false_eq_true, if_false, ih, get?_insert_eq_none_iff,
        List.map_cons, List.nodup_cons, List.mem_map, List.forall_mem_cons, hget, true_and]
      constructor
      · rintro ⟨hnodup, hfresh, rfl⟩
        refine ⟨⟨?_, hnodup⟩, fun e he => (hfresh e he).2, rfl⟩
        rintro ⟨e, he, hkey⟩
        exact (hfresh e he).1 hkey
      · rintro ⟨⟨hnew, hnodup⟩, hnone, rfl⟩
        exact ⟨hnodup, fun e he => ⟨fun hkey => hnew ⟨e, he, hkey⟩, hnone e he⟩, rfl⟩

/-- Lookups in a map filled from entries with distinct keys. -/
theorem get?_filled_iff {ι : Type u} {key : ι → κ} {value : ι → ν} {entries : List ι}
    (distinct : (entries.map key).Nodup) (k : κ) (v : ν) :
    (insertAll .empty (entries.map fun entry => (key entry, value entry))).get? k = some v ↔
      ∃ entry ∈ entries, key entry = k ∧ value entry = v := by
  rw [get?_insertAll, get?_empty, Option.or_none]
  constructor
  · intro h
    obtain ⟨entry, hentry, hpair⟩ := List.mem_map.mp (mem_of_lastWritten h)
    obtain ⟨hkey, hvalue⟩ := Prod.mk.inj hpair
    exact ⟨entry, hentry, hkey, hvalue⟩
  · rintro ⟨entry, hentry, rfl, rfl⟩
    apply lastWritten_of_nodup
    · rw [List.map_map]
      exact distinct
    · exact List.mem_map.mpr ⟨entry, hentry, rfl⟩

/-- A map is determined by its lookups. -/
theorem ext_get? {m m' : SortedMap κ ν} (same : ∀ k, m.get? k = m'.get? k) : m = m' := by
  apply SortedMap.ext
  apply entries_eq_of_mem_iff m.sorted m'.sorted
  rintro ⟨k, v⟩
  rw [← get?_eq_some_iff, ← get?_eq_some_iff, same]

/-- A map is what writing its own entries gives. -/
theorem insertAll_entries (m : SortedMap κ ν) : empty.insertAll m.entries = m := by
  have hdistinct : (m.entries.map Prod.fst).Nodup :=
    List.pairwise_map.mpr (m.sorted.imp fun hlt => hlt.ne)
  apply ext_get?
  intro k
  rw [get?_insertAll, get?_empty, Option.or_none]
  cases hget : m.get? k with
  | none =>
    apply lastWritten_eq_none
    rintro ⟨k', v⟩ hw rfl
    rw [(get?_eq_some_iff m k' v).mpr hw] at hget
    cases hget
  | some v => exact lastWritten_of_nodup hdistinct ((get?_eq_some_iff m k v).mp hget)

/-- Writes change nothing exactly when the last one to each key stores what is there. -/
theorem insertAll_eq_self_iff (m : SortedMap κ ν) (writes : List (κ × ν)) :
    m.insertAll writes = m ↔ ∀ k v, lastWritten writes k = some v → m.get? k = some v := by
  constructor
  · intro h k v hv
    rw [← h, get?_insertAll, hv, Option.some_or]
  · intro h
    apply ext_get?
    intro k
    rw [get?_insertAll]
    cases hv : lastWritten writes k with
    | none => rfl
    | some v => rw [Option.some_or, h k v hv]

end SortedMap
