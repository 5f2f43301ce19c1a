import Mathlib.Data.List.Dedup
import Mathlib.Data.Set.Function
import ShellChain.Library.Logged

/-!
# Computations that hash

A hash function is a parameter and every string handed to it is logged, so that
"no collision among the strings hashed here" is a statement about two runs and
not about the hash function as a whole. Runs also log the calls of a helper
whose arguments matter.

`Binds` is what a commitment is for: on its domain, equal results come from
equal inputs unless two hashed strings collide. Binding computations compose.
-/

inductive HashEvent (κ : Type) where
  | digest (preimage : List UInt8)
  | call (site : κ)
  deriving DecidableEq

abbrev Hashing (κ α : Type) := Logged (HashEvent κ) α

namespace Hashing
variable {κ δ α α' β γ : Type}

def hash (digest : List UInt8 → δ) (preimage : List UInt8) : Hashing κ δ :=
  Logged.emit (.digest preimage) (digest preimage)

/-- Log a call before it runs. -/
def enter (site : κ) (body : Hashing κ α) : Hashing κ α := do
  Logged.emit (.call site) ()
  body

/-! ## What a run hashed and what it called -/

def preimages (x : Hashing κ α) : List (List UInt8) :=
  x.log.filterMap fun
    | .digest s => some s
    | .call _ => none

def sites (x : Hashing κ α) : List κ :=
  x.log.filterMap fun
    | .digest _ => none
    | .call site => some site

@[simp] theorem preimages_pure (a : α) : preimages (pure a : Hashing κ α) = [] := rfl

@[simp] theorem sites_pure (a : α) : sites (pure a : Hashing κ α) = [] := rfl

@[simp] theorem preimages_bind (x : Hashing κ α) (f : α → Hashing κ β) :
    preimages (x >>= f) = preimages x ++ preimages (f x.value) :=
  List.filterMap_append

@[simp] theorem sites_bind (x : Hashing κ α) (f : α → Hashing κ β) :
    sites (x >>= f) = sites x ++ sites (f x.value) :=
  List.filterMap_append

@[simp] theorem value_hash (digest : List UInt8 → δ) (s : List UInt8) :
    (hash digest s : Hashing κ δ).value = digest s := rfl

@[simp] theorem preimages_hash (digest : List UInt8 → δ) (s : List UInt8) :
    preimages (hash digest s : Hashing κ δ) = [s] := rfl

@[simp] theorem sites_hash (digest : List UInt8 → δ) (s : List UInt8) :
    sites (hash digest s : Hashing κ δ) = [] := rfl

@[simp] theorem value_enter (site : κ) (body : Hashing κ α) :
    (enter site body).value = body.value := rfl

@[simp] theorem preimages_enter (site : κ) (body : Hashing κ α) :
    preimages (enter site body) = preimages body := rfl

@[simp] theorem sites_enter (site : κ) (body : Hashing κ α) :
    sites (enter site body) = site :: sites body := rfl

theorem mem_preimages (x : Hashing κ α) (s : List UInt8) :
    s ∈ preimages x ↔ .digest s ∈ x.log := by
  rw [preimages, List.mem_filterMap]
  constructor
  · rintro ⟨event, hevent, h⟩
    cases event with
    | digest t =>
      obtain rfl := Option.some.inj h
      exact hevent
    | call site => cases h
  · intro h
    exact ⟨_, h, rfl⟩

theorem mem_sites (x : Hashing κ α) (site : κ) : site ∈ sites x ↔ .call site ∈ x.log := by
  rw [sites, List.mem_filterMap]
  constructor
  · rintro ⟨event, hevent, h⟩
    cases event with
    | digest t => cases h
    | call c =>
      obtain rfl := Option.some.inj h
      exact hevent
  · intro h
    exact ⟨_, h, rfl⟩

@[simp] theorem mem_preimages_traverse (F : α → Hashing κ β) (as : List α) (s : List UInt8) :
    s ∈ preimages (Logged.traverse F as) ↔ ∃ a ∈ as, s ∈ preimages (F a) := by
  simp only [mem_preimages, Logged.mem_log_traverse]

@[simp] theorem mem_sites_traverse (F : α → Hashing κ β) (as : List α) (site : κ) :
    site ∈ sites (Logged.traverse F as) ↔ ∃ a ∈ as, site ∈ sites (F a) := by
  simp only [mem_sites, Logged.mem_log_traverse]

/-! ## Binding -/

/-- The run hashes only strings of `S`. -/
def Within (S : Set (List UInt8)) (x : Hashing κ α) : Prop := ∀ s ∈ preimages x, s ∈ S

@[simp] theorem within_bind {S : Set (List UInt8)} (x : Hashing κ α) (f : α → Hashing κ β) :
    Within S (x >>= f) ↔ Within S x ∧ Within S (f x.value) := by
  simp only [Within, preimages_bind, List.mem_append]
  constructor
  · intro h
    exact ⟨fun s hs => h s (Or.inl hs), fun s hs => h s (Or.inr hs)⟩
  · rintro ⟨hx, hf⟩ s (hs | hs)
    · exact hx s hs
    · exact hf s hs

@[simp] theorem within_enter {S : Set (List UInt8)} (site : κ) (body : Hashing κ α) :
    Within S (enter site body) ↔ Within S body := Iff.rfl

@[simp] theorem within_hash {S : Set (List UInt8)} (digest : List UInt8 → δ) (s : List UInt8) :
    Within S (hash digest s : Hashing κ δ) ↔ s ∈ S := by
  simp [Within]

@[simp] theorem within_traverse {S : Set (List UInt8)} (F : α → Hashing κ β) (as : List α) :
    Within S (Logged.traverse F as) ↔ ∀ a ∈ as, Within S (F a) := by
  simp only [Within, mem_preimages_traverse]
  constructor
  · intro h a ha s hs
    exact h s ⟨a, ha, hs⟩
  · rintro h s ⟨a, ha, hs⟩
    exact h a ha s hs

/-- Equal results come from equal inputs of `D`, as long as nothing hashed collides. -/
def Binds (digest : List UInt8 → δ) (D : Set α) (F : α → Hashing κ β) : Prop :=
  ∀ ⦃S : Set (List UInt8)⦄, S.InjOn digest → ∀ ⦃a⦄, a ∈ D → ∀ ⦃b⦄, b ∈ D →
    Within S (F a) → Within S (F b) → (F a).value = (F b).value → a = b

section Rules
variable {digest : List UInt8 → δ}

theorem binds_hash : Binds digest Set.univ (hash digest : List UInt8 → Hashing κ δ) := by
  intro S inj a _ b _ ha hb h
  rw [within_hash] at ha hb
  exact inj ha hb h

theorem Binds.comp {D : Set α} {E : Set α'} {F : α' → Hashing κ β} {g : α → α'}
    (hF : Binds digest E F) (inj : D.InjOn g) (maps : D.MapsTo g E) :
    Binds digest D fun a => F (g a) := by
  intro S hS a ha b hb hsa hsb h
  exact inj ha hb (hF hS (maps ha) (maps hb) hsa hsb h)

theorem Binds.bind {D : Set α} {E : Set β} {F : α → Hashing κ β} {G : β → Hashing κ γ}
    (hF : Binds digest D F) (hG : Binds digest E G) (maps : ∀ a ∈ D, (F a).value ∈ E) :
    Binds digest D fun a => F a >>= G := by
  intro S hS a ha b hb hsa hsb h
  rw [within_bind] at hsa hsb
  exact hF hS ha hb hsa.1 hsb.1 (hG hS (maps a ha) (maps b hb) hsa.2 hsb.2 h)

/-- Element by element: the lists of results have the lengths of the inputs. -/
theorem Binds.traverse {D : Set α} {F : α → Hashing κ β} (hF : Binds digest D F) :
    Binds digest {as | ∀ a ∈ as, a ∈ D} (Logged.traverse F) := by
  intro S hS as has bs hbs hsa hsb h
  rw [within_traverse] at hsa hsb
  rw [Logged.value_traverse, Logged.value_traverse] at h
  induction as generalizing bs with
  | nil =>
    cases bs with
    | nil => rfl
    | cons b bs => cases h
  | cons a as ih =>
    cases bs with
    | nil => cases h
    | cons b bs =>
      obtain ⟨hhead, htail⟩ := List.cons.inj h
      have hab : a = b := hF hS (has a List.mem_cons_self) (hbs b List.mem_cons_self)
        (hsa a List.mem_cons_self) (hsb b List.mem_cons_self) hhead
      have hrest : as = bs := ih (fun c hc => has c (List.mem_cons_of_mem a hc))
        (fun c hc => hbs c (List.mem_cons_of_mem b hc))
        (fun c hc => hsa c (List.mem_cons_of_mem a hc))
        (fun c hc => hsb c (List.mem_cons_of_mem b hc)) htail
      rw [hab, hrest]

/-- What binding gives for two runs among whose strings no two collide. -/
theorem Binds.eq_of_value_eq {D : Set α} {F : α → Hashing κ β} (hF : Binds digest D F) {a b : α}
    (ha : a ∈ D) (hb : b ∈ D)
    (collisionFree : Set.InjOn digest {s | s ∈ preimages (F a) ∨ s ∈ preimages (F b)})
    (h : (F a).value = (F b).value) : a = b :=
  hF collisionFree ha hb (fun _ hs => Or.inl hs) (fun _ hs => Or.inr hs) h

/-- Collision freedom among finitely many strings is checked by hashing each once. -/
theorem injOn_of_nodup {strings : List (List UInt8)}
    (distinct : (strings.dedup.map digest).Nodup) : Set.InjOn digest {s | s ∈ strings} := by
  intro a ha b hb h
  exact List.inj_on_of_nodup_map distinct (List.mem_dedup.mpr ha) (List.mem_dedup.mpr hb) h

end Rules

end Hashing
