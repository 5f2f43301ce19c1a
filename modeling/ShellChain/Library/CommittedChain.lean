import Mathlib.Data.List.Chain
import Mathlib.Data.Set.Function

/-!
# Steps that check commitments to states they do not keep

A link runs an action from a state it is given and compares commitments: the
one declared for the state before it, the one announced for the state after
it. Nothing carries a state from one link to the next, only the announced
commitment. As long as commitments are injective on the states the links
show, the links nevertheless run one after the other on a single state.
-/

universe u v w

namespace CommittedChain

structure Link (σ : Type u) (α : Type v) (γ : Type w) where
  pre : σ
  action : α
  declared : γ
  announced : γ

variable {σ : Type u} {α : Type v} {γ : Type w} {commit : σ → γ} {step : σ → α → σ}

def Link.post (step : σ → α → σ) (l : Link σ α γ) : σ := step l.pre l.action

/-- What a link compares. -/
structure Link.Checked (commit : σ → γ) (step : σ → α → σ) (l : Link σ α γ) : Prop where
  opens : commit l.pre = l.declared
  closes : commit (l.post step) = l.announced

/-- The states the links show. -/
def shown (step : σ → α → σ) (links : List (Link σ α γ)) : Set σ :=
  {s | ∃ l ∈ links, s = l.pre ∨ s = l.post step}

/-- Linked commitments are linked states. -/
theorem isChain_states {links : List (Link σ α γ)}
    (checked : ∀ l ∈ links, l.Checked commit step)
    (linked : links.IsChain fun a b => b.declared = a.announced)
    (inj : (shown step links).InjOn commit) :
    links.IsChain fun a b => b.pre = a.post step := by
  refine linked.imp_of_mem_imp ?_
  intro a b ha hb hlink
  apply inj ⟨b, hb, Or.inl rfl⟩ ⟨a, ha, Or.inr rfl⟩
  calc commit b.pre
    _ = b.declared := (checked b hb).opens
    _ = a.announced := hlink
    _ = commit (a.post step) := (checked a ha).closes.symm

/-- Linked states are one run of all the actions: by induction on the links, with the state the
first one starts from generalised. -/
theorem post_eq_foldl {first : Link σ α γ} {rest : List (Link σ α γ)}
    (chain : (first :: rest).IsChain fun a b => b.pre = a.post step) {i : Nat} {l : Link σ α γ}
    (h : (first :: rest)[i]? = some l) :
    l.post step = (((first :: rest).take (i + 1)).map Link.action).foldl step first.pre := by
  induction rest generalizing first i with
  | nil =>
    cases i with
    | zero =>
      obtain rfl := Option.some.inj h
      rfl
    | succ i => cases h
  | cons second rest ih =>
    cases i with
    | zero =>
      obtain rfl := Option.some.inj h
      rfl
    | succ i =>
      obtain ⟨hstate, hrest⟩ := List.isChain_cons_cons.mp chain
      have hrun := ih hrest h
      rw [hstate] at hrun
      exact hrun

end CommittedChain
