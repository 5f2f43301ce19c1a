import Mathlib.Data.List.Basic

/-!
# One service, many clients

A service with a state answers one request at a time. Requests of several
clients reach it in some order; a list of requests is such an order, and a
statement about every list is a statement about every interleaving. `history`
records each request with the state it met, its answer and the state it left.
-/

universe u v w

structure ServiceEvent (σ : Type u) (ρ : Type v) (α : Type w) where
  request : ρ
  before : σ
  answer : α
  after : σ

namespace ServiceEvent
variable {σ : Type u} {ρ : Type v} {α : Type w}

def serve (step : σ → ρ → α × σ) (state : σ) (request : ρ) : ServiceEvent σ ρ α :=
  ⟨request, state, (step state request).1, (step state request).2⟩

def history (step : σ → ρ → α × σ) : σ → List ρ → List (ServiceEvent σ ρ α)
  | _, [] => []
  | state, request :: rest =>
    serve step state request :: history step (step state request).2 rest

/-- The state after all requests. -/
def finalState (step : σ → ρ → α × σ) (state : σ) (requests : List ρ) : σ :=
  requests.foldl (fun state request => (step state request).2) state

variable {step : σ → ρ → α × σ}

/-- Every event is the service's answer in the state it met. -/
theorem eq_serve_of_mem {state : σ} {requests : List ρ} {event : ServiceEvent σ ρ α}
    (h : event ∈ history step state requests) : event = serve step event.before event.request := by
  induction requests generalizing state with
  | nil => cases h
  | cons request rest ih =>
    rcases List.mem_cons.mp h with rfl | h
    · rfl
    · exact ih h

/-- What follows an event is a history from the state the event left. -/
theorem history_after {state : σ} {requests : List ρ} {front rest : List (ServiceEvent σ ρ α)}
    {event : ServiceEvent σ ρ α} (h : history step state requests = front ++ event :: rest) :
    ∃ later, rest = history step event.after later := by
  induction requests generalizing state front with
  | nil => simp [history] at h
  | cons request requests ih =>
    rw [history] at h
    cases front with
    | nil =>
      obtain ⟨rfl, rfl⟩ := List.cons.inj h
      exact ⟨requests, rfl⟩
    | cons first front => exact ih (List.cons.inj h).2

/-- A property of the state that every event of the history keeps. -/
theorem history_invariant {I : σ → Prop} {state : σ} {requests : List ρ} (start : I state)
    (keeps : ∀ event ∈ history step state requests, I event.before → I event.after) :
    ∀ event ∈ history step state requests, I event.before ∧ I event.after := by
  induction requests generalizing state with
  | nil =>
    intro event h
    cases h
  | cons request rest ih =>
    have hfirst : I (step state request).2 := keeps _ List.mem_cons_self start
    intro event h
    rcases List.mem_cons.mp h with rfl | h
    · exact ⟨start, hfirst⟩
    · exact ih hfirst (fun e he => keeps e (List.mem_cons_of_mem _ he)) event h

end ServiceEvent
