import Mathlib.Data.List.Induction
import Mathlib.Tactic.Common

/-! Runs of a deterministic machine that answers every input with an output. -/

set_option autoImplicit false

namespace DjApp.Library.Machine

/-- One step of a run, with the states around it. -/
structure Entry (State Input Output : Type) where
  before : State
  input : Input
  output : Output
  after : State

section Runs

variable {State Input Output : Type} (step : State → Input → State × Output)

def entry (state : State) (input : Input) : Entry State Input Output :=
  ⟨state, input, (step state input).2, (step state input).1⟩

def run (state : State) : List Input → State
  | [] => state
  | input :: rest => run (step state input).1 rest

def trace (state : State) : List Input → List (Entry State Input Output)
  | [] => []
  | input :: rest => entry step state input :: trace (step state input).1 rest

@[simp] theorem run_nil (state : State) : run step state [] = state := rfl

@[simp] theorem trace_nil (state : State) : trace step state [] = [] := rfl

@[simp] theorem run_append (state : State) (first second : List Input) :
    run step state (first ++ second) = run step (run step state first) second := by
  induction first generalizing state with
  | nil => rfl
  | cons input rest ih => exact ih (step state input).1

@[simp] theorem trace_append (state : State) (first second : List Input) :
    trace step state (first ++ second) =
      trace step state first ++ trace step (run step state first) second := by
  induction first generalizing state with
  | nil => rfl
  | cons input rest ih =>
      simp only [List.cons_append, trace, run, ih, List.cons_append]

theorem run_concat (state : State) (inputs : List Input) (input : Input) :
    run step state (inputs ++ [input]) = (step (run step state inputs) input).1 := by
  simp [run]

theorem trace_concat (state : State) (inputs : List Input) (input : Input) :
    trace step state (inputs ++ [input]) =
      trace step state inputs ++ [entry step (run step state inputs) input] := by
  simp [trace]

/-- What holds at the start and is kept by every step holds after every run. -/
theorem run_invariant (invariant : State → Prop)
    (kept : ∀ state input, invariant state → invariant (step state input).1)
    {state : State} (start : invariant state) (inputs : List Input) :
    invariant (run step state inputs) := by
  induction inputs generalizing state with
  | nil => exact start
  | cons input rest ih => exact ih (kept state input start)

/-- An invariant may speak of the whole history: every step that is allowed extends it
by its entry. -/
theorem history_invariant_of (allowed : Entry State Input Output → Prop)
    (invariant : List (Entry State Input Output) → State → Prop) {initial : State}
    (start : invariant [] initial)
    (kept : ∀ history state input, invariant history state → allowed (entry step state input) →
      invariant (history ++ [entry step state input]) (step state input).1)
    {inputs : List Input} (all : ∀ row ∈ trace step initial inputs, allowed row) :
    invariant (trace step initial inputs) (run step initial inputs) := by
  induction inputs using List.reverseRecOn with
  | nil => exact start
  | append_singleton inputs input ih =>
      rw [trace_concat] at all
      rw [trace_concat, run_concat]
      refine kept _ _ input (ih fun row member => all row (List.mem_append_left _ member)) ?_
      exact all _ (List.mem_append_right _ (List.mem_singleton_self _))

theorem history_invariant (invariant : List (Entry State Input Output) → State → Prop)
    {initial : State} (start : invariant [] initial)
    (kept : ∀ history state input, invariant history state →
      invariant (history ++ [entry step state input]) (step state input).1)
    (inputs : List Input) :
    invariant (trace step initial inputs) (run step initial inputs) :=
  history_invariant_of step (fun _ => True) invariant start
    (fun history state input holds _ => kept history state input holds) fun _ _ => trivial

/-- Every entry of a run starts in a state that an earlier part of the run reaches. -/
theorem mem_trace {initial : State} {inputs : List Input} {row : Entry State Input Output}
    (member : row ∈ trace step initial inputs) :
    ∃ earlier later, inputs = earlier ++ row.input :: later ∧
      row = entry step (run step initial earlier) row.input := by
  induction inputs generalizing initial with
  | nil => simp at member
  | cons input rest ih =>
      rcases List.mem_cons.mp member with rfl | member
      · exact ⟨[], rest, rfl, rfl⟩
      · obtain ⟨earlier, later, rfl, shape⟩ := ih member
        exact ⟨input :: earlier, later, rfl, shape⟩

/-- A run that is cut in two is the run of the inputs cut in two. -/
theorem trace_append_split {initial : State} {inputs : List Input}
    {earlier later : List (Entry State Input Output)}
    (shape : trace step initial inputs = earlier ++ later) :
    ∃ first rest, inputs = first ++ rest ∧ earlier = trace step initial first ∧
      later = trace step (run step initial first) rest := by
  induction earlier generalizing initial inputs with
  | nil => exact ⟨[], inputs, rfl, rfl, shape.symm⟩
  | cons head earlier ih =>
      cases inputs with
      | nil => cases shape
      | cons input rest =>
          obtain ⟨rfl, tail⟩ := List.cons.inj shape
          obtain ⟨first, rest, rfl, rfl, rfl⟩ := ih tail
          exact ⟨input :: first, rest, rfl, rfl, rfl⟩

/-- What stands before and after an entry of a run. -/
theorem trace_split {initial : State} {inputs : List Input}
    {earlier later : List (Entry State Input Output)} {row : Entry State Input Output}
    (shape : trace step initial inputs = earlier ++ row :: later) :
    ∃ first input rest, inputs = first ++ input :: rest ∧ earlier = trace step initial first ∧
      row = entry step (run step initial first) input ∧ later = trace step row.after rest := by
  obtain ⟨first, rest, rfl, rfl, tail⟩ := trace_append_split step shape
  cases rest with
  | nil => cases tail
  | cons input rest =>
      obtain ⟨rfl, rfl⟩ := List.cons.inj tail
      exact ⟨first, input, rest, rfl, rfl, rfl, rfl⟩

theorem map_input_trace (state : State) (inputs : List Input) :
    (trace step state inputs).map (·.input) = inputs := by
  induction inputs generalizing state with
  | nil => rfl
  | cons input rest ih => exact congrArg (input :: ·) (ih _)

theorem input_mem {initial : State} {inputs : List Input} {row : Entry State Input Output}
    (member : row ∈ trace step initial inputs) : row.input ∈ inputs := by
  obtain ⟨earlier, later, shape, _⟩ := mem_trace step member
  rw [shape]
  simp

/-- Where a state invariant makes what is observed of an admitted step equivalent to what is
required of it, and the observation carries the invariant on, a whole run of admitted steps
is observed to be right exactly if every step of it meets the requirement. -/
theorem trace_forall_iff_of (admitted : Entry State Input Output → Prop)
    (invariant : State → Prop) (observed required : Entry State Input Output → Prop)
    (exact : ∀ state input, admitted (entry step state input) → invariant state →
      (observed (entry step state input) ↔ required (entry step state input)))
    (kept : ∀ state input, admitted (entry step state input) → invariant state →
      observed (entry step state input) → invariant (step state input).1)
    {state : State} (start : invariant state) {inputs : List Input}
    (all : ∀ row ∈ trace step state inputs, admitted row) :
    (∀ row ∈ trace step state inputs, observed row) ↔
      ∀ row ∈ trace step state inputs, required row := by
  induction inputs generalizing state with
  | nil => simp
  | cons input rest ih =>
      obtain ⟨first, others⟩ := List.forall_mem_cons.mp all
      simp only [trace, List.forall_mem_cons]
      constructor
      · rintro ⟨seen, later⟩
        have next := kept state input first start seen
        exact ⟨(exact state input first start).mp seen, (ih next others).mp later⟩
      · rintro ⟨met, later⟩
        have seen := (exact state input first start).mpr met
        have next := kept state input first start seen
        exact ⟨seen, (ih next others).mpr later⟩

/-- The same where it depends on the input alone which steps are admitted. -/
theorem trace_forall_iff (allowed : Input → Prop) (invariant : State → Prop)
    (observed required : Entry State Input Output → Prop)
    (exact : ∀ state input, allowed input → invariant state →
      (observed (entry step state input) ↔ required (entry step state input)))
    (kept : ∀ state input, allowed input → invariant state →
      observed (entry step state input) → invariant (step state input).1)
    {state : State} (start : invariant state) {inputs : List Input}
    (admitted : ∀ input ∈ inputs, allowed input) :
    (∀ row ∈ trace step state inputs, observed row) ↔
      ∀ row ∈ trace step state inputs, required row :=
  trace_forall_iff_of step (fun row => allowed row.input) invariant observed required exact kept
    start fun _ member => admitted _ (input_mem step member)

section Idle

variable (idle : State → Input → Bool)

/-- The inputs of a run that are not idle in the state they meet. -/
def relevant (state : State) : List Input → List Input
  | [] => []
  | input :: rest =>
      if idle state input then relevant (step state input).1 rest
      else input :: relevant (step state input).1 rest

variable (unchanged : ∀ state input, idle state input = true → (step state input).1 = state)

include unchanged

theorem run_relevant (state : State) (inputs : List Input) :
    run step state (relevant step idle state inputs) = run step state inputs := by
  induction inputs generalizing state with
  | nil => rfl
  | cons input rest ih =>
      by_cases skipped : idle state input = true
      · simp only [relevant, skipped, ↓reduceIte, run, unchanged state input skipped, ih]
      · simp only [relevant, skipped, Bool.false_eq_true, ↓reduceIte, run, ih]

/-- Deleting the idle inputs deletes their entries and changes no other entry. -/
theorem trace_relevant (state : State) (inputs : List Input) :
    trace step state (relevant step idle state inputs) =
      (trace step state inputs).filter fun row => !idle row.before row.input := by
  induction inputs generalizing state with
  | nil => rfl
  | cons input rest ih =>
      by_cases skipped : idle state input = true
      · simp only [relevant, skipped, ↓reduceIte, trace, entry, List.filter_cons, Bool.not_true,
          Bool.false_eq_true, unchanged state input skipped, ih]
      · simp only [relevant, skipped, Bool.false_eq_true, ↓reduceIte, trace, entry,
          List.filter_cons, Bool.not_false, ih]

end Idle

end Runs

end DjApp.Library.Machine
