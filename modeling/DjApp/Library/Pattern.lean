import Mathlib.Data.List.Basic
import Mathlib.Tactic.Common

/-! Regular expressions without repetition, read against a list of symbols from any position of it:
with an anchor at the start and a negative lookahead. -/

set_option autoImplicit false

namespace DjApp.Library

inductive Pattern (Symbol : Type) where
  | oneOf (set : Symbol → Bool)
  | start
  | sequence (first second : Pattern Symbol)
  | choice (first second : Pattern Symbol)
  | unlessAhead (ahead : Pattern Symbol)

namespace Pattern

variable {Symbol : Type}

/-- Where the matches end that begin at a position. -/
def ends (input : List Symbol) : Pattern Symbol → ℕ → List ℕ
  | .oneOf set, position =>
      match input[position]? with
      | some symbol => if set symbol then [position + 1] else []
      | none => []
  | .start, position => if position = 0 then [position] else []
  | .sequence first second, position => (first.ends input position).flatMap (second.ends input)
  | .choice first second, position => first.ends input position ++ second.ends input position
  | .unlessAhead ahead, position => if (ahead.ends input position).isEmpty then [position] else []

/-- Whether there is a match anywhere, the end of the input included. -/
def test (pattern : Pattern Symbol) (input : List Symbol) : Bool :=
  (List.range (input.length + 1)).any fun position => !(pattern.ends input position).isEmpty

variable {input : List Symbol} {set : Symbol → Bool} {pattern first second ahead : Pattern Symbol}
  {position stop : ℕ}

@[simp] theorem mem_ends_oneOf :
    stop ∈ (oneOf set).ends input position ↔
      stop = position + 1 ∧ ∃ symbol, input[position]? = some symbol ∧ set symbol = true := by
  rw [ends]
  cases input[position]? with
  | none => simp
  | some symbol => cases holds : set symbol <;> simp [holds]

@[simp] theorem mem_ends_start :
    stop ∈ (start : Pattern Symbol).ends input position ↔ stop = position ∧ position = 0 := by
  rw [ends]
  split
  · rename_i first
    simp [first]
  · rename_i later
    simp [later]

@[simp] theorem mem_ends_sequence :
    stop ∈ (sequence first second).ends input position ↔
      ∃ middle ∈ first.ends input position, stop ∈ second.ends input middle := by
  rw [ends, List.mem_flatMap]

@[simp] theorem mem_ends_choice :
    stop ∈ (choice first second).ends input position ↔
      stop ∈ first.ends input position ∨ stop ∈ second.ends input position := by
  rw [ends, List.mem_append]

@[simp] theorem mem_ends_unlessAhead :
    stop ∈ (unlessAhead ahead).ends input position ↔
      stop = position ∧ ∀ reached, reached ∉ ahead.ends input position := by
  rw [ends]
  cases found : ahead.ends input position with
  | nil => simp
  | cons reached others =>
      simp only [List.isEmpty_cons, Bool.false_eq_true, ↓reduceIte, List.not_mem_nil, false_iff,
        not_and, not_forall, not_not]
      exact fun _ => ⟨reached, List.mem_cons_self⟩

theorem test_iff :
    pattern.test input = true ↔
      ∃ position ≤ input.length, ∃ stop, stop ∈ pattern.ends input position := by
  simp only [test, List.any_eq_true, List.mem_range, Nat.lt_succ_iff, Bool.not_eq_true',
    List.isEmpty_eq_false_iff_exists_mem]

end Pattern

end DjApp.Library
