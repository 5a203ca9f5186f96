import Mathlib.Data.List.Basic
import Mathlib.Data.List.Range
import Mathlib.Tactic.Common

/-! A head that is settled before each item it reads and advanced after it, until it is
stuck. Reading in portions reads what one long reading would. -/

set_option autoImplicit false

namespace DjApp.Library.ReadHead

variable {Position : Type}

structure Reading (Position : Type) where
  frames : List Position
  head : Position
  ranDry : Bool

variable (settle advance : Position → Position)

def headAt (start : Position) : ℕ → Position
  | 0 => start
  | count + 1 => advance (settle (headAt start count))

@[simp] theorem headAt_zero (start : Position) : headAt settle advance start 0 = start := rfl

theorem headAt_succ (start : Position) (count : ℕ) :
    headAt settle advance start (count + 1) =
      advance (settle (headAt settle advance start count)) := rfl

theorem headAt_add (start : Position) (first second : ℕ) :
    headAt settle advance start (first + second) =
      headAt settle advance (headAt settle advance start first) second := by
  induction second with
  | zero => rfl
  | succ second ih => rw [← Nat.add_assoc, headAt_succ, headAt_succ, ih]

theorem headAt_advance (start : Position) (count : ℕ) :
    headAt settle advance (advance (settle start)) count =
      headAt settle advance start (count + 1) := by
  rw [Nat.add_comm, headAt_add]
  rfl

def items (start : Position) (count : ℕ) : List Position :=
  (List.range count).map fun index => settle (headAt settle advance start index)

@[simp] theorem length_items (start : Position) (count : ℕ) :
    (items settle advance start count).length = count := by
  simp [items]

theorem items_succ (start : Position) (count : ℕ) :
    items settle advance start (count + 1) =
      settle start :: items settle advance (advance (settle start)) count := by
  simp only [items, List.range_succ_eq_map, List.map_cons, List.map_map, headAt_zero,
    headAt_advance, Function.comp_def, Nat.succ_eq_add_one]

theorem items_add (start : Position) (first second : ℕ) :
    items settle advance start (first + second) =
      items settle advance start first ++
        items settle advance (headAt settle advance start first) second := by
  simp only [items, List.range_add, List.map_append, List.map_map, Function.comp_def, headAt_add]

/-- What settling and advancing keep holds of every head. -/
theorem headAt_of_kept (good : Position → Prop)
    (settles : ∀ position, good position → good (settle position))
    (advances : ∀ position, good position → good (advance position)) {start : Position}
    (holds : good start) (count : ℕ) : good (headAt settle advance start count) := by
  induction count with
  | zero => exact holds
  | succ count ih => exact advances _ (settles _ ih)

variable (stuck : Position → Prop) [DecidablePred stuck]

/-- Reads so many items, or as many as there are before the head is stuck. -/
def read : ℕ → Position → Reading Position
  | 0, position => ⟨[], position, false⟩
  | count + 1, position =>
      if stuck (settle position) then ⟨[], settle position, true⟩
      else
        let rest := read count (advance (settle position))
        { rest with frames := settle position :: rest.frames }

theorem read_of_stuck {count : ℕ} {start : Position} (blocked : stuck (settle start)) :
    read settle advance stuck (count + 1) start = ⟨[], settle start, true⟩ := by
  rw [read, if_pos blocked]

theorem read_of_free {count : ℕ} {start : Position} (free : ¬ stuck (settle start)) :
    read settle advance stuck (count + 1) start =
      { read settle advance stuck count (advance (settle start)) with
        frames := settle start ::
          (read settle advance stuck count (advance (settle start))).frames } := by
  rw [read, if_neg free]

/-- A reading that does not run dry is complete. -/
theorem read_of_not_dry {count : ℕ} {start : Position}
    (flowing : (read settle advance stuck count start).ranDry = false) :
    (read settle advance stuck count start).frames = items settle advance start count ∧
      (read settle advance stuck count start).head = headAt settle advance start count := by
  induction count generalizing start with
  | zero => exact ⟨rfl, rfl⟩
  | succ count ih =>
      by_cases blocked : stuck (settle start)
      · rw [read_of_stuck _ _ _ blocked] at flowing
        cases flowing
      · rw [read_of_free _ _ _ blocked] at flowing ⊢
        obtain ⟨frames, head⟩ := ih flowing
        exact ⟨by rw [items_succ, frames], by rw [head, headAt_advance]⟩

/-- A reading that runs dry stops at the first item that is not there. -/
theorem read_of_dry {count : ℕ} {start : Position}
    (dry : (read settle advance stuck count start).ranDry = true) :
    let read := read settle advance stuck count start
    read.frames.length < count ∧ stuck read.head ∧
      read.head = settle (headAt settle advance start read.frames.length) := by
  induction count generalizing start with
  | zero => cases dry
  | succ count ih =>
      by_cases blocked : stuck (settle start)
      · rw [read_of_stuck _ _ _ blocked]
        exact ⟨Nat.succ_pos count, blocked, rfl⟩
      · rw [read_of_free _ _ _ blocked] at dry ⊢
        obtain ⟨shorter, stuckHead, head⟩ := ih dry
        refine ⟨Nat.succ_lt_succ shorter, stuckHead, ?_⟩
        rw [List.length_cons, ← headAt_advance]
        exact head

theorem read_head_of_kept (good : Position → Prop)
    (settles : ∀ position, good position → good (settle position))
    (advances : ∀ position, good position → good (advance position)) {start : Position}
    (holds : good start) (count : ℕ) : good (read settle advance stuck count start).head := by
  cases flow : (read settle advance stuck count start).ranDry with
  | false =>
      rw [(read_of_not_dry settle advance stuck flow).2]
      exact headAt_of_kept settle advance good settles advances holds count
  | true =>
      rw [(read_of_dry settle advance stuck flow).2.2]
      exact settles _ (headAt_of_kept settle advance good settles advances holds _)

theorem read_dry_iff {count : ℕ} {start : Position} :
    (read settle advance stuck count start).ranDry = true ↔
      ∃ index < count, stuck (settle (headAt settle advance start index)) := by
  induction count generalizing start with
  | zero => simp [read]
  | succ count ih =>
      by_cases blocked : stuck (settle start)
      · rw [read_of_stuck _ _ _ blocked]
        exact iff_of_true rfl ⟨0, Nat.succ_pos count, blocked⟩
      · rw [read_of_free _ _ _ blocked, ih]
        constructor
        · rintro ⟨index, below, found⟩
          rw [headAt_advance] at found
          exact ⟨index + 1, Nat.succ_lt_succ below, found⟩
        · rintro ⟨index, below, found⟩
          cases index with
          | zero => exact absurd found blocked
          | succ index =>
              rw [← headAt_advance] at found
              exact ⟨index, Nat.lt_of_succ_lt_succ below, found⟩

/-- No item that was read is one where the head is stuck. -/
theorem read_free {count : ℕ} {start : Position} :
    ∀ index < (read settle advance stuck count start).frames.length,
      ¬ stuck (settle (headAt settle advance start index)) := by
  induction count generalizing start with
  | zero =>
      intro index below
      cases below
  | succ count ih =>
      by_cases blocked : stuck (settle start)
      · rw [read_of_stuck _ _ _ blocked]
        intro index below
        cases below
      · rw [read_of_free _ _ _ blocked]
        intro index below
        cases index with
        | zero => exact blocked
        | succ index =>
            rw [← headAt_advance]
            exact ih index (Nat.lt_of_succ_lt_succ below)

/-- Where so many items leave the head: at the first of them that is not there, or one step
past the last. -/
def landing (items : ℕ → Position) (count : ℕ) : Position :=
  match (List.range count).find? fun index => decide (stuck (items index)) with
  | some index => items index
  | none => advance (items (count - 1))

theorem read_head_eq_landing {count : ℕ} (some : count ≠ 0) (start : Position) :
    (read settle advance stuck count start).head =
      landing advance stuck (fun index => settle (headAt settle advance start index)) count := by
  unfold landing
  cases flow : (read settle advance stuck count start).ranDry with
  | false =>
      have free : ∀ index < count, ¬ stuck (settle (headAt settle advance start index)) := by
        intro index below blocked
        rw [(read_dry_iff settle advance stuck).mpr ⟨index, below, blocked⟩] at flow
        cases flow
      have none : ((List.range count).find? fun index =>
          decide (stuck (settle (headAt settle advance start index)))) = none :=
        List.find?_range_eq_none.mpr fun index below => by simp [free index below]
      obtain ⟨last, rfl⟩ := Nat.exists_eq_succ_of_ne_zero some
      rw [none, (read_of_not_dry settle advance stuck flow).2]
      rfl
  | true =>
      obtain ⟨shorter, blocked, head⟩ := read_of_dry settle advance stuck flow
      have first : ((List.range count).find? fun index =>
          decide (stuck (settle (headAt settle advance start index)))) =
            Option.some (read settle advance stuck count start).frames.length := by
        refine List.find?_range_eq_some.mpr ⟨?_, List.mem_range.mpr shorter, fun index below => ?_⟩
        · rw [← head]
          exact decide_eq_true blocked
        · simp [read_free settle advance stuck index below]
      rw [first]
      exact head

/-- Reading on where a reading stopped. -/
theorem read_add {first second : ℕ} {start : Position}
    (flowing : (read settle advance stuck first start).ranDry = false) :
    read settle advance stuck (first + second) start =
      { read settle advance stuck second (headAt settle advance start first) with
        frames := items settle advance start first ++
          (read settle advance stuck second (headAt settle advance start first)).frames } := by
  induction first generalizing start with
  | zero => simp [items]
  | succ first ih =>
      by_cases blocked : stuck (settle start)
      · rw [read_of_stuck _ _ _ blocked] at flowing
        cases flowing
      · rw [read_of_free _ _ _ blocked] at flowing
        rw [Nat.succ_add, read_of_free _ _ _ blocked, ih flowing, headAt_advance, items_succ]
        rfl

theorem read_add_of_dry {first second : ℕ} {start : Position}
    (dry : (read settle advance stuck first start).ranDry = true) :
    read settle advance stuck (first + second) start = read settle advance stuck first start := by
  induction first generalizing start with
  | zero => cases dry
  | succ first ih =>
      rw [Nat.succ_add]
      by_cases blocked : stuck (settle start)
      · rw [read_of_stuck _ _ _ blocked, read_of_stuck _ _ _ blocked]
      · rw [read_of_free _ _ _ blocked] at dry
        rw [read_of_free _ _ _ blocked, read_of_free _ _ _ blocked, ih dry]

end DjApp.Library.ReadHead
