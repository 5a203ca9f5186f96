import Mathlib.Algebra.Order.Field.Basic
import Mathlib.Algebra.Order.BigOperators.Group.List
import Mathlib.Tactic.Linarith
import Mathlib.Tactic.Ring

/-! A token bucket that is filled and emptied with a bounded error, over windows of its
charges: how many are served at the most, and when all of them are. -/

set_option autoImplicit false

namespace DjApp.Library.TokenBucket

/-- One charge: what the bucket is owed since the charge before, what it holds when the
charge is decided, whether it is served, and what is left. -/
structure Charge (K : Type) where
  gain : K
  filled : K
  served : Bool
  left : K

section Sums

variable {K : Type}

def served (charges : List (Charge K)) : ℕ := charges.countP (·.served)

@[simp] theorem served_nil : served ([] : List (Charge K)) = 0 := rfl

theorem served_cons (charge : Charge K) (rest : List (Charge K)) :
    served (charge :: rest) = served rest + charge.served.toNat := by
  rw [served, List.countP_cons]
  cases charge.served <;> rfl

variable [AddMonoid K]

def gains (charges : List (Charge K)) : K := (charges.map (·.gain)).sum

@[simp] theorem gains_nil : gains ([] : List (Charge K)) = 0 := rfl

@[simp] theorem gains_cons (charge : Charge K) (rest : List (Charge K)) :
    gains (charge :: rest) = charge.gain + gains rest := by
  simp [gains]

@[simp] theorem gains_append (first second : List (Charge K)) :
    gains (first ++ second) = gains first + gains second := by
  simp [gains]

end Sums

variable {K : Type} [Field K] [LinearOrder K]

/-- What a charge finds in a bucket that holds `tokens`, up to `slack`. -/
structure Charge.Follows (burst slack tokens : K) (charge : Charge K) : Prop where
  nonneg : 0 ≤ charge.filled
  capped : charge.filled ≤ burst
  gained : charge.filled ≤ tokens + charge.gain + slack
  floor : burst ≤ charge.filled ∨ tokens + charge.gain - slack ≤ charge.filled
  full : burst ≤ tokens → burst ≤ charge.filled
  verdict : charge.served = true ↔ 1 ≤ charge.filled
  spent : charge.served = true → |charge.left - (charge.filled - 1)| ≤ slack
  kept : charge.served = false → charge.left = charge.filled

/-- A run of charges, each on what the one before has left. -/
inductive Run (burst slack : K) : K → List (Charge K) → Prop where
  | nil (tokens : K) : Run burst slack tokens []
  | cons {tokens : K} {charge : Charge K} {rest : List (Charge K)}
      (first : charge.Follows burst slack tokens) (later : Run burst slack charge.left rest) :
      Run burst slack tokens (charge :: rest)

variable {burst slack tokens : K} {charge : Charge K} {charges : List (Charge K)}

theorem Charge.Follows.served_le (follows : charge.Follows burst slack tokens) :
    (charge.served.toNat : K) ≤ charge.filled := by
  cases served : charge.served with
  | true => simpa using follows.verdict.mp served
  | false => simpa using follows.nonneg

variable [IsStrictOrderedRing K]

theorem Charge.Follows.left_add_le (follows : charge.Follows burst slack tokens)
    (errs : 0 ≤ slack) : charge.left + charge.served.toNat ≤ charge.filled + slack := by
  cases served : charge.served with
  | true =>
      have near := (abs_le.mp (follows.spent served)).2
      simp only [Bool.toNat_true, Nat.cast_one]
      linarith
  | false =>
      rw [follows.kept served]
      simpa using errs

/-- The charges served are paid by what the bucket is filled to at the first of them and is
owed from there on. -/
theorem Run.served_le_filled {rest : List (Charge K)}
    (run : Run burst slack tokens (charge :: rest)) (errs : 0 ≤ slack) :
    (served (charge :: rest) : K) ≤ charge.filled + gains rest + 2 * slack * rest.length := by
  induction rest generalizing tokens charge with
  | nil =>
      cases run with
      | cons first later =>
          have own := first.served_le
          simpa [served_cons] using own
  | cons next rest ih =>
      cases run with
      | cons first later =>
          have paid := ih later
          have left := first.left_add_le errs
          have gained : next.filled ≤ charge.left + next.gain + slack := by
            cases later with
            | cons second others => exact second.gained
          rw [served_cons, gains_cons, List.length_cons]
          push_cast
          linarith

/-- The bound on a window: the burst, what is owed from its first charge on, and the errors
between its charges. -/
theorem Run.served_le_burst {rest : List (Charge K)}
    (run : Run burst slack tokens (charge :: rest)) (errs : 0 ≤ slack) :
    (served (charge :: rest) : K) ≤ burst + gains rest + 2 * slack * rest.length := by
  have paid := run.served_le_filled errs
  cases run with
  | cons first later =>
      have capped := first.capped
      linarith

/-- A window that fits the bucket, with what the errors may take away. -/
def Conforms (burst slack : K) (charges : List (Charge K)) : Prop :=
  ∀ earlier first rest later, charges = earlier ++ first :: rest ++ later →
    (rest.length : K) + 1 + 2 * slack * rest.length ≤ burst + gains rest

/-- What the bucket holds after charges that were all served: no less than a window leaves
that began with a full bucket. -/
def Covered (burst slack tokens : K) (past : List (Charge K)) : Prop :=
  (past = [] ∧ burst ≤ tokens) ∨
    ∃ earlier first rest, past = earlier ++ first :: rest ∧
      burst + gains rest - (rest.length + 1) - slack * (2 * rest.length + 1) ≤ tokens

theorem Charge.Follows.covered (follows : charge.Follows burst slack tokens) (least : 1 ≤ burst)
    {past later : List (Charge K)} (covered : Covered burst slack tokens past)
    (conforms : Conforms burst slack (past ++ charge :: later)) :
    charge.served = true ∧ Covered burst slack charge.left (past ++ [charge]) := by
  have left : charge.served = true → charge.filled - 1 - slack ≤ charge.left := by
    intro paid
    have near := (abs_le.mp (follows.spent paid)).1
    linarith
  have restart : burst ≤ charge.filled →
      charge.served = true ∧ Covered burst slack charge.left (past ++ [charge]) := by
    intro full
    have paid := follows.verdict.mpr (least.trans full)
    refine ⟨paid, .inr ⟨past, charge, [], rfl, ?_⟩⟩
    have kept := left paid
    simp only [gains_nil, List.length_nil, Nat.cast_zero]
    linarith
  rcases follows.floor with full | enough
  · exact restart full
  · rcases covered with ⟨_, full⟩ | ⟨earlier, first, rest, rfl, covered⟩
    · exact restart (follows.full full)
    · have window := conforms earlier first (rest ++ [charge]) later (by simp)
      simp only [List.length_append, List.length_singleton, gains_append, gains_cons, gains_nil]
        at window
      push_cast at window
      have paid : charge.served = true := by
        apply follows.verdict.mpr
        linarith
      have kept := left paid
      refine ⟨paid, .inr ⟨earlier, first, rest ++ [charge], by simp, ?_⟩⟩
      simp only [List.length_append, List.length_singleton, gains_append, gains_cons, gains_nil]
      push_cast
      linarith

theorem Run.all_served (run : Run burst slack tokens charges) (least : 1 ≤ burst)
    {past : List (Charge K)} (covered : Covered burst slack tokens past)
    (conforms : Conforms burst slack (past ++ charges)) :
    ∀ charge ∈ charges, charge.served = true := by
  induction run generalizing past with
  | nil => simp
  | @cons tokens charge rest first later ih =>
      obtain ⟨paid, next⟩ := first.covered least covered conforms
      have others := ih next (by simpa using conforms)
      simpa using ⟨paid, others⟩

end DjApp.Library.TokenBucket
