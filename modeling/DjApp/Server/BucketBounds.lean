import DjApp.Library.RoundingError
import DjApp.Library.TokenBucket
import DjApp.Library.Windows
import DjApp.Server.RateLimit

/-! How exact the token bucket of a connection is: the ceiling of what it serves in a
window, and the arrivals of which it drops none, up to the rounding of its arithmetic. -/

set_option autoImplicit false

namespace DjApp.Server

open Library
open Library.BinaryRounding (binary64 double Representable)

/-!
## What is promised
-/

section Statement

variable (fl : ℚ → ℚ) (rateLimit : RateLimit) (connectedAt : ℤ) (arrivals : List ℤ)

def within (start : ℤ) (length : ℕ) (time : ℤ) : Bool := start ≤ time && time ≤ start + length

def arrivedWithin (start : ℤ) (length : ℕ) : ℕ := arrivals.countP (within start length)

def isServed (row : Machine.Entry Record ℤ (Option Charge)) : Bool := row.output.any (·.served)

def servedWithin (start : ℤ) (length : ℕ) : ℕ :=
  (frameTrace fl rateLimit connectedAt arrivals).countP fun row =>
    within start length row.input && isServed row

/-- What the limit allows in a window of `length` milliseconds. -/
def RateLimit.allowance (length : ℕ) : ℚ :=
  rateLimit.burst + rateLimit.sustainedPerSecond * length / 1000

/-- In no window more frames are served than the limit allows, up to `slack` for each
frame after the first. -/
def ServedCeiling (slack : ℚ) : Prop :=
  ∀ start length, (servedWithin fl rateLimit connectedAt arrivals start length : ℚ) ≤
    rateLimit.allowance length + slack * (arrivedWithin arrivals start length - 1 : ℕ)

/-- If no window has more arrivals than the limit allows, `slack` included, then no frame
is dropped. -/
def ConformingServed (slack : ℚ) : Prop :=
  (∀ start length, (arrivedWithin arrivals start length : ℚ) +
      slack * (arrivedWithin arrivals start length - 1 : ℕ) ≤ rateLimit.allowance length) →
    ∀ row ∈ frameTrace fl rateLimit connectedAt arrivals, isServed row = true

/-- The frames that begin a run of dropped ones, the verdict before the first one given. -/
def runsAfter (servedBefore : Bool) (charges : List Charge) : ℕ :=
  ((servedBefore :: charges.map (·.served)).zip (charges.map (·.served))).countP fun pair =>
    pair.1 && !pair.2

/-- How many maximal runs of dropped frames there are, each counted where it begins. -/
def droppedRuns (charges : List Charge) : ℕ := runsAfter true charges

/-- Every maximal run of dropped frames is answered with one `rate-limited` error. -/
def WarnedOncePerRun : Prop :=
  ((frameTrace fl rateLimit connectedAt arrivals).filterMap (·.output)).countP (·.warned) =
    droppedRuns ((frameTrace fl rateLimit connectedAt arrivals).filterMap (·.output))

end Statement

/-!
## Rounded refills
-/

section Rounded

variable {fl : ℚ → ℚ} {u η : ℚ}

/-- A rounding fine enough for times in milliseconds. -/
structure Fine (fl : ℚ → ℚ) (u η : ℚ) : Prop where
  errs : ErrsBy fl u η
  small : u ≤ 1 / 1024
  tiny : 2 ^ 20 * η ≤ u
  nonneg : 0 ≤ η

theorem double_fine : Fine double (2 ^ (-53 : ℤ)) (2 ^ (-1075 : ℤ)) where
  errs := BinaryRounding.errsBy_round binary64 (by decide)
  small := by norm_num
  tiny := by
    calc (2 : ℚ) ^ 20 * 2 ^ (-1075 : ℤ) = 2 ^ (20 : ℤ) * 2 ^ (-1075 : ℤ) := by norm_num
      _ = 2 ^ (-1055 : ℤ) := by rw [← zpow_add₀ two_ne_zero]; norm_num
      _ ≤ 2 ^ (-53 : ℤ) := zpow_le_zpow_right₀ one_le_two (by norm_num)
  nonneg := (zpow_pos two_pos _).le

namespace Fine

theorem share_nonneg (fine : Fine fl u η) : 0 ≤ u := by
  have tiny := fine.tiny
  have nonneg := fine.nonneg
  linarith

/-- The error of the rounded refill of `seconds` at a rate. -/
theorem product_error (fine : Fine fl u η) {seconds rate : ℚ} (long : 1 / 1000 ≤ seconds)
    (positive : 0 ≤ rate) :
    |fl (fl seconds * rate) - seconds * rate| ≤ 2.01 * u * (seconds * rate) + η := by
  have small := fine.small
  have tiny := fine.tiny
  have share := fine.share_nonneg
  have secondsNonneg : 0 ≤ seconds := le_trans (by norm_num) long
  have least : 1000 * η ≤ u * seconds := by nlinarith
  have first := fine.errs.error seconds
  rw [abs_of_nonneg secondsNonneg] at first
  have roundedNonneg := fine.errs.nonneg seconds secondsNonneg
  have second := fine.errs.error (fl seconds * rate)
  rw [abs_of_nonneg (mul_nonneg roundedNonneg positive)] at second
  obtain ⟨firstLow, firstHigh⟩ := abs_le.mp first
  obtain ⟨secondLow, secondHigh⟩ := abs_le.mp second
  have flLow : seconds * (1 - 1.001 * u) ≤ fl seconds := by linarith
  have flHigh : fl seconds ≤ seconds * (1 + 1.001 * u) := by linarith
  have prodLow := mul_le_mul_of_nonneg_right flLow positive
  have prodHigh := mul_le_mul_of_nonneg_right flHigh positive
  have amount : 0 ≤ seconds * rate := mul_nonneg secondsNonneg positive
  have scaled := mul_le_mul_of_nonneg_left prodHigh share
  have square : u * (u * (seconds * rate)) ≤ u * (seconds * rate) / 1024 := by
    have shareAmount : 0 ≤ u * (seconds * rate) := mul_nonneg share amount
    nlinarith
  rw [abs_le]
  constructor <;> nlinarith

/-- What `refill` makes of a bucket that holds `tokens` and is owed `seconds * rate`. -/
theorem refill_error (fine : Fine fl u η) {seconds rate tokens : ℚ} (long : 1 / 1000 ≤ seconds)
    (positive : 0 ≤ rate) (held : 0 ≤ tokens) :
    |fl (tokens + fl (fl seconds * rate)) - (tokens + seconds * rate)| ≤
      3.1 * u * (tokens + seconds * rate) + 3 * η := by
  have small := fine.small
  have share := fine.share_nonneg
  have least := fine.nonneg
  have secondsNonneg : 0 ≤ seconds := le_trans (by norm_num) long
  have amount : 0 ≤ seconds * rate := mul_nonneg secondsNonneg positive
  have shareAmount : 0 ≤ u * (seconds * rate) := mul_nonneg share amount
  have shareTokens : 0 ≤ u * tokens := mul_nonneg share held
  have product := fine.product_error long positive
  have productNonneg := fine.errs.nonneg _
    (mul_nonneg (fine.errs.nonneg seconds secondsNonneg) positive)
  have sum := fine.errs.error (tokens + fl (fl seconds * rate))
  rw [abs_of_nonneg (add_nonneg held productNonneg)] at sum
  obtain ⟨productLow, productHigh⟩ := abs_le.mp product
  obtain ⟨sumLow, sumHigh⟩ := abs_le.mp sum
  have scaled := mul_le_mul_of_nonneg_left productHigh share
  have square : u * (u * (seconds * rate)) ≤ u * (seconds * rate) / 1024 := by nlinarith
  have cube : u * η ≤ η / 1024 := by nlinarith
  rw [abs_le]
  constructor <;> nlinarith

def slack (u burst : ℚ) : ℚ := 4 * u * burst

theorem slack_nonneg (fine : Fine fl u η) {burst : ℚ} (least : 1 ≤ burst) : 0 ≤ slack u burst := by
  have share := fine.share_nonneg
  unfold slack
  positivity

/-- A full bucket is not filled further, and rounding does not matter beyond. -/
theorem filled_bounds (fine : Fine fl u η) {seconds rate tokens burst : ℚ}
    (long : 1 / 1000 ≤ seconds) (positive : 0 ≤ rate) (held : 0 ≤ tokens) (least : 1 ≤ burst) :
    min burst (fl (tokens + fl (fl seconds * rate))) ≤
        tokens + seconds * rate + slack u burst ∧
      (burst ≤ min burst (fl (tokens + fl (fl seconds * rate))) ∨
        tokens + seconds * rate - slack u burst ≤
          min burst (fl (tokens + fl (fl seconds * rate)))) := by
  have small := fine.small
  have tiny := fine.tiny
  have share := fine.share_nonneg
  have secondsNonneg : 0 ≤ seconds := le_trans (by norm_num) long
  obtain ⟨low, high⟩ := abs_le.mp (fine.refill_error long positive held)
  have shareBurst : u ≤ u * burst := by nlinarith
  rcases le_or_gt (tokens + seconds * rate) (5 / 4 * burst) with inside | beyond
  · have scaled := mul_le_mul_of_nonneg_left inside share
    unfold slack
    refine ⟨(min_le_right _ _).trans (by nlinarith), ?_⟩
    rcases le_total burst (fl (tokens + fl (fl seconds * rate))) with full | short
    · exact .inl (le_min le_rfl full)
    · rw [min_eq_right short]
      exact .inr (by nlinarith)
  · have amount : 0 ≤ tokens + seconds * rate := by nlinarith
    have part : u * (tokens + seconds * rate) ≤ (tokens + seconds * rate) / 1024 := by nlinarith
    have slackNonneg := fine.slack_nonneg least
    refine ⟨(min_le_left _ _).trans (by linarith), .inl (le_min le_rfl ?_)⟩
    nlinarith

end Fine

end Rounded

/-!
## Charges of one record
-/

section Charging

variable (fl : ℚ → ℚ) (rateLimit : RateLimit)

/-- A charge of the connection's bucket. -/
def bucketCharge (record : Record) (now : ℤ) : TokenBucket.Charge ℚ where
  gain := (now - record.lastRefillMs : ℤ) / 1000 * rateLimit.sustainedPerSecond
  filled := (refill fl rateLimit record now).tokens
  served := 1 ≤ (refill fl rateLimit record now).tokens
  left := (charge fl rateLimit record now).1.tokens

/-- The charges of the frames that find the connection not ejected. -/
def bucketCharges (record : Record) : List ℤ → List (TokenBucket.Charge ℚ)
  | [] => []
  | now :: rest =>
      if record.ejected then []
      else bucketCharge fl rateLimit record now ::
        bucketCharges (charge fl rateLimit record now).1 rest

theorem charge_served (record : Record) (now : ℤ) :
    (charge fl rateLimit record now).2.served = (bucketCharge fl rateLimit record now).served := by
  simp only [charge, bucketCharge]
  cases decide (1 ≤ (refill fl rateLimit record now).tokens) <;> rfl

theorem lastRefillMs_charge {record : Record} {now : ℤ} (later : record.lastRefillMs ≤ now) :
    (charge fl rateLimit record now).1.lastRefillMs = now := by
  simp only [charge, refill]
  split
  · omega
  · rfl

/-- What holds of a bucket between its charges. -/
structure Level (burst : ℚ) (record : Record) : Prop where
  nonneg : 0 ≤ record.tokens
  capped : record.tokens ≤ burst

variable {fl rateLimit} {u η : ℚ} {record : Record} {now : ℤ}

/-- What the arithmetic of a rate limit has to meet. -/
structure Admits (fl : ℚ → ℚ) (u η : ℚ) (rateLimit : RateLimit) : Prop where
  fine : Fine fl u η
  least : 1 ≤ rateLimit.burst
  rate : 0 < rateLimit.sustainedPerSecond
  /-- The burst is itself a number of the format. -/
  below : ∀ value, value ≤ rateLimit.burst → fl value ≤ rateLimit.burst
  above : ∀ value, rateLimit.burst ≤ value → rateLimit.burst ≤ fl value

/-- The bucket after its refill. -/
structure Admits.Refilled (u : ℚ) (rateLimit : RateLimit) (tokens gain filled : ℚ) : Prop where
  nonneg : 0 ≤ filled
  capped : filled ≤ rateLimit.burst
  gained : filled ≤ tokens + gain + Fine.slack u rateLimit.burst
  floor : rateLimit.burst ≤ filled ∨ tokens + gain - Fine.slack u rateLimit.burst ≤ filled
  full : rateLimit.burst ≤ tokens → rateLimit.burst ≤ filled

theorem Admits.refilled (admits : Admits fl u η rateLimit) (level : Level rateLimit.burst record)
    (later : record.lastRefillMs ≤ now) :
    Admits.Refilled u rateLimit record.tokens (bucketCharge fl rateLimit record now).gain
      (bucketCharge fl rateLimit record now).filled := by
  have slackNonneg := admits.fine.slack_nonneg admits.least
  have burstNonneg : 0 ≤ rateLimit.burst := zero_le_one.trans admits.least
  obtain ⟨elapsed, rfl⟩ := Int.le.dest later
  unfold bucketCharge refill
  simp only [add_sub_cancel_left]
  split
  · rename_i still
    obtain rfl : elapsed = 0 := by omega
    simp only [Nat.cast_zero, Int.cast_zero, zero_div, zero_mul]
    refine ⟨level.nonneg, level.capped, by linarith, .inr (by linarith), fun full => full⟩
  · rename_i passed
    have long : (1 : ℚ) / 1000 ≤ ((elapsed : ℤ) : ℚ) / 1000 := by
      refine div_le_div_of_nonneg_right ?_ (by norm_num)
      exact_mod_cast (by omega : 1 ≤ elapsed)
    have secondsNonneg : (0 : ℚ) ≤ ((elapsed : ℤ) : ℚ) / 1000 := le_trans (by norm_num) long
    obtain ⟨gained, floor⟩ :=
      admits.fine.filled_bounds long admits.rate.le level.nonneg admits.least
    have product := admits.fine.errs.nonneg _
      (mul_nonneg (admits.fine.errs.nonneg _ secondsNonneg) admits.rate.le)
    refine ⟨?_, min_le_left _ _, gained, floor, fun full => le_min le_rfl ?_⟩
    · exact le_min burstNonneg (admits.fine.errs.nonneg _ (add_nonneg level.nonneg product))
    · exact admits.above _ (by linarith)

theorem left_of_served (served : (bucketCharge fl rateLimit record now).served = true) :
    (bucketCharge fl rateLimit record now).left =
      fl ((bucketCharge fl rateLimit record now).filled - 1) := by
  simp only [bucketCharge, charge] at served ⊢
  rw [if_pos served]

theorem left_of_dropped (dropped : (bucketCharge fl rateLimit record now).served = false) :
    (bucketCharge fl rateLimit record now).left =
      (bucketCharge fl rateLimit record now).filled := by
  simp only [bucketCharge, charge] at dropped ⊢
  rw [if_neg (by simp [dropped])]

theorem Admits.follows (admits : Admits fl u η rateLimit) (level : Level rateLimit.burst record)
    (later : record.lastRefillMs ≤ now) :
    (bucketCharge fl rateLimit record now).Follows rateLimit.burst
      (Fine.slack u rateLimit.burst) record.tokens := by
  obtain ⟨nonneg, capped, gained, floor, full⟩ := admits.refilled level later
  refine ⟨nonneg, capped, gained, floor, full, decide_eq_true_iff, fun served => ?_,
    left_of_dropped⟩
  have enough : 1 ≤ (bucketCharge fl rateLimit record now).filled := decide_eq_true_iff.mp served
  have share := admits.fine.share_nonneg
  have tiny := admits.fine.tiny
  have least := admits.least
  have error := admits.fine.errs.error ((bucketCharge fl rateLimit record now).filled - 1)
  rw [abs_of_nonneg (sub_nonneg.mpr enough)] at error
  rw [left_of_served served]
  apply error.trans
  have scaled := mul_le_mul_of_nonneg_left capped share
  have shareBurst : u ≤ u * rateLimit.burst := by nlinarith
  unfold Fine.slack
  nlinarith

theorem Admits.level (admits : Admits fl u η rateLimit) (level : Level rateLimit.burst record)
    (later : record.lastRefillMs ≤ now) :
    Level rateLimit.burst (charge fl rateLimit record now).1 := by
  have refilled := admits.refilled level later
  change Level rateLimit.burst
    { (charge fl rateLimit record now).1 with
      tokens := (bucketCharge fl rateLimit record now).left }
  cases served : (bucketCharge fl rateLimit record now).served with
  | false =>
      rw [left_of_dropped served]
      exact ⟨refilled.nonneg, refilled.capped⟩
  | true =>
      have enough : 1 ≤ (bucketCharge fl rateLimit record now).filled :=
        decide_eq_true_iff.mp served
      have capped := refilled.capped
      rw [left_of_served served]
      exact ⟨admits.fine.errs.nonneg _ (by linarith), admits.below _ (by linarith)⟩

theorem Admits.run (admits : Admits fl u η rateLimit) (level : Level rateLimit.burst record)
    {arrivals : List ℤ} (ordered : (record.lastRefillMs :: arrivals).IsChain (· ≤ ·)) :
    TokenBucket.Run rateLimit.burst (Fine.slack u rateLimit.burst) record.tokens
      (bucketCharges fl rateLimit record arrivals) := by
  induction arrivals generalizing record with
  | nil => exact .nil _
  | cons now rest ih =>
      obtain ⟨later, ordered⟩ := List.isChain_cons_cons.mp ordered
      unfold bucketCharges
      split
      · exact .nil _
      · refine .cons (admits.follows level later) (ih (admits.level level later) ?_)
        rw [lastRefillMs_charge fl rateLimit later]
        exact ordered

end Charging

/-!
## Windows of arrivals
-/

section Windows

variable {fl : ℚ → ℚ} {rateLimit : RateLimit} {record : Record}

theorem countP_isServed (record : Record) (arrivals : List ℤ) :
    (Machine.trace (onFrame fl rateLimit) record arrivals).countP isServed =
      TokenBucket.served (bucketCharges fl rateLimit record arrivals) := by
  induction arrivals generalizing record with
  | nil => rfl
  | cons now rest ih =>
      rw [Machine.trace, List.countP_cons]
      unfold bucketCharges
      cases ejected : record.ejected with
      | true =>
          have still : ∀ rest, (Machine.trace (onFrame fl rateLimit) record rest).countP isServed =
              0 := by
            intro rest
            induction rest with
            | nil => rfl
            | cons now rest ih =>
                rw [Machine.trace, List.countP_cons]
                simpa [Machine.entry, onFrame, ejected, isServed] using ih
          simpa [Machine.entry, onFrame, ejected, isServed] using still rest
      | false =>
          have answered : onFrame fl rateLimit record now =
              ((charge fl rateLimit record now).1, some (charge fl rateLimit record now).2) := by
            simp [onFrame, ejected]
          rw [answered, ih]
          simp only [Bool.false_eq_true, ↓reduceIte]
          rw [TokenBucket.served_cons, ← charge_served]
          simp only [Machine.entry, answered, isServed, Option.any_some]
          cases (charge fl rateLimit record now).2.served <;> rfl

/-- What is owed over the charges is at most what their time is worth. -/
theorem gains_le (positive : 0 < rateLimit.sustainedPerSecond) {arrivals : List ℤ} {last : ℤ}
    (ordered : (record.lastRefillMs :: arrivals).IsChain (· ≤ ·))
    (bounded : ∀ time ∈ record.lastRefillMs :: arrivals, time ≤ last) :
    TokenBucket.gains (bucketCharges fl rateLimit record arrivals) ≤
      (last - record.lastRefillMs : ℤ) / 1000 * rateLimit.sustainedPerSecond := by
  have worth : ∀ {early late : ℤ}, early ≤ late →
      (0 : ℚ) ≤ (late - early : ℤ) / 1000 * rateLimit.sustainedPerSecond := by
    intro early late le
    have elapsed : (0 : ℚ) ≤ ((late - early : ℤ) : ℚ) := by exact_mod_cast (by omega : 0 ≤ late - early)
    exact mul_nonneg (div_nonneg elapsed (by norm_num)) positive.le
  induction arrivals generalizing record with
  | nil => exact worth (bounded _ (by simp))
  | cons now rest ih =>
      obtain ⟨later, ordered⟩ := List.isChain_cons_cons.mp ordered
      unfold bucketCharges
      split
      · exact worth (bounded _ (by simp))
      · have next := lastRefillMs_charge fl rateLimit later
        have rest := @ih (charge fl rateLimit record now).1 (by rw [next]; exact ordered)
          (by rw [next]; exact fun time member => bounded time (List.mem_cons_of_mem _ member))
        rw [next] at rest
        rw [TokenBucket.gains_cons]
        simp only [bucketCharge]
        push_cast at rest ⊢
        nlinarith

theorem length_bucketCharges_le (fl : ℚ → ℚ) (rateLimit : RateLimit) (record : Record)
    (arrivals : List ℤ) : (bucketCharges fl rateLimit record arrivals).length ≤ arrivals.length := by
  induction arrivals generalizing record with
  | nil => exact le_rfl
  | cons now rest ih =>
      unfold bucketCharges
      split
      · exact Nat.zero_le _
      · exact Nat.succ_le_succ (ih _)

/-- The charges of arrivals that all fall in a window. -/
theorem Admits.served_le {u η : ℚ} (admits : Admits fl u η rateLimit)
    (level : Level rateLimit.burst record) {arrivals : List ℤ} {start : ℤ} {length : ℕ}
    (ordered : (record.lastRefillMs :: arrivals).IsChain (· ≤ ·))
    (inside : ∀ time ∈ arrivals, start ≤ time ∧ time ≤ start + length) :
    (TokenBucket.served (bucketCharges fl rateLimit record arrivals) : ℚ) ≤
      rateLimit.allowance length +
        2 * Fine.slack u rateLimit.burst * (arrivals.length - 1 : ℕ) := by
  have slackNonneg := admits.fine.slack_nonneg admits.least
  have least := admits.least
  have rate := admits.rate
  have allowed : (0 : ℚ) ≤ rateLimit.allowance length := by
    unfold RateLimit.allowance
    positivity
  have run := admits.run level ordered
  cases arrivals with
  | nil =>
      simp only [bucketCharges, TokenBucket.served_nil, Nat.cast_zero]
      positivity
  | cons now rest =>
      obtain ⟨later, ordered⟩ := List.isChain_cons_cons.mp ordered
      unfold bucketCharges at run ⊢
      split
      · simp only [TokenBucket.served_nil, Nat.cast_zero]
        positivity
      · rename_i unejected
        rw [if_neg unejected] at run
        have next := lastRefillMs_charge fl rateLimit later
        have served := run.served_le_burst slackNonneg
        have owed := @gains_le fl rateLimit (charge fl rateLimit record now).1 rate rest
          (start + length) (by rw [next]; exact ordered)
          (by rw [next]; exact fun time member => (inside time member).2)
        have few : ((bucketCharges fl rateLimit (charge fl rateLimit record now).1 rest).length : ℚ) ≤
            rest.length := by
          exact_mod_cast length_bucketCharges_le fl rateLimit _ rest
        have errors := mul_le_mul_of_nonneg_left few (mul_nonneg zero_le_two slackNonneg)
        have early : start ≤ now := (inside now (by simp)).1
        have duration : ((start + length - now : ℤ) : ℚ) ≤ length := by
          exact_mod_cast (by omega : start + length - now ≤ length)
        have worth := mul_le_mul_of_nonneg_right duration rate.le
        rw [next] at owed
        rw [List.length_cons, Nat.add_sub_cancel]
        unfold RateLimit.allowance
        linarith

theorem run_level {u η : ℚ} (admits : Admits fl u η rateLimit)
    (level : Level rateLimit.burst record) {earlier later : List ℤ}
    (ordered : (record.lastRefillMs :: (earlier ++ later)).Pairwise (· ≤ ·)) :
    Level rateLimit.burst (Machine.run (onFrame fl rateLimit) record earlier) ∧
      ((Machine.run (onFrame fl rateLimit) record earlier).lastRefillMs :: later).Pairwise
        (· ≤ ·) := by
  induction earlier generalizing record with
  | nil => exact ⟨level, ordered⟩
  | cons now rest ih =>
      obtain ⟨least, others⟩ := List.pairwise_cons.mp ordered
      have due : record.lastRefillMs ≤ now := least now (by simp)
      rw [Machine.run]
      cases ejected : record.ejected with
      | true =>
          simp only [onFrame, ejected, ↓reduceIte]
          refine ih level (List.pairwise_cons.mpr ⟨fun time member => ?_, ?_⟩)
          · exact least time (List.mem_cons_of_mem _ member)
          · exact (List.pairwise_cons.mp others).2
      | false =>
          simp only [onFrame, ejected, Bool.false_eq_true, ↓reduceIte]
          apply ih (admits.level level due)
          rw [lastRefillMs_charge fl rateLimit due]
          exact others

theorem level_connected {u η : ℚ} (admits : Admits fl u η rateLimit) (connectedAt : ℤ) :
    Level rateLimit.burst (connected rateLimit connectedAt) :=
  ⟨zero_le_one.trans admits.least, le_rfl⟩

section Parts

variable {arrivals : List ℤ} {start : ℤ} {length : ℕ}

theorem within_eq_true_iff {time : ℤ} :
    within start length time = true ↔ start ≤ time ∧ time ≤ start + length := by
  simp [within]

theorem countP_outside (record : Record)
    (outside : ∀ time ∈ arrivals, ¬ (start ≤ time ∧ time ≤ start + length)) :
    ((Machine.trace (onFrame fl rateLimit) record arrivals).countP fun row =>
      within start length row.input && isServed row) = 0 := by
  rw [List.countP_eq_zero]
  intro row member contra
  rw [Bool.and_eq_true, within_eq_true_iff] at contra
  exact outside row.input (Machine.input_mem _ member) contra.1

theorem countP_inside (record : Record)
    (inside : ∀ time ∈ arrivals, start ≤ time ∧ time ≤ start + length) :
    ((Machine.trace (onFrame fl rateLimit) record arrivals).countP fun row =>
      within start length row.input && isServed row) =
        TokenBucket.served (bucketCharges fl rateLimit record arrivals) := by
  rw [← countP_isServed]
  apply List.countP_congr
  intro row member
  have inTime := within_eq_true_iff.mpr (inside row.input (Machine.input_mem _ member))
  rw [inTime, Bool.true_and]

end Parts

theorem Admits.ceiling {u η : ℚ} (admits : Admits fl u η rateLimit) {connectedAt : ℤ}
    {arrivals : List ℤ} (ordered : (connectedAt :: arrivals).IsChain (· ≤ ·)) :
    ServedCeiling fl rateLimit connectedAt arrivals (2 * Fine.slack u rateLimit.burst) := by
  intro start length
  have sorted := List.isChain_iff_pairwise.mp ordered
  obtain ⟨before, inside, after, rfl, early, inTime, late⟩ :=
    Windows.exists_window (List.pairwise_cons.mp sorted).2 start (start + length)
  rw [List.append_assoc] at sorted
  obtain ⟨level, next⟩ := run_level admits (level_connected admits connectedAt) sorted
  have insideOrdered := List.isChain_iff_pairwise.mpr
    (next.sublist ((List.sublist_append_left inside after).cons_cons _))
  have served := admits.served_le level insideOrdered inTime
  have counted : servedWithin fl rateLimit connectedAt (before ++ inside ++ after) start length =
      TokenBucket.served (bucketCharges fl rateLimit
        (Machine.run (onFrame fl rateLimit) (connected rateLimit connectedAt) before) inside) := by
    rw [servedWithin, frameTrace, List.append_assoc, Machine.trace_append, Machine.trace_append,
      List.countP_append, List.countP_append,
      countP_outside _ fun time member both => absurd both.1 (not_le.mpr (early time member)),
      countP_inside _ inTime,
      countP_outside _ fun time member both => absurd both.2 (not_le.mpr (late time member))]
    omega
  have arrived : arrivedWithin (before ++ inside ++ after) start length = inside.length := by
    have none : before.countP (within start length) = 0 := List.countP_eq_zero.mpr
      fun time member contra =>
        absurd (within_eq_true_iff.mp contra).1 (not_le.mpr (early time member))
    have all : inside.countP (within start length) = inside.length :=
      List.countP_eq_length.mpr fun time member => within_eq_true_iff.mpr (inTime time member)
    have past : after.countP (within start length) = 0 := List.countP_eq_zero.mpr
      fun time member contra =>
        absurd (within_eq_true_iff.mp contra).2 (not_le.mpr (late time member))
    rw [arrivedWithin, List.countP_append, List.countP_append, none, all, past]
    omega
  rw [counted, arrived]
  exact served

end Windows

section Conforming

variable {fl : ℚ → ℚ} {rateLimit : RateLimit} {record : Record}

/-- The charges after some of them are those of a later record. -/
theorem bucketCharges_split {arrivals : List ℤ} {earlier later : List (TokenBucket.Charge ℚ)}
    (ordered : (record.lastRefillMs :: arrivals).Pairwise (· ≤ ·))
    (shape : bucketCharges fl rateLimit record arrivals = earlier ++ later) :
    ∃ before after next, arrivals = before ++ after ∧ before.length = earlier.length ∧
      later = bucketCharges fl rateLimit next after ∧
      (∀ time ∈ record.lastRefillMs :: before, time ≤ next.lastRefillMs) ∧
      (next.lastRefillMs :: after).Pairwise (· ≤ ·) ∧
      TokenBucket.gains earlier =
        (next.lastRefillMs - record.lastRefillMs : ℤ) / 1000 * rateLimit.sustainedPerSecond := by
  induction earlier generalizing record arrivals with
  | nil => exact ⟨[], arrivals, record, rfl, rfl, shape.symm, by simp, ordered, by simp⟩
  | cons charge earlier ih =>
      cases arrivals with
      | nil => cases shape
      | cons now rest =>
          unfold bucketCharges at shape
          split at shape
          · cases shape
          · obtain ⟨least, others⟩ := List.pairwise_cons.mp ordered
            have due := lastRefillMs_charge fl rateLimit (least now (by simp))
            obtain ⟨rfl, tail⟩ := List.cons.inj shape
            obtain ⟨before, after, next, rfl, same, rfl, last, sorted, owed⟩ :=
              @ih (Server.charge fl rateLimit record now).1 rest (by rw [due]; exact others) tail
            refine ⟨now :: before, after, next, rfl, by simp [same], rfl, ?_, sorted, ?_⟩
            · rw [due] at last
              have latest := last now (by simp)
              exact List.forall_mem_cons.mpr ⟨(least now (by simp)).trans latest, last⟩
            · rw [TokenBucket.gains_cons, owed, due]
              simp only [bucketCharge]
              push_cast
              ring

theorem Admits.conforms {u η : ℚ} (admits : Admits fl u η rateLimit) {connectedAt : ℤ}
    {arrivals : List ℤ} (ordered : (connectedAt :: arrivals).Pairwise (· ≤ ·))
    (fits : ∀ start length, (arrivedWithin arrivals start length : ℚ) +
      2 * Fine.slack u rateLimit.burst * (arrivedWithin arrivals start length - 1 : ℕ) ≤
        rateLimit.allowance length) :
    TokenBucket.Conforms rateLimit.burst (Fine.slack u rateLimit.burst)
      (bucketCharges fl rateLimit (connected rateLimit connectedAt) arrivals) := by
  intro earlier first rest later shape
  rw [List.append_assoc, List.cons_append] at shape
  obtain ⟨before, after, record, rfl, _, tail, _, ordered, _⟩ := bucketCharges_split ordered shape
  cases after with
  | nil => cases tail
  | cons now after =>
      unfold bucketCharges at tail
      split at tail
      · cases tail
      · obtain ⟨least, ordered⟩ := List.pairwise_cons.mp ordered
        have due := lastRefillMs_charge fl rateLimit (least now (by simp))
        obtain ⟨_, tail⟩ := List.cons.inj tail
        obtain ⟨window, after, last, rfl, same, _, latest, _, owed⟩ :=
          bucketCharges_split (by rw [due]; exact ordered) tail.symm
        rw [due] at latest owed
        have elapsed : now ≤ last.lastRefillMs := latest now (by simp)
        have starts := (List.pairwise_cons.mp ordered).1
        obtain ⟨length, reached⟩ := Int.le.dest elapsed
        have inside : ∀ time ∈ now :: window, within now length time = true := by
          intro time member
          refine within_eq_true_iff.mpr ⟨?_, reached ▸ latest time member⟩
          rcases List.mem_cons.mp member with rfl | member
          · exact le_rfl
          · exact starts time (List.mem_append_left _ member)
        have arrived : rest.length + 1 ≤
            arrivedWithin (before ++ now :: (window ++ after)) now length := by
          have all : (now :: window).countP (within now length) = rest.length + 1 := by
            rw [List.countP_eq_length.mpr inside, List.length_cons, same]
          rw [← all]
          apply List.Sublist.countP_le
          rw [← List.cons_append]
          exact (List.sublist_append_left _ _).trans (List.sublist_append_right _ _)
        have fit := fits now length
        have slackNonneg := admits.fine.slack_nonneg admits.least
        have count : ((rest.length + 1 : ℕ) : ℚ) ≤
            (arrivedWithin (before ++ now :: (window ++ after)) now length : ℚ) := by
          exact_mod_cast arrived
        have others : ((rest.length : ℕ) : ℚ) ≤
            (arrivedWithin (before ++ now :: (window ++ after)) now length - 1 : ℕ) := by
          exact_mod_cast (by omega)
        have errors := mul_le_mul_of_nonneg_left others (mul_nonneg zero_le_two slackNonneg)
        have duration : ((last.lastRefillMs - now : ℤ) : ℚ) = length := by
          exact_mod_cast (by omega : last.lastRefillMs - now = length)
        rw [owed, duration]
        unfold RateLimit.allowance at fit
        push_cast at count
        linarith

theorem isServed_of_all {arrivals : List ℤ} (unejected : record.ejected = false)
    (all : ∀ charge ∈ bucketCharges fl rateLimit record arrivals, charge.served = true) :
    ∀ row ∈ Machine.trace (onFrame fl rateLimit) record arrivals, isServed row = true := by
  induction arrivals generalizing record with
  | nil => simp
  | cons now rest ih =>
      unfold bucketCharges at all
      rw [if_neg (by simp [unejected])] at all
      obtain ⟨first, others⟩ := List.forall_mem_cons.mp all
      rw [← charge_served] at first
      have answered : onFrame fl rateLimit record now =
          ((charge fl rateLimit record now).1, some (charge fl rateLimit record now).2) := by
        simp [onFrame, unejected]
      have still : (charge fl rateLimit record now).1.ejected = false := by
        simp only [charge, Bool.and_eq_true, Bool.not_eq_true'] at first ⊢
        exact first.2
      intro row member
      rw [Machine.trace, List.mem_cons] at member
      rcases member with rfl | member
      · simpa [Machine.entry, answered, isServed] using first
      · rw [answered] at member
        exact ih still others row member

theorem Admits.conforming {u η : ℚ} (admits : Admits fl u η rateLimit) {connectedAt : ℤ}
    {arrivals : List ℤ} (ordered : (connectedAt :: arrivals).IsChain (· ≤ ·)) :
    ConformingServed fl rateLimit connectedAt arrivals (2 * Fine.slack u rateLimit.burst) := by
  intro fits
  have run := admits.run (level_connected admits connectedAt) ordered
  refine isServed_of_all rfl (run.all_served admits.least (.inl ⟨rfl, le_rfl⟩) ?_)
  exact admits.conforms (List.isChain_iff_pairwise.mp ordered) fits

end Conforming

/-!
## Warnings
-/

section Warnings

variable {fl : ℚ → ℚ} {rateLimit : RateLimit}

theorem runsAfter_cons (servedBefore : Bool) (charge : Charge) (rest : List Charge) :
    runsAfter servedBefore (charge :: rest) =
      runsAfter charge.served rest + (servedBefore && !charge.served).toNat := by
  simp only [runsAfter, List.map_cons, List.zip_cons_cons, List.countP_cons]
  cases servedBefore <;> cases charge.served <;> rfl

/-- The clock of a deficit runs exactly while frames are dropped. -/
theorem warned_charge (record : Record) (now : ℤ) :
    (charge fl rateLimit record now).2.warned =
        (record.rateLimitedSince.isNone && !(charge fl rateLimit record now).2.served) ∧
      (charge fl rateLimit record now).1.rateLimitedSince.isNone =
        (charge fl rateLimit record now).2.served := by
  have clock : (refill fl rateLimit record now).rateLimitedSince = record.rateLimitedSince := by
    unfold refill
    dsimp only
    split <;> rfl
  simp only [charge, clock]
  cases decide (1 ≤ (refill fl rateLimit record now).tokens) <;>
    cases record.rateLimitedSince <;> simp

theorem countP_warned (record : Record) (arrivals : List ℤ) :
    ((Machine.trace (onFrame fl rateLimit) record arrivals).filterMap (·.output)).countP
        (·.warned) =
      runsAfter record.rateLimitedSince.isNone
        ((Machine.trace (onFrame fl rateLimit) record arrivals).filterMap (·.output)) := by
  induction arrivals generalizing record with
  | nil => simp [runsAfter]
  | cons now rest ih =>
      rw [Machine.trace]
      cases ejected : record.ejected with
      | true => simpa [Machine.entry, onFrame, ejected] using ih record
      | false =>
          obtain ⟨warned, clock⟩ := @warned_charge fl rateLimit record now
          have next := ih (charge fl rateLimit record now).1
          simp only [Machine.entry, onFrame, ejected, Bool.false_eq_true, ↓reduceIte,
            List.filterMap_cons, List.countP_cons, runsAfter_cons]
          rw [next, clock, warned]
          cases record.rateLimitedSince.isNone && !(charge fl rateLimit record now).2.served <;> rfl

theorem warnedOncePerRun (fl : ℚ → ℚ) (rateLimit : RateLimit) (connectedAt : ℤ)
    (arrivals : List ℤ) : WarnedOncePerRun fl rateLimit connectedAt arrivals :=
  countP_warned (connected rateLimit connectedAt) arrivals

end Warnings

/-!
## Doubles
-/

section Doubles

theorem double_admits {rateLimit : RateLimit} (rate : 0 < rateLimit.sustainedPerSecond)
    (least : 1 ≤ rateLimit.burst) (number : Representable binary64 rateLimit.burst) :
    Admits double (2 ^ (-53 : ℤ)) (2 ^ (-1075 : ℤ)) rateLimit where
  fine := double_fine
  least := least
  rate := rate
  below _ := BinaryRounding.round_le_of_le_representable binary64 (by decide) number
  above _ := BinaryRounding.representable_le_round_of_le binary64 (by decide) number

/-- The bucket is exact up to the rounding of its doubles. -/
theorem tokenBucket_exact {rateLimit : RateLimit} (rate : 0 < rateLimit.sustainedPerSecond)
    (least : 1 ≤ rateLimit.burst) (number : Representable binary64 rateLimit.burst)
    {connectedAt : ℤ} {arrivals : List ℤ} (ordered : (connectedAt :: arrivals).IsChain (· ≤ ·)) :
    ServedCeiling double rateLimit connectedAt arrivals (rateLimit.burst * 2 ^ (-50 : ℤ)) ∧
      ConformingServed double rateLimit connectedAt arrivals (rateLimit.burst * 2 ^ (-50 : ℤ)) ∧
      WarnedOncePerRun double rateLimit connectedAt arrivals := by
  have admits := double_admits rate least number
  have slack : 2 * Fine.slack (2 ^ (-53 : ℤ)) rateLimit.burst =
      rateLimit.burst * 2 ^ (-50 : ℤ) := by
    unfold Fine.slack
    norm_num
    ring
  rw [← slack]
  exact ⟨admits.ceiling ordered, admits.conforming ordered, warnedOncePerRun _ _ _ _⟩

theorem tokenBucket_exact_default :
    ServedCeiling double defaultRateLimit 0 [0, 10] (120 * 2 ^ (-50 : ℤ)) ∧
      ConformingServed double defaultRateLimit 0 [0, 10] (120 * 2 ^ (-50 : ℤ)) ∧
      WarnedOncePerRun double defaultRateLimit 0 [0, 10] :=
  @tokenBucket_exact defaultRateLimit (by norm_num [defaultRateLimit])
    (by norm_num [defaultRateLimit]) ⟨120, 0, by decide, by decide, by norm_num [defaultRateLimit]⟩
    0 [0, 10] (by decide)

theorem thousand_arrivedWithin_le (start : ℤ) (length : ℕ) :
    1000 * arrivedWithin [0, 900, 1000] start length ≤ 2000 + length := by
  simp only [arrivedWithin, List.countP_cons, List.countP_nil, within_eq_true_iff]
  split_ifs <;> omega

/-- Without the slack both bounds fail: a third of a token a second pays a frame after three
seconds, and a tenth of a second's token is short of what it should be. -/
theorem tokenBucket_not_exact :
    ¬ ServedCeiling double ⟨double (1 / 3), 1, 5000⟩ 0 [0, 3000] 0 ∧
      ¬ ConformingServed double ⟨1, 2, 5000⟩ 0 [0, 900, 1000] 0 := by
  constructor
  · intro ceiling
    have bound := ceiling 0 3000
    exact absurd bound (by decide +kernel)
  · intro conforming
    have served := conforming fun start length => by
      have few : ((1000 * arrivedWithin [0, 900, 1000] start length : ℕ) : ℚ) ≤
          ((2000 + length : ℕ) : ℚ) := by
        exact_mod_cast thousand_arrivedWithin_le start length
      push_cast at few
      simp only [RateLimit.allowance, zero_mul, add_zero, one_mul]
      linarith
    have all := List.all_eq_true.mpr served
    exact absurd all (by decide +kernel)

end Doubles

end DjApp.Server
