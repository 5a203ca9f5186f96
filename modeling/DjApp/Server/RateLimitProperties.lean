import DjApp.Server.RateLimit

/-! Under the default rate limit a token comes back long before the ban is due, so
that a flood is always served some frame that resets the clock of the ban. -/

set_option autoImplicit false

namespace DjApp.Server

open Library
open Library.BinaryRounding (double)

/-- What the bound needs of the rounding: it does not cross small multiples of 1/1024. -/
def KeepsGrid (fl : ℚ → ℚ) : Prop :=
  ∀ (n : ℕ) (value : ℚ), n ≤ 1080 → (n : ℚ) / 1024 ≤ value → (n : ℚ) / 1024 ≤ fl value

theorem double_keepsGrid : KeepsGrid double := by
  intro n value small below
  refine BinaryRounding.representable_le_round_of_le _ (by decide) ?_ below
  refine ⟨n, -10, ?_, by decide, ?_⟩
  · rw [abs_of_nonneg (Int.natCast_nonneg n)]
    exact_mod_cast small.trans (by norm_num [BinaryRounding.binary64])
  · norm_num [div_eq_mul_inv]

/-- The tokens that `ms` milliseconds of refill are worth at the least, up to one token. -/
def recovered (ms : ℕ) : ℚ := ((60 * min ms 18 : ℕ) : ℚ) / 1024

theorem one_le_recovered {ms : ℕ} (long : 18 ≤ ms) : 1 ≤ recovered ms := by
  simp only [recovered, min_eq_right long]
  norm_num

theorem KeepsGrid.recovered_le {fl : ℚ → ℚ} (keeps : KeepsGrid fl) {ms : ℕ} {value : ℚ}
    (below : recovered ms ≤ value) : recovered ms ≤ fl value :=
  keeps (60 * min ms 18) value (by omega) below

theorem recovered_nonneg (ms : ℕ) : 0 ≤ recovered ms := by
  unfold recovered
  positivity

theorem recovered_add_le (earlier later : ℕ) :
    recovered (earlier + later) ≤ recovered earlier + recovered later := by
  unfold recovered
  rw [← add_div]
  refine div_le_div_of_nonneg_right ?_ (by norm_num)
  exact_mod_cast (by omega : 60 * min (earlier + later) 18 ≤ 60 * min earlier 18 + 60 * min later 18)

/-- One refill adds at least what its time is worth. -/
theorem KeepsGrid.refill_gain {fl : ℚ → ℚ} (keeps : KeepsGrid fl) (earlier later : ℕ) {tokens : ℚ}
    (enough : recovered earlier ≤ tokens) :
    recovered (earlier + later) ≤
      min defaultRateLimit.burst
        (fl (tokens + fl (fl (later / 1000) * defaultRateLimit.sustainedPerSecond))) := by
  have seconds : ((min later 18 : ℕ) : ℚ) / 1024 ≤ fl (later / 1000) := by
    apply keeps _ _ (by omega)
    have capped : ((min later 18 : ℕ) : ℚ) ≤ later := by exact_mod_cast min_le_left later 18
    have nonneg : (0 : ℚ) ≤ later := by positivity
    rw [div_le_div_iff₀ (by norm_num) (by norm_num)]
    linarith
  have gained : recovered later ≤ fl (fl (later / 1000) * defaultRateLimit.sustainedPerSecond) := by
    apply keeps.recovered_le
    simp only [recovered, defaultRateLimit]
    push_cast at seconds ⊢
    linarith
  have total := (recovered_add_le earlier later).trans (add_le_add enough gained)
  refine le_min ?_ (keeps.recovered_le total)
  simp only [recovered, defaultRateLimit]
  rw [div_le_iff₀ (by norm_num)]
  exact_mod_cast (by omega : 60 * min (earlier + later) 18 ≤ 120 * 1024)

/-- Since the first dropped frame of a deficit the bucket has been filling again. -/
structure Recovering (record : Record) : Prop where
  admitted : record.ejected = false
  nonneg : 0 ≤ record.tokens
  deficit : ∀ since, record.rateLimitedSince = some since → record.tokens < 1 ∧
    ∃ ms : ℕ, record.lastRefillMs = since + ms ∧ recovered ms ≤ record.tokens

/-- The record between the refill of a frame and the verdict on it. -/
structure Refilled (record filled : Record) (now : ℤ) : Prop where
  instant : filled.lastRefillMs = now
  sameClock : filled.rateLimitedSince = record.rateLimitedSince
  nonneg : 0 ≤ filled.tokens
  deficit : ∀ since, filled.rateLimitedSince = some since →
    ∃ ms : ℕ, now = since + ms ∧ recovered ms ≤ filled.tokens

theorem Recovering.refill {fl : ℚ → ℚ} (keeps : KeepsGrid fl) {record : Record}
    (recovering : Recovering record) {now : ℤ} (later : record.lastRefillMs ≤ now) :
    Refilled record (refill fl defaultRateLimit record now) now := by
  obtain ⟨elapsed, rfl⟩ := Int.le.dest later
  by_cases still : elapsed = 0
  · subst still
    have unchanged : Server.refill fl defaultRateLimit record (record.lastRefillMs + (0 : ℕ)) =
        record := by
      simp [Server.refill]
    rw [unchanged]
    refine ⟨by simp, rfl, recovering.nonneg, fun since limited => ?_⟩
    obtain ⟨_, ms, clock, enough⟩ := recovering.deficit since limited
    exact ⟨ms, by simpa using clock, enough⟩
  · have passed : ¬ ((elapsed : ℤ) ≤ 0) := by omega
    simp only [Server.refill, add_sub_cancel_left, passed, ↓reduceIte, Int.cast_natCast]
    refine ⟨rfl, rfl, ?_, fun since limited => ?_⟩
    · have start : recovered 0 ≤ record.tokens := by simpa [recovered] using recovering.nonneg
      exact (recovered_nonneg _).trans (keeps.refill_gain 0 elapsed start)
    · obtain ⟨_, ms, clock, enough⟩ := recovering.deficit since limited
      refine ⟨ms + elapsed, ?_, keeps.refill_gain ms elapsed enough⟩
      rw [clock]
      push_cast
      ring

/-- No frame of the default limit is answered with a ban: a deficit is over, and its
clock reset, within 18 ms. -/
theorem Recovering.charge {fl : ℚ → ℚ} (keeps : KeepsGrid fl) {record : Record}
    (recovering : Recovering record) {now : ℤ} (later : record.lastRefillMs ≤ now) :
    Recovering (charge fl defaultRateLimit record now).1 ∧
      (charge fl defaultRateLimit record now).1.lastRefillMs = now ∧
      (charge fl defaultRateLimit record now).2.banned = false := by
  have filled := recovering.refill keeps later
  simp only [Server.charge]
  generalize Server.refill fl defaultRateLimit record now = bucket at filled
  by_cases served : 1 ≤ bucket.tokens
  · have rest : 0 ≤ fl (bucket.tokens - 1) := by
      have kept := keeps 0 (bucket.tokens - 1) (by norm_num) (by norm_num; linarith)
      simpa using kept
    simp only [served, decide_true, ↓reduceIte, Option.any_none]
    exact ⟨⟨rfl, rest, by simp⟩, filled.instant, trivial⟩
  · have short : bucket.tokens < 1 := not_le.mp served
    -- The clock of the deficit shows less time than one token takes to come back.
    obtain ⟨ms, clock, enough⟩ : ∃ ms : ℕ,
        now = bucket.rateLimitedSince.getD now + ms ∧ recovered ms ≤ bucket.tokens := by
      cases limited : bucket.rateLimitedSince with
      | none => exact ⟨0, by simp, by simpa [recovered] using filled.nonneg⟩
      | some since => exact filled.deficit since limited
    have brief : ms < 18 := by
      by_contra long
      exact absurd ((one_le_recovered (not_lt.mp long)).trans enough) served
    have tolerated : ¬ (defaultRateLimit.banAfterMs <
        ((now - bucket.rateLimitedSince.getD now : ℤ) : ℚ)) := by
      have waited : now - bucket.rateLimitedSince.getD now = ms := by omega
      rw [waited, not_lt]
      change ((ms : ℤ) : ℚ) ≤ 5000
      exact_mod_cast (by omega : ms ≤ 5000)
    simp only [served, decide_false, Bool.false_eq_true, ↓reduceIte, Option.any_some, tolerated]
    refine ⟨⟨rfl, filled.nonneg, fun since limited => ?_⟩, filled.instant, trivial⟩
    obtain rfl := Option.some.inj limited
    exact ⟨short, ms, filled.instant.trans clock, enough⟩

/-- In a run at nondecreasing times no frame is answered with a ban. -/
theorem recovering_run {fl : ℚ → ℚ} (keeps : KeepsGrid fl) {record : Record}
    (recovering : Recovering record) (arrivals : List ℤ)
    (ordered : (record.lastRefillMs :: arrivals).IsChain (· ≤ ·)) :
    ∀ row ∈ Machine.trace (onFrame fl defaultRateLimit) record arrivals,
      ∃ charge, row.output = some charge ∧ charge.banned = false := by
  induction arrivals generalizing record with
  | nil => simp
  | cons now rest ih =>
      rw [List.isChain_cons_cons] at ordered
      obtain ⟨next, instant, tolerated⟩ := recovering.charge keeps ordered.1
      intro row member
      simp only [Machine.trace, Machine.entry, onFrame, recovering.admitted, Bool.false_eq_true,
        ↓reduceIte, List.mem_cons] at member
      rcases member with rfl | later
      · exact ⟨_, rfl, tolerated⟩
      · exact ih next (by rw [instant]; exact ordered.2) row later

section Floods

variable (fl : ℚ → ℚ) (rateLimit : RateLimit) (connectedAt : ℤ)

/-- Frames that follow one another at less than half of a token's refill time, for
longer than the ban takes, the first of them dropped. -/
structure SustainedFlood (earlier flood : List ℤ) : Prop where
  dropped : ∃ start ∈ flood.head?,
    (onFrame fl rateLimit (recordAfter fl rateLimit connectedAt earlier) start).2.any
      (!·.served) = true
  dense : flood.IsChain fun now next =>
    ((next - now : ℤ) : ℚ) < 1000 / rateLimit.sustainedPerSecond / 2
  long : ∃ start ∈ flood.head?, ∃ last ∈ flood.getLast?,
    rateLimit.banAfterMs < ((last - start : ℤ) : ℚ)

/-- Some frame up to the end of the flood is answered with the ban. -/
def FloodBanned (earlier flood : List ℤ) : Prop :=
  ∃ row ∈ frameTrace fl rateLimit connectedAt (earlier ++ flood),
    row.output.any (·.banned) = true

end Floods

/-- Under the default limit no frame at all is answered with the ban. -/
theorem not_floodBanned (connectedAt : ℤ) (earlier flood : List ℤ)
    (ordered : (connectedAt :: earlier ++ flood).IsChain (· ≤ ·)) :
    ¬ FloodBanned double defaultRateLimit connectedAt earlier flood := by
  rintro ⟨row, member, banned⟩
  have start : Recovering (connected defaultRateLimit connectedAt) :=
    ⟨rfl, by norm_num [connected, defaultRateLimit], by simp [connected]⟩
  obtain ⟨charge, answered, tolerated⟩ :=
    recovering_run double_keepsGrid start _ ordered row member
  simp [answered, tolerated] at banned

/-- Frames every 8 ms for more than five seconds, once the burst is used up. -/
def steadyFlood : List ℤ := (List.range 627).map fun i => 8 * i

theorem steadyFlood_ordered : ((0 : ℤ) :: List.replicate 120 0 ++ steadyFlood).IsChain (· ≤ ·) := by
  decide +kernel

theorem steadyFlood_sustained :
    SustainedFlood double defaultRateLimit 0 (List.replicate 120 0) steadyFlood where
  dropped := by decide +kernel
  dense := by decide +kernel
  long := by decide +kernel

/-- A sustained flood is never banned, whenever it comes and however long it lasts. -/
theorem sustained_flood_not_banned (connectedAt : ℤ) (earlier flood : List ℤ)
    (ordered : (connectedAt :: earlier ++ flood).IsChain (· ≤ ·)) :
    SustainedFlood double defaultRateLimit connectedAt earlier flood →
      ¬ FloodBanned double defaultRateLimit connectedAt earlier flood :=
  fun _ => not_floodBanned connectedAt earlier flood ordered

theorem sustained_flood_not_banned_steady :
    ¬ FloodBanned double defaultRateLimit 0 (List.replicate 120 0) steadyFlood :=
  sustained_flood_not_banned 0 _ _ steadyFlood_ordered steadyFlood_sustained

theorem sustained_flood_banned_false :
    ¬ ∀ connectedAt earlier flood, (connectedAt :: earlier ++ flood).IsChain (· ≤ ·) →
      SustainedFlood double defaultRateLimit connectedAt earlier flood →
        FloodBanned double defaultRateLimit connectedAt earlier flood := by
  intro bans
  have banned := bans 0 _ _ steadyFlood_ordered steadyFlood_sustained
  exact not_floodBanned 0 _ _ steadyFlood_ordered banned

end DjApp.Server
