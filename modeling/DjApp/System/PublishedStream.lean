import DjApp.Client.PublisherStream
import DjApp.Server.BucketBounds

/-! The stream of a publisher against the rate limit of the server: what two throttled decks
send is never dropped. -/

set_option autoImplicit false

namespace DjApp.System

open Library
open Library.BinaryRounding (double)
open Client Client.SyncPublisher
open Server

/-- The times a `Date` of the server can hold. -/
def IsDate (time : ℤ) : Prop := |time| ≤ 8640000000000000

/-- When the server charges what a run sends: its clock reads whole milliseconds, `offset`
apart from the clock of the client. -/
def serverTimes (offset : ℚ) (inputs : List PublisherInput) : List ℤ :=
  (sentStream (publisherTrace inputs)).map fun sent => ⌊sent.time + offset⌋

section Stream

variable (offset : ℚ) (inputs : List PublisherInput)

/-- A window of the server's clock lies in one of the client's that is a millisecond longer. -/
theorem within_floor {start : ℤ} {length : ℕ} {time : ℚ}
    (inside : within start length ⌊time + offset⌋ = true) :
    start - offset ≤ time ∧ time ≤ start - offset + (length + 1) := by
  obtain ⟨early, late⟩ := within_eq_true_iff.mp inside
  have begins : (start : ℚ) ≤ time + offset := Int.le_floor.mp early
  have ends : time + offset < start + length + 1 := by
    exact_mod_cast Int.floor_lt.mp (Int.lt_add_one_of_le late)
  constructor <;> linarith

theorem arrivedWithin_serverTimes_le (start : ℤ) (length : ℕ) :
    (arrivedWithin (serverTimes offset inputs) start length : ℚ) ≤ 2 + 60 * (length + 1) / 1000 := by
  let stream := sentStream (publisherTrace inputs)
  have shared : arrivedWithin (serverTimes offset inputs) start length ≤
      sendsWithin .A stream (start - offset) (length + 1) +
        sendsWithin .B stream (start - offset) (length + 1) := by
    rw [arrivedWithin, serverTimes, List.countP_map,
      List.countP_eq_countP_filter_add _ _ (·.delta.deck = .A), List.countP_filter,
      List.countP_filter]
    refine Nat.add_le_add ?_ ?_
    · apply List.countP_mono_left
      intro sent _ found
      simp only [Function.comp_apply, Bool.and_eq_true, decide_eq_true_eq] at found ⊢
      exact ⟨found.2, within_floor offset found.1⟩
    · apply List.countP_mono_left
      intro sent _ found
      simp only [Function.comp_apply, Bool.and_eq_true, decide_eq_true_eq] at found ⊢
      refine ⟨?_, within_floor offset found.1⟩
      cases deck : sent.delta.deck <;> simp_all
  have nonneg : (0 : ℚ) ≤ length + 1 := by positivity
  have share : ((length + 1 : ℚ)) / kMinIntervalMs ≤ (length + 1) / (1000 / 30) :=
    div_le_div_of_nonneg_left nonneg (by norm_num) le_kMinIntervalMs
  have first := sendsWithin_le inputs .A (start - offset) nonneg
  have second := sendsWithin_le inputs .B (start - offset) nonneg
  have total : (arrivedWithin (serverTimes offset inputs) start length : ℚ) ≤
      sendsWithin .A stream (start - offset) (length + 1) +
        sendsWithin .B stream (start - offset) (length + 1) := by
    exact_mod_cast shared
  linarith

theorem serverTimes_ordered (ordered : (inputs.map (·.time)).IsChain (· ≤ ·)) :
    (serverTimes offset inputs).Pairwise (· ≤ ·) := by
  refine List.pairwise_map.mpr ((sentStream_ordered inputs ordered).imp fun le => ?_)
  exact Int.floor_le_floor (by linarith)

end Stream

section Served

variable {offset : ℚ} {inputs : List PublisherInput} {arrivals : List ℤ}

/-- However long the connection lasts, the rounding of the bucket stays within its burst. -/
theorem arrivedWithin_fits (heard : arrivals.Sublist (serverTimes offset inputs))
    (dates : ∀ time ∈ arrivals, IsDate time) (start : ℤ) (length : ℕ) :
    (arrivedWithin arrivals start length : ℚ) +
        2 * Fine.slack (2 ^ (-53 : ℤ)) defaultRateLimit.burst *
          (arrivedWithin arrivals start length - 1 : ℕ) ≤ defaultRateLimit.allowance length := by
  have few : ∀ start length,
      (arrivedWithin arrivals start length : ℚ) ≤ 2 + 60 * (length + 1) / 1000 := by
    intro start length
    refine le_trans ?_ (arrivedWithin_serverTimes_le offset inputs start length)
    exact_mod_cast heard.countP_le
  have all : arrivedWithin arrivals start length ≤
      arrivedWithin arrivals (-8640000000000000) 17280000000000000 := by
    refine (List.countP_le_length).trans_eq (List.countP_eq_length.mpr fun time member => ?_).symm
    obtain ⟨early, late⟩ := abs_le.mp (dates time member)
    exact within_eq_true_iff.mpr ⟨early, by push_cast; omega⟩
  have total := few (-8640000000000000) 17280000000000000
  have rest : ((arrivedWithin arrivals start length - 1 : ℕ) : ℚ) ≤ 1036800000000003 := by
    have counted : (arrivedWithin arrivals start length : ℚ) ≤
        arrivedWithin arrivals (-8640000000000000) 17280000000000000 := by exact_mod_cast all
    have dropped : ((arrivedWithin arrivals start length - 1 : ℕ) : ℚ) ≤
        arrivedWithin arrivals start length := by exact_mod_cast Nat.sub_le _ _
    push_cast at total
    linarith
  have errors : 2 * Fine.slack (2 ^ (-53 : ℤ)) 120 *
      ((arrivedWithin arrivals start length - 1 : ℕ) : ℚ) ≤ 117 :=
    calc _ ≤ 2 * Fine.slack (2 ^ (-53 : ℤ)) 120 * (1036800000000003 : ℚ) :=
          mul_le_mul_of_nonneg_left rest (by norm_num [Fine.slack])
      _ ≤ 117 := by norm_num [Fine.slack]
  calc _ ≤ (2 + 60 * (length + 1) / 1000 + 117 : ℚ) := add_le_add (few start length) errors
    _ ≤ 120 + 60 * length / 1000 := by linarith

theorem serverTimes_served (ordered : (inputs.map (·.time)).IsChain (· ≤ ·))
    (heard : arrivals.Sublist (serverTimes offset inputs)) {connectedAt : ℤ}
    (since : ∀ time ∈ arrivals, connectedAt ≤ time) (dates : ∀ time ∈ arrivals, IsDate time) :
    ∀ row ∈ frameTrace double defaultRateLimit connectedAt arrivals, isServed row = true := by
  have admits : Admits double (2 ^ (-53 : ℤ)) (2 ^ (-1075 : ℤ)) defaultRateLimit :=
    double_admits (by norm_num [defaultRateLimit]) (by norm_num [defaultRateLimit])
      ⟨120, 0, by decide, by decide, by norm_num [defaultRateLimit]⟩
  have sorted := List.pairwise_cons.mpr
    ⟨since, (serverTimes_ordered offset inputs ordered).sublist heard⟩
  exact admits.conforming (List.isChain_iff_pairwise.mpr sorted) (arrivedWithin_fits heard dates)

end Served

/-- Every run of the publisher: nothing it is told of is lost, what it holds back is waited
for, each deck keeps to its interval, and the server drops none of it. -/
theorem publisher_stream {inputs : List PublisherInput}
    (ordered : (inputs.map (·.time)).IsChain (· ≤ ·)) :
    (∀ base : Decks,
      (publisherAfter inputs).settle
          (base.overlayAll ((sentStream (publisherTrace inputs)).map (·.delta))) =
        base.overlayAll (localDeltas (publisherTrace inputs))) ∧
      (∀ deck, ((publisherAfter inputs).pending deck).isSome = true →
        (publisherAfter inputs).timerRunning = true) ∧
      (∀ deck start length, 0 ≤ length →
        (sendsWithin deck (sentStream (publisherTrace inputs)) start length : ℚ) ≤
          1 + length / kMinIntervalMs) ∧
      ∀ offset connectedAt arrivals, arrivals.Sublist (serverTimes offset inputs) →
        (∀ time ∈ arrivals, connectedAt ≤ time) → (∀ time ∈ arrivals, IsDate time) →
          ∀ row ∈ frameTrace double defaultRateLimit connectedAt arrivals, isServed row = true := by
  refine ⟨sentStream_settled inputs, publisherAfter_timerCovers inputs, ?_, ?_⟩
  · intro deck start length nonneg
    exact sendsWithin_le inputs deck start nonneg
  · intro offset connectedAt arrivals heard since dates
    exact serverTimes_served ordered heard since dates

/-- Two changes of one deck within an interval; the timer sends the second. -/
def twoChanges : List PublisherInput :=
  [⟨0, .setConnected true⟩, ⟨0, .setRole .controller⟩,
    ⟨0, .notify ⟨{ deck := .A, playing := some true }, {}, .own⟩⟩,
    ⟨10, .notify ⟨{ deck := .A, playing := some false }, {}, .own⟩⟩, ⟨34, .timerCallback⟩]

theorem publisher_stream_twoChanges :
    serverTimes 0 twoChanges = [0, 34] ∧
      ∀ row ∈ frameTrace double defaultRateLimit 0 [0, 34], isServed row = true := by
  have times : serverTimes 0 twoChanges = [0, 34] := by decide +kernel
  obtain ⟨_, _, _, served⟩ := @publisher_stream twoChanges (by decide +kernel)
  exact ⟨times, served 0 0 [0, 34] (by rw [times]) (by decide) (by unfold IsDate; decide)⟩

end DjApp.System
