import DjApp.Client.PublisherProperties
import DjApp.Library.Machine
import DjApp.Library.Windows

/-! Whole runs of the publisher: the changes it is told of and the ticks of its timer, what
it has sent by then, and how often. -/

set_option autoImplicit false

namespace DjApp.Client

open Library
open Library.BinaryRounding (binary64 double Representable)

inductive PublisherEvent where
  | setConnected (connected : Bool)
  | setRole (role : Role)
  | notify (notification : Notification)
  | timerCallback

structure PublisherInput where
  time : ℚ
  event : PublisherEvent

/-- A delta on its way, with the time it was sent. -/
structure SentDelta where
  time : ℚ
  delta : StateDelta

def deltasFor (deck : DeckId) (sent : List StateDelta) : List StateDelta :=
  sent.filter (·.deck = deck)

namespace SyncPublisher

def step (publisher : SyncPublisher) (input : PublisherInput) :
    SyncPublisher × List StateDelta :=
  match input.event with
  | .setConnected connected => ({ publisher with connected := connected }, [])
  | .setRole role => ({ publisher with role := role }, [])
  | .notify notification => publisher.notify input.time notification
  | .timerCallback => publisher.timerCallback input.time

/-- The change an event tells the publisher of: a local one, while it is connected and
controls. -/
def told (publisher : SyncPublisher) : PublisherEvent → List StateDelta
  | .notify notification =>
      if notification.source = .own ∧ publisher.connected = true ∧ publisher.role = .controller then
        [notification.applied]
      else []
  | _ => []

def publisherTrace (inputs : List PublisherInput) :
    List (Machine.Entry SyncPublisher PublisherInput (List StateDelta)) :=
  Machine.trace step {} inputs

def publisherAfter (inputs : List PublisherInput) : SyncPublisher := Machine.run step {} inputs

end SyncPublisher

section Stream

variable (rows : List (Machine.Entry SyncPublisher PublisherInput (List StateDelta)))

def sentStream : List SentDelta :=
  rows.flatMap fun row => row.output.map (SentDelta.mk row.input.time)

def localDeltas : List StateDelta :=
  rows.flatMap fun row => row.before.told row.input.event

end Stream

def sendTimes (deck : DeckId) (stream : List SentDelta) : List ℚ :=
  (stream.filter (·.delta.deck = deck)).map (·.time)

/-- How often a deck sends in the `length` milliseconds from `start`. -/
def sendsWithin (deck : DeckId) (stream : List SentDelta) (start length : ℚ) : ℕ :=
  stream.countP fun sent =>
    sent.delta.deck = deck ∧ start ≤ sent.time ∧ sent.time ≤ start + length

namespace SyncPublisher

theorem le_kMinIntervalMs : 1000 / 30 ≤ kMinIntervalMs := by decide +kernel

theorem kMinIntervalMs_pos : 0 < kMinIntervalMs := lt_of_lt_of_le (by norm_num) le_kMinIntervalMs

/-- The code subtracts doubles. For two readings of a clock that is past the first interval
this decides the throttle as the exact difference does. -/
theorem double_sub_lt_kMinIntervalMs_iff {now last : ℚ} (reading : Representable binary64 now)
    (sent : Representable binary64 last) (ordered : last ≤ now) (past : kMinIntervalMs ≤ last) :
    double (now - last) < kMinIntervalMs ↔ now - last < kMinIntervalMs := by
  rcases le_or_gt now (2 * last) with near | far
  · have exact : double (now - last) = now - last :=
      (reading.sub sent ordered near).round_eq (by decide)
    rw [exact]
  · have beyond : kMinIntervalMs ≤ now - last := by linarith
    have rounded : kMinIntervalMs ≤ double (now - last) :=
      BinaryRounding.representable_le_round_of_le binary64 (by decide)
        (BinaryRounding.round_representable binary64 _) beyond
    exact ⟨fun closed => absurd rounded (not_le.mpr closed),
      fun closed => absurd beyond (not_le.mpr closed)⟩

/-- What one call does for a deck: nothing, or one send outside the deck's window. -/
inductive DeckStep (publisher : SyncPublisher) (now : ℚ) (deck : DeckId)
    (sent : SyncPublisher × List StateDelta) : Prop where
  | quiet (none : deltasFor deck sent.2 = [])
      (clock : sent.1.lastSendMs deck = publisher.lastSendMs deck)
      (before : sent.1.hasSentBefore deck = publisher.hasSentBefore deck) :
      DeckStep publisher now deck sent
  | sends (delta : StateDelta) (one : deltasFor deck sent.2 = [delta])
      (due : publisher.throttled now deck = false) (clock : sent.1.lastSendMs deck = now)
      (before : sent.1.hasSentBefore deck = true) :
      DeckStep publisher now deck sent

variable {publisher : SyncPublisher}

theorem deckStep_send (keyed : publisher.Keyed) (now : ℚ) (own deck : DeckId)
    (due : publisher.throttled now own = false) :
    DeckStep publisher now deck (publisher.send now own) := by
  unfold send
  cases pending : publisher.pending own with
  | none => exact .quiet rfl rfl rfl
  | some delta =>
      have named : delta.deck = own := keyed own delta pending
      by_cases same : deck = own
      · subst same
        exact .sends delta (by simp [deltasFor, named]) due (by simp) (by simp)
      · have other : own ≠ deck := fun equal => same equal.symm
        exact .quiet (by simp [deltasFor, named, other]) (by simp [same]) (by simp [same])

theorem deckStep_maybeSend (keyed : publisher.Keyed) (now : ℚ) (own deck : DeckId) :
    DeckStep publisher now deck (publisher.maybeSend now own) := by
  unfold maybeSend
  split
  · exact .quiet rfl rfl rfl
  · rename_i due
    exact deckStep_send keyed now own deck (by simpa using due)

theorem deckStep_flushDeck (keyed : publisher.Keyed) (now : ℚ) (own deck : DeckId) :
    DeckStep publisher now deck (publisher.flushDeck now own) := by
  unfold flushDeck
  split
  · exact .quiet rfl rfl rfl
  · rename_i due
    exact deckStep_send keyed now own deck (by simpa using due)

theorem flushDeck_other (keyed : publisher.Keyed) (now : ℚ) {own deck : DeckId}
    (other : deck ≠ own) :
    deltasFor deck (publisher.flushDeck now own).2 = [] ∧
      (publisher.flushDeck now own).1.lastSendMs deck = publisher.lastSendMs deck ∧
      (publisher.flushDeck now own).1.hasSentBefore deck = publisher.hasSentBefore deck := by
  unfold flushDeck
  split
  · exact ⟨rfl, rfl, rfl⟩
  · unfold send
    cases pending : publisher.pending own with
    | none => exact ⟨rfl, rfl, rfl⟩
    | some delta =>
        have named : delta.deck = own := keyed own delta pending
        exact ⟨by simp [deltasFor, named, other.symm], by simp [other], by simp [other]⟩

theorem deltasFor_append (deck : DeckId) (first second : List StateDelta) :
    deltasFor deck (first ++ second) = deltasFor deck first ++ deltasFor deck second :=
  List.filter_append ..

theorem deckStep_timerCallback (keyed : publisher.Keyed) (now : ℚ) (deck : DeckId) :
    DeckStep publisher now deck (publisher.timerCallback now) := by
  have keyedBetween := (flushDeck_sends keyed now .A).keyed
  cases deck with
  | A =>
      obtain ⟨none, clock, before⟩ := flushDeck_other keyedBetween now (show DeckId.A ≠ .B by decide)
      cases deckStep_flushDeck keyed now .A .A with
      | quiet noneA clockA beforeA =>
          refine .quiet ?_ (clock.trans clockA) (before.trans beforeA)
          rw [timerCallback, deltasFor_append, noneA, none, List.append_nil]
      | sends delta one due clockA beforeA =>
          refine .sends delta ?_ due (clock.trans clockA) (before.trans beforeA)
          rw [timerCallback, deltasFor_append, one, none, List.append_nil]
  | B =>
      obtain ⟨none, clock, before⟩ := flushDeck_other keyed now (show DeckId.B ≠ .A by decide)
      cases deckStep_flushDeck keyedBetween now .B .B with
      | quiet noneB clockB beforeB =>
          refine .quiet ?_ (clockB.trans clock) (beforeB.trans before)
          rw [timerCallback, deltasFor_append, none, noneB, List.append_nil]
      | sends delta one due clockB beforeB =>
          rw [throttled, clock, before] at due
          refine .sends delta ?_ due clockB beforeB
          rw [timerCallback, deltasFor_append, none, one, List.nil_append]

theorem deckStep_notify (keyed : publisher.Keyed) (now : ℚ) (notification : Notification)
    (deck : DeckId) : DeckStep publisher now deck (publisher.notify now notification) := by
  unfold notify
  split
  · exact .quiet rfl rfl rfl
  · obtain ⟨merged, _, _, shape⟩ := handleLocalDelta_holding keyed now notification.applied
    rw [shape]
    have held :=
      deckStep_maybeSend (keyed_holding keyed merged) now notification.applied.deck deck
    cases held with
    | quiet none clock before => exact .quiet none clock before
    | sends delta one due clock before => exact .sends delta one due clock before

theorem deckStep_step (keyed : publisher.Keyed) (input : PublisherInput) (deck : DeckId) :
    DeckStep publisher input.time deck (publisher.step input) := by
  unfold step
  cases input.event with
  | setConnected connected => exact .quiet rfl rfl rfl
  | setRole role => exact .quiet rfl rfl rfl
  | notify notification => exact deckStep_notify keyed input.time notification deck
  | timerCallback => exact deckStep_timerCallback keyed input.time deck

/-- Each event settles what it tells the publisher of. -/
theorem step_settled (keyed : publisher.Keyed) (input : PublisherInput) :
    (publisher.step input).1.Keyed ∧ ∀ decks : Decks,
      (publisher.step input).1.settle (decks.overlayAll (publisher.step input).2) =
        (publisher.settle decks).overlayAll (publisher.told input.event) := by
  unfold step told
  cases input.event with
  | setConnected connected => exact ⟨keyed, fun _ => rfl⟩
  | setRole role => exact ⟨keyed, fun _ => rfl⟩
  | timerCallback =>
      have sends := timerCallback_sends keyed input.time
      exact ⟨sends.keyed, sends.settled⟩
  | notify notification =>
      dsimp only
      unfold notify
      split
      · rename_i ignored
        rw [if_neg (by rintro ⟨own, connected, role⟩; simp [own, connected, role] at ignored)]
        exact ⟨keyed, fun _ => rfl⟩
      · rename_i heard
        simp only [not_or, ne_eq, not_not, Bool.not_eq_false] at heard
        rw [if_pos heard]
        obtain ⟨kept, settled, _⟩ := handleLocalDelta_settled keyed input.time notification.applied
        exact ⟨kept, settled⟩

/-- The timer runs as long as a deck has something pending. -/
def TimerCovers (publisher : SyncPublisher) : Prop :=
  ∀ deck, (publisher.pending deck).isSome = true → publisher.timerRunning = true

/-- A send needs the timer for the other deck only. -/
theorem timerCovers_send (now : ℚ) (own : DeckId)
    (others : ∀ deck ≠ own, (publisher.pending deck).isSome = true → publisher.timerRunning = true) :
    (publisher.send now own).1.TimerCovers := by
  intro deck pending
  unfold send at pending ⊢
  cases held : publisher.pending own with
  | none =>
      simp only [held] at pending ⊢
      by_cases same : deck = own
      · simp [same, held] at pending
      · exact others deck same pending
  | some delta =>
      simp only [held, Function.update_apply] at pending ⊢
      split at pending
      · cases pending
      · rename_i other
        exact others deck other pending

theorem timerCovers_flushDeck (covers : publisher.TimerCovers) (now : ℚ) (own : DeckId) :
    (publisher.flushDeck now own).1.TimerCovers := by
  unfold flushDeck
  split
  · exact covers
  · exact timerCovers_send now own fun deck _ => covers deck

theorem timerCovers_timerCallback (covers : publisher.TimerCovers) (now : ℚ) :
    (publisher.timerCallback now).1.TimerCovers := by
  have both := timerCovers_flushDeck (timerCovers_flushDeck covers now .A) now .B
  intro deck pending
  have running := both deck pending
  simp only [timerCallback, Bool.and_eq_true, Bool.or_eq_true]
  cases deck with
  | A => exact ⟨running, .inl pending⟩
  | B => exact ⟨running, .inr pending⟩

theorem timerCovers_step (keyed : publisher.Keyed) (covers : publisher.TimerCovers)
    (input : PublisherInput) : (publisher.step input).1.TimerCovers := by
  unfold step
  cases input.event with
  | setConnected connected => exact covers
  | setRole role => exact covers
  | timerCallback => exact timerCovers_timerCallback covers input.time
  | notify notification =>
      dsimp only
      unfold notify
      split
      · exact covers
      · obtain ⟨merged, named, _, shape⟩ :=
          handleLocalDelta_holding keyed input.time notification.applied
        rw [shape, maybeSend]
        split
        · exact fun _ _ => rfl
        · refine timerCovers_send input.time _ fun deck other pending => covers deck ?_
          rwa [pending_holding_of_ne (by rwa [named])] at pending

/-- What a run so far shows of a deck's sends: they are spaced, and the clock of the deck is
that of the last. -/
structure Paced (publisher : SyncPublisher) (deck : DeckId) (times : List ℚ) : Prop where
  spaced : times.IsChain fun earlier later => earlier + kMinIntervalMs ≤ later
  last : times.getLast? =
    if publisher.hasSentBefore deck then some (publisher.lastSendMs deck) else none

theorem Paced.step {deck : DeckId} {times : List ℚ} (paced : publisher.Paced deck times)
    (keyed : publisher.Keyed) (input : PublisherInput) :
    (publisher.step input).1.Paced deck
      (times ++ (deltasFor deck (publisher.step input).2).map fun _ => input.time) := by
  cases deckStep_step keyed input deck with
  | quiet none clock before =>
      rw [none, List.map_nil, List.append_nil]
      exact ⟨paced.spaced, by rw [paced.last, clock, before]⟩
  | sends delta one due clock before =>
      rw [one, List.map_singleton]
      refine ⟨List.isChain_append.mpr ⟨paced.spaced, .singleton _, ?_⟩, ?_⟩
      · intro earlier found later first
        obtain rfl : input.time = later := by simpa using first
        rw [paced.last] at found
        unfold throttled at due
        cases sent : publisher.hasSentBefore deck with
        | false => simp [sent] at found
        | true =>
            simp only [sent, ↓reduceIte, Option.mem_def, Option.some.injEq] at found
            simp only [sent, Bool.true_and, decide_eq_false_iff_not, not_lt] at due
            linarith
      · rw [List.getLast?_append, before, clock]
        rfl

section Runs

theorem keyed_initial : Keyed {} := by
  intro deck delta found
  cases found

theorem timerCovers_initial : TimerCovers {} := by
  intro deck found
  cases found

variable (inputs : List PublisherInput)

theorem publisherAfter_timerCovers : (publisherAfter inputs).TimerCovers :=
  (Machine.run_invariant step (fun publisher => publisher.Keyed ∧ publisher.TimerCovers)
    (fun _ input ⟨keyed, covers⟩ =>
      ⟨(step_settled keyed input).1, timerCovers_step keyed covers input⟩)
    ⟨keyed_initial, timerCovers_initial⟩ inputs).2

theorem sentStream_settled (base : Decks) :
    (publisherAfter inputs).settle
        (base.overlayAll ((sentStream (publisherTrace inputs)).map (·.delta))) =
      base.overlayAll (localDeltas (publisherTrace inputs)) := by
  refine (Machine.history_invariant step (fun history publisher => publisher.Keyed ∧
    publisher.settle (base.overlayAll ((sentStream history).map (·.delta))) =
      base.overlayAll (localDeltas history)) ?_ ?_ inputs).2
  · exact ⟨keyed_initial, rfl⟩
  · rintro history publisher input ⟨keyed, settled⟩
    obtain ⟨kept, effect⟩ := step_settled keyed input
    have sent : (sentStream (history ++ [Machine.entry step publisher input])).map (·.delta) =
        (sentStream history).map (·.delta) ++ (publisher.step input).2 := by
      simp [sentStream, Machine.entry, Function.comp_def]
    have told : localDeltas (history ++ [Machine.entry step publisher input]) =
        localDeltas history ++ publisher.told input.event := by
      simp [localDeltas, Machine.entry]
    refine ⟨kept, ?_⟩
    rw [sent, told, Decks.overlayAll_append, Decks.overlayAll_append, effect, settled]

theorem paced_run (deck : DeckId) :
    (publisherAfter inputs).Paced deck (sendTimes deck (sentStream (publisherTrace inputs))) := by
  refine (Machine.history_invariant step (fun history publisher => publisher.Keyed ∧
    publisher.Paced deck (sendTimes deck (sentStream history))) ?_ ?_ inputs).2
  · exact ⟨keyed_initial, .nil, rfl⟩
  · rintro history publisher input ⟨keyed, paced⟩
    have times : sendTimes deck (sentStream (history ++ [Machine.entry step publisher input])) =
        sendTimes deck (sentStream history) ++
          (deltasFor deck (publisher.step input).2).map fun _ => input.time := by
      simp [sendTimes, sentStream, Machine.entry, deltasFor, List.filter_map, Function.comp_def]
    refine ⟨(step_settled keyed input).1, ?_⟩
    rw [times]
    exact paced.step keyed input

theorem sendTimes_spaced (deck : DeckId) :
    (sendTimes deck (sentStream (publisherTrace inputs))).IsChain
      fun earlier later => earlier + kMinIntervalMs ≤ later :=
  (paced_run inputs deck).spaced

/-- The clock of a deck that has sent is a reading of the run. -/
theorem lastSendMs_mem {deck : DeckId}
    (sent : (publisherAfter inputs).hasSentBefore deck = true) :
    (publisherAfter inputs).lastSendMs deck ∈ inputs.map (·.time) := by
  have last := (paced_run inputs deck).last
  rw [sent, if_pos rfl] at last
  obtain ⟨delta, listed, time⟩ := List.mem_map.mp (List.mem_of_getLast? last)
  obtain ⟨row, member, own⟩ := List.mem_flatMap.mp (List.mem_filter.mp listed).1
  obtain ⟨_, _, rfl⟩ := List.mem_map.mp own
  exact List.mem_map.mpr ⟨row.input, Machine.input_mem step member, time⟩

/-- In a run whose clock readings are doubles, all past the first interval, the throttle decides
at every step as it would with the difference that the code rounds. -/
theorem throttled_eq_double
    (readings : ∀ input ∈ inputs, Representable binary64 input.time ∧ kMinIntervalMs ≤ input.time)
    (ordered : (inputs.map (·.time)).IsChain (· ≤ ·)) :
    ∀ row ∈ publisherTrace inputs, ∀ deck, row.before.throttled row.input.time deck =
      (row.before.hasSentBefore deck &&
        decide (double (row.input.time - row.before.lastSendMs deck) < kMinIntervalMs)) := by
  intro row member deck
  obtain ⟨earlier, later, rfl, shape⟩ := Machine.mem_trace step member
  rw [shape]
  simp only [Machine.entry, throttled]
  cases sent : (Machine.run step {} earlier).hasSentBefore deck with
  | false => rfl
  | true =>
      obtain ⟨input, listed, last⟩ := List.mem_map.mp (lastSendMs_mem earlier sent)
      obtain ⟨own, _⟩ := readings row.input (by simp)
      obtain ⟨former, past⟩ := readings input (List.mem_append_left _ listed)
      have times := List.isChain_iff_pairwise.mp ordered
      rw [List.map_append, List.pairwise_append] at times
      have before := times.2.2 input.time (List.mem_map_of_mem listed) row.input.time (by simp)
      have rounds := double_sub_lt_kMinIntervalMs_iff own former before past
      rw [last] at rounds
      exact congrArg (true && ·) (decide_eq_decide.mpr rounds.symm)

theorem sendsWithin_eq_countP (deck : DeckId) (stream : List SentDelta) (start length : ℚ) :
    sendsWithin deck stream start length =
      (sendTimes deck stream).countP fun time => start ≤ time ∧ time ≤ start + length := by
  rw [sendTimes, List.countP_map, List.countP_filter]
  apply List.countP_congr
  intro sent _
  simp [and_comm]

theorem sendsWithin_le (deck : DeckId) (start : ℚ) {length : ℚ} (nonneg : 0 ≤ length) :
    (sendsWithin deck (sentStream (publisherTrace inputs)) start length : ℚ) ≤
      1 + length / kMinIntervalMs := by
  rw [sendsWithin_eq_countP]
  exact Windows.countP_le_of_spaced kMinIntervalMs_pos (sendTimes_spaced inputs deck) nonneg

theorem sentStream_ordered (ordered : (inputs.map (·.time)).IsChain (· ≤ ·)) :
    (sentStream (publisherTrace inputs)).Pairwise fun earlier later =>
      earlier.time ≤ later.time := by
  have times := List.isChain_iff_pairwise.mp ordered
  rw [← Machine.map_input_trace step {} inputs, List.map_map, List.pairwise_map] at times
  refine List.pairwise_flatMap.mpr ⟨fun row _ => ?_, times.imp fun le => ?_⟩
  · exact List.pairwise_map.mpr (List.pairwise_of_forall fun _ _ => le_rfl)
  · intro first found second later
    obtain ⟨_, _, rfl⟩ := List.mem_map.mp found
    obtain ⟨_, _, rfl⟩ := List.mem_map.mp later
    exact le

end Runs

end SyncPublisher

end DjApp.Client
