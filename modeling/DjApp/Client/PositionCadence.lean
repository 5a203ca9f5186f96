import DjApp.Client.ClockSteps

/-! How long a playing deck's controller may go without correcting its position, and the
messages that wind the timer up before it has expired. -/

set_option autoImplicit false

namespace DjApp.Client

open Library
open Engine (AudioRepository)

def carriesPosition (deck : DeckId) (deltas : List StateDelta) : Bool :=
  deltas.any fun delta => delta.deck = deck && delta.positionSeconds.isSome

/-- Whether the deck's timer expires in this event, or a delta with a position for the deck
is applied in it. -/
def Player.renews (player : Player) (deck : DeckId) : PlayerEvent → Bool
  | .edit _ delta =>
      carriesPosition deck [player.app.component.stateManager.prepare delta .own]
  | .message _ msg => carriesPosition deck (remoteDeltas msg)
  | .positionTick now ticked => ticked = deck && (player.decks deck).clock.expiry.any (· ≤ now)
  | _ => false

/-- A player under observation: `since` is the latest of the start of the interval in which
this client controls and the deck plays, the last expiry of the deck's timer in it and its
last delta with a position for the deck. -/
structure Watch where
  player : Player := {}
  since : DeckId → Option ℚ := fun _ => none

namespace Watch

section Steps

variable (repository : AudioRepository) (outputLatencyFrames : ℚ → ℕ)

def step (watch : Watch) (event : PlayerEvent) : Watch × List ClientMessage :=
  let handled := watch.player.step repository outputLatencyFrames event
  ({ player := handled.1
     since := fun deck =>
       if handled.1.Corrects deck then
         match watch.since deck with
         | none => event.time
         | some since =>
             if watch.player.renews deck event then event.time.map (max since) else some since
       else none }, handled.2)

end Steps

/-- While this client controls and the deck plays, the timer runs and expires in time. -/
def OnTime (watch : Watch) (deck : DeckId) : Prop :=
  watch.player.Corrects deck → ∃ since expiry, watch.since deck = some since ∧
    (watch.player.decks deck).clock.expiry = some expiry ∧ expiry ≤ since + 5000

/-- An interval is under way, and a message that has no position for the deck starts its timer
again: it tells of some role and leaves this client controller, or it is a delta that says again
that the deck plays. -/
def Postponed (watch : Watch) (deck : DeckId) : PlayerEvent → Prop
  | .message now msg =>
      (∃ since, watch.since deck = some since ∧ since < now) ∧
        carriesPosition deck (remoteDeltas msg) = false ∧
        (tellsRole msg = true ∧ watch.player.app.component.roleAfter msg = .controller ∨
          ∃ delta ∈ remoteDeltas msg, delta.deck = deck ∧ delta.playing = some true)
  | _ => False

/-- An interval is under way exactly while this client controls and the deck plays. -/
structure Sound (watch : Watch) (deck : DeckId) : Prop where
  clocked : watch.player.Clocked deck
  since : (watch.since deck).isSome = true ↔ watch.player.Corrects deck

/-- Within an interval a step starts the timer again that neither renews what it counts from
nor comes at that very time. -/
structure Rewound (watch : Watch) (after : Player) (deck : DeckId) (event : PlayerEvent) :
    Prop where
  corrects : after.Corrects deck
  winds : watch.player.winds deck event = true
  renews : watch.player.renews deck event = false
  late : ∃ since now, watch.since deck = some since ∧ event.time = some now ∧ since < now

section Steps

variable {repository : AudioRepository} {outputLatencyFrames : ℚ → ℕ} {watch : Watch} {deck : DeckId}
  {event : PlayerEvent}

theorem sound_initial (varToString : Var → String) (deck : DeckId) :
    Sound { player := .started varToString } deck where
  clocked := ⟨rfl, rfl⟩
  since := by
    constructor
    · intro some
      cases some
    · rintro ⟨controller, _⟩
      cases controller

theorem time_of_renews {player : Player} (renews : player.renews deck event = true) :
    ∃ now, event.time = some now := by
  cases event with
  | edit now | message now | positionTick now => exact ⟨now, rfl⟩
  | publisherTick | selfStopTick | prepareToPlay | block | connect | closed => cases renews

theorem since_started
    (corrects : (watch.player.step repository outputLatencyFrames event).1.Corrects deck)
    (idle : watch.since deck = none) :
    (watch.step repository outputLatencyFrames event).1.since deck = event.time := by
  simp only [Watch.step, if_pos corrects, idle]

theorem since_kept
    (corrects : (watch.player.step repository outputLatencyFrames event).1.Corrects deck)
    (renews : watch.player.renews deck event = false) {since : ℚ}
    (began : watch.since deck = some since) :
    (watch.step repository outputLatencyFrames event).1.since deck = some since := by
  simp only [Watch.step, if_pos corrects, began, renews, Bool.false_eq_true, ↓reduceIte]

theorem since_renewed
    (corrects : (watch.player.step repository outputLatencyFrames event).1.Corrects deck)
    (renews : watch.player.renews deck event = true) {since now : ℚ}
    (began : watch.since deck = some since) (time : event.time = some now) :
    (watch.step repository outputLatencyFrames event).1.since deck = some (max since now) := by
  simp only [Watch.step, if_pos corrects, began, renews, time, ↓reduceIte, Option.map_some]

theorem Sound.step (sound : watch.Sound deck) :
    (watch.step repository outputLatencyFrames event).1.Sound deck := by
  have moved := @Player.Clocked.step deck repository outputLatencyFrames _ sound.clocked event
  refine ⟨moved.clocked, ?_⟩
  by_cases corrects :
      (watch.player.step repository outputLatencyFrames event).1.Corrects deck
  · refine iff_of_true ?_ corrects
    cases began : watch.since deck with
    | none =>
        have idle : ¬ watch.player.Corrects deck := by
          rw [← sound.since, began]
          exact Bool.false_ne_true
        have winds : watch.player.winds deck event = true := by
          by_contra quiet
          exact idle ((moved.idle (Bool.not_eq_true _ ▸ quiet)).1.mp corrects)
        obtain ⟨now, time, _⟩ := moved.wound winds
        rw [since_started corrects began, time, Option.isSome_some]
    | some since =>
        cases renews : watch.player.renews deck event with
        | true =>
            obtain ⟨now, time⟩ := time_of_renews renews
            rw [since_renewed corrects renews began time, Option.isSome_some]
        | false => rw [since_kept corrects renews began, Option.isSome_some]
  · refine iff_of_false ?_ corrects
    simp only [Watch.step, if_neg corrects, Option.isSome_none]
    exact Bool.false_ne_true

/-- A timer that was on time stays so unless it is wound again for nothing. -/
theorem onTime_step (sound : watch.Sound deck) (onTime : watch.OnTime deck) :
    (watch.step repository outputLatencyFrames event).1.OnTime deck ↔
      ¬ watch.Rewound (watch.player.step repository outputLatencyFrames event).1 deck event := by
  have moved := @Player.Clocked.step deck repository outputLatencyFrames _ sound.clocked event
  constructor
  · rintro kept ⟨corrects, winds, renews, since, now, began, time, late⟩
    obtain ⟨same, sameTime, wound⟩ := moved.wound winds
    obtain ⟨last, expiry, seen, runs, within⟩ := kept corrects
    obtain rfl : since = last := Option.some.inj ((since_kept corrects renews began).symm.trans seen)
    obtain rfl : now = same := Option.some.inj (time.symm.trans sameTime)
    obtain rfl : now + 5000 = expiry := Option.some.inj ((wound corrects).symm.trans runs)
    exact absurd late (not_lt.mpr (le_of_add_le_add_right within))
  · intro right corrects
    cases winds : watch.player.winds deck event with
    | false =>
        -- The timer is as it was, and what it counts from is no earlier.
        obtain ⟨same, expiry⟩ := moved.idle winds
        obtain ⟨since, due, began, runs, within⟩ := onTime (same.mp corrects)
        cases renews : watch.player.renews deck event with
        | true =>
            obtain ⟨now, time⟩ := time_of_renews renews
            refine ⟨max since now, due, since_renewed corrects renews began time,
              expiry.trans runs, within.trans ?_⟩
            exact add_le_add_left (le_max_left since now) 5000
        | false =>
            exact ⟨since, due, since_kept corrects renews began, expiry.trans runs, within⟩
    | true =>
        obtain ⟨now, time, wound⟩ := moved.wound winds
        cases began : watch.since deck with
        | none =>
            exact ⟨now, now + 5000, (since_started corrects began).trans time, wound corrects,
              le_rfl⟩
        | some since =>
            cases renews : watch.player.renews deck event with
            | true =>
                refine ⟨max since now, now + 5000, since_renewed corrects renews began time,
                  wound corrects, ?_⟩
                exact add_le_add_left (le_max_right since now) 5000
            | false =>
                have early : now ≤ since := by
                  by_contra late
                  exact right ⟨corrects, winds, renews, since, now, began, time, not_le.mp late⟩
                exact ⟨since, now + 5000, since_kept corrects renews began, wound corrects,
                  add_le_add_left early 5000⟩

/-- An own delta that starts the timer again has a position, or stops the deck. -/
theorem not_rewound_edit (now : ℚ) (delta : StateDelta) :
    ¬ watch.Rewound (watch.player.step repository outputLatencyFrames (.edit now delta)).1 deck
      (.edit now delta) := by
  rintro ⟨⟨_, plays⟩, winds, renews, _⟩
  simp only [Player.winds, setsPlaying, List.any_cons, List.any_nil, Bool.or_false,
    Bool.and_eq_true, decide_eq_true_iff] at winds
  obtain ⟨named, sets⟩ := winds
  obtain ⟨playing, told⟩ := Option.isSome_iff_exists.mp sets
  have after := @playing_applyDelta deck watch.player.app.component.stateManager delta .own
  rw [if_pos named, told, Option.getD_some] at after
  have manager := stateManager_applyDelta watch.player.app.component now delta .own
  have stays : playing = true := by
    rw [← after, ← manager]
    exact plays
  subst stays
  have carries : (watch.player.app.component.stateManager.prepare delta .own).positionSeconds.isSome =
      true := by
    unfold StateManager.prepare StateDelta.withPosition
    split
    · rfl
    · rename_i held
      have clamped : delta.clamp.playing = some true := told
      rw [Option.isSome_iff_ne_none]
      exact fun none => held ⟨rfl, clamped, none⟩
  simp [Player.renews, carriesPosition, named, carries] at renews

theorem not_rewound_selfStopTick (now : ℚ) (ticked : DeckId) :
    ¬ watch.Rewound (watch.player.step repository outputLatencyFrames (.selfStopTick now ticked)).1
      deck (.selfStopTick now ticked) := by
  rintro ⟨⟨_, plays⟩, winds, _⟩
  obtain ⟨stops, own⟩ := Bool.and_eq_true_iff.mp winds
  have manager := stateManager_applyDelta watch.player.app.component now
    { deck := ticked, playing := some false } .own
  have after := @playing_applyDelta deck watch.player.app.component.stateManager
    { deck := ticked, playing := some false } .own
  rw [if_pos (of_decide_eq_true own), Option.getD_some, ← manager] at after
  rw [step_selfStopTick, if_pos stops] at plays
  exact absurd (plays.symm.trans after) (by decide)

theorem app_dispatch (player : Player) (now : ℚ) (msg : Var) :
    (player.dispatch repository now msg).1.app = (player.app.dispatch now msg).1 := by
  simp only [Player.dispatch]
  split <;> rfl

/-- A delta without a position comes alone and says nothing of roles. -/
theorem alone_of_unpositioned {msg : Var} {delta : StateDelta}
    (none : carriesPosition deck (remoteDeltas msg) = false) (member : delta ∈ remoteDeltas msg)
    (named : delta.deck = deck) : tellsRole msg = false ∧ remoteDeltas msg = [delta] := by
  have own := List.any_eq_false.mp none delta member
  rw [Bool.and_eq_true, decide_eq_true_iff] at own
  rcases remoteDeltas_position msg with all | ⟨untold, only, shape⟩
  · exact absurd ⟨named, all delta member⟩ own
  · rw [shape, List.mem_singleton] at member
    exact ⟨untold, member ▸ shape⟩

theorem rewound_message (sound : watch.Sound deck) (now : ℚ) (msg : Var) :
    watch.Rewound (watch.player.step repository outputLatencyFrames (.message now msg)).1 deck
      (.message now msg) ↔ watch.Postponed deck (.message now msg) := by
  have role : (watch.player.dispatch repository now msg).1.app.component.role =
      watch.player.app.component.roleAfter msg := by
    rw [app_dispatch]
    exact role_dispatch now watch.player.app msg
  have manager : (watch.player.dispatch repository now msg).1.app.component.stateManager =
      watch.player.app.component.stateManager.applyRemote (remoteDeltas msg) := by
    rw [app_dispatch]
    exact stateManager_dispatch now watch.player.app msg
  have alone {delta : StateDelta} (named : delta.deck = deck) :
      ((watch.player.app.component.stateManager.applyRemote [delta]).getState deck).playing =
        delta.playing.getD (watch.player.app.component.stateManager.getState deck).playing :=
    (playing_applyDelta _ delta .remote).trans (if_pos named)
  constructor
  · rintro ⟨⟨controls, plays⟩, winds, renews, since, later, began, time, late⟩
    obtain rfl : now = later := Option.some.inj time
    refine ⟨⟨since, began, late⟩, renews, ?_⟩
    cases tells : tellsRole msg with
    | true => exact .inl ⟨rfl, role.symm.trans controls⟩
    | false =>
        right
        have sets : setsPlaying deck (remoteDeltas msg) = true := by
          rwa [Player.winds, tells, Bool.false_or] at winds
        obtain ⟨delta, member, own⟩ := List.any_eq_true.mp sets
        rw [Bool.and_eq_true, decide_eq_true_iff] at own
        obtain ⟨playing, told⟩ := Option.isSome_iff_exists.mp own.2
        obtain ⟨_, only⟩ := alone_of_unpositioned renews member own.1
        refine ⟨delta, member, own.1, ?_⟩
        have after := alone own.1
        rw [← only, ← manager, told, Option.getD_some] at after
        rw [told, ← after]
        exact congrArg some plays
  · rintro ⟨⟨since, began, late⟩, renews, how⟩
    have corrects : watch.player.Corrects deck := by
      rw [← sound.since, began, Option.isSome_some]
    refine ⟨?_, ?_, renews, since, now, began, rfl, late⟩
    · rcases how with ⟨tells, controls⟩ | ⟨delta, member, named, plays⟩
      · refine ⟨role.trans controls, ?_⟩
        have quiet : setsPlaying deck (remoteDeltas msg) = false := by
          rw [setsPlaying, List.any_eq_false]
          intro delta member own
          rw [Bool.and_eq_true, decide_eq_true_iff] at own
          have untold := (alone_of_unpositioned renews member own.1).1
          exact absurd (tells.symm.trans untold) (by decide)
        have same := playing_applyAll quiet watch.player.app.component.stateManager .remote
        exact (congrArg (fun manager : StateManager => (manager.getState deck).playing)
          manager).trans (same.trans corrects.2)
      · obtain ⟨untold, only⟩ := alone_of_unpositioned renews member named
        rw [roleAfter_of_untold _ untold] at role
        refine ⟨role.trans corrects.1, ?_⟩
        have after := alone named
        rw [← only, ← manager, plays, Option.getD_some] at after
        exact after
    · rw [Player.winds, Bool.or_eq_true]
      rcases how with ⟨tells, _⟩ | ⟨delta, member, named, plays⟩
      · exact .inl tells
      · refine .inr (List.any_eq_true.mpr ⟨delta, member, ?_⟩)
        rw [named, plays, decide_eq_true rfl]
        rfl

/-- Only a message winds a timer for nothing. -/
theorem rewound_iff (sound : watch.Sound deck) :
    watch.Rewound (watch.player.step repository outputLatencyFrames event).1 deck event ↔
      watch.Postponed deck event := by
  cases event with
  | edit now delta => exact iff_of_false (not_rewound_edit now delta) id
  | message now msg => exact rewound_message sound now msg
  | selfStopTick now ticked => exact iff_of_false (not_rewound_selfStopTick now ticked) id
  | positionTick now ticked =>
      refine iff_of_false ?_ id
      rintro ⟨_, winds, renews, _⟩
      exact absurd (winds.symm.trans renews) (by decide)
  | closed now =>
      refine iff_of_false ?_ id
      rintro ⟨⟨controls, _⟩, _⟩
      have observer : Role.observer = .controller := controls
      cases observer
  | publisherTick | prepareToPlay | block | connect =>
      refine iff_of_false ?_ id
      rintro ⟨_, winds, _⟩
      cases winds

theorem onTime_step_iff (sound : watch.Sound deck) (onTime : watch.OnTime deck) :
    (watch.step repository outputLatencyFrames event).1.OnTime deck ↔
      ¬ watch.Postponed deck event :=
  (onTime_step sound onTime).trans (not_congr (rewound_iff sound))

end Steps

/-- In a run of a client the drift correction of a playing deck is never put off exactly if
no message ever postpones it. -/
theorem onTime_iff (repository : AudioRepository) (outputLatencyFrames : ℚ → ℕ)
    (varToString : Var → String) (events : List PlayerEvent) :
    (∀ row ∈ Machine.trace (Watch.step repository outputLatencyFrames)
        { player := .started varToString } events,
      ∀ deck, row.after.OnTime deck) ↔
    ∀ row ∈ Machine.trace (Watch.step repository outputLatencyFrames)
        { player := .started varToString } events,
      ∀ deck, ¬ row.before.Postponed deck row.input := by
  let Timed (watch : Watch) : Prop := ∀ deck, watch.Sound deck ∧ watch.OnTime deck
  have start : Timed { player := .started varToString } := by
    intro deck
    refine ⟨sound_initial varToString deck, fun corrects => ?_⟩
    cases corrects.1
  refine Machine.trace_forall_iff (Watch.step repository outputLatencyFrames) (fun _ => True) Timed
    _ _ ?_ ?_ start fun _ _ => trivial
  · intro watch event _ timed
    exact forall_congr' fun deck => onTime_step_iff (timed deck).1 (timed deck).2
  · intro watch event _ timed kept deck
    exact ⟨(timed deck).1.step, kept deck⟩

section Examples

/-- Ana controls her room and plays a deck, and Bea drops in twice for a second. -/
def visits : List PlayerEvent :=
  let ana : Server.ClientId := ⟨1⟩
  let bea : Server.ClientId := ⟨2⟩
  let name := js "bea"
  [.connect, .message 0 (Server.Frame.welcome ana .observer 0 [] []).toVar,
    .message 0 (Server.Frame.roleChanged ana .controller).toVar,
    .edit 0 { deck := .A, playing := some true },
    .message 3000 (Server.Frame.peerJoined bea name .observer).toVar,
    .message 4000 (Server.Frame.peerLeft bea).toVar,
    .message 7000 (Server.Frame.peerJoined bea name .observer).toVar,
    .message 8000 (Server.Frame.peerLeft bea).toVar]

/-- Eight seconds after play was pressed the first correction is five seconds away. -/
theorem correction_postponed :
    ¬ ∀ (repository : AudioRepository) (outputLatencyFrames : ℚ → ℕ) (events : List PlayerEvent),
      ∀ row ∈ Machine.trace (Watch.step repository outputLatencyFrames) {} events,
        ∀ deck, row.after.OnTime deck := by
  intro onTime
  let none : AudioRepository := fun _ => .none
  let earlier := Machine.run (Watch.step none 0) {} visits.dropLast
  let last := Machine.entry (Watch.step none 0) earlier (visits.getLast (by decide))
  have member : last ∈ Machine.trace (Watch.step none 0) {} visits := by
    rw [← List.dropLast_append_getLast (by decide : visits ≠ []), Machine.trace_concat]
    exact List.mem_append_right _ (List.mem_singleton_self _)
  have corrects : last.after.player.Corrects .A := by decide +kernel
  obtain ⟨since, expiry, began, runs, within⟩ := onTime none 0 visits last member .A corrects
  have began' : last.after.since .A = some 0 := by decide +kernel
  have runs' : (last.after.player.decks .A).clock.expiry = some 13000 := by decide +kernel
  obtain rfl : since = 0 := Option.some.inj (began.symm.trans began')
  obtain rfl : expiry = 13000 := Option.some.inj (runs.symm.trans runs')
  exact absurd within (by norm_num)

end Examples

end Watch

end DjApp.Client
