import DjApp.Client.Mirror
import DjApp.Engine.MixerProperties

/-! The timer of a deck's position clock: what each event of a client does to it, and the
role and the deltas that a message brings. -/

set_option autoImplicit false

namespace DjApp.Client

open Library
open Engine (AudioRepository)

/-- This client controls and the deck plays. -/
def Player.Corrects (player : Player) (deck : DeckId) : Prop :=
  player.app.component.role = .controller ∧
    (player.app.component.stateManager.getState deck).playing = true

instance (player : Player) (deck : DeckId) : Decidable (player.Corrects deck) :=
  inferInstanceAs (Decidable (_ ∧ _))

/-- The time of an event that may change what is played or controlled. -/
def PlayerEvent.time : PlayerEvent → Option ℚ
  | .edit now _ | .message now _ | .publisherTick now | .selfStopTick now _
  | .positionTick now _ | .closed now => some now
  | .prepareToPlay _ _ _ | .block _ _ | .connect => none

def MainComponent.roleAfter (component : MainComponent) : Var → Role
  | .obj fields =>
      let told := roleFromWireString (propertyString component.varToString fields "role")
      match messageType (.obj fields) with
      | "welcome" => told
      | "roleChanged" =>
          if propertyString component.varToString fields "clientId" = component.ownClientId then told
          else component.role
      | _ => component.role
  | _ => component.role

section Deltas

variable {deck : DeckId}

def StateManager.applyAll (manager : StateManager) (source : DeltaSource)
    (deltas : List StateDelta) : StateManager :=
  deltas.foldl (fun manager delta => (manager.applyDelta delta source).1) manager

@[simp] theorem playing_prepare (manager : StateManager) (delta : StateDelta)
    (source : DeltaSource) : (manager.prepare delta source).playing = delta.playing := by
  unfold StateManager.prepare StateDelta.withPosition
  split <;> rfl

theorem playing_applyDelta (manager : StateManager) (delta : StateDelta) (source : DeltaSource) :
    ((manager.applyDelta delta source).1.getState deck).playing =
      if delta.deck = deck then delta.playing.getD (manager.getState deck).playing
      else (manager.getState deck).playing := by
  unfold StateManager.applyDelta
  split
  · rename_i empty
    have silent : delta.playing = none := by
      simp only [StateDelta.empty, Bool.and_eq_true, Option.isNone_iff_eq_none] at empty
      exact empty.1.1.1.1.1.1.2
    simp [silent]
  · by_cases named : delta.deck = deck
    · subst named
      simp [StateManager.getState, PlaybackState.merge]
    · simp [StateManager.getState, Function.update_of_ne (Ne.symm named), named]

theorem applyDelta_silent (manager : StateManager) {delta : StateDelta} (source : DeltaSource)
    (silent : (manager.applyDelta delta source).2 = none) : delta.playing = none := by
  unfold StateManager.applyDelta at silent
  split at silent
  · rename_i empty
    simp only [StateDelta.empty, Bool.and_eq_true, Option.isNone_iff_eq_none] at empty
    exact empty.1.1.1.1.1.1.2
  · cases silent

theorem applyDelta_told (manager : StateManager) {delta : StateDelta} {source : DeltaSource}
    {notification : Notification}
    (told : (manager.applyDelta delta source).2 = some notification) :
    notification.applied.deck = delta.deck ∧ notification.applied.playing = delta.playing ∧
      notification.newState = (manager.applyDelta delta source).1.getState delta.deck := by
  unfold StateManager.applyDelta at told ⊢
  split at told
  · cases told
  · cases told
    rename_i present
    simp [present, StateManager.getState]

theorem playing_applyAll {deltas : List StateDelta} (quiet : setsPlaying deck deltas = false)
    (manager : StateManager) (source : DeltaSource) :
    ((manager.applyAll source deltas).getState deck).playing =
      (manager.getState deck).playing := by
  induction deltas generalizing manager with
  | nil => rfl
  | cons delta rest ih =>
      simp only [setsPlaying, List.any_cons, Bool.or_eq_false_iff, Bool.and_eq_false_iff,
        decide_eq_false_iff_not, Option.isSome_eq_false_iff, Option.isNone_iff_eq_none] at quiet
      obtain ⟨first, later⟩ := quiet
      apply (ih later (manager.applyDelta delta source).1).trans
      rw [playing_applyDelta]
      rcases first with other | silent
      · rw [if_neg other]
      · rw [silent, Option.getD_none, ite_self]

end Deltas

section Clocks

variable {deck : DeckId} {repository : AudioRepository}

theorem notify_named {player : DeckPlayer} (named : player.adapter.deck = deck) (now : ℚ)
    (notification : Notification) :
    (player.notify repository now notification).adapter.deck = deck ∧
      (player.notify repository now notification).clock =
        if notification.applied.deck = deck ∧ notification.applied.playing.isSome then
          player.clock.updateTimerState now notification.newState.playing
        else player.clock := by
  constructor
  · exact (Engine.handleDelta_attached player.adapter notification.applied).1.trans named
  · simp only [DeckPlayer.notify, named]

/-- The clock hears the last delta that sets its deck's `playing`. -/
theorem clock_notifyAll (now : ℚ) (source : DeltaSource) {player : Player}
    (named : (player.decks deck).adapter.deck = deck) (manager : StateManager)
    (deltas : List StateDelta) :
    let told := Player.notifyAll repository now source player manager deltas
    (told.decks deck).adapter.deck = deck ∧
      (told.decks deck).clock =
        if setsPlaying deck deltas then
          (player.decks deck).clock.updateTimerState now
            ((manager.applyAll source deltas).getState deck).playing
        else (player.decks deck).clock := by
  induction deltas generalizing manager player with
  | nil => exact ⟨named, rfl⟩
  | cons delta rest ih =>
      simp only [Player.notifyAll]
      cases heard : (manager.applyDelta delta source).2 with
      | none =>
          have silent := applyDelta_silent manager source heard
          have same : setsPlaying deck (delta :: rest) = setsPlaying deck rest := by
            simp [setsPlaying, silent]
          rw [same]
          exact ih named (manager.applyDelta delta source).1
      | some notification =>
          obtain ⟨appliedDeck, appliedPlaying, newState⟩ := applyDelta_told manager heard
          obtain ⟨kept, clock⟩ := @notify_named deck repository _ named now notification
          rw [appliedDeck, appliedPlaying] at clock
          obtain ⟨keptLater, later⟩ := @ih (player.notify repository now notification) kept
            (manager.applyDelta delta source).1
          refine ⟨keptLater, later.trans ?_⟩
          have own : ((player.notify repository now notification).decks deck).clock = _ := clock
          rw [own]
          cases again : setsPlaying deck rest with
          | true =>
              have any : setsPlaying deck (delta :: rest) = true := by
                rw [setsPlaying, List.any_cons, Bool.or_eq_true]
                exact .inr again
              rw [if_pos rfl, if_pos any]
              split <;> rfl
          | false =>
              rw [if_neg Bool.false_ne_true]
              have last := playing_applyAll again (manager.applyDelta delta source).1 source
              have head : setsPlaying deck (delta :: rest) =
                  (decide (delta.deck = deck) && delta.playing.isSome) := by
                rw [setsPlaying, List.any_cons, ← setsPlaying, again, Bool.or_false]
              by_cases sets : delta.deck = deck ∧ delta.playing.isSome = true
              · have any : setsPlaying deck (delta :: rest) = true := by
                  rw [head, decide_eq_true sets.1, sets.2, Bool.and_self]
                rw [if_pos sets, if_pos any, newState, sets.1]
                exact congrArg _ last.symm
              · have none : ¬ setsPlaying deck (delta :: rest) = true := by
                  rw [head, Bool.and_eq_true, decide_eq_true_iff]
                  exact sets
                rw [if_neg sets, if_neg none]

end Clocks

section Messages

variable (now : ℚ)

theorem role_applyDelta (component : MainComponent) (delta : StateDelta) (source : DeltaSource) :
    (component.applyDelta now delta source).1.role = component.role := by
  unfold MainComponent.applyDelta
  split <;> rfl

theorem role_applySnapshotDeck (component : MainComponent) (decks : Properties) (deck : DeckId) :
    (component.applySnapshotDeck now decks deck).1.role = component.role := by
  unfold MainComponent.applySnapshotDeck MainComponent.applyDeckSnapshot
  split
  · rfl
  · split
    · rfl
    · exact role_applyDelta now component _ .remote

theorem role_applySnapshot (component : MainComponent) (decks : Var) :
    (component.applySnapshot now decks).1.role = component.role := by
  cases decks with
  | obj fields =>
      exact (role_applySnapshotDeck now _ fields .B).trans
        (role_applySnapshotDeck now component fields .A)
  | null | bool | num | str | arr => rfl

theorem role_handleServerEvent (component : MainComponent) {msg : Var}
    (event : messageType msg ≠ "welcome") :
    (component.handleServerEvent now msg).1.role = component.roleAfter msg := by
  cases msg with
  | obj fields =>
      simp only [MainComponent.handleServerEvent, MainComponent.roleAfter]
      split
      next snapshot =>
        simp only [snapshot]
        exact role_applySnapshot now component _
      next changed =>
        simp only [changed, MainComponent.handleRoleChanged]
        split <;> rfl
      next joined =>
        simp only [joined]
        split <;> rfl
      next left =>
        simp only [left, MainComponent.applyRoleToUI]
        rfl
      next snapshot changed joined left =>
        split
        · exact absurd ‹_› event
        · exact absurd ‹_› changed
        · rfl
  | null | bool | num | str | arr => rfl

/-- Handling a message leaves this client the role that the message says. -/
theorem role_dispatch (app : ClientApp) (msg : Var) :
    (app.dispatch now msg).1.component.role = app.component.roleAfter msg := by
  have told {type : String} (typed : messageType msg = type) (event : type ≠ "welcome") :=
    role_handleServerEvent now app.component (typed ▸ event)
  unfold ClientApp.dispatch
  split
  next welcome =>
    cases msg with
    | obj fields =>
        simp only [ClientApp.withComponent, MainComponent.handleWelcome, MainComponent.roleAfter,
          welcome, MainComponent.applyRoleToUI]
        split
        · exact role_applySnapshot now _ _
        · rfl
    | null | bool | num | str | arr => exact absurd welcome (by simp [messageType])
  next delta =>
    have kept : app.component.roleAfter msg = app.component.role := by
      cases msg with
      | obj fields =>
          simp only [MainComponent.roleAfter, delta]
          rfl
      | null | bool | num | str | arr => rfl
    rw [kept]
    unfold ClientApp.dispatchDelta
    split
    · rfl
    · exact role_applyDelta now app.component _ .remote
  next typed => exact told typed (by decide)
  next typed => exact told typed (by decide)
  next typed => exact told typed (by decide)
  next typed => exact told typed (by decide)
  next typed => exact told typed (by decide)
  next welcome _ _ changed _ _ _ =>
    cases msg with
    | obj fields =>
        simp only [MainComponent.roleAfter]
    | null | bool | num | str | arr => rfl

theorem roleAfter_of_untold (component : MainComponent) {msg : Var}
    (untold : tellsRole msg = false) : component.roleAfter msg = component.role := by
  simp only [tellsRole, Bool.or_eq_false_iff, beq_eq_false_iff_ne] at untold
  obtain ⟨⟨welcome, changed⟩, left⟩ := untold
  cases msg with
  | obj fields => simp only [MainComponent.roleAfter]
  | null | bool | num | str | arr => rfl

theorem snapshotDeltas_position {decks : Var} {delta : StateDelta}
    (member : delta ∈ snapshotDeltas decks) : delta.positionSeconds.isSome = true := by
  have own {fields : Properties} {deck : DeckId}
      (found : snapshotDelta fields deck = some delta) : delta.positionSeconds.isSome = true := by
    obtain ⟨v, _, parsed⟩ := Option.bind_eq_some_iff.mp found
    split at parsed
    · cases parsed
    · cases parsed
      rfl
  cases decks with
  | obj fields =>
      rcases List.mem_append.mp member with first | second
      · exact own (Option.mem_toList.mp first)
      · exact own (Option.mem_toList.mp second)
  | null | bool | num | str | arr => cases member

/-- Only a delta message has a delta without a position, and it has no other. -/
theorem remoteDeltas_position (msg : Var) :
    (∀ delta ∈ remoteDeltas msg, delta.positionSeconds.isSome = true) ∨
      tellsRole msg = false ∧ ∃ delta, remoteDeltas msg = [delta] := by
  cases msg with
  | obj fields =>
      simp only [remoteDeltas]
      split
      · left
        split
        · exact fun delta member => snapshotDeltas_position member
        · exact List.forall_mem_nil _
      · exact .inl fun delta member => snapshotDeltas_position member
      · rename_i typed
        split
        · exact .inl (List.forall_mem_nil _)
        · exact .inr ⟨by simp [tellsRole, typed], _, rfl⟩
      · exact .inl (List.forall_mem_nil _)
  | null | bool | num | str | arr => exact .inl (List.forall_mem_nil _)

end Messages

/-- Whether an event starts the deck's timer again, or stops it. -/
def Player.winds (player : Player) (deck : DeckId) : PlayerEvent → Bool
  | .edit _ delta => setsPlaying deck [delta]
  | .message _ msg => tellsRole msg || setsPlaying deck (remoteDeltas msg)
  | .selfStopTick _ ticked => player.selfStops ticked && ticked = deck
  | .positionTick now ticked => ticked = deck && (player.decks deck).clock.expiry.any (· ≤ now)
  | .closed _ => true
  | .publisherTick _ | .prepareToPlay _ _ _ | .block _ _ | .connect => false

/-- A deck's adapter and clock have the deck and the role they were given. -/
structure Player.Clocked (player : Player) (deck : DeckId) : Prop where
  named : (player.decks deck).adapter.deck = deck
  role : (player.decks deck).clock.role = player.app.component.role

/-- What a step does to a deck's timer: nothing, or it counts from the time of the step. -/
structure ClockStep (before after : Player) (deck : DeckId) (time : Option ℚ) (winds : Bool) :
    Prop where
  clocked : after.Clocked deck
  idle : winds = false → (after.Corrects deck ↔ before.Corrects deck) ∧
    (after.decks deck).clock.expiry = (before.decks deck).clock.expiry
  wound : winds = true → ∃ now, time = some now ∧
    (after.Corrects deck → (after.decks deck).clock.expiry = some (now + 5000))

section Effects

variable {deck : DeckId} {repository : AudioRepository} {outputLatencyFrames : ℚ → ℕ} {player : Player}

/-- A step that leaves the clock and what it goes by alone. -/
theorem Player.Clocked.kept (clocked : player.Clocked deck) {after : Player} (time : Option ℚ)
    (role : after.app.component.role = player.app.component.role)
    (manager : after.app.component.stateManager = player.app.component.stateManager)
    (adapter : (after.decks deck).adapter = (player.decks deck).adapter)
    (clock : (after.decks deck).clock = (player.decks deck).clock) :
    ClockStep player after deck time false where
  clocked := by
    constructor
    · rw [adapter, clocked.named]
    · rw [clock, role, clocked.role]
  idle _ := by
    rw [Player.Corrects, Player.Corrects, role, manager, clock]
    exact ⟨Iff.rfl, rfl⟩
  wound wound := by cases wound

theorem updateTimerState_expiry {after : Player} (clock : PositionClock) (now : ℚ)
    (role : clock.role = after.app.component.role)
    (set : (after.decks deck).clock = clock.updateTimerState now
      (after.app.component.stateManager.getState deck).playing) (corrects : after.Corrects deck) :
    (after.decks deck).clock.expiry = some (now + 5000) := by
  rw [set, PositionClock.updateTimerState]
  exact if_pos ⟨role.trans corrects.1, corrects.2⟩

/-- The listeners of a deck wind its clock for the state that the deltas leave. -/
theorem Player.Clocked.notifyAll (clocked : player.Clocked deck) (now : ℚ) (source : DeltaSource)
    {deltas : List StateDelta} {app : ClientApp}
    (role : app.component.role = player.app.component.role)
    (manager : app.component.stateManager =
      player.app.component.stateManager.applyAll source deltas) :
    ClockStep player ((Player.notifyAll repository now source player
      player.app.component.stateManager deltas).withApp app) deck (some now)
      (setsPlaying deck deltas) := by
  obtain ⟨named, clock⟩ := @clock_notifyAll deck repository now source player clocked.named
    player.app.component.stateManager deltas
  rw [← manager] at clock
  constructor
  · refine ⟨named, (congrArg PositionClock.role clock).trans (Eq.trans ?_
      (clocked.role.trans role.symm))⟩
    split <;> rfl
  · intro quiet
    rw [if_neg (Bool.not_eq_true _ ▸ quiet)] at clock
    refine ⟨?_, congrArg PositionClock.expiry clock⟩
    have same := playing_applyAll quiet player.app.component.stateManager source
    rw [← manager] at same
    simp only [Player.Corrects, Player.withApp, role, same]
  · intro sets
    rw [if_pos sets] at clock
    exact ⟨now, rfl, updateTimerState_expiry _ now (clocked.role.trans role.symm) clock⟩

theorem Player.Clocked.applyOwn (clocked : player.Clocked deck) (now : ℚ) (delta : StateDelta) :
    ClockStep player (player.applyOwn repository now delta).1 deck (some now)
      (setsPlaying deck [delta]) :=
  clocked.notifyAll now .own (role_applyDelta now player.app.component delta .own)
    (stateManager_applyDelta player.app.component now delta .own)

theorem Player.Clocked.emitResyncNow (clocked : player.Clocked deck) (now : ℚ) (ticked : DeckId) :
    ClockStep player (player.emitResyncNow repository now ticked).1 deck (some now) false := by
  unfold Player.emitResyncNow
  split
  · have silent (position : ℚ) : setsPlaying deck
        [{ deck := ticked, positionSeconds := some position }] = false := by
      simp [setsPlaying]
    rw [← silent (player.decks ticked).getCurrentPosition]
    exact clocked.applyOwn now _
  · exact clocked.kept _ rfl rfl rfl rfl

theorem Player.Clocked.dispatch (clocked : player.Clocked deck) (now : ℚ) (msg : Var) :
    ClockStep player (player.dispatch repository now msg).1 deck (some now)
      (tellsRole msg || setsPlaying deck (remoteDeltas msg)) := by
  cases tells : tellsRole msg with
  | true =>
      have named := (@clock_notifyAll deck repository now .remote player clocked.named
        player.app.component.stateManager (remoteDeltas msg)).1
      simp only [Player.dispatch, tells, ↓reduceIte]
      refine ⟨⟨named, rfl⟩, ?_, fun _ => ⟨now, rfl, fun corrects => ?_⟩⟩
      · intro untold
        cases untold
      · exact updateTimerState_expiry { role := _, expiry := _ } now rfl rfl corrects
  | false =>
      have role := role_dispatch now player.app msg
      rw [roleAfter_of_untold player.app.component tells] at role
      simp only [Player.dispatch, tells, Bool.false_eq_true, ↓reduceIte, Bool.false_or]
      exact clocked.notifyAll now .remote role (stateManager_dispatch now player.app msg)

theorem Player.Clocked.selfStopTick (clocked : player.Clocked deck) (now : ℚ) (ticked : DeckId) :
    ClockStep player (player.step repository outputLatencyFrames (.selfStopTick now ticked)).1 deck
      (some now) (player.selfStops ticked && ticked = deck) := by
  rw [step_selfStopTick]
  cases stops : player.selfStops ticked with
  | true =>
      have sets : setsPlaying deck [{ deck := ticked, playing := some false }] =
          decide (ticked = deck) := by
        simp [setsPlaying]
      rw [if_pos rfl, Bool.true_and, ← sets]
      exact clocked.applyOwn now _
  | false =>
      rw [if_neg Bool.false_ne_true]
      exact clocked.kept _ rfl rfl rfl rfl

/-- An expired timer counts again from the tick, whether it has something to send or not. -/
theorem Player.Clocked.positionTick (clocked : player.Clocked deck) (now : ℚ) (ticked : DeckId) :
    ClockStep player (player.step repository outputLatencyFrames (.positionTick now ticked)).1 deck
      (some now) (ticked = deck && (player.decks deck).clock.expiry.any (· ≤ now)) := by
  have fires : (decide (ticked = deck) && (player.decks deck).clock.expiry.any (· ≤ now)) =
      (decide (ticked = deck) && (player.decks ticked).clock.expiry.any (· ≤ now)) := by
    by_cases own : ticked = deck
    · rw [own]
    · rw [decide_eq_false own, Bool.false_and, Bool.false_and]
  rw [fires]
  simp only [Player.step]
  cases running : (player.decks ticked).clock.expiry with
  | none =>
      rw [Option.any_none, Bool.and_false]
      exact clocked.kept _ rfl rfl rfl rfl
  | some expiry =>
      rw [Option.any_some]
      dsimp only
      by_cases early : now < expiry
      · rw [decide_eq_false (not_le.mpr early), Bool.and_false, if_pos early]
        exact clocked.kept _ rfl rfl rfl rfl
      · rw [decide_eq_true (not_lt.mp early), Bool.and_true, if_neg early]
        let wound := player.setDeck ticked { player.decks ticked with
          clock := { (player.decks ticked).clock with expiry := some (now + 5000) } }
        have set : ∀ deck, (wound.decks deck).adapter = (player.decks deck).adapter ∧
            (wound.decks deck).clock = { (player.decks deck).clock with
              expiry := if ticked = deck then some (now + 5000)
                else (player.decks deck).clock.expiry } := by
          intro deck
          by_cases own : ticked = deck
          · simp [wound, Player.setDeck, own]
          · simp [wound, Player.setDeck, Function.update_of_ne (Ne.symm own), own]
        obtain ⟨adapter, clock⟩ := set deck
        have before : wound.Clocked deck :=
          ⟨adapter ▸ clocked.named, clock ▸ clocked.role⟩
        have emitted := @Player.Clocked.emitResyncNow deck repository wound before now ticked
        obtain ⟨corrects, expiry⟩ := emitted.idle rfl
        rw [clock] at expiry
        refine ⟨emitted.clocked, fun other => ⟨corrects, ?_⟩, fun own => ⟨now, rfl, fun _ => ?_⟩⟩
        · rw [expiry, if_neg (of_decide_eq_false other)]
        · rw [expiry, if_pos (of_decide_eq_true own)]

/-- The device and its audio thread have no part in the clock. -/
theorem Player.Clocked.setDeck (clocked : player.Clocked deck) (ticked : DeckId)
    {changed : DeckPlayer} (adapter : changed.adapter = (player.decks ticked).adapter)
    (clock : changed.clock = (player.decks ticked).clock) :
    ClockStep player (player.setDeck ticked changed) deck none false := by
  refine clocked.kept none rfl rfl ?_ ?_ <;> simp only [Player.setDeck]
  · by_cases own : deck = ticked
    · rw [own, Function.update_self, adapter]
    · rw [Function.update_of_ne own]
  · by_cases own : deck = ticked
    · rw [own, Function.update_self, clock]
    · rw [Function.update_of_ne own]

/-- What each event does to a deck's timer. -/
theorem Player.Clocked.step (clocked : player.Clocked deck) (event : PlayerEvent) :
    ClockStep player (player.step repository outputLatencyFrames event).1 deck event.time
      (player.winds deck event) := by
  cases event with
  | edit now delta => exact clocked.applyOwn now delta
  | message now msg => exact clocked.dispatch now msg
  | selfStopTick now ticked => exact clocked.selfStopTick now ticked
  | positionTick now ticked => exact clocked.positionTick now ticked
  | publisherTick | connect => exact clocked.kept _ rfl rfl rfl rfl
  | prepareToPlay ticked samplesPerBlockExpected sampleRate => exact clocked.setDeck ticked rfl rfl
  | block ticked numOutput => exact clocked.setDeck ticked rfl rfl
  | closed now =>
      refine ⟨⟨clocked.named, rfl⟩, ?_, fun _ => ⟨now, rfl, fun corrects => ?_⟩⟩
      · intro untold
        cases untold
      · have observer : Role.observer = .controller := corrects.1
        cases observer

end Effects

end DjApp.Client
