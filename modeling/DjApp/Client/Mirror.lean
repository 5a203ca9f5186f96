import DjApp.Client.PlayerProperties
import DjApp.Client.SoundStates

/-! A client that only watches: its decks are those of the frames it has heard, except
where its own self-stop check has the last word on `playing`. -/

set_option autoImplicit false

namespace DjApp.Client

open Library
open Server (Frame RoomConfig)

/-- The events of a client whose user leaves the decks and the connection alone. -/
def PlayerEvent.Passive : PlayerEvent → Prop
  | .edit _ _ | .connect | .closed _ => False
  | .message _ _ | .publisherTick _ | .selfStopTick _ _ | .positionTick _ _
  | .prepareToPlay _ _ _ | .block _ _ => True

def PlayerEvent.message? : PlayerEvent → Option Var
  | .message _ msg => some msg
  | _ => none

def messagesOf (events : List PlayerEvent) : List Var := events.filterMap PlayerEvent.message?

abbrev PlayerEntry := Machine.Entry Player PlayerEvent (List ClientMessage)

/-- Whether a tick of the deck's adapter would stop the deck's state. -/
def Player.selfStops (player : Player) (deck : DeckId) : Bool :=
  (player.decks deck).adapter.polling &&
    (player.app.component.stateManager.getState deck).playing && !(player.decks deck).isPlaying

def setsPlaying (deck : DeckId) (deltas : List StateDelta) : Bool :=
  deltas.any fun delta => delta.deck = deck && delta.playing.isSome

/-- Whether the self-stop check is the last to have set a deck's `playing`, from whether it
was before one more event. -/
def stoppedAfter (deck : DeckId) (stopped : Bool) (row : PlayerEntry) : Bool :=
  match row.input with
  | .selfStopTick _ ticked => stopped || (ticked = deck && row.before.selfStops deck)
  | .message _ msg => stopped && !setsPlaying deck (remoteDeltas msg)
  | _ => stopped

def selfStopped (deck : DeckId) (history : List PlayerEntry) : Bool :=
  history.foldl (stoppedAfter deck) false

section Agreement

/-- A state that differs from its mirror only where playback was stopped. -/
def Agrees (stopped : Bool) (state mirror : PlaybackState) : Prop :=
  state = { mirror with playing := mirror.playing && !stopped }

theorem agrees_merge {stopped : Bool} {state mirror : PlaybackState}
    (agrees : Agrees stopped state mirror) (delta : StateDelta) :
    Agrees (stopped && !delta.playing.isSome) (state.merge delta) (mirror.merge delta) := by
  rw [agrees]
  cases playing : delta.playing with
  | none => simp [Agrees, PlaybackState.merge, playing]
  | some value => simp [Agrees, PlaybackState.merge, playing]

/-- A remote delta is merged into its deck as it is once clamped. -/
theorem getState_applyRemote_cons (manager : StateManager) (delta : StateDelta)
    (rest : List StateDelta) (deck : DeckId) :
    ∃ next : StateManager, manager.applyRemote (delta :: rest) = next.applyRemote rest ∧
      next.getState deck = if delta.deck = deck then (manager.getState deck).merge delta.clamp
        else manager.getState deck := by
  refine ⟨(manager.applyDelta delta .remote).1, rfl, ?_⟩
  cases empty : delta.empty with
  | true =>
      have clamped : delta.clamp.empty = true := by
        simpa [StateDelta.empty, StateDelta.clamp] using empty
      simp [StateManager.applyDelta, empty, merge_of_empty clamped]
  | false =>
      simp only [StateManager.applyDelta, empty, Bool.false_eq_true, ↓reduceIte,
        StateManager.getState, Function.update_apply, StateManager.prepare,
        StateDelta.withPosition, reduceCtorEq, false_and]
      by_cases named : delta.deck = deck
      · simp [named]
      · simp [named, Ne.symm named]

theorem agrees_applyRemote {deck : DeckId} {stopped : Bool} {manager mirror : StateManager}
    (agrees : Agrees stopped (manager.getState deck) (mirror.getState deck))
    (deltas : List StateDelta) :
    Agrees (stopped && !setsPlaying deck deltas) ((manager.applyRemote deltas).getState deck)
      ((mirror.applyRemote deltas).getState deck) := by
  induction deltas generalizing stopped manager mirror with
  | nil =>
      have same : (stopped && !setsPlaying deck []) = stopped := by simp [setsPlaying]
      rw [same]
      exact agrees
  | cons delta rest ih =>
      obtain ⟨left, leftRest, leftState⟩ := getState_applyRemote_cons manager delta rest deck
      obtain ⟨right, rightRest, rightState⟩ := getState_applyRemote_cons mirror delta rest deck
      rw [leftRest, rightRest]
      by_cases named : delta.deck = deck
      · have merged := agrees_merge agrees delta.clamp
        rw [if_pos named] at leftState rightState
        rw [← leftState, ← rightState] at merged
        have same : (stopped && !setsPlaying deck (delta :: rest)) =
            ((stopped && !delta.clamp.playing.isSome) && !setsPlaying deck rest) := by
          simp [setsPlaying, named, StateDelta.clamp, Bool.and_assoc]
        rw [same]
        exact ih merged
      · rw [if_neg named] at leftState rightState
        have same : setsPlaying deck (delta :: rest) = setsPlaying deck rest := by
          simp [setsPlaying, named]
        rw [same]
        exact ih (by rw [leftState, rightState]; exact agrees)

/-- The remote deltas of a frame do to any decks what the frame does. -/
theorem applyRemote_toVar {config : RoomConfig} {frame : Frame} (valid : frame.Valid config)
    (states : Decks) :
    (StateManager.mk states).applyRemote (remoteDeltas frame.toVar) = ⟨states.receive frame⟩ := by
  let app : ClientApp := { component := { stateManager := ⟨states⟩ } }
  have heard := stateManager_dispatch 0 app frame.toVar
  rw [dispatch_toVar app 0 valid] at heard
  exact heard.symm

end Agreement

/-- A frame that does not make the client of this id the controller. -/
def Humble (id : Server.ClientId) : Frame → Prop
  | .welcome welcomed role _ _ _ => welcomed = id ∧ role = .observer
  | .roleChanged changed role => changed = id → role = .observer
  | .peerJoined _ _ _ | .peerLeft _ | .delta _ _ _ _ | .snapshot _ _ | .error _ _ => True

/-- An observer that has no name yet, or the one of this id. -/
def Knowledge.Observes (id : Server.ClientId) (known : Knowledge) : Prop :=
  known.role = .observer ∧ (known.ownClientId = "" ∨ known.ownClientId = id.text)

theorem Knowledge.Observes.receive {id : Server.ClientId} {known : Knowledge}
    (observes : known.Observes id) {frame : Frame} (humble : Humble id frame) :
    (known.receive frame).Observes id := by
  obtain ⟨role, named⟩ := observes
  cases frame with
  | welcome welcomed welcomeRole serverSeq decks peers =>
      obtain ⟨rfl, rfl⟩ := humble
      exact ⟨rfl, .inr rfl⟩
  | roleChanged changed changedRole =>
      simp only [Knowledge.receive]
      by_cases own : changed.text = known.ownClientId
      · rw [if_pos own]
        rcases named with unnamed | same
        · exact absurd (own.trans unnamed) (clientId_text_ne_empty changed)
        · exact ⟨humble (Server.ClientId.text_injective (own.trans same)), .inr same⟩
      · rw [if_neg own]
        exact ⟨role, named⟩
  | peerJoined | peerLeft | delta | snapshot | error => exact ⟨role, named⟩

/-- A client that has been welcomed, and by this id alone, goes by it. -/
theorem ownClientId_of_welcomed {id : Server.ClientId} {frames : List Frame} (known : Knowledge)
    (humble : ∀ frame ∈ frames, Humble id frame) (welcomed : frames.any isWelcome = true) :
    (frames.foldl Knowledge.receive known).ownClientId = id.text := by
  induction frames using List.reverseRecOn with
  | nil => cases welcomed
  | append_singleton earlier frame ih =>
      simp only [List.forall_mem_append, List.forall_mem_singleton] at humble
      rw [List.any_append, Bool.or_eq_true] at welcomed
      rw [List.foldl_append, List.foldl_cons, List.foldl_nil]
      cases frame with
      | welcome welcomedId role serverSeq decks peers =>
          obtain ⟨rfl, rfl⟩ := humble.2
          rfl
      | roleChanged changed role =>
          have before := ih humble.1 (welcomed.resolve_right (by simp [isWelcome]))
          simp only [Knowledge.receive]
          split
          · exact before
          · exact before
      | peerJoined | peerLeft | delta | snapshot | error =>
          exact ih humble.1 (welcomed.resolve_right (by simp [isWelcome]))

/-- A player that has heard these frames, all of them humble, and has only watched. -/
structure Watches (id : Server.ClientId) (frames : List Frame) (history : List PlayerEntry)
    (player : Player) : Prop where
  known : player.app.component.knowledge = frames.foldl Knowledge.receive ⟨"", .observer, []⟩
  observes : player.app.component.knowledge.Observes id
  publisherRole : player.app.component.syncPublisher.role = .observer
  idle : ∀ deck, player.app.component.syncPublisher.pending deck = none
  clocks : ∀ deck, (player.decks deck).clock.role = .observer
  decks : ∀ deck, Agrees (selfStopped deck history)
    (player.app.component.stateManager.getState deck) (frames.foldl Decks.receive (fun _ => {}) deck)

section Steps

variable {id : Server.ClientId} {frames : List Frame} {history : List PlayerEntry}
  {player : Player} {repository : Engine.AudioRepository} {outputLatencyFrames : ℚ → ℕ}

theorem watches_initial : Watches id [] [] {} :=
  ⟨rfl, ⟨rfl, .inl rfl⟩, rfl, fun _ => rfl, fun _ => rfl, fun _ => rfl⟩

theorem selfStopped_concat (deck : DeckId) (row : PlayerEntry) :
    selfStopped deck (history ++ [row]) = stoppedAfter deck (selfStopped deck history) row := by
  simp [selfStopped]

/-- The listeners leave the application and the roles of the clocks alone. -/
theorem notifyAll_kept (now : ℚ) (source : DeltaSource) (manager : StateManager)
    (deltas : List StateDelta) (player : Player) :
    let told := Player.notifyAll repository now source player manager deltas
    told.app = player.app ∧
      ∀ deck, (told.decks deck).clock.role = (player.decks deck).clock.role := by
  induction deltas generalizing manager player with
  | nil => exact ⟨rfl, fun _ => rfl⟩
  | cons delta rest ih =>
      simp only [Player.notifyAll]
      cases (manager.applyDelta delta source).2 with
      | none => exact ih _ player
      | some notification =>
          obtain ⟨app, roles⟩ := ih (manager.applyDelta delta source).1
            (player.notify repository now notification)
          refine ⟨app, fun deck => (roles deck).trans ?_⟩
          simp only [Player.notify, DeckPlayer.notify]
          split <;> rfl

/-- An event that leaves the application alone and stops no deck. -/
theorem Watches.idle_step (watches : Watches id frames history player) {row : PlayerEntry}
    (app : row.after.app = player.app)
    (clocks : ∀ deck, (row.after.decks deck).clock.role = (player.decks deck).clock.role)
    (steady : ∀ deck, stoppedAfter deck (selfStopped deck history) row = selfStopped deck history) :
    Watches id frames (history ++ [row]) row.after := by
  constructor
  · rw [app]
    exact watches.known
  · rw [app]
    exact watches.observes
  · rw [app]
    exact watches.publisherRole
  · rw [app]
    exact watches.idle
  · exact fun deck => (clocks deck).trans (watches.clocks deck)
  · intro deck
    rw [app, selfStopped_concat, steady deck]
    exact watches.decks deck

theorem timerCallback_idle {publisher : SyncPublisher} (now : ℚ)
    (idle : ∀ deck, publisher.pending deck = none) :
    publisher.timerCallback now = ({ publisher with timerRunning := false }, []) := by
  have still : ∀ deck, publisher.flushDeck now deck = (publisher, []) := by
    intro deck
    unfold SyncPublisher.flushDeck SyncPublisher.send
    rw [idle deck]
    split <;> rfl
  simp [SyncPublisher.timerCallback, still, idle]

theorem Watches.publisherTick (watches : Watches id frames history player) (now : ℚ) :
    Watches id frames
      (history ++ [Machine.entry (Player.step repository outputLatencyFrames) player
        (.publisherTick now)])
      (player.step repository outputLatencyFrames (.publisherTick now)).1 := by
  have silent := timerCallback_idle now watches.idle
  have app : (player.step repository outputLatencyFrames (.publisherTick now)).1.app =
      { player.app with component := { player.app.component with
          syncPublisher := { player.app.component.syncPublisher with timerRunning := false } } } := by
    simp [Player.step, ClientApp.step, ClientApp.withComponent, MainComponent.publisherTick, silent,
      Player.withApp]
  constructor
  · rw [app]
    exact watches.known
  · rw [app]
    exact watches.observes
  · rw [app]
    exact watches.publisherRole
  · rw [app]
    exact watches.idle
  · exact watches.clocks
  · intro deck
    rw [app, selfStopped_concat]
    exact watches.decks deck

theorem applyOwn_observer (player : Player) (now : ℚ) {delta : StateDelta}
    (present : delta.empty = false)
    (observer : player.app.component.syncPublisher.role = .observer) :
    (player.applyOwn repository now delta).1.app =
      { player.app with component := { player.app.component with
          stateManager := ⟨Decks.overlay player.app.component.stateManager.states
            (player.app.component.stateManager.prepare delta .own)⟩ } } := by
  have silent : player.app.component.syncPublisher.tell now
      (player.app.component.stateManager.prepare delta .own) =
        (player.app.component.syncPublisher, []) := by
    simp [SyncPublisher.tell, observer]
  simp only [Player.applyOwn, Player.withApp, ClientApp.step, ClientApp.withComponent,
    MainComponent.applyDelta_own _ now present, silent]

theorem step_selfStopTick (player : Player) (now : ℚ) (deck : DeckId) :
    player.step repository outputLatencyFrames (.selfStopTick now deck) =
      if player.selfStops deck then player.applyOwn repository now { deck, playing := some false }
      else (player, []) := by
  have stops_iff : player.selfStops deck = true ↔ (player.decks deck).adapter.polling = true ∧
      (player.app.component.stateManager.getState deck).playing = true ∧
        (player.decks deck).isPlaying = false := by
    simp [Player.selfStops, and_assoc]
  by_cases stops : player.selfStops deck = true
  · obtain ⟨polling, playing, stopped⟩ := stops_iff.mp stops
    simp only [Player.step, Player.checkForSelfStop, polling, playing, stopped, stops, and_self,
      ↓reduceIte]
  · rw [if_neg stops]
    simp only [Player.step, Player.checkForSelfStop]
    split
    · rename_i polling
      exact if_neg fun fires => stops (stops_iff.mpr ⟨polling, fires⟩)
    · rfl

/-- The correction freezes the deck: nothing but `playing` changes. -/
theorem getState_selfStop (manager : StateManager) (ticked deck : DeckId) :
    (Decks.overlay manager.states
      (manager.prepare { deck := ticked, playing := some false } .own)) deck =
        if ticked = deck then { manager.getState deck with playing := false }
        else manager.getState deck := by
  have applied : manager.prepare { deck := ticked, playing := some false } .own =
      { deck := ticked, playing := some false } := rfl
  rw [applied]
  by_cases same : ticked = deck
  · subst same
    simp [Decks.overlay, PlaybackState.merge, StateManager.getState]
  · simp [Decks.overlay, Function.update_of_ne (Ne.symm same), same, StateManager.getState]

theorem Watches.selfStopTick (watches : Watches id frames history player) (now : ℚ)
    (ticked : DeckId) :
    Watches id frames
      (history ++ [Machine.entry (Player.step repository outputLatencyFrames) player
        (.selfStopTick now ticked)])
      (player.step repository outputLatencyFrames (.selfStopTick now ticked)).1 := by
  have taken := @step_selfStopTick repository outputLatencyFrames player now ticked
  cases stops : player.selfStops ticked with
  | false =>
      rw [stops, if_neg (by decide)] at taken
      refine watches.idle_step ?_ ?_ ?_
      · rw [Machine.entry, taken]
      · intro deck
        rw [Machine.entry, taken]
      · intro deck
        by_cases same : ticked = deck
        · simp [stoppedAfter, Machine.entry, same, same ▸ stops]
        · simp [stoppedAfter, Machine.entry, same]
  | true =>
      rw [stops, if_pos rfl] at taken
      have app := @applyOwn_observer repository player now { deck := ticked, playing := some false }
        rfl watches.publisherRole
      rw [taken]
      constructor
      · rw [app]
        exact watches.known
      · rw [app]
        exact watches.observes
      · rw [app]
        exact watches.publisherRole
      · rw [app]
        exact watches.idle
      · intro deck
        refine Eq.trans ?_ (watches.clocks deck)
        exact (@notifyAll_kept repository now .own player.app.component.stateManager
          [{ deck := ticked, playing := some false }] player).2 deck
      · intro deck
        have agrees := watches.decks deck
        rw [app, selfStopped_concat, Agrees]
        apply (getState_selfStop player.app.component.stateManager ticked deck).trans
        by_cases same : ticked = deck
        · subst same
          rw [if_pos rfl, agrees]
          simp [stoppedAfter, Machine.entry, stops]
        · rw [if_neg same, agrees]
          simp [stoppedAfter, Machine.entry, same]

theorem Watches.message {config : RoomConfig} (watches : Watches id frames history player) (now : ℚ)
    {frame : Frame} (valid : frame.Valid config) (humble : Humble id frame) :
    Watches id (frames ++ [frame])
      (history ++ [Machine.entry (Player.step repository outputLatencyFrames) player
        (.message now frame.toVar)])
      (player.step repository outputLatencyFrames (.message now frame.toVar)).1 := by
  have app : (player.step repository outputLatencyFrames (.message now frame.toVar)).1.app =
      player.app.receive frame := by
    have handled := dispatch_toVar player.app now valid
    simp only [Player.step, Player.dispatch, handled]
    split <;> rfl
  have observes : ((player.app.component.knowledge).receive frame).Observes id :=
    watches.observes.receive humble
  constructor
  · rw [app, List.foldl_append, ← watches.known]
    rfl
  · rw [app]
    exact observes
  · rw [app]
    simp only [ClientApp.receive, MainComponent.receive]
    cases frame with
    | welcome | roleChanged | peerLeft => exact observes.1
    | peerJoined | delta | snapshot | error => exact watches.publisherRole
  · rw [app]
    intro deck
    cases frame <;> exact watches.idle deck
  · intro deck
    have role : (player.app.receive frame).component.role = .observer := observes.1
    have kept := (@notifyAll_kept repository now .remote player.app.component.stateManager
      (remoteDeltas frame.toVar) player).2 deck
    have handled := dispatch_toVar player.app now valid
    simp only [Player.step, Player.dispatch, handled]
    split
    · exact role
    · exact kept.trans (watches.clocks deck)
  · intro deck
    have heard := @agrees_applyRemote deck (selfStopped deck history)
      player.app.component.stateManager ⟨frames.foldl Decks.receive fun _ => {}⟩
      (watches.decks deck) (remoteDeltas frame.toVar)
    have state : player.app.component.stateManager.applyRemote (remoteDeltas frame.toVar) =
        ⟨Decks.receive player.app.component.stateManager.states frame⟩ := applyRemote_toVar valid _
    rw [state, applyRemote_toVar valid (frames.foldl Decks.receive fun _ => {})] at heard
    rw [selfStopped_concat, List.foldl_append, app]
    exact heard

/-- The clock of an observer never emits: a tick only winds it up again. -/
theorem Watches.positionTick (watches : Watches id frames history player) (now : ℚ)
    (ticked : DeckId) :
    Watches id frames
      (history ++ [Machine.entry (Player.step repository outputLatencyFrames) player
        (.positionTick now ticked)])
      (player.step repository outputLatencyFrames (.positionTick now ticked)).1 := by
  have kept : (player.step repository outputLatencyFrames (.positionTick now ticked)).1.app =
      player.app ∧ ∀ deck, ((player.step repository outputLatencyFrames
        (.positionTick now ticked)).1.decks deck).clock.role = (player.decks deck).clock.role := by
    simp only [Player.step]
    split
    · exact ⟨rfl, fun _ => rfl⟩
    · split
      · exact ⟨rfl, fun _ => rfl⟩
      · have observer : ¬ (player.decks ticked).clock.role = .controller := by
          rw [watches.clocks ticked]
          decide
        simp only [Player.emitResyncNow, Player.setDeck, Function.update_self, observer, false_and,
          ↓reduceIte, true_and]
        intro deck
        by_cases same : deck = ticked
        · subst same
          rw [Function.update_self]
        · rw [Function.update_of_ne same]
  exact watches.idle_step kept.1 kept.2 fun _ => rfl

theorem clocks_setDeck (player : Player) {changed : DeckPlayer} {deck : DeckId}
    (same : changed.clock = (player.decks deck).clock) (other : DeckId) :
    ((player.setDeck deck changed).decks other).clock.role = (player.decks other).clock.role := by
  simp only [Player.setDeck]
  by_cases own : other = deck
  · subst own
    rw [Function.update_self, same]
  · rw [Function.update_of_ne own]

theorem messagesOf_quiet (events : List PlayerEvent) {event : PlayerEvent}
    (quiet : event.message? = none) : messagesOf (events ++ [event]) = messagesOf events := by
  simp [messagesOf, quiet]

theorem messagesOf_message (events : List PlayerEvent) (now : ℚ) (msg : Var) :
    messagesOf (events ++ [.message now msg]) = messagesOf events ++ [msg] := by
  simp [messagesOf, PlayerEvent.message?]

/-- A player that only watches has the decks of what it has heard, its own stops apart. -/
theorem watches_run {config : RoomConfig} {events : List PlayerEvent}
    (passive : ∀ event ∈ events, event.Passive)
    (heard : messagesOf events = frames.map Frame.toVar)
    (valid : ∀ frame ∈ frames, frame.Valid config) (humble : ∀ frame ∈ frames, Humble id frame) :
    Watches id frames (Machine.trace (Player.step repository outputLatencyFrames) {} events)
      (Machine.run (Player.step repository outputLatencyFrames) {} events) := by
  induction events using List.reverseRecOn generalizing frames with
  | nil =>
      obtain rfl := List.map_eq_nil_iff.mp heard.symm
      exact watches_initial
  | append_singleton events event ih =>
      have earlier : ∀ event ∈ events, event.Passive := fun event member =>
        passive event (List.mem_append_left _ member)
      have allowed := passive event (by simp)
      rw [Machine.trace_concat, Machine.run_concat]
      cases event with
      | edit | connect | closed => cases allowed
      | message now msg =>
          rw [messagesOf_message] at heard
          obtain ⟨before, last, rfl, first, sent⟩ := List.map_eq_append_iff.mp heard.symm
          obtain ⟨frame, rfl, rfl⟩ := List.map_eq_singleton_iff.mp sent
          simp only [List.forall_mem_append, List.forall_mem_singleton] at valid humble
          exact (ih earlier first.symm valid.1 humble.1).message now valid.2 humble.2
      | publisherTick now =>
          rw [messagesOf_quiet events rfl] at heard
          exact (ih earlier heard valid humble).publisherTick now
      | selfStopTick now deck =>
          rw [messagesOf_quiet events rfl] at heard
          exact (ih earlier heard valid humble).selfStopTick now deck
      | positionTick now deck =>
          rw [messagesOf_quiet events rfl] at heard
          exact (ih earlier heard valid humble).positionTick now deck
      | prepareToPlay deck samples rate =>
          rw [messagesOf_quiet events rfl] at heard
          exact (ih earlier heard valid humble).idle_step rfl (clocks_setDeck _ rfl) fun _ => rfl
      | block deck numOutput =>
          rw [messagesOf_quiet events rfl] at heard
          exact (ih earlier heard valid humble).idle_step rfl (clocks_setDeck _ rfl) fun _ => rfl

end Steps

end DjApp.Client
