import DjApp.Client.Standing

/-! What a controller has put on the wire against what it shows: the deltas it has sent
since it became controller, with what is still pending, are its decks. And nothing that a
resync or a snapshot has superseded is sent after it. -/

set_option autoImplicit false

namespace DjApp.Client

open Library
open Server (Frame RoomConfig)

def runClient (events : List ClientEvent) : ClientApp := Machine.run ClientApp.step {} events

def clientTrace (events : List ClientEvent) : List ClientEntry :=
  Machine.trace ClientApp.step {} events

def BecomesController (row : ClientEntry) : Prop :=
  row.before.component.role ≠ .controller ∧ row.after.component.role = .controller

instance (row : ClientEntry) : Decidable (BecomesController row) := by
  unfold BecomesController
  infer_instance

/-- The deltas sent since the client last became controller, with those of that step. -/
def tenureDeltas (history : List ClientEntry) : List StateDelta :=
  history.foldl (fun sent row =>
    if BecomesController row then deltasOf row.output else sent ++ deltasOf row.output) []

/-- Whether an event is a delta or a snapshot of the room. -/
def ClientEvent.overwrites : ClientEvent → Bool
  | .frame _ (.delta _ _ _ _) | .frame _ (.snapshot _ _) => true
  | _ => false

/-- A step as a room allows it: no delta or snapshot reaches a controller. -/
def FromRoom (config : RoomConfig) (row : ClientEntry) : Prop :=
  row.input.Valid config ∧
    (row.input.overwrites = true → row.before.component.role ≠ .controller)

/-- The state that an event sets a deck to, where it is a snapshot or a welcome. -/
def ClientEvent.shown : ClientEvent → DeckId → Option PlaybackState
  | .frame _ (.welcome _ _ _ decks _), deck | .frame _ (.snapshot _ decks), deck =>
      (decks.lookup deck).map .ofDeck
  | _, _ => none

/-- Nothing pending is superseded by a step: on becoming controller the client publishes
its decks, and a snapshot sets them. -/
structure Current (row : ClientEntry) : Prop where
  resync : BecomesController row → ∀ deck,
    row.before.component.syncPublisher.Repeats deck (row.before.component.stateManager.getState deck)
  snapshot : ∀ deck, ∀ state ∈ row.input.shown deck,
    row.before.component.syncPublisher.Repeats deck state

instance (row : ClientEntry) : Decidable (Current row) :=
  decidable_of_iff
    ((BecomesController row → ∀ deck, row.before.component.syncPublisher.Repeats deck
        (row.before.component.stateManager.getState deck)) ∧
      ∀ deck, ∀ state ∈ row.input.shown deck, row.before.component.syncPublisher.Repeats deck state)
    ⟨fun ⟨resync, snapshot⟩ => ⟨resync, snapshot⟩, fun ⟨resync, snapshot⟩ => ⟨resync, snapshot⟩⟩

/-- What has last been settled for each deck: by a snapshot or a welcome, or by the client
as controller, whose resync and edits the wire carries. -/
def ruling (history : List ClientEntry) : DeckId → Option PlaybackState :=
  history.foldl (fun settled row deck =>
    if row.after.component.role = .controller then some (row.after.component.stateManager.getState deck)
    else (row.input.shown deck).or (settled deck)) fun _ => none

/-- A delta that says nothing but what has last been settled for its deck. -/
def Unsuperseded (history : List ClientEntry) (delta : StateDelta) : Prop :=
  ∀ state ∈ ruling history delta.deck, state.merge delta = state

/-- A controller has sent its decks, but for what it still owes. -/
structure Streams (history : List ClientEntry) (app : ClientApp) : Prop where
  coherent : app.Coherent
  sent : app.component.role = .controller → ∀ base : Decks,
    app.component.syncPublisher.settle (base.overlayAll (tenureDeltas history)) =
      app.component.stateManager.states

theorem tenureDeltas_concat (history : List ClientEntry) (row : ClientEntry) :
    tenureDeltas (history ++ [row]) =
      if BecomesController row then deltasOf row.output
      else tenureDeltas history ++ deltasOf row.output := by
  simp [tenureDeltas, List.foldl_append]

section Steps

variable {config : RoomConfig} {history : List ClientEntry} {app : ClientApp}

/-- A step that leaves a controller as it is owes what it owed, and what it sends. -/
private theorem Streams.kept (streams : Streams history app) {event : ClientEvent}
    (coherent : (app.step event).1.Coherent)
    (role : (app.step event).1.component.role = .controller → app.component.role = .controller ∧
      ∀ decks : Decks, app.component.syncPublisher.settle decks =
          app.component.stateManager.states →
        (app.step event).1.component.syncPublisher.settle
            (decks.overlayAll (deltasOf (app.step event).2)) =
          (app.step event).1.component.stateManager.states) :
    Streams (history ++ [Machine.entry ClientApp.step app event]) (app.step event).1 := by
  refine ⟨coherent, fun controls base => ?_⟩
  obtain ⟨before, settled⟩ := role controls
  have stays : ¬ BecomesController (Machine.entry ClientApp.step app event) := fun becomes =>
    becomes.1 before
  rw [tenureDeltas_concat, if_neg stays, Decks.overlayAll_append]
  exact settled _ (streams.sent before base)

/-- On becoming controller a client sends its decks, and owes nothing else. -/
private theorem Streams.started {event : ClientEvent} (coherent : (app.step event).1.Coherent)
    (becomes : BecomesController (Machine.entry ClientApp.step app event))
    (current : Current (Machine.entry ClientApp.step app event))
    (resync : (app.step event).2 = app.component.pushFullResync)
    (states : (app.step event).1.component.stateManager.states = app.component.stateManager.states)
    (pending : (app.step event).1.component.syncPublisher.pending =
      app.component.syncPublisher.pending) :
    Streams (history ++ [Machine.entry ClientApp.step app event]) (app.step event).1 := by
  refine ⟨coherent, fun _ base => ?_⟩
  have sent : base.overlayAll (deltasOf (app.step event).2) = app.component.stateManager.states := by
    rw [resync]
    exact overlayAll_pushFullResync base app.component
  rw [tenureDeltas_concat, if_pos becomes]
  simp only [Machine.entry, sent, SyncPublisher.settle_congr pending, states]
  exact (SyncPublisher.settle_eq_self_iff _).mpr (current.resync becomes)

private theorem Streams.roleChanged (streams : Streams history app) {now : ℚ} {frame : Frame}
    (stepped : app.step (.frame now frame) = (app.receive frame, app.replies frame))
    {id : Server.ClientId} {role : Role} (shape : frame = .roleChanged id role)
    (coherent : (app.step (.frame now frame)).1.Coherent)
    (current : Current (Machine.entry ClientApp.step app (.frame now frame))) :
    Streams (history ++ [Machine.entry ClientApp.step app (.frame now frame)])
      (app.step (.frame now frame)).1 := by
  have kept : (app.receive frame).component.stateManager = app.component.stateManager ∧
      (app.receive frame).component.syncPublisher.pending = app.component.syncPublisher.pending := by
    subst shape
    exact ⟨rfl, rfl⟩
  have states := congrArg StateManager.states kept.1
  have settle := SyncPublisher.settle_congr kept.2
  by_cases own : id.text = app.component.ownClientId
  · have changed : (app.receive frame).component.role = role := by
      simp [shape, ClientApp.receive, MainComponent.receive, Knowledge.receive,
        MainComponent.knowledge, own]
    cases role with
    | observer =>
        apply streams.kept coherent
        intro controls
        rw [stepped, changed] at controls
        cases controls
    | controller =>
        by_cases already : app.component.role = .controller
        · have silent : app.replies frame = [] := by simp [shape, ClientApp.replies, already]
          refine streams.kept coherent fun _ => ⟨already, fun decks settled => ?_⟩
          rw [stepped, silent, settle, states]
          exact settled
        · have becomes : BecomesController (Machine.entry ClientApp.step app (.frame now frame)) := by
            refine ⟨already, ?_⟩
            rw [Machine.entry, stepped]
            exact changed
          have resync : app.replies frame = app.component.pushFullResync := by
            simp [shape, ClientApp.replies, own, already]
          refine Streams.started coherent becomes current ?_ ?_ ?_
          · rw [stepped, resync]
          · rw [stepped, states]
          · rw [stepped, kept.2]
  · have silent : app.replies frame = [] := by simp [shape, ClientApp.replies, own]
    have unchanged : (app.receive frame).component.role = app.component.role := by
      simp [shape, ClientApp.receive, MainComponent.receive, Knowledge.receive,
        MainComponent.knowledge, own]
    apply streams.kept coherent
    rw [stepped, silent, unchanged, settle, states]
    exact fun controls => ⟨controls, fun decks settled => settled⟩

theorem Streams.step (streams : Streams history app) {event : ClientEvent}
    (correct : FromRoom config (Machine.entry ClientApp.step app event))
    (current : Current (Machine.entry ClientApp.step app event)) :
    Streams (history ++ [Machine.entry ClientApp.step app event]) (app.step event).1 := by
  have coherent := streams.coherent.step correct.1
  cases event with
  | edit now delta =>
      have role : (app.step (.edit now delta)).1.component.role = app.component.role :=
        congrArg (·.known.role) (app.standing_edit now delta)
      exact streams.kept coherent fun controls => ⟨role ▸ controls, fun decks =>
        ClientApp.owes_edit streams.coherent (role ▸ controls) now delta⟩
  | tick now =>
      exact streams.kept coherent fun controls => ⟨controls, fun decks =>
        ClientApp.owes_tick streams.coherent now⟩
  | connect => exact streams.kept coherent fun controls => ⟨controls, fun decks settled => settled⟩
  | closed => exact streams.kept coherent fun controls => by cases controls
  | frame now frame =>
      have stepped : app.step (.frame now frame) = (app.receive frame, app.replies frame) :=
        dispatch_toVar app now correct.1
      cases frame with
      | roleChanged id role => exact streams.roleChanged stepped rfl coherent current
      | welcome id role serverSeq decks peers =>
          refine streams.kept coherent fun controls => ?_
          rw [stepped] at controls
          exact absurd (controls.symm.trans correct.1.1) (by decide)
      | delta serverSeq source deck changes =>
          refine streams.kept coherent fun controls => ?_
          rw [stepped] at controls
          exact absurd controls (correct.2 rfl)
      | snapshot serverSeq decks =>
          refine streams.kept coherent fun controls => ?_
          rw [stepped] at controls
          exact absurd controls (correct.2 rfl)
      | peerJoined | peerLeft | error =>
          refine streams.kept coherent ?_
          rw [stepped]
          exact fun controls => ⟨controls, fun decks settled => settled⟩

end Steps

section Settled

variable {config : RoomConfig} {history : List ClientEntry} {app : ClientApp}

theorem ruling_concat (history : List ClientEntry) (row : ClientEntry) (deck : DeckId) :
    ruling (history ++ [row]) deck =
      if row.after.component.role = .controller then
        some (row.after.component.stateManager.getState deck)
      else (row.input.shown deck).or (ruling history deck) := by
  simp [ruling, List.foldl_append]

/-- What a client has pending says nothing but what has last been settled. -/
structure Fresh (history : List ClientEntry) (app : ClientApp) : Prop where
  coherent : app.Coherent
  shown : app.component.role = .controller → ∀ deck,
    ruling history deck = some (app.component.stateManager.getState deck)
  repeats : ∀ deck, ∀ state ∈ ruling history deck, app.component.syncPublisher.Repeats deck state

/-- A step that leaves a controller's decks as they are, or the client an observer, settles
nothing by itself. -/
private theorem Fresh.ruling_kept (fresh : Fresh history app) {event : ClientEvent}
    (kept : (app.step event).1.component.role = .controller → app.component.role = .controller ∧
      (app.step event).1.component.stateManager = app.component.stateManager) (deck : DeckId) :
    ruling (history ++ [Machine.entry ClientApp.step app event]) deck =
      if (app.step event).1.component.role = .controller then ruling history deck
      else (event.shown deck).or (ruling history deck) := by
  rw [ruling_concat]
  by_cases controls : (app.step event).1.component.role = .controller
  · obtain ⟨before, same⟩ := kept controls
    rw [Machine.entry, if_pos controls, if_pos controls, same, fresh.shown before deck]
  · rw [Machine.entry, if_neg controls, if_neg controls]

/-- Such a step, if it sends no more than was pending, sends nothing superseded. -/
private theorem Fresh.kept (fresh : Fresh history app) {event : ClientEvent}
    (coherent : (app.step event).1.Coherent)
    (kept : (app.step event).1.component.role = .controller → app.component.role = .controller ∧
      (app.step event).1.component.stateManager = app.component.stateManager)
    (current : Current (Machine.entry ClientApp.step app event))
    (held : ∀ deck, ∀ delta ∈ (app.step event).1.component.syncPublisher.pending deck,
      delta ∈ app.component.syncPublisher.pending deck)
    (drawn : ∀ delta ∈ deltasOf (app.step event).2,
      delta ∈ app.component.syncPublisher.pending delta.deck) :
    Fresh (history ++ [Machine.entry ClientApp.step app event]) (app.step event).1 ∧
      ∀ delta ∈ deltasOf (app.step event).2,
        Unsuperseded (history ++ [Machine.entry ClientApp.step app event]) delta := by
  have repeats : ∀ deck, ∀ state ∈ ruling (history ++ [Machine.entry ClientApp.step app event]) deck,
      app.component.syncPublisher.Repeats deck state := by
    intro deck state settled
    rw [fresh.ruling_kept kept deck] at settled
    split at settled
    · exact fresh.repeats deck state settled
    · rcases Option.or_eq_some_iff.mp settled with snapshot | ⟨_, before⟩
      · exact current.snapshot deck state snapshot
      · exact fresh.repeats deck state before
  refine ⟨⟨coherent, fun controls deck => ?_, fun deck state settled delta pending => ?_⟩, ?_⟩
  · rw [ruling_concat]
    exact if_pos controls
  · exact repeats deck state settled delta (held deck delta pending)
  · exact fun delta sent state settled => repeats _ state settled delta (drawn delta sent)

private theorem Fresh.edited (fresh : Fresh history app) {now : ℚ} {delta : StateDelta}
    (coherent : (app.step (.edit now delta)).1.Coherent) (present : delta.empty = false)
    (controls : app.component.role = .controller)
    (remains : (app.step (.edit now delta)).1.component.role = .controller) :
    Fresh (history ++ [Machine.entry ClientApp.step app (.edit now delta)])
        (app.step (.edit now delta)).1 ∧
      ∀ sent ∈ deltasOf (app.step (.edit now delta)).2,
        Unsuperseded (history ++ [Machine.entry ClientApp.step app (.edit now delta)]) sent := by
  have online : app.component.syncPublisher.connected = true := by
    rw [fresh.coherent.connected, ← Bool.not_eq_false]
    intro offline
    exact absurd (controls.symm.trans (fresh.coherent.offline offline).2) (by decide)
  have told := SyncPublisher.tell_repeats fresh.coherent.keyed now
    (app.component.stateManager.prepare delta .own)
    (fun deck => fresh.repeats deck _ (fresh.shown controls deck))
    ⟨online, fresh.coherent.role.trans controls⟩
  have stepped := MainComponent.applyDelta_own app.component now present
  have settled : ∀ deck,
      ruling (history ++ [Machine.entry ClientApp.step app (.edit now delta)]) deck =
        some ((app.step (.edit now delta)).1.component.stateManager.getState deck) := by
    intro deck
    rw [ruling_concat]
    exact if_pos remains
  refine ⟨⟨coherent, fun _ => settled, fun deck state shown => ?_⟩, fun sent listed state shown => ?_⟩
  · obtain rfl := Option.some.inj ((settled deck).symm.trans shown)
    simp only [ClientApp.step, ClientApp.withComponent, stepped]
    exact told.1 deck
  · obtain rfl := Option.some.inj ((settled sent.deck).symm.trans shown)
    simp only [ClientApp.step, ClientApp.withComponent, stepped, deltasOf_map_delta] at listed ⊢
    exact told.2 sent listed

/-- An observer's edit is not for its publisher. -/
private theorem step_edit_observer (coherent : app.Coherent) (now : ℚ) (delta : StateDelta)
    (observes : app.component.role ≠ .controller) :
    (app.step (.edit now delta)).1.component.syncPublisher = app.component.syncPublisher ∧
      deltasOf (app.step (.edit now delta)).2 = [] := by
  cases empty : delta.empty with
  | true =>
      rw [ClientApp.step, MainComponent.applyDelta_empty _ now _ empty]
      exact ⟨rfl, rfl⟩
  | false =>
      have silent : ¬ (app.component.syncPublisher.connected = true ∧
          app.component.syncPublisher.role = .controller) := fun controls =>
        observes (coherent.role ▸ controls.2)
      rw [ClientApp.step, MainComponent.applyDelta_own _ now empty, SyncPublisher.tell,
        if_neg silent]
      exact ⟨rfl, rfl⟩

private theorem mem_deltasOf_pushFullResync {component : MainComponent} {delta : StateDelta}
    (listed : delta ∈ deltasOf component.pushFullResync) :
    delta = fullResyncDelta delta.deck (component.stateManager.getState delta.deck) := by
  rcases List.mem_pair.mp listed with rfl | rfl
  · rfl
  · rfl

private theorem Fresh.roleChanged (fresh : Fresh history app) {now : ℚ} {id : Server.ClientId}
    {role : Role}
    (stepped : app.step (.frame now (.roleChanged id role)) =
      (app.receive (.roleChanged id role), app.replies (.roleChanged id role)))
    (coherent : (app.step (.frame now (.roleChanged id role))).1.Coherent)
    (current : Current (Machine.entry ClientApp.step app (.frame now (.roleChanged id role)))) :
    Fresh (history ++ [Machine.entry ClientApp.step app (.frame now (.roleChanged id role))])
        (app.step (.frame now (.roleChanged id role))).1 ∧
      ∀ delta ∈ deltasOf (app.step (.frame now (.roleChanged id role))).2,
        Unsuperseded (history ++
          [Machine.entry ClientApp.step app (.frame now (.roleChanged id role))]) delta := by
  by_cases becomes : BecomesController
      (Machine.entry ClientApp.step app (.frame now (.roleChanged id role)))
  · have settled : ∀ deck, ruling (history ++
        [Machine.entry ClientApp.step app (.frame now (.roleChanged id role))]) deck =
          some (app.component.stateManager.getState deck) := by
      intro deck
      rw [ruling_concat, if_pos becomes.2, Machine.entry, stepped]
      rfl
    refine ⟨⟨coherent, fun _ deck => ?_, fun deck state shown => ?_⟩, fun delta listed state shown => ?_⟩
    · rw [settled, stepped]
      rfl
    · obtain rfl := Option.some.inj ((settled deck).symm.trans shown)
      rw [stepped]
      exact current.resync becomes deck
    · obtain rfl := Option.some.inj ((settled delta.deck).symm.trans shown)
      rw [stepped, ClientApp.replies] at listed
      split at listed
      · rw [mem_deltasOf_pushFullResync listed]
        rfl
      · cases listed
  · have silent : app.replies (.roleChanged id role) = [] := by
      refine if_neg fun granted => becomes ⟨granted.2.2, ?_⟩
      rw [Machine.entry, stepped]
      simp [ClientApp.receive, MainComponent.receive, Knowledge.receive, MainComponent.knowledge,
        granted.1, granted.2.1]
    refine fresh.kept coherent (fun after => ⟨?_, ?_⟩) current ?_ ?_
    · exact not_not.mp fun before => becomes ⟨before, after⟩
    · rw [stepped]
      rfl
    · rw [stepped]
      exact fun _ _ pending => pending
    · rw [stepped, silent]
      exact fun _ listed => absurd listed List.not_mem_nil

/-- A client sends nothing superseded, as long as no step supersedes what is pending. -/
theorem Fresh.step (fresh : Fresh history app) {event : ClientEvent}
    (correct : FromRoom config (Machine.entry ClientApp.step app event))
    (current : Current (Machine.entry ClientApp.step app event)) :
    Fresh (history ++ [Machine.entry ClientApp.step app event]) (app.step event).1 ∧
      ∀ delta ∈ deltasOf (app.step event).2,
        Unsuperseded (history ++ [Machine.entry ClientApp.step app event]) delta := by
  have coherent := fresh.coherent.step correct.1
  have unsent : ∀ delta : StateDelta, delta ∈ deltasOf [] →
      delta ∈ app.component.syncPublisher.pending delta.deck := by
    intro delta listed
    cases listed
  cases event with
  | edit now delta =>
      have role : (app.step (.edit now delta)).1.component.role = app.component.role :=
        congrArg (·.known.role) (app.standing_edit now delta)
      by_cases controls : app.component.role = .controller
      · cases empty : delta.empty with
        | true =>
            have stepped : app.step (.edit now delta) = (app, []) := by
              rw [ClientApp.step, MainComponent.applyDelta_empty _ now _ empty]
              rfl
            refine fresh.kept coherent (fun _ => ⟨controls, ?_⟩) current ?_ ?_
            · rw [stepped]
            · rw [stepped]
              exact fun _ _ pending => pending
            · rw [stepped]
              exact unsent
        | false => exact fresh.edited coherent empty controls (role.trans controls)
      · obtain ⟨publisher, silent⟩ := step_edit_observer fresh.coherent now delta controls
        refine fresh.kept coherent (fun after => absurd (role ▸ after) controls) current ?_ ?_
        · rw [publisher]
          exact fun _ _ pending => pending
        · rw [silent]
          exact unsent
  | tick now =>
      have sends := SyncPublisher.timerCallback_sends fresh.coherent.keyed now
      refine fresh.kept coherent (fun after => ⟨after, rfl⟩) current sends.held ?_
      simp only [ClientApp.step, ClientApp.withComponent, MainComponent.publisherTick,
        deltasOf_map_delta]
      exact sends.drawn
  | connect =>
      exact fresh.kept coherent (fun after => ⟨after, rfl⟩) current (fun _ _ pending => pending) unsent
  | closed =>
      exact fresh.kept coherent (fun after => by cases after) current (fun _ _ pending => pending)
        unsent
  | frame now frame =>
      have stepped : app.step (.frame now frame) = (app.receive frame, app.replies frame) :=
        dispatch_toVar app now correct.1
      have pending : ∀ deck, (app.receive frame).component.syncPublisher.pending deck =
          app.component.syncPublisher.pending deck := by
        intro deck
        cases frame <;> rfl
      cases frame with
      | roleChanged id role => exact fresh.roleChanged stepped coherent current
      | welcome id role serverSeq decks peers =>
          refine fresh.kept coherent (fun after => ?_) current ?_ ?_
          · rw [stepped] at after
            exact absurd (after.symm.trans correct.1.1) (by decide)
          · rw [stepped]
            exact fun deck delta held => pending deck ▸ held
          · rw [stepped]
            exact unsent
      | delta serverSeq source deck changes =>
          refine fresh.kept coherent (fun after => ?_) current ?_ ?_
          · rw [stepped] at after
            exact absurd after (correct.2 rfl)
          · rw [stepped]
            exact fun deck delta held => pending deck ▸ held
          · rw [stepped, ClientApp.replies]
            split <;> exact unsent
      | snapshot serverSeq decks =>
          refine fresh.kept coherent (fun after => ?_) current ?_ ?_
          · rw [stepped] at after
            exact absurd after (correct.2 rfl)
          · rw [stepped]
            exact fun deck delta held => pending deck ▸ held
          · rw [stepped]
            exact unsent
      | peerJoined | peerLeft | error =>
          refine fresh.kept coherent (fun after => ?_) current ?_ ?_
          · rw [stepped] at after ⊢
            exact ⟨after, rfl⟩
          · rw [stepped]
            exact fun deck delta held => pending deck ▸ held
          · rw [stepped]
            exact unsent

end Settled

section Runs

variable {config : RoomConfig} {events : List ClientEvent}
  (correct : ∀ row ∈ clientTrace events, FromRoom config row)
  (current : ∀ row ∈ clientTrace events, Current row)

include correct current

theorem streams_run : Streams (clientTrace events) (runClient events) :=
  Machine.history_invariant_of ClientApp.step (fun row => FromRoom config row ∧ Current row) Streams
    ⟨.initial, fun controls => by cases controls⟩
    (fun _ _ _ streams allowed => streams.step allowed.1 allowed.2)
    fun row member => ⟨correct row member, current row member⟩

theorem fresh_run : Fresh (clientTrace events) (runClient events) :=
  Machine.history_invariant_of ClientApp.step (fun row => FromRoom config row ∧ Current row) Fresh
    ⟨.initial, (fun controls => by cases controls), fun _ _ settled => by cases settled⟩
    (fun _ _ _ fresh allowed => (fresh.step allowed.1 allowed.2).1)
    fun row member => ⟨correct row member, current row member⟩

end Runs

/-- While nothing is pending, the deltas a controller has sent since it became one give
its decks, and nothing superseded is ever sent, if no step supersedes what is pending. -/
theorem stream_reconstructs_state (config : RoomConfig) (events : List ClientEvent)
    (correct : ∀ row ∈ clientTrace events, FromRoom config row)
    (current : ∀ row ∈ clientTrace events, Current row) :
    ((runClient events).component.role = .controller →
      (∀ deck, (runClient events).component.syncPublisher.pending deck = none) →
      ∀ (base : Decks) (deck : DeckId), base.overlayAll (tenureDeltas (clientTrace events)) deck =
        (runClient events).component.stateManager.getState deck) ∧
    ∀ earlier row later, clientTrace events = earlier ++ row :: later →
      ∀ delta ∈ deltasOf row.output, Unsuperseded (earlier ++ [row]) delta := by
  constructor
  · intro controls idle base deck
    have settled := (streams_run correct current).sent controls base
    rw [SyncPublisher.settle_of_idle idle] at settled
    exact congrFun settled deck
  · intro earlier row later shape
    obtain ⟨first, event, rest, -, rfl, rfl, -⟩ := Machine.trace_split ClientApp.step shape
    rw [shape, List.forall_mem_append, List.forall_mem_cons] at correct current
    exact ((fresh_run correct.1 current.1).step correct.2.1 current.2.1).2

section StalePending

def soleConfig : RoomConfig := { roomCode := js "sixteen-letters-", maxClients := 8 }

/-- The welcome of a client that is alone in its room. -/
def soleWelcome : Frame := .welcome ⟨7⟩ .observer 0 [(.A, Server.defaultDeckState)] []

def gainEdit (now gain : ℚ) : ClientEvent := .edit now { deck := .A, gain := some (.ofDouble gain) }

def firstTenure : List ClientEvent := [.frame 0 soleWelcome, .frame 1 (.roleChanged ⟨7⟩ .controller)]

/-- Two edits within one interval, a release, one more edit and the next tenure. -/
def stalePending : List ClientEvent :=
  firstTenure ++ [gainEdit 2 (1 / 2), gainEdit 3 (1 / 4), .frame 4 (.roleChanged ⟨7⟩ .observer),
    gainEdit 5 (3 / 2), .frame 6 (.roleChanged ⟨7⟩ .controller), .tick 100]

theorem soleWelcome_valid : soleWelcome.Valid soleConfig := by
  refine ⟨rfl, ⟨.inl rfl, ?_⟩, ⟨by decide, by simp, List.nodup_nil⟩⟩
  intro deck member
  obtain rfl := List.mem_singleton.mp member
  exact Server.defaultDeckState_valid

/-- A run without deltas and snapshots is one that any room allows. -/
theorem fromRoom_of_events {config : RoomConfig} {events : List ClientEvent}
    (valid : ∀ event ∈ events, event.Valid config)
    (quiet : ∀ event ∈ events, event.overwrites = false) :
    ∀ row ∈ clientTrace events, FromRoom config row := by
  intro row member
  have input := Machine.input_mem ClientApp.step member
  refine ⟨valid row.input input, fun overwrites => ?_⟩
  rw [quiet row.input input] at overwrites
  cases overwrites

theorem stalePending_valid : ∀ event ∈ stalePending, event.Valid soleConfig := by
  simp only [stalePending, firstTenure, gainEdit, List.cons_append, List.nil_append,
    List.forall_mem_cons]
  exact ⟨soleWelcome_valid, trivial, trivial, trivial, trivial, trivial, trivial, trivial, by simp⟩

end StalePending

def quarterGain : Server.Deck := { Server.defaultDeckState with gain := 1 / 4 }

/-- A tenure whose last edit is still pending when it ends, and repeated by a snapshot; then
another. -/
def secondTenure : List ClientEvent :=
  firstTenure ++ [gainEdit 2 (1 / 2), gainEdit 3 (1 / 4), .frame 4 (.roleChanged ⟨7⟩ .observer),
    .frame 5 (.snapshot 3 [(.A, quarterGain)]), .tick 100,
    .frame 101 (.roleChanged ⟨7⟩ .controller), gainEdit 200 (3 / 2)]

theorem secondTenure_valid : ∀ event ∈ secondTenure, event.Valid soleConfig := by
  have snapshot : Server.DecksValid [(.A, quarterGain)] := by
    refine ⟨.inl rfl, fun deck member => ?_⟩
    obtain rfl := List.mem_singleton.mp member
    exact { Server.defaultDeckState_valid with
      gain := by norm_num [quarterGain, Server.FieldRange.gain, Server.Range.Holds] }
  simp only [secondTenure, firstTenure, gainEdit, List.cons_append, List.nil_append,
    List.forall_mem_cons]
  exact ⟨soleWelcome_valid, trivial, trivial, trivial, trivial, snapshot, trivial, trivial, trivial,
    by simp⟩

/-- The pending edit that the snapshot repeats is sent, and the second tenure gives its decks. -/
theorem stream_reconstructs_second_tenure :
    (∀ deck, Decks.overlayAll (fun _ => {}) (tenureDeltas (clientTrace secondTenure)) deck =
      (runClient secondTenure).component.stateManager.getState deck) ∧
    ((runClient secondTenure).component.stateManager.getState .A).gain = .ofDouble (3 / 2) := by
  have correct : ∀ row ∈ clientTrace secondTenure, FromRoom soleConfig row := by
    have observes : ∀ row ∈ clientTrace secondTenure,
        row.input.overwrites = true → row.before.component.role ≠ .controller := by
      decide +kernel
    exact fun row member =>
      ⟨secondTenure_valid _ (Machine.input_mem ClientApp.step member), observes row member⟩
  have current : ∀ row ∈ clientTrace secondTenure, Current row := by decide +kernel
  obtain ⟨reconstructs, _⟩ := stream_reconstructs_state soleConfig secondTenure correct current
  exact ⟨reconstructs (by decide +kernel) (by decide +kernel) _, by decide +kernel⟩

/-- A value of the earlier tenure is flushed after the resync of the next. -/
theorem stale_pending_flushed :
    (∀ row ∈ clientTrace stalePending, FromRoom soleConfig row) ∧
      (runClient stalePending).component.connected = true ∧
      (runClient stalePending).component.role = .controller ∧
      (∀ deck, (runClient stalePending).component.syncPublisher.pending deck = none) ∧
      Decks.overlayAll (fun _ => {}) (tenureDeltas (clientTrace stalePending)) .A ≠
        (runClient stalePending).component.stateManager.getState .A := by
  refine ⟨fromRoom_of_events stalePending_valid (by decide), by decide +kernel, by decide +kernel,
    fun deck => ?_, ?_⟩
  · cases deck <;> decide +kernel
  · decide +kernel

end DjApp.Client
