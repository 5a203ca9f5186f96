import DjApp.Client.FrameHandling

/-! What a snapshot leaves of the client's own state: nothing of a deck it has, and
all of a deck it does not have. -/

set_option autoImplicit false

namespace DjApp.Client

open Library
open Server (Frame RoomConfig)

/-- The client's image of the decks of a room, a deck not created yet being the default. -/
def Decks.ofRoom (decks : List (DeckId × Server.Deck)) : Decks :=
  fun deck => .ofDeck ((decks.lookup deck).getD Server.defaultDeckState)

theorem Decks.overwrite_of_mem (states : Decks) {decks : List (DeckId × Server.Deck)}
    {deck : DeckId} (present : decks.lookup deck ≠ none) :
    states.overwrite decks deck = Decks.ofRoom decks deck := by
  obtain ⟨state, found⟩ := Option.ne_none_iff_exists'.mp present
  simp [Decks.overwrite, Decks.ofRoom, found]

theorem Decks.overwrite_of_not_mem (states : Decks) {decks : List (DeckId × Server.Deck)}
    {deck : DeckId} (absent : decks.lookup deck = none) :
    states.overwrite decks deck = states deck := by
  simp [Decks.overwrite, absent]

theorem Decks.ofRoom_of_not_mem {decks : List (DeckId × Server.Deck)} {deck : DeckId}
    (absent : decks.lookup deck = none) : Decks.ofRoom decks deck = {} := by
  simp [Decks.ofRoom, absent, ofDeck_default]

theorem Decks.receive_of_decks (states : Decks) {frame : Frame}
    {decks : List (DeckId × Server.Deck)} (carries : frame.decks? = some decks) :
    Decks.receive states frame = states.overwrite decks := by
  cases frame with
  | welcome | snapshot =>
      cases carries
      rfl
  | peerJoined | peerLeft | roleChanged | delta | error => cases carries

theorem Decks.overwrite_eq_ofRoom_iff (states : Decks) {decks : List (DeckId × Server.Deck)}
    (valid : Server.DecksValid decks) :
    (∀ deck, states.overwrite decks deck = Decks.ofRoom decks deck) ↔
      decks.lookup .B ≠ none ∨ states .B = {} := by
  have deckA := states.overwrite_of_mem valid.deckA
  constructor
  · intro same
    by_contra neither
    obtain ⟨absent, dirty⟩ := not_or.mp neither
    rw [not_not] at absent
    have kept := same .B
    rw [states.overwrite_of_not_mem absent, Decks.ofRoom_of_not_mem absent] at kept
    exact dirty kept
  · intro either deck
    cases deck with
    | A => exact deckA
    | B =>
        rcases either with present | clean
        · exact states.overwrite_of_mem present
        · by_cases absent : decks.lookup .B = none
          · rw [states.overwrite_of_not_mem absent, Decks.ofRoom_of_not_mem absent, clean]
          · exact states.overwrite_of_mem absent

/-- A welcome or snapshot of any run makes the client's decks those of the room exactly
if it has a deck B, or the client's own deck B is untouched. -/
theorem snapshot_replaces_iff {config : RoomConfig} {calls : List Server.Call}
    {row : Server.Entry} (member : row ∈ Server.roomTrace config calls) {conn : Server.ConnId}
    {frame : Frame} (sent : .send conn frame ∈ row.output.effects)
    {decks : List (DeckId × Server.Deck)} (carries : frame.decks? = some decks) (app : ClientApp)
    (now : ℚ) :
    (∀ deck, (app.dispatch now frame.toVar).1.component.stateManager.getState deck =
        .ofDeck ((row.after.decks.lookup deck).getD Server.defaultDeckState)) ↔
      decks.lookup .B ≠ none ∨ app.component.stateManager.getState .B = {} := by
  obtain ⟨valid, shown⟩ := Server.roomTrace_frames member sent
  obtain rfl := shown decks carries
  have decksValid : Server.DecksValid row.after.decks := by
    cases frame with
    | welcome =>
        cases carries
        exact valid.2.1
    | snapshot =>
        cases carries
        exact valid
    | peerJoined | peerLeft | roleChanged | delta | error => cases carries
  have received : ∀ deck, (app.dispatch now frame.toVar).1.component.stateManager.getState deck =
      Decks.overwrite app.component.stateManager.states row.after.decks deck := by
    intro deck
    rw [dispatch_toVar app now valid]
    exact congrFun (Decks.receive_of_decks _ carries) deck
  simp only [received]
  exact Decks.overwrite_eq_ofRoom_iff _ decksValid

section FirstWelcome

def firstConfig : RoomConfig := { roomCode := js "sixteen-letters-", maxClients := 8 }

def firstHello : Server.Call :=
  .message 0 (Server.helloMessage 2 (js "Ana") firstConfig.roomCode) fun _ => ⟨7⟩

/-- The welcome of the first member of a room. -/
def firstWelcome : Frame := .welcome ⟨7⟩ .observer 0 [(.A, Server.defaultDeckState)] []

def firstRow : Server.Entry :=
  Machine.entry (Server.Room.step firstConfig) Server.createRoom firstHello

/-- A client whose user turned the gain of deck B down before it connected. -/
def dirtyApp : ClientApp :=
  { component := (MainComponent.applyDelta {} 0 { deck := .B, gain := some (.ofDouble (1 / 2)) }
      .own).1 }

theorem firstRow_mem : firstRow ∈ Server.roomTrace firstConfig [firstHello] :=
  List.mem_singleton_self _

theorem firstWelcome_sent : .send 0 firstWelcome ∈ firstRow.output.effects := by
  decide +kernel

end FirstWelcome

section LaterWelcome

def deltaOf (deck : String) (changes : List (JsString × JsValue)) : JsValue :=
  .obj [(js "type", .str (js "delta")), (js "deck", .str (js deck)), (js "changes", .obj changes)]

/-- Ana controls the room, plays a track on deck A and turns deck B down. -/
def performance : List Server.Call :=
  [firstHello,
    .message 0 (.obj [(js "type", .str (js "claimControl"))]) fun _ => ⟨0⟩,
    .message 0 (deltaOf "A" [(js "trackId", .str (js "intro")), (js "playing", .bool true),
      (js "positionSeconds", .number (5 / 2))]) fun _ => ⟨0⟩,
    .message 0 (deltaOf "B" [(js "gain", .number (1 / 4))]) fun _ => ⟨0⟩]

def laterHello : Server.Call :=
  .message 1 (Server.helloMessage 2 (js "Bea") firstConfig.roomCode) fun _ => ⟨9⟩

def laterRow : Server.Entry :=
  Machine.entry (Server.Room.step firstConfig)
    (Machine.run (Server.Room.step firstConfig) Server.createRoom performance) laterHello

/-- The welcome of a member who joins the performance. -/
def laterWelcome : Frame :=
  .welcome ⟨9⟩ .observer 2 laterRow.after.decks [⟨⟨7⟩, js "Ana", .controller⟩]

/-- A client whose user has loaded a track on deck A and turned its gain down as well. -/
def preparedApp : ClientApp :=
  { dirtyApp with
    component := (dirtyApp.component.applyDelta 0
      { loadTrackDelta .A "draft" with gain := some (.ofDouble (1 / 2)) } .own).1 }

theorem laterRow_mem :
    laterRow ∈ Server.roomTrace firstConfig (performance ++ [laterHello]) := by
  rw [Server.roomTrace, Machine.trace_append]
  exact List.mem_append_right _ (List.mem_singleton_self _)

theorem laterWelcome_sent : .send 1 laterWelcome ∈ laterRow.output.effects := by
  decide +kernel

end LaterWelcome

/-- Both decks of a client that had edited them show the performance it joins. -/
theorem snapshot_replaces_prepared_client :
    let manager := (preparedApp.dispatch 0 laterWelcome.toVar).1.component.stateManager
    manager.getState .A = { trackId := "intro", playing := true, positionSeconds := 5 / 2 } ∧
      manager.getState .B = { gain := .ofDouble (1 / 4) } := by
  have replaced := (snapshot_replaces_iff laterRow_mem laterWelcome_sent rfl preparedApp 0).mpr
    (.inl (by decide +kernel))
  refine ⟨(replaced .A).trans ?_, (replaced .B).trans ?_⟩
  · decide +kernel
  · decide +kernel

theorem snapshot_keeps_dirty_deck :
    firstRow ∈ Server.roomTrace firstConfig [firstHello] ∧
      .send 0 firstWelcome ∈ firstRow.output.effects ∧
      (dirtyApp.dispatch 0 firstWelcome.toVar).1.component.stateManager.getState .B ≠
        .ofDeck ((firstRow.after.decks.lookup .B).getD Server.defaultDeckState) := by
  refine ⟨firstRow_mem, firstWelcome_sent, ?_⟩
  have absent : firstRow.after.decks.lookup .B = none := by decide +kernel
  have valid := (Server.roomTrace_frames firstRow_mem firstWelcome_sent).1
  have dirty : dirtyApp.component.stateManager.getState .B ≠ {} := by decide +kernel
  rw [dispatch_toVar dirtyApp 0 valid, absent, Option.getD_none, ofDeck_default]
  exact dirty

end DjApp.Client
