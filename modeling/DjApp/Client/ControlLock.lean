import DjApp.Client.Standing
import DjApp.Server.Config
import DjApp.Server.Crowd
import DjApp.Server.ReplicaFrames

/-! The local control lock against what the frames of the room say of its members. -/

set_option autoImplicit false

namespace DjApp.Client

open Library
open Server (Frame Replica RoomConfig framesOf replayFrames roomTrace)

def framesIn (events : List ClientEvent) : List Frame :=
  events.filterMap fun
    | .frame _ frame => some frame
    | _ => none

def ClientEvent.online : ClientEvent → Bool
  | .connect | .closed => false
  | .edit _ _ | .frame _ _ | .tick _ => true

def runFrom (app : ClientApp) (events : List ClientEvent) : ClientApp :=
  Machine.run ClientApp.step app events

/-- In every run of the room and of a member that has had its welcome, the member's own
controls are open exactly if, by the frames it has processed, it has control or nobody has. -/
def LockRight (config : RoomConfig) : Prop :=
  ∀ (calls : List Server.Call) (conn : Server.ConnId) (app : ClientApp)
    (events : List ClientEvent), (∀ event ∈ events, event.online = true) →
    framesIn events <+: framesOf conn (roomTrace config calls) → framesIn events ≠ [] →
    ∃ replica, replayFrames (framesIn events) = some replica ∧
      ((runFrom app events).component.canControlLocally = true ↔
        replica.role = .controller ∨ ∀ peer ∈ replica.peers, peer.role ≠ .controller)

section Knowing

variable {config : RoomConfig}

/-- Only the frames tell a client of its room, and a welcome connects it. -/
theorem standing_runFrom (app : ClientApp) {events : List ClientEvent}
    (online : ∀ event ∈ events, event.online = true)
    (valid : ∀ frame ∈ framesIn events, frame.Valid config) :
    (runFrom app events).standing = (framesIn events).foldl Standing.receive app.standing := by
  induction events generalizing app with
  | nil => rfl
  | cons event rest ih =>
      obtain ⟨first, others⟩ := List.forall_mem_cons.mp online
      cases event with
      | edit now delta =>
          have stands := ih (app.step (.edit now delta)).1 others valid
          rw [app.standing_edit] at stands
          exact stands
      | tick now => exact ih (app.step (.tick now)).1 others valid
      | frame now frame =>
          obtain ⟨frameValid, restValid⟩ := List.forall_mem_cons.mp valid
          have stepped : (app.step (.frame now frame)).1 = app.receive frame :=
            congrArg Prod.fst (dispatch_toVar app now frameValid)
          have stands := ih (app.receive frame) others restValid
          rw [app.standing_receive] at stands
          rw [runFrom, Machine.run, stepped]
          exact stands
      | connect | closed => cases first

theorem any_isWelcome {frames : List Frame} {replica : Replica}
    (replayed : replayFrames frames = some replica) : frames.any isWelcome = true := by
  cases frames with
  | nil => cases replayed
  | cons first rest =>
      cases first with
      | welcome => rfl
      | peerJoined | peerLeft | roleChanged | delta | snapshot | error => cases replayed

/-- Frames from a welcome on make a client know what they make a replica show. -/
theorem foldl_receive_ofReplica (known : Knowledge) {frames : List Frame}
    (some : frames ≠ []) (valid : ∀ frame ∈ frames, frame.Valid config)
    (bounded : ∀ seen, seen <+: frames → seen ≠ [] →
      ∃ replica, replayFrames seen = .some replica ∧ replica.peers.length ≤ kMaxPeers) :
    ∃ replica, replayFrames frames = .some replica ∧ Distinct replica ∧
      frames.foldl Knowledge.receive known = .ofReplica replica := by
  induction frames using List.reverseRecOn with
  | nil => exact absurd rfl some
  | append_singleton earlier frame ih =>
      have frameValid : frame.Valid config := valid frame (by simp)
      obtain ⟨replica, replayed, short⟩ := bounded _ List.prefix_rfl some
      cases earlier with
      | nil =>
          -- The first frame is the welcome, which leaves nothing of what was known.
          cases frame with
          | welcome id role serverSeq decks peers =>
              cases replayed
              have received := @receive_ofReplica config ⟨fun _ => none, [], role, id⟩
                List.nodup_nil (.welcome id role serverSeq decks peers) frameValid short
              exact ⟨_, rfl, frameValid.2.2.distinct, received⟩
          | peerJoined | peerLeft | roleChanged | delta | snapshot | error => cases replayed
      | cons first rest =>
          obtain ⟨before, replayedBefore, distinct, knows⟩ := ih (by simp)
            (fun sent member => valid sent (List.mem_append_left _ member))
            (fun seen prior => bounded seen (prior.trans (List.prefix_append _ _)))
          have next := Server.replayFrames_append replayedBefore [frame]
          rw [replayed] at next
          cases next
          refine ⟨_, replayed, distinct.receive frameValid, ?_⟩
          rw [List.foldl_append, knows]
          exact receive_ofReplica distinct frameValid short

end Knowing

theorem lockRight_of_le {config : RoomConfig} (small : config.maxClients ≤ kMaxPeers + 1) :
    LockRight config := by
  intro calls conn app events online prior some
  have heard := Server.heard_runRoom config conn calls
  have valid : ∀ frame ∈ framesIn events, frame.Valid config := fun frame member =>
    Server.framesOf_valid config conn calls frame (prior.subset member)
  have bounded : ∀ seen, seen <+: framesIn events → seen ≠ [] →
      ∃ replica, replayFrames seen = .some replica ∧ replica.peers.length ≤ kMaxPeers := by
    intro seen earlier nonempty
    obtain ⟨replica, replayed, short⟩ := heard.listed seen (earlier.trans prior) nonempty
    exact ⟨replica, replayed, by omega⟩
  obtain ⟨replica, replayed, _, knows⟩ :=
    foldl_receive_ofReplica app.standing.known some valid bounded
  have stands := standing_runFrom app online valid
  have welcomed : (framesIn events).any isWelcome = true := any_isWelcome replayed
  rw [Standing.foldl_receive, knows, welcomed, Bool.or_true] at stands
  exact ⟨replica, replayed, canControlLocally_iff stands⟩

section Crowded

open Server (crowdCalls crowdId crowdRoom claimMessage createRoom runRoom)

def crowdName : ℕ → JsString := fun _ => js "Ana"

theorem crowdName_valid (index : ℕ) : Server.ValidName (crowdName index) := by
  have valid : Server.ValidName (js "Ana") := ⟨by decide, by decide, by decide, by decide⟩
  exact valid

/-- Ten clients join, and the last of them claims control. -/
def crowdedCalls (config : RoomConfig) : List Server.Call :=
  crowdCalls config crowdName 0 10 ++ [.message 9 claimMessage fun _ => crowdId 9]

def crowdedFrames : List Frame :=
  .welcome (crowdId 0) .observer 0 [(.A, Server.defaultDeckState)] [] ::
    (List.range' 1 9).map (fun index => .peerJoined (crowdId index) (crowdName index) .observer) ++
      [.roleChanged (crowdId 9) .controller]

def crowdedEvents : List ClientEvent := crowdedFrames.map (.frame 0)

theorem framesOf_crowdedCalls {config : RoomConfig}
    (code : 1 ≤ config.roomCode.length ∧ config.roomCode.length ≤ Server.roomCodeMaxLength)
    (crowded : 10 ≤ config.maxClients) :
    framesOf 0 (roomTrace config (crowdedCalls config)) = crowdedFrames := by
  have frames := Server.framesOf_crowd crowdName_valid code (by decide : 9 + 1 ≤ 2 ^ 16) crowded
  have room := Server.runRoom_crowd crowdName_valid code (by decide : 10 ≤ 2 ^ 16) crowded
  have valid := Server.runRoom_valid config (crowdCalls config crowdName 0 10)
  rw [room] at valid
  have member : Server.IsMember (crowdRoom createRoom crowdName 10) 9 ⟨crowdId 9, crowdName 9⟩ :=
    ⟨rfl, by decide⟩
  have heard := Server.framesTo_broadcast valid.distinctConns
    (.roleChanged (crowdId 9) .controller) none 0
  rw [if_pos ⟨by decide, by simp⟩] at heard
  rw [crowdedCalls, roomTrace, Machine.trace_concat, ← roomTrace, ← runRoom,
    Server.framesOf_concat, frames, room, Machine.entry, Server.step_claim config member rfl]
  exact congrArg _ heard

theorem crowdedEvents_unlocked :
    (runFrom {} crowdedEvents).component.canControlLocally = true := by
  decide +kernel

theorem crowdedFrames_show : ∃ replica, replayFrames crowdedFrames = some replica ∧
    replica.role = .observer ∧ ∃ peer ∈ replica.peers, peer.role = .controller :=
  ⟨_, rfl, by decide, by decide⟩

theorem framesIn_crowdedEvents : framesIn crowdedEvents = crowdedFrames := by
  rw [framesIn, crowdedEvents, List.filterMap_map]
  exact List.filterMap_some

theorem not_lockRight_of_crowded {config : RoomConfig}
    (code : 1 ≤ config.roomCode.length ∧ config.roomCode.length ≤ Server.roomCodeMaxLength)
    (crowded : 10 ≤ config.maxClients) : ¬ LockRight config := by
  intro right
  have online : ∀ event ∈ crowdedEvents, event.online = true := by
    intro event member
    obtain ⟨frame, _, rfl⟩ := List.mem_map.mp member
    rfl
  have frames := framesOf_crowdedCalls code crowded
  obtain ⟨replica, replayed, exact⟩ := right (crowdedCalls config) 0 {} crowdedEvents online
    (by rw [framesIn_crowdedEvents, frames]) (by simp [framesIn_crowdedEvents, crowdedFrames])
  obtain ⟨shown, shownReplayed, observer, peer, listed, controls⟩ := crowdedFrames_show
  rw [framesIn_crowdedEvents, shownReplayed] at replayed
  cases replayed
  rcases exact.mp crowdedEvents_unlocked with own | nobody
  · rw [observer] at own
    cases own
  · exact nobody peer listed controls

end Crowded

/-- Of the configurations a server starts with, the lock is right in those that admit no
more members than the client lists, itself apart. -/
theorem lock_right_iff (env : Server.Env) (randomUUID : JsString) (uuid : randomUUID.length = 36)
    (config : Server.Config) (loaded : Server.loadConfig env randomUUID = .ok config) :
    LockRight config.room ↔ config.maxClients ≤ 9 := by
  obtain ⟨clients, code⟩ := Server.loadConfig_ok uuid loaded
  constructor
  · intro right
    by_contra crowded
    refine not_lockRight_of_crowded code ?_ right
    simp only [Server.Config.room]
    omega
  · intro small
    apply lockRight_of_le
    simp only [Server.Config.room, kMaxPeers]
    omega

def sampleUUID : JsString := js "00000000-0000-4000-8000-000000000000"

theorem lock_right_default :
    ∃ config, Server.loadConfig {} sampleUUID = .ok config ∧ LockRight config.room :=
  ⟨_, rfl, (lock_right_iff {} sampleUUID (by decide) _ rfl).mpr (by decide)⟩

/-- A room for ten is admitted, and in it an observer is unlocked beside a controller. -/
theorem lock_wrong_in_crowd :
    ∃ config, Server.loadConfig { djMaxClients := some (js "10") } sampleUUID = .ok config ∧
      framesOf 0 (roomTrace config.room (crowdedCalls config.room)) = framesIn crowdedEvents ∧
      (runFrom {} crowdedEvents).component.canControlLocally = true ∧
      ∃ replica, replayFrames (framesIn crowdedEvents) = some replica ∧
        replica.role = .observer ∧ ∃ peer ∈ replica.peers, peer.role = .controller := by
  refine ⟨⟨Server.defaultHost, 8765, sampleUUID, 10, js "info", Server.defaultRateLimit⟩,
    rfl, ?_, crowdedEvents_unlocked, ?_⟩
  · rw [framesIn_crowdedEvents]
    exact framesOf_crowdedCalls ⟨by decide, by decide⟩ (by decide)
  · rw [framesIn_crowdedEvents]
    exact crowdedFrames_show

end DjApp.Client
