import DjApp.Client.ControlLock
import DjApp.Client.SoundStates

/-! The sequence numbers a member sees: they rise along the frames of its connection, so
that its client never asks for a snapshot. -/

set_option autoImplicit false

namespace DjApp.Server

open Library

section Numbers

def Frame.number : Frame → Option ℕ
  | .welcome _ _ serverSeq _ _ | .delta serverSeq _ _ _ | .snapshot serverSeq _ => some serverSeq
  | .peerJoined _ _ _ | .peerLeft _ | .roleChanged _ _ | .error _ _ => none

def Frame.isDelta : Frame → Bool
  | .delta _ _ _ _ => true
  | _ => false

/-- The numbers of the frames never fall, and rise with every delta, between two bounds. -/
inductive Rises : ℕ → ℕ → List Frame → Prop where
  | nil {low high : ℕ} (within : low ≤ high) : Rises low high []
  | plain {low high : ℕ} (frame : Frame) {rest : List Frame} (unnumbered : frame.number = none)
      (rises : Rises low high rest) : Rises low high (frame :: rest)
  | numbered {low high : ℕ} (number : ℕ) (frame : Frame) {rest : List Frame}
      (shown : frame.number = some number) (above : low ≤ number)
      (strict : frame.isDelta = true → low < number) (rises : Rises number high rest) :
      Rises low high (frame :: rest)

theorem Rises.le {low high : ℕ} {frames : List Frame} (rises : Rises low high frames) :
    low ≤ high := by
  induction rises with
  | nil within => exact within
  | plain frame unnumbered rises ih => exact ih
  | numbered number frame shown above strict rises ih => exact above.trans ih

theorem Rises.lower {low lower high : ℕ} {frames : List Frame} (rises : Rises low high frames)
    (below : lower ≤ low) : Rises lower high frames := by
  induction rises generalizing lower with
  | nil within => exact .nil (below.trans within)
  | plain frame unnumbered rises ih => exact .plain frame unnumbered (ih below)
  | numbered number frame shown above strict rises ih =>
      exact .numbered number frame shown (below.trans above)
        (fun isDelta => below.trans_lt (strict isDelta)) rises

theorem Rises.append {low mid high : ℕ} {first second : List Frame} (rises : Rises low mid first)
    (more : Rises mid high second) : Rises low high (first ++ second) := by
  induction rises with
  | nil within => exact more.lower within
  | plain frame unnumbered rises ih => exact .plain frame unnumbered (ih more)
  | numbered number frame shown above strict rises ih =>
      exact .numbered number frame shown above strict (ih more)

theorem rises_answers {room : Room} {conn caller : ConnId} {frames : List Frame}
    (answers : ∀ frame ∈ frames, Answer room caller (.send conn frame)) :
    Rises room.serverSeq room.serverSeq frames := by
  induction frames with
  | nil => exact .nil le_rfl
  | cons frame rest ih =>
      obtain ⟨first, others⟩ := List.forall_mem_cons.mp answers
      cases first with
      | error => exact .plain _ rfl (ih others)
      | snapshot => exact .numbered _ _ rfl le_rfl (fun isDelta => by cases isDelta) (ih others)

/-- What one call sends to a connection, between the numbers of the room around it. -/
theorem Transition.rises {config : RoomConfig} {room : Room} {call : Call} {handled : Handled}
    (transition : Transition config room call handled) (valid : room.Valid config) (conn : ConnId) :
    Rises room.serverSeq handled.1.serverSeq (framesTo conn handled.2.effects) := by
  have after := transition.valid valid
  have broadcast {frame : Frame} {except : Option ConnId} (within : room.serverSeq ≤
      handled.1.serverSeq) (single : Rises room.serverSeq handled.1.serverSeq [frame]) :
      Rises room.serverSeq handled.1.serverSeq
        (framesTo conn (handled.1.broadcast frame except)) := by
    rw [framesTo_broadcast after.distinctConns]
    split
    · exact single
    · exact .nil within
  cases transition with
  | idle call outcome answers noDelta =>
      exact rises_answers fun frame member => answers _ (mem_framesTo_iff.mp member)
  | join joining msg draws id name unregistered fresh free named isHello =>
      by_cases own : joining = conn
      · subst own
        rw [framesTo_welcome after.distinctConns]
        exact .numbered _ _ rfl le_rfl (fun isDelta => by cases isDelta) (.nil le_rfl)
      · rw [framesTo_welcome_other own]
        exact broadcast le_rfl (.plain _ rfl (.nil le_rfl))
  | claim | release | leave => exact broadcast le_rfl (.plain _ rfl (.nil le_rfl))
  | delta =>
      have later : room.serverSeq < room.serverSeq + 1 := Nat.lt_succ_self _
      exact broadcast later.le (.numbered _ _ rfl later.le (fun _ => later) (.nil le_rfl))

theorem rises_framesOf (config : RoomConfig) (conn : ConnId) (calls : List Call) :
    Rises 0 (runRoom config calls).serverSeq (framesOf conn (roomTrace config calls)) := by
  induction calls using List.reverseRecOn with
  | nil => exact .nil le_rfl
  | append_singleton calls call ih =>
      have next := (step_transition config (runRoom config calls) call).rises
        (runRoom_valid config calls) conn
      rw [roomTrace, Machine.trace_concat, ← roomTrace, ← runRoom, framesOf_concat, runRoom,
        Machine.run_concat, ← runRoom]
      exact ih.append next

theorem framesOf_head (config : RoomConfig) (conn : ConnId) (calls : List Call) {first : Frame}
    {rest : List Frame} (frames : framesOf conn (roomTrace config calls) = first :: rest) :
    ∃ id role serverSeq decks peers, first = .welcome id role serverSeq decks peers := by
  have prior : [first] <+: framesOf conn (roomTrace config calls) := frames ▸ ⟨rest, rfl⟩
  obtain ⟨replica, replayed, _⟩ :=
    (heard_runRoom config conn calls).listed [first] prior (List.cons_ne_nil _ _)
  cases first with
  | welcome id role serverSeq decks peers => exact ⟨id, role, serverSeq, decks, peers, rfl⟩
  | peerJoined | peerLeft | roleChanged | delta | snapshot | error => cases replayed

end Numbers

end DjApp.Server

namespace DjApp.Client

open Library
open Server (Frame Rises RoomConfig framesOf roomTrace runRoom)

/-- One step of a client in whose connection no delta is missing. -/
structure Unasking (serverSeq : ℕ) (row : ClientEntry) : Prop where
  silent : .requestSnapshot ∉ row.output
  kept : ∀ seen, row.before.lastSeenServerSeq = some seen →
    ∃ next, row.after.lastSeenServerSeq = some next ∧ seen ≤ next
  bounded : ∀ next, row.after.lastSeenServerSeq = some next → next ≤ serverSeq

/-- A number that an `int` holds is the last one seen once its frame is received. -/
theorem ClientApp.lastSeenServerSeq_receive (app : ClientApp) {frame : Frame} {number : ℕ}
    (shown : frame.number = some number) (small : number < 2 ^ 31) :
    (app.receive frame).lastSeenServerSeq = some number := by
  have counted : seenSeq number = some number := if_pos small
  cases frame with
  | welcome | delta | snapshot =>
      cases shown
      simp [ClientApp.receive, nextSeq, counted]
  | peerJoined | peerLeft | roleChanged | error => cases shown

section Receiving

variable {serverSeq : ℕ} (counted : serverSeq < 2 ^ 31)

include counted

/-- A client that has seen a number takes the frames that rise from it. -/
theorem unasking_runFrom {config : RoomConfig} {low : ℕ} (app : ClientApp)
    (seen : app.lastSeenServerSeq = some low) {events : List ClientEvent}
    (online : ∀ event ∈ events, event.online = true) {later : List Frame}
    (valid : ∀ frame ∈ framesIn events, frame.Valid config)
    (rises : Rises low serverSeq (framesIn events ++ later)) :
    ∀ row ∈ Machine.trace ClientApp.step app events, Unasking serverSeq row := by
  induction events generalizing app low with
  | nil => simp
  | cons event rest ih =>
      obtain ⟨first, others⟩ := List.forall_mem_cons.mp online
      have still {output : List ClientMessage} {after : ClientApp}
          (same : after.lastSeenServerSeq = app.lastSeenServerSeq) (silent : .requestSnapshot ∉ output) :
          Unasking serverSeq ⟨app, event, output, after⟩ := by
        refine ⟨silent, fun number before => ⟨number, same.trans before, le_rfl⟩, ?_⟩
        intro number after
        rw [same, seen] at after
        cases after
        exact rises.le
      simp only [Machine.trace, List.forall_mem_cons]
      cases event with
      | edit now delta =>
          exact ⟨still rfl (app.edit_unasked now delta), ih _ seen others valid rises⟩
      | tick now => exact ⟨still rfl (app.tick_unasked now), ih _ seen others valid rises⟩
      | connect | closed => cases first
      | frame now frame =>
          obtain ⟨frameValid, restValid⟩ := List.forall_mem_cons.mp valid
          have stepped : app.step (.frame now frame) = (app.receive frame, app.replies frame) :=
            dispatch_toVar app now frameValid
          rw [Machine.entry, stepped]
          cases rises with
          | plain frame unnumbered rises =>
              have kept : (app.receive frame).lastSeenServerSeq = app.lastSeenServerSeq := by
                cases frame with
                | peerJoined | peerLeft | roleChanged | error => rfl
                | welcome | delta | snapshot => cases unnumbered
              have silent : .requestSnapshot ∉ app.replies frame := by
                cases frame with
                | peerJoined | peerLeft | error => simp [ClientApp.replies]
                | roleChanged =>
                    simp only [ClientApp.replies]
                    split <;> simp [MainComponent.pushFullResync]
                | welcome | delta | snapshot => cases unnumbered
              exact ⟨still kept silent, ih _ (kept.trans seen) others restValid rises⟩
          | numbered number frame shown above strict rises =>
              have small : seenSeq number = some number := if_pos (rises.le.trans_lt counted)
              have taken := app.lastSeenServerSeq_receive shown (rises.le.trans_lt counted)
              have silent : .requestSnapshot ∉ app.replies frame := by
                cases frame with
                | delta =>
                    cases shown
                    simp [ClientApp.replies, ClientApp.needsSnapshot, small, seen, strict rfl]
                | welcome | snapshot => simp [ClientApp.replies]
                | peerJoined | peerLeft | roleChanged | error => cases shown
              refine ⟨⟨silent, fun before same => ⟨number, taken, ?_⟩, fun next after => ?_⟩,
                ih _ taken others restValid rises⟩
              · rw [seen] at same
                cases same
                exact above
              · rw [taken] at after
                cases after
                exact rises.le

/-- A new connection: its first frame is a welcome, and gives the client its first number. -/
theorem unasking_connected {config : RoomConfig} {low : ℕ} (app : ClientApp)
    (unseen : app.lastSeenServerSeq = none) {events : List ClientEvent}
    (online : ∀ event ∈ events, event.online = true) {later : List Frame}
    (valid : ∀ frame ∈ framesIn events, frame.Valid config)
    (welcomed : ∀ first rest, framesIn events = first :: rest → isWelcome first = true)
    (rises : Rises low serverSeq (framesIn events ++ later)) :
    ∀ row ∈ Machine.trace ClientApp.step app events, Unasking serverSeq row := by
  induction events generalizing app with
  | nil => simp
  | cons event rest ih =>
      obtain ⟨first, others⟩ := List.forall_mem_cons.mp online
      have still {output : List ClientMessage} {after : ClientApp}
          (same : after.lastSeenServerSeq = none) (silent : .requestSnapshot ∉ output) :
          Unasking serverSeq ⟨app, event, output, after⟩ := by
        refine ⟨silent, fun number before => ?_, fun number after => ?_⟩
        · rw [unseen] at before
          cases before
        · rw [same] at after
          cases after
      simp only [Machine.trace, List.forall_mem_cons]
      cases event with
      | edit now delta =>
          exact ⟨still unseen (app.edit_unasked now delta), ih _ unseen others valid welcomed rises⟩
      | tick now =>
          exact ⟨still unseen (app.tick_unasked now), ih _ unseen others valid welcomed rises⟩
      | connect | closed => cases first
      | frame now frame =>
          obtain ⟨frameValid, restValid⟩ := List.forall_mem_cons.mp valid
          have stepped : app.step (.frame now frame) = (app.receive frame, app.replies frame) :=
            dispatch_toVar app now frameValid
          have isFirst := welcomed frame (framesIn rest) rfl
          rw [Machine.entry, stepped]
          cases frame with
          | welcome id role number decks peers =>
              cases rises with
              | plain _ unnumbered rises => cases unnumbered
              | numbered number _ shown above strict rises =>
                  have taken := app.lastSeenServerSeq_receive shown (rises.le.trans_lt counted)
                  refine ⟨⟨by simp [ClientApp.replies], fun seen before => ?_, fun next after => ?_⟩,
                    unasking_runFrom counted _ taken others restValid rises⟩
                  · rw [unseen] at before
                    cases before
                  · rw [taken] at after
                    cases after
                    exact rises.le
          | peerJoined | peerLeft | roleChanged | delta | snapshot | error => cases isFirst

end Receiving

/-- A client that takes the frames of its connection in order, from the welcome on, never
asks for a snapshot. The number it has seen never falls, nor exceeds that of the room. -/
theorem no_spurious_resync (config : RoomConfig) (calls : List Server.Call) (conn : Server.ConnId)
    (app : ClientApp) (events : List ClientEvent) (online : ∀ event ∈ events, event.online = true)
    (received : framesIn events <+: framesOf conn (roomTrace config calls))
    (counted : (runRoom config calls).serverSeq < 2 ^ 31) :
    ∀ row ∈ Machine.trace ClientApp.step app.connect events,
      Unasking (runRoom config calls).serverSeq row := by
  obtain ⟨later, split⟩ := received
  have rises := Server.rises_framesOf config conn calls
  rw [← split] at rises
  refine @unasking_connected _ counted config _ app.connect rfl events online later
    (fun frame member => ?_) (fun first rest shape => ?_) rises
  · exact Server.framesOf_valid config conn calls frame (split ▸ List.mem_append_left _ member)
  · have frames : framesOf conn (roomTrace config calls) = first :: (rest ++ later) := by
      rw [← split, shape]
      rfl
    obtain ⟨id, role, serverSeq, decks, peers, rfl⟩ := Server.framesOf_head config conn calls frames
    rfl

/-- The evening goes on: after the snapshot that answers Ana's late delta, Bo sends one more. -/
def lateEvening : List Server.Call :=
  Server.eveningCalls ++ [.message 1 (Server.gainMessage .A (1 / 8)) fun _ => ⟨8⟩]

/-- Ana hears two of Bo's deltas, and between them the snapshot, but not her own delta. -/
theorem no_spurious_resync_late_delta :
    let frames := framesOf 0 (roomTrace Server.eveningRoom lateEvening)
    frames.filterMap Frame.number = [0, 2, 2, 3] ∧
      (frames.filter Frame.isDelta).length = 2 ∧
      ∀ row ∈ Machine.trace ClientApp.step (ClientApp.connect {}) (frames.map (.frame 0)),
        Unasking 3 row := by
  intro frames
  have received : framesIn (frames.map (.frame 0)) = frames := by
    simp [framesIn, List.filterMap_map]
  have counted : (runRoom Server.eveningRoom lateEvening).serverSeq = 3 := by decide +kernel
  refine ⟨by decide +kernel, by decide +kernel, ?_⟩
  rw [← counted]
  refine no_spurious_resync Server.eveningRoom lateEvening 0 {} _ (by simp [ClientEvent.online]) ?_ ?_
  · rw [received]
  · rw [counted]
    norm_num

end DjApp.Client
