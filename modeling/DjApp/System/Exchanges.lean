import DjApp.System.ThreadedConvergence

/-! How many exchanges each thing in flight can still set off, in a room of nine at most. -/

set_option autoImplicit false

namespace DjApp.System

open Library
open Server (ConnId Frame Room RoomConfig IsMember framesTo)
open Client (ClientApp ClientMessage PlaybackState StateDelta SyncPublisher)

section Loads

/-- A grant of control is answered with both decks, a delta out of order with a request. -/
def frameLoad : Frame → ℕ
  | .roleChanged _ _ => 57
  | .delta _ _ _ _ => 3
  | .welcome _ _ _ _ _ | .peerJoined _ _ _ | .peerLeft _ | .snapshot _ _ | .error _ _ => 1

/-- More than all the frames that the room answers with. -/
def messageLoad : ClientMessage → ℕ
  | .claimControl | .releaseControl => 514
  | .delta _ => 28
  | .hello _ _ => 11
  | .requestSnapshot => 2

def effectLoad : Server.Effect → ℕ
  | .send _ frame => frameLoad frame
  | .close _ _ => 0

def framesLoad (frames : List Frame) : ℕ := (frames.map frameLoad).sum

def messagesLoad (messages : List ClientMessage) : ℕ := (messages.map messageLoad).sum

def effectsLoad (effects : List Server.Effect) : ℕ := (effects.map effectLoad).sum

@[simp] theorem framesLoad_nil : framesLoad [] = 0 := rfl

@[simp] theorem framesLoad_cons (frame : Frame) (rest : List Frame) :
    framesLoad (frame :: rest) = frameLoad frame + framesLoad rest := by
  simp [framesLoad]

@[simp] theorem framesLoad_append (earlier later : List Frame) :
    framesLoad (earlier ++ later) = framesLoad earlier + framesLoad later := by
  simp [framesLoad]

@[simp] theorem messagesLoad_nil : messagesLoad [] = 0 := rfl

@[simp] theorem messagesLoad_cons (message : ClientMessage) (rest : List ClientMessage) :
    messagesLoad (message :: rest) = messageLoad message + messagesLoad rest := by
  simp [messagesLoad]

@[simp] theorem messagesLoad_append (earlier later : List ClientMessage) :
    messagesLoad (earlier ++ later) = messagesLoad earlier + messagesLoad later := by
  simp [messagesLoad]

theorem messagesLoad_deltas (deltas : List StateDelta) :
    messagesLoad (deltas.map .delta) = 28 * deltas.length := by
  induction deltas with
  | nil => rfl
  | cons delta rest ih =>
      rw [List.map_cons, messagesLoad_cons, ih, List.length_cons, messageLoad]
      omega

@[simp] theorem effectsLoad_nil : effectsLoad [] = 0 := rfl

@[simp] theorem effectsLoad_cons (effect : Server.Effect) (rest : List Server.Effect) :
    effectsLoad (effect :: rest) = effectLoad effect + effectsLoad rest := by
  simp [effectsLoad]

end Loads

section Room

variable (config : RoomConfig) (room : Room)

/-- A broadcast sends its frame to each client of the room at most once. -/
theorem effectsLoad_broadcast (frame : Frame) (except : Option ConnId) :
    effectsLoad (room.broadcast frame except) ≤ room.clients.length * frameLoad frame := by
  have sent : effectsLoad (room.broadcast frame except) =
      ((room.clients.map (·.2)).filter fun conn => some conn != except).length *
        frameLoad frame := by
    simp only [effectsLoad, Room.broadcast, List.map_map]
    induction (room.clients.map (·.2)).filter fun conn => some conn != except with
    | nil => simp
    | cons conn rest ih =>
        rw [List.map_cons, List.sum_cons, ih, List.length_cons, Function.comp_apply, effectLoad,
          Nat.succ_mul, Nat.add_comm]
  rw [sent]
  apply Nat.mul_le_mul_right
  calc ((room.clients.map (·.2)).filter fun conn => some conn != except).length
      ≤ (room.clients.map (·.2)).length := List.length_filter_le _ _
    _ = room.clients.length := List.length_map _

variable {config room}

theorem effectsLoad_broadcast_lt {frame : Frame} {load : ℕ} (except : Option ConnId)
    (few : room.clients.length ≤ 9) (heavy : 9 * frameLoad frame < load) :
    effectsLoad (room.broadcast frame except) < load :=
  calc effectsLoad (room.broadcast frame except)
      ≤ room.clients.length * frameLoad frame := effectsLoad_broadcast room frame except
    _ ≤ 9 * frameLoad frame := Nat.mul_le_mul_right _ few
    _ < load := heavy

section Handlers

variable (conn : ConnId)

theorem effectsLoad_hello {msg : JsValue} {draws : Server.Draws}
    (after : (Server.handleHello config room conn msg draws).1.clients.length ≤ 9) :
    effectsLoad (Server.handleHello config room conn msg draws).2.effects < 11 := by
  unfold Server.handleHello at after ⊢
  split
  · simp [Server.closeHandshake, effectLoad]
  · split
    · simp [Server.closeHandshake, effectLoad]
    · split
      · simp [Server.closeHandshake, effectLoad]
      · rename_i hello accepted notFull _ id allocated
        rw [accepted] at after
        simp only [if_neg notFull, allocated] at after
        have joined : (room.register conn id hello.name).clients.length ≤ 9 := after
        have announced := @effectsLoad_broadcast_lt _
          (.peerJoined id hello.name ((room.register conn id hello.name).roleOfId id)) 10
          (some conn) joined (by simp [frameLoad])
        simp only [Server.welcome, effectsLoad_cons, effectLoad, frameLoad]
        omega

theorem effectsLoad_claimControl (few : room.clients.length ≤ 9) :
    effectsLoad (Server.handleClaimControl room conn).2.effects < 514 := by
  unfold Server.handleClaimControl
  split
  · simp [Server.refuse, effectLoad, frameLoad]
  · split
    · simp [Server.refuse, effectLoad, frameLoad]
    · split
      · simp [Server.refuse, effectLoad, frameLoad]
      · exact effectsLoad_broadcast_lt none few (by simp [frameLoad])

theorem effectsLoad_releaseControl (few : room.clients.length ≤ 9) :
    effectsLoad (Server.handleReleaseControl room conn).2.effects < 514 := by
  unfold Server.handleReleaseControl
  split
  · simp [Server.refuse, effectLoad, frameLoad]
  · split
    · simp [Server.refuse, effectLoad, frameLoad]
    · split
      · simp [Server.refuse, effectLoad, frameLoad]
      · exact effectsLoad_broadcast_lt none few (by simp [frameLoad])

theorem effectsLoad_delta (few : room.clients.length ≤ 9) (msg : JsValue) :
    effectsLoad (Server.handleDelta room conn msg).2.effects < 28 := by
  unfold Server.handleDelta
  split
  · simp [Server.refuse, effectLoad, frameLoad]
  · split
    · simp [Server.refuse, effectLoad, frameLoad]
    · split
      · simp [Server.refuse, effectLoad, frameLoad]
      · split
        · simp [Room.snapshotFrame, effectLoad, frameLoad]
        · exact @effectsLoad_broadcast_lt (Server.applyDelta room _ _) _ _ _ few
            (by simp [frameLoad])

end Handlers

/-- What the room sends on a message weighs less than the message. -/
theorem effectsLoad_message (conn : ConnId) (message : ClientMessage) (draws : Server.Draws)
    (few : room.clients.length ≤ 9)
    (after : (room.step config (.message conn message.asJs draws)).1.clients.length ≤ 9) :
    effectsLoad (room.step config (.message conn message.asJs draws)).2.effects <
      messageLoad message := by
  simp only [Room.step, Server.handleMessage, isPlainObject_asJs, Bool.not_true,
    Bool.false_eq_true, ↓reduceIte, typeField?_asJs, validateEnvelope_asJs] at after ⊢
  cases registered : room.conns conn with
  | none =>
      simp only [registered, Option.isNone_none, ↓reduceIte] at after ⊢
      split
      · rename_i isHello
        rw [if_pos isHello] at after
        have first : messageTypeOf message = .hello :=
          Server.MessageType.text_injective (js_injective (Option.some.inj isHello))
        cases message with
        | hello name code => exact effectsLoad_hello conn after
        | claimControl | releaseControl | delta | requestSnapshot => cases first
      · cases message <;> simp [Server.closeHandshake, effectLoad, messageLoad]
  | some registration =>
      simp only [Option.isNone_some, Bool.false_eq_true, ↓reduceIte]
      cases message with
      | hello name code =>
          simp [messageTypeOf, Server.refuse, effectLoad, frameLoad, messageLoad]
      | claimControl => exact effectsLoad_claimControl conn few
      | releaseControl => exact effectsLoad_releaseControl conn few
      | delta delta => exact effectsLoad_delta conn few _
      | requestSnapshot =>
          simp [messageTypeOf, Server.handleRequestSnapshot, Room.snapshotFrame, effectLoad,
            frameLoad, messageLoad]

/-- A first message gets its connection into the room, or closes it. -/
theorem answers_first (conn : ConnId) (message : ClientMessage) (draws : Server.Draws)
    (unregistered : room.conns conn = none) :
    (room.step config (.message conn message.asJs draws)).1.conns conn ≠ none ∨
      closes conn (room.step config (.message conn message.asJs draws)).2.effects = true := by
  simp only [Room.step, Server.handleMessage, isPlainObject_asJs, unregistered, Bool.not_true,
    Bool.false_eq_true, Option.isNone_none, ↓reduceIte]
  split
  · unfold Server.handleHello
    split
    · exact .inr (by simp [Server.closeHandshake, closes])
    · split
      · exact .inr (by simp [Server.closeHandshake, closes])
      · split
        · exact .inr (by simp [Server.closeHandshake, closes])
        · exact .inl (by simp [Server.welcome, Room.register])
  · exact .inr (by simp [Server.closeHandshake, closes])

theorem registered_stays {call : Server.Call} {handled : Server.Handled}
    (transition : Server.Transition config room call handled) {conn : ConnId}
    (registered : room.conns conn ≠ none) : handled.1.conns conn ≠ none := by
  cases transition with
  | idle | claim | release | delta | leave => exact registered
  | join joining msg draws id name unregistered =>
      by_cases same : conn = joining
      · simp [Server.welcome, Room.register, same]
      · simpa [Server.welcome, Room.register, same] using registered

theorem effectsLoad_disconnect (conn : ConnId) (few : room.clients.length ≤ 9) :
    effectsLoad (room.step config (.disconnect conn)).2.effects < 10 := by
  simp only [Room.step, Server.handleDisconnect]
  split
  · simp
  · split
    · rename_i registration registered live
      have left : (room.remove registration.id).clients.length ≤ 9 :=
        (List.length_filter_le _ _).trans few
      exact effectsLoad_broadcast_lt none left (by simp [frameLoad])
    · simp

end Room

section Publisher

/-- A delta that is pending is still to be sent, and then answered. -/
def pendingLoad (publisher : SyncPublisher) : ℕ :=
  (if (publisher.pending .A).isSome then 29 else 0) +
    if (publisher.pending .B).isSome then 29 else 0

theorem pendingLoad_of_idle {app : ClientApp} (idle : app.Idle) :
    pendingLoad app.component.syncPublisher = 0 := by
  simp [pendingLoad, idle .A, idle .B]

variable (publisher : SyncPublisher) (now : ℚ)

theorem pendingLoad_flushDeck (deck : DeckId) :
    pendingLoad (publisher.flushDeck now deck).1 + 29 * (publisher.flushDeck now deck).2.length =
      pendingLoad publisher := by
  unfold SyncPublisher.flushDeck
  split
  · rfl
  · unfold SyncPublisher.send
    cases held : publisher.pending deck with
    | none => rfl
    | some delta =>
        cases deck with
        | A => simp [pendingLoad, held, Nat.add_comm]
        | B => simp [pendingLoad, held]

theorem pendingLoad_timerCallback :
    pendingLoad (publisher.timerCallback now).1 + 29 * (publisher.timerCallback now).2.length =
      pendingLoad publisher := by
  have first := pendingLoad_flushDeck publisher now .A
  have second := pendingLoad_flushDeck (publisher.flushDeck now .A).1 now .B
  have flushed : pendingLoad (publisher.timerCallback now).1 =
      pendingLoad ((publisher.flushDeck now .A).1.flushDeck now .B).1 := rfl
  have sent : (publisher.timerCallback now).2.length =
      (publisher.flushDeck now .A).2.length +
        ((publisher.flushDeck now .A).1.flushDeck now .B).2.length := List.length_append
  rw [flushed, sent, Nat.mul_add]
  omega

variable {publisher now}

theorem flushDeck_pending {deck : DeckId} {delta : StateDelta}
    (held : publisher.pending deck = some delta) (late : publisher.throttled now deck = false) :
    (publisher.flushDeck now deck).2 = [delta] := by
  simp [SyncPublisher.flushDeck, late, SyncPublisher.send, held]

/-- The flush of one deck leaves the other and its clock alone. -/
theorem flushDeck_other {deck other : DeckId} (unlike : other ≠ deck) :
    (publisher.flushDeck now deck).1.pending other = publisher.pending other ∧
      (publisher.flushDeck now deck).1.throttled now other = publisher.throttled now other := by
  unfold SyncPublisher.flushDeck
  split
  · exact ⟨rfl, rfl⟩
  · unfold SyncPublisher.send
    split
    · exact ⟨rfl, rfl⟩
    · simp [SyncPublisher.throttled, Function.update_of_ne unlike]

/-- Whatever is pending, there is a time from which the timer sends it. -/
theorem timerCallback_sends_pending {deck : DeckId} (held : publisher.pending deck ≠ none) :
    ∃ now, (publisher.timerCallback now).2 ≠ [] := by
  obtain ⟨delta, found⟩ := Option.ne_none_iff_exists'.mp held
  refine ⟨publisher.lastSendMs deck + SyncPublisher.kMinIntervalMs, ?_⟩
  have late : publisher.throttled (publisher.lastSendMs deck + SyncPublisher.kMinIntervalMs) deck =
      false := by
    simp [SyncPublisher.throttled]
  cases deck with
  | A =>
      simp only [SyncPublisher.timerCallback, flushDeck_pending found late]
      exact List.cons_ne_nil _ _
  | B =>
      obtain ⟨kept, clock⟩ := @flushDeck_other publisher
        (publisher.lastSendMs .B + SyncPublisher.kMinIntervalMs) .A .B (by decide)
      have sent := flushDeck_pending (kept.trans found) (clock.trans late)
      simp only [SyncPublisher.timerCallback, sent]
      exact List.append_ne_nil_of_right_ne_nil _ (List.cons_ne_nil _ _)

end Publisher

section Client

variable (app : ClientApp)

/-- What a client answers to a frame weighs less than the frame. -/
theorem messagesLoad_replies (frame : Frame) :
    messagesLoad (app.replies frame) < frameLoad frame := by
  cases frame with
  | welcome | peerJoined | peerLeft | snapshot | error => exact Nat.zero_lt_one
  | roleChanged id role =>
      simp only [ClientApp.replies, frameLoad]
      split
      · simp [Client.MainComponent.pushFullResync, messageLoad]
      · exact Nat.succ_pos 56
  | delta serverSeq source deck changes =>
      simp only [ClientApp.replies, frameLoad]
      split
      · simp [messageLoad]
      · exact Nat.succ_pos 2

/-- A frame leaves alone what waits for the timer. -/
theorem timing_receive (frame : Frame) :
    (app.receive frame).component.syncPublisher.pending = app.component.syncPublisher.pending ∧
      (app.receive frame).component.syncPublisher.timerRunning =
        app.component.syncPublisher.timerRunning := by
  cases frame <;> exact ⟨rfl, rfl⟩

theorem pendingLoad_receive (frame : Frame) :
    pendingLoad (app.receive frame).component.syncPublisher =
      pendingLoad app.component.syncPublisher := by
  simp only [pendingLoad, (timing_receive app frame).1]

/-- A tick that sends something sends less than it had pending. -/
theorem messagesLoad_tick (now : ℚ) (sends : (app.step (.tick now)).2 ≠ []) :
    pendingLoad (app.step (.tick now)).1.component.syncPublisher +
        messagesLoad (app.step (.tick now)).2 < pendingLoad app.component.syncPublisher := by
  let flushed := app.component.syncPublisher.timerCallback now
  have kept : pendingLoad flushed.1 + 29 * flushed.2.length =
      pendingLoad app.component.syncPublisher := pendingLoad_timerCallback _ now
  have sent : (app.step (.tick now)).2 = flushed.2.map .delta := rfl
  have left : (app.step (.tick now)).1.component.syncPublisher = flushed.1 := rfl
  have some : 0 < flushed.2.length := by
    apply List.length_pos_iff.mpr
    intro none
    rw [sent, none] at sends
    exact sends rfl
  rw [sent, left, messagesLoad_deltas]
  omega

end Client

end DjApp.System
