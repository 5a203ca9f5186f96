import DjApp.Server.Crowd
import DjApp.System.Proper

/-! Runs written out step by step, each from a world given by its parts. -/

set_option autoImplicit false

namespace DjApp.System

open Library
open Server (ConnId Frame Room RoomConfig Registration IsMember)
open Client (ClientApp ClientMessage StateDelta)

namespace ReachableBy

variable {config : RoomConfig} {world : World} (reachable : Reachable config world)

include reachable

theorem bounded : world.room.clients.length ≤ 9 := by
  cases reachable with
  | initial => exact Nat.zero_le 9
  | step reachable stepped bounded _ => exact bounded

variable {key : ℕ} {conn : ConnId} (linked : world.links key = some conn)

include linked

theorem claim {up : List ClientMessage} {down : List Frame}
    (queue : world.conns conn = ⟨up, down, true⟩) :
    Reachable config
      { world with
        conns := Function.update world.conns conn ⟨up ++ [.claimControl], down, true⟩ } := by
  have stepped := reachable.step (.claimControl world key conn linked) reachable.bounded
  rw [World.act, Function.update_eq_self] at stepped
  simpa [linked, Connection.send, queue] using stepped

/-- The client's part of a delivery, with the frame's text out of the way. -/
theorem receive {up : List ClientMessage} {frame : Frame} {rest : List Frame}
    (queue : world.conns conn = ⟨up, frame :: rest, true⟩)
    (settled : Moved (world.apps key) ((world.apps key).receive frame) → (world.apps key).Idle) :
    Reachable config
      { world with
        apps := Function.update world.apps key ((world.apps key).receive frame)
        conns := Function.update world.conns conn
          ⟨up ++ (world.apps key).replies frame, rest, true⟩ } := by
  have valid := reachable.proper.frames conn frame (by simp [queue])
  have dispatched := Client.dispatch_toVar (world.apps key) 0 valid
  have stepped := reachable.step (.deliver world key conn 0 frame rest linked (by simp [queue])
    (by rw [dispatched]; exact settled)) reachable.bounded
  rw [dispatched] at stepped
  simpa [World.act, World.setConn, linked, Connection.send, queue] using stepped

theorem edit {up : List ClientMessage} {down : List Frame}
    (queue : world.conns conn = ⟨up, down, true⟩) (now : ℚ) (delta : StateDelta)
    (allowed : (world.apps key).component.canControlLocally = true) (named : delta.NamesTrack) :
    Reachable config
      { world with
        apps := Function.update world.apps key ((world.apps key).step (.edit now delta)).1
        conns := Function.update world.conns conn
          ⟨up ++ ((world.apps key).step (.edit now delta)).2, down, true⟩ } := by
  have stepped := reachable.step (.edit world key now delta allowed named) reachable.bounded
  simpa [World.act, linked, Connection.send, queue] using stepped

theorem leave (settled : Moved (world.apps key) (world.apps key).closed → (world.apps key).Idle) :
    Reachable config
      { world with
        apps := Function.update world.apps key (world.apps key).closed
        links := Function.update world.links key none } :=
  reachable.step (.leave world key conn linked settled) reachable.bounded

omit linked

theorem serve {message : ClientMessage} {rest : List ClientMessage} {down : List Frame}
    (queue : world.conns conn = ⟨message :: rest, down, true⟩) (draws : Server.Draws) {after : Room}
    {outcome : Server.Outcome}
    (handled : world.room.step config (.message conn message.asJs draws) = (after, outcome))
    (bounded : after.clients.length ≤ 9) :
    Reachable config
      { world with
        room := after
        conns := fun other => (Function.update world.conns conn ⟨rest, down, true⟩ other).hear
          other outcome.effects } := by
  have served : (world.setConn conn { world.conns conn with up := rest }).call config
      (.message conn message.asJs draws) =
      { world with
        room := after
        conns := fun other => (Function.update world.conns conn ⟨rest, down, true⟩ other).hear
          other outcome.effects } := by
    simp only [World.call, World.setConn, handled, queue]
  have stepped := @StepBy.serve ClientMessage.asJs config world conn message rest draws (by simp [queue])
    (by simp [queue])
  rw [served] at stepped
  exact reachable.step stepped bounded

theorem drop {up : List ClientMessage} {down : List Frame}
    (queue : world.conns conn = ⟨up, down, true⟩) {after : Room} {outcome : Server.Outcome}
    (handled : world.room.step config (.disconnect conn) = (after, outcome))
    (bounded : after.clients.length ≤ 9) :
    Reachable config
      { world with
        room := after
        conns := fun other => (Function.update world.conns conn ⟨[], down, false⟩ other).hear
          other outcome.effects } := by
  have served : (world.setConn conn (world.conns conn).close).call config (.disconnect conn) =
      { world with
        room := after
        conns := fun other => (Function.update world.conns conn ⟨[], down, false⟩ other).hear
          other outcome.effects } := by
    simp only [World.call, World.setConn, handled, queue, Connection.close]
  have stepped := @StepBy.drop ClientMessage.asJs config world conn (by simp [queue])
  rw [served] at stepped
  exact reachable.step stepped bounded

end ReachableBy

section Pairs

/-- The values of the first two numbers, and that of all others. -/
def pair {α : Type} (first second rest : α) : ℕ → α
  | 0 => first
  | 1 => second
  | _ => rest

/-- The two numbers that `pair` tells from the rest. -/
theorem zero_one_or_more {motive : ℕ → Prop} (zero : motive 0) (one : motive 1)
    (more : ∀ index, motive (index + 2)) (index : ℕ) : motive index := by
  rcases index with _ | _ | index
  · exact zero
  · exact one
  · exact more index

variable {α : Type} (first second rest value : α)

@[simp] theorem pair_zero : pair first second rest 0 = first := rfl

@[simp] theorem pair_one : pair first second rest 1 = second := rfl

theorem const_eq_pair : (fun _ => rest) = pair rest rest rest := by
  funext index
  cases index using zero_one_or_more with
  | zero | one | more => rfl

@[simp] theorem update_pair_zero :
    Function.update (pair first second rest) 0 value = pair value second rest := by
  funext index
  cases index using zero_one_or_more with
  | zero | one | more => rfl

@[simp] theorem update_pair_one :
    Function.update (pair first second rest) 1 value = pair first value rest := by
  funext index
  cases index using zero_one_or_more with
  | zero | one | more => rfl

/-- The connections after a call whose effects reach no third one. -/
theorem hear_pair (near far : Connection) {effects : List Server.Effect}
    (apart : ∀ conn frame, .send (conn + 2) frame ∉ effects)
    (open' : ∀ conn code, .close conn code ∉ effects) :
    (fun conn => (pair near far {} conn).hear conn effects) =
      pair { near with down := near.down ++ Server.framesTo 0 effects }
        { far with down := far.down ++ Server.framesTo 1 effects } {} := by
  have unclosed : ∀ conn, closes conn effects = false := by
    intro conn
    rw [closes, List.any_eq_false]
    intro effect listed
    cases effect with
    | send => simp
    | close target code => exact absurd listed (open' target code)
  have deaf : ∀ conn, Server.framesTo (conn + 2) effects = [] := by
    intro conn
    rw [Server.framesTo, List.filterMap_eq_nil_iff]
    intro effect listed
    cases effect with
    | send target frame =>
        have unlike : target ≠ conn + 2 := by
          rintro rfl
          exact apart conn frame listed
        exact if_neg unlike
    | close => rfl
  funext conn
  cases conn using zero_one_or_more with
  | zero | one => simp [Connection.hear, unclosed]
  | more conn => simp [pair, Connection.hear, unclosed, deaf]

end Pairs

end DjApp.System
