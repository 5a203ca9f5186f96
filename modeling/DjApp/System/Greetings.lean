import DjApp.Client.PublisherStream
import DjApp.Server.TransportProperties
import DjApp.System.Exchanges

/-! A client introduces itself first and only once, and the room answers at once; a publisher's
timer runs as long as it is needed. -/

set_option autoImplicit false

namespace DjApp.System

open Library
open Server (ConnId Frame Room RoomConfig IsMember)
open Client (ClientApp ClientMessage StateDelta)

def isHello : ClientMessage → Bool
  | .hello _ _ => true
  | .claimControl | .releaseControl | .delta _ | .requestSnapshot => false

section Client

variable (app : ClientApp)

theorem not_isHello_deltas (deltas : List StateDelta) :
    ∀ message ∈ deltas.map ClientMessage.delta, isHello message = false := by
  intro message member
  obtain ⟨delta, _, rfl⟩ := List.mem_map.mp member
  rfl

theorem not_isHello_replies (frame : Frame) :
    ∀ message ∈ app.replies frame, isHello message = false := by
  cases frame with
  | welcome | peerJoined | peerLeft | snapshot | error =>
      intro message member
      cases member
  | roleChanged id role =>
      simp only [ClientApp.replies]
      split
      · simp [Client.MainComponent.pushFullResync, isHello]
      · intro message member
        cases member
  | delta serverSeq source deck changes =>
      simp only [ClientApp.replies]
      split
      · simp [isHello]
      · intro message member
        cases member

theorem not_isHello_edit (now : ℚ) (delta : StateDelta) :
    ∀ message ∈ (app.step (.edit now delta)).2, isHello message = false := by
  simp only [ClientApp.step, ClientApp.withComponent, Client.MainComponent.applyDelta]
  split
  · intro message member
    cases member
  · exact not_isHello_deltas _

theorem timerCovers_edit {app : ClientApp} (keyed : app.component.syncPublisher.Keyed)
    (covers : app.component.syncPublisher.TimerCovers) (now : ℚ) (delta : StateDelta) :
    (app.step (.edit now delta)).1.component.syncPublisher.TimerCovers := by
  simp only [ClientApp.step, ClientApp.withComponent, Client.MainComponent.applyDelta]
  split
  · exact covers
  · rename_i notification _
    exact Client.SyncPublisher.timerCovers_step keyed covers ⟨now, .notify notification⟩

end Client

/-- The end of a connection that is closed has nothing on its way to it, and there is a
hello on its way to one that the room does not know yet, and to no other. -/
structure Connection.Kept (connection : Connection) (known : Prop) : Prop where
  deaf : connection.listening = false → connection.up = []
  greets : connection.listening = true → ¬ known → ∃ name room rest,
    connection.up = .hello name room :: rest ∧ ∀ message ∈ rest, isHello message = false
  introduced : known → ∀ message ∈ connection.up, isHello message = false

namespace Connection.Kept

variable {connection : Connection} {known : Prop}

theorem closed (ended : connection.listening = false) (lost : connection.up = []) :
    connection.Kept known := by
  constructor
  · exact fun _ => lost
  · intro listening
    rw [ended] at listening
    cases listening
  · rw [lost]
    intro _ message member
    cases member

theorem served (listening : connection.listening = true) {conn : ConnId}
    {effects : List Server.Effect} (answered : known ∨ closes conn effects = true)
    (introduced : ∀ message ∈ connection.up, isHello message = false) :
    (connection.hear conn effects).Kept known := by
  unfold Connection.hear
  split
  · exact .closed rfl rfl
  · rename_i unclosed
    constructor
    · intro ended
      rw [listening] at ended
      cases ended
    · exact fun _ unknown => absurd (answered.resolve_right unclosed) unknown
    · exact fun _ => introduced

variable (kept : connection.Kept known)

include kept

/-- What follows the next message is not a hello. -/
theorem rest_introduced {message : ClientMessage} {rest : List ClientMessage}
    (listening : connection.listening = true) (first : connection.up = message :: rest) :
    ∀ later ∈ rest, isHello later = false := by
  intro later member
  by_cases registered : known
  · exact kept.introduced registered later (first ▸ List.mem_cons_of_mem _ member)
  · obtain ⟨name, room, others, shape, clear⟩ := kept.greets listening registered
    obtain ⟨_, rfl⟩ := List.cons.inj (first.symm.trans shape)
    exact clear later member

theorem send {messages : List ClientMessage}
    (clear : ∀ message ∈ messages, isHello message = false) :
    (connection.send messages).Kept known := by
  unfold Connection.send
  split
  · rename_i listening
    constructor
    · intro ended
      rw [listening] at ended
      cases ended
    · intro _ unknown
      obtain ⟨name, room, rest, first, others⟩ := kept.greets listening unknown
      refine ⟨name, room, rest ++ messages, by rw [first, List.cons_append], ?_⟩
      exact List.forall_mem_append.mpr ⟨others, clear⟩
    · exact fun registered => List.forall_mem_append.mpr ⟨kept.introduced registered, clear⟩
  · exact kept

theorem hear (conn : ConnId) (effects : List Server.Effect) :
    (connection.hear conn effects).Kept known := by
  unfold Connection.hear
  split
  · exact .closed rfl rfl
  · exact ⟨kept.deaf, kept.greets, kept.introduced⟩

end Connection.Kept

namespace World

/-- What keeps a world from getting stuck. -/
structure Live (world : World) : Prop where
  kept : ∀ conn, (world.conns conn).Kept (world.room.conns conn ≠ none)
  timed : ∀ key, (world.apps key).component.syncPublisher.TimerCovers

namespace Live

variable {config : RoomConfig} {world after : World}

theorem initial : Live .initial where
  kept := fun _ => .closed rfl rfl
  timed := fun _ => Client.SyncPublisher.timerCovers_initial

variable (live : Live world)

include live

theorem apps_update {key : ℕ} {app : ClientApp}
    (timed : app.component.syncPublisher.TimerCovers) (other : ℕ) :
    (Function.update world.apps key app other).component.syncPublisher.TimerCovers := by
  by_cases own : other = key
  · rw [own, Function.update_self]
    exact timed
  · rw [Function.update_of_ne own]
    exact live.timed other

theorem act (key : ℕ) {done : ClientApp × List ClientMessage}
    (timed : done.1.component.syncPublisher.TimerCovers)
    (clear : ∀ message ∈ done.2, isHello message = false) : Live (world.act key done) where
  kept conn := by
    by_cases own : world.links key = some conn
    · rw [conns_act_of_linked world key done own, Function.update_self]
      exact (live.kept conn).send clear
    · rw [conns_act_of_ne world key done own]
      exact live.kept conn
  timed := live.apps_update timed

theorem setConn {conn : ConnId} {connection : Connection}
    (kept : connection.Kept (world.room.conns conn ≠ none)) :
    Live (world.setConn conn connection) where
  kept other := by
    by_cases own : other = conn
    · subst own
      simpa [World.setConn] using kept
    · simpa [World.setConn, own] using live.kept other
  timed := live.timed

theorem serve {conn : ConnId} {message : ClientMessage} {rest : List ClientMessage}
    (draws : Server.Draws) (listening : (world.conns conn).listening = true)
    (first : (world.conns conn).up = message :: rest) :
    Live ((world.setConn conn { world.conns conn with up := rest }).call config
      (.message conn message.asJs draws)) where
  kept other := by
    have transition := Server.step_transition config world.room (.message conn message.asJs draws)
    by_cases own : other = conn
    · subst own
      simp only [World.call, World.setConn, Function.update_self]
      have introduced := (live.kept other).rest_introduced listening first
      refine @Connection.Kept.served { world.conns other with up := rest } _ listening _ _ ?_ introduced
      by_cases before : world.room.conns other = none
      · exact answers_first other message draws before
      · exact .inl (registered_stays transition before)
    · simp only [World.call, World.setConn, Function.update_of_ne own]
      rw [transition.conns_of_ne own]
      exact (live.kept other).hear other _
  timed := live.timed

theorem drop (conn : ConnId) :
    Live ((world.setConn conn (world.conns conn).close).call config (.disconnect conn)) where
  kept other := by
    have shut : Live (world.setConn conn (world.conns conn).close) := live.setConn (.closed rfl rfl)
    have same := conns_disconnect (Server.step_transition config world.room (.disconnect conn))
    simp only [World.call, World.setConn, same]
    exact (shut.kept other).hear other _
  timed := live.timed

theorem step (proper : Proper config world) (stepped : Step config world after) : Live after := by
  cases stepped with
  | connect key name room unlinked built =>
      refine ⟨fun conn => ?_, live.apps_update (live.timed key)⟩
      by_cases fresh : conn = world.nextConn
      · subst fresh
        simp only [Function.update_self]
        constructor
        · exact fun ended => Bool.noConfusion ended
        · exact fun _ _ => ⟨name, room, [], rfl, by simp⟩
        · exact fun known => absurd (proper.unused _ le_rfl).2 known
      · simp only [Function.update_of_ne fresh]
        exact live.kept conn
  | leave key => exact ⟨live.kept, live.apps_update (live.timed key)⟩
  | drop conn => exact live.drop conn
  | serve conn message rest draws listening first => exact live.serve draws listening first
  | deliver key conn now frame rest linked first =>
      have listed : frame ∈ (world.conns conn).down := first ▸ List.mem_cons_self
      have taken : Live (world.setConn conn { world.conns conn with down := rest }) :=
        live.setConn ⟨(live.kept conn).deaf, (live.kept conn).greets, (live.kept conn).introduced⟩
      refine taken.act key ?_ ?_
      · rw [Client.dispatch_toVar _ now (proper.frames conn frame listed)]
        obtain ⟨pending, running⟩ := timing_receive (world.apps key) frame
        intro deck found
        rw [running]
        rw [pending] at found
        exact live.timed key deck found
      · rw [Client.dispatch_toVar _ now (proper.frames conn frame listed)]
        exact not_isHello_replies _ frame
  | claimControl key | releaseControl key =>
      exact live.act key (live.timed key) (List.forall_mem_singleton.mpr rfl)
  | edit key now delta =>
      exact live.act key (timerCovers_edit (proper.apps key).coherent.keyed (live.timed key) now delta)
        (not_isHello_edit _ now delta)
  | tick key now =>
      exact live.act key (Client.SyncPublisher.timerCovers_timerCallback (live.timed key) now)
        (not_isHello_deltas _)

end Live

end World

section Reached

variable {config : RoomConfig} {world : World}

theorem ReachableBy.live (reachable : Reachable config world) : world.Live := by
  induction reachable with
  | initial => exact .initial
  | step reachable stepped bounded _ ih => exact ih.step reachable.proper stepped

theorem ReachableBy.attended (reachable : Reachable config world) : world.Attended := by
  induction reachable with
  | initial => exact .initial
  | step reachable stepped bounded _ ih => exact ih.step reachable.proper stepped

end Reached

end DjApp.System
