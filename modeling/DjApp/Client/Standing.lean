import DjApp.Client.ClientRun
import DjApp.Client.ReplicaKnowledge

/-! Where a client stands in its room: what it knows of the members, and what that says
of its controls. -/

set_option autoImplicit false

namespace DjApp.Client

open Server (Frame Replica RoomConfig)

/-- The part of a client that only its frames and its connection change. -/
structure Standing where
  known : Knowledge
  connected : Bool

def ClientApp.standing (app : ClientApp) : Standing :=
  ⟨app.component.knowledge, app.component.connected⟩

namespace Standing

def receive (standing : Standing) (frame : Frame) : Standing :=
  ⟨standing.known.receive frame, standing.connected || isWelcome frame⟩

/-- A client that stands so has its own controls locked. -/
def Locked (standing : Standing) : Prop :=
  controlsEnabledLocally standing.connected (standing.known.role = .controller)
    (anyPeerControls standing.known.peers) = false

theorem foldl_receive (standing : Standing) (frames : List Frame) :
    frames.foldl receive standing =
      ⟨frames.foldl Knowledge.receive standing.known,
        standing.connected || frames.any isWelcome⟩ := by
  induction frames generalizing standing with
  | nil => simp
  | cons frame rest ih =>
      rw [List.foldl_cons, ih, List.foldl_cons, List.any_cons, receive, Bool.or_assoc]

end Standing

namespace ClientApp

variable (app : ClientApp)

theorem locked_iff : app.component.canControlLocally = false ↔ app.standing.Locked := Iff.rfl

theorem standing_receive (frame : Frame) :
    (app.receive frame).standing = app.standing.receive frame := by
  cases frame <;> simp [receive, MainComponent.receive, standing, Standing.receive, isWelcome,
    MainComponent.knowledge]

theorem standing_edit (now : ℚ) (delta : StateDelta) :
    (app.step (.edit now delta)).1.standing = app.standing := by
  cases empty : delta.empty with
  | true => rw [step, MainComponent.applyDelta_empty _ now _ empty, withComponent]
  | false =>
      rw [step, MainComponent.applyDelta_own _ now empty]
      rfl

end ClientApp

theorem anyPeerControls_ofPeer (peers : List Server.Peer) :
    anyPeerControls (peers.map PeerInfo.ofPeer) = false ↔
      ∀ peer ∈ peers, peer.role ≠ .controller := by
  rw [anyPeerControls, List.any_map, List.any_eq_false]
  apply forall₂_congr
  intro peer _
  rw [Function.comp_apply, decide_eq_true_eq]
  exact Iff.rfl

theorem Standing.locked_ofReplica (replica : Replica) :
    Standing.Locked ⟨.ofReplica replica, true⟩ ↔
      replica.role ≠ .controller ∧ ∃ peer ∈ replica.peers, peer.role = .controller := by
  have free := (anyPeerControls_ofPeer replica.peers).not
  push Not at free
  rw [← free]
  simp only [Locked, controlsEnabledLocally, Knowledge.ofReplica, Bool.not_true, Bool.false_or,
    Bool.or_eq_false_iff, Bool.not_eq_false', ne_eq, Bool.not_eq_false]
  exact and_congr_left fun _ => decide_eq_false_iff_not

/-- The lock of a connected client whose knowledge is that of a replica. -/
theorem canControlLocally_iff {app : ClientApp} {replica : Replica}
    (stands : app.standing = ⟨.ofReplica replica, true⟩) :
    app.component.canControlLocally = true ↔
      replica.role = .controller ∨ ∀ peer ∈ replica.peers, peer.role ≠ .controller := by
  rw [← Bool.not_eq_false, app.locked_iff, stands, Standing.locked_ofReplica, not_and_or, not_not]
  simp

end DjApp.Client
