import DjApp.Client.FrameHandling
import DjApp.Server.ReplicaProperties

/-! What the client knows of its room is what a replica of it shows, for as long as no
more peers are listed than the client keeps. -/

set_option autoImplicit false

namespace DjApp.Client

open Library
open Server (Frame Peer Replica RoomConfig)

section Names

/-- The client lists every member: a name the server accepts is a peer name. -/
theorem isValidPeerName_toText {name : JsString} (valid : Server.ValidName name) :
    isValidPeerName name.toText = true := by
  have nonempty : Utf16.decode name ≠ [] := by
    intro none
    have empty := List.map_eq_nil_iff.mp none
    rw [Utf16.codePoints_eq_nil_iff] at empty
    have some := valid.nonempty
    rw [empty] at some
    cases some
  have bounded : (Utf16.decode name).length ≤ 32 := by
    rw [Utf16.length_decode]
    exact (Utf16.length_codePoints_le name).trans valid.bounded
  have printable : ∀ char ∈ Utf16.decode name,
      Server.isControlChar char.toNat = false := by
    intro char member
    have point : char.toNat ∈ Utf16.codePoints name := by
      rw [← Utf16.decode_toNat_of_wellFormed name valid.wellFormed]
      exact List.mem_map_of_mem member
    have none := List.any_eq_false.mp valid.printable char.toNat point
    simpa using none
  simp only [isValidPeerName, isValidHelloName, JsString.toText, String.toList_ofList,
    isPrintableNoControlChars, Bool.and_eq_true, Bool.not_eq_true', List.isEmpty_eq_false_iff,
    decide_eq_true_eq, List.all_eq_true]
  refine ⟨⟨nonempty, bounded⟩, fun char member => ?_⟩
  have control := printable char member
  simp only [Server.isControlChar, Bool.or_eq_false_iff] at control
  simp only [control.1.1, control.1.2, Bool.or_self]

end Names

/-- The client's image of a replica. -/
def Knowledge.ofReplica (replica : Replica) : Knowledge :=
  ⟨replica.self.text, replica.role, replica.peers.map PeerInfo.ofPeer⟩

theorem any_ofPeer (peers : List Peer) (peer : Peer) :
    (peers.map PeerInfo.ofPeer).any (·.clientId = (PeerInfo.ofPeer peer).clientId) =
      peers.any (·.clientId = peer.clientId) := by
  simp [List.any_map, Function.comp_def, PeerInfo.ofPeer]

theorem updatePeer_ofPeer {peers : List Peer} (distinct : (peers.map (·.clientId)).Nodup)
    (peer : Peer) :
    updatePeer (peers.map PeerInfo.ofPeer) (.ofPeer peer) =
      (peers.map fun known => if known.clientId = peer.clientId then peer else known).map
        PeerInfo.ofPeer := by
  induction peers with
  | nil => rfl
  | cons known rest ih =>
      obtain ⟨fresh, distinct⟩ := List.nodup_cons.mp distinct
      by_cases same : known.clientId = peer.clientId
      · have others : ∀ other ∈ rest, other.clientId ≠ peer.clientId := by
          intro other member equal
          exact fresh (List.mem_map.mpr ⟨other, member, equal.trans same.symm⟩)
        have kept : (rest.map fun known => if known.clientId = peer.clientId then peer else known) =
            rest := by
          refine (List.map_congr_left fun other member => ?_).trans (List.map_id rest)
          rw [if_neg (others other member)]
          rfl
        simp [updatePeer, PeerInfo.ofPeer, same, kept]
      · have differs : known.clientId.text ≠ peer.clientId.text :=
          fun equal => same (Server.ClientId.text_injective equal)
        simp only [List.map_cons, updatePeer, PeerInfo.ofPeer, if_neg differs, if_neg same]
        exact congrArg _ (ih distinct)

/-- Listing a peer within the client's bound is listing it in the replica. -/
theorem addOrUpdatePeer_ofPeer {peers : List Peer} (distinct : (peers.map (·.clientId)).Nodup)
    {peer : Peer} (named : Server.ValidName peer.name)
    (bounded : (Replica.addOrUpdatePeer peers peer).length ≤ kMaxPeers) :
    addOrUpdatePeer (peers.map PeerInfo.ofPeer) (.ofPeer peer) =
      (Replica.addOrUpdatePeer peers peer).map PeerInfo.ofPeer := by
  have accepted : isValidPeerName (PeerInfo.ofPeer peer).name = true := isValidPeerName_toText named
  have known := any_ofPeer peers peer
  unfold addOrUpdatePeer Replica.addOrUpdatePeer
  rw [accepted, known]
  simp only [Bool.not_true, Bool.false_eq_true, ↓reduceIte]
  cases present : peers.any (·.clientId = peer.clientId) with
  | true =>
      simp only [↓reduceIte]
      exact updatePeer_ofPeer distinct peer
  | false =>
      simp only [Replica.addOrUpdatePeer, present, Bool.false_eq_true, ↓reduceIte,
        List.length_append, List.length_singleton] at bounded
      have room : ¬ kMaxPeers ≤ (peers.map PeerInfo.ofPeer).length := by
        rw [List.length_map]
        omega
      simp only [Bool.false_eq_true, ↓reduceIte, if_neg room, List.map_append, List.map_cons,
        List.map_nil]

theorem replica_addOrUpdatePeer_fresh {peers : List Peer} {peer : Peer}
    (fresh : peer.clientId ∉ peers.map (·.clientId)) :
    Replica.addOrUpdatePeer peers peer = peers ++ [peer] := by
  have absent : peers.any (·.clientId = peer.clientId) = false := by
    apply List.any_eq_false.mpr
    intro known member same
    exact fresh (List.mem_map.mpr ⟨known, member, of_decide_eq_true same⟩)
  rw [Replica.addOrUpdatePeer, absent]
  rfl

theorem foldl_addOrUpdatePeer_ofPeer {listed peers : List Peer}
    (distinct : ((listed ++ peers).map (·.clientId)).Nodup)
    (named : ∀ peer ∈ peers, Server.ValidName peer.name)
    (bounded : (listed ++ peers).length ≤ kMaxPeers) :
    (peers.map PeerInfo.ofPeer).foldl addOrUpdatePeer (listed.map PeerInfo.ofPeer) =
      (listed ++ peers).map PeerInfo.ofPeer := by
  induction peers generalizing listed with
  | nil => simp
  | cons peer rest ih =>
      obtain ⟨peerNamed, restNamed⟩ := List.forall_mem_cons.mp named
      have before : (listed.map (·.clientId)).Nodup :=
        distinct.sublist ((List.sublist_append_left _ _).map _)
      have fresh : peer.clientId ∉ listed.map (·.clientId) := by
        rw [List.map_append, List.map_cons] at distinct
        intro present
        exact (List.nodup_append.mp distinct).2.2 _ present _ List.mem_cons_self rfl
      have added := replica_addOrUpdatePeer_fresh fresh
      have first := addOrUpdatePeer_ofPeer before peerNamed (by
        rw [added]
        simp only [List.length_append, List.length_cons, List.length_nil] at bounded ⊢
        omega)
      rw [List.map_cons, List.foldl_cons, first, added]
      have shape : listed ++ peer :: rest = (listed ++ [peer]) ++ rest := by simp
      rw [shape] at distinct bounded ⊢
      exact ih distinct restNamed bounded

theorem setPeerRole_ofPeer (peers : List Peer) (id : Server.ClientId) (role : Role) :
    setPeerRole (peers.map PeerInfo.ofPeer) id.text role =
      (Replica.setPeerRole peers id role).map PeerInfo.ofPeer := by
  simp only [setPeerRole, Replica.setPeerRole, List.map_map]
  apply List.map_congr_left
  intro peer _
  by_cases same : peer.clientId = id <;> simp [PeerInfo.ofPeer, same]

theorem filter_ofPeer (peers : List Peer) (id : Server.ClientId) :
    (peers.map PeerInfo.ofPeer).filter (·.clientId ≠ id.text) =
      (peers.filter (·.clientId ≠ id)).map PeerInfo.ofPeer := by
  simp [List.filter_map, Function.comp_def, PeerInfo.ofPeer]

def Distinct (replica : Replica) : Prop := (replica.peers.map (·.clientId)).Nodup

theorem Distinct.receive {config : RoomConfig} {replica : Replica} (distinct : Distinct replica)
    {frame : Frame} (valid : frame.Valid config) : Distinct (replica.receive frame) := by
  cases frame with
  | welcome id role serverSeq decks peers => exact valid.2.2.distinct
  | peerJoined id name role =>
      by_cases known : id ∈ replica.peers.map (·.clientId)
      · have found : replica.peers.any (·.clientId = id) = true := by
          obtain ⟨peer, member, same⟩ := List.mem_map.mp known
          exact List.any_eq_true.mpr ⟨peer, member, decide_eq_true same⟩
        have kept : ((replica.peers.map fun peer =>
            if peer.clientId = id then ⟨id, name, role⟩ else peer).map (·.clientId)) =
            replica.peers.map (·.clientId) := by
          rw [List.map_map]
          apply List.map_congr_left
          intro peer _
          by_cases same : peer.clientId = id <;> simp [same]
        simp only [Distinct, Replica.receive, Replica.addOrUpdatePeer, found, ↓reduceIte, kept]
        exact distinct
      · have added : Replica.addOrUpdatePeer replica.peers ⟨id, name, role⟩ =
            replica.peers ++ [⟨id, name, role⟩] := replica_addOrUpdatePeer_fresh known
        simp only [Distinct, Replica.receive, added, List.map_append, List.map_cons, List.map_nil]
        rw [List.nodup_append]
        refine ⟨distinct, by simp, ?_⟩
        intro left member right single same
        obtain rfl := List.mem_singleton.mp single
        exact known (same ▸ member)
  | peerLeft id => exact distinct.sublist (List.filter_sublist.map _)
  | roleChanged id role =>
      have kept : (Replica.setPeerRole replica.peers id role).map (·.clientId) =
          replica.peers.map (·.clientId) := by
        rw [Replica.setPeerRole, List.map_map]
        apply List.map_congr_left
        intro peer _
        by_cases same : peer.clientId = id <;> simp [same]
      by_cases own : id = replica.self
      · simpa [Distinct, Replica.receive, own] using distinct
      · simpa [Distinct, Replica.receive, own, kept] using distinct
  | delta | snapshot | error => exact distinct

/-- A frame does to the client's knowledge what it does to the replica, up to the bound. -/
theorem receive_ofReplica {config : RoomConfig} {replica : Replica} (distinct : Distinct replica)
    {frame : Frame} (valid : frame.Valid config)
    (bounded : (replica.receive frame).peers.length ≤ kMaxPeers) :
    (Knowledge.ofReplica replica).receive frame = .ofReplica (replica.receive frame) := by
  cases frame with
  | welcome id role serverSeq decks peers =>
      have listed := @foldl_addOrUpdatePeer_ofPeer [] peers valid.2.2.distinct
        valid.2.2.named bounded
      simp only [Knowledge.receive, Knowledge.ofReplica, Replica.receive, Replica.ofWelcome]
      exact congrArg _ listed
  | peerJoined id name role =>
      have listed := @addOrUpdatePeer_ofPeer replica.peers distinct ⟨id, name, role⟩ valid.2 bounded
      simp only [Knowledge.receive, Knowledge.ofReplica, Replica.receive]
      exact congrArg _ listed
  | peerLeft id =>
      simp only [Knowledge.receive, Knowledge.ofReplica, Replica.receive, filter_ofPeer]
  | roleChanged id role =>
      by_cases own : id = replica.self
      · simp [Knowledge.receive, Knowledge.ofReplica, Replica.receive, own]
      · simp [Knowledge.receive, Knowledge.ofReplica, Replica.receive, own, setPeerRole_ofPeer]
  | delta | snapshot | error => rfl

end DjApp.Client
