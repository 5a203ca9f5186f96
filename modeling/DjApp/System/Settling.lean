import DjApp.System.Greetings
import Mathlib.Algebra.BigOperators.Ring.Finset
import Mathlib.Algebra.Order.BigOperators.Group.Finset

/-! Left to itself, everything in flight arrives: the rooms and its clients settle after a
bounded number of exchanges, whatever their order. -/

set_option autoImplicit false

namespace DjApp.System

open Library
open Server (ConnId Frame Room RoomConfig Registration IsMember framesTo)
open Client (ClientApp ClientMessage)

/-!
## Exchanges
-/

/-- The steps that no user takes and that bring nothing down: what is in flight arrives, a
publisher's timer sends, and the end of a connection is noticed at its other end. -/
inductive ExchangeBy (read : ClientMessage → JsValue) (config : RoomConfig) : World → World → Prop where
  | serve (world : World) (conn : ConnId) (message : ClientMessage) (rest : List ClientMessage)
      (draws : Server.Draws) (listening : (world.conns conn).listening = true)
      (first : (world.conns conn).up = message :: rest) :
      ExchangeBy read config world
        ((world.setConn conn { world.conns conn with up := rest }).call config
          (.message conn (read message) draws))
  | deliver (world : World) (key : ℕ) (conn : ConnId) (now : ℚ) (frame : Frame)
      (rest : List Frame) (linked : world.links key = some conn)
      (first : (world.conns conn).down = frame :: rest)
      (settled : Moved (world.apps key) ((world.apps key).dispatch now frame.toVar).1 →
        (world.apps key).Idle) :
      ExchangeBy read config world
        ((world.setConn conn { world.conns conn with down := rest }).act key
          ((world.apps key).dispatch now frame.toVar))
  | flush (world : World) (key : ℕ) (now : ℚ)
      (running : (world.apps key).component.syncPublisher.timerRunning = true)
      (sends : ((world.apps key).step (.tick now)).2 ≠ []) :
      ExchangeBy read config world (world.act key ((world.apps key).step (.tick now)))
  | notice (world : World) (conn : ConnId) (listening : (world.conns conn).listening = true)
      (left : ∀ key, world.links key ≠ some conn) :
      ExchangeBy read config world
        ((world.setConn conn (world.conns conn).close).call config (.disconnect conn))
  | hangUp (world : World) (key : ℕ) (conn : ConnId) (linked : world.links key = some conn)
      (closed : (world.conns conn).listening = false)
      (settled : Moved (world.apps key) (world.apps key).closed → (world.apps key).Idle) :
      ExchangeBy read config world
        { world with
          apps := Function.update world.apps key (world.apps key).closed
          links := Function.update world.links key none }

theorem ExchangeBy.step {read : ClientMessage → JsValue} {config : RoomConfig} {world after : World}
    (exchange : ExchangeBy read config world after) : StepBy read config world after := by
  cases exchange with
  | serve conn message rest draws listening first =>
      exact .serve world conn message rest draws listening first
  | deliver key conn now frame rest linked first settled =>
      exact .deliver world key conn now frame rest linked first settled
  | flush key now running sends => exact .tick world key now
  | notice conn listening left => exact .drop world conn listening
  | hangUp key conn linked closed settled => exact .leave world key conn linked settled

/-- So many exchanges, one after the other. -/
inductive ExchangesBy (read : ClientMessage → JsValue) (config : RoomConfig) :
    ℕ → World → World → Prop where
  | none (world : World) : ExchangesBy read config 0 world world
  | next {count : ℕ} {world between after : World} (exchange : ExchangeBy read config world between)
      (rest : ExchangesBy read config count between after) :
      ExchangesBy read config (count + 1) world after

/-- The exchanges when the text of a message always says what it means. -/
abbrev Exchange := ExchangeBy ClientMessage.asJs

abbrev Exchanges := ExchangesBy ClientMessage.asJs

/-!
## What is still in flight
-/

section Sums

variable {Index Value : Type} [DecidableEq Index]

/-- A sum in which one of the summands changes. -/
theorem sum_update {indices : Finset Index} {index : Index} (member : index ∈ indices)
    (values : Index → Value) (weight : Value → ℕ) (value : Value) :
    ∑ other ∈ indices, weight (Function.update values index value other) + weight (values index) =
      ∑ other ∈ indices, weight (values other) + weight value := by
  have updated : ∀ other, weight (Function.update values index value other) =
      Function.update (weight ∘ values) index (weight value) other := by
    intro other
    rw [← Function.comp_update]
    rfl
  have rest := Finset.sum_eq_add_sum_sdiff_singleton_of_mem member (weight ∘ values)
  simp only [Function.comp_apply] at rest
  rw [Finset.sum_congr rfl fun other _ => updated other, Finset.sum_update_of_mem member, rest]
  simp only [Function.comp_apply]
  omega

end Sums

namespace World

def linkLoad (link : Option ConnId) : ℕ := if link.isSome then 1 else 0

def connectionLoad (connection : Connection) : ℕ :=
  messagesLoad connection.up + framesLoad connection.down + if connection.listening then 11 else 0

/-- Bounds the number of exchanges to come, where no client but these has done anything. -/
def load (world : World) (keys : Finset ℕ) : ℕ :=
  ∑ key ∈ keys, pendingLoad (world.apps key).component.syncPublisher +
    ∑ key ∈ keys, linkLoad (world.links key) +
      ∑ conn ∈ Finset.range world.nextConn, connectionLoad (world.conns conn)

section Load

variable {config : RoomConfig} (world : World) (keys : Finset ℕ)

theorem load_setConn {conn : ConnId} (used : conn < world.nextConn) (connection : Connection) :
    (world.setConn conn connection).load keys + connectionLoad (world.conns conn) =
      world.load keys + connectionLoad connection := by
  have changed := sum_update (Finset.mem_range.mpr used) world.conns connectionLoad connection
  simp only [load, setConn]
  omega

theorem connectionLoad_hear_le (connection : Connection) (conn : ConnId)
    (effects : List Server.Effect) :
    connectionLoad (connection.hear conn effects) ≤
      connectionLoad connection + framesLoad (framesTo conn effects) := by
  unfold Connection.hear
  split
  · simp only [connectionLoad, Connection.close, framesLoad_append, messagesLoad_nil]
    simp only [Bool.false_eq_true, ↓reduceIte]
    omega
  · simp only [connectionLoad, framesLoad_append]
    omega

/-- What is sent to the connections is no more than what the room sends. -/
theorem sum_framesTo_le (conns : Finset ConnId) (effects : List Server.Effect) :
    ∑ conn ∈ conns, framesLoad (framesTo conn effects) ≤ effectsLoad effects := by
  induction effects with
  | nil => simp
  | cons effect rest ih =>
      cases effect with
      | close target code => simpa [effectLoad] using ih
      | send target frame =>
          have split : ∀ conn, framesLoad (framesTo conn (.send target frame :: rest)) =
              (if target = conn then frameLoad frame else 0) + framesLoad (framesTo conn rest) := by
            intro conn
            rw [Server.framesTo_send_cons]
            split <;> simp
          have once : ∑ conn ∈ conns, (if target = conn then frameLoad frame else 0) ≤
              frameLoad frame := by
            rw [Finset.sum_ite_eq]
            split
            · exact le_rfl
            · exact Nat.zero_le _
          rw [Finset.sum_congr rfl fun conn _ => split conn, Finset.sum_add_distrib,
            effectsLoad_cons, effectLoad]
          exact Nat.add_le_add once ih

theorem load_call_le (call : Server.Call) :
    (world.call config call).load keys ≤
      world.load keys + effectsLoad (world.room.step config call).2.effects := by
  have heard : ∑ conn ∈ Finset.range world.nextConn,
      connectionLoad ((world.call config call).conns conn) ≤
        ∑ conn ∈ Finset.range world.nextConn, connectionLoad (world.conns conn) +
          effectsLoad (world.room.step config call).2.effects := by
    calc ∑ conn ∈ Finset.range world.nextConn, connectionLoad ((world.call config call).conns conn)
        ≤ ∑ conn ∈ Finset.range world.nextConn, (connectionLoad (world.conns conn) +
            framesLoad (framesTo conn (world.room.step config call).2.effects)) :=
          Finset.sum_le_sum fun conn _ => connectionLoad_hear_le _ conn _
      _ = ∑ conn ∈ Finset.range world.nextConn, connectionLoad (world.conns conn) +
            ∑ conn ∈ Finset.range world.nextConn,
              framesLoad (framesTo conn (world.room.step config call).2.effects) :=
          Finset.sum_add_distrib
      _ ≤ _ := Nat.add_le_add_left (sum_framesTo_le _ _) _
  have kept : (world.call config call).nextConn = world.nextConn := rfl
  simp only [load, kept]
  have links : (world.call config call).links = world.links := rfl
  have apps : (world.call config call).apps = world.apps := rfl
  rw [links, apps]
  omega

theorem connectionLoad_send_le (connection : Connection) (messages : List ClientMessage) :
    connectionLoad (connection.send messages) ≤
      connectionLoad connection + messagesLoad messages := by
  unfold Connection.send
  split
  · simp only [connectionLoad, messagesLoad_append]
    omega
  · exact Nat.le_add_right _ _

theorem load_act_le {key : ℕ} (member : key ∈ keys)
    (opened : ∀ conn, world.links key = some conn → conn < world.nextConn)
    (done : ClientApp × List ClientMessage) :
    (world.act key done).load keys +
        pendingLoad (world.apps key).component.syncPublisher ≤
      world.load keys + pendingLoad done.1.component.syncPublisher + messagesLoad done.2 := by
  have apps := sum_update member world.apps
    (fun app => pendingLoad app.component.syncPublisher) done.1
  unfold act load
  cases linked : world.links key with
  | none =>
      simp only
      omega
  | some conn =>
      have conns := sum_update (Finset.mem_range.mpr (opened conn linked)) world.conns
        connectionLoad ((world.conns conn).send done.2)
      have sent := connectionLoad_send_le (world.conns conn) done.2
      simp only
      omega

end Load

/-- No client but these is linked to a connection, or has anything to send. -/
def Within (keys : Finset ℕ) (world : World) : Prop :=
  ∀ key ∉ keys, world.links key = none ∧ (world.apps key).Idle

section Within

variable {config : RoomConfig} {world after : World} {keys : Finset ℕ}

theorem Within.mem_of_linked (within : Within keys world) {key : ℕ} {conn : ConnId}
    (linked : world.links key = some conn) : key ∈ keys := by
  by_contra unknown
  rw [(within key unknown).1] at linked
  cases linked

theorem Within.mem_of_sends (within : Within keys world) {key : ℕ} {now : ℚ}
    (sends : ((world.apps key).step (.tick now)).2 ≠ []) : key ∈ keys := by
  by_contra unknown
  have flushed := messagesLoad_tick (world.apps key) now sends
  rw [pendingLoad_of_idle (within key unknown).2] at flushed
  exact Nat.not_lt_zero _ flushed

/-- A step is at most one client's. -/
theorem Within.step (within : Within keys world) (stepped : Step config world after) :
    ∃ key, Within (insert key keys) after := by
  have others : ∀ (key : ℕ) (next : World),
      (∀ other ≠ key, next.links other = world.links other ∧ next.apps other = world.apps other) →
      Within (insert key keys) next := by
    intro key next same other outside
    obtain ⟨unlike, unknown⟩ := not_or.mp (Finset.mem_insert.not.mp outside)
    obtain ⟨links, apps⟩ := same other unlike
    rw [links, apps]
    exact within other unknown
  cases stepped with
  | connect key | leave key =>
      exact ⟨key, others key _ fun other unlike => by simp [unlike]⟩
  | deliver key | claimControl key | releaseControl key | edit key | tick key =>
      exact ⟨key, others key _ fun other unlike => by simp [act, setConn, unlike]⟩
  | drop conn | serve conn => exact ⟨0, others 0 _ fun _ _ => ⟨rfl, rfl⟩⟩

theorem Within.exchange (within : Within keys world) (exchange : Exchange config world after) :
    Within keys after := by
  have own : ∀ (key : ℕ) (next : World), key ∈ keys →
      (∀ other ≠ key, next.links other = world.links other ∧ next.apps other = world.apps other) →
      Within keys next := by
    intro key next known same other unknown
    have unlike : other ≠ key := by
      rintro rfl
      exact unknown known
    obtain ⟨links, apps⟩ := same other unlike
    rw [links, apps]
    exact within other unknown
  cases exchange with
  | serve conn | notice conn => exact within
  | deliver key conn now frame rest linked =>
      exact own key _ (within.mem_of_linked linked) fun other unlike => by
        simp [act, setConn, unlike]
  | hangUp key conn linked =>
      exact own key _ (within.mem_of_linked linked) fun other unlike => by simp [unlike]
  | flush key now running sends =>
      exact own key _ (within.mem_of_sends sends) fun other unlike => by simp [act, unlike]

end Within

section Decrease

variable {config : RoomConfig} {world after : World} {keys : Finset ℕ}

theorem Proper.few (proper : Proper config world) (small : config.maxClients ≤ 9) :
    world.room.clients.length ≤ 9 := proper.valid.capacity.trans small

theorem load_serve_lt (proper : Proper config world) (small : config.maxClients ≤ 9)
    {conn : ConnId} {message : ClientMessage} {rest : List ClientMessage} (draws : Server.Draws)
    (listening : (world.conns conn).listening = true)
    (first : (world.conns conn).up = message :: rest) :
    ((world.setConn conn { world.conns conn with up := rest }).call config
      (.message conn message.asJs draws)).load keys < world.load keys := by
  let taken := world.setConn conn { world.conns conn with up := rest }
  have joined : (world.room.step config (.message conn message.asJs draws)).1.clients.length ≤ 9 :=
    ((Server.step_transition config _ _).valid proper.valid).capacity.trans small
  have answered := effectsLoad_message conn message draws (proper.few small) joined
  have called : (taken.call config (.message conn message.asJs draws)).load keys ≤ taken.load keys +
      effectsLoad (world.room.step config (.message conn message.asJs draws)).2.effects :=
    load_call_le taken keys _
  have moved : taken.load keys + connectionLoad (world.conns conn) =
      world.load keys + connectionLoad { world.conns conn with up := rest } :=
    world.load_setConn keys (proper.used listening) _
  simp only [connectionLoad, first, messagesLoad_cons] at moved
  change (taken.call config (.message conn message.asJs draws)).load keys < world.load keys
  omega

theorem load_deliver_lt (proper : Proper config world) (within : Within keys world) {key : ℕ}
    {conn : ConnId} (now : ℚ) {frame : Frame} {rest : List Frame}
    (linked : world.links key = some conn) (first : (world.conns conn).down = frame :: rest) :
    ((world.setConn conn { world.conns conn with down := rest }).act key
      ((world.apps key).dispatch now frame.toVar)).load keys < world.load keys := by
  let taken := world.setConn conn { world.conns conn with down := rest }
  have listed : frame ∈ (world.conns conn).down := first ▸ List.mem_cons_self
  have opened : ∀ own, world.links key = some own → own < world.nextConn :=
    fun own found => proper.opened key own found
  have acted := load_act_le taken keys (within.mem_of_linked linked) opened
    ((world.apps key).dispatch now frame.toVar)
  have moved : taken.load keys + connectionLoad (world.conns conn) =
      world.load keys + connectionLoad { world.conns conn with down := rest } :=
    world.load_setConn keys (proper.opened key conn linked) _
  have same : taken.apps = world.apps := rfl
  have replied := messagesLoad_replies (world.apps key) frame
  simp only [connectionLoad, first, framesLoad_cons] at moved
  change (taken.act key ((world.apps key).dispatch now frame.toVar)).load keys < world.load keys
  rw [Client.dispatch_toVar _ now (proper.frames conn frame listed)] at acted ⊢
  simp only [same, pendingLoad_receive] at acted
  omega

theorem load_flush_lt (proper : Proper config world) (within : Within keys world) {key : ℕ}
    {now : ℚ} (sends : ((world.apps key).step (.tick now)).2 ≠ []) :
    (world.act key ((world.apps key).step (.tick now))).load keys < world.load keys := by
  have acted := load_act_le world keys (within.mem_of_sends sends)
    (fun conn linked => proper.opened key conn linked) ((world.apps key).step (.tick now))
  have sent := messagesLoad_tick (world.apps key) now sends
  omega

theorem load_notice_lt (proper : Proper config world) (small : config.maxClients ≤ 9)
    {conn : ConnId} (listening : (world.conns conn).listening = true) :
    ((world.setConn conn (world.conns conn).close).call config (.disconnect conn)).load keys <
      world.load keys := by
  let shut := world.setConn conn (world.conns conn).close
  have called : (shut.call config (.disconnect conn)).load keys ≤ shut.load keys +
      effectsLoad (world.room.step config (.disconnect conn)).2.effects := load_call_le shut keys _
  have told := @effectsLoad_disconnect config world.room conn (proper.few small)
  have moved : shut.load keys + connectionLoad (world.conns conn) =
      world.load keys + connectionLoad (world.conns conn).close :=
    world.load_setConn keys (proper.used listening) _
  simp only [connectionLoad, Connection.close, listening, messagesLoad_nil, ↓reduceIte,
    Bool.false_eq_true] at moved
  change (shut.call config (.disconnect conn)).load keys < world.load keys
  omega

theorem load_hangUp_lt (within : Within keys world) {key : ℕ} {conn : ConnId}
    (linked : world.links key = some conn) :
    load { world with
      apps := Function.update world.apps key (world.apps key).closed
      links := Function.update world.links key none } keys < world.load keys := by
  have member := within.mem_of_linked linked
  have apps := sum_update member world.apps
    (fun app => pendingLoad app.component.syncPublisher) (world.apps key).closed
  have links := sum_update member world.links linkLoad none
  have kept : pendingLoad (world.apps key).closed.component.syncPublisher =
      pendingLoad (world.apps key).component.syncPublisher := rfl
  simp only [linked, linkLoad, Option.isSome_some, Option.isSome_none, ↓reduceIte,
    Bool.false_eq_true] at links
  simp only [load, linkLoad]
  omega

/-- Every exchange leaves less to come. -/
theorem load_exchange_lt (proper : Proper config world) (small : config.maxClients ≤ 9)
    (within : Within keys world) (exchange : Exchange config world after) :
    after.load keys < world.load keys := by
  cases exchange with
  | serve conn message rest draws listening first =>
      exact load_serve_lt proper small draws listening first
  | deliver key conn now frame rest linked first => exact load_deliver_lt proper within now linked first
  | flush key now running sends => exact load_flush_lt proper within sends
  | notice conn listening left => exact load_notice_lt proper small listening
  | hangUp key conn linked => exact load_hangUp_lt within linked

end Decrease

end World

section Runs

variable {config : RoomConfig} {world after : World}

theorem ReachableBy.within (reachable : Reachable config world) : ∃ keys, world.Within keys := by
  induction reachable with
  | initial => exact ⟨∅, fun key _ => ⟨rfl, fun _ => rfl⟩⟩
  | step reachable stepped bounded _ ih =>
      obtain ⟨keys, within⟩ := ih
      obtain ⟨key, wider⟩ := within.step stepped
      exact ⟨insert key keys, wider⟩

theorem ReachableBy.exchange (reachable : Reachable config world) (small : config.maxClients ≤ 9)
    (exchange : Exchange config world after) : Reachable config after := by
  refine reachable.step exchange.step ?_
  have proper := reachable.proper.step exchange.step
  exact proper.few small

theorem ExchangesBy.reachable {count : ℕ} (exchanges : Exchanges config count world after)
    (reachable : Reachable config world) (small : config.maxClients ≤ 9) :
    Reachable config after := by
  induction exchanges with
  | none => exact reachable
  | next exchange rest ih => exact ih (reachable.exchange small exchange)

theorem ExchangesBy.count_le {count : ℕ} {keys : Finset ℕ}
    (exchanges : Exchanges config count world after) (reachable : Reachable config world)
    (small : config.maxClients ≤ 9) (within : world.Within keys) :
    count + after.load keys ≤ world.load keys := by
  induction exchanges with
  | none => exact (Nat.zero_add _).le
  | next exchange rest ih =>
      have less := World.load_exchange_lt reachable.proper small within exchange
      have later := ih (reachable.exchange small exchange) (within.exchange exchange)
      omega

end Runs

namespace World

/-!
## Settled worlds
-/

/-- All is quiet, and every client that is linked to a connection is a member that knows who
else is one and who controls the room, and shows what the controller shows. -/
structure Settled (world : World) : Prop where
  quiescent : world.Quiescent
  welcomed : ∀ key conn, world.links key = some conn →
    ∃ registration, IsMember world.room conn registration ∧
      (world.room.serverSeq < 2 ^ 31 →
        (world.apps key).standing = ⟨knowledgeOf world.room conn registration, true⟩)
  converged : world.room.serverSeq < 2 ^ 31 → world.room.controllerId ≠ none → world.Converged

section Stuck

variable {config : RoomConfig} {world : World}

theorem Live.quiescent (live : Live world) (stuck : ∀ after, ¬ Exchange config world after) :
    world.Quiescent := by
  have idle : ∀ key, (world.apps key).Idle := by
    intro key deck
    by_contra held
    obtain ⟨now, sends⟩ := timerCallback_sends_pending held
    refine stuck _ (.flush world key now ?_ fun silent => sends (List.map_eq_nil_iff.mp silent))
    exact live.timed key deck (Option.ne_none_iff_isSome.mp held)
  constructor
  · intro conn
    cases listening : (world.conns conn).listening with
    | false => exact (live.kept conn).deaf listening
    | true =>
        cases first : (world.conns conn).up with
        | nil => rfl
        | cons message rest =>
            exact absurd (.serve world conn message rest (fun _ => ⟨0⟩) listening first) (stuck _)
  · intro key conn linked
    cases first : (world.conns conn).down with
    | nil => rfl
    | cons frame rest =>
        exact absurd (.deliver world key conn 0 frame rest linked first fun _ => idle key) (stuck _)
  · intro conn listening
    by_contra unlinked
    exact stuck _ (.notice world conn listening fun key linked => unlinked ⟨key, linked⟩)
  · exact idle

theorem Live.welcomed (live : Live world) (attended : Attended world)
    (stuck : ∀ after, ¬ Exchange config world after) {key : ℕ} {conn : ConnId}
    (linked : world.links key = some conn) :
    ∃ registration, IsMember world.room conn registration := by
  have quiescent := live.quiescent stuck
  have listening : (world.conns conn).listening = true := by
    by_contra closed
    exact stuck _ (.hangUp world key conn linked (Bool.eq_false_of_not_eq_true closed)
      fun _ => quiescent.published key)
  refine attended.present conn listening fun unknown => ?_
  obtain ⟨name, room, rest, first, _⟩ := (live.kept conn).greets listening (not_not.mpr unknown)
  rw [quiescent.sent conn] at first
  cases first

end Stuck

end World

section Reached

variable {config : RoomConfig} {world : World}

/-- With all quiet, what the controller shows is what every member shows. -/
theorem ReachableBy.converged (reachable : Reachable config world) (quiescent : world.Quiescent)
    (counted : world.room.serverSeq < 2 ^ 31) (controlled : world.room.controllerId ≠ none) :
    world.Converged := by
  have valid := reachable.proper.valid
  have linked : ∀ conn registration, IsMember world.room conn registration →
      ∃ key, world.links key = some conn := fun conn registration member =>
    quiescent.noticed conn (reachable.attended.absent conn registration member)
  obtain ⟨id, controls⟩ := Option.ne_none_iff_exists'.mp controlled
  obtain ⟨client, listed, rfl⟩ := List.mem_map.mp (valid.controllerLive id controls)
  obtain ⟨name, registered⟩ := Server.entry_registration valid listed
  have holds : IsMember world.room client.2 ⟨client.1, name⟩ :=
    ⟨registered, AssocList.lookup_of_mem valid.distinctIds listed⟩
  obtain ⟨controller, own⟩ := linked client.2 _ holds
  have published : Published world controller client.2 :=
    ⟨own, quiescent.published controller, quiescent.sent _, quiescent.received controller _ own⟩
  intro conn registration member
  obtain ⟨key, near⟩ := linked conn registration member
  exact ⟨key, near, reachable.shows counted holds controls published near member
    (quiescent.received key conn near)⟩

theorem ReachableBy.settled (reachable : Reachable config world)
    (stuck : ∀ after, ¬ Exchange config world after) : world.Settled := by
  have quiescent := reachable.live.quiescent stuck
  refine ⟨quiescent, fun key conn linked => ?_, reachable.converged quiescent⟩
  obtain ⟨registration, member⟩ := reachable.live.welcomed reachable.attended stuck linked
  refine ⟨registration, member, fun counted => ?_⟩
  have follows := (reachable.coherent counted).1.follows key conn registration linked member
  rw [quiescent.received key conn linked] at follows
  exact follows.stands

/-- Some run of exchanges goes on until nothing is left to come. -/
theorem ReachableBy.exhausts {keys : Finset ℕ} (small : config.maxClients ≤ 9) {left : ℕ}
    (reachable : Reachable config world) (within : world.Within keys)
    (few : world.load keys ≤ left) :
    ∃ count after, Exchanges config count world after ∧ ∀ next, ¬ Exchange config after next := by
  induction left generalizing world with
  | zero =>
      refine ⟨0, world, .none world, fun next exchange => ?_⟩
      have less := World.load_exchange_lt reachable.proper small within exchange
      omega
  | succ left ih =>
      by_cases stuck : ∀ next, ¬ Exchange config world next
      · exact ⟨0, world, .none world, stuck⟩
      · obtain ⟨between, exchange⟩ := not_forall_not.mp stuck
        have less := World.load_exchange_lt reachable.proper small within exchange
        obtain ⟨count, after, rest, ended⟩ :=
          ih (reachable.exchange small exchange) (within.exchange exchange) (by omega)
        exact ⟨count + 1, after, .next exchange rest, ended⟩

end Reached

/-- Left to itself the system settles, where every message says what it means. -/
theorem ReachableBy.settles {config : RoomConfig} {world : World} (small : config.maxClients ≤ 9)
    (reachable : Reachable config world) :
    ∃ most, (∀ count after, Exchanges config count world after →
        count ≤ most ∧ ((∀ next, ¬ Exchange config after next) → after.Settled)) ∧
      ∃ count after, Exchanges config count world after ∧ after.Settled := by
  obtain ⟨keys, within⟩ := reachable.within
  refine ⟨world.load keys, fun count after exchanges => ⟨?_, fun stuck => ?_⟩, ?_⟩
  · have bound := exchanges.count_le reachable small within
    omega
  · exact (exchanges.reachable reachable small).settled stuck
  · obtain ⟨count, after, exchanges, stuck⟩ := reachable.exhausts small within le_rfl
    exact ⟨count, after, exchanges, (exchanges.reachable reachable small).settled stuck⟩

/-!
## Messages as the room reads them
-/

section Reading

variable {read : ClientMessage → JsValue} {config : RoomConfig} {world after : World}

/-- Whatever is sent in the exchanges to come, its digits stand for its numbers. -/
def World.StaysExact (read : ClientMessage → JsValue) (config : RoomConfig) (world : World) : Prop :=
  ∀ count after, ExchangesBy read config count world after → after.Exact read

theorem World.StaysExact.now (stays : world.StaysExact read config) : world.Exact read :=
  stays 0 world (.none world)

theorem World.StaysExact.next (stays : world.StaysExact read config)
    (exchange : ExchangeBy read config world after) : after.StaysExact read config :=
  fun count later rest => stays (count + 1) later (.next exchange rest)

end Reading

end DjApp.System
