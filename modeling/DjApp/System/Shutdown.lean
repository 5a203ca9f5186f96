import DjApp.Server.WatchRuns
import DjApp.System.Lifecycle

/-! The shutdown of the server: every socket is closed once, and none is heard again. -/

set_option autoImplicit false

namespace DjApp.System

open Library
open Server

section Watches

variable (config : TransportConfig) (fl : ℚ → ℚ)

/-- A socket whose frames are not taken any more. -/
def Ended (conn : ConnId) (transport : Transport) : Prop :=
  conn < transport.nextConn ∧ ∀ watch, transport.watch conn = some watch → watch.ejected = true

theorem carried_ejected {registered later : Bool} {before after : Option Watch} {closed : ℕ}
    (carried : Carried registered later before after closed)
    (ended : ∀ watch, before = some watch → watch.ejected = true) :
    ∀ watch, after = some watch → watch.ejected = true := by
  intro watch held
  cases carried with
  | absent => cases held
  | held earlier _ _ _ ejected =>
      cases held
      rw [ended earlier rfl] at ejected
      cases still : watch.ejected with
      | true => rfl
      | false =>
          rw [still] at ejected
          simp at ejected

theorem Ended.step {conn : ConnId} {transport : Transport} {done : List Action}
    (ended : Ended conn transport) (tracked : Tracked config none done transport)
    (input : TransportInput) : Ended conn (transport.step config fl input).1 := by
  obtain ⟨older, ejected⟩ := ended
  refine ⟨older.trans_le (nextConn_le transport input), ?_⟩
  intro watch held
  have passed := transport.passed config fl tracked.distinct input conn
  rw [held] at passed
  generalize closings conn (transport.step config fl input).2 = closed at passed
  cases passed with
  | joins now connection newest => exact absurd older (by rw [newest]; exact lt_irrefl _)
  | stays after closed carried =>
      refine carried_ejected carried ?_ watch rfl
      intro touched same
      obtain ⟨before, present, rfl⟩ := Option.map_eq_some_iff.mp same
      exact ejected before present

theorem Ended.silent {conn : ConnId} {transport : Transport} (ended : Ended conn transport)
    (input : TransportInput) {msg : JsValue} {draws : Draws} {outcome : Outcome} :
    .called (.message conn msg draws) outcome ∉ (transport.step config fl input).2 := by
  intro reached
  obtain ⟨⟨record, found, unejected⟩, _⟩ :=
    moved_heard (Transport.moved config fl transport input) reached
  have ejected := ended.2 record.watch (by rw [Transport.watch, found, Option.map_some])
  cases ejected.symm.trans unejected

theorem Ended.trace {conn : ConnId} {transport : Transport} {done : List Action}
    (ended : Ended conn transport) (tracked : Tracked config none done transport)
    (inputs : List TransportInput) :
    ∀ row ∈ Machine.trace (Transport.step config fl) transport inputs, ∀ msg draws outcome,
      .called (.message conn msg draws) outcome ∉ row.output := by
  induction inputs generalizing transport done with
  | nil => simp
  | cons input rest ih =>
      intro row member msg draws outcome
      rcases List.mem_cons.mp member with rfl | member
      · exact ended.silent config fl input
      · exact ih (ended.step config fl tracked input) (tracked.step fl input) row member msg draws
          outcome

/-- A farewell ejects the socket, and leaves the ejected ones so. -/
theorem forEach_bidFarewell_ejected (transport : Transport) (conns : List ConnId) :
    ∀ conn ∈ conns, ∀ watch,
      (transport.forEach Transport.bidFarewell conns).1.watch conn = some watch →
        watch.ejected = true := by
  induction conns generalizing transport with
  | nil => simp
  | cons own rest ih =>
      intro conn listed watch held
      rcases List.mem_cons.mp listed with rfl | later
      · have carried := CarriedAll.forEach (transport.bidFarewell conn).1
          (fun next other => CarriedAll.bidFarewell next other) rest conn
        refine carried_ejected carried ?_ watch held
        intro ejected present
        have closes := (Transport.watch_close (transport.releaseHelloWatch conn) conn
          CloseCode.goingAway).1
        rw [show (transport.bidFarewell conn).1 =
          ((transport.releaseHelloWatch conn).close conn CloseCode.goingAway).1 from rfl, closes,
          Function.update_self] at present
        obtain ⟨before, _, rfl⟩ := Option.map_eq_some_iff.mp present
        exact before.eject_ejected
      · exact ih (transport.bidFarewell own).1 conn later watch held

/-- A shutdown at any time closes every socket that is open then, each once in all, frees all
slots, and no message of theirs reaches the room from then on. -/
theorem shutdown_ends_all (earlier later : List TransportInput)
    (sockets : ConnId → Frame → SocketState) :
    (transportAfter config fl (earlier ++ [⟨.shutdown, sockets⟩])).preHelloCount = 0 ∧
      ∀ conn ∈ (transportAfter config fl earlier).records.map (·.1),
        closings conn ((transportTrace config fl
            (earlier ++ ⟨.shutdown, sockets⟩ :: later)).flatMap (·.output)) = 1 ∧
          ∀ row ∈ Machine.trace (Transport.step config fl)
              (transportAfter config fl (earlier ++ [⟨.shutdown, sockets⟩])) later,
            ∀ msg draws outcome, .called (.message conn msg draws) outcome ∉ row.output := by
  have before := Watched.run config fl earlier
  have watched := Watched.run config fl (earlier ++ [⟨.shutdown, sockets⟩])
  have whole := Tracked.run config fl (earlier ++ ⟨.shutdown, sockets⟩ :: later)
  have stopped : transportAfter config fl (earlier ++ [⟨.shutdown, sockets⟩]) =
      ((transportAfter config fl earlier).forEach Transport.bidFarewell
        ((transportAfter config fl earlier).records.map (·.1))).1 :=
    Machine.run_concat _ _ _ _
  have aside := Transport.aside_forEach Transport.aside_bidFarewell (transportAfter config fl earlier)
    ((transportAfter config fl earlier).records.map (·.1))
  have ejected := forEach_bidFarewell_ejected (transportAfter config fl earlier)
    ((transportAfter config fl earlier).records.map (·.1))
  rw [← stopped] at ejected
  have keys : (transportAfter config fl (earlier ++ [⟨.shutdown, sockets⟩])).records.map (·.1) =
      (transportAfter config fl earlier).records.map (·.1) := by
    rw [stopped]
    exact aside.keys
  have ended : ∀ conn record, (transportAfter config fl
      (earlier ++ [⟨.shutdown, sockets⟩])).records.lookup conn = some record →
        record.ejected = true := by
    intro conn record found
    have listed := @List.mem_map_of_mem _ _ _ _ Prod.fst (AssocList.mem_of_lookup found)
    rw [keys] at listed
    exact ejected conn listed record.watch (by rw [Transport.watch, found, Option.map_some])
  constructor
  · rw [watched.tracked.counted, Int.natCast_eq_zero, List.countP_eq_zero]
    intro entry member
    have found := AssocList.lookup_of_mem watched.tracked.distinct member
    have pending : entry.2.pendingHello = _ := (watched.of_lookup found).sound.pending
    rw [pending, show entry.2.watch.ejected = true from ended _ _ found]
    simp
  · intro conn listed
    rw [← keys] at listed
    obtain ⟨⟨own, record⟩, member, same⟩ := List.mem_map.mp listed
    obtain rfl : own = conn := same
    have found := AssocList.lookup_of_mem watched.tracked.distinct member
    have closed := (watched.of_lookup found).closed
    rw [show record.watch.ejected = true from ended _ _ found] at closed
    constructor
    · have once := whole.once own
      have split : transportTrace config fl (earlier ++ ⟨.shutdown, sockets⟩ :: later) =
          transportTrace config fl (earlier ++ [⟨.shutdown, sockets⟩]) ++
            Machine.trace (Transport.step config fl)
              (transportAfter config fl (earlier ++ [⟨.shutdown, sockets⟩])) later := by
        rw [← List.singleton_append, ← List.append_assoc]
        exact Machine.trace_append ..
      rw [split, List.flatMap_append, closings_append, closed] at once ⊢
      change 1 + _ = 1
      change 1 + _ ≤ 1 at once
      omega
    · refine Ended.trace config fl ⟨(watched.tracked.settled_lookup found).older, ?_⟩
        watched.tracked later
      intro watch held
      rw [Transport.watch, found, Option.map_some] at held
      obtain rfl := Option.some.inj held
      exact ended _ _ found

end Watches

end DjApp.System
