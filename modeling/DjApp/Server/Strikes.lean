import DjApp.Server.TransportRuns

/-! What a served frame does to the count of invalid messages of its connection, and what
leaves the count alone. -/

set_option autoImplicit false

namespace DjApp.Server

open Library

/-!
## Kinds of frames
-/

/-- What a frame is to the three-strike rule. -/
inductive FrameKind where
  | invalid
  | refused
  | accepted
  deriving DecidableEq

/-- Whether a member may send the message. A hello is only valid as the first one. -/
def wellFormed (msg : JsValue) : Bool :=
  isPlainObject msg &&
    match validateEnvelope msg with
    | .error _ | .ok .hello => false
    | .ok .delta => (validateDelta msg).toBool
    | .ok .claimControl | .ok .releaseControl | .ok .requestSnapshot => true

def kindOf (config : RoomConfig) (room : Room) (conn : ConnId) (draws : Draws) :
    Option JsValue → FrameKind
  | none => .invalid
  | some msg =>
      if !wellFormed msg then .invalid
      else if (room.step config (.message conn msg draws)).2.result.ok then .accepted
      else .refused

namespace FrameKind

/-- The count after a frame. -/
def tally (count : ℕ) : FrameKind → ℕ
  | invalid => count + 1
  | refused => count
  | accepted => 0

/-- The count after the frames of a connection. -/
def strikes (kinds : List FrameKind) : ℕ := kinds.foldl tally 0

end FrameKind

/-!
## The room's answer to each kind
-/

section Members

variable {config : RoomConfig} {room : Room} {conn : ConnId} {registration : Registration}

/-- An ill-formed message of a member is refused as such and changes nothing. -/
theorem handleMessage_of_illFormed (member : IsMember room conn registration) {msg : JsValue}
    (draws : Draws) (illFormed : wellFormed msg = false) :
    ∃ message, Brief message ∧
      handleMessage config room conn msg draws = refuse room conn .badMessage message := by
  have live := (isMember_eq_true_iff member.registered).mpr member
  have registered : (room.conns conn).isNone = false := by simp [member.registered]
  unfold wellFormed at illFormed
  unfold handleMessage
  cases object : isPlainObject msg with
  | false =>
      simp only [Bool.not_false, ↓reduceIte, registered, Bool.false_eq_true]
      exact ⟨_, brief_of_plain (by decide) (by decide), rfl⟩
  | true =>
      simp only [object, Bool.true_and] at illFormed
      simp only [Bool.not_true, Bool.false_eq_true, ↓reduceIte, registered]
      cases validated : validateEnvelope msg with
      | error reason => exact ⟨reason, brief_validateEnvelope validated, rfl⟩
      | ok kind =>
          simp only [validated] at illFormed
          cases kind with
          | hello => exact ⟨_, brief_of_plain (by decide) (by decide), rfl⟩
          | delta =>
              unfold handleDelta
              simp only [member.registered, live, Bool.not_true, Bool.false_eq_true, ↓reduceIte]
              cases checked : validateDelta msg with
              | error reason => exact ⟨reason, brief_validateDelta checked, rfl⟩
              | ok delta => simp [checked, Except.toBool] at illFormed
          | claimControl | releaseControl | requestSnapshot => simp at illFormed

theorem errorCode_of_wellFormed (member : IsMember room conn registration) {msg : JsValue}
    (draws : Draws) (formed : wellFormed msg = true) :
    (handleMessage config room conn msg draws).2.result.errorCode ≠ some .badMessage := by
  have live := (isMember_eq_true_iff member.registered).mpr member
  have registered : (room.conns conn).isNone = false := by simp [member.registered]
  unfold wellFormed at formed
  simp only [Bool.and_eq_true] at formed
  obtain ⟨object, formed⟩ := formed
  unfold handleMessage
  simp only [object, Bool.not_true, Bool.false_eq_true, ↓reduceIte, registered]
  cases validated : validateEnvelope msg with
  | error reason => simp [validated] at formed
  | ok kind =>
      simp only [validated] at formed
      cases kind with
      | hello => simp at formed
      | claimControl =>
          simp only [handleClaimControl, member.registered, live, Bool.not_true,
            Bool.false_eq_true, ↓reduceIte]
          split <;> simp [refuse]
      | releaseControl =>
          simp only [handleReleaseControl, member.registered, live, Bool.not_true,
            Bool.false_eq_true, ↓reduceIte]
          split <;> simp [refuse]
      | requestSnapshot => simp [handleRequestSnapshot]
      | delta =>
          simp only [handleDelta, member.registered, live, Bool.not_true, Bool.false_eq_true,
            ↓reduceIte]
          cases checked : validateDelta msg with
          | error reason => simp [checked, Except.toBool] at formed
          | ok delta =>
              dsimp only
              split <;> simp

/-- A message of a connection without an id is answered with a close or a welcome. -/
theorem result_of_unregistered (unregistered : room.conns conn = none) (msg : JsValue)
    (draws : Draws) :
    (handleMessage config room conn msg draws).2.result = { ok := true } ∨
      (handleMessage config room conn msg draws).2.result = { ok := false } := by
  have isNone : (room.conns conn).isNone = true := by simp [unregistered]
  unfold handleMessage
  simp only [isNone, ↓reduceIte]
  split
  · exact .inr rfl
  · split
    · unfold handleHello
      split
      · exact .inr rfl
      · split
        · exact .inr rfl
        · split
          · exact .inr rfl
          · exact .inl rfl
    · exact .inr rfl

end Members

namespace Transport

/-!
## Handlers that leave the count alone
-/

/-- What a handler leaves of the count of `conn` while the record is not ejected, and with
which codes it may close `conn`. -/
structure Steady (conn : ConnId) (allowed : ℕ → Prop) (transport : Transport) (ran : Ran) :
    Prop where
  kept : ∀ record, ran.1.records.lookup conn = some record → record.ejected = false →
    ∃ former, transport.records.lookup conn = some former ∧ former.ejected = false ∧
      record.consecutiveInvalid = former.consecutiveInvalid
  closed : ∀ code, .closeSocket conn code ∈ ran.2 → allowed code

namespace Steady

variable {conn : ConnId} {allowed : ℕ → Prop} {transport : Transport} {actions : List Action}
  {ran : Ran}

theorem nothing_closed : ∀ code, Action.closeSocket conn code ∈ ([] : List Action) → allowed code :=
  fun _ closed => absurd closed List.not_mem_nil

theorem stay (transport : Transport)
    (closed : ∀ code, .closeSocket conn code ∈ actions → allowed code) :
    Steady conn allowed transport (transport, actions) :=
  ⟨fun record found unejected => ⟨record, found, unejected, rfl⟩, closed⟩

theorem andThen {next : Transport → Ran} (first : Steady conn allowed transport ran)
    (second : Steady conn allowed ran.1 (next ran.1)) :
    Steady conn allowed transport (ran.andThen next) where
  kept record found unejected := by
    obtain ⟨middle, present, held, same⟩ := second.kept record found unejected
    obtain ⟨former, before, unclosed, agree⟩ := first.kept middle present held
    exact ⟨former, before, unclosed, same.trans agree⟩
  closed code member := by
    rcases List.mem_append.mp member with earlier | later
    · exact first.closed code earlier
    · exact second.closed code later

theorem after {middle : Transport} (first : Steady conn allowed transport (middle, []))
    (second : Steady conn allowed middle ran) : Steady conn allowed transport ran := by
  obtain ⟨kept, closed⟩ := second
  refine ⟨fun record found unejected => ?_, closed⟩
  obtain ⟨held, present, unclosed, same⟩ := kept record found unejected
  obtain ⟨former, before, free, agree⟩ := first.kept held present unclosed
  exact ⟨former, before, free, same.trans agree⟩

theorem update (transport : Transport) (target : ConnId)
    {change : ConnectionRecord → ConnectionRecord}
    (same : target = conn → ∀ record, (change record).ejected = record.ejected ∧
      (change record).consecutiveInvalid = record.consecutiveInvalid)
    (closed : ∀ code, .closeSocket conn code ∈ actions → allowed code) :
    Steady conn allowed transport (transport.update target change, actions) := by
  refine ⟨fun record found unejected => ?_, closed⟩
  simp only [Transport.update, AssocList.lookup_update] at found
  split at found
  · rename_i own
    obtain ⟨former, present, rfl⟩ := Option.map_eq_some_iff.mp found
    obtain ⟨ejected, counted⟩ := same (eq_of_beq own).symm former
    exact ⟨former, present, ejected ▸ unejected, counted⟩
  · exact ⟨record, found, unejected, rfl⟩

theorem releaseHelloWatch (transport : Transport) (target : ConnId)
    (closed : ∀ code, .closeSocket conn code ∈ actions → allowed code) :
    Steady conn allowed transport (transport.releaseHelloWatch target, actions) := by
  unfold Transport.releaseHelloWatch
  split
  · exact stay transport closed
  · obtain ⟨kept, _⟩ := @update conn allowed actions transport target
      ({ · with helloTimer := false, pendingHello := false }) (fun _ _ => ⟨rfl, rfl⟩) closed
    exact ⟨kept, closed⟩

theorem close (transport : Transport) (target : ConnId) {code : ℕ}
    (permitted : target = conn → allowed code) :
    Steady conn allowed transport (transport.close target code) := by
  cases found : transport.records.lookup target with
  | none =>
      rw [close_of_unknown found]
      exact stay transport nothing_closed
  | some record =>
      cases ejected : record.ejected with
      | true =>
          rw [close_of_ejected found ejected]
          exact stay transport nothing_closed
      | false =>
          rw [close_of_unejected found ejected]
          refine ⟨fun held present unejected => ?_, fun other closed => ?_⟩
          · simp only [Transport.update, AssocList.lookup_update] at present
            split at present
            · obtain ⟨_, _, rfl⟩ := Option.map_eq_some_iff.mp present
              cases unejected
            · exact ⟨held, present, unejected, rfl⟩
          · obtain ⟨rfl, rfl⟩ := Action.closeSocket.inj (List.mem_singleton.mp closed)
            exact permitted rfl

theorem send (transport : Transport) (target : ConnId)
    (sockets : ConnId → Frame → SocketState) (frame : Frame)
    (permitted : target = conn → allowed CloseCode.internalError) :
    Steady conn allowed transport (transport.send target sockets frame) := by
  unfold Transport.send
  split
  · exact stay transport nothing_closed
  · exact stay transport fun _ closed => by cases List.mem_singleton.mp closed
  all_goals
    split
    · exact close transport target permitted
    · split
      · exact stay transport fun _ closed => by cases List.mem_singleton.mp closed
      · exact stay transport nothing_closed

section Room

variable (sockets : ConnId → Frame → SocketState)
  (handshake : ∀ code ∈ handshakeCodes, allowed code)

include handshake

theorem performAll (transport : Transport) {effects : List Effect}
    (codes : ∀ target code, .close target code ∈ effects → code ∈ handshakeCodes) :
    Steady conn allowed transport (transport.performAll sockets effects) := by
  induction effects generalizing transport with
  | nil => exact stay transport nothing_closed
  | cons effect rest ih =>
      have later := fun next : Transport =>
        ih next fun target code closed => codes target code (List.mem_cons_of_mem _ closed)
      refine andThen ?_ (later _)
      cases effect with
      | send target frame =>
          exact send transport target sockets frame fun _ => handshake _ (by decide)
      | close target code =>
          exact close transport target fun _ => handshake _ (codes target code List.mem_cons_self)

theorem callRoom (transport : Transport) (config : TransportConfig) (call : Call)
    (thrown : Option Fault) :
    Steady conn allowed transport (transport.callRoom sockets config call thrown) := by
  have bounds : EffectBounds (transport.room.attempt config.room call thrown).2.effects := by
    unfold Room.attempt
    split
    · exact effectBounds_nil
    · exact effectBounds_step config.room transport.room call
    · exact effectBounds_step config.room transport.room call
  have performed : ∀ effect ∈
      (transport.room.attempt config.room call thrown).2.performed thrown,
      effect ∈ (transport.room.attempt config.room call thrown).2.effects := by
    unfold Outcome.performed
    split
    · exact fun _ => List.mem_of_mem_take
    · exact fun _ member => member
    · exact fun _ member => member
  unfold Transport.callRoom
  refine andThen ⟨fun record found unejected => ⟨record, found, unejected, rfl⟩, ?_⟩ ?_
  · intro code closed
    cases List.mem_singleton.mp closed
  · exact performAll sockets handshake _ fun target code closed =>
      bounds.handshake target code (performed _ closed)

end Room

theorem charge (transport : Transport) (target : ConnId)
    (sockets : ConnId → Frame → SocketState) (config : TransportConfig) (fl : ℚ → ℚ)
    (record : ConnectionRecord) (now : ℤ) (internal : allowed CloseCode.internalError)
    (ban : allowed CloseCode.rateLimitBan) :
    Steady conn allowed transport (transport.charge target sockets config fl record now) := by
  unfold Transport.charge
  refine andThen ?_ ?_
  · split
    · refine after ?_ (send _ target sockets _ fun _ => internal)
      exact update transport target (fun _ _ => ⟨rfl, rfl⟩) nothing_closed
    · exact update transport target (fun _ _ => ⟨rfl, rfl⟩) nothing_closed
  · cases (Server.charge fl config.rateLimit record.toRecord now).2.banned with
    | true => exact close _ target fun _ => ban
    | false => exact stay _ nothing_closed

theorem countInvalid (transport : Transport) {target : ConnId} (other : target ≠ conn) :
    Steady conn allowed transport (transport.countInvalid target) := by
  unfold Transport.countInvalid
  split
  · exact stay transport nothing_closed
  · dsimp only
    split
    · exact update transport target (fun same => absurd same other) nothing_closed
    · refine after ?_ (close _ target fun same => absurd same other)
      exact update transport target (fun same => absurd same other) nothing_closed

theorem judge (transport : Transport) {target : ConnId} (other : target ≠ conn)
    (result : HandleResult) : Steady conn allowed transport (transport.judge target result) := by
  unfold Transport.judge
  split
  · exact update transport target (fun same => absurd same other) nothing_closed
  · split
    · exact countInvalid transport other
    · exact stay transport nothing_closed

theorem onText (transport : Transport) {target : ConnId} (other : target ≠ conn)
    (sockets : ConnId → Frame → SocketState) (config : TransportConfig) (fl : ℚ → ℚ) (now : ℤ)
    (parsed : Option JsValue) (draws : Draws) (thrown : Option Fault)
    (handshake : ∀ code ∈ handshakeCodes, allowed code) (ban : allowed CloseCode.rateLimitBan) :
    Steady conn allowed transport
      (transport.onText target sockets config fl now parsed draws thrown) := by
  have internal : allowed CloseCode.internalError := handshake _ (by decide)
  unfold Transport.onText
  split
  · exact stay transport nothing_closed
  · rename_i record found
    split
    · exact stay transport nothing_closed
    · apply andThen (charge transport target sockets config fl record now internal ban)
      split
      · unfold Transport.serve
        split
        · unfold Transport.handleMalformed
          split
          · exact close _ target fun same => absurd same other
          · exact andThen (send _ target sockets _ fun _ => internal) (countInvalid _ other)
        · unfold Transport.handleParsed
          split
          · exact andThen (callRoom sockets handshake _ config _ _)
              (close _ target fun same => absurd same other)
          · apply andThen (callRoom sockets handshake _ config _ _)
            refine after ?_ (judge _ other _)
            split
            · exact releaseHelloWatch _ target nothing_closed
            · exact stay _ nothing_closed
      · exact stay _ nothing_closed

section Events

variable (transport : Transport) (target : ConnId)

theorem onBinary : Steady conn (fun _ => True) transport (transport.onBinary target) := by
  unfold Transport.onBinary
  split
  · exact stay transport fun _ _ => trivial
  · split
    · exact stay transport fun _ _ => trivial
    · exact close transport target fun _ => trivial

theorem onControl (sockets : ConnId → Frame → SocketState) (config : TransportConfig)
    (fl : ℚ → ℚ) (now : ℤ) (alive : Bool) :
    Steady conn (fun _ => True) transport
      (transport.onControl target sockets config fl now alive) := by
  unfold Transport.onControl
  split
  · exact stay transport fun _ _ => trivial
  · split
    · exact stay transport fun _ _ => trivial
    · refine after ?_ (charge _ target sockets config fl _ now trivial trivial)
      exact update transport target (fun _ _ => ⟨rfl, rfl⟩) fun _ _ => trivial

theorem onHelloTimeout : Steady conn (fun _ => True) transport (transport.onHelloTimeout target) := by
  have fired : Steady conn (fun _ => True) transport
      (transport.update target ({ · with helloTimer := false }), []) :=
    update transport target (fun _ _ => ⟨rfl, rfl⟩) fun _ _ => trivial
  unfold Transport.onHelloTimeout
  split
  · exact stay transport fun _ _ => trivial
  · split
    · exact stay transport fun _ _ => trivial
    · dsimp only
      split
      · exact fired
      · exact fired.after (close _ target fun _ => trivial)

theorem onTerminateTimeout :
    Steady conn (fun _ => True) transport (transport.onTerminateTimeout target) := by
  unfold Transport.onTerminateTimeout
  split
  · exact stay transport fun _ _ => trivial
  · exact stay transport fun _ _ => trivial

theorem removed (transport : Transport) (target : ConnId) :
    Steady conn (fun _ => True) transport
      ({ transport with records := transport.records.filter (·.1 != target) }, []) := by
  refine ⟨fun record found unejected => ⟨record, ?_, unejected, rfl⟩, fun _ _ => trivial⟩
  have other : conn ≠ target := by
    rintro rfl
    have member := List.mem_filter.mp (AssocList.mem_of_lookup found)
    simp at member
  rw [← AssocList.lookup_filter_ne other]
  exact found

theorem onClose (sockets : ConnId → Frame → SocketState) (config : TransportConfig) :
    Steady conn (fun _ => True) transport (transport.onClose target sockets config) := by
  unfold Transport.onClose
  split
  · exact stay transport fun _ _ => trivial
  · refine after (releaseHelloWatch transport target fun _ _ => trivial) ?_
    apply after (removed _ target)
    exact callRoom sockets (fun _ _ => trivial) _ config _ none

theorem beat : Steady conn (fun _ => True) transport (transport.beat target) := by
  unfold Transport.beat
  split
  · exact stay transport fun _ _ => trivial
  · split
    · exact update transport target (fun _ _ => ⟨rfl, rfl⟩) fun _ _ => trivial
    · exact stay transport fun _ _ => trivial

theorem bidFarewell : Steady conn (fun _ => True) transport (transport.bidFarewell target) :=
  (releaseHelloWatch transport target fun _ _ => trivial).after (close _ target fun _ => trivial)

theorem forEach {visit : Transport → ConnId → Ran}
    (steady : ∀ transport target, Steady conn (fun _ => True) transport (visit transport target))
    (transport : Transport) (targets : List ConnId) :
    Steady conn (fun _ => True) transport (transport.forEach visit targets) := by
  induction targets generalizing transport with
  | nil => exact stay transport fun _ _ => trivial
  | cons target rest ih => exact (steady transport target).andThen (ih _)

end Events

end Steady

/-!
## Frames that are judged
-/

/-- What a served frame of a member leaves of a count, and when it closes the connection. -/
structure Judged (conn : ConnId) (kind : FrameKind) (count : ℕ) (ran : Ran) : Prop where
  kept : ∀ record, ran.1.records.lookup conn = some record → record.ejected = false →
    record.consecutiveInvalid = kind.tally count ∧
      (kind = .invalid → kind.tally count < maxConsecutiveInvalid)
  struck : .closeSocket conn CloseCode.policyViolation ∈ ran.2 ↔
    kind = .invalid ∧ maxConsecutiveInvalid ≤ count + 1

variable {transport : Transport} {conn : ConnId} {record : ConnectionRecord}

theorem Judged.after {kind : FrameKind} {count : ℕ} {ran : Ran} {next : Transport → Ran}
    (quiet : .closeSocket conn CloseCode.policyViolation ∉ ran.2)
    (judged : Judged conn kind count (next ran.1)) : Judged conn kind count (ran.andThen next) := by
  refine ⟨judged.kept, ?_⟩
  rw [← judged.struck, Ran.andThen, List.mem_append]
  exact or_iff_right quiet

theorem judged_countInvalid (found : transport.records.lookup conn = some record)
    (unejected : record.ejected = false) :
    Judged conn .invalid record.consecutiveInvalid (transport.countInvalid conn) := by
  have counted : (transport.update conn
      ({ · with consecutiveInvalid := record.consecutiveInvalid + 1 })).records.lookup conn =
        some { record with consecutiveInvalid := record.consecutiveInvalid + 1 } := by
    rw [update, AssocList.lookup_update, found]
    simp
  unfold countInvalid
  simp only [found]
  split
  · rename_i few
    refine ⟨fun held present _ => ?_, ?_⟩
    · obtain rfl := Option.some.inj (present.symm.trans counted)
      exact ⟨rfl, fun _ => few⟩
    · simp only [List.not_mem_nil, true_and, false_iff, not_le]
      exact few
  · rename_i many
    rw [close_of_unejected counted unejected]
    refine ⟨fun held present open_ => ?_, ?_⟩
    · simp only [update, AssocList.lookup_update] at present
      rw [if_pos (beq_self_eq_true conn)] at present
      obtain ⟨_, _, rfl⟩ := Option.map_eq_some_iff.mp present
      cases open_
    · simp only [List.mem_singleton, true_and, true_iff]
      exact not_lt.mp many

theorem send_error (transport : Transport) (conn : ConnId)
    (sockets : ConnId → Frame → SocketState) (code : ErrorCode) {message : String}
    (brief : Brief message) :
    (transport.send conn sockets (.error code message)).1 = transport ∧
      ∀ target closeCode, .closeSocket target closeCode ∉
        (transport.send conn sockets (.error code message)).2 := by
  have fits : ¬ maxFrameBytes < (Frame.error code message).bytes := by
    have small := bytes_error_le code brief
    unfold maxFrameBytes
    omega
  unfold send
  cases sockets conn (.error code message) <;> simp [fits]

theorem performAll_singleton (transport : Transport) (sockets : ConnId → Frame → SocketState)
    (effect : Effect) :
    transport.performAll sockets [effect] = transport.perform sockets effect := by
  simp [performAll, Ran.andThen]

theorem judged_handleMalformed (sockets : ConnId → Frame → SocketState)
    (registered : transport.room.conns conn ≠ none)
    (found : transport.records.lookup conn = some record) (unejected : record.ejected = false) :
    Judged conn .invalid record.consecutiveInvalid (transport.handleMalformed conn sockets) := by
  have isSome : (transport.room.conns conn).isNone = false := by
    simpa [Option.isNone_eq_false_iff, Option.isSome_iff_ne_none] using registered
  obtain ⟨unchanged, quiet⟩ := @send_error transport conn sockets .badMessage
    "malformed json" (brief_of_plain (by decide) (by decide))
  unfold handleMalformed
  simp only [isSome, Bool.false_eq_true, ↓reduceIte]
  apply Judged.after (quiet conn _)
  rw [unchanged]
  exact judged_countInvalid found unejected

theorem lookup_releaseHelloWatch (found : transport.records.lookup conn = some record) :
    (transport.releaseHelloWatch conn).records.lookup conn =
      some { record with helloTimer := false, pendingHello := false } := by
  rw [releaseHelloWatch_of_known found]
  simp only [update, AssocList.lookup_update, found]
  simp

/-- A well-formed message touches the count only if it is accepted. -/
theorem judged_judge {result : HandleResult} (former : ConnectionRecord)
    (formed : result.errorCode ≠ some .badMessage)
    (kept : ∀ record, transport.records.lookup conn = some record → record.ejected = false →
      record.consecutiveInvalid = former.consecutiveInvalid) :
    Judged conn (if result.ok then .accepted else .refused) former.consecutiveInvalid
      (transport.judge conn result) := by
  unfold judge
  cases ok : result.ok with
  | true =>
      simp only [↓reduceIte]
      refine ⟨fun record found unejected => ?_, by simp⟩
      simp only [update, AssocList.lookup_update] at found
      rw [if_pos (beq_self_eq_true conn)] at found
      obtain ⟨_, _, rfl⟩ := Option.map_eq_some_iff.mp found
      exact ⟨rfl, fun contra => by cases contra⟩
  | false =>
      simp only [Bool.false_eq_true, ↓reduceIte, if_neg formed]
      exact ⟨fun record found unejected =>
        ⟨kept record found unejected, fun contra => by cases contra⟩, by simp⟩

theorem judged_handleParsed (config : TransportConfig) (sockets : ConnId → Frame → SocketState)
    {registration : Registration} (member : IsMember transport.room conn registration)
    (found : transport.records.lookup conn = some record) (unejected : record.ejected = false)
    (msg : JsValue) (draws : Draws) :
    Judged conn (kindOf config.room transport.room conn draws (some msg))
      record.consecutiveInvalid (transport.handleParsed conn sockets config msg draws none) := by
  have transition := step_transition config.room transport.room (.message conn msg draws)
  unfold handleParsed
  dsimp only
  cases formed : wellFormed msg with
  | false =>
      obtain ⟨message, brief, answer⟩ := @handleMessage_of_illFormed config.room _ _ _ member msg
        draws formed
      obtain ⟨unchanged, quiet⟩ := send_error transport conn sockets .badMessage brief
      have called : transport.callRoom sockets config (.message conn msg draws) none =
          (transport, .called (.message conn msg draws)
            (refuse transport.room conn .badMessage message).2 ::
              (transport.send conn sockets (.error .badMessage message)).2) := by
        have performed : transport.performAll sockets
            [.send conn (.error .badMessage message)] =
              (transport, (transport.send conn sockets (.error .badMessage message)).2) := by
          rw [performAll_singleton]
          exact Prod.ext unchanged rfl
        unfold callRoom Room.attempt Room.step Outcome.performed
        simp only [answer, refuse, Ran.andThen]
        rw [performed]
        rfl
      rw [called]
      refine Judged.after ?_ ?_
      · intro closed
        rcases List.mem_cons.mp closed with same | sent
        · cases same
        · exact quiet conn _ sent
      · have registered : (transport.room.conns conn).isSome = true := by simp [member.registered]
        simp only [registered, ↓reduceIte, Room.step, answer, kindOf, formed, Bool.not_false]
        have released := lookup_releaseHelloWatch found
        have strike := judged_countInvalid released unejected
        exact strike
  | true =>
      have result := @errorCode_of_wellFormed config.room _ _ _ member msg draws formed
      have steady : Steady conn (· ≠ CloseCode.policyViolation) transport
          (transport.callRoom sockets config (.message conn msg draws) none) :=
        Steady.callRoom sockets (by decide) transport config _ none
      have watched : ∀ next : Transport, Steady conn (· ≠ CloseCode.policyViolation) next
          (if (next.room.conns conn).isSome then next.releaseHelloWatch conn else next, []) := by
        intro next
        split
        · exact Steady.releaseHelloWatch next conn Steady.nothing_closed
        · exact Steady.stay next Steady.nothing_closed
      apply Judged.after (fun closed => steady.closed _ closed rfl)
      simp only [kindOf, formed, Bool.not_true, Bool.false_eq_true, ↓reduceIte]
      apply judged_judge record result
      intro held present unclosed
      obtain ⟨middle, between, free, same⟩ := (watched _).kept held present unclosed
      obtain ⟨former, before, _, agree⟩ := steady.kept middle between free
      obtain rfl := Option.some.inj (before.symm.trans found)
      exact same.trans agree

/-- A frame that is served, the charge behind it. -/
theorem onText_of_served (config : TransportConfig) (sockets : ConnId → Frame → SocketState)
    (fl : ℚ → ℚ) (now : ℤ) (parsed : Option JsValue) (draws : Draws) (thrown : Option Fault)
    (found : transport.records.lookup conn = some record) (unejected : record.ejected = false)
    (served : (Server.charge fl config.rateLimit record.toRecord now).2.served = true) :
    ∃ charged : Transport, ∃ paid : ConnectionRecord,
      charged.room = transport.room ∧ charged.records.lookup conn = some paid ∧
      paid.ejected = false ∧ paid.consecutiveInvalid = record.consecutiveInvalid ∧
      transport.onText conn sockets config fl now parsed draws thrown =
        charged.serve conn sockets config parsed draws thrown := by
  obtain ⟨change, same, charged⟩ := charge_of_served config transport conn sockets fl served
  refine ⟨transport.update conn change, change record, rfl, ?_, ?_, (same record).2, ?_⟩
  · rw [update, AssocList.lookup_update, found]
    simp
  · rw [(same record).1, unejected]
  · simp only [onText, found, unejected, Bool.false_eq_true, ↓reduceIte, charged, Ran.andThen,
      served, List.nil_append]

theorem judged_onText (config : TransportConfig) (sockets : ConnId → Frame → SocketState)
    (fl : ℚ → ℚ) (now : ℤ) {registration : Registration}
    (member : IsMember transport.room conn registration)
    (found : transport.records.lookup conn = some record) (unejected : record.ejected = false)
    (served : (Server.charge fl config.rateLimit record.toRecord now).2.served = true)
    (parsed : Option JsValue) (draws : Draws) {thrown : Option Fault}
    (answered : parsed = none ∨ thrown = none) :
    Judged conn (kindOf config.room transport.room conn draws parsed) record.consecutiveInvalid
      (transport.onText conn sockets config fl now parsed draws thrown) := by
  obtain ⟨charged, paid, room, present, free, same, ran⟩ :=
    onText_of_served config sockets fl now parsed draws thrown found unejected served
  rw [ran, ← room, ← same]
  rw [← room] at member
  cases parsed with
  | none =>
      have registered : charged.room.conns conn ≠ none := by simp [member.registered]
      exact judged_handleMalformed sockets registered present free
  | some msg =>
      obtain rfl : thrown = none := answered.resolve_left (by simp)
      exact judged_handleParsed config sockets member present free msg draws

/-!
## Frames that are not
-/

/-- The counts that a frame may leave which the rule does not speak of: as they were, or
none when the connection has just joined. -/
structure Unjudged (conn : ConnId) (transport : Transport) (ran : Ran) : Prop where
  kept : ∀ record, ran.1.records.lookup conn = some record → record.ejected = false →
    ∃ former, transport.records.lookup conn = some former ∧ former.ejected = false ∧
      (record.consecutiveInvalid = former.consecutiveInvalid ∨
        transport.room.conns conn = none ∧ record.consecutiveInvalid = 0)
  unstruck : .closeSocket conn CloseCode.policyViolation ∉ ran.2

theorem Steady.unjudged {ran : Ran}
    (steady : Steady conn (· ≠ CloseCode.policyViolation) transport ran) :
    Unjudged conn transport ran := by
  refine ⟨fun record found unejected => ?_, fun closed => steady.closed _ closed rfl⟩
  obtain ⟨former, before, free, same⟩ := steady.kept record found unejected
  exact ⟨former, before, free, .inl same⟩

theorem unjudged_hello (config : TransportConfig) (sockets : ConnId → Frame → SocketState)
    (unregistered : transport.room.conns conn = none) (msg : JsValue) (draws : Draws) :
    Unjudged conn transport (transport.handleParsed conn sockets config msg draws none) := by
  have steady : Steady conn (· ≠ CloseCode.policyViolation) transport
      (transport.callRoom sockets config (.message conn msg draws) none) :=
    Steady.callRoom sockets (by decide) transport config _ none
  unfold handleParsed
  dsimp only
  have watched : Steady conn (· ≠ CloseCode.policyViolation) transport
      (Ran.andThen (transport.callRoom sockets config (.message conn msg draws) none) fun next =>
        (if (next.room.conns conn).isSome then next.releaseHelloWatch conn else next, [])) := by
    apply Steady.andThen steady
    split
    · exact Steady.releaseHelloWatch _ conn Steady.nothing_closed
    · exact Steady.stay _ Steady.nothing_closed
  rcases @result_of_unregistered config.room _ _ unregistered msg draws with joined | closed
  · simp only [Room.step, joined, judge, ↓reduceIte]
    refine ⟨fun record found unejected => ?_, fun struck => watched.closed _ struck rfl⟩
    simp only [Ran.andThen, update, AssocList.lookup_update] at found
    rw [if_pos (beq_self_eq_true conn)] at found
    obtain ⟨middle, present, rfl⟩ := Option.map_eq_some_iff.mp found
    obtain ⟨former, before, free, _⟩ := watched.kept middle present unejected
    exact ⟨former, before, free, .inr ⟨unregistered, rfl⟩⟩
  · simp only [Room.step, closed, judge, Bool.false_eq_true, ↓reduceIte, reduceCtorEq]
    exact watched.unjudged

theorem unjudged_serve (config : TransportConfig) (sockets : ConnId → Frame → SocketState)
    (parsed : Option JsValue) (draws : Draws) (thrown : Option Fault)
    (unjudged : transport.room.conns conn = none ∨ parsed ≠ none ∧ thrown ≠ none) :
    Unjudged conn transport (transport.serve conn sockets config parsed draws thrown) := by
  cases parsed with
  | none =>
      have unregistered := unjudged.resolve_right fun both => both.1 rfl
      simp only [serve, handleMalformed, unregistered, Option.isNone_none, ↓reduceIte]
      exact (Steady.close transport conn fun _ => by decide).unjudged
  | some msg =>
      cases thrown with
      | none =>
          have unregistered := unjudged.resolve_right fun both => both.2 rfl
          exact unjudged_hello config sockets unregistered msg draws
      | some fault =>
          have called : Steady conn (· ≠ CloseCode.policyViolation) transport
              (transport.callRoom sockets config (.message conn msg draws) (some fault)) :=
            Steady.callRoom sockets (by decide) transport config _ _
          unfold serve handleParsed
          refine Steady.unjudged (Steady.andThen called ?_)
          exact Steady.close _ conn fun _ => by decide

theorem unjudged_onText (config : TransportConfig) (sockets : ConnId → Frame → SocketState)
    (fl : ℚ → ℚ) (now : ℤ) (parsed : Option JsValue) (draws : Draws) (thrown : Option Fault)
    (unjudged : ∀ record, transport.records.lookup conn = some record → record.ejected = false →
      (Server.charge fl config.rateLimit record.toRecord now).2.served = true →
        transport.room.conns conn = none ∨ parsed ≠ none ∧ thrown ≠ none) :
    Unjudged conn transport
      (transport.onText conn sockets config fl now parsed draws thrown) := by
  have stayed : Unjudged conn transport (transport, []) :=
    (Steady.stay transport Steady.nothing_closed).unjudged
  cases found : transport.records.lookup conn with
  | none =>
      simp only [onText, found]
      exact stayed
  | some record =>
      cases ejected : record.ejected with
      | true =>
          simp only [onText, found, ejected, ↓reduceIte]
          exact stayed
      | false =>
          cases served : (Server.charge fl config.rateLimit record.toRecord now).2.served with
          | false =>
              simp only [onText, found, ejected, served, Bool.false_eq_true, ↓reduceIte]
              refine Steady.unjudged (Steady.andThen ?_ ?_)
              · exact Steady.charge transport conn sockets config fl record now (by decide) (by decide)
              · exact Steady.stay _ Steady.nothing_closed
          | true =>
              obtain ⟨charged, paid, room, present, free, same, ran⟩ :=
                onText_of_served config sockets fl now parsed draws thrown found ejected served
              have whole : Unjudged conn charged
                  (charged.serve conn sockets config parsed draws thrown) := by
                apply unjudged_serve config sockets parsed draws thrown
                rw [room]
                exact unjudged record found ejected served
              rw [ran]
              refine ⟨fun held after unclosed => ?_, whole.unstruck⟩
              obtain ⟨former, before, _, agree⟩ := whole.kept held after unclosed
              obtain rfl := Option.some.inj (before.symm.trans present)
              exact ⟨record, found, ejected, by rw [← same, ← room]; exact agree⟩

end Transport

end DjApp.Server
