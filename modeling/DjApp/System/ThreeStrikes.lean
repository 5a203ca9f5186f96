import DjApp.Server.Strikes
import DjApp.System.Proper

/-! The three-strike rule over whole runs of the transport. -/

set_option autoImplicit false

namespace DjApp.System

open Library
open Server

/-!
## Counts of strikes
-/

section Kinds

open FrameKind

variable {kinds first second : List FrameKind}

theorem strikes_concat (kinds : List FrameKind) (kind : FrameKind) :
    strikes (kinds ++ [kind]) = kind.tally (strikes kinds) := by
  simp [strikes]

theorem strikes_append_refused (kinds : List FrameKind) {between : List FrameKind}
    (refused : ∀ kind ∈ between, kind = .refused) : strikes (kinds ++ between) = strikes kinds := by
  induction between using List.reverseRecOn with
  | nil => simp
  | append_singleton between kind ih =>
      obtain rfl : kind = .refused := refused kind (by simp)
      rw [← List.append_assoc, strikes_concat]
      exact ih fun kind member => refused kind (by simp [member])

/-- The last frame that counts, if any does. -/
theorem strikes_eq_succ {count : ℕ} (counted : strikes kinds = count + 1) :
    ∃ earlier between, kinds = earlier ++ .invalid :: between ∧ strikes earlier = count ∧
      ∀ kind ∈ between, kind = .refused := by
  induction kinds using List.reverseRecOn with
  | nil => cases counted
  | append_singleton kinds kind ih =>
      rw [strikes_concat] at counted
      cases kind with
      | invalid => exact ⟨kinds, [], rfl, Nat.succ.inj counted, by simp⟩
      | refused =>
          obtain ⟨earlier, between, rfl, same, refused⟩ := ih counted
          refine ⟨earlier, between ++ [.refused], by simp, same, fun kind member => ?_⟩
          rcases List.mem_append.mp member with old | new
          · exact refused kind old
          · exact List.mem_singleton.mp new
      | accepted => cases counted

def threeInvalid : List FrameKind := [.invalid, .invalid, .invalid]

/-- Three invalid frames with nothing but refused ones between them, and at least one. -/
def Interrupted (kinds : List FrameKind) : Prop :=
  ∃ earlier first second later,
    kinds = earlier ++ .invalid :: first ++ .invalid :: second ++ .invalid :: later ∧
      (∀ kind ∈ first ++ second, kind = .refused) ∧ first ++ second ≠ []

theorem strikes_three (earlier : List FrameKind) :
    strikes (earlier ++ threeInvalid) = strikes earlier + 3 := by
  simp [strikes, threeInvalid, tally]

theorem strikes_two (earlier : List FrameKind)
    (refused : ∀ kind ∈ first ++ second, kind = .refused) :
    strikes (earlier ++ .invalid :: first ++ .invalid :: second) = strikes earlier + 2 := by
  have refusedFirst : ∀ kind ∈ first, kind = .refused := fun kind member =>
    refused kind (List.mem_append_left _ member)
  have refusedSecond : ∀ kind ∈ second, kind = .refused := fun kind member =>
    refused kind (List.mem_append_right _ member)
  rw [List.append_cons _ .invalid second, strikes_append_refused _ refusedSecond, strikes_concat,
    List.append_cons _ .invalid first, strikes_append_refused _ refusedFirst, strikes_concat]
  rfl

/-- Refused frames at the end are not invalid ones. -/
theorem eq_nil_of_refused {front before between : List FrameKind}
    (refused : ∀ kind ∈ between, kind = .refused)
    (same : front ++ [.invalid] = before ++ .invalid :: between) :
    between = [] ∧ front = before := by
  induction between using List.reverseRecOn with
  | nil => exact ⟨rfl, (List.append_inj' same rfl).1⟩
  | append_singleton between kind _ =>
      rw [← List.cons_append, ← List.append_assoc] at same
      obtain ⟨_, last⟩ := List.append_inj' same rfl
      have wrong : FrameKind.invalid = .refused :=
        (List.cons.inj last).1.trans (refused kind (by simp))
      cases wrong

theorem adjacent_of_suffix {earlier : List FrameKind}
    (refused : ∀ kind ∈ first ++ second, kind = .refused)
    (suffix : threeInvalid <:+ earlier ++ .invalid :: first ++ .invalid :: second ++ [.invalid]) :
    first ++ second = [] := by
  obtain ⟨front, same⟩ := suffix
  have split : (front ++ [.invalid, .invalid]) ++ [FrameKind.invalid] =
      (earlier ++ .invalid :: first ++ .invalid :: second) ++ [.invalid] := by
    rw [← same]
    simp [threeInvalid]
  obtain ⟨two, _⟩ := List.append_inj' split rfl
  have last : (front ++ [.invalid]) ++ [FrameKind.invalid] =
      (earlier ++ .invalid :: first) ++ .invalid :: second := by
    rw [← two]
    simp
  obtain ⟨rfl, one⟩ := eq_nil_of_refused
    (fun kind member => refused kind (List.mem_append_right _ member)) last
  obtain ⟨rfl, _⟩ := eq_nil_of_refused
    (fun kind member => refused kind (List.mem_append_left _ member)) one
  rfl

end Kinds

/-!
## Served frames of one connection
-/

/-- What a row is to the rule for `conn`: a frame served to it while it is a member, that
does not make the room throw. -/
def servedKind (config : TransportConfig) (fl : ℚ → ℚ) (conn : ConnId) (row : TransportEntry) :
    Option FrameKind :=
  match row.input.event with
  | .text sender now parsed draws thrown =>
      match row.before.records.lookup conn with
      | none => none
      | some record =>
          if sender = conn ∧ row.before.room.isMember conn ∧ record.ejected = false ∧
              (Server.charge fl config.rateLimit record.toRecord now).2.served ∧
              (parsed.isNone ∨ thrown.isNone) then
            some (kindOf config.room row.before.room conn draws parsed)
          else none
  | _ => none

def servedKinds (config : TransportConfig) (fl : ℚ → ℚ) (conn : ConnId)
    (rows : List TransportEntry) : List FrameKind :=
  rows.filterMap (servedKind config fl conn)

theorem servedKinds_concat (config : TransportConfig) (fl : ℚ → ℚ) (conn : ConnId)
    (rows : List TransportEntry) (row : TransportEntry) :
    servedKinds config fl conn (rows ++ [row]) =
      servedKinds config fl conn rows ++ (servedKind config fl conn row).toList := by
  rw [servedKinds, List.filterMap_append, ← servedKinds]
  cases kind : servedKind config fl conn row <;> simp [kind]

/-- A text frame of `conn` after which it is closed with 1008. -/
def ClosesForInvalid (conn : ConnId) (row : TransportEntry) : Prop :=
  (∃ now parsed draws thrown, row.input.event = .text conn now parsed draws thrown) ∧
    .closeSocket conn CloseCode.policyViolation ∈ row.output

/-- A member is closed for invalid messages at the first frame that is the third of three
consecutive invalid ones, and at no other frame. -/
def ThreeStrikes (config : TransportConfig) (fl : ℚ → ℚ) (conn : ConnId)
    (rows : List TransportEntry) : Prop :=
  ∀ earlier row later, rows = earlier ++ row :: later →
    (ClosesForInvalid conn row ↔
      threeInvalid <:+ servedKinds config fl conn (earlier ++ [row]) ∧
        ¬ threeInvalid <:+: servedKinds config fl conn earlier)

/-!
## Steps of the transport
-/

section Steps

variable {config : TransportConfig} {fl : ℚ → ℚ} {transport : Transport} {conn : ConnId}
  {kinds : List FrameKind} {done : List Action}

/-- A connection with an id is in the room until its socket closes. -/
def Enrolled (transport : Transport) : Prop :=
  ∀ conn ∈ transport.records.map (·.1), ∀ registration,
    transport.room.conns conn = some registration → IsMember transport.room conn registration

theorem Enrolled.moved {event : TransportEvent} {ran : Ran} (enrolled : Enrolled transport)
    (tracked : Tracked config none done transport)
    (moved : Transport.Moved config transport event ran) : Enrolled ran.1 := by
  cases moved with
  | aside aside =>
      intro conn listed registration registered
      rw [aside.keys] at listed
      rw [aside.room] at registered ⊢
      exact enrolled conn listed registration registered
  | connection silent room nextConn keys =>
      intro conn listed registration registered
      rw [keys, List.mem_append, List.mem_singleton] at listed
      rw [room] at registered ⊢
      rcases listed with earlier | rfl
      · exact enrolled conn earlier registration registered
      · rw [(tracked.unborn _ le_rfl).1] at registered
        cases registered
  | message caller msg draws record handled found unejected transition called =>
      obtain ⟨rest, _, aside⟩ := called.shape
      intro conn listed registration registered
      rw [show ran.1.records.map (·.1) = _ from aside.keys] at listed
      rw [show ran.1.room = handled.1 from aside.room] at registered ⊢
      cases former : transport.room.conns conn with
      | none =>
          obtain ⟨same, id, name, rfl, fresh⟩ := joined transition former (by simp [registered])
          obtain rfl : caller = conn := same
          have valid := transition.valid tracked.roomValid
          obtain rfl : ⟨id, name⟩ = registration := by
            simpa [welcome, Room.register] using registered
          exact isMember_register valid
      | some held =>
          have member := isMember_message transition (enrolled conn listed held former)
          obtain rfl := Option.some.inj (member.registered.symm.trans registered)
          exact member
  | disconnect leaving record closed found called =>
      obtain ⟨rest, _, aside⟩ := called.shape
      have transition := step_transition config.room transport.room (.disconnect leaving)
      intro conn listed registration registered
      rw [show ran.1.records.map (·.1) = _ from aside.keys] at listed
      rw [show ran.1.room = _ from aside.room] at registered ⊢
      obtain ⟨entry, member, rfl⟩ := List.mem_map.mp listed
      have other : entry.1 ≠ leaving := by
        have kept := (List.mem_filter.mp member).2
        simpa using kept
      have former : transport.room.conns entry.1 = some registration := by
        rw [← transition.conns_of_disconnect]
        exact registered
      have earlier : entry.1 ∈ transport.records.map (·.1) :=
        List.mem_map_of_mem (List.mem_of_mem_filter member)
      exact isMember_disconnect other transition (enrolled _ earlier registration former)

theorem enrolled_after (config : TransportConfig) (fl : ℚ → ℚ) (inputs : List TransportInput) :
    Enrolled (transportAfter config fl inputs) := by
  induction inputs using List.reverseRecOn with
  | nil => exact fun _ listed => by cases listed
  | append_singleton inputs input ih =>
      rw [transportAfter, Machine.run_concat]
      exact ih.moved (Tracked.run config fl inputs) (Transport.moved config fl _ input)

theorem registered_moved {event : TransportEvent} {ran : Ran}
    (moved : Transport.Moved config transport event ran)
    (registered : transport.room.conns conn ≠ none) : ran.1.room.conns conn ≠ none := by
  have kept : ∀ {call : Call} {handled : Handled},
      Transition config.room transport.room call handled → handled.1.conns conn ≠ none := by
    intro call handled transition
    cases transition with
    | idle | claim | release | delta | leave => exact registered
    | join caller msg draws id name =>
        by_cases own : conn = caller
        · simp [welcome, Room.register, own]
        · simpa [welcome, Room.register, Function.update_of_ne own] using registered
  cases moved with
  | aside aside => exact aside.room ▸ registered
  | connection silent room => exact room ▸ registered
  | message caller msg draws record handled found unejected transition called =>
      obtain ⟨rest, _, aside⟩ := called.shape
      rw [show ran.1.room = handled.1 from aside.room]
      exact kept transition
  | disconnect leaving record closed found called =>
      obtain ⟨rest, _, aside⟩ := called.shape
      rw [show ran.1.room = _ from aside.room]
      exact kept (step_transition config.room transport.room (.disconnect leaving))

/-- The count of a connection's record is that of the frames served to it. -/
structure StrikeCount (conn : ConnId) (kinds : List FrameKind) (transport : Transport) : Prop where
  counted : ∀ record, transport.records.lookup conn = some record → record.ejected = false →
    record.consecutiveInvalid = FrameKind.strikes kinds ∧
      FrameKind.strikes kinds < maxConsecutiveInvalid
  unheard : transport.room.conns conn = none → kinds = []

theorem StrikeCount.steady {ran : Ran} {allowed : ℕ → Prop}
    (count : StrikeCount conn kinds transport)
    (steady : Transport.Steady conn allowed transport ran) :
    ∀ record, ran.1.records.lookup conn = some record → record.ejected = false →
      record.consecutiveInvalid = FrameKind.strikes kinds ∧
        FrameKind.strikes kinds < maxConsecutiveInvalid := by
  intro record found unejected
  obtain ⟨former, before, free, same⟩ := steady.kept record found unejected
  rw [same]
  exact count.counted former before free

theorem StrikeCount.unjudged {ran : Ran} (count : StrikeCount conn kinds transport)
    (unjudged : Transport.Unjudged conn transport ran) :
    ∀ record, ran.1.records.lookup conn = some record → record.ejected = false →
      record.consecutiveInvalid = FrameKind.strikes kinds ∧
        FrameKind.strikes kinds < maxConsecutiveInvalid := by
  intro record found unejected
  obtain ⟨former, before, free, same⟩ := unjudged.kept record found unejected
  have counted := count.counted former before free
  rcases same with same | ⟨unregistered, none⟩
  · exact same ▸ counted
  · rw [count.unheard unregistered] at counted ⊢
    exact ⟨none, counted.2⟩

/-- An event that is no text frame of `conn` leaves its count. -/
theorem StrikeCount.other (tracked : Tracked config none done transport)
    (count : StrikeCount conn kinds transport) {input : TransportInput}
    (other : ∀ now parsed draws thrown, input.event ≠ .text conn now parsed draws thrown) :
    ∀ record, (transport.step config fl input).1.records.lookup conn = some record →
      record.ejected = false → record.consecutiveInvalid = FrameKind.strikes kinds ∧
        FrameKind.strikes kinds < maxConsecutiveInvalid := by
  obtain ⟨event, sockets⟩ := input
  cases event with
  | text sender now parsed draws thrown =>
      have unlike : sender ≠ conn := by
        rintro rfl
        exact other now parsed draws thrown rfl
      have steady : Transport.Steady conn (fun _ => True) transport
          (transport.onText sender sockets config fl now parsed draws thrown) :=
        Transport.Steady.onText transport unlike sockets config fl now parsed draws thrown
          (fun _ _ => trivial) trivial
      exact count.steady steady
  | connection now =>
      intro record found unejected
      simp only [Transport.step, Transport.onConnection] at found
      split at found
      · exact count.counted record found unejected
      · rw [List.lookup_append] at found
        cases before : transport.records.lookup conn with
        | some former =>
            simp only [before, Option.some_or, Option.some.injEq] at found
            exact found ▸ count.counted former before (found ▸ unejected)
        | none =>
            simp only [before, Option.none_or, List.lookup_cons, List.lookup_nil] at found
            split at found
            · rename_i own
              obtain rfl := eq_of_beq own
              rw [count.unheard (tracked.unborn _ le_rfl).1]
              exact ⟨(Option.some.inj found) ▸ rfl, by decide⟩
            · cases found
  | binary target => exact count.steady (Transport.Steady.onBinary transport target)
  | ping target now => exact count.steady (Transport.Steady.onControl transport target _ config fl now _)
  | pong target now => exact count.steady (Transport.Steady.onControl transport target _ config fl now _)
  | error target => exact count.counted
  | throws target =>
      have steady : Transport.Steady conn (fun _ => True) transport
          (transport.close target CloseCode.internalError) :=
        Transport.Steady.close transport target fun _ => trivial
      exact count.steady steady
  | helloTimeout target => exact count.steady (Transport.Steady.onHelloTimeout transport target)
  | terminateTimeout target =>
      exact count.steady (Transport.Steady.onTerminateTimeout transport target)
  | socketClose target => exact count.steady (Transport.Steady.onClose transport target _ config)
  | heartbeat =>
      exact count.steady (Transport.Steady.forEach Transport.Steady.beat transport _)
  | shutdown =>
      exact count.steady (Transport.Steady.forEach Transport.Steady.bidFarewell transport _)

/-- What a step does with the count, the row's kind given. -/
structure StrikeStep (conn : ConnId) (kinds : List FrameKind) (kind : Option FrameKind)
    (row : TransportEntry) : Prop where
  after : StrikeCount conn (kinds ++ kind.toList) row.after
  closes : ClosesForInvalid conn row ↔
    kind = some .invalid ∧ maxConsecutiveInvalid ≤ FrameKind.strikes kinds + 1
  running : kind ≠ none → FrameKind.strikes kinds < maxConsecutiveInvalid

theorem servedKind_of_other {row : TransportEntry}
    (other : ∀ now parsed draws thrown, row.input.event ≠ .text conn now parsed draws thrown) :
    servedKind config fl conn row = none := by
  unfold servedKind
  split
  · rename_i sender now parsed draws thrown isText
    split
    · rfl
    · apply if_neg
      intro heard
      exact other now parsed draws thrown (heard.1 ▸ isText)
  · rfl

/-- A text frame of `conn`, with the state of the sockets that it finds. -/
def TextOf (conn : ConnId) (now : ℤ) (parsed : Option JsValue) (draws : Draws)
    (thrown : Option Fault) (sockets : ConnId → Frame → SocketState) : TransportInput :=
  ⟨.text conn now parsed draws thrown, sockets⟩

section Text

variable (now : ℤ) (parsed : Option JsValue) (draws : Draws) (thrown : Option Fault)
  (sockets : ConnId → Frame → SocketState)

theorem StrikeCount.step_judged (count : StrikeCount conn kinds transport)
    {registration : Registration} (member : IsMember transport.room conn registration)
    {record : ConnectionRecord} (found : transport.records.lookup conn = some record)
    (unejected : record.ejected = false)
    (served : (Server.charge fl config.rateLimit record.toRecord now).2.served = true)
    (answered : parsed = none ∨ thrown = none)
    (registered : (transport.onText conn sockets config fl now parsed draws thrown).1.room.conns
      conn ≠ none) :
    StrikeStep conn kinds (some (kindOf config.room transport.room conn draws parsed))
      (Machine.entry (Transport.step config fl) transport
        (TextOf conn now parsed draws thrown sockets)) := by
  obtain ⟨counted, few⟩ := count.counted record found unejected
  have judged := Transport.judged_onText config sockets fl now member found unejected served
    parsed draws answered
  rw [counted] at judged
  refine ⟨⟨fun held present free => ?_, fun absent => absurd absent registered⟩, ?_, fun _ => few⟩
  · obtain ⟨same, below⟩ := judged.kept held present free
    rw [Option.toList_some, strikes_concat]
    refine ⟨same, ?_⟩
    cases kind : kindOf config.room transport.room conn draws parsed with
    | invalid => exact kind ▸ below kind
    | refused => exact few
    | accepted => exact Nat.zero_lt_succ 2
  · rw [Option.some_inj, ← judged.struck]
    exact and_iff_right ⟨now, parsed, draws, thrown, rfl⟩

theorem StrikeCount.step_unjudged (count : StrikeCount conn kinds transport)
    (unjudged : ∀ record, transport.records.lookup conn = some record → record.ejected = false →
      (Server.charge fl config.rateLimit record.toRecord now).2.served = true →
        transport.room.conns conn = none ∨ parsed ≠ none ∧ thrown ≠ none)
    (unheard : (transport.onText conn sockets config fl now parsed draws thrown).1.room.conns
      conn = none → kinds = []) :
    StrikeStep conn kinds none
      (Machine.entry (Transport.step config fl) transport
        (TextOf conn now parsed draws thrown sockets)) := by
  have left := Transport.unjudged_onText config sockets fl now parsed draws thrown unjudged
  refine ⟨⟨?_, ?_⟩, ?_, fun served => absurd rfl served⟩
  · rw [Option.toList_none, List.append_nil]
    exact count.unjudged left
  · rw [Option.toList_none, List.append_nil]
    exact unheard
  · apply iff_of_false (fun closes => left.unstruck closes.2)
    rintro ⟨contra, _⟩
    cases contra

theorem StrikeCount.step_text (count : StrikeCount conn kinds transport)
    (enrolled : Enrolled transport) :
    StrikeStep conn kinds
      (servedKind config fl conn (Machine.entry (Transport.step config fl) transport
        (TextOf conn now parsed draws thrown sockets)))
      (Machine.entry (Transport.step config fl) transport
        (TextOf conn now parsed draws thrown sockets)) := by
  have moved := Transport.moved config fl transport (TextOf conn now parsed draws thrown sockets)
  have unheard : (transport.onText conn sockets config fl now parsed draws thrown).1.room.conns
      conn = none → kinds = [] := by
    intro unregistered
    by_contra heard
    exact registered_moved moved (fun absent => heard (count.unheard absent)) unregistered
  by_cases judged : ∃ record, transport.records.lookup conn = some record ∧
      transport.room.isMember conn = true ∧ record.ejected = false ∧
        (Server.charge fl config.rateLimit record.toRecord now).2.served = true ∧
          (parsed.isNone = true ∨ thrown.isNone = true)
  · obtain ⟨record, found, live, unejected, served, answered⟩ := judged
    obtain ⟨registration, registered⟩ : ∃ registration,
        transport.room.conns conn = some registration := by
      cases registered : transport.room.conns conn with
      | none => simp [Room.isMember, registered] at live
      | some registration => exact ⟨registration, rfl⟩
    have member := (isMember_eq_true_iff registered).mp live
    have kind : servedKind config fl conn (Machine.entry (Transport.step config fl) transport
        (TextOf conn now parsed draws thrown sockets)) =
          some (kindOf config.room transport.room conn draws parsed) := by
      simp only [servedKind, Machine.entry, TextOf, found]
      exact if_pos ⟨trivial, live, unejected, served, answered⟩
    rw [kind]
    exact count.step_judged now parsed draws thrown sockets member found unejected served
      (by simpa using answered) (registered_moved moved (by simp [registered]))
  · have kind : servedKind config fl conn (Machine.entry (Transport.step config fl) transport
        (TextOf conn now parsed draws thrown sockets)) = none := by
      simp only [servedKind, Machine.entry, TextOf]
      split
      · rfl
      · rename_i record found
        exact if_neg fun heard => judged ⟨record, found, heard.2⟩
    rw [kind]
    refine count.step_unjudged now parsed draws thrown sockets ?_ unheard
    intro record found unejected served
    cases registered : transport.room.conns conn with
    | none => exact .inl rfl
    | some registration =>
        refine .inr ?_
        have listed : conn ∈ transport.records.map (·.1) :=
          List.mem_map_of_mem (AssocList.mem_of_lookup found)
        have live := (isMember_eq_true_iff registered).mpr
          (enrolled conn listed registration registered)
        constructor
        · rintro rfl
          exact judged ⟨record, found, live, unejected, served, .inl rfl⟩
        · rintro rfl
          exact judged ⟨record, found, live, unejected, served, .inr rfl⟩

end Text

theorem StrikeCount.step (tracked : Tracked config none done transport)
    (enrolled : Enrolled transport) (count : StrikeCount conn kinds transport)
    (input : TransportInput) :
    StrikeStep conn kinds
      (servedKind config fl conn (Machine.entry (Transport.step config fl) transport input))
      (Machine.entry (Transport.step config fl) transport input) := by
  by_cases isText : ∃ now parsed draws thrown, input.event = .text conn now parsed draws thrown
  · obtain ⟨event, sockets⟩ := input
    obtain ⟨now, parsed, draws, thrown, rfl⟩ := isText
    exact count.step_text now parsed draws thrown sockets enrolled
  · have other : ∀ now parsed draws thrown,
        input.event ≠ .text conn now parsed draws thrown := fun now parsed draws thrown same =>
      isText ⟨now, parsed, draws, thrown, same⟩
    have moved := Transport.moved config fl transport input
    rw [servedKind_of_other other]
    refine ⟨⟨?_, ?_⟩, ?_, fun served => absurd rfl served⟩
    · rw [Option.toList_none, List.append_nil]
      exact count.other tracked other
    · rw [Option.toList_none, List.append_nil]
      intro unregistered
      by_contra heard
      exact registered_moved moved (fun absent => heard (count.unheard absent)) unregistered
    · apply iff_of_false (fun closes => isText closes.1)
      rintro ⟨contra, _⟩
      cases contra

end Steps

/-!
## Whole runs
-/

section Runs

variable (config : TransportConfig) (fl : ℚ → ℚ) (conn : ConnId)

theorem strikeCount_run (inputs : List TransportInput) :
    StrikeCount conn (servedKinds config fl conn (transportTrace config fl inputs))
      (transportAfter config fl inputs) := by
  induction inputs using List.reverseRecOn with
  | nil => exact ⟨(fun _ found => by cases found), fun _ => rfl⟩
  | append_singleton inputs input ih =>
      have step := @StrikeCount.step config fl _ conn _ _ (Tracked.run config fl inputs)
        (enrolled_after config fl inputs) ih input
      rw [transportTrace, Machine.trace_concat, servedKinds_concat, transportAfter,
        Machine.run_concat]
      exact step.after

/-- What a row of a run is to the count. -/
theorem strikeStep_row {inputs : List TransportInput} {earlier later : List TransportEntry}
    {row : TransportEntry} (shape : transportTrace config fl inputs = earlier ++ row :: later) :
    StrikeStep conn (servedKinds config fl conn earlier) (servedKind config fl conn row) row := by
  obtain ⟨first, input, rest, _, rfl, rfl, _⟩ := Machine.trace_split _ shape
  exact (strikeCount_run config fl conn first).step (Tracked.run config fl first)
    (enrolled_after config fl first) input

theorem row_of_kind {rows : List TransportEntry} {kind : FrameKind} {first rest : List FrameKind}
    (shape : servedKinds config fl conn rows = first ++ kind :: rest) :
    ∃ earlier row later, rows = earlier ++ row :: later ∧
      servedKinds config fl conn earlier = first ∧ servedKind config fl conn row = some kind := by
  obtain ⟨before, after, rfl, rfl, tail⟩ := List.filterMap_eq_append_iff.mp shape
  obtain ⟨unserved, row, later, rfl, quiet, own, _⟩ := List.filterMap_eq_cons_iff.mp tail
  refine ⟨before ++ unserved, row, later, by simp, ?_, own⟩
  rw [servedKinds, List.filterMap_append, List.filterMap_eq_nil_iff.mpr quiet, List.append_nil]

variable {config fl conn} {inputs : List TransportInput}

/-- Before each served frame the count is below three. -/
theorem strikes_lt_of_served {kind : FrameKind} {first rest : List FrameKind}
    (shape : servedKinds config fl conn (transportTrace config fl inputs) = first ++ kind :: rest) :
    FrameKind.strikes first < maxConsecutiveInvalid := by
  obtain ⟨earlier, row, later, rows, rfl, own⟩ := row_of_kind config fl conn shape
  exact (strikeStep_row config fl conn rows).running (by simp [own])

theorem not_infix_of_served {earlier later : List TransportEntry} {row : TransportEntry}
    (shape : transportTrace config fl inputs = earlier ++ row :: later) {kind : FrameKind}
    (own : servedKind config fl conn row = some kind) :
    ¬ threeInvalid <:+: servedKinds config fl conn earlier := by
  rintro ⟨before, after, parts⟩
  have whole : servedKinds config fl conn (transportTrace config fl inputs) =
      (before ++ threeInvalid) ++ (after ++ kind :: servedKinds config fl conn later) := by
    rw [shape, servedKinds, List.filterMap_append, List.filterMap_cons, own]
    change servedKinds config fl conn earlier ++ kind :: servedKinds config fl conn later = _
    rw [← parts]
    simp
  have three := strikes_three before
  cases after with
  | nil =>
      have few := strikes_lt_of_served whole
      unfold maxConsecutiveInvalid at few
      omega
  | cons next after =>
      have few := strikes_lt_of_served whole
      unfold maxConsecutiveInvalid at few
      omega

theorem two_strikes {earlier : List FrameKind} (counted : FrameKind.strikes earlier = 2) :
    ∃ before first second, earlier = before ++ .invalid :: first ++ .invalid :: second ∧
      ∀ kind ∈ first ++ second, kind = .refused := by
  obtain ⟨upper, second, rfl, one, refusedSecond⟩ := strikes_eq_succ counted
  obtain ⟨before, first, rfl, _, refusedFirst⟩ := strikes_eq_succ one
  refine ⟨before, first, second, by simp, fun kind member => ?_⟩
  rcases List.mem_append.mp member with left | right
  · exact refusedFirst kind left
  · exact refusedSecond kind right

end Runs

/-- The rule is kept in exactly the runs in which no refused frame stands between three
invalid ones. -/
theorem threeStrikes_iff (config : TransportConfig) (fl : ℚ → ℚ) (conn : ConnId)
    (inputs : List TransportInput) :
    ThreeStrikes config fl conn (transportTrace config fl inputs) ↔
      ¬ Interrupted (servedKinds config fl conn (transportTrace config fl inputs)) := by
  constructor
  · rintro rule ⟨before, first, second, rest, shape, refused, some⟩
    have shape : servedKinds config fl conn (transportTrace config fl inputs) =
        (before ++ .invalid :: first ++ .invalid :: second) ++ .invalid :: rest := shape
    obtain ⟨earlier, row, later, rows, kinds, own⟩ := row_of_kind config fl conn shape
    have step := strikeStep_row config fl conn rows
    have two := strikes_two before refused
    have closes : ClosesForInvalid conn row := by
      refine step.closes.mpr ⟨own, ?_⟩
      rw [kinds, two]
      exact Nat.le_add_left 3 _
    have suffix := ((rule earlier row later rows).mp closes).1
    rw [servedKinds_concat, kinds, own, Option.toList_some] at suffix
    exact some (adjacent_of_suffix refused suffix)
  · intro free earlier row later rows
    have step := strikeStep_row config fl conn rows
    rw [servedKinds_concat]
    constructor
    · intro closes
      obtain ⟨own, three⟩ := step.closes.mp closes
      have few := step.running (by simp [own])
      have counted : FrameKind.strikes (servedKinds config fl conn earlier) = 2 := by
        unfold maxConsecutiveInvalid at three few
        omega
      obtain ⟨before, first, second, kinds, refused⟩ := two_strikes counted
      have whole : servedKinds config fl conn (transportTrace config fl inputs) =
          servedKinds config fl conn earlier ++ .invalid :: servedKinds config fl conn later := by
        rw [rows, servedKinds, List.filterMap_append, List.filterMap_cons, own]
        rfl
      have adjacent : first ++ second = [] := by
        by_contra between
        rw [kinds] at whole
        exact free ⟨before, first, second, _, whole, refused, between⟩
      obtain ⟨rfl, rfl⟩ := List.append_eq_nil_iff.mp adjacent
      refine ⟨⟨before, ?_⟩, not_infix_of_served rows own⟩
      rw [own, kinds]
      simp [threeInvalid]
    · rintro ⟨suffix, fresh⟩
      cases own : servedKind config fl conn row with
      | none =>
          rw [own, Option.toList_none, List.append_nil] at suffix
          exact absurd suffix.isInfix fresh
      | some kind =>
          rw [own, Option.toList_some] at suffix
          obtain ⟨front, same⟩ := suffix
          have split : (front ++ [.invalid, .invalid]) ++ [FrameKind.invalid] =
              servedKinds config fl conn earlier ++ [kind] := by
            rw [← same]
            simp [threeInvalid]
          obtain ⟨kinds, last⟩ := List.append_inj' split rfl
          obtain rfl := (List.cons.inj last).1
          refine step.closes.mpr ⟨own, ?_⟩
          rw [← kinds]
          simp [FrameKind.strikes, FrameKind.tally, maxConsecutiveInvalid]

/-!
## Three invalid messages with a refusal between
-/

section Strikes

def strikeConfig : TransportConfig := ⟨2, defaultRateLimit, ⟨js "deck", 2, protocolVersion⟩⟩

def strikeFrame (now : ℤ) (msg : JsValue) : TransportInput :=
  ⟨.text 0 now (some msg) (fun _ => ⟨7⟩) none, fun _ _ => .writable⟩

def bareMessage (kind : String) : JsValue := .obj [(js "type", .str (js kind))]

/-- Ana joins, sends two messages of no known type, and releases the control she lacks. -/
def strikeStart : List TransportInput :=
  ⟨.connection 0, fun _ _ => .writable⟩ ::
    strikeFrame 0 (helloMessage protocolVersion (js "Ana") (js "deck")) ::
      [bareMessage "noise", bareMessage "noise", bareMessage "releaseControl"].map
        (strikeFrame 1000)

/-- Her third message of no known type closes her, though it is not the third in a row. -/
theorem threeStrikes_false : ¬ ThreeStrikes strikeConfig BinaryRounding.double 0
    (transportTrace strikeConfig BinaryRounding.double
      (strikeStart ++ [strikeFrame 1000 (bareMessage "noise")])) := by
  intro rule
  have rows := Machine.trace_concat (Transport.step strikeConfig BinaryRounding.double)
    .createServer strikeStart (strikeFrame 1000 (bareMessage "noise"))
  have step := strikeStep_row strikeConfig BinaryRounding.double 0 rows
  have kinds : servedKinds strikeConfig BinaryRounding.double 0
      (Machine.trace (Transport.step strikeConfig BinaryRounding.double) .createServer
        strikeStart) = [.invalid, .invalid, .refused] := by
    decide +kernel
  have own : servedKind strikeConfig BinaryRounding.double 0
      (Machine.entry (Transport.step strikeConfig BinaryRounding.double)
        (Machine.run (Transport.step strikeConfig BinaryRounding.double) .createServer
          strikeStart) (strikeFrame 1000 (bareMessage "noise"))) = some .invalid := by
    decide +kernel
  have closes := step.closes.mpr ⟨own, by rw [kinds]; decide⟩
  have suffix := ((rule _ _ [] rows).mp closes).1
  rw [servedKinds_concat, kinds, own] at suffix
  exact absurd suffix (by decide)

end Strikes

end DjApp.System
