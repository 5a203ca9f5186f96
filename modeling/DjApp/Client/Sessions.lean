import DjApp.Client.MarshalledCallbacks

/-! The sessions of a client: each callback is run in its own session, in order and once, and
the client is connected exactly while its current session is welcomed. -/

set_option autoImplicit false

namespace DjApp.Client

open Library

/-!
## The queue and its flags
-/

/-- Whether a session is up after these callbacks. -/
def online (callbacks : List Callback) : Bool := callbacks.foldl Callback.connects false

/-- What holds of the flags and the queue when `done` has been done. A flag is set from the
connection attempt it was made for to the teardown of that attempt. -/
structure Sessions (done : List ThreadAction) (threads : ClientThreads) : Prop where
  live : ∀ flag, threads.flags flag = true ↔
    threads.impl.alive = some flag ∧ threads.stopping = none
  older : ∀ flag, threads.impl.alive = some flag → flag < threads.allocated
  held : threads.impl.socket = true → ∃ flag, threads.impl.alive = some flag
  owned : ∀ entry ∈ threads.queue, ∃ flag < threads.allocated, entry.1 = some flag
  unborn : ∀ flag, threads.allocated ≤ flag →
    marshalledUnder flag done = [] ∧ performedUnder flag done = []
  inOrder : ∀ flag, threads.flags flag = true →
    performedUnder flag done ++ pendingUnder flag threads.queue = marshalledUnder flag done
  prefixed : ∀ flag, performedUnder flag done <+: marshalledUnder flag done
  uncrashed : .crashed ∉ done
  connected : threads.component.connected = match threads.impl.alive with
    | some flag => online (performedUnder flag done)
    | none => false
  attempting : ∀ name room, threads.stopping = some (.connect name room) →
    threads.component.connected = false

namespace Sessions

variable {done : List ThreadAction} {threads : ClientThreads}

theorem initial (varToString : Var → String) : Sessions [] (.started varToString) where
  live flag := by simp [ClientThreads.started]
  older flag current := by cases current
  held running := by cases running
  owned entry member := by cases member
  unborn flag _ := ⟨rfl, rfl⟩
  inOrder flag _ := rfl
  prefixed flag := List.prefix_refl _
  uncrashed := List.not_mem_nil
  connected := rfl
  attempting name room waiting := by cases waiting

theorem pending_unborn (sessions : Sessions done threads) {flag : AliveFlag}
    (fresh : threads.allocated ≤ flag) : pendingUnder flag threads.queue = [] := by
  apply List.filterMap_eq_nil_iff.mpr
  intro entry member
  obtain ⟨older, small, owner⟩ := sessions.owned entry member
  have unlike : older ≠ flag := by omega
  simp [owner, unlike]

/-- Logs, messages and sequence numbers are not spoken of. -/
theorem turned {ran : ThreadsRan} {queued : List ThreadAction} {next : ClientThreads}
    (sessions : Sessions (done ++ queued) next) (turns : Turns next queued ran) :
    Sessions (done ++ ran.2) ran.1 := by
  have same : queuedActions (done ++ ran.2) = queuedActions (done ++ queued) := by
    rw [queuedActions_append, queuedActions_append, ← turns.actions, queuedActions_queuedActions]
  have marshalled : ∀ flag, marshalledUnder flag (done ++ ran.2) =
      marshalledUnder flag (done ++ queued) := by
    intro flag
    rw [← marshalledUnder_queuedActions, same, marshalledUnder_queuedActions]
  have performed : ∀ flag, performedUnder flag (done ++ ran.2) =
      performedUnder flag (done ++ queued) := by
    intro flag
    rw [← performedUnder_queuedActions, same, performedUnder_queuedActions]
  have crashed : .crashed ∈ done ++ ran.2 ↔ .crashed ∈ done ++ queued := by
    rw [← mem_queuedActions_crashed, same, mem_queuedActions_crashed]
  constructor
  · rw [turns.flags, turns.alive, turns.stopping]
    exact sessions.live
  · rw [turns.alive, turns.allocated]
    exact sessions.older
  · rw [turns.alive, turns.socket]
    exact sessions.held
  · rw [turns.queue, turns.allocated]
    exact sessions.owned
  · intro flag fresh
    rw [marshalled, performed]
    exact sessions.unborn flag (turns.allocated ▸ fresh)
  · intro flag live
    rw [marshalled, performed, turns.queue]
    exact sessions.inOrder flag (turns.flags ▸ live)
  · intro flag
    rw [marshalled, performed]
    exact sessions.prefixed flag
  · rw [crashed]
    exact sessions.uncrashed
  · rw [turns.component, turns.alive, sessions.connected]
    split
    · rw [performed]
    · rfl
  · rw [turns.stopping, turns.component]
    exact sessions.attempting

variable (sessions : Sessions done threads)

include sessions

/-- A callback is captured under the flag that the socket has. -/
theorem captured {current : AliveFlag} (alive : threads.impl.alive = some current)
    (callback : Option Callback) :
    Sessions (done ++ threads.captures callback) (threads.captured callback) := by
  have older := sessions.older current alive
  have marshalled : ∀ flag, marshalledUnder flag (threads.captures callback) =
      if current = flag then callback.toList else [] := by
    intro flag
    unfold ClientThreads.captures
    rw [alive]
    cases callback with
    | none => simp [marshalledUnder]
    | some callback =>
        by_cases own : current = flag
        · simp [marshalledUnder, own]
        · simp [marshalledUnder, own]
  have performed : ∀ flag, performedUnder flag (threads.captures callback) = [] := by
    intro flag
    unfold ClientThreads.captures
    cases callback <;> rfl
  have pending : ∀ flag, pendingUnder flag (threads.captured callback).queue =
      pendingUnder flag threads.queue ++ if current = flag then callback.toList else [] := by
    intro flag
    unfold ClientThreads.captured
    rw [pendingUnder_append, alive]
    cases callback with
    | none => simp [pendingUnder]
    | some callback =>
        by_cases own : current = flag
        · simp [pendingUnder, own]
        · simp [pendingUnder, own]
  refine ⟨sessions.live, sessions.older, sessions.held, ?_, ?_, ?_, ?_, ?_, ?_, sessions.attempting⟩
  · intro entry member
    rcases List.mem_append.mp member with earlier | added
    · exact sessions.owned entry earlier
    · obtain ⟨own, _, rfl⟩ := List.mem_map.mp added
      exact ⟨current, older, alive⟩
  · intro flag fresh
    have unlike : current ≠ flag := by
      rintro rfl
      exact absurd older (Nat.not_lt.mpr fresh)
    obtain ⟨unmarshalled, unperformed⟩ := sessions.unborn flag fresh
    rw [marshalledUnder_append, performedUnder_append, unmarshalled, unperformed, marshalled,
      performed, if_neg unlike]
    exact ⟨rfl, rfl⟩
  · intro flag live
    rw [marshalledUnder_append, performedUnder_append, performed, List.append_nil, marshalled,
      pending, ← sessions.inOrder flag live, List.append_assoc]
  · intro flag
    rw [marshalledUnder_append, performedUnder_append, performed, List.append_nil]
    exact (sessions.prefixed flag).trans (List.prefix_append _ _)
  · intro crashed
    rcases List.mem_append.mp crashed with earlier | added
    · exact sessions.uncrashed earlier
    · obtain ⟨_, _, shape⟩ := List.mem_map.mp added
      cases shape
  · rw [show (threads.captured callback).component = threads.component from rfl,
      sessions.connected]
    simp only [performedUnder_append, performed, List.append_nil]
    rfl

theorem acts {component : MainComponent}
    (same : component.connected = threads.component.connected) :
    Sessions (done ++ []) { threads with component := component } := by
  rw [List.append_nil]
  obtain ⟨live, older, held, owned, unborn, inOrder, prefixed, uncrashed, connected, attempting⟩ :=
    sessions
  exact ⟨live, older, held, owned, unborn, inOrder, prefixed, uncrashed, same.trans connected,
    fun name room waiting => same.trans (attempting name room waiting)⟩

variable {callback : Callback} {rest : List (Option AliveFlag × Callback)} {flag : AliveFlag}

theorem skips (shape : threads.queue = (some flag, callback) :: rest)
    (dead : threads.flags flag = false) : Sessions (done ++ []) { threads with queue := rest } := by
  rw [List.append_nil]
  obtain ⟨live, older, held, owned, unborn, inOrder, prefixed, uncrashed, connected, attempting⟩ :=
    sessions
  refine ⟨live, older, held, ?_, unborn, ?_, prefixed, uncrashed, connected, attempting⟩
  · intro entry member
    exact owned entry (shape ▸ List.mem_cons_of_mem _ member)
  · intro other alive
    have unlike : flag ≠ other := by
      rintro rfl
      exact absurd alive (by simp [dead])
    rw [← inOrder other alive, shape]
    simp [pendingUnder, unlike]

theorem runs {component : MainComponent} (free : threads.stopping = none)
    (shape : threads.queue = (some flag, callback) :: rest) (live : threads.flags flag = true)
    (connects : component.connected = callback.connects threads.component.connected) :
    Sessions (done ++ [.performed flag callback])
      { threads with queue := rest, component := component } := by
  obtain ⟨alive, _⟩ := (sessions.live flag).mp live
  have marshalled : ∀ other, marshalledUnder other [.performed flag callback] = [] := fun _ => rfl
  have performed : ∀ other, performedUnder other [.performed flag callback] =
      if flag = other then [callback] else [] := by
    intro other
    by_cases own : flag = other
    · simp [performedUnder, own]
    · simp [performedUnder, own]
  have pending : ∀ other, pendingUnder other threads.queue =
      (if flag = other then [callback] else []) ++ pendingUnder other rest := by
    intro other
    rw [shape]
    by_cases own : flag = other
    · simp [pendingUnder, own]
    · simp [pendingUnder, own]
  have inOrder : ∀ other, threads.flags other = true →
      performedUnder other (done ++ [.performed flag callback]) ++ pendingUnder other rest =
        marshalledUnder other (done ++ [.performed flag callback]) := by
    intro other lives
    rw [performedUnder_append, marshalledUnder_append, performed, marshalled, List.append_nil,
      List.append_assoc, ← pending, sessions.inOrder other lives]
  refine ⟨sessions.live, sessions.older, sessions.held, ?_, ?_, inOrder, ?_, ?_, ?_, ?_⟩
  · intro entry member
    exact sessions.owned entry (shape ▸ List.mem_cons_of_mem _ member)
  · intro other fresh
    have unlike : flag ≠ other := by
      rintro rfl
      exact absurd (sessions.older flag alive) (Nat.not_lt.mpr fresh)
    obtain ⟨unmarshalled, unperformed⟩ := sessions.unborn other fresh
    rw [marshalledUnder_append, performedUnder_append, unmarshalled, unperformed, performed,
      if_neg unlike]
    exact ⟨rfl, rfl⟩
  · intro other
    cases lives : threads.flags other with
    | true => exact ⟨_, inOrder other lives⟩
    | false =>
        have unlike : flag ≠ other := by
          rintro rfl
          exact absurd live (by simp [lives])
        rw [performedUnder_append, marshalledUnder_append, performed, if_neg unlike, marshalled,
          List.append_nil, List.append_nil]
        exact sessions.prefixed other
  · intro crashed
    rcases List.mem_append.mp crashed with earlier | added
    · exact sessions.uncrashed earlier
    · cases List.mem_singleton.mp added
  · have before := sessions.connected
    rw [alive] at before
    dsimp only at before ⊢
    rw [connects, before, alive]
    dsimp only
    rw [performedUnder_append, performed, if_pos rfl]
    simp [online]
  · intro name room waiting
    rw [free] at waiting
    cases waiting

theorem flip {next : Teardown}
    (attempting : ∀ name room, next = .connect name room → threads.component.connected = false) :
    Sessions (done ++ []) (threads.flip next) := by
  rw [List.append_nil]
  have dead : ∀ flag, (threads.flip next).flags flag = false := by
    intro flag
    unfold ClientThreads.flip
    cases alive : threads.impl.alive with
    | none =>
        cases lives : threads.flags flag with
        | false => rfl
        | true =>
            obtain ⟨current, _⟩ := (sessions.live flag).mp lives
            cases alive.symm.trans current
    | some current =>
        by_cases own : flag = current
        · subst own
          exact Function.update_self ..
        · dsimp only
          rw [Function.update_of_ne own]
          cases lives : threads.flags flag with
          | false => rfl
          | true =>
              obtain ⟨same, _⟩ := (sessions.live flag).mp lives
              exact absurd (Option.some.inj (same.symm.trans alive)) own
  refine ⟨?_, sessions.older, sessions.held, sessions.owned, sessions.unborn, ?_,
    sessions.prefixed, sessions.uncrashed, sessions.connected, ?_⟩
  · intro flag
    rw [dead]
    constructor
    · intro lives
      cases lives
    · rintro ⟨_, waiting⟩
      cases waiting
  · intro flag lives
    cases (dead flag).symm.trans lives
  · intro name room waiting
    exact attempting name room (Option.some.inj waiting)

/-- No flag is set between the teardown and the next attempt. -/
theorem dead_of_waiting {next : Teardown} (waiting : threads.stopping = some next)
    (flag : AliveFlag) : threads.flags flag = false := by
  rw [← Bool.not_eq_true]
  intro lives
  obtain ⟨_, free⟩ := (sessions.live flag).mp lives
  cases waiting.symm.trans free

theorem disconnect (waiting : threads.stopping = some .disconnect) :
    Sessions (done ++ (threads.stop.resume .disconnect).2)
      (threads.stop.resume .disconnect).1 := by
  rw [show (threads.stop.resume .disconnect).2 = [] from rfl, List.append_nil]
  have dead := sessions.dead_of_waiting waiting
  refine ⟨?_, ?_, ?_, sessions.owned, sessions.unborn, ?_, sessions.prefixed, sessions.uncrashed,
    rfl, ?_⟩
  · intro flag
    change threads.flags flag = true ↔ none = some flag ∧ none = none
    simp [dead flag]
  · intro flag current
    cases current
  · intro running
    cases running
  · intro flag lives
    cases (dead flag).symm.trans lives
  · intro name room attempt
    cases attempt

/-- The state of an attempt that has just been made, with an empty history. -/
theorem attempt {name room : String} (waiting : threads.stopping = some (.connect name room))
    {impl : TransportImpl} (current : impl.alive = some threads.allocated) :
    Sessions (done ++ []) { threads.stop.allocate with impl := impl } := by
  rw [List.append_nil]
  have dead := sessions.dead_of_waiting waiting
  obtain ⟨unmarshalled, unperformed⟩ := sessions.unborn threads.allocated le_rfl
  have offline := sessions.attempting name room waiting
  refine ⟨?_, ?_, fun _ => ⟨_, current⟩, ?_, ?_, ?_, sessions.prefixed, sessions.uncrashed, ?_, ?_⟩
  · intro flag
    rw [current]
    by_cases own : flag = threads.allocated
    · subst own
      simp [ClientThreads.allocate, ClientThreads.stop]
    · have unlike : threads.allocated ≠ flag := Ne.symm own
      simp [ClientThreads.allocate, ClientThreads.stop, own, unlike, dead flag]
  · intro flag same
    rw [current] at same
    cases same
    exact Nat.lt_succ_self _
  · intro entry member
    obtain ⟨flag, small, owner⟩ := sessions.owned entry member
    exact ⟨flag, small.trans (Nat.lt_succ_self _), owner⟩
  · exact fun flag fresh => sessions.unborn flag ((Nat.le_succ _).trans fresh)
  · intro flag lives
    have own : flag = threads.allocated := by
      by_contra unlike
      simp [ClientThreads.allocate, ClientThreads.stop, unlike, dead flag] at lives
    subst own
    rw [unmarshalled, unperformed]
    exact sessions.pending_unborn le_rfl
  · rw [current]
    dsimp only
    rw [unperformed]
    exact offline
  · intro name room again
    cases again

theorem connect {name room : String} (waiting : threads.stopping = some (.connect name room)) :
    Sessions (done ++ (threads.stop.connect name room).2) (threads.stop.connect name room).1 := by
  unfold ClientThreads.connect
  cases built : buildHello name room with
  | ok hello => exact sessions.attempt waiting rfl
  | error reason =>
      have allocated := @attempt _ _ sessions _ _ waiting threads.stop.allocate.impl rfl
      rw [List.append_nil] at allocated
      exact allocated.captured rfl (some (.connectionLost reason))

omit sessions

theorem step (sessions : Sessions done threads) (measure : ClientThreads.Measure)
    (event : ThreadEvent) :
    Sessions (done ++ (threads.step measure event).2) (threads.step measure event).1 := by
  have moved := stepped measure threads event
  generalize threads.step measure event = ran at moved ⊢
  cases moved with
  | idle event =>
      rw [List.append_nil]
      exact sessions
  | network event ran running turns =>
      obtain ⟨current, alive⟩ := sessions.held running
      exact (sessions.captured alive event.callback).turned turns
  | acts event component ran same turns => exact (sessions.acts same).turned turns
  | runs now flag callback rest component ran free shape live connects turns =>
      exact (sessions.runs free shape live connects).turned turns
  | skips now flag callback rest shape dead => exact sessions.skips shape dead
  | crashes now callback rest shape =>
      obtain ⟨flag, _, owner⟩ := sessions.owned _ (shape ▸ List.mem_cons_self)
      cases owner
  | clicks name room =>
      refine sessions.flip ?_
      intro name room next
      cases connected : threads.component.connected with
      | false => rfl
      | true =>
          rw [connected] at next
          cases next
  | resumes next waiting =>
      cases next with
      | connect name room => exact sessions.connect waiting
      | disconnect => exact sessions.disconnect waiting

end Sessions

/-!
## Callbacks of one session
-/

/-- What a step brings for the session of a flag: the frames of its socket, or the refusal
of the attempt itself. -/
def incoming (flag : AliveFlag) (row : ThreadEntry) : List Callback :=
  match row.input with
  | .network event =>
      if row.before.impl.socket = true ∧ row.before.impl.alive = some flag then
        event.callback.toList else []
  | .socketStopped =>
      match row.before.stopping with
      | some (.connect name room) =>
          match buildHello name room with
          | .error reason =>
              if row.before.allocated = flag then [.connectionLost reason] else []
          | .ok _ => []
      | some .disconnect | none => []
  | .message _ => []

theorem marshalledUnder_captures (flag : AliveFlag) (threads : ClientThreads)
    (callback : Option Callback) :
    marshalledUnder flag (threads.captures callback) =
      if threads.impl.alive = some flag then callback.toList else [] := by
  unfold ClientThreads.captures
  cases callback with
  | none => simp [marshalledUnder]
  | some callback =>
      by_cases own : threads.impl.alive = some flag
      · simp [marshalledUnder, own]
      · simp [marshalledUnder, own]

theorem marshalledUnder_step (measure : ClientThreads.Measure) (flag : AliveFlag)
    (threads : ClientThreads) (event : ThreadEvent) :
    marshalledUnder flag (threads.step measure event).2 =
      incoming flag (Machine.entry (ClientThreads.step measure) threads event) := by
  cases event with
  | network event =>
      cases running : threads.impl.socket with
      | false =>
          simp only [ClientThreads.step, incoming, Machine.entry, running, Bool.false_eq_true,
            ↓reduceIte, false_and]
          rfl
      | true =>
          have turns := Turns.networkStep measure threads event
          simp only [ClientThreads.step, incoming, Machine.entry, running, ↓reduceIte, true_and]
          rw [← marshalledUnder_queuedActions, turns.actions, marshalledUnder_captures]
  | socketStopped =>
      cases waiting : threads.stopping with
      | none =>
          simp only [ClientThreads.step, incoming, Machine.entry, waiting]
          rfl
      | some next =>
          simp only [ClientThreads.step, incoming, Machine.entry, waiting]
          cases next with
          | disconnect => rfl
          | connect name room =>
              dsimp only [ClientThreads.resume, ClientThreads.connect]
              cases built : buildHello name room with
              | ok hello => rfl
              | error reason =>
                  have captured := marshalledUnder_captures flag threads.stop.allocate
                    (some (.connectionLost reason))
                  simp only [ClientThreads.allocate, ClientThreads.stop, Option.some.injEq]
                    at captured
                  exact captured
  | message event =>
      have moved := stepped measure threads (.message event)
      change marshalledUnder flag (threads.step measure (.message event)).2 = []
      generalize threads.step measure (.message event) = ran at moved ⊢
      cases moved with
      | idle | skips | crashes | clicks => rfl
      | acts _ component _ same turns =>
          rw [← marshalledUnder_queuedActions, turns.actions]
          rfl
      | runs now own callback rest component _ free shape live connects turns =>
          rw [← marshalledUnder_queuedActions, turns.actions]
          rfl

theorem live_of_performed {measure : ClientThreads.Measure} {threads : ClientThreads}
    {event : ThreadEvent} {flag : AliveFlag} {callback : Callback}
    (performed : .performed flag callback ∈ (threads.step measure event).2) :
    threads.flags flag = true := by
  have own : .performed flag callback ∈ queuedActions (threads.step measure event).2 :=
    List.mem_filter.mpr ⟨performed, rfl⟩
  have moved := stepped measure threads event
  generalize threads.step measure event = ran at moved own
  cases moved with
  | idle | skips | clicks => cases own
  | network event ran running turns =>
      rw [turns.actions] at own
      obtain ⟨_, _, shape⟩ := List.mem_map.mp own
      cases shape
  | acts event component ran same turns =>
      rw [turns.actions] at own
      cases own
  | runs now current other rest component ran free shape live connects turns =>
      rw [turns.actions] at own
      cases List.mem_singleton.mp own
      exact live
  | crashes => cases List.mem_singleton.mp own
  | resumes next waiting =>
      cases next with
      | disconnect => cases own
      | connect name room =>
          simp only [ClientThreads.resume, ClientThreads.connect] at own
          split at own
          · cases List.mem_singleton.mp own
          · cases own

theorem online_iff {callbacks : List Callback} :
    online callbacks = true ↔ ∃ before parsed after,
      callbacks = before ++ .welcome parsed :: after ∧
        ∀ reason, .connectionLost reason ∉ after := by
  induction callbacks using List.reverseRecOn with
  | nil =>
      constructor
      · intro up
        cases up
      · rintro ⟨before, parsed, after, shape, _⟩
        cases before <;> cases shape
  | append_singleton callbacks callback ih =>
      have last : online (callbacks ++ [callback]) = callback.connects (online callbacks) := by
        simp [online]
      rw [last]
      constructor
      · intro up
        cases callback with
        | connectionLost reason => cases up
        | welcome parsed => exact ⟨callbacks, parsed, [], rfl, fun _ => List.not_mem_nil⟩
        | remoteDelta | serverEvent =>
            obtain ⟨before, parsed, after, rfl, kept⟩ := ih.mp up
            refine ⟨before, parsed, _, by rw [List.append_assoc, List.cons_append], ?_⟩
            intro reason lost
            rcases List.mem_append.mp lost with earlier | added
            · exact kept reason earlier
            · cases List.mem_singleton.mp added
      · rintro ⟨before, parsed, after, shape, kept⟩
        cases after using List.reverseRecOn with
        | nil =>
            obtain ⟨_, same⟩ := List.append_inj' shape rfl
            cases same
            rfl
        | append_singleton after own _ =>
            rw [← List.cons_append, ← List.append_assoc] at shape
            obtain ⟨rfl, same⟩ := List.append_inj' shape rfl
            cases same
            have up := ih.mpr ⟨before, parsed, after, rfl, fun reason lost =>
              kept reason (List.mem_append_left _ lost)⟩
            cases callback with
            | connectionLost reason =>
                exact absurd (List.mem_append_right _ (List.mem_singleton_self _)) (kept reason)
            | welcome => rfl
            | remoteDelta | serverEvent => exact up

/-!
## Whole runs
-/

section Runs

variable (varToString : Var → String) (measure : ClientThreads.Measure)
  (events : List ThreadEvent)

def threadActions : List ThreadAction := (threadsTrace varToString measure events).flatMap (·.output)

theorem sessions_run : Sessions (threadActions varToString measure events)
    (threadsAfter varToString measure events) := by
  refine Machine.history_invariant (ClientThreads.step measure)
    (fun history threads => Sessions (history.flatMap (·.output)) threads)
    (.initial varToString) ?_ events
  intro history threads event sessions
  rw [List.flatMap_append, List.flatMap_cons, List.flatMap_nil, List.append_nil]
  exact sessions.step measure event

theorem marshalledUnder_run (flag : AliveFlag) :
    marshalledUnder flag (threadActions varToString measure events) =
      (threadsTrace varToString measure events).flatMap (incoming flag) := by
  unfold threadActions
  induction events using List.reverseRecOn with
  | nil => rfl
  | append_singleton events event ih =>
      rw [threadsTrace, Machine.trace_concat, ← threadsTrace]
      simp only [List.flatMap_append, List.flatMap_cons, List.flatMap_nil, List.append_nil,
        marshalledUnder_append, ih]
      exact congrArg _ (marshalledUnder_step measure flag _ event)

/-- In any interleaving of the two threads, the callbacks of a session run in the order of its
frames, none twice and none left out, while the session lasts and never after it. -/
theorem callbacks_keep_session (flag : AliveFlag) :
    performedUnder flag (threadActions varToString measure events) <+:
        (threadsTrace varToString measure events).flatMap (incoming flag) ∧
      ((threadsAfter varToString measure events).flags flag = true →
        performedUnder flag (threadActions varToString measure events) ++
            pendingUnder flag (threadsAfter varToString measure events).queue =
          (threadsTrace varToString measure events).flatMap (incoming flag)) ∧
      ∀ row ∈ threadsTrace varToString measure events, .crashed ∉ row.output ∧
        ∀ callback, .performed flag callback ∈ row.output →
          row.before.impl.alive = some flag ∧ row.before.stopping = none := by
  have sessions := sessions_run varToString measure events
  rw [← marshalledUnder_run]
  refine ⟨sessions.prefixed flag, sessions.inOrder flag, ?_⟩
  intro row member
  constructor
  · exact fun crashed => sessions.uncrashed (List.mem_flatMap.mpr ⟨row, member, crashed⟩)
  · intro callback performed
    obtain ⟨earlier, later, rfl, shape⟩ := Machine.mem_trace _ member
    have before := sessions_run varToString measure earlier
    rw [shape] at performed ⊢
    exact (before.live flag).mp (live_of_performed performed)

/-- The client takes itself for connected exactly while its own current session has been
welcomed, and not lost since. -/
theorem connected_iff_welcomed :
    (threadsAfter varToString measure events).component.connected = true ↔
      ∃ flag before parsed after, (threadsAfter varToString measure events).impl.alive = some flag ∧
        performedUnder flag (threadActions varToString measure events) =
          before ++ .welcome parsed :: after ∧
        ∀ reason, .connectionLost reason ∉ after := by
  rw [(sessions_run varToString measure events).connected]
  cases alive : (threadsAfter varToString measure events).impl.alive with
  | none => simp
  | some flag =>
      dsimp only
      rw [online_iff]
      constructor
      · rintro ⟨before, parsed, after, shape, kept⟩
        exact ⟨flag, before, parsed, after, rfl, shape, kept⟩
      · intro welcomed
        obtain ⟨own, before, parsed, after, same, shape, kept⟩ := welcomed
        cases same
        exact ⟨before, parsed, after, shape, kept⟩

end Runs

end DjApp.Client
