import DjApp.Client.TokenListenerList

/-! Stores whose listeners may change the store, and the registrations, from inside their
callbacks, nested to any depth. -/

set_option autoImplicit false

namespace DjApp.Client

/-- A store that announces its changes: what an input makes of the state and what the listeners
are told of it, if anything, and when a walk that tells them is given up. -/
structure Announcer (State Input Message : Type) where
  update : State → Input → State × Option Message
  superseded : Message → State → Bool

/-- A call of a listener, with the state that it can read. -/
structure ListenerCall (State Message : Type) where
  token : ℕ
  message : Message
  state : State

inductive StoreOperation (Input : Type) where
  | update (input : Input)
  | addListener
  | removeListener (token : ℕ)

/-- A store with its registrations and all the calls it has made. -/
structure Observed (State Message : Type) where
  state : State
  list : TokenListenerList := {}
  calls : List (ListenerCall State Message) := []

namespace Observed

variable {State Input Message : Type}

def called (store : Observed State Message) (token : ℕ) (message : Message) :
    Observed State Message :=
  { store with calls := store.calls ++ [⟨token, message, store.state⟩] }

/-- What a listener does in its callback. It may depend on all the calls so far, of which the
last is its own. -/
abbrev Callbacks (State Input Message : Type) :=
  List (ListenerCall State Message) → List (StoreOperation Input)

/-- An operation with all that the callbacks do meanwhile. One that is not done within the fuel
has no result. -/
def perform (announcer : Announcer State Input Message)
    (callbacks : Callbacks State Input Message) :
    ℕ → Observed State Message → StoreOperation Input → Option (Observed State Message)
  | 0 => fun _ _ => none
  | fuel + 1 => fun store operation =>
      match operation with
      | .addListener => some { store with list := store.list.addListener }
      | .removeListener token => some { store with list := store.list.removeListener token }
      | .update input =>
          match announcer.update store.state input with
          | (state, none) => some { store with state := state }
          | (state, some message) =>
              TokenListenerList.notify Observed.list
                (fun token store =>
                  (callbacks (store.called token message).calls).foldlM
                    (perform announcer callbacks fuel) (store.called token message))
                (fun store => announcer.superseded message store.state)
                fuel { store with state := state }

def since (before after : Observed State Message) : List (ListenerCall State Message) :=
  after.calls.drop before.calls.length

/-- What no operation undoes: a token that has been issued is not registered again once it is
removed, and a call is not taken back. -/
structure Frame (before after : Observed State Message) : Prop where
  issued : before.list.nextToken ≤ after.list.nextToken
  removed : ∀ token, token < before.list.nextToken → token ∈ after.list.listeners →
    token ∈ before.list.listeners
  calls : before.calls <+: after.calls

variable {before middle after store : Observed State Message}

theorem Frame.evolves (frame : Frame before after) : before.list.Evolves after.list :=
  ⟨frame.issued, frame.removed⟩

theorem frame_of_evolves (evolves : before.list.Evolves after.list)
    (calls : before.calls <+: after.calls) : Frame before after :=
  ⟨evolves.issued, evolves.removed, calls⟩

theorem Frame.refl (store : Observed State Message) : Frame store store :=
  frame_of_evolves (.refl store.list) List.prefix_rfl

theorem Frame.trans (first : Frame before middle) (second : Frame middle after) :
    Frame before after :=
  frame_of_evolves (first.evolves.trans second.evolves) (first.calls.trans second.calls)

/-- A token registered before and after an operation was registered all the time. -/
theorem Frame.registered (first : Frame before middle) (second : Frame middle after) {token : ℕ}
    (earlier : token ∈ before.list.listeners) (later : token ∈ after.list.listeners) :
    token ∈ middle.list.listeners :=
  first.evolves.registered second.evolves earlier later

theorem since_self (store : Observed State Message) : store.since store = [] := by
  simp [since]

theorem Frame.since_trans (first : Frame before middle) (second : Frame middle after) :
    before.since after = before.since middle ++ middle.since after := by
  obtain ⟨told, calls⟩ := first.calls
  obtain ⟨later, more⟩ := second.calls
  rw [since, since, since, ← more, List.drop_left, ← calls, List.append_assoc, List.drop_left,
    List.drop_left]

theorem frame_addListener (store : Observed State Message) :
    Frame store { store with list := store.list.addListener } :=
  frame_of_evolves (TokenListenerList.evolves_addListener store.list) List.prefix_rfl

theorem frame_removeListener (store : Observed State Message) (token : ℕ) :
    Frame store { store with list := store.list.removeListener token } :=
  frame_of_evolves (TokenListenerList.evolves_removeListener store.list token) List.prefix_rfl

theorem frame_state (store : Observed State Message) (state : State) :
    Frame store { store with state := state } :=
  frame_of_evolves (.refl store.list) List.prefix_rfl

theorem frame_called (store : Observed State Message) (token : ℕ) (message : Message) :
    Frame store (store.called token message) :=
  frame_of_evolves (.refl store.list) (List.prefix_append _ _)

@[simp] theorem since_called (store : Observed State Message) (token : ℕ) (message : Message) :
    store.since (store.called token message) = [⟨token, message, store.state⟩] := by
  simp [since, called]

/-- A walk keeps what its callbacks keep. -/
theorem notify_frame {invoke : ℕ → Observed State Message → Option (Observed State Message)}
    {shouldStop : Observed State Message → Bool} {message : Message}
    (keeps : ∀ token before after, invoke token before = some after →
      Frame (before.called token message) after) {fuel : ℕ}
    (returned : TokenListenerList.notify Observed.list invoke shouldStop fuel before = some after) :
    Frame before after := by
  have kept := TokenListenerList.notify_rule (Frame before) (Frame before) (fun _ _ => True)
    (fun token first second _ start _ invoked => by
      have next := start.trans ((frame_called first token message).trans
        (keeps token first second invoked))
      exact ⟨fun _ => next, fun _ => ⟨next, fun _ _ _ => trivial⟩⟩) (Frame.refl before) returned
  exact kept.elim id And.left

theorem foldlM_rule (spec : Observed State Message → Observed State Message → Prop)
    {step : Observed State Message → StoreOperation Input → Option (Observed State Message)}
    (refl : ∀ store, spec store store)
    (trans : ∀ first second third, spec first second → spec second third → spec first third)
    (each : ∀ store operation after, step store operation = some after → spec store after)
    {operations : List (StoreOperation Input)}
    (returned : operations.foldlM step before = some after) : spec before after := by
  induction operations generalizing before with
  | nil =>
      cases returned
      exact refl _
  | cons operation rest ih =>
      obtain ⟨next, performed, later⟩ := Option.bind_eq_some_iff.mp returned
      exact trans _ _ _ (each before operation next performed) (ih later)

/-- A callback has done its operations after the call that was made of it. -/
def CallsKeep (spec : Observed State Message → Observed State Message → Prop) (message : Message)
    (invoke : ℕ → Observed State Message → Option (Observed State Message)) : Prop :=
  ∀ token before after, invoke token before = some after →
    Frame (before.called token message) after ∧ spec (before.called token message) after

/-- What holds of each kind of operation, of an update if it holds of all that its callbacks
do, and composes. -/
structure OperationRule (announcer : Announcer State Input Message)
    (spec : Observed State Message → Observed State Message → Prop) : Prop where
  refl : ∀ store, spec store store
  trans : ∀ first second third, Frame first second → Frame second third →
    spec first second → spec second third → spec first third
  registration : ∀ (store : Observed State Message) (list : TokenListenerList),
    spec store { store with list := list }
  silent : ∀ (store : Observed State Message) (input : Input) (state : State),
    announcer.update store.state input = (state, none) → spec store { store with state := state }
  told : ∀ (store : Observed State Message) (input : Input) (state : State) (message : Message)
    (invoke : ℕ → Observed State Message → Option (Observed State Message)) (fuel : ℕ)
    (after : Observed State Message), announcer.update store.state input = (state, some message) →
      CallsKeep spec message invoke →
      TokenListenerList.notify Observed.list invoke
        (fun store => announcer.superseded message store.state) fuel
        { store with state := state } = some after →
      spec store after

section Rule

variable {announcer : Announcer State Input Message} {callbacks : Callbacks State Input Message}
  {spec : Observed State Message → Observed State Message → Prop}

/-- The callbacks of a walk keep what the operations they do keep. -/
theorem OperationRule.callsKeep (rule : OperationRule announcer spec) {fuel : ℕ}
    (each : ∀ (before after : Observed State Message) operation,
      perform announcer callbacks fuel before operation = some after →
        Frame before after ∧ spec before after) (message : Message) :
    CallsKeep spec message fun token store =>
      (callbacks (store.called token message).calls).foldlM (perform announcer callbacks fuel)
        (store.called token message) := by
  intro token before after performed
  refine foldlM_rule (fun first second => Frame first second ∧ spec first second) ?_ ?_ ?_ performed
  · exact fun store => ⟨Frame.refl store, rule.refl store⟩
  · intro first second third left right
    exact ⟨left.1.trans right.1, rule.trans first second third left.1 right.1 left.2 right.2⟩
  · exact fun store operation after once => each store after operation once

theorem OperationRule.perform (rule : OperationRule announcer spec) {fuel : ℕ}
    {operation : StoreOperation Input}
    (returned : Observed.perform announcer callbacks fuel before operation = some after) :
    Frame before after ∧ spec before after := by
  induction fuel generalizing before operation after with
  | zero => cases returned
  | succ fuel ih =>
      cases operation with
      | addListener =>
          cases returned
          exact ⟨frame_addListener before, rule.registration before _⟩
      | removeListener token =>
          cases returned
          exact ⟨frame_removeListener before token, rule.registration before _⟩
      | update input =>
          simp only [Observed.perform] at returned
          cases updated : announcer.update before.state input with
          | mk state message =>
              cases message with
              | none =>
                  simp only [updated, Option.some.injEq] at returned
                  rw [← returned]
                  exact ⟨frame_state before state, rule.silent before input state updated⟩
              | some message =>
                  simp only [updated] at returned
                  have keeps := rule.callsKeep (fun _ _ _ once => ih once) message
                  have frame := notify_frame (fun token first second performed =>
                    (keeps token first second performed).1) returned
                  exact ⟨(frame_state before state).trans frame,
                    rule.told before input state message _ _ after updated keeps returned⟩

/-- An update that is told is a walk whose callbacks keep the rule. -/
theorem OperationRule.walk_of_told (rule : OperationRule announcer spec) {fuel : ℕ} {input : Input}
    {state : State} {message : Message}
    (updated : announcer.update before.state input = (state, some message))
    (returned : Observed.perform announcer callbacks fuel before (.update input) = some after) :
    ∃ invoke turns, CallsKeep spec message invoke ∧
      TokenListenerList.notify Observed.list invoke
        (fun store => announcer.superseded message store.state) turns
        { before with state := state } = some after := by
  cases fuel with
  | zero => cases returned
  | succ fuel =>
      simp only [Observed.perform, updated] at returned
      exact ⟨_, fuel, rule.callsKeep (fun _ _ _ once => rule.perform once) message, returned⟩

end Rule

section LastCall

variable (tells : Message → Bool)

/-- The last of some calls that told a listener of something. -/
def lastCall (token : ℕ) (calls : List (ListenerCall State Message)) :
    Option (ListenerCall State Message) :=
  (calls.filter fun call => call.token = token && tells call.message).getLast?

variable {tells}

theorem lastCall_append (token : ℕ) (first second : List (ListenerCall State Message)) :
    lastCall tells token (first ++ second) =
      (lastCall tells token second).or (lastCall tells token first) := by
  simp [lastCall, List.getLast?_append]

@[simp] theorem lastCall_nil (token : ℕ) :
    lastCall tells token ([] : List (ListenerCall State Message)) = none := rfl

theorem lastCall_singleton {call : ListenerCall State Message} (told : tells call.message = true) :
    lastCall tells call.token [call] = some call := by
  simp [lastCall, told]

theorem lastCall_singleton_of_not {token : ℕ} {call : ListenerCall State Message}
    (other : ¬ (call.token = token ∧ tells call.message = true)) :
    lastCall tells token [call] = none := by
  simpa [lastCall] using other

theorem exists_lastCall_of_frame {token : ℕ} (left : Frame before middle)
    (right : Frame middle after)
    (called : ∃ call, lastCall tells token (before.since middle) = some call) :
    ∃ call, lastCall tells token (before.since after) = some call := by
  obtain ⟨call, last⟩ := called
  rw [left.since_trans right, lastCall_append, last]
  cases lastCall tells token (middle.since after) with
  | none => exact ⟨call, rfl⟩
  | some later => exact ⟨later, rfl⟩

end LastCall

section UpToDate

variable {Value : Type} (value : State → Value) (tells : Message → Bool)

/-- A listener that was told of a value was last told when the state had its present value, and
one that was not told has missed no change of it. -/
def UpToDate (before after : Observed State Message) : Prop :=
  ∀ token ∈ before.list.listeners, token ∈ after.list.listeners →
    match lastCall tells token (before.since after) with
    | some call => value call.state = value after.state
    | none => value before.state = value after.state

/-- Every listener registered all the time was told. -/
def AllTold (before after : Observed State Message) : Prop :=
  ∀ token ∈ before.list.listeners, token ∈ after.list.listeners →
    ∃ call, lastCall tells token (before.since after) = some call

variable {value tells}

theorem UpToDate.refl (store : Observed State Message) : UpToDate value tells store store := by
  intro token _ _
  rw [since_self]
  rfl

theorem UpToDate.trans (left : Frame before middle) (right : Frame middle after)
    (first : UpToDate value tells before middle) (second : UpToDate value tells middle after) :
    UpToDate value tells before after := by
  intro token earlier later
  have between := left.registered right earlier later
  have start := first token earlier between
  have finish := second token between later
  rw [left.since_trans right, lastCall_append]
  cases last : lastCall tells token (middle.since after) with
  | some call =>
      rw [last] at finish
      exact finish
  | none =>
      rw [last] at finish
      cases previous : lastCall tells token (before.since middle) with
      | some call =>
          rw [previous] at start
          exact start.trans finish
      | none =>
          rw [previous] at start
          exact start.trans finish

/-- A listener that was not told sees the same value before and after. -/
theorem UpToDate.missed {token : ℕ} (current : UpToDate value tells before after)
    (earlier : token ∈ before.list.listeners) (later : token ∈ after.list.listeners)
    (none : lastCall tells token (before.since after) = none) :
    value before.state = value after.state := by
  have seen := current token earlier later
  rw [none] at seen
  exact seen

theorem UpToDate.last {token : ℕ} {call : ListenerCall State Message}
    (current : UpToDate value tells before after)
    (earlier : token ∈ before.list.listeners) (later : token ∈ after.list.listeners)
    (last : lastCall tells token (before.since after) = some call) :
    value call.state = value after.state := by
  have seen := current token earlier later
  rw [last] at seen
  exact seen

/-- A step without calls that leaves the value alone. -/
theorem upToDate_of_quiet (calls : after.calls = before.calls)
    (same : value before.state = value after.state) : UpToDate value tells before after := by
  intro token _ _
  rw [since, calls, List.drop_length]
  exact same

theorem upToDate_called (store : Observed State Message) (token : ℕ) (message : Message) :
    UpToDate value tells store (store.called token message) := by
  intro other _ _
  rw [since_called]
  by_cases own : token = other ∧ tells message = true
  · obtain ⟨rfl, told⟩ := own
    rw [@lastCall_singleton _ _ _ ⟨token, message, store.state⟩ told]
    rfl
  · rw [@lastCall_singleton_of_not _ _ _ other ⟨token, message, store.state⟩ own]
    rfl

/-- A walk tells every listener, unless it is given up, and leaves those it has told up to
date. -/
theorem upToDate_notify {message : Message} {shouldStop : Observed State Message → Bool}
    {invoke : ℕ → Observed State Message → Option (Observed State Message)}
    (keeps : CallsKeep (UpToDate value tells) message invoke) {fuel : ℕ}
    (returned : TokenListenerList.notify Observed.list invoke shouldStop fuel before =
      some after) :
    UpToDate value tells before after ∧
      (shouldStop after = true ∨ (tells message = true → AllTold tells before after)) := by
  have walked := TokenListenerList.notify_rule
    (fun store => Frame before store ∧ UpToDate value tells before store)
    (fun store => UpToDate value tells before store ∧ shouldStop store = true)
    (fun token store => tells message = true → token ∈ before.list.listeners →
      ∃ call, lastCall tells token (before.since store) = some call)
    (by
      rintro token first second member ⟨frame, fresh⟩ passed invoked
      obtain ⟨runs, kept⟩ := keeps token first second invoked
      have call := frame_called first token message
      have current : UpToDate value tells before second := fresh.trans frame (call.trans runs)
        ((upToDate_called first token message).trans call runs kept)
      refine ⟨fun stop => ⟨current, stop⟩, fun _ => ⟨⟨frame.trans (call.trans runs), current⟩, ?_⟩⟩
      intro other later reached told earlier
      rcases reached.lt_or_eq with previous | same
      · have between := frame.registered (call.trans runs) earlier later
        exact exists_lastCall_of_frame frame (call.trans runs)
          (passed other between previous told earlier)
      · subst same
        apply exists_lastCall_of_frame (frame.trans call) runs
        rw [frame.since_trans call, since_called, lastCall_append,
          @lastCall_singleton _ _ _ ⟨other, message, first.state⟩ told]
        exact ⟨_, rfl⟩)
    ⟨Frame.refl before, UpToDate.refl before⟩ returned
  rcases walked with ⟨current, stop⟩ | ⟨⟨_, current⟩, called⟩
  · exact ⟨current, .inl stop⟩
  · exact ⟨current, .inr fun told token earlier later => called token later told earlier⟩

/-- What a store does with a value: it tells of every change of it, and a walk that tells of it
is given up, if at all, once the value has changed again. -/
structure Announcer.Tells (announcer : Announcer State Input Message) (value : State → Value)
    (tells : Message → Bool) : Prop where
  silent : ∀ before input after, announcer.update before input = (after, none) →
    value before = value after
  untold : ∀ before input after message, announcer.update before input = (after, some message) →
    tells message = false → value before = value after
  superseded : ∀ before input after message, announcer.update before input = (after, some message) →
    tells message = true → ∀ state, announcer.superseded message state = true →
      value state ≠ value after

/-- A walk with a message that tells of a value leaves no listener untold. -/
theorem Announcer.Tells.walk {announcer : Announcer State Input Message}
    (announces : Announcer.Tells announcer value tells) {input : Input} {state : State}
    {message : Message} (updated : announcer.update before.state input = (state, some message))
    {invoke : ℕ → Observed State Message → Option (Observed State Message)}
    (keeps : CallsKeep (UpToDate value tells) message invoke) {fuel : ℕ}
    (returned : TokenListenerList.notify Observed.list invoke
      (fun store => announcer.superseded message store.state) fuel
      { before with state := state } = some after) :
    UpToDate value tells before after ∧ (tells message = true → AllTold tells before after) := by
  let start : Observed State Message := { before with state := state }
  obtain ⟨current, ended⟩ := upToDate_notify keeps returned
  have all : tells message = true → AllTold tells start after := by
    intro told token earlier later
    rcases ended with stop | called
    · -- A listener that was not told would have missed the change that gave the walk up.
      cases last : lastCall tells token (start.since after) with
      | some call => exact ⟨call, rfl⟩
      | none =>
          have changed := announces.superseded before.state input state message updated told
            after.state stop
          exact absurd (current.missed earlier later last).symm changed
    · exact called told token earlier later
  refine ⟨fun token earlier later => ?_, all⟩
  cases told : tells message with
  | true =>
      obtain ⟨call, last⟩ := all told token earlier later
      have same := current.last earlier later last
      change match lastCall tells token (start.since after) with | some _ => _ | none => _
      rw [last]
      exact same
  | false =>
      have seen := current token earlier later
      change match lastCall tells token (start.since after) with | some _ => _ | none => _
      cases last : lastCall tells token (start.since after) with
      | some call =>
          rw [last] at seen
          exact seen
      | none =>
          rw [last] at seen
          exact (announces.untold before.state input state message updated told).trans seen

theorem Announcer.Tells.rule {announcer : Announcer State Input Message}
    (announces : Announcer.Tells announcer value tells) :
    OperationRule announcer (UpToDate value tells) where
  refl := UpToDate.refl
  trans _ _ _ left right := UpToDate.trans left right
  registration _ _ := upToDate_of_quiet rfl rfl
  silent store input state updated :=
    upToDate_of_quiet rfl (announces.silent store.state input state updated)
  told _ _ _ _ _ _ _ updated keeps returned := (announces.walk updated keeps returned).1

/-- When an update that tells of a value returns, every listener that was registered before it
and still is has been told, and last when the state had its present value. -/
theorem Announcer.Tells.allTold {announcer : Announcer State Input Message}
    {callbacks : Callbacks State Input Message} (announces : Announcer.Tells announcer value tells)
    {fuel : ℕ} {input : Input} {state : State} {message : Message}
    (updated : announcer.update before.state input = (state, some message))
    (told : tells message = true)
    (returned : perform announcer callbacks fuel before (.update input) = some after) {token : ℕ}
    (earlier : token ∈ before.list.listeners) (later : token ∈ after.list.listeners) :
    ∃ call, lastCall tells token (before.since after) = some call ∧
      value call.state = value after.state := by
  obtain ⟨invoke, turns, keeps, walked⟩ := announces.rule.walk_of_told updated returned
  obtain ⟨current, all⟩ := announces.walk updated keeps walked
  obtain ⟨call, last⟩ := all told token earlier later
  exact ⟨call, last, current.last earlier later last⟩

end UpToDate

end Observed

end DjApp.Client
