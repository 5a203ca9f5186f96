import DjApp.Client.TransportThreads

/-! What one event does to the two threads, as far as the callbacks between them go. -/

set_option autoImplicit false

namespace DjApp.Client

section Actions

variable (flag : AliveFlag)

def marshalledUnder (actions : List ThreadAction) : List Callback :=
  actions.filterMap fun
    | .marshalled alive callback => if alive = some flag then some callback else none
    | _ => none

def performedUnder (actions : List ThreadAction) : List Callback :=
  actions.filterMap fun
    | .performed alive callback => if alive = flag then some callback else none
    | _ => none

def pendingUnder (queue : List (Option AliveFlag × Callback)) : List Callback :=
  queue.filterMap fun entry => if entry.1 = some flag then some entry.2 else none

/-- What concerns the queue, and not the wire or the log. -/
def ThreadAction.queued : ThreadAction → Bool
  | .marshalled _ _ | .performed _ _ | .crashed => true
  | .sent _ | .logged _ _ => false

def queuedActions (actions : List ThreadAction) : List ThreadAction :=
  actions.filter ThreadAction.queued

@[simp] theorem queuedActions_append (first second : List ThreadAction) :
    queuedActions (first ++ second) = queuedActions first ++ queuedActions second :=
  List.filter_append ..

@[simp] theorem marshalledUnder_append (first second : List ThreadAction) :
    marshalledUnder flag (first ++ second) =
      marshalledUnder flag first ++ marshalledUnder flag second :=
  List.filterMap_append

@[simp] theorem performedUnder_append (first second : List ThreadAction) :
    performedUnder flag (first ++ second) =
      performedUnder flag first ++ performedUnder flag second :=
  List.filterMap_append

@[simp] theorem pendingUnder_append (first second : List (Option AliveFlag × Callback)) :
    pendingUnder flag (first ++ second) = pendingUnder flag first ++ pendingUnder flag second :=
  List.filterMap_append

theorem queuedActions_queuedActions (actions : List ThreadAction) :
    queuedActions (queuedActions actions) = queuedActions actions := by
  simp [queuedActions, List.filter_filter]

theorem mem_queuedActions_crashed {actions : List ThreadAction} :
    .crashed ∈ queuedActions actions ↔ .crashed ∈ actions := by
  simp [queuedActions, List.mem_filter, ThreadAction.queued]

theorem marshalledUnder_queuedActions (actions : List ThreadAction) :
    marshalledUnder flag (queuedActions actions) = marshalledUnder flag actions := by
  rw [marshalledUnder, queuedActions, List.filterMap_filter, marshalledUnder]
  apply List.filterMap_congr
  intro action _
  cases action with
  | marshalled | performed | crashed => rfl
  | sent | logged => rfl

theorem performedUnder_queuedActions (actions : List ThreadAction) :
    performedUnder flag (queuedActions actions) = performedUnder flag actions := by
  rw [performedUnder, queuedActions, List.filterMap_filter, performedUnder]
  apply List.filterMap_congr
  intro action _
  cases action with
  | marshalled | performed | crashed => rfl
  | sent | logged => rfl

end Actions

/-- A turn leaves the threads as `next`, the logs and the sequence number apart, and has
these actions for the queue. -/
structure Turns (next : ClientThreads) (queued : List ThreadAction) (ran : ThreadsRan) : Prop where
  component : ran.1.component = next.component
  queue : ran.1.queue = next.queue
  flags : ran.1.flags = next.flags
  allocated : ran.1.allocated = next.allocated
  stopping : ran.1.stopping = next.stopping
  alive : ran.1.impl.alive = next.impl.alive
  socket : ran.1.impl.socket = next.impl.socket
  actions : queuedActions ran.2 = queued

namespace Turns

variable {threads next : ClientThreads} {queued more : List ThreadAction} {ran : ThreadsRan}

theorem stay (next : ClientThreads) {actions : List ThreadAction}
    (actions_eq : queuedActions actions = queued) : Turns next queued (next, actions) :=
  ⟨rfl, rfl, rfl, rfl, rfl, rfl, rfl, actions_eq⟩

theorem congr {other : ClientThreads} (turns : Turns next queued ran)
    (same : Turns other [] (next, [])) : Turns other queued ran :=
  ⟨turns.component.trans same.component, turns.queue.trans same.queue,
    turns.flags.trans same.flags, turns.allocated.trans same.allocated,
    turns.stopping.trans same.stopping, turns.alive.trans same.alive,
    turns.socket.trans same.socket, turns.actions⟩

theorem andThen {step : ClientThreads → ThreadsRan} (first : Turns threads queued ran)
    (second : Turns ran.1 more (step ran.1)) : Turns threads (queued ++ more) (ran.andThen step) :=
  ⟨second.component.trans first.component, second.queue.trans first.queue,
    second.flags.trans first.flags, second.allocated.trans first.allocated,
    second.stopping.trans first.stopping, second.alive.trans first.alive,
    second.socket.trans first.socket, by
      rw [ThreadsRan.andThen, queuedActions_append, first.actions, second.actions]⟩

/-- The actions of what came before are kept. -/
theorem prepend (turns : Turns next queued ran) (before : List ThreadAction) :
    Turns next (queuedActions before ++ queued) (ran.1, before ++ ran.2) :=
  ⟨turns.component, turns.queue, turns.flags, turns.allocated, turns.stopping, turns.alive,
    turns.socket, by rw [queuedActions_append, turns.actions]⟩

theorem logOnce (threads : ClientThreads) (guard : LogGuard) (bytes : ℕ) :
    Turns threads [] (threads.logOnce guard bytes) := by
  unfold ClientThreads.logOnce
  split
  · exact stay threads rfl
  · exact ⟨rfl, rfl, rfl, rfl, rfl, rfl, rfl, rfl⟩

theorem noteSeq (threads : ClientThreads) (msg : Var) : Turns threads [] (threads.noteSeq msg, []) :=
  ⟨rfl, rfl, rfl, rfl, rfl, rfl, rfl, rfl⟩

theorem marshal (threads : ClientThreads) (callback : Callback) :
    Turns { threads with queue := threads.queue ++ [(threads.impl.alive, callback)] }
      [.marshalled threads.impl.alive callback] (threads.marshal callback) :=
  stay _ rfl

/-- The steps before the capture of a callback do not show. -/
theorem marshal_of (callback : Callback) {other : ClientThreads}
    (same : Turns threads [] (other, [])) :
    Turns { threads with queue := threads.queue ++ [(threads.impl.alive, callback)] }
      [.marshalled threads.impl.alive callback] (other.marshal callback) := by
  obtain ⟨component, queue, flags, allocated, stopping, alive, socket, _⟩ := same
  dsimp only at component queue flags allocated stopping alive socket
  have captured := marshal other callback
  rw [queue, alive] at captured
  exact captured.congr ⟨component, rfl, flags, allocated, stopping, alive, socket, rfl⟩

variable (measure : ClientThreads.Measure)

theorem sendMessage (threads : ClientThreads) (message : ClientMessage) :
    Turns threads [] (threads.sendMessage measure message) := by
  unfold ClientThreads.sendMessage
  split
  · exact logOnce threads _ _
  · apply stay
    split <;> rfl

theorem sendAll (threads : ClientThreads) (messages : List ClientMessage) :
    Turns threads [] (threads.sendAll measure messages) := by
  induction messages generalizing threads with
  | nil => exact stay threads rfl
  | cons message rest ih => exact (sendMessage measure threads message).andThen (ih _)

theorem act (threads : ClientThreads) (done : MainComponent × List ClientMessage) :
    Turns { threads with component := done.1 } [] (threads.act measure done) :=
  sendAll measure _ done.2

end Turns

/-- What a message does to the queue if it is dispatched. -/
def dispatchedCallback (msg : Var) : Option Callback :=
  match messageType msg with
  | "welcome" => some (.welcome msg)
  | "delta" => (parseDeltaMessage msg).toOption.map fun delta => .remoteDelta delta.clamp
  | "snapshot" | "roleChanged" | "peerJoined" | "peerLeft" | "error" => some (.serverEvent msg)
  | _ => none

/-- The message of a frame, if the frame is not dropped. -/
def InboundFrame.message (frame : InboundFrame) : Option Var :=
  if frame.binary || decide (wireLimit < frame.bytes) then none
  else
    match frame.parsed with
    | some (.obj fields) => some (.obj fields)
    | _ => none

def InboundFrame.callback (frame : InboundFrame) : Option Callback :=
  frame.message.bind dispatchedCallback

def NetworkEvent.callback : NetworkEvent → Option Callback
  | .opened => none
  | .message frame => frame.callback
  | .closed code => some (.connectionLost (describeCloseCode code))
  | .error => some (.connectionLost "connection error")

namespace ClientThreads

theorem handleMessage_of_some {measure : Measure} {threads : ClientThreads} {frame : InboundFrame}
    {msg : Var} (dispatched : frame.message = some msg) :
    threads.handleMessage measure frame = threads.dispatch measure msg frame.bytes := by
  unfold InboundFrame.message at dispatched
  unfold handleMessage
  cases binary : frame.binary with
  | true => simp [binary] at dispatched
  | false =>
      by_cases large : wireLimit < frame.bytes
      · simp [binary, large] at dispatched
      · simp only [binary, large, Bool.false_eq_true, decide_false, Bool.or_self, ↓reduceIte]
          at dispatched ⊢
        cases parsed : frame.parsed with
        | none => simp [parsed] at dispatched
        | some value =>
            rw [parsed] at dispatched
            cases value with
            | obj fields =>
                cases dispatched
                rfl
            | null | bool | num | str | arr => cases dispatched

/-- A frame that is dropped does at most write to the log. -/
theorem handleMessage_of_none (measure : Measure) (threads : ClientThreads) {frame : InboundFrame}
    (dropped : frame.message = none) :
    ∃ guard, threads.handleMessage measure frame = threads.logOnce guard frame.bytes := by
  unfold InboundFrame.message at dropped
  unfold handleMessage
  cases binary : frame.binary with
  | true => exact ⟨.binaryFrame, rfl⟩
  | false =>
      by_cases large : wireLimit < frame.bytes
      · exact ⟨.oversizeFrame, by simp [large]⟩
      · refine ⟨.malformedFrame, ?_⟩
        simp only [binary, large, Bool.false_eq_true, decide_false, Bool.or_self, ↓reduceIte]
          at dropped ⊢
        cases parsed : frame.parsed with
        | none => rfl
        | some value =>
            rw [parsed] at dropped
            cases value with
            | obj fields => cases dropped
            | null | bool | num | str | arr => rfl

end ClientThreads

/-- The queue with what was captured, under the flag that is current. -/
def ClientThreads.captured (threads : ClientThreads) (callback : Option Callback) :
    ClientThreads :=
  { threads with
    queue := threads.queue ++ callback.toList.map fun callback => (threads.impl.alive, callback) }

def ClientThreads.captures (threads : ClientThreads) (callback : Option Callback) :
    List ThreadAction :=
  callback.toList.map (.marshalled threads.impl.alive)

namespace Turns

variable (measure : ClientThreads.Measure) (threads : ClientThreads)

theorem quiet {ran : ThreadsRan} (turns : Turns threads [] ran) :
    Turns (threads.captured none) (threads.captures none) ran := by
  simpa [ClientThreads.captured, ClientThreads.captures] using turns

/-- A request for a snapshot leaves no trace in the queue. -/
theorem asks (msg : Var) (delta : StateDelta) (messages : List ClientMessage) :
    Turns (threads.captured (some (.remoteDelta delta)))
      (threads.captures (some (.remoteDelta delta)))
      ((threads.sendAll measure messages).andThen fun next =>
        (next.noteSeq msg).marshal (.remoteDelta delta)) := by
  have asked := sendAll measure threads messages
  have noted := (noteSeq (threads.sendAll measure messages).1 msg).congr
    ⟨asked.component, asked.queue, asked.flags, asked.allocated, asked.stopping, asked.alive,
      asked.socket, rfl⟩
  have done := (marshal_of (Callback.remoteDelta delta) noted).prepend
    (threads.sendAll measure messages).2
  rw [asked.actions] at done
  exact done

theorem dispatch (msg : Var) (frameBytes : ℕ) :
    Turns (threads.captured (dispatchedCallback msg)) (threads.captures (dispatchedCallback msg))
      (threads.dispatch measure msg frameBytes) := by
  have noted := noteSeq threads msg
  unfold ClientThreads.dispatch dispatchedCallback
  generalize messageType msg = kind
  by_cases welcome : kind = "welcome"
  · subst welcome
    exact marshal_of _ noted
  by_cases delta : kind = "delta"
  · subst delta
    cases parsed : parseDeltaMessage msg with
    | error reason => exact quiet threads (logOnce threads _ _)
    | ok delta => exact asks measure threads msg delta.clamp _
  by_cases snapshot : kind = "snapshot"
  · subst snapshot
    exact marshal_of _ noted
  by_cases event : kind ∈ ["roleChanged", "peerJoined", "peerLeft", "error"]
  · simp only [List.mem_cons, List.not_mem_nil, or_false] at event
    obtain rfl | rfl | rfl | rfl := event <;> exact marshal threads _
  · simp only [List.mem_cons, List.not_mem_nil, or_false, not_or] at event
    have unrecognized := quiet threads (logOnce threads LogGuard.unrecognizedType frameBytes)
    simp only [imp_false, event, not_false_eq_true]
    exact unrecognized

theorem handleMessage (frame : InboundFrame) :
    Turns (threads.captured frame.callback) (threads.captures frame.callback)
      (threads.handleMessage measure frame) := by
  unfold InboundFrame.callback
  cases dispatched : frame.message with
  | some msg =>
      rw [ClientThreads.handleMessage_of_some dispatched]
      exact dispatch measure threads msg frame.bytes
  | none =>
      obtain ⟨guard, dropped⟩ := ClientThreads.handleMessage_of_none measure threads dispatched
      rw [dropped]
      exact quiet threads (logOnce threads _ _)

theorem networkStep (event : NetworkEvent) :
    Turns (threads.captured event.callback) (threads.captures event.callback)
      (threads.networkStep measure event) := by
  cases event with
  | opened => exact quiet threads (sendAll measure threads _)
  | message frame => exact handleMessage measure threads frame
  | closed code => exact marshal threads _
  | error => exact marshal threads _

end Turns

/-- Whether a client is connected once it has run the callback. -/
def Callback.connects (connected : Bool) : Callback → Bool
  | .connectionLost _ => false
  | .welcome _ => true
  | .remoteDelta _ | .serverEvent _ => connected

namespace MainComponent

variable (component : MainComponent) (now : ℚ)

theorem connected_applyDelta (delta : StateDelta) (source : DeltaSource) :
    (component.applyDelta now delta source).1.connected = component.connected := by
  unfold applyDelta
  split <;> rfl

theorem connected_applySnapshotDeck (decks : Properties) (deck : DeckId) :
    (component.applySnapshotDeck now decks deck).1.connected = component.connected := by
  unfold applySnapshotDeck applyDeckSnapshot
  split
  · rfl
  · split
    · rfl
    · exact connected_applyDelta component now _ _

theorem connected_applySnapshot (decks : Var) :
    (component.applySnapshot now decks).1.connected = component.connected := by
  unfold applySnapshot
  split
  · exact (connected_applySnapshotDeck _ now _ _).trans (connected_applySnapshotDeck _ now _ _)
  · rfl

theorem connected_handleWelcome (welcome : Var) :
    (component.handleWelcome now welcome).1.connected = component.connected := by
  unfold handleWelcome
  split
  · dsimp only [applyRoleToUI]
    split
    · exact connected_applySnapshot _ now _
    · rfl
  · rfl

theorem connected_handleServerEvent (msg : Var) :
    (component.handleServerEvent now msg).1.connected = component.connected := by
  unfold handleServerEvent
  split
  · split
    · exact connected_applySnapshot component now _
    · unfold handleRoleChanged
      split <;> rfl
    · split <;> rfl
    · rfl
    · rfl
  · rfl

theorem connected_perform (callback : Callback) :
    (component.perform now callback).1.connected = callback.connects component.connected := by
  cases callback with
  | connectionLost reason => rfl
  | welcome parsed => exact connected_handleWelcome _ now parsed
  | remoteDelta delta => exact connected_applyDelta component now delta .remote
  | serverEvent msg => exact connected_handleServerEvent component now msg

end MainComponent

/-- What one event does to the threads. -/
inductive Stepped (threads : ClientThreads) : ThreadEvent → ThreadsRan → Prop where
  | idle (event : ThreadEvent) : Stepped threads event (threads, [])
  | network (event : NetworkEvent) (ran : ThreadsRan) (running : threads.impl.socket = true)
      (turns : Turns (threads.captured event.callback) (threads.captures event.callback) ran) :
      Stepped threads (.network event) ran
  | acts (event : MessageEvent) (component : MainComponent) (ran : ThreadsRan)
      (same : component.connected = threads.component.connected)
      (turns : Turns { threads with component := component } [] ran) :
      Stepped threads (.message event) ran
  | runs (now : ℚ) (flag : AliveFlag) (callback : Callback)
      (rest : List (Option AliveFlag × Callback)) (component : MainComponent) (ran : ThreadsRan)
      (free : threads.stopping = none) (shape : threads.queue = (some flag, callback) :: rest)
      (live : threads.flags flag = true)
      (connects : component.connected = callback.connects threads.component.connected)
      (turns : Turns { threads with queue := rest, component := component }
        [.performed flag callback] ran) :
      Stepped threads (.message (.callback now)) ran
  | skips (now : ℚ) (flag : AliveFlag) (callback : Callback)
      (rest : List (Option AliveFlag × Callback))
      (shape : threads.queue = (some flag, callback) :: rest) (dead : threads.flags flag = false) :
      Stepped threads (.message (.callback now)) ({ threads with queue := rest }, [])
  | crashes (now : ℚ) (callback : Callback) (rest : List (Option AliveFlag × Callback))
      (shape : threads.queue = (none, callback) :: rest) :
      Stepped threads (.message (.callback now)) (threads, [.crashed])
  | clicks (name room : String) :
      Stepped threads (.message (.connectButton name room))
        (threads.flip
          (if threads.component.connected then .disconnect else .connect name room), [])
  | resumes (next : Teardown) (waiting : threads.stopping = some next) :
      Stepped threads .socketStopped (threads.stop.resume next)

theorem stepped (measure : ClientThreads.Measure) (threads : ClientThreads) (event : ThreadEvent) :
    Stepped threads event (threads.step measure event) := by
  cases event with
  | network event =>
      cases running : threads.impl.socket with
      | false =>
          simp only [ClientThreads.step, running, Bool.false_eq_true, ↓reduceIte]
          exact .idle _
      | true =>
          simp only [ClientThreads.step, running, ↓reduceIte]
          exact .network event _ running (Turns.networkStep measure threads event)
  | socketStopped =>
      cases waiting : threads.stopping with
      | none =>
          simp only [ClientThreads.step, waiting]
          exact .idle _
      | some next =>
          simp only [ClientThreads.step, waiting]
          exact .resumes next waiting
  | message event =>
      cases free : threads.stopping with
      | some next =>
          simp only [ClientThreads.step, free]
          exact .idle _
      | none =>
          simp only [ClientThreads.step, free]
          cases event with
          | connectButton name room => exact .clicks name room
          | claimButton =>
              cases online : threads.component.connected with
              | true =>
                  simp only [ClientThreads.messageStep, online, ↓reduceIte]
                  exact .acts _ threads.component _ rfl (Turns.sendMessage measure threads _)
              | false =>
                  simp only [ClientThreads.messageStep, online, Bool.false_eq_true, ↓reduceIte]
                  exact .idle _
          | edit now delta =>
              exact .acts _ _ _ (MainComponent.connected_applyDelta _ now delta .own)
                (Turns.act measure threads _)
          | tick now =>
              exact .acts _ (threads.component.publisherTick now).1 _ rfl
                (Turns.act measure threads _)
          | callback now =>
              simp only [ClientThreads.messageStep, ClientThreads.runCallback]
              match shape : threads.queue with
              | [] => exact .idle _
              | (none, callback) :: rest => exact .crashes now callback rest shape
              | (some flag, callback) :: rest =>
                  cases live : threads.flags flag with
                  | false =>
                      simp only [live, Bool.false_eq_true, ↓reduceIte]
                      exact .skips now flag callback rest shape live
                  | true =>
                      simp only [live, ↓reduceIte]
                      have acted := Turns.act measure { threads with queue := rest }
                        (threads.component.perform now callback)
                      exact .runs now flag callback rest _ _ free shape live
                        (MainComponent.connected_perform _ now callback)
                        (acted.prepend [.performed flag callback])

end DjApp.Client
