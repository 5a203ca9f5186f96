import DjApp.Client.Sessions

/-! What the frames of a server can make the transport do of itself: a request for each delta
that was missed, and a line in the log for each kind of bad frame. -/

set_option autoImplicit false

namespace DjApp.Client

open Library

/-!
## Lines of the log
-/

def isLog (guard : LogGuard) : ThreadAction → Bool
  | .logged own _ => own == guard
  | _ => false

def logLines (guard : LogGuard) (actions : List ThreadAction) : ℕ := actions.countP (isLog guard)

def sentMessages (actions : List ThreadAction) : List ClientMessage :=
  actions.filterMap fun
    | .sent message => some message
    | _ => none

@[simp] theorem logLines_append (guard : LogGuard) (first second : List ThreadAction) :
    logLines guard (first ++ second) = logLines guard first + logLines guard second :=
  List.countP_append

@[simp] theorem sentMessages_append (first second : List ThreadAction) :
    sentMessages (first ++ second) = sentMessages first ++ sentMessages second :=
  List.filterMap_append

/-- A line is logged as its guard is set, and the number of the last frame seen stays. -/
structure Guarded (guard : LogGuard) (threads : ClientThreads) (ran : ThreadsRan) : Prop where
  lines : logLines guard ran.2 + (threads.impl.logged guard).toNat =
    (ran.1.impl.logged guard).toNat

namespace Guarded

variable {guard : LogGuard} {threads : ClientThreads} {ran : ThreadsRan}

theorem stay (same : threads.impl.logged guard = ran.1.impl.logged guard)
    (silent : logLines guard ran.2 = 0) : Guarded guard threads ran :=
  ⟨by rw [silent, Nat.zero_add, same]⟩

theorem andThen {next : ClientThreads → ThreadsRan} (first : Guarded guard threads ran)
    (second : Guarded guard ran.1 (next ran.1)) : Guarded guard threads (ran.andThen next) := by
  have before := first.lines
  have after := second.lines
  refine ⟨?_⟩
  dsimp only [ThreadsRan.andThen]
  rw [logLines_append]
  omega

theorem logOnce (threads : ClientThreads) (own : LogGuard) (bytes : ℕ) :
    Guarded guard threads (threads.logOnce own bytes) := by
  unfold ClientThreads.logOnce
  split
  · exact stay rfl rfl
  · rename_i unset
    by_cases same : own = guard
    · subst same
      exact ⟨by simp [logLines, isLog, unset]⟩
    · have other : guard ≠ own := Ne.symm same
      exact stay (by simp [other]) (by simp [logLines, isLog, same])

variable (measure : ClientThreads.Measure)

theorem sendMessage (threads : ClientThreads) (message : ClientMessage) :
    Guarded guard threads (threads.sendMessage measure message) := by
  unfold ClientThreads.sendMessage
  split
  · exact logOnce threads _ _
  · refine stay rfl ?_
    dsimp only
    split <;> rfl

theorem sendAll (threads : ClientThreads) (messages : List ClientMessage) :
    Guarded guard threads (threads.sendAll measure messages) := by
  induction messages generalizing threads with
  | nil => exact stay rfl rfl
  | cons message rest ih => exact (sendMessage measure threads message).andThen (ih _)

theorem act (threads : ClientThreads) (done : MainComponent × List ClientMessage) :
    Guarded guard threads (threads.act measure done) :=
  ⟨(sendAll measure { threads with component := done.1 } done.2).lines⟩

theorem dispatch (threads : ClientThreads) (msg : Var) (frameBytes : ℕ) :
    Guarded guard threads (threads.dispatch measure msg frameBytes) := by
  unfold ClientThreads.dispatch
  split
  · exact stay rfl rfl
  · split
    · exact logOnce threads _ _
    · exact (sendAll measure threads _).andThen (stay rfl rfl)
  · exact stay rfl rfl
  · exact stay rfl rfl
  · exact stay rfl rfl
  · exact stay rfl rfl
  · exact stay rfl rfl
  · exact logOnce threads _ _

theorem networkStep (threads : ClientThreads) (event : NetworkEvent) :
    Guarded guard threads (threads.networkStep measure event) := by
  cases event with
  | opened => exact sendAll measure threads _
  | closed | error => exact stay rfl rfl
  | message frame =>
      unfold ClientThreads.networkStep ClientThreads.handleMessage
      dsimp only
      split
      · exact logOnce threads _ _
      · split
        · exact logOnce threads _ _
        · split
          · exact dispatch measure threads _ _
          · exact logOnce threads _ _

theorem messageStep (threads : ClientThreads) (event : MessageEvent) :
    Guarded guard threads (threads.messageStep measure event) := by
  cases event with
  | connectButton => exact stay rfl rfl
  | edit now delta => exact act measure threads _
  | tick now => exact act measure threads _
  | claimButton =>
      unfold ClientThreads.messageStep
      dsimp only
      split
      · exact sendMessage measure threads _
      · exact stay rfl rfl
  | callback now =>
      unfold ClientThreads.messageStep ClientThreads.runCallback
      dsimp only
      split
      · exact stay rfl rfl
      · exact stay rfl rfl
      · split
        · exact andThen (stay rfl rfl) (act measure _ _)
        · exact stay rfl rfl

end Guarded

/-- The step that opens a socket. -/
def opensSocket (row : ThreadEntry) : Bool :=
  match row.input with
  | .socketStopped => row.before.stopping.isSome && row.after.impl.socket
  | .network _ | .message _ => false

theorem guarded_step (measure : ClientThreads.Measure) (guard : LogGuard) (threads : ClientThreads)
    (event : ThreadEvent)
    (keeps : opensSocket (Machine.entry (ClientThreads.step measure) threads event) = false) :
    logLines guard (threads.step measure event).2 + (threads.impl.logged guard).toNat ≤
      ((threads.step measure event).1.impl.logged guard).toNat := by
  cases event with
  | network event =>
      dsimp only [ClientThreads.step]
      split
      · exact (Guarded.networkStep measure threads event).lines.le
      · exact Nat.le_of_eq (Nat.zero_add _)
  | message event =>
      dsimp only [ClientThreads.step]
      split
      · exact (Guarded.messageStep measure threads event).lines.le
      · exact Nat.le_of_eq (Nat.zero_add _)
  | socketStopped =>
      cases waiting : threads.stopping with
      | none =>
          simp only [ClientThreads.step, waiting]
          exact Nat.le_of_eq (Nat.zero_add _)
      | some next =>
          simp only [opensSocket, Machine.entry, waiting, Option.isSome_some, Bool.true_and,
            ClientThreads.step] at keeps
          simp only [ClientThreads.step, waiting]
          cases next with
          | disconnect => exact Nat.le_of_eq (Nat.zero_add _)
          | connect name room =>
              cases built : buildHello name room with
              | error reason =>
                  simp only [ClientThreads.resume, ClientThreads.connect, built]
                  exact Nat.le_of_eq (Nat.zero_add _)
              | ok hello => simp [ClientThreads.resume, ClientThreads.connect, built] at keeps

/-- Opening a socket logs nothing of its own. -/
theorem silent_of_opensSocket (measure : ClientThreads.Measure) (guard : LogGuard)
    (threads : ClientThreads) (event : ThreadEvent)
    (opens : opensSocket (Machine.entry (ClientThreads.step measure) threads event) = true) :
    logLines guard (threads.step measure event).2 = 0 := by
  cases event with
  | network | message => cases opens
  | socketStopped =>
      cases waiting : threads.stopping with
      | none => simp [opensSocket, Machine.entry, waiting] at opens
      | some next =>
          simp only [ClientThreads.step, waiting]
          cases next with
          | disconnect => rfl
          | connect name room =>
              cases built : buildHello name room with
              | error reason =>
                  simp only [ClientThreads.resume, ClientThreads.connect, built]
                  rfl
              | ok hello =>
                  simp only [ClientThreads.resume, ClientThreads.connect, built]
                  rfl

/-- A stretch of a run that opens no socket logs a kind of line once at most. -/
theorem logLines_le_one (measure : ClientThreads.Measure) (guard : LogGuard)
    {threads : ClientThreads} {events : List ThreadEvent}
    (keeps : ∀ row ∈ Machine.trace (ClientThreads.step measure) threads events,
      opensSocket row = false) :
    logLines guard ((Machine.trace (ClientThreads.step measure) threads events).flatMap
      (·.output)) ≤ 1 := by
  refine (Machine.history_invariant_of (ClientThreads.step measure)
    (fun row => opensSocket row = false)
    (fun history now => logLines guard (history.flatMap (·.output)) ≤
      (now.impl.logged guard).toNat) (Nat.zero_le _) ?_ keeps).trans (Bool.toNat_le _)
  intro history now event before same
  have after := guarded_step measure guard now event same
  rw [List.flatMap_append, List.flatMap_cons, List.flatMap_nil, List.append_nil, logLines_append]
  change _ + logLines guard (now.step measure event).2 ≤ _
  omega

/-- However many bad frames come, each kind of them is logged at most once on a socket: from the
step that opens it, or from the start, until the next one is opened. -/
theorem logged_once_per_socket (varToString : Var → String) (measure : ClientThreads.Measure)
    (events : List ThreadEvent) (guard : LogGuard) {earlier socket later : List ThreadEntry}
    (shape : threadsTrace varToString measure events = earlier ++ (socket ++ later))
    (single : ∀ row ∈ socket.tail, opensSocket row = false) :
    logLines guard (socket.flatMap (·.output)) ≤ 1 := by
  obtain ⟨first, rest, rfl, -, split⟩ := Machine.trace_append_split _ shape
  obtain ⟨own, last, rfl, rfl, -⟩ := Machine.trace_append_split _ split.symm
  clear shape split
  cases own with
  | nil => exact Nat.zero_le _
  | cons event own =>
      have others := logLines_le_one measure guard single
      rw [Machine.trace, List.flatMap_cons, logLines_append]
      cases opens : opensSocket (Machine.entry (ClientThreads.step measure)
          (Machine.run (ClientThreads.step measure) (.started varToString) first) event) with
      | true =>
          have silent := silent_of_opensSocket measure guard _ event opens
          exact (Nat.add_le_add_right silent.le _).trans ((Nat.zero_add _).le.trans others)
      | false =>
          have all : ∀ row ∈ Machine.trace (ClientThreads.step measure)
              (Machine.run (ClientThreads.step measure) (.started varToString) first) (event :: own),
              opensSocket row = false := List.forall_mem_cons.mpr ⟨opens, single⟩
          have bounded := logLines_le_one measure guard all
          rwa [Machine.trace, List.flatMap_cons, logLines_append] at bounded

def binaryFrames : List ThreadEvent :=
  [.socketStopped, .network (.message ⟨true, 7, none⟩), .network (.message ⟨true, 9, none⟩)]

def connectsTwice : List ThreadEvent :=
  [.message (.connectButton "Ana" "party")] ++ binaryFrames ++
    [.message (.connectButton "Ana" "party")]

theorem logged_once_per_socket_twice :
    logLines .binaryFrame
        (threadActions (fun _ => "") (fun _ => 26) (connectsTwice ++ binaryFrames)) = 2 ∧
      logLines .binaryFrame
        ((Machine.trace (ClientThreads.step fun _ => 26)
          (threadsAfter (fun _ => "") (fun _ => 26) connectsTwice)
          binaryFrames).flatMap (·.output)) ≤ 1 := by
  refine ⟨by decide +kernel, ?_⟩
  apply logged_once_per_socket (fun _ => "") (fun _ => 26) (connectsTwice ++ binaryFrames)
    .binaryFrame
  · rw [List.append_nil]
    exact Machine.trace_append (ClientThreads.step fun _ => 26) (.started fun _ => "")
      connectsTwice binaryFrames
  · decide +kernel

/-!
## Requests for a snapshot
-/

def isDeltaMessage (msg : Var) : Bool :=
  messageType msg == "delta" && (parseDeltaMessage msg).toOption.isSome

/-- The number that a message shows to the transport. -/
def shownNumber (msg : Var) : Option ℕ :=
  if messageType msg = "welcome" ∨ messageType msg = "snapshot" ∨ isDeltaMessage msg = true then
    messageServerSeq msg else none

def NetworkEvent.shown : NetworkEvent → Option ℕ
  | .message frame => frame.message.bind shownNumber
  | .opened | .closed _ | .error => none

/-- The numbers shown in the session of a flag. -/
def numbersUnder (flag : AliveFlag) (rows : List ThreadEntry) : List ℕ :=
  rows.flatMap fun row =>
    match row.input with
    | .network event =>
        if row.before.impl.socket = true ∧ row.before.impl.alive = some flag then
          event.shown.toList else []
    | .message _ | .socketStopped => []

/-!
## The last number seen
-/

section Numbers

variable (measure : ClientThreads.Measure) (threads : ClientThreads)

theorem lastSeen_logOnce (guard : LogGuard) (bytes : ℕ) :
    (threads.logOnce guard bytes).1.impl.lastSeenServerSeq = threads.impl.lastSeenServerSeq := by
  unfold ClientThreads.logOnce
  split <;> rfl

theorem lastSeen_sendMessage (message : ClientMessage) :
    (threads.sendMessage measure message).1.impl.lastSeenServerSeq =
      threads.impl.lastSeenServerSeq := by
  unfold ClientThreads.sendMessage
  split
  · exact lastSeen_logOnce threads _ _
  · rfl

theorem lastSeen_sendAll (messages : List ClientMessage) :
    (threads.sendAll measure messages).1.impl.lastSeenServerSeq =
      threads.impl.lastSeenServerSeq := by
  induction messages generalizing threads with
  | nil => rfl
  | cons message rest ih => exact (ih _).trans (lastSeen_sendMessage measure threads message)

theorem lastSeen_messageStep (event : MessageEvent) :
    (threads.messageStep measure event).1.impl.lastSeenServerSeq =
      threads.impl.lastSeenServerSeq := by
  cases event with
  | connectButton => rfl
  | edit now delta => exact lastSeen_sendAll measure _ _
  | tick now => exact lastSeen_sendAll measure _ _
  | claimButton =>
      unfold ClientThreads.messageStep
      dsimp only
      split
      · exact lastSeen_sendMessage measure threads _
      · rfl
  | callback now =>
      unfold ClientThreads.messageStep ClientThreads.runCallback
      dsimp only
      split
      · rfl
      · rfl
      · split
        · exact lastSeen_sendAll measure _ _
        · rfl

theorem lastSeen_dispatch (msg : Var) (frameBytes : ℕ) :
    (threads.dispatch measure msg frameBytes).1.impl.lastSeenServerSeq =
      (shownNumber msg).or threads.impl.lastSeenServerSeq := by
  unfold ClientThreads.dispatch shownNumber isDeltaMessage
  generalize messageType msg = kind
  split
  · simp [ClientThreads.marshal, ClientThreads.noteSeq]
  · cases parsed : parseDeltaMessage msg with
    | error reason => simp [lastSeen_logOnce, Except.toOption]
    | ok delta =>
        have asked := lastSeen_sendAll measure threads (if ClientApp.needsSnapshot
          threads.impl.lastSeenServerSeq (messageServerSeq msg) then [.requestSnapshot] else [])
        simp only [ThreadsRan.andThen, ClientThreads.marshal, ClientThreads.noteSeq]
        rw [asked]
        simp [Except.toOption]
  all_goals simp_all [ClientThreads.marshal, ClientThreads.noteSeq, lastSeen_logOnce]

theorem lastSeen_networkStep (event : NetworkEvent) :
    (threads.networkStep measure event).1.impl.lastSeenServerSeq =
      event.shown.or threads.impl.lastSeenServerSeq := by
  cases event with
  | opened => exact lastSeen_sendAll measure threads _
  | closed | error => rfl
  | message frame =>
      change (threads.handleMessage measure frame).1.impl.lastSeenServerSeq =
        (frame.message.bind shownNumber).or threads.impl.lastSeenServerSeq
      cases dispatched : frame.message with
      | some msg =>
          rw [ClientThreads.handleMessage_of_some dispatched]
          exact lastSeen_dispatch measure threads msg _
      | none =>
          obtain ⟨guard, dropped⟩ := ClientThreads.handleMessage_of_none measure threads dispatched
          rw [dropped]
          exact lastSeen_logOnce threads _ _

theorem sent_logOnce (guard : LogGuard) (bytes : ℕ) :
    sentMessages (threads.logOnce guard bytes).2 = [] := by
  unfold ClientThreads.logOnce
  split <;> rfl

theorem sendAll_request (fits : measure buildRequestSnapshot ≤ wireLimit)
    (opened : threads.impl.socket = true) :
    threads.sendAll measure [.requestSnapshot] = (threads, [.sent .requestSnapshot]) := by
  have small : ¬wireLimit < measure (ClientMessage.toVar .requestSnapshot) := Nat.not_lt.mpr fits
  simp [ClientThreads.sendAll, ClientThreads.sendMessage, ThreadsRan.andThen, small, opened]

theorem sent_dispatch (fits : measure buildRequestSnapshot ≤ wireLimit)
    (opened : threads.impl.socket = true) (msg : Var) (frameBytes : ℕ) :
    sentMessages (threads.dispatch measure msg frameBytes).2 =
      if isDeltaMessage msg = true ∧
        ClientApp.needsSnapshot threads.impl.lastSeenServerSeq (messageServerSeq msg) = true then
        [.requestSnapshot] else [] := by
  unfold ClientThreads.dispatch isDeltaMessage
  generalize messageType msg = kind
  split
  · rfl
  · cases parsed : parseDeltaMessage msg with
    | error reason => exact sent_logOnce threads _ _
    | ok delta =>
        cases missed : ClientApp.needsSnapshot threads.impl.lastSeenServerSeq
          (messageServerSeq msg) with
        | false => rfl
        | true =>
            dsimp only
            rw [if_pos rfl, sendAll_request measure threads fits opened]
            rfl
  · rfl
  · rfl
  · rfl
  · rfl
  · rfl
  · simp_all [sent_logOnce]

end Numbers

/-- What a client with one thread does at once on a message is what the two threads do one
after the other. -/
theorem ClientApp.dispatch_of_callback (app : ClientApp) (now : ℚ) {msg : Var} {callback : Callback}
    (dispatched : dispatchedCallback msg = some callback) :
    app.dispatch now msg =
      (⟨(app.component.perform now callback).1, (shownNumber msg).or app.lastSeenServerSeq⟩,
        (if isDeltaMessage msg = true ∧
            needsSnapshot app.lastSeenServerSeq (messageServerSeq msg) = true then
          [.requestSnapshot] else []) ++ (app.component.perform now callback).2) := by
  unfold dispatchedCallback at dispatched
  unfold dispatch shownNumber isDeltaMessage
  generalize messageType msg = kind at dispatched
  split at dispatched
  · cases dispatched
    rfl
  · cases parsed : parseDeltaMessage msg with
    | error reason => simp [parsed, Except.toOption] at dispatched
    | ok delta =>
        simp only [parsed, Except.toOption, Option.map_some, Option.some.injEq] at dispatched
        cases dispatched
        simp [dispatchDelta, parsed, withComponent, noteSeq, Except.toOption, MainComponent.perform]
  · cases dispatched
    rfl
  · cases dispatched
    rfl
  · cases dispatched
    rfl
  · cases dispatched
    rfl
  · cases dispatched
    rfl
  · cases dispatched

/-- Every frame of a room comes to a callback. -/
theorem dispatchedCallback_toVar {config : Server.RoomConfig} {frame : Server.Frame}
    (valid : frame.Valid config) : ∃ callback, dispatchedCallback frame.toVar = some callback := by
  cases frame with
  | delta serverSeq source deck changes =>
      have type : messageType (Server.Frame.delta serverSeq source deck changes).toVar = "delta" := by
        simp [Server.Frame.toVar, Server.Frame.asJson, messageType]
      refine ⟨.remoteDelta (StateDelta.ofChanges deck changes).clamp, ?_⟩
      simp only [dispatchedCallback, type, parseDeltaMessage_delta serverSeq source deck valid]
      rfl
  | welcome | peerJoined | peerLeft | roleChanged | snapshot | error =>
      apply Option.isSome_iff_exists.mp
      simp [dispatchedCallback, Server.Frame.toVar, Server.Frame.asJson, messageType]

/-!
## Numbers under the current session
-/

/-- The number last shown in the session of the socket is the one the transport compares
the next delta with. -/
structure Numbered (rows : List ThreadEntry) (threads : ClientThreads) : Prop where
  older : ∀ flag, threads.impl.alive = some flag → flag < threads.allocated
  unborn : ∀ flag, threads.allocated ≤ flag → numbersUnder flag rows = []
  last : threads.impl.socket = true → ∀ flag, threads.impl.alive = some flag →
    threads.impl.lastSeenServerSeq = (numbersUnder flag rows).getLast?

namespace Numbered

variable {measure : ClientThreads.Measure} {rows : List ThreadEntry} {threads : ClientThreads}

theorem numbersUnder_concat (flag : AliveFlag) (rows : List ThreadEntry) (row : ThreadEntry) :
    numbersUnder flag (rows ++ [row]) = numbersUnder flag rows ++ numbersUnder flag [row] :=
  List.flatMap_append

theorem getLast?_append_toList (numbers : List ℕ) (number : Option ℕ) :
    (numbers ++ number.toList).getLast? = number.or numbers.getLast? := by
  cases number with
  | none => simp
  | some number => simp

theorem initial (varToString : Var → String) : Numbered [] (.started varToString) where
  older flag current := by cases current
  unborn flag _ := rfl
  last running := by cases running

/-- A step that keeps the socket and its flag, and shows this number. -/
theorem keeps (numbered : Numbered rows threads) (shown : Option ℕ) {row : ThreadEntry}
    {next : ClientThreads} (alive : next.impl.alive = threads.impl.alive)
    (allocated : next.allocated = threads.allocated)
    (socket : next.impl.socket = threads.impl.socket)
    (seen : next.impl.lastSeenServerSeq = shown.or threads.impl.lastSeenServerSeq)
    (numbers : ∀ flag, numbersUnder flag [row] =
      if threads.impl.alive = some flag then shown.toList else []) :
    Numbered (rows ++ [row]) next where
  older := by
    rw [alive, allocated]
    exact numbered.older
  unborn flag fresh := by
    rw [allocated] at fresh
    have unlike : threads.impl.alive ≠ some flag := fun own =>
      absurd (numbered.older flag own) (Nat.not_lt.mpr fresh)
    rw [numbersUnder_concat, numbered.unborn flag fresh, numbers, if_neg unlike, List.append_nil]
  last running flag own := by
    rw [socket] at running
    rw [alive] at own
    rw [numbersUnder_concat, numbers, if_pos own, getLast?_append_toList, seen,
      numbered.last running flag own]

theorem silent (numbered : Numbered rows threads) {row : ThreadEntry}
    {next : ClientThreads} (alive : next.impl.alive = threads.impl.alive)
    (allocated : next.allocated = threads.allocated)
    (socket : next.impl.socket = threads.impl.socket)
    (seen : next.impl.lastSeenServerSeq = threads.impl.lastSeenServerSeq)
    (numbers : ∀ flag, numbersUnder flag [row] = []) : Numbered (rows ++ [row]) next :=
  numbered.keeps none alive allocated socket seen fun flag => by
    rw [numbers, Option.toList_none, ite_self]

theorem network (numbered : Numbered rows threads) (event : NetworkEvent) :
    Numbered (rows ++ [Machine.entry (ClientThreads.step measure) threads (.network event)])
      (threads.step measure (.network event)).1 := by
  cases running : threads.impl.socket with
  | false =>
      have same : threads.step measure (.network event) = (threads, []) := by
        simp [ClientThreads.step, running]
      rw [same]
      refine numbered.silent rfl rfl rfl rfl fun flag => ?_
      simp [numbersUnder, Machine.entry, running]
  | true =>
      have same : threads.step measure (.network event) = threads.networkStep measure event := by
        simp [ClientThreads.step, running]
      have turns := Turns.networkStep measure threads event
      rw [same]
      refine numbered.keeps event.shown turns.alive turns.allocated turns.socket
        (lastSeen_networkStep measure threads event) fun flag => ?_
      simp [numbersUnder, Machine.entry, running]

theorem message (numbered : Numbered rows threads) (event : MessageEvent) :
    Numbered (rows ++ [Machine.entry (ClientThreads.step measure) threads (.message event)])
      (threads.step measure (.message event)).1 := by
  have seen : (threads.step measure (.message event)).1.impl.lastSeenServerSeq =
      threads.impl.lastSeenServerSeq := by
    cases free : threads.stopping with
    | none =>
        simp only [ClientThreads.step, free]
        exact lastSeen_messageStep measure threads event
    | some next => simp only [ClientThreads.step, free]
  have moved := stepped measure threads (.message event)
  generalize threads.step measure (.message event) = ran at moved seen ⊢
  cases moved with
  | idle | skips | crashes | clicks => exact numbered.silent rfl rfl rfl seen fun _ => rfl
  | acts _ component _ same turns =>
      exact numbered.silent turns.alive turns.allocated turns.socket seen fun _ => rfl
  | runs now flag callback rest component _ free shape live connects turns =>
      exact numbered.silent turns.alive turns.allocated turns.socket seen fun _ => rfl

/-- A new session has shown no number. -/
theorem socketStopped (numbered : Numbered rows threads) :
    Numbered (rows ++ [Machine.entry (ClientThreads.step measure) threads .socketStopped])
      (threads.step measure .socketStopped).1 := by
  have numbers : ∀ flag, numbersUnder flag
      (rows ++ [Machine.entry (ClientThreads.step measure) threads .socketStopped]) =
        numbersUnder flag rows := by
    intro flag
    rw [numbersUnder_concat]
    exact List.append_nil _
  have moved := stepped measure threads .socketStopped
  generalize Machine.entry (ClientThreads.step measure) threads .socketStopped = row at numbers ⊢
  generalize threads.step measure .socketStopped = ran at moved ⊢
  cases moved with
  | idle =>
      refine ⟨numbered.older, ?_, ?_⟩
      · intro flag fresh
        rw [numbers]
        exact numbered.unborn flag fresh
      · intro running flag own
        rw [numbers]
        exact numbered.last running flag own
  | resumes next waiting =>
      cases next with
      | disconnect =>
          refine ⟨fun flag own => ?_, fun flag fresh => ?_, fun running => ?_⟩
          · cases own
          · rw [numbers]
            exact numbered.unborn flag fresh
          · cases running
      | connect name room =>
          have fresh : ∀ flag, threads.allocated + 1 ≤ flag →
              numbersUnder flag (rows ++ [row]) = [] := by
            intro flag later
            rw [numbers]
            exact numbered.unborn flag ((Nat.le_succ _).trans later)
          simp only [ClientThreads.resume, ClientThreads.connect]
          split
          · refine ⟨fun flag own => ?_, fresh, fun running => ?_⟩
            · cases own
              exact Nat.lt_succ_self _
            · cases running
          · refine ⟨fun flag own => ?_, fresh, fun _ flag own => ?_⟩
            · cases own
              exact Nat.lt_succ_self _
            · cases own
              rw [numbers]
              exact (congrArg List.getLast? (numbered.unborn threads.allocated le_rfl)).symm

theorem run (varToString : Var → String) (measure : ClientThreads.Measure) (events : List ThreadEvent) :
    Numbered (threadsTrace varToString measure events) (threadsAfter varToString measure events) := by
  refine Machine.history_invariant (ClientThreads.step measure) Numbered (.initial varToString) ?_ events
  intro history threads event numbered
  cases event with
  | network event => exact numbered.network event
  | message event => exact numbered.message event
  | socketStopped => exact numbered.socketStopped

end Numbered

/-- In any interleaving of the two threads, a frame makes the network thread send something
exactly if it is a delta whose number does not rise above the last one shown in its session,
and then one request for a snapshot. -/
theorem requests_iff_missed {varToString : Var → String} {measure : ClientThreads.Measure}
    (fits : measure buildRequestSnapshot ≤ wireLimit) (events : List ThreadEvent)
    (frame : InboundFrame) {flag : AliveFlag}
    (opened : (threadsAfter varToString measure events).impl.socket = true)
    (current : (threadsAfter varToString measure events).impl.alive = some flag) :
    sentMessages
        ((threadsAfter varToString measure events).step measure (.network (.message frame))).2 =
      match frame.message with
      | some msg =>
          if isDeltaMessage msg = true ∧ ClientApp.needsSnapshot
            (numbersUnder flag (threadsTrace varToString measure events)).getLast?
            (messageServerSeq msg) = true
          then [.requestSnapshot] else []
      | none => [] := by
  have last := (Numbered.run varToString measure events).last opened flag current
  generalize threadsAfter varToString measure events = threads at opened last
  simp only [ClientThreads.step, opened, ↓reduceIte, ClientThreads.networkStep]
  cases dispatched : frame.message with
  | some msg =>
      rw [ClientThreads.handleMessage_of_some dispatched, sent_dispatch measure threads fits opened,
        last]
  | none =>
      obtain ⟨guard, dropped⟩ := ClientThreads.handleMessage_of_none measure threads dispatched
      rw [dropped, sent_logOnce]

def numberedFrame (type : String) (serverSeq : ℕ) (others : Properties) : InboundFrame :=
  ⟨false, 100, some (.obj ([("type", .str type), ("serverSeq", .num (.finite serverSeq))] ++ others))⟩

def repeatedDelta : InboundFrame :=
  numberedFrame "delta" 3 [("deck", .str "A"), ("changes", .obj [("repeat", .bool false)])]

def welcomedSession : List ThreadEvent :=
  [.message (.connectButton "Ana" "party"), .socketStopped,
    .network (.message (numberedFrame "welcome" 3 []))]

theorem requests_iff_missed_repeated :
    sentMessages ((threadsAfter (fun _ => "") (fun _ => 26) welcomedSession).step (fun _ => 26)
      (.network (.message repeatedDelta))).2 = [.requestSnapshot] := by
  have opened : (threadsAfter (fun _ => "") (fun _ => 26) welcomedSession).impl.socket = true := by
    decide +kernel
  have current : (threadsAfter (fun _ => "") (fun _ => 26) welcomedSession).impl.alive = some 0 := by
    decide +kernel
  exact (requests_iff_missed (by decide) welcomedSession repeatedDelta opened current).trans
    (by decide +kernel)

end DjApp.Client
