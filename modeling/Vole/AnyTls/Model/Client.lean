import Vole.AnyTls.Model.Session
import Vole.Common.Runs
import Vole.Common.Table

/-!
# The AnyTLS client

The pool of sessions, the tasks that open streams, the calls of
`Session::fail` and the tasks that wait for an acknowledgement. Every one
of them is somewhere in its function, and a step takes one of them to its
next access of something shared.

A caller of `fail` waits for it to return; here it may go on, which adds
runs and takes none away. The sessions are found by their sequence.
-/

namespace Vole.AnyTls

/-- `client::IDLE_TIMEOUT`, in nanoseconds. -/
def idleTimeout : ℕ := 30 * 10 ^ 9

/-- Where a task that opens a stream is: in `open_stream`, in `open_reused`
for a session from the pool, and in `open_fresh` and `register_and_start`
for a new one. -/
inductive Opening where
  | taking
  | found (sequence : ℕ)
  | unclosed (sequence : ℕ)
  | marked (sequence : ℕ)
  | numbered (sequence streamId : ℕ)
  | sending (sequence streamId : ℕ)
  | waiting (sequence streamId : ℕ)
  | written (sequence streamId : ℕ)
  | fresh
  | dialing (sequence : ℕ)
  | prepared (sequence : ℕ)
  | registered (sequence : ℕ)
  | unregistering (sequence : ℕ)
  | ended
  deriving DecidableEq, Repr

/-- Where a call of `Session::fail` is. `skipped` and `returned` are its two
ends. -/
inductive FailPlace where
  | swap
  | store
  | cancel
  | take
  | remove
  | returned
  | skipped
  deriving DecidableEq, Repr

/-- A call of `Session::fail` on a session. -/
structure Failing where
  sequence : ℕ
  call : Call
  place : FailPlace
  deriving DecidableEq, Repr

/-- A task that waits for the acknowledgement of a stream. -/
structure Waiter where
  sequence : ℕ
  streamId : ℕ
  done : Bool
  deriving DecidableEq, Repr

/-- `client::AnyTlsClient`, with its sessions and all tasks. `alive` is
whether the client is there. -/
structure Client where
  closed : Bool
  cancelled : Bool
  alive : Bool
  nextSequence : ℕ
  sessions : List ℕ
  idle : Table ℕ ℕ
  session : ℕ → Session
  opens : List Opening
  fails : List Failing
  waiters : List Waiter

/-- What can happen next. -/
inductive ClientEvent where
  /-- `open_stream` is called, and `ensure_cleanup` lets it in. -/
  | begin
  /-- The next access of a task that opens a stream. -/
  | advance (opening : ℕ)
  /-- Dialing has ended, with a session or an error. -/
  | dialed (opening : ℕ) (ok : Bool)
  /-- A task that waits is dropped, or its deadline passes. -/
  | abort (opening : ℕ) (timedOut : Bool)
  /-- The next access of a call of `fail`. -/
  | fail (call : ℕ)
  /-- A waiter sees its channel, its deadline or its token. -/
  | acknowledged (waiter : ℕ)
  | waiterTimedOut (waiter : ℕ)
  | waiterCancelled (waiter : ℕ)
  /-- An access of the loops and the streams of a session. -/
  | session (sequence : ℕ) (event : SessionEvent)
  /-- `return_idle`, from `release_stream`. -/
  | returnIdle (sequence now : ℕ)
  /-- `expire_idle`, with the shutdowns that follow. -/
  | expire (now : ℕ)
  /-- `begin_shutdown`: the part under the lock with the shutdowns that
  follow, and the cancellation. -/
  | shutdown
  | cancel
  /-- The client is dropped. -/
  | drop

namespace Client

variable (self : Client)

/-- `AnyTlsClient::new`. -/
def new : Client where
  closed := false
  cancelled := false
  alive := true
  nextSequence := 0
  sessions := []
  idle := ∅
  session := fun _ => {}
  opens := []
  fails := []
  waiters := []

/-- A change of a session. -/
def withSession (sequence : ℕ) (f : Session → Session) : Client :=
  { self with session := Function.update self.session sequence (f (self.session sequence)) }

/-- Calls of `fail` on a session. -/
def callFail (sequence : ℕ) (calls : List Call) : Client :=
  { self with fails := self.fails ++ calls.map fun call => ⟨sequence, call, .swap⟩ }

/-- A task that opens a stream goes on. -/
def goOn (opening : ℕ) (place : Opening) : Client :=
  { self with opens := self.opens.set opening place }

/-- `Session::begin_shutdown`. -/
def beginShutdown (caller : Caller) : Call :=
  ⟨caller, ⟨.interrupted, "AnyTLS client is shutting down"⟩⟩

/-! ## The pool -/

/-- `AnyTlsClient::take_idle`, over the sequences from the last. -/
def takeIdleLoop : List ℕ → Table ℕ ℕ → Option ℕ × Table ℕ ℕ
  | [], idle => (none, idle)
  | sequence :: rest, idle =>
    let idle := idle.erase sequence
    if sequence ∈ self.sessions ∧ ¬ (self.session sequence).closed then (some sequence, idle)
    else takeIdleLoop rest idle

/-- `AnyTlsClient::take_idle`. -/
def takeIdle : Option ℕ × Table ℕ ℕ :=
  self.takeIdleLoop (self.idle.keys.mergeSort (· ≥ ·)) self.idle

/-- `AnyTlsClient::session_closed`. -/
def sessionClosed (sequence : ℕ) : Client :=
  { self with
    sessions := self.sessions.filter (· ≠ sequence)
    idle := self.idle.erase sequence }

/-- `AnyTlsClient::return_idle`. -/
def returnIdle (sequence now : ℕ) : Client :=
  if self.closed ∨ (self.session sequence).closed then
    self.callFail sequence [beginShutdown .shutdown]
  else if sequence ∈ self.sessions then { self with idle := self.idle.insert sequence now }
  else self.callFail sequence [beginShutdown .shutdown]

/-- `AnyTlsClient::expire_idle` and the shutdowns of `cleanup_idle`. -/
def expireIdle (now : ℕ) : Client :=
  let expired := (self.idle.entries.filter fun entry => idleTimeout ≤ now - entry.2).map (·.1)
  { self with
    idle := self.idle.retain fun _ since => ¬ idleTimeout ≤ now - since
    fails := self.fails ++ (expired.filter (· ∈ self.sessions)).map fun sequence =>
      ⟨sequence, beginShutdown .expiry, .swap⟩ }

/-- The shutdown of every session. -/
def shutdownSessions : List Failing :=
  self.sessions.map fun sequence => ⟨sequence, beginShutdown .shutdown, .swap⟩

/-- The token of the client and its children. -/
def cancelSessions : Client :=
  { self with
    cancelled := true
    session := fun sequence => { self.session sequence with cancelled := true } }

/-! ## Opening a stream -/

/-- The text of the `DispatchError` that `context.run_io` makes of an
error. -/
def dispatchText (error : IoError) : String :=
  match error.kind with
  | .permissionDenied => "connection is not allowed"
  | .networkUnreachable => "network is unreachable"
  | .hostUnreachable => "host is unreachable"
  | .connectionRefused => "connection was refused"
  | .timedOut => "operation timed out"
  | _ => "dispatcher error: " ++ error.text

/-- The calls of `fail` of an open that has filled the slot and fails: its
own, and the one of its guard. -/
def openErrors (streamId : ℕ) (error : IoError) : List Call :=
  [⟨.opening streamId, ⟨.connectionAborted, dispatchText error⟩⟩,
    ⟨.opening streamId, ⟨.connectionAborted, "AnyTLS reused stream open was cancelled"⟩⟩]

/-- An open that has filled the slot fails, and a new session is dialed. -/
def failOpen (opening sequence streamId : ℕ) (error : IoError) : Client :=
  let self := self.withSession sequence (·.withStream streamId ({ · with receiver := false }))
  (self.callFail sequence (openErrors streamId error)).goOn opening .fresh

/-- The next access of a task that opens a stream. -/
def advance (opening : ℕ) : Opening → Option Client
  | .taking =>
    match self.takeIdle with
    | (some sequence, idle) => some ({ self with idle }.goOn opening (.found sequence))
    | (none, idle) => some ({ self with idle }.goOn opening .fresh)
  | .found sequence =>
    if (self.session sequence).closed then some (self.goOn opening .fresh)
    else some (self.goOn opening (.unclosed sequence))
  | .unclosed sequence =>
    -- `Session::try_mark_active`
    if (self.session sequence).state = .idle then
      some ((self.withSession sequence ({ · with state := .active })).goOn opening
        (.marked sequence))
    else some (self.goOn opening .fresh)
  | .marked sequence =>
    let current := (self.session sequence).nextStreamId
    if current < 2 ^ 32 - 1 then
      some ((self.withSession sequence ({ · with nextStreamId := current + 1 })).goOn opening
        (.numbered sequence (current + 1)))
    else
      some ((self.callFail sequence
        [⟨.opening 0, ⟨.other, "AnyTLS stream ID exhausted"⟩⟩]).goOn opening .fresh)
  | .numbered sequence streamId =>
    if (self.session sequence).active.isSome then
      some ((self.callFail sequence [⟨.opening streamId,
        protocolError "AnyTLS session retained an active stream"⟩]).goOn opening .fresh)
    else
      let self := self.withSession sequence fun session =>
        { session.withStream streamId fun _ => .fresh with
          active := some ⟨streamId, true⟩
          openDone := none }
      some (self.goOn opening (.sending sequence streamId))
  | .sending sequence streamId =>
    if (self.session sequence).writer = .stopped then
      some (self.failOpen opening sequence streamId (closedPipe "AnyTLS writer stopped"))
    else if (self.session sequence).hasRoom then
      some ((self.withSession sequence (·.enqueue (.openStream streamId))).goOn opening
        (.waiting sequence streamId))
    else none
  | .waiting sequence streamId =>
    match (self.session sequence).openDone with
    | some (.ok ()) => some (self.goOn opening (.written sequence streamId))
    | some (.error error) => some (self.failOpen opening sequence streamId error)
    | none =>
      if (self.session sequence).writer = .stopped then
        some (self.failOpen opening sequence streamId (closedPipe "AnyTLS writer stopped"))
      else none
  | .written sequence streamId =>
    let waiters :=
      if 2 ≤ (self.session sequence).peerVersion then self.waiters ++ [⟨sequence, streamId, false⟩]
      else self.waiters
    let self := self.withSession sequence (·.withStream streamId ({ · with handle := true }))
    some ({ self with waiters }.goOn opening .ended)
  | .fresh =>
    if self.nextSequence < 2 ^ 64 - 1 then
      some ({ self with nextSequence := self.nextSequence + 1 }.goOn opening
        (.dialing (self.nextSequence + 1)))
    else some (self.goOn opening .ended)
  | .prepared sequence =>
    -- `register_and_start`, under the lock
    if self.closed then
      let self := self.withSession sequence fun session =>
        { session.withStream 1 ({ · with receiver := false, closeQueued := true }) with
          writer := .stopped }
      some ((self.callFail sequence [beginShutdown .shutdown]).goOn opening .ended)
    else
      let self := self.withSession sequence
        ({ · with writer := .waiting, reader := .reading })
      some ({ self with sessions := self.sessions ++ [sequence] }.goOn opening
        (.registered sequence))
  | .registered sequence =>
    let place : Opening :=
      if (self.session sequence).closed then .unregistering sequence else .ended
    let self := self.withSession sequence (·.withStream 1 ({ · with handle := true }))
    some (self.goOn opening place)
  | .unregistering sequence => some ((self.sessionClosed sequence).goOn opening .ended)
  | .dialing _ => none
  | .ended => none

/-- A task that waits is dropped, or its deadline passes. -/
def abort (opening : ℕ) (timedOut : Bool) : Opening → Option Client
  | .sending sequence streamId => some (stop sequence streamId)
  | .waiting sequence streamId => some (stop sequence streamId)
  | .dialing _ => some (self.goOn opening .ended)
  | _ => none
where
  stop (sequence streamId : ℕ) : Client :=
    if timedOut then
      self.failOpen opening sequence streamId ⟨.timedOut, "operation timed out"⟩
    else
      let self := self.withSession sequence (·.withStream streamId ({ · with receiver := false }))
      (self.callFail sequence [⟨.opening streamId,
        ⟨.connectionAborted, "AnyTLS reused stream open was cancelled"⟩⟩]).goOn opening .ended

/-! ## Failing a session -/

/-- A call of `fail` goes on. -/
def failOn (index : ℕ) (failing : Failing) (place : FailPlace) : Client :=
  { self with fails := self.fails.set index { failing with place } }

/-- The next access of a call of `Session::fail`. -/
def fail (config : Config) (index : ℕ) (failing : Failing) : Option Client :=
  let sequence := failing.sequence
  match failing.place with
  | .swap =>
    if (self.session sequence).closed then some (self.failOn index failing .skipped)
    else
      some ((self.withSession sequence ({ · with closed := true })).failOn index failing .store)
  | .store =>
    some ((self.withSession sequence ({ · with state := .closed })).failOn index failing .cancel)
  | .cancel =>
    some ((self.withSession sequence ({ · with cancelled := true })).failOn index failing .take)
  | .take =>
    some ((self.withSession sequence (·.failActive config failing.call.error)).failOn index failing
      .remove)
  | .remove =>
    some ((if self.alive then self.sessionClosed sequence else self).failOn index failing .returned)
  | .returned => none
  | .skipped => none

/-! ## The waiters -/

/-- A waiter ends, and fails the session with these calls. -/
def endWaiter (index : ℕ) (waiter : Waiter) (calls : List Call) : Client :=
  ({ self with waiters := self.waiters.set index { waiter with done := true } } : Client).callFail
    waiter.sequence calls

/-- What a waiter makes of its channel. -/
def acknowledged (index : ℕ) (waiter : Waiter) : Option Client :=
  match ((self.session waiter.sequence).stream waiter.streamId).acknowledgement with
  | .pending => none
  | .sent (.ok ()) => some (self.endWaiter index waiter [])
  | .sent (.error error) =>
    some (self.endWaiter index waiter [⟨.waiter waiter.streamId .answered, error⟩])
  | .dropped =>
    some (self.endWaiter index waiter [⟨.waiter waiter.streamId .stopped,
      closedPipe "AnyTLS SYNACK waiter stopped"⟩])

/-- A waiter that is not done. -/
def waiting (index : ℕ) : Option Waiter := self.waiters[index]?.filter fun waiter => !waiter.done

/-- **A step of the client.** -/
def step (config : Config) : ClientEvent → Option Client
  | .begin =>
    if self.closed ∨ ¬ self.alive then none
    else some { self with opens := self.opens ++ [.taking] }
  | .advance opening => self.opens[opening]?.bind (self.advance opening)
  | .dialed opening ok =>
    match self.opens[opening]? with
    | some (.dialing sequence) =>
      if ok then
        some ((self.withSession sequence fun _ => .prepared self.cancelled).goOn opening
          (.prepared sequence))
      else some (self.goOn opening .ended)
    | _ => none
  | .abort opening timedOut => self.opens[opening]?.bind (self.abort opening timedOut)
  | .fail call => self.fails[call]?.bind (self.fail config call)
  | .acknowledged index => (self.waiting index).bind (self.acknowledged index)
  | .waiterTimedOut index => (self.waiting index).bind fun waiter =>
    -- `timeout` looks at the channel first
    match ((self.session waiter.sequence).stream waiter.streamId).acknowledgement with
    | .pending => some (self.endWaiter index waiter [⟨.waiter waiter.streamId .timedOut,
        ⟨.timedOut, "AnyTLS SYNACK timed out"⟩⟩])
    | _ => none
  | .waiterCancelled index => (self.waiting index).bind fun waiter =>
    if (self.session waiter.sequence).cancelled then some (self.endWaiter index waiter []) else none
  | .session sequence event =>
    ((self.session sequence).step config event).map fun (session, calls) =>
      (self.withSession sequence fun _ => session).callFail sequence calls
  | .returnIdle sequence now =>
    match (self.session sequence).writer with
    | .releasing streamId waited .freed active =>
      let returned :=
        if self.alive then self.returnIdle sequence now
        else
          self.callFail sequence [⟨.shutdown, ⟨.brokenPipe, "AnyTLS client no longer exists"⟩⟩]
      some (returned.withSession sequence
        ({ · with writer := .releasing streamId waited .returned active }))
    | _ => none
  | .expire now => if self.alive then some (self.expireIdle now) else none
  | .shutdown =>
    if self.closed ∨ ¬ self.alive then none
    else some { self with closed := true, idle := ∅, fails := self.fails ++ self.shutdownSessions }
  | .cancel => if self.closed then some self.cancelSessions else none
  | .drop =>
    if self.alive ∧ self.opens.all (· == .ended) then
      some { self.cancelSessions with
        alive := false
        sessions := []
        idle := ∅
        fails := self.fails ++ self.shutdownSessions }
    else none

end Client

end Vole.AnyTls
