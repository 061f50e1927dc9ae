import Vole.Netstack.Driver

/-!
# A turn of the driver

One turn of `Driver::drive_tcp_sockets` keeps the invariant. Beside that
it empties the receive buffer of an inactive socket, provided that the
unread bytes fitted into the queue when the turn began (`Fits`): the loop
that receives then ends only when nothing is left (`Emptied`). No later
access of the turn undoes this, since the only one that makes a socket
inactive is the abort of a stream that was dropped.
-/

namespace Vole.Netstack

open List Bool

variable {P : Type}

/-! ## Knowledge -/

/-- The unread bytes of an inactive socket fit into the queue. -/
def Fits (socket : Socket) (stream : TcpStream) : Prop :=
  stream.owned = true → stream.cramped = false → socket.isActive = false →
    socket.rx.length ≤ stream.handle.appRecv.room

/-- An inactive socket has no unread bytes. -/
def Emptied (socket : Socket) (stream : TcpStream) : Prop :=
  stream.owned = true → stream.cramped = false → socket.isActive = false → socket.rx = []

variable {legal : Prop} {socket : Socket} {stream : TcpStream}

theorem Stable.fits : Stable legal Fits := by
  intro socket stream step hlocal hfits howned hcramped hinactive
  obtain ⟨⟨taken, htaken⟩, hcapacity, -⟩ := TcpStream.step_queues hlocal step
  have hlater := TcpStream.Later.step hlocal step
  have hroom := hfits (hlater.owned howned) (hlater.cramped hcramped) hinactive
  have hlength := congrArg List.length htaken
  rw [length_append] at hlength
  unfold ByteQueue.room at hroom ⊢
  omega

theorem Stable.emptied : Stable legal Emptied := by
  intro socket stream step hlocal hemptied howned hcramped hinactive
  have hlater := TcpStream.Later.step hlocal step
  exact hemptied (hlater.owned howned) (hlater.cramped hcramped) hinactive

/-- An inactive socket that has unread bytes can be read. -/
theorem Socket.canRecv_of_not_isActive (h : socket.isActive = false) :
    socket.canRecv = !socket.rx.isEmpty := by
  unfold canRecv mayRecv
  unfold isActive at h
  split at h <;> simp_all

/-- The loop that receives stops with nothing left. -/
theorem Fits.emptied_of_stop (h : Fits socket stream)
    (hstop : (socket.canRecv && !stream.handle.appRecv.isFull) = false) :
    Emptied socket stream := by
  intro howned hcramped hinactive
  have hcan := Socket.canRecv_of_not_isActive hinactive
  by_cases hfull : stream.handle.appRecv.isFull = true
  · -- a full queue takes no more, so nothing was left that fitted
    have hlength : stream.handle.appRecv.bytes.length = stream.handle.appRecv.capacity := by
      simpa [ByteQueue.isFull] using hfull
    have hle := h howned hcramped hinactive
    unfold ByteQueue.room at hle
    exact eq_nil_of_length_eq_zero (by omega)
  · have hnone : socket.canRecv = false := by simp_all
    rw [hnone] at hcan
    simpa using hcan.symm

/-- A delivery moves as many bytes as there are and fit. -/
theorem deliver_moves (socket : Socket) (stream : TcpStream) (front : ℕ) :
    (stream.deliver (socket.readable front)).1 =
        min (min (max front 1) socket.rx.length) stream.handle.appRecv.room ∧
      (stream.deliver (socket.readable front)).2.handle.appRecv.room =
        stream.handle.appRecv.room - (stream.deliver (socket.readable front)).1 := by
  have hcount : (stream.deliver (socket.readable front)).1 =
      min (min (max front 1) socket.rx.length) stream.handle.appRecv.room := by
    show min (socket.readable front).length stream.handle.appRecv.room = _
    rw [Socket.readable, length_take]
  refine ⟨hcount, ?_⟩
  show stream.handle.appRecv.capacity -
    (stream.handle.appRecv.write (socket.readable front)).2.bytes.length = _
  rw [ByteQueue.write_bytes, length_append, length_take]
  show _ - (_ + min (stream.deliver (socket.readable front)).1 (socket.readable front).length) = _
  rw [hcount, Socket.readable, length_take]
  unfold ByteQueue.room
  omega

namespace Driver

open Proc

variable {w : World P} {flow : FlowKey} {entry : TcpEntry} {F : Stack P → Prop}
  {φ : Socket → TcpStream → Prop} {α : Type}

/-- **An access in a turn** of the flow: from `φ` it comes to `ψ`, and it
cannot fail. -/
abbrev Takes (_ : Frame w flow entry F) (φ : Socket → TcpStream → Prop) (act : Act P α)
    (ψ : α → Socket → TcpStream → Prop) : Prop :=
  Ensures (At w flow entry F φ) act (fun a => At w flow entry F (ψ a)) fun _ => False

variable (hF : Frame w flow entry F)

/-- More may be known before. -/
theorem Takes.of_and {hF : Frame w flow entry F} {act : Act P α} {χ : Socket → TcpStream → Prop}
    {ψ : α → Socket → TcpStream → Prop} (h : Takes hF φ act ψ) :
    Takes hF (fun socket stream => φ socket stream ∧ χ socket stream) act ψ :=
  h.of_imp fun _ hs => hs.imp fun _ _ hknown => hknown.1

/-! ## Single accesses -/

theorem look_at (hφ : Stable w.Legal φ) (f : Socket → α) :
    Takes hF φ (look w entry f) fun a socket stream => φ socket stream ∧ f socket = a :=
  onFlow_at hφ hF fun _ _ hlink hlocal h => ⟨hlink, hlocal, .refl _, h, rfl⟩

theorem load_at (hφ : Stable w.Legal φ) (flag : Flag) :
    Takes hF φ (load w entry flag) fun a socket stream =>
      φ socket stream ∧ (a = true → stream.has flag = true) :=
  onFlow_at hφ hF fun _ _ hlink hlocal h => ⟨hlink, hlocal, .refl _, h, id⟩

theorem wake_at {wake : TcpStream → TcpStream}
    (hwake : wake = TcpStream.wakeRecv ∨ wake = TcpStream.wakeSend) :
    Takes hF Emptied (touch w entry wake) fun _ => Emptied := by
  rcases hwake with rfl | rfl <;>
    exact onFlow_at .emptied hF fun socket stream hlink hlocal h =>
      ⟨{ hlink with }, { hlocal with }, ⟨fun _ hraised => hraised, id, id⟩, h⟩

/-! ## Receiving -/

theorem beginTurn_at : Takes hF (fun _ _ => True) (beginTurn w entry) fun _ => Fits := by
  refine onFlow_at .top hF fun socket stream hlink hlocal _ => ⟨{ hlink with }, { hlocal with },
    ⟨fun _ hraised => hraised, id, fun hcramped => ?_⟩, fun _ hcramped hinactive => ?_⟩
  · exact (or_eq_false_iff.mp hcramped).1
  · have hroom := (or_eq_false_iff.mp hcramped).2
    rw [hinactive] at hroom
    simpa using hroom

variable (turns : ℕ)

/-- There is something to receive, or nothing is left. -/
theorem canReceive_at :
    Takes hF (fun socket stream => Fits socket stream ∧ socket.rx.length < turns)
      (canReceive w entry) fun more socket stream =>
        (Fits socket stream ∧ socket.rx.length < turns) ∧
          (more = true → socket.canRecv = true) ∧ (more = false → Emptied socket stream) := by
  refine onFlow_at (Stable.fits.and (.ofSocket _)) hF fun socket stream hlink hlocal h =>
    ⟨hlink, hlocal, .refl _, h, fun hmore => ?_, fun hstop => h.1.emptied_of_stop hstop⟩
  exact (and_eq_true_iff.mp hmore).1

/-- A byte was moved, or nothing is left. -/
theorem receiveOnce_at :
    Takes hF (fun socket stream =>
        (Fits socket stream ∧ socket.rx.length < turns + 1) ∧ socket.canRecv = true)
      (receiveOnce w entry) fun count socket stream => (count = 0 → Emptied socket stream) ∧
        (count ≠ 0 → Fits socket stream ∧ socket.rx.length < turns) := by
  have hstable : Stable w.Legal fun socket stream =>
      (Fits socket stream ∧ socket.rx.length < turns + 1) ∧ socket.canRecv = true :=
    (Stable.fits.and (.ofSocket _)).and (.ofSocket _)
  refine Ensures.bind (ask_keeps (At.shared hstable hF) _) fun front =>
    onFlow_at hstable hF fun socket stream hlink hlocal ⟨⟨hfits, hturns⟩, hcan⟩ => ?_
  have hmay : socket.mayRecv = true := (and_eq_true_iff.mp hcan).1
  have hrx : 0 < socket.rx.length := by
    have hne := (and_eq_true_iff.mp hcan).2
    exact length_pos_of_ne_nil (by simpa using hne)
  have hopen : w.Legal → stream.owned = true → stream.has .readClosed = false := by
    intro hlegal howned
    by_contra hclosed
    have hdone := hlink.reading hlegal howned (by simpa using hclosed)
    simp [Socket.readingDone, hcan] at hdone
  simp only [hmay, if_true]
  obtain ⟨hmoved, hroom⟩ := deliver_moves socket stream front
  refine ⟨hlink.deliver front, hlocal.deliver _ hopen hlink.connected,
    ⟨fun _ hraised => hraised, id, id⟩, fun hcount howned hcramped hinactive => ?_,
    fun hcount => ⟨fun howned hcramped hinactive => ?_, ?_⟩⟩
  · -- nothing was moved: the queue had no room, so nothing was left
    have hle := hfits howned hcramped hinactive
    omega
  · have hle := hfits howned hcramped hinactive
    show (socket.rx.drop _).length ≤ _
    rw [length_drop]
    omega
  · show (socket.rx.drop _).length < turns
    rw [length_drop]
    omega

/-- **The loop that receives** leaves nothing, where there is room for
everything. -/
theorem receiveLoop_at (received : Bool) :
    Takes hF (fun socket stream => Fits socket stream ∧ socket.rx.length < turns)
      (receiveLoop w entry turns received) fun _ => Emptied := by
  induction turns generalizing received with
  | zero => exact .pure fun _ h => h.imp fun _ _ hknown => absurd hknown.2 (Nat.not_lt_zero _)
  | succ turns ih =>
    refine (canReceive_at hF (turns + 1)).bind fun more => ?_
    cases more with
    | false => exact .pure fun _ h => h.imp fun _ _ hknown => hknown.2.2 rfl
    | true =>
      refine Ensures.bind ((receiveOnce_at hF turns).of_imp fun _ h =>
        h.imp fun _ _ hknown => ⟨hknown.1, hknown.2.1 rfl⟩) fun count => ?_
      split_ifs with hcount
      · exact .pure fun _ h => h.imp fun _ _ hknown => hknown.1 hcount
      · exact (ih true).of_imp fun _ h => h.imp fun _ _ hknown => hknown.2 hcount

theorem receive_at : Takes hF Fits (receive w entry) fun _ => Emptied := by
  refine (look_at hF .fits _).bind fun turns => ?_
  refine Ensures.bind ((receiveLoop_at hF (turns + 1) false).of_imp fun _ h =>
    h.imp fun socket stream hknown => ⟨hknown.1, by rw [hknown.2]; omega⟩) fun received => ?_
  exact .when (fun _ => wake_at hF (.inl rfl)) fun _ _ h => h

/-! ## Sending -/

theorem canTransmit_at (hφ : Stable w.Legal φ) : Takes hF φ (canTransmit w entry) fun _ => φ :=
  onFlow_at hφ hF fun _ _ hlink hlocal h => ⟨hlink, hlocal, .refl _, h⟩

theorem sendOnce_at : Takes hF Emptied (sendOnce w entry) fun _ => Emptied := by
  have hstable : Stable w.Legal Emptied := .emptied
  have hask := ask_keeps (At.shared hstable hF) Answers.front
  refine Ensures.bind hask fun front => Ensures.bind hask fun space =>
    onFlow_at .emptied hF fun socket stream hlink hlocal h => ?_
  by_cases hmay : socket.maySend = true
  · simp only [hmay, if_true]
    exact ⟨hlink.takeSend _ _, hlocal.takeSend _ _, ⟨fun _ hraised => hraised, id, id⟩, h⟩
  · simp only [hmay]
    exact ⟨hlink, hlocal, .refl _, h⟩

theorem sendLoop_at (sent : Bool) :
    Takes hF Emptied (sendLoop w entry turns sent) fun _ => Emptied := by
  induction turns generalizing sent with
  | zero => exact .pure fun _ h => h
  | succ turns ih =>
    refine (canTransmit_at hF .emptied).bind fun more => ?_
    cases more with
    | false => exact .pure fun _ h => h
    | true =>
      refine (sendOnce_at hF).bind fun count => ?_
      split_ifs with hcount
      · exact .pure fun _ h => h
      · exact ih true

theorem transmit_at : Takes hF Emptied (transmit w entry) fun _ => Emptied := by
  refine (look_at hF .emptied _).bind fun turns => ?_
  refine (sendLoop_at hF (turns + 1) false).of_and.bind fun sent => ?_
  exact .when (fun _ => wake_at hF (.inr rfl)) fun _ _ h => h

/-! ## The state of the socket -/

theorem leaveHalfOpen_at : Takes hF φ (leaveHalfOpen flow) fun _ => φ := by
  refine .update fun s h => ⟨⟨{ h.inv with tables := ?_ }, h.inv.link⟩, h.lookup,
    hF.leaveHalfOpen s h.frame, h.known⟩
  exact h.inv.tables.congr rfl (Finset.erase_subset _ _) rfl rfl fun _ => rfl

theorem endReading_at :
    Takes hF (fun socket stream => Emptied socket stream ∧ socket.readingDone = true)
      (endReading w entry) fun _ => Emptied := by
  refine Ensures.bind (M := fun _ => At w flow entry F Emptied)
    (onFlow_at (Stable.emptied.and (.ofSocket _)) hF fun socket stream hlink hlocal h => ?_)
    fun _ => wake_at hF (.inl rfl)
  exact ⟨hlink.endReading h.2, hlocal.closeReading (Or.inl rfl),
    ⟨(TcpStream.Later.store stream _).flags, id, id⟩, h.1⟩

theorem endWriting_at : Takes hF Emptied (endWriting w entry) fun _ => Emptied := by
  refine Ensures.bind (M := fun _ => At w flow entry F Emptied)
    (onFlow_at .emptied hF fun socket stream hlink hlocal h => ?_)
    fun _ => wake_at hF (.inr rfl)
  exact ⟨hlink.endWriting, hlocal.storeByDriver (by decide) (by decide) (by simp),
    .store stream _, h⟩

theorem reportState_at : Takes hF Emptied (reportState w flow entry) fun _ => Emptied := by
  refine (look_at hF .emptied _).bind fun past => ?_
  refine Ensures.bind (M := fun _ => At w flow entry F Emptied)
    (.when (fun _ => (leaveHalfOpen_at hF).of_and)
      fun _ _ h => h.imp fun _ _ hknown => hknown.1) fun _ => ?_
  refine (look_at hF .emptied _).bind fun readingDone => ?_
  refine Ensures.bind (M := fun _ => At w flow entry F Emptied)
    (.when (fun hdone => ?_) fun _ _ h => h.imp fun _ _ hknown => hknown.1) fun _ => ?_
  · rw [hdone]
    exact endReading_at hF
  refine (look_at hF .emptied _).bind fun maySend => ?_
  exact .when (fun _ => (endWriting_at hF).of_and)
    fun _ _ h => h.imp fun _ _ hknown => hknown.1

/-! ## The owner's wishes -/

/-- An abort comes only where the stream was dropped. -/
theorem abortSocket_at :
    Takes hF (fun socket stream => Emptied socket stream ∧ (True → stream.has .dropped = true))
      (abortSocket w entry) fun _ => Emptied := by
  refine onFlow_at (Stable.emptied.and (.raised _ _)) hF fun socket stream hlink hlocal h =>
    ⟨hlink.abort, hlocal, .refl _, fun howned => ?_⟩
  have hfree := hlocal.dropped (h.2 trivial)
  rw [show stream.owned = true from howned] at hfree
  cases hfree

/-- The socket of a sealed stream that is drained has everything, and is
active after it is closed. -/
theorem closeSocket_at :
    Takes hF (fun socket stream => (stream.Sealed ∧ (True → stream.handle.appSend.bytes = [])) ∧
      socket.maySend = true) (closeSocket w entry) fun _ => Emptied := by
  refine onFlow_at ((Stable.drained _).and (.ofSocket _)) hF
    fun socket stream hlink hlocal ⟨⟨hsealed, hdrained⟩, hmay⟩ => ?_
  have haccepted : stream.accepted = socket.enqueued := by
    rw [hlink.sent, hdrained trivial, append_nil]
  refine ⟨{ hlink.close with }, hlocal.closeSocket haccepted hsealed,
    ⟨fun _ hraised => hraised, id, id⟩, fun _ _ hinactive => ?_⟩
  have hactive : socket.close.isActive = true := by
    unfold Socket.maySend at hmay
    unfold Socket.close Socket.isActive
    split at hmay <;> simp_all
  rw [show socket.close.isActive = false from hinactive] at hactive
  cases hactive

theorem isSealed_at :
    Takes hF Emptied (isSealed w entry) fun sealed socket stream =>
      Emptied socket stream ∧ (sealed = true → stream.Sealed) := by
  refine (load_at hF .emptied .writeShutdown).bind fun shutdown => ?_
  cases shutdown with
  | true =>
    exact .pure fun _ h => h.imp fun _ _ hknown => ⟨hknown.1, fun _ => Or.inl (hknown.2 rfl)⟩
  | false =>
    exact (load_at hF .emptied .dropped).of_and.mono
      (fun _ _ h => h.imp fun _ _ hknown => ⟨hknown.1, fun hsealed => Or.inr (hknown.2 hsealed)⟩)
      fun _ h => h

theorem closeIfDrained_at : Takes hF Emptied (closeIfDrained w entry) fun _ => Emptied := by
  refine (isSealed_at hF).bind fun sealed => ?_
  cases sealed with
  | false => exact .pure fun _ h => h.imp fun _ _ hknown => hknown.1
  | true =>
    have hdrained : Takes hF
        (fun socket stream => Emptied socket stream ∧ (true = true → stream.Sealed))
        (onFlow w entry fun socket stream => (stream.handle.appSend.isEmpty, socket, stream))
        fun drained socket stream => Emptied socket stream ∧
          (stream.Sealed ∧ (drained = true → stream.handle.appSend.bytes = [])) :=
      onFlow_at (Stable.emptied.and (.sealed _)) hF fun socket stream hlink hlocal h =>
        ⟨hlink, hlocal, .refl _, h.1, h.2 rfl, (ByteQueue.isEmpty_iff _).mp⟩
    refine Ensures.bind hdrained fun drained => ?_
    refine (look_at hF (Stable.emptied.and (.drained _)) _).bind fun maySend => ?_
    refine .when (fun hclose => (closeSocket_at hF).of_imp fun _ h => h.imp fun _ _ hknown => ?_)
      fun _ _ h => h.imp fun _ _ hknown => hknown.1.1
    obtain ⟨hdrain, hmay⟩ := and_eq_true_iff.mp hclose
    exact ⟨⟨hknown.1.2.1, fun _ => hknown.1.2.2 hdrain⟩, hknown.2.trans hmay⟩

theorem obeyOwner_at : Takes hF Emptied (obeyOwner w entry) fun _ => Emptied := by
  refine (load_at hF .emptied .dropped).bind fun dropped => ?_
  refine (look_at hF (Stable.emptied.and (.raised _ _)) _).bind fun past => ?_
  split_ifs with habort
  · refine (abortSocket_at hF).of_imp fun _ h => h.imp fun _ _ hknown => ⟨hknown.1.1, fun _ => ?_⟩
    exact hknown.1.2 (and_eq_true_iff.mp habort).1
  · exact (closeIfDrained_at hF).of_imp fun _ h => h.imp fun _ _ hknown => hknown.1.1

/-! ## The turn -/

variable (pendingFlow : Option FlowKey)

theorem ingressPending_at :
    Takes hF Emptied (ingressPending w pendingFlow flow entry) fun _ => Emptied := by
  refine (look_at hF .emptied _).bind fun listens => ?_
  refine (load_at hF .emptied .dropped).of_and.bind fun dropped => ?_
  have hcancelled : Takes hF Emptied (isCancelled w) fun _ => Emptied :=
    isCancelled_keeps (At.shared .emptied hF)
  refine hcancelled.of_and.bind fun cancelled => ?_
  exact .pure fun _ h => h

/-- A flow that is over has an inactive socket. -/
theorem isOver_at :
    Takes hF Emptied (isOver w pendingFlow flow entry) fun ended socket stream =>
      Emptied socket stream ∧ (ended = true → socket.isActive = false) := by
  refine (look_at hF .emptied _).bind fun resetPending => ?_
  refine (ingressPending_at hF pendingFlow).of_and.bind fun pending => ?_
  refine (look_at hF .emptied _).bind fun active => ?_
  refine .pure fun _ h => h.imp fun _ _ hknown => ⟨hknown.1, fun hover => ?_⟩
  simp_all

/-- **A turn** keeps everything, and leaves the buffer of a socket that is
over empty. -/
theorem driveSocket_at :
    Takes hF (fun _ _ => True) (driveSocket w pendingFlow flow entry) fun ended socket stream =>
      ended = true → stream.owned = true → stream.cramped = false → socket.rx = [] := by
  refine (beginTurn_at hF).bind fun _ => (receive_at hF).bind fun _ => (transmit_at hF).bind fun _ =>
    (reportState_at hF).bind fun _ => (obeyOwner_at hF).bind fun _ => ?_
  exact (isOver_at hF pendingFlow).mono (fun ended _ h => h.imp fun _ _ hknown hover howned hcramped =>
    hknown.1 howned hcramped (hknown.2 hover)) fun _ h => h

/-! ## The loops end by themselves -/

section Turns

variable {measure : Socket → ℕ} {α : Type}

/-- A measure of the flow's socket is at most this. -/
def Bounded (measure : Socket → ℕ) (entry : TcpEntry) (bound : ℕ) (s : Stack P) : Prop :=
  ∀ socket, s.sockets.get entry.socket = some socket → measure socket ≤ bound

theorem Bounded.mono {bound bound' : ℕ} {s : Stack P} (h : Bounded measure entry bound s)
    (hle : bound ≤ bound') : Bounded measure entry bound' s :=
  fun socket hsocket => (h socket hsocket).trans hle

theorem Bounded.shared {bound : ℕ} : Shared w (Bounded measure entry bound) where
  interfere := by
    intro s other h
    cases other <;> exact h
  tick := fun _ h => h

/-- What the driver asks for changes no socket. -/
theorem ask_bounded {f : Answers P → α} (bound : ℕ) :
    Ensures (Bounded measure entry bound) (ask w f) (fun _ => Bounded measure entry bound)
      fun _ => True :=
  (ask_keeps Bounded.shared f).mono (fun _ _ h => h) fun _ _ => trivial

variable {f : Socket → TcpStream → α × Socket × TcpStream}

/-- An access leaves the flow the socket that it makes. -/
theorem onFlow_socket {S : Stack P → Prop} (hS : Shared w S) {ψ : α → Stack P → Prop}
    (h : ∀ s socket, S s → s.sockets.get entry.socket = some socket → ∀ t : Stack P,
      (∀ next, t.sockets.get entry.socket = some next →
        next = (f socket (s.streams entry.handle)).2.1) →
      ψ (f socket (s.streams entry.handle)).1 t) :
    Ensures S (onFlow w entry f) ψ fun _ => True := by
  refine .bind ((yield_keeps hS).mono (fun _ _ h => h) fun _ _ => trivial) fun _ s hs => ?_
  unfold atFlow
  cases hsocket : s.sockets.get entry.socket with
  | none => exact ⟨nofun, fun _ _ => trivial⟩
  | some socket =>
    refine ⟨fun a ha => ?_, fun _ _ => trivial⟩
    cases ha
    refine h s socket hs hsocket _ fun next hnext => ?_
    have hsome : (s.sockets.get entry.socket).isSome := by rw [hsocket]; rfl
    have hput : (s.sockets.put entry.socket (f socket (s.streams entry.handle)).2.1).get
        entry.socket = some next := hnext
    rw [SocketSet.get_put _ hsome, if_pos rfl] at hput
    exact (Option.some.inj hput).symm

/-- An access lowers the measure by what it returns. -/
abbrev Lowers (measure : Socket → ℕ) (entry : TcpEntry) (cost : α → ℕ) (act : Act P α) : Prop :=
  ∀ bound, Ensures (Bounded measure entry bound) act
    (fun a s => ∃ left, left + cost a ≤ bound ∧ Bounded measure entry left s) fun _ => True

theorem onFlow_bounded (cost : α → ℕ) (hf : ∀ socket stream,
      measure (f socket stream).2.1 + cost (f socket stream).1 ≤ measure socket) :
    Lowers measure entry cost (onFlow w entry f) := by
  refine fun bound => onFlow_socket Bounded.shared fun s socket h hsocket t ht => ?_
  have hcost := hf socket (s.streams entry.handle)
  have hbound := h socket hsocket
  refine ⟨measure (f socket (s.streams entry.handle)).2.1, by omega, fun next hnext => ?_⟩
  rw [ht next hnext]

/-- An access that returns no bytes. -/
theorem onFlow_bounded_free (hf : ∀ socket stream, (f socket stream).2.1 = socket) (bound : ℕ) :
    Ensures (Bounded measure entry bound) (onFlow w entry f)
      (fun _ => Bounded measure entry bound) fun _ => True := by
  refine (onFlow_bounded (fun _ => 0) (fun socket stream => ?_) bound).mono
    (fun _ s h => ?_) fun _ h => h
  · rw [hf]
    omega
  · obtain ⟨left, hleft, hbounded⟩ := h
    exact hbounded.mono hleft

/-- **More turns change nothing** in a loop each turn of which, but for the
last, lowers the measure. -/
theorem loop_turns (loop : ℕ → Bool → Act P Bool) {can : Act P Bool} {once : Act P ℕ}
    (hloop : ∀ turns done, loop (turns + 1) done = do
      if ← can then
        if (← once) = 0 then pure done
        else loop turns true
      else pure done)
    (hcan : ∀ bound, Ensures (Bounded measure entry bound) can
      (fun _ => Bounded measure entry bound) fun _ => True)
    (honce : Lowers measure entry id once)
    (turns extra : ℕ) (done : Bool) {s : Stack P} (h : Bounded measure entry turns s) :
    loop (turns + 1 + extra) done s = loop (turns + 1) done s := by
  induction turns generalizing done s with
  | zero =>
    rw [Nat.add_comm (0 + 1) extra, hloop, hloop]
    refine (hcan 0).bind_congr (fun more s hs => ?_) h
    split_ifs
    · refine (honce 0).bind_congr (fun count s hs => ?_) hs
      obtain ⟨left, hleft : left + count ≤ 0, -⟩ := hs
      rw [if_pos (by omega), if_pos (by omega)]
    · rfl
  | succ turns ih =>
    rw [show turns + 1 + 1 + extra = (turns + 1 + extra) + 1 by omega, hloop, hloop]
    refine (hcan _).bind_congr (fun more s hs => ?_) h
    split_ifs
    · refine (honce _).bind_congr (fun count s hs => ?_) hs
      obtain ⟨left, hleft : left + count ≤ _, hbounded⟩ := hs
      split_ifs with hzero
      · rfl
      · exact ih true (hbounded.mono (by omega))
    · rfl

/-- A look at the measure bounds it. -/
theorem look_bounded :
    Ensures (fun _ => True) (look w entry measure) (fun bound => Bounded measure entry bound)
      fun _ => True := by
  have hshared : Shared w fun _ : Stack P => True := ⟨fun _ _ _ => trivial, fun _ _ => trivial⟩
  refine onFlow_socket hshared fun s socket _ _ t ht next hnext => ?_
  rw [ht next hnext]

theorem receiveOnce_bounded :
    Lowers (fun socket => socket.rx.length) entry id (receiveOnce w entry) := by
  refine fun bound => (ask_bounded bound).bind fun front =>
    onFlow_bounded id (fun socket stream => ?_) bound
  have hcount : (stream.deliver (socket.readable front)).1 ≤ socket.rx.length := by
    refine (Nat.min_le_left _ _).trans ?_
    rw [Socket.readable, length_take]
    omega
  split_ifs
  · show (socket.rx.drop (stream.deliver (socket.readable front)).1).length +
      (stream.deliver (socket.readable front)).1 ≤ _
    rw [length_drop]
    omega
  · exact Nat.le_refl _

theorem sendOnce_bounded :
    Lowers (fun socket => socket.txCapacity - socket.tx.length) entry id (sendOnce w entry) := by
  refine fun bound => (ask_bounded bound).bind fun front => (ask_bounded bound).bind fun space =>
    onFlow_bounded id (fun socket stream => ?_) bound
  have hcount : (stream.takeSend front (socket.writable space)).1.length ≤
      socket.txCapacity - socket.tx.length := by
    show (stream.handle.appSend.bytes.take (min _ (socket.writable space))).length ≤ _
    rw [length_take, Socket.writable]
    omega
  split_ifs
  · show socket.txCapacity - (socket.tx ++ (stream.takeSend front (socket.writable space)).1).length +
      (stream.takeSend front (socket.writable space)).1.length ≤ _
    rw [length_append]
    omega
  · exact Nat.le_refl _

/-- **The loop that receives** ends before its turns do. -/
theorem receive_turns (entry : TcpEntry) (extra : ℕ) (s : Stack P) :
    receive w entry s = (do
      let turns ← look w entry fun socket => socket.rx.length
      let received ← receiveLoop w entry (turns + 1 + extra) false
      when received (touch w entry TcpStream.wakeRecv) : Act P Unit) s := by
  refine look_bounded.bind_congr (fun turns s hs => ?_) trivial
  have hturns := loop_turns (receiveLoop w entry) (fun _ _ => rfl)
    (onFlow_bounded_free fun _ _ => rfl) receiveOnce_bounded turns extra false hs
  rw [bind_apply, bind_apply, hturns]

/-- **The loop that sends** ends before its turns do. -/
theorem transmit_turns (entry : TcpEntry) (extra : ℕ) (s : Stack P) :
    transmit w entry s = (do
      let turns ← look w entry fun socket => socket.txCapacity - socket.tx.length
      let sent ← sendLoop w entry (turns + 1 + extra) false
      when sent (touch w entry TcpStream.wakeSend) : Act P Unit) s := by
  refine look_bounded.bind_congr (fun turns s hs => ?_) trivial
  have hturns := loop_turns (sendLoop w entry) (fun _ _ => rfl)
    (onFlow_bounded_free fun _ _ => rfl) sendOnce_bounded turns extra false hs
  rw [bind_apply, bind_apply, hturns]

end Turns

end Driver

end Vole.Netstack
