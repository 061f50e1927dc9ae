import Mathlib.Data.List.Chain
import Vole.Netstack.Model.Socket
import Vole.Netstack.Model.Tcp

/-!
# What the two sides of a stream keep

`Local` holds of a stream whatever its owner and the driver do; `Link`
ties a stream to the socket of its entry. Both are kept by every access
of the owner, wherever it stands in its call, so the driver may rely on
them between any two of its own.
-/

namespace Vole.Netstack

open List TcpStream Socket

/-! ## Queues -/

namespace ByteQueue

variable (queue : ByteQueue)

theorem read_append (front space : ℕ) :
    (queue.read front space).1 ++ (queue.read front space).2.bytes = queue.bytes :=
  take_append_drop _ _

/-- A read gets nothing where there is no space or there are no bytes. -/
theorem read_eq_nil {front space : ℕ} (h : (queue.read front space).1 = []) :
    space = 0 ∨ queue.bytes = [] := by
  by_contra hne
  obtain ⟨hspace, hbytes⟩ := not_or.mp hne
  have hlength : 0 < queue.bytes.length := length_pos_of_ne_nil hbytes
  have htaken := congrArg length h
  simp only [read, length_take, length_nil] at htaken
  omega

theorem write_bytes (source : Bytes) :
    (queue.write source).2.bytes = queue.bytes ++ source.take (queue.write source).1 := rfl

theorem isEmpty_iff : queue.isEmpty = true ↔ queue.bytes = [] := List.isEmpty_iff

end ByteQueue

/-! ## The owner's accesses -/

/-- An access of a poll. -/
def Access.isPoll : Access → Bool
  | .eofIf _ flag => flag == .readClosed || flag == .socketClosed || flag == .stopped
  | .store _ | .wakeRecv | .wakeSend => false
  | _ => true

/-- An access of the drop of a stream. -/
def Access.isDrop : Access → Bool
  | .store .dropped | .store .readClosed | .store .writeClosed => true
  | .wakeRecv | .wakeSend => true
  | _ => false

/-- A write may come before `write_shutdown` is loaded. -/
def exposed : List Access → Bool
  | [] => false
  | .write _ :: _ => true
  | .brokenIf .writeShutdown :: _ => false
  | _ :: rest => exposed rest

theorem exposed_of_isDrop {control : List Access} (h : ∀ a ∈ control, a.isDrop = true) :
    exposed control = false := by
  induction control with
  | nil => rfl
  | cons a rest ih =>
    have ha := h a (by simp)
    have hrest := ih fun b hb => h b (by simp [hb])
    cases a <;> first | exact hrest | cases ha

/-- An access but for these two does not hide a write. -/
theorem exposed_tail {a : Access} {rest : List Access} (h : exposed (a :: rest) = false)
    (ha : a ≠ .brokenIf .writeShutdown) : exposed rest = false := by
  unfold exposed at h
  split at h <;> simp_all

/-- A flag that ends a read is loaded after that read or after another such
flag. -/
def Leads (a b : Access) : Prop :=
  ∀ space flag, b = .eofIf space flag →
    a = .read space ∨ ∃ other, a = .eofIf space other

theorem isPoll_of_mem_accesses {call : Call} (h : call ≠ .drop) :
    ∀ a ∈ call.accesses, a.isPoll = true := by
  cases call with
  | drop => exact absurd rfl h
  | _ =>
    simp [Call.accesses, pollRead, readEnded, pollWrite, writeUnavailable, pollFlush, pollShutdown,
      flush, Access.isPoll]

namespace TcpStream

/-- The stream will write no more. -/
def Sealed (stream : TcpStream) : Prop :=
  stream.has .writeShutdown = true ∨ stream.has .dropped = true

/-- **What holds of every stream.** The bytes delivered and not returned
are the ones in the queue. The owner's accesses are those of one call.
Nothing is written once the stream is sealed, so a socket that was closed
has everything. And where smoltcp is `legal`, an end of file finds the
queue empty, unless the driver closed the reading side late. -/
structure Local (legal : Prop) (stream : TcpStream) : Prop where
  received : stream.delivered = stream.returned ++ stream.handle.appRecv.bytes
  owner : stream.owned = true →
    (∀ a ∈ stream.control, a.isPoll = true) ∨ stream.control = [.store .writeShutdown]
  orphan : stream.owned = false → ∀ a ∈ stream.control, a.isDrop = true
  chain : stream.control.IsChain Leads
  dropped : stream.has .dropped = true → stream.owned = false
  shutdown : stream.has .writeShutdown = true → exposed stream.control = false
  closes : ∀ enqueued ∈ stream.closes, stream.accepted = enqueued ∧ stream.Sealed
  window : legal → stream.late = false → stream.owned = true → stream.has .stopped = false →
    stream.has .readClosed = true ∨ stream.has .socketClosed = true →
    stream.inWindow = true → stream.handle.appRecv.bytes = []
  eofs : legal → stream.late = false → ∀ unread ∈ stream.eofs, unread = []

variable {legal : Prop}

theorem has_store (stream : TcpStream) (flag other : Flag) :
    (stream.store flag).has other = (decide (other = flag) || stream.has other) := by
  unfold has store TcpStreamHandle.store
  by_cases h : other = flag
  · subst h
    simp
  · simp [h]

variable {stream : TcpStream}

theorem Sealed.store (h : stream.Sealed) (flag : Flag) : (stream.store flag).Sealed := by
  rcases h with h | h
  · exact Or.inl (by simp [has_store, h])
  · exact Or.inr (by simp [has_store, h])

variable {flag : Flag}

/-- **The owner's accesses raise flags and lower none.** -/
theorem has_step (h : stream.has flag = true)
    (step : Step) : (stream.step step).has flag = true := by
  cases step with
  | begin call =>
    rw [TcpStream.step, begin]
    split_ifs <;> exact h
  | access front =>
    rw [TcpStream.step, access]
    split
    all_goals first
      | exact h
      | (split_ifs <;> exact h)
      | (show (stream.store _).has flag = true; simp [has_store, h])

/-- A call may end anywhere. -/
theorem Local.finish (h : Local legal stream) : Local legal { stream with control := [] } where
  received := h.received
  owner := fun _ => Or.inl (by simp)
  orphan := fun _ => by simp
  chain := .nil
  dropped := h.dropped
  shutdown := fun _ => rfl
  closes := h.closes
  window := nofun
  eofs := h.eofs

variable {rest : List Access}

section

variable (h : Local legal stream)

include h

/-- A call may go on, where a read got nothing and no flag stopped it. -/
theorem Local.proceed {a : Access} (hcontrol : stream.control = a :: rest)
    (hread : ∀ space, a = .read space → space = 0 ∨ stream.handle.appRecv.bytes = [])
    (hshutdown : a = .brokenIf .writeShutdown → stream.has .writeShutdown = false) :
    Local legal { stream with control := rest } where
  received := h.received
  owner := by
    intro howned
    rcases h.owner howned with hpoll | hstore
    · exact Or.inl fun b hb => hpoll b (by simp [hcontrol, hb])
    · have hrest : rest = [] := by
        rw [hcontrol] at hstore
        exact (cons.inj hstore).2
      exact Or.inl (by simp [hrest])
  orphan := fun howned b hb => h.orphan howned b (by simp [hcontrol, hb])
  chain := by
    have hchain := h.chain
    rw [hcontrol] at hchain
    exact hchain.tail
  dropped := h.dropped
  shutdown := by
    intro hflag
    have hexposed := h.shutdown hflag
    rw [hcontrol] at hexposed
    refine exposed_tail hexposed fun ha => ?_
    have hlowered : stream.has .writeShutdown = false := hshutdown ha
    rw [show stream.has .writeShutdown = true from hflag] at hlowered
    cases hlowered
  closes := h.closes
  window := by
    intro hlegal hlate howned hstopped hclosed hwindow
    cases rest with
    | nil => cases hwindow
    | cons b rest =>
      cases b with
      | eofIf space flag =>
        have hspace : space ≠ 0 := by simpa [inWindow] using hwindow
        have hchain := h.chain
        rw [hcontrol] at hchain
        rcases (isChain_cons_cons.mp hchain).1 space flag rfl with hfirst | ⟨other, hfirst⟩
        · exact (hread space hfirst).resolve_left hspace
        · refine h.window hlegal hlate howned hstopped hclosed ?_
          simp [inWindow, hcontrol, hfirst, hspace]
      | _ => cases hwindow
  eofs := h.eofs

/-- A new call of the owner. -/
theorem Local.begin (call : Call) : Local legal (stream.begin call) := by
  unfold TcpStream.begin
  split_ifs with hidle
  · have howned : stream.owned = true := by simp_all
    have hwindow : inWindow { stream with control := call.accesses, owned := call != .drop } =
        false := by
      cases call <;> rfl
    exact {
      received := h.received
      owner := fun hcall => Or.inl (isPoll_of_mem_accesses (by simpa using hcall))
      orphan := by
        intro hcall
        obtain rfl : call = .drop := by simpa using hcall
        simp [Call.accesses, dropStream, Access.isDrop]
      chain := by
        cases call <;> simp [Call.accesses, pollRead, readEnded, pollWrite, writeUnavailable,
          pollFlush, pollShutdown, flush, dropStream, Leads]
      dropped := fun hflag => absurd (h.dropped hflag) (by simp [howned])
      shutdown := fun _ => by cases call <;> rfl
      closes := h.closes
      window := fun _ _ _ _ _ hin => by rw [hwindow] at hin; cases hin
      eofs := h.eofs }
  · exact h

/-- A read of the owner. -/
theorem Local.read {space : ℕ} (hcontrol : stream.control = .read space :: rest) (front : ℕ) :
    Local legal { stream with
      handle := { stream.handle with appRecv := (stream.handle.appRecv.read front space).2 }
      returned := stream.returned ++ (stream.handle.appRecv.read front space).1
      control := if (stream.handle.appRecv.read front space).1.isEmpty then rest else [] } := by
  have hreceived : stream.delivered =
      (stream.returned ++ (stream.handle.appRecv.read front space).1) ++
        (stream.handle.appRecv.read front space).2.bytes := by
    rw [append_assoc, ByteQueue.read_append, h.received]
  by_cases hbytes : (stream.handle.appRecv.read front space).1 = []
  · -- nothing was read: the queue holds what it held
    have hsame := stream.handle.appRecv.read_append front space
    rw [hbytes, nil_append] at hsame
    have hnext := h.proceed hcontrol
      (fun s hs => by cases hs; exact stream.handle.appRecv.read_eq_nil hbytes)
      nofun
    rw [if_pos (by simp [hbytes])]
    exact {
      received := hreceived
      owner := hnext.owner
      orphan := hnext.orphan
      chain := hnext.chain
      dropped := hnext.dropped
      shutdown := hnext.shutdown
      closes := hnext.closes
      window := fun h₁ h₂ h₃ h₄ h₅ h₆ => hsame.trans (hnext.window h₁ h₂ h₃ h₄ h₅ h₆)
      eofs := hnext.eofs }
  · have hdone := h.finish
    rw [if_neg (by simpa using hbytes)]
    exact {
      received := hreceived
      owner := hdone.owner
      orphan := hdone.orphan
      chain := hdone.chain
      dropped := hdone.dropped
      shutdown := hdone.shutdown
      closes := hdone.closes
      window := nofun
      eofs := hdone.eofs }

/-- A write of the owner: the stream is not sealed. -/
theorem Local.not_sealed_of_write {buffer : Bytes}
    (hcontrol : stream.control = .write buffer :: rest) : ¬ stream.Sealed := by
  rintro (hshutdown | hdropped)
  · have hexposed := h.shutdown hshutdown
    rw [hcontrol] at hexposed
    cases hexposed
  · have hdrop := h.orphan (h.dropped hdropped) (.write buffer) (by simp [hcontrol])
    cases hdrop

theorem Local.write {buffer : Bytes} (hcontrol : stream.control = .write buffer :: rest) :
    Local legal { stream with
      handle := { stream.handle with appSend := (stream.handle.appSend.write buffer).2 }
      accepted := stream.accepted ++ buffer.take (stream.handle.appSend.write buffer).1
      control := if (stream.handle.appSend.write buffer).1 == 0 then rest else [] } := by
  have hcloses : ∀ enqueued ∈ stream.closes, False := fun enqueued hmem =>
    h.not_sealed_of_write hcontrol (h.closes enqueued hmem).2
  split_ifs
  · have hnext := h.proceed hcontrol nofun nofun
    exact { hnext with closes := fun enqueued hmem => (hcloses enqueued hmem).elim }
  · exact { h.finish with closes := fun enqueued hmem => (hcloses enqueued hmem).elim }

/-- Only a stream with an owner is polled. -/
theorem Local.owned_of_mem {a : Access}
    (hmem : a ∈ stream.control) (ha : a.isDrop = false) : stream.owned = true := by
  by_contra howned
  have hdrop := h.orphan (by simpa using howned) a hmem
  rw [ha] at hdrop
  cases hdrop

/-- A raised flag ends a read: the queue is empty, unless the driver was
late. -/
theorem Local.eofIf {space : ℕ} (hcontrol : stream.control = .eofIf space flag :: rest)
    (hraised : stream.has flag = true) :
    Local legal { stream with
      eofs := if space == 0 || stream.has .stopped then stream.eofs
        else stream.handle.appRecv.bytes :: stream.eofs
      control := [] } := by
  have howned := h.owned_of_mem (a := .eofIf space flag) (by simp [hcontrol]) rfl
  have hflag : flag = .readClosed ∨ flag = .socketClosed ∨ flag = .stopped := by
    rcases h.owner howned with hpoll | hstore
    · have ha := hpoll (.eofIf space flag) (by simp [hcontrol])
      simpa [Access.isPoll, or_assoc] using ha
    · rw [hcontrol] at hstore
      cases hstore
  refine { h.finish with eofs := fun hlegal hlate unread hmem => ?_ }
  split_ifs at hmem with hskip
  · exact h.eofs hlegal hlate unread hmem
  rcases mem_cons.mp hmem with rfl | hmem
  · have hspace : space ≠ 0 := by simp_all
    have hstopped : stream.has .stopped = false := by simp_all
    have hclosed : stream.has .readClosed = true ∨ stream.has .socketClosed = true := by
      rcases hflag with rfl | rfl | rfl
      · exact Or.inl hraised
      · exact Or.inr hraised
      · rw [hstopped] at hraised
        cases hraised
    exact h.window hlegal hlate howned hstopped hclosed (by simp [inWindow, hcontrol, hspace])
  · exact h.eofs hlegal hlate unread hmem

/-- The flags the owner stores: at the end of a shutdown, or in a drop. -/
theorem Local.store_flag (hcontrol : stream.control = .store flag :: rest) :
    (stream.owned = true ∧ flag = .writeShutdown ∧ rest = []) ∨
      (stream.owned = false ∧ (flag = .dropped ∨ flag = .readClosed ∨ flag = .writeClosed)) := by
  by_cases howned : stream.owned = true
  · rcases h.owner howned with hpoll | hstore
    · have ha := hpoll (.store flag) (by simp [hcontrol])
      cases ha
    · rw [hcontrol] at hstore
      exact Or.inl ⟨howned, by simpa using hstore⟩
  · have hfree : stream.owned = false := by simpa using howned
    have ha := h.orphan hfree (.store flag) (by simp [hcontrol])
    refine Or.inr ⟨hfree, ?_⟩
    cases flag <;> simp_all [Access.isDrop]

theorem Local.store (hcontrol : stream.control = .store flag :: rest) :
    Local legal { stream.store flag with control := rest } := by
  have hnext := h.proceed hcontrol nofun nofun
  rcases h.store_flag hcontrol with ⟨-, rfl, rfl⟩ | ⟨hfree, -⟩
  · have hraised : (stream.store .writeShutdown).has .writeShutdown = true := by simp [has_store]
    have hother : (stream.store .writeShutdown).has .dropped = stream.has .dropped := by
      simp [has_store]
    exact { hnext with
      dropped := fun hdropped => h.dropped (hother.symm.trans hdropped)
      shutdown := fun _ => rfl
      closes := fun enqueued hmem => ⟨(hnext.closes enqueued hmem).1, Or.inl hraised⟩
      window := nofun }
  · exact { hnext with
      dropped := fun _ => hfree
      shutdown := fun _ => exposed_of_isDrop (hnext.orphan hfree)
      closes := fun enqueued hmem => ⟨(hnext.closes enqueued hmem).1,
        (h.closes enqueued hmem).2.store flag⟩
      window := fun _ _ howned => absurd (show stream.owned = true from howned) (by simp [hfree]) }

/-- **Every step of the owner keeps the stream.** -/
theorem Local.step (step : Step) : Local legal (stream.step step) := by
  cases step with
  | begin call => exact h.begin call
  | access front =>
    rw [TcpStream.step, access]
    split
    · exact h
    · rename_i space rest hcontrol
      exact h.read hcontrol front
    · rename_i space flag rest hcontrol
      split
      next hraised => exact h.eofIf hcontrol hraised
      next => exact h.proceed hcontrol nofun nofun
    · rename_i buffer rest hcontrol
      exact h.write hcontrol
    · rename_i flag rest hcontrol
      split_ifs with hraised
      · exact h.finish
      · refine h.proceed hcontrol nofun fun hs => ?_
        obtain rfl : flag = .writeShutdown := by simpa using hs
        simpa using hraised
    · rename_i shutdown rest hcontrol
      have hproceed := h.proceed hcontrol nofun nofun
      split_ifs
      · have howned := h.owned_of_mem (a := .flushed shutdown) (by simp [hcontrol]) rfl
        exact { h.finish with
          owner := fun _ => Or.inr rfl
          orphan := fun hfree => absurd howned (by simp [show stream.owned = false from hfree])
          chain := .singleton _
          window := nofun }
      · exact h.finish
      · exact hproceed
    all_goals
      rename_i rest hcontrol
      have hproceed := h.proceed hcontrol nofun nofun
    · exact { hproceed with }
    · exact { hproceed with }
    · exact { hproceed with }
    · exact { hproceed with }
    · exact h.store hcontrol

/-- What a step of the owner does to the queues: it takes from `app_recv`,
and adds to `app_send` what it accepts, which is nothing on a sealed
stream. -/
theorem step_queues (step : Step) :
    (∃ taken, stream.handle.appRecv.bytes = taken ++ (stream.step step).handle.appRecv.bytes) ∧
    (stream.step step).handle.appRecv.capacity = stream.handle.appRecv.capacity ∧
    (stream.step step).delivered = stream.delivered ∧
    ∃ added, (stream.step step).accepted = stream.accepted ++ added ∧
      (stream.step step).handle.appSend.bytes = stream.handle.appSend.bytes ++ added ∧
      (stream.Sealed → added = []) := by
  cases step with
  | begin call =>
    rw [TcpStream.step, begin]
    split_ifs <;> exact ⟨⟨[], rfl⟩, rfl, rfl, [], by simp⟩
  | access front =>
    rw [TcpStream.step, access]
    split
    · exact ⟨⟨[], rfl⟩, rfl, rfl, [], by simp⟩
    · rename_i space rest hcontrol
      exact ⟨⟨_, (stream.handle.appRecv.read_append front space).symm⟩, rfl, rfl, [], by simp⟩
    · split_ifs <;> exact ⟨⟨[], rfl⟩, rfl, rfl, [], by simp⟩
    · rename_i buffer rest hcontrol
      refine ⟨⟨[], rfl⟩, rfl, rfl, _, rfl, stream.handle.appSend.write_bytes buffer, fun hseal => ?_⟩
      exact absurd hseal (h.not_sealed_of_write hcontrol)
    all_goals exact ⟨⟨[], rfl⟩, rfl, rfl, [], by simp [store, TcpStreamHandle.store]⟩

/-- What a step of the owner leaves alone. -/
theorem step_frame (step : Step) :
    (stream.step step).removed = stream.removed ∧ (stream.step step).cramped = stream.cramped ∧
    (stream.step step).has .socketClosed = stream.has .socketClosed ∧
    (stream.step step).has .stopped = stream.has .stopped ∧
    ((stream.step step).owned = true → stream.owned = true ∧
      (stream.step step).has .readClosed = stream.has .readClosed) := by
  cases step with
  | begin call =>
    rw [TcpStream.step, begin]
    split_ifs with hidle
    · exact ⟨rfl, rfl, rfl, rfl, fun _ => ⟨by simp_all, rfl⟩⟩
    · exact ⟨rfl, rfl, rfl, rfl, fun howned => ⟨howned, rfl⟩⟩
  | access front =>
    rw [TcpStream.step, access]
    split
    case h_11 flag rest hcontrol =>
      refine ⟨rfl, rfl, ?_⟩
      show (stream.store flag).has .socketClosed = _ ∧ (stream.store flag).has .stopped = _ ∧
        (stream.owned = true → stream.owned = true ∧ (stream.store flag).has .readClosed = _)
      rw [has_store, has_store, has_store]
      rcases h.store_flag hcontrol with ⟨howned, rfl, -⟩ | ⟨hfree, rfl | rfl | rfl⟩ <;> simp_all
    -- every other access leaves all of it alone
    case h_3 => split_ifs <;> exact ⟨rfl, rfl, rfl, rfl, fun howned => ⟨howned, rfl⟩⟩
    all_goals exact ⟨rfl, rfl, rfl, rfl, fun howned => ⟨howned, rfl⟩⟩

end

/-- **What never goes back**, whoever accesses the stream. -/
structure Later (stream next : TcpStream) : Prop where
  flags : ∀ flag, stream.has flag = true → next.has flag = true
  owned : next.owned = true → stream.owned = true
  cramped : next.cramped = false → stream.cramped = false

theorem Later.refl (stream : TcpStream) : Later stream stream := ⟨fun _ h => h, id, id⟩

theorem Later.step (h : Local legal stream) (step : Step) : Later stream (stream.step step) := by
  obtain ⟨-, hcramped, -, -, howned⟩ := step_frame h step
  exact ⟨fun flag hraised => has_step hraised step, fun hnext => (howned hnext).1,
    fun hnext => hcramped.symm.trans hnext⟩

theorem Later.store (stream : TcpStream) (flag : Flag) : Later stream (stream.store flag) :=
  ⟨fun other hraised => by simp [has_store, hraised], id, id⟩

/-- What holds of the stream of a removed socket: everything that arrived
was delivered, unless its owner dropped it or it was cramped. -/
def Settled (orderly : Prop) (stream : TcpStream) : Prop :=
  ∀ arrived, stream.removed = some arrived → orderly → stream.owned = true →
    stream.cramped = false → arrived = stream.delivered

theorem Settled.step {orderly : Prop} (hsettled : stream.Settled orderly)
    (h : Local legal stream) (step : Step) : (stream.step step).Settled orderly := by
  obtain ⟨hremoved, hcramped, -, -, howned⟩ := step_frame h step
  obtain ⟨-, -, hdelivered, -⟩ := step_queues h step
  intro arrived hsome ho howner hfits
  rw [hdelivered]
  exact hsettled arrived (hremoved.symm.trans hsome) ho (howned howner).1 (hcramped.symm.trans hfits)

/-- A stream in use is not settled yet. -/
theorem Settled.of_present {orderly : Prop} (h : stream.removed = none) :
    stream.Settled orderly := by
  intro arrived hsome
  rw [h] at hsome
  cases hsome

/-! ## The driver's accesses -/

section

variable (h : Local legal stream)

include h

/-- The driver delivers, where the reading side is not closed. -/
theorem Local.deliver (bytes : Bytes)
    (hopen : legal → stream.owned = true → stream.has .readClosed = false)
    (hsocket : stream.has .socketClosed = false) : Local legal (stream.deliver bytes).2 := by
  have hreceived : (stream.deliver bytes).2.delivered =
      stream.returned ++ (stream.deliver bytes).2.handle.appRecv.bytes := by
    unfold TcpStream.deliver
    rw [ByteQueue.write_bytes, ← append_assoc, ← h.received]
  exact { h with
    received := hreceived
    window := by
      intro hlegal _ howned _ hclosed _
      rcases hclosed with hclosed | hclosed
      · rw [show stream.has .readClosed = true from hclosed] at hopen
        cases hopen hlegal howned
      · rw [show stream.has .socketClosed = true from hclosed] at hsocket
        cases hsocket }

theorem Local.takeSend (front space : ℕ) : Local legal (stream.takeSend front space).2 :=
  { h with }

/-- The driver raises a flag that is not the owner's, and may be late. -/
theorem Local.raise {late : Bool} (hdropped : flag ≠ .dropped) (hshutdown : flag ≠ .writeShutdown)
    (hlate : late = false → stream.late = false ∧
      (flag = .readClosed ∨ flag = .socketClosed → stream.has .stopped = false →
        stream.inWindow = true → stream.handle.appRecv.bytes = [])) :
    Local legal { stream.store flag with late := late } := by
  have hsame : ∀ other, other ≠ flag → (stream.store flag).has other = stream.has other := by
    intro other hne
    simp [has_store, hne]
  have hstopped : (stream.store flag).has .stopped = false → stream.has .stopped = false := by
    rw [has_store]
    simp
  exact { h with
    dropped := fun hraised => h.dropped ((hsame _ hdropped.symm).symm.trans hraised)
    shutdown := fun hraised => h.shutdown ((hsame _ hshutdown.symm).symm.trans hraised)
    closes := fun enqueued hmem => ⟨(h.closes enqueued hmem).1, (h.closes enqueued hmem).2.store flag⟩
    window := by
      intro hlegal hontime howned hrunning hclosed hwindow
      obtain ⟨hbefore, hempty⟩ := hlate hontime
      by_cases hflag : flag = .readClosed ∨ flag = .socketClosed
      · exact hempty hflag (hstopped hrunning) hwindow
      · have hread := hsame .readClosed fun heq => hflag (Or.inl heq.symm)
        have hsocket := hsame .socketClosed fun heq => hflag (Or.inr heq.symm)
        exact h.window hlegal hbefore howned (hstopped hrunning)
          (hclosed.imp (hread.symm.trans ·) (hsocket.symm.trans ·)) hwindow
    eofs := fun hlegal hontime => h.eofs hlegal (hlate hontime).1 }

/-- The driver raises a flag that is neither the owner's nor closes the
reading side of a running stream. -/
theorem Local.storeByDriver (hdropped : flag ≠ .dropped) (hshutdown : flag ≠ .writeShutdown)
    (hstopped : flag = .readClosed ∨ flag = .socketClosed → stream.has .stopped = true) :
    Local legal (stream.store flag) := by
  refine h.raise hdropped hshutdown fun hontime => ⟨hontime, fun hflag hrunning => ?_⟩
  rw [hstopped hflag] at hrunning
  cases hrunning

/-- The driver closes the reading side: late, or while no read is in its
window, or while the queue is empty. -/
theorem Local.closeReading
    (hflag : flag = .readClosed ∨ flag = .socketClosed) : Local legal (stream.closeReading flag) := by
  have hdropped : flag ≠ .dropped := by rcases hflag with rfl | rfl <;> decide
  have hshutdown : flag ≠ .writeShutdown := by rcases hflag with rfl | rfl <;> decide
  refine h.raise hdropped hshutdown fun hontime => ?_
  rw [Bool.or_eq_false_iff] at hontime
  refine ⟨hontime.1, fun _ hrunning hwindow => ?_⟩
  rw [hrunning, hwindow] at hontime
  exact (ByteQueue.isEmpty_iff _).mp (by simpa using hontime.2)

/-- The driver closes the socket of a sealed stream that is drained. -/
theorem Local.closeSocket {enqueued : Bytes}
    (haccepted : stream.accepted = enqueued) (hsealed : stream.Sealed) :
    Local legal { stream with closes := enqueued :: stream.closes } :=
  { h with closes := forall_mem_cons.mpr ⟨⟨haccepted, hsealed⟩, h.closes⟩ }

end

end TcpStream

/-! ## A stream and its socket -/

/-- **What ties a stream to the socket of its entry.** What `poll_write`
took is in the socket, and after it in the queue. What arrived went to the
stream, and the rest is unread, where smoltcp is `orderly`. And the
reading side is closed only when the socket has nothing more to read,
where smoltcp is `legal`. -/
structure Link (legal orderly : Prop) (socket : Socket) (stream : TcpStream) : Prop where
  sent : stream.accepted = socket.enqueued ++ stream.handle.appSend.bytes
  connected : stream.has .socketClosed = false
  running : stream.has .stopped = false
  present : stream.removed = none
  received : orderly → socket.arrived = stream.delivered ++ socket.rx
  reading : legal → stream.owned = true → stream.has .readClosed = true →
    socket.readingDone = true

namespace Socket

theorem rx_of_readingDone {socket : Socket} (h : socket.readingDone = true) : socket.rx = [] := by
  unfold readingDone mayRecv at h
  cases hstate : socket.state <;> simp_all

end Socket

namespace Link

variable {legal orderly : Prop} {socket : Socket} {stream : TcpStream}

section

variable (h : Link legal orderly socket stream)

include h

/-- **Every step of the owner keeps the tie.** -/
theorem step (hlocal : stream.Local legal)
    (step : TcpStream.Step) : Link legal orderly socket (stream.step step) := by
  obtain ⟨-, -, hdelivered, added, haccepted, happSend, -⟩ := step_queues hlocal step
  obtain ⟨hremoved, -, hsocket, hstopped, hreading⟩ := step_frame hlocal step
  exact {
    sent := by rw [haccepted, happSend, h.sent, append_assoc]
    connected := by rw [hsocket, h.connected]
    running := by rw [hstopped, h.running]
    present := by rw [hremoved, h.present]
    received := fun ho => by rw [hdelivered, h.received ho]
    reading := fun hl howned hclosed => by
      obtain ⟨howner, hsame⟩ := hreading howned
      exact h.reading hl howner (hsame.symm.trans hclosed) }

/-- A poll of the interface. -/
theorem polled {next : Socket}
    (hlegal : legal → socket.readingDone = true → next.readingDone = true)
    (horderly : orderly → ∃ new, next.rx = socket.rx ++ new) :
    Link legal orderly (socket.polled next) stream :=
  { h with
    received := by
      intro ho
      obtain ⟨new, hrx⟩ := horderly ho
      have hnew : next.rx.drop socket.rx.length = new := by rw [hrx, drop_left]
      show socket.arrived ++ next.rx.drop socket.rx.length = stream.delivered ++ next.rx
      rw [hnew, hrx, h.received ho, append_assoc]
    reading := fun hl howned hclosed => hlegal hl (h.reading hl howned hclosed) }

/-- The bytes that `recv` hands out go to the stream. -/
theorem deliver (front : ℕ) :
    Link legal orderly (socket.dequeue (stream.deliver (socket.readable front)).1)
      (stream.deliver (socket.readable front)).2 := by
  set count := (stream.deliver (socket.readable front)).1 with hcount
  have hle : count ≤ (socket.readable front).length := Nat.min_le_left _ _
  have htaken : (socket.readable front).take count = socket.rx.take count := by
    unfold readable at hle ⊢
    rw [length_take] at hle
    rw [take_take, Nat.min_eq_left (by omega)]
  exact { h with
    received := by
      intro ho
      show socket.arrived = (stream.delivered ++ (socket.readable front).take count) ++
        socket.rx.drop count
      rw [htaken, append_assoc, take_append_drop, h.received ho]
    reading := by
      intro hl howned hclosed
      have hdone := h.reading hl howned hclosed
      have hsame : socket.dequeue count = socket := by
        unfold dequeue
        rw [rx_of_readingDone hdone, drop_nil, ← rx_of_readingDone hdone]
      rw [hsame]
      exact hdone }

/-- The bytes of the stream go into the socket. -/
theorem takeSend (front space : ℕ) :
    Link legal orderly (socket.enqueue (stream.takeSend front space).1)
      (stream.takeSend front space).2 :=
  { h with
    sent := by
      show stream.accepted = (socket.enqueued ++ (stream.takeSend front space).1) ++
        (stream.handle.appSend.read front space).2.bytes
      rw [append_assoc, TcpStream.takeSend, ByteQueue.read_append, h.sent] }

/-- The driver closes the reading side of a socket that is done. -/
theorem endReading (hdone : socket.readingDone = true) :
    Link legal orderly socket (stream.closeReading .readClosed) := by
  have hsame : ∀ other, other ≠ .readClosed →
      (stream.store .readClosed).has other = stream.has other := by
    intro other hne
    simp [has_store, hne]
  exact { h with
    connected := (hsame .socketClosed (by decide)).trans h.connected
    running := (hsame .stopped (by decide)).trans h.running
    reading := fun _ _ _ => hdone }

/-- The driver closes the writing side. -/
theorem endWriting : Link legal orderly socket (stream.store .writeClosed) := by
  have hsame : ∀ other, other ≠ .writeClosed →
      (stream.store .writeClosed).has other = stream.has other := by
    intro other hne
    simp [has_store, hne]
  exact { h with
    connected := (hsame .socketClosed (by decide)).trans h.connected
    running := (hsame .stopped (by decide)).trans h.running
    reading := fun hl howned hclosed =>
      h.reading hl howned ((hsame .readClosed (by decide)).symm.trans hclosed) }

/-- A socket that changes only its state stays done. -/
theorem setState {state : State}
    (hdone : socket.readingDone = true → ({ socket with state } : Socket).readingDone = true) :
    Link legal orderly { socket with state } stream :=
  { h with reading := fun hl howned hclosed => hdone (h.reading hl howned hclosed) }

theorem abort : Link legal orderly socket.abort stream :=
  h.setState fun hdone => by
    have hrx := rx_of_readingDone hdone
    simp [readingDone, pastHandshake, mayRecv, canRecv, hrx]

theorem close : Link legal orderly socket.close stream := by
  unfold Socket.close
  split
  all_goals
    first
      | exact h
      | exact h.setState fun hdone => by
          simp_all [readingDone, pastHandshake, mayRecv, canRecv]

end

end Link

end Vole.Netstack
