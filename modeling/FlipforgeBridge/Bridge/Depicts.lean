import FlipforgeBridge.Bridge.Link
import FlipforgeBridge.Process.Slot

/-!
What it means that a link depicts a scene of the firmware: the shared state is the same, and the
tasks named by the link are the live ones that matter, in their phases. The books of the platform,
which say what names are used and by whom, are in order.
-/
namespace FlipforgeBridge
open Process

namespace Bridge
open Choreography.Scene

variable {secret : Vector UInt8 bridgePairingSecretBytes}

def State.shared (st : State) : Shared where
  machine := st.guarded.machine
  negotiatedBaud := st.guarded.negotiatedBaud
  awaiting := st.guarded.awaitingStatus
  lastStatus := st.guarded.lastStatus
  lost := st.bits.lost
  uartBaud := st.uartBaud
  rpcRx := st.rpcRx
  rxCreated := st.rxCreated
  socketsAccepted := st.socketsAccepted

def Tid.beats : Tid → Bool
  | .heartbeat _ => true
  | _ => false

/-- What the platform keeps about tasks, sockets and the slot. Heartbeat tasks do not matter. -/
structure Ledger where
  rxTask : Option ℕ
  rxCreated : ℕ
  socketsAccepted : ℕ
  clientActive : Bool
  writerDone : ℕ → Bool
  live : Tid → Bool

def State.ledger (st : State) : Ledger where
  rxTask := st.rxTask
  rxCreated := st.rxCreated
  socketsAccepted := st.socketsAccepted
  clientActive := st.clientActive
  writerDone socket := (st.proxy socket).writerDone
  live t := !t.beats && st.live t

namespace SupervisorPhase

/-- There may be a receiving task. -/
def manned : SupervisorPhase → Bool
  | .linked _ | .closing _ _ => true
  | _ => false

/-- The handle the supervisor has read. -/
def seen : SupervisorPhase → Option ℕ
  | .closing _ seen => seen
  | _ => none

end SupervisorPhase

namespace ServerPhase

/-- The connection the accept loop has in hand. -/
def socket : ServerPhase → Option ℕ
  | .listening => none
  | .accepted socket | .holding socket => some socket

/-- The connection for which the accept loop holds the slot. -/
def claimed : ServerPhase → Option ℕ
  | .holding socket => some socket
  | _ => none

end ServerPhase

/-- The books on the receiving tasks; `rx` names the one in charge. -/
structure RxBooks (b : Ledger) (supervisor : SupervisorPhase) (rx : Option ℕ) : Prop where
  handle : ∀ id, rx = some id → b.rxTask = some id
  seen : ∀ id id', supervisor.seen = some id → rx = some id' → id' = id
  manned : supervisor.manned = false → rx = none
  fresh : ∀ id, b.live (.rx id) = true → id < b.rxCreated

/-- The books on sockets and clients; `client` names the one that holds the slot. -/
structure ClientBooks (b : Ledger) (server : ServerPhase) (client : Option (ℕ × ProxyPhase))
    (writer : Option ℕ) : Prop where
  clientFresh : ∀ socket, b.live (.client socket) = true → socket < b.socketsAccepted
  writerFresh : ∀ socket, b.live (.writer socket) = true → socket < b.socketsAccepted
  accepted : ∀ socket, server.socket = some socket → socket < b.socketsAccepted ∧
    b.live (.client socket) = false ∧ b.live (.writer socket) = false
  active : b.clientActive = (server.claimed.isSome || client.isSome)
  single : server.claimed.isSome → client = none
  unserved : ∀ socket proxy, client = some (socket, proxy) → proxy = .none ∨ proxy = .created →
    b.live (.writer socket) = false
  served : ∀ socket, writer = some socket → client = some (socket, .running)
  undone : ∀ socket, client = some (socket, .created) → b.writerDone socket = false
  done : ∀ socket, client = some (socket, .running) → b.writerDone socket = true → writer = none

def rxActs (s : (choreography secret).Scene) (id : ℕ) : Option RxPhase := s.part (.rx id)

def clientActs (s : (choreography secret).Scene) (socket : ℕ) : Option ClientPhase :=
  s.part (.client socket)

/-- The bytes a live writer that is not done has yet to send. -/
def writerActs (s : (choreography secret).Scene) (socket : ℕ) : Option WriterPhase :=
  s.part (.writer socket)

/-- The client that holds the slot, and how far its proxy is. -/
def Link.holder (l : Link) : Option (ℕ × ProxyPhase) :=
  l.client.map fun client => (client.1, client.2.proxy)

structure Depicts (s : (choreography secret).Scene) (l : Link) : Prop where
  shared : s.world.state.shared = l.toShared
  stop : s.world.state.bits.stop = false
  supervisor : s.phase .supervisor = l.supervisor
  server : s.phase .server = l.server
  rx : Occupies (· ≠ .ended) (rxActs s) l.rx
  client : Occupies (fun ph : ClientPhase => ph.session ≠ .released) (clientActs s) l.client
  writer : Occupies (· ≠ .done) (writerActs s)
    (l.writer.map fun writer => (writer.1, .running writer.2))
  rxBooks : RxBooks s.world.state.ledger l.supervisor (l.rx.map Prod.fst)
  clientBooks : ClientBooks s.world.state.ledger l.server l.holder (l.writer.map Prod.fst)

/-! ### Effects the link does not see -/

section Effects
/-- The link sees no difference. -/
def Undisturbed (st st' : State) : Prop :=
  st'.shared = st.shared ∧ st'.ledger = st.ledger ∧ st'.bits.stop = false

theorem ledger_live {st st' : State} (h : st'.ledger = st.ledger) {t : Tid}
    (ht : t.beats = false) : st'.live t = st.live t := by
  have hlive : (!t.beats && st'.live t) = (!t.beats && st.live t) :=
    congrFun (congrArg Ledger.live h) t
  rw [ht] at hlive
  exact hlive

/-- Heartbeat tasks may come and go. -/
theorem ledger_setLive_heartbeat (st : State) (id : ℕ) (alive : Bool) :
    (st.setLive (.heartbeat id) alive).ledger = st.ledger := by
  have hlive : (st.setLive (.heartbeat id) alive).ledger.live = st.ledger.live := by
    funext t
    change (!t.beats && Function.update st.live (.heartbeat id) alive t) = (!t.beats && st.live t)
    by_cases ht : t = .heartbeat id
    · rw [ht]
      rfl
    · rw [Function.update_of_ne ht]
  exact congrArg (fun live => { st.ledger with live := live }) hlive

theorem effect_take {held taken : Bool} {held' st st' : State}
    (h : take held taken held' st = some st') : st' = held' ∨ st' = st := by
  unfold take at h
  split at h
  · split at h
    · cases h
    · exact .inl (Option.some_inj.mp h).symm
  · exact .inr (Option.some_inj.mp h).symm

variable {i : Tid} {o : Op} {r : o.Res} {st st' : State}

theorem effect_locked {sec : Section} {r : sec.Res} (h : effect i (.locked sec) r st = some st') :
    ∃ guarded, sec.run r st.guarded = some guarded ∧ st' = { st with guarded := guarded } := by
  obtain ⟨guarded, hrun, rfl⟩ := Option.map_eq_some_iff.mp h
  exact ⟨guarded, hrun, rfl⟩

theorem effect_quiet_locked {sec : Section} {r : sec.Res} (ho : quiet (.locked sec) = true)
    (hstop : st.bits.stop = false) (h : effect i (.locked sec) r st = some st') :
    Undisturbed st st' := by
  obtain ⟨guarded, hrun, rfl⟩ := effect_locked h
  cases sec with
  | markRxActivity | markTxActivity | restartActivity =>
    obtain rfl := Option.some_inj.mp hrun
    exact ⟨rfl, rfl, hstop⟩
  | negotiatedBaud | activity =>
    obtain ⟨-, ⟨⟩⟩ := Option.ite_none_right_eq_some.mp hrun
    exact ⟨rfl, rfl, hstop⟩
  | _ => cases ho

theorem effect_quiet (ho : quiet o = true) (hstop : st.bits.stop = false)
    (h : effect i o r st = some st') : Undisturbed st st' := by
  have hsame : Undisturbed st st := ⟨rfl, rfl, hstop⟩
  cases o with
  | locked sec => exact effect_quiet_locked ho hstop h
  | setReady | setReconnect | clearReconnect | clearReady | giveTxMutex | giveRequestMutex
  | giveStatus =>
    obtain rfl := Option.some_inj.mp h
    exact ⟨rfl, rfl, hstop⟩
  | waitRetry =>
    obtain ⟨-, ⟨⟩⟩ := Option.ite_none_right_eq_some.mp h
    exact ⟨rfl, rfl, rfl⟩
  | takeTxMutex | takeRequestMutex | waitStatus =>
    obtain rfl | rfl := effect_take h
    · exact ⟨rfl, rfl, hstop⟩
    · exact hsame
  | pollStatus =>
    obtain ⟨-, ⟨⟩⟩ := Option.ite_none_right_eq_some.mp h
    exact ⟨rfl, rfl, hstop⟩
  | taskCreate kind =>
    cases kind with
    | heartbeat =>
      obtain rfl := Option.some_inj.mp h
      cases r with
      | false => exact hsame
      | true => exact ⟨rfl, ledger_setLive_heartbeat st st.heartbeatCreated true, hstop⟩
    | _ => cases ho
  | taskHandle kind =>
    cases kind with
    | heartbeat =>
      obtain ⟨-, ⟨⟩⟩ := Option.ite_none_right_eq_some.mp h
      exact hsame
    | _ => cases ho
  | clearTaskHandle kind =>
    cases kind with
    | heartbeat =>
      obtain rfl := Option.some_inj.mp h
      exact ⟨rfl, rfl, hstop⟩
    | _ => cases ho
  | running | proxyBits socket =>
    obtain ⟨-, ⟨⟩⟩ := Option.ite_none_right_eq_some.mp h
    exact hsame
  | recv socket size =>
    cases r with
    | data bytes =>
      obtain ⟨-, ⟨⟩⟩ := Option.ite_none_right_eq_some.mp h
      exact hsame
    | _ =>
      obtain rfl := Option.some_inj.mp h
      exact hsame
  | proxySetStop socket =>
    obtain rfl := Option.some_inj.mp h
    have hdone : (fun n => (Function.update st.proxy socket { st.proxy socket with stop := true }
        n).writerDone) = fun n => (st.proxy n).writerDone := by
      funext n
      by_cases hn : n = socket
      · rw [hn, Function.update_self]
      · rw [Function.update_of_ne hn]
    exact ⟨rfl,
      congrArg (fun writerDone => { st.ledger with writerDone := writerDone }) hdone, hstop⟩
  | eventBits | setLost _ | clearLostReady | waitLost | uartParamConfig _ | uartSetBaudrate _
  | uartWriteBytes _ | uartReadByte | streamBytesAvailable | streamSend _ | streamReceive _
  | streamReset | taskDelete _ _ | taskDeleteSelf | accept | send _ _ | claimClient | releaseClient
  | proxyCreate _ | proxySetDone _ | proxyWaitDone _ | mark _ => cases ho
  | _ =>
    obtain rfl := Option.some_inj.mp h
    exact hsame

end Effects

/-! ### Moves of one task

No task is created or deleted, and the shared state is whatever the move has made of it. Each lemma
says what becomes of the link, given that the books of the new state are in order. -/

section Moves
variable {s : (choreography secret).Scene} {l : Link} {st : State} {trace : List Entry}

/-- The same tasks are live. -/
def SameTasks (s : (choreography secret).Scene) (st : State) : Prop :=
  ∀ t : Tid, t.beats = false → st.live t = s.world.state.live t

theorem sameTasks_of_ledger (h : st.ledger = s.world.state.ledger) : SameTasks s st :=
  fun _ ht => ledger_live h ht

theorem phase_of_ne {i t : Tid} {ph : (choreography secret).Phase i} (h : t ≠ i)
    (hlive : st.live t = s.world.state.live t) :
    (s.moved i ph ⟨st, trace⟩).phase t = s.phase t := by
  apply Choreography.Scene.moved_phase_of_ne ph h
  cases hold : s.world.state.live t with
  | false => exact .inr (hlive.trans hold)
  | true => exact .inl hold

theorem phase_self {i : Tid} {ph : (choreography secret).Phase i}
    (live : s.world.state.live i = true) : (s.moved i ph ⟨st, trace⟩).phase i = ph :=
  Choreography.Scene.moved_phase_self ph live

/-- A task that stays in its phase. -/
theorem Depicts.stands {i : Tid} (h : Depicts s l) (live : s.world.state.live i = true)
    (hst : Undisturbed s.world.state st) :
    Depicts (s.moved i (s.phase i) ⟨st, trace⟩) l := by
  obtain ⟨hshared, hledger, hstop⟩ := hst
  have hlive : SameTasks s st := sameTasks_of_ledger hledger
  have hpart : ∀ t : Tid, t.beats = false →
      (s.moved i (s.phase i) ⟨st, trace⟩).part t = s.part t := by
    intro t ht
    by_cases hti : t = i
    · subst hti
      rw [part_moved_live live ((hlive t ht).trans live), part_of_live live]
    · exact part_moved_of_ne hti (hlive t ht)
  have hphase : ∀ t : Tid, t.beats = false →
      (s.moved i (s.phase i) ⟨st, trace⟩).phase t = s.phase t := by
    intro t ht
    by_cases hti : t = i
    · subst hti
      exact phase_self live
    · exact phase_of_ne hti (hlive t ht)
  exact {
    shared := hshared.trans h.shared
    stop := hstop
    supervisor := (hphase .supervisor rfl).trans h.supervisor
    server := (hphase .server rfl).trans h.server
    rx := h.rx.congr fun id => hpart (.rx id) rfl
    client := h.client.congr fun socket => hpart (.client socket) rfl
    writer := h.writer.congr fun socket => hpart (.writer socket) rfl
    rxBooks := hledger ▸ h.rxBooks
    clientBooks := hledger ▸ h.clientBooks }

theorem Depicts.supervisor_moves (h : Depicts s l) (live : s.world.state.live .supervisor = true)
    {ph : SupervisorPhase} (hlive : SameTasks s st) (hstop : st.bits.stop = false)
    (hrx : RxBooks st.ledger ph (l.rx.map Prod.fst))
    (hclient : ClientBooks st.ledger l.server l.holder (l.writer.map Prod.fst)) :
    Depicts (s.moved .supervisor ph ⟨st, trace⟩)
      { l with toShared := st.shared, supervisor := ph } where
  shared := rfl
  stop := hstop
  supervisor := phase_self live
  server := (phase_of_ne (by simp) (hlive _ rfl)).trans h.server
  rx := h.rx.congr fun id => part_moved_of_ne (by simp) (hlive _ rfl)
  client := h.client.congr fun socket => part_moved_of_ne (by simp) (hlive _ rfl)
  writer := h.writer.congr fun socket => part_moved_of_ne (by simp) (hlive _ rfl)
  rxBooks := hrx
  clientBooks := hclient

theorem Depicts.server_moves (h : Depicts s l) (live : s.world.state.live .server = true)
    {ph : ServerPhase} (hlive : SameTasks s st) (hstop : st.bits.stop = false)
    (hrx : RxBooks st.ledger l.supervisor (l.rx.map Prod.fst))
    (hclient : ClientBooks st.ledger ph l.holder (l.writer.map Prod.fst)) :
    Depicts (s.moved .server ph ⟨st, trace⟩) { l with toShared := st.shared, server := ph } where
  shared := rfl
  stop := hstop
  supervisor := (phase_of_ne (by simp) (hlive _ rfl)).trans h.supervisor
  server := phase_self live
  rx := h.rx.congr fun id => part_moved_of_ne (by simp) (hlive _ rfl)
  client := h.client.congr fun socket => part_moved_of_ne (by simp) (hlive _ rfl)
  writer := h.writer.congr fun socket => part_moved_of_ne (by simp) (hlive _ rfl)
  rxBooks := hrx
  clientBooks := hclient

/-- A task other than the two that are always there. -/
theorem Depicts.other_moves {i : Tid} {ph : (choreography secret).Phase i} (h : Depicts s l)
    (hserver : i ≠ .server) (hsupervisor : i ≠ .supervisor) (hlive : SameTasks s st)
    (hstop : st.bits.stop = false) {rx : Option (ℕ × RxPhase)} {client : Option (ℕ × ClientPhase)}
    {writer : Option (ℕ × List UInt8)}
    (hrx : Occupies (· ≠ .ended) (rxActs (s.moved i ph ⟨st, trace⟩)) rx)
    (hclient : Occupies (fun ph : ClientPhase => ph.session ≠ .released)
      (clientActs (s.moved i ph ⟨st, trace⟩)) client)
    (hwriter : Occupies (· ≠ .done) (writerActs (s.moved i ph ⟨st, trace⟩))
      (writer.map fun writer => (writer.1, .running writer.2)))
    (hrxBooks : RxBooks st.ledger l.supervisor (rx.map Prod.fst))
    (hclientBooks : ClientBooks st.ledger l.server
      (client.map fun client => (client.1, client.2.proxy)) (writer.map Prod.fst)) :
    Depicts (s.moved i ph ⟨st, trace⟩)
      { toShared := st.shared, supervisor := l.supervisor, server := l.server, rx, client,
        writer } where
  shared := rfl
  stop := hstop
  supervisor := (phase_of_ne hsupervisor.symm (hlive _ rfl)).trans h.supervisor
  server := (phase_of_ne hserver.symm (hlive _ rfl)).trans h.server
  rx := hrx
  client := hclient
  writer := hwriter
  rxBooks := hrxBooks
  clientBooks := hclientBooks

section Rx
variable {id : ℕ} {old ph : RxPhase}

theorem Depicts.rx_live (h : Depicts s l) (hrx : l.rx = some (id, old)) :
    s.world.state.live (.rx id) = true ∧ s.phase (.rx id) = old := by
  have hslot := h.rx
  rw [hrx] at hslot
  exact live_of_part hslot.of_named.1

theorem rxActs_self (live : s.world.state.live (.rx id) = true) (hlive : SameTasks s st) :
    rxActs (s.moved (.rx id) ph ⟨st, trace⟩) id = some ph :=
  part_moved_live live ((hlive _ rfl).trans live)

theorem rxActs_of_ne (hlive : SameTasks s st) {n : ℕ} (hn : n ≠ id) :
    rxActs (s.moved (.rx id) ph ⟨st, trace⟩) n = rxActs s n :=
  part_moved_of_ne (by simpa using hn) (hlive _ rfl)

theorem Depicts.rx_moves (h : Depicts s l) (hrx : l.rx = some (id, old)) (hph : ph ≠ .ended)
    (hledger : st.ledger = s.world.state.ledger) (hstop : st.bits.stop = false) :
    Depicts (s.moved (.rx id) ph ⟨st, trace⟩)
      { l with toShared := st.shared, rx := some (id, ph) } := by
  have hlive : SameTasks s st := sameTasks_of_ledger hledger
  have hslot := h.rx
  have hbooks := h.rxBooks
  rw [hrx] at hslot hbooks
  apply h.other_moves (by simp) (by simp) hlive hstop
  · exact hslot.move (rxActs_self (h.rx_live hrx).1 hlive) hph fun n => rxActs_of_ne hlive
  · exact h.client.congr fun socket => part_moved_of_ne (by simp) (hlive _ rfl)
  · exact h.writer.congr fun socket => part_moved_of_ne (by simp) (hlive _ rfl)
  · exact hledger ▸ hbooks
  · exact hledger ▸ h.clientBooks

/-- The receiving task has cleared its handle. -/
theorem Depicts.rx_leaves (h : Depicts s l) (hrx : l.rx = some (id, old))
    (hlive : SameTasks s st) (hstop : st.bits.stop = false)
    (hbooks : RxBooks st.ledger l.supervisor none)
    (hclient : ClientBooks st.ledger l.server l.holder (l.writer.map Prod.fst)) :
    Depicts (s.moved (.rx id) RxPhase.ended ⟨st, trace⟩)
      { l with toShared := st.shared, rx := none } := by
  have hslot := h.rx
  rw [hrx] at hslot
  apply h.other_moves (by simp) (by simp) hlive hstop
  · apply hslot.leave _ fun n => rxActs_of_ne hlive
    intro ph hph hne
    rw [rxActs_self (h.rx_live hrx).1 hlive] at hph
    exact hne (Option.some_inj.mp hph).symm
  · exact h.client.congr fun socket => part_moved_of_ne (by simp) (hlive _ rfl)
  · exact h.writer.congr fun socket => part_moved_of_ne (by simp) (hlive _ rfl)
  · exact hbooks
  · exact hclient

end Rx

section Client
variable {socket : ℕ} {old ph : ClientPhase}

theorem Depicts.client_live (h : Depicts s l) (hclient : l.client = some (socket, old)) :
    s.world.state.live (.client socket) = true ∧ s.phase (.client socket) = old ∧
      old.session ≠ .released := by
  have hslot := h.client
  rw [hclient] at hslot
  obtain ⟨hpart, hold⟩ := hslot.of_named
  obtain ⟨hlive, hphase⟩ := live_of_part hpart
  exact ⟨hlive, hphase, hold⟩

theorem clientActs_self (live : s.world.state.live (.client socket) = true)
    (hlive : SameTasks s st) :
    clientActs (s.moved (.client socket) ph ⟨st, trace⟩) socket = some ph :=
  part_moved_live live ((hlive _ rfl).trans live)

theorem clientActs_of_ne (hlive : SameTasks s st) {n : ℕ} (hn : n ≠ socket) :
    clientActs (s.moved (.client socket) ph ⟨st, trace⟩) n = clientActs s n :=
  part_moved_of_ne (by simpa using hn) (hlive _ rfl)

theorem Depicts.client_moves (h : Depicts s l) (hclient : l.client = some (socket, old))
    (hph : ph.session ≠ .released) (hlive : SameTasks s st) (hstop : st.bits.stop = false)
    (hrx : RxBooks st.ledger l.supervisor (l.rx.map Prod.fst))
    (hbooks : ClientBooks st.ledger l.server (some (socket, ph.proxy)) (l.writer.map Prod.fst)) :
    Depicts (s.moved (.client socket) ph ⟨st, trace⟩)
      { l with toShared := st.shared, client := some (socket, ph) } := by
  have hslot := h.client
  rw [hclient] at hslot
  apply h.other_moves (by simp) (by simp) hlive hstop
  · exact h.rx.congr fun id => part_moved_of_ne (by simp) (hlive _ rfl)
  · exact hslot.move (clientActs_self (h.client_live hclient).1 hlive) hph
      fun n => clientActs_of_ne hlive
  · exact h.writer.congr fun socket => part_moved_of_ne (by simp) (hlive _ rfl)
  · exact hrx
  · exact hbooks

/-- The client has released the slot. -/
theorem Depicts.client_leaves (h : Depicts s l) (hclient : l.client = some (socket, old))
    (hph : ph.session = .released) (hlive : SameTasks s st) (hstop : st.bits.stop = false)
    (hrx : RxBooks st.ledger l.supervisor (l.rx.map Prod.fst))
    (hbooks : ClientBooks st.ledger l.server none (l.writer.map Prod.fst)) :
    Depicts (s.moved (.client socket) ph ⟨st, trace⟩)
      { l with toShared := st.shared, client := none } := by
  have hslot := h.client
  rw [hclient] at hslot
  apply h.other_moves (by simp) (by simp) hlive hstop
  · exact h.rx.congr fun id => part_moved_of_ne (by simp) (hlive _ rfl)
  · apply hslot.leave _ fun n => clientActs_of_ne hlive
    intro ph' hph' hne
    rw [clientActs_self (h.client_live hclient).1 hlive] at hph'
    cases hph'
    exact hne hph
  · exact h.writer.congr fun socket => part_moved_of_ne (by simp) (hlive _ rfl)
  · exact hrx
  · exact hbooks

end Client

section Writer
variable {socket : ℕ} {old rest : List UInt8}

theorem Depicts.writer_live (h : Depicts s l) (hwriter : l.writer = some (socket, old)) :
    s.world.state.live (.writer socket) = true ∧
      s.phase (.writer socket) = WriterPhase.running old := by
  have hslot := h.writer
  rw [hwriter] at hslot
  exact live_of_part hslot.of_named.1

theorem writerActs_self {ph : WriterPhase} (live : s.world.state.live (.writer socket) = true)
    (hlive : SameTasks s st) :
    writerActs (s.moved (.writer socket) ph ⟨st, trace⟩) socket = some ph :=
  part_moved_live live ((hlive _ rfl).trans live)

theorem writerActs_of_ne {ph : WriterPhase} (hlive : SameTasks s st) {n : ℕ} (hn : n ≠ socket) :
    writerActs (s.moved (.writer socket) ph ⟨st, trace⟩) n = writerActs s n :=
  part_moved_of_ne (by simpa using hn) (hlive _ rfl)

theorem Depicts.writer_moves (h : Depicts s l) (hwriter : l.writer = some (socket, old))
    (hledger : st.ledger = s.world.state.ledger) (hstop : st.bits.stop = false) :
    Depicts (s.moved (.writer socket) (WriterPhase.running rest) ⟨st, trace⟩)
      { l with toShared := st.shared, writer := some (socket, rest) } := by
  have hlive : SameTasks s st := sameTasks_of_ledger hledger
  have hslot := h.writer
  have hbooks := h.clientBooks
  rw [hwriter] at hslot hbooks
  apply h.other_moves (by simp) (by simp) hlive hstop
  · exact h.rx.congr fun id => part_moved_of_ne (by simp) (hlive _ rfl)
  · exact h.client.congr fun socket => part_moved_of_ne (by simp) (hlive _ rfl)
  · exact hslot.move (writerActs_self (h.writer_live hwriter).1 hlive) (by simp)
      fun n => writerActs_of_ne hlive
  · exact hledger ▸ h.rxBooks
  · exact hledger ▸ hbooks

/-- The writer has said that it is done. -/
theorem Depicts.writer_leaves (h : Depicts s l) (hwriter : l.writer = some (socket, old))
    (hlive : SameTasks s st) (hstop : st.bits.stop = false)
    (hrx : RxBooks st.ledger l.supervisor (l.rx.map Prod.fst))
    (hbooks : ClientBooks st.ledger l.server l.holder none) :
    Depicts (s.moved (.writer socket) WriterPhase.done ⟨st, trace⟩)
      { l with toShared := st.shared, writer := none } := by
  have hslot := h.writer
  rw [hwriter] at hslot
  apply h.other_moves (by simp) (by simp) hlive hstop
  · exact h.rx.congr fun id => part_moved_of_ne (by simp) (hlive _ rfl)
  · exact h.client.congr fun socket => part_moved_of_ne (by simp) (hlive _ rfl)
  · apply hslot.leave _ fun n => writerActs_of_ne hlive
    intro ph hph hne
    rw [writerActs_self (h.writer_live hwriter).1 hlive] at hph
    exact hne (Option.some_inj.mp hph).symm
  · exact hrx
  · exact hbooks

end Writer

/-! ### Deletions -/

section Deaths
variable {i t : Tid}

theorem setLive_of_ne {st : State} {alive : Bool} {n : Tid} (h : n ≠ t) :
    (st.setLive t alive).live n = st.live n :=
  Function.update_of_ne h _ _

theorem setLive_self {st : State} {alive : Bool} : (st.setLive t alive).live t = alive :=
  Function.update_self _ _ _

theorem live_of_setLive {st : State} {n : Tid} (h : (st.setLive t false).live n = true) :
    st.live n = true := by
  by_cases hn : n = t
  · subst hn
    rw [setLive_self] at h
    cases h
  · rwa [setLive_of_ne hn] at h

/-- The books stay in order when a task goes. -/
theorem RxBooks.delete {st : State} {supervisor : SupervisorPhase} {rx : Option ℕ}
    (h : RxBooks st.ledger supervisor rx) :
    RxBooks (st.setLive t false).ledger supervisor rx where
  handle := h.handle
  seen := h.seen
  manned := h.manned
  fresh _ hlive := h.fresh _ (live_of_setLive hlive)

theorem ledger_live_delete {st : State} {n : Tid} (h : st.ledger.live n = false) :
    (st.setLive t false).ledger.live n = false := by
  change (!n.beats && (st.setLive t false).live n) = false
  change (!n.beats && st.live n) = false at h
  cases hlive : (st.setLive t false).live n with
  | false => exact Bool.and_false _
  | true => rwa [live_of_setLive hlive] at h

theorem ClientBooks.delete {st : State} {server : ServerPhase}
    {client : Option (ℕ × ProxyPhase)} {writer : Option ℕ}
    (h : ClientBooks st.ledger server client writer) :
    ClientBooks (st.setLive t false).ledger server client writer where
  clientFresh _ hlive := h.clientFresh _ (live_of_setLive hlive)
  writerFresh _ hlive := h.writerFresh _ (live_of_setLive hlive)
  accepted socket hsocket := by
    obtain ⟨hlt, hclient, hwriter⟩ := h.accepted socket hsocket
    exact ⟨hlt, ledger_live_delete hclient, ledger_live_delete hwriter⟩
  active := h.active
  single := h.single
  unserved socket proxy hclient hproxy :=
    ledger_live_delete (h.unserved socket proxy hclient hproxy)
  served := h.served
  undone := h.undone
  done := h.done

theorem part_deleted {ph : (choreography secret).Phase i} :
    (s.moved i ph ⟨s.world.state.setLive t false, trace⟩).part t = none :=
  part_eq_none.mpr setLive_self

theorem part_of_ne_deleted {ph : (choreography secret).Phase i} {n : Tid} (hi : n ≠ i)
    (ht : n ≠ t) : (s.moved i ph ⟨s.world.state.setLive t false, trace⟩).part n = s.part n :=
  part_moved_of_ne hi (setLive_of_ne ht)

/-- A task that the link does not name deletes itself. -/
theorem Depicts.dies (h : Depicts s l) (live : s.world.state.live i = true)
    (hrx : ∀ id ph, i = .rx id → l.rx ≠ some (id, ph))
    (hclient : ∀ socket ph, i = .client socket → l.client ≠ some (socket, ph))
    (hwriter : ∀ socket rest, i = .writer socket → l.writer ≠ some (socket, rest)) :
    Depicts (s.moved i (s.phase i) ⟨s.world.state.setLive i false, trace⟩) l where
  shared := h.shared
  stop := h.stop
  supervisor := by
    rw [← h.supervisor]
    by_cases hi : Tid.supervisor = i
    · subst hi
      exact phase_self live
    · exact phase_of_ne hi (setLive_of_ne hi)
  server := by
    rw [← h.server]
    by_cases hi : Tid.server = i
    · subst hi
      exact phase_self live
    · exact phase_of_ne hi (setLive_of_ne hi)
  rx := by
    apply h.rx.fade
    intro id
    by_cases hi : Tid.rx id = i
    · subst hi
      exact .inr ⟨part_deleted, fun ph hph hactive => hrx id ph rfl (h.rx.eq_some hph hactive)⟩
    · exact .inl (part_of_ne_deleted hi hi)
  client := by
    apply h.client.fade
    intro socket
    by_cases hi : Tid.client socket = i
    · subst hi
      exact .inr ⟨part_deleted,
        fun ph hph hactive => hclient socket ph rfl (h.client.eq_some hph hactive)⟩
    · exact .inl (part_of_ne_deleted hi hi)
  writer := by
    apply h.writer.fade
    intro socket
    by_cases hi : Tid.writer socket = i
    · subst hi
      refine .inr ⟨part_deleted, fun ph hph hactive => ?_⟩
      have hslot := h.writer.eq_some hph hactive
      obtain ⟨⟨socket', rest⟩, hrest, hmapped⟩ := Option.map_eq_some_iff.mp hslot
      cases hmapped
      exact hwriter _ rest rfl hrest
    · exact .inl (part_of_ne_deleted hi hi)
  rxBooks := h.rxBooks.delete
  clientBooks := h.clientBooks.delete

/-- The supervisor deletes the receiving task. -/
theorem Depicts.supervisor_deletes (h : Depicts s l)
    (live : s.world.state.live .supervisor = true) {id : ℕ}
    (hid : ∀ n ph, l.rx = some (n, ph) → n = id) (ph : SupervisorPhase) :
    Depicts (s.moved .supervisor ph ⟨s.world.state.setLive (.rx id) false, trace⟩)
      { l with supervisor := ph, rx := none } where
  shared := h.shared
  stop := h.stop
  supervisor := phase_self live
  server := (phase_of_ne (by simp) (setLive_of_ne (by simp))).trans h.server
  rx := by
    have hself : rxActs (s.moved .supervisor ph ⟨s.world.state.setLive (.rx id) false, trace⟩) id =
        none := part_deleted
    have hother : ∀ n, n ≠ id →
        rxActs (s.moved .supervisor ph ⟨s.world.state.setLive (.rx id) false, trace⟩) n =
          rxActs s n :=
      fun n hn => part_of_ne_deleted (by simp) (by simpa using hn)
    cases hrx : l.rx with
    | none =>
      apply (hrx ▸ h.rx).fade
      intro n
      by_cases hn : n = id
      · subst hn
        exact .inr ⟨hself, fun ph hph => (hrx ▸ h.rx).not_active hph⟩
      · exact .inl (hother n hn)
    | some named =>
      obtain ⟨n, old⟩ := named
      obtain rfl := hid n old hrx
      apply (hrx ▸ h.rx).leave _ hother
      intro ph hph
      rw [hself] at hph
      cases hph
  client := by
    apply h.client.congr
    intro socket
    exact part_of_ne_deleted (by simp) (by simp)
  writer := by
    apply h.writer.congr
    intro socket
    exact part_of_ne_deleted (by simp) (by simp)
  rxBooks := ⟨by simp, by simp, by simp, fun n hn => h.rxBooks.fresh n (live_of_setLive hn)⟩
  clientBooks := h.clientBooks.delete

end Deaths

/-! ### Creations -/

section Births

theorem ClientBooks.frame {b b' : Ledger} {server : ServerPhase} {client : Option (ℕ × ProxyPhase)}
    {writer : Option ℕ} (h : ClientBooks b server client writer)
    (hsockets : b'.socketsAccepted = b.socketsAccepted) (hactive : b'.clientActive = b.clientActive)
    (hdone : b'.writerDone = b.writerDone)
    (hclient : ∀ socket, b'.live (.client socket) = b.live (.client socket))
    (hwriter : ∀ socket, b'.live (.writer socket) = b.live (.writer socket)) :
    ClientBooks b' server client writer where
  clientFresh socket := by simpa only [hsockets, hclient] using h.clientFresh socket
  writerFresh socket := by simpa only [hsockets, hwriter] using h.writerFresh socket
  accepted socket := by simpa only [hsockets, hclient, hwriter] using h.accepted socket
  active := by simpa only [hactive] using h.active
  single := h.single
  unserved socket := by simpa only [hwriter] using h.unserved socket
  served := h.served
  undone socket := by simpa only [hdone] using h.undone socket
  done socket := by simpa only [hdone] using h.done socket

theorem RxBooks.frame {b b' : Ledger} {supervisor : SupervisorPhase} {rx : Option ℕ}
    (h : RxBooks b supervisor rx) (htask : b'.rxTask = b.rxTask)
    (hcreated : b'.rxCreated = b.rxCreated) (hlive : ∀ id, b'.live (.rx id) = b.live (.rx id)) :
    RxBooks b' supervisor rx where
  handle id := by simpa only [htask] using h.handle id
  seen := h.seen
  manned := h.manned
  fresh id := by simpa only [hcreated, hlive] using h.fresh id

/-- The name of the next task of a kind. -/
def State.nextTid (st : State) : TaskKind → Tid
  | .client socket => .client socket
  | .writer socket => .writer socket
  | .rx => .rx st.rxCreated
  | .heartbeat => .heartbeat st.heartbeatCreated

theorem create_live_self (st : State) (kind : TaskKind) :
    (st.create kind).live (st.nextTid kind) = true := by
  cases kind <;> exact setLive_self

theorem create_live_of_ne (st : State) (kind : TaskKind) {n : Tid} (h : n ≠ st.nextTid kind) :
    (st.create kind).live n = st.live n := by
  cases kind <;> exact setLive_of_ne h

/-- The liveness of another task, as the books have it. -/
theorem create_ledger_live (st : State) (kind : TaskKind) {n : Tid} (h : n ≠ st.nextTid kind) :
    (st.create kind).ledger.live n = st.ledger.live n := by
  change (!n.beats && (st.create kind).live n) = (!n.beats && st.live n)
  rw [create_live_of_ne st kind h]

/-- The supervisor creates a receiving task. -/
theorem Depicts.supervisor_creates (h : Depicts s l)
    (live : s.world.state.live .supervisor = true) (hrx : l.rx = none) {ph : SupervisorPhase}
    (hmanned : ph.manned = true) (hseen : ph.seen = none) :
    Depicts (s.moved .supervisor ph ⟨s.world.state.create .rx, trace⟩)
      { l with
        toShared := (s.world.state.create .rx).shared
        supervisor := ph
        rx := some (s.world.state.rxCreated, .reading) } := by
  have hlive : ∀ n : Tid, n ≠ .rx s.world.state.rxCreated →
      (s.world.state.create .rx).live n = s.world.state.live n :=
        fun _ hn => create_live_of_ne _ _ hn
  have hnew : (s.world.state.create .rx).live (.rx s.world.state.rxCreated) = true :=
    create_live_self _ _
  have hledger : ∀ n : Tid, n ≠ .rx s.world.state.rxCreated →
      (s.world.state.create .rx).ledger.live n = s.world.state.ledger.live n :=
    fun _ hn => create_ledger_live _ _ hn
  exact {
    shared := rfl
    stop := h.stop
    supervisor := phase_self live
    server := (phase_of_ne (by simp) (hlive _ (by simp))).trans h.server
    rx := by
      have hold : s.world.state.live (.rx s.world.state.rxCreated) = false := by
        apply Bool.eq_false_iff.mpr
        intro hlive
        exact absurd (h.rxBooks.fresh _ hlive) (Nat.lt_irrefl _)
      have hself : rxActs (s.moved .supervisor ph ⟨s.world.state.create .rx, trace⟩)
          s.world.state.rxCreated = some .reading := part_moved_created hold hnew
      apply (hrx ▸ h.rx).enter hself (by simp)
      intro n hn
      exact part_moved_of_ne (by simp) (hlive _ (by simpa using hn))
    client :=
      h.client.congr fun socket => part_moved_of_ne (by simp) (hlive (.client socket) (by simp))
    writer :=
      h.writer.congr fun socket => part_moved_of_ne (by simp) (hlive (.writer socket) (by simp))
    rxBooks := by
      refine ⟨?_, by simp [hseen], by simp [hmanned], ?_⟩
      · rintro id ⟨⟩
        rfl
      · intro id hlive
        change id < s.world.state.rxCreated + 1
        by_cases hid : id = s.world.state.rxCreated
        · omega
        · have hold : s.world.state.ledger.live (.rx id) = true := by
            exact (hledger _ (by simpa using hid)).symm.trans hlive
          exact Nat.lt_succ_of_lt (h.rxBooks.fresh id hold)
    clientBooks := h.clientBooks.frame rfl rfl rfl
      (fun socket => hledger _ (by simp)) fun socket => hledger _ (by simp) }

/-- The accept loop creates the task of the client it holds the slot for. -/
theorem Depicts.server_creates (h : Depicts s l) (live : s.world.state.live .server = true)
    {socket : ℕ} (hserver : l.server = .holding socket) :
    Depicts (s.moved .server ServerPhase.listening ⟨s.world.state.create (.client socket), trace⟩)
      { l with server := .listening, client := some (socket, managing) } := by
  have hclaimed : l.server.claimed.isSome = true := by
    rw [hserver]
    rfl
  have hholder := h.clientBooks.single hclaimed
  have hclient : l.client = none := by
    cases hclient : l.client with
    | none => rfl
    | some client => simp [Link.holder, hclient] at hholder
  have haccepted := h.clientBooks.accepted socket (by rw [hserver]; rfl)
  have hwriter : l.writer.map Prod.fst = none := by
    cases hwriter : l.writer.map Prod.fst with
    | none => rfl
    | some n =>
      have hserved := h.clientBooks.served n hwriter
      rw [hholder] at hserved
      cases hserved
  have hlive : ∀ n : Tid, n ≠ .client socket →
      (s.world.state.create (.client socket)).live n = s.world.state.live n :=
        fun _ hn => create_live_of_ne _ _ hn
  have hnew : (s.world.state.create (.client socket)).live (.client socket) = true :=
    create_live_self _ _
  have hledger : ∀ n : Tid, n ≠ .client socket →
      (s.world.state.create (.client socket)).ledger.live n = s.world.state.ledger.live n :=
    fun _ hn => create_ledger_live _ _ hn
  exact {
    shared := h.shared
    stop := h.stop
    supervisor := (phase_of_ne (by simp) (hlive _ (by simp))).trans h.supervisor
    server := phase_self live
    rx := h.rx.congr fun id => part_moved_of_ne (by simp) (hlive (.rx id) (by simp))
    client := by
      have hself : clientActs (s.moved .server ServerPhase.listening
          ⟨s.world.state.create (.client socket), trace⟩) socket = some managing :=
        part_moved_created haccepted.2.1 hnew
      apply (hclient ▸ h.client).enter hself (by simp)
      intro n hn
      exact part_moved_of_ne (by simp) (hlive _ (by simpa using hn))
    writer := h.writer.congr fun n => part_moved_of_ne (by simp) (hlive (.writer n) (by simp))
    rxBooks := h.rxBooks.frame rfl rfl fun id => hledger _ (by simp)
    clientBooks := {
      clientFresh := by
        intro n hn
        by_cases hsocket : n = socket
        · exact hsocket ▸ haccepted.1
        · apply h.clientBooks.clientFresh n
          exact (hledger _ (by simpa using hsocket)).symm.trans hn
      writerFresh := by
        intro n hn
        apply h.clientBooks.writerFresh n
        exact (hledger _ (by simp)).symm.trans hn
      accepted := by simp [ServerPhase.socket]
      active := by
        have hactive := h.clientBooks.active
        rw [hclaimed] at hactive
        exact hactive
      single := by simp [ServerPhase.claimed]
      unserved := by
        rintro n proxy ⟨⟩ -
        exact (hledger _ (by simp)).trans haccepted.2.2
      served := by simp [hwriter]
      undone := by simp [managing, Link.holder]
      done := by simp [managing, Link.holder] } }

/-- A client creates the writer of its proxy. -/
theorem Depicts.client_creates (h : Depicts s l) {socket : ℕ} {session : SessionPhase}
    (hclient : l.client = some (socket, ⟨session, .created⟩)) :
    Depicts (s.moved (.client socket) (⟨session, .running⟩ : ClientPhase)
        ⟨s.world.state.create (.writer socket), trace⟩)
      { l with client := some (socket, ⟨session, .running⟩), writer := some (socket, []) } := by
  obtain ⟨live, hphase, hsession⟩ := h.client_live hclient
  have hholder : l.holder = some (socket, .created) := by rw [Link.holder, hclient]; rfl
  have hold := h.clientBooks.unserved socket _ hholder (.inr rfl)
  have hwriter : l.writer = none := by
    cases hwriter : l.writer with
    | none => rfl
    | some writer =>
      have hserved := h.clientBooks.served writer.1 (by rw [hwriter]; rfl)
      rw [hholder] at hserved
      cases hserved
  have hlive : ∀ n : Tid, n ≠ .writer socket →
      (s.world.state.create (.writer socket)).live n = s.world.state.live n :=
        fun _ hn => create_live_of_ne _ _ hn
  have hnew : (s.world.state.create (.writer socket)).live (.writer socket) = true :=
    create_live_self _ _
  have hledger : ∀ n : Tid, n ≠ .writer socket →
      (s.world.state.create (.writer socket)).ledger.live n = s.world.state.ledger.live n :=
    fun _ hn => create_ledger_live _ _ hn
  exact {
    shared := h.shared
    stop := h.stop
    supervisor := (phase_of_ne (by simp) (hlive _ (by simp))).trans h.supervisor
    server := (phase_of_ne (by simp) (hlive _ (by simp))).trans h.server
    rx := h.rx.congr fun id => part_moved_of_ne (by simp) (hlive (.rx id) (by simp))
    client := by
      have hself : clientActs (s.moved (.client socket) (⟨session, .running⟩ : ClientPhase)
          ⟨s.world.state.create (.writer socket), trace⟩) socket = some ⟨session, .running⟩ :=
        part_moved_live live ((hlive _ (by simp)).trans live)
      apply (hclient ▸ h.client).move hself hsession
      intro n hn
      exact part_moved_of_ne (by simpa using hn) (hlive (.client n) (by simp))
    writer := by
      have hself : writerActs (s.moved (.client socket) (⟨session, .running⟩ : ClientPhase)
          ⟨s.world.state.create (.writer socket), trace⟩) socket = some (.running []) :=
        part_moved_created hold hnew
      have hslot := h.writer
      rw [hwriter] at hslot
      apply hslot.enter hself (by simp)
      intro n hn
      exact part_moved_of_ne (by simp) (hlive _ (by simpa using hn))
    rxBooks := h.rxBooks.frame rfl rfl fun id => hledger _ (by simp)
    clientBooks := {
      clientFresh := by
        intro n hn
        apply h.clientBooks.clientFresh n
        exact (hledger _ (by simp)).symm.trans hn
      writerFresh := by
        intro n hn
        by_cases hsocket : n = socket
        · exact hsocket ▸ h.clientBooks.clientFresh socket live
        · apply h.clientBooks.writerFresh n
          exact (hledger _ (by simpa using hsocket)).symm.trans hn
      accepted := by
        intro n hn
        obtain ⟨hlt, hnclient, hnwriter⟩ := h.clientBooks.accepted n hn
        have hne : n ≠ socket := by
          rintro rfl
          exact absurd (hnclient.symm.trans live) (by simp)
        exact ⟨hlt, (hledger _ (by simp)).trans hnclient,
          (hledger _ (by simpa using hne)).trans hnwriter⟩
      active := by
        have hactive := h.clientBooks.active
        rw [hholder] at hactive
        exact hactive
      single := by
        intro hclaimed
        exact absurd (h.clientBooks.single hclaimed) (by simp [hholder])
      unserved := by simp [Link.holder]
      served := by simp [Link.holder]
      undone := by simp [Link.holder]
      done := by
        rintro n ⟨⟩ hdone
        exact absurd ((h.clientBooks.undone socket hholder).symm.trans hdone) (by simp) } }

end Births
end Moves

end Bridge
end FlipforgeBridge
