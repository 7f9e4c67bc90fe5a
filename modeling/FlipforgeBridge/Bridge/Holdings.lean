import FlipforgeBridge.Connection.Traversal
import FlipforgeBridge.Bridge.History

/-!
Who may use a socket, and the event group of its proxy. A socket belongs to the accept loop and then
to one client task; its proxy lends it to a writer, together with an event group, and takes both
back before it returns.
-/
namespace FlipforgeBridge
open Process

namespace Bridge

/-! ### Open sockets and event groups -/

/-- The socket an operation uses. -/
def socketOf : Op → Option ℕ
  | .setSocketTimeouts n | .recv n _ | .send n _ | .shutdown n | .close n => some n
  | _ => none

/-- The event group an operation uses. -/
def groupOf : Op → Option ℕ
  | .proxyBits n | .proxySetDone n | .proxySetStop n | .proxyWaitDone n | .proxyDelete n => some n
  | _ => none

def opened (n : ℕ) : List Entry → Bool
  | [] => false
  | ⟨_, .accept, .ok m⟩ :: past => m = n || opened n past
  | _ :: past => opened n past

def shut (n : ℕ) : List Entry → Bool
  | [] => false
  | ⟨_, .close m, _⟩ :: past => m = n || shut n past
  | _ :: past => shut n past

def grouped (n : ℕ) : List Entry → Bool
  | [] => false
  | ⟨_, .proxyCreate m, created⟩ :: past => if m = n then created else grouped n past
  | ⟨_, .proxyDelete m, _⟩ :: past => if m = n then false else grouped n past
  | _ :: past => grouped n past

/-- Only open sockets and existing event groups are used, and none is created twice. -/
structure InLifetime (e : Entry) (past : List Entry) : Prop where
  socket : ∀ n, socketOf e.op = some n → opened n past = true ∧ shut n past = false
  group : ∀ n, groupOf e.op = some n → grouped n past = true
  create : ∀ n, e.op = .proxyCreate n → grouped n past = false

/-! ### Who may use them -/

inductive ClientUse
  | serving
  /-- The event group exists. -/
  | grouped
  /-- The writer has it, too. -/
  | manned
  | drained
  | spent
  | closed
  deriving DecidableEq, Repr

inductive WriterUse
  | busy | finished
  deriving DecidableEq, Repr

/-- Operations that have to do with neither. -/
def neutral : Op → Bool
  | .accept | .taskCreate _ | .taskDelete _ _ | .taskDeleteSelf | .proxyCreate _ => false
  | o => (socketOf o).isNone && (groupOf o).isNone

def clientUse (n : ℕ) (ph : ClientUse) : (o : Op) → o.Res → Option ClientUse
  | .setSocketTimeouts m, _ | .recv m _, _ | .send m _, _ | .shutdown m, _ =>
    if m = n ∧ ph ≠ .closed then some ph else none
  | .close m, _ => if m = n ∧ (ph = .serving ∨ ph = .spent) then some .closed else none
  | .proxyCreate m, created =>
    if m = n ∧ ph = .serving then some (if created = true then .grouped else .spent) else none
  | .taskCreate (.writer m), created =>
    if m = n ∧ ph = .grouped then some (if created = true then .manned else .drained) else none
  | .proxyBits m, _ | .proxySetStop m, _ => if m = n ∧ ph = .manned then some .manned else none
  | .proxyWaitDone m, _ => if m = n ∧ ph = .manned then some .drained else none
  | .proxyDelete m, _ => if m = n ∧ ph = .drained then some .spent else none
  | .taskDeleteSelf, _ => if ph = .closed then some .closed else none
  | o, _ => if neutral o = true then some ph else none

def writerUse (n : ℕ) (ph : WriterUse) : (o : Op) → o.Res → Option WriterUse
  | .proxyBits m, _ | .send m _, _ | .shutdown m, _ =>
    if m = n ∧ ph = .busy then some .busy else none
  | .proxySetDone m, _ => if m = n ∧ ph = .busy then some .finished else none
  | .taskDeleteSelf, _ => if ph = .finished then some .finished else none
  | o, _ => if neutral o = true then some ph else none

/-- The accept loop, with the socket it has not handed over. -/
def serverUse (holds : Option ℕ) : (o : Op) → o.Res → Option (Option ℕ)
  | .accept, .ok n => if holds = none then some (some n) else none
  | .accept, .error _ => some holds
  | .setSocketTimeouts n, _ | .send n _, _ | .shutdown n, _ =>
    if holds = some n then some holds else none
  | .close n, _ => if holds = some n then some none else none
  | .taskCreate (.client n), created =>
    if holds = some n then some (if created = true then none else some n) else none
  | .taskDeleteSelf, _ => if holds = none then some none else none
  | o, _ => if neutral o = true then some holds else none

/-- The other tasks use neither. -/
def noUse (ph : Unit) : (o : Op) → o.Res → Option Unit
  | .taskCreate .rx, _ | .taskCreate .heartbeat, _ | .taskDelete _ _, _ | .taskDeleteSelf, _ =>
    some ph
  | o, _ => if neutral o = true then some ph else none

/-! ### The code -/

section Neutral
variable {Phase : Type} {next : Phase → (o : Op) → o.Res → Option Phase} {ph : Phase}

theorem neutral_of_sending {o : Op} (h : sending o = true) : neutral o = true := by
  cases o <;> first | rfl | cases h

theorem neutral_of_calling {o : Op} (h : calling o = true) : neutral o = true := by
  cases o <;> first | rfl | cases h

theorem neutral_of_exchanging {o : Op} (h : exchanging o = true) : neutral o = true := by
  cases o <;> first | rfl | cases h

theorem passes_of_neutral {ok : Op → Bool}
    (hneutral : ∀ o, neutral o = true → ∀ r, next ph o r = some ph)
    (hok : ∀ o, ok o = true → ∀ r, next ph o r = some ph) : Passes next ph ok where
  free := hok
  send frame := Prog.Only.keeps <|
    sendFrame_only (fun o ho => hneutral o (neutral_of_sending ho)) frame
  ask frame := Prog.Only.keeps <|
    sendWaitStatus_only (fun o ho => hneutral o (neutral_of_exchanging ho)) frame

end Neutral

theorem clientUse_neutral {n : ℕ} {ph : ClientUse} {o : Op} (ho : neutral o = true) (r : o.Res) :
    clientUse n ph o r = some ph := by
  cases o <;> first | rfl | cases ho

theorem noUse_linking {ph : Unit} {o : Op} (ho : linking o = true) (r : o.Res) :
    noUse ph o r = some ph := by
  cases o with
  | taskCreate kind => cases kind <;> first | rfl | cases ho
  | _ => first | rfl | cases ho

theorem noUse_neutral {ph : Unit} {o : Op} (ho : neutral o = true) (r : o.Res) :
    noUse ph o r = some ph := by
  cases o <;> first | rfl | cases ho

section Client
variable {n : ℕ} {secret : Vector UInt8 bridgePairingSecretBytes}

theorem client_calls (ph : ClientUse) : Passes (clientUse n) ph calling :=
  passes_of_neutral (fun _ ho => clientUse_neutral ho)
    fun _ ho => clientUse_neutral (neutral_of_calling ho)

theorem client_serves : Attends (clientUse n) .serving expansionTransport (serving n) := by
  refine (client_calls .serving).attends ?_
  intro o ho r
  cases o with
  | setSocketTimeouts m | recv m size | send m bytes =>
    obtain rfl : m = n := beq_iff_eq.mp ho
    exact if_pos ⟨rfl, by simp⟩
  | _ => first | rfl | cases ho

/-- Raw RPC lends socket and event group to the writer and takes them back. -/
def proxyUseWalk (initial : List UInt8) : ProxyWalk (clientUse n) expansionTransport n initial where
  ready ph := ph = .serving
  grouped ph := ph = .grouped
  unmanned ph := ph = .drained
  manned ph := ph = .manned
  forwarding ph := ph = .manned
  stopped ph := ph = .manned
  ending ph := ph = .spent
  ended ph := ph = .serving ∨ ph = .spent
  create := by
    rintro _ rfl
    exact follows_last fun events => ⟨_, if_pos ⟨rfl, rfl⟩, by cases events <;> rfl⟩
  man := by
    rintro _ rfl
    exact follows_last fun writer => ⟨_, if_pos ⟨rfl, rfl⟩, by cases writer <;> rfl⟩
  drop := by
    rintro _ rfl
    exact follows_last fun _ => ⟨.spent, if_pos ⟨rfl, rfl⟩, rfl⟩
  begin := by
    rintro _ rfl
    split
    · exact (client_calls .manned).traced (client_calls .manned).sendRpc
    · exact follows_pure rfl
  look := by
    rintro _ rfl
    exact follows_last fun _ => ⟨.manned, if_pos ⟨rfl, rfl⟩, rfl⟩
  receive := by
    rintro _ rfl
    refine follows_last fun received => ⟨.manned, if_pos ⟨rfl, by simp⟩, ?_⟩
    cases received with
    | data bytes => exact (client_calls .manned).traced (client_calls .manned).sendRpc
    | closed => exact rfl
    | error errno => exact rfl
  stop := by
    rintro _ rfl
    refine follows_stay (fun _ => if_pos ⟨rfl, rfl⟩) fun _ => ?_
    exact follows_last fun _ => ⟨.manned, if_pos ⟨rfl, by simp⟩, rfl⟩
  drain := by
    rintro _ rfl
    refine follows_op fun _ => ⟨.drained, if_pos ⟨rfl, rfl⟩, ?_⟩
    exact follows_last fun _ => ⟨.spent, if_pos ⟨rfl, rfl⟩, rfl⟩
  finish := by
    rintro _ rfl
    exact ((client_calls .spent).traced (client_calls .spent).endRpc).mono fun _ _ => .inr

theorem proxy_follows (initial : List UInt8) :
    (rpcProxyRun expansionTransport n initial).Follows (clientUse n)
      (fun _ ph => ph = .serving ∨ ph = .spent) .serving := by
  refine (proxyUseWalk initial).follows (follows_last fun state => ⟨.serving, rfl, ?_⟩)
  split
  · exact rfl
  · exact .inl rfl

theorem client_follows_use :
    (clientTask expansionTransport { socket := n, pairingSecret := secret }).Follows (clientUse n)
      (fun _ _ => True) .serving := by
  have hserves : Attends (clientUse n) .serving expansionTransport
    (serving (ClientContext.mk n secret).socket) := client_serves
  refine hserves.client (.inl rfl) proxy_follows ?_
  intro session ph hover
  have hopen : n = n ∧ ph ≠ .closed := by
    obtain rfl | rfl := hover <;> simp
  refine follows_stay (fun _ => rfl) fun _ => follows_stay (fun _ => if_pos hopen) fun _ => ?_
  refine follows_op fun _ => ⟨.closed, if_pos ⟨rfl, hover⟩, follows_stay (fun _ => rfl) fun _ => ?_⟩
  exact follows_last fun _ => ⟨.closed, rfl, trivial⟩

end Client

section Writer
variable {n : ℕ}

def writerUseWalk : WriterWalk (writerUse n) expansionTransport n where
  turning ph := ph = .busy
  reading ph := ph = .busy
  leaving ph := ph = .busy
  look := by
    rintro _ rfl
    exact follows_either (keeps_last fun _ => if_pos ⟨rfl, rfl⟩)
  pass := by
    rintro _ rfl
    have hreceive : (expansionTransport.receiveRpc bridgeTcpReadBytes).Keeps (writerUse n)
        .busy := by
      apply keeps_op fun _ => rfl
      intro received
      split
      · exact keeps_pure
      · exact keeps_op (fun _ => rfl) fun state => keeps_pure
    have hsend (bytes : List UInt8) : (sendAll n bytes).Keeps (writerUse n) .busy :=
      Prog.Only.keeps (sendAll_only (fun _ _ => if_pos ⟨rfl, rfl⟩) bytes)
    refine Prog.Follows.mono hreceive ?_
    rintro ⟨error, bytes⟩ _ rfl
    dsimp only
    split
    · exact follows_either (hsend bytes)
    · split
      · rfl
      · rfl

theorem writer_follows_use :
    (proxyWriterTask expansionTransport n).Follows (writerUse n) (fun _ _ => True) .busy := by
  apply writerUseWalk.follows rfl
  rintro _ rfl
  apply follows_stay fun _ => if_pos ⟨rfl, rfl⟩
  intro bits
  refine .bind (S := fun _ ph => ph = .busy) ?_ ?_
  · split
    · exact follows_pure rfl
    · exact follows_last fun _ => ⟨.busy, if_pos ⟨rfl, rfl⟩, rfl⟩
  rintro _ _ rfl
  refine follows_op fun _ => ⟨.finished, if_pos ⟨rfl, rfl⟩, ?_⟩
  exact follows_last fun _ => ⟨.finished, rfl, trivial⟩

end Writer

section Server
variable {n : ℕ}

/-- A client that comes while another one is served gets an answer, and its socket is closed. -/
theorem reject_follows :
    (rejectBusyClient n).Follows serverUse (fun _ ph => ph = none) (some n) := by
  have hrespond (request : BridgeMessage) (status : BridgeStatus) (payload : List UInt8) :
      (sendResponse n request status payload).Keeps serverUse (some n) :=
    Prog.Only.keeps (sendResponse_only (fun _ => rfl) fun _ _ => if_pos rfl)
  apply follows_stay fun _ => if_pos rfl
  intro _
  refine .bind (hrespond _ _ _) ?_
  rintro _ _ rfl
  apply follows_stay fun _ => if_pos rfl
  intro _
  exact follows_last fun _ => ⟨none, if_pos rfl, rfl⟩

/-- The accept loop keeps no socket. -/
def serverUseWalk : AcceptWalk serverUse where
  listening ph := ph = none
  accepted n ph := ph = some n
  holding n ph := ph = some n
  allocated n ph := ph = some n
  failed n ph := ph = some n
  accept := by
    rintro _ rfl
    apply follows_last
    intro result
    cases result with
    | error errno =>
      refine ⟨none, rfl, ?_⟩
      dsimp only
      split
      · exact keeps_pure
      · exact keeps_last fun _ => rfl
    | ok n => exact ⟨some n, rfl, rfl⟩
  claim := by
    rintro n _ rfl
    refine follows_last fun claimed => ⟨some n, rfl, ?_⟩
    split
    · rfl
    · exact reject_follows
  allocate := by
    rintro _ _ rfl
    exact follows_either (keeps_last fun _ => rfl)
  create := by
    rintro n _ rfl
    exact follows_last fun created => ⟨_, if_pos rfl, by cases created <;> rfl⟩
  abandon := by
    rintro n _ rfl
    refine follows_op fun _ => ⟨none, if_pos rfl, ?_⟩
    exact follows_last fun _ => ⟨none, rfl, rfl⟩

theorem server_follows_use : serverTask.Follows serverUse (fun _ _ => True) none := by
  refine serverUseWalk.follows (follows_last fun listening => ⟨none, rfl, ?_⟩)
  split
  · exact rfl
  · exact follows_last fun _ => ⟨none, rfl, trivial⟩

end Server

theorem others_pass : Passes noUse () linking :=
  passes_of_neutral (fun _ ho => noUse_neutral ho) fun _ ho => noUse_linking ho

/-- Every task with its part in the use of sockets and event groups. -/
def holdings (secret : Vector UInt8 bridgePairingSecretBytes) : Choreography (bridge secret) where
  Phase
    | .server => Option ℕ
    | .client _ => ClientUse
    | .writer _ => WriterUse
    | _ => Unit
  next
    | .server => serverUse
    | .client n => clientUse n
    | .writer n => writerUse n
    | .supervisor | .rx _ | .heartbeat _ => noUse
  entry
    | .server => none
    | .client _ => .serving
    | .writer _ => .busy
    | .supervisor | .rx _ | .heartbeat _ => ()
  follows
    | .server => server_follows_use
    | .client _ => client_follows_use
    | .writer _ => writer_follows_use
    | .supervisor => others_pass.supervisor.mono fun _ _ _ => trivial
    | .rx _ => others_pass.rx.mono fun _ _ _ => trivial
    | .heartbeat _ => others_pass.heartbeat.mono fun _ _ _ => trivial

end Bridge
end FlipforgeBridge
