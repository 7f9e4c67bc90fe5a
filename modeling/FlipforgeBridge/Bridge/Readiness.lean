import FlipforgeBridge.Bridge.History

/-!
Which rate the UART runs at. Readiness is published before the UART is switched, but an RPC session
is open only when there is a receiving task, and then the rate is the one that was asked for.
-/
namespace FlipforgeBridge
open Process

namespace Bridge

namespace SupervisorPhase

/-- The rate to which the UART was switched. -/
def rate : SupervisorPhase → Option UInt32
  | .switched baud | .stored baud | .cleared baud | .unmanned baud | .linked baud
  | .closing baud _ | .closed baud => some baud
  | _ => none

/-- A receiving task was created, or there is no attempt. -/
def settled : SupervisorPhase → Bool
  | .down | .linked _ | .closing _ _ | .closed _ => true
  | _ => false

end SupervisorPhase

/-- Operations that do not set the link up. -/
def bystanding : Op → Bool
  | .clearLostReady | .taskCreate .rx | .uartSetBaudrate _ | .uartWriteBytes _ => false
  | _ => true

theorem bystanding_of_idle {o : Op} (h : idle o = true) : bystanding o = true := by
  cases o with
  | taskCreate kind => cases kind <;> first | rfl | cases h
  | clearLostReady | uartSetBaudrate baud | uartWriteBytes bytes => cases h
  | _ => rfl

/-- An entry by which the link is not set up. -/
structure Bystanding (e : Entry) (past : List Entry) : Prop where
  manned : manned (e :: past) = manned past
  failed : switchFailed (e :: past) = switchFailed past
  written : lastWritten .supervisor (e :: past) = lastWritten .supervisor past

section Bystanding
variable {i : Tid} {o : Op} {r : o.Res} {past : List Entry}

theorem bystanding_of (h : bystanding o = true) : Bystanding ⟨i, o, r⟩ past where
  manned := by
    cases o with
    | taskCreate kind => cases kind <;> first | rfl | cases h
    | clearLostReady => cases h
    | _ => rfl
  failed := by
    cases o with
    | clearLostReady | uartSetBaudrate baud => cases h
    | _ => rfl
  written := by
    apply account_idle
    intro last
    cases o <;> first | rfl | cases h

theorem bystanding_write {bytes : List UInt8} {written : ℤ} (h : i ≠ .supervisor) :
    Bystanding ⟨i, .uartWriteBytes bytes, written⟩ past where
  manned := rfl
  failed := rfl
  written := account_of_ne h

theorem Bystanding.requested {e : Entry} (h : Bystanding e past) (baud : UInt32) :
    Requested baud (e :: past) ↔ Requested baud past := by
  unfold Requested
  rw [h.written]

end Bystanding

namespace Link

/-- No session can have been opened. -/
def Unopened (l : Link) : Prop :=
  Bridge.offline l.machine.state = true ∨ l.machine.state = .ready ∨
    l.machine.state = .startingRpc ∧ l.Unheard

structure Readied (l : Link) (trace : List Entry) : Prop where
  written : ∀ request, l.supervisor = .trying request ∨ l.supervisor = .accepted request →
    lastWritten .supervisor trace = request
  failed : l.supervisor = .failed → switchFailed trace = true
  switched : ∀ baud, l.supervisor.rate = some baud → l.uartBaud = baud ∧ Requested baud trace
  stored : ∀ baud, l.supervisor.rate = some baud → l.supervisor ≠ .switched baud →
    l.negotiatedBaud = baud
  settled : manned trace = true → l.supervisor.settled = true
  usable : manned trace = true → l.uartBaud = l.negotiatedBaud ∧ Requested l.negotiatedBaud trace
  unmanned : manned trace = false → l.rx = none ∧ l.Unopened

theorem readied_nil : Readied {} [] where
  written := by simp
  failed := by simp
  switched := by simp [SupervisorPhase.rate]
  stored := by simp [SupervisorPhase.rate]
  settled := by simp [manned]
  usable := by simp [manned]
  unmanned _ := ⟨rfl, .inl rfl⟩

section Readied
variable {l l' : Link} {trace : List Entry} {e : Entry}

/-- The supervisor stays where it is. -/
theorem Readied.frame (h : Readied l trace) (he : Bystanding e trace)
    (hsup : l'.supervisor = l.supervisor) (huart : l'.uartBaud = l.uartBaud)
    (hnegotiated : l'.negotiatedBaud = l.negotiatedBaud)
    (hunmanned : l.rx = none → l.Unopened → l'.rx = none ∧ l'.Unopened) :
    Readied l' (e :: trace) := by
  constructor
  case written =>
    rw [hsup, he.written]
    exact h.written
  case failed =>
    rw [hsup, he.failed]
    exact h.failed
  case switched =>
    intro baud hbaud
    rw [hsup] at hbaud
    rw [huart, he.requested]
    exact h.switched baud hbaud
  case stored =>
    rw [hsup, hnegotiated]
    exact h.stored
  case settled =>
    rw [hsup, he.manned]
    exact h.settled
  case usable =>
    rw [huart, hnegotiated, he.manned, he.requested]
    exact h.usable
  case unmanned =>
    intro hmanned
    rw [he.manned] at hmanned
    obtain ⟨hrx, hunopened⟩ := h.unmanned hmanned
    exact hunmanned hrx hunopened

/-! ### The supervisor -/

/-- During an attempt there is no receiving task. -/
theorem Readied.not_manned (h : Readied l trace) (hsup : l.supervisor.settled = false) :
    manned trace = false := by
  by_contra hmanned
  rw [h.settled (eq_true_of_ne_false hmanned)] at hsup
  cases hsup

/-- The supervisor goes on with an attempt. -/
theorem Readied.attempting {request request' : List UInt8} (h : Readied l trace)
    (hsup : l.supervisor = .trying request) (hmanned : manned (e :: trace) = manned trace)
    (hsup' : l'.supervisor = .trying request' ∨ l'.supervisor = .accepted request')
    (hwritten : lastWritten .supervisor (e :: trace) = request') (hrx : l'.rx = l.rx)
    (hunopened : l'.Unopened) : Readied l' (e :: trace) := by
  have hnobody := h.not_manned (by rw [hsup]; rfl)
  have hrate : l'.supervisor.rate = none := by obtain hsup' | hsup' := hsup' <;> rw [hsup'] <;> rfl
  rw [hnobody] at hmanned
  constructor
  case written =>
    intro request'' hrequest
    obtain hsup' | hsup' := hsup' <;> simp_all
  case failed =>
    intro hfailed
    obtain hsup' | hsup' := hsup' <;> simp [hsup'] at hfailed
  case switched => simp [hrate]
  case stored => simp [hrate]
  case settled => simp [hmanned]
  case usable => simp [hmanned]
  case unmanned => exact fun _ => ⟨hrx.trans (h.unmanned hnobody).1, hunopened⟩

/-- The supervisor goes on with a link whose rate is stored, or gives it up. -/
theorem Readied.onward (h : Readied l trace) (he : Bystanding e trace)
    (hsup : ∀ request, l'.supervisor ≠ .trying request ∧ l'.supervisor ≠ .accepted request)
    (hfailed : l'.supervisor ≠ .failed)
    (hrate : ∀ baud, l'.supervisor.rate = some baud →
      l.supervisor.rate = some baud ∧ l.supervisor ≠ .switched baud)
    (hsettled : l.supervisor.settled = true → l'.supervisor.settled = true)
    (huart : l'.uartBaud = l.uartBaud) (hnegotiated : l'.negotiatedBaud = l.negotiatedBaud)
    (hrx : l'.rx = l.rx ∨ l'.rx = none) (hunopened : l.Unopened → l'.Unopened) :
    Readied l' (e :: trace) := by
  constructor
  case written =>
    intro request hrequest
    exact absurd hrequest (not_or.mpr (hsup request))
  case failed => exact fun hph => absurd hph hfailed
  case switched =>
    intro baud hbaud
    rw [huart, he.requested]
    exact h.switched baud (hrate baud hbaud).1
  case stored =>
    intro baud hbaud _
    rw [hnegotiated]
    exact h.stored baud (hrate baud hbaud).1 (hrate baud hbaud).2
  case settled =>
    rw [he.manned]
    exact fun hmanned => hsettled (h.settled hmanned)
  case usable =>
    rw [huart, hnegotiated, he.manned, he.requested]
    exact h.usable
  case unmanned =>
    intro hmanned
    rw [he.manned] at hmanned
    obtain ⟨hnone, hbefore⟩ := h.unmanned hmanned
    refine ⟨?_, hunopened hbefore⟩
    obtain hrx | hrx := hrx
    · rw [hrx, hnone]
    · exact hrx

/-- An attempt begins. -/
theorem readied_attempt (hsound : l.Sound) (hsup : l.supervisor = .down) :
    Readied { l with supervisor := .trying [], lost := false }
      (⟨.supervisor, .clearLostReady, ()⟩ :: trace) := by
  have hoffline := hsound.offline (by rw [hsup]; rfl)
  have hrx := hsound.manned (by rw [hsup]; rfl)
  constructor
  case written =>
    intro request hrequest
    obtain hrequest | hrequest := hrequest
    · cases hrequest
      rw [lastWritten, account_self]
    · cases hrequest
  case failed => simp
  case switched => simp [SupervisorPhase.rate]
  case stored => simp [SupervisorPhase.rate]
  case settled => simp [manned]
  case usable => simp [manned]
  case unmanned => exact fun _ => ⟨hrx, .inl hoffline⟩

/-- The UART is switched to the rate asked for, or fails to. -/
theorem Readied.switches {request : List UInt8} {baud : UInt32} (h : Readied l trace)
    (hsup : l.supervisor = .accepted request) (hbaud : baud ∈ bridgePreferredBaudRates)
    (hrequest : expansionProtocolEncode (.baudRate baud) expansionFrameSize = some request)
    (error : EspErr) :
    Readied
      { l with
        uartBaud := if error = .ok then baud else l.uartBaud
        supervisor := if error = .ok then .switched baud else .failed }
      (⟨.supervisor, .uartSetBaudrate baud, error⟩ :: trace) := by
  have hwritten := h.written _ (.inr hsup)
  have hsame : lastWritten .supervisor (⟨.supervisor, .uartSetBaudrate baud, error⟩ :: trace) =
      request := account_self.trans hwritten
  have hnobody := h.not_manned (by rw [hsup]; rfl)
  have hmanned : manned (⟨.supervisor, .uartSetBaudrate baud, error⟩ :: trace) = false := hnobody
  constructor
  case written =>
    intro request' hrequest'
    by_cases herror : error = .ok <;> simp [herror] at hrequest'
  case failed =>
    intro hfailed
    by_cases herror : error = .ok
    · simp [herror] at hfailed
    · simp [switchFailed, herror]
  case switched =>
    intro baud' hbaud'
    by_cases herror : error = .ok
    · obtain rfl : baud = baud' := by simpa [herror, SupervisorPhase.rate] using hbaud'
      exact ⟨if_pos herror, hbaud, hrequest.trans (congrArg some hsame.symm)⟩
    · simp [herror, SupervisorPhase.rate] at hbaud'
  case stored =>
    intro baud' hbaud' hne
    by_cases herror : error = .ok <;> simp_all [SupervisorPhase.rate]
  case settled => simp [hmanned]
  case usable => simp [hmanned]
  case unmanned => exact fun _ => h.unmanned hnobody

/-- The rate is stored. -/
theorem Readied.stores {baud : UInt32} (h : Readied l trace)
    (hsup : l.supervisor = .switched baud) :
    Readied { l with negotiatedBaud := baud, supervisor := .stored baud }
      (⟨.supervisor, .locked (.storeBaud baud), ()⟩ :: trace) := by
  have hnobody := h.not_manned (by rw [hsup]; rfl)
  have he : Bystanding ⟨.supervisor, .locked (.storeBaud baud), ()⟩ trace := bystanding_of rfl
  constructor
  case written => simp
  case failed => simp
  case switched =>
    intro baud' hbaud'
    rw [he.requested]
    exact h.switched baud' (hsup ▸ hbaud')
  case stored =>
    intro baud' hbaud' _
    exact Option.some_inj.mp hbaud'
  case settled => simp [he.manned, hnobody]
  case usable => simp [he.manned, hnobody]
  case unmanned => exact fun _ => h.unmanned hnobody

/-- With its receiving task the link is usable. -/
theorem Readied.mans {baud : UInt32} (h : Readied l trace) (hsup : l.supervisor = .cleared baud) :
    Readied
      { l with
        rx := some (l.rxCreated, .reading)
        rxCreated := l.rxCreated + 1
        supervisor := .linked baud }
      (⟨.supervisor, .taskCreate .rx, true⟩ :: trace) := by
  have hrate : l.supervisor.rate = some baud := by rw [hsup]; rfl
  have hwritten : lastWritten .supervisor (⟨.supervisor, .taskCreate .rx, true⟩ :: trace) =
      lastWritten .supervisor trace := account_self
  have hstored := h.stored baud hrate (by simp [hsup])
  obtain ⟨huart, hbaud, hrequest⟩ := h.switched baud hrate
  rw [← hwritten] at hrequest
  constructor
  case written => simp
  case failed => simp
  case switched =>
    rintro baud' ⟨⟩
    exact ⟨huart, hbaud, hrequest⟩
  case stored =>
    rintro baud' ⟨⟩ -
    exact hstored
  case settled => exact fun _ => rfl
  case usable =>
    intro _
    dsimp only
    rw [hstored]
    exact ⟨huart, hbaud, hrequest⟩
  case unmanned => simp [manned]

theorem SupervisorStep.readied (h : Readied l trace) (hsound : l.Sound)
    (hstep : SupervisorStep l e l') : Readied l' (e :: trace) := by
  cases hstep with
  | attempt hsup => exact readied_attempt hsound hsup
  | restart hsup =>
    have hwritten := h.written _ (.inl hsup)
    exact h.attempting hsup rfl (.inl hsup) (account_self.trans hwritten) rfl (.inl rfl)
  | configure hsup baud error =>
    have hwritten := h.written _ (.inl hsup)
    exact h.attempting hsup rfl (.inl hsup) (account_self.trans hwritten) rfl
      (.inl (hsound.offline (by rw [hsup]; rfl)))
  | write hsup bytes written =>
    exact h.attempting hsup rfl (.inl rfl) account_self rfl
      (.inl (hsound.offline (by rw [hsup]; rfl)))
  | advance hsup event hevent happly =>
    have hwritten := h.written _ (.inl hsup)
    have hoffline := offline_of_advance happly hevent (hsound.offline (by rw [hsup]; rfl))
    exact h.attempting hsup rfl (.inl hsup) (account_self.trans hwritten) rfl (.inl hoffline)
  | @accept request hsup ok _ _ happly =>
    have hwritten := h.written _ (.inl hsup)
    have hoffline := hsound.offline (by rw [hsup]; rfl)
    refine h.attempting hsup rfl ?_ (account_self.trans hwritten) rfl ?_
    · cases ok
      · exact .inl rfl
      · exact .inr rfl
    · obtain ⟨-, hready⟩ | ⟨-, rfl⟩ := baudAccepted_cases happly
      · exact .inr (.inl hready)
      · exact .inl hoffline
  | fall hsup happly =>
    have hoffline := offline_of_timeout happly
    exact h.onward (bystanding_of rfl) (by simp) (by simp) (by simp [SupervisorPhase.rate])
      (fun _ => rfl) rfl rfl (.inl rfl) fun _ => .inl hoffline
  | switch hsup hbaud hrequest error => exact h.switches hsup hbaud hrequest error
  | store hsup => exact h.stores hsup
  | clear hsup =>
    exact h.onward (bystanding_of rfl) (by simp) (by simp) (by simp [hsup, SupervisorPhase.rate])
      (by simp [hsup, SupervisorPhase.settled]) rfl rfl (.inl rfl) fun hunopened => hunopened
  | createRx hsup => exact h.mans hsup
  | @createNone baud hsup =>
    have he : Bystanding ⟨.supervisor, .taskCreate .rx, false⟩ trace := ⟨rfl, rfl, account_self⟩
    exact h.onward he (by simp) (by simp) (by simp [hsup, SupervisorPhase.rate])
      (by simp [hsup, SupervisorPhase.settled]) rfl rfl (.inl rfl) fun hunopened => hunopened
  | lose hsup reason =>
    refine h.onward (bystanding_of rfl) (by simp) (by simp) ?_ (fun _ => rfl) rfl rfl (.inl rfl)
      fun hunopened => hunopened
    obtain hsup | hsup := hsup
    · simp [hsup, SupervisorPhase.rate]
    · simp [hsup, SupervisorPhase.rate]
  | wake hsup hlost seen =>
    exact h.onward (bystanding_of rfl) (by simp) (by simp) (by simp [hsup, SupervisorPhase.rate])
      (fun _ => rfl) rfl rfl (.inl rfl) fun hunopened => hunopened
  | look hsup handle hhandle =>
    apply h.onward (bystanding_of rfl)
    case hsup => split <;> simp
    case hfailed => split <;> simp
    case hrate => split <;> simp [hsup, SupervisorPhase.rate]
    case hsettled => split <;> exact fun _ => rfl
    case huart => rfl
    case hnegotiated => rfl
    case hrx => exact .inl rfl
    case hunopened => exact fun hunopened => hunopened
  | delete hsup =>
    exact h.onward (bystanding_of rfl) (by simp) (by simp) (by simp [hsup, SupervisorPhase.rate])
      (fun _ => rfl) rfl rfl (.inr rfl) fun hunopened => hunopened
  | tidy hsup o r ho =>
    obtain rfl | rfl | ⟨handle, rfl⟩ := ho
    all_goals exact h.frame (bystanding_of rfl) rfl rfl rfl .intro
  | enter => exact h.frame (bystanding_of rfl) rfl rfl rfl .intro
  | leave hsup => exact h.frame (bystanding_of rfl) rfl rfl rfl .intro

/-! ### The others -/

theorem RxStep.readied {id : ℕ} (h : Readied l trace) (hstep : RxStep l id e l') :
    Readied l' (e :: trace) := by
  have hrx : l.rx ≠ none := by cases hstep <;> simp_all
  have hgone : l.rx = none → l.Unopened → l'.rx = none ∧ l'.Unopened :=
    fun hnone => absurd hnone hrx
  cases hstep with
  | acknowledge hph written => exact h.frame (bystanding_write (by simp)) rfl rfl rfl hgone
  | refuse hph hbytes written => exact h.frame (bystanding_write (by simp)) rfl rfl rfl hgone
  | _ => exact h.frame (bystanding_of rfl) rfl rfl rfl hgone

theorem unheard_of_client {n : ℕ} {ph : ClientPhase} (h : l.client = some (n, ph))
    (hunheard : ph.session.unheard l.lastStatus) : l.Unheard := by
  simpa [Unheard, session_of_client h] using hunheard

/-- Before the first receiving task, a client hears nothing, and no session is opened. -/
theorem Unopened.apply {n : ℕ} {ph : ClientPhase} {machine : ExpansionStateMachine}
    {event : ExpansionEvent} {ok : Bool} {session : SessionPhase} (h : l.Unopened)
    (hclient : l.client = some (n, ph))
    (hverdict : Verdict l.machine machine event ok ph.session session) :
    Unopened { l.withSession n ph session with machine := machine } := by
  have hheard : l.machine.state = .startingRpc → ph.session.unheard l.lastStatus := by
    intro hstate
    obtain hoffline | hready | ⟨-, hunheard⟩ := h
    · simp [hstate, Bridge.offline] at hoffline
    · simp [hstate] at hready
    · exact hunheard _ (session_of_client hclient)
  have hclosed : l.machine.state ≠ .rpcReady ∧ l.machine.state ≠ .stoppingRpc := by
    obtain hoffline | hready | ⟨hstart, -⟩ := h
    · constructor <;> intro hstate <;> simp [hstate, Bridge.offline] at hoffline
    · simp [hready]
    · simp [hstart]
  have hsame : machine = l.machine →
      (ph.session.unheard l.lastStatus → session.unheard l.lastStatus) →
      Unopened { l.withSession n ph session with machine := machine } := by
    rintro rfl hunheard
    obtain hoffline | hready | ⟨hstart, hbefore⟩ := h
    · exact .inl hoffline
    · exact .inr (.inl hready)
    · have hafter := hunheard (hbefore _ (session_of_client hclient))
      exact .inr (.inr ⟨hstart, unheard_of_client rfl hafter⟩)
  generalize ph.session = before at hverdict hheard hsame
  cases hverdict with
  | begun hready hstart => exact .inr (.inr ⟨hstart, unheard_of_client rfl trivial⟩)
  | started hstart hready =>
    exact absurd (hheard hstart) (by simp [SessionPhase.unheard, Exchange.unheard])
  | ended hsession hready hstop => exact absurd hready hclosed.1
  | stopped hstop hready => exact absurd hstop hclosed.2
  | notBegun hmachine => exact hsame hmachine fun hunheard => hunheard
  | notStarted hmachine => exact hsame hmachine fun _ => trivial
  | notEnded hsession hmachine hstate => exact hsame hmachine fun _ => trivial
  | notStopped hmachine => exact hsame hmachine fun _ => trivial

section Unopened
variable {n : ℕ} {ph : ClientPhase} (h : l.Unopened) (hclient : l.client = some (n, ph))
include h hclient

theorem Unopened.stays (hmachine : l'.machine = l.machine)
    (hunheard : ph.session.unheard l.lastStatus → l'.Unheard) : l'.Unopened := by
  unfold Unopened
  rw [hmachine]
  exact h.imp_right (.imp_right fun hstart =>
    ⟨hstart.1, hunheard (hstart.2 _ (session_of_client hclient))⟩)

theorem Unopened.session {shared : Shared} {session' : SessionPhase}
    (hmachine : shared.machine = l.machine) (hsession : Session l shared ph.session session') :
    Unopened { l with
      toShared := shared
      client := some (n, { ph with session := session' }) } :=
  h.stays hclient hmachine fun hunheard => unheard_of_client rfl (hsession.unheard hunheard)

theorem ClientStep.unopened (hstep : ClientStep l n ph e l') : l'.Unopened := by
  cases hstep with
  | apply happly hsession hproxy => exact h.apply hclient (verdict happly hsession)
  | look => exact h.session hclient rfl .look
  | arm => exact h.session hclient rfl .arm
  | disarm => exact h.session hclient rfl .disarm
  | signal reason => exact h.session hclient rfl .signal
  | reset hstopped => exact h.session hclient rfl (hstopped ▸ .reset)
  | respond hproxy hrespond => exact h.session hclient rfl (.respond hrespond)
  | mark hadmits hm => exact h
  | send hproxy hsent hsend => exact h.session hclient rfl (.send hsend)
  | write bytes written => exact h
  | «open» hopened hproxy created =>
    cases created with
    | false => exact h
    | true => exact h.stays hclient rfl fun hunheard => unheard_of_client rfl hunheard
  | start hopened hproxy created =>
    cases created with
    | false => exact h
    | true => exact h.stays hclient rfl fun hunheard => unheard_of_client rfl hunheard
  | drain hproxy hnone => exact h.stays hclient rfl fun hunheard => unheard_of_client rfl hunheard
  | release hover hproxy =>
    exact h.stays hclient rfl fun hunheard => by simp [Unheard, Link.session]

end Unopened

theorem ClientStep.readied {n : ℕ} {ph : ClientPhase} (h : Readied l trace)
    (hclient : l.client = some (n, ph)) (hstep : ClientStep l n ph e l') :
    Readied l' (e :: trace) := by
  have hunopened : l.Unopened → l'.Unopened := fun hbefore => hstep.unopened hbefore hclient
  cases hstep with
  | write bytes written => exact h.frame (bystanding_write (by simp)) rfl rfl rfl .intro
  | «open» hopened hproxy created =>
    cases created <;> exact h.frame (bystanding_of rfl) rfl rfl rfl fun hrx hbefore =>
      ⟨hrx, hunopened hbefore⟩
  | start hopened hproxy created =>
    cases created <;> exact h.frame (bystanding_of rfl) rfl rfl rfl fun hrx hbefore =>
      ⟨hrx, hunopened hbefore⟩
  | _ => exact h.frame (bystanding_of rfl) rfl rfl rfl fun hrx hbefore => ⟨hrx, hunopened hbefore⟩

theorem ServerStep.readied (h : Readied l trace) (hstep : ServerStep l e l') :
    Readied l' (e :: trace) := by
  cases hstep with
  | create hserver hclient =>
    refine h.frame (bystanding_of rfl) rfl rfl rfl fun hrx hunopened => ⟨hrx, ?_⟩
    exact hunopened.imp_right (.imp_right fun hstart =>
      ⟨hstart.1, unheard_of_client rfl trivial⟩)
  | _ => exact h.frame (bystanding_of rfl) rfl rfl rfl .intro

theorem Step.readied (h : Readied l trace) (hsound : l.Sound) (hstep : l.Step e l') :
    Readied l' (e :: trace) := by
  cases hstep with
  | supervisor hstep => exact hstep.readied h hsound
  | rx hstep => exact hstep.readied h
  | writer hstep => cases hstep <;> exact h.frame (bystanding_of rfl) rfl rfl rfl .intro
  | client hclient hstep => exact hstep.readied h hclient
  | server hstep => exact hstep.readied h
  | heartbeatLost id reason => exact h.frame (bystanding_of rfl) rfl rfl rfl .intro
  | heartbeat id bytes written => exact h.frame (bystanding_write (by simp)) rfl rfl rfl .intro
  | idle ho r => exact h.frame (bystanding_of (bystanding_of_idle ho)) rfl rfl rfl .intro

theorem Course.readied (h : Course trace l) : Readied l trace := by
  induction h with
  | nil => exact readied_nil
  | cons hcourse hstep ih => exact hstep.readied ih hcourse.sound

/-- `establish_expansion` returns Ok with the accepted rate in use and stored, and an error without
a link, unless the driver refused the rate. -/
theorem Course.established {error : EspErr}
    (h : Course (⟨.supervisor, .mark (.leave .establish error), ()⟩ :: trace) l) :
    if error = .ok then
      l.uartBaud = l.negotiatedBaud ∧ Requested l.negotiatedBaud trace ∧
        (l.machine.state = .ready ∨ l.machine.state = .startingRpc)
    else Bridge.offline l.machine.state = true ∨ switchFailed trace = true := by
  cases h with | cons hcourse hstep =>
  have hsound := hcourse.sound
  have hreadied := hcourse.readied
  cases hstep with
  | supervisor hstep =>
    cases hstep with
    | leave hreturns =>
      cases hsup : l.supervisor with
      | trying request =>
        have herror : error ≠ .ok := by simpa [hsup, SupervisorPhase.returns] using hreturns
        rw [if_neg herror]
        exact .inl (hsound.offline (by rw [hsup]; rfl))
      | failed =>
        have herror : error ≠ .ok := by simpa [hsup, SupervisorPhase.returns] using hreturns
        rw [if_neg herror]
        exact .inr (hreadied.failed hsup)
      | stored baud =>
        have herror : error = .ok := by simpa [hsup, SupervisorPhase.returns] using hreturns
        have hrate : l.supervisor.rate = some baud := by rw [hsup]; rfl
        have hstored := hreadied.stored baud hrate (by simp [hsup])
        have hswitched := hreadied.switched baud hrate
        have hstate := hsound.early (by rw [hsup]; rfl)
        rw [if_pos herror, hstored]
        exact ⟨hswitched.1, hswitched.2, hstate.imp_right And.left⟩
      | _ => simp [hsup, SupervisorPhase.returns] at hreturns
    | tidy hsup o r ho => simp at ho
  | rx hstep => cases hstep
  | writer hstep => cases hstep
  | client hclient hstep => cases hstep
  | server hstep => cases hstep
  | idle ho r => cases ho

end Readied
end Link
end Bridge

/-- From the creation of the receiving task to the next attempt the UART runs at the negotiated
rate, which is the one the supervisor asked for last, and an RPC session is open only then. -/
theorem link_usable {secret : Vector UInt8 bridgePairingSecretBytes}
    {c : System.Config (bridge secret)} (hc : System.Reachable c) :
    (Bridge.manned c.world.trace = true →
      c.world.state.uartBaud = c.world.state.guarded.negotiatedBaud ∧
        Bridge.Requested c.world.state.guarded.negotiatedBaud c.world.trace) ∧
      (c.world.state.guarded.machine.state = .rpcReady ∨
        c.world.state.guarded.machine.state = .stoppingRpc →
          Bridge.manned c.world.trace = true) := by
  obtain ⟨s, hs, hworld⟩ := (Bridge.choreography secret).exists_allowed hc
  rw [← hworld]
  obtain ⟨l, hcourse, hdepicts⟩ := Bridge.exists_course hs
  have hreadied := hcourse.readied
  have husable := hreadied.usable
  have hunmanned := hreadied.unmanned
  rw [Bridge.Link.Unopened] at hunmanned
  rw [← hdepicts.shared] at husable hunmanned
  refine ⟨husable, fun hstate => ?_⟩
  by_contra hmanned
  obtain hoffline | hready | ⟨hstart, -⟩ := (hunmanned (Bool.eq_false_iff.mpr hmanned)).2
  · change Bridge.offline s.world.state.guarded.machine.state = true at hoffline
    obtain hstate | hstate := hstate <;> simp [hstate, Bridge.offline] at hoffline
  · change s.world.state.guarded.machine.state = .ready at hready
    obtain hstate | hstate := hstate <;> simp [hstate] at hready
  · change s.world.state.guarded.machine.state = .startingRpc at hstart
    obtain hstate | hstate := hstate <;> simp [hstate] at hstart

/-- With a session open. -/
theorem link_usable_open : ∃ c : Bridge.Sample,
    Bridge.manned c.world.trace = true ∧
    (Bridge.manned c.world.trace = true →
      c.world.state.uartBaud = c.world.state.guarded.negotiatedBaud ∧
        Bridge.Requested c.world.state.guarded.negotiatedBaud c.world.trace) ∧
      (c.world.state.guarded.machine.state = .rpcReady ∨
        c.world.state.guarded.machine.state = .stoppingRpc →
          Bridge.manned c.world.trace = true) := by
  obtain ⟨c, hc, htest⟩ := Bridge.exists_run Bridge.Script.begins
    (fun c : Bridge.Sample => Bridge.manned c.world.trace) (by decide +kernel)
  exact ⟨c, htest, link_usable hc⟩

/-- When `establish_expansion` returns Ok, the UART runs at the rate it stores, the one it asked for
last; when it returns an error, there is no link, unless the driver refused the accepted rate. -/
theorem establish_ends {secret : Vector UInt8 bridgePairingSecretBytes}
    {c : System.Config (bridge secret)} (hc : System.Reachable c) {error : EspErr}
    {past : List Bridge.Entry}
    (htrace : c.world.trace = ⟨.supervisor, .mark (.leave .establish error), ()⟩ :: past) :
    if error = .ok then
      c.world.state.uartBaud = c.world.state.guarded.negotiatedBaud ∧
        Bridge.Requested c.world.state.guarded.negotiatedBaud past ∧
        (c.world.state.guarded.machine.state = .ready ∨
          c.world.state.guarded.machine.state = .startingRpc)
    else Bridge.offline c.world.state.guarded.machine.state = true ∨
      Bridge.switchFailed past = true := by
  obtain ⟨s, hs, hworld⟩ := (Bridge.choreography secret).exists_allowed hc
  rw [← hworld] at htrace ⊢
  obtain ⟨l, hcourse, hdepicts⟩ := Bridge.exists_course hs
  rw [htrace] at hcourse
  have hestablished := hcourse.established
  rw [← hdepicts.shared] at hestablished
  exact hestablished

theorem establish_ends_accepted : ∃ c : Bridge.Sample, ∃ past,
    c.world.trace = ⟨.supervisor, .mark (.leave .establish .ok), ()⟩ :: past ∧
      c.world.state.uartBaud = c.world.state.guarded.negotiatedBaud ∧
      Bridge.Requested c.world.state.guarded.negotiatedBaud past ∧
      (c.world.state.guarded.machine.state = .ready ∨
        c.world.state.guarded.machine.state = .startingRpc) := by
  obtain ⟨c, hc, htest⟩ := Bridge.exists_run Bridge.Script.establishes
    (fun c : Bridge.Sample => c.world.trace.head?.map (fun e => (e.tid, e.op)) ==
      some (.supervisor, .mark (.leave .establish .ok))) (by decide +kernel)
  obtain ⟨past, hpast⟩ := Bridge.exists_past (beq_iff_eq.mp htest)
  exact ⟨c, past, hpast, establish_ends hc hpast⟩

end FlipforgeBridge
