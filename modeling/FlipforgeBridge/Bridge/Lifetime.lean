import FlipforgeBridge.Bridge.Holdings
import FlipforgeBridge.Bridge.Roster
import FlipforgeBridge.Bridge.Run

/-!
Sockets and the event groups of proxies are used while they exist, and none is left behind: the
tasks that hold a socket at each stage of its life.
-/
namespace FlipforgeBridge
open Process

namespace Bridge

/-! ### The life of a socket -/

inductive Life
  | unborn
  | held
  | served
  | equipped
  | manned
  /-- The writer has given both back. -/
  | finishing
  | drained
  | spent
  | closed
  | over
  deriving DecidableEq, Repr

namespace Life

def server (l : Life) : Bool := l = .held

def client : Life → Option ClientUse
  | .served => some .serving
  | .equipped => some .grouped
  | .manned | .finishing => some .manned
  | .drained => some .drained
  | .spent => some .spent
  | .closed => some .closed
  | .unborn | .held | .over => none

def opened (l : Life) : Bool := l ≠ .unborn

def shut (l : Life) : Bool := l = .closed ∨ l = .over

def grouped : Life → Bool
  | .equipped | .manned | .finishing | .drained => true
  | _ => false

/-- There has been no writer. -/
def early : Life → Bool
  | .unborn | .held | .served | .equipped => true
  | _ => false

/-- The client is done with its writer, or never had one. -/
def late : Life → Bool
  | .drained | .spent | .closed | .over => true
  | _ => false

end Life

/-- What is held of one socket: by the accept loop, by its client, by its writer. -/
structure Holding where
  server : Bool
  client : Option ClientUse
  writer : Option WriterUse
  done : Bool
  opened : Bool
  shut : Bool
  grouped : Bool

/-- A stage of life and what is held in it. -/
structure Life.Shows (l : Life) (v : Holding) : Prop where
  server : v.server = l.server
  client : v.client = l.client
  opened : v.opened = l.opened
  shut : v.shut = l.shut
  grouped : v.grouped = l.grouped
  busy : l = .manned ↔ v.writer = some .busy
  early : l.early = true → v.writer = none
  fresh : l = .equipped ∨ l = .manned → v.done = false

section Holdings
variable {secret : Vector UInt8 bridgePairingSecretBytes} {s : (holdings secret).Scene} {n : ℕ}

/-- The socket that the accept loop has not handed over. -/
def unserved (s : (holdings secret).Scene) : Option ℕ := s.phase .server

def holding (s : (holdings secret).Scene) (n : ℕ) : Holding where
  server := unserved s = some n
  client := s.part (.client n)
  writer := s.part (.writer n)
  done := (s.world.state.proxy n).writerDone
  opened := opened n s.world.trace
  shut := shut n s.world.trace
  grouped := grouped n s.world.trace

/-! #### One operation -/

variable {i : Tid} {o : Op} {r : o.Res} {ph : (holdings secret).Phase i} {st : State}

/-- The scene after the operation. -/
abbrev after (s : (holdings secret).Scene) (ph : (holdings secret).Phase i) (o : Op) (r : o.Res)
    (st : State) : (holdings secret).Scene :=
  s.moved i ph ⟨st, ⟨i, o, r⟩ :: s.world.trace⟩

/-- The socket whose life an operation may move on. -/
def about : (o : Op) → o.Res → Option ℕ
  | .accept, .ok n => some n
  | .close n, _ | .proxyCreate n, _ | .proxySetDone n, _ | .proxyDelete n, _ => some n
  | .taskCreate (.client n), _ | .taskCreate (.writer n), _ => some n
  | _, _ => none

theorem opened_of_ne {past : List Entry} (h : about o r ≠ some n) :
    opened n (⟨i, o, r⟩ :: past) = opened n past := by
  cases o with
  | accept =>
    cases r with
    | ok m =>
      have hm : m ≠ n := fun hm => h (congrArg some hm)
      simp [opened, hm]
    | error errno => rfl
  | _ => rfl

theorem shut_of_ne {past : List Entry} (h : about o r ≠ some n) :
    shut n (⟨i, o, r⟩ :: past) = shut n past := by
  cases o with
  | close m =>
    have hm : m ≠ n := fun hm => h (congrArg some hm)
    simp [shut, hm]
  | _ => rfl

theorem grouped_of_ne {past : List Entry} (h : about o r ≠ some n) :
    grouped n (⟨i, o, r⟩ :: past) = grouped n past := by
  cases o with
  | proxyCreate m | proxyDelete m =>
    have hm : m ≠ n := fun hm => h (congrArg some hm)
    exact if_neg hm
  | _ => rfl

theorem client_of_attendant (h : about o r ≠ some n) : attendant o r ≠ some (.client n) := by
  cases o with
  | taskCreate kind =>
    cases kind with
    | client m =>
      have hm : m ≠ n := fun hm => h (congrArg some hm)
      cases r <;> simp [attendant, hm]
    | _ => cases r <;> simp [attendant]
  | _ => simp [attendant]

theorem writer_of_attendant (h : about o r ≠ some n) : attendant o r ≠ some (.writer n) := by
  cases o with
  | taskCreate kind =>
    cases kind with
    | writer m =>
      have hm : m ≠ n := fun hm => h (congrArg some hm)
      cases r <;> simp [attendant, hm]
    | _ => cases r <;> simp [attendant]
  | _ => simp [attendant]

theorem effect_done {st st' : State} (h : effect i o r st = some st')
    (habout : about o r ≠ some n) : (st'.proxy n).writerDone = (st.proxy n).writerDone := by
  unfold effect at h
  split at h
  case h_18 | h_19 =>
    obtain rfl := Option.some_inj.mp h
    split <;> rfl
  case h_24 kind created =>
    obtain rfl := Option.some_inj.mp h
    split
    · cases kind <;> rfl
    · rfl
  case h_25 kind id _ | h_29 kind _ =>
    obtain rfl := Option.some_inj.mp h
    cases kind <;> rfl
  case h_36 m created =>
    have hm : n ≠ m := fun hm => habout (congrArg some hm.symm)
    obtain rfl := Option.some_inj.mp h
    split
    · exact congrArg ProxyBits.writerDone (Function.update_of_ne hm _ _)
    · rfl
  case h_38 m _ =>
    have hm : n ≠ m := fun hm => habout (congrArg some hm.symm)
    obtain rfl := Option.some_inj.mp h
    exact congrArg ProxyBits.writerDone (Function.update_of_ne hm _ _)
  case h_39 m _ =>
    obtain rfl := Option.some_inj.mp h
    by_cases hm : n = m
    · rw [hm]
      simp [State.setProxy]
    · exact congrArg ProxyBits.writerDone (Function.update_of_ne hm _ _)
  all_goals first
    | (obtain ⟨guarded, -, rfl⟩ := Option.map_eq_some_iff.mp h; rfl)
    | (obtain rfl := Option.some_inj.mp h; rfl)
    | (obtain ⟨-, ⟨⟩⟩ := Option.ite_none_right_eq_some.mp h; rfl)
    | (obtain rfl | rfl := effect_take h <;> rfl)

theorem server_lives (hi : i ≠ .server) (heffect : effect i o r s.world.state = some st) :
    st.live .server = s.world.state.live .server := by
  have hnew : attendant o r ≠ some .server := by
    cases o with
    | taskCreate kind => cases kind <;> cases r <;> simp [attendant]
    | _ => simp [attendant]
  have hlive := effect_live heffect (t := .server) rfl
  simpa [hnew, hi] using hlive

theorem unserved_of_ne (hi : i ≠ .server) (heffect : effect i o r s.world.state = some st) :
    unserved (after s ph o r st) = unserved s := by
  apply Choreography.Scene.moved_phase_of_ne ph (Ne.symm hi)
  cases hold : s.world.state.live .server with
  | true => exact .inl hold
  | false => exact .inr ((server_lives hi heffect).trans hold)

/-- An operation that is not about this socket. -/
theorem holding_eq (heffect : effect i o r s.world.state = some st) (habout : about o r ≠ some n)
    (hserver : unserved (after s ph o r st) = some n ↔ unserved s = some n)
    (hclient : (after s ph o r st).part (.client n) = s.part (.client n))
    (hwriter : (after s ph o r st).part (.writer n) = s.part (.writer n)) :
    holding (after s ph o r st) n = holding s n := by
  unfold holding
  rw [hclient, hwriter]
  congr 1
  · exact decide_eq_decide.mpr hserver
  · exact effect_done heffect habout
  · exact opened_of_ne habout
  · exact shut_of_ne habout
  · exact grouped_of_ne habout

/-! #### Stages of life -/

variable {l l' : Life}

theorem Life.eq_served (h : l.client = some .serving) : l = .served := by
  cases l <;> simp_all [Life.client]

theorem Life.eq_equipped (h : l.client = some .grouped) : l = .equipped := by
  cases l <;> simp_all [Life.client]

theorem Life.eq_drained (h : l.client = some .drained) : l = .drained := by
  cases l <;> simp_all [Life.client]

theorem Life.eq_spent (h : l.client = some .spent) : l = .spent := by
  cases l <;> simp_all [Life.client]

theorem Life.eq_closed (h : l.client = some .closed) : l = .closed := by
  cases l <;> simp_all [Life.client]

theorem Life.eq_manned (h : l.client = some .manned) : l = .manned ∨ l = .finishing := by
  cases l <;> simp_all [Life.client]

theorem Life.not_early_of_late (h : l.late = true) : l.early = false := by
  cases l <;> first | rfl | cases h

/-- The client moves its socket to a stage that no writer has a part in. -/
theorem shows_of_client {ph : ClientUse} (h : l.Shows (holding s n))
    (live : s.world.state.live (.client n) = true)
    (heffect : effect (.client n) o r s.world.state = some st)
    (hnew : attendant o r ≠ some (.writer n)) (hunmanned : l ≠ .manned) (hlate : l'.late = true)
    (hserver : l'.server = l.server)
    (hclient : (if ends o = true then none else some ph) = l'.client)
    (hopened : opened n (⟨.client n, o, r⟩ :: s.world.trace) = l'.opened)
    (hshut : shut n (⟨.client n, o, r⟩ :: s.world.trace) = l'.shut)
    (hgrouped : grouped n (⟨.client n, o, r⟩ :: s.world.trace) = l'.grouped) :
    l'.Shows (holding (after (i := .client n) s ph o r st) n) := by
  have hpart : (after (i := .client n) s ph o r st).part (.client n) =
      if ends o = true then none else some ph := part_self rfl live heffect
  have hwriter : (holding (after (i := .client n) s ph o r st) n).writer = (holding s n).writer :=
    part_of_ne rfl (by simp) hnew heffect
  refine ⟨?_, hpart.trans hclient, hopened, hshut, hgrouped, ?_, ?_, ?_⟩
  · refine (decide_eq_decide.mpr ?_).trans (h.server.trans hserver.symm)
    exact Eq.congr_left (unserved_of_ne (by simp) heffect)
  · rw [hwriter]
    refine iff_of_false ?_ fun hbusy => hunmanned (h.busy.mpr hbusy)
    rintro rfl
    cases hlate
  · rw [Life.not_early_of_late hlate]
    simp
  · rintro (rfl | rfl) <;> cases hlate

/-- So does the accept loop, before there is a writer. -/
theorem shows_of_server {ph : Option ℕ} (h : l.Shows (holding s n))
    (live : s.world.state.live .server = true)
    (heffect : effect .server o r s.world.state = some st)
    (hnew : attendant o r ≠ some (.writer n)) (hearly : l.early = true)
    (hunmanned : ¬(l' = .equipped ∨ l' = .manned)) (hserver : ph = some n ↔ l'.server = true)
    (hclient : (after (i := .server) s ph o r st).part (.client n) = l'.client)
    (hopened : opened n (⟨.server, o, r⟩ :: s.world.trace) = l'.opened)
    (hshut : shut n (⟨.server, o, r⟩ :: s.world.trace) = l'.shut)
    (hgrouped : grouped n (⟨.server, o, r⟩ :: s.world.trace) = l'.grouped) :
    l'.Shows (holding (after (i := .server) s ph o r st) n) := by
  have hwriter : (holding (after (i := .server) s ph o r st) n).writer = none :=
    (part_of_ne rfl (by simp) hnew heffect).trans (h.early hearly)
  have hunserved : unserved (after (i := .server) s ph o r st) = ph :=
    Choreography.Scene.moved_phase_self (s := s) (i := .server) ph live
  refine ⟨?_, hclient, hopened, hshut, hgrouped, ?_, fun _ => hwriter,
    fun hl' => absurd hl' hunmanned⟩
  · change decide (unserved _ = some n) = l'.server
    rw [hunserved]
    exact Bool.eq_iff_iff.mpr (by simpa using hserver)
  · rw [hwriter]
    exact iff_of_false (fun hl' => hunmanned (.inr hl')) (by simp)

/-! #### Frames -/

def accepts : (o : Op) → o.Res → Option ℕ
  | .accept, .ok n => some n
  | _, _ => none

theorem effect_accepts {st st' : State} (h : effect i o r st = some st')
    (ho : accepts o r = some n) : n = st.socketsAccepted ∧ st'.socketsAccepted = n + 1 := by
  cases o with
  | accept =>
    cases r with
    | ok m =>
      obtain rfl := Option.some_inj.mp ho
      obtain ⟨hm, hst⟩ := Option.ite_none_right_eq_some.mp h
      obtain rfl := Option.some_inj.mp hst
      exact ⟨hm, rfl⟩
    | error errno => cases ho
  | _ => cases ho

theorem effect_not_accepts {st st' : State} (h : effect i o r st = some st')
    (ho : accepts o r = none) : st'.socketsAccepted = st.socketsAccepted := by
  unfold effect at h
  split at h
  case h_18 | h_19 | h_36 =>
    obtain rfl := Option.some_inj.mp h
    split <;> rfl
  case h_24 kind created =>
    obtain rfl := Option.some_inj.mp h
    split
    · cases kind <;> rfl
    · rfl
  case h_25 kind id _ | h_29 kind _ =>
    obtain rfl := Option.some_inj.mp h
    cases kind <;> rfl
  case h_31 => cases ho
  all_goals first
    | (obtain ⟨guarded, -, rfl⟩ := Option.map_eq_some_iff.mp h; rfl)
    | (obtain rfl := Option.some_inj.mp h; rfl)
    | (obtain ⟨-, ⟨⟩⟩ := Option.ite_none_right_eq_some.mp h; rfl)
    | (obtain rfl | rfl := effect_take h <;> rfl)

/-- What is true of every socket, and of those not accepted yet. -/
structure Lives (s : (holdings secret).Scene) : Prop where
  life : ∀ n, ∃ l : Life, l.Shows (holding s n)
  accepted : ∀ n, opened n s.world.trace = decide (n < s.world.state.socketsAccepted)
  last : ∀ n, unserved s = some n →
    s.world.state.live .server = true ∧ lastAccepted s.world.trace = some n

theorem opened_of_not_accepts {past : List Entry} (ho : accepts o r = none) :
    opened n (⟨i, o, r⟩ :: past) = opened n past := by
  cases o with
  | accept => cases r <;> first | rfl | cases ho
  | _ => rfl

theorem lastAccepted_of_not_accepts {past : List Entry} (ho : accepts o r = none) :
    lastAccepted (⟨i, o, r⟩ :: past) = lastAccepted past := by
  cases o with
  | accept => cases r <;> first | rfl | cases ho
  | _ => rfl

/-- An operation by another task than the accept loop. -/
theorem Lives.attend (h : Lives s) (hi : i ≠ .server)
    (heffect : effect i o r s.world.state = some st) (ho : accepts o r = none)
    (hlife : ∀ n, ∃ l : Life, l.Shows (holding (after s ph o r st) n)) :
    Lives (after s ph o r st) where
  life := hlife
  accepted n := by
    refine (opened_of_not_accepts ho).trans ((h.accepted n).trans ?_)
    change _ = decide (n < st.socketsAccepted)
    rw [effect_not_accepts heffect ho]
  last n hn := by
    rw [unserved_of_ne hi heffect] at hn
    obtain ⟨hlive, hlast⟩ := h.last n hn
    exact ⟨(server_lives hi heffect).trans hlive, (lastAccepted_of_not_accepts ho).trans hlast⟩

theorem holding_away (hserver : i ≠ .server) (hclient : i ≠ .client n) (hwriter : i ≠ .writer n)
    (habout : about o r ≠ some n) (heffect : effect i o r s.world.state = some st) :
    holding (after s ph o r st) n = holding s n := by
  apply holding_eq heffect habout
  · rw [unserved_of_ne hserver heffect]
  · exact part_of_ne rfl (Ne.symm hclient) (client_of_attendant habout) heffect
  · exact part_of_ne rfl (Ne.symm hwriter) (writer_of_attendant habout) heffect

/-- Whoever moves, but not on. -/
theorem holding_stays (hi : i.io = false) (live : s.world.state.live i = true)
    (heffect : effect i o r s.world.state = some st) (habout : about o r = none)
    (hends : ends o = false) :
    holding (after s (s.phase i) o r st) n = holding s n := by
  have hpart (t : Tid) (ht : t.io = false) (hnew : attendant o r ≠ some t) :
      (after s (s.phase i) o r st).part t = s.part t := by
    by_cases hti : t = i
    · subst hti
      refine (part_self ht live heffect).trans ((if_neg (Bool.eq_false_iff.mp hends)).trans ?_)
      exact (Choreography.Scene.part_of_live live).symm
    · exact part_of_ne ht hti hnew heffect
  have hunserved : unserved (after s (s.phase i) o r st) = unserved s := by
    by_cases hserver : i = .server
    · subst hserver
      exact Choreography.Scene.moved_phase_self (s := s) (i := .server) _ live
    · exact unserved_of_ne hserver heffect
  apply holding_eq heffect (by simp [habout])
  · rw [hunserved]
  · exact hpart _ rfl (client_of_attendant (by simp [habout]))
  · exact hpart _ rfl (writer_of_attendant (by simp [habout]))

theorem Life.usable {p : ClientUse} (h : l.client = some p) (hp : p ≠ .closed) :
    l.opened = true ∧ l.shut = false := by
  cases l <;> simp_all [Life.client, Life.opened, Life.shut]

theorem inLifetime_socket {past : List Entry} (hsocket : socketOf o = some n)
    (hgroup : groupOf o = none) (hopen : opened n past = true ∧ shut n past = false) :
    InLifetime ⟨i, o, r⟩ past where
  socket m hm := by
    obtain rfl := Option.some_inj.mp (hsocket.symm.trans hm)
    exact hopen
  group m hm := by
    rw [hgroup] at hm
    cases hm
  create m hm := by
    obtain rfl : o = .proxyCreate m := hm
    cases hsocket

theorem inLifetime_group {past : List Entry} (hgroup : groupOf o = some n)
    (hsocket : socketOf o = none) (hexists : grouped n past = true) :
    InLifetime ⟨i, o, r⟩ past where
  socket m hm := by
    rw [hsocket] at hm
    cases hm
  group m hm := by
    obtain rfl := Option.some_inj.mp (hgroup.symm.trans hm)
    exact hexists
  create m hm := by
    obtain rfl : o = .proxyCreate m := hm
    cases hgroup

theorem inLifetime_create {past : List Entry} {r : Bool} (hnone : grouped n past = false) :
    InLifetime ⟨i, .proxyCreate n, r⟩ past where
  socket m hm := by cases hm
  group m hm := by cases hm
  create m hm := by
    obtain rfl := Op.proxyCreate.inj hm
    exact hnone

theorem inLifetime_neither {past : List Entry} (hsocket : socketOf o = none)
    (hgroup : groupOf o = none) (hcreate : ∀ m, o ≠ .proxyCreate m) :
    InLifetime ⟨i, o, r⟩ past where
  socket m hm := by
    rw [hsocket] at hm
    cases hm
  group m hm := by
    rw [hgroup] at hm
    cases hm
  create m hm := absurd hm (hcreate m)

theorem opened_of_accepts {m : ℕ} {past : List Entry} (ho : accepts o r = some m) :
    opened n (⟨i, o, r⟩ :: past) = (decide (m = n) || opened n past) := by
  cases o with
  | accept =>
    cases r with
    | ok k =>
      obtain rfl := Option.some_inj.mp ho
      rfl
    | error errno => cases ho
  | _ => cases ho

theorem lastAccepted_of_accepts {m : ℕ} {past : List Entry} (ho : accepts o r = some m) :
    lastAccepted (⟨i, o, r⟩ :: past) = some m := by
  cases o with
  | accept =>
    cases r with
    | ok k => exact ho
    | error errno => cases ho
  | _ => cases ho

/-! #### The client -/

/-- What a task does that has to do with one socket only. -/
structure Tends (s : (holdings secret).Scene) (ph : (holdings secret).Phase i) (n : ℕ) (o : Op)
    (r : o.Res) (st : State) : Prop where
  life : ∃ l : Life, l.Shows (holding (after s ph o r st) n)
  about : ∀ m, m ≠ n → about o r ≠ some m
  accepts : accepts o r = none
  inLifetime : InLifetime ⟨i, o, r⟩ s.world.trace

theorem Tends.stays (h : l.Shows (holding s n)) (hi : i.io = false)
    (live : s.world.state.live i = true) (heffect : effect i o r s.world.state = some st)
    (hph : s.phase i = ph) (habout : Bridge.about o r = none)
    (haccepts : Bridge.accepts o r = none) (hends : ends o = false)
    (hin : InLifetime ⟨i, o, r⟩ s.world.trace) : Tends s ph n o r st where
  life := by
    subst hph
    refine ⟨l, ?_⟩
    rw [holding_stays hi live heffect habout hends]
    exact h
  about m _ := by simp [habout]
  accepts := haccepts
  inLifetime := hin

theorem Tends.lives (h : Lives s) (hserver : i ≠ .server)
    (hclient : ∀ m, m ≠ n → i ≠ .client m) (hwriter : ∀ m, m ≠ n → i ≠ .writer m)
    (heffect : effect i o r s.world.state = some st) (hmoves : Tends s ph n o r st) :
    Lives (after s ph o r st) ∧ InLifetime ⟨i, o, r⟩ s.world.trace := by
  refine ⟨h.attend hserver heffect hmoves.accepts fun m => ?_, hmoves.inLifetime⟩
  by_cases hm : m = n
  · rw [hm]
    exact hmoves.life
  · rw [holding_away hserver (hclient m hm) (hwriter m hm) (hmoves.about m hm) heffect]
    exact h.life m

section Client
variable {ph : ClientUse}

theorem client_closes {r : Unit} (h : l.Shows (holding s n))
    (live : s.world.state.live (.client n) = true) (hl : l = .served ∨ l = .spent)
    (heffect : effect (.client n) (.close n) r s.world.state = some st) :
    Tends (i := .client n) s ClientUse.closed n (.close n) r st := by
  have hopen : opened n s.world.trace = true ∧ shut n s.world.trace = false := by
    rw [show opened n s.world.trace = l.opened from h.opened,
      show shut n s.world.trace = l.shut from h.shut]
    obtain rfl | rfl := hl <;> exact ⟨rfl, rfl⟩
  refine ⟨⟨.closed, ?_⟩, fun m hm hk => hm (Option.some_inj.mp hk).symm, rfl,
    inLifetime_socket rfl rfl hopen⟩
  refine shows_of_client h live heffect (by simp [attendant]) ?_ rfl ?_ rfl hopen.1 ?_
    (h.grouped.trans ?_)
  · obtain rfl | rfl := hl <;> simp
  · obtain rfl | rfl := hl <;> rfl
  · simp [shut, Life.shut]
  · obtain rfl | rfl := hl <;> rfl

/-- The proxy gets its event group, or ends. -/
theorem client_equips {created : Bool} (h : Life.served.Shows (holding s n))
    (live : s.world.state.live (.client n) = true)
    (heffect : effect (.client n) (.proxyCreate n) created s.world.state = some st) :
    Tends (i := .client n) s (if created = true then ClientUse.grouped else .spent) n
      (.proxyCreate n) created st := by
  have hothers : ∀ m, m ≠ n → about (.proxyCreate n) created ≠ some m := fun m hm hk =>
    hm (Option.some_inj.mp hk).symm
  cases created with
  | true =>
    obtain rfl := Option.some_inj.mp heffect
    have hwriter : (after (i := .client n) s ClientUse.grouped (.proxyCreate n) true _).part
        (.writer n) = none :=
      (part_of_ne rfl (by simp) (by simp [attendant]) heffect).trans (h.early rfl)
    refine ⟨⟨.equipped, ?_⟩, hothers, rfl, inLifetime_create h.grouped⟩
    refine ⟨?_, part_self rfl live heffect, h.opened, h.shut, if_pos rfl, ?_, fun _ => hwriter,
      fun _ => ?_⟩
    · refine (decide_eq_decide.mpr ?_).trans h.server
      exact Eq.congr_left (unserved_of_ne (by simp) heffect)
    · refine iff_of_false (by simp) fun hbusy => ?_
      cases hwriter.symm.trans hbusy
    · change ((s.world.state.setProxy n {}).proxy n).writerDone = false
      simp [State.setProxy]
  | false =>
    refine ⟨⟨.spent, ?_⟩, hothers, rfl, inLifetime_create h.grouped⟩
    refine shows_of_client h live heffect (by simp [attendant]) (by simp) rfl rfl rfl h.opened
      h.shut ?_
    simp [grouped, Life.grouped]

/-- The proxy gets its writer, or deletes its event group. -/
theorem client_mans {created : Bool} (h : Life.equipped.Shows (holding s n))
    (live : s.world.state.live (.client n) = true)
    (heffect : effect (.client n) (.taskCreate (.writer n)) created s.world.state = some st) :
    Tends (i := .client n) s (if created = true then ClientUse.manned else .drained) n
      (.taskCreate (.writer n)) created st := by
  have hothers : ∀ m, m ≠ n → about (.taskCreate (.writer n)) created ≠ some m := fun m hm hk =>
    hm (Option.some_inj.mp hk).symm
  cases created with
  | true =>
    obtain rfl := Option.some_inj.mp heffect
    refine ⟨⟨.manned, ?_⟩, hothers, rfl, inLifetime_neither rfl rfl (by simp)⟩
    refine ⟨?_, part_self rfl live heffect, h.opened, h.shut, h.grouped, ?_, ?_, ?_⟩
    · refine (decide_eq_decide.mpr ?_).trans h.server
      exact Eq.congr_left (unserved_of_ne (by simp) heffect)
    · exact iff_of_true rfl (part_created rfl rfl (h.early rfl) heffect)
    · simp [Life.early]
    · exact fun _ => h.fresh (.inl rfl)
  | false =>
    refine ⟨⟨.drained, ?_⟩, hothers, rfl, inLifetime_neither rfl rfl (by simp)⟩
    exact shows_of_client h live heffect (by simp [attendant]) (by simp) rfl rfl rfl h.opened
      h.shut h.grouped

/-- The writer sets its bit last, so a client that sees the bit has both back. -/
theorem client_drains {r : Unit} (h : l.Shows (holding s n))
    (live : s.world.state.live (.client n) = true) (hl : l = .manned ∨ l = .finishing)
    (heffect : effect (.client n) (.proxyWaitDone n) r s.world.state = some st) :
    Tends (i := .client n) s ClientUse.drained n (.proxyWaitDone n) r st := by
  obtain ⟨hdone, -⟩ := Option.ite_none_right_eq_some.mp heffect
  obtain rfl : l = .finishing := by
    obtain rfl | rfl := hl
    · exact absurd hdone (Bool.eq_false_iff.mp (h.fresh (.inr rfl)))
    · rfl
  refine ⟨⟨.drained, ?_⟩, by simp [about], rfl, inLifetime_group rfl rfl h.grouped⟩
  exact shows_of_client h live heffect (by simp [attendant]) (by simp) rfl rfl rfl h.opened
    h.shut h.grouped

theorem client_moves (h : l.Shows (holding s n)) (live : s.world.state.live (.client n) = true)
    (role : clientUse n (s.phase (.client n)) o r = some ph)
    (heffect : effect (.client n) o r s.world.state = some st) :
    Tends (i := .client n) s ph n o r st := by
  generalize hp : (s.phase (.client n) : ClientUse) = p at role
  have hclient : l.client = some p := by
    rw [← h.client, ← hp]
    exact Choreography.Scene.part_of_live live
  cases o with
  | setSocketTimeouts k | recv k size | send k bytes | shutdown k =>
    obtain ⟨⟨rfl, hnot⟩, hph⟩ := Option.ite_none_right_eq_some.mp role
    obtain ⟨hopened, hshut⟩ := Life.usable hclient hnot
    exact Tends.stays h rfl live heffect (hp.trans (Option.some_inj.mp hph)) rfl rfl rfl
      (inLifetime_socket rfl rfl ⟨h.opened.trans hopened, h.shut.trans hshut⟩)
  | proxyBits k | proxySetStop k =>
    obtain ⟨⟨rfl, rfl⟩, hph⟩ := Option.ite_none_right_eq_some.mp role
    refine Tends.stays h rfl live heffect (hp.trans (Option.some_inj.mp hph)) rfl rfl rfl
      (inLifetime_group rfl rfl (h.grouped.trans ?_))
    obtain rfl | rfl := Life.eq_manned hclient <;> rfl
  | close k =>
    obtain ⟨⟨rfl, hover⟩, hph⟩ := Option.ite_none_right_eq_some.mp role
    obtain rfl := Option.some_inj.mp hph
    refine client_closes h live ?_ heffect
    obtain rfl | rfl := hover
    · exact .inl (Life.eq_served hclient)
    · exact .inr (Life.eq_spent hclient)
  | proxyCreate k =>
    obtain ⟨⟨rfl, rfl⟩, hph⟩ := Option.ite_none_right_eq_some.mp role
    obtain rfl := Life.eq_served hclient
    obtain rfl := Option.some_inj.mp hph
    exact client_equips h live heffect
  | taskCreate kind =>
    cases kind with
    | writer k =>
      obtain ⟨⟨rfl, rfl⟩, hph⟩ := Option.ite_none_right_eq_some.mp role
      obtain rfl := Life.eq_equipped hclient
      obtain rfl := Option.some_inj.mp hph
      exact client_mans h live heffect
    | _ => cases role
  | proxyWaitDone k =>
    obtain ⟨⟨rfl, rfl⟩, hph⟩ := Option.ite_none_right_eq_some.mp role
    obtain rfl := Option.some_inj.mp hph
    exact client_drains h live (Life.eq_manned hclient) heffect
  | proxyDelete k =>
    obtain ⟨⟨rfl, rfl⟩, hph⟩ := Option.ite_none_right_eq_some.mp role
    obtain rfl := Life.eq_drained hclient
    obtain rfl := Option.some_inj.mp hph
    refine ⟨⟨.spent, ?_⟩, fun m hm hk => hm (Option.some_inj.mp hk).symm, rfl,
      inLifetime_group rfl rfl h.grouped⟩
    refine shows_of_client h live heffect (by simp [attendant]) (by simp) rfl rfl rfl h.opened
      h.shut ?_
    simp [grouped, Life.grouped]
  | taskDeleteSelf =>
    obtain ⟨rfl, hph⟩ := Option.ite_none_right_eq_some.mp role
    obtain rfl := Life.eq_closed hclient
    refine ⟨⟨.over, ?_⟩, by simp [about], rfl, inLifetime_neither rfl rfl (by simp)⟩
    exact shows_of_client h live heffect (by simp [attendant]) (by simp) rfl rfl rfl h.opened
      h.shut h.grouped
  | accept | taskDelete kind handle | proxySetDone k => cases role
  | _ =>
    exact Tends.stays h rfl live heffect (hp.trans (Option.some_inj.mp role)) rfl rfl rfl
      (inLifetime_neither rfl rfl (by simp))

end Client

/-! #### The writer -/

theorem Life.not_early (h : l.Shows (holding s n)) {p : WriterUse}
    (hwriter : s.part (.writer n) = some p) : l.early = false := by
  cases hearly : l.early with
  | false => rfl
  | true =>
    have hnone : s.part (.writer n) = none := h.early hearly
    rw [hnone] at hwriter
    cases hwriter

section Writer
variable {ph : WriterUse}

/-- The writer leaves the socket at a stage where there has been a writer. -/
theorem shows_of_writer (h : l.Shows (holding s n))
    (live : s.world.state.live (.writer n) = true)
    (heffect : effect (.writer n) o r s.world.state = some st)
    (hnew : attendant o r ≠ some (.client n)) (haccepts : Bridge.accepts o r = none)
    (hserver : l'.server = l.server) (hclient : l'.client = l.client)
    (hopened : l'.opened = l.opened)
    (hshut : shut n (⟨.writer n, o, r⟩ :: s.world.trace) = l'.shut)
    (hgrouped : grouped n (⟨.writer n, o, r⟩ :: s.world.trace) = l'.grouped)
    (hbusy : l' = .manned ↔ (if ends o = true then none else some ph) = some WriterUse.busy)
    (hearly : l'.early = false)
    (hfresh : l' = .equipped ∨ l' = .manned → (st.proxy n).writerDone = false) :
    l'.Shows (holding (after (i := .writer n) s ph o r st) n) := by
  have hpart : (after (i := .writer n) s ph o r st).part (.writer n) =
      if ends o = true then none else some ph := part_self rfl live heffect
  refine ⟨?_, ?_, ?_, hshut, hgrouped, ?_, ?_, hfresh⟩
  · refine (decide_eq_decide.mpr ?_).trans (h.server.trans hserver.symm)
    exact Eq.congr_left (unserved_of_ne (by simp) heffect)
  · exact (part_of_ne rfl (by simp) hnew heffect).trans (h.client.trans hclient.symm)
  · exact (opened_of_not_accepts haccepts).trans (h.opened.trans hopened.symm)
  · exact hbusy.trans (Eq.congr_left hpart).symm
  · rw [hearly]
    simp

theorem Life.usable_of_manned (h : l = .manned) :
    l.opened = true ∧ l.shut = false ∧ l.grouped = true := by
  subst h
  decide

theorem writer_moves (h : l.Shows (holding s n)) (live : s.world.state.live (.writer n) = true)
    (role : writerUse n (s.phase (.writer n)) o r = some ph)
    (heffect : effect (.writer n) o r s.world.state = some st) :
    Tends (i := .writer n) s ph n o r st := by
  generalize hp : (s.phase (.writer n) : WriterUse) = p at role
  have hwriter : s.part (.writer n) = some p := by
    rw [← hp]
    exact Choreography.Scene.part_of_live live
  have hmanned (hbusy : p = .busy) : l = .manned := h.busy.mpr (by rw [← hbusy]; exact hwriter)
  cases o with
  | send k bytes | shutdown k =>
    obtain ⟨⟨rfl, rfl⟩, hph⟩ := Option.ite_none_right_eq_some.mp role
    obtain ⟨hopened, hshut, -⟩ := Life.usable_of_manned (hmanned rfl)
    exact Tends.stays h rfl live heffect (hp.trans (Option.some_inj.mp hph)) rfl rfl rfl
      (inLifetime_socket rfl rfl ⟨h.opened.trans hopened, h.shut.trans hshut⟩)
  | proxyBits k =>
    obtain ⟨⟨rfl, rfl⟩, hph⟩ := Option.ite_none_right_eq_some.mp role
    obtain ⟨-, -, hgrouped⟩ := Life.usable_of_manned (hmanned rfl)
    exact Tends.stays h rfl live heffect (hp.trans (Option.some_inj.mp hph)) rfl rfl rfl
      (inLifetime_group rfl rfl (h.grouped.trans hgrouped))
  | proxySetDone k =>
    obtain ⟨⟨rfl, rfl⟩, hph⟩ := Option.ite_none_right_eq_some.mp role
    obtain rfl := Option.some_inj.mp hph
    obtain rfl := hmanned rfl
    refine ⟨⟨.finishing, ?_⟩, fun m hm hk => hm (Option.some_inj.mp hk).symm, rfl,
      inLifetime_group rfl rfl h.grouped⟩
    refine shows_of_writer h live heffect (by simp [attendant]) rfl rfl rfl rfl h.shut h.grouped ?_
      rfl ?_
    · simp [ends]
    · simp
  | taskDeleteSelf =>
    obtain ⟨rfl, hph⟩ := Option.ite_none_right_eq_some.mp role
    have hl : l ≠ .manned := fun hl => by
      have hbusy : s.part (.writer n) = some WriterUse.busy := h.busy.mp hl
      rw [hwriter] at hbusy
      cases hbusy
    refine ⟨⟨l, ?_⟩, by simp [about], rfl, inLifetime_neither rfl rfl (by simp)⟩
    refine shows_of_writer h live heffect (by simp [attendant]) rfl rfl rfl rfl h.shut h.grouped ?_
      (Life.not_early h hwriter) ?_
    · simp [ends, hl]
    · rw [effect_done heffect (by simp [about])]
      exact h.fresh
  | setSocketTimeouts k | recv k size | close k | accept | taskCreate kind | taskDelete kind handle
  | proxySetStop k | proxyWaitDone k | proxyDelete k | proxyCreate k => cases role
  | _ =>
    exact Tends.stays h rfl live heffect (hp.trans (Option.some_inj.mp role)) rfl rfl rfl
      (inLifetime_neither rfl rfl (by simp))

end Writer

/-! #### The accept loop -/

section Server
variable {ph : Option ℕ}

/-- What a step of the accept loop does to the sockets. -/
structure ServerMoves (s : (holdings secret).Scene) (ph : Option ℕ) (o : Op) (r : o.Res)
    (st : State) : Prop where
  life : ∀ n, ∃ l : Life, l.Shows (holding (after (i := .server) s ph o r st) n)
  takes : ∀ n, ph = some n →
    ends o = false ∧ (accepts o r = some n ∨ accepts o r = none ∧ unserved s = some n)
  inLifetime : InLifetime ⟨.server, o, r⟩ s.world.trace

theorem holding_server (live : s.world.state.live .server = true)
    (heffect : effect .server o r s.world.state = some st) (habout : about o r ≠ some n)
    (hph : ph = some n ↔ unserved s = some n) :
    holding (after (i := .server) s ph o r st) n = holding s n := by
  have hunserved : unserved (after (i := .server) s ph o r st) = ph :=
    Choreography.Scene.moved_phase_self (s := s) (i := .server) ph live
  apply holding_eq heffect habout
  · exact (Eq.congr_left hunserved).trans hph
  · exact part_of_ne rfl (by simp) (client_of_attendant habout) heffect
  · exact part_of_ne rfl (by simp) (writer_of_attendant habout) heffect

theorem Life.eq_held (h : l.server = true) : l = .held := by
  cases l <;> simp_all [Life.server]

theorem Life.eq_unborn (h : l.opened = false) : l = .unborn := by
  cases l <;> simp_all [Life.opened]

theorem held_shows (h : Lives s) (hn : unserved s = some n) : Life.held.Shows (holding s n) := by
  obtain ⟨l, hl⟩ := h.life n
  have hserver : (holding s n).server = true := decide_eq_true hn
  obtain rfl := Life.eq_held (hl.server.symm.trans hserver)
  exact hl

theorem serverMoves_stays (h : Lives s) (live : s.world.state.live .server = true)
    (heffect : effect .server o r s.world.state = some st) (hph : unserved s = ph)
    (habout : about o r = none) (haccepts : accepts o r = none) (hends : ends o = false ∨ ph = none)
    (hin : InLifetime ⟨.server, o, r⟩ s.world.trace) : ServerMoves s ph o r st where
  life n := by
    rw [holding_server live heffect (by simp [habout]) (by rw [hph])]
    exact h.life n
  takes n hn := by
    refine ⟨hends.resolve_right (by simp [hn]), .inr ⟨haccepts, hph.trans hn⟩⟩
  inLifetime := hin

/-- The accept loop moves on the socket it holds, and no other. -/
theorem server_life {k : ℕ} (h : Lives s) (live : s.world.state.live .server = true)
    (heffect : effect .server o r s.world.state = some st) (habout : about o r = some k)
    (hph : ∀ n, n ≠ k → ph ≠ some n ∧ unserved s ≠ some n)
    (hlife : ∃ l : Life, l.Shows (holding (after (i := .server) s ph o r st) k)) :
    ∀ n, ∃ l : Life, l.Shows (holding (after (i := .server) s ph o r st) n) := by
  intro n
  by_cases hn : n = k
  · rw [hn]
    exact hlife
  · have hne : about o r ≠ some n := by
      rw [habout]
      exact fun hk => hn (Option.some_inj.mp hk).symm
    rw [holding_server live heffect hne (iff_of_false (hph n hn).1 (hph n hn).2)]
    exact h.life n

theorem none_or_other {k : ℕ} : ∀ n, n ≠ k → (none : Option ℕ) ≠ some n ∧ some k ≠ some n :=
  fun n hn => ⟨by simp, fun hk => hn (Option.some_inj.mp hk).symm⟩

theorem server_accepts {k : ℕ} (h : Lives s) (live : s.world.state.live .server = true)
    (hnone : unserved s = none)
    (heffect : effect .server .accept (.ok k) s.world.state = some st) :
    ServerMoves s (some k) .accept (.ok k) st := by
  obtain ⟨hk, -⟩ := effect_accepts heffect rfl
  obtain ⟨l, hl⟩ := h.life k
  -- sockets are numbered as they come, so this one is new
  have hunopened : opened k s.world.trace = false := by
    rw [h.accepted, hk]
    simp
  obtain rfl := Life.eq_unborn (hl.opened.symm.trans hunopened)
  refine ⟨server_life h live heffect rfl ?_ ⟨.held, ?_⟩, ?_, inLifetime_neither rfl rfl (by simp)⟩
  · intro n hn
    rw [hnone]
    exact (none_or_other n hn).symm
  · refine shows_of_server hl live heffect (by simp [attendant]) rfl (by simp) ?_ ?_ ?_ hl.shut
      hl.grouped
    · simp [Life.server]
    · exact (part_of_ne rfl (by simp) (by simp [attendant]) heffect).trans hl.client
    · simp [opened, Life.opened]
  · exact fun n hn => ⟨rfl, .inl hn⟩

theorem server_closes {k : ℕ} {r : Unit} (h : Lives s) (live : s.world.state.live .server = true)
    (hholds : unserved s = some k)
    (heffect : effect .server (.close k) r s.world.state = some st) :
    ServerMoves s none (.close k) r st := by
  have hl := held_shows h hholds
  refine ⟨server_life h live heffect rfl ?_ ⟨.over, ?_⟩, by simp,
    inLifetime_socket rfl rfl ⟨hl.opened, hl.shut⟩⟩
  · rw [hholds]
    exact none_or_other
  · refine shows_of_server hl live heffect (by simp [attendant]) rfl (by simp) ?_ ?_ hl.opened ?_
      hl.grouped
    · simp [Life.server]
    · exact (part_of_ne rfl (by simp) (by simp [attendant]) heffect).trans hl.client
    · simp [shut, Life.shut]

/-- The accept loop hands its socket over, or keeps it. -/
theorem server_hands_over {k : ℕ} {created : Bool} (h : Lives s)
    (live : s.world.state.live .server = true) (hholds : unserved s = some k)
    (heffect : effect .server (.taskCreate (.client k)) created s.world.state = some st) :
    ServerMoves s (if created = true then none else some k) (.taskCreate (.client k)) created
      st := by
  have hl := held_shows h hholds
  cases created with
  | true =>
    refine ⟨server_life h live heffect rfl ?_ ⟨.served, ?_⟩, by simp,
      inLifetime_neither rfl rfl (by simp)⟩
    · rw [hholds]
      exact none_or_other
    · refine shows_of_server hl live heffect (by simp [attendant]) rfl (by simp) ?_ ?_ hl.opened
        hl.shut hl.grouped
      · simp [Life.server]
      · exact part_created rfl rfl hl.client heffect
  | false =>
    refine ⟨server_life h live heffect rfl ?_ ⟨.held, ?_⟩, ?_,
      inLifetime_neither rfl rfl (by simp)⟩
    · rw [hholds]
      exact fun n hn => ⟨(none_or_other n hn).2, (none_or_other n hn).2⟩
    · refine shows_of_server hl live heffect (by simp [attendant]) rfl (by simp) ?_ ?_ hl.opened
        hl.shut hl.grouped
      · simp [Life.server]
      · exact (part_of_ne rfl (by simp) (by simp [attendant]) heffect).trans hl.client
    · exact fun n hn => ⟨rfl, .inr ⟨rfl, hholds.trans hn⟩⟩

theorem server_moves (h : Lives s) (live : s.world.state.live .server = true)
    (role : serverUse (unserved s) o r = some ph)
    (heffect : effect .server o r s.world.state = some st) : ServerMoves s ph o r st := by
  cases o with
  | setSocketTimeouts k | send k bytes | shutdown k =>
    obtain ⟨hholds, hph⟩ := Option.ite_none_right_eq_some.mp role
    have hl := held_shows h hholds
    exact serverMoves_stays h live heffect (Option.some_inj.mp hph) rfl rfl (.inl rfl)
      (inLifetime_socket rfl rfl ⟨hl.opened, hl.shut⟩)
  | accept =>
    cases r with
    | error errno =>
      exact serverMoves_stays h live heffect (Option.some_inj.mp role) rfl rfl (.inl rfl)
        (inLifetime_neither rfl rfl (by simp))
    | ok k =>
      obtain ⟨hnone, hph⟩ := Option.ite_none_right_eq_some.mp role
      obtain rfl := Option.some_inj.mp hph
      exact server_accepts h live hnone heffect
  | close k =>
    obtain ⟨hholds, hph⟩ := Option.ite_none_right_eq_some.mp role
    obtain rfl := Option.some_inj.mp hph
    exact server_closes h live hholds heffect
  | taskCreate kind =>
    cases kind with
    | client k =>
      obtain ⟨hholds, hph⟩ := Option.ite_none_right_eq_some.mp role
      obtain rfl := Option.some_inj.mp hph
      exact server_hands_over h live hholds heffect
    | _ => cases role
  | taskDeleteSelf =>
    obtain ⟨hnone, hph⟩ := Option.ite_none_right_eq_some.mp role
    obtain rfl := Option.some_inj.mp hph
    exact serverMoves_stays h live heffect hnone rfl rfl (.inr rfl)
      (inLifetime_neither rfl rfl (by simp))
  | recv k size | taskDelete kind handle | proxyBits k | proxySetDone k | proxySetStop k
  | proxyWaitDone k | proxyDelete k | proxyCreate k => cases role
  | _ =>
    exact serverMoves_stays h live heffect (Option.some_inj.mp role) rfl rfl (.inl rfl)
      (inLifetime_neither rfl rfl (by simp))

theorem Lives.serve (h : Lives s) (live : s.world.state.live .server = true)
    (heffect : effect .server o r s.world.state = some st) (hmoves : ServerMoves s ph o r st) :
    Lives (after (i := .server) s ph o r st) where
  life := hmoves.life
  accepted n := by
    change opened n (⟨.server, o, r⟩ :: s.world.trace) = decide (n < st.socketsAccepted)
    cases haccepts : accepts o r with
    | none =>
      rw [effect_not_accepts heffect haccepts]
      exact (opened_of_not_accepts haccepts).trans (h.accepted n)
    | some m =>
      obtain ⟨hm, hst⟩ := effect_accepts heffect haccepts
      rw [opened_of_accepts haccepts, h.accepted, hst, ← hm]
      simp only [← Bool.decide_or, decide_eq_decide]
      omega
  last n hn := by
    have hunserved : unserved (after (i := .server) s ph o r st) = ph :=
      Choreography.Scene.moved_phase_self (s := s) (i := .server) ph live
    obtain ⟨hends, htakes⟩ := hmoves.takes n (hunserved.symm.trans hn)
    have hlive := effect_live heffect (t := .server) rfl
    have hstays : st.live .server = true := by simpa [hends, live] using hlive
    refine ⟨hstays, ?_⟩
    obtain haccepts | ⟨haccepts, hholds⟩ := htakes
    · exact lastAccepted_of_accepts haccepts
    · exact (lastAccepted_of_not_accepts haccepts).trans (h.last n hholds).2

end Server

/-! #### Every run -/

theorem noUse_neither {ph' : Unit} (role : noUse ph' o r = some ph') :
    about o r = none ∧ accepts o r = none ∧ socketOf o = none ∧ groupOf o = none ∧
      ∀ m, o ≠ .proxyCreate m := by
  cases o with
  | taskCreate kind =>
    cases kind with
    | rx | heartbeat => exact ⟨rfl, rfl, rfl, rfl, by simp⟩
    | _ => cases role
  | accept | setSocketTimeouts k | recv k size | send k bytes | shutdown k | close k | proxyBits k
  | proxySetDone k | proxySetStop k | proxyWaitDone k | proxyDelete k | proxyCreate k => cases role
  | _ => exact ⟨rfl, rfl, rfl, rfl, by simp⟩

/-- The supervisor and the tasks of the link move no socket on. -/
theorem Lives.bystander (h : Lives s) (hserver : i ≠ .server) (hclient : ∀ n, i ≠ .client n)
    (hwriter : ∀ n, i ≠ .writer n) (role : noUse () o r = some ())
    (heffect : effect i o r s.world.state = some st) :
    Lives (after s ph o r st) ∧ InLifetime ⟨i, o, r⟩ s.world.trace := by
  obtain ⟨habout, haccepts, hsocket, hgroup, hcreate⟩ := noUse_neither role
  refine ⟨h.attend hserver heffect haccepts fun n => ?_, inLifetime_neither hsocket hgroup hcreate⟩
  rw [holding_away hserver (hclient n) (hwriter n) (by simp [habout]) heffect]
  exact h.life n

theorem Lives.step (h : Lives s) (live : s.world.state.live i = true)
    (role : (holdings secret).next i (s.phase i) o r = some ph)
    (heffect : effect i o r s.world.state = some st) :
    Lives (after s ph o r st) ∧ InLifetime ⟨i, o, r⟩ s.world.trace := by
  cases i with
  | server =>
    have hmoves := server_moves h live role heffect
    exact ⟨h.serve live heffect hmoves, hmoves.inLifetime⟩
  | client n =>
    obtain ⟨l, hl⟩ := h.life n
    refine (client_moves hl live role heffect).lives h (by simp) ?_ (by simp) heffect
    exact fun m hm => by simpa using Ne.symm hm
  | writer n =>
    obtain ⟨l, hl⟩ := h.life n
    refine (writer_moves hl live role heffect).lives h (by simp) (by simp) ?_ heffect
    exact fun m hm => by simpa using Ne.symm hm
  | supervisor | rx id | heartbeat id =>
    exact h.bystander (by simp) (by simp) (by simp) role heffect

theorem unborn_shows : Life.unborn.Shows (holding (holdings secret).opening n) where
  server := rfl
  client := rfl
  opened := rfl
  shut := rfl
  grouped := rfl
  busy := ⟨nofun, nofun⟩
  early _ := rfl
  fresh := by simp

theorem lives_opening : Lives (holdings secret).opening where
  life _ := ⟨.unborn, unborn_shows⟩
  accepted _ := rfl
  last n hn := by cases hn

theorem lives_of_allowed (hs : (holdings secret).Allowed s) :
    Lives s ∧ Justified InLifetime s.world.trace := by
  apply Choreography.Allowed.induction (I := fun s => Lives s ∧ Justified InLifetime s.world.trace)
    ⟨lives_opening, trivial⟩ _ hs
  rintro s _ - ⟨hlives, hjustified⟩ ⟨live, role, heffect⟩
  obtain ⟨hlives', hin⟩ := hlives.step live role heffect
  exact ⟨hlives', hin, hjustified⟩

end Holdings

/-! ### What is held -/

/-- Sockets and event groups are used while they exist, and whatever exists has a task that will
give it back: the accept loop for the socket it accepted last, the client task for its own. -/
structure ResourcesKept (w : (bridge secret).World) : Prop where
  used : Justified InLifetime w.trace
  sockets : ∀ n, opened n w.trace = true → shut n w.trace = false →
    w.state.live (.client n) = true ∨ w.state.live .server = true ∧ lastAccepted w.trace = some n
  groups : ∀ n, grouped n w.trace = true → w.state.live (.client n) = true

theorem Life.attended {l : Life} (hopened : l.opened = true) (hshut : l.shut = false) :
    l.server = true ∨ l.client.isSome = true := by
  cases l <;> simp_all [Life.opened, Life.shut, Life.server, Life.client]

theorem Life.attended_of_grouped {l : Life} (hgrouped : l.grouped = true) :
    l.client.isSome = true := by
  cases l <;> first | rfl | cases hgrouped

theorem resourcesKept_of_allowed {secret : Vector UInt8 bridgePairingSecretBytes}
    {s : (holdings secret).Scene} (hs : (holdings secret).Allowed s) : ResourcesKept s.world := by
  obtain ⟨hlives, hjustified⟩ := lives_of_allowed hs
  have hclient {n : ℕ} {l : Life} (hl : l.Shows (holding s n)) (hsome : l.client.isSome = true) :
      s.world.state.live (.client n) = true := by
    rw [← hl.client] at hsome
    by_contra hdead
    have hnone : s.part (.client n) = none :=
      Choreography.Scene.part_eq_none.mpr (Bool.eq_false_iff.mpr hdead)
    change (s.part (.client n)).isSome = true at hsome
    rw [hnone] at hsome
    cases hsome
  refine ⟨hjustified, fun n hopened hshut => ?_, fun n hgrouped => ?_⟩
  · obtain ⟨l, hl⟩ := hlives.life n
    obtain hserver | hsome :=
      Life.attended (hl.opened.symm.trans hopened) (hl.shut.symm.trans hshut)
    · exact .inr (hlives.last n (of_decide_eq_true (hl.server.trans hserver)))
    · exact .inl (hclient hl hsome)
  · obtain ⟨l, hl⟩ := hlives.life n
    exact hclient hl (Life.attended_of_grouped (hl.grouped.symm.trans hgrouped))

end Bridge

/-- Every socket is used only between its accept and its close, every event group only between its
creation and its deletion, and no connection leaves either behind. -/
theorem resources_kept {secret : Vector UInt8 bridgePairingSecretBytes}
    {c : System.Config (bridge secret)} (hc : System.Reachable c) :
    Bridge.ResourcesKept c.world := by
  obtain ⟨s, hs, hworld⟩ := (Bridge.holdings secret).exists_allowed hc
  rw [← hworld]
  exact Bridge.resourcesKept_of_allowed hs

/-- After a connection with raw RPC, whose event group is gone and whose socket is closed. -/
theorem resources_kept_returned : ∃ c : Bridge.Sample,
    Bridge.opened 0 c.world.trace = true ∧ Bridge.shut 0 c.world.trace = true ∧
      Bridge.ResourcesKept c.world := by
  obtain ⟨c, hc, htest⟩ := Bridge.exists_run Bridge.Script.releases
    (fun c : Bridge.Sample => Bridge.opened 0 c.world.trace && Bridge.shut 0 c.world.trace)
    (by decide +kernel)
  obtain ⟨hopened, hshut⟩ := Bool.and_eq_true_iff.mp htest
  exact ⟨c, hopened, hshut, resources_kept hc⟩

end FlipforgeBridge
