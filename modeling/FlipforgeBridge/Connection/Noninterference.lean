import FlipforgeBridge.Connection.Conversation

/-!
Noninterference before authentication. Two bridges that drew the same nonce and session id, and
whose clients never prove a secret, are the same to the other side: whatever it does, they write
the same bytes and close at the same moment, and neither touches the device. Their secrets,
clocks, metrics and devices may differ in any way.
-/
namespace FlipforgeBridge
open Process

namespace Conversation

abbrev Entry := Label platform Unit

/-- What the other side noticed, newest first. -/
def observed (originUs : ℤ) (trace : List Entry) : List Observation :=
  trace.filterMap fun l => observe originUs l.op l.res

/-- The request met last, with the session that met it. -/
def met (trace : List Entry) : Option (BridgeSession × BridgeMessage) :=
  trace.findSome? fun l => match l.op with
    | .mark (.handle session request) => some (session, request)
    | _ => none

/-- The proof of the request at hand is what the bridge computes. -/
def succeeds : Entry → List Entry → Bool
  | ⟨_, .hmacSha256 _ _, digest⟩, past =>
    (met past).any fun met => digest = some (met.2.payloadArray bridgeHmacBytes)
  | _, _ => false

/-- The other side: the network, the time that passes and what the client sends, as a function
of what was noticed so far. -/
abbrev Peer := List Observation → Query → Observation

/-- All outcomes are the ones the other side chose. -/
abbrev Plays (peer : Peer) : List Observation → Prop :=
  Justified fun x past => x = peer past x.query

/-! ### The view of a client whose proofs fail -/

/-- Proofs fail. -/
def View.refuse : View → View
  | .comparing k request rest => compared k request rest none
  | v => v

/-- Where a connection is after all that was noticed. -/
def viewOf (session : BridgeSession) : List Observation → Option View
  | [] => some (.opening session)
  | x :: past => (viewOf session past).bind fun v => (v.step x).map View.refuse

def expected (session : BridgeSession) (past : List Observation) : Option Query :=
  (viewOf session past).bind View.query

/-- Everything noticed was to be expected. -/
def Expected (session : BridgeSession) : List Observation → Prop :=
  Justified fun x past => expected session past = some x.query

variable {session : BridgeSession} {k : Keep} {request : BridgeMessage} {status : BridgeStatus}
  {payload rest : List UInt8} {goOn : Bool}

theorem View.refuse_of_step {v v' : View} {x : Observation} (h : v.step x = some v') :
    v.refuse = v := by
  cases v with
  | comparing => cases h
  | _ => rfl

theorem answering_refuse :
    (answering request status payload k rest goOn).refuse =
      answering request status payload k rest goOn := by
  unfold answering
  split
  · rfl
  · split <;> rfl

def Locked (session : BridgeSession) : Prop :=
  session.state = .awaitingHello ∨ session.state = .awaitingAuthentication

def View.Locked : View → Prop
  | .opening session => Conversation.Locked session
  | .waiting k | .idle k | .received k _ | .comparing k _ _ | .sending _ k _ _ =>
    Conversation.Locked k.session
  | .unlocked => False
  | .closing | .shut | .closed => True

theorem answering_locked (h : Locked k.session) :
    (answering request status payload k rest goOn).Locked := by
  unfold answering
  split
  · trivial
  · split
    · trivial
    · exact h

theorem locked_of_acceptHello {after : BridgeSession} {nonce : Vector UInt8 bridgeNonceBytes}
    (h : bridgeSessionAcceptHello session nonce = some after) : Locked after := by
  unfold bridgeSessionAcceptHello at h
  split at h
  · cases h
  · cases h
    exact .inr rfl

theorem respond_locked (h : Locked k.session) : (respond k request rest).Locked := by
  unfold respond
  rw [if_neg]
  · split
    · exact answering_locked h
    split
    · exact answering_locked h
    split
    · split
      · exact answering_locked h
      split
      · exact answering_locked h
      · next hhello => exact answering_locked (locked_of_acceptHello hhello)
    split
    · split
      · exact answering_locked h
      · exact h
    · exact answering_locked h
  · rintro ⟨hhello, hauthenticate⟩
    exact h.elim hhello hauthenticate

theorem serve_locked (h : Locked k.session) (input : List UInt8) : (serve k input).Locked := by
  unfold serve
  split
  · exact respond_locked h
  · exact h
  · exact answering_locked h
  · exact answering_locked h

theorem finish_locked (h : Locked k.session) : (finish k rest goOn).Locked := by
  unfold finish
  split
  · exact serve_locked h rest
  · trivial

theorem write_locked (h : Locked k.session) (bytes : List UInt8) (result : SendResult) :
    (View.write bytes k rest goOn result).Locked := by
  unfold View.write
  split
  · split
    · exact finish_locked h
    · exact h
  · split
    · exact h
    · trivial

/-- Nothing the other side does unlocks a connection. -/
theorem View.Locked.step {v v' : View} {x : Observation} (h : v.Locked)
    (hstep : v.step x = some v') : v'.Locked := by
  unfold View.step at hstep
  split at hstep
  all_goals first
    | cases hstep; exact h
    | cases hstep; trivial
    | skip
  · cases hstep
    split
    · exact h
    · trivial
  · cases hstep
    apply serve_locked
    exact h
  · split at hstep
    · cases hstep
      exact write_locked h _ _
    · cases hstep
  · cases hstep

/-! ### One connection -/

def Calm (trace : List Entry) : Prop := ∀ l ∈ trace, ∀ call, l.op ≠ .transport call

/-- What was noticed of a connection says where it is. -/
structure Held (originUs : ℤ) (session : BridgeSession) (v : View)
    (handling : Option Handling) (past : List Entry) : Prop where
  handling : ∀ h ∈ handling, met past = some (h.session, h.request)
  view : viewOf session (observed originUs past) = some v.refuse
  locked : v.Locked
  expected : Expected session (observed originUs past)
  calm : Calm past

def Holds (setting : Setting) (originUs : ℤ) : Phase → List Entry → Prop
  | .starting nonce sessionId, past =>
    (nonce = [] ∨ nonce = (setting.random bridgeNonceBytes).toList) ∧
      (sessionId = [] ∨ sessionId = (setting.random bridgeSessionIdBytes).toList) ∧
      met past = none ∧ observed originUs past = [] ∧ Calm past
  | .at v handling, past =>
    Held originUs (bridgeSessionInit (setting.random _) (setting.random _)) v handling past

variable {setting : Setting} {originUs : ℤ} {past : List Entry} {o : Op} {r : o.Res}

theorem observed_cons_none (h : observe originUs o r = none) :
    observed originUs (⟨(), o, r⟩ :: past) = observed originUs past :=
  List.filterMap_cons_none h

theorem observed_cons_some {x : Observation} (h : observe originUs o r = some x) :
    observed originUs (⟨(), o, r⟩ :: past) = x :: observed originUs past :=
  List.filterMap_cons_some h

theorem Calm.cons (h : Calm past) (ho : ∀ call, o ≠ .transport call) :
    Calm (⟨(), o, r⟩ :: past) := by
  intro l hl call
  rcases List.mem_cons.mp hl with rfl | hl
  · exact ho call
  · exact h l hl call

theorem calm_of_observe {x : Observation} (h : observe originUs o r = some x) :
    ∀ call, o ≠ .transport call := by
  rintro call rfl
  cases h

theorem calm_of_silent (h : silent o = true) : ∀ call, o ≠ .transport call := by
  rintro call rfl
  cases h

theorem met_of_observe {x : Observation} (h : observe originUs o r = some x) :
    met (⟨(), o, r⟩ :: past) = met past := by
  cases o <;> cases h <;> rfl

theorem met_of_silent (h : silent o = true) : met (⟨(), o, r⟩ :: past) = met past := by
  cases o with
  | mark m => cases m with
    | respond => rfl
    | _ => cases h
  | setSocketTimeouts | releaseClient => rfl
  | _ => cases h

variable {v : View} {handling handling' : Option Handling}

theorem Held.observe {v' : View} {x : Observation} (h : Held originUs session v handling past)
    (hx : observe originUs o r = some x) (hv : v.step x = some v') :
    Held originUs session v' handling (⟨(), o, r⟩ :: past) where
  handling h' hh' := (met_of_observe hx).trans (h.handling h' hh')
  view := by
    have hview : viewOf session (observed originUs past) = some v := by
      rw [h.view, View.refuse_of_step hv]
    rw [observed_cons_some hx, viewOf, hview, Option.bind_some, hv, Option.map_some]
  locked := h.locked.step hv
  expected := by
    rw [observed_cons_some hx]
    refine ⟨?_, h.expected⟩
    change (viewOf session (observed originUs past)).bind View.query = some x.query
    rw [h.view, View.refuse_of_step hv, Option.bind_some, View.query_of_step hv]
  calm := h.calm.cons (calm_of_observe hx)

/-- Nothing is noticed. -/
theorem Held.stay (h : Held originUs session v handling past)
    (hx : Conversation.observe originUs o r = none) (hcalm : ∀ call, o ≠ .transport call)
    (hhandling : ∀ h ∈ handling', met (⟨(), o, r⟩ :: past) = some (h.session, h.request)) :
    Held originUs session v handling' (⟨(), o, r⟩ :: past) where
  handling := hhandling
  view := by rw [observed_cons_none hx, h.view]
  locked := h.locked
  expected := by
    rw [observed_cons_none hx]
    exact h.expected
  calm := h.calm.cons hcalm

/-- A proof fails. -/
theorem Held.refused {key : Vector UInt8 bridgePairingSecretBytes} {message : List UInt8}
    {digest : Option (Vector UInt8 bridgeHmacBytes)} {h' : Handling} {after : Option BridgeSession}
    (h : Held originUs session (.comparing k request rest) (some h') past)
    (hrequest : h'.request = request)
    (hfails : succeeds ⟨(), .hmacSha256 key message, digest⟩ past = false) :
    Held originUs session (compared k request rest (digest.bind fun expected =>
      bridgeSessionAuthenticate k.session expected (request.payloadArray bridgeHmacBytes)))
      (some { h' with after }) (⟨(), .hmacSha256 key message, digest⟩ :: past) := by
  have hmet := h.handling h' rfl
  have hnone : (digest.bind fun expected => bridgeSessionAuthenticate k.session expected
      (request.payloadArray bridgeHmacBytes)) = none := by
    cases digest with
    | none => rfl
    | some expected =>
      rw [succeeds, hmet, hrequest] at hfails
      have hne : expected ≠ request.payloadArray bridgeHmacBytes := by
        rintro rfl
        simp at hfails
      rw [Option.bind_some, Option.eq_none_iff_forall_ne_some]
      intro after hafter
      exact hne (bridgeSessionAuthenticate_eq_some.mp hafter).2.1
  rw [hnone]
  have hrefuse : (compared k request rest none).refuse = compared k request rest none :=
    answering_refuse
  refine ⟨?_, ?_, answering_locked h.locked, h.expected, h.calm.cons fun _ => Op.noConfusion⟩
  · rintro _ ⟨⟩
    exact hmet
  · rw [hrefuse]
    exact h.view

/-- Every step the role allows, short of a right proof, is as expected. -/
theorem holds_step {ph ph' : Phase} {unread unread' : List UInt8}
    (h : Holds setting originUs ph past)
    (hrole : next setting.context.pairingSecret originUs ph o r = some ph')
    (heffect : setting.effect o r unread = some unread')
    (hfails : succeeds ⟨(), o, r⟩ past = false) :
    Holds setting originUs ph' (⟨(), o, r⟩ :: past) := by
  cases moves_of_next hrole with
  | unlocked => exact h.locked.elim
  | @nonce nonce sessionId value =>
    obtain ⟨-, hid, hmet, hobserved, hcalm⟩ := h
    have hvalue : value = setting.random bridgeNonceBytes := by
      by_contra hne
      simp [Setting.effect, hne] at heffect
    exact ⟨.inr (hvalue ▸ rfl), hid, hmet, hobserved, hcalm.cons fun _ => Op.noConfusion⟩
  | @sessionId nonce sessionId value =>
    obtain ⟨hnonce, -, hmet, hobserved, hcalm⟩ := h
    have hvalue : value = setting.random bridgeSessionIdBytes := by
      by_contra hne
      simp [Setting.effect, hne] at heffect
    exact ⟨hnonce, .inr (hvalue ▸ rfl), hmet, hobserved, hcalm.cons fun _ => Op.noConfusion⟩
  | @opens session r hinit =>
    obtain ⟨hnonce, hid, hmet, hobserved, hcalm⟩ := h
    rw [eq_of_drawn (by decide) hnonce rfl, eq_of_drawn (by decide) hid rfl] at hinit
    have hview : viewOf session [] = some (.opening session) := rfl
    rw [hinit] at hview ⊢
    refine ⟨fun _ => nofun, ?_, .inl rfl, ?_, hcalm.cons fun _ => Op.noConfusion⟩
    · rw [observed_cons_none rfl, hobserved]
      exact hview
    · rw [observed_cons_none rfl, hobserved]
      trivial
  | handle =>
    refine Held.stay h rfl (fun _ => Op.noConfusion) ?_
    rintro _ ⟨⟩
    rfl
  | handled => exact Held.stay h rfl (fun _ => Op.noConfusion) (fun _ => nofun)
  | closes => exact Held.stay h rfl (fun _ => Op.noConfusion) h.handling
  | compares hrequest hv =>
    subst hv
    exact Held.refused h hrequest hfails
  | deletes => exact Held.stay h rfl (fun _ => Op.noConfusion) h.handling
  | observed hx _ hv => exact Held.observe h hx hv
  | silent hx hsilent =>
    cases ph with
    | starting nonce sessionId =>
      obtain ⟨hnonce, hid, hmet, hobserved, hcalm⟩ := h
      exact ⟨hnonce, hid, (met_of_silent hsilent).trans hmet,
        (observed_cons_none hx).trans hobserved, hcalm.cons (calm_of_silent hsilent)⟩
    | «at» v handling =>
      refine Held.stay h hx (calm_of_silent hsilent) ?_
      intro h' hh'
      exact (met_of_silent hsilent).trans (h.handling h' hh')

def choreography (setting : Setting) (stream : List UInt8) (originUs : ℤ) :
    Choreography (connection setting stream) where
  Phase _ := Phase
  next _ := next setting.context.pairingSecret originUs
  entry _ := .starting [] []
  follows _ := clientTask_follows

/-- No proof in the trace is the right one. -/
abbrev Fails : List Entry → Prop := Justified fun l past => succeeds l past = false

theorem allowed_holds {stream : List UInt8}
    {s : (choreography setting stream originUs).Scene}
    (hs : (choreography setting stream originUs).Allowed s) :
    Fails s.world.trace → Holds setting originUs (s.phase ()) s.world.trace := by
  refine Choreography.Allowed.induction (I := fun s => Fails s.world.trace →
    Holds setting originUs (s.phase ()) s.world.trace) ?_ ?_ hs
  · intro _
    exact ⟨.inl rfl, .inl rfl, rfl, rfl, List.forall_mem_nil _⟩
  · rintro s _ - ih (@⟨i, o, r, ph, st, live, role, effect⟩) ⟨hfails, hpast⟩
    have hphase := s.moved_phase_self ph (w := ⟨st, ⟨i, o, r⟩ :: s.world.trace⟩) live
    change Holds setting originUs ((s.moved i ph _).phase i) _
    rw [hphase]
    exact holds_step (ih hpast) role effect hfails

/-- What is noticed of a connection before a right proof was to be expected of any bridge with
its random bytes, and the device is left alone. -/
theorem expected_of_fails {stream : List UInt8} {c : System.Config (connection setting stream)}
    (hc : System.Reachable c) (hfails : Fails c.world.trace) :
    Expected (bridgeSessionInit (setting.random _) (setting.random _))
      (observed originUs c.world.trace) ∧ Calm c.world.trace := by
  obtain ⟨s, hs, hw⟩ := (choreography setting stream originUs).exists_allowed hc
  rw [← hw] at hfails ⊢
  have hholds := allowed_holds hs hfails
  cases hphase : s.phase () with
  | starting nonce sessionId =>
    rw [hphase] at hholds
    obtain ⟨-, -, -, hobserved, hcalm⟩ := hholds
    rw [hobserved]
    exact ⟨trivial, hcalm⟩
  | «at» v handling =>
    rw [hphase] at hholds
    exact ⟨hholds.expected, hholds.calm⟩

/-! ### Two connections -/

theorem viewOf_closed {past : List Observation} (h : Expected session past)
    (hclosed : .closed ∈ past) : viewOf session past = some .closed := by
  induction past with
  | nil => cases hclosed
  | cons x past ih =>
    obtain ⟨hx, hpast⟩ := h
    rw [expected] at hx
    rcases List.mem_cons.mp hclosed with rfl | hclosed
    · obtain ⟨v, hv, hquery⟩ := Option.bind_eq_some_iff.mp hx
      cases v with
      | shut => rw [viewOf, hv]; rfl
      | _ => cases hquery
    · rw [ih hpast hclosed] at hx
      cases hx

/-- Nothing is noticed after the end. -/
theorem suffix_closed {past past' : List Observation} (h : Expected session past')
    (hsuffix : past <:+ past') (hclosed : .closed ∈ past) : past = past' := by
  obtain ⟨later, rfl⟩ := hsuffix
  cases later with
  | nil => rfl
  | cons x later =>
    obtain ⟨hx, hpast⟩ := h
    rw [expected, viewOf_closed hpast (List.mem_append_right _ hclosed)] at hx
    cases hx

/-- What was noticed and what the other side chooses decide what is noticed next. -/
theorem eq_of_expected {peer : Peer} {x x' : Observation} {past : List Observation}
    (h : expected session past = some x.query ∧ x = peer past x.query)
    (h' : expected session past = some x'.query ∧ x' = peer past x'.query) : x = x' := by
  have hquery : x.query = x'.query := Option.some.inj (h.1.symm.trans h'.1)
  rw [h.2, h'.2, hquery]

end Conversation

/-- Two bridges with the same nonce and session id that face the same client, network and
passing of time, with no right proof on either: what the other side notices of the one is what
it notices of the other as far as both have got, they close at the same moment, and nothing
happens to the device of either. -/
theorem noninterference {setting setting' : Setting} {stream : List UInt8}
    {peer : Conversation.Peer} {originUs originUs' : ℤ}
    (hnonce : setting.random bridgeNonceBytes = setting'.random bridgeNonceBytes)
    (hid : setting.random bridgeSessionIdBytes = setting'.random bridgeSessionIdBytes)
    {c : System.Config (connection setting stream)} (hc : System.Reachable c)
    {c' : System.Config (connection setting' stream)} (hc' : System.Reachable c')
    (hplays : Conversation.Plays peer (Conversation.observed originUs c.world.trace))
    (hplays' : Conversation.Plays peer (Conversation.observed originUs' c'.world.trace))
    (hfails : Conversation.Fails c.world.trace) (hfails' : Conversation.Fails c'.world.trace) :
    let noticed := Conversation.observed originUs c.world.trace
    let noticed' := Conversation.observed originUs' c'.world.trace
    (noticed <:+ noticed' ∨ noticed' <:+ noticed) ∧
      (.closed ∈ noticed → .closed ∈ noticed' → noticed = noticed') ∧
      Conversation.Calm c.world.trace ∧ Conversation.Calm c'.world.trace := by
  intro noticed noticed'
  obtain ⟨hexpected, hcalm⟩ : Conversation.Expected _ noticed ∧ _ :=
    Conversation.expected_of_fails hc hfails
  obtain ⟨hexpected', hcalm'⟩ : Conversation.Expected _ noticed' ∧ _ :=
    Conversation.expected_of_fails hc' hfails'
  rw [← hnonce, ← hid] at hexpected'
  have hcomparable : noticed <:+ noticed' ∨ noticed' <:+ noticed :=
    (hexpected.and hplays).comparable (fun _ _ _ => Conversation.eq_of_expected)
      (hexpected'.and hplays')
  refine ⟨hcomparable, ?_, hcalm, hcalm'⟩
  intro hclosed hclosed'
  rcases hcomparable with hsuffix | hsuffix
  · exact Conversation.suffix_closed hexpected' hsuffix hclosed
  · exact (Conversation.suffix_closed hexpected hsuffix hclosed').symm

namespace Conversation

def sampleStream : List UInt8 :=
  sampleRequest .hello (.replicate 32 9) ++ sampleRequest .authenticate (.replicate 32 3)

/-- A client that says hello and sends a wrong proof, in no time. -/
def samplePeer : Peer := fun _ query =>
  match query with
  | .clock => .clock 0
  | .recv => .received (.data sampleStream)
  | .send bytes => .sent bytes { sent := bytes.length }
  | .shutdown => .shutdown
  | .close => .closed

/-- Another secret, another HMAC. -/
def otherSetting : Setting where
  context := { socket := 3, pairingSecret := .replicate _ 2 }
  random n := .replicate n 7
  hmac _ _ := .replicate _ 0xBB

/-- A bridge that has been up for some time. -/
def sampleAnswers (setting : Setting) (originUs : ℤ) : (o : Op) → o.Res
  | .timerGetTime => originUs
  | o => setting.answers sampleStream .ready o

def sampleTest (setting : Setting) (originUs : ℤ)
    (c : System.Config (connection setting sampleStream)) : Bool :=
  Plays samplePeer (observed originUs c.world.trace) ∧ Fails c.world.trace ∧
    .closed ∈ observed originUs c.world.trace

end Conversation

open Conversation in
/-- Two bridges refuse the same wrong proof, one has just started and the other not. -/
theorem noninterference_sample :
    ∃ (c : System.Config (connection Setting.sample sampleStream))
      (c' : System.Config (connection otherSetting sampleStream)),
      .closed ∈ observed 0 c.world.trace ∧
        observed 0 c.world.trace = observed 5000000 c'.world.trace := by
  obtain ⟨c, hc, htest⟩ := System.exists_reachable
    (List.replicate 20 ((), sampleAnswers Setting.sample 0)) (sampleTest Setting.sample 0)
    (by decide +kernel)
  obtain ⟨c', hc', htest'⟩ := System.exists_reachable
    (List.replicate 20 ((), sampleAnswers otherSetting 5000000)) (sampleTest otherSetting 5000000)
    (by decide +kernel)
  obtain ⟨hplays, hfails, hclosed⟩ := of_decide_eq_true htest
  obtain ⟨hplays', hfails', hclosed'⟩ := of_decide_eq_true htest'
  have hrandom (n : ℕ) : Setting.sample.random n = otherSetting.random n := rfl
  have hsame := noninterference (hrandom _) (hrandom _) hc hc' hplays hplays' hfails hfails'
  exact ⟨c, c', hclosed, hsame.2.1 hclosed hclosed'⟩

end FlipforgeBridge
