import FlipforgeBridge.Bridge.ClientSlot
import FlipforgeBridge.Bridge.Delivery

/-!
Stop-and-wait towards the Flipper. If it sends no STATUS frame it was not asked for, every exchange
that ends with STATUS None was answered once, after its frame went out, and no frame goes out while
an answer is outstanding. On each link this lasts until an exchange of it fails or one begun on an
earlier link ends on it.
-/
namespace FlipforgeBridge
open Process

namespace Bridge

/-- Since the last attempt no more STATUS frames arrived than frames went out that call for one. -/
def AnswersWhenAsked (e : Entry) (past : List Entry) : Prop :=
  (line (e :: past)).heard ≤ (line (e :: past)).asked

instance {e : Entry} {past : List Entry} : Decidable (AnswersWhenAsked e past) :=
  inferInstanceAs (Decidable (_ ≤ _))

/-- A frame goes out when all before it were answered, and an exchange that ends with STATUS None
has had it as the one answer to its one frame. Only exchanges count that were begun on this link,
and only until one of them fails or one begun on an earlier link ends. -/
def StopAndWait : Entry → List Entry → Prop
  | ⟨.client _, .uartWriteBytes _, _⟩, past =>
    ∀ x, (line past).inquiry = some x → (line past).failed = false →
      x = {} ∧ (line past).heard = (line past).asked
  | ⟨_, .locked .disarmRequest, status⟩, past =>
    ∀ x, (line past).inquiry = some x → (line past).failed = false →
      status = ExpansionFrameError.none → (line past).heard = (line past).asked ∧
        ∃ frame, x = { frames := [frame], answers := [.none] }
  | _, _ => True

/-! ### What the link tells of requests -/

/-- The client that holds the slot asks, and reads the STATUS that was expected last; a STATUS is
expected from the one until the other. -/
def AskOrder : Entry → List Entry → Prop
  | ⟨i, .locked .armRequest, _⟩, past =>
    ∃ n, i = .client n ∧ claimed past = some n ∧ served n past = true
  | ⟨i, .locked .disarmRequest, status⟩, past =>
    (∃ n, i = .client n ∧ claimed past = some n) ∧ status = lastAnswer past
  | ⟨_, .locked (.offerStatus _), expected⟩, past => expected = expecting past
  | _, _ => True

/-- Operations that have no part in requests and answers. -/
def heedless : Op → Bool
  | .locked .armRequest | .locked .disarmRequest | .locked (.offerStatus _) => false
  | .clearLostReady | .uartWriteBytes _ => false
  | _ => true

theorem heedless_of_idle {o : Op} (h : idle o = true) : heedless o = true := by
  cases o with
  | locked s => cases s <;> first | rfl | cases h
  | clearLostReady | uartWriteBytes bytes => cases h
  | _ => rfl

section Heedless
variable {i : Tid} {o : Op} {r : o.Res} {past : List Entry}

theorem line_heedless (h : heedless o = true) : line (⟨i, o, r⟩ :: past) = line past := by
  cases o with
  | locked s => cases s <;> first | rfl | cases h
  | clearLostReady | uartWriteBytes bytes => cases h
  | _ => rfl

theorem expecting_heedless (h : heedless o = true) :
    expecting (⟨i, o, r⟩ :: past) = expecting past := by
  cases o with
  | locked s => cases s <;> first | rfl | cases h
  | _ => rfl

theorem lastAnswer_heedless (h : heedless o = true) :
    lastAnswer (⟨i, o, r⟩ :: past) = lastAnswer past := by
  cases o with
  | locked s => cases s <;> first | rfl | cases h
  | _ => rfl

theorem askOrder_heedless (h : heedless o = true) : AskOrder ⟨i, o, r⟩ past := by
  cases o with
  | locked s => cases s <;> trivial
  | _ => trivial

end Heedless

namespace Link

structure Heeds (l : Link) (trace : List Entry) : Prop where
  expecting : expecting trace = l.awaiting
  answer : lastAnswer trace = l.lastStatus

section Heeds
variable {l l' : Link} {trace : List Entry} {e : Entry}

theorem Heeds.frame {i : Tid} {o : Op} {r : o.Res} (h : Heeds l trace) (ho : heedless o = true)
    (hawaiting : l'.awaiting = l.awaiting) (hstatus : l'.lastStatus = l.lastStatus) :
    Heeds l' (⟨i, o, r⟩ :: trace) ∧ AskOrder ⟨i, o, r⟩ trace := by
  refine ⟨⟨?_, ?_⟩, askOrder_heedless ho⟩
  · rw [expecting_heedless ho, hawaiting]
    exact h.expecting
  · rw [lastAnswer_heedless ho, hstatus]
    exact h.answer

theorem SupervisorStep.heeds (h : Heeds l trace) (hstep : SupervisorStep l e l') :
    Heeds l' (e :: trace) ∧ AskOrder e trace := by
  cases hstep with
  | attempt hsup => exact ⟨⟨h.expecting, h.answer⟩, trivial⟩
  | write hsup bytes written => exact ⟨⟨h.expecting, h.answer⟩, trivial⟩
  | tidy hsup o r ho =>
    obtain rfl | rfl | ⟨handle, rfl⟩ := ho
    all_goals exact h.frame rfl rfl rfl
  | _ => exact h.frame rfl rfl rfl

theorem RxStep.heeds {id : ℕ} (h : Heeds l trace) (hstep : RxStep l id e l') :
    Heeds l' (e :: trace) ∧ AskOrder e trace := by
  cases hstep with
  | offer hrx status hawaiting =>
    exact ⟨⟨h.expecting, rfl⟩, (h.expecting.trans hawaiting).symm⟩
  | unexpected hrx status hawaiting =>
    exact ⟨⟨h.expecting, h.answer⟩, (h.expecting.trans hawaiting).symm⟩
  | acknowledge hrx written => exact ⟨⟨h.expecting, h.answer⟩, trivial⟩
  | refuse hrx hbytes written => exact ⟨⟨h.expecting, h.answer⟩, trivial⟩
  | _ => exact h.frame rfl rfl rfl

theorem ClientStep.heeds {n : ℕ} {ph : ClientPhase} (h : Heeds l trace) (hbooks : SlotBooks l trace)
    (hclient : l.client = some (n, ph)) (hstep : ClientStep l n ph e l') :
    Heeds l' (e :: trace) ∧ AskOrder e trace := by
  obtain ⟨hunclaimed, hserved, -⟩ := hbooks.client n (by rw [hclient]; rfl)
  have hclaimed : claimed trace = some n := by
    rw [hbooks.claimed, hunclaimed, hclient]
    rfl
  cases hstep with
  | arm => exact ⟨⟨rfl, rfl⟩, n, rfl, hclaimed, hserved⟩
  | disarm => exact ⟨⟨rfl, h.answer⟩, ⟨n, rfl, hclaimed⟩, h.answer.symm⟩
  | write bytes written => exact ⟨⟨h.expecting, h.answer⟩, trivial⟩
  | «open» hopened hproxy created => cases created <;> exact h.frame rfl rfl rfl
  | start hopened hproxy created => cases created <;> exact h.frame rfl rfl rfl
  | _ => exact h.frame rfl rfl rfl

theorem Step.heeds (h : Heeds l trace) (hbooks : SlotBooks l trace) (hstep : l.Step e l') :
    Heeds l' (e :: trace) ∧ AskOrder e trace := by
  cases hstep with
  | supervisor hstep => exact hstep.heeds h
  | rx hstep => exact hstep.heeds h
  | writer hstep => cases hstep <;> exact h.frame rfl rfl rfl
  | client hclient hstep => exact hstep.heeds h hbooks hclient
  | server hstep => cases hstep <;> exact h.frame rfl rfl rfl
  | heartbeatLost id reason => exact h.frame rfl rfl rfl
  | heartbeat id bytes written => exact ⟨⟨h.expecting, h.answer⟩, trivial⟩
  | idle ho r => exact h.frame (heedless_of_idle ho) rfl rfl

theorem Course.heeds (h : Course trace l) : Heeds l trace ∧ Justified AskOrder trace := by
  induction h with
  | nil => exact ⟨⟨rfl, rfl⟩, trivial⟩
  | cons hcourse hstep ih =>
    obtain ⟨hheeds, horder⟩ := ih
    have hnext := hstep.heeds hheeds hcourse.slotBooks.1
    exact ⟨hnext.1, hnext.2, horder⟩

end Heeds
end Link

/-! ### Requests and answers -/

/-- An exchange is in progress. -/
def AskStage.asks : AskStage → Bool
  | .armed | .asked => true
  | _ => false

/-- The STATUS an exchange would end with now. -/
def Inquiry.last (x : Inquiry) : ExpansionFrameError := x.answers.getLast?.getD .unknown

namespace Line

/-- Every answer has arrived, unless an exchange failed. -/
def Settled (t : Line) : Prop := t.failed = false → t.heard = t.asked

/-- What an exchange has come to, as long as none before it failed. -/
def Stands (t : Line) (x : Inquiry) : AskStage → Prop
  | .armed => x.frames = [] ∧ (t.failed = false → x.answers = [] ∧ t.heard = t.asked)
  | .asked => t.failed = false → (x.frames = [] ∧ x.answers = [] ∧ t.heard = t.asked) ∨
      ∃ frame, x.frames = [frame] ∧ ((x.answers = [] ∧ t.asked = t.heard + 1) ∨
        (∃ status, x.answers = [status]) ∧ t.heard = t.asked)
  | _ => True

end Line

/-- The clients' stages, and what the trace tells of them. -/
structure Waits (stage : ℕ → AskStage) (trace : List Entry) : Prop where
  holder : ∀ n, stage n ≠ .resting → claimed trace = some n ∧ served n trace = true
  idle : (∀ n, (stage n).asks = false) → (line trace).inquiry = none ∧ (line trace).Settled
  asks : ∀ n, (stage n).asks = true → expecting trace = true ∧
    ∀ x, (line trace).inquiry = some x → lastAnswer trace = x.last ∧ (line trace).Stands x (stage n)

/-- Whoever moves is alone in moving, and a client moves by its code. -/
structure Moves (stage stage' : ℕ → AskStage) (i : Tid) (o : Op) (r : o.Res) : Prop where
  others : ∀ n, i ≠ .client n → stage' n = stage n
  self : ∀ n, i = .client n → ∃ ph ph', askNext ph o r = some ph' ∧ stage n = ph.stage ∧
    stage' n = ph'.stage

section Waits
variable {stage stage' : ℕ → AskStage} {i : Tid} {o : Op} {r : o.Res} {past : List Entry}

theorem waits_nil : Waits (fun _ => .resting) [] where
  holder := by simp
  idle _ := ⟨rfl, fun _ => rfl⟩
  asks := by simp [AskStage.asks]

theorem AskStage.ne_resting {stage : AskStage} (h : stage.asks = true) : stage ≠ .resting := by
  rintro rfl
  cases h

/-- The slot stays with the client that asks. -/
theorem claimed_kept {n : ℕ} (h : SlotOrder ⟨i, o, r⟩ past) (hclaimed : claimed past = some n)
    (hserved : served n past = true) (hrelease : o = .releaseClient → i ≠ .client n) :
    claimed (⟨i, o, r⟩ :: past) = some n := by
  cases o with
  | claimClient =>
    cases r with
    | true => exact absurd (hclaimed.symm.trans h) (by simp)
    | false => exact hclaimed
  | releaseClient =>
    obtain ⟨m, hm, hi⟩ := h
    obtain rfl : m = n := Option.some_inj.mp (hm.symm.trans hclaimed)
    obtain hi | ⟨-, hunserved⟩ := hi
    · exact absurd hi (hrelease rfl)
    · exact absurd (hunserved.symm.trans hserved) (by simp)
  | _ => exact hclaimed

theorem Moves.of_apart (h : Moves stage stage' i o r) (ho : apart o = true) : stage' = stage := by
  funext n
  by_cases hi : i = .client n
  · obtain ⟨ph, ph', hnext, hbefore, hafter⟩ := h.self n hi
    rw [askNext_apart ho, Option.some_inj] at hnext
    rw [hbefore, hafter, hnext]
  · exact h.others n hi

/-- The code of a client keeps its stage, or comes to rest outside an exchange. -/
theorem stage_heedless {ph ph' : AskPhase} (hnext : askNext ph o r = some ph')
    (ho : heedless o = true) :
    ph'.stage = ph.stage ∨ ph.stage.asks = false ∧ ph'.stage = .resting := by
  by_cases hapart : apart o = true
  · rw [askNext_apart hapart, Option.some_inj] at hnext
    exact .inl (by rw [hnext])
  cases o with
  | mark m =>
    cases m with
    | enter call =>
      cases call with
      | sendRpc bytes =>
        obtain ⟨rfl, ⟨⟩⟩ := Option.ite_none_right_eq_some.mp hnext
        exact .inl rfl
      | _ => exact absurd rfl hapart
    | leave call error =>
      cases call with
      | sendRpc bytes =>
        obtain ⟨⟨hstage, -⟩, ⟨⟩⟩ := Option.ite_none_right_eq_some.mp hnext
        exact .inl hstage.symm
      | _ => exact absurd rfl hapart
    | _ => exact absurd rfl hapart
  | setLost reason =>
    obtain ⟨hstage, ⟨⟩⟩ := Option.ite_none_right_eq_some.mp hnext
    refine .inr ⟨?_, rfl⟩
    obtain hstage | hstage := hstage <;> rw [hstage] <;> rfl
  | releaseClient | taskDeleteSelf =>
    obtain ⟨-, ⟨⟩⟩ := Option.ite_none_right_eq_some.mp hnext
    exact .inl rfl
  | taskDelete kind handle => cases hnext
  | locked s => cases s <;> first | exact absurd rfl hapart | cases ho
  | uartWriteBytes bytes => cases ho
  | _ => exact absurd rfl hapart

theorem Moves.of_heedless (h : Moves stage stage' i o r) (ho : heedless o = true) (n : ℕ) :
    stage' n = stage n ∨ (stage n).asks = false ∧ stage' n = .resting := by
  by_cases hi : i = .client n
  · obtain ⟨ph, ph', hnext, hbefore, hafter⟩ := h.self n hi
    rw [hbefore, hafter]
    exact stage_heedless hnext ho
  · exact .inl (h.others n hi)

/-- Whoever has asked, or owes the loss, keeps the slot. -/
theorem Waits.keeps (h : Waits stage past) (hmoves : Moves stage stage' i o r)
    (hslot : SlotOrder ⟨i, o, r⟩ past) (n : ℕ) (hstage : stage n ≠ .resting) :
    claimed (⟨i, o, r⟩ :: past) = some n ∧ served n (⟨i, o, r⟩ :: past) = true := by
  obtain ⟨hclaimed, hserved⟩ := h.holder n hstage
  refine ⟨claimed_kept hslot hclaimed hserved ?_, served_mono hserved⟩
  rintro rfl hi
  obtain ⟨ph, ph', hnext, hbefore, -⟩ := hmoves.self n hi
  obtain ⟨rfl, -⟩ := Option.ite_none_right_eq_some.mp hnext
  exact hstage hbefore

/-- The others rest. -/
theorem Waits.alone (h : Waits stage past) {n m : ℕ} (hclaimed : claimed past = some n)
    (hm : m ≠ n) : stage m = .resting := by
  by_contra hstage
  exact hm (Option.some_inj.mp ((h.holder m hstage).1.symm.trans hclaimed))

theorem Waits.heedless (h : Waits stage past) (hmoves : Moves stage stage' i o r)
    (hslot : SlotOrder ⟨i, o, r⟩ past) (ho : heedless o = true) :
    Waits stage' (⟨i, o, r⟩ :: past) := by
  have hstage := hmoves.of_heedless ho
  have hasks : ∀ n, (stage' n).asks = (stage n).asks := by
    intro n
    obtain hsame | ⟨hquiet, hrests⟩ := hstage n
    · rw [hsame]
    · rw [hquiet, hrests]
      rfl
  constructor
  case holder =>
    intro n hn
    apply h.keeps hmoves hslot n
    obtain hsame | ⟨-, hrests⟩ := hstage n
    · rwa [hsame] at hn
    · exact absurd hrests hn
  case idle =>
    intro hquiet
    rw [line_heedless ho]
    exact h.idle fun n => (hasks n).symm.trans (hquiet n)
  case asks =>
    intro n hn
    rw [line_heedless ho, expecting_heedless ho, lastAnswer_heedless ho]
    obtain hsame | ⟨-, hrests⟩ := hstage n
    · rw [hsame] at hn ⊢
      exact h.asks n hn
    · rw [hrests] at hn
      cases hn

/-- A new attempt starts with nothing asked. -/
theorem Waits.restart {r : Unit} (h : Waits stage past)
    (hmoves : Moves stage stage' i .clearLostReady r)
    (hslot : SlotOrder ⟨i, .clearLostReady, r⟩ past) :
    Waits stage' (⟨i, .clearLostReady, r⟩ :: past) := by
  obtain rfl := hmoves.of_apart rfl
  constructor
  case holder => exact h.keeps hmoves hslot
  case idle => exact fun _ => ⟨rfl, fun _ => rfl⟩
  case asks =>
    intro n hn
    refine ⟨(h.asks n hn).1, fun x hx => ?_⟩
    cases hx

/-- An answer arrives. As there was none to spare, it is the first to the frame that went out. -/
theorem Waits.offer {status : ExpansionFrameError} {expected : Bool} (h : Waits stage past)
    (hmoves : Moves stage stage' i (.locked (.offerStatus status)) expected)
    (hslot : SlotOrder ⟨i, .locked (.offerStatus status), expected⟩ past)
    (hask : AskOrder ⟨i, .locked (.offerStatus status), expected⟩ past)
    (hanswers : AnswersWhenAsked ⟨i, .locked (.offerStatus status), expected⟩ past) :
    Waits stage' (⟨i, .locked (.offerStatus status), expected⟩ :: past) := by
  obtain rfl := hmoves.of_apart rfl
  have hlt : (line past).heard + 1 ≤ (line past).asked := hanswers
  constructor
  case holder => exact h.keeps hmoves hslot
  case idle =>
    intro hquiet
    obtain ⟨hinquiry, hsettled⟩ := h.idle hquiet
    constructor
    · simp [line, hinquiry]
    · intro hfailed
      have heven := hsettled hfailed
      omega
  case asks =>
    intro n hn
    obtain ⟨hexpecting, hstands⟩ := h.asks n hn
    refine ⟨hexpecting, fun x hx => ?_⟩
    obtain ⟨y, hy, rfl⟩ := Option.map_eq_some_iff.mp hx
    obtain ⟨hlast, hstands⟩ := hstands y hy
    obtain rfl : expected = true := hask.trans hexpecting
    constructor
    · simp [lastAnswer, Inquiry.last]
    cases hstage : stage' n with
    | armed =>
      rw [hstage] at hstands
      obtain ⟨hframes, hstands⟩ := hstands
      refine ⟨hframes, fun hfailed => ?_⟩
      obtain ⟨-, heven⟩ := hstands hfailed
      omega
    | asked =>
      rw [hstage] at hstands
      intro hfailed
      obtain ⟨-, -, heven⟩ | ⟨frame, hframes, ⟨hanswers, heven⟩ | ⟨-, heven⟩⟩ := hstands hfailed
      · omega
      · apply Or.inr
        refine ⟨frame, hframes, .inr ⟨⟨status, ?_⟩, heven.symm⟩⟩
        simp [hanswers]
      · omega
    | resting | owing => trivial

/-- A client begins to ask. -/
theorem Waits.arm {r : Unit} (h : Waits stage past)
    (hmoves : Moves stage stage' i (.locked .armRequest) r)
    (hslot : SlotOrder ⟨i, .locked .armRequest, r⟩ past)
    (hask : AskOrder ⟨i, .locked .armRequest, r⟩ past) :
    Waits stage' (⟨i, .locked .armRequest, r⟩ :: past) := by
  obtain ⟨n, rfl, hclaimed, hserved⟩ := hask
  obtain ⟨ph, ph', hnext, hbefore, hafter⟩ := hmoves.self n rfl
  obtain ⟨hresting, ⟨⟩⟩ := Option.ite_none_right_eq_some.mp hnext
  rw [hresting] at hbefore
  have hothers : ∀ m, m ≠ n → stage' m = .resting := by
    intro m hm
    rw [hmoves.others m (by simpa using Ne.symm hm)]
    exact h.alone hclaimed hm
  have hquiet : ∀ m, (stage m).asks = false := by
    intro m
    by_cases hm : m = n
    · rw [hm, hbefore]
      rfl
    · rw [h.alone hclaimed hm]
      rfl
  obtain ⟨-, hsettled⟩ := h.idle hquiet
  constructor
  case holder =>
    intro m hm
    by_cases hmn : m = n
    · subst hmn
      exact ⟨hclaimed, hserved⟩
    · exact absurd (hothers m hmn) hm
  case idle =>
    intro hquiet'
    have hn := hquiet' n
    rw [hafter] at hn
    cases hn
  case asks =>
    intro m hm
    by_cases hmn : m = n
    · subst hmn
      refine ⟨rfl, fun x hx => ?_⟩
      obtain rfl := Option.some_inj.mp hx
      refine ⟨rfl, ?_⟩
      rw [hafter]
      exact ⟨rfl, fun hfailed => ⟨rfl, hsettled hfailed⟩⟩
    · rw [hothers m hmn] at hm
      cases hm

/-- What an exchange that ends with STATUS None has come to. -/
theorem Waits.answered (h : Waits stage past) {n : ℕ} (hn : (stage n).asks = true) {x : Inquiry}
    (hx : (line past).inquiry = some x) (hfailed : (line past).failed = false)
    (hlast : lastAnswer past = .none) : (line past).heard = (line past).asked ∧
      ∃ frame, x = { frames := [frame], answers := [.none] } := by
  obtain ⟨-, hstands⟩ := h.asks n hn
  obtain ⟨hsame, hstands⟩ := hstands x hx
  rw [hlast] at hsame
  have hanswers : x.answers ≠ [] := by
    intro hnil
    rw [Inquiry.last, hnil] at hsame
    cases hsame
  cases hstage : stage n with
  | armed =>
    rw [hstage] at hstands
    exact absurd (hstands.2 hfailed).1 hanswers
  | asked =>
    rw [hstage] at hstands
    obtain ⟨-, hnil, -⟩ | ⟨frame, hframes, ⟨hnil, -⟩ | ⟨⟨status, hstatus⟩, heven⟩⟩ :=
      hstands hfailed
    · exact absurd hnil hanswers
    · exact absurd hnil hanswers
    · refine ⟨heven, frame, ?_⟩
      rw [Inquiry.last, hstatus] at hsame
      obtain rfl : .none = status := hsame
      obtain ⟨frames, answers⟩ := x
      obtain rfl : frames = [frame] := hframes
      obtain rfl : answers = [.none] := hstatus
      rfl
  | resting | owing =>
    rw [hstage] at hn
    cases hn

/-- An exchange ends. -/
theorem Waits.disarm {status : ExpansionFrameError} (h : Waits stage past)
    (hmoves : Moves stage stage' i (.locked .disarmRequest) status)
    (hslot : SlotOrder ⟨i, .locked .disarmRequest, status⟩ past)
    (hask : AskOrder ⟨i, .locked .disarmRequest, status⟩ past) :
    Waits stage' (⟨i, .locked .disarmRequest, status⟩ :: past) ∧
      StopAndWait ⟨i, .locked .disarmRequest, status⟩ past := by
  obtain ⟨⟨n, rfl, hclaimed⟩, hlast⟩ := hask
  obtain ⟨ph, ph', hnext, hbefore, hafter⟩ := hmoves.self n rfl
  have hstages : (stage n).asks = true ∧ (stage' n).asks = false := by
    unfold askNext at hnext
    dsimp only at hnext
    rw [hbefore, hafter]
    split at hnext
    · next hanswered =>
      obtain rfl := Option.some_inj.mp hnext
      exact ⟨by rw [hanswered.1]; rfl, rfl⟩
    · obtain ⟨hstage, ⟨⟩⟩ := Option.ite_none_right_eq_some.mp hnext
      refine ⟨?_, rfl⟩
      obtain hstage | hstage := hstage <;> rw [hstage] <;> rfl
  obtain ⟨hn, hn'⟩ := hstages
  have hstop : StopAndWait ⟨.client n, .locked .disarmRequest, status⟩ past := by
    rintro x hx hfailed rfl
    exact h.answered hn hx hfailed hlast.symm
  have hothers : ∀ m, m ≠ n → stage' m = stage m := fun m hm =>
    hmoves.others m (by simpa using Ne.symm hm)
  refine ⟨⟨fun m hm => ?_, fun _ => ⟨rfl, fun hfailed => ?_⟩, fun m hm => ?_⟩, hstop⟩
  · apply h.keeps hmoves hslot m
    by_cases hmn : m = n
    · rw [hmn]
      exact AskStage.ne_resting hn
    · rwa [hothers m hmn] at hm
  · simp only [line, Bool.or_eq_false_iff, decide_eq_false_iff_not, ne_eq, not_not] at hfailed
    obtain ⟨⟨hfailed, hinquiry⟩, hstatus⟩ := hfailed
    obtain ⟨x, hx⟩ := Option.isSome_iff_exists.mp (Option.isNone_eq_false_iff.mp hinquiry)
    exact (hstop x hx hfailed hstatus).1
  · by_cases hmn : m = n
    · rw [hmn, hn'] at hm
      cases hm
    · rw [hothers m hmn, h.alone hclaimed hmn] at hm
      cases hm

/-- A client that began to ask writes its frame. -/
theorem Waits.write {bytes : List UInt8} {written : ℤ} (h : Waits stage past)
    (hmoves : Moves stage stage' i (.uartWriteBytes bytes) written)
    (hslot : SlotOrder ⟨i, .uartWriteBytes bytes, written⟩ past) :
    Waits stage' (⟨i, .uartWriteBytes bytes, written⟩ :: past) ∧
      StopAndWait ⟨i, .uartWriteBytes bytes, written⟩ past := by
  cases i with
  | client n =>
    obtain ⟨ph, ph', hnext, hbefore, hafter⟩ := hmoves.self n rfl
    obtain ⟨⟨hstage, -⟩, ⟨⟩⟩ := Option.ite_none_right_eq_some.mp hnext
    rw [hstage] at hbefore
    obtain ⟨hclaimed, hserved⟩ := h.holder n (by simp [hbefore])
    obtain ⟨hexpecting, hstands⟩ := h.asks n (by rw [hbefore]; rfl)
    rw [hbefore] at hstands
    have hothers : ∀ m, m ≠ n → stage' m = .resting := by
      intro m hm
      rw [hmoves.others m (by simpa using Ne.symm hm)]
      exact h.alone hclaimed hm
    constructor
    · constructor
      case holder =>
        intro m hm
        by_cases hmn : m = n
        · rw [hmn]
          exact ⟨hclaimed, hserved⟩
        · exact absurd (hothers m hmn) hm
      case idle =>
        intro hquiet
        have hn := hquiet n
        rw [hafter] at hn
        cases hn
      case asks =>
        intro m hm
        by_cases hmn : m = n
        · subst hmn
          refine ⟨hexpecting, fun x hx => ?_⟩
          rw [hafter]
          by_cases hwhole : written = bytes.length
          · simp only [line, if_pos hwhole] at hx ⊢
            obtain ⟨y, hy, rfl⟩ := Option.map_eq_some_iff.mp hx
            obtain ⟨hlast, hframes, hstands⟩ := hstands y hy
            refine ⟨hlast, fun hfailed => .inr ⟨bytes, by simp [hframes], .inl ?_⟩⟩
            obtain ⟨hanswers, heven⟩ := hstands hfailed
            exact ⟨hanswers, by dsimp only; omega⟩
          · simp only [line, if_neg hwhole] at hx ⊢
            obtain ⟨hlast, hframes, hstands⟩ := hstands x hx
            exact ⟨hlast, fun hfailed => .inl ⟨hframes, hstands hfailed⟩⟩
        · rw [hothers m hmn] at hm
          cases hm
    · intro x hx hfailed
      obtain ⟨-, hframes, hstands⟩ := hstands x hx
      obtain ⟨hanswers, heven⟩ := hstands hfailed
      refine ⟨?_, heven⟩
      obtain ⟨frames, answers⟩ := x
      obtain rfl : frames = [] := hframes
      obtain rfl : answers = [] := hanswers
      rfl
  | _ =>
    obtain rfl : stage' = stage := funext fun m => hmoves.others m (by simp)
    exact ⟨⟨h.keeps hmoves hslot, h.idle, h.asks⟩, trivial⟩

theorem Waits.next (h : Waits stage past) (hmoves : Moves stage stage' i o r)
    (hslot : SlotOrder ⟨i, o, r⟩ past) (hask : AskOrder ⟨i, o, r⟩ past)
    (hanswers : AnswersWhenAsked ⟨i, o, r⟩ past) :
    Waits stage' (⟨i, o, r⟩ :: past) ∧ StopAndWait ⟨i, o, r⟩ past := by
  cases o with
  | clearLostReady => exact ⟨h.restart hmoves hslot, by cases i <;> trivial⟩
  | uartWriteBytes bytes => exact h.write hmoves hslot
  | locked s =>
    cases s with
    | armRequest => exact ⟨h.arm hmoves hslot hask, by cases i <;> trivial⟩
    | disarmRequest => exact h.disarm hmoves hslot hask
    | offerStatus status => exact ⟨h.offer hmoves hslot hask hanswers, by cases i <;> trivial⟩
    | _ => exact ⟨h.heedless hmoves hslot rfl, by cases i <;> trivial⟩
  | _ => exact ⟨h.heedless hmoves hslot rfl, by cases i <;> trivial⟩

end Waits

/-! ### Runs of the firmware -/

section Runs
variable {secret : Vector UInt8 bridgePairingSecretBytes} {s : (asking secret).Scene}

/-- The stage of a client; without a task it rests. -/
def stage : Option AskPhase → AskStage
  | none => .resting
  | some ph => ph.stage

theorem moves_of_step {i : Tid} {o : Op} {r : o.Res} {ph : (asking secret).Phase i} {st : State}
    (live : s.world.state.live i = true) (role : (asking secret).next i (s.phase i) o r = some ph)
    (heffect : effect i o r s.world.state = some st) :
    Moves (fun n => stage (s.part (.client n)))
      (fun n => stage ((s.moved i ph ⟨st, ⟨i, o, r⟩ :: s.world.trace⟩).part (.client n)))
      i o r := by
  constructor
  case others =>
    intro n hi
    obtain hsame | ⟨hnone, hnew⟩ := part_other rfl (Ne.symm hi) heffect
    · exact congrArg stage hsame
    · exact (congrArg stage hnew).trans (congrArg stage hnone).symm
  case self =>
    rintro n rfl
    refine ⟨s.phase (.client n), ph, role, ?_, ?_⟩
    · have hpart : s.part (.client n) = some (s.phase (.client n)) :=
        Choreography.Scene.part_of_live live
      exact congrArg stage hpart
    · refine (congrArg stage (part_self rfl live heffect)).trans ?_
      split
      · next hends =>
        cases o with
        | taskDeleteSelf =>
          obtain ⟨hquiet, hnext⟩ := Option.ite_none_right_eq_some.mp role
          obtain rfl := Option.some_inj.mp hnext
          exact congrArg AskPhase.stage hquiet.symm
        | taskDelete kind handle => cases role
        | _ => cases hends
      · rfl

theorem waits_of_allowed (hs : (asking secret).Allowed s)
    (hslot : Justified SlotOrder s.world.trace) (hask : Justified AskOrder s.world.trace)
    (hanswers : Justified AnswersWhenAsked s.world.trace) :
    Waits (fun n => stage (s.part (.client n))) s.world.trace ∧
      Justified StopAndWait s.world.trace := by
  induction hs with
  | refl => exact ⟨waits_nil, trivial⟩
  | @tail s s' hs hstep ih =>
    cases hstep with | @mk i o r ph st live role effect =>
    obtain ⟨hwaits, hstops⟩ := ih hslot.2 hask.2 hanswers.2
    have hmoves := moves_of_step live role effect
    obtain ⟨hwaits', hstop⟩ := hwaits.next hmoves hslot.1 hask.1 hanswers.1
    exact ⟨hwaits', hstop, hstops⟩

end Runs
end Bridge

/-- If the Flipper sends no STATUS frame it was not asked for, then, until an exchange of this link
fails or one begun on an earlier link ends on it, an exchange that ends with STATUS None was
answered by exactly one frame, after its own went out, and no frame goes out before those before it
were answered. -/
theorem stop_and_wait {secret : Vector UInt8 bridgePairingSecretBytes}
    {c : System.Config (bridge secret)} (hc : System.Reachable c)
    (hanswers : Justified Bridge.AnswersWhenAsked c.world.trace) :
    Justified Bridge.StopAndWait c.world.trace := by
  obtain ⟨s, hs, hworld⟩ := (Bridge.choreography secret).exists_allowed hc
  obtain ⟨l, hcourse, -⟩ := Bridge.exists_course hs
  obtain ⟨-, hask⟩ := hcourse.heeds
  obtain ⟨-, hslot, -⟩ := hcourse.slotBooks
  obtain ⟨t, ht, hworld'⟩ := (Bridge.asking secret).exists_allowed hc
  rw [hworld] at hask hslot
  rw [← hworld'] at hask hslot hanswers ⊢
  exact (Bridge.waits_of_allowed ht hslot hask hanswers).2

/-- START RPC, a DATA frame and STOP RPC, each answered. -/
theorem stop_and_wait_released : ∃ c : Bridge.Sample,
    Bridge.line c.world.trace = { asked := 3, heard := 3 } ∧
      Justified Bridge.StopAndWait c.world.trace := by
  obtain ⟨c, hc, htest⟩ := Bridge.exists_run Bridge.Script.releases
    (fun c : Bridge.Sample => decide (Bridge.line c.world.trace = { asked := 3, heard := 3 } ∧
      Justified Bridge.AnswersWhenAsked c.world.trace)) (by decide +kernel)
  obtain ⟨hline, hanswers⟩ := of_decide_eq_true htest
  exact ⟨c, hline, stop_and_wait hc hanswers⟩

end FlipforgeBridge
