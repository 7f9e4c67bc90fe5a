import FlipforgeBridge.Pairing.Watch

/-!
The pairing secret leaves the device only for somebody who holds the button: every disclosure
uses up a window of its own, and a window takes the first boot or a long press.
-/
namespace FlipforgeBridge
open Process

namespace Pairing

abbrev Entry := Label console Unit

/-! ### Reading the trace -/

def isDisclosure : Entry → Bool
  | ⟨_, .print _, _⟩ => true
  | _ => false

/-- Whether a poll found the button held. -/
def sampleOf : Entry → Option Bool
  | ⟨_, .gpioGetLevel, level⟩ => some !level
  | _ => none

def timeOf : Entry → Option Time
  | ⟨_, .timerGetTime, now⟩ => some now
  | _ => none

/-- The button in the latest poll. -/
def buttonHeld (past : List Entry) : Bool := past.findSome? sampleOf == some true

/-- The latest reading of the clock. -/
def clock (past : List Entry) : ℕ := (past.findSome? timeOf).elim 0 fun now => now.val

/-- The number of polls in a row, up to the latest, that found the button held. -/
def heldRun : List Entry → ℕ
  | [] => 0
  | l :: past =>
    match sampleOf l with
    | some true => heldRun past + 1
    | some false => 0
    | none => heldRun past

/-- A window opens when the clock is read at the start of the service, before the first poll, for
credentials just created; or right after a poll that ends a run of forty or more. -/
def isOpening (newlyCreated : Bool) (l : Entry) (past : List Entry) : Bool :=
  (timeOf l).isSome && ((newlyCreated && (past.findSome? sampleOf).isNone) ||
    ((past.head?.bind sampleOf).isSome && decide (40 ≤ heldRun past)))

def disclosures (trace : List Entry) : ℕ := trace.countP isDisclosure

def openings (newlyCreated : Bool) : List Entry → ℕ
  | [] => 0
  | l :: past => openings newlyCreated past + if isOpening newlyCreated l past then 1 else 0

/-- When the latest window was opened, if nothing has been disclosed since. -/
def openWindow (newlyCreated : Bool) : List Entry → Option Time
  | [] => none
  | l :: past =>
    if isDisclosure l then none
    else if isOpening newlyCreated l past then timeOf l
    else openWindow newlyCreated past

/-- `past` has an opening at `opened` and no disclosure since. -/
def OpenedAt (newlyCreated : Bool) (opened : Time) (past : List Entry) : Prop :=
  ∃ later opening earlier, past = later ++ opening :: earlier ∧
    isOpening newlyCreated opening earlier ∧ timeOf opening = some opened ∧
    ∀ l ∈ later, ¬isDisclosure l

/-- What has to be true when the secret is printed. -/
def Consented (newlyCreated : Bool) (past : List Entry) : Prop :=
  buttonHeld past ∧ ∃ opened, OpenedAt newlyCreated opened past ∧ clock past < opened.val + windowUs

/-! ### The watch reflects the trace -/

def Phase.watch : Phase → Watch
  | .starting w | .polling w | .sampled w | .reading w | .ended w | .granted w => w

/-- The watch in terms of what has happened. -/
structure Reflects (newlyCreated : Bool) (w : Watch) (trace : List Entry) : Prop where
  run : w.run = heldRun trace
  window : w.window = openWindow newlyCreated trace
  count : disclosures trace + w.window.toList.length ≤ openings newlyCreated trace

/-- What the place in the code adds. -/
def Position : Phase → List Entry → Prop
  | .starting _, trace => trace.findSome? sampleOf = none
  | .polling _, trace | .reading _, trace => (trace.findSome? sampleOf).isSome
  | .sampled _, trace => (trace.head?.bind sampleOf).isSome
  | .ended _, trace => (trace.findSome? sampleOf).isSome ∧ trace.head?.bind sampleOf = none
  | .granted w, trace => (trace.findSome? sampleOf).isSome ∧ 1 ≤ w.run ∧
      ∃ opened, w.window = some opened ∧ clock trace < opened.val + windowUs

theorem buttonHeld_of_heldRun {past : List Entry} (h : 0 < heldRun past) : buttonHeld past := by
  induction past with
  | nil => exact absurd h (Nat.lt_irrefl 0)
  | cons l past ih =>
    rw [heldRun] at h
    rw [buttonHeld, List.findSome?_cons]
    cases hl : sampleOf l with
    | none =>
      rw [hl] at h
      exact ih h
    | some held =>
      cases held with
      | false =>
        rw [hl] at h
        exact absurd h (Nat.lt_irrefl 0)
      | true => rfl

theorem findSome_of_head {past : List Entry} (h : (past.head?.bind sampleOf).isSome) :
    (past.findSome? sampleOf).isSome := by
  cases past with
  | nil => cases h
  | cons l past =>
    obtain ⟨held, hl⟩ := Option.isSome_iff_exists.mp h
    have hsample : sampleOf l = some held := hl
    rw [List.findSome?_cons, hsample]
    rfl

section Step
variable {newlyCreated : Bool} {w : Watch} {l : Entry} {past : List Entry}

theorem openedAt_of_openWindow {opened : Time} (h : openWindow newlyCreated past = some opened) :
    OpenedAt newlyCreated opened past := by
  induction past with
  | nil => cases h
  | cons l past ih =>
    rw [openWindow] at h
    split at h
    · cases h
    · next hl =>
      split at h
      · next hopening => exact ⟨[], l, past, rfl, hopening, h, nofun⟩
      · obtain ⟨later, opening, earlier, rfl, hopening, htime, hlater⟩ := ih h
        refine ⟨l :: later, opening, earlier, rfl, hopening, htime, ?_⟩
        intro l' hl'
        rcases List.mem_cons.mp hl' with rfl | hl'
        · exact hl
        · exact hlater l' hl'

/-- Neither a sample, nor an opening, nor a disclosure: what the watch reflects stays. -/
structure Idle (newlyCreated : Bool) (l : Entry) (past : List Entry) : Prop where
  sample : sampleOf l = none
  opening : isOpening newlyCreated l past = false
  disclosure : isDisclosure l = false

theorem idle_judgement (h : Position (.ended w) past) (i : Unit) (now : Time) :
    Idle newlyCreated ⟨i, .timerGetTime, now⟩ past := by
  refine ⟨rfl, ?_, rfl⟩
  have hpolled : (past.findSome? sampleOf).isNone = false := by
    rw [Option.isNone_eq_false_iff]
    exact h.1
  rw [isOpening, hpolled, h.2, Bool.and_false]
  rfl

/-- Run and window are the same after an idle operation. -/
theorem Reflects.idle {w' : Watch} (h : Reflects newlyCreated w past)
    (hl : Idle newlyCreated l past) (hrun : w'.run = w.run) (hwindow : w'.window = w.window) :
    Reflects newlyCreated w' (l :: past) := by
  constructor
  · rw [hrun, h.run, heldRun, hl.sample]
  · rw [hwindow, h.window, openWindow, hl.disclosure, hl.opening]
    rfl
  · have hcount := h.count
    rw [disclosures] at hcount
    rw [hwindow, openings, hl.opening, disclosures, List.countP_cons, hl.disclosure]
    exact hcount

theorem Reflects.sample (h : Reflects newlyCreated w past) (i : Unit) (level : Bool) :
    Reflects newlyCreated (w.sample level) (⟨i, .gpioGetLevel, level⟩ :: past) := by
  constructor
  · cases level
    · exact congrArg (· + 1) h.run
    · rfl
  · exact h.window
  · exact h.count

theorem Reflects.opening (h : Reflects newlyCreated w past) (i : Unit) {now : Time}
    (ho : isOpening newlyCreated (⟨i, .timerGetTime, now⟩ : Entry) past) :
    Reflects newlyCreated { w with window := some now } (⟨i, .timerGetTime, now⟩ :: past) := by
  constructor
  · exact h.run
  · rw [openWindow, ho]
    rfl
  · have hcount := h.count
    rw [openings, if_pos ho]
    change disclosures past + 1 ≤ _
    omega

/-- A disclosure takes the window away. -/
theorem Reflects.disclose (h : Reflects newlyCreated w past) (hw : w.window.isSome)
    (i : Unit) (line : List UInt8) (r : Unit) :
    Reflects newlyCreated { w with window := none, line := [] } (⟨i, .print line, r⟩ :: past) := by
  obtain ⟨opened, ho⟩ := Option.isSome_iff_exists.mp hw
  have hcount := h.count
  rw [ho] at hcount
  refine ⟨h.run, rfl, ?_⟩
  rw [disclosures,
    List.countP_cons_of_pos (show isDisclosure (⟨i, .print line, r⟩ : Entry) from rfl)]
  exact hcount

/-- One operation of the service. -/
theorem reflects_step {ph ph' : Phase} {i : Unit} {o : ConsoleOp} {r : o.Res}
    (h : Reflects newlyCreated ph.watch past) (hpos : Position ph past)
    (hnext : next newlyCreated ph o r = some ph') :
    Reflects newlyCreated ph'.watch (⟨i, o, r⟩ :: past) ∧ Position ph' (⟨i, o, r⟩ :: past) := by
  cases ph with
  | starting w =>
    cases o with
    | gpioGetLevel =>
      cases hnext
      exact ⟨h.sample i r, rfl⟩
    | timerGetTime =>
      obtain ⟨hnew, ⟨⟩⟩ := Option.ite_none_right_eq_some.mp hnext
      refine ⟨h.opening i ?_, hpos⟩
      rw [isOpening, hnew, hpos]
      rfl
    | callocContext | gpioConfig | taskCreate | fcntlNonblock =>
      cases hnext
      exact ⟨h.idle ⟨rfl, rfl, rfl⟩ rfl rfl, hpos⟩
    | read | print | delay | commandSize => cases hnext
  | polling w =>
    cases o with
    | gpioGetLevel =>
      cases hnext
      exact ⟨h.sample i r, rfl⟩
    | delay ms =>
      cases hnext
      exact ⟨h.idle ⟨rfl, rfl, rfl⟩ rfl rfl, hpos⟩
    | _ => cases hnext
  | sampled w =>
    have hpolled : (past.findSome? sampleOf).isSome := findSome_of_head hpos
    cases o with
    | timerGetTime =>
      obtain ⟨hlong, ⟨⟩⟩ := Option.ite_none_right_eq_some.mp hnext
      refine ⟨h.opening i ?_, hpolled⟩
      simp only [isOpening, Bool.and_eq_true, Bool.or_eq_true, decide_eq_true_iff]
      exact ⟨rfl, .inr ⟨hpos, h.run ▸ hlong⟩⟩
    | commandSize size =>
      obtain ⟨-, ⟨⟩⟩ := Option.ite_none_right_eq_some.mp hnext
      exact ⟨h.idle ⟨rfl, rfl, rfl⟩ rfl rfl, hpolled⟩
    | _ => cases hnext
  | reading w =>
    cases o with
    | commandSize size =>
      obtain ⟨-, ⟨⟩⟩ := Option.ite_none_right_eq_some.mp hnext
      exact ⟨h.idle ⟨rfl, rfl, rfl⟩ rfl rfl, hpos⟩
    | read =>
      cases hnext
      cases r with
      | none => exact ⟨h.idle ⟨rfl, rfl, rfl⟩ rfl rfl, hpos⟩
      | some byte =>
        rw [Watch.read]
        split
        · exact ⟨h.idle ⟨rfl, rfl, rfl⟩ rfl rfl, hpos, rfl⟩
        · exact ⟨h.idle ⟨rfl, rfl, rfl⟩ rfl rfl, hpos⟩
    | _ => cases hnext
  | ended w =>
    cases o with
    | timerGetTime =>
      cases hnext
      rw [Watch.judge]
      split
      · next hgrant =>
        rw [Bool.and_eq_true, Bool.and_eq_true, decide_eq_true_iff] at hgrant
        obtain ⟨⟨-, hopen⟩, hheld⟩ := hgrant
        obtain ⟨opened, ho, hlt⟩ := Option.any_eq_true _ _ |>.mp hopen
        refine ⟨h.idle (idle_judgement hpos i r) rfl rfl, hpos.1, hheld, opened, ho, ?_⟩
        exact of_decide_eq_true hlt
      · exact ⟨h.idle (idle_judgement hpos i r) rfl rfl, hpos.1⟩
    | _ => cases hnext
  | granted w =>
    cases o with
    | print line =>
      cases hnext
      obtain ⟨hpolled, -, opened, ho, -⟩ := hpos
      exact ⟨h.disclose (Option.isSome_iff_exists.mpr ⟨opened, ho⟩) i line r, hpolled⟩
    | _ => cases hnext

/-- Only a granted line is answered, and it was granted with consent. -/
theorem consented_of_print {ph ph' : Phase} {line : List UInt8} {r : Unit}
    (h : Reflects newlyCreated ph.watch past) (hpos : Position ph past)
    (hnext : next newlyCreated ph (.print line) r = some ph') : Consented newlyCreated past := by
  cases ph with
  | granted w =>
    obtain ⟨-, hrun, opened, ho, hlt⟩ := hpos
    have hheld : 0 < heldRun past := by
      rw [← h.run]
      exact hrun
    have hwindow : openWindow newlyCreated past = some opened := by
      rw [← h.window]
      exact ho
    exact ⟨buttonHeld_of_heldRun hheld, opened, openedAt_of_openWindow hwindow, hlt⟩
  | _ => cases hnext

end Step

variable {credentials : BridgeCredentials} {ssid : List UInt8}

/-- The invariant of the service. -/
structure Consents (s : (choreography credentials ssid).Scene) : Prop where
  reflects : Reflects credentials.newlyCreated (s.phase ()).watch s.world.trace
  position : Position (s.phase ()) s.world.trace
  justified : Justified (fun l past => isDisclosure l → Consented credentials.newlyCreated past)
    s.world.trace

theorem consents_of_allowed {s : (choreography credentials ssid).Scene}
    (hs : (choreography credentials ssid).Allowed s) : Consents s := by
  apply hs.induction
  · exact ⟨⟨rfl, rfl, Nat.le_refl 0⟩, rfl, trivial⟩
  · rintro s _ - h ⟨live, role, effect⟩
    rename_i i o r ph st
    have hphase := Choreography.Scene.moved_phase_self
      (w := ⟨st, ⟨i, o, r⟩ :: s.world.trace⟩) ph live
    obtain ⟨hreflects, hposition⟩ := reflects_step (i := i) h.reflects h.position role
    refine ⟨?_, ?_, ?_, h.justified⟩
    · exact hphase ▸ hreflects
    · exact hphase ▸ hposition
    · intro hl
      cases o with
      | print line => exact consented_of_print h.reflects h.position role
      | _ => cases hl

/-! ### A run -/

/-- What the environment answers: the button, the clock and the console. -/
def answer (held : Bool) (now : Time) (byte : Option UInt8) : (o : ConsoleOp) → o.Res
  | .callocContext | .taskCreate => true
  | .gpioGetLevel => !held
  | .gpioConfig => .ok
  | .timerGetTime => now
  | .read => byte
  | .fcntlNonblock | .print _ | .delay _ | .commandSize _ => ()

/-- One poll in which the button is held and a line is typed. -/
def keyIn (credentials : BridgeCredentials) (ssid line : List UInt8) :
    List (System.Choice (pairing credentials ssid)) :=
  let now : Time := (pairing credentials ssid).init
  List.replicate 6 ((), answer true now none) ++
    line.flatMap (fun byte => List.replicate 2 ((), answer true now (some byte))) ++
    List.replicate 2 ((), answer true now none)

end Pairing

open Pairing in
/-- The secret is printed only while the button is held and within a window that has not been
used; so there are never more disclosures than windows. -/
theorem disclosure_needs_consent (credentials : BridgeCredentials) (ssid : List UInt8)
    {c : System.Config (pairing credentials ssid)} (hc : System.Reachable c) :
    Justified (fun l past => isDisclosure l → Consented credentials.newlyCreated past)
        c.world.trace ∧
      disclosures c.world.trace ≤ openings credentials.newlyCreated c.world.trace := by
  obtain ⟨s, hs, hworld⟩ := (choreography credentials ssid).exists_allowed hc
  have h := consents_of_allowed hs
  rw [← hworld]
  exact ⟨h.justified, Nat.le_trans (Nat.le_add_right _ _) h.reflects.count⟩

def BridgeCredentials.sample : BridgeCredentials where
  apPassword := []
  pairingSecret := .replicate _ 0
  newlyCreated := true

open Pairing in
theorem disclosure_needs_consent_sample :
    ∃ c : System.Config (pairing .sample []), (disclosures c.world.trace = 1) ∧
      Justified (fun l past => isDisclosure l → Consented true past) c.world.trace ∧
      disclosures c.world.trace ≤ openings true c.world.trace := by
  obtain ⟨c, hc, htest⟩ := System.exists_reachable (keyIn .sample [] (pairText ++ [0x0A]))
    (fun c => disclosures c.world.trace == 1) (by decide +kernel)
  exact ⟨c, beq_iff_eq.mp htest, disclosure_needs_consent .sample [] hc⟩

end FlipforgeBridge
