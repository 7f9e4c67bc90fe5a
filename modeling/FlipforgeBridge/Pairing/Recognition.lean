import FlipforgeBridge.Pairing.Consent
import Mathlib.Data.List.Basic

/-!
Which lines the console takes as `PAIR`. It is meant to be the line of these four bytes, but the
buffer forgets every sixteen bytes of a longer line, and the comparison stops at a NUL.
-/
namespace FlipforgeBridge
open Process

namespace Pairing

def bytesOf : Entry → List UInt8
  | ⟨_, .read, result⟩ => result.toList
  | _ => []

/-- Everything read from the console so far. -/
def typed (trace : List Entry) : List UInt8 := gather bytesOf trace

/-- The lines that have ended. -/
def completedLines (bytes : List UInt8) : List (List UInt8) :=
  (bytes.splitOnP isTerminator).dropLast

/-- The button is held, and where a line is judged the window is open. -/
def isFavourable (newlyCreated : Bool) (l : Entry) (past : List Entry) : Bool :=
  sampleOf l != some false && (isOpening newlyCreated l past || (timeOf l).all fun now =>
    (openWindow newlyCreated past).any fun opened => decide (now.val < opened.val + windowUs))

/-- Button and window are favourable throughout up to the first disclosure. -/
abbrev Favourable (newlyCreated : Bool) : List Entry → Prop :=
  Justified fun l past => disclosures past = 0 → isFavourable newlyCreated l past

/-- The first disclosure answers a line that is `PAIR`; whenever the console is read on without
one, there has been no such line; and the buffer has room. -/
def Recognises : Entry → List Entry → Prop
  | ⟨_, .print _, _⟩, past =>
    disclosures past = 0 → (completedLines (typed past)).getLast? = some pairText
  | ⟨_, .commandSize size, _⟩, past =>
    size < commandCapacity ∧ (disclosures past = 0 → pairText ∉ completedLines (typed past))
  | _, _ => True

instance : ∀ l past, Decidable (Recognises l past)
  | ⟨_, .print _, _⟩, past => inferInstanceAs (Decidable (disclosures past = 0 → _))
  | ⟨_, .commandSize _, _⟩, past => inferInstanceAs (Decidable (_ ∧ (disclosures past = 0 → _)))
  | ⟨_, .callocContext, _⟩, _ | ⟨_, .gpioConfig, _⟩, _ | ⟨_, .taskCreate, _⟩, _
  | ⟨_, .fcntlNonblock, _⟩, _ | ⟨_, .gpioGetLevel, _⟩, _ | ⟨_, .timerGetTime, _⟩, _
  | ⟨_, .read, _⟩, _ | ⟨_, .delay _, _⟩, _ => .isTrue trivial

/-- The task is about to read, having dealt with everything before. -/
def atPrompt : List Entry → Bool
  | ⟨_, .commandSize _, _⟩ :: _ => true
  | _ => false

/-- The first line that passes for `PAIR` is `PAIR`. -/
def Unambiguous (bytes : List UInt8) : Prop :=
  ∀ line, (completedLines bytes).find? taken = some line → line = pairText

/-! ### Lines -/

theorem splitOnP_append_terminator {bytes : List UInt8} {byte : UInt8} (h : isTerminator byte) :
    (bytes ++ [byte]).splitOnP isTerminator = bytes.splitOnP isTerminator ++ [[]] := by
  rw [List.splitOnP_append_cons bytes [] h, List.splitOnP_nil]

/-- A byte other than a terminator goes to the last line. -/
theorem splitOnP_append_byte {bytes : List UInt8} {byte : UInt8} (h : ¬isTerminator byte)
    {lines : List (List UInt8)} {line : List UInt8}
    (hlines : bytes.splitOnP isTerminator = lines ++ [line]) :
    (bytes ++ [byte]).splitOnP isTerminator = lines ++ [line ++ [byte]] := by
  induction bytes generalizing lines line with
  | nil =>
    have hempty : lines = [] ∧ line = [] := by simpa [List.cons_eq_append_iff] using hlines
    rw [hempty.1, hempty.2, List.nil_append, List.splitOnP_eq_singleton (by simpa using h)]
    rfl
  | cons b bytes ih =>
    obtain ⟨rest, last, hrest⟩ := List.eq_nil_or_concat' (bytes.splitOnP isTerminator)
      |>.resolve_left (List.splitOnP_ne_nil isTerminator bytes)
    have hnext := ih hrest
    rw [List.splitOnP_cons_eq_if_modifyHead, hrest] at hlines
    rw [List.cons_append, List.splitOnP_cons_eq_if_modifyHead, hnext]
    split
    · next hb =>
      rw [if_pos hb, ← List.cons_append] at hlines
      obtain ⟨rfl, hline⟩ := List.append_inj' hlines rfl
      cases hline
      rfl
    · next hb =>
      rw [if_neg hb] at hlines
      cases rest with
      | nil =>
        have hsingle : [] ++ [b :: last] = lines ++ [line] := hlines
        obtain ⟨rfl, hline⟩ := List.append_inj' hsingle rfl
        cases hline
        rfl
      | cons first rest =>
        have hmore : ((b :: first) :: rest) ++ [last] = lines ++ [line] := hlines
        obtain ⟨rfl, hline⟩ := List.append_inj' hmore rfl
        cases hline
        rfl

theorem completedLines_eq {bytes : List UInt8} {lines : List (List UInt8)} {line : List UInt8}
    (h : bytes.splitOnP isTerminator = lines ++ [line]) : completedLines bytes = lines := by
  rw [completedLines, h, List.dropLast_concat]

theorem taken_pairText : taken pairText := by decide

/-! ### What has been answered -/

/-- `lines` are the lines that the task has dealt with. -/
structure Answered (lines : List (List UInt8)) (trace : List Entry) : Prop where
  disclosed : disclosures trace = 0 ↔ lines.find? taken = none
  exact : Justified Recognises trace ↔
    ∀ line, lines.find? taken = some line → line = pairText

section Answered
variable {lines : List (List UInt8)} {line : List UInt8} {l : Entry} {past : List Entry}

theorem Answered.quiet (h : Answered lines past) (hl : isDisclosure l = false)
    (hr : Recognises l past) : Answered lines (l :: past) := by
  constructor
  · rw [disclosures, List.countP_cons, hl]
    exact h.disclosed
  · rw [justified_cons, and_iff_right hr]
    exact h.exact

/-- A line that is not taken, or comes too late. -/
theorem Answered.pass (h : Answered lines past)
    (hline : taken line → disclosures past ≠ 0) : Answered (lines ++ [line]) past := by
  have hfind : (lines ++ [line]).find? taken = lines.find? taken := by
    rw [List.find?_append]
    cases hlines : lines.find? taken with
    | some first => rfl
    | none =>
      have hnot : ¬taken line := fun htaken => hline htaken (h.disclosed.mpr hlines)
      rw [List.find?_cons_of_neg hnot]
      rfl
  constructor
  · rw [hfind]
    exact h.disclosed
  · rw [hfind]
    exact h.exact

/-- A line that is answered with the secret. -/
theorem Answered.grant (h : Answered lines past) (hline : taken line)
    (hsplit : (typed past).splitOnP isTerminator = (lines ++ [line]) ++ [[]])
    (i : Unit) (text : List UInt8) (r : Unit) :
    Answered (lines ++ [line]) (⟨i, .print text, r⟩ :: past) := by
  have hcount : disclosures (⟨i, .print text, r⟩ :: past) ≠ 0 := by
    rw [disclosures,
      List.countP_cons_of_pos (show isDisclosure (⟨i, .print text, r⟩ : Entry) from rfl)]
    exact Nat.succ_ne_zero _
  have hlast : (completedLines (typed past)).getLast? = some line := by
    rw [completedLines_eq hsplit, List.getLast?_concat]
  have hrecognises : Recognises ⟨i, .print text, r⟩ past ↔
      (disclosures past = 0 → line = pairText) := by
    change (disclosures past = 0 → (completedLines (typed past)).getLast? = some pairText) ↔ _
    rw [hlast, Option.some_inj]
  rw [h.disclosed] at hrecognises
  constructor
  · rw [List.find?_append]
    refine iff_of_false hcount ?_
    cases lines.find? taken with
    | some first => exact Option.some_ne_none first
    | none =>
      rw [List.find?_cons_of_pos hline]
      exact Option.some_ne_none line
  · rw [justified_cons, hrecognises, h.exact, List.find?_append]
    cases lines.find? taken with
    | some first => simp
    | none =>
      rw [List.find?_cons_of_pos hline]
      simp

end Answered

/-! ### The watch hears every line -/

/-- The lines not dealt with yet, with the one being typed. -/
def Phase.pending : Phase → List (List UInt8)
  | .starting w | .polling w | .sampled w | .reading w => [w.line]
  | .ended w | .granted w => [w.line, []]

theorem pending_ne_nil (ph : Phase) : ph.pending ≠ [] := by
  cases ph <;> nofun

structure Hears (ph : Phase) (trace : List Entry) : Prop where
  lines : ∃ lines, (typed trace).splitOnP isTerminator = lines ++ ph.pending ∧ Answered lines trace
  granted : ∀ w, ph = .granted w → taken w.line
  prompt : atPrompt trace → ∃ w, ph = .reading w

section Hears
variable {newlyCreated : Bool} {past : List Entry}

theorem heldRun_pos {trace : List Entry} (hf : Favourable newlyCreated trace)
    (hnone : disclosures trace = 0) (hpolled : (trace.findSome? sampleOf).isSome) :
    1 ≤ heldRun trace := by
  induction trace with
  | nil => cases hpolled
  | cons l past ih =>
    have hpast : disclosures past = 0 := by
      rw [disclosures, List.countP_cons] at hnone
      exact (Nat.add_eq_zero_iff.mp hnone).1
    have hl := hf.1 hpast
    rw [isFavourable, Bool.and_eq_true, bne_iff_ne] at hl
    rw [List.findSome?_cons] at hpolled
    rw [heldRun]
    cases hsample : sampleOf l with
    | none =>
      rw [hsample] at hpolled
      exact ih hf.2 hpast hpolled
    | some held =>
      cases held with
      | false => exact absurd hsample hl.1
      | true => exact Nat.succ_pos _

/-- An operation that types nothing, discloses nothing and judges nothing. -/
theorem Hears.quiet {ph ph' : Phase} {l : Entry} (h : Hears ph past)
    (hbytes : bytesOf l = []) (hl : isDisclosure l = false) (hr : Recognises l past)
    (hpending : ph'.pending = ph.pending) (hgranted : ∀ w, ph' = .granted w → taken w.line)
    (hprompt : atPrompt (l :: past) → ∃ w, ph' = .reading w) : Hears ph' (l :: past) := by
  obtain ⟨lines, hsplit, hanswered⟩ := h.lines
  refine ⟨⟨lines, ?_, hanswered.quiet hl hr⟩, hgranted, hprompt⟩
  rw [typed, gather_cons, hbytes, List.append_nil, hpending]
  exact hsplit

theorem Hears.justified {ph : Phase} (h : Hears ph past) (hu : Unambiguous (typed past)) :
    Justified Recognises past := by
  obtain ⟨lines, hsplit, hanswered⟩ := h.lines
  apply hanswered.exact.mpr
  intro line hline
  apply hu
  rw [completedLines, hsplit, List.dropLast_append_of_ne_nil (pending_ne_nil ph),
    List.find?_append, hline]
  rfl

theorem Hears.unambiguous {ph : Phase} (h : Hears ph past) (hprompt : atPrompt past)
    (hj : Justified Recognises past) : Unambiguous (typed past) := by
  obtain ⟨w, rfl⟩ := h.prompt hprompt
  obtain ⟨lines, hsplit, hanswered⟩ := h.lines
  rw [Unambiguous, completedLines_eq hsplit]
  exact hanswered.exact.mp hj

/-- Where everything is dealt with and nothing disclosed there has been no `PAIR`. -/
theorem Hears.recognises_size {ph : Phase} {w : Watch} (h : Hears ph past)
    (hpending : ph.pending = [w.line]) (i : Unit) {size : ℕ} (hsize : size < commandCapacity)
    (r : Unit) : Recognises ⟨i, .commandSize size, r⟩ past := by
  refine ⟨hsize, ?_⟩
  intro hnone hmem
  obtain ⟨lines, hsplit, hanswered⟩ := h.lines
  rw [hpending] at hsplit
  rw [completedLines_eq hsplit] at hmem
  exact List.find?_eq_none.mp (hanswered.disclosed.mp hnone) pairText hmem taken_pairText

theorem hears_step {ph ph' : Phase} {i : Unit} {o : ConsoleOp} {r : o.Res}
    (h : Hears ph past) (hreflects : Reflects newlyCreated ph.watch past)
    (hpos : Position ph past) (hf : Favourable newlyCreated (⟨i, o, r⟩ :: past))
    (hnext : next newlyCreated ph o r = some ph') : Hears ph' (⟨i, o, r⟩ :: past) := by
  cases ph with
  | starting w =>
    cases o with
    | timerGetTime =>
      obtain ⟨-, ⟨⟩⟩ := Option.ite_none_right_eq_some.mp hnext
      exact h.quiet rfl rfl trivial rfl (by simp) (absurd · Bool.false_ne_true)
    | gpioGetLevel | callocContext | gpioConfig | taskCreate | fcntlNonblock =>
      cases hnext
      exact h.quiet rfl rfl trivial rfl (by simp) (absurd · Bool.false_ne_true)
    | read | print | delay | commandSize => cases hnext
  | polling w =>
    cases o with
    | gpioGetLevel | delay =>
      cases hnext
      exact h.quiet rfl rfl trivial rfl (by simp) (absurd · Bool.false_ne_true)
    | _ => cases hnext
  | sampled w =>
    cases o with
    | timerGetTime =>
      obtain ⟨-, ⟨⟩⟩ := Option.ite_none_right_eq_some.mp hnext
      exact h.quiet rfl rfl trivial rfl (by simp) (absurd · Bool.false_ne_true)
    | commandSize size =>
      obtain ⟨hsize, ⟨⟩⟩ := Option.ite_none_right_eq_some.mp hnext
      exact h.quiet rfl rfl (h.recognises_size rfl i hsize r) rfl (by simp) fun _ => ⟨w, rfl⟩
    | _ => cases hnext
  | reading w =>
    cases o with
    | commandSize size =>
      obtain ⟨hsize, ⟨⟩⟩ := Option.ite_none_right_eq_some.mp hnext
      exact h.quiet rfl rfl (h.recognises_size rfl i hsize r) rfl (by simp) fun _ => ⟨w, rfl⟩
    | read =>
      cases hnext
      cases r with
      | none =>
        exact h.quiet rfl rfl trivial rfl (by rw [Watch.read]; simp) (absurd · Bool.false_ne_true)
      | some byte =>
        obtain ⟨lines, hsplit, hanswered⟩ := h.lines
        have hnew : Answered lines (⟨i, .read, some byte⟩ :: past) := hanswered.quiet rfl trivial
        rw [Watch.read]
        split
        · next hend =>
          refine ⟨⟨lines, ?_, hnew⟩, by simp, (absurd · Bool.false_ne_true)⟩
          rw [typed, gather_cons]
          refine (splitOnP_append_terminator hend).trans ?_
          rw [← typed, hsplit, List.append_assoc]
          rfl
        · next hstored =>
          exact ⟨⟨lines, splitOnP_append_byte hstored hsplit, hnew⟩, by simp,
            (absurd · Bool.false_ne_true)⟩
    | _ => cases hnext
  | ended w =>
    cases o with
    | timerGetTime =>
      cases hnext
      rw [Watch.judge]
      split
      · next hgrant =>
        rw [Bool.and_eq_true, Bool.and_eq_true] at hgrant
        refine h.quiet rfl rfl trivial rfl ?_ (absurd · Bool.false_ne_true)
        rintro _ ⟨rfl⟩
        exact hgrant.1.1
      · next hrefused =>
        obtain ⟨lines, hsplit, hanswered⟩ := h.lines
        have hlate : taken w.line → disclosures past ≠ 0 := by
          -- A line that would be taken is refused only without window or button.
          intro htaken hnone
          have hrun : 1 ≤ w.run := hreflects.run ▸ heldRun_pos hf.2 hnone hpos.1
          have hopen : w.isOpen r := by
            have hl := hf.1 hnone
            rw [isFavourable, (idle_judgement hpos i r).opening, ← hreflects.window] at hl
            exact hl
          exact hrefused (by rw [htaken, hopen, decide_eq_true hrun]; rfl)
        refine ⟨⟨lines ++ [w.line], ?_, (hanswered.pass hlate).quiet rfl trivial⟩, by simp,
          (absurd · Bool.false_ne_true)⟩
        rw [typed, gather_cons, ← typed]
        refine (congrArg _ (List.append_nil _)).trans (hsplit.trans ?_)
        rw [List.append_assoc]
        rfl
    | _ => cases hnext
  | granted w =>
    cases o with
    | print text =>
      cases hnext
      obtain ⟨lines, hsplit, hanswered⟩ := h.lines
      have hlines : (typed past).splitOnP isTerminator = (lines ++ [w.line]) ++ [[]] := by
        rw [hsplit, List.append_assoc]
        rfl
      refine ⟨⟨lines ++ [w.line], ?_, hanswered.grant (h.granted w rfl) hlines i text r⟩,
        by simp, (absurd · Bool.false_ne_true)⟩
      rw [typed, gather_cons, ← typed]
      exact (congrArg _ (List.append_nil _)).trans hlines
    | _ => cases hnext

end Hears

variable {credentials : BridgeCredentials} {ssid : List UInt8}

theorem hears_of_allowed {s : (choreography credentials ssid).Scene}
    (hs : (choreography credentials ssid).Allowed s)
    (hf : Favourable credentials.newlyCreated s.world.trace) :
    Hears (s.phase ()) s.world.trace := by
  suffices h : Favourable credentials.newlyCreated s.world.trace →
      Hears (s.phase ()) s.world.trace from h hf
  clear hf
  apply hs.induction
  · intro _
    refine ⟨⟨[], rfl, ?_, ?_⟩, nofun, nofun⟩
    · exact iff_of_true rfl rfl
    · exact iff_of_true trivial nofun
  · rintro s _ hs h ⟨live, role, effect⟩ hf
    rename_i i o r ph st
    have hconsents := consents_of_allowed hs
    have hphase := Choreography.Scene.moved_phase_self
      (w := ⟨st, ⟨i, o, r⟩ :: s.world.trace⟩) ph live
    rw [hphase]
    exact hears_step (h hf.2) hconsents.reflects hconsents.position hf role

end Pairing

open Pairing in
/-- With button and window favourable, the console takes a line as `PAIR` exactly when it is
`PAIR` as long as the first line that passes for it is. -/
theorem recognises_iff_unambiguous (credentials : BridgeCredentials) (ssid : List UInt8)
    {c : System.Config (pairing credentials ssid)} (hc : System.Reachable c)
    (hf : Favourable credentials.newlyCreated c.world.trace) :
    (Unambiguous (typed c.world.trace) → Justified Recognises c.world.trace) ∧
      (atPrompt c.world.trace → Justified Recognises c.world.trace →
        Unambiguous (typed c.world.trace)) := by
  obtain ⟨s, hs, hworld⟩ := (choreography credentials ssid).exists_allowed hc
  rw [← hworld] at hf ⊢
  have h := hears_of_allowed hs hf
  exact ⟨h.justified, h.unambiguous⟩

open Pairing in
theorem recognises_iff_unambiguous_sample :
    ∃ c : System.Config (pairing .sample []), typed c.world.trace = pairText ++ [0x0A] ∧
      Favourable true c.world.trace ∧
      (Unambiguous (typed c.world.trace) → Justified Recognises c.world.trace) ∧
      (atPrompt c.world.trace → Justified Recognises c.world.trace →
        Unambiguous (typed c.world.trace)) := by
  obtain ⟨c, hc, htest⟩ := System.exists_reachable (keyIn .sample [] (pairText ++ [0x0A]))
    (fun c => decide (typed c.world.trace = pairText ++ [0x0A] ∧ Favourable true c.world.trace))
    (by decide +kernel)
  obtain ⟨htyped, hf⟩ := of_decide_eq_true htest
  exact ⟨c, htyped, hf, recognises_iff_unambiguous .sample [] hc hf⟩

open Pairing in
/-- Sixteen other bytes in front of it, and the line still passes for `PAIR`. -/
theorem long_line_taken :
    ∃ c : System.Config (pairing .sample []), System.Reachable c ∧ Favourable true c.world.trace ∧
      typed c.world.trace = List.replicate 16 0x41 ++ pairText ++ [0x0A] ∧
      disclosures c.world.trace = 1 ∧ ¬Justified Recognises c.world.trace := by
  obtain ⟨c, hc, htest⟩ := System.exists_reachable
    (keyIn .sample [] (List.replicate 16 0x41 ++ pairText ++ [0x0A]))
    (fun c => decide (Favourable true c.world.trace ∧
      typed c.world.trace = List.replicate 16 0x41 ++ pairText ++ [0x0A] ∧
      disclosures c.world.trace = 1 ∧ ¬Justified Recognises c.world.trace)) (by decide +kernel)
  exact ⟨c, hc, of_decide_eq_true htest⟩

end FlipforgeBridge
