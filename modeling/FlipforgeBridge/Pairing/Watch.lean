import FlipforgeBridge.Pairing.Service

/-!
What the pairing console is for, without its buffer and counters: a watch over the polls in which
the button was held, the window that was opened last, and the line being typed. The service
follows it.
-/
namespace FlipforgeBridge
open Process

namespace Pairing

/-- The length of a pairing window, in microseconds. -/
def windowUs : ℕ := bridgePairingWindowMs * 1000

example : windowUs = 120 * 1000 * 1000 := by decide

structure Watch where
  /-- How many polls in a row, up to the latest, found the button held. -/
  run : ℕ := 0
  /-- When the latest window was opened, if nothing has been disclosed since. -/
  window : Option Time := none
  /-- The bytes since the last terminator. -/
  line : List UInt8 := []
  deriving DecidableEq

def Watch.isOpen (w : Watch) (now : Time) : Bool :=
  w.window.any fun opened => decide (now.val < opened.val + windowUs)

/-- A line outgrows the buffer with every sixteenth byte, which empties it. -/
def kept (line : List UInt8) : List UInt8 := line.drop (16 * (line.length / 16))

/-- The lines on which the secret is disclosed. -/
def taken (line : List UInt8) : Bool := isPairCommand (kept line)

inductive Phase
  | starting (w : Watch)
  | polling (w : Watch)
  /-- The button has just been sampled. -/
  | sampled (w : Watch)
  | reading (w : Watch)
  /-- A line has ended. -/
  | ended (w : Watch)
  /-- The line that has ended is answered with the secret. -/
  | granted (w : Watch)
  deriving DecidableEq

def Watch.sample (w : Watch) (level : Bool) : Watch :=
  { w with run := if level then 0 else w.run + 1 }

def Watch.read (w : Watch) : Option UInt8 → Phase
  | none => .polling w
  | some byte =>
    if isTerminator byte then .ended w else .reading { w with line := w.line ++ [byte] }

/-- At the end of a line the clock is read. -/
def Watch.judge (w : Watch) (now : Time) : Phase :=
  if taken w.line && w.isOpen now && decide (1 ≤ w.run) then .granted w
  else .reading { w with line := [] }

def next (newlyCreated : Bool) : Phase → (o : ConsoleOp) → o.Res → Option Phase
  | .starting w, .timerGetTime, now =>
    if newlyCreated then some (.starting { w with window := some now }) else none
  | .starting w, .callocContext, _ | .starting w, .gpioConfig, _ | .starting w, .taskCreate, _
  | .starting w, .fcntlNonblock, _ => some (.starting w)
  | .starting w, .gpioGetLevel, level | .polling w, .gpioGetLevel, level =>
    some (.sampled (w.sample level))
  | .polling w, .delay _, _ => some (.polling w)
  | .sampled w, .timerGetTime, now =>
    if 40 ≤ w.run then some (.reading { w with window := some now }) else none
  | .sampled w, .commandSize size, _ | .reading w, .commandSize size, _ =>
    if size < commandCapacity then some (.reading w) else none
  | .reading w, .read, result => some (w.read result)
  | .ended w, .timerGetTime, now => some (w.judge now)
  | .granted w, .print _, _ => some (.reading { w with window := none, line := [] })
  | _, _, _ => none

/-! ### The service follows the watch -/

@[simp] theorem kept_nil : kept [] = [] := rfl

theorem length_kept (line : List UInt8) : (kept line).length = line.length % 16 := by
  rw [kept, List.length_drop]
  omega

/-- Storing a byte is what the line's next byte does to the part that is kept. -/
theorem storeCommand_kept (line : List UInt8) (byte : UInt8) :
    storeCommand (kept line) byte = kept (line ++ [byte]) := by
  have hlength : (line ++ [byte]).length = line.length + 1 := by simp
  rw [storeCommand, length_kept, kept, kept, hlength, commandCapacity]
  by_cases hroom : line.length % 16 + 1 < 16
  · have hsame : (line.length + 1) / 16 = line.length / 16 := by omega
    rw [if_pos hroom, hsame, List.drop_append_of_le_length (by omega)]
  · have hfull : line.length + 1 ≤ 16 * ((line.length + 1) / 16) := by omega
    rw [if_neg hroom, List.drop_eq_nil_of_le (by rw [hlength]; exact hfull)]

/-- The local variables in terms of the watch. -/
structure Tracks (w : Watch) (command : List UInt8) (deadlineUs : UInt64) : Prop where
  command : command = kept w.line
  deadline : deadlineUs = w.window.elim 0 windowEnd

theorem toNat_windowEnd (now : Time) : (windowEnd now).toNat = now.val + windowUs := by
  have hnow := now.isLt
  have htime : now.val.toUInt64.toNat = now.val := Nat.mod_eq_of_lt (by omega)
  have hwindow : (bridgePairingWindowMs.toUInt64 * 1000).toNat = windowUs := by decide +kernel
  have hsmall : windowUs < 2 ^ 32 := by decide +kernel
  rw [windowEnd, UInt64.toNat_add, htime, hwindow]
  apply Nat.mod_eq_of_lt
  omega

theorem lt_windowEnd_iff (now opened : Time) :
    now.val.toUInt64 < windowEnd opened ↔ now.val < opened.val + windowUs := by
  have hnow := now.isLt
  have htime : now.val.toUInt64.toNat = now.val := Nat.mod_eq_of_lt (by omega)
  rw [UInt64.lt_iff_toNat_lt, htime, toNat_windowEnd]

theorem windowOpen_eq {w : Watch} {command : List UInt8} {deadlineUs : UInt64}
    (h : Tracks w command deadlineUs) (now : Time) :
    decide (now.val.toUInt64 < deadlineUs) = w.isOpen now := by
  rw [h.deadline, Watch.isOpen, Bool.eq_iff_iff, decide_eq_true_iff]
  cases w.window with
  | none => exact iff_of_false UInt64.not_lt_zero Bool.false_ne_true
  | some opened =>
    rw [Option.any_some, decide_eq_true_iff]
    exact lt_windowEnd_iff now opened

section Follows
variable {newlyCreated : Bool} {context : PairingContext}

theorem follows_ask {α : Type} {o : ConsoleOp} {k : o.Res → Prog console α}
    {Q : α → Phase → Prop} {ph : Phase}
    (h : ∀ r, ∃ ph', next newlyCreated ph o r = some ph' ∧
      (k r).Follows (next newlyCreated) Q ph') :
    (ask o >>= k).Follows (next newlyCreated) Q ph := Prog.Follows.perform h

theorem readConsole_follows {w : Watch} {command : List UInt8} {deadlineUs : UInt64}
    {ph : Phase} (hph : ph = .sampled w ∨ ph = .reading w) (h : Tracks w command deadlineUs) :
    (readConsole context (decide (1 ≤ w.run)) command deadlineUs).Follows (next newlyCreated)
      (fun (command, deadlineUs) ph => ∃ w', ph = .polling w' ∧ w'.run = w.run ∧
        Tracks w' command deadlineUs) ph := by
  refine Prog.Follows.loop
    (fun (command, deadlineUs) ph => ∃ w', (ph = .sampled w' ∨ ph = .reading w') ∧
      w'.run = w.run ∧ Tracks w' command deadlineUs) ⟨w, hph, rfl, h⟩ ?_
  rintro ⟨command, deadlineUs⟩ ph ⟨w', hph, hrun, h⟩
  have hsize : command.length < commandCapacity := by
    rw [h.command, length_kept, commandCapacity]
    omega
  refine follows_ask fun _ => ⟨.reading w', ?_, ?_⟩
  · rcases hph with rfl | rfl <;> exact if_pos hsize
  refine follows_ask fun result => ⟨w'.read result, rfl, ?_⟩
  cases result with
  | none => exact (Prog.follows_ret _).mpr ⟨w', rfl, hrun, h⟩
  | some byte =>
    by_cases hend : isTerminator byte
    · have hended : w'.read (some byte) = .ended w' := if_pos hend
      rw [hended]
      dsimp only
      rw [if_pos hend]
      refine follows_ask fun now => ⟨w'.judge now, rfl, ?_⟩
      have htaken : isPairCommand (kept w'.line) = taken w'.line := rfl
      rw [windowOpen_eq h, ← hrun, h.command, htaken]
      by_cases hgrant : taken w'.line && w'.isOpen now && decide (1 ≤ w'.run)
      · have hgranted : w'.judge now = .granted w' := if_pos hgrant
        rw [hgranted, if_pos hgrant]
        refine follows_ask fun _ => ⟨.reading { w' with window := none, line := [] }, rfl, ?_⟩
        exact (Prog.follows_ret _).mpr ⟨_, .inr rfl, rfl, kept_nil.symm, rfl⟩
      · have hrefused : w'.judge now = .reading { w' with line := [] } := if_neg hgrant
        rw [hrefused, if_neg hgrant]
        exact (Prog.follows_ret _).mpr ⟨_, .inr rfl, rfl, kept_nil.symm, h.deadline⟩
    · have hstored : w'.read (some byte) = .reading { w' with line := w'.line ++ [byte] } :=
        if_neg hend
      rw [hstored]
      dsimp only
      rw [if_neg hend, h.command, storeCommand_kept]
      exact (Prog.follows_ret _).mpr ⟨_, .inr rfl, hrun, rfl, h.deadline⟩

/-- Between polls. -/
structure Between (locals : PairingLocals) (ph : Phase) : Prop where
  tracked : ∃ w, (ph = .starting w ∨ ph = .polling w) ∧
    Tracks w locals.command locals.deadlineUs ∧ locals.heldMs.toNat = 50 * w.run % 2 ^ 32

theorem pairingTask_follows {w : Watch} (hdeadline : context.deadlineUs = w.window.elim 0 windowEnd)
    (hrun : w.run = 0) (hline : w.line = []) :
    (pairingTask context).Follows (next newlyCreated) (fun _ _ => True) (.starting w) := by
  refine follows_ask fun _ => ⟨.starting w, rfl, ?_⟩
  refine Prog.Follows.loop Between ⟨w, .inl rfl, ⟨?_, hdeadline⟩, ?_⟩ ?_
  · rw [hline]
    rfl
  · rw [hrun]
    rfl
  rintro locals ph ⟨w, hph, htracks, hheld⟩
  refine follows_ask fun level => ⟨.sampled (w.sample level), ?_, ?_⟩
  · rcases hph with rfl | rfl <;> rfl
  have hbutton : (!level) = decide (1 ≤ (w.sample level).run) := by
    cases level
    · exact (decide_eq_true (Nat.succ_pos w.run)).symm
    · rfl
  have hcounter : (if (!level) = true then locals.heldMs + 50 else 0).toNat =
      50 * (w.sample level).run % 2 ^ 32 := by
    cases level
    · have hadd : (locals.heldMs + 50).toNat = (locals.heldMs.toNat + 50) % 2 ^ 32 :=
        UInt32.toNat_add _ _
      change (locals.heldMs + 50).toNat = 50 * (w.run + 1) % 2 ^ 32
      rw [hadd, hheld]
      omega
    · rfl
  have hsample : Tracks (w.sample level) locals.command locals.deadlineUs :=
    ⟨htracks.command, htracks.deadline⟩
  have hrest {w' : Watch} {deadlineUs : UInt64} {ph : Phase}
      (hph : ph = .sampled w' ∨ ph = .reading w') (hrun : w'.run = (w.sample level).run)
      (h : Tracks w' locals.command deadlineUs) :
      (do let (command, deadlineUs) ← readConsole context (!level) locals.command deadlineUs
          ask (.delay 50)
          return .inl { command, heldMs := if (!level) = true then locals.heldMs + 50 else 0,
                        deadlineUs } : Prog console (PairingLocals ⊕ Unit)).Follows
        (next newlyCreated) (Sum.elim Between fun _ _ => True) ph := by
    rw [hbutton, ← hrun]
    refine (readConsole_follows hph h).bind ?_
    rintro ⟨command, deadlineUs⟩ _ ⟨w'', rfl, hrun', htracks'⟩
    refine follows_ask fun _ => ⟨.polling w'', rfl, ?_⟩
    refine (Prog.follows_ret _).mpr ⟨w'', .inr rfl, htracks', ?_⟩
    rw [hrun', hrun, ← hcounter, hbutton]
  dsimp only
  by_cases hfull : (if (!level) = true then locals.heldMs + 50 else 0) = 2000
  · have hlong : 40 ≤ (w.sample level).run := by
      have h2000 : 50 * (w.sample level).run % 2 ^ 32 = 2000 := by
        rw [← hcounter, hfull]
        rfl
      omega
    rw [if_pos hfull, bind_assoc]
    apply follows_ask
    intro now
    refine ⟨.reading { w.sample level with window := some now }, if_pos hlong, ?_⟩
    exact hrest (.inr rfl) rfl ⟨hsample.command, rfl⟩
  · rw [if_neg hfull]
    exact hrest (.inl rfl) rfl hsample

/-- The context of the task has the window the start may have opened. -/
theorem pairingServiceStart_follows (credentials : BridgeCredentials) (ssid : List UInt8) :
    (pairingServiceStart credentials ssid).Follows (next credentials.newlyCreated)
      (fun (_, context) ph => ∀ c, context = some c →
        ∃ window, ph = .starting { window } ∧ c.deadlineUs = window.elim 0 windowEnd)
      (.starting {}) := by
  have hrest (window : Option Time) :
      (do let error : EspErr ← ask .gpioConfig
          if error ≠ .ok then return (error, none)
          let created : Bool ← ask .taskCreate
          if !created then return (.noMem, none)
          return (.ok, some
            { credentials, ssid := ssid.take 19, deadlineUs := window.elim 0 windowEnd }) :
        Prog console (EspErr × Option PairingContext)).Follows (next credentials.newlyCreated)
      (fun (_, context) ph => ∀ c, context = some c →
        ∃ window, ph = .starting { window } ∧ c.deadlineUs = window.elim 0 windowEnd)
      (.starting { window }) := by
    refine follows_ask fun error => ⟨.starting { window }, rfl, ?_⟩
    split
    · exact (Prog.follows_ret _).mpr nofun
    refine follows_ask fun created => ⟨.starting { window }, rfl, ?_⟩
    split
    · exact (Prog.follows_ret _).mpr nofun
    · refine (Prog.follows_ret _).mpr ?_
      rintro _ ⟨rfl⟩
      exact ⟨window, rfl, rfl⟩
  refine follows_ask fun allocated => ⟨.starting {}, rfl, ?_⟩
  split
  · exact (Prog.follows_ret _).mpr nofun
  by_cases hnew : credentials.newlyCreated
  · rw [if_pos hnew, bind_assoc]
    apply follows_ask
    intro now
    exact ⟨.starting { window := some now }, if_pos hnew, hrest (some now)⟩
  · rw [if_neg hnew]
    exact hrest none

theorem pairing_follows (credentials : BridgeCredentials) (ssid : List UInt8) :
    ((pairing credentials ssid).code ()).Follows (next credentials.newlyCreated)
      (fun _ _ => True) (.starting {}) := by
  refine (pairingServiceStart_follows credentials ssid).bind ?_
  rintro ⟨error, context⟩ ph h
  cases context with
  | none => exact (Prog.follows_ret _).mpr trivial
  | some context =>
    obtain ⟨window, rfl, hdeadline⟩ := h context rfl
    exact pairingTask_follows hdeadline rfl rfl

end Follows

def choreography (credentials : BridgeCredentials) (ssid : List UInt8) :
    Choreography (pairing credentials ssid) where
  Phase _ := Phase
  next _ := next credentials.newlyCreated
  entry _ := .starting {}
  follows _ := pairing_follows credentials ssid

end Pairing
end FlipforgeBridge
