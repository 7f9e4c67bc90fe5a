import FlipforgeBridge.Tools.BridgeClient
import FlipforgeBridge.Process.Choreography

/-!
The role of the reference client: what it sends, how it reads a reply piece by piece, and how it
ends. It always ends, whatever it is sent.
-/
namespace FlipforgeBridge
open Process

namespace BridgeClient

/-- The reply that is read. -/
inductive Stage
  | challenge (nonce : Vector UInt8 32)
  | verdict

def Stage.command : Stage → ℕ
  | .challenge _ => hello
  | .verdict => authenticateCommand

def Stage.requestId : Stage → ℕ
  | .challenge _ => 1
  | .verdict => 2

/-- The bytes still wanted of a reply, or what becomes of it. -/
def Stage.reply (stage : Stage) (got : List UInt8) : ℕ ⊕ Except Exception (List UInt8) :=
  if got.length < headerSize then .inl (headerSize - got.length)
  else
    let header := Header.unpack (got.take headerSize)
    if !header.valid stage.command then
      .inr (.error (.runtimeError "Invalid Bridge response header"))
    else if got.length < headerSize + header.size then
      .inl (headerSize + header.size - got.length)
    else .inr (header.accept stage.requestId (got.drop headerSize))

theorem Stage.reply_append (stage : Stage) {header : List UInt8} (payload : List UInt8)
    (hheader : header.length = headerSize) :
    stage.reply (header ++ payload) =
      if !(Header.unpack header).valid stage.command then
        .inr (.error (.runtimeError "Invalid Bridge response header"))
      else if payload.length < (Header.unpack header).size then
        .inl ((Header.unpack header).size - payload.length)
      else .inr ((Header.unpack header).accept stage.requestId payload) := by
  have htake : (header ++ payload).take headerSize = header := List.take_left' hheader
  have hdrop : (header ++ payload).drop headerSize = payload := List.drop_left' hheader
  have hlength : (header ++ payload).length = headerSize + payload.length := by
    rw [List.length_append, hheader]
  rw [Stage.reply, htake, hdrop, hlength, if_neg (Nat.not_lt.mpr (Nat.le_add_right _ _))]
  simp only [Nat.add_lt_add_iff_left, Nat.add_sub_add_left]

inductive Phase
  | starting
  | greeting (nonce : Vector UInt8 32)
  | reading (stage : Stage) (got : List UInt8)
  | proving (nonce : Vector UInt8 32) (challenge : List UInt8)
  | answering (proof : Vector UInt8 bridgeHmacBytes)
  | leaving (raised : Option Exception)
  | gone
  /-- A call answered more than it can. -/
  | stray

def Stage.after : Stage → Except Exception (List UInt8) → Phase
  | .challenge nonce, .ok payload =>
    if payload.length ≠ 40 then .leaving (some (.runtimeError "Invalid Bridge challenge length"))
    else .proving nonce payload
  | .verdict, .ok _ => .leaving none
  | _, .error exception => .leaving (some exception)

/-- After some bytes of a reply. -/
def Stage.settle (stage : Stage) (got : List UInt8) : Phase :=
  match stage.reply got with
  | .inl _ => .reading stage got
  | .inr result => stage.after result

def material (nonce : Vector UInt8 32) (challenge : List UInt8) : List UInt8 :=
  authContext ++ [UInt8.ofNat version] ++ nonce.toList ++ challenge

def next (pairingSecret : Vector UInt8 bridgePairingSecretBytes) :
    Phase → (c : Call) → c.Res → Option Phase
  | .stray, _, _ => some .stray
  | .starting, .tokenBytes 32, nonce => some (.greeting nonce)
  | .greeting nonce, .sendall data, _ =>
    if data = wire (requestOf .hello 1 nonce.toList) then some ((Stage.challenge nonce).settle [])
    else none
  | .reading stage got, .recv n, chunk =>
    match stage.reply got with
    | .inl wanted =>
      if n ≠ wanted then none
      else if n < chunk.length then some .stray
      else if chunk = [] then
        some (.leaving (some (.connectionError "Bridge closed the connection")))
      else some (stage.settle (got ++ chunk))
    | .inr _ => none
  | .proving nonce challenge, .hmacDigest key message, proof =>
    if key = pairingSecret ∧ message = material nonce challenge then some (.answering proof)
    else none
  | .answering proof, .sendall data, _ =>
    if data = wire (requestOf .authenticate 2 proof.toList) then some (Stage.verdict.settle [])
    else none
  | .leaving raised, .leave raised', _ => if raised' = raised then some .gone else none
  | _, _, _ => none

/-- What the role allows, case by case. -/
inductive Moves (pairingSecret : Vector UInt8 bridgePairingSecretBytes) :
    Phase → (c : Call) → c.Res → Phase → Prop
  | stray {c : Call} {r : c.Res} : Moves pairingSecret .stray c r .stray
  | draws {nonce : Vector UInt8 32} :
    Moves pairingSecret .starting (.tokenBytes 32) nonce (.greeting nonce)
  | greets {nonce : Vector UInt8 32} {r : Unit} :
    Moves pairingSecret (.greeting nonce)
      (.sendall (wire (requestOf .hello 1 nonce.toList))) r ((Stage.challenge nonce).settle [])
  | strays {stage : Stage} {got : List UInt8} {n : ℕ} {chunk : List UInt8}
      (long : n < chunk.length) : Moves pairingSecret (.reading stage got) (.recv n) chunk .stray
  | breaks {stage : Stage} {got : List UInt8} {n : ℕ} (wanted : stage.reply got = .inl n) :
    Moves pairingSecret (.reading stage got) (.recv n) []
      (.leaving (some (.connectionError "Bridge closed the connection")))
  | reads {stage : Stage} {got : List UInt8} {n : ℕ} {chunk : List UInt8}
      (wanted : stage.reply got = .inl n) (some : chunk ≠ []) :
    Moves pairingSecret (.reading stage got) (.recv n) chunk (stage.settle (got ++ chunk))
  | proves {nonce : Vector UInt8 32} {challenge : List UInt8}
      {proof : Vector UInt8 bridgeHmacBytes} :
    Moves pairingSecret (.proving nonce challenge)
      (.hmacDigest pairingSecret (material nonce challenge)) proof (.answering proof)
  | answers {proof : Vector UInt8 bridgeHmacBytes} {r : Unit} :
    Moves pairingSecret (.answering proof)
      (.sendall (wire (requestOf .authenticate 2 proof.toList))) r (Stage.verdict.settle [])
  | leaves {raised : Option Exception} {r : Unit} :
    Moves pairingSecret (.leaving raised) (.leave raised) r .gone

theorem moves_of_next {pairingSecret : Vector UInt8 bridgePairingSecretBytes} {ph ph' : Phase}
    {c : Call} {r : c.Res} (h : next pairingSecret ph c r = some ph') :
    Moves pairingSecret ph c r ph' := by
  unfold next at h
  split at h
  · cases h
    exact .stray
  · cases h
    exact .draws
  · obtain ⟨rfl, hph⟩ := Option.ite_none_right_eq_some.mp h
    cases hph
    exact .greets
  · next stage got n chunk =>
    split at h
    · next wanted hwanted =>
      obtain ⟨hn, hph⟩ := Option.ite_none_left_eq_some.mp h
      obtain rfl := not_not.mp hn
      split at hph
      · next hlong =>
        cases hph
        exact .strays hlong
      · split at hph
        · next hempty =>
          subst hempty
          cases hph
          exact .breaks hwanted
        · next hsome =>
          cases hph
          exact .reads hwanted hsome
    · cases h
  · obtain ⟨⟨rfl, rfl⟩, hph⟩ := Option.ite_none_right_eq_some.mp h
    cases hph
    exact .proves
  · obtain ⟨rfl, hph⟩ := Option.ite_none_right_eq_some.mp h
    cases hph
    exact .answers
  · obtain ⟨rfl, hph⟩ := Option.ite_none_right_eq_some.mp h
    cases hph
    exact .leaves
  · cases h

theorem Stage.wanted_pos {stage : Stage} {got : List UInt8} {n : ℕ}
    (h : stage.reply got = .inl n) : 0 < n := by
  unfold Stage.reply at h
  split at h
  · next hshort =>
    cases h
    exact Nat.sub_pos_of_lt hshort
  · dsimp only at h
    split at h
    · cases h
    · split at h
      · next hless =>
        cases h
        exact Nat.sub_pos_of_lt hless
      · cases h

section Follows
variable {pairingSecret : Vector UInt8 bridgePairingSecretBytes} {α : Type}

theorem stray_follows (p : Prog python α) :
    p.Follows (next pairingSecret) (fun _ ph => ph = .stray) .stray := by
  refine .of_closed (S := (· = Phase.stray)) ?_ rfl p
  rintro _ rfl c r
  exact ⟨.stray, rfl, rfl⟩

/-- How `receive_exact` ends while a reply is read. -/
def Received (stage : Stage) (before : List UInt8) (size : ℕ)
    (result : Except Exception (List UInt8)) (ph : Phase) : Prop :=
  ph = .stray ∨
    match result with
    | .ok output => output.length = size ∧ ph = stage.settle (before ++ output)
    | .error exception => ph = .leaving (some exception)

theorem receiveExact_follows {stage : Stage} {before : List UInt8} {size : ℕ}
    (hwanted : ∀ output : List UInt8, output.length < size →
      stage.reply (before ++ output) = .inl (size - output.length)) :
    (receiveExact size).Follows (next pairingSecret) (Received stage before size)
      (stage.settle before) := by
  refine .loop (fun output ph => ph = .stray ∨
    output.length ≤ size ∧ ph = stage.settle (before ++ output)) ?_ ?_
  · exact .inr ⟨Nat.zero_le _, by rw [List.append_nil]⟩
  rintro output ph (rfl | ⟨hle, rfl⟩)
  · refine (stray_follows _).mono ?_
    rintro (output | result) ph rfl
    · exact .inl rfl
    · exact .inl rfl
  split
  · next hlt =>
    rw [Nat.not_lt] at hlt
    exact (Prog.follows_ret _).mpr (.inr ⟨Nat.le_antisymm hle hlt, rfl⟩)
  · next hlt =>
    rw [Nat.not_lt, Nat.not_le] at hlt
    have hreply := hwanted output hlt
    have hphase : stage.settle (before ++ output) = .reading stage (before ++ output) := by
      rw [Stage.settle, hreply]
    rw [hphase]
    refine Prog.Follows.perform fun (chunk : List UInt8) => ?_
    rw [next, hreply]
    dsimp only
    rw [if_neg (not_not.mpr rfl)]
    by_cases hlong : size - output.length < chunk.length
    · rw [if_pos hlong]
      refine ⟨.stray, rfl, (stray_follows _).mono ?_⟩
      rintro (output | result) ph rfl
      · exact .inl rfl
      · exact .inl rfl
    · rw [if_neg hlong]
      by_cases hempty : chunk = []
      · rw [if_pos hempty]
        refine ⟨_, rfl, ?_⟩
        rw [if_pos hempty]
        exact (Prog.follows_ret _).mpr (.inr rfl)
      · rw [if_neg hempty]
        refine ⟨_, rfl, ?_⟩
        rw [if_neg hempty]
        refine (Prog.follows_ret _).mpr (.inr ⟨?_, ?_⟩)
        · rw [List.length_append]
          omega
        · rw [List.append_assoc]

/-- How `receive_message` ends. -/
def Answered (stage : Stage) (result : Except Exception (List UInt8)) (ph : Phase) : Prop :=
  ph = .stray ∨ ph = stage.after result

theorem after_error (stage : Stage) (exception : Exception) :
    stage.after (.error exception) = .leaving (some exception) := by
  cases stage <;> rfl

theorem receiveMessage_follows (stage : Stage) :
    (receiveMessage stage.command stage.requestId).Follows (next pairingSecret) (Answered stage)
      (stage.settle []) := by
  refine Prog.Follows.bind (receiveExact_follows fun output hlt => if_pos hlt) ?_
  rintro (exception | bytes) ph (rfl | hph)
  · exact (stray_follows _).mono fun _ _ => .inl
  · obtain rfl := hph
    exact (Prog.follows_ret _).mpr (.inr (after_error stage exception).symm)
  · exact (stray_follows _).mono fun _ _ => .inl
  obtain ⟨hlength, rfl⟩ := hph
  rw [List.nil_append]
  dsimp only
  by_cases hvalid : (Header.unpack bytes).valid stage.command = true
  · have hinvalid : ¬ (!(Header.unpack bytes).valid stage.command) = true := by
      rw [hvalid]
      exact Bool.false_ne_true
    rw [if_neg hinvalid]
    refine Prog.Follows.bind (receiveExact_follows fun output hlt => ?_) ?_
    · rw [stage.reply_append output hlength, if_neg hinvalid, if_pos hlt]
    rintro (exception | payload) ph (rfl | hph)
    · exact (stray_follows _).mono fun _ _ => .inl
    · obtain rfl := hph
      exact (Prog.follows_ret _).mpr (.inr (after_error stage exception).symm)
    · exact (stray_follows _).mono fun _ _ => .inl
    · obtain ⟨hsize, rfl⟩ := hph
      refine (Prog.follows_ret _).mpr (.inr ?_)
      rw [Stage.settle, stage.reply_append payload hlength, if_neg hinvalid,
        if_neg (Nat.not_lt.mpr (Nat.le_of_eq hsize.symm))]
  · have hinvalid : (!(Header.unpack bytes).valid stage.command) = true := by
      rw [Bool.eq_false_iff.mpr hvalid]
      rfl
    rw [if_pos hinvalid]
    refine (Prog.follows_ret _).mpr (.inr ?_)
    have hreply := stage.reply_append [] hlength
    rw [if_pos hinvalid, List.append_nil] at hreply
    rw [Stage.settle, hreply]

/-- A request is sent. -/
theorem sendMessage_follows (command : BridgeCommand) (requestId : UInt32) {payload : List UInt8}
    {ph ph' : Phase} (hlength : payload.length ≤ 512)
    (hnext : next pairingSecret ph (.sendall (wire (requestOf command requestId payload))) () =
      some ph') :
    (sendMessage command.toByte.toNat requestId.toNat payload).Follows (next pairingSecret)
      (fun result ph => result = .ok () ∧ ph = ph') ph := by
  rw [sendMessage, message_eq_wire command requestId hlength]
  exact Prog.Follows.perform fun _ => ⟨ph', hnext, (Prog.follows_ret _).mpr ⟨rfl, rfl⟩⟩

/-- How `authenticate` ends. -/
def Ended (result : Except Exception Unit) (ph : Phase) : Prop :=
  ph = .stray ∨
    match result with
    | .ok () => ph = .leaving none
    | .error exception => ph = .leaving (some exception)

theorem authenticate_follows :
    (authenticate pairingSecret).Follows (next pairingSecret) Ended .starting := by
  refine Prog.Follows.perform fun nonce => ⟨.greeting nonce, rfl, ?_⟩
  have hnonce : nonce.toList.length ≤ 512 := by
    rw [Vector.length_toList]
    decide
  have hgreeting : next pairingSecret (.greeting nonce)
      (.sendall (wire (requestOf .hello 1 nonce.toList))) () =
        some ((Stage.challenge nonce).settle []) := if_pos rfl
  refine Prog.Follows.bind (sendMessage_follows .hello 1 hnonce hgreeting) ?_
  rintro _ _ ⟨rfl, rfl⟩
  refine Prog.Follows.bind (receiveMessage_follows (.challenge nonce)) ?_
  rintro (exception | challenge) ph (rfl | rfl)
  · exact (stray_follows _).mono fun _ _ => .inl
  · exact (Prog.follows_ret _).mpr (.inr rfl)
  · exact (stray_follows _).mono fun _ _ => .inl
  dsimp only
  rw [Stage.after]
  split
  · exact (Prog.follows_ret _).mpr (.inr rfl)
  refine Prog.Follows.perform fun proof => ⟨.answering proof, if_pos ⟨rfl, rfl⟩, ?_⟩
  have hproof : proof.toList.length ≤ 512 := by
    rw [Vector.length_toList]
    decide
  have hanswering : next pairingSecret (.answering proof)
      (.sendall (wire (requestOf .authenticate 2 proof.toList))) () =
        some (Stage.verdict.settle []) := if_pos rfl
  refine Prog.Follows.bind (sendMessage_follows .authenticate 2 hproof hanswering) ?_
  rintro _ _ ⟨rfl, rfl⟩
  refine Prog.Follows.bind (receiveMessage_follows .verdict) ?_
  rintro (exception | payload) ph (rfl | rfl)
  · exact (stray_follows _).mono fun _ _ => .inl
  · exact (Prog.follows_ret _).mpr (.inr rfl)
  · exact (stray_follows _).mono fun _ _ => .inl
  · exact (Prog.follows_ret _).mpr (.inr rfl)

theorem clientMain_follows :
    (clientMain pairingSecret).Follows (next pairingSecret) (fun _ _ => True) .starting := by
  refine Prog.Follows.bind authenticate_follows ?_
  rintro (exception | _) ph (rfl | hph)
  · exact (stray_follows _).mono fun _ _ _ => trivial
  · obtain rfl := hph
    exact (Prog.follows_perform _).mpr fun _ => ⟨.gone, if_pos rfl, trivial⟩
  · exact (stray_follows _).mono fun _ _ _ => trivial
  · obtain rfl := hph
    exact (Prog.follows_perform _).mpr fun _ => ⟨.gone, rfl, trivial⟩

end Follows

/-! ### The client ends -/

/-- Whether `authenticate` has ended. The calls answer anything. -/
def ending : (c : Call) → c.Res → Bool → Option Bool
  | .leave _, _, _ => some true
  | _, _, ended => some ended

section Terminates
variable {pairingSecret : Vector UInt8 bridgePairingSecretBytes} {ended : Bool}

theorem receiveExact_terminates (size : ℕ) :
    (receiveExact size).Terminates ending (fun _ ended' => ended' = ended) ended := by
  refine .loop (fun _ ended' => ended' = ended) (fun output _ => size - output.length) ?_ rfl
  rintro output _ rfl
  split
  · exact .ret rfl
  · next hlt =>
    rw [Nat.not_lt, Nat.not_le] at hlt
    refine .call ⟨[], _, rfl⟩ ?_
    rintro (chunk : List UInt8) _ ⟨⟩
    rw [Prog.ret_bind]
    split
    · exact .ret rfl
    · next hempty =>
      have hpos := List.length_pos_iff.mpr hempty
      refine .ret ⟨rfl, ?_⟩
      rw [List.length_append]
      omega

theorem sendMessage_terminates (command requestId : ℕ) (payload : List UInt8) :
    (sendMessage command requestId payload).Terminates ending
      (fun _ ended' => ended' = ended) ended := by
  unfold sendMessage
  split
  · exact .ret rfl
  · refine .call ⟨(), _, rfl⟩ ?_
    rintro _ _ ⟨⟩
    exact .ret rfl

theorem receiveMessage_terminates (command requestId : ℕ) :
    (receiveMessage command requestId).Terminates ending
      (fun _ ended' => ended' = ended) ended := by
  refine (receiveExact_terminates headerSize).bind ?_
  rintro (exception | bytes) _ rfl
  · exact .ret rfl
  dsimp only
  split
  · exact .ret rfl
  refine (receiveExact_terminates _).bind ?_
  rintro (exception | payload) _ rfl
  · exact .ret rfl
  · exact .ret rfl

theorem authenticate_terminates :
    (authenticate pairingSecret).Terminates ending (fun _ ended' => ended' = ended) ended := by
  refine .call ⟨.replicate _ 0, _, rfl⟩ ?_
  rintro nonce _ ⟨⟩
  refine (sendMessage_terminates _ _ _).bind ?_
  rintro (exception | _) _ rfl
  · exact .ret rfl
  refine (receiveMessage_terminates _ _).bind ?_
  rintro (exception | challenge) _ rfl
  · exact .ret rfl
  dsimp only
  split
  · exact .ret rfl
  refine .call ⟨.replicate _ 0, _, rfl⟩ ?_
  rintro proof _ ⟨⟩
  refine (sendMessage_terminates _ _ _).bind ?_
  rintro (exception | _) _ rfl
  · exact .ret rfl
  refine (receiveMessage_terminates _ _).bind ?_
  rintro (exception | payload) _ rfl
  · exact .ret rfl
  · exact .ret rfl

/-- Whatever it is sent, the client comes to an end. -/
theorem clientMain_terminates :
    (clientMain pairingSecret).Terminates ending (fun _ ended => ended = true) false := by
  refine authenticate_terminates.bind ?_
  rintro (exception | _) _ rfl
  · refine .call ⟨(), _, rfl⟩ ?_
    rintro _ _ ⟨⟩
    exact .ret rfl
  · refine .call ⟨(), _, rfl⟩ ?_
    rintro _ _ ⟨⟩
    exact .ret rfl

end Terminates

end BridgeClient
end FlipforgeBridge
