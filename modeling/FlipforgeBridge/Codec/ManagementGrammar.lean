import FlipforgeBridge.Codec.Management
import FlipforgeBridge.Framing.Grammar

/-!
The management stream as a grammar: what its next frame is, read from the whole stream at once.
The decoder fed any chunks, and pushed the rest again after each message, gives the same.
-/
namespace FlipforgeBridge
open LittleEndian Framing

/-! ### The reference parser -/

/-- The length field of a header. -/
def lengthField (stream : List UInt8) : ℕ :=
  (stream.getD 12 0).toNat + 256 * (stream.getD 13 0).toNat

/-- The magic is wrong, a flag other than bit 0 is set or the status is unknown. -/
def BadHeader (stream : List UInt8) : Prop :=
  stream.take 4 ≠ bridgeManagementMagic ∨ 1 < (stream.getD 6 0).toNat ∨
    7 < (stream.getD 7 0).toNat

instance (stream : List UInt8) : Decidable (BadHeader stream) :=
  inferInstanceAs (Decidable (_ ∨ _ ∨ _))

/-- The message a stream begins with, if its header is in order. -/
def messageField (stream : List UInt8) : BridgeMessage where
  version := stream.getD 4 0
  command := stream.getD 5 0
  flags := stream.getD 6 0
  status := (BridgeStatus.ofByte (stream.getD 7 0)).getD .ok
  requestId := UInt32.ofNat ((stream.getD 8 0).toNat + 256 * ((stream.getD 9 0).toNat +
    256 * ((stream.getD 10 0).toNat + 256 * (stream.getD 11 0).toNat)))
  payload := (stream.drop 14).take (lengthField stream)

def managementHead (stream : List UInt8) : Option (BridgeMessageDecodeResult × ℕ) :=
  if stream.length < 14 then none
  else if BadHeader stream then some (.malformed, 14)
  else if 512 < lengthField stream then some (.tooLarge, 14)
  else if stream.length < 14 + lengthField stream then none
  else some (.ready (messageField stream), 14 + lengthField stream)

section Header
variable {stream : List UInt8} (h : 14 ≤ stream.length) (t : List UInt8)
include h

theorem getD_append_of_header {i : ℕ} (hi : i < 14) :
    (stream ++ t).getD i 0 = stream.getD i 0 := by
  rw [List.getD_eq_getElem?_getD, List.getD_eq_getElem?_getD,
    List.getElem?_append_left (by omega)]

theorem lengthField_append : lengthField (stream ++ t) = lengthField stream := by
  simp only [lengthField, getD_append_of_header h t (show 12 < 14 by decide),
    getD_append_of_header h t (show 13 < 14 by decide)]

theorem badHeader_append : BadHeader (stream ++ t) ↔ BadHeader stream := by
  rw [BadHeader, BadHeader, List.take_append_of_le_length (by omega),
    getD_append_of_header h t (show 6 < 14 by decide),
    getD_append_of_header h t (show 7 < 14 by decide)]

theorem messageField_append (hl : 14 + lengthField stream ≤ stream.length) :
    messageField (stream ++ t) = messageField stream := by
  have hpayload : ((stream ++ t).drop 14).take (lengthField stream) =
      (stream.drop 14).take (lengthField stream) := by
    rw [List.drop_append_of_le_length h,
      List.take_append_of_le_length (by rw [List.length_drop]; omega)]
  unfold messageField
  rw [lengthField_append h t, hpayload]
  simp only [getD_append_of_header h t, Nat.reduceLT]

end Header

/-- The three ways a frame can be decided. -/
theorem managementHead_eq_some {s : List UInt8} {r : BridgeMessageDecodeResult} {n : ℕ} :
    managementHead s = some (r, n) ↔ 14 ≤ s.length ∧
      (BadHeader s ∧ r = .malformed ∧ n = 14 ∨
        ¬ BadHeader s ∧ 512 < lengthField s ∧ r = .tooLarge ∧ n = 14 ∨
        ¬ BadHeader s ∧ lengthField s ≤ 512 ∧ 14 + lengthField s ≤ s.length ∧
          r = .ready (messageField s) ∧ n = 14 + lengthField s) := by
  unfold managementHead
  by_cases hl : s.length < 14
  · simp [hl, Nat.not_le.mpr hl]
  have hle : 14 ≤ s.length := Nat.not_lt.mp hl
  by_cases hbad : BadHeader s
  · simp only [hl, hle, hbad, if_true, if_false, Option.some_inj, Prod.mk.injEq, not_true_eq_false,
      false_and, or_false, true_and]
    exact and_congr eq_comm eq_comm
  by_cases hlarge : 512 < lengthField s
  · simp only [hl, hle, hbad, hlarge, Nat.not_le.mpr hlarge, if_true, if_false, Option.some_inj,
      Prod.mk.injEq, not_false_eq_true, false_and, and_false, or_false, false_or, true_and]
    exact and_congr eq_comm eq_comm
  have hsmall : lengthField s ≤ 512 := Nat.not_lt.mp hlarge
  by_cases hwait : s.length < 14 + lengthField s
  · simp [hl, hbad, hlarge, hwait, Nat.not_le.mpr hwait]
  · have henough : 14 + lengthField s ≤ s.length := Nat.not_lt.mp hwait
    simp only [hl, hle, hbad, hlarge, hsmall, hwait, henough, if_false, Option.some_inj,
      Prod.mk.injEq, not_false_eq_true, false_and, false_or, true_and]
    exact and_congr eq_comm eq_comm

theorem managementHead_append {s : List UInt8} {r : BridgeMessageDecodeResult} {n : ℕ}
    (t : List UInt8) (h : managementHead s = some (r, n)) :
    managementHead (s ++ t) = some (r, n) := by
  rw [managementHead_eq_some] at h ⊢
  obtain ⟨hle, hcases⟩ := h
  have hle' : 14 ≤ (s ++ t).length := by
    rw [List.length_append]
    omega
  rw [badHeader_append hle, lengthField_append hle]
  refine ⟨hle', ?_⟩
  rcases hcases with hbad | hlarge | ⟨hgood, hsmall, henough, hr, hn⟩
  · exact .inl hbad
  · exact .inr (.inl hlarge)
  · rw [messageField_append hle t henough]
    refine .inr (.inr ⟨hgood, hsmall, ?_, hr, hn⟩)
    rw [List.length_append]
    omega

theorem managementHead_le {s : List UInt8} {r : BridgeMessageDecodeResult} {n : ℕ}
    (h : managementHead s = some (r, n)) : 14 ≤ n ∧ n ≤ s.length := by
  rw [managementHead_eq_some] at h
  omega

theorem managementHead_take {s : List UInt8} {r : BridgeMessageDecodeResult} {n : ℕ}
    (h : managementHead s = some (r, n)) : managementHead (s.take n) = some (r, n) := by
  obtain ⟨h14, hn⟩ := managementHead_le h
  have hlength : (s.take n).length = n := by
    rw [List.length_take]
    omega
  have hle : 14 ≤ (s.take n).length := by omega
  have hs : s.take n ++ s.drop n = s := List.take_append_drop n s
  have hfield := lengthField_append hle (s.drop n)
  have hbad := badHeader_append hle (s.drop n)
  have hmessage := messageField_append hle (s.drop n)
  rw [hs] at hfield hbad hmessage
  rw [managementHead_eq_some] at h ⊢
  rw [hfield, hbad] at h
  refine ⟨hle, ?_⟩
  rcases h.2 with hbad | hlarge | ⟨hgood, hsmall, -, hr, hn'⟩
  · exact .inl hbad
  · exact .inr (.inl hlarge)
  · have henough : 14 + lengthField (s.take n) ≤ (s.take n).length := by omega
    exact .inr (.inr ⟨hgood, hsmall, henough, hmessage henough ▸ hr, hn'⟩)

/-- The grammar of the management stream. -/
def managementGrammar : Grammar UInt8 BridgeMessageDecodeResult where
  head := managementHead
  pos h := Nat.lt_of_lt_of_le (by decide) (managementHead_le h).1
  le h := (managementHead_le h).2
  append := managementHead_append
  take := managementHead_take

theorem managementHead_eq_none {s : List UInt8} : managementHead s = none ↔ s.length < 14 ∨
    ¬ BadHeader s ∧ lengthField s ≤ 512 ∧ s.length < 14 + lengthField s := by
  unfold managementHead
  split
  · next hl => simp [hl]
  · next hl =>
    repeat' split
    all_goals simp only [reduceCtorEq, false_iff, true_iff]
    all_goals grind

/-- Undecided bytes leave room for one more. -/
theorem length_lt_of_managementHead_none {s : List UInt8} (h : managementHead s = none) :
    s.length < bridgeManagementFrameSize := by
  rw [managementHead_eq_none] at h
  simp only [bridgeManagementFrameSize, bridgeManagementHeaderSize, bridgeManagementMaxPayload]
  omega

/-! ### The decoder -/

/-- The decoder after some bytes that decide nothing yet. -/
def holding (part : List UInt8) : BridgeMessageDecoder where
  bytes := part
  expected := if part.length < 14 then 0 else 14 + lengthField part

theorem otherFlags_iff (flags : UInt8) :
    flags &&& ~~~bridgeManagementResponseFlag ≠ 0 ↔ 1 < flags.toNat := by
  have hall : ∀ n : Fin 256, UInt8.ofNat n.val &&& ~~~bridgeManagementResponseFlag ≠ 0 ↔
      1 < n.val := by decide +kernel
  have h := hall ⟨flags.toNat, flags.toNat_lt⟩
  rwa [UInt8.ofNat_toNat] at h

namespace BridgeMessageDecoder
variable (decoder : BridgeMessageDecoder)

theorem toNat_payloadSize : decoder.payloadSize.toNat = lengthField decoder.bytes :=
  toNat_readU16Le _ _

theorem checkHeader_eq : decoder.checkHeader =
    if BadHeader decoder.bytes then .error .malformed
    else if 512 < lengthField decoder.bytes then .error .tooLarge
    else .ok (14 + lengthField decoder.bytes) := by
  have hbad : (decoder.bytes.take 4 ≠ bridgeManagementMagic ∨
      decoder.byte 6 &&& ~~~bridgeManagementResponseFlag ≠ 0 ∨
      BridgeStatus.invalidState.toByte < decoder.byte 7) ↔ BadHeader decoder.bytes := by
    rw [otherFlags_iff, UInt8.lt_iff_toNat_lt]
    rfl
  unfold checkHeader
  simp only [hbad, toNat_payloadSize]
  rfl

theorem message_eq : decoder.message = messageField decoder.bytes := by
  unfold message
  rw [toNat_payloadSize, readU32Le_eq_ofNat]
  rfl

end BridgeMessageDecoder

/-- One more byte decides what the grammar decides. -/
theorem store_holding {part : List UInt8} (byte : UInt8) (h : managementHead part = none) :
    (holding part).store byte = match managementHead (part ++ [byte]) with
      | some (result, _) => .error result
      | none => .ok (holding (part ++ [byte])) := by
  have hlength : (part ++ [byte]).length = part.length + 1 := by simp
  unfold BridgeMessageDecoder.store
  simp only [BridgeMessageDecoder.used, BridgeMessageDecoder.checkHeader_eq,
    BridgeMessageDecoder.message_eq, holding, hlength, bridgeManagementHeaderSize]
  rw [managementHead_eq_none] at h
  by_cases hshort : part.length + 1 < 14
  · have hnone : managementHead (part ++ [byte]) = none := by
      rw [managementHead_eq_none]
      omega
    rw [hnone, if_neg (by omega), if_pos (by omega), if_pos hshort]
    rfl
  have hwhole : ¬ (part ++ [byte]).length < 14 := by omega
  unfold managementHead
  rw [if_neg hwhole, if_neg hshort]
  by_cases hheader : part.length + 1 = 14
  · rw [if_pos hheader]
    by_cases hbad : BadHeader (part ++ [byte])
    · rw [if_pos hbad, if_pos hbad]
      rfl
    rw [if_neg hbad, if_neg hbad]
    by_cases hlarge : 512 < lengthField (part ++ [byte])
    · rw [if_pos hlarge, if_pos hlarge]
      rfl
    rw [if_neg hlarge, if_neg hlarge]
    simp only [bind, Except.bind, hlength]
    by_cases hempty : lengthField (part ++ [byte]) = 0
    · rw [if_pos (by omega), if_neg (by omega)]
    · rw [if_neg (by omega), if_pos (by omega)]
  · have hle : 14 ≤ part.length := by omega
    obtain ⟨hgood, hsmall, hmore⟩ := h.resolve_left (by omega)
    rw [lengthField_append hle, if_neg hheader, if_neg (Nat.not_lt.mpr hle),
      if_neg (mt (badHeader_append hle _).mp hgood), if_neg (Nat.not_lt.mpr hsmall)]
    simp only [bind, Except.bind, hlength]
    by_cases hlast : part.length + 1 = 14 + lengthField part
    · rw [if_pos (by omega), if_neg (by omega)]
    · rw [if_neg (by omega), if_pos (by omega)]

/-- A chunk is consumed up to the end of the frame it completes, or entirely. -/
theorem push_holding {part : List UInt8} (input : List UInt8) (h : managementHead part = none) :
    bridgeMessageDecoderPush (holding part) input =
      match managementHead (part ++ input) with
      | some (result, n) => (result, n - part.length, bridgeMessageDecoderReset)
      | none => (.needMore, input.length, holding (part ++ input)) := by
  induction input generalizing part with
  | nil =>
    rw [List.append_nil, h]
    rfl
  | cons byte rest ih =>
    have hroom : ¬ bridgeManagementFrameSize ≤ (holding part).used :=
      Nat.not_le.mpr (length_lt_of_managementHead_none h)
    rw [bridgeMessageDecoderPush, if_neg hroom, store_holding byte h]
    have happend : part ++ byte :: rest = part ++ [byte] ++ rest := by simp
    cases hb : managementHead (part ++ [byte]) with
    | some decided =>
      obtain ⟨result, n⟩ := decided
      obtain rfl : n = part.length + 1 := managementGrammar.eq_of_head_concat h hb
      rw [happend, managementHead_append rest hb]
      simp only [Nat.add_sub_cancel_left]
    | none =>
      simp only
      rw [ih hb, happend]
      cases hs : managementHead (part ++ [byte] ++ rest) with
      | none => rfl
      | some decided =>
        obtain ⟨result, n⟩ := decided
        have hlt := managementGrammar.lt_of_head_none hb hs
        simp only [List.length_append, List.length_singleton] at hlt ⊢
        rw [show n - (part.length + 1) + 1 = n - part.length by omega]

/-! ### Repeated pushing -/

/-- The results after which `client_task` closes the connection. -/
def BridgeMessageDecodeResult.isError : BridgeMessageDecodeResult → Bool
  | .malformed | .tooLarge => true
  | .needMore | .ready _ => false

theorem consumed_pos {decoder decoder' : BridgeMessageDecoder} {input : List UInt8}
    {result : BridgeMessageDecodeResult} {consumed : ℕ} (hinput : input ≠ [])
    (hresult : ¬ result.isError)
    (h : bridgeMessageDecoderPush decoder input = (result, consumed, decoder')) : 0 < consumed := by
  obtain ⟨byte, rest, rfl⟩ := List.exists_cons_of_ne_nil hinput
  rw [bridgeMessageDecoderPush] at h
  split at h
  · cases h
    exact absurd rfl hresult
  · split at h
    · cases h
      exact Nat.one_pos
    · cases h
      exact Nat.succ_pos _

/-- The inner loop of `client_task`: the result and the consumed count of every call made on a
chunk, and the decoder unless an error ended the connection. -/
def pushAgain (decoder : BridgeMessageDecoder) (input : List UInt8) :
    List (BridgeMessageDecodeResult × ℕ) × Option BridgeMessageDecoder :=
  if hinput : input = [] then ([], some decoder)
  else match h : bridgeMessageDecoderPush decoder input with
    | (result, consumed, decoder') =>
      if hresult : result.isError then ([(result, consumed)], none)
      else
        have := consumed_pos hinput hresult h
        have := List.length_pos_iff.mpr hinput
        let (calls, last) := pushAgain decoder' (input.drop consumed)
        ((result, consumed) :: calls, last)
termination_by input.length
decreasing_by
  rw [List.length_drop]
  omega

/-- One chunk after another, until an error. -/
def pushChunks (decoder : BridgeMessageDecoder) :
    List (List UInt8) → List (BridgeMessageDecodeResult × ℕ) × Option BridgeMessageDecoder
  | [] => ([], some decoder)
  | chunk :: chunks =>
    match pushAgain decoder chunk with
    | (calls, none) => (calls, none)
    | (calls, some decoder) =>
      let (later, last) := pushChunks decoder chunks
      (calls ++ later, last)

/-- The results other than `needMore`, each with the count of all bytes consumed so far. -/
def boundaries : ℕ → List (BridgeMessageDecodeResult × ℕ) → List (BridgeMessageDecodeResult × ℕ)
  | _, [] => []
  | total, (result, consumed) :: calls =>
    if result = .needMore then boundaries (total + consumed) calls
    else (result, total + consumed) :: boundaries (total + consumed) calls

def consumedBy (calls : List (BridgeMessageDecodeResult × ℕ)) : ℕ := (calls.map Prod.snd).sum

theorem boundaries_append (total : ℕ) (calls later : List (BridgeMessageDecodeResult × ℕ)) :
    boundaries total (calls ++ later) =
      boundaries total calls ++ boundaries (total + consumedBy calls) later := by
  induction calls generalizing total with
  | nil => rfl
  | cons call calls ih =>
    obtain ⟨result, consumed⟩ := call
    have hsum : total + consumed + consumedBy calls =
        total + consumedBy ((result, consumed) :: calls) := by
      rw [consumedBy, consumedBy, List.map_cons, List.sum_cons]
      omega
    rw [List.cons_append, boundaries, boundaries, ih, hsum]
    split <;> rfl

/-- The whole-stream parser: every frame and where it ends, up to the first error. -/
def referenceParse (stream : List UInt8) : List (BridgeMessageDecodeResult × ℕ) :=
  managementGrammar.parse BridgeMessageDecodeResult.isError 0 stream

section PushAgain
variable {decoder decoder' : BridgeMessageDecoder} {input : List UInt8}
  {result : BridgeMessageDecodeResult} {consumed : ℕ}

@[simp] theorem pushAgain_nil : pushAgain decoder [] = ([], some decoder) := by
  rw [pushAgain, dif_pos rfl]

theorem pushAgain_error (hinput : input ≠ []) (hresult : result.isError)
    (h : bridgeMessageDecoderPush decoder input = (result, consumed, decoder')) :
    pushAgain decoder input = ([(result, consumed)], none) := by
  rw [pushAgain, dif_neg hinput]
  split
  next heq =>
    rw [h] at heq
    cases heq
    rw [dif_pos hresult]

theorem pushAgain_more (hinput : input ≠ []) (hresult : ¬ result.isError)
    (h : bridgeMessageDecoderPush decoder input = (result, consumed, decoder')) :
    pushAgain decoder input = ((result, consumed) :: (pushAgain decoder' (input.drop consumed)).1,
      (pushAgain decoder' (input.drop consumed)).2) := by
  rw [pushAgain, dif_neg hinput]
  split
  next heq =>
    rw [h] at heq
    cases heq
    rw [dif_neg hresult]

end PushAgain

/-- The calls made on `input` by a decoder that holds `part`, which begins at `start`: they give
the results of the whole stream, and what is left is undecided unless an error ended it. -/
def Continues (start : ℕ) (part input : List UInt8) :
    List (BridgeMessageDecodeResult × ℕ) × Option BridgeMessageDecoder → Prop
  | (calls, none) => ∀ later,
    managementGrammar.parse BridgeMessageDecodeResult.isError start (part ++ input ++ later) =
      boundaries (start + part.length) calls
  | (calls, some decoder) => ∃ part' start', decoder = holding part' ∧
    managementHead part' = none ∧ consumedBy calls = input.length ∧
    start' + part'.length = start + part.length + input.length ∧ ∀ later,
    managementGrammar.parse BridgeMessageDecodeResult.isError start (part ++ input ++ later) =
      boundaries (start + part.length) calls ++
        managementGrammar.parse BridgeMessageDecodeResult.isError start' (part' ++ later)

theorem managementHead_ne_needMore {s : List UInt8} {n : ℕ} :
    managementHead s ≠ some (.needMore, n) := by
  intro h
  rw [managementHead_eq_some] at h
  rcases h.2 with ⟨-, h, -⟩ | ⟨-, -, h, -⟩ | ⟨-, -, -, h, -⟩ <;> cases h

/-- A message in front of what is read already. -/
theorem Continues.cons {start n : ℕ} {part input : List UInt8} {result : BridgeMessageDecodeResult}
    {calls : List (BridgeMessageDecodeResult × ℕ)} {last : Option BridgeMessageDecoder}
    (h : managementHead part = none) (hs : managementHead (part ++ input) = some (result, n))
    (hresult : ¬ result.isError)
    (hc : Continues (start + n) [] (input.drop (n - part.length)) (calls, last)) :
    Continues start part input ((result, n - part.length) :: calls, last) := by
  have hlt := managementGrammar.lt_of_head_none h hs
  have hle := managementGrammar.le hs
  rw [List.length_append] at hle
  have hmore : result ≠ .needMore := by
    rintro rfl
    exact managementHead_ne_needMore hs
  have hparse (later : List UInt8) :
      managementGrammar.parse BridgeMessageDecodeResult.isError start (part ++ input ++ later) =
        (result, start + n) :: managementGrammar.parse BridgeMessageDecodeResult.isError (start + n)
          ([] ++ input.drop (n - part.length) ++ later) := by
    have hdrop : (part ++ input ++ later).drop n = input.drop (n - part.length) ++ later := by
      rw [List.drop_append_of_le_length (by rw [List.length_append]; exact hle),
        List.drop_append, List.drop_of_length_le (Nat.le_of_lt hlt), List.nil_append]
    rw [Grammar.parse_of_some (managementGrammar.append later hs), if_neg hresult, hdrop]
    rfl
  have hboundaries : boundaries (start + part.length) ((result, n - part.length) :: calls) =
      (result, start + n) :: boundaries (start + n + ([] : List UInt8).length) calls := by
    rw [boundaries, if_neg hmore, show start + part.length + (n - part.length) = start + n by omega]
    rfl
  cases last with
  | none =>
    intro later
    rw [hparse, hboundaries, hc later]
  | some decoder =>
    obtain ⟨part', start', hdecoder, hopen, hsum, hend, hrest⟩ := hc
    refine ⟨part', start', hdecoder, hopen, ?_, ?_, fun later => ?_⟩
    · rw [List.length_drop] at hsum
      rw [consumedBy, List.map_cons, List.sum_cons, ← consumedBy, hsum]
      omega
    · rw [hend, List.length_drop, List.length_nil]
      omega
    · rw [hparse, hboundaries, hrest later]
      rfl

theorem pushAgain_continues {part : List UInt8} (start : ℕ) (input : List UInt8)
    (h : managementHead part = none) :
    Continues start part input (pushAgain (holding part) input) := by
  induction hn : input.length using Nat.strong_induction_on generalizing part input start with
  | _ n ih =>
    subst hn
    by_cases hinput : input = []
    · subst hinput
      rw [pushAgain_nil]
      refine ⟨part, start, rfl, h, rfl, rfl, fun later => ?_⟩
      rw [List.append_nil]
      rfl
    have hpush := push_holding input h
    cases hs : managementHead (part ++ input) with
    | none =>
      rw [hs] at hpush
      have hmore : ¬ BridgeMessageDecodeResult.needMore.isError := Bool.false_ne_true
      rw [pushAgain_more hinput hmore hpush, List.drop_length, pushAgain_nil]
      refine ⟨part ++ input, start, rfl, hs, Nat.add_zero _, ?_, fun later => rfl⟩
      rw [List.length_append, Nat.add_assoc]
    | some decided =>
      obtain ⟨result, n⟩ := decided
      rw [hs] at hpush
      by_cases hresult : result.isError
      · rw [pushAgain_error hinput hresult hpush]
        intro later
        have hlt := managementGrammar.lt_of_head_none h hs
        have hmore : result ≠ .needMore := by
          rintro rfl
          cases hresult
        have hend : start + part.length + (n - part.length) = start + n := by omega
        rw [Grammar.parse_of_some (managementGrammar.append later hs), if_pos hresult, boundaries,
          if_neg hmore, hend]
        rfl
      · have hpos := consumed_pos hinput hresult hpush
        have hlength := List.length_pos_iff.mpr hinput
        rw [pushAgain_more hinput hresult hpush]
        refine Continues.cons h hs hresult ?_
        exact ih _ (by rw [List.length_drop]; omega) (start + n) _ managementGrammar.head_nil rfl

theorem pushChunks_continues {part : List UInt8} (start : ℕ) (chunks : List (List UInt8))
    (h : managementHead part = none) :
    Continues start part chunks.flatten (pushChunks (holding part) chunks) := by
  induction chunks generalizing part start with
  | nil =>
    refine ⟨part, start, rfl, h, rfl, rfl, fun later => ?_⟩
    rw [List.flatten_nil, List.append_nil]
    rfl
  | cons chunk chunks ih =>
    have hchunk := pushAgain_continues start chunk h
    rw [pushChunks]
    rcases hagain : pushAgain (holding part) chunk with ⟨calls, last⟩
    rw [hagain] at hchunk
    cases last with
    | none =>
      intro later
      have hall := hchunk (chunks.flatten ++ later)
      rwa [List.flatten_cons, ← List.append_assoc part, List.append_assoc (part ++ chunk)]
    | some decoder =>
      obtain ⟨part', start', rfl, hopen, hsum, hend, hfirst⟩ := hchunk
      have hlater := ih start' hopen
      dsimp only
      rcases hmore : pushChunks (holding part') chunks with ⟨calls', last'⟩
      rw [hmore] at hlater
      have htotal : start + part.length + consumedBy calls = start' + part'.length := by omega
      have hjoin (later : List UInt8) :
          part ++ (chunk :: chunks).flatten ++ later =
            part ++ chunk ++ (chunks.flatten ++ later) := by simp
      cases last' with
      | none =>
        intro later
        rw [hjoin, hfirst, boundaries_append, htotal, ← List.append_assoc part', hlater later]
      | some decoder' =>
        obtain ⟨part'', start'', hdecoder, hopen', hsum', hend', hrest⟩ := hlater
        refine ⟨part'', start'', hdecoder, hopen', ?_, ?_, fun later => ?_⟩
        · rw [consumedBy, List.map_append, List.sum_append, ← consumedBy, ← consumedBy, hsum, hsum',
            List.flatten_cons, List.length_append]
        · rw [List.flatten_cons, List.length_append]
          omega
        · rw [hjoin, hfirst, boundaries_append, htotal, ← List.append_assoc part', hrest later,
            List.append_assoc]

/-- The decoders at the head of the `while` loop, over all calls on a decoder reset once. -/
inductive Reached : BridgeMessageDecoder → Prop
  | reset : Reached bridgeMessageDecoderReset
  | store {decoder decoder' : BridgeMessageDecoder} {byte : UInt8} :
    Reached decoder → decoder.store byte = .ok decoder' → Reached decoder'

theorem Reached.holding {decoder : BridgeMessageDecoder} (h : Reached decoder) :
    ∃ part, managementHead part = none ∧ decoder = FlipforgeBridge.holding part := by
  induction h with
  | reset => exact ⟨[], managementGrammar.head_nil, rfl⟩
  | @store decoder decoder' byte _ hstore ih =>
    obtain ⟨part, hopen, rfl⟩ := ih
    rw [store_holding byte hopen] at hstore
    cases hs : managementHead (part ++ [byte]) with
    | none =>
      rw [hs] at hstore
      cases hstore
      exact ⟨part ++ [byte], hs, rfl⟩
    | some decided =>
      rw [hs] at hstore
      cases hstore

theorem Reached.push {decoder : BridgeMessageDecoder} (h : Reached decoder) (input : List UInt8) :
    Reached (bridgeMessageDecoderPush decoder input).2.2 := by
  induction input generalizing decoder with
  | nil => exact h
  | cons byte rest ih =>
    rw [bridgeMessageDecoderPush]
    split
    · exact .reset
    · split
      · exact .reset
      · next hstore => exact ih (h.store hstore)

theorem pushChunks_reference (chunks : List (List UInt8)) :
    boundaries 0 (pushChunks bridgeMessageDecoderReset chunks).1 =
        referenceParse chunks.flatten ∧
      ((pushChunks bridgeMessageDecoderReset chunks).2 ≠ none →
        consumedBy (pushChunks bridgeMessageDecoderReset chunks).1 = chunks.flatten.length) := by
  have hc : Continues 0 [] chunks.flatten (pushChunks bridgeMessageDecoderReset chunks) :=
    pushChunks_continues 0 chunks rfl
  rcases hpush : pushChunks bridgeMessageDecoderReset chunks with ⟨calls, last⟩
  rw [hpush] at hc
  cases last with
  | none =>
    have hall := hc []
    rw [List.append_nil] at hall
    exact ⟨hall.symm, fun h => absurd rfl h⟩
  | some decoder =>
    obtain ⟨part', start', -, hopen, hsum, -, hrest⟩ := hc
    have hopen' : managementGrammar.head part' = none := hopen
    have hall := hrest []
    rw [List.append_nil, List.append_nil, Grammar.parse_of_none hopen', List.append_nil] at hall
    exact ⟨hall.symm, fun _ => hsum⟩

/-- However a stream is cut into chunks, pushing them gives the results of the whole stream at
the same places; and whatever was pushed before, the buffer has room for the next byte, which a
push of a nonempty chunk takes. -/
theorem decoder_reads_reference :
    (∀ chunks : List (List UInt8),
      boundaries 0 (pushChunks bridgeMessageDecoderReset chunks).1 =
          referenceParse chunks.flatten ∧
        ((pushChunks bridgeMessageDecoderReset chunks).2 ≠ none →
          consumedBy (pushChunks bridgeMessageDecoderReset chunks).1 = chunks.flatten.length)) ∧
    ∀ decoder, Reached decoder → decoder.used + 1 ≤ bridgeManagementFrameSize ∧
      ∀ input, Reached (bridgeMessageDecoderPush decoder input).2.2 ∧
        (input ≠ [] → 0 < (bridgeMessageDecoderPush decoder input).2.1) := by
  refine ⟨pushChunks_reference, ?_⟩
  intro decoder h
  obtain ⟨part, hopen, rfl⟩ := h.holding
  refine ⟨length_lt_of_managementHead_none hopen, fun input => ⟨h.push input, fun hinput => ?_⟩⟩
  rw [push_holding input hopen]
  cases hs : managementHead (part ++ input) with
  | none => exact List.length_pos_iff.mpr hinput
  | some decided =>
    exact Nat.sub_pos_of_lt (managementGrammar.lt_of_head_none hopen hs)

/-- A header with a wrong first byte, in two pieces, is malformed at its fourteenth byte. -/
theorem decoder_reads_reference_noise :
    boundaries 0 (pushChunks bridgeMessageDecoderReset [[0, 1, 2], .replicate 20 9]).1 =
      [(.malformed, 14)] ∧
    0 < (bridgeMessageDecoderPush bridgeMessageDecoderReset [0, 1, 2]).2.1 := by
  have hhead : managementGrammar.head ([[0, 1, 2], .replicate 20 9] : List (List UInt8)).flatten =
      some (.malformed, 14) := by decide
  refine ⟨?_, ((decoder_reads_reference.2 _ .reset).2 [0, 1, 2]).2 (by decide)⟩
  rw [(decoder_reads_reference.1 [[0, 1, 2], .replicate 20 9]).1, referenceParse,
    Grammar.parse_of_some hhead]
  rfl

end FlipforgeBridge
