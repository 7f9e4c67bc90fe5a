import FlipforgeBridge.Expansion.Protocol
import FlipforgeBridge.Framing.Grammar

/-!
The Expansion Module Protocol as a grammar over the raw byte stream, noise included. The decoder
fed byte by byte answers as the grammar does at every byte.
-/
namespace FlipforgeBridge
open LittleEndian Framing

/-! ### The reference parser -/

def typeByte (stream : List UInt8) : ℕ := (stream.getD 0 0).toNat

/-- The byte after the type; the size of a DATA frame. -/
def secondByte (stream : List UInt8) : ℕ := (stream.getD 1 0).toNat

/-- The length of the frame, its checksum included. -/
def frameLength (stream : List UInt8) : ℕ :=
  if typeByte stream = 1 then 2
  else if typeByte stream = 3 then 6
  else if typeByte stream = 5 then 3 + secondByte stream
  else 3

/-- What a complete frame holds; `none` for a status above 2 or a control above 1. -/
def frameContent (frame : List UInt8) : Option ExpansionFrame :=
  if typeByte frame = 1 then some .heartbeat
  else if typeByte frame = 2 then
    ([.none, .unknown, .baudRate][secondByte frame]?).map ExpansionFrame.status
  else if typeByte frame = 3 then
    some (.baudRate (UInt32.ofNat ((frame.getD 1 0).toNat + 256 * ((frame.getD 2 0).toNat +
      256 * ((frame.getD 3 0).toNat + 256 * (frame.getD 4 0).toNat)))))
  else if typeByte frame = 4 then
    ([.startRpc, .stopRpc][secondByte frame]?).map ExpansionFrame.control
  else some (.data ((frame.drop 2).take (secondByte frame)))

/-- The result at the last byte of a frame. -/
def frameVerdict (frame : List UInt8) : ExpansionDecodeResult :=
  if (frame.take (frame.length - 1)).foldl (· ^^^ ·) 0 ≠ frame.getD (frame.length - 1) 0 then
    .checksumError
  else match frameContent frame with
    | none => .malformed
    | some content => .frameReady content

def expansionHead (stream : List UInt8) : Option (ExpansionDecodeResult × ℕ) :=
  if stream.length < 1 then none
  else if typeByte stream < 1 ∨ 5 < typeByte stream then some (.malformed, 1)
  else if typeByte stream = 5 ∧ stream.length < 2 then none
  else if typeByte stream = 5 ∧ 64 < secondByte stream then some (.malformed, 2)
  else if stream.length < frameLength stream then none
  else some (frameVerdict (stream.take (frameLength stream)), frameLength stream)

section Prefix
variable {s : List UInt8} (t : List UInt8)

theorem byte_append {i : ℕ} (hi : i < s.length) : (s ++ t).getD i 0 = s.getD i 0 := by
  rw [List.getD_eq_getElem?_getD, List.getD_eq_getElem?_getD, List.getElem?_append_left hi]

theorem typeByte_append (h : 1 ≤ s.length) : typeByte (s ++ t) = typeByte s := by
  rw [typeByte, typeByte, byte_append t h]

theorem secondByte_append (h : 2 ≤ s.length) : secondByte (s ++ t) = secondByte s := by
  rw [secondByte, secondByte, byte_append t h]

theorem frameLength_append (h : 1 ≤ s.length) (hsize : typeByte s = 5 → 2 ≤ s.length) :
    frameLength (s ++ t) = frameLength s := by
  unfold frameLength
  rw [typeByte_append t h]
  by_cases htype : typeByte s = 5
  · rw [secondByte_append t (hsize htype)]
  · rw [if_neg htype, if_neg htype]

end Prefix

theorem two_le_frameLength (stream : List UInt8) : 2 ≤ frameLength stream := by
  unfold frameLength
  split_ifs <;> omega

theorem frameLength_le {stream : List UInt8}
    (h : typeByte stream = 5 → secondByte stream ≤ 64) : frameLength stream ≤ 67 := by
  unfold frameLength
  split_ifs <;> omega

/-- The three ways a frame can be decided. -/
theorem expansionHead_eq_some {s : List UInt8} {r : ExpansionDecodeResult} {n : ℕ} :
    expansionHead s = some (r, n) ↔ 1 ≤ s.length ∧
      ((typeByte s < 1 ∨ 5 < typeByte s) ∧ r = .malformed ∧ n = 1 ∨
        typeByte s = 5 ∧ 2 ≤ s.length ∧ 64 < secondByte s ∧ r = .malformed ∧ n = 2 ∨
        1 ≤ typeByte s ∧ typeByte s ≤ 5 ∧
          (typeByte s = 5 → 2 ≤ s.length ∧ secondByte s ≤ 64) ∧ frameLength s ≤ s.length ∧
          r = frameVerdict (s.take (frameLength s)) ∧ n = frameLength s) := by
  unfold expansionHead
  have hsome (r' : ExpansionDecodeResult) (n' : ℕ) :
      some (r', n') = some (r, n) ↔ r = r' ∧ n = n' := by
    rw [Option.some_inj, Prod.mk.injEq]
    exact and_congr eq_comm eq_comm
  have hlow := two_le_frameLength s
  split_ifs <;> simp only [hsome, false_iff] <;> grind

theorem expansionHead_append {s : List UInt8} {r : ExpansionDecodeResult} {n : ℕ}
    (t : List UInt8) (h : expansionHead s = some (r, n)) :
    expansionHead (s ++ t) = some (r, n) := by
  rw [expansionHead_eq_some] at h ⊢
  obtain ⟨hle, hcases⟩ := h
  have hlength : (s ++ t).length = s.length + t.length := List.length_append
  rw [typeByte_append t hle]
  refine ⟨by omega, ?_⟩
  rcases hcases with hbad | ⟨htype, htwo, hlarge⟩ | ⟨hlow, hhigh, hsize, henough, hr, hn⟩
  · exact .inl hbad
  · rw [secondByte_append t htwo]
    exact .inr (.inl ⟨htype, by omega, hlarge⟩)
  · rw [frameLength_append t hle fun h => (hsize h).1, List.take_append_of_le_length henough]
    refine .inr (.inr ⟨hlow, hhigh, fun htype => ?_, by omega, hr, hn⟩)
    rw [secondByte_append t (hsize htype).1]
    exact ⟨by have := (hsize htype).1; omega, (hsize htype).2⟩

theorem expansionHead_le {s : List UInt8} {r : ExpansionDecodeResult} {n : ℕ}
    (h : expansionHead s = some (r, n)) : 1 ≤ n ∧ n ≤ s.length := by
  rw [expansionHead_eq_some] at h
  have htwo := two_le_frameLength s
  omega

theorem expansionHead_take {s : List UInt8} {r : ExpansionDecodeResult} {n : ℕ}
    (h : expansionHead s = some (r, n)) : expansionHead (s.take n) = some (r, n) := by
  obtain ⟨hn, hle⟩ := expansionHead_le h
  have hlength : (s.take n).length = n := by
    rw [List.length_take]
    omega
  have hs : s.take n ++ s.drop n = s := List.take_append_drop n s
  have htype := typeByte_append (s.drop n) (show 1 ≤ (s.take n).length by omega)
  have hsecond (h2 : 2 ≤ n) := secondByte_append (s.drop n) (show 2 ≤ (s.take n).length by omega)
  have hframe := frameLength_append (s.drop n) (show 1 ≤ (s.take n).length by omega)
  rw [hs] at htype hframe
  simp only [hs] at hsecond
  have hwhole := two_le_frameLength s
  rw [expansionHead_eq_some] at h ⊢
  rw [hlength, ← htype]
  refine ⟨hn, ?_⟩
  rcases h.2 with hbad | ⟨hdata, htwo, hlarge, hr, rfl⟩ | ⟨hlow, hhigh, hsize, henough, hr, hn'⟩
  · exact .inl hbad
  · rw [← hsecond (Nat.le_refl 2)]
    exact .inr (.inl ⟨hdata, Nat.le_refl 2, hlarge, hr, rfl⟩)
  · have hsame := hframe fun _ => by omega
    rw [← hsame, ← hsecond (by omega), List.take_take, hn', Nat.min_self]
    exact .inr (.inr ⟨hlow, hhigh, fun h => ⟨hwhole, (hsize h).2⟩, Nat.le_refl _, hr, rfl⟩)

/-- The grammar of the raw byte stream. -/
def expansionGrammar : Grammar UInt8 ExpansionDecodeResult where
  head := expansionHead
  pos h := (expansionHead_le h).1
  le h := (expansionHead_le h).2
  append := expansionHead_append
  take := expansionHead_take

theorem expansionHead_eq_none {s : List UInt8} : expansionHead s = none ↔ s.length < 1 ∨
    1 ≤ typeByte s ∧ typeByte s ≤ 5 ∧ (typeByte s = 5 ∧ s.length < 2 ∨
      (typeByte s = 5 → 2 ≤ s.length ∧ secondByte s ≤ 64) ∧ s.length < frameLength s) := by
  unfold expansionHead
  have hlow := two_le_frameLength s
  split_ifs <;> simp only [false_iff, true_iff] <;> grind

theorem length_of_expansionHead_none {s : List UInt8} (h : expansionHead s = none) :
    s.length < 67 := by
  rw [expansionHead_eq_none] at h
  have hle : (typeByte s = 5 → secondByte s ≤ 64) → frameLength s ≤ 67 := frameLength_le
  omega

/-! ### The decoder -/

/-- The decoder after some bytes that decide nothing yet. -/
def holdingFrame (part : List UInt8) : ExpansionDecoder where
  bytes := part
  expected :=
    if part.length < 1 ∨ typeByte part = 5 ∧ part.length < 2 then 0 else frameLength part

@[simp] theorem holdingFrame_bytes (part : List UInt8) : (holdingFrame part).bytes = part := rfl

theorem eq_of_toNat {byte : UInt8} {n : ℕ} (h : byte.toNat = n) : byte = UInt8.ofNat n := by
  rw [← h, UInt8.ofNat_toNat]

/-- The two checks made before a frame is complete. -/
def EarlyError (s : List UInt8) : Prop :=
  s.length = 1 ∧ (typeByte s < 1 ∨ 5 < typeByte s) ∨
    s.length = 2 ∧ typeByte s = 5 ∧ 64 < secondByte s

theorem decoderSetExpected_first (byte : UInt8) :
    decoderSetExpected { bytes := [byte], expected := 0 } =
      if byte.toNat < 1 ∨ 5 < byte.toNat then none else some (holdingFrame [byte]) := by
  unfold decoderSetExpected
  rw [if_pos (show ExpansionDecoder.used { bytes := [byte], expected := 0 } = 1 from rfl)]
  simp only [ExpansionDecoder.byte, List.getD_cons_zero]
  split
  all_goals try rfl
  next h1 h2 h4 h3 h5 =>
    have hbad : byte.toNat < 1 ∨ 5 < byte.toNat := by
      by_contra hgood
      have hcases : byte.toNat = 1 ∨ byte.toNat = 2 ∨ byte.toNat = 3 ∨ byte.toNat = 4 ∨
          byte.toNat = 5 := by omega
      rcases hcases with h | h | h | h | h
      · exact h1 (eq_of_toNat h)
      · exact h2 (eq_of_toNat h)
      · exact h3 (eq_of_toNat h)
      · exact h4 (eq_of_toNat h)
      · exact h5 (eq_of_toNat h)
    rw [if_pos hbad]

/-- The checks find what the grammar calls an early error, and otherwise set the length. -/
theorem decoderSetExpected_holding {part : List UInt8} (byte : UInt8)
    (h : expansionHead part = none) :
    (EarlyError (part ++ [byte]) ∧ decoderSetExpected
      { holdingFrame part with bytes := (holdingFrame part).bytes ++ [byte] } = none) ∨
    (¬ EarlyError (part ++ [byte]) ∧ decoderSetExpected
      { holdingFrame part with bytes := (holdingFrame part).bytes ++ [byte] } =
        some (holdingFrame (part ++ [byte]))) := by
  rw [holdingFrame_bytes]
  by_cases hempty : part.length < 1
  · obtain rfl : part = [] := List.length_eq_zero_iff.mp (by omega)
    have hfirst := decoderSetExpected_first byte
    by_cases hbad : byte.toNat < 1 ∨ 5 < byte.toNat
    · rw [if_pos hbad] at hfirst
      exact .inl ⟨.inl ⟨rfl, hbad⟩, hfirst⟩
    · rw [if_neg hbad] at hfirst
      refine .inr ⟨?_, hfirst⟩
      rintro (⟨-, hbad'⟩ | ⟨htwo, -⟩)
      · exact hbad hbad'
      · cases htwo
  have hlength : (part ++ [byte]).length = part.length + 1 := by simp
  have htype := typeByte_append [byte] (Nat.not_lt.mp hempty)
  have hzero : (part ++ [byte]).getD 0 0 = 5 ↔ typeByte part = 5 := by
    rw [← htype, typeByte]
    exact ⟨fun h => by rw [h]; rfl, fun h => eq_of_toNat h⟩
  unfold decoderSetExpected
  simp only [ExpansionDecoder.used, ExpansionDecoder.byte, hlength, hzero]
  rw [if_neg (by omega)]
  rw [expansionHead_eq_none] at h
  by_cases hsecond : part.length + 1 = 2 ∧ typeByte part = 5
  · rw [if_pos hsecond]
    by_cases hlarge : 64 < secondByte (part ++ [byte])
    · exact .inl ⟨.inr ⟨by omega, by omega, hlarge⟩, if_pos hlarge⟩
    · refine .inr ⟨?_, ?_⟩
      · rintro (⟨hone, -⟩ | ⟨-, -, hlarge'⟩)
        · omega
        · exact hlarge hlarge'
      · have hframe : frameLength (part ++ [byte]) = 3 + secondByte (part ++ [byte]) := by
          simp [frameLength, htype, hsecond.2]
        have hhold : holdingFrame (part ++ [byte]) =
            { bytes := part ++ [byte], expected := 3 + secondByte (part ++ [byte]) } := by
          rw [holdingFrame, if_neg (by omega), hframe]
        rw [hhold]
        exact if_neg hlarge
  · rw [if_neg hsecond]
    have hframe := frameLength_append [byte] (Nat.not_lt.mp hempty) (fun h5 => by omega)
    refine .inr ⟨?_, ?_⟩
    · rintro (⟨hone, -⟩ | ⟨htwo, h5, -⟩)
      · omega
      · exact hsecond ⟨by omega, by omega⟩
    · rw [holdingFrame, holdingFrame, if_neg (by omega), if_neg (by omega), hframe]

theorem ExpansionDecoder.frame_eq {decoder : ExpansionDecoder}
    (hlow : 1 ≤ typeByte decoder.bytes) (hhigh : typeByte decoder.bytes ≤ 5) :
    decoder.frame = frameContent decoder.bytes := by
  have htype {n : UInt8} (h : decoder.byte 0 = n) : typeByte decoder.bytes = n.toNat :=
    congrArg UInt8.toNat h
  unfold ExpansionDecoder.frame
  split
  · next h => simp [frameContent, htype h]
  · next h =>
    simp only [frameContent, htype h]
    rfl
  · next h =>
    simp only [frameContent, htype h, readU32Le_eq_ofNat]
    rfl
  · next h =>
    simp only [frameContent, htype h]
    rfl
  · next h =>
    simp only [frameContent, htype h]
    rfl
  · next h1 h2 h3 h4 h5 =>
    have hcases : typeByte decoder.bytes = 1 ∨ typeByte decoder.bytes = 2 ∨
        typeByte decoder.bytes = 3 ∨ typeByte decoder.bytes = 4 ∨
        typeByte decoder.bytes = 5 := by omega
    rcases hcases with h | h | h | h | h
    · exact absurd (eq_of_toNat h) h1
    · exact absurd (eq_of_toNat h) h2
    · exact absurd (eq_of_toNat h) h3
    · exact absurd (eq_of_toNat h) h4
    · exact absurd (eq_of_toNat h) h5

/-- The bytes of a complete frame are judged as the grammar does. -/
theorem frameVerdict_eq {decoder : ExpansionDecoder}
    (hlow : 1 ≤ typeByte decoder.bytes) (hhigh : typeByte decoder.bytes ≤ 5)
    (h : decoder.used = decoder.expected) :
    (if expansionProtocolChecksum (decoder.bytes.take (decoder.expected - 1)) ≠
        decoder.byte (decoder.expected - 1) then (.checksumError, expansionDecoderReset)
      else match decoder.frame with
        | none => (.malformed, expansionDecoderReset)
        | some frame => (.frameReady frame, expansionDecoderReset)) =
      (frameVerdict decoder.bytes, expansionDecoderReset) := by
  rw [← h, decoder.frame_eq hlow hhigh, frameVerdict]
  by_cases hsum : (decoder.bytes.take (decoder.bytes.length - 1)).foldl (· ^^^ ·) 0 ≠
      decoder.bytes.getD (decoder.bytes.length - 1) 0
  · rw [if_pos hsum]
    exact if_pos hsum
  · rw [if_neg hsum]
    refine (if_neg hsum).trans ?_
    cases frameContent decoder.bytes <;> rfl

theorem expansionHead_of_earlyError {s : List UInt8} (h : EarlyError s) :
    ∃ n, expansionHead s = some (.malformed, n) := by
  rcases h with ⟨hone, hbad⟩ | ⟨htwo, h5, hlarge⟩
  · exact ⟨1, expansionHead_eq_some.mpr ⟨by omega, .inl ⟨hbad, rfl, rfl⟩⟩⟩
  · exact ⟨2, expansionHead_eq_some.mpr ⟨by omega, .inr (.inl ⟨h5, by omega, hlarge, rfl, rfl⟩)⟩⟩

/-- After a byte that is no early error the frame is complete exactly when as many bytes are
there as expected, and never more. -/
theorem holdingFrame_complete {part : List UInt8} {byte : UInt8} (h : expansionHead part = none)
    (hearly : ¬ EarlyError (part ++ [byte])) :
    (expansionHead (part ++ [byte]) = none ∧
      ((holdingFrame (part ++ [byte])).expected = 0 ∨
        (holdingFrame (part ++ [byte])).used < (holdingFrame (part ++ [byte])).expected)) ∨
    (∃ n, expansionHead (part ++ [byte]) = some (frameVerdict (part ++ [byte]), n)) ∧
      1 ≤ typeByte (part ++ [byte]) ∧ typeByte (part ++ [byte]) ≤ 5 ∧
      ¬ (holdingFrame (part ++ [byte])).expected = 0 ∧
      (holdingFrame (part ++ [byte])).used = (holdingFrame (part ++ [byte])).expected := by
  have hlength : (part ++ [byte]).length = part.length + 1 := by simp
  simp only [ExpansionDecoder.used, holdingFrame]
  cases hs : expansionHead (part ++ [byte]) with
  | none =>
    have hcases := expansionHead_eq_none.mp hs
    refine .inl ⟨rfl, ?_⟩
    split_ifs <;> omega
  | some decided =>
    obtain ⟨result, n⟩ := decided
    obtain rfl : n = part.length + 1 := expansionGrammar.eq_of_head_concat h hs
    have hcases := (expansionHead_eq_some.mp hs).2
    rcases hcases with ⟨hbad, -, hn⟩ | ⟨h5, -, hlarge, -, hn⟩ |
      ⟨hlow, hhigh, hsize, -, hr, hn⟩
    · exact absurd (.inl ⟨by omega, hbad⟩) hearly
    · exact absurd (.inr ⟨by omega, h5, hlarge⟩) hearly
    · rw [List.take_of_length_le (by omega)] at hr
      have htwo := two_le_frameLength (part ++ [byte])
      have hknown : ¬ ((part ++ [byte]).length < 1 ∨
          typeByte (part ++ [byte]) = 5 ∧ (part ++ [byte]).length < 2) := by omega
      rw [if_neg hknown]
      exact .inr ⟨⟨_, congrArg (fun r => some (r, part.length + 1)) hr⟩, hlow, hhigh, by omega,
        by omega⟩

/-- What one push answers, by what the grammar says of the bytes since the last restart. -/
theorem expansionDecoderPush_holding {part : List UInt8} (byte : UInt8)
    (h : expansionHead part = none) :
    expansionDecoderPush (holdingFrame part) byte =
      match expansionHead (part ++ [byte]) with
      | none => (.needMore, holdingFrame (part ++ [byte]))
      | some (result, _) => (result, expansionDecoderReset) := by
  have hroom : ¬ expansionFrameSize ≤ (holdingFrame part).used :=
    Nat.not_le.mpr (length_of_expansionHead_none h)
  rw [expansionDecoderPush, if_neg hroom]
  rcases decoderSetExpected_holding byte h with ⟨hearly, hset⟩ | ⟨hearly, hset⟩
  · obtain ⟨n, hhead⟩ := expansionHead_of_earlyError hearly
    rw [hset, hhead]
  · rw [hset]
    rcases holdingFrame_complete h hearly with ⟨hhead, hmore⟩ |
        ⟨⟨n, hhead⟩, hlow, hhigh, hsome, hused⟩
    · rw [hhead]
      exact if_pos hmore
    · rw [hhead]
      dsimp only
      rw [if_neg (by omega), if_neg (fun hne => hne hused)]
      exact @frameVerdict_eq (holdingFrame (part ++ [byte])) hlow hhigh hused

theorem expansionDecoderPush_decides :
    expansionGrammar.Decides expansionDecoderPush .needMore holdingFrame where
  wait h hb := by
    rw [expansionDecoderPush_holding _ h, show expansionHead _ = none from hb]
  done h hb := by
    rw [expansionDecoderPush_holding _ h, show expansionHead _ = some _ from hb]
    rfl

/-- All bytes of a stream pushed into one decoder. -/
def pushBytes (stream : List UInt8) : List ExpansionDecodeResult × ExpansionDecoder :=
  Grammar.feed expansionDecoderPush expansionDecoderReset stream

theorem expansionHead_ne_needMore {s : List UInt8} {n : ℕ} :
    expansionHead s ≠ some (.needMore, n) := by
  intro h
  rw [expansionHead_eq_some] at h
  rcases h.2 with ⟨-, h, -⟩ | ⟨-, -, -, h, -⟩ | ⟨-, -, -, -, h, -⟩
  · cases h
  · cases h
  · unfold frameVerdict at h
    split at h
    · cases h
    · split at h <;> cases h

/-- The decoder answers every byte of any stream as the grammar does. Between pushes it holds at
most 66 bytes, a byte that completes a frame never overshoots it, and no 67 pushes in a row ask
for more. -/
theorem expansion_decoder_reads_reference (stream : List UInt8) :
    (pushBytes stream).1 = expansionGrammar.spread .needMore stream ∧
    (pushBytes stream).2.used ≤ 66 ∧
    (∀ byte decoder, decoderSetExpected
        { (pushBytes stream).2 with bytes := (pushBytes stream).2.bytes ++ [byte] } =
          some decoder →
      ¬ (decoder.expected = 0 ∨ decoder.used < decoder.expected) →
      decoder.used = decoder.expected) ∧
    ∀ window : List UInt8, window.length = 67 →
      ∃ result ∈ (Grammar.feed expansionDecoderPush (pushBytes stream).2 window).1,
        result ≠ .needMore := by
  obtain ⟨hresults, part, hopen, hpart⟩ :=
    Grammar.feed_eq_spread expansionDecoderPush_decides stream
  change (pushBytes stream).2 = holdingFrame part at hpart
  refine ⟨hresults, ?_, ?_, ?_⟩
  · have hlength := length_of_expansionHead_none hopen
    rw [hpart]
    exact Nat.le_of_lt_succ hlength
  · intro byte decoder hset hcomplete
    rw [hpart] at hset
    rcases decoderSetExpected_holding byte hopen with ⟨-, hnone⟩ | ⟨hearly, hsome⟩
    · cases hset.symm.trans hnone
    · cases hset.symm.trans hsome
      rcases holdingFrame_complete hopen hearly with ⟨-, hmore⟩ | ⟨-, -, -, -, hused⟩
      · exact absurd hmore hcomplete
      · exact hused
  · intro window hwindow
    rw [hpart]
    obtain ⟨result, hmem, s, n, hs⟩ := Grammar.exists_decision expansionDecoderPush_decides
      (fun s => length_of_expansionHead_none) hopen (Nat.le_of_eq hwindow.symm)
    refine ⟨result, hmem, ?_⟩
    rintro rfl
    exact expansionHead_ne_needMore hs

/-- After the first byte of a heartbeat. -/
theorem expansion_decoder_reads_reference_heartbeat :
    (holdingFrame [1, 1]).used = (holdingFrame [1, 1]).expected ∧
    ∃ result ∈ (Grammar.feed expansionDecoderPush (pushBytes [1]).2 (.replicate 67 1)).1,
      result ≠ .needMore :=
  ⟨(expansion_decoder_reads_reference [1]).2.2.1 1 _ rfl (by decide),
    (expansion_decoder_reads_reference [1]).2.2.2 _ rfl⟩

end FlipforgeBridge
